import Fluxon.Foundations.Run
import Fluxon.OwnerKey.Control

/-!
# The owner's key records and the guards on them

The records together with everything that holds on to them: the guards of pending puts with the
number of their clones, the dropped guards whose slot is not returned yet, and the operations in
flight. One step is one section of `Fluxon.OwnerKey.Control`, or a change of a guard that touches no
record; the steps of different threads interleave in any order.

A guard of a pending put that is dropped with its slot lease still attached leaves the return of the
slot to a task, and the counts are released when the task has succeeded. When the return of the slot
fails, the counts are kept for ever, since the slot may still be live.
-/

namespace Fluxon.OwnerKey

open OwnerKey

/-- What has become of a guard of a pending put. -/
inductive FencePhase
  /-- The guard is live, with this number of clones. -/
  | held (clones : ℕ)
  /-- The guard is dropped, and a task returns its slot. -/
  | cleaning
  /-- The guard is dropped, and the return of its slot has failed. -/
  | retained
  deriving DecidableEq, Repr

/-- `ExternalPendingPutFenceGuard`. The operation of a local-first put is known by its guard. -/
structure PutFence where
  key : String
  ownsLocalPut : Bool
  localSlotLease : Bool := false
  localSlotReleaseFailed : Bool := false
  phase : FencePhase := .held 1
  deriving DecidableEq, Repr

/-- An operation in flight. It is completed before its marker is cleared. -/
structure Flight where
  kind : FlightKind
  key : String
  putId : PutId
  completed : Bool := false
  deriving DecidableEq, Repr

structure World where
  controls : Controls
  fences : Table ℕ PutFence
  flights : Table ℕ Flight
  nextId : ℕ

inductive Event
  | reserveExternalLocalFirstPutKey (key : String) (rejectIfInflight rejectIfExist visible : Bool)
  | acquireExternalPendingPutFence (key : String)
  | cloneFence (id : ℕ)
  /-- one clone of a guard is dropped -/
  | dropFence (id : ℕ)
  | attachLocalSlotLease (id : ℕ)
  | disarmLocalSlotLease (id : ℕ)
  /-- `release_local_slot_lease_now` takes the lease -/
  | takeLocalSlotLease (id : ℕ)
  /-- the return of the lease that it took has failed -/
  | failLocalSlotRelease (id : ℕ)
  /-- the task that returns the slot of a dropped guard succeeds or fails -/
  | cleanup (id : ℕ) (returned : Bool)
  | reserveOwnerKeyMaterialization (key : String) (putId : PutId)
  | beginAsyncGetKeyMaterialization (key : String) (putId : PutId)
  | planExternalGetKey (key : String) (revoking : ℕ → Bool) (visible : Bool)
  | beginOwnerRemotePut (key : String) (putId : PutId) (cached admitted : Bool)
  | beginOwnerLocalSsdPut (key : String) (putId : PutId) (victim : Option Bool) (cached : Bool)
  /-- an operation is completed -/
  | complete (id : ℕ)
  /-- the section of the `finish` that has completed an operation -/
  | finish (id : ℕ)
  | installSourceSelectionFence (key : String) (putId : PutId) (pending cached : Bool)
  | restoreSourceSelection (key : String) (putId : PutId)
  | prepareOne (key : String) (item : ReclaimItem) (ready : Bool)
  | releaseOne (key : String) (item : ReclaimItem)
  | commitOne (key : String) (item : ReclaimItem)
  | abortOne (key : String) (item : ReclaimItem)
  | finalizeOne (key : String) (item : ReclaimItem)

namespace World

def initial : World := ⟨∅, ∅, ∅, 0⟩

variable (w : World)

/-- A new guard of a pending put on its key. -/
def addFence (controls : Controls) (fence : PutFence) : World :=
  { w with controls, fences := w.fences.insert w.nextId fence, nextId := w.nextId + 1 }

/-- A new operation in flight. -/
def addFlight (controls : Controls) (flight : Flight) : World :=
  { w with controls, flights := w.flights.insert w.nextId flight, nextId := w.nextId + 1 }

/-- Has an operation in flight the given generation? -/
def sameGeneration (putId : PutId) (op : ℕ) : Bool :=
  match w.flights.lookup op with
  | some flight => decide (flight.putId = putId)
  | none => false

/-- Is an operation terminal? -/
def terminal (op : ℕ) : Bool :=
  match w.flights.lookup op with
  | some flight => flight.completed
  | none => true

variable (id : ℕ) (fence : PutFence)

/-- The counts of a guard are released, and the guard is gone. -/
def releaseFence : Option World :=
  (releaseExternalPendingPutCounts w.controls fence.key fence.ownsLocalPut id).map fun controls =>
    { w with controls, fences := w.fences.erase id }

/-- `Drop` of `ExternalPendingPutFenceGuard`. -/
def dropLast : Option World :=
  if fence.localSlotLease then
    some { w with fences := w.fences.insert id { fence with phase := .cleaning } }
  else if fence.localSlotReleaseFailed then
    some { w with fences := w.fences.insert id { fence with phase := .retained } }
  else w.releaseFence id fence

/-- The guard of a held fence is used. -/
def withHeld (f : PutFence → ℕ → Option World) : Option World :=
  match w.fences.lookup id with
  | some fence =>
    match fence.phase with
    | .held clones => f fence clones
    | .cleaning => none
    | .retained => none
  | none => none

/-- A held guard is rewritten; no record changes. -/
def rewrite : World :=
  { w with fences := w.fences.insert id fence }

/-- A background put: the answer, and the flight of a leader. -/
def background (kind : FlightKind) (key : String) (putId : PutId)
    (r : BackgroundReservation × Controls) : World :=
  if r.1 = .leader then w.addFlight r.2 { kind, key, putId } else { w with controls := r.2 }

/-- The section of the `finish` of an operation. -/
def finish (flight : Flight) : World :=
  { w with
    controls := clearMarker flight.kind w.controls flight.key id
    flights := w.flights.erase id }

/-- One step of an owner. -/
def step : Event → Option World
  | .reserveExternalLocalFirstPutKey key rejectIfInflight rejectIfExist visible =>
    (reserveExternalLocalFirstPutKey w.controls key rejectIfInflight rejectIfExist visible
      w.nextId).map fun r =>
        if r.1 = .leader then w.addFence r.2 { key, ownsLocalPut := true } else w
  | .acquireExternalPendingPutFence key =>
    (acquireExternalPendingPutFence w.controls key).map fun r =>
      match r with
      | some controls => w.addFence controls { key, ownsLocalPut := false }
      | none => w
  | .cloneFence id =>
    w.withHeld id fun fence clones => some (w.rewrite id { fence with phase := .held (clones + 1) })
  | .dropFence id =>
    w.withHeld id fun fence clones =>
      if clones ≤ 1 then w.dropLast id fence
      else some (w.rewrite id { fence with phase := .held (clones - 1) })
  | .attachLocalSlotLease id =>
    w.withHeld id fun fence _ =>
      if fence.ownsLocalPut = false ∨ fence.localSlotLease then none
      else some (w.rewrite id { fence with localSlotLease := true })
  | .disarmLocalSlotLease id =>
    w.withHeld id fun fence _ =>
      if fence.localSlotLease then some (w.rewrite id { fence with localSlotLease := false })
      else none
  | .takeLocalSlotLease id =>
    w.withHeld id fun fence _ => some (w.rewrite id { fence with localSlotLease := false })
  | .failLocalSlotRelease id =>
    w.withHeld id fun fence _ => some (w.rewrite id { fence with localSlotReleaseFailed := true })
  | .cleanup id returned =>
    match w.fences.lookup id with
    | some fence =>
      if fence.phase = .cleaning then
        if returned then w.releaseFence id fence
        else some (w.rewrite id { fence with phase := .retained })
      else none
    | none => none
  | .reserveOwnerKeyMaterialization key putId =>
    some (if (reserveOwnerKeyMaterialization w.controls key w.nextId).1 = .leader then
      w.addFlight (reserveOwnerKeyMaterialization w.controls key w.nextId).2
        { kind := .ownerMaterialization, key, putId }
      else w)
  | .beginAsyncGetKeyMaterialization key putId =>
    match beginAsyncGetKeyMaterialization w.controls key w.nextId with
    | some controls => some (w.addFlight controls { kind := .ownerMaterialization, key, putId })
    | none => some w
  | .planExternalGetKey key revoking visible =>
    some (if (planExternalGetKey w.controls key revoking visible w.nextId).1 = .leader then
      w.addFlight (planExternalGetKey w.controls key revoking visible w.nextId).2
        { kind := .externalGet, key, putId := (0, 0) }
      else w)
  | .beginOwnerRemotePut key putId cached admitted =>
    some (w.background .remotePut key putId (beginOwnerRemotePut w.controls key
      (w.sameGeneration putId) w.terminal cached admitted w.nextId))
  | .beginOwnerLocalSsdPut key putId victim cached =>
    some (w.background .localSsdPut key putId (beginOwnerLocalSsdPut w.controls key
      (w.sameGeneration putId) w.terminal putId victim cached w.nextId))
  | .complete id =>
    match w.flights.lookup id with
    | some flight =>
      -- a get is completed in the section that clears its marker
      if flight.completed ∨ flight.kind = .externalGet then none
      else some { w with flights := w.flights.insert id { flight with completed := true } }
    | none => none
  | .finish id =>
    match w.flights.lookup id with
    | some flight =>
      if flight.completed ∨ flight.kind = .externalGet then some (w.finish id flight) else none
    | none => none
  | .installSourceSelectionFence key putId pending cached =>
    (installSourceSelectionFence w.controls key putId pending cached).map fun r =>
      { w with controls := r.2 }
  | .restoreSourceSelection key putId =>
    (restoreSourceSelection w.controls key putId).map fun r =>
      { w with controls := r.2 }
  | .prepareOne key item ready =>
    (prepareOne w.controls key item ready).map fun controls => { w with controls }
  | .releaseOne key item => some { w with controls := releaseOne w.controls key item }
  | .commitOne key item => (commitOne w.controls key item).map fun controls => { w with controls }
  | .abortOne key item => (abortOne w.controls key item).map fun controls => { w with controls }
  | .finalizeOne key item =>
    (finalizeOne w.controls key item).map fun controls => { w with controls }

/-- The steps as a relation. -/
def Step (ev : Event) (w' : World) : Prop := w.step ev = some w'

/-- The record of a key. -/
abbrev control (w : World) (key : String) : OwnerKeyControlState := w.controls.control key

variable (key : String)

/-- The number of guards of pending puts on a key whose counts are not released. -/
def pendingPuts : ℕ := w.fences.sumBy fun _ fence => if fence.key = key then 1 else 0

/-- The number of those that own a local put. -/
def ownedPuts : ℕ :=
  w.fences.sumBy fun _ fence => if fence.key = key ∧ fence.ownsLocalPut then 1 else 0

/-- The number of live guards of pending puts on a key. -/
def livePuts : ℕ := w.fences.sumBy fun _ fence =>
    if fence.key = key ∧ fence.phase ≠ .cleaning ∧ fence.phase ≠ .retained then 1 else 0

/-- The operation leads on the key: a materialization in flight, or an unreleased guard of a
local-first put. -/
def Leads (id : ℕ) : Prop :=
  (∃ flight, w.flights.lookup id = some flight ∧ flight.kind = .ownerMaterialization ∧
    flight.key = key) ∨
  ∃ fence, w.fences.lookup id = some fence ∧ fence.ownsLocalPut = true ∧ fence.key = key

/-- Something still holds on to the record of a key. -/
def Holds : Prop := (∃ id fence, w.fences.lookup id = some fence ∧ fence.key = key) ∨
  (∃ id flight, w.flights.lookup id = some flight ∧ flight.key = key) ∨
  (w.control key).sourceEvictionSelection.isSome ∨ (w.control key).reclaim.isSome

/-- Nothing on any key that does not belong to the operation `id` is cleared. -/
structure Keeps (id : ℕ) (w w' : World) : Prop where
  externalPut : ∀ key op, op ≠ id → (w.control key).externalPut = some op →
    (w'.control key).externalPut = some op
  slot : ∀ kind key op, op ≠ id → slot kind (w.control key) = some op →
    slot kind (w'.control key) = some op
  selection : ∀ key, (w'.control key).sourceEvictionSelection =
    (w.control key).sourceEvictionSelection
  reclaim : ∀ key, (w'.control key).reclaim = (w.control key).reclaim

end World

end Fluxon.OwnerKey
