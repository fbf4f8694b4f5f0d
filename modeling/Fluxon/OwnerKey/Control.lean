import Fluxon.Foundations.Table
import Fluxon.Foundations.Word

/-!
# The control record of a key on its owner

`OwnerKeyControlState` is the record that every operation of an owner on one key shares: two
counters of puts, the markers of the operations that lead on the key, and the fence of a source
selection or a reclaim. A record is created when an operation needs it and removed when it is idle.

The functions below are the sections that run under the lock of the key's shard, so each of them is
atomic. What they read beside the record (the local indexes and the slot pool) is a parameter. A
section that panics returns `none`. An operation (an `Arc` in the source, compared by pointer) is
known by a number.
-/

namespace Fluxon.OwnerKey

/-- `PutIDForAKey`: the time and version of a put. -/
abbrev PutId := ℕ × ℕ

/-- The identity of a reclaim on the owner. -/
structure ReclaimItem where
  epoch : ℕ
  putId : PutId
  deriving DecidableEq, Repr

/-- `OwnerReclaimRecord` -/
inductive ReclaimRecord
  | prepared (item : ReclaimItem)
  | releasing (item : ReclaimItem)
  | committed (item : ReclaimItem)
  deriving DecidableEq, Repr

structure OwnerKeyControlState where
  localPuts : ℕ := 0
  externalPendingPuts : ℕ := 0
  externalPut : Option ℕ := none
  remotePut : Option ℕ := none
  localSsdPut : Option ℕ := none
  sourceEvictionSelection : Option PutId := none
  reclaim : Option ReclaimRecord := none
  externalGet : Option ℕ := none
  ownerMaterialization : Option ℕ := none
  localAccessFence : Bool := false
  deriving DecidableEq, Repr

namespace OwnerKeyControlState

variable (st : OwnerKeyControlState)

def localAccessFenced : Bool := st.sourceEvictionSelection.isSome || st.reclaim.isSome

/-- Every counter is zero and every marker is absent. -/
def isIdle : Bool := decide (st = {})

/-- `begin_local_access_fence` -/
def beginLocalAccessFence : Option OwnerKeyControlState :=
  if st.localAccessFence then none else some { st with localAccessFence := true }

/-- `finish_local_access_fence` -/
def finishLocalAccessFence : Option OwnerKeyControlState :=
  if st.localAccessFenced then none else some { st with localAccessFence := false }

end OwnerKeyControlState

/-- The control records of the keys. -/
abbrev Controls := Table String OwnerKeyControlState

namespace Controls

/-- The record of a key; a key without one is idle. -/
def control (c : Controls) (key : String) : OwnerKeyControlState := (c.lookup key).getD {}

/-- Write a record back, and remove it when it is idle. -/
def settle (c : Controls) (key : String) (st : OwnerKeyControlState) : Controls :=
  if st.isIdle then c.erase key else c.insert key st

end Controls

/-! ## Pending puts -/

/-- What a reservation of a local-first put answers. -/
inductive PutReservation
  | leader
  | wait (op : ℕ)
  | waitThenRetry (op : ℕ)
  | waitForMaterialization (op : ℕ)
  | waitForGet (op : ℕ)
  | waitForLocalAccess
  | keyBeingWritten
  | keyAlreadyExists
  deriving DecidableEq, Repr

/-- Does the caller wait for an operation in flight, instead of being rejected? -/
def waitForExistingOperation (rejectIfInflight rejectIfExist : Bool) : Bool :=
  !rejectIfInflight || (rejectIfInflight && rejectIfExist)

variable (c : Controls) (key : String)

/-- The leadership of a new local-first put. -/
def leadLocalFirstPut (op : ℕ) : Option (PutReservation × Controls) :=
  if (c.control key).externalPut.isSome then none
  else do
    let localPuts ← checkedAdd32 (c.control key).localPuts 1
    let externalPendingPuts ← checkedAdd32 (c.control key).externalPendingPuts 1
    return (.leader, c.insert key { c.control key with
      externalPut := some op, localPuts, externalPendingPuts })

/-- `reserve_external_local_first_put_key`; `visible` says whether a local index has the key. -/
def reserveExternalLocalFirstPutKey (rejectIfInflight rejectIfExist visible : Bool) (op : ℕ) :
    Option (PutReservation × Controls) :=
  if (c.control key).localAccessFenced then
    some (if waitForExistingOperation rejectIfInflight rejectIfExist then .waitForLocalAccess
      else .keyBeingWritten, c)
  else if rejectIfExist && visible then some (.keyAlreadyExists, c)
  else match (c.control key).ownerMaterialization with
  | some op' =>
    some (if waitForExistingOperation rejectIfInflight rejectIfExist then
      .waitForMaterialization op' else .keyBeingWritten, c)
  | none => match (c.control key).externalGet with
    | some op' =>
      some (if waitForExistingOperation rejectIfInflight rejectIfExist then .waitForGet op'
        else .keyBeingWritten, c)
    | none =>
      if 0 < (c.control key).localPuts then
        if rejectIfInflight && !rejectIfExist then some (.keyBeingWritten, c)
        else (c.control key).externalPut.map fun op' =>
          (if rejectIfInflight && rejectIfExist then .wait op' else .waitThenRetry op', c)
      else leadLocalFirstPut c key op

/-- `acquire_external_pending_put_fence_for_key`: the new records, or `key being written`. -/
def acquireExternalPendingPutFence : Option (Option Controls) :=
  if (c.control key).localAccessFenced then some none
  else do
    let externalPendingPuts ← checkedAdd32 (c.control key).externalPendingPuts 1
    return some (c.insert key { c.control key with externalPendingPuts })

/-- `release_external_pending_put_counts`; a local-first put is the operation `op` itself. -/
def releaseExternalPendingPutCounts (ownsLocalPut : Bool) (op : ℕ) : Option Controls := do
  let st ← c.lookup key
  let externalPendingPuts ← checkedSub st.externalPendingPuts 1
  if ownsLocalPut then
    let localPuts ← checkedSub st.localPuts 1
    return c.settle key { st with
      externalPendingPuts
      localPuts
      externalPut := if st.externalPut = some op then none else st.externalPut }
  else
    return c.settle key { st with externalPendingPuts }

/-! ## Operations in flight -/

/-- The operations whose marker stands in a record. -/
inductive FlightKind
  | externalGet
  | ownerMaterialization
  | remotePut
  | localSsdPut
  deriving DecidableEq, Repr

/-- The marker of a kind of operation. -/
def slot : FlightKind → OwnerKeyControlState → Option ℕ
  | .externalGet, st => st.externalGet
  | .ownerMaterialization, st => st.ownerMaterialization
  | .remotePut, st => st.remotePut
  | .localSsdPut, st => st.localSsdPut

variable (kind : FlightKind)

def setSlot (op : Option ℕ) (st : OwnerKeyControlState) : OwnerKeyControlState :=
  match kind with
  | .externalGet => { st with externalGet := op }
  | .ownerMaterialization => { st with ownerMaterialization := op }
  | .remotePut => { st with remotePut := op }
  | .localSsdPut => { st with localSsdPut := op }

/-- The section of every `finish`: the marker is cleared if it is the operation's own, and an idle
record is removed. -/
def clearMarker (c : Controls) (key : String) (op : ℕ) : Controls :=
  match c.lookup key with
  | some st => c.settle key (if slot kind st = some op then setSlot kind none st else st)
  | none => c

/-- `clear_external_get_key_marker_locked` -/
def clearExternalGetKeyMarker := clearMarker .externalGet

/-- The section of `finish_owner_key_materialization`. -/
def finishOwnerKeyMaterialization := clearMarker .ownerMaterialization

/-- The section of `finish_owner_remote_put`. -/
def finishOwnerRemotePut := clearMarker .remotePut

/-- The section of `finish_owner_local_ssd_put`. -/
def finishOwnerLocalSsdPut := clearMarker .localSsdPut

/-- What a reservation of a materialization answers. -/
inductive MaterializationReservation
  | leader
  | wait (op : ℕ)
  | waitForGet (op : ℕ)
  | waitForExternalPut (op : ℕ)
  | waitForLocalAccess
  deriving DecidableEq, Repr

/-- `reserve_owner_key_materialization` -/
def reserveOwnerKeyMaterialization (op : ℕ) : MaterializationReservation × Controls :=
  if (c.control key).localAccessFenced then (.waitForLocalAccess, c)
  else match (c.control key).ownerMaterialization with
  | some op' => (.wait op', c)
  | none => match (c.control key).externalGet with
    | some op' => (.waitForGet op', c)
    | none => match (c.control key).externalPut with
      | some op' => (.waitForExternalPut op', c)
      | none => (.leader, c.insert key { c.control key with ownerMaterialization := some op })

/-- `begin_async_get_key_materialization`: the new records when a guard is returned. -/
def beginAsyncGetKeyMaterialization (op : ℕ) : Option Controls :=
  if (c.control key).ownerMaterialization.isSome || (c.control key).externalPut.isSome then none
  else some (c.insert key { c.control key with ownerMaterialization := some op })

/-- What the plan of an external get finds for a key. -/
inductive GetPlan
  | wait (op : ℕ)
  | waitForPut (op : ℕ)
  | waitForMaterialization (op : ℕ)
  | localHit
  | join (op : ℕ)
  | leader
  deriving DecidableEq, Repr

/-- `register_external_get_key_under_fence` -/
def registerExternalGetKey (op : ℕ) : GetPlan × Controls :=
  match (c.control key).externalGet with
  | some op' => (.join op', c)
  | none => (.leader, c.insert key { c.control key with externalGet := some op })

/-- One attempt of `plan_external_get_key_items`; `revoking` says whether an operation is being
revoked, `visible` whether the key is found locally. -/
def planExternalGetKey (revoking : ℕ → Bool) (visible : Bool) (op : ℕ) : GetPlan × Controls :=
  match (c.control key).externalGet.filter revoking with
  | some op' => (.wait op', c)
  | none => match (c.control key).ownerMaterialization with
    | some op' => (.waitForMaterialization op', c)
    | none =>
      if (c.control key).localAccessFenced then registerExternalGetKey c key op
      else if visible then (.localHit, c)
      else match (c.control key).externalPut with
        | some op' => (.waitForPut op', c)
        | none => registerExternalGetKey c key op

/-- What the start of a background put (remote, or to the local SSD) answers. -/
inductive BackgroundReservation
  | leader
  | follower (op : ℕ)
  | sourceUnavailable
  | notAdmitted
  deriving DecidableEq, Repr

/-- A terminal operation of the kind that is still marked is cleared; the record stays. -/
def dropTerminal (c : Controls) (key : String) (terminal : ℕ → Bool) : Controls :=
  match slot kind (c.control key) with
  | some op => if terminal op then c.insert key (setSlot kind none (c.control key)) else c
  | none => c

/-- What the two background puts share: a put in flight for the same generation is joined, a
terminal one is cleared, and a new leader replaces whatever is marked after that. -/
def beginBackgroundPut (c : Controls) (key : String) (sameGeneration : ℕ → Bool)
    (terminal : ℕ → Bool) (source : Controls → BackgroundReservation) (op : ℕ) :
    BackgroundReservation × Controls :=
  match (slot kind (c.control key)).filter fun op' => sameGeneration op' && !terminal op' with
  | some op' => (.follower op', c)
  | none =>
    match source (dropTerminal kind c key terminal) with
    | .leader => (.leader, (dropTerminal kind c key terminal).insert key
        (setSlot kind (some op) ((dropTerminal kind c key terminal).control key)))
    | answer => (answer, dropTerminal kind c key terminal)

/-- `begin_owner_remote_put`: the source is the cached generation of an unfenced key, and the
transfer must be admitted. -/
def beginOwnerRemotePut (sameGeneration terminal : ℕ → Bool) (cached admitted : Bool)
    (op : ℕ) : BackgroundReservation × Controls :=
  beginBackgroundPut .remotePut c key sameGeneration terminal (fun c =>
    if (c.control key).localAccessFenced then .sourceUnavailable
    else if cached = false then .sourceUnavailable
    else if admitted = false then .notAdmitted
    else .leader) op

/-- `begin_owner_local_ssd_put`: the source is the selected victim when one is named, and the
cached generation of an unfenced key otherwise. -/
def beginOwnerLocalSsdPut (sameGeneration terminal : ℕ → Bool) (putId : PutId)
    (victim : Option Bool) (cached : Bool) (op : ℕ) : BackgroundReservation × Controls :=
  beginBackgroundPut .localSsdPut c key sameGeneration terminal (fun c =>
    match victim with
    | some backingMatches =>
      if (c.control key).sourceEvictionSelection = some putId ∧ backingMatches then .leader
      else .sourceUnavailable
    | none =>
      if (c.control key).localAccessFenced then .sourceUnavailable
      else if cached then .leader else .sourceUnavailable) op

/-! ## The source selection and the reclaim -/

/-- What the installation of a source selection answers. -/
inductive SelectionOutcome
  | retryable
  | obsolete
  | fenced
  deriving DecidableEq, Repr

/-- Does an operation on the key keep a source selection away? -/
def selectionBusy (st : OwnerKeyControlState) : Bool :=
  decide (st.localPuts ≠ 0) || decide (st.externalPendingPuts ≠ 0) || st.remotePut.isSome ||
    st.localSsdPut.isSome || st.externalGet.isSome || st.localAccessFenced

/-- `owner_hot_install_source_selection_fence`, up to the check of the active holders; `pending`
says whether a local index is not committed yet, `cached` whether the source is the cached one. -/
def installSourceSelectionFence (putId : PutId)
    (pending cached : Bool) : Option (SelectionOutcome × Controls) :=
  if selectionBusy (c.control key) || pending then some (.retryable, c)
  else if cached = false then some (.obsolete, c)
  else do
    let st ← (c.control key).beginLocalAccessFence
    return (.fenced, c.insert key { st with sourceEvictionSelection := some putId })

/-- `owner_hot_restore_source_selection` -/
def restoreSourceSelection (putId : PutId) : Option (Bool × Controls) :=
  match c.lookup key with
  | none => some (false, c)
  | some st =>
    if st.sourceEvictionSelection ≠ some putId then some (false, c)
    else do
      let st ← { st with sourceEvictionSelection := none }.finishLocalAccessFence
      return (true, c.settle key st)

/-- `reclaim_key_control_busy_detail` -/
def reclaimBusy (st : OwnerKeyControlState) : Bool :=
  decide (st.localPuts ≠ 0) || decide (st.externalPendingPuts ≠ 0) || st.remotePut.isSome ||
    st.localSsdPut.isSome || st.sourceEvictionSelection.isSome || st.externalGet.isSome

variable (item : ReclaimItem)

/-- `prepare_one`: a matching source selection is promoted, or a fence is installed on a key that
is not busy. `ready` says whether the backing and the local indexes allow it. -/
def prepareOne (ready : Bool) : Option Controls :=
  match (c.control key).sourceEvictionSelection with
  | some putId =>
    if putId ≠ item.putId ∨ (c.control key).localPuts ≠ 0 ∨
        (c.control key).externalPendingPuts ≠ 0 ∨ (c.control key).remotePut.isSome ∨
        (c.control key).localSsdPut.isSome ∨ ready = false then some c
    else if (c.control key).reclaim.isSome ∨ (c.control key).localAccessFence = false then none
    else some (c.insert key { c.control key with
      sourceEvictionSelection := none, reclaim := some (.prepared item) })
  | none =>
    if reclaimBusy (c.control key) ∨ (c.control key).reclaim.isSome ∨ ready = false then some c
    else do
      let st ← (c.control key).beginLocalAccessFence
      return c.insert key { st with reclaim := some (.prepared item) }

/-- The first section of a commit: the prepared reclaim becomes a releasing one. -/
def releaseOne : Controls :=
  if (c.control key).reclaim = some (.prepared item) then
    c.insert key { c.control key with reclaim := some (.releasing item) }
  else c

/-- `reclaim_release_fence_is_intact` -/
def reclaimReleaseFenceIsIntact (st : OwnerKeyControlState) (item : ReclaimItem) : Bool :=
  decide (st.reclaim = some (.releasing item)) && decide (st.localPuts = 0) &&
    decide (st.externalPendingPuts = 0) && st.remotePut.isNone && st.localSsdPut.isNone &&
    st.sourceEvictionSelection.isNone && st.localAccessFence

/-- The second section of a commit, after the backing is released. -/
def commitOne : Option Controls :=
  if reclaimReleaseFenceIsIntact (c.control key) item then
    some (c.insert key { c.control key with reclaim := some (.committed item) })
  else none

/-- The end of a reclaim that stands at `record`. -/
def endReclaim (record : ReclaimRecord) : Option Controls :=
  if (c.control key).reclaim = some record then do
    let st ← { c.control key with reclaim := none }.finishLocalAccessFence
    return c.settle key st
  else some c

/-- `abort_one_fenced` -/
def abortOne : Option Controls := endReclaim c key (.prepared item)

/-- `finalize_one` -/
def finalizeOne : Option Controls := endReclaim c key (.committed item)

end Fluxon.OwnerKey
