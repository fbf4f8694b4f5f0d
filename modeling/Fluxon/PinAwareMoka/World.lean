import Fluxon.Foundations.Run
import Fluxon.PinAwareMoka.State

/-!
# The pin-aware cache, Moka and the pin guards

The world around the wrapper's state: what Moka holds, the removals Moka has not reported yet, the
listener calls that are about to be made, and the pin guards with the number of their clones.

The calls of the wrapper are serialised by the mutation lock, but none of them is atomic. A call
runs its section under the state lock and keeps the mutation lock while it works off its
`frame`, one Moka call or one listener call at a time; the lock is free when the frame is empty.
Moka is not modelled further than this: it may evict any entry it holds at any moment, and it
reports each removed entry once, possibly much later and in any order. So an eviction and its
report can fall between any two steps of a call.
-/

namespace Fluxon.PinAwareMoka

/-- Why Moka has removed an entry. The cache has no expiry. -/
inductive RemovalCause
  | explicit
  | replaced
  | size
  deriving DecidableEq, Repr

/-- What the builder fixes: the weigher, and whether there is an eviction listener. -/
structure Config (Key Value : Type) where
  weigher : Key → Value → ℕ
  listening : Bool

structure World (Key PinAlias Value : Type) where
  state : State Key PinAlias Value
  /-- What Moka holds. -/
  cache : Table Key (MokaEntry Value)
  maxCapacity : ℕ
  /-- What the holder of the mutation lock still has to do. -/
  frame : List (Action Key Value)
  /-- The removals that Moka has not reported yet. -/
  removals : List (Key × MokaEntry Value × RemovalCause)
  /-- The listener calls that `handle_moka_removal` is about to make. -/
  calls : List (Key × ℕ × Value)
  /-- The listener calls that have been made. -/
  notified : List (Key × ℕ × Value)
  /-- The live pin guards by their lease, each with the number of its clones. -/
  guards : Table ℕ ℕ
  /-- The leases of the guards whose last clone is dropped and whose release has not run yet. -/
  dropped : List ℕ

inductive Event (Key PinAlias Value : Type)
  | insert (key : Key) (pinAliases : List PinAlias) (value : Value)
  | tryInsertWithResidentCapacity (key : Key) (pinAliases : List PinAlias) (value : Value)
  | tryPinAliasIf (pinAlias : PinAlias) (predicate : Value → Bool)
  /-- a guard is cloned -/
  | cloneGuard (leaseId : ℕ)
  /-- one clone of a guard is dropped -/
  | dropGuard (leaseId : ℕ)
  /-- the release that the drop of a last clone runs -/
  | releasePin (leaseId : ℕ)
  | get (key : Key)
  | takeIf (key : Key) (predicate : Value → Bool)
  | evictSome
  /-- Moka pops an entry for the running `evict_some` -/
  | pop (key : Key)
  /-- the running `evict_some` returns -/
  | evicted
  | selectEntriesIf (predicate : Key → Value → Bool)
  | runPendingTasks
  /-- Moka accepts or refuses the capacity -/
  | setMaxCapacity (capacity : ℕ) (accepted : Bool)
  | trySetMaxCapacityWithoutEviction (capacity : ℕ) (accepted : Bool)
  /-- the holder of the mutation lock makes its next call -/
  | act
  /-- Moka evicts an entry on its own -/
  | evict (key : Key)
  /-- Moka reports a removal -/
  | report (index : ℕ)
  /-- `handle_moka_removal` makes a listener call -/
  | call (index : ℕ)

namespace World

variable {Key PinAlias Value : Type} [DecidableEq Key] [DecidableEq PinAlias]

/-- The world a builder makes. -/
def initial (maxCapacity : ℕ) : World Key PinAlias Value :=
  ⟨.default, ∅, maxCapacity, [], [], [], [], ∅, []⟩

variable (w : World Key PinAlias Value)

/-- `weighted_size`: the weight of what Moka holds. -/
def weightedSize : ℕ := w.cache.sumBy fun _ entry => entry.weight

def zeroCapacity : Bool := decide (w.maxCapacity = 0)

/-- The asserts of an insertion: at least one alias and no alias twice. -/
def insertable (pinAliases : List PinAlias) : Bool := !pinAliases.isEmpty && decide pinAliases.Nodup

variable (cfg : Config Key Value) (key : Key)

/-- The section of an insertion. A rejected or panicking insertion changes nothing. -/
def runInsert (pinAliases : List PinAlias) (value : Value) (residentLimit : Option ℕ) :
    World Key PinAlias Value :=
  if insertable pinAliases = false then w
  else match w.state.insertUnderMutation key pinAliases value (cfg.weigher key value)
      residentLimit w.zeroCapacity with
    | some (.ok (_, state, actions)) => { w with state, frame := actions }
    | some (.error _) => w
    | none => w

/-- The section of `try_pin_alias_if`; the guard it returns exists from here on. -/
def runPin (pinAlias : PinAlias) (predicate : Value → Bool) : World Key PinAlias Value :=
  match w.state.tryPinAliasIf pinAlias predicate with
  | some ⟨some leaseId, state, actions⟩ =>
    { w with state, frame := actions, guards := w.guards.insert leaseId 1 }
  | some ⟨none, state, actions⟩ => { w with state, frame := actions }
  | none => w

/-- The drop of one clone; the drop of the last one leaves a release to run. -/
def runDrop (leaseId clones : ℕ) : World Key PinAlias Value :=
  if clones ≤ 1 then
    { w with guards := w.guards.erase leaseId, dropped := leaseId :: w.dropped }
  else { w with guards := w.guards.insert leaseId (clones - 1) }

/-- The section of `release_pin`. -/
def runRelease (leaseId : ℕ) : World Key PinAlias Value :=
  match w.state.releasePin leaseId w.zeroCapacity with
  | some (state, actions) =>
    { w with state, frame := actions, dropped := w.dropped.erase leaseId }
  | none => { w with dropped := w.dropped.erase leaseId }

variable (entry : MokaEntry Value)

/-- Moka removes an entry that it holds and will report it. -/
def removed (cause : RemovalCause) : World Key PinAlias Value :=
  { w with cache := w.cache.erase key, removals := w.removals ++ [(key, entry, cause)] }

/-- `remove_moka_generation` -/
def removeMokaGeneration (generation : ℕ) : World Key PinAlias Value :=
  match w.cache.lookup key with
  | some entry => if entry.generation = generation then w.removed key entry .explicit else w
  | none => w

/-- `cache.insert`: the entry it replaces is reported. -/
def enterMoka : World Key PinAlias Value :=
  match w.cache.lookup key with
  | some old => { w.removed key old .replaced with cache := w.cache.insert key entry }
  | none => { w with cache := w.cache.insert key entry }

/-- A call of the eviction listener, if there is one. -/
def notify (call : Key × ℕ × Value) : World Key PinAlias Value :=
  if cfg.listening then { w with notified := w.notified ++ [call] } else w

/-- The next call of the holder of the mutation lock. -/
def act : Option (World Key PinAlias Value) :=
  match w.frame with
  | .remove key generation :: rest =>
    some (({ w with frame := rest }).removeMokaGeneration key generation)
  | .enterMoka key entry :: rest => some (({ w with frame := rest }).enterMoka key entry)
  | .notify key generation value :: rest =>
    some (({ w with frame := rest }).notify cfg (key, generation, value))
  | .evictSome _ :: _ => none
  | [] => none

/-- Moka pops an entry for the running `evict_some`. -/
def pop : Option (World Key PinAlias Value) :=
  match w.frame, w.cache.lookup key with
  | [.evictSome popped], some entry =>
    some { w.removed key entry .size with
      frame := [.evictSome (popped ++ [(key, entry.generation)])] }
  | _, _ => none

/-- `handle_moka_removal`, up to the listener call. -/
def handleMokaRemoval (cause : RemovalCause) : World Key PinAlias Value :=
  if cause ≠ .size then w
  else if w.state.countsToMoka key entry.generation then
    { w with
      state := w.state.select key
      calls := w.calls ++ [(key, entry.generation, entry.value)] }
  else w

/-- A call that needs the mutation lock. -/
def locked (w w' : World Key PinAlias Value) : Option (World Key PinAlias Value) :=
  if w.frame.isEmpty then some w' else none

/-- One step of the wrapper, of a guard, or of Moka. -/
def step (w : World Key PinAlias Value) :
    Event Key PinAlias Value → Option (World Key PinAlias Value)
  | .insert key pinAliases value => w.locked (w.runInsert cfg key pinAliases value none)
  | .tryInsertWithResidentCapacity key pinAliases value =>
    w.locked (w.runInsert cfg key pinAliases value (some w.maxCapacity))
  | .tryPinAliasIf pinAlias predicate => w.locked (w.runPin pinAlias predicate)
  | .cloneGuard leaseId =>
    (w.guards.lookup leaseId).map fun clones =>
      { w with guards := w.guards.insert leaseId (clones + 1) }
  | .dropGuard leaseId => (w.guards.lookup leaseId).map fun clones => w.runDrop leaseId clones
  | .releasePin leaseId =>
    if leaseId ∈ w.dropped then w.locked (w.runRelease leaseId) else none
  | .get _ => w.locked w
  | .takeIf key predicate =>
    w.locked { w with
      state := (w.state.takeIf key predicate).2.1
      frame := (w.state.takeIf key predicate).2.2 }
  | .evictSome => w.locked { w with frame := [.evictSome []] }
  | .pop key => w.pop key
  | .evicted =>
    match w.frame with
    | [.evictSome _] => some { w with frame := [] }
    | _ => none
  | .selectEntriesIf predicate =>
    w.locked { w with
      state := (w.state.selectEntriesIf predicate).2.1
      frame := (w.state.selectEntriesIf predicate).2.2 }
  | .runPendingTasks => w.locked w
  | .setMaxCapacity capacity accepted =>
    w.locked (if accepted then { w with maxCapacity := capacity } else w)
  | .trySetMaxCapacityWithoutEviction capacity accepted =>
    w.locked (if w.weightedSize ≤ capacity ∧ accepted then { w with maxCapacity := capacity }
      else w)
  | .act => w.act cfg
  | .evict key => (w.cache.lookup key).map fun entry => w.removed key entry .size
  | .report index =>
    (w.removals[index]?).map fun r =>
      ({ w with removals := w.removals.eraseIdx index }).handleMokaRemoval r.1 r.2.1 r.2.2
  | .call index =>
    (w.calls[index]?).map fun c => ({ w with calls := w.calls.eraseIdx index }).notify cfg c

/-- The steps as a relation. -/
def Step (w : World Key PinAlias Value) (ev : Event Key PinAlias Value)
    (w' : World Key PinAlias Value) : Prop :=
  w.step cfg ev = some w'

/-- A pin guard on this generation of the key is live. -/
def Live (generation : ℕ) : Prop := ∃ leaseId clones, w.guards.lookup leaseId = some clones ∧
    w.state.pinLeases.lookup leaseId = some (.assigned key generation)

/-- The listener calls of a frame. -/
def frameCalls (frame : List (Action Key Value)) : List (Key × ℕ) := frame.filterMap fun
    | .notify key generation _ => some (key, generation)
    | _ => none

/-- The generations whose listener has been called or is about to be. -/
def announced : List (Key × ℕ) := frameCalls w.frame ++ (w.calls.map (fun c => (c.1, c.2.1)) ++
    w.notified.map fun c => (c.1, c.2.1))

end World

end Fluxon.PinAwareMoka
