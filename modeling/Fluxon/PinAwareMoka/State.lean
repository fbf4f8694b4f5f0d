import Fluxon.Foundations.Table
import Fluxon.Foundations.Word

/-!
# The state of the pin-aware cache

`PinAwareMoka` keeps, beside the Moka cache, one entry per key with its generation, the number of
its pins and where it resides. The first pin takes the entry out of Moka, the last unpin puts the
same generation back, and an entry that Moka (or a selection call) has chosen is `selected` until
it is replaced or invalidated. A pin of an alias that no entry carries is reserved as pending.

This module has the sections that run under the state lock. What a section still has to do after
it has released that lock, calls of Moka and of the eviction listener, it returns as a list of
`Action`s. A section that panics returns `none`.
-/

namespace Fluxon.PinAwareMoka

/-- Where a generation resides. -/
inductive Residency
  | inMoka
  | pinned
  | selected
  deriving DecidableEq, Repr

/-- The entry that Moka holds for a key. -/
structure MokaEntry (Value : Type) where
  generation : ℕ
  value : Value
  weight : ℕ

/-- The entry that the wrapper holds for a key. -/
structure EntryState (PinAlias Value : Type) where
  generation : ℕ
  pinAliases : List PinAlias
  value : Value
  weight : ℕ
  pinCount : ℕ
  residency : Residency

/-- A pin lease waits for an entry with its alias, or belongs to one generation of a key. -/
inductive PinLease (Key PinAlias : Type)
  | pending (pinAlias : PinAlias)
  | assigned (key : Key) (generation : ℕ)
  deriving DecidableEq

/-- The rejection of a bounded insertion. -/
structure ResidentCapacityError where
  maxCapacity : ℕ
  residentWeight : ℕ
  displacedWeight : ℕ
  requestedWeight : ℕ
  deriving DecidableEq, Repr

/-- The state behind the state lock. -/
structure State (Key PinAlias Value : Type) where
  nextGeneration : ℕ
  nextPinLease : ℕ
  entries : Table Key (EntryState PinAlias Value)
  aliases : Table PinAlias (Key × ℕ)
  pinLeases : Table ℕ (PinLease Key PinAlias)
  pendingPins : Table PinAlias (List ℕ)

/-- A call that the holder of the mutation lock makes after it has released the state lock. -/
inductive Action (Key Value : Type)
  /-- `remove_moka_generation` -/
  | remove (key : Key) (generation : ℕ)
  /-- `cache.insert` -/
  | enterMoka (key : Key) (entry : MokaEntry Value)
  /-- the eviction listener -/
  | notify (key : Key) (generation : ℕ) (value : Value)
  /-- `cache.evict_some`, with the generations it has popped so far -/
  | evictSome (popped : List (Key × ℕ))

namespace State

variable {Key PinAlias Value : Type} [DecidableEq Key] [DecidableEq PinAlias]

/-- `State::default` -/
def default : State Key PinAlias Value := ⟨1, 1, ∅, ∅, ∅, ∅⟩

/-! ## Insertion -/

variable (s : State Key PinAlias Value) (key : Key)

/-- The keys whose entries an insertion displaces: the key itself and the owners of its aliases. -/
def displacedKeys (pinAliases : List PinAlias) : List Key :=
  ((if (s.entries.lookup key).isSome then [key] else []) ++
    pinAliases.filterMap fun pinAlias => (s.aliases.lookup pinAlias).map (·.1)).dedup

/-- `resident_weighted_size` -/
def residentWeightedSize : ℕ :=
  s.entries.entries.foldl (fun total e => saturatingAdd total e.2.weight) 0

def displacedWeight (keys : List Key) : ℕ := keys.foldl (fun total key => saturatingAdd total
    (((s.entries.lookup key).map fun entry => entry.weight).getD 0)) 0

variable (generation : ℕ)

/-- The aliases that still name this generation of the key are removed. -/
def dropAliases (pinAliases : List PinAlias)
    (aliases : Table PinAlias (Key × ℕ)) : Table PinAlias (Key × ℕ) :=
  pinAliases.foldl (fun aliases pinAlias =>
    if aliases.lookup pinAlias = some (key, generation) then aliases.erase pinAlias
    else aliases) aliases

/-- Remove an entry together with its aliases. -/
def dropEntry (entry : EntryState PinAlias Value) : State Key PinAlias Value :=
  { s with
    entries := s.entries.erase key
    aliases := dropAliases key entry.generation entry.pinAliases s.aliases }

/-- Displace the entry of one key, if there is one. -/
def displace : State Key PinAlias Value :=
  match s.entries.lookup key with
  | some old => s.dropEntry key old
  | none => s

/-- The Moka removals of the entries that are displaced. -/
def displacedActions (keys : List Key) : List (Action Key Value) :=
  keys.filterMap fun key => (s.entries.lookup key).map fun old => .remove key old.generation

/-- Assign one pending lease, which must exist, to the generation that is inserted. -/
def assignLease (leases : Table ℕ (PinLease Key PinAlias))
    (leaseId : ℕ) : Option (Table ℕ (PinLease Key PinAlias)) :=
  match leases.lookup leaseId with
  | some _ => some (leases.insert leaseId (.assigned key generation))
  | none => none

/-- Take over the pins that are pending on one alias, and the alias. -/
def adoptAlias (acc : State Key PinAlias Value × ℕ)
    (pinAlias : PinAlias) : Option (State Key PinAlias Value × ℕ) := do
  let pending := (acc.1.pendingPins.lookup pinAlias).getD []
  let pinCount ← checkedAdd acc.2 pending.length
  let leases ← pending.foldlM (assignLease key generation) acc.1.pinLeases
  return ({ acc.1 with
    pendingPins := acc.1.pendingPins.erase pinAlias
    pinLeases := leases
    aliases := acc.1.aliases.insert pinAlias (key, generation) }, pinCount)

/-- Where a new entry resides: Moka drops a new entry at capacity zero without a notification, so
the wrapper selects it itself. -/
def newResidency (pinCount : ℕ) (zeroCapacity : Bool) : Residency :=
  if pinCount ≠ 0 then .pinned else if zeroCapacity then .selected else .inMoka

/-- What follows the installation of an entry, after the displaced generations are removed. -/
def newActions (value : Value) (weight : ℕ) : Residency → List (Action Key Value)
  | .inMoka => [.enterMoka key ⟨generation, value, weight⟩]
  | .pinned => []
  | .selected => [.notify key generation value]

/-- The rejection of an insertion, when there is a limit and the residents leave no room. -/
def rejection (keys : List Key) (weight : ℕ)
    (residentLimit : Option ℕ) : Option ResidentCapacityError :=
  residentLimit.bind fun maxCapacity =>
    if saturatingAdd (s.residentWeightedSize - s.displacedWeight keys) weight > maxCapacity then
      some ⟨maxCapacity, s.residentWeightedSize, s.displacedWeight keys, weight⟩
    else none

/-- `insert_under_mutation` -/
def insertUnderMutation (pinAliases : List PinAlias) (value : Value) (weight : ℕ)
    (residentLimit : Option ℕ) (zeroCapacity : Bool) :
    Option (Except ResidentCapacityError
      (ℕ × State Key PinAlias Value × List (Action Key Value))) :=
  match s.rejection (s.displacedKeys key pinAliases) weight residentLimit with
  | some error => some (.error error)
  | none => do
    let generation := s.nextGeneration
    let nextGeneration ← checkedAdd s.nextGeneration 1
    let displaced := (s.displacedKeys key pinAliases).foldl displace { s with nextGeneration }
    let adopted ← pinAliases.foldlM (adoptAlias key generation) (displaced, 0)
    let residency := newResidency adopted.2 zeroCapacity
    return .ok (generation,
      { adopted.1 with
        entries := adopted.1.entries.insert key
          ⟨generation, pinAliases, value, weight, adopted.2, residency⟩ },
      s.displacedActions (s.displacedKeys key pinAliases) ++
        newActions key generation value weight residency)

/-! ## Pins -/

/-- What `try_pin_alias_if` answers and does. -/
structure Pinned (Key PinAlias Value : Type) where
  /-- The lease of the guard that is returned, if one is. -/
  lease : Option ℕ
  state : State Key PinAlias Value
  actions : List (Action Key Value)

/-- `try_pin_alias_if` -/
def tryPinAliasIf (pinAlias : PinAlias) (predicate : Value → Bool) :
    Option (Pinned Key PinAlias Value) := do
  let leaseId := s.nextPinLease
  let nextPinLease ← checkedAdd s.nextPinLease 1
  match s.aliases.lookup pinAlias with
  | some (key, generation) =>
    let entry ← s.entries.lookup key
    if entry.generation ≠ generation then none
    else if predicate entry.value = false ∨ entry.residency = .selected then
      return ⟨none, { s with nextPinLease }, []⟩
    else do
      let pinCount ← checkedAdd entry.pinCount 1
      -- an entry that is not selected is in Moka or pinned, and is pinned from now on
      return ⟨some leaseId,
        { s with
          nextPinLease
          entries := s.entries.insert key { entry with pinCount, residency := .pinned }
          pinLeases := s.pinLeases.insert leaseId (.assigned key generation) },
        if entry.residency = .inMoka then [.remove key generation] else []⟩
  | none =>
    return ⟨some leaseId,
      { s with
        nextPinLease
        pendingPins := s.pendingPins.insert pinAlias
          (((s.pendingPins.lookup pinAlias).getD []).insert leaseId)
        pinLeases := s.pinLeases.insert leaseId (.pending pinAlias) },
      []⟩

/-- A pending lease is taken off the leases of its alias. -/
def dropPending (pinAlias : PinAlias) (leaseId : ℕ) : State Key PinAlias Value :=
  match s.pendingPins.lookup pinAlias with
  | some leases =>
    if (leases.erase leaseId).isEmpty then { s with pendingPins := s.pendingPins.erase pinAlias }
    else { s with pendingPins := s.pendingPins.insert pinAlias (leases.erase leaseId) }
  | none => s

/-- The unpin of the current generation of a key. -/
def unpin (entry : EntryState PinAlias Value)
    (zeroCapacity : Bool) : Option (State Key PinAlias Value × List (Action Key Value)) := do
  let pinCount ← checkedSub entry.pinCount 1
  if pinCount = 0 ∧ entry.residency = .pinned then
    if zeroCapacity then
      return ({ s with
        entries := s.entries.insert key { entry with pinCount, residency := .selected } },
        [.notify key entry.generation entry.value])
    else
      return ({ s with
        entries := s.entries.insert key { entry with pinCount, residency := .inMoka } },
        [.enterMoka key ⟨entry.generation, entry.value, entry.weight⟩])
  else
    return ({ s with entries := s.entries.insert key { entry with pinCount } }, [])

/-- `release_pin` -/
def releasePin (leaseId : ℕ) (zeroCapacity : Bool) :
    Option (State Key PinAlias Value × List (Action Key Value)) :=
  match s.pinLeases.lookup leaseId with
  | none => some (s, [])
  | some (.pending pinAlias) =>
    some (({ s with pinLeases := s.pinLeases.erase leaseId }).dropPending pinAlias leaseId, [])
  | some (.assigned key generation) =>
    match s.entries.lookup key with
    | none => some ({ s with pinLeases := s.pinLeases.erase leaseId }, [])
    | some entry =>
      if entry.generation ≠ generation then
        some ({ s with pinLeases := s.pinLeases.erase leaseId }, [])
      else ({ s with pinLeases := s.pinLeases.erase leaseId }).unpin key entry zeroCapacity

/-! ## Reads, removals and selections -/

/-- `get` -/
def get : Option Value :=
  match s.entries.lookup key with
  | some entry => if entry.residency = .selected then none else some entry.value
  | none => none

/-- `take_if` -/
def takeIf (predicate : Value → Bool) :
    Option Value × State Key PinAlias Value × List (Action Key Value) :=
  match s.entries.lookup key with
  | none => (none, s, [])
  | some entry =>
    if predicate entry.value then
      (some entry.value, s.dropEntry key entry, [.remove key entry.generation])
    else (none, s, [])

/-- The result of a selection pass. -/
structure Selection where
  selectedEntries : ℕ := 0
  selectedWeight : ℕ := 0
  pinnedEntries : ℕ := 0
  alreadySelectedEntries : ℕ := 0
  deriving DecidableEq, Repr

variable (predicate : Key → Value → Bool)

/-- Does a selection pass select this entry? -/
def selects (key : Key) (entry : EntryState PinAlias Value) : Bool :=
  predicate key entry.value && decide (entry.residency = .inMoka)

/-- One entry of a selection pass. -/
def tally (result : Selection) (key : Key) (entry : EntryState PinAlias Value) : Selection :=
  if predicate key entry.value = false then result
  else match entry.residency with
    | .inMoka => { result with
        selectedEntries := saturatingAdd result.selectedEntries 1
        selectedWeight := saturatingAdd result.selectedWeight entry.weight }
    | .pinned => { result with pinnedEntries := saturatingAdd result.pinnedEntries 1 }
    | .selected => { result with
        alreadySelectedEntries := saturatingAdd result.alreadySelectedEntries 1 }

/-- The entries a selection pass selects. -/
def selection : List ((_ : Key) × EntryState PinAlias Value) :=
  s.entries.entries.filter fun e => selects predicate e.1 e.2

/-- The residency of one entry after it has been selected. -/
def select : State Key PinAlias Value :=
  { s with entries := s.entries.modify key fun entry => { entry with residency := .selected } }

/-- `select_entries_if`: every selected generation is removed from Moka and then announced. -/
def selectEntriesIf : Selection × State Key PinAlias Value × List (Action Key Value) :=
  (s.entries.entries.foldl (fun result e => tally predicate result e.1 e.2) {},
    (s.selection predicate).foldl (fun s e => s.select e.1) s,
    (s.selection predicate).flatMap fun e =>
      [.remove e.1 e.2.generation, .notify e.1 e.2.generation e.2.value])

/-- Does the wrapper still count this generation of the key to Moka? -/
def countsToMoka (generation : ℕ) : Bool :=
  match s.entries.lookup key with
  | some entry => decide (entry.generation = generation ∧ entry.residency = .inMoka)
  | none => false

end State

end Fluxon.PinAwareMoka
