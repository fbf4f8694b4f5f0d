import Fluxon.Foundations.OffsetAllocator
import Fluxon.Foundations.Panic
import Fluxon.Foundations.Table
import Fluxon.OwnerSegment.Types

/-!
# The owner segment state

`OwnerSegmentState` is the single physical allocator of an owner's registered memory segment,
with the tables around it: the live allocations, their offset index, the manifest of key
generations, the source and target leases and the reservations of demotion budget. The offset
allocator underneath is a parameter. Its methods are calls on the state; an `assert!`, `expect`
or `unreachable!` of the source is a panic with the same text.
-/

namespace Fluxon.OwnerSegment

open OffsetAllocator Call

/-- The life of a slot: claimed, resident but hidden, or committed under a route and holders. -/
inductive OwnerSlotState
  | prepared
  | pendingLocalVisible (holderRefCount : ℕ)
  | committed (routeLive : Bool) (holderRefCount : ℕ)
  deriving DecidableEq

structure OwnerAllocationState where
  allocationId : ℕ
  allocation : Allocation
  segmentOffset : ℕ
  capacityBytes : ℕ
  valueLen : ℕ
  sourceReadLeaseCount : ℕ
  state : OwnerSlotState
  deriving DecidableEq

inductive OwnerSourceLeaseState
  | active
  | released (outcome : OwnerTransferOutcome)
  deriving DecidableEq

structure OwnerSourceLeaseRecord where
  leaseId : OwnerLeaseId
  routeToken : OwnerSourceRouteToken
  state : OwnerSourceLeaseState
  deriving DecidableEq

inductive OwnerTargetLeaseState
  | prepared
  | dataReady (receipt : OwnerTransferReceipt)
  | routePending (receipt : OwnerTransferReceipt) (routeToken : Option OwnerTargetRouteToken)
  | committed (routeEpoch : ℕ)
  | aborted (reason : String)
  deriving DecidableEq

structure OwnerTargetLeaseRecord where
  leaseId : OwnerLeaseId
  key : String
  putId : PutId
  len : ℕ
  disposition : OwnerTargetDisposition
  atomicBatch : Option PutAtomicGroup
  slot : OwnerSlotDesc
  state : OwnerTargetLeaseState
  deriving DecidableEq

/-- The allocator of one owner's complete registered segment. -/
structure OwnerSegmentState (A : Type) where
  owner : OwnerGeneration
  registrationEpoch : ℕ
  baseAddr : ℕ
  addr : ℕ
  len : ℕ
  allocator : A
  allocations : Table ℕ OwnerAllocationState
  allocationsByOffset : Table ℕ ℕ
  manifestByKey : Table OwnerManifestKey OwnerSlotManifestEntry
  manifestKeyByAllocation : Table ℕ OwnerManifestKey
  sourceLeases : Table OwnerTransferOpId OwnerSourceLeaseRecord
  targetLeases : Table OwnerTransferOpId OwnerTargetLeaseRecord
  /-- Budget reserved by exact local-exclusive generations before their demotion. -/
  globalDemotionReservations : Table OwnerManifestKey OwnerSlotDesc
  /-- Advances when an allocation has gone back to the offset allocator. -/
  physicalFreeEpoch : ℕ

/-- Calls on the segment state. -/
abbrev SegCall (A α : Type) := Call (OwnerSegmentState A) α

/-- A request to reserve demotion budget for one exact slot. -/
structure DemotionRequest where
  key : String
  putId : PutId
  allocationId : ℕ
  segmentOffset : ℕ
  capacityBytes : ℕ
  deriving DecidableEq

def DemotionRequest.manifestKey (r : DemotionRequest) : OwnerManifestKey := ⟨r.key, r.putId⟩

/-- Whether a slot is the one the request names. -/
def DemotionRequest.names (r : DemotionRequest) (slot : OwnerSlotDesc) : Bool :=
  slot.allocationId = r.allocationId && slot.segmentOffset = r.segmentOffset &&
    slot.capacityBytes = r.capacityBytes

namespace OwnerSegmentState

variable {A : Type}

/-! ## Lookups -/

section Lookups

variable (seg : OwnerSegmentState A)

def allocation (allocationId : ℕ) : Option OwnerAllocationState :=
  seg.allocations.lookup allocationId

def identityMatches (allocationId segmentOffset capacityBytes : ℕ) : Bool :=
  (seg.allocation allocationId).any fun a => a.allocationId = allocationId &&
    a.segmentOffset = segmentOffset && a.capacityBytes = capacityBytes

def slotDesc (allocationId : ℕ) : Option OwnerSlotDesc := do
  let a ← seg.allocation allocationId
  let addr ← checkedAdd seg.addr a.segmentOffset
  return {
    owner := seg.owner
    allocationId := allocationId
    segmentOffset := a.segmentOffset
    capacityBytes := a.capacityBytes
    addr := addr
    baseAddr := seg.baseAddr
    len := a.valueLen
    segmentRegistrationEpoch := seg.registrationEpoch }

def identityMatchesDesc (slot : OwnerSlotDesc) : Bool :=
  slot.owner = seg.owner && slot.segmentRegistrationEpoch = seg.registrationEpoch &&
    slot.addr = (checkedAdd seg.addr slot.segmentOffset).getD u64Max &&
    slot.baseAddr = seg.baseAddr &&
    (seg.allocation slot.allocationId).any fun a => a.segmentOffset = slot.segmentOffset &&
      a.capacityBytes = slot.capacityBytes && a.valueLen = slot.len

def manifestEntry (key : String) (putId : PutId) : Option OwnerSlotManifestEntry :=
  seg.manifestByKey.lookup ⟨key, putId⟩

def manifestEntryByAllocation (allocationId : ℕ) : Option OwnerSlotManifestEntry := do
  let key ← seg.manifestKeyByAllocation.lookup allocationId
  seg.manifestByKey.lookup key

def committedRouteOnlyMatches (allocationId segmentOffset capacityBytes : ℕ) : Bool :=
  (seg.allocation allocationId).any fun a => a.segmentOffset = segmentOffset &&
    a.capacityBytes = capacityBytes && a.state = .committed true 0

end Lookups

/-! ## Updates of one record -/

section Updates

variable (seg : OwnerSegmentState A)

/-- Rewrite a live allocation. -/
def updateAllocation (allocationId : ℕ) (f : OwnerAllocationState → OwnerAllocationState) :
    OwnerSegmentState A :=
  { seg with allocations := seg.allocations.modify allocationId f }

def setSlotState (allocationId : ℕ) (state : OwnerSlotState) : OwnerSegmentState A :=
  seg.updateAllocation allocationId fun a => { a with state }

def setSourceReadLeaseCount (allocationId n : ℕ) : OwnerSegmentState A :=
  seg.updateAllocation allocationId fun a => { a with sourceReadLeaseCount := n }

variable (op : OwnerTransferOpId)

def setSourceLeaseState (state : OwnerSourceLeaseState) : OwnerSegmentState A :=
  { seg with sourceLeases := seg.sourceLeases.modify op fun r => { r with state } }

def setTargetLeaseState (state : OwnerTargetLeaseState) : OwnerSegmentState A :=
  { seg with targetLeases := seg.targetLeases.modify op fun r => { r with state } }

/-- Rewrite the manifest entry at a key. -/
def updateManifest (key : OwnerManifestKey)
    (f : OwnerSlotManifestEntry → OwnerSlotManifestEntry) : OwnerSegmentState A :=
  { seg with manifestByKey := seg.manifestByKey.modify key f }

/-- Rewrite the manifest entry of an allocation, if it has one. -/
def updateManifestByAllocation (allocationId : ℕ)
    (f : OwnerSlotManifestEntry → OwnerSlotManifestEntry) : OwnerSegmentState A :=
  match seg.manifestKeyByAllocation.lookup allocationId with
  | some key => seg.updateManifest key f
  | none => seg

def setPhysicalState (allocationId : ℕ) (state : OwnerSlotPhysicalState) : OwnerSegmentState A :=
  seg.updateManifestByAllocation allocationId fun e => { e with physicalState := state }

/-- Mark the manifest entry of an allocation committed under a route epoch. -/
def commitManifest (allocationId routeEpoch : ℕ) : OwnerSegmentState A :=
  seg.updateManifestByAllocation allocationId fun e =>
    { e with physicalState := .committed, routeEpoch }

def insertTargetLease (r : OwnerTargetLeaseRecord) : OwnerSegmentState A :=
  { seg with targetLeases := AList.insert op r seg.targetLeases }

def insertManifest (e : OwnerSlotManifestEntry) : OwnerSegmentState A :=
  { seg with
    manifestKeyByAllocation :=
      AList.insert e.slot.allocationId e.manifestKey seg.manifestKeyByAllocation
    manifestByKey := AList.insert e.manifestKey e seg.manifestByKey }

def removeManifestForAllocation (allocationId : ℕ) :
    Option OwnerSlotManifestEntry × OwnerSegmentState A :=
  match seg.manifestKeyByAllocation.lookup allocationId with
  | none => (none, seg)
  | some key =>
    (seg.manifestByKey.lookup key,
      { seg with
        manifestKeyByAllocation := seg.manifestKeyByAllocation.erase allocationId
        manifestByKey := seg.manifestByKey.erase key })

def removeReservation (key : OwnerManifestKey) : OwnerSegmentState A :=
  { seg with globalDemotionReservations := seg.globalDemotionReservations.erase key }

/-- Remove the manifest entry of an allocation that is being freed, and its reservation. -/
def unbindManifest (allocationId : ℕ) : OwnerSegmentState A :=
  match seg.removeManifestForAllocation allocationId with
  | (some manifest, seg') => seg'.removeReservation manifest.manifestKey
  | (none, seg') => seg'

end Updates

/-! ## The global budget -/

variable (seg : OwnerSegmentState A)

/-- `global_committed_bytes`: capacity of the allocations whose manifest entry is shared. -/
def globalCommittedBytes : ℕ := (seg.allocations.entries.filterMap fun e => do
    let manifest ← seg.manifestEntryByAllocation e.1
    if manifest.disposition = .globalShared then some e.2.capacityBytes else none).foldl
      saturatingAdd 0

/-- `global_reserved_demotion_bytes`. -/
def globalReservedDemotionBytes : ℕ :=
  (seg.globalDemotionReservations.entries.map fun e => e.2.capacityBytes).foldl saturatingAdd 0

/-- `global_accounted_bytes`. -/
def globalAccountedBytes : ℕ :=
  saturatingAdd seg.globalCommittedBytes seg.globalReservedDemotionBytes

/-- `OwnerSegmentState::try_reserve_global_demotion`, with the running total of the batch. -/
def tryReserveGlobalDemotion (localTargetBytes : ℕ) (r : DemotionRequest) (accounted : ℕ) :
    Except OwnerTransferItemError Bool × ℕ × OwnerSegmentState A :=
  match seg.manifestByKey.lookup r.manifestKey with
  | none => (.error ⟨.notFound,
      "owner manifest entry is absent during GlobalShared reservation"⟩, accounted, seg)
  | some manifest =>
    if !r.names manifest.slot ∨ manifest.physicalState ≠ .committed then
      (.error ⟨.conflict, "owner manifest slot changed during GlobalShared reservation"⟩,
        accounted, seg)
    else if manifest.scope = some .globalShared then (.ok true, accounted, seg)
    else if manifest.scope ≠ some .localExclusive then
      (.error ⟨.conflict,
        "only a committed LocalExclusive slot can reserve GlobalShared budget"⟩, accounted, seg)
    else match seg.globalDemotionReservations.lookup r.manifestKey with
      | some existing =>
        if existing.geometryMatches manifest.slot ∧ existing.len = manifest.slot.len ∧
            existing.segmentRegistrationEpoch = manifest.slot.segmentRegistrationEpoch then
          (.ok true, accounted, seg)
        else
          (.error ⟨.conflict, "GlobalShared reservation replay changed the exact owner slot"⟩,
            accounted, seg)
      | none =>
        let globalTargetBytes := seg.len - localTargetBytes
        match checkedAdd accounted r.capacityBytes with
        | none => (.ok false, accounted, seg)
        | some next =>
          if next > globalTargetBytes then (.ok false, accounted, seg)
          else (.ok true, next, { seg with
            globalDemotionReservations :=
              AList.insert r.manifestKey manifest.slot seg.globalDemotionReservations })

/-- The requests of a batch in order, under one running total. -/
def tryReserveGlobalDemotions (seg : OwnerSegmentState A) (localTargetBytes : ℕ) :
    List DemotionRequest → ℕ → List (Except OwnerTransferItemError Bool) × OwnerSegmentState A
  | [], _ => ([], seg)
  | r :: rs, accounted =>
    let one := seg.tryReserveGlobalDemotion localTargetBytes r accounted
    let rest := one.2.2.tryReserveGlobalDemotions localTargetBytes rs one.2.1
    (one.1 :: rest.1, rest.2)

/-! ## Claiming and freeing -/

variable [OffsetAllocator A]

/-- `OwnerSegmentState::new`. -/
def new {σ : Type} (owner : OwnerGeneration) (registrationEpoch baseAddr addr len : ℕ) :
    Call σ (Except String (OwnerSegmentState A)) := do
  if !owner.isInitialized then
    return .error "owner segment generation must be initialized"
  if registrationEpoch = 0 then
    return .error "owner segment registration epoch must be non-zero"
  require (len > 0 ∧ len % granularityBytes = 0)
    "owner segment length must be a non-zero multiple of 4 KiB"
  let allocationUnits := len / granularityBytes
  if allocationUnits > u32Max then
    return .error s!"owner segment exceeds OffsetAllocator address space: len={len} unit_bytes={granularityBytes}"
  let maxAllocationNodes := min (min (allocationUnits + 2) u32Max) (128 * 1024)
  return .ok {
    owner, registrationEpoch, baseAddr, addr, len
    allocator := withMaxAllocs allocationUnits maxAllocationNodes
    allocations := ∅
    allocationsByOffset := ∅
    manifestByKey := ∅
    manifestKeyByAllocation := ∅
    sourceLeases := ∅
    targetLeases := ∅
    globalDemotionReservations := ∅
    physicalFreeEpoch := 0 }

/-- `claim_prepared_slot`. The record and the index entry are written before they are asserted
to be new. -/
def claimPreparedSlot (capacityBytes valueLen allocationId : ℕ) :
    SegCall A (Option OwnerSlotDesc) := do
  let seg ← get
  if allocationId = 0 then
    return none
  if valueLen = 0 ∨ capacityBytes = 0 ∨ valueLen > capacityBytes ∨ capacityBytes > seg.len ∨
      capacityBytes % granularityBytes ≠ 0 then
    return none
  let allocationUnits := capacityBytes / granularityBytes
  if allocationUnits > u32Max then
    return none
  let some (allocation, allocator) := allocate seg.allocator allocationUnits | return none
  modify fun s => { s with allocator := allocator }
  let some segmentOffset := ownerSegmentOffsetBytes allocation.offset | return none
  modify fun s => { s with
    allocations := AList.insert allocationId {
      allocationId, allocation, segmentOffset, capacityBytes, valueLen
      sourceReadLeaseCount := 0
      state := .prepared } s.allocations }
  require (seg.allocation allocationId = none) "owner allocation id was reused"
  modify fun s => { s with
    allocationsByOffset := AList.insert allocation.offset allocationId s.allocationsByOffset }
  require (seg.allocationsByOffset.lookup allocation.offset = none)
    "OffsetAllocator returned a live segment offset"
  let some addr := checkedAdd seg.addr segmentOffset | return none
  return some {
    owner := seg.owner
    allocationId, segmentOffset, capacityBytes, addr
    baseAddr := seg.baseAddr
    len := valueLen
    segmentRegistrationEpoch := seg.registrationEpoch }

variable (allocationId : ℕ)

/-- `free_allocation`: drop the record, its manifest entry and reservation and its index entry,
and return the range to the offset allocator. -/
def freeAllocation : SegCall A Unit := do
  let a ← expect ((← get).allocation allocationId) "free_allocation expects a live allocation"
  modify fun s => { s with allocations := s.allocations.erase allocationId }
  require (a.allocationId = allocationId) "assertion left == right failed"
  require (a.sourceReadLeaseCount = 0)
    "free_allocation cannot release a slot with active source read leases"
  modify (·.unbindManifest allocationId)
  let indexed := (← get).allocationsByOffset.lookup a.allocation.offset
  modify fun s => { s with
    allocationsByOffset := s.allocationsByOffset.erase a.allocation.offset }
  require (indexed = some allocationId)
    "owner segment offset index diverged from allocation identity"
  modify fun s => { s with
    allocator := free s.allocator a.allocation
    physicalFreeEpoch := saturatingAdd s.physicalFreeEpoch 1 }

/-- `install_manifest_entry`: a replay of the same slot is accepted and changes nothing. -/
def installManifestEntry (entry : OwnerSlotManifestEntry) :
    SegCall A (Except OwnerTransferItemError Unit) := do
  let seg ← get
  if entry.key = "" ∨ !entry.slot.isValid ∨ !seg.identityMatchesDesc entry.slot then
    return .error ⟨.invalidArgument, "owner manifest entry has an invalid key or slot descriptor"⟩
  if let some existing := seg.manifestByKey.lookup entry.manifestKey then
    if existing.slot.geometryMatches entry.slot ∧ existing.slot.len = entry.slot.len ∧
        existing.slot.segmentRegistrationEpoch = entry.slot.segmentRegistrationEpoch then
      return .ok ()
    return .error ⟨.conflict,
      s!"owner manifest key already names another slot: key={entry.key} put_id=({entry.putId.1},{entry.putId.2})"⟩
  if let some existingKey := seg.manifestKeyByAllocation.lookup entry.slot.allocationId then
    return .error ⟨.conflict,
      s!"owner allocation is already bound to another manifest key: allocation_id={entry.slot.allocationId} key={existingKey.key} put_id=({existingKey.putId.1},{existingKey.putId.2})"⟩
  modify (·.insertManifest entry)
  return .ok ()

/-! ## Source leases -/

/-- `OwnerSegmentState::acquire_source`. -/
def acquireSource (op : OwnerTransferOpId) (token : OwnerSourceRouteToken)
    (leaseId : OwnerLeaseId) : SegCall A OwnerSegmentTransferOutcome := do
  let seg ← get
  if let some existing := seg.sourceLeases.lookup op then
    if existing.routeToken ≠ token then
      return .fail .conflict "source lease replay changed the route token"
    match existing.state with
    | .active => return .sourceAcquired existing.leaseId existing.routeToken.source
    | .released _ => return .sourceReleased
  if !op.isInitialized ∨ !leaseId.isInitialized ∨ token.planNonce = 0 then
    return .fail .invalidArgument
      "source lease acquire requires initialized operation, lease and plan identities"
  if token.source.owner ≠ seg.owner ∨
      token.source.segmentRegistrationEpoch ≠ seg.registrationEpoch then
    return .fail .staleGeneration
      "source lease acquire names a stale owner or segment registration generation"
  let some manifest := seg.manifestEntry token.key token.putId
    | return .fail .notFound
        "source lease acquire key generation is absent from the owner manifest"
  if manifest.physicalState ≠ .committed ∨ manifest.routeEpoch ≠ token.routeEpoch ∨
      !manifest.slot.geometryMatches token.source ∨ manifest.slot.len ≠ token.source.len ∨
      !seg.identityMatchesDesc token.source then
    return .fail .conflict
      "source lease route token does not match the committed owner manifest"
  let some a := seg.allocation token.source.allocationId
    | return .fail .notFound "source lease slot disappeared from the owner allocator"
  let .committed true _ := a.state
    | return .fail .reclaiming "source lease slot is no longer readable"
  let count ← expect (checkedAdd32 a.sourceReadLeaseCount 1) "source read lease count overflow"
  modify (·.setSourceReadLeaseCount token.source.allocationId count)
  modify fun s => { s with
    sourceLeases := AList.insert op ⟨leaseId, token, .active⟩ s.sourceLeases }
  return .sourceAcquired leaseId token.source

/-- `OwnerSegmentState::release_source`. The record stays, to answer replays. -/
def releaseSource (op : OwnerTransferOpId) (leaseId : OwnerLeaseId)
    (outcome : OwnerTransferOutcome) : SegCall A OwnerSegmentTransferOutcome := do
  let seg ← get
  let some record := seg.sourceLeases.lookup op
    | return .fail .notFound "source lease release operation is absent"
  if record.leaseId ≠ leaseId then
    return .fail .conflict "source lease release identity mismatch"
  match record.state with
  | .released previous =>
    if previous ≠ outcome then
      return .fail .conflict "source lease release replay changed the transfer outcome"
    return .sourceReleased
  | .active =>
    let allocationId := record.routeToken.source.allocationId
    let some a := seg.allocation allocationId
      | return .fail .internal "active source lease lost its allocator slot"
    let some nextCount := checkedSub a.sourceReadLeaseCount 1
      | return .fail .internal "source read lease count underflow"
    modify (·.setSourceReadLeaseCount allocationId nextCount)
    modify (·.setSourceLeaseState op (.released outcome))
    if nextCount = 0 ∧ a.state = .committed false 0 then
      freeAllocation allocationId
    return .sourceReleased

/-! ## Slot states -/

/-- `retain_committed_route_only_holder`. -/
def retainCommittedRouteOnlyHolder : SegCall A Bool := do
  let some a := (← get).allocation allocationId | return false
  match a.state with
  | .committed true 0 =>
    modify (·.setSlotState allocationId (.committed true 1))
    return true
  | _ => return false

/-- `mark_prepared_slot_pending_visible`. -/
def markPreparedSlotPendingVisible : SegCall A Unit := do
  let a ← expect ((← get).allocation allocationId) "owner allocation id is not live"
  require (a.state = .prepared) "mark_prepared_slot_pending_visible expects a prepared slot"
  modify (·.setSlotState allocationId (.pendingLocalVisible 0))

/-- `promote_pending_visible_slot_to_committed`: the holders stay. -/
def promotePendingVisibleSlotToCommitted : SegCall A Unit := do
  let a ← expect ((← get).allocation allocationId) "owner allocation id is not live"
  match a.state with
  | .pendingLocalVisible n => modify (·.setSlotState allocationId (.committed true n))
  | _ => throw "promote_pending_visible_slot_to_committed expects a pending slot"

/-- `release_prepared_slot`. -/
def releasePreparedSlot : SegCall A Unit := do
  let a ← expect ((← get).allocation allocationId) "owner allocation id is not live"
  require (a.state = .prepared) "release_prepared_slot expects a prepared slot"
  freeAllocation allocationId

/-- `retain_resident_slot_holder`. -/
def retainResidentSlotHolder : SegCall A Unit := do
  let a ← expect ((← get).allocation allocationId) "owner allocation id is not live"
  match a.state with
  | .pendingLocalVisible n =>
    let n' ← expect (checkedAdd32 n 1) "retain_resident_slot_holder overflow"
    modify (·.setSlotState allocationId (.pendingLocalVisible n'))
  | .committed routeLive n =>
    let n' ← expect (checkedAdd32 n 1) "retain_resident_slot_holder overflow"
    modify (·.setSlotState allocationId (.committed routeLive n'))
  | .prepared => throw "retain_resident_slot_holder expects a resident slot"

/-- `release_resident_slot_holder`: the last holder frees a hidden slot, and a committed one
without route and leases. -/
def releaseResidentSlotHolder : SegCall A Unit := do
  let a ← expect ((← get).allocation allocationId) "owner allocation id is not live"
  match a.state with
  | .pendingLocalVisible n =>
    require (n > 0) "release_resident_slot_holder expects holder_ref_count > 0"
    modify (·.setSlotState allocationId (.pendingLocalVisible (n - 1)))
    if n - 1 = 0 ∧ a.sourceReadLeaseCount = 0 then
      freeAllocation allocationId
  | .committed routeLive n =>
    let n' ← expect (checkedSub n 1) "release_resident_slot_holder expects holder_ref_count > 0"
    modify (·.setSlotState allocationId (.committed routeLive n'))
    if !routeLive ∧ n' = 0 ∧ a.sourceReadLeaseCount = 0 then
      freeAllocation allocationId
  | .prepared => throw "release_resident_slot_holder expects a resident slot"

/-- `release_committed_slot_route`. -/
def releaseCommittedSlotRoute : SegCall A Unit := do
  let a ← expect ((← get).allocation allocationId) "owner allocation id is not live"
  match a.state with
  | .committed routeLive n =>
    require (routeLive = true) "release_committed_slot_route expects a live route"
    modify (·.setSlotState allocationId (.committed false n))
    modify (·.setPhysicalState allocationId .reclaiming)
    if n = 0 ∧ a.sourceReadLeaseCount = 0 then
      freeAllocation allocationId
  | _ => throw "release_committed_slot_route expects a committed slot"

/-- `release_committed_resident_slot`: drop the route and one holder in one step. -/
def releaseCommittedResidentSlot : SegCall A Unit := do
  let a ← expect ((← get).allocation allocationId) "owner allocation id is not live"
  match a.state with
  | .committed routeLive n =>
    require (routeLive = true) "release_committed_resident_slot expects a live route"
    require (n > 0) "release_committed_resident_slot expects holder_ref_count > 0"
    modify (·.setSlotState allocationId (.committed false (n - 1)))
    modify (·.setPhysicalState allocationId .reclaiming)
    if n - 1 = 0 ∧ a.sourceReadLeaseCount = 0 then
      freeAllocation allocationId
  | _ => throw "release_committed_resident_slot expects a committed slot"

end OwnerSegmentState

end Fluxon.OwnerSegment
