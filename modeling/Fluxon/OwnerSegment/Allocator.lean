import Fluxon.OwnerSegment.State
import Mathlib.Data.Finset.Card
import Mathlib.Data.Finset.Option

/-!
# The owner segment allocator

`OwnerSegmentAllocator` is the owner-side authority for the complete segment: the segment state,
once it is installed, with the id counters, the slot counters and the logical local target. All
its methods run under one mutex, so each is one atomic call. This module has the life cycle of
slots and of the manifest; the leases are in `Fluxon.OwnerSegment.Lease`.
-/

namespace Fluxon.OwnerSegment

open OffsetAllocator Call OwnerSegmentState

/-- The kinds of slot states, one for each slot counter. -/
inductive SlotKind
  | prepared
  | pendingVisible
  | committed
  deriving DecidableEq

/-- The owner segment allocator. The segment is absent until its registration finishes. -/
structure OwnerSegmentAllocator (A : Type) where
  segment : Option (OwnerSegmentState A)
  nextAllocationId : ℕ
  nextLeaseSequence : ℕ
  preparedSlots : ℕ
  pendingVisibleSlots : ℕ
  committedSlots : ℕ
  failedClaimSlotSizes : Finset ℕ
  claimProgressEpoch : ℕ
  /-- Logical local-exclusive target; the global budget is the complement. -/
  localTargetBytes : ℕ
  controllerEpoch : ℕ
  expectedSlotSize : Option ℕ
  capacityReportRequestedSizeClasses : Finset ℕ

/-- Calls on the allocator. -/
abbrev AllocCall (A α : Type) := Call (OwnerSegmentAllocator A) α

/-- `OwnerSegmentAllocator::default`. -/
def OwnerSegmentAllocator.default {A : Type} : OwnerSegmentAllocator A where
  segment := none
  nextAllocationId := 0
  nextLeaseSequence := 0
  preparedSlots := 0
  pendingVisibleSlots := 0
  committedSlots := 0
  failedClaimSlotSizes := ∅
  claimProgressEpoch := 0
  localTargetBytes := 0
  controllerEpoch := 0
  expectedSlotSize := none
  capacityReportRequestedSizeClasses := ∅

/-- The error of a call before the segment is installed. -/
def notInitialized : OwnerTransferItemError := ⟨.busy, "owner segment allocator is not initialized"⟩

namespace OwnerSegmentAllocator

variable {A : Type}

/-- Replace the segment. -/
def putSegment (seg : OwnerSegmentState A) (s : OwnerSegmentAllocator A) :
    OwnerSegmentAllocator A :=
  { s with segment := some seg }

/-- Run a call of the segment inside a call of the allocator. -/
def onSegment {α : Type} (seg : OwnerSegmentState A) (c : SegCall A α) : AllocCall A α :=
  onPart seg putSegment c

section

variable (s : OwnerSegmentAllocator A)

def allocation (allocationId : ℕ) : Option OwnerAllocationState :=
  s.segment.bind (·.allocation allocationId)

def globalAccountedBytes : ℕ :=
  (s.segment.map (·.globalAccountedBytes)).getD 0

def manifestEntry (key : String) (putId : PutId) :
    Option OwnerSlotManifestEntry :=
  s.segment.bind (·.manifestEntry key putId)

/-! ## Slot counters -/

/-- The counter of the slots of a kind. -/
def slotCount : SlotKind → ℕ
  | .prepared => s.preparedSlots
  | .pendingVisible => s.pendingVisibleSlots
  | .committed => s.committedSlots

def setSlotCount (k : SlotKind) (n : ℕ) : OwnerSegmentAllocator A :=
  match k with
  | .prepared => { s with preparedSlots := n }
  | .pendingVisible => { s with pendingVisibleSlots := n }
  | .committed => { s with committedSlots := n }

end

/-- One more slot of a kind. -/
def incSlots (k : SlotKind) (msg : String) : AllocCall A Unit := do
  let n ← expect (checkedAdd ((← get).slotCount k) 1) msg
  modify (·.setSlotCount k n)

/-- One slot of a kind less. -/
def decSlots (k : SlotKind) (msg : String) : AllocCall A Unit := do
  let n ← expect (checkedSub ((← get).slotCount k) 1) msg
  modify (·.setSlotCount k n)

def incPrepared : AllocCall A Unit := incSlots .prepared "prepared slot overflow"

def decPrepared : AllocCall A Unit := decSlots .prepared "prepared slot counter underflow"

def incPending : AllocCall A Unit := incSlots .pendingVisible "pending-visible slot overflow"

def decPending : AllocCall A Unit :=
  decSlots .pendingVisible "pending-visible slot counter underflow"

def incCommitted : AllocCall A Unit := incSlots .committed "committed slot overflow"

def decCommitted (msg : String) : AllocCall A Unit := decSlots .committed msg

/-! ## Demotion budget -/

variable (r : DemotionRequest)

/-- `update_committed_manifest_scope_inner`. -/
def updateCommittedManifestScopeInner (scope : OwnerSlotScope)
    (allowUnreservedGlobal : Bool) : AllocCall A (Except OwnerTransferItemError Unit) := do
  let some seg := (← get).segment | return .error notInitialized
  let some manifest := seg.manifestByKey.lookup r.manifestKey
    | return .error ⟨.notFound, "owner manifest entry is absent during scope conversion"⟩
  if !r.names manifest.slot ∨ manifest.physicalState ≠ .committed then
    return .error ⟨.conflict, "owner manifest slot changed during scope conversion"⟩
  if scope = .globalShared ∧ manifest.scope ≠ some .globalShared ∧ !allowUnreservedGlobal then
    return .error ⟨.conflict, "LocalExclusive -> GlobalShared requires an owner budget reservation"⟩
  modify (putSegment (seg.updateManifest r.manifestKey fun e =>
    { e with scope := some scope, disposition := scope.disposition }))
  return .ok ()

/-- `update_committed_manifest_scope`. -/
def updateCommittedManifestScope (scope : OwnerSlotScope) :
    AllocCall A (Except OwnerTransferItemError Unit) :=
  updateCommittedManifestScopeInner r scope false

/-- `commit_legacy_a19_global_demotion`: the one-call demotion without a budget reservation. -/
def commitLegacyA19GlobalDemotion : AllocCall A (Except OwnerTransferItemError Unit) :=
  updateCommittedManifestScopeInner r .globalShared true

/-- `try_reserve_global_demotions`: one accounting snapshot for the whole batch. -/
def tryReserveGlobalDemotions (requests : List DemotionRequest) :
    AllocCall A (List (Except OwnerTransferItemError Bool)) := do
  let s ← get
  let some seg := s.segment | return requests.map fun _ => .error notInitialized
  let result := seg.tryReserveGlobalDemotions s.localTargetBytes requests
    seg.globalAccountedBytes
  modify (putSegment result.2)
  return result.1

/-- `try_reserve_global_demotion`. -/
def tryReserveGlobalDemotion : AllocCall A (Except OwnerTransferItemError Bool) := do
  let results ← tryReserveGlobalDemotions [r]
  expect results.getLast? "one GlobalShared reservation request must return one result"

/-- `release_global_demotion_reservation`. -/
def releaseGlobalDemotionReservation : AllocCall A Bool := do
  let some seg := (← get).segment | return false
  if (seg.globalDemotionReservations.lookup r.manifestKey).any r.names then
    modify (putSegment (seg.removeReservation r.manifestKey))
    return true
  return false

/-- `validate_global_demotion_reservation`. -/
def validateGlobalDemotionReservation (s : OwnerSegmentAllocator A) (r : DemotionRequest) :
    Except OwnerTransferItemError Unit := do
  let some seg := s.segment | throw notInitialized
  let some manifest := seg.manifestByKey.lookup r.manifestKey
    | throw ⟨.notFound, "owner manifest entry is absent while committing GlobalShared reservation"⟩
  if !r.names manifest.slot ∨ manifest.physicalState ≠ .committed then
    throw ⟨.conflict, "owner manifest slot changed while committing GlobalShared reservation"⟩
  if manifest.scope = some .globalShared then
    return ()
  if !(seg.globalDemotionReservations.lookup r.manifestKey).any r.names then
    throw ⟨.noSpace, "GlobalShared scope commit has no exact owner budget reservation"⟩

/-- `commit_reserved_global_demotion`. -/
def commitReservedGlobalDemotion : AllocCall A (Except OwnerTransferItemError Unit) := do
  let s ← get
  match s.validateGlobalDemotionReservation r with
  | .error e => return .error e
  | .ok () =>
    let seg ← expect s.segment "validated owner segment disappeared"
    let _ ← expect (seg.manifestByKey.lookup r.manifestKey)
      "validated GlobalShared manifest disappeared"
    modify (putSegment ((seg.updateManifest r.manifestKey fun e =>
      { e with scope := some .globalShared, disposition := .globalShared }).removeReservation
        r.manifestKey))
    return .ok ()

/-! ## Installation and control -/

variable (slotSize : ℕ)

/-- `record_failed_claim`. -/
def recordFailedClaim : AllocCall A Unit :=
  modify fun s => { s with failedClaimSlotSizes := insert slotSize s.failedClaimSlotSizes }

/-- `record_successful_claim`. -/
def recordSuccessfulClaim : AllocCall A Unit := modify fun s => { s with
    claimProgressEpoch := saturatingAdd s.claimProgressEpoch 1
    failedClaimSlotSizes := s.failedClaimSlotSizes.erase slotSize }

/-- `clear_failed_claim`. -/
def clearFailedClaim : AllocCall A Unit :=
  modify fun s => { s with failedClaimSlotSizes := s.failedClaimSlotSizes.erase slotSize }

/-- `track_capacity_report_size_classes`. -/
def trackCapacityReportSizeClasses (sizeClasses : List ℕ) : AllocCall A (Except String Bool) := do
  if let some allocationSize := sizeClasses.find? fun n => n = 0 ∨ n % granularityBytes ≠ 0 then
    return .error
      s!"master requested an invalid owner capacity size class: {allocationSize}"
  let before := (← get).capacityReportRequestedSizeClasses
  let after := before ∪ sizeClasses.toFinset
  modify fun s => { s with capacityReportRequestedSizeClasses := after }
  return .ok (after.card ≠ before.card)

/-- `apply_target_control`: the controller epoch advances by exactly one. -/
def applyTargetControl (controllerEpoch localTargetBytes : ℕ) :
    AllocCall A (Except String Bool) := do
  let s ← get
  let some seg := s.segment | return .error "owner segment allocator is not initialized"
  if s.controllerEpoch = 0 then
    return .error "owner scope budget is not initialized"
  if controllerEpoch = s.controllerEpoch then
    if localTargetBytes ≠ s.localTargetBytes then
      return .error s!"controller epoch {controllerEpoch} was replayed with a different local target: current={s.localTargetBytes} requested={localTargetBytes}"
    return .ok false
  let some nextEpoch := checkedAdd s.controllerEpoch 1
    | return .error "owner local-reserve controller epoch exhausted"
  if controllerEpoch ≠ nextEpoch then
    return .error s!"owner local-reserve controller epoch must advance exactly once: current={s.controllerEpoch} requested={controllerEpoch}"
  if localTargetBytes = 0 ∨ localTargetBytes > seg.len then
    return .error s!"inference owner local target must be in [1, {seg.len}], got {localTargetBytes}"
  modify fun s => { s with localTargetBytes, controllerEpoch }
  return .ok true

variable [OffsetAllocator A]

/-- `install_segment`: the segment is installed exactly once. -/
def installSegment (owner : OwnerGeneration)
    (registrationEpoch baseAddr addr len localTargetBytes : ℕ) (expectedSlotSize : Option ℕ) :
    AllocCall A (Except String Unit) := do
  if (← get).segment.isSome then
    return .error "owner segment allocator must be installed exactly once"
  if localTargetBytes > len then
    return .error s!"owner local target must be in [0, segment_bytes]: target={localTargetBytes} segment={len}"
  match ← new owner registrationEpoch baseAddr addr len with
  | .error e => return .error e
  | .ok seg =>
    modify fun s => { s with
      segment := some seg
      localTargetBytes
      controllerEpoch := 1
      expectedSlotSize
      capacityReportRequestedSizeClasses := expectedSlotSize.toFinset }
    return .ok ()

/-! ## Claims -/

/-- One iteration of the claim loop. The id is consumed also when the claim fails. -/
def claimOne (slotSize valueLen : ℕ) : AllocCall A (Option OwnerSlotDesc) := do
  let some seg := (← get).segment | return none
  let allocationId ← expect (checkedAdd (← get).nextAllocationId 1)
    "owner allocation id exhausted"
  modify fun s => { s with nextAllocationId := allocationId }
  let some slot ← onSegment seg (claimPreparedSlot slotSize valueLen allocationId)
    | return none
  incPrepared
  return some slot

/-- `claim_available_with_len`: claim until `maxSlots` slots are claimed or a claim fails. -/
def claimAvailableWithLen (slotSize valueLen : ℕ) : ℕ → AllocCall A (List OwnerSlotDesc)
  | 0 => return []
  | maxSlots + 1 => do
    let some slot ← claimOne slotSize valueLen | return []
    let slots ← claimAvailableWithLen slotSize valueLen maxSlots
    return slot :: slots

/-- `claim_value`. -/
def claimValue (valueLen maxSlots : ℕ) : AllocCall A (List OwnerSlotDesc) := do
  let some slotSize := ownerSegmentAllocationCapacityBytes valueLen | return []
  claimAvailableWithLen slotSize valueLen maxSlots

/-! ## Slots -/

section

variable (allocationId segmentOffset capacityBytes : ℕ)

/-- The common head of the slot calls: the identity of the slot must match, then the segment's
call runs on it. -/
def withSlot (c : OwnerSegmentState A → AllocCall A Bool) : AllocCall A Bool := do
  let some seg := (← get).segment | return false
  if !seg.identityMatches allocationId segmentOffset capacityBytes then
    return false
  c seg

/-- `release_prepared_slot`. -/
def releasePreparedSlot : AllocCall A Bool :=
  withSlot allocationId segmentOffset capacityBytes fun seg => do
    onSegment seg (OwnerSegmentState.releasePreparedSlot allocationId)
    decPrepared
    return true

/-- `retain_committed_route_only_holder`. -/
def retainCommittedRouteOnlyHolder :
    AllocCall A Bool :=
  withSlot allocationId segmentOffset capacityBytes fun seg =>
    onSegment seg (OwnerSegmentState.retainCommittedRouteOnlyHolder allocationId)

/-- `mark_prepared_slot_pending_visible`. -/
def markPreparedSlotPendingVisible :
    AllocCall A Bool :=
  withSlot allocationId segmentOffset capacityBytes fun seg => do
    onSegment seg (OwnerSegmentState.markPreparedSlotPendingVisible allocationId)
    decPrepared
    incPending
    return true

/-- `promote_pending_visible_slot_to_committed`. -/
def promotePendingVisibleSlotToCommitted :
    AllocCall A Bool :=
  withSlot allocationId segmentOffset capacityBytes fun seg => do
    onSegment seg (OwnerSegmentState.promotePendingVisibleSlotToCommitted allocationId)
    decPending
    incCommitted
    return true

/-- `retain_resident_slot_holder`. -/
def retainResidentSlotHolder : AllocCall A Bool :=
  withSlot allocationId segmentOffset capacityBytes fun seg => do
    onSegment seg (OwnerSegmentState.retainResidentSlotHolder allocationId)
    return true

/-- `release_resident_slot_holder`. -/
def releaseResidentSlotHolder : AllocCall A Bool :=
  withSlot allocationId segmentOffset capacityBytes fun seg => do
    let a ← expect (seg.allocation allocationId) "validated owner allocation disappeared"
    onSegment seg (OwnerSegmentState.releaseResidentSlotHolder allocationId)
    if (← get).allocation allocationId = none then
      match a.state with
      | .pendingLocalVisible _ => decPending
      | .committed .. => decCommitted "committed slot counter underflow"
      | .prepared => throw "resident holder must belong to a resident slot"
    return true

/-- `release_committed_slot_route`. -/
def releaseCommittedSlotRoute : AllocCall A Bool :=
  withSlot allocationId segmentOffset capacityBytes fun seg => do
    onSegment seg (OwnerSegmentState.releaseCommittedSlotRoute allocationId)
    if (← get).allocation allocationId = none then
      decCommitted "committed slot counter underflow"
    return true

/-- `release_committed_resident_slot`. -/
def releaseCommittedResidentSlot :
    AllocCall A Bool :=
  withSlot allocationId segmentOffset capacityBytes fun seg => do
    onSegment seg (OwnerSegmentState.releaseCommittedResidentSlot allocationId)
    if (← get).allocation allocationId = none then
      decCommitted "committed slot counter underflow"
    return true

end

/-- `release_deleted_global_manifest_route`: release the shared route that the manifest names,
at most once. -/
def releaseDeletedGlobalManifestRoute (key : String) (putId : PutId) :
    AllocCall A (Option OwnerSlotDesc) := do
  let some seg := (← get).segment | return none
  let some manifest := seg.manifestEntry key putId | return none
  if manifest.scope ≠ some .globalShared ∨ manifest.physicalState ≠ .committed then
    return none
  let slot := manifest.slot
  let a ← expect (seg.allocation slot.allocationId) "committed manifest must own its allocation"
  match a.state with
  | .committed true _ => pure ()
  | _ => throw "committed GlobalShared manifest must retain its route"
  let released ← releaseCommittedSlotRoute slot.allocationId slot.segmentOffset
    slot.capacityBytes
  require (released = true) "manifest route must retain its exact allocation identity"
  return some slot

/-- `install_committed_manifest`. -/
def installCommittedManifest (key : String) (putId : PutId) (allocationId : ℕ)
    (scope : OwnerSlotScope) (routeEpoch : ℕ) :
    AllocCall A (Except OwnerTransferItemError OwnerSlotDesc) := do
  let some seg := (← get).segment | return .error notInitialized
  let some slot := seg.slotDesc allocationId
    | return .error ⟨.notFound, "committed manifest allocation is absent"⟩
  let some (OwnerSlotState.committed true _) := (seg.allocation allocationId).map (·.state)
    | return .error ⟨.conflict, "committed manifest requires a live committed owner slot"⟩
  match ← onSegment seg (installManifestEntry {
      key, putId, slot
      scope := some scope
      disposition := scope.disposition
      routeEpoch
      physicalState := .committed }) with
  | .error e => return .error e
  | .ok () => return .ok slot

end OwnerSegmentAllocator

end Fluxon.OwnerSegment
