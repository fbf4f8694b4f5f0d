import Fluxon.OwnerSegment.Allocator

/-!
# Source and target leases

The lease calls of `OwnerSegmentAllocator`. A source lease keeps a committed slot readable for one
transfer. A target lease takes one operation from a prepared slot to a committed one:

* `prepareTarget` claims a slot, `prepareClaimedGetTarget` adopts a claimed one;
* `markTargetDataReady` records the payload's receipt, and a requester-local target becomes
  resident with `markDataReadyGetTargetPendingVisible`;
* `beginTargetCommit` and `finishTargetCommit`, or their requester-local forms, publish it;
* three calls abort it.

Every call answers a replay from the lease record, which is never removed.
-/

namespace Fluxon.OwnerSegment

open OffsetAllocator Call OwnerSegmentTransferOutcome OwnerSegmentState

namespace OwnerTargetLeaseRecord

/-- Whether a receipt proves completion into the exact slot of the lease. -/
def accepts (r : OwnerTargetLeaseRecord) (receipt : OwnerTransferReceipt) : Bool :=
  receipt.completionId ≠ 0 && receipt.bytes = r.len && receipt.target = r.slot &&
    receipt.targetRegistrationEpoch = r.slot.segmentRegistrationEpoch

/-- The answer to a replayed prepare. -/
def replayOutcome (r : OwnerTargetLeaseRecord) : OwnerSegmentTransferOutcome :=
  match r.state with
  | .prepared => targetPrepared r.leaseId r.slot .prepared
  | .dataReady _ => targetDataReady r.leaseId r.slot
  | .routePending _ _ => targetCommitPending r.leaseId r.slot
  | .committed routeEpoch => targetCommitted r.leaseId r.slot routeEpoch
  | .aborted _ => targetAborted

end OwnerTargetLeaseRecord

/-- A target that is not yet published and carries no put route token. -/
def OwnerTargetLeaseState.unpublishedGet : OwnerTargetLeaseState → Bool
  | .dataReady _ | .routePending _ none => true
  | _ => false

namespace OwnerSegmentState

variable {A : Type}

/-- Move a lease and the physical state of its manifest entry, which must exist. -/
def moveTarget (op : OwnerTransferOpId) (allocationId : ℕ) (state : OwnerTargetLeaseState)
    (physicalState : OwnerSlotPhysicalState) (msg : String) : SegCall A Unit := do
  modify (·.setTargetLeaseState op state)
  let _ ← expect ((← get).manifestEntryByAllocation allocationId) msg
  modify (·.setPhysicalState allocationId physicalState)

/-- Commit a lease and its manifest entry, which must exist, under a route epoch. -/
def commitTarget (op : OwnerTransferOpId) (allocationId routeEpoch : ℕ) (msg : String) :
    SegCall A Unit := do
  let _ ← expect ((← get).manifestEntryByAllocation allocationId) msg
  modify (·.commitManifest allocationId routeEpoch)
  modify (·.setTargetLeaseState op (.committed routeEpoch))

end OwnerSegmentState

namespace OwnerSegmentAllocator

variable {A : Type}

/-- `allocate_lease_id`. -/
def allocateLeaseId : AllocCall A (Except OwnerTransferItemError OwnerLeaseId) := do
  let s ← get
  let some seg := s.segment | return .error notInitialized
  let some sequence := checkedAdd s.nextLeaseSequence 1
    | return .error ⟨.internal, "owner lease sequence exhausted"⟩
  modify fun s => { s with nextLeaseSequence := sequence }
  return .ok ⟨seg.owner, sequence⟩

/-! ## Moving a target lease

None of these calls claims or frees a slot. -/

section

variable (op : OwnerTransferOpId)

variable (leaseId : OwnerLeaseId)

/-- `mark_target_data_ready`. -/
def markTargetDataReady (receipt : OwnerTransferReceipt) :
    AllocCall A OwnerSegmentTransferOutcome := do
  let some seg := (← get).segment | return .error notInitialized
  let some existing := seg.targetLeases.lookup op
    | return .fail .notFound "Get target operation is absent"
  if existing.leaseId ≠ leaseId then
    return .fail .conflict "Get target lease identity mismatch"
  match existing.state with
  | .dataReady previousReceipt =>
    if previousReceipt ≠ receipt then
      return .fail .conflict "Get target replay changed the transfer receipt"
    return targetDataReady existing.leaseId existing.slot
  | .committed routeEpoch => return targetCommitted existing.leaseId existing.slot routeEpoch
  | .routePending _ _ => return targetCommitPending existing.leaseId existing.slot
  | .aborted _ => return targetAborted
  | .prepared =>
    if !existing.accepts receipt then
      return .fail .invalidArgument
        "Get receipt does not prove completion into the exact target lease"
    onSegment seg (moveTarget op existing.slot.allocationId
      (.dataReady receipt) .dataReady "prepared Get target must have a manifest entry")
    return targetDataReady existing.leaseId existing.slot

/-- `begin_target_commit`. A prepared target may skip the data-ready state. -/
def beginTargetCommit (receipt : OwnerTransferReceipt) (routeToken : Option OwnerTargetRouteToken) :
    AllocCall A OwnerSegmentTransferOutcome := do
  let some seg := (← get).segment | return .error notInitialized
  let some existing := seg.targetLeases.lookup op
    | return .fail .notFound "CommitTarget operation is absent"
  if existing.leaseId ≠ leaseId then
    return .fail .conflict "CommitTarget lease identity mismatch"
  match existing.state with
  | .committed routeEpoch => return targetCommitted existing.leaseId existing.slot routeEpoch
  | .aborted _ => return targetAborted
  | .routePending previousReceipt previousToken =>
    if previousReceipt ≠ receipt ∨ previousToken ≠ routeToken then
      return .fail .conflict "CommitTarget replay changed receipt or route token"
    return targetCommitPending existing.leaseId existing.slot
  | .prepared | .dataReady _ =>
    if !existing.accepts receipt then
      return .fail .invalidArgument
        "CommitTarget receipt does not prove completion into the exact target slot"
    if existing.disposition.persistent then
      let some token := routeToken
        | return .fail .invalidArgument "persistent CommitTarget requires a master route token"
      if token.operation ≠ op ∨ token.key ≠ existing.key ∨ token.putId ≠ existing.putId ∨
          token.targetOwner ≠ existing.slot.owner ∨ token.atomicBatch ≠ existing.atomicBatch ∨
          token.planNonce = 0 then
        return .fail .conflict "CommitTarget route token does not match the prepared target"
    else if routeToken.isSome then
      return .fail .invalidArgument "ephemeral target must not publish a master route"
    onSegment seg (moveTarget op existing.slot.allocationId
      (.routePending receipt routeToken) .routePending
      "prepared target must have a manifest entry")
    return targetCommitPending existing.leaseId existing.slot

/-- `finish_target_commit`. An ephemeral target is committed without a route, under one holder. -/
def finishTargetCommit (routeEpoch : ℕ) :
    AllocCall A OwnerSegmentTransferOutcome := do
  let some seg := (← get).segment | return .error notInitialized
  let some existing := seg.targetLeases.lookup op
    | return .fail .notFound "target commit operation is absent"
  if existing.leaseId ≠ leaseId then
    return .fail .conflict "target commit lease identity mismatch"
  match existing.state with
  | .committed previousEpoch =>
    if previousEpoch ≠ routeEpoch then
      return .fail .conflict "target commit replay changed route epoch"
    return targetCommitted existing.leaseId existing.slot routeEpoch
  | .prepared | .dataReady _ | .aborted _ =>
    return .fail .busy "target is not waiting for route commit"
  | .routePending _ _ =>
    let persistent := existing.disposition.persistent
    if persistent ≠ (routeEpoch ≠ 0 : Bool) then
      return .fail .invalidArgument
        "persistent targets require a non-zero route epoch; ephemeral targets require zero"
    let allocationId := existing.slot.allocationId
    let a ← expect (seg.allocation allocationId) "target commit lost its allocation"
    if a.state ≠ .prepared then
      return .fail .conflict "target allocation left Prepared before commit"
    onSegment seg do
      modify (·.setSlotState allocationId (.committed persistent (if persistent then 0 else 1)))
      OwnerSegmentState.commitTarget op allocationId routeEpoch
        "target commit lost its manifest entry"
    decPrepared
    incCommitted
    return targetCommitted existing.leaseId existing.slot routeEpoch

end

/-- `begin_data_ready_get_target_commit`. -/
def beginDataReadyGetTargetCommit (capability : OwnerTargetWriteCapability) :
    AllocCall A OwnerSegmentTransferOutcome := do
  let some seg := (← get).segment | return .error notInitialized
  let some existing := seg.targetLeases.lookup capability.operation
    | return .fail .notFound "Get CommitTarget operation is absent"
  if capability.operation.kind ≠ .get ∨ existing.leaseId ≠ capability.leaseId ∨
      existing.slot ≠ capability.slot then
    return .fail .conflict "Get CommitTarget capability identity mismatch"
  match existing.state with
  | .committed routeEpoch => return targetCommitted existing.leaseId existing.slot routeEpoch
  | .routePending _ routeToken =>
    if routeToken.isSome then
      return .fail .conflict "Get CommitTarget replay found a Put route token"
    return targetCommitPending existing.leaseId existing.slot
  | .aborted _ => return targetAborted
  | .prepared =>
    return .fail .routeCommitRequired "Get CommitTarget cannot start before payload DataReady"
  | .dataReady receipt =>
    let some (OwnerSlotState.pendingLocalVisible _) :=
        (seg.allocation existing.slot.allocationId).map (·.state)
      | return .fail .conflict "Get CommitTarget requires its hidden PendingLocalVisible slot"
    onSegment seg (moveTarget capability.operation existing.slot.allocationId
      (.routePending receipt none) .routePending
      "DataReady Get target must have a manifest entry")
    return targetCommitPending existing.leaseId existing.slot

/-- `abort_data_ready_visible_get_target`: close the operation; the last holder frees the slot. -/
def abortDataReadyVisibleGetTarget (op : OwnerTransferOpId) (leaseId : OwnerLeaseId)
    (reason : String) : AllocCall A OwnerSegmentTransferOutcome := do
  let some seg := (← get).segment | return .error notInitialized
  let some existing := seg.targetLeases.lookup op
    | return .fail .notFound "Get target abort operation is absent"
  if existing.leaseId ≠ leaseId then
    return .fail .conflict "Get target abort lease identity mismatch"
  if let .aborted _ := existing.state then
    return targetAborted
  if op.kind ≠ .get ∨ !existing.state.unpublishedGet then
    return .fail .conflict
      "only an unpublished DataReady/RoutePending Get target can use visible abort"
  let some (OwnerSlotState.pendingLocalVisible _) :=
      (seg.allocation existing.slot.allocationId).map (·.state)
    | return .fail .conflict "visible Get target no longer owns PendingLocalVisible state"
  onSegment seg (moveTarget op existing.slot.allocationId (.aborted reason)
    .reclaiming "unpublished Get target must have a manifest entry")
  return targetAborted

/-- `mark_data_ready_get_target_pending_visible`. -/
def markDataReadyGetTargetPendingVisible (capability : OwnerTargetWriteCapability) :
    AllocCall A (Except OwnerTransferItemError Unit) := do
  let some seg := (← get).segment | return .error notInitialized
  let some record := seg.targetLeases.lookup capability.operation
    | return .error ⟨.notFound, "DataReady Get target lease is absent"⟩
  let dataReady := match record.state with
    | .dataReady _ => true
    | _ => false
  if record.leaseId ≠ capability.leaseId ∨ record.slot ≠ capability.slot ∨ !dataReady ∨
      !seg.identityMatchesDesc capability.slot ∨
      (seg.allocation capability.slot.allocationId).map (·.state) ≠ some .prepared then
    return .error ⟨.conflict,
      "Get target capability no longer names the exact DataReady Prepared slot"⟩
  onSegment seg (OwnerSegmentState.markPreparedSlotPendingVisible capability.slot.allocationId)
  decPrepared
  incPending
  return .ok ()

variable [OffsetAllocator A] (op : OwnerTransferOpId) (leaseId : OwnerLeaseId)

/-- `finish_data_ready_get_target`. -/
def finishDataReadyGetTarget (routeEpoch : ℕ) : AllocCall A OwnerSegmentTransferOutcome := do
  let some seg := (← get).segment | return .error notInitialized
  let some existing := seg.targetLeases.lookup op
    | return .fail .notFound "Get target commit operation is absent"
  if existing.leaseId ≠ leaseId ∨ op.kind ≠ .get then
    return .fail .conflict "Get target commit identity mismatch"
  if let .committed previousEpoch := existing.state then
    if previousEpoch ≠ routeEpoch then
      return .fail .conflict "Get target commit replay changed route epoch"
    return targetCommitted existing.leaseId existing.slot routeEpoch
  if routeEpoch = 0 ∨ !existing.state.unpublishedGet then
    return .fail .routeCommitRequired
      "Get target is not DataReady/RoutePending or lacks a committed route epoch"
  let allocationId := existing.slot.allocationId
  let some (OwnerSlotState.pendingLocalVisible _) := (seg.allocation allocationId).map (·.state)
    | return .fail .conflict "Get target must be hidden PendingLocalVisible before commit"
  onSegment seg do
    OwnerSegmentState.promotePendingVisibleSlotToCommitted allocationId
    OwnerSegmentState.commitTarget op allocationId routeEpoch
      "DataReady Get target must have a manifest entry"
  decPending
  incCommitted
  return targetCommitted existing.leaseId existing.slot routeEpoch

/-- `abort_target`. The lease is closed before its slot is freed. -/
def abortTarget (reason : String) : AllocCall A OwnerSegmentTransferOutcome := do
  let some seg := (← get).segment | return .error notInitialized
  let some existing := seg.targetLeases.lookup op
    | return .fail .notFound "AbortTarget operation is absent"
  if existing.leaseId ≠ leaseId then
    return .fail .conflict "AbortTarget lease identity mismatch"
  match existing.state with
  | .aborted _ => return targetAborted
  | .committed _ => return .fail .conflict "AbortTarget cannot revoke a committed target"
  | .routePending _ _ =>
    return .fail .routeCommitRequired
      "RoutePending target requires master terminal reconciliation before abort"
  | .prepared | .dataReady _ =>
    onSegment seg do
      modify (·.setTargetLeaseState op (.aborted reason))
      OwnerSegmentState.releasePreparedSlot existing.slot.allocationId
    decPrepared
    return targetAborted

/-- `abort_route_rejected_target`. -/
def abortRouteRejectedTarget (reason : String) : AllocCall A OwnerSegmentTransferOutcome := do
  let some seg := (← get).segment | return .error notInitialized
  let some existing := seg.targetLeases.lookup op
    | return .fail .notFound "route-rejected target operation is absent"
  if existing.leaseId ≠ leaseId then
    return .fail .conflict "route-rejected target lease identity mismatch"
  match existing.state with
  | .aborted _ => return targetAborted
  | .routePending _ _ =>
    onSegment seg do
      modify (·.setTargetLeaseState op (.aborted reason))
      OwnerSegmentState.releasePreparedSlot existing.slot.allocationId
    decPrepared
    return targetAborted
  | .prepared | .dataReady _ | .committed _ =>
    return .fail .conflict "master route rejection can abort only a RoutePending target"

/-! ## Source leases -/

/-- `OwnerSegmentAllocator::acquire_source`. A replay does not consume a lease id. -/
def acquireSource (op : OwnerTransferOpId) (token : OwnerSourceRouteToken) :
    AllocCall A OwnerSegmentTransferOutcome := do
  let existing := (← get).segment.bind (·.sourceLeases.lookup op)
  match ← (match existing with
    | some record => pure (.ok record.leaseId)
    | none => allocateLeaseId) with
  | .error e => return .error e
  | .ok leaseId =>
    let seg ← expect (← get).segment
      "internal error: entered unreachable code: allocate_lease_id verified the owner segment"
    onSegment seg (OwnerSegmentState.acquireSource op token leaseId)

/-- `OwnerSegmentAllocator::release_source`. -/
def releaseSource (op : OwnerTransferOpId) (leaseId : OwnerLeaseId)
    (outcome : OwnerTransferOutcome) : AllocCall A OwnerSegmentTransferOutcome := do
  let some seg := (← get).segment | return .error notInitialized
  let result ← onSegment seg (OwnerSegmentState.releaseSource op leaseId outcome)
  let seg' ← expect (← get).segment "release_source keeps the owner segment"
  if seg'.allocations.entries.length < seg.allocations.entries.length then
    decCommitted "committed slot counter underflow after source release"
  return result

/-! ## Preparing a target -/

/-- `prepare_target`. -/
def prepareTarget (expectedTarget : OwnerGeneration) (key : String) (putId : PutId) (len : ℕ)
    (disposition : OwnerTargetDisposition)
    (atomicBatch : Option PutAtomicGroup) : AllocCall A OwnerSegmentTransferOutcome := do
  let s ← get
  let some seg := s.segment | return .error notInitialized
  if expectedTarget ≠ seg.owner then
    return .fail .staleGeneration "PrepareTarget expected another owner generation"
  if let some existing := seg.targetLeases.lookup op then
    if existing.key ≠ key ∨ existing.putId ≠ putId ∨ existing.len ≠ len ∨
        existing.disposition ≠ disposition ∨ existing.atomicBatch ≠ atomicBatch then
      return .fail .conflict "PrepareTarget replay changed operation parameters"
    return existing.replayOutcome
  if !op.isInitialized ∨ key = "" ∨ len = 0 then
    return .fail .invalidArgument
      "PrepareTarget requires initialized operation, non-empty key and non-zero length"
  if (seg.manifestEntry key putId).isSome then
    return .fail .conflict "PrepareTarget key generation already has an owner manifest entry"
  let some slotSize := ownerSegmentAllocationCapacityBytes len
    | return .fail .invalidArgument s!"PrepareTarget length cannot be represented: {len}"
  let globalTargetBytes := seg.len - s.localTargetBytes
  let accounted := seg.globalAccountedBytes
  if disposition = .globalShared ∧ (checkedAdd accounted slotSize).all (· > globalTargetBytes) then
    return .fail .noSpace s!"PrepareTarget GlobalShared budget is full: accounted={accounted} requested={slotSize} target={globalTargetBytes}"
  let slots ← claimAvailableWithLen slotSize len 1
  let some slot := slots.getLast?
    | return .fail .noSpace s!"PrepareTarget cannot allocate {len} bytes"
  match ← allocateLeaseId with
  | .error e =>
    let released ← releasePreparedSlot slot.allocationId slot.segmentOffset slot.capacityBytes
    require (released = true) "assertion failed: release_prepared_slot"
    return .error e
  | .ok leaseId =>
    let seg ← expect (← get).segment "target allocation requires an installed segment"
    let installed ← onSegment seg do
      match ← installManifestEntry {
          key, putId, slot
          scope := disposition.scope
          disposition
          routeEpoch := 0
          physicalState := .reserved } with
      | .error e =>
        OwnerSegmentState.releasePreparedSlot slot.allocationId
        return some e
      | .ok () =>
        modify (·.insertTargetLease op
          { leaseId, key, putId, len, disposition, atomicBatch, slot, state := .prepared })
        return none
    if let some e := installed then
      decPrepared
      return .error e
    return targetPrepared leaseId slot .prepared

/-- `prepare_claimed_get_target`: bind a claimed requester-local slot to one Get operation. -/
def prepareClaimedGetTarget (key : String) (putId : PutId) (atomicBatch : Option PutAtomicGroup)
    (slot : OwnerSlotDesc) : AllocCall A OwnerSegmentTransferOutcome := do
  let some seg := (← get).segment | return .error notInitialized
  if let some existing := seg.targetLeases.lookup op then
    if existing.key ≠ key ∨ existing.putId ≠ putId ∨ existing.len ≠ slot.len ∨
        existing.disposition ≠ .localExclusive ∨ existing.atomicBatch ≠ atomicBatch ∨
        existing.slot ≠ slot then
      return .fail .conflict "claimed Get target replay changed operation parameters"
    return existing.replayOutcome
  if !op.isInitialized ∨ op.kind ≠ .get ∨ key = "" ∨ !slot.isValid ∨ slot.owner ≠ seg.owner ∨
      slot.len = 0 ∨ !seg.identityMatchesDesc slot ∨
      (seg.allocation slot.allocationId).map (·.state) ≠ some .prepared then
    return .fail .invalidArgument
      "claimed Get target is not the exact live Prepared owner slot"
  let keyGenerationConflict := (seg.manifestEntry key putId).isSome
  let allocationIdentityConflict := (seg.manifestKeyByAllocation.lookup slot.allocationId).isSome
  if keyGenerationConflict ∧ !allocationIdentityConflict then
    return .fail .stalePlan s!"claimed Get target became stale because the exact key generation materialized locally: allocation_id={slot.allocationId}"
  if allocationIdentityConflict then
    return .fail .conflict s!"claimed Get target already belongs to an owner manifest: key_generation_conflict={keyGenerationConflict} allocation_identity_conflict={allocationIdentityConflict} allocation_id={slot.allocationId}"
  match ← allocateLeaseId with
  | .error e => return .error e
  | .ok leaseId =>
    let seg ← expect (← get).segment
      "claimed Get target validation requires an installed segment"
    let installed ← onSegment seg do
      match ← installManifestEntry {
          key, putId, slot
          scope := some .localExclusive
          disposition := .localExclusive
          routeEpoch := 0
          physicalState := .reserved } with
      | .error e => return some e
      | .ok () =>
        modify (·.insertTargetLease op {
          leaseId, key, putId
          len := slot.len
          disposition := .localExclusive
          atomicBatch, slot
          state := .prepared })
        return none
    if let some e := installed then
      return .error e
    return targetPrepared leaseId slot .prepared

end OwnerSegmentAllocator

end Fluxon.OwnerSegment
