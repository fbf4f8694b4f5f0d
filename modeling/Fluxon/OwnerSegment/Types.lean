import Fluxon.Foundations.Word
import Mathlib.Data.Int.Notation

/-!
# Owner segment data

The identities, descriptors and outcomes of the owner-transfer protocol (`owner_segment.rs`). An
owner is one process generation; a slot is a range of the owner's registered segment, named by an
allocation id that is never reused; a lease binds an operation id to a slot.
-/

namespace Fluxon.OwnerSegment

/-- `PutIDForAKey`: the put time in milliseconds and the version. -/
abbrev PutId := ℕ × ℕ

/-- Stable identity of one owner process generation. -/
structure OwnerGeneration where
  nodeId : String
  nodeStartTime : ℤ
  deriving DecidableEq

def OwnerGeneration.isInitialized (g : OwnerGeneration) : Bool :=
  g.nodeId ≠ "" && g.nodeStartTime ≠ 0

structure PutAtomicGroupMember where
  key : String
  putId : PutId
  deriving DecidableEq

/-- Version-scoped members of one caller-declared atomic put group. -/
structure PutAtomicGroup where
  members : List PutAtomicGroupMember
  deriving DecidableEq

inductive OwnerSlotScope
  | localExclusive
  | globalShared
  deriving DecidableEq

inductive OwnerTargetDisposition
  | ephemeralCaller
  | localExclusive
  | globalShared
  | transientSsdRead
  deriving DecidableEq

namespace OwnerTargetDisposition

/-- The dispositions whose target is published as a route. -/
def persistent : OwnerTargetDisposition → Bool
  | localExclusive | globalShared => true
  | ephemeralCaller | transientSsdRead => false

/-- The cache scope of a target, if its disposition has one. -/
def scope : OwnerTargetDisposition → Option OwnerSlotScope
  | localExclusive => some .localExclusive
  | globalShared => some .globalShared
  | ephemeralCaller | transientSsdRead => none

end OwnerTargetDisposition

/-- The disposition of a committed slot of the given scope. -/
def OwnerSlotScope.disposition : OwnerSlotScope → OwnerTargetDisposition
  | localExclusive => .localExclusive
  | globalShared => .globalShared

@[simp] theorem OwnerSlotScope.scope_disposition (c : OwnerSlotScope) :
    c.disposition.scope = some c := by
  cases c <;> rfl

inductive OwnerTransferOpKind
  | get
  | put
  | replicaAppend
  | ssdLoad
  | repair
  deriving DecidableEq

/-- Generation-safe identity shared by source and target owner calls. -/
structure OwnerTransferOpId where
  coordinator : OwnerGeneration
  sequence : ℕ
  kind : OwnerTransferOpKind
  deriving DecidableEq

def OwnerTransferOpId.isInitialized (op : OwnerTransferOpId) : Bool :=
  op.coordinator.isInitialized && op.sequence ≠ 0

structure OwnerLeaseId where
  owner : OwnerGeneration
  sequence : ℕ
  deriving DecidableEq

def OwnerLeaseId.isInitialized (l : OwnerLeaseId) : Bool := l.owner.isInitialized && l.sequence ≠ 0

/-- The physical slot descriptor shared by the owner allocator, the owner calls and the master's
route metadata. -/
structure OwnerSlotDesc where
  owner : OwnerGeneration
  allocationId : ℕ
  /-- Byte offset inside the owner's registered segment. -/
  segmentOffset : ℕ
  /-- Physical capacity, a multiple of the allocation granularity. -/
  capacityBytes : ℕ
  addr : ℕ
  baseAddr : ℕ
  len : ℕ
  /-- Generation of the segment registration used by the transfer backend. -/
  segmentRegistrationEpoch : ℕ
  deriving DecidableEq

namespace OwnerSlotDesc

def geometryMatches (a b : OwnerSlotDesc) : Bool :=
  a.owner = b.owner && a.allocationId = b.allocationId && a.segmentOffset = b.segmentOffset &&
    a.capacityBytes = b.capacityBytes && a.addr = b.addr && a.baseAddr = b.baseAddr

def isValid (a : OwnerSlotDesc) : Bool :=
  a.owner.isInitialized && a.allocationId ≠ 0 && a.capacityBytes ≠ 0 && a.len ≤ a.capacityBytes &&
    a.segmentRegistrationEpoch ≠ 0 &&
    a.addr = (checkedAdd a.baseAddr a.segmentOffset).getD u64Max

end OwnerSlotDesc

structure OwnerManifestKey where
  key : String
  putId : PutId
  deriving DecidableEq

inductive OwnerSlotPhysicalState
  | reserved
  | dataReady
  | routePending
  | committed
  | reclaiming
  deriving DecidableEq

/-- The owner's record of which key generation a slot holds. -/
structure OwnerSlotManifestEntry where
  key : String
  putId : PutId
  slot : OwnerSlotDesc
  scope : Option OwnerSlotScope
  disposition : OwnerTargetDisposition
  routeEpoch : ℕ
  physicalState : OwnerSlotPhysicalState
  deriving DecidableEq

/-- The manifest key of an entry. -/
def OwnerSlotManifestEntry.manifestKey (e : OwnerSlotManifestEntry) : OwnerManifestKey :=
  ⟨e.key, e.putId⟩

structure OwnerSourceRouteToken where
  key : String
  putId : PutId
  routeEpoch : ℕ
  source : OwnerSlotDesc
  atomicBatch : Option PutAtomicGroup
  planNonce : ℕ
  deriving DecidableEq

structure OwnerTargetRouteToken where
  key : String
  putId : PutId
  operation : OwnerTransferOpId
  targetOwner : OwnerGeneration
  priorRouteEpoch : ℕ
  policyEpoch : ℕ
  atomicBatch : Option PutAtomicGroup
  planNonce : ℕ
  deriving DecidableEq

inductive OwnerTransferDirection
  | rdmaRead
  | rdmaWrite
  | ipcCopy
  | localCopy
  | zeroCopy
  deriving DecidableEq

/-- What the transfer backend reports about one completed payload transfer. -/
structure OwnerTransferReceipt where
  completionId : ℕ
  direction : OwnerTransferDirection
  bytes : ℕ
  source : Option OwnerSlotDesc
  target : OwnerSlotDesc
  sourceRegistrationEpoch : ℕ
  targetRegistrationEpoch : ℕ
  deriving DecidableEq

/-- Requester-owner authorization for one source-initiated write. -/
structure OwnerTargetWriteCapability where
  operation : OwnerTransferOpId
  leaseId : OwnerLeaseId
  slot : OwnerSlotDesc
  deriving DecidableEq

inductive OwnerTransferOutcome
  | success
  | failed
  | cancelled
  deriving DecidableEq

inductive OwnerTargetLeaseStateView
  | prepared
  | dataReady
  | routePending
  | committed
  | aborted
  deriving DecidableEq

inductive OwnerTransferErrorCode
  | invalidArgument
  | staleGeneration
  | notFound
  | conflict
  | busy
  | noSpace
  | reclaiming
  | routeCommitRequired
  | internal
  | stalePlan
  deriving DecidableEq

structure OwnerTransferItemError where
  code : OwnerTransferErrorCode
  detail : String
  deriving DecidableEq

/-- The outcomes of the calls on the owner segment allocator. -/
inductive OwnerSegmentTransferOutcome
  | sourceAcquired (leaseId : OwnerLeaseId) (slot : OwnerSlotDesc)
  | sourceReleased
  | targetPrepared (leaseId : OwnerLeaseId) (slot : OwnerSlotDesc)
      (state : OwnerTargetLeaseStateView)
  | targetDataReady (leaseId : OwnerLeaseId) (slot : OwnerSlotDesc)
  | targetCommitPending (leaseId : OwnerLeaseId) (slot : OwnerSlotDesc)
  | targetCommitted (leaseId : OwnerLeaseId) (slot : OwnerSlotDesc) (routeEpoch : ℕ)
  | targetAborted
  | error (e : OwnerTransferItemError)
  deriving DecidableEq

namespace OwnerSegmentTransferOutcome

/-- An error outcome with its code and text. -/
def fail (code : OwnerTransferErrorCode) (detail : String) : OwnerSegmentTransferOutcome :=
  .error ⟨code, detail⟩

/-- The lease and slot that the outcome of a target call names. -/
def target? : OwnerSegmentTransferOutcome → Option (OwnerLeaseId × OwnerSlotDesc)
  | targetPrepared l s _ | targetDataReady l s | targetCommitPending l s
  | targetCommitted l s _ => some (l, s)
  | sourceAcquired .. | sourceReleased | targetAborted | error _ => none

end OwnerSegmentTransferOutcome

/-- `OWNER_SEGMENT_ALLOCATION_GRANULARITY_BYTES`. -/
def granularityBytes : ℕ := 4 * 1024

/-- `owner_segment_offset_bytes`. -/
def ownerSegmentOffsetBytes (offsetUnits : ℕ) : Option ℕ :=
  if offsetUnits * granularityBytes ≤ u64Max then some (offsetUnits * granularityBytes) else none

/-- `owner_segment_allocation_capacity_bytes`: the length rounded up to the granularity, if the
result and its unit count are representable. -/
def ownerSegmentAllocationCapacityBytes (valueLen : ℕ) : Option ℕ := do
  let rounded ← checkedAdd (max valueLen granularityBytes) (granularityBytes - 1)
  let slotSize := rounded / granularityBytes * granularityBytes
  if slotSize / granularityBytes ≤ u32Max then some slotSize else none

end Fluxon.OwnerSegment
