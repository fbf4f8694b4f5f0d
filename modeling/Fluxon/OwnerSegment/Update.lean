import Fluxon.Foundations.Run
import Fluxon.OwnerSegment.Lease

/-!
# Updates

Every call of the allocator that returns is a short list of updates. An `Update` is one change of
the tables that belongs together: a claim, a free, a lease with the count it moves, a slot state
with the slot counters. `Update.Step` says when an update may happen and what it does. The
invariants are proved about updates; what each call does, as a list of updates, is in
`Fluxon.OwnerSegment.Effect`.

A release that drops the last reference of a resident slot is the update `free`, or `freeSource`
when that reference is a source lease. So no update leaves an unreferenced committed slot behind.
-/

namespace Fluxon.OwnerSegment

open OffsetAllocator

variable {A : Type}

/-- The order in which a slot passes through the kinds. -/
@[simp] def SlotKind.rank : SlotKind → ℕ
  | .prepared => 0
  | .pendingVisible => 1
  | .committed => 2

variable {k k' : SlotKind}

theorem SlotKind.eq_committed_of_rank_le (h : k.rank ≤ k'.rank)
    (hk : k = .committed) : k' = .committed := by
  cases k' <;> simp_all

theorem SlotKind.ne_prepared_of_rank_le (h : k.rank ≤ k'.rank)
    (hk : k ≠ .prepared) : k' ≠ .prepared := by
  cases k <;> cases k' <;> simp_all

@[simp] def OwnerSlotState.kind : OwnerSlotState → SlotKind
  | .prepared => .prepared
  | .pendingLocalVisible _ => .pendingVisible
  | .committed .. => .committed

/-- The holders of a slot in this state. -/
@[simp] def OwnerSlotState.holders : OwnerSlotState → ℕ
  | .prepared => 0
  | .pendingLocalVisible n | .committed _ n => n

/-- The state with another number of holders. -/
@[simp] def OwnerSlotState.withHolders : OwnerSlotState → ℕ → OwnerSlotState
  | .prepared, _ => .prepared
  | .pendingLocalVisible _, n => .pendingLocalVisible n
  | .committed routeLive _, n => .committed routeLive n

/-- A resident slot without route and holders: the last source lease keeps it, if there is one. -/
@[simp] def OwnerSlotState.idle : OwnerSlotState → Bool
  | .prepared => false
  | .pendingLocalVisible n => n = 0
  | .committed routeLive n => !routeLive && n = 0

/-- A committed slot that nothing keeps: no route, no holder and no source lease. -/
def OwnerAllocationState.Unreferenced (a : OwnerAllocationState) : Prop :=
  a.state = .committed false 0 ∧ a.sourceReadLeaseCount = 0

namespace OwnerSegmentState

/-- The segment after a live allocation has been freed. -/
def freed [OffsetAllocator A] (seg : OwnerSegmentState A) (allocationId : ℕ)
    (a : OwnerAllocationState) : OwnerSegmentState A :=
  { seg with
    allocations := seg.allocations.erase allocationId
    allocationsByOffset := seg.allocationsByOffset.erase a.allocation.offset
    allocator := free seg.allocator a.allocation
    manifestKeyByAllocation := seg.manifestKeyByAllocation.erase allocationId
    manifestByKey :=
      match seg.manifestKeyByAllocation.lookup allocationId with
      | some key => seg.manifestByKey.erase key
      | none => seg.manifestByKey
    globalDemotionReservations :=
      match seg.manifestEntryByAllocation allocationId with
      | some e => seg.globalDemotionReservations.erase e.manifestKey
      | none => seg.globalDemotionReservations
    physicalFreeEpoch := saturatingAdd seg.physicalFreeEpoch 1 }

variable (seg : OwnerSegmentState A)

/-- The segment after a claim has been recorded. -/
def claimed (allocator : A) (a : OwnerAllocationState) : OwnerSegmentState A :=
  { seg with
    allocator
    allocations := AList.insert a.allocationId a seg.allocations
    allocationsByOffset := AList.insert a.allocation.offset a.allocationId
      seg.allocationsByOffset }

/-- The segment after a source lease has been recorded and counted. -/
def acquired (op : OwnerTransferOpId) (leaseId : OwnerLeaseId) (token : OwnerSourceRouteToken)
    (count : ℕ) : OwnerSegmentState A :=
  { seg.setSourceReadLeaseCount token.source.allocationId count with
    sourceLeases := AList.insert op ⟨leaseId, token, .active⟩ seg.sourceLeases }

/-- The segment after a reservation has been recorded. -/
def reserved (key : OwnerManifestKey) (slot : OwnerSlotDesc) : OwnerSegmentState A :=
  { seg with globalDemotionReservations := AList.insert key slot seg.globalDemotionReservations }

/-- The segment after a manifest entry has changed its scope. -/
def rescoped (key : OwnerManifestKey) (scope : OwnerSlotScope) : OwnerSegmentState A :=
  seg.updateManifest key fun e => { e with scope := some scope, disposition := scope.disposition }

end OwnerSegmentState

namespace OwnerSegmentAllocator

/-- One more slot of a kind. -/
def countUp (k : SlotKind) (s : OwnerSegmentAllocator A) : OwnerSegmentAllocator A :=
  s.setSlotCount k (s.slotCount k + 1)

/-- One slot of a kind less. -/
def countDown (k : SlotKind) (s : OwnerSegmentAllocator A) : OwnerSegmentAllocator A :=
  s.setSlotCount k (s.slotCount k - 1)

theorem slotCount_countUp (k k' : SlotKind) (s : OwnerSegmentAllocator A) :
    (s.countUp k).slotCount k' = s.slotCount k' + if k = k' then 1 else 0 := by
  cases k <;> cases k' <;> simp [countUp, slotCount, setSlotCount]

theorem slotCount_countDown (k k' : SlotKind) (s : OwnerSegmentAllocator A) :
    (s.countDown k).slotCount k' = s.slotCount k' - if k = k' then 1 else 0 := by
  cases k <;> cases k' <;> simp [countDown, slotCount, setSlotCount]

theorem countDown_countUp (k : SlotKind) (s : OwnerSegmentAllocator A) :
    (s.countUp k).countDown k = s := by
  cases k <;> simp [countDown, countUp, slotCount, setSlotCount]

theorem countDown_countUp_of_ne (h : k ≠ k') (s : OwnerSegmentAllocator A) :
    (s.countUp k').countDown k = (s.countDown k).countUp k' := by
  cases k <;> cases k' <;> first | rfl | exact (h rfl).elim

section Frame

variable (k : SlotKind) (s : OwnerSegmentAllocator A)

@[simp] theorem segment_countUp : (s.countUp k).segment = s.segment := by cases k <;> rfl

@[simp] theorem segment_countDown : (s.countDown k).segment = s.segment := by cases k <;> rfl

@[simp] theorem nextAllocationId_countUp :
    (s.countUp k).nextAllocationId = s.nextAllocationId := by cases k <;> rfl

@[simp] theorem nextAllocationId_countDown :
    (s.countDown k).nextAllocationId = s.nextAllocationId := by cases k <;> rfl

@[simp] theorem localTargetBytes_countUp :
    (s.countUp k).localTargetBytes = s.localTargetBytes := by cases k <;> rfl

@[simp] theorem localTargetBytes_countDown :
    (s.countDown k).localTargetBytes = s.localTargetBytes := by cases k <;> rfl

end Frame

end OwnerSegmentAllocator

/-- The updates of the allocator, named by what they change. -/
inductive Update
  /-- Bookkeeping outside the segment: claim statistics, size classes. -/
  | bookkeeping
  /-- A new local target from the controller. -/
  | localTarget (bytes : ℕ)
  /-- An allocation id consumed by a claim that failed. -/
  | allocationId
  | leaseId
  | claim (a : OwnerAllocationState)
  /-- A claim whose offset in bytes is not representable: the range is lost. -/
  | leakRange (units : ℕ)
  /-- A claim whose address is not representable: the slot is recorded and not returned. -/
  | leakSlot (a : OwnerAllocationState)
  | slotState (allocationId : ℕ) (state : OwnerSlotState)
  | acquireSource (op : OwnerTransferOpId) (leaseId : OwnerLeaseId)
      (token : OwnerSourceRouteToken)
  | releaseSource (op : OwnerTransferOpId) (outcome : OwnerTransferOutcome)
  /-- Free a slot that is not resident. -/
  | freePrepared (allocationId : ℕ)
  /-- Free a resident slot that has lost its last reference. -/
  | free (allocationId : ℕ)
  /-- Release a source lease and free the slot it was the last reference of. -/
  | freeSource (op : OwnerTransferOpId) (outcome : OwnerTransferOutcome)
  | insertManifest (e : OwnerSlotManifestEntry)
  | physicalState (allocationId : ℕ) (state : OwnerSlotPhysicalState)
  | commitManifest (allocationId routeEpoch : ℕ)
  | scope (key : OwnerManifestKey) (scope : OwnerSlotScope)
  | reserve (key : OwnerManifestKey) (slot : OwnerSlotDesc)
  | unreserve (key : OwnerManifestKey)
  | insertTarget (op : OwnerTransferOpId) (r : OwnerTargetLeaseRecord)
  | targetState (op : OwnerTransferOpId) (state : OwnerTargetLeaseState)

/-- The capacity of a shared entry. -/
def OwnerSlotManifestEntry.sharedBytes (e : OwnerSlotManifestEntry) : ℕ :=
  if e.disposition = .globalShared then e.slot.capacityBytes else 0

/-- The shared bytes that an update takes, a change of scope apart. -/
@[simp] def Update.spentBytes : Update → ℕ
  | .insertManifest e => e.sharedBytes
  | .reserve _ slot => slot.capacityBytes
  | _ => 0

/-- The moves of a target lease: forward through its states, or from a non-terminal one to
aborted. A state may be skipped. -/
inductive OwnerTargetLeaseState.Moves : OwnerTargetLeaseState → OwnerTargetLeaseState → Prop
  | dataReady (receipt) : Moves .prepared (.dataReady receipt)
  | routePending (receipt token) : Moves .prepared (.routePending receipt token)
  | routePendingReady (receipt' receipt token) :
      Moves (.dataReady receipt') (.routePending receipt token)
  | committed (receipt token routeEpoch) : Moves (.routePending receipt token) (.committed routeEpoch)
  | committedReady (receipt routeEpoch) : Moves (.dataReady receipt) (.committed routeEpoch)
  | aborted (reason) : Moves .prepared (.aborted reason)
  | abortedReady (receipt reason) : Moves (.dataReady receipt) (.aborted reason)
  | abortedPending (receipt token reason) : Moves (.routePending receipt token) (.aborted reason)

/-- The states before a lease is terminal. -/
@[simp] def OwnerTargetLeaseState.isOpen : OwnerTargetLeaseState → Bool
  | .prepared | .dataReady _ | .routePending _ _ => true
  | .committed _ | .aborted _ => false

@[simp] def OwnerTargetLeaseState.isRoutePending : OwnerTargetLeaseState → Bool
  | .routePending _ _ => true
  | _ => false

/-- Every record of `t` is in `t'`, unchanged but for a state further along its moves. -/
def TargetsAdvance (t t' : Table OwnerTransferOpId OwnerTargetLeaseRecord) : Prop :=
  ∀ op r, t.lookup op = some r → ∃ state,
    Relation.ReflTransGen OwnerTargetLeaseState.Moves r.state state ∧
      t'.lookup op = some { r with state }

namespace TargetsAdvance

theorem refl (t : Table OwnerTransferOpId OwnerTargetLeaseRecord) : TargetsAdvance t t :=
  fun _ r h => ⟨r.state, .refl, h⟩

theorem trans {t₁ t₂ t₃ : Table OwnerTransferOpId OwnerTargetLeaseRecord}
    (h₁ : TargetsAdvance t₁ t₂) (h₂ : TargetsAdvance t₂ t₃) : TargetsAdvance t₁ t₃ := by
  intro op r hr
  obtain ⟨state, hm, hr'⟩ := h₁ op r hr
  obtain ⟨state', hm', hr''⟩ := h₂ op _ hr'
  exact ⟨state', hm.trans hm', hr''⟩

variable {t : Table OwnerTransferOpId OwnerTargetLeaseRecord} {op : OwnerTransferOpId}

theorem insert (r : OwnerTargetLeaseRecord) (h : t.lookup op = none) :
    TargetsAdvance t (AList.insert op r t) := by
  intro op' r' hr
  have hne : op' ≠ op := by
    rintro rfl
    simp [h] at hr
  exact ⟨r'.state, .refl, by rw [AList.lookup_insert_ne hne, hr]⟩

theorem setState {r : OwnerTargetLeaseRecord} {state : OwnerTargetLeaseState}
    (h : t.lookup op = some r) (hm : r.state.Moves state) :
    TargetsAdvance t (t.modify op fun r => { r with state }) := by
  intro op' r' hr
  rw [Table.lookup_modify]
  by_cases hop : op' = op
  · obtain rfl : r = r' := by
      rw [hop, h] at hr
      exact Option.some.inj hr
    exact ⟨state, .single hm, by simp [hop, h]⟩
  · exact ⟨r'.state, .refl, by simp [hop, hr]⟩

end TargetsAdvance

/-- The target leases of the allocator; none before the segment is installed. -/
def OwnerSegmentAllocator.targetLeases (s : OwnerSegmentAllocator A) :
    Table OwnerTransferOpId OwnerTargetLeaseRecord :=
  (s.segment.map (·.targetLeases)).getD ∅

/-- The owner generation and the target leases: what answers a replay. -/
def OwnerSegmentState.leaseView (seg : OwnerSegmentState A) :
    OwnerGeneration × Table OwnerTransferOpId OwnerTargetLeaseRecord :=
  (seg.owner, seg.targetLeases)

namespace OwnerSegmentAllocator

/-- From `s` to `s'` the owner generation stays and target leases only advance. Every call does
this, also one that panics. -/
structure Advances (s s' : OwnerSegmentAllocator A) : Prop where
  owner : s'.segment.map (·.owner) = s.segment.map (·.owner)
  targets : TargetsAdvance s.targetLeases s'.targetLeases

theorem Advances.refl (s : OwnerSegmentAllocator A) : s.Advances s := ⟨rfl, .refl _⟩

theorem Advances.trans {s₁ s₂ s₃ : OwnerSegmentAllocator A} (h₁ : s₁.Advances s₂)
    (h₂ : s₂.Advances s₃) : s₁.Advances s₃ :=
  ⟨h₂.owner.trans h₁.owner, h₁.targets.trans h₂.targets⟩

variable {s s' : OwnerSegmentAllocator A} {seg seg' : OwnerSegmentState A}

theorem targetLeases_eq (h : s.segment = some seg) : s.targetLeases = seg.targetLeases := by
  simp [targetLeases, h]

theorem advances_of_segment_eq (h : s'.segment = s.segment) : s.Advances s' := by
  refine ⟨by rw [h], ?_⟩
  rw [targetLeases, targetLeases, h]
  exact .refl _

theorem advances_countDown {k : SlotKind} : s.Advances (s'.countDown k) ↔ s.Advances s' := by
  constructor
  · exact fun h => h.trans (advances_of_segment_eq (segment_countDown k s').symm)
  · exact fun h => h.trans (advances_of_segment_eq (segment_countDown k s'))

theorem advances_of_leaseView (hseg : s.segment = some seg) (hseg' : s'.segment = some seg')
    (h : seg'.leaseView = seg.leaseView) : s.Advances s' := by
  obtain ⟨howner, htargets⟩ := Prod.mk.inj h
  refine ⟨by rw [hseg, hseg']; exact congrArg some howner, ?_⟩
  rw [targetLeases_eq hseg, targetLeases_eq hseg', htargets]
  exact .refl _

/-- A segment with the same owner and target leases has been put back. -/
theorem advance_putSegment (hseg : s.segment = some seg) (h : seg'.leaseView = seg.leaseView) :
    s.Advances (putSegment seg' s) :=
  advances_of_leaseView hseg rfl h

/-- A segment in which one target lease has moved has been put back. -/
theorem advance_setTargetLeaseState {op : OwnerTransferOpId} {r : OwnerTargetLeaseRecord}
    {state : OwnerTargetLeaseState} (hseg : s.segment = some seg)
    (hr : seg.targetLeases.lookup op = some r) (hm : r.state.Moves state)
    (h : seg'.leaseView = (seg.setTargetLeaseState op state).leaseView) :
    s.Advances (putSegment seg' s) := by
  obtain ⟨howner, htargets⟩ := Prod.mk.inj h
  refine ⟨by rw [hseg]; exact congrArg some howner, ?_⟩
  rw [targetLeases_eq hseg, targetLeases_eq rfl, htargets]
  exact TargetsAdvance.setState hr hm

end OwnerSegmentAllocator

namespace OwnerSegmentState

variable (seg : OwnerSegmentState A) (id : ℕ) (f : OwnerSlotManifestEntry → OwnerSlotManifestEntry)

/-- Rewriting the entry of an allocation changes nothing but the manifest. -/
theorem updateManifestByAllocation_eq :
    ∃ t, seg.updateManifestByAllocation id f = { seg with manifestByKey := t } := by
  unfold updateManifestByAllocation
  split
  · exact ⟨_, rfl⟩
  · exact ⟨seg.manifestByKey, rfl⟩

theorem leaseView_updateManifestByAllocation :
    (seg.updateManifestByAllocation id f).leaseView = seg.leaseView := by
  obtain ⟨t, ht⟩ := seg.updateManifestByAllocation_eq id f
  rw [ht]
  rfl

theorem targetLeases_updateManifestByAllocation :
    (seg.updateManifestByAllocation id f).targetLeases = seg.targetLeases :=
  congrArg Prod.snd (seg.leaseView_updateManifestByAllocation id f)

end OwnerSegmentState

namespace Update

open OwnerSegmentAllocator OwnerSegmentState

variable [OffsetAllocator A]

/-- What a claim of the record `a` from the segment has checked. -/
structure Claimable (seg : OwnerSegmentState A) (nextAllocationId : ℕ) (a : OwnerAllocationState)
    (allocator : A) : Prop where
  id_eq : a.allocationId = nextAllocationId + 1
  fresh : seg.allocation a.allocationId = none
  offset_fresh : seg.allocationsByOffset.lookup a.allocation.offset = none
  allocate_eq : allocate seg.allocator (a.capacityBytes / granularityBytes) =
    some (a.allocation, allocator)
  offset_eq : ownerSegmentOffsetBytes a.allocation.offset = some a.segmentOffset
  capacity_pos : 0 < a.capacityBytes
  capacity_mod : a.capacityBytes % granularityBytes = 0
  len_pos : 0 < a.valueLen
  len_le : a.valueLen ≤ a.capacityBytes
  leases : a.sourceReadLeaseCount = 0
  state : a.state = .prepared

/-- One update from `s` to `s'`. -/
def Step (s : OwnerSegmentAllocator A) : Update → OwnerSegmentAllocator A → Prop
  | bookkeeping, s' =>
    s'.segment = s.segment ∧ s'.nextAllocationId = s.nextAllocationId ∧
      s'.slotCount = s.slotCount ∧ s'.localTargetBytes = s.localTargetBytes
  | localTarget bytes, s' =>
    s'.segment = s.segment ∧ s'.nextAllocationId = s.nextAllocationId ∧
      s'.slotCount = s.slotCount ∧ s'.localTargetBytes = bytes
  | allocationId, s' => s' = { s with nextAllocationId := s.nextAllocationId + 1 }
  | leaseId, s' => s' = { s with nextLeaseSequence := s.nextLeaseSequence + 1 }
  | claim a, s' => ∃ seg allocator, s.segment = some seg ∧
      Claimable seg s.nextAllocationId a allocator ∧
      s' = countUp .prepared { putSegment (seg.claimed allocator a) s with
        nextAllocationId := s.nextAllocationId + 1 }
  | leakRange units, s' => ∃ seg allocator x, s.segment = some seg ∧ 0 < units ∧
      allocate seg.allocator units = some (x, allocator) ∧
      ownerSegmentOffsetBytes x.offset = none ∧
      s' = { putSegment { seg with allocator } s with
        nextAllocationId := s.nextAllocationId + 1 }
  | leakSlot a, s' => ∃ seg allocator, s.segment = some seg ∧
      Claimable seg s.nextAllocationId a allocator ∧ checkedAdd seg.addr a.segmentOffset = none ∧
      s' = { putSegment (seg.claimed allocator a) s with
        nextAllocationId := s.nextAllocationId + 1 }
  | slotState id state, s' => ∃ seg a, s.segment = some seg ∧ seg.allocation id = some a ∧
      a.state.kind.rank ≤ state.kind.rank ∧
      ¬({ a with state } : OwnerAllocationState).Unreferenced ∧
      s' = countDown a.state.kind (countUp state.kind (putSegment (seg.setSlotState id state) s))
  | acquireSource op lease token, s' => ∃ seg a n, s.segment = some seg ∧
      seg.sourceLeases.lookup op = none ∧ seg.allocation token.source.allocationId = some a ∧
      a.state = .committed true n ∧
      s' = putSegment (seg.acquired op lease token (a.sourceReadLeaseCount + 1)) s
  | releaseSource op outcome, s' => ∃ seg r a, s.segment = some seg ∧
      seg.sourceLeases.lookup op = some r ∧ r.state = .active ∧
      seg.allocation r.routeToken.source.allocationId = some a ∧ 0 < a.sourceReadLeaseCount ∧
      ¬({ a with sourceReadLeaseCount := a.sourceReadLeaseCount - 1 } :
        OwnerAllocationState).Unreferenced ∧
      s' = putSegment ((seg.setSourceReadLeaseCount r.routeToken.source.allocationId
        (a.sourceReadLeaseCount - 1)).setSourceLeaseState op (.released outcome)) s
  | freePrepared id, s' => ∃ seg a, s.segment = some seg ∧ seg.allocation id = some a ∧
      a.sourceReadLeaseCount = 0 ∧ a.state = .prepared ∧
      s' = countDown .prepared (putSegment (seg.freed id a) s)
  | free id, s' => ∃ seg a, s.segment = some seg ∧ seg.allocation id = some a ∧
      a.sourceReadLeaseCount = 0 ∧ a.state ≠ .prepared ∧
      s' = countDown a.state.kind (putSegment (seg.freed id a) s)
  | freeSource op outcome, s' => ∃ seg r a, s.segment = some seg ∧
      seg.sourceLeases.lookup op = some r ∧ r.state = .active ∧
      seg.allocation r.routeToken.source.allocationId = some a ∧ a.sourceReadLeaseCount = 1 ∧
      a.state = .committed false 0 ∧
      s' = countDown .committed (putSegment ((seg.setSourceLeaseState op
        (.released outcome)).freed r.routeToken.source.allocationId a) s)
  | insertManifest e, s' => ∃ seg, s.segment = some seg ∧ e.slot.isValid = true ∧
      seg.identityMatchesDesc e.slot = true ∧ seg.manifestByKey.lookup e.manifestKey = none ∧
      seg.manifestKeyByAllocation.lookup e.slot.allocationId = none ∧
      e.scope = e.disposition.scope ∧ s' = putSegment (seg.insertManifest e) s
  | physicalState id state, s' => ∃ seg, s.segment = some seg ∧
      s' = putSegment (seg.setPhysicalState id state) s
  | commitManifest id routeEpoch, s' => ∃ seg, s.segment = some seg ∧
      s' = putSegment (seg.commitManifest id routeEpoch) s
  | scope key c, s' => ∃ seg e, s.segment = some seg ∧ seg.manifestByKey.lookup key = some e ∧
      s' = putSegment (seg.rescoped key c) s
  | reserve key slot, s' => ∃ seg e, s.segment = some seg ∧
      seg.manifestByKey.lookup key = some e ∧ e.slot = slot ∧ e.scope = some .localExclusive ∧
      seg.globalDemotionReservations.lookup key = none ∧
      s' = putSegment (seg.reserved key slot) s
  | unreserve key, s' => ∃ seg, s.segment = some seg ∧ s' = putSegment (seg.removeReservation key) s
  | insertTarget op r, s' => ∃ seg, s.segment = some seg ∧ seg.targetLeases.lookup op = none ∧
      r.state = .prepared ∧ s' = putSegment (seg.insertTargetLease op r) s
  | targetState op state, s' => ∃ seg r, s.segment = some seg ∧
      seg.targetLeases.lookup op = some r ∧ r.state.Moves state ∧
      s' = putSegment (seg.setTargetLeaseState op state) s

/-- What an update changes in an installed segment, and what it has checked there. -/
inductive Change (n : ℕ) (seg : OwnerSegmentState A) : Update → OwnerSegmentState A → Prop
  | bookkeeping : Change n seg .bookkeeping seg
  | localTarget {bytes} : Change n seg (.localTarget bytes) seg
  | allocationId : Change n seg .allocationId seg
  | leaseId : Change n seg .leaseId seg
  | claim {a allocator} (hc : Claimable seg n a allocator) :
      Change n seg (.claim a) (seg.claimed allocator a)
  | leakRange {units allocator} : Change n seg (.leakRange units) { seg with allocator }
  | leakSlot {a allocator} (hc : Claimable seg n a allocator) :
      Change n seg (.leakSlot a) (seg.claimed allocator a)
  | slotState {id state a} (ha : seg.allocation id = some a)
      (hrank : a.state.kind.rank ≤ state.kind.rank)
      (hreferenced : ¬({ a with state } : OwnerAllocationState).Unreferenced) :
      Change n seg (.slotState id state) (seg.setSlotState id state)
  | acquireSource {op lease token a holders} (hop : seg.sourceLeases.lookup op = none)
      (ha : seg.allocation token.source.allocationId = some a)
      (hstate : a.state = .committed true holders) :
      Change n seg (.acquireSource op lease token)
        (seg.acquired op lease token (a.sourceReadLeaseCount + 1))
  | releaseSource {op outcome r a} (hr : seg.sourceLeases.lookup op = some r)
      (hactive : r.state = .active) (ha : seg.allocation r.routeToken.source.allocationId = some a)
      (hreferenced : ¬({ a with sourceReadLeaseCount := a.sourceReadLeaseCount - 1 } :
        OwnerAllocationState).Unreferenced) :
      Change n seg (.releaseSource op outcome) ((seg.setSourceReadLeaseCount
        r.routeToken.source.allocationId (a.sourceReadLeaseCount - 1)).setSourceLeaseState op
          (.released outcome))
  | freePrepared {id a} (ha : seg.allocation id = some a) (hzero : a.sourceReadLeaseCount = 0)
      (hstate : a.state = .prepared) : Change n seg (.freePrepared id) (seg.freed id a)
  | free {id a} (ha : seg.allocation id = some a) (hzero : a.sourceReadLeaseCount = 0) :
      Change n seg (.free id) (seg.freed id a)
  | freeSource {op outcome r a} (hr : seg.sourceLeases.lookup op = some r)
      (hactive : r.state = .active) (ha : seg.allocation r.routeToken.source.allocationId = some a)
      (hone : a.sourceReadLeaseCount = 1) : Change n seg (.freeSource op outcome)
        ((seg.setSourceLeaseState op (.released outcome)).freed r.routeToken.source.allocationId a)
  | insertManifest {e} (hid : seg.identityMatchesDesc e.slot = true)
      (hkey : seg.manifestByKey.lookup e.manifestKey = none)
      (hslot : seg.manifestKeyByAllocation.lookup e.slot.allocationId = none)
      (hscope : e.scope = e.disposition.scope) :
      Change n seg (.insertManifest e) (seg.insertManifest e)
  | physicalState {id state} : Change n seg (.physicalState id state) (seg.setPhysicalState id state)
  | commitManifest {id epoch} : Change n seg (.commitManifest id epoch) (seg.commitManifest id epoch)
  | scope {key c e} (he : seg.manifestByKey.lookup key = some e) :
      Change n seg (.scope key c) (seg.rescoped key c)
  | reserve {key e} (he : seg.manifestByKey.lookup key = some e)
      (hlocal : e.scope = some .localExclusive)
      (hnone : seg.globalDemotionReservations.lookup key = none) :
      Change n seg (.reserve key e.slot) (seg.reserved key e.slot)
  | unreserve {key} : Change n seg (.unreserve key) (seg.removeReservation key)
  | insertTarget {op r} (hnone : seg.targetLeases.lookup op = none) :
      Change n seg (.insertTarget op r) (seg.insertTargetLease op r)
  | targetState {op state r} (hr : seg.targetLeases.lookup op = some r)
      (hmoves : r.state.Moves state) :
      Change n seg (.targetState op state) (seg.setTargetLeaseState op state)

variable {s s' : OwnerSegmentAllocator A} {u : Update}

theorem Step.change {seg : OwnerSegmentState A} (h : Step s u s') (hs : s.segment = some seg) :
    ∃ seg', s'.segment = some seg' ∧ Change s.nextAllocationId seg u seg' := by
  cases u with
  | bookkeeping | localTarget => exact ⟨seg, h.1.trans hs, by constructor⟩
  | allocationId | leaseId =>
    cases h
    exact ⟨seg, hs, by constructor⟩
  | _ =>
    simp only [Step] at h
    casesm* ∃ _, _, _ ∧ _
    subst_vars
    cases hs.symm.trans ‹s.segment = some _›
    exact ⟨_, by simp [putSegment]; rfl, by constructor <;> assumption⟩

/-- Only an installed segment is changed. -/
theorem Step.segment_eq_of_none (h : Step s u s')
    (hs : s.segment = none) : s'.segment = s.segment := by
  cases u with
  | bookkeeping | localTarget => exact h.1
  | allocationId | leaseId =>
    cases h
    rfl
  | _ => simp [Step, hs] at h

/-- **Target leases only advance.** No update removes or rewrites a lease record. -/
theorem Step.advances (h : Step s u s') : s.Advances s' := by
  cases hs : s.segment with
  | none => exact advances_of_segment_eq (h.segment_eq_of_none hs)
  | some seg =>
    obtain ⟨seg', hs', hchange⟩ := h.change hs
    cases hchange with
    | insertTarget hnone =>
      refine ⟨by rw [hs, hs']; rfl, ?_⟩
      rw [targetLeases_eq hs, targetLeases_eq hs']
      exact TargetsAdvance.insert _ hnone
    | targetState hr hmoves =>
      refine ⟨by rw [hs, hs']; rfl, ?_⟩
      rw [targetLeases_eq hs, targetLeases_eq hs']
      exact TargetsAdvance.setState hr hmoves
    | physicalState | commitManifest =>
      exact advances_of_leaseView hs hs' (leaseView_updateManifestByAllocation _ _ _)
    | _ => exact advances_of_leaseView hs hs' rfl

theorem advances_of_run {us : List Update} (h : Run Step s us s') : s.Advances s' :=
  h.preorder (R := Advances) (fun _ => .refl _) (fun _ _ _ => .trans) fun _ _ _ => Step.advances

end Update

end Fluxon.OwnerSegment
