import Fluxon.OwnerSegment.Effect

/-!
# What the lease calls do

The specifications of the calls on source and target leases, in the form of
`Fluxon.OwnerSegment.Effect`. A target call moves the lease and its manifest entry together; it
panics only when an open lease has lost its slot, its manifest entry or its slot counter.
-/

namespace Fluxon.OwnerSegment

open OffsetAllocator Call OwnerSegmentState Option
open OwnerTargetLeaseRecord (replayOutcome)

variable {A : Type} {state : OwnerTargetLeaseState}

theorem isOpen_of_unpublishedGet (h : state.unpublishedGet = true) : state.isOpen = true := by
  cases state <;> simp_all [OwnerTargetLeaseState.unpublishedGet]

variable {reason : String}

theorem moves_aborted (h : state.isOpen = true) : state.Moves (.aborted reason) := by
  cases state with
  | prepared | dataReady | routePending => constructor
  | committed | aborted => simp at h

variable {routeEpoch : ℕ}

theorem moves_committed (h : state.unpublishedGet = true) :
    state.Moves (.committed routeEpoch) := by
  cases state with
  | dataReady | routePending => constructor
  | prepared | committed | aborted => simp [OwnerTargetLeaseState.unpublishedGet] at h

/-- The record binds its operation with these parameters. -/
def OwnerTargetLeaseRecord.Binds (r : OwnerTargetLeaseRecord) (key : String) (putId : PutId)
    (len : ℕ) (disposition : OwnerTargetDisposition) (atomicBatch : Option PutAtomicGroup) : Prop :=
  r.key = key ∧ r.putId = putId ∧ r.len = len ∧ r.disposition = disposition ∧
    r.atomicBatch = atomicBatch

/-! ## Calls that answer replays -/

/-- The calls of the target protocol that answer a replay with a lease. -/
inductive TargetCall
  | prepareTarget (op : OwnerTransferOpId) (expectedTarget : OwnerGeneration) (key : String)
      (putId : PutId) (len : ℕ) (disposition : OwnerTargetDisposition)
      (atomicBatch : Option PutAtomicGroup)
  | prepareClaimedGetTarget (op : OwnerTransferOpId) (key : String) (putId : PutId)
      (atomicBatch : Option PutAtomicGroup) (slot : OwnerSlotDesc)
  | markTargetDataReady (op : OwnerTransferOpId) (leaseId : OwnerLeaseId)
      (receipt : OwnerTransferReceipt)
  | beginTargetCommit (op : OwnerTransferOpId) (leaseId : OwnerLeaseId)
      (receipt : OwnerTransferReceipt) (routeToken : Option OwnerTargetRouteToken)
  | finishTargetCommit (op : OwnerTransferOpId) (leaseId : OwnerLeaseId) (routeEpoch : ℕ)

namespace TargetCall

/-- The operation of the call. -/
def op : TargetCall → OwnerTransferOpId
  | prepareTarget op .. | prepareClaimedGetTarget op .. | markTargetDataReady op ..
  | beginTargetCommit op .. | finishTargetCommit op .. => op

/-- Run the call for its outcome. -/
def run [OffsetAllocator A] : TargetCall → AllocCall A OwnerSegmentTransferOutcome
  | prepareTarget op target key putId len disposition batch =>
    OwnerSegmentAllocator.prepareTarget op target key putId len disposition batch
  | prepareClaimedGetTarget op key putId batch slot =>
    OwnerSegmentAllocator.prepareClaimedGetTarget op key putId batch slot
  | markTargetDataReady op leaseId receipt =>
    OwnerSegmentAllocator.markTargetDataReady op leaseId receipt
  | beginTargetCommit op leaseId receipt token =>
    OwnerSegmentAllocator.beginTargetCommit op leaseId receipt token
  | finishTargetCommit op leaseId routeEpoch =>
    OwnerSegmentAllocator.finishTargetCommit op leaseId routeEpoch

/-- The record of the call's operation answers a replay of the call. -/
def AnsweredBy (owner : OwnerGeneration) (r : OwnerTargetLeaseRecord) : TargetCall → Prop
  | prepareTarget _ target key putId len disposition batch =>
    target = owner ∧ r.Binds key putId len disposition batch
  | prepareClaimedGetTarget _ key putId batch slot =>
    r.Binds key putId slot.len .localExclusive batch ∧ r.slot = slot
  | markTargetDataReady _ leaseId receipt => r.leaseId = leaseId ∧
    match r.state with
    | .prepared => False
    | .dataReady previous => previous = receipt
    | .routePending .. | .committed _ | .aborted _ => True
  | beginTargetCommit _ leaseId receipt token => r.leaseId = leaseId ∧
    match r.state with
    | .prepared | .dataReady _ => False
    | .routePending previous previousToken => previous = receipt ∧ previousToken = token
    | .committed _ | .aborted _ => True
  | finishTargetCommit _ leaseId routeEpoch => r.leaseId = leaseId ∧ r.state = .committed routeEpoch

end TargetCall

namespace OwnerSegmentState

variable {seg : OwnerSegmentState A} {op : OwnerTransferOpId}

theorem post_moveTarget {id : ℕ} {state : OwnerTargetLeaseState}
    {physicalState : OwnerSlotPhysicalState} {msg : String} :
    Post (moveTarget op id state physicalState msg) seg
      (fun _ seg' => seg' = (seg.setTargetLeaseState op state).setPhysicalState id physicalState)
      (fun _ seg' => seg' = seg.setTargetLeaseState op state ∧
        seg.manifestEntryByAllocation id = none) := by
  simp only [moveTarget, post_bind, post_modify, post_get, post_expect]
  exact ⟨fun _ _ => trivial, fun h => ⟨trivial, h⟩⟩

theorem leaseView_commitTarget (seg : OwnerSegmentState A) (op : OwnerTransferOpId)
    (id routeEpoch : ℕ) (state : OwnerSlotState) :
    (((seg.setSlotState id state).commitManifest id routeEpoch).setTargetLeaseState op
        (.committed routeEpoch)).leaseView =
      (seg.setTargetLeaseState op (.committed routeEpoch)).leaseView := by
  obtain ⟨t, ht⟩ := (seg.setSlotState id state).updateManifestByAllocation_eq id fun e =>
    { e with physicalState := .committed, routeEpoch }
  rw [commitManifest, ht]
  rfl

theorem post_commitTarget {id routeEpoch : ℕ} {msg : String} :
    Post (commitTarget op id routeEpoch msg) seg (fun _ seg' => seg' =
        (seg.commitManifest id routeEpoch).setTargetLeaseState op (.committed routeEpoch))
      (fun _ seg' => seg' = seg ∧ seg.manifestEntryByAllocation id = none) := by
  simp only [commitTarget, post_bind, post_modify, post_get, post_expect]
  exact ⟨fun _ _ => trivial, fun h => ⟨trivial, h⟩⟩

end OwnerSegmentState

namespace OwnerSegmentAllocator

variable {s : OwnerSegmentAllocator A} {op : OwnerTransferOpId} {leaseId : OwnerLeaseId}

/-- The open lease of an operation, in the installed segment. -/
structure OpenLease (s : OwnerSegmentAllocator A) (op : OwnerTransferOpId)
    (seg : OwnerSegmentState A) (r : OwnerTargetLeaseRecord) : Prop where
  segment_eq : s.segment = some seg
  lookup_eq : seg.targetLeases.lookup op = some r
  isOpen : r.state.isOpen = true

/-- An open lease has lost its manifest entry. -/
def LeaseUnbound (s : OwnerSegmentAllocator A) (op : OwnerTransferOpId) : Prop :=
  ∃ seg r, s.OpenLease op seg r ∧ seg.manifestEntryByAllocation r.slot.allocationId = none

/-- A slot counter is exhausted, or zero although there is a slot of its kind. -/
def CounterPanics (s : OwnerSegmentAllocator A) : Prop := (∃ k, u64Max < s.slotCount k + 1) ∨
    ∃ seg id a, s.segment = some seg ∧ seg.allocation id = some a ∧ s.slotCount a.state.kind = 0

variable {a : OwnerAllocationState}

theorem counterPanics_of {seg : OwnerSegmentState A} {id : ℕ} {k : SlotKind}
    (hseg : s.segment = some seg) (ha : seg.allocation id = some a) (hk : a.state.kind = k)
    (h : (∃ k, u64Max < s.slotCount k + 1) ∨ s.slotCount k = 0) : s.CounterPanics := by
  refine h.imp_right fun hzero => ⟨seg, id, a, hseg, ha, ?_⟩
  rw [hk]
  exact hzero

/-- The outcome is the answer of the operation's record to a replay of the call. -/
def Replays (s : OwnerSegmentAllocator A) (c : TargetCall) (o : OwnerSegmentTransferOutcome) :
    Prop :=
  ∃ seg r, s.segment = some seg ∧ seg.targetLeases.lookup c.op = some r ∧
    c.AnsweredBy seg.owner r ∧ o = r.replayOutcome

/-- The call has changed nothing: it failed or it was a replay. -/
def Unmoved (s : OwnerSegmentAllocator A) (c : TargetCall) (o : OwnerSegmentTransferOutcome)
    (s' : OwnerSegmentAllocator A) : Prop :=
  s' = s ∧ (o.target? = none ∨ s.Replays c o)

variable {o : OwnerSegmentTransferOutcome}

theorem refused {c : TargetCall} {p : Prop} (h : o.target? = none) : s.Unmoved c o s ∨ p :=
  .inl ⟨rfl, .inl h⟩

variable {seg : OwnerSegmentState A} {r : OwnerTargetLeaseRecord}

theorem unmoved_of_record {c : TargetCall} (hs : s.segment = some seg)
    (hr : seg.targetLeases.lookup c.op = some r) (h : c.AnsweredBy seg.owner r)
    (ho : o = r.replayOutcome) : s.Unmoved c o s :=
  ⟨rfl, .inr ⟨seg, r, hs, hr, h, ho⟩⟩

/-- The calls look up the segment and the lease, and check the lease, before anything else. -/
theorem post_withTarget {α : Type} {o₁ o₂ o₃ : α} {op : OwnerTransferOpId}
    {guard : OwnerSegmentState A → OwnerTargetLeaseRecord → Prop} [∀ seg, DecidablePred (guard seg)]
    {c : OwnerSegmentState A → OwnerTargetLeaseRecord → AllocCall A α}
    {Q : α → OwnerSegmentAllocator A → Prop} {E : String → OwnerSegmentAllocator A → Prop}
    (h₁ : Q o₁ s) (h₂ : Q o₂ s) (h₃ : Q o₃ s)
    (hc : ∀ seg r, s.segment = some seg → seg.targetLeases.lookup op = some r → ¬guard seg r →
      Post (c seg r) s Q E) :
    Post (do
      let some seg := (← get).segment | return o₁
      let some existing := seg.targetLeases.lookup op | return o₂
      if guard seg existing then
        return o₃
      c seg existing) s Q E := by
  simp only [post_bind, post_get]
  split
  · next seg hseg =>
    split
    · next r hr =>
      simp only [post_ite, post_pure]
      exact ⟨fun _ => h₃, hc seg r hseg hr⟩
    · exact h₂
  · exact h₁

/-! ## Moving a target lease -/

section Move

variable [OffsetAllocator A]

/-- The common step of the calls that move a lease without moving its slot. -/
theorem post_onSegment_moveTarget {op : OwnerTransferOpId} (msg : String)
    (hseg : s.segment = some seg) (hr : seg.targetLeases.lookup op = some r)
    (hopen : r.state.isOpen = true) (hm : r.state.Moves state)
    (physicalState : OwnerSlotPhysicalState) :
    Post (onSegment seg (moveTarget op r.slot.allocationId state physicalState msg)) s
      (fun _ s' => Run Update.Step s
        [.targetState op state, .physicalState r.slot.allocationId physicalState] s')
      (fun _ s' => s.Advances s' ∧ s.LeaseUnbound op) := by
  rw [onSegment, post_onPart]
  refine post_moveTarget.mono ?_ ?_
  · rintro _ seg' rfl
    exact .cons ⟨seg, r, hseg, hr, hm, rfl⟩ (.single ⟨_, rfl, rfl⟩)
  · rintro _ seg' ⟨rfl, hnone⟩
    exact ⟨advance_setTargetLeaseState hseg hr hm rfl, seg, r, ⟨hseg, hr, hopen⟩, hnone⟩

variable {receipt : OwnerTransferReceipt}

theorem post_markTargetDataReady : Post (markTargetDataReady op leaseId receipt) s
      (fun o s' => s.Unmoved (.markTargetDataReady op leaseId receipt) o s' ∨
        ∃ seg r, o.target? = some (r.leaseId, r.slot) ∧ s.segment = some seg ∧
        seg.targetLeases.lookup op = some r ∧ r.leaseId = leaseId ∧ r.state = .prepared ∧
        Run Update.Step s [.targetState op (.dataReady receipt),
          .physicalState r.slot.allocationId .dataReady] s')
      (fun _ s' => s.Advances s' ∧ s.LeaseUnbound op) := by
  refine post_withTarget (refused rfl) (refused rfl) (refused rfl) fun seg r hseg hr hlease => ?_
  have hlease : r.leaseId = leaseId := not_not.1 hlease
  split <;> rename_i hstate
  · simp only [post_ite, post_pure]
    refine ⟨fun _ => refused rfl, fun hreceipt => .inl ?_⟩
    refine unmoved_of_record hseg hr ⟨hlease, ?_⟩ (by simp [replayOutcome, hstate])
    rw [hstate]
    exact not_not.1 hreceipt
  · refine .inl (unmoved_of_record hseg hr ⟨hlease, ?_⟩ (by simp [replayOutcome, hstate]))
    rw [hstate]
    trivial
  · refine .inl (unmoved_of_record hseg hr ⟨hlease, ?_⟩ (by simp [replayOutcome, hstate]))
    rw [hstate]
    trivial
  · exact refused rfl
  · simp only [post_ite, post_bind, post_pure]
    refine ⟨fun _ => refused rfl, fun _ => ?_⟩
    refine (post_onSegment_moveTarget _ hseg hr (by simp [hstate])
      (by rw [hstate]; exact .dataReady receipt) _).imp ?_
    rintro _ s' hrun
    exact .inr ⟨seg, r, rfl, hseg, hr, hlease, hstate, hrun⟩

theorem post_beginTargetCommit {routeToken : Option OwnerTargetRouteToken} :
    Post (beginTargetCommit op leaseId receipt routeToken) s
      (fun o s' => s.Unmoved (.beginTargetCommit op leaseId receipt routeToken) o s' ∨
        ∃ seg r, o.target? = some (r.leaseId, r.slot) ∧ s.segment = some seg ∧
        seg.targetLeases.lookup op = some r ∧ r.leaseId = leaseId ∧
        r.state.Moves (.routePending receipt routeToken) ∧
        Run Update.Step s [.targetState op (.routePending receipt routeToken),
          .physicalState r.slot.allocationId .routePending] s')
      (fun _ s' => s.Advances s' ∧ s.LeaseUnbound op) := by
  refine post_withTarget (refused rfl) (refused rfl) (refused rfl) fun seg r hseg hr hlease => ?_
  have hlease : r.leaseId = leaseId := not_not.1 hlease
  split <;> rename_i hstate
  · refine .inl (unmoved_of_record hseg hr ⟨hlease, ?_⟩ (by simp [replayOutcome, hstate]))
    rw [hstate]
    trivial
  · exact refused rfl
  · simp only [post_ite, post_pure]
    refine ⟨fun _ => refused rfl, fun hsame => .inl ?_⟩
    refine unmoved_of_record hseg hr ⟨hlease, ?_⟩ (by simp [replayOutcome, hstate])
    rw [hstate]
    push Not at hsame
    exact hsame
  all_goals
    have hm : r.state.Moves (.routePending receipt routeToken) := by
      rw [hstate]
      constructor
    have hmove := post_onSegment_moveTarget "prepared target must have a manifest entry" hseg hr
      (by simp [hstate]) hm .routePending
    simp only [post_ite, post_pure]
    refine ⟨fun _ => refused rfl, fun _ => ⟨fun _ => ?_, fun _ =>
      ⟨fun _ => refused rfl, fun _ => ?_⟩⟩⟩
    · split
      · simp only [post_ite, post_pure, post_bind]
        refine ⟨fun _ => refused rfl, fun _ => hmove.imp ?_⟩
        exact fun _ s' hrun => .inr ⟨seg, r, rfl, hseg, hr, hlease, hm, hrun⟩
      · exact refused rfl
    · rw [post_bind]
      refine hmove.imp ?_
      exact fun _ s' hrun => .inr ⟨seg, r, rfl, hseg, hr, hlease, hm, hrun⟩

variable {capability : OwnerTargetWriteCapability}

theorem post_beginDataReadyGetTargetCommit : Post (beginDataReadyGetTargetCommit capability) s
      (fun _ s' => s' = s ∨ ∃ seg r receipt, s.segment = some seg ∧
        seg.targetLeases.lookup capability.operation = some r ∧
        r.leaseId = capability.leaseId ∧ r.state = .dataReady receipt ∧
        Run Update.Step s [.targetState capability.operation (.routePending receipt none),
          .physicalState r.slot.allocationId .routePending] s')
      (fun _ s' => s.Advances s' ∧ s.LeaseUnbound capability.operation) := by
  refine post_withTarget (.inl rfl) (.inl rfl) (.inl rfl) fun seg r hseg hr hid => ?_
  push Not at hid
  split <;> rename_i hstate
  · exact .inl rfl
  · simp only [post_ite, post_pure]
    exact ⟨fun _ => .inl trivial, fun _ => .inl trivial⟩
  · exact .inl rfl
  · exact .inl rfl
  rename_i receipt
  split
  · rw [post_bind]
    refine (post_onSegment_moveTarget _ hseg hr (by simp [hstate])
      (by rw [hstate]; exact .routePendingReady _ _ _) _).imp ?_
    exact fun _ s' hrun => .inr ⟨seg, r, receipt, hseg, hr, hid.2.1, hstate, hrun⟩
  · exact .inl rfl

theorem post_abortDataReadyVisibleGetTarget :
    Post (abortDataReadyVisibleGetTarget op leaseId reason) s
      (fun _ s' => s' = s ∨ ∃ seg r, s.segment = some seg ∧
        seg.targetLeases.lookup op = some r ∧ r.leaseId = leaseId ∧ r.state.isOpen = true ∧
        Run Update.Step s [.targetState op (.aborted reason),
          .physicalState r.slot.allocationId .reclaiming] s')
      (fun _ s' => s.Advances s' ∧ s.LeaseUnbound op) := by
  refine post_withTarget (.inl rfl) (.inl rfl) (.inl rfl) fun seg r hseg hr hlease => ?_
  split
  · exact .inl rfl
  simp only [post_ite, post_pure]
  refine ⟨fun _ => .inl trivial, fun hget => ?_⟩
  push Not at hget
  have hunpublished : r.state.unpublishedGet = true := by simpa using hget.2
  split
  · rw [post_bind]
    refine (post_onSegment_moveTarget _ hseg hr (isOpen_of_unpublishedGet hunpublished)
      (moves_aborted (isOpen_of_unpublishedGet hunpublished)) _).imp ?_
    exact fun _ s' hrun => .inr ⟨seg, r, hseg, hr, not_not.1 hlease,
      isOpen_of_unpublishedGet hunpublished, hrun⟩
  · exact .inl rfl

/-! ## Moving a slot with its lease -/

theorem post_markDataReadyGetTargetPendingVisible :
    Post (markDataReadyGetTargetPendingVisible capability) s
      (fun _ s' => s' = s ∨ ∃ seg r receipt, s.segment = some seg ∧
        seg.targetLeases.lookup capability.operation = some r ∧ r.slot = capability.slot ∧
        r.state = .dataReady receipt ∧
        (seg.allocation capability.slot.allocationId).map (·.state) = some .prepared ∧
        Update.Step s (.slotState capability.slot.allocationId (.pendingLocalVisible 0)) s')
      (fun _ s' => s.Advances s' ∧ s.CounterPanics) := by
  refine post_withTarget (.inl rfl) (.inl rfl) (.inl rfl) fun seg r hseg hr hguard => ?_
  push Not at hguard
  obtain ⟨-, hslot, hready, -, hstate⟩ := hguard
  obtain ⟨receipt, hreceipt⟩ : ∃ receipt, r.state = .dataReady receipt := by
    cases h : r.state <;> simp_all
  simp only [onSegment, post_bind, post_onPart, decPrepared, incPending, post_pure]
  refine OwnerSegmentState.post_markPreparedSlotPendingVisible.mono ?_ ?_
  · rintro _ seg' ⟨a, ha, hprepared, rfl⟩
    have hkind : a.state.kind = .prepared := congrArg _ hprepared
    refine post_recount ?_ fun s' hadvance hpanics =>
      ⟨hadvance s (advance_putSegment hseg rfl), counterPanics_of hseg ha hkind hpanics⟩
    exact .inr ⟨seg, r, receipt, hseg, hr, hslot, hreceipt, hstate, step_slotState_of_ne
      hseg ha hkind (by simp) (by simp [OwnerAllocationState.Unreferenced])⟩
  · rintro _ seg' ⟨rfl, hne⟩
    obtain ⟨a, ha, hprepared⟩ := map_eq_some_iff.1 hstate
    exact (hne a ha hprepared).elim

theorem post_finishTargetCommit : Post (finishTargetCommit op leaseId routeEpoch) s
      (fun o s' => s.Unmoved (.finishTargetCommit op leaseId routeEpoch) o s' ∨
        ∃ seg r state, o.target? = some (r.leaseId, r.slot) ∧ s.segment = some seg ∧
        seg.targetLeases.lookup op = some r ∧ r.leaseId = leaseId ∧ r.state.isOpen = true ∧
        (seg.allocation r.slot.allocationId).map (·.state) = some .prepared ∧
        Run Update.Step s [.slotState r.slot.allocationId state,
          .commitManifest r.slot.allocationId routeEpoch,
          .targetState op (.committed routeEpoch)] s')
      (fun _ s' => s.Advances s' ∧ (s.CounterPanics ∨ s.LeaseUnbound op ∨
          ∃ seg r, s.OpenLease op seg r ∧ seg.allocation r.slot.allocationId = none)) := by
  refine post_withTarget (refused rfl) (refused rfl) (refused rfl) fun seg r hseg hr hlease => ?_
  have hlease : r.leaseId = leaseId := not_not.1 hlease
  split <;> rename_i hstate
  · simp only [post_ite, post_pure]
    refine ⟨fun _ => refused rfl, fun hepoch => .inl ?_⟩
    rw [not_not.1 hepoch] at hstate
    exact unmoved_of_record hseg hr ⟨hlease, hstate⟩ (by simp [replayOutcome, hstate])
  · exact refused rfl
  · exact refused rfl
  · exact refused rfl
  have hopen : s.OpenLease op seg r := ⟨hseg, hr, by simp [hstate]⟩
  simp only [post_ite, post_pure, post_bind, post_expect]
  refine ⟨fun _ => refused rfl, fun _ => ⟨fun a ha => ?_, fun hnone =>
    ⟨.refl _, .inr (.inr ⟨seg, r, hopen, hnone⟩)⟩⟩⟩
  refine ⟨fun _ => refused rfl, fun hprepared => ?_⟩
  have hprepared : a.state = .prepared := not_not.1 hprepared
  simp only [onSegment, post_onPart, post_bind, post_modify, decPrepared, incCommitted]
  refine post_commitTarget.mono ?_ ?_
  · rintro _ seg' rfl
    have hm : r.state.Moves (.committed routeEpoch) := by
      rw [hstate]
      constructor
    have hadvance := advance_setTargetLeaseState hseg hr hm
      (leaseView_commitTarget seg op r.slot.allocationId routeEpoch
        (.committed r.disposition.persistent (if r.disposition.persistent then 0 else 1)))
    have hkind : a.state.kind = .prepared := congrArg _ hprepared
    refine post_recount ?_ fun s' h hpanics =>
      ⟨h s hadvance, .inl (counterPanics_of hseg ha hkind hpanics)⟩
    refine .inr ⟨seg, r, .committed r.disposition.persistent
      (if r.disposition.persistent = true then 0 else 1), rfl, hseg, hr, hlease,
      hopen.isOpen, by rw [ha, map_some, hprepared],
      .cons (step_slotState_of_ne hseg ha hkind (by simp) ?_)
        (.cons ⟨_, rfl, rfl⟩ (.single ⟨_, r, rfl, ?_, hm, rfl⟩))⟩
    · cases h : r.disposition.persistent <;> simp [OwnerAllocationState.Unreferenced]
    · rwa [commitManifest, targetLeases_updateManifestByAllocation]
  · rintro _ seg' ⟨rfl, hnone⟩
    exact ⟨advance_putSegment hseg rfl, .inr (.inl ⟨seg, r, hopen, hnone⟩)⟩

theorem post_finishDataReadyGetTarget : Post (finishDataReadyGetTarget op leaseId routeEpoch) s
      (fun _ s' => s' = s ∨ ∃ seg r n, s.segment = some seg ∧
        seg.targetLeases.lookup op = some r ∧ r.leaseId = leaseId ∧ r.state.isOpen = true ∧
        (seg.allocation r.slot.allocationId).map (·.state) = some (.pendingLocalVisible n) ∧
        Run Update.Step s [.slotState r.slot.allocationId (.committed true n),
          .commitManifest r.slot.allocationId routeEpoch,
          .targetState op (.committed routeEpoch)] s')
      (fun _ s' => s.Advances s' ∧ (s.CounterPanics ∨ s.LeaseUnbound op)) := by
  refine post_withTarget (.inl rfl) (.inl rfl) (.inl rfl) fun seg r hseg hr hid => ?_
  push Not at hid
  split
  · simp only [post_ite, post_pure]
    exact ⟨fun _ => .inl trivial, fun _ => .inl trivial⟩
  simp only [post_ite, post_pure]
  refine ⟨fun _ => .inl trivial, fun hget => ?_⟩
  push Not at hget
  have hunpublished : r.state.unpublishedGet = true := by simpa using hget.2
  have hopen : s.OpenLease op seg r := ⟨hseg, hr, isOpen_of_unpublishedGet hunpublished⟩
  split
  · rename_i n hpending
    obtain ⟨a, ha, hstate⟩ := map_eq_some_iff.1 hpending
    simp only [onSegment, post_onPart, post_bind, post_pure, decPending, incCommitted]
    refine OwnerSegmentState.post_promotePendingVisibleSlotToCommitted.mono ?_ ?_
    · rintro _ seg₁ ⟨a', n, ha', hstate', rfl⟩
      refine OwnerSegmentState.post_commitTarget.mono ?_ ?_
      · rintro _ seg' rfl
        have hm : r.state.Moves (.committed routeEpoch) := moves_committed hunpublished
        have hadvance := advance_setTargetLeaseState hseg hr hm
          (leaseView_commitTarget seg op r.slot.allocationId routeEpoch (.committed true n))
        have hkind : a'.state.kind = .pendingVisible := congrArg _ hstate'
        refine post_recount ?_ fun s' h hpanics =>
          ⟨h s hadvance, .inl (counterPanics_of hseg ha' hkind hpanics)⟩
        refine .inr ⟨seg, r, n, hseg, hr, hid.1, hopen.isOpen, by rw [ha', map_some, hstate'],
          .cons (step_slotState_of_ne hseg ha' hkind (by simp)
            (by simp [OwnerAllocationState.Unreferenced]))
          (.cons ⟨_, rfl, rfl⟩ (.single ⟨_, r, rfl, ?_, hm, rfl⟩))⟩
        rwa [commitManifest, targetLeases_updateManifestByAllocation]
      · rintro _ seg' ⟨rfl, hnone⟩
        exact ⟨advance_putSegment hseg rfl, .inr ⟨seg, r, hopen, hnone⟩⟩
    · rintro _ seg' ⟨rfl, hne⟩
      exact (hne a n ha hstate).elim
  · exact .inl rfl

/-- An open lease, with or without a pending route, whose slot cannot be released as a prepared
one. -/
def LeaseStuck (s : OwnerSegmentAllocator A) (op : OwnerTransferOpId) (leaseId : OwnerLeaseId)
    (routePending : Bool) : Prop :=
  ∃ seg r, s.OpenLease op seg r ∧ r.leaseId = leaseId ∧ r.state.isRoutePending = routePending ∧
    ∀ a, seg.allocation r.slot.allocationId = some a → a.state = .prepared →
      ¬seg.Freeable r.slot.allocationId a

/-- The common step of the two aborts that release a prepared slot. -/
theorem post_abortPrepared {op : OwnerTransferOpId} {leaseId : OwnerLeaseId}
    (hopen : s.OpenLease op seg r) (hlease : r.leaseId = leaseId) :
    Post (do
        onSegment seg do
          modify (·.setTargetLeaseState op (.aborted reason))
          OwnerSegmentState.releasePreparedSlot r.slot.allocationId
        decPrepared
        return OwnerSegmentTransferOutcome.targetAborted) s
      (fun _ s' => Run Update.Step s
        [.targetState op (.aborted reason), .freePrepared r.slot.allocationId] s')
      (fun _ s' => s.Advances s' ∧
        (s.CounterPanics ∨ s.LeaseStuck op leaseId r.state.isRoutePending)) := by
  have hm : r.state.Moves (.aborted reason) := moves_aborted hopen.isOpen
  simp only [onSegment, post_bind, post_onPart, post_modify, post_pure, decPrepared]
  refine OwnerSegmentState.post_releasePreparedSlot.mono ?_ ?_
  · rintro _ seg' ⟨a, ha, hstate, hleases, rfl⟩
    refine post_decSlots.mono ?_ ?_
    · rintro _ s' ⟨-, rfl⟩
      exact .cons ⟨seg, r, hopen.segment_eq, hopen.lookup_eq, hm, rfl⟩
        (.single ⟨_, a, rfl, ha, hleases, hstate, rfl⟩)
    · rintro _ s' ⟨rfl, hzero⟩
      refine ⟨advance_setTargetLeaseState hopen.segment_eq hopen.lookup_eq hm rfl,
        .inl (.inr ⟨seg, r.slot.allocationId, a, hopen.segment_eq, ha, ?_⟩)⟩
      rw [hstate]
      exact hzero
  · rintro _ seg' ⟨ht, hf⟩
    exact ⟨advance_setTargetLeaseState hopen.segment_eq hopen.lookup_eq hm ht,
      .inr ⟨seg, r, hopen, hlease, rfl, fun a ha hstate h =>
        hf a ha hstate ⟨h.id_eq, h.leases, h.index⟩⟩⟩

theorem post_abortTarget : Post (abortTarget op leaseId reason) s
      (fun _ s' => s' = s ∨ ∃ seg r, s.OpenLease op seg r ∧ r.leaseId = leaseId ∧ Run Update.Step s
          [.targetState op (.aborted reason), .freePrepared r.slot.allocationId] s')
      (fun _ s' => s.Advances s' ∧ (s.CounterPanics ∨ s.LeaseStuck op leaseId false)) := by
  refine post_withTarget (.inl rfl) (.inl rfl) (.inl rfl) fun seg r hseg hr hlease => ?_
  split <;> rename_i hstate
  · exact .inl rfl
  · exact .inl rfl
  · exact .inl rfl
  all_goals
    have hopen : s.OpenLease op seg r := ⟨hseg, hr, by simp [hstate]⟩
    refine (post_abortPrepared hopen (not_not.1 hlease)).mono ?_ fun _ _ h => ?_
    · exact fun _ s' hrun => .inr ⟨seg, r, hopen, not_not.1 hlease, hrun⟩
    · simpa [hstate] using h

theorem post_abortRouteRejectedTarget : Post (abortRouteRejectedTarget op leaseId reason) s
      (fun _ s' => s' = s ∨ ∃ seg r, s.OpenLease op seg r ∧ r.leaseId = leaseId ∧ Run Update.Step s
          [.targetState op (.aborted reason), .freePrepared r.slot.allocationId] s')
      (fun _ s' => s.Advances s' ∧ (s.CounterPanics ∨ s.LeaseStuck op leaseId true)) := by
  refine post_withTarget (.inl rfl) (.inl rfl) (.inl rfl) fun seg r hseg hr hlease => ?_
  split <;> rename_i hstate
  · exact .inl rfl
  · have hopen : s.OpenLease op seg r := ⟨hseg, hr, by simp [hstate]⟩
    refine (post_abortPrepared hopen (not_not.1 hlease)).mono ?_ fun _ _ h => ?_
    · exact fun _ s' hrun => .inr ⟨seg, r, hopen, not_not.1 hlease, hrun⟩
    · simpa [hstate] using h
  all_goals exact .inl rfl

end Move

/-! ## Source leases -/

section Source

theorem post_allocateLeaseId [OffsetAllocator A] : Post (allocateLeaseId (A := A)) s
      (fun r s' => (∃ e, r = .error e ∧ s' = s) ∨
        ∃ leaseId, r = .ok leaseId ∧ s.segment ≠ none ∧ Update.Step s .leaseId s')
      (fun _ _ => False) := by
  simp only [allocateLeaseId, post_bind, post_get]
  split
  · rename_i seg hseg
    split
    · rename_i sequence hsequence
      obtain ⟨-, rfl⟩ := checkedAdd_eq_some.1 hsequence
      exact .inr ⟨_, rfl, by simp [hseg], rfl⟩
    · exact .inl ⟨_, rfl, rfl⟩
  · exact .inl ⟨_, rfl, rfl⟩

variable [OffsetAllocator A] {token : OwnerSourceRouteToken}

theorem post_onSegment_acquireSource {leaseId : OwnerLeaseId} (hseg : s.segment = some seg) :
    Post (onSegment seg (OwnerSegmentState.acquireSource op token leaseId)) s
      (fun _ s' => s' = s ∨ Update.Step s (.acquireSource op leaseId token) s')
      (fun _ s' => s' = s ∧ ∃ a, seg.allocation token.source.allocationId = some a ∧
        u32Max < a.sourceReadLeaseCount + 1) := by
  rw [onSegment, post_onPart]
  refine OwnerSegmentState.post_acquireSource.mono ?_ ?_
  · rintro _ seg' (rfl | ⟨a, n, hop, ha, hstate, rfl⟩)
    · exact .inl (putSegment_self hseg)
    · exact .inr ⟨seg, a, n, hseg, hop, ha, hstate, rfl⟩
  · rintro _ seg' ⟨rfl, h⟩
    exact ⟨putSegment_self hseg, h⟩

/-- A replay consumes no lease id; a rejected acquire may. -/
theorem post_acquireSource : Post (acquireSource op token) s
      (fun _ s' => ∃ us, Run Update.Step s us s' ∧ (us = [] ∨ us = [.leaseId] ∨
        ∃ leaseId, us = [.leaseId, .acquireSource op leaseId token]))
      (fun _ s' => s.Advances s' ∧
        ∃ seg a, s.segment = some seg ∧ seg.allocation token.source.allocationId = some a ∧
          u32Max < a.sourceReadLeaseCount + 1) := by
  simp only [acquireSource, post_bind, post_get]
  cases hseg : s.segment with
  | none =>
    refine post_allocateLeaseId.mono ?_ fun _ _ h => h.elim
    rintro r s' (⟨e, rfl, rfl⟩ | ⟨leaseId, rfl, hne, -⟩)
    · exact ⟨[], .nil s', .inl rfl⟩
    · exact (hne hseg).elim
  | some seg =>
    simp only [bind_some]
    split
    · rename_i record hrecord
      simp only [post_pure, post_bind, post_get, post_expect, hseg]
      refine ⟨fun seg' h => ?_, fun h => by cases h⟩
      cases h
      refine (post_onSegment_acquireSource hseg).mono ?_ ?_
      · rintro _ s' (rfl | ⟨seg', a, n, hseg', hop, -⟩)
        · exact ⟨[], .nil s', .inl rfl⟩
        · rw [hseg] at hseg'
          cases hseg'
          simp [hrecord] at hop
      · rintro _ s' ⟨rfl, a, ha, hmax⟩
        exact ⟨.refl _, seg, a, rfl, ha, hmax⟩
    · refine post_allocateLeaseId.mono ?_ fun _ _ h => h.elim
      rintro r s₁ (⟨e, rfl, rfl⟩ | ⟨leaseId, rfl, -, hstep⟩)
      · exact ⟨[], .nil s₁, .inl rfl⟩
      have hseg₁ : s₁.segment = some seg := by
        rw [show s₁ = _ from hstep]
        exact hseg
      simp only [post_bind, post_get, post_expect, hseg₁]
      refine ⟨fun seg' h => ?_, fun h => by cases h⟩
      cases h
      refine (post_onSegment_acquireSource hseg₁).mono ?_ ?_
      · rintro _ s' (rfl | hacquire)
        · exact ⟨[.leaseId], .single hstep, .inr (.inl rfl)⟩
        · exact ⟨_, .cons hstep (.single hacquire), .inr (.inr ⟨leaseId, rfl⟩)⟩
      · rintro _ s' ⟨rfl, a, ha, hmax⟩
        exact ⟨hstep.advances, seg, a, rfl, ha, hmax⟩

theorem post_releaseSource {outcome : OwnerTransferOutcome} :
    Post (releaseSource op leaseId outcome) s
      (fun _ s' =>
        (s' = s ∧ ∀ seg r, s.segment = some seg → seg.sourceLeases.lookup op = some r →
          r.leaseId = leaseId → r.state = .active →
          ∀ a, seg.allocation r.routeToken.source.allocationId = some a →
            a.sourceReadLeaseCount = 0) ∨
        ∃ seg r a, s.segment = some seg ∧ seg.sourceLeases.lookup op = some r ∧
          r.leaseId = leaseId ∧ r.state = .active ∧
          seg.allocation r.routeToken.source.allocationId = some a ∧
          ((0 < a.sourceReadLeaseCount ∧
              ¬(a.sourceReadLeaseCount = 1 ∧ a.state = .committed false 0) ∧
              Update.Step s (.releaseSource op outcome) s') ∨
            (a.sourceReadLeaseCount = 1 ∧ a.state = .committed false 0 ∧
              Update.Step s (.freeSource op outcome) s')))
      (fun _ s' => s.Advances s' ∧ (s.CounterPanics ∨ ∃ seg r a, s.segment = some seg ∧
          seg.sourceLeases.lookup op = some r ∧ r.state = .active ∧
          seg.allocation r.routeToken.source.allocationId = some a ∧
          ¬(a.allocationId = r.routeToken.source.allocationId ∧
            seg.allocationsByOffset.lookup a.allocation.offset =
              some r.routeToken.source.allocationId))) := by
  simp only [releaseSource, post_bind, post_get]
  split
  · rename_i seg hseg
    simp only [onSegment, post_onPart, post_bind, post_get, post_expect]
    refine OwnerSegmentState.post_releaseSource.mono ?_ ?_
    · rintro _ seg' (⟨rfl, hidle⟩ | ⟨r, a, hr, hlease, hactive, ha, h⟩)
      · refine ⟨fun seg'' h => ?_, fun h => by cases h⟩
        cases h
        simp only [lt_irrefl, if_false, post_pure]
        refine .inl ⟨putSegment_self hseg, fun seg'' r hseg'' => ?_⟩
        rw [hseg] at hseg''
        cases hseg''
        exact hidle r
      · rcases h with ⟨hpos, hkeep, rfl⟩ | ⟨hone, hstate, rfl⟩
        · refine ⟨fun seg'' h => ?_, fun h => by cases h⟩
          cases h
          have hlen : ¬((seg.setSourceReadLeaseCount r.routeToken.source.allocationId
              (a.sourceReadLeaseCount - 1)).setSourceLeaseState op
                (.released outcome)).allocations.entries.length <
              seg.allocations.entries.length := by
            rw [show ((seg.setSourceReadLeaseCount _ _).setSourceLeaseState _ _).allocations
              = seg.allocations.modify _ _ from rfl, Table.length_modify]
            exact lt_irrefl _
          simp only [if_neg hlen, post_pure]
          refine .inr ⟨seg, r, a, hseg, hr, hlease, hactive, ha, .inl ⟨hpos, hkeep, seg, r, a,
            hseg, hr, hactive, ha, hpos, ?_, rfl⟩⟩
          rintro ⟨h₁, h₂⟩
          exact hkeep ⟨by simp only at h₂; omega, h₁⟩
        · refine ⟨fun seg'' h => ?_, fun h => by cases h⟩
          cases h
          have hlen : ((seg.setSourceLeaseState op (.released outcome)).freed
              r.routeToken.source.allocationId a).allocations.entries.length <
              seg.allocations.entries.length :=
            Nat.lt_of_succ_le (Table.length_erase ha).le
          simp only [if_pos hlen, decCommitted, post_bind, post_pure]
          refine post_decSlots.mono ?_ ?_
          · rintro _ s' ⟨-, rfl⟩
            exact .inr ⟨seg, r, a, hseg, hr, hlease, hactive, ha, .inr ⟨hone, hstate, seg, r, a,
              hseg, hr, hactive, ha, hone, hstate, rfl⟩⟩
          · rintro _ s' ⟨rfl, hzero⟩
            refine ⟨advance_putSegment hseg rfl, .inl (.inr ⟨seg, _, a, hseg, ha, ?_⟩)⟩
            rw [hstate]
            exact hzero
    · rintro _ seg' ⟨ht, r, a, hr, hactive, ha, hbad⟩
      exact ⟨advance_putSegment hseg ht, .inr ⟨seg, r, a, hseg, hr, hactive, ha, hbad⟩⟩
  · rename_i hnone
    exact .inl ⟨rfl, fun seg _ hseg => (hnone seg hseg).elim⟩

end Source

/-! ## Preparing a target -/

section Prepare

variable [OffsetAllocator A]

/-- The manifest entry of a newly prepared target. -/
def reservedEntry (key : String) (putId : PutId) (disposition : OwnerTargetDisposition)
    (slot : OwnerSlotDesc) : OwnerSlotManifestEntry where
  key := key
  putId := putId
  slot := slot
  scope := disposition.scope
  disposition := disposition
  routeEpoch := 0
  physicalState := .reserved

variable {atomicBatch : Option PutAtomicGroup}

theorem post_prepareClaimedGetTarget {key : String} {putId : PutId} {slot : OwnerSlotDesc} :
    Post (prepareClaimedGetTarget op key putId atomicBatch slot) s
      (fun r s' =>
        s.Unmoved (.prepareClaimedGetTarget op key putId atomicBatch slot) r s' ∨
        (r.target? = none ∧ Update.Step s .leaseId s') ∨
        ∃ seg a leaseId, r = .targetPrepared leaseId slot .prepared ∧ s.segment = some seg ∧
          seg.allocation slot.allocationId = some a ∧ a.state = .prepared ∧
          Run Update.Step s [.leaseId,
            .insertManifest (reservedEntry key putId .localExclusive slot),
            .insertTarget op ⟨leaseId, key, putId, slot.len, .localExclusive, atomicBatch, slot,
              .prepared⟩] s')
      (fun _ _ => False) := by
  simp only [prepareClaimedGetTarget, post_bind, post_get]
  split
  · rename_i seg hseg
    split
    · rename_i e he
      simp only [post_ite, post_pure]
      refine ⟨fun _ => refused rfl, fun hsame => .inl ?_⟩
      push Not at hsame
      obtain ⟨hkey, hput, hlen, hdisposition, hbatch, hslot⟩ := hsame
      exact unmoved_of_record hseg he ⟨⟨hkey, hput, hlen, hdisposition, hbatch⟩, hslot⟩ rfl
    · rename_i hop
      simp only [post_ite, post_pure, post_bind]
      refine ⟨fun _ => refused rfl, fun hguard =>
        ⟨fun _ => refused rfl, fun hstale => ⟨fun _ => refused rfl, fun hfresh => ?_⟩⟩⟩
      push Not at hguard
      obtain ⟨a, ha, hstate⟩ := map_eq_some_iff.1 hguard.2.2.2.2.2.2.2
      have hnokey : seg.manifestEntry key putId = none := by
        cases h : seg.manifestEntry key putId with
        | none => rfl
        | some e => exact (hstale ⟨by simp [h], by simpa using hfresh⟩).elim
      refine post_allocateLeaseId.imp ?_
      rintro r s₁ (⟨e, rfl, rfl⟩ | ⟨leaseId, rfl, -, hstep⟩)
      · exact refused rfl
      have hseg₁ : s₁.segment = some seg := by
        rw [show s₁ = _ from hstep]
        exact hseg
      simp only [onSegment, post_bind, post_get, post_expect, post_onPart, hseg₁]
      refine ⟨fun seg' h => ?_, fun h => by cases h⟩
      cases h
      refine post_installManifestEntry.imp ?_
      rintro r seg' (⟨e, rfl, rfl, -⟩ | ⟨rfl, rfl, _, hused, -⟩ |
        ⟨rfl, hvalid, hid, hkey, hslot, rfl⟩)
      · simp only [post_pure]
        rw [putSegment_self hseg₁]
        exact .inr (.inl ⟨rfl, hstep⟩)
      · cases hnokey.symm.trans hused
      · refine .inr (.inr ⟨seg, a, leaseId, rfl, hseg, ha, hstate, .cons hstep (.cons ⟨seg,
          hseg₁, hvalid, hid, hkey, hslot, rfl, rfl⟩ (.single ⟨_, rfl, ?_, rfl, rfl⟩))⟩)
        exact eq_none_iff_forall_ne_some.2 hop
  · exact refused rfl

/-- The slot of a claim that is not yet bound can be released again. -/
theorem freeable_claimed {n : ℕ} {allocator : A} (h : Update.Claimable seg n a allocator) :
    (seg.claimed allocator a).Freeable a.allocationId a :=
  ⟨rfl, h.leases, AList.lookup_insert _⟩

/-- The claimed slot of a failed prepare is released. -/
theorem post_releaseClaimed {s₁ : OwnerSegmentAllocator A} {allocator : A} {n : ℕ}
    (hclaim : Update.Claimable seg n a allocator)
    (hseg : s₁.segment = some (seg.claimed allocator a)) (hpos : 0 < s₁.slotCount .prepared) :
    Post (releasePreparedSlot a.allocationId a.segmentOffset a.capacityBytes) s₁
      (fun r s' => r = true ∧ Update.Step s₁ (.freePrepared a.allocationId) s')
      (fun _ _ => False) := by
  have hlive := allocation_claimed_self seg allocator a
  refine post_releasePreparedSlot.mono ?_ ?_
  · rintro r s' (⟨hnames, -⟩ | h)
    · refine (hnames ⟨_, hseg, ?_⟩).elim
      simp [identityMatches, hlive]
    · exact h
  · rintro _ s' ⟨-, seg', hseg', h⟩
    obtain rfl : seg.claimed allocator a = seg' := some.inj (hseg.symm.trans hseg')
    rcases h with hzero | h
    · omega
    · exact h a hlive hclaim.state (freeable_claimed hclaim)

/-- What a prepare that binds a new slot has established. -/
structure Prepared (s : OwnerSegmentAllocator A) (op : OwnerTransferOpId) (key : String)
    (putId : PutId) (len : ℕ) (disposition : OwnerTargetDisposition)
    (atomicBatch : Option PutAtomicGroup) (seg : OwnerSegmentState A) (a : OwnerAllocationState)
    (leaseId : OwnerLeaseId) (slot : OwnerSlotDesc) (s' : OwnerSegmentAllocator A) : Prop where
  segment_eq : s.segment = some seg
  op_fresh : seg.targetLeases.lookup op = none
  id_eq : slot.allocationId = a.allocationId
  capacity_eq : slot.capacityBytes = a.capacityBytes
  /-- A shared target fits the global budget. -/
  budget : disposition = .globalShared →
    seg.globalAccountedBytes + a.capacityBytes ≤ seg.len - s.localTargetBytes
  run : Run Update.Step s [.claim a, .leaseId,
    .insertManifest (reservedEntry key putId disposition slot),
    .insertTarget op ⟨leaseId, key, putId, len, disposition, atomicBatch, slot, .prepared⟩] s'

theorem post_prepareTarget {expectedTarget : OwnerGeneration} {key : String} {putId : PutId}
    {len : ℕ} {disposition : OwnerTargetDisposition} :
    Post (prepareTarget op expectedTarget key putId len disposition atomicBatch) s
      (fun r s' =>
        s.Unmoved (.prepareTarget op expectedTarget key putId len disposition atomicBatch) r s' ∨
        (r.target? = none ∧ ((∃ u, FailedClaim u ∧ Update.Step s u s') ∨
          (∃ a, Run Update.Step s [.claim a, .freePrepared a.allocationId] s') ∨
          ∃ a, Run Update.Step s [.claim a, .leaseId, .freePrepared a.allocationId] s')) ∨
        ∃ seg a leaseId slot, r = .targetPrepared leaseId slot .prepared ∧
          expectedTarget = seg.owner ∧
          s.Prepared op key putId len disposition atomicBatch seg a leaseId slot s')
      (fun _ s' => s.Advances s' ∧ ∃ slotSize, s.ClaimPanics slotSize) := by
  simp only [prepareTarget, post_bind, post_get]
  split
  · rename_i seg hseg
    simp only [post_ite, post_pure]
    refine ⟨fun _ => refused rfl, fun howner => ?_⟩
    have howner : expectedTarget = seg.owner := not_not.1 howner
    split
    · rename_i e he
      simp only [post_ite, post_pure]
      refine ⟨fun _ => refused rfl, fun hsame => .inl ?_⟩
      push Not at hsame
      exact unmoved_of_record hseg he ⟨howner, hsame⟩ rfl
    rename_i hop
    simp only [post_ite, post_pure]
    refine ⟨fun _ => refused rfl, fun _ => ⟨fun _ => refused rfl, fun hnokey => ?_⟩⟩
    split
    swap
    · exact refused rfl
    rename_i slotSize hsize
    simp only [post_ite, post_pure, post_bind, claimAvailableWithLen]
    refine ⟨fun _ => refused rfl, fun hbudget => ?_⟩
    refine post_claimOne.mono ?_ ?_
    swap
    · rintro _ s' ⟨ht, hpanic⟩
      exact ⟨ht, slotSize, hpanic⟩
    rintro r s₁ (⟨rfl, rfl | ⟨u, hu, hstep⟩⟩ | ⟨a, d, seg₁, rfl, hclaim, hcap, -, hseg₁, hd⟩)
    · exact refused rfl
    · exact .inr (.inl ⟨rfl, .inl ⟨u, hu, hstep⟩⟩)
    -- the slot is claimed; it is bound to the operation or released
    obtain ⟨hid, hoffset, hcapacity⟩ := claim_slotDesc hclaim hseg₁ hd
    obtain ⟨allocator, hclaimable, rfl, hpos⟩ : ∃ allocator,
        Update.Claimable seg s.nextAllocationId a allocator ∧ seg₁ = seg.claimed allocator a ∧
          0 < s₁.slotCount .prepared := by
      obtain ⟨seg', allocator, hseg', hclaimable, rfl⟩ := id hclaim
      obtain rfl : seg = seg' := some.inj (hseg.symm.trans hseg')
      refine ⟨allocator, hclaimable, ?_, by simp [slotCount_countUp]⟩
      simpa [putSegment, eq_comm] using hseg₁
    have hlive := allocation_claimed_self seg allocator a
    simp only [post_pure, List.getLast?_singleton, post_bind]
    refine post_allocateLeaseId.mono ?_ fun _ _ h => h.elim
    rintro r s₂ (⟨e, rfl, rfl⟩ | ⟨leaseId, rfl, -, hlease⟩)
    · simp only [post_bind, post_require, post_pure, hid, hoffset, hcapacity]
      refine (post_releaseClaimed hclaimable hseg₁ hpos).mono ?_ fun _ _ h => h.elim
      rintro _ s' ⟨rfl, hfree⟩
      exact ⟨fun _ => .inr (.inl ⟨rfl, .inr (.inl ⟨a, .cons hclaim (.single hfree)⟩)⟩),
        fun h => (h rfl).elim⟩
    have hseg₂ : s₂.segment = some (seg.claimed allocator a) := by
      rw [show s₂ = _ from hlease]
      exact hseg₁
    simp only [onSegment, post_bind, post_get, post_expect, post_onPart, hseg₂]
    refine ⟨fun seg' h => ?_, fun h => by cases h⟩
    cases h
    refine post_installManifestEntry.mono ?_ fun _ _ h => h.elim
    rintro r seg' (⟨e, rfl, rfl, -⟩ | ⟨rfl, rfl, _, hused, -⟩ | ⟨rfl, hvalid, hmatch, hkey, hslot, rfl⟩)
    · simp only [post_bind, post_pure, decPrepared, hid]
      refine OwnerSegmentState.post_releasePreparedSlot.mono ?_ ?_
      · rintro _ seg' ⟨a', ha', hstate, hleases, rfl⟩
        refine post_decSlots.mono ?_ ?_
        · rintro _ s' ⟨-, rfl⟩
          exact .inr (.inl ⟨rfl, .inr (.inr ⟨a, .cons hclaim (.cons hlease
            (.single ⟨_, a', hseg₂, ha', hleases, hstate, rfl⟩))⟩)⟩)
        · rintro _ s' ⟨-, hzero⟩
          rw [show s₂ = _ from hlease] at hzero
          exact (Nat.ne_of_gt hpos hzero).elim
      · rintro _ seg' ⟨-, h⟩
        exact (h a hlive hclaimable.state (freeable_claimed hclaimable)).elim
    · cases (not_isSome_iff_eq_none.1 hnokey).symm.trans hused
    · have hfresh : seg.targetLeases.lookup op = none := eq_none_iff_forall_ne_some.2 hop
      refine .inr (.inr ⟨seg, a, leaseId, d, rfl, howner, hseg, hfresh, hid, hcapacity,
        fun hshared => ?_, .cons hclaim (.cons hlease (.cons ⟨_, hseg₂, hvalid, hmatch, hkey, hslot,
          rfl, rfl⟩ (.single ⟨_, rfl, hfresh, rfl, rfl⟩)))⟩)
      have h := fun h => hbudget ⟨hshared, h⟩
      rw [hcap]
      cases hadd : checkedAdd seg.globalAccountedBytes slotSize with
      | none => simp [hadd] at h
      | some next =>
        obtain ⟨-, rfl⟩ := checkedAdd_eq_some.1 hadd
        simpa [hadd] using h
  · exact refused rfl

end Prepare

end OwnerSegmentAllocator

end Fluxon.OwnerSegment
