import Fluxon.OwnerSegment.SlotIdentity

/-!
# What a failed lease call leaves behind

Most calls of the source and target leases return their errors before the first write
(`KeepsOnError`). Two of them draw an id first: an acquire of a new operation draws a lease id
before it looks at the slot, and a prepare claims its slot, and with it an allocation id, before the
steps that can still fail. The ids are not given back; the slot is (`RolledBack`). Nothing else
changes: `failed_lease_call_frame`.
-/

namespace Fluxon.OwnerSegment

open Call OwnerSegmentState OwnerSegmentTransferOutcome

variable {A : Type} {op : OwnerTransferOpId}

open OwnerSegmentTransferOutcome (isError)

/-- A call that fails has changed nothing. -/
def KeepsOnError {σ : Type} (c : Call σ OwnerSegmentTransferOutcome) (s : σ) : Prop :=
  Post c s (fun o s' => o.isError = true → s' = s) (fun _ _ => True)

namespace OwnerSegmentState

variable {seg : OwnerSegmentState A} {leaseId : OwnerLeaseId}

theorem keepsOnError_acquireSource {token : OwnerSourceRouteToken} :
    KeepsOnError (acquireSource op token leaseId) seg := by
  simp only [KeepsOnError, acquireSource, post_bind, post_get]
  repeat' split
  all_goals first
    | exact fun _ => rfl
    | simp only [post_bind, post_pure, isError, Bool.false_eq_true, false_imp_iff, post_true]

theorem keepsOnError_releaseSource [OffsetAllocator A]
    {outcome : OwnerTransferOutcome} : KeepsOnError (releaseSource op leaseId outcome) seg := by
  simp only [KeepsOnError, releaseSource, post_bind, post_get]
  repeat' split
  all_goals first
    | exact fun _ => rfl
    | simp only [post_bind, post_pure, isError, Bool.false_eq_true, false_imp_iff, post_true]

end OwnerSegmentState

namespace OwnerSegmentAllocator

variable {s : OwnerSegmentAllocator A}

theorem keepsOnError_markDataReadyGetTargetPendingVisible
    {capability : OwnerTargetWriteCapability} :
    Post (markDataReadyGetTargetPendingVisible capability) s
      (fun r s' => ∀ e, r = .error e → s' = s) (fun _ _ => True) := by
  simp only [markDataReadyGetTargetPendingVisible, post_bind, post_get]
  repeat' split
  all_goals first
    | exact fun _ _ => rfl
    | simp only [post_bind, post_pure, reduceCtorEq, false_imp_iff, implies_true, post_true]

variable [OffsetAllocator A]

/-- The calls on a target lease that look before they write. -/
inductive LooksFirst : AllocCall A OwnerSegmentTransferOutcome → Prop
  | markTargetDataReady {op leaseId receipt} : LooksFirst (markTargetDataReady op leaseId receipt)
  | beginTargetCommit {op leaseId receipt token} :
      LooksFirst (beginTargetCommit op leaseId receipt token)
  | finishTargetCommit {op leaseId routeEpoch} :
      LooksFirst (finishTargetCommit op leaseId routeEpoch)
  | beginDataReadyGetTargetCommit {capability} :
      LooksFirst (beginDataReadyGetTargetCommit capability)
  | finishDataReadyGetTarget {op leaseId routeEpoch} :
      LooksFirst (finishDataReadyGetTarget op leaseId routeEpoch)
  | abortDataReadyVisibleGetTarget {op leaseId reason} :
      LooksFirst (abortDataReadyVisibleGetTarget op leaseId reason)
  | abortTarget {op leaseId reason} : LooksFirst (abortTarget op leaseId reason)
  | abortRouteRejectedTarget {op leaseId reason} :
      LooksFirst (abortRouteRejectedTarget op leaseId reason)

theorem keepsOnError_of_looksFirst {c : AllocCall A OwnerSegmentTransferOutcome}
    (h : LooksFirst c) : KeepsOnError c s := by
  cases h
  all_goals simp only [KeepsOnError, markTargetDataReady, beginTargetCommit, finishTargetCommit,
    beginDataReadyGetTargetCommit, finishDataReadyGetTarget, abortDataReadyVisibleGetTarget,
    abortTarget, abortRouteRejectedTarget, post_bind, post_get]
  all_goals repeat' split
  all_goals first
    | exact fun _ => rfl
    | simp only [post_bind, post_pure, post_expect, post_ite, isError, Bool.false_eq_true,
        false_imp_iff, implies_true, and_self, post_true]

theorem keepsOnError_releaseSource {leaseId : OwnerLeaseId} {outcome : OwnerTransferOutcome} :
    KeepsOnError (releaseSource op leaseId outcome) s := by
  simp only [KeepsOnError, releaseSource, post_bind, post_get]
  split
  · rename_i seg hseg
    simp only [onSegment, post_onPart, post_bind, post_get, post_expect]
    refine OwnerSegmentState.keepsOnError_releaseSource.imp ?_
    intro o seg' ho
    refine ⟨fun seg₁ hseg₁ => ?_, fun _ => trivial⟩
    obtain rfl : seg' = seg₁ := Option.some.inj hseg₁
    by_cases herr : o.isError = true
    · rw [ho herr, if_neg (Nat.lt_irrefl _)]
      exact fun _ => putSegment_self hseg
    · simp only [post_ite, post_bind, post_pure, herr, Bool.false_eq_true, false_imp_iff,
        implies_true, and_true]
      exact fun _ => post_true _ _
  · exact fun _ => rfl

/-- The lease of the operation, if it has one. -/
def sourceLease (s : OwnerSegmentAllocator A) (op : OwnerTransferOpId) :
    Option OwnerSourceLeaseRecord :=
  s.segment.bind (·.sourceLeases.lookup op)

/-- A failed acquire has drawn a lease id, unless the operation had one. -/
theorem post_acquireSource_error {token : OwnerSourceRouteToken} : Post (acquireSource op token) s
      (fun o s' => o.isError = true → s' = s ∨ (s.sourceLease op = none ∧
        s' = { s with nextLeaseSequence := s.nextLeaseSequence + 1 }))
      (fun _ _ => True) := by
  simp only [acquireSource, post_bind, post_get]
  split
  · rename_i r hr
    obtain ⟨seg, hseg, -⟩ := Option.bind_eq_some_iff.1 hr
    simp only [post_pure, post_bind, post_get, post_expect, hseg, onSegment, post_onPart]
    refine ⟨fun seg' h => ?_, fun _ => trivial⟩
    cases h
    refine keepsOnError_acquireSource.imp ?_
    intro o seg' ho herr
    rw [ho herr]
    exact .inl (putSegment_self hseg)
  · rename_i hnone
    refine post_allocateLeaseId.mono ?_ fun _ _ h => h.elim
    rintro r s₁ (⟨e, rfl, rfl⟩ | ⟨leaseId, rfl, -, rfl⟩)
    · exact fun _ => .inl rfl
    simp only [post_bind, post_get, post_expect, onSegment, post_onPart]
    refine ⟨fun seg' hseg => ?_, fun _ => trivial⟩
    refine keepsOnError_acquireSource.imp ?_
    intro o seg'' ho herr
    refine .inr ⟨hnone, ?_⟩
    rw [ho herr]
    exact putSegment_self hseg

/-- Every reason to refuse the manifest entry has been looked at before the lease id is drawn. -/
theorem keepsOnError_prepareClaimedGetTarget {key : String} {putId : PutId}
    {batch : Option PutAtomicGroup} {slot : OwnerSlotDesc} :
    KeepsOnError (prepareClaimedGetTarget op key putId batch slot) s := by
  simp only [KeepsOnError, prepareClaimedGetTarget, post_bind, post_get]
  split
  · rename_i seg hseg
    split
    · simp only [post_ite, post_pure]
      exact ⟨fun _ _ => trivial, fun _ _ => trivial⟩
    simp only [post_ite, post_pure, post_bind]
    refine ⟨fun _ _ => trivial, fun hguard => ⟨fun _ _ => trivial, fun hstale =>
      ⟨fun _ _ => trivial, fun hfresh => ?_⟩⟩⟩
    push Not at hguard
    obtain ⟨-, -, hkey, hvalid, -, -, hid, -⟩ := hguard
    have hbound : seg.manifestKeyByAllocation.lookup slot.allocationId = none := by
      simpa using hfresh
    have hnew : seg.manifestEntry key putId = none := by
      by_contra hne
      exact hstale ⟨Option.isSome_iff_ne_none.2 hne, by simpa using hfresh⟩
    refine post_allocateLeaseId.mono ?_ fun _ _ h => h.elim
    rintro r s₁ (⟨e, rfl, rfl⟩ | ⟨leaseId, rfl, -, rfl⟩)
    · exact fun _ => rfl
    simp only [onSegment, post_bind, post_get, post_expect, post_onPart, hseg]
    refine ⟨fun seg' h => ?_, fun _ => trivial⟩
    cases h
    refine post_installManifestEntry.mono ?_ fun _ _ h => h.elim
    rintro r seg' (⟨e, rfl, rfl, hwhy⟩ | ⟨rfl, rfl, _, hused, -⟩ | ⟨rfl, -, -, -, -, rfl⟩)
    · rcases hwhy with hwhy | hwhy | hwhy | hwhy | hwhy
      · exact (hkey hwhy).elim
      · simp [hwhy] at hvalid
      · simp [hwhy] at hid
      · exact (hwhy hnew).elim
      · exact (hwhy hbound).elim
    · cases hnew.symm.trans hused
    · exact fun h => (Bool.false_ne_true h).elim
  · exact fun _ => rfl

end OwnerSegmentAllocator

namespace OwnerSegmentState

/-- A slot that is claimed and freed again leaves the tables as they were. -/
theorem freed_claimed [OffsetAllocator A] {seg : OwnerSegmentState A} {n : ℕ}
    {a : OwnerAllocationState} {allocator : A} (h : Update.Claimable seg n a allocator)
    (hbound : seg.manifestKeyByAllocation.lookup a.allocationId = none) :
    (seg.claimed allocator a).freed a.allocationId a =
      { seg with
        allocator := OffsetAllocator.free allocator a.allocation
        physicalFreeEpoch := saturatingAdd seg.physicalFreeEpoch 1 } := by
  have hentry : (seg.claimed allocator a).manifestEntryByAllocation a.allocationId = none := by
    simp [manifestEntryByAllocation, claimed, hbound]
  unfold freed
  rw [hentry]
  simp only [claimed, hbound, Table.erase_insert_self, Table.erase_of_lookup h.fresh,
    Table.erase_of_lookup h.offset_fresh, Table.erase_of_lookup hbound]

end OwnerSegmentState

/-! ## The failed calls -/

namespace OwnerSegmentAllocator

section Fails

variable [OffsetAllocator A]

/-- A call of the lease protocol returns with an error. -/
inductive Fails (s : OwnerSegmentAllocator A) :
    OwnerCall → OwnerTransferItemError → OwnerSegmentAllocator A → Prop
  | acquireSource {op token e s'} (h : acquireSource op token s = .ok (.error e) s') :
      Fails s (.acquireSource op token) e s'
  | releaseSource {op leaseId outcome e s'}
      (h : releaseSource op leaseId outcome s = .ok (.error e) s') :
      Fails s (.releaseSource op leaseId outcome) e s'
  | prepareTarget {op target key putId len disposition batch e s'}
      (h : prepareTarget op target key putId len disposition batch s = .ok (.error e) s') :
      Fails s (.prepareTarget op target key putId len disposition batch) e s'
  | prepareClaimedGetTarget {op key putId batch slot e s'}
      (h : prepareClaimedGetTarget op key putId batch slot s = .ok (.error e) s') :
      Fails s (.prepareClaimedGetTarget op key putId batch slot) e s'
  | markTargetDataReady {op leaseId receipt e s'}
      (h : markTargetDataReady op leaseId receipt s = .ok (.error e) s') :
      Fails s (.markTargetDataReady op leaseId receipt) e s'
  | markDataReadyGetTargetPendingVisible {capability e s'}
      (h : markDataReadyGetTargetPendingVisible capability s = .ok (.error e) s') :
      Fails s (.markDataReadyGetTargetPendingVisible capability) e s'
  | beginTargetCommit {op leaseId receipt token e s'}
      (h : beginTargetCommit op leaseId receipt token s = .ok (.error e) s') :
      Fails s (.beginTargetCommit op leaseId receipt token) e s'
  | finishTargetCommit {op leaseId routeEpoch e s'}
      (h : finishTargetCommit op leaseId routeEpoch s = .ok (.error e) s') :
      Fails s (.finishTargetCommit op leaseId routeEpoch) e s'
  | beginDataReadyGetTargetCommit {capability e s'}
      (h : beginDataReadyGetTargetCommit capability s = .ok (.error e) s') :
      Fails s (.beginDataReadyGetTargetCommit capability) e s'
  | finishDataReadyGetTarget {op leaseId routeEpoch e s'}
      (h : finishDataReadyGetTarget op leaseId routeEpoch s = .ok (.error e) s') :
      Fails s (.finishDataReadyGetTarget op leaseId routeEpoch) e s'
  | abortDataReadyVisibleGetTarget {op leaseId reason e s'}
      (h : abortDataReadyVisibleGetTarget op leaseId reason s = .ok (.error e) s') :
      Fails s (.abortDataReadyVisibleGetTarget op leaseId reason) e s'
  | abortTarget {op leaseId reason e s'}
      (h : abortTarget op leaseId reason s = .ok (.error e) s') :
      Fails s (.abortTarget op leaseId reason) e s'
  | abortRouteRejectedTarget {op leaseId reason e s'}
      (h : abortRouteRejectedTarget op leaseId reason s = .ok (.error e) s') :
      Fails s (.abortRouteRejectedTarget op leaseId reason) e s'

variable [LawfulOffsetAllocator A]

/-- A slot was claimed and given back: an allocation id is used up, and a lease id if it was drawn;
the free epoch has advanced; the offset allocator has the same ranges outstanding. -/
def RolledBack (s s' : OwnerSegmentAllocator A) : Prop :=
  ∃ seg allocator drawn, s.segment = some seg ∧ drawn ≤ 1 ∧
    LawfulOffsetAllocator.Tracks allocator (seg.len / granularityBytes) seg.extents ∧
    s' = { s with
      segment := some { seg with
        allocator
        physicalFreeEpoch := saturatingAdd seg.physicalFreeEpoch 1 }
      nextAllocationId := s.nextAllocationId + 1
      nextLeaseSequence := s.nextLeaseSequence + drawn }

/-- What a failed call may change. -/
def ErrorFrame (s : OwnerSegmentAllocator A) (c : OwnerCall) (s' : OwnerSegmentAllocator A) :
    Prop :=
  match c with
  | .acquireSource op _ => s' = s ∨ (s.sourceLease op = none ∧
      s' = { s with nextLeaseSequence := s.nextLeaseSequence + 1 })
  | .prepareTarget .. => s' = s ∨
      s' = { s with nextAllocationId := s.nextAllocationId + 1 } ∨ s.RolledBack s'
  | _ => s' = s

variable {s s₁ s₂ s' : OwnerSegmentAllocator A} {seg : OwnerSegmentState A}

/-- The claim, the draw of a lease id and the free, in one equation. -/
theorem rolledBack_of_run {a : OwnerAllocationState} (drawn : ℕ) (hinv : s.Inv seg)
    (hclaim : Update.Step s (.claim a) s₁)
    (hdraw : s₂ = { s₁ with nextLeaseSequence := s₁.nextLeaseSequence + drawn })
    (hdrawn : drawn ≤ 1) (hfree : Update.Step s₂ (.freePrepared a.allocationId) s') :
    s.RolledBack s' := by
  obtain ⟨seg', hinv'⟩ : ∃ seg', s'.Inv seg' := by
    obtain ⟨seg₁, hinv₁, -⟩ := hclaim.inv hinv
    have hinv₂ : s₂.Inv seg₁ := by
      rw [hdraw]
      exact ⟨hinv₁.segment_eq, hinv₁.addr_le, hinv₁.tables, hinv₁.slots, hinv₁.counts⟩
    obtain ⟨seg', hinv', -⟩ := hfree.inv hinv₂
    exact ⟨seg', hinv'⟩
  obtain ⟨seg₀, allocator, hseg, hc, rfl⟩ := hclaim
  cases hinv.segment_eq.symm.trans hseg
  subst hdraw
  obtain ⟨seg₂, a₂, hseg₂, ha₂, -, -, rfl⟩ := hfree
  obtain rfl : seg.claimed allocator a = seg₂ := by simpa [putSegment] using hseg₂
  obtain rfl : a = a₂ := by
    rw [allocation_claimed_self] at ha₂
    exact Option.some.inj ha₂
  have hbound : seg.manifestKeyByAllocation.lookup a.allocationId = none := by
    by_contra hne
    obtain ⟨k, hk⟩ := Option.ne_none_iff_exists'.1 hne
    obtain ⟨e, he, hid⟩ := hinv.tables.manifest.entry _ _ hk
    obtain ⟨a', ha', -⟩ := hinv.tables.manifest.live he
    rw [hid, hc.fresh] at ha'
    cases ha'
  rw [freed_claimed hc hbound] at hinv' ⊢
  refine ⟨seg, OffsetAllocator.free allocator a.allocation, drawn, hseg, hdrawn, ?_, ?_⟩
  · have htracks := hinv'.slots.tracks
    obtain rfl : _ = seg' := by simpa [putSegment] using hinv'.segment_eq
    exact htracks
  · simp [countDown, countUp, slotCount, setSlotCount, putSegment]

/-- A claim that hands out no slot in a segment that fits the address space draws an id only. -/
theorem failedClaim_eq {u : Update} (hinv : s.Inv seg) (hu : FailedClaim u)
    (hstep : Update.Step s u s') : s' = { s with nextAllocationId := s.nextAllocationId + 1 } := by
  rcases hu with rfl | ⟨units, rfl⟩ | ⟨a, rfl⟩
  · exact hstep
  · obtain ⟨seg₀, allocator, x, hseg, hunits, hx, hnone, -⟩ := hstep
    cases hinv.segment_eq.symm.trans hseg
    have := hinv.addr_le
    exact (hinv.slots.offsetBytes_ne_none (by omega) hunits hx hnone).elim
  obtain ⟨seg₀, allocator, hseg, hc, hnone, -⟩ := hstep
  cases hinv.segment_eq.symm.trans hseg
  have hle := (hinv.slots.claimed hc).extent_le (allocation_claimed_self seg allocator a)
  have haddr := hinv.addr_le
  rw [checkedAdd_eq_none] at hnone
  change a.segmentOffset + a.capacityBytes ≤ seg.len at hle
  omega

theorem errorFrame_prepareTarget (hinv : s.Inv seg) {target : OwnerGeneration} {key : String}
    {putId : PutId} {len : ℕ} {disposition : OwnerTargetDisposition} {batch : Option PutAtomicGroup}
    {e : OwnerTransferItemError}
    (h : prepareTarget op target key putId len disposition batch s = .ok (.error e) s') :
    s' = s ∨ s' = { s with nextAllocationId := s.nextAllocationId + 1 } ∨ s.RolledBack s' := by
  rcases post_prepareTarget.of_ok h with
    ⟨hsame, -⟩ | ⟨-, ⟨u, hu, hstep⟩ | ⟨a, hrun⟩ | ⟨a, hrun⟩⟩ | ⟨_, _, _, _, hok, -⟩
  · exact .inl hsame
  · exact .inr (.inl (failedClaim_eq hinv hu hstep))
  · obtain ⟨s₁, hclaim, hfree⟩ := hrun.pair_inv
    exact .inr (.inr (rolledBack_of_run 0 hinv hclaim rfl (by omega) hfree))
  · obtain ⟨s₁, hclaim, hrest⟩ := hrun.cons_inv
    obtain ⟨s₂, hlease, hfree⟩ := hrest.pair_inv
    exact .inr (.inr (rolledBack_of_run 1 hinv hclaim hlease le_rfl hfree))
  · cases hok

variable {i : Installation} {s₀ : OwnerSegmentAllocator A} {cs : List OwnerCall} {c : OwnerCall}
  {e : OwnerTransferItemError}

/-- **A failed call leaves the state alone, but for the ids it drew.** In every reachable state, a
call of the source and target leases that returns an error changes nothing, with two exceptions: an
acquire of an operation without a lease may have drawn a lease id, and a prepare may have drawn an
allocation id, without a slot or for a slot that it gave back. -/
theorem failed_lease_call_frame (h : Installed i s₀) (haddr : i.addr + i.len ≤ u64Max)
    (hrun : Run Returns s₀ cs s) (hfails : s.Fails c e s') : s.ErrorFrame c s' := by
  obtain ⟨seg, hinv, -⟩ := h.inv_of_run haddr hrun
  cases hfails with
  | acquireSource h => exact post_acquireSource_error.of_ok h rfl
  | releaseSource h => exact keepsOnError_releaseSource.of_ok h rfl
  | prepareTarget h => exact errorFrame_prepareTarget hinv h
  | prepareClaimedGetTarget h => exact keepsOnError_prepareClaimedGetTarget.of_ok h rfl
  | markDataReadyGetTargetPendingVisible h =>
    exact keepsOnError_markDataReadyGetTargetPendingVisible.of_ok h _ rfl
  | markTargetDataReady h | beginTargetCommit h | finishTargetCommit h
  | beginDataReadyGetTargetCommit h | finishDataReadyGetTarget h | abortDataReadyVisibleGetTarget h
  | abortTarget h | abortRouteRejectedTarget h =>
    exact (keepsOnError_of_looksFirst (by constructor)).of_ok h rfl

/-- An acquire that names no committed slot fails, after it has drawn a lease id. -/
theorem acquireSource_draws_lease_id :
    ∃ e s', started.Fails (.acquireSource readerOp readerToken) e s' ∧
      s'.nextLeaseSequence = 1 := by
  have hpost : Post (acquireSource readerOp readerToken) started
      (fun o s' => o.isError = true ∧ s'.nextLeaseSequence = 1) (fun _ _ => False) := by
    decide +kernel
  obtain ⟨o, s', h, herr, hdrawn⟩ := hpost.exists_ok
  obtain ⟨e, rfl⟩ := isError_iff.1 herr
  exact ⟨e, s', .acquireSource h, hdrawn⟩

/-- The frame of a failed acquire of a slot that is claimed and not committed. -/
theorem failed_lease_call_frame_acquireSource :
    ∃ s s' e, Run Returns started [.claimValue 100 1] s ∧
      s.Fails (.acquireSource readerOp readerToken) e s' ∧
      s.ErrorFrame (.acquireSource readerOp readerToken) s' := by
  obtain ⟨s, hrun, hpost⟩ := exists_run_of_post [.claimValue 100 1] started
    (Q := fun s => Post (acquireSource readerOp readerToken) s (fun o _ => o.isError = true)
      fun _ _ => False)
    (by decide +kernel)
  obtain ⟨o, s', h, herr⟩ := hpost.exists_ok
  obtain ⟨e, rfl⟩ := isError_iff.1 herr
  exact ⟨s, s', e, hrun, .acquireSource h,
    failed_lease_call_frame installed_started (by decide +kernel) hrun (.acquireSource h)⟩

/-- The state after a failed call is not always the state before: a rejected acquire has used up a
lease id, and a prepare that finds no space an allocation id. -/
theorem failed_lease_call_draws_ids :
    (∃ c e s', started.Fails c e s' ∧ s'.nextLeaseSequence ≠ started.nextLeaseSequence) ∧
    ∃ c e s', started.Fails c e s' ∧ s'.nextAllocationId ≠ started.nextAllocationId := by
  constructor
  · obtain ⟨e, s', h, hdrawn⟩ := acquireSource_draws_lease_id
    exact ⟨_, e, s', h, by rw [hdrawn]; decide +kernel⟩
  have hpost : Post (prepareTarget ⟨⟨"writer", 1⟩, 1, .put⟩ ⟨"owner", 1⟩ "k" (1, 0)
        (3 * granularityBytes) .localExclusive none) started
      (fun o s' => o.isError = true ∧ s'.nextAllocationId = 1) (fun _ _ => False) := by
    decide +kernel
  obtain ⟨o, s', h, herr, hdrawn⟩ := hpost.exists_ok
  obtain ⟨e, rfl⟩ := isError_iff.1 herr
  exact ⟨_, e, s', .prepareTarget h, by rw [hdrawn]; decide +kernel⟩

end Fails

end OwnerSegmentAllocator

end Fluxon.OwnerSegment
