import Fluxon.OwnerSegment.TargetInvariant
import Fluxon.OwnerSegment.TargetLease
import Mathlib.Algebra.Order.BigOperators.Group.Finset
import Mathlib.Order.Interval.Finset.Nat

/-!
# Sessions of the lease protocol

A session is a run of the calls of the lease protocol, of claims, and of holders that are retained
and released in matching pairs; `held` counts the retained ones. `Admits` is the condition on a
call under which it does not panic: an abort finds its slot still prepared, the last holder of a
hidden slot is not released while a lease is open on it, and no counter overflows. The main result
is `lease_protocol_never_panics`.
-/

namespace Fluxon.OwnerSegment

open OffsetAllocator OwnerSegmentState OwnerSegmentAllocator Call Option Function

variable {A : Type}

/-- The holders of the slots after a call: those that were retained and not released yet. -/
def OwnerCall.hold : OwnerCall → (ℕ → ℕ) → ℕ → ℕ
  | .retainResidentSlotHolder id _ _, held => update held id (held id + 1)
  | .releaseResidentSlotHolder id _ _, held => update held id (held id - 1)
  | _, held => held

/-- An allocator, with the holders that the session has retained and not released. -/
structure LeaseSession (A : Type) where
  allocator : OwnerSegmentAllocator A
  held : ℕ → ℕ

namespace LeaseSession

/-- The lease, if it is open with or without a pending route, is on a slot that is still
prepared. -/
def OnPrepared (s : OwnerSegmentAllocator A) (op : OwnerTransferOpId) (leaseId : OwnerLeaseId)
    (routePending : Bool) : Prop :=
  ∀ seg r a, s.OpenLease op seg r → r.leaseId = leaseId →
    r.state.isRoutePending = routePending → seg.allocation r.slot.allocationId = some a →
    a.state = .prepared

/-- The calls of a session, with the condition on the state before them. -/
def Admits (x : LeaseSession A) (c : OwnerCall) : Prop := x.allocator.nextAllocationId < u64Max ∧
  match c with
  | .claimAvailableWithLen _ _ maxSlots | .claimValue _ maxSlots =>
    x.allocator.nextAllocationId + maxSlots ≤ u64Max
  | .prepareTarget .. | .prepareClaimedGetTarget .. | .markTargetDataReady ..
  | .markDataReadyGetTargetPendingVisible _ | .beginTargetCommit .. | .finishTargetCommit ..
  | .beginDataReadyGetTargetCommit _ | .finishDataReadyGetTarget ..
  | .abortDataReadyVisibleGetTarget .. | .releaseSource .. => True
  | .abortTarget op leaseId _ => OnPrepared x.allocator op leaseId false
  | .abortRouteRejectedTarget op leaseId _ => OnPrepared x.allocator op leaseId true
  | .acquireSource _ token => ∀ a, x.allocator.allocation token.source.allocationId = some a →
    a.sourceReadLeaseCount < u32Max
  | .retainResidentSlotHolder id segmentOffset capacityBytes =>
    x.allocator.NamesSlot id segmentOffset capacityBytes ∧
    ∀ a, x.allocator.allocation id = some a → a.state ≠ .prepared ∧ a.state.holders < u32Max
  | .releaseResidentSlotHolder id _ _ => 0 < x.held id ∧
    ∀ seg a, x.allocator.segment = some seg → seg.allocation id = some a →
      a.state = .pendingLocalVisible 1 → seg.Unnamed (fun _ => True) id
  | _ => False

/-- A call of a session returns or panics. -/
def Takes [OffsetAllocator A] (x : LeaseSession A) (c : OwnerCall) (x' : LeaseSession A) : Prop :=
  x.allocator.Takes c x'.allocator ∧ x'.held = c.hold x.held

end LeaseSession

/-! ## The invariant of a session -/

theorem OwnerSegmentState.HoldersInv.update {n id : ℕ} {held : ℕ → ℕ} {seg : OwnerSegmentState A}
    (h : HoldersInv held seg) (hn : n ≤ (seg.allocation id).elim 0 (·.state.holders)) :
    HoldersInv (update held id n) seg := by
  intro id'
  by_cases heq : id' = id
  · subst heq
    rwa [update_self]
  · rw [update_of_ne heq]
    exact h id'

variable [OffsetAllocator A] [LawfulOffsetAllocator A]

namespace OwnerSegmentAllocator

/-- The invariant of a session, relative to the leases of `p`. -/
structure Sound (p : OwnerTransferOpId → Prop) (held : ℕ → ℕ) (s : OwnerSegmentAllocator A)
    (seg : OwnerSegmentState A) : Prop where
  inv : s.Inv seg
  targets : TargetsInv p seg
  holders : HoldersInv held seg

variable {p : OwnerTransferOpId → Prop} {held : ℕ → ℕ} {s s' : OwnerSegmentAllocator A}
  {seg seg' : OwnerSegmentState A} {u : Update} {us : List Update}

theorem Sound.step (h : s.Sound p held seg) (hstep : Update.Step s u s') (hspares : seg.Spares p u)
    (hset : ∀ id state, u = .slotState id state → held id ≤ state.holders)
    (hfree : ∀ id, seg.frees u = some id → held id = 0) :
    ∃ seg', s'.Sound p held seg' := by
  obtain ⟨seg', hinv', -⟩ := hstep.inv h.inv
  obtain ⟨seg₁, hs₁, hslot⟩ := hstep.slotChange h.inv.segment_eq
  cases hinv'.segment_eq.symm.trans hs₁
  exact ⟨seg', hinv', hstep.targets h.inv.segment_eq hinv'.segment_eq h.inv.tables.manifest
    h.targets hspares, h.holders.of_change hslot hset hfree⟩

variable {id : ℕ} {state : OwnerSlotState} {op : OwnerTransferOpId} {r : OwnerTargetLeaseRecord}
  {a : OwnerAllocationState}

theorem Sound.slotState (h : s.Sound p held seg) (hstep : Update.Step s (.slotState id state) s')
    (hn : state.kind = .committed → seg.Unnamed p id) (hheld : held id ≤ state.holders) :
    ∃ seg', s'.Sound p held seg' := by
  refine h.step hstep ⟨by simp, ?_, by simp⟩ ?_ (by simp)
  · rintro _ _ ⟨⟩
    exact hn
  · rintro _ _ ⟨⟩
    exact hheld

theorem Sound.free (h : s.Sound p held seg) (hstep : Update.Step s u s')
    (hu : seg.frees u = some id) (hn : seg.Unnamed p id) (hheld : held id = 0) :
    ∃ seg', s'.Sound p held seg' := by
  refine h.step hstep ⟨?_, ?_, ?_⟩ ?_ ?_
  · intro id' hid'
    cases hu.symm.trans hid'
    exact hn
  · rintro _ _ rfl
    simp at hu
  · rintro _ _ rfl
    simp at hu
  · rintro _ _ rfl
    simp at hu
  · intro id' hid'
    cases hu.symm.trans hid'
    exact hheld

theorem Sound.insertTarget (h : s.Sound p held seg) {e : OwnerSlotManifestEntry}
    (hstep : Update.Step s (.insertTarget op r) s') (hn : seg.Unnamed p r.slot.allocationId)
    (ha : seg.allocation r.slot.allocationId = some a) (hkind : a.state.kind ≠ .committed)
    (he : seg.manifestByKey.lookup r.manifestKey = some e) (hslot : e.slot = r.slot) :
    ∃ seg', s'.Sound p held seg' := by
  refine h.step hstep ⟨by simp, by simp, ?_⟩ (by simp) (by simp)
  rintro _ _ ⟨⟩
  exact ⟨hn, ⟨a, ha, hkind⟩, e, he, hslot⟩

/-- The updates that neither free a slot, nor move it on in its life, nor open a lease. -/
def Quiet (seg : OwnerSegmentState A) (u : Update) : Prop :=
  seg.frees u = none ∧ (∀ id state, u ≠ .slotState id state) ∧ ∀ op r, u ≠ .insertTarget op r

omit [OffsetAllocator A] [LawfulOffsetAllocator A] in
theorem Quiet.spares (h : Quiet seg u) : seg.Spares p u where
  frees id hid := by rw [h.1] at hid; cases hid
  commits id state hu := (h.2.1 id state hu).elim
  inserts op r hu := (h.2.2 op r hu).elim

theorem Sound.quiet (h : s.Sound p held seg) (hstep : Update.Step s u s') (hu : Quiet seg u) :
    ∃ seg', s'.Sound p held seg' := by
  refine h.step hstep hu.spares (fun id state hset => (hu.2.1 id state hset).elim) fun id hid => ?_
  rw [hu.1] at hid
  cases hid

theorem Sound.quiet_run (h : s.Sound p held seg) (hrun : Run Update.Step s us s')
    (hus : ∀ u ∈ us, ∀ seg : OwnerSegmentState A, Quiet seg u) : ∃ seg', s'.Sound p held seg' := by
  induction hrun generalizing seg with
  | nil => exact ⟨seg, h⟩
  | cons hstep _ ih =>
    obtain ⟨seg₁, h₁⟩ := h.quiet hstep (hus _ (by simp) seg)
    exact ih h₁ fun u hu => hus u (by simp [hu])

omit [OffsetAllocator A] [LawfulOffsetAllocator A] in
theorem quiet_of_claimUpdate (hu : ClaimUpdate u) (seg : OwnerSegmentState A) : Quiet seg u := by
  rcases hu with rfl | ⟨_, rfl⟩ | ⟨_, rfl⟩ | ⟨_, rfl⟩ <;> simp [Quiet]

/-! ## What cannot go wrong -/

theorem Sound.slotCount_le (h : s.Sound p held seg) (k : SlotKind) :
    s.slotCount k ≤ s.nextAllocationId := by
  -- the ids of the live slots are between one and the last id
  have hcount : seg.kindCount k ≤ seg.allocations.keys.toFinset.card := by
    rw [kindCount, Table.sumBy_eq_sum_keys, Finset.card_eq_sum_ones]
    refine Finset.sum_le_sum fun id _ => ?_
    cases seg.allocations.lookup id with
    | none => exact Nat.zero_le _
    | some a => simp only [elim_some, OwnerAllocationState.ofKind]; split <;> omega
  have hsub : seg.allocations.keys.toFinset ⊆ Finset.Icc 1 s.nextAllocationId := by
    intro id hid
    obtain ⟨a, ha⟩ := isSome_iff_exists.1
      (AList.lookup_isSome.2 (AList.mem_keys.1 (List.mem_toFinset.1 hid)))
    exact Finset.mem_Icc.2 ⟨h.inv.slots.id_pos id a ha, h.inv.slots.id_le id a ha⟩
  have hcard := Finset.card_le_card hsub
  rw [Nat.card_Icc] at hcard
  rw [h.inv.counts k]
  omega

theorem Sound.not_counterPanics (h : s.Sound p held seg) (hid : s.nextAllocationId < u64Max) :
    ¬s.CounterPanics := by
  rintro (⟨k, hk⟩ | ⟨seg₁, id, a, hs₁, ha, hzero⟩)
  · have := h.slotCount_le k
    omega
  · cases h.inv.segment_eq.symm.trans hs₁
    have := kindCount_pos ha
    rw [← h.inv.counts, hzero] at this
    omega

theorem Sound.not_leaseUnbound (h : s.Sound (fun _ => True) held seg) (op : OwnerTransferOpId) :
    ¬s.LeaseUnbound op := by
  rintro ⟨seg₁, r, hopen, hnone⟩
  cases h.inv.segment_eq.symm.trans hopen.segment_eq
  obtain ⟨e, he, hslot⟩ := h.targets.owned op r trivial ⟨hopen.lookup_eq, hopen.isOpen⟩
  rw [← hslot, h.inv.tables.manifest.manifestEntryByAllocation_eq he] at hnone
  cases hnone

theorem Sound.not_leaseStuck (h : s.Sound (fun _ => True) held seg) {leaseId : OwnerLeaseId}
    {routePending : Bool} (hprepared : LeaseSession.OnPrepared s op leaseId routePending) :
    ¬s.LeaseStuck op leaseId routePending := by
  rintro ⟨seg₁, r, hopen, hlease, hpending, hstuck⟩
  cases h.inv.segment_eq.symm.trans hopen.segment_eq
  obtain ⟨a, ha, hkind⟩ := h.targets.live op r trivial ⟨hopen.lookup_eq, hopen.isOpen⟩
  exact hstuck a ha (hprepared seg r a hopen hlease hpending ha)
    (h.inv.slots.freeable ha (h.inv.tables.leases.count_of_not_committed ha hkind))

theorem Sound.not_claimPanics (h : s.Sound p held seg) (hid : s.nextAllocationId < u64Max)
    (slotSize : ℕ) : ¬s.ClaimPanics slotSize := by
  have hcount := h.slotCount_le .prepared
  rintro (hmax | hmax | ⟨seg₁, x, allocator, hs₁, hunits, hx, hused⟩)
  · omega
  · omega
  · cases h.inv.segment_eq.symm.trans hs₁
    obtain ⟨hfresh, hoffset⟩ := h.inv.slots.claim_fresh hunits hx
    rcases hused with hused | hused
    · exact hused hfresh
    · exact hused hoffset

/-! ## The steps of a session -/

omit [LawfulOffsetAllocator A] in
/-- A lease that an update closes stays closed. -/
theorem not_hasOpen_of_closed {state : OwnerTargetLeaseState} (hs' : s'.segment = some seg')
    (hclosed : state.isOpen = false) (h : Update.Step s (.targetState op state) s')
    (r : OwnerTargetLeaseRecord) : ¬seg'.HasOpen op r := by
  rintro ⟨hr, hopen⟩
  obtain ⟨seg₀, r₀, -, hr₀, -, rfl⟩ := h
  cases hs'
  rw [show (seg₀.setTargetLeaseState op state).targetLeases = seg₀.targetLeases.modify op
    (fun r => { r with state }) from rfl, Table.lookup_modify, if_pos rfl, hr₀] at hr
  cases hr
  rw [hclosed] at hopen
  cases hopen

omit [LawfulOffsetAllocator A] in
theorem not_hasOpen_of_step (hs : s.segment = some seg) (hs' : s'.segment = some seg')
    (h : Update.Step s u s') (hu : ∀ op r, u ≠ .insertTarget op r)
    (hclosed : ∀ r, ¬seg.HasOpen op r) (r : OwnerTargetLeaseRecord) : ¬seg'.HasOpen op r := by
  intro hopen
  obtain ⟨seg₁, hs₁, hchange⟩ := h.targetChange hs
  cases hs'.symm.trans hs₁
  rcases hchange.hasOpen hopen with ⟨r', hr', -⟩ | hinsert
  · exact hclosed r' hr'
  · exact hu op r hinsert

omit [LawfulOffsetAllocator A] in
theorem unnamed_of_step (hs : s.segment = some seg) (hs' : s'.segment = some seg')
    (h : Update.Step s u s') (hu : ∀ op r, u ≠ .insertTarget op r) (hn : seg.Unnamed p id) :
    seg'.Unnamed p id := by
  obtain ⟨seg₁, hs₁, hchange⟩ := h.targetChange hs
  cases hs'.symm.trans hs₁
  exact hn.of_change hchange hu

/-- A prepared slot that no open lease names is freed. -/
theorem Sound.freePrepared (h : s.Sound p held seg) (hstep : Update.Step s (.freePrepared id) s')
    (hn : seg.Unnamed p id) : ∃ seg', s'.Sound p held seg' := by
  have hfree := hstep
  obtain ⟨seg₁, a, hs₁, ha, -, hstate, -⟩ := hstep
  cases h.inv.segment_eq.symm.trans hs₁
  have hheld := h.holders id
  rw [ha, elim_some, hstate] at hheld
  exact h.free hfree rfl hn (Nat.le_zero.1 hheld)

section

variable (h : s.Sound (fun _ => True) held seg)
include h

/-- An abort closes the lease and frees its slot. -/
theorem Sound.abort {reason : String} (hr : seg.HasOpen op r) (hrun : Run Update.Step s
      [.targetState op (.aborted reason), .freePrepared r.slot.allocationId] s') :
    ∃ seg', s'.Sound (fun _ => True) held seg' := by
  obtain ⟨s₁, hstate, hfree⟩ := hrun.pair_inv
  -- only the lease that is closed names the slot
  have hn := (h.targets.unnamed trivial hr).mono fun _ hne => ⟨trivial, hne⟩
  obtain ⟨seg₁, h₁⟩ := h.quiet hstate (by simp [Quiet])
  have hn₁ := unnamed_of_step h.inv.segment_eq h₁.inv.segment_eq hstate (by simp) hn
  have hclosed := not_hasOpen_of_closed h₁.inv.segment_eq rfl hstate
  obtain ⟨seg', h'⟩ := Sound.freePrepared
    ⟨h₁.inv, h₁.targets.mono fun _ _ => trivial, h₁.holders⟩ hfree hn₁
  exact ⟨seg', h'.inv, h'.targets.of_closed (not_hasOpen_of_step h₁.inv.segment_eq
    h'.inv.segment_eq hfree (by simp) hclosed) _, h'.holders⟩

/-- A commit commits the slot and closes the lease. -/
theorem Sound.commit {routeEpoch : ℕ} (hr : seg.HasOpen op r)
    (ha : seg.allocation r.slot.allocationId = some a) (hholders : a.state.holders ≤ state.holders)
    (hrun : Run Update.Step s [.slotState r.slot.allocationId state,
      .commitManifest r.slot.allocationId routeEpoch, .targetState op (.committed routeEpoch)] s') :
    ∃ seg', s'.Sound (fun _ => True) held seg' := by
  obtain ⟨s₁, hslot, hrest⟩ := hrun.cons_inv
  obtain ⟨s₂, hmanifest, hstate⟩ := hrest.pair_inv
  have hn := (h.targets.unnamed trivial hr).mono fun _ hne => ⟨trivial, hne⟩
  have h₀ : s.Sound (· ≠ op) held seg := ⟨h.inv, h.targets.mono fun _ _ => trivial, h.holders⟩
  have hheld := h.holders r.slot.allocationId
  rw [ha, elim_some] at hheld
  obtain ⟨seg₁, h₁⟩ := h₀.slotState hslot (fun _ => hn) (hheld.trans hholders)
  obtain ⟨seg₂, h₂⟩ := h₁.quiet hmanifest (by simp [Quiet])
  obtain ⟨seg₃, h₃⟩ := h₂.quiet hstate (by simp [Quiet])
  exact ⟨seg₃, h₃.inv,
    h₃.targets.of_closed (not_hasOpen_of_closed h₃.inv.segment_eq rfl hstate) _, h₃.holders⟩

/-- A prepare binds a prepared slot outside the manifest to a new lease. -/
theorem Sound.bind (ha : seg.allocation r.slot.allocationId = some a) (hstate : a.state = .prepared)
    (hrun : Run Update.Step s [.insertManifest (reservedEntry r.key r.putId r.disposition r.slot),
      .insertTarget op r] s') : ∃ seg', s'.Sound (fun _ => True) held seg' := by
  obtain ⟨s₁, hmanifest, htarget⟩ := hrun.pair_inv
  obtain ⟨seg₁, h₁⟩ := h.quiet hmanifest (by simp [Quiet])
  have hs₁ := h₁.inv.segment_eq
  have hn : seg.Unnamed (fun _ => True) r.slot.allocationId := by
    obtain ⟨seg₀, hs₀, -, -, -, hunbound, -⟩ := id hmanifest
    cases h.inv.segment_eq.symm.trans hs₀
    exact h.targets.unnamed_of_unbound h.inv.tables.manifest hunbound
  have hn₁ := unnamed_of_step h.inv.segment_eq hs₁ hmanifest (by simp) hn
  have hseg₁ : seg₁ = seg.insertManifest (reservedEntry r.key r.putId r.disposition r.slot) := by
    obtain ⟨seg₀, hs₀, -, -, -, -, -, rfl⟩ := hmanifest
    cases h.inv.segment_eq.symm.trans hs₀
    exact (some.inj hs₁).symm
  refine h₁.insertTarget (a := a) (e := reservedEntry r.key r.putId r.disposition r.slot) htarget
    hn₁ ?_ (by simp [hstate]) ?_ rfl
  · rw [hseg₁]
    exact ha
  · rw [hseg₁]
    exact AList.lookup_insert _

end

omit [LawfulOffsetAllocator A] in
theorem nextAllocationId_le_of_step (h : Update.Step s u s') :
    s'.nextAllocationId ≤ s.nextAllocationId + 1 := by
  cases u with
  | bookkeeping | localTarget => rw [h.2.1]; omega
  | allocationId | leaseId =>
    cases h
    simp
  | _ =>
    simp only [Update.Step] at h
    casesm* ∃ _, _, _ ∧ _
    subst s'
    simp [putSegment]

omit [LawfulOffsetAllocator A] in
theorem nextAllocationId_le_of_run (hrun : Run Update.Step s us s') :
    s'.nextAllocationId ≤ s.nextAllocationId + us.length := by
  induction hrun with
  | nil => simp
  | cons hstep _ ih =>
    have := nextAllocationId_le_of_step hstep
    rw [List.length_cons]
    omega

theorem Sound.post_claim (h : s.Sound p held seg) {slotSize valueLen maxSlots : ℕ}
    (hmax : s.nextAllocationId + maxSlots ≤ u64Max) :
    Post (claimAvailableWithLen slotSize valueLen maxSlots) s
      (fun _ s' => ∃ seg', s'.Sound p held seg') (fun _ _ => False) := by
  refine post_claimAvailableWithLen.mono ?_ ?_
  · rintro _ s' ⟨us, hrun, hus, -⟩
    exact h.quiet_run hrun fun u hu => quiet_of_claimUpdate (hus u hu)
  · rintro _ _ ⟨-, us, s₁, hrun, hlen, hus, hpanics⟩
    obtain ⟨seg₁, h₁⟩ := h.quiet_run hrun fun u hu => quiet_of_claimUpdate (hus u hu)
    have := nextAllocationId_le_of_run hrun
    exact h₁.not_claimPanics (by omega) slotSize hpanics

theorem Sound.unnamed_of_claim (h : s.Sound p held seg) (hstep : Update.Step s (.claim a) s') :
    seg.Unnamed p a.allocationId := by
  obtain ⟨seg₀, allocator, hs₀, hclaim, -⟩ := hstep
  cases h.inv.segment_eq.symm.trans hs₀
  exact h.targets.unnamed_of_dead hclaim.fresh

omit [LawfulOffsetAllocator A] in
theorem allocation_of_claim (hs' : s'.segment = some seg') (hstep : Update.Step s (.claim a) s') :
    seg'.allocation a.allocationId = some a ∧ a.state = .prepared := by
  obtain ⟨seg₀, allocator, -, hclaim, rfl⟩ := hstep
  refine ⟨?_, hclaim.state⟩
  obtain rfl : seg₀.claimed allocator a = seg' := by simpa [putSegment] using hs'
  exact allocation_claimed_self seg₀ allocator a

omit [LawfulOffsetAllocator A] in
theorem segment_of_leaseId (h : Update.Step s .leaseId s') : s'.segment = s.segment := by
  cases h
  rfl

/-- A prepare either fails, and frees the slot it has claimed, or opens a lease on it. -/
theorem Sound.post_prepareTarget (h : s.Sound (fun _ => True) held seg)
    (hid : s.nextAllocationId < u64Max) {target : OwnerGeneration} {key : String} {putId : PutId}
    {len : ℕ} {disposition : OwnerTargetDisposition} {batch : Option PutAtomicGroup} :
    Post (prepareTarget op target key putId len disposition batch) s
      (fun _ s' => ∃ seg', s'.Sound (fun _ => True) held seg') (fun _ _ => False) := by
  refine OwnerSegmentAllocator.post_prepareTarget.mono ?_ ?_
  · rintro _ s' (⟨rfl, -⟩ | ⟨-, ⟨u, hu, hstep⟩ | ⟨a, hrun⟩ | ⟨a, hrun⟩⟩ |
      ⟨seg₀, a, leaseId, slot, -, -, hprepared⟩)
    · exact ⟨seg, h⟩
    · exact h.quiet hstep (quiet_of_claimUpdate hu.claimUpdate seg)
    · obtain ⟨s₁, hclaim, hfree⟩ := hrun.pair_inv
      obtain ⟨seg₁, h₁⟩ := h.quiet hclaim (by simp [Quiet])
      exact h₁.freePrepared hfree (unnamed_of_step h.inv.segment_eq h₁.inv.segment_eq hclaim
        (by simp) (h.unnamed_of_claim hclaim))
    · obtain ⟨s₁, hclaim, hrest⟩ := hrun.cons_inv
      obtain ⟨s₂, hlease, hfree⟩ := hrest.pair_inv
      obtain ⟨seg₁, h₁⟩ := h.quiet hclaim (by simp [Quiet])
      obtain ⟨seg₂, h₂⟩ := h₁.quiet hlease (by simp [Quiet])
      exact h₂.freePrepared hfree (unnamed_of_step h₁.inv.segment_eq h₂.inv.segment_eq hlease
        (by simp) (unnamed_of_step h.inv.segment_eq h₁.inv.segment_eq hclaim (by simp)
          (h.unnamed_of_claim hclaim)))
    · obtain ⟨s₁, hclaim, hrest⟩ := hprepared.run.cons_inv
      obtain ⟨s₂, hlease, hrest⟩ := hrest.cons_inv
      obtain ⟨seg₁, h₁⟩ := h.quiet hclaim (by simp [Quiet])
      obtain ⟨seg₂, h₂⟩ := h₁.quiet hlease (by simp [Quiet])
      obtain ⟨ha, hstate⟩ := allocation_of_claim
        (h₂.inv.segment_eq ▸ (segment_of_leaseId hlease).symm) hclaim
      rw [← hprepared.id_eq] at ha
      exact h₂.bind (r := ⟨leaseId, key, putId, len, disposition, batch, slot, .prepared⟩) ha hstate
        hrest
  · rintro _ _ ⟨-, slotSize, hpanics⟩
    exact h.not_claimPanics hid slotSize hpanics

omit [OffsetAllocator A] [LawfulOffsetAllocator A] in
theorem exists_of_namesSlot {segmentOffset capacityBytes : ℕ}
    (h : s.NamesSlot id segmentOffset capacityBytes) (hs : s.segment = some seg) :
    ∃ a, seg.allocation id = some a := by
  obtain ⟨seg₀, hs₀, hmatches⟩ := h
  cases hs.symm.trans hs₀
  obtain ⟨a, ha, -⟩ := (any_eq_true _ _).1 hmatches
  exact ⟨a, ha⟩

theorem kind_withHolders (state : OwnerSlotState) (n : ℕ) :
    (state.withHolders n).kind = state.kind := by
  cases state <;> rfl

theorem holders_withHolders (hstate : state ≠ .prepared) (n : ℕ) :
    (state.withHolders n).holders = n := by
  cases state <;> simp_all

theorem Sound.retain (h : s.Sound p held seg) (ha : seg.allocation id = some a)
    (hstate : a.state ≠ .prepared)
    (hstep : Update.Step s (.slotState id (a.state.withHolders (a.state.holders + 1))) s') :
    ∃ seg', s'.Sound p (update held id (held id + 1)) seg' := by
  have hheld := h.holders id
  rw [ha, elim_some] at hheld
  have hholders := holders_withHolders hstate (a.state.holders + 1)
  obtain ⟨seg', h'⟩ := h.slotState hstep (fun hkind => h.targets.unnamed_of_committed ha
    (by rwa [kind_withHolders] at hkind)) (by omega)
  refine ⟨seg', h'.inv, h'.targets, h'.holders.update ?_⟩
  obtain ⟨seg₀, a₀, hs₀, ha₀, -, -, rfl⟩ := hstep
  cases h.inv.segment_eq.symm.trans hs₀
  obtain rfl : seg.setSlotState id (a.state.withHolders (a.state.holders + 1)) = seg' := by
    simpa [putSegment] using h'.inv.segment_eq
  rw [setSlotState, allocation_updateAllocation_self _ ha, elim_some, hholders]
  omega

theorem Sound.release (h : s.Sound p held seg) (ha : seg.allocation id = some a)
    (hstate : a.state ≠ .prepared) (hn : a.state = .pendingLocalVisible 1 → seg.Unnamed p id)
    (hstep : Update.Step s (.slotState id (a.state.withHolders (a.state.holders - 1))) s' ∨
      (a.state.withHolders (a.state.holders - 1)).idle = true ∧ Update.Step s (.free id) s')
    (hpos : 0 < a.state.holders) :
    ∃ seg', s'.Sound p (update held id (held id - 1)) seg' := by
  have hheld := h.holders id
  rw [ha, elim_some] at hheld
  have hself : update held id (held id - 1) id = held id - 1 := update_self ..
  have h₀ : s.Sound p (update held id (held id - 1)) seg := by
    refine ⟨h.inv, h.targets, h.holders.update ?_⟩
    rw [ha, elim_some]
    omega
  rcases hstep with hstep | ⟨hidle, hstep⟩
  · refine h₀.slotState hstep (fun hkind => h.targets.unnamed_of_committed ha
      (by rwa [kind_withHolders] at hkind)) ?_
    rw [holders_withHolders hstate, hself]
    omega
  have hlast : a.state.holders = 1 := by cases hs : a.state <;> simp_all <;> omega
  refine h₀.free hstep rfl ?_ (by omega)
  cases hs : a.state with
  | prepared => exact (hstate hs).elim
  | pendingLocalVisible n =>
    rw [hs] at hlast
    exact hn (by rw [hs, show n = 1 from hlast])
  | committed routeLive n => exact h.targets.unnamed_of_committed ha (by rw [hs]; rfl)

/-- **One call of a session.** It returns, and leads to a state of the invariant. -/
theorem Sound.post_exec {x : LeaseSession A} {c : OwnerCall}
    (h : x.allocator.Sound (fun _ => True) x.held seg) (hc : x.Admits c) :
    Post (exec c) x.allocator (fun _ s' => ∃ seg', s'.Sound (fun _ => True) (c.hold x.held) seg')
      (fun _ _ => False) := by
  obtain ⟨hid, hc⟩ := hc
  cases c with
  | claimAvailableWithLen =>
    rw [exec, post_ignore]
    exact h.post_claim hc
  | claimValue valueLen maxSlots =>
    rw [exec, post_ignore]
    rcases claimValue_cases (A := A) valueLen maxSlots with hv | ⟨slotSize, hv⟩ <;> rw [hv]
    · exact ⟨seg, h⟩
    · exact h.post_claim hc
  | prepareTarget =>
    rw [exec, post_ignore]
    exact h.post_prepareTarget hid
  | prepareClaimedGetTarget op key putId batch slot =>
    refine post_ignore_of post_prepareClaimedGetTarget ?_ fun _ _ => id
    rintro _ s' (⟨rfl, -⟩ | ⟨-, hstep⟩ | ⟨seg₀, a, leaseId, -, hs₀, ha, hstate, hrun⟩)
    · exact ⟨seg, h⟩
    · exact h.quiet hstep (by simp [Quiet])
    obtain ⟨s₁, hlease, hrest⟩ := hrun.cons_inv
    obtain ⟨seg₁, h₁⟩ := h.quiet hlease (by simp [Quiet])
    cases h₁.inv.segment_eq.symm.trans ((segment_of_leaseId hlease).trans hs₀)
    exact h₁.bind
      (r := ⟨leaseId, key, putId, slot.len, .localExclusive, batch, slot, .prepared⟩) ha hstate
      hrest
  | markTargetDataReady op leaseId receipt =>
    refine post_ignore_of post_markTargetDataReady ?_ fun _ _ hE =>
      (h.not_leaseUnbound op hE.2).elim
    rintro _ s' (⟨rfl, -⟩ | ⟨seg₀, r, -, -, -, -, -, hrun⟩)
    · exact ⟨seg, h⟩
    · exact h.quiet_run hrun (by simp [Quiet])
  | markDataReadyGetTargetPendingVisible capability =>
    refine post_ignore_of post_markDataReadyGetTargetPendingVisible ?_ fun _ _ hE =>
      (h.not_counterPanics hid hE.2).elim
    rintro _ s' (rfl | ⟨seg₀, r, receipt, hs₀, -, -, -, hstate, hstep⟩)
    · exact ⟨seg, h⟩
    · cases h.inv.segment_eq.symm.trans hs₀
      obtain ⟨a, ha, hstate⟩ := map_eq_some_iff.1 hstate
      have hheld := h.holders capability.slot.allocationId
      rw [ha, elim_some, hstate] at hheld
      exact h.slotState hstep (by simp) hheld
  | beginTargetCommit op leaseId receipt token =>
    refine post_ignore_of post_beginTargetCommit ?_ fun _ _ hE => (h.not_leaseUnbound op hE.2).elim
    rintro _ s' (⟨rfl, -⟩ | ⟨seg₀, r, -, -, -, -, -, hrun⟩)
    · exact ⟨seg, h⟩
    · exact h.quiet_run hrun (by simp [Quiet])
  | finishTargetCommit op leaseId routeEpoch =>
    refine post_ignore_of post_finishTargetCommit ?_ ?_
    · rintro _ s' (⟨rfl, -⟩ | ⟨seg₀, r, state, -, hs₀, hr, -, hopen, hstate, hrun⟩)
      · exact ⟨seg, h⟩
      · cases h.inv.segment_eq.symm.trans hs₀
        obtain ⟨a, ha, hstate⟩ := map_eq_some_iff.1 hstate
        exact h.commit ⟨hr, hopen⟩ ha (by rw [hstate]; exact Nat.zero_le _) hrun
    · rintro _ _ ⟨-, hcounter | hunbound | ⟨seg₀, r, hopen, hnone⟩⟩
      · exact h.not_counterPanics hid hcounter
      · exact h.not_leaseUnbound op hunbound
      · cases h.inv.segment_eq.symm.trans hopen.segment_eq
        obtain ⟨a, ha, -⟩ := h.targets.live op r trivial ⟨hopen.lookup_eq, hopen.isOpen⟩
        cases ha.symm.trans hnone
  | beginDataReadyGetTargetCommit =>
    refine post_ignore_of post_beginDataReadyGetTargetCommit ?_ fun _ _ hE =>
      (h.not_leaseUnbound _ hE.2).elim
    rintro _ s' (rfl | ⟨seg₀, r, receipt, -, -, -, -, hrun⟩)
    · exact ⟨seg, h⟩
    · exact h.quiet_run hrun (by simp [Quiet])
  | finishDataReadyGetTarget op leaseId routeEpoch =>
    refine post_ignore_of post_finishDataReadyGetTarget ?_ ?_
    · rintro _ s' (rfl | ⟨seg₀, r, n, hs₀, hr, -, hopen, hstate, hrun⟩)
      · exact ⟨seg, h⟩
      · cases h.inv.segment_eq.symm.trans hs₀
        obtain ⟨a, ha, hstate⟩ := map_eq_some_iff.1 hstate
        exact h.commit ⟨hr, hopen⟩ ha (by rw [hstate]; exact Nat.le_refl _) hrun
    · rintro _ _ ⟨-, hcounter | hunbound⟩
      · exact h.not_counterPanics hid hcounter
      · exact h.not_leaseUnbound op hunbound
  | abortDataReadyVisibleGetTarget op leaseId reason =>
    refine post_ignore_of post_abortDataReadyVisibleGetTarget ?_ fun _ _ hE =>
      (h.not_leaseUnbound op hE.2).elim
    rintro _ s' (rfl | ⟨seg₀, r, -, -, -, -, hrun⟩)
    · exact ⟨seg, h⟩
    · exact h.quiet_run hrun (by simp [Quiet])
  | abortTarget =>
    refine post_ignore_of post_abortTarget ?_ ?_
    · rintro _ s' (rfl | ⟨seg₀, r, hopen, -, hrun⟩)
      · exact ⟨seg, h⟩
      · cases h.inv.segment_eq.symm.trans hopen.segment_eq
        exact h.abort ⟨hopen.lookup_eq, hopen.isOpen⟩ hrun
    · rintro _ _ ⟨-, hcounter | hstuck⟩
      · exact h.not_counterPanics hid hcounter
      · exact h.not_leaseStuck hc hstuck
  | abortRouteRejectedTarget =>
    refine post_ignore_of post_abortRouteRejectedTarget ?_ ?_
    · rintro _ s' (rfl | ⟨seg₀, r, hopen, -, hrun⟩)
      · exact ⟨seg, h⟩
      · cases h.inv.segment_eq.symm.trans hopen.segment_eq
        exact h.abort ⟨hopen.lookup_eq, hopen.isOpen⟩ hrun
    · rintro _ _ ⟨-, hcounter | hstuck⟩
      · exact h.not_counterPanics hid hcounter
      · exact h.not_leaseStuck hc hstuck
  | acquireSource =>
    refine post_ignore_of post_acquireSource ?_ ?_
    · rintro _ s' ⟨us, hrun, rfl | rfl | ⟨leaseId, rfl⟩⟩ <;> exact h.quiet_run hrun (by simp [Quiet])
    · rintro _ _ ⟨-, seg₀, a, hs₀, ha, hmax⟩
      have := hc a (by rw [allocation, hs₀]; exact ha)
      omega
  | releaseSource =>
    refine post_ignore_of post_releaseSource ?_ ?_
    · rintro _ s' (⟨rfl, -⟩ | ⟨seg₀, r, a, hs₀, hr, -, -, ha, ⟨-, -, hstep⟩ | ⟨-, hstate, hstep⟩⟩)
      · exact ⟨seg, h⟩
      · exact h.quiet hstep (by simp [Quiet])
      · cases h.inv.segment_eq.symm.trans hs₀
        have hheld := h.holders r.routeToken.source.allocationId
        rw [ha, elim_some, hstate] at hheld
        exact h.free hstep (by simp [hr])
          (h.targets.unnamed_of_committed ha (by rw [hstate]; rfl)) (Nat.le_zero.1 hheld)
    · rintro _ _ ⟨-, hcounter | ⟨seg₀, r, a, hs₀, -, -, ha, hne⟩⟩
      · exact h.not_counterPanics hid hcounter
      · cases h.inv.segment_eq.symm.trans hs₀
        exact hne ⟨h.inv.slots.id_eq _ a ha, (h.inv.slots.index _ _).2 ⟨a, ha, rfl⟩⟩
  | retainResidentSlotHolder =>
    obtain ⟨hnames, hresident⟩ := hc
    refine post_ignore_of post_retainResidentSlotHolder ?_ ?_
    · rintro _ s' (⟨hnot, -⟩ | ⟨seg₀, a, -, hs₀, ha, -, hstep⟩)
      · exact (hnot hnames).elim
      · cases h.inv.segment_eq.symm.trans hs₀
        exact h.retain ha (hresident a (by rw [allocation, hs₀]; exact ha)).1 hstep
    rintro _ _ ⟨-, -, seg₀, hs₀, hstuck⟩
    obtain ⟨a, ha⟩ := exists_of_namesSlot hnames hs₀
    obtain ⟨hne, hlt⟩ := hresident a (by rw [allocation, hs₀]; exact ha)
    rcases hstuck a ha with hstate | hmax
    · exact hne hstate
    · omega
  | releaseResidentSlotHolder id segmentOffset capacityBytes =>
    obtain ⟨hpos, hlast⟩ := hc
    -- a slot with a retained holder is resident
    obtain ⟨a, ha, hheld⟩ : ∃ a, seg.allocation id = some a ∧ 0 < a.state.holders := by
      have hheld := h.holders id
      cases ha : seg.allocation id with
      | none =>
        rw [ha, elim_none] at hheld
        omega
      | some a =>
        rw [ha, elim_some] at hheld
        exact ⟨a, rfl, by omega⟩
    have hresident : a.state ≠ .prepared := fun hstate => by simp [hstate] at hheld
    refine post_ignore_of post_releaseResidentSlotHolder ?_ ?_
    · rintro _ s' (⟨-, -, rfl⟩ | ⟨seg₀, a₀, -, -, hs₀, ha₀, -, -, hstep⟩)
      · refine ⟨seg, h.inv, h.targets, h.holders.update ?_⟩
        have := h.holders id
        omega
      · cases h.inv.segment_eq.symm.trans hs₀
        cases ha.symm.trans ha₀
        refine h.release ha hresident (hlast seg a hs₀ ha) ?_ hheld
        exact hstep.imp (fun h => h.2) fun h => ⟨h.1, h.2.2⟩
    · rintro _ _ ⟨-, -, seg₀, hs₀, hstuck⟩
      cases h.inv.segment_eq.symm.trans hs₀
      rcases hstuck a ha with hstate | hzero | hcount | ⟨hleases, hfree⟩
      · exact hresident hstate
      · omega
      · exact h.not_counterPanics hid (.inr ⟨seg, id, a, hs₀, ha, hcount⟩)
      · exact hfree (h.inv.slots.freeable ha hleases)
  | _ => exact hc.elim

/-! ## The main result -/

/-- Every open lease names a live slot that its manifest entry owns. -/
def LeasesOwned (s : OwnerSegmentAllocator A) : Prop :=
  ∀ op seg r, s.OpenLease op seg r → ∃ a e, seg.allocation r.slot.allocationId = some a ∧
    seg.manifestEntryByAllocation r.slot.allocationId = some e ∧ e.key = r.key ∧
    e.putId = r.putId ∧ e.slot = r.slot

theorem Sound.leasesOwned (h : s.Sound (fun _ => True) held seg) : s.LeasesOwned := by
  intro op seg₀ r hopen
  cases h.inv.segment_eq.symm.trans hopen.segment_eq
  obtain ⟨a, ha, -⟩ := h.targets.live op r trivial ⟨hopen.lookup_eq, hopen.isOpen⟩
  obtain ⟨e, he, hslot⟩ := h.targets.owned op r trivial ⟨hopen.lookup_eq, hopen.isOpen⟩
  have hkey := h.inv.tables.manifest.key_eq _ e he
  refine ⟨a, e, ha, ?_, congrArg (·.key) hkey, congrArg (·.putId) hkey, hslot⟩
  rw [← hslot]
  exact h.inv.tables.manifest.manifestEntryByAllocation_eq he

theorem Installed.sound {i : Installation} (h : Installed i s)
    (haddr : i.addr + i.len ≤ u64Max) : s.Sound (fun _ => True) (fun _ => 0) (.fresh i) := by
  refine ⟨h.inv haddr, ⟨?_, ?_, ?_⟩, fun _ => Nat.zero_le _⟩
  · rintro op r - ⟨hr, -⟩
    cases hr
  · rintro op r - ⟨hr, -⟩
    cases hr
  · rintro op _ r _ - - ⟨hr, -⟩
    cases hr

/-- **The lease protocol does not panic.** In every state that a session reaches after the
installation, every open lease owns its slot, and every admitted call returns. -/
theorem lease_protocol_never_panics {i : Installation} {s₀ : OwnerSegmentAllocator A}
    {cs : List OwnerCall} {x : LeaseSession A} (hinstalled : Installed i s₀)
    (haddr : i.addr + i.len ≤ u64Max)
    (hrun : Run (Guarded LeaseSession.Admits LeaseSession.Takes) ⟨s₀, fun _ => 0⟩ cs x) :
    x.allocator.LeasesOwned ∧ ∀ c, x.Admits c → ∃ s', x.allocator.Returns c s' := by
  obtain ⟨seg, hsound⟩ := hrun.invariant
    (I := fun x => ∃ seg, x.allocator.Sound (fun _ => True) x.held seg) (by
      rintro x c x' ⟨seg, hsound⟩ ⟨hadmits, htakes, hheld⟩
      have hpost := hsound.post_exec hadmits
      rw [hheld]
      rcases htakes with hok | ⟨msg, herror⟩
      · exact hpost.of_ok hok
      · exact (hpost.of_error herror).elim) ⟨_, hinstalled.sound haddr⟩
  refine ⟨hsound.leasesOwned, fun c hc => ?_⟩
  obtain ⟨_, s', hok, -⟩ := (hsound.post_exec hc).exists_ok
  exact ⟨s', hok⟩

/-- A Get target is prepared, filled and made visible to its own process. -/
def hiddenGet : List OwnerCall :=
  [.prepareTarget firstOp Installation.twoUnits.owner "k" (1, 0) 100 .localExclusive none,
    .markTargetDataReady firstOp firstLease firstReceipt,
    .markDataReadyGetTargetPendingVisible ⟨firstOp, firstLease, .firstSlot⟩]

/-- After a prepare and the transfer, the lease owns its slot and every admitted call returns. -/
theorem lease_protocol_never_panics_dataReady : ∃ x : LeaseSession BumpAllocator,
      Run (Guarded LeaseSession.Admits LeaseSession.Takes) ⟨started, fun _ => 0⟩
        [firstPrepare.toCall, firstReady] x ∧
      (x.allocator.targetLeases.lookup firstOp).map (·.state) = some (.dataReady firstReceipt) ∧
      x.allocator.LeasesOwned ∧ ∀ c, x.Admits c → ∃ s', x.allocator.Returns c s' := by
  obtain ⟨s₁, hrun, hid, hpost⟩ := exists_run_of_post [firstPrepare.toCall] started
    (Q := fun s => s.nextAllocationId < u64Max ∧ Post (exec firstReady) s
      (fun _ s' => (s'.targetLeases.lookup firstOp).map (·.state) = some (.dataReady firstReceipt))
      fun _ _ => False) (by decide +kernel)
  obtain ⟨_, hcall, hnil⟩ := hrun.cons_inv
  cases hnil
  obtain ⟨_, s, hmark, hready⟩ := hpost.exists_ok
  have hsession : Run (Guarded LeaseSession.Admits LeaseSession.Takes)
      ⟨started, fun _ => 0⟩ [firstPrepare.toCall, firstReady] ⟨s, fun _ => 0⟩ := by
    have hmarks : Guarded LeaseSession.Admits LeaseSession.Takes ⟨s₁, fun _ => 0⟩ _
      ⟨s, fun _ => 0⟩ := ⟨⟨hid, trivial⟩, .inl hmark, rfl⟩
    refine .cons ?_ (.single hmarks)
    exact ⟨⟨by decide +kernel, trivial⟩, .inl hcall, rfl⟩
  exact ⟨_, hsession, hready,
    lease_protocol_never_panics installed_started (by decide +kernel) hsession⟩

/-- An abort of a Get target that has become visible panics; and a holder of it, retained and
released, frees the slot of the open lease. -/
theorem abort_of_visible_get_panics :
    (∃ s s' msg, Run Returns started hiddenGet s ∧
      exec (.abortTarget firstOp firstLease "cancelled") s = .error msg s') ∧
    ∃ s, Run Returns started (hiddenGet ++
        [.retainResidentSlotHolder 1 0 granularityBytes,
          .releaseResidentSlotHolder 1 0 granularityBytes]) s ∧
      (s.targetLeases.lookup firstOp).map (·.state) = some (.dataReady firstReceipt) ∧
      s.allocation 1 = none := by
  constructor
  · obtain ⟨s, hrun, hpost⟩ := exists_run_of_post hiddenGet started
      (Q := fun s => Post (exec (.abortTarget firstOp firstLease "cancelled")) s
        (fun _ _ => False) fun _ _ => True) (by decide +kernel)
    obtain ⟨msg, s', herror, -⟩ := hpost.exists_error
    exact ⟨s, s', msg, hrun, herror⟩
  · exact exists_run_of_post _ started (by decide +kernel)

end OwnerSegmentAllocator

end Fluxon.OwnerSegment
