import Fluxon.OwnerSegment.SegmentSpec

/-!
# What the calls do

One specification for each call of the allocator. A call that returns has run a short list of
updates, which the specification names; a call that panics has at most advanced the target
leases, and the specification says why it panicked. Nothing here assumes an invariant, so the
specifications hold in every state.
-/

namespace Fluxon.OwnerSegment

open OffsetAllocator Call OwnerSegmentState OwnerSegmentAllocator

variable {A : Type}

namespace OwnerSegmentAllocator

variable {seg : OwnerSegmentState A} {s : OwnerSegmentAllocator A}

theorem putSegment_self (h : s.segment = some seg) : putSegment seg s = s := by
  cases s
  cases h
  rfl

/-! ## Slot counters -/

variable {k : SlotKind} {msg : String}

theorem post_incSlots : Post (incSlots k msg) s (fun _ s' => s' = s.countUp k)
      (fun _ s' => s' = s ∧ u64Max < s.slotCount k + 1) := by
  simp only [incSlots, post_bind, post_get, post_expect, post_modify, checkedAdd_eq_some,
    checkedAdd_eq_none]
  refine ⟨fun n hn => ?_, fun hn => ⟨trivial, hn⟩⟩
  rw [hn.2]
  rfl

theorem post_decSlots : Post (decSlots k msg) s (fun _ s' => 0 < s.slotCount k ∧ s' = s.countDown k)
      (fun _ s' => s' = s ∧ s.slotCount k = 0) := by
  simp only [decSlots, post_bind, post_get, post_expect, post_modify, checkedSub_eq_some,
    checkedSub_eq_none]
  refine ⟨fun n hn => ⟨hn.1, ?_⟩, fun hn => ⟨trivial, Nat.lt_one_iff.1 hn⟩⟩
  rw [hn.2]
  rfl

/-- A slot leaves one counter and enters another. -/
theorem post_recount {k k' : SlotKind} {msg msg' : String} {t : OwnerSegmentAllocator A}
    {Q E : OwnerSegmentAllocator A → Prop} (hQ : Q ((t.countDown k).countUp k'))
    (hE : ∀ t', (∀ s : OwnerSegmentAllocator A, s.Advances t → s.Advances t') →
      (∃ k, u64Max < t.slotCount k + 1) ∨ t.slotCount k = 0 → E t') :
    Post (decSlots k msg) t
      (fun _ t₁ => Post (incSlots k' msg') t₁ (fun _ t' => Q t') fun _ t' => E t')
      fun _ t' => E t' := by
  refine post_decSlots.mono ?_ ?_
  · rintro _ t₁ ⟨-, rfl⟩
    refine post_incSlots.mono ?_ ?_
    · rintro _ t' rfl
      exact hQ
    · rintro _ t' ⟨rfl, hmax⟩
      rw [slotCount_countDown] at hmax
      exact hE _ (fun _ => advances_countDown.2) (.inl ⟨k', by omega⟩)
  · rintro _ t₁ ⟨rfl, hzero⟩
    exact hE t₁ (fun _ h => h) (.inr hzero)

section Claims

variable [OffsetAllocator A]

/-! ## Claims -/

/-- The updates of the claim loop. -/
def ClaimUpdate (u : Update) : Prop :=
  u = .allocationId ∨ (∃ units, u = .leakRange units) ∨ (∃ a, u = .leakSlot a) ∨ ∃ a, u = .claim a

/-- The updates of a claim that hands out no slot. -/
def FailedClaim (u : Update) : Prop :=
  u = .allocationId ∨ (∃ units, u = .leakRange units) ∨ ∃ a, u = .leakSlot a

theorem FailedClaim.claimUpdate {u : Update} (h : FailedClaim u) : ClaimUpdate u := by
  rcases h with h | h | h
  · exact .inl h
  · exact .inr (.inl h)
  · exact .inr (.inr (.inl h))

/-- Why a claim panics: a counter is exhausted, or an id or a live offset was reused. -/
def ClaimPanics (s : OwnerSegmentAllocator A) (slotSize : ℕ) : Prop :=
  u64Max < s.nextAllocationId + 1 ∨ u64Max < s.slotCount .prepared + 1 ∨
    ∃ seg x allocator, s.segment = some seg ∧ 0 < slotSize / granularityBytes ∧
      allocate seg.allocator (slotSize / granularityBytes) = some (x, allocator) ∧
      (seg.allocation (s.nextAllocationId + 1) ≠ none ∨
        seg.allocationsByOffset.lookup x.offset ≠ none)

theorem post_claimOne {slotSize valueLen : ℕ} : Post (claimOne slotSize valueLen) s
      (fun r s' =>
        (r = none ∧ (s' = s ∨ ∃ u, FailedClaim u ∧ Update.Step s u s')) ∨
        ∃ a d seg', r = some d ∧ Update.Step s (.claim a) s' ∧ a.capacityBytes = slotSize ∧
          a.valueLen = valueLen ∧ s'.segment = some seg' ∧ seg'.slotDesc a.allocationId = some d)
      (fun _ s' => s.Advances s' ∧ s.ClaimPanics slotSize) := by
  simp only [claimOne, post_bind, post_get]
  split
  · rename_i seg hseg
    simp only [post_bind, post_get, post_expect, post_modify, checkedAdd_eq_some,
      checkedAdd_eq_none, onSegment, post_onPart]
    refine ⟨?_, fun hmax => ⟨.refl _, .inl hmax⟩⟩
    rintro _ ⟨-, rfl⟩
    refine post_claimPreparedSlot.mono ?_ ?_
    · rintro r seg' (⟨rfl, rfl⟩ | ⟨units, allocator, x, rfl, hunits, hx, ho, rfl⟩ |
        ⟨a, allocator, hclaim, hcap, hlen, rfl, rfl⟩)
      · refine .inl ⟨rfl, .inr ⟨.allocationId, .inl rfl, ?_⟩⟩
        simp only [Update.Step, putSegment, hseg]
      · exact .inl ⟨rfl, .inr ⟨.leakRange units, .inr (.inl ⟨_, rfl⟩),
          seg, allocator, x, hseg, hunits, hx, ho, rfl⟩⟩
      have hlive : (seg.claimed allocator a).allocation (s.nextAllocationId + 1) = some a := by
        rw [← hclaim.id_eq]
        exact allocation_claimed_self _ _ _
      have hdesc := slotDesc_of_allocation hlive
      cases haddr : checkedAdd seg.addr a.segmentOffset with
      | none =>
        rw [hdesc, show (seg.claimed allocator a).addr = seg.addr from rfl, haddr]
        exact .inl ⟨rfl, .inr ⟨.leakSlot a, .inr (.inr ⟨a, rfl⟩),
          seg, allocator, hseg, hclaim, haddr, rfl⟩⟩
      | some addr =>
        obtain ⟨d, hd⟩ : ∃ d,
            (seg.claimed allocator a).slotDesc (s.nextAllocationId + 1) = some d := by
          rw [hdesc, show (seg.claimed allocator a).addr = seg.addr from rfl, haddr]
          exact ⟨_, rfl⟩
        rw [hd]
        simp only [incPrepared, post_bind, post_pure]
        refine post_incSlots.mono ?_ ?_
        · rintro _ s' rfl
          refine .inr ⟨a, d, _, rfl, ⟨seg, allocator, hseg, hclaim, rfl⟩, hcap, hlen, rfl, ?_⟩
          rw [hclaim.id_eq, hd]
        · rintro _ s' ⟨rfl, hmax⟩
          exact ⟨advances_of_leaseView hseg rfl rfl, .inr (.inl hmax)⟩
    · rintro _ seg' ⟨ht, x, allocator, hpos, hx, hused⟩
      exact ⟨advances_of_leaseView hseg rfl ht, .inr (.inr ⟨seg, x, allocator, hseg, hpos, hx, hused⟩)⟩
  · exact .inl ⟨rfl, .inl rfl⟩

theorem claim_slotDesc {s s' : OwnerSegmentAllocator A} {a : OwnerAllocationState}
    {seg' : OwnerSegmentState A} {d : OwnerSlotDesc} (h : Update.Step s (.claim a) s')
    (hseg : s'.segment = some seg') (hd : seg'.slotDesc a.allocationId = some d) :
    d.allocationId = a.allocationId ∧ d.segmentOffset = a.segmentOffset ∧
      d.capacityBytes = a.capacityBytes := by
  obtain ⟨seg, allocator, -, hclaim, rfl⟩ := h
  obtain rfl : seg.claimed allocator a = seg' := by simpa [putSegment] using hseg
  rw [slotDesc_of_allocation (allocation_claimed_self _ _ _), Option.map_eq_some_iff] at hd
  obtain ⟨addr, -, rfl⟩ := hd
  exact ⟨rfl, rfl, rfl⟩

/-- The claim loop consumes ids and claims slots; what it returns it has claimed. -/
theorem post_claimAvailableWithLen {slotSize valueLen maxSlots : ℕ} :
    Post (claimAvailableWithLen slotSize valueLen maxSlots) s
      (fun slots s' => ∃ us, Run Update.Step s us s' ∧ (∀ u ∈ us, ClaimUpdate u) ∧
        ∀ d ∈ slots, ∃ a, .claim a ∈ us ∧ d.allocationId = a.allocationId ∧
          d.segmentOffset = a.segmentOffset ∧ d.capacityBytes = a.capacityBytes)
      (fun _ s' => s.Advances s' ∧
        ∃ us s₁, Run Update.Step s us s₁ ∧ us.length < maxSlots ∧ (∀ u ∈ us, ClaimUpdate u) ∧
          s₁.ClaimPanics slotSize) := by
  induction maxSlots generalizing s with
  | zero => exact ⟨[], .nil s, by simp, by simp⟩
  | succ maxSlots ih =>
    simp only [claimAvailableWithLen, post_bind]
    refine post_claimOne.mono ?_ ?_
    · rintro r s₁ (⟨rfl, rfl | ⟨u, hu, hstep⟩⟩ | ⟨a, d, seg₁, rfl, hstep, -, -, hseg₁, hd⟩)
      · exact ⟨[], .nil s₁, by simp, by simp⟩
      · exact ⟨[u], .single hstep, by simpa using hu.claimUpdate, by simp⟩
      have hclaim : ClaimUpdate (.claim a) := .inr (.inr (.inr ⟨a, rfl⟩))
      simp only [post_bind, post_pure]
      refine ih.mono ?_ ?_
      · rintro slots s' ⟨us, hrun, hus, hslots⟩
        refine ⟨.claim a :: us, .cons hstep hrun, ?_, ?_⟩
        · rintro u (_ | ⟨_, hu⟩)
          · exact hclaim
          · exact hus u hu
        · rintro d' (_ | ⟨_, hd'⟩)
          · exact ⟨a, .head _, claim_slotDesc hstep hseg₁ hd⟩
          · obtain ⟨a', ha', h⟩ := hslots d' hd'
            exact ⟨a', .tail _ ha', h⟩
      · rintro _ s' ⟨ht, us, s₂, hrun, hlen, hus, hpanic⟩
        refine ⟨hstep.advances.trans ht, .claim a :: us, s₂, .cons hstep hrun, ?_, ?_, hpanic⟩
        · simpa using hlen
        · rintro u (_ | ⟨_, hu⟩)
          · exact hclaim
          · exact hus u hu
    · rintro _ s' ⟨ht, hpanic⟩
      exact ⟨ht, [], s, .nil s, by simp, by simp, hpanic⟩

/-- A claim by length runs the loop on the slot size of the length, if it has one. -/
theorem claimValue_cases (valueLen maxSlots : ℕ) :
    (claimValue valueLen maxSlots : AllocCall A (List OwnerSlotDesc)) = pure [] ∨
      ∃ slotSize, (claimValue valueLen maxSlots : AllocCall A (List OwnerSlotDesc)) =
        claimAvailableWithLen slotSize valueLen maxSlots := by
  unfold claimValue
  generalize ownerSegmentAllocationCapacityBytes valueLen = slotSize
  cases slotSize with
  | none => exact .inl rfl
  | some slotSize => exact .inr ⟨slotSize, rfl⟩

end Claims

/-! ## Slot calls -/

section Slots

variable {s : OwnerSegmentAllocator A} {id segmentOffset capacityBytes : ℕ}

/-- The slot calls act only on a live allocation with exactly the given identity. -/
def NamesSlot (s : OwnerSegmentAllocator A) (id segmentOffset capacityBytes : ℕ) : Prop :=
  ∃ seg, s.segment = some seg ∧ seg.identityMatches id segmentOffset capacityBytes = true

theorem post_withSlot {c : OwnerSegmentState A → AllocCall A Bool}
    {Q : Bool → OwnerSegmentAllocator A → Prop} {E : String → OwnerSegmentAllocator A → Prop}
    (hc : ∀ seg, s.segment = some seg → s.NamesSlot id segmentOffset capacityBytes →
      Post (c seg) s Q E)
    (hQ : ¬s.NamesSlot id segmentOffset capacityBytes → Q false s) :
    Post (withSlot id segmentOffset capacityBytes c) s Q E := by
  simp only [withSlot, post_bind, post_get]
  split
  · rename_i seg hseg
    simp only [post_ite, post_pure]
    refine ⟨fun h => hQ ?_, fun h => hc seg hseg ⟨seg, hseg, by simpa using h⟩⟩
    rintro ⟨seg', hseg', hid⟩
    obtain rfl : seg' = seg := Option.some.inj (hseg'.symm.trans hseg)
    simp [hid] at h
  · rename_i hnone
    exact hQ fun ⟨seg, hseg, _⟩ => hnone seg hseg

variable {a : OwnerAllocationState} {state : OwnerSlotState}

/-- A slot state that keeps its kind leaves the counters alone. -/
theorem step_slotState (hseg : s.segment = some seg) (ha : seg.allocation id = some a)
    (hkind : state.kind = a.state.kind)
    (href : ¬({ a with state } : OwnerAllocationState).Unreferenced) [OffsetAllocator A] :
    Update.Step s (.slotState id state) (putSegment (seg.setSlotState id state) s) := by
  refine ⟨seg, a, hseg, ha, by rw [hkind], href, ?_⟩
  rw [hkind, countDown_countUp]

variable [OffsetAllocator A]

/-- A slot that changes its kind leaves one counter and enters another. -/
theorem step_slotState_of_ne (hseg : s.segment = some seg) (ha : seg.allocation id = some a)
    (hk : a.state.kind = k) (hlt : k.rank < state.kind.rank)
    (href : ¬({ a with state } : OwnerAllocationState).Unreferenced) :
    Update.Step s (.slotState id state)
      (countUp state.kind (countDown k (putSegment (seg.setSlotState id state) s))) := by
  refine ⟨seg, a, hseg, ha, by rw [hk]; exact hlt.le, href, ?_⟩
  rw [hk, countDown_countUp_of_ne fun h => hlt.ne (congrArg _ h)]

theorem post_releasePreparedSlot : Post (releasePreparedSlot id segmentOffset capacityBytes) s
      (fun r s' => (¬s.NamesSlot id segmentOffset capacityBytes ∧ r = false ∧ s' = s) ∨
        (r = true ∧ Update.Step s (.freePrepared id) s'))
      (fun _ s' => s.Advances s' ∧ ∃ seg, s.segment = some seg ∧ (s.slotCount .prepared = 0 ∨
          ∀ a, seg.allocation id = some a → a.state = .prepared → ¬seg.Freeable id a)) := by
  refine post_withSlot (fun seg hseg _ => ?_) fun h => .inl ⟨h, rfl, rfl⟩
  simp only [onSegment, post_bind, post_onPart, post_pure, decPrepared]
  refine OwnerSegmentState.post_releasePreparedSlot.mono ?_ ?_
  · rintro _ seg' ⟨a, ha, hstate, hleases, rfl⟩
    refine post_decSlots.mono ?_ ?_
    · rintro _ s' ⟨-, rfl⟩
      exact .inr ⟨trivial, seg, a, hseg, ha, hleases, hstate, rfl⟩
    · rintro _ s' ⟨rfl, hzero⟩
      exact ⟨advance_putSegment hseg rfl, seg, hseg, .inl hzero⟩
  · rintro _ seg' ⟨ht, hf⟩
    exact ⟨advance_putSegment hseg ht, seg, hseg, .inr hf⟩

theorem post_retainCommittedRouteOnlyHolder :
    Post (retainCommittedRouteOnlyHolder id segmentOffset capacityBytes) s
      (fun _ s' => s' = s ∨ Update.Step s (.slotState id (.committed true 1)) s')
      (fun _ _ => False) := by
  refine post_withSlot (fun seg hseg _ => ?_) fun _ => .inl rfl
  simp only [onSegment, post_onPart]
  refine OwnerSegmentState.post_retainCommittedRouteOnlyHolder.imp ?_
  rintro _ seg' (rfl | ⟨a, ha, hstate, rfl⟩)
  · exact .inl (putSegment_self hseg)
  · exact .inr (step_slotState hseg ha (by simp [hstate])
      (by simp [OwnerAllocationState.Unreferenced]))

theorem post_markPreparedSlotPendingVisible :
    Post (markPreparedSlotPendingVisible id segmentOffset capacityBytes) s
      (fun _ s' => s' = s ∨ Update.Step s (.slotState id (.pendingLocalVisible 0)) s')
      (fun _ s' => s.Advances s') := by
  refine post_withSlot (fun seg hseg _ => ?_) fun _ => .inl rfl
  simp only [onSegment, post_bind, post_onPart, post_pure, decPrepared, incPending]
  refine OwnerSegmentState.post_markPreparedSlotPendingVisible.mono ?_ ?_
  · rintro _ seg' ⟨a, ha, hstate, rfl⟩
    refine post_recount ?_ fun s' hadvance _ => hadvance s (advance_putSegment hseg rfl)
    exact .inr (step_slotState_of_ne hseg ha (by rw [hstate]; rfl) (by simp)
      (by simp [OwnerAllocationState.Unreferenced]))
  · rintro _ seg' ⟨rfl, -⟩
    exact advance_putSegment hseg rfl

theorem post_promotePendingVisibleSlotToCommitted :
    Post (promotePendingVisibleSlotToCommitted id segmentOffset capacityBytes) s
      (fun _ s' => s' = s ∨ ∃ n, Update.Step s (.slotState id (.committed true n)) s')
      (fun _ s' => s.Advances s') := by
  refine post_withSlot (fun seg hseg _ => ?_) fun _ => .inl rfl
  simp only [onSegment, post_bind, post_onPart, post_pure, decPending, incCommitted]
  refine OwnerSegmentState.post_promotePendingVisibleSlotToCommitted.mono ?_ ?_
  · rintro _ seg' ⟨a, n, ha, hstate, rfl⟩
    refine post_recount ?_ fun s' hadvance _ => hadvance s (advance_putSegment hseg rfl)
    exact .inr ⟨n, step_slotState_of_ne hseg ha (by rw [hstate]; rfl) (by simp)
      (by simp [OwnerAllocationState.Unreferenced])⟩
  · rintro _ seg' ⟨rfl, -⟩
    exact advance_putSegment hseg rfl

theorem post_retainResidentSlotHolder :
    Post (retainResidentSlotHolder id segmentOffset capacityBytes) s
      (fun r s' => (¬s.NamesSlot id segmentOffset capacityBytes ∧ r = false ∧ s' = s) ∨
        ∃ seg a, r = true ∧ s.segment = some seg ∧ seg.allocation id = some a ∧
          a.state ≠ .prepared ∧
          Update.Step s (.slotState id (a.state.withHolders (a.state.holders + 1))) s')
      (fun _ s' => s' = s ∧ s.NamesSlot id segmentOffset capacityBytes ∧
        ∃ seg, s.segment = some seg ∧ ∀ a, seg.allocation id = some a →
          a.state = .prepared ∨ u32Max < a.state.holders + 1) := by
  refine post_withSlot (fun seg hseg hnames => ?_) fun h => .inl ⟨h, rfl, rfl⟩
  simp only [onSegment, post_bind, post_onPart, post_pure]
  refine OwnerSegmentState.post_retainResidentSlotHolder.mono ?_ ?_
  · rintro _ seg' ⟨a, ha, hstate, rfl⟩
    refine .inr ⟨seg, a, trivial, hseg, ha, hstate, step_slotState hseg ha ?_ ?_⟩
    · cases h : a.state <;> rfl
    · cases h : a.state <;> simp [OwnerAllocationState.Unreferenced]
  · rintro _ seg' ⟨rfl, h⟩
    exact ⟨putSegment_self hseg, hnames, seg', hseg, h⟩

/-- The last holder of a slot that nothing else keeps frees it. -/
theorem post_releaseResidentSlotHolder :
    Post (releaseResidentSlotHolder id segmentOffset capacityBytes) s
      (fun r s' => (¬s.NamesSlot id segmentOffset capacityBytes ∧ r = false ∧ s' = s) ∨
        ∃ seg a, r = true ∧ s.NamesSlot id segmentOffset capacityBytes ∧ s.segment = some seg ∧
          seg.allocation id = some a ∧ a.state ≠ .prepared ∧ 0 < a.state.holders ∧
          ((¬((a.state.withHolders (a.state.holders - 1)).idle = true ∧
              a.sourceReadLeaseCount = 0) ∧
              Update.Step s (.slotState id (a.state.withHolders (a.state.holders - 1))) s') ∨
            ((a.state.withHolders (a.state.holders - 1)).idle = true ∧
              a.sourceReadLeaseCount = 0 ∧ Update.Step s (.free id) s')))
      (fun _ s' => s.Advances s' ∧ s.NamesSlot id segmentOffset capacityBytes ∧
        ∃ seg, s.segment = some seg ∧ ∀ a, seg.allocation id = some a →
          a.state = .prepared ∨ a.state.holders = 0 ∨ s.slotCount a.state.kind = 0 ∨
          (a.sourceReadLeaseCount = 0 ∧ ¬seg.Freeable id a)) := by
  refine post_withSlot (fun seg hseg hnames => ?_) fun h => .inl ⟨h, rfl, rfl⟩
  simp only [onSegment, post_bind, post_onPart, post_expect, post_get]
  refine ⟨fun a ha => ?_, fun hnone => ⟨.refl _, hnames, seg, hseg, by simp [hnone]⟩⟩
  refine OwnerSegmentState.post_releaseResidentSlotHolder.mono ?_ ?_
  · rintro _ seg' ⟨a', ha', hstate, hpos, hsettled⟩
    obtain rfl := OwnerSegmentState.allocation_inj ha' ha
    rcases hsettled with ⟨hkeep, rfl⟩ | ⟨hidle, hleases, rfl⟩
    · have hlive' : (putSegment (seg.setSlotState id
          (a'.state.withHolders (a'.state.holders - 1))) s).allocation id ≠ none := by
        simp [allocation, putSegment, setSlotState, allocation_updateAllocation_self _ ha]
      simp only [if_neg hlive', post_pure]
      refine .inr ⟨seg, a', trivial, hnames, hseg, ha, hstate, hpos,
        .inl ⟨hkeep, step_slotState hseg ha ?_ ?_⟩⟩
      · cases h : a'.state <;> rfl
      · rintro ⟨h₁, h₂⟩
        refine hkeep ⟨?_, h₂⟩
        rw [show a'.state.withHolders (a'.state.holders - 1) = .committed false 0 from h₁]
        rfl
    · have hnone : (putSegment (seg.freed id a') s).allocation id = none := by
        simp [allocation, putSegment, allocation_freed]
      simp only [hnone, if_true]
      split <;> rename_i hkind
      case h_3 => exact (hstate hkind).elim
      all_goals
        simp only [decPending, decCommitted, post_bind, post_pure]
        refine post_decSlots.mono ?_ ?_
        · rintro _ s' ⟨-, rfl⟩
          refine .inr ⟨seg, a', trivial, hnames, hseg, ha, hstate, hpos, .inr ⟨hidle, hleases,
            seg, a', hseg, ha, hleases, hstate, ?_⟩⟩
          rw [hkind]
          rfl
        · rintro _ s' ⟨rfl, hzero⟩
          refine ⟨advance_putSegment hseg rfl, hnames, seg, hseg, fun a'' ha'' => ?_⟩
          rw [allocation_inj ha'' ha, hkind]
          exact .inr (.inr (.inl hzero))
  · rintro _ seg' ⟨ht, h⟩
    refine ⟨advance_putSegment hseg ht, hnames, seg, hseg, fun a' ha' => ?_⟩
    rcases h a' ha' with h | h | h
    · exact .inl h
    · exact .inr (.inl h)
    · exact .inr (.inr (.inr h))

/-- The route of the slot `a` has been released, and `n` holders are left: the slot stays, its
manifest entry marked, or it is freed. -/
def RouteReleased (s : OwnerSegmentAllocator A) (id : ℕ) (a : OwnerAllocationState) (n : ℕ)
    (s' : OwnerSegmentAllocator A) : Prop :=
  (¬(n = 0 ∧ a.sourceReadLeaseCount = 0) ∧
      Run Update.Step s [.slotState id (.committed false n), .physicalState id .reclaiming] s') ∨
    (n = 0 ∧ a.sourceReadLeaseCount = 0 ∧ Update.Step s (.free id) s')

/-- The common tail of the calls that release a route. -/
theorem post_countRouteRelease {seg seg' : OwnerSegmentState A} {n m : ℕ}
    (hseg : s.segment = some seg) (ha : seg.allocation id = some a)
    (hstate : a.state = .committed true m)
    (hsettled : seg.Settled ((seg.setSlotState id (.committed false n)).setPhysicalState id
      .reclaiming) id a (.committed false n) seg') :
    Post (do
        if (← get).allocation id = none then
          decCommitted msg
        return true) (putSegment seg' s)
      (fun r s' => r = true ∧ s.RouteReleased id a n s')
      (fun _ s' => s.Advances s') := by
  simp only [post_bind, post_get]
  rcases hsettled with ⟨hkeep, rfl⟩ | ⟨hidle, hleases, rfl⟩
  · have hlive : (putSegment ((seg.setSlotState id (.committed false n)).setPhysicalState id
        .reclaiming) s).allocation id ≠ none := by
      simp [allocation, putSegment, allocation_unrouted _ ha]
    simp only [if_neg hlive, post_pure]
    refine ⟨trivial, .inl ⟨by simpa using hkeep, .cons (step_slotState hseg ha ?_ ?_)
      (.single ⟨_, rfl, rfl⟩)⟩⟩
    · simp [hstate]
    · simpa [OwnerAllocationState.Unreferenced] using hkeep
  · have hnone : (putSegment (seg.freed id a) s).allocation id = none := by
      simp [allocation, putSegment, allocation_freed]
    simp only [hnone, if_true, decCommitted, post_bind, post_pure]
    refine post_decSlots.mono ?_ ?_
    · rintro _ s' ⟨-, rfl⟩
      refine ⟨trivial, .inr ⟨by simpa using hidle, hleases, seg, a, hseg, ha, hleases,
        by simp [hstate], ?_⟩⟩
      rw [hstate]
      rfl
    · rintro _ s' ⟨rfl, -⟩
      exact advance_putSegment hseg rfl

theorem post_releaseCommittedSlotRoute :
    Post (releaseCommittedSlotRoute id segmentOffset capacityBytes) s
      (fun r s' => (¬s.NamesSlot id segmentOffset capacityBytes ∧ r = false ∧ s' = s) ∨
        ∃ seg a n, r = true ∧ s.NamesSlot id segmentOffset capacityBytes ∧
          s.segment = some seg ∧ seg.allocation id = some a ∧ a.state = .committed true n ∧
          s.RouteReleased id a n s')
      (fun _ s' => s.Advances s') := by
  refine post_withSlot (fun seg hseg hnames => ?_) fun h => .inl ⟨h, rfl, rfl⟩
  rw [onSegment, post_bind, post_onPart]
  refine OwnerSegmentState.post_releaseCommittedSlotRoute.mono ?_ ?_
  · rintro _ seg' ⟨a, n, ha, hstate, hsettled⟩
    refine (post_countRouteRelease hseg ha hstate hsettled).imp ?_
    rintro r s' ⟨rfl, h⟩
    exact .inr ⟨seg, a, n, rfl, hnames, hseg, ha, hstate, h⟩
  · rintro _ seg' ⟨ht, -⟩
    exact advance_putSegment hseg ht

theorem post_releaseCommittedResidentSlot :
    Post (releaseCommittedResidentSlot id segmentOffset capacityBytes) s
      (fun r s' => (¬s.NamesSlot id segmentOffset capacityBytes ∧ r = false ∧ s' = s) ∨
        ∃ seg a n, r = true ∧ s.NamesSlot id segmentOffset capacityBytes ∧
          s.segment = some seg ∧ seg.allocation id = some a ∧ a.state = .committed true (n + 1) ∧
          s.RouteReleased id a n s')
      (fun _ s' => s.Advances s') := by
  refine post_withSlot (fun seg hseg hnames => ?_) fun h => .inl ⟨h, rfl, rfl⟩
  rw [onSegment, post_bind, post_onPart]
  refine OwnerSegmentState.post_releaseCommittedResidentSlot.mono ?_ ?_
  · rintro _ seg' ⟨a, n, ha, hstate, hsettled⟩
    refine (post_countRouteRelease hseg ha hstate hsettled).imp ?_
    rintro r s' ⟨rfl, h⟩
    exact .inr ⟨seg, a, n, rfl, hnames, hseg, ha, hstate, h⟩
  · rintro _ seg' ⟨ht, -⟩
    exact advance_putSegment hseg ht

/-- The shared, committed manifest entry whose route `releaseDeletedGlobalManifestRoute` drops. -/
def DeletedRoute (s : OwnerSegmentAllocator A) (key : String) (putId : PutId)
    (e : OwnerSlotManifestEntry) : Prop :=
  s.manifestEntry key putId = some e ∧ e.scope = some .globalShared ∧ e.physicalState = .committed

theorem post_releaseDeletedGlobalManifestRoute {key : String} {putId : PutId} :
    Post (releaseDeletedGlobalManifestRoute key putId) s
      (fun _ s' => (s' = s ∧ ∀ e, ¬s.DeletedRoute key putId e) ∨
        ∃ e seg a n, s.DeletedRoute key putId e ∧ s.segment = some seg ∧
          seg.allocation e.slot.allocationId = some a ∧ a.state = .committed true n ∧
          s.RouteReleased e.slot.allocationId a n s')
      (fun _ s' => s.Advances s') := by
  simp only [releaseDeletedGlobalManifestRoute, post_bind, post_get]
  split
  · rename_i seg hseg
    have hentry : s.manifestEntry key putId = seg.manifestEntry key putId := by
      simp [manifestEntry, hseg]
    split
    · rename_i e he
      have hdel : ∀ e', s.DeletedRoute key putId e' → e' = e := fun e' h =>
        Option.some.inj (h.1.symm.trans (hentry.trans he))
      simp only [post_ite, post_bind, post_pure, post_expect]
      refine ⟨fun h => .inl ⟨trivial, fun e' he' => ?_⟩, fun h => ⟨fun a ha => ?_, fun _ => .refl _⟩⟩
      · obtain rfl := hdel e' he'
        rcases h with h | h
        · exact h he'.2.1
        · exact h he'.2.2
      push Not at h
      split
      · simp only [post_bind, post_pure, post_require]
        refine post_releaseCommittedSlotRoute.imp ?_
        rintro r s' (⟨-, rfl, rfl⟩ | ⟨seg', a', n', rfl, -, hseg', ha', hstate', hrel⟩)
        · exact ⟨fun h => by simp at h, fun _ => .refl _⟩
        · refine ⟨fun _ => .inr ⟨e, seg', a', n', ⟨hentry.trans he, h⟩, hseg', ha', hstate',
            hrel⟩, fun h => (h rfl).elim⟩
      · exact .refl _
    · rename_i hnone
      refine .inl ⟨rfl, fun e he => hnone e ?_⟩
      exact hentry.symm.trans he.1
  · rename_i hnone
    refine .inl ⟨rfl, fun e he => ?_⟩
    have hno : s.segment = none := Option.eq_none_iff_forall_ne_some.2 hnone
    simp [DeletedRoute, manifestEntry, hno] at he

end Slots

/-! ## Manifest and budget -/

section Budget

variable [OffsetAllocator A] {s : OwnerSegmentAllocator A}

/-- The manifest entry that `install_committed_manifest` installs. -/
def committedEntry (key : String) (putId : PutId) (slot : OwnerSlotDesc) (scope : OwnerSlotScope)
    (routeEpoch : ℕ) : OwnerSlotManifestEntry where
  key := key
  putId := putId
  slot := slot
  scope := some scope
  disposition := scope.disposition
  routeEpoch := routeEpoch
  physicalState := .committed

variable {scope : OwnerSlotScope}

/-- An entry that already names the slot under the key is left as it is. -/
theorem post_installCommittedManifest {key : String} {putId : PutId} {allocationId : ℕ}
    {routeEpoch : ℕ} :
    Post (installCommittedManifest key putId allocationId scope routeEpoch) s
      (fun r s' =>
        (s' = s ∧ ∀ slot, r = .ok slot → ∃ e, s.manifestEntry key putId = some e ∧ e.slot = slot) ∨
        ∃ slot, r = .ok slot ∧
          Update.Step s (.insertManifest (committedEntry key putId slot scope routeEpoch)) s')
      (fun _ _ => False) := by
  simp only [installCommittedManifest, post_bind, post_get]
  split
  · rename_i seg hseg
    split
    · rename_i slot hslot
      split
      · simp only [onSegment, post_bind, post_onPart]
        refine post_installManifestEntry.imp ?_
        rintro r seg' (⟨e, rfl, rfl, -⟩ | ⟨rfl, rfl, e, he, hsame⟩ |
          ⟨rfl, hvalid, hid, hkey, hslot', rfl⟩)
        · exact .inl ⟨putSegment_self hseg, nofun⟩
        · refine .inl ⟨putSegment_self hseg, fun slot' h => ⟨e, ?_, ?_⟩⟩
          · rw [manifestEntry, hseg]
            exact he
          · cases h
            exact hsame
        · exact .inr ⟨slot, rfl, seg, hseg, hvalid, hid, hkey, hslot', by simp [committedEntry], rfl⟩
      · exact .inl ⟨rfl, by rintro _ ⟨⟩⟩
    · exact .inl ⟨rfl, by rintro _ ⟨⟩⟩
  · exact .inl ⟨rfl, by rintro _ ⟨⟩⟩

variable {r : DemotionRequest}

/-- A committed entry changes its scope; to the shared scope only if it already is shared, or
without a budget reservation. -/
theorem post_updateCommittedManifestScopeInner {allow : Bool} :
    Post (updateCommittedManifestScopeInner r scope allow) s
      (fun _ s' => s' = s ∨ ∃ seg e, s.segment = some seg ∧
        seg.manifestByKey.lookup r.manifestKey = some e ∧
        (scope = .globalShared → e.scope = some .globalShared ∨ allow = true) ∧
        Update.Step s (.scope r.manifestKey scope) s')
      (fun _ _ => False) := by
  simp only [updateCommittedManifestScopeInner, post_bind, post_get]
  split
  · rename_i seg hseg
    split
    · rename_i e he
      simp only [post_ite, post_pure, post_bind, post_modify]
      refine ⟨fun _ => .inl trivial, fun _ => ⟨fun _ => .inl trivial, fun h => .inr
        ⟨seg, e, hseg, he, fun hscope => ?_, seg, e, hseg, he, rfl⟩⟩⟩
      by_contra hcon
      push Not at hcon
      exact h ⟨hscope, hcon.1, by simpa using hcon.2⟩
    · exact .inl rfl
  · exact .inl rfl

/-- A batch inserts reservations while the running total stays within the budget. -/
theorem tryReserveGlobalDemotions_run (requests : List DemotionRequest) (accounted : ℕ)
    (hseg : s.segment = some seg) :
    ∃ us, Run Update.Step s us (putSegment
        (seg.tryReserveGlobalDemotions s.localTargetBytes requests accounted).2 s) ∧
      (∀ u ∈ us, ∃ key slot, u = .reserve key slot) ∧
      (us ≠ [] → accounted + (us.map Update.spentBytes).sum ≤ seg.len - s.localTargetBytes) := by
  induction requests generalizing s seg accounted with
  | nil =>
    refine ⟨[], ?_, by simp, by simp⟩
    rw [OwnerSegmentState.tryReserveGlobalDemotions, putSegment_self hseg]
    exact .nil s
  | cons r rs ih =>
    simp only [OwnerSegmentState.tryReserveGlobalDemotions]
    rcases OwnerSegmentState.tryReserveGlobalDemotion_cases seg s.localTargetBytes r accounted with
      h | ⟨e, he, hlocal, hres, -, hle, h⟩
    · rw [h]
      exact ih accounted hseg
    rw [h]
    have hstep : Update.Step s (.reserve r.manifestKey e.slot)
        (putSegment (seg.reserved r.manifestKey e.slot) s) :=
      ⟨seg, e, hseg, he, rfl, hlocal, hres, rfl⟩
    obtain ⟨us, hrun, hus, hsum⟩ := ih (s := putSegment (seg.reserved r.manifestKey e.slot) s)
      (accounted + e.slot.capacityBytes) rfl
    refine ⟨.reserve r.manifestKey e.slot :: us, .cons hstep hrun, ?_, fun _ => ?_⟩
    · rintro u (_ | ⟨_, hu⟩)
      · exact ⟨_, _, rfl⟩
      · exact hus u hu
    by_cases hnil : us = []
    · simpa [hnil, Update.spentBytes] using hle
    · have := hsum hnil
      simp only [List.map_cons, List.sum_cons, Update.spentBytes]
      rw [← Nat.add_assoc]
      exact this

theorem post_tryReserveGlobalDemotions {requests : List DemotionRequest} :
    Post (tryReserveGlobalDemotions requests) s
      (fun _ s' => ∃ us, Run Update.Step s us s' ∧ (∀ u ∈ us, ∃ key slot, u = .reserve key slot) ∧
        (us ≠ [] → ∃ seg, s.segment = some seg ∧
          seg.globalAccountedBytes + (us.map Update.spentBytes).sum ≤ seg.len - s.localTargetBytes))
      (fun _ _ => False) := by
  simp only [tryReserveGlobalDemotions, post_bind, post_get]
  split
  · rename_i seg hseg
    obtain ⟨us, hrun, hus, hsum⟩ := tryReserveGlobalDemotions_run requests
      seg.globalAccountedBytes hseg
    exact ⟨us, hrun, hus, fun h => ⟨seg, hseg, hsum h⟩⟩
  · exact ⟨[], .nil s, by simp, by simp⟩

theorem post_tryReserveGlobalDemotion : Post (tryReserveGlobalDemotion r) s
      (fun _ s' => ∃ us, Run Update.Step s us s' ∧ (∀ u ∈ us, ∃ key slot, u = .reserve key slot) ∧
        (us ≠ [] → ∃ seg, s.segment = some seg ∧
          seg.globalAccountedBytes + (us.map Update.spentBytes).sum ≤ seg.len - s.localTargetBytes))
      (fun _ s' => s.Advances s') := by
  simp only [tryReserveGlobalDemotion, post_bind, post_expect]
  refine post_tryReserveGlobalDemotions.mono ?_ fun _ _ h => h.elim
  rintro results s' h
  obtain ⟨us, hrun, -⟩ := id h
  exact ⟨fun _ _ => h, fun _ => Update.advances_of_run hrun⟩

theorem post_releaseGlobalDemotionReservation : Post (releaseGlobalDemotionReservation r) s
      (fun _ s' => s' = s ∨ Update.Step s (.unreserve r.manifestKey) s') (fun _ _ => False) := by
  simp only [releaseGlobalDemotionReservation, post_bind, post_get]
  split
  · rename_i seg hseg
    simp only [post_ite, post_pure, post_bind, post_modify]
    exact ⟨fun _ => .inr ⟨seg, hseg, rfl⟩, fun _ => .inl trivial⟩
  · exact .inl rfl

omit [OffsetAllocator A] in
theorem validateGlobalDemotionReservation_ok (h : s.validateGlobalDemotionReservation r = .ok ()) :
    ∃ seg e, s.segment = some seg ∧ seg.manifestByKey.lookup r.manifestKey = some e ∧
      r.names e.slot = true ∧ (e.scope = some .globalShared ∨
        ∃ slot, seg.globalDemotionReservations.lookup r.manifestKey = some slot ∧
          r.names slot = true) := by
  simp only [validateGlobalDemotionReservation] at h
  split at h
  · rename_i seg hseg
    split at h
    · rename_i e he
      split at h
      · cases h
      rename_i hnames
      push Not at hnames
      refine ⟨seg, e, hseg, he, by simpa using hnames.1, ?_⟩
      split at h
      · exact .inl ‹_›
      · split at h
        · cases h
        · rename_i hres
          exact .inr (by simpa [Option.any_eq_true] using hres)
    · cases h
  · cases h

/-- A commit makes the entry shared and drops its reservation. It needs a reservation that names
the slot, unless the entry is shared already. -/
theorem post_commitReservedGlobalDemotion : Post (commitReservedGlobalDemotion r) s
      (fun _ s' => s' = s ∨ ∃ seg e, s.segment = some seg ∧
        seg.manifestByKey.lookup r.manifestKey = some e ∧ r.names e.slot = true ∧
        (e.scope = some .globalShared ∨
          ∃ slot, seg.globalDemotionReservations.lookup r.manifestKey = some slot ∧
            r.names slot = true) ∧
        Run Update.Step s [.scope r.manifestKey .globalShared, .unreserve r.manifestKey] s')
      (fun _ _ => False) := by
  simp only [commitReservedGlobalDemotion, post_bind, post_get]
  split
  · exact .inl rfl
  rename_i hok
  obtain ⟨seg, e, hseg, he, hnames, hres⟩ := validateGlobalDemotionReservation_ok hok
  simp only [post_bind, post_expect, post_modify, post_pure, hseg, he, Option.some.injEq,
    reduceCtorEq, false_imp_iff, and_true, forall_eq']
  exact .inr ⟨seg, e, rfl, he, hnames, hres, .cons ⟨seg, e, hseg, he, rfl⟩ (.single ⟨_, rfl, rfl⟩)⟩

theorem post_applyTargetControl {controllerEpoch bytes : ℕ} :
    Post (applyTargetControl controllerEpoch bytes) s
      (fun _ s' => s' = s ∨ Update.Step s (.localTarget bytes) s') (fun _ _ => False) := by
  simp only [applyTargetControl, post_bind, post_get]
  split
  · simp only [post_ite, post_pure]
    refine ⟨fun _ => .inl trivial, fun _ => ⟨fun _ => ⟨fun _ => .inl trivial, fun _ => .inl trivial⟩,
      fun _ => ?_⟩⟩
    split
    · simp only [post_ite, post_bind, post_pure, post_modify]
      exact ⟨fun _ => .inl trivial, fun _ => ⟨fun _ => .inl trivial, fun _ =>
        .inr ⟨rfl, rfl, rfl, rfl⟩⟩⟩
    · exact .inl rfl
  · exact .inl rfl

theorem post_trackCapacityReportSizeClasses {sizeClasses : List ℕ} :
    Post (trackCapacityReportSizeClasses sizeClasses) s
      (fun _ s' => s' = s ∨ Update.Step s .bookkeeping s') (fun _ _ => False) := by
  unfold trackCapacityReportSizeClasses
  split
  · exact .inl rfl
  · exact .inr ⟨rfl, rfl, rfl, rfl⟩

end Budget

end OwnerSegmentAllocator

end Fluxon.OwnerSegment
