import Fluxon.OwnerSegment.Invariant

/-!
# Source-lease safety

A resident slot is kept by three kinds of references: its route, its holders and the source
leases of transfers that read it. Five calls release references, in any order. `OwnerCall.drops`
says which slot such a call names and what it takes from the slot's references. The main result,
`source_lease_safety`, holds in every state that an installed segment reaches:

* the lease count of a slot is the number of active leases that name it;
* a slot with a reference is live, its range is outstanding at the offset allocator, and no claim
  is handed a range that meets it;
* a resident slot is freed by exactly the release that drops its last reference.
-/

namespace Fluxon.OwnerSegment

open OwnerAllocationState OwnerCall

open OffsetAllocator LawfulOffsetAllocator OwnerSegmentState OwnerSegmentAllocator

variable {A : Type}

/-- What keeps a slot. -/
structure References where
  routeLive : Bool
  holders : ℕ
  leases : ℕ
  deriving DecidableEq

namespace References

/-- No reference is left. -/
def gone : References := ⟨false, 0, 0⟩

variable (x : References)

def dropRoute : References := { x with routeLive := false }

def dropHolder : References := { x with holders := x.holders - 1 }

def dropLease : References := { x with leases := x.leases - 1 }

end References

namespace OwnerAllocationState

/-- The references of a slot. -/
def references (a : OwnerAllocationState) : References where
  routeLive := match a.state with
    | .committed routeLive _ => routeLive
    | .prepared | .pendingLocalVisible _ => false
  holders := a.state.holders
  leases := a.sourceReadLeaseCount

theorem references_eq_gone {a : OwnerAllocationState} (h : a.state ≠ .prepared) :
    a.references = .gone ↔ a.state.idle = true ∧ a.sourceReadLeaseCount = 0 := by
  unfold references References.gone
  cases hstate : a.state with
  | prepared => exact (h hstate).elim
  | pendingLocalVisible n => simp
  | committed routeLive n => simp [and_assoc]

/-- A slot with one holder less. -/
theorem references_withHolders (a : OwnerAllocationState) :
    ({ a with state := a.state.withHolders (a.state.holders - 1) } :
      OwnerAllocationState).references = a.references.dropHolder := by
  unfold references References.dropHolder
  cases a.state <;> rfl

end OwnerAllocationState

/-- The slot that a release names and what the release takes from its references. A release whose
slot, lease or manifest entry is not there names nothing. -/
def OwnerCall.drops (seg : OwnerSegmentState A) : OwnerCall → Option (ℕ × (References → References))
  | releaseSource op leaseId _ => do
    let r ← seg.sourceLeases.lookup op
    if r.leaseId = leaseId ∧ r.state = .active then
      some (r.routeToken.source.allocationId, .dropLease)
    else none
  | releaseResidentSlotHolder id segmentOffset capacityBytes =>
    if seg.identityMatches id segmentOffset capacityBytes then some (id, .dropHolder) else none
  | releaseCommittedSlotRoute id segmentOffset capacityBytes =>
    if seg.identityMatches id segmentOffset capacityBytes then some (id, .dropRoute) else none
  | releaseCommittedResidentSlot id segmentOffset capacityBytes =>
    if seg.identityMatches id segmentOffset capacityBytes then
      some (id, fun x => x.dropRoute.dropHolder)
    else none
  | releaseDeletedGlobalManifestRoute key putId => do
    let e ← seg.manifestEntry key putId
    if e.scope = some .globalShared ∧ e.physicalState = .committed then
      some (e.slot.allocationId, .dropRoute)
    else none
  | _ => none

namespace OwnerSegmentState

/-- The references of a slot have become `left`: it is freed if none is left and stays otherwise.
Every other slot is unchanged. -/
def Settles (seg seg' : OwnerSegmentState A) (id : ℕ) (a : OwnerAllocationState)
    (left : References) : Prop :=
  (∀ id', id' ≠ id → seg'.allocation id' = seg.allocation id') ∧
    (left = .gone → seg'.allocation id = none) ∧
    (left ≠ .gone → ∃ a', seg'.allocation id = some a' ∧ a'.references = left ∧ SameRange a' a)

/-- The slot has an active source lease, a live route or a holder. -/
def Kept (seg : OwnerSegmentState A) (id : ℕ) : Prop :=
  (∃ op r, seg.sourceLeases.lookup op = some r ∧ r.state = .active ∧
      r.routeToken.source.allocationId = id) ∨
    ∃ a, seg.allocation id = some a ∧ ((∃ n, a.state = .committed true n) ∨ 0 < a.state.holders)

variable {seg : OwnerSegmentState A} {s s' : OwnerSegmentAllocator A} {id : ℕ}
  {a : OwnerAllocationState} {left : References}

theorem settles_of_free [OffsetAllocator A] (hs : s.segment = some seg)
    (h : Update.Step s (.free id) s') (hleft : left = .gone) :
    ∃ seg', s'.segment = some seg' ∧ seg.Settles seg' id a left := by
  obtain ⟨seg₀, b, hseg, -, -, -, rfl⟩ := h
  cases hs.symm.trans hseg
  refine ⟨seg.freed id b, by simp [putSegment], fun id' hne => ?_, fun _ => ?_,
    fun hne => (hne hleft).elim⟩
  · rw [allocation_freed, if_neg hne]
  · rw [allocation_freed, if_pos rfl]

variable {state : OwnerSlotState}

theorem settles_setSlotState (ha : seg.allocation id = some a)
    (hreferences : ({ a with state } : OwnerAllocationState).references = left)
    (hleft : left ≠ .gone) : seg.Settles (seg.setSlotState id state) id a left := by
  refine ⟨fun id' hne => ?_, fun h => (hleft h).elim, fun _ => ⟨{ a with state }, ?_, hreferences,
    ⟨rfl, rfl, rfl, rfl, rfl⟩⟩⟩
  · rw [setSlotState, allocation_updateAllocation, if_neg hne]
  · rw [setSlotState, allocation_updateAllocation, if_pos rfl, ha]
    rfl

theorem settles_of_slotState [OffsetAllocator A] (hs : s.segment = some seg)
    (ha : seg.allocation id = some a) (h : Update.Step s (.slotState id state) s')
    (hreferences : ({ a with state } : OwnerAllocationState).references = left)
    (hleft : left ≠ .gone) : ∃ seg', s'.segment = some seg' ∧ seg.Settles seg' id a left := by
  obtain ⟨seg₀, b, hseg, -, -, -, rfl⟩ := h
  cases hs.symm.trans hseg
  exact ⟨_, by simp [putSegment], settles_setSlotState ha hreferences hleft⟩

/-- A released route leaves `n` holders and the leases. -/
theorem settles_of_routeReleased [OffsetAllocator A] {n : ℕ} (hs : s.segment = some seg)
    (ha : seg.allocation id = some a) (h : s.RouteReleased id a n s') :
    ∃ seg', s'.segment = some seg' ∧ seg.Settles seg' id a ⟨false, n, a.sourceReadLeaseCount⟩ := by
  rcases h with ⟨hkeep, hrun⟩ | ⟨rfl, hleases, hstep⟩
  · cases hrun with
    | cons hstate hrest =>
      cases hrest with
      | cons hphysical hnil =>
        cases hnil
        obtain ⟨seg₁, hs₁, hother, -, hleft⟩ := settles_of_slotState hs ha hstate rfl
          (by simpa [References.gone, references] using hkeep)
        obtain ⟨seg₁', hseg₁', rfl⟩ := hphysical
        cases hs₁.symm.trans hseg₁'
        have hallocation := fun id' => seg₁.allocation_setPhysicalState id id' .reclaiming
        refine ⟨_, rfl, ?_, ?_, ?_⟩
        · intro id' hne
          rw [hallocation, hother id' hne]
        · intro hgone
          exact (hkeep (by simpa [References.gone] using hgone)).elim
        · rw [hallocation]
          exact hleft
  · exact settles_of_free hs hstep (by rw [hleases]; rfl)

end OwnerSegmentState

namespace OwnerSegmentAllocator

variable {s s' : OwnerSegmentAllocator A} {seg : OwnerSegmentState A}

theorem namesSlot_iff (hs : s.segment = some seg) (id segmentOffset capacityBytes : ℕ) :
    s.NamesSlot id segmentOffset capacityBytes ↔
      seg.identityMatches id segmentOffset capacityBytes = true := by
  simp [NamesSlot, hs]

/-- What a release that returns has done: nothing if it names nothing, else it has dropped what it
says from a resident slot. -/
def Released (s : OwnerSegmentAllocator A) (seg : OwnerSegmentState A) (c : OwnerCall)
    (s' : OwnerSegmentAllocator A) : Prop :=
  (c.drops seg = none ∧ s' = s) ∨
    ∃ id f a seg', c.drops seg = some (id, f) ∧ seg.allocation id = some a ∧
      s'.segment = some seg' ∧ seg.Settles seg' id a (f a.references)

variable [OffsetAllocator A]

theorem released_releaseSource {op : OwnerTransferOpId} {leaseId : OwnerLeaseId}
    {outcome : OwnerTransferOutcome} (hs : s.segment = some seg) (hinv : LeasesInv seg)
    (h : s.Returns (.releaseSource op leaseId outcome) s') :
    s.Released seg (.releaseSource op leaseId outcome) s' := by
  obtain ⟨_, hok⟩ := ignore_eq_ok.1 h
  rcases post_releaseSource.of_ok hok with ⟨rfl, hidle⟩ | ⟨seg₀, r, a, hseg, hr, hlease, hactive, ha, hcases⟩
  · refine .inl ⟨?_, rfl⟩
    cases hr : seg.sourceLeases.lookup op with
    | none => simp [drops, hr]
    | some r =>
      simp only [drops, hr, Option.bind_eq_bind, Option.bind_some,
        ite_eq_right_iff, reduceCtorEq, imp_false]
      rintro ⟨hlease, hactive⟩
      -- an active lease is counted, so the call had something to release
      obtain ⟨a, ha, -⟩ := hinv.live op r hr hactive
      have hzero := hidle seg r hs hr hlease hactive a ha
      rw [hinv.count _ a ha] at hzero
      exact (activeLeases_pos hr hactive).ne' hzero
  · cases hs.symm.trans hseg
    have hdrops : (OwnerCall.releaseSource op leaseId outcome).drops seg =
        some (r.routeToken.source.allocationId, .dropLease) := by
      simp [OwnerCall.drops, hr, hlease, hactive]
    rcases hcases with ⟨hpos, hkeep, hstep⟩ | ⟨hone, hstate, hstep⟩
    · obtain ⟨seg₁, r₁, a₁, hseg₁, hr₁, -, ha₁, -, -, rfl⟩ := hstep
      cases hs.symm.trans hseg₁
      cases hr.symm.trans hr₁
      cases ha.symm.trans ha₁
      refine .inr ⟨_, _, a, _, hdrops, ha, rfl, fun id' hne => ?_, fun hgone => ?_, fun _ => ?_⟩
      · exact (allocation_updateAllocation _ _ _ _).trans (if_neg hne)
      · refine (hkeep ?_).elim
        have hleases : a.sourceReadLeaseCount - 1 = 0 := congrArg References.leases hgone
        refine ⟨by omega, ?_⟩
        obtain ⟨b, hb, hkind⟩ := hinv.live op r hr hactive
        cases ha.symm.trans hb
        have hroute := congrArg References.routeLive hgone
        have hholders := congrArg References.holders hgone
        cases hstate : a.state with
        | prepared | pendingLocalVisible => simp [hstate] at hkind
        | committed routeLive n =>
          simp only [References.dropLease, references, References.gone, hstate,
            OwnerSlotState.holders] at hroute hholders
          rw [hroute, hholders]
      · refine ⟨{ a with sourceReadLeaseCount := a.sourceReadLeaseCount - 1 }, ?_, rfl,
          ⟨rfl, rfl, rfl, rfl, rfl⟩⟩
        refine (allocation_updateAllocation _ _ _ _).trans ((if_pos rfl).trans ?_)
        rw [ha]
        rfl
    · obtain ⟨seg₁, r₁, a₁, hseg₁, hr₁, -, ha₁, -, -, rfl⟩ := hstep
      cases hs.symm.trans hseg₁
      cases hr.symm.trans hr₁
      cases ha.symm.trans ha₁
      refine .inr ⟨_, _, a, (seg.setSourceLeaseState op (.released outcome)).freed
        r.routeToken.source.allocationId a, hdrops, ha, by simp [putSegment],
        fun id' hne => ?_, fun _ => ?_, fun hleft => (hleft ?_).elim⟩
      · rw [allocation_freed, if_neg hne]
        rfl
      · rw [allocation_freed, if_pos rfl]
      · simp [References.dropLease, references, References.gone, hstate, hone]

variable {id segmentOffset capacityBytes : ℕ} {c : OwnerCall} {a : OwnerAllocationState}

variable (hs : s.segment = some seg)
include hs

theorem released_releaseResidentSlotHolder
    (h : s.Returns (.releaseResidentSlotHolder id segmentOffset capacityBytes) s') :
    s.Released seg (.releaseResidentSlotHolder id segmentOffset capacityBytes) s' := by
  obtain ⟨_, hok⟩ := ignore_eq_ok.1 h
  rcases post_releaseResidentSlotHolder.of_ok hok with ⟨hnames, -, rfl⟩ |
    ⟨seg₀, a, -, hnames, hseg, ha, hresident, hpos, hcases⟩
  · rw [namesSlot_iff hs] at hnames
    exact .inl ⟨by simp [drops, hnames], rfl⟩
  cases hs.symm.trans hseg
  rw [namesSlot_iff hs] at hnames
  have hdrops : (OwnerCall.releaseResidentSlotHolder id segmentOffset capacityBytes).drops seg =
      some (id, .dropHolder) := by
    simp [OwnerCall.drops, hnames]
  have hresident' : ({ a with state := a.state.withHolders (a.state.holders - 1) } :
      OwnerAllocationState).state ≠ .prepared := by
    cases hstate : a.state <;> simp_all
  have hgone := references_eq_gone hresident'
  rw [a.references_withHolders] at hgone
  rcases hcases with ⟨hkeep, hstep⟩ | ⟨hidle, hleases, hstep⟩
  · obtain ⟨seg', hseg', hsettles⟩ := settles_of_slotState hs ha hstep a.references_withHolders
      fun h => hkeep (hgone.1 h)
    exact .inr ⟨id, _, a, seg', hdrops, ha, hseg', hsettles⟩
  · obtain ⟨seg', hseg', hsettles⟩ := settles_of_free hs hstep (hgone.2 ⟨hidle, hleases⟩)
    exact .inr ⟨id, _, a, seg', hdrops, ha, hseg', hsettles⟩

/-- The releases of a route: they name a committed slot with a live route. -/
theorem released_of_routeReleased {n : ℕ} {f : References → References}
    (hdrops : c.drops seg = some (id, f)) (ha : seg.allocation id = some a)
    (hf : f a.references = ⟨false, n, a.sourceReadLeaseCount⟩) (h : s.RouteReleased id a n s') :
    s.Released seg c s' := by
  obtain ⟨seg', hseg', hsettles⟩ := settles_of_routeReleased hs ha h
  rw [← hf] at hsettles
  exact .inr ⟨id, f, a, seg', hdrops, ha, hseg', hsettles⟩

theorem released_releaseCommittedSlotRoute
    (h : s.Returns (.releaseCommittedSlotRoute id segmentOffset capacityBytes) s') :
    s.Released seg (.releaseCommittedSlotRoute id segmentOffset capacityBytes) s' := by
  obtain ⟨_, hok⟩ := ignore_eq_ok.1 h
  rcases post_releaseCommittedSlotRoute.of_ok hok with ⟨hnames, -, rfl⟩ |
    ⟨seg₀, a, n, -, hnames, hseg, ha, hstate, hreleased⟩
  · rw [namesSlot_iff hs] at hnames
    exact .inl ⟨by simp [drops, hnames], rfl⟩
  · cases hs.symm.trans hseg
    rw [namesSlot_iff hs] at hnames
    refine released_of_routeReleased (f := .dropRoute) hs (by simp [drops, hnames]) ha ?_
      hreleased
    simp [References.dropRoute, references, hstate]

theorem released_releaseCommittedResidentSlot
    (h : s.Returns (.releaseCommittedResidentSlot id segmentOffset capacityBytes) s') :
    s.Released seg (.releaseCommittedResidentSlot id segmentOffset capacityBytes) s' := by
  obtain ⟨_, hok⟩ := ignore_eq_ok.1 h
  rcases post_releaseCommittedResidentSlot.of_ok hok with ⟨hnames, -, rfl⟩ |
    ⟨seg₀, a, n, -, hnames, hseg, ha, hstate, hreleased⟩
  · rw [namesSlot_iff hs] at hnames
    exact .inl ⟨by simp [drops, hnames], rfl⟩
  · cases hs.symm.trans hseg
    rw [namesSlot_iff hs] at hnames
    refine released_of_routeReleased (f := fun x => x.dropRoute.dropHolder) hs
      (by simp [drops, hnames]) ha ?_ hreleased
    simp [References.dropRoute, References.dropHolder, references, hstate]

theorem released_releaseDeletedGlobalManifestRoute {key : String} {putId : PutId}
    (h : s.Returns (.releaseDeletedGlobalManifestRoute key putId) s') :
    s.Released seg (.releaseDeletedGlobalManifestRoute key putId) s' := by
  have hentry : s.manifestEntry key putId = seg.manifestEntry key putId := by
    simp [OwnerSegmentAllocator.manifestEntry, hs]
  obtain ⟨_, hok⟩ := ignore_eq_ok.1 h
  rcases post_releaseDeletedGlobalManifestRoute.of_ok hok with ⟨rfl, hnone⟩ |
    ⟨e, seg₀, a, n, ⟨he, hscope, hphysical⟩, hseg, ha, hstate, hreleased⟩
  · refine .inl ⟨?_, rfl⟩
    cases he : seg.manifestEntry key putId with
    | none => simp [drops, he]
    | some e =>
      simp only [drops, he, Option.bind_eq_bind, Option.bind_some,
        ite_eq_right_iff, reduceCtorEq, imp_false]
      exact fun h => hnone e ⟨hentry.trans he, h⟩
  · cases hs.symm.trans hseg
    rw [hentry] at he
    refine released_of_routeReleased (f := .dropRoute) hs
      (by simp [drops, he, hscope, hphysical]) ha ?_ hreleased
    simp [References.dropRoute, references, hstate]

/-- **What a release does.** -/
theorem Returns.released (h : s.Returns c s') (hinv : LeasesInv seg)
    (hc : c.releases = true) : s.Released seg c s' := by
  cases c with
  | releaseSource op leaseId outcome => exact released_releaseSource hs hinv h
  | releaseResidentSlotHolder => exact released_releaseResidentSlotHolder hs h
  | releaseCommittedSlotRoute => exact released_releaseCommittedSlotRoute hs h
  | releaseCommittedResidentSlot => exact released_releaseCommittedResidentSlot hs h
  | releaseDeletedGlobalManifestRoute => exact released_releaseDeletedGlobalManifestRoute hs h
  | _ => cases hc

/-- A resident slot survives every update that frees none. -/
theorem resident_of_step {u : Update} (h : Update.Step s u s') (hu : u.freesResident = false)
    (ha : seg.allocation id = some a) (hresident : a.state.kind ≠ .prepared) :
    ∃ seg' a', s'.segment = some seg' ∧ seg'.allocation id = some a' ∧
      a'.state.kind ≠ .prepared ∧ SameRange a' a := by
  obtain ⟨seg', hs', hchange⟩ := h.slotChange hs
  rcases hchange.slot ha with ⟨a', ha', hsame, hrank, -⟩ | ⟨-, -, hfree⟩
  · exact ⟨seg', a', hs', ha', SlotKind.ne_prepared_of_rank_le hrank hresident, hsame⟩
  · rw [hu] at hfree
    exact (hresident (by simp [not_not.1 fun hne => Bool.noConfusion (hfree hne)])).elim

/-- A resident slot survives every call that is not a release. -/
theorem Returns.resident (h : s.Returns c s') (hc : c.releases = false)
    (ha : seg.allocation id = some a) (hresident : a.state.kind ≠ .prepared) :
    ∃ seg' a', s'.segment = some seg' ∧ seg'.allocation id = some a' ∧ SameRange a' a := by
  obtain ⟨us, hrun, huses⟩ := (post_exec c (by simp [hs])).of_ok h
  suffices ∃ seg' a', s'.segment = some seg' ∧ seg'.allocation id = some a' ∧
      a'.state.kind ≠ .prepared ∧ SameRange a' a by
    obtain ⟨seg', a', hs', ha', -, hsame⟩ := this
    exact ⟨seg', a', hs', ha', hsame⟩
  -- along the updates, with the slot resident and in the same range at every state
  clear h
  induction hrun generalizing seg a with
  | nil => exact ⟨seg, a, hs, ha, hresident, .refl a⟩
  | @cons s₁ s₂ s₃ u us hstep _ ih =>
    have hu : u.freesResident = false := by
      have := (huses u (by simp)).1
      rw [hc] at this
      simpa using this
    obtain ⟨seg₂, a₂, hs₂, ha₂, hres₂, hsame₂⟩ := resident_of_step hs hstep hu ha hresident
    obtain ⟨seg', a', hs', ha', hres', hsame'⟩ := ih hs₂ ha₂ hres₂ fun u hu =>
      huses u (List.mem_cons_of_mem _ hu)
    exact ⟨seg', a', hs', ha', hres', hsame'.trans hsame₂⟩

end OwnerSegmentAllocator

/-! ## The main result -/

section Lawful

variable [OffsetAllocator A] [LawfulOffsetAllocator A]

/-- What holds of the slots and source leases in every state. -/
structure OwnerSegmentState.LeaseSafe (seg : OwnerSegmentState A) : Prop where
  /-- The lease count of a slot is the number of active leases that name it. -/
  counted : ∀ id a, seg.allocation id = some a → a.sourceReadLeaseCount = seg.activeLeases id
  /-- The ranges of the live slots are the ones outstanding at the offset allocator. -/
  outstanding : Tracks seg.allocator (seg.len / granularityBytes) seg.extents
  /-- A slot that is kept is live, and nothing the offset allocator hands out meets its range. -/
  live : ∀ id, seg.Kept id → ∃ a, seg.allocation id = some a ∧
    (a.allocation, a.units) ∈ seg.extents ∧ ∀ n x allocator, 0 < n →
      allocate seg.allocator n = some (x, allocator) →
      RangesDisjoint x.offset n a.allocation.offset a.units
  /-- No committed slot without references is left behind. -/
  referenced : ∀ id a, seg.allocation id = some a → a.state.kind = .committed → a.references ≠ .gone

/-- What holds of every call that returns. -/
structure OwnerCall.LeaseSafe (c : OwnerCall) (seg seg' : OwnerSegmentState A) : Prop where
  /-- A resident slot is freed by exactly the release that drops its last reference. -/
  freed : ∀ id a, seg.allocation id = some a → a.state ≠ .prepared →
    (seg'.allocation id = none ↔ ∃ f, c.drops seg = some (id, f) ∧ f a.references = .gone)
  /-- A release that leaves references keeps the slot with these. -/
  left : ∀ id a f, seg.allocation id = some a → c.drops seg = some (id, f) →
    f a.references ≠ .gone → ∃ a', seg'.allocation id = some a' ∧ a'.references = f a.references
  /-- A slot that the call claims does not meet a slot that was kept. -/
  claimed : ∀ id id' a a', seg.Kept id → seg.allocation id = some a →
    seg.allocation id' = none → seg'.allocation id' = some a' →
    RangesDisjoint a'.segmentOffset a'.capacityBytes a.segmentOffset a.capacityBytes

namespace OwnerSegmentAllocator

variable {s s' : OwnerSegmentAllocator A} {seg seg' : OwnerSegmentState A}

/-- A slot that is kept is live and resident. -/
theorem Inv.kept (h : s.Inv seg) {id : ℕ} (hkept : seg.Kept id) :
    ∃ a, seg.allocation id = some a ∧ a.state.kind ≠ .prepared := by
  rcases hkept with ⟨op, r, hr, hactive, rfl⟩ | ⟨a, ha, ⟨n, hstate⟩ | hholders⟩
  · obtain ⟨a, ha, hkind⟩ := h.tables.leases.live op r hr hactive
    exact ⟨a, ha, by rw [hkind]; nofun⟩
  · exact ⟨a, ha, by simp [hstate]⟩
  · cases hstate : a.state <;> simp_all

theorem Inv.leaseSafe (h : s.Inv seg) : seg.LeaseSafe := by
  refine ⟨h.tables.leases.count, h.slots.tracks, fun id hkept => ?_, fun id a ha hkind hgone => ?_⟩
  · obtain ⟨a, ha, -⟩ := h.kept hkept
    have hmem : (a.allocation, a.units) ∈ seg.extents := Table.mem_image.2 ⟨id, a, ha, rfl⟩
    exact ⟨a, ha, hmem, fun n x allocator hn hx => allocate_disjoint h.slots.tracks hn hx _ hmem⟩
  · have hresident : a.state ≠ .prepared := fun hstate => by simp [hstate] at hkind
    obtain ⟨hidle, hleases⟩ := (references_eq_gone hresident).1 hgone
    refine h.tables.leases.referenced id a ha ⟨?_, hleases⟩
    cases hstate : a.state <;> simp_all

variable {c : OwnerCall}

/-- A release does what `drops` says, and nothing else changes its slots. -/
theorem Inv.leaseSafe_released (h : s.Inv seg) (hs' : s'.segment = some seg')
    (hreleased : s.Released seg c s') : c.LeaseSafe seg seg' := by
  rcases hreleased with ⟨hnone, rfl⟩ | ⟨id₀, f₀, a₀, seg₀, hdrops, ha₀, hseg₀, hother, hgone, hleft⟩
  · cases h.segment_eq.symm.trans hs'
    refine ⟨fun id a ha _ => ?_, fun id a f _ hf => ?_, fun id id' a a' _ _ hid' ha' => ?_⟩
    · simp [ha, hnone]
    · rw [hnone] at hf
      cases hf
    · rw [hid'] at ha'
      cases ha'
  · cases hs'.symm.trans hseg₀
    refine ⟨fun id a ha _ => ?_, fun id a f ha hf hne => ?_, fun id id' a a' _ _ hid' ha' => ?_⟩
    · by_cases hid : id = id₀
      · subst hid
        cases ha.symm.trans ha₀
        refine ⟨fun hfreed => ⟨f₀, hdrops, ?_⟩, fun ⟨f, hf, hf'⟩ => ?_⟩
        · by_contra hne
          obtain ⟨a', ha', -⟩ := hleft hne
          rw [hfreed] at ha'
          cases ha'
        · cases hdrops.symm.trans hf
          exact hgone hf'
      · rw [hother id hid, ha]
        refine ⟨nofun, fun ⟨f, hf, _⟩ => ?_⟩
        cases hdrops.symm.trans hf
        exact (hid rfl).elim
    · cases hdrops.symm.trans hf
      cases ha.symm.trans ha₀
      obtain ⟨a', ha', hreferences, -⟩ := hleft hne
      exact ⟨a', ha', hreferences⟩
    · rw [hother id' fun heq => ?_, hid'] at ha'
      · cases ha'
      · rw [heq, ha₀] at hid'
        cases hid'

/-- A call that is not a release frees no resident slot, and what it claims is disjoint from what
was live. -/
theorem Inv.leaseSafe_of_resident (h : s.Inv seg) (h' : s'.Inv seg') (hdrops : c.drops seg = none)
    (hstays : ∀ id a, seg.allocation id = some a → a.state.kind ≠ .prepared →
      ∃ a', seg'.allocation id = some a' ∧ SameRange a' a) : c.LeaseSafe seg seg' := by
  refine ⟨fun id a ha hresident => ?_, fun id a f _ hf => ?_,
    fun id id' a a' hkept ha hid' ha' => ?_⟩
  · have hkind : a.state.kind ≠ .prepared := by cases hstate : a.state <;> simp_all
    obtain ⟨a', ha', -⟩ := hstays id a ha hkind
    simp [ha', hdrops]
  · rw [hdrops] at hf
    cases hf
  obtain ⟨b, hb, hkind⟩ := h.kept hkept
  cases ha.symm.trans hb
  obtain ⟨b', hb', hsame⟩ := hstays id a ha hkind
  have hne : id' ≠ id := by
    rintro rfl
    rw [hid'] at ha
    cases ha
  have := h'.slots.bytes_disjoint hne ha' hb'
  rwa [hsame.segmentOffset, hsame.capacityBytes] at this

theorem Returns.leaseSafe (h : s.Inv seg) (hc : s.Returns c s') :
    ∃ seg', s'.segment = some seg' ∧ c.LeaseSafe seg seg' := by
  obtain ⟨seg', hinv', -⟩ := Returns.inv hc h
  refine ⟨seg', hinv'.segment_eq, ?_⟩
  by_cases hreleases : c.releases = true
  · exact h.leaseSafe_released hinv'.segment_eq
      (hc.released h.segment_eq h.tables.leases hreleases)
  refine h.leaseSafe_of_resident hinv' ?_ fun id a ha hkind => ?_
  · cases c <;> first | rfl | exact (hreleases rfl).elim
  · obtain ⟨seg₁, a', hs₁, ha', hsame⟩ := hc.resident h.segment_eq (by simpa using hreleases) ha
      hkind
    cases hinv'.segment_eq.symm.trans hs₁
    exact ⟨a', ha', hsame⟩

/-- **Source-lease safety.** In every state that calls reach from the installation of a segment,
the lease counts are exact and what is kept is live and outstanding; and every call that returns
from there frees exactly the resident slots whose last reference it drops. -/
theorem source_lease_safety {i : Installation} {s₀ s : OwnerSegmentAllocator A}
    {cs : List OwnerCall} (hinstalled : Installed i s₀) (haddr : i.addr + i.len ≤ u64Max)
    (hrun : Run Returns s₀ cs s) :
    ∃ seg, s.segment = some seg ∧ seg.LeaseSafe ∧
      ∀ c s', s.Returns c s' → ∃ seg', s'.segment = some seg' ∧ c.LeaseSafe seg seg' := by
  obtain ⟨seg, hinv, -⟩ := hinstalled.inv_of_run haddr hrun
  exact ⟨seg, hinv.segment_eq, hinv.leaseSafe, fun c s' hc => Returns.leaseSafe hinv hc⟩

/-- A slot is claimed, committed under a route and leased for reading; then the route is
released. -/
def leaseAndUnroute : List OwnerCall :=
  [.claimValue 100 1, .markPreparedSlotPendingVisible 1 0 granularityBytes,
    .promotePendingVisibleSlotToCommitted 1 0 granularityBytes,
    .installCommittedManifest "k" (1, 0) 1 .globalShared 7,
    .acquireSource ⟨⟨"reader", 1⟩, 1, .get⟩ ⟨"k", (1, 0), 7, .firstSlot, none, 1⟩,
    .releaseCommittedSlotRoute 1 0 granularityBytes]

/-- The lease alone keeps the slot. -/
theorem source_lease_safety_leaseAndUnroute :
    ∃ s, Run Returns started leaseAndUnroute s ∧
      (s.allocation 1).map (·.references) = some ⟨false, 0, 1⟩ ∧
      ∃ seg, s.segment = some seg ∧ seg.LeaseSafe ∧
        ∀ c s', s.Returns c s' → ∃ seg', s'.segment = some seg' ∧ c.LeaseSafe seg seg' := by
  obtain ⟨s, hrun, hleft⟩ := exists_run_of_post leaseAndUnroute started
    (Q := fun s => (s.allocation 1).map (·.references) = some ⟨false, 0, 1⟩) (by decide +kernel)
  exact ⟨s, hrun, hleft, source_lease_safety installed_started (by decide +kernel) hrun⟩

end OwnerSegmentAllocator

end Lawful

end Fluxon.OwnerSegment
