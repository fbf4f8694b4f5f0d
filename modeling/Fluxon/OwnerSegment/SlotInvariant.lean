import Fluxon.OwnerSegment.Calls

/-!
# The invariant of the slots

`SlotsInv` ties the live allocations to the offset allocator underneath and to the offset index:
every live allocation is a range of whole units inside the segment, the ranges are disjoint, and
exactly the live ranges are outstanding at the offset allocator. It is proved from the laws of the
offset allocator, for each of the changes that updates make to the slots.
-/

namespace Fluxon.OwnerSegment

open OffsetAllocator LawfulOffsetAllocator Table OwnerAllocationState

variable {A : Type}

/-- The length of the slot in units of the offset allocator. -/
def OwnerAllocationState.units (a : OwnerAllocationState) : ℕ := a.capacityBytes / granularityBytes

/-- The two records are the same range of the segment. -/
structure SameRange (a a' : OwnerAllocationState) : Prop where
  allocationId : a.allocationId = a'.allocationId
  allocation : a.allocation = a'.allocation
  segmentOffset : a.segmentOffset = a'.segmentOffset
  capacityBytes : a.capacityBytes = a'.capacityBytes
  valueLen : a.valueLen = a'.valueLen

theorem SameRange.refl (a : OwnerAllocationState) : SameRange a a := ⟨rfl, rfl, rfl, rfl, rfl⟩

theorem SameRange.trans {a₁ a₂ a₃ : OwnerAllocationState} (h₁ : SameRange a₁ a₂)
    (h₂ : SameRange a₂ a₃) : SameRange a₁ a₃ :=
  ⟨h₁.1.trans h₂.1, h₁.2.trans h₂.2, h₁.3.trans h₂.3, h₁.4.trans h₂.4, h₁.5.trans h₂.5⟩

/-- A range of whole units that holds a non-empty value. -/
structure OwnerAllocationState.WellSized (a : OwnerAllocationState) : Prop where
  offset_eq : a.segmentOffset = a.allocation.offset * granularityBytes
  capacity_eq : a.capacityBytes = a.units * granularityBytes
  units_pos : 0 < a.units
  len_pos : 0 < a.valueLen
  len_le : a.valueLen ≤ a.capacityBytes

namespace OwnerSegmentState

/-- The ranges of the live allocations, with their lengths in units. -/
def extents (seg : OwnerSegmentState A) : Multiset (Allocation × ℕ) :=
  seg.allocations.image fun _ a => (a.allocation, a.units)

variable {seg : OwnerSegmentState A} {id : ℕ} {f : OwnerAllocationState → OwnerAllocationState}
  {a' a : OwnerAllocationState}

/-- A live record stays a record of the same range when it is updated. -/
theorem allocation_of_updateAllocation {id' : ℕ} (hf : ∀ a, SameRange (f a) a)
    (ha' : (seg.updateAllocation id f).allocation id' = some a') :
    ∃ a, seg.allocation id' = some a ∧ SameRange a' a := by
  rw [allocation_updateAllocation] at ha'
  split at ha'
  · rename_i heq
    obtain ⟨a, ha, rfl⟩ := Option.map_eq_some_iff.1 ha'
    exact ⟨a, heq ▸ ha, hf a⟩
  · exact ⟨a', ha', .refl a'⟩

theorem units_eq (h : SameRange a a') : a.units = a'.units := by rw [units, h.capacityBytes, units]

theorem extents_updateAllocation (hf : ∀ a, SameRange (f a) a) :
    (seg.updateAllocation id f).extents = seg.extents := by
  unfold extents updateAllocation
  cases ha : seg.allocations.lookup id with
  | none => simp [Table.modify, ha]
  | some a =>
    rw [modify_of_lookup f ha, image_insert, image_of_lookup _ ha,
      (hf a).allocation, units_eq (hf a)]

theorem allocation_claimed (seg : OwnerSegmentState A) (allocator : A) (a : OwnerAllocationState)
    (id : ℕ) : (seg.claimed allocator a).allocation id =
      if id = a.allocationId then some a else seg.allocation id :=
  lookup_insert_eq _ _ _ _

/-- The slot that an update frees. -/
@[simp] def frees (seg : OwnerSegmentState A) : Update → Option ℕ
  | .freePrepared id | .free id => some id
  | .freeSource op _ => (seg.sourceLeases.lookup op).map (·.routeToken.source.allocationId)
  | _ => none

/-- What an update does to the live slots: nothing, a claim, a change of one record that keeps its
range and does not go back in its life, or a free. -/
inductive SlotChange (seg : OwnerSegmentState A) (u : Update) (seg' : OwnerSegmentState A) : Prop
  | same : seg'.allocations = seg.allocations → SlotChange seg u seg'
  | claim (a : OwnerAllocationState) : seg.allocation a.allocationId = none →
      seg'.allocations = AList.insert a.allocationId a seg.allocations → SlotChange seg u seg'
  | update (id : ℕ) (a : OwnerAllocationState) (f : OwnerAllocationState → OwnerAllocationState) :
      seg.allocation id = some a → SameRange (f a) a → a.state.kind.rank ≤ (f a).state.kind.rank →
      u = .slotState id (f a).state ∨ (f a).state = a.state →
      seg'.allocations = seg.allocations.modify id f → SlotChange seg u seg'
  | free (id : ℕ) (a : OwnerAllocationState) : seg.allocation id = some a →
      (a.state ≠ .prepared → u.freesResident = true) → seg.frees u = some id →
      seg'.allocations = seg.allocations.erase id → SlotChange seg u seg'

/-- What becomes of a live slot. -/
theorem SlotChange.slot {seg' : OwnerSegmentState A} {u : Update} (h : SlotChange seg u seg')
    (ha : seg.allocation id = some a) :
    (∃ a', seg'.allocation id = some a' ∧ SameRange a' a ∧
      a.state.kind.rank ≤ a'.state.kind.rank ∧ (u = .slotState id a'.state ∨ a'.state = a.state)) ∨
    (seg'.allocation id = none ∧ seg.frees u = some id ∧
      (a.state ≠ .prepared → u.freesResident = true)) := by
  unfold allocation
  cases h with
  | same heq => exact .inl ⟨a, by rw [heq]; exact ha, .refl a, le_rfl, .inr rfl⟩
  | claim b hfresh heq =>
    refine .inl ⟨a, ?_, .refl a, le_rfl, .inr rfl⟩
    rw [heq, lookup_insert_eq, if_neg]
    · exact ha
    · rintro rfl
      rw [hfresh] at ha
      cases ha
  | update id' b f hb hsame hrank hstate heq =>
    rw [heq, lookup_modify]
    split
    · rename_i hid
      subst hid
      cases ha.symm.trans hb
      exact .inl ⟨f a, congrArg (Option.map f) ha, hsame, hrank, hstate⟩
    · exact .inl ⟨a, ha, .refl a, le_rfl, .inr rfl⟩
  | free id' b hb hresident hfrees heq =>
    rw [heq, lookup_erase_eq]
    split
    · rename_i hid
      subst hid
      cases ha.symm.trans hb
      exact .inr ⟨rfl, hfrees, hresident⟩
    · exact .inl ⟨a, ha, .refl a, le_rfl, .inr rfl⟩

end OwnerSegmentState

open OwnerSegmentState OwnerSegmentAllocator in
theorem Update.Step.slotChange [OffsetAllocator A] {s s' : OwnerSegmentAllocator A} {u : Update}
    {seg : OwnerSegmentState A} (h : Update.Step s u s') (hs : s.segment = some seg) :
    ∃ seg', s'.segment = some seg' ∧ SlotChange seg u seg' := by
  obtain ⟨seg', hs', hchange⟩ := h.change hs
  refine ⟨seg', hs', ?_⟩
  cases hchange with
  | claim hc | leakSlot hc => exact .claim _ hc.fresh rfl
  | slotState ha hrank => exact .update _ _ _ ha ⟨rfl, rfl, rfl, rfl, rfl⟩ hrank (.inl rfl) rfl
  | acquireSource _ ha | releaseSource _ _ ha =>
    exact .update _ _ _ ha ⟨rfl, rfl, rfl, rfl, rfl⟩ le_rfl (.inr rfl) rfl
  | freePrepared ha _ hstate => exact .free _ _ ha (fun h => (h hstate).elim) rfl rfl
  | free ha => exact .free _ _ ha (fun _ => rfl) rfl rfl
  | freeSource hr _ ha => exact .free _ _ ha (fun _ => rfl) (by simp [hr]) rfl
  | physicalState | commitManifest =>
    obtain ⟨t, ht⟩ := seg.updateManifestByAllocation_eq _ _
    exact .same (congrArg (·.allocations) ht)
  | _ => exact .same rfl

namespace OwnerSegmentState

variable [OffsetAllocator A] [LawfulOffsetAllocator A]

/-- The invariant of the slots; `n` is the last allocation id handed out. -/
structure SlotsInv (n : ℕ) (seg : OwnerSegmentState A) : Prop where
  id_eq : ∀ id a, seg.allocation id = some a → a.allocationId = id
  id_pos : ∀ id a, seg.allocation id = some a → 0 < id
  id_le : ∀ id a, seg.allocation id = some a → id ≤ n
  sized : ∀ id a, seg.allocation id = some a → a.WellSized
  inside : ∀ id a, seg.allocation id = some a →
    a.allocation.offset + a.units ≤ seg.len / granularityBytes
  disjoint : ∀ id id' a a', id ≠ id' → seg.allocation id = some a → seg.allocation id' = some a' →
    RangesDisjoint a.allocation.offset a.units a'.allocation.offset a'.units
  index : ∀ o id, seg.allocationsByOffset.lookup o = some id ↔
    ∃ a, seg.allocation id = some a ∧ a.allocation.offset = o
  tracks : Tracks seg.allocator (seg.len / granularityBytes) seg.extents

namespace SlotsInv

variable {n : ℕ} {seg seg' : OwnerSegmentState A}

/-- The invariant reads only the slots. -/
theorem congr (h : SlotsInv n seg) (hallocations : seg'.allocations = seg.allocations)
    (hindex : seg'.allocationsByOffset = seg.allocationsByOffset)
    (hallocator : seg'.allocator = seg.allocator) (hlen : seg'.len = seg.len) :
    SlotsInv n seg' := by
  have halloc : seg'.allocation = seg.allocation := by
    funext id
    rw [allocation, hallocations]
    rfl
  constructor
  · rw [halloc]; exact h.id_eq
  · rw [halloc]; exact h.id_pos
  · rw [halloc]; exact h.id_le
  · rw [halloc]; exact h.sized
  · rw [halloc, hlen]; exact h.inside
  · rw [halloc]; exact h.disjoint
  · rw [halloc, hindex]; exact h.index
  · rw [hallocator, hlen, extents, hallocations]; exact h.tracks

theorem mono {m : ℕ} (h : SlotsInv n seg) (hle : n ≤ m) : SlotsInv m seg :=
  { h with id_le := fun id a ha => (h.id_le id a ha).trans hle }

variable {id : ℕ} {a : OwnerAllocationState} {allocator : A}

variable (h : SlotsInv n seg)
include h

theorem updateAllocation {f : OwnerAllocationState → OwnerAllocationState}
    (hf : ∀ a, SameRange (f a) a) :
    SlotsInv n (seg.updateAllocation id f) where
  id_eq id' a' ha' := by
    obtain ⟨a, ha, hsame⟩ := allocation_of_updateAllocation hf ha'
    rw [hsame.allocationId, h.id_eq id' a ha]
  id_pos id' a' ha' := by
    obtain ⟨a, ha, -⟩ := allocation_of_updateAllocation hf ha'
    exact h.id_pos id' a ha
  id_le id' a' ha' := by
    obtain ⟨a, ha, -⟩ := allocation_of_updateAllocation hf ha'
    exact h.id_le id' a ha
  sized id' a' ha' := by
    obtain ⟨a, ha, hsame⟩ := allocation_of_updateAllocation hf ha'
    have hsized := h.sized id' a ha
    constructor
    · rw [hsame.segmentOffset, hsame.allocation, hsized.offset_eq]
    · rw [hsame.capacityBytes, units_eq hsame]; exact hsized.capacity_eq
    · rw [units_eq hsame]; exact hsized.units_pos
    · rw [hsame.valueLen]; exact hsized.len_pos
    · rw [hsame.valueLen, hsame.capacityBytes]; exact hsized.len_le
  inside id' a' ha' := by
    obtain ⟨a, ha, hsame⟩ := allocation_of_updateAllocation hf ha'
    rw [hsame.allocation, units_eq hsame]
    exact h.inside id' a ha
  disjoint id₁ id₂ a₁ a₂ hne h₁ h₂ := by
    obtain ⟨b₁, hb₁, hs₁⟩ := allocation_of_updateAllocation hf h₁
    obtain ⟨b₂, hb₂, hs₂⟩ := allocation_of_updateAllocation hf h₂
    rw [hs₁.allocation, units_eq hs₁, hs₂.allocation, units_eq hs₂]
    exact h.disjoint id₁ id₂ b₁ b₂ hne hb₁ hb₂
  index o id' := by
    rw [show (seg.updateAllocation id f).allocationsByOffset = seg.allocationsByOffset from rfl,
      h.index]
    constructor
    · rintro ⟨a, ha, rfl⟩
      rw [allocation_updateAllocation]
      split
      · rename_i heq
        exact ⟨f a, by rw [← heq, ha]; rfl, by rw [(hf a).allocation]⟩
      · exact ⟨a, ha, rfl⟩
    · rintro ⟨a', ha', rfl⟩
      obtain ⟨a, ha, hsame⟩ := allocation_of_updateAllocation hf ha'
      exact ⟨a, ha, by rw [hsame.allocation]⟩
  tracks := by
    rw [extents_updateAllocation hf]
    exact h.tracks

theorem sourceReadLeaseCount (id m : ℕ) : SlotsInv n (seg.setSourceReadLeaseCount id m) :=
  h.updateAllocation fun _ => ⟨rfl, rfl, rfl, rfl, rfl⟩

theorem updateManifestByAllocation (id : ℕ) (f : OwnerSlotManifestEntry → OwnerSlotManifestEntry) :
    SlotsInv n (seg.updateManifestByAllocation id f) := by
  obtain ⟨t, ht⟩ := seg.updateManifestByAllocation_eq id f
  rw [ht]
  exact h.congr rfl rfl rfl rfl

/-- A claimed range is inside the segment and meets no live one. -/
theorem claimed (hc : Update.Claimable seg n a allocator) :
    SlotsInv (n + 1) (seg.claimed allocator a) := by
  have hunits : 0 < a.units := by
    have := hc.capacity_pos
    have := hc.capacity_mod
    unfold units granularityBytes at *
    omega
  have hsized : a.WellSized := by
    refine ⟨?_, ?_, hunits, hc.len_pos, hc.len_le⟩
    · have hoffset := hc.offset_eq
      unfold ownerSegmentOffsetBytes at hoffset
      split at hoffset
      · exact (Option.some.inj hoffset).symm
      · cases hoffset
    · have := hc.capacity_mod
      unfold units granularityBytes at *
      omega
  have hinside := allocate_inside h.tracks hunits hc.allocate_eq
  have hfresh : ∀ id b, seg.allocation id = some b →
      RangesDisjoint a.allocation.offset a.units b.allocation.offset b.units := fun id b hb =>
    allocate_disjoint h.tracks hunits hc.allocate_eq (b.allocation, b.units)
      (mem_image.2 ⟨id, b, hb, rfl⟩)
  -- a live record of the new state is the claimed one or one of the old state
  have hall : ∀ {P : ℕ → OwnerAllocationState → Prop}, P (n + 1) a →
      (∀ id b, seg.allocation id = some b → P id b) →
      ∀ id b, (seg.claimed allocator a).allocation id = some b → P id b := by
    intro P hnew hold id b hb
    obtain ⟨rfl, rfl⟩ | ⟨-, hb⟩ := lookup_insert_cases hb
    · rwa [hc.id_eq]
    · exact hold id b hb
  constructor
  · exact hall hc.id_eq h.id_eq
  · exact hall (Nat.succ_pos n) h.id_pos
  · exact hall le_rfl fun id b hb => (h.id_le id b hb).trans (Nat.le_succ n)
  · exact hall hsized h.sized
  · exact hall hinside h.inside
  · intro id id' b b' hne hb hb'
    rcases lookup_insert_cases hb with ⟨rfl, rfl⟩ | ⟨-, hold⟩ <;>
      rcases lookup_insert_cases hb' with ⟨rfl, rfl⟩ | ⟨-, hold'⟩
    · exact (hne rfl).elim
    · exact hfresh id' b' hold'
    · exact (hfresh id b hold).symm
    · exact h.disjoint id id' b b' hne hold hold'
  · intro o id
    rw [show (seg.claimed allocator a).allocationsByOffset =
      AList.insert a.allocation.offset a.allocationId seg.allocationsByOffset from rfl,
      lookup_insert_eq, allocation_claimed]
    by_cases ho : o = a.allocation.offset <;> by_cases hid : id = a.allocationId
    · subst ho hid
      simp
    · rw [if_pos ho, if_neg hid]
      refine ⟨fun heq => (hid (Option.some.inj heq).symm).elim, ?_⟩
      rintro ⟨b, hb, rfl⟩
      have := (h.index _ id).2 ⟨b, hb, rfl⟩
      rw [ho, hc.offset_fresh] at this
      cases this
    · rw [if_neg ho, if_pos hid]
      refine ⟨fun heq => ?_, ?_⟩
      · obtain ⟨b, hb, -⟩ := (h.index o id).1 heq
        rw [hid, hc.fresh] at hb
        cases hb
      · rintro ⟨b, hb, rfl⟩
        exact (ho (congrArg (·.allocation.offset) (Option.some.inj hb)).symm).elim
    · rw [if_neg ho, if_neg hid]
      exact h.index o id
  · rw [show (seg.claimed allocator a).extents = (a.allocation, a.units) ::ₘ seg.extents from
      image_insert_of_lookup_none _ a hc.fresh]
    exact tracks_allocate h.tracks hunits hc.allocate_eq

/-- A freed range is no longer outstanding, and all others are. -/
theorem freed (ha : seg.allocation id = some a) : SlotsInv n (seg.freed id a) := by
  have hcases : ∀ id' b, (seg.freed id a).allocation id' = some b →
      id' ≠ id ∧ seg.allocation id' = some b := fun _ _ => lookup_of_erase
  constructor
  · exact fun id' b hb => h.id_eq id' b (hcases id' b hb).2
  · exact fun id' b hb => h.id_pos id' b (hcases id' b hb).2
  · exact fun id' b hb => h.id_le id' b (hcases id' b hb).2
  · exact fun id' b hb => h.sized id' b (hcases id' b hb).2
  · exact fun id' b hb => h.inside id' b (hcases id' b hb).2
  · exact fun id₁ id₂ b₁ b₂ hne h₁ h₂ =>
      h.disjoint id₁ id₂ b₁ b₂ hne (hcases id₁ b₁ h₁).2 (hcases id₂ b₂ h₂).2
  · intro o id'
    have hindex : seg.allocationsByOffset.lookup a.allocation.offset = some id :=
      (h.index _ id).2 ⟨a, ha, rfl⟩
    rw [show (seg.freed id a).allocationsByOffset =
      seg.allocationsByOffset.erase a.allocation.offset from rfl, lookup_erase_eq]
    split
    · rename_i ho
      refine ⟨nofun, ?_⟩
      rintro ⟨b, hb, rfl⟩
      obtain ⟨hne, hb⟩ := hcases id' b hb
      have := (h.index _ id').2 ⟨b, hb, rfl⟩
      rw [ho, hindex] at this
      exact (hne (Option.some.inj this).symm).elim
    · rename_i ho
      rw [h.index]
      refine ⟨?_, fun ⟨b, hb, hbo⟩ => ⟨b, (hcases id' b hb).2, hbo⟩⟩
      rintro ⟨b, hb, rfl⟩
      refine ⟨b, ?_, rfl⟩
      rw [allocation_freed, if_neg, hb]
      rintro rfl
      rw [ha] at hb
      exact ho (by rw [Option.some.inj hb])
  · have hsplit : seg.extents = (a.allocation, a.units) ::ₘ (seg.freed id a).extents :=
      image_of_lookup _ ha
    have := h.tracks
    rw [hsplit] at this
    exact tracks_free this

/-- No claim of a tracked segment has an offset that is not representable. -/
theorem offsetBytes_ne_none (hlen : seg.len ≤ u64Max) {units : ℕ} (hunits : 0 < units)
    {x : Allocation} {allocator : A} (hx : allocate seg.allocator units = some (x, allocator)) :
    ownerSegmentOffsetBytes x.offset ≠ none := by
  have hinside := allocate_inside h.tracks hunits hx
  have hle : x.offset * granularityBytes ≤ u64Max := by
    calc x.offset * granularityBytes ≤ seg.len / granularityBytes * granularityBytes :=
          Nat.mul_le_mul_right _ (by omega)
      _ ≤ seg.len := Nat.div_mul_le_self _ _
      _ ≤ u64Max := hlen
  rw [ownerSegmentOffsetBytes, if_pos hle]
  simp

/-- The end of a live range is inside the segment. -/
theorem extent_le (ha : seg.allocation id = some a) :
    a.segmentOffset + a.capacityBytes ≤ seg.len := by
  have hsized := h.sized id a ha
  rw [hsized.offset_eq, hsized.capacity_eq, ← Nat.add_mul]
  exact (Nat.mul_le_mul_right _ (h.inside id a ha)).trans (Nat.div_mul_le_self _ _)

/-- The byte ranges of two live allocations do not meet. -/
theorem bytes_disjoint {id' : ℕ} {a' : OwnerAllocationState} (hne : id ≠ id')
    (ha : seg.allocation id = some a) (ha' : seg.allocation id' = some a') :
    RangesDisjoint a.segmentOffset a.capacityBytes a'.segmentOffset a'.capacityBytes := by
  have hs := h.sized id a ha
  have hs' := h.sized id' a' ha'
  rw [hs.offset_eq, hs.capacity_eq, hs'.offset_eq, hs'.capacity_eq]
  exact (h.disjoint id id' a a' hne ha ha').mul granularityBytes

/-- A live allocation without source leases can be freed. -/
theorem freeable (ha : seg.allocation id = some a) (hleases : a.sourceReadLeaseCount = 0) :
    seg.Freeable id a :=
  ⟨h.id_eq id a ha, hleases, (h.index _ id).2 ⟨a, ha, rfl⟩⟩

/-- A claim neither reuses an id nor a live offset. -/
theorem claim_fresh {units : ℕ} (hunits : 0 < units) {x : Allocation}
    (hx : allocate seg.allocator units = some (x, allocator)) :
    seg.allocation (n + 1) = none ∧ seg.allocationsByOffset.lookup x.offset = none := by
  constructor
  · cases ha : seg.allocation (n + 1) with
    | none => rfl
    | some a => exact (Nat.not_succ_le_self n (h.id_le _ a ha)).elim
  cases hid : seg.allocationsByOffset.lookup x.offset with
  | none => rfl
  | some id =>
    obtain ⟨a, ha, ho⟩ := (h.index _ id).1 hid
    have hdisjoint := allocate_disjoint h.tracks hunits hx (a.allocation, a.units)
      (mem_image.2 ⟨id, a, ha, rfl⟩)
    exact (hdisjoint.offset_ne hunits (h.sized id a ha).units_pos ho.symm).elim

end SlotsInv

end OwnerSegmentState

end Fluxon.OwnerSegment
