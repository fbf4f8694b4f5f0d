import Fluxon.OwnerSegment.Invariant

/-!
# The invariant of the target leases

An open target lease names a live slot that is not committed yet and belongs to the manifest entry
of the lease; no two open leases name one slot (`TargetsInv`). A call may break this for the lease
it is about to close, so the invariant is relative to a set `p` of operations. An update keeps it
if it spares the slots of the open leases of `p` (`Update.Step.targets`). `HoldersInv` bounds from
below the holders of the slots.
-/

namespace Fluxon.OwnerSegment

open OffsetAllocator OwnerSegmentState OwnerSegmentAllocator

variable {A : Type}

def OwnerTargetLeaseRecord.manifestKey (r : OwnerTargetLeaseRecord) : OwnerManifestKey :=
  ⟨r.key, r.putId⟩

namespace OwnerSegmentState

/-- The operation has an open lease. -/
structure HasOpen (seg : OwnerSegmentState A) (op : OwnerTransferOpId)
    (r : OwnerTargetLeaseRecord) : Prop where
  lookup_eq : seg.targetLeases.lookup op = some r
  isOpen : r.state.isOpen = true

/-- No open lease of `p` names the slot. -/
def Unnamed (p : OwnerTransferOpId → Prop) (seg : OwnerSegmentState A) (id : ℕ) : Prop :=
  ∀ op r, p op → seg.HasOpen op r → r.slot.allocationId ≠ id

/-- The open leases of `p` own their slots. -/
structure TargetsInv (p : OwnerTransferOpId → Prop) (seg : OwnerSegmentState A) : Prop where
  live : ∀ op r, p op → seg.HasOpen op r →
    ∃ a, seg.allocation r.slot.allocationId = some a ∧ a.state.kind ≠ .committed
  owned : ∀ op r, p op → seg.HasOpen op r →
    ∃ e, seg.manifestByKey.lookup r.manifestKey = some e ∧ e.slot = r.slot
  distinct : ∀ op op' r r', p op → p op' → seg.HasOpen op r → seg.HasOpen op' r' →
    r.slot.allocationId = r'.slot.allocationId → op = op'

/-! ## Changes of the lease table -/

/-- What an update does to the target leases. -/
inductive TargetChange (seg : OwnerSegmentState A) (u : Update) (seg' : OwnerSegmentState A) : Prop
  | same : (∀ op r, u ≠ .insertTarget op r) → seg'.targetLeases = seg.targetLeases →
      TargetChange seg u seg'
  | insert (op : OwnerTransferOpId) (r : OwnerTargetLeaseRecord) : u = .insertTarget op r →
      seg' = seg.insertTargetLease op r → TargetChange seg u seg'
  | move (op : OwnerTransferOpId) (r : OwnerTargetLeaseRecord) (state : OwnerTargetLeaseState) :
      u = .targetState op state → seg.targetLeases.lookup op = some r → r.state.isOpen = true →
      seg' = seg.setTargetLeaseState op state → TargetChange seg u seg'

end OwnerSegmentState

theorem OwnerTargetLeaseState.Moves.isOpen {state state' : OwnerTargetLeaseState}
    (h : state.Moves state') : state.isOpen = true := by
  cases h <;> rfl

variable {s s' : OwnerSegmentAllocator A}

theorem Update.Step.targetChange [OffsetAllocator A] {u : Update} {seg : OwnerSegmentState A}
    (h : Update.Step s u s') (hs : s.segment = some seg) :
    ∃ seg', s'.segment = some seg' ∧ TargetChange seg u seg' := by
  obtain ⟨seg', hs', hchange⟩ := h.change hs
  refine ⟨seg', hs', ?_⟩
  cases hchange with
  | insertTarget => exact .insert _ _ rfl rfl
  | targetState hr hmoves => exact .move _ _ _ rfl hr hmoves.isOpen rfl
  | physicalState | commitManifest =>
    exact .same (by simp) (seg.targetLeases_updateManifestByAllocation _ _)
  | _ => exact .same (by simp) rfl

namespace OwnerSegmentState

variable {p q : OwnerTransferOpId → Prop} {seg seg' : OwnerSegmentState A} {u : Update} {id : ℕ}

variable {op : OwnerTransferOpId}

/-- An open lease was open before, on the same slot and key, unless it is new. -/
theorem TargetChange.hasOpen (h : TargetChange seg u seg') {r' : OwnerTargetLeaseRecord}
    (hopen : seg'.HasOpen op r') :
    (∃ r, seg.HasOpen op r ∧ r'.slot = r.slot ∧ r'.manifestKey = r.manifestKey) ∨
      u = .insertTarget op r' := by
  obtain ⟨hr', hisOpen⟩ := hopen
  cases h with
  | same _ heq => exact .inl ⟨r', ⟨heq ▸ hr', hisOpen⟩, rfl, rfl⟩
  | insert op₀ r₀ hu hseg =>
    rw [hseg] at hr'
    obtain ⟨rfl, rfl⟩ | ⟨-, hr'⟩ := Table.lookup_insert_cases hr'
    · exact .inr hu
    · exact .inl ⟨r', ⟨hr', hisOpen⟩, rfl, rfl⟩
  | move op₀ r₀ state hu hr₀ hopen₀ hseg =>
    rw [hseg, show (seg.setTargetLeaseState op₀ state).targetLeases = seg.targetLeases.modify op₀
      (fun r => { r with state }) from rfl, Table.lookup_modify] at hr'
    split at hr'
    · rename_i heq
      rw [hr₀] at hr'
      cases hr'
      exact .inl ⟨r₀, ⟨heq ▸ hr₀, hopen₀⟩, rfl, rfl⟩
    · exact .inl ⟨r', ⟨hr', hisOpen⟩, rfl, rfl⟩

theorem Unnamed.of_change (h : seg.Unnamed p id) (hchange : TargetChange seg u seg')
    (hu : ∀ op r, u ≠ .insertTarget op r) : seg'.Unnamed p id := by
  intro op r' hp hopen
  rcases hchange.hasOpen hopen with ⟨r, hr, hslot, -⟩ | hinsert
  · rw [hslot]
    exact h op r hp hr
  · exact (hu op r' hinsert).elim

theorem Unnamed.mono (h : seg.Unnamed p id) (hpq : ∀ op, q op → p op) : seg.Unnamed q id :=
  fun op r hq => h op r (hpq op hq)

/-- The update leaves the slots of the open leases of `p` alone, and a lease that it opens owns a
slot that no other open lease names. -/
structure Spares (p : OwnerTransferOpId → Prop) (seg : OwnerSegmentState A) (u : Update) :
    Prop where
  frees : ∀ id, seg.frees u = some id → seg.Unnamed p id
  commits : ∀ id state, u = .slotState id state → state.kind = .committed → seg.Unnamed p id
  inserts : ∀ op r, u = .insertTarget op r → seg.Unnamed p r.slot.allocationId ∧
    (∃ a, seg.allocation r.slot.allocationId = some a ∧ a.state.kind ≠ .committed) ∧
    ∃ e, seg.manifestByKey.lookup r.manifestKey = some e ∧ e.slot = r.slot

namespace TargetsInv

theorem mono (h : TargetsInv p seg) (hpq : ∀ op, q op → p op) : TargetsInv q seg where
  live op r hq := h.live op r (hpq op hq)
  owned op r hq := h.owned op r (hpq op hq)
  distinct op op' r r' hq hq' := h.distinct op op' r r' (hpq op hq) (hpq op' hq')

/-- The leases but one, which is closed, are all. -/
theorem of_closed (h : TargetsInv (· ≠ op) seg) (hclosed : ∀ r, ¬seg.HasOpen op r)
    (p : OwnerTransferOpId → Prop) : TargetsInv p seg := by
  have hne : ∀ op' r, seg.HasOpen op' r → op' ≠ op := by
    rintro op' r hopen rfl
    exact hclosed r hopen
  exact ⟨fun op' r _ hr => h.live op' r (hne op' r hr) hr,
    fun op' r _ hr => h.owned op' r (hne op' r hr) hr,
    fun op₁ op₂ r₁ r₂ _ _ h₁ h₂ => h.distinct op₁ op₂ r₁ r₂ (hne op₁ r₁ h₁) (hne op₂ r₂ h₂) h₁ h₂⟩

/-- The slot of an open lease is named by no other. -/
theorem unnamed (h : TargetsInv p seg) {r : OwnerTargetLeaseRecord} (hp : p op)
    (hr : seg.HasOpen op r) : seg.Unnamed (fun op' => p op' ∧ op' ≠ op) r.slot.allocationId := by
  rintro op' r' ⟨hp', hne⟩ hr' heq
  exact hne (h.distinct op' op r' r hp' hp hr' hr heq)

/-- A slot that is not live is named by no open lease. -/
theorem unnamed_of_dead (h : TargetsInv p seg) (hdead : seg.allocation id = none) :
    seg.Unnamed p id := by
  rintro op r hp hr rfl
  obtain ⟨a, ha, -⟩ := h.live op r hp hr
  rw [hdead] at ha
  cases ha

variable {a : OwnerAllocationState}

/-- A committed slot is named by no open lease. -/
theorem unnamed_of_committed (h : TargetsInv p seg) (ha : seg.allocation id = some a)
    (hkind : a.state.kind = .committed) : seg.Unnamed p id := by
  rintro op r hp hr rfl
  obtain ⟨a', ha', hkind'⟩ := h.live op r hp hr
  cases ha.symm.trans ha'
  exact hkind' hkind

/-- A slot outside the manifest is named by no open lease. -/
theorem unnamed_of_unbound (h : TargetsInv p seg) (hm : ManifestInv seg)
    (hunbound : seg.manifestKeyByAllocation.lookup id = none) : seg.Unnamed p id := by
  rintro op r hp hr rfl
  obtain ⟨e, he, hslot⟩ := h.owned op r hp hr
  have hbound := hm.bound _ e he
  rw [hslot, hunbound] at hbound
  cases hbound

/-- A slot that the update does not free or commit stays live. -/
theorem live_of_change (hslot : SlotChange seg u seg') (ha : seg.allocation id = some a)
    (hkind : a.state.kind ≠ .committed) (hfrees : seg.frees u ≠ some id)
    (hcommits : ∀ state, u = .slotState id state → state.kind ≠ .committed) :
    ∃ a', seg'.allocation id = some a' ∧ a'.state.kind ≠ .committed := by
  rcases hslot.slot ha with ⟨a', ha', -, -, hstate | hstate⟩ | ⟨-, hfree, -⟩
  · exact ⟨a', ha', hcommits _ hstate⟩
  · exact ⟨a', ha', hstate ▸ hkind⟩
  · exact (hfrees hfree).elim

theorem of_change (h : TargetsInv p seg) (hslot : SlotChange seg u seg')
    (hmanifest : ManifestChange seg u seg') (htarget : TargetChange seg u seg')
    (hspares : seg.Spares p u) : TargetsInv p seg' := by
  have hlive : ∀ op r', p op → seg'.HasOpen op r' →
      ∃ a, seg'.allocation r'.slot.allocationId = some a ∧ a.state.kind ≠ .committed := by
    intro op r' hp hopen
    rcases htarget.hasOpen hopen with ⟨r, hr, hslot', -⟩ | rfl
    · obtain ⟨a, ha, hkind⟩ := h.live op r hp hr
      rw [hslot']
      refine live_of_change hslot ha hkind ?_ ?_
      · exact fun hfree => hspares.frees _ hfree op r hp hr rfl
      · exact fun state hu hcommitted => hspares.commits _ state hu hcommitted op r hp hr rfl
    · obtain ⟨-, ⟨a, ha, hkind⟩, -⟩ := hspares.inserts op r' rfl
      exact live_of_change hslot ha hkind nofun nofun
  refine ⟨hlive, ?_, ?_⟩
  · intro op r' hp hopen
    obtain ⟨a, ha, -⟩ := hlive op r' hp hopen
    -- the entry is only removed together with its slot
    have hkeep : ∀ e, seg.manifestByKey.lookup r'.manifestKey = some e → e.slot = r'.slot →
        ∃ e', seg'.manifestByKey.lookup r'.manifestKey = some e' ∧ e'.slot = r'.slot := by
      intro e he hslot'
      rcases hmanifest.entry he with ⟨e', he', hsame⟩ | hnone
      · exact ⟨e', he', hsame.trans hslot'⟩
      · rw [hslot', ha] at hnone
        cases hnone
    rcases htarget.hasOpen hopen with ⟨r, hr, hslot', hkey⟩ | rfl
    · obtain ⟨e, he, hentry⟩ := h.owned op r hp hr
      exact hkeep e (hkey ▸ he) (hslot' ▸ hentry)
    · obtain ⟨-, -, e, he, hentry⟩ := hspares.inserts op r' rfl
      exact hkeep e he hentry
  · intro op₁ op₂ r₁ r₂ hp₁ hp₂ h₁ h₂ heq
    rcases htarget.hasOpen h₁ with ⟨r₁', hr₁, hslot₁, -⟩ | hu₁ <;>
      rcases htarget.hasOpen h₂ with ⟨r₂', hr₂, hslot₂, -⟩ | hu₂
    · rw [hslot₁, hslot₂] at heq
      exact h.distinct op₁ op₂ r₁' r₂' hp₁ hp₂ hr₁ hr₂ heq
    · exact ((hspares.inserts op₂ r₂ hu₂).1 op₁ r₁' hp₁ hr₁ (hslot₁ ▸ heq)).elim
    · exact ((hspares.inserts op₁ r₁ hu₁).1 op₂ r₂' hp₂ hr₂ (hslot₂ ▸ heq.symm)).elim
    · cases hu₁.symm.trans hu₂
      rfl

end TargetsInv

/-! ## Holders -/

/-- Every slot has at least the given number of holders. -/
def HoldersInv (held : ℕ → ℕ) (seg : OwnerSegmentState A) : Prop :=
  ∀ id, held id ≤ (seg.allocation id).elim 0 (·.state.holders)

theorem HoldersInv.of_change {held : ℕ → ℕ} (h : HoldersInv held seg)
    (hslot : SlotChange seg u seg')
    (hset : ∀ id state, u = .slotState id state → held id ≤ state.holders)
    (hfree : ∀ id, seg.frees u = some id → held id = 0) : HoldersInv held seg' := by
  intro id
  have hid := h id
  cases ha : seg.allocation id with
  | none =>
    rw [ha] at hid
    exact hid.trans (Nat.zero_le _)
  | some a =>
    rw [ha] at hid
    rcases hslot.slot ha with ⟨a', ha', -, -, hstate | hstate⟩ | ⟨hnone, hfrees, -⟩
    · rw [ha']
      exact hset id _ hstate
    · rw [ha', Option.elim_some, hstate]
      exact hid
    · rw [hfree id hfrees]
      exact Nat.zero_le _

end OwnerSegmentState

/-- **Target leases keep their slots.** An update that spares the slots of the open leases keeps
the invariant. -/
theorem Update.Step.targets [OffsetAllocator A] {u : Update} {p : OwnerTransferOpId → Prop}
    {seg seg' : OwnerSegmentState A} (h : Update.Step s u s') (hs : s.segment = some seg)
    (hs' : s'.segment = some seg') (hm : ManifestInv seg) (ht : TargetsInv p seg)
    (hspares : seg.Spares p u) : TargetsInv p seg' := by
  obtain ⟨seg₁, hs₁, hslot⟩ := h.slotChange hs
  obtain ⟨seg₂, hs₂, -, hmanifest⟩ := h.manifestChange hs hm
  obtain ⟨seg₃, hs₃, htarget⟩ := h.targetChange hs
  cases hs'.symm.trans hs₁
  cases hs'.symm.trans hs₂
  cases hs'.symm.trans hs₃
  exact ht.of_change hslot hmanifest htarget hspares

end Fluxon.OwnerSegment
