import Fluxon.OwnerSegment.Invariant

/-!
# The global budget

The bytes that an owner accounts to the shared scope are the capacities of its shared slots and of
its demotion reservations. The source sums them with saturation, over the live allocations; over
the invariant of the manifest this is the sum over the manifest entries (`globalAccountedBytes_eq`),
and each update changes that sum by what it adds or removes (`Update.Step.accounted_le`). The main
result is `global_budget_bound`.
-/

namespace Fluxon.OwnerSegment

open OffsetAllocator OwnerSegmentState OwnerSegmentAllocator Call Table Option

variable {A : Type}

/-! ## The accounted bytes as a sum over the manifest -/

namespace OwnerSegmentState

section

variable (seg : OwnerSegmentState A)

/-- The capacity of the shared entries. -/
def sharedBytes : ℕ := seg.manifestByKey.sumBy fun _ e => e.sharedBytes

/-- The capacity of the demotion reservations. -/
def demotionBytes : ℕ :=
  seg.globalDemotionReservations.sumBy fun _ slot => slot.capacityBytes

/-- The accounted bytes, without saturation. -/
def accounted : ℕ := seg.sharedBytes + seg.demotionBytes

theorem globalReservedDemotionBytes_eq :
    seg.globalReservedDemotionBytes = min seg.demotionBytes u64Max := by
  rw [globalReservedDemotionBytes, foldl_saturatingAdd _ _ (Nat.zero_le _), Nat.zero_add]
  rfl

/-- The capacity that the live allocation `id` adds to the committed bytes. -/
def committedBytesOf (id : ℕ) (a : OwnerAllocationState) : ℕ :=
  if (seg.manifestEntryByAllocation id).any (·.disposition = .globalShared) then a.capacityBytes
  else 0

theorem globalCommittedBytes_eq_sum :
    seg.globalCommittedBytes = min (seg.allocations.sumBy seg.committedBytesOf) u64Max := by
  rw [globalCommittedBytes, foldl_saturatingAdd _ _ (Nat.zero_le _), Nat.zero_add]
  congr 1
  unfold sumBy image
  rw [Multiset.sum_coe]
  induction seg.allocations.entries with
  | nil => rfl
  | cons e es ih =>
    rw [List.filterMap_cons, List.map_cons, List.sum_cons, ← ih]
    unfold committedBytesOf
    cases hm : seg.manifestEntryByAllocation e.1 with
    | none => simp
    | some m => by_cases hd : m.disposition = .globalShared <;> simp [hd]

end

variable {seg : OwnerSegmentState A} {k : OwnerManifestKey} {e : OwnerSlotManifestEntry}
  {seg' : OwnerSegmentState A} {u : Update}

theorem sharedBytes_ne_zero (h : (seg.manifestByKey.lookup k).elim 0 (·.sharedBytes) ≠ 0) :
    ∃ e, seg.manifestByKey.lookup k = some e ∧ e.disposition = .globalShared := by
  cases he : seg.manifestByKey.lookup k with
  | none => simp [he] at h
  | some e =>
    refine ⟨e, rfl, ?_⟩
    by_contra hd
    simp [he, OwnerSlotManifestEntry.sharedBytes, hd] at h

theorem committedBytesOf_ne_zero {id : ℕ}
    (h : (seg.allocations.lookup id).elim 0 (seg.committedBytesOf id) ≠ 0) :
    ∃ a k e, seg.allocation id = some a ∧ seg.manifestKeyByAllocation.lookup id = some k ∧
      seg.manifestByKey.lookup k = some e ∧ e.disposition = .globalShared := by
  cases ha : seg.allocations.lookup id with
  | none => simp [ha] at h
  | some a =>
    simp only [ha, elim_some, committedBytesOf, ne_eq, ite_eq_right_iff,
      Classical.not_imp, any_eq_true, decide_eq_true_eq] at h
    obtain ⟨⟨e, he, hd⟩, -⟩ := h
    obtain ⟨k, hk, he⟩ := bind_eq_some_iff.1 he
    exact ⟨a, k, e, ha, hk, he, hd⟩

/-- The entry of a live allocation is the one counted for it. -/
theorem committedBytesOf_eq (h : ManifestInv seg) (he : seg.manifestByKey.lookup k = some e)
    (hd : e.disposition = .globalShared) :
    (seg.allocations.lookup e.slot.allocationId).elim 0
      (seg.committedBytesOf e.slot.allocationId) = e.sharedBytes := by
  obtain ⟨a, ha, -, hcapacity, -⟩ := h.live he
  rw [show seg.allocations.lookup e.slot.allocationId = some a from ha, elim_some,
    committedBytesOf, h.manifestEntryByAllocation_eq he, OwnerSlotManifestEntry.sharedBytes]
  simp [hd, hcapacity]

/-- Every shared entry has its own live allocation, of its capacity. -/
theorem sum_committedBytesOf (h : ManifestInv seg) :
    seg.allocations.sumBy seg.committedBytesOf = seg.sharedBytes := by
  rw [sharedBytes, sumBy_eq_sum_keys, sumBy_eq_sum_keys]
  -- the entry at a key goes to the allocation it names
  refine (Finset.sum_bij_ne_zero
    (fun k _ _ => ((seg.manifestByKey.lookup k).map (·.slot.allocationId)).getD 0) ?_ ?_ ?_ ?_).symm
  · intro k _ hne
    obtain ⟨e, he, -⟩ := sharedBytes_ne_zero hne
    obtain ⟨a, ha, -⟩ := h.live he
    rw [he, List.mem_toFinset]
    exact AList.mem_keys.2 (AList.lookup_isSome.1 (isSome_of_eq_some ha))
  · intro k₁ _ hne₁ k₂ _ hne₂ heq
    obtain ⟨e₁, he₁, -⟩ := sharedBytes_ne_zero hne₁
    obtain ⟨e₂, he₂, -⟩ := sharedBytes_ne_zero hne₂
    rw [he₁, he₂] at heq
    exact h.key_unique he₁ he₂ heq
  · intro id _ hne
    obtain ⟨a, k, e, -, hk, he, hd⟩ := committedBytesOf_ne_zero hne
    obtain ⟨e', he', hid⟩ := h.entry id k hk
    cases he.symm.trans he'
    have hbytes := committedBytesOf_eq h he hd
    rw [hid] at hbytes
    refine ⟨k, ?_, ?_, by rw [he]; exact hid⟩
    · exact List.mem_toFinset.2
        (AList.mem_keys.2 (AList.lookup_isSome.1 (isSome_of_eq_some he)))
    · rw [he, elim_some, ← hbytes]
      exact hne
  · intro k _ hne
    obtain ⟨e, he, hd⟩ := sharedBytes_ne_zero hne
    rw [he]
    exact (committedBytesOf_eq h he hd).symm

theorem globalAccountedBytes_eq (h : ManifestInv seg) :
    seg.globalAccountedBytes = min seg.accounted u64Max := by
  rw [globalAccountedBytes, globalCommittedBytes_eq_sum, globalReservedDemotionBytes_eq,
    sum_committedBytesOf h, saturatingAdd, accounted]
  omega

/-! ## What the updates change -/

theorem sharedBytes_rescoped {key : OwnerManifestKey} (he : seg.manifestByKey.lookup key = some e)
    (c : OwnerSlotScope) :
    (seg.rescoped key c).sharedBytes + e.sharedBytes =
      seg.sharedBytes + if c = .globalShared then e.slot.capacityBytes else 0 := by
  refine (sumBy_modify (fun _ e => e.sharedBytes) _ he).trans ?_
  cases c <;> simp [OwnerSlotManifestEntry.sharedBytes, OwnerSlotScope.disposition, sharedBytes]

/-- An update that moves no entry to the shared scope raises the accounted bytes by what it takes
at most. -/
theorem ManifestChange.accounted_le (h : ManifestChange seg u seg')
    (hu : ∀ key, u ≠ .scope key .globalShared) : seg'.accounted ≤ seg.accounted + u.spentBytes := by
  unfold accounted
  cases h with
  | same hkeys hres =>
    rw [sharedBytes, demotionBytes, hkeys, hres, ← sharedBytes, ← demotionBytes]
    omega
  | move key f hf hkeys hres =>
    have hsame : seg'.sharedBytes = seg.sharedBytes := by
      rw [sharedBytes, hkeys]
      cases he : seg.manifestByKey.lookup key with
      | none => rw [Table.modify, he, ← sharedBytes]
      | some e =>
        have hsum := Table.sumBy_modify (fun _ e => e.sharedBytes) f he
        have hentry : (f e).sharedBytes = e.sharedBytes := by
          simp only [OwnerSlotManifestEntry.sharedBytes, hf e]
        rw [hentry] at hsum
        exact Nat.add_right_cancel hsum
    rw [demotionBytes, hres, ← demotionBytes, hsame]
    omega
  | insert e hu' hkey hkeys hres =>
    rw [hu', sharedBytes, demotionBytes, hkeys, hres,
      sumBy_insert_of_lookup_none _ _ hkey, ← sharedBytes, ← demotionBytes]
    simp only [Update.spentBytes]
    omega
  | rescope key c e hu' he hseg =>
    cases c with
    | globalShared => exact (hu key hu').elim
    | localExclusive =>
      have hsum := sharedBytes_rescoped he .localExclusive
      simp only [reduceCtorEq, if_false] at hsum
      rw [hseg, show (seg.rescoped key .localExclusive).demotionBytes = seg.demotionBytes from rfl]
      omega
  | reserve key e hu' he hlocal hnone hseg =>
    have hsum : (seg.reserved key e.slot).demotionBytes =
        e.slot.capacityBytes + seg.demotionBytes :=
      sumBy_insert_of_lookup_none _ _ hnone
    rw [hseg, hu', hsum, show (seg.reserved key e.slot).sharedBytes = seg.sharedBytes from rfl]
    simp only [Update.spentBytes]
    omega
  | unreserve key hu' hseg =>
    have hle : (seg.removeReservation key).demotionBytes ≤ seg.demotionBytes := sumBy_erase_le _ _ _
    rw [hseg, show (seg.removeReservation key).sharedBytes = seg.sharedBytes from rfl]
    omega
  | free key e he _ hkeys hres =>
    have hshared := sumBy_erase_le (fun _ e => e.sharedBytes) seg.manifestByKey key
    have hdemotion := sumBy_erase_le (fun _ slot => slot.capacityBytes)
      seg.globalDemotionReservations key
    rw [sharedBytes, demotionBytes, hkeys, hres]
    simp only [sharedBytes, demotionBytes]
    omega

/-- The reserved entries are not shared yet. -/
def ReservedLocal (seg : OwnerSegmentState A) : Prop :=
  ∀ k slot, seg.globalDemotionReservations.lookup k = some slot →
    ∃ e, seg.manifestByKey.lookup k = some e ∧ e.scope = some .localExclusive

theorem ManifestChange.reservedLocal (h : ManifestChange seg u seg')
    (hu : ∀ key, u ≠ .scope key .globalShared) (hres : ReservedLocal seg) : ReservedLocal seg' := by
  intro k slot hslot
  cases h with
  | same hkeys hres' =>
    rw [hkeys]
    exact hres k slot (hres' ▸ hslot)
  | move key f hf hkeys hres' =>
    obtain ⟨e, he, hlocal⟩ := hres k slot (hres' ▸ hslot)
    rw [hkeys, lookup_modify]
    split
    · rename_i heq
      exact ⟨f e, by rw [← heq, he]; rfl, by rw [(hf e).2.1, hlocal]⟩
    · exact ⟨e, he, hlocal⟩
  | insert e' hu' hkey hkeys hres' =>
    obtain ⟨e, he, hlocal⟩ := hres k slot (hres' ▸ hslot)
    refine ⟨e, ?_, hlocal⟩
    rw [hkeys, lookup_insert_eq, if_neg, he]
    rintro rfl
    rw [hkey] at he
    cases he
  | rescope key c e' hu' he' hseg =>
    cases c with
    | globalShared => exact (hu key hu').elim
    | localExclusive =>
      subst hseg
      obtain ⟨e, he, hlocal⟩ := hres k slot hslot
      rw [lookup_rescoped]
      split
      · rename_i heq
        exact ⟨_, by rw [← heq, he]; rfl, rfl⟩
      · exact ⟨e, he, hlocal⟩
  | reserve key e hu' he hlocal hnone hseg =>
    subst hseg
    rw [lookup_reserved] at hslot
    split at hslot
    · rename_i heq
      exact ⟨e, heq ▸ he, hlocal⟩
    · exact hres k slot hslot
  | unreserve key hu' hseg =>
    subst hseg
    rw [lookup_removeReservation] at hslot
    split at hslot
    · cases hslot
    · exact hres k slot hslot
  | free key e' he' _ hkeys hres' =>
    rw [hres'] at hslot
    obtain ⟨hne, hslot⟩ := lookup_of_erase hslot
    rw [hkeys, lookup_erase_eq, if_neg hne]
    exact hres k slot hslot

end OwnerSegmentState

variable [OffsetAllocator A] {s s' : OwnerSegmentAllocator A} {us : List Update} {u : Update}

theorem Update.Step.localTargetBytes_eq (h : Update.Step s u s')
    (hu : ∀ bytes, u ≠ .localTarget bytes) : s'.localTargetBytes = s.localTargetBytes := by
  cases u with
  | bookkeeping => exact h.2.2.2
  | localTarget bytes => exact (hu bytes rfl).elim
  | allocationId | leaseId =>
    cases h
    rfl
  | _ =>
    simp only [Update.Step] at h
    casesm* ∃ _, _, _ ∧ _
    subst s'
    simp [putSegment]

theorem OwnerSegmentAllocator.localTargetBytes_eq_of_run (hrun : Run Update.Step s us s')
    (hus : ∀ u ∈ us, ∀ bytes, u ≠ .localTarget bytes) :
    s'.localTargetBytes = s.localTargetBytes := by
  induction hrun with
  | nil => rfl
  | cons hstep _ ih =>
    rw [ih fun u hu => hus u (by simp [hu]), hstep.localTargetBytes_eq (hus _ (by simp))]

/-- Updates that move no entry to the shared scope raise the accounted bytes by what they take at
most. -/
theorem OwnerSegmentAllocator.accounted_le_of_run {seg : OwnerSegmentState A}
    (hrun : Run Update.Step s us s') (hs : s.segment = some seg) (hinv : TablesInv seg)
    (hus : ∀ u ∈ us, ∀ key, u ≠ .scope key .globalShared) :
    ∃ seg', s'.segment = some seg' ∧ TablesInv seg' ∧ seg'.len = seg.len ∧
      seg'.accounted ≤ seg.accounted + (us.map Update.spentBytes).sum ∧
      (ReservedLocal seg → ReservedLocal seg') := by
  induction hrun generalizing seg with
  | nil => exact ⟨seg, hs, hinv, rfl, Nat.le_refl _, id⟩
  | @cons s s₁ s' u us hstep _ ih =>
    obtain ⟨seg₁, hs₁, hreg, hinv₁⟩ := hstep.tables hs hinv
    obtain ⟨seg₂, hs₂, -, hchange⟩ := hstep.manifestChange hs hinv.manifest
    cases hs₁.symm.trans hs₂
    have hu := hus u (by simp)
    obtain ⟨seg', hs', hinv', hlen, hle, hlocal⟩ := ih hs₁ hinv₁ fun v hv => hus v (by simp [hv])
    have hle₁ := hchange.accounted_le hu
    refine ⟨seg', hs', hinv', hlen.trans hreg.len, ?_, hlocal ∘ hchange.reservedLocal hu⟩
    rw [List.map_cons, List.sum_cons]
    omega

/-! ## What the calls change -/

namespace OwnerCall

/-- The calls that may exceed the budget: a shared manifest of a slot claimed before, and the
legacy demotion. -/
@[simp] def exempt : OwnerCall → Bool
  | installCommittedManifest _ _ _ scope _ => scope = .globalShared
  | commitLegacyA19GlobalDemotion _ => true
  | _ => false

/-- The legacy demotion. -/
@[simp] def isLegacy : OwnerCall → Bool
  | commitLegacyA19GlobalDemotion _ => true
  | _ => false

end OwnerCall

namespace OwnerSegmentAllocator

/-- The bytes of the shared scope. -/
def globalTargetBytes (s : OwnerSegmentAllocator A) : ℕ :=
  (s.segment.map (·.len)).getD 0 - s.localTargetBytes

def reservation (s : OwnerSegmentAllocator A) (key : OwnerManifestKey) : Option OwnerSlotDesc :=
  s.segment.bind (·.globalDemotionReservations.lookup key)

/-- The call takes shared bytes: it prepares a shared target for a new operation or inserts a
reservation. -/
inductive Spends (s : OwnerSegmentAllocator A) : OwnerCall → OwnerSegmentAllocator A → Prop
  | prepare {op target key putId len batch leaseId slot state s'} :
      prepareTarget op target key putId len .globalShared batch s =
        .ok (.targetPrepared leaseId slot state) s' →
      s.targetLeases.lookup op = none →
      Spends s (.prepareTarget op target key putId len .globalShared batch) s'
  | reserve {r key s'} : s.reservation key = none → s'.reservation key ≠ none →
      Spends s (.tryReserveGlobalDemotion r) s'
  | reserveAll {requests key s'} : s.reservation key = none → s'.reservation key ≠ none →
      Spends s (.tryReserveGlobalDemotions requests) s'

/-- The updates of a call, as far as the budget is concerned. -/
inductive BudgetEffect (s : OwnerSegmentAllocator A) (c : OwnerCall)
    (s' : OwnerSegmentAllocator A) : Prop
  | same : ¬s.Spends c s' → s' = s → BudgetEffect s c s'
  | quiet (us : List Update) : ¬s.Spends c s' → (∀ r, c ≠ .commitReservedGlobalDemotion r) →
      Run Update.Step s us s' →
      (∀ u ∈ us, u.spentBytes = 0 ∧ ∀ key, u ≠ .scope key .globalShared) → BudgetEffect s c s'
  | spend (us : List Update) (seg : OwnerSegmentState A) : s.Spends c s' → Run Update.Step s us s' →
      (∀ u ∈ us, (∀ bytes, u ≠ .localTarget bytes) ∧ ∀ key, u ≠ .scope key .globalShared) →
      s.segment = some seg →
      seg.globalAccountedBytes + (us.map Update.spentBytes).sum ≤ seg.len - s.localTargetBytes →
      BudgetEffect s c s'
  | install (e : OwnerSlotManifestEntry) : c.exempt = true → c.isLegacy = false →
      Update.Step s (.insertManifest e) s' → BudgetEffect s c s'
  /-- A shared entry is made shared again, or the legacy demotion makes one shared. -/
  | share (r : DemotionRequest) (seg : OwnerSegmentState A) (e : OwnerSlotManifestEntry) :
      c = .updateCommittedManifestScope r .globalShared ∧ e.scope = some .globalShared ∨
        c = .commitLegacyA19GlobalDemotion r →
      s.segment = some seg → seg.manifestByKey.lookup r.manifestKey = some e →
      Update.Step s (.scope r.manifestKey .globalShared) s' → BudgetEffect s c s'
  | commit (r : DemotionRequest) (seg : OwnerSegmentState A) (e : OwnerSlotManifestEntry) :
      c = .commitReservedGlobalDemotion r → s.segment = some seg →
      seg.manifestByKey.lookup r.manifestKey = some e →
      (e.scope = some .globalShared ∨ seg.globalDemotionReservations.lookup r.manifestKey ≠ none) →
      Run Update.Step s [.scope r.manifestKey .globalShared, .unreserve r.manifestKey] s' →
      BudgetEffect s c s'

theorem spentBytes_of_not_budgets (h : u.budgets = false) :
    u.spentBytes = 0 ∧ ∀ key, u ≠ .scope key .globalShared := by
  cases u with
  | insertManifest e =>
    have hd : e.disposition ≠ .globalShared := by simpa using h
    simp [OwnerSlotManifestEntry.sharedBytes, hd]
  | reserve | scope => simp at h
  | _ => simp

theorem spentBytes_of_claimUpdate (h : ClaimUpdate u) :
    u.spentBytes = 0 ∧ ∀ key, u ≠ .scope key .globalShared := by
  rcases h with rfl | ⟨_, rfl⟩ | ⟨_, rfl⟩ | ⟨_, rfl⟩ <;> simp

variable {key : OwnerManifestKey} {seg : OwnerSegmentState A} {e : OwnerSlotManifestEntry}

/-- Later reservations keep a reservation. -/
theorem reservation_of_run (hrun : Run Update.Step s us s')
    (hus : ∀ u ∈ us, ∃ key slot, u = .reserve key slot) (h : s.reservation key ≠ none) :
    s'.reservation key ≠ none := by
  induction hrun with
  | nil => exact h
  | @cons s s₁ s' u us hstep _ ih =>
    obtain ⟨k, slot, rfl⟩ := hus u (by simp)
    refine ih (fun v hv => hus v (by simp [hv])) ?_
    obtain ⟨seg, e, hseg, he, rfl, -, hnone, rfl⟩ := hstep
    simp only [reservation, putSegment, hseg, bind_some] at h ⊢
    rw [lookup_reserved]
    split
    · simp
    · exact h

/-- A batch that inserts something inserts a reservation that was not there. -/
theorem exists_new_reservation (hrun : Run Update.Step s us s')
    (hus : ∀ u ∈ us, ∃ key slot, u = .reserve key slot) (hne : us ≠ []) :
    ∃ key, s.reservation key = none ∧ s'.reservation key ≠ none := by
  cases hrun with
  | nil => exact (hne rfl).elim
  | @cons _ s₁ _ u us hstep hrest =>
    obtain ⟨key, slot, rfl⟩ := hus u (by simp)
    refine ⟨key, ?_, reservation_of_run hrest (fun v hv => hus v (by simp [hv])) ?_⟩
    · obtain ⟨seg, e, hseg, -, -, -, hnone, -⟩ := hstep
      simp [reservation, hseg, hnone]
    · obtain ⟨seg, e, hseg, -, -, -, -, rfl⟩ := hstep
      simp [reservation, putSegment, lookup_reserved]

/-- The effect of the calls that insert reservations. -/
theorem budgetEffect_of_reserve {c : OwnerCall}
    (hspends : s.Spends c s' ↔ ∃ key, s.reservation key = none ∧ s'.reservation key ≠ none)
    (h : ∃ us, Run Update.Step s us s' ∧ (∀ u ∈ us, ∃ key slot, u = .reserve key slot) ∧
      (us ≠ [] → ∃ seg, s.segment = some seg ∧
        seg.globalAccountedBytes + (us.map Update.spentBytes).sum ≤ seg.len - s.localTargetBytes)) :
    s.BudgetEffect c s' := by
  obtain ⟨us, hrun, hus, hsum⟩ := h
  by_cases hnil : us = []
  · subst hnil
    cases hrun
    refine .same ?_ rfl
    rw [hspends]
    rintro ⟨key, hnone, hsome⟩
    exact hsome hnone
  · obtain ⟨seg, hseg, hle⟩ := hsum hnil
    refine .spend us seg (hspends.2 (exists_new_reservation hrun hus hnil)) hrun ?_ hseg hle
    intro u hu
    obtain ⟨key, slot, rfl⟩ := hus u hu
    simp

theorem budgetEffect_prepareTarget {op : OwnerTransferOpId} {target : OwnerGeneration}
    {key : String} {putId : PutId} {len : ℕ} {batch : Option PutAtomicGroup}
    {o : OwnerSegmentTransferOutcome}
    (h : prepareTarget op target key putId len .globalShared batch s = .ok o s') :
    s.BudgetEffect (.prepareTarget op target key putId len .globalShared batch) s' := by
  -- the outcome decides whether the call has taken bytes
  have hspends : s.Spends (.prepareTarget op target key putId len .globalShared batch) s' ↔
      (∃ leaseId slot state, o = .targetPrepared leaseId slot state) ∧ s.targetLeases.lookup op = none := by
    constructor
    · rintro (⟨ho, hnone⟩ | _ | _)
      cases h.symm.trans ho
      exact ⟨⟨_, _, _, rfl⟩, hnone⟩
    · rintro ⟨⟨leaseId, slot, state, rfl⟩, hnone⟩
      exact .prepare h hnone
  rcases post_prepareTarget.of_ok h with
    ⟨hsame, hout⟩ | ⟨hout, hquiet⟩ | ⟨seg, a, leaseId, slot, rfl, -, hprepared⟩
  · refine .same (fun hc => ?_) hsame
    obtain ⟨⟨leaseId, slot, state, rfl⟩, hnone⟩ := hspends.1 hc
    rcases hout with hout | ⟨seg, r, hseg, hr, -⟩
    · cases hout
    · rw [targetLeases_eq hseg] at hnone
      cases hr.symm.trans hnone
  · have hnot : ¬s.Spends (.prepareTarget op target key putId len .globalShared batch) s' := by
      intro hc
      obtain ⟨⟨leaseId, slot, state, rfl⟩, -⟩ := hspends.1 hc
      cases hout
    rcases hquiet with ⟨u, hu, hstep⟩ | ⟨a, hrun⟩ | ⟨a, hrun⟩
    · exact .quiet [u] hnot nofun (.single hstep)
        (by simpa using spentBytes_of_claimUpdate hu.claimUpdate)
    · exact .quiet _ hnot nofun hrun (by simp)
    · exact .quiet _ hnot nofun hrun (by simp)
  · have hnone : s.targetLeases.lookup op = none := by
      rw [targetLeases_eq hprepared.segment_eq, hprepared.op_fresh]
    refine .spend _ seg (hspends.2 ⟨⟨_, _, _, rfl⟩, hnone⟩) hprepared.run (by simp)
      hprepared.segment_eq ?_
    have hbudget := hprepared.budget rfl
    simpa [OwnerSlotManifestEntry.sharedBytes, reservedEntry, hprepared.capacity_eq] using hbudget

/-- **Effects on the budget.** -/
theorem budgetEffect_of_returns {c : OwnerCall} (h : s.Returns c s') (hs : s.segment ≠ none) :
    s.BudgetEffect c s' := by
  by_cases hc : c.budgets = true
  · cases c with
    | applyTargetControl =>
      obtain ⟨_, hok⟩ := ignore_eq_ok.1 h
      rcases post_applyTargetControl.of_ok hok with rfl | hstep
      · exact .same (by rintro ⟨⟩) rfl
      · exact .quiet _ (by rintro ⟨⟩) (by simp) (.single hstep) (by simp)
    | updateCommittedManifestScope r scope =>
      obtain ⟨_, hok⟩ := ignore_eq_ok.1 h
      rcases post_updateCommittedManifestScopeInner.of_ok hok with
        rfl | ⟨seg, e, hseg, he, hshared, hstep⟩
      · exact .same (by rintro ⟨⟩) rfl
      · cases scope with
        | localExclusive => exact .quiet _ (by rintro ⟨⟩) (by simp) (.single hstep) (by simp)
        | globalShared => exact .share r seg e (.inl ⟨rfl, by simpa using hshared⟩) hseg he hstep
    | commitLegacyA19GlobalDemotion r =>
      obtain ⟨_, hok⟩ := ignore_eq_ok.1 h
      rcases post_updateCommittedManifestScopeInner.of_ok hok with
        rfl | ⟨seg, e, hseg, he, -, hstep⟩
      · exact .same (by rintro ⟨⟩) rfl
      · exact .share r seg e (.inr rfl) hseg he hstep
    | tryReserveGlobalDemotion =>
      obtain ⟨_, hok⟩ := ignore_eq_ok.1 h
      refine budgetEffect_of_reserve ⟨?_, ?_⟩ (post_tryReserveGlobalDemotion.of_ok hok)
      · rintro (_ | ⟨hnone, hsome⟩ | _)
        exact ⟨_, hnone, hsome⟩
      · rintro ⟨key, hnone, hsome⟩
        exact .reserve hnone hsome
    | tryReserveGlobalDemotions =>
      obtain ⟨_, hok⟩ := ignore_eq_ok.1 h
      refine budgetEffect_of_reserve ⟨?_, ?_⟩ (post_tryReserveGlobalDemotions.of_ok hok)
      · rintro (_ | _ | ⟨hnone, hsome⟩)
        exact ⟨_, hnone, hsome⟩
      · rintro ⟨key, hnone, hsome⟩
        exact .reserveAll hnone hsome
    | commitReservedGlobalDemotion r =>
      obtain ⟨_, hok⟩ := ignore_eq_ok.1 h
      rcases post_commitReservedGlobalDemotion.of_ok hok with
        rfl | ⟨seg, e, hseg, he, -, hres, hrun⟩
      · exact .same (by rintro ⟨⟩) rfl
      · refine .commit r seg e rfl hseg he (hres.imp id ?_) hrun
        rintro ⟨slot, hslot, -⟩
        simp [hslot]
    | installCommittedManifest =>
      obtain ⟨_, hok⟩ := ignore_eq_ok.1 h
      rcases post_installCommittedManifest.of_ok hok with
        ⟨rfl, -⟩ | ⟨slot, -, hstep⟩
      · exact .same (by rintro ⟨⟩) rfl
      · exact .install _ hc rfl hstep
    | prepareTarget op target key putId len disposition batch =>
      obtain rfl : disposition = .globalShared := by simpa using hc
      obtain ⟨o, hok⟩ := ignore_eq_ok.1 h
      exact budgetEffect_prepareTarget hok
    | _ => simp at hc
  · obtain ⟨us, hrun, hus⟩ := (post_exec c hs).of_ok h
    refine .quiet us ?_ ?_ hrun fun u hu => spentBytes_of_not_budgets ?_
    · rintro (_ | _ | _) <;> simp at hc
    · rintro r rfl
      exact hc rfl
    · by_contra hb
      exact hc ((hus u hu).2 (by simpa using hb))

/-! ## Demotions -/

section

variable (he : seg.manifestByKey.lookup key = some e)
include he

omit [OffsetAllocator A] in
theorem disposition_of_scope (hm : ManifestInv seg)
    (hscope : e.scope = some .globalShared) : e.disposition = .globalShared := by
  have h := hm.scope_eq key e he
  cases hd : e.disposition <;> rw [hd] at h <;> simp_all [OwnerTargetDisposition.scope]

omit [OffsetAllocator A] in
/-- A shared entry that is made shared again. -/
theorem accounted_reshared (hm : ManifestInv seg) (hscope : e.scope = some .globalShared) :
    (seg.rescoped key .globalShared).accounted = seg.accounted := by
  have hsum := sharedBytes_rescoped he .globalShared
  have hd := disposition_of_scope he hm hscope
  simp only [if_true, OwnerSlotManifestEntry.sharedBytes, hd] at hsum
  have hres : (seg.rescoped key .globalShared).demotionBytes = seg.demotionBytes := rfl
  unfold accounted
  omega

omit [OffsetAllocator A] in
/-- A demotion turns a reservation into shared bytes; of an entry that already was shared, it only
drops the reservation. -/
theorem accounted_demoted (hinv : TablesInv seg)
    (hres : e.scope = some .globalShared ∨ seg.globalDemotionReservations.lookup key ≠ none) :
    ((seg.rescoped key .globalShared).removeReservation key).accounted ≤ seg.accounted ∧
      (((seg.rescoped key .globalShared).removeReservation key).accounted = seg.accounted ∨
        e.scope = some .globalShared ∧ seg.globalDemotionReservations.lookup key ≠ none) := by
  have hshared := sharedBytes_rescoped he .globalShared
  rw [if_pos rfl] at hshared
  have haccounted : ((seg.rescoped key .globalShared).removeReservation key).accounted =
      (seg.rescoped key .globalShared).sharedBytes +
        sumBy (fun _ slot => slot.capacityBytes) (seg.globalDemotionReservations.erase key) :=
    rfl
  have hentry : e.sharedBytes = 0 ∨
      e.sharedBytes = e.slot.capacityBytes ∧ e.scope = some .globalShared := by
    unfold OwnerSlotManifestEntry.sharedBytes
    split
    · rename_i hd
      exact .inr ⟨rfl, by rw [hinv.manifest.scope_eq key e he, hd]; rfl⟩
    · exact .inl rfl
  rw [haccounted]
  unfold accounted demotionBytes
  cases hslot : seg.globalDemotionReservations.lookup key with
  | none =>
    rw [erase_of_lookup hslot]
    have hscope : e.scope = some .globalShared := hres.resolve_right (by simp [hslot])
    have hd := disposition_of_scope he hinv.manifest hscope
    simp only [OwnerSlotManifestEntry.sharedBytes, hd, if_true] at hshared
    refine ⟨?_, .inl ?_⟩ <;> omega
  | some slot =>
    obtain ⟨e', he', rfl⟩ := hinv.reservations key slot hslot
    cases he.symm.trans he'
    have hsum := sumBy_of_lookup (fun _ (slot : OwnerSlotDesc) => slot.capacityBytes) hslot
    rcases hentry with hzero | ⟨hbytes, hscope⟩
    · refine ⟨?_, .inl ?_⟩ <;> omega
    · refine ⟨?_, .inr ⟨hscope, nofun⟩⟩
      omega

end

theorem segment_of_demoted {seg' : OwnerSegmentState A} (hs : s.segment = some seg)
    (hs' : s'.segment = some seg')
    (hrun : Run Update.Step s [.scope key .globalShared, .unreserve key] s') :
    seg' = (seg.rescoped key .globalShared).removeReservation key := by
  obtain ⟨s₁, ⟨seg₁, -, hseg₁, -, rfl⟩, hrest⟩ := hrun.cons_inv
  cases hs.symm.trans hseg₁
  obtain ⟨s₂, ⟨seg₂, hseg₂, rfl⟩, hnil⟩ := hrest.cons_inv
  cases hnil
  cases hseg₂
  exact (some.inj hs').symm

/-- The entry at the key is shared and still holds a reservation. -/
def DoublyCounted (s : OwnerSegmentAllocator A) (key : OwnerManifestKey) : Prop :=
  ∃ seg e, s.segment = some seg ∧ seg.manifestByKey.lookup key = some e ∧
    e.scope = some .globalShared ∧ seg.globalDemotionReservations.lookup key ≠ none

end OwnerSegmentAllocator

/-- What a call may do to the shared bytes. -/
structure OwnerCall.BudgetSafe (c : OwnerCall) (s s' : OwnerSegmentAllocator A) : Prop where
  spends : s.Spends c s' → s'.globalAccountedBytes ≤ s'.globalTargetBytes
  others : ¬s.Spends c s' → c.exempt = false → s'.globalAccountedBytes ≤ s.globalAccountedBytes
  commit : ∀ r, c = .commitReservedGlobalDemotion r →
    s'.globalAccountedBytes = s.globalAccountedBytes ∨ s.DoublyCounted r.manifestKey

namespace OwnerSegmentAllocator

variable {seg : OwnerSegmentState A} {c : OwnerCall}

omit [OffsetAllocator A] in
theorem globalAccountedBytes_eq_min (hs : s.segment = some seg) (hinv : TablesInv seg) :
    s.globalAccountedBytes = min seg.accounted u64Max := by
  rw [globalAccountedBytes, hs]
  exact OwnerSegmentState.globalAccountedBytes_eq hinv.manifest

theorem Returns.budgetSafe (h : s.Returns c s') (hs : s.segment = some seg) (hinv : TablesInv seg) :
    c.BudgetSafe s s' := by
  obtain ⟨seg', hs', -, hinv'⟩ := h.tables hs hinv
  have hA := globalAccountedBytes_eq_min hs hinv
  have hA' := globalAccountedBytes_eq_min hs' hinv'
  cases budgetEffect_of_returns h (by simp [hs]) with
  | same hnot hsame =>
    subst hsame
    exact ⟨fun hc => (hnot hc).elim, fun _ _ => Nat.le_refl _, fun _ _ => .inl rfl⟩
  | quiet us hnot hcommit hrun hus =>
    obtain ⟨seg₁, hs₁, -, -, hle, -⟩ := accounted_le_of_run hrun hs hinv fun u hu => (hus u hu).2
    cases hs'.symm.trans hs₁
    have hzero : (us.map Update.spentBytes).sum = 0 := by
      refine List.sum_eq_zero fun n hn => ?_
      obtain ⟨u, hu, rfl⟩ := List.mem_map.1 hn
      exact (hus u hu).1
    have hle' : s'.globalAccountedBytes ≤ s.globalAccountedBytes := by omega
    exact ⟨fun hc => (hnot hc).elim, fun _ _ => hle', fun r hr => (hcommit r hr).elim⟩
  | spend us seg₀ hspends hrun hus hseg hbudget =>
    cases hs.symm.trans hseg
    obtain ⟨seg₁, hs₁, -, hlen, hle, -⟩ := accounted_le_of_run hrun hs hinv fun u hu => (hus u hu).2
    cases hs'.symm.trans hs₁
    have htarget : s'.globalTargetBytes = seg.len - s.localTargetBytes := by
      rw [globalTargetBytes, hs', localTargetBytes_eq_of_run hrun fun u hu => (hus u hu).1]
      simp [hlen]
    have hA₀ : seg.globalAccountedBytes = min seg.accounted u64Max :=
      OwnerSegmentState.globalAccountedBytes_eq hinv.manifest
    refine ⟨fun _ => ?_, fun hc => (hc hspends).elim, ?_⟩
    · omega
    · rintro r rfl
      cases hspends
  | install e hexempt hlegacy hstep =>
    refine ⟨?_, fun _ hc => ?_, ?_⟩
    · rintro (_ | _ | _) <;> simp at hexempt
    · rw [hexempt] at hc
      cases hc
    · rintro r rfl
      simp at hexempt
  | share r seg₀ e hc hseg he hstep =>
    cases hs.symm.trans hseg
    obtain ⟨seg₁, -, hseg₁, -, rfl⟩ := hstep
    cases hs.symm.trans hseg₁
    cases hs'
    refine ⟨?_, fun _ hexempt => ?_, ?_⟩
    · rcases hc with ⟨rfl, -⟩ | rfl <;> exact nofun
    · rcases hc with ⟨rfl, hscope⟩ | rfl
      · rw [hA, hA', accounted_reshared he hinv.manifest hscope]
      · simp at hexempt
    · rcases hc with ⟨rfl, -⟩ | rfl <;> exact nofun
  | commit r seg₀ e hc hseg he hres hrun =>
    cases hs.symm.trans hseg
    obtain ⟨hle, heq⟩ := accounted_demoted he hinv hres
    rw [← segment_of_demoted hs hs' hrun] at hle heq
    subst hc
    refine ⟨nofun, fun _ _ => ?_, ?_⟩
    · omega
    · rintro _ ⟨⟩
      rcases heq with heq | ⟨hscope, hreserved⟩
      · exact .inl (by rw [hA, hA', heq])
      · exact .inr ⟨seg, e, hs, he, hscope, hreserved⟩

/-- Only the legacy demotion makes a reserved entry shared. -/
theorem Returns.reservedLocal {seg' : OwnerSegmentState A} (h : s.Returns c s')
    (hs : s.segment = some seg) (hs' : s'.segment = some seg') (hinv : TablesInv seg)
    (hlegacy : c.isLegacy = false) (hlocal : ReservedLocal seg) : ReservedLocal seg' := by
  have hrun_case : ∀ us, Run Update.Step s us s' →
      (∀ u ∈ us, ∀ key, u ≠ .scope key .globalShared) → ReservedLocal seg' := by
    intro us hrun hus
    obtain ⟨seg₁, hs₁, -, -, -, hkeep⟩ := accounted_le_of_run hrun hs hinv hus
    cases hs'.symm.trans hs₁
    exact hkeep hlocal
  cases budgetEffect_of_returns h (by simp [hs]) with
  | same hnot hsame =>
    subst hsame
    cases hs.symm.trans hs'
    exact hlocal
  | quiet us _ _ hrun hus | spend us _ _ hrun hus =>
    exact hrun_case us hrun fun u hu => (hus u hu).2
  | install e hexempt hlegacy hstep => exact hrun_case _ (.single hstep) (by simp)
  | share r seg₀ e hc hseg he hstep =>
    cases hs.symm.trans hseg
    obtain ⟨seg₁, -, hseg₁, -, rfl⟩ := hstep
    cases hs.symm.trans hseg₁
    cases hs'
    rcases hc with ⟨-, hscope⟩ | rfl
    · intro k slot hslot
      obtain ⟨e', he', hlocal'⟩ := hlocal k slot hslot
      refine ⟨e', ?_, hlocal'⟩
      rw [lookup_rescoped, if_neg, he']
      rintro rfl
      cases he.symm.trans he'
      rw [hscope] at hlocal'
      cases hlocal'
    · simp at hlegacy
  | commit r seg₀ e hc hseg he hres hrun =>
    rw [segment_of_demoted hs hs' hrun]
    intro k slot hslot
    rw [lookup_removeReservation] at hslot
    split at hslot
    · cases hslot
    · rename_i hne
      obtain ⟨e', he', hlocal'⟩ := hlocal k slot hslot
      refine ⟨e', ?_, hlocal'⟩
      exact (lookup_rescoped seg _ k _).trans ((if_neg hne).trans he')

/-- The calls of a run that uses no exempt call and leaves the local target alone. -/
def Steady (s : OwnerSegmentAllocator A) (c : OwnerCall) (s' : OwnerSegmentAllocator A) : Prop :=
  s.Returns c s' ∧ c.exempt = false ∧ s'.localTargetBytes = s.localTargetBytes

theorem Steady.within (h : s.Steady c s') (hs : s.segment = some seg) (hinv : TablesInv seg)
    (hle : s.globalAccountedBytes ≤ s.globalTargetBytes) :
    s'.globalAccountedBytes ≤ s'.globalTargetBytes := by
  obtain ⟨hc, hexempt, htarget⟩ := h
  have hsafe := hc.budgetSafe hs hinv
  by_cases hspends : s.Spends c s'
  · exact hsafe.spends hspends
  · obtain ⟨seg', hs', hreg, -⟩ := hc.tables hs hinv
    have hsame : s'.globalTargetBytes = s.globalTargetBytes := by
      simp only [globalTargetBytes, hs, hs', htarget, map_some, hreg.len]
    exact (hsafe.others hspends hexempt).trans (hsame ▸ hle)

omit [OffsetAllocator A] in
theorem not_doublyCounted (hs : s.segment = some seg) (hlocal : ReservedLocal seg)
    (key : OwnerManifestKey) : ¬s.DoublyCounted key := by
  rintro ⟨seg₁, e, hs₁, he, hscope, hreserved⟩
  cases hs.symm.trans hs₁
  obtain ⟨slot, hslot⟩ := ne_none_iff_exists'.1 hreserved
  obtain ⟨e', he', hlocal'⟩ := hlocal key slot hslot
  cases he.symm.trans he'
  rw [hscope] at hlocal'
  cases hlocal'

/-- **The global budget.** From every state that calls reach after the installation, a call that
takes shared bytes ends within the budget, and no other call but the exempt ones raises the
accounted bytes; a committed demotion keeps them, unless its entry is shared and reserved at once,
which only the legacy demotion brings about. A run without exempt calls and with a constant local
target stays within the budget. -/
theorem global_budget_bound {i : Installation} {s₀ s : OwnerSegmentAllocator A}
    {cs : List OwnerCall} (hinstalled : Installed i s₀) (hrun : Run Returns s₀ cs s) :
    (∀ c s', s.Returns c s' → c.BudgetSafe s s') ∧
      ((∀ c ∈ cs, c.isLegacy = false) → ∀ key, ¬s.DoublyCounted key) ∧
      (Run Steady s₀ cs s → s.globalAccountedBytes ≤ s.globalTargetBytes) := by
  refine ⟨?_, fun hcs => ?_, fun hsteady => ?_⟩
  · obtain ⟨seg, hs, hinv⟩ := hinstalled.tables_of_run hrun
    exact fun c s' hc => hc.budgetSafe hs hinv
  · have hstart : ∃ seg, s₀.segment = some seg ∧ TablesInv seg ∧ ReservedLocal seg :=
      ⟨_, hinstalled.segment_eq, OwnerSegmentState.tables_fresh, fun _ _ h => nomatch h⟩
    obtain ⟨seg, hs, -, hlocal⟩ := (hrun.guarded hcs).invariant
      (I := fun s => ∃ seg, s.segment = some seg ∧ TablesInv seg ∧ ReservedLocal seg) (by
        rintro s₁ c s₂ ⟨seg₁, hs₁, hinv₁, hlocal₁⟩ ⟨hlegacy, hc⟩
        obtain ⟨seg₂, hs₂, -, hinv₂⟩ := hc.tables hs₁ hinv₁
        exact ⟨seg₂, hs₂, hinv₂, hc.reservedLocal hs₁ hs₂ hinv₁ hlegacy hlocal₁⟩) hstart
    exact not_doublyCounted hs hlocal
  · have hstart : (∃ seg, s₀.segment = some seg ∧ TablesInv seg) ∧
        s₀.globalAccountedBytes ≤ s₀.globalTargetBytes := by
      refine ⟨⟨_, hinstalled.segment_eq, OwnerSegmentState.tables_fresh⟩, ?_⟩
      rw [globalAccountedBytes, hinstalled.segment_eq]
      exact Nat.zero_le _
    refine (hsteady.invariant (I := fun s => (∃ seg, s.segment = some seg ∧ TablesInv seg) ∧
      s.globalAccountedBytes ≤ s.globalTargetBytes) ?_ hstart).2
    rintro s₁ c s₂ ⟨⟨seg₁, hs₁, hinv₁⟩, hle₁⟩ hc
    obtain ⟨seg₂, hs₂, -, hinv₂⟩ := hc.1.tables hs₁ hinv₁
    exact ⟨⟨seg₂, hs₂, hinv₂⟩, hc.within hs₁ hinv₁ hle₁⟩

/-- The demotion of the first slot under the key. -/
def firstDemotion : DemotionRequest := ⟨"k", (1, 0), 1, 0, granularityBytes⟩

/-- A slot is claimed and committed under a local route, and its demotion is reserved. -/
def reserveFirst : List OwnerCall :=
  [.claimValue 100 1, .markPreparedSlotPendingVisible 1 0 granularityBytes,
    .promotePendingVisibleSlotToCommitted 1 0 granularityBytes,
    .installCommittedManifest "k" (1, 0) 1 .localExclusive 7,
    .tryReserveGlobalDemotion firstDemotion]

/-- The reservation fills the budget. -/
theorem global_budget_bound_reserveFirst :
    ∃ s, Run Returns started reserveFirst s ∧ s.globalAccountedBytes = granularityBytes ∧
      (∀ c s', s.Returns c s' → c.BudgetSafe s s') ∧
      ((∀ c ∈ reserveFirst, c.isLegacy = false) → ∀ key, ¬s.DoublyCounted key) ∧
      (Run Steady started reserveFirst s → s.globalAccountedBytes ≤ s.globalTargetBytes) := by
  obtain ⟨s, hrun, hbytes⟩ := exists_run_of_post reserveFirst started
    (Q := fun s => s.globalAccountedBytes = granularityBytes) (by decide +kernel)
  exact ⟨s, hrun, hbytes, global_budget_bound installed_started hrun⟩

/-- After a legacy demotion of a reserved slot, which counts it twice, the commit of the reserved
demotion lowers the accounted bytes. -/
theorem commit_reserved_lowers_accounted : ∃ s s',
      Run Returns started (reserveFirst ++ [.commitLegacyA19GlobalDemotion firstDemotion]) s ∧
      s.globalAccountedBytes = 2 * granularityBytes ∧
      s.Returns (.commitReservedGlobalDemotion firstDemotion) s' ∧
      s'.globalAccountedBytes = granularityBytes := by
  obtain ⟨s, hrun, hbytes, hpost⟩ := exists_run_of_post
    (reserveFirst ++ [.commitLegacyA19GlobalDemotion firstDemotion]) started
    (Q := fun s => s.globalAccountedBytes = 2 * granularityBytes ∧
      Post (exec (.commitReservedGlobalDemotion firstDemotion)) s
        (fun _ s' => s'.globalAccountedBytes = granularityBytes) fun _ _ => False)
    (by decide +kernel)
  obtain ⟨_, s', hcommit, hbytes'⟩ := hpost.exists_ok
  exact ⟨s, s', hrun, hbytes, hcommit, hbytes'⟩

end OwnerSegmentAllocator

end Fluxon.OwnerSegment
