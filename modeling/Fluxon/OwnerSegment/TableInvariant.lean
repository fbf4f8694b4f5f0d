import Fluxon.OwnerSegment.SlotInvariant

/-!
# The invariants of the tables

Around the slots stand the manifest, the source leases, the slot counters and the demotion
reservations. `ManifestInv` makes the two manifest tables inverse to each other and lets every
entry describe a live slot; `LeasesInv` makes the lease count of a slot the number of active
leases that name it; `CountsInv` makes the slot counters counts; `ReservationsInv` lets every
reservation belong to a manifest entry of the same slot.
-/

namespace Fluxon.OwnerSegment

open OwnerSourceLeaseRecord Table Option

variable {A : Type}

namespace OwnerSegmentState

/-- Two states of one registered segment. -/
structure SameRegistration (seg' seg : OwnerSegmentState A) : Prop where
  owner : seg'.owner = seg.owner
  registrationEpoch : seg'.registrationEpoch = seg.registrationEpoch
  baseAddr : seg'.baseAddr = seg.baseAddr
  addr : seg'.addr = seg.addr
  len : seg'.len = seg.len

theorem SameRegistration.refl (seg : OwnerSegmentState A) : SameRegistration seg seg :=
  ⟨rfl, rfl, rfl, rfl, rfl⟩

theorem SameRegistration.trans {seg₁ seg₂ seg₃ : OwnerSegmentState A}
    (h₁ : SameRegistration seg₂ seg₁) (h₂ : SameRegistration seg₃ seg₂) :
    SameRegistration seg₃ seg₁ :=
  ⟨h₂.owner.trans h₁.owner, h₂.registrationEpoch.trans h₁.registrationEpoch,
    h₂.baseAddr.trans h₁.baseAddr, h₂.addr.trans h₁.addr, h₂.len.trans h₁.len⟩

/-! ## The manifest -/

variable {slot : OwnerSlotDesc}

theorem identityMatchesDesc_iff {seg : OwnerSegmentState A} :
    seg.identityMatchesDesc slot = true ↔ slot.owner = seg.owner ∧
      slot.segmentRegistrationEpoch = seg.registrationEpoch ∧
      slot.addr = (checkedAdd seg.addr slot.segmentOffset).getD u64Max ∧
      slot.baseAddr = seg.baseAddr ∧ ∃ a, seg.allocation slot.allocationId = some a ∧
        a.segmentOffset = slot.segmentOffset ∧ a.capacityBytes = slot.capacityBytes ∧
        a.valueLen = slot.len := by
  simp [identityMatchesDesc, and_assoc, any_eq_true]

/-- A descriptor keeps naming its slot as long as the slot is live. -/
theorem identityMatchesDesc_of_live {seg seg' : OwnerSegmentState A}
    (hreg : SameRegistration seg' seg) (hlive : ∀ a, seg.allocation slot.allocationId = some a →
      ∃ a', seg'.allocation slot.allocationId = some a' ∧ SameRange a' a)
    (h : seg.identityMatchesDesc slot = true) : seg'.identityMatchesDesc slot = true := by
  rw [identityMatchesDesc_iff] at h ⊢
  obtain ⟨howner, hepoch, haddr, hbase, a, ha, hoffset, hcapacity, hlen⟩ := h
  obtain ⟨a', ha', hsame⟩ := hlive a ha
  refine ⟨by rw [hreg.owner, howner], by rw [hreg.registrationEpoch, hepoch],
    by rw [hreg.addr, haddr], by rw [hreg.baseAddr, hbase], a', ha', ?_, ?_, ?_⟩
  · rw [hsame.segmentOffset, hoffset]
  · rw [hsame.capacityBytes, hcapacity]
  · rw [hsame.valueLen, hlen]

/-- The invariant of the manifest. -/
structure ManifestInv (seg : OwnerSegmentState A) : Prop where
  key_eq : ∀ k e, seg.manifestByKey.lookup k = some e → e.manifestKey = k
  bound : ∀ k e, seg.manifestByKey.lookup k = some e →
    seg.manifestKeyByAllocation.lookup e.slot.allocationId = some k
  entry : ∀ id k, seg.manifestKeyByAllocation.lookup id = some k →
    ∃ e, seg.manifestByKey.lookup k = some e ∧ e.slot.allocationId = id
  identity : ∀ k e, seg.manifestByKey.lookup k = some e → seg.identityMatchesDesc e.slot = true
  scope_eq : ∀ k e, seg.manifestByKey.lookup k = some e → e.scope = e.disposition.scope

namespace ManifestInv

variable {seg seg' : OwnerSegmentState A} {k : OwnerManifestKey} {e : OwnerSlotManifestEntry}

variable (h : ManifestInv seg)
include h

/-- An entry names a live slot. -/
theorem live (he : seg.manifestByKey.lookup k = some e) :
    ∃ a, seg.allocation e.slot.allocationId = some a ∧ a.segmentOffset = e.slot.segmentOffset ∧
      a.capacityBytes = e.slot.capacityBytes ∧ a.valueLen = e.slot.len :=
  (identityMatchesDesc_iff.1 (h.identity k e he)).2.2.2.2

/-- The same manifest over slots that are still live. -/
theorem of_live (hlive : ∀ id k a, seg.manifestKeyByAllocation.lookup id = some k →
      seg.allocation id = some a → ∃ a', seg'.allocation id = some a' ∧ SameRange a' a := by
        exact fun _ _ a _ ha => ⟨a, ha, .refl a⟩)
    (hreg : SameRegistration seg' seg := by exact ⟨rfl, rfl, rfl, rfl, rfl⟩)
    (hkeys : seg'.manifestByKey = seg.manifestByKey := by rfl)
    (hids : seg'.manifestKeyByAllocation = seg.manifestKeyByAllocation := by rfl) :
    ManifestInv seg' where
  key_eq := by rw [hkeys]; exact h.key_eq
  bound := by rw [hkeys, hids]; exact h.bound
  entry := by rw [hkeys, hids]; exact h.entry
  identity k e he := by
    rw [hkeys] at he
    exact identityMatchesDesc_of_live hreg (fun a => hlive _ k a (h.bound k e he))
      (h.identity k e he)
  scope_eq := by rw [hkeys]; exact h.scope_eq

theorem updateAllocation {id : ℕ} {f : OwnerAllocationState → OwnerAllocationState}
    (hf : ∀ a, SameRange (f a) a) : ManifestInv (seg.updateAllocation id f) := by
  refine h.of_live fun id' _ a _ ha => ?_
  rw [allocation_updateAllocation]
  split
  · rename_i heq
    exact ⟨f a, by rw [← heq, ha]; rfl, hf a⟩
  · exact ⟨a, ha, .refl a⟩

variable {f : OwnerSlotManifestEntry → OwnerSlotManifestEntry}

/-- Rewriting an entry keeps the invariant if it keeps the key, the slot and the agreement of scope
and disposition. -/
theorem updateManifest (key : OwnerManifestKey) (hkey : ∀ e, (f e).manifestKey = e.manifestKey)
    (hslot : ∀ e, (f e).slot = e.slot)
    (hscope : ∀ e, e.scope = e.disposition.scope → (f e).scope = (f e).disposition.scope) :
    ManifestInv (seg.updateManifest key f) := by
  -- an entry of the new manifest comes from one of the old manifest at the same key
  have hold : ∀ k e', (seg.updateManifest key f).manifestByKey.lookup k = some e' →
      ∃ e, seg.manifestByKey.lookup k = some e ∧ e'.manifestKey = e.manifestKey ∧
        e'.slot = e.slot ∧ (e.scope = e.disposition.scope → e'.scope = e'.disposition.scope) := by
    intro k e' he'
    rw [show (seg.updateManifest key f).manifestByKey = seg.manifestByKey.modify key f from rfl,
      lookup_modify] at he'
    split at he'
    · rename_i heq
      obtain ⟨e, he, rfl⟩ := map_eq_some_iff.1 he'
      exact ⟨e, heq ▸ he, hkey e, hslot e, hscope e⟩
    · exact ⟨e', he', rfl, rfl, id⟩
  constructor
  · intro k e' he'
    obtain ⟨e, he, hkey', -, -⟩ := hold k e' he'
    rw [hkey', h.key_eq k e he]
  · intro k e' he'
    obtain ⟨e, he, -, hslot', -⟩ := hold k e' he'
    rw [hslot']
    exact h.bound k e he
  · intro id k hk
    obtain ⟨e, he, hid⟩ := h.entry id k hk
    rw [show (seg.updateManifest key f).manifestByKey = seg.manifestByKey.modify key f from rfl,
      lookup_modify]
    split
    · rename_i heq
      exact ⟨f e, by rw [← heq, he]; rfl, by rw [hslot, hid]⟩
    · exact ⟨e, he, hid⟩
  · intro k e' he'
    obtain ⟨e, he, -, hslot', -⟩ := hold k e' he'
    rw [hslot']
    exact h.identity k e he
  · intro k e' he'
    obtain ⟨e, he, -, -, hscope'⟩ := hold k e' he'
    exact hscope' (h.scope_eq k e he)

theorem updateManifestByAllocation (id : ℕ) (hkey : ∀ e, (f e).manifestKey = e.manifestKey)
    (hslot : ∀ e, (f e).slot = e.slot)
    (hscope : ∀ e, e.scope = e.disposition.scope → (f e).scope = (f e).disposition.scope) :
    ManifestInv (seg.updateManifestByAllocation id f) := by
  unfold OwnerSegmentState.updateManifestByAllocation
  split
  · exact h.updateManifest _ hkey hslot hscope
  · exact h

theorem insertManifest (hid : seg.identityMatchesDesc e.slot = true)
    (hkey : seg.manifestByKey.lookup e.manifestKey = none)
    (hslot : seg.manifestKeyByAllocation.lookup e.slot.allocationId = none)
    (hscope : e.scope = e.disposition.scope) : ManifestInv (seg.insertManifest e) := by
  have hlookup : ∀ k, (seg.insertManifest e).manifestByKey.lookup k =
      if k = e.manifestKey then some e else seg.manifestByKey.lookup k :=
    fun k => lookup_insert_eq _ _ _ _
  have hlookup' : ∀ id, (seg.insertManifest e).manifestKeyByAllocation.lookup id =
      if id = e.slot.allocationId then some e.manifestKey
      else seg.manifestKeyByAllocation.lookup id :=
    fun id => lookup_insert_eq _ _ _ _
  have hcases : ∀ k e', (seg.insertManifest e).manifestByKey.lookup k = some e' →
      (k = e.manifestKey ∧ e' = e) ∨
        (k ≠ e.manifestKey ∧ seg.manifestByKey.lookup k = some e') := by
    intro k e' he'
    rw [hlookup] at he'
    split at he'
    · rename_i heq
      exact .inl ⟨heq, (some.inj he').symm⟩
    · rename_i hne
      exact .inr ⟨hne, he'⟩
  constructor
  · intro k e' he'
    rcases hcases k e' he' with ⟨rfl, rfl⟩ | ⟨-, he⟩
    · rfl
    · exact h.key_eq k e' he
  · intro k e' he'
    rw [hlookup']
    rcases hcases k e' he' with ⟨rfl, rfl⟩ | ⟨-, he⟩
    · rw [if_pos rfl]
    · have hbound := h.bound k e' he
      rw [if_neg, hbound]
      intro heq
      rw [heq, hslot] at hbound
      cases hbound
  · intro id k hk
    rw [hlookup'] at hk
    rw [hlookup]
    split at hk
    · rename_i heq
      exact ⟨e, by rw [if_pos (some.inj hk).symm], heq.symm⟩
    obtain ⟨e', he', hid'⟩ := h.entry id k hk
    refine ⟨e', ?_, hid'⟩
    rw [if_neg, he']
    rintro rfl
    rw [hkey] at he'
    cases he'
  · intro k e' he'
    rcases hcases k e' he' with ⟨rfl, rfl⟩ | ⟨-, he⟩
    · exact hid
    · exact h.identity k e' he
  · intro k e' he'
    rcases hcases k e' he' with ⟨rfl, rfl⟩ | ⟨-, he⟩
    · exact hscope
    · exact h.scope_eq k e' he

theorem freed [OffsetAllocator A] (id : ℕ) (a : OwnerAllocationState) :
    ManifestInv (seg.freed id a) := by
  have hlookup : ∀ k, (seg.freed id a).manifestByKey.lookup k =
      if seg.manifestKeyByAllocation.lookup id = some k then none
      else seg.manifestByKey.lookup k := by
    unfold OwnerSegmentState.freed
    cases hkey : seg.manifestKeyByAllocation.lookup id with
    | none => simp
    | some key => simp [lookup_erase_eq, eq_comm]
  have hids : ∀ id', (seg.freed id a).manifestKeyByAllocation.lookup id' =
      if id' = id then none else seg.manifestKeyByAllocation.lookup id' :=
    fun id' => lookup_erase_eq _ _ _
  -- the entries that are left belong to other allocations
  have hleft : ∀ k e, (seg.freed id a).manifestByKey.lookup k = some e →
      seg.manifestByKey.lookup k = some e ∧ e.slot.allocationId ≠ id := by
    intro k e he
    rw [hlookup] at he
    split at he
    · cases he
    · rename_i hne
      exact ⟨he, fun heq => hne (heq ▸ h.bound k e he)⟩
  constructor
  · exact fun k e he => h.key_eq k e (hleft k e he).1
  · intro k e he
    obtain ⟨he, hne⟩ := hleft k e he
    rw [hids, if_neg hne]
    exact h.bound k e he
  · intro id' k hk
    rw [hids] at hk
    split at hk
    · cases hk
    rename_i hne
    obtain ⟨e, he, hid⟩ := h.entry id' k hk
    refine ⟨e, ?_, hid⟩
    rw [hlookup, if_neg, he]
    intro hkey
    obtain ⟨e', he', hid'⟩ := h.entry id k hkey
    rw [he] at he'
    cases he'
    exact hne (hid ▸ hid')
  · intro k e he
    obtain ⟨he, hne⟩ := hleft k e he
    have hreg : SameRegistration (seg.freed id a) seg := ⟨rfl, rfl, rfl, rfl, rfl⟩
    refine identityMatchesDesc_of_live hreg (fun b hb => ⟨b, ?_, .refl b⟩) (h.identity k e he)
    rw [allocation_freed, if_neg hne, hb]
  · exact fun k e he => h.scope_eq k e (hleft k e he).1

/-- A slot of the manifest is bound to the key of its entry only. -/
theorem key_unique {k' : OwnerManifestKey} {e' : OwnerSlotManifestEntry}
    (he : seg.manifestByKey.lookup k = some e) (he' : seg.manifestByKey.lookup k' = some e')
    (hid : e.slot.allocationId = e'.slot.allocationId) : k = k' := by
  have hbound := h.bound k e he
  rw [hid, h.bound k' e' he'] at hbound
  exact (some.inj hbound).symm

theorem manifestEntryByAllocation_eq (he : seg.manifestByKey.lookup k = some e) :
    seg.manifestEntryByAllocation e.slot.allocationId = some e := by
  simp [manifestEntryByAllocation, h.bound k e he, he]

end ManifestInv

/-! ## The source leases -/

end OwnerSegmentState

/-- One for an active lease on the slot, else zero. -/
def OwnerSourceLeaseRecord.activeOn (id : ℕ) (r : OwnerSourceLeaseRecord) : ℕ :=
  if r.state = .active ∧ r.routeToken.source.allocationId = id then 1 else 0

namespace OwnerSegmentState

/-- The number of active source leases on a slot. -/
def activeLeases (seg : OwnerSegmentState A) (id : ℕ) : ℕ :=
  seg.sourceLeases.sumBy fun _ r => r.activeOn id

/-- The invariant of the source leases. -/
structure LeasesInv (seg : OwnerSegmentState A) : Prop where
  count : ∀ id a, seg.allocation id = some a → a.sourceReadLeaseCount = seg.activeLeases id
  live : ∀ op r, seg.sourceLeases.lookup op = some r → r.state = .active →
    ∃ a, seg.allocation r.routeToken.source.allocationId = some a ∧ a.state.kind = .committed
  referenced : ∀ id a, seg.allocation id = some a → ¬a.Unreferenced

variable {seg : OwnerSegmentState A} {op : OwnerTransferOpId} {r : OwnerSourceLeaseRecord}

theorem activeLeases_pos (hr : seg.sourceLeases.lookup op = some r) (hactive : r.state = .active) :
    0 < seg.activeLeases r.routeToken.source.allocationId := by
  have := le_sumBy (fun _ r' => r'.activeOn r.routeToken.source.allocationId) hr
  simp only [activeOn, hactive, and_self, if_true] at this
  exact this

variable {token : OwnerSourceRouteToken} {lease : OwnerLeaseId}

theorem activeLeases_acquired {n : ℕ} (hop : seg.sourceLeases.lookup op = none) (id : ℕ) :
    (seg.acquired op lease token n).activeLeases id =
      (if token.source.allocationId = id then 1 else 0) + seg.activeLeases id := by
  have hone : (⟨lease, token, .active⟩ : OwnerSourceLeaseRecord).activeOn id =
      if token.source.allocationId = id then 1 else 0 := by
    simp [activeOn]
  rw [← hone]
  exact sumBy_insert_of_lookup_none _ _ hop

theorem activeLeases_released (hr : seg.sourceLeases.lookup op = some r)
    (hactive : r.state = .active) (outcome : OwnerTransferOutcome) (id : ℕ) :
    (seg.setSourceLeaseState op (.released outcome)).activeLeases id +
      (if r.routeToken.source.allocationId = id then 1 else 0) = seg.activeLeases id := by
  have hone : r.activeOn id = if r.routeToken.source.allocationId = id then 1 else 0 := by
    simp [activeOn, hactive]
  rw [← hone]
  refine (sumBy_modify (fun _ r => activeOn id r) _ hr).trans ?_
  simp [activeOn, activeLeases]

variable {outcome : OwnerTransferOutcome}

/-- A lease that is active after a release was active before it, and is another one. -/
theorem lookup_of_released {op' : OwnerTransferOpId}
    (hr : (seg.setSourceLeaseState op (.released outcome)).sourceLeases.lookup op' = some r)
    (hactive : r.state = .active) : seg.sourceLeases.lookup op' = some r := by
  rw [show (seg.setSourceLeaseState op (.released outcome)).sourceLeases =
    seg.sourceLeases.modify op _ from rfl, lookup_modify] at hr
  split at hr
  · obtain ⟨r', -, rfl⟩ := map_eq_some_iff.1 hr
    cases hactive
  · exact hr

namespace LeasesInv

variable {seg' : OwnerSegmentState A}

/-- The invariant reads only the slots and the source leases. -/
theorem congr (h : LeasesInv seg) (hallocations : seg'.allocations = seg.allocations)
    (hleases : seg'.sourceLeases = seg.sourceLeases) : LeasesInv seg' := by
  have halloc : seg'.allocation = seg.allocation := by
    funext id
    rw [allocation, hallocations]
    rfl
  constructor
  · intro id a ha
    rw [halloc] at ha
    rw [activeLeases, hleases]
    exact h.count id a ha
  · rw [halloc, hleases]; exact h.live
  · rw [halloc]; exact h.referenced

variable {id : ℕ} {a : OwnerAllocationState}

variable (h : LeasesInv seg)
include h

/-- No lease is active on a slot that is not live. -/
theorem activeLeases_of_dead (ha : seg.allocation id = none) : seg.activeLeases id = 0 := by
  refine sumBy_eq_zero fun op r hr => ?_
  rw [activeOn, if_neg]
  rintro ⟨hactive, rfl⟩
  obtain ⟨a, ha', -⟩ := h.live op r hr hactive
  rw [ha] at ha'
  cases ha'

/-- Only a committed slot has source leases. -/
theorem count_of_not_committed (ha : seg.allocation id = some a)
    (hkind : a.state.kind ≠ .committed) : a.sourceReadLeaseCount = 0 := by
  rw [h.count id a ha]
  refine sumBy_eq_zero fun op r hr => ?_
  rw [activeOn, if_neg]
  rintro ⟨hactive, rfl⟩
  obtain ⟨a', ha', hkind'⟩ := h.live op r hr hactive
  rw [ha] at ha'
  cases ha'
  exact hkind hkind'

/-- The record of one slot changes from `a` to `b`, with the leases that are active on the slot. -/
theorem of_slot {b : OwnerAllocationState} (ha : seg.allocation id = some a)
    (hslot : ∀ id', seg'.allocation id' = if id' = id then some b else seg.allocation id')
    (hkind : a.state.kind = .committed → b.state.kind = .committed) (hreferenced : ¬b.Unreferenced)
    (hlive : ∀ op r, seg'.sourceLeases.lookup op = some r → r.state = .active →
      seg.sourceLeases.lookup op = some r ∨
        r.routeToken.source.allocationId = id ∧ b.state.kind = .committed)
    (hcount : ∀ id', seg'.activeLeases id' =
      if id' = id then b.sourceReadLeaseCount else seg.activeLeases id') : LeasesInv seg' := by
  constructor
  · intro id' c hc
    rw [hcount]
    rw [hslot] at hc
    split at hc <;> rename_i heq
    · cases hc
      rw [if_pos heq]
    · rw [if_neg heq]
      exact h.count id' c hc
  · intro op r hr hactive
    rw [hslot]
    rcases hlive op r hr hactive with hold | ⟨hid, hcommitted⟩
    · obtain ⟨c, hc, hckind⟩ := h.live op r hold hactive
      split <;> rename_i heq
      · rw [heq, ha] at hc
        cases hc
        exact ⟨b, rfl, hkind hckind⟩
      · exact ⟨c, hc, hckind⟩
    · exact ⟨b, if_pos hid, hcommitted⟩
  · intro id' c hc
    rw [hslot] at hc
    split at hc
    · cases hc
      exact hreferenced
    · exact h.referenced id' c hc

theorem setSlotState {state : OwnerSlotState} (ha : seg.allocation id = some a)
    (hkind : a.state.kind = .committed → state.kind = .committed)
    (hreferenced : ¬({ a with state } : OwnerAllocationState).Unreferenced) :
    LeasesInv (seg.setSlotState id state) := by
  refine h.of_slot ha (fun id' => ?_) hkind hreferenced (fun _ _ hr _ => .inl hr) fun id' => ?_
  · rw [OwnerSegmentState.setSlotState, allocation_updateAllocation, ha]
    rfl
  · split <;> rename_i heq
    · rw [heq]
      exact (h.count id a ha).symm
    · rfl

theorem claimed {allocator : A} (hfresh : seg.allocation a.allocationId = none)
    (hleases : a.sourceReadLeaseCount = 0) (hstate : a.state = .prepared) :
    LeasesInv (seg.claimed allocator a) := by
  constructor
  · intro id b hb
    rw [allocation_claimed] at hb
    split at hb
    · rename_i heq
      cases hb
      rw [hleases, heq]
      exact (h.activeLeases_of_dead hfresh).symm
    · exact h.count id b hb
  · intro op r hr hactive
    obtain ⟨b, hb, hkind⟩ := h.live op r hr hactive
    refine ⟨b, ?_, hkind⟩
    rw [allocation_claimed, if_neg, hb]
    intro heq
    rw [heq, hfresh] at hb
    cases hb
  · intro id b hb
    rw [allocation_claimed] at hb
    split at hb
    · cases hb
      rintro ⟨hcommitted, -⟩
      rw [hstate] at hcommitted
      cases hcommitted
    · exact h.referenced id b hb

theorem acquired (hop : seg.sourceLeases.lookup op = none)
    (ha : seg.allocation token.source.allocationId = some a) {n : ℕ}
    (hstate : a.state = .committed true n) :
    LeasesInv (seg.acquired op lease token (a.sourceReadLeaseCount + 1)) := by
  refine h.of_slot (b := { a with sourceReadLeaseCount := a.sourceReadLeaseCount + 1 }) ha
    (fun id => ?_) id ?_ (fun op' r hr _ => ?_) fun id => ?_
  · refine (allocation_updateAllocation seg _ _ _).trans ?_
    rw [ha]
    rfl
  · rintro ⟨-, hzero⟩
    cases hzero
  · rcases lookup_insert_cases hr with ⟨rfl, rfl⟩ | ⟨-, hr⟩
    · exact .inr ⟨rfl, by simp [hstate]⟩
    · exact .inl hr
  · rw [activeLeases_acquired hop]
    by_cases heq : id = token.source.allocationId
    · rw [if_pos heq.symm, if_pos heq, heq, ← h.count _ a ha, Nat.add_comm]
    · rw [if_neg (Ne.symm heq), if_neg heq, Nat.zero_add]

theorem released (hr : seg.sourceLeases.lookup op = some r) (hactive : r.state = .active)
    (ha : seg.allocation r.routeToken.source.allocationId = some a)
    (hreferenced : ¬({ a with sourceReadLeaseCount := a.sourceReadLeaseCount - 1 } :
      OwnerAllocationState).Unreferenced) :
    LeasesInv ((seg.setSourceReadLeaseCount r.routeToken.source.allocationId
      (a.sourceReadLeaseCount - 1)).setSourceLeaseState op (.released outcome)) := by
  refine h.of_slot (b := { a with sourceReadLeaseCount := a.sourceReadLeaseCount - 1 }) ha
    (fun id => ?_) id hreferenced
    (fun _ _ hr' hactive' => .inl (lookup_of_released hr' hactive')) fun id => ?_
  · refine (allocation_updateAllocation seg _ _ _).trans ?_
    rw [ha]
    rfl
  · have hcount := activeLeases_released hr hactive outcome id
    change (seg.setSourceLeaseState op (.released outcome)).activeLeases id = _
    split <;> rename_i heq
    · rw [if_pos heq.symm, heq, ← h.count _ a ha] at hcount
      rw [heq, ← hcount]
      rfl
    · rw [← hcount, if_neg (Ne.symm heq)]
      rfl

/-- A slot is freed together with the leases that are over; none that is left names it. -/
theorem freed_of_leases [OffsetAllocator A]
    {leases : Table OwnerTransferOpId OwnerSourceLeaseRecord}
    (hleft : ∀ op r, leases.lookup op = some r → r.state = .active →
      seg.sourceLeases.lookup op = some r) (hcount : ∀ id', id' ≠ id →
      ({ seg with sourceLeases := leases } : OwnerSegmentState A).activeLeases id' =
        seg.activeLeases id')
    (hzero : ({ seg with sourceLeases := leases } : OwnerSegmentState A).activeLeases id = 0) :
    LeasesInv (({ seg with sourceLeases := leases } : OwnerSegmentState A).freed id a) := by
  constructor
  · intro id' b hb
    rw [allocation_freed] at hb
    split at hb
    · cases hb
    · rename_i hne
      exact (h.count id' b hb).trans (hcount id' hne).symm
  · intro op r hr hactive
    obtain ⟨b, hb, hkind⟩ := h.live op r (hleft op r hr hactive) hactive
    refine ⟨b, ?_, hkind⟩
    rw [allocation_freed, if_neg]
    · exact hb
    · rintro rfl
      have hpos : 0 < ({ seg with sourceLeases := leases } : OwnerSegmentState A).activeLeases
          r.routeToken.source.allocationId := activeLeases_pos hr hactive
      exact hpos.ne' hzero
  · intro id' b hb
    rw [allocation_freed] at hb
    split at hb
    · cases hb
    · exact h.referenced id' b hb

theorem freed [OffsetAllocator A] (ha : seg.allocation id = some a)
    (hzero : a.sourceReadLeaseCount = 0) : LeasesInv (seg.freed id a) :=
  h.freed_of_leases (fun _ _ hr _ => hr) (fun _ _ => rfl) ((h.count id a ha).symm.trans hzero)

theorem freed_of_released [OffsetAllocator A] (hr : seg.sourceLeases.lookup op = some r)
    (hactive : r.state = .active) (ha : seg.allocation r.routeToken.source.allocationId = some a)
    (hone : a.sourceReadLeaseCount = 1) :
    LeasesInv ((seg.setSourceLeaseState op (.released outcome)).freed
      r.routeToken.source.allocationId a) := by
  refine h.freed_of_leases (fun op' r' hr' => lookup_of_released hr') (fun id hne => ?_) ?_
  · have hcount := activeLeases_released hr hactive outcome id
    rw [if_neg (Ne.symm hne)] at hcount
    exact hcount
  · have hcount := activeLeases_released hr hactive outcome r.routeToken.source.allocationId
    rw [if_pos rfl, ← h.count _ a ha, hone] at hcount
    exact Nat.succ.inj hcount

end LeasesInv

/-! ## The reservations -/

/-- Every reservation is the slot of the manifest entry at its key. -/
def ReservationsInv (seg : OwnerSegmentState A) : Prop :=
  ∀ k slot, seg.globalDemotionReservations.lookup k = some slot →
    ∃ e, seg.manifestByKey.lookup k = some e ∧ e.slot = slot

namespace ReservationsInv

variable {seg' : OwnerSegmentState A}

/-- Fewer reservations over a manifest that keeps its slots. -/
theorem of_slots (h : ReservationsInv seg)
    (hreservations : ∀ k slot, seg'.globalDemotionReservations.lookup k = some slot →
      seg.globalDemotionReservations.lookup k = some slot)
    (hslots : ∀ k e, seg.manifestByKey.lookup k = some e →
      (∃ slot, seg'.globalDemotionReservations.lookup k = some slot) →
      ∃ e', seg'.manifestByKey.lookup k = some e' ∧ e'.slot = e.slot) : ReservationsInv seg' := by
  intro k slot hslot
  obtain ⟨e, he, rfl⟩ := h k slot (hreservations k slot hslot)
  exact hslots k e he ⟨_, hslot⟩

theorem congr (h : ReservationsInv seg) (hmanifest : seg'.manifestByKey = seg.manifestByKey)
    (hreservations : seg'.globalDemotionReservations = seg.globalDemotionReservations) :
    ReservationsInv seg' := by
  rw [ReservationsInv, hmanifest, hreservations]
  exact h

variable {f : OwnerSlotManifestEntry → OwnerSlotManifestEntry} {e : OwnerSlotManifestEntry}

variable (h : ReservationsInv seg)
include h

theorem updateManifest (key : OwnerManifestKey)
    (hslot : ∀ e, (f e).slot = e.slot) : ReservationsInv (seg.updateManifest key f) := by
  refine h.of_slots (fun _ _ => id) fun k e he _ => ?_
  rw [show (seg.updateManifest key f).manifestByKey = seg.manifestByKey.modify key f from rfl,
    lookup_modify]
  split
  · rename_i heq
    exact ⟨f e, by rw [← heq, he]; rfl, hslot e⟩
  · exact ⟨e, he, rfl⟩

theorem updateManifestByAllocation (id : ℕ)
    (hslot : ∀ e, (f e).slot = e.slot) : ReservationsInv (seg.updateManifestByAllocation id f) := by
  unfold OwnerSegmentState.updateManifestByAllocation
  split
  · exact h.updateManifest _ hslot
  · exact h

theorem insertManifest (hkey : seg.manifestByKey.lookup e.manifestKey = none) :
    ReservationsInv (seg.insertManifest e) := by
  refine h.of_slots (fun _ _ => id) fun k e' he' _ => ⟨e', ?_, rfl⟩
  refine (lookup_insert_eq _ _ _ _).trans ((if_neg ?_).trans he')
  rintro rfl
  rw [hkey] at he'
  cases he'

theorem reserved {key : OwnerManifestKey}
    (he : seg.manifestByKey.lookup key = some e) : ReservationsInv (seg.reserved key e.slot) := by
  intro k slot hslot
  rw [show (seg.reserved key e.slot).globalDemotionReservations =
    AList.insert key e.slot seg.globalDemotionReservations from rfl, lookup_insert_eq]
    at hslot
  split at hslot
  · rename_i heq
    exact ⟨e, heq ▸ he, some.inj hslot⟩
  · exact h k slot hslot

theorem removeReservation (key : OwnerManifestKey) :
    ReservationsInv (seg.removeReservation key) := by
  exact h.of_slots (fun _ _ hslot => (lookup_of_erase hslot).2) fun k e he _ => ⟨e, he, rfl⟩

/-- The reservation of a freed slot goes with its manifest entry. -/
theorem freed [OffsetAllocator A] (hm : ManifestInv seg) (id : ℕ)
    (a : OwnerAllocationState) : ReservationsInv (seg.freed id a) := by
  intro k slot hslot
  cases hkey : seg.manifestKeyByAllocation.lookup id with
  | none =>
    simp only [OwnerSegmentState.freed, hkey, manifestEntryByAllocation] at hslot ⊢
    exact h k slot hslot
  | some key =>
    obtain ⟨e, he, hid⟩ := hm.entry id key hkey
    simp only [OwnerSegmentState.freed, hkey, manifestEntryByAllocation, bind_eq_bind,
      bind_some, he, hm.key_eq key e he, lookup_erase_eq] at hslot ⊢
    split at hslot
    · cases hslot
    · rename_i hne
      rw [if_neg hne]
      exact h k slot hslot

end ReservationsInv

/-! ## Changes of the manifest -/

/-- What an update does to the manifest and the reservations. -/
inductive ManifestChange (seg : OwnerSegmentState A) (u : Update) (seg' : OwnerSegmentState A) : Prop
  | same : seg'.manifestByKey = seg.manifestByKey →
      seg'.globalDemotionReservations = seg.globalDemotionReservations → ManifestChange seg u seg'
  /-- An entry moves on in its life. -/
  | move (key : OwnerManifestKey) (f : OwnerSlotManifestEntry → OwnerSlotManifestEntry) :
      (∀ e, (f e).slot = e.slot ∧ (f e).scope = e.scope ∧ (f e).disposition = e.disposition) →
      seg'.manifestByKey = seg.manifestByKey.modify key f →
      seg'.globalDemotionReservations = seg.globalDemotionReservations → ManifestChange seg u seg'
  | insert (e : OwnerSlotManifestEntry) : u = .insertManifest e →
      seg.manifestByKey.lookup e.manifestKey = none →
      seg'.manifestByKey = AList.insert e.manifestKey e seg.manifestByKey →
      seg'.globalDemotionReservations = seg.globalDemotionReservations → ManifestChange seg u seg'
  | rescope (key : OwnerManifestKey) (c : OwnerSlotScope) (e : OwnerSlotManifestEntry) :
      u = .scope key c → seg.manifestByKey.lookup key = some e →
      seg' = seg.rescoped key c → ManifestChange seg u seg'
  | reserve (key : OwnerManifestKey) (e : OwnerSlotManifestEntry) :
      u = .reserve key e.slot → seg.manifestByKey.lookup key = some e →
      e.scope = some .localExclusive → seg.globalDemotionReservations.lookup key = none →
      seg' = seg.reserved key e.slot → ManifestChange seg u seg'
  | unreserve (key : OwnerManifestKey) : u = .unreserve key →
      seg' = seg.removeReservation key → ManifestChange seg u seg'
  | free (key : OwnerManifestKey) (e : OwnerSlotManifestEntry) :
      seg.manifestByKey.lookup key = some e → seg'.allocation e.slot.allocationId = none →
      seg'.manifestByKey = seg.manifestByKey.erase key →
      seg'.globalDemotionReservations = seg.globalDemotionReservations.erase key →
      ManifestChange seg u seg'

theorem lookup_rescoped (seg : OwnerSegmentState A) (key k : OwnerManifestKey)
    (c : OwnerSlotScope) : (seg.rescoped key c).manifestByKey.lookup k =
      if k = key then (seg.manifestByKey.lookup key).map fun e =>
        { e with scope := some c, disposition := c.disposition }
      else seg.manifestByKey.lookup k :=
  lookup_modify _ _ _ _

theorem lookup_reserved (seg : OwnerSegmentState A) (key k : OwnerManifestKey)
    (slot : OwnerSlotDesc) : (seg.reserved key slot).globalDemotionReservations.lookup k =
      if k = key then some slot else seg.globalDemotionReservations.lookup k :=
  lookup_insert_eq _ _ _ _

theorem lookup_removeReservation (seg : OwnerSegmentState A) (key k : OwnerManifestKey) :
    (seg.removeReservation key).globalDemotionReservations.lookup k =
      if k = key then none else seg.globalDemotionReservations.lookup k :=
  lookup_erase_eq _ _ _

/-- What becomes of an entry. -/
theorem ManifestChange.entry {seg' : OwnerSegmentState A} {u : Update}
    (h : ManifestChange seg u seg') {k : OwnerManifestKey} {e : OwnerSlotManifestEntry}
    (he : seg.manifestByKey.lookup k = some e) :
    (∃ e', seg'.manifestByKey.lookup k = some e' ∧ e'.slot = e.slot) ∨
      seg'.allocation e.slot.allocationId = none := by
  cases h with
  | same hkeys => exact .inl ⟨e, hkeys ▸ he, rfl⟩
  | move key f hf hkeys =>
    rw [hkeys, lookup_modify]
    split
    · rename_i heq
      exact .inl ⟨f e, by rw [← heq, he]; rfl, (hf e).1⟩
    · exact .inl ⟨e, he, rfl⟩
  | insert e' _ hkey hkeys =>
    refine .inl ⟨e, ?_, rfl⟩
    rw [hkeys, lookup_insert_eq, if_neg, he]
    rintro rfl
    rw [hkey] at he
    cases he
  | rescope key c _ _ _ hseg =>
    subst hseg
    rw [lookup_rescoped]
    split
    · rename_i heq
      exact .inl ⟨{ e with scope := some c, disposition := c.disposition },
        by rw [← heq, he]; rfl, rfl⟩
    · exact .inl ⟨e, he, rfl⟩
  | reserve _ _ _ _ _ _ hseg | unreserve _ _ hseg =>
    subst hseg
    exact .inl ⟨e, he, rfl⟩
  | free key e' he' hfreed hkeys =>
    rw [hkeys, lookup_erase_eq]
    split
    · rename_i heq
      subst heq
      cases he.symm.trans he'
      exact .inr hfreed
    · exact .inl ⟨e, he, rfl⟩

theorem manifestChange_updateManifestByAllocation (seg : OwnerSegmentState A) (u : Update) (id : ℕ)
    {f : OwnerSlotManifestEntry → OwnerSlotManifestEntry}
    (hf : ∀ e, (f e).slot = e.slot ∧ (f e).scope = e.scope ∧ (f e).disposition = e.disposition) :
    ManifestChange seg u (seg.updateManifestByAllocation id f) := by
  unfold updateManifestByAllocation
  split
  · rename_i key _
    exact .move key f hf rfl rfl
  · exact .same rfl rfl

theorem manifestChange_freed [OffsetAllocator A] (hm : ManifestInv seg) (u : Update) (id : ℕ)
    (a : OwnerAllocationState) : ManifestChange seg u (seg.freed id a) := by
  cases hkey : seg.manifestKeyByAllocation.lookup id with
  | none => refine .same ?_ ?_ <;> simp [freed, hkey, manifestEntryByAllocation]
  | some key =>
    obtain ⟨e, he, hid⟩ := hm.entry id key hkey
    refine .free key e he ?_ ?_ ?_
    · rw [allocation_freed, hid, if_pos rfl]
    · simp [freed, hkey]
    · simp [freed, hkey, manifestEntryByAllocation, he, hm.key_eq key e he]

end OwnerSegmentState

open OwnerSegmentState OwnerSegmentAllocator in
theorem Update.Step.manifestChange [OffsetAllocator A] {s s' : OwnerSegmentAllocator A} {u : Update}
    {seg : OwnerSegmentState A} (h : Update.Step s u s') (hs : s.segment = some seg)
    (hm : ManifestInv seg) :
    ∃ seg', s'.segment = some seg' ∧ seg'.len = seg.len ∧ ManifestChange seg u seg' := by
  obtain ⟨seg', hs', hchange⟩ := h.change hs
  refine ⟨seg', hs', ?_⟩
  cases hchange with
  | freePrepared | free => exact ⟨rfl, manifestChange_freed hm _ _ _⟩
  | @freeSource op outcome r a =>
    -- the lease table does not matter here
    have hchange := manifestChange_freed hm (.freeSource op outcome)
      r.routeToken.source.allocationId a
    refine ⟨rfl, ?_⟩
    cases hchange with
    | same h₁ h₂ => exact .same h₁ h₂
    | move key f hf h₁ h₂ => exact .move key f hf h₁ h₂
    | free key e he h₀ h₁ h₂ => exact .free key e he h₀ h₁ h₂
    | insert _ h | rescope _ _ _ h | reserve _ _ h | unreserve _ h => cases h
  | insertManifest _ hkey => exact ⟨rfl, .insert _ rfl hkey rfl rfl⟩
  | physicalState | commitManifest =>
    obtain ⟨t, ht⟩ := seg.updateManifestByAllocation_eq _ _
    exact ⟨congrArg (·.len) ht, manifestChange_updateManifestByAllocation seg _ _ fun e =>
      ⟨rfl, rfl, rfl⟩⟩
  | scope he => exact ⟨rfl, .rescope _ _ _ rfl he rfl⟩
  | reserve he hlocal hnone => exact ⟨rfl, .reserve _ _ rfl he hlocal hnone rfl⟩
  | unreserve => exact ⟨rfl, .unreserve _ rfl rfl⟩
  | _ => exact ⟨rfl, .same rfl rfl⟩

end Fluxon.OwnerSegment
