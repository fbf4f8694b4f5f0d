import Fluxon.OwnerSegment.Update

/-!
# What the segment calls do

One specification for each call of `OwnerSegmentState`: the state it leaves when it returns, and
why it panicked when it does not. A panic leaves the target leases as they were.
-/

namespace Fluxon.OwnerSegment

open OffsetAllocator Call Option

variable {A : Type}

theorem DemotionRequest.names_iff {r : DemotionRequest} {slot : OwnerSlotDesc} :
    r.names slot = true ↔ slot.allocationId = r.allocationId ∧
      slot.segmentOffset = r.segmentOffset ∧ slot.capacityBytes = r.capacityBytes := by
  simp [DemotionRequest.names, and_assoc]

namespace OwnerSegmentState

variable (seg : OwnerSegmentState A) (id : ℕ) {a : OwnerAllocationState}

/-! ## Freeing after an update of the freed slot

The record of the slot and its manifest entry go, so their last updates leave no trace. -/

theorem unbindManifest_eq : seg.unbindManifest id =
      { seg with
        manifestKeyByAllocation := seg.manifestKeyByAllocation.erase id
        manifestByKey :=
          match seg.manifestKeyByAllocation.lookup id with
          | some key => seg.manifestByKey.erase key
          | none => seg.manifestByKey
        globalDemotionReservations :=
          match seg.manifestEntryByAllocation id with
          | some e => seg.globalDemotionReservations.erase e.manifestKey
          | none => seg.globalDemotionReservations } := by
  unfold unbindManifest removeManifestForAllocation manifestEntryByAllocation
  cases hk : seg.manifestKeyByAllocation.lookup id with
  | none => simp [Table.erase_of_lookup hk]
  | some key => cases he : seg.manifestByKey.lookup key <;> simp [he, removeReservation]

variable {seg id} in
theorem allocation_inj {a' : OwnerAllocationState} (ha' : seg.allocation id = some a')
    (ha : seg.allocation id = some a) : a' = a :=
  some.inj (ha'.symm.trans ha)

variable {seg id} in
theorem slotDesc_of_allocation (h : seg.allocation id = some a) :
    seg.slotDesc id = (checkedAdd seg.addr a.segmentOffset).map fun addr =>
      { owner := seg.owner
        allocationId := id
        segmentOffset := a.segmentOffset
        capacityBytes := a.capacityBytes
        addr
        baseAddr := seg.baseAddr
        len := a.valueLen
        segmentRegistrationEpoch := seg.registrationEpoch } := by
  simp only [slotDesc, h, bind_eq_bind, bind_some]
  cases checkedAdd seg.addr a.segmentOffset <;> rfl

theorem allocation_claimed_self (allocator : A) (a : OwnerAllocationState) :
    (seg.claimed allocator a).allocation a.allocationId = some a :=
  AList.lookup_insert _

theorem allocation_updateAllocation (id' : ℕ) (f : OwnerAllocationState → OwnerAllocationState) :
    (seg.updateAllocation id f).allocation id' =
      if id' = id then (seg.allocation id).map f else seg.allocation id' :=
  Table.lookup_modify _ _ _ _

variable {id} in
theorem allocation_updateAllocation_self {s : OwnerSegmentState A}
    (f : OwnerAllocationState → OwnerAllocationState) (h : s.allocation id = some a) :
    (s.updateAllocation id f).allocation id = some (f a) := by
  rw [allocation_updateAllocation, if_pos rfl, h]
  rfl

theorem freed_updateAllocation [OffsetAllocator A] (f : OwnerAllocationState → OwnerAllocationState)
    (a : OwnerAllocationState) : (seg.updateAllocation id f).freed id a = seg.freed id a := by
  unfold freed updateAllocation
  simp only [Table.erase_modify]
  rfl

theorem freed_setPhysicalState [OffsetAllocator A] (state : OwnerSlotPhysicalState)
    (a : OwnerAllocationState) : (seg.setPhysicalState id state).freed id a = seg.freed id a := by
  unfold setPhysicalState updateManifestByAllocation
  cases hk : seg.manifestKeyByAllocation.lookup id with
  | none => rfl
  | some key =>
    cases he : seg.manifestByKey.lookup key <;>
      simp [freed, updateManifest, manifestEntryByAllocation, hk, he, Table.erase_modify,
        Table.lookup_modify, OwnerSlotManifestEntry.manifestKey]

theorem allocation_setPhysicalState (id' : ℕ) (state : OwnerSlotPhysicalState) :
    (seg.setPhysicalState id state).allocation id' = seg.allocation id' := by
  unfold setPhysicalState updateManifestByAllocation
  split <;> rfl

theorem leaseView_setPhysicalState (state : OwnerSlotPhysicalState) :
    (seg.setPhysicalState id state).leaseView = seg.leaseView := by
  unfold setPhysicalState updateManifestByAllocation
  split <;> rfl

theorem allocationsByOffset_setPhysicalState (state : OwnerSlotPhysicalState) :
    (seg.setPhysicalState id state).allocationsByOffset = seg.allocationsByOffset := by
  unfold setPhysicalState updateManifestByAllocation
  split <;> rfl

theorem allocation_freed [OffsetAllocator A] (id' : ℕ) (a : OwnerAllocationState) :
    (seg.freed id a).allocation id' = if id' = id then none else seg.allocation id' :=
  Table.lookup_erase_eq _ _ _

variable {seg id} in
theorem allocation_unrouted (state : OwnerSlotState) (ha : seg.allocation id = some a) :
    ((seg.setSlotState id state).setPhysicalState id .reclaiming).allocation id =
      some { a with state } :=
  (allocation_setPhysicalState _ _ _ _).trans (allocation_updateAllocation_self _ ha)

/-! ## Reservations -/

/-- A request either leaves the segment alone, or inserts a reservation for the exact slot of a
local-exclusive entry within the budget. -/
theorem tryReserveGlobalDemotion_cases (localTargetBytes : ℕ) (r : DemotionRequest)
    (accounted : ℕ) :
    (seg.tryReserveGlobalDemotion localTargetBytes r accounted).2 = (accounted, seg) ∨
      ∃ e, seg.manifestByKey.lookup r.manifestKey = some e ∧ e.scope = some .localExclusive ∧
        seg.globalDemotionReservations.lookup r.manifestKey = none ∧
        accounted + e.slot.capacityBytes ≤ u64Max ∧
        accounted + e.slot.capacityBytes ≤ seg.len - localTargetBytes ∧
        (seg.tryReserveGlobalDemotion localTargetBytes r accounted).2 =
          (accounted + e.slot.capacityBytes, seg.reserved r.manifestKey e.slot) := by
  fun_cases tryReserveGlobalDemotion seg localTargetBytes r accounted <;> try exact .inl rfl
  next e he hnames _ hlocal hres _ next hnext hle =>
  push Not at hnames hlocal hle
  -- the request names the slot of the entry, so the sizes agree
  have hcap : e.slot.capacityBytes = r.capacityBytes :=
    (DemotionRequest.names_iff.1 (by simpa using hnames.1)).2.2
  obtain ⟨hfits, rfl⟩ := checkedAdd_eq_some.1 hnext
  refine .inr ⟨e, he, hlocal, hres, by rwa [hcap], by rwa [hcap], ?_⟩
  rw [hcap]
  rfl

/-! ## Manifest entries and source leases -/

/-- A replay names the whole slot. -/
theorem eq_of_geometryMatches {a b : OwnerSlotDesc} (h : a.geometryMatches b ∧ a.len = b.len ∧
    a.segmentRegistrationEpoch = b.segmentRegistrationEpoch) : a = b := by
  cases a
  cases b
  simpa [OwnerSlotDesc.geometryMatches, and_assoc] using h

variable {seg id}

/-- An entry is installed only for a live slot, under a free key; a replay changes nothing. -/
theorem post_installManifestEntry {entry : OwnerSlotManifestEntry} :
    Post (installManifestEntry entry) seg
      (fun r seg' =>
        (∃ e, r = .error e ∧ seg' = seg ∧ (entry.key = "" ∨ entry.slot.isValid = false ∨
          seg.identityMatchesDesc entry.slot = false ∨
          seg.manifestByKey.lookup entry.manifestKey ≠ none ∨
          seg.manifestKeyByAllocation.lookup entry.slot.allocationId ≠ none)) ∨
        (r = .ok () ∧ seg' = seg ∧
          ∃ e, seg.manifestByKey.lookup entry.manifestKey = some e ∧ e.slot = entry.slot) ∨
        (r = .ok () ∧ entry.slot.isValid = true ∧ seg.identityMatchesDesc entry.slot = true ∧
          seg.manifestByKey.lookup entry.manifestKey = none ∧
          seg.manifestKeyByAllocation.lookup entry.slot.allocationId = none ∧
          seg' = seg.insertManifest entry))
      (fun _ _ => False) := by
  simp only [installManifestEntry, post_bind, post_get, post_ite, post_pure]
  refine ⟨fun hguard => .inl ⟨_, rfl, trivial, ?_⟩, fun hvalid => ?_⟩
  · rcases hguard with h | h | h
    · exact .inl h
    · exact .inr (.inl (by simpa using h))
    · exact .inr (.inr (.inl (by simpa using h)))
  push Not at hvalid
  split
  · rename_i existing he
    simp only [post_ite, post_pure]
    exact ⟨fun hsame => .inr (.inl ⟨trivial, trivial, existing, he, eq_of_geometryMatches hsame⟩),
      fun _ => .inl ⟨_, rfl, trivial, .inr (.inr (.inr (.inl (by simp [he]))))⟩⟩
  rename_i he
  split
  · rename_i hk
    exact .inl ⟨_, rfl, rfl, .inr (.inr (.inr (.inr (by simp [hk]))))⟩
  rename_i hk
  refine .inr (.inr ⟨rfl, ?_, ?_, ?_, ?_, rfl⟩)
  · simpa using hvalid.2.1
  · simpa using hvalid.2.2
  · exact eq_none_iff_forall_ne_some.2 he
  · exact eq_none_iff_forall_ne_some.2 hk

variable {op : OwnerTransferOpId} {leaseId : OwnerLeaseId}

theorem post_acquireSource {token : OwnerSourceRouteToken} :
    Post (acquireSource op token leaseId) seg
      (fun _ seg' => seg' = seg ∨ ∃ a n, seg.sourceLeases.lookup op = none ∧
        seg.allocation token.source.allocationId = some a ∧ a.state = .committed true n ∧
        seg' = seg.acquired op leaseId token (a.sourceReadLeaseCount + 1))
      (fun _ seg' => seg' = seg ∧ ∃ a, seg.allocation token.source.allocationId = some a ∧
        u32Max < a.sourceReadLeaseCount + 1) := by
  simp only [acquireSource, post_bind, post_get]
  split
  · simp only [post_ite, post_pure]
    refine ⟨fun _ => .inl trivial, fun _ => ?_⟩
    split <;> exact .inl rfl
  rename_i he
  simp only [post_ite, post_pure]
  refine ⟨fun _ => .inl trivial, fun _ => ⟨fun _ => .inl trivial, fun _ => ?_⟩⟩
  split
  · simp only [post_ite, post_pure]
    refine ⟨fun _ => .inl trivial, fun _ => ?_⟩
    split
    · rename_i a ha
      split
      · rename_i n hstate
        simp only [post_bind, post_expect, post_modify, post_pure, checkedAdd32_eq_some,
          checkedAdd32_eq_none]
        refine ⟨fun count hc => .inr ⟨a, n, ?_, ha, hstate, ?_⟩, fun hc => ⟨trivial, a, ha, hc⟩⟩
        · exact eq_none_iff_forall_ne_some.2 he
        · rw [hc.2]
          rfl
      · exact .inl rfl
    · exact .inl rfl
  · exact .inl rfl

/-! ## Slot states -/

theorem post_retainCommittedRouteOnlyHolder : Post (retainCommittedRouteOnlyHolder id) seg
      (fun _ seg' => seg' = seg ∨ ∃ a, seg.allocation id = some a ∧ a.state = .committed true 0 ∧
        seg' = seg.setSlotState id (.committed true 1))
      (fun _ _ => False) := by
  simp only [retainCommittedRouteOnlyHolder, post_bind, post_get]
  split
  · rename_i a ha
    split
    · rename_i hstate
      exact .inr ⟨a, ha, hstate, rfl⟩
    · exact .inl rfl
  · exact .inl rfl

theorem post_markPreparedSlotPendingVisible : Post (markPreparedSlotPendingVisible id) seg
      (fun _ seg' => ∃ a, seg.allocation id = some a ∧ a.state = .prepared ∧
        seg' = seg.setSlotState id (.pendingLocalVisible 0))
      (fun _ seg' => seg' = seg ∧ ∀ a, seg.allocation id = some a → a.state ≠ .prepared) := by
  simp only [markPreparedSlotPendingVisible, post_bind, post_get, post_expect, post_require,
    post_modify]
  refine ⟨fun a ha => ⟨fun hstate => ⟨a, ha, hstate, trivial⟩, fun hstate => ⟨trivial, ?_⟩⟩,
    fun hnone => ⟨trivial, ?_⟩⟩
  · intro a' ha'
    rwa [← some.inj (ha.symm.trans ha')]
  · intro a' ha'
    simp [hnone] at ha'

theorem post_promotePendingVisibleSlotToCommitted :
    Post (promotePendingVisibleSlotToCommitted id) seg
      (fun _ seg' => ∃ a n, seg.allocation id = some a ∧ a.state = .pendingLocalVisible n ∧
        seg' = seg.setSlotState id (.committed true n))
      (fun _ seg' => seg' = seg ∧
        ∀ a n, seg.allocation id = some a → a.state ≠ .pendingLocalVisible n) := by
  simp only [promotePendingVisibleSlotToCommitted, post_bind, post_get, post_expect]
  refine ⟨fun a ha => ?_, fun hnone => ⟨trivial, fun a' _ ha' => by simp [hnone] at ha'⟩⟩
  split
  · rename_i n hstate
    exact ⟨a, n, ha, hstate, rfl⟩
  · rename_i hstate
    refine ⟨rfl, fun a' n ha' => ?_⟩
    rw [← some.inj (ha.symm.trans ha')]
    exact hstate n

theorem post_retainResidentSlotHolder : Post (retainResidentSlotHolder id) seg
      (fun _ seg' => ∃ a, seg.allocation id = some a ∧ a.state ≠ .prepared ∧
        seg' = seg.setSlotState id (a.state.withHolders (a.state.holders + 1)))
      (fun _ seg' => seg' = seg ∧ ∀ a, seg.allocation id = some a →
        a.state = .prepared ∨ u32Max < a.state.holders + 1) := by
  simp only [retainResidentSlotHolder, post_bind, post_get, post_expect]
  refine ⟨fun a ha => ?_, fun hnone => ⟨trivial, fun a' ha' => by simp [hnone] at ha'⟩⟩
  split <;> rename_i hstate
  case h_3 =>
    refine ⟨rfl, fun a' ha' => .inl ?_⟩
    rw [allocation_inj ha' ha, hstate]
  all_goals
    simp only [post_bind, post_expect, post_modify, checkedAdd32_eq_some, checkedAdd32_eq_none]
    refine ⟨fun n' hn => ⟨a, ha, by simp [hstate], ?_⟩, fun hn => ⟨trivial, fun a' ha' => ?_⟩⟩
    · rw [hn.2, hstate]
      rfl
    · rw [allocation_inj ha' ha, hstate]
      exact .inr hn

variable [OffsetAllocator A]

/-! ## Claims and frees -/

/-- What `freeAllocation` asserts about the record of the allocation. -/
structure Freeable (seg : OwnerSegmentState A) (id : ℕ) (a : OwnerAllocationState) : Prop where
  id_eq : a.allocationId = id
  leases : a.sourceReadLeaseCount = 0
  index : seg.allocationsByOffset.lookup a.allocation.offset = some id

theorem post_freeAllocation : Post (freeAllocation id) seg
      (fun _ seg' => ∃ a, seg.allocation id = some a ∧ seg.Freeable id a ∧ seg' = seg.freed id a)
      (fun _ seg' => seg'.leaseView = seg.leaseView ∧
        ∀ a, seg.allocation id = some a → ¬seg.Freeable id a) := by
  simp only [freeAllocation, unbindManifest_eq, post_bind, post_get, post_expect, post_modify,
    post_require]
  refine ⟨fun a ha => ⟨fun hid => ⟨fun hn => ⟨fun hi => ?_, fun hi => ?_⟩, fun hn => ?_⟩,
    fun hid => ?_⟩, fun hnone => ?_⟩
  · exact ⟨a, ha, ⟨hid, hn, hi⟩, rfl⟩
  · exact ⟨rfl, fun a' ha' h => hi (by rw [← h.index, some.inj (ha.symm.trans ha')])⟩
  · exact ⟨rfl, fun a' ha' h => hn (by rw [← h.leases, some.inj (ha.symm.trans ha')])⟩
  · exact ⟨rfl, fun a' ha' h => hid (by rw [← h.id_eq, some.inj (ha.symm.trans ha')])⟩
  · exact ⟨trivial, fun a' ha' => by simp [hnone] at ha'⟩

variable {s s₁ : OwnerSegmentState A}

/-- A freed slot whose record and manifest entry were updated just before. -/
theorem post_freeAllocation_of_eq {a₁ : OwnerAllocationState} (ha : s₁.allocation id = some a₁)
    (halloc : a₁.allocation = a.allocation) (hid : a₁.allocationId = a.allocationId)
    (hindex : s₁.allocationsByOffset = s.allocationsByOffset)
    (htargets : s₁.leaseView = s.leaseView) (hfreed : s₁.freed id a = s.freed id a) :
    Post (freeAllocation id) s₁ (fun _ s' => a₁.sourceReadLeaseCount = 0 ∧ s' = s.freed id a)
      (fun _ s' => s'.leaseView = s.leaseView ∧
        ¬(a.allocationId = id ∧ a₁.sourceReadLeaseCount = 0 ∧
          s.allocationsByOffset.lookup a.allocation.offset = some id)) := by
  refine post_freeAllocation.mono ?_ ?_
  · rintro _ s' ⟨a', ha', hf, rfl⟩
    obtain rfl : a' = a₁ := some.inj (ha'.symm.trans ha)
    refine ⟨hf.leases, ?_⟩
    rw [← hfreed]
    simp only [freed, halloc]
  · rintro _ s' ⟨ht, hf⟩
    refine ⟨ht.trans htargets, fun h => hf a₁ ha ⟨hid.trans h.1, h.2.1, ?_⟩⟩
    rw [halloc, hindex, h.2.2]

theorem post_claimPreparedSlot {capacityBytes valueLen n : ℕ} :
    Post (claimPreparedSlot capacityBytes valueLen (n + 1)) seg
      (fun r seg' =>
        (r = none ∧ seg' = seg) ∨
        (∃ units allocator x, r = none ∧ 0 < units ∧
          allocate seg.allocator units = some (x, allocator) ∧
          ownerSegmentOffsetBytes x.offset = none ∧ seg' = { seg with allocator }) ∨
        ∃ a allocator, Update.Claimable seg n a allocator ∧ a.capacityBytes = capacityBytes ∧
          a.valueLen = valueLen ∧ r = seg'.slotDesc (n + 1) ∧ seg' = seg.claimed allocator a)
      (fun _ seg' => seg'.leaseView = seg.leaseView ∧ ∃ x allocator,
        0 < capacityBytes / granularityBytes ∧
        allocate seg.allocator (capacityBytes / granularityBytes) = some (x, allocator) ∧
        (seg.allocation (n + 1) ≠ none ∨ seg.allocationsByOffset.lookup x.offset ≠ none)) := by
  simp only [claimPreparedSlot, post_bind, post_get, post_ite, post_pure, Nat.add_eq_zero_iff,
    one_ne_zero, and_false]
  refine ⟨False.elim, fun _ => ⟨fun _ => .inl ⟨trivial, trivial⟩, fun hg =>
    ⟨fun _ => .inl ⟨trivial, trivial⟩, fun _ => ?_⟩⟩⟩
  push Not at hg
  have hunits : 0 < capacityBytes / granularityBytes := by
    unfold granularityBytes at *
    omega
  split
  · rename_i x allocator hx
    split
    · rename_i off ho
      simp only [post_bind, post_modify, post_require]
      refine ⟨fun hfresh => ⟨fun hindex => ?_, fun hindex => ?_⟩, fun hfresh => ?_⟩
      · have hclaim : Update.Claimable seg n ⟨n + 1, x, off, capacityBytes, valueLen, 0, .prepared⟩
            allocator :=
          ⟨rfl, hfresh, hindex, hx, ho, Nat.pos_of_ne_zero hg.2.1, hg.2.2.2.2,
            Nat.pos_of_ne_zero hg.1, hg.2.2.1, rfl, rfl⟩
        split
        · rename_i addr haddr
          refine .inr (.inr ⟨_, allocator, hclaim, rfl, rfl, ?_, rfl⟩)
          simp [slotDesc, allocation, haddr]
        · rename_i haddr
          refine .inr (.inr ⟨_, allocator, hclaim, rfl, rfl, ?_, rfl⟩)
          cases h : checkedAdd seg.addr off with
          | none => simp [slotDesc, allocation, h]
          | some addr => exact (haddr addr h).elim
      · exact ⟨rfl, x, allocator, hunits, hx, .inr hindex⟩
      · exact ⟨rfl, x, allocator, hunits, hx, .inl hfresh⟩
    · rename_i ho
      refine .inr (.inl ⟨_, allocator, x, rfl, hunits, hx, ?_, rfl⟩)
      cases h : ownerSegmentOffsetBytes x.offset with
      | none => rfl
      | some off => exact (ho off h).elim
  · exact .inl ⟨rfl, rfl⟩

/-- A release takes its lease off the count, and frees the slot when nothing else keeps it. -/
theorem post_releaseSource {outcome : OwnerTransferOutcome} :
    Post (releaseSource op leaseId outcome) seg
      (fun _ seg' =>
        (seg' = seg ∧ ∀ r, seg.sourceLeases.lookup op = some r → r.leaseId = leaseId →
          r.state = .active → ∀ a, seg.allocation r.routeToken.source.allocationId = some a →
            a.sourceReadLeaseCount = 0) ∨
        ∃ r a, seg.sourceLeases.lookup op = some r ∧ r.leaseId = leaseId ∧ r.state = .active ∧
          seg.allocation r.routeToken.source.allocationId = some a ∧
          ((0 < a.sourceReadLeaseCount ∧
              ¬(a.sourceReadLeaseCount = 1 ∧ a.state = .committed false 0) ∧
              seg' = (seg.setSourceReadLeaseCount r.routeToken.source.allocationId
                (a.sourceReadLeaseCount - 1)).setSourceLeaseState op (.released outcome)) ∨
            (a.sourceReadLeaseCount = 1 ∧ a.state = .committed false 0 ∧
              seg' = (seg.setSourceLeaseState op (.released outcome)).freed
                r.routeToken.source.allocationId a)))
      (fun _ seg' => seg'.leaseView = seg.leaseView ∧
        ∃ r a, seg.sourceLeases.lookup op = some r ∧ r.state = .active ∧
          seg.allocation r.routeToken.source.allocationId = some a ∧
          ¬(a.allocationId = r.routeToken.source.allocationId ∧
            seg.allocationsByOffset.lookup a.allocation.offset =
              some r.routeToken.source.allocationId)) := by
  simp only [releaseSource, post_bind, post_get]
  split
  · rename_i r hr
    simp only [post_ite, post_pure]
    refine ⟨fun hl => .inl ⟨trivial, fun r' hr' hl' => ?_⟩, fun hl => ?_⟩
    · rw [hr] at hr'
      exact (hl ((congrArg _ (some.inj hr')).trans hl')).elim
    have hl : r.leaseId = leaseId := not_not.1 hl
    split
    · rename_i previous hstate
      have hkeep : ∀ r', seg.sourceLeases.lookup op = some r' → r'.leaseId = leaseId →
          r'.state = .active → ∀ a, seg.allocation r'.routeToken.source.allocationId = some a →
            a.sourceReadLeaseCount = 0 := by
        intro r' hr' _ hactive
        rw [hr] at hr'
        rw [← some.inj hr', hstate] at hactive
        cases hactive
      simp only [post_ite, post_pure]
      exact ⟨fun _ => .inl ⟨trivial, hkeep⟩, fun _ => .inl ⟨trivial, hkeep⟩⟩
    · rename_i hactive
      split
      · rename_i a ha
        split
        · rename_i next hnext
          rw [checkedSub_eq_some] at hnext
          obtain ⟨hpos, rfl⟩ := hnext
          simp only [post_bind, post_modify, post_ite, post_pure]
          refine ⟨fun hlast => ?_, fun hlast => ?_⟩
          · have ha₁ := allocation_updateAllocation_self
              (s := seg.setSourceLeaseState op (.released outcome))
              (fun a' => { a' with sourceReadLeaseCount := a.sourceReadLeaseCount - 1 }) ha
            refine (post_freeAllocation_of_eq (s := seg.setSourceLeaseState op (.released outcome))
              ha₁ rfl rfl rfl rfl (freed_updateAllocation _ _ _ _)).mono ?_ ?_
            · rintro _ seg' ⟨-, hfreed⟩
              exact .inr ⟨r, a, hr, hl, hactive, ha, .inr ⟨by omega, hlast.2, hfreed⟩⟩
            · rintro _ seg' ⟨ht, hf⟩
              exact ⟨ht, r, a, hr, hactive, ha, fun h => hf ⟨h.1, hlast.1, h.2⟩⟩
          · refine .inr ⟨r, a, hr, hl, hactive, ha, .inl ⟨hpos, fun h => hlast ⟨by omega, h.2⟩, rfl⟩⟩
        · rename_i hzero
          refine .inl ⟨rfl, fun r' hr' _ _ a' ha' => ?_⟩
          rw [hr] at hr'
          rw [← some.inj hr', ha] at ha'
          rw [← some.inj ha']
          by_contra hne
          exact hzero _ (checkedSub_eq_some.2 ⟨Nat.pos_of_ne_zero hne, rfl⟩)
      · rename_i hnone
        refine .inl ⟨rfl, fun r' hr' _ _ a' ha' => ?_⟩
        rw [hr] at hr'
        rw [← some.inj hr'] at ha'
        exact (hnone a' ha').elim
  · rename_i hnone
    exact .inl ⟨rfl, fun r' hr' => (hnone r' hr').elim⟩

/-! ## Releases

Each release either leaves the slot with what still keeps it, or frees it. -/

theorem post_releasePreparedSlot : Post (releasePreparedSlot id) seg
      (fun _ seg' => ∃ a, seg.allocation id = some a ∧ a.state = .prepared ∧
        a.sourceReadLeaseCount = 0 ∧ seg' = seg.freed id a)
      (fun _ seg' => seg'.leaseView = seg.leaseView ∧
        ∀ a, seg.allocation id = some a → a.state = .prepared → ¬seg.Freeable id a) := by
  simp only [releasePreparedSlot, post_bind, post_get, post_expect, post_require]
  refine ⟨fun a ha => ⟨fun hstate => ?_, fun hstate => ⟨trivial, ?_⟩⟩, fun hnone => ⟨trivial, ?_⟩⟩
  · refine post_freeAllocation.mono ?_ ?_
    · rintro _ seg' ⟨a', ha', hf, rfl⟩
      obtain rfl : a' = a := some.inj (ha'.symm.trans ha)
      exact ⟨a', ha, hstate, hf.leases, rfl⟩
    · rintro _ seg' ⟨ht, hf⟩
      exact ⟨ht, fun a' ha' _ => hf a' ha'⟩
  · intro a' ha' hstate'
    rw [← some.inj (ha.symm.trans ha')] at hstate'
    exact (hstate hstate').elim
  · intro a' ha'
    simp [hnone] at ha'

/-- A release has moved the slot `a` to `state` in `seg₁`, and freed it if that left nothing to
keep it. -/
def Settled (seg seg₁ : OwnerSegmentState A) (id : ℕ) (a : OwnerAllocationState)
    (state : OwnerSlotState) (seg' : OwnerSegmentState A) : Prop :=
  (¬(state.idle = true ∧ a.sourceReadLeaseCount = 0) ∧ seg' = seg₁) ∨
    (state.idle = true ∧ a.sourceReadLeaseCount = 0 ∧ seg' = seg.freed id a)

theorem post_settle {state : OwnerSlotState} {p : Prop} [Decidable p]
    (ha : s₁.allocation id = some { a with state })
    (hindex : s₁.allocationsByOffset = s.allocationsByOffset)
    (htargets : s₁.leaseView = s.leaseView) (hfreed : s₁.freed id a = s.freed id a)
    (hp : p ↔ state.idle = true ∧ a.sourceReadLeaseCount = 0) :
    Post (if p then freeAllocation id else pure ()) s₁ (fun _ s' => Settled s s₁ id a state s')
      (fun _ s' => s'.leaseView = s.leaseView ∧ a.sourceReadLeaseCount = 0 ∧ ¬s.Freeable id a) := by
  simp only [post_ite, post_pure]
  refine ⟨fun h => ?_, fun h => .inl ⟨mt hp.2 h, rfl⟩⟩
  obtain ⟨hidle, hleases⟩ := hp.1 h
  refine (post_freeAllocation_of_eq ha rfl rfl hindex htargets hfreed).mono ?_ ?_
  · rintro _ s' ⟨-, rfl⟩
    exact .inr ⟨hidle, hleases, rfl⟩
  · rintro _ s' ⟨ht, hf⟩
    exact ⟨ht, hleases, fun hfree => hf ⟨hfree.id_eq, hleases, hfree.index⟩⟩

theorem post_releaseResidentSlotHolder : Post (releaseResidentSlotHolder id) seg
      (fun _ seg' => ∃ a, seg.allocation id = some a ∧ a.state ≠ .prepared ∧ 0 < a.state.holders ∧
        Settled seg (seg.setSlotState id (a.state.withHolders (a.state.holders - 1))) id a
          (a.state.withHolders (a.state.holders - 1)) seg')
      (fun _ seg' => seg'.leaseView = seg.leaseView ∧
        ∀ a, seg.allocation id = some a → a.state = .prepared ∨ a.state.holders = 0 ∨
          (a.sourceReadLeaseCount = 0 ∧ ¬seg.Freeable id a)) := by
  simp only [releaseResidentSlotHolder, post_bind, post_get, post_expect]
  refine ⟨fun a ha => ?_, fun hnone => ⟨trivial, fun a' ha' => by simp [hnone] at ha'⟩⟩
  split <;> rename_i hstate
  · simp only [post_bind, post_require, post_modify]
    refine ⟨fun hpos => ?_, fun hzero => ⟨trivial, fun a' ha' => ?_⟩⟩
    · refine Post.mono (post_settle (s := seg) (allocation_updateAllocation_self _ ha) rfl rfl
        (freed_updateAllocation seg id _ a) (by simp)) ?_ ?_
      · rintro _ seg' h
        exact ⟨a, ha, by simp [hstate], by simpa [hstate] using hpos, by rw [hstate]; exact h⟩
      · rintro _ seg' ⟨ht, h⟩
        exact ⟨ht, fun a' ha' => .inr (.inr (allocation_inj ha' ha ▸ h))⟩
    · rw [allocation_inj ha' ha, hstate]
      exact .inr (.inl (by simpa using hzero))
  · simp only [post_bind, post_expect, post_modify, checkedSub_eq_some, checkedSub_eq_none]
    refine ⟨fun n' hn => ?_, fun hzero => ⟨trivial, fun a' ha' => ?_⟩⟩
    · obtain ⟨hpos, rfl⟩ := hn
      refine Post.mono (post_settle (s := seg) (allocation_updateAllocation_self _ ha) rfl rfl
        (freed_updateAllocation seg id _ a) (by simp [and_assoc])) ?_ ?_
      · rintro _ seg' h
        exact ⟨a, ha, by simp [hstate], by rw [hstate]; exact hpos, by rw [hstate]; exact h⟩
      · rintro _ seg' ⟨ht, h⟩
        exact ⟨ht, fun a' ha' => .inr (.inr (allocation_inj ha' ha ▸ h))⟩
    · rw [allocation_inj ha' ha, hstate]
      exact .inr (.inl (by simpa using hzero))
  · refine ⟨rfl, fun a' ha' => .inl ?_⟩
    rw [allocation_inj ha' ha, hstate]

/-- Moving a slot and its manifest entry leaves no trace once the slot is freed. -/
theorem freed_unrouted (state : OwnerSlotState) (a : OwnerAllocationState) :
    ((seg.setSlotState id state).setPhysicalState id .reclaiming).freed id a = seg.freed id a :=
  (freed_setPhysicalState _ _ _ _).trans (freed_updateAllocation _ _ _ _)

theorem post_releaseCommittedSlotRoute : Post (releaseCommittedSlotRoute id) seg
      (fun _ seg' => ∃ a n, seg.allocation id = some a ∧ a.state = .committed true n ∧
        Settled seg ((seg.setSlotState id (.committed false n)).setPhysicalState id .reclaiming)
          id a (.committed false n) seg')
      (fun _ seg' => seg'.leaseView = seg.leaseView ∧
        ∀ a n, seg.allocation id = some a → a.state = .committed true n → ¬seg.Freeable id a) := by
  simp only [releaseCommittedSlotRoute, post_bind, post_get, post_expect]
  refine ⟨fun a ha => ?_, fun hnone => ⟨trivial, fun a' n ha' => by simp [hnone] at ha'⟩⟩
  split <;> rename_i hstate
  · rename_i routeLive n
    simp only [post_bind, post_require, post_modify]
    refine ⟨?_, fun hdead => ⟨trivial, fun a' n' ha' h => ?_⟩⟩
    · rintro rfl
      refine Post.mono (post_settle (s := seg) (allocation_unrouted _ ha)
        (allocationsByOffset_setPhysicalState _ _ _) (leaseView_setPhysicalState _ _ _)
        (freed_unrouted _ a) (by simp)) ?_ ?_
      · rintro _ seg' h
        exact ⟨a, n, ha, hstate, h⟩
      · rintro _ seg' ⟨ht, -, h⟩
        exact ⟨ht, fun a' n' ha' _ => allocation_inj ha' ha ▸ h⟩
    · rw [allocation_inj ha' ha, hstate] at h
      exact (hdead (OwnerSlotState.committed.inj h).1).elim
  · refine ⟨rfl, fun a' n' ha' h => ?_⟩
    rw [allocation_inj ha' ha] at h
    exact (hstate _ _ h).elim

theorem post_releaseCommittedResidentSlot : Post (releaseCommittedResidentSlot id) seg
      (fun _ seg' => ∃ a n, seg.allocation id = some a ∧ a.state = .committed true (n + 1) ∧
        Settled seg ((seg.setSlotState id (.committed false n)).setPhysicalState id .reclaiming)
          id a (.committed false n) seg')
      (fun _ seg' => seg'.leaseView = seg.leaseView ∧
        ∀ a n, seg.allocation id = some a → a.state = .committed true (n + 1) →
          ¬seg.Freeable id a) := by
  simp only [releaseCommittedResidentSlot, post_bind, post_get, post_expect]
  refine ⟨fun a ha => ?_, fun hnone => ⟨trivial, fun a' n ha' => by simp [hnone] at ha'⟩⟩
  split <;> rename_i hstate
  · rename_i routeLive n
    simp only [post_bind, post_require, post_modify]
    refine ⟨?_, fun hdead => ⟨trivial, fun a' n' ha' h => ?_⟩⟩
    · rintro rfl
      refine ⟨fun hpos => ?_, fun hzero => ⟨trivial, fun a' n' ha' h => ?_⟩⟩
      · refine Post.mono (post_settle (s := seg) (allocation_unrouted _ ha)
          (allocationsByOffset_setPhysicalState _ _ _) (leaseView_setPhysicalState _ _ _)
          (freed_unrouted _ a) (by simp)) ?_ ?_
        · rintro _ seg' h
          exact ⟨a, n - 1, ha, by rw [hstate, Nat.sub_add_cancel hpos], h⟩
        · rintro _ seg' ⟨ht, -, h⟩
          exact ⟨ht, fun a' n' ha' _ => allocation_inj ha' ha ▸ h⟩
      · rw [allocation_inj ha' ha, hstate] at h
        have := (OwnerSlotState.committed.inj h).2
        omega
    · rw [allocation_inj ha' ha, hstate] at h
      exact (hdead (OwnerSlotState.committed.inj h).1).elim
  · refine ⟨rfl, fun a' n' ha' h => ?_⟩
    rw [allocation_inj ha' ha] at h
    exact (hstate _ _ h).elim

end OwnerSegmentState

end Fluxon.OwnerSegment
