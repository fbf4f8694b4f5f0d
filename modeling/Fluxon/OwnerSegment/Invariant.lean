import Fluxon.OwnerSegment.TableInvariant

/-!
# The invariant of an installed allocator

`TablesInv` collects the invariants of the manifest, the leases and the reservations; it holds over
any offset allocator. `Inv` adds the invariants of the slots and of the slot counters, over an
offset allocator that keeps its laws and a segment whose addresses do not overflow. Both are kept
by every update (`Update.Step.tables`, `Update.Step.inv`), hence by every call that returns, and
both hold after the installation of the segment.
-/

namespace Fluxon.OwnerSegment

open OwnerSegmentState OwnerAllocationState OwnerSegmentAllocator Call

open OffsetAllocator LawfulOffsetAllocator OwnerSegmentState OwnerSegmentAllocator

variable {A : Type}

namespace OwnerSegmentState

/-- The invariant of the tables around the slots. -/
structure TablesInv (seg : OwnerSegmentState A) : Prop where
  manifest : ManifestInv seg
  leases : LeasesInv seg
  reservations : ReservationsInv seg

variable {seg seg' : OwnerSegmentState A}

theorem sameRegistration_updateManifestByAllocation (seg : OwnerSegmentState A) (id : ℕ)
    (f : OwnerSlotManifestEntry → OwnerSlotManifestEntry) :
    SameRegistration (seg.updateManifestByAllocation id f) seg := by
  obtain ⟨t, ht⟩ := seg.updateManifestByAllocation_eq id f
  rw [ht]
  exact ⟨rfl, rfl, rfl, rfl, rfl⟩

theorem LeasesInv.updateManifestByAllocation (h : LeasesInv seg) (id : ℕ)
    (f : OwnerSlotManifestEntry → OwnerSlotManifestEntry) :
    LeasesInv (seg.updateManifestByAllocation id f) := by
  obtain ⟨t, ht⟩ := seg.updateManifestByAllocation_eq id f
  rw [ht]
  exact h.congr rfl rfl

end OwnerSegmentState

variable {u : Update}

namespace Update.Change

variable [OffsetAllocator A] {seg seg' : OwnerSegmentState A} {n : ℕ} (h : Change n seg u seg')
include h

theorem sameRegistration : SameRegistration seg' seg := by
  cases h with
  | physicalState | commitManifest => exact sameRegistration_updateManifestByAllocation _ _ _
  | _ => exact ⟨rfl, rfl, rfl, rfl, rfl⟩

theorem manifest (hinv : ManifestInv seg) : ManifestInv seg' := by
  cases h with
  | claim hc | leakSlot hc =>
    refine hinv.of_live fun id _ b _ hb => ⟨b, ?_, .refl b⟩
    rw [allocation_claimed, if_neg, hb]
    rintro rfl
    rw [hc.fresh] at hb
    cases hb
  | slotState => exact hinv.updateAllocation fun _ => ⟨rfl, rfl, rfl, rfl, rfl⟩
  | @acquireSource _ _ token a =>
    have hcounted : ManifestInv (seg.setSourceReadLeaseCount token.source.allocationId
        (a.sourceReadLeaseCount + 1)) :=
      hinv.updateAllocation fun _ => ⟨rfl, rfl, rfl, rfl, rfl⟩
    exact hcounted.of_live
  | @releaseSource _ _ r a =>
    have hcounted : ManifestInv (seg.setSourceReadLeaseCount r.routeToken.source.allocationId
        (a.sourceReadLeaseCount - 1)) :=
      hinv.updateAllocation fun _ => ⟨rfl, rfl, rfl, rfl, rfl⟩
    exact hcounted.of_live
  | freePrepared | free => exact hinv.freed _ _
  | @freeSource op outcome =>
    have hreleased : ManifestInv (seg.setSourceLeaseState op (.released outcome)) := hinv.of_live
    exact hreleased.freed _ _
  | insertManifest hid hkey hslot hscope => exact hinv.insertManifest hid hkey hslot hscope
  | physicalState | commitManifest =>
    exact hinv.updateManifestByAllocation _ (fun _ => rfl) (fun _ => rfl) fun _ => id
  | @scope key c =>
    exact hinv.updateManifest key (fun _ => rfl) (fun _ => rfl) fun _ _ => c.scope_disposition.symm
  | _ => exact hinv.of_live

theorem leases (hinv : LeasesInv seg) : LeasesInv seg' := by
  cases h with
  | claim hc | leakSlot hc => exact hinv.claimed hc.fresh hc.leases hc.state
  | slotState ha hrank hreferenced =>
    exact hinv.setSlotState ha (SlotKind.eq_committed_of_rank_le hrank) hreferenced
  | acquireSource hop ha hstate => exact hinv.acquired hop ha hstate
  | releaseSource hr hactive ha hreferenced => exact hinv.released hr hactive ha hreferenced
  | freePrepared ha hzero | free ha hzero => exact hinv.freed ha hzero
  | freeSource hr hactive ha hone => exact hinv.freed_of_released hr hactive ha hone
  | physicalState | commitManifest => exact hinv.updateManifestByAllocation _ _
  | _ => exact hinv.congr rfl rfl

theorem reservations (hmanifest : ManifestInv seg) (hinv : ReservationsInv seg) :
    ReservationsInv seg' := by
  cases h with
  | freePrepared | free => exact hinv.freed hmanifest _ _
  | @freeSource op outcome =>
    have hreleased : ManifestInv (seg.setSourceLeaseState op (.released outcome)) :=
      hmanifest.of_live
    have hreserved : ReservationsInv (seg.setSourceLeaseState op (.released outcome)) :=
      hinv.congr rfl rfl
    exact hreserved.freed hreleased _ _
  | insertManifest hid hkey => exact hinv.insertManifest hkey
  | physicalState | commitManifest => exact hinv.updateManifestByAllocation _ fun _ => rfl
  | scope => exact hinv.updateManifest _ fun _ => rfl
  | reserve he => exact hinv.reserved he
  | unreserve => exact hinv.removeReservation _
  | _ => exact hinv.congr rfl rfl

end Update.Change

/-- **The tables are kept by every update**, over any offset allocator. -/
theorem Update.Step.tables [OffsetAllocator A] {s s' : OwnerSegmentAllocator A}
    {seg : OwnerSegmentState A} (h : Update.Step s u s') (hs : s.segment = some seg)
    (hinv : TablesInv seg) :
    ∃ seg', s'.segment = some seg' ∧ SameRegistration seg' seg ∧ TablesInv seg' := by
  obtain ⟨seg', hs', hchange⟩ := h.change hs
  exact ⟨seg', hs', hchange.sameRegistration, hchange.manifest hinv.manifest,
    hchange.leases hinv.leases, hchange.reservations hinv.manifest hinv.reservations⟩

/-! ## The slots and the slot counters -/

/-- One for a slot of the kind, else zero. -/
def OwnerAllocationState.ofKind (k : SlotKind) (a : OwnerAllocationState) : ℕ :=
  if a.state.kind = k then 1 else 0

namespace OwnerSegmentState

/-- The number of live slots of a kind. -/
def kindCount (seg : OwnerSegmentState A) (k : SlotKind) : ℕ :=
  seg.allocations.sumBy fun _ a => a.ofKind k

variable {seg : OwnerSegmentState A} {id : ℕ} {a : OwnerAllocationState}

theorem kindCount_updateAllocation (ha : seg.allocation id = some a)
    (f : OwnerAllocationState → OwnerAllocationState) (k : SlotKind) :
    (seg.updateAllocation id f).kindCount k + a.ofKind k = seg.kindCount k + (f a).ofKind k :=
  Table.sumBy_modify (fun _ a => a.ofKind k) f ha

theorem kindCount_setSourceReadLeaseCount (ha : seg.allocation id = some a) (n : ℕ) (k : SlotKind) :
    (seg.setSourceReadLeaseCount id n).kindCount k = seg.kindCount k :=
  Nat.add_right_cancel (kindCount_updateAllocation ha _ k)

theorem kindCount_updateManifestByAllocation (seg : OwnerSegmentState A) (id : ℕ)
    (f : OwnerSlotManifestEntry → OwnerSlotManifestEntry) (k : SlotKind) :
    (seg.updateManifestByAllocation id f).kindCount k = seg.kindCount k := by
  obtain ⟨t, ht⟩ := seg.updateManifestByAllocation_eq id f
  rw [ht]
  rfl

theorem kindCount_claimed {allocator : A} (hfresh : seg.allocation a.allocationId = none)
    (k : SlotKind) :
    (seg.claimed allocator a).kindCount k = a.ofKind k + seg.kindCount k :=
  Table.sumBy_insert_of_lookup_none _ a hfresh

theorem kindCount_freed [OffsetAllocator A] (ha : seg.allocation id = some a) (k : SlotKind) :
    seg.kindCount k = a.ofKind k + (seg.freed id a).kindCount k :=
  Table.sumBy_of_lookup _ ha

theorem kindCount_pos (ha : seg.allocation id = some a) : 0 < seg.kindCount a.state.kind := by
  have hle := Table.le_sumBy (fun _ b => b.ofKind a.state.kind) ha
  rw [ofKind, if_pos rfl] at hle
  exact hle

end OwnerSegmentState

section Lawful

variable [OffsetAllocator A] [LawfulOffsetAllocator A]

/-- The invariant of an allocator whose segment is `seg`. -/
structure OwnerSegmentAllocator.Inv (s : OwnerSegmentAllocator A) (seg : OwnerSegmentState A) :
    Prop where
  segment_eq : s.segment = some seg
  addr_le : seg.addr + seg.len ≤ u64Max
  tables : TablesInv seg
  slots : SlotsInv s.nextAllocationId seg
  counts : ∀ k, s.slotCount k = seg.kindCount k

variable {s s' : OwnerSegmentAllocator A} {seg seg' : OwnerSegmentState A}

/-- A slot is freed and counted down. -/
theorem slots_freed {id : ℕ} {a : OwnerAllocationState} {kind : SlotKind}
    (hslots : SlotsInv s.nextAllocationId seg) (hcounts : ∀ k, s.slotCount k = seg.kindCount k)
    (ha : seg.allocation id = some a) (hkind : a.state.kind = kind)
    (hs' : (countDown kind (putSegment (seg.freed id a) s)).segment = some seg') :
    SlotsInv (countDown kind (putSegment (seg.freed id a) s)).nextAllocationId seg' ∧
      ∀ k, (countDown kind (putSegment (seg.freed id a) s)).slotCount k = seg'.kindCount k := by
  obtain rfl : seg.freed id a = seg' := by simpa [putSegment] using hs'
  refine ⟨by simpa [putSegment] using hslots.freed ha, fun k => ?_⟩
  have hcount := kindCount_freed ha k
  rw [ofKind, hkind] at hcount
  rw [slotCount_countDown]
  change s.slotCount k - _ = _
  rw [hcounts k, hcount]
  omega

/-- A step leads to the slots and counters of an invariant state. -/
theorem Update.Step.slots (h : Update.Step s u s') (hinv : s.Inv seg)
    (hs' : s'.segment = some seg') :
    SlotsInv s'.nextAllocationId seg' ∧ ∀ k, s'.slotCount k = seg'.kindCount k := by
  have hs := hinv.segment_eq
  have hslots := hinv.slots
  have hcounts := hinv.counts
  cases u with
  | bookkeeping | localTarget =>
    obtain ⟨hseg, hid, hcount, -⟩ := h
    rw [hseg, hs] at hs'
    cases hs'
    rw [hid, hcount]
    exact ⟨hslots, hcounts⟩
  | allocationId =>
    cases h
    cases hs.symm.trans hs'
    exact ⟨hslots.mono (Nat.le_succ _), hcounts⟩
  | leaseId =>
    cases h
    cases hs.symm.trans hs'
    exact ⟨hslots, hcounts⟩
  | claim a =>
    obtain ⟨seg₀, allocator, hseg, hc, rfl⟩ := h
    cases hs.symm.trans hseg
    obtain rfl : seg.claimed allocator a = seg' := by simpa [putSegment] using hs'
    refine ⟨by simpa using hslots.claimed hc, fun k => ?_⟩
    have hkind : a.ofKind k = if SlotKind.prepared = k then 1 else 0 := by
      rw [ofKind, hc.state]
      rfl
    rw [slotCount_countUp, kindCount_claimed hc.fresh, hkind, ← hcounts k, Nat.add_comm]
    rfl
  | leakRange units =>
    obtain ⟨seg₀, allocator, x, hseg, hunits, hx, hnone, rfl⟩ := h
    cases hs.symm.trans hseg
    exact (hslots.offsetBytes_ne_none (by have := hinv.addr_le; omega) hunits hx hnone).elim
  | leakSlot a =>
    obtain ⟨seg₀, allocator, hseg, hc, hnone, rfl⟩ := h
    cases hs.symm.trans hseg
    have hle := (hslots.claimed hc).extent_le (allocation_claimed_self seg allocator a)
    have haddr := hinv.addr_le
    rw [checkedAdd_eq_none] at hnone
    change a.segmentOffset + a.capacityBytes ≤ seg.len at hle
    omega
  | slotState id state =>
    obtain ⟨seg₀, a, hseg, ha, -, -, rfl⟩ := h
    cases hs.symm.trans hseg
    obtain rfl : seg.setSlotState id state = seg' := by simpa [putSegment] using hs'
    refine ⟨?_, fun k => ?_⟩
    · have hslots' : SlotsInv s.nextAllocationId (seg.setSlotState id state) :=
        hslots.updateAllocation fun _ => ⟨rfl, rfl, rfl, rfl, rfl⟩
      simpa [putSegment] using hslots'
    have hcount := kindCount_updateAllocation ha (fun a => { a with state }) k
    rw [slotCount_countDown, slotCount_countUp]
    change s.slotCount k + _ - _ = (seg.updateAllocation id fun a => { a with state }).kindCount k
    simp only [ofKind] at hcount
    rw [hcounts k]
    omega
  | acquireSource op lease token =>
    obtain ⟨seg₀, a, n, hseg, hop, ha, hstate, rfl⟩ := h
    cases hs.symm.trans hseg
    cases hs'
    refine ⟨(hslots.sourceReadLeaseCount _ _).congr rfl rfl rfl rfl, fun k => (hcounts k).trans ?_⟩
    exact (kindCount_setSourceReadLeaseCount ha _ k).symm
  | releaseSource op outcome =>
    obtain ⟨seg₀, r, a, hseg, hr, hactive, ha, -, hreferenced, rfl⟩ := h
    cases hs.symm.trans hseg
    cases hs'
    refine ⟨(hslots.sourceReadLeaseCount _ _).congr rfl rfl rfl rfl, fun k => (hcounts k).trans ?_⟩
    exact (kindCount_setSourceReadLeaseCount ha _ k).symm
  | freePrepared id =>
    obtain ⟨seg₀, a, hseg, ha, -, hstate, rfl⟩ := h
    cases hs.symm.trans hseg
    exact slots_freed hslots hcounts ha (by rw [hstate]; rfl) hs'
  | free id =>
    obtain ⟨seg₀, a, hseg, ha, -, -, rfl⟩ := h
    cases hs.symm.trans hseg
    exact slots_freed hslots hcounts ha rfl hs'
  | freeSource op outcome =>
    obtain ⟨seg₀, r, a, hseg, hr, hactive, ha, -, hstate, rfl⟩ := h
    cases hs.symm.trans hseg
    have hslots' : SlotsInv s.nextAllocationId (seg.setSourceLeaseState op (.released outcome)) :=
      hslots.congr rfl rfl rfl rfl
    exact slots_freed hslots' hcounts ha (by rw [hstate]; rfl) hs'
  | physicalState id state | commitManifest id routeEpoch =>
    obtain ⟨seg₀, hseg, rfl⟩ := h
    cases hs.symm.trans hseg
    cases hs'
    exact ⟨hslots.updateManifestByAllocation _ _, fun k =>
      (hcounts k).trans (kindCount_updateManifestByAllocation _ _ _ k).symm⟩
  | _ =>
    simp only [Update.Step] at h
    casesm* ∃ _, _, _ ∧ _
    subst s'
    cases hs.symm.trans ‹s.segment = some _›
    cases hs'
    exact ⟨hslots.congr rfl rfl rfl rfl, hcounts⟩

/-- **The invariant is kept by every update.** -/
theorem Update.Step.inv {s s' : OwnerSegmentAllocator A} {seg : OwnerSegmentState A}
    (h : Update.Step s u s') (hinv : s.Inv seg) :
    ∃ seg', s'.Inv seg' ∧ SameRegistration seg' seg := by
  obtain ⟨seg', hseg', hreg, htables⟩ := h.tables hinv.segment_eq hinv.tables
  obtain ⟨hslots, hcounts⟩ := h.slots hinv hseg'
  refine ⟨seg', ⟨hseg', ?_, htables, hslots, hcounts⟩, hreg⟩
  rw [hreg.addr, hreg.len]
  exact hinv.addr_le

end Lawful

/-! ## Installation and runs -/

/-- The arguments of `install_segment`. -/
structure Installation where
  owner : OwnerGeneration
  registrationEpoch : ℕ
  baseAddr : ℕ
  addr : ℕ
  len : ℕ
  localTargetBytes : ℕ
  expectedSlotSize : Option ℕ

section Installed

variable [OffsetAllocator A] {i : Installation}

/-- `s` is the state after a successful `install_segment` on a new allocator. -/
def OwnerSegmentAllocator.Installed (i : Installation) (s : OwnerSegmentAllocator A) : Prop :=
  installSegment i.owner i.registrationEpoch i.baseAddr i.addr i.len i.localTargetBytes
    i.expectedSlotSize .default = .ok (.ok ()) s

/-- The segment right after its installation. -/
def OwnerSegmentState.fresh (i : Installation) : OwnerSegmentState A where
  owner := i.owner
  registrationEpoch := i.registrationEpoch
  baseAddr := i.baseAddr
  addr := i.addr
  len := i.len
  allocator := withMaxAllocs (i.len / granularityBytes)
    (min (min (i.len / granularityBytes + 2) u32Max) (128 * 1024))
  allocations := ∅
  allocationsByOffset := ∅
  manifestByKey := ∅
  manifestKeyByAllocation := ∅
  sourceLeases := ∅
  targetLeases := ∅
  globalDemotionReservations := ∅
  physicalFreeEpoch := 0

/-- The allocator right after the installation of its segment. -/
def OwnerSegmentAllocator.installed (i : Installation) : OwnerSegmentAllocator A :=
  { (default : OwnerSegmentAllocator A) with
    segment := some (.fresh i)
    localTargetBytes := i.localTargetBytes
    controllerEpoch := 1
    expectedSlotSize := i.expectedSlotSize
    capacityReportRequestedSizeClasses := i.expectedSlotSize.toFinset }

/-- The arguments that `install_segment` accepts. -/
structure Installation.Accepted (i : Installation) : Prop where
  local_le : i.localTargetBytes ≤ i.len
  owner : i.owner.isInitialized = true
  epoch_ne : i.registrationEpoch ≠ 0
  len_pos : 0 < i.len
  len_mod : i.len % granularityBytes = 0
  units_le : i.len / granularityBytes ≤ u32Max

theorem OwnerSegmentState.post_new {σ : Type} (s : σ) :
    Call.Post (new (A := A) (σ := σ) i.owner i.registrationEpoch i.baseAddr i.addr i.len) s
      (fun r s' => s' = s ∧ ∀ seg, r = .ok seg → seg = .fresh i ∧
        (i.localTargetBytes ≤ i.len → i.Accepted))
      (fun _ _ => True) := by
  simp only [new, post_bind, post_ite, post_pure, post_require]
  refine ⟨by simp, fun howner => ⟨by simp, fun hepoch => ⟨fun hlen => ⟨by simp, fun hunits => ?_⟩,
    fun _ => trivial⟩⟩⟩
  refine ⟨trivial, fun seg hseg => ⟨?_, fun hlocal => ?_⟩⟩
  · cases hseg
    rfl
  · exact ⟨hlocal, by simpa using howner, hepoch, hlen.1, hlen.2, Nat.not_lt.1 hunits⟩

theorem OwnerSegmentState.post_new_of_accepted {σ : Type} (h : i.Accepted) (s : σ) :
    Call.Post (new (A := A) (σ := σ) i.owner i.registrationEpoch i.baseAddr i.addr
      i.len) s (fun r s' => r = .ok (.fresh i) ∧ s' = s) (fun _ _ => False) := by
  simp only [new, post_bind, post_ite, post_pure, post_require]
  refine ⟨fun howner => ?_, fun _ => ⟨fun hepoch => absurd hepoch h.epoch_ne,
    fun _ => ⟨fun _ => ⟨fun hunits => absurd h.units_le (Nat.not_le.2 hunits),
      fun _ => ⟨rfl, trivial⟩⟩, fun hlen => hlen ⟨h.len_pos, h.len_mod⟩⟩⟩⟩
  simp [h.owner] at howner

namespace OwnerSegmentAllocator

variable {s : OwnerSegmentAllocator A}

/-- A successful installation has accepted its arguments, and leaves the new segment. -/
theorem Installed.accepted (h : Installed i s) : i.Accepted ∧ s = installed i := by
  have hpost : Call.Post (installSegment i.owner i.registrationEpoch i.baseAddr i.addr i.len
      i.localTargetBytes i.expectedSlotSize) default
      (fun r s' => r = .ok () → i.Accepted ∧ s' = (installed i : OwnerSegmentAllocator A))
      (fun _ _ => True) := by
    simp only [installSegment, post_bind, post_get, post_ite, post_pure]
    refine ⟨by simp, fun _ => ⟨by simp, fun hlocal => ?_⟩⟩
    refine (post_new _).mono ?_ (by simp)
    rintro r s' ⟨rfl, hr⟩
    cases r with
    | error e => simp [post_pure]
    | ok seg =>
      obtain ⟨rfl, haccepted⟩ := hr seg rfl
      exact fun _ => ⟨haccepted (Nat.not_lt.1 hlocal), rfl⟩
  exact hpost.of_ok h rfl

theorem Installed.eq (h : Installed i s) : s = installed i := h.accepted.2

theorem Installed.segment_eq (h : Installed i s) : s.segment = some (.fresh i) := by
  rw [h.eq]
  rfl

/-- Accepted arguments install the segment. -/
theorem installed_of_accepted (h : i.Accepted) :
    Installed i (installed i : OwnerSegmentAllocator A) := by
  refine Call.Post.eq_ok ?_
  simp only [installSegment, post_bind, post_get, post_ite, post_pure]
  refine ⟨fun hsome => absurd hsome (by simp [default]), fun _ =>
    ⟨fun hlocal => absurd h.local_le (Nat.not_le.2 hlocal), fun _ => ?_⟩⟩
  refine (post_new_of_accepted h _).mono ?_ (fun _ _ hf => hf)
  rintro r s' ⟨rfl, rfl⟩
  exact ⟨rfl, rfl⟩

end OwnerSegmentAllocator

/-- A segment of two units at the start of the address space, for concrete runs. -/
def Installation.twoUnits : Installation where
  owner := ⟨"owner", 1⟩
  registrationEpoch := 1
  baseAddr := 0
  addr := 0
  len := 2 * granularityBytes
  localTargetBytes := granularityBytes
  expectedSlotSize := none

/-- The slot that the first claim of 100 bytes in `twoUnits` hands out. -/
def OwnerSlotDesc.firstSlot : OwnerSlotDesc where
  owner := Installation.twoUnits.owner
  allocationId := 1
  segmentOffset := 0
  capacityBytes := granularityBytes
  addr := 0
  baseAddr := 0
  len := 100
  segmentRegistrationEpoch := 1

theorem Installation.accepted_twoUnits : Installation.twoUnits.Accepted := by
  constructor <;> decide +kernel

/-- The allocator in which the concrete runs start. -/
abbrev OwnerSegmentAllocator.started : OwnerSegmentAllocator BumpAllocator := installed .twoUnits

theorem OwnerSegmentAllocator.installed_started : Installed .twoUnits started :=
  installed_of_accepted Installation.accepted_twoUnits

/-- The tables of a new segment are empty. -/
theorem OwnerSegmentState.tables_fresh : TablesInv (.fresh i : OwnerSegmentState A) := by
  refine ⟨⟨?_, ?_, ?_, ?_, ?_⟩, ⟨?_, ?_, ?_⟩, ?_⟩ <;> intro x y h <;> cases h

variable {seg : OwnerSegmentState A}

/-- The tables are kept by every call that returns. -/
theorem OwnerSegmentAllocator.Returns.tables {s s' : OwnerSegmentAllocator A} {c : OwnerCall}
    (h : s.Returns c s') (hs : s.segment = some seg) (hinv : TablesInv seg) :
    ∃ seg', s'.segment = some seg' ∧ SameRegistration seg' seg ∧ TablesInv seg' := by
  obtain ⟨us, hrun, -⟩ := (post_exec c (by simp [hs])).of_ok h
  refine hrun.invariant (I := fun s => ∃ seg', s.segment = some seg' ∧
    SameRegistration seg' seg ∧ TablesInv seg') ?_ ⟨seg, hs, .refl seg, hinv⟩
  rintro s₁ u s₂ ⟨seg₁, hs₁, hreg₁, hinv₁⟩ hstep
  obtain ⟨seg₂, hs₂, hreg₂, hinv₂⟩ := hstep.tables hs₁ hinv₁
  exact ⟨seg₂, hs₂, hreg₁.trans hreg₂, hinv₂⟩

variable {cs : List OwnerCall}

/-- The tables are kept along every run of calls that return. -/
theorem OwnerSegmentAllocator.Installed.tables_of_run {s₀ s : OwnerSegmentAllocator A}
    (h : Installed i s₀) (hrun : Run Returns s₀ cs s) :
    ∃ seg, s.segment = some seg ∧ TablesInv seg := by
  refine hrun.invariant (I := fun s => ∃ seg, s.segment = some seg ∧ TablesInv seg) ?_
    ⟨_, h.segment_eq, tables_fresh⟩
  rintro s₁ c s₂ ⟨seg₁, hs₁, hinv₁⟩ hc
  obtain ⟨seg₂, hs₂, -, hinv₂⟩ := hc.tables hs₁ hinv₁
  exact ⟨seg₂, hs₂, hinv₂⟩

variable [LawfulOffsetAllocator A]

theorem OwnerSegmentState.slots_fresh : SlotsInv 0 (.fresh i : OwnerSegmentState A) := by
  refine ⟨?_, ?_, ?_, ?_, ?_, ?_, ?_, tracks_withMaxAllocs _ _⟩
  · intro id a ha
    cases ha
  · intro id a ha
    cases ha
  · intro id a ha
    cases ha
  · intro id a ha
    cases ha
  · intro id a ha
    cases ha
  · intro id id' a a' _ ha
    cases ha
  · intro o id
    refine ⟨nofun, ?_⟩
    rintro ⟨a, ha, -⟩
    cases ha

namespace OwnerSegmentAllocator

variable {s s' : OwnerSegmentAllocator A}

/-- The invariant holds after the installation. -/
theorem Installed.inv (h : Installed i s) (haddr : i.addr + i.len ≤ u64Max) : s.Inv (.fresh i) := by
  refine ⟨h.segment_eq, haddr, tables_fresh, ?_, ?_⟩
  · rw [h.eq]
    exact slots_fresh
  · rw [h.eq]
    intro k
    cases k <;> rfl

/-- The invariant is kept by every list of updates. -/
theorem Inv.of_run {us : List Update} (hinv : s.Inv seg)
    (h : Run Update.Step s us s') : ∃ seg', s'.Inv seg' ∧ SameRegistration seg' seg := by
  refine h.invariant (I := fun s => ∃ seg', s.Inv seg' ∧ SameRegistration seg' seg) ?_
    ⟨seg, hinv, .refl seg⟩
  rintro s₁ u s₂ ⟨seg₁, hinv₁, hreg₁⟩ hstep
  obtain ⟨seg₂, hinv₂, hreg₂⟩ := hstep.inv hinv₁
  exact ⟨seg₂, hinv₂, hreg₁.trans hreg₂⟩

/-- **The invariant is kept by every call that returns.** -/
theorem Returns.inv {c : OwnerCall} (h : s.Returns c s')
    (hinv : s.Inv seg) : ∃ seg', s'.Inv seg' ∧ SameRegistration seg' seg := by
  obtain ⟨us, hrun, -⟩ := (post_exec c (by simp [hinv.segment_eq])).of_ok h
  exact hinv.of_run hrun

/-- The invariant holds in every state that calls reach from the installation. -/
theorem Installed.inv_of_run (h : Installed i s) (haddr : i.addr + i.len ≤ u64Max)
    (hrun : Run Returns s cs s') : ∃ seg, s'.Inv seg ∧ SameRegistration seg (.fresh i) := by
  refine hrun.invariant (I := fun s => ∃ seg, s.Inv seg ∧ SameRegistration seg (.fresh i)) ?_
    ⟨_, h.inv haddr, .refl _⟩
  rintro s₁ c s₂ ⟨seg₁, hinv₁, hreg₁⟩ hc
  obtain ⟨seg₂, hinv₂, hreg₂⟩ := Returns.inv hc hinv₁
  exact ⟨seg₂, hinv₂, hreg₁.trans hreg₂⟩

/-- **The representation of the segment**, in every state that calls which return reach from its
installation:
the counters count the slots, the index by offset and the index of the manifest are inverses of
the tables they index, every entry of the manifest names a live slot of the same range, and the
live slots are disjoint ranges inside the segment. -/
theorem segment_representation (hinstalled : Installed i s) (haddr : i.addr + i.len ≤ u64Max)
    (hrun : Run Returns s cs s') :
    ∃ seg, s'.segment = some seg ∧ (∀ k, s'.slotCount k = seg.kindCount k) ∧
      (∀ o id, seg.allocationsByOffset.lookup o = some id ↔
        ∃ a, seg.allocation id = some a ∧ a.allocation.offset = o) ∧
      (∀ k id, seg.manifestKeyByAllocation.lookup id = some k ↔
        ∃ e, seg.manifestByKey.lookup k = some e ∧ e.slot.allocationId = id) ∧
      (∀ k e, seg.manifestByKey.lookup k = some e → e.manifestKey = k ∧
        ∃ a, seg.allocation e.slot.allocationId = some a ∧ a.segmentOffset = e.slot.segmentOffset ∧
          a.capacityBytes = e.slot.capacityBytes ∧ a.valueLen = e.slot.len) ∧
      (∀ id a, seg.allocation id = some a → a.segmentOffset + a.capacityBytes ≤ i.len) ∧
      ∀ id id' a a', id ≠ id' → seg.allocation id = some a → seg.allocation id' = some a' →
        RangesDisjoint a.segmentOffset a.capacityBytes a'.segmentOffset a'.capacityBytes := by
  obtain ⟨seg, hinv, hreg⟩ := hinstalled.inv_of_run haddr hrun
  have hmanifest := hinv.tables.manifest
  refine ⟨seg, hinv.segment_eq, hinv.counts, hinv.slots.index, ?_, ?_, ?_, ?_⟩
  · intro k id
    refine ⟨hmanifest.entry id k, ?_⟩
    rintro ⟨e, he, rfl⟩
    exact hmanifest.bound k e he
  · exact fun k e he => ⟨hmanifest.key_eq k e he, hmanifest.live he⟩
  · intro id a ha
    rw [← show seg.len = i.len from hreg.len]
    exact hinv.slots.extent_le ha
  · intro id id' a a' hne ha ha'
    have hsized := hinv.slots.sized id a ha
    have hsized' := hinv.slots.sized id' a' ha'
    rw [hsized.offset_eq, hsized.capacity_eq, hsized'.offset_eq, hsized'.capacity_eq]
    exact (hinv.slots.disjoint id id' a a' hne ha ha').mul _

/-- The claim of the first slot, which the counter and the index then hold. -/
theorem segment_representation_claimed :
    ∃ s, Run Returns started [.claimValue 100 1] s ∧ s.slotCount .prepared = 1 ∧
      ∃ seg, s.segment = some seg ∧ (∀ k, s.slotCount k = seg.kindCount k) := by
  obtain ⟨s, hrun, hcount⟩ := exists_run_of_post [.claimValue 100 1] started
    (Q := fun s => s.slotCount .prepared = 1) (by decide +kernel)
  obtain ⟨seg, hseg, hcounts, -⟩ :=
    segment_representation installed_started (by decide +kernel) hrun
  exact ⟨s, hrun, hcount, seg, hseg, hcounts⟩

/-- In a segment at the end of the address space the second claim gives up on the address of the
slot after the slot is in the table, and the counter does not see it. -/
theorem counter_misses_unaddressable_slot :
    Installation.Accepted { Installation.twoUnits with addr := u64Max } ∧
    ∃ s : OwnerSegmentAllocator BumpAllocator,
      Run Returns (installed { Installation.twoUnits with addr := u64Max })
        [.claimValue 100 1, .claimValue 100 1] s ∧
      s.slotCount .prepared = 1 ∧ s.segment.map (·.kindCount .prepared) = some 2 := by
  refine ⟨?_, exists_run_of_post _ _ (by decide +kernel)⟩
  constructor <;> decide +kernel

end OwnerSegmentAllocator

end Installed

end Fluxon.OwnerSegment
