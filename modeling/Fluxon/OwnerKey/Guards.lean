import Fluxon.OwnerKey.Invariant

/-!
# The guards on an owner's keys are counted exactly

The lemmas `*_cases` say what a section can do, and every step keeps the invariant of
`Fluxon.OwnerKey.Invariant` (`Sound.step`). `guards_counted` reads the result off it for every state
of every run: the counters of a record are the numbers of the unreleased guards, the put marker is
the one guard of a local-first put, a key has at most one leader, finishing an operation or dropping
a guard clears nothing that belongs to another one, and a key that nothing holds has no record.

A guard is unreleased until its counts are released. That is later than its drop when a task still
has to return its slot, and it is never when the slot could not be returned:
`retained_guard_is_counted` shows a key whose counters stand although no guard is live.
-/

namespace Fluxon.OwnerKey

open OwnerKeyControlState Option

/-! ## What the sections can do -/

section Cases

variable {c c' : Controls} {key : String} {op : ℕ}

theorem leadLocalFirstPut_cases {r : PutReservation × Controls}
    (h : leadLocalFirstPut c key op = some r) :
    r = (.leader, c.insert key { c.control key with
      externalPut := some op
      localPuts := (c.control key).localPuts + 1
      externalPendingPuts := (c.control key).externalPendingPuts + 1 }) := by
  unfold leadLocalFirstPut at h
  split at h
  · cases h
  · obtain ⟨localPuts, hlocal, h⟩ := bind_eq_some_iff.1 h
    obtain ⟨pending, hpending, h⟩ := bind_eq_some_iff.1 h
    obtain ⟨-, rfl⟩ := checkedAdd32_eq_some.1 hlocal
    obtain ⟨-, rfl⟩ := checkedAdd32_eq_some.1 hpending
    exact (some.inj h).symm

/-- A local-first put leads only on a key without materialization and local put. -/
theorem reserveExternalLocalFirstPutKey_cases {rejectIfInflight rejectIfExist visible : Bool}
    {r : PutReservation × Controls}
    (h : reserveExternalLocalFirstPutKey c key rejectIfInflight rejectIfExist visible op = some r) :
    r.1 ≠ .leader ∨ ((c.control key).ownerMaterialization = none ∧ (c.control key).localPuts = 0 ∧
        r.2 = c.insert key { c.control key with
          externalPut := some op
          localPuts := (c.control key).localPuts + 1
          externalPendingPuts := (c.control key).externalPendingPuts + 1 }) := by
  revert h
  fun_cases reserveExternalLocalFirstPutKey c key rejectIfInflight rejectIfExist visible op <;>
    intro h <;> try cases h
  · exact .inl (by dsimp only; split <;> simp)
  · exact .inl (by simp)
  · exact .inl (by dsimp only; split <;> simp)
  · exact .inl (by dsimp only; split <;> simp)
  · exact .inl (by simp)
  · obtain ⟨op', -, rfl⟩ := map_eq_some_iff.1 h
    exact .inl (by dsimp only; split <;> simp)
  · next hmat _ _ =>
    obtain rfl := leadLocalFirstPut_cases h
    exact .inr ⟨hmat, by omega, rfl⟩

theorem acquireExternalPendingPutFence_cases {r : Option Controls}
    (h : acquireExternalPendingPutFence c key = some r) :
    r = none ∨ r = some (c.insert key { c.control key with
      externalPendingPuts := (c.control key).externalPendingPuts + 1 }) := by
  unfold acquireExternalPendingPutFence at h
  split at h
  · exact .inl (some.inj h).symm
  · obtain ⟨pending, hpending, h⟩ := bind_eq_some_iff.1 h
    obtain ⟨-, rfl⟩ := checkedAdd32_eq_some.1 hpending
    exact .inr (some.inj h).symm

/-- The record that a release writes back. -/
def released (st : OwnerKeyControlState) (ownsLocalPut : Bool) (op : ℕ) : OwnerKeyControlState :=
  if ownsLocalPut then
    { st with
      externalPendingPuts := st.externalPendingPuts - 1
      localPuts := st.localPuts - 1
      externalPut := if st.externalPut = some op then none else st.externalPut }
  else { st with externalPendingPuts := st.externalPendingPuts - 1 }

theorem releaseExternalPendingPutCounts_cases {owns : Bool}
    (h : releaseExternalPendingPutCounts c key owns op = some c') :
    c' = c.settle key (released (c.control key) owns op) := by
  obtain ⟨st, hst, h⟩ := bind_eq_some_iff.1 h
  obtain ⟨pending, hpending, h⟩ := bind_eq_some_iff.1 h
  obtain ⟨-, rfl⟩ := checkedSub_eq_some.1 hpending
  rw [Controls.control_of_lookup hst]
  cases owns with
  | true =>
    obtain ⟨localPuts, hlocal, h⟩ := bind_eq_some_iff.1 h
    obtain ⟨-, rfl⟩ := checkedSub_eq_some.1 hlocal
    exact (some.inj h).symm
  | false => exact (some.inj h).symm

/-- A materialization leads only on a key without materialization and local-first put. -/
theorem reserveOwnerKeyMaterialization_cases
    (h : (reserveOwnerKeyMaterialization c key op).1 = .leader) :
    (c.control key).ownerMaterialization = none ∧ (c.control key).externalPut = none ∧
      (reserveOwnerKeyMaterialization c key op).2 =
        c.insert key (setSlot .ownerMaterialization (some op) (c.control key)) := by
  revert h
  fun_cases reserveOwnerKeyMaterialization c key op <;> intro h <;> try cases h
  next hmat _ hput => exact ⟨hmat, hput, rfl⟩

theorem beginAsyncGetKeyMaterialization_cases
    (h : beginAsyncGetKeyMaterialization c key op = some c') :
    (c.control key).ownerMaterialization = none ∧ (c.control key).externalPut = none ∧
      c' = c.insert key (setSlot .ownerMaterialization (some op) (c.control key)) := by
  unfold beginAsyncGetKeyMaterialization at h
  split at h
  · cases h
  · next hfree =>
    simp only [Bool.or_eq_true, not_or, isSome_iff_ne_none, ne_eq, not_not] at hfree
    exact ⟨hfree.1, hfree.2, (some.inj h).symm⟩

theorem registerExternalGetKey_cases (h : (registerExternalGetKey c key op).1 = .leader) :
    (registerExternalGetKey c key op).2 =
      c.insert key (setSlot .externalGet (some op) (c.control key)) := by
  unfold registerExternalGetKey at h ⊢
  split at h
  · cases h
  · rfl

theorem planExternalGetKey_cases {revoking : ℕ → Bool} {visible : Bool}
    (h : (planExternalGetKey c key revoking visible op).1 = .leader) :
    (planExternalGetKey c key revoking visible op).2 =
      c.insert key (setSlot .externalGet (some op) (c.control key)) := by
  revert h
  fun_cases planExternalGetKey c key revoking visible op <;> intro h <;> try cases h
  · exact registerExternalGetKey_cases h
  · exact registerExternalGetKey_cases h

/-- A background put leaves the records alone, clears a terminal operation, or leads after that. -/
theorem beginBackgroundPut_cases {kind : FlightKind} {same terminal : ℕ → Bool}
    {source : Controls → BackgroundReservation} :
    (beginBackgroundPut kind c key same terminal source op).1 ≠ .leader ∧
      ((beginBackgroundPut kind c key same terminal source op).2 = c ∨
        (beginBackgroundPut kind c key same terminal source op).2 =
          dropTerminal kind c key terminal) ∨
    (beginBackgroundPut kind c key same terminal source op).1 = .leader ∧
      (beginBackgroundPut kind c key same terminal source op).2 =
        (dropTerminal kind c key terminal).insert key
          (setSlot kind (some op) ((dropTerminal kind c key terminal).control key)) := by
  unfold beginBackgroundPut
  split
  · exact .inl ⟨by simp, .inl rfl⟩
  · split
    · exact .inr ⟨rfl, rfl⟩
    · next hne => exact .inl ⟨hne, .inr rfl⟩

/-- Dropping a terminal operation changes nothing, or clears the marker of an operation that is
terminal. -/
theorem dropTerminal_cases (kind : FlightKind) (terminal : ℕ → Bool) :
    dropTerminal kind c key terminal = c ∨
      ∃ op', slot kind (c.control key) = some op' ∧ terminal op' = true ∧
        dropTerminal kind c key terminal = c.insert key (setSlot kind none (c.control key)) := by
  unfold dropTerminal
  split
  · next op' hop =>
    split
    · next hterminal => exact .inr ⟨op', hop, hterminal, rfl⟩
    · exact .inl rfl
  · exact .inl rfl

end Cases

namespace World

variable {w w' : World}

/-! ## Guards of pending puts -/

variable {st st' : OwnerKeyControlState} {fence : PutFence} {id : ℕ} {flight : Flight}
  {key : String} {putId : PutId} {kind : FlightKind} {c : Controls}

/-- A new guard is counted on its key. -/
theorem Sound.addFence (h : w.Sound) {controls : Controls}
    (hwrites : Writes w.controls controls fence.key st)
    (hst : KeySound (w.fences.insert w.nextId fence) w.flights fence.key st) :
    (w.addFence controls fence).Sound := by
  refine h.write hwrites hst ?_ (fun k hk => samePuts_insert_new h.fence_none hk)
    (fun _ _ _ _ => Iff.rfl) (fun _ _ _ hid => hid) ?_
    (fun id flight hid => Nat.lt_succ_of_lt (h.flight_lt id flight hid))
  · intro _ hidle
    have hzero : countPuts (w.fences.insert w.nextId fence) fence.key = 0 := by
      rw [← hst.pending, eq_of_isIdle hidle]
    rw [countPuts_insert h.fence_none, if_pos rfl] at hzero
    omega
  · intro id fence' hid
    obtain ⟨rfl, -⟩ | ⟨-, hid⟩ := Table.lookup_insert_cases hid
    · exact Nat.lt_succ_self _
    · exact Nat.lt_succ_of_lt (h.fence_lt id fence' hid)

/-- A guard is rewritten with its key and its ownership. -/
theorem Sound.rewrite (h : w.Sound) {fence' : PutFence} (hlookup : w.fences.lookup id = some fence)
    (hkey : fence'.key = fence.key) (howns : fence'.ownsLocalPut = fence.ownsLocalPut) :
    (w.rewrite id fence').Sound where
  key k := (h.key k).congr (samePuts_rewrite hlookup hkey howns k) fun _ _ => Iff.rfl
  idle := h.idle
  fence_lt id' fence'' hid := by
    obtain ⟨rfl, -⟩ | ⟨-, hid⟩ := Table.lookup_insert_cases hid
    · exact h.fence_lt _ fence hlookup
    · exact h.fence_lt id' fence'' hid
  flight_lt := h.flight_lt

theorem Sound.releaseFence (h : w.Sound) (hlookup : w.fences.lookup id = some fence)
    (hrelease : w.releaseFence id fence = some w') : w'.Sound := by
  obtain ⟨controls, hcounts, rfl⟩ := map_eq_some_iff.1 hrelease
  obtain rfl := releaseExternalPendingPutCounts_cases hcounts
  refine h.write (writes_settle _ _ _) ?_ ?_ (fun k hk => samePuts_erase hlookup hk)
    (fun _ _ _ _ => Iff.rfl) (fun _ _ _ hid => hid) ?_ h.flight_lt
  · cases howns : fence.ownsLocalPut with
    | true => exact (h.key fence.key).release_owned hlookup rfl howns
    | false => exact (h.key fence.key).release_pending hlookup rfl howns
  · intro hstored hidle
    rw [lookup_settle hstored] at hidle
    cases hidle
  · exact fun id' fence' hid => h.fence_lt id' fence' (Table.lookup_of_erase hid).2

theorem Sound.dropLast (h : w.Sound) (hlookup : w.fences.lookup id = some fence)
    (hdrop : w.dropLast id fence = some w') : w'.Sound := by
  revert hdrop
  fun_cases World.dropLast w id fence <;> intro hdrop
  · cases hdrop
    exact h.rewrite hlookup rfl rfl
  · cases hdrop
    exact h.rewrite hlookup rfl rfl
  · exact h.releaseFence hlookup hdrop

/-- A step of a held guard. -/
theorem withHeld_eq_some {f : PutFence → ℕ → Option World} (h : w.withHeld id f = some w') :
    ∃ fence clones, w.fences.lookup id = some fence ∧ f fence clones = some w' := by
  revert h
  fun_cases withHeld w id f <;> intro h <;> try cases h
  next fence hlookup clones _ => exact ⟨fence, clones, hlookup, h⟩

/-! ## Operations in flight -/

/-- A new operation is marked on its key. -/
theorem Sound.addFlight (h : w.Sound) {controls : Controls}
    (hwrites : Writes w.controls controls flight.key (setSlot flight.kind (some w.nextId) st))
    (hst : KeySound w.fences w.flights flight.key st) (hmat : flight.kind = .ownerMaterialization →
      st.ownerMaterialization = none ∧ st.localPuts = 0) : (w.addFlight controls flight).Sound := by
  refine h.write hwrites (hst.addFlight h.flight_none rfl hmat) ?_ (fun _ _ => .refl _ _)
    (fun k hk => sameFlights_insert_new h.flight_none hk) ?_
    (fun id fence hid => Nat.lt_succ_of_lt (h.fence_lt id fence hid)) ?_
  · intro _ hidle
    have hslot := slot_setSlot flight.kind flight.kind (some w.nextId) st
    rw [eq_of_isIdle hidle, if_pos rfl] at hslot
    cases hkind : flight.kind <;> rw [hkind] at hslot <;> cases hslot
  · intro id flight' _ hid
    show (w.flights.insert w.nextId flight).lookup id = some flight'
    rw [AList.lookup_insert_ne, hid]
    rintro rfl
    rw [h.flight_none] at hid
    cases hid
  · intro id flight' hid
    obtain ⟨rfl, -⟩ | ⟨-, hid⟩ := Table.lookup_insert_cases hid
    · exact Nat.lt_succ_self _
    · exact Nat.lt_succ_of_lt (h.flight_lt id flight' hid)

/-- A materialization is marked on a key without materialization and local-first put. -/
theorem Sound.addMaterialization (h : w.Sound) (hmat : (w.control key).ownerMaterialization = none)
    (hput : (w.control key).externalPut = none) :
    (w.addFlight (w.controls.insert key (setSlot .ownerMaterialization (some w.nextId)
      (w.control key))) { kind := .ownerMaterialization, key, putId }).Sound :=
  @Sound.addFlight _ _ { kind := .ownerMaterialization, key, putId } h _ (writes_insert _ _ _)
    (h.key key) fun _ => ⟨hmat, (h.key key).localPuts_eq_zero hput⟩

/-- A terminal operation that is still marked is cleared. -/
theorem Sound.dropTerminal (h : w.Sound) (key : String) (hkind : kind ≠ .ownerMaterialization) :
    ({ w with controls := dropTerminal kind w.controls key w.terminal }).Sound := by
  obtain heq | ⟨op, hop, hterminal, heq⟩ := @dropTerminal_cases w.controls key kind w.terminal
  · rw [heq]
    exact h
  rw [heq]
  refine h.writeOnly (writes_insert _ _ _) ((h.key key).clearSlot hkind) fun _ _ => ?_
  -- the terminal operation is still in flight: its `finish` will remove the record
  obtain ⟨flight, hflight, -, hkey⟩ := (h.key key).marker kind op hop
  refine ⟨op, flight, hflight, hkey, ?_⟩
  simpa only [World.terminal, hflight] using hterminal

theorem Sound.background (h : w.Sound) (hkind : kind ≠ .ownerMaterialization) (key : String)
    (putId : PutId) (same : ℕ → Bool) (source : Controls → BackgroundReservation) :
    (w.background kind key putId
      (beginBackgroundPut kind w.controls key same w.terminal source w.nextId)).Sound := by
  have hdrop := h.dropTerminal key hkind
  unfold World.background
  obtain ⟨hne, heq | heq⟩ | ⟨hleader, heq⟩ :=
    @beginBackgroundPut_cases w.controls key w.nextId kind same w.terminal source
  · rw [if_neg hne, heq]
    exact h
  · rw [if_neg hne, heq]
    exact hdrop
  · rw [if_pos hleader, heq]
    exact @Sound.addFlight _ _ { kind, key, putId } hdrop _ (writes_insert _ _ _) (hdrop.key key)
      fun hmat => absurd hmat hkind

theorem Sound.complete (h : w.Sound) (hlookup : w.flights.lookup id = some flight) :
    ({ w with flights := w.flights.insert id { flight with completed := true } }).Sound where
  key k := (h.key k).congr (.refl _ _)
    (@sameFlights_rewrite _ _ { flight with completed := true } _ hlookup rfl rfl k)
  idle k st hst hidle := by
    obtain ⟨id', flight', hid, hkey, hdone⟩ := h.idle k st hst hidle
    by_cases heq : id' = id
    · subst heq
      rw [hlookup] at hid
      cases hid
      exact ⟨id', _, AList.lookup_insert _, hkey, rfl⟩
    · exact ⟨id', flight', (AList.lookup_insert_ne heq).trans hid, hkey, hdone⟩
  fence_lt := h.fence_lt
  flight_lt id' flight' hid := by
    obtain ⟨rfl, -⟩ | ⟨-, hid⟩ := Table.lookup_insert_cases hid
    · exact h.flight_lt _ flight hlookup
    · exact h.flight_lt id' flight' hid

/-- What the section of a `finish` writes. -/
theorem writes_clearMarker (kind : FlightKind) (c : Controls) (key : String) (op : ℕ) :
    Writes c (clearMarker kind c key op) key
      (if slot kind (c.control key) = some op then setSlot kind none (c.control key)
        else c.control key) := by
  unfold clearMarker
  cases hlookup : c.lookup key with
  | none =>
    have hcontrol : c.control key = {} := by
      rw [Controls.control, hlookup]
      rfl
    have hslot : slot kind (c.control key) ≠ some op := by
      rw [hcontrol]
      cases kind <;> simp [slot]
    rw [if_neg hslot]
    exact .refl c key
  | some st =>
    rw [Controls.control_of_lookup hlookup]
    exact writes_settle _ _ _

theorem lookup_clearMarker {op : ℕ} (h : (clearMarker kind c key op).lookup key = some st) :
    st.isIdle = false := by
  unfold clearMarker at h
  split at h
  · exact lookup_settle h
  · next hnone =>
    rw [hnone] at h
    cases h

theorem Sound.finish (h : w.Sound) (hlookup : w.flights.lookup id = some flight) :
    (w.finish id flight).Sound := by
  refine h.write (writes_clearMarker _ _ _ _) ((h.key flight.key).finish hlookup) ?_
    (fun _ _ => .refl _ _) (fun k hk => sameFlights_erase hlookup hk) ?_ h.fence_lt ?_
  · intro hstored hidle
    rw [lookup_clearMarker hstored] at hidle
    cases hidle
  · intro id' flight' hne hid
    show (w.flights.erase id).lookup id' = some flight'
    rw [AList.lookup_erase_ne, hid]
    rintro rfl
    rw [hlookup] at hid
    cases hid
    exact hne rfl
  · exact fun id' flight' hid => h.flight_lt id' flight' (Table.lookup_of_erase hid).2

/-! ## The source selection and the reclaim -/

/-- The selection, the reclaim and the fence channel of a record are replaced. -/
theorem KeySound.refence {fences : Table ℕ PutFence} {flights : Table ℕ Flight}
    (h : KeySound fences flights key st) (hrest : st' = { st with
      sourceEvictionSelection := st'.sourceEvictionSelection
      reclaim := st'.reclaim
      localAccessFence := st'.localAccessFence })
    (hfence : st'.localAccessFence = st'.localAccessFenced) : KeySound fences flights key st' := by
  obtain ⟨_, _, _, _, _, _, _, _, _, _⟩ := st'
  cases hrest
  exact { h with
    marker := fun kind id hid => h.marker kind id (by cases kind <;> exact hid)
    fence := hfence }

/-- The fence channel is there exactly while the key is fenced. -/
theorem Sound.refence (h : w.Sound) (hrest : st = { w.control key with
      sourceEvictionSelection := st.sourceEvictionSelection
      reclaim := st.reclaim
      localAccessFence := st.localAccessFence })
    (hfence : st.localAccessFence = st.localAccessFenced) (hc : c = w.controls.settle key st ∨
      st.localAccessFenced = true ∧ c = w.controls.insert key st) :
    ({ w with controls := c }).Sound := by
  have hst := KeySound.refence (h.key key) hrest hfence
  obtain rfl | ⟨hfenced, rfl⟩ := hc
  · refine h.writeOnly (writes_settle _ _ _) hst fun hstored hidle => ?_
    rw [lookup_settle hstored] at hidle
    cases hidle
  · refine h.writeOnly (writes_insert _ _ _) hst fun _ hidle => ?_
    rw [eq_of_isIdle hidle] at hfenced
    cases hfenced

theorem not_fenced (h : st.localAccessFenced = false) :
    st.sourceEvictionSelection = none ∧ st.reclaim = none := by
  simpa [localAccessFenced] using h

theorem beginLocalAccessFence_eq_some (h : st.beginLocalAccessFence = some st') :
    st' = { st with localAccessFence := true } := by
  unfold beginLocalAccessFence at h
  split at h
  · cases h
  · exact (some.inj h).symm

/-- The fence of a key that a section leaves unfenced is finished. -/
theorem finishLocalAccessFence_eq_some (h : st.finishLocalAccessFence = some st') :
    st.localAccessFenced = false ∧ st' = { st with localAccessFence := false } := by
  unfold finishLocalAccessFence at h
  split at h
  · cases h
  · next hfenced => exact ⟨by simpa using hfenced, (some.inj h).symm⟩

section

variable (h : w.Sound)
include h

theorem Sound.installSourceSelectionFence {pending cached : Bool} {r : SelectionOutcome × Controls}
    (hr : OwnerKey.installSourceSelectionFence w.controls key putId pending cached = some r) :
    ({ w with controls := r.2 }).Sound := by
  revert hr
  fun_cases OwnerKey.installSourceSelectionFence w.controls key putId pending cached <;>
    intro hr <;> try cases hr
  · exact h
  · exact h
  · obtain ⟨st, hbegin, hr⟩ := bind_eq_some_iff.1 hr
    cases hr
    obtain rfl := beginLocalAccessFence_eq_some hbegin
    exact h.refence rfl rfl (.inr ⟨rfl, rfl⟩)

theorem Sound.restoreSourceSelection {r : Bool × Controls}
    (hr : OwnerKey.restoreSourceSelection w.controls key putId = some r) :
    ({ w with controls := r.2 }).Sound := by
  unfold OwnerKey.restoreSourceSelection at hr
  split at hr
  · cases hr
    exact h
  · next st hlookup =>
    obtain rfl := Controls.control_of_lookup hlookup
    split at hr
    · cases hr
      exact h
    · obtain ⟨st', hfinish, hr⟩ := bind_eq_some_iff.1 hr
      cases hr
      obtain ⟨hfenced, rfl⟩ := finishLocalAccessFence_eq_some hfinish
      exact h.refence rfl hfenced.symm (.inl rfl)

theorem Sound.prepareOne {item : ReclaimItem} {ready : Bool}
    (hc : OwnerKey.prepareOne w.controls key item ready = some c) :
    ({ w with controls := c }).Sound := by
  revert hc
  fun_cases OwnerKey.prepareOne w.controls key item ready <;> intro hc <;> try cases hc
  · exact h
  · next hfence =>
    have hset : (w.controls.control key).localAccessFence = true := by
      simpa using (not_or.1 hfence).2
    exact h.refence rfl hset (.inr ⟨rfl, rfl⟩)
  · exact h
  obtain ⟨st, hbegin, hc⟩ := bind_eq_some_iff.1 hc
  cases hc
  obtain rfl := beginLocalAccessFence_eq_some hbegin
  have hfenced : ∀ selection : Option PutId,
      (selection.isSome || (some (ReclaimRecord.prepared item)).isSome) = true := by simp
  refine h.refence ?_ ?_ (.inr ⟨?_, rfl⟩)
  · rfl
  · exact (hfenced _).symm
  · exact hfenced _

/-- A reclaim that is there is replaced by another phase of it. -/
theorem Sound.withReclaim {record : ReclaimRecord} (record' : ReclaimRecord)
    (hrecord : (w.control key).reclaim = some record) :
    World.Sound { w with
      controls := w.controls.insert key { w.control key with reclaim := some record' } } := by
  have hfenced : ∀ r : ReclaimRecord,
      ((w.control key).sourceEvictionSelection.isSome || (some r).isSome) = true := by simp
  have hset : (w.control key).localAccessFence = true := by
    rw [(h.key key).fence, localAccessFenced, hrecord]
    exact hfenced record
  refine h.refence ?_ ?_ (.inr ⟨?_, rfl⟩)
  · rfl
  · exact hset.trans (hfenced record').symm
  · exact hfenced record'

theorem Sound.releaseOne (key : String) (item : ReclaimItem) :
    ({ w with controls := OwnerKey.releaseOne w.controls key item }).Sound := by
  unfold OwnerKey.releaseOne
  split
  · next hrecord => exact h.withReclaim _ hrecord
  · exact h

theorem Sound.commitOne {item : ReclaimItem}
    (hc : OwnerKey.commitOne w.controls key item = some c) : ({ w with controls := c }).Sound := by
  unfold OwnerKey.commitOne at hc
  split at hc
  · next hintact =>
    cases hc
    have hrecord : (w.control key).reclaim = some (.releasing item) := by
      simp only [reclaimReleaseFenceIsIntact, Bool.and_eq_true, decide_eq_true_eq] at hintact
      exact hintact.1.1.1.1.1.1
    exact h.withReclaim _ hrecord
  · cases hc

theorem Sound.endReclaim {record : ReclaimRecord}
    (hc : OwnerKey.endReclaim w.controls key record = some c) :
    ({ w with controls := c }).Sound := by
  unfold OwnerKey.endReclaim at hc
  split at hc
  · obtain ⟨st, hfinish, hc⟩ := bind_eq_some_iff.1 hc
    cases hc
    obtain ⟨hfenced, rfl⟩ := finishLocalAccessFence_eq_some hfinish
    exact h.refence rfl hfenced.symm (.inl rfl)
  · cases hc
    exact h

/-! ## Steps and runs -/

/-- **Every step keeps the invariant.** -/
theorem Sound.step {ev : Event} (hstep : Step w ev w') : w'.Sound := by
  revert hstep
  unfold Step
  fun_cases World.step w ev <;> intro hstep <;> try cases hstep
  · next key _ _ _ =>
    obtain ⟨r, hr, rfl⟩ := map_eq_some_iff.1 hstep
    split
    · next hleader =>
      obtain hne | ⟨hmat, hzero, hc⟩ := reserveExternalLocalFirstPutKey_cases hr
      · exact absurd hleader hne
      · rw [hc]
        exact @Sound.addFence _ _ { key, ownsLocalPut := true } h _ (writes_insert _ _ _)
          ((h.key key).lead_put h.fence_none hzero hmat)
    · exact h
  · next key =>
    obtain ⟨r, hr, rfl⟩ := map_eq_some_iff.1 hstep
    obtain rfl | rfl := acquireExternalPendingPutFence_cases hr
    · exact h
    · exact @Sound.addFence _ _ { key, ownsLocalPut := false } h _ (writes_insert _ _ _)
        ((h.key key).acquire h.fence_none)
  -- a change of a guard that is held
  · obtain ⟨fence, clones, hlookup, ⟨⟩⟩ := withHeld_eq_some hstep
    exact h.rewrite hlookup rfl rfl
  · obtain ⟨fence, clones, hlookup, hstep⟩ := withHeld_eq_some hstep
    split at hstep
    · exact h.dropLast hlookup hstep
    · cases hstep
      exact h.rewrite hlookup rfl rfl
  · obtain ⟨fence, clones, hlookup, hstep⟩ := withHeld_eq_some hstep
    split at hstep <;> cases hstep
    exact h.rewrite hlookup rfl rfl
  · obtain ⟨fence, clones, hlookup, hstep⟩ := withHeld_eq_some hstep
    split at hstep <;> cases hstep
    exact h.rewrite hlookup rfl rfl
  · obtain ⟨fence, clones, hlookup, ⟨⟩⟩ := withHeld_eq_some hstep
    exact h.rewrite hlookup rfl rfl
  · obtain ⟨fence, clones, hlookup, ⟨⟩⟩ := withHeld_eq_some hstep
    exact h.rewrite hlookup rfl rfl
  · next hlookup _ => exact h.releaseFence hlookup hstep
  · next hlookup _ _ => exact h.rewrite hlookup rfl rfl
  · split
    · next hleader =>
      obtain ⟨hmat, hput, hc⟩ := reserveOwnerKeyMaterialization_cases hleader
      rw [hc]
      exact h.addMaterialization hmat hput
    · exact h
  · next hc =>
    obtain ⟨hmat, hput, rfl⟩ := beginAsyncGetKeyMaterialization_cases hc
    exact h.addMaterialization hmat hput
  · exact h
  · next key _ _ =>
    split
    · next hleader =>
      rw [planExternalGetKey_cases hleader]
      exact @Sound.addFlight _ _ { kind := .externalGet, key, putId := (0, 0) } h _
        (writes_insert _ _ _) (h.key key) fun heq => by cases heq
    · exact h
  · exact h.background (by simp) _ _ _ _
  · exact h.background (by simp) _ _ _ _
  · next hlookup _ => exact h.complete hlookup
  · next hlookup _ => exact h.finish hlookup
  · obtain ⟨r, hr, rfl⟩ := map_eq_some_iff.1 hstep
    exact h.installSourceSelectionFence hr
  · obtain ⟨r, hr, rfl⟩ := map_eq_some_iff.1 hstep
    exact h.restoreSourceSelection hr
  · obtain ⟨c, hc, rfl⟩ := map_eq_some_iff.1 hstep
    exact h.prepareOne hc
  · exact h.releaseOne _ _
  · obtain ⟨c, hc, rfl⟩ := map_eq_some_iff.1 hstep
    exact h.commitOne hc
  all_goals
    obtain ⟨c, hc, rfl⟩ := map_eq_some_iff.1 hstep
    exact h.endReclaim hc

end

theorem sound_of_run {evs : List Event} (h : Run Step initial evs w) : w.Sound :=
  h.invariant (I := Sound) (fun _ _ _ hw hstep => hw.step hstep) sound_initial

/-! ## What finishing and dropping leaves alone -/

/-- A section that writes one record keeps what does not belong to `id`, if the record does. -/
theorem keeps_of_writes (hwrites : Writes w.controls w'.controls key st)
    (hput : ∀ op, op ≠ id → (w.control key).externalPut = some op → st.externalPut = some op)
    (hslot : ∀ kind op, op ≠ id → slot kind (w.control key) = some op → slot kind st = some op)
    (hselection : st.sourceEvictionSelection = (w.control key).sourceEvictionSelection)
    (hreclaim : st.reclaim = (w.control key).reclaim) : Keeps id w w' := by
  have hcontrol : ∀ k, k = key ∧ w'.control key = st ∨ w'.control k = w.control k := by
    intro k
    by_cases hk : k = key
    · exact .inl ⟨hk, hwrites.self⟩
    · exact .inr (Controls.control_congr (hwrites.other k hk))
  constructor
  · intro k op hne hop
    obtain ⟨rfl, hst⟩ | hst := hcontrol k <;> rw [hst]
    · exact hput op hne hop
    · exact hop
  · intro kind k op hne hop
    obtain ⟨rfl, hst⟩ | hst := hcontrol k <;> rw [hst]
    · exact hslot kind op hne hop
    · exact hop
  · intro k
    obtain ⟨rfl, hst⟩ | hst := hcontrol k <;> rw [hst]
    exact hselection
  · intro k
    obtain ⟨rfl, hst⟩ | hst := hcontrol k <;> rw [hst]
    exact hreclaim

theorem Keeps.of_controls (h : w'.controls = w.controls) : Keeps id w w' := by
  have hcontrol : ∀ k, w'.control k = w.control k := fun k => by rw [World.control, h]
  exact ⟨fun k op _ hop => by rw [hcontrol, hop], fun kind k op _ hop => by rw [hcontrol, hop],
    fun k => by rw [hcontrol], fun k => by rw [hcontrol]⟩

theorem keeps_finish (id : ℕ) (flight : Flight) : Keeps id w (w.finish id flight) := by
  refine keeps_of_writes (writes_clearMarker flight.kind w.controls flight.key id) ?_ ?_ ?_ ?_
  · intro op _ hop
    split
    · rwa [(setSlot_fields _ _ _).2.2.1]
    · exact hop
  · intro kind op hne hop
    split
    · next hmarked =>
      rw [slot_setSlot, if_neg, hop]
      rintro rfl
      exact hne (some.inj (hop.symm.trans hmarked))
    · exact hop
  · split
    · exact (setSlot_fields _ _ _).2.2.2.1
    · rfl
  · split
    · exact (setSlot_fields _ _ _).2.2.2.2.1
    · rfl

theorem keeps_releaseFence (h : w.releaseFence id fence = some w') : Keeps id w w' := by
  obtain ⟨controls, hcounts, rfl⟩ := map_eq_some_iff.1 h
  obtain rfl := releaseExternalPendingPutCounts_cases hcounts
  refine keeps_of_writes (writes_settle _ _ _) ?_ ?_ ?_ ?_
  · intro op hne hop
    unfold released
    split
    · rw [if_neg, hop]
      intro heq
      exact hne (some.inj (hop.symm.trans heq))
    · exact hop
  · intro kind op _ hop
    unfold released
    split <;> cases kind <;> exact hop
  · unfold released
    split <;> rfl
  · unfold released
    split <;> rfl

theorem keeps_dropLast (h : w.dropLast id fence = some w') : Keeps id w w' := by
  revert h
  fun_cases World.dropLast w id fence <;> intro h
  · cases h
    exact .of_controls rfl
  · cases h
    exact .of_controls rfl
  · exact keeps_releaseFence h

/-- The end of the operation or guard `id`. -/
def Event.Ends (id : ℕ) : Event → Prop
  | .finish id' => id' = id
  | .dropFence id' => id' = id
  | .cleanup id' _ => id' = id
  | _ => False

theorem keeps_of_step {ev : Event} (hends : Event.Ends id ev) (hstep : Step w ev w') :
    Keeps id w w' := by
  revert hstep
  unfold Step
  fun_cases World.step w ev <;> intro hstep <;> (try cases hstep) <;> try exact hends.elim
  all_goals obtain rfl := hends
  · obtain ⟨fence, clones, -, hstep⟩ := withHeld_eq_some hstep
    split at hstep
    · exact keeps_dropLast hstep
    · cases hstep
      exact .of_controls rfl
  · exact keeps_releaseFence hstep
  · exact .of_controls rfl
  · exact keeps_finish _ _

/-- The restore of a source selection of another generation does nothing. -/
theorem restore_of_step (hne : (w.control key).sourceEvictionSelection ≠ some putId)
    (hstep : Step w (.restoreSourceSelection key putId) w') : w' = w := by
  obtain ⟨r, hr, rfl⟩ := map_eq_some_iff.1 hstep
  unfold OwnerKey.restoreSourceSelection at hr
  split at hr
  · cases hr
    rfl
  · next st hlookup =>
    rw [World.control, Controls.control_of_lookup hlookup] at hne
    rw [if_pos hne] at hr
    cases hr
    rfl

/-! ## The result -/

/-- The put marker is counted as one local put. -/
theorem Sound.localPuts_eq_one (h : w.Sound) (howns : Owns w.fences key id) :
    (w.control key).localPuts = 1 := by
  obtain ⟨fence, hlookup, hown, hkey⟩ := howns
  have hcount := (h.key key).owned
  have hle := (h.key key).owned_le
  rw [countOwned_of_lookup hlookup, if_pos ⟨hkey, hown⟩] at hcount
  omega

theorem Sound.leads_unique (h : w.Sound) {id' : ℕ} (hid : w.Leads key id) (hid' : w.Leads key id') :
    id = id' := by
  -- a materialization and a local-first put exclude each other
  have hmixed : ∀ i j, Flies w.flights .ownerMaterialization key i → ¬Owns w.fences key j := by
    intro i j hflies howns
    have hzero := (h.key key).exclusive (by rw [(h.key key).lead i hflies]; rfl)
    rw [h.localPuts_eq_one howns] at hzero
    cases hzero
  obtain hflies | howns := hid
  · obtain hflies' | howns' := hid'
    · have heq := ((h.key key).lead id hflies).symm.trans ((h.key key).lead id' hflies')
      exact some.inj heq
    · exact absurd howns' (hmixed id id' hflies)
  · obtain hflies' | howns' := hid'
    · exact absurd howns (hmixed id' id hflies')
    · have heq := (((h.key key).put id).2 howns).symm.trans (((h.key key).put id').2 howns')
      exact some.inj heq

/-- A record that nothing holds would be idle, and idle records are removed. -/
theorem Sound.lookup_none (h : w.Sound) (hholds : ¬w.Holds key) : w.controls.lookup key = none := by
  cases hlookup : w.controls.lookup key with
  | none => rfl
  | some st =>
    exfalso
    have hcontrol : w.control key = st := Controls.control_of_lookup hlookup
    have hkey := h.key key
    simp only [Holds, not_or, not_exists, not_and] at hholds
    obtain ⟨hfences, hflights, hselection, hreclaim⟩ := hholds
    rw [hcontrol] at hkey hselection hreclaim
    have hslot : ∀ kind, slot kind st = none := by
      intro kind
      cases hs : slot kind st with
      | none => rfl
      | some id =>
        obtain ⟨flight, hid, -, heq⟩ := hkey.marker kind id hs
        exact absurd heq (hflights id flight hid)
    have hput : st.externalPut = none := by
      cases hs : st.externalPut with
      | none => rfl
      | some id =>
        obtain ⟨fence, hid, -, heq⟩ := (hkey.put id).1 hs
        exact absurd heq (hfences id fence hid)
    have hpending : st.externalPendingPuts = 0 :=
      hkey.pending.trans (Table.sumBy_eq_zero fun id fence hid => if_neg (hfences id fence hid))
    have hfenced : st.localAccessFenced = false := by
      simpa [localAccessFenced] using And.intro hselection hreclaim
    have hidle : st = {} := by
      obtain ⟨_, _, _, _, _, _, _, _, _, _⟩ := st
      obtain ⟨rfl, rfl⟩ := not_fenced hfenced
      obtain rfl := hput
      obtain rfl := hpending
      obtain rfl := hkey.localPuts_eq_zero rfl
      obtain rfl := hslot .externalGet
      obtain rfl := hslot .ownerMaterialization
      obtain rfl := hslot .remotePut
      obtain rfl := hslot .localSsdPut
      obtain rfl := hkey.fence.trans hfenced
      rfl
    obtain ⟨id, flight, hid, heq, -⟩ := h.idle key st hlookup (decide_eq_true hidle)
    exact hflights id flight hid heq

/-- **The guards on an owner's keys are counted exactly.** In every state of every run, for every
key: the counters are the numbers of the unreleased guards of pending puts and of those that own a
local put; the put marker is the one unreleased guard of a local-first put, counted as one local
put; at most one materialization or local-first put leads; ending an operation or a guard clears
nothing that belongs to another one; restoring a selection of another generation does nothing; and a
key that nothing holds has no record. -/
theorem guards_counted {evs : List Event} (h : Run Step initial evs w) :
    (∀ key, (w.control key).externalPendingPuts = w.pendingPuts key ∧
      (w.control key).localPuts = w.ownedPuts key) ∧
    (∀ key id, (w.control key).externalPut = some id ↔
      (∃ fence, w.fences.lookup id = some fence ∧ fence.ownsLocalPut = true ∧
        fence.key = key) ∧ (w.control key).localPuts = 1) ∧
    (∀ key id id', w.Leads key id → w.Leads key id' → id = id') ∧
    (∀ id ev w', Event.Ends id ev → Step w ev w' → Keeps id w w') ∧
    (∀ key putId w', (w.control key).sourceEvictionSelection ≠ some putId →
      Step w (.restoreSourceSelection key putId) w' → w' = w) ∧
    ∀ key, ¬w.Holds key → w.controls.lookup key = none := by
  have hw := sound_of_run h
  refine ⟨?_, ?_, ?_, ?_, ?_, ?_⟩
  · intro key
    exact ⟨(hw.key key).pending, (hw.key key).owned⟩
  · intro key id
    constructor
    · intro hput
      have howns := ((hw.key key).put id).1 hput
      exact ⟨howns, hw.localPuts_eq_one howns⟩
    · intro hand
      exact ((hw.key key).put id).2 hand.1
  · intro key id id' hid hid'
    exact hw.leads_unique hid hid'
  · intro id ev w' hends hstep
    exact keeps_of_step hends hstep
  · intro key putId w' hne hstep
    exact restore_of_step hne hstep
  · intro key hholds
    exact hw.lookup_none hholds

/-- A local-first put and a pending put on one key, dropped in the order they came. -/
def putsDropped : List Event :=
  [.reserveExternalLocalFirstPutKey "k" true true false, .acquireExternalPendingPutFence "k",
    .dropFence 0]

theorem guards_counted_putsDropped : ∃ w, Run Step initial putsDropped w ∧ w.pendingPuts "k" = 1 ∧
      (w.control "k").externalPendingPuts = 1 := by
  obtain ⟨w, hrun, hcount⟩ := Run.exists_of_foldlM World.step initial putsDropped
    (fun w => w.pendingPuts "k" = 1) (by decide +kernel)
  exact ⟨w, hrun, hcount, ((guards_counted hrun).1 "k").1.trans hcount⟩

/-- The slot of a local-first put cannot be returned, and its guard is dropped. -/
def slotNotReturned : List Event :=
  [.reserveExternalLocalFirstPutKey "k" true true false, .attachLocalSlotLease 0,
    .takeLocalSlotLease 0, .failLocalSlotRelease 0, .dropFence 0]

/-- **A dropped guard may stay counted.** No guard is live; the counters and the marker stand. -/
theorem retained_guard_is_counted : ∃ w, Run Step initial slotNotReturned w ∧ w.livePuts "k" = 0 ∧
      (w.control "k").externalPendingPuts = 1 ∧ (w.control "k").localPuts = 1 ∧
      (w.control "k").externalPut = some 0 := by
  exact Run.exists_of_foldlM World.step initial slotNotReturned _ (by decide +kernel)

end World

end Fluxon.OwnerKey
