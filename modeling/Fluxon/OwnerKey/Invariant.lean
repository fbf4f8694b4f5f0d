import Fluxon.OwnerKey.World

/-!
# The invariant of the owner's key records

`KeySound fences flights key st` relates the record of one key to the guards and operations on it:
its counters are the numbers of the unreleased guards, its put marker is the one guard of a
local-first put, every other marker is an operation in flight, a materialization in flight is
marked, and the fence channel is there exactly while the key is fenced.

A section writes the record of one key (`Writes`), so a step keeps the invariant when it keeps it at
that key and leaves the guards and operations of the other keys alone (`Sound.write`). Every step
does (`Sound.step`).
-/

namespace Fluxon.OwnerKey

open Table

/-! ## Writing one record -/

namespace Controls

variable {c c' : Controls} {key k : String} {st : OwnerKeyControlState}

theorem control_of_lookup (h : c.lookup key = some st) : c.control key = st := by
  rw [control, h]
  rfl

theorem control_congr (h : c'.lookup k = c.lookup k) : c'.control k = c.control k := by
  rw [control, h, control]

end Controls

/-- The records `c'` are `c` with the record `st` written for `key`; the record may be left out
when it is idle. -/
structure Writes (c c' : Controls) (key : String) (st : OwnerKeyControlState) : Prop where
  self : c'.control key = st
  other : ∀ k, k ≠ key → c'.lookup k = c.lookup k

variable (c : Controls)

theorem writes_insert (key : String) (st : OwnerKeyControlState) :
    Writes c (c.insert key st) key st :=
  ⟨Controls.control_of_lookup (AList.lookup_insert _), fun _ hk => AList.lookup_insert_ne hk⟩

theorem writes_settle (key : String) (st : OwnerKeyControlState) :
    Writes c (c.settle key st) key st := by
  unfold Controls.settle
  split
  · next hidle =>
    refine ⟨?_, fun _ hk => AList.lookup_erase_ne hk⟩
    rw [Controls.control, AList.lookup_erase]
    exact (of_decide_eq_true hidle).symm
  · exact writes_insert c key st

variable {key : String}

theorem lookup_settle {c : Controls} {st st' : OwnerKeyControlState}
    (h : (c.settle key st).lookup key = some st') : st'.isIdle = false := by
  unfold Controls.settle at h
  split at h
  · rw [AList.lookup_erase] at h
    cases h
  · next hidle =>
    rw [AList.lookup_insert] at h
    cases h
    simpa using hidle

theorem Writes.refl (key : String) : Writes c c key (c.control key) := ⟨rfl, fun _ _ => rfl⟩

/-! ## The invariant at one key -/

variable (fences : Table ℕ PutFence)

/-- The number of unreleased guards on a key. -/
def countPuts (key : String) : ℕ := fences.sumBy fun _ fence => if fence.key = key then 1 else 0

/-- The number of those that own a local put. -/
def countOwned (key : String) : ℕ :=
  fences.sumBy fun _ fence => if fence.key = key ∧ fence.ownsLocalPut then 1 else 0

/-- The guard `id` owns a local put on the key. -/
def Owns (key : String) (id : ℕ) : Prop :=
  ∃ fence, fences.lookup id = some fence ∧ fence.ownsLocalPut = true ∧ fence.key = key

/-- The operation `id` of this kind is in flight on the key. -/
def Flies (flights : Table ℕ Flight) (kind : FlightKind) (key : String) (id : ℕ) : Prop :=
  ∃ flight, flights.lookup id = some flight ∧ flight.kind = kind ∧ flight.key = key

/-- **The invariant of one record.** -/
structure KeySound (fences : Table ℕ PutFence) (flights : Table ℕ Flight) (key : String)
    (st : OwnerKeyControlState) : Prop where
  pending : st.externalPendingPuts = countPuts fences key
  owned : st.localPuts = countOwned fences key
  owned_le : st.localPuts ≤ 1
  put : ∀ id, st.externalPut = some id ↔ Owns fences key id
  marker : ∀ kind id, slot kind st = some id → Flies flights kind key id
  lead : ∀ id, Flies flights .ownerMaterialization key id → st.ownerMaterialization = some id
  exclusive : st.ownerMaterialization.isSome → st.localPuts = 0
  fence : st.localAccessFence = st.localAccessFenced

/-- The two guard tables agree on a key. -/
structure SamePuts (fences fences' : Table ℕ PutFence) (key : String) : Prop where
  count : countPuts fences' key = countPuts fences key
  owned : countOwned fences' key = countOwned fences key
  owns : ∀ id, Owns fences' key id ↔ Owns fences key id

theorem SamePuts.refl (key : String) : SamePuts fences fences key := ⟨rfl, rfl, fun _ => Iff.rfl⟩

/-- The two tables of operations agree on a key. -/
def SameFlights (flights flights' : Table ℕ Flight) (key : String) : Prop :=
  ∀ kind id, Flies flights' kind key id ↔ Flies flights kind key id

variable {st : OwnerKeyControlState}

theorem KeySound.congr {fences fences' : Table ℕ PutFence} {flights flights' : Table ℕ Flight}
    (h : KeySound fences flights key st) (hputs : SamePuts fences fences' key)
    (hflights : SameFlights flights flights' key) :
    KeySound fences' flights' key st where
  pending := h.pending.trans hputs.count.symm
  owned := h.owned.trans hputs.owned.symm
  owned_le := h.owned_le
  put id := (h.put id).trans (hputs.owns id).symm
  marker kind id hid := (hflights kind id).2 (h.marker kind id hid)
  lead id hid := h.lead id ((hflights _ id).1 hid)
  exclusive := h.exclusive
  fence := h.fence

/-! ## Changing the guards -/

section Fences

variable {fences : Table ℕ PutFence} {fence fence' : PutFence} {id : ℕ} {key : String}

/-- A guard is rewritten with its key and its ownership. -/
theorem samePuts_rewrite (h : fences.lookup id = some fence) (hkey : fence'.key = fence.key)
    (howns : fence'.ownsLocalPut = fence.ownsLocalPut) (key : String) :
    SamePuts fences (fences.insert id fence') key where
  count := by
    unfold countPuts
    rw [sumBy_insert, sumBy_of_lookup _ h, hkey]
  owned := by
    unfold countOwned
    rw [sumBy_insert, sumBy_of_lookup _ h, hkey, howns]
  owns id' := by
    unfold Owns
    by_cases hid : id' = id
    · subst hid
      simp [h, hkey, howns]
    · simp [hid]

theorem countPuts_insert (h : fences.lookup id = none) : countPuts (fences.insert id fence) key =
      (if fence.key = key then 1 else 0) + countPuts fences key :=
  sumBy_insert_of_lookup_none _ fence h

theorem countOwned_insert (h : fences.lookup id = none) : countOwned (fences.insert id fence) key =
      (if fence.key = key ∧ fence.ownsLocalPut then 1 else 0) + countOwned fences key :=
  sumBy_insert_of_lookup_none _ fence h

theorem countPuts_of_lookup (h : fences.lookup id = some fence) :
    countPuts fences key = (if fence.key = key then 1 else 0) + countPuts (fences.erase id) key :=
  sumBy_of_lookup _ h

theorem countOwned_of_lookup (h : fences.lookup id = some fence) :
    countOwned fences key = (if fence.key = key ∧ fence.ownsLocalPut then 1 else 0) +
      countOwned (fences.erase id) key :=
  sumBy_of_lookup _ h

theorem owns_insert_new (h : fences.lookup id = none) (id' : ℕ) :
    Owns (fences.insert id fence) key id' ↔
      (id' = id ∧ fence.ownsLocalPut = true ∧ fence.key = key) ∨ Owns fences key id' := by
  unfold Owns
  by_cases hid : id' = id
  · subst hid
    simp [h]
  · simp [hid]

theorem owns_erase (id' : ℕ) : Owns (fences.erase id) key id' ↔ id' ≠ id ∧ Owns fences key id' := by
  unfold Owns
  rw [lookup_erase_eq]
  by_cases hid : id' = id <;> simp [hid]

/-- A new guard changes nothing on the other keys. -/
theorem samePuts_insert_new (h : fences.lookup id = none) (hkey : key ≠ fence.key) :
    SamePuts fences (fences.insert id fence) key where
  count := by rw [countPuts_insert h, if_neg (Ne.symm hkey), Nat.zero_add]
  owned := by rw [countOwned_insert h, if_neg fun hand => hkey hand.1.symm, Nat.zero_add]
  owns id' := by
    rw [owns_insert_new h]
    constructor
    · rintro (⟨-, -, heq⟩ | hold)
      · exact absurd heq.symm hkey
      · exact hold
    · exact .inr

/-- A guard that is gone changes nothing on the other keys. -/
theorem samePuts_erase (h : fences.lookup id = some fence) (hkey : key ≠ fence.key) :
    SamePuts fences (fences.erase id) key where
  count := by rw [countPuts_of_lookup h, if_neg (Ne.symm hkey), Nat.zero_add]
  owned := by rw [countOwned_of_lookup h, if_neg fun hand => hkey hand.1.symm, Nat.zero_add]
  owns id' := by
    rw [owns_erase]
    constructor
    · exact And.right
    intro hold
    refine ⟨?_, hold⟩
    rintro rfl
    obtain ⟨fence', hlookup, -, heq⟩ := hold
    rw [h] at hlookup
    cases hlookup
    exact hkey heq.symm

end Fences

/-! ## Changing the operations -/

section Flights

variable {flights : Table ℕ Flight} {flight flight' : Flight} {id : ℕ} {key : String}

theorem sameFlights_rewrite (h : flights.lookup id = some flight)
    (hkind : flight'.kind = flight.kind) (hkey : flight'.key = flight.key) (key : String) :
    SameFlights flights (flights.insert id flight') key := by
  intro kind id'
  unfold Flies
  by_cases hid : id' = id
  · subst hid
    simp [h, hkind, hkey]
  · simp [hid]

theorem flies_insert_new (h : flights.lookup id = none) (kind : FlightKind) (id' : ℕ) :
    Flies (flights.insert id flight) kind key id' ↔
      (id' = id ∧ flight.kind = kind ∧ flight.key = key) ∨ Flies flights kind key id' := by
  unfold Flies
  by_cases hid : id' = id
  · subst hid
    simp [h]
  · simp [hid]

theorem flies_erase (kind : FlightKind) (id' : ℕ) :
    Flies (flights.erase id) kind key id' ↔ id' ≠ id ∧ Flies flights kind key id' := by
  unfold Flies
  rw [lookup_erase_eq]
  by_cases hid : id' = id <;> simp [hid]

theorem sameFlights_insert_new (h : flights.lookup id = none) (hkey : key ≠ flight.key) :
    SameFlights flights (flights.insert id flight) key := by
  intro kind id'
  rw [flies_insert_new h]
  constructor
  · rintro (⟨-, -, heq⟩ | hold)
    · exact absurd heq.symm hkey
    · exact hold
  · exact .inr

theorem sameFlights_erase (h : flights.lookup id = some flight) (hkey : key ≠ flight.key) :
    SameFlights flights (flights.erase id) key := by
  intro kind id'
  rw [flies_erase]
  constructor
  · exact And.right
  intro hold
  refine ⟨?_, hold⟩
  rintro rfl
  obtain ⟨flight', hlookup, -, heq⟩ := hold
  rw [h] at hlookup
  cases hlookup
  exact hkey heq.symm

end Flights

/-! ## The invariant -/

namespace World

variable {w w' : World}

/-- **The invariant of the owner's key records.** -/
structure Sound (w : World) : Prop where
  key : ∀ key, KeySound w.fences w.flights key (w.control key)
  idle : ∀ key st, w.controls.lookup key = some st → st.isIdle = true →
    ∃ id flight, w.flights.lookup id = some flight ∧ flight.key = key ∧ flight.completed = true
  fence_lt : ∀ id fence, w.fences.lookup id = some fence → id < w.nextId
  flight_lt : ∀ id flight, w.flights.lookup id = some flight → id < w.nextId

theorem keySound_idle (key : String) : KeySound ∅ ∅ key {} where
  pending := rfl
  owned := rfl
  owned_le := Nat.zero_le _
  put id := by simp [Owns]
  marker kind id h := by cases kind <;> cases h
  lead id h := by
    obtain ⟨_, h, -⟩ := h
    cases h
  exclusive h := rfl
  fence := rfl

theorem sound_initial : initial.Sound where
  key := keySound_idle
  idle _ _ h := by cases h
  fence_lt _ _ h := by cases h
  flight_lt _ _ h := by cases h

theorem Sound.fence_none (h : w.Sound) : w.fences.lookup w.nextId = none := by
  cases hlookup : w.fences.lookup w.nextId with
  | none => rfl
  | some fence => exact absurd (h.fence_lt _ _ hlookup) (lt_irrefl _)

theorem Sound.flight_none (h : w.Sound) : w.flights.lookup w.nextId = none := by
  cases hlookup : w.flights.lookup w.nextId with
  | none => rfl
  | some flight => exact absurd (h.flight_lt _ _ hlookup) (lt_irrefl _)

/-- A step writes the record of one key and changes the guards and operations of that key only. -/
theorem Sound.write (h : w.Sound) (hwrites : Writes w.controls w'.controls key st)
    (hst : KeySound w'.fences w'.flights key st)
    (hidle : w'.controls.lookup key = some st → st.isIdle = true →
      ∃ id flight, w'.flights.lookup id = some flight ∧ flight.key = key ∧
        flight.completed = true) (hputs : ∀ k, k ≠ key → SamePuts w.fences w'.fences k)
    (hflights : ∀ k, k ≠ key → SameFlights w.flights w'.flights k)
    (hcompleted : ∀ id flight, flight.key ≠ key → w.flights.lookup id = some flight →
      w'.flights.lookup id = some flight)
    (hfence : ∀ id fence, w'.fences.lookup id = some fence → id < w'.nextId)
    (hflight : ∀ id flight, w'.flights.lookup id = some flight → id < w'.nextId) : w'.Sound where
  key k := by
    by_cases hk : k = key
    · subst hk
      show KeySound _ _ k (w'.controls.control k)
      rw [hwrites.self]
      exact hst
    · show KeySound _ _ k (w'.controls.control k)
      rw [Controls.control_congr (hwrites.other k hk)]
      exact (h.key k).congr (hputs k hk) (hflights k hk)
  idle k st' hlookup hst' := by
    by_cases hk : k = key
    · subst hk
      have heq : st' = st := (Controls.control_of_lookup hlookup).symm.trans hwrites.self
      subst heq
      exact hidle hlookup hst'
    · rw [hwrites.other k hk] at hlookup
      obtain ⟨id, flight, hid, hkey, hdone⟩ := h.idle k st' hlookup hst'
      exact ⟨id, flight, hcompleted id flight (hkey ▸ hk) hid, hkey, hdone⟩
  fence_lt := hfence
  flight_lt := hflight

/-- A step that writes a record and changes neither guards nor operations. -/
theorem Sound.writeOnly (h : w.Sound) {c : Controls} (hwrites : Writes w.controls c key st)
    (hst : KeySound w.fences w.flights key st) (hidle : c.lookup key = some st → st.isIdle = true →
      ∃ id flight, w.flights.lookup id = some flight ∧ flight.key = key ∧
        flight.completed = true) : ({ w with controls := c }).Sound :=
  h.write hwrites hst hidle (fun _ _ => .refl _ _) (fun _ _ _ _ => Iff.rfl)
    (fun _ _ _ hid => hid) h.fence_lt h.flight_lt

end World

/-! ## The record of one key, section by section -/

section KeySound

variable {fences : Table ℕ PutFence} {flights : Table ℕ Flight} {key : String}
  {st : OwnerKeyControlState} {id : ℕ}

theorem OwnerKeyControlState.eq_of_isIdle (h : st.isIdle = true) : st = {} := of_decide_eq_true h

theorem countOwned_eq_zero (h : ∀ id, ¬Owns fences key id) : countOwned fences key = 0 := by
  refine sumBy_eq_zero fun id fence hid => if_neg ?_
  rintro ⟨hkey, howns⟩
  exact h id ⟨fence, hid, howns, hkey⟩

section

variable (h : KeySound fences flights key st)
include h

/-- Without a leader there is no local put. -/
theorem KeySound.localPuts_eq_zero (hput : st.externalPut = none) : st.localPuts = 0 := by
  rw [h.owned]
  refine countOwned_eq_zero fun id howns => ?_
  rw [← h.put, hput] at howns
  cases howns

/-- A local-first put takes the lead on a key without local puts and materialization. -/
theorem KeySound.lead_put (hnew : fences.lookup id = none) (hzero : st.localPuts = 0)
    (hmat : st.ownerMaterialization = none) :
    KeySound (fences.insert id { key, ownsLocalPut := true }) flights key
      { st with
        externalPut := some id
        localPuts := st.localPuts + 1
        externalPendingPuts := st.externalPendingPuts + 1 } :=
  { h with
    marker := fun kind id hid => h.marker kind id (by cases kind <;> exact hid)
    pending := by
      rw [countPuts_insert hnew, if_pos rfl, ← h.pending]
      exact Nat.add_comm _ _
    owned := by
      rw [countOwned_insert hnew, if_pos ⟨rfl, rfl⟩, ← h.owned]
      exact Nat.add_comm _ _
    owned_le := by
      show st.localPuts + 1 ≤ 1
      omega
    put := fun id' => by
      rw [owns_insert_new hnew]
      have hnone : ¬Owns fences key id' := by
        intro howns
        obtain ⟨fence, hlookup, hown, hkey⟩ := howns
        have hcount := h.owned
        rw [countOwned_of_lookup hlookup, if_pos ⟨hkey, hown⟩] at hcount
        omega
      constructor
      · intro heq
        cases heq
        exact .inl ⟨rfl, rfl, rfl⟩
      · rintro (⟨rfl, -⟩ | howns)
        · rfl
        · exact absurd howns hnone
    exclusive := fun hsome => by
      have hsome' : st.ownerMaterialization.isSome := hsome
      rw [hmat] at hsome'
      cases hsome' }

/-- A pending put is counted. -/
theorem KeySound.acquire (hnew : fences.lookup id = none) :
    KeySound (fences.insert id { key, ownsLocalPut := false }) flights key
      { st with externalPendingPuts := st.externalPendingPuts + 1 } :=
  { h with
    marker := fun kind id hid => h.marker kind id (by cases kind <;> exact hid)
    pending := by
      rw [countPuts_insert hnew, if_pos rfl, ← h.pending]
      exact Nat.add_comm _ _
    owned := by
      rw [countOwned_insert hnew, if_neg (by simp), Nat.zero_add]
      exact h.owned
    put := fun id' => by
      rw [owns_insert_new hnew]
      refine (h.put id').trans ⟨.inr, ?_⟩
      rintro (⟨-, hfalse, -⟩ | howns)
      · cases hfalse
      · exact howns }

/-- The counts of a guard that owns a local put are released. -/
theorem KeySound.release_owned {fence : PutFence} (hlookup : fences.lookup id = some fence)
    (hkey : fence.key = key) (howns : fence.ownsLocalPut = true) :
    KeySound (fences.erase id) flights key
      { st with
        externalPendingPuts := st.externalPendingPuts - 1
        localPuts := st.localPuts - 1
        externalPut := if st.externalPut = some id then none else st.externalPut } := by
  have hmarked : st.externalPut = some id := (h.put id).2 ⟨fence, hlookup, howns, hkey⟩
  have hcount := h.pending
  have howned := h.owned
  rw [countPuts_of_lookup hlookup, if_pos hkey] at hcount
  rw [countOwned_of_lookup hlookup, if_pos ⟨hkey, howns⟩] at howned
  have hle := h.owned_le
  exact { h with
    marker := fun kind id hid => h.marker kind id (by cases kind <;> exact hid)
    pending := show st.externalPendingPuts - 1 = _ by omega
    owned := show st.localPuts - 1 = _ by omega
    owned_le := show st.localPuts - 1 ≤ 1 by omega
    put := fun id' => by
      rw [if_pos hmarked, owns_erase, ← h.put, hmarked]
      simp [eq_comm]
    exclusive := fun hsome => by
      show st.localPuts - 1 = 0
      omega }

/-- The count of a guard that owns no local put is released. -/
theorem KeySound.release_pending {fence : PutFence} (hlookup : fences.lookup id = some fence)
    (hkey : fence.key = key) (howns : fence.ownsLocalPut = false) :
    KeySound (fences.erase id) flights key
      { st with externalPendingPuts := st.externalPendingPuts - 1 } := by
  have hcount := h.pending
  rw [countPuts_of_lookup hlookup, if_pos hkey] at hcount
  exact { h with
    marker := fun kind id hid => h.marker kind id (by cases kind <;> exact hid)
    pending := show st.externalPendingPuts - 1 = _ by omega
    owned := by
      have howned := h.owned
      rw [countOwned_of_lookup hlookup, if_neg (by simp [howns]), Nat.zero_add] at howned
      exact howned
    put := fun id' => by
      rw [owns_erase]
      refine (h.put id').trans ⟨fun ho => ⟨?_, ho⟩, And.right⟩
      rintro rfl
      obtain ⟨fence', hlookup', howns', -⟩ := ho
      rw [hlookup] at hlookup'
      cases hlookup'
      rw [howns] at howns'
      cases howns' }

end

theorem slot_setSlot (kind kind' : FlightKind) (op : Option ℕ) (st : OwnerKeyControlState) :
    slot kind' (setSlot kind op st) = if kind' = kind then op else slot kind' st := by
  cases kind <;> cases kind' <;> rfl

/-- What writing a marker leaves alone. -/
theorem setSlot_fields (kind : FlightKind) (op : Option ℕ) (st : OwnerKeyControlState) :
    (setSlot kind op st).externalPendingPuts = st.externalPendingPuts ∧
      (setSlot kind op st).localPuts = st.localPuts ∧
      (setSlot kind op st).externalPut = st.externalPut ∧
      (setSlot kind op st).sourceEvictionSelection = st.sourceEvictionSelection ∧
      (setSlot kind op st).reclaim = st.reclaim ∧
      (setSlot kind op st).localAccessFence = st.localAccessFence := by
  cases kind <;> exact ⟨rfl, rfl, rfl, rfl, rfl, rfl⟩

variable (h : KeySound fences flights key st)
include h

/-- Only markers change, so the counters and the fence are as they were. -/
theorem KeySound.withSlot {flights' : Table ℕ Flight} {kind : FlightKind} {op : Option ℕ}
    (hslot : ∀ kind' id, slot kind' (setSlot kind op st) = some id →
      Flies flights' kind' key id) (hlead : ∀ id, Flies flights' .ownerMaterialization key id →
      slot .ownerMaterialization (setSlot kind op st) = some id)
    (hexclusive : (slot .ownerMaterialization (setSlot kind op st)).isSome →
      st.localPuts = 0) : KeySound fences flights' key (setSlot kind op st) := by
  obtain ⟨hpending, hlocal, hput, hselection, hreclaim, hfence⟩ := setSlot_fields kind op st
  constructor
  · rw [hpending, h.pending]
  · rw [hlocal, h.owned]
  · rw [hlocal]
    exact h.owned_le
  · rw [hput]
    exact h.put
  · exact hslot
  · exact hlead
  · intro hsome
    rw [hlocal]
    exact hexclusive hsome
  · unfold OwnerKeyControlState.localAccessFenced
    rw [hfence, hselection, hreclaim]
    exact h.fence

/-- A new operation is marked. A materialization needs a key without leader. -/
theorem KeySound.addFlight (hnew : flights.lookup id = none) {flight : Flight}
    (hkey : flight.key = key) (hmat : flight.kind = .ownerMaterialization →
      st.ownerMaterialization = none ∧ st.localPuts = 0) :
    KeySound fences (flights.insert id flight) key
      (setSlot flight.kind (some id) st) := by
  refine h.withSlot ?_ ?_ ?_
  · intro kind' id' hid
    rw [slot_setSlot] at hid
    rw [flies_insert_new hnew]
    split at hid
    · next heq =>
      cases hid
      exact .inl ⟨rfl, heq.symm, hkey⟩
    · exact .inr (h.marker kind' id' hid)
  · intro id' hflies
    rw [slot_setSlot]
    obtain ⟨rfl, hkind, -⟩ | hold := (flies_insert_new hnew _ _).1 hflies
    · rw [if_pos hkind.symm]
    have hmarked := h.lead id' hold
    split
    · next heq =>
      rw [(hmat heq.symm).1] at hmarked
      cases hmarked
    · exact hmarked
  · intro hsome
    rw [slot_setSlot] at hsome
    split at hsome
    · next heq => exact (hmat heq.symm).2
    · exact h.exclusive hsome

/-- The marker of an operation that is no materialization may be cleared. -/
theorem KeySound.clearSlot {kind : FlightKind} (hkind : kind ≠ .ownerMaterialization) :
    KeySound fences flights key (setSlot kind none st) := by
  refine h.withSlot ?_ ?_ ?_
  · intro kind' id hid
    rw [slot_setSlot] at hid
    split at hid
    · cases hid
    · exact h.marker kind' id hid
  · intro id hflies
    rw [slot_setSlot, if_neg (Ne.symm hkind)]
    exact h.lead id hflies
  · intro hsome
    rw [slot_setSlot, if_neg (Ne.symm hkind)] at hsome
    exact h.exclusive hsome

/-- An operation is gone, and its marker with it. -/
theorem KeySound.finish {flight : Flight} (hlookup : flights.lookup id = some flight) :
    KeySound fences (flights.erase id) key
      (if slot flight.kind st = some id then setSlot flight.kind none st
        else st) := by
  -- a marker that is the operation's own has the operation's kind
  have hkind : ∀ kind', slot kind' st = some id → kind' = flight.kind := by
    intro kind' hid
    obtain ⟨flight', hlookup', hkind, -⟩ := h.marker kind' id hid
    rw [hlookup] at hlookup'
    cases hlookup'
    exact hkind.symm
  split
  · next hmarked =>
    refine h.withSlot ?_ ?_ ?_
    · intro kind' id' hid
      rw [slot_setSlot] at hid
      split at hid
      · cases hid
      · next hne =>
        refine (flies_erase _ _).2 ⟨?_, h.marker kind' id' hid⟩
        rintro rfl
        exact hne (hkind kind' hid)
    · intro id' hflies
      obtain ⟨hne, hold⟩ := (flies_erase _ _).1 hflies
      have hlead : slot .ownerMaterialization st = some id' := h.lead id' hold
      rw [slot_setSlot]
      split
      · next heq =>
        rw [heq, hmarked] at hlead
        cases hlead
        exact absurd rfl hne
      · exact hlead
    · intro hsome
      rw [slot_setSlot] at hsome
      split at hsome
      · cases hsome
      · exact h.exclusive hsome
  · next hmarked =>
    exact { h with
      marker := fun kind' id' hid => by
        refine (flies_erase _ _).2 ⟨?_, h.marker kind' id' hid⟩
        rintro rfl
        exact hmarked (hkind kind' hid ▸ hid)
      lead := fun id' hflies => h.lead id' ((flies_erase _ _).1 hflies).2 }

end KeySound

end Fluxon.OwnerKey
