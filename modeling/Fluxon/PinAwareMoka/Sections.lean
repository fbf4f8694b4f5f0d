import Fluxon.PinAwareMoka.Invariant
import Fluxon.PinAwareMoka.World

/-!
# What a section under the state lock does

`Section s s' new actions released` says everything that the rest of the development needs to know
about a section: it keeps the invariant, an entry it leaves is an old generation or a fresh one, a
lease is assigned only to a generation that is not selected, every generation that leaves Moka's
account is named in a removal among the `actions`, and the listener calls `new` are for generations
that the section has selected itself. Every section of the wrapper is one (`insert_section`,
`pin_section`, `release_section`, `takeIf_section`, `selectEntriesIf_section`).

The same lemmas say that in a sound state a section panics only when a counter is exhausted, in
which case it has written nothing.
-/

namespace Fluxon.PinAwareMoka

open List World

namespace State

variable {Key PinAlias Value : Type} [DecidableEq Key] [DecidableEq PinAlias]
  {s s' s'' : State Key PinAlias Value} {entry : EntryState PinAlias Value} {key : Key}

/-- This generation of the key is there and is not pinned. -/
def Resident (s : State Key PinAlias Value) (key : Key) (generation : ℕ) : Prop :=
  ∃ e, s.entries.lookup key = some e ∧ e.generation = generation ∧ e.residency ≠ .pinned

/-- **What a section does.** -/
structure Section (s s' : State Key PinAlias Value) (new : List (Key × ℕ))
    (actions : List (Action Key Value)) (released : Option ℕ) : Prop where
  sound : s'.Sound
  generation_le : s.nextGeneration ≤ s'.nextGeneration
  id_le : s.nextPinLease ≤ s'.nextPinLease
  entry : ∀ k e', s'.entries.lookup k = some e' →
    (∃ e, s.entries.lookup k = some e ∧ e.generation = e'.generation ∧
      (e.residency = .selected → e'.residency = .selected)) ∨ s.nextGeneration ≤ e'.generation
  lease : ∀ id k g, s'.pinLeases.lookup id = some (.assigned k g) →
    s.pinLeases.lookup id = some (.assigned k g) ∨ s.nextGeneration ≤ g ∨
      ∃ e, s.entries.lookup k = some e ∧ e.generation = g ∧ e.residency ≠ .selected
  kept : ∀ id, some id ≠ released → (s.pinLeases.lookup id).isSome → (s'.pinLeases.lookup id).isSome
  assigned : ∀ id k g, some id ≠ released → s.pinLeases.lookup id = some (.assigned k g) →
    s'.pinLeases.lookup id = some (.assigned k g)
  resident : ∀ k g, s.Resident k g → s'.Resident k g ∨ .remove k g ∈ actions
  admits : ∀ k m, .enterMoka k m ∈ actions → s'.Resident k m.generation
  evicts : ∀ popped, .evictSome popped ∉ actions
  new_nodup : (new.map Prod.snd).Nodup
  new_selected : ∀ c ∈ new, ∃ e', s'.entries.lookup c.1 = some e' ∧ e'.generation = c.2 ∧
    e'.residency = .selected
  new_unselected : ∀ c ∈ new, s.nextGeneration ≤ c.2 ∨
    ∃ e, s.entries.lookup c.1 = some e ∧ e.generation = c.2 ∧ e.residency ≠ .selected

/-- A section that leaves the state as it is. -/
theorem Section.refl (h : s.Sound) : Section s s [] [] none where
  sound := h
  generation_le := le_rfl
  id_le := le_rfl
  entry _ e' he := .inl ⟨e', he, rfl, id⟩
  lease _ _ _ hid := .inl hid
  kept _ _ hid := hid
  assigned _ _ _ _ hid := hid
  resident _ _ hr := .inl hr
  admits _ _ h := by cases h
  evicts _ h := by cases h
  new_nodup := nodup_nil
  new_selected _ h := by cases h
  new_unselected _ h := by cases h

/-! ## Removals -/

theorem dropEntry_section (h : s.Sound) (he : s.entries.lookup key = some entry) :
    Section s (s.dropEntry key entry) [] [.remove key entry.generation] none :=
  { Section.refl h with
    sound := h.dropEntry he
    entry := fun k e' hk => by
      rw [lookup_dropEntry] at hk
      split at hk
      · cases hk
      · exact .inl ⟨e', hk, rfl, id⟩
    resident := fun k g hr => by
      obtain ⟨e, hk, hg, hres⟩ := hr
      by_cases hkey : k = key
      · subst hkey
        rw [he] at hk
        cases hk
        exact .inr (by simp [hg])
      · exact .inl ⟨e, by rw [lookup_dropEntry, if_neg hkey]; exact hk, hg, hres⟩
    admits := fun _ _ hm => by simp at hm
    evicts := fun _ hm => by simp at hm
    new_selected := fun _ hc => by cases hc }

theorem takeIf_section (h : s.Sound) (key : Key) (predicate : Value → Bool) :
    Section s (s.takeIf key predicate).2.1 (frameCalls (s.takeIf key predicate).2.2)
      (s.takeIf key predicate).2.2 none := by
  unfold takeIf
  split
  · exact .refl h
  · next entry he =>
    split
    · exact dropEntry_section h he
    · exact .refl h

/-! ## Insertions -/

theorem mem_displacedActions {keys : List Key} (he : s.entries.lookup key = some entry)
    (hkey : key ∈ keys) : .remove key entry.generation ∈ s.displacedActions keys :=
  mem_filterMap.2 ⟨key, hkey, by rw [he]; rfl⟩

theorem eq_remove_of_mem_displacedActions {keys : List Key} {action : Action Key Value}
    (h : action ∈ s.displacedActions keys) : ∃ k g, action = .remove k g := by
  obtain ⟨k, -, hmap⟩ := mem_filterMap.1 h
  obtain ⟨old, -, rfl⟩ := Option.map_eq_some_iff.1 hmap
  exact ⟨k, old.generation, rfl⟩

theorem frameCalls_append (frame rest : List (Action Key Value)) :
    frameCalls (frame ++ rest) = frameCalls frame ++ frameCalls rest :=
  filterMap_append

theorem frameCalls_displacedActions (keys : List Key) :
    frameCalls (s.displacedActions keys) = [] := by
  refine filterMap_eq_nil_iff.2 fun action hmem => ?_
  obtain ⟨k, g, rfl⟩ := eq_remove_of_mem_displacedActions hmem
  rfl

variable {actions : List (Action Key Value)}

theorem insert_section {pinAliases : List PinAlias} {value : Value} {weight : ℕ}
    {zeroCapacity : Bool} (hi : Inserts s key pinAliases value weight zeroCapacity s' actions) :
    Section s s' (frameCalls actions) actions none := by
  obtain ⟨n, hentry, rfl⟩ := hi.entry
  set residency := newResidency n zeroCapacity with hresidency
  have hcalls : frameCalls (s.displacedActions (s.displacedKeys key pinAliases) ++
      newActions key s.nextGeneration value weight residency) =
      if residency = .selected then [(key, s.nextGeneration)] else [] := by
    rw [frameCalls_append, frameCalls_displacedActions]
    cases residency <;> rfl
  rw [hcalls]
  constructor
  · exact hi.sound
  · rw [hi.nextGeneration]
    exact Nat.le_succ _
  · exact hi.nextPinLease.ge
  · intro k e' hk
    by_cases hkey : k = key
    · subst hkey
      rw [hentry] at hk
      cases hk
      exact .inr le_rfl
    · rw [hi.other k hkey] at hk
      split at hk
      · cases hk
      · exact .inl ⟨e', hk, rfl, id⟩
  · intro id k g hid
    obtain hold | ⟨-, rfl⟩ := hi.lease id k g hid
    · exact .inl hold
    · exact .inr (.inl le_rfl)
  · intro id _ hid
    exact hi.some id hid
  · intro id k g _ hid
    exact hi.kept id k g hid
  · rintro k g ⟨e, hk, rfl, hres⟩
    by_cases hmem : k ∈ s.displacedKeys key pinAliases
    · exact .inr (mem_append_left _ (mem_displacedActions hk hmem))
    · have hkey : k ≠ key := by
        rintro rfl
        exact hmem (mem_displacedKeys_self (by simp [hk]) pinAliases)
      exact .inl ⟨e, by rw [hi.other k hkey, if_neg hmem]; exact hk, rfl, hres⟩
  · intro k m hm
    obtain hm | hm := mem_append.1 hm
    · obtain ⟨_, _, heq⟩ := eq_remove_of_mem_displacedActions hm
      cases heq
    · cases hr : residency <;> simp [hr, newActions] at hm
      obtain ⟨rfl, rfl⟩ := hm
      exact ⟨_, hentry, rfl, by simp [hr]⟩
  · intro popped hm
    obtain hm | hm := mem_append.1 hm
    · obtain ⟨_, _, heq⟩ := eq_remove_of_mem_displacedActions hm
      cases heq
    · cases hr : residency <;> simp [hr, newActions] at hm
  · split <;> simp
  · intro c hc
    split at hc
    · next hr =>
      obtain rfl := mem_singleton.1 hc
      exact ⟨_, hentry, rfl, hr⟩
    · cases hc
  · intro c hc
    split at hc
    · obtain rfl := mem_singleton.1 hc
      exact .inl le_rfl
    · cases hc

/-! ## Pins and releases -/

section Rewriting

variable {entry' : EntryState PinAlias Value}

/-- An entry that is left by a rewriting of one entry has the generation it had. -/
theorem entry_of_rewrite (he : s.entries.lookup key = some entry)
    (hs' : s'.entries = s.entries.insert key entry') (hgen : entry'.generation = entry.generation)
    (hsel : entry.residency = .selected → entry'.residency = .selected) (k : Key)
    (e' : EntryState PinAlias Value) (hk : s'.entries.lookup k = some e') :
    (∃ e, s.entries.lookup k = some e ∧ e.generation = e'.generation ∧
      (e.residency = .selected → e'.residency = .selected)) ∨
      s.nextGeneration ≤ e'.generation := by
  rw [hs'] at hk
  obtain ⟨rfl, rfl⟩ | ⟨-, hk⟩ := Table.lookup_insert_cases hk
  · exact .inl ⟨entry, he, hgen.symm, hsel⟩
  · exact .inl ⟨e', hk, rfl, id⟩

/-- Only the rewritten entry may stop to be resident. -/
theorem resident_of_rewrite (he : s.entries.lookup key = some entry)
    (hs' : s'.entries = s.entries.insert key entry') (hgen : entry'.generation = entry.generation)
    (hres : entry.residency ≠ .pinned →
      entry'.residency ≠ .pinned ∨ .remove key entry.generation ∈ actions) (k : Key) (g : ℕ)
    (hr : s.Resident k g) : s'.Resident k g ∨ .remove k g ∈ actions := by
  obtain ⟨e, hk, rfl, hne⟩ := hr
  by_cases hkey : k = key
  · subst hkey
    rw [he] at hk
    cases hk
    obtain hne' | hmem := hres hne
    · exact .inl ⟨entry', by rw [hs']; exact AList.lookup_insert _, hgen, hne'⟩
    · exact .inr hmem
  · exact .inl ⟨e, by rw [hs', AList.lookup_insert_ne hkey]; exact hk, rfl, hne⟩

end Rewriting

/-- A new lease leaves the others as they are. -/
theorem lookup_new_lease (h : s.Sound) {id : ℕ} {lease lease' : PinLease Key PinAlias}
    (hid : s.pinLeases.lookup id = some lease') :
    (s.pinLeases.insert s.nextPinLease lease).lookup id = some lease' := by
  rw [AList.lookup_insert_ne, hid]
  rintro rfl
  rw [h.lease_none] at hid
  cases hid

theorem isSome_new_lease (h : s.Sound) {id : ℕ} (lease : PinLease Key PinAlias)
    (hid : (s.pinLeases.lookup id).isSome) :
    ((s.pinLeases.insert s.nextPinLease lease).lookup id).isSome := by
  obtain ⟨lease', hid⟩ := Option.isSome_iff_exists.1 hid
  rw [lookup_new_lease h hid]
  rfl

/-- What a pin that returns a guard does: the guard's lease is new. -/
theorem pin_section (h : s.Sound) (pinAlias : PinAlias) (predicate : Value → Bool) :
    (s.nextPinLease + 1 > u64Max ∧ s.tryPinAliasIf pinAlias predicate = none) ∨
    ∃ r, s.tryPinAliasIf pinAlias predicate = some r ∧
      Section s r.state (frameCalls r.actions) r.actions none ∧
      ∀ id, r.lease = some id → id = s.nextPinLease ∧ id < r.state.nextPinLease ∧
        (r.state.pinLeases.lookup id).isSome := by
  by_cases hmax : s.nextPinLease + 1 ≤ u64Max
  swap
  · refine .inl ⟨by omega, ?_⟩
    unfold tryPinAliasIf
    rw [checkedAdd_eq_none.2 (not_le.1 hmax)]
    rfl
  refine .inr ?_
  have hnext : checkedAdd s.nextPinLease 1 = some (s.nextPinLease + 1) :=
    checkedAdd_eq_some.2 ⟨hmax, rfl⟩
  have hself : ∀ lease : PinLease Key PinAlias,
      ((s.pinLeases.insert s.nextPinLease lease).lookup s.nextPinLease).isSome := by
    intro lease
    rw [AList.lookup_insert]
    rfl
  unfold tryPinAliasIf
  simp only [hnext, Option.bind_eq_bind, Option.bind_some]
  cases halias : s.aliases.lookup pinAlias with
  | none =>
    refine ⟨_, rfl, ?_, ?_⟩
    · exact { Section.refl h with
        sound := h.reserve pinAlias hmax
        id_le := Nat.le_succ _
        lease := fun id k g hid => by
          obtain ⟨-, hnew⟩ | ⟨-, hid⟩ := Table.lookup_insert_cases hid
          · cases hnew
          · exact .inl hid
        kept := fun _ _ hid => isSome_new_lease h _ hid
        assigned := fun _ _ _ _ hid => lookup_new_lease h hid }
    · intro id hid
      cases hid
      exact ⟨rfl, Nat.lt_succ_self _, hself _⟩
  | some owner =>
    obtain ⟨key, generation⟩ := owner
    obtain ⟨entry, he, rfl, -⟩ := h.owner pinAlias key generation halias
    simp only [he, Option.bind_some, ne_eq, not_true_eq_false, if_false]
    by_cases hrefused : predicate entry.value = false ∨ entry.residency = .selected
    · rw [if_pos hrefused]
      refine ⟨_, rfl, ?_, fun id hid => by cases hid⟩
      exact { Section.refl h with
        sound := { h with
          id_lt := fun id lease hid => Nat.lt_succ_of_lt (h.id_lt id lease hid)
          length_lt := Nat.lt_succ_of_lt h.length_lt
          counter_le := hmax }
        id_le := Nat.le_succ _ }
    · rw [if_neg hrefused]
      have hunselected : entry.residency ≠ .selected := fun hsel => hrefused (.inr hsel)
      -- the pins of the entry are leases, so one more does not overflow
      have hcount : checkedAdd entry.pinCount 1 = some (entry.pinCount + 1) := by
        have hle := assignedTo_le_length s.pinLeases key entry.generation
        have hlt := h.length_lt
        rw [← h.pinCount key entry he] at hle
        exact checkedAdd_eq_some.2 ⟨by omega, rfl⟩
      simp only [hcount, Option.bind_some]
      have hcalls : frameCalls (if entry.residency = .inMoka then
          [(.remove key entry.generation : Action Key Value)] else []) = [] := by
        split <;> rfl
      refine ⟨_, rfl, ?_, ?_⟩
      · rw [hcalls]
        exact { Section.refl h with
          sound := h.pin he hmax
          id_le := Nat.le_succ _
          entry := entry_of_rewrite he rfl rfl fun hsel => absurd hsel hunselected
          lease := fun id k g hid => by
            obtain ⟨-, hnew⟩ | ⟨-, hid⟩ := Table.lookup_insert_cases hid
            · cases hnew
              exact .inr (.inr ⟨entry, he, rfl, hunselected⟩)
            · exact .inl hid
          kept := fun _ _ hid => isSome_new_lease h _ hid
          assigned := fun _ _ _ _ hid => lookup_new_lease h hid
          resident := resident_of_rewrite he rfl rfl fun hne => by
            cases hres : entry.residency with
            | inMoka => exact .inr (by simp)
            | pinned => exact absurd hres hne
            | selected => exact absurd hres hunselected
          admits := fun _ _ hm => by split at hm <;> simp at hm
          evicts := fun _ hm => by split at hm <;> simp at hm
          new_selected := fun _ hc => by cases hc }
      · intro id hid
        cases hid
        exact ⟨rfl, Nat.lt_succ_self _, hself _⟩

/-- Removing a lease leaves the others as they are. -/
theorem lookup_erase_lease {leaseId id : ℕ} (hne : some id ≠ some leaseId) :
    (s.pinLeases.erase leaseId).lookup id = s.pinLeases.lookup id :=
  AList.lookup_erase_ne fun heq => hne (congrArg some heq)

/-- A lease is removed and no entry changes. -/
theorem erase_section {leaseId : ℕ} (hsound : s'.Sound) (hentries : s'.entries = s.entries)
    (hleases : s'.pinLeases = s.pinLeases.erase leaseId)
    (hgeneration : s'.nextGeneration = s.nextGeneration)
    (hid : s'.nextPinLease = s.nextPinLease) : Section s s' [] [] (some leaseId) where
  sound := hsound
  generation_le := hgeneration.ge
  id_le := hid.ge
  entry _ e' he := .inl ⟨e', hentries ▸ he, rfl, id⟩
  lease _ _ _ hid := .inl (Table.lookup_of_erase (hleases ▸ hid)).2
  kept _ hne hid := by rwa [hleases, lookup_erase_lease hne]
  assigned _ _ _ hne hid := by rwa [hleases, lookup_erase_lease hne]
  resident _ _ hr := .inl (by unfold Resident; rwa [hentries])
  admits _ _ hm := by cases hm
  evicts _ hm := by cases hm
  new_nodup := nodup_nil
  new_selected _ hc := by cases hc
  new_unselected _ hc := by cases hc

theorem dropPending_fields (pinAlias : PinAlias) (leaseId : ℕ) :
    (s.dropPending pinAlias leaseId).entries = s.entries ∧
      (s.dropPending pinAlias leaseId).pinLeases = s.pinLeases ∧
      (s.dropPending pinAlias leaseId).nextGeneration = s.nextGeneration ∧
      (s.dropPending pinAlias leaseId).nextPinLease = s.nextPinLease := by
  unfold dropPending
  split
  · split <;> exact ⟨rfl, rfl, rfl, rfl⟩
  · exact ⟨rfl, rfl, rfl, rfl⟩

/-- The unpin of the current generation: the last pin gives it back to Moka, or selects it when
the capacity is zero. -/
theorem unpin_section (h : s.Sound) {leaseId : ℕ}
    (hlookup : s.pinLeases.lookup leaseId = some (.assigned key entry.generation))
    (he : s.entries.lookup key = some entry) (zeroCapacity : Bool) :
    ∃ s' actions, ({ s with pinLeases := s.pinLeases.erase leaseId }).unpin key entry
        zeroCapacity = some (s', actions) ∧
      Section s s' (frameCalls actions) actions (some leaseId) := by
  have hpos : 1 ≤ entry.pinCount := by
    rw [h.pinCount key entry he, assignedTo_of_lookup hlookup, if_pos rfl]
    omega
  have hpinned : entry.residency = .pinned := (h.pinned key entry he).2 (by omega)
  have hsub : checkedSub entry.pinCount 1 = some (entry.pinCount - 1) :=
    checkedSub_eq_some.2 ⟨hpos, rfl⟩
  -- what the three outcomes share
  have hsection : ∀ residency new actions, (residency = .pinned ↔ entry.pinCount - 1 ≠ 0) →
      (∀ k m, Action.enterMoka k m ∈ actions → k = key ∧ m.generation = entry.generation ∧
        residency ≠ .pinned) →
      (∀ popped, Action.evictSome popped ∉ actions) →
      (new = [] ∨ new = [(key, entry.generation)] ∧ residency = .selected) →
      Section s { s with
        entries := s.entries.insert key { entry with pinCount := entry.pinCount - 1, residency }
        pinLeases := s.pinLeases.erase leaseId } new actions (some leaseId) := by
    intro residency new actions hres henter hevict hnew
    exact
    { sound := h.unpinned hlookup he hres
      generation_le := le_rfl
      id_le := le_rfl
      entry := entry_of_rewrite he rfl rfl fun hsel => by
        rw [hpinned] at hsel
        cases hsel
      lease := fun _ _ _ hid => .inl (Table.lookup_of_erase hid).2
      kept := fun _ hne hid => by rwa [lookup_erase_lease hne]
      assigned := fun _ _ _ hne hid => (lookup_erase_lease hne).trans hid
      resident := resident_of_rewrite he rfl rfl fun hne => absurd hpinned hne
      admits := fun k m hm => by
        obtain ⟨rfl, hgen, hne⟩ := henter k m hm
        exact ⟨_, AList.lookup_insert _, hgen.symm, hne⟩
      evicts := hevict
      new_nodup := by obtain rfl | ⟨rfl, -⟩ := hnew <;> simp
      new_selected := fun c hc => by
        obtain rfl | ⟨rfl, hsel⟩ := hnew
        · cases hc
        · obtain rfl := mem_singleton.1 hc
          exact ⟨_, AList.lookup_insert _, rfl, hsel⟩
      new_unselected := fun c hc => by
        obtain rfl | ⟨rfl, -⟩ := hnew
        · cases hc
        · obtain rfl := mem_singleton.1 hc
          exact .inr ⟨entry, he, rfl, by simp [hpinned]⟩ }
  unfold unpin
  simp only [hsub, Option.bind_eq_bind, Option.bind_some]
  by_cases hlast : entry.pinCount - 1 = 0
  · rw [if_pos ⟨hlast, hpinned⟩]
    cases zeroCapacity with
    | true =>
      exact ⟨_, _, rfl, hsection .selected _ _ (by simp [hlast]) (by simp) (by simp)
        (.inr ⟨rfl, rfl⟩)⟩
    | false =>
      refine ⟨_, _, rfl, hsection .inMoka _ _ (by simp [hlast]) ?_ (by simp) (.inl rfl)⟩
      intro k m hm
      obtain ⟨rfl, rfl⟩ : k = key ∧ m = ⟨entry.generation, entry.value, entry.weight⟩ := by
        simpa using hm
      exact ⟨rfl, rfl, by simp⟩
  · rw [if_neg fun hand => hlast hand.1]
    refine ⟨_, _, rfl, hsection entry.residency _ _ ?_ (by simp) (by simp) (.inl rfl)⟩
    simp [hpinned, hlast]

/-- A release never panics. -/
theorem release_section (h : s.Sound) (leaseId : ℕ) (zeroCapacity : Bool) :
    ∃ s' actions, s.releasePin leaseId zeroCapacity = some (s', actions) ∧
      Section s s' (frameCalls actions) actions (some leaseId) := by
  unfold releasePin
  cases hlookup : s.pinLeases.lookup leaseId with
  | none =>
    refine ⟨s, [], rfl, erase_section h rfl ?_ rfl rfl⟩
    exact (Table.erase_of_lookup hlookup).symm
  | some lease =>
    cases lease with
    | pending a =>
      obtain ⟨hentries, hleases, hgeneration, hid⟩ :=
        @dropPending_fields _ _ _ _ _ { s with pinLeases := s.pinLeases.erase leaseId } a leaseId
      exact ⟨_, [], rfl, erase_section (h.erasePending hlookup) hentries hleases hgeneration hid⟩
    | assigned key generation =>
      cases he : s.entries.lookup key with
      | none =>
        simp only [he]
        refine ⟨_, [], rfl, erase_section (h.eraseStale hlookup ?_) rfl rfl rfl rfl⟩
        intro e hk
        rw [he] at hk
        cases hk
      | some entry =>
        by_cases hgen : entry.generation ≠ generation
        · simp only [he, if_pos hgen]
          refine ⟨_, [], rfl, erase_section (h.eraseStale hlookup ?_) rfl rfl rfl rfl⟩
          intro e hk
          rw [he] at hk
          cases hk
          exact hgen
        · obtain rfl : entry.generation = generation := not_not.1 hgen
          simp only [he, if_neg hgen]
          exact unpin_section h hlookup he zeroCapacity

/-! ## Selections -/

theorem lookup_select (key k : Key) :
    (s.select key).entries.lookup k = (s.entries.lookup k).map fun e =>
      if k = key then { e with residency := .selected } else e := by
  unfold select
  rw [Table.lookup_modify]
  split
  · next heq => rw [heq]
  · simp

variable (es : List ((_ : Key) × EntryState PinAlias Value))

/-- Selecting a list of keys rewrites the residency of their entries and nothing else. -/
theorem lookup_selectAll (k : Key) :
    (es.foldl (fun s e => s.select e.1) s).entries.lookup k = (s.entries.lookup k).map fun e =>
      if k ∈ es.map (·.1) then { e with residency := .selected } else e := by
  induction es generalizing s with
  | nil => simp
  | cons first es ih =>
    rw [foldl_cons, ih, lookup_select, Option.map_map]
    congr 1
    funext e
    by_cases hfirst : k = first.1 <;> by_cases hmem : k ∈ es.map (·.1) <;>
      simp [Function.comp, hfirst, hmem]

theorem selectAll_fields : (es.foldl (fun s e => s.select e.1) s).pinLeases = s.pinLeases ∧
      (es.foldl (fun s e => s.select e.1) s).nextGeneration = s.nextGeneration ∧
      (es.foldl (fun s e => s.select e.1) s).nextPinLease = s.nextPinLease := by
  induction es generalizing s with
  | nil => exact ⟨rfl, rfl, rfl⟩
  | cons first es ih => exact ih

theorem Sound.selectAll (h : s.Sound) (es : List ((_ : Key) × EntryState PinAlias Value))
    (hes : ∀ e ∈ es, ∃ entry, s.entries.lookup e.1 = some entry ∧ entry.residency ≠ .pinned) :
    (es.foldl (fun s e => s.select e.1) s).Sound := by
  induction es generalizing s with
  | nil => exact h
  | cons first es ih =>
    obtain ⟨entry, he, hres⟩ := hes first mem_cons_self
    refine ih (h.select he hres) fun e hmem => ?_
    obtain ⟨entry', he', hres'⟩ := hes e (mem_cons_of_mem _ hmem)
    rw [lookup_select, he']
    refine ⟨_, rfl, ?_⟩
    split
    · simp
    · exact hres'

theorem mem_selection {predicate : Key → Value → Bool}
    {e : (_ : Key) × EntryState PinAlias Value} (hmem : e ∈ s.selection predicate) :
    s.entries.lookup e.1 = some e.2 ∧ e.2.residency = .inMoka := by
  obtain ⟨hentry, hsel⟩ := mem_filter.1 hmem
  simp only [selects, Bool.and_eq_true, decide_eq_true_eq] at hsel
  exact ⟨Table.mem_entries_iff.1 hentry, hsel.2⟩

/-- The selected generations are distinct. -/
theorem nodup_selection (h : s.Sound) (predicate : Key → Value → Bool) :
    ((s.selection predicate).map fun e => e.2.generation).Nodup := by
  have hnodup : (s.selection predicate).Nodup :=
    (List.Nodup.of_map Sigma.fst s.entries.nodupKeys).filter _
  refine hnodup.map_on fun e he e' he' hgen => ?_
  obtain ⟨hlookup, -⟩ := mem_selection he
  obtain ⟨hlookup', -⟩ := mem_selection he'
  have hkey := h.distinct _ _ _ _ hlookup hlookup' hgen
  obtain ⟨k, entry⟩ := e
  obtain ⟨k', entry'⟩ := e'
  obtain rfl : k = k' := hkey
  have hentry : some entry = some entry' := hlookup.symm.trans hlookup'
  cases hentry
  rfl

theorem frameCalls_selection : frameCalls (es.flatMap fun e =>
      [.remove e.1 e.2.generation, .notify e.1 e.2.generation e.2.value]) =
      es.map fun e => (e.1, e.2.generation) := by
  induction es with
  | nil => rfl
  | cons first es ih =>
    rw [flatMap_cons, frameCalls_append, ih]
    rfl

/-- Entries that Moka counts are selected, with distinct generations. -/
theorem selectAll_section (h : s.Sound) {es : List ((_ : Key) × EntryState PinAlias Value)}
    (hes : ∀ e ∈ es, s.entries.lookup e.1 = some e.2 ∧ e.2.residency = .inMoka)
    (hnodup : (es.map fun e => e.2.generation).Nodup) (henter : ∀ k m, .enterMoka k m ∉ actions)
    (hevict : ∀ popped, .evictSome popped ∉ actions) :
    Section s (es.foldl (fun s e => s.select e.1) s) (es.map fun e => (e.1, e.2.generation))
      actions none := by
  obtain ⟨hleases, hgeneration, hid⟩ := @selectAll_fields _ _ _ _ _ s es
  have hlookup := fun k => @lookup_selectAll _ _ _ _ _ s es k
  constructor
  · refine h.selectAll _ fun e hmem => ?_
    obtain ⟨he, hres⟩ := hes e hmem
    exact ⟨e.2, he, by simp [hres]⟩
  · exact hgeneration.ge
  · exact hid.ge
  · intro k e' hk
    rw [hlookup] at hk
    obtain ⟨e, he, rfl⟩ := Option.map_eq_some_iff.1 hk
    refine .inl ⟨e, he, ?_, ?_⟩
    · split <;> rfl
    · intro hsel
      split
      · rfl
      · exact hsel
  · intro id k g hlease
    exact .inl (hleases ▸ hlease)
  · intro id _ hsome
    exact hleases.symm ▸ hsome
  · intro id k g _ hlease
    exact hleases.symm ▸ hlease
  · rintro k g ⟨e, he, rfl, hres⟩
    refine .inl ⟨_, by rw [hlookup, he]; rfl, ?_, ?_⟩
    · split <;> rfl
    · split
      · simp
      · exact hres
  · intro k m hm
    exact absurd hm (henter k m)
  · exact hevict
  · rw [map_map]
    exact hnodup
  · intro c hc
    obtain ⟨e, hmem, rfl⟩ := mem_map.1 hc
    obtain ⟨he, -⟩ := hes e hmem
    have hselected : e.1 ∈ es.map (·.1) := mem_map.2 ⟨e, hmem, rfl⟩
    exact ⟨{ e.2 with residency := .selected },
      by rw [hlookup, he, Option.map_some, if_pos hselected], rfl, rfl⟩
  · intro c hc
    obtain ⟨e, hmem, rfl⟩ := mem_map.1 hc
    obtain ⟨he, hres⟩ := hes e hmem
    exact .inr ⟨e.2, he, rfl, by simp [hres]⟩

theorem selectEntriesIf_section (h : s.Sound) (predicate : Key → Value → Bool) :
    Section s (s.selectEntriesIf predicate).2.1
      (frameCalls (s.selectEntriesIf predicate).2.2) (s.selectEntriesIf predicate).2.2
      none := by
  unfold selectEntriesIf
  rw [frameCalls_selection]
  exact selectAll_section h (fun e => mem_selection) (nodup_selection h predicate) (by simp)
    (by simp)

/-- `handle_moka_removal` selects the entry that it finds counted to Moka. -/
theorem select_section (h : s.Sound) {generation : ℕ}
    (hcounts : s.countsToMoka key generation = true) :
    Section s (s.select key) [(key, generation)] [] none := by
  unfold countsToMoka at hcounts
  split at hcounts
  · next entry he =>
    obtain ⟨rfl, hres⟩ := of_decide_eq_true hcounts
    have hes : ∀ e ∈ [(⟨key, entry⟩ : (_ : Key) × EntryState PinAlias Value)],
        s.entries.lookup e.1 = some e.2 ∧ e.2.residency = .inMoka := by
      intro e hmem
      obtain rfl := mem_singleton.1 hmem
      exact ⟨he, hres⟩
    exact selectAll_section h hes (by simp) (by simp) (by simp)
  · cases hcounts

end State

end Fluxon.PinAwareMoka
