import Fluxon.PinAwareMoka.State

/-!
# The invariant of the pin-aware cache

`State.Sound` ties the pieces of the state together: an entry's pin count is the number of leases
assigned to its generation, an entry is pinned exactly when that count is positive, a lease is
pending on an alias exactly when the alias lists it, and an alias names the live generation that
carries it. The lemmas `Sound.*` say that what a section does to the state keeps it; an insertion
is described as a whole (`Sound.insertUnderMutation`).
-/

namespace Fluxon.PinAwareMoka

open Table List

variable {Key PinAlias Value : Type} [DecidableEq Key] [DecidableEq PinAlias]

/-! ## Counting leases -/

/-- The number of leases assigned to a generation of a key. -/
def assignedTo (leases : Table ℕ (PinLease Key PinAlias)) (key : Key) (generation : ℕ) : ℕ :=
  leases.sumBy fun _ lease => if lease = .assigned key generation then 1 else 0

variable {leases leases' : Table ℕ (PinLease Key PinAlias)} {key key' : Key} {id generation : ℕ}

theorem assignedTo_insert_new (lease : PinLease Key PinAlias) (h : leases.lookup id = none) :
    assignedTo (leases.insert id lease) key generation =
      (if lease = .assigned key generation then 1 else 0) + assignedTo leases key generation :=
  sumBy_insert_of_lookup_none _ lease h

theorem assignedTo_of_lookup {lease : PinLease Key PinAlias} (h : leases.lookup id = some lease) :
    assignedTo leases key generation = (if lease = .assigned key generation then 1 else 0) +
        assignedTo (leases.erase id) key generation :=
  sumBy_of_lookup _ h

theorem assignedTo_insert (lease : PinLease Key PinAlias) :
    assignedTo (leases.insert id lease) key generation =
      (if lease = .assigned key generation then 1 else 0) +
        assignedTo (leases.erase id) key generation :=
  sumBy_insert _ leases id lease

theorem assignedTo_eq_zero_iff : assignedTo leases key generation = 0 ↔
      ∀ id, leases.lookup id ≠ some (.assigned key generation) := by
  constructor
  · intro hzero id hid
    rw [assignedTo_of_lookup hid, if_pos rfl] at hzero
    omega
  · intro h
    refine sumBy_eq_zero fun id lease hid => if_neg ?_
    rintro rfl
    exact h id hid

theorem assignedTo_le_length (leases : Table ℕ (PinLease Key PinAlias)) (key : Key)
    (generation : ℕ) : assignedTo leases key generation ≤ leases.entries.length := by
  have hle : assignedTo leases key generation ≤ leases.sumBy fun _ _ => 1 := by
    refine sumBy_le_sumBy fun id lease _ => ?_
    split <;> omega
  have hlength : (leases.sumBy fun _ _ => 1) = leases.entries.length := by simp [sumBy, image]
  omega

/-- What assigning the pending leases of an alias does to the lease table. -/
structure Assigns (ids : List ℕ) (key : Key) (generation : ℕ)
    (leases leases' : Table ℕ (PinLease Key PinAlias)) : Prop where
  lookup : ∀ id, leases'.lookup id =
    if id ∈ ids then some (.assigned key generation) else leases.lookup id
  length : leases'.entries.length = leases.entries.length
  self : assignedTo leases' key generation = assignedTo leases key generation + ids.length
  other : ∀ key' generation', (key', generation') ≠ (key, generation) →
    assignedTo leases' key' generation' = assignedTo leases key' generation'

theorem assigns_of_pending {ids : List ℕ} {pinAlias : PinAlias} (hnodup : ids.Nodup)
    (h : ∀ id ∈ ids, leases.lookup id = some (.pending pinAlias)) :
    ∃ leases', ids.foldlM (State.assignLease key generation) leases = some leases' ∧
      Assigns ids key generation leases leases' := by
  induction ids generalizing leases with
  | nil => exact ⟨leases, rfl, by simp, rfl, rfl, fun _ _ _ => rfl⟩
  | cons first ids ih =>
    obtain ⟨hfirst, hnodup⟩ := nodup_cons.1 hnodup
    have hlookup := h first (by simp)
    obtain ⟨leases', hfold, ha⟩ :=
      @ih (leases.insert first (.assigned key generation)) hnodup fun id hid => by
        have hne : id ≠ first := fun heq => hfirst (heq ▸ hid)
        rw [lookup_insert_eq, if_neg hne]
        exact h id (by simp [hid])
    refine ⟨leases', ?_, ?_, ?_, ?_, ?_⟩
    · rw [foldlM_cons, State.assignLease, hlookup]
      exact hfold
    · intro id
      rw [ha.lookup, lookup_insert_eq]
      by_cases hid : id ∈ ids
      · simp [hid]
      · by_cases heq : id = first <;> simp [hid, heq]
    · rw [ha.length, AList.entries_insert, length_cons]
      exact length_erase hlookup
    · have hbefore := @assignedTo_of_lookup _ _ _ _ _ key _ generation _ hlookup
      rw [ha.self, assignedTo_insert, if_pos rfl, hbefore, if_neg (by simp), length_cons]
      omega
    · intro key' generation' hne
      have hbefore := @assignedTo_of_lookup _ _ _ _ _ key' _ generation' _ hlookup
      have hother : (PinLease.assigned key generation : PinLease Key PinAlias) ≠
          .assigned key' generation' := by
        intro heq
        cases heq
        exact hne rfl
      rw [ha.other key' generation' hne, assignedTo_insert, if_neg hother, hbefore,
        if_neg (by simp)]

/-! ## The invariant -/

namespace State

variable {s s' : State Key PinAlias Value} {entry : EntryState PinAlias Value}

/-- The leases that are pending on an alias. -/
def pendingOn (s : State Key PinAlias Value) (pinAlias : PinAlias) : List ℕ :=
  (s.pendingPins.lookup pinAlias).getD []

/-- **The invariant of the state lock.** -/
structure Sound (s : State Key PinAlias Value) : Prop where
  pinCount : ∀ k e, s.entries.lookup k = some e → e.pinCount = assignedTo s.pinLeases k e.generation
  pinned : ∀ k e, s.entries.lookup k = some e → (e.residency = .pinned ↔ e.pinCount ≠ 0)
  pending : ∀ a id, id ∈ s.pendingOn a ↔ s.pinLeases.lookup id = some (.pending a)
  pending_nodup : ∀ a, (s.pendingOn a).Nodup
  owner : ∀ a k g, s.aliases.lookup a = some (k, g) →
    ∃ e, s.entries.lookup k = some e ∧ e.generation = g ∧ a ∈ e.pinAliases
  distinct : ∀ k k' e e', s.entries.lookup k = some e → s.entries.lookup k' = some e' →
    e.generation = e'.generation → k = k'
  entry_lt : ∀ k e, s.entries.lookup k = some e → e.generation < s.nextGeneration
  lease_lt : ∀ id k g, s.pinLeases.lookup id = some (.assigned k g) → g < s.nextGeneration
  id_lt : ∀ id lease, s.pinLeases.lookup id = some lease → id < s.nextPinLease
  length_lt : s.pinLeases.entries.length < s.nextPinLease
  counter_le : s.nextPinLease ≤ u64Max

theorem sound_default : (default : State Key PinAlias Value).Sound where
  pinCount _ _ h := by cases h
  pinned _ _ h := by cases h
  pending _ _ := by simp [pendingOn, default]
  pending_nodup _ := by simp [pendingOn, default]
  owner _ _ _ h := by cases h
  distinct _ _ _ _ h := by cases h
  entry_lt _ _ h := by cases h
  lease_lt _ _ _ h := by cases h
  id_lt _ _ h := by cases h
  length_lt := Nat.zero_lt_one
  counter_le := show 1 ≤ u64Max by unfold u64Max; decide

theorem Sound.lease_none (h : s.Sound) : s.pinLeases.lookup s.nextPinLease = none := by
  cases hlookup : s.pinLeases.lookup s.nextPinLease with
  | none => rfl
  | some lease => exact absurd (h.id_lt _ _ hlookup) (lt_irrefl _)

/-- No lease is assigned to a generation that is not pinned. -/
theorem Sound.free (h : s.Sound) (he : s.entries.lookup key = some entry)
    (hres : entry.residency ≠ .pinned) (id : ℕ) :
    s.pinLeases.lookup id ≠ some (.assigned key entry.generation) := by
  have hcount : entry.pinCount = 0 := by
    by_contra hne
    exact hres ((h.pinned _ _ he).2 hne)
  exact assignedTo_eq_zero_iff.1 ((h.pinCount _ _ he).symm.trans hcount) id

/-! ## Removing an entry -/

theorem lookup_dropAliases (pinAliases : List PinAlias) (aliases : Table PinAlias (Key × ℕ))
    (a : PinAlias) :
    (dropAliases key generation pinAliases aliases).lookup a =
      if a ∈ pinAliases ∧ aliases.lookup a = some (key, generation) then none
      else aliases.lookup a := by
  unfold dropAliases
  induction pinAliases generalizing aliases with
  | nil => simp
  | cons first rest ih =>
    rw [foldl_cons, ih]
    by_cases hfirst : aliases.lookup first = some (key, generation)
    · rw [if_pos hfirst, lookup_erase_eq]
      by_cases heq : a = first
      · subst heq
        simp [hfirst]
      · simp [heq]
    · rw [if_neg hfirst]
      by_cases heq : a = first
      · subst heq
        simp [hfirst]
      · simp [heq]

theorem lookup_dropEntry (k : Key) :
    (s.dropEntry key entry).entries.lookup k = if k = key then none else s.entries.lookup k :=
  lookup_erase_eq _ _ _

theorem Sound.dropEntry (h : s.Sound) (he : s.entries.lookup key = some entry) :
    (s.dropEntry key entry).Sound := by
  -- an entry that is left was there before
  have hold : ∀ k e, (s.dropEntry key entry).entries.lookup k = some e →
      s.entries.lookup k = some e := by
    intro k e hk
    rw [lookup_dropEntry] at hk
    split at hk
    · cases hk
    · exact hk
  refine { h with
    pinCount := fun k e hk => h.pinCount k e (hold k e hk)
    pinned := fun k e hk => h.pinned k e (hold k e hk)
    distinct := fun k k' e e' hk hk' => h.distinct k k' e e' (hold k e hk) (hold k' e' hk')
    entry_lt := fun k e hk => h.entry_lt k e (hold k e hk)
    owner := fun a k g ha => ?_ }
  have hdrop : (dropAliases key entry.generation entry.pinAliases s.aliases).lookup a =
      some (k, g) := ha
  rw [lookup_dropAliases] at hdrop
  split at hdrop
  · cases hdrop
  · next hkept =>
    obtain ⟨e, hk, hg, hmem⟩ := h.owner a k g hdrop
    have hne : k ≠ key := by
      rintro rfl
      rw [he] at hk
      cases hk
      exact hkept ⟨hmem, by rw [hdrop, hg]⟩
    exact ⟨e, by rw [lookup_dropEntry, if_neg hne]; exact hk, hg, hmem⟩

theorem Sound.displace (h : s.Sound) (key : Key) : (s.displace key).Sound := by
  unfold State.displace
  split
  · next old hold => exact h.dropEntry hold
  · exact h

theorem lookup_displace (key k : Key) :
    (s.displace key).entries.lookup k = if k = key then none else s.entries.lookup k := by
  unfold State.displace
  split
  · exact lookup_dropEntry k
  · next hnone =>
    split
    · next heq => rw [heq, hnone]
    · rfl

/-- What displacing entries leaves as it was. -/
structure SameLeases (s s' : State Key PinAlias Value) : Prop where
  nextGeneration : s'.nextGeneration = s.nextGeneration
  nextPinLease : s'.nextPinLease = s.nextPinLease
  pinLeases : s'.pinLeases = s.pinLeases

theorem sameLeases_displace (key : Key) : SameLeases s (s.displace key) := by
  unfold State.displace
  split
  · exact ⟨rfl, rfl, rfl⟩
  · exact ⟨rfl, rfl, rfl⟩

variable {s'' : State Key PinAlias Value}

theorem SameLeases.trans (h : SameLeases s s') (h' : SameLeases s' s'') : SameLeases s s'' :=
  ⟨h'.1.trans h.1, h'.2.trans h.2, h'.3.trans h.3⟩

theorem displaceAll_spec (h : s.Sound) (keys : List Key) :
    (keys.foldl State.displace s).Sound ∧ SameLeases s (keys.foldl State.displace s) ∧
      ∀ k, (keys.foldl State.displace s).entries.lookup k =
        if k ∈ keys then none else s.entries.lookup k := by
  induction keys generalizing s with
  | nil => exact ⟨h, ⟨rfl, rfl, rfl⟩, by simp⟩
  | cons key keys ih =>
    obtain ⟨hsound, hsame, hlookup⟩ := ih (h.displace key)
    refine ⟨hsound, (sameLeases_displace key).trans hsame, fun k => ?_⟩
    rw [foldl_cons, hlookup, lookup_displace]
    by_cases hk : k = key <;> by_cases hmem : k ∈ keys <;> simp [hk, hmem]

/-! ## Installing an entry -/

/-- The state with an entry installed for a key. -/
def install (s : State Key PinAlias Value) (key : Key) (entry : EntryState PinAlias Value) :
    State Key PinAlias Value :=
  { s with entries := s.entries.insert key entry }

theorem lookup_install (k : Key) :
    (s.install key entry).entries.lookup k = if k = key then some entry else s.entries.lookup k :=
  lookup_insert_eq _ _ _ _

/-- The next generation is taken. -/
theorem Sound.bump (h : s.Sound) : ({ s with nextGeneration := s.nextGeneration + 1 }).Sound :=
  { h with
    entry_lt := fun k e hk => Nat.lt_succ_of_lt (h.entry_lt k e hk)
    lease_lt := fun id k g hid => Nat.lt_succ_of_lt (h.lease_lt id k g hid) }

/-- A generation that nothing refers to may be installed without pins where no entry is. -/
theorem Sound.install_fresh (h : s.Sound) (hkey : s.entries.lookup key = none)
    (hlt : entry.generation < s.nextGeneration)
    (hentries : ∀ k e, s.entries.lookup k = some e → e.generation ≠ entry.generation)
    (hleases : ∀ id k g, s.pinLeases.lookup id = some (.assigned k g) → g ≠ entry.generation)
    (hcount : entry.pinCount = 0) (hres : entry.residency ≠ .pinned) :
    (s.install key entry).Sound := by
  have hcases : ∀ k e, (s.install key entry).entries.lookup k = some e →
      (k = key ∧ e = entry) ∨ s.entries.lookup k = some e := by
    intro k e hk
    rw [lookup_install] at hk
    split at hk
    · next heq => exact .inl ⟨heq, (Option.some.inj hk).symm⟩
    · exact .inr hk
  have hzero : assignedTo s.pinLeases key entry.generation = 0 :=
    assignedTo_eq_zero_iff.2 fun id hid => hleases id key _ hid rfl
  refine { h with
    pinCount := fun k e hk => ?_
    pinned := fun k e hk => ?_
    owner := fun a k g ha => ?_
    distinct := fun k k' e e' hk hk' hgen => ?_
    entry_lt := fun k e hk => ?_ }
  · obtain ⟨rfl, rfl⟩ | hold := hcases k e hk
    · exact hcount.trans hzero.symm
    · exact h.pinCount k e hold
  · obtain ⟨rfl, rfl⟩ | hold := hcases k e hk
    · simp [hcount, hres]
    · exact h.pinned k e hold
  · obtain ⟨e, hk, hg, hmem⟩ := h.owner a k g ha
    have hne : k ≠ key := by
      rintro rfl
      rw [hkey] at hk
      cases hk
    exact ⟨e, by rw [lookup_install, if_neg hne]; exact hk, hg, hmem⟩
  · obtain ⟨rfl, rfl⟩ | hold := hcases k e hk
    · obtain ⟨rfl, -⟩ | hold' := hcases k' e' hk'
      · rfl
      · exact absurd hgen.symm (hentries k' e' hold')
    · obtain ⟨rfl, rfl⟩ | hold' := hcases k' e' hk'
      · exact absurd hgen (hentries k e hold)
      · exact h.distinct k k' e e' hold hold' hgen
  · obtain ⟨rfl, rfl⟩ | hold := hcases k e hk
    · exact hlt
    · exact h.entry_lt k e hold

/-- What taking over the pins of some aliases leaves as it was: an assigned lease stays what it is,
and a lease becomes assigned only to the generation that is inserted. -/
structure Adopts (key : Key) (generation : ℕ) (s s' : State Key PinAlias Value) : Prop where
  entries : s'.entries = s.entries
  nextGeneration : s'.nextGeneration = s.nextGeneration
  nextPinLease : s'.nextPinLease = s.nextPinLease
  kept : ∀ id k g, s.pinLeases.lookup id = some (.assigned k g) →
    s'.pinLeases.lookup id = some (.assigned k g)
  lease : ∀ id k g, s'.pinLeases.lookup id = some (.assigned k g) →
    s.pinLeases.lookup id = some (.assigned k g) ∨ (k = key ∧ g = generation)
  some : ∀ id, (s.pinLeases.lookup id).isSome → (s'.pinLeases.lookup id).isSome

theorem Adopts.refl (key : Key) (generation : ℕ) (s : State Key PinAlias Value) :
    Adopts key generation s s :=
  ⟨rfl, rfl, rfl, fun _ _ _ h => h, fun _ _ _ h => .inl h, fun _ h => h⟩

theorem Adopts.trans (h : Adopts key generation s s')
    (h' : Adopts key generation s' s'') : Adopts key generation s s'' where
  entries := h'.entries.trans h.entries
  nextGeneration := h'.nextGeneration.trans h.nextGeneration
  nextPinLease := h'.nextPinLease.trans h.nextPinLease
  kept id k g hid := h'.kept id k g (h.kept id k g hid)
  lease id k g hid := by
    obtain hid | heq := h'.lease id k g hid
    · exact h.lease id k g hid
    · exact .inr heq
  some id hid := h'.some id (h.some id hid)

/-- The entry under construction, by the number of the pins taken over so far. -/
structure Building (generation : ℕ) (pinAliases : List PinAlias)
    (build : ℕ → EntryState PinAlias Value) : Prop where
  generation : ∀ n, (build n).generation = generation
  pinAliases : ∀ n, (build n).pinAliases = pinAliases
  pinCount : ∀ n, (build n).pinCount = n
  pinned : ∀ n, (build n).residency = .pinned ↔ n ≠ 0

/-- The state after the pins of one alias are taken over. -/
def adopted (s : State Key PinAlias Value) (key : Key) (generation : ℕ) (a : PinAlias)
    (leases : Table ℕ (PinLease Key PinAlias)) : State Key PinAlias Value :=
  { s with
    pendingPins := s.pendingPins.erase a
    pinLeases := leases
    aliases := s.aliases.insert a (key, generation) }

theorem pendingOn_adopted (a b : PinAlias) :
    ((s.adopted key generation a leases).install key entry).pendingOn b =
      if b = a then [] else s.pendingOn b := by
  show ((s.pendingPins.erase a).lookup b).getD [] = _
  rw [lookup_erase_eq]
  split <;> rfl

/-- The entry of a key is rewritten, and its leases and aliases with it. -/
theorem Sound.rewritten (h : s.Sound) (he : s.entries.lookup key = some entry)
    {entry' : EntryState PinAlias Value}
    (hentries : ∀ k, s'.entries.lookup k = if k = key then some entry' else s.entries.lookup k)
    (hgen : entry'.generation = entry.generation) (haliases : entry'.pinAliases = entry.pinAliases)
    (hgeneration : s'.nextGeneration = s.nextGeneration)
    (hcount : entry'.pinCount = assignedTo s'.pinLeases key entry.generation)
    (hpinned : entry'.residency = .pinned ↔ entry'.pinCount ≠ 0)
    (hother : ∀ k g, (k, g) ≠ (key, entry.generation) →
      assignedTo s'.pinLeases k g = assignedTo s.pinLeases k g)
    (hpending : ∀ a id, id ∈ s'.pendingOn a ↔ s'.pinLeases.lookup id = some (.pending a))
    (hnodup : ∀ a, (s'.pendingOn a).Nodup)
    (howner : ∀ a k g, s'.aliases.lookup a = some (k, g) → s.aliases.lookup a = some (k, g) ∨
      k = key ∧ g = entry.generation ∧ a ∈ entry.pinAliases)
    (hlease : ∀ id k g, s'.pinLeases.lookup id = some (.assigned k g) → g < s.nextGeneration)
    (hid : ∀ id lease, s'.pinLeases.lookup id = some lease → id < s'.nextPinLease)
    (hlength : s'.pinLeases.entries.length < s'.nextPinLease) (hmax : s'.nextPinLease ≤ u64Max) :
    s'.Sound := by
  have hcases : ∀ k e, s'.entries.lookup k = some e →
      (k = key ∧ e = entry') ∨ (k ≠ key ∧ s.entries.lookup k = some e) := by
    intro k e hk
    rw [hentries] at hk
    split at hk
    · next heq => exact .inl ⟨heq, (Option.some.inj hk).symm⟩
    · next hne => exact .inr ⟨hne, hk⟩
  have hself : s'.entries.lookup key = some entry' := by rw [hentries, if_pos rfl]
  refine ⟨?_, ?_, hpending, hnodup, ?_, ?_, ?_, ?_, hid, hlength, hmax⟩
  · intro k e hk
    obtain ⟨rfl, rfl⟩ | ⟨hne, hold⟩ := hcases k e hk
    · rw [hcount, hgen]
    · rw [h.pinCount k e hold]
      exact (hother k e.generation fun heq => hne (congrArg Prod.fst heq)).symm
  · intro k e hk
    obtain ⟨rfl, rfl⟩ | ⟨-, hold⟩ := hcases k e hk
    · exact hpinned
    · exact h.pinned k e hold
  · intro a k g ha
    obtain hold | ⟨rfl, rfl, hmem⟩ := howner a k g ha
    · obtain ⟨e, hk, hg, hmem⟩ := h.owner a k g hold
      by_cases hkey : k = key
      · subst hkey
        cases he.symm.trans hk
        exact ⟨entry', hself, hgen.trans hg, haliases ▸ hmem⟩
      · exact ⟨e, by rwa [hentries, if_neg hkey], hg, hmem⟩
    · exact ⟨entry', hself, hgen, haliases ▸ hmem⟩
  · intro k k' e e' hk hk' heq
    obtain ⟨rfl, rfl⟩ | ⟨-, hold⟩ := hcases k e hk
    · obtain ⟨rfl, -⟩ | ⟨-, hold'⟩ := hcases k' e' hk'
      · rfl
      · exact h.distinct k k' _ e' he hold' (hgen ▸ heq)
    · obtain ⟨rfl, rfl⟩ | ⟨-, hold'⟩ := hcases k' e' hk'
      · exact h.distinct k k' e _ hold he (hgen ▸ heq)
      · exact h.distinct k k' e e' hold hold' heq
  · intro k e hk
    rw [hgeneration]
    obtain ⟨rfl, rfl⟩ | ⟨-, hold⟩ := hcases k e hk
    · rw [hgen]
      exact h.entry_lt k entry he
    · exact h.entry_lt k e hold
  · rwa [hgeneration]

section Adopting

variable {pinAliases : List PinAlias} {build : ℕ → EntryState PinAlias Value} {n n' : ℕ}
  {a : PinAlias}

/-- The invariant is kept for the state in which the entry under construction is already there
with the pins it has so far. -/
theorem Sound.adopted (hb : Building generation pinAliases build) (ha : a ∈ pinAliases)
    (h : (s.install key (build n)).Sound)
    (has : Assigns (s.pendingOn a) key generation s.pinLeases leases')
    (hn' : n' = assignedTo leases' key generation) :
    ((s.adopted key generation a leases').install key (build n')).Sound := by
  have hpending : ∀ id ∈ s.pendingOn a, s.pinLeases.lookup id = some (.pending a) :=
    fun id hid => (h.pending a id).1 hid
  have hbuild : (s.install key (build n)).entries.lookup key = some (build n) := by
    rw [lookup_install, if_pos rfl]
  refine h.rewritten hbuild ?_ ((hb.generation n').trans (hb.generation n).symm)
    ((hb.pinAliases n').trans (hb.pinAliases n).symm) rfl ?_ ?_ ?_ ?_ ?_ ?_ ?_ ?_ ?_ h.counter_le
  · intro k
    rw [lookup_install, lookup_install]
    split <;> rfl
  · rw [hb.pinCount, hb.generation]
    exact hn'
  · rw [hb.pinCount]
    exact hb.pinned _
  · rw [hb.generation]
    exact has.other
  · intro b id
    show id ∈ pendingOn _ b ↔ leases'.lookup id = some (.pending b)
    rw [pendingOn_adopted, has.lookup]
    by_cases hb' : b = a
    · subst hb'
      by_cases hid : id ∈ s.pendingOn b
      · simp [hid]
      rw [if_pos rfl, if_neg hid]
      constructor
      · intro hnil
        cases hnil
      · intro hlookup
        exact absurd ((h.pending b id).2 hlookup) hid
    · rw [if_neg hb']
      by_cases hid : id ∈ s.pendingOn a
      · rw [if_pos hid]
        constructor
        · intro hother
          have h₁ : s.pinLeases.lookup id = some (.pending b) := (h.pending b id).1 hother
          rw [hpending id hid] at h₁
          cases h₁
          exact absurd rfl hb'
        · intro hlookup
          cases hlookup
      · rw [if_neg hid]
        exact h.pending b id
  · intro b
    rw [pendingOn_adopted]
    split
    · exact nodup_nil
    · exact h.pending_nodup b
  · intro b k g hlookup
    obtain ⟨rfl, hnew⟩ | ⟨-, hold⟩ := lookup_insert_cases hlookup
    · cases hnew
      rw [hb.generation, hb.pinAliases]
      exact .inr ⟨rfl, rfl, ha⟩
    · exact .inl hold
  · intro id k g hid
    have hid' : leases'.lookup id = some (.assigned k g) := hid
    rw [has.lookup] at hid'
    split at hid'
    · cases hid'
      rw [← hb.generation n]
      exact h.entry_lt key _ hbuild
    · exact h.lease_lt id k g hid'
  · intro id lease hid
    have hid' : leases'.lookup id = some lease := hid
    rw [has.lookup] at hid'
    split at hid'
    · next hmem => exact h.id_lt id _ (hpending id hmem)
    · exact h.id_lt id lease hid'
  · exact has.length.symm ▸ h.length_lt

theorem adopts_adopted (hpending : ∀ id ∈ s.pendingOn a, s.pinLeases.lookup id = some (.pending a))
    (has : Assigns (s.pendingOn a) key generation s.pinLeases leases') :
    Adopts key generation s (s.adopted key generation a leases') := by
  constructor
  · rfl
  · rfl
  · rfl
  · intro id k g hid
    show leases'.lookup id = _
    rw [has.lookup, if_neg, hid]
    intro hmem
    rw [hpending id hmem] at hid
    cases hid
  · intro id k g hid
    have hid' : leases'.lookup id = some (.assigned k g) := hid
    rw [has.lookup] at hid'
    split at hid'
    · cases hid'
      exact .inr ⟨rfl, rfl⟩
    · exact .inl hid'
  · intro id hid
    show (leases'.lookup id).isSome
    rw [has.lookup]
    split
    · rfl
    · exact hid

/-- One alias of the entry under construction is taken over. -/
theorem adoptAlias_spec (hb : Building generation pinAliases build) (ha : a ∈ pinAliases)
    (h : (s.install key (build n)).Sound) :
    ∃ s' n', adoptAlias key generation (s, n) a = some (s', n') ∧
      (s'.install key (build n')).Sound ∧ Adopts key generation s s' := by
  have hpending : ∀ id ∈ s.pendingOn a, s.pinLeases.lookup id = some (.pending a) :=
    fun id hid => (h.pending a id).1 hid
  have hnodup : (s.pendingOn a).Nodup := h.pending_nodup a
  obtain ⟨leases', hfold, has⟩ :=
    @assigns_of_pending _ _ _ _ s.pinLeases key generation _ a hnodup hpending
  have hself := has.self
  have hn : n = assignedTo s.pinLeases key generation := by
    have := h.pinCount key (build n) (by rw [lookup_install, if_pos rfl])
    rwa [hb.pinCount, hb.generation] at this
  have hn' : n + (s.pendingOn a).length = assignedTo leases' key generation := by omega
  -- the pins are leases, so their number does not overflow
  have hcount : checkedAdd n (s.pendingOn a).length = some (n + (s.pendingOn a).length) := by
    have hle := assignedTo_le_length leases' key generation
    have hlength := has.length
    have hlt : s.pinLeases.entries.length < s.nextPinLease := h.length_lt
    have hmax : s.nextPinLease ≤ u64Max := h.counter_le
    exact checkedAdd_eq_some.2 ⟨by omega, rfl⟩
  refine ⟨s.adopted key generation a leases', _, ?_, h.adopted hb ha has hn',
    adopts_adopted hpending has⟩
  show (checkedAdd n (s.pendingOn a).length >>= fun pinCount => _) = _
  rw [hcount]
  show ((s.pendingOn a).foldlM (assignLease key generation) s.pinLeases >>= fun leases => _) = _
  rw [hfold]
  rfl

theorem adoptAliases_spec (hb : Building generation pinAliases build) (rest : List PinAlias)
    (hrest : rest ⊆ pinAliases) (h : (s.install key (build n)).Sound) :
    ∃ s' n', rest.foldlM (adoptAlias key generation) (s, n) = some (s', n') ∧
      (s'.install key (build n')).Sound ∧ Adopts key generation s s' := by
  induction rest generalizing s n with
  | nil => exact ⟨s, n, rfl, h, .refl _ _ _⟩
  | cons a rest ih =>
    obtain ⟨s₁, n₁, hfirst, hsound, hadopts⟩ := adoptAlias_spec hb (hrest mem_cons_self) h
    obtain ⟨s', n', hfold, hsound', hadopts'⟩ :=
      ih (fun b hb => hrest (mem_cons_of_mem _ hb)) hsound
    refine ⟨s', n', ?_, hsound', hadopts.trans hadopts'⟩
    rw [foldlM_cons, hfirst]
    exact hfold

end Adopting

theorem newResidency_pinned (n : ℕ) (zeroCapacity : Bool) :
    newResidency n zeroCapacity = .pinned ↔ n ≠ 0 := by
  unfold newResidency
  by_cases hn : n = 0
  · cases zeroCapacity <;> simp [hn]
  · simp [hn]

/-- What an insertion that is neither rejected nor out of generations does. -/
structure Inserts (s : State Key PinAlias Value) (key : Key) (pinAliases : List PinAlias)
    (value : Value) (weight : ℕ) (zeroCapacity : Bool) (s' : State Key PinAlias Value)
    (actions : List (Action Key Value)) : Prop where
  sound : s'.Sound
  nextGeneration : s'.nextGeneration = s.nextGeneration + 1
  nextPinLease : s'.nextPinLease = s.nextPinLease
  entry : ∃ n, s'.entries.lookup key = some ⟨s.nextGeneration, pinAliases, value, weight, n,
      newResidency n zeroCapacity⟩ ∧
    actions = s.displacedActions (s.displacedKeys key pinAliases) ++
      newActions key s.nextGeneration value weight (newResidency n zeroCapacity)
  other : ∀ k, k ≠ key → s'.entries.lookup k =
    if k ∈ s.displacedKeys key pinAliases then none else s.entries.lookup k
  kept : ∀ id k g, s.pinLeases.lookup id = some (.assigned k g) →
    s'.pinLeases.lookup id = some (.assigned k g)
  lease : ∀ id k g, s'.pinLeases.lookup id = some (.assigned k g) →
    s.pinLeases.lookup id = some (.assigned k g) ∨ (k = key ∧ g = s.nextGeneration)
  some : ∀ id, (s.pinLeases.lookup id).isSome → (s'.pinLeases.lookup id).isSome

theorem mem_displacedKeys_self (h : (s.entries.lookup key).isSome) (pinAliases : List PinAlias) :
    key ∈ s.displacedKeys key pinAliases := by
  simp [displacedKeys, h]

/-- **An insertion keeps the invariant.** It is rejected, or the generations are exhausted, or it
installs the next generation. -/
theorem Sound.insertUnderMutation (h : s.Sound) (key : Key) (pinAliases : List PinAlias)
    (value : Value) (weight : ℕ) (residentLimit : Option ℕ) (zeroCapacity : Bool) :
    (∃ error, s.insertUnderMutation key pinAliases value weight residentLimit zeroCapacity =
      some (.error error)) ∨
    (s.nextGeneration + 1 > u64Max ∧
      s.insertUnderMutation key pinAliases value weight residentLimit zeroCapacity = none) ∨
    ∃ s' actions, s.insertUnderMutation key pinAliases value weight residentLimit zeroCapacity =
      some (.ok (s.nextGeneration, s', actions)) ∧
      Inserts s key pinAliases value weight zeroCapacity s' actions := by
  unfold State.insertUnderMutation
  cases hreject : s.rejection (s.displacedKeys key pinAliases) weight residentLimit with
  | some error => exact .inl ⟨error, rfl⟩
  | none =>
    refine .inr ?_
    by_cases hmax : s.nextGeneration + 1 ≤ u64Max
    swap
    · refine .inl ⟨by omega, ?_⟩
      have hnone := checkedAdd_eq_none.2 (not_le.1 hmax)
      simp only [hnone]
      rfl
    refine .inr ?_
    have hnext : checkedAdd s.nextGeneration 1 = some (s.nextGeneration + 1) :=
      checkedAdd_eq_some.2 ⟨hmax, rfl⟩
    obtain ⟨hsound, hsame, hlookup⟩ := displaceAll_spec h.bump (s.displacedKeys key pinAliases)
    set displaced := (s.displacedKeys key pinAliases).foldl State.displace
      { s with nextGeneration := s.nextGeneration + 1 } with hdisplaced
    have hkey : displaced.entries.lookup key = none := by
      rw [hlookup]
      split
      · rfl
      · next hmem =>
        cases hk : s.entries.lookup key with
        | none => rfl
        | some e => exact absurd (mem_displacedKeys_self (by simp [hk]) pinAliases) hmem
    have hb : Building s.nextGeneration pinAliases fun n =>
        (⟨s.nextGeneration, pinAliases, value, weight, n, newResidency n zeroCapacity⟩ :
          EntryState PinAlias Value) :=
      ⟨fun _ => rfl, fun _ => rfl, fun _ => rfl, fun n => newResidency_pinned n zeroCapacity⟩
    have hinstalled : (displaced.install key ⟨s.nextGeneration, pinAliases, value, weight, 0,
        newResidency 0 zeroCapacity⟩).Sound := by
      refine hsound.install_fresh hkey ?_ ?_ ?_ rfl ((newResidency_pinned 0 _).not.2 (by simp))
      · rw [hsame.nextGeneration]
        exact Nat.lt_succ_self _
      · intro k e hk
        rw [hlookup] at hk
        split at hk
        · cases hk
        · exact (h.entry_lt k e hk).ne
      · intro id k g hid
        rw [hsame.pinLeases] at hid
        exact (h.lease_lt id k g hid).ne
    obtain ⟨s', n, hfold, hsound', hadopts⟩ :=
      adoptAliases_spec hb pinAliases (List.Subset.refl _) hinstalled
    refine ⟨s'.install key ⟨s.nextGeneration, pinAliases, value, weight, n,
        newResidency n zeroCapacity⟩,
      s.displacedActions (s.displacedKeys key pinAliases) ++
        newActions key s.nextGeneration value weight (newResidency n zeroCapacity), ?_, ?_⟩
    · simp only [hnext, Option.bind_eq_bind, Option.bind_some]
      rw [← hdisplaced, hfold]
      rfl
    refine ⟨hsound', hadopts.nextGeneration.trans hsame.nextGeneration,
      hadopts.nextPinLease.trans hsame.nextPinLease, ⟨n, ?_, rfl⟩, ?_, ?_, ?_, ?_⟩
    · exact AList.lookup_insert _
    · intro k hk
      show (s'.entries.insert key _).lookup k = _
      rw [lookup_insert_eq, if_neg hk, hadopts.entries, hlookup]
    · intro id k g hid
      exact hadopts.kept id k g (hsame.pinLeases ▸ hid)
    · intro id k g hid
      exact hsame.pinLeases ▸ hadopts.lease id k g hid
    · intro id hid
      exact hadopts.some id (hsame.pinLeases ▸ hid)

/-! ## Rewriting an entry -/

/-- An entry that Moka holds is selected. -/
theorem Sound.select (h : s.Sound) (he : s.entries.lookup key = some entry)
    (hres : entry.residency ≠ .pinned) : (s.select key).Sound := by
  unfold State.select
  rw [modify_of_lookup _ he]
  have hcount : entry.pinCount = 0 := by
    by_contra hne
    exact hres ((h.pinned _ _ he).2 hne)
  exact h.rewritten he (fun k => lookup_insert_eq _ _ k _) rfl rfl rfl
    (h.pinCount key entry he) (by simp [hcount]) (fun _ _ _ => rfl) h.pending h.pending_nodup
    (fun _ _ _ ha => .inl ha) h.lease_lt h.id_lt h.length_lt h.counter_le

/-! ## Pins -/

/-- The lease of a new pin is appended. -/
theorem length_insert_new (h : s.Sound) (lease : PinLease Key PinAlias) :
    (s.pinLeases.insert s.nextPinLease lease).entries.length < s.nextPinLease + 1 := by
  rw [AList.entries_insert, length_cons,
    show kerase s.nextPinLease s.pinLeases.entries = s.pinLeases.entries from
      congrArg AList.entries (erase_of_lookup h.lease_none)]
  exact Nat.succ_lt_succ h.length_lt

variable {lease : PinLease Key PinAlias} {leaseId g : ℕ} {k : Key}

theorem lookup_insert_new (h : s.Sound) {lease' : PinLease Key PinAlias}
    (hid : (s.pinLeases.insert s.nextPinLease lease).lookup id = some lease') :
    id < s.nextPinLease + 1 := by
  obtain ⟨rfl, -⟩ | ⟨-, hid⟩ := lookup_insert_cases hid
  · exact Nat.lt_succ_self _
  · exact Nat.lt_succ_of_lt (h.id_lt id lease' hid)

/-- A pin of an alias that no entry carries is reserved. -/
theorem Sound.reserve (h : s.Sound) (a : PinAlias) (hmax : s.nextPinLease + 1 ≤ u64Max) : ({ s with
      nextPinLease := s.nextPinLease + 1
      pendingPins := s.pendingPins.insert a (((s.pendingPins.lookup a).getD []).insert
        s.nextPinLease)
      pinLeases := s.pinLeases.insert s.nextPinLease (.pending a) }).Sound := by
  have hassigned : ∀ k g, assignedTo (s.pinLeases.insert s.nextPinLease (.pending a)) k g =
      assignedTo s.pinLeases k g := by
    intro k g
    rw [assignedTo_insert_new _ h.lease_none, if_neg (by simp), Nat.zero_add]
  have hpendingOn : ∀ b, ((s.pendingPins.insert a ((s.pendingOn a).insert s.nextPinLease)).lookup
      b).getD [] = if b = a then (s.pendingOn a).insert s.nextPinLease else s.pendingOn b := by
    intro b
    rw [lookup_insert_eq]
    split <;> rfl
  refine { h with
    pinCount := fun k e hk => (h.pinCount k e hk).trans (hassigned k _).symm
    pending := fun b id => ?_
    pending_nodup := fun b => ?_
    lease_lt := fun id k g hid => ?_
    id_lt := fun id lease hid => lookup_insert_new h hid
    length_lt := length_insert_new h _
    counter_le := hmax }
  · show id ∈ ((s.pendingPins.insert a ((s.pendingOn a).insert s.nextPinLease)).lookup b).getD []
      ↔ (s.pinLeases.insert s.nextPinLease (.pending a)).lookup id = _
    rw [hpendingOn, lookup_insert_eq]
    have hb := h.pending b id
    by_cases hba : b = a <;> by_cases hid : id = s.nextPinLease
    · simp [hba, hid]
    · subst hba
      rw [if_pos rfl, if_neg hid, mem_insert_iff, ← hb]
      simp [hid]
    · rw [if_neg hba, if_pos hid, hb, hid, h.lease_none]
      simp [Ne.symm hba]
    · rw [if_neg hba, if_neg hid, hb]
  · show (((s.pendingPins.insert a ((s.pendingOn a).insert s.nextPinLease)).lookup b).getD []).Nodup
    rw [hpendingOn]
    split
    · exact (h.pending_nodup a).insert
    · exact h.pending_nodup b
  · obtain ⟨-, hnew⟩ | ⟨-, hid⟩ := lookup_insert_cases hid
    · cases hnew
    · exact h.lease_lt id k g hid

/-- An entry is pinned once more. -/
theorem Sound.pin (h : s.Sound) (he : s.entries.lookup key = some entry)
    (hmax : s.nextPinLease + 1 ≤ u64Max) :
    ({ s with
      nextPinLease := s.nextPinLease + 1
      entries := s.entries.insert key
        { entry with pinCount := entry.pinCount + 1, residency := .pinned }
      pinLeases := s.pinLeases.insert s.nextPinLease (.assigned key entry.generation) }).Sound := by
  refine h.rewritten he (fun k => lookup_insert_eq _ _ k _) rfl rfl rfl ?_ (by simp) ?_ ?_
    h.pending_nodup (fun _ _ _ ha => .inl ha) ?_ (fun id lease hid => lookup_insert_new h hid)
    (length_insert_new h _) hmax
  · rw [assignedTo_insert_new _ h.lease_none, if_pos rfl, ← h.pinCount _ _ he]
    exact Nat.add_comm _ _
  · intro k g hne
    rw [assignedTo_insert_new _ h.lease_none, if_neg, Nat.zero_add]
    intro heq
    cases heq
    exact hne rfl
  · intro a id
    refine (h.pending a id).trans ?_
    rw [lookup_insert_eq]
    split
    · next heq =>
      rw [heq, h.lease_none]
      simp
    · rfl
  · intro id k g hid
    obtain ⟨-, hnew⟩ | ⟨-, hid⟩ := lookup_insert_cases hid
    · cases hnew
      exact h.entry_lt key entry he
    · exact h.lease_lt id k g hid

/-! ## Releases -/

theorem length_erase_lt (h : s.Sound) (leaseId : ℕ) :
    (s.pinLeases.erase leaseId).entries.length < s.nextPinLease := by
  cases hlookup : s.pinLeases.lookup leaseId with
  | none =>
    rw [erase_of_lookup hlookup]
    exact h.length_lt
  | some lease =>
    have hlength := length_erase hlookup
    have hlt := h.length_lt
    omega

theorem pending_erase (hlookup : leases.lookup leaseId = some (.assigned k g)) (a : PinAlias)
    (id : ℕ) :
    (leases.erase leaseId).lookup id = some (.pending a) ↔
      leases.lookup id = some (.pending a) := by
  rw [lookup_erase_eq]
  split
  · next heq =>
    rw [heq, hlookup]
    simp
  · rfl

/-- A lease of a generation that is gone is removed. -/
theorem Sound.eraseStale (h : s.Sound) (hlookup : s.pinLeases.lookup leaseId = some (.assigned k g))
    (hstale : ∀ e, s.entries.lookup k = some e → e.generation ≠ g) :
    ({ s with pinLeases := s.pinLeases.erase leaseId }).Sound := by
  refine { h with
    pinCount := fun k' e hk => ?_
    pending := fun a id => (h.pending a id).trans (pending_erase hlookup a id).symm
    lease_lt := fun id k g hid => h.lease_lt id k g (lookup_of_erase hid).2
    id_lt := fun id lease hid => h.id_lt id lease (lookup_of_erase hid).2
    length_lt := length_erase_lt h leaseId }
  have hcount := h.pinCount k' e hk
  rw [assignedTo_of_lookup hlookup, if_neg, Nat.zero_add] at hcount
  · exact hcount
  · intro heq
    cases heq
    exact hstale e hk rfl

/-- A pending lease is removed from the leases and from its alias. -/
theorem Sound.erasePending (h : s.Sound) {a : PinAlias}
    (hlookup : s.pinLeases.lookup leaseId = some (.pending a)) :
    (({ s with pinLeases := s.pinLeases.erase leaseId }).dropPending a leaseId).Sound := by
  have hassigned : ∀ k g, assignedTo (s.pinLeases.erase leaseId) k g =
      assignedTo s.pinLeases k g := by
    intro k g
    rw [assignedTo_of_lookup hlookup, if_neg (by simp), Nat.zero_add]
  have hmem : leaseId ∈ s.pendingOn a := (h.pending a leaseId).2 hlookup
  -- in both branches the alias is left with its other leases
  obtain ⟨pins, hdrop, hpins⟩ : ∃ pins : Table PinAlias (List ℕ),
      ({ s with pinLeases := s.pinLeases.erase leaseId }).dropPending a leaseId =
        { s with pinLeases := s.pinLeases.erase leaseId, pendingPins := pins } ∧
      ∀ b, (pins.lookup b).getD [] = if b = a then (s.pendingOn a).erase leaseId
        else s.pendingOn b := by
    unfold pendingOn at hmem ⊢
    unfold dropPending
    cases hpins : s.pendingPins.lookup a with
    | none => simp [hpins] at hmem
    | some ids =>
      by_cases hempty : (ids.erase leaseId).isEmpty = true
      · refine ⟨s.pendingPins.erase a, by simp only [if_pos hempty], fun b => ?_⟩
        rw [lookup_erase_eq]
        split
        · simpa using (isEmpty_iff.1 hempty).symm
        · rfl
      · refine ⟨s.pendingPins.insert a (ids.erase leaseId), by simp only [if_neg hempty],
          fun b => ?_⟩
        rw [lookup_insert_eq]
        split <;> rfl
  rw [hdrop]
  refine { h with
    pinCount := fun k e hk => (h.pinCount k e hk).trans (hassigned k _).symm
    pending := fun b id => ?_
    pending_nodup := fun b => ?_
    lease_lt := fun id k g hid => h.lease_lt id k g (lookup_of_erase hid).2
    id_lt := fun id lease hid => h.id_lt id lease (lookup_of_erase hid).2
    length_lt := length_erase_lt h leaseId }
  · show id ∈ (pins.lookup b).getD [] ↔ (s.pinLeases.erase leaseId).lookup id = _
    rw [hpins, lookup_erase_eq]
    have hb := h.pending b id
    by_cases hba : b = a
    · subst hba
      rw [if_pos rfl, (h.pending_nodup b).mem_erase_iff, hb]
      by_cases hid : id = leaseId <;> simp [hid]
    · rw [if_neg hba, hb]
      by_cases hid : id = leaseId
      · rw [if_pos hid, hid, hlookup]
        simp [Ne.symm hba]
      · rw [if_neg hid]
  · show ((pins.lookup b).getD []).Nodup
    rw [hpins]
    split
    · exact (h.pending_nodup a).erase leaseId
    · exact h.pending_nodup b

/-- A pin of the current generation is removed: the entry is left pinned exactly when it has other
pins. -/
theorem Sound.unpinned (h : s.Sound) {residency : Residency}
    (hlookup : s.pinLeases.lookup leaseId = some (.assigned key entry.generation))
    (he : s.entries.lookup key = some entry) (hres : residency = .pinned ↔ entry.pinCount - 1 ≠ 0) :
    ({ s with
      entries := s.entries.insert key { entry with pinCount := entry.pinCount - 1, residency }
      pinLeases := s.pinLeases.erase leaseId }).Sound := by
  have hcount := h.pinCount key entry he
  rw [assignedTo_of_lookup hlookup, if_pos rfl] at hcount
  have hleft : entry.pinCount - 1 =
      assignedTo (s.pinLeases.erase leaseId) key entry.generation := by omega
  refine h.rewritten he (fun k => lookup_insert_eq _ _ k _) rfl rfl rfl hleft hres ?_
    (fun a id => (h.pending a id).trans (pending_erase hlookup a id).symm) h.pending_nodup
    (fun _ _ _ ha => .inl ha) (fun id k g hid => h.lease_lt id k g (lookup_of_erase hid).2)
    (fun id lease hid => h.id_lt id lease (lookup_of_erase hid).2)
    (length_erase_lt h leaseId) h.counter_le
  intro k g hne
  rw [@assignedTo_of_lookup _ _ _ _ _ k _ g _ hlookup, if_neg, Nat.zero_add]
  intro heq
  cases heq
  exact hne rfl

end State

end Fluxon.PinAwareMoka
