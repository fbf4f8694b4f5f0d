import Mathlib.Algebra.BigOperators.Group.Finset.Piecewise
import Fluxon.PinAwareMoka.AliasPin

/-!
# Capacity

`try_insert_with_resident_capacity` bounds the weight of all entries, pinned, selected or in Moka.
`try_set_max_capacity_without_eviction` (`TrySets`) compares the new capacity with what Moka holds,
so it does not count the entries that are pinned or selected. The main result is
`resident_capacity_admission`.
-/

namespace Fluxon.PinAwareMoka

variable {Key PinAlias Value : Type} [DecidableEq Key] [DecidableEq PinAlias]

namespace State

variable {s s' : State Key PinAlias Value} {key : Key} {pinAliases : List PinAlias} {value : Value}
  {weight : ℕ} {zeroCapacity : Bool} {actions : List (Action Key Value)}

/-- The weight of the entry of a key. -/
def weightOf (s : State Key PinAlias Value) (key : Key) : ℕ :=
  (s.entries.lookup key).elim 0 (·.weight)

/-- The weight of all entries. -/
def residentWeight (s : State Key PinAlias Value) : ℕ := s.entries.sumBy fun _ e => e.weight

omit [DecidableEq Key] [DecidableEq PinAlias] in
theorem residentWeightedSize_eq : s.residentWeightedSize = min s.residentWeight u64Max := by
  have hfold := foldl_saturatingAdd (s.entries.entries.map fun e => e.2.weight) 0 (Nat.zero_le _)
  rw [List.foldl_map, Nat.zero_add] at hfold
  exact hfold

omit [DecidableEq PinAlias] in
theorem displacedWeight_eq (keys : List Key) :
    s.displacedWeight keys = min (keys.map s.weightOf).sum u64Max := by
  have hfold := foldl_saturatingAdd (keys.map s.weightOf) 0 (Nat.zero_le _)
  rw [List.foldl_map, Nat.zero_add] at hfold
  rw [← hfold, displacedWeight]
  congr 1
  funext total key
  unfold weightOf
  cases s.entries.lookup key <;> rfl

omit [DecidableEq PinAlias] in
theorem residentWeight_eq_sum {keys : Finset Key} (h : s.entries.keys.toFinset ⊆ keys) :
    s.residentWeight = ∑ k ∈ keys, s.weightOf k := by
  rw [residentWeight, Table.sumBy_eq_sum_keys]
  refine Finset.sum_subset h fun k _ hk => ?_
  rw [List.mem_toFinset, ← AList.mem_keys, ← AList.lookup_isSome, Option.not_isSome_iff_eq_none]
    at hk
  rw [hk]
  rfl

/-- An insertion adds its weight and takes away the weight of what it displaces. -/
theorem Inserts.residentWeight_add
    (hi : Inserts s key pinAliases value weight zeroCapacity s' actions) :
    s'.residentWeight + ((s.displacedKeys key pinAliases).map s.weightOf).sum =
      s.residentWeight + weight := by
  set displaced := s.displacedKeys key pinAliases
  have hnodup : displaced.Nodup := List.nodup_dedup _
  have hkey : ∀ k, s'.weightOf k + (if k ∈ displaced.toFinset then s.weightOf k else 0) =
      s.weightOf k + if k = key then weight else 0 := by
    intro k
    by_cases hk : k = key
    · subst hk
      obtain ⟨n, hentry, -⟩ := hi.entry
      have hnew : s'.weightOf k = weight := by rw [weightOf, hentry]; rfl
      rw [hnew, if_pos rfl, Nat.add_comm weight]
      split
      · rfl
      · next hmem =>
        cases he : s.entries.lookup k with
        | none => rw [weightOf, he]; rfl
        | some e =>
          exact absurd (List.mem_toFinset.2 (mem_displacedKeys_self (by simp [he]) _)) hmem
    · rw [if_neg hk, weightOf, hi.other k hk]
      simp only [List.mem_toFinset]
      split
      · exact Nat.zero_add _
      · rfl
  -- the four sums run over one set of keys
  let keys := s.entries.keys.toFinset ∪ s'.entries.keys.toFinset ∪ displaced.toFinset ∪ {key}
  have hs : s.entries.keys.toFinset ⊆ keys := fun k hk => by simp [keys, List.mem_toFinset.1 hk]
  have hs' : s'.entries.keys.toFinset ⊆ keys := fun k hk => by simp [keys, List.mem_toFinset.1 hk]
  have hsub : displaced.toFinset ⊆ keys := fun k hk => by simp [keys, List.mem_toFinset.1 hk]
  calc s'.residentWeight + (displaced.map s.weightOf).sum
      = ∑ k ∈ keys, (s'.weightOf k + if k ∈ displaced.toFinset then s.weightOf k else 0) := by
        rw [Finset.sum_add_distrib, Finset.sum_ite_mem, Finset.inter_eq_right.2 hsub,
          List.sum_toFinset _ hnodup, residentWeight_eq_sum hs']
    _ = ∑ k ∈ keys, (s.weightOf k + if k = key then weight else 0) :=
        Finset.sum_congr rfl fun k _ => hkey k
    _ = s.residentWeight + weight := by
        rw [Finset.sum_add_distrib, Finset.sum_ite_eq', if_pos (by simp [keys]),
          residentWeight_eq_sum hs]

/-- A bounded insertion that is accepted leaves at most the limit. -/
theorem residentWeight_le {limit generation : ℕ} (h : s.Sound)
    (hok : s.insertUnderMutation key pinAliases value weight (some limit) zeroCapacity =
      some (.ok (generation, s', actions))) (hfits : s.residentWeight + weight ≤ u64Max) :
    s'.residentWeight ≤ limit := by
  obtain ⟨error, heq⟩ | ⟨-, heq⟩ | ⟨s₁, actions₁, heq, hi⟩ :=
    h.insertUnderMutation key pinAliases value weight (some limit) zeroCapacity
  · cases hok.symm.trans heq
  · cases hok.symm.trans heq
  cases hok.symm.trans heq
  have hroom : ¬saturatingAdd (s.residentWeightedSize -
      s.displacedWeight (s.displacedKeys key pinAliases)) weight > limit := by
    intro hfull
    rw [insertUnderMutation, rejection, Option.bind_some, if_pos hfull] at hok
    cases hok
  have hadd := hi.residentWeight_add
  rw [residentWeightedSize_eq, displacedWeight_eq, saturatingAdd] at hroom
  omega

end State

namespace World

/-- What `run_pending_tasks` of Moka does: it evicts only while it holds more than its capacity. -/
abbrev Maintains (cfg : Config Key Value) :
    World Key PinAlias Value → Event Key PinAlias Value → World Key PinAlias Value → Prop :=
  Guarded (fun w ev => (∃ key, ev = .evict key) ∧ w.maxCapacity < w.weightedSize) (Step cfg)

/-- `try_set_max_capacity_without_eviction` with its result, `none` if Moka refuses the capacity. -/
inductive TrySets (cfg : Config Key Value) (w : World Key PinAlias Value) (capacity : ℕ) :
    Option Bool → World Key PinAlias Value → Prop
  | full {evs w₁} (hrun : Run (Maintains cfg) w evs w₁) (hfull : capacity < w₁.weightedSize) :
      TrySets cfg w capacity (some false) w₁
  | refused {evs w₁ w'} (hrun : Run (Maintains cfg) w evs w₁) (hfits : w₁.weightedSize ≤ capacity)
      (hset : Step cfg w₁ (.trySetMaxCapacityWithoutEviction capacity false) w') :
      TrySets cfg w capacity none w'
  | set {evs w₁ w₂ evs' w'} (hrun : Run (Maintains cfg) w evs w₁)
      (hfits : w₁.weightedSize ≤ capacity)
      (hset : Step cfg w₁ (.trySetMaxCapacityWithoutEviction capacity true) w₂)
      (hrun' : Run (Maintains cfg) w₂ evs' w') : TrySets cfg w capacity (some true) w'

variable {w w' : World Key PinAlias Value} {cfg : Config Key Value} {capacity : ℕ}
  {evs : List (Event Key PinAlias Value)}

theorem eq_of_maintains (hrun : Run (Maintains cfg) w evs w')
    (hfits : w.weightedSize ≤ w.maxCapacity) : w' = w := by
  cases hrun with
  | nil => rfl
  | cons hstep _ => exact absurd hstep.1.2 (not_lt.2 hfits)

/-- **Resident-capacity admission.** In every state that a run reaches: a bounded insertion that is
accepted leaves the weight of all entries within the capacity, short of an overflow, and one that is
not changes nothing; a change of the capacity without eviction succeeds if what Moka holds after its
maintenance fits and Moka does not refuse, fails if it does not fit, and evicts only what the
maintenance for the old capacity does, which is nothing if that was kept. -/
theorem resident_capacity_admission {maxCapacity : ℕ}
    (h : Run (Step cfg) (initial maxCapacity) evs w) :
    (∀ key pinAliases value w',
      Step cfg w (.tryInsertWithResidentCapacity key pinAliases value) w' →
      (w.Accepts cfg key pinAliases value (some w.maxCapacity) →
        w.state.residentWeight + cfg.weigher key value ≤ u64Max →
        w'.state.residentWeight ≤ w'.maxCapacity) ∧
      (¬w.Accepts cfg key pinAliases value (some w.maxCapacity) → w' = w)) ∧
    ∀ capacity result w', TrySets cfg w capacity result w' →
      ∃ evs' w₁, Run (Maintains cfg) w evs' w₁ ∧ (w.weightedSize ≤ w.maxCapacity → w₁ = w) ∧
        (capacity < w₁.weightedSize ∧ result = some false ∧ w' = w₁ ∨
          w₁.weightedSize ≤ capacity ∧ (result = none ∧ w' = w₁ ∨
            result = some true ∧ w' = { w₁ with maxCapacity := capacity })) := by
  have hw := sound_of_run h
  constructor
  · intro key pinAliases value w' hstep
    obtain ⟨-, rfl⟩ := locked_eq_some hstep
    unfold World.runInsert
    split
    · next hrefused => exact ⟨fun hok => absurd hok.1 (by simp [hrefused]), fun _ => rfl⟩
    · next hinsertable =>
      obtain ⟨error, heq⟩ | ⟨-, heq⟩ | ⟨s', actions, heq, -⟩ := hw.state.insertUnderMutation key
        pinAliases value (cfg.weigher key value) (some w.maxCapacity) w.zeroCapacity <;> rw [heq]
      case inr.inr =>
        exact ⟨fun _ hfits => State.residentWeight_le hw.state heq hfits,
          fun hnot => absurd ⟨by simpa using hinsertable, _, heq⟩ hnot⟩
      all_goals
        refine ⟨fun hok => ?_, fun _ => rfl⟩
        obtain ⟨-, r, hok⟩ := hok
        cases heq.symm.trans hok
  · intro capacity result w' hsets
    cases hsets with
    | full hrun hfull => exact ⟨_, _, hrun, eq_of_maintains hrun, .inl ⟨hfull, rfl, rfl⟩⟩
    | refused hrun hfits hset =>
      obtain ⟨-, rfl⟩ := locked_eq_some hset
      exact ⟨_, _, hrun, eq_of_maintains hrun, .inr ⟨hfits, .inl ⟨rfl, if_neg (by simp)⟩⟩⟩
    | set hrun hfits hset hrun' =>
      obtain ⟨-, rfl⟩ := locked_eq_some hset
      rw [if_pos ⟨hfits, rfl⟩] at hrun'
      exact ⟨_, _, hrun, eq_of_maintains hrun,
        .inr ⟨hfits, .inr ⟨rfl, eq_of_maintains hrun' hfits⟩⟩⟩

/-- Of two entries of weights 60 and 30 the heavier one is selected. -/
def selectLarge : List (Event String String ℕ) :=
  [.insert "large" ["a"] 60, .act, .insert "small" ["b"] 30, .act,
    .selectEntriesIf fun key _ => key = "large", .act, .act]

theorem exists_run_selectLarge : ∃ w : World String String ℕ,
      Run (Step byValue) (initial 100) selectLarge w ∧
        w.state.residentWeight = 90 ∧ w.weightedSize = 30 ∧ w.maxCapacity = 100 ∧ w.frame = [] := by
  obtain ⟨w, hrun, hresident, hmoka, hmax, hframe⟩ := Run.exists_of_foldlM
    (World.step byValue) (initial 100) selectLarge
    (fun w => w.state.residentWeight = 90 ∧ w.weightedSize = 30 ∧ w.maxCapacity = 100 ∧
      w.frame.isEmpty) (by decide +kernel)
  exact ⟨w, hrun, hresident, hmoka, hmax, List.isEmpty_iff.1 hframe⟩

/-- A capacity of 20 is not set, and nothing is evicted. -/
theorem resident_capacity_admission_selectLarge : ∃ w : World String String ℕ,
      Run (Step byValue) (initial 100) selectLarge w ∧
        TrySets byValue w 20 (some false) w ∧ ∀ result w',
        TrySets byValue w 20 result w' → result = some false ∧ w' = w := by
  obtain ⟨w, hrun, -, hmoka, hmax, -⟩ := exists_run_selectLarge
  refine ⟨w, hrun, .full (.nil w) (by omega), fun result w' hsets => ?_⟩
  obtain ⟨evs', w₁, -, hsame, hresult⟩ := (resident_capacity_admission hrun).2 20 result w' hsets
  obtain rfl := hsame (by omega)
  obtain ⟨-, hfull⟩ | ⟨hfits, -⟩ := hresult
  · exact hfull
  · omega

/-- A capacity of 40 is set, below the weight of all entries. -/
theorem capacity_set_below_residents : ∃ w : World String String ℕ,
      Run (Step byValue) (initial 100) selectLarge w ∧
        40 < w.state.residentWeight ∧ TrySets byValue w 40 (some true)
          { w with maxCapacity := 40 } := by
  obtain ⟨w, hrun, hresident, hmoka, -, hframe⟩ := exists_run_selectLarge
  refine ⟨w, hrun, by omega, .set (.nil w) (by omega) ?_ (.nil _)⟩
  simp [Step, World.step, locked, hframe, hmoka]

/-- The sum of two weights of the word size overflows, and the second insertion is accepted. -/
theorem overflow_exceeds_capacity : ∃ w : World String String ℕ,
      Run (Step byValue) (initial u64Max) [.insert "a" ["a"] u64Max, .act,
        .tryInsertWithResidentCapacity "b" ["b"] u64Max] w ∧
      w.maxCapacity < w.state.residentWeight :=
  Run.exists_of_foldlM _ _ _ _ (by decide +kernel)

/-- Moka holds more than its capacity, and a change of the capacity evicts an entry first. -/
theorem eviction_before_capacity_set : ∃ w w' : World String String ℕ,
      Run (Step byValue) (initial 50) [.insert "a" ["a"] 30, .act, .insert "b" ["b"] 30, .act] w ∧
      TrySets byValue w 20 (some false) w' ∧ w'.weightedSize < w.weightedSize := by
  obtain ⟨w, hrun, hover, hevict⟩ := Run.exists_of_foldlM
    (World.step byValue) (initial 50) [.insert "a" ["a"] 30, .act,
      .insert "b" ["b"] 30, .act] (fun w : World String String ℕ => w.maxCapacity < w.weightedSize ∧
      (w.step byValue (.evict "a")).any fun w' =>
        20 < w'.weightedSize ∧ w'.weightedSize < w.weightedSize) (by decide +kernel)
  obtain ⟨w', hstep, hsizes⟩ := (Option.any_eq_true _ _).1 hevict
  obtain ⟨hfull, hless⟩ := of_decide_eq_true hsizes
  exact ⟨w, w', hrun, .full (.single ⟨⟨⟨"a", rfl⟩, hover⟩, hstep⟩) hfull, hless⟩

end World

end Fluxon.PinAwareMoka
