import Mathlib.Data.List.AList
import Mathlib.Algebra.BigOperators.Group.Finset.Basic
import Mathlib.Algebra.BigOperators.Group.Multiset.Basic
import Mathlib.Algebra.Order.BigOperators.Group.Multiset
import Mathlib.Algebra.Order.Group.Nat

/-!
# Finite tables

A table is a finite map, Mathlib's `AList` with a constant family of values. These things are
added to its API:

* `modify k f`, which rewrites the value at a key in place and does nothing at an absent key;
* `upsert k f v`, which rewrites the value at a key or inserts a first one, and `mergeWith g`, which
  does so for all entries of a second table;
* `image f`, the multiset of `f k v` over the entries of the table, and its sum `sumBy f`. A
  count of entries with a property is the sum of an indicator. The two lemmas that carry every
  accounting argument are `image_insert` and `image_of_lookup`: an entry is split off the image
  of the table without it.
-/

namespace Fluxon

open AList

/-- A finite map from `K` to `V`. -/
abbrev Table (K V : Type) := AList (fun _ : K => V)

namespace Table

variable {K V β : Type}

/-- The values of `f` on the entries of a table, with multiplicity. -/
def image (f : K → V → β) (t : Table K V) : Multiset β :=
  (t.entries.map fun e => f e.1 e.2 : List β)

/-- The sum of `f` over the entries of a table. -/
def sumBy (f : K → V → ℕ) (t : Table K V) : ℕ := (image f t).sum

/-- The table with a function applied to its values. -/
def mapValues {W : Type} (f : V → W) (t : Table K V) : Table K W where
  entries := t.entries.map fun e => ⟨e.1, f e.2⟩
  nodupKeys := by
    have hkeys := t.nodupKeys
    rw [List.NodupKeys, List.keys] at hkeys ⊢
    rwa [List.map_map]

variable [DecidableEq K]

/-! ## Lookups -/

theorem lookup_insert_eq (t : Table K V) (k k' : K) (v : V) :
    (insert k v t).lookup k' = if k' = k then some v else t.lookup k' := by
  split
  · next h => rw [h, lookup_insert]
  · next h => rw [lookup_insert_ne h]

theorem lookup_erase_eq (t : Table K V) (k k' : K) :
    (t.erase k).lookup k' = if k' = k then none else t.lookup k' := by
  split
  · next h => rw [h, lookup_erase]
  · next h => rw [lookup_erase_ne h]

/-- Rewrite the value at `k`, if there is one. -/
def modify (t : Table K V) (k : K) (f : V → V) : Table K V :=
  match t.lookup k with
  | some v => insert k (f v) t
  | none => t

variable {t : Table K V} {k : K} {v : V} {f : K → V → ℕ}

theorem lookup_insert_cases {k' : K} {v' : V} (h : (insert k v t).lookup k' = some v') :
    (k' = k ∧ v' = v) ∨ (k' ≠ k ∧ t.lookup k' = some v') := by
  rw [lookup_insert_eq] at h
  split at h
  · next hk => exact .inl ⟨hk, (Option.some.inj h).symm⟩
  · next hk => exact .inr ⟨hk, h⟩

/-- A value that is replaced by one with the same view. -/
theorem map_lookup_insert {β : Type*} {view : V → β} {v' : V} (h : t.lookup k = some v)
    (hview : view v' = view v) (k' : K) :
    ((insert k v' t).lookup k').map view = (t.lookup k').map view := by
  rw [lookup_insert_eq]
  split
  · next hk => rw [hk, h, Option.map_some, Option.map_some, hview]
  · rfl

theorem lookup_of_erase {k' : K} (h : (t.erase k).lookup k' = some v) :
    k' ≠ k ∧ t.lookup k' = some v := by
  rw [lookup_erase_eq] at h
  exact Option.ite_none_left_eq_some.1 h

theorem modify_of_lookup (f : V → V) (h : t.lookup k = some v) :
    t.modify k f = insert k (f v) t := by
  simp [modify, h]

theorem lookup_modify (t : Table K V) (k k' : K) (f : V → V) :
    (t.modify k f).lookup k' = if k' = k then (t.lookup k).map f else t.lookup k' := by
  unfold modify
  split
  · next v h => rw [lookup_insert_eq, h]; rfl
  · next h =>
    split
    · next e => rw [e, h]; rfl
    · rfl

/-- Rewrite the value at `k`, or insert a first one. -/
def upsert (t : Table K V) (k : K) (f : V → V) (v : V) : Table K V :=
  insert k ((t.lookup k).elim v f) t

theorem lookup_upsert (t : Table K V) (k k' : K) (f : V → V) (v : V) : (t.upsert k f v).lookup k' =
      if k' = k then some ((t.lookup k).elim v f) else t.lookup k' :=
  lookup_insert_eq t k k' _

variable (g : V → V → V)

/-- Merge the entries of a second table into the first, one after the other. -/
def mergeWith (t u : Table K V) : Table K V :=
  u.entries.foldl (fun t e => t.upsert e.1 (g · e.2) e.2) t

theorem lookup_foldl_upsert (es : List ((_ : K) × V)) (hes : es.NodupKeys) (t : Table K V) (k : K) :
    (es.foldl (fun t e => t.upsert e.1 (g · e.2) e.2) t).lookup k =
      match es.dlookup k with
      | some w => some ((t.lookup k).elim w (g · w))
      | none => t.lookup k := by
  induction es generalizing t with
  | nil => rfl
  | cons e es ih =>
    obtain ⟨k₀, w⟩ := e
    obtain ⟨hnotMem, hes⟩ := List.nodupKeys_cons.1 hes
    rw [List.foldl_cons, ih hes, lookup_upsert]
    by_cases h : k = k₀
    · subst h
      rw [List.dlookup_cons_eq, List.dlookup_eq_none.2 hnotMem]
      simp
    · rw [List.dlookup_cons_ne es (⟨k₀, w⟩ : (_ : K) × V) h, if_neg h]

theorem lookup_mergeWith (t u : Table K V) (k : K) : (mergeWith g t u).lookup k =
      match u.lookup k with
      | some w => some ((t.lookup k).elim w (g · w))
      | none => t.lookup k :=
  lookup_foldl_upsert g u.entries u.nodupKeys t k

theorem erase_insert_self (t : Table K V) (k : K) (v : V) : (insert k v t).erase k = t.erase k := by
  refine ext ?_
  change List.kerase k (insert k v t).entries = List.kerase k t.entries
  exact List.kerase_cons_eq rfl

theorem erase_modify (t : Table K V) (k : K) (f : V → V) : (t.modify k f).erase k = t.erase k := by
  unfold modify
  split
  · exact erase_insert_self t k _
  · rfl

/-! ## Images and sums -/

theorem mem_entries_iff {e : (_ : K) × V} : e ∈ t.entries ↔ t.lookup e.1 = some e.2 :=
  (mem_lookup_iff (a := e.1) (b := e.2) (s := t)).symm

theorem erase_of_lookup (h : t.lookup k = none) : t.erase k = t :=
  ext (List.kerase_of_notMem_keys (lookup_eq_none.1 h))

theorem image_insert (f : K → V → β) (t : Table K V) (k : K) (v : V) :
    image f (insert k v t) = f k v ::ₘ image f (t.erase k) := by
  unfold image
  rfl

theorem image_of_lookup (f : K → V → β) (h : t.lookup k = some v) :
    image f t = f k v ::ₘ image f (t.erase k) := by
  have hm : (⟨k, v⟩ : (_ : K) × V) ∈ t.entries := mem_entries_iff.2 h
  obtain ⟨b, l₁, l₂, -, hl, he⟩ := List.exists_of_kerase (List.mem_keys_of_mem hm)
  obtain rfl : b = v := t.nodupKeys.eq_of_mk_mem (by simp [hl]) hm
  have hp : t.entries.Perm (⟨k, b⟩ :: List.kerase k t.entries) := by
    rw [he, hl]
    exact List.perm_middle
  exact Multiset.coe_eq_coe.2 (hp.map _)

theorem length_erase (h : t.lookup k = some v) :
    (t.erase k).entries.length + 1 = t.entries.length := by
  have hc := congrArg Multiset.card (image_of_lookup (fun _ _ => ()) h)
  simpa [image] using hc.symm

theorem length_modify (t : Table K V) (k : K) (f : V → V) :
    (t.modify k f).entries.length = t.entries.length := by
  unfold modify
  split
  · next v h => exact length_erase h
  · rfl

theorem image_insert_of_lookup_none (f : K → V → β) (v : V) (h : t.lookup k = none) :
    image f (insert k v t) = f k v ::ₘ image f t := by
  rw [image_insert, erase_of_lookup h]

theorem image_congr {f g : K → V → β} (h : ∀ k v, t.lookup k = some v → f k v = g k v) :
    image f t = image g t := by
  refine congrArg Multiset.ofList (List.map_congr_left fun e he => ?_)
  exact h e.1 e.2 (mem_entries_iff.1 he)

theorem mem_image {f : K → V → β} {b : β} :
    b ∈ image f t ↔ ∃ k v, t.lookup k = some v ∧ f k v = b := by
  simp only [image, Multiset.mem_coe, List.mem_map]
  constructor
  · rintro ⟨e, he, rfl⟩
    exact ⟨e.1, e.2, mem_entries_iff.1 he, rfl⟩
  · rintro ⟨k, v, h, rfl⟩
    exact ⟨⟨k, v⟩, mem_entries_iff.2 h, rfl⟩

theorem sumBy_congr {g : K → V → ℕ} (h : ∀ k v, t.lookup k = some v → f k v = g k v) :
    sumBy f t = sumBy g t := by
  rw [sumBy, image_congr h, sumBy]

theorem sumBy_le_sumBy {g : K → V → ℕ} (h : ∀ k v, t.lookup k = some v → f k v ≤ g k v) :
    sumBy f t ≤ sumBy g t := by
  unfold sumBy image
  exact List.sum_le_sum fun e he => h e.1 e.2 (mem_entries_iff.1 he)

theorem sumBy_eq_zero (h : ∀ k v, t.lookup k = some v → f k v = 0) : sumBy f t = 0 := by
  rw [sumBy_congr h, sumBy, image]
  simp

variable (f)

theorem sumBy_insert (t : Table K V) (k : K) (v : V) :
    sumBy f (insert k v t) = f k v + sumBy f (t.erase k) := by
  rw [sumBy, image_insert, Multiset.sum_cons, sumBy]

theorem sumBy_of_lookup (h : t.lookup k = some v) : sumBy f t = f k v + sumBy f (t.erase k) := by
  rw [sumBy, image_of_lookup f h, Multiset.sum_cons, sumBy]

theorem sumBy_insert_of_lookup_none (v : V) (h : t.lookup k = none) :
    sumBy f (insert k v t) = f k v + sumBy f t := by
  rw [sumBy_insert, erase_of_lookup h]

theorem sumBy_modify (g : V → V) (h : t.lookup k = some v) :
    sumBy f (t.modify k g) + f k v = sumBy f t + f k (g v) := by
  rw [modify_of_lookup g h, sumBy_insert, sumBy_of_lookup f h]
  omega

theorem le_sumBy (h : t.lookup k = some v) : f k v ≤ sumBy f t := by
  rw [sumBy_of_lookup f h]
  omega

theorem sumBy_erase_le (t : Table K V) (k : K) : sumBy f (t.erase k) ≤ sumBy f t := by
  cases h : t.lookup k with
  | none => rw [erase_of_lookup h]
  | some v =>
    rw [sumBy_of_lookup f h]
    omega

/-- The sum over a table is the sum over its keys. -/
theorem sumBy_eq_sum_keys (t : Table K V) :
    sumBy f t = ∑ k ∈ t.keys.toFinset, (t.lookup k).elim 0 (f k) := by
  rw [List.sum_toFinset _ t.keys_nodup, sumBy, image, Multiset.sum_coe, keys, List.keys,
    List.map_map]
  refine congrArg List.sum (List.map_congr_left fun e he => ?_)
  rw [Function.comp, mem_entries_iff.1 he]
  rfl

end Table

end Fluxon
