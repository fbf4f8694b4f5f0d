import Mathlib.Data.List.Pairwise
import Mathlib.Order.Lattice

/-!
# Maps kept in key order

An ordered map is its list of entries in strictly increasing key order: iteration walks this list,
and two maps are equal exactly when they have the same entries. `insertAll_entries` says that
inserting the entries of a map one by one, in order, rebuilds it.
-/

namespace Fluxon

open List

/-- A map whose entries are kept in increasing key order. -/
structure OrderedMap (K V : Type) [LinearOrder K] where
  entries : List (K × V)
  ordered : entries.Pairwise fun a b => a.1 < b.1

namespace OrderedMap

variable {K V : Type} [LinearOrder K] {l : List (K × V)}

@[ext] theorem ext {m m' : OrderedMap K V} (h : m.entries = m'.entries) : m = m' := by
  cases m'
  cases h
  rfl

instance [DecidableEq V] : DecidableEq (OrderedMap K V) := fun _ _ =>
  decidable_of_iff _ ⟨ext, congrArg entries⟩

/-- The map without entries. -/
def empty : OrderedMap K V := ⟨[], .nil⟩

/-- Puts an entry at its place, in the place of an entry of the same key. -/
def insertEntry (k : K) (v : V) : List (K × V) → List (K × V)
  | [] => [(k, v)]
  | e :: rest =>
    if k < e.1 then (k, v) :: e :: rest
    else if k = e.1 then (k, v) :: rest
    else e :: insertEntry k v rest

theorem mem_insertEntry {k : K} {v : V} {e : K × V} (h : e ∈ insertEntry k v l) :
    e = (k, v) ∨ e ∈ l := by
  induction l with
  | nil => exact .inl (mem_singleton.1 h)
  | cons a rest ih =>
    rw [insertEntry] at h
    split_ifs at h with h₁ h₂
    · exact mem_cons.1 h
    · exact (mem_cons.1 h).imp_right (mem_cons_of_mem _)
    · obtain rfl | h := mem_cons.1 h
      · exact .inr mem_cons_self
      · exact (ih h).imp_right (mem_cons_of_mem _)

theorem ordered_insertEntry (k : K) (v : V) (hl : l.Pairwise fun a b => a.1 < b.1) :
    (insertEntry k v l).Pairwise fun a b => a.1 < b.1 := by
  induction l with
  | nil => exact pairwise_singleton _ _
  | cons e rest ih =>
    obtain ⟨he, hrest⟩ := pairwise_cons.1 hl
    rw [insertEntry]
    split_ifs with h₁ h₂
    · refine pairwise_cons.2 ⟨?_, hl⟩
      intro b hb
      obtain rfl | hb := mem_cons.1 hb
      · exact h₁
      · exact h₁.trans (he b hb)
    · subst h₂
      exact pairwise_cons.2 ⟨he, hrest⟩
    · refine pairwise_cons.2 ⟨?_, ih hrest⟩
      intro b hb
      obtain rfl | hb := mem_insertEntry hb
      · exact lt_of_le_of_ne (not_lt.1 h₁) (Ne.symm h₂)
      · exact he b hb

variable (m : OrderedMap K V)

/-- Inserts an entry; the value of a key that is already there is replaced. -/
def insert (k : K) (v : V) : OrderedMap K V :=
  ⟨insertEntry k v m.entries, ordered_insertEntry k v m.ordered⟩

theorem insertEntry_of_last {k : K} {v : V} (h : ∀ e ∈ l, e.1 < k) :
    insertEntry k v l = l ++ [(k, v)] := by
  induction l with
  | nil => rfl
  | cons e rest ih =>
    have he : e.1 < k := h e mem_cons_self
    have hrest := ih fun a ha => h a (mem_cons_of_mem _ ha)
    rw [insertEntry, if_neg he.not_gt, if_neg he.ne', hrest, cons_append]

/-- The entries inserted one by one. -/
def insertAll (l : List (K × V)) : OrderedMap K V := l.foldl (fun m e => m.insert e.1 e.2) m

theorem entries_insertAll (h : (m.entries ++ l).Pairwise fun a b => a.1 < b.1) :
    (m.insertAll l).entries = m.entries ++ l := by
  induction l generalizing m with
  | nil => simp [insertAll]
  | cons e rest ih =>
    -- the entry comes after everything inserted before it
    have hlast : ∀ a ∈ m.entries, a.1 < e.1 := fun a ha =>
      (pairwise_append.1 h).2.2 a ha e mem_cons_self
    have hins : (m.insert e.1 e.2).entries = m.entries ++ [e] := insertEntry_of_last hlast
    have hnext : ((m.insert e.1 e.2).entries ++ rest).Pairwise fun a b => a.1 < b.1 := by
      rw [hins, append_assoc]
      exact h
    have hrest := ih (m.insert e.1 e.2) hnext
    rw [hins, append_assoc] at hrest
    exact hrest

/-- **Rebuilding.** The entries of a map, inserted in order, give the map. -/
theorem insertAll_entries : empty.insertAll m.entries = m := ext (entries_insertAll empty m.ordered)

end OrderedMap

end Fluxon
