import Mathlib.Data.Multiset.Basic
import Mathlib.Tactic.Common

/-!
# Offset allocators

An allocator of contiguous ranges of one address space, addressed by offsets in units. The
interface is the one of the OffsetAllocator design: `allocate` returns an allocation with its
offset and the allocator's own node index, `free` takes the allocation back.

`LawfulOffsetAllocator` states what its users rely on. `Tracks a size live` relates an allocator
over `[0, size)` to the allocations it has handed out and not taken back, each with its size;
an allocation lies inside the space and meets none of the outstanding ones. `BumpAllocator`, which
never reuses a range, is a lawful instance that runs; `FirstFitAllocator` reuses them.
-/

namespace Fluxon

/-- An allocation: its offset, and the node index that `free` needs. -/
structure Allocation where
  offset : ℕ
  metadata : ℕ
  deriving DecidableEq

/-- The operations of an offset allocator. Sizes and offsets are in units. -/
class OffsetAllocator (A : Type) where
  /-- A fresh allocator over `size` units with a bound on its metadata nodes. -/
  withMaxAllocs : (size maxAllocs : ℕ) → A
  /-- Hand out a range of the given size, if the allocator finds one. -/
  allocate : A → ℕ → Option (Allocation × A)
  /-- Take an allocation back. -/
  free : A → Allocation → A

/-- The ranges `[o₁, o₁ + n₁)` and `[o₂, o₂ + n₂)` do not meet. -/
def RangesDisjoint (o₁ n₁ o₂ n₂ : ℕ) : Prop := o₁ + n₁ ≤ o₂ ∨ o₂ + n₂ ≤ o₁

instance (o₁ n₁ o₂ n₂ : ℕ) : Decidable (RangesDisjoint o₁ n₁ o₂ n₂) :=
  inferInstanceAs (Decidable (_ ∨ _))

variable {o₁ n₁ o₂ n₂ : ℕ}

theorem RangesDisjoint.symm (h : RangesDisjoint o₁ n₁ o₂ n₂) :
    RangesDisjoint o₂ n₂ o₁ n₁ := Or.symm h

theorem RangesDisjoint.mul (h : RangesDisjoint o₁ n₁ o₂ n₂) (c : ℕ) :
    RangesDisjoint (o₁ * c) (n₁ * c) (o₂ * c) (n₂ * c) := by
  unfold RangesDisjoint at h ⊢
  rw [← Nat.add_mul, ← Nat.add_mul]
  exact h.imp (Nat.mul_le_mul_right c) (Nat.mul_le_mul_right c)

/-- Non-empty disjoint ranges start at different offsets. -/
theorem RangesDisjoint.offset_ne (h : RangesDisjoint o₁ n₁ o₂ n₂) (h₁ : 0 < n₁) (h₂ : 0 < n₂) :
    o₁ ≠ o₂ := by
  unfold RangesDisjoint at h
  omega

open OffsetAllocator in
/-- The laws of an offset allocator: what it hands out is disjoint from what is outstanding. -/
class LawfulOffsetAllocator (A : Type) [OffsetAllocator A] where
  /-- The allocator over `size` units has exactly the allocations `live` outstanding. -/
  Tracks : A → ℕ → Multiset (Allocation × ℕ) → Prop
  tracks_withMaxAllocs (size maxAllocs : ℕ) : Tracks (withMaxAllocs size maxAllocs) size 0
  tracks_allocate {a a' : A} {size n : ℕ} {live : Multiset (Allocation × ℕ)} {x : Allocation} :
    Tracks a size live → 0 < n → allocate a n = some (x, a') → Tracks a' size ((x, n) ::ₘ live)
  allocate_inside {a a' : A} {size n : ℕ} {live : Multiset (Allocation × ℕ)} {x : Allocation} :
    Tracks a size live → 0 < n → allocate a n = some (x, a') → x.offset + n ≤ size
  allocate_disjoint {a a' : A} {size n : ℕ} {live : Multiset (Allocation × ℕ)}
    {x : Allocation} : Tracks a size live → 0 < n → allocate a n = some (x, a') →
    ∀ y ∈ live, RangesDisjoint x.offset n y.1.offset y.2
  tracks_free {a : A} {size n : ℕ} {live : Multiset (Allocation × ℕ)} {x : Allocation} :
    Tracks a size ((x, n) ::ₘ live) → Tracks (free a x) size live

/-! ## The bump allocator -/

/-- An allocator that hands out the space from its start and reuses nothing. -/
structure BumpAllocator where
  size : ℕ
  /-- The first offset not yet handed out. -/
  next : ℕ
  /-- The next node index. -/
  node : ℕ
  deriving DecidableEq

namespace BumpAllocator

instance : OffsetAllocator BumpAllocator where
  withMaxAllocs size _ := ⟨size, 0, 0⟩
  allocate a n :=
    if a.next + n ≤ a.size then some (⟨a.next, a.node⟩, ⟨a.size, a.next + n, a.node + 1⟩)
    else none
  free a _ := a

theorem allocate_eq_some {a a' : BumpAllocator} {n : ℕ} {x : Allocation}
    (h : OffsetAllocator.allocate a n = some (x, a')) :
    a.next + n ≤ a.size ∧ x = ⟨a.next, a.node⟩ ∧ a' = ⟨a.size, a.next + n, a.node + 1⟩ := by
  simp only [OffsetAllocator.allocate, Option.ite_none_right_eq_some, Option.some.injEq,
    Prod.mk.injEq] at h
  exact ⟨h.1, h.2.1.symm, h.2.2.symm⟩

/-- Everything outstanding ends at or before the next offset. -/
def Below (a : BumpAllocator) (size : ℕ) (live : Multiset (Allocation × ℕ)) : Prop :=
  a.size = size ∧ ∀ y ∈ live, y.1.offset + y.2 ≤ a.next

instance : LawfulOffsetAllocator BumpAllocator where
  Tracks := Below
  tracks_withMaxAllocs size _ := ⟨rfl, by simp⟩
  tracks_allocate := by
    intro a a' size n live x ht _ h
    obtain ⟨-, rfl, rfl⟩ := allocate_eq_some h
    refine ⟨ht.1, fun y hy => ?_⟩
    rcases Multiset.mem_cons.1 hy with rfl | hy
    · exact le_rfl
    · exact (ht.2 y hy).trans (Nat.le_add_right _ _)
  allocate_inside := by
    intro a a' size n live x ht _ h
    obtain ⟨hle, rfl, -⟩ := allocate_eq_some h
    exact ht.1 ▸ hle
  allocate_disjoint := by
    intro a a' size n live x ht _ h y hy
    obtain ⟨-, rfl, -⟩ := allocate_eq_some h
    exact Or.inr (ht.2 y hy)
  tracks_free := fun ht => ⟨ht.1, fun y hy => ht.2 y (Multiset.mem_cons_of_mem hy)⟩

end BumpAllocator

/-! ## The first-fit allocator -/

/-- An allocator that looks for a free range at the start of the space and after each outstanding
allocation. -/
structure FirstFitAllocator where
  size : ℕ
  /-- What is outstanding, with its sizes. -/
  live : List (Allocation × ℕ)
  deriving DecidableEq

instance : OffsetAllocator FirstFitAllocator where
  withMaxAllocs size _ := ⟨size, []⟩
  allocate a n :=
    let fits offset : Bool :=
      offset + n ≤ a.size ∧ ∀ y ∈ a.live, RangesDisjoint offset n y.1.offset y.2
    ((0 :: a.live.map fun y => y.1.offset + y.2).find? fits).map fun offset =>
      (⟨offset, 0⟩, { a with live := (⟨offset, 0⟩, n) :: a.live })
  free a x := { a with live := a.live.filter (·.1 ≠ x) }

end Fluxon
