import Mathlib.Data.List.Sort
import Mathlib.Data.List.TakeWhile

/-!
# Priority queues

A queue that hands out its least element first, as the ascending list of its elements. The order
is carried by the type, so that the elements taken by `popWhile` are all that satisfy a condition
which is closed downwards (`of_mem_popWhile_snd`).
-/

namespace Fluxon

/-- A priority queue: its elements in ascending order. -/
structure MinHeap (α : Type*) [LinearOrder α] where
  entries : List α
  sorted : entries.Pairwise (· ≤ ·)

namespace MinHeap

variable {α : Type*} [LinearOrder α]

instance : Membership α (MinHeap α) := ⟨fun h a => a ∈ h.entries⟩

def empty : MinHeap α := ⟨[], .nil⟩

def push (h : MinHeap α) (a : α) : MinHeap α :=
  ⟨h.entries.orderedInsert (· ≤ ·) a, h.sorted.orderedInsert a _⟩

/-- Pop as long as the least element satisfies `p`. -/
def popWhile (p : α → Bool) (h : MinHeap α) : List α × MinHeap α :=
  (h.entries.takeWhile p, ⟨h.entries.dropWhile p, h.sorted.sublist (List.dropWhile_sublist p)⟩)

variable {h : MinHeap α} {a : α} {p : α → Bool}

theorem mem_iff : a ∈ h ↔ a ∈ h.entries := Iff.rfl

@[simp] theorem mem_push {b : α} : b ∈ h.push a ↔ b = a ∨ b ∈ h := by
  rw [mem_iff, push, List.mem_orderedInsert]
  rfl

theorem mem_popWhile (ha : a ∈ h) : a ∈ (h.popWhile p).1 ∨ a ∈ (h.popWhile p).2 := by
  rw [mem_iff, ← List.takeWhile_append_dropWhile (l := h.entries), List.mem_append] at ha
  exact ha

theorem of_mem_popWhile_fst (ha : a ∈ (h.popWhile p).1) : p a = true :=
  List.mem_takeWhile_imp ha

/-- What is left does not satisfy a condition that is closed downwards. -/
theorem of_mem_popWhile_snd (hp : ∀ a b, a ≤ b → p b = true → p a = true)
    (ha : a ∈ (h.popWhile p).2) : p a = false := by
  have hsorted := (h.popWhile p).2.sorted
  change a ∈ h.entries.dropWhile p at ha
  change (h.entries.dropWhile p).Pairwise (· ≤ ·) at hsorted
  cases hrest : h.entries.dropWhile p with
  | nil =>
    rw [hrest] at ha
    cases ha
  | cons b rest =>
    have hhead : p b = false := by
      have hne : h.entries.dropWhile p ≠ [] := by simp [hrest]
      have hb := List.head_dropWhile_not p hne
      simpa [hrest] using hb
    rw [hrest] at ha hsorted
    have hle : b ≤ a := by
      cases List.mem_cons.1 ha with
      | inl hhere => exact le_of_eq hhere.symm
      | inr hrest => exact List.rel_of_pairwise_cons hsorted hrest
    cases hpa : p a with
    | false => rfl
    | true =>
      rw [hp b a hle hpa] at hhead
      cases hhead

end MinHeap

end Fluxon
