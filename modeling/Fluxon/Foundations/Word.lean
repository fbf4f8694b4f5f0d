import Mathlib.Algebra.GroupWithZero.Nat
import Mathlib.Order.Basic
import Mathlib.Data.Nat.Notation

/-!
# Machine integers as naturals

Unsigned machine integers are naturals. The operations whose behaviour at the end of the range
matters are the checked, the saturating and the wrapping ones. The limits are irreducible, so that
no comparison with them is unfolded by accident.
-/

namespace Fluxon

/-- `u32::MAX`. -/
@[irreducible] def u32Max : ℕ := 2 ^ 32 - 1

/-- `u64::MAX`, also `usize::MAX`. -/
@[irreducible] def u64Max : ℕ := 2 ^ 64 - 1

/-- `u64::checked_add`. -/
def checkedAdd (a b : ℕ) : Option ℕ := if a + b ≤ u64Max then some (a + b) else none

/-- `u32::checked_add`. -/
def checkedAdd32 (a b : ℕ) : Option ℕ := if a + b ≤ u32Max then some (a + b) else none

/-- `checked_sub`. -/
def checkedSub (a b : ℕ) : Option ℕ := if b ≤ a then some (a - b) else none

/-- `u64::saturating_add`. -/
def saturatingAdd (a b : ℕ) : ℕ := min (a + b) u64Max

/-- `u64::saturating_mul`. -/
def saturatingMul (a b : ℕ) : ℕ := min (a * b) u64Max

/-- The low 64 bits: what an unchecked `u64` operation and an `as u64` cast keep. -/
def wrap64 (n : ℕ) : ℕ := n % (u64Max + 1)

theorem wrap64_le (n : ℕ) : wrap64 n ≤ n := Nat.mod_le n _

theorem wrap64_of_le {n : ℕ} (h : n ≤ u64Max) : wrap64 n = n :=
  Nat.mod_eq_of_lt (Nat.lt_succ_of_le h)

variable {a b c : ℕ}

theorem checkedAdd_eq_some : checkedAdd a b = some c ↔ a + b ≤ u64Max ∧ c = a + b := by
  simp [checkedAdd, eq_comm]

theorem checkedAdd_eq_none {a b : ℕ} : checkedAdd a b = none ↔ u64Max < a + b := by
  simp [checkedAdd]

theorem checkedAdd32_eq_some : checkedAdd32 a b = some c ↔ a + b ≤ u32Max ∧ c = a + b := by
  simp [checkedAdd32, eq_comm]

theorem checkedAdd32_eq_none {a b : ℕ} : checkedAdd32 a b = none ↔ u32Max < a + b := by
  simp [checkedAdd32]

theorem checkedSub_eq_some : checkedSub a b = some c ↔ b ≤ a ∧ c = a - b := by
  simp [checkedSub, eq_comm]

theorem checkedSub_eq_none {a b : ℕ} : checkedSub a b = none ↔ a < b := by simp [checkedSub]

theorem foldl_saturatingAdd (l : List ℕ) (n : ℕ) (hn : n ≤ u64Max) :
    l.foldl saturatingAdd n = min (n + l.sum) u64Max := by
  induction l generalizing n with
  | nil => simp [hn]
  | cons m l ih =>
    have hle : saturatingAdd n m ≤ u64Max := Nat.min_le_right _ _
    rw [List.foldl_cons, ih _ hle, List.sum_cons, saturatingAdd]
    omega

end Fluxon
