import Mathlib.Data.List.Lex
import Mathlib.Order.Defs.LinearOrder

/-!
# Byte strings in lexicographic order

Bytes are linearly ordered, so byte strings are ordered lexicographically: the order of keys in a
key-value store. The two facts that range scans rest on are that appending a zero byte gives the
next string (`lt_iff_not_lt_append_zero`), and that the strings which start with `p` are those from
`p` up to the string `rangeEnd p` (`prefix_iff_range`).
-/

namespace Fluxon

instance byteLinearOrder : LinearOrder UInt8 where
  le_refl := UInt8.le_refl
  le_trans _ _ _ := UInt8.le_trans
  lt_iff_le_not_ge _ _ := by
    rw [UInt8.lt_iff_toNat_lt, UInt8.le_iff_toNat_le, UInt8.le_iff_toNat_le]
    omega
  le_antisymm _ _ := UInt8.le_antisymm
  le_total := UInt8.le_total
  toDecidableLE := inferInstance

/-- Nothing lies between a byte string and the string with a zero byte appended. -/
theorem lt_iff_not_lt_append_zero {k x : List UInt8} : k < x ↔ ¬ x < k ++ [0] := by
  induction k generalizing x with
  | nil =>
    cases x with
    | nil => simp
    | cons b x =>
      have hb : ¬ b < 0 := by simp [UInt8.lt_iff_toNat_lt]
      simp [List.cons_lt_cons_iff, hb]
  | cons a k ih =>
    cases x with
    | nil => simp
    | cons b x =>
      rw [List.cons_append, List.cons_lt_cons_iff, List.cons_lt_cons_iff, ih]
      by_cases hab : a < b
      · simp [hab, hab.not_gt, hab.ne']
      · by_cases heq : a = b
        · subst heq
          simp
        · have hba : b < a := lt_of_le_of_ne (not_lt.1 hab) (Ne.symm heq)
          simp [hab, heq, hba]

/-- The first byte string above all strings that start with `p`, if there is one: the last byte that
is not `0xFF` is increased and what follows it is cut. -/
def rangeEnd : List UInt8 → Option (List UInt8)
  | [] => none
  | b :: rest =>
    match rangeEnd rest with
    | some e => some (b :: e)
    | none => if b = 255 then none else some [b + 1]

theorem toNat_succ_of_ne {b : UInt8} (h : b ≠ 255) : (b + 1).toNat = b.toNat + 1 := by
  have hlt : b.toNat < 255 := by
    have hle := b.toNat_lt
    have hne : b.toNat ≠ 255 := fun heq => h (UInt8.toNat_inj.1 heq)
    omega
  exact Nat.mod_eq_of_lt (by simpa using by omega)

theorem lt_singleton_succ {b c : UInt8} (h : b ≠ 255) (k : List UInt8) :
    c :: k < [b + 1] ↔ c ≤ b := by
  rw [List.cons_lt_cons_iff, UInt8.lt_iff_toNat_lt, toNat_succ_of_ne h, UInt8.le_iff_toNat_le]
  simp [Nat.lt_succ_iff]

theorem le_of_max_byte (c : UInt8) : c ≤ 255 := by
  have := c.toNat_lt
  change c.toNat ≤ 255
  omega

/-- **Initial parts as ranges.** A byte string starts with `p` exactly when it is not below `p` and
below the range end of `p`. -/
theorem prefix_iff_range {p k : List UInt8} :
    p <+: k ↔ ¬ k < p ∧ ∀ e, rangeEnd p = some e → k < e := by
  induction p generalizing k with
  | nil => simp [rangeEnd]
  | cons b rest ih =>
    cases k with
    | nil => simp
    | cons c k =>
      rw [List.cons_prefix_cons, List.cons_lt_cons_iff, ih, rangeEnd]
      by_cases hcb : c < b
      · simp [hcb, hcb.ne']
      by_cases heq : b = c
      · subst heq
        cases hend : rangeEnd rest with
        | some e => simp
        | none =>
          by_cases hmax : b = 255
          · simp [hmax]
          · simp [hmax, lt_singleton_succ hmax]
      · have hbc : b < c := lt_of_le_of_ne (not_lt.1 hcb) heq
        have hne : ¬ c = b := fun h => heq h.symm
        cases hend : rangeEnd rest with
        | some e => simp [List.cons_lt_cons_iff, hcb, hne, heq]
        | none =>
          have hmax : b ≠ 255 := fun h => absurd (le_of_max_byte c) (not_le.2 (h ▸ hbc))
          simp [hmax, lt_singleton_succ hmax, heq, hbc]

end Fluxon
