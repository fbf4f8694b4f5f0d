import Mathlib.Algebra.Order.BigOperators.GroupWithZero.List
import Mathlib.Algebra.Order.Ring.Int
import Mathlib.Data.List.Forall2

/-!
# The contiguity test of DLPack tensors

`is_c_contiguous_dlpack` compares the strides with the products of the dimensions to their right.
For dimensions whose product fits an `i64` it accepts exactly the strides that address the elements
in row-major order: `isCContiguousDlpack_iff`.
-/

namespace Fluxon.UserApi

open List

/-- `i64::checked_mul`. -/
def checkedMulI64 (a b : ℤ) : Option ℤ :=
  if -2 ^ 63 ≤ a * b ∧ a * b < 2 ^ 63 then some (a * b) else none

/-- The loop of `is_c_contiguous_dlpack`, over the dimensions and strides from the last. -/
def contiguousFrom (expected : ℤ) : List (ℤ × ℤ) → Bool
  | [] => true
  | (dim, stride) :: rest =>
    if dim = 0 then true
    else if dim > 1 ∧ stride ≠ expected then false
    else match checkedMulI64 expected dim with
      | some next => contiguousFrom next rest
      | none => false

/-- `is_c_contiguous_dlpack`. -/
def isCContiguousDlpack (shape strides : List ℤ) : Bool :=
  if shape.length ≠ strides.length then false
  else contiguousFrom 1 (shape.reverse.zip strides.reverse)

/-- The element offset of a multi-index. -/
def strideOffset : List ℤ → List ℤ → ℤ
  | stride :: strides, i :: index => i * stride + strideOffset strides index
  | _, _ => 0

/-- The row-major position of a multi-index. -/
def rowMajorIndex : List ℤ → List ℤ → ℤ
  | _ :: shape, i :: index => i * shape.prod + rowMajorIndex shape index
  | _, _ => 0

/-- The multi-indices of a shape. -/
abbrev ValidIndex : List ℤ → List ℤ → Prop := List.Forall₂ fun dim i => 0 ≤ i ∧ i < dim

theorem checkedMulI64_eq {a b : ℤ} (ha : 0 < a) (hb : 1 ≤ b) (h : a * b < 2 ^ 63) :
    checkedMulI64 a b = some (a * b) :=
  if_pos ⟨by have := Int.mul_pos ha hb; omega, h⟩

/-- The dimension that comes last is compared with the product of the others. -/
theorem contiguousFrom_append {l : List (ℤ × ℤ)} {expected dim : ℤ} (stride : ℤ)
    (hpos : 0 < expected) (hdims : ∀ d ∈ l.map (·.1), 1 ≤ d) (hdim : 1 ≤ dim)
    (hfits : expected * ((l.map (·.1)).prod * dim) < 2 ^ 63) :
    contiguousFrom expected (l ++ [(dim, stride)]) = true ↔ contiguousFrom expected l = true ∧
      (1 < dim → stride = expected * (l.map (·.1)).prod) := by
  induction l generalizing expected with
  | nil =>
    have hmul := checkedMulI64_eq hpos hdim (by simpa using hfits)
    have hne : dim ≠ 0 := by omega
    simp [contiguousFrom, hmul, hne, or_iff_not_imp_left]
  | cons x l ih =>
    obtain ⟨d, t⟩ := x
    obtain ⟨hd, hl⟩ := forall_mem_cons.1 hdims
    rw [map_cons, prod_cons] at hfits ⊢
    have hrest : 1 ≤ (l.map (·.1)).prod * dim :=
      one_le_mul_of_one_le_of_one_le (one_le_prod hl) hdim
    have hstep : 0 < expected * d := Int.mul_pos hpos hd
    have hfits' : expected * d * ((l.map (·.1)).prod * dim) < 2 ^ 63 := by
      rwa [mul_assoc, ← mul_assoc d]
    have hmul := checkedMulI64_eq hpos hd ((le_mul_of_one_le_right hstep.le hrest).trans_lt hfits')
    have hne : d ≠ 0 := (Int.lt_of_lt_of_le one_pos hd).ne'
    simp only [cons_append, contiguousFrom, hmul, hne, if_false]
    split
    · simp
    · rw [ih hstep hl hfits', mul_assoc]

/-- Row-major order fixes the stride of every dimension that has two indices. -/
theorem row_major_cons_iff {shape strides : List ℤ} {dim stride : ℤ} (hdim : 1 ≤ dim)
    (hdims : ∀ d ∈ shape, 1 ≤ d) :
    (∀ index, ValidIndex (dim :: shape) index →
        strideOffset (stride :: strides) index = rowMajorIndex (dim :: shape) index) ↔
      (∀ index, ValidIndex shape index → strideOffset strides index = rowMajorIndex shape index) ∧
      (1 < dim → stride = shape.prod) := by
  constructor
  · intro h
    have htail : ∀ index, ValidIndex shape index →
        strideOffset strides index = rowMajorIndex shape index := by
      intro index hindex
      simpa [strideOffset, rowMajorIndex] using h (0 :: index) (.cons ⟨le_rfl, hdim⟩ hindex)
    refine ⟨htail, fun hone => ?_⟩
    have hzero : ValidIndex shape (shape.map fun _ => 0) := by
      rw [ValidIndex, forall₂_map_right_iff, forall₂_same]
      exact fun d hd => ⟨le_rfl, hdims d hd⟩
    have hstep := h (1 :: shape.map fun _ => 0) (.cons ⟨by omega, hone⟩ hzero)
    rw [strideOffset, rowMajorIndex, htail _ hzero] at hstep
    omega
  · rintro ⟨htail, hstride⟩ index hindex
    obtain ⟨i, tail, hi, hvalid, rfl⟩ := forall₂_cons_left_iff.1 hindex
    rw [strideOffset, rowMajorIndex, htail _ hvalid]
    by_cases hone : 1 < dim
    · rw [hstride hone]
    · rw [show i = 0 by omega, zero_mul, zero_mul]

/-- **The contiguity test is exact.** -/
theorem isCContiguousDlpack_iff (shape strides : List ℤ) (hdims : ∀ dim ∈ shape, 1 ≤ dim)
    (hfits : shape.prod < 2 ^ 63) (hlength : strides.length = shape.length) :
    isCContiguousDlpack shape strides = true ↔ ∀ index, ValidIndex shape index →
      strideOffset strides index = rowMajorIndex shape index := by
  induction shape generalizing strides with
  | nil =>
    obtain rfl := length_eq_zero_iff.1 hlength
    simp [isCContiguousDlpack, contiguousFrom, strideOffset, rowMajorIndex]
  | cons dim shape ih =>
    obtain ⟨stride, strides, rfl⟩ := exists_cons_of_length_eq_add_one hlength
    have hlength' : strides.length = shape.length := by simpa using hlength
    have hdims' : ∀ d ∈ shape, 1 ≤ d := fun d hd => hdims d (mem_cons_of_mem _ hd)
    have hdim := hdims dim mem_cons_self
    have hzip : (shape.reverse.zip strides.reverse).map (·.1) = shape.reverse :=
      map_fst_zip (by simp [hlength'])
    have happend := contiguousFrom_append (l := shape.reverse.zip strides.reverse)
      stride one_pos (by simpa [hzip] using hdims') hdim
      (by rwa [hzip, prod_reverse, one_mul, mul_comm, ← prod_cons])
    rw [hzip, prod_reverse, one_mul] at happend
    rw [row_major_cons_iff hdim hdims', ← ih strides hdims' ?_ hlength', isCContiguousDlpack,
      isCContiguousDlpack, if_neg (by simp [hlength']), if_neg (by simp [hlength']),
      reverse_cons, reverse_cons, zip_append (by simp [hlength'])]
    · exact happend
    · have hprod : 0 ≤ shape.prod := zero_le_one.trans (one_le_prod hdims')
      exact (le_mul_of_one_le_left hprod hdim).trans_lt hfits

/-- The last row of a matrix whose single column has a stride of its own. -/
theorem isCContiguousDlpack_iff_column :
    strideOffset [1, 9] [2, 0] = rowMajorIndex [3, 1] [2, 0] :=
  (isCContiguousDlpack_iff [3, 1] [1, 9] (by decide) (by decide) rfl).1 (by decide) [2, 0]
    (by decide)

end Fluxon.UserApi
