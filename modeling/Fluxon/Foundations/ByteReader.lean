import Mathlib.Data.List.Basic
import Mathlib.Data.Nat.Notation
import Mathlib.Tactic.Ring

/-!
# Readers over a byte buffer

A reader walks an immutable byte buffer with a cursor and can fail with a message. The module has
little-endian words, the primitive reads with their bounds checks, and two notions that a proof
about a length-prefixed format is composed of:

* `Reads r bytes v`: placed anywhere in a buffer, `bytes` is consumed exactly and yields `v` of the
  position it starts at;
* `Stable r`: a successful read does not look past the end of the buffer, so it succeeds with the
  same result when bytes are appended.
-/

namespace Fluxon

open List

/-! ## Little-endian words -/

/-- The `w` low bytes of `n`, the least significant first. -/
def toLeBytes : ℕ → ℕ → List UInt8
  | 0, _ => []
  | w + 1, n => UInt8.ofNat n :: toLeBytes w (n / 256)

/-- The number a little-endian byte string stands for. -/
def fromLeBytes : List UInt8 → ℕ
  | [] => 0
  | b :: bs => b.toNat + 256 * fromLeBytes bs

@[simp] theorem length_toLeBytes (w n : ℕ) : (toLeBytes w n).length = w := by
  induction w generalizing n with
  | zero => rfl
  | succ w ih => simp [toLeBytes, ih]

theorem fromLeBytes_toLeBytes {w n : ℕ} (h : n < 256 ^ w) : fromLeBytes (toLeBytes w n) = n := by
  induction w generalizing n with
  | zero =>
    have hn : n = 0 := by simpa using h
    simp [toLeBytes, fromLeBytes, hn]
  | succ w ih =>
    have hdiv : n / 256 < 256 ^ w := by exact Nat.div_lt_of_lt_mul (by rwa [Nat.mul_comm])
    have hbyte : (UInt8.ofNat n).toNat = n % 256 := by simp
    rw [toLeBytes, fromLeBytes, ih hdiv, hbyte]
    exact Nat.mod_add_div n 256

/-! ## Readers -/

/-- A reader: the buffer and the cursor go in, a result and the new cursor come out. -/
abbrev Reader (α : Type) := ReaderT (List UInt8) (StateT ℕ (Except String)) α

namespace Reader

variable {α β : Type}

/-- The bytes `pos..(pos + n)` of a buffer. -/
def slice (data : List UInt8) (pos n : ℕ) : List UInt8 := (data.drop pos).take n

/-- Fails with `truncated {what}` unless `n` more bytes are there. -/
def need (n : ℕ) (what : String) : Reader Unit := do
  let data ← read
  let pos ← get
  if pos + n > data.length then
    throw s!"truncated {what}"

/-- The next `n` bytes. -/
def readBytes (n : ℕ) (what : String) : Reader (List UInt8) := do
  need n what
  let data ← read
  let pos ← get
  set (pos + n)
  return slice data pos n

/-- The next byte. -/
def readU8 (what : String) : Reader UInt8 := do
  let bytes ← readBytes 1 what
  return bytes.headD 0

/-- The next four bytes as a little-endian word. -/
def readU32 (what : String) : Reader ℕ := do
  let bytes ← readBytes 4 what
  return fromLeBytes bytes

/-- `n` reads one after the other. -/
def times (r : Reader α) : ℕ → Reader (List α)
  | 0 => return []
  | n + 1 => do
    let a ← r
    let rest ← times r n
    return a :: rest

theorem need_run (n : ℕ) (what : String) (data : List UInt8) (pos : ℕ) : need n what data pos =
      if pos + n > data.length then .error s!"truncated {what}" else .ok ((), pos) := by
  show (if pos + n > data.length then throw s!"truncated {what}" else pure () : Reader Unit)
    data pos = _
  split
  · rfl
  · rfl

theorem readBytes_run (n : ℕ) (what : String) (data : List UInt8) (pos : ℕ) :
    readBytes n what data pos =
      if pos + n > data.length then .error s!"truncated {what}"
      else .ok (slice data pos n, pos + n) := by
  show ((need n what data pos).bind fun p => .ok (slice data p.2 n, p.2 + n)) = _
  rw [need_run]
  split
  · rfl
  · rfl

theorem bind_run (r : Reader α) (f : α → Reader β) (data : List UInt8) (pos : ℕ) :
    (r >>= f) data pos = (r data pos).bind fun p => f p.1 data p.2 := rfl

theorem pure_run (a : α) (data : List UInt8) (pos : ℕ) :
    (pure a : Reader α) data pos = .ok (a, pos) := rfl

/-! ## Stability under appended bytes -/

/-- A successful read succeeds with the same result when bytes are appended to the buffer. -/
def Stable (r : Reader α) : Prop := ∀ ⦃data pos a pos'⦄, r data pos = .ok (a, pos') →
    ∀ ext, r (data ++ ext) pos = .ok (a, pos')

theorem Stable.pure (a : α) : Stable (pure a : Reader α) := by
  intro data pos b pos' h ext
  exact h

theorem Stable.throw (e : String) : Stable (throw e : Reader α) := by
  intro data pos b pos' h
  cases h

theorem Stable.get : Stable (get : Reader ℕ) := by
  intro data pos b pos' h ext
  exact h

variable {r : Reader α} {f : α → Reader β} {n : ℕ} {v : ℕ → α} {w : ℕ → ℕ → β} {bytes : List UInt8}

theorem Stable.bind (hr : Stable r) (hf : ∀ a, Stable (f a)) : Stable (r >>= f) := by
  intro data pos b pos' h ext
  rw [bind_run] at h ⊢
  cases hrun : r data pos with
  | error e => simp [hrun, Except.bind] at h
  | ok p =>
    obtain ⟨a, mid⟩ := p
    rw [hrun] at h
    rw [hr hrun ext]
    exact hf a h ext

theorem slice_append {data : List UInt8} {pos : ℕ} (h : pos + n ≤ data.length) (ext : List UInt8) :
    slice (data ++ ext) pos n = slice data pos n := by
  have hdrop : pos ≤ data.length := by omega
  have htake : n ≤ (data.drop pos).length := by rw [length_drop]; omega
  rw [slice, drop_append_of_le_length hdrop, take_append_of_le_length htake, slice]

theorem Stable.readBytes (n : ℕ) (what : String) : Stable (readBytes n what) := by
  intro data pos b pos' h ext
  rw [readBytes_run] at h ⊢
  by_cases hlen : pos + n > data.length
  · simp [hlen] at h
  · have hext : ¬ pos + n > (data ++ ext).length := by rw [length_append]; omega
    rw [if_neg hlen] at h
    rw [if_neg hext, slice_append (by omega), h]

theorem Stable.readU8 (what : String) : Stable (readU8 what) :=
  (Stable.readBytes 1 what).bind fun _ => Stable.pure _

theorem Stable.readU32 (what : String) : Stable (readU32 what) :=
  (Stable.readBytes 4 what).bind fun _ => Stable.pure _

theorem Stable.times (hr : Stable r) (n : ℕ) : Stable (times r n) := by
  induction n with
  | zero => exact Stable.pure _
  | succ n ih => exact hr.bind fun a => ih.bind fun _ => Stable.pure _

/-! ## Exact reads -/

/-- Placed anywhere in a buffer, `bytes` is consumed exactly and yields `v` of its position. -/
def Reads (r : Reader α) (bytes : List UInt8) (v : ℕ → α) : Prop :=
  ∀ pre post, r (pre ++ bytes ++ post) pre.length = .ok (v pre.length, pre.length + bytes.length)

theorem Reads.pure (a : α) : Reads (pure a : Reader α) [] fun _ => a := by
  intro pre post
  rfl

theorem Reads.bind {b₁ b₂ : List UInt8} (hr : Reads r b₁ v) (hf : ∀ p, Reads (f (v p)) b₂ (w p)) :
    Reads (r >>= f) (b₁ ++ b₂) fun p => w p (p + b₁.length) := by
  intro pre post
  have h₁ := hr pre (b₂ ++ post)
  have h₂ := hf pre.length (pre ++ b₁) post
  rw [bind_run]
  simp only [append_assoc, length_append] at h₁ h₂ ⊢
  rw [h₁]
  simp only [Except.bind, h₂, Nat.add_assoc]

theorem Reads.of_append_nil (h : Reads r (bytes ++ []) v) : Reads r bytes v := by
  rwa [append_nil] at h

/-- The cursor is read without consuming anything. -/
theorem Reads.get_bind {f : ℕ → Reader β} (hf : ∀ p, Reads (f p) bytes (w p)) :
    Reads ((get : Reader ℕ) >>= f) bytes fun p => w p p :=
  fun pre post => hf pre.length pre post

theorem Reads.readBytes (bytes : List UInt8) (what : String) :
    Reads (readBytes bytes.length what) bytes fun _ => bytes := by
  intro pre post
  have hlen : ¬ pre.length + bytes.length > (pre ++ bytes ++ post).length := by
    simp only [length_append]
    omega
  rw [readBytes_run, if_neg hlen, slice, append_assoc, drop_left, take_left]

theorem Reads.readU8 (b : UInt8) (what : String) : Reads (readU8 what) [b] fun _ => b :=
  (Reads.readBytes [b] what).bind (w := fun _ _ => b) fun _ => Reads.pure b

theorem Reads.readU32 (h : n < 256 ^ 4) (what : String) :
    Reads (readU32 what) (toLeBytes 4 n) fun _ => n := by
  have hread : Reads (Reader.readBytes 4 what) (toLeBytes 4 n) fun _ => toLeBytes 4 n := by
    simpa using Reads.readBytes (toLeBytes 4 n) what
  have hword := hread.bind (f := fun bytes => Pure.pure (fromLeBytes bytes))
    (w := fun _ _ => fromLeBytes (toLeBytes 4 n)) fun _ => Reads.pure _
  rw [append_nil, fromLeBytes_toLeBytes h] at hword
  exact hword

/-- **A sequence of records.** If every record of a list is read exactly, so is their
concatenation; the value of each is the one of the place where its bytes lie in the buffer. -/
theorem Reads.times {ι : Type} {enc : ι → List UInt8} {v : ι → ℕ → α} {xs : List ι}
    (h : ∀ x ∈ xs, Reads r (enc x) (v x)) (pre post : List UInt8) :
    ∃ as, Reader.times r xs.length (pre ++ xs.flatMap enc ++ post) pre.length =
        .ok (as, pre.length + (xs.flatMap enc).length) ∧
      List.Forall₂ (fun a x => ∃ before after,
        pre ++ xs.flatMap enc ++ post = before ++ enc x ++ after ∧ a = v x before.length)
        as xs := by
  induction xs generalizing pre with
  | nil => exact ⟨[], by simp [Reader.times, pure_run], .nil⟩
  | cons x xs ih =>
    have hbuf : pre ++ (x :: xs).flatMap enc ++ post =
        (pre ++ enc x) ++ xs.flatMap enc ++ post := by
      simp
    have hhead := h x mem_cons_self pre (xs.flatMap enc ++ post)
    obtain ⟨as, hrun, hvals⟩ := ih (fun y hy => h y (mem_cons_of_mem _ hy)) (pre ++ enc x)
    refine ⟨v x pre.length :: as, ?_, .cons ⟨pre, xs.flatMap enc ++ post, ?_, rfl⟩ ?_⟩
    · rw [hbuf, length_cons, Reader.times, bind_run]
      rw [append_assoc (pre ++ enc x), hhead]
      simp only [Except.bind, bind_run]
      rw [← append_assoc, ← length_append, hrun]
      simp [pure_run, Nat.add_assoc]
    · simp
    · rw [hbuf]
      exact hvals

end Reader

end Fluxon
