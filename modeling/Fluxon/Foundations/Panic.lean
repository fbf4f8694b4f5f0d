import Mathlib.Logic.Basic
import Mathlib.Tactic.Common

/-!
# Calls that may panic

A call on a shared state either returns a value or panics with a message. A panic unwinds out of
the call and releases its lock, so whatever the call had already written stays: the state is part
of both results. This is the core monad `EStateM` with the panic messages as errors.

`Call.Post c s Q E` says that from `s` the call `c` returns with `Q`, or panics with `E`. The
lemmas `post_*` compute it for the primitives, so that a call's specification is reduced to its
branches by `simp only` and `split`; `Post.mono` weakens a specification at a call site.
-/

namespace Fluxon

/-- A call on states `σ`: a value or a panic message, and the state left behind. -/
abbrev Call (σ α : Type) := EStateM String σ α

namespace Call

variable {σ τ α β : Type}

/-- From `s`, the call returns a value and a state with `Q`, or panics with `E`. -/
def Post (c : Call σ α) (s : σ) (Q : α → σ → Prop) (E : String → σ → Prop) : Prop :=
  match c s with
  | .ok a s' => Q a s'
  | .error e s' => E e s'

/-- `Option::expect`: the value of an option, or a panic. -/
def expect (o : Option α) (msg : String) : Call σ α :=
  match o with
  | some a => pure a
  | none => throw msg

/-- `assert!`: panic unless the condition holds. -/
def require (p : Prop) [Decidable p] (msg : String) : Call σ Unit :=
  if p then pure () else throw msg

/-- Run a call on a part of the state, and put the part it leaves back. -/
def onPart (part : τ) (put : τ → σ → σ) (c : Call τ α) : Call σ α := fun s =>
  match c part with
  | .ok a p => .ok a (put p s)
  | .error e p => .error e (put p s)

/-- A specification is decided by running the call. -/
instance (c : Call σ α) (s : σ) (Q : α → σ → Prop) (E : String → σ → Prop)
    [∀ a s', Decidable (Q a s')] [∀ e s', Decidable (E e s')] : Decidable (Post c s Q E) :=
  match h : c s with
  | .ok a s' => decidable_of_iff (Q a s') (by simp only [Post, h])
  | .error e s' => decidable_of_iff (E e s') (by simp only [Post, h])

variable {s : σ} {Q Q' : α → σ → Prop} {E E' : String → σ → Prop}

theorem post_pure (a : α) : Post (pure a : Call σ α) s Q E ↔ Q a s := Iff.rfl

theorem post_throw (e : String) : Post (throw e : Call σ α) s Q E ↔ E e s := Iff.rfl

theorem post_bind (c : Call σ β) (f : β → Call σ α) :
    Post (c >>= f) s Q E ↔ Post c s (fun b s' => Post (f b) s' Q E) E := by
  simp only [Post, bind, EStateM.bind]
  cases c s <;> rfl

theorem post_get {Q : σ → σ → Prop} : Post (get : Call σ σ) s Q E ↔ Q s s := Iff.rfl

theorem post_modify (f : σ → σ) {Q : PUnit → σ → Prop} :
    Post (modify f : Call σ PUnit) s Q E ↔ Q ⟨⟩ (f s) := Iff.rfl

theorem post_ite (p : Prop) [Decidable p] (c d : Call σ α) :
    Post (if p then c else d) s Q E ↔ (p → Post c s Q E) ∧ (¬p → Post d s Q E) := by
  by_cases h : p <;> simp [h]

theorem post_expect (o : Option β) (msg : String) {Q : β → σ → Prop} :
    Post (expect o msg : Call σ β) s Q E ↔ (∀ b, o = some b → Q b s) ∧ (o = none → E msg s) := by
  cases o <;> simp [expect, post_pure, post_throw]

theorem post_require (p : Prop) [Decidable p] (msg : String) {Q : Unit → σ → Prop} :
    Post (require p msg : Call σ Unit) s Q E ↔ (p → Q () s) ∧ (¬p → E msg s) := by
  simp only [require, post_ite, post_pure, post_throw]

theorem post_onPart (part : τ) (put : τ → σ → σ) (c : Call τ α) : Post (onPart part put c) s Q E ↔
      Post c part (fun a p => Q a (put p s)) (fun e p => E e (put p s)) := by
  simp only [Post, onPart]
  cases c part <;> rfl

variable {c : Call σ α} {a : α} {s' : σ}

theorem Post.mono (h : Post c s Q E) (hQ : ∀ a s', Q a s' → Q' a s') (hE : ∀ e s', E e s' → E' e s') :
    Post c s Q' E' := by
  unfold Post at h ⊢
  split at h
  · exact hQ _ _ h
  · exact hE _ _ h

theorem Post.imp (h : Post c s Q E) (hQ : ∀ a s', Q a s' → Q' a s') : Post c s Q' E :=
  h.mono hQ fun _ _ h => h

theorem Post.of_ok (h : Post c s Q E) (he : c s = .ok a s') : Q a s' := by
  simpa only [Post, he] using h

theorem Post.of_error (h : Post c s Q E) {e : String} (he : c s = .error e s') : E e s' := by
  simpa only [Post, he] using h

theorem Post.exists_ok (h : Post c s Q fun _ _ => False) : ∃ a s', c s = .ok a s' ∧ Q a s' := by
  unfold Post at h
  split at h
  · next a s' heq => exact ⟨a, s', heq, h⟩
  · exact h.elim

theorem Post.exists_error (h : Post c s (fun _ _ => False) E) :
    ∃ e s', c s = .error e s' ∧ E e s' := by
  unfold Post at h
  split at h
  · exact h.elim
  · next e s' heq => exact ⟨e, s', heq, h⟩

theorem Post.eq_ok (h : Post c s (fun b t => b = a ∧ t = s') (fun _ _ => False)) :
    c s = .ok a s' := by
  unfold Post at h
  split at h
  · next b t heq => rw [heq, h.1, h.2]
  · exact h.elim

theorem post_true (c : Call σ α) (s : σ) : Post c s (fun _ _ => True) (fun _ _ => True) := by
  unfold Post
  split <;> trivial

theorem bind_run_of_ok {c : Call σ β} {f : β → Call σ α} {b : β} (h : c s = .ok b s') :
    (c >>= f) s = f b s' := by
  show EStateM.bind c f s = _
  rw [EStateM.bind, h]

/-- One call after the other, each returning. -/
theorem mapM_cons_of_ok {f : α → Call σ β} {l : List α} {b : β} {bs : List β} {s₁ s₂ : σ}
    (h : f a s = .ok b s₁) (hl : l.mapM f s₁ = .ok bs s₂) :
    (a :: l).mapM f s = .ok (b :: bs) s₂ := by
  rw [List.mapM_cons, bind_run_of_ok h, bind_run_of_ok hl]
  rfl

end Call

end Fluxon
