import Mathlib.Logic.Relation

/-!
# Runs of a labelled transition system

`Run step s ls s'`: from `s`, the steps labelled `ls` lead to `s'`. A step that is subject to a
condition on its label and the state before it is a step of `Guarded`. An invariant of every step
is an invariant of every run (`Run.invariant`), and a preorder that every step respects relates
the ends of every run (`Run.preorder`).
-/

namespace Fluxon

variable {σ ι : Type*}

/-- A finite run of the step relation, with the list of its labels. -/
inductive Run (step : σ → ι → σ → Prop) : σ → List ι → σ → Prop
  | nil (s : σ) : Run step s [] s
  | cons {s s' s'' : σ} {l : ι} {ls : List ι} :
      step s l s' → Run step s' ls s'' → Run step s (l :: ls) s''

/-- The steps that meet a condition on the state before them and their label. -/
def Guarded (guard : σ → ι → Prop) (step : σ → ι → σ → Prop) (s : σ) (l : ι) (s' : σ) : Prop :=
  guard s l ∧ step s l s'

namespace Run

variable {step step' : σ → ι → σ → Prop} {s s' s'' : σ} {ls ls' : List ι} {I : σ → Prop} {l : ι}

theorem single (h : step s l s') : Run step s [l] s' := .cons h (.nil s')

theorem append (h : Run step s ls s') (h' : Run step s' ls' s'') : Run step s (ls ++ ls') s'' := by
  induction h with
  | nil => exact h'
  | cons hs _ ih => exact .cons hs (ih h')

theorem snoc (h : Run step s ls s') (h' : step s' l s'') : Run step s (ls ++ [l]) s'' :=
  h.append (.single h')

theorem cons_inv (h : Run step s (l :: ls) s') : ∃ s₁, step s l s₁ ∧ Run step s₁ ls s' := by
  cases h with
  | cons hs hrest => exact ⟨_, hs, hrest⟩

theorem pair_inv {l' : ι} (h : Run step s [l, l'] s') : ∃ s₁, step s l s₁ ∧ step s₁ l' s' := by
  obtain ⟨s₁, hs, hrest⟩ := h.cons_inv
  obtain ⟨_, hs', hnil⟩ := hrest.cons_inv
  cases hnil
  exact ⟨s₁, hs, hs'⟩

theorem snoc_inv (ls : List ι) (h : Run step s (ls ++ [l]) s') :
    ∃ s₁, Run step s ls s₁ ∧ step s₁ l s' := by
  induction ls generalizing s with
  | nil =>
    cases h with
    | cons hs hnil =>
      cases hnil
      exact ⟨s, .nil s, hs⟩
  | cons l' ls ih =>
    cases h with
    | cons hs hrest =>
      obtain ⟨s₁, hrun, hlast⟩ := ih hrest
      exact ⟨s₁, .cons hs hrun, hlast⟩

theorem mono (hstep : ∀ s l s', step s l s' → step' s l s') (h : Run step s ls s') :
    Run step' s ls s' := by
  induction h with
  | nil => exact .nil _
  | cons hs _ ih => exact .cons (hstep _ _ _ hs) ih

/-- A run whose labels all satisfy a condition. -/
theorem guarded {p : ι → Prop} (h : Run step s ls s') (hp : ∀ l ∈ ls, p l) :
    Run (Guarded (fun _ l => p l) step) s ls s' := by
  induction h with
  | nil => exact .nil _
  | cons hs _ ih => exact .cons ⟨hp _ (by simp), hs⟩ (ih fun l hl => hp l (by simp [hl]))

theorem invariant (hstep : ∀ s l s', I s → step s l s' → I s') (h : Run step s ls s') (hs : I s) :
    I s' := by
  induction h with
  | nil => exact hs
  | cons h₁ _ ih => exact ih (hstep _ _ _ hs h₁)

theorem preorder {R : σ → σ → Prop} (hrefl : ∀ s, R s s)
    (htrans : ∀ s₁ s₂ s₃, R s₁ s₂ → R s₂ s₃ → R s₁ s₃) (hstep : ∀ s l s', step s l s' → R s s')
    (h : Run step s ls s') : R s s' := by
  induction h with
  | nil => exact hrefl _
  | cons h₁ _ ih => exact htrans _ _ _ (hstep _ _ _ h₁) ih

variable {f : σ → ι → Option σ}

/-- A run computed by a partial step function. -/
theorem of_foldlM (h : ls.foldlM f s = some s') : Run (fun s l s' => f s l = some s') s ls s' := by
  induction ls generalizing s with
  | nil =>
    cases h
    exact .nil _
  | cons l ls ih =>
    obtain ⟨s₁, h₁, hrest⟩ := Option.bind_eq_some_iff.1 h
    exact .cons h₁ (ih hrest)

/-- A guarded run computed by a partial step function. -/
theorem guarded_of_foldlM {guard : σ → ι → Bool}
    (h : ls.foldlM (fun s l => if guard s l then f s l else none) s = some s') :
    Run (Guarded (fun s l => guard s l = true) fun s l s' => f s l = some s') s ls s' := by
  apply (of_foldlM h).mono
  intro s l s' hstep
  split at hstep
  · next hguard => exact ⟨hguard, hstep⟩
  · cases hstep

section Exists

variable (f : σ → ι → Option σ) (s : σ) (ls : List ι) (p : σ → Prop) [DecidablePred p]

/-- A run found by evaluation, to a state with a decidable property. -/
theorem exists_of_foldlM (h : (ls.foldlM f s).any (fun s' => decide (p s')) = true) :
    ∃ s', Run (fun s l s' => f s l = some s') s ls s' ∧ p s' := by
  obtain ⟨s', hs', hp⟩ := (Option.any_eq_true _ _).1 h
  exact ⟨s', of_foldlM hs', of_decide_eq_true hp⟩

/-- A guarded run found by evaluation. -/
theorem exists_guarded_of_foldlM (guard : σ → ι → Bool)
    (h : (ls.foldlM (fun s l => if guard s l then f s l else none) s).any
      (fun s' => decide (p s')) = true) :
    ∃ s', Run (Guarded (fun s l => guard s l = true) fun s l s' => f s l = some s') s ls s' ∧
      p s' := by
  obtain ⟨s', hs', hp⟩ := (Option.any_eq_true _ _).1 h
  exact ⟨s', guarded_of_foldlM hs', of_decide_eq_true hp⟩

end Exists

end Run

end Fluxon
