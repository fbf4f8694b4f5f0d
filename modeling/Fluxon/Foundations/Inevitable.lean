import Fluxon.Foundations.Run
import Mathlib.Order.WellFounded

/-!
# What every run comes to

`Inevitable step P s`: every run from `s` that goes on for as long as there is a step comes to a
state with `P`. It follows from a rank that every step lowers, if a state without a step has `P`
(`Inevitable.of_rank`).
-/

namespace Fluxon

variable {σ ι : Type*} {step : σ → ι → σ → Prop} {P : σ → Prop} {s : σ}

/-- Every run from the state comes to `P`. -/
inductive Inevitable (step : σ → ι → σ → Prop) (P : σ → Prop) : σ → Prop
  | now {s : σ} : P s → Inevitable step P s
  | later {s : σ} : (∃ l s', step s l s') → (∀ l s', step s l s' → Inevitable step P s') →
      Inevitable step P s

namespace Inevitable

/-- Under an invariant, a rank that every step lowers and a step from every state without `P`. -/
theorem of_rank {ρ : Type*} [Preorder ρ] [WellFoundedLT ρ] (rank : σ → ρ) {I : σ → Prop}
    (hstep : ∀ s l s', I s → step s l s' → I s' ∧ rank s' < rank s)
    (hcan : ∀ s, I s → ¬P s → ∃ l s', step s l s') (hs : I s) : Inevitable step P s := by
  induction hr : rank s using WellFoundedLT.induction generalizing s with
  | ind r ih =>
    by_cases hP : P s
    · exact .now hP
    · refine .later (hcan s hs hP) fun l s' hl => ?_
      obtain ⟨hs', hlt⟩ := hstep s l s' hs hl
      exact ih (rank s') (hr ▸ hlt) hs' rfl

/-- In particular there is a run to `P`. -/
theorem exists_run (h : Inevitable step P s) : ∃ ls s', Run step s ls s' ∧ P s' := by
  induction h with
  | now hP => exact ⟨[], _, .nil _, hP⟩
  | later hcan _ ih =>
    obtain ⟨l, s₁, hl⟩ := hcan
    obtain ⟨ls, s', hrun, hP⟩ := ih l s₁ hl
    exact ⟨l :: ls, s', .cons hl hrun, hP⟩

end Inevitable

end Fluxon
