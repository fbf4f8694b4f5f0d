import Fluxon.Foundations.Run
import Mathlib.Data.Nat.Notation
import Mathlib.Logic.Function.Basic
import Mathlib.Order.Interval.Finset.Nat

/-!
# Distributed ids

`allocate_id` counts in an etcd key: it reads the value once and then tries transactions that
compare the key with its guess. The calls under one prefix interleave at their requests, and a lost
response fails the call, whether or not its transaction was applied. The ids are unique, and dense
if no call fails: `ids_unique_and_dense`.
-/

namespace Fluxon.Util

open Function

/-- `i64::to_string` and `parse::<i64>`, which gives 0 on any error. -/
structure DecimalCodec (β : Type) where
  render : ℕ → β
  parse : β → ℕ
  parse_render : ∀ n, parse (render n) = n

/-- A call of `allocate_id`: not yet started, before a transaction with the guess `old` and the
attempts that are left, or ended. -/
inductive AllocateId (β : Type)
  | start
  | attempt (old : Option β) (left : ℕ)
  | ok (id : ℕ)
  | failed
  deriving DecidableEq

/-- The counter key, and the calls. -/
structure IdWorld (β : Type) where
  value : Option β
  calls : ℕ → AllocateId β

/-- The requests of the call `i`. -/
inductive IdEvent
  | get (i : ℕ)
  | txn (i : ℕ)
  | lost (i : ℕ) (applied : Bool)

namespace IdWorld

variable {β : Type} [DecidableEq β] (codec : DecimalCodec β)

def initial : IdWorld β := ⟨none, fun _ => .start⟩

/-- One request. A transaction puts the successor of its guess if the key has the value of the
guess, or is absent if the guess is; otherwise the guess is advanced. -/
def step (w : IdWorld β) : IdEvent → Option (IdWorld β)
  | .get i => match w.calls i with
    | .start => some ⟨w.value, Function.update w.calls i (.attempt w.value 100)⟩
    | _ => none
  | .txn i => match w.calls i with
    | .attempt old (left + 1) =>
      let next := old.elim 0 codec.parse + 1
      if w.value = old then
        some ⟨codec.render next, Function.update w.calls i (.ok next)⟩
      else some ⟨w.value, Function.update w.calls i
        (if left = 0 then .failed else .attempt (codec.render next) left)⟩
    | _ => none
  | .lost i applied => match w.calls i with
    | .start => some ⟨w.value, Function.update w.calls i .failed⟩
    | .attempt old _ =>
      let next := old.elim 0 codec.parse + 1
      some ⟨if applied ∧ w.value = old then codec.render next else w.value,
        Function.update w.calls i .failed⟩
    | _ => none

abbrev Step (w : IdWorld β) (e : IdEvent) (w' : IdWorld β) : Prop := w.step codec e = some w'

/-- The counter is at `n`, and the ids up to `n` have been given out, each to one call at most, and
to some call unless one has failed. -/
structure Counted (n : ℕ) (w : IdWorld β) : Prop where
  value_eq : w.value = if n = 0 then none else some (codec.render n)
  bounds : ∀ {i id}, w.calls i = .ok id → 1 ≤ id ∧ id ≤ n
  unique : ∀ {i j id}, w.calls i = .ok id → w.calls j = .ok id → i = j
  dense : (∀ i, w.calls i ≠ .failed) → ∀ id, 1 ≤ id → id ≤ n → ∃ i, w.calls i = .ok id

variable {codec} {n i : ℕ} {w w' : IdWorld β}

omit [DecidableEq β] in
/-- The guess that meets the counter is its value. -/
theorem Counted.guess_eq (h : w.Counted codec n) {old : Option β} (hold : w.value = old) :
    old.elim 0 codec.parse = n := by
  rw [← hold, h.value_eq]
  split
  · next hzero => exact hzero.symm
  · exact codec.parse_render n

omit [DecidableEq β] in
/-- A call moves on, and gets the new id if there is one. -/
theorem Counted.update (h : w.Counted codec n) {n' : ℕ} {value : Option β} {c : AllocateId β}
    (hvalue : value = if n' = 0 then none else some (codec.render n')) (hle : n ≤ n')
    (hcall : ∀ id, w.calls i ≠ .ok id) (hlive : w.calls i ≠ .failed)
    (hid : ∀ id, c = .ok id → n < id ∧ id ≤ n')
    (hnew : c ≠ .failed → ∀ id, n < id → id ≤ n' → c = .ok id) :
    Counted codec n' ⟨value, Function.update w.calls i c⟩ := by
  have hok : ∀ {j id}, Function.update w.calls i c j = .ok id →
      (j = i ∧ n < id ∧ id ≤ n') ∨ w.calls j = .ok id := by
    intro j id hj
    by_cases hji : j = i
    · subst hji
      rw [update_self] at hj
      exact .inl ⟨rfl, hid id hj⟩
    · rw [update_of_ne hji] at hj
      exact .inr hj
  refine ⟨hvalue, fun hj => ?_, fun hj hk => ?_, fun hfailed id hpos hbound => ?_⟩
  · rcases hok hj with ⟨-, hnew⟩ | hold
    · omega
    · have := h.bounds hold
      omega
  · rcases hok hj with ⟨rfl, hnew⟩ | hold <;> rcases hok hk with ⟨rfl, hnew'⟩ | hold'
    · rfl
    · have := h.bounds hold'
      omega
    · have := h.bounds hold
      omega
    · exact h.unique hold hold'
  · have hself : c ≠ .failed := by simpa using hfailed i
    by_cases hlt : n < id
    · exact ⟨i, (update_self ..).trans (hnew hself id hlt hbound)⟩
    have hold : ∀ j, w.calls j ≠ .failed := fun j => by
      by_cases hji : j = i
      · exact hji ▸ hlive
      · exact update_of_ne hji c w.calls ▸ hfailed j
    obtain ⟨j, hj⟩ := h.dense hold id hpos (by omega)
    have hji : j ≠ i := fun hji => hcall id (hji ▸ hj)
    exact ⟨j, (update_of_ne hji ..).trans hj⟩

/-- **Every request keeps the count.** -/
theorem Counted.step {e : IdEvent} (h : w.Counted codec n) (hstep : Step codec w e w') :
    ∃ n', w'.Counted codec n' := by
  revert hstep
  unfold Step
  fun_cases IdWorld.step codec w e <;> rintro ⟨⟩
  · next hcall =>
    exact ⟨n, h.update h.value_eq n.le_refl (by simp [hcall]) (by simp [hcall]) (by simp)
      (by omega)⟩
  · next hcall next =>
    have hnext : next = n + 1 := congrArg (· + 1) (h.guess_eq rfl)
    rw [hnext]
    refine ⟨n + 1, h.update (by simp) (by omega) (by simp [hcall]) (by simp [hcall]) ?_ ?_⟩
    · rintro id ⟨⟩
      omega
    · intro _ id hlt hle
      rw [show id = n + 1 by omega]
  · next hcall _ _ =>
    refine ⟨n, h.update h.value_eq n.le_refl (by simp [hcall]) (by simp [hcall]) ?_ (by omega)⟩
    split <;> simp
  · next hcall =>
    exact ⟨n, h.update h.value_eq n.le_refl (by simp [hcall]) (by simp [hcall]) (by simp) (by simp)⟩
  · next hcall next =>
    split
    · next hold =>
      have hnext : next = n + 1 := congrArg (· + 1) (h.guess_eq hold.2)
      rw [hnext]
      exact ⟨n + 1, h.update (by simp) (by omega) (by simp [hcall]) (by simp [hcall]) (by simp)
        (by simp)⟩
    · exact ⟨n, h.update h.value_eq n.le_refl (by simp [hcall]) (by simp [hcall]) (by simp)
        (by simp)⟩

/-- **Ids are unique, and dense if no call fails.** -/
theorem ids_unique_and_dense {es : List IdEvent} (hrun : Run (Step codec) initial es w) :
    (∀ i j id, w.calls i = .ok id → w.calls j = .ok id → i = j) ∧
    ∀ ended : Finset ℕ, (∀ i, i ∈ ended ↔ ∃ id, w.calls i = .ok id) → (∀ i, w.calls i ≠ .failed) →
      ∀ id, (∃ i, w.calls i = .ok id) ↔ 1 ≤ id ∧ id ≤ ended.card := by
  have hinitial : Counted codec 0 initial :=
    ⟨rfl, by simp [initial], by simp [initial], fun _ id => by omega⟩
  obtain ⟨n, h⟩ : ∃ n, w.Counted codec n := by
    refine hrun.invariant (I := fun w => ∃ n, w.Counted codec n) ?_ ⟨0, hinitial⟩
    rintro w e w' ⟨n, h⟩ hstep
    exact h.step hstep
  refine ⟨fun _ _ _ => h.unique, fun ended hended hfailed => ?_⟩
  have hids : ∀ id, (∃ i, w.calls i = .ok id) ↔ 1 ≤ id ∧ id ≤ n := fun id =>
    ⟨fun hid => hid.elim fun _ => h.bounds, fun hid => h.dense hfailed id hid.1 hid.2⟩
  -- The calls that ended and their ids are in bijection.
  have hcard : ended.card = (Finset.Icc 1 n).card := by
    choose! f hf using fun i => (hended i).1
    refine Finset.card_bij (fun i _ => f i) (fun i hi => ?_) (fun i hi j hj hij => ?_) ?_
    · exact Finset.mem_Icc.2 (h.bounds (hf i hi))
    · exact h.unique (hf i hi) (hij ▸ hf j hj)
    · intro id hid
      obtain ⟨i, hi⟩ := (hids id).2 (Finset.mem_Icc.1 hid)
      have hmem := (hended i).2 ⟨id, hi⟩
      exact ⟨i, hmem, AllocateId.ok.inj ((hf i hmem).symm.trans hi)⟩
  rw [hcard, Nat.card_Icc, Nat.add_sub_cancel]
  exact hids

/-- Two calls read the absent key, and the second one tries again. -/
theorem ids_unique_and_dense_contended : ∃ w : IdWorld ℕ, w.calls 0 = .ok 1 ∧ w.calls 1 = .ok 2 ∧
    ∀ i j id, w.calls i = .ok id → w.calls j = .ok id → i = j := by
  obtain ⟨w, hrun, hfirst, hsecond⟩ := Run.exists_of_foldlM (step ⟨id, id, fun _ => rfl⟩) initial
    [.get 0, .get 1, .txn 0, .txn 1, .txn 1] (fun w => w.calls 0 = .ok 1 ∧ w.calls 1 = .ok 2)
    (by decide +kernel)
  exact ⟨w, hfirst, hsecond, (ids_unique_and_dense hrun).1⟩

end IdWorld

end Fluxon.Util
