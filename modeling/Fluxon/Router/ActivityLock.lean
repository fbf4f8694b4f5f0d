import Fluxon.Foundations.Run
import Fluxon.Router.KeyActivity

/-!
# Key activity is a reader and reclaimer lock

The leases on `MasterKeyActivityTable` and the steps that any number of threads take on them. A
lease is released in two steps, as in `MasterKeyActivityLease::release_now`: its own flag is
flipped, by an explicit release or by the drop, and the thread that flipped it then takes the table
lock and lowers the counter.

`ActivityWorld.Exact` is the invariant: the counters count the leases, a fenced key is quiet, and
the table has no idle entry. The main result is `key_activity_exact`.
-/

namespace Fluxon.Router

open Call MasterKeyActivityTable MasterKeyActivityState Function List

/-! ## Leases -/

/-- How far the release of a lease has come. -/
inductive LeasePhase
  | live
  | releasing
  | released
  deriving DecidableEq

structure MasterKeyActivityLease where
  key : String
  kind : MasterKeyActivityKind
  phase : LeasePhase
  deriving DecidableEq

/-- The lease is on this key and of this kind, and the table has not seen its release. -/
def MasterKeyActivityLease.holds (key : String) (kind : MasterKeyActivityKind)
    (l : MasterKeyActivityLease) : Bool :=
  l.key = key && l.kind = kind && l.phase ≠ .released

/-- The table and all leases that it ever granted. -/
structure ActivityWorld where
  table : MasterKeyActivityTable
  leases : List MasterKeyActivityLease

inductive ActivityEvent
  | reserve (key : String) (kind : MasterKeyActivityKind) (rejectSameKindIfActive : Bool)
  | releaseNow (lease : ℕ)
  | releaseTable (lease : ℕ)
  | tryInstallReclaim (item : OwnerReclaimItem)
  | clearReclaim (item : OwnerReclaimItem)
  deriving DecidableEq

namespace ActivityWorld

def initial : ActivityWorld := ⟨fun _ => none, []⟩

/-- A step of some thread. A panic leaves the table as it is at that point. -/
def step (w : ActivityWorld) : ActivityEvent → ActivityWorld
  | .reserve key kind rejectSameKindIfActive =>
    match reserve key kind rejectSameKindIfActive w.table with
    | .ok true table => ⟨table, w.leases ++ [⟨key, kind, .live⟩]⟩
    | .ok false table => { w with table }
    | .error _ table => { w with table }
  | .releaseNow i =>
    match w.leases[i]? with
    | some l =>
      if l.phase = .live then { w with leases := w.leases.set i { l with phase := .releasing } }
      else w
    | none => w
  | .releaseTable i =>
    match w.leases[i]? with
    | some l =>
      if l.phase = .releasing then
        match release l.key l.kind w.table with
        | .ok _ table => ⟨table, w.leases.set i { l with phase := .released }⟩
        | .error _ table => { w with table }
      else w
    | none => w
  | .tryInstallReclaim item => { w with table := (w.table.tryInstallReclaim item).2 }
  | .clearReclaim item => { w with table := (w.table.clearReclaim item).2 }

/-- The leases of a kind on a key that the table has not seen released. -/
def held (w : ActivityWorld) (key : String) (kind : MasterKeyActivityKind) : ℕ :=
  w.leases.countP (MasterKeyActivityLease.holds key kind)

end ActivityWorld

/-! ## The operations -/

/-- No entry of the table is idle. -/
def NoIdle (t : MasterKeyActivityTable) : Prop :=
  ∀ key s, t key = some s → ¬ (s.isQuiet = true ∧ s.reclaim = none)

variable {t : MasterKeyActivityTable} {kind : MasterKeyActivityKind}

theorem NoIdle.update (h : NoIdle t) (key : String) {o : Option MasterKeyActivityState}
    (ho : ∀ s, o = some s → ¬ (s.isQuiet = true ∧ s.reclaim = none)) :
    NoIdle (update t key o) := by
  intro key' s hs
  rw [update_apply] at hs
  split at hs
  · exact ho s hs
  · exact h key' s hs

variable (s : MasterKeyActivityState)

theorem MasterKeyActivityState.counter_setCounter (n : ℕ) (kind kind' : MasterKeyActivityKind) :
    (s.setCounter n kind).counter kind' = if kind' = kind then n else s.counter kind' := by
  cases kind <;> cases kind' <;> rfl

@[simp] theorem MasterKeyActivityState.reclaim_setCounter (n : ℕ)
    (kind : MasterKeyActivityKind) : (s.setCounter n kind).reclaim = s.reclaim := by
  cases kind <;> rfl

theorem MasterKeyActivityState.isQuiet_iff : s.isQuiet = true ↔ ∀ kind, s.counter kind = 0 := by
  constructor
  · intro h kind
    simp only [isQuiet, Bool.and_eq_true, decide_eq_true_eq] at h
    cases kind
    · exact h.1.1
    · exact h.1.2
    · exact h.2
  · intro h
    have hputs := h .put
    have hgets := h .get
    have hreplicas := h .replica
    simp only [counter] at hputs hgets hreplicas
    simp [isQuiet, hputs, hgets, hreplicas]

/-- A reservation is granted on a key without a fence and counted, or it changes no state. -/
theorem post_reserve (key : String) (kind : MasterKeyActivityKind) (reject : Bool)
    (t : MasterKeyActivityTable) :
    Post (reserve key kind reject) t
      (fun granted t' =>
        if granted then fence t key = none ∧ t' = update t key
            (some ((state t key).setCounter ((state t key).counter kind + 1) kind))
        else t' = update t key (some (state t key)) ∧
          ¬ ((state t key).isQuiet = true ∧ fence t key = none))
      (fun _ t' => t' = update t key (some (state t key)) ∧
        ¬ ((state t key).isQuiet = true ∧ fence t key = none)) := by
  simp only [reserve, post_bind, post_get, post_modify]
  split
  · next hfence =>
    refine ⟨rfl, fun h => ?_⟩
    simp only [fence] at h
    simp [h.2] at hfence
  · next hfence =>
    rw [Option.not_isSome_iff_eq_none] at hfence
    split
    · refine ⟨rfl, fun h => ?_⟩
      have hzero := (isQuiet_iff _).1 h.1 kind
      omega
    simp only [post_bind, post_expect, post_modify, post_pure]
    constructor
    · intro n hn
      have hcount := (checkedAdd32_eq_some.1 hn).2
      rw [if_pos trivial, update_idem, hcount]
      exact ⟨hfence, rfl⟩
    intro hn
    refine ⟨trivial, fun h => ?_⟩
    have hmax := checkedAdd32_eq_none.1 hn
    have hzero := (isQuiet_iff _).1 h.1 kind
    rw [u32Max] at hmax
    omega

/-- A release of a counted lease lowers its counter and drops an idle entry. -/
theorem release_eq {key : String} (h : 0 < (state t key).counter kind) :
    release key kind t = .ok () (update t key
      (if ((state t key).setCounter ((state t key).counter kind - 1) kind).isQuiet = true ∧
          (fence t key).isNone = true then none
        else some ((state t key).setCounter ((state t key).counter kind - 1) kind))) := by
  obtain ⟨s, hs⟩ : ∃ s, t key = some s := by
    cases hs : t key with
    | some s => exact ⟨s, rfl⟩
    | none =>
      rw [state, hs] at h
      cases kind <;> simp [counter] at h
  have hstate := state_of_some hs
  rw [hstate] at h
  have hsub : checkedSub (s.counter kind) 1 = some (s.counter kind - 1) :=
    checkedSub_eq_some.2 ⟨h, rfl⟩
  apply Post.eq_ok
  simp only [release, post_bind, post_get, post_expect, post_modify, hs]
  simp only [Option.some.injEq, forall_eq', reduceCtorEq, false_implies, and_true]
  refine ⟨fun n hn => ?_, fun hn => ?_⟩
  · have hvalue := (checkedSub_eq_some.1 hn).2
    simp [fence, hstate, hvalue]
  · simp [hsub] at hn

/-! ## The invariant -/

namespace ActivityWorld

/-- The counters count the leases, a fenced key is quiet, and no entry is idle. -/
structure Exact (w : ActivityWorld) : Prop where
  count : ∀ key kind, (state w.table key).counter kind = w.held key kind
  quiet : ∀ key, fence w.table key ≠ none → (state w.table key).isQuiet = true
  noIdle : NoIdle w.table

variable {w : ActivityWorld}

theorem exact_initial : Exact initial where
  count := by
    intro key kind
    cases kind <;> rfl
  quiet := by
    intro key h
    exact (h rfl).elim
  noIdle := by
    intro key s h
    cases h

/-- The table's states stay as they are, and so do the leases. -/
theorem Exact.of_state (h : Exact w) (hstate : ∀ key, state t key = state w.table key)
    (hidle : NoIdle t) :
    Exact { w with table := t } where
  count := by
    intro key kind
    rw [hstate key]
    exact h.count key kind
  quiet := by
    intro key hfence
    simp only [fence, hstate key] at hfence ⊢
    exact h.quiet key hfence
  noIdle := hidle

theorem state_update_self (t : MasterKeyActivityTable) (key key' : String) :
    state (update t key (some (state t key))) key' = state t key' := by
  rw [state_update_some]
  split
  · next hkey => rw [hkey]
  · rfl

open MasterKeyActivityLease (holds)

variable {key : String} {i : ℕ} {l : MasterKeyActivityLease} {item : OwnerReclaimItem}

theorem Exact.refused (h : Exact w)
    (hidle : ¬ ((state w.table key).isQuiet = true ∧ fence w.table key = none)) :
    Exact { w with table := update w.table key (some (state w.table key)) } := by
  apply h.of_state (state_update_self w.table key)
  apply h.noIdle.update
  intro s hs
  cases hs
  exact hidle

theorem held_append (w : ActivityWorld) (t : MasterKeyActivityTable)
    (l : MasterKeyActivityLease) (key : String) (kind : MasterKeyActivityKind) :
    held ⟨t, w.leases ++ [l]⟩ key kind = w.held key kind + if l.holds key kind then 1 else 0 := by
  rw [held, countP_append, countP_singleton, held]

theorem Exact.granted (h : Exact w) (hfence : fence w.table key = none) :
    Exact ⟨update w.table key (some ((state w.table key).setCounter
        ((state w.table key).counter kind + 1) kind)), w.leases ++ [⟨key, kind, .live⟩]⟩ where
  count := by
    intro key' kind'
    rw [held_append, state_update_some, ← h.count key' kind']
    by_cases hkey : key' = key
    · subst hkey
      rw [if_pos rfl, counter_setCounter]
      by_cases hkind : kind' = kind
      · simp [hkind, holds]
      · simp [hkind, Ne.symm hkind, holds]
    · simp [hkey, Ne.symm hkey, holds]
  quiet := by
    intro key' hne
    simp only [fence, state_update_some] at hne ⊢
    split at hne
    · rw [reclaim_setCounter] at hne
      exact (hne hfence).elim
    · next hkey =>
      rw [if_neg hkey]
      exact h.quiet key' hne
  noIdle := by
    apply h.noIdle.update
    intro s hs hquiet
    cases hs
    have hzero := (isQuiet_iff _).1 hquiet.1 kind
    rw [counter_setCounter, if_pos rfl] at hzero
    omega

theorem Exact.reserve {reject : Bool} (h : Exact w) :
    Exact (w.step (.reserve key kind reject)) := by
  have hpost := post_reserve key kind reject w.table
  simp only [step]
  split
  · next t heq =>
    have hgranted := hpost.of_ok heq
    rw [hgranted.2]
    exact h.granted hgranted.1
  · next t heq =>
    have hrefused := hpost.of_ok heq
    rw [hrefused.1]
    exact h.refused hrefused.2
  · next e t heq =>
    have hpanic := hpost.of_error heq
    rw [hpanic.1]
    exact h.refused hpanic.2

/-- The flag of a lease is flipped: the table still counts it. -/
theorem Exact.releaseNow (h : Exact w) : Exact (w.step (.releaseNow i)) := by
  simp only [step]
  split
  · next l hl =>
    split
    · next hlive =>
      refine ⟨fun key kind => ?_, h.quiet, h.noIdle⟩
      obtain ⟨hi, rfl⟩ := List.getElem?_eq_some_iff.1 hl
      have hsame : holds key kind { w.leases[i] with phase := .releasing } =
          holds key kind w.leases[i] := by
        simp [holds, hlive]
      have hle : (if holds key kind w.leases[i] then 1 else 0) ≤
          w.leases.countP (holds key kind) := by
        split
        · next hp => exact countP_pos_iff.2 ⟨_, getElem_mem hi, hp⟩
        · exact Nat.zero_le _
      rw [h.count key kind, held, held, countP_set hi, hsame]
      omega
    · exact h
  · exact h

theorem Exact.counter_pos {i : ℕ} {l : MasterKeyActivityLease} (h : Exact w)
    (hl : w.leases[i]? = some l) (hphase : l.phase ≠ .released) :
    0 < (state w.table l.key).counter l.kind := by
  rw [h.count l.key l.kind]
  apply countP_pos_iff.2
  exact ⟨l, mem_of_getElem? hl, by simp [holds, hphase]⟩

theorem held_released (t : MasterKeyActivityTable) (hl : w.leases[i]? = some l)
    (hphase : l.phase ≠ .released) (key : String) (kind : MasterKeyActivityKind) :
    held ⟨t, w.leases.set i { l with phase := .released }⟩ key kind +
      (if l.key = key ∧ l.kind = kind then 1 else 0) = w.held key kind := by
  obtain ⟨hi, rfl⟩ := List.getElem?_eq_some_iff.1 hl
  have hgone : holds key kind { w.leases[i] with phase := .released } = false := by
    simp [holds]
  have hhere : holds key kind w.leases[i] =
      decide (w.leases[i].key = key ∧ w.leases[i].kind = kind) := by
    simp [holds, hphase]
  rw [held, held, countP_set hi, hgone, hhere]
  by_cases hmatch : w.leases[i].key = key ∧ w.leases[i].kind = kind
  · have hpos : 0 < w.leases.countP (holds key kind) :=
      countP_pos_iff.2 ⟨_, getElem_mem hi, by simp [hhere, hmatch]⟩
    simp only [hmatch, and_self, decide_true, if_true, Bool.false_eq_true, if_false]
    omega
  · simp [hmatch]

section

variable (h : Exact w)
include h

/-- The table sees a release: the counter goes down with the number of leases. -/
theorem Exact.released (hl : w.leases[i]? = some l) (hphase : l.phase ≠ .released) :
    Exact ⟨update w.table l.key
      (if ((state w.table l.key).setCounter ((state w.table l.key).counter l.kind - 1)
            l.kind).isQuiet = true ∧ (fence w.table l.key).isNone = true then none
        else some ((state w.table l.key).setCounter
          ((state w.table l.key).counter l.kind - 1) l.kind)),
      w.leases.set i { l with phase := .released }⟩ := by
  have hpos := h.counter_pos hl hphase
  -- an idle entry and no entry are the same state
  have hstate : ∀ (s : MasterKeyActivityState) key, s.reclaim = fence w.table l.key →
      state (update w.table l.key
        (if s.isQuiet = true ∧ (fence w.table l.key).isNone = true then none else some s)) key =
      if key = l.key then s else state w.table key := by
    intro s key hs
    split
    · next hidle =>
      rw [state_update_none]
      split
      · have hzero := hidle.1
        simp only [isQuiet, Bool.and_eq_true, decide_eq_true_eq] at hzero
        have hnone := Option.isNone_iff_eq_none.1 hidle.2
        cases s
        simp_all
      · rfl
    · rw [state_update_some]
  have hreclaim := (state w.table l.key).reclaim_setCounter
    ((state w.table l.key).counter l.kind - 1) l.kind
  refine ⟨fun key kind => ?_, fun key hfence => ?_, ?_⟩
  · have hheld := held_released (update w.table l.key
      (if ((state w.table l.key).setCounter ((state w.table l.key).counter l.kind - 1)
            l.kind).isQuiet = true ∧ (fence w.table l.key).isNone = true then none
        else some ((state w.table l.key).setCounter
          ((state w.table l.key).counter l.kind - 1) l.kind))) hl hphase key kind
    rw [hstate _ key hreclaim]
    rw [← h.count key kind] at hheld
    by_cases hkey : key = l.key
    · subst hkey
      rw [if_pos rfl, counter_setCounter]
      by_cases hkind : kind = l.kind
      · subst hkind
        simp only [and_self, if_true] at hheld ⊢
        omega
      · simp only [hkind, Ne.symm hkind, and_false, if_false] at hheld ⊢
        omega
    · simp only [hkey, Ne.symm hkey, false_and, if_false] at hheld ⊢
      omega
  · rw [fence, hstate _ key hreclaim] at hfence
    rw [hstate _ key hreclaim]
    by_cases hkey : key = l.key
    · rw [if_pos hkey, hreclaim] at hfence
      have hzero := (isQuiet_iff _).1 (h.quiet l.key hfence) l.kind
      omega
    · rw [if_neg hkey] at hfence ⊢
      exact h.quiet key hfence
  · apply h.noIdle.update
    intro s hs hidle
    split at hs
    · cases hs
    · next hbusy =>
      cases hs
      rw [hreclaim] at hidle
      exact hbusy ⟨hidle.1, Option.isNone_iff_eq_none.2 hidle.2⟩

theorem Exact.releaseTable : Exact (w.step (.releaseTable i)) := by
  simp only [step]
  split
  · next l hl =>
    split
    · next hphase =>
      have hunreleased : l.phase ≠ .released := by simp [hphase]
      rw [release_eq (h.counter_pos hl hunreleased)]
      exact h.released hl hunreleased
    · exact h
  · exact h

theorem Exact.install : Exact (w.step (.tryInstallReclaim item)) := by
  simp only [step]
  rcases hresult : w.table.tryInstallReclaim item with ⟨result, t⟩
  cases result with
  | ok u =>
    obtain ⟨hquiet, hfence, rfl⟩ := tryInstallReclaim_ok hresult
    refine ⟨fun key kind => ?_, fun key hne => ?_, ?_⟩
    · rw [state_update_some]
      by_cases hkey : key = item.key
      · rw [if_pos hkey, hkey]
        exact h.count item.key kind
      · rw [if_neg hkey]
        exact h.count key kind
    · rw [fence, state_update_some] at hne
      rw [state_update_some]
      by_cases hkey : key = item.key
      · rw [if_pos hkey]
        exact hquiet
      · rw [if_neg hkey] at hne ⊢
        exact h.quiet key hne
    · apply h.noIdle.update
      intro s hs hidle
      cases hs
      cases hidle.2
  | error snapshot =>
    have hstate := state_tryInstallReclaim_error hresult
    apply h.of_state hstate
    simp only [tryInstallReclaim] at hresult
    split at hresult
    · next hbusy =>
      rw [← (Prod.mk.inj hresult).2]
      apply h.noIdle.update
      intro s hs hidle
      cases hs
      have hzero := hidle.1
      simp only [isQuiet, Bool.and_eq_true, decide_eq_true_eq] at hzero
      simp [hzero, hidle.2] at hbusy
    · cases hresult

theorem Exact.clear : Exact (w.step (.clearReclaim item)) := by
  simp only [step]
  refine ⟨fun key kind => ?_, fun key hne => ?_, ?_⟩
  · rw [state_clearReclaim]
    split
    · exact h.count key kind
    · exact h.count key kind
  · rw [fence, state_clearReclaim] at hne
    rw [state_clearReclaim]
    by_cases hitem : key = item.key ∧ fence w.table key = some item
    · rw [if_pos hitem] at hne
      exact (hne rfl).elim
    · rw [if_neg hitem] at hne ⊢
      exact h.quiet key hne
  · unfold clearReclaim
    split
    · exact h.noIdle
    split
    · exact h.noIdle
    apply h.noIdle.update
    intro s' hs' hidle
    split at hs'
    · cases hs'
    · next hbusy =>
      cases hs'
      exact hbusy hidle.1

theorem Exact.step {e : ActivityEvent} : Exact (w.step e) := by
  cases e with
  | reserve key kind reject => exact h.reserve
  | releaseNow i => exact h.releaseNow
  | releaseTable i => exact h.releaseTable
  | tryInstallReclaim item => exact h.install
  | clearReclaim item => exact h.clear

/-! ## The fence -/

/-- Every step but the clearing of the very item leaves a fence in place. -/
theorem fence_step {e : ActivityEvent} (hfence : fence w.table key = some item)
    (he : e ≠ .clearReclaim item) : fence (w.step e).table key = some item := by
  cases e with
  | reserve key' kind reject =>
    have hpost := post_reserve key' kind reject w.table
    have hkeep : fence (update w.table key' (some (state w.table key'))) key = some item := by
      rw [fence, state_update_self]
      exact hfence
    simp only [ActivityWorld.step]
    split
    · next t heq =>
      have hgranted := hpost.of_ok heq
      simp only [hgranted.2, fence, state_update_some]
      split
      · next hkey =>
        rw [reclaim_setCounter, ← hkey]
        exact hfence
      · exact hfence
    · next t heq =>
      have hrefused := hpost.of_ok heq
      rw [hrefused.1]
      exact hkeep
    · next t heq =>
      rw [(hpost.of_error heq).1]
      exact hkeep
  | releaseNow i =>
    simp only [ActivityWorld.step]
    split <;> try split
    all_goals exact hfence
  | releaseTable i =>
    simp only [ActivityWorld.step]
    split
    · next l hl =>
      split
      · next hphase =>
        have hunreleased : l.phase ≠ .released := by simp [hphase]
        have hpos := h.counter_pos hl hunreleased
        rw [release_eq hpos]
        have hkey : key ≠ l.key := by
          intro hkey
          have hquiet := h.quiet key (by simp [hfence])
          have hzero := (isQuiet_iff _).1 hquiet l.kind
          rw [hkey] at hzero
          omega
        rw [← hfence]
        simp only [fence, state, update_of_ne hkey]
      · exact hfence
    · exact hfence
  | tryInstallReclaim item' =>
    simp only [ActivityWorld.step]
    rcases hresult : w.table.tryInstallReclaim item' with ⟨result, t⟩
    cases result with
    | ok u =>
      obtain ⟨-, hnone, rfl⟩ := tryInstallReclaim_ok hresult
      have hkey : key ≠ item'.key := by
        intro hkey
        rw [hkey, hnone] at hfence
        cases hfence
      simpa [fence, hkey] using hfence
    | error snapshot =>
      rw [fence, state_tryInstallReclaim_error hresult key]
      exact hfence
  | clearReclaim item' =>
    have hitem : item ≠ item' := by
      intro hitem
      exact he (by rw [hitem])
    have hother : ¬ (key = item'.key ∧ fence w.table key = some item') := by
      intro hboth
      rw [hfence] at hboth
      exact hitem (Option.some.inj hboth.2)
    simp only [ActivityWorld.step]
    rw [fence, state_clearReclaim, if_neg hother]
    exact hfence

end

/-! ## Runs -/

theorem exact_foldl (es : List ActivityEvent) : Exact (es.foldl ActivityWorld.step initial) := by
  have hrun : ∀ (es : List ActivityEvent) (w : ActivityWorld), Exact w →
      Exact (es.foldl ActivityWorld.step w) := by
    intro es
    induction es with
    | nil => exact fun w h => h
    | cons e es ih => exact fun w h => ih (w.step e) h.step
  exact hrun es initial exact_initial

/-- A fenced key refuses every reservation. -/
theorem reserve_fenced (hfence : fence t key = some item) (kind : MasterKeyActivityKind)
    (reject : Bool) : ∃ t', reserve key kind reject t = .ok false t' := by
  have hsome : (state t key).reclaim.isSome = true := by
    rw [← fence, hfence]
    rfl
  refine ⟨update t key (some (state t key)), ?_⟩
  have hpost : Post (reserve key kind reject) t
      (fun granted t' => granted = false ∧ t' = update t key (some (state t key)))
      (fun _ _ => False) := by
    simp only [reserve, post_bind, post_get, post_modify, hsome, if_true]
    exact ⟨rfl, rfl⟩
  obtain ⟨granted, t', heq, rfl, rfl⟩ := hpost.exists_ok
  exact heq

/-- **The activity table is a reader and reclaimer lock.** After any steps of any number of threads
on an empty table: the counters count the leases whose release the table has not seen; a fence is
installed only on a key with all counters zero and no fence; a fenced key grants no lease; a fence
goes away only by clearing its own item; a second release does nothing, and a first one does not
panic; and a key with neither activity nor a fence has no entry. -/
theorem key_activity_exact (es : List ActivityEvent) :
    let w := es.foldl ActivityWorld.step initial
    (∀ key kind, (state w.table key).counter kind = w.held key kind) ∧
    (∀ item t, w.table.tryInstallReclaim item = (.ok (), t) →
      (∀ kind, (state w.table item.key).counter kind = 0) ∧ fence w.table item.key = none) ∧
    (∀ key item kind reject, fence w.table key = some item →
      ∃ t, reserve key kind reject w.table = .ok false t) ∧
    (∀ key item e, fence w.table key = some item → fence (w.step e).table key ≠ some item →
      e = .clearReclaim item) ∧
    (∀ i l, w.leases[i]? = some l → (l.phase ≠ .live → w.step (.releaseNow i) = w) ∧
      (l.phase = .released → w.step (.releaseTable i) = w) ∧
      (l.phase ≠ .released → ∃ t, release l.key l.kind w.table = .ok () t)) ∧
    (∀ key, (∀ kind, (state w.table key).counter kind = 0) → fence w.table key = none →
      w.table key = none) := by
  intro w
  have h : Exact w := exact_foldl es
  refine ⟨h.count, ?_, ?_, ?_, ?_, ?_⟩
  · intro item t hok
    obtain ⟨hquiet, hfence, -⟩ := tryInstallReclaim_ok hok
    exact ⟨(isQuiet_iff _).1 hquiet, hfence⟩
  · intro key item kind reject hfence
    exact reserve_fenced hfence kind reject
  · intro key item e hfence hgone
    by_contra he
    exact hgone (fence_step h hfence he)
  · intro i l hl
    refine ⟨fun hphase => ?_, fun hphase => ?_, fun hphase => ?_⟩
    · simp only [ActivityWorld.step, hl, hphase, if_false]
    · simp [ActivityWorld.step, hl, hphase]
    · exact ⟨_, release_eq (h.counter_pos hl hphase)⟩
  · intro key hzero hfence
    cases hentry : w.table key with
    | none => rfl
    | some s =>
      have hstate := state_of_some hentry
      have hquiet := (isQuiet_iff _).2 hzero
      rw [hstate] at hquiet
      rw [fence, hstate] at hfence
      exact (h.noIdle key s hentry ⟨hquiet, hfence⟩).elim

end ActivityWorld

end Fluxon.Router
