import Fluxon.Foundations.Run
import Mathlib.Data.Nat.Notation
import Mathlib.Logic.Function.Basic

/-!
# A map that cleans itself

`AutoCleanMap` holds weak references: the guards it returns hold the entry of a key, and the drop of
the last guard removes it. A drop first checks, under the lock of the map, that it has the only
reference, and gives its reference up after that. Two guards that are dropped at once both see the
reference of the other, and the entry is left behind (`entry_left_behind`). If nothing is looked up
or dropped for a key in the middle of a drop, a key has one value and no entry without a guard
(`one_value_and_clean`).
-/

namespace Fluxon.Util

open List

/-- A guard, with the version of the value it holds. Its drop has begun or not. -/
structure AutoCleanMapEntry (K : Type) where
  key : K
  versionId : ℕ
  dropping : Bool
  deriving DecidableEq

/-- The versions in the map, and the guards that hold a reference. -/
structure AutoCleanMap (K : Type) where
  inner : K → Option ℕ
  nextVersion : ℕ
  guards : List (AutoCleanMapEntry K)

/-- What a thread does under the lock of the map or to a reference count. -/
inductive MapEvent (K : Type)
  | getOrInitWith (k : K)
  | clone (k : K) (v : ℕ)
  | removeIf (k : K) (v : ℕ)
  | release (k : K) (v : ℕ)

namespace AutoCleanMap

variable {K : Type} [DecidableEq K]

def new : AutoCleanMap K := ⟨fun _ => none, 0, []⟩

section

variable (m : AutoCleanMap K)

def strongCount (k : K) (v : ℕ) : ℕ :=
  m.guards.countP fun g => g.key = k ∧ g.versionId = v

/-- The weak reference of the key is upgraded, or the value of a new version takes its place. -/
def getOrInitWith (k : K) : AutoCleanMap K :=
  match (m.inner k).filter fun v => 0 < m.strongCount k v with
  | some v => { m with guards := ⟨k, v, false⟩ :: m.guards }
  | none => ⟨Function.update m.inner k (some m.nextVersion), m.nextVersion + 1,
      ⟨k, m.nextVersion, false⟩ :: m.guards⟩

def step : MapEvent K → Option (AutoCleanMap K)
  | .getOrInitWith k => some (m.getOrInitWith k)
  | .clone k v =>
    if ⟨k, v, false⟩ ∈ m.guards then some { m with guards := ⟨k, v, false⟩ :: m.guards } else none
  | .removeIf k v =>
    if ⟨k, v, false⟩ ∈ m.guards then
      some { m with
        inner := if m.inner k = some v ∧ m.strongCount k v = 1 then Function.update m.inner k none
          else m.inner
        guards := ⟨k, v, true⟩ :: m.guards.erase ⟨k, v, false⟩ }
    else none
  | .release k v =>
    if ⟨k, v, true⟩ ∈ m.guards then some { m with guards := m.guards.erase ⟨k, v, true⟩ } else none

abbrev Step (e : MapEvent K) (m' : AutoCleanMap K) : Prop := m.step e = some m'

/-- A value is looked up, or a drop begun, when no drop of the key has begun. -/
def Alone : MapEvent K → Prop
  | .getOrInitWith k | .removeIf k _ => ∀ v, ⟨k, v, true⟩ ∉ m.guards
  | _ => True

end

/-- **Two drops at once.** Each of the two guards sees two references. -/
theorem entry_left_behind : ∃ (es : List (MapEvent Unit)) (m : AutoCleanMap Unit),
    Run Step new es m ∧ m.guards = [] ∧ m.inner () = some 0 := by
  obtain ⟨m, hrun, hm⟩ := Run.exists_of_foldlM step new [.getOrInitWith (), .clone () 0,
    .removeIf () 0, .removeIf () 0, .release () 0, .release () 0]
    (fun m => m.guards = [] ∧ m.inner () = some 0) (by decide +kernel)
  exact ⟨_, m, hrun, hm⟩

variable {m m' : AutoCleanMap K} {e : MapEvent K} {k : K} {v : ℕ}

/-- The entries are those of the guards whose drop has not begun, and a key has one version. -/
structure Clean (m : AutoCleanMap K) : Prop where
  inner_iff : ∀ {k v}, m.inner k = some v ↔ ⟨k, v, false⟩ ∈ m.guards
  same : ∀ {k v b v' b'}, ⟨k, v, b⟩ ∈ m.guards → ⟨k, v', b'⟩ ∈ m.guards → v = v'

omit [DecidableEq K] in
/-- Another guard for an entry. -/
theorem Clean.clone (h : m.Clean) (hmem : ⟨k, v, false⟩ ∈ m.guards) :
    Clean { m with guards := ⟨k, v, false⟩ :: m.guards } := by
  have hiff : ∀ g, g ∈ (⟨k, v, false⟩ :: m.guards : List (AutoCleanMapEntry K)) ↔ g ∈ m.guards := by
    simp [hmem]
  exact ⟨h.inner_iff.trans (hiff _).symm, fun hv hv' => h.same ((hiff _).1 hv) ((hiff _).1 hv')⟩

section

variable (halone : ∀ v, ⟨k, v, true⟩ ∉ m.guards)
include halone

theorem Clean.getOrInitWith (h : m.Clean) : (m.getOrInitWith k).Clean := by
  unfold AutoCleanMap.getOrInitWith
  cases hk : m.inner k with
  | some v =>
    have hmem := h.inner_iff.1 hk
    have hpos : 0 < m.strongCount k v := countP_pos_iff.2 ⟨_, hmem, by simp⟩
    simpa [Option.filter, hpos] using h.clone hmem
  | none =>
    have hnone : ∀ v b, ⟨k, v, b⟩ ∉ m.guards := fun v b hv => by
      cases b with
      | true => exact halone v hv
      | false => cases hk.symm.trans (h.inner_iff.2 hv)
    simp only [Option.filter_none]
    refine ⟨fun {k' v} => ?_, fun {k' v b v' b'} hv hv' => ?_⟩
    · by_cases hk' : k' = k
      · simp [hk', hnone, eq_comm]
      · simp [hk', h.inner_iff]
    · by_cases hk' : k' = k
      · simp [hk', hnone] at hv hv'
        omega
      · simp only [mem_cons, AutoCleanMapEntry.mk.injEq, hk', false_and, false_or] at hv hv'
        exact h.same hv hv'

/-- The count is one if and only if the guard was the only one. -/
theorem strongCount_eq_one (hmem : ⟨k, v, false⟩ ∈ m.guards) :
    m.strongCount k v = 1 ↔ ⟨k, v, false⟩ ∉ m.guards.erase ⟨k, v, false⟩ := by
  rw [strongCount, (perm_cons_erase hmem).countP_eq, countP_cons_of_pos (by simp),
    Nat.add_eq_right, countP_eq_zero]
  refine ⟨fun hzero hv => hzero _ hv (by simp), fun hv g hg hkey => ?_⟩
  obtain ⟨k', v', b⟩ := g
  obtain ⟨rfl, rfl⟩ : k' = k ∧ v' = v := by simpa using hkey
  cases b with
  | true => exact halone _ (mem_of_mem_erase hg)
  | false => exact hv hg

theorem Clean.removeIf (h : m.Clean) (hmem : ⟨k, v, false⟩ ∈ m.guards) : Clean { m with
      inner := if m.inner k = some v ∧ m.strongCount k v = 1 then Function.update m.inner k none
        else m.inner
      guards := ⟨k, v, true⟩ :: m.guards.erase ⟨k, v, false⟩ } := by
  have hold : ∀ {k' v' b}, ⟨k', v', b⟩ ∈ ⟨k, v, true⟩ :: m.guards.erase ⟨k, v, false⟩ →
      ∃ b, ⟨k', v', b⟩ ∈ m.guards := fun {k' v' b} hv => by
    rcases mem_cons.1 hv with heq | hv
    · cases heq
      exact ⟨_, hmem⟩
    · exact ⟨b, mem_of_mem_erase hv⟩
  have hone := strongCount_eq_one halone hmem
  refine ⟨fun {k' v'} => ?_, fun hv hv' => ?_⟩
  · have hinner := h.inner_iff.2 hmem
    by_cases hself : ⟨k', v', false⟩ = (⟨k, v, false⟩ : AutoCleanMapEntry K)
    · cases hself
      by_cases hlast : m.strongCount k v = 1
      · simp [hinner, hlast, hone.1 hlast]
      · simp [hinner, hlast, not_not.1 (mt hone.2 hlast)]
    rw [mem_cons, mem_erase_of_ne hself, ← h.inner_iff]
    by_cases hk : k' = k
    · subst hk
      have hne : m.inner k' ≠ some v' := fun hv =>
        hself (by rw [Option.some.inj (hv.symm.trans hinner)])
      split <;> simp [hne]
    · split <;> simp [hk]
  · obtain ⟨_, hv⟩ := hold hv
    obtain ⟨_, hv'⟩ := hold hv'
    exact h.same hv hv'

end

theorem Clean.step (h : m.Clean) (halone : m.Alone e) (hstep : Step m e m') : m'.Clean := by
  cases e with
  | getOrInitWith k =>
    cases hstep
    exact h.getOrInitWith halone
  | clone k v =>
    obtain ⟨hmem, rfl⟩ : _ ∧ _ := by simpa [Step, AutoCleanMap.step] using hstep
    exact h.clone hmem
  | removeIf k v =>
    obtain ⟨hmem, rfl⟩ : _ ∧ _ := by simpa [Step, AutoCleanMap.step] using hstep
    exact h.removeIf halone hmem
  | release k v =>
    obtain ⟨hmem, rfl⟩ : _ ∧ _ := by simpa [Step, AutoCleanMap.step] using hstep
    refine ⟨h.inner_iff.trans (mem_erase_of_ne (by simp)).symm, fun hv hv' => ?_⟩
    exact h.same (mem_of_mem_erase hv) (mem_of_mem_erase hv')

/-- **One value, and no entry without a guard.** -/
theorem one_value_and_clean {es : List (MapEvent K)} (hrun : Run (Guarded Alone Step) new es m) :
    (∀ g ∈ m.guards, ∀ g' ∈ m.guards, g.key = g'.key → g.versionId = g'.versionId) ∧
      ∀ k, (∀ g ∈ m.guards, g.key ≠ k) → m.inner k = none := by
  have h : m.Clean := hrun.invariant (fun _ _ _ h hstep => h.step hstep.1 hstep.2)
    ⟨by simp [new], by simp [new]⟩
  refine ⟨?_, fun k hk => Option.eq_none_iff_forall_ne_some.2 fun v hv => ?_⟩
  · rintro ⟨k, v, b⟩ hg ⟨_, v', b'⟩ hg' rfl
    exact h.same hg hg'
  · exact hk _ (h.inner_iff.1 hv) rfl

/-- A guard is returned and cloned, and both are dropped. -/
theorem one_value_and_clean_dropped : ∃ m : AutoCleanMap Unit, Run (Guarded Alone Step) new
    [.getOrInitWith (), .clone () 0, .removeIf () 0, .release () 0, .removeIf () 0,
      .release () 0] m ∧ m.inner () = none := by
  have hrun : Run (Guarded Alone Step) (new : AutoCleanMap Unit)
      [.getOrInitWith (), .clone () 0, .removeIf () 0, .release () 0, .removeIf () 0,
        .release () 0] ⟨_, 1, []⟩ :=
    .cons ⟨by simp [Alone, new], rfl⟩ (.cons ⟨trivial, rfl⟩
      (.cons ⟨by simp [Alone, getOrInitWith, new], rfl⟩ (.cons ⟨trivial, rfl⟩
        (.cons ⟨by simp [Alone, getOrInitWith, new], rfl⟩ (.single ⟨trivial, rfl⟩)))))
  exact ⟨_, hrun, (one_value_and_clean hrun).2 () (by simp)⟩

end AutoCleanMap

end Fluxon.Util
