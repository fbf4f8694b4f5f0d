import Fluxon.Foundations.Panic
import Fluxon.Router.Route

/-!
# Key activity of the master

`MasterKeyActivityTable`: for every key the puts, gets and replica tasks that are in flight, and
the reclaim fence. A fence is installed only on a key without activity (`tryInstallReclaim`), and
while it is installed no activity is admitted (`reserve`). A fence is cleared by its own item only.
-/

namespace Fluxon.Router

open Call Function

inductive MasterKeyActivityKind
  | put
  | get
  | replica
  deriving DecidableEq

structure MasterKeyActivityState where
  puts : ℕ := 0
  gets : ℕ := 0
  replicas : ℕ := 0
  reclaim : Option OwnerReclaimItem := none
  deriving DecidableEq

namespace MasterKeyActivityState

variable (s : MasterKeyActivityState)

def counter : MasterKeyActivityKind → ℕ
  | .put => s.puts
  | .get => s.gets
  | .replica => s.replicas

def setCounter (n : ℕ) : MasterKeyActivityKind → MasterKeyActivityState
  | .put => { s with puts := n }
  | .get => { s with gets := n }
  | .replica => { s with replicas := n }

/-- No activity is in flight. -/
def isQuiet : Bool := s.puts = 0 && s.gets = 0 && s.replicas = 0

end MasterKeyActivityState

structure MasterKeyActivitySnapshot where
  puts : ℕ
  gets : ℕ
  replicas : ℕ
  reclaimInstalled : Bool
  deriving DecidableEq

/-- `MasterKeyActivityTable`. -/
abbrev MasterKeyActivityTable := String → Option MasterKeyActivityState

namespace MasterKeyActivityTable

/-- The state of a key; `entry(key).or_default()`. -/
def state (t : MasterKeyActivityTable) (key : String) : MasterKeyActivityState := (t key).getD {}

/-- `reserve`: whether a lease is granted. -/
def reserve (key : String) (kind : MasterKeyActivityKind) (rejectSameKindIfActive : Bool) :
    Call MasterKeyActivityTable Bool := do
  let s := state (← get) key
  modify fun t => update t key (some s)
  if s.reclaim.isSome then return false
  if rejectSameKindIfActive ∧ s.counter kind > 0 then return false
  let n ← expect (checkedAdd32 (s.counter kind) 1) "master per-key activity counter overflow"
  modify fun t => update t key (some (s.setCounter n kind))
  return true

/-- `release`. -/
def release (key : String) (kind : MasterKeyActivityKind) : Call MasterKeyActivityTable Unit := do
  let s ← expect ((← get) key) "master per-key activity state missing on release"
  let n ← expect (checkedSub (s.counter kind) 1) "master per-key activity counter underflow"
  let s := s.setCounter n kind
  modify fun t => update t key (if s.isQuiet ∧ s.reclaim.isNone then none else some s)

section

variable (t : MasterKeyActivityTable)

/-- `try_install_reclaim`. -/
def tryInstallReclaim (item : OwnerReclaimItem) :
    Except MasterKeyActivitySnapshot Unit × MasterKeyActivityTable :=
  let s := state t item.key
  if s.puts ≠ 0 ∨ s.gets ≠ 0 ∨ s.replicas ≠ 0 ∨ s.reclaim.isSome then
    (.error ⟨s.puts, s.gets, s.replicas, s.reclaim.isSome⟩, update t item.key (some s))
  else (.ok (), update t item.key (some { s with reclaim := some item }))

/-- `clear_reclaim`. -/
def clearReclaim (item : OwnerReclaimItem) :
    Bool × MasterKeyActivityTable :=
  match t item.key with
  | none => (false, t)
  | some s =>
    if s.reclaim ≠ some item then (false, t)
    else (true, update t item.key (if s.isQuiet then none else some { s with reclaim := none }))

/-! ## States and fences -/

/-- The reclaim fence of a key. -/
def fence (key : String) : Option OwnerReclaimItem :=
  (state t key).reclaim

@[simp] theorem state_update_some (key : String) (s : MasterKeyActivityState) (key' : String) :
    state (update t key (some s)) key' = if key' = key then s else state t key' := by
  by_cases h : key' = key
  · simp [state, h]
  · simp [state, h]

@[simp] theorem state_update_none (key key' : String) :
    state (update t key none) key' = if key' = key then {} else state t key' := by
  by_cases h : key' = key
  · simp [state, h]
  · simp [state, h]

end

variable {t t' : MasterKeyActivityTable} {item : OwnerReclaimItem}

theorem state_of_some {key : String} {s : MasterKeyActivityState} (h : t key = some s) :
    state t key = s := by
  simp [state, h]

/-- An installation goes through on a quiet key without a fence, and then the fence is there. -/
theorem tryInstallReclaim_ok (h : t.tryInstallReclaim item = (.ok (), t')) :
    (state t item.key).isQuiet = true ∧ fence t item.key = none ∧
      t' = update t item.key (some { state t item.key with reclaim := some item }) := by
  simp only [tryInstallReclaim] at h
  split at h
  · cases h
  · next hquiet =>
    simp only [not_or, ne_eq, not_not, Option.not_isSome_iff_eq_none] at hquiet
    have ht' := (Prod.mk.inj h).2
    refine ⟨?_, hquiet.2.2.2, ht'.symm⟩
    simp [MasterKeyActivityState.isQuiet, hquiet]

/-- A refused installation changes no state. -/
theorem state_tryInstallReclaim_error {snapshot : MasterKeyActivitySnapshot}
    (h : t.tryInstallReclaim item = (.error snapshot, t')) (key : String) :
    state t' key = state t key := by
  simp only [tryInstallReclaim] at h
  split at h
  · have ht' := (Prod.mk.inj h).2
    rw [← ht', state_update_some]
    split
    · next hkey => rw [hkey]
    · rfl
  · cases h

/-- Clearing changes the fence of the item's key if it is the item's, and nothing else. -/
theorem state_clearReclaim (t : MasterKeyActivityTable) (item : OwnerReclaimItem) (key : String) :
    state (t.clearReclaim item).2 key =
      if key = item.key ∧ fence t key = some item then { state t key with reclaim := none }
      else state t key := by
  by_cases hkey : key = item.key
  · subst hkey
    fun_cases clearReclaim t item
    · next hs => simp [fence, state, hs]
    · next s hs hfence => simp [fence, state, hs, hfence]
    · next s hs hfence =>
      by_cases hquiet : s.isQuiet = true
      · have hzero := hquiet
        simp only [MasterKeyActivityState.isQuiet, Bool.and_eq_true, decide_eq_true_eq] at hzero
        simp [fence, state, hs, not_not.1 hfence, hquiet, hzero]
      · simp [fence, state, hs, not_not.1 hfence, hquiet]
  · fun_cases clearReclaim t item <;> simp [hkey, state]

end MasterKeyActivityTable

end Fluxon.Router
