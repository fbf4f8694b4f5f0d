import Fluxon.Foundations.Run
import Mathlib.Data.Nat.Notation

/-!
# The queue depth of the cache controller

`handle_suggest` counts a task after `try_send` has put it on the queue, and a worker counts it down
after it has taken it off, unless the count is zero. A worker that is faster than the caller finds
zero, and the late increment stays for good (`queueDepth_left_behind`). As long as no worker finds
zero, the count is right whenever nobody stands between the queue and the count
(`queueDepth_eq_length`).
-/

namespace Fluxon.CacheController

/-- The queue of stage tasks and its count. The single flight table decides who gets to `try_send`
and the staging what becomes of a task; neither touches the count. -/
structure StageQueue (T : Type) where
  stageQueue : List T
  queueDepth : ℕ
  /-- The calls of `handle_suggest` between `try_send` and `fetch_add`. -/
  enqueuing : ℕ
  /-- The workers between a receive and the decrement. -/
  dequeuing : ℕ
  deriving DecidableEq

inductive QueueEvent (T : Type)
  | trySend (task : T)
  | fetchAdd
  /-- The `recv` at the head of `stage_worker_loop`, or the `try_recv` that looks for a task to
  coalesce. -/
  | recv
  | checkedSub

namespace StageQueue

variable {T : Type} {capacity : ℕ} {q q' : StageQueue T}

def new : StageQueue T := ⟨[], 0, 0, 0⟩

def step (capacity : ℕ) (q : StageQueue T) : QueueEvent T → Option (StageQueue T)
  | .trySend task =>
    -- a full queue drops the task
    if q.stageQueue.length < capacity then
      some { q with stageQueue := q.stageQueue ++ [task], enqueuing := q.enqueuing + 1 }
    else some q
  | .fetchAdd =>
    match q.enqueuing with
    | 0 => none
    | enqueuing + 1 => some { q with queueDepth := q.queueDepth + 1, enqueuing }
  | .recv =>
    match q.stageQueue with
    | [] => none
    | _ :: stageQueue => some { q with stageQueue, dequeuing := q.dequeuing + 1 }
  | .checkedSub =>
    match q.dequeuing with
    | 0 => none
    -- `checked_sub` fails on zero, and the failure is ignored
    | dequeuing + 1 => some { q with queueDepth := q.queueDepth - 1, dequeuing }

def Step (capacity : ℕ) (q : StageQueue T) (e : QueueEvent T) (q' : StageQueue T) : Prop :=
  q.step capacity e = some q'

/-- No decrement finds zero. -/
def countGuard (q : StageQueue T) : QueueEvent T → Bool
  | .checkedSub => 0 < q.queueDepth
  | _ => true

abbrev CountedStep (capacity : ℕ) : StageQueue T → QueueEvent T → StageQueue T → Prop :=
  Guarded (fun q e => q.countGuard e = true) (Step capacity)

/-- Every task on the queue is counted, or about to be; so is every count of a task that is off. -/
def Balanced (q : StageQueue T) : Prop :=
  q.queueDepth + q.enqueuing = q.stageQueue.length + q.dequeuing

theorem Balanced.step {e : QueueEvent T} (h : q.Balanced) (hstep : q.CountedStep capacity e q') :
    q'.Balanced := by
  obtain ⟨hguard, hstep⟩ := hstep
  revert hstep
  unfold Balanced at h ⊢
  unfold Step
  fun_cases StageQueue.step capacity q e <;> rintro ⟨⟩
  · simp only [List.length_append, List.length_singleton]
    omega
  · exact h
  · dsimp only
    omega
  · next hqueue =>
    rw [hqueue, List.length_cons] at h
    dsimp only
    omega
  · have hpos : 0 < q.queueDepth := by simpa [countGuard] using hguard
    dsimp only
    omega

/-- **The queue depth is the length of the queue** in a run in which no decrement finds zero,
whenever no call and no worker stands between the queue and the count. -/
theorem queueDepth_eq_length {es : List (QueueEvent T)}
    (hrun : Run (CountedStep capacity) new es q) (hcalls : q.enqueuing = 0)
    (hworkers : q.dequeuing = 0) : q.queueDepth = q.stageQueue.length := by
  have hbalanced : q.Balanced := hrun.invariant (fun _ _ _ h hstep => h.step hstep) rfl
  rw [Balanced, hcalls, hworkers] at hbalanced
  exact hbalanced

/-- Two tasks are sent and counted, and one is taken. -/
theorem queueDepth_eq_length_two : ∃ q : StageQueue ℕ,
    Run (CountedStep 8) new [.trySend 1, .trySend 2, .fetchAdd, .fetchAdd, .recv, .checkedSub] q ∧
      q.stageQueue = [2] ∧ q.queueDepth = 1 := by
  obtain ⟨q, hrun, hqueue, hcalls, hworkers⟩ := Run.exists_guarded_of_foldlM (step 8) new
    [.trySend 1, .trySend 2, .fetchAdd, .fetchAdd, .recv, .checkedSub]
    (fun q : StageQueue ℕ => q.stageQueue = [2] ∧ q.enqueuing = 0 ∧ q.dequeuing = 0) countGuard
    (by decide)
  refine ⟨q, hrun, hqueue, ?_⟩
  rw [queueDepth_eq_length hrun hcalls hworkers, hqueue]
  rfl

/-- The worker takes the task and finds zero before the caller has counted it. -/
theorem queueDepth_left_behind : ∃ q : StageQueue ℕ,
    Run (Step 8) new [.trySend 1, .recv, .checkedSub, .fetchAdd] q ∧ q = ⟨[], 1, 0, 0⟩ :=
  Run.exists_of_foldlM (step 8) new _ _ (by decide)

end StageQueue

end Fluxon.CacheController
