import Fluxon.Foundations.Panic
import Mathlib.Data.Int.Notation
import Mathlib.Data.Nat.Notation
import Mathlib.Logic.Function.Basic

/-!
# The commit sequencer of a consumer

`CommitSequencer` lets the prefetch jobs of one consumer commit their consume offsets one at a
time, in the order of their sequence numbers, and remembers the first failure for good. The
progress table holds an entry for each job from its admission until it is pruned. Of an entry only
the flag that decides on pruning is kept: the times in it are read by latency reports alone.
-/

namespace Fluxon.Mq

open Call

/-- `MpscError`, with the variants that a consumer or a put can meet. -/
inductive MpscError
  | noMessage
  | etcd (source : String)
  | putPayloadNonRetryable
  | putPayloadUnknownCode (code : ℤ)
  | getPayloadNonRetryable (message : String)
  | deletePayloadNonRetryable (message : String)
  | internal (message : String)
  deriving DecidableEq

namespace MpscError

def code : MpscError → ℤ
  | noMessage => 1000
  | etcd _ => 2000
  | putPayloadNonRetryable => 3000
  | putPayloadUnknownCode _ => 3001
  | getPayloadNonRetryable _ => 4000
  | deletePayloadNonRetryable _ => 7000
  | internal _ => 9000

/-- The text of an error. -/
def text : MpscError → String
  | noMessage => "no new message available"
  | etcd source => s!"etcd error: {source}"
  | putPayloadNonRetryable => "put payload returned non-retryable error (code=2)"
  | putPayloadUnknownCode code => s!"put payload returned unknown code {code}"
  | getPayloadNonRetryable message => s!"get payload returned non-retryable: {message}"
  | deletePayloadNonRetryable message => s!"delete payload returned non-retryable: {message}"
  | internal message => s!"internal error: {message}"

end MpscError

structure CommitSequencerFailure where
  seq : ℕ
  sourceCode : ℤ
  sourceMessage : String
  deriving DecidableEq

def CommitSequencerFailure.asError (f : CommitSequencerFailure) : MpscError := .internal
    s!"commit sequencer failed: seq={f.seq} source_code={f.sourceCode} source={f.sourceMessage}"

/-- An entry of the progress table. -/
structure CommitSeqProgress where
  popped : Bool
  deriving DecidableEq

structure CommitSequencer where
  nextSeq : ℕ := 0
  failure : Option CommitSequencerFailure := none
  progress : ℕ → Option CommitSeqProgress := fun _ => none

def commitProgressRetention : ℕ := 1024

namespace CommitSequencer

/-- `ensure_running`. -/
def ensureRunning (q : CommitSequencer) : Except MpscError Unit :=
  match q.failure with
  | some failure => .error failure.asError
  | none => .ok ()

/-- `next_seq_if_running`. -/
def nextSeqIfRunning (q : CommitSequencer) : Except MpscError ℕ :=
  match q.failure with
  | some failure => .error failure.asError
  | none => .ok q.nextSeq

section

variable (seq : ℕ)

/-- `begin_payload`: the entry is written before the check that it was not there. -/
def beginPayload : Call CommitSequencer (Except MpscError Unit) := do
  let q ← get
  match q.failure with
  | some failure => return .error failure.asError
  | none =>
    modify fun q => { q with progress := Function.update q.progress seq (some ⟨false⟩) }
    require (q.progress seq = none) s!"duplicate commit progress registration for seq={seq}"
    return .ok ()

/-- Rewrite the entry of a job, which is expected to be there. -/
def markProgress (stage : String) (f : CommitSeqProgress → CommitSeqProgress) :
    Call CommitSequencer Unit := do
  let entry ← expect ((← get).progress seq) s!"missing commit progress for {stage} seq={seq}"
  modify fun q => { q with progress := Function.update q.progress seq (some (f entry)) }

def markWaitTurnBegin : Call CommitSequencer Unit := markProgress seq "wait_turn" id

def markCommitBegin : Call CommitSequencer Unit := markProgress seq "commit" id

def markReadyToAdvance : Call CommitSequencer Unit := markProgress seq "ready" id

def markPopped : Call CommitSequencer Unit := markProgress seq "popped" fun _ => ⟨true⟩

/-- `fail`: only the first failure is recorded. -/
def fail (error : MpscError) : Call CommitSequencer Unit := do
  modify fun q => { q with failure := q.failure.or (some ⟨seq, error.code, error.text⟩) }
  markProgress seq "failed" id

end

/-- The entries that `advance` keeps. -/
def retained (q : CommitSequencer) (seq : ℕ) : Option CommitSeqProgress :=
  (q.progress seq).filter fun entry => q.nextSeq - commitProgressRetention ≤ seq || !entry.popped

/-- `advance`. -/
def advance (seq : ℕ) : Call CommitSequencer Unit := do
  let prev := (← get).nextSeq
  require (prev = seq)
    s!"commit sequencer advanced unexpected seq: expected={seq} actual={prev}"
  modify fun q => { q with nextSeq := q.nextSeq + 1 }
  markProgress prev "advance" id
  modify fun q => { q with progress := q.retained }

/-! ## What the calls do -/

variable {q : CommitSequencer} {seq : ℕ} {entry : CommitSeqProgress}

section

variable (h : q.progress seq = some entry)
include h

theorem markProgress_eq {stage : String} {f : CommitSeqProgress → CommitSeqProgress} :
    markProgress seq stage f q =
      .ok () { q with progress := Function.update q.progress seq (some (f entry)) } := by
  apply Post.eq_ok
  simp only [markProgress, post_bind, post_get, post_expect, post_modify, h]
  simp

/-- Marking an entry with its own value changes nothing. -/
theorem markProgress_id_eq (stage : String) : markProgress seq stage id q = .ok () q := by
  rw [markProgress_eq h, id_eq, ← h, Function.update_eq_self]

theorem markWaitTurnBegin_eq : markWaitTurnBegin seq q = .ok () q :=
  markProgress_id_eq h "wait_turn"

theorem markCommitBegin_eq : markCommitBegin seq q = .ok () q := markProgress_id_eq h "commit"

theorem markReadyToAdvance_eq : markReadyToAdvance seq q = .ok () q := markProgress_id_eq h "ready"

theorem markPopped_eq : markPopped seq q =
      .ok () { q with progress := Function.update q.progress seq (some ⟨true⟩) } :=
  markProgress_eq h

end

theorem beginPayload_failed {failure : CommitSequencerFailure} (h : q.failure = some failure) :
    beginPayload seq q = .ok (.error failure.asError) q := by
  apply Post.eq_ok
  simp only [beginPayload, post_bind, post_get, h, post_pure, and_self]

theorem beginPayload_eq (h : q.failure = none) (hfresh : q.progress seq = none) :
    beginPayload seq q =
      .ok (.ok ()) { q with progress := Function.update q.progress seq (some ⟨false⟩) } := by
  apply Post.eq_ok
  simp only [beginPayload, post_bind, post_get, h, post_modify, post_require, post_pure]
  simp [hfresh]

theorem fail_eq {error : MpscError} (h : q.progress seq = some entry) : fail seq error q =
      .ok () { q with failure := q.failure.or (some ⟨seq, error.code, error.text⟩) } := by
  apply Post.eq_ok
  have hmark := markProgress_id_eq (q := { q with
    failure := q.failure.or (some ⟨seq, error.code, error.text⟩) }) h "failed"
  simp only [fail, post_bind, post_modify]
  simp only [Post, hmark, and_self]

theorem advance_eq (hseq : q.nextSeq = seq) (h : q.progress seq = some entry) : advance seq q =
      .ok () { q with
        nextSeq := seq + 1
        progress := retained { q with nextSeq := seq + 1 } } := by
  subst hseq
  apply Post.eq_ok
  have hmark := markProgress_id_eq (q := { q with nextSeq := q.nextSeq + 1 }) h "advance"
  simp only [advance, post_bind, post_get, post_require, post_modify, forall_true_left,
    not_true_eq_false, false_implies, and_true]
  simp only [Post, hmark, and_self]

/-- The mark that a job sets before it advances changes nothing. -/
theorem ready_advance_eq (hseq : q.nextSeq = seq) (h : q.progress seq = some entry) : (do
      markReadyToAdvance seq
      advance seq : Call CommitSequencer Unit) q =
      .ok () { q with
        nextSeq := seq + 1
        progress := retained { q with nextSeq := seq + 1 } } := by
  change EStateM.bind _ _ _ = _
  rw [EStateM.bind, markReadyToAdvance_eq h]
  exact advance_eq hseq h

/-- An entry that no call has popped survives an advance. -/
theorem retained_of_not_popped (h : q.progress seq = some ⟨false⟩) :
    q.retained seq = some ⟨false⟩ := by
  simp [retained, h]

/-- The entry of a job that is still to commit survives an advance. -/
theorem retained_of_le (h : q.progress seq = some entry) (hle : q.nextSeq ≤ seq) :
    q.retained seq = some entry := by
  have hkeep : q.nextSeq - commitProgressRetention ≤ seq := Nat.le_trans (Nat.sub_le _ _) hle
  simp [retained, h, hkeep]

theorem retained_of_none (h : q.progress seq = none) : q.retained seq = none := by
  simp [retained, h]

end CommitSequencer

end Fluxon.Mq
