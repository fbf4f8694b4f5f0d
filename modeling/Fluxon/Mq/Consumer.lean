import Fluxon.Foundations.Run
import Fluxon.Mq.Actor
import Fluxon.Mq.Sequencer

/-!
# A consumer with its prefetch jobs

The consumer actor, its prefetch jobs, the caller of `get_with_payload_wait_timeout` and the
consume offsets in etcd, cut into the steps that others can come between. These are the awaits of
the actor, and for a job its accesses to the sequencer, its payload callback and the two ends of
an etcd put: the put takes effect, or it does not, before it returns.

* What the actor reads of the produce offsets comes with the event: a batch from the watch, a scan
  or a probe may be late, repeated or out of order. Consume offsets are read from etcd, and a probe
  may miss them.
* The selector is reduced to its result: some ready producer. Its list is rebuilt from the ready
  set whenever that changes.
* Job `i` of the list has sequence number `i`.

`snapshot`, `observed`, `handedOut`, `commits` and `returned` are not in the source. They record
the consume offsets of the first snapshot, the produce offsets that have reached the actor, the
messages that `select_next_message` has returned, the jobs whose put took effect, and what the
calls that have popped an item returned.
-/

namespace Fluxon.Mq

open CommitSequencer

inductive PayloadResult (α : Type)
  | ok (obj : α)
  | retryable (msg : String)
  | nonRetryable (msg : String)
  deriving DecidableEq

inductive DeleteResult
  | ok
  | retryable (msg : String)
  | nonRetryable (msg : String)
  deriving DecidableEq

structure FetchedPayload (α : Type) where
  producerId : String
  consumeOffset : ℕ
  payload : α
  deriving DecidableEq

structure ConsumedPayload (α : Type) where
  producerId : String
  payload : α
  deriving DecidableEq

structure InflightItem where
  seq : ℕ
  producerId : String
  consumeOffset : ℕ
  deriving DecidableEq

/-- The capacity of the prefetch queue. -/
def inflightCapacity : ℕ := 32

/-! ## Threads -/

/-- What the actor is doing. -/
inductive ActorPhase
  /-- At the top of the loop, or waiting with a timeout. -/
  | idle
  | refreshProduce
  | refreshConsume (produceOffsets : Table String ℤ)
  | refreshMeta (consumeOffsets : Table String ℕ)
  | selecting
  | probing (pending : Finset String) (probed : List (String × SingleProducerOffsets))
  | picking
  | selected (producerId : String) (consumeOffset : ℕ)
  | admitting (seq : ℕ) (producerId : String) (consumeOffset : ℕ)
  | enqueueing (item : InflightItem)
  /-- There was no message, and the actor waits for an input without a timeout. -/
  | waitInputs
  | stopped
  | panicked (msg : String)

/-- Where a prefetch job is. -/
inductive JobPhase (α : Type)
  | spawned
  | payload
  | waitTurn (fetched : FetchedPayload α)
  /-- In the put of the consume offset; whether this attempt has taken effect. -/
  | commit (fetched : FetchedPayload α) (applied : Bool)
  | retrySleep (fetched : FetchedPayload α)
  | readyToAdvance (fetched : FetchedPayload α)
  /-- The result is an error that the sequencer does not know yet. -/
  | failed (error : MpscError)
  | finished (result : Except MpscError (FetchedPayload α))
  | panicked (msg : String)

/-- A prefetch job; `payloadFailed` records that its payload fetch has failed. -/
structure Job (α : Type) where
  seq : ℕ
  producerId : String
  consumeOffset : ℕ
  phase : JobPhase α
  payloadFailed : Bool := false

/-- A job that has been admitted. -/
def Job.spawn {α : Type} (seq : ℕ) (producerId : String) (consumeOffset : ℕ) : Job α :=
  { seq, producerId, consumeOffset, phase := .spawned }

/-- Where a call is. -/
inductive CallerPhase (α : Type)
  | idle
  | waiting
  | awaiting (item : InflightItem)
  | deleting (item : InflightItem) (fetched : FetchedPayload α)
  | panicked (msg : String)

/-- A consumer, with what has been observed of it. -/
structure Consumer (α : Type) where
  actor : ConsumerActor := {}
  phase : ActorPhase := .idle
  payloadCb : Bool := false
  commitSeq : CommitSequencer := {}
  nextPrefetchSeq : ℕ := 0
  jobs : List (Job α) := []
  inflight : List InflightItem := []
  inflightQueueSize : ℕ := 0
  targetInflight : ℕ := 0
  deleteCb : Bool
  caller : CallerPhase α := .idle
  shutdown : Bool := false
  /-- The consume offsets in etcd. -/
  consumeOffsets : Table String ℕ
  snapshot : Option (Table String ℕ) := none
  observed : List (String × ℤ) := []
  handedOut : List (String × ℕ) := []
  commits : List ℕ := []
  returned : List (ℕ × Except MpscError (ConsumedPayload α)) := []

/-- The inputs and the steps of the actor. -/
inductive ActorEvent
  | setCallback
  | metaSet (set : List String)
  | produceOffset (updates : List (String × ℤ))
  | stop
  | tryPrefetchOne
  | refreshProduce (scan : Except MpscError (Table String ℤ))
  | refreshConsume (error : Option MpscError)
  | refreshMeta (scan : Except MpscError (List String))
  | select
  | probe (producerId : String) (produceOffset : Option ℤ) (missing : Bool)
  | probeFail
  | probeDone
  | pick (producerId : String)
  | ensureRunning
  | beginPayload
  | enqueue

/-- The steps of a job. -/
inductive JobEvent (α : Type)
  | start
  | fetch (result : PayloadResult α)
  | waitTurn
  | putEffect
  | putOk
  | putError
  | retry
  | advance
  | closed
  | fail

/-- The steps of a call. -/
inductive CallerEvent
  | call (prefetchTarget : ℕ)
  | timeout
  | closed
  | pop
  | result
  | delete (result : DeleteResult)
  | deleteClosed

/-- A step of one of the threads. -/
inductive ConsumerEvent (α : Type)
  | actor (e : ActorEvent)
  | job (i : ℕ) (e : JobEvent α)
  | caller (e : CallerEvent)
  | shutdown

namespace Consumer

variable {α : Type}

/-! ## Steps -/

variable (s : Consumer α)

/-- The actor takes an input at the top of its loop and while it waits. -/
def takesInput : Bool :=
  match s.phase with
  | .idle | .waitInputs => true
  | _ => false

/-- The gates of `prefetch_tick` before `try_prefetch_one`. -/
def mayPrefetch : Bool :=
  s.payloadCb && s.targetInflight ≠ 0 && s.inflightQueueSize < s.targetInflight

/-- The actor takes a step. -/
def stepActor : ActorEvent → Option (Consumer α)
  | .setCallback =>
    if s.takesInput then some { s with payloadCb := true, phase := .idle } else none
  | .metaSet set =>
    if s.takesInput then some { s with actor := s.actor.handleMetaMsg set, phase := .idle }
    else none
  | .produceOffset updates =>
    if s.takesInput then
      some { s with
        actor := s.actor.handleProduceOffsetMsg updates
        phase := .idle
        observed := s.observed ++ updates }
    else none
  | .stop =>
    if s.takesInput ∧ (s.shutdown ∨ s.commitSeq.failure.isSome) then
      some { s with phase := .stopped }
    else none
  | .tryPrefetchOne =>
    match s.phase with
    | .idle =>
      if s.mayPrefetch then
        if s.shutdown then some s
        else
          match s.commitSeq.ensureRunning with
          | .error _ => some s
          | .ok () =>
            match s.actor.offsetSnapshotState with
            | .pending => some { s with phase := .refreshProduce }
            | .initialized => some { s with phase := .selecting }
      else none
    | _ => none
  | .refreshProduce scan =>
    match s.phase with
    | .refreshProduce =>
      match scan with
      | .error _ => some { s with phase := .idle }
      | .ok produceOffsets => some { s with phase := .refreshConsume produceOffsets }
    | _ => none
  | .refreshConsume error =>
    match s.phase with
    | .refreshConsume produceOffsets =>
      match error with
      | some _ => some { s with phase := .idle }
      | none =>
        some { s with
          actor := s.actor.mergeOffsets produceOffsets s.consumeOffsets
          phase := .refreshMeta s.consumeOffsets
          observed := s.observed ++ produceOffsets.entries.map fun e => (e.1, e.2) }
    | _ => none
  | .refreshMeta scan =>
    match s.phase with
    | .refreshMeta consumeOffsets =>
      match scan with
      | .error _ => some { s with phase := .idle }
      | .ok set =>
        some { s with
          actor :=
            { ({ s.actor with producerMetaCache := set } : ConsumerActor).rebuildReadyStateFromCaches
              with offsetSnapshotState := .initialized }
          phase := .selecting
          snapshot := some consumeOffsets }
    | _ => none
  | .select =>
    match s.phase with
    | .selecting =>
      if s.actor.readyProducers = ∅ then
        if s.actor.staleNoRoomProducers = ∅ then some { s with phase := .waitInputs }
        else some { s with phase := .probing s.actor.staleNoRoomProducers [] }
      else some { s with phase := .picking }
    | _ => none
  | .probe p produceOffset missing =>
    match s.phase with
    | .probing pending probed =>
      if p ∈ pending then
        let consumeOffset := if missing then none else s.consumeOffsets.lookup p
        some { s with
          phase := .probing (pending.erase p)
            (probed ++ [(p, s.actor.probeOffsets p produceOffset consumeOffset)])
          observed := s.observed ++ produceOffset.toList.map fun v => (p, v) }
      else none
    | _ => none
  | .probeFail =>
    match s.phase with
    | .probing _ _ => some { s with phase := .idle }
    | _ => none
  | .probeDone =>
    match s.phase with
    | .probing pending probed =>
      if pending = ∅ then
        let actor := s.actor.applyProbes probed
        some { s with
          actor := actor
          phase := if actor.readyProducers = ∅ then .waitInputs else .picking }
      else none
    | _ => none
  | .pick p =>
    match s.phase with
    | .picking =>
      if p ∈ s.actor.readyProducers then
        match s.actor.takeNext p with
        | (none, actor) => some { s with actor := actor, phase := .waitInputs }
        | (some consumeOffset, actor) =>
          some { s with
            actor := actor
            phase := .selected p consumeOffset
            handedOut := s.handedOut ++ [(p, consumeOffset)] }
      else none
    | _ => none
  | .ensureRunning =>
    match s.phase with
    | .selected p consumeOffset =>
      match s.commitSeq.ensureRunning with
      | .error _ => some { s with phase := .idle }
      | .ok () =>
        some { s with
          phase := .admitting s.nextPrefetchSeq p consumeOffset
          nextPrefetchSeq := s.nextPrefetchSeq + 1 }
    | _ => none
  | .beginPayload =>
    match s.phase with
    | .admitting seq p consumeOffset =>
      match beginPayload seq s.commitSeq with
      | .ok (.error _) q => some { s with commitSeq := q, phase := .idle }
      | .ok (.ok ()) q =>
        some { s with
          commitSeq := q
          jobs := s.jobs ++ [.spawn seq p consumeOffset]
          inflightQueueSize := s.inflightQueueSize + 1
          phase := .enqueueing ⟨seq, p, consumeOffset⟩ }
      | .error msg q => some { s with commitSeq := q, phase := .panicked msg }
    | _ => none
  | .enqueue =>
    match s.phase with
    | .enqueueing item =>
      if s.inflight.length < inflightCapacity then
        some { s with inflight := s.inflight ++ [item], phase := .idle }
      else none
    | _ => none

/-- Job `i` goes on to a phase. -/
def setJob (i : ℕ) (job : Job α) (phase : JobPhase α) : Consumer α :=
  { s with jobs := s.jobs.set i { job with phase } }

/-- Job `i` goes on to a phase after a call of the sequencer, unless that panics. -/
def afterCall (i : ℕ) (job : Job α) (phase : JobPhase α)
    (c : Call CommitSequencer Unit) : Consumer α :=
  match c s.commitSeq with
  | .ok () q => { s.setJob i job phase with commitSeq := q }
  | .error msg q => { s.setJob i job (.panicked msg) with commitSeq := q }

/-- `run_prefetch_kv_then_commit` of job `i`. -/
def stepJob (i : ℕ) (job : Job α) : JobEvent α → Option (Consumer α)
  | .start =>
    match job.phase with
    | .spawned =>
      match s.commitSeq.ensureRunning with
      | .error e => some (s.setJob i job (.failed e))
      | .ok () => some (s.setJob i job .payload)
    | _ => none
  | .fetch result =>
    match job.phase with
    | .payload =>
      match result with
      | .ok obj =>
        some (s.afterCall i job (.waitTurn ⟨job.producerId, job.consumeOffset, obj⟩)
          (markWaitTurnBegin job.seq))
      | .retryable _ => some s
      | .nonRetryable msg =>
        some (s.setJob i { job with payloadFailed := true } (.failed (.getPayloadNonRetryable msg)))
    | _ => none
  | .waitTurn =>
    match job.phase with
    | .waitTurn fetched =>
      match s.commitSeq.nextSeqIfRunning with
      | .error e => some (s.setJob i job (.failed e))
      | .ok nextSeq =>
        if nextSeq = job.seq then
          some (s.afterCall i job (.commit fetched false) (markCommitBegin job.seq))
        else none
    | _ => none
  | .putEffect =>
    match job.phase with
    | .commit fetched false =>
      some { s.setJob i job (.commit fetched true) with
        consumeOffsets :=
          AList.insert fetched.producerId (fetched.consumeOffset + 1) s.consumeOffsets
        commits := s.commits ++ [job.seq] }
    | _ => none
  | .putOk =>
    match job.phase with
    | .commit fetched true => some (s.setJob i job (.readyToAdvance fetched))
    | _ => none
  | .putError =>
    match job.phase with
    | .commit fetched _ => some (s.setJob i job (.retrySleep fetched))
    | _ => none
  | .retry =>
    match job.phase with
    | .retrySleep fetched => some (s.setJob i job (.commit fetched false))
    | _ => none
  | .advance =>
    match job.phase with
    | .readyToAdvance fetched =>
      some (s.afterCall i job (.finished (.ok fetched)) do
        markReadyToAdvance job.seq
        advance job.seq)
    | _ => none
  | .closed =>
    if s.shutdown then
      match job.phase with
      | .payload =>
        some (s.setJob i job (.failed (.internal "consumer closed during get_with_payload")))
      | .waitTurn _ =>
        some (s.setJob i job
          (.failed (.internal "consumer closed during consume-offset commit wait")))
      | .commit fetched _ =>
        some (s.setJob i job (.failed (.internal
          (s!"consumer closed during consume-offset commit: seq={job.seq} " ++
            s!"producer_id={fetched.producerId} consume_offset={fetched.consumeOffset}"))))
      | .retrySleep fetched =>
        some (s.setJob i job (.failed (.internal
          (s!"consumer closed during consume-offset retry sleep: seq={job.seq} " ++
            s!"producer_id={fetched.producerId} consume_offset={fetched.consumeOffset}"))))
      | _ => none
    else none
  | .fail =>
    match job.phase with
    | .failed e =>
      if s.shutdown then some (s.setJob i job (.finished (.error e)))
      else some (s.afterCall i job (.finished (.error e)) (fail job.seq e))
    | _ => none

/-- The call that has popped an item returns. -/
def finishCall (item : InflightItem) (result : Except MpscError (ConsumedPayload α)) : Consumer α :=
  { s with caller := .idle, returned := s.returned ++ [(item.seq, result)] }

/-- `get_with_payload_wait_timeout`. -/
def stepCaller : CallerEvent → Option (Consumer α)
  | .call prefetchTarget =>
    match s.caller with
    | .idle => some { s with targetInflight := max prefetchTarget 1, caller := .waiting }
    | _ => none
  | .timeout =>
    match s.caller with
    | .waiting => some { s with caller := .idle }
    | _ => none
  | .closed =>
    match s.caller, s.phase, s.shutdown, s.inflight with
    | .waiting, _, true, _ => some { s with caller := .idle }
    | .waiting, .stopped, _, [] => some { s with caller := .idle }
    | _, _, _, _ => none
  | .pop =>
    match s.caller, s.inflight with
    | .waiting, item :: inflight =>
      match markPopped item.seq s.commitSeq with
      | .ok () q =>
        some { s with
          commitSeq := q
          inflight := inflight
          inflightQueueSize := s.inflightQueueSize - 1
          caller := .awaiting item }
      | .error msg q => some { s with commitSeq := q, inflight, caller := .panicked msg }
    | _, _ => none
  | .result =>
    match s.caller with
    | .awaiting item =>
      match (s.jobs[item.seq]?).map Job.phase with
      | some (.finished (.error e)) => some (s.finishCall item (.error e))
      | some (.finished (.ok fetched)) =>
        if s.deleteCb then some { s with caller := .deleting item fetched }
        else some (s.finishCall item (.ok ⟨fetched.producerId, fetched.payload⟩))
      | some (.panicked _) =>
        some (s.finishCall item (.error (.internal
          (s!"prefetch job dropped before sending result: seq={item.seq} " ++
            s!"producer_id={item.producerId} consume_offset={item.consumeOffset}"))))
      | _ => none
    | _ => none
  | .delete result =>
    match s.caller with
    | .deleting item fetched =>
      match result with
      | .ok => some (s.finishCall item (.ok ⟨fetched.producerId, fetched.payload⟩))
      | .retryable _ => some s
      | .nonRetryable msg => some (s.finishCall item (.error (.deletePayloadNonRetryable msg)))
    | _ => none
  | .deleteClosed =>
    match s.caller with
    | .deleting item fetched =>
      if s.shutdown then some (s.finishCall item (.ok ⟨fetched.producerId, fetched.payload⟩))
      else none
    | _ => none

def step (s : Consumer α) : ConsumerEvent α → Option (Consumer α)
  | .actor e => s.stepActor e
  | .job i e =>
    match s.jobs[i]? with
    | some job => s.stepJob i job e
    | none => none
  | .caller e => s.stepCaller e
  | .shutdown => some { s with shutdown := true }

/-- A step of the consumer. -/
def Step (e : ConsumerEvent α) (s' : Consumer α) : Prop := s.step e = some s'

/-- A consumer that has just been bound, with the consume offsets it finds in etcd. -/
def init (consumeOffsets : Table String ℕ) (deleteCb : Bool) : Consumer α :=
  { consumeOffsets, deleteCb }

end Consumer

end Fluxon.Mq
