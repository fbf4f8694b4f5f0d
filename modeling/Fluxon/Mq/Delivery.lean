import Fluxon.Mq.Dispatch

/-!
# What becomes of a committed message

A call of `get_with_payload_wait_timeout` that has popped an item waits for the job of the item and
then deletes the payload. Without a shutdown a job whose put took effect ends with its payload
(`Undisturbed`), so only the deletion can still go wrong. It is documented as best-effort cleanup
after the commit. But an answer `NonRetryable` of the delete callback is returned in the place of
the message (`committed_message_lost`). If the callback gives no such answer, every committed
message that has been popped is returned by its call (`committed_message_returned`).
-/

namespace Fluxon.Mq.Consumer

open CommitSequencer Consumer List

variable {α : Type} {s s' : Consumer α} {i : ℕ} {job : Job α} {d : Table String ℕ}

/-! ## Steps that can be taken -/

section Forward

variable {fetched : FetchedPayload α}

section

variable (hjob : s.jobs[i]? = some job)
include hjob

theorem step_retry (hphase : job.phase = .retrySleep fetched) :
    Step s (.job i .retry) (s.setJob i job (.commit fetched false)) := by
  simp [Step, step, stepJob, hjob, hphase]

theorem step_putEffect (hphase : job.phase = .commit fetched false) :
    Step s (.job i .putEffect) (s.putApplied i job fetched) := by
  simp [putApplied, Step, step, stepJob, hjob, hphase]

theorem step_putOk (hphase : job.phase = .commit fetched true) :
    Step s (.job i .putOk) (s.setJob i job (.readyToAdvance fetched)) := by
  simp [Step, step, stepJob, hjob, hphase]

theorem step_advance (h : Sequenced s) (hphase : job.phase = .readyToAdvance fetched) :
    Step s (.job i .advance)
      { s.setJob i job (.finished (.ok fetched)) with
        commitSeq :=
          { s.commitSeq with
            nextSeq := job.seq + 1
            progress := retained { s.commitSeq with nextSeq := job.seq + 1 } } } := by
  -- the job has its entry and its turn, so that no call of the sequencer panics
  obtain ⟨entry, hentry⟩ := (h.ready hjob).entry (by simp [hphase])
  have hturn := (h.ready hjob).turn fetched hphase
  simp only [Step, step, stepJob, hjob, hphase, afterCall, ready_advance_eq hturn hentry]

end

/-- The events of job `i` and of the caller, with a deletion that succeeds. -/
inductive OwnEvent (i : ℕ) : ConsumerEvent α → Prop
  | job (e : JobEvent α) : OwnEvent i (.job i e)
  | result : OwnEvent i (.caller .result)
  | delete : OwnEvent i (.caller (.delete .ok))

/-- The steps that a job with its turn has ahead, if no put fails. -/
def stepsLeft : JobPhase α → ℕ
  | .retrySleep _ => 4
  | .commit _ false => 3
  | .commit _ true => 2
  | .readyToAdvance _ => 1
  | _ => 0

/-- A job that has its turn takes a step. -/
theorem exists_step_closer (h : Sequenced s) (hjob : s.jobs[i]? = some job)
    (hcarried : carried job.phase = some fetched) (hleft : 0 < stepsLeft job.phase) :
    ∃ e s' job', Step s (.job i e) s' ∧ s'.jobs[i]? = some job' ∧
      job'.producerId = job.producerId ∧ carried job'.phase = some fetched ∧
      (job'.phase = .finished (.ok fetched) ∨ 0 < stepsLeft job'.phase) ∧
      stepsLeft job'.phase < stepsLeft job.phase := by
  have hself : ∀ phase : JobPhase α,
      (s.setJob i job phase).jobs[i]? = some { job with phase } := fun phase => by
    rw [jobs_setJob hjob, if_pos rfl]
  cases hphase : job.phase with
  | retrySleep f =>
    rw [hphase] at hcarried
    cases hcarried
    exact ⟨_, _, _, step_retry hjob hphase, hself _, rfl, rfl, .inr (by simp [stepsLeft]),
      by simp [stepsLeft]⟩
  | commit f applied =>
    rw [hphase] at hcarried
    cases hcarried
    cases applied with
    | false =>
      exact ⟨_, _, _, step_putEffect hjob hphase, hself _, rfl, rfl, .inr (by simp [stepsLeft]),
        by simp [stepsLeft]⟩
    | true =>
      exact ⟨_, _, _, step_putOk hjob hphase, hself _, rfl, rfl, .inr (by simp [stepsLeft]),
        by simp [stepsLeft]⟩
  | readyToAdvance f =>
    rw [hphase] at hcarried
    cases hcarried
    exact ⟨_, _, _, step_advance hjob h hphase, hself _, rfl, rfl, .inl rfl, by simp [stepsLeft]⟩
  | _ =>
    rw [hphase] at hleft
    exact absurd hleft (lt_irrefl 0)

/-- A job that has its turn finishes with its payload, by steps of its own. -/
theorem exists_run_finished (h : InOrder s) (hjob : s.jobs[i]? = some job)
    (hcarried : carried job.phase = some fetched)
    (hleft : job.phase = .finished (.ok fetched) ∨ 0 < stepsLeft job.phase) :
    ∃ es s' job', Run Step s es s' ∧ (∀ e ∈ es, OwnEvent i e) ∧ s'.caller = s.caller ∧
      s'.returned = s.returned ∧ s'.deleteCb = s.deleteCb ∧
      s'.jobs[i]? = some job' ∧ job'.producerId = job.producerId ∧
      job'.phase = .finished (.ok fetched) := by
  -- by induction on the steps that are left
  induction hn : stepsLeft job.phase using Nat.strongRecOn generalizing s job with
  | ind n ih =>
    rcases hleft with hfinished | hleft
    · exact ⟨[], s, job, .nil s, nofun, rfl, rfl, rfl, hjob, rfl, hfinished⟩
    obtain ⟨e, s₁, job₁, hstep, hjob₁, hproducer, hcarried₁, hleft₁, hlt⟩ :=
      exists_step_closer h.sequenced hjob hcarried hleft
    obtain ⟨es, s', job', hrun, hown, hcaller, hreturned, hdelete, hjob', hproducer', hphase⟩ :=
      ih _ (hn ▸ hlt) (h.step hstep) hjob₁ hcarried₁ hleft₁ rfl
    cases h.effect hstep with
    | job hjob₀ he =>
      have hframe := he.frame hjob₀
      refine ⟨.job i e :: es, s', job', .cons hstep hrun, ?_, hcaller.trans hframe.caller,
        hreturned.trans hframe.returned, hdelete.trans hframe.deleteCb, hjob',
        hproducer'.trans hproducer, hphase⟩
      intro e' he'
      rcases mem_cons.1 he' with rfl | he'
      · exact .job e
      · exact hown e' he'

end Forward

/-! ## Runs without shutdown -/

/-- A call that popped a job's item has returned what the job ended with. -/
inductive Answers (job : Job α) : Except MpscError (ConsumedPayload α) → Prop
  | error (e : MpscError) : job.phase = .finished (.error e) → Answers job (.error e)
  | ok (fetched : FetchedPayload α) :
      job.phase = .finished (.ok fetched) → Answers job (.ok ⟨job.producerId, fetched.payload⟩)

/-- No job whose put took effect has failed, and the calls have returned what the jobs ended
with. -/
structure Undisturbed (s : Consumer α) : Prop where
  running : s.shutdown = false
  failed : ∀ (i : ℕ) (job : Job α), s.jobs[i]? = some job → hasFailed job.phase = true →
    i ∉ s.commits
  returned : ∀ r ∈ s.returned, ∃ job : Job α, s.jobs[r.1]? = some job ∧ Answers job r.2

namespace Undisturbed

variable (h : Undisturbed s)
include h

theorem frame (hshutdown : s'.shutdown = s.shutdown) (hjobs : s'.jobs = s.jobs)
    (hcommits : s'.commits = s.commits)
    (hreturned : s'.returned = s.returned) : Undisturbed s' := by
  constructor
  · rw [hshutdown]
    exact h.running
  · rw [hjobs, hcommits]
    exact h.failed
  · rw [hreturned, hjobs]
    exact h.returned

theorem actorEffect {e : ActorEvent} (he : ActorEffect s e s') : Undisturbed s' := by
  cases he with
  | admitted seq p o =>
    refine ⟨h.running, ?_, ?_⟩
    · intro i job hjob hfailed
      rcases getElem?_concat_cases hjob with hold | ⟨-, rfl⟩
      · exact h.failed i job hold hfailed
      · cases hfailed
    · intro r hr
      obtain ⟨job, hjob, hanswers⟩ := h.returned r hr
      obtain ⟨hlt, -⟩ := List.getElem?_eq_some_iff.1 hjob
      exact ⟨job, by rw [← hjob]; exact List.getElem?_append_left hlt, hanswers⟩
  | refuse => exact h
  | _ => exact h.frame rfl rfl rfl rfl

/-- A job that has failed was not in its commit, since only a shutdown interrupts that. -/
theorem failed_jobEffect {e : JobEvent α} (hsequenced : Sequenced s) (hjob : s.jobs[i]? = some job)
    (he : JobEffect s i job e s') {k : ℕ} {job' : Job α} (hjob' : s'.jobs[k]? = some job')
    (hfailed : hasFailed job'.phase = true) : k ∉ s'.commits := by
  have hplace := hsequenced.place i job hjob
  have hset : ∀ {job₁ : Job α} {phase : JobPhase α},
      (s.setJob i job₁ phase).jobs[k]? = some job' → hasFailed job'.phase = true →
      (hasFailed phase = true → i ∉ s.commits) → k ∉ s.commits := by
    intro job₁ phase hk hf hphase
    rcases jobs_setJob_cases hjob hk with ⟨hki, rfl⟩ | ⟨hki, hk⟩
    · exact hki ▸ hphase hf
    · exact h.failed k job' hk hf
  cases he with
  | fetchRetryable => exact h.failed k job' hjob' hfailed
  | startFailed _ hphase | fetchFailed _ hphase | turnFailed _ _ hphase =>
    rw [hphase] at hplace
    exact hset hjob' hfailed fun _ => hplace.2
  | putEffect fetched hphase =>
    have hbefore := hset hjob' hfailed nofun
    have hne : k ≠ job.seq := by
      rw [(hsequenced.coherent i job hjob).seq]
      intro hki
      rw [jobs_setJob hjob, if_pos hki] at hjob'
      cases hjob'
      cases hfailed
    simp [hbefore, hne]
  | closed _ _ hshutdown | failClosed _ _ hshutdown =>
    rw [h.running] at hshutdown
    cases hshutdown
  | fail _ hphase => exact hset hjob' hfailed fun _ => h.failed i job hjob (by rw [hphase]; rfl)
  | _ => exact hset hjob' hfailed nofun

theorem jobEffect {e : JobEvent α} (hsequenced : Sequenced s) (hjob : s.jobs[i]? = some job)
    (he : JobEffect s i job e s') : Undisturbed s' := by
  have hframe := he.frame hjob
  refine ⟨hframe.shutdown.trans h.running, ?_, ?_⟩
  · exact fun k job' hk hf => h.failed_jobEffect hsequenced hjob he hk hf
  rw [hframe.returned]
  rintro ⟨k, result⟩ hr
  obtain ⟨job', hjob', hanswers⟩ := h.returned (k, result) hr
  refine ⟨job', ?_, hanswers⟩
  rw [← hjob']
  apply hframe.other
  -- the job of a returned item has finished and takes no step
  intro hki
  rw [hki, hjob] at hjob'
  cases hjob'
  cases hanswers with
  | error _ hphase | ok _ hphase => exact he.not_finished hphase

/-- A call returns what the job ended with. -/
theorem finishCall {item : InflightItem} {result : Except MpscError (ConsumedPayload α)}
    (hjob : s.jobs[item.seq]? = some job)
    (hanswers : Answers job result) : Undisturbed (s.finishCall item result) := by
  refine ⟨h.running, h.failed, ?_⟩
  intro r hr
  rcases mem_append.1 hr with hold | hnew
  · exact h.returned r hold
  · rw [mem_singleton] at hnew
    subst hnew
    exact ⟨job, hjob, hanswers⟩

theorem callerEffect {e : CallerEvent} (hinOrder : InOrder s)
    (hdelete : ∀ msg, e ≠ .delete (.nonRetryable msg)) (he : CallerEffect s e s') :
    Undisturbed s' := by
  cases he with
  | call | leave | pop | beginDelete => exact h.frame rfl rfl rfl rfl
  | resultError item job error _ hjob hphase => exact h.finishCall hjob (.error error hphase)
  | result item job fetched _ hjob hphase =>
    have hproducer := (hinOrder.sequenced.coherent _ job hjob).producer fetched
      (by rw [hphase]; rfl)
    rw [hproducer]
    exact h.finishCall hjob (.ok fetched hphase)
  | delete item fetched _ hcaller =>
    obtain ⟨job, hjob, hphase⟩ := hinOrder.queued.deleting item fetched hcaller
    have hproducer := (hinOrder.sequenced.coherent _ job hjob).producer fetched
      (by rw [hphase]; rfl)
    rw [hproducer]
    exact h.finishCall hjob (.ok fetched hphase)
  | deleteRetryable => exact h
  | deleteFailed _ _ msg => exact absurd rfl (hdelete msg)

end Undisturbed

/-- The consumer goes on, and the deletion of a payload is not refused for good. -/
def Benign (e : ConsumerEvent α) : Prop :=
  e ≠ .shutdown ∧ ∀ msg, e ≠ .caller (.delete (.nonRetryable msg))

theorem Undisturbed.step {e : ConsumerEvent α} (h : Undisturbed s) (hinOrder : InOrder s)
    (hbenign : Benign e) (hstep : Step s e s') : Undisturbed s' := by
  cases hinOrder.effect hstep with
  | actor he => exact h.actorEffect he
  | job hjob he => exact h.jobEffect hinOrder.sequenced hjob he
  | caller he =>
    refine h.callerEffect hinOrder (fun msg hmsg => ?_) he
    exact hbenign.2 msg (congrArg _ hmsg)
  | shutdown => exact absurd rfl hbenign.1

theorem Undisturbed.init (consumeOffsets : Table String ℕ) (deleteCb : Bool) :
    Undisturbed (init consumeOffsets deleteCb : Consumer α) :=
  ⟨rfl, nofun, nofun⟩

theorem undisturbed_of_run {deleteCb : Bool} {es : List (ConsumerEvent α)}
    (h : Run Step (init d deleteCb) es s) (hbenign : ∀ e ∈ es, Benign e) :
    InOrder s ∧ Undisturbed s := by
  refine (h.guarded hbenign).invariant (I := fun t => InOrder t ∧ Undisturbed t) ?_
    ⟨.init d deleteCb, .init d deleteCb⟩
  intro t e t' ht hguarded
  exact ⟨ht.1.step hguarded.2, ht.2.step ht.1 hguarded.1 hguarded.2⟩

/-- A job whose put took effect has a message, and has not failed. -/
theorem exists_carried_of_committed (h : Sequenced s) (hs : Undisturbed s)
    (hi : i ∈ s.commits) (hjob : s.jobs[i]? = some job) :
    ∃ fetched, carried job.phase = some fetched ∧
      (job.phase = .finished (.ok fetched) ∨ 0 < stepsLeft job.phase) := by
  have hplace := h.place i job hjob
  have hfailed := hs.failed i job hjob
  generalize job.phase = phase at hplace hfailed
  cases phase with
  | spawned | payload | waitTurn => exact absurd hi hplace.2
  | commit fetched applied => cases applied <;> exact ⟨fetched, rfl, .inr (by simp [stepsLeft])⟩
  | retrySleep fetched | readyToAdvance fetched => exact ⟨fetched, rfl, .inr (by simp [stepsLeft])⟩
  | failed => exact absurd hi (hfailed rfl)
  | finished result =>
    cases result with
    | error => exact absurd hi (hfailed rfl)
    | ok fetched => exact ⟨fetched, rfl, .inl rfl⟩
  | panicked => exact hplace.elim

/-- A call that has popped the item of a committed job returns the message after steps of its own
and of the job. -/
theorem exists_run_returned (h : InOrder s) (hs : Undisturbed s) {item : InflightItem}
    (hhand : inHand s.caller = [item]) (hcommitted : item.seq ∈ s.commits) :
    ∃ (job : Job α) (fetched : FetchedPayload α) (es : List (ConsumerEvent α)) (s' : Consumer α),
      s.jobs[item.seq]? = some job ∧ carried job.phase = some fetched ∧
      Run Step s es s' ∧ (∀ e ∈ es, OwnEvent item.seq e) ∧
      s'.returned = s.returned ++ [(item.seq, .ok ⟨job.producerId, fetched.payload⟩)] := by
  have hlt := h.sequenced.started _ hcommitted
  obtain ⟨job, hjob⟩ : ∃ job, s.jobs[item.seq]? = some job := ⟨_, getElem?_eq_getElem hlt⟩
  obtain ⟨fetched, hcarried, hleft⟩ := exists_carried_of_committed h.sequenced hs hcommitted hjob
  obtain ⟨es, s₁, job₁, hrun, hown, hcaller, hreturned, hdelete, hjob₁, hproducer, hphase⟩ :=
    exists_run_finished h hjob hcarried hleft
  have hinOrder₁ : InOrder s₁ := hrun.invariant (fun _ _ _ ht hstep => ht.step hstep) h
  have hmessage : fetched.producerId = job.producerId :=
    (h.sequenced.coherent _ job hjob).producer fetched hcarried
  have hlast : ∀ {e : ConsumerEvent α} {t : Consumer α}, OwnEvent item.seq e →
      Step s₁ e t → t.returned = s₁.returned ++
        [(item.seq, .ok ⟨fetched.producerId, fetched.payload⟩)] →
      ∃ (es : List (ConsumerEvent α)) (s' : Consumer α), Run Step s es s' ∧
        (∀ e ∈ es, OwnEvent item.seq e) ∧
        s'.returned = s.returned ++ [(item.seq, .ok ⟨job.producerId, fetched.payload⟩)] := by
    intro e t he hstep ht
    refine ⟨es ++ [e], t, hrun.snoc hstep, ?_, by rw [ht, hreturned, hmessage]⟩
    intro e' he'
    rcases mem_append.1 he' with hold | hnew
    · exact hown e' hold
    · rw [mem_singleton] at hnew
      exact hnew ▸ he
  cases hphaseCaller : s.caller with
  | idle | waiting | panicked =>
    rw [hphaseCaller] at hhand
    cases hhand
  | awaiting item' =>
    rw [hphaseCaller] at hhand hcaller
    cases hhand
    by_cases hcb : s₁.deleteCb = true
    · have hresult : Step s₁ (.caller .result) { s₁ with caller := .deleting item fetched } := by
        simp [Step, step, stepCaller, hcaller, hjob₁, hphase, hcb]
      have hdeleted : Step { s₁ with caller := .deleting item fetched } (.caller (.delete .ok))
          (finishCall { s₁ with caller := .deleting item fetched } item
            (.ok ⟨fetched.producerId, fetched.payload⟩)) := rfl
      refine ⟨job, fetched, es ++ [.caller .result] ++ [.caller (.delete .ok)], _, hjob, hcarried,
        (hrun.snoc hresult).snoc hdeleted, ?_, ?_⟩
      · intro e he
        simp only [mem_append, mem_singleton] at he
        rcases he with (he | rfl) | rfl
        · exact hown e he
        · exact .result
        · exact .delete
      · change s₁.returned ++ _ = _
        rw [hreturned, hmessage]
    · have hresult : Step s₁ (.caller .result)
          (s₁.finishCall item (.ok ⟨fetched.producerId, fetched.payload⟩)) := by
        simp [Step, step, stepCaller, hcaller, hjob₁, hphase, hcb]
      obtain ⟨es', s', hrun', hown', hend⟩ := hlast .result hresult rfl
      exact ⟨job, fetched, es', s', hjob, hcarried, hrun', hown', hend⟩
  | deleting item' fetched' =>
    rw [hphaseCaller] at hhand hcaller
    cases hhand
    -- the job has finished already, with the message that is being deleted
    obtain ⟨job₂, hjob₂, hphase₂⟩ := hinOrder₁.queued.deleting item fetched' hcaller
    rw [hjob₁] at hjob₂
    cases hjob₂
    rw [hphase] at hphase₂
    cases hphase₂
    have hdeleted : Step s₁ (.caller (.delete .ok))
        (s₁.finishCall item (.ok ⟨fetched.producerId, fetched.payload⟩)) := by
      simp [Step, step, stepCaller, hcaller]
    obtain ⟨es', s', hrun', hown', hend⟩ := hlast .delete hdeleted rfl
    exact ⟨job, fetched, es', s', hjob, hcarried, hrun', hown', hend⟩

/-- **Committed messages are delivered.** In every run of a consumer without shutdown in which the
delete callback does not answer `NonRetryable`: the calls that have popped an item return in the
order of the dispatches; a call whose item is committed returns the message of its job; and a call
that has such an item in hand can always finish with the message, by steps of its own and of the
job. -/
theorem committed_message_returned {deleteCb : Bool} {es : List (ConsumerEvent α)}
    (h : Run Step (init d deleteCb) es s) (hopen : .shutdown ∉ es)
    (hdelete : ∀ msg, .caller (.delete (.nonRetryable msg)) ∉ es) :
    s.returned.map (·.1) = range s.returned.length ∧
    (∀ i r, (i, r) ∈ s.returned → i ∈ s.commits →
      ∃ (job : Job α) (fetched : FetchedPayload α), s.jobs[i]? = some job ∧
        job.phase = .finished (.ok fetched) ∧ r = .ok ⟨job.producerId, fetched.payload⟩) ∧
    ∀ item, inHand s.caller = [item] → item.seq ∈ s.commits →
      ∃ (job : Job α) (fetched : FetchedPayload α) (es' : List (ConsumerEvent α))
        (s' : Consumer α), s.jobs[item.seq]? = some job ∧ carried job.phase = some fetched ∧
        Run Step s es' s' ∧ (∀ e ∈ es', OwnEvent item.seq e) ∧
        s'.returned = s.returned ++ [(item.seq, .ok ⟨job.producerId, fetched.payload⟩)] := by
  have hbenign : ∀ e ∈ es, Benign e := by
    intro e he
    refine ⟨fun heq => hopen (heq ▸ he), fun msg heq => hdelete msg (heq ▸ he)⟩
  obtain ⟨hinOrder, hs⟩ := undisturbed_of_run h hbenign
  refine ⟨hinOrder.queued.map_returned, ?_,
    fun item hhand hcommitted => exists_run_returned hinOrder hs hhand hcommitted⟩
  intro i r hr hcommitted
  obtain ⟨job, hjob, hanswers⟩ := hs.returned (i, r) hr
  cases hanswers with
  | error e hphase => exact absurd hcommitted (hs.failed i job hjob (by rw [hphase]; rfl))
  | ok fetched hphase => exact ⟨job, fetched, hjob, hphase, rfl⟩

/-- The first message is popped and its payload deleted after a retry. -/
def deletedMessage : List (ConsumerEvent String) :=
  firstMessage ++ [.caller .pop, .caller .result, .caller (.delete (.retryable "kv_delete retryable")),
    .caller (.delete .ok)]

theorem committed_message_returned_deletedMessage :
    ∃ s : Consumer String, Run Step (init ∅ true) deletedMessage s ∧
      s.commits = [0] ∧ s.returned.map (·.1) = range s.returned.length := by
  obtain ⟨s, hrun, hread⟩ := Run.exists_of_foldlM step (init ∅ true)
    deletedMessage (fun s => s.commits = [0]) (by decide +kernel)
  refine ⟨s, hrun, hread, (committed_message_returned hrun ?_ ?_).1⟩
  · simp [deletedMessage, firstMessage]
  · simp [deletedMessage, firstMessage]

/-- The same message, when the delete callback answers `NonRetryable`. -/
def undeletedMessage : List (ConsumerEvent String) :=
  firstMessage ++ [.caller .pop, .caller .result,
    .caller (.delete (.nonRetryable "kv_delete failed"))]

/-- **A committed message that is not delivered.** The consume offset is committed and the payload
fetched, but the call returns the error of the deletion. -/
theorem committed_message_lost : ∃ s : Consumer String, Run Step (init ∅ true) undeletedMessage s ∧
      .shutdown ∉ undeletedMessage ∧ s.commits = [0] ∧
      s.returned = [(0, .error (.deletePayloadNonRetryable "kv_delete failed"))] := by
  obtain ⟨s, hrun, hread⟩ := Run.exists_of_foldlM step (init ∅ true)
    undeletedMessage (fun s => s.commits = [0] ∧
      s.returned = [(0, .error (.deletePayloadNonRetryable "kv_delete failed"))])
    (by decide +kernel)
  exact ⟨s, hrun, by simp [undeletedMessage, firstMessage], hread⟩

end Fluxon.Mq.Consumer
