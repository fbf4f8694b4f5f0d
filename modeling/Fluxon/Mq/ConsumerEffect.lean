import Fluxon.Mq.Consumer

/-!
# What a step of a consumer does

One relation per kind of thread, with a case for each way in which a step goes through, its guard
and the state after it. The step functions are unfolded here and nowhere else
(`actorEffect_of_step`, `jobEffect_of_step`, `callerEffect_of_step`). The sequencer does not panic
as long as the entries that its calls ask for are there, which the callers of these lemmas bring
along.
-/

namespace Fluxon.Mq.Consumer

open CommitSequencer

variable {α : Type} {s s' : Consumer α}

/-! ## The actor -/

theorem phase_of_takesInput (h : s.takesInput = true) : s.phase = .idle ∨ s.phase = .waitInputs := by
  unfold takesInput at h
  split at h
  · next hphase => exact .inl hphase
  · next hphase => exact .inr hphase
  · cases h

/-- The actor leaves `try_prefetch_one` with an error. -/
inductive Abandons (s : Consumer α) : ActorEvent → Prop
  | refreshProduce (error : MpscError) :
      s.phase = .refreshProduce → Abandons s (.refreshProduce (.error error))
  | refreshConsume (error : MpscError) (t : Table String ℤ) :
      s.phase = .refreshConsume t → Abandons s (.refreshConsume (some error))
  | refreshMeta (error : MpscError) (t : Table String ℕ) :
      s.phase = .refreshMeta t → Abandons s (.refreshMeta (.error error))
  | probing (pending : Finset String) (probed : List (String × SingleProducerOffsets)) :
      s.phase = .probing pending probed → Abandons s .probeFail
  | selected (p : String) (o : ℕ) :
      s.phase = .selected p o → s.commitSeq.failure.isSome → Abandons s .ensureRunning
  | admitting (seq : ℕ) (p : String) (o : ℕ) :
      s.phase = .admitting seq p o → s.commitSeq.failure.isSome → Abandons s .beginPayload

inductive ActorEffect (s : Consumer α) : ActorEvent → Consumer α → Prop
  | setCallback :
      s.takesInput = true → ActorEffect s .setCallback { s with payloadCb := true, phase := .idle }
  | metaSet (set : List String) :
      s.takesInput = true →
      ActorEffect s (.metaSet set) { s with actor := s.actor.handleMetaMsg set, phase := .idle }
  | produceOffset (updates : List (String × ℤ)) :
      s.takesInput = true →
      ActorEffect s (.produceOffset updates)
        { s with
          actor := s.actor.handleProduceOffsetMsg updates
          phase := .idle
          observed := s.observed ++ updates }
  | stop :
      s.takesInput = true → s.shutdown = true ∨ s.commitSeq.failure.isSome →
      ActorEffect s .stop { s with phase := .stopped }
  | refuse :
      s.phase = .idle → s.shutdown = true ∨ s.commitSeq.failure.isSome →
      ActorEffect s .tryPrefetchOne s
  | beginRefresh :
      s.phase = .idle → s.mayPrefetch = true → s.commitSeq.failure = none →
      s.actor.offsetSnapshotState = .pending →
      ActorEffect s .tryPrefetchOne { s with phase := .refreshProduce }
  | beginSelect :
      s.phase = .idle → s.mayPrefetch = true → s.commitSeq.failure = none →
      s.actor.offsetSnapshotState = .initialized →
      ActorEffect s .tryPrefetchOne { s with phase := .selecting }
  | abandon (e : ActorEvent) : Abandons s e → ActorEffect s e { s with phase := .idle }
  | scanProduce (produceOffsets : Table String ℤ) :
      s.phase = .refreshProduce →
      ActorEffect s (.refreshProduce (.ok produceOffsets))
        { s with phase := .refreshConsume produceOffsets }
  | scanConsume (produceOffsets : Table String ℤ) :
      s.phase = .refreshConsume produceOffsets →
      ActorEffect s (.refreshConsume none)
        { s with
          actor := s.actor.mergeOffsets produceOffsets s.consumeOffsets
          phase := .refreshMeta s.consumeOffsets
          observed := s.observed ++ produceOffsets.entries.map fun e => (e.1, e.2) }
  | scanMeta (consumeOffsets : Table String ℕ) (set : List String) :
      s.phase = .refreshMeta consumeOffsets →
      ActorEffect s (.refreshMeta (.ok set))
        { s with
          actor :=
            { ({ s.actor with producerMetaCache := set } : ConsumerActor).rebuildReadyStateFromCaches
              with offsetSnapshotState := .initialized }
          phase := .selecting
          snapshot := some consumeOffsets }
  | noMessage :
      s.phase = .selecting → s.actor.readyProducers = ∅ →
      ActorEffect s .select { s with phase := .waitInputs }
  | beginProbe :
      s.phase = .selecting → s.actor.readyProducers = ∅ →
      ActorEffect s .select { s with phase := .probing s.actor.staleNoRoomProducers [] }
  | beginPick :
      s.phase = .selecting → s.actor.readyProducers ≠ ∅ →
      ActorEffect s .select { s with phase := .picking }
  | probe (p : String) (produceOffset : Option ℤ) (missing : Bool) (pending : Finset String)
      (probed : List (String × SingleProducerOffsets)) :
      s.phase = .probing pending probed → p ∈ pending →
      ActorEffect s (.probe p produceOffset missing)
        { s with
          phase := .probing (pending.erase p)
            (probed ++ [(p, s.actor.probeOffsets p produceOffset
              (if missing then none else s.consumeOffsets.lookup p))])
          observed := s.observed ++ produceOffset.toList.map fun v => (p, v) }
  | probeNoMessage (probed : List (String × SingleProducerOffsets)) :
      s.phase = .probing ∅ probed → (s.actor.applyProbes probed).readyProducers = ∅ →
      ActorEffect s .probeDone
        { s with actor := s.actor.applyProbes probed, phase := .waitInputs }
  | probeDone (probed : List (String × SingleProducerOffsets)) :
      s.phase = .probing ∅ probed → (s.actor.applyProbes probed).readyProducers ≠ ∅ →
      ActorEffect s .probeDone { s with actor := s.actor.applyProbes probed, phase := .picking }
  | pickNoMessage (p : String) :
      s.phase = .picking → p ∈ s.actor.readyProducers → ¬s.actor.HasRoom p →
      ActorEffect s (.pick p)
        { s with actor := s.actor.refreshReadyStateFromLocal p, phase := .waitInputs }
  | pick (p : String) :
      s.phase = .picking → p ∈ s.actor.readyProducers → s.actor.HasRoom p →
      ActorEffect s (.pick p)
        { s with
          actor := s.actor.handOut p
          phase := .selected p (s.actor.cachedNextHint p)
          handedOut := s.handedOut ++ [(p, s.actor.cachedNextHint p)] }
  | reserve (p : String) (o : ℕ) :
      s.phase = .selected p o → s.commitSeq.failure = none →
      ActorEffect s .ensureRunning
        { s with
          phase := .admitting s.nextPrefetchSeq p o
          nextPrefetchSeq := s.nextPrefetchSeq + 1 }
  | admitted (seq : ℕ) (p : String) (o : ℕ) :
      s.phase = .admitting seq p o → s.commitSeq.failure = none →
      ActorEffect s .beginPayload
        { s with
          commitSeq :=
            { s.commitSeq with
              progress := Function.update s.commitSeq.progress seq (some ⟨false⟩) }
          jobs := s.jobs ++ [.spawn seq p o]
          inflightQueueSize := s.inflightQueueSize + 1
          phase := .enqueueing ⟨seq, p, o⟩ }
  | enqueue (item : InflightItem) :
      s.phase = .enqueueing item → s.inflight.length < inflightCapacity →
      ActorEffect s .enqueue { s with inflight := s.inflight ++ [item], phase := .idle }

/-- The entry that an admission writes is not there yet. -/
def AdmitsFresh (s : Consumer α) : Prop :=
  ∀ seq p o, s.phase = .admitting seq p o → s.commitSeq.failure = none →
    s.commitSeq.progress seq = none

theorem failure_of_ensureRunning_error {q : CommitSequencer} {error : MpscError}
    (h : q.ensureRunning = .error error) :
    ∃ failure, q.failure = some failure ∧ error = failure.asError := by
  cases hfailure : q.failure <;> simp_all [ensureRunning]

theorem failure_of_ensureRunning_ok {q : CommitSequencer} (h : q.ensureRunning = .ok ()) :
    q.failure = none := by
  cases hfailure : q.failure <;> simp_all [ensureRunning]

theorem actorEffect_beginPayload (hfresh : s.AdmitsFresh)
    (h : s.stepActor .beginPayload = some s') : ActorEffect s .beginPayload s' := by
  simp only [stepActor] at h
  split at h
  · next seq p o hphase =>
    cases hfailure : s.commitSeq.failure with
    | some failure =>
      rw [beginPayload_failed hfailure] at h
      cases h
      exact .abandon _ (.admitting seq p o hphase (by simp [hfailure]))
    | none =>
      rw [beginPayload_eq hfailure (hfresh seq p o hphase hfailure)] at h
      cases h
      exact .admitted seq p o hphase hfailure
  · cases h

theorem actorEffect_of_step {e : ActorEvent} (hfresh : s.AdmitsFresh)
    (h : s.stepActor e = some s') : ActorEffect s e s' := by
  revert h
  fun_cases stepActor s e <;> rintro ⟨⟩
  · next hinput => exact .setCallback hinput
  · next hinput => exact .metaSet _ hinput
  · next hinput => exact .produceOffset _ hinput
  · next hclosed => exact .stop hclosed.1 hclosed.2
  · next hphase _ hshutdown => exact .refuse hphase (.inl hshutdown)
  · next hphase _ _ _ herror =>
    obtain ⟨failure, hfailure, -⟩ := failure_of_ensureRunning_error herror
    exact .refuse hphase (.inr (by simp [hfailure]))
  · next hphase hmay _ hok hstate =>
    exact .beginRefresh hphase hmay (failure_of_ensureRunning_ok hok) hstate
  · next hphase hmay _ hok hstate =>
    exact .beginSelect hphase hmay (failure_of_ensureRunning_ok hok) hstate
  · next hphase error => exact .abandon _ (.refreshProduce error hphase)
  · next hphase t => exact .scanProduce t hphase
  · next t hphase error => exact .abandon _ (.refreshConsume error t hphase)
  · next t hphase => exact .scanConsume t hphase
  · next t hphase error => exact .abandon _ (.refreshMeta error t hphase)
  · next t hphase set => exact .scanMeta t set hphase
  · next hphase hready _ => exact .noMessage hphase hready
  · next hphase hready _ => exact .beginProbe hphase hready
  · next hphase hready => exact .beginPick hphase hready
  · next pending probed hphase hp _ => exact .probe _ _ _ pending probed hphase hp
  · next pending probed hphase => exact .abandon _ (.probing pending probed hphase)
  · next probed actor hphase =>
    by_cases hready : actor.readyProducers = ∅
    · rw [if_pos hready]
      exact .probeNoMessage probed hphase hready
    · rw [if_neg hready]
      exact .probeDone probed hphase hready
  · next p hphase hready actor htake =>
    have hroom : ¬s.actor.HasRoom p := by
      intro hroom
      simp [ConsumerActor.takeNext_of_hasRoom hroom] at htake
    cases (ConsumerActor.takeNext_of_not_hasRoom hroom).symm.trans htake
    exact .pickNoMessage p hphase hready hroom
  · next p hphase hready o actor htake =>
    have hroom : s.actor.HasRoom p := by
      by_contra hroom
      simp [ConsumerActor.takeNext_of_not_hasRoom hroom] at htake
    cases (ConsumerActor.takeNext_of_hasRoom hroom).symm.trans htake
    exact .pick p hphase hready hroom
  · next p o hphase _ herror =>
    obtain ⟨failure, hfailure, -⟩ := failure_of_ensureRunning_error herror
    exact .abandon _ (.selected p o hphase (by simp [hfailure]))
  · next p o hphase hok => exact .reserve p o hphase (failure_of_ensureRunning_ok hok)
  · next hphase _ _ hbegin =>
    exact actorEffect_beginPayload hfresh (by simp only [stepActor, hphase, hbegin])
  · next hphase _ hbegin =>
    exact actorEffect_beginPayload hfresh (by simp only [stepActor, hphase, hbegin])
  · next hphase _ _ hbegin =>
    exact actorEffect_beginPayload hfresh (by simp only [stepActor, hphase, hbegin])
  · next item hphase hroom => exact .enqueue item hphase hroom

/-! ## Jobs -/

/-- The phases in which a job looks out for a shutdown. -/
inductive Cancellable : JobPhase α → Prop
  | payload : Cancellable .payload
  | waitTurn (fetched : FetchedPayload α) : Cancellable (.waitTurn fetched)
  | commit (fetched : FetchedPayload α) (applied : Bool) : Cancellable (.commit fetched applied)
  | retrySleep (fetched : FetchedPayload α) : Cancellable (.retrySleep fetched)

inductive JobEffect (s : Consumer α) (i : ℕ) (job : Job α) : JobEvent α → Consumer α → Prop
  | startFailed (failure : CommitSequencerFailure) :
      job.phase = .spawned → s.commitSeq.failure = some failure →
      JobEffect s i job .start (s.setJob i job (.failed failure.asError))
  | start :
      job.phase = .spawned → s.commitSeq.failure = none →
      JobEffect s i job .start (s.setJob i job .payload)
  | fetch (obj : α) :
      job.phase = .payload →
      JobEffect s i job (.fetch (.ok obj))
        (s.setJob i job (.waitTurn ⟨job.producerId, job.consumeOffset, obj⟩))
  | fetchRetryable (msg : String) :
      job.phase = .payload → JobEffect s i job (.fetch (.retryable msg)) s
  | fetchFailed (msg : String) :
      job.phase = .payload →
      JobEffect s i job (.fetch (.nonRetryable msg))
        (s.setJob i { job with payloadFailed := true } (.failed (.getPayloadNonRetryable msg)))
  | turnFailed (fetched : FetchedPayload α) (failure : CommitSequencerFailure) :
      job.phase = .waitTurn fetched → s.commitSeq.failure = some failure →
      JobEffect s i job .waitTurn (s.setJob i job (.failed failure.asError))
  | turn (fetched : FetchedPayload α) :
      job.phase = .waitTurn fetched → s.commitSeq.failure = none →
      s.commitSeq.nextSeq = job.seq →
      JobEffect s i job .waitTurn (s.setJob i job (.commit fetched false))
  | putEffect (fetched : FetchedPayload α) :
      job.phase = .commit fetched false →
      JobEffect s i job .putEffect
        { s.setJob i job (.commit fetched true) with
          consumeOffsets :=
            AList.insert fetched.producerId (fetched.consumeOffset + 1) s.consumeOffsets
          commits := s.commits ++ [job.seq] }
  | putOk (fetched : FetchedPayload α) :
      job.phase = .commit fetched true →
      JobEffect s i job .putOk (s.setJob i job (.readyToAdvance fetched))
  | putError (fetched : FetchedPayload α) (applied : Bool) :
      job.phase = .commit fetched applied →
      JobEffect s i job .putError (s.setJob i job (.retrySleep fetched))
  | retry (fetched : FetchedPayload α) :
      job.phase = .retrySleep fetched →
      JobEffect s i job .retry (s.setJob i job (.commit fetched false))
  | advance (fetched : FetchedPayload α) :
      job.phase = .readyToAdvance fetched →
      JobEffect s i job .advance
        { s.setJob i job (.finished (.ok fetched)) with
          commitSeq :=
            { s.commitSeq with
              nextSeq := job.seq + 1
              progress := CommitSequencer.retained { s.commitSeq with nextSeq := job.seq + 1 } } }
  | closed (error : MpscError) :
      Cancellable job.phase → s.shutdown = true →
      JobEffect s i job .closed (s.setJob i job (.failed error))
  | failClosed (error : MpscError) :
      job.phase = .failed error → s.shutdown = true →
      JobEffect s i job .fail (s.setJob i job (.finished (.error error)))
  | fail (error : MpscError) :
      job.phase = .failed error → s.shutdown = false →
      JobEffect s i job .fail
        { s.setJob i job (.finished (.error error)) with
          commitSeq :=
            { s.commitSeq with
              failure := s.commitSeq.failure.or (some ⟨job.seq, error.code, error.text⟩) } }

/-- A job that has not finished has its entry, and one that is to advance has its turn. -/
structure JobReady (s : Consumer α) (job : Job α) : Prop where
  entry : (∀ result, job.phase ≠ .finished result) →
    ∃ entry, s.commitSeq.progress job.seq = some entry
  turn : ∀ fetched, job.phase = .readyToAdvance fetched → s.commitSeq.nextSeq = job.seq

variable {i : ℕ} {job : Job α}

/-- A call of the sequencer that leaves it as it was. -/
theorem afterCall_of_unchanged {phase : JobPhase α} {c : Call CommitSequencer Unit}
    (h : c s.commitSeq = .ok () s.commitSeq) :
    s.afterCall i job phase c = s.setJob i job phase := by
  rw [afterCall, h]
  rfl

theorem jobEffect_of_step {e : JobEvent α} (hready : s.JobReady job)
    (h : s.stepJob i job e = some s') : JobEffect s i job e s' := by
  revert h
  fun_cases stepJob s i job e <;> rintro ⟨⟩
  · next hphase error herror =>
    obtain ⟨failure, hfailure, rfl⟩ := failure_of_ensureRunning_error herror
    exact .startFailed failure hphase hfailure
  · next hphase hok => exact .start hphase (failure_of_ensureRunning_ok hok)
  · next hphase obj =>
    obtain ⟨entry, hentry⟩ := hready.entry (by simp [hphase])
    rw [afterCall_of_unchanged (markWaitTurnBegin_eq hentry)]
    exact .fetch obj hphase
  · next hphase msg => exact .fetchRetryable msg hphase
  · next hphase msg => exact .fetchFailed msg hphase
  · next fetched hphase error herror =>
    cases hfailure : s.commitSeq.failure <;> simp [nextSeqIfRunning, hfailure] at herror
    exact herror ▸ .turnFailed fetched _ hphase hfailure
  · next fetched hphase hok =>
    cases hfailure : s.commitSeq.failure <;> simp [nextSeqIfRunning, hfailure] at hok
    obtain ⟨entry, hentry⟩ := hready.entry (by simp [hphase])
    rw [afterCall_of_unchanged (markCommitBegin_eq hentry)]
    exact .turn fetched hphase hfailure hok
  · next fetched hphase => exact .putEffect fetched hphase
  · next fetched hphase => exact .putOk fetched hphase
  · next fetched applied hphase => exact .putError fetched applied hphase
  · next fetched hphase => exact .retry fetched hphase
  · next fetched hphase =>
    obtain ⟨entry, hentry⟩ := hready.entry (by simp [hphase])
    rw [afterCall, ready_advance_eq (hready.turn fetched hphase) hentry]
    exact .advance fetched hphase
  · next hshutdown hphase => exact .closed _ (hphase ▸ .payload) hshutdown
  · next hshutdown fetched hphase => exact .closed _ (hphase ▸ .waitTurn fetched) hshutdown
  · next hshutdown fetched applied hphase =>
    exact .closed _ (hphase ▸ .commit fetched applied) hshutdown
  · next hshutdown fetched hphase => exact .closed _ (hphase ▸ .retrySleep fetched) hshutdown
  · next error hphase hshutdown => exact .failClosed error hphase hshutdown
  · next error hphase hshutdown =>
    obtain ⟨entry, hentry⟩ := hready.entry (by simp [hphase])
    rw [afterCall, fail_eq hentry]
    exact .fail error hphase (Bool.eq_false_iff.2 hshutdown)

/-! ## The caller -/

inductive CallerEffect (s : Consumer α) : CallerEvent → Consumer α → Prop
  | call (prefetchTarget : ℕ) :
      s.caller = .idle →
      CallerEffect s (.call prefetchTarget)
        { s with targetInflight := max prefetchTarget 1, caller := .waiting }
  | leave (e : CallerEvent) :
      s.caller = .waiting →
      e = .timeout ∨ (e = .closed ∧ (s.shutdown = true ∨ s.phase = .stopped)) →
      CallerEffect s e { s with caller := .idle }
  | pop (item : InflightItem) (inflight : List InflightItem) :
      s.caller = .waiting → s.inflight = item :: inflight →
      CallerEffect s .pop
        { s with
          commitSeq :=
            { s.commitSeq with
              progress := Function.update s.commitSeq.progress item.seq (some ⟨true⟩) }
          inflight := inflight
          inflightQueueSize := s.inflightQueueSize - 1
          caller := .awaiting item }
  | resultError (item : InflightItem) (job : Job α) (error : MpscError) :
      s.caller = .awaiting item → s.jobs[item.seq]? = some job →
      job.phase = .finished (.error error) →
      CallerEffect s .result (s.finishCall item (.error error))
  | result (item : InflightItem) (job : Job α) (fetched : FetchedPayload α) :
      s.caller = .awaiting item → s.jobs[item.seq]? = some job →
      job.phase = .finished (.ok fetched) → s.deleteCb = false →
      CallerEffect s .result (s.finishCall item (.ok ⟨fetched.producerId, fetched.payload⟩))
  | beginDelete (item : InflightItem) (job : Job α) (fetched : FetchedPayload α) :
      s.caller = .awaiting item → s.jobs[item.seq]? = some job →
      job.phase = .finished (.ok fetched) → s.deleteCb = true →
      CallerEffect s .result { s with caller := .deleting item fetched }
  | delete (item : InflightItem) (fetched : FetchedPayload α) (e : CallerEvent) :
      s.caller = .deleting item fetched →
      (e = .delete .ok ∨ (e = .deleteClosed ∧ s.shutdown = true)) →
      CallerEffect s e (s.finishCall item (.ok ⟨fetched.producerId, fetched.payload⟩))
  | deleteRetryable (item : InflightItem) (fetched : FetchedPayload α) (msg : String) :
      s.caller = .deleting item fetched → CallerEffect s (.delete (.retryable msg)) s
  | deleteFailed (item : InflightItem) (fetched : FetchedPayload α) (msg : String) :
      s.caller = .deleting item fetched →
      CallerEffect s (.delete (.nonRetryable msg))
        (s.finishCall item (.error (.deletePayloadNonRetryable msg)))

/-- The first item of the queue has its entry, and no job has panicked. -/
structure CallerReady (s : Consumer α) : Prop where
  entry : ∀ item ∈ s.inflight, ∃ entry, s.commitSeq.progress item.seq = some entry
  jobs : ∀ (i : ℕ) (job : Job α) (msg : String), s.jobs[i]? = some job → job.phase ≠ .panicked msg

theorem callerEffect_of_step {e : CallerEvent} (hready : s.CallerReady)
    (h : s.stepCaller e = some s') : CallerEffect s e s' := by
  revert h
  fun_cases stepCaller s e <;> rintro ⟨⟩
  · next hcaller => exact .call _ hcaller
  · next hcaller => exact .leave _ hcaller (.inl rfl)
  · next hshutdown hcaller => exact .leave _ hcaller (.inr ⟨rfl, .inl hshutdown⟩)
  · next hphase hcaller _ => exact .leave _ hcaller (.inr ⟨rfl, .inr hphase⟩)
  · next item inflight hinflight hcaller q hpop =>
    obtain ⟨entry, hentry⟩ := hready.entry item (by simp [hinflight])
    cases (markPopped_eq hentry).symm.trans hpop
    exact .pop item inflight hcaller hinflight
  · next item inflight hinflight hcaller msg q hpop =>
    obtain ⟨entry, hentry⟩ := hready.entry item (by simp [hinflight])
    cases (markPopped_eq hentry).symm.trans hpop
  · next item hcaller error hjob =>
    obtain ⟨job, hjob, hphase⟩ := Option.map_eq_some_iff.1 hjob
    exact .resultError item job error hcaller hjob hphase
  · next item hcaller fetched hjob hdelete =>
    obtain ⟨job, hjob, hphase⟩ := Option.map_eq_some_iff.1 hjob
    exact .beginDelete item job fetched hcaller hjob hphase hdelete
  · next item hcaller fetched hjob hdelete =>
    obtain ⟨job, hjob, hphase⟩ := Option.map_eq_some_iff.1 hjob
    exact .result item job fetched hcaller hjob hphase (Bool.eq_false_iff.2 hdelete)
  · next item hcaller msg hjob =>
    obtain ⟨job, hjob, hphase⟩ := Option.map_eq_some_iff.1 hjob
    exact absurd hphase (hready.jobs _ job msg hjob)
  · next item fetched hcaller => exact .delete item fetched _ hcaller (.inl rfl)
  · next item fetched hcaller msg => exact .deleteRetryable item fetched msg hcaller
  · next item fetched hcaller msg => exact .deleteFailed item fetched msg hcaller
  · next item fetched hcaller hshutdown =>
    exact .delete item fetched _ hcaller (.inr ⟨rfl, hshutdown⟩)

end Fluxon.Mq.Consumer
