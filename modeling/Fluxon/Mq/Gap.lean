import Fluxon.Mq.Channel

/-!
# Failed puts

The consumer hands out consecutive message ids, and a message that is not in the KV is a failure of
the sequencer for good. So a call of `put_with_payload` that fails leaves a hole that no later
message gets past (`Supplied.received_ne_successes`). If no failed call comes before a successful
one (`GapFree`) then nothing ever fails: every message that is handed out is in the KV until it is
received (`Healthy`).
-/

namespace Fluxon.Mq

open List Consumer

namespace Channel

variable {α : Type} {ch ch' : Channel α} {calls : List (PutCall α)} {i : ℕ} {job : Job α}

/-- No failed call comes before a successful one. -/
def GapFree (calls : List (PutCall α)) : Prop :=
  calls.Pairwise fun call later => later.code = 0 → call.code = 0

/-! ## A hole -/

theorem successes_append (l l' : List (PutCall α)) :
    successes (l ++ l') = successes l ++ successes l' := by
  simp [successes]

theorem exists_gap_of_not_gapFree (h : ¬GapFree calls) :
    ∃ before call after, calls = before ++ call :: after ∧ (∀ c ∈ before, c.code = 0) ∧
      call.code ≠ 0 ∧ successes after ≠ [] := by
  induction calls with
  | nil => exact absurd List.Pairwise.nil h
  | cons c cs ih =>
    by_cases hc : c.code = 0
    · have hcs : ¬GapFree cs := by
        intro hcs
        exact h (pairwise_cons.2 ⟨fun _ _ _ => hc, hcs⟩)
      obtain ⟨before, call, after, rfl, hbefore, hcall, hafter⟩ := ih hcs
      refine ⟨c :: before, call, after, rfl, ?_, hcall, hafter⟩
      intro c' hc'
      rcases mem_cons.1 hc' with rfl | hc'
      · exact hc
      · exact hbefore c' hc'
    · refine ⟨[], c, cs, rfl, nofun, hc, ?_⟩
      intro hnone
      apply h
      -- without a later success no two calls are out of order
      have hfail : ∀ c' ∈ cs, c'.code ≠ 0 := by simpa [successes] using hnone
      refine pairwise_cons.2 ⟨fun c' hc' hok => absurd hok (hfail c' hc'), ?_⟩
      exact pairwise_of_forall_mem_list fun _ _ b hb hok => absurd hok (hfail b hb)

/-- The turn does not get past a failed call. -/
theorem Supplied.nextSeq_le {f : ℕ} {call : PutCall α} (h : Supplied calls ch)
    (hcall : calls[f]? = some call) (hcode : call.code ≠ 0) :
    ch.watched.consumer.commitSeq.nextSeq ≤ f := by
  by_contra hlt
  rw [not_le] at hlt
  have hlen : f < ch.watched.consumer.jobs.length := lt_of_lt_of_le hlt h.inOrder.sequenced.next_le
  obtain ⟨job, hjob⟩ : ∃ job, ch.watched.consumer.jobs[f]? = some job :=
    ⟨_, getElem?_eq_getElem hlen⟩
  obtain ⟨fetched, hphase⟩ := h.inOrder.sequenced.finished_of_lt hjob hlt
  have hcarried : carried job.phase = some fetched := by
    rw [hphase]
    rfl
  obtain ⟨call', hcall', hcode', -⟩ := h.carrying f job fetched hjob hcarried
  rw [(h.inOrder.sequenced.coherent f job hjob).offset fetched hcarried, (h.message_job hjob).2,
    hcall] at hcall'
  cases hcall'
  exact hcode hcode'

/-- No more is received than has been committed. -/
theorem Supplied.length_received_le (h : Supplied calls ch) :
    ch.received.length ≤ ch.watched.consumer.commitSeq.nextSeq := by
  have hlength : ch.received.length =
      ((ch.watched.consumer.returned.filter fun r => r.2.toOption.isSome).map (·.1)).length := by
    rw [received, length_map, ← countP_eq_length_filter, length_filterMap_eq_countP]
    simp
  have hnodup : ((ch.watched.consumer.returned.filter fun r => r.2.toOption.isSome).map
      (·.1)).Nodup := by
    have hall : (ch.watched.consumer.returned.map (·.1)).Nodup := by
      rw [h.inOrder.queued.map_returned]
      exact nodup_range
    exact hall.sublist (filter_sublist.map _)
  have hsub : ((ch.watched.consumer.returned.filter fun r => r.2.toOption.isSome).map (·.1)) ⊆
      range ch.watched.consumer.commitSeq.nextSeq := by
    intro k hk
    obtain ⟨⟨k', result⟩, hr, rfl⟩ := mem_map.1 hk
    obtain ⟨hmem, hsome⟩ := mem_filter.1 hr
    obtain ⟨job, hjob, hanswers⟩ := h.undisturbed.returned _ hmem
    cases hanswers with
    | error => cases hsome
    | ok fetched hphase =>
      have hplace := h.inOrder.sequenced.place _ job hjob
      rw [hphase] at hplace
      exact mem_range.2 hplace
  have hle := (hnodup.subperm hsub).length_le
  rw [length_range] at hle
  exact hlength ▸ hle

/-- Past a hole nothing is received. -/
theorem Supplied.received_ne_successes (h : Supplied calls ch) (hgap : ¬GapFree calls) :
    ch.received ≠ successes calls := by
  obtain ⟨before, call, after, rfl, hbefore, hcode, hafter⟩ := exists_gap_of_not_gapFree hgap
  have hle := le_trans h.length_received_le
    (h.nextSeq_le (show (before ++ call :: after)[before.length]? = some call by simp) hcode)
  have hlength : before.length < (successes (before ++ call :: after)).length := by
    have hpos := length_pos_of_ne_nil hafter
    have hall : successes before = before.map (·.payload) := by
      rw [successes, filter_eq_self.2 fun c hc => by simp [hbefore c hc]]
    have hfail : successes (call :: after) = successes after := by simp [successes, hcode]
    rw [successes_append, hall, hfail, length_append, length_map]
    omega
  intro heq
  rw [heq] at hle
  omega

end Channel

/-! ## The consumer between two messages -/

namespace Consumer

variable {α : Type} {s s' : Consumer α} {i : ℕ} {job : Job α}

/-- The actor counts what is queued, picks only if there is something to pick, and does not stop by
itself. -/
structure Poised (s : Consumer α) : Prop where
  size : s.inflightQueueSize = (s.inflight ++ enqueued s.phase).length
  picking : s.phase = .picking → s.actor.readyProducers ≠ ∅
  stopped : s.phase = .stopped → s.shutdown = true ∨ s.commitSeq.failure.isSome
  running : ∀ msg, s.phase ≠ .panicked msg
  caller : ∀ msg, s.caller ≠ .panicked msg
  target : s.caller ≠ .idle → s.targetInflight ≠ 0

theorem Poised.actorEffect {e : ActorEvent} (h : Poised s) (he : ActorEffect s e s') :
    Poised s' := by
  have hquiet : ∀ {phase : ActorPhase}, enqueued phase = [] → enqueued s.phase = [] →
      s.inflightQueueSize = (s.inflight ++ enqueued phase).length := by
    intro phase hphase hbefore
    rw [h.size, hphase, hbefore]
  have hsize := h.size
  cases he with
  | refuse => exact h
  | setCallback hinput | metaSet _ hinput | produceOffset _ hinput =>
    exact ⟨hquiet rfl (Queued.enqueued_of_takesInput hinput), by simp, by simp, by simp, h.caller,
      h.target⟩
  | stop hinput hclosed =>
    exact ⟨hquiet rfl (Queued.enqueued_of_takesInput hinput), by simp, fun _ => hclosed, by simp,
      h.caller, h.target⟩
  | beginRefresh hphase | beginSelect hphase | scanProduce _ hphase | scanConsume _ hphase
  | scanMeta _ _ hphase | noMessage hphase | beginProbe hphase | probe _ _ _ _ _ hphase
  | probeNoMessage _ hphase | pickNoMessage _ hphase | pick _ hphase | reserve _ _ hphase =>
    exact ⟨hquiet rfl (by rw [hphase]; rfl), by simp, by simp, by simp, h.caller, h.target⟩
  | beginPick hphase hready | probeDone _ hphase hready =>
    exact ⟨hquiet rfl (by rw [hphase]; rfl), fun _ => hready, by simp, by simp, h.caller, h.target⟩
  | abandon _ habandons =>
    refine ⟨hquiet rfl ?_, by simp, by simp, by simp, h.caller, h.target⟩
    cases habandons with
    | refreshProduce _ hphase | refreshConsume _ _ hphase | refreshMeta _ _ hphase
    | probing _ _ hphase | selected _ _ hphase | admitting _ _ _ hphase => rw [hphase]; rfl
  | admitted _ _ _ hphase | enqueue _ hphase =>
    refine ⟨?_, by simp, by simp, by simp, h.caller, h.target⟩
    rw [hphase] at hsize
    simpa [enqueued] using hsize

theorem Poised.step {e : ConsumerEvent α} (h : Poised s) (hinOrder : InOrder s)
    (hstep : Step s e s') : Poised s' := by
  cases hinOrder.effect hstep with
  | actor he => exact h.actorEffect he
  | job hjob he =>
    have hframe := he.frame hjob
    constructor
    · rw [hframe.inflightQueueSize, hframe.inflight, hframe.phase]
      exact h.size
    · rw [hframe.phase, hframe.actor]
      exact h.picking
    · rw [hframe.phase, hframe.shutdown]
      intro hstopped
      refine (h.stopped hstopped).imp_right fun hsome => ?_
      rw [Option.isSome_iff_ne_none] at hsome ⊢
      exact fun hnone => hsome (hframe.failure hnone)
    · rw [hframe.phase]
      exact h.running
    · rw [hframe.caller]
      exact h.caller
    · rw [hframe.caller, hframe.targetInflight]
      exact h.target
  | caller he =>
    have hframe := he.frame
    have hrest : (s'.inflightQueueSize = (s'.inflight ++ enqueued s'.phase).length) →
        (∀ msg, s'.caller ≠ .panicked msg) → (s'.caller ≠ .idle → s'.targetInflight ≠ 0) →
        Poised s' := by
      intro hsize hcaller htarget
      refine ⟨hsize, ?_, ?_, ?_, hcaller, htarget⟩
      · rw [hframe.phase, hframe.actor]
        exact h.picking
      · rw [hframe.phase, hframe.shutdown, hframe.failure]
        exact h.stopped
      · rw [hframe.phase]
        exact h.running
    cases he with
    | deleteRetryable => exact h
    | call prefetchTarget =>
      refine hrest h.size nofun fun _ => ?_
      change max prefetchTarget 1 ≠ 0
      omega
    | leave | resultError | result | delete | deleteFailed =>
      exact hrest h.size nofun fun hbusy => absurd rfl hbusy
    | beginDelete _ _ _ hcaller =>
      exact hrest h.size nofun fun _ => h.target (by rw [hcaller]; exact nofun)
    | pop item inflight hcaller hinflight =>
      refine hrest ?_ nofun fun _ => h.target (by rw [hcaller]; exact nofun)
      have hsize := h.size
      rw [hinflight] at hsize
      rw [hsize]
      simp
  | shutdown => exact ⟨h.size, h.picking, fun _ => .inl rfl, h.running, h.caller, h.target⟩

theorem Poised.init (consumeOffsets : Table String ℕ) (deleteCb : Bool) :
    Poised (init consumeOffsets deleteCb : Consumer α) :=
  ⟨rfl, nofun, nofun, nofun, nofun, fun hbusy => absurd rfl hbusy⟩

end Consumer

/-! ## Without a hole -/

namespace Channel

variable {α : Type} {ch ch' : Channel α} {calls : List (PutCall α)} {i : ℕ} {job : Job α}

/-- Nothing has failed, and the payload of a message that has been published stays in the KV until
the message is received. -/
structure Healthy (calls : List (PutCall α)) (ch : Channel α) : Prop where
  supplied : Supplied calls ch
  poised : ch.watched.consumer.Poised
  failure : ch.watched.consumer.commitSeq.failure = none
  sound : ∀ (i : ℕ) (job : Job α), ch.watched.consumer.jobs[i]? = some job →
    hasFailed job.phase = false
  available : ∀ o a, Message calls o a → o < ch.settled ∨ ch.producer.phase = .publish o →
    o ∈ ch.watched.consumer.returned.map (·.1) ∨ ch.kv.lookup o = some a

theorem GapFree.message_of_le (h : GapFree calls) {o v : ℕ} {a : α} (hv : Message calls v a)
    (hle : o ≤ v) : ∃ b, Message calls o b := by
  obtain ⟨later, hlater, hok, -⟩ := hv
  obtain ⟨hlt, -⟩ := List.getElem?_eq_some_iff.1 hlater
  obtain ⟨call, hcall⟩ : ∃ call, calls[o]? = some call :=
    ⟨_, getElem?_eq_getElem (lt_of_le_of_lt hle hlt)⟩
  rcases Nat.lt_or_eq_of_le hle with hlt' | rfl
  · refine ⟨call.payload, call, hcall, ?_, rfl⟩
    obtain ⟨h₁, rfl⟩ := List.getElem?_eq_some_iff.1 hcall
    obtain ⟨h₂, rfl⟩ := List.getElem?_eq_some_iff.1 hlater
    exact pairwise_iff_getElem.1 h o v h₁ h₂ hlt' hok
  · exact ⟨later.payload, later, hlater, hok, rfl⟩

/-- The message of a job that has not finished is in the KV. -/
theorem Healthy.payloadResult (h : Healthy calls ch) (hgap : GapFree calls)
    (hjob : ch.watched.consumer.jobs[i]? = some job)
    (hphase : ∀ result, job.phase ≠ .finished result) (error : String) :
    ∃ a, ch.payloadResult job error = .ok a := by
  obtain ⟨hp, ho⟩ := h.supplied.message_job hjob
  have hmem : (job.producerId, job.consumeOffset) ∈ ch.watched.consumer.handedOut :=
    h.supplied.watching.informed.dispatching.dispatched.mono.subset
      (mem_map.2 ⟨job, mem_of_getElem? hjob, rfl⟩)
  obtain ⟨-, v, hv, hle⟩ := h.supplied.handedOut hmem
  obtain ⟨-, hlt, _, hmessage⟩ := h.supplied.producing.etcd _ v hv
  obtain ⟨a, ha⟩ := hgap.message_of_le hmessage hle
  have hsettled : job.consumeOffset < ch.settled := lt_of_le_of_lt hle hlt
  rcases h.available _ a ha (.inl hsettled) with hreturned | hkv
  · obtain ⟨⟨k, result⟩, hr, hk⟩ := mem_map.1 hreturned
    obtain ⟨job', hjob', hanswers⟩ := h.supplied.undisturbed.returned _ hr
    change k = job.consumeOffset at hk
    rw [hk, ho, hjob] at hjob'
    cases hjob'
    cases hanswers with
    | error _ hfinished | ok _ hfinished => exact absurd hfinished (hphase _)
  · simp [Channel.payloadResult, hp, hkv]

theorem Healthy.init (producerId : String) (calls : List (PutCall α))
    (membership : List (List String)) (deleteCb : Bool) :
    Healthy calls (Channel.init producerId calls membership deleteCb) where
  supplied := .init producerId calls membership deleteCb
  poised := .init ∅ deleteCb
  failure := rfl
  sound := nofun
  available := by
    rintro o a - (hlt | hphase)
    · cases hlt
    · cases hphase

variable {e : ConsumerEvent α}

/-- No job has failed after a step of a consumer in which nothing has failed. -/
theorem sound_of_step {s s' : Consumer α} (hinOrder : s.InOrder)
    (hfailure : s.commitSeq.failure = none) (hshutdown : s.shutdown = false)
    (hsound : ∀ (i : ℕ) (job : Job α), s.jobs[i]? = some job → hasFailed job.phase = false)
    (hfetch : ∀ i msg, e ≠ .job i (.fetch (.nonRetryable msg))) (hstep : s.Step e s') :
    s'.commitSeq.failure = none ∧ ∀ (i : ℕ) (job : Job α), s'.jobs[i]? = some job →
      hasFailed job.phase = false := by
  cases hinOrder.effect hstep with
  | actor he =>
    cases he with
    | admitted seq p o =>
      refine ⟨hfailure, ?_⟩
      intro k job hk
      rcases getElem?_concat_cases hk with hold | ⟨-, rfl⟩
      · exact hsound k job hold
      · rfl
    | _ => exact ⟨hfailure, hsound⟩
  | @job i job _ _ hjob he =>
    have hset : ∀ {phase : JobPhase α}, hasFailed phase = false →
        ∀ (k : ℕ) job', (s.setJob i job phase).jobs[k]? = some job' →
          hasFailed job'.phase = false := by
      intro phase hphase k job' hk
      rcases jobs_setJob_cases hjob hk with ⟨hki, rfl⟩ | ⟨hki, hk⟩
      · exact hphase
      · exact hsound k job' hk
    cases he with
    | startFailed _ _ hsome | turnFailed _ _ _ hsome =>
      rw [hfailure] at hsome
      cases hsome
    | putEffect | advance => exact ⟨hfailure, hset rfl⟩
    | fetchRetryable => exact ⟨hfailure, hsound⟩
    | fetchFailed msg => exact absurd rfl (hfetch i msg)
    | closed _ _ hclosed | failClosed _ _ hclosed =>
      rw [hshutdown] at hclosed
      cases hclosed
    | fail _ hphase =>
      have hfailed := hsound i job hjob
      rw [hphase] at hfailed
      cases hfailed
    | _ => exact ⟨hfailure, hset rfl⟩
  | caller he =>
    rw [he.frame.failure, he.frame.jobs]
    exact ⟨hfailure, hsound⟩
  | shutdown => exact ⟨hfailure, hsound⟩

section

variable (h : Healthy calls ch)
include h

/-- What has been received stays so, and a deletion is followed by the return of its message. -/
theorem Healthy.available_consumer {c : Consumer α} (hc : ch.watched.consumer.Step e c) {o : ℕ}
    {a : α} (ho : o ∈ ch.watched.consumer.returned.map (·.1) ∨ ch.kv.lookup o = some a) :
    o ∈ c.returned.map (·.1) ∨ (ch.kvAfter (.consumer e)).lookup o = some a := by
  have hmono : ch.watched.consumer.returned <+: c.returned := by
    cases h.supplied.inOrder.effect hc with
    | actor he => cases he <;> exact prefix_rfl
    | job hjob he => rw [(he.frame hjob).returned]
    | caller he =>
      cases he with
      | call | leave | pop | beginDelete | deleteRetryable => exact prefix_rfl
      | _ => exact prefix_append _ _
    | shutdown => exact prefix_rfl
  rcases ho with hreturned | hkv
  · exact .inl ((hmono.map _).subset hreturned)
  unfold kvAfter
  split
  · split
    · next hevent _ item fetched hcaller =>
      cases hevent
      by_cases ho : o = fetched.consumeOffset
      · obtain ⟨job, hjob, hphase⟩ :=
          h.supplied.inOrder.queued.deleting item fetched hcaller
        have hoffset : fetched.consumeOffset = item.seq :=
          ((h.supplied.inOrder.sequenced.coherent _ job hjob).offset fetched
            (by rw [hphase]; rfl)).trans (h.supplied.message_job hjob).2
        have hreturned : c = ch.watched.consumer.finishCall item
            (.ok ⟨fetched.producerId, fetched.payload⟩) := by
          simpa [Consumer.Step, Consumer.step, Consumer.stepCaller, hcaller] using hc.symm
        rw [hreturned, ho, hoffset]
        simp [Consumer.finishCall]
      · right
        split
        · rw [Table.lookup_erase_eq, if_neg ho]
          exact hkv
        · exact hkv
    · exact .inr hkv
  · exact .inr hkv

variable {w : WatchedConsumer α}

theorem Healthy.fetch {error : String} (hgap : GapFree calls)
    (hjob : ch.watched.consumer.jobs[i]? = some job)
    (hstep : ch.watched.Step (.consumer (.job i (.fetch (ch.payloadResult job error)))) w) :
    Healthy calls { ch with watched := w } := by
  have hsupplied := h.supplied.fetch hjob hstep
  cases WatchedConsumer.effect_of_step hstep with
  | consumer _ c _ hc =>
    have hphase : ∀ result, job.phase ≠ .finished result := by
      cases h.supplied.inOrder.effect hc with
      | job hjob' he =>
        rw [hjob] at hjob'
        cases hjob'
        exact fun result => he.not_finished
    obtain ⟨a, ha⟩ := h.payloadResult hgap hjob hphase error
    rw [ha] at hc
    have hfetch : ∀ k msg,
        (.job i (.fetch (.ok a)) : ConsumerEvent α) ≠ .job k (.fetch (.nonRetryable msg)) := nofun
    obtain ⟨hfailure, hsound⟩ := sound_of_step h.supplied.inOrder h.failure
      h.supplied.undisturbed.running h.sound hfetch hc
    refine ⟨hsupplied, h.poised.step h.supplied.inOrder hc, hfailure, hsound, ?_⟩
    intro o b hmessage ho
    exact h.available_consumer hc (h.available o b hmessage ho)

theorem Healthy.watched {e : WatchedEvent α} (hfree : ch.faultFree e = true)
    (hstep : ch.watched.Step e w) :
    Healthy calls
      { ch with watched := w, kv := ch.kvAfter e, membership := ch.membershipAfter e } := by
  have hsupplied := h.supplied.watched hfree hstep
  cases WatchedConsumer.effect_of_step hstep with
  | write => cases hfree
  | consumer e c _ hc =>
    have hfetch : ∀ i msg, e ≠ .job i (.fetch (.nonRetryable msg)) := by
      rintro i msg rfl
      cases hfree
    obtain ⟨hfailure, hsound⟩ := sound_of_step h.supplied.inOrder h.failure
      h.supplied.undisturbed.running h.sound hfetch hc
    refine ⟨hsupplied, h.poised.step h.supplied.inOrder hc, hfailure, hsound, ?_⟩
    intro o b hmessage ho
    exact h.available_consumer hc (h.available o b hmessage ho)
  | _ => exact ⟨hsupplied, h.poised, h.failure, h.sound, h.available⟩

theorem Healthy.step {e : ChannelEvent α} (hgap : GapFree calls)
    (hstep : Step ch e ch') : Healthy calls ch' := by
  have hsupplied := h.supplied.step hstep
  cases effect_of_step hstep with
  | put _ _ hphase | retry _ _ _ hphase =>
    refine ⟨hsupplied, h.poised, h.failure, h.sound, ?_⟩
    rintro o a hmessage (hlt | hpublish)
    · exact h.available o a hmessage (.inl (by simpa [settled, hphase] using hlt))
    · cases hpublish
  | store msgId call hphase hcode =>
    refine ⟨hsupplied, h.poised, h.failure, h.sound, ?_⟩
    obtain ⟨-, hcall⟩ := h.supplied.producing.begun _ _ _ hphase
    rintro o a hmessage ho
    rw [Table.lookup_insert_eq]
    by_cases hmsg : o = msgId
    · obtain ⟨call', hcall', -, rfl⟩ := hmessage
      rw [hmsg, hcall] at hcall'
      cases hcall'
      exact .inr (if_pos hmsg)
    · rw [if_neg hmsg]
      rcases ho with hlt | hpublish
      · exact h.available o a hmessage (.inl (by simpa [settled, hphase] using hlt))
      · cases hpublish
        exact absurd rfl hmsg
  | refuse msgId call hphase hcode =>
    refine ⟨hsupplied, h.poised, h.failure, h.sound, ?_⟩
    obtain ⟨hnext, hcall⟩ := h.supplied.producing.begun _ _ _ hphase
    rintro o a hmessage (hlt | hpublish)
    · apply h.available o a hmessage
      have hne : o ≠ msgId := by
        rintro rfl
        obtain ⟨call', hcall', hcode', -⟩ := hmessage
        rw [hcall] at hcall'
        cases hcall'
        exact hcode hcode'
      change o < ch.producer.nextMsgId at hlt
      simp only [settled, hphase]
      omega
    · cases hpublish
  | publish msgId w hphase hw =>
    obtain ⟨hnext, -⟩ := h.supplied.producing.stored msgId hphase
    cases WatchedConsumer.effect_of_step hw with
    | write =>
      refine ⟨hsupplied, h.poised, h.failure, h.sound, ?_⟩
      rintro o a hmessage (hlt | hpublish)
      · apply h.available o a hmessage
        change o < ch.producer.nextMsgId at hlt
        by_cases hmsg : o = msgId
        · exact .inr (hmsg ▸ hphase)
        · simp only [settled, hphase]
          omega
      · cases hpublish
  | fetch i error job w hjob hw => exact h.fetch hgap hjob hw
  | watched e w hfree hw => exact h.watched hfree hw

end

end Channel

end Fluxon.Mq
