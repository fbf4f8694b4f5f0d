import Fluxon.Foundations.Inevitable
import Fluxon.Mq.Gap
import Mathlib.Data.Prod.Lex
import Mathlib.Order.WellFoundedSet
import Mathlib.Algebra.GroupWithZero.Nat

/-!
# What is put is received

The consumer of a channel receives every successfully put message, in order, if and only if no
failed call of `put_with_payload` comes before a successful one (`successes_received_iff`). Without
a hole every step brings the channel closer to the end, by a rank that counts, in this order, what
can still wake the actor, the messages to hand out, and the work on those that have been handed
out; and a channel that cannot go on has delivered everything.
-/

namespace Fluxon.Mq

open Consumer WatchedConsumer List Channel

/-! ## The work of the consumer -/

theorem sum_map_set_lt {β : Type} (f : β → ℕ) {l : List β} {i : ℕ} {a b : β}
    (h : l[i]? = some a) (hlt : f b < f a) : ((l.set i b).map f).sum < (l.map f).sum := by
  induction l generalizing i with
  | nil => cases h
  | cons c l ih =>
    cases i with
    | zero =>
      cases h
      simpa using hlt
    | succ i => simpa using ih h

namespace Consumer

variable {α : Type} {s s' : Consumer α} {i : ℕ} {job : Job α}

def jobRank : JobPhase α → ℕ
  | .spawned => 7
  | .payload => 6
  | .waitTurn _ => 5
  | .retrySleep _ => 4
  | .commit _ false => 3
  | .commit _ true => 2
  | .readyToAdvance _ | .failed _ => 1
  | .finished _ | .panicked _ => 0

/-- The steps of the actor until it waits for an input or hands out a message. The message it has
handed out is yet to become a job. -/
def actorRank (a : ConsumerActor) : ActorPhase → ℕ
  | .waitInputs | .stopped | .panicked _ => 0
  | .refreshMeta _ | .picking => 1
  | .refreshConsume _ => 2
  | .refreshProduce => 3
  | .probing pending _ => pending.card + 2
  | .selecting => a.staleNoRoomProducers.card + 3
  | .idle => a.staleNoRoomProducers.card + 4
  | .enqueueing _ => a.staleNoRoomProducers.card + 5
  | .admitting _ _ _ => a.staleNoRoomProducers.card + 17
  | .selected _ _ => a.staleNoRoomProducers.card + 18

def callerRank : CallerPhase α → ℕ
  | .idle => 4
  | .waiting => 3
  | .awaiting _ => 2
  | .deleting _ _ => 1
  | .panicked _ => 0

def work (s : Consumer α) : ℕ :=
  (s.jobs.map fun job => jobRank job.phase).sum + 4 * (s.jobs.length - s.returned.length) +
    callerRank s.caller + actorRank s.actor s.phase

/-- A step of a job, unless it only repeats something. -/
theorem work_lt_of_jobEffect {e : JobEvent α} (hjob : s.jobs[i]? = some job)
    (hfetch : ∀ msg, e ≠ .fetch (.retryable msg)) (hput : e ≠ .putError) (hopen : e ≠ .closed)
    (he : JobEffect s i job e s') : s'.work < s.work := by
  have hset : ∀ (job' : Job α) (phase : JobPhase α), jobRank phase < jobRank job.phase →
      (s.setJob i job' phase).work < s.work := by
    intro job' phase hlt
    have hsum := sum_map_set_lt (fun job : Job α => jobRank job.phase) hjob
      (b := { job' with phase }) hlt
    simp only [work, setJob, length_set]
    omega
  cases he with
  | startFailed _ hphase | start hphase | fetch _ hphase | fetchFailed _ hphase
  | turnFailed _ _ hphase | turn _ hphase | putOk _ hphase | retry _ hphase
  | failClosed _ hphase => exact hset _ _ (by simp [hphase, jobRank])
  | putEffect fetched hphase => exact hset job (.commit fetched true) (by simp [hphase, jobRank])
  | advance fetched hphase => exact hset job (.finished (.ok fetched)) (by simp [hphase, jobRank])
  | fail error hphase => exact hset job (.finished (.error error)) (by simp [hphase, jobRank])
  | fetchRetryable msg => exact absurd rfl (hfetch msg)
  | putError => exact absurd rfl hput
  | closed => exact absurd rfl hopen

/-- There is a job for the item in hand. -/
theorem Queued.length_returned_lt {item : InflightItem} (h : Queued s)
    (hhand : inHand s.caller = [item]) : s.returned.length < s.jobs.length := by
  have hlength := congrArg List.length h.order
  rw [hhand, length_range] at hlength
  simp only [length_append, length_map, length_cons, length_nil] at hlength
  omega

theorem Queued.length_returned_le (h : Queued s) : s.returned.length ≤ s.jobs.length := by
  have hlength := congrArg List.length h.order
  rw [length_range, length_append, length_map] at hlength
  omega

theorem work_lt_of_callerEffect {e : CallerEvent} (h : Queued s)
    (hwait : e ≠ .timeout) (hopen : s.shutdown = false) (hrunning : s.phase ≠ .stopped)
    (hdelete : ∀ msg, e ≠ .delete (.retryable msg)) (he : CallerEffect s e s') :
    s'.work < s.work := by
  have hfinish : ∀ {item : InflightItem} (result : Except MpscError (ConsumedPayload α)),
      inHand s.caller = [item] → 0 < callerRank s.caller →
      (s.finishCall item result).work < s.work := by
    intro item result hhand hpos
    have hlt := h.length_returned_lt hhand
    have hsplit : s.jobs.length - s.returned.length =
        s.jobs.length - (s.returned ++ [(item.seq, result)]).length + 1 := by
      rw [length_append, length_singleton]
      omega
    have hidle : callerRank (.idle : CallerPhase α) = 4 := rfl
    simp only [work, finishCall, hsplit, hidle]
    omega
  cases he with
  | call _ hcaller | pop _ _ hcaller | beginDelete _ _ _ hcaller => simp [work, hcaller, callerRank]
  | leave _ _ hcause =>
    rcases hcause with rfl | ⟨-, hshutdown | hstopped⟩
    · exact absurd rfl hwait
    · rw [hopen] at hshutdown
      cases hshutdown
    · exact absurd hstopped hrunning
  | resultError _ _ _ hcaller | result _ _ _ hcaller | delete _ _ _ hcaller
  | deleteFailed _ _ _ hcaller =>
    exact hfinish _ (by rw [hcaller]; rfl) (by simp [hcaller, callerRank])
  | deleteRetryable _ _ msg => exact absurd rfl (hdelete msg)

/-- Whether the payload callback is still to be set, and the first snapshot still to be read. -/
def startup (s : Consumer α) : ℕ :=
  (if s.payloadCb then 0 else 1) + if s.actor.offsetSnapshotState = .pending then 1 else 0

/-- What a step brings forward. -/
inductive Progress (s : Consumer α) (e : ConsumerEvent α) (s' : Consumer α) : Prop
  | startup : s'.startup < s.startup → Progress s e s'
  | membership (set : List String) :
      e = .actor (.metaSet set) → s'.startup = s.startup → s'.handedOut = s.handedOut →
      Progress s e s'
  | produceOffset (updates : List (String × ℤ)) :
      e = .actor (.produceOffset updates) → s'.startup = s.startup →
      s'.handedOut = s.handedOut → Progress s e s'
  | handOut (m : String × ℕ) :
      s'.startup = s.startup → s'.handedOut = s.handedOut ++ [m] → Progress s e s'
  | work :
      s'.startup = s.startup → s'.handedOut = s.handedOut → s'.work < s.work → Progress s e s'

theorem startup_congr (hcallback : s'.payloadCb = s.payloadCb)
    (hstate : s'.actor.offsetSnapshotState = s.actor.offsetSnapshotState) :
    s'.startup = s.startup := by
  rw [startup, startup, hcallback, hstate]

/-- A step of the actor that changes neither the jobs nor its sets. -/
theorem work_lt_of_phase {phase : ActorPhase} {nextPrefetchSeq : ℕ} {inflight : List InflightItem}
    {observed : List (String × ℤ)} {actor : ConsumerActor}
    (h : actorRank actor phase < actorRank s.actor s.phase) :
    ({ s with actor, phase, nextPrefetchSeq, inflight, observed } : Consumer α).work < s.work := by
  simp only [work]
  omega

theorem progress_of_actorEffect {d : Table String ℕ} {e : ActorEvent} (hoffsets : Offsets d s)
    (hqueued : Queued s) (hfailure : s.commitSeq.failure = none) (hopen : s.shutdown = false)
    (hcallback : e = .setCallback → s.payloadCb = false) (hfree : ¬Abandons s e)
    (he : ActorEffect s e s') : Progress s (.actor e) s' := by
  cases he with
  | setCallback =>
    refine .startup ?_
    simp [startup, hcallback rfl]
  | metaSet set =>
    exact .membership set rfl
      (startup_congr rfl (ConsumerActor.handleMetaMsg_offsets s.actor set).2.2.2) rfl
  | produceOffset updates =>
    exact .produceOffset updates rfl
      (startup_congr rfl (ConsumerActor.handleProduceOffsetMsg_offsets updates s.actor).2.2) rfl
  | stop _ hclosed | refuse _ hclosed => simp [hfailure, hopen] at hclosed
  | abandon _ habandons => exact absurd habandons hfree
  | beginRefresh hphase | beginSelect hphase | scanProduce _ hphase | scanConsume _ hphase
  | noMessage hphase | beginPick hphase | beginProbe hphase | reserve _ _ hphase
  | enqueue _ hphase =>
    refine .work (startup_congr rfl rfl) rfl (work_lt_of_phase ?_)
    simp [hphase, actorRank]
  | scanMeta t set hphase =>
    have hpending := hoffsets.phase
    rw [hphase] at hpending
    refine .startup ?_
    simp [startup, hpending.1]
  | probe p _ _ pending _ hphase hp =>
    refine .work (startup_congr rfl rfl) rfl (work_lt_of_phase ?_)
    have hcard := Finset.card_erase_lt_of_mem hp
    simp only [hphase, actorRank]
    omega
  | probeNoMessage probed hphase | probeDone probed hphase =>
    refine .work (startup_congr rfl (ConsumerActor.applyProbes_offsets probed s.actor).2) rfl
      (work_lt_of_phase ?_)
    simp [hphase, actorRank]
  | pickNoMessage p hphase =>
    refine .work (startup_congr rfl (by simp)) rfl (work_lt_of_phase ?_)
    simp [hphase, actorRank]
  | pick p =>
    exact .handOut _ (startup_congr rfl (ConsumerActor.offsetSnapshotState_refresh _ _)) rfl
  | admitted seq p o hphase =>
    refine .work (startup_congr rfl rfl) rfl ?_
    have hle := hqueued.length_returned_le
    have hsplit : s.jobs.length + 1 - s.returned.length =
        s.jobs.length - s.returned.length + 1 := by omega
    simp only [work, map_append, map_cons, map_nil, sum_append,
      sum_cons, sum_nil, length_append, length_singleton, hsplit, hphase,
      actorRank, Job.spawn, jobRank]
    omega

end Consumer

/-! ## The rank of a channel -/

namespace Channel

variable {α : Type} {ch ch' : Channel α} {calls : List (PutCall α)} {i : ℕ} {job : Job α}

/-- Each step of the producer pays for the offset that it may put into the stream. -/
def producerRank (producer : Producer α) : ℕ :=
  (producer.calls.map fun call => call.retries + 6).sum +
    match producer.phase with
    | .idle => 0
    | .payload _ _ retries => retries + 5
    | .publish _ => 4

def watchRank : WatchPhase → ℕ
  | .starting => 4
  | .resyncing stream => 3 * stream.events.length + 3
  | .sending _ stream => 3 * stream.events.length + 2
  | .streaming stream => 3 * stream.events.length
  | .stopped => 0

/-- What can still wake the actor. -/
def inputs (ch : Channel α) : ℕ :=
  producerRank ch.producer + watchRank ch.watched.watch + ch.watched.channel.length +
    ch.membership.length + ch.watched.consumer.startup

/-- The messages that have been published and not handed out. -/
def unread (ch : Channel α) : ℕ := (ch.watched.produceOffsets.lookup ch.producerId).elim 0 (· + 1) -
    ch.watched.consumer.handedOut.length

def rank (ch : Channel α) : ℕ ×ₗ ℕ ×ₗ ℕ :=
  toLex (ch.inputs, toLex (ch.unread, ch.watched.consumer.work))

theorem rank_lt_of_inputs (h : ch'.inputs < ch.inputs) : ch'.rank < ch.rank :=
  Prod.Lex.toLex_lt_toLex.2 (.inl h)

theorem rank_lt_of_unread (hinputs : ch'.inputs = ch.inputs) (h : ch'.unread < ch.unread) :
    ch'.rank < ch.rank :=
  Prod.Lex.toLex_lt_toLex.2 (.inr ⟨hinputs, Prod.Lex.toLex_lt_toLex.2 (.inl h)⟩)

theorem rank_lt_of_work (hinputs : ch'.inputs = ch.inputs) (hunread : ch'.unread = ch.unread)
    (h : ch'.watched.consumer.work < ch.watched.consumer.work) : ch'.rank < ch.rank :=
  Prod.Lex.toLex_lt_toLex.2 (.inr ⟨hinputs, Prod.Lex.toLex_lt_toLex.2 (.inr ⟨hunread, h⟩)⟩)

theorem watchRank_deliver (update : String × ℤ) (phase : WatchPhase) :
    watchRank (phase.deliver update) ≤ watchRank phase + 3 := by
  unfold WatchPhase.deliver
  split
  · simp only [watchRank, length_append, length_singleton]
    omega
  · simp only [watchRank, length_append, length_singleton]
    omega
  · simp only [watchRank, length_append, length_singleton]
    omega
  · omega

theorem length_tail_lt {β : Type} {l : List β} {a : β} (h : l.head? = some a) :
    l.tail.length < l.length := by
  cases l with
  | nil => cases h
  | cons => simp

/-- The next message to hand out has been published. -/
theorem Supplied.unread_lt {m : String × ℕ} (h : Supplied calls ch') (hid : ch'.producerId = ch.producerId)
    (hetcd : ch'.watched.produceOffsets = ch.watched.produceOffsets)
    (hhandedOut : ch'.watched.consumer.handedOut = ch.watched.consumer.handedOut ++ [m]) :
    ch'.unread < ch.unread := by
  have hmem : m ∈ ch'.watched.consumer.handedOut := by simp [hhandedOut]
  obtain ⟨hp, v, hv, hle⟩ := h.handedOut hmem
  -- offsets are handed out one after the other, so the new one is the number of those before
  have hoffset : m.2 = ch.watched.consumer.handedOut.length := by
    have hall : ∀ m' ∈ ch'.watched.consumer.handedOut, m'.1 = ch'.producerId :=
      fun m' hm' => (h.handedOut hm').1
    have hconsecutive := h.watching.informed.dispatching.offsets.consecutive ch'.producerId
    rw [offsetsOf_eq_map_of_forall hall, hhandedOut, map_append, length_append,
      length_map] at hconsecutive
    have hget := congrArg (·[ch.watched.consumer.handedOut.length]?) hconsecutive
    simpa [startOffset, consumeOffsetBegin] using hget
  rw [unread, unread, ← hetcd, ← hid, hv, hhandedOut, length_append, length_singleton]
  simp only [Option.elim_some]
  omega

variable {e : ConsumerEvent α} {c : Consumer α}

/-- A step of the consumer in which nothing fails brings something forward. -/
theorem Healthy.progress (h : Healthy calls ch)
    (hcallback : e = .actor .setCallback → ch.watched.consumer.payloadCb = false)
    (hactor : ∀ e', e = .actor e' → ¬ch.watched.consumer.Abandons e')
    (hjob : ∀ i e', e = .job i e' → (∀ msg, e' ≠ .fetch (.retryable msg)) ∧ e' ≠ .putError ∧
      e' ≠ .closed)
    (hcaller : ∀ e', e = .caller e' → e' ≠ .timeout ∧ ∀ msg, e' ≠ .delete (.retryable msg))
    (hshutdown : e ≠ .shutdown) (hc : ch.watched.consumer.Step e c) :
    ch.watched.consumer.Progress e c := by
  have hinOrder := h.supplied.inOrder
  have hopen := h.supplied.undisturbed.running
  cases hinOrder.effect hc with
  | actor he =>
    exact progress_of_actorEffect h.supplied.watching.informed.dispatching.offsets
      hinOrder.queued h.failure hopen (fun heq => hcallback (congrArg _ heq)) (hactor _ rfl) he
  | job hjob' he =>
    obtain ⟨hfetch, hput, hclosed⟩ := hjob _ _ rfl
    have hframe := he.frame hjob'
    exact .work (startup_congr hframe.payloadCb (by rw [hframe.actor]))
      hframe.handedOut (work_lt_of_jobEffect hjob' hfetch hput hclosed he)
  | caller he =>
    obtain ⟨hwait, hdelete⟩ := hcaller _ rfl
    have hstopped : ch.watched.consumer.phase ≠ .stopped := by
      intro hstopped
      have hcause := h.poised.stopped hstopped
      simp [hopen, h.failure] at hcause
    exact .work (startup_congr he.frame.payloadCb (by rw [he.frame.actor]))
      he.frame.handedOut
      (work_lt_of_callerEffect hinOrder.queued hwait hopen hstopped hdelete he)
  | shutdown => exact absurd rfl hshutdown

/-- In a channel without faults the actor does not give up. -/
theorem Healthy.not_abandons {e : ActorEvent} (h : Healthy calls ch)
    (hfree : ch.faultFree (.consumer (.actor e)) = true) : ¬ch.watched.consumer.Abandons e := by
  intro habandons
  cases habandons with
  | refreshProduce | refreshConsume | refreshMeta | probing => cases hfree
  | selected _ _ _ hsome | admitting _ _ _ _ hsome => simp [h.failure] at hsome

theorem Healthy.progress_of_faultFree (h : Healthy calls ch)
    (hfree : ch.faultFree (.consumer e) = true) (hc : ch.watched.consumer.Step e c) :
    ch.watched.consumer.Progress e c := by
  apply h.progress _ _ _ _ _ hc
  · rintro rfl
    simpa [faultFree] using hfree
  · rintro e' rfl
    exact h.not_abandons hfree
  · rintro i e' rfl
    refine ⟨?_, ?_, ?_⟩
    · rintro msg rfl
      cases hfree
    · rintro rfl
      cases hfree
    · rintro rfl
      cases hfree
  · rintro e' rfl
    constructor
    · rintro rfl
      cases hfree
    · rintro msg rfl
      simp [faultFree] at hfree
  · rintro rfl
    cases hfree

/-- What a step of the consumer brings forward lowers the rank. -/
theorem rank_lt_of_progress (hsupplied : Supplied calls ch')
    (hconsistent : ch.watched.consistent e = true)
    (hmember : ∀ set, e = .actor (.metaSet set) → ch.membership.head? = some set)
    (hid : ch'.producerId = ch.producerId) (hproducer : ch'.producer = ch.producer)
    (hwatched : ch'.watched =
      { ch.watched with consumer := c, channel := ch.watched.channelAfter e })
    (hmembership : ch'.membership = ch.membershipAfter (.consumer e))
    (h : ch.watched.consumer.Progress e c) : ch'.rank < ch.rank := by
  have hchannel_le : (ch.watched.channelAfter e).length ≤ ch.watched.channel.length := by
    unfold channelAfter
    split
    · rw [length_tail]
      omega
    · exact le_refl _
  have hmembership_le : ch'.membership.length ≤ ch.membership.length := by
    rw [hmembership]
    unfold membershipAfter
    split
    · rw [length_tail]
      omega
    · exact le_refl _
  have hinputs : ch'.inputs = producerRank ch.producer + watchRank ch.watched.watch +
      (ch.watched.channelAfter e).length + ch'.membership.length + c.startup := by
    rw [inputs, hproducer, hwatched]
  have hle : c.startup = ch.watched.consumer.startup → ch'.inputs ≤ ch.inputs := by
    intro hstartup
    rw [hinputs, inputs, hstartup]
    omega
  cases h with
  | startup hlt =>
    apply rank_lt_of_inputs
    rw [hinputs, inputs]
    omega
  | membership set he hstartup =>
    apply rank_lt_of_inputs
    have hlt := length_tail_lt (hmember set he)
    have htail : ch'.membership = ch.membership.tail := by rw [hmembership, he]; rfl
    rw [hinputs, inputs, hstartup, htail]
    omega
  | produceOffset updates he hstartup =>
    apply rank_lt_of_inputs
    subst he
    simp only [consistent, decide_eq_true_eq] at hconsistent
    have hlt : (ch.watched.channelAfter (.actor (.produceOffset updates))).length <
        ch.watched.channel.length := length_tail_lt hconsistent
    rw [hinputs, inputs, hstartup]
    omega
  | handOut m hstartup hhandedOut =>
    have hunread : ch'.unread < ch.unread :=
      hsupplied.unread_lt hid (by rw [hwatched]) (by rw [hwatched, hhandedOut])
    rcases Nat.lt_or_eq_of_le (hle hstartup) with hlt | heq
    · exact rank_lt_of_inputs hlt
    · exact rank_lt_of_unread heq hunread
  | work hstartup hhandedOut hwork =>
    have hunread : ch'.unread = ch.unread := by rw [unread, unread, hid, hwatched, hhandedOut]
    have hwork' : ch'.watched.consumer.work < ch.watched.consumer.work := by
      rw [hwatched]
      exact hwork
    rcases Nat.lt_or_eq_of_le (hle hstartup) with hlt | heq
    · exact rank_lt_of_inputs hlt
    · exact rank_lt_of_work heq hunread hwork'

theorem payloadResult_ne_retryable {error msg : String} :
    ch.payloadResult job error ≠ .retryable msg := by
  unfold payloadResult
  split <;> exact nofun

/-- A step of the watch loop lowers the rank. -/
theorem rank_lt_of_watch {e : WatchEvent} {w : WatchedConsumer α}
    (hfree : ch.faultFree (.watch e) = true) (hstep : ch.watched.Step (.watch e) w) :
    rank { ch with
      watched := w, kv := ch.kvAfter (.watch e), membership := ch.membershipAfter (.watch e) } <
      ch.rank := by
  apply rank_lt_of_inputs
  cases WatchedConsumer.effect_of_step hstep with
  | openFailed | scanFailed | restart | stop => cases hfree
  | openStream hwatch | scan _ hwatch | scanEmpty _ hwatch =>
    simp [inputs, hwatch, watchRank, membershipAfter]
  | send _ _ hwatch =>
    simp only [inputs, hwatch, watchRank, membershipAfter, length_append, length_singleton]
    omega
  | batch n stream hwatch hpos hle =>
    simp only [inputs, hwatch, watchRank, membershipAfter, length_drop]
    omega

theorem Healthy.rank_lt {e : ChannelEvent α} (h : Healthy calls ch)
    (hstep : Step ch e ch') : ch'.rank < ch.rank := by
  have hsupplied := h.supplied.step hstep
  cases effect_of_step hstep with
  | put call rest hphase hcalls =>
    apply rank_lt_of_inputs
    simp only [inputs, producerRank, hphase, hcalls, map_cons, sum_cons]
    omega
  | retry msgId call retries hphase | refuse msgId call hphase | store msgId call hphase =>
    apply rank_lt_of_inputs
    simp only [inputs, producerRank, hphase]
    omega
  | publish msgId w hphase hw =>
    apply rank_lt_of_inputs
    cases WatchedConsumer.effect_of_step hw with
    | write =>
      have hdeliver := watchRank_deliver (ch.producerId, msgId) ch.watched.watch
      simp only [inputs, producerRank, hphase]
      omega
  | fetch i error job w hjob hw =>
    cases WatchedConsumer.effect_of_step hw with
    | consumer _ c hconsistent hc =>
      apply rank_lt_of_progress hsupplied hconsistent nofun rfl rfl rfl rfl
      refine h.progress nofun nofun ?_ nofun
        nofun hc
      intro k e' he'
      obtain ⟨-, rfl⟩ := ConsumerEvent.job.inj he'
      refine ⟨?_, nofun, nofun⟩
      exact fun msg hmsg => payloadResult_ne_retryable (JobEvent.fetch.inj hmsg)
  | watched e w hfree hw =>
    cases e with
    | write | breakStream => cases hfree
    | watch e => exact rank_lt_of_watch hfree hw
    | consumer e =>
      cases WatchedConsumer.effect_of_step hw with
      | consumer _ c hconsistent hc =>
        apply rank_lt_of_progress hsupplied hconsistent _ rfl rfl rfl rfl
          (h.progress_of_faultFree hfree hc)
        rintro set rfl
        simpa [faultFree] using hfree

/-! ## A channel that cannot go on -/

/-- There is no step. -/
def Stuck (ch : Channel α) : Prop := ∀ e, ch.step e = none

namespace Stuck

variable (h : Stuck ch)
include h

theorem consumer (hfree : ch.faultFree (.consumer e) = true)
    (hconsistent : ch.watched.consistent e = true) : ch.watched.consumer.step e = none := by
  have hnone := h (.watched (.consumer e))
  simpa [step, hfree, WatchedConsumer.step, hconsistent] using hnone

theorem watch {e : WatchEvent} (hfree : ch.faultFree (.watch e) = true) :
    ch.watched.stepWatch e = none := by
  have hnone := h (.watched (.watch e))
  simpa [step, hfree, WatchedConsumer.step] using hnone

/-- All calls of `put_with_payload` have returned. -/
theorem producer (hproducing : Producing calls ch) : calls.length ≤ ch.settled := by
  cases hphase : ch.producer.phase with
  | idle =>
    have hput := h .put
    cases hcalls : ch.producer.calls with
    | nil =>
      have htodo := hproducing.todo
      rw [hcalls] at htodo
      rw [settled, hphase]
      exact drop_eq_nil_iff.1 htodo.symm
    | cons call rest => simp [step, hphase, hcalls] at hput
  | payload msgId call retries =>
    have hpayload := h .payload
    cases retries with
    | succ retries => simp [step, hphase] at hpayload
    | zero =>
      simp only [step, hphase] at hpayload
      split at hpayload <;> cases hpayload
  | publish msgId =>
    have hpublish := h .publish
    have hlt : (ch.watched.produceOffsets.lookup ch.producerId).all (· < msgId) = true := by
      cases hlookup : ch.watched.produceOffsets.lookup ch.producerId with
      | none => rfl
      | some v =>
        have hv := (hproducing.etcd _ v hlookup).2.1
        rw [settled, hphase] at hv
        simpa using hv
    simp [step, hphase, WatchedConsumer.step, hlt] at hpublish

variable (hhealthy : Healthy calls ch)
include hhealthy

/-- All jobs have finished. -/
theorem jobs : ch.watched.consumer.commitSeq.nextSeq = ch.watched.consumer.jobs.length := by
  have hsequenced := hhealthy.supplied.inOrder.sequenced
  by_contra hne
  have hlt : ch.watched.consumer.commitSeq.nextSeq < ch.watched.consumer.jobs.length :=
    lt_of_le_of_ne hsequenced.next_le hne
  -- the job whose turn it is has a step
  obtain ⟨job, hjob⟩ : ∃ job, ch.watched.consumer.jobs[ch.watched.consumer.commitSeq.nextSeq]? =
      some job := ⟨_, getElem?_eq_getElem hlt⟩
  have hseq := (hsequenced.coherent _ job hjob).seq
  have hplace := hsequenced.place _ job hjob
  have hsound := hhealthy.sound _ job hjob
  have hnone : ∀ e : JobEvent α,
      ch.faultFree (.consumer (.job ch.watched.consumer.commitSeq.nextSeq e)) = true →
      ch.watched.consumer.stepJob ch.watched.consumer.commitSeq.nextSeq job e = none := by
    intro e hfree
    have hstep := h.consumer hfree rfl
    simpa [Consumer.step, hjob] using hstep
  cases hphase : job.phase with
  | spawned =>
    have hstart := hnone .start rfl
    simp [stepJob, hphase, CommitSequencer.ensureRunning, hhealthy.failure] at hstart
  | payload =>
    have hfetch := h (.fetch ch.watched.consumer.commitSeq.nextSeq "")
    simp only [step, hjob, WatchedConsumer.step, WatchedConsumer.consistent, if_true,
      Consumer.step, Consumer.stepJob, hphase] at hfetch
    split at hfetch <;> cases hfetch
  | waitTurn fetched =>
    have hturn := hnone .waitTurn rfl
    simp [stepJob, hphase, CommitSequencer.nextSeqIfRunning, hhealthy.failure, hseq] at hturn
  | commit fetched applied =>
    cases applied with
    | false =>
      have hput := hnone .putEffect rfl
      simp [stepJob, hphase] at hput
    | true =>
      have hput := hnone .putOk rfl
      simp [stepJob, hphase] at hput
  | retrySleep fetched =>
    have hretry := hnone .retry rfl
    simp [stepJob, hphase] at hretry
  | readyToAdvance fetched =>
    have hadvance := hnone .advance rfl
    simp [stepJob, hphase] at hadvance
  | failed => simp [hphase, hasFailed] at hsound
  | finished result =>
    cases result with
    | error => simp [hphase, hasFailed] at hsound
    | ok => simp [hphase, Consumer.Place] at hplace
  | panicked => simp [hphase, Consumer.Place] at hplace

/-- The caller waits for a message, and none is queued. -/
theorem caller : ch.watched.consumer.caller = .waiting ∧ ch.watched.consumer.inflight = [] := by
  have hinOrder := hhealthy.supplied.inOrder
  cases hcaller : ch.watched.consumer.caller with
  | idle =>
    have hcall := h.consumer (e := .caller (.call 1)) rfl rfl
    simp [Consumer.step, Consumer.stepCaller, hcaller] at hcall
  | waiting =>
    refine ⟨rfl, ?_⟩
    have hpop := h.consumer (e := .caller .pop) rfl rfl
    cases hinflight : ch.watched.consumer.inflight with
    | nil => rfl
    | cons item inflight =>
      simp only [Consumer.step, Consumer.stepCaller, hcaller, hinflight] at hpop
      split at hpop <;> cases hpop
  | awaiting item =>
    have hresult := h.consumer (e := .caller .result) rfl rfl
    -- the job of the item has finished
    have hmem : item.seq ∈ range ch.watched.consumer.jobs.length := by
      rw [← hinOrder.queued.order, hcaller]
      simp [inHand]
    have hlt := mem_range.1 hmem
    obtain ⟨job, hjob⟩ : ∃ job, ch.watched.consumer.jobs[item.seq]? = some job :=
      ⟨_, getElem?_eq_getElem hlt⟩
    obtain ⟨fetched, hphase⟩ := hinOrder.sequenced.finished_of_lt hjob
      (by rw [h.jobs hhealthy]; exact hlt)
    simp only [Consumer.step, Consumer.stepCaller, hcaller, hjob, Option.map_some, hphase]
      at hresult
    split at hresult <;> cases hresult
  | deleting item fetched =>
    have hdelete := h.consumer (e := .caller (.delete .ok)) rfl rfl
    simp [Consumer.step, Consumer.stepCaller, hcaller] at hdelete
  | panicked msg => exact absurd hcaller (hhealthy.poised.caller msg)

/-- The actor waits for an input. -/
theorem actor : ch.watched.consumer.phase = .waitInputs := by
  obtain ⟨hcaller, hinflight⟩ := h.caller hhealthy
  have hopen := hhealthy.supplied.undisturbed.running
  have hpoised := hhealthy.poised
  cases hphase : ch.watched.consumer.phase with
  | waitInputs => rfl
  | idle =>
    have hcallback : ch.watched.consumer.payloadCb = true := by
      by_contra hunset
      have hset := h.consumer (e := .actor .setCallback) (by simp [faultFree, hunset]) rfl
      simp [Consumer.step, Consumer.stepActor, Consumer.takesInput, hphase] at hset
    have htarget := hpoised.target (by simp [hcaller])
    have hsize : ch.watched.consumer.inflightQueueSize = 0 := by
      rw [hpoised.size, hinflight, hphase]
      rfl
    have hmay : ch.watched.consumer.mayPrefetch = true := by
      simp [mayPrefetch, hcallback, hsize, htarget, Nat.pos_of_ne_zero htarget]
    have htry := h.consumer (e := .actor .tryPrefetchOne) rfl rfl
    simp only [Consumer.step, Consumer.stepActor, hphase, hmay, hopen, if_true,
      CommitSequencer.ensureRunning, hhealthy.failure] at htry
    split at htry
    · cases htry
    · split at htry <;> cases htry
  | refreshProduce =>
    have hscan := h.consumer
      (e := .actor (.refreshProduce (.ok (Table.mapValues Int.ofNat ch.watched.produceOffsets))))
      rfl (by simp [WatchedConsumer.consistent, Table.mapValues, WatchedConsumer.snapshot])
    simp [Consumer.step, Consumer.stepActor, hphase] at hscan
  | refreshConsume t =>
    have hscan := h.consumer (e := .actor (.refreshConsume none)) rfl rfl
    simp [Consumer.step, Consumer.stepActor, hphase] at hscan
  | refreshMeta t =>
    have hscan := h.consumer (e := .actor (.refreshMeta (.ok []))) rfl rfl
    simp [Consumer.step, Consumer.stepActor, hphase] at hscan
  | selecting =>
    have hselect := h.consumer (e := .actor .select) rfl rfl
    simp only [Consumer.step, Consumer.stepActor, hphase] at hselect
    split at hselect
    · split at hselect <;> cases hselect
    · cases hselect
  | probing pending probed =>
    by_cases hpending : pending = ∅
    · have hdone := h.consumer (e := .actor .probeDone) rfl rfl
      simp [Consumer.step, Consumer.stepActor, hphase, hpending] at hdone
    · obtain ⟨p, hp⟩ := Finset.nonempty_iff_ne_empty.2 hpending
      have hprobe := h.consumer
        (e := .actor (.probe p ((ch.watched.produceOffsets.lookup p).map Int.ofNat) false))
        (by simp [faultFree]) (by simp [consistent])
      simp [Consumer.step, Consumer.stepActor, hphase, hp] at hprobe
  | picking =>
    obtain ⟨p, hp⟩ := Finset.nonempty_iff_ne_empty.2 (hpoised.picking hphase)
    have hpick := h.consumer (e := .actor (.pick p)) rfl rfl
    simp only [Consumer.step, Consumer.stepActor, hphase, hp, if_true] at hpick
    split at hpick <;> cases hpick
  | selected p o =>
    have hrunning := h.consumer (e := .actor .ensureRunning) rfl rfl
    simp [Consumer.step, Consumer.stepActor, hphase, CommitSequencer.ensureRunning,
      hhealthy.failure] at hrunning
  | admitting seq p o =>
    have hadmit := h.consumer (e := .actor .beginPayload) rfl rfl
    simp only [Consumer.step, Consumer.stepActor, hphase] at hadmit
    split at hadmit <;> cases hadmit
  | enqueueing item =>
    have henqueue := h.consumer (e := .actor .enqueue) rfl rfl
    simp [Consumer.step, Consumer.stepActor, hphase, hinflight, inflightCapacity] at henqueue
  | stopped =>
    have hcause := hpoised.stopped hphase
    simp [hopen, hhealthy.failure] at hcause
  | panicked msg => exact absurd hphase (hpoised.running msg)

/-- Everything that was sent to the actor has been handled, and nothing is on its way. -/
theorem quiet : ch.watched.watch = .streaming ⟨[], true⟩ ∧ ch.watched.channel = [] := by
  have hchannel : ch.watched.channel = [] := by
    cases hchannel : ch.watched.channel with
    | nil => rfl
    | cons updates rest =>
      have hupdate := h.consumer (e := .actor (.produceOffset updates)) rfl
        (by simp [consistent, hchannel])
      simp [Consumer.step, Consumer.stepActor, Consumer.takesInput, h.actor hhealthy] at hupdate
  refine ⟨?_, hchannel⟩
  have hlive := hhealthy.supplied.live
  cases hwatch : ch.watched.watch with
  | starting =>
    have hopen := h.watch (e := .openStream true) rfl
    simp [stepWatch, hwatch] at hopen
  | resyncing stream =>
    have hscan := h.watch (e := .scan true) rfl
    simp only [stepWatch, hwatch] at hscan
    split at hscan <;> cases hscan
  | sending updates stream =>
    have hsend := h.watch (e := .send) rfl
    simp [stepWatch, hwatch, hchannel, produceOffsetCapacity] at hsend
  | streaming stream =>
    have hbatch := h.watch (e := .batch 1) rfl
    obtain ⟨events, alive⟩ := stream
    rw [hwatch] at hlive
    cases hlive
    cases events with
    | nil => rfl
    | cons u rest => simp [stepWatch, hwatch] at hbatch
  | stopped =>
    rw [hwatch] at hlive
    exact hlive.elim

/-- Every message that was put has been received. -/
theorem length_returned : ch.watched.consumer.returned.length = ch.watched.consumer.jobs.length ∧
      ∀ o a, Message calls o a → o < ch.watched.consumer.jobs.length := by
  have hsupplied := hhealthy.supplied
  have hdispatching := hsupplied.watching.informed.dispatching
  have hwaits := h.actor hhealthy
  obtain ⟨hcaller, hinflight⟩ := h.caller hhealthy
  obtain ⟨hwatch, hchannel⟩ := h.quiet hhealthy
  constructor
  · have hlength := congrArg List.length hdispatching.inOrder.queued.order
    simpa [hcaller, hinflight, hwaits, inHand, enqueued] using hlength
  intro o a hmessage
  obtain ⟨call, hcall, -⟩ := id hmessage
  obtain ⟨ho, -⟩ := List.getElem?_eq_some_iff.1 hcall
  obtain ⟨v, hv, hle⟩ := hsupplied.producing.published o a hmessage
    (lt_of_lt_of_le ho (h.producer hsupplied.producing))
  have hcached : (v : ℤ) ≤ ch.watched.consumer.actor.cachedProduceOffset ch.producerId := by
    rcases hsupplied.watching.covered [] (by rw [hwatch]; rfl) _ v hv with hcached | hmem
    · exact hcached
    · rw [hchannel] at hmem
      cases hmem
  have hhint := hsupplied.watching.informed.lt_nextHint_of_waits hwaits ch.producerId
  have hinit := (hsupplied.watching.informed.attentive.waits hwaits).1
  rw [hsupplied.length_handedOut hinit, hdispatching.dispatched.eq hhealthy.failure,
    hwaits] at hhint
  simp only [selection, append_nil, dispatched, length_map] at hhint
  omega

end Stuck

/-! ## Every message is received -/

/-- Without a hole, message `k` is that of the `k`-th successful call. -/
theorem GapFree.getElem?_successes (h : GapFree calls) (k : ℕ) (a : α) :
    (successes calls)[k]? = some a ↔ Message calls k a := by
  induction calls generalizing k with
  | nil => simp [successes, Message]
  | cons c cs ih =>
    obtain ⟨hc, hcs⟩ := pairwise_cons.1 h
    by_cases hcode : c.code = 0
    · have hcons : successes (c :: cs) = c.payload :: successes cs := by simp [successes, hcode]
      rw [hcons]
      cases k with
      | zero => simp [Message, hcode]
      | succ k =>
        rw [getElem?_cons_succ, ih hcs]
        simp [Message]
    · have hfail : ∀ c' ∈ c :: cs, c'.code ≠ 0 := by
        intro c' hc' hok
        rcases mem_cons.1 hc' with rfl | hc'
        · exact hcode hok
        · exact hcode (hc c' hc' hok)
      have hnil : successes (c :: cs) = [] := by simpa [successes] using hfail
      rw [hnil]
      constructor
      · intro hsome
        cases hsome
      · intro hmessage
        obtain ⟨call, hcall, hok, -⟩ := hmessage
        exact absurd hok (hfail call (mem_of_getElem? hcall))

/-- A channel without a hole that cannot go on has delivered every message. -/
theorem Stuck.received_eq (h : Stuck ch) (hhealthy : Healthy calls ch) (hgap : GapFree calls) :
    ch.received = successes calls := by
  have hsupplied := hhealthy.supplied
  obtain ⟨hlength, hmessages⟩ := h.length_returned hhealthy
  -- what the `k`-th call has returned is message `k`
  have hanswer : ∀ k r, ch.watched.consumer.returned[k]? = some r →
      ∃ a, r.2.toOption.map (·.payload) = some a ∧ Message calls k a := by
    intro k r hr
    have hk : r.1 = k := by
      obtain ⟨hlt, -⟩ := List.getElem?_eq_some_iff.1 hr
      have hget : (ch.watched.consumer.returned.map (·.1))[k]? = some k := by
        rw [hsupplied.inOrder.queued.map_returned, getElem?_range hlt]
      rw [getElem?_map, hr] at hget
      exact Option.some.inj hget
    obtain ⟨job, hjob, hanswers⟩ := hsupplied.undisturbed.returned r (mem_of_getElem? hr)
    rw [hk] at hjob
    obtain ⟨i, result⟩ := r
    cases hanswers with
    | error _ hphase =>
      have hsound := hhealthy.sound k job hjob
      rw [hphase] at hsound
      cases hsound
    | ok fetched hphase =>
      have hcarried : carried job.phase = some fetched := by
        rw [hphase]
        rfl
      have hmessage := hsupplied.carrying k job fetched hjob hcarried
      rw [(hsupplied.inOrder.sequenced.coherent k job hjob).offset fetched hcarried,
        (hsupplied.message_job hjob).2] at hmessage
      exact ⟨fetched.payload, rfl, hmessage⟩
  have hsome : ∀ r ∈ ch.watched.consumer.returned,
      (r.2.toOption.map (·.payload)).isSome = true := by
    intro r hr
    obtain ⟨k, hk⟩ := getElem?_of_mem hr
    obtain ⟨a, ha, -⟩ := hanswer k r hk
    rw [ha]
    rfl
  have hmap : ch.received.map some = (successes calls).map some := by
    rw [received, map_filterMap_some_eq_filter_map_isSome, filter_eq_self.2]
    · apply ext_getElem?
      intro k
      rw [getElem?_map, getElem?_map]
      cases hr : ch.watched.consumer.returned[k]? with
      | some r =>
        obtain ⟨a, ha, hmessage⟩ := hanswer k r hr
        rw [(hgap.getElem?_successes k a).2 hmessage]
        simp [ha]
      | none =>
        cases hk : (successes calls)[k]? with
        | none => rfl
        | some a =>
          have hlt := hmessages k a ((hgap.getElem?_successes k a).1 hk)
          have hge := getElem?_eq_none_iff.1 hr
          omega
    · intro o ho
      obtain ⟨r, hr, rfl⟩ := mem_map.1 ho
      exact hsome r hr
  exact map_injective_iff.2 (Option.some_injective α) hmap

/-- **What is put is received, up to the first failed put.** In a channel without shutdown and
faults, every run comes to a state in which the consumer has received the payloads of all
successful calls of `put_with_payload`, in order, if and only if no failed call comes before a
successful one. -/
theorem successes_received_iff (producerId : String) (calls : List (PutCall α))
    (membership : List (List String)) (deleteCb : Bool) :
    Inevitable Step (fun ch : Channel α => ch.received = successes calls)
      (init producerId calls membership deleteCb) ↔ GapFree calls := by
  constructor
  · intro h
    by_contra hgap
    obtain ⟨es, ch, hrun, hreceived⟩ := h.exists_run
    have hsupplied : Supplied calls ch := hrun.invariant (fun _ _ _ hs hstep => hs.step hstep)
        (.init producerId calls membership deleteCb)
    exact hsupplied.received_ne_successes hgap hreceived
  · intro hgap
    apply Inevitable.of_rank rank (I := Healthy calls)
      (fun ch e ch' hch hstep => ⟨hch.step hgap hstep, hch.rank_lt hstep⟩)
    · intro ch hch hreceived
      by_contra hnone
      apply hreceived
      refine Stuck.received_eq (fun e => ?_) hch hgap
      cases hstep : ch.step e with
      | none => rfl
      | some ch' => exact absurd ⟨e, ch', hstep⟩ hnone
    · exact .init producerId calls membership deleteCb

/-- **A failed put blocks the channel.** The first call fails with a non-retryable error and the
second succeeds; in no run is its message received. -/
theorem later_message_blocked :
    let calls : List (PutCall String) := [⟨"lost", 0, 2, by decide⟩, ⟨"m", 0, 0, by decide⟩]
    successes calls = ["m"] ∧
      ∀ es ch, Run Step (init "p" calls [] false) es ch → ch.received ≠ ["m"] := by
  refine ⟨by decide, ?_⟩
  intro es ch hrun
  have hsupplied : Supplied _ ch :=
    hrun.invariant (fun _ _ _ hs hstep => hs.step hstep) (.init "p" _ [] false)
  exact hsupplied.received_ne_successes (by simp [GapFree])

end Channel

end Fluxon.Mq
