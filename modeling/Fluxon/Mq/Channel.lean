import Fluxon.Mq.Delivery
import Fluxon.Mq.Watch

/-!
# A channel with one producer and one consumer

`put_with_payload` of a producer, the KV that holds the payloads, and a watched consumer whose
`get_with_payload` is called again and again, without shutdown, timeouts and faults of the KV or of
etcd (`Channel.faultFree`). What the consumer reads is what is there: a payload fetch of a key that
is not in the KV reports `KeyNotFound`, which the payload callback makes `NonRetryable`.

A call of `put_with_payload` reserves the next message id first. If its payload callback fails then
the id is not used: nothing is written to the KV, and the next call that succeeds publishes a later
id. `Channel.Supplied` collects what holds in every run: the produce offset in etcd is the last id
that has been published, the payloads in the KV and in the jobs are those of successful calls, and
job `i` is about message `i`.
-/

namespace Fluxon.Mq

open Consumer

/-! ## Produce offsets that have left etcd -/

namespace Consumer

variable {α : Type} {s s' : Consumer α} {i : ℕ} {job : Job α}

/-- The produce offsets of a scan that the actor has not cached yet. -/
def scanned : ActorPhase → List (String × ℤ)
  | .refreshConsume t => t.entries.map fun e => (e.1, e.2)
  | _ => []

/-- The produce offsets that have reached the actor. -/
def taken (s : Consumer α) : List (String × ℤ) := s.observed ++ scanned s.phase

/-- The produce offsets that an event brings. -/
def reads : ConsumerEvent α → List (String × ℤ)
  | .actor (.produceOffset updates) => updates
  | .actor (.refreshProduce (.ok t)) => t.entries.map fun e => (e.1, e.2)
  | .actor (.probe p produceOffset _) => produceOffset.toList.map fun v => (p, v)
  | _ => []

theorem taken_subset_of_actorEffect {e : ActorEvent} (he : ActorEffect s e s') :
    s'.taken ⊆ s.taken ++ reads (α := α) (.actor e) := by
  cases he with
  | refuse => exact List.subset_append_left _ _
  | produceOffset | probe =>
    intro u hu
    simp only [taken, scanned, List.append_nil, List.mem_append] at hu ⊢
    rcases hu with hu | hu
    · exact .inl (.inl hu)
    · exact .inr hu
  | scanProduce t =>
    intro u hu
    simp only [taken, scanned, List.mem_append] at hu ⊢
    rcases hu with hu | hu
    · exact .inl (.inl hu)
    · exact .inr hu
  | scanConsume t hphase =>
    intro u hu
    simp only [taken, scanned, hphase, List.append_nil, List.mem_append] at hu ⊢
    exact .inl hu
  | _ => simp [taken, scanned]

theorem InOrder.taken_subset {e : ConsumerEvent α} (h : InOrder s) (hstep : Step s e s') :
    s'.taken ⊆ s.taken ++ reads e := by
  cases h.effect hstep with
  | actor he => exact taken_subset_of_actorEffect he
  | job hjob he =>
    have hframe := he.frame hjob
    rw [taken, hframe.observed, hframe.phase]
    exact List.subset_append_left _ _
  | caller he =>
    rw [taken, he.frame.observed, he.frame.phase]
    exact List.subset_append_left _ _
  | shutdown => exact List.subset_append_left _ _

end Consumer

namespace WatchedConsumer

variable {α : Type} {w w' : WatchedConsumer α} {d : Table String ℕ}

/-- The produce offset has been written to etcd. -/
def Written (w : WatchedConsumer α) (u : String × ℤ) : Prop :=
  ∃ v, w.produceOffsets.lookup u.1 = some v ∧ u.2 ≤ v

/-- Only what has been written is on its way to the actor or has reached it. -/
structure Bounded (w : WatchedConsumer α) : Prop where
  held : ∀ u ∈ held w.watch, w.Written u
  channel : ∀ u ∈ w.channel.flatten, w.Written u
  taken : ∀ u ∈ w.consumer.taken, w.Written u

theorem written_of_mem_snapshot {u : String × ℤ} (h : u ∈ w.snapshot) : w.Written u := by
  obtain ⟨e, he, rfl⟩ := List.mem_map.1 h
  exact ⟨e.2, Table.mem_entries_iff.1 he, le_refl _⟩

theorem Written.write {u : String × ℤ} {p : String} {v : ℕ}
    (hlt : ∀ x, w.produceOffsets.lookup p = some x → x < v) (h : w.Written u) :
    Written { w with
      produceOffsets := AList.insert p v w.produceOffsets
      watch := w.watch.deliver (p, v) } u := by
  obtain ⟨x, hx, hle⟩ := h
  by_cases hp : u.1 = p
  · have hxv := hlt x (hp ▸ hx)
    refine ⟨v, ?_, by omega⟩
    rw [Table.lookup_insert_eq, if_pos hp]
  · refine ⟨x, ?_, hle⟩
    rw [Table.lookup_insert_eq, if_neg hp]
    exact hx

/-- What the consumer reads has been written. -/
theorem Bounded.reads {e : ConsumerEvent α} (h : Bounded w) (he : w.consistent e = true) :
    ∀ u ∈ reads e, w.Written u := by
  intro u hu
  unfold Consumer.reads at hu
  split at hu
  · next updates =>
    simp only [consistent, decide_eq_true_eq] at he
    exact h.channel u (List.mem_flatten.2 ⟨updates, List.mem_of_mem_head? he, hu⟩)
  · simp only [consistent, decide_eq_true_eq] at he
    rw [he] at hu
    exact written_of_mem_snapshot hu
  · next p produceOffset _ =>
    obtain ⟨v, hv, rfl⟩ := List.mem_map.1 hu
    rw [Option.mem_toList] at hv
    subst hv
    simp only [consistent, Bool.or_eq_true, decide_eq_true_eq] at he
    obtain ⟨x, hx, hxv⟩ := Option.map_eq_some_iff.1 (he.resolve_left (by simp)).symm
    exact ⟨x, hx, le_of_eq hxv.symm⟩
  · cases hu

theorem channelAfter_subset (e : ConsumerEvent α) : w.channelAfter e ⊆ w.channel := by
  unfold channelAfter
  split
  · exact List.tail_subset _
  · exact List.Subset.refl _

theorem Bounded.step {e : WatchedEvent α} (h : Bounded w) (hw : Watching d w)
    (hstep : Step w e w') : Bounded w' := by
  cases effect_of_step hstep with
  | write p v hlt =>
    refine ⟨?_, fun u hu => (h.channel u hu).write hlt, fun u hu => (h.taken u hu).write hlt⟩
    intro u hu
    rcases held_deliver (p, v) w.watch with hsame | hnew
    · rw [hsame] at hu
      exact (h.held u hu).write hlt
    · rw [hnew] at hu
      rcases List.mem_append.1 hu with hold | hu
      · exact (h.held u hold).write hlt
      · rw [List.mem_singleton.1 hu]
        exact ⟨v, by rw [Table.lookup_insert_eq, if_pos rfl], le_refl _⟩
  | breakStream =>
    refine ⟨?_, h.channel, h.taken⟩
    rw [held_breakStream]
    exact h.held
  | openStream | restart | stop => exact ⟨nofun, h.channel, h.taken⟩
  | openFailed => exact h
  | scan stream hwatch =>
    refine ⟨?_, h.channel, h.taken⟩
    intro u hu
    rcases List.mem_append.1 hu with hsnapshot | hstream
    · exact written_of_mem_snapshot hsnapshot
    · exact h.held u (by rw [hwatch]; exact hstream)
  | scanEmpty stream hwatch | scanFailed stream hwatch =>
    exact ⟨fun u hu => h.held u (by rw [hwatch]; exact hu), h.channel, h.taken⟩
  | send updates stream hwatch =>
    have hheld := h.held
    rw [hwatch] at hheld
    refine ⟨fun u hu => hheld u (List.mem_append_right _ hu), ?_, h.taken⟩
    intro u hu
    rw [List.flatten_append, List.mem_append] at hu
    rcases hu with hu | hu
    · exact h.channel u hu
    · exact hheld u (List.mem_append_left _ (by simpa using hu))
  | batch n stream hwatch =>
    refine ⟨?_, h.channel, h.taken⟩
    intro u hu
    exact h.held u (by rw [hwatch]; simpa [WatchedConsumer.held, List.take_append_drop] using hu)
  | consumer e c hconsistent hc =>
    refine ⟨h.held, ?_, ?_⟩
    · intro u hu
      obtain ⟨updates, hupdates, hmem⟩ := List.mem_flatten.1 hu
      exact h.channel u (List.mem_flatten.2 ⟨updates, channelAfter_subset e hupdates, hmem⟩)
    · intro u hu
      rcases List.mem_append.1 (hw.informed.dispatching.inOrder.taken_subset hc hu) with hold | hnew
      · exact h.taken u hold
      · exact h.reads hconsistent u hnew

end WatchedConsumer

/-! ## The channel -/

/-- A call of `put_with_payload`: its payload, and what the payload callback answers, which is the
retryable code `retries` times and then `code`. -/
structure PutCall (α : Type) where
  payload : α
  retries : ℕ := 0
  code : ℤ
  final : code ≠ 1 := by decide

/-- What the call returns. -/
def PutCall.result {α : Type} (call : PutCall α) : Except MpscError Unit :=
  if call.code = 0 then .ok ()
  else if call.code = 2 then .error .putPayloadNonRetryable
  else .error (.putPayloadUnknownCode call.code)

inductive ProducerPhase (α : Type)
  | idle
  /-- In the loop over the payload callback; how often it answers with the retryable code yet. -/
  | payload (msgId : ℕ) (call : PutCall α) (retries : ℕ)
  | publish (msgId : ℕ)

structure Producer (α : Type) where
  nextMsgId : ℕ := 0
  phase : ProducerPhase α := .idle
  /-- The calls to come. -/
  calls : List (PutCall α)

structure Channel (α : Type) where
  producerId : String
  producer : Producer α
  /-- The payloads in the KV by message id. -/
  kv : Table ℕ α := ∅
  /-- The membership updates to come. -/
  membership : List (List String)
  watched : WatchedConsumer α

inductive ChannelEvent (α : Type)
  | put
  | payload
  | publish
  /-- Job `i` fetches its payload; the text of the error if the key is not there. -/
  | fetch (i : ℕ) (error : String)
  | watched (e : WatchedEvent α)

namespace Channel

variable {α : Type}

/-! ## Steps -/

section

variable (ch : Channel α)

/-- What the payload callback makes of `kv_get`. -/
def payloadResult (job : Job α) (error : String) : PayloadResult α :=
  match if job.producerId = ch.producerId then ch.kv.lookup job.consumeOffset else none with
  | some obj => .ok obj
  | none => .nonRetryable s!"kv_get failed: {error}"

/-- No shutdown, no timeout of a call, and every read and write of etcd succeeds. The payload
callback is set once, the membership updates come in their order, and a payload is fetched by
`ChannelEvent.fetch`. -/
def faultFree : WatchedEvent α → Bool
  | .write _ _ | .breakStream => false
  | .watch (.openStream ok) | .watch (.scan ok) => ok
  | .watch .send | .watch (.batch _) => true
  | .watch .restart | .watch .stop => false
  | .consumer (.actor .setCallback) => !ch.watched.consumer.payloadCb
  | .consumer (.actor (.metaSet set)) => ch.membership.head? = some set
  | .consumer (.actor (.refreshProduce (.error _))) => false
  | .consumer (.actor (.refreshConsume (some _))) => false
  | .consumer (.actor (.refreshMeta (.error _))) => false
  | .consumer (.actor (.probe p produceOffset missing)) =>
    produceOffset = (ch.watched.produceOffsets.lookup p).map Int.ofNat && !missing
  | .consumer (.actor .probeFail) => false
  | .consumer (.actor _) => true
  | .consumer (.job _ (.fetch _)) | .consumer (.job _ .putError) | .consumer (.job _ .closed) =>
    false
  | .consumer (.job _ _) => true
  | .consumer (.caller .timeout) | .consumer (.caller .deleteClosed) => false
  | .consumer (.caller (.delete result)) => result = .ok
  | .consumer (.caller _) => true
  | .consumer .shutdown => false

/-- The KV after an event: the delete callback has removed the payload. -/
def kvAfter : WatchedEvent α → Table ℕ α
  | .consumer (.caller (.delete .ok)) =>
    match ch.watched.consumer.caller with
    | .deleting _ fetched =>
      if fetched.producerId = ch.producerId then ch.kv.erase fetched.consumeOffset else ch.kv
    | _ => ch.kv
  | _ => ch.kv

def membershipAfter : WatchedEvent α → List (List String)
  | .consumer (.actor (.metaSet _)) => ch.membership.tail
  | _ => ch.membership

/-- A step; `put`, `payload` and `publish` are `put_with_payload`. -/
def step : ChannelEvent α → Option (Channel α)
  | .put =>
    match ch.producer.phase, ch.producer.calls with
    | .idle, call :: calls =>
      some { ch with
        producer :=
          { nextMsgId := ch.producer.nextMsgId + 1
            phase := .payload ch.producer.nextMsgId call call.retries
            calls } }
    | _, _ => none
  | .payload =>
    match ch.producer.phase with
    | .payload msgId call (retries + 1) =>
      some { ch with producer := { ch.producer with phase := .payload msgId call retries } }
    | .payload msgId call 0 =>
      match call.result with
      | .ok () =>
        some { ch with
          kv := AList.insert msgId call.payload ch.kv
          producer := { ch.producer with phase := .publish msgId } }
      | .error _ => some { ch with producer := { ch.producer with phase := .idle } }
    | _ => none
  | .publish =>
    match ch.producer.phase with
    | .publish msgId =>
      (ch.watched.step (.write ch.producerId msgId)).map fun watched =>
        { ch with watched, producer := { ch.producer with phase := .idle } }
    | _ => none
  | .fetch i error =>
    match ch.watched.consumer.jobs[i]? with
    | some job =>
      (ch.watched.step (.consumer (.job i (.fetch (ch.payloadResult job error))))).map fun watched =>
        { ch with watched }
    | none => none
  | .watched e =>
    if ch.faultFree e then
      (ch.watched.step e).map fun watched =>
        { ch with watched, kv := ch.kvAfter e, membership := ch.membershipAfter e }
    else none

def Step (e : ChannelEvent α) (ch' : Channel α) : Prop := ch.step e = some ch'

end

/-- A channel with nothing in etcd and the KV, and the calls that are made of the producer. -/
def init (producerId : String) (calls : List (PutCall α)) (membership : List (List String))
    (deleteCb : Bool) : Channel α where
  producerId := producerId
  producer := { calls }
  membership := membership
  watched := .init ∅ ∅ deleteCb

/-- The payloads that the calls of `get_with_payload` have returned. -/
def received (ch : Channel α) : List α :=
  ch.watched.consumer.returned.filterMap fun r => r.2.toOption.map (·.payload)

/-- The payloads of the successful calls. -/
def successes (calls : List (PutCall α)) : List α :=
  (calls.filter fun call => call.code = 0).map (·.payload)

/-! ## What a step does -/

variable {ch ch' : Channel α} {calls : List (PutCall α)} {i : ℕ} {job : Job α}

inductive Effect (ch : Channel α) : ChannelEvent α → Channel α → Prop
  | put (call : PutCall α) (calls : List (PutCall α)) :
      ch.producer.phase = .idle → ch.producer.calls = call :: calls →
      Effect ch .put
        { ch with
          producer :=
            { nextMsgId := ch.producer.nextMsgId + 1
              phase := .payload ch.producer.nextMsgId call call.retries
              calls } }
  | retry (msgId : ℕ) (call : PutCall α) (retries : ℕ) :
      ch.producer.phase = .payload msgId call (retries + 1) →
      Effect ch .payload
        { ch with producer := { ch.producer with phase := .payload msgId call retries } }
  | store (msgId : ℕ) (call : PutCall α) :
      ch.producer.phase = .payload msgId call 0 → call.code = 0 →
      Effect ch .payload
        { ch with
          kv := AList.insert msgId call.payload ch.kv
          producer := { ch.producer with phase := .publish msgId } }
  | refuse (msgId : ℕ) (call : PutCall α) :
      ch.producer.phase = .payload msgId call 0 → call.code ≠ 0 →
      Effect ch .payload { ch with producer := { ch.producer with phase := .idle } }
  | publish (msgId : ℕ) (watched : WatchedConsumer α) :
      ch.producer.phase = .publish msgId →
      ch.watched.Step (.write ch.producerId msgId) watched →
      Effect ch .publish { ch with watched, producer := { ch.producer with phase := .idle } }
  | fetch (i : ℕ) (error : String) (job : Job α) (watched : WatchedConsumer α) :
      ch.watched.consumer.jobs[i]? = some job →
      ch.watched.Step (.consumer (.job i (.fetch (ch.payloadResult job error)))) watched →
      Effect ch (.fetch i error) { ch with watched }
  | watched (e : WatchedEvent α) (watched : WatchedConsumer α) :
      ch.faultFree e = true → ch.watched.Step e watched →
      Effect ch (.watched e)
        { ch with watched, kv := ch.kvAfter e, membership := ch.membershipAfter e }

theorem effect_of_step {e : ChannelEvent α} (h : Step ch e ch') : Effect ch e ch' := by
  revert h
  unfold Step
  fun_cases step ch e <;> intro h <;> try cases h
  · next call calls hcalls hphase => exact .put call calls hphase hcalls
  · next msgId call retries hphase => exact .retry msgId call retries hphase
  · next msgId call hphase hresult => exact .store msgId call hphase (by grind [PutCall.result])
  · next msgId call hphase error hresult =>
    exact .refuse msgId call hphase fun hcode => by simp [PutCall.result, hcode] at hresult
  · next msgId hphase =>
    obtain ⟨watched, hwatched, rfl⟩ := Option.map_eq_some_iff.1 h
    exact .publish msgId watched hphase hwatched
  · next i error job hjob =>
    obtain ⟨watched, hwatched, rfl⟩ := Option.map_eq_some_iff.1 h
    exact .fetch i error job watched hjob hwatched
  · next e hfree =>
    obtain ⟨watched, hwatched, rfl⟩ := Option.map_eq_some_iff.1 h
    exact .watched e watched hfree hwatched

/-! ## What the producer has published -/

/-- Message `o` is that of a successful call, and this is its payload. -/
def Message (calls : List (PutCall α)) (o : ℕ) (a : α) : Prop :=
  ∃ call, calls[o]? = some call ∧ call.code = 0 ∧ call.payload = a

/-- The number of calls that have returned. -/
def settled (ch : Channel α) : ℕ :=
  match ch.producer.phase with
  | .idle => ch.producer.nextMsgId
  | .payload msgId _ _ | .publish msgId => msgId

structure Producing (calls : List (PutCall α)) (ch : Channel α) : Prop where
  todo : ch.producer.calls = calls.drop ch.producer.nextMsgId
  begun : ∀ msgId call retries, ch.producer.phase = .payload msgId call retries →
    msgId + 1 = ch.producer.nextMsgId ∧ calls[msgId]? = some call
  stored : ∀ msgId, ch.producer.phase = .publish msgId →
    msgId + 1 = ch.producer.nextMsgId ∧ ∃ a, Message calls msgId a
  etcd : ∀ p v, ch.watched.produceOffsets.lookup p = some v →
    p = ch.producerId ∧ v < ch.settled ∧ ∃ a, Message calls v a
  published : ∀ o a, Message calls o a → o < ch.settled →
    ∃ v, ch.watched.produceOffsets.lookup ch.producerId = some v ∧ o ≤ v
  kv : ∀ o a, ch.kv.lookup o = some a → Message calls o a

namespace Producing

variable (h : Producing calls ch)
include h

/-- Steps of the consumer and of its watch. -/
theorem frame (hproducer : ch'.producer = ch.producer) (hid : ch'.producerId = ch.producerId)
    (hetcd : ch'.watched.produceOffsets = ch.watched.produceOffsets)
    (hkv : ∀ o a, ch'.kv.lookup o = some a → ch.kv.lookup o = some a) : Producing calls ch' := by
  have hsettled : ch'.settled = ch.settled := by rw [settled, settled, hproducer]
  refine ⟨?_, ?_, ?_, ?_, ?_, fun o a ho => h.kv o a (hkv o a ho)⟩
  · rw [hproducer]
    exact h.todo
  · rw [hproducer]
    exact h.begun
  · rw [hproducer]
    exact h.stored
  · rw [hetcd, hid, hsettled]
    exact h.etcd
  · rw [hetcd, hid, hsettled]
    exact h.published

/-- The producer goes on, and the same calls have returned. -/
theorem advance {producer : Producer α} {kv : Table ℕ α}
    (hsettled : ({ ch with producer, kv } : Channel α).settled = ch.settled)
    (htodo : producer.calls = calls.drop producer.nextMsgId)
    (hbegun : ∀ msgId call retries, producer.phase = .payload msgId call retries →
      msgId + 1 = producer.nextMsgId ∧ calls[msgId]? = some call)
    (hstored : ∀ msgId, producer.phase = .publish msgId →
      msgId + 1 = producer.nextMsgId ∧ ∃ a, Message calls msgId a)
    (hkv : ∀ o a, kv.lookup o = some a → Message calls o a) :
    Producing calls { ch with producer, kv } := by
  refine ⟨htodo, hbegun, hstored, ?_, ?_, hkv⟩
  · rw [hsettled]
    exact h.etcd
  · rw [hsettled]
    exact h.published

theorem put {call : PutCall α} {rest : List (PutCall α)} (hphase : ch.producer.phase = .idle)
    (hcalls : ch.producer.calls = call :: rest) :
    Producing calls
      { ch with
        producer :=
          { nextMsgId := ch.producer.nextMsgId + 1
            phase := .payload ch.producer.nextMsgId call call.retries
            calls := rest } } := by
  have htodo := h.todo
  rw [hcalls] at htodo
  have hget : calls[ch.producer.nextMsgId]? = some call := by
    have hhead := List.head?_drop (l := calls) (i := ch.producer.nextMsgId)
    rw [← htodo] at hhead
    exact hhead.symm
  have hrest : rest = calls.drop (ch.producer.nextMsgId + 1) := by
    rw [← List.tail_drop, ← htodo]
    rfl
  refine h.advance (by simp [settled, hphase]) hrest ?_ nofun h.kv
  intro msgId call' retries hpayload
  cases hpayload
  exact ⟨rfl, hget⟩

theorem refuse {msgId : ℕ} {call : PutCall α} (hphase : ch.producer.phase = .payload msgId call 0)
    (hcode : call.code ≠ 0) :
    Producing calls { ch with producer := { ch.producer with phase := .idle } } := by
  obtain ⟨hnext, hcall⟩ := h.begun _ _ _ hphase
  have hsettled : ch.settled = msgId := by simp [settled, hphase]
  refine ⟨h.todo, nofun, nofun, ?_, ?_, h.kv⟩
  · intro p v hv
    obtain ⟨hp, hlt, hmessage⟩ := h.etcd p v hv
    refine ⟨hp, ?_, hmessage⟩
    change v < ch.producer.nextMsgId
    omega
  · intro o a hmessage ho
    change o < ch.producer.nextMsgId at ho
    apply h.published o a hmessage
    -- the message is not that of the call that has failed
    have hne : o ≠ msgId := by
      rintro rfl
      obtain ⟨call', hcall', hcode', -⟩ := hmessage
      rw [hcall] at hcall'
      cases hcall'
      exact hcode hcode'
    omega

theorem publish {msgId : ℕ} {watched : WatchedConsumer α}
    (hphase : ch.producer.phase = .publish msgId) (hwatched : watched.produceOffsets =
      AList.insert ch.producerId msgId ch.watched.produceOffsets) :
    Producing calls { ch with watched, producer := { ch.producer with phase := .idle } } := by
  obtain ⟨hnext, hmessage⟩ := h.stored msgId hphase
  refine ⟨h.todo, nofun, nofun, ?_, ?_, h.kv⟩
  · intro p v hv
    rw [hwatched] at hv
    obtain ⟨hp, rfl⟩ | ⟨hp, hv⟩ := Table.lookup_insert_cases hv
    · exact ⟨hp, show v < ch.producer.nextMsgId by omega, hmessage⟩
    · exact absurd (h.etcd p v hv).1 hp
  · intro o a ho hlt
    change o < ch.producer.nextMsgId at hlt
    refine ⟨msgId, ?_, by omega⟩
    rw [hwatched, Table.lookup_insert_eq, if_pos rfl]

end Producing

/-! ## What the consumer has fetched -/

/-- The payloads of the jobs are those of their messages. -/
def Carrying (calls : List (PutCall α)) (s : Consumer α) : Prop :=
  ∀ (i : ℕ) (job : Job α) (fetched : FetchedPayload α), s.jobs[i]? = some job →
    Consumer.carried job.phase = some fetched → Message calls fetched.consumeOffset fetched.payload

variable {s s' : Consumer α} {w : WatchedConsumer α} {e : WatchedEvent α}

section

variable (h : Carrying calls s)
include h

theorem Carrying.congr (hjobs : s'.jobs = s.jobs) : Carrying calls s' := by
  unfold Carrying
  rw [hjobs]
  exact h

theorem Carrying.setJob {job₀ : Job α} {phase : JobPhase α} (hjob : s.jobs[i]? = some job₀)
    (hphase : ∀ fetched, carried phase = some fetched →
      Message calls fetched.consumeOffset fetched.payload) :
    Carrying calls (s.setJob i job phase) := by
  intro k job' fetched hk hcarried
  rcases jobs_setJob_cases hjob hk with ⟨hki, rfl⟩ | ⟨hki, hk⟩
  · exact hphase fetched hcarried
  · exact h k job' fetched hk hcarried

theorem Carrying.jobEffect {e : JobEvent α}
    (hfetch : ∀ obj, e = .fetch (.ok obj) → Message calls job.consumeOffset obj)
    (hjob : s.jobs[i]? = some job) (he : s.JobEffect i job e s') : Carrying calls s' := by
  have hkeep : ∀ {phase : JobPhase α}, carried phase = carried job.phase →
      Carrying calls (s.setJob i job phase) := by
    intro phase hphase
    apply h.setJob hjob
    rw [hphase]
    exact fun fetched => h i job fetched hjob
  cases he with
  | fetchRetryable => exact h
  | fail error =>
    have hset : Carrying calls (s.setJob i job (.finished (.error error))) := h.setJob hjob nofun
    exact hset.congr rfl
  | fetch obj hphase =>
    apply h.setJob hjob
    intro fetched hfetched
    cases hfetched
    exact hfetch obj rfl
  | turn fetched hphase | putOk fetched hphase | putError fetched _ hphase
  | retry fetched hphase => exact hkeep (by rw [hphase]; rfl)
  | putEffect fetched hphase | advance fetched hphase =>
    exact (hkeep (by rw [hphase]; rfl)).congr rfl
  | _ => exact h.setJob hjob nofun

theorem Carrying.actorEffect {e : ActorEvent} (he : s.ActorEffect e s') : Carrying calls s' := by
  cases he with
  | admitted seq p o =>
    intro k job' fetched hk hcarried
    rcases getElem?_concat_cases hk with hold | ⟨-, rfl⟩
    · exact h k job' fetched hold hcarried
    · cases hcarried
  | refuse => exact h
  | _ => exact h.congr rfl

theorem Carrying.step {e : ConsumerEvent α} (hinOrder : s.InOrder)
    (hfetch : ∀ (i : ℕ) (job : Job α) (obj : α), s.jobs[i]? = some job →
      e = .job i (.fetch (.ok obj)) → Message calls job.consumeOffset obj) (hstep : s.Step e s') :
    Carrying calls s' := by
  cases hinOrder.effect hstep with
  | actor he => exact h.actorEffect he
  | job hjob he => exact h.jobEffect (fun obj hobj => hfetch _ _ obj hjob (congrArg _ hobj)) hjob he
  | caller he => exact h.congr he.frame.jobs
  | shutdown => exact h.congr rfl

end

/-! ## Every run -/

/-- The watch loop has a stream that has not broken, or is about to open one. -/
def Live : WatchPhase → Prop
  | .starting => True
  | .resyncing stream | .sending _ stream | .streaming stream => stream.alive = true
  | .stopped => False

theorem Live.deliver {phase : WatchPhase} (h : Live phase) (u : String × ℤ) :
    Live (phase.deliver u) := by
  unfold WatchPhase.deliver
  split
  · rfl
  · rfl
  · rfl
  · exact h

structure Supplied (calls : List (PutCall α)) (ch : Channel α) : Prop where
  watching : ch.watched.Watching ∅
  undisturbed : ch.watched.consumer.Undisturbed
  bounded : ch.watched.Bounded
  live : Live ch.watched.watch
  producing : Producing calls ch
  carrying : Carrying calls ch.watched.consumer

theorem Supplied.init (producerId : String) (calls : List (PutCall α))
    (membership : List (List String)) (deleteCb : Bool) :
    Supplied calls (Channel.init producerId calls membership deleteCb) where
  watching := .init ∅ ∅ deleteCb
  undisturbed := .init ∅ deleteCb
  bounded := ⟨nofun, nofun, nofun⟩
  live := trivial
  producing := ⟨rfl, nofun, nofun, nofun, nofun, nofun⟩
  carrying := nofun

/-- What a fetch returns is the payload of its message. -/
theorem Producing.message_of_payloadResult {error : String} {obj : α} (h : Producing calls ch)
    (hresult : ch.payloadResult job error = .ok obj) : Message calls job.consumeOffset obj := by
  unfold payloadResult at hresult
  split at hresult
  · next obj' hget =>
    cases hresult
    exact h.kv _ _ (Option.ite_none_right_eq_some.1 hget).2
  · cases hresult

theorem benign_of_faultFree {e : ConsumerEvent α} (h : ch.faultFree (.consumer e) = true) :
    Consumer.Benign e := by
  constructor
  · rintro rfl
    cases h
  · rintro msg rfl
    simp [faultFree] at h

theorem Supplied.inOrder (h : Supplied calls ch) : ch.watched.consumer.InOrder :=
  h.watching.informed.dispatching.inOrder

theorem Supplied.fetch {error : String} (h : Supplied calls ch)
    (hjob : ch.watched.consumer.jobs[i]? = some job)
    (hstep : ch.watched.Step (.consumer (.job i (.fetch (ch.payloadResult job error)))) w) :
    Supplied calls { ch with watched := w } := by
  have hwatching := h.watching.step (e := .consumer (.job i (.fetch (ch.payloadResult job error))))
    nofun hstep
  have hbounded := h.bounded.step h.watching hstep
  cases WatchedConsumer.effect_of_step hstep with
  | consumer _ c _ hc =>
    have hbenign : Consumer.Benign (α := α) (.job i (.fetch (ch.payloadResult job error))) :=
      ⟨nofun, nofun⟩
    refine ⟨hwatching, h.undisturbed.step h.inOrder hbenign hc, hbounded, h.live,
      h.producing.frame rfl rfl rfl fun _ _ ho => ho, ?_⟩
    apply h.carrying.step h.inOrder _ hc
    intro k job' obj hjob' hevent
    obtain ⟨rfl, hresult⟩ := ConsumerEvent.job.inj hevent
    rw [hjob] at hjob'
    cases hjob'
    exact h.producing.message_of_payloadResult (JobEvent.fetch.inj hresult)

theorem lookup_kvAfter {o : ℕ} {a : α} (h : (ch.kvAfter e).lookup o = some a) :
    ch.kv.lookup o = some a := by
  unfold kvAfter at h
  split at h
  · split at h
    · split at h
      · exact (Table.lookup_of_erase h).2
      · exact h
    · exact h
  · exact h

theorem Live.step (h : Live ch.watched.watch) (hfree : ch.faultFree e = true)
    (hstep : ch.watched.Step e w) : Live w.watch := by
  cases WatchedConsumer.effect_of_step hstep with
  | openStream => rfl
  | scan stream hwatch | scanEmpty stream hwatch | send _ stream hwatch | batch _ stream hwatch =>
    rw [hwatch] at h
    exact h
  | consumer => exact h
  | _ => cases hfree

theorem Supplied.watched (h : Supplied calls ch) (hfree : ch.faultFree e = true)
    (hstep : ch.watched.Step e w) :
    Supplied calls
      { ch with watched := w, kv := ch.kvAfter e, membership := ch.membershipAfter e } := by
  have hresynced : WatchedConsumer.Resynced e := by
    rintro rfl
    cases hfree
  have hwatching := h.watching.step hresynced hstep
  have hbounded := h.bounded.step h.watching hstep
  have hlive := h.live.step hfree hstep
  have hproducing : w.produceOffsets = ch.watched.produceOffsets → Producing calls
      { ch with watched := w, kv := ch.kvAfter e, membership := ch.membershipAfter e } :=
    fun hetcd => h.producing.frame rfl rfl hetcd fun _ _ ho => lookup_kvAfter ho
  cases WatchedConsumer.effect_of_step hstep with
  | write => cases hfree
  | consumer e c _ hc =>
    refine ⟨hwatching, h.undisturbed.step h.inOrder (benign_of_faultFree hfree) hc, hbounded,
      hlive, hproducing rfl, ?_⟩
    apply h.carrying.step h.inOrder _ hc
    rintro k job' obj - rfl
    cases hfree
  | _ => exact ⟨hwatching, h.undisturbed, hbounded, hlive, hproducing rfl, h.carrying⟩

theorem Supplied.step {e : ChannelEvent α} (h : Supplied calls ch) (hstep : Step ch e ch') :
    Supplied calls ch' := by
  cases effect_of_step hstep with
  | put call rest hphase hcalls => exact { h with producing := h.producing.put hphase hcalls }
  | retry msgId call retries hphase =>
    obtain ⟨hnext, hcall⟩ := h.producing.begun _ _ _ hphase
    refine { h with producing := ?_ }
    refine h.producing.advance (by simp [settled, hphase]) h.producing.todo ?_ nofun h.producing.kv
    intro msgId' call' retries' hpayload
    cases hpayload
    exact ⟨hnext, hcall⟩
  | store msgId call hphase hcode =>
    obtain ⟨hnext, hcall⟩ := h.producing.begun _ _ _ hphase
    have hmessage : Message calls msgId call.payload := ⟨call, hcall, hcode, rfl⟩
    refine { h with producing := ?_ }
    refine h.producing.advance (by simp [settled, hphase]) h.producing.todo nofun ?_ ?_
    · intro msgId' hpublish
      cases hpublish
      exact ⟨hnext, call.payload, hmessage⟩
    · intro o a ho
      obtain ⟨rfl, rfl⟩ | ⟨-, ho⟩ := Table.lookup_insert_cases ho
      · exact hmessage
      · exact h.producing.kv o a ho
  | refuse msgId call hphase hcode => exact { h with producing := h.producing.refuse hphase hcode }
  | publish msgId w hphase hw =>
    have hwatching := h.watching.step (e := .write ch.producerId msgId) nofun hw
    have hbounded := h.bounded.step h.watching hw
    cases WatchedConsumer.effect_of_step hw with
    | write =>
      exact ⟨hwatching, h.undisturbed, hbounded, h.live.deliver _, h.producing.publish hphase rfl,
        h.carrying⟩
  | fetch i error job w hjob hw => exact h.fetch hjob hw
  | watched e w hfree hw => exact h.watched hfree hw

/-- Only messages of the producer that have been published are handed out. -/
theorem Supplied.handedOut (h : Supplied calls ch) {m : String × ℕ}
    (hm : m ∈ ch.watched.consumer.handedOut) :
    m.1 = ch.producerId ∧
      ∃ v, ch.watched.produceOffsets.lookup ch.producerId = some v ∧ m.2 ≤ v := by
  obtain ⟨v, hv, hle⟩ := h.watching.informed.dispatching.observed.handedOut m hm
  obtain ⟨u, hu, hvu⟩ := h.bounded.taken (m.1, v) (List.mem_append_left _ hv)
  have hp := (h.producing.etcd m.1 u hu).1
  refine ⟨hp, u, hp ▸ hu, ?_⟩
  omega

theorem offsetsOf_eq_map_of_forall {p : String} {l : List (String × ℕ)} (h : ∀ m ∈ l, m.1 = p) :
    offsetsOf l p = l.map (·.2) := by
  unfold offsetsOf
  rw [List.filter_eq_self.2 fun m hm => by simp [h m hm]]

/-- Job `i` is about message `i` of the producer. -/
theorem Supplied.message_job (h : Supplied calls ch)
    (hjob : ch.watched.consumer.jobs[i]? = some job) :
    job.producerId = ch.producerId ∧ job.consumeOffset = i := by
  have hdispatching := h.watching.informed.dispatching
  have hall : ∀ m ∈ ch.watched.consumer.dispatched, m.1 = ch.producerId := fun m hm =>
    (h.handedOut (hdispatching.dispatched.mono.subset hm)).1
  have hmem : (job.producerId, job.consumeOffset) ∈ ch.watched.consumer.dispatched :=
    List.mem_map.2 ⟨job, List.mem_of_getElem? hjob, rfl⟩
  have hp : job.producerId = ch.producerId := hall _ hmem
  obtain ⟨hi, -⟩ := List.getElem?_eq_some_iff.1 hjob
  rw [(offset_eq_of_consecutive hdispatching.consecutive_dispatched hjob).2, hp,
    offsetsOf_eq_map_of_forall fun m hm => hall m (List.mem_of_mem_take hm)]
  simp [startOffset, consumeOffsetBegin, dispatched, hi.le]

/-- The number of messages handed out so far is the next one. -/
theorem Supplied.length_handedOut (h : Supplied calls ch)
    (hinit : ch.watched.consumer.actor.offsetSnapshotState = .initialized) :
    ch.watched.consumer.actor.cachedNextHint ch.producerId =
      ch.watched.consumer.handedOut.length := by
  rw [h.watching.informed.dispatching.offsets.hint hinit,
    offsetsOf_eq_map_of_forall fun m hm => (h.handedOut hm).1]
  simp [startOffset, consumeOffsetBegin]

end Channel

end Fluxon.Mq
