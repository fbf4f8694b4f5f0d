import Fluxon.Mq.Dispatch

/-!
# The produce-offset watch

`run_prefix_watch_loop` over the produce offsets of a channel, feeding a consumer. The loop opens a
watch stream, runs a snapshot scan (`on_resync`), and then forwards what the stream delivers, until
the stream breaks and it starts again. A stream delivers, in order, the offsets written after it
was opened and before it broke.

A snapshot scan that fails is only logged: the loop goes on to the stream, so an offset written
while there was none stays unknown to the actor, which waits for an input without a timeout
(`wakeup_lost`). If no snapshot scan fails, then whenever the stream is open and everything queued
has been handled, the actor knows every produce offset, and if it waits there is no message left
(`wakeup_not_lost`).
-/

namespace Fluxon.Mq

open ConsumerActor List

/-! ## Produce offsets at the consumer -/

namespace Consumer

variable {α : Type} {s s' : Consumer α} {i : ℕ} {job : Job α} {d : Table String ℕ} {e : ActorEvent}

/-- The produce offsets that the actor holds, and is about to cache, do not lower the cache. -/
structure Fed (s : Consumer α) : Prop where
  scanned : ∀ t, s.phase = .refreshConsume t → ∀ p v, t.lookup p = some v → produceOffsetBegin ≤ v
  probed : ∀ pending probed, s.phase = .probing pending probed → ∀ p probe, (p, probe) ∈ probed →
    s.actor.cachedProduceOffset p ≤ probe.produceOffset

/-- The produce offsets of an event are offsets of messages. -/
structure Sound (e : ConsumerEvent α) : Prop where
  updates : ∀ updates, e = .actor (.produceOffset updates) → ∀ u ∈ updates, produceOffsetBegin ≤ u.2
  scan : ∀ t, e = .actor (.refreshProduce (.ok t)) →
    ∀ p v, t.lookup p = some v → produceOffsetBegin ≤ v

theorem Fed.of_phase (hscan : ∀ t, s.phase ≠ .refreshConsume t)
    (hprobe : ∀ pending probed, s.phase ≠ .probing pending probed) : Fed s :=
  ⟨fun t ht => absurd ht (hscan t), fun pending probed hp => absurd hp (hprobe pending probed)⟩

theorem Fed.congr (h : Fed s) (hphase : s'.phase = s.phase) (hactor : s'.actor = s.actor) :
    Fed s' := by
  constructor
  · rw [hphase]
    exact h.scanned
  · rw [hphase, hactor]
    exact h.probed

theorem Fed.actorEffect (h : Fed s) (hsound : Sound (α := α) (.actor e)) (he : ActorEffect s e s') :
    Fed s' := by
  cases he with
  | refuse => exact h
  | scanProduce t =>
    refine ⟨?_, nofun⟩
    intro t' ht'
    cases ht'
    exact hsound.scan t rfl
  | beginProbe =>
    refine ⟨nofun, ?_⟩
    intro pending probed hp p probe hmem
    cases hp
    cases hmem
  | probe p produceOffset missing pending probed hphase =>
    refine ⟨nofun, ?_⟩
    intro pending' probed' hp p' probe hmem
    cases hp
    rcases mem_append.1 hmem with hold | hnew
    · exact h.probed pending probed hphase p' probe hold
    · rw [mem_singleton] at hnew
      cases hnew
      exact le_mergeMonotonicOffset _ _
  | _ => exact Fed.of_phase nofun nofun

/-- A step of the actor does not lower a cached produce offset. -/
theorem Fed.cachedProduceOffset_le (h : Fed s) (hsound : Sound (α := α) (.actor e))
    (he : ActorEffect s e s') (p : String) :
    s.actor.cachedProduceOffset p ≤ s'.actor.cachedProduceOffset p := by
  cases he with
  | metaSet set =>
    unfold cachedProduceOffset
    rw [(handleMetaMsg_offsets s.actor set).2.1]
  | produceOffset updates =>
    exact (le_cachedProduceOffset_handleProduceOffsetMsg (hsound.updates updates rfl)).1
  | scanConsume t hphase => exact le_cachedProduceOffset_mergeOffsets _ (h.scanned t hphase p)
  | scanMeta t set =>
    unfold cachedProduceOffset
    rw [(rebuildReadyStateFromCaches_offsets _).2.1]
  | probeNoMessage probed hphase | probeDone probed hphase =>
    rcases lookup_applyProbes probed s.actor p with ⟨hsame, -⟩ | ⟨probe, hmem, hnew, -⟩
    · exact le_of_eq (by simp only [cachedProduceOffset, hsame])
    · refine le_trans (h.probed _ probed hphase p probe hmem) (le_of_eq ?_)
      simp only [cachedProduceOffset, hnew, Option.getD_some]
  | pickNoMessage q => exact le_of_eq (cachedProduceOffset_refresh _ _ _).symm
  | pick q => exact le_of_eq (cachedProduceOffset_handOut s.actor q p).symm
  | _ => exact le_refl _

/-- Once the first snapshot is read the ready set is exact, and the actor waits only if it is
empty. -/
structure Attentive (s : Consumer α) : Prop where
  ready : s.actor.offsetSnapshotState = .initialized → s.actor.ReadyExact
  waits : s.phase = .waitInputs →
    s.actor.offsetSnapshotState = .initialized ∧ s.actor.readyProducers = ∅

theorem Attentive.toPhase (h : Attentive s) {phase : ActorPhase} (hphase : phase ≠ .waitInputs) :
    Attentive { s with phase } :=
  ⟨h.ready, fun hw => absurd hw hphase⟩

theorem Attentive.congr (h : Attentive s) (hphase : s'.phase = s.phase)
    (hactor : s'.actor = s.actor) : Attentive s' := by
  constructor
  · rw [hactor]
    exact h.ready
  · rw [hactor, hphase]
    exact h.waits

theorem Attentive.actorEffect (h : Attentive s) (hoffsets : Offsets d s) (he : ActorEffect s e s') :
    Attentive s' := by
  cases he with
  | refuse => exact h
  | setCallback => exact ⟨h.ready, nofun⟩
  | metaSet set =>
    refine ⟨fun hinit => ?_, nofun⟩
    rw [(handleMetaMsg_offsets s.actor set).2.2.2] at hinit
    exact (h.ready hinit).handleMetaMsg set
  | produceOffset updates =>
    refine ⟨fun hinit => ?_, nofun⟩
    rw [(handleProduceOffsetMsg_offsets updates s.actor).2.2] at hinit
    exact (h.ready hinit).handleProduceOffsetMsg updates
  | scanConsume t hphase =>
    refine ⟨fun hinit => ?_, nofun⟩
    have hpending := hoffsets.phase
    rw [hphase] at hpending
    cases Eq.trans hinit.symm hpending
  | scanMeta t set => exact ⟨fun _ => readyExact_rebuildReadyStateFromCaches _, nofun⟩
  | noMessage hphase hready =>
    have hinit := hoffsets.phase
    rw [hphase] at hinit
    exact ⟨h.ready, fun _ => ⟨hinit, hready⟩⟩
  | probe => exact ⟨h.ready, nofun⟩
  | probeNoMessage probed hphase hready =>
    have hprobing := hoffsets.phase
    rw [hphase] at hprobing
    have hstate := (applyProbes_offsets probed s.actor).2
    exact ⟨fun _ => (h.ready hprobing.1).applyProbes probed,
      fun _ => ⟨hstate.trans hprobing.1, hready⟩⟩
  | probeDone probed hphase hready =>
    have hprobing := hoffsets.phase
    rw [hphase] at hprobing
    exact ⟨fun _ => (h.ready hprobing.1).applyProbes probed, nofun⟩
  | pickNoMessage p hphase hready hroom =>
    -- the ready set is exact, so a picked producer has room
    have hinit := hoffsets.phase
    rw [hphase] at hinit
    exact absurd ((h.ready hinit p).1 hready) hroom
  | pick p hphase =>
    have hinit := hoffsets.phase
    rw [hphase] at hinit
    exact ⟨fun _ => (h.ready hinit).handOut p, nofun⟩
  | reserve | admitted | enqueue => exact ⟨h.ready, nofun⟩
  | _ => exact h.toPhase nofun

/-- What holds of a consumer whose events carry produce offsets of messages. -/
structure Informed (d : Table String ℕ) (s : Consumer α) : Prop where
  dispatching : Dispatching d s
  fed : Fed s
  attentive : Attentive s

theorem Informed.init (d : Table String ℕ) (deleteCb : Bool) :
    Informed d (Consumer.init d deleteCb : Consumer α) :=
  ⟨.init d deleteCb, Fed.of_phase nofun nofun, nofun, nofun⟩

theorem Informed.step {e : ConsumerEvent α} (h : Informed d s) (hsound : Sound e)
    (hstep : Step s e s') :
    Informed d s' ∧ ∀ p, s.actor.cachedProduceOffset p ≤ s'.actor.cachedProduceOffset p := by
  have hdispatching := h.dispatching.step hstep
  cases h.dispatching.inOrder.effect hstep with
  | actor he =>
    exact ⟨⟨hdispatching, h.fed.actorEffect hsound he,
      h.attentive.actorEffect h.dispatching.offsets he⟩, h.fed.cachedProduceOffset_le hsound he⟩
  | job hjob he =>
    have hframe := he.frame hjob
    exact ⟨⟨hdispatching, h.fed.congr hframe.phase hframe.actor,
      h.attentive.congr hframe.phase hframe.actor⟩, fun p => by rw [hframe.actor]⟩
  | caller he =>
    have hframe := he.frame
    exact ⟨⟨hdispatching, h.fed.congr hframe.phase hframe.actor,
      h.attentive.congr hframe.phase hframe.actor⟩, fun p => by rw [hframe.actor]⟩
  | shutdown =>
    exact ⟨⟨hdispatching, h.fed.congr rfl rfl, h.attentive.congr rfl rfl⟩, fun _ => le_refl _⟩

/-- An actor that waits for an input has handed out every message it knows of. -/
theorem Informed.lt_nextHint_of_waits (h : Informed d s) (hwaits : s.phase = .waitInputs)
    (p : String) : s.actor.cachedProduceOffset p < s.actor.cachedNextHint p := by
  obtain ⟨hinit, hempty⟩ := h.attentive.waits hwaits
  have hnot : ¬s.actor.HasRoom p := by
    intro hroom
    have hmem := (h.attentive.ready hinit p).2 hroom
    rw [hempty] at hmem
    simp at hmem
  exact not_le.1 hnot

end Consumer

/-! ## The loop -/

/-- An open watch stream: what it has still to deliver, and whether it has broken. -/
structure WatchStream where
  events : List (String × ℤ)
  alive : Bool
  deriving DecidableEq

inductive WatchPhase
  /-- About to open a stream. -/
  | starting
  /-- The stream is open and the snapshot scan is running. -/
  | resyncing (stream : WatchStream)
  /-- A batch of updates is being sent to the actor. -/
  | sending (updates : List (String × ℤ)) (stream : WatchStream)
  | streaming (stream : WatchStream)
  | stopped
  deriving DecidableEq

variable (update : String × ℤ)

/-- A write reaches the stream if there is one that has not broken. -/
def WatchPhase.deliver : WatchPhase → WatchPhase
  | .resyncing ⟨events, true⟩ => .resyncing ⟨events ++ [update], true⟩
  | .sending updates ⟨events, true⟩ => .sending updates ⟨events ++ [update], true⟩
  | .streaming ⟨events, true⟩ => .streaming ⟨events ++ [update], true⟩
  | phase => phase

def WatchPhase.breakStream : WatchPhase → WatchPhase
  | .resyncing stream => .resyncing { stream with alive := false }
  | .sending updates stream => .sending updates { stream with alive := false }
  | .streaming stream => .streaming { stream with alive := false }
  | phase => phase

/-- A consumer with its produce-offset watch. -/
structure WatchedConsumer (α : Type) where
  /-- The produce offsets in etcd. -/
  produceOffsets : Table String ℕ
  watch : WatchPhase := .starting
  /-- The batches sent to the actor and not handled. -/
  channel : List (List (String × ℤ)) := []
  consumer : Consumer α

/-- The capacity of the channel of produce-offset updates. -/
def produceOffsetCapacity : ℕ := 128

inductive WatchEvent
  | openStream (ok : Bool)
  | scan (ok : Bool)
  | send
  | batch (n : ℕ)
  | restart
  | stop
  deriving DecidableEq

inductive WatchedEvent (α : Type)
  | write (producerId : String) (produceOffset : ℕ)
  | breakStream
  | watch (e : WatchEvent)
  | consumer (e : ConsumerEvent α)

namespace WatchedConsumer

variable {α : Type}

section

variable (w : WatchedConsumer α)

/-- What a scan of the produce offsets returns. -/
def snapshot : List (String × ℤ) :=
  w.produceOffsets.entries.map fun e => (e.1, (e.2 : ℤ))

/-- `run_prefix_watch_loop`, with `refresh_produce_offset_watch_snapshot` as `on_resync`. -/
def stepWatch : WatchEvent → Option (WatchedConsumer α)
  | .openStream ok =>
    match w.watch with
    | .starting => if ok then some { w with watch := .resyncing ⟨[], true⟩ } else some w
    | _ => none
  | .scan ok =>
    match w.watch with
    | .resyncing stream =>
      if ok ∧ w.snapshot ≠ [] then some { w with watch := .sending w.snapshot stream }
      else some { w with watch := .streaming stream }
    | _ => none
  | .send =>
    match w.watch with
    | .sending updates stream =>
      if w.channel.length < produceOffsetCapacity then
        some { w with channel := w.channel ++ [updates], watch := .streaming stream }
      else none
    | _ => none
  | .batch n =>
    match w.watch with
    | .streaming stream =>
      if 0 < n ∧ n ≤ stream.events.length then
        some { w with
          watch := .sending (stream.events.take n)
            { stream with events := stream.events.drop n } }
      else none
    | _ => none
  | .restart =>
    match w.watch with
    | .streaming stream => if stream.alive then none else some { w with watch := .starting }
    | _ => none
  | .stop => if w.consumer.shutdown then some { w with watch := .stopped } else none

/-- What an event of the consumer reads of the produce offsets is what is in etcd, or the next
batch of the channel. A probe may miss its offset. -/
def consistent : ConsumerEvent α → Bool
  | .actor (.produceOffset updates) => w.channel.head? = some updates
  | .actor (.refreshProduce (.ok t)) => t.entries.map (fun e => (e.1, e.2)) = w.snapshot
  | .actor (.probe p produceOffset _) =>
    produceOffset = none || produceOffset = (w.produceOffsets.lookup p).map Int.ofNat
  | _ => true

/-- The channel after an event of the consumer. -/
def channelAfter : ConsumerEvent α → List (List (String × ℤ))
  | .actor (.produceOffset _) => w.channel.tail
  | _ => w.channel

def step : WatchedEvent α → Option (WatchedConsumer α)
  | .write p v =>
    if w.produceOffsets.lookup p |>.all (· < v) then
      some { w with
        produceOffsets := AList.insert p v w.produceOffsets
        watch := w.watch.deliver (p, v) }
    else none
  | .breakStream => some { w with watch := w.watch.breakStream }
  | .watch e => w.stepWatch e
  | .consumer e =>
    if w.consistent e then
      (w.consumer.step e).map fun consumer => { w with consumer, channel := w.channelAfter e }
    else none

def Step (e : WatchedEvent α) (w' : WatchedConsumer α) : Prop :=
  w.step e = some w'

end

/-- A consumer that has just been bound, with the offsets it finds in etcd. -/
def init (produceOffsets consumeOffsets : Table String ℕ) (deleteCb : Bool) : WatchedConsumer α :=
  { produceOffsets, consumer := .init consumeOffsets deleteCb }

/-! ## What a step does -/

variable {w w' : WatchedConsumer α} {d : Table String ℕ} {p : String} {stream : WatchStream}

inductive Effect (w : WatchedConsumer α) : WatchedEvent α → WatchedConsumer α → Prop
  | write (p : String) (v : ℕ) :
      (∀ u, w.produceOffsets.lookup p = some u → u < v) →
      Effect w (.write p v)
        { w with
          produceOffsets := AList.insert p v w.produceOffsets
          watch := w.watch.deliver (p, v) }
  | breakStream : Effect w .breakStream { w with watch := w.watch.breakStream }
  | openStream :
      w.watch = .starting →
      Effect w (.watch (.openStream true)) { w with watch := .resyncing ⟨[], true⟩ }
  | openFailed : w.watch = .starting → Effect w (.watch (.openStream false)) w
  | scan (stream : WatchStream) :
      w.watch = .resyncing stream → w.snapshot ≠ [] →
      Effect w (.watch (.scan true)) { w with watch := .sending w.snapshot stream }
  | scanEmpty (stream : WatchStream) :
      w.watch = .resyncing stream → w.snapshot = [] →
      Effect w (.watch (.scan true)) { w with watch := .streaming stream }
  | scanFailed (stream : WatchStream) :
      w.watch = .resyncing stream →
      Effect w (.watch (.scan false)) { w with watch := .streaming stream }
  | send (updates : List (String × ℤ)) (stream : WatchStream) :
      w.watch = .sending updates stream → w.channel.length < produceOffsetCapacity →
      Effect w (.watch .send)
        { w with channel := w.channel ++ [updates], watch := .streaming stream }
  | batch (n : ℕ) (stream : WatchStream) :
      w.watch = .streaming stream → 0 < n → n ≤ stream.events.length →
      Effect w (.watch (.batch n))
        { w with
          watch := .sending (stream.events.take n)
            { stream with events := stream.events.drop n } }
  | restart (stream : WatchStream) :
      w.watch = .streaming stream → stream.alive = false →
      Effect w (.watch .restart) { w with watch := .starting }
  | stop :
      w.consumer.shutdown = true → Effect w (.watch .stop) { w with watch := .stopped }
  | consumer (e : ConsumerEvent α) (consumer : Consumer α) :
      w.consistent e = true → w.consumer.Step e consumer →
      Effect w (.consumer e) { w with consumer, channel := w.channelAfter e }

theorem effect_of_stepWatch {e : WatchEvent} (h : w.stepWatch e = some w') :
    Effect w (.watch e) w' := by
  revert h
  fun_cases stepWatch w e <;> rintro ⟨⟩
  · next hwatch => exact .openStream hwatch
  · next ok hwatch hok =>
    rw [Bool.eq_false_iff.2 hok]
    exact .openFailed hwatch
  · next stream hwatch hscan =>
    rw [hscan.1]
    exact .scan stream hwatch hscan.2
  · next ok stream hwatch hscan =>
    cases ok with
    | true => exact .scanEmpty stream hwatch (by simpa using hscan)
    | false => exact .scanFailed stream hwatch
  · next updates stream hwatch hroom => exact .send updates stream hwatch hroom
  · next n stream hwatch hn => exact .batch n stream hwatch hn.1 hn.2
  · next stream hwatch halive => exact .restart stream hwatch (Bool.eq_false_iff.2 halive)
  · next hshutdown => exact .stop hshutdown

theorem effect_of_step {e : WatchedEvent α} (h : Step w e w') : Effect w e w' := by
  cases e with
  | write p v =>
    obtain ⟨hlt, hw'⟩ := Option.ite_none_right_eq_some.1 h
    cases hw'
    refine .write p v fun u hu => ?_
    simpa [hu] using hlt
  | breakStream =>
    cases h
    exact .breakStream
  | watch e => exact effect_of_stepWatch h
  | consumer e =>
    obtain ⟨hconsistent, hw'⟩ := Option.ite_none_right_eq_some.1 h
    obtain ⟨consumer, hstep, rfl⟩ := Option.map_eq_some_iff.1 hw'
    exact .consumer e consumer hconsistent hstep

/-! ## Offsets that are known or on their way -/

/-- The updates that the loop still has to hand to the actor. It holds all that are missing once
the snapshot has been read, as long as the stream is alive. -/
def pending : WatchPhase → Option (List (String × ℤ))
  | .sending updates ⟨events, true⟩ => some (updates ++ events)
  | .streaming ⟨events, true⟩ => some events
  | _ => none

/-- All updates that the loop holds. -/
def held : WatchPhase → List (String × ℤ)
  | .resyncing stream => stream.events
  | .sending updates stream => updates ++ stream.events
  | .streaming stream => stream.events
  | .starting | .stopped => []

variable (phase : WatchPhase)

theorem held_deliver : held (phase.deliver update) = held phase ∨
      held (phase.deliver update) = held phase ++ [update] := by
  unfold WatchPhase.deliver
  split
  · exact .inr rfl
  · exact .inr (by simp [held])
  · exact .inr rfl
  · exact .inl rfl

theorem held_breakStream : held phase.breakStream = held phase := by cases phase <;> rfl

theorem pending_breakStream : pending phase.breakStream = none := by cases phase <;> rfl

/-- A write reaches the updates that are pending. -/
theorem pending_deliver : pending (phase.deliver update) = (pending phase).map (· ++ [update]) := by
  cases phase with
  | starting | stopped => rfl
  | resyncing stream | streaming stream =>
    obtain ⟨events, alive⟩ := stream
    cases alive <;> rfl
  | sending updates stream =>
    obtain ⟨events, alive⟩ := stream
    cases alive
    · rfl
    · simp [WatchPhase.deliver, pending]

structure Watching (d : Table String ℕ) (w : WatchedConsumer α) : Prop where
  informed : w.consumer.Informed d
  held : ∀ u ∈ held w.watch, produceOffsetBegin ≤ u.2
  channel : ∀ updates ∈ w.channel, ∀ u ∈ updates, produceOffsetBegin ≤ u.2
  covered : ∀ updates, pending w.watch = some updates → ∀ p v, w.produceOffsets.lookup p = some v →
      (v : ℤ) ≤ w.consumer.actor.cachedProduceOffset p ∨ (p, (v : ℤ)) ∈ w.channel.flatten ++ updates

theorem begin_le (v : ℕ) : produceOffsetBegin ≤ (v : ℤ) := by
  unfold produceOffsetBegin
  omega

theorem begin_le_of_mem_snapshot {u : String × ℤ} (h : u ∈ w.snapshot) :
    produceOffsetBegin ≤ u.2 := by
  obtain ⟨e, -, rfl⟩ := mem_map.1 h
  exact begin_le e.2

theorem mem_snapshot {v : ℕ} (h : w.produceOffsets.lookup p = some v) : (p, (v : ℤ)) ∈ w.snapshot :=
  mem_map.2 ⟨⟨p, v⟩, Table.mem_entries_iff.2 h, rfl⟩

section

variable (h : Watching d w)
include h

variable {e : ConsumerEvent α}

/-- The events of the consumer carry offsets of messages. -/
theorem Watching.sound (he : w.consistent e = true) : Consumer.Sound e := by
  constructor
  · rintro updates rfl
    simp only [consistent, decide_eq_true_eq] at he
    exact h.channel updates (mem_of_mem_head? he)
  rintro t rfl p v hv
  simp only [consistent, decide_eq_true_eq] at he
  have hmem : (p, v) ∈ t.entries.map fun e => (e.1, e.2) :=
    mem_map.2 ⟨⟨p, v⟩, Table.mem_entries_iff.2 hv, rfl⟩
  rw [he] at hmem
  exact begin_le_of_mem_snapshot hmem

/-- The handled batch leaves the channel, and its offsets are in the cache. -/
theorem Watching.consumer {c : Consumer α} (he : w.consistent e = true)
    (hstep : w.consumer.Step e c) :
    Watching d { w with consumer := c, channel := w.channelAfter e } := by
  have hsound := h.sound he
  obtain ⟨hinformed, hle⟩ := h.informed.step hsound hstep
  by_cases hupdates : ∃ updates, e = .actor (.produceOffset updates)
  · obtain ⟨updates, rfl⟩ := hupdates
    simp only [consistent, decide_eq_true_eq] at he
    obtain ⟨rest, hchannel⟩ : ∃ rest, w.channel = updates :: rest := by
      cases hw : w.channel with
      | nil =>
        rw [hw] at he
        cases he
      | cons first rest =>
        rw [hw] at he
        cases he
        exact ⟨rest, rfl⟩
    have hafter : w.channelAfter (.actor (.produceOffset updates)) = rest := by
      rw [channelAfter, hchannel]
      rfl
    refine ⟨hinformed, h.held, ?_, ?_⟩
    · rw [hafter]
      exact fun us hus => h.channel us (by rw [hchannel]; exact mem_cons_of_mem _ hus)
    intro pend hpend p v hv
    rw [hafter]
    rcases h.covered pend hpend p v hv with hcached | hmem
    · exact .inl (le_trans hcached (hle p))
    rw [hchannel, flatten_cons, append_assoc] at hmem
    rcases mem_append.1 hmem with hhandled | hmem
    · left
      cases h.informed.dispatching.inOrder.effect hstep with
      | actor hactor =>
        cases hactor with
        | produceOffset =>
          exact (le_cachedProduceOffset_handleProduceOffsetMsg
            (hsound.updates updates rfl)).2 _ hhandled
        | abandon _ habandons => cases habandons
    · exact .inr hmem
  · have hafter : w.channelAfter e = w.channel := by
      unfold channelAfter
      split
      · next updates => exact absurd ⟨updates, rfl⟩ hupdates
      · rfl
    refine ⟨hinformed, h.held, by rw [hafter]; exact h.channel, ?_⟩
    intro pend hpend p v hv
    rw [hafter]
    exact (h.covered pend hpend p v hv).imp_left fun hcached => le_trans hcached (hle p)

theorem Watching.write {v : ℕ} : Watching d
      { w with
        produceOffsets := AList.insert p v w.produceOffsets
        watch := w.watch.deliver (p, v) } := by
  refine ⟨h.informed, ?_, h.channel, ?_⟩
  · intro u hu
    rcases held_deliver (p, v) w.watch with hsame | hnew
    · rw [hsame] at hu
      exact h.held u hu
    · rw [hnew] at hu
      rcases mem_append.1 hu with hold | hu
      · exact h.held u hold
      · rw [mem_singleton.1 hu]
        exact begin_le v
  · intro updates hpending q u hu
    rw [pending_deliver] at hpending
    obtain ⟨before, hbefore, rfl⟩ := Option.map_eq_some_iff.1 hpending
    obtain ⟨rfl, rfl⟩ | ⟨-, hu⟩ := Table.lookup_insert_cases hu
    · exact .inr (by simp)
    · refine (h.covered before hbefore q u hu).imp_right fun hmem => ?_
      rw [← append_assoc]
      exact mem_append_left _ hmem

/-- The snapshot has been read: every offset is on its way. -/
theorem Watching.scan (hwatch : w.watch = .resyncing stream) :
    Watching d { w with watch := .sending w.snapshot stream } := by
  refine ⟨h.informed, ?_, h.channel, ?_⟩
  · intro u hu
    rcases mem_append.1 hu with hsnapshot | hstream
    · exact begin_le_of_mem_snapshot hsnapshot
    · exact h.held u (by rw [hwatch]; exact hstream)
  intro updates hpending q u hu
  obtain ⟨events, alive⟩ := stream
  cases alive with
  | false => cases hpending
  | true =>
    cases hpending
    exact .inr (mem_append_right _ (mem_append_left _ (mem_snapshot hu)))

theorem Watching.send {updates : List (String × ℤ)} (hwatch : w.watch = .sending updates stream) :
    Watching d { w with channel := w.channel ++ [updates], watch := .streaming stream } := by
  have hheld := h.held
  rw [hwatch] at hheld
  refine ⟨h.informed, fun u hu => hheld u (mem_append_right _ hu), ?_, ?_⟩
  · intro us hus
    rcases mem_append.1 hus with hold | hnew
    · exact h.channel us hold
    · rw [mem_singleton.1 hnew]
      exact fun u hu => hheld u (mem_append_left _ hu)
  · intro pend hpending q u hu
    obtain ⟨events, alive⟩ := stream
    cases alive with
    | false => cases hpending
    | true =>
      cases hpending
      have hcovered := h.covered (updates ++ pend) (by rw [hwatch]; rfl) q u hu
      simpa using hcovered

theorem Watching.batch {n : ℕ} (hwatch : w.watch = .streaming stream) : Watching d
      { w with
        watch := .sending (stream.events.take n)
          { stream with events := stream.events.drop n } } := by
  have hheld := h.held
  rw [hwatch] at hheld
  refine ⟨h.informed, ?_, h.channel, ?_⟩
  · intro u hu
    exact hheld u (by simpa [WatchedConsumer.held, take_append_drop] using hu)
  intro pend hpending q u hu
  obtain ⟨events, alive⟩ := stream
  cases alive with
  | false => cases hpending
  | true =>
    cases hpending
    rw [take_append_drop]
    exact h.covered events (by rw [hwatch]; rfl) q u hu

end

/-- No snapshot scan fails. -/
def Resynced (e : WatchedEvent α) : Prop := e ≠ .watch (.scan false)

theorem Watching.step {e : WatchedEvent α} (h : Watching d w) (hscan : Resynced e)
    (hstep : Step w e w') : Watching d w' := by
  cases effect_of_step hstep with
  | write p v => exact h.write
  | breakStream =>
    refine ⟨h.informed, ?_, h.channel, ?_⟩
    · rw [held_breakStream]
      exact h.held
    · rw [pending_breakStream]
      exact nofun
  | openStream | restart | stop => exact ⟨h.informed, nofun, h.channel, nofun⟩
  | openFailed => exact h
  | scan stream hwatch => exact h.scan hwatch
  | scanEmpty stream hwatch hempty =>
    have hheld := h.held
    rw [hwatch] at hheld
    refine ⟨h.informed, hheld, h.channel, ?_⟩
    intro updates _ q u hu
    have hmem : (q, (u : ℤ)) ∈ w.snapshot := mem_snapshot hu
    rw [hempty] at hmem
    cases hmem
  | scanFailed => exact absurd rfl hscan
  | send updates stream hwatch => exact h.send hwatch
  | batch n stream hwatch => exact h.batch hwatch
  | consumer e c hconsistent hc => exact h.consumer hconsistent hc

theorem Watching.init (produceOffsets d : Table String ℕ) (deleteCb : Bool) :
    Watching d (WatchedConsumer.init produceOffsets d deleteCb : WatchedConsumer α) :=
  ⟨.init d deleteCb, nofun, nofun, nofun⟩

/-- **No wakeup is lost if no snapshot scan fails.** In every such run, whenever the stream is open
and nothing is queued for the actor, its cached produce offset of every producer is at least the
one in etcd; and if it waits for an input then it has handed out every message. -/
theorem wakeup_not_lost {produceOffsets : Table String ℕ} {deleteCb : Bool}
    {es : List (WatchedEvent α)}
    (h : Run Step (WatchedConsumer.init produceOffsets d deleteCb) es w)
    (hscan : .watch (.scan false) ∉ es) (hwatch : w.watch = .streaming ⟨[], true⟩)
    (hchannel : w.channel = []) {v : ℕ} (hv : w.produceOffsets.lookup p = some v) :
    (v : ℤ) ≤ w.consumer.actor.cachedProduceOffset p ∧
      (w.consumer.phase = .waitInputs → v < w.consumer.actor.cachedNextHint p) := by
  have hresynced : ∀ e ∈ es, Resynced e := fun e he heq => hscan (heq ▸ he)
  have hw : Watching d w :=
    (h.guarded hresynced).invariant (fun _ _ _ hs hstep => hs.step hstep.1 hstep.2)
      (.init produceOffsets d deleteCb)
  have hle : (v : ℤ) ≤ w.consumer.actor.cachedProduceOffset p := by
    rcases hw.covered [] (by rw [hwatch]; rfl) p v hv with hcached | hmem
    · exact hcached
    · rw [hchannel] at hmem
      cases hmem
  refine ⟨hle, fun hwaits => ?_⟩
  have hlt := hw.informed.lt_nextHint_of_waits hwaits p
  omega

/-- The actor reads its first snapshot and finds no message. -/
def idleConsumer : List (WatchedEvent String) :=
  [.consumer (.caller (.call 1)), .consumer (.actor .setCallback),
    .consumer (.actor .tryPrefetchOne), .consumer (.actor (.refreshProduce (.ok ∅))),
    .consumer (.actor (.refreshConsume none)), .consumer (.actor (.refreshMeta (.ok ["p"]))),
    .consumer (.actor .select)]

/-- A message is written while there is no stream, and the snapshot scan finds it. -/
def missedAndScanned : List (WatchedEvent String) :=
  idleConsumer ++ [.watch (.openStream true), .watch (.scan true), .breakStream, .write "p" 0,
    .watch .restart, .watch (.openStream true), .watch (.scan true), .watch .send,
    .consumer (.actor (.produceOffset [("p", 0)]))]

theorem wakeup_not_lost_missedAndScanned : ∃ w : WatchedConsumer String,
      Run Step (WatchedConsumer.init ∅ ∅ false) missedAndScanned w ∧
        w.produceOffsets.lookup "p" = some 0 ∧ (0 : ℤ) ≤ w.consumer.actor.cachedProduceOffset "p" := by
  obtain ⟨w, hrun, hwatch, hchannel, hoffset⟩ := Run.exists_of_foldlM step
    (WatchedConsumer.init ∅ ∅ false) missedAndScanned (fun w => w.watch = .streaming ⟨[], true⟩ ∧
      w.channel = [] ∧ w.produceOffsets.lookup "p" = some 0) (by decide +kernel)
  refine ⟨w, hrun, hoffset, (wakeup_not_lost hrun ?_ hwatch hchannel hoffset).1⟩
  simp [missedAndScanned, idleConsumer]

/-- The same, when the snapshot scan after the restart fails. -/
def missedAndUnscanned : List (WatchedEvent String) :=
  idleConsumer ++ [.watch (.openStream true), .watch (.scan true), .breakStream, .write "p" 0,
    .watch .restart, .watch (.openStream true), .watch (.scan false)]

/-- Whether the actor waits for an input without a timeout. -/
def waits (w : WatchedConsumer α) : Bool :=
  match w.consumer.phase with
  | .waitInputs => true
  | _ => false

theorem phase_of_waits (h : w.waits = true) : w.consumer.phase = .waitInputs := by
  unfold waits at h
  split at h
  · next hphase => exact hphase
  · cases h

/-- **A lost wakeup.** The stream is open, nothing is queued, a message is in etcd, and the actor
waits for an input and does not know of it. -/
theorem wakeup_lost : ∃ w : WatchedConsumer String,
      Run Step (WatchedConsumer.init ∅ ∅ false) missedAndUnscanned w ∧
        w.watch = .streaming ⟨[], true⟩ ∧ w.channel = [] ∧
        w.produceOffsets.lookup "p" = some 0 ∧ w.consumer.phase = .waitInputs ∧
        w.consumer.actor.cachedProduceOffset "p" = -1 ∧
        w.consumer.actor.cachedNextHint "p" = 0 := by
  obtain ⟨w, hrun, hwatch, hchannel, hoffset, hphase, hcached, hhint⟩ := Run.exists_of_foldlM step
    (WatchedConsumer.init ∅ ∅ false) missedAndUnscanned
    (fun w => w.watch = .streaming ⟨[], true⟩ ∧ w.channel = [] ∧
      w.produceOffsets.lookup "p" = some 0 ∧ w.waits = true ∧
      w.consumer.actor.cachedProduceOffset "p" = -1 ∧
      w.consumer.actor.cachedNextHint "p" = 0) (by decide +kernel)
  exact ⟨w, hrun, hwatch, hchannel, hoffset, phase_of_waits hphase, hcached, hhint⟩

end WatchedConsumer

end Fluxon.Mq
