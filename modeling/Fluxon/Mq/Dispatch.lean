import Fluxon.Mq.Sequenced
import Mathlib.Data.List.Range

/-!
# Dispatch without gaps and commit of a prefix

What a consumer does over a whole run, from the consume offsets `d` that it finds in etcd.

* For each producer the offsets that `select_next_message` returns are consecutive and start at the
  consume offset of the first snapshot (`Offsets`), and none is above every produce offset that has
  reached the actor (`Observed`).
* The dispatches are the offsets returned, in the same order (`Dispatched`), and the consume offset
  in etcd is one past the last committed dispatch of the producer (`Durable`).

The main result is `dispatch_gap_free_and_commit_prefix`.
-/

namespace Fluxon.Mq.Consumer

open ConsumerActor List

variable {α : Type} {s s' : Consumer α} {i : ℕ} {job : Job α} {d : Table String ℕ} {p q : String}

/-! ## Offsets of one producer -/

/-- The offsets of a producer in a list of messages. -/
def offsetsOf (l : List (String × ℕ)) (p : String) : List ℕ := (l.filter fun m => m.1 = p).map (·.2)

@[simp] theorem offsetsOf_nil : offsetsOf [] p = [] := rfl

theorem offsetsOf_append (l l' : List (String × ℕ)) :
    offsetsOf (l ++ l') p = offsetsOf l p ++ offsetsOf l' p := by
  simp [offsetsOf]

theorem offsetsOf_singleton (o : ℕ) : offsetsOf [(q, o)] p = if q = p then [o] else [] := by
  by_cases h : q = p
  · simp [offsetsOf, h]
  · simp [offsetsOf, h]

variable {l l' : List (String × ℕ)} {e : JobEvent α}

theorem offsetsOf_mono (h : l <+: l') (p : String) : offsetsOf l p <+: offsetsOf l' p := by
  obtain ⟨r, rfl⟩ := h
  rw [offsetsOf_append]
  exact prefix_append _ _

/-- The first offset of a producer that is not consumed. -/
def startOffset (d : Table String ℕ) (p : String) : ℕ := (d.lookup p).getD consumeOffsetBegin

/-- For each producer the offsets are consecutive and start where `d` says. -/
def Consecutive (d : Table String ℕ) (l : List (String × ℕ)) : Prop :=
  ∀ p, offsetsOf l p = range' (startOffset d p) (offsetsOf l p).length

theorem Consecutive.mono (h : Consecutive d l') (hl : l <+: l') : Consecutive d l := by
  intro p
  have hp := offsetsOf_mono hl p
  rw [h p] at hp
  have htake := prefix_iff_eq_take.1 hp
  have hlength := hp.length_le
  rw [length_range'] at hlength
  rw [take_range'_of_length_ge hlength] at htake
  exact htake

theorem Consecutive.concat {o : ℕ} (h : Consecutive d l)
    (ho : o = startOffset d q + (offsetsOf l q).length) : Consecutive d (l ++ [(q, o)]) := by
  intro p
  rw [offsetsOf_append, offsetsOf_singleton]
  by_cases hq : q = p
  · subst hq
    rw [if_pos rfl, length_append, length_singleton, range'_1_concat, ← h q, ho]
  · rw [if_neg hq, append_nil]
    exact h p

/-- In consecutive messages none occurs twice. -/
theorem Consecutive.nodup (h : Consecutive d l) : l.Nodup := by
  rw [nodup_iff_count_le_one]
  rintro ⟨p, o⟩
  have hcount : l.count (p, o) ≤ (offsetsOf l p).count o := by
    have hfilter : (l.filter fun m => m.1 = p).count (p, o) = l.count (p, o) :=
      count_filter (by simp)
    rw [← hfilter]
    exact count_le_count_map (f := fun m : String × ℕ => m.2)
  refine le_trans hcount ?_
  rw [h p]
  exact nodup_iff_count_le_one.1 (nodup_range' _) o

/-! ## What the actor knows of the consume offsets -/

/-- The part of `Offsets` that depends on the phase of the actor. -/
def PhaseOffsets (d : Table String ℕ) (a : ConsumerActor) : ActorPhase → Prop
  | .refreshProduce | .refreshConsume _ => a.offsetSnapshotState = .pending
  | .refreshMeta t =>
    a.offsetSnapshotState = .pending ∧ t = d ∧ ∀ p, a.consumeCache.lookup p = d.lookup p
  | .selecting | .picking => a.offsetSnapshotState = .initialized
  | .probing _ probed =>
    a.offsetSnapshotState = .initialized ∧
      ∀ p probe, (p, probe) ∈ probed → a.prefetchOffsetMap.lookup p = none →
        probe.consumeOffset = startOffset d p
  | _ => True

/-- The state of an actor that has not read its first snapshot. -/
structure Unread (d : Table String ℕ) (s : Consumer α) : Prop where
  handedOut : s.handedOut = []
  snapshot : s.snapshot = none
  prefetch : ∀ p, s.actor.prefetchOffsetMap.lookup p = none
  consume : ∀ p v, s.actor.consumeCache.lookup p = some v → d.lookup p = some v

structure Offsets (d : Table String ℕ) (s : Consumer α) : Prop where
  consecutive : Consecutive d s.handedOut
  hint : s.actor.offsetSnapshotState = .initialized → ∀ p,
    s.actor.cachedNextHint p = startOffset d p + (offsetsOf s.handedOut p).length
  untouched : ∀ p, s.actor.prefetchOffsetMap.lookup p = none → offsetsOf s.handedOut p = []
  pending : s.actor.offsetSnapshotState = .pending → Unread d s
  snapshot : s.actor.offsetSnapshotState = .initialized → s.snapshot = some d
  phase : PhaseOffsets d s.actor s.phase

namespace Offsets

/-- Steps that change neither the consume offsets the actor knows nor what it has handed out. -/
theorem frame (h : Offsets d s) (hprefetch : s'.actor.prefetchOffsetMap = s.actor.prefetchOffsetMap)
    (hconsume : s'.actor.consumeCache = s.actor.consumeCache)
    (hstate : s'.actor.offsetSnapshotState = s.actor.offsetSnapshotState)
    (hhandedOut : s'.handedOut = s.handedOut) (hsnapshot : s'.snapshot = s.snapshot)
    (hphase : PhaseOffsets d s'.actor s'.phase) : Offsets d s' := by
  refine ⟨?_, ?_, ?_, ?_, ?_, hphase⟩
  · rw [hhandedOut]
    exact h.consecutive
  · intro hinit p
    rw [hstate] at hinit
    rw [hhandedOut, ← h.hint hinit p]
    simp only [cachedNextHint, cachedConsumeOffset, hprefetch, hconsume]
  · rw [hprefetch, hhandedOut]
    exact h.untouched
  · intro hpending
    rw [hstate] at hpending
    obtain ⟨hhanded, hnone, hfree, hread⟩ := h.pending hpending
    refine ⟨by rw [hhandedOut, hhanded], by rw [hsnapshot, hnone], ?_, ?_⟩
    · rw [hprefetch]
      exact hfree
    · rw [hconsume]
      exact hread
  · rw [hstate, hsnapshot]
    exact h.snapshot

/-- Steps of the other threads. -/
theorem congr (h : Offsets d s) (hactor : s'.actor = s.actor)
    (hhandedOut : s'.handedOut = s.handedOut) (hsnapshot : s'.snapshot = s.snapshot)
    (hphase : s'.phase = s.phase) : Offsets d s' := by
  apply h.frame _ _ _ hhandedOut hsnapshot
  · rw [hactor, hphase]
    exact h.phase
  all_goals rw [hactor]

variable {phase : ActorPhase} {observed : List (String × ℤ)} {pending : Finset String}
  {probed : List (String × SingleProducerOffsets)}

variable (h : Offsets d s)
include h

/-- A step that only moves the actor to another phase. -/
theorem toPhase (hphase : PhaseOffsets d s.actor phase) : Offsets d { s with phase } :=
  h.frame rfl rfl rfl rfl rfl hphase

/-- The actor reads the consume offsets of the snapshot. -/
theorem scanConsume {t : Table String ℤ} (hphase : s.phase = .refreshConsume t)
    (hetcd : s.consumeOffsets = d) :
    Offsets d
      { s with
        actor := s.actor.mergeOffsets t s.consumeOffsets
        phase := .refreshMeta s.consumeOffsets
        observed := observed } := by
  have hpending : s.actor.offsetSnapshotState = .pending := by
    have hp := h.phase
    rw [hphase] at hp
    exact hp
  obtain ⟨hhanded, hnone, hfree, hread⟩ := h.pending hpending
  have hmerged : ∀ p, (s.actor.mergeOffsets t s.consumeOffsets).consumeCache.lookup p =
      d.lookup p := by
    intro p
    rw [hetcd]
    exact lookup_consumeCache_mergeOffsets t (hread p)
  refine ⟨h.consecutive, ?_, h.untouched, ?_, ?_, hpending, hetcd, hmerged⟩
  · intro hinit
    rw [show s.actor.offsetSnapshotState = _ from hinit] at hpending
    cases hpending
  · intro _
    refine ⟨hhanded, hnone, hfree, ?_⟩
    intro p v hv
    rw [hmerged] at hv
    exact hv
  · intro hinit
    rw [show s.actor.offsetSnapshotState = _ from hinit] at hpending
    cases hpending

/-- The first snapshot is complete. -/
theorem scanMeta {t : Table String ℕ} {set : List String} (hphase : s.phase = .refreshMeta t) :
    Offsets d
      { s with
        actor :=
          { ({ s.actor with producerMetaCache := set } : ConsumerActor).rebuildReadyStateFromCaches
            with offsetSnapshotState := .initialized }
        phase := .selecting
        snapshot := some t } := by
  have hp := h.phase
  rw [hphase] at hp
  obtain ⟨hpending, rfl, hconsume⟩ := hp
  obtain ⟨hhanded, -, hfree, -⟩ := h.pending hpending
  obtain ⟨hprefetchEq, -, hconsumeEq, -⟩ := rebuildReadyStateFromCaches_offsets
    ({ s.actor with producerMetaCache := set } : ConsumerActor)
  refine ⟨h.consecutive, ?_, ?_, nofun, fun _ => rfl, rfl⟩
  · intro _ p
    simp only [cachedNextHint, cachedConsumeOffset, hprefetchEq,
      hconsumeEq, hfree, hconsume, hhanded, offsetsOf_nil]
    rfl
  · intro p _
    rw [hhanded]
    rfl

/-- A probe of a producer from which nothing has been handed out reads the first offset. -/
theorem probe {produceOffset : Option ℤ} {missing : Bool}
    (hphase : s.phase = .probing pending probed)
    (hetcd : s.actor.prefetchOffsetMap.lookup p = none → s.consumeOffsets.lookup p = d.lookup p) :
    Offsets d
      { s with
        phase := .probing (pending.erase p)
          (probed ++ [(p, s.actor.probeOffsets p produceOffset
            (if missing then none else s.consumeOffsets.lookup p))])
        observed := observed } := by
  have hp := h.phase
  rw [hphase] at hp
  obtain ⟨hinit, hprobed⟩ := hp
  refine h.frame rfl rfl rfl rfl rfl ⟨hinit, ?_⟩
  intro p' probe hmem hfree
  rcases mem_append.1 hmem with hold | hnew
  · exact hprobed p' probe hold hfree
  rw [mem_singleton] at hnew
  cases hnew
  -- the cache and etcd both hold the first offset, if they hold one
  have hcached : s.actor.cachedConsumeOffset p = startOffset d p := by
    have hhint := h.hint hinit p
    rw [h.untouched p hfree] at hhint
    simpa [cachedNextHint, show s.actor.prefetchOffsetMap.lookup p = none from hfree] using hhint
  have hread : ∀ v, s.consumeOffsets.lookup p = some v → v = startOffset d p := by
    intro v hv
    rw [hetcd hfree] at hv
    simp [startOffset, hv]
  simp only [probeOffsets, hcached]
  cases missing with
  | true => rfl
  | false =>
    cases hv : s.consumeOffsets.lookup p with
    | none => rfl
    | some v => simp [mergeMonotonicOffset, hread v hv]

/-- The probed offsets are written to the caches. -/
theorem applyProbes (hbefore : s.phase = .probing pending probed)
    (hphase : PhaseOffsets d (s.actor.applyProbes probed) phase) :
    Offsets d { s with actor := s.actor.applyProbes probed, phase } := by
  have hp := h.phase
  rw [hbefore] at hp
  obtain ⟨hinit, hprobed⟩ := hp
  obtain ⟨hprefetch, hstate⟩ := applyProbes_offsets probed s.actor
  refine ⟨h.consecutive, ?_, ?_, ?_, ?_, hphase⟩
  · intro _ p
    rw [← h.hint hinit p]
    cases hfree : s.actor.prefetchOffsetMap.lookup p with
    | some next => simp [cachedNextHint, hprefetch, hfree]
    | none =>
      have hhint := h.hint hinit p
      rw [h.untouched p hfree] at hhint
      simp only [cachedNextHint, hprefetch, hfree, Option.getD_none] at hhint ⊢
      rcases lookup_applyProbes probed s.actor p with ⟨-, hsame⟩ | ⟨probe, hmem, -, hnew⟩
      · simp only [cachedConsumeOffset, hsame]
      · rw [hhint]
        simp only [cachedConsumeOffset, hnew, Option.getD_some]
        exact hprobed p probe hmem hfree
  · intro p hfree
    rw [hprefetch] at hfree
    exact h.untouched p hfree
  · intro hpending
    rw [hstate, hinit] at hpending
    cases hpending
  · intro _
    exact h.snapshot hinit

/-- The next offset of a producer is handed out. -/
theorem handOut (hbefore : s.phase = .picking) : Offsets d
      { s with
        actor := s.actor.handOut p
        phase := .selected p (s.actor.cachedNextHint p)
        handedOut := s.handedOut ++ [(p, s.actor.cachedNextHint p)] } := by
  have hinit : s.actor.offsetSnapshotState = .initialized := by
    have hp := h.phase
    rw [hbefore] at hp
    exact hp
  have hstate : (s.actor.handOut p).offsetSnapshotState = .initialized :=
    (offsetSnapshotState_refresh _ _).trans hinit
  refine ⟨h.consecutive.concat (h.hint hinit p), ?_, ?_, ?_, ?_, trivial⟩
  · intro _ q
    rw [cachedNextHint_handOut, offsetsOf_append, offsetsOf_singleton, h.hint hinit q]
    by_cases hq : q = p
    · subst hq
      rw [if_pos rfl, if_pos rfl, h.hint hinit q, length_append, length_singleton]
      omega
    · rw [if_neg hq, if_neg (Ne.symm hq), append_nil]
  · intro q hfree
    rw [show (s.actor.handOut p).prefetchOffsetMap = _ from
      prefetchOffsetMap_refresh _ _, Table.lookup_insert_eq] at hfree
    by_cases hq : q = p
    · rw [if_pos hq] at hfree
      cases hfree
    · rw [if_neg hq] at hfree
      rw [offsetsOf_append, offsetsOf_singleton, if_neg (Ne.symm hq), h.untouched q hfree]
      rfl
  · intro hpending
    rw [show (s.actor.handOut p).offsetSnapshotState = _ from hstate] at hpending
    cases hpending
  · intro _
    exact h.snapshot hinit

end Offsets

/-! ## What the actor knows of the produce offsets -/

/-- A cached produce offset has reached the actor, unless it stands for a missing one. -/
structure Observed (s : Consumer α) : Prop where
  cache : ∀ p v, s.actor.produceCache.lookup p = some v →
    v = produceOffsetBegin ∨ (p, v) ∈ s.observed
  handedOut : ∀ m ∈ s.handedOut, ∃ v, (m.1, v) ∈ s.observed ∧ (m.2 : ℤ) ≤ v
  probed : ∀ pending probed, s.phase = .probing pending probed → ∀ p probe, (p, probe) ∈ probed →
    probe.produceOffset = produceOffsetBegin ∨ (p, probe.produceOffset) ∈ s.observed

namespace Observed

variable (h : Observed s)
include h

theorem frame (hcache : ∀ p v, s'.actor.produceCache.lookup p = some v →
      s.actor.produceCache.lookup p = some v ∨ (p, v) ∈ s'.observed)
    (hobserved : s.observed ⊆ s'.observed) (hhandedOut : s'.handedOut = s.handedOut)
    (hphase : ∀ pending probed, s'.phase ≠ .probing pending probed) : Observed s' := by
  constructor
  · intro p v hv
    rcases hcache p v hv with hold | hnew
    · exact (h.cache p v hold).imp_right fun hm => hobserved hm
    · exact .inr hnew
  · intro m hm
    rw [hhandedOut] at hm
    obtain ⟨v, hv, hle⟩ := h.handedOut m hm
    exact ⟨v, hobserved hv, hle⟩
  · intro pending probed hp
    exact absurd hp (hphase pending probed)

/-- Steps of the other threads. -/
theorem congr (hactor : s'.actor = s.actor) (hobserved : s'.observed = s.observed)
    (hhandedOut : s'.handedOut = s.handedOut) (hphase : s'.phase = s.phase) : Observed s' := by
  constructor
  · rw [hactor, hobserved]
    exact h.cache
  · rw [hhandedOut, hobserved]
    exact h.handedOut
  · rw [hphase, hobserved]
    exact h.probed

variable {probed : List (String × SingleProducerOffsets)} {pending : Finset String}

theorem probe {produceOffset : Option ℤ} {consumeOffset : Option ℕ}
    (hphase : s.phase = .probing pending probed) :
    Observed
      { s with
        phase := .probing (pending.erase p)
          (probed ++ [(p, s.actor.probeOffsets p produceOffset consumeOffset)])
        observed := s.observed ++ produceOffset.toList.map fun v => (p, v) } := by
  have hcached : s.actor.cachedProduceOffset p = produceOffsetBegin ∨
      (p, s.actor.cachedProduceOffset p) ∈ s.observed := by
    cases hv : s.actor.produceCache.lookup p with
    | none => exact .inl (by simp [cachedProduceOffset, hv])
    | some v =>
      have hcache := h.cache p v hv
      simpa [cachedProduceOffset, hv] using hcache
  constructor
  · intro p' v hv
    exact (h.cache p' v hv).imp_right fun hm => mem_append_left _ hm
  · intro m hm
    obtain ⟨v, hv, hle⟩ := h.handedOut m hm
    exact ⟨v, mem_append_left _ hv, hle⟩
  intro pending' probed' hp p' probe hmem
  cases hp
  rcases mem_append.1 hmem with hold | hnew
  · exact (h.probed pending probed hphase p' probe hold).imp_right fun hm => mem_append_left _ hm
  rw [mem_singleton] at hnew
  cases hnew
  -- the merged offset is the cached one or the one just read
  cases produceOffset with
  | none => exact hcached.imp_right fun hm => mem_append_left _ hm
  | some v =>
    simp only [probeOffsets, mergeMonotonicOffset]
    rcases max_choice v (s.actor.cachedProduceOffset p) with hmax | hmax
    · rw [hmax]
      exact .inr (by simp)
    · rw [hmax]
      exact hcached.imp_right fun hm => mem_append_left _ hm

theorem applyProbes {phase : ActorPhase} (hbefore : s.phase = .probing pending probed)
    (hphase : ∀ pending probed, phase ≠ .probing pending probed) :
    Observed { s with actor := s.actor.applyProbes probed, phase } := by
  refine ⟨?_, h.handedOut, fun _ _ hp => absurd hp (hphase _ _)⟩
  intro p v hv
  rcases lookup_applyProbes probed s.actor p with ⟨hsame, -⟩ | ⟨probe, hmem, hnew, -⟩
  · rw [hsame] at hv
    exact h.cache p v hv
  · rw [hnew] at hv
    cases hv
    exact h.probed pending probed hbefore p probe hmem

/-- An offset is handed out only if a produce offset at or above it has reached the actor. -/
theorem handOut (hroom : s.actor.HasRoom p) : Observed
      { s with
        actor := s.actor.handOut p
        phase := .selected p (s.actor.cachedNextHint p)
        handedOut := s.handedOut ++ [(p, s.actor.cachedNextHint p)] } := by
  refine ⟨?_, ?_, nofun⟩
  · intro p' v hv
    rw [show (s.actor.handOut p).produceCache = _ from produceCache_refresh _ _] at hv
    exact h.cache p' v hv
  intro m hm
  rcases mem_append.1 hm with hold | hnew
  · exact h.handedOut m hold
  rw [mem_singleton] at hnew
  subst hnew
  obtain ⟨v, hv, hle⟩ := hroom.lookup
  refine ⟨v, ?_, hle⟩
  rcases h.cache p v hv with hbegin | hmem
  · rw [hbegin, produceOffsetBegin] at hle
    omega
  · exact hmem

theorem actorEffect {e : ActorEvent} (he : ActorEffect s e s') : Observed s' := by
  cases he with
  | refuse => exact h
  | metaSet set =>
    refine h.frame (fun _ _ hv => ?_) (List.Subset.refl _) rfl nofun
    rw [(handleMetaMsg_offsets s.actor set).2.1] at hv
    exact .inl hv
  | produceOffset updates =>
    refine h.frame (fun _ _ hv => ?_) (subset_append_left _ _) rfl nofun
    exact (produceCache_handleProduceOffsetMsg hv).imp_right fun hm => mem_append_right _ hm
  | scanConsume t =>
    refine h.frame (fun p v hv => ?_) (subset_append_left _ _) rfl nofun
    refine (produceCache_mergeOffsets hv).imp_right fun hscan => ?_
    apply mem_append_right
    exact mem_map.2 ⟨⟨p, v⟩, Table.mem_entries_iff.2 hscan, rfl⟩
  | scanMeta t set =>
    refine h.frame (fun _ _ hv => ?_) (List.Subset.refl _) rfl nofun
    rw [(rebuildReadyStateFromCaches_offsets _).2.1] at hv
    exact .inl hv
  | beginProbe =>
    refine ⟨h.cache, h.handedOut, ?_⟩
    intro pending probed hp p probe hmem
    cases hp
    cases hmem
  | probe p produceOffset missing pending probed hphase => exact h.probe hphase
  | probeNoMessage _ hphase | probeDone _ hphase => exact h.applyProbes hphase nofun
  | pickNoMessage p =>
    refine h.frame (fun _ _ hv => ?_) (List.Subset.refl _) rfl nofun
    rw [produceCache_refresh] at hv
    exact .inl hv
  | pick p _ _ hroom => exact h.handOut hroom
  | _ => exact h.frame (fun _ _ hv => .inl hv) (List.Subset.refl _) rfl nofun

end Observed

/-! ## Dispatches and commits -/

/-- The producer and the offset of the message that a job fetches. -/
def message (job : Job α) : String × ℕ := (job.producerId, job.consumeOffset)

/-- The messages of the jobs, in the order of their sequence numbers. -/
def dispatched (s : Consumer α) : List (String × ℕ) := s.jobs.map message

/-- The message that the actor has selected and not dispatched. -/
def selection : ActorPhase → List (String × ℕ)
  | .selected p o | .admitting _ p o => [(p, o)]
  | _ => []

/-- What is dispatched is what was handed out, in the same order. -/
structure Dispatched (s : Consumer α) : Prop where
  mono : s.dispatched <+: s.handedOut
  eq : s.commitSeq.failure = none → s.handedOut = s.dispatched ++ selection s.phase

theorem JobEffect.dispatched_eq (hjob : s.jobs[i]? = some job) (he : JobEffect s i job e s') :
    s'.dispatched = s.dispatched := by
  have hset : ∀ (job' : Job α) (phase : JobPhase α), job'.producerId = job.producerId →
      job'.consumeOffset = job.consumeOffset →
      (s.setJob i job' phase).dispatched = s.dispatched := by
    intro job' phase hproducer hoffset
    apply ext_getElem?
    intro k
    rw [dispatched, dispatched, getElem?_map, getElem?_map, jobs_setJob hjob]
    by_cases hk : k = i
    · rw [if_pos hk, hk, hjob]
      simp [message, hproducer, hoffset]
    · rw [if_neg hk]
  cases he with
  | fetchRetryable => rfl
  | _ => exact hset _ _ rfl rfl

namespace Dispatched

theorem frame (h : Dispatched s) (hdispatched : s'.dispatched = s.dispatched)
    (hhandedOut : s'.handedOut = s.handedOut)
    (hphase : s'.commitSeq.failure = none → selection s'.phase = selection s.phase)
    (hfailure : s'.commitSeq.failure = none → s.commitSeq.failure = none) : Dispatched s' := by
  constructor
  · rw [hdispatched, hhandedOut]
    exact h.mono
  · intro hnone
    rw [hdispatched, hhandedOut, hphase hnone]
    exact h.eq (hfailure hnone)

theorem selection_of_takesInput (h : s.takesInput = true) : selection s.phase = [] := by
  rcases phase_of_takesInput h with hphase | hphase <;> rw [hphase] <;> rfl

theorem actorEffect {e : ActorEvent} (h : Dispatched s) (he : ActorEffect s e s') :
    Dispatched s' := by
  cases he with
  | setCallback hinput | metaSet _ hinput | produceOffset _ hinput | stop hinput =>
    exact h.frame rfl rfl (fun _ => (selection_of_takesInput hinput).symm) fun hf => hf
  | refuse => exact h
  | beginRefresh hphase | beginSelect hphase | scanProduce _ hphase | scanConsume _ hphase
  | scanMeta _ _ hphase | noMessage hphase | beginProbe hphase | beginPick hphase
  | probe _ _ _ _ _ hphase | probeNoMessage _ hphase | probeDone _ hphase
  | pickNoMessage _ hphase | reserve _ _ hphase | enqueue _ hphase =>
    exact h.frame rfl rfl (fun _ => by rw [hphase]; rfl) fun hf => hf
  | abandon _ habandons =>
    refine h.frame rfl rfl (fun hnone => ?_) fun hf => hf
    cases habandons with
    | refreshProduce _ hphase | refreshConsume _ _ hphase | refreshMeta _ _ hphase
    | probing _ _ hphase => rw [hphase]; rfl
    | selected _ _ _ hfailure | admitting _ _ _ _ hfailure =>
      rw [hnone] at hfailure
      cases hfailure
  | pick p hphase =>
    constructor
    · exact h.mono.trans (prefix_append _ _)
    intro hnone
    have heq := h.eq hnone
    rw [hphase] at heq
    change s.handedOut ++ _ = s.dispatched ++ _
    rw [heq]
    simp [selection]
  | admitted seq p o hphase hfailure =>
    have heq := h.eq hfailure
    rw [hphase] at heq
    have hnew : s.handedOut = (s.jobs ++ [Job.spawn seq p o]).map message := by
      rw [heq, map_append]
      rfl
    constructor
    · change (s.jobs ++ [Job.spawn seq p o]).map message <+: s.handedOut
      rw [hnew]
    · intro _
      change s.handedOut = (s.jobs ++ [Job.spawn seq p o]).map message ++ []
      rw [append_nil]
      exact hnew

end Dispatched

/-- The number of dispatches whose put took effect. -/
def commitCount (s : Consumer α) : ℕ :=
  if s.commitSeq.nextSeq ∈ s.commits then s.commitSeq.nextSeq + 1 else s.commitSeq.nextSeq

/-- The committed dispatches. -/
def committed (s : Consumer α) : List (String × ℕ) := s.dispatched.take s.commitCount

theorem committed_mono : s.committed <+: s.dispatched := take_prefix s.commitCount s.dispatched

theorem Sequenced.mem_commits_iff (h : Sequenced s) : i ∈ s.commits ↔ i < s.commitCount := by
  unfold commitCount
  constructor
  · intro hi
    have hle := h.le_next i hi
    split
    · omega
    · next hnext =>
      have hne : i ≠ s.commitSeq.nextSeq := fun heq => hnext (heq ▸ hi)
      omega
  · intro hi
    split at hi
    · next hnext =>
      rcases Nat.lt_succ_iff_lt_or_eq.1 hi with hlt | heq
      · exact h.committed i hlt
      · exact heq ▸ hnext
    · exact h.committed i hi

theorem Sequenced.commitCount_le (h : Sequenced s) : s.commitCount ≤ s.jobs.length := by
  unfold commitCount
  split
  · next hnext => exact h.started _ hnext
  · exact h.next_le

/-- The consume offset of a producer in etcd is one past its last committed dispatch. -/
structure Durable (d : Table String ℕ) (s : Consumer α) : Prop where
  untouched : s.commits = [] → s.consumeOffsets = d
  lookup : ∀ p, s.consumeOffsets.lookup p =
    if offsetsOf s.committed p = [] then d.lookup p
    else some (startOffset d p + (offsetsOf s.committed p).length)

theorem Durable.congr (h : Durable d s) (hcommits : s'.commits = s.commits)
    (hoffsets : s'.consumeOffsets = s.consumeOffsets) (hcommitted : s'.committed = s.committed) :
    Durable d s' := by
  constructor
  · rw [hcommits, hoffsets]
    exact h.untouched
  · rw [hoffsets, hcommitted]
    exact h.lookup

/-- The committed dispatches are counted by the sequencer and the commits. -/
theorem committed_congr (hdispatched : s'.dispatched = s.dispatched)
    (hnext : s'.commitSeq.nextSeq = s.commitSeq.nextSeq) (hcommits : s'.commits = s.commits) :
    s'.committed = s.committed := by
  simp only [committed, commitCount, hdispatched, hnext, hcommits]

/-- In a state with consecutive dispatches, the message of the job whose turn it is comes right
after those before it. -/
theorem offset_eq_of_consecutive (hconsecutive : Consecutive d s.dispatched)
    (hjob : s.jobs[i]? = some job) :
    s.dispatched.take (i + 1) = s.dispatched.take i ++ [(job.producerId, job.consumeOffset)] ∧
      job.consumeOffset = startOffset d job.producerId +
          (offsetsOf (s.dispatched.take i) job.producerId).length := by
  have hget : s.dispatched[i]? = some (job.producerId, job.consumeOffset) := by
    rw [dispatched, getElem?_map, hjob]
    rfl
  have htake : s.dispatched.take (i + 1) =
      s.dispatched.take i ++ [(job.producerId, job.consumeOffset)] := by
    rw [take_add_one, hget]
    rfl
  refine ⟨htake, ?_⟩
  have hsome : s.dispatched.take (i + 1) <+: s.dispatched := take_prefix _ _
  have hmono := hconsecutive.mono hsome job.producerId
  rw [htake, offsetsOf_append, offsetsOf_singleton, if_pos rfl, length_append,
    length_singleton, range'_1_concat] at hmono
  exact singleton_inj.1 (append_inj_right' hmono rfl)

variable {fetched : FetchedPayload α}

/-- A job in its commit is the one whose turn it is, with the payload it was dispatched for. -/
theorem Sequenced.of_commit (h : Sequenced s) (hjob : s.jobs[i]? = some job)
    (hphase : job.phase = .commit fetched false) :
    i = s.commitSeq.nextSeq ∧ fetched.producerId = job.producerId ∧
      fetched.consumeOffset = job.consumeOffset := by
  have hcoherent := h.coherent i job hjob
  have hplace := h.place i job hjob
  rw [hphase] at hplace
  exact ⟨hplace.1, hcoherent.producer fetched (by rw [hphase]; rfl),
    hcoherent.offset fetched (by rw [hphase]; rfl)⟩

section

variable (h : Durable d s) (hsequenced : Sequenced s) (hconsecutive : Consecutive d s.dispatched)
  (hjob : s.jobs[i]? = some job)
include h hsequenced hconsecutive hjob

/-- The put of the job whose turn it is takes effect. -/
theorem Durable.putEffect (hphase : job.phase = .commit fetched false) :
    Durable d (s.putApplied i job fetched) := by
  obtain ⟨hturn, hproducer, hoffset⟩ := hsequenced.of_commit hjob hphase
  obtain ⟨htake, hnext⟩ := offset_eq_of_consecutive hconsecutive hjob
  have hdispatched : (s.putApplied i job fetched).dispatched = s.dispatched :=
    (JobEffect.putEffect fetched hphase).dispatched_eq hjob
  constructor
  · intro hnil
    simp [putApplied] at hnil
  intro p
  have hcommitted : committed (s.putApplied i job fetched) =
      s.dispatched.take i ++ [(job.producerId, job.consumeOffset)] := by
    rw [committed, hdispatched, ← htake]
    congr 1
    have hmem : s.commitSeq.nextSeq ∈ s.commits ++ [job.seq] := by
      rw [(hsequenced.coherent i job hjob).seq, hturn]
      simp
    exact (if_pos hmem).trans (congrArg (· + 1) hturn.symm)
  rw [hcommitted, offsetsOf_append, offsetsOf_singleton]
  unfold putApplied
  rw [Table.lookup_insert_eq, hproducer, hoffset]
  by_cases hp : p = job.producerId
  · subst hp
    rw [if_pos rfl, if_pos rfl, if_neg (by simp), length_append, length_singleton,
      hnext, Nat.add_assoc]
  rw [if_neg hp, if_neg (Ne.symm hp), append_nil]
  -- the earlier commits of other producers are the same, whether or not this is a retry
  have hsame : offsetsOf s.committed p = offsetsOf (s.dispatched.take i) p := by
    unfold committed commitCount
    split
    · rw [← hturn, htake, offsetsOf_append, offsetsOf_singleton, if_neg (Ne.symm hp), append_nil]
    · rw [← hturn]
  rw [← hsame]
  exact h.lookup p

theorem Durable.jobEffect (he : JobEffect s i job e s') : Durable d s' := by
  have hdispatched := he.dispatched_eq hjob
  cases he with
  | putEffect fetched hphase => exact h.putEffect hsequenced hconsecutive hjob hphase
  | advance fetched hphase =>
    refine h.congr rfl rfl ?_
    have hcoherent := hsequenced.coherent i job hjob
    have hplace := hsequenced.place i job hjob
    rw [hphase] at hplace
    obtain ⟨hturn, hmem⟩ := hplace
    have hseq : job.seq = s.commitSeq.nextSeq := hcoherent.seq.trans hturn
    -- the turn goes on and the count stays: the job had been counted
    have hbefore : s.commitCount = s.commitSeq.nextSeq + 1 := if_pos (hturn ▸ hmem)
    have hnot : job.seq + 1 ∉ s.commits := fun hmem' => by
      have := hsequenced.le_next _ hmem'
      omega
    rw [committed, committed, hdispatched, hbefore]
    congr 1
    exact (if_neg hnot).trans (by rw [hseq])
  | fetchRetryable => exact h
  | _ => exact h.congr rfl rfl (committed_congr hdispatched rfl rfl)

end

theorem Durable.admitted (h : Durable d s) (hsequenced : Sequenced s) {seq o : ℕ} : Durable d
      { s with
        commitSeq :=
          { s.commitSeq with
            progress := Function.update s.commitSeq.progress seq (some ⟨false⟩) }
        jobs := s.jobs ++ [.spawn seq p o]
        inflightQueueSize := s.inflightQueueSize + 1
        phase := .enqueueing ⟨seq, p, o⟩ } := by
  refine h.congr rfl rfl ?_
  change ((s.jobs ++ [Job.spawn seq p o]).map message).take s.commitCount = s.committed
  rw [map_append, take_append_of_le_length, committed, dispatched]
  rw [length_map]
  exact hsequenced.commitCount_le

/-! ## Every run -/

/-- What holds in every state of a consumer that started from the consume offsets `d`. -/
structure Dispatching (d : Table String ℕ) (s : Consumer α) : Prop where
  inOrder : InOrder s
  offsets : Offsets d s
  observed : Observed s
  dispatched : Dispatched s
  durable : Durable d s

namespace Dispatching

section

variable (h : Dispatching d s)
include h

/-- Nothing of a producer is committed before something of it is handed out. -/
theorem lookup_of_untouched (hfree : s.actor.prefetchOffsetMap.lookup p = none) :
    s.consumeOffsets.lookup p = d.lookup p := by
  have hempty : offsetsOf s.committed p = [] := by
    have hmono := offsetsOf_mono (committed_mono.trans h.dispatched.mono) p
    rw [h.offsets.untouched p hfree] at hmono
    exact prefix_nil.1 hmono
  rw [h.durable.lookup p, if_pos hempty]

/-- Nothing is committed before the first snapshot. -/
theorem consumeOffsets_of_pending
    (hpending : s.actor.offsetSnapshotState = .pending) : s.consumeOffsets = d := by
  apply h.durable.untouched
  have hnone : s.dispatched = [] := by
    have hmono := h.dispatched.mono
    rw [(h.offsets.pending hpending).handedOut] at hmono
    exact prefix_nil.1 hmono
  have hjobs : s.jobs = [] := map_eq_nil_iff.1 hnone
  apply eq_nil_iff_forall_not_mem.2
  intro i hi
  have hlt := h.inOrder.sequenced.started i hi
  rw [hjobs] at hlt
  exact Nat.not_lt_zero i hlt

theorem offsets_actorEffect {e : ActorEvent} (he : ActorEffect s e s') : Offsets d s' := by
  have hoffsets := h.offsets
  cases he with
  | setCallback | reserve | admitted | enqueue => exact hoffsets.frame rfl rfl rfl rfl rfl trivial
  | metaSet set =>
    obtain ⟨hprefetch, -, hconsume, hstate⟩ := handleMetaMsg_offsets s.actor set
    exact hoffsets.frame hprefetch hconsume hstate rfl rfl trivial
  | produceOffset updates =>
    obtain ⟨hprefetch, hconsume, hstate⟩ := handleProduceOffsetMsg_offsets updates s.actor
    exact hoffsets.frame hprefetch hconsume hstate rfl rfl trivial
  | stop => exact hoffsets.toPhase trivial
  | refuse => exact hoffsets
  | beginRefresh _ _ _ hpending | beginSelect _ _ _ hpending => exact hoffsets.toPhase hpending
  | abandon => exact hoffsets.toPhase trivial
  | scanProduce t hphase =>
    have hpending := hoffsets.phase
    rw [hphase] at hpending
    exact hoffsets.toPhase hpending
  | scanConsume t hphase =>
    have hpending := hoffsets.phase
    rw [hphase] at hpending
    exact hoffsets.scanConsume hphase (h.consumeOffsets_of_pending hpending)
  | scanMeta t set hphase => exact hoffsets.scanMeta hphase
  | noMessage => exact hoffsets.toPhase trivial
  | beginProbe hphase =>
    have hinit := hoffsets.phase
    rw [hphase] at hinit
    exact hoffsets.toPhase ⟨hinit, nofun⟩
  | beginPick hphase =>
    have hinit := hoffsets.phase
    rw [hphase] at hinit
    exact hoffsets.toPhase hinit
  | probe p produceOffset missing pending probed hphase =>
    exact hoffsets.probe hphase h.lookup_of_untouched
  | probeNoMessage probed hphase => exact hoffsets.applyProbes hphase trivial
  | probeDone probed hphase =>
    have hprobing := hoffsets.phase
    rw [hphase] at hprobing
    refine hoffsets.applyProbes hphase ?_
    exact (applyProbes_offsets probed s.actor).2.trans hprobing.1
  | pickNoMessage p =>
    exact hoffsets.frame (prefetchOffsetMap_refresh _ _)
      (consumeCache_refresh _ _) (offsetSnapshotState_refresh _ _)
      rfl rfl trivial
  | pick p hphase => exact hoffsets.handOut hphase

theorem actorEffect {e : ActorEvent} (he : ActorEffect s e s') : Dispatching d s' := by
  refine ⟨h.inOrder.actorEffect he, h.offsets_actorEffect he, h.observed.actorEffect he,
    h.dispatched.actorEffect he, ?_⟩
  cases he with
  | admitted => exact h.durable.admitted h.inOrder.sequenced
  | refuse => exact h.durable
  | _ => exact h.durable.congr rfl rfl rfl

theorem consecutive_dispatched : Consecutive d s.dispatched :=
  h.offsets.consecutive.mono h.dispatched.mono

theorem jobEffect (hjob : s.jobs[i]? = some job)
    (he : JobEffect s i job e s') : Dispatching d s' := by
  have hframe := he.frame hjob
  refine ⟨h.inOrder.jobEffect hjob he, ?_, ?_, ?_, ?_⟩
  · exact h.offsets.congr hframe.actor hframe.handedOut hframe.snapshot hframe.phase
  · exact h.observed.congr hframe.actor hframe.observed hframe.handedOut hframe.phase
  · exact h.dispatched.frame (he.dispatched_eq hjob) hframe.handedOut
      (fun _ => by rw [hframe.phase]) hframe.failure
  · exact h.durable.jobEffect h.inOrder.sequenced h.consecutive_dispatched hjob he

theorem callerEffect {e : CallerEvent} (he : CallerEffect s e s') : Dispatching d s' := by
  have hframe := he.frame
  have hdispatched : s'.dispatched = s.dispatched := by rw [Consumer.dispatched, hframe.jobs]; rfl
  refine ⟨h.inOrder.callerEffect he, ?_, ?_, ?_, ?_⟩
  · exact h.offsets.congr hframe.actor hframe.handedOut hframe.snapshot hframe.phase
  · exact h.observed.congr hframe.actor hframe.observed hframe.handedOut hframe.phase
  · exact h.dispatched.frame hdispatched hframe.handedOut (fun _ => by rw [hframe.phase])
      fun hf => by rw [← hframe.failure, hf]
  · exact h.durable.congr hframe.commits hframe.consumeOffsets
      (committed_congr hdispatched hframe.nextSeq hframe.commits)

theorem step {e : ConsumerEvent α} (hstep : Step s e s') : Dispatching d s' := by
  cases h.inOrder.effect hstep with
  | actor he => exact h.actorEffect he
  | job hjob he => exact h.jobEffect hjob he
  | caller he => exact h.callerEffect he
  | shutdown =>
    exact ⟨h.inOrder.step hstep, h.offsets.frame rfl rfl rfl rfl rfl h.offsets.phase,
      h.observed.congr rfl rfl rfl rfl, h.dispatched.frame rfl rfl (fun _ => rfl) fun hf => hf,
      h.durable.congr rfl rfl rfl⟩

end

theorem init (d : Table String ℕ) (deleteCb : Bool) :
    Dispatching d (Consumer.init d deleteCb : Consumer α) := by
  refine ⟨.init d deleteCb, ⟨fun _ => rfl, nofun, fun _ _ => rfl, fun _ => ?_, nofun, trivial⟩,
    ⟨nofun, nofun, nofun⟩, ⟨prefix_refl _, fun _ => rfl⟩, ⟨fun _ => rfl, fun _ => rfl⟩⟩
  exact ⟨rfl, rfl, fun _ => rfl, nofun⟩

end Dispatching

variable {es : List (ConsumerEvent α)}

theorem dispatching_of_run {deleteCb : Bool}
    (h : Run Step (Consumer.init d deleteCb) es s) : Dispatching d s :=
  h.invariant (fun _ _ _ hs hstep => hs.step hstep) (.init d deleteCb)

/-! ## What a run keeps -/

/-- `s'` is later in a run than `s`. -/
structure Later (s s' : Consumer α) : Prop where
  offsets : ∀ p, startOffset s.consumeOffsets p ≤ startOffset s'.consumeOffsets p
  failed : ∀ (i : ℕ) (job : Job α), s.jobs[i]? = some job → job.payloadFailed = true →
    ∃ job' : Job α, s'.jobs[i]? = some job' ∧ job'.payloadFailed = true
  stopped : s.commitSeq.failure.isSome = true →
    s'.commitSeq.failure.isSome = true ∧ s'.jobs.length = s.jobs.length

namespace Later

theorem refl (s : Consumer α) : Later s s :=
  ⟨fun _ => le_refl _, fun _ job hjob hfailed => ⟨job, hjob, hfailed⟩, fun h => ⟨h, rfl⟩⟩

theorem trans {s'' : Consumer α} (h : Later s s') (h' : Later s' s'') : Later s s'' := by
  refine ⟨fun p => le_trans (h.offsets p) (h'.offsets p), ?_, ?_⟩
  · intro i job hjob hfailed
    obtain ⟨job', hjob', hfailed'⟩ := h.failed i job hjob hfailed
    exact h'.failed i job' hjob' hfailed'
  · intro hs
    obtain ⟨hs', hlength⟩ := h.stopped hs
    obtain ⟨hs'', hlength'⟩ := h'.stopped hs'
    exact ⟨hs'', hlength'.trans hlength⟩

/-- Steps that leave the jobs, the failure and the consume offsets alone. -/
theorem of_frame (hjobs : s'.jobs = s.jobs) (hfailure : s'.commitSeq.failure = s.commitSeq.failure)
    (hoffsets : s'.consumeOffsets = s.consumeOffsets) : Later s s' := by
  refine ⟨fun p => by rw [hoffsets], ?_, ?_⟩
  · rw [hjobs]
    exact fun _ job hjob hfailed => ⟨job, hjob, hfailed⟩
  · rw [hjobs, hfailure]
    exact fun h => ⟨h, rfl⟩

theorem actorEffect {e : ActorEvent} (he : ActorEffect s e s') : Later s s' := by
  cases he with
  | admitted seq p o _ hfailure =>
    refine ⟨fun _ => le_refl _, ?_, ?_⟩
    · intro i job hjob hfailed
      obtain ⟨hlt, -⟩ := List.getElem?_eq_some_iff.1 hjob
      exact ⟨job, by rw [← hjob]; exact List.getElem?_append_left hlt, hfailed⟩
    · intro hsome
      rw [hfailure] at hsome
      cases hsome
  | refuse => exact refl s
  | _ => exact of_frame rfl rfl rfl

/-- A job moves on and keeps the record of its payload fetch. -/
theorem setJob {phase : JobPhase α} {job' : Job α} (hjob : s.jobs[i]? = some job)
    (hfailed : job.payloadFailed = true → job'.payloadFailed = true) :
    Later s (s.setJob i job' phase) := by
  refine ⟨fun _ => le_refl _, ?_, fun h => ⟨h, length_setJob phase⟩⟩
  intro k job₀ hk hbefore
  rw [jobs_setJob hjob]
  by_cases hki : k = i
  · rw [if_pos hki]
    rw [hki, hjob] at hk
    cases hk
    exact ⟨_, rfl, hfailed hbefore⟩
  · rw [if_neg hki]
    exact ⟨job₀, hk, hbefore⟩

/-- A put that takes effect does not lower the consume offset. -/
theorem putEffect (h : Dispatching d s) (hjob : s.jobs[i]? = some job)
    (hphase : job.phase = .commit fetched false) :
    Later s (s.putApplied i job fetched) := by
  have hmove : Later s (s.setJob i job (.commit fetched true)) := setJob hjob fun hf => hf
  refine ⟨?_, hmove.failed, hmove.stopped⟩
  intro p
  obtain ⟨hturn, hproducer, hoffset⟩ := h.inOrder.sequenced.of_commit hjob hphase
  obtain ⟨htake, hnext⟩ := offset_eq_of_consecutive h.consecutive_dispatched hjob
  unfold startOffset putApplied
  rw [Table.lookup_insert_eq, hproducer, hoffset]
  by_cases hp : p = job.producerId
  · subst hp
    -- at most this very dispatch has been committed before
    have hlength : (offsetsOf s.committed job.producerId).length ≤
        (offsetsOf (s.dispatched.take i) job.producerId).length + 1 := by
      unfold committed commitCount
      split
      · rw [← hturn, htake, offsetsOf_append, offsetsOf_singleton, if_pos rfl,
          length_append, length_singleton]
      · rw [← hturn]
        exact Nat.le_succ _
    rw [if_pos rfl, h.durable.lookup, Option.getD_some, hnext]
    split
    · unfold startOffset
      omega
    · rw [Option.getD_some]
      omega
  · rw [if_neg hp]

theorem jobEffect (h : Dispatching d s) (hjob : s.jobs[i]? = some job)
    (he : JobEffect s i job e s') : Later s s' := by
  cases he with
  | putEffect fetched hphase => exact putEffect h hjob hphase
  | fetchRetryable => exact refl s
  | fetchFailed => exact setJob hjob fun _ => rfl
  | advance fetched =>
    have hmove : Later s (s.setJob i job (.finished (.ok fetched))) := setJob hjob fun hf => hf
    exact ⟨hmove.offsets, hmove.failed, hmove.stopped⟩
  | fail error =>
    have hmove : Later s (s.setJob i job (.finished (.error error))) := setJob hjob fun hf => hf
    refine ⟨hmove.offsets, hmove.failed, fun hsome => ⟨?_, (hmove.stopped hsome).2⟩⟩
    obtain ⟨failure, hfailure⟩ := Option.isSome_iff_exists.1 hsome
    simp [hfailure]
  | _ => exact setJob hjob fun hf => hf

theorem of_step {e : ConsumerEvent α} (h : Dispatching d s) (hstep : Step s e s') : Later s s' := by
  cases h.inOrder.effect hstep with
  | actor he => exact actorEffect he
  | job hjob he => exact jobEffect h hjob he
  | caller he => exact of_frame he.frame.jobs he.frame.failure he.frame.consumeOffsets
  | shutdown => exact of_frame rfl rfl rfl

theorem of_run (h : Dispatching d s) (hrun : Run Step s es s') : Dispatching d s' ∧ Later s s' :=
  hrun.invariant (I := fun t => Dispatching d t ∧ Later s t)
    (fun _ _ _ ht hstep => ⟨ht.1.step hstep, ht.2.trans (of_step ht.1 hstep)⟩) ⟨h, refl s⟩

end Later

/-- A job whose payload fetch has failed is not committed, nor is any job after it. -/
theorem Sequenced.not_committed_of_payloadFailed (h : Sequenced s) (hjob : s.jobs[i]? = some job)
    (hfailed : job.payloadFailed = true) {k : ℕ} (hk : i ≤ k) : k ∉ s.commits := by
  obtain ⟨hphase, hnot⟩ := (h.coherent i job hjob).failed hfailed
  have hplace := h.place i job hjob
  have hle : s.commitSeq.nextSeq ≤ i := by
    generalize job.phase = phase at hphase hplace
    cases phase with
    | failed => exact hplace
    | finished result =>
      cases result with
      | error => exact hplace
      | ok => cases hphase
    | _ => cases hphase
  intro hmem
  have hnext := h.le_next k hmem
  have hki : k = i := by omega
  exact hnot (hki ▸ hmem)

/-- **Gap-free dispatch and prefix commit.** In every run of a consumer, the offsets handed out for
a producer are consecutive from the consume offset of the first snapshot, no message is handed out
twice, and each is at most some produce offset that has reached the actor. The dispatches are
handed-out messages in order, commits go in the order of the sequence numbers, the committed
dispatches are a prefix, and the consume offsets in etcd are those after them. From then on no
consume offset goes down, a job whose payload fetch has failed and those after it are never
committed, and no job starts once a failure is recorded. -/
theorem dispatch_gap_free_and_commit_prefix {deleteCb : Bool} {es : List (ConsumerEvent α)}
    (h : Run Step (Consumer.init d deleteCb) es s) :
    (s.snapshot = none → s.handedOut = []) ∧
    (∀ t, s.snapshot = some t → ∀ p, offsetsOf s.handedOut p =
      range' (startOffset t p) (offsetsOf s.handedOut p).length) ∧
    s.handedOut.Nodup ∧
    (∀ m ∈ s.handedOut, ∃ v, (m.1, v) ∈ s.observed ∧ (m.2 : ℤ) ≤ v) ∧
    s.dispatched <+: s.handedOut ∧
    s.commits.Pairwise (· ≤ ·) ∧
    (∃ n ≤ s.dispatched.length, ∀ i, i ∈ s.commits ↔ i < n) ∧
    Durable d s ∧
    ∀ es' s', Run Step s es' s' →
      (∀ p, startOffset s.consumeOffsets p ≤ startOffset s'.consumeOffsets p) ∧
      (∀ (i : ℕ) (job : Job α), s.jobs[i]? = some job → job.payloadFailed = true →
        ∀ k, i ≤ k → k ∉ s'.commits) ∧
      (s.commitSeq.failure.isSome = true → s'.jobs.length = s.jobs.length) := by
  have hs := dispatching_of_run h
  have hsequenced := hs.inOrder.sequenced
  refine ⟨?_, ?_, hs.offsets.consecutive.nodup, hs.observed.handedOut, hs.dispatched.mono,
    hsequenced.sorted, ⟨s.commitCount, ?_, fun _ => hsequenced.mem_commits_iff⟩,
    hs.durable, ?_⟩
  · intro hnone
    cases hstate : s.actor.offsetSnapshotState with
    | pending => exact (hs.offsets.pending hstate).handedOut
    | initialized =>
      rw [hs.offsets.snapshot hstate] at hnone
      cases hnone
  · intro t ht
    cases hstate : s.actor.offsetSnapshotState with
    | pending =>
      rw [(hs.offsets.pending hstate).snapshot] at ht
      cases ht
    | initialized =>
      rw [hs.offsets.snapshot hstate] at ht
      cases ht
      exact hs.offsets.consecutive
  · rw [dispatched, length_map]
    exact hsequenced.commitCount_le
  · intro es' s' hrun
    obtain ⟨hs', hlater⟩ := Later.of_run hs hrun
    refine ⟨hlater.offsets, ?_, fun hfailure => (hlater.stopped hfailure).2⟩
    intro i job hjob hfailed k hk
    obtain ⟨job', hjob', hfailed'⟩ := hlater.failed i job hjob hfailed
    exact hs'.inOrder.sequenced.not_committed_of_payloadFailed hjob' hfailed' hk

/-- The first message of a producer is fetched, and its consume offset committed. -/
def firstMessage : List (ConsumerEvent String) :=
  [.caller (.call 1), .actor .setCallback, .actor (.produceOffset [("p", 0)]),
    .actor .tryPrefetchOne, .actor (.refreshProduce (.ok ∅)), .actor (.refreshConsume none),
    .actor (.refreshMeta (.ok ["p"])), .actor .select, .actor (.pick "p"), .actor .ensureRunning,
    .actor .beginPayload, .actor .enqueue, .job 0 .start, .job 0 (.fetch (.ok "m")),
    .job 0 .waitTurn, .job 0 .putEffect, .job 0 .putOk, .job 0 .advance]

/-- The messages of two producers are fetched, the second one first, and committed in order. -/
def twoMessages : List (ConsumerEvent String) :=
  let dispatch (p : String) : List (ConsumerEvent String) :=
    [.actor .select, .actor (.pick p), .actor .ensureRunning, .actor .beginPayload, .actor .enqueue]
  let fetch (i : ℕ) : List (ConsumerEvent String) := [.job i .start, .job i (.fetch (.ok "m"))]
  let commit (i : ℕ) : List (ConsumerEvent String) :=
    [.job i .waitTurn, .job i .putEffect, .job i .putOk, .job i .advance]
  [.caller (.call 2), .actor .setCallback, .actor (.produceOffset [("p", 0), ("q", 0)]),
    .actor .tryPrefetchOne, .actor (.refreshProduce (.ok ∅)), .actor (.refreshConsume none),
    .actor (.refreshMeta (.ok ["p", "q"]))] ++ dispatch "p" ++ [.actor .tryPrefetchOne] ++
    dispatch "q" ++ fetch 1 ++ fetch 0 ++ commit 0 ++ commit 1

theorem dispatch_gap_free_and_commit_prefix_twoMessages :
    ∃ s : Consumer String, Run Step (Consumer.init ∅ false) twoMessages s ∧
      s.handedOut = [("p", 0), ("q", 0)] ∧ s.commits = [0, 1] ∧ s.handedOut.Nodup ∧
      Durable ∅ s := by
  obtain ⟨s, hrun, hhanded, hcommits⟩ := Run.exists_of_foldlM Consumer.step
    (Consumer.init ∅ false) twoMessages
    (fun s => s.handedOut = [("p", 0), ("q", 0)] ∧ s.commits = [0, 1]) (by decide +kernel)
  obtain ⟨-, -, hnodup, -, -, -, -, hdurable, -⟩ := dispatch_gap_free_and_commit_prefix hrun
  exact ⟨s, hrun, hhanded, hcommits, hnodup, hdurable⟩

end Fluxon.Mq.Consumer
