import Fluxon.Foundations.Table
import Mathlib.Data.Finset.Insert
import Mathlib.Data.Finset.Erase
import Mathlib.Data.Int.Order.Basic
import Mathlib.Order.Lattice

/-!
# The offset caches of the consumer actor

What `ConsumerActor` knows of the offsets of its producers: the produce and consume offsets it has
read, and for each producer it has prefetched from the next offset to hand out. A consume offset is
a natural number, since it starts at `CONSUME_OFFSET_BEGIN` and only grows. A produce offset that
is not known is `PRODUCE_OFFSET_BEGIN`, which is below every message.

The set of ready producers is kept next to the caches. It is exact (`ReadyExact`) when it holds the
producers with a message that has not been handed out. Every handler refreshes the producers whose
offsets it has written, so it keeps the set exact.
-/

namespace Fluxon.Mq

def produceOffsetBegin : ℤ := -1

def consumeOffsetBegin : ℕ := 0

/-- `merge_monotonic_offset`. -/
def mergeMonotonicOffset {β : Type} [LinearOrder β] (cached : β) : Option β → β
  | some value => max value cached
  | none => cached

/-- `merge_offset_cache_monotonic`. -/
def mergeOffsetCacheMonotonic {β : Type} [LinearOrder β] (current fetched : Table String β) :
    Table String β :=
  if current.entries = [] then fetched else current.mergeWith max fetched

theorem lookup_mergeOffsetCacheMonotonic {β : Type} [LinearOrder β]
    (current fetched : Table String β) (p : String) :
    (mergeOffsetCacheMonotonic current fetched).lookup p =
      match fetched.lookup p with
      | some w => some ((current.lookup p).elim w (max · w))
      | none => current.lookup p := by
  unfold mergeOffsetCacheMonotonic
  split
  · next hempty =>
    have hcurrent : current.lookup p = none := by
      rw [AList.lookup, hempty]
      rfl
    rw [hcurrent]
    cases fetched.lookup p <;> rfl
  · exact Table.lookup_mergeWith max current fetched p

inductive OffsetSnapshotState
  | pending
  | initialized
  deriving DecidableEq

structure SingleProducerOffsets where
  produceOffset : ℤ
  consumeOffset : ℕ
  deriving DecidableEq

structure ConsumerActor where
  prefetchOffsetMap : Table String ℕ := ∅
  produceCache : Table String ℤ := ∅
  consumeCache : Table String ℕ := ∅
  offsetSnapshotState : OffsetSnapshotState := .pending
  producerMetaCache : List String := []
  readyProducers : Finset String := ∅
  staleNoRoomProducers : Finset String := ∅

namespace ConsumerActor

section

variable (a : ConsumerActor)

section

variable (p : String)

/-- `cached_consume_offset`. -/
def cachedConsumeOffset : ℕ :=
  (a.consumeCache.lookup p).getD consumeOffsetBegin

/-- `cached_next_hint`. -/
def cachedNextHint : ℕ :=
  (a.prefetchOffsetMap.lookup p).getD (a.cachedConsumeOffset p)

/-- `cached_produce_offset`. -/
def cachedProduceOffset : ℤ :=
  (a.produceCache.lookup p).getD produceOffsetBegin

/-- `has_local_producer_state`. -/
def hasLocalProducerState : Bool :=
  (a.produceCache.lookup p).isSome || (a.consumeCache.lookup p).isSome ||
    (a.prefetchOffsetMap.lookup p).isSome

/-- `refresh_ready_state_from_local`; what it returns serves the selector alone. -/
def refreshReadyStateFromLocal : ConsumerActor :=
  if a.hasLocalProducerState p = false then
    { a with
      readyProducers := a.readyProducers.erase p
      staleNoRoomProducers := a.staleNoRoomProducers.erase p }
  else if (a.cachedNextHint p : ℤ) ≤ a.cachedProduceOffset p then
    { a with
      readyProducers := insert p a.readyProducers
      staleNoRoomProducers := a.staleNoRoomProducers.erase p }
  else
    { a with
      readyProducers := a.readyProducers.erase p
      staleNoRoomProducers :=
        if p ∈ a.producerMetaCache then a.staleNoRoomProducers.erase p
        else insert p a.staleNoRoomProducers }

end

/-- `rebuild_ready_state_from_caches`. -/
def rebuildReadyStateFromCaches : ConsumerActor :=
  (a.produceCache.keys ++ a.consumeCache.keys ++ a.prefetchOffsetMap.keys ++
      a.producerMetaCache).foldl refreshReadyStateFromLocal
    { a with readyProducers := ∅, staleNoRoomProducers := ∅ }

/-- `handle_meta_msg`. -/
def handleMetaMsg (set : List String) : ConsumerActor :=
  (a.producerMetaCache ++ set).foldl refreshReadyStateFromLocal
    { a with producerMetaCache := set }

/-- One update of `handle_produce_offset_msg`. -/
def handleProduceOffset (update : String × ℤ) : ConsumerActor :=
  refreshReadyStateFromLocal
    { a with produceCache := a.produceCache.upsert update.1 (max · update.2) update.2 } update.1

/-- `handle_produce_offset_msg`. -/
def handleProduceOffsetMsg (updates : List (String × ℤ)) : ConsumerActor :=
  updates.foldl handleProduceOffset a

/-- What `refresh_offsets_from_etcd` does with the two offset scans. -/
def mergeOffsets (produceOffsets : Table String ℤ)
    (consumeOffsets : Table String ℕ) : ConsumerActor :=
  { a with
    produceCache := mergeOffsetCacheMonotonic a.produceCache produceOffsets
    consumeCache := mergeOffsetCacheMonotonic a.consumeCache consumeOffsets }

/-- What `probe_single_producer_offsets_with_cache` makes of the two offsets it has read. -/
def probeOffsets (p : String) (produce : Option ℤ) (consume : Option ℕ) :
    SingleProducerOffsets where
  produceOffset := mergeMonotonicOffset (a.cachedProduceOffset p) produce
  consumeOffset := mergeMonotonicOffset (a.cachedConsumeOffset p) consume

def applyProbe (probed : String × SingleProducerOffsets) : ConsumerActor :=
  refreshReadyStateFromLocal
    { a with
      produceCache := AList.insert probed.1 probed.2.produceOffset a.produceCache
      consumeCache := AList.insert probed.1 probed.2.consumeOffset a.consumeCache } probed.1

/-- The last part of `probe_stale_no_room_producers_timed`. -/
def applyProbes (probed : List (String × SingleProducerOffsets)) :
    ConsumerActor :=
  probed.foldl applyProbe a

/-- The actor after the next offset of a producer has been handed out. -/
def handOut (p : String) : ConsumerActor := refreshReadyStateFromLocal
    { a with
      prefetchOffsetMap := AList.insert p (a.cachedNextHint p + 1) a.prefetchOffsetMap } p

/-- The last part of `select_next_message_from_cache`, for the producer the selector has picked:
the offset handed out, if there is one. -/
def takeNext (p : String) : Option ℕ × ConsumerActor :=
  if a.cachedProduceOffset p < a.cachedNextHint p then (none, a.refreshReadyStateFromLocal p)
  else (some (a.cachedNextHint p), a.handOut p)

end

/-! ## Refreshing changes the two sets only -/

section Refresh

variable (a : ConsumerActor) (p : String)

@[simp] theorem prefetchOffsetMap_refresh :
    (a.refreshReadyStateFromLocal p).prefetchOffsetMap = a.prefetchOffsetMap := by
  unfold refreshReadyStateFromLocal
  split_ifs <;> rfl

@[simp] theorem produceCache_refresh :
    (a.refreshReadyStateFromLocal p).produceCache = a.produceCache := by
  unfold refreshReadyStateFromLocal
  split_ifs <;> rfl

@[simp] theorem consumeCache_refresh :
    (a.refreshReadyStateFromLocal p).consumeCache = a.consumeCache := by
  unfold refreshReadyStateFromLocal
  split_ifs <;> rfl

@[simp] theorem offsetSnapshotState_refresh :
    (a.refreshReadyStateFromLocal p).offsetSnapshotState = a.offsetSnapshotState := by
  unfold refreshReadyStateFromLocal
  split_ifs <;> rfl

@[simp] theorem cachedNextHint_refresh (q : String) :
    (a.refreshReadyStateFromLocal p).cachedNextHint q = a.cachedNextHint q := by
  simp [cachedNextHint, cachedConsumeOffset]

@[simp] theorem cachedProduceOffset_refresh (q : String) :
    (a.refreshReadyStateFromLocal p).cachedProduceOffset q = a.cachedProduceOffset q := by
  simp [cachedProduceOffset]

end Refresh

/-! ## Exact ready sets -/

/-- A message of the producer has not been handed out. -/
def HasRoom (a : ConsumerActor) (p : String) : Prop :=
  (a.cachedNextHint p : ℤ) ≤ a.cachedProduceOffset p

/-- The ready producers are those with room. -/
def ReadyExact (a : ConsumerActor) : Prop := ∀ p, p ∈ a.readyProducers ↔ a.HasRoom p

variable {a : ConsumerActor} {p q : String}

/-- A producer with room has a produce offset in the cache. -/
theorem HasRoom.lookup (h : a.HasRoom p) :
    ∃ v : ℤ, a.produceCache.lookup p = some v ∧ (a.cachedNextHint p : ℤ) ≤ v := by
  cases hv : a.produceCache.lookup p with
  | none =>
    simp only [HasRoom, cachedProduceOffset, hv, produceOffsetBegin, Option.getD_none] at h
    omega
  | some v =>
    refine ⟨v, rfl, ?_⟩
    simpa only [HasRoom, cachedProduceOffset, hv, Option.getD_some] using h

theorem mem_ready_refresh : q ∈ (a.refreshReadyStateFromLocal p).readyProducers ↔
      if q = p then a.HasRoom p else q ∈ a.readyProducers := by
  unfold refreshReadyStateFromLocal
  by_cases hqp : q = p
  · subst hqp
    by_cases hlocal : a.hasLocalProducerState q = false
    · have hnone : ¬a.HasRoom q := by
        intro hroom
        obtain ⟨v, hv, -⟩ := hroom.lookup
        simp [hasLocalProducerState, hv] at hlocal
      simp [hlocal, hnone]
    · by_cases hroom : (a.cachedNextHint q : ℤ) ≤ a.cachedProduceOffset q
      · simp [hlocal, hroom, HasRoom]
      · simp [hlocal, hroom, HasRoom]
  · split_ifs <;> simp [hqp]

@[simp] theorem hasRoom_refresh : (a.refreshReadyStateFromLocal p).HasRoom q ↔ a.HasRoom q := by
  simp [HasRoom]

variable {b : ConsumerActor} {updates : List (String × ℤ)} {v : ℤ} {produceOffsets : Table String ℤ}
  {consumeOffsets : Table String ℕ}

/-- Refreshing the only producer whose offsets have changed keeps the set exact. -/
theorem ReadyExact.refresh (h : a.ReadyExact) (hready : b.readyProducers = a.readyProducers)
    (hother : ∀ q ≠ p, b.HasRoom q ↔ a.HasRoom q) :
    (b.refreshReadyStateFromLocal p).ReadyExact := by
  intro q
  rw [mem_ready_refresh, hasRoom_refresh]
  by_cases hqp : q = p
  · rw [if_pos hqp, hqp]
  · rw [if_neg hqp, hready, h q, hother q hqp]

/-- Refreshing a list of producers: the offsets stay, and the listed producers are in the set iff
they have room. -/
theorem foldl_refresh (ps : List String) (a : ConsumerActor) :
    let b := ps.foldl refreshReadyStateFromLocal a
    b.prefetchOffsetMap = a.prefetchOffsetMap ∧ b.produceCache = a.produceCache ∧
      b.consumeCache = a.consumeCache ∧ b.offsetSnapshotState = a.offsetSnapshotState ∧
      ∀ q, q ∈ b.readyProducers ↔ if q ∈ ps then a.HasRoom q else q ∈ a.readyProducers := by
  induction ps generalizing a with
  | nil => simp
  | cons p ps ih =>
    obtain ⟨hprefetch, hproduce, hconsume, hstate, hready⟩ := ih (a.refreshReadyStateFromLocal p)
    simp only [List.foldl_cons]
    refine ⟨by rw [hprefetch, prefetchOffsetMap_refresh],
      by rw [hproduce, produceCache_refresh], by rw [hconsume, consumeCache_refresh],
      by rw [hstate, offsetSnapshotState_refresh], ?_⟩
    intro q
    rw [hready q, hasRoom_refresh, mem_ready_refresh]
    by_cases hps : q ∈ ps
    · simp [hps]
    · by_cases hqp : q = p
      · subst hqp
        simp [hps]
      · simp [hps, hqp]

theorem handleMetaMsg_offsets (a : ConsumerActor) (set : List String) :
    (a.handleMetaMsg set).prefetchOffsetMap = a.prefetchOffsetMap ∧
      (a.handleMetaMsg set).produceCache = a.produceCache ∧
      (a.handleMetaMsg set).consumeCache = a.consumeCache ∧
      (a.handleMetaMsg set).offsetSnapshotState = a.offsetSnapshotState := by
  obtain ⟨hprefetch, hproduce, hconsume, hstate, -⟩ :=
    foldl_refresh (a.producerMetaCache ++ set) { a with producerMetaCache := set }
  exact ⟨hprefetch, hproduce, hconsume, hstate⟩

theorem rebuildReadyStateFromCaches_offsets (a : ConsumerActor) :
    a.rebuildReadyStateFromCaches.prefetchOffsetMap = a.prefetchOffsetMap ∧
      a.rebuildReadyStateFromCaches.produceCache = a.produceCache ∧
      a.rebuildReadyStateFromCaches.consumeCache = a.consumeCache ∧
      a.rebuildReadyStateFromCaches.offsetSnapshotState = a.offsetSnapshotState := by
  obtain ⟨hprefetch, hproduce, hconsume, hstate, -⟩ :=
    foldl_refresh (a.produceCache.keys ++ a.consumeCache.keys ++ a.prefetchOffsetMap.keys ++
      a.producerMetaCache) { a with readyProducers := ∅, staleNoRoomProducers := ∅ }
  exact ⟨hprefetch, hproduce, hconsume, hstate⟩

/-- Whether there is room is a matter of the caches. -/
theorem hasRoom_congr (hprefetch : b.prefetchOffsetMap.lookup p = a.prefetchOffsetMap.lookup p)
    (hproduce : b.produceCache.lookup p = a.produceCache.lookup p)
    (hconsume : b.consumeCache.lookup p = a.consumeCache.lookup p) : b.HasRoom p ↔ a.HasRoom p := by
  simp only [HasRoom, cachedNextHint, cachedConsumeOffset, cachedProduceOffset, hprefetch,
    hproduce, hconsume]

theorem ReadyExact.handleMetaMsg (h : a.ReadyExact) (set : List String) :
    (a.handleMetaMsg set).ReadyExact := by
  intro q
  obtain ⟨hprefetch, hproduce, hconsume, -⟩ := handleMetaMsg_offsets a set
  have hroom : (a.handleMetaMsg set).HasRoom q ↔ a.HasRoom q :=
    hasRoom_congr (by rw [hprefetch]) (by rw [hproduce]) (by rw [hconsume])
  obtain ⟨-, -, -, -, hready⟩ :=
    foldl_refresh (a.producerMetaCache ++ set) { a with producerMetaCache := set }
  rw [hroom]
  refine (hready q).trans ?_
  split
  · exact Iff.rfl
  · exact h q

theorem readyExact_rebuildReadyStateFromCaches (a : ConsumerActor) :
    a.rebuildReadyStateFromCaches.ReadyExact := by
  intro q
  obtain ⟨hprefetch, hproduce, hconsume, -⟩ := rebuildReadyStateFromCaches_offsets a
  have hroom : a.rebuildReadyStateFromCaches.HasRoom q ↔ a.HasRoom q :=
    hasRoom_congr (by rw [hprefetch]) (by rw [hproduce]) (by rw [hconsume])
  obtain ⟨-, -, -, -, hready⟩ :=
    foldl_refresh (a.produceCache.keys ++ a.consumeCache.keys ++ a.prefetchOffsetMap.keys ++
      a.producerMetaCache) { a with readyProducers := ∅, staleNoRoomProducers := ∅ }
  rw [hroom]
  refine (hready q).trans ?_
  split
  · exact Iff.rfl
  · next hunknown =>
    -- a producer with room is a key of the produce cache, hence among those refreshed
    have hnone : ¬a.HasRoom q := by
      intro hroom
      obtain ⟨v, hv, -⟩ := hroom.lookup
      have hkey : q ∈ a.produceCache.keys := AList.lookup_isSome.1 (by rw [hv]; rfl)
      exact hunknown (by simp [hkey])
    simp [hnone]

/-! ## Produce offset updates -/

theorem handleProduceOffsetMsg_offsets (updates : List (String × ℤ)) (a : ConsumerActor) :
    (a.handleProduceOffsetMsg updates).prefetchOffsetMap = a.prefetchOffsetMap ∧
      (a.handleProduceOffsetMsg updates).consumeCache = a.consumeCache ∧
      (a.handleProduceOffsetMsg updates).offsetSnapshotState = a.offsetSnapshotState := by
  induction updates generalizing a with
  | nil => exact ⟨rfl, rfl, rfl⟩
  | cons u updates ih =>
    obtain ⟨hprefetch, hconsume, hstate⟩ := ih (a.handleProduceOffset u)
    exact ⟨hprefetch.trans (prefetchOffsetMap_refresh _ _),
      hconsume.trans (consumeCache_refresh _ _), hstate.trans (offsetSnapshotState_refresh _ _)⟩

theorem lookup_produceCache_handleProduceOffset (a : ConsumerActor) (u : String × ℤ) :
    (a.handleProduceOffset u).produceCache.lookup p =
      if p = u.1 then some ((a.produceCache.lookup u.1).elim u.2 (max · u.2))
      else a.produceCache.lookup p := by
  rw [handleProduceOffset, produceCache_refresh, Table.lookup_upsert]

/-- A produce offset in the cache was there before or is one of the updates. -/
theorem produceCache_handleProduceOffsetMsg
    (h : (a.handleProduceOffsetMsg updates).produceCache.lookup p = some v) :
    a.produceCache.lookup p = some v ∨ (p, v) ∈ updates := by
  induction updates generalizing a with
  | nil => exact .inl h
  | cons u updates ih =>
    rcases ih h with hbefore | hmem
    · rw [lookup_produceCache_handleProduceOffset] at hbefore
      by_cases hp : p = u.1
      · rw [if_pos hp] at hbefore
        have hu : u = (p, u.2) := by rw [hp]
        cases hold : a.produceCache.lookup u.1 with
        | none =>
          simp only [hold, Option.elim_none, Option.some.injEq] at hbefore
          exact .inr (by rw [← hbefore, ← hu]; exact List.mem_cons_self)
        | some w =>
          simp only [hold, Option.elim_some, Option.some.injEq] at hbefore
          rcases max_choice w u.2 with hmax | hmax
          · rw [hp, hold, ← hbefore, hmax]
            exact .inl rfl
          · rw [← hbefore, hmax, ← hu]
            exact .inr List.mem_cons_self
      · rw [if_neg hp] at hbefore
        exact .inl hbefore
    · exact .inr (List.mem_cons_of_mem _ hmem)

theorem cachedProduceOffset_handleProduceOffset (a : ConsumerActor) (u : String × ℤ)
    (hu : produceOffsetBegin ≤ u.2) :
    (a.handleProduceOffset u).cachedProduceOffset p =
      if p = u.1 then max (a.cachedProduceOffset p) u.2 else a.cachedProduceOffset p := by
  unfold cachedProduceOffset
  rw [lookup_produceCache_handleProduceOffset]
  by_cases hp : p = u.1
  · subst hp
    cases hold : a.produceCache.lookup u.1 with
    | none => simp [hu]
    | some w => simp
  · simp [hp]

/-- After a batch of updates, the cached offset is at least the old one and every update. -/
theorem le_cachedProduceOffset_handleProduceOffsetMsg
    (hupdates : ∀ u ∈ updates, produceOffsetBegin ≤ u.2) :
    a.cachedProduceOffset p ≤ (a.handleProduceOffsetMsg updates).cachedProduceOffset p ∧
      ∀ v, (p, v) ∈ updates → v ≤ (a.handleProduceOffsetMsg updates).cachedProduceOffset p := by
  induction updates generalizing a with
  | nil => exact ⟨le_refl _, by simp⟩
  | cons u updates ih =>
    obtain ⟨hle, hmem⟩ := ih fun w hw => hupdates w (List.mem_cons_of_mem _ hw)
    have hfirst := cachedProduceOffset_handleProduceOffset (p := p) a u
      (hupdates u List.mem_cons_self)
    constructor
    · apply le_trans _ hle
      rw [hfirst]
      split
      · exact le_max_left _ _
      · exact le_refl _
    · intro v hv
      rcases List.mem_cons.1 hv with heq | hv
      · apply le_trans _ hle
        rw [hfirst, ← heq, if_pos rfl]
        exact le_max_right _ _
      · exact hmem v hv

theorem ReadyExact.handleProduceOffset (h : a.ReadyExact) (u : String × ℤ) :
    (a.handleProduceOffset u).ReadyExact := by
  refine h.refresh rfl ?_
  intro q hq
  refine hasRoom_congr rfl ?_ rfl
  rw [Table.lookup_upsert, if_neg hq]

theorem ReadyExact.handleProduceOffsetMsg (h : a.ReadyExact) (updates : List (String × ℤ)) :
    (a.handleProduceOffsetMsg updates).ReadyExact := by
  induction updates generalizing a with
  | nil => exact h
  | cons u updates ih => exact ih (h.handleProduceOffset u)

/-! ## Offset scans -/

/-- A produce offset in the merged cache was there before or has been scanned. -/
theorem produceCache_mergeOffsets
    (h : (a.mergeOffsets produceOffsets consumeOffsets).produceCache.lookup p = some v) :
    a.produceCache.lookup p = some v ∨ produceOffsets.lookup p = some v := by
  rw [mergeOffsets, lookup_mergeOffsetCacheMonotonic] at h
  cases hscan : produceOffsets.lookup p with
  | none =>
    rw [hscan] at h
    exact .inl h
  | some w =>
    rw [hscan] at h
    cases hold : a.produceCache.lookup p with
    | none =>
      rw [hold] at h
      exact .inr h
    | some u =>
      simp only [hold, Option.elim_some, Option.some.injEq] at h
      rcases max_choice u w with hmax | hmax
      · exact .inl (by rw [← h, hmax])
      · exact .inr (by rw [← h, hmax])

/-- Merging keeps the cached offset or raises it, if no scanned offset is below the first. -/
theorem le_cachedProduceOffset_mergeOffsets (consumeOffsets : Table String ℕ)
    (hscan : ∀ v, produceOffsets.lookup p = some v → produceOffsetBegin ≤ v) :
    a.cachedProduceOffset p ≤
      (a.mergeOffsets produceOffsets consumeOffsets).cachedProduceOffset p := by
  unfold cachedProduceOffset
  rw [mergeOffsets, lookup_mergeOffsetCacheMonotonic]
  cases hv : produceOffsets.lookup p with
  | none => exact le_refl _
  | some w =>
    cases a.produceCache.lookup p with
    | none => exact hscan w hv
    | some u => exact le_max_left u w

/-- Once the scanned consume offsets are those of the cache wherever it has one, merging them
gives the scanned offsets. -/
theorem lookup_consumeCache_mergeOffsets (produceOffsets : Table String ℤ)
    (h : ∀ v, a.consumeCache.lookup p = some v → consumeOffsets.lookup p = some v) :
    (a.mergeOffsets produceOffsets consumeOffsets).consumeCache.lookup p =
      consumeOffsets.lookup p := by
  rw [mergeOffsets, lookup_mergeOffsetCacheMonotonic]
  cases hold : a.consumeCache.lookup p with
  | none => cases consumeOffsets.lookup p <;> rfl
  | some v => simp [h v hold]

/-! ## Probes -/

variable (probed : List (String × SingleProducerOffsets))

theorem applyProbes_offsets (a : ConsumerActor) :
    (a.applyProbes probed).prefetchOffsetMap = a.prefetchOffsetMap ∧
      (a.applyProbes probed).offsetSnapshotState = a.offsetSnapshotState := by
  induction probed generalizing a with
  | nil => exact ⟨rfl, rfl⟩
  | cons probe probed ih =>
    obtain ⟨hprefetch, hstate⟩ := ih (a.applyProbe probe)
    exact ⟨hprefetch.trans (prefetchOffsetMap_refresh _ _),
      hstate.trans (offsetSnapshotState_refresh _ _)⟩

/-- After the probes, the offsets of a producer are those it had or those of one of its probes. -/
theorem lookup_applyProbes (a : ConsumerActor) (p : String) :
    ((a.applyProbes probed).produceCache.lookup p = a.produceCache.lookup p ∧
      (a.applyProbes probed).consumeCache.lookup p = a.consumeCache.lookup p) ∨
    ∃ probe, (p, probe) ∈ probed ∧
      (a.applyProbes probed).produceCache.lookup p = some probe.produceOffset ∧
      (a.applyProbes probed).consumeCache.lookup p = some probe.consumeOffset := by
  induction probed generalizing a with
  | nil => exact .inl ⟨rfl, rfl⟩
  | cons first probed ih =>
    rcases ih (a.applyProbe first) with ⟨hproduce, hconsume⟩ | ⟨probe, hmem, hproduce, hconsume⟩
    · have hproduceFirst : (a.applyProbe first).produceCache.lookup p =
          if p = first.1 then some first.2.produceOffset else a.produceCache.lookup p := by
        rw [applyProbe, produceCache_refresh, Table.lookup_insert_eq]
      have hconsumeFirst : (a.applyProbe first).consumeCache.lookup p =
          if p = first.1 then some first.2.consumeOffset else a.consumeCache.lookup p := by
        rw [applyProbe, consumeCache_refresh, Table.lookup_insert_eq]
      rw [hproduceFirst] at hproduce
      rw [hconsumeFirst] at hconsume
      by_cases hp : p = first.1
      · rw [if_pos hp] at hproduce hconsume
        exact .inr ⟨first.2, by simp [hp], hproduce, hconsume⟩
      · rw [if_neg hp] at hproduce hconsume
        exact .inl ⟨hproduce, hconsume⟩
    · exact .inr ⟨probe, List.mem_cons_of_mem _ hmem, hproduce, hconsume⟩

theorem ReadyExact.applyProbe (h : a.ReadyExact) (probe : String × SingleProducerOffsets) :
    (a.applyProbe probe).ReadyExact := by
  refine h.refresh rfl ?_
  intro q hq
  refine hasRoom_congr rfl ?_ ?_
  · rw [Table.lookup_insert_eq, if_neg hq]
  · rw [Table.lookup_insert_eq, if_neg hq]

theorem ReadyExact.applyProbes (h : a.ReadyExact)
    (probed : List (String × SingleProducerOffsets)) : (a.applyProbes probed).ReadyExact := by
  induction probed generalizing a with
  | nil => exact h
  | cons probe probed ih => exact ih (h.applyProbe probe)

theorem le_mergeMonotonicOffset {β : Type} [LinearOrder β] (cached : β) (probed : Option β) :
    cached ≤ mergeMonotonicOffset cached probed := by
  cases probed with
  | none => exact le_refl cached
  | some value => exact le_max_right value cached

/-! ## Handing out -/

theorem takeNext_of_hasRoom (h : a.HasRoom p) :
    a.takeNext p = (some (a.cachedNextHint p), a.handOut p) :=
  if_neg (not_lt.2 h)

theorem takeNext_of_not_hasRoom (h : ¬a.HasRoom p) :
    a.takeNext p = (none, a.refreshReadyStateFromLocal p) :=
  if_pos (not_le.1 h)

theorem ReadyExact.handOut (h : a.ReadyExact) (p : String) : (a.handOut p).ReadyExact := by
  refine h.refresh rfl ?_
  intro q hq
  refine hasRoom_congr ?_ rfl rfl
  rw [Table.lookup_insert_eq, if_neg hq]

theorem cachedProduceOffset_handOut (a : ConsumerActor) (p q : String) :
    (a.handOut p).cachedProduceOffset q = a.cachedProduceOffset q := by
  rw [handOut, cachedProduceOffset_refresh]
  rfl

theorem cachedNextHint_handOut (a : ConsumerActor) (p q : String) : (a.handOut p).cachedNextHint q =
      if q = p then a.cachedNextHint p + 1 else a.cachedNextHint q := by
  rw [handOut, cachedNextHint_refresh]
  unfold cachedNextHint
  rw [Table.lookup_insert_eq]
  by_cases h : q = p
  · simp [h]
  · simp [h, cachedConsumeOffset]

end ConsumerActor

end Fluxon.Mq
