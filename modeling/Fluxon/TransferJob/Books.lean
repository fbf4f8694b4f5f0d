import Fluxon.TransferJob.Coverage
import Fluxon.TransferJob.Worker

/-!
# The books of a job

The state index has the key of a state and a batch exactly if the batch is in that state, and the
counters of the job are the numbers of its batches in each state: `Rows.Booked`. Every method keeps
the books by one of three moves: a new batch, a batch that changes its state, and a batch row that
is rewritten in its state.

The counters are 64-bit and saturate, so they are exact for fewer than `2 ^ 63` batches.
-/

namespace Fluxon.TransferJob

open Table

open TransferScan (BatchKind)

variable {Blob : Type}

/-! ## Counters -/

variable (job : JobRecord)

/-- The counter of a state; there is none for cancelled batches. -/
def JobRecord.stateCount : BatchState → ℤ
  | .ready => job.readyBatchCount
  | .running => job.runningBatchCount
  | .done => job.doneBatchCount
  | .finished => job.finishedBatchCount
  | .expired => job.expiredBatchCount
  | .cancelled => 0

variable {state : BatchState} {rows rows' : Rows Blob} {K V : Type} {t : Table K V} {k : K}
  {batchId : String} {record record' : BatchRecord}

theorem stateCount_adjust (h : state ≠ .cancelled) (delta : ℤ) (other : BatchState) :
    (job.adjustBatchStateCount state delta).stateCount other =
      if other = state then saturatingAddI64 (job.stateCount state) delta
      else job.stateCount other := by
  cases state <;> cases other <;> simp_all [JobRecord.adjustBatchStateCount, JobRecord.stateCount]

/-- The record around the counters. -/
theorem adjust_rest (state : BatchState) (delta : ℤ) :
    (job.adjustBatchStateCount state delta).state = job.state ∧
      (job.adjustBatchStateCount state delta).scanFinished = job.scanFinished ∧
      (job.adjustBatchStateCount state delta).failedFileCount = job.failedFileCount := by
  cases state <;> exact ⟨rfl, rfl, rfl⟩

/-- The number of batches in a state. -/
def Rows.countIn (rows : Rows Blob) (state : BatchState) : ℕ :=
  Table.sumBy (fun _ record => if record.state = state then 1 else 0) rows.batches

theorem countIn_le_length (rows : Rows Blob) (state : BatchState) :
    rows.countIn state ≤ rows.batches.entries.length := by
  unfold Rows.countIn sumBy image
  have h := List.sum_le_card_nsmul
    (rows.batches.entries.map fun e => if e.2.state = state then 1 else 0) 1 (by
      intro n hn
      obtain ⟨e, -, rfl⟩ := List.mem_map.1 hn
      split <;> omega)
  simpa using h

theorem countIn_eq_zero_iff : rows.countIn state = 0 ↔
    ∀ {batchId record}, rows.batches.lookup batchId = some record → record.state ≠ state := by
  constructor
  · intro h batchId record hr hstate
    have hle := le_sumBy (fun _ record => if record.state = state then 1 else 0) hr
    have hzero : sumBy (fun _ record => if record.state = state then 1 else 0)
        rows.batches = 0 := h
    rw [hzero, if_pos hstate] at hle
    omega
  · intro h
    refine sumBy_eq_zero ?_
    intro batchId record hr
    rw [if_neg (h hr)]

/-! ## Books -/

structure Rows.Booked (rows : Rows Blob) : Prop where
  index : ∀ state batchId, rows.batchStates.lookup (state, batchId) = some () ↔
    ∃ record, rows.batches.lookup batchId = some record ∧ record.state = state
  counts : rows.batches.entries.length < 2 ^ 63 → ∀ state, state ≠ .cancelled →
    rows.job.stateCount state = rows.countIn state

theorem length_insert_of_lookup [DecidableEq K] {v : V} (h : t.lookup k = some v) (v' : V) :
    (t.insert k v').entries.length = t.entries.length := by
  have herase := length_erase h
  have hentries : (t.insert k v').entries = ⟨k, v'⟩ :: (t.erase k).entries := rfl
  rw [hentries, List.length_cons]
  omega

theorem length_insert_of_lookup_none [DecidableEq K] (h : t.lookup k = none) (v : V) :
    (t.insert k v).entries.length = t.entries.length + 1 := by
  have hentries : (t.insert k v).entries = ⟨k, v⟩ :: (t.erase k).entries := rfl
  rw [hentries, List.length_cons, erase_of_lookup h]

/-- A batch changes its state. -/
theorem Rows.Booked.move (h : rows.Booked) {previous : BatchState}
    (hr : rows.batches.lookup batchId = some record) (hprevious : record.state = previous)
    (hopen : previous ≠ .cancelled) : (rows.moveBatch batchId previous record').Booked := by
  constructor
  · intro state id
    show AList.lookup _ ((rows.batchStates.erase (previous, batchId)).insert
      (record'.state, batchId) ()) = _ ↔ ∃ r, AList.lookup id (rows.batches.insert _ _) = _ ∧ _
    rw [lookup_insert_eq, lookup_insert_eq, lookup_erase_eq]
    by_cases hid : id = batchId
    · subst hid
      by_cases hstate : state = record'.state
      · simp [hstate]
      rw [if_neg (by simp [hstate]), if_pos rfl]
      by_cases hold : state = previous
      · simp [hold]
        intro heq
        exact hstate (hold.trans heq.symm)
      rw [if_neg (by simp [hold]), h.index]
      constructor
      · rintro ⟨r, hlookup, hrs⟩
        rw [hr] at hlookup
        cases hlookup
        exact absurd (hrs.symm.trans hprevious) hold
      · rintro ⟨r, hlookup, hrs⟩
        cases hlookup
        exact absurd hrs.symm hstate
    · rw [if_neg (by simp [hid]), if_neg (by simp [hid]), if_neg hid]
      exact h.index state id
  · intro hlen state hstate
    have hlen' : rows.batches.entries.length < 2 ^ 63 := by
      have hsame := length_insert_of_lookup hr record'
      have hmoved : (rows.moveBatch batchId previous record').batches.entries.length =
          (rows.batches.insert batchId record').entries.length := rfl
      omega
    have hcount : ∀ s, (rows.moveBatch batchId previous record').countIn s +
        (if previous = s then 1 else 0) = rows.countIn s + if record'.state = s then 1 else 0 := by
      intro s
      have hnew := sumBy_insert (fun _ r => if r.state = s then 1 else 0) rows.batches
        batchId record'
      have hold := sumBy_of_lookup (fun _ (r : BatchRecord) => if r.state = s then 1 else 0) hr
      rw [hprevious] at hold
      simp only [Rows.countIn, Rows.moveBatch]
      omega
    have hbound := countIn_le_length (rows.moveBatch batchId previous record') state
    have hbound' := countIn_le_length rows state
    have hc := hcount state
    have hold := h.counts hlen'
    show ((rows.job.adjustBatchStateCount previous (-1)).adjustBatchStateCount record'.state
      1).stateCount state = _
    by_cases hcancel : record'.state = .cancelled
    · rw [hcancel] at hc ⊢
      show (rows.job.adjustBatchStateCount previous (-1)).stateCount state = _
      rw [stateCount_adjust _ hopen, hold state hstate, hold previous hopen]
      unfold saturatingAddI64
      split
      · next heq =>
        subst heq
        rw [if_pos rfl, if_neg (Ne.symm hstate)] at hc
        omega
      · next hne =>
        rw [if_neg (Ne.symm hne), if_neg (Ne.symm hstate)] at hc
        omega
    · rw [stateCount_adjust _ hcancel, stateCount_adjust _ hopen, stateCount_adjust _ hopen,
        hold state hstate, hold previous hopen, hold record'.state hcancel]
      unfold saturatingAddI64
      by_cases h₁ : state = record'.state <;> by_cases h₂ : state = previous
      · rw [if_pos h₁, if_pos (h₁.symm.trans h₂)]
        rw [if_pos h₂.symm, if_pos h₁.symm] at hc
        rw [h₂] at hc hbound hbound' ⊢
        omega
      · rw [if_pos h₁, if_neg (fun heq => h₂ (h₁.trans heq))]
        rw [if_neg (Ne.symm h₂), if_pos h₁.symm] at hc
        rw [← h₁]
        omega
      · rw [if_neg h₁, if_pos h₂]
        rw [if_pos h₂.symm, if_neg (Ne.symm h₁)] at hc
        rw [h₂] at hc hbound hbound' ⊢
        omega
      · rw [if_neg h₁, if_neg h₂]
        rw [if_neg (Ne.symm h₂), if_neg (Ne.symm h₁)] at hc
        omega

/-- A batch row is rewritten in its state, and the counters stay. -/
theorem Rows.Booked.rewrite (h : rows.Booked) (hr : rows.batches.lookup batchId = some record)
    (hbatches : rows'.batches = rows.batches.insert batchId record')
    (hstate : record'.state = record.state) (hstates : rows'.batchStates = rows.batchStates)
    (hcounts : ∀ state, rows'.job.stateCount state = rows.job.stateCount state) : rows'.Booked := by
  constructor
  · intro state id
    rw [hstates, h.index, hbatches, lookup_insert_eq]
    by_cases hid : id = batchId
    · subst hid
      rw [if_pos rfl, hr]
      simp [hstate]
    · rw [if_neg hid]
  · intro hlen state hne
    rw [hbatches, length_insert_of_lookup hr] at hlen
    rw [hcounts, h.counts hlen state hne]
    have hnew := sumBy_insert (fun _ r => if r.state = state then 1 else 0) rows.batches
      batchId record'
    have hold := sumBy_of_lookup (fun _ (r : BatchRecord) => if r.state = state then 1 else 0) hr
    rw [hstate] at hnew
    simp only [Rows.countIn, hbatches]
    omega

theorem Rows.Booked.of_job (h : rows.Booked)
    (hcounts : ∀ state, rows'.job.stateCount state = rows.job.stateCount state := by
      intro state; cases state <;> rfl)
    (hbatches : rows'.batches = rows.batches := by rfl)
    (hstates : rows'.batchStates = rows.batchStates := by rfl) : rows'.Booked := by
  constructor
  · intro state id
    rw [hstates, hbatches]
    exact h.index state id
  · intro hlen state hne
    rw [hcounts, Rows.countIn, hbatches]
    rw [hbatches] at hlen
    exact h.counts hlen state hne

/-- A new batch. -/
theorem Rows.Booked.store (h : rows.Booked) {root : String} {batch : BatchWire Blob}
    {m : Materialized Blob} (hnew : rows.batches.lookup batch.batchId = none) :
    (storeBatch rows root batch m).Booked := by
  constructor
  · intro state id
    show AList.lookup _ (rows.batchStates.insert (.ready, batch.batchId) ()) = _ ↔
      ∃ r, AList.lookup id (rows.batches.insert _ _) = _ ∧ _
    rw [lookup_insert_eq, lookup_insert_eq]
    by_cases hid : id = batch.batchId
    · subst hid
      by_cases hstate : state = .ready
      · simp [hstate]
      · rw [if_neg (by simp [hstate]), h.index, hnew]
        simp [Ne.symm hstate]
    · rw [if_neg (by simp [hid]), if_neg hid]
      exact h.index state id
  · intro hlen state hstate
    have hsum := sumBy_insert_of_lookup_none
      (fun _ (r : BatchRecord) => if r.state = state then 1 else 0)
      { rootRelpath := root, batchKind := batch.batchKind, state := .ready
        assignedSrcExporterId := "", assignedDstExporterId := "", ownerWorkerId := ""
        ownerWorkerTaskId := "", leaseExpireUnixMs := 0, manifest := m.manifest
        generation := batch.generation, lastCountedScanEpoch := rows.job.scanEpoch } hnew
    have hentries : (storeBatch rows root batch m).batches.entries.length =
        rows.batches.entries.length + 1 := length_insert_of_lookup_none hnew _
    have hbound := countIn_le_length rows state
    have hcount : (storeBatch rows root batch m).countIn state =
        (if BatchState.ready = state then 1 else 0) + rows.countIn state := hsum
    have hold := h.counts (by omega)
    show (rows.job.adjustBatchStateCount .ready 1).stateCount state = _
    rw [stateCount_adjust _ (by simp), hold state hstate, hold .ready (by simp), hcount]
    unfold saturatingAddI64
    by_cases heq : state = .ready
    · subst heq
      rw [if_pos rfl, if_pos rfl]
      omega
    · rw [if_neg heq, if_neg (Ne.symm heq)]
      omega

end Fluxon.TransferJob
