import Fluxon.TransferJob.Books

/-!
# Accounting and completion of a job

In every sequence of calls of the store the books are right, the failed-file counter is the number
of file issues, and while a job is not stopping a batch is running exactly if it has an owner with a
lease for it. So a job is completed only with all batches finished after a finished scan, and
cancelled only with no open batch and no lease: `job_accounted`.

A stopping job takes its leases back in portions, whether or not the batches that they are for are
among the portion of batches it cancels (`stopping_running_without_lease`). The lease of a worker
task is one row, so an assignment needs a task without a lease.
-/

namespace Fluxon.TransferJob

open Table Rows

open TransferScan (BatchKind)

variable {Blob : Type}

/-! ## Sound rows -/

/-- Fewer batches and file issues than a 64-bit counter counts. -/
def Rows.Small (rows : Rows Blob) : Prop :=
  rows.batches.entries.length < 2 ^ 63 ∧ rows.fileIssues.entries.length < 2 ^ 63

instance (rows : Rows Blob) : Decidable rows.Small := inferInstanceAs (Decidable (_ ∧ _))

/-- The owner of a batch has a lease for it. -/
def Rows.HasLease (rows : Rows Blob) (batchId : String) (record : BatchRecord) : Prop :=
  record.ownerWorkerId ≠ "" ∧ ∃ lease, rows.workerLeases.lookup record.ownerWorkerTaskId =
    some lease ∧ lease.holds record.ownerWorkerId batchId = true

structure Rows.Sound (rows : Rows Blob) : Prop where
  booked : rows.Booked
  issues : rows.fileIssues.entries.length < 2 ^ 63 →
    rows.job.failedFileCount = rows.fileIssues.entries.length
  idle : ∀ {batchId record}, rows.batches.lookup batchId = some record →
    record.state ≠ .running → record.ownerWorkerId = ""
  leased : rows.job.state ≠ .stopping → ∀ {batchId record},
    rows.batches.lookup batchId = some record → record.state = .running →
    rows.HasLease batchId record
  active : rows.job.state = .running → ∀ {batchId record},
    rows.batches.lookup batchId = some record → record.state ≠ .cancelled
  completed : rows.job.state = .completed → rows.job.scanFinished = true ∧
    ∀ {batchId record}, rows.batches.lookup batchId = some record → record.state = .finished
  cancelled : rows.job.state = .cancelled →
    (∀ {batchId record}, rows.batches.lookup batchId = some record →
      record.state = .finished ∨ record.state = .cancelled) ∧
    ∀ task, rows.workerLeases.lookup task = none
  not_failed : rows.job.state ≠ .failed

theorem moveBatch_state (rows : Rows Blob) (batchId : String) (previous : BatchState)
    (record : BatchRecord) : (rows.moveBatch batchId previous record).job.state = rows.job.state :=
  (adjust_rest _ _ _).1.trans (adjust_rest _ _ _).1

variable {rows : Rows Blob} {batchId : String} {record : BatchRecord}

/-- A batch changes its state while the job runs or stops, and leases change with it. -/
theorem Rows.Sound.move (h : rows.Sound) {record' : BatchRecord} {previous : BatchState}
    {leases : Table String WorkerLease} (hr : rows.batches.lookup batchId = some record)
    (hprevious : record.state = previous) (hopen : previous ≠ .cancelled)
    (hjob : rows.job.state = .running ∨ rows.job.state = .stopping)
    (hidle : record'.state ≠ .running → record'.ownerWorkerId = "")
    (hactive : rows.job.state = .running → record'.state ≠ .cancelled)
    (hself : rows.job.state = .running → record'.state = .running →
      Rows.HasLease { rows with workerLeases := leases } batchId record')
    (hothers : rows.job.state = .running → ∀ {id r}, id ≠ batchId →
      rows.batches.lookup id = some r → r.state = .running → rows.HasLease id r →
      Rows.HasLease { rows with workerLeases := leases } id r) :
    Rows.Sound { rows.moveBatch batchId previous record' with workerLeases := leases } := by
  obtain ⟨hstate₁, hscan₁, hfailed₁⟩ := adjust_rest rows.job previous (-1)
  obtain ⟨hstate₂, hscan₂, hfailed₂⟩ :=
    adjust_rest (rows.job.adjustBatchStateCount previous (-1)) record'.state 1
  have hstate : (rows.moveBatch batchId previous record').job.state = rows.job.state :=
    hstate₂.trans hstate₁
  have hlookup : ∀ {id r}, (rows.moveBatch batchId previous record').batches.lookup id = some r →
      (id = batchId ∧ r = record') ∨ (id ≠ batchId ∧ rows.batches.lookup id = some r) :=
    lookup_insert_cases
  constructor
  · exact (h.booked.move hr hprevious hopen).of_job
  · intro hlen
    exact (hfailed₂.trans hfailed₁).trans (h.issues hlen)
  · intro id r hid hne
    rcases hlookup hid with ⟨rfl, rfl⟩ | ⟨-, hid⟩
    · exact hidle hne
    · exact h.idle hid hne
  · intro hns id r hid hrunning
    have hrun : rows.job.state = .running := by
      rcases hjob with hrun | hstop
      · exact hrun
      · exact absurd (hstate.trans hstop) hns
    rcases hlookup hid with ⟨rfl, rfl⟩ | ⟨hne, hid⟩
    · exact hself hrun hrunning
    · exact hothers hrun hne hid hrunning (h.leased (by simp [hrun]) hid hrunning)
  · intro hrun id r hid
    have hrun' := hstate.symm.trans hrun
    rcases hlookup hid with ⟨rfl, rfl⟩ | ⟨-, hid⟩
    · exact hactive hrun'
    · exact h.active hrun' hid
  · intro hdone
    have := hstate.symm.trans hdone
    rcases hjob with hrun | hstop
    · simp [hrun] at this
    · simp [hstop] at this
  · intro hdone
    have := hstate.symm.trans hdone
    rcases hjob with hrun | hstop
    · simp [hrun] at this
    · simp [hstop] at this
  · exact fun hfailed => h.not_failed (hstate.symm.trans hfailed)

/-- Leases that no running batch has may change. -/
theorem Rows.Sound.leases (h : rows.Sound) {leases : Table String WorkerLease}
    (hjob : rows.job.state ≠ .running)
    (hless : ∀ task, rows.workerLeases.lookup task = none → leases.lookup task = none) :
    Rows.Sound { rows with workerLeases := leases } where
  booked := h.booked.of_job
  issues := h.issues
  idle := h.idle
  leased := by
    intro hns id r hr hrunning
    cases hstate : rows.job.state with
    | running => exact absurd hstate hjob
    | stopping => exact absurd hstate hns
    | completed => exact absurd ((h.completed hstate).2 hr) (by simp [hrunning])
    | cancelled =>
      rcases (h.cancelled hstate).1 hr with hr | hr
      · simp [hrunning] at hr
      · simp [hrunning] at hr
    | failed => exact absurd hstate h.not_failed
  active := h.active
  completed := h.completed
  cancelled hstate := ⟨(h.cancelled hstate).1, fun task => hless task ((h.cancelled hstate).2 task)⟩
  not_failed := h.not_failed

/-! ## Completion -/

theorem openBatchCount_eq_zero (h : rows.Booked) (hsmall : rows.Small)
    (hzero : rows.job.openBatchCount ≤ 0) (hr : rows.batches.lookup batchId = some record) :
    record.state = .finished ∨ record.state = .cancelled := by
  have hcounts := h.counts hsmall.1
  have hready := hcounts .ready (by simp)
  have hrunning := hcounts .running (by simp)
  have hdone := hcounts .done (by simp)
  have hexpired := hcounts .expired (by simp)
  simp only [JobRecord.stateCount] at hready hrunning hdone hexpired
  rw [JobRecord.openBatchCount, hready, hrunning, hdone, hexpired] at hzero
  unfold saturatingAddI64 at hzero
  have hnone : ∀ state, rows.countIn state = 0 → record.state ≠ state :=
    fun state hcount => countIn_eq_zero_iff.1 hcount hr
  have h₁ := hnone .ready (by omega)
  have h₂ := hnone .running (by omega)
  have h₃ := hnone .done (by omega)
  have h₄ := hnone .expired (by omega)
  cases hstate : record.state <;> simp_all

theorem Rows.Sound.complete (h : rows.Sound) (hsmall : rows.Small)
    (hrun : rows.job.state = .running) : rows.completeIfDone.Sound := by
  unfold completeIfDone
  split
  · next hdone =>
    have hfinished : ∀ {batchId record}, rows.batches.lookup batchId = some record →
        record.state = .finished := by
      intro batchId record hr
      rcases openBatchCount_eq_zero h.booked hsmall (by omega) hr with hstate | hstate
      · exact hstate
      · exact absurd hstate (h.active hrun hr)
    constructor
    · exact h.booked.of_job
    · exact h.issues
    · exact h.idle
    · intro _ id r hr hrunning
      simp [hfinished hr] at hrunning
    · intro hstate
      cases hstate
    · exact fun _ => ⟨hdone.1, hfinished⟩
    · intro hstate
      cases hstate
    · intro hstate
      cases hstate
  · exact h

/-! ## Calls -/

theorem map_eq_ok {α β : Type} {x : Except String α} {f : α → β} {b : β} :
    x.map f = .ok b ↔ ∃ a, x = .ok a ∧ f a = b := by
  cases x with
  | error | ok => simp [Except.map]

section Calls

variable [DecidableEq Blob] [NoticeCodec Blob]

/-- The methods of the store, each one transaction on the job. -/
inductive Call (Blob : Type)
  | scanAppend (result : ScanResult Blob)
  | scanResult (result : ScanResult Blob)
  | beginEpoch
  | finishEpoch (scanEpoch : ℤ)
  | assign (a : Assignment)
  | workerResult (result : WorkerResult)
  | heartbeat (message : Heartbeat)
  | reconcile (now : ℤ)
  | reconcileDone (batchId : String) (finished materialized : Bool)
  | cancel

/-- A call on its own: it reads the rows that it changes. -/
def Call.apply (rows : Rows Blob) : Call Blob → Except String (Rows Blob)
  | .scanAppend result => applyTransferScanAppend rows result
  | .scanResult result => applyTransferScanResult rows result
  | .beginEpoch => beginTransferScanEpoch rows
  | .finishEpoch scanEpoch => finishTransferScanEpoch rows scanEpoch
  | .assign a => assignTransferBatchToWorker rows rows a
  | .workerResult result => (applyTransferWorkerResult rows rows result).map Prod.snd
  | .heartbeat message => (applyTransferWorkerHeartbeat rows rows message).map Prod.snd
  | .reconcile now => .ok (reconcileSingleJob rows rows now)
  | .reconcileDone batchId finished materialized =>
    .ok (reconcileDoneBatch rows rows batchId finished materialized)
  | .cancel => cancelTransferJob rows

/-- What is asked of the calls: batch ids keep to one root and kind, workers have ids, and an
assignment is for a worker task without a lease. -/
def Call.Fits (use : String → String × BatchKind) (rows : Rows Blob) : Call Blob → Prop
  | .scanAppend result => ∀ b ∈ result.batches, ∀ root,
    normalizeTransferRootRelpath b.rootRelpath = .ok root → use b.batchId = (root, b.batchKind)
  | .scanResult result => ∀ b ∈ result.batches, ∀ root,
    normalizeTransferRootRelpath b.rootRelpath = .ok root → use b.batchId = (root, b.batchKind)
  | .assign a => a.workerId ≠ "" ∧ rows.workerLeases.lookup a.workerTaskId = none
  | _ => True

/-- Sound rows with known batches. -/
structure Rows.Accounted (use : String → String × BatchKind) (rows : Rows Blob) : Prop
    extends rows.Sound, rows.Keyed use

/-! ### Scans -/

theorem stateCount_discover (job : JobRecord) (stats : ℤ × ℤ × ℤ) (state : BatchState) :
    (job.discover stats).stateCount state = job.stateCount state := by
  cases state <;> rfl

variable {rows' snap : Rows Blob} {use : String → String × BatchKind} {batch : BatchRecord}
  {answer : Answer} {todo : List ((_ : String) × BatchRecord)} {e : (_ : String) × BatchRecord}

/-- A change that keeps the state of the job, the owners of the batches and whom the leases are
for. -/
theorem Rows.Sound.of_scan (h : rows.Sound) (hbooked : rows'.Booked)
    (hissues : rows'.fileIssues.entries.length < 2 ^ 63 →
      rows'.job.failedFileCount = rows'.fileIssues.entries.length)
    (hstate : rows'.job.state = rows.job.state)
    (hscan : rows.job.state = .completed → rows'.job.scanFinished = rows.job.scanFinished)
    (hleases : ∀ task, (rows'.workerLeases.lookup task).map WorkerLease.holds =
      (rows.workerLeases.lookup task).map WorkerLease.holds)
    (hbatches : ∀ {id r'}, rows'.batches.lookup id = some r' →
      (∃ r, rows.batches.lookup id = some r ∧ r'.state = r.state ∧
        r'.ownerWorkerId = r.ownerWorkerId ∧ r'.ownerWorkerTaskId = r.ownerWorkerTaskId) ∨
      (r'.state = .ready ∧ r'.ownerWorkerId = "" ∧ rows.job.state = .running)) : rows'.Sound := by
  constructor
  · exact hbooked
  · exact hissues
  · intro id r' hr' hne
    rcases hbatches hr' with ⟨r, hr, hs, ho, -⟩ | ⟨-, ho, -⟩
    · rw [ho]
      exact h.idle hr (hs ▸ hne)
    · exact ho
  · intro hns id r' hr' hrunning
    rcases hbatches hr' with ⟨r, hr, hs, ho, ht⟩ | ⟨hs, -, -⟩
    · obtain ⟨howner, lease, hlease, hholds⟩ := h.leased (hstate ▸ hns) hr (hs ▸ hrunning)
      have hsame := hleases r.ownerWorkerTaskId
      rw [hlease] at hsame
      obtain ⟨lease', hlease', heq⟩ := Option.map_eq_some_iff.1 hsame
      rw [Rows.HasLease, ho, ht]
      exact ⟨howner, lease', hlease', heq ▸ hholds⟩
    · simp [hs] at hrunning
  · intro hrun id r' hr'
    rcases hbatches hr' with ⟨r, hr, hs, -⟩ | ⟨hs, -⟩
    · rw [hs]
      exact h.active (hstate.symm.trans hrun) hr
    · simp [hs]
  · intro hdone
    have hold := hstate.symm.trans hdone
    refine ⟨(hscan hold).trans (h.completed hold).1, ?_⟩
    intro id r' hr'
    rcases hbatches hr' with ⟨r, hr, hs, -⟩ | ⟨-, -, hrun⟩
    · rw [hs]
      exact (h.completed hold).2 hr
    · simp [hrun] at hold
  · intro hdone
    have hold := hstate.symm.trans hdone
    constructor
    · intro id r' hr'
      rcases hbatches hr' with ⟨r, hr, hs, -⟩ | ⟨-, -, hrun⟩
      · rw [hs]
        exact (h.cancelled hold).1 hr
      · simp [hrun] at hold
    · intro task
      rw [← Option.map_eq_none_iff, hleases, (h.cancelled hold).2, Option.map_none]
  · exact fun hfailed => h.not_failed (hstate.symm.trans hfailed)

/-- A change of the job record that keeps its state and its counters. -/
theorem Rows.Sound.of_job (h : rows.Sound)
    (hcounts : ∀ state, rows'.job.stateCount state = rows.job.stateCount state := by
      exact fun _ => rfl)
    (hfailed : rows'.job.failedFileCount = rows.job.failedFileCount := by rfl)
    (hstate : rows'.job.state = rows.job.state := by rfl)
    (hscan : rows.job.state = .completed → rows'.job.scanFinished = rows.job.scanFinished := by
      exact fun _ => rfl)
    (hbatches : rows'.batches = rows.batches := by rfl)
    (hstates : rows'.batchStates = rows.batchStates := by rfl)
    (hissues : rows'.fileIssues = rows.fileIssues := by rfl)
    (hleases : rows'.workerLeases = rows.workerLeases := by rfl) : rows'.Sound := by
  refine h.of_scan (h.booked.of_job hcounts hbatches hstates) ?_ hstate hscan
    (fun _ => by rw [hleases]) ?_
  · rw [hissues, hfailed]
    exact h.issues
  intro id r' hr'
  rw [hbatches] at hr'
  exact .inl ⟨r', hr', rfl, rfl, rfl⟩

variable {job : JobRecord} {result : ScanResult Blob} {lease : WorkerLease}
  {workerId workerTaskId : String} {acc : Rows Blob × ℕ}

section

variable (h : rows.Accounted use)
include h

/-- A change of the job record that keeps its state and its counters. -/
theorem Rows.Accounted.withJob (hcounts : ∀ state, job.stateCount state = rows.job.stateCount state)
    (hfailed : job.failedFileCount = rows.job.failedFileCount) (hstate : job.state = rows.job.state)
    (hscan : rows.job.state = .completed → job.scanFinished = rows.job.scanFinished) :
    Rows.Accounted use { rows with job := job } :=
  ⟨h.toSound.of_job hcounts hfailed hstate hscan,
    h.toKeyed.congr ⟨fun _ => rfl, rfl, fun _ => rfl, rfl⟩⟩

theorem Rows.Accounted.inserts (hrun : rows.job.state = .running) {batch : BatchWire Blob}
    {root : String} {stats : ℤ × ℤ × ℤ} (huse : use batch.batchId = (root, batch.batchKind))
    (hins : Inserts rows batch root stats rows') : rows'.Accounted use := by
  refine ⟨?_, h.toKeyed.inserts huse hins⟩
  cases hins with
  | counted | dropped => exact h.toSound
  | @recounted existingId record known stored same infos =>
    refine h.toSound.of_scan (h.booked.rewrite stored rfl rfl rfl fun _ => rfl) h.issues rfl
      (fun _ => rfl) (fun _ => rfl) ?_
    intro id r' hr'
    left
    obtain ⟨rfl, rfl⟩ | ⟨-, hr'⟩ := lookup_insert_cases hr'
    · exact ⟨record, stored, rfl, rfl, rfl⟩
    · exact ⟨r', hr', rfl, rfl, rfl⟩
  | @stored m new content =>
    have hid := h.toKeyed.new_id huse new
    refine h.toSound.of_scan (h.booked.store hid) h.issues rfl (fun _ => rfl) (fun _ => rfl) ?_
    intro id r' hr'
    obtain ⟨-, rfl⟩ | ⟨-, hr'⟩ := lookup_insert_cases hr'
    · exact .inr ⟨rfl, rfl, hrun⟩
    · exact .inl ⟨r', hr', rfl, rfl, rfl⟩

/-- What each inserted batch and each change of the job record keeps, the batches of a scan keep. -/
theorem Rows.Accounted.scanBatches_invariant {I : Rows Blob → Prop}
    (hjob : ∀ {rows : Rows Blob} {job : JobRecord}, I rows → job.state = rows.job.state →
      I { rows with job := job }) (hinserts : ∀ {rows rows' batch root stats}, rows.Accounted use →
      use batch.batchId = (root, batch.batchKind) → Inserts rows batch root stats rows' →
      I rows → I rows') (hrun : rows.job.state = .running) (hI : I rows)
    (huse : Call.Fits use rows (.scanAppend result))
    (happly : applyTransferScanBatches rows result = .ok rows') :
    rows'.Accounted use ∧ rows'.job.state = .running ∧ I rows' := by
  have hstart : Rows.Accounted use { rows with job := { rows.job with lastError := "" } } :=
    h.withJob (fun state => by cases state <;> rfl) rfl rfl fun _ => rfl
  refine applyBatches_invariant
    (I := fun rows => rows.Accounted use ∧ rows.job.state = .running ∧ I rows) ?_ huse
    ⟨hstart, hrun, hjob hI rfl⟩ happly
  rintro rows₁ rows₂ b hb ⟨h₁, hrun₁, hI₁⟩ hbatch
  obtain ⟨root, stats, rows₃, hroot, hins, rfl⟩ := applyBatch_cases hbatch
  have huse₁ := hb root hroot
  refine ⟨(h₁.inserts hrun₁ huse₁ hins).withJob (stateCount_discover _ _) rfl rfl fun _ => rfl, ?_,
    hjob (hinserts h₁ huse₁ hins hI₁) rfl⟩
  cases hins with
  | counted | recounted | dropped | stored => exact hrun₁

theorem Rows.Accounted.scanBatches (hrun : rows.job.state = .running)
    (huse : Call.Fits use rows (.scanAppend result))
    (happly : applyTransferScanBatches rows result = .ok rows') : rows'.Accounted use :=
  (h.scanBatches_invariant (I := fun _ => True) (fun _ _ => trivial) (fun _ _ _ _ => trivial) hrun
    trivial huse happly).1

end

/-! ### Workers -/

/-- A move that keeps root, kind and manifest. -/
theorem sameContent_move {record' : BatchRecord} (hr : rows.batches.lookup batchId = some record)
    (hcontent : record'.content = record.content) (previous : BatchState)
    (leases : Table String WorkerLease) :
    SameContent rows { rows.moveBatch batchId previous record' with workerLeases := leases } :=
  ⟨map_lookup_insert hr hcontent, rfl, fun _ => rfl, rfl⟩

theorem holds_iff : lease.holds workerId batchId = true ↔
      lease.workerId = workerId ∧ lease.assignedBatchId = batchId := by
  simp [WorkerLease.holds]

/-- The lease of a task is for one batch, so taking it back hits no other running batch. -/
theorem hasLease_erase {id : String} {r : BatchRecord} (hself : rows.HasLease batchId record)
    (hother : rows.HasLease id r) (hne : id ≠ batchId) :
    Rows.HasLease { rows with workerLeases := rows.workerLeases.erase record.ownerWorkerTaskId } id
      r := by
  obtain ⟨-, lease, hlease, hholds⟩ := hself
  obtain ⟨howner, lease', hlease', hholds'⟩ := hother
  refine ⟨howner, lease', ?_, hholds'⟩
  rw [lookup_erase_eq, if_neg, hlease']
  intro htask
  rw [htask, hlease] at hlease'
  cases hlease'
  exact hne ((holds_iff.1 hholds').2.symm.trans (holds_iff.1 hholds).2)

theorem Rows.Accounted.assign (h : rows.Accounted use) {a : Assignment} (hworker : a.workerId ≠ "")
    (htask : rows.workerLeases.lookup a.workerTaskId = none)
    (happly : assignTransferBatchToWorker rows rows a = .ok rows') : rows'.Accounted use := by
  revert happly
  fun_cases assignTransferBatchToWorker rows rows a <;> intro happly <;> try cases happly
  next hrun batch hr hready =>
  obtain ⟨src, -, happly⟩ := bind_eq_ok.1 happly
  obtain ⟨dst, -, happly⟩ := bind_eq_ok.1 happly
  cases happly
  refine ⟨h.toSound.move hr (not_not.1 hready) (by simp) (.inl (not_not.1 hrun)) (by simp)
    (by simp) ?_ ?_, h.toKeyed.congr (sameContent_move hr (by rfl) _ _)⟩
  · intro _ _
    exact ⟨hworker, _, AList.lookup_insert _, by simp [WorkerLease.holds]⟩
  intro _ id r _ hid hstate hlease
  obtain ⟨howner, lease, hlookup, hholds⟩ := hlease
  refine ⟨howner, lease, ?_, hholds⟩
  rw [lookup_insert_eq, if_neg, hlookup]
  intro heq
  rw [heq, htask] at hlookup
  cases hlookup

theorem ownedBy_iff : batch.ownedBy workerId workerTaskId = true ↔ batch.state = .running ∧
      batch.ownerWorkerId = workerId ∧ batch.ownerWorkerTaskId = workerTaskId := by
  simp [BatchRecord.ownedBy]

section

variable (h : rows.Accounted use)
include h

/-- A batch of a stopping job is cancelled, and the lease of its owner goes. -/
theorem Rows.Accounted.cancelOpenBatch (hstop : rows.job.state = .stopping)
    (hr : rows.batches.lookup batchId = some batch) (hopen : batch.state ≠ .cancelled) :
    (cancelOpenBatch rows batchId batch).Accounted use := by
  refine ⟨h.toSound.move hr rfl hopen (.inr hstop) (fun _ => rfl) ?_ ?_ ?_,
    h.toKeyed.congr (sameContent_move hr (by rfl) _ _)⟩
  · intro hrun
    simp [hstop] at hrun
  · intro hrun
    simp [hstop] at hrun
  · intro hrun
    simp [hstop] at hrun

theorem Rows.Accounted.eraseLease (hjob : rows.job.state ≠ .running) (task : String) :
    Rows.Accounted use { rows with workerLeases := rows.workerLeases.erase task } := by
  refine ⟨h.toSound.leases hjob ?_, h.toKeyed.congr ⟨fun _ => rfl, rfl, fun _ => rfl, rfl⟩⟩
  intro task' hnone
  rw [lookup_erase_eq]
  split
  · rfl
  · exact hnone

theorem Rows.Accounted.stopWorker (hjob : rows.job.state = .stopping ∨ rows.job.state = .cancelled)
    (batchId workerId workerTaskId : String) :
    (stopWorkerForStoppingJob rows batchId workerId workerTaskId).Accounted use := by
  have hnot : rows.job.state ≠ .running := by
    rcases hjob with hjob | hjob
    · simp [hjob]
    · simp [hjob]
  unfold stopWorkerForStoppingJob
  split
  · next batch hr =>
    split
    · next howned =>
      have hrunning := (ownedBy_iff.1 howned).1
      rcases hjob with hstop | hcancelled
      · exact h.cancelOpenBatch hstop hr (by simp [hrunning])
      · rcases (h.cancelled hcancelled).1 hr with hstate | hstate
        · simp [hrunning] at hstate
        · simp [hrunning] at hstate
    · exact h.eraseLease hnot workerTaskId
  · exact h.eraseLease hnot workerTaskId

/-- A change of the file issues and their number. -/
theorem Rows.Accounted.withIssues {issues : Table (String × String) String}
    (hcounts : ∀ state, job.stateCount state = rows.job.stateCount state)
    (hstate : job.state = rows.job.state) (hscan : job.scanFinished = rows.job.scanFinished)
    (hissues : issues.entries.length < 2 ^ 63 → job.failedFileCount = issues.entries.length) :
    Rows.Accounted use { rows with job := job, fileIssues := issues } := by
  refine ⟨h.toSound.of_scan (h.booked.of_job hcounts) hissues hstate (fun _ => hscan)
    (fun _ => rfl) ?_, h.toKeyed.congr ⟨fun _ => rfl, rfl, fun _ => rfl, rfl⟩⟩
  exact fun hr => .inl ⟨_, hr, rfl, rfl, rfl⟩

theorem Rows.Accounted.recordFileIssue (batchId : String)
    (failed : String × String) : (recordFileIssue batchId rows failed).Accounted use := by
  unfold TransferJob.recordFileIssue
  cases hold : rows.fileIssues.lookup (batchId, failed.1) with
  | some detail =>
    refine h.withIssues (fun _ => rfl) rfl rfl ?_
    rw [length_insert_of_lookup hold]
    exact h.issues
  | none =>
    refine h.withIssues (fun state => by cases state <;> rfl) rfl rfl ?_
    rw [length_insert_of_lookup_none hold]
    intro hlen
    have hcount := h.issues (by omega)
    show saturatingAddI64 rows.job.failedFileCount 1 = _
    rw [hcount, saturatingAddI64]
    omega

/-- Collect infos that are marked stay the same blobs. -/
theorem Rows.Accounted.markInfos {infos : Table String (CollectInfoRecord Blob)}
    (hinfos : ∀ id, (infos.lookup id).map CollectInfoRecord.collectBlob =
      (rows.collectInfos.lookup id).map CollectInfoRecord.collectBlob) :
    Rows.Accounted use { rows with collectInfos := infos } :=
  ⟨h.toSound.of_job, h.toKeyed.congr ⟨fun _ => rfl, rfl, hinfos, rfl⟩⟩

theorem Rows.Accounted.acceptResult (hrun : rows.job.state = .running) {result : WorkerResult}
    (hr : rows.batches.lookup result.batchId = some batch)
    (howned : batch.ownedBy result.workerId result.workerTaskId = true)
    (happly : acceptWorkerResult rows batch result = .ok (answer, rows')) :
    rows'.Accounted use := by
  obtain ⟨hrunning, -, htask⟩ := ownedBy_iff.1 howned
  have hmoved : Rows.Accounted use
      { rows.moveBatch result.batchId .running (batch.released .done) with
        workerLeases := rows.workerLeases.erase result.workerTaskId } := by
    refine ⟨h.toSound.move hr hrunning (by simp) (.inl hrun) (fun _ => rfl)
      (fun _ => by simp [BatchRecord.released]) (fun _ hdone => nomatch hdone) ?_,
      h.toKeyed.congr (sameContent_move hr (by rfl) _ _)⟩
    intro _ id r hne hid hstate hlease
    rw [← htask]
    exact hasLease_erase (h.leased (by simp [hrun]) hr hrunning) hlease hne
  have hrecorded : ∀ (failed : List (String × String)) (rows₁ : Rows Blob),
      rows₁.Accounted use → (failed.foldl (TransferJob.recordFileIssue result.batchId)
        rows₁).Accounted use := by
    intro failed
    induction failed with
    | nil => exact fun rows₁ h₁ => h₁
    | cons f fs ih => exact fun rows₁ h₁ => ih _ (h₁.recordFileIssue result.batchId f)
  have hdone := hrecorded result.failedFileResults _ hmoved
  unfold acceptWorkerResult at happly
  dsimp only at happly
  split at happly
  · split at happly
    · cases happly
    · next info hinfo =>
      cases happly
      exact hdone.markInfos (map_lookup_insert hinfo rfl)
  · cases happly
    exact hdone

theorem Rows.Accounted.workerResult {result : WorkerResult}
    (happly : applyTransferWorkerResult rows rows result = .ok (answer, rows')) :
    rows'.Accounted use := by
  revert happly
  fun_cases applyTransferWorkerResult rows rows result <;> intro happly <;> try cases happly
  · next hjob => exact h.stopWorker hjob _ _ _
  · next hnot => exact h.eraseLease hnot _
  · exact h
  · exact h
  · next hrun _ hr howned _ _ _ => exact h.acceptResult (not_not.1 hrun) hr howned happly
  · exact h
  · exact h

/-- The batch and its lease are given a new expiry. -/
theorem Rows.Accounted.renew (hr : rows.batches.lookup batchId = some batch)
    (hlease : rows.workerLeases.lookup workerTaskId = some lease) (expire : ℤ) :
    Rows.Accounted use { rows with
      batches := rows.batches.insert batchId { batch with leaseExpireUnixMs := expire }
      workerLeases := rows.workerLeases.insert workerTaskId
        { lease with leaseExpireUnixMs := expire } } := by
  have hlookup : ∀ {id r'}, (rows.batches.insert batchId
      { batch with leaseExpireUnixMs := expire }).lookup id = some r' →
      ∃ r, rows.batches.lookup id = some r ∧ r'.state = r.state ∧
        r'.ownerWorkerId = r.ownerWorkerId ∧ r'.ownerWorkerTaskId = r.ownerWorkerTaskId := by
    intro id r' hr'
    obtain ⟨rfl, rfl⟩ | ⟨-, hr'⟩ := lookup_insert_cases hr'
    · exact ⟨batch, hr, rfl, rfl, rfl⟩
    · exact ⟨r', hr', rfl, rfl, rfl⟩
  refine ⟨h.toSound.of_scan (h.booked.rewrite hr rfl rfl rfl fun _ => rfl) h.issues rfl
    (fun _ => rfl) (map_lookup_insert hlease rfl) fun hr' => .inl (hlookup hr'),
    h.toKeyed.congr ⟨map_lookup_insert hr rfl, rfl, fun _ => rfl, rfl⟩⟩

theorem Rows.Accounted.heartbeat {message : Heartbeat}
    (happly : applyTransferWorkerHeartbeat rows rows message = .ok (answer, rows')) :
    rows'.Accounted use := by
  revert happly
  fun_cases applyTransferWorkerHeartbeat rows rows message <;> rintro ⟨⟩
  · next hjob => exact h.stopWorker hjob _ _ _
  · next hnot => exact h.eraseLease hnot _
  · exact h
  · exact h
  · next hr _ _ hlease _ => exact h.renew hr hlease _
  · exact h
  · exact h

end

/-! ### Reconciliation -/

/-- The rows in the course of a reconciliation: the batches that are still to come are as they were
loaded, and leases have only been taken back. -/
structure Reconciling (use : String → String × BatchKind) (snap rows : Rows Blob)
    (todo : List ((_ : String) × BatchRecord)) : Prop where
  accounted : rows.Accounted use
  running : rows.job.state = .running
  loaded : ∀ e ∈ todo, rows.batches.lookup e.1 = some e.2
  leases : ∀ {task lease}, rows.workerLeases.lookup task = some lease →
    snap.workerLeases.lookup task = some lease

section

variable (h : Reconciling use snap rows (e :: todo))
include h

/-- A batch goes back to the queue, and the lease of its owner may be taken back. -/
theorem Reconciling.requeue (hkeys : (e :: todo).NodupKeys) (hopen : e.2.state ≠ .cancelled)
    {leases : Table String WorkerLease} (hleases : leases = rows.workerLeases ∨
      (e.2.state = .running ∧ leases = rows.workerLeases.erase e.2.ownerWorkerTaskId)) :
    Reconciling use snap
      { rows.moveBatch e.1 e.2.state (e.2.released .ready) with workerLeases := leases } todo := by
  have hr := h.loaded e (by simp)
  refine ⟨⟨h.accounted.toSound.move hr rfl hopen (.inl h.running) (fun _ => rfl)
    (fun _ => by simp [BatchRecord.released]) (fun _ hready => nomatch hready) ?_,
    h.accounted.toKeyed.congr (sameContent_move hr (by rfl) _ _)⟩,
    (moveBatch_state _ e.1 _ _).trans h.running, ?_, ?_⟩
  · intro _ id r hne _ _ hlease
    rcases hleases with rfl | ⟨hrunning, rfl⟩
    · exact hlease
    · exact hasLease_erase (h.accounted.leased (by simp [h.running]) hr hrunning) hlease hne
  · intro e' he'
    have hne : e'.1 ≠ e.1 := by
      intro heq
      have hnot := (List.nodupKeys_cons.1 hkeys).1
      exact hnot (heq ▸ List.mem_keys_of_mem he')
    exact (AList.lookup_insert_ne hne).trans (h.loaded e' (by simp [he']))
  · intro task lease hlease
    rcases hleases with rfl | ⟨-, rfl⟩
    · exact h.leases hlease
    · exact h.leases (lookup_of_erase hlease).2

theorem Reconciling.skip : Reconciling use snap rows todo :=
  ⟨h.accounted, h.running, fun e' he' => h.loaded e' (by simp [he']), h.leases⟩

theorem Reconciling.step (hkeys : (e :: todo).NodupKeys)
    (now : ℤ) : Reconciling use snap (reconcileBatch snap now rows e.1 e.2) todo := by
  unfold reconcileBatch
  split
  · next hstate =>
    rw [← hstate]
    exact h.requeue hkeys (by simp [hstate]) (.inl rfl)
  · next hstate =>
    split
    · rw [← hstate]
      exact h.requeue hkeys (by simp [hstate]) (.inl rfl)
    split
    · exact h.skip
    dsimp only
    split
    · rw [← hstate]
      refine h.requeue hkeys (by simp [hstate]) ?_
      split
      · exact .inr ⟨hstate, rfl⟩
      · exact .inl rfl
    · exact h.skip
  · exact h.skip

end

theorem Reconciling.fold (now : ℤ) (hkeys : todo.NodupKeys) (h : Reconciling use snap rows todo) :
    Reconciling use snap (todo.foldl (fun acc e => reconcileBatch snap now acc e.1 e.2) rows)
      [] := by
  induction todo generalizing rows with
  | nil => exact h
  | cons e todo ih => exact ih (List.nodupKeys_cons.1 hkeys).2 (h.step hkeys now)

theorem completeIfDone_batches (rows : Rows Blob) : rows.completeIfDone.batches = rows.batches ∧
      rows.completeIfDone.fileIssues = rows.fileIssues := by
  unfold completeIfDone
  split
  · exact ⟨rfl, rfl⟩
  · exact ⟨rfl, rfl⟩

theorem Rows.Accounted.complete (h : rows.Accounted use) (hsmall : rows.completeIfDone.Small)
    (hrun : rows.job.state = .running) : rows.completeIfDone.Accounted use := by
  have hsmall' : rows.Small := by
    unfold Rows.Small at hsmall ⊢
    rwa [(completeIfDone_batches rows).1, (completeIfDone_batches rows).2] at hsmall
  refine ⟨h.toSound.complete hsmall' hrun, h.toKeyed.congr ?_⟩
  unfold completeIfDone
  split
  · exact ⟨fun _ => rfl, rfl, fun _ => rfl, rfl⟩
  · exact ⟨fun _ => rfl, rfl, fun _ => rfl, rfl⟩

theorem Rows.Accounted.reconcileDone (h : rows.Accounted use) (batchId : String)
    (finished materialized : Bool)
    (hsmall : (reconcileDoneBatch rows rows batchId finished materialized).Small) :
    (reconcileDoneBatch rows rows batchId finished materialized).Accounted use := by
  revert hsmall
  fun_cases reconcileDoneBatch rows rows batchId finished materialized <;> intro hsmall <;>
    try exact h
  next hrun batch hr hdone _ =>
    have hrunning := not_not.1 hrun
    have hmoved : Rows.Accounted use (rows.moveBatch batchId .done
        (batch.released (if finished then .finished else .ready))) := by
      refine ⟨h.toSound.move hr (not_not.1 hdone) (by simp) (.inl hrunning) (fun _ => rfl) ?_ ?_
        (fun _ _ _ _ _ _ hlease => hlease),
        h.toKeyed.congr (sameContent_move hr (by rfl) _ _)⟩
      · cases finished <;> simp [BatchRecord.released]
      · intro _ hstate
        cases finished <;> simp [BatchRecord.released] at hstate
    refine (hmoved.markInfos ?_).complete hsmall ((moveBatch_state _ batchId _ _).trans hrunning)
    intro id
    rw [lookup_modify]
    split
    · next heq =>
      rw [heq, Option.map_map]
      rfl
    · rfl

/-- The rows of a stopping job in the course of its cleanup. -/
def Stopping (use : String → String × BatchKind) (rows : Rows Blob) : Prop :=
  rows.Accounted use ∧ rows.job.state = .stopping

theorem Stopping.cleanupBatch (h : Stopping use acc.1) {state : BatchState}
    (hopen : state ≠ .cancelled) (batchId : String) :
    Stopping use (cleanupBatch state acc batchId).1 := by
  have hstale : (∀ {record}, acc.1.batches.lookup batchId = some record → record.state ≠ state) →
      Stopping use { acc.1 with batchStates := acc.1.batchStates.erase (state, batchId) } := by
    intro hnone
    have hbooked : Rows.Booked
        { acc.1 with batchStates := acc.1.batchStates.erase (state, batchId) } := by
      refine ⟨?_, h.1.booked.counts⟩
      intro s id
      rw [lookup_erase_eq]
      split
      · next heq =>
        rw [Prod.mk.injEq] at heq
        obtain ⟨rfl, rfl⟩ := heq
        constructor
        · intro hf
          cases hf
        · rintro ⟨record, hr, hs⟩
          exact absurd hs (hnone hr)
      · exact h.1.booked.index s id
    refine ⟨⟨?_, h.1.toKeyed.congr ⟨fun _ => rfl, rfl, fun _ => rfl, rfl⟩⟩, h.2⟩
    exact h.1.toSound.of_scan hbooked h.1.issues rfl (fun _ => rfl) (fun _ => rfl)
      fun hr => .inl ⟨_, hr, rfl, rfl, rfl⟩
  fun_cases TransferJob.cleanupBatch state acc batchId
  · next hnone => exact hstale fun hr => nomatch hnone.symm.trans hr
  · next batch hr hne =>
    refine hstale ?_
    intro record hr'
    cases hr.symm.trans hr'
    exact hne
  · next batch hr heq =>
    have hstate := not_not.1 heq
    exact ⟨h.1.cancelOpenBatch h.2 hr (by rw [hstate]; exact hopen),
      (moveBatch_state _ batchId _ _).trans h.2⟩

theorem Stopping.cleanupState (h : Stopping use acc.1) (state : BatchState)
    (hopen : state ≠ .cancelled) : Stopping use (cleanupState acc state).1 := by
  have hfold : ∀ (ids : List String) (acc : Rows Blob × ℕ), Stopping use acc.1 →
      Stopping use (ids.foldl (TransferJob.cleanupBatch state) acc).1 := by
    intro ids
    induction ids with
    | nil => exact fun acc h => h
    | cons id ids ih => exact fun acc h => ih _ (h.cleanupBatch hopen id)
  exact hfold _ _ h

theorem Stopping.leases (h : Stopping use rows) (leases : Table String WorkerLease) :
    Stopping use { rows with workerLeases := leases } := by
  refine ⟨⟨⟨h.1.booked.of_job, h.1.issues, h.1.idle, ?_, h.1.active,
    h.1.completed, ?_, h.1.not_failed⟩, h.1.toKeyed.congr ⟨fun _ => rfl, rfl, fun _ => rfl, rfl⟩⟩,
    h.2⟩
  · intro hns
    exact absurd h.2 hns
  · intro hdone
    have hstop := h.2
    rw [show rows.job.state = .cancelled from hdone] at hstop
    cases hstop

theorem Rows.Accounted.reconcileStopping (h : rows.Accounted use)
    (hstop : rows.job.state = .stopping) (hsmall : (reconcileStoppingJob rows).Small) :
    (reconcileStoppingJob rows).Accounted use := by
  revert hsmall
  unfold reconcileStoppingJob
  dsimp only
  have hcleaned : Stopping use ([.running, .done, .ready, .expired].foldl cleanupState
      (rows, stopCleanupLimit)).1 := by
    have h₀ : Stopping use ((rows, stopCleanupLimit) : Rows Blob × ℕ).1 := ⟨h, hstop⟩
    have h₁ := h₀.cleanupState .running (by simp)
    have h₂ := h₁.cleanupState .done (by simp)
    have h₃ := h₂.cleanupState .ready (by simp)
    exact h₃.cleanupState .expired (by simp)
  generalize ([.running, .done, .ready, .expired].foldl cleanupState
    (rows, stopCleanupLimit)).1 = cleaned at hcleaned ⊢
  have hreleased := hcleaned.leases (((cleaned.workerLeases.keys.insertionSort (· ≤ ·)).take
    stopCleanupLimit).foldl (fun t task => t.erase task) cleaned.workerLeases)
  split
  · exact fun _ => hreleased.1
  · next hdone =>
    intro hsmall
    push Not at hdone
    obtain ⟨hzero, hkeys⟩ := hdone
    refine ⟨⟨hreleased.1.booked.of_job, hreleased.1.issues, hreleased.1.idle, ?_, ?_, ?_, ?_, ?_⟩,
      hreleased.1.toKeyed.congr ⟨fun _ => rfl, rfl, fun _ => rfl, rfl⟩⟩
    · intro _ id r hr hrunning
      rcases openBatchCount_eq_zero hreleased.1.booked hsmall hzero hr with hstate | hstate
      · simp [hrunning] at hstate
      · simp [hrunning] at hstate
    · intro hstate
      cases hstate
    · intro hstate
      cases hstate
    · intro _
      refine ⟨fun hr => openBatchCount_eq_zero hreleased.1.booked hsmall hzero hr, ?_⟩
      intro task
      rw [AList.lookup_eq_none]
      intro hmem
      have hkey := AList.mem_keys.1 hmem
      rw [hkeys] at hkey
      cases hkey
    · intro hstate
      cases hstate

theorem Rows.Accounted.reconcile (h : rows.Accounted use) (now : ℤ)
    (hsmall : (reconcileSingleJob rows rows now).Small) :
    (reconcileSingleJob rows rows now).Accounted use := by
  revert hsmall
  unfold reconcileSingleJob
  split
  · next hstop => exact h.reconcileStopping hstop
  split
  · exact fun _ => h
  · next hrun =>
    intro hsmall
    have hstart : Reconciling use rows rows rows.batches.entries :=
      ⟨h, not_not.1 hrun, fun e he => mem_entries_iff.1 he, fun hl => hl⟩
    have hend := hstart.fold now rows.batches.nodupKeys
    exact hend.accounted.complete hsmall hend.running

/-! ## Every sequence of calls -/

theorem Rows.Accounted.call {call : Call Blob} (h : rows.Accounted use) (hfits : call.Fits use rows)
    (hsmall : rows'.Small) (happly : call.apply rows = .ok rows') : rows'.Accounted use := by
  cases call with
  | scanAppend result =>
    rcases applyTransferScanAppend_cases happly with ⟨-, rfl⟩ | ⟨hrun, -, hbatches⟩
    · exact h
    · exact h.scanBatches hrun hfits hbatches
  | scanResult result =>
    rcases applyTransferScanResult_cases happly with ⟨-, rfl⟩ |
      ⟨root, rows₁, hrun, -, -, hbatches, rfl⟩
    · exact h
    · have h₁ := h.scanBatches hrun hfits hbatches
      split
      · exact h₁
      · exact ⟨h₁.toSound.of_job, h₁.toKeyed.congr ⟨fun _ => rfl, rfl, fun _ => rfl, rfl⟩⟩
  | beginEpoch =>
    obtain ⟨hrun, rfl⟩ := beginTransferScanEpoch_cases happly
    exact h.withJob (fun state => by cases state <;> rfl) rfl rfl
      fun hdone => absurd hrun (by simp [hdone])
  | finishEpoch scanEpoch =>
    simp only [Call.apply, finishTransferScanEpoch] at happly
    split at happly
    · cases happly
    · next hrun =>
      cases happly
      push Not at hrun
      exact h.withJob (fun state => by cases state <;> rfl) rfl rfl
        fun hdone => absurd hrun.1 (by simp [hdone])
  | assign a => exact h.assign hfits.1 hfits.2 happly
  | workerResult result =>
    obtain ⟨_, hresult, rfl⟩ := map_eq_ok.1 happly
    exact h.workerResult hresult
  | heartbeat message =>
    obtain ⟨_, hresult, rfl⟩ := map_eq_ok.1 happly
    exact h.heartbeat hresult
  | reconcile now =>
    cases happly
    exact h.reconcile now hsmall
  | reconcileDone batchId finished materialized =>
    cases happly
    exact h.reconcileDone batchId finished materialized hsmall
  | cancel =>
    simp only [Call.apply, cancelTransferJob] at happly
    split at happly
    · cases happly
      exact h
    split at happly
    · cases happly
    cases happly
    refine ⟨⟨h.booked.of_job, h.issues, h.idle, ?_,
      ?_, ?_, ?_, ?_⟩, h.toKeyed.congr ⟨fun _ => rfl, rfl, fun _ => rfl, rfl⟩⟩
    · intro hns
      exact absurd rfl hns
    all_goals
      intro hstate
      cases hstate

theorem accounted_created (use : String → String × BatchKind) (jobId : String) :
    (created jobId : Rows Blob).Accounted use := by
  refine ⟨⟨⟨?_, ?_⟩, ?_, ?_, ?_, ?_, ?_, ?_, ?_⟩, keyed_created use jobId⟩
  · intro state batchId
    constructor
    · intro h
      cases h
    · rintro ⟨record, hr, -⟩
      cases hr
  · intro _ state _
    cases state <;> rfl
  · intro _
    rfl
  · intro batchId record hr
    cases hr
  · intro _ batchId record hr
    cases hr
  · intro _ batchId record hr
    cases hr
  · intro h
    cases h
  · intro h
    cases h
  · intro h
    cases h

/-- The calls from the creation of a job on. -/
def Called (rows : Rows Blob) (call : Call Blob) (rows' : Rows Blob) : Prop :=
  call.apply rows = .ok rows'

/-- What is asked of each call and of the rows it meets. -/
def Call.Allowed (use : String → String × BatchKind) (rows : Rows Blob) (call : Call Blob) : Prop :=
  call.Fits use rows ∧ rows.Small

/-- **Accounting and completion of a job.** After every sequence of calls in which batch ids keep to
one root and kind, workers have ids and an assignment is for a worker task without a lease, and in
which there are fewer than `2 ^ 63` batches and file issues: each batch has the one key of its state
in the state index, each counter is the number of batches in its state, and the failed-file counter
is the number of file issues; while the job is not stopping, a batch runs exactly if it has an
owner with a lease for it; a completed job has a finished scan and only finished batches; and a
cancelled job has no open batch and no lease. -/
theorem job_accounted {use : String → String × BatchKind} {jobId : String}
    {calls : List (Call Blob)} {rows : Rows Blob}
    (hrun : Run (Guarded (Call.Allowed use) Called) (created jobId) calls rows)
    (hsmall : rows.Small) :
    (∀ state batchId, rows.batchStates.lookup (state, batchId) = some () ↔
      ∃ record, rows.batches.lookup batchId = some record ∧ record.state = state) ∧
    (∀ state, state ≠ .cancelled → rows.job.stateCount state = rows.countIn state) ∧
    rows.job.failedFileCount = rows.fileIssues.entries.length ∧
    (rows.job.state ≠ .stopping → ∀ batchId record, rows.batches.lookup batchId = some record →
      (record.state = .running ↔ rows.HasLease batchId record)) ∧
    (rows.job.state = .completed → rows.job.scanFinished = true ∧ ∀ batchId record,
      rows.batches.lookup batchId = some record → record.state = .finished) ∧
    (rows.job.state = .cancelled → (∀ batchId record, rows.batches.lookup batchId = some record →
      record.state = .finished ∨ record.state = .cancelled) ∧
      ∀ task, rows.workerLeases.lookup task = none) := by
  have haccounted : rows.Small → rows.Accounted use := by
    refine Run.invariant (I := fun rows => rows.Small → rows.Accounted use) ?_ hrun
      fun _ => accounted_created use jobId
    intro rows call rows' h hstep hsmall'
    exact (h hstep.1.2).call hstep.1.1 hsmall' hstep.2
  have h := haccounted hsmall
  refine ⟨h.booked.index, h.booked.counts hsmall.1, h.issues hsmall.2, ?_, ?_, ?_⟩
  · intro hns batchId record hr
    refine ⟨h.leased hns hr, ?_⟩
    intro hlease
    by_contra hnot
    exact hlease.1 (h.idle hr hnot)
  · intro hdone
    exact ⟨(h.completed hdone).1, fun _ _ hr => (h.completed hdone).2 hr⟩
  · intro hdone
    exact ⟨fun _ _ hr => (h.cancelled hdone).1 hr, (h.cancelled hdone).2⟩

end Calls

/-! ## Three runs -/

/-- `Call.Allowed` for the batches of one directory, as a check. -/
def allowedIn (rows : Rows (List SymlinkNotice)) : Call (List SymlinkNotice) → Bool
  | .scanAppend result =>
    (∀ b ∈ result.batches, b.rootRelpath = "x" ∧ b.batchKind = .directFilesOnly) ∧ rows.Small
  | .scanResult _ => false
  | .assign a => (a.workerId ≠ "" ∧ rows.workerLeases.lookup a.workerTaskId = none) ∧ rows.Small
  | _ => rows.Small

theorem allowed_of_allowedIn {rows : Rows (List SymlinkNotice)} {call : Call (List SymlinkNotice)}
    (h : allowedIn rows call = true) : call.Allowed idsOfDirectory rows := by
  have hx : normalizeTransferRootRelpath "x" = .ok "x" := by decide +kernel
  cases call with
  | scanAppend result =>
    obtain ⟨hall, hsmall⟩ := of_decide_eq_true h
    refine ⟨?_, hsmall⟩
    intro b hb root hroot
    obtain ⟨hpath, hkind⟩ := hall b hb
    rw [hpath] at hroot
    cases hx.symm.trans hroot
    rw [hkind]
    rfl
  | scanResult result => cases h
  | assign a =>
    obtain ⟨hfits, hsmall⟩ := of_decide_eq_true h
    exact ⟨hfits, hsmall⟩
  | _ => exact ⟨trivial, of_decide_eq_true h⟩

/-- A batch with two files is copied, one file fails, and the job completes. -/
def completedCalls : List (Call (List SymlinkNotice)) :=
  [.scanAppend (appendFiles "a" "x" ["x/p", "x/q"]), .finishEpoch 1,
    .assign ⟨"a", "src", "w", "t", "dst", 10⟩, .heartbeat ⟨"a", "w", "t", 5, 20⟩, .reconcile 12,
    .workerResult ⟨"a", "w", "t", [("x/q", "denied")], false⟩, .reconcileDone "a" true false]

theorem job_accounted_completed : ∃ rows : Rows (List SymlinkNotice),
    Run (Guarded (Call.Allowed idsOfDirectory) Called) (created "job") completedCalls rows ∧
    rows.job.state = .completed ∧ rows.job.failedFileCount = rows.fileIssues.entries.length ∧
    ∀ batchId record, rows.batches.lookup batchId = some record → record.state = .finished := by
  obtain ⟨rows, hrows, hdone, hsmall⟩ := Run.exists_guarded_of_foldlM
    (fun rows call => (Call.apply rows call).toOption) (created "job") completedCalls
    (fun rows => rows.job.state = .completed ∧ rows.Small) allowedIn (by decide +kernel)
  have hrun : Run (Guarded (Call.Allowed idsOfDirectory) Called) (created "job")
      completedCalls rows := by
    refine hrows.mono ?_
    intro rows call rows' hstep
    exact ⟨allowed_of_allowedIn hstep.1, toOption_eq_some.1 hstep.2⟩
  obtain ⟨-, -, hissues, -, hcompleted, -⟩ := job_accounted hrun hsmall
  exact ⟨rows, hrun, hdone, hissues, (hcompleted hdone).2⟩

/-- Whether a batch runs without a lease of its owner for it. -/
def Rows.runsUnleased (rows : Rows (List SymlinkNotice)) (batchId : String) : Bool :=
  (rows.batches.lookup batchId).any fun record => record.state = .running ∧
    (rows.workerLeases.lookup record.ownerWorkerTaskId).all
      fun lease => !lease.holds record.ownerWorkerId batchId

theorem Rows.not_leased_of_runsUnleased {rows : Rows (List SymlinkNotice)}
    (h : rows.runsUnleased batchId = true) : ∃ record,
      rows.batches.lookup batchId = some record ∧ record.state = .running ∧
        ¬ rows.HasLease batchId record := by
  obtain ⟨record, hr, hcheck⟩ := (Option.any_eq_true _ _).1 h
  obtain ⟨hrunning, hall⟩ := of_decide_eq_true hcheck
  refine ⟨record, hr, hrunning, ?_⟩
  rintro ⟨-, lease, hlease, hholds⟩
  rw [hlease] at hall
  simp [hholds] at hall

theorem exists_called_of_foldlM (calls : List (Call (List SymlinkNotice)))
    (p : Rows (List SymlinkNotice) → Prop) [DecidablePred p]
    (h : (calls.foldlM (fun rows call => (Call.apply rows call).toOption) (created "job")).any
      (fun rows => decide (p rows)) = true) :
    ∃ rows, Run Called (created "job") calls rows ∧ p rows := by
  obtain ⟨rows, hrun, hp⟩ := Run.exists_of_foldlM _ _ _ p h
  exact ⟨rows, hrun.mono fun _ _ _ => toOption_eq_some.1, hp⟩

/-- The task `t` is assigned the batches `a` and `b`. -/
def reusedTaskCalls : List (Call (List SymlinkNotice)) :=
  [.scanAppend (appendFiles "a" "x" ["x/p"]), .scanAppend (appendFiles "b" "x" ["x/q"]),
    .assign ⟨"a", "src", "w", "t", "dst", 10⟩, .assign ⟨"b", "src", "w", "t", "dst", 10⟩]

/-- **A worker task with two batches loses a lease.** The second assignment of the task writes over
the lease row of the first, and the first batch runs without a lease. -/
theorem reused_task_loses_lease : ∃ rows : Rows (List SymlinkNotice),
    Run Called (created "job") reusedTaskCalls rows ∧
    rows.job.state = .running ∧ ∃ record, rows.batches.lookup "a" = some record ∧
      record.state = .running ∧ ¬ rows.HasLease "a" record := by
  obtain ⟨rows, hrun, hstate, hunleased⟩ := exists_called_of_foldlM reusedTaskCalls
    (fun rows => rows.job.state = .running ∧ rows.runsUnleased "a" = true) (by decide +kernel)
  exact ⟨rows, hrun, hstate, not_leased_of_runsUnleased hunleased⟩

/-- A job is cancelled, and then the task of batch `a` sends a heartbeat for batch `b`. -/
def strayHeartbeatCalls : List (Call (List SymlinkNotice)) :=
  [.scanAppend (appendFiles "a" "x" ["x/p"]), .assign ⟨"a", "src", "w", "t", "dst", 10⟩, .cancel,
    .heartbeat ⟨"b", "w", "t", 5, 20⟩]

/-- **A stopping job has running batches without a lease.** A message that names another batch
takes the lease of its worker task back. -/
theorem stopping_running_without_lease : ∃ rows : Rows (List SymlinkNotice),
    Run Called (created "job") strayHeartbeatCalls rows ∧
    rows.job.state = .stopping ∧ ∃ record, rows.batches.lookup "a" = some record ∧
      record.state = .running ∧ ¬ rows.HasLease "a" record := by
  obtain ⟨rows, hrun, hstate, hunleased⟩ := exists_called_of_foldlM strayHeartbeatCalls
    (fun rows => rows.job.state = .stopping ∧ rows.runsUnleased "a" = true) (by decide +kernel)
  exact ⟨rows, hrun, hstate, not_leased_of_runsUnleased hunleased⟩

end Fluxon.TransferJob
