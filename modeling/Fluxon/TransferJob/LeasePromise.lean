import Fluxon.TransferJob.Accounting

/-!
# The promise of a heartbeat

A heartbeat that is answered `continue_running` with an expiry promises the worker its batch until
then. The store runs its methods as transactions side by side: `Act.start` takes the snapshot,
`Act.commit` locks what the method locks or writes and makes its writes. A heartbeat locks the batch
and the lease but not the job, reconciliation locks the job and decides from the batches and leases
of its snapshot. So a reconciliation that starts before a heartbeat and commits after it requeues
the batch on the old lease (`stale_reconcile_breaks_promise`).

Where no method decides on rows that have changed since its start and no heartbeat shortens a lease,
every promise is kept: `lease_promise_kept`. A heartbeat that overtakes a later one shortens the
lease without any overlap (`late_heartbeat_shortens_lease`).
-/

namespace Fluxon.TransferJob

open Call

open TransferScan (BatchKind)

variable {Blob : Type}

/-! ## Transactions side by side -/

/-- What a worker was told: its batch is its own until the expiry. -/
structure Promise where
  batchId : String
  workerId : String
  leaseExpireUnixMs : ℤ
  deriving DecidableEq, Repr

/-- The rows of a job, the snapshots of the open transactions and the promises that stand. -/
structure Shared (Blob : Type) where
  rows : Rows Blob
  snapshots : Table ℕ (Rows Blob)
  promises : List Promise

def Shared.created (jobId : String) : Shared Blob := ⟨Rows.created jobId, ∅, []⟩

inductive Act (Blob : Type)
  | start (tx : ℕ)
  | commit (tx : ℕ) (call : Call Blob)

/-! ## Promises that are backed -/

/-- A promise is backed by a running batch of the worker and a lease of its task that is not shorter
than the promise. -/
structure Backs (rows : Rows Blob) (p : Promise) (record : BatchRecord) (lease : WorkerLease) :
    Prop where
  stored : rows.batches.lookup p.batchId = some record
  running : record.state = .running
  owner : record.ownerWorkerId = p.workerId
  consistent : record.ownerIsConsistent = true
  leased : rows.workerLeases.lookup record.ownerWorkerTaskId = some lease
  holds : lease.holds p.workerId p.batchId = true
  expire : p.leaseExpireUnixMs ≤ lease.leaseExpireUnixMs

def Rows.Backed (rows : Rows Blob) (p : Promise) : Prop :=
  rows.job.state = .running ∧ ∃ record lease, Backs rows p record lease

variable {rows : Rows Blob} {p : Promise} {rows' : Rows Blob} {batchId workerTaskId : String}
  {record : BatchRecord} {lease : WorkerLease}

/-- The batch keeps its state and its owner, and the lease keeps its expiry. -/
theorem Rows.Backed.of_kept (h : rows.Backed p) (hjob : rows'.job.state = .running)
    (hbatch : ∀ {record lease}, Backs rows p record lease → ∃ record',
      rows'.batches.lookup p.batchId = some record' ∧ record'.state = record.state ∧
        record'.ownerWorkerId = record.ownerWorkerId ∧
        record'.ownerWorkerTaskId = record.ownerWorkerTaskId)
    (hlease : ∀ {record lease}, Backs rows p record lease →
      rows'.workerLeases.lookup record.ownerWorkerTaskId = some lease) : rows'.Backed p := by
  obtain ⟨-, record, lease, hbacks⟩ := h
  obtain ⟨record', hr', hstate, howner, htask⟩ := hbatch hbacks
  refine ⟨hjob, record', lease, hr', hstate.trans hbacks.running, howner.trans hbacks.owner, ?_, ?_,
    hbacks.holds, hbacks.expire⟩
  · rw [BatchRecord.ownerIsConsistent, howner, htask]
    exact hbacks.consistent
  · rw [htask]
    exact hlease hbacks

theorem Rows.Backed.congr (h : rows.Backed p) (hjob : rows'.job.state = .running)
    (hbatches : rows'.batches = rows.batches) (hleases : rows'.workerLeases = rows.workerLeases) :
    rows'.Backed p := by
  refine h.of_kept hjob ?_ ?_
  · intro record lease hbacks
    exact ⟨record, by rw [hbatches]; exact hbacks.stored, rfl, rfl, rfl⟩
  · intro record lease hbacks
    rw [hleases]
    exact hbacks.leased

/-- Another batch is moved, and leases of other tasks change. -/
theorem Rows.Backed.move (h : rows.Backed p)
    (hne : ∀ {record lease}, Backs rows p record lease → p.batchId ≠ batchId)
    {leases : Table String WorkerLease} (hlease : ∀ {record lease}, Backs rows p record lease →
      leases.lookup record.ownerWorkerTaskId = some lease) (previous : BatchState)
    (record' : BatchRecord) :
    Rows.Backed { rows.moveBatch batchId previous record' with workerLeases := leases } p := by
  refine h.of_kept ((moveBatch_state _ batchId _ _).trans h.1) ?_ hlease
  intro record lease hbacks
  exact ⟨record, (AList.lookup_insert_ne (hne hbacks)).trans hbacks.stored, rfl, rfl, rfl⟩

/-- The lease of another running batch is of another task. -/
theorem Backs.task_ne (h : Backs rows p record lease) {workerId : String} {other : WorkerLease}
    (hother : rows.workerLeases.lookup workerTaskId = some other)
    (hholds : other.holds workerId batchId = true) (hne : p.batchId ≠ batchId) :
    record.ownerWorkerTaskId ≠ workerTaskId := by
  intro htask
  have hlease := h.leased
  rw [htask, hother] at hlease
  cases hlease
  exact hne ((holds_iff.1 h.holds).2.symm.trans (holds_iff.1 hholds).2)

theorem Backs.leased_erase (h : Backs rows p record lease)
    (hne : record.ownerWorkerTaskId ≠ workerTaskId) :
    (rows.workerLeases.erase workerTaskId).lookup record.ownerWorkerTaskId = some lease := by
  rw [Table.lookup_erase_eq, if_neg hne]
  exact h.leased

theorem reconcileBatch_current {snap : Rows Blob} (h : snap.workerLeases = rows.workerLeases)
    (now : ℤ) : reconcileBatch snap now = reconcileBatch rows now := by
  unfold reconcileBatch
  rw [h]

section Acts

variable [DecidableEq Blob] [NoticeCodec Blob]

/-- A method that started on the snapshot `snap` commits. The scan methods, the changes of the epoch
and the stop of the job read what they decide on under the lock of the job row. -/
def Call.applyAt (snap rows : Rows Blob) : Call Blob → Except String (Option Answer × Rows Blob)
  | .assign a => (assignTransferBatchToWorker snap rows a).map (none, ·)
  | .workerResult result =>
    (applyTransferWorkerResult snap rows result).map fun (answer, rows') => (some answer, rows')
  | .heartbeat message =>
    (applyTransferWorkerHeartbeat snap rows message).map fun (answer, rows') => (some answer, rows')
  | .reconcile now => .ok (none, reconcileSingleJob snap rows now)
  | .reconcileDone batchId finished materialized =>
    .ok (none, reconcileDoneBatch snap rows batchId finished materialized)
  | call => (call.apply rows).map (none, ·)

/-- The promises that stand after a call: a heartbeat gives one; the result of the worker, the stop
of the job and a reconciliation at or after the expiry end it. -/
def Call.settle (call : Call Blob) (answer : Option Answer) (promises : List Promise) :
    List Promise :=
  match call, answer with
  | .heartbeat message, some (.continueRunning expire) =>
    ⟨message.batchId, message.workerId, expire⟩ :: promises
  | .workerResult result, some .accepted =>
    promises.filter fun p => ¬ (p.batchId = result.batchId ∧ p.workerId = result.workerId)
  | .cancel, _ => []
  | .reconcile now, _ => promises.filter fun p => now < p.leaseExpireUnixMs
  | _, _ => promises

/-- A transaction starts or commits. A method that fails is rolled back and changes nothing. -/
def Shared.act (s : Shared Blob) : Act Blob → Option (Shared Blob)
  | .start tx => some { s with snapshots := s.snapshots.insert tx s.rows }
  | .commit tx call => do
    let snap ← s.snapshots.lookup tx
    let (answer, rows) ← (call.applyAt snap s.rows).toOption
    return ⟨rows, s.snapshots.erase tx, call.settle answer s.promises⟩

/-- Every promise that stands is kept: the batch runs for the worker. -/
def Shared.Kept (s : Shared Blob) : Prop :=
  ∀ p ∈ s.promises, ∃ record, s.rows.batches.lookup p.batchId = some record ∧
    record.state = .running ∧ record.ownerWorkerId = p.workerId

/-! ## Calls on current rows -/

/-- The rows that a method decides on have not changed since its start. -/
def Call.Current (snap rows : Rows Blob) : Call Blob → Prop
  | .assign _ => snap.batches = rows.batches
  | .workerResult _ => snap.batches = rows.batches ∧ snap.workerLeases = rows.workerLeases
  | .heartbeat _ => snap.job.state = rows.job.state
  | .reconcile _ => snap.batches = rows.batches ∧ snap.workerLeases = rows.workerLeases
  | .reconcileDone _ _ _ => snap.batches = rows.batches
  | _ => True

/-- A heartbeat has a worker and a task id, or neither, and does not shorten the lease. -/
def Call.Extends (rows : Rows Blob) : Call Blob → Prop
  | .heartbeat message =>
    (trim message.workerId.toList = [] ↔ trim message.workerTaskId.toList = []) ∧
      ∀ lease, rows.workerLeases.lookup message.workerTaskId = some lease →
        lease.leaseExpireUnixMs ≤ saturatingAddI64 message.receivedUnixMs message.leaseDurationMs
  | _ => True

/-- What is asked of a commit. -/
def Act.Orderly (use : String → String × BatchKind) (s : Shared Blob) : Act Blob → Prop
  | .start _ => True
  | .commit tx call => call.Allowed use s.rows ∧ call.Extends s.rows ∧
    ∀ snap, s.snapshots.lookup tx = some snap → call.Current snap s.rows

variable {snap : Rows Blob} {use : String → String × BatchKind} {answer : Answer}
  {message : Heartbeat} {todo : List ((_ : String) × BatchRecord)} {now : ℤ}

/-- On current rows a call is the call on its own. -/
theorem Call.Current.applyAt_eq {call : Call Blob} (h : call.Current snap rows) :
    call.applyAt snap rows = call.applyAt rows rows := by
  cases call with
  | assign a =>
    have hbatches : snap.batches = rows.batches := h
    simp only [applyAt, assignTransferBatchToWorker, hbatches]
  | workerResult result =>
    obtain ⟨hbatches, hleases⟩ := h
    simp only [applyAt, applyTransferWorkerResult, hbatches, hleases]
  | heartbeat message =>
    have hstate : snap.job.state = rows.job.state := h
    simp only [applyAt, applyTransferWorkerHeartbeat, hstate]
  | reconcile now =>
    obtain ⟨hbatches, hleases⟩ := h
    simp only [applyAt, reconcileSingleJob, hbatches, reconcileBatch_current hleases]
  | reconcileDone batchId finished materialized =>
    have hbatches : snap.batches = rows.batches := h
    simp only [applyAt, reconcileDoneBatch, hbatches]
  | _ => rfl

theorem Call.apply_of_applyAt {call : Call Blob} {answer : Option Answer}
    (h : call.applyAt rows rows = .ok (answer, rows')) : call.apply rows = .ok rows' := by
  cases call with
  | workerResult | heartbeat =>
    obtain ⟨outcome, houtcome, heq⟩ := map_eq_ok.1 h
    exact map_eq_ok.2 ⟨outcome, houtcome, congrArg Prod.snd heq⟩
  | reconcile now =>
    cases h
    rfl
  | reconcileDone batchId finished materialized =>
    cases h
    rfl
  | _ =>
    obtain ⟨rows₁, hrows, heq⟩ := map_eq_ok.1 h
    cases heq
    exact hrows

/-! ## What a call does to a backed promise -/

theorem Rows.Backed.inserts (h : rows.Backed p) (haccounted : rows.Accounted use)
    {batch : BatchWire Blob} {root : String} {stats : ℤ × ℤ × ℤ}
    (huse : use batch.batchId = (root, batch.batchKind))
    (hins : Inserts rows batch root stats rows') : rows'.Backed p := by
  cases hins with
  | counted | dropped => exact h
  | @recounted existingId record known stored same infos =>
    refine h.of_kept h.1 ?_ fun hbacks => hbacks.leased
    intro r lease hbacks
    rw [Table.lookup_insert_eq]
    split
    · next heq =>
      have hr := hbacks.stored
      rw [heq, stored] at hr
      cases hr
      exact ⟨_, rfl, rfl, rfl, rfl⟩
    · exact ⟨r, hbacks.stored, rfl, rfl, rfl⟩
  | @stored m new content =>
    refine h.of_kept h.1 ?_ fun hbacks => hbacks.leased
    intro r lease hbacks
    have hid := haccounted.toKeyed.new_id huse new
    have hne : p.batchId ≠ batch.batchId := by
      intro heq
      rw [← heq, hbacks.stored] at hid
      cases hid
    exact ⟨r, (AList.lookup_insert_ne hne).trans hbacks.stored, rfl, rfl, rfl⟩

theorem Rows.Backed.scanBatches (h : rows.Backed p) (haccounted : rows.Accounted use)
    {result : ScanResult Blob} (huse : Call.Fits use rows (.scanAppend result))
    (happly : applyTransferScanBatches rows result = .ok rows') : rows'.Backed p := by
  refine (haccounted.scanBatches_invariant (I := fun rows => rows.Backed p) ?_ ?_ h.1 h huse
    happly).2.2
  · intro rows job hbacked hstate
    exact hbacked.congr (hstate.trans hbacked.1) rfl rfl
  · intro rows rows' batch root stats h₁ huse₁ hins hbacked
    exact hbacked.inserts h₁ huse₁ hins

section

omit [DecidableEq Blob] [NoticeCodec Blob]

theorem Rows.Backed.assign (h : rows.Backed p) {a : Assignment}
    (htask : rows.workerLeases.lookup a.workerTaskId = none)
    (happly : assignTransferBatchToWorker rows rows a = .ok rows') : rows'.Backed p := by
  revert happly
  fun_cases assignTransferBatchToWorker rows rows a <;> intro happly <;> try cases happly
  next batch hr hready =>
  obtain ⟨src, -, happly⟩ := bind_eq_ok.1 happly
  obtain ⟨dst, -, happly⟩ := bind_eq_ok.1 happly
  cases happly
  refine h.move ?_ ?_ _ _
  · intro record lease hbacks heq
    have hstored := hbacks.stored
    rw [heq, hr] at hstored
    cases hstored
    refine hready fun hstate => ?_
    cases hstate.symm.trans hbacks.running
  · intro record lease hbacks
    rw [Table.lookup_insert_eq, if_neg]
    · exact hbacks.leased
    · intro heq
      have hleased := hbacks.leased
      rw [heq, htask] at hleased
      cases hleased

theorem recordFileIssues_rest (batchId : String) (failed : List (String × String))
    (rows : Rows Blob) :
    (failed.foldl (recordFileIssue batchId) rows).job.state = rows.job.state ∧
      (failed.foldl (recordFileIssue batchId) rows).batches = rows.batches ∧
      (failed.foldl (recordFileIssue batchId) rows).workerLeases = rows.workerLeases := by
  induction failed generalizing rows with
  | nil => exact ⟨rfl, rfl, rfl⟩
  | cons f failed ih =>
    obtain ⟨hstate, hbatches, hleases⟩ := ih (recordFileIssue batchId rows f)
    refine ⟨hstate.trans ?_, hbatches, hleases⟩
    unfold recordFileIssue
    split
    · rfl
    · rfl

theorem acceptWorkerResult_cases {batch : BatchRecord} {result : WorkerResult}
    (h : acceptWorkerResult rows batch result = .ok (answer, rows')) :
    answer = .accepted ∧ rows'.job.state = rows.job.state ∧
      rows'.batches = rows.batches.insert result.batchId (batch.released .done) ∧
      rows'.workerLeases = rows.workerLeases.erase result.workerTaskId := by
  obtain ⟨hstate, hbatches, hleases⟩ := recordFileIssues_rest result.batchId
    result.failedFileResults { rows.moveBatch result.batchId .running (batch.released .done) with
      workerLeases := rows.workerLeases.erase result.workerTaskId }
  have hjob := hstate.trans (moveBatch_state rows result.batchId .running (batch.released .done))
  unfold acceptWorkerResult at h
  dsimp only at h
  split at h
  · split at h
    · cases h
    · cases h
      exact ⟨rfl, hjob, hbatches, hleases⟩
  · cases h
    exact ⟨rfl, hjob, hbatches, hleases⟩

/-- The promise stands unless the result is that of the worker for the batch. -/
theorem Rows.Backed.workerResult (h : rows.Backed p) {result : WorkerResult}
    (happly : applyTransferWorkerResult rows rows result = .ok (answer, rows'))
    (hother : answer = .accepted →
      ¬ (p.batchId = result.batchId ∧ p.workerId = result.workerId)) : rows'.Backed p := by
  revert happly
  fun_cases applyTransferWorkerResult rows rows result <;> intro happly <;> try cases happly
  · next hstop => simp [h.1] at hstop
  · next hstop => simp [h.1] at hstop
  · exact h
  · exact h
  · next batch hr howned lease hlease hholds =>
    obtain ⟨haccepted, hstate, hbatches, hleases⟩ := acceptWorkerResult_cases happly
    have hne : ∀ {record l}, Backs rows p record l → p.batchId ≠ result.batchId := by
      intro record l hbacks heq
      have hstored := hbacks.stored
      rw [heq, hr] at hstored
      cases hstored
      exact hother haccepted ⟨heq, hbacks.owner.symm.trans (ownedBy_iff.1 howned).2.1⟩
    refine h.of_kept (hstate.trans h.1) ?_ ?_
    · intro record l hbacks
      rw [hbatches]
      exact ⟨record, (AList.lookup_insert_ne (hne hbacks)).trans hbacks.stored, rfl, rfl, rfl⟩
    · intro record l hbacks
      rw [hleases]
      exact hbacks.leased_erase (hbacks.task_ne hlease hholds (hne hbacks))
  · exact h
  · exact h

/-- A heartbeat stops the worker or gives batch and lease a new expiry. -/
theorem applyTransferWorkerHeartbeat_cases
    (h : applyTransferWorkerHeartbeat rows rows message = .ok (answer, rows')) :
    ((∃ cancelled, answer = .stop cancelled) ∧ (rows.job.state = .running → rows' = rows)) ∨
    ∃ batch lease, rows.job.state = .running ∧ rows.batches.lookup message.batchId = some batch ∧
      batch.ownedBy message.workerId message.workerTaskId = true ∧
      rows.workerLeases.lookup message.workerTaskId = some lease ∧
      lease.holds message.workerId message.batchId = true ∧
      answer = .continueRunning (saturatingAddI64 message.receivedUnixMs message.leaseDurationMs) ∧
      rows' = { rows with
        batches := rows.batches.insert message.batchId { batch with
          leaseExpireUnixMs := saturatingAddI64 message.receivedUnixMs message.leaseDurationMs }
        workerLeases := rows.workerLeases.insert message.workerTaskId { lease with
          leaseExpireUnixMs :=
            saturatingAddI64 message.receivedUnixMs message.leaseDurationMs } } := by
  revert h
  fun_cases applyTransferWorkerHeartbeat rows rows message <;> rintro ⟨⟩
  · next hstopped => exact .inl ⟨⟨_, rfl⟩, fun hrun => absurd hstopped (by simp [hrun])⟩
  · next hnot => exact .inl ⟨⟨_, rfl⟩, fun hrun => absurd hrun hnot⟩
  · exact .inl ⟨⟨_, rfl⟩, fun _ => rfl⟩
  · exact .inl ⟨⟨_, rfl⟩, fun _ => rfl⟩
  · next hrun _ batch hr howned lease hlease hholds =>
    exact .inr ⟨batch, lease, not_not.1 hrun, hr, howned, hlease, hholds, rfl, rfl⟩
  · exact .inl ⟨⟨_, rfl⟩, fun _ => rfl⟩
  · exact .inl ⟨⟨_, rfl⟩, fun _ => rfl⟩

/-- A heartbeat that does not shorten the lease keeps every promise. -/
theorem Rows.Backed.heartbeat (h : rows.Backed p)
    (hextends : Call.Extends rows (.heartbeat message))
    (happly : applyTransferWorkerHeartbeat rows rows message = .ok (answer, rows')) :
    rows'.Backed p := by
  rcases applyTransferWorkerHeartbeat_cases happly with ⟨-, hsame⟩ |
    ⟨batch, lease, hrun, hr, -, hlease, -, -, rfl⟩
  · rw [hsame h.1]
    exact h
  have hlonger := hextends.2 lease hlease
  generalize saturatingAddI64 message.receivedUnixMs message.leaseDurationMs = expire at hlonger ⊢
  obtain ⟨-, record, l, hbacks⟩ := h
  have hbatch : ∃ record', (rows.batches.insert message.batchId
      { batch with leaseExpireUnixMs := expire }).lookup p.batchId = some record' ∧
      record'.state = record.state ∧
      record'.ownerWorkerId = record.ownerWorkerId ∧
      record'.ownerWorkerTaskId = record.ownerWorkerTaskId := by
    rw [Table.lookup_insert_eq]
    split
    · next heq =>
      have hstored := hbacks.stored
      rw [heq, hr] at hstored
      cases hstored
      exact ⟨_, rfl, rfl, rfl, rfl⟩
    · exact ⟨record, hbacks.stored, rfl, rfl, rfl⟩
  obtain ⟨record', hr', hstate, howner, htask⟩ := hbatch
  have hconsistent : record'.ownerIsConsistent = true := by
    rw [BatchRecord.ownerIsConsistent, howner, htask]
    exact hbacks.consistent
  -- the lease of the promise is the one that is extended, or another
  by_cases hsame : record.ownerWorkerTaskId = message.workerTaskId
  · have hl := hbacks.leased
    rw [hsame, hlease] at hl
    cases hl
    refine ⟨hrun, record', { lease with leaseExpireUnixMs := expire }, hr',
      hstate.trans hbacks.running, howner.trans hbacks.owner, hconsistent, ?_, hbacks.holds,
      hbacks.expire.trans hlonger⟩
    rw [htask, hsame]
    exact AList.lookup_insert _
  · refine ⟨hrun, record', l, hr', hstate.trans hbacks.running, howner.trans hbacks.owner,
      hconsistent, ?_, hbacks.holds, hbacks.expire⟩
    rw [htask]
    exact (AList.lookup_insert_ne hsame).trans hbacks.leased

/-- The promise of a heartbeat is backed by what it writes. -/
theorem backed_of_heartbeat {expire : ℤ} (hextends : Call.Extends rows (.heartbeat message))
    (happly : applyTransferWorkerHeartbeat rows rows message =
      .ok (.continueRunning expire, rows')) :
    rows'.Backed ⟨message.batchId, message.workerId, expire⟩ := by
  rcases applyTransferWorkerHeartbeat_cases happly with ⟨⟨cancelled, hstop⟩, -⟩ |
    ⟨batch, lease, hrun, hr, howned, hlease, hholds, hanswer, rfl⟩
  · cases hstop
  cases hanswer
  obtain ⟨hrunning, howner, htask⟩ := ownedBy_iff.1 howned
  generalize saturatingAddI64 message.receivedUnixMs message.leaseDurationMs = expire
  refine ⟨hrun, _, { lease with leaseExpireUnixMs := expire }, AList.lookup_insert _, hrunning,
    howner, ?_, ?_, hholds, le_rfl⟩
  · have hids := hextends.1
    rw [← howner, ← htask] at hids
    exact decide_eq_true hids
  · rw [htask]
    exact AList.lookup_insert _

/-! ### Reconciliation -/

variable (h : rows.Backed p)
include h

/-- Another batch goes back to the queue. -/
theorem Rows.Backed.requeue {e : (_ : String) × BatchRecord}
    (hrec : Reconciling use snap rows (e :: todo)) (hne : p.batchId ≠ e.1)
    {leases : Table String WorkerLease} (hleases : leases = rows.workerLeases ∨
      (e.2.state = .running ∧ leases = rows.workerLeases.erase e.2.ownerWorkerTaskId)) :
    Rows.Backed { rows.moveBatch e.1 e.2.state (e.2.released .ready) with workerLeases := leases }
      p := by
  refine h.move (fun _ => hne) ?_ _ _
  intro record lease hbacks
  rcases hleases with rfl | ⟨hrunning, rfl⟩
  · exact hbacks.leased
  · obtain ⟨-, other, hother, hholds⟩ :=
      hrec.accounted.leased (by simp [h.1]) (hrec.loaded e (by simp)) hrunning
    exact hbacks.leased_erase (hbacks.task_ne hother hholds hne)

/-- The turn of a batch with a live lease changes nothing, and the turns of the others leave it. -/
theorem Rows.Backed.reconcileBatch {e : (_ : String) × BatchRecord}
    (hrec : Reconciling use snap rows (e :: todo)) (hnow : now < p.leaseExpireUnixMs) :
    (reconcileBatch snap now rows e.1 e.2).Backed p := by
  by_cases hid : p.batchId = e.1
  · obtain ⟨-, record, lease, hbacks⟩ := id h
    have hr := hrec.loaded e (by simp)
    rw [← hid, hbacks.stored] at hr
    have hrecord : record = e.2 := Option.some.inj hr
    have hlive : ¬ e.2.abandoned e.1 (snap.workerLeases.lookup e.2.ownerWorkerTaskId) now := by
      have hholds := hbacks.holds
      rw [← hbacks.owner, hrecord, hid] at hholds
      rw [← hrecord, hrec.leases hbacks.leased, hrecord]
      simp [BatchRecord.abandoned, hholds, hnow.trans_le hbacks.expire]
    unfold TransferJob.reconcileBatch
    rw [← hrecord, hbacks.running]
    dsimp only
    rw [if_neg (by simp [hbacks.consistent])]
    split
    · exact h
    · rw [hrecord, if_neg hlive]
      exact h
  · unfold TransferJob.reconcileBatch
    split
    · next hstate =>
      rw [← hstate]
      exact h.requeue hrec hid (.inl rfl)
    · next hstate =>
      split
      · rw [← hstate]
        exact h.requeue hrec hid (.inl rfl)
      split
      · exact h
      dsimp only
      split
      · rw [← hstate]
        refine h.requeue hrec hid ?_
        split
        · exact .inr ⟨hstate, rfl⟩
        · exact .inl rfl
      · exact h
    · exact h

/-- A job with a running batch is not completed. -/
theorem Rows.Backed.complete (haccounted : rows.completeIfDone.Accounted use) :
    rows.completeIfDone.Backed p := by
  revert haccounted
  unfold Rows.completeIfDone
  split
  · intro haccounted
    obtain ⟨-, record, lease, hbacks⟩ := h
    have hfinished := (haccounted.completed rfl).2 hbacks.stored
    cases hfinished.symm.trans hbacks.running
  · exact fun _ => h

theorem Rows.Backed.reconcileDone (batchId : String) (finished materialized : Bool)
    (haccounted' : (reconcileDoneBatch rows rows batchId finished materialized).Accounted use) :
    (reconcileDoneBatch rows rows batchId finished materialized).Backed p := by
  revert haccounted'
  unfold reconcileDoneBatch
  rw [if_neg (by simp [h.1])]
  split
  · exact fun _ => h
  · next batch hr =>
    split
    · exact fun _ => h
    · next hdone =>
      have hmoved : (rows.moveBatch batchId .done
          (batch.released (if finished then .finished else .ready))).Backed p := by
        refine h.move ?_ (fun hbacks => hbacks.leased) _ _
        intro record lease hbacks heq
        have hstored := hbacks.stored
        rw [heq, hr] at hstored
        cases hstored
        cases (not_not.1 hdone).symm.trans hbacks.running
      intro haccounted'
      refine Rows.Backed.complete ?_ haccounted'
      exact hmoved.congr hmoved.1 rfl rfl

end

theorem Rows.Backed.reconcileFold (h : rows.Backed p) (hnow : now < p.leaseExpireUnixMs)
    (hkeys : todo.NodupKeys) (hrec : Reconciling use snap rows todo) :
    (todo.foldl (fun acc e => TransferJob.reconcileBatch snap now acc e.1 e.2) rows).Backed p := by
  induction todo generalizing rows with
  | nil => exact h
  | cons e todo ih =>
    exact ih (h.reconcileBatch hrec hnow) (List.nodupKeys_cons.1 hkeys).2 (hrec.step hkeys now)

theorem Rows.Backed.reconcile (h : rows.Backed p) (haccounted : rows.Accounted use)
    (hnow : now < p.leaseExpireUnixMs)
    (haccounted' : (reconcileSingleJob rows rows now).Accounted use) :
    (reconcileSingleJob rows rows now).Backed p := by
  revert haccounted'
  unfold reconcileSingleJob
  rw [if_neg (by simp [h.1]), if_neg (by simp [h.1])]
  have hstart : Reconciling use rows rows rows.batches.entries :=
    ⟨haccounted, h.1, fun e he => Table.mem_entries_iff.1 he, fun hl => hl⟩
  exact (h.reconcileFold hnow rows.batches.nodupKeys hstart).complete

/-! ## Every interleaving -/

/-- **A call on current rows keeps what it has promised.** -/
theorem Rows.Backed.call {call : Call Blob} {answer : Option Answer} {promises : List Promise}
    (haccounted : rows.Accounted use) (haccounted' : rows'.Accounted use)
    (hfits : call.Fits use rows) (hextends : call.Extends rows)
    (happly : call.applyAt rows rows = .ok (answer, rows'))
    (hbacked : ∀ p ∈ promises, rows.Backed p) :
    ∀ p ∈ call.settle answer promises, rows'.Backed p := by
  intro p hp
  cases call with
  | scanAppend result =>
    have h := hbacked p hp
    rcases applyTransferScanAppend_cases (apply_of_applyAt happly) with ⟨-, rfl⟩ | ⟨-, -, hbatches⟩
    · exact h
    · exact h.scanBatches haccounted hfits hbatches
  | scanResult result =>
    have h := hbacked p hp
    rcases applyTransferScanResult_cases (apply_of_applyAt happly) with ⟨-, rfl⟩ |
      ⟨root, rows₁, -, -, -, hbatches, rfl⟩
    · exact h
    · have h₁ := h.scanBatches haccounted hfits hbatches
      split
      · exact h₁
      · exact h₁.congr h₁.1 rfl rfl
  | beginEpoch =>
    have h := hbacked p hp
    obtain ⟨-, rfl⟩ := beginTransferScanEpoch_cases (apply_of_applyAt happly)
    exact h.congr h.1 rfl rfl
  | finishEpoch scanEpoch =>
    have h := hbacked p hp
    have hfinish : finishTransferScanEpoch rows scanEpoch = .ok rows' := apply_of_applyAt happly
    unfold finishTransferScanEpoch at hfinish
    split at hfinish
    · cases hfinish
    · cases hfinish
      exact h.congr h.1 rfl rfl
  | assign a => exact (hbacked p hp).assign hfits.2 (apply_of_applyAt happly)
  | workerResult result =>
    obtain ⟨⟨answer', rows₁⟩, hresult, heq⟩ := map_eq_ok.1 happly
    cases heq
    cases answer' with
    | accepted =>
      obtain ⟨hp, hother⟩ := List.mem_filter.1 hp
      exact (hbacked p hp).workerResult hresult fun _ => of_decide_eq_true hother
    | continueRunning expire => exact (hbacked p hp).workerResult hresult fun h => nomatch h
    | stop cancelled => exact (hbacked p hp).workerResult hresult fun h => nomatch h
  | heartbeat message =>
    obtain ⟨⟨answer', rows₁⟩, hresult, heq⟩ := map_eq_ok.1 happly
    cases heq
    cases answer' with
    | accepted | stop => exact (hbacked p hp).heartbeat hextends hresult
    | continueRunning expire =>
      rcases List.mem_cons.1 hp with rfl | hp
      · exact backed_of_heartbeat hextends hresult
      · exact (hbacked p hp).heartbeat hextends hresult
  | reconcile now =>
    cases happly
    obtain ⟨hp, hnow⟩ := List.mem_filter.1 hp
    exact (hbacked p hp).reconcile haccounted (of_decide_eq_true hnow) haccounted'
  | reconcileDone batchId finished materialized =>
    cases happly
    exact (hbacked p hp).reconcileDone batchId finished materialized haccounted'
  | cancel => cases hp

/-- Accounted rows whose promises are backed. -/
def Shared.Promised (use : String → String × BatchKind) (s : Shared Blob) : Prop :=
  s.rows.Small → s.rows.Accounted use ∧ ∀ p ∈ s.promises, s.rows.Backed p

theorem Shared.Promised.act {s s' : Shared Blob} {act : Act Blob} (h : s.Promised use)
    (hact : act.Orderly use s) (hstep : s.act act = some s') : s'.Promised use := by
  cases act with
  | start tx =>
    cases hstep
    exact h
  | commit tx call =>
    obtain ⟨hallowed, hextends, hcurrent⟩ := hact
    obtain ⟨snap, hsnap, hstep⟩ := Option.bind_eq_some_iff.1 hstep
    obtain ⟨⟨answer, rows'⟩, happly, hstep⟩ := Option.bind_eq_some_iff.1 hstep
    cases hstep
    have happly' := toOption_eq_some.1 happly
    rw [(hcurrent snap hsnap).applyAt_eq] at happly'
    intro hsmall
    obtain ⟨haccounted, hbacked⟩ := h hallowed.2
    have haccounted' := haccounted.call hallowed.1 hsmall (apply_of_applyAt happly')
    exact ⟨haccounted', Rows.Backed.call haccounted haccounted' hallowed.1 hextends happly' hbacked⟩

/-- **The promise of a heartbeat is kept.** However the transactions of the store overlap: if no
method commits on batches, leases or a job state that have changed since its start, and no heartbeat
shortens a lease, then a worker that was told to continue until an expiry has its batch running
until its result for it is applied, the job is stopped or a reconciliation runs at or after the
expiry. -/
theorem lease_promise_kept {use : String → String × BatchKind} {jobId : String}
    {acts : List (Act Blob)} {s : Shared Blob}
    (hrun : Run (Guarded (Act.Orderly use) fun s act s' => s.act act = some s')
      (Shared.created jobId) acts s)
    (hsmall : s.rows.Small) : s.Kept := by
  have hpromised : s.Promised use := by
    refine Run.invariant (fun s act s' h hstep => h.act hstep.1 hstep.2)
      hrun ?_
    intro _
    refine ⟨accounted_created use jobId, ?_⟩
    intro p hp
    cases hp
  intro p hp
  obtain ⟨-, record, lease, hbacks⟩ := (hpromised hsmall).2 p hp
  exact ⟨record, hbacks.stored, hbacks.running, hbacks.owner⟩

end Acts

/-! ## Three runs -/

/-- A call on its own. -/
def alone (call : Call Blob) : List (Act Blob) := [.start 0, .commit 0 call]

/-- The check of `Act.Orderly` for the batches of one directory. -/
def orderlyIn (s : Shared (List SymlinkNotice)) : Act (List SymlinkNotice) → Bool
  | .start _ => true
  | .commit tx call =>
    allowedIn s.rows call &&
    ((s.snapshots.lookup tx).all fun snap =>
      decide (snap.batches.entries = s.rows.batches.entries ∧
        snap.workerLeases.entries = s.rows.workerLeases.entries ∧
        snap.job.state = s.rows.job.state)) &&
    match call with
    | .heartbeat message =>
      decide (trim message.workerId.toList = [] ↔ trim message.workerTaskId.toList = []) &&
      (s.rows.workerLeases.lookup message.workerTaskId).all fun lease =>
        decide (lease.leaseExpireUnixMs ≤
          saturatingAddI64 message.receivedUnixMs message.leaseDurationMs)
    | _ => true

theorem orderly_of_orderlyIn {s : Shared (List SymlinkNotice)} {act : Act (List SymlinkNotice)}
    (h : orderlyIn s act = true) : act.Orderly idsOfDirectory s := by
  cases act with
  | start tx => trivial
  | commit tx call =>
    obtain ⟨h, hextends⟩ := Bool.and_eq_true_iff.1 h
    obtain ⟨hallowed, hcurrent⟩ := Bool.and_eq_true_iff.1 h
    refine ⟨allowed_of_allowedIn hallowed, ?_, ?_⟩
    · cases call with
      | heartbeat message =>
        obtain ⟨hids, hlonger⟩ := Bool.and_eq_true_iff.1 hextends
        refine ⟨of_decide_eq_true hids, ?_⟩
        intro lease hlease
        rw [hlease] at hlonger
        exact of_decide_eq_true hlonger
      | _ => trivial
    · intro snap hsnap
      rw [hsnap] at hcurrent
      obtain ⟨hbatches, hleases, hstate⟩ := of_decide_eq_true hcurrent
      have hbatches' : snap.batches = s.rows.batches := AList.ext hbatches
      have hleases' : snap.workerLeases = s.rows.workerLeases := AList.ext hleases
      cases call with
      | assign a => exact hbatches'
      | workerResult result => exact ⟨hbatches', hleases'⟩
      | heartbeat message => exact hstate
      | reconcile now => exact ⟨hbatches', hleases'⟩
      | reconcileDone batchId finished materialized => exact hbatches'
      | _ => trivial

/-- The worker of a batch sends a heartbeat, and a reconciliation comes before the expiry. -/
def keptActs : List (Act (List SymlinkNotice)) :=
  alone (.scanAppend (appendFiles "a" "x" ["x/p"])) ++
    alone (.assign ⟨"a", "src", "w", "t", "dst", 10⟩) ++
    alone (.heartbeat ⟨"a", "w", "t", 8, 20⟩) ++ alone (.reconcile 12)

theorem lease_promise_kept_until_expiry : ∃ s : Shared (List SymlinkNotice),
    Run (Guarded (Act.Orderly idsOfDirectory) fun s act s' => s.act act = some s')
      (Shared.created "job") keptActs s ∧
    s.promises = [⟨"a", "w", 28⟩] ∧ s.Kept := by
  obtain ⟨s, hs, hpromises, hsmall⟩ := Run.exists_guarded_of_foldlM Shared.act
    (Shared.created "job") keptActs (fun s => s.promises = [⟨"a", "w", 28⟩] ∧ s.rows.Small)
    orderlyIn (by decide +kernel)
  have hrun : Run (Guarded (Act.Orderly idsOfDirectory) fun s act s' => s.act act = some s')
      (Shared.created "job") keptActs s := by
    refine hs.mono ?_
    intro s act s' hstep
    exact ⟨orderly_of_orderlyIn hstep.1, hstep.2⟩
  exact ⟨s, hrun, hpromises, lease_promise_kept hrun hsmall⟩

/-- Whether a promise stands for a batch that does not run for the worker. -/
def Shared.broken (s : Shared (List SymlinkNotice)) (p : Promise) : Bool :=
  p ∈ s.promises ∧ (s.rows.batches.lookup p.batchId).all fun record =>
    ¬ (record.state = .running ∧ record.ownerWorkerId = p.workerId)

theorem Shared.not_kept_of_broken {s : Shared (List SymlinkNotice)} (h : s.broken p = true) :
    ¬ s.Kept := by
  obtain ⟨hp, hall⟩ := of_decide_eq_true h
  intro hkept
  obtain ⟨record, hr, hrunning⟩ := hkept p hp
  rw [hr] at hall
  exact of_decide_eq_true hall hrunning

/-- A reconciliation starts, a heartbeat comes in between, and the reconciliation commits. -/
def staleReconcileActs : List (Act (List SymlinkNotice)) :=
  alone (.scanAppend (appendFiles "a" "x" ["x/p"])) ++
    alone (.assign ⟨"a", "src", "w", "t", "dst", 10⟩) ++
    [.start 1] ++ alone (.heartbeat ⟨"a", "w", "t", 12, 20⟩) ++ [.commit 1 (.reconcile 12)]

/-- **A reconciliation breaks a promise given since its start.** It sees the lease until 10 at the
time 12 and requeues the batch that was promised to the worker until 32. -/
theorem stale_reconcile_breaks_promise : ∃ s : Shared (List SymlinkNotice),
    Run (fun s act s' => s.act act = some s') (Shared.created "job") staleReconcileActs s ∧
    s.rows.job.state = .running ∧ s.promises = [⟨"a", "w", 32⟩] ∧ ¬ s.Kept := by
  obtain ⟨s, hrun, hstate, hpromises, hbroken⟩ := Run.exists_of_foldlM Shared.act
    (Shared.created "job") staleReconcileActs (fun s => s.rows.job.state = .running ∧
      s.promises = [⟨"a", "w", 32⟩] ∧ s.broken ⟨"a", "w", 32⟩ = true) (by decide +kernel)
  exact ⟨s, hrun, hstate, hpromises, Shared.not_kept_of_broken hbroken⟩

/-- Of two heartbeats the one received first is applied last. -/
def lateHeartbeatActs : List (Act (List SymlinkNotice)) :=
  alone (.scanAppend (appendFiles "a" "x" ["x/p"])) ++
    alone (.assign ⟨"a", "src", "w", "t", "dst", 10⟩) ++
    alone (.heartbeat ⟨"a", "w", "t", 9, 20⟩) ++ alone (.heartbeat ⟨"a", "w", "t", 5, 20⟩) ++
    alone (.reconcile 26)

/-- **A late heartbeat shortens the lease.** The batch that was promised to the worker until 29 is
requeued at the time 26, though no two transactions overlap. -/
theorem late_heartbeat_shortens_lease : ∃ s : Shared (List SymlinkNotice),
    Run (fun s act s' => s.act act = some s') (Shared.created "job") lateHeartbeatActs s ∧
    s.rows.job.state = .running ∧ s.promises = [⟨"a", "w", 29⟩] ∧ ¬ s.Kept := by
  obtain ⟨s, hrun, hstate, hpromises, hbroken⟩ := Run.exists_of_foldlM Shared.act
    (Shared.created "job") lateHeartbeatActs (fun s => s.rows.job.state = .running ∧
      s.promises = [⟨"a", "w", 29⟩] ∧ s.broken ⟨"a", "w", 29⟩ = true) (by decide +kernel)
  exact ⟨s, hrun, hstate, hpromises, Shared.not_kept_of_broken hbroken⟩

end Fluxon.TransferJob
