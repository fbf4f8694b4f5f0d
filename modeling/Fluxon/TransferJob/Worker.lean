import Fluxon.TransferJob.ScanApply

/-!
# Workers, reconciliation and stopping of a job

The methods of the transfer store that move batches between states. A method is one transaction: it
reads job, batch and lease rows either from the snapshot of its start or, where it locks the row, as
they are, and its writes go through when it commits. So a method is a function of the snapshot
`snap` and of the rows at its commit; where methods run one after the other, both are the same.

Worker attempts are left out: no method decides by them anything about batches, leases or the job.
-/

namespace Fluxon.TransferJob

open TransferScan (BatchKind)

variable {Blob : Type}

/-! ## Moving a batch -/

variable (rows : Rows Blob)

/-- A batch goes from the state `previous` to that of `record`: the two keys of the state index, the
two counters of the job and the batch row. -/
def Rows.moveBatch (batchId : String) (previous : BatchState) (record : BatchRecord) : Rows Blob :=
  { rows with
    job := (rows.job.adjustBatchStateCount previous (-1)).adjustBatchStateCount record.state 1
    batches := rows.batches.insert batchId record
    batchStates := (rows.batchStates.erase (previous, batchId)).insert (record.state, batchId) () }

/-- The record without an owner. -/
def BatchRecord.released (record : BatchRecord) (state : BatchState) : BatchRecord :=
  { record with
    state := state
    ownerWorkerId := ""
    ownerWorkerTaskId := ""
    leaseExpireUnixMs := 0 }

/-- `transfer_job_open_batch_count`. -/
def JobRecord.openBatchCount (job : JobRecord) : ℤ :=
  saturatingAddI64 (saturatingAddI64 (saturatingAddI64 job.readyBatchCount job.runningBatchCount)
    job.doneBatchCount) job.expiredBatchCount

/-! ## Assignment -/

/-- A batch is bound to its first exporter on each side. -/
def bindExporter (batchId side label bound requested : String) : Except String String :=
  if bound = "" then
    if trim requested.toList = [] then
      .error <| s!"transfer batch {side} exporter binding must be non-empty: " ++
        s!"job_id={rows.job.jobId} batch_id={batchId}"
    else .ok requested
  else if bound ≠ requested then
    .error <| s!"transfer batch {side} exporter binding mismatch: job_id={rows.job.jobId} " ++
      s!"batch_id={batchId} assigned_{label}_exporter_id={bound} " ++
      s!"requested_{label}_exporter_id={requested}"
  else .ok bound

structure Assignment where
  batchId : String
  srcExporterId : String
  workerId : String
  workerTaskId : String
  dstExporterId : String
  leaseExpireUnixMs : ℤ
  deriving DecidableEq, Repr

/-- `assign_transfer_batch_to_worker`. -/
def assignTransferBatchToWorker (snap rows : Rows Blob) (a : Assignment) :
    Except String (Rows Blob) :=
  if rows.job.state ≠ .running then
    .error s!"no running transfer job found: job_id={rows.job.jobId}"
  else
    match snap.batches.lookup a.batchId with
    | none => .error "assign transfer batch lookup"
    | some batch =>
      if batch.state ≠ .ready then
        .error s!"transfer batch is not assignable: job_id={rows.job.jobId} batch_id={a.batchId}"
      else do
        let src ← bindExporter rows a.batchId "source" "src" batch.assignedSrcExporterId
          a.srcExporterId
        let dst ← bindExporter rows a.batchId "target" "dst" batch.assignedDstExporterId
          a.dstExporterId
        let record := { batch with
          assignedSrcExporterId := src
          assignedDstExporterId := dst
          state := .running
          ownerWorkerId := a.workerId
          ownerWorkerTaskId := a.workerTaskId
          leaseExpireUnixMs := a.leaseExpireUnixMs }
        return { rows.moveBatch a.batchId .ready record with
          workerLeases := rows.workerLeases.insert a.workerTaskId
            ⟨a.workerId, a.batchId, a.leaseExpireUnixMs⟩ }

/-! ## Stopping -/

/-- `cancel_open_batch_locked_tx`, for a batch in an open state. -/
def cancelOpenBatch (batchId : String) (batch : BatchRecord) : Rows Blob :=
  { rows.moveBatch batchId batch.state (batch.released .cancelled) with
    workerLeases := if batch.ownerWorkerTaskId = "" then rows.workerLeases
      else rows.workerLeases.erase batch.ownerWorkerTaskId }

variable (batch : BatchRecord)

/-- Whether a batch is running for the worker that sent a message about it. -/
def BatchRecord.ownedBy (workerId workerTaskId : String) : Bool :=
  batch.state = .running ∧ batch.ownerWorkerId = workerId ∧ batch.ownerWorkerTaskId = workerTaskId

/-- `stop_worker_for_stopping_job_locked_tx`. -/
def stopWorkerForStoppingJob (batchId workerId workerTaskId : String) : Rows Blob :=
  match rows.batches.lookup batchId with
  | some batch =>
    if batch.ownedBy workerId workerTaskId then cancelOpenBatch rows batchId batch
    else { rows with workerLeases := rows.workerLeases.erase workerTaskId }
  | none => { rows with workerLeases := rows.workerLeases.erase workerTaskId }

/-- `cancel_transfer_job`. -/
def cancelTransferJob : Except String (Rows Blob) :=
  if rows.job.state = .stopping ∨ rows.job.state = .cancelled then .ok rows
  else if rows.job.state ≠ .running then
    .error s!"no running transfer job found: job_id={rows.job.jobId}"
  else
    .ok { rows with
      job := { rows.job with
        state := .stopping
        scanFinished := true
        lastError := "transfer job cancelled by user" } }

/-- `finish_transfer_scan_epoch`. -/
def finishTransferScanEpoch (scanEpoch : ℤ) : Except String (Rows Blob) :=
  if rows.job.state ≠ .running ∨ rows.job.scanEpoch ≠ scanEpoch then
    .error <| s!"transfer scan finish rejected for stale or missing scan epoch: " ++
      s!"job_id={rows.job.jobId} scan_epoch={scanEpoch}"
  else .ok { rows with job := { rows.job with scanFinished := true } }

/-! ## Messages of workers -/

/-- What a worker is told. -/
inductive Answer
  | accepted
  | continueRunning (leaseExpireUnixMs : ℤ)
  /-- Stop, because the job was cancelled or because the worker was superseded. -/
  | stop (cancelled : Bool)
  deriving DecidableEq, Repr

structure WorkerResult where
  batchId : String
  workerId : String
  workerTaskId : String
  /-- The failed files with the reasons. -/
  failedFileResults : List (String × String)
  /-- Whether the symlink notices were materialized. -/
  collectInfoResult : Bool
  deriving DecidableEq, Repr

/-- Whether a lease is the one of a worker for a batch. -/
def WorkerLease.holds (lease : WorkerLease) (workerId batchId : String) : Bool :=
  lease.workerId = workerId ∧ lease.assignedBatchId = batchId

/-- A failed file is recorded, and counted if it is new. -/
def recordFileIssue (batchId : String) (rows : Rows Blob) (failed : String × String) : Rows Blob :=
  { rows with
    job := if (rows.fileIssues.lookup (batchId, failed.1)).isSome then rows.job
      else { rows.job with failedFileCount := saturatingAddI64 rows.job.failedFileCount 1 }
    fileIssues := rows.fileIssues.insert (batchId, failed.1) failed.2 }

/-- The result of the owner of a running batch. -/
def acceptWorkerResult (result : WorkerResult) : Except String (Answer × Rows Blob) :=
  let moved := { rows.moveBatch result.batchId .running (batch.released .done) with
    workerLeases := rows.workerLeases.erase result.workerTaskId }
  let recorded := result.failedFileResults.foldl (recordFileIssue result.batchId) moved
  if result.collectInfoResult then
    match recorded.collectInfos.lookup result.batchId with
    | none => .error "worker result collect info lookup"
    | some info => .ok (.accepted, { recorded with
        collectInfos := recorded.collectInfos.insert result.batchId
          { info with materialized := true } })
  else .ok (.accepted, recorded)

/-- `apply_transfer_worker_result`. -/
def applyTransferWorkerResult (snap rows : Rows Blob) (result : WorkerResult) :
    Except String (Answer × Rows Blob) :=
  if rows.job.state = .stopping ∨ rows.job.state = .cancelled then
    .ok (.stop true,
      stopWorkerForStoppingJob rows result.batchId result.workerId result.workerTaskId)
  else if rows.job.state ≠ .running then
    .ok (.stop false, { rows with workerLeases := rows.workerLeases.erase result.workerTaskId })
  else
    match snap.batches.lookup result.batchId with
    | none => .ok (.stop false, rows)
    | some batch =>
      if batch.ownedBy result.workerId result.workerTaskId then
        match snap.workerLeases.lookup result.workerTaskId with
        | none => .ok (.stop false, rows)
        | some lease =>
          if lease.holds result.workerId result.batchId then acceptWorkerResult rows batch result
          else .ok (.stop false, rows)
      else .ok (.stop false, rows)

structure Heartbeat where
  batchId : String
  workerId : String
  workerTaskId : String
  receivedUnixMs : ℤ
  leaseDurationMs : ℤ
  deriving DecidableEq, Repr

/-- `apply_transfer_worker_heartbeat`. The job is read from the snapshot, batch and lease are
locked. -/
def applyTransferWorkerHeartbeat (snap rows : Rows Blob) (h : Heartbeat) :
    Except String (Answer × Rows Blob) :=
  if h.leaseDurationMs < 0 then
    .error <| s!"heartbeat lease duration must be non-negative: job_id={rows.job.jobId} " ++
      s!"batch_id={h.batchId} worker_id={h.workerId} duration_ms={h.leaseDurationMs}"
  else if snap.job.state = .stopping ∨ snap.job.state = .cancelled then
    .ok (.stop true, stopWorkerForStoppingJob rows h.batchId h.workerId h.workerTaskId)
  else if snap.job.state ≠ .running then
    .ok (.stop false, { rows with workerLeases := rows.workerLeases.erase h.workerTaskId })
  else
    let expire := saturatingAddI64 h.receivedUnixMs h.leaseDurationMs
    match rows.batches.lookup h.batchId with
    | none => .ok (.stop false, rows)
    | some batch =>
      if batch.ownedBy h.workerId h.workerTaskId then
        match rows.workerLeases.lookup h.workerTaskId with
        | none => .ok (.stop false, rows)
        | some lease =>
          if lease.holds h.workerId h.batchId then
            .ok (.continueRunning expire, { rows with
              batches := rows.batches.insert h.batchId { batch with leaseExpireUnixMs := expire }
              workerLeases := rows.workerLeases.insert h.workerTaskId
                { lease with leaseExpireUnixMs := expire } })
          else .ok (.stop false, rows)
      else .ok (.stop false, rows)

/-! ## Reconciliation -/

/-- `transfer_batch_owner_is_empty`. -/
def BatchRecord.ownerIsEmpty : Bool :=
  trim batch.ownerWorkerId.toList = [] ∧ trim batch.ownerWorkerTaskId.toList = []

/-- `transfer_batch_owner_is_consistent`. -/
def BatchRecord.ownerIsConsistent : Bool :=
  trim batch.ownerWorkerId.toList = [] ↔ trim batch.ownerWorkerTaskId.toList = []

/-- Whether reconciliation takes a running batch for abandoned, given the lease of its owner. -/
def BatchRecord.abandoned (batchId : String) (lease : Option WorkerLease) (now : ℤ) : Bool :=
  match lease with
  | none => batch.leaseExpireUnixMs ≤ now
  | some lease => ¬ (lease.holds batch.ownerWorkerId batchId ∧ now < lease.leaseExpireUnixMs)

/-- The turn of one batch in `reconcile_single_job`, with the rows as changed so far. -/
def reconcileBatch (snap : Rows Blob) (now : ℤ) (rows : Rows Blob) (batchId : String)
    (batch : BatchRecord) : Rows Blob :=
  match batch.state with
  | .expired => rows.moveBatch batchId .expired (batch.released .ready)
  | .running =>
    if ¬ batch.ownerIsConsistent then rows.moveBatch batchId .running (batch.released .ready)
    else if batch.ownerIsEmpty then rows
    else
      let lease := snap.workerLeases.lookup batch.ownerWorkerTaskId
      if batch.abandoned batchId lease now then
        { rows.moveBatch batchId .running (batch.released .ready) with
          workerLeases := if lease.isSome then rows.workerLeases.erase batch.ownerWorkerTaskId
            else rows.workerLeases }
      else rows
  | _ => rows

/-- The job completes when its scan is finished and no batch is open. -/
def Rows.completeIfDone : Rows Blob :=
  if rows.job.scanFinished ∧ rows.job.openBatchCount = 0 then
    { rows with job := { rows.job with state := .completed, lastError := "" } }
  else rows

/-- The ids of the batches that the state index has in a state, in the order of their keys. -/
def Rows.idsInState (state : BatchState) : List String :=
  ((rows.batchStates.entries.filter fun e => e.1.1 = state).map fun e => e.1.2).insertionSort
    (· ≤ ·)

/-- The turn of one batch in the cleanup of a stopping job, with the budget that is left. -/
def cleanupBatch (state : BatchState) (acc : Rows Blob × ℕ) (batchId : String) : Rows Blob × ℕ :=
  match acc.1.batches.lookup batchId with
  | none => ({ acc.1 with batchStates := acc.1.batchStates.erase (state, batchId) }, acc.2)
  | some batch =>
    if batch.state ≠ state then
      ({ acc.1 with batchStates := acc.1.batchStates.erase (state, batchId) }, acc.2)
    else (cancelOpenBatch acc.1 batchId batch, acc.2 - 1)

/-- The cleanup of the batches in one state. -/
def cleanupState (acc : Rows Blob × ℕ) (state : BatchState) : Rows Blob × ℕ :=
  ((acc.1.idsInState state).take acc.2).foldl (cleanupBatch state) acc

/-- `TRANSFER_STOP_BATCH_CLEANUP_LIMIT` and `TRANSFER_STOP_LEASE_CLEANUP_LIMIT`. -/
def stopCleanupLimit : ℕ := 256

/-- `reconcile_stopping_job_locked_tx`. -/
def reconcileStoppingJob : Rows Blob :=
  let cleaned := ([.running, .done, .ready, .expired].foldl cleanupState (rows, stopCleanupLimit)).1
  let tasks := (cleaned.workerLeases.keys.insertionSort (· ≤ ·)).take stopCleanupLimit
  let released := { cleaned with
    workerLeases := tasks.foldl (fun t task => t.erase task) cleaned.workerLeases }
  if 0 < released.job.openBatchCount ∨ released.workerLeases.keys ≠ [] then released
  else
    { released with
      job := { released.job with
        state := .cancelled
        scanFinished := true
        lastError := "transfer job cancelled by user" } }

/-- The first transaction of `reconcile_single_job`. -/
def reconcileSingleJob (snap rows : Rows Blob) (now : ℤ) : Rows Blob :=
  if rows.job.state = .stopping then reconcileStoppingJob rows
  else if rows.job.state ≠ .running then rows
  else
    (snap.batches.entries.foldl (fun acc e => reconcileBatch snap now acc e.1 e.2)
      rows).completeIfDone

/-- The transaction of `reconcile_single_job` for a batch that is done: what the target holds
decides whether it is finished or has to run again, and whether its notices are there. The source
also reads the collect infos of batches whose ids extend this id. -/
def reconcileDoneBatch (snap rows : Rows Blob) (batchId : String) (finished materialized : Bool) :
    Rows Blob :=
  if rows.job.state ≠ .running then rows
  else
    match snap.batches.lookup batchId with
    | none => rows
    | some batch =>
      if batch.state ≠ .done then rows
      else
        let moved := rows.moveBatch batchId .done
          (batch.released (if finished then .finished else .ready))
        Rows.completeIfDone { moved with
          collectInfos := moved.collectInfos.modify batchId
            fun info => { info with materialized := materialized } }

end Fluxon.TransferJob
