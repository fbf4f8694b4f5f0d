import Fluxon.Foundations.Table
import Fluxon.TransferScan.Wire
import Mathlib.Data.List.Sort

/-!
# The scan runtime of a job on the master

`TransferJobScanRuntime` keeps the scan units of one job in three collections: a queue of units
that wait for an agent, the units that agents work on, and the units whose last event is durable
but whose children are not queued yet. The functions here are those of the transfer master, for one
job that stays running; what one of them did is read off its result.
-/

namespace Fluxon.TransferScan

/-- The entries of a table in the order of its keys, as a `BTreeMap` iterates over them. -/
def inOrder {V : Type} (t : Table String V) : List ((_ : String) × V) :=
  t.entries.insertionSort fun a b => a.1 ≤ b.1

/-! ## State -/

def transferControlRpcTimeoutMs : ℤ := 600000

def transferScanAssignmentTimeoutGraceMs : ℤ := 30000

def transferScanAssignmentTimeoutMs : ℤ :=
  transferControlRpcTimeoutMs + transferScanAssignmentTimeoutGraceMs

def transferScanConcurrencySystemLimit : ℕ := 128

def transferScanFinalizeRetryDelayMs : ℤ := 1000

structure MasterScanUnit where
  scanUnitId : Option String
  rootRelpath : Relpath
  generation : ℤ
  scanMode : ScanMode
  deriving DecidableEq, Repr

structure MasterInflightScan where
  assignment : ScanAssignment
  startedUnixMs : ℤ
  lastAcceptedEventSeqNo : ℤ
  deriving DecidableEq, Repr

structure MasterPendingScanFinalize where
  result : ScanResult
  nextRetryUnixMs : ℤ
  deriving DecidableEq, Repr

/-- `TransferJobScanRuntime`. -/
structure JobScanRuntime where
  activeScanEpoch : ℤ
  queue : List MasterScanUnit
  inflight : Table String MasterInflightScan
  pendingFinalize : Table String MasterPendingScanFinalize
  scanFinishedDurable : Bool

/-- What the scheduler reads of the record of a job. -/
structure JobRecord where
  jobId : String
  scanEpoch : ℤ
  srcRootRelpath : Relpath
  batchReadyBytes : ℤ
  desiredScanConcurrency : ℤ
  deriving DecidableEq, Repr

/-- `FsTransferSchedulerJobSnapshot`. -/
structure SchedulerJobSnapshot where
  scanEpoch : ℤ
  scanFinished : Bool
  deriving DecidableEq, Repr

/-- The unit of a child that an event brought. -/
def ScanChildUnit.toMaster (child : ScanChildUnit) : MasterScanUnit where
  scanUnitId := some child.scanUnitId
  rootRelpath := child.rootRelpath
  generation := child.generation
  scanMode := child.scanMode

/-- The unit that takes the place of an assignment that came to nothing. -/
def ScanAssignment.requeued (assignment : ScanAssignment) : MasterScanUnit where
  scanUnitId := none
  rootRelpath := assignment.rootRelpath
  generation := assignment.generation + 1
  scanMode := assignment.scanMode

namespace JobScanRuntime

/-- `reset_for_new_epoch`. -/
def resetForNewEpoch (scanEpoch : ℤ) (rootRelpath : Relpath) : JobScanRuntime where
  activeScanEpoch := scanEpoch
  queue := [⟨none, rootRelpath, 1, .rootDirectFanoutOnly⟩]
  inflight := ∅
  pendingFinalize := ∅
  scanFinishedDurable := false

variable (r : JobScanRuntime)

/-- The reset of a runtime whose epoch is not the current one. -/
def resetIfStale (scanEpoch : ℤ) (rootRelpath : Relpath) : JobScanRuntime :=
  if r.activeScanEpoch ≠ scanEpoch then resetForNewEpoch scanEpoch rootRelpath else r

/-- `enqueue_child_units`: the children go to the front of the queue, in their order. -/
def enqueueChildUnits (children : List ScanChildUnit) : JobScanRuntime :=
  { r with queue := children.map ScanChildUnit.toMaster ++ r.queue }

/-! ## The scheduler -/

/-- `take_completed_scan_epoch_if_ready`. -/
def takeCompletedScanEpochIfReady (snapshot : SchedulerJobSnapshot) : Bool × JobScanRuntime :=
  if snapshot.scanFinished then
    (false, { r with
      scanFinishedDurable := true, queue := [], inflight := ∅, pendingFinalize := ∅ })
  else (r.queue = [] ∧ r.inflight.entries = [] ∧ r.pendingFinalize.entries = [], r)

variable (nowUnixMs : ℤ)

/-- Whether an assignment ran out of time. -/
def isExpired (inflight : MasterInflightScan) : Bool :=
  inflight.assignment.leaseExpireUnixMs ≤ nowUnixMs ∨
    nowUnixMs - inflight.startedUnixMs ≥ transferScanAssignmentTimeoutMs

/-- One expired assignment goes back to the end of the queue. -/
def requeueExpired (scanUnitId : String) : JobScanRuntime :=
  match r.inflight.lookup scanUnitId with
  | none => r
  | some inflight => { r with
      inflight := r.inflight.erase scanUnitId
      queue := r.queue ++ [inflight.assignment.requeued] }

/-- `expire_scan_timeouts`. -/
def expireScanTimeouts : JobScanRuntime :=
  (((inOrder r.inflight).filter fun e => isExpired nowUnixMs e.2).map (·.1)).foldl requeueExpired r

/-- `take_retry_ready_pending_scan_finalize`. -/
def takeRetryReadyPendingScanFinalize : Option ScanResult :=
  ((inOrder r.pendingFinalize).find? fun e => e.2.nextRetryUnixMs ≤ nowUnixMs).map (·.2.result)

variable (result : ScanResult)

/-- The entry that waits for the finalization of a result, if it still is that of the epoch. -/
def livePending : Option MasterPendingScanFinalize :=
  if r.activeScanEpoch ≠ result.scanEpoch then none
  else (r.pendingFinalize.lookup result.scanUnitId).filter fun pending => pending.result = result

/-- `complete_pending_scan_finalize_if_live`. -/
def completePendingScanFinalizeIfLive : Bool × JobScanRuntime :=
  match r.livePending result with
  | none => (false, r)
  | some _ => (true, { r with
      pendingFinalize := r.pendingFinalize.erase result.scanUnitId }.enqueueChildUnits
        result.childScanUnits)

/-- `schedule_pending_scan_finalize_retry`. -/
def schedulePendingScanFinalizeRetry (nowUnixMs : ℤ) : Bool × JobScanRuntime :=
  match r.livePending result with
  | none => (false, r)
  | some pending => (true, { r with
      pendingFinalize := AList.insert result.scanUnitId
        { pending with nextRetryUnixMs := nowUnixMs + transferScanFinalizeRetryDelayMs }
        r.pendingFinalize })

/-! ## Events of the agents -/

/-- How an event is met, before anything changes. -/
inductive ScanEventVerdict
  | answer (ack : ScanEventAck)
  | sequenceGap (detail : String)
  | accept (inflight : MasterInflightScan)
  deriving DecidableEq, Repr

/-- The checks of `accept_scan_event_if_live`. -/
def scanEventVerdict (event : ScanEvent) : ScanEventVerdict :=
  if r.activeScanEpoch ≠ event.scanEpoch then .answer (.stop false)
  else match r.pendingFinalize.lookup event.scanUnitId with
  | some pending =>
    if pending.result = event.resultView ∧ event.eventKind = .finished then .answer (.stop true)
    else .answer (.stop false)
  | none =>
    match r.inflight.lookup event.scanUnitId with
    | none => .answer (.stop false)
    | some inflight =>
      if inflight.assignment.scanTaskId ≠ event.scanTaskId ∨
          inflight.assignment.scanEpoch ≠ event.scanEpoch ∨
          inflight.assignment.generation ≠ event.generation then .answer (.stop false)
      else if event.eventSeqNo ≤ inflight.lastAcceptedEventSeqNo then
        .answer (.continueRunningUntil false inflight.assignment.leaseExpireUnixMs)
      else if event.eventSeqNo ≠ inflight.lastAcceptedEventSeqNo + 1 then
        .sequenceGap <| s!"transfer scan event sequence gap: job_id={event.jobId} " ++
          s!"scan_unit_id={event.scanUnitId} scan_task_id={event.scanTaskId} " ++
          s!"got_seq_no={event.eventSeqNo} last_seq_no={inflight.lastAcceptedEventSeqNo}"
      else .accept inflight

/-- The entry of an assignment whose task goes on: a new sequence number, a new lease. -/
def renewed (inflight : MasterInflightScan) (eventSeqNo nowUnixMs : ℤ) : MasterInflightScan where
  assignment := { inflight.assignment with
    leaseExpireUnixMs := nowUnixMs + transferScanAssignmentTimeoutMs }
  startedUnixMs := nowUnixMs
  lastAcceptedEventSeqNo := eventSeqNo

/-- `accept_scan_event_if_live`. The store applies a result as a whole or answers with an error,
which is the argument `storeError`. -/
def acceptScanEventIfLive (storeError : Option String)
    (event : ScanEvent) : Except String ScanEventAck × JobScanRuntime :=
  let id := event.scanUnitId
  let going : ScanEventAck :=
    .continueRunningUntil true (nowUnixMs + transferScanAssignmentTimeoutMs)
  match r.scanEventVerdict event with
  | .answer ack => (.ok ack, r)
  | .sequenceGap detail => (.error detail, r)
  | .accept inflight =>
    let next := renewed inflight event.eventSeqNo nowUnixMs
    match event.eventKind with
    | .started => (.ok going, { r with inflight := AList.insert id next r.inflight })
    | .append =>
      match storeError with
      | some detail => (.error detail, r)
      | none =>
        (.ok going, { r with
          inflight := AList.insert id next r.inflight }.enqueueChildUnits event.childScanUnits)
    | .finished =>
      match storeError with
      | some detail => (.error detail, r)
      | none => (.ok (.stop true), { r with
          inflight := r.inflight.erase id
          pendingFinalize := AList.insert id ⟨event.resultView, nowUnixMs⟩ r.pendingFinalize })
    | .failed => (.ok (.stop true), { r with
        inflight := r.inflight.erase id
        queue := r.queue ++ [inflight.assignment.requeued] })

/-- An event is accepted as the next one of the task of an assignment that is out. -/
theorem scanEventVerdict_accept {r : JobScanRuntime} {event : ScanEvent}
    {inflight : MasterInflightScan} (h : r.scanEventVerdict event = .accept inflight) :
    r.activeScanEpoch = event.scanEpoch ∧ r.pendingFinalize.lookup event.scanUnitId = none ∧
      r.inflight.lookup event.scanUnitId = some inflight ∧
      inflight.assignment.scanTaskId = event.scanTaskId ∧
      inflight.assignment.scanEpoch = event.scanEpoch ∧
      inflight.assignment.generation = event.generation ∧
      event.eventSeqNo = inflight.lastAcceptedEventSeqNo + 1 := by
  revert h
  fun_cases scanEventVerdict r event <;> rintro ⟨⟩
  next hepoch hpending hinflight hmatch _ hnext =>
  simp only [ne_eq, not_or, not_not] at hmatch hepoch hnext
  exact ⟨hepoch, hpending, hinflight, hmatch.1, hmatch.2.1, hmatch.2.2, hnext⟩

/-- Only the last event of a unit that waits for its finalization is answered as accepted without
being the next one of its task. -/
theorem scanEventVerdict_answer {r : JobScanRuntime} {event : ScanEvent} {ack : ScanEventAck}
    (h : r.scanEventVerdict event = .answer ack) (haccepted : ack.accepted = true) :
    event.eventKind = .finished ∧ ∃ pending,
      r.pendingFinalize.lookup event.scanUnitId = some pending ∧
        pending.result = event.resultView := by
  revert h haccepted
  fun_cases scanEventVerdict r event <;> rintro ⟨⟩ ⟨⟩
  next pending hpending hsame => exact ⟨hsame.2, pending, hpending, hsame.1⟩

/-! ## Dispatch -/

/-- `build_live_child_scan_roots_for_scan`. -/
def buildLiveChildScanRootsForScan (rootRelpath : Relpath) : List Relpath :=
  let candidates := r.queue.map (·.rootRelpath) ++
    (inOrder r.inflight).map (·.2.assignment.rootRelpath)
  ((candidates.filter rootRelpath.strictlyBelow).insertionSort
    fun a b => a.render ≤ b.render).destutter (· ≠ ·)

end JobScanRuntime

/-- `transfer_scan_unit_placement_key`. -/
def transferScanUnitPlacementKey (jobId : String) (scanEpoch : ℤ) (scanUnit : MasterScanUnit) :
    String :=
  s!"scan:{jobId}:{scanEpoch}:{scanUnit.rootRelpath.render}:{scanUnit.generation}"

/-- `stable_transfer_agent_index`: the FNV-1a hash of the key, modulo the number of agents. -/
def stableTransferAgentIndex (placementKey : String) (agentCount : ℕ) : Option ℕ :=
  if agentCount = 0 then none
  else
    let hash : UInt64 := placementKey.toUTF8.data.toList.foldl
      (fun hash byte => (hash ^^^ byte.toUInt64) * 1099511628211) 14695981039346656037
    some (hash.toNat % agentCount)

/-- `choose_online_export_agent`. -/
def chooseOnlineExportAgent (agentIds : List String) (placementKey : String) : Option String :=
  (stableTransferAgentIndex placementKey agentIds.length).bind fun index => agentIds[index]?

theorem chooseOnlineExportAgent_isSome {agentIds : List String} (h : agentIds ≠ [])
    (placementKey : String) : (chooseOnlineExportAgent agentIds placementKey).isSome := by
  have hpos : 0 < agentIds.length := List.length_pos_iff.2 h
  simp [chooseOnlineExportAgent, stableTransferAgentIndex, h, Nat.mod_lt _ hpos]

/-- `build_scan_assignment`. The two identifiers that it draws at random and the coverage that is
already durable are arguments. -/
def buildScanAssignment (job : JobRecord) (srcExporterId : String) (scanEpoch : ℤ)
    (scanUnit : MasterScanUnit) (skipEntries : List SkipEntry) (known : List Disposition)
    (nowUnixMs : ℤ) (unitUuid taskUuid : String) : ScanAssignment :=
  let scanUnitId := scanUnit.scanUnitId.getD s!"{job.jobId}__scan_epoch_{scanEpoch}__{unitUuid}"
  { jobId := job.jobId
    scanEpoch := scanEpoch
    scanUnitId := scanUnitId
    scanTaskId := s!"{scanUnitId}__task__{taskUuid}"
    rootRelpath := scanUnit.rootRelpath
    generation := scanUnit.generation
    scanMode := scanUnit.scanMode
    srcExporterId := srcExporterId
    batchReadyBytes := job.batchReadyBytes
    leaseExpireUnixMs := nowUnixMs + transferScanAssignmentTimeoutMs
    knownDispositions := known
    liveChildScanRoots := []
    skipEntries := skipEntries }

/-- What one round of the dispatch loop reads besides the runtime. -/
structure DispatchInput where
  srcExporterIds : List String
  skipEntries : List SkipEntry
  known : MasterScanUnit → List Disposition
  unitUuid : String
  taskUuid : String

/-- The number of assignments that may be out at once. -/
def scanConcurrencyLimit (job : JobRecord) : ℕ :=
  min transferScanConcurrencySystemLimit (max 1 job.desiredScanConcurrency).toNat

namespace JobScanRuntime

variable (r : JobScanRuntime)

/-- The assignment of a unit that was taken off the queue. -/
def assign (job : JobRecord) (input : DispatchInput) (nowUnixMs : ℤ)
    (scanUnit : MasterScanUnit) : Option ScanAssignment :=
  (chooseOnlineExportAgent input.srcExporterIds
    (transferScanUnitPlacementKey job.jobId r.activeScanEpoch scanUnit)).map fun srcExporterId =>
    { buildScanAssignment job srcExporterId r.activeScanEpoch scanUnit input.skipEntries
        (input.known scanUnit) nowUnixMs input.unitUuid input.taskUuid with
      liveChildScanRoots := r.buildLiveChildScanRootsForScan scanUnit.rootRelpath }

/-- The first half of a round of `dispatch_scan_assignments_until_full`, under the lock: the next
unit leaves the queue and becomes an assignment. -/
def takeScanAssignment (job : JobRecord) (input : DispatchInput)
    (nowUnixMs : ℤ) : Option ScanAssignment × JobScanRuntime :=
  let r := (r.resetIfStale job.scanEpoch job.srcRootRelpath).expireScanTimeouts nowUnixMs
  if r.inflight.entries.length ≥ scanConcurrencyLimit job then (none, r)
  else match r.queue with
  | [] => (none, r)
  | scanUnit :: rest =>
    let r := { r with queue := rest }
    (r.assign job input nowUnixMs scanUnit, r)

/-- The second half of the round, under the lock again: the assignment is out. -/
def insertInflight (assignment : ScanAssignment) (nowUnixMs : ℤ) :
    JobScanRuntime :=
  { r with inflight := AList.insert assignment.scanUnitId ⟨assignment, nowUnixMs, -1⟩ r.inflight }

end JobScanRuntime

inductive SchedulerAction
  | finishEpoch
  | dispatchAssignments
  | waitForSourceExporter
  | idle
  deriving DecidableEq, Repr

/-- `choose_transfer_scan_scheduler_action`. -/
def chooseTransferScanSchedulerAction
    (shouldFinishScanEpoch scanFinished hasOnlineSrcExporters : Bool) : SchedulerAction :=
  if shouldFinishScanEpoch then .finishEpoch
  else if scanFinished then .idle
  else if hasOnlineSrcExporters then .dispatchAssignments
  else .waitForSourceExporter

end Fluxon.TransferScan
