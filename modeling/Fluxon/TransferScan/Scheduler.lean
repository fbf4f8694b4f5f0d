import Fluxon.Foundations.Run
import Fluxon.TransferScan.Master

/-!
# One scan epoch of a job

The scheduler of the master runs one pass after another: it reads the durable state of the job,
finalizes a unit whose last event was accepted, checks whether the epoch is complete, and then
finishes the epoch or hands out assignments. `Phase` is where it stands between two accesses to
the runtime or the store. Events of agents arrive at any point in between. They may be repeated,
reordered, late or made up; only an event that starts or fails a task brings no work, as
`ScanEvent.workFree` says.

Besides the state of the code, a `ScanWorld` keeps what happened: the assignments that were handed
out, the events that were accepted, the results that were applied to the store and the child units
that were put into the queue. `effect_of_step` says all that a step can do.
-/

namespace Fluxon.TransferScan

open JobScanRuntime

/-- Where the scheduler stands in `run_transfer_scan_scheduler_once`. -/
inductive Phase
  | idle
  | snapshotRead (nowUnixMs : ℤ) (snapshot : SchedulerJobSnapshot)
  | finalizing (nowUnixMs : ℤ) (snapshot : SchedulerJobSnapshot) (result : Option ScanResult)
  | checking (nowUnixMs : ℤ) (snapshot : SchedulerJobSnapshot)
  | choosing (nowUnixMs : ℤ) (snapshot : SchedulerJobSnapshot) (shouldFinishScanEpoch : Bool)
  | finishing
  | dispatching (nowUnixMs : ℤ) (srcExporterIds : List String)
  | inserting (nowUnixMs : ℤ) (srcExporterIds : List String) (assignment : ScanAssignment)
  deriving DecidableEq

/-- The assignment that left the queue and is not out yet. -/
def Phase.hand : Phase → Option ScanAssignment
  | .inserting _ _ assignment => some assignment
  | _ => none

structure ScanWorld where
  job : JobRecord
  /-- `scan_finished` of the job in the store. -/
  scanFinished : Bool
  runtime : JobScanRuntime
  phase : Phase
  dispatched : List ScanAssignment
  accepted : List ScanEvent
  applied : List ScanResult
  enqueued : List ScanChildUnit

inductive Action
  | readSnapshot (nowUnixMs : ℤ)
  | takePending
  | finalize (storeError : Option String)
  | check
  | choose (srcExporterIds : List String)
  /-- The store or the list of agents cannot be read, and the pass ends. -/
  | abandon
  | finishEpoch (storeError : Option String)
  | take (skipEntries : List SkipEntry) (known : MasterScanUnit → List Disposition)
      (unitUuid taskUuid : String)
  | insert
  | scanEvent (event : ScanEvent) (nowUnixMs : ℤ) (storeError : Option String)

namespace ScanWorld

/-- The start of an epoch: the store does not have it finished, and the runtime was just reset. -/
def init (job : JobRecord) : ScanWorld where
  job := job
  scanFinished := false
  runtime := .resetForNewEpoch job.scanEpoch job.srcRootRelpath
  phase := .idle
  dispatched := []
  accepted := []
  applied := []
  enqueued := []

variable (w : ScanWorld)

/-- The finalization of a result, after the store answered. -/
def finalized (nowUnixMs : ℤ) (result : ScanResult) (storeError : Option String) : ScanWorld :=
  match storeError with
  | some _ => { w with
      runtime := (w.runtime.schedulePendingScanFinalizeRetry result nowUnixMs).2 }
  | none =>
    match w.runtime.completePendingScanFinalizeIfLive result with
    | (false, runtime) => { w with runtime := runtime }
    | (true, runtime) =>
      { w with runtime := runtime, enqueued := w.enqueued ++ result.childScanUnits }

/-- The check whether the epoch is complete. -/
def completion (nowUnixMs : ℤ) (snapshot : SchedulerJobSnapshot) : Bool × JobScanRuntime :=
  ((w.runtime.resetIfStale snapshot.scanEpoch w.job.srcRootRelpath).expireScanTimeouts
    nowUnixMs).takeCompletedScanEpochIfReady snapshot

/-- An event is accepted now: the record of it and of what it brought. -/
def recorded (event : ScanEvent) : ScanWorld :=
  match event.eventKind with
  | .started | .failed => { w with accepted := w.accepted ++ [event] }
  | .append => { w with
      accepted := w.accepted ++ [event]
      applied := w.applied ++ [event.resultView]
      enqueued := w.enqueued ++ event.childScanUnits }
  | .finished => { w with
      accepted := w.accepted ++ [event]
      applied := w.applied ++ [event.resultView] }

/-- Whether an event gets through: it is the next one of its task, and the store applies it. -/
def getsThrough (event : ScanEvent) (storeError : Option String) : Bool :=
  match w.runtime.scanEventVerdict event with
  | .accept _ => event.eventKind = .started ∨ event.eventKind = .failed ∨ storeError = none
  | _ => false

/-- One step of the scheduler, or one event. -/
def step (w : ScanWorld) : Action → Option ScanWorld
  | .readSnapshot now =>
    match w.phase with
    | .idle => some { w with phase := .snapshotRead now ⟨w.job.scanEpoch, w.scanFinished⟩ }
    | _ => none
  | .takePending =>
    match w.phase with
    | .snapshotRead now snapshot => some { w with
        phase := .finalizing now snapshot (w.runtime.takeRetryReadyPendingScanFinalize now) }
    | _ => none
  | .finalize storeError =>
    match w.phase with
    | .finalizing now snapshot none => some { w with phase := .checking now snapshot }
    | .finalizing now snapshot (some result) =>
      some { w.finalized now result storeError with phase := .checking now snapshot }
    | _ => none
  | .check =>
    match w.phase with
    | .checking now snapshot => some { w with
        runtime := (w.completion now snapshot).2
        phase := .choosing now snapshot (w.completion now snapshot).1 }
    | _ => none
  | .choose srcExporterIds =>
    match w.phase with
    | .choosing now snapshot shouldFinish =>
      let ids := if shouldFinish || snapshot.scanFinished then [] else srcExporterIds
      match chooseTransferScanSchedulerAction shouldFinish snapshot.scanFinished (ids ≠ []) with
      | .finishEpoch => some { w with phase := .finishing }
      | .dispatchAssignments => some { w with phase := .dispatching now ids }
      | .waitForSourceExporter | .idle => some { w with phase := .idle }
    | _ => none
  | .abandon =>
    match w.phase with
    | .choosing _ _ false | .dispatching _ _ => some { w with phase := .idle }
    | _ => none
  | .finishEpoch storeError =>
    match w.phase with
    | .finishing => some { w with
        phase := .idle, scanFinished := w.scanFinished || storeError.isNone }
    | _ => none
  | .take skipEntries known unitUuid taskUuid =>
    match w.phase with
    | .dispatching now ids =>
      match w.runtime.takeScanAssignment w.job ⟨ids, skipEntries, known, unitUuid, taskUuid⟩ now with
      | (none, runtime) => some { w with runtime := runtime, phase := .idle }
      | (some assignment, runtime) => some { w with
          runtime := runtime
          phase := .inserting now ids assignment
          dispatched := w.dispatched ++ [assignment] }
    | _ => none
  | .insert =>
    match w.phase with
    | .inserting now ids assignment => some { w with
        runtime := w.runtime.insertInflight assignment now
        phase := .dispatching now ids }
    | _ => none
  | .scanEvent event now storeError =>
    let runtime := (w.runtime.acceptScanEventIfLive now storeError event).2
    if w.getsThrough event storeError then some { w.recorded event with runtime := runtime }
    else some { w with runtime := runtime }

/-- A step of the epoch. -/
def Step (action : Action) (w' : ScanWorld) : Prop := w.step action = some w'

/-- Whether a new assignment has an identifier that no earlier one had. -/
def distinctIds : Action → Bool
  | .take skipEntries known unitUuid taskUuid =>
    match w.phase with
    | .dispatching now ids =>
      (w.runtime.takeScanAssignment w.job ⟨ids, skipEntries, known, unitUuid, taskUuid⟩ now).1.all
        fun assignment => assignment.scanUnitId ∉ w.dispatched.map (·.scanUnitId)
    | _ => true
  | _ => true

/-- Scan unit identifiers are distinct. -/
def DistinctIds (action : Action) : Prop := w.distinctIds action = true

/-! ## What a step does -/

/-- The effect of an event. -/
inductive EventEffect (w : ScanWorld) (event : ScanEvent) (now : ℤ) (storeError : Option String) :
    ScanWorld → Prop
  | ignored (h : w.getsThrough event storeError = false) : EventEffect w event now storeError w
  | started {entry : MasterInflightScan} (h : w.runtime.scanEventVerdict event = .accept entry)
      (hkind : event.eventKind = .started) :
      EventEffect w event now storeError { w with
        accepted := w.accepted ++ [event]
        runtime := { w.runtime with
          inflight := AList.insert event.scanUnitId
            (renewed entry event.eventSeqNo now) w.runtime.inflight } }
  | appended {entry : MasterInflightScan} (h : w.runtime.scanEventVerdict event = .accept entry)
      (hkind : event.eventKind = .append) (hstore : storeError = none) :
      EventEffect w event now storeError { w with
        accepted := w.accepted ++ [event]
        applied := w.applied ++ [event.resultView]
        enqueued := w.enqueued ++ event.childScanUnits
        runtime := { w.runtime with
          inflight := AList.insert event.scanUnitId
            (renewed entry event.eventSeqNo now) w.runtime.inflight
          queue := event.childScanUnits.map ScanChildUnit.toMaster ++ w.runtime.queue } }
  | finished {entry : MasterInflightScan} (h : w.runtime.scanEventVerdict event = .accept entry)
      (hkind : event.eventKind = .finished) (hstore : storeError = none) :
      EventEffect w event now storeError { w with
        accepted := w.accepted ++ [event]
        applied := w.applied ++ [event.resultView]
        runtime := { w.runtime with
          inflight := w.runtime.inflight.erase event.scanUnitId
          pendingFinalize := AList.insert event.scanUnitId ⟨event.resultView, now⟩
            w.runtime.pendingFinalize } }
  | failed {entry : MasterInflightScan} (h : w.runtime.scanEventVerdict event = .accept entry)
      (hkind : event.eventKind = .failed) :
      EventEffect w event now storeError { w with
        accepted := w.accepted ++ [event]
        runtime := { w.runtime with
          inflight := w.runtime.inflight.erase event.scanUnitId
          queue := w.runtime.queue ++ [entry.assignment.requeued] } }

theorem eventEffect_of_step {w w' : ScanWorld} {event : ScanEvent} {now : ℤ}
    {storeError : Option String} (h : w.Step (.scanEvent event now storeError) w') :
    EventEffect w event now storeError w' := by
  simp only [Step, step] at h
  cases hverdict : w.runtime.scanEventVerdict event with
  | answer | sequenceGap =>
    have hthrough : w.getsThrough event storeError = false := by simp [getsThrough, hverdict]
    simp only [hthrough, acceptScanEventIfLive, hverdict] at h
    cases h
    exact .ignored hthrough
  | accept entry =>
    cases hkind : event.eventKind with
    | started =>
      simp only [getsThrough, hverdict, hkind, recorded, acceptScanEventIfLive,
        true_or, decide_true, if_true, Option.some.injEq] at h
      subst h
      exact .started hverdict hkind
    | failed =>
      simp only [getsThrough, hverdict, hkind, recorded, acceptScanEventIfLive,
        true_or, or_true, decide_true, if_true, Option.some.injEq] at h
      subst h
      exact .failed hverdict hkind
    | append | finished =>
      cases storeError with
      | some detail =>
        have hthrough : w.getsThrough event (some detail) = false := by
          simp [getsThrough, hverdict, hkind]
        simp only [hthrough, acceptScanEventIfLive, hverdict, hkind] at h
        cases h
        exact .ignored hthrough
      | none =>
        simp only [getsThrough, hverdict, hkind, recorded, acceptScanEventIfLive,
          or_true, decide_true, if_true, Option.some.injEq] at h
        subst h
        first
          | exact .appended hverdict hkind rfl
          | exact .finished hverdict hkind rfl

/-- The effect of a step. -/
inductive Effect (w : ScanWorld) : Action → ScanWorld → Prop
  | readSnapshot {now : ℤ} (h : w.phase = .idle) :
      Effect w (.readSnapshot now)
        { w with phase := .snapshotRead now ⟨w.job.scanEpoch, w.scanFinished⟩ }
  | takePending {now : ℤ} {snapshot : SchedulerJobSnapshot} (h : w.phase = .snapshotRead now snapshot) :
      Effect w .takePending { w with
        phase := .finalizing now snapshot (w.runtime.takeRetryReadyPendingScanFinalize now) }
  | nothingToFinalize {storeError : Option String} {now : ℤ} {snapshot : SchedulerJobSnapshot}
      (h : w.phase = .finalizing now snapshot none) :
      Effect w (.finalize storeError) { w with phase := .checking now snapshot }
  | finalize {storeError : Option String} {now : ℤ} {snapshot : SchedulerJobSnapshot}
      {result : ScanResult} (h : w.phase = .finalizing now snapshot (some result)) :
      Effect w (.finalize storeError)
        { w.finalized now result storeError with phase := .checking now snapshot }
  | check {now : ℤ} {snapshot : SchedulerJobSnapshot} (h : w.phase = .checking now snapshot) :
      Effect w .check { w with
        runtime := (w.completion now snapshot).2
        phase := .choosing now snapshot (w.completion now snapshot).1 }
  | chooseFinish {ids : List String} {now : ℤ} {snapshot : SchedulerJobSnapshot}
      (h : w.phase = .choosing now snapshot true) :
      Effect w (.choose ids) { w with phase := .finishing }
  | chooseDispatch {ids : List String} {now : ℤ} {snapshot : SchedulerJobSnapshot}
      (h : w.phase = .choosing now snapshot false) (hfinished : snapshot.scanFinished = false)
      (hids : ids ≠ []) :
      Effect w (.choose ids) { w with phase := .dispatching now ids }
  | chooseNothing {ids : List String} {now : ℤ} {snapshot : SchedulerJobSnapshot}
      (h : w.phase = .choosing now snapshot false) :
      Effect w (.choose ids) { w with phase := .idle }
  | abandon (h : w.phase.hand = none) : Effect w .abandon { w with phase := .idle }
  | finishEpoch {storeError : Option String} (h : w.phase = .finishing) :
      Effect w (.finishEpoch storeError) { w with
        phase := .idle, scanFinished := w.scanFinished || storeError.isNone }
  | takeNothing {skipEntries : List SkipEntry} {known : MasterScanUnit → List Disposition}
      {unitUuid taskUuid : String} {now : ℤ} {ids : List String} {runtime : JobScanRuntime}
      (h : w.phase = .dispatching now ids)
      (htake : w.runtime.takeScanAssignment w.job ⟨ids, skipEntries, known, unitUuid, taskUuid⟩ now =
        (none, runtime)) :
      Effect w (.take skipEntries known unitUuid taskUuid)
        { w with runtime := runtime, phase := .idle }
  | take {skipEntries : List SkipEntry} {known : MasterScanUnit → List Disposition}
      {unitUuid taskUuid : String} {now : ℤ} {ids : List String} {runtime : JobScanRuntime}
      {assignment : ScanAssignment} (h : w.phase = .dispatching now ids)
      (htake : w.runtime.takeScanAssignment w.job ⟨ids, skipEntries, known, unitUuid, taskUuid⟩ now =
        (some assignment, runtime)) :
      Effect w (.take skipEntries known unitUuid taskUuid) { w with
        runtime := runtime
        phase := .inserting now ids assignment
        dispatched := w.dispatched ++ [assignment] }
  | insert {now : ℤ} {ids : List String} {assignment : ScanAssignment}
      (h : w.phase = .inserting now ids assignment) :
      Effect w .insert { w with
        runtime := w.runtime.insertInflight assignment now
        phase := .dispatching now ids }
  | scanEvent {event : ScanEvent} {now : ℤ} {storeError : Option String} {w' : ScanWorld}
      (h : EventEffect w event now storeError w') :
      Effect w (.scanEvent event now storeError) w'

theorem effect_of_step {w w' : ScanWorld} {action : Action} (h : w.Step action w') :
    Effect w action w' := by
  revert h
  unfold Step
  fun_cases step w action <;> intro h <;> try cases h
  · next hphase => exact .readSnapshot hphase
  · next hphase => exact .takePending hphase
  · next hphase => exact .nothingToFinalize hphase
  · next hphase => exact .finalize hphase
  · next hphase => exact .check hphase
  · next shouldFinish hphase _ hchoose =>
    obtain rfl : shouldFinish = true := by grind [chooseTransferScanSchedulerAction]
    exact .chooseFinish hphase
  · next ids _ snapshot shouldFinish hphase chosen hchoose =>
    obtain ⟨rfl, hfinished, hids⟩ :
        shouldFinish = false ∧ snapshot.scanFinished = false ∧ ids ≠ [] := by
      grind [chooseTransferScanSchedulerAction]
    have hchosen : chosen = ids := by simp [chosen, hfinished]
    rw [hchosen]
    exact .chooseDispatch hphase hfinished hids
  · next shouldFinish hphase _ hchoose =>
    obtain rfl : shouldFinish = false := by grind [chooseTransferScanSchedulerAction]
    exact .chooseNothing hphase
  · next shouldFinish hphase _ hchoose =>
    obtain rfl : shouldFinish = false := by grind [chooseTransferScanSchedulerAction]
    exact .chooseNothing hphase
  · next hphase => exact .abandon (by rw [hphase]; rfl)
  · next hphase => exact .abandon (by rw [hphase]; rfl)
  · next hphase => exact .finishEpoch hphase
  · next hphase _ htake => exact .takeNothing hphase htake
  · next hphase _ _ htake => exact .take hphase htake
  · next hphase => exact .insert hphase
  · next hthrough => exact .scanEvent (eventEffect_of_step (by simp [Step, step, hthrough]; rfl))
  · next hthrough => exact .scanEvent (eventEffect_of_step (by simp [Step, step, hthrough]; rfl))

end ScanWorld

end Fluxon.TransferScan
