import Fluxon.TransferScan.Scheduler
import Mathlib.Tactic.Abel

/-!
# The frontier of a scan

A scan unit that waits, is being handed out or is worked on stands for a root and a generation.
`ScanWorld.units` is the multiset of these. A step keeps every one of them, except that a unit
whose last event is accepted leaves, and that a unit whose assignment expires or fails is replaced
by one of the same root and the next generation; and it adds a unit for each child that it takes
over, and no other. This is `ScanWorld.Conserved`; here it is shown for the expiry of assignments,
for the finalization of a unit and for the events.

`ScanWorld.Phased` says what the scheduler knows between two accesses to the runtime.
-/

namespace Fluxon.TransferScan

open JobScanRuntime Multiset MasterScanUnit

/-- A root and a generation. -/
abbrev UnitKey := Relpath × ℤ

/-- The unit that replaces one whose assignment came to nothing. -/
def nextGeneration (u : UnitKey) : UnitKey := (u.1, u.2 + 1)

/-- The root and the generation of a unit in the queue. -/
def MasterScanUnit.key (u : MasterScanUnit) : UnitKey := (u.rootRelpath, u.generation)

/-- The root and the generation of an assignment. -/
def ScanAssignment.key (a : ScanAssignment) : UnitKey := (a.rootRelpath, a.generation)

/-- The root and the generation of a child. -/
def ScanChildUnit.key (c : ScanChildUnit) : UnitKey := (c.rootRelpath, c.generation)

namespace JobScanRuntime

/-- The units that wait. -/
def queueUnits (r : JobScanRuntime) : Multiset UnitKey := r.queue.map key

/-- The units that are worked on. -/
def inflightUnits (r : JobScanRuntime) : Multiset UnitKey :=
  Table.image (fun _ inflight => inflight.assignment.key) r.inflight

/-- The three collections are empty. -/
def Drained (r : JobScanRuntime) : Prop :=
  r.queue = [] ∧ r.inflight.entries = [] ∧ r.pendingFinalize.entries = []

variable {r r' : JobScanRuntime} {job : JobRecord} {input : DispatchInput} {now : ℤ}

theorem Drained.inflight_lookup (h : r.Drained) (id : String) : r.inflight.lookup id = none := by
  cases hlookup : r.inflight.lookup id with
  | none => rfl
  | some entry =>
    have hmem := Table.mem_entries_iff (e := ⟨id, entry⟩) |>.2 hlookup
    rw [h.2.1] at hmem
    cases hmem

theorem Drained.pending_lookup (h : r.Drained) (id : String) :
    r.pendingFinalize.lookup id = none := by
  cases hlookup : r.pendingFinalize.lookup id with
  | none => rfl
  | some pending =>
    have hmem := Table.mem_entries_iff (e := ⟨id, pending⟩) |>.2 hlookup
    rw [h.2.2] at hmem
    cases hmem

/-! ## Expired assignments -/

/-- Some assignments that were out are back in the queue, with the next generation; nothing else
changed. -/
structure Requeues (r r' : JobScanRuntime) : Prop where
  epoch : r'.activeScanEpoch = r.activeScanEpoch
  pending : r'.pendingFinalize = r.pendingFinalize
  out : ∀ id inflight, r'.inflight.lookup id = some inflight → r.inflight.lookup id = some inflight
  moved : ∃ gone : Multiset UnitKey, r.inflightUnits = r'.inflightUnits + gone ∧
    r'.queueUnits = r.queueUnits + gone.map nextGeneration

theorem Requeues.refl (r : JobScanRuntime) : Requeues r r where
  epoch := rfl
  pending := rfl
  out := fun _ _ h => h
  moved := ⟨0, by simp, by simp⟩

theorem Requeues.trans {r₁ r₂ r₃ : JobScanRuntime} (h : Requeues r₁ r₂) (h' : Requeues r₂ r₃) :
    Requeues r₁ r₃ where
  epoch := h'.epoch.trans h.epoch
  pending := h'.pending.trans h.pending
  out := fun id inflight hlookup => h.out id inflight (h'.out id inflight hlookup)
  moved := by
    obtain ⟨gone, hinflight, hqueue⟩ := h.moved
    obtain ⟨gone', hinflight', hqueue'⟩ := h'.moved
    refine ⟨gone' + gone, ?_, ?_⟩
    · rw [hinflight, hinflight', add_assoc]
    · rw [hqueue', hqueue, map_add, add_assoc, add_comm (gone.map _)]

theorem inflightUnits_of_lookup {id : String} {inflight : MasterInflightScan}
    (h : r.inflight.lookup id = some inflight) :
    r.inflightUnits = inflight.assignment.key ::ₘ
      Table.image (fun _ inflight => inflight.assignment.key) (r.inflight.erase id) :=
  Table.image_of_lookup _ h

theorem requeues_requeueExpired (r : JobScanRuntime) (id : String) :
    Requeues r (r.requeueExpired id) := by
  unfold requeueExpired
  cases hlookup : r.inflight.lookup id with
  | none => exact .refl r
  | some inflight =>
    refine ⟨rfl, rfl, ?_, {inflight.assignment.key}, ?_, ?_⟩
    · exact fun id' inflight' h => (Table.lookup_of_erase h).2
    · rw [inflightUnits_of_lookup hlookup, add_comm, singleton_add]
      rfl
    · simp [queueUnits, key, ScanAssignment.requeued, nextGeneration, ScanAssignment.key, ← coe_add]

theorem requeues_expireScanTimeouts (r : JobScanRuntime) (now : ℤ) :
    Requeues r (r.expireScanTimeouts now) := by
  unfold expireScanTimeouts
  generalize ((inOrder r.inflight).filter fun e => isExpired now e.2).map (·.1) = ids
  induction ids generalizing r with
  | nil => exact .refl r
  | cons id ids ih => exact (requeues_requeueExpired r id).trans (ih _)

/-! ## Assignments -/

section

variable (hids : input.srcExporterIds ≠ [])
include hids

theorem assign_spec {scanUnit : MasterScanUnit} :
    ∃ assignment, r.assign job input now scanUnit = some assignment ∧
      assignment.key = scanUnit.key := by
  obtain ⟨agent, hagent⟩ := Option.isSome_iff_exists.1 (chooseOnlineExportAgent_isSome hids
    (transferScanUnitPlacementKey job.jobId r.activeScanEpoch scanUnit))
  refine ⟨_, by simp only [assign, hagent, Option.map_some]; rfl, rfl⟩

variable (hepoch : r.activeScanEpoch = job.scanEpoch)
include hepoch

/-- A round of the dispatch loop after the expiry: the queue or the limit stops it, or the first
unit of the queue becomes an assignment. -/
theorem takeScanAssignment_spec :
    r.takeScanAssignment job input now = (none, r.expireScanTimeouts now) ∨
      ∃ assignment scanUnit rest,
        (r.expireScanTimeouts now).queue = scanUnit :: rest ∧ assignment.key = scanUnit.key ∧
        r.takeScanAssignment job input now =
          (some assignment, { r.expireScanTimeouts now with queue := rest }) := by
  have hreset : r.resetIfStale job.scanEpoch job.srcRootRelpath = r := by
    simp [resetIfStale, hepoch]
  unfold takeScanAssignment
  rw [hreset]
  by_cases hfull : (r.expireScanTimeouts now).inflight.entries.length ≥ scanConcurrencyLimit job
  · exact .inl (if_pos hfull)
  rw [if_neg hfull]
  cases hqueue : (r.expireScanTimeouts now).queue with
  | nil => exact .inl rfl
  | cons scanUnit rest =>
    obtain ⟨assignment, hassign, hkey⟩ :=
      @assign_spec { r.expireScanTimeouts now with queue := rest } job input now hids scanUnit
    exact .inr ⟨assignment, scanUnit, rest, rfl, hkey, Prod.ext hassign rfl⟩

theorem takeScanAssignment_none (h : r.takeScanAssignment job input now = (none, r')) :
    r' = r.expireScanTimeouts now := by
  obtain heq | ⟨assignment, scanUnit, rest, -, -, heq⟩ :=
    @takeScanAssignment_spec r job input now hids hepoch
  · rw [heq] at h
    exact (Prod.mk.inj h).2.symm
  · rw [heq] at h
    cases h

theorem takeScanAssignment_some {assignment : ScanAssignment}
    (h : r.takeScanAssignment job input now = (some assignment, r')) :
    ∃ scanUnit rest, (r.expireScanTimeouts now).queue = scanUnit :: rest ∧
      assignment.key = scanUnit.key ∧ r' = { r.expireScanTimeouts now with queue := rest } := by
  obtain heq | ⟨assignment', scanUnit, rest, hqueue, hkey, heq⟩ :=
    @takeScanAssignment_spec r job input now hids hepoch
  · rw [heq] at h
    cases h
  · rw [heq] at h
    cases h
    exact ⟨scanUnit, rest, hqueue, hkey, rfl⟩

end

/-! ## Finalization -/

theorem livePending_eq_some {result : ScanResult} {pending : MasterPendingScanFinalize}
    (h : r.livePending result = some pending) :
    r.pendingFinalize.lookup result.scanUnitId = some pending ∧ pending.result = result := by
  unfold livePending at h
  split at h
  · cases h
  · simpa [Option.filter_eq_some_iff] using h

end JobScanRuntime

namespace ScanWorld

/-- The store finalizes a result: the entry is gone or not live, gets a new retry time, or makes
way for the children of the result. -/
theorem finalized_cases (w : ScanWorld) (now : ℤ) (result : ScanResult)
    (storeError : Option String) :
    w.finalized now result storeError = w ∨
      ∃ pending, w.runtime.pendingFinalize.lookup result.scanUnitId = some pending ∧
        pending.result = result ∧
        (w.finalized now result storeError = { w with runtime := { w.runtime with
            pendingFinalize := AList.insert result.scanUnitId
              { pending with nextRetryUnixMs := now + transferScanFinalizeRetryDelayMs }
              w.runtime.pendingFinalize } } ∨
          w.finalized now result storeError = { w with
            runtime := { w.runtime with
              pendingFinalize := w.runtime.pendingFinalize.erase result.scanUnitId
              queue := result.childScanUnits.map ScanChildUnit.toMaster ++ w.runtime.queue }
            enqueued := w.enqueued ++ result.childScanUnits }) := by
  cases hlive : w.runtime.livePending result with
  | none =>
    cases storeError <;>
      simp [finalized, schedulePendingScanFinalizeRetry, completePendingScanFinalizeIfLive, hlive]
  | some pending =>
    obtain ⟨hlookup, hresult⟩ := livePending_eq_some hlive
    refine .inr ⟨pending, hlookup, hresult, ?_⟩
    cases storeError with
    | some detail => simp [finalized, schedulePendingScanFinalizeRetry, hlive]
    | none => simp [finalized, completePendingScanFinalizeIfLive, hlive, enqueueChildUnits]

/-! ## Where the scheduler stands -/

/-- What the scheduler knows in each phase. -/
def PhaseOk (w : ScanWorld) : Prop :=
  match w.phase with
  | .idle => True
  | .snapshotRead _ snapshot | .finalizing _ snapshot _ | .checking _ snapshot =>
    snapshot = ⟨w.job.scanEpoch, w.scanFinished⟩
  | .choosing _ snapshot shouldFinish =>
    snapshot = ⟨w.job.scanEpoch, w.scanFinished⟩ ∧
      (shouldFinish = true → w.runtime.Drained ∧ w.scanFinished = false)
  | .finishing => w.runtime.Drained ∧ w.scanFinished = false
  | .dispatching _ ids | .inserting _ ids _ => ids ≠ [] ∧ w.scanFinished = false

/-- The runtime is that of the epoch, and an epoch that is finished has nothing left. -/
structure Phased (w : ScanWorld) : Prop where
  epoch : w.runtime.activeScanEpoch = w.job.scanEpoch
  phase : w.PhaseOk
  drained : w.scanFinished = true → w.runtime.Drained

theorem Phased.init (job : JobRecord) : Phased (init job) := ⟨rfl, trivial, nofun⟩

variable {w w' : ScanWorld} {now : ℤ} {id : String}

/-- A runtime with nothing in it ignores every event. -/
theorem getsThrough_of_drained (h : w.runtime.Drained) (event : ScanEvent)
    (storeError : Option String) : w.getsThrough event storeError = false := by
  cases hverdict : w.runtime.scanEventVerdict event with
  | answer | sequenceGap => simp [getsThrough, hverdict]
  | accept entry =>
    have hlookup := (scanEventVerdict_accept hverdict).2.2.1
    rw [h.inflight_lookup] at hlookup
    cases hlookup

/-- The check for completion in the current epoch. -/
theorem completion_eq (h : Phased w) (now : ℤ) :
    (w.scanFinished = true ∧ (w.completion now ⟨w.job.scanEpoch, w.scanFinished⟩).1 = false ∧
      (w.completion now ⟨w.job.scanEpoch, w.scanFinished⟩).2.Drained ∧
      (w.completion now ⟨w.job.scanEpoch, w.scanFinished⟩).2.activeScanEpoch =
        w.runtime.activeScanEpoch) ∨
    (w.scanFinished = false ∧
      (w.completion now ⟨w.job.scanEpoch, w.scanFinished⟩).2 = w.runtime.expireScanTimeouts now ∧
      ((w.completion now ⟨w.job.scanEpoch, w.scanFinished⟩).1 = true →
        (w.runtime.expireScanTimeouts now).Drained)) := by
  have hreset : w.runtime.resetIfStale w.job.scanEpoch w.job.srcRootRelpath = w.runtime := by
    simp [resetIfStale, h.epoch]
  simp only [completion, hreset, takeCompletedScanEpochIfReady]
  cases w.scanFinished with
  | true =>
    exact .inl ⟨rfl, rfl, ⟨rfl, rfl, rfl⟩, (requeues_expireScanTimeouts w.runtime now).epoch⟩
  | false => exact .inr ⟨rfl, rfl, fun hdone => by simpa [JobScanRuntime.Drained] using hdone⟩

theorem Phased.finalized (h : Phased w) {snapshot : SchedulerJobSnapshot} {result : ScanResult}
    (storeError : Option String) (hphase : w.phase = .finalizing now snapshot (some result)) :
    Phased { w.finalized now result storeError with phase := .checking now snapshot } := by
  have hsnapshot : snapshot = ⟨w.job.scanEpoch, w.scanFinished⟩ := by
    simpa [PhaseOk, hphase] using h.phase
  obtain heq | ⟨pending, hlookup, -, heq⟩ := w.finalized_cases now result storeError
  · rw [heq]
    exact ⟨h.epoch, hsnapshot, h.drained⟩
  have hfinished : w.scanFinished = false := by
    cases hw : w.scanFinished with
    | false => rfl
    | true =>
      rw [(h.drained hw).pending_lookup] at hlookup
      cases hlookup
  obtain heq | heq := heq
  · rw [heq]
    exact ⟨h.epoch, hsnapshot, fun hw => by simp [hfinished] at hw⟩
  · rw [heq]
    exact ⟨h.epoch, hsnapshot, fun hw => by simp [hfinished] at hw⟩

variable {storeError : Option String} {entry : MasterInflightScan}

theorem Phased.event {event : ScanEvent} (h : Phased w)
    (heffect : EventEffect w event now storeError w') : Phased w' := by
  by_cases hthrough : w.getsThrough event storeError = true
  · have hbusy : ¬ w.runtime.Drained := fun hdrained => by
      rw [getsThrough_of_drained hdrained] at hthrough
      cases hthrough
    have hkeep : ∀ (w' : ScanWorld), w'.job = w.job → w'.scanFinished = w.scanFinished →
        w'.phase = w.phase → w'.runtime.activeScanEpoch = w.runtime.activeScanEpoch →
        Phased w' := by
      intro w' hjob hfinished hphase hepoch
      have hnot : w.scanFinished ≠ true := fun hw => hbusy (h.drained hw)
      refine ⟨by rw [hepoch, hjob, h.epoch], ?_, fun hw => absurd (hfinished ▸ hw) hnot⟩
      have hok := h.phase
      unfold PhaseOk at hok ⊢
      rw [hphase, hjob, hfinished]
      cases hw : w.phase with
      | choosing now snapshot shouldFinish =>
        simp only [hw] at hok ⊢
        exact ⟨hok.1, fun hs => absurd (hok.2 hs).1 hbusy⟩
      | finishing =>
        simp only [hw] at hok
        exact absurd hok.1 hbusy
      | _ => simp_all
    cases heffect with
    | ignored => exact h
    | _ => exact hkeep _ rfl rfl rfl rfl
  · cases heffect with
    | ignored => exact h
    | started hverdict hkind | failed hverdict hkind =>
      simp [getsThrough, hverdict, hkind] at hthrough
    | appended hverdict _ hstore | finished hverdict _ hstore =>
      simp [getsThrough, hverdict, hstore] at hthrough

theorem Phased.step {action : Action} (h : Phased w) (hstep : w.Step action w') : Phased w' := by
  have hok := h.phase
  unfold PhaseOk at hok
  cases effect_of_step hstep with
  | readSnapshot hphase => exact ⟨h.epoch, rfl, h.drained⟩
  | takePending hphase | nothingToFinalize hphase =>
    simp only [hphase] at hok
    exact ⟨h.epoch, hok, h.drained⟩
  | finalize hphase => exact h.finalized _ hphase
  | @check now snapshot hphase =>
    simp only [hphase] at hok
    subst hok
    obtain ⟨hfinished, hfalse, hdrained, hepoch⟩ | ⟨hfinished, hruntime, hdone⟩ :=
      completion_eq h now
    · refine ⟨hepoch.trans h.epoch, ⟨rfl, fun htrue => ?_⟩, fun _ => hdrained⟩
      rw [hfalse] at htrue
      cases htrue
    refine ⟨?_, ⟨rfl, fun htrue => ⟨?_, hfinished⟩⟩, fun hw => ?_⟩
    · rw [hruntime]
      exact (requeues_expireScanTimeouts w.runtime now).epoch.trans h.epoch
    · rw [hruntime]
      exact hdone htrue
    · rw [hfinished] at hw
      cases hw
  | chooseFinish hphase =>
    simp only [hphase] at hok
    exact ⟨h.epoch, hok.2 trivial, h.drained⟩
  | chooseDispatch hphase hfinished hids =>
    simp only [hphase] at hok
    have hw : w.scanFinished = false := by
      rw [hok.1] at hfinished
      exact hfinished
    exact ⟨h.epoch, ⟨hids, hw⟩, h.drained⟩
  | chooseNothing | abandon => exact ⟨h.epoch, trivial, h.drained⟩
  | finishEpoch hphase =>
    simp only [hphase] at hok
    exact ⟨h.epoch, trivial, fun _ => hok.1⟩
  | takeNothing hphase htake =>
    simp only [hphase] at hok
    have hruntime := takeScanAssignment_none hok.1 h.epoch htake
    refine ⟨?_, trivial, fun hw => ?_⟩
    · rw [hruntime]
      exact (requeues_expireScanTimeouts w.runtime _).epoch.trans h.epoch
    · rw [hok.2] at hw
      cases hw
  | take hphase htake =>
    simp only [hphase] at hok
    obtain ⟨scanUnit, rest, -, -, hruntime⟩ := takeScanAssignment_some hok.1 h.epoch htake
    refine ⟨?_, hok, fun hw => ?_⟩
    · rw [hruntime]
      exact (requeues_expireScanTimeouts w.runtime _).epoch.trans h.epoch
    · rw [hok.2] at hw
      cases hw
  | insert hphase =>
    simp only [hphase] at hok
    refine ⟨h.epoch, hok, fun hw => ?_⟩
    rw [hok.2] at hw
    cases hw
  | scanEvent heffect => exact h.event heffect

/-! ## The units of the epoch -/

/-- The unit between the queue and the assignments that are out. -/
def handUnits (w : ScanWorld) : Multiset UnitKey :=
  match w.phase.hand with
  | none => 0
  | some assignment => {assignment.key}

/-- The units that wait, are being handed out or are worked on. -/
def units (w : ScanWorld) : Multiset UnitKey :=
  w.runtime.queueUnits + w.handUnits + w.runtime.inflightUnits

/-- The last event of a unit with this root was accepted. -/
def Scanned (w : ScanWorld) (root : Relpath) : Prop :=
  ∃ assignment ∈ w.dispatched, ∃ event ∈ w.accepted, assignment.rootRelpath = root ∧
    event.eventKind = .finished ∧ event.scanUnitId = assignment.scanUnitId ∧
    event.scanTaskId = assignment.scanTaskId

/-- The root of the assignment with an identifier. -/
def rootOf (w : ScanWorld) (scanUnitId : String) : Option Relpath :=
  (w.dispatched.find? fun assignment => assignment.scanUnitId = scanUnitId).map (·.rootRelpath)

/-- The roots of the units whose last event was accepted, one for each of these events. -/
def scannedRoots (w : ScanWorld) : Multiset Relpath :=
  ((w.accepted.filter fun event => event.eventKind = .finished).filterMap fun event =>
    w.rootOf event.scanUnitId : List Relpath)

/-- The account of a step. Of the units before it some are kept, some leave because their root was
scanned now, and the others are replaced by units of the same root and the next generation. The
units after it are these and one for each child that it put into the queue. -/
def Conserved (w w' : ScanWorld) : Prop :=
  ∃ (kept scanned requeued : Multiset UnitKey) (children : List ScanChildUnit),
    w.units = kept + scanned + requeued ∧
    w'.units = kept + requeued.map nextGeneration +
      (children.map ScanChildUnit.key : List UnitKey) ∧
    w'.enqueued = w.enqueued ++ children ∧
    w'.scannedRoots = w.scannedRoots + scanned.map Prod.fst ∧
    ∀ u ∈ scanned, w'.Scanned u.1

theorem Conserved.of_requeued (kept requeued : Multiset UnitKey) (h : w.units = kept + requeued)
    (h' : w'.units = kept + requeued.map nextGeneration)
    (hroots : w'.scannedRoots = w.scannedRoots := by rfl)
    (henqueued : w'.enqueued = w.enqueued := by rfl) : Conserved w w' :=
  ⟨kept, 0, requeued, [], by simpa using h, by simpa using h', by simpa using henqueued,
    by simpa using hroots, by simp⟩

theorem Conserved.of_eq (h : w'.units = w.units)
    (hroots : w'.scannedRoots = w.scannedRoots := by rfl)
    (henqueued : w'.enqueued = w.enqueued := by rfl) : Conserved w w' :=
  .of_requeued w.units 0 (by simp) (by simpa using h) hroots henqueued

theorem Conserved.requeues (h : JobScanRuntime.Requeues w.runtime w'.runtime)
    (hhand : w'.handUnits = w.handUnits) (hroots : w'.scannedRoots = w.scannedRoots := by rfl)
    (henqueued : w'.enqueued = w.enqueued := by rfl) : Conserved w w' := by
  obtain ⟨gone, hinflight, hqueue⟩ := h.moved
  refine .of_requeued (w.runtime.queueUnits + w.handUnits + w'.runtime.inflightUnits) gone ?_ ?_
    hroots henqueued
  · rw [units, hinflight, add_assoc, add_assoc, add_assoc]
  · rw [units, hqueue, hhand]
    abel

theorem handUnits_of_none (h : w.phase.hand = none) : w.handUnits = 0 := by rw [handUnits, h]

theorem units_of_drained (h : w.runtime.Drained) (hhand : w.phase.hand = none) : w.units = 0 := by
  simp [units, handUnits_of_none hhand, queueUnits, h.1, inflightUnits, Table.image, h.2.1]

/-- Work on a unit goes on. -/
theorem inflightUnits_renewed {r : JobScanRuntime} (h : r.inflight.lookup id = some entry)
    (eventSeqNo now : ℤ) :
    Table.image (fun _ inflight => inflight.assignment.key)
      (AList.insert id (renewed entry eventSeqNo now) r.inflight) =
      r.inflightUnits := by
  rw [Table.image_insert, inflightUnits_of_lookup h]
  rfl

/-- Children are put into the queue. -/
theorem Conserved.of_grown (children : List ScanChildUnit)
    (hqueue : w'.runtime.queue = children.map ScanChildUnit.toMaster ++ w.runtime.queue)
    (hhand : w'.handUnits = w.handUnits)
    (hinflight : w'.runtime.inflightUnits = w.runtime.inflightUnits)
    (henqueued : w'.enqueued = w.enqueued ++ children)
    (hroots : w'.scannedRoots = w.scannedRoots := by rfl) : Conserved w w' := by
  have hunits : w'.runtime.queueUnits =
      (children.map ScanChildUnit.key : List UnitKey) + w.runtime.queueUnits := by
    rw [queueUnits, hqueue, List.map_append, List.map_map, ← coe_add]
    rfl
  refine ⟨w.units, 0, 0, children, by simp, ?_, henqueued, by simpa using hroots, by simp⟩
  rw [units, units, hunits, hhand, hinflight, map_zero]
  abel

/-! ## The scanned roots -/

section

variable {event : ScanEvent} {root : Relpath}

theorem rootOf_of_mem {assignment : ScanAssignment}
    (hdistinct : (w.dispatched.map (·.scanUnitId)).Nodup) (h : assignment ∈ w.dispatched) :
    w.rootOf assignment.scanUnitId = some assignment.rootRelpath := by
  unfold rootOf
  cases hfind : w.dispatched.find? fun a => a.scanUnitId = assignment.scanUnitId with
  | none => simpa using List.find?_eq_none.1 hfind assignment h
  | some found =>
    have hid : found.scanUnitId = assignment.scanUnitId := by simpa using List.find?_some hfind
    rw [List.inj_on_of_nodup_map hdistinct (List.mem_of_find?_eq_some hfind) h hid]
    rfl

section

variable (hdispatched : w'.dispatched = w.dispatched)
  (haccepted : w'.accepted = w.accepted ++ [event])
include hdispatched haccepted

theorem scannedRoots_of_not_finished (hkind : event.eventKind ≠ .finished) :
    w'.scannedRoots = w.scannedRoots := by
  simp [scannedRoots, rootOf, hdispatched, haccepted, List.filter_append, hkind]

theorem scannedRoots_of_finished (hkind : event.eventKind = .finished)
    (hroot : w.rootOf event.scanUnitId = some root) :
    w'.scannedRoots = w.scannedRoots + {root} := by
  have hroot' : w'.rootOf = w.rootOf := by
    funext id
    rw [rootOf, rootOf, hdispatched]
  simp [scannedRoots, hroot', haccepted, List.filter_append, hkind, hroot, ← coe_add]

end

/-- A new assignment does not change the roots of the events that were accepted before. -/
theorem scannedRoots_of_dispatched {assignment : ScanAssignment}
    (hdispatched : w'.dispatched = w.dispatched ++ [assignment])
    (haccepted : w'.accepted = w.accepted)
    (hknown : ∀ event ∈ w.accepted, ∃ a ∈ w.dispatched, a.scanUnitId = event.scanUnitId) :
    w'.scannedRoots = w.scannedRoots := by
  unfold scannedRoots
  rw [haccepted]
  refine congrArg _ (List.filterMap_congr ?_)
  intro event hevent
  obtain ⟨a, ha, hid⟩ := hknown event (List.mem_of_mem_filter hevent)
  have hfound : (w.dispatched.find? fun a => a.scanUnitId = event.scanUnitId).isSome := by
    simpa using ⟨a, ha, hid⟩
  rw [rootOf, rootOf, hdispatched, List.find?_append, Option.or_of_isSome hfound]

end

/-! ## Finalization and events -/

theorem Conserved.finalized (w : ScanWorld) (now : ℤ) (snapshot : SchedulerJobSnapshot)
    (result : ScanResult) (storeError : Option String) (hhand : w.phase.hand = none) :
    Conserved w { w.finalized now result storeError with phase := .checking now snapshot } := by
  have hhand' := handUnits_of_none hhand
  obtain heq | ⟨pending, -, -, heq | heq⟩ := w.finalized_cases now result storeError
  · rw [heq]
    exact .of_grown [] rfl hhand'.symm rfl (List.append_nil _).symm
  · rw [heq]
    exact .of_grown [] rfl hhand'.symm rfl (List.append_nil _).symm
  · rw [heq]
    exact .of_grown result.childScanUnits rfl hhand'.symm rfl rfl

/-- The units without the one of an identifier that is out. -/
def unitsWithout (w : ScanWorld) (id : String) : Multiset UnitKey :=
  w.runtime.queueUnits + w.handUnits +
    Table.image (fun _ inflight => inflight.assignment.key) (w.runtime.inflight.erase id)

theorem units_of_lookup (h : w.runtime.inflight.lookup id = some entry) :
    w.units = w.unitsWithout id + {entry.assignment.key} := by
  rw [units, unitsWithout, inflightUnits_of_lookup h, ← singleton_add]
  abel

theorem units_requeued (assignment : ScanAssignment)
    (hqueue : w'.runtime.queue = w.runtime.queue ++ [assignment.requeued])
    (hinflight : w'.runtime.inflight = w.runtime.inflight.erase id) (hphase : w'.phase = w.phase) :
    w'.units = w.unitsWithout id + {nextGeneration assignment.key} := by
  have hqueue' : w'.runtime.queueUnits =
      w.runtime.queueUnits + {nextGeneration assignment.key} := by
    rw [queueUnits, hqueue, List.map_append, ← coe_add]
    rfl
  rw [units, unitsWithout, hqueue', handUnits, handUnits, hphase, inflightUnits, hinflight]
  abel

theorem Conserved.event {event : ScanEvent} (h : EventEffect w event now storeError w')
    (hscanned : ∀ entry, w.runtime.scanEventVerdict event = .accept entry →
      event.eventKind = .finished → w'.accepted = w.accepted ++ [event] →
      w'.dispatched = w.dispatched → w'.Scanned entry.assignment.rootRelpath ∧
        w.rootOf event.scanUnitId = some entry.assignment.rootRelpath) : Conserved w w' := by
  cases h with
  | ignored => exact .of_eq rfl
  | started hverdict hkind =>
    have hlookup := (scanEventVerdict_accept hverdict).2.2.1
    exact .of_grown [] rfl rfl (inflightUnits_renewed hlookup _ _) (List.append_nil _).symm
      (scannedRoots_of_not_finished rfl rfl (by simp [hkind]))
  | appended hverdict hkind hstore =>
    have hlookup := (scanEventVerdict_accept hverdict).2.2.1
    exact .of_grown event.childScanUnits rfl rfl (inflightUnits_renewed hlookup _ _) rfl
      (scannedRoots_of_not_finished rfl rfl (by simp [hkind]))
  | @finished entry hverdict hkind hstore =>
    have hlookup := (scanEventVerdict_accept hverdict).2.2.1
    obtain ⟨hroot, hof⟩ := hscanned entry hverdict hkind rfl rfl
    refine ⟨w.unitsWithout event.scanUnitId, {entry.assignment.key}, 0, [], ?_, ?_, ?_, ?_, ?_⟩
    · rw [units_of_lookup hlookup, add_zero]
    · rw [map_zero, add_zero]
      exact (add_zero _).symm
    · exact (List.append_nil _).symm
    · exact scannedRoots_of_finished rfl rfl hkind hof
    · intro u hu
      rw [mem_singleton.1 hu]
      exact hroot
  | @failed entry hverdict hkind =>
    have hlookup := (scanEventVerdict_accept hverdict).2.2.1
    refine .of_requeued (w.unitsWithout event.scanUnitId) {entry.assignment.key}
      (units_of_lookup hlookup) ?_ (scannedRoots_of_not_finished rfl rfl (by simp [hkind]))
    exact units_requeued entry.assignment rfl rfl rfl

end ScanWorld

end Fluxon.TransferScan
