import Fluxon.TransferScan.Frontier

/-!
# No unit of a scan is lost

`ScanWorld.Tracked` keeps assignments, events and units apart by their identifiers, and
`ScanWorld.Recorded` says that every accepted event is applied to the store once and that its
children are queued once, at the latest with the finalization of its unit. `ScanWorld.Balanced` is
the account of a whole run: the roots of the units and the scanned roots are the source root and the
roots of the children that were queued. Together with the conservation of the units by each step
this gives `scan_frontier_conserved`: an epoch is finished only when every root that ever was in the
queue has been scanned.
-/

namespace Fluxon.TransferScan

open JobScanRuntime List List.Subset ScanEvent Table

/-- The events whose result goes to the store. -/
def ScanEvent.carriesWork (event : ScanEvent) : Bool :=
  event.eventKind = .append ∨ event.eventKind = .finished

namespace ScanWorld

/-! ## Assignments and accepted events -/

/-- The assignments that are out, the units that wait for their finalization and the events that
were accepted belong to assignments with identifiers of their own. -/
structure Tracked (w : ScanWorld) : Prop where
  distinct : (w.dispatched.map (·.scanUnitId)).Nodup
  out : ∀ id entry, w.runtime.inflight.lookup id = some entry →
    w.runtime.pendingFinalize.lookup id = none ∧ ∃ assignment ∈ w.dispatched,
      assignment.scanUnitId = id ∧ assignment.scanTaskId = entry.assignment.scanTaskId ∧
      assignment.rootRelpath = entry.assignment.rootRelpath
  hand : ∀ assignment ∈ w.phase.hand, assignment ∈ w.dispatched ∧
    w.runtime.inflight.lookup assignment.scanUnitId = none ∧
    w.runtime.pendingFinalize.lookup assignment.scanUnitId = none ∧
    ∀ event ∈ w.accepted, event.scanUnitId ≠ assignment.scanUnitId
  waiting : ∀ id pending, w.runtime.pendingFinalize.lookup id = some pending →
    ∃ event ∈ w.accepted, event.scanUnitId = id ∧ event.eventKind = .finished ∧
      event.resultView = pending.result
  known : ∀ event ∈ w.accepted, ∃ assignment ∈ w.dispatched,
    assignment.scanUnitId = event.scanUnitId ∧ assignment.scanTaskId = event.scanTaskId
  sequence : ∀ event ∈ w.accepted, ∀ entry,
    w.runtime.inflight.lookup event.scanUnitId = some entry →
      event.eventSeqNo ≤ entry.lastAcceptedEventSeqNo
  once : (w.accepted.map fun event => (event.scanUnitId, event.eventSeqNo)).Nodup

theorem Tracked.init (job : JobRecord) : Tracked (init job) where
  distinct := nodup_nil
  out := nofun
  hand := nofun
  waiting := nofun
  known := nofun
  sequence := nofun
  once := nodup_nil

variable {w w' : ScanWorld} {now : ℤ} {storeError : Option String} {action : Action}

section

variable (h : Tracked w)
include h

/-- Nothing new happened: assignments and entries may have left. -/
theorem Tracked.shrink (hhand : ∀ assignment ∈ w'.phase.hand, assignment ∈ w.phase.hand)
    (hpending : ∀ id pending, w'.runtime.pendingFinalize.lookup id = some pending →
      ∃ pending', w.runtime.pendingFinalize.lookup id = some pending' ∧
        pending'.result = pending.result := by exact fun _ pending h => ⟨pending, h, rfl⟩)
    (hinflight : ∀ id entry, w'.runtime.inflight.lookup id = some entry →
      w.runtime.inflight.lookup id = some entry := by exact fun _ _ h => h)
    (hdispatched : w'.dispatched = w.dispatched := by rfl)
    (haccepted : w'.accepted = w.accepted := by rfl) : Tracked w' := by
  have hnone : ∀ id, w.runtime.pendingFinalize.lookup id = none →
      w'.runtime.pendingFinalize.lookup id = none := by
    intro id hid
    cases hw : w'.runtime.pendingFinalize.lookup id with
    | none => rfl
    | some pending =>
      obtain ⟨pending', hlookup, -⟩ := hpending id pending hw
      rw [hid] at hlookup
      cases hlookup
  constructor
  · rw [hdispatched]
    exact h.distinct
  · intro id entry hlookup
    obtain ⟨hid, hassignment⟩ := h.out id entry (hinflight id entry hlookup)
    rw [hdispatched]
    exact ⟨hnone id hid, hassignment⟩
  · intro assignment hassignment
    obtain ⟨hmem, hout, hwait, hfresh⟩ := h.hand assignment (hhand assignment hassignment)
    rw [hdispatched, haccepted]
    refine ⟨hmem, ?_, hnone _ hwait, hfresh⟩
    cases hw : w'.runtime.inflight.lookup assignment.scanUnitId with
    | none => rfl
    | some entry =>
      rw [hinflight _ _ hw] at hout
      cases hout
  · intro id pending hlookup
    obtain ⟨pending', hlookup', hresult⟩ := hpending id pending hlookup
    rw [haccepted, ← hresult]
    exact h.waiting id pending' hlookup'
  · rw [hdispatched, haccepted]
    exact h.known
  · rw [haccepted]
    intro event hevent entry hlookup
    exact h.sequence event hevent entry (hinflight _ _ hlookup)
  · rw [haccepted]
    exact h.once

theorem Tracked.requeues (hdispatched : w'.dispatched = w.dispatched)
    (haccepted : w'.accepted = w.accepted) (hruntime : JobScanRuntime.Requeues w.runtime w'.runtime)
    (hhand : ∀ assignment ∈ w'.phase.hand, assignment ∈ w.phase.hand) : Tracked w' :=
  h.shrink hhand (fun id pending hlookup => ⟨pending, by rwa [hruntime.pending] at hlookup, rfl⟩)
    hruntime.out hdispatched haccepted

/-- The next event of an assignment is accepted. -/
theorem Tracked.accept {event : ScanEvent} {entry : MasterInflightScan}
    (hverdict : w.runtime.scanEventVerdict event = .accept entry)
    (hdispatched : w'.dispatched = w.dispatched) (haccepted : w'.accepted = w.accepted ++ [event])
    (hphase : w'.phase = w.phase)
    (hinflight : ∀ id entry', w'.runtime.inflight.lookup id = some entry' →
      (id ≠ event.scanUnitId ∧ w.runtime.inflight.lookup id = some entry') ∨
      (id = event.scanUnitId ∧ entry'.lastAcceptedEventSeqNo = event.eventSeqNo ∧
        entry'.assignment.scanTaskId = entry.assignment.scanTaskId ∧
        entry'.assignment.rootRelpath = entry.assignment.rootRelpath ∧
        w'.runtime.pendingFinalize.lookup id = none))
    (hpending : ∀ id pending, w'.runtime.pendingFinalize.lookup id = some pending →
      w.runtime.pendingFinalize.lookup id = some pending ∨
      (id = event.scanUnitId ∧ event.eventKind = .finished ∧ pending.result = event.resultView)) :
    Tracked w' := by
  obtain ⟨-, -, hlookup, htask, -, -, hseq⟩ := scanEventVerdict_accept hverdict
  obtain ⟨-, assignment, hassignment, hid, htask', hroot⟩ := h.out _ _ hlookup
  have hnone : ∀ id, id ≠ event.scanUnitId → w.runtime.pendingFinalize.lookup id = none →
      w'.runtime.pendingFinalize.lookup id = none := by
    intro id hne hid
    cases hw : w'.runtime.pendingFinalize.lookup id with
    | none => rfl
    | some pending =>
      obtain hold | hnew := hpending id pending hw
      · rw [hid] at hold
        cases hold
      · exact absurd hnew.1 hne
  constructor
  · rw [hdispatched]
    exact h.distinct
  · intro id entry' hlookup'
    rw [hdispatched]
    obtain ⟨hne, hold⟩ | ⟨heq, -, htask'', hroot'', hwait⟩ := hinflight id entry' hlookup'
    · obtain ⟨hwait, hof⟩ := h.out id entry' hold
      exact ⟨hnone id hne hwait, hof⟩
    · exact ⟨hwait, assignment, hassignment, hid.trans heq.symm, htask'.trans htask''.symm,
        hroot.trans hroot''.symm⟩
  · intro other hother
    rw [hphase] at hother
    obtain ⟨hmem, hout, hwait, hfresh⟩ := h.hand other hother
    have hne : other.scanUnitId ≠ event.scanUnitId := by
      intro heq
      rw [heq, hlookup] at hout
      cases hout
    rw [hdispatched, haccepted]
    refine ⟨hmem, ?_, hnone _ hne hwait, ?_⟩
    · cases hw : w'.runtime.inflight.lookup other.scanUnitId with
      | none => rfl
      | some entry' =>
        obtain ⟨-, hold⟩ | ⟨heq, -⟩ := hinflight _ _ hw
        · rw [hout] at hold
          cases hold
        · exact absurd heq hne
    · intro event' hevent'
      obtain hold | hnew := mem_append.1 hevent'
      · exact hfresh event' hold
      · rw [mem_singleton.1 hnew]
        exact hne.symm
  · intro id pending hlookup'
    rw [haccepted]
    obtain hold | ⟨heq, hkind, hresult⟩ := hpending id pending hlookup'
    · obtain ⟨event', hevent', hrest⟩ := h.waiting id pending hold
      exact ⟨event', mem_append_left _ hevent', hrest⟩
    · exact ⟨event, by simp, heq.symm, hkind, hresult.symm⟩
  · intro event' hevent'
    rw [hdispatched]
    rw [haccepted] at hevent'
    obtain hold | hnew := mem_append.1 hevent'
    · exact h.known event' hold
    · rw [mem_singleton.1 hnew]
      exact ⟨assignment, hassignment, hid, htask'.trans htask⟩
  · intro event' hevent' entry' hlookup'
    rw [haccepted] at hevent'
    obtain ⟨hne, hold⟩ | ⟨heq, hlast, -⟩ := hinflight _ _ hlookup'
    · obtain hmem | hnew := mem_append.1 hevent'
      · exact h.sequence event' hmem entry' hold
      · rw [mem_singleton.1 hnew] at hne
        exact absurd rfl hne
    · rw [hlast]
      obtain hmem | hnew := mem_append.1 hevent'
      · have hle := h.sequence event' hmem entry (by rw [heq, hlookup])
        omega
      · rw [mem_singleton.1 hnew]
  · rw [haccepted, map_append, map_singleton]
    refine nodup_append.2 ⟨h.once, nodup_singleton _, ?_⟩
    intro key hkey key' hkey' heq
    obtain ⟨event', hmem, rfl⟩ := mem_map.1 hkey
    rw [mem_singleton.1 hkey', Prod.mk.injEq] at heq
    have hle := h.sequence event' hmem entry (by rw [heq.1, hlookup])
    omega

theorem Tracked.event {event : ScanEvent}
    (heffect : EventEffect w event now storeError w') : Tracked w' := by
  have hrenewed : ∀ (entry : MasterInflightScan),
      w.runtime.scanEventVerdict event = .accept entry → ∀ id entry',
      (AList.insert event.scanUnitId (renewed entry event.eventSeqNo now)
        w.runtime.inflight).lookup id = some entry' →
      (id ≠ event.scanUnitId ∧ w.runtime.inflight.lookup id = some entry') ∨
      (id = event.scanUnitId ∧ entry'.lastAcceptedEventSeqNo = event.eventSeqNo ∧
        entry'.assignment.scanTaskId = entry.assignment.scanTaskId ∧
        entry'.assignment.rootRelpath = entry.assignment.rootRelpath ∧
        w.runtime.pendingFinalize.lookup id = none) := by
    intro entry hverdict id entry' hlookup
    obtain ⟨heq, rfl⟩ | hother := lookup_insert_cases hlookup
    · have hwait := (scanEventVerdict_accept hverdict).2.1
      exact .inr ⟨heq, rfl, rfl, rfl, by rw [heq, hwait]⟩
    · exact .inl hother
  have herased : ∀ id (entry' : MasterInflightScan),
      (w.runtime.inflight.erase event.scanUnitId).lookup id = some entry' →
      id ≠ event.scanUnitId ∧ w.runtime.inflight.lookup id = some entry' := by
    intro id entry' hlookup
    rw [lookup_erase_eq] at hlookup
    split at hlookup
    · cases hlookup
    · next hne => exact ⟨hne, hlookup⟩
  cases heffect with
  | ignored => exact h
  | @started entry hverdict | @appended entry hverdict =>
    refine h.accept hverdict ?_ ?_ ?_ (hrenewed entry hverdict) ?_
    · rfl
    · rfl
    · rfl
    · exact fun _ _ hlookup => .inl hlookup
  | @finished entry hverdict hkind hstore =>
    refine h.accept hverdict ?_ ?_ ?_ (fun id entry' hlookup => .inl (herased id entry' hlookup)) ?_
    · rfl
    · rfl
    · rfl
    · intro id pending hlookup
      obtain ⟨heq, rfl⟩ | ⟨-, hlookup⟩ := lookup_insert_cases hlookup
      · exact .inr ⟨heq, hkind, rfl⟩
      · exact .inl hlookup
  | @failed entry hverdict hkind =>
    refine h.accept hverdict ?_ ?_ ?_ (fun id entry' hlookup => .inl (herased id entry' hlookup)) ?_
    · rfl
    · rfl
    · rfl
    · exact fun _ _ hlookup => .inl hlookup

theorem Tracked.finalized (now : ℤ) (snapshot : SchedulerJobSnapshot) (result : ScanResult)
    (storeError : Option String) :
    Tracked { w.finalized now result storeError with phase := .checking now snapshot } := by
  obtain heq | ⟨pending, hlookup, hresult, heq | heq⟩ := w.finalized_cases now result storeError
  · rw [heq]
    exact h.shrink nofun
  · rw [heq]
    refine h.shrink nofun fun id pending' h' => ?_
    obtain ⟨rfl, rfl⟩ | ⟨-, h'⟩ := lookup_insert_cases h'
    · exact ⟨pending, hlookup, rfl⟩
    · exact ⟨pending', h', rfl⟩
  · rw [heq]
    exact h.shrink nofun fun id pending' h' => ⟨pending', (lookup_of_erase h').2, rfl⟩

/-- A new assignment, with an identifier of its own. -/
theorem Tracked.dispatch {assignment : ScanAssignment} (now : ℤ) (ids : List String)
    (hfresh : assignment.scanUnitId ∉ w.dispatched.map (·.scanUnitId)) :
    Tracked { w with
      phase := .inserting now ids assignment
      dispatched := w.dispatched ++ [assignment] } where
  distinct := by
    rw [map_append, map_singleton]
    refine nodup_append.2 ⟨h.distinct, nodup_singleton _, ?_⟩
    intro id hid id' hid' heq
    rw [mem_singleton.1 hid'] at heq
    exact hfresh (heq ▸ hid)
  out := by
    intro id entry hlookup
    obtain ⟨hwait, other, hmem, hother⟩ := h.out id entry hlookup
    exact ⟨hwait, other, mem_append_left _ hmem, hother⟩
  hand := by
    intro other hother
    cases hother
    have hnew : ∀ event ∈ w.accepted, event.scanUnitId ≠ assignment.scanUnitId := by
      intro event hevent heq
      obtain ⟨other, hmem, hother, -⟩ := h.known event hevent
      exact hfresh (mem_map.2 ⟨other, hmem, hother.trans heq⟩)
    refine ⟨by simp, ?_, ?_, hnew⟩
    · cases hlookup : w.runtime.inflight.lookup assignment.scanUnitId with
      | none => rfl
      | some entry =>
        obtain ⟨-, other, hmem, hother, -⟩ := h.out _ _ hlookup
        exact absurd (mem_map.2 ⟨other, hmem, hother⟩) hfresh
    · cases hlookup : w.runtime.pendingFinalize.lookup assignment.scanUnitId with
      | none => rfl
      | some pending =>
        obtain ⟨event, hmem, hevent, -⟩ := h.waiting _ _ hlookup
        exact absurd hevent (hnew event hmem)
  waiting := h.waiting
  known := by
    intro event hevent
    obtain ⟨other, hmem, hother⟩ := h.known event hevent
    exact ⟨other, mem_append_left _ hmem, hother⟩
  sequence := h.sequence
  once := h.once

/-- The new assignment is out. -/
theorem Tracked.inserted {assignment : ScanAssignment} {now' : ℤ} {ids' : List String}
    (hphase : w.phase = .inserting now' ids' assignment) (now : ℤ) (ids : List String) :
    Tracked { w with
      runtime := w.runtime.insertInflight assignment now
      phase := .dispatching now ids } := by
  obtain ⟨hmem, hout, hwait, hfresh⟩ := h.hand assignment (by rw [hphase]; rfl)
  refine ⟨h.distinct, ?_, nofun, h.waiting, h.known, ?_, h.once⟩
  · intro id entry hlookup
    obtain ⟨rfl, rfl⟩ | ⟨-, hlookup⟩ := lookup_insert_cases hlookup
    · exact ⟨hwait, assignment, hmem, rfl, rfl, rfl⟩
    · exact h.out id entry hlookup
  · intro event hevent entry hlookup
    obtain ⟨heq, -⟩ | ⟨-, hlookup⟩ := lookup_insert_cases hlookup
    · exact absurd heq (hfresh event hevent)
    · exact h.sequence event hevent entry hlookup

theorem Tracked.step (hw : Phased w) (hids : w.DistinctIds action)
    (hstep : w.Step action w') : Tracked w' := by
  have hok := hw.phase
  unfold PhaseOk at hok
  have hrest : ∀ (phase : Phase) (scanFinished : Bool), phase.hand = none →
      Tracked { w with phase := phase, scanFinished := scanFinished } := by
    intro phase scanFinished hphase
    refine h.shrink ?_
    intro assignment hassignment
    rw [hphase] at hassignment
    cases hassignment
  cases effect_of_step hstep with
  | finalize hphase => exact h.finalized _ _ _ _
  | @check now snapshot hphase =>
    simp only [hphase] at hok
    subst hok
    obtain ⟨-, -, hdrained, -⟩ | ⟨-, hruntime, -⟩ := completion_eq hw now
    · refine h.shrink nofun (fun id pending hlookup => ?_) (fun id entry hlookup => ?_)
      · rw [hdrained.pending_lookup] at hlookup
        cases hlookup
      · rw [hdrained.inflight_lookup] at hlookup
        cases hlookup
    · refine h.requeues rfl rfl ?_ nofun
      rw [hruntime]
      exact requeues_expireScanTimeouts w.runtime _
  | takeNothing hphase htake =>
    simp only [hphase] at hok
    have hruntime := takeScanAssignment_none hok.1 hw.epoch htake
    refine h.requeues rfl rfl ?_ nofun
    rw [hruntime]
    exact requeues_expireScanTimeouts w.runtime _
  | @take _ _ _ _ now ids runtime assignment hphase htake =>
    simp only [hphase] at hok
    obtain ⟨scanUnit, rest, -, -, hruntime⟩ := takeScanAssignment_some hok.1 hw.epoch htake
    have hfresh : assignment.scanUnitId ∉ w.dispatched.map (·.scanUnitId) := by
      simpa [DistinctIds, distinctIds, hphase, htake] using hids
    have hexpired : Tracked { w with runtime := runtime, phase := .idle } := by
      refine h.shrink nofun ?_ ?_
      · rw [hruntime]
        intro id pending hlookup
        refine ⟨pending, ?_, rfl⟩
        rwa [← (requeues_expireScanTimeouts w.runtime now).pending]
      · rw [hruntime]
        exact (requeues_expireScanTimeouts w.runtime now).out
    exact hexpired.dispatch now ids hfresh
  | @insert now ids assignment hphase => exact h.inserted hphase now ids
  | scanEvent heffect => exact h.event heffect
  | _ => exact hrest _ _ (by rfl)

theorem Tracked.scanned {event : ScanEvent} (hmem : event ∈ w.accepted)
    (hkind : event.eventKind = .finished) :
    ∃ assignment ∈ w.dispatched, assignment.scanUnitId = event.scanUnitId ∧
      w.Scanned assignment.rootRelpath := by
  obtain ⟨assignment, hassignment, hid, htask⟩ := h.known event hmem
  exact ⟨assignment, hassignment, hid, assignment, hassignment, event, hmem, rfl, hkind, hid.symm,
    htask.symm⟩

end

/-! ## Results and children -/

/-- The children that wait for the finalization of their unit. -/
def heldChildren (w : ScanWorld) : Multiset ScanChildUnit :=
  (image (fun _ pending => (pending.result.childScanUnits : Multiset ScanChildUnit))
    w.runtime.pendingFinalize).sum

/-- Every accepted event was applied once, and its children were put into the queue once or wait
for the finalization of their unit. -/
structure Recorded (w : ScanWorld) : Prop where
  applied : w.applied = (w.accepted.filter carriesWork).map resultView
  children : ((w.accepted.flatMap (·.childScanUnits) : List ScanChildUnit) :
    Multiset ScanChildUnit) = (w.enqueued : Multiset ScanChildUnit) + w.heldChildren

theorem Recorded.init (job : JobRecord) : Recorded (init job) := ⟨rfl, rfl⟩

theorem heldChildren_of_lookup {id : String} {pending : MasterPendingScanFinalize}
    (h : w.runtime.pendingFinalize.lookup id = some pending) :
    w.heldChildren = (pending.result.childScanUnits : Multiset ScanChildUnit) +
      (image (fun _ pending => (pending.result.childScanUnits : Multiset ScanChildUnit))
        (w.runtime.pendingFinalize.erase id)).sum := by
  rw [heldChildren, image_of_lookup _ h, Multiset.sum_cons]

theorem Recorded.finalized (h : Recorded w) (now : ℤ) (snapshot : SchedulerJobSnapshot)
    (result : ScanResult) (storeError : Option String) :
    Recorded { w.finalized now result storeError with phase := .checking now snapshot } := by
  obtain heq | ⟨pending, hlookup, hresult, heq | heq⟩ := w.finalized_cases now result storeError
  · rw [heq]
    exact ⟨h.applied, h.children⟩
  · rw [heq]
    refine ⟨h.applied, h.children.trans ?_⟩
    rw [heldChildren_of_lookup hlookup, heldChildren, image_insert, Multiset.sum_cons]
  · rw [heq]
    refine ⟨h.applied, h.children.trans ?_⟩
    rw [heldChildren_of_lookup hlookup, heldChildren, hresult, ← Multiset.coe_add, add_assoc]

theorem Recorded.event {event : ScanEvent} (h : Recorded w)
    (heffect : EventEffect w event now storeError w') : Recorded w' := by
  cases heffect with
  | ignored => exact h
  | started hverdict hkind =>
    have hchildren := (event.workFree (.inl hkind)).2.1
    constructor
    · simp [h.applied, carriesWork, hkind]
    · simp only [flatMap_append, flatMap_singleton, hchildren, append_nil]
      exact h.children
  | appended hverdict hkind hstore =>
    constructor
    · simp [h.applied, carriesWork, hkind]
    · simp only [flatMap_append, flatMap_singleton, ← Multiset.coe_add]
      rw [h.children, add_right_comm]
      rfl
  | finished hverdict hkind hstore =>
    have hnone := (scanEventVerdict_accept hverdict).2.1
    constructor
    · simp [h.applied, carriesWork, hkind]
    · simp only [flatMap_append, flatMap_singleton, ← Multiset.coe_add]
      rw [h.children, heldChildren, heldChildren, image_insert_of_lookup_none _ _ hnone,
        Multiset.sum_cons, add_assoc, add_comm (Multiset.sum _)]
      rfl
  | failed hverdict hkind =>
    have hchildren := (event.workFree (.inr hkind)).2.1
    constructor
    · simp [h.applied, carriesWork, hkind]
    · simp only [flatMap_append, flatMap_singleton, hchildren, append_nil]
      exact h.children

theorem Recorded.step (h : Recorded w) (hw : Phased w) (hstep : w.Step action w') :
    Recorded w' := by
  have hok := hw.phase
  unfold PhaseOk at hok
  -- the units that wait for their finalization stay
  have hkeep : ∀ w' : ScanWorld, w'.accepted = w.accepted → w'.applied = w.applied →
      w'.enqueued = w.enqueued → w'.runtime.pendingFinalize = w.runtime.pendingFinalize →
      Recorded w' := by
    intro w' haccepted happlied henqueued hpending
    refine ⟨by rw [happlied, haccepted, h.applied], ?_⟩
    rw [haccepted, henqueued, heldChildren, hpending]
    exact h.children
  cases effect_of_step hstep with
  | finalize hphase => exact h.finalized _ _ _ _
  | @check now snapshot hphase =>
    simp only [hphase] at hok
    subst hok
    refine hkeep _ rfl rfl rfl ?_
    obtain ⟨hfinished, -, hdrained, -⟩ | ⟨-, hruntime, -⟩ := completion_eq hw now
    · exact AList.ext (hdrained.2.2.trans (hw.drained hfinished).2.2.symm)
    · rw [hruntime]
      exact (requeues_expireScanTimeouts w.runtime _).pending
  | takeNothing hphase htake =>
    simp only [hphase] at hok
    have hruntime := takeScanAssignment_none hok.1 hw.epoch htake
    refine hkeep _ rfl rfl rfl ?_
    rw [hruntime]
    exact (requeues_expireScanTimeouts w.runtime _).pending
  | take hphase htake =>
    simp only [hphase] at hok
    obtain ⟨scanUnit, rest, -, -, hruntime⟩ := takeScanAssignment_some hok.1 hw.epoch htake
    refine hkeep _ rfl rfl rfl ?_
    rw [hruntime]
    exact (requeues_expireScanTimeouts w.runtime _).pending
  | scanEvent heffect => exact h.event heffect
  | _ => exact hkeep _ rfl rfl rfl rfl

/-! ## The whole epoch -/

theorem Conserved.step (hw : Phased w) (htracked : Tracked w) (hstep : w.Step action w') :
    Conserved w w' := by
  have hok := hw.phase
  unfold PhaseOk at hok
  have hrest : ∀ (phase : Phase) (scanFinished : Bool), w.phase.hand = none → phase.hand = none →
      Conserved w { w with phase := phase, scanFinished := scanFinished } := by
    intro phase scanFinished hhand hhand'
    refine .of_grown [] rfl ?_ rfl (append_nil _).symm
    rw [handUnits_of_none hhand]
    exact handUnits_of_none hhand'
  cases effect_of_step hstep with
  | readSnapshot hphase | takePending hphase | nothingToFinalize hphase | chooseFinish hphase
  | chooseDispatch hphase | chooseNothing hphase | finishEpoch hphase =>
    exact hrest _ _ (by rw [hphase]; rfl) (by rfl)
  | abandon hphase => exact hrest _ _ hphase (by rfl)
  | finalize hphase => exact .finalized _ _ _ _ _ (by rw [hphase]; rfl)
  | @check now snapshot hphase =>
    simp only [hphase] at hok
    subst hok
    have hhand : w.phase.hand = none := by
      rw [hphase]
      rfl
    obtain ⟨hfinished, -, hdrained, -⟩ | ⟨-, hruntime, -⟩ := completion_eq hw now
    · refine .of_eq ?_
      rw [units_of_drained (hw.drained hfinished) hhand]
      exact units_of_drained hdrained (by rfl)
    · refine .requeues ?_ ?_
      · rw [hruntime]
        exact requeues_expireScanTimeouts w.runtime now
      · rw [handUnits_of_none hhand]
        rfl
  | @takeNothing _ _ _ _ now ids runtime hphase htake =>
    simp only [hphase] at hok
    have hruntime := takeScanAssignment_none hok.1 hw.epoch htake
    refine .requeues ?_ ?_
    · rw [hruntime]
      exact requeues_expireScanTimeouts w.runtime now
    · rw [handUnits_of_none (w := w) (by rw [hphase]; rfl)]
      rfl
  | @take _ _ _ _ now ids runtime assignment hphase htake =>
    simp only [hphase] at hok
    obtain ⟨scanUnit, rest, hqueue, hkey, hruntime⟩ := takeScanAssignment_some hok.1 hw.epoch htake
    obtain ⟨gone, hinflight, hqueue'⟩ := (requeues_expireScanTimeouts w.runtime now).moved
    -- the first unit of the queue is in hand now, the rest is as after the expiry
    have hhand : w.handUnits = 0 := handUnits_of_none (by rw [hphase]; rfl)
    refine .of_requeued
      (w.runtime.queueUnits + (w.runtime.expireScanTimeouts now).inflightUnits) gone ?_ ?_
      (scannedRoots_of_dispatched rfl rfl fun event h =>
        (htracked.known event h).imp fun _ h => ⟨h.1, h.2.1⟩)
    · rw [units, hhand, hinflight]
      abel
    · rw [add_right_comm, ← hqueue', queueUnits, hqueue, map_cons,
        ← Multiset.cons_coe, ← hkey, hruntime, units, ← Multiset.singleton_add]
      change (rest.map MasterScanUnit.key : Multiset UnitKey) + {assignment.key} +
        (w.runtime.expireScanTimeouts now).inflightUnits = _
      abel
  | @insert now ids assignment hphase =>
    have hout := (htracked.hand assignment (by rw [hphase]; rfl)).2.1
    refine .of_eq ?_
    have hhand : w.handUnits = {assignment.key} := by
      rw [handUnits, hphase]
      rfl
    have hinflight : (w.runtime.insertInflight assignment now).inflightUnits =
        {assignment.key} + w.runtime.inflightUnits := by
      rw [inflightUnits, insertInflight,
        image_insert_of_lookup_none _ _ hout, Multiset.singleton_add]
      rfl
    rw [units, units, hhand, hinflight, handUnits_of_none (by rfl), add_zero, add_assoc]
    rfl
  | @scanEvent event now storeError _ heffect =>
    apply Conserved.event heffect
    intro entry hverdict hkind haccepted hdispatched
    obtain ⟨-, -, hlookup, htask, -⟩ := scanEventVerdict_accept hverdict
    obtain ⟨-, assignment, hmem, hid, htask', hroot⟩ := htracked.out _ _ hlookup
    constructor
    · exact ⟨assignment, hdispatched ▸ hmem, event, by rw [haccepted]; simp, hroot, hkind, hid.symm,
        htask.symm.trans htask'.symm⟩
    · rw [← hid, rootOf_of_mem htracked.distinct hmem, hroot]

theorem history_of_step (hstep : w.Step action w') :
    w.dispatched ⊆ w'.dispatched ∧ w.accepted ⊆ w'.accepted := by
  cases effect_of_step hstep with
  | @finalize storeError now snapshot result hphase =>
    obtain heq | ⟨pending, -, -, heq | heq⟩ := w.finalized_cases now result storeError <;>
      rw [heq] <;> exact ⟨refl _, refl _⟩
  | take => exact ⟨subset_append_left _ _, refl _⟩
  | scanEvent heffect =>
    cases heffect with
    | ignored => exact ⟨refl _, refl _⟩
    | _ => exact ⟨refl _, subset_append_left _ _⟩
  | _ => exact ⟨refl _, refl _⟩

/-- A root is accounted for: it was scanned, or it has a unit. -/
def Accounted (w : ScanWorld) (root : Relpath) : Prop :=
  w.Scanned root ∨ ∃ generation, (root, generation) ∈ w.units

theorem Accounted.step {root : Relpath} (h : w.Accounted root) (hconserved : Conserved w w')
    (hstep : w.Step action w') : w'.Accounted root := by
  obtain ⟨hdispatched, haccepted⟩ := history_of_step hstep
  obtain ⟨assignment, hassignment, event, hevent, hscanned⟩ | ⟨generation, hunit⟩ := h
  · exact .inl ⟨assignment, hdispatched hassignment, event, haccepted hevent, hscanned⟩
  obtain ⟨kept, scanned, requeued, children, heq, heq', -, -, hscanned⟩ := hconserved
  rw [heq, Multiset.mem_add, Multiset.mem_add] at hunit
  have hafter : ∀ u ∈ kept + requeued.map nextGeneration, u ∈ w'.units := by
    intro u hu
    rw [heq']
    exact Multiset.mem_add.2 (.inl hu)
  obtain (hkept | hgone) | hrequeued := hunit
  · exact .inr ⟨generation, hafter _ (Multiset.mem_add.2 (.inl hkept))⟩
  · exact .inl (hscanned _ hgone)
  · refine .inr ⟨generation + 1, hafter _ (Multiset.mem_add.2 (.inr ?_))⟩
    exact Multiset.mem_map_of_mem nextGeneration hrequeued

/-- The account of the roots: what waits, is being handed out or is worked on and what was scanned
is the source root and the roots of the children that were put into the queue. -/
def Balanced (root : Relpath) (w : ScanWorld) : Prop :=
  w.units.map Prod.fst + w.scannedRoots =
    root ::ₘ (w.enqueued.map ScanChildUnit.rootRelpath : List Relpath)

theorem Balanced.init (job : JobRecord) : Balanced job.srcRootRelpath (init job) := rfl

theorem Balanced.step {root : Relpath} (h : Balanced root w) (hconserved : Conserved w w') :
    Balanced root w' := by
  obtain ⟨kept, scanned, requeued, children, hunits, hunits', henqueued, hroots, -⟩ := hconserved
  have hrequeued : (requeued.map nextGeneration).map Prod.fst = requeued.map Prod.fst := by
    rw [Multiset.map_map]
    rfl
  have hchildren : ((children.map ScanChildUnit.key : List UnitKey) : Multiset UnitKey).map
      Prod.fst = (children.map ScanChildUnit.rootRelpath : List Relpath) := by
    rw [Multiset.map_coe, map_map]
    rfl
  unfold Balanced at h ⊢
  rw [hunits, Multiset.map_add, Multiset.map_add] at h
  rw [hunits', henqueued, hroots, Multiset.map_add, Multiset.map_add, hrequeued, hchildren,
    map_append, ← Multiset.coe_add, ← Multiset.cons_add, ← h]
  abel

/-- The three invariants together. -/
structure Healthy (w : ScanWorld) : Prop where
  phased : Phased w
  tracked : Tracked w
  recorded : Recorded w

theorem Healthy.step (h : Healthy w) (hstep : Guarded DistinctIds Step w action w') : Healthy w' :=
  ⟨h.phased.step hstep.2, h.tracked.step h.phased hstep.1 hstep.2, h.recorded.step h.phased hstep.2⟩

theorem Healthy.init (job : JobRecord) : Healthy (init job) := ⟨.init job, .init job, .init job⟩

theorem Healthy.conserved (h : Healthy w) (hstep : w.Step action w') : Conserved w w' :=
  .step h.phased h.tracked hstep

/-- A run keeps what every step with an account keeps. -/
theorem Healthy.keeps {actions : List Action} {I : ScanWorld → Prop} (hw : Healthy w)
    (h : Run (Guarded DistinctIds Step) w actions w')
    (hkeeps : ∀ s action s', Conserved s s' → s.Step action s' → I s → I s') (hI : I w) : I w' := by
  have hboth : Healthy w' ∧ I w' := by
    refine h.invariant (I := fun w => Healthy w ∧ I w) ?_ ⟨hw, hI⟩
    intro s action s' hs hstep
    exact ⟨hs.1.step hstep, hkeeps _ _ _ (hs.1.conserved hstep.2) hstep.2 hs.2⟩
  exact hboth.2

/-- The balance in terms of the accepted events: what they brought is in the queue, being handed
out, worked on, scanned, or waits for the finalization of its unit. -/
theorem Balanced.accepted {root : Relpath} (h : Balanced root w) (hrecorded : Recorded w) :
    w.units.map Prod.fst + w.scannedRoots + w.heldChildren.map ScanChildUnit.rootRelpath =
      root ::ₘ ((w.accepted.flatMap (·.childScanUnits)).map ScanChildUnit.rootRelpath :
        List Relpath) := by
  have hchildren := congrArg (Multiset.map ScanChildUnit.rootRelpath) hrecorded.children
  rw [Multiset.map_add, Multiset.map_coe, Multiset.map_coe] at hchildren
  rw [hchildren, ← Multiset.cons_add, ← show _ = _ from h]

/-- The event is one of the task of an assignment that is out. -/
def Current (w : ScanWorld) (event : ScanEvent) : Prop :=
  w.runtime.activeScanEpoch = event.scanEpoch ∧
    ∃ entry, w.runtime.inflight.lookup event.scanUnitId = some entry ∧
      entry.assignment.scanTaskId = event.scanTaskId ∧
      entry.assignment.scanEpoch = event.scanEpoch ∧
      entry.assignment.generation = event.generation

theorem eq_of_not_current {event : ScanEvent} (hstep : w.Step (.scanEvent event now storeError) w')
    (h : ¬ w.Current event) : w' = w := by
  have hnot : ∀ entry, w.runtime.scanEventVerdict event ≠ .accept entry := by
    intro entry hverdict
    obtain ⟨hepoch, -, hlookup, htask, hepoch', hgeneration, -⟩ := scanEventVerdict_accept hverdict
    exact h ⟨hepoch, entry, hlookup, htask, hepoch', hgeneration⟩
  cases eventEffect_of_step hstep with
  | ignored => rfl
  | started hverdict | appended hverdict | finished hverdict | failed hverdict =>
    exact absurd hverdict (hnot _)

/-- An event that is answered as accepted is accepted now, or repeats the last event of a unit that
waits for its finalization. -/
theorem Tracked.answered {event : ScanEvent} {ack : ScanEventAck} (h : Tracked w)
    (hstep : w.Step (.scanEvent event now storeError) w')
    (hack : (w.runtime.acceptScanEventIfLive now storeError event).1 = .ok ack)
    (haccepted : ack.accepted = true) :
    w'.accepted = w.accepted ++ [event] ∨ (w' = w ∧ ∃ event' ∈ w.accepted,
      event'.eventKind = .finished ∧ event'.resultView = event.resultView) := by
  cases eventEffect_of_step hstep with
  | started | appended | finished | failed => exact .inl rfl
  | ignored hthrough =>
    right
    refine ⟨rfl, ?_⟩
    cases hverdict : w.runtime.scanEventVerdict event with
    | answer ack' =>
      simp only [acceptScanEventIfLive, hverdict, Except.ok.injEq] at hack
      rw [hack] at hverdict
      obtain ⟨-, pending, hlookup, hresult⟩ := scanEventVerdict_answer hverdict haccepted
      obtain ⟨event', hmem, -, hkind, hview⟩ := h.waiting _ _ hlookup
      exact ⟨event', hmem, hkind, hview.trans hresult⟩
    | sequenceGap detail => simp [acceptScanEventIfLive, hverdict] at hack
    | accept entry =>
      simp only [getsThrough, hverdict, decide_eq_false_iff_not, not_or] at hthrough
      obtain ⟨hstarted, hfailed, hstore⟩ := hthrough
      obtain ⟨detail, rfl⟩ := Option.ne_none_iff_exists'.1 hstore
      cases hkind : event.eventKind with
      | started => exact absurd hkind hstarted
      | failed => exact absurd hkind hfailed
      | append | finished => simp [acceptScanEventIfLive, hverdict, hkind] at hack

/-- **Conservation of the scan frontier.** In every run of an epoch whose scan units have distinct
identifiers:

* every accepted event was applied to the store once, no event was accepted twice, and the children
  of the accepted events are the ones that were put into the queue and the ones that wait for the
  finalization of their unit;
* the roots in the queue, being handed out, worked on and scanned, with those of the children that
  wait for a finalization, are the source root and the roots of the children of the accepted events,
  each as often as it was brought;
* an event of another task, generation or epoch than those of an assignment that is out changes
  nothing, and one that is answered as accepted is accepted now or repeats an accepted one;
* a step takes a unit away only if its root was scanned or if it puts one of the same root and the
  next generation in its place, and it adds exactly the children it puts into the queue; units that
  wait for their finalization have been scanned;
* when the scheduler finishes the epoch, every root that was in the queue at any earlier point has
  been scanned. -/
theorem scan_frontier_conserved {job : JobRecord} {actions₁ actions₂ : List Action}
    {w₁ w : ScanWorld} (h₁ : Run (Guarded DistinctIds Step) (init job) actions₁ w₁)
    (h₂ : Run (Guarded DistinctIds Step) w₁ actions₂ w) :
    (w.applied = (w.accepted.filter carriesWork).map resultView ∧
      (w.accepted.map fun event => (event.scanUnitId, event.eventSeqNo)).Nodup ∧
      ((w.accepted.flatMap (·.childScanUnits) : List ScanChildUnit) : Multiset ScanChildUnit) =
        (w.enqueued : Multiset ScanChildUnit) + w.heldChildren) ∧
    w.units.map Prod.fst + w.scannedRoots + w.heldChildren.map ScanChildUnit.rootRelpath =
      job.srcRootRelpath ::ₘ ((w.accepted.flatMap (·.childScanUnits)).map
        ScanChildUnit.rootRelpath : List Relpath) ∧
    (∀ event now storeError w', w.Step (.scanEvent event now storeError) w' →
      (¬ w.Current event → w' = w) ∧
      ∀ ack, (w.runtime.acceptScanEventIfLive now storeError event).1 = .ok ack →
        ack.accepted = true →
        w'.accepted = w.accepted ++ [event] ∨ (w' = w ∧ ∃ event' ∈ w.accepted,
          event'.eventKind = .finished ∧ event'.resultView = event.resultView)) ∧
    ((∀ action w', w.Step action w' → Conserved w w') ∧
      ∀ id pending, w.runtime.pendingFinalize.lookup id = some pending →
        ∃ assignment ∈ w.dispatched, assignment.scanUnitId = id ∧
          w.Scanned assignment.rootRelpath) ∧
    (w.phase = .finishing → ∀ scanUnit ∈ w₁.runtime.queue, w.Scanned scanUnit.rootRelpath) := by
  have hw₁ : Healthy w₁ := h₁.invariant (fun _ _ _ hs hstep => hs.step hstep) (.init job)
  have hw : Healthy w := h₂.invariant (fun _ _ _ hs hstep => hs.step hstep) hw₁
  have hbalanced : Balanced job.srcRootRelpath w :=
    (Healthy.init job).keeps (h₁.append h₂) (fun _ _ _ hc _ h => h.step hc) (.init job)
  refine ⟨⟨hw.recorded.applied, hw.tracked.once, hw.recorded.children⟩,
    hbalanced.accepted hw.recorded, ?_, ⟨?_, ?_⟩, ?_⟩
  · intro event now storeError w' hstep
    exact ⟨eq_of_not_current hstep, fun ack => hw.tracked.answered hstep⟩
  · intro action w' hstep
    exact hw.conserved hstep
  · intro id pending hlookup
    obtain ⟨event, hmem, hid, hkind, -⟩ := hw.tracked.waiting id pending hlookup
    obtain ⟨assignment, hassignment, hid', hscanned⟩ := hw.tracked.scanned hmem hkind
    exact ⟨assignment, hassignment, hid'.trans hid, hscanned⟩
  intro hphase scanUnit hmem
  have hunit : scanUnit.key ∈ w₁.units := by
    refine Multiset.mem_add.2 (.inl (Multiset.mem_add.2 (.inl ?_)))
    exact Multiset.mem_coe.2 (mem_map_of_mem hmem)
  have haccounted : w.Accounted scanUnit.rootRelpath :=
    hw₁.keeps (I := (·.Accounted scanUnit.rootRelpath)) h₂
      (fun _ _ _ hc hstep h => h.step hc hstep) (.inr ⟨scanUnit.generation, hunit⟩)
  have hdrained : w.runtime.Drained := by
    have hok := hw.phased.phase
    simp only [PhaseOk, hphase] at hok
    exact hok.1
  obtain hscanned | ⟨generation, hunit'⟩ := haccounted
  · exact hscanned
  · rw [units_of_drained hdrained (by rw [hphase]; rfl)] at hunit'
    exact absurd hunit' (Multiset.notMem_zero _)

/-- An event of the first task of a unit. -/
def taskEvent (scanUnitId : String) (root : Relpath) (seqNo : ℤ) (kind : ScanEventKind) :
    ScanEvent :=
  ⟨"job", 1, scanUnitId, scanUnitId ++ "__task__t", root, 1, seqNo, kind, [], [], [], "",
    fun _ => ⟨rfl, rfl, rfl⟩⟩

/-- The root brings the child `a` with an event on the way and `b` with its last one, and is
finalized: both children are in the queue. -/
def fanOut : List Action :=
  let child (name : String) : ScanChildUnit := ⟨name ++ "-unit", [name], 1, .fullTree⟩
  let event := taskEvent "job__scan_epoch_1__u" []
  [.readSnapshot 0, .takePending, .finalize none, .check, .choose ["agent"],
    .take [] (fun _ => []) "u" "t", .insert, .take [] (fun _ => []) "v" "t",
    .scanEvent (event 0 .started) 1 none,
    .scanEvent { event 1 .append with childScanUnits := [child "a"], workFree := nofun } 2 none,
    .scanEvent { event 2 .finished with childScanUnits := [child "b"], workFree := nofun } 3 none,
    .readSnapshot 10, .takePending, .finalize none]

/-- The children are handed out and scanned, and the epoch is finished. -/
def scanChildren : List Action :=
  let take := .take [] (fun _ => []) "v" "t"
  let event (name : String) := taskEvent (name ++ "-unit") [name]
  [.check, .choose ["agent"], take, .insert, take, .insert, take,
    .scanEvent (event "b" 0 .started) 11 none, .scanEvent (event "b" 1 .finished) 12 none,
    .scanEvent (event "a" 0 .started) 13 none, .scanEvent (event "a" 1 .finished) 14 none,
    .readSnapshot 20, .takePending, .finalize none, .check, .choose [],
    .readSnapshot 21, .takePending, .finalize none, .check, .choose []]

/-- The epoch is being finished, no unit is left, and the accepted events brought children with
these roots. -/
def isFinishingWith (roots : List Relpath) (w : ScanWorld) : Bool :=
  w.phase = .finishing ∧ w.units = 0 ∧ w.heldChildren = 0 ∧
    (w.accepted.flatMap (·.childScanUnits)).map ScanChildUnit.rootRelpath = roots

theorem scan_frontier_conserved_children :
    ∃ w₁ w, Run (Guarded DistinctIds Step) (init ⟨"job", 1, [], 1, 2⟩) fanOut w₁ ∧
      Run (Guarded DistinctIds Step) w₁ scanChildren w ∧ w.phase = .finishing ∧
      w.Scanned ["a"] ∧ w.Scanned ["b"] ∧ w.scannedRoots = {[], ["a"], ["b"]} := by
  let next (w : ScanWorld) (action : Action) : Option ScanWorld :=
    if w.distinctIds action then w.step action else none
  obtain ⟨w₁, h₁, hqueue, hrest⟩ := Run.exists_guarded_of_foldlM step (init ⟨"job", 1, [], 1, 2⟩)
    fanOut (fun w₁ => w₁.runtime.queue =
        [⟨some "b-unit", ["b"], 1, .fullTree⟩, ⟨some "a-unit", ["a"], 1, .fullTree⟩] ∧
      (scanChildren.foldlM next w₁).any
        (fun w => decide (isFinishingWith [["a"], ["b"]] w = true)) = true)
    distinctIds (by decide +kernel)
  obtain ⟨w, h₂, hlast⟩ := Run.exists_guarded_of_foldlM step w₁ scanChildren
    (fun w => isFinishingWith [["a"], ["b"]] w = true) distinctIds hrest
  obtain ⟨hphase, hunits, hheld, hchildren⟩ := of_decide_eq_true hlast
  obtain ⟨-, hbalance, -, -, hscanned⟩ := scan_frontier_conserved h₁ h₂
  rw [hqueue] at hscanned
  rw [hunits, hheld, hchildren, Multiset.map_zero, Multiset.map_zero, zero_add, add_zero]
    at hbalance
  exact ⟨w₁, w, h₁, h₂, hphase, hscanned hphase _ (.tail _ (.head _)), hscanned hphase _ (.head _),
    hbalance⟩

end ScanWorld

end Fluxon.TransferScan
