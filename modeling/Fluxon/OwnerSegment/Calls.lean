import Fluxon.OwnerSegment.LeaseEffect

/-!
# Runs of the allocator

`OwnerCall` lists the calls that may change the allocator, with their arguments, and `exec` runs
one of them. `Returns` is a call that returns, `Takes` also allows it to panic. The main result is
`post_exec`: a call on an installed segment that returns has run a list of updates, of the classes
that the call may use.
-/

namespace Fluxon.OwnerSegment

open OffsetAllocator Call

variable {A σ α : Type}

/-- The calls of the allocator, with their arguments. -/
inductive OwnerCall
  | installSegment (owner : OwnerGeneration)
      (registrationEpoch baseAddr addr len localTargetBytes : ℕ) (expectedSlotSize : Option ℕ)
  | applyTargetControl (controllerEpoch localTargetBytes : ℕ)
  | trackCapacityReportSizeClasses (sizeClasses : List ℕ)
  | recordFailedClaim (slotSize : ℕ)
  | recordSuccessfulClaim (slotSize : ℕ)
  | clearFailedClaim (slotSize : ℕ)
  | claimAvailableWithLen (slotSize valueLen maxSlots : ℕ)
  | claimValue (valueLen maxSlots : ℕ)
  | releasePreparedSlot (allocationId segmentOffset capacityBytes : ℕ)
  | retainCommittedRouteOnlyHolder (allocationId segmentOffset capacityBytes : ℕ)
  | markPreparedSlotPendingVisible (allocationId segmentOffset capacityBytes : ℕ)
  | promotePendingVisibleSlotToCommitted (allocationId segmentOffset capacityBytes : ℕ)
  | retainResidentSlotHolder (allocationId segmentOffset capacityBytes : ℕ)
  | releaseResidentSlotHolder (allocationId segmentOffset capacityBytes : ℕ)
  | releaseCommittedSlotRoute (allocationId segmentOffset capacityBytes : ℕ)
  | releaseCommittedResidentSlot (allocationId segmentOffset capacityBytes : ℕ)
  | releaseDeletedGlobalManifestRoute (key : String) (putId : PutId)
  | installCommittedManifest (key : String) (putId : PutId) (allocationId : ℕ)
      (scope : OwnerSlotScope) (routeEpoch : ℕ)
  | updateCommittedManifestScope (r : DemotionRequest) (scope : OwnerSlotScope)
  | commitLegacyA19GlobalDemotion (r : DemotionRequest)
  | tryReserveGlobalDemotion (r : DemotionRequest)
  | tryReserveGlobalDemotions (requests : List DemotionRequest)
  | releaseGlobalDemotionReservation (r : DemotionRequest)
  | commitReservedGlobalDemotion (r : DemotionRequest)
  | acquireSource (op : OwnerTransferOpId) (token : OwnerSourceRouteToken)
  | releaseSource (op : OwnerTransferOpId) (leaseId : OwnerLeaseId)
      (outcome : OwnerTransferOutcome)
  | prepareTarget (op : OwnerTransferOpId) (expectedTarget : OwnerGeneration) (key : String)
      (putId : PutId) (len : ℕ) (disposition : OwnerTargetDisposition)
      (atomicBatch : Option PutAtomicGroup)
  | prepareClaimedGetTarget (op : OwnerTransferOpId) (key : String) (putId : PutId)
      (atomicBatch : Option PutAtomicGroup) (slot : OwnerSlotDesc)
  | markTargetDataReady (op : OwnerTransferOpId) (leaseId : OwnerLeaseId)
      (receipt : OwnerTransferReceipt)
  | markDataReadyGetTargetPendingVisible (capability : OwnerTargetWriteCapability)
  | beginTargetCommit (op : OwnerTransferOpId) (leaseId : OwnerLeaseId)
      (receipt : OwnerTransferReceipt) (routeToken : Option OwnerTargetRouteToken)
  | finishTargetCommit (op : OwnerTransferOpId) (leaseId : OwnerLeaseId) (routeEpoch : ℕ)
  | beginDataReadyGetTargetCommit (capability : OwnerTargetWriteCapability)
  | finishDataReadyGetTarget (op : OwnerTransferOpId) (leaseId : OwnerLeaseId) (routeEpoch : ℕ)
  | abortDataReadyVisibleGetTarget (op : OwnerTransferOpId) (leaseId : OwnerLeaseId)
      (reason : String)
  | abortTarget (op : OwnerTransferOpId) (leaseId : OwnerLeaseId) (reason : String)
  | abortRouteRejectedTarget (op : OwnerTransferOpId) (leaseId : OwnerLeaseId) (reason : String)

/-- Run a call for its effect. -/
def ignore {σ α : Type} (c : Call σ α) : Call σ Unit := do
  let _ ← c
  return ()

variable {c : Call σ α}

theorem post_ignore {s : σ} {Q : Unit → σ → Prop} {E : String → σ → Prop} :
    Post (ignore c) s Q E ↔ Post c s (fun _ s' => Q () s') E := by
  rw [ignore, post_bind]
  rfl

theorem post_ignore_of {s : σ} {Q : α → σ → Prop} {Q' : Unit → σ → Prop} {E E' : String → σ → Prop}
    (h : Post c s Q E) (hQ : ∀ a s', Q a s' → Q' () s')
    (hE : ∀ e s', E e s' → E' e s') : Post (ignore c) s Q' E' :=
  post_ignore.2 (h.mono hQ hE)

theorem ignore_eq_ok {s s' : σ} : ignore c s = .ok () s' ↔ ∃ r, c s = .ok r s' := by
  simp only [ignore, bind, EStateM.bind, pure, EStateM.pure]
  cases c s <;> simp

namespace OwnerSegmentAllocator

variable [OffsetAllocator A]

open OwnerCall in
/-- The effect of a call. -/
def exec : OwnerCall → AllocCall A Unit
  | .installSegment owner registrationEpoch baseAddr addr len localTargetBytes expectedSlotSize =>
    ignore (installSegment owner registrationEpoch baseAddr addr len localTargetBytes
      expectedSlotSize)
  | .applyTargetControl controllerEpoch bytes => ignore (applyTargetControl controllerEpoch bytes)
  | .trackCapacityReportSizeClasses sizes => ignore (trackCapacityReportSizeClasses sizes)
  | .recordFailedClaim slotSize => recordFailedClaim slotSize
  | .recordSuccessfulClaim slotSize => recordSuccessfulClaim slotSize
  | .clearFailedClaim slotSize => clearFailedClaim slotSize
  | .claimAvailableWithLen slotSize valueLen maxSlots =>
    ignore (claimAvailableWithLen slotSize valueLen maxSlots)
  | .claimValue valueLen maxSlots => ignore (claimValue valueLen maxSlots)
  | .releasePreparedSlot id offset capacity => ignore (releasePreparedSlot id offset capacity)
  | .retainCommittedRouteOnlyHolder id offset capacity =>
    ignore (retainCommittedRouteOnlyHolder id offset capacity)
  | .markPreparedSlotPendingVisible id offset capacity =>
    ignore (markPreparedSlotPendingVisible id offset capacity)
  | .promotePendingVisibleSlotToCommitted id offset capacity =>
    ignore (promotePendingVisibleSlotToCommitted id offset capacity)
  | .retainResidentSlotHolder id offset capacity =>
    ignore (retainResidentSlotHolder id offset capacity)
  | .releaseResidentSlotHolder id offset capacity =>
    ignore (releaseResidentSlotHolder id offset capacity)
  | .releaseCommittedSlotRoute id offset capacity =>
    ignore (releaseCommittedSlotRoute id offset capacity)
  | .releaseCommittedResidentSlot id offset capacity =>
    ignore (releaseCommittedResidentSlot id offset capacity)
  | .releaseDeletedGlobalManifestRoute key putId =>
    ignore (releaseDeletedGlobalManifestRoute key putId)
  | .installCommittedManifest key putId id scope routeEpoch =>
    ignore (installCommittedManifest key putId id scope routeEpoch)
  | .updateCommittedManifestScope r scope => ignore (updateCommittedManifestScope r scope)
  | .commitLegacyA19GlobalDemotion r => ignore (commitLegacyA19GlobalDemotion r)
  | .tryReserveGlobalDemotion r => ignore (tryReserveGlobalDemotion r)
  | .tryReserveGlobalDemotions requests => ignore (tryReserveGlobalDemotions requests)
  | .releaseGlobalDemotionReservation r => ignore (releaseGlobalDemotionReservation r)
  | .commitReservedGlobalDemotion r => ignore (commitReservedGlobalDemotion r)
  | .acquireSource op token => ignore (acquireSource op token)
  | .releaseSource op leaseId outcome => ignore (releaseSource op leaseId outcome)
  | .prepareTarget op target key putId len disposition batch =>
    ignore (prepareTarget op target key putId len disposition batch)
  | .prepareClaimedGetTarget op key putId batch slot =>
    ignore (prepareClaimedGetTarget op key putId batch slot)
  | .markTargetDataReady op leaseId receipt => ignore (markTargetDataReady op leaseId receipt)
  | .markDataReadyGetTargetPendingVisible capability =>
    ignore (markDataReadyGetTargetPendingVisible capability)
  | .beginTargetCommit op leaseId receipt token =>
    ignore (beginTargetCommit op leaseId receipt token)
  | .finishTargetCommit op leaseId routeEpoch => ignore (finishTargetCommit op leaseId routeEpoch)
  | .beginDataReadyGetTargetCommit capability => ignore (beginDataReadyGetTargetCommit capability)
  | .finishDataReadyGetTarget op leaseId routeEpoch =>
    ignore (finishDataReadyGetTarget op leaseId routeEpoch)
  | .abortDataReadyVisibleGetTarget op leaseId reason =>
    ignore (abortDataReadyVisibleGetTarget op leaseId reason)
  | .abortTarget op leaseId reason => ignore (abortTarget op leaseId reason)
  | .abortRouteRejectedTarget op leaseId reason =>
    ignore (abortRouteRejectedTarget op leaseId reason)

/-- The call returns. -/
def Returns (s : OwnerSegmentAllocator A) (c : OwnerCall) (s' : OwnerSegmentAllocator A) : Prop :=
  exec c s = .ok () s'

/-- The call returns or panics. -/
def Takes (s : OwnerSegmentAllocator A) (c : OwnerCall) (s' : OwnerSegmentAllocator A) : Prop :=
  s.Returns c s' ∨ ∃ msg, exec c s = .error msg s'

/-- Run the calls one after the other. -/
def execAll : List OwnerCall → AllocCall A Unit
  | [] => return ()
  | c :: cs => do
    exec c
    execAll cs

/-- A list of calls that returns is a run. -/
theorem run_of_execAll {cs : List OwnerCall} {s s' : OwnerSegmentAllocator A}
    (h : execAll cs s = .ok () s') : Run Returns s cs s' := by
  induction cs generalizing s with
  | nil =>
    cases h
    exact .nil _
  | cons c cs ih =>
    simp only [execAll, bind, EStateM.bind] at h
    cases hc : exec c s with
    | ok a s₁ =>
      rw [hc] at h
      exact .cons hc (ih h)
    | error e s₁ =>
      rw [hc] at h
      cases h

/-- A run whose end satisfies a property, found by running the calls. -/
theorem exists_run_of_post (cs : List OwnerCall) (s : OwnerSegmentAllocator A)
    {Q : OwnerSegmentAllocator A → Prop}
    (h : Post (execAll cs) s (fun _ s' => Q s') (fun _ _ => False)) :
    ∃ s', Run Returns s cs s' ∧ Q s' := by
  obtain ⟨_, s', hok, hQ⟩ := h.exists_ok
  exact ⟨s', run_of_execAll hok, hQ⟩

end OwnerSegmentAllocator

/-! ## The classes of updates a call uses -/

/-- The updates that free a resident slot. -/
@[simp] def Update.freesResident : Update → Bool
  | .free _ | .freeSource .. => true
  | _ => false

/-- The updates that may change the accounted bytes upwards, or the budget. -/
@[simp] def Update.budgets : Update → Bool
  | .localTarget _ | .reserve .. | .scope .. => true
  | .insertManifest e => e.disposition = .globalShared
  | _ => false

namespace OwnerCall

/-- The calls that release a reference of a resident slot. -/
@[simp] def releases : OwnerCall → Bool
  | releaseSource .. | releaseResidentSlotHolder .. | releaseCommittedSlotRoute ..
  | releaseCommittedResidentSlot .. | releaseDeletedGlobalManifestRoute .. => true
  | _ => false

/-- The calls of the global budget. -/
@[simp] def budgets : OwnerCall → Bool
  | applyTargetControl .. | updateCommittedManifestScope .. | commitLegacyA19GlobalDemotion _
  | tryReserveGlobalDemotion _ | tryReserveGlobalDemotions _
  | commitReservedGlobalDemotion _ => true
  | installCommittedManifest _ _ _ scope _ => scope = .globalShared
  | prepareTarget _ _ _ _ _ disposition _ => disposition = .globalShared
  | _ => false

/-- The updates that a call may run. -/
def Uses (c : OwnerCall) (u : Update) : Prop :=
  (u.freesResident = true → c.releases = true) ∧ (u.budgets = true → c.budgets = true)

/-- A list of updates of the call's classes leads from `s` to `s'`. -/
def Effect [OffsetAllocator A] (c : OwnerCall) (s s' : OwnerSegmentAllocator A) : Prop :=
  ∃ us, Run Update.Step s us s' ∧ ∀ u ∈ us, c.Uses u

namespace Effect

variable [OffsetAllocator A] {c : OwnerCall} {s s' : OwnerSegmentAllocator A} {u : Update}
  {us : List Update}

theorem same (c : OwnerCall) (s : OwnerSegmentAllocator A) : c.Effect s s := ⟨[], .nil s, by simp⟩

theorem of_eq (h : s' = s) : c.Effect s s' := h ▸ same c s

theorem step (h : Update.Step s u s') (hu : c.Uses u := by simp [Uses]) : c.Effect s s' :=
  ⟨[u], .single h, by simpa using hu⟩

theorem of_or (h : s' = s ∨ Update.Step s u s') (hu : c.Uses u := by simp [Uses]) : c.Effect s s' :=
  h.elim of_eq (step · hu)

theorem run (h : Run Update.Step s us s') (hus : ∀ u ∈ us, c.Uses u := by simp [Uses]) :
    c.Effect s s' :=
  ⟨us, h, hus⟩

end Effect

theorem uses_claimUpdate {c : OwnerCall} {u : Update}
    (hu : OwnerSegmentAllocator.ClaimUpdate u) : c.Uses u := by
  rcases hu with rfl | ⟨_, rfl⟩ | ⟨_, rfl⟩ | ⟨_, rfl⟩ <;> simp [Uses]

end OwnerCall

namespace OwnerSegmentAllocator

open OwnerCall

variable [OffsetAllocator A] {s : OwnerSegmentAllocator A}

/-- The effect of a route release, for the calls that release a route. -/
theorem effect_routeReleased {c : OwnerCall} {id n : ℕ} {a : OwnerAllocationState}
    {s' : OwnerSegmentAllocator A} (hc : c.releases = true) (h : s.RouteReleased id a n s') :
    c.Effect s s' := by
  rcases h with ⟨-, hrun⟩ | ⟨-, -, hstep⟩
  · exact .run hrun
  · exact .step hstep ⟨fun _ => hc, by simp⟩

/-- **Effects of the calls.** A call on an installed segment that returns has run updates of its
classes; one that panics has at most advanced the target leases. -/
theorem post_exec (c : OwnerCall) (hs : s.segment ≠ none) :
    Post (exec c) s (fun _ s' => c.Effect s s')
      (fun _ s' => s.Advances s') := by
  cases c with
  | installSegment =>
    simp only [exec, post_ignore, installSegment, post_bind, post_get, post_ite, post_pure]
    exact ⟨fun _ => .same _ s, fun h => (h (Option.isSome_iff_ne_none.2 hs)).elim⟩
  | applyTargetControl =>
    exact post_ignore_of post_applyTargetControl (fun _ _ h => .of_or h) fun _ _ h => h.elim
  | trackCapacityReportSizeClasses =>
    exact post_ignore_of post_trackCapacityReportSizeClasses (fun _ _ h => .of_or h)
      fun _ _ h => h.elim
  | recordFailedClaim | recordSuccessfulClaim | clearFailedClaim =>
    refine Effect.step (u := .bookkeeping) ⟨?_, ?_, ?_, ?_⟩ (by simp [Uses]) <;> rfl
  | claimAvailableWithLen =>
    refine post_ignore_of post_claimAvailableWithLen ?_ fun _ _ h => h.1
    rintro _ s' ⟨us, hrun, hus, -⟩
    exact .run hrun fun u hu => uses_claimUpdate (hus u hu)
  | claimValue valueLen maxSlots =>
    rw [exec, post_ignore]
    rcases claimValue_cases (A := A) valueLen maxSlots with h | ⟨slotSize, h⟩ <;> rw [h]
    · exact Effect.same _ s
    · refine post_claimAvailableWithLen.mono ?_ fun _ _ h => h.1
      rintro _ s' ⟨us, hrun, hus, -⟩
      exact .run hrun fun u hu => uses_claimUpdate (hus u hu)
  | releasePreparedSlot =>
    refine post_ignore_of post_releasePreparedSlot ?_ fun _ _ h => h.1
    rintro _ s' (⟨-, -, h⟩ | ⟨-, h⟩)
    · exact .of_eq h
    · exact .step h
  | retainCommittedRouteOnlyHolder =>
    exact post_ignore_of post_retainCommittedRouteOnlyHolder (fun _ _ h => .of_or h)
      fun _ _ h => h.elim
  | markPreparedSlotPendingVisible =>
    exact post_ignore_of post_markPreparedSlotPendingVisible (fun _ _ h => .of_or h) fun _ _ h => h
  | promotePendingVisibleSlotToCommitted =>
    refine post_ignore_of post_promotePendingVisibleSlotToCommitted ?_ fun _ _ h => h
    rintro _ s' (h | ⟨n, h⟩)
    · exact .of_eq h
    · exact .step h
  | retainResidentSlotHolder =>
    refine post_ignore_of post_retainResidentSlotHolder ?_ ?_
    · rintro _ s' (⟨-, -, h⟩ | ⟨seg, a, -, -, -, -, h⟩)
      · exact .of_eq h
      · exact .step h
    · rintro _ s' ⟨rfl, -⟩
      exact .refl _
  | releaseResidentSlotHolder =>
    refine post_ignore_of post_releaseResidentSlotHolder ?_ fun _ _ h => h.1
    rintro _ s' (⟨-, -, h⟩ | ⟨seg, a, -, -, -, -, -, -, ⟨-, h⟩ | ⟨-, -, h⟩⟩)
    · exact .of_eq h
    · exact .step h
    · exact .step h
  | releaseCommittedSlotRoute =>
    refine post_ignore_of post_releaseCommittedSlotRoute ?_ fun _ _ h => h
    rintro _ s' (⟨-, -, h⟩ | ⟨seg, a, n, -, -, -, -, -, h⟩)
    · exact .of_eq h
    · exact effect_routeReleased rfl h
  | releaseCommittedResidentSlot =>
    refine post_ignore_of post_releaseCommittedResidentSlot ?_ fun _ _ h => h
    rintro _ s' (⟨-, -, h⟩ | ⟨seg, a, n, -, -, -, -, -, h⟩)
    · exact .of_eq h
    · exact effect_routeReleased rfl h
  | releaseDeletedGlobalManifestRoute =>
    refine post_ignore_of post_releaseDeletedGlobalManifestRoute ?_ fun _ _ h => h
    rintro _ s' (⟨h, -⟩ | ⟨e, seg, a, n, -, -, -, -, h⟩)
    · exact .of_eq h
    · exact effect_routeReleased rfl h
  | installCommittedManifest key putId id scope routeEpoch =>
    refine post_ignore_of post_installCommittedManifest ?_ fun _ _ h => h.elim
    rintro _ s' (⟨h, -⟩ | ⟨slot, -, h⟩)
    · exact .of_eq h
    · refine .step h ⟨by simp, ?_⟩
      cases scope <;> simp [committedEntry, OwnerSlotScope.disposition]
  | updateCommittedManifestScope | commitLegacyA19GlobalDemotion =>
    refine post_ignore_of post_updateCommittedManifestScopeInner ?_ fun _ _ h => h.elim
    rintro _ s' (h | ⟨seg, e, -, -, -, h⟩)
    · exact .of_eq h
    · exact .step h
  | tryReserveGlobalDemotion =>
    refine post_ignore_of post_tryReserveGlobalDemotion ?_ fun _ _ h => h
    rintro _ s' ⟨us, hrun, hus, -⟩
    refine .run hrun fun u hu => ?_
    obtain ⟨key, slot, rfl⟩ := hus u hu
    simp [Uses]
  | tryReserveGlobalDemotions =>
    refine post_ignore_of post_tryReserveGlobalDemotions ?_ fun _ _ h => h.elim
    rintro _ s' ⟨us, hrun, hus, -⟩
    refine .run hrun fun u hu => ?_
    obtain ⟨key, slot, rfl⟩ := hus u hu
    simp [Uses]
  | releaseGlobalDemotionReservation =>
    exact post_ignore_of post_releaseGlobalDemotionReservation (fun _ _ h => .of_or h)
      fun _ _ h => h.elim
  | commitReservedGlobalDemotion =>
    refine post_ignore_of post_commitReservedGlobalDemotion ?_ fun _ _ h => h.elim
    rintro _ s' (h | ⟨seg, e, -, -, -, -, hrun⟩)
    · exact .of_eq h
    · exact .run hrun
  | acquireSource =>
    refine post_ignore_of post_acquireSource ?_ fun _ _ h => h.1
    rintro _ s' ⟨us, hrun, rfl | rfl | ⟨leaseId, rfl⟩⟩ <;> exact .run hrun
  | releaseSource =>
    refine post_ignore_of post_releaseSource ?_ fun _ _ h => h.1
    rintro _ s' (⟨h, -⟩ | ⟨seg, r, a, -, -, -, -, -, ⟨-, -, h⟩ | ⟨-, -, h⟩⟩)
    · exact .of_eq h
    · exact .step h
    · exact .step h
  | prepareTarget =>
    refine post_ignore_of post_prepareTarget ?_ fun _ _ h => h.1
    rintro _ s' (⟨h, -⟩ | ⟨-, ⟨u, hu, h⟩ | ⟨a, hrun⟩ | ⟨a, hrun⟩⟩ |
      ⟨seg, a, leaseId, slot, -, -, h⟩)
    · exact .of_eq h
    · exact .step h (uses_claimUpdate hu.claimUpdate)
    · exact .run hrun
    · exact .run hrun
    · exact .run h.run (by simp [Uses, reservedEntry])
  | prepareClaimedGetTarget =>
    refine post_ignore_of post_prepareClaimedGetTarget ?_ fun _ _ h => h.elim
    rintro _ s' (⟨h, -⟩ | ⟨-, h⟩ | ⟨seg, a, leaseId, -, -, -, -, hrun⟩)
    · exact .of_eq h
    · exact .step h
    · exact .run hrun (by simp [Uses, reservedEntry])
  | markTargetDataReady =>
    refine post_ignore_of post_markTargetDataReady ?_ fun _ _ h => h.1
    rintro _ s' (⟨h, -⟩ | ⟨seg, r, -, -, -, -, -, hrun⟩)
    · exact .of_eq h
    · exact .run hrun
  | markDataReadyGetTargetPendingVisible =>
    refine post_ignore_of post_markDataReadyGetTargetPendingVisible ?_ fun _ _ h => h.1
    rintro _ s' (h | ⟨seg, r, receipt, -, -, -, -, -, h⟩)
    · exact .of_eq h
    · exact .step h
  | beginTargetCommit =>
    refine post_ignore_of post_beginTargetCommit ?_ fun _ _ h => h.1
    rintro _ s' (⟨h, -⟩ | ⟨seg, r, -, -, -, -, -, hrun⟩)
    · exact .of_eq h
    · exact .run hrun
  | finishTargetCommit =>
    refine post_ignore_of post_finishTargetCommit ?_ fun _ _ h => h.1
    rintro _ s' (⟨h, -⟩ | ⟨seg, r, state, -, -, -, -, -, -, hrun⟩)
    · exact .of_eq h
    · exact .run hrun
  | beginDataReadyGetTargetCommit =>
    refine post_ignore_of post_beginDataReadyGetTargetCommit ?_ fun _ _ h => h.1
    rintro _ s' (h | ⟨seg, r, receipt, -, -, -, -, hrun⟩)
    · exact .of_eq h
    · exact .run hrun
  | finishDataReadyGetTarget =>
    refine post_ignore_of post_finishDataReadyGetTarget ?_ fun _ _ h => h.1
    rintro _ s' (h | ⟨seg, r, n, -, -, -, -, -, hrun⟩)
    · exact .of_eq h
    · exact .run hrun
  | abortDataReadyVisibleGetTarget =>
    refine post_ignore_of post_abortDataReadyVisibleGetTarget ?_ fun _ _ h => h.1
    rintro _ s' (h | ⟨seg, r, -, -, -, -, hrun⟩)
    · exact .of_eq h
    · exact .run hrun
  | abortTarget =>
    refine post_ignore_of post_abortTarget ?_ fun _ _ h => h.1
    rintro _ s' (h | ⟨seg, r, -, -, hrun⟩)
    · exact .of_eq h
    · exact .run hrun
  | abortRouteRejectedTarget =>
    refine post_ignore_of post_abortRouteRejectedTarget ?_ fun _ _ h => h.1
    rintro _ s' (h | ⟨seg, r, -, -, hrun⟩)
    · exact .of_eq h
    · exact .run hrun

end OwnerSegmentAllocator

end Fluxon.OwnerSegment
