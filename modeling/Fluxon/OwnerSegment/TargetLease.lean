import Fluxon.OwnerSegment.Invariant

/-!
# Replay safety of the target leases

The record of a target lease is written once and then only its state moves. Hence the calls of the
target protocol can be replayed: `TargetCall.AnsweredBy` says which record answers a call, a call
that has succeeded leaves such a record (`post_run_answered`), later calls keep it
(`TargetCall.AnsweredBy.mono`), and a call that is answered by a record returns the record's
outcome and changes nothing (`run_of_answered`). The main result is `target_lease_replay_safety`,
over runs in which calls may also panic.
-/

namespace Fluxon.OwnerSegment

open OffsetAllocator OwnerSegmentState OwnerSegmentAllocator Call TargetCall

variable {A : Type}

/-! ## Runs -/

namespace OwnerSegmentAllocator

variable {s s' : OwnerSegmentAllocator A}

theorem Advances.segment_ne_none (h : s.Advances s') (hs : s.segment ≠ none) :
    s'.segment ≠ none := by
  intro hnone
  have := h.owner
  rw [hnone] at this
  exact hs (Option.map_eq_none_iff.1 this.symm)

variable [OffsetAllocator A]

/-- A call on an installed segment, returning or not, only advances its target leases. -/
theorem Takes.advances {c : OwnerCall} (h : s.Takes c s') (hs : s.segment ≠ none) :
    s.Advances s' := by
  rcases h with h | ⟨msg, h⟩
  · obtain ⟨us, hrun, -⟩ := (post_exec c hs).of_ok h
    exact Update.advances_of_run hrun
  · exact (post_exec c hs).of_error h

theorem advances_of_run_takes {cs : List OwnerCall} (h : Run Takes s cs s')
    (hs : s.segment ≠ none) : s.Advances s' := by
  induction h with
  | nil => exact .refl _
  | cons hc _ ih =>
    have hstep := Takes.advances hc hs
    exact hstep.trans (ih (hstep.segment_ne_none hs))

end OwnerSegmentAllocator

/-- A terminal state does not move. -/
theorem OwnerTargetLeaseState.eq_of_moves_terminal {state state' : OwnerTargetLeaseState}
    (h : Relation.ReflTransGen Moves state state') (hterminal : state.isOpen = false) :
    state' = state := by
  induction h with
  | refl => rfl
  | tail _ hm ih =>
    subst ih
    cases hm <;> cases hterminal

/-- The outcome of a replay names the lease and slot of the record, or says that it is aborted. -/
theorem OwnerTargetLeaseRecord.replayOutcome_target (r : OwnerTargetLeaseRecord) :
    r.replayOutcome.target? = some (r.leaseId, r.slot) ∨
      (r.replayOutcome = .targetAborted ∧ ∃ reason, r.state = .aborted reason) := by
  unfold replayOutcome
  cases r.state with
  | aborted reason => exact .inr ⟨rfl, reason, rfl⟩
  | _ => exact .inl rfl

/-! ## Replays -/

namespace TargetCall

/-- The same call as a step of a run. -/
def toCall : TargetCall → OwnerCall
  | prepareTarget op target key putId len disposition batch =>
    .prepareTarget op target key putId len disposition batch
  | prepareClaimedGetTarget op key putId batch slot =>
    .prepareClaimedGetTarget op key putId batch slot
  | markTargetDataReady op leaseId receipt => .markTargetDataReady op leaseId receipt
  | beginTargetCommit op leaseId receipt token => .beginTargetCommit op leaseId receipt token
  | finishTargetCommit op leaseId routeEpoch => .finishTargetCommit op leaseId routeEpoch

theorem exec_toCall [OffsetAllocator A] (c : TargetCall) :
    exec (A := A) c.toCall = ignore c.run := by
  cases c <;> rfl

variable {c : TargetCall} {owner : OwnerGeneration} {r : OwnerTargetLeaseRecord}
  {state : OwnerTargetLeaseState} {s s' : OwnerSegmentAllocator A} {l : OwnerLeaseId}
  {slot : OwnerSlotDesc}

theorem AnsweredBy.moves (h : c.AnsweredBy owner r) (hm : r.state.Moves state) :
    c.AnsweredBy owner { r with state } := by
  cases c with
  | prepareTarget | prepareClaimedGetTarget => exact h
  | markTargetDataReady =>
    obtain ⟨hlease, hstate⟩ := h
    generalize r.state = before at hstate hm
    cases hm <;> first | exact hstate | trivial
  | beginTargetCommit =>
    obtain ⟨hlease, hstate⟩ := h
    generalize r.state = before at hstate hm
    cases hm <;> first | exact hstate.elim | trivial
  | finishTargetCommit =>
    obtain ⟨-, hstate⟩ := h
    rw [hstate] at hm
    cases hm

/-- A record that answers a call keeps answering it. -/
theorem AnsweredBy.mono (h : c.AnsweredBy owner r)
    (hm : Relation.ReflTransGen OwnerTargetLeaseState.Moves r.state state) :
    c.AnsweredBy owner { r with state } := by
  induction hm with
  | refl => exact h
  | tail _ hstep ih => exact ih.moves hstep

/-- In `s` a record with this lease and slot answers the call. -/
def Answered (c : TargetCall) (s : OwnerSegmentAllocator A) (l : OwnerLeaseId)
    (slot : OwnerSlotDesc) : Prop :=
  ∃ seg r, s.segment = some seg ∧ seg.targetLeases.lookup c.op = some r ∧ r.leaseId = l ∧
    r.slot = slot ∧ c.AnsweredBy seg.owner r

/-- A record that answers a call keeps its lease and slot and keeps answering. -/
theorem Answered.advances (h : c.Answered s l slot) (hadvances : s.Advances s') :
    c.Answered s' l slot := by
  obtain ⟨seg, r, hs, hr, rfl, rfl, hanswer⟩ := h
  have howner := hadvances.owner
  rw [hs] at howner
  obtain ⟨seg', hs', howner'⟩ := Option.map_eq_some_iff.1 howner
  obtain ⟨state, hm, hr'⟩ := hadvances.targets c.op r (by rw [targetLeases_eq hs, hr])
  rw [targetLeases_eq hs'] at hr'
  exact ⟨seg', _, hs', hr', rfl, rfl, by rw [howner']; exact hanswer.mono hm⟩

/-- An outcome of a replay with a lease and slot comes from a record that answers. -/
theorem answered_of_unmoved {o : OwnerSegmentTransferOutcome} (h : s.Unmoved c o s')
    (ho : o.target? = some (l, slot)) : c.Answered s' l slot := by
  obtain ⟨rfl, hnone | ⟨seg, r, hs, hr, hanswer, rfl⟩⟩ := h
  · rw [hnone] at ho
    cases ho
  rcases r.replayOutcome_target with htarget | ⟨haborted, -⟩
  · rw [htarget] at ho
    cases ho
    exact ⟨seg, r, hs, hr, rfl, rfl, hanswer⟩
  · rw [haborted] at ho
    cases ho

variable [OffsetAllocator A] {seg : OwnerSegmentState A}

/-- **Replays.** A call that a record answers returns the record's outcome and changes nothing. -/
theorem run_of_answered (hs : s.segment = some seg) (hr : seg.targetLeases.lookup c.op = some r)
    (h : c.AnsweredBy seg.owner r) : c.run s = .ok r.replayOutcome s := by
  refine Post.eq_ok ?_
  cases c with
  | prepareTarget =>
    obtain ⟨rfl, rfl, rfl, rfl, rfl, rfl⟩ := h
    simp only [op] at hr
    simp [run, OwnerSegmentAllocator.prepareTarget, post_bind, post_get, post_pure, hs, hr]
  | prepareClaimedGetTarget =>
    obtain ⟨⟨rfl, rfl, hlen, hdisposition, rfl⟩, rfl⟩ := h
    simp only [op] at hr
    simp [run, OwnerSegmentAllocator.prepareClaimedGetTarget, post_bind, post_get, post_pure, hs,
      hr, hlen, hdisposition]
  | markTargetDataReady =>
    obtain ⟨rfl, hstate⟩ := h
    simp only [op] at hr
    simp only [run, OwnerSegmentAllocator.markTargetDataReady, post_bind, post_get, hs, hr, ne_eq,
      not_true_eq_false, if_false, OwnerTargetLeaseRecord.replayOutcome]
    cases hrs : r.state <;> simp_all [post_pure]
  | beginTargetCommit =>
    obtain ⟨rfl, hstate⟩ := h
    simp only [op] at hr
    simp only [run, OwnerSegmentAllocator.beginTargetCommit, post_bind, post_get, hs, hr, ne_eq,
      not_true_eq_false, if_false, OwnerTargetLeaseRecord.replayOutcome]
    cases hrs : r.state <;> simp_all [post_pure]
  | finishTargetCommit =>
    obtain ⟨rfl, hstate⟩ := h
    simp only [op] at hr
    simp [run, OwnerSegmentAllocator.finishTargetCommit, post_bind, post_get, post_pure, hs, hr,
      hstate, OwnerTargetLeaseRecord.replayOutcome]

variable {s₁ : OwnerSegmentAllocator A}

/-- A lease that has moved answers the call that moved it. -/
theorem answered_of_targetState (hs : s.segment = some seg)
    (hr : seg.targetLeases.lookup c.op = some r) (hadvances : s.Advances s₁)
    (hstep : Update.Step s₁ (.targetState c.op state) s')
    (hanswer : c.AnsweredBy seg.owner { r with state }) : c.Answered s' r.leaseId r.slot := by
  have howner := hstep.advances.owner.trans hadvances.owner
  obtain ⟨seg₁, r₁, hs₁, hr₁, -, rfl⟩ := hstep
  obtain ⟨state₁, -, hr₁'⟩ := hadvances.targets c.op r (by rw [targetLeases_eq hs, hr])
  rw [targetLeases_eq hs₁] at hr₁'
  cases hr₁.symm.trans hr₁'
  refine ⟨seg₁.setTargetLeaseState c.op state, { r with state }, rfl, ?_, rfl, rfl, ?_⟩
  · exact (Table.lookup_modify _ _ _ _).trans ((if_pos rfl).trans (congrArg (Option.map _) hr₁))
  · rw [hs] at howner
    have : seg₁.owner = seg.owner := Option.some.inj howner
    rw [show (seg₁.setTargetLeaseState c.op state).owner = seg.owner from this]
    exact hanswer

/-- A new lease answers the call that has created it. -/
theorem answered_of_insertTarget (hs : s.segment = some seg) (hadvances : s.Advances s₁)
    (hstep : Update.Step s₁ (.insertTarget c.op r) s')
    (hanswer : c.AnsweredBy seg.owner r) : c.Answered s' r.leaseId r.slot := by
  have howner := hstep.advances.owner.trans hadvances.owner
  obtain ⟨seg₁, hs₁, -, -, rfl⟩ := hstep
  refine ⟨seg₁.insertTargetLease c.op r, r, rfl, AList.lookup_insert _, rfl, rfl, ?_⟩
  rw [hs] at howner
  have : seg₁.owner = seg.owner := Option.some.inj howner
  rw [show (seg₁.insertTargetLease c.op r).owner = seg.owner from this]
  exact hanswer

/-- **Successful calls.** A call that returns a lease and a slot leaves a record that answers it. -/
theorem post_run_answered (c : TargetCall) (s : OwnerSegmentAllocator A) : Post c.run s
      (fun o s' => ∀ l slot, o.target? = some (l, slot) → c.Answered s' l slot)
      (fun _ _ => True) := by
  cases c with
  | prepareTarget op target key putId len disposition batch =>
    refine post_prepareTarget.mono ?_ fun _ _ _ => trivial
    rintro o s' (h | ⟨hnone, -⟩ | ⟨seg, a, leaseId, d, rfl, howner, h⟩) l slot ho
    · exact answered_of_unmoved h ho
    · rw [hnone] at ho
      cases ho
    · cases ho
      obtain ⟨s₁, hrun, hlast⟩ := Run.snoc_inv [_, _, _] h.run
      exact answered_of_insertTarget (c := .prepareTarget op target key putId len disposition batch)
        h.segment_eq (Update.advances_of_run hrun) hlast ⟨howner, rfl, rfl, rfl, rfl, rfl⟩
  | prepareClaimedGetTarget op key putId batch d =>
    refine post_prepareClaimedGetTarget.mono ?_ fun _ _ _ => trivial
    rintro o s' (h | ⟨hnone, -⟩ | ⟨seg, a, leaseId, rfl, hs, -, -, h⟩) l slot ho
    · exact answered_of_unmoved h ho
    · rw [hnone] at ho
      cases ho
    · cases ho
      obtain ⟨s₁, hrun, hlast⟩ := Run.snoc_inv [_, _] h
      exact answered_of_insertTarget (c := .prepareClaimedGetTarget op key putId batch d) hs
        (Update.advances_of_run hrun) hlast ⟨⟨rfl, rfl, rfl, rfl, rfl⟩, rfl⟩
  | markTargetDataReady op leaseId receipt =>
    refine post_markTargetDataReady.mono ?_ fun _ _ _ => trivial
    rintro o s' (h | ⟨seg, r, htarget, hs, hr, hlease, -, h⟩) l slot ho
    · exact answered_of_unmoved h ho
    rw [htarget] at ho
    cases ho
    cases h with
    | cons hstep hrest =>
      have := answered_of_targetState (c := .markTargetDataReady op leaseId receipt) hs hr
        (.refl s) hstep ⟨hlease, rfl⟩
      exact this.advances (Update.advances_of_run hrest)
  | beginTargetCommit op leaseId receipt token =>
    refine post_beginTargetCommit.mono ?_ fun _ _ _ => trivial
    rintro o s' (h | ⟨seg, r, htarget, hs, hr, hlease, -, h⟩) l slot ho
    · exact answered_of_unmoved h ho
    rw [htarget] at ho
    cases ho
    cases h with
    | cons hstep hrest =>
      have := answered_of_targetState (c := .beginTargetCommit op leaseId receipt token) hs hr
        (.refl s) hstep ⟨hlease, rfl, rfl⟩
      exact this.advances (Update.advances_of_run hrest)
  | finishTargetCommit op leaseId routeEpoch =>
    refine post_finishTargetCommit.mono ?_ fun _ _ _ => trivial
    rintro o s' (h | ⟨seg, r, state, htarget, hs, hr, hlease, -, -, h⟩) l slot ho
    · exact answered_of_unmoved h ho
    · rw [htarget] at ho
      cases ho
      obtain ⟨s₁, hrun, hlast⟩ := Run.snoc_inv [_, _] h
      exact answered_of_targetState hs hr (Update.advances_of_run hrun) hlast ⟨hlease, rfl⟩

end TargetCall

/-! ## The main result -/

namespace OwnerSegmentAllocator

variable {batch : Option PutAtomicGroup} {s : OwnerSegmentAllocator A} {r : OwnerTargetLeaseRecord}

variable {seg : OwnerSegmentState A} {op : OwnerTransferOpId}

theorem prepareClaimedGetTarget_changed {key : String} {putId : PutId} {slot : OwnerSlotDesc}
    (hs : s.segment = some seg) (hr : seg.targetLeases.lookup op = some r)
    (h : ¬r.Binds key putId slot.len .localExclusive batch ∨ r.slot ≠ slot) :
    ∃ e, prepareClaimedGetTarget op key putId batch slot s = .ok (.error e) s ∧
      e.code = .conflict := by
  refine ⟨⟨.conflict, "claimed Get target replay changed operation parameters"⟩, Post.eq_ok ?_, rfl⟩
  have hne : r.key ≠ key ∨ r.putId ≠ putId ∨ r.len ≠ slot.len ∨ r.disposition ≠ .localExclusive ∨
      r.atomicBatch ≠ batch ∨ r.slot ≠ slot := by
    by_contra hsame
    push Not at hsame
    obtain ⟨hkey, hput, hlen, hdisposition, hbatch, hslot⟩ := hsame
    rcases h with h | h
    · exact h ⟨hkey, hput, hlen, hdisposition, hbatch⟩
    · exact h hslot
  simp only [prepareClaimedGetTarget, post_bind, post_get, hs, hr, post_ite, post_pure]
  exact ⟨fun _ => ⟨rfl, trivial⟩, fun hno => (hno hne).elim⟩

variable [OffsetAllocator A]

/-- A prepare of an existing operation with a changed parameter fails and changes nothing. -/
theorem prepareTarget_changed {target : OwnerGeneration} {key : String} {putId : PutId} {len : ℕ}
    {disposition : OwnerTargetDisposition} (hs : s.segment = some seg)
    (hr : seg.targetLeases.lookup op = some r)
    (h : target ≠ seg.owner ∨ ¬r.Binds key putId len disposition batch) :
    ∃ e, prepareTarget op target key putId len disposition batch s = .ok (.error e) s ∧
      (e.code = .conflict ∨ e.code = .staleGeneration) := by
  by_cases howner : target = seg.owner
  · have hchanged := h.resolve_left (not_not.2 howner)
    refine ⟨⟨.conflict, "PrepareTarget replay changed operation parameters"⟩, Post.eq_ok ?_,
      .inl rfl⟩
    have hne : r.key ≠ key ∨ r.putId ≠ putId ∨ r.len ≠ len ∨ r.disposition ≠ disposition ∨
        r.atomicBatch ≠ batch := by
      by_contra hsame
      push Not at hsame
      exact hchanged hsame
    simp only [prepareTarget, post_bind, post_get, hs, hr, howner, ne_eq, not_true_eq_false,
      if_false, post_ite, post_pure]
    exact ⟨fun _ => ⟨rfl, trivial⟩, fun hno => (hno hne).elim⟩
  · refine ⟨⟨.staleGeneration, "PrepareTarget expected another owner generation"⟩, Post.eq_ok ?_,
      .inr rfl⟩
    simp only [prepareTarget, post_bind, post_get, hs, ne_eq, howner, not_false_eq_true, if_true,
      post_pure]
    exact ⟨rfl, trivial⟩

/-- **Replay safety of the target leases.** In every run of an installed segment, whether or not
calls panic: a lease record keeps everything but its state, which moves forward, possibly skipping
states, or from a non-terminal state to aborted, and never out of a terminal one; a call that has
returned a lease and a slot returns them again without changing anything, unless the lease has been
aborted; and a prepare of an existing operation with a changed parameter fails without changing
anything. -/
theorem target_lease_replay_safety {i : Installation} {s₀ s : OwnerSegmentAllocator A}
    {cs : List OwnerCall} (hinstalled : Installed i s₀) (hrun : Run Takes s₀ cs s) :
    (∀ cs' s' op r, Run Takes s cs' s' → s.targetLeases.lookup op = some r →
      ∃ state, s'.targetLeases.lookup op = some { r with state } ∧
        Relation.ReflTransGen OwnerTargetLeaseState.Moves r.state state ∧
        (r.state.isOpen = false → state = r.state)) ∧
    (∀ (c : TargetCall) o s₁ l slot cs' s', c.run s = .ok o s₁ → o.target? = some (l, slot) →
      Run Takes s₁ cs' s' → ∃ o', c.run s' = .ok o' s' ∧
        (o'.target? = some (l, slot) ∨ (o' = .targetAborted ∧
          ∃ r reason, s'.targetLeases.lookup c.op = some r ∧ r.state = .aborted reason))) ∧
    ∀ seg op r, s.segment = some seg → seg.targetLeases.lookup op = some r →
      (∀ target key putId len disposition batch,
        target ≠ seg.owner ∨ ¬r.Binds key putId len disposition batch →
        ∃ e, prepareTarget op target key putId len disposition batch s = .ok (.error e) s ∧
          (e.code = .conflict ∨ e.code = .staleGeneration)) ∧
      ∀ key putId batch slot, ¬r.Binds key putId slot.len .localExclusive batch ∨ r.slot ≠ slot →
        ∃ e, prepareClaimedGetTarget op key putId batch slot s = .ok (.error e) s ∧
          e.code = .conflict := by
  have hs₀ : s₀.segment ≠ none := by
    rw [hinstalled.segment_eq]
    exact nofun
  have hs := (advances_of_run_takes hrun hs₀).segment_ne_none hs₀
  refine ⟨fun cs' s' op r hrun' hr => ?_, fun c o s₁ l slot cs' s' hcall ho hrun' => ?_,
    fun seg op r hseg hr => ⟨fun _ _ _ _ _ _ => prepareTarget_changed hseg hr,
      fun _ _ _ _ => prepareClaimedGetTarget_changed hseg hr⟩⟩
  · obtain ⟨state, hm, hr'⟩ := (advances_of_run_takes hrun' hs).targets op r hr
    exact ⟨state, hr', hm, OwnerTargetLeaseState.eq_of_moves_terminal hm⟩
  have hstep : s.Takes c.toCall s₁ :=
    .inl (by rw [Returns, c.exec_toCall, ignore_eq_ok]; exact ⟨o, hcall⟩)
  have hs₁ := (Takes.advances hstep hs).segment_ne_none hs
  obtain ⟨seg, r, hs', hr, rfl, rfl, hanswer⟩ :=
    ((c.post_run_answered s).of_ok hcall l slot ho).advances (advances_of_run_takes hrun' hs₁)
  refine ⟨_, run_of_answered hs' hr hanswer, ?_⟩
  rcases r.replayOutcome_target with htarget | ⟨haborted, reason, hstate⟩
  · exact .inl htarget
  · exact .inr ⟨haborted, r, reason, by rw [targetLeases_eq hs', hr], hstate⟩

/-- An operation of a remote coordinator, for concrete runs. -/
def firstOp : OwnerTransferOpId := ⟨⟨"coordinator", 1⟩, 1, .get⟩

/-- The receipt of a transfer of 100 bytes into the first slot. -/
def firstReceipt : OwnerTransferReceipt := ⟨1, .rdmaWrite, 100, none, .firstSlot, 1, 1⟩

/-- A prepare of the first slot for a caller that publishes nothing. -/
def firstPrepare : TargetCall :=
  .prepareTarget firstOp Installation.twoUnits.owner "k" (1, 0) 100 .ephemeralCaller none

/-- The lease of the first prepare. -/
def firstLease : OwnerLeaseId := ⟨Installation.twoUnits.owner, 1⟩

/-- The transfer into the first slot is reported. -/
def firstReady : OwnerCall := .markTargetDataReady firstOp firstLease firstReceipt

/-- A prepare is replayed after the transfer, and sent again for another key. -/
theorem target_lease_replay_safety_dataReady : ∃ s s',
      Run Takes started [firstPrepare.toCall] s ∧ Run Takes s [firstReady] s' ∧
      (∀ op r, s.targetLeases.lookup op = some r →
        ∃ state, s'.targetLeases.lookup op = some { r with state }) ∧
      (∃ o', firstPrepare.run s' = .ok o' s' ∧
        (o'.target? = some (firstLease, .firstSlot) ∨ (o' = .targetAborted ∧
          ∃ r reason, s'.targetLeases.lookup firstOp = some r ∧ r.state = .aborted reason))) ∧
      ∃ e, prepareClaimedGetTarget firstOp "other" (1, 0) none .firstSlot s = .ok (.error e) s ∧
        e.code = .conflict := by
  have hpost : Post firstPrepare.run started
      (fun o s => o.target? = some (firstLease, .firstSlot) ∧
        ((s.segment.bind (·.targetLeases.lookup firstOp)).any (·.key ≠ "other")) = true ∧
        Post (exec firstReady) s (fun _ _ => True) fun _ _ => False)
      (fun _ _ => False) := by decide +kernel
  obtain ⟨o, s, hprepare, ho, hkey, hpost⟩ := hpost.exists_ok
  obtain ⟨_, s', hmark, -⟩ := hpost.exists_ok
  have hcall : Returns started firstPrepare.toCall s := by
    rw [Returns, TargetCall.exec_toCall, ignore_eq_ok]
    exact ⟨o, hprepare⟩
  have hrun : Run Takes started [firstPrepare.toCall] s := .single (.inl hcall)
  have hrun' : Run Takes s [firstReady] s' := .single (.inl hmark)
  obtain ⟨hmoves, -, hchanged⟩ := target_lease_replay_safety installed_started hrun
  obtain ⟨r, hr, hother⟩ := (Option.any_eq_true _ _).1 hkey
  obtain ⟨seg, hseg, hr⟩ := Option.bind_eq_some_iff.1 hr
  refine ⟨s, s', hrun, hrun', fun op r hr => (hmoves _ s' op r hrun' hr).imp fun _ h => h.1,
    (target_lease_replay_safety installed_started (.nil _)).2.1 _ o s _ _ _ s' hprepare ho hrun',
    (hchanged seg firstOp r hseg hr).2 _ _ _ _ (.inl fun hbinds => ?_)⟩
  exact of_decide_eq_true hother hbinds.1

/-- A commit may skip the data-ready state, and after an abort a replay of the prepare no longer
returns the lease and its slot. -/
theorem target_lease_skips_state_and_forgets_aborted :
    (∃ s s', Run Returns started [firstPrepare.toCall] s ∧
      (s.targetLeases.lookup firstOp).map (·.state) = some .prepared ∧
      s.Returns (.beginTargetCommit firstOp firstLease firstReceipt none) s' ∧
      (s'.targetLeases.lookup firstOp).map (·.state) = some (.routePending firstReceipt none)) ∧
    ∃ s₁ s₂ s₃ o, firstPrepare.run started = .ok o s₁ ∧
      o.target? = some (firstLease, .firstSlot) ∧
      s₁.Returns (.abortTarget firstOp firstLease "cancelled") s₂ ∧
      firstPrepare.run s₂ = .ok .targetAborted s₃ := by
  constructor
  · obtain ⟨s, hrun, hprepared, hpost⟩ := exists_run_of_post [firstPrepare.toCall] started
      (Q := fun s => (s.targetLeases.lookup firstOp).map (·.state) = some .prepared ∧
        Post (exec (.beginTargetCommit firstOp firstLease firstReceipt none)) s
          (fun _ s' => (s'.targetLeases.lookup firstOp).map (·.state) =
            some (.routePending firstReceipt none)) fun _ _ => False) (by decide +kernel)
    obtain ⟨_, s', hbegin, hpending⟩ := hpost.exists_ok
    exact ⟨s, s', hrun, hprepared, hbegin, hpending⟩
  · have hpost : Post firstPrepare.run started
        (fun o s₁ => o.target? = some (firstLease, .firstSlot) ∧
          Post (exec (.abortTarget firstOp firstLease "cancelled")) s₁
            (fun _ s₂ => Post firstPrepare.run s₂ (fun o' _ => o' = .targetAborted)
              fun _ _ => False) fun _ _ => False) (fun _ _ => False) := by
      decide +kernel
    obtain ⟨o, s₁, hprepare, htarget, hpost⟩ := hpost.exists_ok
    obtain ⟨_, s₂, habort, hpost⟩ := hpost.exists_ok
    obtain ⟨_, s₃, hreplay, rfl⟩ := hpost.exists_ok
    exact ⟨s₁, s₂, s₃, o, hprepare, htarget, habort, hreplay⟩

end OwnerSegmentAllocator

end Fluxon.OwnerSegment
