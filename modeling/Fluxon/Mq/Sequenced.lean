import Fluxon.Mq.ConsumerEffect

/-!
# Commits go in the order of the sequence numbers

`Sequenced s` says where each job can be, given the sequencer: a job in its commit is the one whose
turn it is, a job that has finished with its payload has been passed, and every other job is still
to come. `Queued s` says that the prefetch queue holds the jobs that have not been popped, in order.
Every step of a consumer keeps both (`InOrder.step`). With them the sequencer finds every entry
that it is asked for, so that no call of it panics.
-/

namespace Fluxon.Mq.Consumer

open List Function

variable {α : Type} {s s' : Consumer α} {i : ℕ} {job job₀ : Job α}

/-! ## Places -/

/-- Where job `i` can be when the sequencer is at `nextSeq`. -/
def Place (nextSeq : ℕ) (commits : List ℕ) (i : ℕ) : JobPhase α → Prop
  | .spawned | .payload | .waitTurn _ => nextSeq ≤ i ∧ i ∉ commits
  | .commit _ applied => i = nextSeq ∧ (applied = true → i ∈ commits)
  | .retrySleep _ => i = nextSeq
  | .readyToAdvance _ => i = nextSeq ∧ i ∈ commits
  | .failed _ | .finished (.error _) => nextSeq ≤ i
  | .finished (.ok _) => i < nextSeq
  | .panicked _ => False

/-- The message that a phase carries. -/
def carried : JobPhase α → Option (FetchedPayload α)
  | .waitTurn fetched | .commit fetched _ | .retrySleep fetched | .readyToAdvance fetched
  | .finished (.ok fetched) => some fetched
  | .spawned | .payload | .failed _ | .finished (.error _) | .panicked _ => none

/-- The job has ended or is about to end with an error. -/
def hasFailed : JobPhase α → Bool
  | .failed _ | .finished (.error _) => true
  | _ => false

def isFinished : JobPhase α → Bool
  | .finished _ => true
  | _ => false

/-- The message of a job that has one is the job's own, and a job without payload has failed. -/
structure Coherent (commits : List ℕ) (i : ℕ) (job : Job α) : Prop where
  seq : job.seq = i
  producer : ∀ fetched, carried job.phase = some fetched → fetched.producerId = job.producerId
  offset : ∀ fetched, carried job.phase = some fetched → fetched.consumeOffset = job.consumeOffset
  failed : job.payloadFailed = true → hasFailed job.phase = true ∧ i ∉ commits

structure Sequenced (s : Consumer α) : Prop where
  coherent : ∀ (i : ℕ) (job : Job α), s.jobs[i]? = some job → Coherent s.commits i job
  place : ∀ (i : ℕ) (job : Job α), s.jobs[i]? = some job →
    Place s.commitSeq.nextSeq s.commits i job.phase
  entry : ∀ (i : ℕ) (job : Job α), s.jobs[i]? = some job → isFinished job.phase = false →
    ∃ entry, s.commitSeq.progress i = some entry
  fresh : ∀ i, s.jobs.length ≤ i → s.commitSeq.progress i = none
  next_le : s.commitSeq.nextSeq ≤ s.jobs.length
  le_next : ∀ i ∈ s.commits, i ≤ s.commitSeq.nextSeq
  committed : ∀ i < s.commitSeq.nextSeq, i ∈ s.commits
  sorted : s.commits.Pairwise (· ≤ ·)
  started : ∀ i ∈ s.commits, i < s.jobs.length

theorem getElem?_concat_cases {β : Type} {l : List β} {a b : β} {k : ℕ}
    (h : (l ++ [a])[k]? = some b) : l[k]? = some b ∨ (k = l.length ∧ b = a) := by
  rcases Nat.lt_or_ge k l.length with hlt | hge
  · rw [List.getElem?_append_left hlt] at h
    exact .inl h
  rw [List.getElem?_append_right hge] at h
  obtain ⟨hlen, hb⟩ := List.getElem?_eq_some_iff.1 h
  have hk : k = l.length := by
    rw [length_singleton] at hlen
    omega
  refine .inr ⟨hk, ?_⟩
  simpa using hb.symm

/-- The consumer after the put of the job has taken effect. -/
def putApplied (s : Consumer α) (i : ℕ) (job : Job α) (fetched : FetchedPayload α) : Consumer α :=
  { s.setJob i job (.commit fetched true) with
    consumeOffsets := AList.insert fetched.producerId (fetched.consumeOffset + 1) s.consumeOffsets
    commits := s.commits ++ [job.seq] }

theorem jobs_setJob {phase : JobPhase α} (hjob : s.jobs[i]? = some job₀) (k : ℕ) :
    (s.setJob i job phase).jobs[k]? =
      if k = i then some { job with phase } else s.jobs[k]? := by
  obtain ⟨hi, -⟩ := List.getElem?_eq_some_iff.1 hjob
  rw [setJob, List.getElem?_set]
  by_cases hk : k = i
  · rw [if_pos hk, if_pos hk.symm, if_pos hi]
  · rw [if_neg hk, if_neg (Ne.symm hk)]

theorem jobs_setJob_cases {phase : JobPhase α} {job₀ job' : Job α} {k : ℕ}
    (hjob : s.jobs[i]? = some job₀) (hk : (s.setJob i job phase).jobs[k]? = some job') :
    (k = i ∧ job' = { job with phase }) ∨ (k ≠ i ∧ s.jobs[k]? = some job') := by
  rw [jobs_setJob hjob] at hk
  split at hk
  · next hki => exact .inl ⟨hki, (Option.some.inj hk).symm⟩
  · next hki => exact .inr ⟨hki, hk⟩

theorem length_setJob (phase : JobPhase α) :
    (s.setJob i job phase).jobs.length = s.jobs.length := by
  simp [setJob]

namespace Sequenced

/-- Steps that leave the jobs, the turn and the commits alone, and keep the entries. -/
theorem frame (h : Sequenced s) (hjobs : s'.jobs = s.jobs)
    (hnext : s'.commitSeq.nextSeq = s.commitSeq.nextSeq) (hcommits : s'.commits = s.commits)
    (hprogress : ∀ i, (s'.commitSeq.progress i).isSome = (s.commitSeq.progress i).isSome) :
    Sequenced s' := by
  constructor
  · rw [hjobs, hcommits]
    exact h.coherent
  · rw [hjobs, hcommits, hnext]
    exact h.place
  · intro i job hjob hphase
    rw [hjobs] at hjob
    obtain ⟨entry, hentry⟩ := h.entry i job hjob hphase
    exact Option.isSome_iff_exists.1 (by rw [hprogress, hentry]; rfl)
  · intro i hi
    rw [hjobs] at hi
    have hnone := h.fresh i hi
    exact Option.not_isSome_iff_eq_none.1 (by rw [hprogress, hnone]; simp)
  · rw [hjobs, hnext]
    exact h.next_le
  · rw [hcommits, hnext]
    exact h.le_next
  · rw [hcommits, hnext]
    exact h.committed
  · rw [hcommits]
    exact h.sorted
  · rw [hcommits, hjobs]
    exact h.started

/-- A job moves on within its place. -/
theorem setJob (h : Sequenced s) {phase : JobPhase α} (hjob : s.jobs[i]? = some job₀)
    (hcoherent : Coherent s.commits i { job with phase })
    (hplace : Place s.commitSeq.nextSeq s.commits i phase)
    (hentry : isFinished phase = false → isFinished job₀.phase = false) :
    Sequenced (s.setJob i job phase) := by
  refine ⟨?_, ?_, ?_, ?_, ?_, h.le_next, h.committed, h.sorted, ?_⟩
  · intro k job' hk
    rcases jobs_setJob_cases hjob hk with ⟨hki, rfl⟩ | ⟨hki, hk⟩
    · exact hki ▸ hcoherent
    · exact h.coherent k job' hk
  · intro k job' hk
    rcases jobs_setJob_cases hjob hk with ⟨hki, rfl⟩ | ⟨hki, hk⟩
    · exact hki ▸ hplace
    · exact h.place k job' hk
  · intro k job' hk hphase
    rcases jobs_setJob_cases hjob hk with ⟨hki, rfl⟩ | ⟨hki, hk⟩
    · exact hki ▸ h.entry i job₀ hjob (hentry hphase)
    · exact h.entry k job' hk hphase
  · rw [length_setJob]
    exact h.fresh
  · rw [length_setJob]
    exact h.next_le
  · rw [length_setJob]
    exact h.started

variable (h : Sequenced s) (hjob : s.jobs[i]? = some job)
include h hjob

/-- A job before the turn has finished with a message. -/
theorem finished_of_lt (hlt : i < s.commitSeq.nextSeq) :
    ∃ fetched, job.phase = .finished (.ok fetched) := by
  have hplace := h.place i job hjob
  cases hphase : job.phase with
  | spawned | payload | waitTurn | commit | readyToAdvance =>
    rw [hphase] at hplace
    have := hplace.1
    omega
  | retrySleep | failed =>
    rw [hphase] at hplace
    simp only [Place] at hplace
    omega
  | finished result =>
    rw [hphase] at hplace
    cases result with
    | error e =>
      simp only [Place] at hplace
      omega
    | ok fetched => exact ⟨fetched, rfl⟩
  | panicked =>
    rw [hphase] at hplace
    exact hplace.elim

theorem ready : s.JobReady job := by
  have hseq := (h.coherent i job hjob).seq
  constructor
  · intro hphase
    rw [hseq]
    apply h.entry i job hjob
    cases hp : job.phase with
    | finished result => exact absurd hp (hphase result)
    | _ => rfl
  · intro fetched hphase
    have hplace := h.place i job hjob
    rw [hphase] at hplace
    rw [hseq]
    exact hplace.1.symm

end Sequenced

variable {commits : List ℕ} {phase : JobPhase α} {e : CallerEvent}

theorem Coherent.move (h : Coherent commits i job)
    (hcarried : ∀ fetched, carried phase = some fetched → carried job.phase = some fetched ∨
      (fetched.producerId = job.producerId ∧ fetched.consumeOffset = job.consumeOffset))
    (hfailed : hasFailed job.phase = true → hasFailed phase = true) :
    Coherent commits i { job with phase } := by
  refine ⟨h.seq, ?_, ?_, ?_⟩
  · intro fetched hphase
    rcases hcarried fetched hphase with hbefore | ⟨hproducer, -⟩
    · exact h.producer fetched hbefore
    · exact hproducer
  · intro fetched hphase
    rcases hcarried fetched hphase with hbefore | ⟨-, hoffset⟩
    · exact h.offset fetched hbefore
    · exact hoffset
  · intro hpayload
    obtain ⟨hbefore, hcommits⟩ := h.failed hpayload
    exact ⟨hfailed hbefore, hcommits⟩

/-- A job that has not failed goes on with the payload that it carries. -/
theorem Coherent.carry (h : Coherent commits i job) (hcarried : carried phase = carried job.phase)
    (hfailed : hasFailed job.phase = false) : Coherent commits i { job with phase } :=
  h.move (fun _ hf => .inl (hcarried ▸ hf)) fun hf => absurd hf (by simp [hfailed])

/-- Jobs other than the one whose turn it is keep their place when it commits. -/
theorem Place.commit {nextSeq k : ℕ} (h : Place nextSeq commits k phase) (hk : k ≠ nextSeq) :
    Place nextSeq (commits ++ [nextSeq]) k phase := by
  cases phase with
  | spawned | payload | waitTurn => exact ⟨h.1, by simp [h.2, hk]⟩
  | commit | readyToAdvance => exact absurd h.1 hk
  | retrySleep => exact absurd h hk
  | failed => exact h
  | finished result => cases result <;> exact h
  | panicked => exact h

/-- Jobs other than the one whose turn it was keep their place when the turn goes on. -/
theorem Place.advance {nextSeq k : ℕ} (h : Place nextSeq commits k phase) (hk : k ≠ nextSeq) :
    Place (nextSeq + 1) commits k phase := by
  cases phase with
  | spawned | payload | waitTurn => exact ⟨lt_of_le_of_ne h.1 (Ne.symm hk), h.2⟩
  | commit | readyToAdvance => exact absurd h.1 hk
  | retrySleep => exact absurd h hk
  | failed => exact lt_of_le_of_ne h (Ne.symm hk)
  | finished result =>
    cases result with
    | error => exact lt_of_le_of_ne h (Ne.symm hk)
    | ok => exact Nat.lt_succ_of_lt h
  | panicked => exact h

namespace Sequenced

variable {fetched : FetchedPayload α}

section

variable (h : Sequenced s) (hjob : s.jobs[i]? = some job)
include h hjob

/-- The put of the job whose turn it is takes effect. -/
theorem putEffect (hphase : job.phase = .commit fetched false) :
    Sequenced (s.putApplied i job fetched) := by
  unfold putApplied
  obtain ⟨hi, -⟩ := List.getElem?_eq_some_iff.1 hjob
  have hcoherent := h.coherent i job hjob
  have hplace := h.place i job hjob
  rw [hphase] at hplace
  have hturn : i = s.commitSeq.nextSeq := hplace.1
  have hseq : job.seq = s.commitSeq.nextSeq := hcoherent.seq.trans hturn
  have hpayload : job.payloadFailed = false := by
    by_contra hfailed
    have := (hcoherent.failed (Bool.not_eq_false _ ▸ hfailed)).1
    rw [hphase] at this
    cases this
  constructor
  · intro k job' hk
    rcases jobs_setJob_cases hjob hk with ⟨hki, rfl⟩ | ⟨hki, hk⟩
    · refine ⟨hki ▸ hcoherent.seq, ?_, ?_, ?_⟩
      · intro f hf
        cases hf
        exact hcoherent.producer fetched (by rw [hphase]; rfl)
      · intro f hf
        cases hf
        exact hcoherent.offset fetched (by rw [hphase]; rfl)
      · intro hfailed
        rw [hpayload] at hfailed
        cases hfailed
    · obtain ⟨hs, hp, ho, hf⟩ := h.coherent k job' hk
      refine ⟨hs, hp, ho, ?_⟩
      intro hfailed
      refine ⟨(hf hfailed).1, ?_⟩
      have hne : k ≠ job.seq := by
        rw [hcoherent.seq]
        exact hki
      simp [(hf hfailed).2, hne]
  · intro k job' hk
    rcases jobs_setJob_cases hjob hk with ⟨hki, rfl⟩ | ⟨hki, hk⟩
    · exact ⟨hki.trans hturn, fun _ => by simp [hki, hcoherent.seq]⟩
    · rw [hseq]
      exact (h.place k job' hk).commit fun hk => hki (hk.trans hturn.symm)
  · intro k job' hk hunfinished
    rcases jobs_setJob_cases hjob hk with ⟨hki, rfl⟩ | ⟨hki, hk⟩
    · exact hki ▸ h.entry i job hjob (by rw [hphase]; rfl)
    · exact h.entry k job' hk hunfinished
  · intro k hk
    rw [length_setJob] at hk
    exact h.fresh k hk
  · rw [length_setJob]
    exact h.next_le
  · intro k hk
    rcases mem_append.1 hk with hk | hk
    · exact h.le_next k hk
    · rw [mem_singleton] at hk
      exact le_of_eq (hk.trans hseq)
  · intro k hk
    exact mem_append_left _ (h.committed k hk)
  · apply pairwise_append.2
    refine ⟨h.sorted, pairwise_singleton _ _, ?_⟩
    intro k hk k' hk'
    rw [mem_singleton] at hk'
    rw [hk', hseq]
    exact h.le_next k hk
  · intro k hk
    rw [length_setJob]
    rcases mem_append.1 hk with hk | hk
    · exact h.started k hk
    · rw [mem_singleton] at hk
      rw [hk, hcoherent.seq]
      exact hi

/-- The job whose turn it is has committed and passes the turn on. -/
theorem advance (hphase : job.phase = .readyToAdvance fetched) :
    Sequenced
      { s.setJob i job (.finished (.ok fetched)) with
        commitSeq :=
          { s.commitSeq with
            nextSeq := job.seq + 1
            progress := CommitSequencer.retained { s.commitSeq with nextSeq := job.seq + 1 } } } := by
  obtain ⟨hi, -⟩ := List.getElem?_eq_some_iff.1 hjob
  have hcoherent := h.coherent i job hjob
  have hplace := h.place i job hjob
  rw [hphase] at hplace
  obtain ⟨hturn, hcommitted⟩ := hplace
  have hseq : job.seq = s.commitSeq.nextSeq := hcoherent.seq.trans hturn
  have hmoved : Coherent s.commits i { job with phase := .finished (.ok fetched) } :=
    hcoherent.carry (by rw [hphase]; rfl) (by rw [hphase]; rfl)
  refine ⟨?_, ?_, ?_, ?_, ?_, ?_, ?_, h.sorted, ?_⟩
  · intro k job' hk
    rcases jobs_setJob_cases hjob hk with ⟨hki, rfl⟩ | ⟨hki, hk⟩
    · exact hki ▸ hmoved
    · exact h.coherent k job' hk
  · intro k job' hk
    rcases jobs_setJob_cases hjob hk with ⟨hki, rfl⟩ | ⟨hki, hk⟩
    · rw [hki, hcoherent.seq]
      exact Nat.lt_succ_self i
    · rw [hseq]
      exact (h.place k job' hk).advance fun hk => hki (hk.trans hturn.symm)
  · intro k job' hk hunfinished
    rcases jobs_setJob_cases hjob hk with ⟨hki, rfl⟩ | ⟨hki, hk⟩
    · cases hunfinished
    obtain ⟨entry, hentry⟩ := h.entry k job' hk hunfinished
    refine ⟨entry, CommitSequencer.retained_of_le hentry ?_⟩
    -- an unfinished job is not behind the turn
    have hplace' := (h.place k job' hk).advance fun hk => hki (hk.trans hturn.symm)
    rw [hseq]
    cases hphase' : job'.phase with
    | finished result =>
      rw [hphase'] at hunfinished
      cases hunfinished
    | spawned | payload | waitTurn =>
      rw [hphase'] at hplace'
      exact hplace'.1
    | commit | readyToAdvance =>
      rw [hphase'] at hplace'
      exact le_of_eq hplace'.1.symm
    | retrySleep =>
      rw [hphase'] at hplace'
      exact le_of_eq (Eq.symm hplace')
    | failed =>
      rw [hphase'] at hplace'
      exact hplace'
    | panicked =>
      rw [hphase'] at hplace'
      exact hplace'.elim
  · intro k hk
    rw [length_setJob] at hk
    exact CommitSequencer.retained_of_none (h.fresh k hk)
  · rw [length_setJob]
    rw [hcoherent.seq]
    exact hi
  · intro k hk
    rw [hseq]
    exact Nat.le_succ_of_le (h.le_next k hk)
  · intro k hk
    rw [hcoherent.seq] at hk
    rcases Nat.lt_succ_iff_lt_or_eq.1 hk with hlt | heq
    · exact h.committed k (hturn ▸ hlt)
    · exact heq ▸ hcommitted
  · rw [length_setJob]
    exact h.started

theorem jobEffect {e : JobEvent α} (he : JobEffect s i job e s') : Sequenced s' := by
  have hcoherent := h.coherent i job hjob
  have hplace := h.place i job hjob
  cases he with
  | startFailed _ hphase | turnFailed _ _ hphase =>
    rw [hphase] at hplace
    exact h.setJob hjob (hcoherent.move nofun fun _ => rfl) hplace.1 fun _ => by rw [hphase]; rfl
  | start hphase _ =>
    rw [hphase] at hplace
    refine h.setJob hjob (hcoherent.move nofun ?_) hplace fun _ => by rw [hphase]; rfl
    rw [hphase]
    exact nofun
  | fetch obj hphase =>
    rw [hphase] at hplace
    refine h.setJob hjob (hcoherent.move ?_ ?_) hplace fun _ => by rw [hphase]; rfl
    · intro fetched hf
      cases hf
      exact .inr ⟨rfl, rfl⟩
    · rw [hphase]
      exact nofun
  | fetchRetryable => exact h
  | fetchFailed msg hphase =>
    rw [hphase] at hplace
    exact h.setJob hjob ⟨hcoherent.seq, nofun, nofun, fun _ => ⟨rfl, hplace.2⟩⟩ hplace.1
      fun _ => by rw [hphase]; rfl
  | turn fetched hphase _ hturn =>
    exact h.setJob hjob (hcoherent.carry (by rw [hphase]; rfl) (by rw [hphase]; rfl))
      ⟨hcoherent.seq.symm.trans hturn.symm, nofun⟩ fun _ => by rw [hphase]; rfl
  | putEffect fetched hphase => exact h.putEffect hjob hphase
  | putOk fetched hphase =>
    rw [hphase] at hplace
    exact h.setJob hjob (hcoherent.carry (by rw [hphase]; rfl) (by rw [hphase]; rfl))
      ⟨hplace.1, hplace.2 rfl⟩ fun _ => by rw [hphase]; rfl
  | putError fetched applied hphase =>
    rw [hphase] at hplace
    exact h.setJob hjob (hcoherent.carry (by rw [hphase]; rfl) (by rw [hphase]; rfl)) hplace.1
      fun _ => by rw [hphase]; rfl
  | retry fetched hphase =>
    rw [hphase] at hplace
    exact h.setJob hjob (hcoherent.carry (by rw [hphase]; rfl) (by rw [hphase]; rfl))
      ⟨hplace, nofun⟩ fun _ => by rw [hphase]; rfl
  | advance fetched hphase => exact h.advance hjob hphase
  | closed error hcancellable _ =>
    refine h.setJob hjob (hcoherent.move nofun fun _ => rfl) ?_ fun _ => ?_
    · generalize job.phase = phase at hcancellable hplace
      cases hcancellable with
      | payload | waitTurn => exact hplace.1
      | commit => exact le_of_eq hplace.1.symm
      | retrySleep => exact le_of_eq (Eq.symm hplace)
    · generalize job.phase = phase at hcancellable
      cases hcancellable <;> rfl
  | failClosed error hphase _ =>
    rw [hphase] at hplace
    exact h.setJob hjob (hcoherent.move nofun fun _ => rfl) hplace nofun
  | fail error hphase _ =>
    rw [hphase] at hplace
    have hmoved : Sequenced (s.setJob i job (.finished (.error error))) :=
      h.setJob hjob (hcoherent.move nofun fun _ => rfl) hplace nofun
    exact hmoved.frame rfl rfl rfl fun _ => rfl

end

/-- A job is admitted. -/
theorem admitted (h : Sequenced s) {seq o : ℕ} {p : String} (hseq : seq = s.jobs.length) : Sequenced
      { s with
        commitSeq :=
          { s.commitSeq with
            progress := update s.commitSeq.progress seq (some ⟨false⟩) }
        jobs := s.jobs ++ [.spawn seq p o]
        inflightQueueSize := s.inflightQueueSize + 1
        phase := .enqueueing ⟨seq, p, o⟩ } := by
  subst hseq
  have hnew : s.jobs.length ∉ s.commits := fun hmem => lt_irrefl _ (h.started _ hmem)
  refine ⟨?_, ?_, ?_, ?_, ?_, h.le_next, h.committed, h.sorted, ?_⟩
  · intro i job hi
    rcases getElem?_concat_cases hi with hold | ⟨rfl, rfl⟩
    · exact h.coherent i job hold
    · exact ⟨rfl, nofun, nofun, nofun⟩
  · intro i job hi
    rcases getElem?_concat_cases hi with hold | ⟨rfl, rfl⟩
    · exact h.place i job hold
    · exact ⟨h.next_le, hnew⟩
  · intro i job hi hphase
    rcases getElem?_concat_cases hi with hold | ⟨rfl, rfl⟩
    · obtain ⟨hlt, -⟩ := List.getElem?_eq_some_iff.1 hold
      obtain ⟨entry, hentry⟩ := h.entry i job hold hphase
      exact ⟨entry, by rw [← hentry]; exact update_of_ne (ne_of_lt hlt) _ _⟩
    · exact ⟨⟨false⟩, update_self _ _ _⟩
  · intro i hi
    simp only [length_append, length_singleton] at hi
    rw [← h.fresh i (Nat.le_of_succ_le hi)]
    exact update_of_ne (Nat.ne_of_gt hi) _ _
  · simp only [length_append, length_singleton]
    exact Nat.le_succ_of_le h.next_le
  · intro i hi
    simp only [length_append, length_singleton]
    exact Nat.lt_succ_of_lt (h.started i hi)

end Sequenced

/-! ## Sequence numbers -/

/-- The sequence number that the actor has taken and not registered. -/
def reserved : ActorPhase → Option ℕ
  | .admitting seq _ _ => some seq
  | _ => none

/-- The next sequence number is the number of jobs, as long as nothing has failed. -/
structure Numbered (s : Consumer α) : Prop where
  reserved : ∀ seq, reserved s.phase = some seq → s.nextPrefetchSeq = seq + 1
  length : s.commitSeq.failure = none →
    s.nextPrefetchSeq = s.jobs.length + (Consumer.reserved s.phase).toList.length

theorem Numbered.frame (h : Numbered s) (hphase : Consumer.reserved s'.phase = none)
    (hbefore : s'.commitSeq.failure = none → Consumer.reserved s.phase = none)
    (hnext : s'.nextPrefetchSeq = s.nextPrefetchSeq) (hjobs : s'.jobs.length = s.jobs.length)
    (hfailure : s'.commitSeq.failure = none → s.commitSeq.failure = none) : Numbered s' := by
  constructor
  · rw [hphase]
    exact nofun
  · intro hnone
    have hlength := h.length (hfailure hnone)
    rw [hbefore hnone] at hlength
    rw [hphase, hnext, hjobs]
    exact hlength

/-- Steps of the other threads. -/
theorem Numbered.congr (h : Numbered s) (hphase : s'.phase = s.phase)
    (hnext : s'.nextPrefetchSeq = s.nextPrefetchSeq) (hjobs : s'.jobs.length = s.jobs.length)
    (hfailure : s'.commitSeq.failure = none → s.commitSeq.failure = none) : Numbered s' := by
  constructor
  · rw [hphase, hnext]
    exact h.reserved
  · intro hnone
    rw [hphase, hnext, hjobs]
    exact h.length (hfailure hnone)

theorem reserved_of_takesInput (h : s.takesInput = true) : reserved s.phase = none := by
  rcases phase_of_takesInput h with hphase | hphase <;> rw [hphase] <;> rfl

theorem Numbered.actorEffect {e : ActorEvent} (h : Numbered s) (he : ActorEffect s e s') :
    Numbered s' := by
  cases he with
  | setCallback hinput | metaSet _ hinput | produceOffset _ hinput | stop hinput =>
    exact h.frame rfl (fun _ => reserved_of_takesInput hinput) rfl rfl fun hf => hf
  | refuse => exact h
  | beginRefresh hphase | beginSelect hphase | scanProduce _ hphase | scanConsume _ hphase
  | scanMeta _ _ hphase | noMessage hphase | beginProbe hphase | beginPick hphase
  | probe _ _ _ _ _ hphase | probeNoMessage _ hphase | probeDone _ hphase
  | pickNoMessage _ hphase | pick _ hphase | enqueue _ hphase =>
    exact h.frame rfl (fun _ => by rw [hphase]; rfl) rfl rfl fun hf => hf
  | abandon _ habandons =>
    refine h.frame rfl (fun hnone => ?_) rfl rfl fun hf => hf
    cases habandons with
    | refreshProduce _ hphase | refreshConsume _ _ hphase | refreshMeta _ _ hphase
    | probing _ _ hphase => rw [hphase]; rfl
    | selected _ _ _ hfailure | admitting _ _ _ _ hfailure =>
      rw [hnone] at hfailure
      cases hfailure
  | reserve p o hphase hfailure =>
    have hlength := h.length hfailure
    rw [hphase] at hlength
    constructor
    · intro seq hseq
      cases hseq
      rfl
    · intro _
      rw [hlength]
      rfl
  | admitted seq p o hphase hfailure =>
    have hlength := h.length hfailure
    rw [hphase] at hlength
    constructor
    · exact nofun
    · intro _
      rw [hlength, length_append]
      rfl

/-- The number that an admission registers is that of the next job. -/
theorem Numbered.eq_length {seq o : ℕ} {p : String} (h : Numbered s)
    (hphase : s.phase = .admitting seq p o) (hfailure : s.commitSeq.failure = none) :
    seq = s.jobs.length := by
  have hreserved := h.reserved seq (by rw [hphase]; rfl)
  have hlength := h.length hfailure
  rw [hphase] at hlength
  have hone : s.nextPrefetchSeq = s.jobs.length + 1 := hlength
  omega

theorem admitsFresh (h : Sequenced s) (hn : Numbered s) : s.AdmitsFresh := by
  intro seq p o hphase hfailure
  exact h.fresh seq (le_of_eq (hn.eq_length hphase hfailure).symm)

/-! ## The prefetch queue -/

/-- The item that the actor is sending to the queue. -/
def enqueued : ActorPhase → List InflightItem
  | .enqueueing item => [item]
  | _ => []

/-- The item that the caller has popped and not answered for. -/
def inHand : CallerPhase α → List InflightItem
  | .awaiting item | .deleting item _ => [item]
  | _ => []

/-- Every job has been answered for, is in the caller's hand or is queued, in this order. -/
structure Queued (s : Consumer α) : Prop where
  order : s.returned.map (·.1) ++
    (inHand s.caller ++ (s.inflight ++ enqueued s.phase)).map InflightItem.seq = range s.jobs.length
  unpopped : ∀ item ∈ s.inflight ++ enqueued s.phase, s.commitSeq.progress item.seq = some ⟨false⟩
  deleting : ∀ item fetched, s.caller = .deleting item fetched →
    ∃ job, s.jobs[item.seq]? = some job ∧ job.phase = .finished (.ok fetched)

/-- The calls that have popped an item have returned in the order of the jobs. -/
theorem Queued.map_returned (h : Queued s) : s.returned.map (·.1) = range s.returned.length := by
  have hmono : s.returned.map (·.1) <+: range s.jobs.length := ⟨_, h.order⟩
  have htake := prefix_iff_eq_take.1 hmono
  have hle := hmono.length_le
  rw [length_map, length_range] at hle
  rwa [length_map, take_range, Nat.min_eq_left hle] at htake

theorem JobEffect.not_finished {e : JobEvent α} (he : JobEffect s i job e s')
    {result : Except MpscError (FetchedPayload α)} : job.phase ≠ .finished result := by
  intro hfinished
  cases he with
  | closed _ hcancellable =>
    rw [hfinished] at hcancellable
    cases hcancellable
  | startFailed _ hphase | start hphase | fetch _ hphase | fetchRetryable _ hphase
  | fetchFailed _ hphase | turnFailed _ _ hphase | turn _ hphase | putEffect _ hphase
  | putOk _ hphase | putError _ _ hphase | retry _ hphase | advance _ hphase
  | failClosed _ hphase | fail _ hphase =>
    rw [hfinished] at hphase
    cases hphase

/-- What a step of job `i` leaves alone. -/
structure JobFrame (s : Consumer α) (i : ℕ) (s' : Consumer α) : Prop where
  length : s'.jobs.length = s.jobs.length
  other : ∀ k ≠ i, s'.jobs[k]? = s.jobs[k]?
  phase : s'.phase = s.phase
  actor : s'.actor = s.actor
  nextPrefetchSeq : s'.nextPrefetchSeq = s.nextPrefetchSeq
  inflight : s'.inflight = s.inflight
  inflightQueueSize : s'.inflightQueueSize = s.inflightQueueSize
  targetInflight : s'.targetInflight = s.targetInflight
  payloadCb : s'.payloadCb = s.payloadCb
  deleteCb : s'.deleteCb = s.deleteCb
  caller : s'.caller = s.caller
  returned : s'.returned = s.returned
  handedOut : s'.handedOut = s.handedOut
  observed : s'.observed = s.observed
  snapshot : s'.snapshot = s.snapshot
  shutdown : s'.shutdown = s.shutdown
  failure : s'.commitSeq.failure = none → s.commitSeq.failure = none
  unpopped : ∀ q, s.commitSeq.progress q = some ⟨false⟩ → s'.commitSeq.progress q = some ⟨false⟩

theorem jobFrame_setJob (job : Job α) (phase : JobPhase α) (hjob : s.jobs[i]? = some job₀) :
    JobFrame s i (s.setJob i job phase) where
  length := length_setJob phase
  other k hk := by rw [jobs_setJob hjob, if_neg hk]
  phase := rfl
  actor := rfl
  nextPrefetchSeq := rfl
  inflight := rfl
  inflightQueueSize := rfl
  targetInflight := rfl
  payloadCb := rfl
  deleteCb := rfl
  caller := rfl
  returned := rfl
  handedOut := rfl
  observed := rfl
  snapshot := rfl
  shutdown := rfl
  failure := fun h => h
  unpopped := fun _ h => h

theorem JobEffect.frame {e : JobEvent α} (hjob : s.jobs[i]? = some job)
    (he : JobEffect s i job e s') : JobFrame s i s' := by
  cases he with
  | fetchRetryable =>
    exact { jobFrame_setJob job job.phase hjob with length := rfl, other := fun _ _ => rfl }
  | putEffect fetched => exact { jobFrame_setJob job (.commit fetched true) hjob with }
  | advance fetched =>
    exact { jobFrame_setJob job (.finished (.ok fetched)) hjob with
      unpopped := fun _ h => CommitSequencer.retained_of_not_popped h }
  | fail error =>
    exact { jobFrame_setJob job (.finished (.error error)) hjob with
      failure := fun h => (Option.or_eq_none_iff.1 h).1 }
  | _ => exact jobFrame_setJob _ _ hjob

/-- What a step of the caller leaves alone. -/
structure CallerFrame (s s' : Consumer α) : Prop where
  jobs : s'.jobs = s.jobs
  phase : s'.phase = s.phase
  actor : s'.actor = s.actor
  nextPrefetchSeq : s'.nextPrefetchSeq = s.nextPrefetchSeq
  payloadCb : s'.payloadCb = s.payloadCb
  deleteCb : s'.deleteCb = s.deleteCb
  nextSeq : s'.commitSeq.nextSeq = s.commitSeq.nextSeq
  failure : s'.commitSeq.failure = s.commitSeq.failure
  consumeOffsets : s'.consumeOffsets = s.consumeOffsets
  commits : s'.commits = s.commits
  handedOut : s'.handedOut = s.handedOut
  observed : s'.observed = s.observed
  snapshot : s'.snapshot = s.snapshot
  shutdown : s'.shutdown = s.shutdown
  progress : (∀ item ∈ s.inflight, ∃ entry, s.commitSeq.progress item.seq = some entry) →
    ∀ q, (s'.commitSeq.progress q).isSome = (s.commitSeq.progress q).isSome

theorem CallerEffect.frame (he : CallerEffect s e s') : CallerFrame s s' := by
  cases he with
  | pop item inflight hcaller hinflight =>
    refine ⟨rfl, rfl, rfl, rfl, rfl, rfl, rfl, rfl, rfl, rfl, rfl, rfl, rfl, rfl, ?_⟩
    intro hentries q
    obtain ⟨entry, hentry⟩ := hentries item (by simp [hinflight])
    by_cases hq : q = item.seq
    · subst hq
      simp [hentry]
    · simp [update_of_ne hq]
  | _ =>
    exact ⟨rfl, rfl, rfl, rfl, rfl, rfl, rfl, rfl, rfl, rfl, rfl, rfl, rfl, rfl, fun _ _ => rfl⟩

namespace Queued

theorem jobEffect {e : JobEvent α} (h : Queued s) (hjob : s.jobs[i]? = some job)
    (he : JobEffect s i job e s') : Queued s' := by
  have hframe := he.frame hjob
  constructor
  · rw [hframe.returned, hframe.caller, hframe.inflight, hframe.phase, hframe.length]
    exact h.order
  · rw [hframe.inflight, hframe.phase]
    exact fun item hitem => hframe.unpopped _ (h.unpopped item hitem)
  intro item fetched hcaller
  rw [hframe.caller] at hcaller
  obtain ⟨job', hjob', hphase⟩ := h.deleting item fetched hcaller
  refine ⟨job', ?_, hphase⟩
  rw [← hjob']
  apply hframe.other
  intro hi
  -- a finished job takes no step
  subst hi
  rw [hjob] at hjob'
  cases hjob'
  exact he.not_finished hphase

/-- The caller hands an answer back. -/
theorem finishCall (h : Queued s) {item : InflightItem} (hhand : inHand s.caller = [item])
    (result : Except MpscError (ConsumedPayload α)) : Queued (s.finishCall item result) := by
  refine ⟨?_, h.unpopped, nofun⟩
  have horder := h.order
  rw [hhand] at horder
  simpa [Consumer.finishCall, inHand] using horder

theorem callerEffect (h : Queued s) (he : CallerEffect s e s') : Queued s' := by
  cases he with
  | call _ hcaller | leave _ hcaller =>
    have horder := h.order
    rw [hcaller] at horder
    exact ⟨horder, h.unpopped, nofun⟩
  | pop item inflight hcaller hinflight =>
    have horder := h.order
    rw [hcaller, hinflight] at horder
    refine ⟨?_, ?_, nofun⟩
    · simpa [inHand] using horder
    intro item' hitem'
    -- the numbers in the queue are distinct, so the entry is another one
    have hnodup : (s.returned.map (·.1) ++ (inHand (α := α) .waiting ++
        (item :: inflight ++ enqueued s.phase)).map InflightItem.seq).Nodup :=
      horder ▸ nodup_range
    have hne : item'.seq ≠ item.seq := by
      have htail := (nodup_append.1 hnodup).2.1
      simp only [inHand, nil_append, cons_append, map_cons, nodup_cons] at htail
      intro heq
      exact htail.1 (heq ▸ mem_map_of_mem hitem')
    have hbefore := h.unpopped item' (by
      rw [hinflight]
      exact mem_cons_of_mem _ hitem')
    exact (update_of_ne hne _ _).trans hbefore
  | resultError item job error hcaller => exact h.finishCall (by rw [hcaller]; rfl) _
  | result _ _ _ hcaller | delete _ _ _ hcaller | deleteFailed _ _ _ hcaller =>
    exact h.finishCall (by rw [hcaller]; rfl) _
  | beginDelete item job fetched hcaller hjob hphase =>
    have horder := h.order
    rw [hcaller] at horder
    refine ⟨horder, h.unpopped, ?_⟩
    intro item' fetched' hdeleting
    cases hdeleting
    exact ⟨job, hjob, hphase⟩
  | deleteRetryable => exact h

/-- Steps of the actor that enqueue nothing. -/
theorem frame (h : Queued s) (hreturned : s'.returned = s.returned) (hcaller : s'.caller = s.caller)
    (hqueue : s'.inflight ++ enqueued s'.phase = s.inflight ++ enqueued s.phase)
    (hjobs : s'.jobs = s.jobs) (hprogress : s'.commitSeq.progress = s.commitSeq.progress) :
    Queued s' := by
  constructor
  · rw [hreturned, hcaller, hqueue, hjobs]
    exact h.order
  · rw [hqueue, hprogress]
    exact h.unpopped
  · rw [hcaller, hjobs]
    exact h.deleting

theorem enqueued_of_takesInput (h : s.takesInput = true) : enqueued s.phase = [] := by
  rcases phase_of_takesInput h with hphase | hphase <;> rw [hphase] <;> rfl

theorem actorEffect {e : ActorEvent} (h : Queued s) (hsequenced : Sequenced s) (hnumbered : Numbered s)
    (he : ActorEffect s e s') : Queued s' := by
  cases he with
  | setCallback hinput | metaSet _ hinput | produceOffset _ hinput | stop hinput =>
    exact h.frame rfl rfl (by rw [enqueued_of_takesInput hinput]; rfl) rfl rfl
  | refuse => exact h
  | beginRefresh hphase | beginSelect hphase | scanProduce _ hphase | scanConsume _ hphase
  | scanMeta _ _ hphase | noMessage hphase | beginProbe hphase | beginPick hphase
  | probe _ _ _ _ _ hphase | probeNoMessage _ hphase | probeDone _ hphase
  | pickNoMessage _ hphase | pick _ hphase | reserve _ _ hphase =>
    exact h.frame rfl rfl (by rw [hphase]; rfl) rfl rfl
  | abandon _ habandons =>
    refine h.frame rfl rfl ?_ rfl rfl
    cases habandons with
    | refreshProduce _ hphase | refreshConsume _ _ hphase | refreshMeta _ _ hphase
    | probing _ _ hphase | selected _ _ hphase | admitting _ _ _ hphase => rw [hphase]; rfl
  | admitted seq p o hphase hfailure =>
    have hseq := hnumbered.eq_length hphase hfailure
    have horder := h.order
    rw [hphase] at horder
    constructor
    · rw [length_append, length_singleton, range_succ, ← horder, ← hseq]
      simp [enqueued]
    · intro item hitem
      rcases mem_append.1 hitem with hold | hnew
      · have hentry := h.unpopped item (mem_append_left _ hold)
        have hne : item.seq ≠ seq := by
          intro heq
          rw [heq, hsequenced.fresh seq (le_of_eq hseq.symm)] at hentry
          cases hentry
        exact (update_of_ne hne _ _).trans hentry
      · rw [mem_singleton.1 hnew]
        exact update_self _ _ _
    · intro item fetched hcaller
      obtain ⟨job, hjob, hfinished⟩ := h.deleting item fetched hcaller
      obtain ⟨hlt, -⟩ := List.getElem?_eq_some_iff.1 hjob
      exact ⟨job, by rw [← hjob]; exact List.getElem?_append_left hlt, hfinished⟩
  | enqueue item hphase =>
    refine h.frame rfl rfl ?_ rfl rfl
    rw [hphase]
    exact append_nil _

end Queued

/-! ## Every run -/

/-- What holds of jobs, sequencer and queue in every state. -/
structure InOrder (s : Consumer α) : Prop where
  sequenced : Sequenced s
  numbered : Numbered s
  queued : Queued s

namespace InOrder

theorem callerReady (h : InOrder s) : s.CallerReady := by
  constructor
  · intro item hitem
    exact ⟨_, h.queued.unpopped item (mem_append_left _ hitem)⟩
  · intro i job msg hjob hphase
    have hplace := h.sequenced.place i job hjob
    rw [hphase] at hplace
    exact hplace

theorem init (consumeOffsets : Table String ℕ) (deleteCb : Bool) :
    InOrder (Consumer.init consumeOffsets deleteCb : Consumer α) := by
  refine ⟨⟨nofun, nofun, nofun, fun _ _ => rfl, le_refl _, nofun, nofun, List.Pairwise.nil, nofun⟩,
    ⟨nofun, fun _ => rfl⟩, ⟨rfl, nofun, nofun⟩⟩

theorem actorEffect {e : ActorEvent} (h : InOrder s) (he : ActorEffect s e s') : InOrder s' := by
  refine ⟨?_, h.numbered.actorEffect he, h.queued.actorEffect h.sequenced h.numbered he⟩
  cases he with
  | admitted seq p o hphase hfailure =>
    exact h.sequenced.admitted (h.numbered.eq_length hphase hfailure)
  | refuse => exact h.sequenced
  | _ => exact h.sequenced.frame rfl rfl rfl fun _ => rfl

theorem jobEffect {e : JobEvent α} (h : InOrder s) (hjob : s.jobs[i]? = some job)
    (he : JobEffect s i job e s') : InOrder s' := by
  have hframe := he.frame hjob
  refine ⟨h.sequenced.jobEffect hjob he, ?_, h.queued.jobEffect hjob he⟩
  exact h.numbered.congr hframe.phase hframe.nextPrefetchSeq hframe.length hframe.failure

theorem callerEffect (h : InOrder s) (he : CallerEffect s e s') : InOrder s' := by
  have hframe := he.frame
  refine ⟨?_, ?_, h.queued.callerEffect he⟩
  · exact h.sequenced.frame hframe.jobs hframe.nextSeq hframe.commits
      (hframe.progress h.callerReady.entry)
  · exact h.numbered.congr hframe.phase hframe.nextPrefetchSeq (by rw [hframe.jobs])
      fun hf => by rw [← hframe.failure, hf]

end InOrder

/-- What a step does, in a state in which everything is in order. -/
inductive Effect (s : Consumer α) : ConsumerEvent α → Consumer α → Prop
  | actor {e : ActorEvent} {s' : Consumer α} : ActorEffect s e s' → Effect s (.actor e) s'
  | job {i : ℕ} {job : Job α} {e : JobEvent α} {s' : Consumer α} :
      s.jobs[i]? = some job → JobEffect s i job e s' → Effect s (.job i e) s'
  | caller {e : CallerEvent} {s' : Consumer α} : CallerEffect s e s' → Effect s (.caller e) s'
  | shutdown : Effect s .shutdown { s with shutdown := true }

theorem InOrder.effect {e : ConsumerEvent α} (h : InOrder s) (hstep : Step s e s') :
    Effect s e s' := by
  cases e with
  | actor e => exact .actor (actorEffect_of_step (admitsFresh h.sequenced h.numbered) hstep)
  | job i e =>
    simp only [Step, Consumer.step] at hstep
    split at hstep
    · next job hjob => exact .job hjob (jobEffect_of_step (h.sequenced.ready hjob) hstep)
    · cases hstep
  | caller e => exact .caller (callerEffect_of_step h.callerReady hstep)
  | shutdown =>
    cases hstep
    exact .shutdown

theorem InOrder.step {e : ConsumerEvent α} (h : InOrder s) (hstep : Step s e s') : InOrder s' := by
  cases h.effect hstep with
  | actor he => exact h.actorEffect he
  | job hjob he => exact h.jobEffect hjob he
  | caller he => exact h.callerEffect he
  | shutdown =>
    exact ⟨h.sequenced.frame rfl rfl rfl fun _ => rfl, h.numbered.congr rfl rfl rfl fun hf => hf,
      h.queued.frame rfl rfl rfl rfl rfl⟩

end Fluxon.Mq.Consumer
