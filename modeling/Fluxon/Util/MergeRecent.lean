import Mathlib.Data.Nat.Notation

/-!
# Merging notifications

`AsyncNotificationMerger::poll` collects the items of a stream into batches. A batch is handed out
when it has the maximal size, when the timer that its first item has started fires, or when the
stream ends. Nothing is lost or handed out twice, and a batch has at most the maximal size, or one
item if that is zero (`batches_eq_received`).
-/

namespace Fluxon.Util

inductive PollResult (α : Type)
  | batchReady (data : List α)
  | dataCollected
  | streamEnded (data : List α)
  | pending
  deriving DecidableEq

namespace PollResult

variable {α : Type}

def data : PollResult α → List α
  | .batchReady data | .streamEnded data => data
  | .dataCollected | .pending => []

/-- A batch that is ready is not empty, and no batch is larger than the maximal size or one. -/
def Fits (maxBatchSize : Option ℕ) (result : PollResult α) : Prop :=
  (∀ data, result = .batchReady data → data ≠ []) ∧
    ∀ n, maxBatchSize = some n → result.data.length ≤ n ∨ result.data.length ≤ 1

end PollResult

/-- What a poll has waited for: `stream.next()` or the timer. -/
inductive PollEvent (α : Type)
  | next (item : Option α)
  | delay

def PollEvent.received {α : Type} : PollEvent α → List α
  | .next item => item.toList
  | .delay => []

structure AsyncNotificationMerger (α : Type) where
  pendingResults : List α
  maxBatchSize : Option ℕ
  /-- Whether the timer runs. -/
  delayFuture : Bool
  deriving DecidableEq

namespace AsyncNotificationMerger

variable {α : Type} {m m' : AsyncNotificationMerger α}

def new (maxBatchSize : Option ℕ) : AsyncNotificationMerger α := ⟨[], maxBatchSize, false⟩

/-- `poll`. With or without a timer, an item that does not fill the batch leaves the timer running,
and one that does leaves none. -/
def poll (m : AsyncNotificationMerger α) :
    PollEvent α → Option (PollResult α × AsyncNotificationMerger α)
  | .next (some item) =>
    let pendingResults := m.pendingResults ++ [item]
    if m.maxBatchSize.any (· ≤ pendingResults.length) then
      some (.batchReady pendingResults, { m with pendingResults := [], delayFuture := false })
    else some (.dataCollected, { m with pendingResults, delayFuture := true })
  | .next none => some (.streamEnded m.pendingResults, { m with pendingResults := [] })
  | .delay =>
    if m.delayFuture then
      if m.pendingResults ≠ [] then
        some (.batchReady m.pendingResults, { m with pendingResults := [], delayFuture := false })
      else some (.pending, { m with delayFuture := false })
    else none

/-- One poll after the other, with their results. -/
def polls (m : AsyncNotificationMerger α) :
    List (PollEvent α) → Option (List (PollResult α) × AsyncNotificationMerger α)
  | [] => some ([], m)
  | e :: es => do
    let (result, m) ← m.poll e
    let (results, m) ← m.polls es
    return (result :: results, m)

/-- What is pending is not a batch yet. -/
def HasRoom (m : AsyncNotificationMerger α) : Prop :=
  ∀ n, m.maxBatchSize = some n → m.pendingResults.length < n ∨ m.pendingResults = []

theorem HasRoom.fits (h : m.HasRoom) (n : ℕ) (hn : m.maxBatchSize = some n) :
    m.pendingResults.length ≤ n ∨ m.pendingResults.length ≤ 1 := by
  rcases h n hn with hlt | hnil
  · exact .inl (Nat.le_of_lt hlt)
  · exact .inr (by simp [hnil])

theorem poll_spec {e : PollEvent α} {result : PollResult α} (hroom : m.HasRoom)
    (h : m.poll e = some (result, m')) :
    result.data ++ m'.pendingResults = m.pendingResults ++ e.received ∧
      m'.maxBatchSize = m.maxBatchSize ∧ m'.HasRoom ∧ result.Fits m.maxBatchSize := by
  cases e with
  | next item =>
    cases item with
    | none =>
      cases h
      exact ⟨rfl, rfl, fun _ _ => .inr rfl, nofun, hroom.fits⟩
    | some item =>
      simp only [poll] at h
      split at h
      · cases h
        refine ⟨List.append_nil _, rfl, fun _ _ => .inr rfl, ?_, fun n hn => ?_⟩
        · simp
        · rw [PollResult.data, List.length_append, List.length_singleton]
          rcases hroom n hn with hlt | hnil
          · exact .inl hlt
          · exact .inr (by simp [hnil])
      · next hfull =>
        cases h
        refine ⟨rfl, rfl, fun n hn => .inl ?_, nofun, fun _ _ => .inr (Nat.zero_le _)⟩
        simpa [show m.maxBatchSize = some n from hn] using hfull
  | delay =>
    simp only [poll] at h
    split at h
    · split at h
      · next hpending =>
        cases h
        refine ⟨rfl, rfl, fun _ _ => .inr rfl, ?_, hroom.fits⟩
        rintro _ ⟨⟩
        exact hpending
      · cases h
        exact ⟨(List.append_nil _).symm, rfl, hroom, nofun, fun _ _ => .inr (Nat.zero_le _)⟩
    · cases h

theorem polls_spec {es : List (PollEvent α)} {results : List (PollResult α)} (hroom : m.HasRoom)
    (h : m.polls es = some (results, m')) :
    results.flatMap PollResult.data ++ m'.pendingResults =
        m.pendingResults ++ es.flatMap PollEvent.received ∧
      (es.getLast? = some (.next none) → m'.pendingResults = []) ∧
      ∀ result ∈ results, result.Fits m.maxBatchSize := by
  induction es generalizing m results with
  | nil =>
    cases h
    simp
  | cons e es ih =>
    obtain ⟨⟨result, m₁⟩, hpoll, h⟩ := Option.bind_eq_some_iff.1 h
    obtain ⟨⟨rest, m₂⟩, hrest, h⟩ := Option.bind_eq_some_iff.1 h
    cases h
    obtain ⟨hdata, hmax, hroom₁, hfits⟩ := poll_spec hroom hpoll
    obtain ⟨hdata', hended, hfits'⟩ := ih hroom₁ hrest
    refine ⟨?_, fun hlast => ?_, ?_⟩
    · rw [List.flatMap_cons, List.append_assoc, hdata', ← List.append_assoc, hdata,
        List.append_assoc, List.flatMap_cons]
    · cases es with
      | nil =>
        cases hlast
        cases hpoll
        cases hrest
        rfl
      | cons => exact hended hlast
    · rw [hmax] at hfits'
      exact List.forall_mem_cons.2 ⟨hfits, hfits'⟩

/-- **No item is lost or handed out twice.** -/
theorem batches_eq_received {maxBatchSize : Option ℕ} {es : List (PollEvent α)}
    {results : List (PollResult α)} (h : (new maxBatchSize).polls es = some (results, m)) :
    results.flatMap PollResult.data ++ m.pendingResults = es.flatMap PollEvent.received ∧
      (es.getLast? = some (.next none) → m.pendingResults = []) ∧
      ∀ result ∈ results, result.Fits maxBatchSize := by
  have hroom : (new maxBatchSize : AsyncNotificationMerger α).HasRoom := fun _ _ => .inr rfl
  exact polls_spec hroom h

theorem batches_eq_received_two : ∃ results m,
    (new (some 2)).polls [.next (some 7), .next (some 8), .next (some 9), .next none] =
      some (results, m) ∧ results.flatMap PollResult.data = [7, 8, 9] := by
  have h : (new (some 2)).polls [.next (some 7), .next (some 8), .next (some 9), .next none] =
      some ([.dataCollected, .batchReady [7, 8], .dataCollected, .streamEnded [9]],
        ⟨[], some 2, true⟩) := by decide
  exact ⟨_, _, h, (batches_eq_received h).1⟩

/-- A maximal size of zero does not keep the first item back, and the end of the stream has a result
of its own. -/
theorem batch_over_size_and_empty_end : (new (some 0)).polls [.next (some 7), .next none] =
    some ([.batchReady [7], .streamEnded []], ⟨[], some 0, false⟩) := by
  decide

end AsyncNotificationMerger

end Fluxon.Util
