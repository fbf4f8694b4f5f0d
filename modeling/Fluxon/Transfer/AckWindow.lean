import Fluxon.Transfer.AtMostOnce
import Mathlib.Order.Bounds.Defs

/-!
# The acknowledgement window

`OwnerTransferPeerTracker` keeps one stream of sequences towards each target. Responses come in any
order and more than once; `record_terminal` collects them after the gap and moves the watermark as
far as they are complete. `Exact` says what the state of a stream is in terms of the sequences
handed out and recorded so far. The main result is `ack_watermark_contiguous`.
-/

namespace Fluxon.Transfer

open OwnerSegment Call Finset

variable {P : Type}

/-! ## The tracker -/

/-- `OwnerTransferPeerTracker`. -/
structure OwnerTransferPeerTracker where
  ackStreamId : ℕ
  peers : OwnerGeneration → Option OwnerTransferPeerState

namespace OwnerTransferPeerTracker

/-- `OwnerTransferPeerTracker::new`, which asserts that the stream has an id. -/
def new (ackStreamId : ℕ) : Option OwnerTransferPeerTracker :=
  if ackStreamId ≠ 0 then some ⟨ackStreamId, fun _ => none⟩ else none

variable (t : OwnerTransferPeerTracker) (target : OwnerGeneration)

/-- `peers.entry(target).or_default()`. -/
def peer : OwnerTransferPeerState := (t.peers target).getD {}

def setPeer (s : OwnerTransferPeerState) : OwnerTransferPeerTracker :=
  { t with peers := Function.update t.peers target (some s) }

/-- `prepare_request`; it panics when the sequences overflow. -/
def prepareRequest (callerGeneration : OwnerGeneration) (items : List (TransferItem P)) :
    Option (TransferReq P × OwnerTransferPeerTracker) :=
  match Transfer.prepareRequest t.ackStreamId callerGeneration items (t.peer target) with
  | .ok request s => some (request, t.setPeer target s)
  | .error _ _ => none

def ackWatermark : ℕ := ((t.peers target).map (·.ack.watermark)).getD 0

/-- `record_terminal`, with the watermark it returns. -/
def recordTerminal (terminalSequence : ℕ) : ℕ × OwnerTransferPeerTracker :=
  if terminalSequence = 0 then (t.ackWatermark target, t)
  else
    let (watermark, s) := Transfer.recordTerminal terminalSequence (t.peer target)
    (watermark, t.setPeer target s)

theorem ackWatermark_eq : t.ackWatermark target = (t.peer target).ack.watermark := by
  cases h : t.peers target <;> simp [ackWatermark, peer, h]

theorem peer_setPeer (s : OwnerTransferPeerState) (target' : OwnerGeneration) :
    (t.setPeer target s).peer target' = if target' = target then s else t.peer target' := by
  by_cases h : target' = target <;> simp [peer, setPeer, h]

end OwnerTransferPeerTracker

/-- The sequences of the items whose terminal is cached. -/
def sequences (items : List (RequestItem P)) : List ℕ :=
  (items.filter (·.item.cachesReplayTerminal)).map (·.terminalSequence)

/-! ## One stream -/

/-- What the state of a stream is, after these sequences were handed out and recorded. -/
structure Exact (s : OwnerTransferPeerState) (handed : List ℕ) (recorded : Finset ℕ) : Prop where
  handed_eq : handed = List.range' 1 s.nextTerminalSequence
  below : ∀ n, 0 < n → n ≤ s.ack.watermark → n ∈ recorded
  gap : ∀ n, n ∈ s.ack.completedAfterGap ↔ n ∈ recorded ∧ s.ack.watermark < n
  stops : s.ack.watermark + 1 ∉ recorded
  bound : ∀ n ∈ recorded, n ≤ u64Max

/-- The items of a request take consecutive sequences. -/
theorem post_assignSequences_consecutive (items : List (TransferItem P))
    (s : OwnerTransferPeerState) :
    Post (assignSequences items) s
      (fun ris s' => ∃ k, sequences ris = List.range' (s.nextTerminalSequence + 1) k ∧
        s'.nextTerminalSequence = s.nextTerminalSequence + k ∧ s'.ack = s.ack)
      (fun _ _ => True) := by
  induction items generalizing s with
  | nil => exact ⟨0, rfl, rfl, rfl⟩
  | cons item items ih =>
    simp only [assignSequences]
    split
    · rename_i hitem
      rw [post_bind]
      refine (post_nextSequence s).imp ?_
      rintro n s₁ ⟨rfl, hn, hack⟩
      rw [post_bind]
      refine (ih s₁).imp ?_
      rintro ris s' ⟨k, hseq, hnext, hack'⟩
      refine ⟨k + 1, ?_, by omega, hack'.trans hack⟩
      rw [hn] at hseq
      simpa [sequences, hitem, List.range'_succ] using hseq
    · rename_i hitem
      rw [post_bind, post_pure, post_bind]
      refine (ih s).imp ?_
      rintro ris s' ⟨k, hseq, h⟩
      exact ⟨k, by simpa [sequences, hitem] using hseq, h⟩

/-- The loop takes from the gap set what extends the prefix, and stops at the first hole. -/
theorem advance_exact (k w : ℕ) (gap : Finset ℕ) (hk : gap.card ≤ k)
    (hgap : ∀ n ∈ gap, w < n ∧ n ≤ u64Max) :
    let w' := OwnerTransferAckWindow.advance k ⟨w, gap⟩
    w ≤ w'.watermark ∧ (∀ n, w < n → n ≤ w'.watermark → n ∈ gap) ∧
      (∀ n, n ∈ w'.completedAfterGap ↔ n ∈ gap ∧ w'.watermark < n) ∧
      w'.watermark + 1 ∉ w'.completedAfterGap := by
  -- where the loop ends: the window is returned as it is
  have hend : ∀ (w : ℕ) (gap : Finset ℕ), (∀ n ∈ gap, w < n ∧ n ≤ u64Max) → w + 1 ∉ gap →
      w ≤ w ∧ (∀ n, w < n → n ≤ w → n ∈ gap) ∧ (∀ n, n ∈ gap ↔ n ∈ gap ∧ w < n) ∧
        w + 1 ∉ gap := fun w gap hgap h =>
    ⟨le_rfl, fun n _ _ => by omega, fun n => ⟨fun hn => ⟨hn, (hgap n hn).1⟩, And.left⟩, h⟩
  induction k generalizing w gap with
  | zero =>
    rw [Nat.le_zero, card_eq_zero] at hk
    exact hend w gap hgap (by simp [hk])
  | succ k ih =>
    simp only [OwnerTransferAckWindow.advance]
    split
    · rename_i hnone
      rw [checkedAdd_eq_none] at hnone
      exact hend w gap hgap fun h => absurd (hgap _ h).2 (by omega)
    rename_i next hnext
    obtain ⟨-, rfl⟩ := checkedAdd_eq_some.1 hnext
    split
    · rename_i hmem
      have hgap' : ∀ n ∈ gap.erase (w + 1), w + 1 < n ∧ n ≤ u64Max := fun n hn => by
        obtain ⟨hne, hn⟩ := mem_erase.1 hn
        have := hgap n hn
        omega
      have hcard : (gap.erase (w + 1)).card ≤ k := by
        rw [card_erase_of_mem hmem]
        omega
      obtain ⟨hle, hbelow, hleft, hstop⟩ := ih (w + 1) _ hcard hgap'
      refine ⟨by omega, fun n hn hn' => ?_, fun n => (hleft n).trans ?_, hstop⟩
      · rcases Nat.eq_or_lt_of_le (Nat.succ_le_of_lt hn) with rfl | hlt
        · exact hmem
        · exact mem_of_mem_erase (hbelow n hlt hn')
      · refine and_congr_left fun hlt => mem_erase.trans (and_iff_right ?_)
        omega
    · rename_i hstop
      exact hend w gap hgap hstop

namespace Exact

variable {s : OwnerTransferPeerState} {handed : List ℕ} {recorded : Finset ℕ}

theorem initial : Exact {} [] ∅ where
  handed_eq := rfl
  below := fun n hpos hle => absurd hle (Nat.not_le.2 hpos)
  gap := by simp
  stops := by simp
  bound := by simp

theorem prepareRequest (h : Exact s handed recorded) {ackStreamId : ℕ} {caller : OwnerGeneration}
    {items : List (TransferItem P)} {request : TransferReq P} {s' : OwnerTransferPeerState}
    (hok : Transfer.prepareRequest ackStreamId caller items s = .ok request s') :
    Exact s' (handed ++ sequences request.items) recorded ∧ s.ack.watermark ≤ s'.ack.watermark := by
  have hpost : Post (Transfer.prepareRequest ackStreamId caller items) s
      (fun request s' => ∃ k, sequences request.items = List.range' (s.nextTerminalSequence + 1) k ∧
        s'.nextTerminalSequence = s.nextTerminalSequence + k ∧ s'.ack = s.ack)
      (fun _ _ => True) := by
    simp only [Transfer.prepareRequest, post_bind, post_get, post_pure]
    exact post_assignSequences_consecutive items s
  obtain ⟨k, hseq, hnext, hack⟩ := hpost.of_ok hok
  obtain ⟨hhanded, hbelow, hgap, hstops, hbound⟩ := h
  rw [← hack] at hbelow hgap hstops
  refine ⟨⟨?_, hbelow, hgap, hstops, hbound⟩, by rw [hack]⟩
  rw [hseq, hnext, hhanded, Nat.add_comm s.nextTerminalSequence 1]
  simp [List.range'_append_1]

theorem recordTerminal (h : Exact s handed recorded) {n : ℕ} (hpos : n ≠ 0) (hn : n ≤ u64Max) :
    Exact (Transfer.recordTerminal n s).2 handed (insert n recorded) ∧
      s.ack.watermark ≤ (Transfer.recordTerminal n s).2.ack.watermark := by
  simp only [Transfer.recordTerminal, if_neg hpos]
  split
  · rename_i hle
    rw [insert_eq_of_mem (h.below n (Nat.pos_of_ne_zero hpos) hle)]
    exact ⟨h, le_rfl⟩
  rename_i hlt
  have hgap : ∀ m ∈ insert n s.ack.completedAfterGap, s.ack.watermark < m ∧ m ≤ u64Max := by
    intro m hm
    rcases mem_insert.1 hm with rfl | hm
    · exact ⟨Nat.not_le.1 hlt, hn⟩
    · exact ⟨((h.gap m).1 hm).2, h.bound m ((h.gap m).1 hm).1⟩
  obtain ⟨hle, hbelow, hleft, hstop⟩ := advance_exact _ s.ack.watermark _ le_rfl hgap
  -- above the old watermark the recorded sequences are those of the gap set
  have hmem : ∀ m, s.ack.watermark < m →
      (m ∈ insert n s.ack.completedAfterGap ↔ m ∈ insert n recorded) := fun m hm => by
    simp only [mem_insert, h.gap, hm, and_true]
  refine ⟨⟨h.handed_eq, fun m hpos hm => ?_, fun m => (hleft m).trans ?_, fun hm => hstop ?_,
    fun m hm => ?_⟩, hle⟩
  · by_cases hold : m ≤ s.ack.watermark
    · exact mem_insert_of_mem (h.below m hpos hold)
    · exact (hmem m (by omega)).1 (hbelow m (by omega) hm)
  · exact and_congr_left fun hm => hmem m (by omega)
  · exact (hleft _).2 ⟨(hmem _ (by omega)).2 hm, Nat.lt_succ_self _⟩
  · rcases mem_insert.1 hm with rfl | hm
    · exact hn
    · exact h.bound m hm

end Exact

/-! ## Runs -/

/-- A tracker with the sequences that it has handed out and recorded for each target. -/
structure Tracked where
  tracker : OwnerTransferPeerTracker
  handed : OwnerGeneration → List ℕ
  recorded : OwnerGeneration → Finset ℕ

inductive TrackerCall (P : Type)
  | prepareRequest (callerGeneration target : OwnerGeneration) (items : List (TransferItem P))
  | recordTerminal (target : OwnerGeneration) (terminalSequence : ℕ)

namespace Tracked

def initial (tracker : OwnerTransferPeerTracker) : Tracked := ⟨tracker, fun _ => [], fun _ => ∅⟩

/-- A call that returns. The sequence of a terminal is a 64-bit word. -/
def step (w : Tracked) : TrackerCall P → Option Tracked
  | .prepareRequest callerGeneration target items =>
    (w.tracker.prepareRequest target callerGeneration items).map fun (request, tracker) =>
      { w with
        tracker
        handed := Function.update w.handed target
          (w.handed target ++ sequences request.items) }
  | .recordTerminal target n =>
    if n ≤ u64Max then
      some { w with
        tracker := (w.tracker.recordTerminal target n).2
        recorded := if n = 0 then w.recorded
          else Function.update w.recorded target (insert n (w.recorded target)) }
    else none

/-- Every stream is as its history says. -/
def Inv (w : Tracked) : Prop :=
  ∀ target, Exact (w.tracker.peer target) (w.handed target) (w.recorded target)

open OwnerTransferPeerTracker (ackWatermark_eq peer_setPeer)

/-- One stream moves and the others stay. -/
theorem Inv.setPeer {w : Tracked} (h : w.Inv) {target : OwnerGeneration}
    {s : OwnerTransferPeerState} {handed : List ℕ} {recorded : Finset ℕ}
    (hs : Exact s handed recorded ∧ (w.tracker.peer target).ack.watermark ≤ s.ack.watermark) :
    let tracker := w.tracker.setPeer target s
    Inv ⟨tracker, Function.update w.handed target handed,
      Function.update w.recorded target recorded⟩ ∧
      ∀ target', w.tracker.ackWatermark target' ≤ tracker.ackWatermark target' := by
  simp only [ackWatermark_eq, peer_setPeer]
  refine ⟨fun target' => ?_, fun target' => ?_⟩
  · by_cases ht : target' = target
    · simpa [peer_setPeer, ht] using hs.1
    · simpa [peer_setPeer, ht] using h target'
  · by_cases ht : target' = target
    · simpa [ht] using hs.2
    · simp [ht]

/-- A call keeps the streams exact and lowers no watermark. -/
theorem Inv.step {w w' : Tracked} {c : TrackerCall P} (h : w.Inv) (hstep : w.step c = some w') :
    w'.Inv ∧ ∀ target, w.tracker.ackWatermark target ≤ w'.tracker.ackWatermark target := by
  cases c with
  | prepareRequest callerGeneration target items =>
    simp only [Tracked.step, OwnerTransferPeerTracker.prepareRequest] at hstep
    cases hok : prepareRequest w.tracker.ackStreamId callerGeneration items
        (w.tracker.peer target) with
    | error e s => simp [hok] at hstep
    | ok request s =>
      rw [hok] at hstep
      cases hstep
      simpa using h.setPeer ((h target).prepareRequest hok)
  | recordTerminal target n =>
    simp only [Tracked.step, OwnerTransferPeerTracker.recordTerminal] at hstep
    split at hstep
    · rename_i hn
      cases hstep
      by_cases hpos : n = 0
      · simp only [hpos, if_true]
        exact ⟨h, fun _ => le_rfl⟩
      · simpa [hpos] using h.setPeer ((h target).recordTerminal hpos hn)
    · cases hstep

/-- The watermark of a target covers exactly the complete prefix of what was recorded. -/
structure Contiguous (w : Tracked) (target : OwnerGeneration) : Prop where
  /-- The sequences handed out are `1, 2, …` in order. -/
  consecutive : w.handed target = List.range' 1 (w.handed target).length
  greatest : IsGreatest {n | ∀ m, 1 ≤ m → m ≤ n → m ∈ w.recorded target}
    (w.tracker.ackWatermark target)
  gap : ∀ n, n ∈ (w.tracker.peer target).ack.completedAfterGap ↔
    n ∈ w.recorded target ∧ w.tracker.ackWatermark target < n

theorem Inv.contiguous {w : Tracked} (h : w.Inv) (target : OwnerGeneration) :
    w.Contiguous target := by
  constructor
  · rw [(h target).handed_eq, List.length_range']
  · rw [ackWatermark_eq]
    refine ⟨(h target).below, fun n hn => ?_⟩
    by_contra hlt
    exact (h target).stops (hn _ (by omega) (by omega))
  · rw [ackWatermark_eq]
    exact (h target).gap

/-- **The acknowledgement watermark.** After any calls that return, the watermark of every target
is the largest `n` such that `1, …, n` have all been recorded, and no further call lowers it. -/
theorem ack_watermark_contiguous {ackStreamId : ℕ} {t : OwnerTransferPeerTracker}
    {cs : List (TrackerCall P)} {w : Tracked}
    (hnew : OwnerTransferPeerTracker.new ackStreamId = some t)
    (hrun : Run (fun w c w' => Tracked.step w c = some w') (initial t) cs w)
    (target : OwnerGeneration) :
    w.Contiguous target ∧ ∀ (c : TrackerCall P) w', w.step c = some w' →
      w.tracker.ackWatermark target ≤ w'.tracker.ackWatermark target := by
  have hinit : (initial t).Inv := by
    simp only [OwnerTransferPeerTracker.new, Option.ite_none_right_eq_some, Option.some.injEq]
      at hnew
    rw [← hnew.2]
    exact fun _ => .initial
  have hinv : w.Inv := hrun.invariant (fun _ _ _ h hs => (h.step hs).1) hinit
  exact ⟨hinv.contiguous target, fun c w' hs => (hinv.step hs).2 target⟩

end Tracked

/-- Two gets are answered in the wrong order, the second of them twice, and a later response has
come before the third. -/
theorem ack_watermark_contiguous_outOfOrder :
    ∃ w : Tracked, (w.handed someCaller = [1, 2] ∧ w.tracker.ackWatermark someCaller = 2) ∧
      w.Contiguous someCaller ∧ ∀ (c : TrackerCall Unit) w', w.step c = some w' →
        w.tracker.ackWatermark someCaller ≤ w'.tracker.ackWatermark someCaller := by
  obtain ⟨w, hrun, h⟩ := Run.exists_of_foldlM Tracked.step (Tracked.initial ⟨1, fun _ => none⟩)
    [.prepareRequest someCaller someCaller [someGet 1, someGet 2],
      .recordTerminal someCaller 2, .recordTerminal someCaller 2, .recordTerminal someCaller 1,
      .recordTerminal someCaller 4]
    (fun w => w.handed someCaller = [1, 2] ∧ w.tracker.ackWatermark someCaller = 2)
    (by decide +kernel)
  have hnew : OwnerTransferPeerTracker.new 1 = some ⟨1, fun _ => none⟩ := rfl
  exact ⟨w, h, Tracked.ack_watermark_contiguous hnew hrun someCaller⟩

end Fluxon.Transfer
