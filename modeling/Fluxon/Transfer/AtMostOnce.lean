import Fluxon.Foundations.Run
import Fluxon.Transfer.Protocol

/-!
# Owner transfers are started at most once

A payload that was started has its flight in the receiver's tables, until the caller acknowledges
its sequence; from then on the stored watermark covers the sequence (`Ledger`). So a duplicate finds
either the flight or the watermark, as long as the watermark is looked at. It is not for a request
that carries no watermark itself: such a duplicate, when its flight is gone, starts the payload
again (`late_duplicate_starts_again`). The main result `transfer_at_most_once` is about the runs
without such a delivery.
-/

namespace Fluxon.Transfer

open OwnerSegment Call Receiver Function World TransferItem List

variable {P : Type}

/-! ## Sequence numbers -/

theorem post_nextSequence (s : OwnerTransferPeerState) : Post nextSequence s
      (fun n s' => n = s.nextTerminalSequence + 1 ∧ s'.nextTerminalSequence = n ∧ s'.ack = s.ack)
      (fun _ _ => True) := by
  simp only [nextSequence, post_bind, post_get, post_modify, post_expect, checkedAdd_eq_some]
  refine ⟨?_, fun _ => trivial⟩
  rintro n ⟨hle, rfl⟩
  refine ⟨rfl, Nat.mod_eq_of_lt ?_, trivial⟩
  rw [u64Max] at hle
  omega

/-- The items of one request: their sequences are new and pairwise distinct. -/
structure Numbered (n n' : ℕ) (ris : List (RequestItem P)) : Prop where
  le : n ≤ n'
  fresh : ∀ ri ∈ ris, ri.terminalSequence ≠ 0 → n < ri.terminalSequence
  bound : ∀ ri ∈ ris, ri.terminalSequence ≤ n'
  caches : ∀ ri ∈ ris, ri.terminalSequence ≠ 0 → ri.item.cachesReplayTerminal = true
  unique : ∀ ri ∈ ris, ∀ ri' ∈ ris, ri.terminalSequence = ri'.terminalSequence →
    ri.terminalSequence ≠ 0 → ri.item = ri'.item

theorem Numbered.nil (n : ℕ) : Numbered n n ([] : List (RequestItem P)) :=
  ⟨Nat.le_refl _, by simp, by simp, by simp, by simp⟩

variable {n n' stored : ℕ} {ris : List (RequestItem P)} {r r' : Receiver P} {led : List ℕ}
  {ri : RequestItem P}

/-- An item with no number, or with one that is free. -/
theorem Numbered.singleton (ri : RequestItem P) (hle : n ≤ n') (hri : ri.terminalSequence ≠ 0 →
    n < ri.terminalSequence ∧ ri.terminalSequence ≤ n' ∧ ri.item.cachesReplayTerminal = true) :
    Numbered n n' [ri] where
  le := hle
  fresh := by simpa using fun hne => (hri hne).1
  bound := by
    rw [forall_mem_singleton]
    by_cases hne : ri.terminalSequence = 0
    · rw [hne]
      exact Nat.zero_le _
    · exact (hri hne).2.1
  caches := by simpa using fun hne => (hri hne).2.2
  unique := by simp

/-- Items with later numbers join those with earlier ones. -/
theorem Numbered.union {m : ℕ} {ris' ris'' : List (RequestItem P)} (h : Numbered m n' ris)
    (h' : Numbered n m ris') (hmem : ∀ ri ∈ ris'', ri ∈ ris ∨ ri ∈ ris') : Numbered n n' ris'' where
  le := h'.le.trans h.le
  fresh := by
    intro ri hri hne
    rcases hmem ri hri with hri | hri
    · exact h'.le.trans_lt (h.fresh ri hri hne)
    · exact h'.fresh ri hri hne
  bound := by
    intro ri hri
    rcases hmem ri hri with hri | hri
    · exact h.bound ri hri
    · exact (h'.bound ri hri).trans h.le
  caches := by
    intro ri hri
    rcases hmem ri hri with hri | hri
    · exact h.caches ri hri
    · exact h'.caches ri hri
  unique := by
    intro ri hri ri' hri' heq hne
    rcases hmem ri hri with hri | hri <;> rcases hmem ri' hri' with hri' | hri'
    · exact h.unique ri hri ri' hri' heq hne
    · have := h.fresh ri hri hne
      have := h'.bound ri' hri'
      omega
    · have := h.fresh ri' hri' (heq ▸ hne)
      have := h'.bound ri hri
      omega
    · exact h'.unique ri hri ri' hri' heq hne

theorem post_assignSequences (items : List (TransferItem P)) (s : OwnerTransferPeerState) :
    Post (assignSequences items) s
      (fun ris s' => Numbered s.nextTerminalSequence s'.nextTerminalSequence ris)
      (fun _ _ => True) := by
  induction items generalizing s with
  | nil => exact .nil _
  | cons item items ih =>
    simp only [assignSequences]
    split
    · rename_i hitem
      rw [post_bind]
      refine (post_nextSequence s).imp ?_
      rintro n s₁ ⟨rfl, hn, -⟩
      rw [post_bind]
      refine (ih s₁).imp ?_
      intro ris s' h
      rw [hn] at h
      refine h.union (.singleton ⟨_, item⟩ (Nat.le_succ _) fun _ =>
        ⟨Nat.lt_succ_self _, le_rfl, hitem⟩) ?_
      simp +contextual
    · rw [post_bind, post_pure, post_bind]
      refine (ih s).imp ?_
      intro ris s' h
      refine h.union (.singleton ⟨0, item⟩ le_rfl fun hne => (hne rfl).elim) ?_
      simp +contextual

theorem post_prepareRequest (ackStreamId : ℕ) (caller : OwnerGeneration)
    (items : List (TransferItem P)) (s : OwnerTransferPeerState) :
    Post (prepareRequest ackStreamId caller items) s
      (fun req s' => req.callerGeneration = caller ∧ req.ackStreamId = ackStreamId ∧
        Numbered s.nextTerminalSequence s'.nextTerminalSequence req.items)
      (fun _ _ => True) := by
  simp only [prepareRequest, post_bind, post_get, post_pure]
  exact (post_assignSequences items s).imp (fun _ _ h => ⟨trivial, trivial, h⟩)

/-! ## Flights -/

/-- Every flight comes from one of the items. -/
structure FlightsFrom (items : List (RequestItem P)) (r : Receiver P) : Prop where
  get : ∀ op f, r.getFlights op = some f →
    ⟨f.request.terminalSequence, .getToTarget op f.request.payload⟩ ∈ items
  put : ∀ op attempt f, r.putFlights (op, attempt) = some f →
    ⟨f.request.terminalSequence, .putFromSource op attempt f.request.payload⟩ ∈ items

/-- There is a flight with this sequence. -/
def Receiver.HasFlight (r : Receiver P) (seq : ℕ) : Prop :=
  (∃ op f, r.getFlights op = some f ∧ f.request.terminalSequence = seq) ∨
    ∃ k f, r.putFlights k = some f ∧ f.request.terminalSequence = seq

/-- What has been started is in flight or acknowledged, and it was started once. -/
structure Ledger (items : List (RequestItem P)) (stored : ℕ) (r : Receiver P) (led : List ℕ) :
    Prop where
  flights : FlightsFrom items r
  kept : ∀ seq ∈ led, r.HasFlight seq ∨ seq ≤ stored
  nodup : led.Nodup

theorem le_raiseWatermark (current : Option ℕ) (requested : ℕ) :
    current.getD 0 ≤ raiseWatermark current requested := by
  cases current with
  | none => exact Nat.zero_le _
  | some n =>
    simp only [raiseWatermark, Option.getD_some]
    split <;> omega

section

variable {o : Option (Flight P)} {f : Flight P} {caller : OwnerGeneration}
  {ackStreamId acknowledged : ℕ} {current : Bool} {start : Start} {items : List (RequestItem P)}

/-- A flight that an acknowledgement does not keep is below the watermark. -/
theorem filter_acknowledged {op : OwnerTransferOpId} {applied : ℕ} (hf : o = some f) :
    o.filter (fun f => !f.acknowledged op caller ackStreamId applied) = some f ∨
      f.request.terminalSequence ≤ applied := by
  subst hf
  cases hack : f.acknowledged op caller ackStreamId applied with
  | false => exact .inl (by simp [hack])
  | true =>
    simp only [Flight.acknowledged, Bool.and_eq_true, decide_eq_true_eq] at hack
    exact .inr hack.1.2

/-- An acknowledgement drops flights below the watermark that it stores. -/
theorem Ledger.applyAck {requested : ℕ}
    (h : Ledger items ((r.ackWatermarks (caller, ackStreamId)).getD 0) r led)
    (hstream : ackStreamId ≠ 0) (hrequested : requested ≠ 0) :
    ∃ applied r', r.applyOwnerTransferTerminalAck caller ackStreamId requested = (applied, r') ∧
      (r.ackWatermarks (caller, ackStreamId)).getD 0 ≤ applied ∧
      r'.ackWatermarks (caller, ackStreamId) = some applied ∧ Ledger items applied r' led := by
  rw [applyOwnerTransferTerminalAck, if_neg (by simp [hstream, hrequested])]
  refine ⟨_, _, rfl, le_raiseWatermark _ _, update_self .., ⟨?_, ?_⟩, ?_, h.nodup⟩
  · exact fun op f hf => h.flights.get op f (Option.filter_eq_some_iff.1 hf).1
  · exact fun op attempt f hf => h.flights.put op attempt f (Option.filter_eq_some_iff.1 hf).1
  intro seq hseq
  rcases h.kept seq hseq with (⟨op, f, hf, rfl⟩ | ⟨k, f, hf, rfl⟩) | hle
  · rcases filter_acknowledged hf with hkeep | hle
    · exact .inl (.inl ⟨op, f, hkeep, rfl⟩)
    · exact .inr hle
  · rcases filter_acknowledged hf with hkeep | hle
    · exact .inl (.inr ⟨k, f, hkeep, rfl⟩)
    · exact .inr hle
  · exact .inr (hle.trans (le_raiseWatermark _ _))

theorem flight_of_same {o' : Option (Flight P)} (h : o'.map (·.request) = o.map (·.request))
    (hf : o = some f) : ∃ f', o' = some f' ∧ f'.request = f.request := by
  rw [hf] at h
  exact Option.map_eq_some_iff.1 h

/-- Flights of the same requests: a flight completes and stays. -/
theorem Ledger.of_requests (h : Ledger items stored r led)
    (hget : ∀ op, (r'.getFlights op).map (·.request) = (r.getFlights op).map (·.request))
    (hput : ∀ k, (r'.putFlights k).map (·.request) = (r.putFlights k).map (·.request)) :
    Ledger items stored r' led := by
  refine ⟨⟨?_, ?_⟩, ?_, h.nodup⟩
  · intro op f hf
    obtain ⟨f₀, hf₀, hreq⟩ := flight_of_same (hget op).symm hf
    exact hreq ▸ h.flights.get op f₀ hf₀
  · intro op attempt f hf
    obtain ⟨f₀, hf₀, hreq⟩ := flight_of_same (hput (op, attempt)).symm hf
    exact hreq ▸ h.flights.put op attempt f₀ hf₀
  intro seq hseq
  refine (h.kept seq hseq).imp_left ?_
  rintro (⟨op, f, hf, rfl⟩ | ⟨k, f, hf, rfl⟩)
  · obtain ⟨f₁, hf₁, hreq⟩ := flight_of_same (hget op) hf
    exact .inl ⟨op, f₁, hf₁, by rw [hreq]⟩
  · obtain ⟨f₁, hf₁, hreq⟩ := flight_of_same (hput k) hf
    exact .inr ⟨k, f₁, hf₁, by rw [hreq]⟩

/-! ## One item -/

/-- What handling an item does: nothing to the tables, or, if the caller is current, a new flight
for a sequence above the watermark in force. -/
inductive Handled (current : Bool) (acknowledged : ℕ) (ri : RequestItem P) (r : Receiver P) :
    Start → Receiver P → Prop
  | idle {start : Start} : start ≠ .led → Handled current acknowledged ri r start r
  | get {op : OwnerTransferOpId} {f : Flight P} : current = true →
      acknowledged < ri.terminalSequence →
      ri = ⟨f.request.terminalSequence, .getToTarget op f.request.payload⟩ →
      r.getFlights op = none →
      Handled current acknowledged ri r .led
        { r with getFlights := update r.getFlights op (some f) }
  | put {op : OwnerTransferOpId} {attempt : ℕ} {f : Flight P} : current = true →
      acknowledged < ri.terminalSequence →
      ri = ⟨f.request.terminalSequence, .putFromSource op attempt f.request.payload⟩ →
      r.putFlights (op, attempt) = none →
      Handled current acknowledged ri r .led
        { r with putFlights := update r.putFlights (op, attempt) (some f) }

theorem Handled.ackWatermarks (h : Handled current acknowledged ri r start r') :
    r'.ackWatermarks = r.ackWatermarks := by
  cases h <;> rfl

theorem Receiver.HasFlight.mono {seq : ℕ} (h : r.HasFlight seq)
    (hget : ∀ op f, r.getFlights op = some f → r'.getFlights op = some f)
    (hput : ∀ k f, r.putFlights k = some f → r'.putFlights k = some f) : r'.HasFlight seq := by
  rcases h with ⟨op, f, hf, hseq⟩ | ⟨k, f, hf, hseq⟩
  · exact .inl ⟨op, f, hget op f hf, hseq⟩
  · exact .inr ⟨k, f, hput k f hf, hseq⟩

/-- A vacant entry is filled: the others stay. -/
theorem update_vacant {α β : Type} [DecidableEq α] {t : α → Option β} {k k' : α} {v v' : β}
    (hnone : t k = none) (h : t k' = some v) : update t k (some v') k' = some v := by
  rw [update_of_ne _, h]
  rintro rfl
  simp [hnone] at h

/-- The item of a sequence that was started, when the watermark does not cover it, has a flight. -/
theorem Ledger.flight_of_led (h : Ledger items stored r led) (hitems : Numbered 0 n items)
    (hri : ri ∈ items) (hstored : stored < ri.terminalSequence) (hled : ri.terminalSequence ∈ led) :
    (∃ op f, ri.item = .getToTarget op f.request.payload ∧ r.getFlights op = some f) ∨
      ∃ op attempt f, ri.item = .putFromSource op attempt f.request.payload ∧
        r.putFlights (op, attempt) = some f := by
  have hpos : ri.terminalSequence ≠ 0 := Nat.ne_zero_of_lt hstored
  rcases h.kept _ hled with (⟨op, f, hf, hseq⟩ | ⟨⟨op, attempt⟩, f, hf, hseq⟩) | hle
  · exact .inl ⟨op, f, hitems.unique _ hri _ (h.flights.get op f hf) hseq.symm hpos, hf⟩
  · exact .inr ⟨op, attempt, f,
      hitems.unique _ hri _ (h.flights.put op attempt f hf) hseq.symm hpos, hf⟩
  · exact (Nat.not_le.2 hstored hle).elim

/-- A flight that is started belongs to a sequence that was never started: the table has no flight
for it and the watermark does not cover it. -/
theorem Ledger.handled (h : Ledger items stored r led) (hitems : Numbered 0 n items)
    (hri : ri ∈ items)
    (hcover : current = true → ri.terminalSequence ≠ 0 →
      stored < ri.terminalSequence ∨ ri.terminalSequence ≤ acknowledged)
    (hhandled : Handled current acknowledged ri r start r') :
    Ledger items stored r' (if start = .led then ri.terminalSequence :: led else led) := by
  have hstored : current = true → acknowledged < ri.terminalSequence →
      stored < ri.terminalSequence := fun hcurrent habove =>
    (hcover hcurrent (Nat.ne_zero_of_lt habove)).resolve_right (Nat.not_le.2 habove)
  cases hhandled with
  | idle hne =>
    rw [if_neg hne]
    exact h
  | @get op f hcurrent habove heq hnone =>
    refine ⟨⟨?_, h.flights.put⟩, ?_, nodup_cons.2 ⟨?_, h.nodup⟩⟩
    · intro op' f' hf'
      simp only [update_apply] at hf'
      split at hf'
      · next hop =>
        cases hf'
        exact hop ▸ heq ▸ hri
      · exact h.flights.get op' f' hf'
    · rintro seq (_ | ⟨_, hseq⟩)
      · exact .inl (.inl ⟨op, f, update_self .., by rw [heq]⟩)
      · refine (h.kept seq hseq).imp_left fun hflight => hflight.mono ?_ fun _ _ hf => hf
        exact fun _ _ hf => update_vacant hnone hf
    · intro hled
      rcases h.flight_of_led hitems hri (hstored hcurrent habove) hled with
        ⟨op', f', hitem, hf'⟩ | ⟨op', attempt', f', hitem, hf'⟩
      · rw [heq] at hitem
        cases (getToTarget.inj hitem).1
        simp [hnone] at hf'
      · rw [heq] at hitem
        cases hitem
  | @put op attempt f hcurrent habove heq hnone =>
    refine ⟨⟨h.flights.get, ?_⟩, ?_, nodup_cons.2 ⟨?_, h.nodup⟩⟩
    · intro op' attempt' f' hf'
      simp only [update_apply] at hf'
      split at hf'
      · next hop =>
        cases hf'
        cases hop
        exact heq ▸ hri
      · exact h.flights.put op' attempt' f' hf'
    · rintro seq (_ | ⟨_, hseq⟩)
      · exact .inl (.inr ⟨(op, attempt), f, update_self .., by rw [heq]⟩)
      · refine (h.kept seq hseq).imp_left fun hflight => hflight.mono (fun _ _ hf => hf) ?_
        exact fun _ _ hf => update_vacant hnone hf
    · intro hled
      rcases h.flight_of_led hitems hri (hstored hcurrent habove) hled with
        ⟨op', f', hitem, hf'⟩ | ⟨op', attempt', f', hitem, hf'⟩
      · rw [heq] at hitem
        cases hitem
      · rw [heq] at hitem
        obtain ⟨rfl, rfl, -⟩ := putFromSource.inj hitem
        simp [hnone] at hf'

end

variable [DecidableEq P]

theorem handled_item (r : Receiver P) (caller : String) (member : Option ℤ) (g : OwnerGeneration)
    (ackStreamId acknowledged : ℕ) (ri : RequestItem P) :
    Handled (callerIsCurrent caller member g) acknowledged ri r
      (r.handleOwnerSegmentTransferItem caller member g ackStreamId acknowledged ri).1
      (r.handleOwnerSegmentTransferItem caller member g ackStreamId acknowledged ri).2 := by
  unfold handleOwnerSegmentTransferItem
  split
  · exact .idle nofun
  split
  · exact .idle nofun
  split
  · exact .idle nofun
  split
  · exact .idle nofun
  rename_i hcoordinator hmember hguard
  simp only [not_or, ne_eq, not_not] at hcoordinator
  simp only [not_or, not_and, not_le, ne_eq, not_not] at hguard hmember
  obtain ⟨hgen, hnode⟩ := hcoordinator
  obtain ⟨-, hcaches, habove⟩ := hguard
  have hcurrent : callerIsCurrent caller member g = true := by
    simp [callerIsCurrent, ← hgen, hnode, hmember]
  obtain ⟨seq, item⟩ := ri
  split
  · next op capabilities hitem =>
    cases hitem
    have hpos := habove (by simpa [cachesReplayTerminal] using hcaches)
    unfold handleOwnerGetToTarget
    split
    · split <;> exact .idle nofun
    · next hnone => exact .get hcurrent hpos rfl hnone
  · next op attempt plan hitem =>
    cases hitem
    have hpos := habove (by simpa [cachesReplayTerminal] using hcaches)
    unfold handleOwnerPutFromSource
    split
    · split <;> exact .idle nofun
    · next hnone => exact .put hcurrent hpos rfl hnone
  · exact .idle nofun

variable {g caller : OwnerGeneration} {ackStreamId acknowledged : ℕ}

/-- An item at or below the watermark in force is refused. -/
theorem item_acknowledged (r : Receiver P) {op : OwnerTransferOpId} (hop : ri.item.opId = some op)
    (hcoordinator : op.coordinator = g) (hg : g = caller) (hpos : ri.terminalSequence ≠ 0)
    (hle : ri.terminalSequence ≤ acknowledged) :
    (r.handleOwnerSegmentTransferItem caller.nodeId (some caller.nodeStartTime) g ackStreamId
      acknowledged ri).1 =
      .rejected (alreadyAcknowledged ackStreamId ri.terminalSequence acknowledged) := by
  subst hg hcoordinator
  simp [handleOwnerSegmentTransferItem, hop, hpos, hle]

/-! ## One request -/

theorem mem_handleItems {caller : String} {member : Option ℤ} {x : ℕ × Start}
    (hx : x ∈ (handleItems caller member g ackStreamId acknowledged r ris).1) :
    ∃ ri ∈ ris, ∃ r' : Receiver P, x = (ri.terminalSequence,
      (r'.handleOwnerSegmentTransferItem caller member g ackStreamId acknowledged ri).1) := by
  induction ris generalizing r with
  | nil => cases hx
  | cons ri ris ih =>
    rcases mem_cons.1 hx with rfl | hx
    · exact ⟨ri, mem_cons_self, r, rfl⟩
    · obtain ⟨ri', hri', r', rfl⟩ := ih hx
      exact ⟨ri', mem_cons_of_mem _ hri', r', rfl⟩

theorem handleItems_sequences (caller : String) (member : Option ℤ) (g : OwnerGeneration)
    (ackStreamId acknowledged : ℕ) (r : Receiver P) (ris : List (RequestItem P)) :
    (handleItems caller member g ackStreamId acknowledged r ris).1.map (·.1) =
      ris.map (·.terminalSequence) := by
  induction ris generalizing r with
  | nil => rfl
  | cons ri ris ih => exact congrArg _ (ih _)

theorem handleItems_ackWatermarks (caller : String) (member : Option ℤ) (g : OwnerGeneration)
    (ackStreamId acknowledged : ℕ) (r : Receiver P) (ris : List (RequestItem P)) :
    (handleItems caller member g ackStreamId acknowledged r ris).2.ackWatermarks =
      r.ackWatermarks := by
  induction ris generalizing r with
  | nil => rfl
  | cons ri ris ih => exact (ih _).trans (handled_item ..).ackWatermarks

theorem Ledger.handleItems {items : List (RequestItem P)} (h : Ledger items stored r led)
    (hitems : Numbered 0 n items) (caller : String) (member : Option ℤ) (g : OwnerGeneration)
    (ackStreamId : ℕ) (hris : ∀ ri ∈ ris, ri ∈ items)
    (hcover : callerIsCurrent caller member g = true → ∀ ri ∈ ris, ri.terminalSequence ≠ 0 →
      stored < ri.terminalSequence ∨ ri.terminalSequence ≤ acknowledged) :
    let out := handleItems caller member g ackStreamId acknowledged r ris
    Ledger items stored out.2 ((startedWith (· = .led) out.1).reverse ++ led) := by
  induction ris generalizing r led with
  | nil => exact h
  | cons ri ris ih =>
    have hone := h.handled hitems (hris ri mem_cons_self)
      (fun hcurrent => hcover hcurrent ri mem_cons_self)
      (handled_item r caller member g ackStreamId acknowledged ri)
    have hrest := ih hone (fun ri' hri' => hris ri' (mem_cons_of_mem _ hri'))
      (fun hcurrent ri' hri' => hcover hcurrent ri' (mem_cons_of_mem _ hri'))
    intro out
    have hled : (startedWith (· = .led) out.1).reverse ++ led =
        (startedWith (· = .led) (handleItems caller member g ackStreamId acknowledged
          (r.handleOwnerSegmentTransferItem caller member g ackStreamId acknowledged ri).2
          ris).1).reverse ++
        if (r.handleOwnerSegmentTransferItem caller member g ackStreamId acknowledged ri).1 = .led
          then ri.terminalSequence :: led else led := by
      simp only [out, handleItems, startedWith, filter_cons, decide_eq_true_eq]
      split <;> simp
    exact hled ▸ hrest

omit [DecidableEq P] in
/-- The watermark in force for a request: what the request is measured by covers what the receiver
has stored, provided that a request without a watermark has no old item. -/
theorem Ledger.acknowledge {items : List (RequestItem P)} {requested : ℕ}
    (h : Ledger items ((r.ackWatermarks (g, ackStreamId)).getD 0) r led) (hstream : ackStreamId ≠ 0)
    (hguard : requested = 0 → ∀ ri ∈ ris, ri.terminalSequence ≠ 0 →
      (r.ackWatermarks (g, ackStreamId)).getD 0 < ri.terminalSequence) :
    ∃ acknowledged r', r.applyOwnerTransferTerminalAck g ackStreamId requested =
        (acknowledged, r') ∧
      Ledger items ((r'.ackWatermarks (g, ackStreamId)).getD 0) r' led ∧
      (∀ ri ∈ ris, ri.terminalSequence ≠ 0 →
        ri.terminalSequence ≤ (r.ackWatermarks (g, ackStreamId)).getD 0 →
        ri.terminalSequence ≤ acknowledged) ∧
      ∀ ri ∈ ris, ri.terminalSequence ≠ 0 →
        (r'.ackWatermarks (g, ackStreamId)).getD 0 < ri.terminalSequence ∨
          ri.terminalSequence ≤ acknowledged := by
  by_cases hrequested : requested = 0
  · refine ⟨0, r, ?_, h, ?_, fun ri hri hpos => .inl (hguard hrequested ri hri hpos)⟩
    · rw [applyOwnerTransferTerminalAck, if_pos (.inr hrequested)]
    · exact fun ri hri hpos hle => (Nat.not_le.2 (hguard hrequested ri hri hpos) hle).elim
  obtain ⟨applied, r', heq, hle, hkey, hledger⟩ := h.applyAck hstream hrequested
  refine ⟨applied, r', heq, ?_, fun ri _ _ hseq => hseq.trans hle, ?_⟩
  · simpa [hkey] using hledger
  · intro ri _ _
    rw [hkey]
    exact Nat.lt_or_ge ..

/-! ## Runs -/

namespace World

/-- The items of the requests that were sent. -/
def items (w : World P) : List (RequestItem P) := w.sent.flatMap (·.items)

/-- A request that carries no watermark is delivered only as long as none of its sequences is
covered by the watermark that the receiver has stored. -/
def Admissible (caller : OwnerGeneration) (ackStreamId : ℕ) (w : World P) : Event P → Prop
  | .deliver request _ => request.terminalAckWatermark = 0 →
      ∀ ri ∈ request.items, ri.terminalSequence ≠ 0 →
        w.stored caller ackStreamId < ri.terminalSequence
  | _ => True

/-- What holds of the two parties in every run of admissible events. -/
structure Inv (caller : OwnerGeneration) (ackStreamId : ℕ) (w : World P) : Prop where
  fromCaller : ∀ request ∈ w.sent,
    request.callerGeneration = caller ∧ request.ackStreamId = ackStreamId
  numbered : Numbered 0 w.peer.nextTerminalSequence w.items
  ledger : Ledger w.items (w.stored caller ackStreamId) w.receiver w.led

variable {w w' : World P}

omit [DecidableEq P] in
theorem inv_initial : Inv caller ackStreamId (initial : World P) where
  fromCaller := nofun
  numbered := .nil 0
  ledger := ⟨⟨nofun, nofun⟩, nofun, nodup_nil⟩

variable {request : TransferReq P}

omit [DecidableEq P] in
theorem mem_items (hsent : request ∈ w.sent) (hri : ri ∈ request.items) : ri ∈ w.items :=
  mem_flatMap.2 ⟨request, hsent, hri⟩

omit [DecidableEq P] in
theorem nextTerminalSequence_recordTerminal (n : ℕ) (s : OwnerTransferPeerState) :
    (Transfer.recordTerminal n s).2.nextTerminalSequence = s.nextTerminalSequence := by
  unfold Transfer.recordTerminal
  split
  · rfl
  · split <;> rfl

theorem Inv.send {items : List (TransferItem P)} (h : Inv caller ackStreamId w)
    (hstep : w.step caller ackStreamId (.send items) = some w') : Inv caller ackStreamId w' := by
  simp only [step] at hstep
  split at hstep <;> cases hstep
  next request peer hreq =>
    obtain ⟨hcaller, hstream, hnumbered⟩ :=
      (post_prepareRequest ackStreamId caller items w.peer).of_ok hreq
    have hsub : ∀ ri ∈ w.items, ri ∈ request.items ++ w.items :=
      fun ri hri => mem_append_right _ hri
    refine ⟨?_, hnumbered.union h.numbered fun _ => mem_append.1,
      ⟨⟨?_, ?_⟩, h.ledger.kept, h.ledger.nodup⟩⟩
    · rintro req (_ | ⟨_, hmem⟩)
      · exact ⟨hcaller, hstream⟩
      · exact h.fromCaller req hmem
    · exact fun op f hf => hsub _ (h.ledger.flights.get op f hf)
    · exact fun op attempt f hf => hsub _ (h.ledger.flights.put op attempt f hf)

theorem Inv.deliver {member : Option ℤ} (h : Inv caller ackStreamId w) (hstream : ackStreamId ≠ 0)
    (hguard : w.Admissible caller ackStreamId (.deliver request member))
    (hstep : w.step caller ackStreamId (.deliver request member) = some w') :
    Inv caller ackStreamId w' := by
  simp only [step] at hstep
  split at hstep <;> cases hstep
  next hsent =>
    obtain ⟨hcaller, hreq⟩ := h.fromCaller request hsent
    subst hcaller hreq
    refine ⟨h.fromCaller, h.numbered, ?_⟩
    simp only [stored, handleOwnerSegmentTransfer]
    split
    · obtain ⟨acknowledged, r', heq, hledger, -, hcover⟩ := h.ledger.acknowledge hstream hguard
      rw [heq, handleItems_ackWatermarks]
      exact hledger.handleItems h.numbered _ _ _ _ (fun ri => mem_items hsent) fun _ => hcover
    · next hstale =>
      rw [handleItems_ackWatermarks]
      exact h.ledger.handleItems h.numbered _ _ _ _ (fun ri => mem_items hsent)
        fun hcurrent => (hstale hcurrent).elim

omit [DecidableEq P] in
theorem map_request_complete {α : Type} [DecidableEq α] {t : α → Option (Flight P)} {k : α}
    {request : FlightRequest P} {b b' : Bool} (h : t k = some ⟨request, b⟩) (k' : α) :
    (update t k (some ⟨request, b'⟩) k').map (·.request) = (t k').map (·.request) := by
  rw [update_apply]
  split
  · next hk => rw [hk, h]; rfl
  · rfl

theorem Inv.step {e : Event P} (h : Inv caller ackStreamId w) (hstream : ackStreamId ≠ 0)
    (hguard : w.Admissible caller ackStreamId e)
    (hstep : w.step caller ackStreamId e = some w') : Inv caller ackStreamId w' := by
  cases e with
  | send items => exact h.send hstep
  | deliver request member => exact h.deliver hstream hguard hstep
  | completeGet op =>
    simp only [World.step] at hstep
    split at hstep <;> cases hstep
    next hflight =>
      exact ⟨h.fromCaller, h.numbered,
        h.ledger.of_requests (map_request_complete hflight) fun _ => rfl⟩
  | completePut op attempt =>
    simp only [World.step] at hstep
    split at hstep <;> cases hstep
    next hflight =>
      exact ⟨h.fromCaller, h.numbered,
        h.ledger.of_requests (fun _ => rfl) (map_request_complete hflight)⟩
  | recordTerminal n =>
    simp only [World.step] at hstep
    split at hstep <;> cases hstep
    refine ⟨h.fromCaller, ?_, h.ledger⟩
    exact (nextTerminalSequence_recordTerminal n w.peer).symm ▸ h.numbered

/-- The duplicates of what the stored watermark covers are refused. -/
theorem Inv.refused {starts : List (ℕ × Start)} (h : Inv caller ackStreamId w)
    (hstream : ackStreamId ≠ 0) (hsent : request ∈ w.sent)
    (hguard : w.Admissible caller ackStreamId (.deliver request (some caller.nodeStartTime)))
    (hops : ∀ ri ∈ request.items, ∀ op, ri.item.opId = some op → op.coordinator = caller)
    (hout : w.receiver.handleOwnerSegmentTransfer caller.nodeId (some caller.nodeStartTime)
      request = (starts, r)) :
    starts.map (·.1) = request.items.map (·.terminalSequence) ∧
      ∀ x ∈ starts, x.1 ≠ 0 → x.1 ≤ w.stored caller ackStreamId →
        ∃ applied, x.2 = .rejected (alreadyAcknowledged ackStreamId x.1 applied) := by
  obtain ⟨hcaller, hreq⟩ := h.fromCaller request hsent
  subst hcaller hreq
  obtain ⟨acknowledged, r', heq, -, hcovered, -⟩ := h.ledger.acknowledge hstream hguard
  rw [handleOwnerSegmentTransfer, if_pos (by simp [callerIsCurrent]), heq] at hout
  have hstarts := congrArg Prod.fst hout
  subst hstarts
  refine ⟨handleItems_sequences .., ?_⟩
  intro x hx hpos hle
  obtain ⟨ri, hri, r₀, rfl⟩ := mem_handleItems hx
  have hcaches := h.numbered.caches ri (mem_items hsent hri) hpos
  obtain ⟨op, hop⟩ : ∃ op, ri.item.opId = some op := by
    cases hitem : ri.item <;> simp [hitem, cachesReplayTerminal] at hcaches <;>
      exact ⟨_, rfl⟩
  exact ⟨acknowledged,
    item_acknowledged r₀ hop (hops ri hri op hop) rfl hpos (hcovered ri hri hpos hle)⟩

/-- **A transfer is started at most once.** In every run in which a request without a watermark is
delivered only before its sequences are covered by the stored watermark, the receiver starts the
payload of every sequence at most once; and when the duplicate of a request of the caller arrives
then, each of its items that the stored watermark covers is answered as already acknowledged. -/
theorem transfer_at_most_once {es : List (Event P)} (hstream : ackStreamId ≠ 0)
    (hrun : Run (Guarded (Admissible caller ackStreamId)
      (fun w e w' => World.step caller ackStreamId w e = some w')) initial es w) :
    w.led.Nodup ∧ ∀ request ∈ w.sent,
        w.Admissible caller ackStreamId (.deliver request (some caller.nodeStartTime)) →
        (∀ ri ∈ request.items, ∀ op, ri.item.opId = some op → op.coordinator = caller) →
        ∀ starts r, w.receiver.handleOwnerSegmentTransfer caller.nodeId
            (some caller.nodeStartTime) request = (starts, r) →
          starts.map (·.1) = request.items.map (·.terminalSequence) ∧
          ∀ x ∈ starts, x.1 ≠ 0 → x.1 ≤ w.stored caller ackStreamId →
            ∃ applied, x.2 = .rejected (alreadyAcknowledged ackStreamId x.1 applied) := by
  have hinv : Inv caller ackStreamId w :=
    hrun.invariant (fun _ _ _ h hs => h.step hstream hs.1 hs.2) inv_initial
  exact ⟨hinv.ledger.nodup, fun request hsent hguard hops starts r hout =>
    hinv.refused hstream hsent hguard hops hout⟩

end World

/-! ## A late duplicate -/

instance (caller : OwnerGeneration) (ackStreamId : ℕ) (w : World P) :
    (e : Event P) → Decidable (w.Admissible caller ackStreamId e)
  | .deliver request _ => inferInstanceAs (Decidable (request.terminalAckWatermark = 0 →
      ∀ ri ∈ request.items, ri.terminalSequence ≠ 0 →
        w.stored caller ackStreamId < ri.terminalSequence))
  | .send _ => isTrue trivial
  | .completeGet _ => isTrue trivial
  | .completePut .. => isTrue trivial
  | .recordTerminal _ => isTrue trivial

/-- A caller, its gets and the requests that carry them. -/
def someCaller : OwnerGeneration := ⟨"owner-a", 7⟩

def someOp (n : ℕ) : OwnerTransferOpId := ⟨someCaller, n, .get⟩

def someGet (n : ℕ) : TransferItem Unit := .getToTarget (someOp n) ()

def someRequest (n : ℕ) : TransferReq Unit := ⟨someCaller, 1, n - 1, [⟨n, someGet n⟩]⟩

/-- A get is sent, served and answered. -/
def serveGet (n : ℕ) : List (Event Unit) :=
  [.send [someGet n], .deliver (someRequest n) (some 7), .completeGet (someOp n), .recordTerminal n]

/-- The duplicate of the second request arrives when the third has acknowledged it: its watermark
is old, and it is refused. -/
theorem transfer_at_most_once_serveGets :
    ∃ w : World Unit, w.led = [3, 2, 1] ∧ w.led.Nodup ∧ ∀ starts r,
      w.receiver.handleOwnerSegmentTransfer "owner-a" (some 7) (someRequest 2) = (starts, r) →
        starts.map (·.1) = [2] ∧ ∀ x ∈ starts, x.1 ≠ 0 → x.1 ≤ w.stored someCaller 1 →
          ∃ applied, x.2 = .rejected (alreadyAcknowledged 1 x.1 applied) := by
  obtain ⟨w, hw, hled, hsent⟩ := Run.exists_guarded_of_foldlM (World.step someCaller 1)
    initial (serveGet 1 ++ serveGet 2 ++ serveGet 3)
    (fun w => w.led = [3, 2, 1] ∧ someRequest 2 ∈ w.sent)
    (fun w e => decide (w.Admissible someCaller 1 e)) (by decide +kernel)
  have hrun : Run (Guarded (World.Admissible someCaller 1)
      (fun w e w' => World.step someCaller 1 w e = some w')) initial _ w :=
    hw.mono fun w e w' h => ⟨of_decide_eq_true h.1, h.2⟩
  obtain ⟨hnodup, hrefused⟩ := transfer_at_most_once (by decide) hrun
  refine ⟨w, hled, hnodup, hrefused (someRequest 2) hsent nofun ?_⟩
  simp [someRequest, someGet, someOp, opId]

/-- The duplicate of the first request arrives when the second has acknowledged it. It carries no
watermark, so the stored one is not looked at, and the payload is started again. -/
theorem late_duplicate_starts_again :
    ∃ w : World Unit, Run (fun w e w' => World.step someCaller 1 w e = some w') initial
        (serveGet 1 ++ serveGet 2 ++ [.deliver (someRequest 1) (some 7)]) w ∧
      w.stored someCaller 1 = 1 ∧ w.led = [1, 2, 1] ∧ ¬ w.led.Nodup := by
  obtain ⟨w, hrun, hstored, hled⟩ := Run.exists_of_foldlM (World.step someCaller 1)
    initial (serveGet 1 ++ serveGet 2 ++ [Event.deliver (someRequest 1) (some 7)])
    (fun w => w.stored someCaller 1 = 1 ∧ w.led = [1, 2, 1]) (by decide +kernel)
  exact ⟨w, hrun, hstored, hled, by rw [hled]; decide⟩

end Fluxon.Transfer
