import Fluxon.OwnerSegment.Budget

/-!
# A batch of demotion reservations

`try_reserve_global_demotions` takes the accounted bytes once and carries a running total through
the batch. The total stays the accounted bytes of the state reached (`accounted_reserve`), so the
batch gives the outcomes and the state of one call after the other:
`tryReserveGlobalDemotions_eq_mapM`.
-/

namespace Fluxon.OwnerSegment

open Call

variable {A : Type}

namespace OwnerSegmentState

theorem globalAccountedBytes_reserved {seg : OwnerSegmentState A} {key : OwnerManifestKey}
    {slot : OwnerSlotDesc} (hnew : seg.globalDemotionReservations.lookup key = none)
    (hfits : seg.globalAccountedBytes + slot.capacityBytes ≤ u64Max) :
    (seg.reserved key slot).globalAccountedBytes =
      seg.globalAccountedBytes + slot.capacityBytes := by
  have hsum : (seg.reserved key slot).demotionBytes = seg.demotionBytes + slot.capacityBytes := by
    have hinsert := Table.sumBy_insert_of_lookup_none
      (fun _ (slot : OwnerSlotDesc) => slot.capacityBytes) slot hnew
    exact hinsert.trans (Nat.add_comm _ _)
  have hcommitted : (seg.reserved key slot).globalCommittedBytes = seg.globalCommittedBytes := rfl
  unfold globalAccountedBytes saturatingAdd at hfits ⊢
  rw [hcommitted, globalReservedDemotionBytes_eq, hsum]
  rw [globalReservedDemotionBytes_eq] at hfits ⊢
  omega

/-- **The running total is the accounted bytes.** A request that starts from the accounted bytes
leaves the total at the accounted bytes of the state it reaches. -/
theorem accounted_reserve (seg : OwnerSegmentState A) (localTargetBytes : ℕ) (r : DemotionRequest) :
    (seg.tryReserveGlobalDemotion localTargetBytes r seg.globalAccountedBytes).2.1 =
      (seg.tryReserveGlobalDemotion localTargetBytes r
        seg.globalAccountedBytes).2.2.globalAccountedBytes := by
  rcases tryReserveGlobalDemotion_cases seg localTargetBytes r seg.globalAccountedBytes with
    h | ⟨e, -, -, hnew, hfits, -, h⟩
  · rw [h]
  · rw [h]
    exact (globalAccountedBytes_reserved hnew hfits).symm

end OwnerSegmentState

namespace OwnerSegmentAllocator

variable {s : OwnerSegmentAllocator A} {seg : OwnerSegmentState A}

/-- One request on an installed segment. -/
theorem tryReserveGlobalDemotion_run (hs : s.segment = some seg) (r : DemotionRequest) :
    tryReserveGlobalDemotion r s =
      .ok (seg.tryReserveGlobalDemotion s.localTargetBytes r seg.globalAccountedBytes).1
        (s.putSegment (seg.tryReserveGlobalDemotion s.localTargetBytes r
          seg.globalAccountedBytes).2.2) := by
  refine Call.Post.eq_ok ?_
  simp only [tryReserveGlobalDemotion, tryReserveGlobalDemotions, post_bind, post_get]
  rw [hs]
  exact ⟨rfl, rfl⟩

/-- A batch on an installed segment. -/
theorem tryReserveGlobalDemotions_installed (hs : s.segment = some seg)
    (requests : List DemotionRequest) :
    tryReserveGlobalDemotions requests s =
      .ok (seg.tryReserveGlobalDemotions s.localTargetBytes requests seg.globalAccountedBytes).1
        (s.putSegment (seg.tryReserveGlobalDemotions s.localTargetBytes requests
          seg.globalAccountedBytes).2) := by
  refine Call.Post.eq_ok ?_
  simp only [tryReserveGlobalDemotions, post_bind, post_get]
  rw [hs]
  exact ⟨rfl, rfl⟩

/-- **A batch of reservations is one reservation after the other.** For every state of the allocator
and every list of requests, the batch returns the outcomes of the single calls in the order of the
requests, and leaves the state that they leave. -/
theorem tryReserveGlobalDemotions_eq_mapM (requests : List DemotionRequest)
    (s : OwnerSegmentAllocator A) :
    tryReserveGlobalDemotions requests s = requests.mapM tryReserveGlobalDemotion s := by
  cases hs : s.segment with
  | none =>
    have hone : ∀ r, tryReserveGlobalDemotion r s = .ok (.error notInitialized) s := by
      intro r
      refine Call.Post.eq_ok ?_
      simp only [tryReserveGlobalDemotion, tryReserveGlobalDemotions, post_bind, post_get]
      rw [hs]
      exact ⟨rfl, rfl⟩
    have hall : tryReserveGlobalDemotions requests s =
        .ok (requests.map fun _ => .error notInitialized) s := by
      refine Call.Post.eq_ok ?_
      simp only [tryReserveGlobalDemotions, post_bind, post_get]
      rw [hs]
      exact ⟨rfl, rfl⟩
    rw [hall]
    symm
    clear hall
    induction requests with
    | nil => rfl
    | cons r rs ih => exact mapM_cons_of_ok (hone r) ih
  | some seg =>
    rw [tryReserveGlobalDemotions_installed hs]
    symm
    induction requests generalizing s seg with
    | nil =>
      rw [OwnerSegmentState.tryReserveGlobalDemotions, putSegment_self hs]
      rfl
    | cons r rs ih =>
      rw [OwnerSegmentState.tryReserveGlobalDemotions, OwnerSegmentState.accounted_reserve]
      exact mapM_cons_of_ok (tryReserveGlobalDemotion_run hs r) (ih _ _ rfl)

end OwnerSegmentAllocator

end Fluxon.OwnerSegment
