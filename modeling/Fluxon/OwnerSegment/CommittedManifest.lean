import Fluxon.OwnerSegment.Budget

/-!
# Installing a committed manifest entry

`install_committed_manifest` answers a replay for the same slot with success and leaves the entry
that is there, whatever its state, its scope and its epoch. So the entry is the requested one
exactly when a previous entry, if any, already agreed: `install_committed_takes_effect_iff`.
-/

namespace Fluxon.OwnerSegment.OwnerSegmentAllocator

variable {A : Type} {s s' : OwnerSegmentAllocator A} {key : String} {putId : PutId}
  {allocationId : ℕ} {scope : OwnerSlotScope} {routeEpoch : ℕ} {slot : OwnerSlotDesc}

/-- The entry of the key is committed, for the slot, with this scope and epoch. -/
def HasCommitted (s : OwnerSegmentAllocator A) (key : String) (putId : PutId) (slot : OwnerSlotDesc)
    (scope : OwnerSlotScope) (routeEpoch : ℕ) : Bool :=
  (s.manifestEntry key putId).any fun e => e.slot = slot && e.physicalState = .committed &&
    e.scope = some scope && e.routeEpoch = routeEpoch

/-- Whether a successful installation leaves the requested entry. -/
def installEffect (key : String) (putId : PutId) (allocationId : ℕ) (scope : OwnerSlotScope)
    (routeEpoch : ℕ) (s : OwnerSegmentAllocator A) : Option Bool :=
  match installCommittedManifest key putId allocationId scope routeEpoch s with
  | .ok (.ok slot) s' => some (s'.HasCommitted key putId slot scope routeEpoch)
  | _ => none

theorem installEffect_eq_some {b : Bool}
    (h : installEffect key putId allocationId scope routeEpoch s = some b) :
    ∃ slot s', installCommittedManifest key putId allocationId scope routeEpoch s =
      .ok (.ok slot) s' ∧ s'.HasCommitted key putId slot scope routeEpoch = b := by
  rw [installEffect] at h
  split at h
  · rename_i slot s' hok
    exact ⟨slot, s', hok, Option.some.inj h⟩
  · cases h

/-- **Installing a committed entry.** When the call succeeds, the entry of the key is committed for
the slot with the requested scope and epoch if and only if an entry that was there before already
had that state, scope and epoch. -/
theorem install_committed_takes_effect_iff [OffsetAllocator A]
    (hok : installCommittedManifest key putId allocationId scope routeEpoch s = .ok (.ok slot) s') :
    s'.HasCommitted key putId slot scope routeEpoch = true ↔
      ∀ e, s.manifestEntry key putId = some e →
        e.physicalState = .committed ∧ e.scope = some scope ∧ e.routeEpoch = routeEpoch := by
  rcases post_installCommittedManifest.of_ok hok with
    ⟨rfl, hreplay⟩ | ⟨slot', hslot, seg, hseg, -, -, hkey, -, -, rfl⟩
  · obtain ⟨e, he, hsame⟩ := hreplay slot rfl
    simp [HasCommitted, he, hsame, and_assoc]
  cases hslot
  have hnone : s.manifestEntry key putId = none := by
    rw [manifestEntry, hseg]
    exact hkey
  have hentry : (s.putSegment (seg.insertManifest
      (committedEntry key putId slot scope routeEpoch))).manifestEntry key putId =
      some (committedEntry key putId slot scope routeEpoch) := by
    simp [manifestEntry, putSegment, OwnerSegmentState.manifestEntry,
      OwnerSegmentState.insertManifest, committedEntry, OwnerSlotManifestEntry.manifestKey]
  rw [HasCommitted, hentry]
  simp [hnone, committedEntry]

/-- A first installation has effect. -/
theorem install_committed_takes_effect_first :
    ∃ s s' slot, Run Returns started (reserveFirst.take 3) s ∧
      installCommittedManifest "k" (1, 0) 1 .localExclusive 7 s = .ok (.ok slot) s' ∧
      s'.HasCommitted "k" (1, 0) slot .localExclusive 7 = true := by
  obtain ⟨s, hrun, hnone, heffect⟩ := exists_run_of_post (reserveFirst.take 3) started
    (Q := fun s => s.manifestEntry "k" (1, 0) = none ∧
      installEffect "k" (1, 0) 1 .localExclusive 7 s = some true) (by decide +kernel)
  obtain ⟨slot, s', hok, -⟩ := installEffect_eq_some heffect
  exact ⟨s, s', slot, hrun, hok, (install_committed_takes_effect_iff hok).2 (by simp [hnone])⟩

/-- A second installation for the same slot, with another scope and another epoch, succeeds and
leaves the first entry. -/
theorem install_committed_without_effect :
    ∃ s s' slot, Run Returns started (reserveFirst.take 4) s ∧
      installCommittedManifest "k" (1, 0) 1 .globalShared 8 s = .ok (.ok slot) s' ∧
      s'.HasCommitted "k" (1, 0) slot .globalShared 8 = false := by
  obtain ⟨s, hrun, heffect⟩ := exists_run_of_post (reserveFirst.take 4) started
    (Q := fun s => installEffect "k" (1, 0) 1 .globalShared 8 s = some false) (by decide +kernel)
  obtain ⟨slot, s', hok, hlost⟩ := installEffect_eq_some heffect
  exact ⟨s, s', slot, hrun, hok, hlost⟩

end Fluxon.OwnerSegment.OwnerSegmentAllocator
