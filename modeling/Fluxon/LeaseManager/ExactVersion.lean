import Fluxon.LeaseManager.Effect

/-!
# Which versions the cleanup of a lease deletes

The cleanup looks at the route of a key and then deletes by name. It deletes the version bound to
the lease as long as nobody publishes the key in between (`lease_cleanup_exact_version`). Without
that condition it deletes a version that is not bound to the lease
(`lease_cleanup_deletes_newer`): the publication can come after the check of a route that was there,
or after a check that found none.
-/

namespace Fluxon.LeaseManager

open Router

namespace CleanerPhase

/-- The lease that is being cleaned up. -/
def lease : CleanerPhase → Option Lease
  | .deleting _ lease _ _ => some lease
  | .deletingKey _ lease _ _ _ _ => some lease
  | _ => none

/-- The cleanup has decided to delete the key. -/
def deletes (key : String) : CleanerPhase → Bool
  | .deletingKey _ _ key' _ _ _ => key' = key
  | _ => false

end CleanerPhase

namespace System

variable {s s' : System} {i : ℕ}

/-- No put completion publishes a key that the cleanup has decided to delete. -/
def versionGuard (s : System) : Event → Bool
  | .put i .publish =>
    match s.puts[i]? with
    | some (.attached put) => s.tombed put.publishTag || !s.cleaner.deletes put.key
    | _ => true
  | _ => true

/-- The steps under `versionGuard`. -/
abbrev VersionStep : System → Event → System → Prop :=
  Guarded (fun s e => s.versionGuard e = true) Step

/-- The keys that are left are bound to the lease, and the key that is to be deleted has no route of
another version. -/
def CleansBound (s : System) : Prop :=
  match s.cleaner with
  | .deleting _ lease keysLeft _ =>
    ∀ key putId, keysLeft.lookup key = some putId → lease.keys.lookup key = some putId
  | .deletingKey _ lease key oldPutId keysLeft _ =>
    (∀ key putId, keysLeft.lookup key = some putId → lease.keys.lookup key = some putId) ∧
    lease.keys.lookup key = some oldPutId ∧
    ∀ route, s.kvRoutes key = some route → route.putId = oldPutId
  | _ => True

/-- A step of another thread that gives no route to a key that is to be deleted. -/
theorem CleansBound.frame (h : CleansBound s) (hcleaner : s'.cleaner = s.cleaner)
    (hroutes : ∀ key route, s.cleaner.deletes key = true → s'.kvRoutes key = some route →
      s.kvRoutes key = some route) : CleansBound s' := by
  unfold CleansBound at h ⊢
  rw [hcleaner]
  split
  · next hphase =>
    rw [hphase] at h
    exact h
  · next id lease key oldPutId keysLeft due hphase =>
    rw [hphase] at h
    obtain ⟨hleft, hbound, hroute⟩ := h
    refine ⟨hleft, hbound, fun route hroute' => hroute route (hroutes key route ?_ hroute')⟩
    rw [hphase]
    simp [CleanerPhase.deletes]
  · trivial

theorem CleansBound.put {e : PutEvent} (h : CleansBound s)
    (hguard : s.versionGuard (.put i e) = true) (hstep : PutEffect s i e s') :
    CleansBound s' := by
  cases hstep with
  | replace put _ hphase hlive hroute | insert put hphase hlive hroute =>
    have hkeep : s.cleaner.deletes put.key = false := by
      simpa [versionGuard, hphase, hlive] using hguard
    refine h.frame rfl fun key route' hdeletes hroute' => routes_insertRoute ?_ hroute'
    intro hkey
    rw [hkey, hkeep] at hdeletes
    cases hdeletes
  | withdraw put object route hphase hroute hobject =>
    exact h.frame rfl fun key route' _ hroute' => routes_delete hroute'
  | _ => exact h.frame rfl fun _ _ _ hroute => hroute

theorem CleansBound.cleaner {e : CleanerEvent} (h : CleansBound s)
    (hstep : CleanerEffect s e s') : CleansBound s' := by
  unfold CleansBound at h
  cases hstep with
  | remove id due lease hphase hguards hlease => exact fun _ _ h => h
  | select id lease key oldPutId keysLeft due hphase hbound hdelete =>
    rw [hphase] at h
    refine ⟨fun key' putId h' => h key' putId (Table.lookup_of_erase h').2, h key oldPutId hbound,
      fun route hroute => ?_⟩
    have hroute' : s.kvRoutes key = some route := hroute
    simpa [shouldDelete, hroute'] using hdelete
  | skip id lease key oldPutId route keysLeft due hphase hbound hroute hother =>
    rw [hphase] at h
    exact fun key' putId h' => h key' putId (Table.lookup_of_erase h').2
  | deleteKey id lease key oldPutId keysLeft due hphase =>
    rw [hphase] at h
    exact h.1
  | _ => trivial

theorem CleansBound.step {e : Event} (h : CleansBound s) (hstep : s.VersionStep e s') :
    CleansBound s' := by
  obtain ⟨hguard, hstep⟩ := hstep
  cases e with
  | tick clock =>
    obtain ⟨-, rfl⟩ := tick_of_step hstep
    exact h.frame rfl fun _ _ _ hroute => hroute
  | tomb | startPut =>
    cases hstep
    exact h.frame rfl fun _ _ _ hroute => hroute
  | deleteRoute key =>
    cases hstep
    exact h.frame rfl fun _ _ _ hroute => routes_delete hroute
  | grant i e =>
    cases grantEffect_of_step hstep with
    | _ => exact h.frame rfl fun _ _ _ hroute => hroute
  | keepalive i e =>
    cases keepaliveEffect_of_step hstep with
    | _ => exact h.frame rfl fun _ _ _ hroute => hroute
  | put i e => exact h.put hguard (putEffect_of_step hstep)
  | cleaner e => exact h.cleaner (cleanerEffect_of_step hstep)

/-- **The cleanup of a lease deletes the version bound to it.** In a run in which no put completion
publishes a key that the cleanup has decided to delete: a route that the cleanup removes has the
version to which the lease that is being cleaned up binds its key. -/
theorem lease_cleanup_exact_version {es : List Event} (hrun : Run VersionStep initial es s) :
    ∀ e s' key route, s.Step (.cleaner e) s' → s.kvRoutes key = some route →
      s'.kvRoutes key = none →
      ∃ lease, s.cleaner.lease = some lease ∧ lease.keys.lookup key = some route.putId := by
  have hbound : CleansBound s := by
    apply hrun.invariant (fun _ _ _ h hstep => h.step hstep)
    trivial
  intro e s' key route hstep hbefore hafter
  cases cleanerEffect_of_step hstep with
  | deleteKey id lease key' oldPutId keysLeft due hphase =>
    have hkey : key = key' := by
      by_contra hkey
      have hunchanged : s.kvRoutes key = none := by
        simpa [doDeleteOneKvAllReplicas, hkey] using hafter
      exact absurd (hunchanged.symm.trans hbefore) (by simp)
    subst hkey
    unfold CleansBound at hbound
    rw [hphase] at hbound
    obtain ⟨-, hlookup, hroute⟩ := hbound
    refine ⟨lease, ?_, ?_⟩
    · rw [hphase]
      rfl
    · rw [hroute route hbefore]
      exact hlookup
  | _ => exact absurd (hafter.symm.trans hbefore) (by simp)

/-! ## Runs -/

/-- A lease is granted, a key is put under it, and the lease is removed when it has expired. -/
def expiredPut : List Event :=
  grantOne ++ bindKey 0 (1, 0) (some 1) 0 ++ [.put 0 .publish, .put 0 .recheck] ++ expire

/-- The key is overwritten, without a lease, after the cleanup has looked at its route. -/
def overwrittenAfterCheck : List Event :=
  expiredPut ++ [.cleaner (.checkKey "k")] ++ bindKey 1 (2, 0) none 0 ++ [.put 1 .publish]

/-- The key is deleted, the cleanup looks at it, and it is put again without a lease. -/
def recreatedAfterCheck : List Event :=
  expiredPut ++ [.deleteRoute "k", .cleaner (.checkKey "k")] ++ bindKey 1 (2, 0) none 0 ++
    [.put 1 .publish]

/-- What the runs are read off for: the version of the route, the version bound to the lease, and
whether the next step of the cleanup deletes the route. -/
def deletion (s : System) : Option PutIDForAKey × Option (Option PutIDForAKey) × Option Bool :=
  ((s.kvRoutes "k").map (·.putId), s.cleaner.lease.map (·.keys.lookup "k"),
    (s.step (.cleaner .deleteKey)).map fun s' => (s'.kvRoutes "k").isNone)

theorem deleted_of_deletion {putId boundId : PutIDForAKey}
    (h : s.deletion = (some putId, some (some boundId), some true)) :
    ∃ s' route lease, s.Step (.cleaner .deleteKey) s' ∧ s.kvRoutes "k" = some route ∧
      s'.kvRoutes "k" = none ∧ route.putId = putId ∧ s.cleaner.lease = some lease ∧
      lease.keys.lookup "k" = some boundId := by
  simp only [deletion, Prod.mk.injEq, Option.map_eq_some_iff, Option.isNone_iff_eq_none] at h
  obtain ⟨⟨route, hroute, hputId⟩, ⟨lease, hlease, hbound⟩, s', hstep, hnone⟩ := h
  exact ⟨s', route, lease, hstep, hroute, hnone, hputId, hlease, hbound⟩

/-- The route of a key that nobody touches is deleted with its lease. -/
theorem lease_cleanup_exact_version_expired :
    ∃ s s' route, Run VersionStep initial (expiredPut ++ [.cleaner (.checkKey "k")]) s ∧
      s.Step (.cleaner .deleteKey) s' ∧ s.kvRoutes "k" = some route ∧ s'.kvRoutes "k" = none ∧
      route.putId = (1, 0) ∧
      ∃ lease, s.cleaner.lease = some lease ∧ lease.keys.lookup "k" = some route.putId := by
  obtain ⟨s, hrun, hdeletion⟩ := Run.exists_guarded_of_foldlM step initial
    (expiredPut ++ [Event.cleaner (.checkKey "k")])
    (fun s => deletion s = (some (1, 0), some (some (1, 0)), some true)) versionGuard
    (by decide +kernel)
  obtain ⟨s', route, lease, hstep, hroute, hnone, hputId, -, -⟩ := deleted_of_deletion hdeletion
  exact ⟨s, s', route, hrun, hstep, hroute, hnone, hputId,
    lease_cleanup_exact_version hrun _ s' "k" route hstep hroute hnone⟩

/-- The cleanup deletes a version that is not bound to the lease: one that overwrote the bound one
after the check, and one that was put after the check found no route. -/
theorem lease_cleanup_deletes_newer :
    (∃ s s' route lease, Run Step initial overwrittenAfterCheck s ∧
      s.Step (.cleaner .deleteKey) s' ∧ s.kvRoutes "k" = some route ∧ s'.kvRoutes "k" = none ∧
      s.cleaner.lease = some lease ∧ lease.keys.lookup "k" ≠ some route.putId) ∧
    (∃ s s' route lease, Run Step initial recreatedAfterCheck s ∧
      s.Step (.cleaner .deleteKey) s' ∧ s.kvRoutes "k" = some route ∧ s'.kvRoutes "k" = none ∧
      s.cleaner.lease = some lease ∧ lease.keys.lookup "k" ≠ some route.putId) := by
  have hdeletes : ∀ es : List Event, (es.foldlM step initial).map deletion =
      some (some (2, 0), some (some (1, 0)), some true) → ∃ s s' route lease,
      Run Step initial es s ∧ s.Step (.cleaner .deleteKey) s' ∧ s.kvRoutes "k" = some route ∧
      s'.kvRoutes "k" = none ∧ s.cleaner.lease = some lease ∧
      lease.keys.lookup "k" ≠ some route.putId := by
    intro es hfold
    obtain ⟨s, hs, hdeletion⟩ := Option.map_eq_some_iff.1 hfold
    obtain ⟨s', route, lease, hstep, hroute, hnone, hputId, hlease, hbound⟩ :=
      deleted_of_deletion hdeletion
    refine ⟨s, s', route, lease, Run.of_foldlM hs, hstep, hroute, hnone, hlease, ?_⟩
    rw [hbound, hputId]
    decide
  exact ⟨hdeletes _ (by decide +kernel), hdeletes _ (by decide +kernel)⟩

end System

end Fluxon.LeaseManager
