import Fluxon.LeaseManager.Binding

/-!
# Routes do not outlive their lease

In a run under `survivalGuard` no route outlives its lease (`leased_route_dies`). Without it a route
of the lease is left behind in three ways (`leased_route_survives`):

* the lease is removed while a put completion stands between binding its key and publishing;
* two put completions bind the same key to the lease, and publish in the other order;
* a put completion rebinds a key that the lease has a route for, and its publication is rejected:
  `detach_key_if_version` then removes the only binding of the key.
-/

namespace Fluxon.LeaseManager

open Router PutPhase Function

namespace System

variable {s s' : System} {i : ℕ} {id : LeaseID} {lease : Lease}

/-! ## Lease ids -/

/-- Nothing refers to the lease id. -/
structure Unborn (s : System) (id : LeaseID) : Prop where
  unleased : s.keysOf id = none
  uncleaned : s.cleaned id = false
  untouched : s.cleaner.leaseId ≠ some id
  unrouted : ∀ key route, s.kvRoutes key = some route → route.leaseId ≠ some id
  unbound : ∀ p ∈ s.puts, ∀ put, p.bound = some put → put.leaseId ≠ some id

theorem Unborn.frame (h : Unborn s id)
    (hputs : ∀ p ∈ s'.puts, p ∈ s.puts ∨ ∀ put, p.bound = some put → put.leaseId ≠ some id)
    (hroutes : ∀ key route, s'.kvRoutes key = some route →
      s.kvRoutes key = some route ∨ route.leaseId ≠ some id := by exact fun _ _ h => .inl h)
    (hkeys : s'.keysOf id = s.keysOf id := by rfl) (hcleaned : s'.cleaned = s.cleaned := by rfl)
    (hcleaner : s'.cleaner = s.cleaner := by rfl) : Unborn s' id where
  unleased := by
    rw [hkeys]
    exact h.unleased
  uncleaned := by
    rw [hcleaned]
    exact h.uncleaned
  untouched := by
    rw [hcleaner]
    exact h.untouched
  unrouted key route hroute := by
    cases hroutes key route hroute with
    | inl hbefore => exact h.unrouted key route hbefore
    | inr hother => exact hother
  unbound p hp := by
    cases hputs p hp with
    | inl hbefore => exact h.unbound p hbefore
    | inr hother => exact hother

theorem Unborn.leases_ne {id' : LeaseID} (h : Unborn s id) (hlease : s.leases id' = some lease) :
    id ≠ id' := by
  intro hsame
  have hnone := h.unleased
  rw [hsame, keysOf, hlease] at hnone
  cases hnone

theorem Unborn.bound_ne {p : PutPhase} {put : PutCompletion} (h : Unborn s id)
    (hi : s.puts[i]? = some p) (hp : p.bound = some put) : put.leaseId ≠ some id :=
  h.unbound p (List.mem_of_getElem? hi) put hp

/-- A thread takes a step in which it binds nothing to the lease. -/
theorem unbound_set {p' : PutPhase} (hp' : ∀ put, p'.bound = some put → put.leaseId ≠ some id) :
    ∀ p ∈ s.puts.set i p', p ∈ s.puts ∨ ∀ put, p.bound = some put → put.leaseId ≠ some id := by
  intro p hp
  cases List.mem_or_eq_of_mem_set hp with
  | inl hbefore => exact .inl hbefore
  | inr hnew =>
    rw [hnew]
    exact .inr hp'

theorem unrouted_insertRoute {put : PutCompletion} (hput : put.leaseId ≠ some id) :
    ∀ key route, (s.insertRoute put).kvRoutes key = some route →
      s.kvRoutes key = some route ∨ route.leaseId ≠ some id := by
  intro key route hroute
  by_cases hkey : key = put.key
  · simp only [insertRoute, hkey, update_self] at hroute
    cases hroute
    exact .inr hput
  · exact .inl (routes_insertRoute hkey hroute)

theorem Unborn.put {e : PutEvent} (h : Unborn s id) (hstep : PutEffect s i e s') :
    Unborn s' id := by
  cases hstep with
  | fail | refuse | recheck | finish => exact h.frame (unbound_set (by simp [bound]))
  | unleased put hphase hlease => exact h.frame (unbound_set (by simp [bound, hlease]))
  | attach put id' lease hphase hid' hlease =>
    have hne := h.leases_ne hlease
    refine h.frame (unbound_set ?_) (fun _ _ h => .inl h) ?_
    · simp [bound, hid', Ne.symm hne]
    · simp [keysOf, hne]
  | reject _ hphase | recheckFailed _ _ hphase | overtaken _ _ hphase =>
    have hput := h.bound_ne hphase rfl
    exact h.frame (unbound_set (by simpa [bound] using hput))
  | replace put route hphase hlive hroute =>
    have hput := h.bound_ne hphase rfl
    exact h.frame (unbound_set (by simp [bound])) (unrouted_insertRoute hput)
  | insert put hphase hlive hroute =>
    have hput := h.bound_ne hphase rfl
    exact h.frame (unbound_set (by simpa [bound] using hput)) (unrouted_insertRoute hput)
  | withdraw put object route hphase hroute hobject =>
    have hput := h.bound_ne hphase rfl
    exact h.frame (unbound_set (by simpa [bound] using hput))
      fun _ _ hroute' => .inl (routes_delete hroute')
  | detach put id' hphase hid' =>
    have hne : id ≠ id' := by
      intro hsame
      exact h.bound_ne hphase rfl (by rw [hid', hsame])
    refine h.frame (unbound_set (by simp [bound])) (fun _ _ h => .inl h) ?_
    simp [keysOf, detachKeyIfVersion_apply, hne]

theorem Unborn.cleaner {e : CleanerEvent} (h : Unborn s id) (hstep : CleanerEffect s e s') :
    Unborn s' id := by
  cases hstep with
  | remove id' due lease hphase hguards hlease =>
    have hne := h.leases_ne hlease
    refine ⟨?_, h.uncleaned, ?_, h.unrouted, h.unbound⟩
    · have hnone := h.unleased
      simpa [keysOf, hne] using hnone
    · intro hsame
      exact hne (Option.some.inj hsame).symm
  | select _ _ _ _ _ _ hphase | skip _ _ _ _ _ _ _ hphase =>
    refine ⟨h.unleased, h.uncleaned, ?_, h.unrouted, h.unbound⟩
    have huntouched := h.untouched
    rw [hphase] at huntouched
    exact huntouched
  | deleteKey id' lease key oldPutId keysLeft due hphase =>
    refine ⟨h.unleased, h.uncleaned, ?_, fun key' route hroute => ?_, h.unbound⟩
    · have huntouched := h.untouched
      rw [hphase] at huntouched
      exact huntouched
    · exact h.unrouted key' route (routes_delete hroute)
  | finish id' lease keysLeft due hphase hempty =>
    have hne : id ≠ id' := by
      intro hsame
      apply h.untouched
      rw [hphase, hsame]
      rfl
    refine ⟨h.unleased, ?_, by simp [CleanerPhase.leaseId], h.unrouted, h.unbound⟩
    have huncleaned := h.uncleaned
    simpa [hne] using huncleaned
  | _ => exact ⟨h.unleased, h.uncleaned, by simp [CleanerPhase.leaseId], h.unrouted, h.unbound⟩

/-- A keepalive does not touch what the invariants speak of. -/
theorem frame_of_keepalive {e : KeepaliveEvent} (hstep : KeepaliveEffect s i e s') :
    s'.keysOf = s.keysOf ∧ s'.puts = s.puts ∧ s'.cleaner = s.cleaner ∧ s'.cleaned = s.cleaned ∧
      s'.kvRoutes = s.kvRoutes ∧ s'.grants = s.grants ∧ s'.nextLeaseId = s.nextLeaseId := by
  cases hstep with
  | store id customTtl readAt lease lease' hphase hlease hrefresh =>
    refine ⟨?_, rfl, rfl, rfl, rfl, rfl, rfl⟩
    funext id'
    by_cases hid : id' = id
    · simp [keysOf, hid, hlease, Lease.refresh_ok hrefresh]
    · simp [keysOf, hid]
  | _ => exact ⟨rfl, rfl, rfl, rfl, rfl, rfl, rfl⟩

/-- Ids that are not given out yet are unborn, and so are those of leases on their way into the
map, which are all different. -/
structure Fresh (s : System) : Prop where
  limit : s.nextLeaseId ≤ u64Max
  beyond : ∀ id, s.nextLeaseId ≤ id → Unborn s id
  created : ∀ i lease, s.grants i = .created lease → lease.id < s.nextLeaseId ∧ Unborn s lease.id
  unique : ∀ i j lease lease', s.grants i = .created lease → s.grants j = .created lease' →
    lease.id = lease'.id → i = j

theorem fresh_initial : Fresh initial where
  limit := by
    rw [u64Max]
    decide
  beyond id _ := {
    unleased := rfl
    uncleaned := rfl
    untouched := nofun
    unrouted := nofun
    unbound := nofun }
  created _ _ h := by cases h
  unique _ _ _ _ h := by cases h

theorem Fresh.frame (h : Fresh s)
    (hunborn : ∀ id, Unborn s id → Unborn s' id := by exact fun _ h => h.same)
    (hgrants : ∀ i lease, s'.grants i = .created lease → s.grants i = .created lease := by
      exact fun _ _ h => h)
    (hnext : s'.nextLeaseId = s.nextLeaseId := by rfl) : Fresh s' where
  limit := by
    rw [hnext]
    exact h.limit
  beyond id hid := by
    rw [hnext] at hid
    exact hunborn id (h.beyond id hid)
  created i lease hi := by
    rw [hnext]
    obtain ⟨hlt, hlease⟩ := h.created i lease (hgrants i lease hi)
    exact ⟨hlt, hunborn lease.id hlease⟩
  unique i j lease lease' hi hj hid :=
    h.unique i j lease lease' (hgrants i lease hi) (hgrants j lease' hj) hid

theorem created_of_update {p : GrantPhase} {j : ℕ} (hp : ∀ lease, p ≠ .created lease)
    (hj : (s.setGrant i p).grants j = .created lease) : s.grants j = .created lease := by
  simp only [setGrant] at hj
  by_cases hij : j = i
  · rw [hij, update_self] at hj
    exact (hp lease hj).elim
  · rw [update_of_ne hij] at hj
    exact hj

/-- A lease whose id nothing refers to goes into the map. -/
theorem Bound.insert (h : Bound s) (hunborn : Unborn s lease.id) :
    Bound { s.setGrant i (.inserted lease.id) with
      leases := update s.leases lease.id (some lease)
      refreshed := update s.refreshed lease.id []
      cleaned := update s.cleaned lease.id false } := by
  have hkeys : ∀ id', id' ≠ lease.id →
      (update s.leases lease.id (some lease) id').map (·.keys) = s.keysOf id' := by
    intro id' hne
    simp [keysOf, hne]
  refine ⟨?_, ?_, h.placed, h.rejected, h.single, ?_, ?_⟩
  · intro key route id hroute hid
    have hne : id ≠ lease.id := by
      intro hsame
      rw [hsame] at hid
      exact hunborn.unrouted key route hroute hid
    cases h.routed key route id hroute hid with
    | bound keys hkeysOf hlookup =>
      refine .bound keys ?_ hlookup
      rw [keysOf, hkeys id hne]
      exact hkeysOf
    | overwriting j put hj hkey hlease => exact .overwriting j put hj hkey hlease
    | cleaning hcleans => exact .cleaning hcleans
  · intro j put id hj hid
    have hne : id ≠ lease.id := by
      intro hsame
      rw [hsame] at hid
      exact hunborn.bound_ne hj rfl hid
    rw [keysOf, hkeys id hne]
    exact h.attached j put id hj hid
  · intro id hid
    have hne : id ≠ lease.id := by
      intro hsame
      rw [hsame] at hid
      exact hunborn.untouched hid
    rw [keysOf, hkeys id hne]
    simp only [update_of_ne hne]
    exact h.gone id hid
  · intro id hid
    have hne : id ≠ lease.id := by
      intro hsame
      simp [hsame] at hid
    rw [keysOf, hkeys id hne]
    simp only [update_of_ne hne] at hid
    exact h.cleaned id hid

theorem Unborn.insert (h : Unborn s id) (hne : id ≠ lease.id) :
    Unborn { s.setGrant i (.inserted lease.id) with
      leases := update s.leases lease.id (some lease)
      refreshed := update s.refreshed lease.id []
      cleaned := update s.cleaned lease.id false } id := by
  have hnone := h.unleased
  have huncleaned := h.uncleaned
  refine ⟨?_, ?_, h.untouched, h.unrouted, h.unbound⟩
  · simpa [keysOf, hne] using hnone
  · simpa [hne] using huncleaned

theorem Unborn.same (h : Unborn s id) (hkeys : s'.keysOf = s.keysOf := by rfl)
    (hcleaned : s'.cleaned = s.cleaned := by rfl) (hcleaner : s'.cleaner = s.cleaner := by rfl)
    (hroutes : s'.kvRoutes = s.kvRoutes := by rfl) (hputs : s'.puts = s.puts := by rfl) :
    Unborn s' id := by
  refine h.frame (fun p hp => ?_) (fun key route hroute => ?_) (congrFun hkeys id) hcleaned hcleaner
  · rw [hputs] at hp
    exact .inl hp
  · rw [hroutes] at hroute
    exact .inl hroute

theorem Fresh.grant {e : GrantEvent} (h : Fresh s)
    (hguard : s.survivalGuard (.grant i e) = true) (hstep : GrantEffect s i e s') : Fresh s' := by
  cases hstep with
  | refuse ttl => exact h
  | create ttl hidle =>
    have hlt : s.nextLeaseId < u64Max := by simpa [survivalGuard] using hguard
    have hnext : wrap64 (s.nextLeaseId + 1) = s.nextLeaseId + 1 := wrap64_of_le hlt
    have hgrants : ∀ j lease, (s.setGrant i
        (.created (.new s.currentTimeMs s.nextLeaseId ttl))).grants j = .created lease →
        (j = i ∧ lease.id = s.nextLeaseId) ∨ s.grants j = .created lease := by
      intro j lease hj
      simp only [setGrant] at hj
      by_cases hij : j = i
      · rw [hij, update_self] at hj
        cases hj
        exact .inl ⟨hij, rfl⟩
      · rw [update_of_ne hij] at hj
        exact .inr hj
    constructor
    · simp only [hnext]
      exact hlt
    · intro id hid
      simp only [hnext] at hid
      exact (h.beyond id (by omega)).same
    · intro j lease hj
      simp only [hnext]
      cases hgrants j lease hj with
      | inl hnew =>
        rw [hnew.2]
        exact ⟨Nat.lt_succ_self _, (h.beyond _ le_rfl).same⟩
      | inr hold =>
        obtain ⟨hid, hlease⟩ := h.created j lease hold
        exact ⟨Nat.lt_succ_of_lt hid, hlease.same⟩
    · intro j k lease lease' hj hk hid
      rcases hgrants j lease hj with ⟨hj, hnew⟩ | hold <;>
        rcases hgrants k lease' hk with ⟨hk, hnew'⟩ | hold'
      · rw [hj, hk]
      · exact absurd (hid.symm.trans hnew) (ne_of_lt (h.created k lease' hold').1)
      · exact absurd (hid.trans hnew') (ne_of_lt (h.created j lease hold).1)
      · exact h.unique j k lease lease' hold hold' hid
  | insert lease hphase hguards =>
    have hlt := (h.created i lease hphase).1
    refine ⟨h.limit, ?_, ?_, ?_⟩
    · intro id hid
      exact (h.beyond id hid).insert (ne_of_gt (lt_of_lt_of_le hlt hid))
    · intro j lease' hj
      have hold := created_of_update (by simp) hj
      obtain ⟨hid, hlease'⟩ := h.created j lease' hold
      refine ⟨hid, hlease'.insert ?_⟩
      intro hsame
      have hij := h.unique j i lease' lease hold hphase hsame
      rw [hij] at hj
      simp [setGrant] at hj
    · intro j k lease₁ lease₂ hj hk hid
      exact h.unique j k lease₁ lease₂ (created_of_update (by simp) hj)
        (created_of_update (by simp) hk) hid
  | gone | measure | push =>
    exact h.frame (fun _ h => h.same) fun _ _ => created_of_update (by simp)

theorem Bound.grant {e : GrantEvent} (h : Bound s) (hfresh : Fresh s)
    (hstep : GrantEffect s i e s') : Bound s' := by
  cases hstep with
  | insert lease hphase hguards => exact h.insert (hfresh.created i lease hphase).2
  | _ => exact h.frame

/-! ## Runs -/

theorem bound_fresh_step {e : Event} (h : Bound s ∧ Fresh s) (hstep : s.SurvivalStep e s') :
    Bound s' ∧ Fresh s' := by
  obtain ⟨hbound, hfresh⟩ := h
  obtain ⟨hguard, hstep⟩ := hstep
  cases e with
  | tick clock =>
    obtain ⟨-, rfl⟩ := tick_of_step hstep
    exact ⟨hbound.frame, hfresh.frame⟩
  | tomb tag =>
    cases hstep
    exact ⟨hbound.frame, hfresh.frame⟩
  | deleteRoute key =>
    cases hstep
    refine ⟨hbound.frame fun _ _ => routes_delete, hfresh.frame fun id h => ?_⟩
    exact h.frame (fun _ hp => .inl hp) fun _ _ hroute => .inl (routes_delete hroute)
  | grant i e =>
    have heffect := grantEffect_of_step hstep
    exact ⟨hbound.grant hfresh heffect, hfresh.grant hguard heffect⟩
  | keepalive i e =>
    obtain ⟨hkeys, hputs, hcleaner, hcleaned, hroutes, hgrants, hnext⟩ :=
      frame_of_keepalive (keepaliveEffect_of_step hstep)
    refine ⟨hbound.frame (fun key route hroute => ?_) hkeys hputs hcleaner hcleaned,
      hfresh.frame (fun _ h => h.same hkeys hcleaned hcleaner hroutes hputs)
        (fun i lease hi => ?_) hnext⟩
    · rw [hroutes] at hroute
      exact hroute
    · rw [hgrants] at hi
      exact hi
  | startPut put =>
    cases hstep
    refine ⟨hbound.startPut, hfresh.frame fun id h => ?_⟩
    refine h.frame fun p hp => ?_
    cases List.mem_append.1 hp with
    | inl hbefore => exact .inl hbefore
    | inr hnew =>
      rw [List.mem_singleton.1 hnew]
      exact .inr (by simp [bound])
  | put i e =>
    have heffect := putEffect_of_step hstep
    refine ⟨hbound.put hguard heffect, hfresh.frame (fun _ h => h.put heffect) ?_ ?_⟩
    · cases heffect with
      | _ => exact fun _ _ h => h
    · cases heffect with
      | _ => rfl
  | cleaner e =>
    have heffect := cleanerEffect_of_step hstep
    refine ⟨hbound.cleaner hguard heffect, hfresh.frame (fun _ h => h.cleaner heffect) ?_ ?_⟩
    · cases heffect with
      | _ => exact fun _ _ h => h
    · cases heffect with
      | _ => rfl

/-- **No leased route survives its lease.** In a run under `survivalGuard`: once the cleanup of a
lease has returned and no put completion that has bound a key to it is in progress, no key has a
route with that lease. -/
theorem leased_route_dies {es : List Event} (hrun : Run SurvivalStep initial es s) :
    ∀ id, s.cleaned id = true → (∀ p ∈ s.puts, ∀ put, p.bound = some put → put.leaseId ≠ some id) →
      ∀ key route, s.kvRoutes key = some route → route.leaseId ≠ some id := by
  have hinv : Bound s ∧ Fresh s :=
    hrun.invariant (I := fun s => Bound s ∧ Fresh s) (fun _ _ _ h hstep => bound_fresh_step h hstep)
      ⟨bound_initial, fresh_initial⟩
  intro id hcleaned hreturned key route hroute hid
  cases hinv.1.routed key route id hroute hid with
  | bound keys hkeys hlookup =>
    rw [hinv.1.cleaned id hcleaned] at hkeys
    cases hkeys
  | overwriting i put hi hkey hlease => exact hreturned _ (List.mem_of_getElem? hi) put rfl hlease
  | cleaning hcleans =>
    have huncleaned := (hinv.1.gone id (CleanerPhase.leaseId_of_cleans hcleans)).2
    rw [hcleaned] at huncleaned
    cases huncleaned

/-- A key is put under the lease and deleted with it. -/
def putAndExpire : List Event :=
  grantOne ++ bindKey 0 (1, 0) (some 1) 0 ++ [.put 0 .publish, .put 0 .recheck] ++ expire ++
    [.cleaner (.checkKey "k"), .cleaner .deleteKey, .cleaner .finish]

/-- The lease is removed between the binding and the publication. -/
def publishedLate : List Event := grantOne ++ bindKey 0 (1, 0) (some 1) 0 ++ expire ++
    [.cleaner (.checkKey "k"), .cleaner .deleteKey, .cleaner .finish, .put 0 .publish,
      .put 0 .recheck]

/-- Two put completions bind the key in one order and publish in the other. -/
def publishedCrosswise : List Event :=
  grantOne ++ bindKey 0 (1, 0) (some 1) 0 ++ bindKey 1 (2, 0) (some 1) 0 ++
    [.put 1 .publish, .put 1 .recheck, .put 0 .publish] ++ expire ++
    [.cleaner (.checkKey "k"), .cleaner .finish]

/-- A second put completion rebinds the key and is rejected. -/
def rejectedOverwrite : List Event :=
  grantOne ++ bindKey 0 (1, 0) (some 1) 0 ++ [.put 0 .publish, .put 0 .recheck] ++
    bindKey 1 (2, 0) (some 1) 1 ++ [.tomb 1, .put 1 .publish, .put 1 .detach] ++ expire ++
    [.cleaner .finish]

/-- What the runs are read off for: whether the cleanup of lease 1 has returned, the put
completions, and the lease of the route. -/
def leftover (s : System) : Bool × List PutPhase × Option (Option LeaseID) :=
  (s.cleaned 1, s.puts, (s.kvRoutes "k").map (·.leaseId))

/-- The cleanup of a lease with one key. -/
theorem leased_route_dies_putAndExpire :
    ∃ s, Run SurvivalStep initial putAndExpire s ∧ s.cleaned 1 = true ∧ s.puts = [.returned] ∧
      ∀ key route, s.kvRoutes key = some route → route.leaseId ≠ some 1 := by
  obtain ⟨s, hrun, hleft⟩ := Run.exists_guarded_of_foldlM step initial putAndExpire
    (fun s => leftover s = (true, [.returned], none)) survivalGuard (by decide +kernel)
  simp only [leftover, Prod.mk.injEq] at hleft
  refine ⟨s, hrun, hleft.1, hleft.2.1, leased_route_dies hrun 1 hleft.1 ?_⟩
  rw [hleft.2.1]
  simp [bound]

theorem survives_of_leftover {es : List Event} {p : List PutPhase}
    (h : (es.foldlM step initial).map leftover = some (true, p, some (some 1)))
    (hp : ∀ q ∈ p, q = .returned) :
    ∃ s route, Run Step initial es s ∧ s.cleaned 1 = true ∧ (∀ p ∈ s.puts, p = .returned) ∧
      s.kvRoutes "k" = some route ∧ route.leaseId = some 1 := by
  obtain ⟨s, hs, hleft⟩ := Option.map_eq_some_iff.1 h
  simp only [leftover, Prod.mk.injEq, Option.map_eq_some_iff] at hleft
  obtain ⟨hcleaned, hreturned, route, hroute, hlease⟩ := hleft
  refine ⟨s, route, Run.of_foldlM hs, hcleaned, ?_, hroute, hlease⟩
  rw [hreturned]
  exact hp

/-- A route outlives its lease: after a publication that comes too late, after two publications in
the other order, and after a rejected overwrite. -/
theorem leased_route_survives : (∃ s route, Run Step initial publishedLate s ∧ s.cleaned 1 = true ∧
      (∀ p ∈ s.puts, p = .returned) ∧ s.kvRoutes "k" = some route ∧ route.leaseId = some 1) ∧
    (∃ s route, Run Step initial publishedCrosswise s ∧ s.cleaned 1 = true ∧
      (∀ p ∈ s.puts, p = .returned) ∧ s.kvRoutes "k" = some route ∧ route.leaseId = some 1) ∧
    (∃ s route, Run Step initial rejectedOverwrite s ∧ s.cleaned 1 = true ∧
      (∀ p ∈ s.puts, p = .returned) ∧ s.kvRoutes "k" = some route ∧ route.leaseId = some 1) := by
  refine ⟨?_, ?_, ?_⟩
  · exact survives_of_leftover (p := [.returned]) (by decide +kernel) (by simp)
  · exact survives_of_leftover (p := [.returned, .returned]) (by decide +kernel) (by simp)
  · exact survives_of_leftover (p := [.returned, .returned]) (by decide +kernel) (by simp)

end System

end Fluxon.LeaseManager
