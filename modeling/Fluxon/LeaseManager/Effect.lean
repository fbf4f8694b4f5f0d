import Fluxon.LeaseManager.System

/-!
# What a step of the lease manager does

One relation per kind of thread, with a case for each way in which a step goes through, its guard
and the state after it. The step functions are unfolded here and nowhere else
(`grantEffect_of_step`, `keepaliveEffect_of_step`, `putEffect_of_step`, `cleanerEffect_of_step`).
-/

namespace Fluxon.LeaseManager.System

open Router Function

variable {s s' : System} {i : ℕ}

inductive GrantEffect (s : System) (i : ℕ) : GrantEvent → System → Prop
  | refuse (ttl : ℕ) : GrantEffect s i (.create ttl) s
  | create (ttl : ℕ) :
      s.grants i = .idle →
      GrantEffect s i (.create ttl)
        { s.setGrant i (.created (.new s.currentTimeMs s.nextLeaseId ttl)) with
          nextLeaseId := wrap64 (s.nextLeaseId + 1) }
  | insert (lease : Lease) :
      s.grants i = .created lease → s.guards lease.id = 0 →
      GrantEffect s i .insert
        { s.setGrant i (.inserted lease.id) with
          leases := update s.leases lease.id (some lease)
          refreshed := update s.refreshed lease.id []
          cleaned := update s.cleaned lease.id false }
  | gone (id : LeaseID) :
      s.grants i = .inserted id → s.leases id = none →
      GrantEffect s i .measure (s.setGrant i .idle)
  | measure (id : LeaseID) (lease : Lease) :
      s.grants i = .inserted id → s.leases id = some lease →
      GrantEffect s i .measure (s.setGrant i (.measured id lease.expirationTime))
  | push (id : LeaseID) (expireTime : ℕ) :
      s.grants i = .measured id expireTime →
      GrantEffect s i .push
        { s.setGrant i .idle with expireHeap := s.expireHeap.push (toLex (expireTime, id)) }

theorem grantEffect_of_step {e : GrantEvent} (h : s.stepGrant i e = some s') :
    GrantEffect s i e s' := by
  revert h
  fun_cases stepGrant s i e <;> rintro ⟨⟩
  · exact .refuse _
  · next hidle _ _ => exact .create _ hidle
  · next lease hphase hguards => exact .insert lease hphase (not_not.1 hguards)
  · next id hphase hnone => exact .gone id hphase hnone
  · next id hphase lease hlease => exact .measure id lease hphase hlease
  · next id expireTime hphase => exact .push id expireTime hphase

inductive KeepaliveEffect (s : System) (i : ℕ) : KeepaliveEvent → System → Prop
  | refuse (id : LeaseID) (customTtl : ℕ) : KeepaliveEffect s i (.enter id customTtl) s
  | enter (id : LeaseID) (customTtl : ℕ) :
      s.keepalives i = .idle →
      KeepaliveEffect s i (.enter id customTtl)
        { s.setKeepalive i
            (.entered id (if customTtl > 0 then some customTtl else none) s.clock) with
          guards := update s.guards id (s.guards id + 1) }
  | fail (id : LeaseID) (customTtl : Option ℕ) (readAt : ℕ) :
      s.keepalives i = .entered id customTtl readAt →
      KeepaliveEffect s i .store ((s.setKeepalive i .idle).dropGuard id)
  | store (id : LeaseID) (customTtl : Option ℕ) (readAt : ℕ) (lease lease' : Lease) :
      s.keepalives i = .entered id customTtl readAt → s.leases id = some lease →
      lease.refresh (wrap64 readAt) customTtl = .ok lease' →
      KeepaliveEffect s i .store
        { s.setKeepalive i (.stored id) with
          leases := update s.leases id (some lease')
          refreshed := update s.refreshed id
            (s.refreshed id ++ [⟨readAt, lease.ttlToUse customTtl, lease'.expirationTime⟩]) }
  | gone (id : LeaseID) :
      s.keepalives i = .stored id → s.leases id = none →
      KeepaliveEffect s i .measure ((s.setKeepalive i .idle).dropGuard id)
  | measure (id : LeaseID) (lease : Lease) :
      s.keepalives i = .stored id → s.leases id = some lease →
      KeepaliveEffect s i .measure (s.setKeepalive i (.measured id lease.expirationTime))
  | push (id : LeaseID) (expireTime : ℕ) :
      s.keepalives i = .measured id expireTime →
      KeepaliveEffect s i .push
        { (s.setKeepalive i .idle).dropGuard id with
          expireHeap := s.expireHeap.push (toLex (expireTime, id)) }

theorem keepaliveEffect_of_step {e : KeepaliveEvent} (h : s.stepKeepalive i e = some s') :
    KeepaliveEffect s i e s' := by
  revert h
  fun_cases stepKeepalive s i e <;> rintro ⟨⟩
  · exact .refuse _ _
  · next hidle _ _ => exact .enter _ _ hidle
  · next id customTtl readAt hphase _ _ _ _ => exact .fail id customTtl readAt hphase
  · next id customTtl readAt hphase lease hlease lease' hrefresh =>
    exact .store id customTtl readAt lease lease' hphase hlease hrefresh
  · next id hphase hnone => exact .gone id hphase hnone
  · next id hphase lease hlease => exact .measure id lease hphase hlease
  · next id expireTime hphase => exact .push id expireTime hphase

inductive PutEffect (s : System) (i : ℕ) : PutEvent → System → Prop
  | fail (put : PutCompletion) :
      s.puts[i]? = some (.started put) → PutEffect s i .fail (s.setPut i .returned)
  | unleased (put : PutCompletion) :
      s.puts[i]? = some (.started put) → put.leaseId = none →
      PutEffect s i .prepare (s.setPut i (.attached put))
  | refuse (put : PutCompletion) :
      s.puts[i]? = some (.started put) → PutEffect s i .prepare (s.setPut i .returned)
  | attach (put : PutCompletion) (id : LeaseID) (lease : Lease) :
      s.puts[i]? = some (.started put) → put.leaseId = some id → s.leases id = some lease →
      PutEffect s i .prepare
        { s.setPut i (.attached put) with
          leases := update s.leases id
            (some { lease with keys := AList.insert put.key put.putId lease.keys }) }
  | reject (put : PutCompletion) :
      s.puts[i]? = some (.attached put) → s.tombed put.publishTag = true →
      PutEffect s i .publish (s.setPut i (.rejected put))
  | replace (put : PutCompletion) (route : Route) :
      s.puts[i]? = some (.attached put) → s.tombed put.publishTag = false →
      s.kvRoutes put.key = some route →
      PutEffect s i .publish ((s.setPut i .returned).insertRoute put)
  | insert (put : PutCompletion) :
      s.puts[i]? = some (.attached put) → s.tombed put.publishTag = false → s.kvRoutes put.key = none →
      PutEffect s i .publish ((s.setPut i (.inserted put s.nextObject)).insertRoute put)
  | recheckFailed (put : PutCompletion) (object : ℕ) :
      s.puts[i]? = some (.inserted put object) →
      PutEffect s i .recheck (s.setPut i (.withdrawing put object))
  | recheck (put : PutCompletion) (object : ℕ) :
      s.puts[i]? = some (.inserted put object) → PutEffect s i .recheck (s.setPut i .returned)
  | withdraw (put : PutCompletion) (object : ℕ) (route : Route) :
      s.puts[i]? = some (.withdrawing put object) → s.kvRoutes put.key = some route →
      route.object = object →
      PutEffect s i .withdraw
        { s.setPut i (.rejected put) with kvRoutes := update s.kvRoutes put.key none }
  | overtaken (put : PutCompletion) (object : ℕ) :
      s.puts[i]? = some (.withdrawing put object) →
      (∀ route, s.kvRoutes put.key = some route → route.object ≠ object) →
      PutEffect s i .withdraw (s.setPut i (.rejected put))
  | finish (put : PutCompletion) :
      s.puts[i]? = some (.rejected put) → put.leaseId = none →
      PutEffect s i .detach (s.setPut i .returned)
  | detach (put : PutCompletion) (id : LeaseID) :
      s.puts[i]? = some (.rejected put) → put.leaseId = some id →
      PutEffect s i .detach
        { s.setPut i .returned with leases := s.detachKeyIfVersion id put.key put.putId }

theorem attachKey_ok {id : LeaseID} {key : String} {putId : PutIDForAKey}
    {leases : LeaseID → Option Lease} (h : s.attachKey id key putId = .ok leases) :
    ∃ lease, s.leases id = some lease ∧ leases = update s.leases id
      (some { lease with keys := AList.insert key putId lease.keys }) := by
  revert h
  fun_cases attachKey s id key putId <;> rintro ⟨⟩
  next lease hlease lease' hkey => exact ⟨lease, hlease, by rw [Lease.attachKey_ok hkey]⟩

theorem putEffect_of_step {e : PutEvent} (h : s.stepPut i e = some s') : PutEffect s i e s' := by
  revert h
  fun_cases stepPut s i e <;> rintro ⟨⟩
  · next put hphase => exact .fail put hphase
  · next put hphase hlease => exact .unleased put hphase hlease
  · next put hphase _ _ _ _ => exact .refuse put hphase
  · next put hphase id hid leases hattach =>
    obtain ⟨lease, hlease, rfl⟩ := attachKey_ok hattach
    exact .attach put id lease hphase hid hlease
  · next put hphase htomb => exact .reject put hphase htomb
  · next put hphase hlive route hroute =>
    exact .replace put route hphase (by simpa using hlive) hroute
  · next put hphase hlive hroute => exact .insert put hphase (by simpa using hlive) hroute
  · next put object hphase _ => exact .recheckFailed put object hphase
  · next put object hphase _ => exact .recheck put object hphase
  · next put object hphase hown =>
    obtain ⟨route, hroute, hobject⟩ := Option.map_eq_some_iff.1 hown
    exact .withdraw put object route hphase hroute hobject
  · next put object hphase hother =>
    apply PutEffect.overtaken put object hphase
    intro route hroute hobject
    exact hother (Option.map_eq_some_iff.2 ⟨route, hroute, hobject⟩)
  · next put hphase hlease => exact .finish put hphase hlease
  · next put hphase id hid => exact .detach put id hphase hid

theorem detachKeyIfVersion_apply (s : System) (id id' : LeaseID) (key : String)
    (putId : PutIDForAKey) :
    s.detachKeyIfVersion id key putId id' =
      if id' = id then (s.leases id).map (Lease.detachKeyIfVersion key putId)
      else s.leases id' := by
  rw [detachKeyIfVersion]
  cases hlease : s.leases id with
  | none =>
    by_cases hid : id' = id
    · simp [hid, hlease]
    · simp [hid]
  | some lease => simp [update_apply]

inductive CleanerEffect (s : System) : CleanerEvent → System → Prop
  | clock :
      s.cleaner = .idle → CleanerEffect s .clock { s with cleaner := .clocked s.currentTimeMs }
  | collect (now : ℕ) :
      s.cleaner = .clocked now →
      CleanerEffect s .collect
        { s with
          expireHeap := (s.expireHeap.popWhile fun e => (ofLex e).1 ≤ now).2
          cleaner := .batch (s.expireHeap.popWhile fun e => (ofLex e).1 ≤ now).1 }
  | pass (e : ℕ ×ₗ LeaseID) (due : List (ℕ ×ₗ LeaseID)) :
      s.cleaner = .batch (e :: due) →
      (∀ lease, s.leases (ofLex e).2 = some lease → lease.expirationTime ≠ (ofLex e).1) →
      CleanerEffect s .check { s with cleaner := .batch due }
  | condemn (e : ℕ ×ₗ LeaseID) (due : List (ℕ ×ₗ LeaseID)) (lease : Lease) :
      s.cleaner = .batch (e :: due) → s.leases (ofLex e).2 = some lease →
      lease.expirationTime = (ofLex e).1 →
      CleanerEffect s .check { s with cleaner := .condemned (ofLex e).2 due }
  | gone (id : LeaseID) (due : List (ℕ ×ₗ LeaseID)) :
      s.cleaner = .condemned id due → s.leases id = none →
      CleanerEffect s .remove { s with cleaner := .batch due }
  | remove (id : LeaseID) (due : List (ℕ ×ₗ LeaseID)) (lease : Lease) :
      s.cleaner = .condemned id due → s.guards id = 0 → s.leases id = some lease →
      CleanerEffect s .remove
        { s with
          leases := update s.leases id none
          cleaner := .deleting id lease lease.keys due }
  | select (id : LeaseID) (lease : Lease) (key : String) (oldPutId : PutIDForAKey)
      (keysLeft : Table String PutIDForAKey) (due : List (ℕ ×ₗ LeaseID)) :
      s.cleaner = .deleting id lease keysLeft due → keysLeft.lookup key = some oldPutId →
      s.shouldDelete key oldPutId = true →
      CleanerEffect s (.checkKey key)
        { s with cleaner := .deletingKey id lease key oldPutId (keysLeft.erase key) due }
  | skip (id : LeaseID) (lease : Lease) (key : String) (oldPutId : PutIDForAKey) (route : Route)
      (keysLeft : Table String PutIDForAKey) (due : List (ℕ ×ₗ LeaseID)) :
      s.cleaner = .deleting id lease keysLeft due → keysLeft.lookup key = some oldPutId →
      s.kvRoutes key = some route → route.putId ≠ oldPutId →
      CleanerEffect s (.checkKey key)
        { s with cleaner := .deleting id lease (keysLeft.erase key) due }
  | deleteKey (id : LeaseID) (lease : Lease) (key : String) (oldPutId : PutIDForAKey)
      (keysLeft : Table String PutIDForAKey) (due : List (ℕ ×ₗ LeaseID)) :
      s.cleaner = .deletingKey id lease key oldPutId keysLeft due →
      CleanerEffect s .deleteKey
        { s.doDeleteOneKvAllReplicas key with cleaner := .deleting id lease keysLeft due }
  | finish (id : LeaseID) (lease : Lease) (keysLeft : Table String PutIDForAKey)
      (due : List (ℕ ×ₗ LeaseID)) :
      s.cleaner = .deleting id lease keysLeft due → (∀ key, keysLeft.lookup key = none) →
      CleanerEffect s .finish
        { s with cleaner := .batch due, cleaned := update s.cleaned id true }
  | sleep : s.cleaner = .batch [] → CleanerEffect s .sleep { s with cleaner := .idle }

theorem cleanerEffect_of_step {e : CleanerEvent} (h : s.stepCleaner e = some s') :
    CleanerEffect s e s' := by
  revert h
  fun_cases stepCleaner s e <;> rintro ⟨⟩
  · next hidle => exact .clock hidle
  · next now hphase _ => exact .collect now hphase
  · next e due hphase hnone => exact .pass e due hphase (by simp [hnone])
  · next e due hphase lease hlease hsame => exact .condemn e due lease hphase hlease hsame
  · next e due hphase lease hlease hrenewed => exact .pass e due hphase (by simpa [hlease])
  · next id due hphase _ hnone => exact .gone id due hphase hnone
  · next id due hphase hguards lease hlease =>
    exact .remove id due lease hphase (not_not.1 hguards) hlease
  · next key id lease keysLeft due hphase oldPutId hbound hdelete =>
    exact .select id lease key oldPutId keysLeft due hphase hbound hdelete
  · next key id lease keysLeft due hphase oldPutId hbound hkeep =>
    rw [shouldDelete] at hkeep
    split at hkeep
    · next route hroute =>
      exact .skip id lease key oldPutId route keysLeft due hphase hbound hroute
        (by simpa using hkeep)
    · exact (hkeep rfl).elim
  · next id lease key oldPutId keysLeft due hphase =>
    exact .deleteKey id lease key oldPutId keysLeft due hphase
  · next id lease keysLeft due hphase hempty =>
    apply CleanerEffect.finish id lease keysLeft due hphase
    have hentries : keysLeft.entries = [] := List.isEmpty_iff.1 hempty
    simp [AList.lookup, hentries]
  · next hphase => exact .sleep hphase

/-! ## Steps outside the threads -/

theorem tick_of_step {clock : ℕ} (h : s.Step (.tick clock) s') :
    s.clock ≤ clock ∧ s' = { s with clock } := by
  simp only [Step, System.step] at h
  split at h
  · next hclock =>
    cases h
    exact ⟨hclock, rfl⟩
  · cases h

theorem routes_insertRoute {put : PutCompletion} {key : String} {route : Route}
    (hkey : key ≠ put.key) (h : (s.insertRoute put).kvRoutes key = some route) :
    s.kvRoutes key = some route := by
  simpa [insertRoute, hkey] using h

theorem routes_delete {key key' : String} {route : Route}
    (h : (s.doDeleteOneKvAllReplicas key').kvRoutes key = some route) :
    s.kvRoutes key = some route := by
  by_cases hkey : key = key'
  · simp [doDeleteOneKvAllReplicas, hkey] at h
  · simpa [doDeleteOneKvAllReplicas, hkey] using h

end Fluxon.LeaseManager.System
