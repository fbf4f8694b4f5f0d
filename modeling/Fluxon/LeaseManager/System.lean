import Fluxon.Foundations.MinHeap
import Fluxon.Foundations.Run
import Fluxon.LeaseManager.Types
import Mathlib.Data.Prod.Lex

/-!
# The lease manager and its threads

Grants, keepalives, put completions and the cleanup task, each cut into the steps that other
threads can come between. Those are the accesses to the lease map, the expiration heap and
`kv_routes`, and the readings of the clock.

* A keepalive holds a guard of the lease map from its lookup to its answer (`guards`); a lease with
  a guard out cannot be removed or replaced.
* A put completion binds its key to the lease before it publishes the route. If the key has a
  route, the publication and its check of the tomb flag are one step, since the entry is locked in
  between. On a vacant entry a publication that meets the tomb flag drops the entry and removes its
  own route afterwards.
* The cleanup task takes all due entries off the heap at once. For each of them it looks the lease
  up, removes it, and goes over its keys. For each key it looks the route up and then deletes it.
  That it marks the removed lease as expired in the end is left out: nobody sees that lease again.

`refreshed` and `cleaned` are not in the source. They record what the statements speak of: the
keepalives of each lease since it was granted, and the leases whose cleanup has returned.
-/

namespace Fluxon.LeaseManager

open Router Function

/-- `OneKvNodesRoutes` as far as leases go; `object` is the identity of the `Arc`. -/
structure Route where
  putId : PutIDForAKey
  leaseId : Option LeaseID
  object : ℕ
  deriving DecidableEq

/-- What a put completion publishes. -/
structure PutCompletion where
  key : String
  putId : PutIDForAKey
  leaseId : Option LeaseID
  publishTag : NodeTombTag
  deriving DecidableEq

/-! ## Threads -/

inductive GrantPhase
  | idle
  /-- The lease exists and is not in the map yet. -/
  | created (lease : Lease)
  | inserted (id : LeaseID)
  /-- The expiration time has been read for the heap. -/
  | measured (id : LeaseID) (expireTime : ℕ)

inductive KeepalivePhase
  | idle
  /-- The lease is found active and the clock is read. -/
  | entered (id : LeaseID) (customTtl : Option ℕ) (readAt : ℕ)
  | stored (id : LeaseID)
  | measured (id : LeaseID) (expireTime : ℕ)
  deriving DecidableEq

inductive PutPhase
  | started (put : PutCompletion)
  /-- The key is bound to the lease, and the route is not published. -/
  | attached (put : PutCompletion)
  /-- The route stands in an entry that was vacant, before the check of the tomb flag. -/
  | inserted (put : PutCompletion) (object : ℕ)
  /-- That check has failed. -/
  | withdrawing (put : PutCompletion) (object : ℕ)
  /-- The publication is rejected, and the key is still bound. -/
  | rejected (put : PutCompletion)
  | returned
  deriving DecidableEq

inductive CleanerPhase
  | idle
  | clocked (now : ℕ)
  | batch (due : List (ℕ ×ₗ LeaseID))
  /-- The heap entry agrees with the lease. -/
  | condemned (id : LeaseID) (due : List (ℕ ×ₗ LeaseID))
  /-- The lease is out of the map and some of its keys are left. -/
  | deleting (id : LeaseID) (lease : Lease) (keysLeft : Table String PutIDForAKey)
      (due : List (ℕ ×ₗ LeaseID))
  /-- A key of the lease is to be deleted. -/
  | deletingKey (id : LeaseID) (lease : Lease) (key : String) (oldPutId : PutIDForAKey)
      (keysLeft : Table String PutIDForAKey) (due : List (ℕ ×ₗ LeaseID))

/-- A keepalive that has stored an expiration time. -/
structure Refresh where
  readAt : ℕ
  ttl : ℕ
  expirationTime : ℕ
  deriving DecidableEq

structure System where
  clock : ℕ
  leases : LeaseID → Option Lease
  guards : LeaseID → ℕ
  nextLeaseId : ℕ
  expireHeap : MinHeap (ℕ ×ₗ LeaseID)
  kvRoutes : String → Option Route
  nextObject : ℕ
  tombed : NodeTombTag → Bool
  grants : ℕ → GrantPhase
  keepalives : ℕ → KeepalivePhase
  puts : List PutPhase
  cleaner : CleanerPhase
  refreshed : LeaseID → List Refresh
  cleaned : LeaseID → Bool

inductive GrantEvent
  | create (ttl : ℕ)
  | insert
  | measure
  | push
  deriving DecidableEq

inductive KeepaliveEvent
  | enter (id : LeaseID) (customTtl : ℕ)
  | store
  | measure
  | push
  deriving DecidableEq

inductive PutEvent
  | fail
  | prepare
  | publish
  | recheck
  | withdraw
  | detach
  deriving DecidableEq

inductive CleanerEvent
  | clock
  | collect
  | check
  | remove
  | checkKey (key : String)
  | deleteKey
  | finish
  | sleep
  deriving DecidableEq

inductive Event
  | tick (clock : ℕ)
  | tomb (tag : NodeTombTag)
  | deleteRoute (key : String)
  | grant (thread : ℕ) (e : GrantEvent)
  | keepalive (thread : ℕ) (e : KeepaliveEvent)
  | startPut (put : PutCompletion)
  | put (thread : ℕ) (e : PutEvent)
  | cleaner (e : CleanerEvent)
  deriving DecidableEq

namespace System

def initial : System where
  clock := 0
  leases _ := none
  guards _ := 0
  nextLeaseId := 1
  expireHeap := .empty
  kvRoutes _ := none
  nextObject := 0
  tombed _ := false
  grants _ := .idle
  keepalives _ := .idle
  puts := []
  cleaner := .idle
  refreshed _ := []
  cleaned _ := false

variable (s : System)

/-- `current_time_ms`. -/
def currentTimeMs : ℕ := wrap64 s.clock

/-! ## Grants -/

variable (i : ℕ)

def setGrant (p : GrantPhase) : System :=
  { s with grants := update s.grants i p }

/-- `grant_lease`, with `grant_lease_unchecked` and `insert_lease_to_cleanup`. -/
def stepGrant : GrantEvent → Option System
  | .create ttl =>
    match s.grants i with
    | .idle =>
      match validateTtl ttl with
      | .error _ => some s
      | .ok _ =>
        some { s.setGrant i (.created (.new s.currentTimeMs s.nextLeaseId ttl)) with
          nextLeaseId := wrap64 (s.nextLeaseId + 1) }
    | _ => none
  | .insert =>
    match s.grants i with
    | .created lease =>
      if s.guards lease.id ≠ 0 then none
      else some { s.setGrant i (.inserted lease.id) with
        leases := update s.leases lease.id (some lease)
        refreshed := update s.refreshed lease.id []
        cleaned := update s.cleaned lease.id false }
    | _ => none
  | .measure =>
    match s.grants i with
    | .inserted id =>
      match s.leases id with
      | none => some (s.setGrant i .idle)
      | some lease => some (s.setGrant i (.measured id lease.expirationTime))
    | _ => none
  | .push =>
    match s.grants i with
    | .measured id expireTime =>
      some { s.setGrant i .idle with expireHeap := s.expireHeap.push (toLex (expireTime, id)) }
    | _ => none

/-! ## Keepalives -/

def setKeepalive (p : KeepalivePhase) : System :=
  { s with keepalives := update s.keepalives i p }

/-- The lease of a keepalive, with the errors of `handle_client_lease_keepalive` and
`client_lease_keepalive`. -/
def findActive (id : LeaseID) : Except LeaseMgrError Lease :=
  match s.leases id with
  | none => .error (.leaseNotFound id "lease not found")
  | some lease =>
    if lease.state ≠ .active then .error (.leaseExpired lease.id (toString lease.id))
    else .ok lease

/-- Drop the guard of a lease. -/
def dropGuard (id : LeaseID) : System :=
  { s with guards := update s.guards id (s.guards id - 1) }

/-- `handle_client_lease_keepalive`, with `refresh` and `update_lease_in_cleanup_heap`. A request
with time to live zero asks for the lease's own. -/
def stepKeepalive : KeepaliveEvent → Option System
  | .enter id customTtl =>
    match s.keepalives i with
    | .idle =>
      match s.findActive id with
      | .error _ => some s
      | .ok _ =>
        some { s.setKeepalive i
            (.entered id (if customTtl > 0 then some customTtl else none) s.clock) with
          guards := update s.guards id (s.guards id + 1) }
    | _ => none
  | .store =>
    match s.keepalives i with
    | .entered id customTtl readAt =>
      match s.leases id with
      | none => none
      | some lease =>
        match lease.refresh (wrap64 readAt) customTtl with
        | .error _ => some ((s.setKeepalive i .idle).dropGuard id)
        | .ok lease' =>
          some { s.setKeepalive i (.stored id) with
            leases := update s.leases id (some lease')
            refreshed := update s.refreshed id
              (s.refreshed id ++ [⟨readAt, lease.ttlToUse customTtl, lease'.expirationTime⟩]) }
    | _ => none
  | .measure =>
    match s.keepalives i with
    | .stored id =>
      match s.leases id with
      | none => some ((s.setKeepalive i .idle).dropGuard id)
      | some lease => some (s.setKeepalive i (.measured id lease.expirationTime))
    | _ => none
  | .push =>
    match s.keepalives i with
    | .measured id expireTime =>
      some { (s.setKeepalive i .idle).dropGuard id with
        expireHeap := s.expireHeap.push (toLex (expireTime, id)) }
    | _ => none

/-! ## Put completions -/

def setPut (p : PutPhase) : System :=
  { s with puts := s.puts.set i p }

/-- `attach_key` of the manager. -/
def attachKey (s : System) (id : LeaseID) (key : String) (putId : PutIDForAKey) :
    Except LeaseMgrError (LeaseID → Option Lease) :=
  match s.leases id with
  | none => .error (.leaseNotFound id (toString id))
  | some lease =>
    match lease.attachKey key putId with
    | .error e => .error e
    | .ok lease' => .ok (update s.leases id (some lease'))

/-- `detach_key_if_version` of the manager. -/
def detachKeyIfVersion (s : System) (id : LeaseID) (key : String) (putId : PutIDForAKey) :
    LeaseID → Option Lease :=
  match s.leases id with
  | none => s.leases
  | some lease => update s.leases id (some (lease.detachKeyIfVersion key putId))

/-- Put a fresh route of the completion under its key. -/
def insertRoute (put : PutCompletion) : System :=
  { s with
    kvRoutes := update s.kvRoutes put.key (some ⟨put.putId, put.leaseId, s.nextObject⟩)
    nextObject := s.nextObject + 1 }

/-- A put completion: `prepare_route_state`, then `publish_primary_route_tomb_fenced`, and
`detach_key_if_version` after a rejection. It can fail before it touches the lease. -/
def stepPut : PutEvent → Option System
  | .fail =>
    match s.puts[i]? with
    | some (.started _) => some (s.setPut i .returned)
    | _ => none
  | .prepare =>
    match s.puts[i]? with
    | some (.started put) =>
      match put.leaseId with
      | none => some (s.setPut i (.attached put))
      | some id =>
        match s.attachKey id put.key put.putId with
        | .error _ => some (s.setPut i .returned)
        | .ok leases => some { s.setPut i (.attached put) with leases }
    | _ => none
  | .publish =>
    match s.puts[i]? with
    | some (.attached put) =>
      if s.tombed put.publishTag then some (s.setPut i (.rejected put))
      else
        match s.kvRoutes put.key with
        | some _ => some ((s.setPut i .returned).insertRoute put)
        | none => some ((s.setPut i (.inserted put s.nextObject)).insertRoute put)
    | _ => none
  | .recheck =>
    match s.puts[i]? with
    | some (.inserted put object) =>
      if s.tombed put.publishTag then some (s.setPut i (.withdrawing put object))
      else some (s.setPut i .returned)
    | _ => none
  | .withdraw =>
    match s.puts[i]? with
    | some (.withdrawing put object) =>
      if (s.kvRoutes put.key).map (·.object) = some object then
        some { s.setPut i (.rejected put) with
          kvRoutes := update s.kvRoutes put.key none }
      else some (s.setPut i (.rejected put))
    | _ => none
  | .detach =>
    match s.puts[i]? with
    | some (.rejected put) =>
      match put.leaseId with
      | none => some (s.setPut i .returned)
      | some id =>
        some { s.setPut i .returned with leases := s.detachKeyIfVersion id put.key put.putId }
    | _ => none

/-! ## Cleanup -/

/-- `do_delete_one_kv_all_replicas`. -/
def doDeleteOneKvAllReplicas (key : String) : System :=
  { s with kvRoutes := update s.kvRoutes key none }

/-- Whether the cleanup goes on to delete a key: its route has the version that was bound, or it has
no route. -/
def shouldDelete (key : String) (oldPutId : PutIDForAKey) : Bool :=
  match s.kvRoutes key with
  | some route => route.putId = oldPutId
  | none => true

/-- The loop of `start_cleanup_task`, with `cleanup_single_lease_static`. -/
def stepCleaner : CleanerEvent → Option System
  | .clock =>
    match s.cleaner with
    | .idle => some { s with cleaner := .clocked s.currentTimeMs }
    | _ => none
  | .collect =>
    match s.cleaner with
    | .clocked now =>
      let popped := s.expireHeap.popWhile fun e => (ofLex e).1 ≤ now
      some { s with expireHeap := popped.2, cleaner := .batch popped.1 }
    | _ => none
  | .check =>
    match s.cleaner with
    | .batch (e :: due) =>
      match s.leases (ofLex e).2 with
      | none => some { s with cleaner := .batch due }
      | some lease =>
        if lease.expirationTime = (ofLex e).1 then
          some { s with cleaner := .condemned (ofLex e).2 due }
        else some { s with cleaner := .batch due }
    | _ => none
  | .remove =>
    match s.cleaner with
    | .condemned id due =>
      if s.guards id ≠ 0 then none
      else
        match s.leases id with
        | none => some { s with cleaner := .batch due }
        | some lease =>
          some { s with
            leases := update s.leases id none
            cleaner := .deleting id lease lease.keys due }
    | _ => none
  | .checkKey key =>
    match s.cleaner with
    | .deleting id lease keysLeft due =>
      match keysLeft.lookup key with
      | none => none
      | some oldPutId =>
        if s.shouldDelete key oldPutId then
          some { s with cleaner := .deletingKey id lease key oldPutId (keysLeft.erase key) due }
        else some { s with cleaner := .deleting id lease (keysLeft.erase key) due }
    | _ => none
  | .deleteKey =>
    match s.cleaner with
    | .deletingKey id lease key _ keysLeft due =>
      some { s.doDeleteOneKvAllReplicas key with cleaner := .deleting id lease keysLeft due }
    | _ => none
  | .finish =>
    match s.cleaner with
    | .deleting id _ keysLeft due =>
      if keysLeft.entries.isEmpty then
        some { s with cleaner := .batch due, cleaned := update s.cleaned id true }
      else none
    | _ => none
  | .sleep =>
    match s.cleaner with
    | .batch [] => some { s with cleaner := .idle }
    | _ => none

/-- A step of some thread; time passes, generations are tombed and routes are deleted at will. -/
def step : Event → Option System
  | .tick clock => if s.clock ≤ clock then some { s with clock } else none
  | .tomb tag => some { s with tombed := update s.tombed tag true }
  | .deleteRoute key => some (s.doDeleteOneKvAllReplicas key)
  | .grant i e => s.stepGrant i e
  | .keepalive i e => s.stepKeepalive i e
  | .startPut put => some { s with puts := s.puts ++ [.started put] }
  | .put i e => s.stepPut i e
  | .cleaner e => s.stepCleaner e

/-- `Step s e s'`: the event leads from `s` to `s'`. -/
def Step (e : Event) (s' : System) : Prop := s.step e = some s'

/-! ## Parts of runs -/

/-- A lease of 90 seconds is granted. -/
def grantOne : List Event :=
  [.grant 0 (.create 90), .grant 0 .insert, .grant 0 .measure, .grant 0 .push]

/-- A put completion starts and binds the key to its lease. -/
def bindKey (thread : ℕ) (putId : PutIDForAKey) (leaseId : Option LeaseID) (tag : NodeTombTag) :
    List Event :=
  [.startPut ⟨"k", putId, leaseId, tag⟩, .put thread .prepare]

/-- The lease expires and the cleanup begins. -/
def expire : List Event :=
  [.tick 90000, .cleaner .clock, .cleaner .collect, .cleaner .check, .cleaner .remove]

end System

end Fluxon.LeaseManager
