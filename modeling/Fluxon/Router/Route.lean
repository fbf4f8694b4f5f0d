import Fluxon.Foundations.Table
import Fluxon.OwnerSegment.Types

/-!
# Routes of the master

A key has at most one route, `OneKvNodesRoutes`: the version that the last put published, and for
every node the backings that this node's generation holds of the version, in memory and on SSD. A
generation is named by its tomb tag, a flag that all replicas of the generation share; whether a
tag is a tomb is the argument `tombed` of the functions that read it.

The functions here are those that the reclaim and eviction paths use on a route:
`reclaimBackingMatches` and `removeExactOwnerSourceRoute`. The route's radix metadata, its atomic
group and its durable slot counter, and the capacity reservations of a replica are not read by them
and are left out.
-/

namespace Fluxon.Router

open OwnerSegment

/-! ## Reclaim items -/

/-- `PutIDForAKey`: the time of the put in milliseconds and its version. -/
abbrev PutIDForAKey := ℕ × ℕ

/-- `NodeID`. -/
abbrev NodeID := String

/-- `OwnerReclaimBacking`: which memory of the owner a reclaim item names. -/
inductive OwnerReclaimBacking
  | allocation
  | committedSlot (allocationId segmentOffset capacityBytes : ℕ)
  | unindexedAllocation (addr baseAddr len capacityBytes : ℕ)
  deriving DecidableEq

/-- `OwnerReclaimReason`. -/
inductive OwnerReclaimReason
  | ownerCapacityEviction
  | masterAllocationCapacity
  | postReadDuplicate
  deriving DecidableEq

/-- `OwnerReclaimItem`. -/
structure OwnerReclaimItem where
  key : String
  putId : PutIDForAKey
  epoch : ℕ
  backing : OwnerReclaimBacking
  reason : OwnerReclaimReason
  deriving DecidableEq

/-! ## Backings -/

/-- The identity of `NodeTombTag`: two tags are of the same generation if they share one flag. -/
abbrev NodeTombTag := ℕ

/-- The parts of an `Allocation` of the master that name it. -/
structure Allocation where
  baseAddr : ℕ
  addr : ℕ
  size : ℕ
  capacity : ℕ
  deriving DecidableEq

/-- `CommittedSlotReplica`. -/
structure CommittedSlotReplica where
  owner : OwnerGeneration
  allocationId : ℕ
  segmentOffset : ℕ
  capacityBytes : ℕ
  addr : ℕ
  len : ℕ
  baseAddr : ℕ
  deriving DecidableEq

inductive KvReplicaBacking
  | allocation (a : Allocation)
  | committedSlot (slot : CommittedSlotReplica)
  deriving DecidableEq

namespace KvReplicaBacking

def len : KvReplicaBacking → ℕ
  | allocation a => a.size
  | committedSlot slot => slot.len

def capacityBytes : KvReplicaBacking → ℕ
  | allocation a => a.capacity
  | committedSlot slot => slot.capacityBytes

end KvReplicaBacking

structure KvMemoryReplica where
  backing : KvReplicaBacking
  /-- Whether the owner has the backing in its local key index as well. -/
  ownerLocalIndexed : Bool
  deriving DecidableEq

structure KvSsdReplica where
  len : ℕ
  deriving DecidableEq

/-- All backings of one owner generation for one version of a key. -/
structure KvNodeReplicas where
  tombTag : NodeTombTag
  memory : Option KvMemoryReplica
  ssd : Option KvSsdReplica
  deriving DecidableEq

/-- `OneKvNodesRoutes`: the version of a key and its backings by node. -/
structure OneKvNodesRoutes where
  putId : PutIDForAKey
  leaseId : Option ℕ
  nodeReplicas : Table NodeID KvNodeReplicas

/-- `kv_routes`. -/
abbrev KvRoutes := String → Option OneKvNodesRoutes

/-- `reclaim_backing_matches`: the replica is the very memory that an item names. -/
def reclaimBackingMatches (replica : KvMemoryReplica) : OwnerReclaimBacking → Bool
  | .allocation =>
    match replica.backing with
    | .allocation _ => replica.ownerLocalIndexed
    | .committedSlot _ => false
  | .unindexedAllocation addr baseAddr len capacityBytes =>
    match replica.backing with
    | .allocation a =>
      !replica.ownerLocalIndexed && checkedAdd a.baseAddr a.addr = some addr &&
        a.baseAddr = baseAddr && a.size = len && a.capacity = capacityBytes
    | .committedSlot _ => false
  | .committedSlot allocationId segmentOffset capacityBytes =>
    match replica.backing with
    | .allocation _ => false
    | .committedSlot slot =>
      slot.allocationId = allocationId && slot.segmentOffset = segmentOffset &&
        slot.capacityBytes = capacityBytes

/-! ## Exact sources -/

section Tombs

variable (tombed : NodeTombTag → Bool)

/-- `has_other_live_backing`: another live copy exists, if need be on the owner's own SSD. -/
def hasOtherLiveBacking (replicas : Table NodeID KvNodeReplicas) (sourceOwner : NodeID) : Bool :=
  replicas.entries.any fun e =>
    if tombed e.2.tombTag then false
    else if e.1 = sourceOwner then e.2.ssd.isSome
    else e.2.memory.isSome || e.2.ssd.isSome

/-- `NodeValueReplicaDesc`. -/
structure NodeValueReplicaDesc where
  weightBytes : ℕ
  putId : PutIDForAKey
  deriving DecidableEq

structure RemovedOwnerSource where
  desc : NodeValueReplicaDesc
  capacityBytes : ℕ
  logicalBytes : ℕ
  removedLastRoute : Bool
  ssdSurvived : Bool
  ssdBecameOnlyBacking : Bool
  deriving DecidableEq

/-- The number of live backings of a route. -/
def liveBackings (replicas : Table NodeID KvNodeReplicas) : ℕ := Table.sumBy (fun _ r =>
    if tombed r.tombTag then 0 else r.memory.isSome.toNat + r.ssd.isSome.toNat) replicas

/-- `remove_exact_owner_source_route`: take the exact memory backing of the owner off the route; an
entry without a backing goes, and so does a route without an entry. -/
def removeExactOwnerSourceRoute (routes : KvRoutes) (owner : NodeID) (item : OwnerReclaimItem) :
    Option RemovedOwnerSource × KvRoutes :=
  match routes item.key with
  | none => (none, routes)
  | some route =>
    if route.putId ≠ item.putId then (none, routes)
    else match route.nodeReplicas.lookup owner with
      | none => (none, routes)
      | some nodeReplicas =>
        if tombed nodeReplicas.tombTag then (none, routes)
        else match nodeReplicas.memory with
          | none => (none, routes)
          | some replica =>
            if !reclaimBackingMatches replica item.backing then (none, routes)
            else if item.reason = .postReadDuplicate ∧
                !hasOtherLiveBacking tombed route.nodeReplicas owner then (none, routes)
            else
              let ssdSurvived := nodeReplicas.ssd.isSome
              let replicas :=
                if ssdSurvived then
                  route.nodeReplicas.insert owner { nodeReplicas with memory := none }
                else route.nodeReplicas.erase owner
              let removedLastRoute := replicas.entries.isEmpty
              (some {
                desc := ⟨min replica.backing.capacityBytes u32Max, route.putId⟩
                capacityBytes := replica.backing.capacityBytes
                logicalBytes := replica.backing.len
                removedLastRoute
                ssdSurvived
                ssdBecameOnlyBacking := ssdSurvived && liveBackings tombed replicas = 1 },
              Function.update routes item.key
                (if removedLastRoute then none else some { route with nodeReplicas := replicas }))

end Tombs

end Fluxon.Router
