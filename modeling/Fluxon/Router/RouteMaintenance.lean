import Fluxon.Router.PrefixIndex
import Fluxon.Router.Route

/-!
# The prefix index and the routes

The prefix index follows the routes of the master asynchronously. Publishing a primary route queues
a maintenance event, removing a route queues an index removal, and both are applied to the index
later, in any order, under the index lock: an event inserts its key if its route is still current
and has a live replica, a removal takes exactly its own version out.

`prefix_index_agrees` says that at quiescence the index holds the keys that have a live route, in
every run in which no route is removed while the index holds the key under an older version whose
removal is not queued. Without that condition it fails (`overwrite_then_delete_leaves_key`): when a
version is overwritten and the new one is deleted before its event is applied, the event finds no
route, the removal does not match the older version, and the key stays.

The replicas that are added to a route later, which queue no event, and the removal of tombed
replicas by a Get are left out.
-/

namespace Fluxon.Router

open Function List PrefixRadixTree Option

/-! ## Steps -/

/-- The routes, the index, and what is queued for it. -/
structure IndexWorld where
  routes : KvRoutes
  /-- The generations that have left. -/
  departed : List NodeTombTag
  /-- The departed generations whose routes are still being cleaned up. -/
  cleanups : List NodeTombTag
  index : PrefixRadixTree
  /-- The queued `PrimaryPut` maintenance events. -/
  events : List (String × PutIDForAKey)
  /-- The queued index removals. -/
  removals : List (String × PutIDForAKey)
  /-- The versions published so far. -/
  issued : List (String × PutIDForAKey)

namespace IndexWorld

def initial : IndexWorld := ⟨fun _ => none, [], [], .new, [], [], []⟩

def tombed (w : IndexWorld) (tag : NodeTombTag) : Bool := tag ∈ w.departed

/-- Some replica of the route belongs to the generation. -/
def holdsTag (route : OneKvNodesRoutes) (tag : NodeTombTag) : Bool :=
  route.nodeReplicas.entries.any fun e => e.2.tombTag = tag

/-- The route has a replica that is not tombed. -/
def hasLiveReplica (w : IndexWorld) (route : OneKvNodesRoutes) : Bool :=
  route.nodeReplicas.entries.any fun e => !w.tombed e.2.tombTag

/-- The check of `apply_post_route_maintenance_batch` on an event. -/
def eventIsCurrent (w : IndexWorld) (key : String) (putId : PutIDForAKey) : Bool :=
  (w.routes key).any fun route => route.putId = putId && w.hasLiveReplica route

/-- `remove_departed_generation_from_route`: the version of a route that this emptied, and the
routes. -/
def removeDepartedGenerationFromRoute (w : IndexWorld) (key : String) (nodeId : NodeID)
    (tag : NodeTombTag) : Option PutIDForAKey × KvRoutes :=
  match w.routes key with
  | none => (none, w.routes)
  | some route =>
    match route.nodeReplicas.lookup nodeId with
    | none => (none, w.routes)
    | some replica =>
      if w.tombed replica.tombTag && replica.tombTag = tag then
        let replicas := route.nodeReplicas.erase nodeId
        if replicas.entries.isEmpty then
          (some route.putId, Function.update w.routes key none)
        else (none, Function.update w.routes key (some { route with nodeReplicas := replicas }))
      else (none, w.routes)

inductive Step
  /-- `publish_primary_route_tomb_fenced` and the event that follows it. -/
  | publish (key : String) (putId : PutIDForAKey) (leaseId : Option ℕ) (nodeId : NodeID)
      (publishTag : NodeTombTag) (replica : KvMemoryReplica)
  /-- `do_delete_one_kv_all_replicas`. -/
  | delete (key : String)
  /-- `remove_reclaimed_replica`. -/
  | reclaim (owner : NodeID) (item : OwnerReclaimItem)
  /-- A node leaves: its generation is tombed. -/
  | memberLeft (tag : NodeTombTag)
  /-- `cleanup_departed_generation_routes`, for one route. -/
  | cleanRoute (key : String) (nodeId : NodeID) (tag : NodeTombTag)
  /-- The cleanup has visited all routes. -/
  | finishCleanup (tag : NodeTombTag)
  /-- A maintenance event is applied to the index. -/
  | applyEvent (key : String) (putId : PutIDForAKey)
  /-- An index removal task runs. -/
  | applyRemoval (key : String) (putId : PutIDForAKey)

section

variable (w : IndexWorld)

def step : Step → Option IndexWorld
  | .publish key putId leaseId nodeId publishTag replica =>
    -- the master gives out a version of a key once
    if (key, putId) ∈ w.issued then none
    else if w.tombed publishTag then some w
    else
      let newRoute : OneKvNodesRoutes :=
        ⟨putId, leaseId, AList.singleton nodeId ⟨publishTag, some replica, none⟩⟩
      some { w with
        routes := Function.update w.routes key (some newRoute)
        events := w.events ++ [(key, putId)]
        issued := w.issued ++ [(key, putId)] }
  | .delete key =>
    match w.routes key with
    | none => some w
    | some route => some { w with
        routes := Function.update w.routes key none
        removals := w.removals ++ [(key, route.putId)] }
  | .reclaim owner item =>
    match removeExactOwnerSourceRoute w.tombed w.routes owner item with
    | (none, _) => some w
    | (some removed, routes) => some { w with
        routes
        removals :=
          if removed.removedLastRoute then w.removals ++ [(item.key, item.putId)]
          else w.removals }
  | .memberLeft tag => some { w with
      departed := w.departed ++ [tag]
      cleanups := w.cleanups ++ [tag] }
  | .cleanRoute key nodeId tag =>
    if tag ∈ w.cleanups then
      some { w with
        routes := (w.removeDepartedGenerationFromRoute key nodeId tag).2
        removals := w.removals ++ ((w.removeDepartedGenerationFromRoute key nodeId tag).1.map
          fun putId => (key, putId)).toList }
    else none
  | .finishCleanup tag =>
    if tag ∈ w.cleanups ∧ w.issued.all fun i => !(w.routes i.1).any (holdsTag · tag) then
      some { w with cleanups := w.cleanups.filter (· ≠ tag) }
    else none
  | .applyEvent key putId =>
    if (key, putId) ∈ w.events then
      if w.eventIsCurrent key putId then
        (w.index.insert key putId).toOption.map fun r => { w with
          events := w.events.erase (key, putId)
          index := r.2 }
      else some { w with events := w.events.erase (key, putId) }
    else none
  | .applyRemoval key putId =>
    if (key, putId) ∈ w.removals then
      some { w with
        removals := w.removals.erase (key, putId)
        index := (w.index.remove key putId).2 }
    else none

def Steps (e : Step) (w' : IndexWorld) : Prop := w.step e = some w'

/-- Nothing is queued for the index, and no departed generation is being cleaned up. -/
def Quiescent : Prop := w.events = [] ∧ w.removals = [] ∧ w.cleanups = []

/-- The route of a key is not hidden behind an older version in the index: what the index holds for
the key is the version of the route, or its removal is queued. -/
def settled (key : String) : Bool :=
  match w.routes key, w.index.versions.lookup key with
  | some route, some u => u = route.putId || (key, u) ∈ w.removals
  | _, _ => true

/-- The condition on the steps that take replicas off a route. -/
def settledFirst : Step → Bool
  | .delete key => w.settled key
  | .reclaim _ item => w.settled item.key
  | .cleanRoute key _ _ => w.settled key
  | _ => true

end

/-! ## What the queues account for -/

/-- Between the routes, the index and its queues. -/
structure Accounted (w : IndexWorld) : Prop where
  sound : w.index.Sound
  /-- An indexed key has a route, or its removal is queued. -/
  indexed : ∀ key u, w.index.versions.lookup key = some u →
    (∃ route, w.routes key = some route) ∨ (key, u) ∈ w.removals
  /-- A live route is indexed, or its event is queued. -/
  routed : ∀ key route, w.routes key = some route → w.hasLiveReplica route = true →
    (key, route.putId) ∈ w.events ∨ w.index.versions.lookup key = some route.putId
  /-- The version of a route is not queued for removal. -/
  current : ∀ key route, w.routes key = some route → (key, route.putId) ∉ w.removals
  issuedRoutes : ∀ key route, w.routes key = some route → (key, route.putId) ∈ w.issued
  issuedRemovals : ∀ i ∈ w.removals, i ∈ w.issued
  nonempty : ∀ key route, w.routes key = some route → route.nodeReplicas.entries ≠ []
  /-- A tombed replica is being cleaned up. -/
  tombs : ∀ key route, w.routes key = some route → ∀ e ∈ route.nodeReplicas.entries,
    w.tombed e.2.tombTag = true → e.2.tombTag ∈ w.cleanups

theorem accounted_initial : Accounted initial where
  sound := sound_new
  indexed _ _ h := by cases h
  routed _ _ h := by cases h
  current _ _ h := by cases h
  issuedRoutes _ _ h := by cases h
  issuedRemovals _ h := by cases h
  nonempty _ _ h := by cases h
  tombs _ _ h := by cases h

variable {w w' : IndexWorld} {route : OneKvNodesRoutes} {key : String} {putId : PutIDForAKey}

theorem hasLiveReplica_iff : w.hasLiveReplica route = true ↔
      ∃ e ∈ route.nodeReplicas.entries, w.tombed e.2.tombTag = false := by
  simp [hasLiveReplica]

/-- What the removal of replicas does to the routes and the removal queue. -/
inductive Shrinks (w : IndexWorld) (key : String) (route : OneKvNodesRoutes) :
    KvRoutes → List (String × PutIDForAKey) → Prop
  | removed : Shrinks w key route (Function.update w.routes key none)
      (w.removals ++ [(key, route.putId)])
  | kept (route' : OneKvNodesRoutes) (hput : route'.putId = route.putId)
      (hne : route'.nodeReplicas.entries ≠ [])
      (htags : ∀ e' ∈ route'.nodeReplicas.entries, ∃ e ∈ route.nodeReplicas.entries,
        e.2.tombTag = e'.2.tombTag) :
      Shrinks w key route (Function.update w.routes key (some route')) w.removals

variable {routes : KvRoutes} {t : Table NodeID KvNodeReplicas} {nodeId owner : NodeID}

theorem Accounted.shrinks {removals : List (String × PutIDForAKey)} (h : Accounted w)
    (hroute : w.routes key = some route) (hsettled : w.settled key = true)
    (hs : Shrinks w key route routes removals) : Accounted { w with routes, removals } := by
  have hin := h.issuedRoutes key route hroute
  cases hs with
  | removed =>
    have hroutes : ∀ {k r}, update w.routes key none k = some r →
        k ≠ key ∧ w.routes k = some r := by
      intro k r hr
      by_cases hk : k = key
      · subst hk
        simp at hr
      · exact ⟨hk, by rwa [update_of_ne hk] at hr⟩
    refine ⟨h.sound, ?_, ?_, ?_, ?_, ?_, ?_, ?_⟩
    · intro k u hu
      by_cases hk : k = key
      · subst hk
        simp only [settled, hroute, hu, Bool.or_eq_true, decide_eq_true_eq] at hsettled
        rcases hsettled with rfl | hmem
        · exact .inr (by simp)
        · exact .inr (mem_append_left _ hmem)
      · rcases h.indexed k u hu with ⟨r, hr⟩ | hmem
        · exact .inl ⟨r, (update_of_ne hk _ _).trans hr⟩
        · exact .inr (mem_append_left _ hmem)
    · intro k r hr hlive
      exact h.routed k r (hroutes hr).2 hlive
    · intro k r hr hmem
      obtain ⟨hk, hr⟩ := hroutes hr
      rcases mem_append.1 hmem with hmem | hmem
      · exact h.current k r hr hmem
      · exact hk (congrArg Prod.fst (mem_singleton.1 hmem))
    · intro k r hr
      exact h.issuedRoutes k r (hroutes hr).2
    · intro i hi
      rcases mem_append.1 hi with hi | hi
      · exact h.issuedRemovals i hi
      · rw [mem_singleton.1 hi]
        exact hin
    · intro k r hr
      exact h.nonempty k r (hroutes hr).2
    · intro k r hr
      exact h.tombs k r (hroutes hr).2
  | kept route' hput hne htags =>
    have hroutes : ∀ {k r}, update w.routes key (some route') k = some r →
        (k = key ∧ r = route') ∨ w.routes k = some r := by
      intro k r hr
      by_cases hk : k = key
      · subst hk
        rw [update_self] at hr
        exact .inl ⟨rfl, (Option.some.inj hr).symm⟩
      · exact .inr (by rwa [update_of_ne hk] at hr)
    refine ⟨h.sound, ?_, ?_, ?_, ?_, h.issuedRemovals, ?_, ?_⟩
    · intro k u hu
      by_cases hk : k = key
      · subst hk
        exact .inl ⟨route', update_self ..⟩
      · rcases h.indexed k u hu with ⟨r, hr⟩ | hmem
        · exact .inl ⟨r, (update_of_ne hk _ _).trans hr⟩
        · exact .inr hmem
    · intro k r hr hlive
      rcases hroutes hr with ⟨rfl, rfl⟩ | hr
      · rw [hput]
        refine h.routed k route hroute ?_
        obtain ⟨e', he', hlive⟩ := hasLiveReplica_iff.1 hlive
        obtain ⟨e, he, htag⟩ := htags e' he'
        exact hasLiveReplica_iff.2 ⟨e, he, by rw [htag]; exact hlive⟩
      · exact h.routed k r hr hlive
    · intro k r hr
      rcases hroutes hr with ⟨rfl, rfl⟩ | hr
      · rw [hput]
        exact h.current k route hroute
      · exact h.current k r hr
    · intro k r hr
      rcases hroutes hr with ⟨rfl, rfl⟩ | hr
      · rw [hput]
        exact hin
      · exact h.issuedRoutes k r hr
    · intro k r hr
      rcases hroutes hr with ⟨rfl, rfl⟩ | hr
      · exact hne
      · exact h.nonempty k r hr
    · intro k r hr e' he' htomb
      rcases hroutes hr with ⟨rfl, rfl⟩ | hr
      · obtain ⟨e, he, htag⟩ := htags e' he'
        rw [← htag] at htomb ⊢
        exact h.tombs k route hroute e he htomb
      · exact h.tombs k r hr e' he' htomb

/-! ## The removal of replicas -/

theorem mem_of_mem_erase {e : (_ : NodeID) × KvNodeReplicas} (h : e ∈ (t.erase nodeId).entries) :
    e ∈ t.entries :=
  (kerase_sublist nodeId t.entries).subset h

/-- Without its memory backing, the owner's entry stays for its SSD copy or goes: no other tag
appears. -/
theorem tags_takeMemory {r : KvNodeReplicas} (h : t.lookup owner = some r) :
    ∀ e' ∈ (if r.ssd.isSome then t.insert owner { r with memory := none }
        else t.erase owner).entries, ∃ e ∈ t.entries, e.2.tombTag = e'.2.tombTag := by
  intro e' he'
  split_ifs at he'
  · rcases mem_cons.1 he' with rfl | he'
    · exact ⟨⟨owner, r⟩, Table.mem_entries_iff.2 h, rfl⟩
    · exact ⟨e', (kerase_sublist _ _).subset he', rfl⟩
  · exact ⟨e', mem_of_mem_erase he', rfl⟩

/-- A route that keeps some of its tags shrinks, and it is removed when none is left. -/
theorem shrinks_of_replicas {replicas : Table NodeID KvNodeReplicas}
    (h : ∀ e' ∈ replicas.entries, ∃ e ∈ route.nodeReplicas.entries, e.2.tombTag = e'.2.tombTag) :
    Shrinks w key route (update w.routes key
        (if replicas.entries.isEmpty then none else some { route with nodeReplicas := replicas }))
      (if replicas.entries.isEmpty then w.removals ++ [(key, route.putId)] else w.removals) := by
  cases hempty : replicas.entries.isEmpty with
  | true => exact .removed
  | false =>
    have hne : replicas.entries ≠ [] := by simpa using hempty
    exact .kept { route with nodeReplicas := replicas } rfl hne h

/-- A reclaim that takes the memory backing of its owner off a route. -/
theorem shrinks_removeExactOwnerSourceRoute {item : OwnerReclaimItem} {removed : RemovedOwnerSource}
    (h : removeExactOwnerSourceRoute w.tombed w.routes owner item = (some removed, routes)) :
    ∃ route, w.routes item.key = some route ∧ Shrinks w item.key route routes
      (if removed.removedLastRoute then w.removals ++ [(item.key, item.putId)]
        else w.removals) := by
  revert h
  fun_cases removeExactOwnerSourceRoute w.tombed w.routes owner item <;> rintro ⟨⟩
  next route hroute hput _ hlookup _ _ _ _ _ _ _ _ =>
    refine ⟨route, hroute, ?_⟩
    rw [← not_not.1 hput]
    exact shrinks_of_replicas (tags_takeMemory hlookup)

/-- The cleanup of one route either changes nothing or takes a tombed replica off. -/
theorem shrinks_removeDepartedGenerationFromRoute (key : String) (nodeId : NodeID)
    (tag : NodeTombTag) :
    w.removeDepartedGenerationFromRoute key nodeId tag = (none, w.routes) ∨
      ∃ route, w.routes key = some route ∧
        Shrinks w key route (w.removeDepartedGenerationFromRoute key nodeId tag).2
          (w.removals ++ ((w.removeDepartedGenerationFromRoute key nodeId tag).1.map
            fun putId => (key, putId)).toList) := by
  rw [removeDepartedGenerationFromRoute]
  cases hroute : w.routes key with
  | none => exact .inl rfl
  | some route =>
    cases hlookup : route.nodeReplicas.lookup nodeId with
    | none => exact .inl (by simp [hlookup])
    | some replica =>
      simp only [hlookup]
      by_cases hmatch : (w.tombed replica.tombTag && decide (replica.tombTag = tag)) = true
      · refine .inr ⟨route, rfl, ?_⟩
        rw [if_pos hmatch]
        have hs := @shrinks_of_replicas w route key (route.nodeReplicas.erase nodeId)
          fun e' he' => ⟨e', mem_of_mem_erase he', rfl⟩
        cases hempty : (route.nodeReplicas.erase nodeId).entries.isEmpty with
        | true | false => simpa [hempty] using hs
      · exact .inl (by rw [if_neg hmatch])

/-! ## Steps keep the account -/

section

variable (h : Accounted w)
include h

theorem Accounted.publish {leaseId : Option ℕ} {publishTag : NodeTombTag}
    {replica : KvMemoryReplica} (hfresh : (key, putId) ∉ w.issued)
    (hlive : w.tombed publishTag = false) :
    Accounted { w with
      routes := update w.routes key
        (some ⟨putId, leaseId, AList.singleton nodeId ⟨publishTag, some replica, none⟩⟩)
      events := w.events ++ [(key, putId)]
      issued := w.issued ++ [(key, putId)] } := by
  have hroutes : ∀ {k r}, update w.routes key (some (OneKvNodesRoutes.mk putId leaseId
      (AList.singleton nodeId ⟨publishTag, some replica, none⟩))) k = some r →
      (k = key ∧ r.putId = putId ∧
        r.nodeReplicas.entries = [⟨nodeId, ⟨publishTag, some replica, none⟩⟩]) ∨
      w.routes k = some r := by
    intro k r hr
    by_cases hk : k = key
    · subst hk
      rw [update_self] at hr
      cases hr
      exact .inl ⟨rfl, rfl, rfl⟩
    · exact .inr (by rwa [update_of_ne hk] at hr)
  refine ⟨h.sound, ?_, ?_, ?_, ?_, ?_, ?_, ?_⟩
  · intro k u hu
    by_cases hk : k = key
    · subst hk
      exact .inl ⟨_, update_self ..⟩
    · rcases h.indexed k u hu with ⟨r, hr⟩ | hmem
      · exact .inl ⟨r, (update_of_ne hk _ _).trans hr⟩
      · exact .inr hmem
  · intro k r hr hliver
    rcases hroutes hr with ⟨rfl, hput, -⟩ | hr
    · exact .inl (by simp [hput])
    · exact (h.routed k r hr hliver).imp_left (mem_append_left _)
  · intro k r hr hmem
    rcases hroutes hr with ⟨rfl, hput, -⟩ | hr
    · exact hfresh (hput ▸ h.issuedRemovals _ hmem)
    · exact h.current k r hr hmem
  · intro k r hr
    rcases hroutes hr with ⟨rfl, hput, -⟩ | hr
    · simp [hput]
    · exact mem_append_left _ (h.issuedRoutes k r hr)
  · intro i hi
    exact mem_append_left _ (h.issuedRemovals i hi)
  · intro k r hr
    rcases hroutes hr with ⟨-, -, hentries⟩ | hr
    · simp [hentries]
    · exact h.nonempty k r hr
  · intro k r hr e he htomb
    rcases hroutes hr with ⟨-, -, hentries⟩ | hr
    · rw [hentries, mem_singleton] at he
      subst he
      exact absurd htomb (by simp [tombed] at hlive ⊢; exact hlive)
    · exact h.tombs k r hr e he htomb

theorem Accounted.memberLeft (tag : NodeTombTag) :
    Accounted { w with departed := w.departed ++ [tag], cleanups := w.cleanups ++ [tag] } := by
  refine ⟨h.sound, h.indexed, ?_, h.current, h.issuedRoutes, h.issuedRemovals, h.nonempty, ?_⟩
  · intro k r hr hlive
    refine h.routed k r hr ?_
    obtain ⟨e, he, hle⟩ := hasLiveReplica_iff.1 hlive
    refine hasLiveReplica_iff.2 ⟨e, he, ?_⟩
    simp only [tombed, mem_append, decide_eq_false_iff_not, not_or] at hle ⊢
    exact hle.1
  · intro k r hr e he htomb
    simp only [tombed, mem_append, mem_singleton, decide_eq_true_eq] at htomb
    rcases htomb with htomb | htomb
    · exact mem_append_left _ (h.tombs k r hr e he (by simp [tombed, htomb]))
    · exact mem_append_right _ (mem_singleton.2 htomb)

theorem Accounted.finishCleanup {tag : NodeTombTag}
    (hdone : (w.issued.all fun i => !(w.routes i.1).any (holdsTag · tag)) = true) :
    Accounted { w with cleanups := w.cleanups.filter (· ≠ tag) } := by
  refine ⟨h.sound, h.indexed, h.routed, h.current, h.issuedRoutes, h.issuedRemovals, h.nonempty, ?_⟩
  intro k r hr e he htomb
  have hne : e.2.tombTag ≠ tag := by
    intro heq
    have hkey := all_eq_true.1 hdone _ (h.issuedRoutes k r hr)
    have hholds : holdsTag r tag = true := any_eq_true.2 ⟨e, he, by simp [heq]⟩
    simp only [show w.routes k = some r from hr, any_some, hholds, Bool.not_true,
      Bool.false_eq_true] at hkey
  exact mem_filter.2 ⟨h.tombs k r hr e he htomb, by simp [hne]⟩

theorem Accounted.applyEvent (hcur : w.eventIsCurrent key putId = true)
    (hstep : ((w.index.insert key putId).toOption.map fun r =>
      { w with index := r.2, events := w.events.erase (key, putId) }) = some w') :
    Accounted w' := by
  obtain ⟨⟨b, t⟩, hins, rfl⟩ := map_eq_some_iff.1 hstep
  have hins : w.index.insert key putId = .ok (b, t) := by
    cases hr : w.index.insert key putId with
    | error e => rw [hr] at hins; cases hins
    | ok r => rw [hr] at hins; exact congrArg _ (Option.some.inj hins)
  obtain ⟨hsound, hversions, -⟩ := insert_spec h.sound hins
  obtain ⟨route, hroute, hput⟩ : ∃ route, w.routes key = some route ∧ route.putId = putId := by
    simp only [eventIsCurrent, Option.any_eq_true, Bool.and_eq_true, decide_eq_true_eq] at hcur
    obtain ⟨route, hroute, hput, -⟩ := hcur
    exact ⟨route, hroute, hput⟩
  refine ⟨hsound, ?_, ?_, h.current, h.issuedRoutes, h.issuedRemovals, h.nonempty, h.tombs⟩
  · intro k u hu
    by_cases hk : k = key
    · subst hk
      exact .inl ⟨route, hroute⟩
    · refine h.indexed k u ?_
      rwa [hversions, AList.lookup_insert_ne hk] at hu
  · intro k r hr hlive
    by_cases hk : k = key
    · subst hk
      obtain rfl : route = r := Option.some.inj (hroute.symm.trans hr)
      exact .inr (by rw [hversions, AList.lookup_insert, hput])
    · rw [hversions, AList.lookup_insert_ne hk]
      refine (h.routed k r hr hlive).imp_left fun hev => ?_
      exact (mem_erase_of_ne fun heq => hk (congrArg Prod.fst heq)).2 hev

theorem Accounted.dropEvent (hcur : ¬w.eventIsCurrent key putId = true) :
    Accounted { w with events := w.events.erase (key, putId) } := by
  refine ⟨h.sound, h.indexed, ?_, h.current, h.issuedRoutes, h.issuedRemovals, h.nonempty, h.tombs⟩
  intro k r hr hlive
  refine (h.routed k r hr hlive).imp_left fun hev => ?_
  refine (mem_erase_of_ne fun heq => hcur ?_).2 hev
  cases heq
  simp only [eventIsCurrent, Option.any_eq_true, Bool.and_eq_true, decide_eq_true_eq]
  exact ⟨r, hr, rfl, hlive⟩

theorem Accounted.applyRemoval (hmem : (key, putId) ∈ w.removals) : Accounted { w with
      removals := w.removals.erase (key, putId)
      index := (w.index.remove key putId).2 } := by
  have hsub : ∀ {i}, i ∈ w.removals.erase (key, putId) → i ∈ w.removals :=
    fun hi => List.mem_of_mem_erase hi
  have hcurrent : ∀ k route, w.routes k = some route →
      (k, route.putId) ∉ w.removals.erase (key, putId) :=
    fun k route hr hi => h.current k route hr (hsub hi)
  rcases remove_spec h.sound
      Prod.mk.eta.symm with
    ⟨-, hlookup, hsound, hversions⟩ | ⟨-, hlookup, hsame⟩
  · refine ⟨hsound, ?_, ?_, hcurrent, h.issuedRoutes, fun i hi => h.issuedRemovals i (hsub hi),
      h.nonempty, h.tombs⟩
    · intro k u hu
      rw [hversions] at hu
      by_cases hk : k = key
      · subst hk
        simp at hu
      · rw [AList.lookup_erase_ne hk] at hu
        refine (h.indexed k u hu).imp_right fun hi => ?_
        exact (mem_erase_of_ne fun heq => hk (congrArg Prod.fst heq)).2 hi
    · intro k r hr hlive
      rw [hversions]
      refine (h.routed k r hr hlive).imp_right fun hidx => ?_
      -- a queued removal never names the version of a route
      have hk : k ≠ key := by
        rintro rfl
        rw [hlookup, Option.some.injEq] at hidx
        exact h.current k r hr (hidx ▸ hmem)
      rwa [AList.lookup_erase_ne hk]
  · rw [hsame]
    refine ⟨h.sound, ?_, h.routed, hcurrent, h.issuedRoutes,
      fun i hi => h.issuedRemovals i (hsub hi), h.nonempty, h.tombs⟩
    intro k u hu
    refine (h.indexed k u hu).imp_right fun hi => ?_
    refine (mem_erase_of_ne fun heq => hlookup ?_).2 hi
    cases heq
    exact hu

theorem Accounted.step {e : Step} (hsettled : w.settledFirst e = true)
    (hstep : w.step e = some w') : Accounted w' := by
  revert hstep
  fun_cases IndexWorld.step w e <;> intro hstep <;> try cases hstep
  · exact h
  · next hissued htomb _ => exact h.publish hissued (by simpa using htomb)
  · exact h
  · next hroute => exact h.shrinks hroute hsettled .removed
  · exact h
  · next hrem =>
    obtain ⟨route, hroute, hs⟩ := shrinks_removeExactOwnerSourceRoute hrem
    exact h.shrinks hroute hsettled hs
  · exact h.memberLeft _
  · next key nodeId tag _ =>
    rcases shrinks_removeDepartedGenerationFromRoute key nodeId tag with
      heq | ⟨route, hroute, hs⟩
    · rw [heq, map_none, toList_none, append_nil]
      exact h
    · exact h.shrinks hroute hsettled hs
  · next hdone => exact h.finishCleanup hdone.2
  · next hcur => exact h.applyEvent hcur hstep
  · next hcur => exact h.dropEvent hcur
  · next hmem => exact h.applyRemoval hmem

end

/-! ## Agreement at quiescence -/

/-- The indexed keys are the keys with a live route. -/
def Agrees (w : IndexWorld) : Prop :=
  ∀ key, key ∈ w.index.indexed ↔ ∃ route, w.routes key = some route ∧ w.hasLiveReplica route = true

theorem Accounted.agrees (h : Accounted w) (hq : w.Quiescent) : Agrees w := by
  obtain ⟨hevents, hremovals, hcleanups⟩ := hq
  intro key
  rw [mem_indexed]
  constructor
  · rintro ⟨u, hu⟩
    rcases h.indexed key u hu with ⟨route, hroute⟩ | hmem
    · obtain ⟨e, he⟩ := exists_mem_of_ne_nil _ (h.nonempty key route hroute)
      refine ⟨route, hroute, hasLiveReplica_iff.2 ⟨e, he, ?_⟩⟩
      by_contra htomb
      have hpending := h.tombs key route hroute e he (by simpa using htomb)
      rw [hcleanups] at hpending
      cases hpending
    · rw [hremovals] at hmem
      cases hmem
  · rintro ⟨route, hroute, hlive⟩
    rcases h.routed key route hroute hlive with hev | hidx
    · rw [hevents] at hev
      cases hev
    · exact ⟨_, hidx⟩

/-- **The index agrees with the routes at quiescence**, in every run in which replicas are taken off
a route only while the index holds its key under no older version, or under one whose removal is
queued. -/
theorem prefix_index_agrees {es : List Step} {w : IndexWorld}
    (hrun : Run (Guarded (fun w e => w.settledFirst e = true) Steps) initial es w)
    (hq : w.Quiescent) : Agrees w := by
  have h : Accounted w := hrun.invariant
    (fun _ _ _ hs hstep => hs.step hstep.1 hstep.2) accounted_initial
  exact h.agrees hq

/-- A key is published, indexed, removed again, and its removal is applied. -/
def publishAndDelete : List Step :=
  [.publish "k" (1, 0) none "n" 0 ⟨.allocation ⟨0, 0, 1, 1⟩, false⟩, .applyEvent "k" (1, 0),
    .publish "k" (2, 0) none "n" 0 ⟨.allocation ⟨0, 0, 1, 1⟩, false⟩, .applyEvent "k" (2, 0),
    .delete "k", .applyRemoval "k" (2, 0)]

theorem prefix_index_agrees_publishAndDelete : ∃ w,
    Run (Guarded (fun w e => w.settledFirst e = true) Steps) initial publishAndDelete w ∧
      w.Quiescent ∧ Agrees w := by
  obtain ⟨w, hrun, hw⟩ := Run.exists_guarded_of_foldlM step initial publishAndDelete
    (fun w => w.events = [] ∧ w.removals = [] ∧ w.cleanups = []) settledFirst (by decide +kernel)
  exact ⟨w, hrun, hw, prefix_index_agrees hrun hw⟩

/-- The second version is deleted before its event is applied. -/
def overwriteThenDelete : List Step :=
  [.publish "k" (1, 0) none "n" 0 ⟨.allocation ⟨0, 0, 1, 1⟩, false⟩, .applyEvent "k" (1, 0),
    .publish "k" (2, 0) none "n" 0 ⟨.allocation ⟨0, 0, 1, 1⟩, false⟩, .delete "k",
    .applyRemoval "k" (2, 0), .applyEvent "k" (2, 0)]

/-- Nothing is queued, the key has no route, and it is still counted. -/
theorem overwrite_then_delete_leaves_key : ∃ w, Run Steps initial overwriteThenDelete w ∧
    w.Quiescent ∧ w.routes "k" = none ∧ w.index.countPrefix "k" = 1 ∧ ¬ Agrees w := by
  obtain ⟨w, hrun, hevents, hremovals, hcleanups, hnone, hcount, hlookup⟩ :=
    Run.exists_of_foldlM step initial overwriteThenDelete
      (fun w => w.events = [] ∧ w.removals = [] ∧ w.cleanups = [] ∧
        (w.routes "k").isNone = true ∧ w.index.countPrefix "k" = 1 ∧
        w.index.versions.lookup "k" = some (1, 0)) (by decide +kernel)
  rw [isNone_iff_eq_none] at hnone
  refine ⟨w, hrun, ⟨hevents, hremovals, hcleanups⟩, hnone, hcount, ?_⟩
  intro hagrees
  obtain ⟨route, hroute, -⟩ := (hagrees "k").1 (mem_indexed.2 ⟨_, hlookup⟩)
  rw [hnone] at hroute
  cases hroute

end IndexWorld

end Fluxon.Router
