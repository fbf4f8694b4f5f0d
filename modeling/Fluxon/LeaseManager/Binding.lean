import Fluxon.LeaseManager.Effect

/-!
# Bindings of leased routes

A put completion binds its key to the lease and publishes the route afterwards; the cleanup takes
the lease out of the map and deletes the keys that are bound at that moment. `Bound` says what
covers a leased route until then: it is bound in its lease, about to be replaced, or still to be
deleted by the cleanup. Put completions and the cleanup keep it under the condition
`survivalGuard`.
-/

namespace Fluxon.LeaseManager

open Router PutPhase Function Option

namespace PutPhase

/-- The put completion that has bound its key and has not returned. -/
def bound : PutPhase → Option PutCompletion
  | .attached put => some put
  | .inserted put _ => some put
  | .withdrawing put _ => some put
  | .rejected put => some put
  | _ => none

/-- The put completion has bound this key to this lease. -/
def binds (key : String) (id : LeaseID) (p : PutPhase) : Bool :=
  p.bound.any fun put => put.key = key && put.leaseId = some id

/-- The put completion has bound its key to the lease and not published it. -/
def awaits (id : LeaseID) : PutPhase → Bool
  | .attached put => put.leaseId = some id
  | _ => false

theorem binds_iff {key : String} {id : LeaseID} {p : PutPhase} :
    p.binds key id = true ↔ ∃ put, p.bound = some put ∧ put.key = key ∧ put.leaseId = some id := by
  simp [binds, any_eq_true]

end PutPhase

namespace CleanerPhase

/-- The lease that is being cleaned up. -/
def leaseId : CleanerPhase → Option LeaseID
  | .deleting id _ _ _ => some id
  | .deletingKey id _ _ _ _ _ => some id
  | _ => none

/-- The cleanup of the lease will still delete the version of the key. -/
def cleans (id : LeaseID) (key : String) (putId : PutIDForAKey) : CleanerPhase → Prop
  | .deleting id' _ keysLeft _ => id' = id ∧ keysLeft.lookup key = some putId
  | .deletingKey id' _ key' _ keysLeft _ =>
    id' = id ∧ (key' = key ∨ keysLeft.lookup key = some putId)
  | _ => False

theorem leaseId_of_cleans {id : LeaseID} {key : String} {putId : PutIDForAKey} {c : CleanerPhase}
    (h : c.cleans id key putId) : c.leaseId = some id := by
  cases c with
  | deleting | deletingKey => exact congrArg some h.1
  | idle | clocked | batch | condemned => exact h.elim

end CleanerPhase

namespace System

variable {s s' : System} {i : ℕ} {id : LeaseID} {key : String} {putId : PutIDForAKey}

/-! ## The condition -/

/-- Lease ids do not wrap; put completions that bind one key to one lease do not overlap; one is
rejected only if the lease has no route of its key; and the cleanup removes a lease only if no put
completion stands between binding a key to it and publishing. -/
def survivalGuard (s : System) : Event → Bool
  | .grant _ (.create _) => s.nextLeaseId < u64Max
  | .put i .prepare =>
    match s.puts[i]? with
    | some (.started put) => put.leaseId.all fun id => s.puts.all fun p => !p.binds put.key id
    | _ => true
  | .put i .publish =>
    match s.puts[i]? with
    | some (.attached put) =>
      put.leaseId.all fun id => !s.tombed put.publishTag ||
        (s.kvRoutes put.key).all fun route => route.leaseId ≠ some id
    | _ => true
  | .cleaner .remove =>
    match s.cleaner with
    | .condemned id _ => s.puts.all fun p => !p.awaits id
    | _ => true
  | _ => true

/-- The steps under `survivalGuard`. -/
abbrev SurvivalStep : System → Event → System → Prop :=
  Guarded (fun s e => s.survivalGuard e = true) Step

/-! ## The invariant -/

/-- The keys bound to a lease in the map. -/
def keysOf (s : System) (id : LeaseID) : Option (Table String PutIDForAKey) :=
  (s.leases id).map (·.keys)

/-- What happens to a version of a key when its lease ends. -/
inductive Covered (s : System) (key : String) (putId : PutIDForAKey) (id : LeaseID) : Prop
  | bound (keys : Table String PutIDForAKey) :
      s.keysOf id = some keys → keys.lookup key = some putId → Covered s key putId id
  | overwriting (i : ℕ) (put : PutCompletion) :
      s.puts[i]? = some (.attached put) → put.key = key → put.leaseId = some id →
      Covered s key putId id
  | cleaning : s.cleaner.cleans id key putId → Covered s key putId id

structure Bound (s : System) : Prop where
  routed : ∀ key route id, s.kvRoutes key = some route → route.leaseId = some id →
    Covered s key route.putId id
  attached : ∀ (i : ℕ) put id, s.puts[i]? = some (.attached put) → put.leaseId = some id →
    ∃ keys, s.keysOf id = some keys ∧ keys.lookup put.key = some put.putId
  placed : ∀ (i : ℕ) put object id route,
    s.puts[i]? = some (.inserted put object) ∨ s.puts[i]? = some (.withdrawing put object) →
    put.leaseId = some id → s.kvRoutes put.key = some route → route.leaseId = some id →
    route.object = object
  rejected : ∀ (i : ℕ) put id route, s.puts[i]? = some (.rejected put) → put.leaseId = some id →
    s.kvRoutes put.key = some route → route.leaseId ≠ some id
  single : ∀ (i j : ℕ) p q key id, s.puts[i]? = some p → s.puts[j]? = some q →
    p.binds key id = true → q.binds key id = true → i = j
  gone : ∀ id, s.cleaner.leaseId = some id → s.keysOf id = none ∧ s.cleaned id = false
  cleaned : ∀ id, s.cleaned id = true → s.keysOf id = none

theorem bound_initial : Bound initial where
  routed _ _ _ h := by cases h
  attached _ _ _ h := by cases h
  placed _ _ _ _ _ h := by
    cases h with
    | inl h | inr h => cases h
  rejected _ _ _ _ h := by cases h
  single _ _ _ _ _ _ h := by cases h
  gone _ h := by cases h
  cleaned _ h := by cases h

variable {p p' : PutPhase} {lease : Lease}

/-- What a put completion relies on in its phase. -/
def PutOk (s : System) : PutPhase → Prop
  | .attached put => ∀ id, put.leaseId = some id →
      ∃ keys, s.keysOf id = some keys ∧ keys.lookup put.key = some put.putId
  | .inserted put object | .withdrawing put object => ∀ id route, put.leaseId = some id →
      s.kvRoutes put.key = some route → route.leaseId = some id → route.object = object
  | .rejected put => ∀ id route, put.leaseId = some id → s.kvRoutes put.key = some route →
      route.leaseId ≠ some id
  | _ => True

theorem Bound.putOk (h : Bound s) (hi : s.puts[i]? = some p) : s.PutOk p := by
  cases p with
  | attached put => exact fun id => h.attached i put id hi
  | inserted put object => exact fun id route => h.placed i put object id route (.inl hi)
  | withdrawing put object => exact fun id route => h.placed i put object id route (.inr hi)
  | rejected put => exact fun id route => h.rejected i put id route hi
  | started | returned => trivial

theorem Bound.of_puts
    (hrouted : ∀ key route id, s.kvRoutes key = some route → route.leaseId = some id →
      Covered s key route.putId id)
    (hputs : ∀ (i : ℕ) p, s.puts[i]? = some p → s.PutOk p)
    (hsingle : ∀ (i j : ℕ) p q key id, s.puts[i]? = some p → s.puts[j]? = some q →
      p.binds key id = true → q.binds key id = true → i = j)
    (hgone : ∀ id, s.cleaner.leaseId = some id → s.keysOf id = none ∧ s.cleaned id = false)
    (hcleaned : ∀ id, s.cleaned id = true → s.keysOf id = none) : Bound s where
  routed := hrouted
  attached i _ id hi := hputs i _ hi id
  placed i _ _ id route hi := by
    cases hi with
    | inl hi | inr hi => exact hputs i _ hi id route
  rejected i _ id route hi := hputs i _ hi id route
  single := hsingle
  gone := hgone
  cleaned := hcleaned

theorem PutOk.mono (h : s.PutOk p) (hkeys : s'.keysOf = s.keysOf)
    (hroutes : ∀ key route, s'.kvRoutes key = some route → s.kvRoutes key = some route) :
    s'.PutOk p := by
  cases p with
  | attached put =>
    rw [PutOk, hkeys]
    exact h
  | inserted | withdrawing | rejected =>
    exact fun id route hid hroute => h id route hid (hroutes _ _ hroute)
  | started | returned => trivial

theorem Covered.frame (h : Covered s key putId id) (hkeys : s'.keysOf id = s.keysOf id)
    (hputs : ∀ (i : ℕ) put, s.puts[i]? = some (.attached put) → put.key = key →
      put.leaseId = some id → s'.puts[i]? = some (.attached put))
    (hcleans : s.cleaner.cleans id key putId → s'.cleaner.cleans id key putId) :
    Covered s' key putId id := by
  cases h with
  | bound keys hkeysOf hlookup => exact .bound keys (hkeys.trans hkeysOf) hlookup
  | overwriting i put hi hkey hid => exact .overwriting i put (hputs i put hi hkey hid) hkey hid
  | cleaning h => exact .cleaning (hcleans h)

/-- The cleanup moves on, and what it has still to delete it keeps. -/
theorem Bound.clean (h : Bound s) (hkeys : s'.keysOf = s.keysOf) (hputs : s'.puts = s.puts)
    (hroutes : ∀ key route, s'.kvRoutes key = some route → s.kvRoutes key = some route)
    (hcleans : ∀ key route id, s'.kvRoutes key = some route → route.leaseId = some id →
      s.cleaner.cleans id key route.putId → s'.cleaner.cleans id key route.putId)
    (hgone : ∀ id, s'.cleaner.leaseId = some id → s.keysOf id = none ∧ s'.cleaned id = false)
    (hcleaned : ∀ id, s'.cleaned id = true → s.keysOf id = none) : Bound s' := by
  refine .of_puts (fun key route id hroute hid => ?_) (fun i p hi => ?_) ?_ ?_ ?_
  · refine (h.routed key route id (hroutes key route hroute) hid).frame (by rw [hkeys]) ?_
      (hcleans key route id hroute hid)
    rw [hputs]
    exact fun _ _ hi _ _ => hi
  · rw [hputs] at hi
    exact (h.putOk hi).mono hkeys hroutes
  · rw [hputs]
    exact h.single
  · rw [hkeys]
    exact hgone
  · rw [hkeys]
    exact hcleaned

/-- A step that publishes nothing and leaves bindings, put completions and cleanup alone. -/
theorem Bound.frame (h : Bound s)
    (hroutes : ∀ key route, s'.kvRoutes key = some route → s.kvRoutes key = some route := by
      exact fun _ _ h => h)
    (hkeys : s'.keysOf = s.keysOf := by rfl) (hputs : s'.puts = s.puts := by rfl)
    (hcleaner : s'.cleaner = s.cleaner := by rfl) (hcleaned : s'.cleaned = s.cleaned := by rfl) :
    Bound s' := by
  refine h.clean hkeys hputs hroutes (fun key route id _ _ hcleans => ?_) (fun id hid => ?_)
    fun id hid => ?_
  · rw [hcleaner]
    exact hcleans
  · rw [hcleaner] at hid
    rw [hcleaned]
    exact h.gone id hid
  · rw [hcleaned] at hid
    exact h.cleaned id hid

/-! ## Put completions -/

theorem getElem?_set_puts (hi : s.puts[i]? = some p) (p' : PutPhase) (j : ℕ) :
    (s.puts.set i p')[j]? = if j = i then some p' else s.puts[j]? := by
  have hlt : i < s.puts.length := (List.getElem?_eq_some_iff.1 hi).1
  by_cases hij : i = j
  · simp [hij, hij ▸ hlt]
  · simp [hij, Ne.symm hij]

variable (h : Bound s)
include h

/-- A thread that binds nothing new keeps put completions from overlapping. -/
theorem Bound.single_set (hi : s.puts[i]? = some p)
    (hbound : ∀ put, p'.bound = some put → put.leaseId ≠ none → p.bound = some put) (j k : ℕ)
    (q r : PutPhase) (hj : (s.puts.set i p')[j]? = some q) (hk : (s.puts.set i p')[k]? = some r)
    (hq : q.binds key id = true) (hr : r.binds key id = true) : j = k := by
  -- whoever binds the key after the step has bound it before
  have hbefore : ∀ (j : ℕ) q, (s.puts.set i p')[j]? = some q → q.binds key id = true →
      ∃ q', s.puts[j]? = some q' ∧ q'.binds key id = true := by
    intro j q hj hq
    rw [getElem?_set_puts hi] at hj
    split at hj
    · next hij =>
      cases hj
      obtain ⟨put, hput, hkey, hlease⟩ := binds_iff.1 hq
      have hput' := hbound put hput (by simp [hlease])
      rw [hij]
      exact ⟨p, hi, binds_iff.2 ⟨put, hput', hkey, hlease⟩⟩
    · exact ⟨q, hj, hq⟩
  obtain ⟨q', hj', hq'⟩ := hbefore j q hj hq
  obtain ⟨r', hk', hr'⟩ := hbefore k r hk hr
  exact h.single j k q' r' key id hj' hk' hq' hr'

/-- A put completion moves on without publishing or binding anything. If it gives up its
publication, its lease has no route of its key. -/
theorem Bound.setPut (hi : s.puts[i]? = some p) (hputs : s'.puts = s.puts.set i p')
    (hgiveUp : ∀ put id route, p = .attached put → put.leaseId = some id →
      s'.kvRoutes put.key = some route → route.leaseId ≠ some id)
    (hp' : s'.PutOk p')
    (hbound : ∀ put, p'.bound = some put → put.leaseId ≠ none → p.bound = some put := by
      exact fun _ hput _ => hput)
    (hroutes : ∀ key route, s'.kvRoutes key = some route → s.kvRoutes key = some route := by
      exact fun _ _ h => h)
    (hkeys : s'.keysOf = s.keysOf := by rfl) (hcleaner : s'.cleaner = s.cleaner := by rfl)
    (hcleaned : s'.cleaned = s.cleaned := by rfl) : Bound s' := by
  refine .of_puts (fun key route id hroute hid => ?_) (fun j q hj => ?_)
    (fun j k q r key id hj hk hq hr => ?_) ?_ ?_
  · refine (h.routed key route id (hroutes key route hroute) hid).frame (by rw [hkeys])
      (fun j put hj hkey hlease => ?_) fun hcleans => by rw [hcleaner]; exact hcleans
    by_cases hij : j = i
    · rw [hij, hi] at hj
      rw [← hkey] at hroute
      exact (hgiveUp put id route (some.inj hj) hlease hroute hid).elim
    · rw [hputs, getElem?_set_puts hi, if_neg hij]
      exact hj
  · rw [hputs, getElem?_set_puts hi] at hj
    split at hj
    · cases hj
      exact hp'
    · exact (h.putOk hj).mono hkeys hroutes
  · rw [hputs] at hj hk
    exact h.single_set hi hbound j k q r hj hk hq hr
  · rw [hcleaner, hkeys, hcleaned]
    exact h.gone
  · rw [hcleaned, hkeys]
    exact h.cleaned

/-- The route of an attached put completion is published. -/
theorem Bound.publish {put : PutCompletion} (hi : s.puts[i]? = some (.attached put))
    (hp' : p' = .returned ∨ p' = .inserted put s.nextObject) :
    Bound ((s.setPut i p').insertRoute put) := by
  have hbound : ∀ put', p'.bound = some put' → put'.leaseId ≠ none →
      (PutPhase.attached put).bound = some put' := by
    intro put' hput' _
    cases hp' with
    | inl hp' => simp [hp', bound] at hput'
    | inr hp' => simpa [hp', bound] using hput'
  -- another put completion with this key does not share the lease
  have hother : ∀ (j : ℕ) q put' id, j ≠ i → s.puts[j]? = some q → q.bound = some put' →
      put'.leaseId = some id → put'.key = put.key → put.leaseId ≠ some id := by
    intro j q put' id hij hj hq hid' hkey hid
    apply hij
    apply h.single j i q _ put.key id hj hi
    · exact binds_iff.2 ⟨put', hq, hkey, hid'⟩
    · exact binds_iff.2 ⟨put, rfl, rfl, hid⟩
  refine .of_puts (fun key route id hroute hid => ?_) (fun j q hj => ?_)
    (fun j k q r key id hj hk hq hr => h.single_set hi hbound j k q r hj hk hq hr) h.gone h.cleaned
  · simp only [insertRoute] at hroute
    by_cases hkey : key = put.key
    · rw [hkey, update_self] at hroute
      cases hroute
      obtain ⟨keys, hkeys, hlookup⟩ := h.attached i put id hi hid
      rw [hkey]
      exact .bound keys hkeys hlookup
    · rw [update_of_ne hkey] at hroute
      refine (h.routed key route id hroute hid).frame rfl (fun j put' hj hkey' _ => ?_) fun h => h
      have hij : j ≠ i := by
        intro hij
        rw [hij, hi] at hj
        cases hj
        exact hkey hkey'.symm
      exact (getElem?_set_puts hi _ j).trans ((if_neg hij).trans hj)
  · simp only [insertRoute, System.setPut, getElem?_set_puts hi] at hj
    split at hj
    · cases hj
      rcases hp' with rfl | rfl
      · trivial
      · intro id route hid hroute _
        simp only [insertRoute, update_self, some.injEq] at hroute
        rw [← hroute]
        rfl
    · next hij =>
      have hq := h.putOk hj
      cases q with
      | attached put' => exact hq
      | inserted put' | withdrawing put' | rejected put' =>
        intro id route hid hroute hlease
        simp only [insertRoute] at hroute
        by_cases hkey : put'.key = put.key
        · rw [hkey, update_self] at hroute
          cases hroute
          exact (hother j _ put' id hij hj rfl hid hkey hlease).elim
        · rw [update_of_ne hkey] at hroute
          exact hq id route hid hroute hlease
      | started | returned => trivial

/-- A put completion binds its key, which no other one is about to do. -/
theorem Bound.attach {put : PutCompletion} (hi : s.puts[i]? = some (.started put))
    (hid : put.leaseId = some id) (hlease : s.leases id = some lease)
    (hfree : ∀ p ∈ s.puts, p.binds put.key id = false) :
    Bound { s.setPut i (.attached put) with
      leases := update s.leases id
        (some { lease with keys := AList.insert put.key put.putId lease.keys }) } := by
  have hkeys : ∀ id', (update s.leases id
      (some { lease with keys := AList.insert put.key put.putId lease.keys }) id').map (·.keys) =
      if id' = id then some (AList.insert put.key put.putId lease.keys) else s.keysOf id' := by
    intro id'
    by_cases hsame : id' = id
    · simp [hsame]
    · simp [hsame, keysOf]
  have hold : s.keysOf id = some lease.keys := by simp [keysOf, hlease]
  have hother : ∀ {id' keys}, s.keysOf id' = none → ite (id' = id) keys (s.keysOf id') = none := by
    intro id' keys hnone
    rw [if_neg, hnone]
    intro hsame
    rw [hsame, hold] at hnone
    cases hnone
  refine .of_puts (fun key route id' hroute hid' => ?_) (fun j q hj => ?_)
    (fun j k q r key id' hj hk hq hr => ?_) (fun id' hid' => ?_) fun id' hid' => ?_
  · by_cases hhere : key = put.key ∧ id' = id
    · refine .overwriting i put ?_ hhere.1.symm (by rw [hid, hhere.2])
      exact (getElem?_set_puts hi _ i).trans (if_pos rfl)
    have hputs : ∀ (j : ℕ) put', s.puts[j]? = some (.attached put') →
        (s.puts.set i (.attached put))[j]? = some (.attached put') := by
      intro j put' hj
      have hij : j ≠ i := by
        intro hij
        rw [hij, hi] at hj
        cases hj
      rw [getElem?_set_puts hi, if_neg hij]
      exact hj
    by_cases hsame : id' = id
    · cases h.routed key route id' hroute hid' with
      | bound keys hkeys' hlookup =>
        have hkey : key ≠ put.key := fun hkey => hhere ⟨hkey, hsame⟩
        rw [hsame, hold] at hkeys'
        cases hkeys'
        refine .bound (AList.insert put.key put.putId lease.keys) ?_ ?_
        · rw [keysOf, hkeys, if_pos hsame]
        · rw [Table.lookup_insert_eq, if_neg hkey]
          exact hlookup
      | overwriting j put' hj hkey hlease' =>
        exact .overwriting j put' (hputs j put' hj) hkey hlease'
      | cleaning hcleans => exact .cleaning hcleans
    · refine (h.routed key route id' hroute hid').frame ?_ (fun j put' hj _ _ => hputs j put' hj)
        fun h => h
      exact (hkeys id').trans (if_neg hsame)
  · simp only [System.setPut, getElem?_set_puts hi] at hj
    split at hj
    · cases hj
      intro id' hid'
      have hsame : id' = id := some.inj (hid'.symm.trans hid)
      rw [keysOf, hkeys]
      refine ⟨_, if_pos hsame, ?_⟩
      rw [Table.lookup_insert_eq, if_pos rfl]
    · have hq := h.putOk hj
      cases q with
      | attached put' =>
        intro id' hid'
        rw [keysOf, hkeys]
        obtain ⟨keys, hkeys', hlookup⟩ := hq id' hid'
        by_cases hsame : id' = id
        · rw [hsame, hold] at hkeys'
          cases hkeys'
          have hkey : put'.key ≠ put.key := by
            intro hkey
            have hbinds := hfree _ (List.mem_of_getElem? hj)
            rw [hsame] at hid'
            simp [binds, bound, hkey, hid'] at hbinds
          refine ⟨_, if_pos hsame, ?_⟩
          rw [Table.lookup_insert_eq, if_neg hkey]
          exact hlookup
        · exact ⟨keys, by rw [if_neg hsame]; exact hkeys', hlookup⟩
      | inserted | withdrawing | rejected | started | returned => exact hq
  · simp only [System.setPut, getElem?_set_puts hi] at hj hk
    -- the new binding meets no other one
    have hnew : ∀ (k : ℕ) r, s.puts[k]? = some r → r.binds key id' = true →
        (PutPhase.attached put).binds key id' = true → False := by
      intro k r hk hr hnew
      obtain ⟨put', hput', hkey, hlease'⟩ := PutPhase.binds_iff.1 hnew
      cases hput'
      have hsame : id' = id := some.inj (hlease'.symm.trans hid)
      have hbinds := hfree r (List.mem_of_getElem? hk)
      rw [← hkey, hsame, hbinds] at hr
      cases hr
    by_cases hij : j = i
    · by_cases hik : k = i
      · rw [hij, hik]
      · rw [if_pos hij] at hj
        rw [if_neg hik] at hk
        cases hj
        exact (hnew k r hk hr hq).elim
    · rw [if_neg hij] at hj
      by_cases hik : k = i
      · rw [if_pos hik] at hk
        cases hk
        exact (hnew j q hj hq hr).elim
      · rw [if_neg hik] at hk
        exact h.single j k q r key id' hj hk hq hr
  · obtain ⟨hnone, hcleaned⟩ := h.gone id' hid'
    exact ⟨(hkeys id').trans (hother hnone), hcleaned⟩
  · exact (hkeys id').trans (hother (h.cleaned id' hid'))

/-- The binding of a key that its lease has no route of, and that no put completion is about to
publish, can go. -/
theorem Bound.unbind (hroute : ∀ route, s.kvRoutes key = some route → route.leaseId ≠ some id)
    (hfree : ∀ (j : ℕ) put, s.puts[j]? = some (.attached put) → put.key = key →
      put.leaseId ≠ some id) : Bound { s with leases := s.detachKeyIfVersion id key putId } := by
  -- any other binding stays
  have hkeep : ∀ id' key' putId' keys, ¬ (key' = key ∧ id' = id) → s.keysOf id' = some keys →
      keys.lookup key' = some putId' →
      ∃ keys', (s.detachKeyIfVersion id key putId id').map (·.keys) = some keys' ∧
        keys'.lookup key' = some putId' := by
    intro id' key' putId' keys hne hkeys hlookup
    obtain ⟨lease, hlease, rfl⟩ := map_eq_some_iff.1 hkeys
    by_cases hid : id' = id
    · have hkey : key' ≠ key := fun hkey => hne ⟨hkey, hid⟩
      refine ⟨(lease.detachKeyIfVersion key putId).keys, ?_, ?_⟩
      · rw [hid] at hlease
        simp [detachKeyIfVersion_apply, hid, hlease]
      · rw [Lease.lookup_detachKeyIfVersion, if_neg fun hboth => hkey hboth.1]
        exact hlookup
    · refine ⟨lease.keys, ?_, hlookup⟩
      simp [detachKeyIfVersion_apply, hid, hlease]
  have hnone : ∀ id', s.keysOf id' = none →
      (s.detachKeyIfVersion id key putId id').map (·.keys) = none := by
    intro id' hkeys
    have hlease : s.leases id' = none := map_eq_none_iff.1 hkeys
    rw [detachKeyIfVersion_apply]
    split
    · next hid =>
      rw [hid] at hlease
      simp [hlease]
    · simp [hlease]
  refine .of_puts (fun key' route id' hroute' hid' => ?_) (fun j q hj => ?_) h.single ?_ ?_
  · cases h.routed key' route id' hroute' hid' with
    | bound keys hkeys hlookup =>
      have hne : ¬ (key' = key ∧ id' = id) := by
        intro hboth
        rw [hboth.1] at hroute'
        rw [hboth.2] at hid'
        exact hroute route hroute' hid'
      obtain ⟨keys', hkeys', hlookup'⟩ := hkeep id' key' route.putId keys hne hkeys hlookup
      exact .bound keys' hkeys' hlookup'
    | overwriting j put hj hkey hlease => exact .overwriting j put hj hkey hlease
    | cleaning hcleans => exact .cleaning hcleans
  · have hq := h.putOk hj
    cases q with
    | attached put =>
      intro id' hid'
      obtain ⟨keys, hkeys, hlookup⟩ := hq id' hid'
      apply hkeep id' put.key put.putId keys _ hkeys hlookup
      intro hboth
      rw [hboth.2] at hid'
      exact hfree j put hj hboth.1 hid'
    | inserted | withdrawing | rejected | started | returned => exact hq
  · intro id' hid'
    exact ⟨hnone id' (h.gone id' hid').1, (h.gone id' hid').2⟩
  · intro id' hid'
    exact hnone id' (h.cleaned id' hid')

/-- A put completion that has not bound its key, or has nothing to take back, returns. -/
theorem Bound.returned (hi : s.puts[i]? = some p) (hp : ∀ put, p ≠ .attached put) :
    Bound (s.setPut i .returned) := by
  refine h.setPut hi rfl ?_ trivial (by simp [bound])
  intro put id route hput
  exact (hp put hput).elim

/-- A rejected put completion takes its binding back. -/
theorem Bound.detach {put : PutCompletion} (hi : s.puts[i]? = some (.rejected put))
    (hid : put.leaseId = some id) :
    Bound { s.setPut i .returned with
      leases := s.detachKeyIfVersion id put.key put.putId } := by
  apply (h.returned hi (by simp)).unbind
  · intro route hroute
    exact h.rejected i put id route hi hid hroute
  intro j put' hj hkey hid'
  simp only [System.setPut] at hj
  rw [getElem?_set_puts hi] at hj
  split at hj
  · cases hj
  · next hij =>
    apply hij
    apply h.single j i _ _ put.key id hj hi
    · exact binds_iff.2 ⟨put', rfl, hkey, hid'⟩
    · exact binds_iff.2 ⟨put, rfl, rfl, hid⟩

/-- A put completion starts. -/
theorem Bound.startPut {put : PutCompletion} :
    Bound { s with puts := s.puts ++ [.started put] } := by
  have hbefore : ∀ (j : ℕ) p, (s.puts ++ [started put])[j]? = some p →
      s.puts[j]? = some p ∨ p = .started put := by
    intro j p hj
    rw [List.getElem?_append] at hj
    split at hj
    · exact .inl hj
    · have hnew := List.mem_of_getElem? hj
      exact .inr (List.mem_singleton.1 hnew)
  have hafter : ∀ (j : ℕ) p, s.puts[j]? = some p → (s.puts ++ [started put])[j]? = some p := by
    intro j p hj
    rw [List.getElem?_append_left (List.getElem?_eq_some_iff.1 hj).1]
    exact hj
  have hbinds : ∀ (j : ℕ) p key id, (s.puts ++ [started put])[j]? = some p →
      p.binds key id = true → s.puts[j]? = some p := by
    intro j p key id hj hp
    cases hbefore j p hj with
    | inl hold => exact hold
    | inr hnew =>
      rw [hnew] at hp
      cases hp
  refine .of_puts (fun key route id hroute hid => ?_) (fun j p hj => ?_)
    (fun j k p q key id hj hk hp hq => ?_) h.gone h.cleaned
  · exact (h.routed key route id hroute hid).frame rfl (fun j _ hj _ _ => hafter j _ hj) fun h => h
  · rcases hbefore j p hj with hold | rfl
    · exact (h.putOk hold).mono rfl fun _ _ h => h
    · trivial
  · exact h.single j k p q key id (hbinds j p key id hj hp) (hbinds k q key id hk hq) hp hq

theorem Bound.put {e : PutEvent} (hguard : s.survivalGuard (.put i e) = true)
    (hstep : PutEffect s i e s') : Bound s' := by
  cases hstep with
  | fail _ hphase | refuse _ hphase | recheck _ _ hphase | finish _ hphase =>
    exact h.returned hphase (by simp)
  | unleased put hphase hlease =>
    refine h.setPut hphase rfl nofun (by simp [PutOk, hlease]) ?_
    intro put' hput' hne
    cases hput'
    exact (hne hlease).elim
  | attach put id lease hphase hid hlease =>
    apply h.attach hphase hid hlease
    simpa [survivalGuard, hphase, hid] using hguard
  | reject put hphase htomb =>
    have hroute : ∀ id route, put.leaseId = some id → s.kvRoutes put.key = some route →
        route.leaseId ≠ some id := by
      intro id route hid hroute
      simpa [survivalGuard, hphase, htomb, hid, hroute] using hguard
    refine h.setPut hphase rfl ?_ hroute
    intro put' id route hput'
    cases hput'
    exact hroute id route
  | replace put route hphase hlive hroute => exact h.publish hphase (.inl rfl)
  | insert put hphase hlive hroute => exact h.publish hphase (.inr rfl)
  | recheckFailed put object hphase => exact h.setPut hphase rfl nofun (h.putOk hphase)
  | withdraw put object route hphase hroute hobject =>
    refine h.setPut hphase rfl nofun ?_ (fun _ hput' _ => hput') ?_
    · intro id route' _ hroute'
      simp at hroute'
    · intro key route' hroute'
      by_cases hkey : key = put.key
      · simp [hkey] at hroute'
      · simpa [hkey] using hroute'
  | overtaken put object hphase hother =>
    refine h.setPut hphase rfl nofun ?_
    intro id route hid hroute hlease
    -- a route of the lease would be the one that is withdrawn
    exact hother route hroute (h.putOk hphase id route hid hroute hlease)
  | detach put id hphase hid => exact h.detach hphase hid

/-! ## Cleanup -/

/-- The cleanup moves on between two leases. -/
theorem Bound.between {c : CleanerPhase} (hkeys : s'.keysOf = s.keysOf) (hputs : s'.puts = s.puts)
    (hroutes : s'.kvRoutes = s.kvRoutes) (hcleaned : s'.cleaned = s.cleaned)
    (hbefore : s.cleaner.leaseId = none) (hcleaner : s'.cleaner = c)
    (hafter : c.leaseId = none) : Bound s' := by
  refine h.clean hkeys hputs (fun key route hroute => ?_) (fun key route id _ _ hcleans => ?_)
    (fun id hid => ?_) (fun id hid => ?_)
  · rw [hroutes] at hroute
    exact hroute
  · have hid := CleanerPhase.leaseId_of_cleans hcleans
    rw [hbefore] at hid
    cases hid
  · rw [hcleaner, hafter] at hid
    cases hid
  · rw [hcleaned] at hid
    exact h.cleaned id hid

/-- The lease goes out of the map while nobody is about to publish under it. -/
theorem Bound.remove {due : List (ℕ ×ₗ LeaseID)} (hphase : s.cleaner = .condemned id due)
    (hlease : s.leases id = some lease) (hfree : ∀ p ∈ s.puts, p.awaits id = false) :
    Bound { s with
      leases := update s.leases id none
      cleaner := .deleting id lease lease.keys due } := by
  have hkeys : ∀ id', (update s.leases id none id').map (·.keys) =
      if id' = id then none else s.keysOf id' := by
    intro id'
    by_cases hsame : id' = id
    · simp [hsame]
    · simp [hsame, keysOf]
  have hold : s.keysOf id = some lease.keys := by simp [keysOf, hlease]
  have hawaits : ∀ (j : ℕ) put, s.puts[j]? = some (.attached put) → put.leaseId ≠ some id := by
    intro j put hj hid
    have hnot := hfree _ (List.mem_of_getElem? hj)
    simp [awaits, hid] at hnot
  refine .of_puts (fun key route id' hroute hid' => ?_) (fun j q hj => ?_) h.single
    (fun id' hid' => ?_) fun id' hid' => ?_
  · cases h.routed key route id' hroute hid' with
    | bound keys hkeys' hlookup =>
      by_cases hsame : id' = id
      · rw [hsame, hold] at hkeys'
        cases hkeys'
        exact .cleaning ⟨hsame.symm, hlookup⟩
      · refine .bound keys ?_ hlookup
        rw [keysOf, hkeys, if_neg hsame]
        exact hkeys'
    | overwriting j put hj hkey hlease' => exact .overwriting j put hj hkey hlease'
    | cleaning hcleans =>
      rw [hphase] at hcleans
      exact hcleans.elim
  · have hq := h.putOk hj
    cases q with
    | attached put =>
      intro id' hid'
      have hne : id' ≠ id := by
        intro hsame
        rw [hsame] at hid'
        exact hawaits j put hj hid'
      rw [keysOf, hkeys, if_neg hne]
      exact hq id' hid'
    | inserted | withdrawing | rejected | started | returned => exact hq
  · have hsame : id' = id := (some.inj hid').symm
    refine ⟨by rw [keysOf, hkeys, if_pos hsame], ?_⟩
    cases hcleaned : s.cleaned id' with
    | false => rfl
    | true =>
      have hnone := h.cleaned id' hcleaned
      rw [hsame, hold] at hnone
      cases hnone
  · rw [keysOf, hkeys]
    split
    · rfl
    · exact h.cleaned id' hid'

theorem Bound.cleaner {e : CleanerEvent} (hguard : s.survivalGuard (.cleaner e) = true)
    (hstep : CleanerEffect s e s') : Bound s' := by
  cases hstep with
  | clock hphase | collect _ hphase | pass _ _ hphase | gone _ _ hphase | sleep hphase
  | condemn _ _ _ hphase => exact h.between rfl rfl rfl rfl (by rw [hphase]; rfl) rfl rfl
  | remove id due lease hphase hguards hlease =>
    apply h.remove hphase hlease
    simpa [survivalGuard, hphase] using hguard
  | select id lease key oldPutId keysLeft due hphase hbound hdelete =>
    refine h.clean rfl rfl (fun _ _ h => h) (fun key' route id' hroute hid' hcleans => ?_)
      (fun id' hid' => ?_) h.cleaned
    · rw [hphase] at hcleans
      refine ⟨hcleans.1, ?_⟩
      by_cases hkey : key' = key
      · exact .inl hkey.symm
      · right
        rw [Table.lookup_erase_eq, if_neg hkey]
        exact hcleans.2
    · apply h.gone
      rw [hphase]
      exact hid'
  | skip id lease key oldPutId route keysLeft due hphase hbound hroute hother =>
    refine h.clean rfl rfl (fun _ _ h => h) (fun key' route' id' hroute' hid' hcleans => ?_)
      (fun id' hid' => ?_) h.cleaned
    · rw [hphase] at hcleans
      refine ⟨hcleans.1, ?_⟩
      have hkey : key' ≠ key := by
        -- the version of the route would be the bound one
        intro hkey
        have hlookup := hcleans.2
        rw [hkey, hbound] at hlookup
        have hsame : route' = route := by
          rw [hkey] at hroute'
          exact some.inj (hroute'.symm.trans hroute)
        rw [hsame] at hlookup
        exact hother (some.inj hlookup).symm
      rw [Table.lookup_erase_eq, if_neg hkey]
      exact hcleans.2
    · apply h.gone
      rw [hphase]
      exact hid'
  | deleteKey id lease key oldPutId keysLeft due hphase =>
    refine h.clean rfl rfl (fun _ _ => routes_delete)
      (fun key' route id' hroute hid' hcleans => ?_) (fun id' hid' => ?_) h.cleaned
    · rw [hphase] at hcleans
      refine ⟨hcleans.1, ?_⟩
      cases hcleans.2 with
      | inl hkey => simp [doDeleteOneKvAllReplicas, hkey] at hroute
      | inr hlookup => exact hlookup
    · apply h.gone
      rw [hphase]
      exact hid'
  | finish id lease keysLeft due hphase hempty =>
    refine h.clean rfl rfl (fun _ _ h => h) (fun key route id' hroute hid' hcleans => ?_)
      (fun id' hid' => ?_) (fun id' hid' => ?_)
    · rw [hphase] at hcleans
      have hlookup := hcleans.2
      rw [hempty key] at hlookup
      cases hlookup
    · cases hid'
    by_cases hsame : id' = id
    · rw [hsame]
      apply (h.gone id _).1
      rw [hphase]
      rfl
    · apply h.cleaned
      simpa [hsame] using hid'

end System

end Fluxon.LeaseManager
