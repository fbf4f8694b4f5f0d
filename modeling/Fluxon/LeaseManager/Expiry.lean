import Fluxon.LeaseManager.Effect

/-!
# Expiry of leases

No lease is forgotten: whenever a lease is in the map, the heap or a thread on its way to the heap
or to the removal has its current expiration time (`tracked_of_run`), over every run.

No lease is removed early, as long as no keepalive overflows and none comes between the cleanup's
look at the lease and its removal (`lease_expiry_exact`). Both conditions are needed
(`lease_removed_early`): `refresh` adds and multiplies unchecked where `Lease::new` saturates, and
the removal does not look at the expiration time again.
-/

namespace Fluxon.LeaseManager

open Router CleanerPhase Function Option List MinHeap

namespace CleanerPhase

/-- The heap entries that the cleanup has taken and not looked at. -/
def due : CleanerPhase → List (ℕ ×ₗ LeaseID)
  | .idle => []
  | .clocked _ => []
  | .batch due => due
  | .condemned _ due => due
  | .deleting _ _ _ due => due
  | .deletingKey _ _ _ _ _ due => due

/-- The cleanup has found the lease expired and has not removed it. -/
def condemns (id : LeaseID) : CleanerPhase → Bool
  | .condemned id' _ => id' = id
  | _ => false

end CleanerPhase

namespace System

variable {s s' : System} {i : ℕ} {id : LeaseID} {t : ℕ}

/-- No grant, keepalive or cleanup is in progress. -/
def Quiescent (s : System) : Prop :=
  (∀ i, s.grants i = .idle) ∧ (∀ i, s.keepalives i = .idle) ∧ s.cleaner = .idle

/-! ## No lease is forgotten -/

/-- Somebody knows about the expiration time of a lease: the heap, the cleanup, or a thread that
still puts it on the heap. -/
inductive Tracked (s : System) (id : LeaseID) (t : ℕ) : Prop
  | heap : toLex (t, id) ∈ s.expireHeap → Tracked s id t
  | due : toLex (t, id) ∈ s.cleaner.due → Tracked s id t
  | condemned : s.cleaner.condemns id = true → Tracked s id t
  | grant (i : ℕ) : s.grants i = .inserted id ∨ s.grants i = .measured id t → Tracked s id t
  | keepalive (i : ℕ) :
      s.keepalives i = .stored id ∨ s.keepalives i = .measured id t → Tracked s id t

theorem Tracked.frame (h : Tracked s id t)
    (hgrants : ∀ i, s.grants i = .inserted id ∨ s.grants i = .measured id t →
      s'.grants i = s.grants i := by exact fun _ _ => rfl)
    (hkeepalives : ∀ i, s.keepalives i = .stored id ∨ s.keepalives i = .measured id t →
      s'.keepalives i = s.keepalives i := by exact fun _ _ => rfl)
    (hheap : ∀ e, e ∈ s.expireHeap → e ∈ s'.expireHeap := by exact fun _ he => he)
    (hcleaner : s'.cleaner = s.cleaner := by rfl) : Tracked s' id t := by
  cases h with
  | heap h => exact .heap (hheap _ h)
  | due h =>
    apply Tracked.due
    rw [hcleaner]
    exact h
  | condemned h =>
    apply Tracked.condemned
    rw [hcleaner]
    exact h
  | grant i h =>
    apply Tracked.grant i
    rw [hgrants i h]
    exact h
  | keepalive i h =>
    apply Tracked.keepalive i
    rw [hkeepalives i h]
    exact h

/-- Every lease in the map is tracked under its current expiration time. -/
def AllTracked (s : System) : Prop :=
  ∀ id lease, s.leases id = some lease → Tracked s id lease.expirationTime

/-- A thread that tracks nothing may change its phase. -/
theorem update_of_untracked {β : Type} {f : ℕ → β} {a b p : β} (hne : f i ≠ a ∧ f i ≠ b) (j : ℕ)
    (hj : f j = a ∨ f j = b) : update f i p j = f j := by
  apply update_of_ne
  intro hij
  rw [hij] at hj
  cases hj with
  | inl h => exact hne.1 h
  | inr h => exact hne.2 h

variable {lease : Lease}

theorem ne_of_leases {id' : LeaseID} (hnone : s.leases id' = none)
    (hlease : s.leases id = some lease) : id' ≠ id := by
  intro hid
  rw [hid, hlease] at hnone
  cases hnone

theorem AllTracked.grant {e : GrantEvent} (h : AllTracked s) (hstep : GrantEffect s i e s') :
    AllTracked s' := by
  intro id lease hlease
  cases hstep with
  | refuse ttl => exact h id lease hlease
  | create ttl hidle => exact (h id lease hlease).frame (update_of_untracked (by simp [hidle]))
  | insert lease' hphase hguards =>
    by_cases hid : id = lease'.id
    · apply Tracked.grant i
      simp [setGrant, hid]
    · have hbefore : s.leases id = some lease := by
        simpa [setGrant, hid] using hlease
      exact (h id lease hbefore).frame (update_of_untracked (by simp [hphase]))
  | gone id' hphase hnone =>
    have hid := ne_of_leases hnone hlease
    exact (h id lease hlease).frame (update_of_untracked (by simp [hphase, hid]))
  | measure id' lease' hphase hlease' =>
    by_cases hid : id' = id
    · subst hid
      have hsame : lease' = lease := some.inj (hlease'.symm.trans hlease)
      apply Tracked.grant i
      simp [setGrant, hsame]
    · exact (h id lease hlease).frame (update_of_untracked (by simp [hphase, hid]))
  | push id' expireTime hphase =>
    by_cases hsame : id' = id ∧ expireTime = lease.expirationTime
    · apply Tracked.heap
      rw [mem_push, ← hsame.1, ← hsame.2]
      exact .inl rfl
    · refine (h id lease hlease).frame (update_of_untracked ?_) (fun _ _ => rfl)
        fun e he => mem_push.2 (.inr he)
      simpa [hphase] using hsame

theorem AllTracked.keepalive {e : KeepaliveEvent} (h : AllTracked s)
    (hstep : KeepaliveEffect s i e s') : AllTracked s' := by
  intro id lease hlease
  cases hstep with
  | refuse id' customTtl => exact h id lease hlease
  | enter _ _ hidle | fail _ _ _ hidle =>
    exact (h id lease hlease).frame (fun _ _ => rfl) (update_of_untracked (by simp [hidle]))
  | store id' customTtl readAt lease₀ lease₁ hphase hlease₀ hrefresh =>
    by_cases hid : id = id'
    · apply Tracked.keepalive i
      simp [setKeepalive, hid]
    · have hbefore : s.leases id = some lease := by
        simpa [setKeepalive, hid] using hlease
      exact (h id lease hbefore).frame (fun _ _ => rfl) (update_of_untracked (by simp [hphase]))
  | gone id' hphase hnone =>
    have hid := ne_of_leases hnone hlease
    exact (h id lease hlease).frame (fun _ _ => rfl) (update_of_untracked (by simp [hphase, hid]))
  | measure id' lease' hphase hlease' =>
    by_cases hid : id' = id
    · subst hid
      have hsame : lease' = lease := some.inj (hlease'.symm.trans hlease)
      apply Tracked.keepalive i
      simp [setKeepalive, hsame]
    · exact (h id lease hlease).frame (fun _ _ => rfl) (update_of_untracked (by simp [hphase, hid]))
  | push id' expireTime hphase =>
    by_cases hsame : id' = id ∧ expireTime = lease.expirationTime
    · apply Tracked.heap
      rw [mem_push, ← hsame.1, ← hsame.2]
      exact .inl rfl
    · refine (h id lease hlease).frame (fun _ _ => rfl) (update_of_untracked ?_)
        fun e he => mem_push.2 (.inr he)
      simpa [hphase] using hsame

variable {e : PutEvent}

/-- Keys are bound and unbound, and the expiration times stay. -/
theorem PutEffect.expirationTime (h : PutEffect s i e s')
    (hlease : s'.leases id = some lease) : ∃ lease', s.leases id = some lease' ∧
      lease'.expirationTime = lease.expirationTime := by
  cases h with
  | attach put id' lease' hphase hid' hlease' =>
    by_cases hid : id = id'
    · subst hid
      simp only [update_self, some.injEq] at hlease
      exact ⟨lease', hlease', by rw [← hlease]⟩
    · simp only [update_of_ne hid] at hlease
      exact ⟨lease, hlease, rfl⟩
  | detach put id' hphase hid' =>
    have happly : s.detachKeyIfVersion id' put.key put.putId id = some lease := hlease
    rw [detachKeyIfVersion_apply] at happly
    split at happly
    · next hid =>
      obtain ⟨lease', hlease', hdetached⟩ := map_eq_some_iff.1 happly
      rw [← hdetached, Lease.expirationTime_detachKeyIfVersion, hid]
      exact ⟨lease', hlease', rfl⟩
    · exact ⟨lease, happly, rfl⟩
  | _ => exact ⟨lease, hlease, rfl⟩

theorem AllTracked.put (h : AllTracked s) (hstep : PutEffect s i e s') : AllTracked s' := by
  intro id lease hlease
  obtain ⟨lease', hlease', hsame⟩ := hstep.expirationTime hlease
  have htracked := h id lease' hlease'
  rw [hsame] at htracked
  cases hstep <;>
    exact htracked.frame

/-- A step of the cleanup that keeps what it knows about a lease. -/
theorem Tracked.cleaner (h : Tracked s id t) (hgrants : s'.grants = s.grants)
    (hkeepalives : s'.keepalives = s.keepalives)
    (hheap : toLex (t, id) ∈ s.expireHeap → Tracked s' id t)
    (hdue : toLex (t, id) ∈ s.cleaner.due → Tracked s' id t)
    (hcondemned : s.cleaner.condemns id = true → Tracked s' id t) : Tracked s' id t := by
  cases h with
  | heap h => exact hheap h
  | due h => exact hdue h
  | condemned h => exact hcondemned h
  | grant i h =>
    apply Tracked.grant i
    rw [hgrants]
    exact h
  | keepalive i h =>
    apply Tracked.keepalive i
    rw [hkeepalives]
    exact h

/-- The cleanup of another lease, between its removal and its end, changes nothing here. -/
theorem Tracked.advance (h : Tracked s id t) (hdue : s'.cleaner.due = s.cleaner.due)
    (hcondemns : s.cleaner.condemns id = false) (hheap : s'.expireHeap = s.expireHeap)
    (hgrants : s'.grants = s.grants) (hkeepalives : s'.keepalives = s.keepalives) :
    Tracked s' id t := by
  refine h.cleaner hgrants hkeepalives (fun h => ?_) (fun h => ?_) (fun h => ?_)
  · apply Tracked.heap
    rw [hheap]
    exact h
  · apply Tracked.due
    rw [hdue]
    exact h
  · rw [hcondemns] at h
    cases h

theorem AllTracked.cleaner {e : CleanerEvent} (h : AllTracked s) (hstep : CleanerEffect s e s') :
    AllTracked s' := by
  intro id lease hlease
  cases hstep with
  | clock hphase =>
    exact (h id lease hlease).advance (by rw [hphase]; rfl) (by rw [hphase]; rfl) rfl rfl rfl
  | collect now hphase =>
    refine (h id lease hlease).cleaner rfl rfl (fun hheap => ?_) (fun hdue => ?_)
      (fun hcondemned => ?_)
    · cases mem_popWhile hheap with
      | inl htaken => exact .due htaken
      | inr hleft => exact .heap hleft
    · simp [hphase, due] at hdue
    · simp [hphase, condemns] at hcondemned
  | pass e due hphase hstale =>
    refine (h id lease hlease).cleaner rfl rfl (fun hheap => .heap hheap) (fun hdue => ?_)
      (fun hcondemned => ?_)
    · rw [hphase] at hdue
      cases mem_cons.1 hdue with
      | inl hhere =>
        -- the entry that is passed over is not the current one
        rw [← hhere] at hstale
        exact (hstale lease hlease rfl).elim
      | inr hlater => exact .due hlater
    · simp [hphase, condemns] at hcondemned
  | condemn e due lease' hphase hlease' hexpired =>
    refine (h id lease hlease).cleaner rfl rfl (fun hheap => .heap hheap) (fun hdue => ?_)
      (fun hcondemned => ?_)
    · rw [hphase] at hdue
      cases mem_cons.1 hdue with
      | inl hhere =>
        apply Tracked.condemned
        rw [← hhere]
        simp [condemns]
      | inr hlater => exact .due hlater
    · simp [hphase, condemns] at hcondemned
  | gone id' due hphase hnone =>
    have hid := ne_of_leases hnone hlease
    exact (h id lease hlease).advance (by rw [hphase]; rfl)
      (by simp [hphase, condemns, hid]) rfl rfl rfl
  | remove id' due lease' hphase hguards hlease' =>
    have hid : id ≠ id' := by
      intro hid
      rw [hid] at hlease
      simp at hlease
    have hbefore : s.leases id = some lease := by simpa [hid] using hlease
    exact (h id lease hbefore).advance (by rw [hphase]; rfl)
      (by simp [hphase, condemns, Ne.symm hid]) rfl rfl rfl
  | select _ _ _ _ _ _ hphase | skip _ _ _ _ _ _ _ hphase | deleteKey _ _ _ _ _ _ hphase
  | finish _ _ _ _ hphase | sleep hphase =>
    exact (h id lease hlease).advance (by rw [hphase]; rfl) (by rw [hphase]; rfl) rfl rfl rfl

theorem AllTracked.step {e : Event} (h : AllTracked s) (hstep : s.Step e s') : AllTracked s' := by
  cases e with
  | tick clock =>
    obtain ⟨-, rfl⟩ := tick_of_step hstep
    intro id lease hlease
    exact (h id lease hlease).frame
  | tomb | deleteRoute | startPut =>
    cases hstep
    intro id lease hlease
    exact (h id lease hlease).frame
  | grant i e => exact h.grant (grantEffect_of_step hstep)
  | keepalive i e => exact h.keepalive (keepaliveEffect_of_step hstep)
  | put i e => exact h.put (putEffect_of_step hstep)
  | cleaner e => exact h.cleaner (cleanerEffect_of_step hstep)

theorem tracked_of_run {es : List Event} (hrun : Run Step initial es s) : AllTracked s := by
  apply hrun.invariant (fun _ _ _ h hstep => h.step hstep)
  intro id lease hlease
  cases hlease

/-- Between operations the heap has every lease under its current expiration time. -/
theorem AllTracked.mem_heap (h : AllTracked s) (hquiet : s.Quiescent)
    (hlease : s.leases id = some lease) : toLex (lease.expirationTime, id) ∈ s.expireHeap := by
  obtain ⟨hgrants, hkeepalives, hcleaner⟩ := hquiet
  cases h id lease hlease with
  | heap h => exact h
  | due h => simp [hcleaner, due] at h
  | condemned h => simp [hcleaner, condemns] at h
  | grant i h => simp [hgrants i] at h
  | keepalive i h => simp [hkeepalives i] at h

/-- The cleanup takes every entry that is due at its clock reading. -/
theorem collect_due {now : ℕ} {e : ℕ ×ₗ LeaseID} (hphase : s.cleaner = .clocked now)
    (hstep : s.Step (.cleaner .collect) s') (he : e ∈ s.expireHeap) (hdue : (ofLex e).1 ≤ now) :
    e ∈ s'.cleaner.due := by
  have heffect : CleanerEffect s .collect s' := cleanerEffect_of_step hstep
  cases heffect with
  | collect now' hphase' =>
    have hnow : now' = now := by
      rw [hphase] at hphase'
      cases hphase'
      rfl
    subst hnow
    cases mem_popWhile he with
    | inl htaken => exact htaken
    | inr hleft =>
      -- the heap is ordered by time first, so nothing due stands behind what is left
      have hlater := of_mem_popWhile_snd (fun a b hab hb => ?_) hleft
      · simp [hdue] at hlater
      · have hab' : (ofLex a).1 ≤ (ofLex b).1 := Prod.Lex.monotone_fst a b hab
        simp only [decide_eq_true_eq] at hb ⊢
        omega

/-! ## No lease is removed early -/

/-- A keepalive stores its expiration time only if it fits into a word, and not while the cleanup
is about to remove the lease. -/
def expiryGuard (s : System) : Event → Bool
  | .keepalive i .store =>
    match s.keepalives i with
    | .entered id customTtl readAt =>
      match s.leases id with
      | some lease => readAt + lease.ttlToUse customTtl * 1000 ≤ u64Max && !s.cleaner.condemns id
      | none => true
    | _ => true
  | _ => true

/-- The steps under `expiryGuard`. -/
abbrev ExpiryStep : System → Event → System → Prop :=
  Guarded (fun s e => s.expiryGuard e = true) Step

/-- The clock is past everything the cleanup has taken, and the last keepalive of a lease is the
one that its expiration time comes from. -/
structure Timed (s : System) : Prop where
  clocked : ∀ now, s.cleaner = .clocked now → now ≤ s.clock
  due : ∀ e ∈ s.cleaner.due, (ofLex e).1 ≤ s.clock
  latest : ∀ id lease r, s.leases id = some lease → (s.refreshed id).getLast? = some r →
    lease.expirationTime = r.expirationTime ∧ r.expirationTime = r.readAt + r.ttl * 1000
  condemned : ∀ id lease, s.cleaner.condemns id = true → s.leases id = some lease →
    s.refreshed id ≠ [] → lease.expirationTime ≤ s.clock

theorem timed_initial : Timed initial where
  clocked _ h := by cases h
  due _ h := by cases h
  latest _ _ _ h := by cases h
  condemned _ _ h := by cases h

section

variable (h : Timed s)
include h

/-- A step that leaves the expiration times, their history and the cleanup alone. -/
theorem Timed.frame (hclock : s.clock ≤ s'.clock := by exact le_rfl)
    (hleases : ∀ id lease', s'.leases id = some lease' → ∃ lease, s.leases id = some lease ∧
      lease.expirationTime = lease'.expirationTime := by exact fun _ lease h => ⟨lease, h, rfl⟩)
    (hcleaner : s'.cleaner = s.cleaner := by rfl)
    (hrefreshed : s'.refreshed = s.refreshed := by rfl) : Timed s' where
  clocked now hnow := by
    rw [hcleaner] at hnow
    exact le_trans (h.clocked now hnow) hclock
  due e he := by
    rw [hcleaner] at he
    exact le_trans (h.due e he) hclock
  latest id lease' r hlease' hr := by
    obtain ⟨lease, hlease, hsame⟩ := hleases id lease' hlease'
    rw [hrefreshed] at hr
    rw [← hsame]
    exact h.latest id lease r hlease hr
  condemned id lease' hcondemned hlease' hne := by
    obtain ⟨lease, hlease, hsame⟩ := hleases id lease' hlease'
    rw [hcleaner] at hcondemned
    rw [hrefreshed] at hne
    rw [← hsame]
    exact le_trans (h.condemned id lease hcondemned hlease hne) hclock

theorem Timed.grant {e : GrantEvent} (hstep : GrantEffect s i e s') : Timed s' := by
  cases hstep with
  | refuse ttl => exact h
  | create | gone | measure | push => exact h.frame
  | insert lease hphase hguards =>
    refine ⟨h.clocked, h.due, fun id lease' r hlease' hr => ?_,
      fun id lease' hcondemned hlease' hne => ?_⟩
    · by_cases hid : id = lease.id
      · simp [hid] at hr
      · simp only [update_of_ne hid] at hlease' hr
        exact h.latest id lease' r hlease' hr
    · by_cases hid : id = lease.id
      · simp [hid] at hne
      · simp only [update_of_ne hid] at hlease' hne
        exact h.condemned id lease' hcondemned hlease' hne

theorem Timed.keepalive {e : KeepaliveEvent} (hguard : s.expiryGuard (.keepalive i e) = true)
    (hstep : KeepaliveEffect s i e s') : Timed s' := by
  cases hstep with
  | refuse id customTtl => exact h
  | enter | fail | gone | measure | push => exact h.frame
  | store id customTtl readAt lease lease' hphase hlease hrefresh =>
    simp only [expiryGuard, hphase, hlease, Bool.and_eq_true, decide_eq_true_eq,
      Bool.not_eq_true'] at hguard
    obtain ⟨hfits, hnot⟩ := hguard
    -- nothing wraps, so the keepalive stores what it promises
    have hstored : lease'.expirationTime = readAt + lease.ttlToUse customTtl * 1000 := by
      have hread : wrap64 readAt = readAt := wrap64_of_le (by omega)
      have hprod : wrap64 (lease.ttlToUse customTtl * 1000) = lease.ttlToUse customTtl * 1000 :=
        wrap64_of_le (by omega)
      rw [Lease.refresh_ok hrefresh]
      simp only [hread, hprod, wrap64_of_le hfits]
    refine ⟨h.clocked, h.due, fun id' lease₁ r hlease₁ hr => ?_,
      fun id' lease₁ hcondemned hlease₁ hne => ?_⟩
    · by_cases hid : id' = id
      · subst hid
        simp only [update_self, some.injEq] at hlease₁
        simp only [update_self, getLast?_append, getLast?_singleton, some_or, some.injEq] at hr
        rw [← hlease₁, ← hr]
        exact ⟨rfl, hstored⟩
      · simp only [update_of_ne hid] at hlease₁ hr
        exact h.latest id' lease₁ r hlease₁ hr
    · by_cases hid : id' = id
      · subst hid
        rw [show s.cleaner.condemns id' = true from hcondemned] at hnot
        cases hnot
      · simp only [update_of_ne hid] at hlease₁ hne
        exact h.condemned id' lease₁ hcondemned hlease₁ hne

theorem Timed.put (hstep : PutEffect s i e s') : Timed s' := by
  have hleases : ∀ id lease, s'.leases id = some lease → _ :=
    fun _ _ hlease => hstep.expirationTime hlease
  cases hstep <;> exact h.frame le_rfl hleases

/-- A step of the cleanup that condemns no lease. -/
theorem Timed.advance (hdue : ∀ e ∈ s'.cleaner.due, e ∈ s.cleaner.due)
    (hclocked : ∀ now, s'.cleaner = .clocked now → now ≤ s.clock := by simp)
    (hleases : ∀ id lease, s'.leases id = some lease → s.leases id = some lease := by
      exact fun _ _ h => h)
    (hcondemns : ∀ id, s'.cleaner.condemns id = false := by intro _; rfl)
    (hclock : s'.clock = s.clock := by rfl) (hrefreshed : s'.refreshed = s.refreshed := by rfl) :
    Timed s' where
  clocked now hnow := by
    rw [hclock]
    exact hclocked now hnow
  due e he := by
    rw [hclock]
    exact h.due e (hdue e he)
  latest id lease r hlease hr := by
    rw [hrefreshed] at hr
    exact h.latest id lease r (hleases id lease hlease) hr
  condemned id lease hcondemned := by
    rw [hcondemns id] at hcondemned
    cases hcondemned

theorem Timed.cleaner {e : CleanerEvent} (hstep : CleanerEffect s e s') : Timed s' := by
  cases hstep with
  | clock hphase =>
    refine h.advance (fun _ he => ?_) fun now hnow => ?_
    · cases he
    · cases hnow
      exact wrap64_le s.clock
  | collect now hphase =>
    refine ⟨fun _ hnow => ?_, fun e he => ?_, h.latest, fun _ _ hcondemned => ?_⟩
    · cases hnow
    · have hnow := h.clocked now hphase
      have hbefore := of_mem_popWhile_fst he
      simp only [decide_eq_true_eq] at hbefore
      exact le_trans hbefore hnow
    · cases hcondemned
  | pass e due hphase hstale =>
    refine h.advance fun _ he => ?_
    rw [hphase]
    exact mem_cons_of_mem e he
  | condemn e due lease hphase hlease hexpired =>
    refine ⟨fun _ hnow => ?_, fun e' he => ?_, h.latest, fun id lease' hcondemned hlease' _ => ?_⟩
    · cases hnow
    · apply h.due
      rw [hphase]
      exact mem_cons_of_mem e he
    have hid : (ofLex e).2 = id := by simpa [condemns] using hcondemned
    subst hid
    have hsame : lease' = lease := some.inj (hlease'.symm.trans hlease)
    rw [hsame, hexpired]
    apply h.due
    rw [hphase]
    exact mem_cons_self
  | gone _ _ hphase | select _ _ _ _ _ _ hphase | skip _ _ _ _ _ _ _ hphase
  | deleteKey _ _ _ _ _ _ hphase | finish _ _ _ _ hphase =>
    refine h.advance fun _ he => ?_
    rw [hphase]
    exact he
  | remove id due lease hphase hguards hlease =>
    refine h.advance (fun _ he => ?_) (by simp) fun id' lease' hlease' => ?_
    · rw [hphase]
      exact he
    · by_cases hid : id' = id
      · simp [hid] at hlease'
      · simpa [hid] using hlease'
  | sleep hphase =>
    refine h.advance fun _ he => ?_
    cases he

theorem Timed.step {e : Event} (hstep : s.ExpiryStep e s') : Timed s' := by
  obtain ⟨hguard, hstep⟩ := hstep
  cases e with
  | tick clock =>
    obtain ⟨hclock, rfl⟩ := tick_of_step hstep
    exact h.frame hclock
  | tomb | deleteRoute | startPut =>
    cases hstep
    exact h.frame
  | grant i e => exact h.grant (grantEffect_of_step hstep)
  | keepalive i e => exact h.keepalive hguard (keepaliveEffect_of_step hstep)
  | put i e => exact h.put (putEffect_of_step hstep)
  | cleaner e => exact h.cleaner (cleanerEffect_of_step hstep)

end

/-- Only the cleanup removes a lease, and only one that it has condemned. -/
theorem condemned_of_removed {e : Event} (hstep : s.Step e s') (hbefore : s.leases id ≠ none)
    (hafter : s'.leases id = none) : s.cleaner.condemns id = true := by
  have hstored : ∀ {id' l}, update s.leases id' (some l) id ≠ none := by
    intro id' l
    by_cases hid : id = id' <;> simp [hid, hbefore]
  cases e with
  | tick clock =>
    obtain ⟨-, rfl⟩ := tick_of_step hstep
    exact (hbefore hafter).elim
  | tomb | deleteRoute | startPut =>
    cases hstep
    exact (hbefore hafter).elim
  | grant i e =>
    cases grantEffect_of_step hstep with
    | insert => exact (hstored hafter).elim
    | _ => exact (hbefore hafter).elim
  | keepalive i e =>
    cases keepaliveEffect_of_step hstep with
    | store => exact (hstored hafter).elim
    | _ => exact (hbefore hafter).elim
  | put i e =>
    cases putEffect_of_step hstep with
    | attach => exact (hstored hafter).elim
    | detach put id' hphase hid' =>
      have happly : s.detachKeyIfVersion id' put.key put.putId id = none := hafter
      rw [detachKeyIfVersion_apply] at happly
      split at happly
      · next hid =>
        rw [hid] at hbefore
        exact (hbefore (map_eq_none_iff.1 happly)).elim
      · exact (hbefore happly).elim
    | _ => exact (hbefore hafter).elim
  | cleaner e =>
    cases cleanerEffect_of_step hstep with
    | remove id' due lease hphase hguards hlease =>
      by_cases hid : id = id'
      · rw [hphase, hid]
        simp [condemns]
      · exact (hbefore (by simpa [hid] using hafter)).elim
    | _ => exact (hbefore hafter).elim

/-- Every keepalive in the history of a lease is over at the present time, or a later one has set an
earlier expiration time. -/
def Elapsed (s : System) (id : LeaseID) : Prop :=
  ∀ (i : ℕ) (r : Refresh), (s.refreshed id)[i]? = some r → r.readAt + r.ttl * 1000 ≤ s.clock ∨
    ∃ (j : ℕ) (r' : Refresh), i < j ∧ (s.refreshed id)[j]? = some r' ∧
      r'.expirationTime < r.readAt + r.ttl * 1000

/-- The last keepalive decides. -/
theorem Timed.elapsed (h : Timed s) (hcondemned : s.cleaner.condemns id = true)
    (hlease : s.leases id ≠ none) : s.Elapsed id := by
  intro i r hr
  obtain ⟨lease, hlease⟩ := ne_none_iff_exists'.1 hlease
  have hne : s.refreshed id ≠ [] := ne_nil_of_mem (mem_of_getElem? hr)
  obtain ⟨last, hlast⟩ := ne_none_iff_exists'.1 (mt getLast?_eq_none_iff.1 hne)
  obtain ⟨hcurrent, hstored⟩ := h.latest id lease last hlease hlast
  have hexpired := h.condemned id lease hcondemned hlease hne
  by_cases hearlier : last.expirationTime < r.readAt + r.ttl * 1000
  · right
    have hi : i < (s.refreshed id).length := (List.getElem?_eq_some_iff.1 hr).1
    rw [List.getLast?_eq_getElem?] at hlast
    refine ⟨(s.refreshed id).length - 1, last, ?_, hlast, hearlier⟩
    -- the last one is not this one, since it ends earlier
    by_contra hge
    have hhere : i = (s.refreshed id).length - 1 := by omega
    rw [hhere, hlast] at hr
    cases hr
    omega
  · omega

/-- **Leases expire when they should.** In a run in which every keepalive stores a time that fits
into a word, and none stores one while the cleanup is about to remove its lease: a lease is removed
only when its keepalives are over, up to those that a later one has cut short; between operations
the heap has every lease under its current expiration time; and the cleanup takes every entry that
is due off the heap. -/
theorem lease_expiry_exact {es : List Event} (hrun : Run ExpiryStep initial es s) :
    (∀ e s' id, s.Step e s' → s.leases id ≠ none → s'.leases id = none → s.Elapsed id) ∧
    (s.Quiescent → ∀ id lease, s.leases id = some lease →
      toLex (lease.expirationTime, id) ∈ s.expireHeap) ∧
    (∀ s' now e, s.cleaner = .clocked now → s.Step (.cleaner .collect) s' → e ∈ s.expireHeap →
      (ofLex e).1 ≤ now → e ∈ s'.cleaner.due) := by
  have htimed : Timed s := hrun.invariant (fun _ _ _ h hstep => h.step hstep) timed_initial
  have htracked := tracked_of_run (hrun.mono fun _ _ _ h => h.2)
  refine ⟨?_, ?_, ?_⟩
  · intro e s' id hstep hbefore hafter
    exact htimed.elapsed (condemned_of_removed hstep hbefore hafter) hbefore
  · intro hquiet id lease hlease
    exact htracked.mem_heap hquiet hlease
  · intro s' now e hphase hstep he hdue
    exact collect_due hphase hstep he hdue

/-! ## Runs -/

/-- A keepalive from its start to its answer. -/
def keepaliveOne (customTtl : ℕ) : List Event :=
  [.keepalive 0 (.enter 1 customTtl), .keepalive 0 .store, .keepalive 0 .measure,
    .keepalive 0 .push]

/-- A keepalive, and a cleanup that finds the lease expired in the end. -/
def renewal : List Event := grantOne ++ [.tick 1000] ++ keepaliveOne 0 ++
    [.tick 91000, .cleaner .clock, .cleaner .collect, .cleaner .check, .cleaner .check]

/-- A keepalive whose time to live is a thousandth of the word size, rounded up. -/
def overflowingKeepalive : List Event :=
  grantOne ++ [.tick 1000] ++ keepaliveOne 18446744073709552 ++
    [.tick 1384, .cleaner .clock, .cleaner .collect, .cleaner .check]

/-- A keepalive after the cleanup has looked at the lease. -/
def lateKeepalive : List Event :=
  grantOne ++ [.tick 90000, .cleaner .clock, .cleaner .collect, .cleaner .check] ++ keepaliveOne 0

/-- What the runs are read off for: the time, the history of lease 1, whether it is in the map, and
whether the next step of the cleanup takes it out. -/
def removal (s : System) : ℕ × List Refresh × Bool × Option Bool :=
  (s.clock, s.refreshed 1, (s.leases 1).isSome,
    (s.step (.cleaner .remove)).map fun s' => (s'.leases 1).isNone)

theorem removed_of_removal {clock : ℕ} {history : List Refresh}
    (h : s.removal = (clock, history, true, some true)) :
    s.clock = clock ∧ s.refreshed 1 = history ∧
      ∃ s', s.Step (.cleaner .remove) s' ∧ s.leases 1 ≠ none ∧ s'.leases 1 = none := by
  simp only [removal, Prod.mk.injEq, map_eq_some_iff, isNone_iff_eq_none] at h
  obtain ⟨hclock, hhistory, hsome, s', hstep, hnone⟩ := h
  exact ⟨hclock, hhistory, s', hstep, isSome_iff_ne_none.1 hsome, hnone⟩

/-- A renewed lease is removed when the renewal is over. -/
theorem lease_expiry_exact_renewed :
    ∃ s s', Run ExpiryStep initial renewal s ∧ s.Step (.cleaner .remove) s' ∧
      s'.leases 1 = none ∧ s.refreshed 1 = [⟨1000, 90, 91000⟩] ∧ s.Elapsed 1 := by
  obtain ⟨s, hrun, hremoval⟩ := Run.exists_guarded_of_foldlM step initial renewal
    (fun s => removal s = (91000, [⟨1000, 90, 91000⟩], true, some true)) expiryGuard
    (by decide +kernel)
  obtain ⟨-, hhistory, s', hstep, hbefore, hafter⟩ := removed_of_removal hremoval
  exact ⟨s, s', hrun, hstep, hafter, hhistory,
    (lease_expiry_exact hrun).1 _ s' 1 hstep hbefore hafter⟩

/-- A lease is removed before the end of its only keepalive. -/
theorem removed_before {es : List Event} (clock : ℕ) (r : Refresh)
    (hfold : (es.foldlM step initial).map removal = some (clock, [r], true, some true))
    (hclock : clock < r.readAt + r.ttl * 1000) :
    ∃ s s', Run Step initial es s ∧ s.Step (.cleaner .remove) s' ∧
      s.leases 1 ≠ none ∧ s'.leases 1 = none ∧ ¬ s.Elapsed 1 := by
  obtain ⟨s, hs, hremoval⟩ := map_eq_some_iff.1 hfold
  obtain ⟨rfl, hhistory, s', hstep, hbefore, hafter⟩ := removed_of_removal hremoval
  refine ⟨s, s', Run.of_foldlM hs, hstep, hbefore, hafter, fun h => ?_⟩
  cases h 0 r (by simp [hhistory]) with
  | inl hover => omega
  | inr hlater =>
    obtain ⟨j, r', hj, hr', -⟩ := hlater
    rw [hhistory, getElem?_eq_none (Nat.succ_le_of_lt hj)] at hr'
    cases hr'

/-- A lease is removed early: after a keepalive whose time to live overflows the word, and after a
keepalive that comes between the cleanup's look at the lease and its removal. -/
theorem lease_removed_early :
    (∃ s s', Run Step initial overflowingKeepalive s ∧ s.Step (.cleaner .remove) s' ∧
      s.leases 1 ≠ none ∧ s'.leases 1 = none ∧ ¬ s.Elapsed 1) ∧
    (∃ s s', Run Step initial lateKeepalive s ∧ s.Step (.cleaner .remove) s' ∧
      s.leases 1 ≠ none ∧ s'.leases 1 = none ∧ ¬ s.Elapsed 1) := by
  constructor
  · exact removed_before 1384 ⟨1000, 18446744073709552, 1384⟩ (by decide +kernel) (by decide)
  · exact removed_before 90000 ⟨90000, 90, 180000⟩ (by decide +kernel) (by decide)

end System

end Fluxon.LeaseManager
