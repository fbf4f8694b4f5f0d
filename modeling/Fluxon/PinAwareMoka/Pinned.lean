import Fluxon.PinAwareMoka.Sections

/-!
# A pinned generation is never evicted

`World.Sound` ties the wrapper's state to what Moka holds and to the listener calls: Moka holds only
generations that are current and not pinned, apart from those that the holder of the mutation lock
is about to remove; a generation is announced to the eviction listener at most once; and an
announced generation is selected, so it has no pins and can get none.

Every step of the wrapper, of a guard and of Moka keeps it (`Sound.step`), so it holds in every
state of every run, and `pinned_never_evicted` reads the result off it.
-/

namespace Fluxon.PinAwareMoka

open List State

/-- The steps that run a section under the state lock. -/
def Event.runsSection {Key PinAlias Value : Type} : Event Key PinAlias Value → Bool
  | .insert .. | .tryInsertWithResidentCapacity .. | .tryPinAliasIf .. | .releasePin _ | .takeIf ..
  | .selectEntriesIf _ | .report _ => true
  | _ => false

namespace World

variable {Key PinAlias Value : Type} [DecidableEq Key] [DecidableEq PinAlias]
  {w w' w'' : World Key PinAlias Value} {cfg : Config Key Value}

/-- **The invariant of the wrapper, its guards and Moka.** -/
structure Sound (w : World Key PinAlias Value) : Prop where
  state : w.state.Sound
  cache : ∀ k m, w.cache.lookup k = some m →
    w.state.Resident k m.generation ∨ .remove k m.generation ∈ w.frame
  admits : ∀ k m, .enterMoka k m ∈ w.frame → w.state.Resident k m.generation
  evicts : ∀ popped, .evictSome popped ∈ w.frame → w.frame = [.evictSome popped] ∧
    ∀ c ∈ popped, ∀ id, w.state.pinLeases.lookup id ≠ some (.assigned c.1 c.2)
  nodup : (w.announced.map Prod.snd).Nodup
  announced_lt : ∀ c ∈ w.announced, c.2 < w.state.nextGeneration
  selected : ∀ c ∈ w.announced, ∀ k e, w.state.entries.lookup k = some e →
    e.generation = c.2 → e.residency = .selected
  free : ∀ c ∈ w.announced, ∀ id, w.state.pinLeases.lookup id ≠ some (.assigned c.1 c.2)
  guards : ∀ id clones, w.guards.lookup id = some clones → (w.state.pinLeases.lookup id).isSome
  dropped : ∀ id ∈ w.dropped, w.guards.lookup id = none ∧ id < w.state.nextPinLease

theorem sound_initial (maxCapacity : ℕ) :
    (initial maxCapacity : World Key PinAlias Value).Sound where
  state := sound_default
  cache _ _ h := by cases h
  admits _ _ h := by cases h
  evicts _ h := by cases h
  nodup := nodup_nil
  announced_lt _ h := by cases h
  selected _ h := by cases h
  free _ h := by cases h
  guards _ _ h := by cases h
  dropped _ h := by cases h

/-! ## A section -/

variable {s' : State Key PinAlias Value} {actions : List (Action Key Value)} {released : Option ℕ}
  {leaseId generation : ℕ} {key : Key} {ev : Event Key PinAlias Value} {new : List (Key × ℕ)}
  {clones : ℕ} {frame : List (Action Key Value)} {cache : Table Key (MokaEntry Value)}
  {removals : List (Key × MokaEntry Value × RemovalCause)} {calls notified : List (Key × ℕ × Value)}
  {e : EntryState PinAlias Value}

section

variable (h : w.Sound)
include h

/-- The listener calls that a section adds keep the account of the announced generations. -/
theorem Sound.announce (hs : State.Section w.state s' new actions released) :
    ((new ++ w.announced).map Prod.snd).Nodup ∧ ∀ c ∈ new ++ w.announced, c.2 < s'.nextGeneration ∧
        (∀ k e, s'.entries.lookup k = some e → e.generation = c.2 → e.residency = .selected) ∧
        ∀ id, s'.pinLeases.lookup id ≠ some (.assigned c.1 c.2) := by
  constructor
  · rw [map_append, nodup_append]
    refine ⟨hs.new_nodup, h.nodup, ?_⟩
    rintro g hnew g' hold rfl
    obtain ⟨c, hc, rfl⟩ := mem_map.1 hnew
    obtain ⟨c', hc', heq⟩ := mem_map.1 hold
    obtain hfresh | ⟨e, he, hgen, hunselected⟩ := hs.new_unselected c hc
    · have := h.announced_lt c' hc'
      omega
    · exact hunselected (h.selected c' hc' _ e he (hgen.trans heq.symm))
  · intro c hc
    obtain hnew | hold := mem_append.1 hc
    · obtain ⟨e, he, hgen, hsel⟩ := hs.new_selected c hnew
      refine ⟨hgen ▸ hs.sound.entry_lt _ e he, ?_, ?_⟩
      · intro k e' he' hgen'
        obtain rfl := hs.sound.distinct _ _ _ _ he' he (hgen'.trans hgen.symm)
        rw [he] at he'
        cases he'
        exact hsel
      · intro id
        rw [← hgen]
        exact hs.sound.free he (by simp [hsel]) id
    · have hlt := h.announced_lt c hold
      refine ⟨hlt.trans_le hs.generation_le, ?_, ?_⟩
      · intro k e' he' hgen'
        obtain ⟨e, he, hgen, hsel⟩ | hfresh := hs.entry k e' he'
        · exact hsel (h.selected c hold k e he (hgen.trans hgen'))
        · omega
      · intro id hid
        obtain hid | hfresh | ⟨e, he, hgen, hunselected⟩ := hs.lease id _ _ hid
        · exact h.free c hold id hid
        · omega
        · exact hunselected (h.selected c hold _ e he hgen)

/-- A section that runs with the mutation lock free, and leaves its calls in the frame. -/
theorem Sound.section (hfree : w.frame = [])
    (hs : State.Section w.state s' (frameCalls actions) actions released) {guards : Table ℕ ℕ}
    {dropped : List ℕ}
    (hguards : ∀ id clones, guards.lookup id = some clones → (s'.pinLeases.lookup id).isSome)
    (hdropped : ∀ id ∈ dropped, guards.lookup id = none ∧ id < s'.nextPinLease) :
    ({ w with state := s', frame := actions, guards, dropped }).Sound := by
  obtain ⟨hnodup, hannounced⟩ := h.announce hs
  have hsame : ({ w with state := s', frame := actions, guards, dropped } :
      World Key PinAlias Value).announced = frameCalls actions ++ w.announced := by
    unfold announced
    rw [hfree]
    rfl
  exact
  { state := hs.sound
    cache := fun k m hm => by
      obtain hr | hmem := h.cache k m hm
      · exact hs.resident k _ hr
      · rw [hfree] at hmem
        cases hmem
    admits := hs.admits
    evicts := fun popped hm => absurd hm (hs.evicts popped)
    nodup := hsame ▸ hnodup
    announced_lt := fun c hc => (hannounced c (hsame ▸ hc)).1
    selected := fun c hc => (hannounced c (hsame ▸ hc)).2.1
    free := fun c hc => (hannounced c (hsame ▸ hc)).2.2
    guards := hguards
    dropped := hdropped }

/-- The guards keep their leases in a section that releases none of them. -/
theorem Sound.guards_section (hs : State.Section w.state s' new actions released)
    (hreleased : ∀ id, released = some id → w.guards.lookup id = none) (id clones : ℕ)
    (hid : w.guards.lookup id = some clones) : (s'.pinLeases.lookup id).isSome := by
  refine hs.kept id ?_ (h.guards id clones hid)
  intro heq
  rw [hreleased id heq.symm] at hid
  cases hid

/-- A section with the lock free that leaves the guards alone. -/
theorem Sound.plainSection (hfree : w.frame = [])
    (hs : State.Section w.state s' (frameCalls actions) actions none) :
    ({ w with state := s', frame := actions }).Sound :=
  h.section hfree hs (h.guards_section hs fun _ heq => by cases heq)
    fun id hid => ⟨(h.dropped id hid).1, (h.dropped id hid).2.trans_le hs.id_le⟩

theorem Sound.runInsert (hfree : w.frame = []) (cfg : Config Key Value) (key : Key)
    (pinAliases : List PinAlias) (value : Value) (residentLimit : Option ℕ) :
    (w.runInsert cfg key pinAliases value residentLimit).Sound := by
  unfold World.runInsert
  split
  · exact h
  · obtain ⟨error, heq⟩ | ⟨-, heq⟩ | ⟨s', actions, heq, hi⟩ := h.state.insertUnderMutation key
      pinAliases value (cfg.weigher key value) residentLimit w.zeroCapacity <;> rw [heq]
    · exact h
    · exact h
    · exact h.plainSection hfree (insert_section hi)

theorem Sound.runPin (hfree : w.frame = []) (pinAlias : PinAlias)
    (predicate : Value → Bool) : (w.runPin pinAlias predicate).Sound := by
  unfold World.runPin
  obtain ⟨-, heq⟩ | ⟨⟨lease, s', actions⟩, heq, hs, hlease⟩ :=
    pin_section h.state pinAlias predicate
  · rw [heq]
    exact h
  rw [heq]
  cases lease with
  | none => exact h.plainSection hfree hs
  | some leaseId =>
    obtain ⟨hnew, hlt, hsome⟩ := hlease leaseId rfl
    refine h.section hfree hs ?_ ?_
    · intro id clones hid
      obtain ⟨rfl, -⟩ | ⟨-, hid⟩ := Table.lookup_insert_cases hid
      · exact hsome
      · exact h.guards_section hs (fun _ heq => by cases heq) id clones hid
    · intro id hid
      obtain ⟨hnone, hold⟩ := h.dropped id hid
      refine ⟨?_, hold.trans_le hs.id_le⟩
      rw [Table.lookup_insert_eq, if_neg (by omega), hnone]

theorem Sound.runRelease (hfree : w.frame = []) (hdropped : leaseId ∈ w.dropped) :
    (w.runRelease leaseId).Sound := by
  unfold World.runRelease
  obtain ⟨s', actions, heq, hs⟩ := release_section h.state leaseId w.zeroCapacity
  rw [heq]
  refine h.section hfree hs (h.guards_section hs ?_) ?_
  · intro id hid
    cases hid
    exact (h.dropped leaseId hdropped).1
  · intro id hid
    obtain ⟨hnone, hlt⟩ := h.dropped id (mem_of_mem_erase hid)
    exact ⟨hnone, hlt.trans_le hs.id_le⟩

/-! ## Guards -/

theorem Sound.cloneGuard (hid : w.guards.lookup leaseId = some clones) (n : ℕ) :
    ({ w with guards := w.guards.insert leaseId n }).Sound :=
  { h with
    guards := fun id m hm => by
      obtain ⟨rfl, -⟩ | ⟨-, hm⟩ := Table.lookup_insert_cases hm
      · exact h.guards _ clones hid
      · exact h.guards id m hm
    dropped := fun id hmem => by
      obtain ⟨hnone, hlt⟩ := h.dropped id hmem
      refine ⟨?_, hlt⟩
      rw [Table.lookup_insert_eq, if_neg, hnone]
      rintro rfl
      rw [hid] at hnone
      cases hnone }

theorem Sound.runDrop (hid : w.guards.lookup leaseId = some clones) :
    (w.runDrop leaseId clones).Sound := by
  unfold World.runDrop
  split
  · exact { h with
      guards := fun id m hm => h.guards id m (Table.lookup_of_erase hm).2
      dropped := fun id hmem => by
        obtain rfl | hmem := mem_cons.1 hmem
        · obtain ⟨lease, hlease⟩ := Option.isSome_iff_exists.1 (h.guards id clones hid)
          exact ⟨AList.lookup_erase _ _, h.state.id_lt id lease hlease⟩
        · obtain ⟨hnone, hlt⟩ := h.dropped id hmem
          refine ⟨?_, hlt⟩
          rw [Table.lookup_erase_eq, hnone]
          split <;> rfl }
  · exact h.cloneGuard hid _

/-! ## Moka and the listener -/

/-- Moka and the listener are called: no section runs, and no generation is announced that was
not announced before. -/
theorem Sound.withCalls
    (hannounced : List.Subperm (frameCalls frame ++ (calls.map (fun c => (c.1, c.2.1)) ++
      notified.map fun c => (c.1, c.2.1))) w.announced) (hcache : ∀ k m, cache.lookup k = some m →
      w.state.Resident k m.generation ∨ .remove k m.generation ∈ frame) (hframe : frame ⊆ w.frame)
    (hevicts : ∀ popped, .evictSome popped ∈ frame → frame = w.frame) :
    ({ w with frame, cache, removals, calls, notified }).Sound where
  state := h.state
  cache := hcache
  admits k m hm := h.admits k m (hframe hm)
  evicts popped hm := by
    obtain ⟨heq, hfree⟩ := h.evicts popped (hframe hm)
    exact ⟨(hevicts popped hm).trans heq, hfree⟩
  nodup := by
    obtain ⟨l, hperm, hsub⟩ := hannounced
    exact (hperm.map Prod.snd).nodup_iff.1 ((hsub.map Prod.snd).nodup h.nodup)
  announced_lt c hc := h.announced_lt c (hannounced.subset hc)
  selected c hc := h.selected c (hannounced.subset hc)
  free c hc := h.free c (hannounced.subset hc)
  guards := h.guards
  dropped := h.dropped

/-- Moka loses an entry. -/
theorem Sound.removed (key : Key) (entry : MokaEntry Value) (cause : RemovalCause) :
    (w.removed key entry cause).Sound :=
  { h with
    cache := fun k m hm => h.cache k m (Table.lookup_of_erase hm).2 }

/-- The first action of the frame has run; an `evict_some` is alone in its frame. -/
theorem Sound.acted {action : Action Key Value} {rest : List (Action Key Value)}
    (hframe : w.frame = action :: rest) (haction : ∀ popped, action ≠ .evictSome popped)
    (hannounced : List.Subperm (frameCalls rest ++ (calls.map (fun c => (c.1, c.2.1)) ++
      notified.map fun c => (c.1, c.2.1))) (frameCalls (action :: rest) ++
        (w.calls.map (fun c => (c.1, c.2.1)) ++ w.notified.map fun c => (c.1, c.2.1))))
    (hcache : ∀ k m, cache.lookup k = some m → w.state.Resident k m.generation ∨
      w.cache.lookup k = some m ∧ action ≠ .remove k m.generation) :
    ({ w with frame := rest, cache, removals, calls, notified }).Sound := by
  refine h.withCalls (by rwa [announced, hframe]) (fun k m hm => ?_)
    (hframe ▸ subset_cons_self _ _) fun popped hm => ?_
  · obtain hr | ⟨hm, hne⟩ := hcache k m hm
    · exact .inl hr
    · refine (h.cache k m hm).imp_right fun hmem => ?_
      rw [hframe] at hmem
      exact (mem_cons.1 hmem).resolve_left (Ne.symm hne)
  · obtain ⟨heq, -⟩ := h.evicts popped (hframe ▸ mem_cons_of_mem _ hm)
    rw [hframe] at heq
    exact absurd (cons.inj heq).1 (haction popped)

theorem Sound.act (hact : w.act cfg = some w') : w'.Sound := by
  unfold World.act at hact
  split at hact
  · next key generation rest hframe =>
    cases hact
    unfold removeMokaGeneration
    split
    · next entry hentry =>
      split
      · refine h.acted hframe (by simp) (.refl _) fun k m hm => ?_
        obtain ⟨hne, hm⟩ := Table.lookup_of_erase hm
        exact .inr ⟨hm, fun heq => by cases heq; exact hne rfl⟩
      · next hgen =>
        refine h.acted hframe (by simp) (.refl _) fun k m hm => .inr ⟨hm, ?_⟩
        intro heq
        cases heq
        cases hentry.symm.trans hm
        exact hgen rfl
    · next hentry =>
      refine h.acted hframe (by simp) (.refl _) fun k m hm => .inr ⟨hm, ?_⟩
      intro heq
      cases heq
      cases hentry.symm.trans hm
  · next key entry rest hframe =>
    cases hact
    have hcache : ∀ k m, (w.cache.insert key entry).lookup k = some m →
        w.state.Resident k m.generation ∨
          w.cache.lookup k = some m ∧ Action.enterMoka key entry ≠ .remove k m.generation := by
      intro k m hm
      obtain ⟨rfl, rfl⟩ | ⟨-, hm⟩ := Table.lookup_insert_cases hm
      · exact .inl (h.admits k m (by simp [hframe]))
      · exact .inr ⟨hm, fun heq => by cases heq⟩
    unfold enterMoka
    split <;> exact h.acted hframe (by simp) (.refl _) hcache
  · next key generation value rest hframe =>
    cases hact
    have hcache : ∀ k m, w.cache.lookup k = some m → w.state.Resident k m.generation ∨
        w.cache.lookup k = some m ∧ Action.notify key generation value ≠ .remove k m.generation :=
      fun k m hm => .inr ⟨hm, fun heq => by cases heq⟩
    unfold notify
    split
    · refine h.acted hframe (by simp) ?_ hcache
      refine List.Perm.subperm ?_
      rw [map_append, ← append_assoc, ← append_assoc]
      rw [append_assoc (frameCalls rest)]
      exact perm_append_singleton _ _
    · exact h.acted hframe (by simp) (sublist_cons_self _ _).subperm hcache
  · cases hact
  · cases hact

theorem Sound.pop (hpop : w.pop key = some w') : w'.Sound := by
  unfold World.pop at hpop
  split at hpop
  · next popped entry hframe hentry =>
    cases hpop
    obtain ⟨-, hfree⟩ := h.evicts popped (by simp [hframe])
    -- nothing waits to be removed while `evict_some` runs, so what Moka holds is not pinned
    have hresident : ∀ k m, w.cache.lookup k = some m → w.state.Resident k m.generation := by
      intro k m hm
      obtain hr | hmem := h.cache k m hm
      · exact hr
      · simp [hframe] at hmem
    obtain ⟨e, he, hgen, hres⟩ := hresident key entry hentry
    exact { h.removed key entry .size with
      cache := fun k m hm => by
        obtain hr | hmem := (h.removed key entry .size).cache k m hm
        · exact .inl hr
        · have hmem' : Action.remove k m.generation ∈ w.frame := hmem
          simp [hframe] at hmem'
      admits := fun k m hm => by simp at hm
      evicts := fun popped' hm => by
        obtain rfl : popped' = popped ++ [(key, entry.generation)] := by simpa using hm
        refine ⟨rfl, fun c hc id => ?_⟩
        obtain hc | hc := mem_append.1 hc
        · exact hfree c hc id
        · obtain rfl := mem_singleton.1 hc
          exact hgen ▸ h.state.free he hres id
      nodup := by
        have hnodup := h.nodup
        rw [announced, hframe] at hnodup
        exact hnodup
      announced_lt := fun c hc => h.announced_lt c (by rw [announced, hframe]; exact hc)
      selected := fun c hc => h.selected c (by rw [announced, hframe]; exact hc)
      free := fun c hc => h.free c (by rw [announced, hframe]; exact hc) }
  · cases hpop

/-- A report of Moka selects the entry only if it is still counted to Moka. -/
theorem Sound.handleMokaRemoval (key : Key) (entry : MokaEntry Value)
    (cause : RemovalCause) : (w.handleMokaRemoval key entry cause).Sound := by
  unfold World.handleMokaRemoval
  split
  · exact h
  split
  · next hcounts =>
    have hs := select_section h.state hcounts
    obtain ⟨hnodup, hannounced⟩ := h.announce hs
    have hresident : ∀ k g, w.state.Resident k g → (w.state.select key).Resident k g := by
      intro k g hr
      obtain hr | hmem := hs.resident k g hr
      · exact hr
      · cases hmem
    have hperm : List.Perm ({ w with
        calls := w.calls ++ [(key, entry.generation, entry.value)] } :
          World Key PinAlias Value).announced ([(key, entry.generation)] ++ w.announced) := by
      unfold announced
      rw [map_append, map_singleton, append_assoc, ← append_assoc,
        ← append_assoc (frameCalls w.frame)]
      exact perm_middle
    exact
    { state := hs.sound
      cache := fun k m hm => by
        obtain hr | hmem := h.cache k m hm
        · exact .inl (hresident k _ hr)
        · exact .inr hmem
      admits := fun k m hm => hresident k _ (h.admits k m hm)
      evicts := h.evicts
      nodup := (hperm.map Prod.snd).nodup_iff.2 hnodup
      announced_lt := fun c hc => (hannounced c (hperm.subset hc)).1
      selected := fun c hc => (hannounced c (hperm.subset hc)).2.1
      free := fun c hc => (hannounced c (hperm.subset hc)).2.2
      guards := h.guards
      dropped := h.dropped }
  · exact h

theorem Sound.call {index : ℕ} {c : Key × ℕ × Value} (hc : w.calls[index]? = some c)
    (cfg : Config Key Value) :
    (({ w with calls := w.calls.eraseIdx index }).notify cfg c).Sound := by
  obtain ⟨hlt, rfl⟩ := List.getElem?_eq_some_iff.1 hc
  have hperm : List.Perm (w.calls[index] :: w.calls.eraseIdx index) w.calls :=
    getElem_cons_eraseIdx_perm hlt
  unfold notify
  split
  · refine h.withCalls (List.Perm.subperm ?_) h.cache (List.Subset.refl _) fun _ _ => rfl
    refine List.Perm.append_left _ ?_
    rw [map_append, ← append_assoc]
    refine (perm_append_singleton _ _).trans ?_
    exact (hperm.map fun c : Key × ℕ × Value => (c.1, c.2.1)).append_right _
  · refine h.withCalls ?_ h.cache (List.Subset.refl _) fun _ _ => rfl
    refine List.Sublist.subperm (List.Sublist.append_left ?_ _)
    exact ((eraseIdx_sublist _ _).map _).append_right _

end

/-! ## Steps and runs -/

theorem locked_eq_some (h : w.locked w' = some w'') : w.frame = [] ∧ w'' = w' := by
  unfold locked at h
  split at h
  · next hempty => exact ⟨isEmpty_iff.1 hempty, (Option.some.inj h).symm⟩
  · cases h

/-- The frame of an `evict_some` that begins or returns. -/
theorem Sound.withEvictSome (h : w.Sound)
    (hold : w.frame = [] ∨ ∃ popped, w.frame = [.evictSome popped])
    (hnew : frame = [] ∨ frame = [.evictSome []]) : ({ w with frame }).Sound := by
  have hcalls : frameCalls frame = frameCalls w.frame := by
    obtain heq | ⟨popped, heq⟩ := hold <;> obtain rfl | rfl := hnew <;> rw [heq] <;> rfl
  have hannounced : ({ w with frame } : World Key PinAlias Value).announced = w.announced := by
    unfold announced
    rw [hcalls]
  exact { h with
    cache := fun k m hm => by
      obtain hr | hmem := h.cache k m hm
      · exact .inl hr
      · obtain heq | ⟨popped, heq⟩ := hold <;> simp [heq] at hmem
    admits := fun k m hm => by obtain rfl | rfl := hnew <;> simp at hm
    evicts := fun popped hm => by
      obtain rfl | rfl := hnew
      · cases hm
      · obtain rfl : popped = [] := by simpa using hm
        exact ⟨rfl, by simp⟩
    nodup := hannounced ▸ h.nodup
    announced_lt := fun c hc => h.announced_lt c (hannounced ▸ hc)
    selected := fun c hc => h.selected c (hannounced ▸ hc)
    free := fun c hc => h.free c (hannounced ▸ hc) }

theorem Sound.withMaxCapacity (h : w.Sound) (capacity : ℕ) :
    ({ w with maxCapacity := capacity }).Sound :=
  { h with }

/-- **Every step keeps the invariant.** -/
theorem Sound.step (h : w.Sound) (hstep : Step cfg w ev w') : w'.Sound := by
  unfold Step World.step at hstep
  cases ev with
  | insert key pinAliases value | tryInsertWithResidentCapacity key pinAliases value =>
    obtain ⟨hfree, rfl⟩ := locked_eq_some hstep
    exact h.runInsert hfree cfg key pinAliases value _
  | tryPinAliasIf pinAlias predicate =>
    obtain ⟨hfree, rfl⟩ := locked_eq_some hstep
    exact h.runPin hfree pinAlias predicate
  | cloneGuard leaseId =>
    obtain ⟨clones, hid, rfl⟩ := Option.map_eq_some_iff.1 hstep
    exact h.cloneGuard hid _
  | dropGuard leaseId =>
    obtain ⟨clones, hid, rfl⟩ := Option.map_eq_some_iff.1 hstep
    exact h.runDrop hid
  | releasePin leaseId =>
    dsimp only at hstep
    split at hstep
    · next hdropped =>
      obtain ⟨hfree, rfl⟩ := locked_eq_some hstep
      exact h.runRelease hfree hdropped
    · cases hstep
  | get | runPendingTasks =>
    obtain ⟨-, rfl⟩ := locked_eq_some hstep
    exact h
  | takeIf key predicate =>
    obtain ⟨hfree, rfl⟩ := locked_eq_some hstep
    exact h.plainSection hfree (takeIf_section h.state key predicate)
  | evictSome =>
    obtain ⟨hfree, rfl⟩ := locked_eq_some hstep
    exact h.withEvictSome (.inl hfree) (.inr rfl)
  | pop key => exact h.pop hstep
  | evicted =>
    dsimp only at hstep
    split at hstep
    · next popped hframe =>
      cases hstep
      exact h.withEvictSome (.inr ⟨popped, hframe⟩) (.inl rfl)
    · cases hstep
  | selectEntriesIf predicate =>
    obtain ⟨hfree, rfl⟩ := locked_eq_some hstep
    exact h.plainSection hfree (selectEntriesIf_section h.state predicate)
  | setMaxCapacity | trySetMaxCapacityWithoutEviction =>
    obtain ⟨-, rfl⟩ := locked_eq_some hstep
    split
    · exact h.withMaxCapacity _
    · exact h
  | act => exact h.act hstep
  | evict key =>
    obtain ⟨entry, -, rfl⟩ := Option.map_eq_some_iff.1 hstep
    exact h.removed key entry .size
  | report index =>
    obtain ⟨r, -, rfl⟩ := Option.map_eq_some_iff.1 hstep
    have hremovals : ({ w with removals := w.removals.eraseIdx index }).Sound := { h with }
    exact hremovals.handleMokaRemoval r.1 r.2.1 r.2.2
  | call index =>
    obtain ⟨c, hc, rfl⟩ := Option.map_eq_some_iff.1 hstep
    exact h.call hc cfg

theorem sound_of_run {maxCapacity : ℕ} {evs : List (Event Key PinAlias Value)}
    (h : Run (Step cfg) (initial maxCapacity) evs w) : w.Sound :=
  h.invariant (I := Sound) (fun _ _ _ hw hstep => hw.step hstep) (sound_initial maxCapacity)

/-! ## What a release does -/

/-- A release of a lease whose generation is not the current one of its key only removes the
lease. -/
theorem runRelease_stale
    (hlease : w.state.pinLeases.lookup leaseId = some (.assigned key generation))
    (he : w.state.entries.lookup key = some e) (hne : e.generation ≠ generation)
    (hfree : w.frame = []) :
    w.runRelease leaseId = { w with
      state := { w.state with pinLeases := w.state.pinLeases.erase leaseId }
      dropped := w.dropped.erase leaseId } := by
  unfold runRelease releasePin
  simp only [hlease, he, if_pos hne]
  rw [← hfree]

theorem state_act (h : w.act cfg = some w') : w'.state = w.state := by
  unfold World.act at h
  split at h <;> cases h
  · unfold removeMokaGeneration
    split
    · split <;> rfl
    · rfl
  · unfold enterMoka
    split <;> rfl
  · unfold notify
    split <;> rfl

theorem state_of_step (hstep : Step cfg w ev w') (hev : ev.runsSection = false) :
    w'.state = w.state := by
  unfold Step World.step at hstep
  cases ev with
  | cloneGuard | evict =>
    obtain ⟨_, -, rfl⟩ := Option.map_eq_some_iff.1 hstep
    rfl
  | dropGuard leaseId =>
    obtain ⟨clones, -, rfl⟩ := Option.map_eq_some_iff.1 hstep
    unfold World.runDrop
    split <;> rfl
  | get | evictSome | runPendingTasks =>
    obtain ⟨-, rfl⟩ := locked_eq_some hstep
    rfl
  | pop key =>
    dsimp only [World.pop] at hstep
    split at hstep <;> cases hstep
    rfl
  | evicted =>
    dsimp only at hstep
    split at hstep <;> cases hstep
    rfl
  | setMaxCapacity | trySetMaxCapacityWithoutEviction =>
    obtain ⟨-, rfl⟩ := locked_eq_some hstep
    split <;> rfl
  | act => exact state_act hstep
  | call index =>
    obtain ⟨c, -, rfl⟩ := Option.map_eq_some_iff.1 hstep
    unfold notify
    split <;> rfl
  | _ => cases hev

/-- **Every step leaves the wrapper's state alone or runs one section.** Only a release takes a
lease away, and only its own. -/
theorem section_of_step (h : w.Sound) (hstep : Step cfg w ev w') :
    w'.state = w.state ∨ ∃ new actions released,
      State.Section w.state w'.state new actions released ∧
        ∀ leaseId, released = some leaseId → ev = .releasePin leaseId := by
  have hinsert : ∀ key pinAliases value limit,
      (w.runInsert cfg key pinAliases value limit).state = w.state ∨ ∃ new actions released,
        State.Section w.state (w.runInsert cfg key pinAliases value limit).state new actions
          released ∧ ∀ leaseId, released = some leaseId → ev = .releasePin leaseId := by
    intro key pinAliases value limit
    unfold World.runInsert
    split
    · exact .inl rfl
    · obtain ⟨error, heq⟩ | ⟨-, heq⟩ | ⟨s', actions, heq, hi⟩ := h.state.insertUnderMutation key
        pinAliases value (cfg.weigher key value) limit w.zeroCapacity <;> rw [heq]
      · exact .inl rfl
      · exact .inl rfl
      · exact .inr ⟨_, _, none, insert_section hi, fun _ heq => by cases heq⟩
  by_cases hruns : ev.runsSection = true
  swap
  · exact .inl (state_of_step hstep (by simpa using hruns))
  unfold Step World.step at hstep
  cases ev with
  | insert key pinAliases value | tryInsertWithResidentCapacity key pinAliases value =>
    obtain ⟨-, rfl⟩ := locked_eq_some hstep
    exact hinsert key pinAliases value _
  | tryPinAliasIf pinAlias predicate =>
    obtain ⟨-, rfl⟩ := locked_eq_some hstep
    unfold World.runPin
    obtain ⟨-, heq⟩ | ⟨⟨lease, s', actions⟩, heq, hs, -⟩ := pin_section h.state pinAlias predicate
    · exact .inl (by rw [heq])
    · rw [heq]
      cases lease <;> exact .inr ⟨_, _, none, hs, fun _ heq => by cases heq⟩
  | releasePin leaseId =>
    dsimp only at hstep
    split at hstep
    · obtain ⟨-, rfl⟩ := locked_eq_some hstep
      unfold World.runRelease
      obtain ⟨s', actions, heq, hs⟩ := release_section h.state leaseId w.zeroCapacity
      rw [heq]
      exact .inr ⟨_, _, some leaseId, hs, fun _ heq => by cases heq; rfl⟩
    · cases hstep
  | takeIf key predicate =>
    obtain ⟨-, rfl⟩ := locked_eq_some hstep
    exact .inr ⟨_, _, none, takeIf_section h.state key predicate, fun _ heq => by cases heq⟩
  | selectEntriesIf predicate =>
    obtain ⟨-, rfl⟩ := locked_eq_some hstep
    exact .inr ⟨_, _, none, selectEntriesIf_section h.state predicate, fun _ heq => by cases heq⟩
  | report index =>
    obtain ⟨r, -, rfl⟩ := Option.map_eq_some_iff.1 hstep
    unfold World.handleMokaRemoval
    split
    · exact .inl rfl
    · split
      · next hcounts =>
        exact .inr ⟨_, _, none, select_section h.state hcounts, fun _ heq => by cases heq⟩
      · exact .inl rfl
  | _ => cases hruns

/-- A lease that is assigned keeps its generation until it is released. -/
theorem assigned_of_step (h : w.Sound) (hstep : Step cfg w ev w')
    (hlease : w.state.pinLeases.lookup leaseId = some (.assigned key generation)) :
    ev = .releasePin leaseId ∨
      w'.state.pinLeases.lookup leaseId = some (.assigned key generation) := by
  obtain hsame | ⟨new, actions, released, hs, hreleased⟩ := section_of_step h hstep
  · exact .inr (hsame ▸ hlease)
  · by_cases heq : some leaseId = released
    · exact .inl (hreleased leaseId heq.symm)
    · exact .inr (hs.assigned leaseId key generation heq hlease)

/-! ## The result -/

/-- No guard is live on a generation to which no lease is assigned. -/
theorem not_live (h : ∀ id, w.state.pinLeases.lookup id ≠ some (.assigned key generation)) :
    ¬w.Live key generation := by
  rintro ⟨id, clones, -, hid⟩
  exact h id hid

/-- The listener has been called for no generation twice. -/
theorem Sound.notified_nodup (h : w.Sound) : (w.notified.map fun c => c.2.1).Nodup := by
  have hsub : List.Sublist (w.notified.map fun c => (c.1, c.2.1)) w.announced :=
    (sublist_append_right _ _).trans (sublist_append_right _ _)
  have hnodup := (hsub.map Prod.snd).nodup h.nodup
  rwa [map_map] at hnodup

/-- A release does nothing to a generation other than its own. -/
theorem release_of_step
    (hlease : w.state.pinLeases.lookup leaseId = some (.assigned key generation))
    (he : w.state.entries.lookup key = some e) (hne : e.generation ≠ generation)
    (hstep : Step cfg w (.releasePin leaseId) w') :
    w' = { w with
      state := { w.state with pinLeases := w.state.pinLeases.erase leaseId }
      dropped := w.dropped.erase leaseId } := by
  unfold Step World.step at hstep
  dsimp only at hstep
  split at hstep
  · obtain ⟨hfree, rfl⟩ := locked_eq_some hstep
    exact runRelease_stale hlease he hne hfree
  · cases hstep

/-- A dropped clone of a guard changes nothing but the guards. -/
theorem drop_of_step (hstep : Step cfg w (.dropGuard leaseId) w') :
    w' = { w with guards := w'.guards, dropped := w'.dropped } := by
  obtain ⟨clones, -, rfl⟩ := Option.map_eq_some_iff.1 hstep
  unfold World.runDrop
  split <;> rfl

/-- **Pinned generations are never evicted.** In every run of the wrapper, with Moka evicting what
it holds at any moment and reporting it at any later one:

* what a running `evict_some` has popped so far has no live guard, and neither has what a selection
  pass would select;
* a generation has no live guard from the moment its listener call is decided on, so not while the
  listener is called either, and the listener is called at most once per generation;
* a live guard keeps its lease, and a lease its generation, until the guard is released;
* dropping a guard and releasing its lease leaves every other generation of the key, in the wrapper
  and in Moka, as it is. -/
theorem pinned_never_evicted {maxCapacity : ℕ} {evs : List (Event Key PinAlias Value)}
    (h : Run (Step cfg) (initial maxCapacity) evs w) :
    (∀ popped, .evictSome popped ∈ w.frame → ∀ c ∈ popped, ¬w.Live c.1 c.2) ∧
    (∀ predicate, ∀ e ∈ w.state.selection predicate, ¬w.Live e.1 e.2.generation) ∧
    (∀ c ∈ w.announced, ¬w.Live c.1 c.2) ∧
    (w.notified.map fun c => c.2.1).Nodup ∧
    (∀ leaseId clones, w.guards.lookup leaseId = some clones →
      (w.state.pinLeases.lookup leaseId).isSome) ∧
    (∀ leaseId key generation ev w',
      w.state.pinLeases.lookup leaseId = some (.assigned key generation) → Step cfg w ev w' →
        ev = .releasePin leaseId ∨
          w'.state.pinLeases.lookup leaseId = some (.assigned key generation)) ∧
    (∀ leaseId w', Step cfg w (.dropGuard leaseId) w' →
      w' = { w with guards := w'.guards, dropped := w'.dropped }) ∧
    ∀ leaseId key generation e w',
      w.state.pinLeases.lookup leaseId = some (.assigned key generation) →
      w.state.entries.lookup key = some e → e.generation ≠ generation →
      Step cfg w (.releasePin leaseId) w' → w' = { w with
          state := { w.state with pinLeases := w.state.pinLeases.erase leaseId }
          dropped := w.dropped.erase leaseId } := by
  have hw := sound_of_run h
  refine ⟨?_, ?_, ?_, hw.notified_nodup, hw.guards, ?_, ?_, ?_⟩
  · intro popped hmem c hc
    exact not_live ((hw.evicts popped hmem).2 c hc)
  · intro predicate e hmem
    obtain ⟨he, hres⟩ := mem_selection hmem
    exact not_live (hw.state.free he (by simp [hres]))
  · intro c hc
    exact not_live (hw.free c hc)
  · intro leaseId key generation ev w' hlease hstep
    exact assigned_of_step hw hstep hlease
  · intro leaseId w' hstep
    exact drop_of_step hstep
  · intro leaseId key generation e w' hlease he hne hstep
    exact release_of_step hlease he hne hstep

/-- An entry weighs as much as its value says, and evictions are listened to. -/
abbrev byValue : Config String ℕ := ⟨fun _ value => value, true⟩

/-- A pinned entry is replaced, its replacement is evicted and reported, and the guard of the old
generation is dropped. -/
def replaceWhilePinned : List (Event String String ℕ) :=
  [.insert "key" ["a"] 10, .act, .tryPinAliasIf "a" fun _ => true, .act,
    .insert "key" ["b"] 20, .act, .act, .evictSome, .pop "key", .evicted, .report 1, .call 0,
    .dropGuard 1, .releasePin 1]

theorem pinned_never_evicted_replaceWhilePinned : ∃ w : World String String ℕ,
      Run (Step byValue) (initial 100) replaceWhilePinned w ∧
        w.notified = [("key", 2, 20)] ∧ (w.notified.map fun c => c.2.1).Nodup := by
  obtain ⟨w, hrun, hnotified⟩ := Run.exists_of_foldlM (World.step byValue) (initial 100)
    replaceWhilePinned (fun w => w.notified = [("key", 2, 20)]) (by decide +kernel)
  exact ⟨w, hrun, hnotified, (pinned_never_evicted hrun).2.2.2.1⟩

end World

end Fluxon.PinAwareMoka
