import Fluxon.PinAwareMoka.Pinned

/-!
# A pinned alias stays

A guard that `try_pin_alias_if` returns belongs to a generation whose value satisfies the predicate,
or it is reserved for an alias that no entry carries. While the guard of a generation is live, only
a caller can take the generation from its key, by an insertion that displaces it or by a removal
(`Replaces`); Moka cannot, nor can a selection. The main result is `pinned_alias_stays`.
-/

namespace Fluxon.PinAwareMoka

variable {Key PinAlias Value : Type} [DecidableEq Key] [DecidableEq PinAlias]

namespace State

variable {s s' : State Key PinAlias Value} {e : EntryState PinAlias Value} {key : Key}
  {actions : List (Action Key Value)}

/-- Every entry is still there, with its generation and its value. -/
def Keeps (s s' : State Key PinAlias Value) : Prop := ∀ key e, s.entries.lookup key = some e →
    ∃ e', s'.entries.lookup key = some e' ∧ e'.generation = e.generation ∧ e'.value = e.value

omit [DecidableEq PinAlias] in
theorem keeps_of_eq (h : s'.entries = s.entries) : s.Keeps s' := fun _ e he => ⟨e, h ▸ he, rfl, rfl⟩

omit [DecidableEq PinAlias] in
theorem keeps_of_rewrite {entry : EntryState PinAlias Value} (he : s.entries.lookup key = some e)
    (hs' : s'.entries = s.entries.insert key entry) (hgen : entry.generation = e.generation)
    (hvalue : entry.value = e.value) : s.Keeps s' := by
  intro k e' hk
  rw [hs', Table.lookup_insert_eq]
  split
  · next heq =>
    cases (heq ▸ hk).symm.trans he
    exact ⟨entry, rfl, hgen, hvalue⟩
  · exact ⟨e', hk, rfl, rfl⟩

theorem keeps_select (es : List ((_ : Key) × EntryState PinAlias Value)) :
    s.Keeps (es.foldl (fun s e => s.select e.1) s) := by
  intro k e he
  rw [lookup_selectAll, he]
  refine ⟨_, rfl, ?_⟩
  split <;> exact ⟨rfl, rfl⟩

/-- A pin keeps the entries. The guard belongs to the generation that carries the alias, whose value
satisfies the predicate, or it is reserved for the alias. -/
theorem tryPinAliasIf_guard (h : s.Sound) {pinAlias : PinAlias} {predicate : Value → Bool}
    {r : Pinned Key PinAlias Value} (hr : s.tryPinAliasIf pinAlias predicate = some r) :
    s.Keeps r.state ∧ ∀ leaseId, r.lease = some leaseId →
      (∃ key e, s.entries.lookup key = some e ∧ pinAlias ∈ e.pinAliases ∧ predicate e.value = true ∧
        r.state.pinLeases.lookup leaseId = some (.assigned key e.generation)) ∨
      s.aliases.lookup pinAlias = none ∧
        r.state.pinLeases.lookup leaseId = some (.pending pinAlias) := by
  obtain ⟨nextPinLease, -, hr⟩ := Option.bind_eq_some_iff.1 hr
  cases halias : s.aliases.lookup pinAlias with
  | none =>
    rw [halias] at hr
    cases hr
    refine ⟨keeps_of_eq rfl, fun leaseId hid => .inr ⟨rfl, ?_⟩⟩
    cases hid
    exact AList.lookup_insert _
  | some owner =>
    obtain ⟨key, generation⟩ := owner
    obtain ⟨e, he, rfl, hcarries⟩ := h.owner pinAlias key generation halias
    simp only [halias, he, Option.bind_eq_bind, Option.bind_some, ne_eq, not_true_eq_false,
      if_false] at hr
    split at hr
    · cases hr
      exact ⟨keeps_of_eq rfl, fun _ hid => by cases hid⟩
    · next hpins =>
      obtain ⟨pinCount, -, hr⟩ := Option.bind_eq_some_iff.1 hr
      cases hr
      refine ⟨keeps_of_rewrite he rfl rfl rfl,
        fun leaseId hid => .inl ⟨key, e, he, hcarries, ?_, ?_⟩⟩
      · simpa using fun hfalse => hpins (.inl hfalse)
      · cases hid
        exact AList.lookup_insert _

theorem releasePin_keeps {leaseId : ℕ} {zeroCapacity : Bool}
    (hr : s.releasePin leaseId zeroCapacity = some (s', actions)) : s.Keeps s' := by
  revert hr
  fun_cases releasePin s leaseId zeroCapacity <;> intro hr <;> try cases hr
  · exact keeps_of_eq rfl
  · exact keeps_of_eq (dropPending_fields _ _).1
  · exact keeps_of_eq rfl
  · exact keeps_of_eq rfl
  · next he _ =>
    obtain ⟨pinCount, -, hr⟩ := Option.bind_eq_some_iff.1 hr
    split at hr
    · split at hr <;> cases hr <;> exact keeps_of_rewrite he rfl rfl rfl
    · cases hr
      exact keeps_of_rewrite he rfl rfl rfl

end State

namespace World

variable {w w' : World Key PinAlias Value} {cfg : Config Key Value} {key : Key} {leaseId : ℕ}
  {ev : Event Key PinAlias Value} {e : EntryState PinAlias Value}

/-- An insertion that is accepted. -/
def Accepts (w : World Key PinAlias Value) (cfg : Config Key Value) (k : Key)
    (pinAliases : List PinAlias) (value : Value) (limit : Option ℕ) : Prop :=
  insertable pinAliases = true ∧ ∃ r, w.state.insertUnderMutation k pinAliases value
    (cfg.weigher k value) limit w.zeroCapacity = some (.ok r)

/-- A caller takes the entry of the key away: an accepted insertion takes over the key or one of its
aliases, or a removal of the key finds its value as wanted. -/
def Replaces (w : World Key PinAlias Value) (cfg : Config Key Value) (key : Key) :
    Event Key PinAlias Value → Prop
  | .insert k pinAliases value =>
    key ∈ w.state.displacedKeys k pinAliases ∧ w.Accepts cfg k pinAliases value none
  | .tryInsertWithResidentCapacity k pinAliases value =>
    key ∈ w.state.displacedKeys k pinAliases ∧ w.Accepts cfg k pinAliases value (some w.maxCapacity)
  | .takeIf k predicate =>
    k = key ∧ ∃ e, w.state.entries.lookup k = some e ∧ predicate e.value = true
  | _ => False

/-- An insertion leaves what it does not displace. -/
theorem lookup_runInsert (h : w.Sound) {k : Key} {pinAliases : List PinAlias} {value : Value}
    {limit : Option ℕ} (he : w.state.entries.lookup key = some e)
    (hkey : ¬(key ∈ w.state.displacedKeys k pinAliases ∧ w.Accepts cfg k pinAliases value limit)) :
    (w.runInsert cfg k pinAliases value limit).state.entries.lookup key = some e := by
  unfold World.runInsert
  split
  · exact he
  · next hinsertable =>
    obtain ⟨error, heq⟩ | ⟨-, heq⟩ | ⟨s', actions, heq, hi⟩ := h.state.insertUnderMutation k
      pinAliases value (cfg.weigher k value) limit w.zeroCapacity <;> rw [heq]
    · exact he
    · exact he
    have hkept : key ∉ w.state.displacedKeys k pinAliases :=
      fun hmem => hkey ⟨hmem, by simpa using hinsertable, _, heq⟩
    have hne : key ≠ k := by
      rintro rfl
      exact hkept (State.mem_displacedKeys_self (by simp [he]) pinAliases)
    exact (hi.other key hne).trans ((if_neg hkept).trans he)

/-- A step that is no replacement leaves the generation and the value of the key. -/
theorem entry_of_step (h : w.Sound) (hstep : Step cfg w ev w') (hev : ¬w.Replaces cfg key ev)
    (he : w.state.entries.lookup key = some e) :
    ∃ e', w'.state.entries.lookup key = some e' ∧ e'.generation = e.generation ∧
      e'.value = e.value := by
  by_cases hruns : ev.runsSection = true
  swap
  · exact ⟨e, by rwa [state_of_step hstep (by simpa using hruns)], rfl, rfl⟩
  unfold Step World.step at hstep
  cases ev with
  | insert | tryInsertWithResidentCapacity =>
    obtain ⟨-, rfl⟩ := locked_eq_some hstep
    exact ⟨e, lookup_runInsert h he hev, rfl, rfl⟩
  | tryPinAliasIf pinAlias predicate =>
    obtain ⟨-, rfl⟩ := locked_eq_some hstep
    unfold World.runPin
    cases hr : w.state.tryPinAliasIf pinAlias predicate with
    | none => exact ⟨e, he, rfl, rfl⟩
    | some r =>
      obtain ⟨lease, s', actions⟩ := r
      cases lease <;> exact (State.tryPinAliasIf_guard h.state hr).1 key e he
  | releasePin leaseId =>
    dsimp only at hstep
    split at hstep
    · obtain ⟨-, rfl⟩ := locked_eq_some hstep
      obtain ⟨s', actions, heq, -⟩ := State.release_section h.state leaseId w.zeroCapacity
      unfold World.runRelease
      rw [heq]
      exact State.releasePin_keeps heq key e he
    · cases hstep
  | takeIf k predicate =>
    obtain ⟨-, rfl⟩ := locked_eq_some hstep
    simp only [State.takeIf]
    split
    · exact ⟨e, he, rfl, rfl⟩
    · next entry hk =>
      split
      · next hwanted =>
        have hne : key ≠ k := fun heq => hev ⟨heq.symm, entry, hk, hwanted⟩
        exact ⟨e, by rw [State.lookup_dropEntry, if_neg hne, he], rfl, rfl⟩
      · exact ⟨e, he, rfl, rfl⟩
  | selectEntriesIf predicate =>
    obtain ⟨-, rfl⟩ := locked_eq_some hstep
    exact State.keeps_select _ key e he
  | report index =>
    obtain ⟨r, -, rfl⟩ := Option.map_eq_some_iff.1 hstep
    unfold World.handleMokaRemoval
    split
    · exact ⟨e, he, rfl, rfl⟩
    · split
      · exact State.keeps_select [⟨r.1, e⟩] key e he
      · exact ⟨e, he, rfl, rfl⟩
  | _ => cases hruns

/-- The lease is assigned to the current generation of the key, which has this value. -/
structure Holds (w : World Key PinAlias Value) (leaseId : ℕ) (key : Key) (generation : ℕ)
    (value : Value) : Prop where
  sound : w.Sound
  lease : w.state.pinLeases.lookup leaseId = some (.assigned key generation)
  entry : ∃ e, w.state.entries.lookup key = some e ∧ e.generation = generation ∧ e.value = value

variable {generation : ℕ} {value : Value}

theorem Holds.step (h : w.Holds leaseId key generation value)
    (hlive : (w.guards.lookup leaseId).isSome) (hev : ¬w.Replaces cfg key ev)
    (hstep : Step cfg w ev w') : w'.Holds leaseId key generation value := by
  obtain ⟨e, he, hgen, hvalue⟩ := h.entry
  obtain ⟨e', he', hgen', hvalue'⟩ := entry_of_step h.sound hstep hev he
  refine ⟨h.sound.step hstep, ?_, e', he', hgen'.trans hgen, hvalue'.trans hvalue⟩
  obtain rfl | hkept := assigned_of_step h.sound hstep h.lease
  · unfold Step World.step at hstep
    dsimp only at hstep
    split at hstep
    · next hdropped => simp [(h.sound.dropped leaseId hdropped).1] at hlive
    · cases hstep
  · exact hkept

theorem Holds.get (h : w.Holds leaseId key generation value) :
    ∃ e, w.state.entries.lookup key = some e ∧ e.generation = generation ∧
      w.state.get key = some value := by
  obtain ⟨e, he, hgen, hvalue⟩ := h.entry
  have hpinned : e.residency = .pinned := by
    by_contra hne
    exact h.sound.state.free he hne leaseId (hgen ▸ h.lease)
  exact ⟨e, he, hgen, by simp [State.get, he, hpinned, hvalue]⟩

/-- **A pinned alias stays.** In every run: the guard that a conditional pin returns belongs to a
generation that carries the alias and whose value satisfies the predicate, unless no entry carries
the alias, when the guard is only reserved. And from any state in which a lease is assigned to the
current generation of a key, as long as its guard is live and no caller replaces or removes the key,
the key has this generation and a read returns its value, whatever Moka evicts and reports. -/
theorem pinned_alias_stays {maxCapacity : ℕ} {evs : List (Event Key PinAlias Value)}
    (h : Run (Step cfg) (initial maxCapacity) evs w) :
    (∀ pinAlias predicate r leaseId, w.state.tryPinAliasIf pinAlias predicate = some r →
      r.lease = some leaseId →
      (∃ key e, w.state.entries.lookup key = some e ∧ pinAlias ∈ e.pinAliases ∧
        predicate e.value = true ∧
        r.state.pinLeases.lookup leaseId = some (.assigned key e.generation)) ∨
      w.state.aliases.lookup pinAlias = none ∧
        r.state.pinLeases.lookup leaseId = some (.pending pinAlias)) ∧
    ∀ leaseId key e, w.state.entries.lookup key = some e →
      w.state.pinLeases.lookup leaseId = some (.assigned key e.generation) → ∀ evs' w',
      Run (Guarded (fun w ev => (w.guards.lookup leaseId).isSome ∧ ¬w.Replaces cfg key ev)
        (Step cfg)) w evs' w' →
      ∃ e', w'.state.entries.lookup key = some e' ∧ e'.generation = e.generation ∧
        w'.state.get key = some e.value := by
  have hw := sound_of_run h
  refine ⟨fun pinAlias predicate r leaseId hr => (State.tryPinAliasIf_guard hw.state hr).2 leaseId,
    fun leaseId key e he hlease evs' w' hrun => ?_⟩
  have hholds : w'.Holds leaseId key e.generation e.value :=
    hrun.invariant (I := fun w => w.Holds leaseId key e.generation e.value)
      (fun _ _ _ hholds hstep => hholds.step hstep.1.1 hstep.1.2 hstep.2)
      ⟨hw, hlease, e, he, rfl, rfl⟩
  exact hholds.get

/-- An entry is pinned after Moka decided to evict it. -/
def pinWhileEvicted : List (Event String String ℕ) :=
  [.insert "key" ["a"] 10, .act, .evict "key", .tryPinAliasIf "a" fun v => v = 10]

/-- Moka reports its eviction, and the pinned entry stays. -/
theorem pinned_alias_stays_evicted : ∃ w w' : World String String ℕ,
      Run (Step byValue) (initial 100) pinWhileEvicted w ∧
        Step byValue w (.report 0) w' ∧ w'.state.get "key" = some 10 := by
  obtain ⟨w, hrun, hentry, hguard, hreport⟩ := Run.exists_of_foldlM
    (World.step byValue) (initial 100) pinWhileEvicted
    (fun w => (w.state.entries.lookup "key").any (fun e => e.value = 10 ∧
        w.state.pinLeases.lookup 1 = some (.assigned "key" e.generation)) ∧
      (w.guards.lookup 1).isSome ∧ (w.step byValue (.report 0)).isSome)
    (by decide +kernel)
  obtain ⟨e, he, hvalue⟩ := (Option.any_eq_true _ _).1 hentry
  obtain ⟨hvalue, hlease⟩ := of_decide_eq_true hvalue
  obtain ⟨w', hstep⟩ := Option.isSome_iff_exists.1 hreport
  obtain ⟨_, -, -, hget⟩ := (pinned_alias_stays hrun).2 1 "key" e he hlease [.report 0] w'
    (.cons ⟨⟨hguard, id⟩, hstep⟩ (.nil _))
  exact ⟨w, w', hrun, hstep, hvalue ▸ hget⟩

end World

end Fluxon.PinAwareMoka
