import Fluxon.Foundations.Run
import Mathlib.Data.Int.Notation
import Mathlib.Data.Nat.Notation
import Mathlib.Logic.Function.Basic

/-!
# The open cache and the request identity

`open_plan_remote` sends its request as the current identity and stores the answer under the
fingerprint of the identity that is current after it. If the identity changes in between, the answer
is stored under the fingerprint of the other (`stored_under_other_identity`). After a hit the bytes
of a small file come from the pieces that all identities share, and these may have been staged for
another identity (`staged_for_other_identity`). If the identity stays the same from the request to
the read of the fingerprint, and no bytes come from the shared pieces after a hit, all that is
stored under a fingerprint was answered to its identity (`owned_of_run`).

An entry and a descriptor also have the identity of the request that the remote side answered. Any
entry may be dropped at any time.
-/

namespace Fluxon.FsAgent

open Function

/-- What the remote side says about a file. -/
structure RemoteStat where
  exists_ : Bool
  isFile : Bool
  isDir : Bool
  size : ℤ
  mtimeNs : ℤ
  deriving DecidableEq

/-- The text `s{size}_m{mtime_ns}` stands for the pair. -/
def RemoteStat.sig (st : RemoteStat) : ℤ × ℤ := (st.size, st.mtimeNs)

/-- The key of both caches. -/
structure CacheKey where
  identityFingerprint : String
  exportName : String
  relpath : String
  deriving DecidableEq

/-- An identity and its fingerprint, a hash of name and password. -/
structure Identity where
  username : String
  password : String
  fingerprint : String
  deriving DecidableEq

/-- A stat and the identity of the request it answers. -/
structure Answer where
  stat : RemoteStat
  asked : Option Identity
  deriving DecidableEq

/-- An entry of the metadata cache and, if there is one, the descriptor of the same key with the
identity as which its bytes were read. -/
structure Entry where
  answer : Answer
  inlineFd : Option (Option Identity)
  deriving DecidableEq

/-- The metadata cache and the cache of inline descriptors. -/
abbrev Cache := CacheKey → Option Entry

/-- A descriptor is kept if the signature of the entry is still the same. -/
def metadataCacheStore (c : Cache) (key : CacheKey) (answer : Answer) : Cache :=
  let st := answer.stat
  if st.exists_ ∧ st.isFile ∧ ¬st.isDir ∧ 0 ≤ st.size ∧ 0 ≤ st.mtimeNs then
    let same := (c key).filter (·.answer.stat.sig = st.sig)
    update c key (some ⟨answer, same.bind Entry.inlineFd⟩)
  else c

/-- The descriptor goes to the entry of its signature, if there is one. -/
def inlineFdCacheStore (c : Cache) (key : CacheKey) (sig : ℤ × ℤ) (asked : Option Identity) :
    Cache :=
  match c key with
  | some e =>
    if e.answer.stat.sig = sig then update c key (some ⟨e.answer, some asked⟩) else c
  | none => c

/-- Where an open stands: after a hit, a request, its answer (with inline bytes or without), the
read of the fingerprint, the store of the entry. -/
inductive OpenPhase
  | idle
  | hit (key : CacheKey) (answer : Answer)
  | requested (exportName relpath : String) (asked : Option Identity)
  | answered (exportName relpath : String) (answer : Answer) (inline : Bool)
  | storing (key : CacheKey) (answer : Answer) (bytes : Option (Option Identity))
  | filling (key : CacheKey) (sig : ℤ × ℤ) (asked : Option Identity)

/-- The export, the path and the signature of a file, which name its pieces for all identities. -/
abbrev PieceKey := String × String × (ℤ × ℤ)

/-- The caches of an agent, its current identity, its opens, and the pieces in the key-value store
with the identity as which they were read when they were staged. -/
structure OpenWorld where
  cache : Cache
  requestIdentity : Option Identity
  opens : ℕ → OpenPhase
  pieces : PieceKey → Option (Option Identity)

/-- A step of an open, of the one that stages pieces, of a cache that drops an entry, or a change of
the identity. -/
inductive OpenEvent
  | lookup (i : ℕ) (exportName relpath : String)
  | request (i : ℕ) (exportName relpath : String)
  | answer (i : ℕ) (stat : RemoteStat) (inline : Bool)
  | readFingerprint (i : ℕ)
  | kvBytes (i : ℕ)
  | stage (file : PieceKey) (asked : Option Identity)
  | store (i : ℕ)
  | storeFd (i : ℕ)
  | drop (key : CacheKey)
  | evict (key : CacheKey)
  | setRequestIdentity (identity : Option Identity)

namespace OpenWorld

/-- No entry, no identity, no open, no piece. -/
def new : OpenWorld := ⟨fun _ => none, none, fun _ => .idle, fun _ => none⟩

/-- One open goes on. -/
def goto (s : OpenWorld) (i : ℕ) (phase : OpenPhase) : OpenWorld :=
  { s with opens := update s.opens i phase }

/-- One event. -/
def step (s : OpenWorld) : OpenEvent → Option OpenWorld
  | .lookup i exportName relpath =>
    match s.opens i, s.requestIdentity with
    | .idle, some id =>
      let key := ⟨id.fingerprint, exportName, relpath⟩
      (s.cache key).map fun e => s.goto i (.hit key e.answer)
    | _, _ => none
  | .request i exportName relpath =>
    -- a hit without bytes goes on as a miss
    match s.opens i with
    | .idle | .hit .. => some (s.goto i (.requested exportName relpath s.requestIdentity))
    | _ => none
  | .answer i stat inline =>
    match s.opens i with
    | .requested exportName relpath asked =>
      some (s.goto i (.answered exportName relpath ⟨stat, asked⟩ inline))
    | _ => none
  | .readFingerprint i =>
    match s.opens i, s.requestIdentity with
    | .answered exportName relpath answer inline, some id =>
      some (s.goto i (.storing ⟨id.fingerprint, exportName, relpath⟩ answer
        (if inline then some answer.asked else none)))
    | _, _ => none
  -- The pieces in the key-value store are shared by all identities.
  | .kvBytes i =>
    match s.opens i, s.requestIdentity with
    | .hit key answer, some id =>
      (s.pieces (key.exportName, key.relpath, answer.stat.sig)).map fun asked =>
        s.goto i (.storing { key with identityFingerprint := id.fingerprint } answer (some asked))
    | _, _ => none
  | .stage file asked => some { s with pieces := update s.pieces file (some asked) }
  | .store i =>
    match s.opens i with
    | .storing key answer bytes =>
      some { s.goto i (bytes.elim .idle (.filling key answer.stat.sig)) with
        cache := metadataCacheStore s.cache key answer }
    | _ => none
  | .storeFd i =>
    match s.opens i with
    | .filling key sig asked =>
      some { s.goto i .idle with cache := inlineFdCacheStore s.cache key sig asked }
    | _ => none
  | .drop key => some { s with cache := update s.cache key none }
  | .evict key =>
    some { s with
      cache := update s.cache key ((s.cache key).map fun e => ⟨e.answer, none⟩) }
  | .setRequestIdentity identity => some { s with requestIdentity := identity }

end OpenWorld

/-- The request was made as an identity with the fingerprint of the key. -/
def Owned (key : CacheKey) (asked : Option Identity) : Prop :=
  ∃ id, asked = some id ∧ id.fingerprint = key.identityFingerprint

/-- The entry and its descriptor were answered to an identity with the fingerprint of the key. -/
def Entry.Owned (key : CacheKey) (e : Entry) : Prop := FsAgent.Owned key e.answer.asked ∧
    ∀ asked, e.inlineFd = some asked → FsAgent.Owned key asked

/-- All that is cached was answered to an identity with the fingerprint of its key. -/
def AllOwned (c : Cache) : Prop := ∀ key e, c key = some e → e.Owned key

/-- What an open holds for a key was answered to an identity with the fingerprint of the key. -/
def OpenPhase.Owned : OpenPhase → Prop
  | .hit key answer => FsAgent.Owned key answer.asked
  | .storing key answer bytes => (Entry.mk answer bytes).Owned key
  | .filling key _ asked => FsAgent.Owned key asked
  | _ => True

namespace AllOwned

variable {c : Cache} {key : CacheKey} {asked : Option Identity}

theorem update (h : AllOwned c) {o : Option Entry} (ho : ∀ e, o = some e → e.Owned key) :
    AllOwned (update c key o) := by
  intro k e he
  rw [update_apply] at he
  split at he
  · next hk =>
    subst hk
    exact ho e he
  · exact h k e he

theorem store (h : AllOwned c) {answer : Answer} (hown : Owned key answer.asked) :
    AllOwned (metadataCacheStore c key answer) := by
  simp only [metadataCacheStore]
  split
  · refine h.update ?_
    rintro _ ⟨⟩
    refine ⟨hown, fun asked hfd => ?_⟩
    obtain ⟨e, he, hasked⟩ := Option.bind_eq_some_iff.1 hfd
    exact (h key e (Option.filter_eq_some_iff.1 he).1).2 asked hasked
  · exact h

theorem storeFd (h : AllOwned c) (sig : ℤ × ℤ) (hown : Owned key asked) :
    AllOwned (inlineFdCacheStore c key sig asked) := by
  fun_cases inlineFdCacheStore c key sig asked <;> try exact h
  next e he _ =>
    refine h.update ?_
    rintro _ ⟨⟩
    refine ⟨(h key e he).1, ?_⟩
    rintro _ ⟨⟩
    exact hown

end AllOwned

namespace OpenWorld

/-- The fingerprint is read under the identity of the request, and no bytes come from the shared
pieces after a hit. -/
def SameIdentity (s : OpenWorld) : OpenEvent → Prop
  | .readFingerprint i => ∀ exportName relpath answer inline,
      s.opens i = .answered exportName relpath answer inline → s.requestIdentity = answer.asked
  | .kvBytes _ => False
  | _ => True

variable {s s' : OpenWorld}

theorem owned_goto (h : ∀ j, (s.opens j).Owned) {phase : OpenPhase} {i : ℕ}
    (hphase : phase.Owned) (j : ℕ) : ((s.goto i phase).opens j).Owned := by
  simp only [goto, update_apply]
  split
  · exact hphase
  · exact h j

/-- What an open holds for a key and what is in the cache stay owned. -/
theorem owned_of_step {ev : OpenEvent} (hsame : s.SameIdentity ev) (hs : s.step ev = some s')
    (hcache : AllOwned s.cache) (hopens : ∀ i, (s.opens i).Owned) :
    AllOwned s'.cache ∧ ∀ i, (s'.opens i).Owned := by
  revert hs
  fun_cases OpenWorld.step s ev <;> intro hs <;> try cases hs
  · obtain ⟨e, he, rfl⟩ := Option.map_eq_some_iff.1 hs
    exact ⟨hcache, owned_goto hopens (hcache _ e he).1⟩
  · exact ⟨hcache, owned_goto hopens trivial⟩
  · exact ⟨hcache, owned_goto hopens trivial⟩
  · exact ⟨hcache, owned_goto hopens trivial⟩
  · next inline id hid hi =>
    have hown := (hsame _ _ _ _ hi).symm.trans hid
    refine ⟨hcache, owned_goto hopens ⟨⟨id, hown, rfl⟩, fun asked hasked => ⟨id, ?_, rfl⟩⟩⟩
    cases inline with
    | false => cases hasked
    | true => exact (Option.some_inj.1 hasked).symm.trans hown
  · exact hsame.elim
  · exact ⟨hcache, hopens⟩
  · next i _ _ bytes hi =>
    have hphase := hopens i
    rw [hi] at hphase
    refine ⟨hcache.store hphase.1, owned_goto hopens ?_⟩
    cases bytes with
    | none => trivial
    | some asked => exact hphase.2 asked rfl
  · next i _ _ _ hi =>
    have hphase := hopens i
    rw [hi] at hphase
    exact ⟨hcache.storeFd _ hphase, owned_goto hopens trivial⟩
  · exact ⟨hcache.update nofun, hopens⟩
  · next key =>
    refine ⟨hcache.update ?_, hopens⟩
    intro _ hmap
    obtain ⟨e, he, rfl⟩ := Option.map_eq_some_iff.1 hmap
    exact ⟨(hcache key e he).1, nofun⟩
  · exact ⟨hcache, hopens⟩

/-- If the identity is not changed in the middle of an open and no bytes come from the shared pieces
after a hit, all that the cache has under a fingerprint was answered to a request of its
identity. -/
theorem owned_of_run (evs : List OpenEvent) (s : OpenWorld)
    (h : Run (Guarded SameIdentity fun s ev s' => s.step ev = some s') new evs s) :
    AllOwned s.cache := by
  refine (h.invariant (I := fun s => AllOwned s.cache ∧
    ∀ i, (s.opens i).Owned) ?_ ⟨nofun, fun _ => trivial⟩).1
  rintro s ev s' ⟨hcache, hopens⟩ ⟨hsame, hs⟩
  exact owned_of_step hsame hs hcache hopens

/-- An open of one file, with a change of the identity before the fingerprint is read. -/
def opened (fingerprint next : String) : List OpenEvent :=
  [.setRequestIdentity (some ⟨"u", "p", fingerprint⟩), .request 0 "e" "f",
    .answer 0 ⟨true, true, false, 1, 1⟩ false, .setRequestIdentity (some ⟨"u", "p", next⟩),
    .readFingerprint 0, .store 0]

theorem owned_of_run_one : ∃ s : OpenWorld, s.cache ⟨"a", "e", "f"⟩ ≠ none ∧ AllOwned s.cache := by
  refine ⟨_, ?_, owned_of_run (opened "a" "a") _ <| .cons ⟨trivial, rfl⟩ <|
    .cons ⟨trivial, rfl⟩ <| .cons ⟨trivial, rfl⟩ <| .cons ⟨trivial, rfl⟩ <|
    .cons ⟨?_, rfl⟩ <| .cons ⟨trivial, rfl⟩ <| .nil _⟩
  · decide
  · rintro _ _ _ _ ⟨⟩
    rfl

/-- The identity changes between the answer and the read of the fingerprint. -/
theorem stored_under_other_identity : ∃ s : OpenWorld,
    Run (fun s ev s' => s.step ev = some s') new (opened "a" "b") s ∧ ¬AllOwned s.cache := by
  refine ⟨_, Run.of_foldlM rfl, ?_⟩
  intro h
  obtain ⟨_, ⟨⟩, hfp⟩ := (h ⟨"b", "e", "f"⟩ _ rfl).1
  revert hfp
  decide

/-- The pieces of a file were staged for another identity, and an open takes its bytes from them
after a hit of its own identity, which is not changed. -/
theorem staged_for_other_identity : ∃ s : OpenWorld,
    Run (fun s ev s' => s.step ev = some s') new (opened "a" "a" ++
      [.stage ("e", "f", (1, 1)) (some ⟨"v", "q", "b"⟩), .lookup 0 "e" "f", .kvBytes 0, .store 0,
        .storeFd 0]) s ∧
      ¬AllOwned s.cache := by
  refine ⟨_, Run.of_foldlM rfl, ?_⟩
  intro h
  obtain ⟨_, ⟨⟩, hfp⟩ := (h ⟨"a", "e", "f"⟩ _ rfl).2 _ rfl
  revert hfp
  decide

end OpenWorld

end Fluxon.FsAgent
