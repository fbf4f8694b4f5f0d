import Fluxon.Foundations.Run
import Fluxon.Foundations.Table
import Fluxon.Foundations.Utf8
import Fluxon.Foundations.Word

/-!
# The prefix index

The master counts keys by their first bytes with a byte trie: each node caches how many indexed
keys lie in its subtree, an insertion adds one along the path of its key, a removal subtracts one
and prunes on the way back. A side table keeps the version (put id) each key is indexed under, so
that repeated insertions and stale removals change nothing.

The main result is `prefix_count_exact`: along every sequence of insertions and removals the cached
counts are the numbers of indexed keys, no node but the root has count zero, and every operation
changes the indexed keys as its return value says.
-/

namespace Fluxon.Router

open Function List

/-- A version of a key, its put id. -/
abbrev KeyVersion := ℕ × ℕ

/-! ## The trie -/

/-- A trie node: the number of keys in its subtree and its children by byte. -/
inductive Node
  | mk (count : ℕ) (children : UInt8 → Option Node)

namespace Node

def count : Node → ℕ
  | mk c _ => c

def children : Node → UInt8 → Option Node
  | mk _ ch => ch

/-- `Node::new`. -/
def new : Node := mk 0 fun _ => none

/-- Adds one to the count of a node, which panics at the end of the range. -/
def bump (place : String) (node : Node) : Except String Node :=
  match checkedAdd node.count 1 with
  | none => throw s!"PrefixRadixTree count overflow on insert ({place})"
  | some c => return mk c node.children

/-- The walk of `insert` from a node down the bytes of the key. -/
def insertPath (place : String) : List UInt8 → Node → Except String Node
  | [], node => node.bump place
  | b :: rest, node => do
    let node ← node.bump place
    let child ← insertPath "child" rest ((node.children b).getD new)
    return mk node.count (Function.update node.children b (some child))

/-- `remove_inner`: subtracts one along the path and says whether the node is to be pruned. -/
def removeInner : List UInt8 → Node → Node × Bool
  | [], node => (mk (node.count - 1) node.children, node.count - 1 = 0)
  | b :: rest, node =>
    match node.children b with
    | none => (mk (node.count - 1) node.children, node.count - 1 = 0)
    | some child =>
      let (child', shouldPrune) := removeInner rest child
      (mk (node.count - 1)
        (Function.update node.children b (if shouldPrune then none else some child')),
        node.count - 1 = 0)

/-- The node at the end of a path. -/
def find : List UInt8 → Node → Option Node
  | [], node => some node
  | b :: rest, node => (node.children b).bind (find rest)

/-- The count at the end of a path, zero if the path is not there. -/
def countAt (path : List UInt8) (node : Node) : ℕ := ((node.find path).map count).getD 0

end Node

/-! ## The index -/

/-- `PrefixRadixTree`. -/
structure PrefixRadixTree where
  root : Node
  versions : Table String KeyVersion

namespace PrefixRadixTree

def new : PrefixRadixTree := ⟨Node.new, ∅⟩

/-- `insert`: a key that is already counted only gets the new version. -/
def insert (t : PrefixRadixTree) (key : String) (version : KeyVersion) :
    Except String (Bool × PrefixRadixTree) :=
  match t.versions.lookup key with
  | some _ => return (false, { t with versions := t.versions.insert key version })
  | none => do
    let root ← t.root.insertPath "root" (asBytes key)
    return (true, ⟨root, t.versions.insert key version⟩)

variable (t : PrefixRadixTree)

/-- `remove`: nothing happens unless the key is indexed under exactly this version. -/
def remove (key : String) (version : KeyVersion) : Bool × PrefixRadixTree :=
  if t.versions.lookup key = some version then
    -- the whole path is looked up before any count changes
    match t.root.find (asBytes key) with
    | none => (false, { t with versions := t.versions.erase key })
    | some _ => (true, ⟨(t.root.removeInner (asBytes key)).1, t.versions.erase key⟩)
  else (false, t)

/-- `count_prefix`. -/
def countPrefix (p : String) : ℕ := t.root.countAt (asBytes p)

/-- The keys that are indexed now. -/
def indexed : Finset String := t.versions.keys.toFinset

end PrefixRadixTree

/-! ## Counts along a path -/

namespace Node

@[simp] theorem find_nil (node : Node) : node.find [] = some node := rfl

theorem find_cons (b : UInt8) (rest : List UInt8) (node : Node) :
    node.find (b :: rest) = (node.children b).bind (find rest) := rfl

@[simp] theorem countAt_nil (node : Node) : node.countAt [] = node.count := rfl

theorem countAt_cons (b : UInt8) (rest : List UInt8) (node : Node) :
    node.countAt (b :: rest) = ((node.children b).map (countAt rest)).getD 0 := by
  cases h : node.children b with
  | none | some => simp [countAt, find_cons, h]

variable {node : Node} {f : List UInt8 → ℕ} {b : UInt8} {key : List UInt8}

theorem bump_ok {place : String} {node' : Node} (h : node.bump place = .ok node') :
    node'.count = node.count + 1 ∧ node'.children = node.children := by
  rw [bump] at h
  cases hadd : checkedAdd node.count 1 with
  | none => simp [hadd, throw, throwThe, MonadExceptOf.throw] at h
  | some c =>
    rw [hadd] at h
    cases h
    exact ⟨(checkedAdd_eq_some.1 hadd).2, rfl⟩

theorem bump_eq_ok (place : String) (h : node.count < u64Max) :
    ∃ node', node.bump place = .ok node' := by
  have hadd : checkedAdd node.count 1 = some (node.count + 1) := checkedAdd_eq_some.2 ⟨h, rfl⟩
  rw [bump, hadd]
  exact ⟨_, rfl⟩

/-- The counts a node shows are those of `f`, and no node below it is dead. -/
structure Shows (node : Node) (f : List UInt8 → ℕ) : Prop where
  count : ∀ path, node.countAt path = f path
  live : ∀ path n, path ≠ [] → node.find path = some n → 0 < n.count

theorem Shows.child {child : Node} (h : node.Shows f) (hb : node.children b = some child) :
    0 < f [b] ∧ child.Shows fun path => f (b :: path) := by
  have hpos : 0 < f [b] := by
    rw [← h.count, countAt_cons, hb]
    exact h.live [b] child (by simp) (by simp [find_cons, hb])
  refine ⟨hpos, ?_, ?_⟩
  · intro path
    rw [← h.count, countAt_cons, hb]
    rfl
  · intro path n _ hn
    exact h.live (b :: path) n (by simp) (by rw [find_cons, hb]; exact hn)

theorem Shows.no_child (h : node.Shows f) (hb : node.children b = none) (path : List UInt8) :
    f (b :: path) = 0 := by
  rw [← h.count, countAt_cons, hb]
  rfl

/-- A node with the given children shows `f` when its count and its children do. -/
theorem Shows.of_children (hcount : node.count = f [])
    (hsome : ∀ b child, node.children b = some child →
      0 < f [b] ∧ child.Shows fun path => f (b :: path))
    (hnone : ∀ b, node.children b = none → ∀ path, f (b :: path) = 0) : node.Shows f := by
  constructor
  · intro path
    cases path with
    | nil => exact hcount
    | cons b rest =>
      rw [countAt_cons]
      cases hb : node.children b with
      | none => exact (hnone b hb rest).symm
      | some child => exact (hsome b child hb).2.count rest
  · intro path n hne hn
    cases path with
    | nil => exact absurd rfl hne
    | cons b rest =>
      rw [find_cons] at hn
      cases hb : node.children b with
      | none => rw [hb] at hn; cases hn
      | some child =>
        rw [hb] at hn
        obtain ⟨hpos, hchild⟩ := hsome b child hb
        cases rest with
        | nil =>
          obtain rfl : child = n := Option.some.inj hn
          have hc := hchild.count []
          rw [countAt_nil] at hc
          rw [hc]
          exact hpos
        | cons c rest => exact hchild.live (c :: rest) n (by simp) hn

theorem shows_new : new.Shows fun _ => 0 :=
  Shows.of_children rfl (fun _ _ h => by cases h) (fun _ _ _ => rfl)

/-! ## One insertion, one removal -/

/-- One more key, at the end of `key`. -/
def plus (f : List UInt8 → ℕ) (key path : List UInt8) : ℕ := f path + if path <+: key then 1 else 0

/-- One key less, at the end of `key`. -/
def minus (f : List UInt8 → ℕ) (key path : List UInt8) : ℕ := f path - if path <+: key then 1 else 0

theorem plus_cons_of_ne {c : UInt8} (h : c ≠ b) (key path : List UInt8) :
    plus f (b :: key) (c :: path) = f (c :: path) := by
  simp [plus, cons_prefix_cons, h]

theorem plus_cons_self (f : List UInt8 → ℕ) (b : UInt8) (key path : List UInt8) :
    plus f (b :: key) (b :: path) = plus (fun p => f (b :: p)) key path := by
  simp [plus, cons_prefix_cons]

theorem minus_cons_of_ne {c : UInt8} (h : c ≠ b) (key path : List UInt8) :
    minus f (b :: key) (c :: path) = f (c :: path) := by
  simp [minus, cons_prefix_cons, h]

theorem minus_cons_self (f : List UInt8 → ℕ) (b : UInt8) (key path : List UInt8) :
    minus f (b :: key) (b :: path) = minus (fun p => f (b :: p)) key path := by
  simp [minus, cons_prefix_cons]

theorem plus_nil_cons (f : List UInt8 → ℕ) (b : UInt8) (path : List UInt8) :
    plus f [] (b :: path) = f (b :: path) := by
  simp [plus]

theorem minus_nil_cons (f : List UInt8 → ℕ) (b : UInt8) (path : List UInt8) :
    minus f [] (b :: path) = f (b :: path) := by
  simp [minus]

theorem Shows.congr {g : List UInt8 → ℕ} (h : node.Shows f) (hfg : ∀ path, f path = g path) :
    node.Shows g := by
  have : f = g := funext hfg
  rwa [← this]

/-- The child an insertion continues in, a new one if there is none. -/
theorem Shows.entry (h : node.Shows f) (b : UInt8) :
    ((node.children b).getD new).Shows fun path => f (b :: path) := by
  cases hb : node.children b with
  | none => exact shows_new.congr fun path => (h.no_child hb path).symm
  | some child => exact (h.child hb).2

theorem Shows.insertPath {place : String} {node' : Node} (h : node.Shows f)
    (hins : node.insertPath place key = .ok node') : node'.Shows (plus f key) := by
  induction key generalizing place node node' f with
  | nil =>
    obtain ⟨hcount, hchildren⟩ := bump_ok hins
    refine Shows.of_children ?_ ?_ ?_
    · rw [hcount, ← countAt_nil, h.count]
      simp [plus]
    · intro b child hb
      rw [hchildren] at hb
      obtain ⟨hpos, hchild⟩ := h.child hb
      exact ⟨by rwa [plus_nil_cons], hchild.congr fun path => (plus_nil_cons f b path).symm⟩
    · intro b hb path
      rw [hchildren] at hb
      exact h.no_child hb path
  | cons b rest ih =>
    rw [Node.insertPath] at hins
    cases hbump : node.bump place with
    | error e => simp [hbump, bind, Except.bind] at hins
    | ok node₁ =>
      obtain ⟨hcount, hchildren⟩ := bump_ok hbump
      simp only [hbump, bind, Except.bind] at hins
      cases hrest : Node.insertPath "child" rest ((node₁.children b).getD new) with
      | error e => simp [hrest] at hins
      | ok child' =>
        simp only [hrest, pure, Except.pure, Except.ok.injEq] at hins
        subst hins
        have hchild' : child'.Shows (plus (fun path => f (b :: path)) rest) := by
          rw [hchildren] at hrest
          exact ih (h.entry b) hrest
        refine Shows.of_children ?_ ?_ ?_
        · change node₁.count = _
          rw [hcount, ← countAt_nil, h.count]
          simp [plus]
        · intro c child hc
          change update node₁.children b (some child') c = some child at hc
          by_cases hcb : c = b
          · subst hcb
            rw [update_self] at hc
            cases hc
            exact ⟨by simp [plus, cons_prefix_cons],
              hchild'.congr fun path => (plus_cons_self f c rest path).symm⟩
          · rw [update_of_ne hcb, hchildren] at hc
            obtain ⟨hpos, hchild⟩ := h.child hc
            exact ⟨by rwa [plus_cons_of_ne hcb],
              hchild.congr fun path => (plus_cons_of_ne hcb rest path).symm⟩
        · intro c hc path
          change update node₁.children b (some child') c = none at hc
          by_cases hcb : c = b
          · subst hcb
            rw [update_self] at hc
            cases hc
          · rw [update_of_ne hcb, hchildren] at hc
            rw [plus_cons_of_ne hcb]
            exact h.no_child hc path

/-- Counts that come from a set of keys with `key` in it: all initial parts of `key` are counted,
and where only one key is left, it is `key`. -/
structure Holds (f : List UInt8 → ℕ) (key : List UInt8) : Prop where
  pos : ∀ p, p <+: key → 0 < f p
  only : ∀ p, p <+: key → f p = 1 → ∀ q, p <+: q → f q = if q <+: key then 1 else 0

theorem Holds.tail {rest : List UInt8} (h : Holds f (b :: rest)) :
    Holds (fun path => f (b :: path)) rest := by
  constructor
  · intro p hp
    exact h.pos (b :: p) (cons_prefix_cons.2 ⟨rfl, hp⟩)
  · intro p hp hone q hpq
    have hq := h.only (b :: p) (cons_prefix_cons.2 ⟨rfl, hp⟩) hone (b :: q)
      (cons_prefix_cons.2 ⟨rfl, hpq⟩)
    simpa [cons_prefix_cons] using hq

/-- What the last key of a subtree leaves behind is nothing, so the subtree can be pruned. -/
theorem Holds.minus_eq_zero (h : Holds f key) (hone : f [] = 1) (path : List UInt8) :
    minus f key path = 0 := by
  have hpath := h.only [] nil_prefix hone path nil_prefix
  rw [minus, hpath]
  exact Nat.sub_self _

theorem count_removeInner (key : List UInt8) (node : Node) :
    (removeInner key node).1.count = node.count - 1 ∧
      (removeInner key node).2 = decide (node.count - 1 = 0) := by
  cases key with
  | nil => exact ⟨rfl, rfl⟩
  | cons b rest =>
    rw [removeInner]
    cases node.children b <;> exact ⟨rfl, rfl⟩

theorem Shows.removeInner (h : node.Shows f) (hk : Holds f key) :
    (node.removeInner key).1.Shows (minus f key) := by
  induction key generalizing node f with
  | nil =>
    refine Shows.of_children ?_ ?_ ?_
    · rw [(count_removeInner [] node).1, ← countAt_nil, h.count]
      simp [minus]
    · intro b child hb
      obtain ⟨hpos, hchild⟩ := h.child hb
      exact ⟨by rwa [minus_nil_cons], hchild.congr fun path => (minus_nil_cons f b path).symm⟩
    · intro b hb path
      exact h.no_child hb path
  | cons b rest ih =>
    have hpos : 0 < f [b] := hk.pos [b] (by simp [cons_prefix_cons])
    cases hb : node.children b with
    | none =>
      have hzero := h.no_child hb []
      omega
    | some child =>
      have hchild := (h.child hb).2
      have hcount : child.count = f [b] := hchild.count []
      have hnext := ih hchild hk.tail
      have hprune := (count_removeInner rest child).2
      have hchildren : (node.removeInner (b :: rest)).1.children = update node.children b
          (if (child.removeInner rest).2 then none else some (child.removeInner rest).1) := by
        rw [Node.removeInner, hb]
        rfl
      refine Shows.of_children ?_ ?_ ?_
      · rw [(count_removeInner (b :: rest) node).1, ← countAt_nil, h.count]
        simp [minus]
      · intro c child₁ hc
        rw [hchildren] at hc
        by_cases hcb : c = b
        · subst hcb
          rw [update_self, hprune, hcount] at hc
          by_cases hdead : f [c] - 1 = 0
          · simp [hdead] at hc
          · simp only [hdead, decide_false, Bool.false_eq_true, if_false, Option.some.injEq] at hc
            subst hc
            exact ⟨by simp [minus, cons_prefix_cons]; omega,
              hnext.congr fun path => (minus_cons_self f c rest path).symm⟩
        · rw [update_of_ne hcb] at hc
          obtain ⟨hcpos, hcchild⟩ := h.child hc
          exact ⟨by rwa [minus_cons_of_ne hcb],
            hcchild.congr fun path => (minus_cons_of_ne hcb rest path).symm⟩
      · intro c hc path
        rw [hchildren] at hc
        by_cases hcb : c = b
        · subst hcb
          rw [update_self, hprune, hcount] at hc
          by_cases hdead : f [c] - 1 = 0
          · rw [minus_cons_self]
            exact hk.tail.minus_eq_zero (by omega) path
          · simp [hdead] at hc
        · rw [update_of_ne hcb] at hc
          rw [minus_cons_of_ne hcb]
          exact h.no_child hc path

/-- An insertion does not panic while no count on its path is at the end of the range. -/
theorem Shows.exists_insertPath (place : String) {key : List UInt8} {node : Node}
    {f : List UInt8 → ℕ} (h : node.Shows f) (hle : ∀ path, f path < u64Max) :
    ∃ node', node.insertPath place key = .ok node' := by
  induction key generalizing place node f with
  | nil =>
    refine bump_eq_ok place ?_
    have hcount := h.count []
    rw [countAt_nil] at hcount
    rw [hcount]
    exact hle []
  | cons b rest ih =>
    have hcount := h.count []
    rw [countAt_nil] at hcount
    obtain ⟨node₁, hbump⟩ := @bump_eq_ok node place (hcount ▸ hle [])
    obtain ⟨child', hrest⟩ := ih "child" (h.entry b) fun path => hle (b :: path)
    refine ⟨Node.mk node₁.count (update node.children b (some child')), ?_⟩
    rw [Node.insertPath, hbump]
    simp only [bind, Except.bind, (bump_ok hbump).2, hrest]
    rfl

end Node

/-! ## Counts of a set of keys -/

/-- The number of keys of a list whose bytes start with a path. -/
def keysUnder (keys : List String) (path : List UInt8) : ℕ :=
  keys.countP fun k => path.isPrefixOf (asBytes k)

theorem keysUnder_cons (key : String) (keys : List String) (path : List UInt8) :
    keysUnder (key :: keys) path = Node.plus (keysUnder keys) (asBytes key) path := by
  simp [keysUnder, Node.plus, countP_cons]

theorem keysUnder_erase {key : String} {keys : List String} (h : key ∈ keys) (path : List UInt8) :
    keysUnder (keys.erase key) path = Node.minus (keysUnder keys) (asBytes key) path := by
  simp [keysUnder, Node.minus, countP_erase, h]

theorem keysUnder_le_length (keys : List String) (path : List UInt8) :
    keysUnder keys path ≤ keys.length := countP_le_length

theorem holds_keysUnder {key : String} {keys : List String} (hkey : key ∈ keys) :
    Node.Holds (keysUnder keys) (asBytes key) := by
  constructor
  · intro p hp
    exact countP_pos_iff.2 ⟨key, hkey, isPrefixOf_iff_prefix.2 hp⟩
  intro p hp hone q hpq
  -- the keys under `p` are `key` alone, and those under `q` are among them
  rw [keysUnder, countP_eq_length_filter] at hone
  obtain ⟨x, hx⟩ := length_eq_one_iff.1 hone
  have hmem : key ∈ keys.filter fun k => p.isPrefixOf (asBytes k) :=
    mem_filter.2 ⟨hkey, isPrefixOf_iff_prefix.2 hp⟩
  have hxkey : key = x := by
    rw [hx] at hmem
    exact mem_singleton.1 hmem
  subst hxkey
  have hq : keysUnder keys q = keysUnder [key] q := by
    rw [← hx, keysUnder, keysUnder, countP_filter]
    refine countP_congr fun k _ => ?_
    simp only [Bool.and_eq_true, isPrefixOf_iff_prefix]
    exact ⟨fun h => ⟨h, hpq.trans h⟩, fun h => h.1⟩
  rw [hq]
  simp [keysUnder, countP_cons]

/-! ## The index along a run -/

namespace PrefixRadixTree

/-- The trie shows the counts of the keys in the version table. -/
def Sound (t : PrefixRadixTree) : Prop := t.root.Shows (keysUnder t.versions.keys)

theorem sound_new : new.Sound := Node.shows_new

variable {t t' : PrefixRadixTree} {key : String}

theorem mem_indexed : key ∈ t.indexed ↔ ∃ v, t.versions.lookup key = some v := by
  rw [indexed, mem_toFinset, ← AList.mem_keys, ← AList.lookup_isSome, Option.isSome_iff_exists]

theorem card_indexed (t : PrefixRadixTree) : t.indexed.card = t.versions.keys.length :=
  toFinset_card_of_nodup t.versions.keys_nodup

theorem countPrefix_eq (h : t.Sound) (p : String) :
    t.countPrefix p = (t.indexed.filter fun k => startsWith k p).card := by
  have hfilter : (t.indexed.filter fun k => startsWith k p) =
      (t.versions.keys.filter fun k => startsWith k p).toFinset := by
    rw [indexed, toFinset_filter]
  rw [countPrefix, h.count, hfilter,
    toFinset_card_of_nodup (t.versions.keys_nodup.filter _), keysUnder,
    countP_eq_length_filter]
  rfl

theorem exists_insert (h : t.Sound) (hcard : t.indexed.card < u64Max) (key : String)
    (version : KeyVersion) : ∃ r, t.insert key version = .ok r := by
  rw [insert]
  cases t.versions.lookup key with
  | some _ => exact ⟨_, rfl⟩
  | none =>
    rw [card_indexed] at hcard
    obtain ⟨root, hroot⟩ := @Node.Shows.exists_insertPath "root" (asBytes key) _ _ h
      fun path => (keysUnder_le_length _ path).trans_lt hcard
    exact ⟨(true, ⟨root, t.versions.insert key version⟩), by simp only [hroot]; rfl⟩

variable {version : KeyVersion}

/-- **One insertion.** The version is recorded, and the return value says whether the key is
new. -/
theorem insert_spec {b : Bool} (h : t.Sound) (hins : t.insert key version = .ok (b, t')) :
    t'.Sound ∧ t'.versions = t.versions.insert key version ∧ (b = true ↔ key ∉ t.indexed) := by
  rw [insert] at hins
  cases hlookup : t.versions.lookup key with
  | some u =>
    simp only [hlookup, pure, Except.pure, Except.ok.injEq, Prod.mk.injEq] at hins
    obtain ⟨rfl, rfl⟩ := hins
    have hmem : key ∈ t.indexed := mem_indexed.2 ⟨u, hlookup⟩
    have hkey : key ∈ t.versions.keys := mem_toFinset.1 hmem
    refine ⟨h.congr fun path => ?_, rfl, by simp [hmem]⟩
    -- the key only moves to the front of the table
    have hperm : (key :: t.versions.keys.erase key).Perm t.versions.keys :=
      (perm_cons_erase hkey).symm
    rw [AList.keys_insert]
    exact (hperm.countP_eq _).symm
  | none =>
    have hmem : key ∉ t.indexed := fun hmem => by
      obtain ⟨v, hv⟩ := mem_indexed.1 hmem
      rw [hlookup] at hv
      cases hv
    have hkey : key ∉ t.versions.keys := fun hk => hmem (mem_toFinset.2 hk)
    simp only [hlookup] at hins
    cases hroot : t.root.insertPath "root" (asBytes key) with
    | error e => simp [hroot, bind, Except.bind] at hins
    | ok root =>
      simp only [hroot, bind, Except.bind, pure, Except.pure, Except.ok.injEq,
        Prod.mk.injEq] at hins
      obtain ⟨rfl, rfl⟩ := hins
      refine ⟨(Node.Shows.insertPath h hroot).congr fun path => ?_, rfl, by simp [hmem]⟩
      rw [AList.keys_insert, erase_of_not_mem hkey, keysUnder_cons]

/-- **One removal.** Only the exact version is removed; any other call changes nothing. -/
theorem remove_spec {b : Bool} (h : t.Sound) (hrem : t.remove key version = (b, t')) :
    (b = true ∧ t.versions.lookup key = some version ∧ t'.Sound ∧
        t'.versions = t.versions.erase key) ∨
      (b = false ∧ t.versions.lookup key ≠ some version ∧ t' = t) := by
  rw [remove] at hrem
  by_cases hlookup : t.versions.lookup key = some version
  · have hkey : key ∈ t.versions.keys := mem_toFinset.1 (mem_indexed.2 ⟨version, hlookup⟩)
    have hholds := holds_keysUnder hkey
    -- the path of an indexed key is there, so the early exit is not taken
    have hfind : ∃ n, t.root.find (asBytes key) = some n := by
      have hpos := hholds.pos (asBytes key) (prefix_refl _)
      rw [← h.count, Node.countAt] at hpos
      cases hn : t.root.find (asBytes key) with
      | none => simp [hn] at hpos
      | some n => exact ⟨n, rfl⟩
    obtain ⟨n, hn⟩ := hfind
    simp only [if_pos hlookup, hn, Prod.mk.injEq] at hrem
    obtain ⟨rfl, rfl⟩ := hrem
    refine .inl ⟨rfl, hlookup, (Node.Shows.removeInner h hholds).congr fun path => ?_, rfl⟩
    rw [AList.keys_erase, keysUnder_erase hkey]
  · rw [if_neg hlookup] at hrem
    obtain ⟨rfl, rfl⟩ := Prod.mk.injEq .. ▸ hrem
    exact .inr ⟨rfl, hlookup, rfl⟩

/-- The operations on the index. -/
inductive Op
  | insert (key : String) (version : KeyVersion)
  | remove (key : String) (version : KeyVersion)

/-- One operation; an insertion that panics has no result. -/
def step (t : PrefixRadixTree) : Op → Option PrefixRadixTree
  | .insert key version => (t.insert key version).toOption.map Prod.snd
  | .remove key version => some (t.remove key version).2

def Step (t : PrefixRadixTree) (op : Op) (t' : PrefixRadixTree) : Prop := t.step op = some t'

theorem Sound.step {op : Op} (h : t.Sound) (hstep : Step t op t') : t'.Sound := by
  cases op with
  | insert key version =>
    rw [Step, PrefixRadixTree.step] at hstep
    cases hins : t.insert key version with
    | error e => rw [hins] at hstep; cases hstep
    | ok r =>
      rw [hins] at hstep
      cases hstep
      exact (insert_spec h hins).1
  | remove key version =>
    cases hstep
    obtain ⟨-, -, hsound, -⟩ | ⟨-, -, heq⟩ := remove_spec h Prod.mk.eta.symm
    · exact hsound
    · rw [heq]
      exact h

/-- **Prefix counts are exact.** After any sequence of insertions and removals: every count is the
number of indexed keys that start with the given string; no node but the root is dead; an insertion
goes through as long as fewer than `u64::MAX` keys are indexed; and each operation changes the
indexed keys as its return value says, a removal of another version not at all. -/
theorem prefix_count_exact {ops : List Op} {t : PrefixRadixTree} (hrun : Run Step new ops t) :
    (∀ p, t.countPrefix p = (t.indexed.filter fun k => startsWith k p).card) ∧
    (∀ path n, path ≠ [] → t.root.find path = some n → 0 < n.count) ∧
    (∀ key version, t.indexed.card < u64Max → ∃ r, t.insert key version = .ok r) ∧
    (∀ key version b t', t.insert key version = .ok (b, t') →
      (b = true ↔ key ∉ t.indexed) ∧ t'.indexed = Insert.insert key t.indexed ∧
        t'.versions.lookup key = some version) ∧
    ∀ key version b t', t.remove key version = (b, t') →
      (b = true → t.versions.lookup key = some version ∧ t'.indexed = t.indexed.erase key) ∧
      (b = false → t.versions.lookup key ≠ some version ∧ t' = t) := by
  have h : t.Sound := hrun.invariant (fun _ _ _ hs => hs.step) sound_new
  refine ⟨countPrefix_eq h, h.live, fun key version hcard => exists_insert h hcard key version,
    ?_, ?_⟩
  · intro key version b t' hins
    obtain ⟨-, hversions, hb⟩ := insert_spec h hins
    refine ⟨hb, ?_, by rw [hversions, AList.lookup_insert]⟩
    ext k
    rw [mem_indexed, hversions, Finset.mem_insert, mem_indexed]
    by_cases hk : k = key
    · subst hk
      simp
    · simp [AList.lookup_insert_ne hk, hk]
  · intro key version b t' hrem
    obtain ⟨rfl, hlookup, -, hversions⟩ | ⟨rfl, hlookup, heq⟩ := remove_spec h hrem
    · refine ⟨fun _ => ⟨hlookup, ?_⟩, nofun⟩
      ext k
      rw [mem_indexed, hversions, Finset.mem_erase, mem_indexed]
      by_cases hk : k = key
      · subst hk
        simp
      · simp [AList.lookup_erase_ne hk, hk]
    · exact ⟨nofun, fun _ => ⟨hlookup, heq⟩⟩

/-- Two keys, one of them indexed again and then removed under its old version. -/
def sampleOps : List Op :=
  [.insert "ab" (1, 0), .insert "a" (1, 1), .insert "ab" (2, 0), .remove "ab" (1, 0),
    .remove "a" (1, 1)]

theorem prefix_count_exact_sampleOps : ∃ t, Run Step new sampleOps t ∧
    ∀ p, t.countPrefix p = (t.indexed.filter fun k => startsWith k p).card := by
  have hsome : (sampleOps.foldlM step new).isSome := by decide +kernel
  obtain ⟨t, ht⟩ := Option.isSome_iff_exists.1 hsome
  have hrun : Run Step new sampleOps t := Run.of_foldlM ht
  exact ⟨t, hrun, (prefix_count_exact hrun).1⟩

end PrefixRadixTree

end Fluxon.Router
