import Fluxon.TransferJob.Rows
import Mathlib.Data.Char
import Mathlib.Data.List.Lex
import Mathlib.Data.List.Permutation
import Mathlib.Data.List.Sort
import Mathlib.Data.Prod.Lex

/-!
# The skip list of a transfer job

`normalize_transfer_skip_entries` sorts the entries and looks for duplicates and nested entries
among neighbours only. The check is exact on a list just if it has no two entries that clash, or two
of which the first clashes with all that is sorted between them (`skip_entries_exact`). A name that
goes on from a directory with a character below `/` is sorted between it and the paths below it, and
then nested entries can be accepted (`nested_skip_entries_accepted`).
-/

namespace Fluxon.TransferJob

open TransferScan (SkipEntryKind)

/-- A skip entry with its path as the text that is sent and compared. -/
structure SkipEntry where
  kind : SkipEntryKind
  relpath : List Char
  deriving DecidableEq

/-- The path is the directory, or what `strip_prefix` leaves of it starts with a slash. -/
def Covers (dir path : List Char) : Prop := path = dir ∨ dir ++ ['/'] <+: path

instance (dir path : List Char) : Decidable (Covers dir path) := inferInstanceAs (Decidable (_ ∨ _))

namespace SkipEntry

/-- What the entries are sorted by. The order of the bytes of a text is that of its characters. -/
def key (e : SkipEntry) : List Char ×ₗ ℕ :=
  toLex (e.relpath, match e.kind with | .dir => 0 | .file => 1)

/-- `skip_entry_matches_relpath`. -/
def matchesRelpath (skip : SkipEntry) (relpath : List Char) : Bool :=
  match skip.kind with
  | .dir => Covers skip.relpath relpath
  | .file => relpath = skip.relpath

end SkipEntry

/-- `normalize_transfer_skip_relpath`. The components of a relative path are its segments without
the empty ones and without `.`, except at the start. -/
def normalizeTransferSkipRelpath (raw : List Char) : Except String (List Char) :=
  let trimmed := trim raw
  let shown := String.ofList raw
  if trimmed = [] then .error "skip relpath must be non-empty"
  else if trimmed.head? = some '/' then .error s!"skip relpath must be relative: {shown}"
  else if (splitSlash trimmed).head? = some ['.'] ∨ (splitSlash trimmed).any (· = ['.', '.']) then
    .error s!"skip relpath must be a normal relative path: {shown}"
  else match safeRelpath trimmed with
    | .ok relpath => .ok relpath.toList
    | .error e => .error s!"invalid skip relpath: input={shown} err={e}"

/-- The check of neighbours. -/
def checkNeighbours : List SkipEntry → Except String Unit
  | prev :: curr :: rest =>
    if prev.kind = curr.kind ∧ prev.relpath = curr.relpath then
      let kind := match curr.kind with | .dir => "Dir" | .file => "File"
      .error (s!"duplicate skip entry: FluxonFsTransferSkipEntryWire \x7b kind: {kind}, " ++
        s!"relpath: {(String.ofList curr.relpath).quote} \x7d")
    else if prev.kind = .dir ∧ Covers prev.relpath curr.relpath then
      .error (s!"nested skip entries are not allowed: parent_dir={String.ofList prev.relpath} " ++
        s!"child={String.ofList curr.relpath}")
    else checkNeighbours (curr :: rest)
  | _ => .ok ()

/-- The entries in the order of the sort. -/
def sortEntries (l : List SkipEntry) : List SkipEntry := l.insertionSort fun a b => a.key ≤ b.key

/-- `normalize_transfer_skip_entries`. -/
def normalizeTransferSkipEntries (entries : List SkipEntry) : Except String (List SkipEntry) := do
  let normalized ← entries.mapM fun e => do
    return { e with relpath := ← normalizeTransferSkipRelpath e.relpath }
  checkNeighbours (sortEntries normalized)
  return sortEntries normalized

/-! ## Neighbours -/

/-- Of two directories that cover a path, one covers the other. -/
theorem Covers.or_of_covers {d d' x : List Char} (h : Covers d x) (h' : Covers d' x) :
    Covers d d' ∨ Covers d' d := by
  have hiff : ∀ p q, Covers p q ↔ p ++ ['/'] <+: q ++ ['/'] := by
    intro p q
    rw [List.prefix_concat_iff, Covers, List.append_left_inj, eq_comm]
  rw [hiff] at *
  rw [hiff]
  exact List.prefix_or_prefix_of_prefix h h'

theorem Covers.not_lt {d x : List Char} (h : Covers d x) : ¬x < d := by
  rcases h with rfl | hpath
  · exact lt_irrefl x
  · exact List.IsPrefix.le ((List.prefix_append d _).trans hpath)

namespace SkipEntry

variable {d e : SkipEntry} {l : List SkipEntry}

theorem key_injective : Function.Injective key := by
  rintro ⟨_ | _, p⟩ ⟨_ | _, p'⟩ h <;> simp_all [key]

/-- The two entries are equal, or the first is a directory that covers the second. -/
def Clash (d e : SkipEntry) : Prop := d = e ∨ d.kind = .dir ∧ Covers d.relpath e.relpath

theorem Clash.key_le (h : d.Clash e) : d.key ≤ e.key := by
  rcases h with rfl | ⟨hdir, hcovers⟩
  · exact le_rfl
  · refine Prod.Lex.toLex_le_toLex.2 ((not_lt.1 hcovers.not_lt).lt_or_eq.imp_right fun h => ⟨h, ?_⟩)
    simp [hdir]

/-- Two entries of the list clash. -/
def HasClash (l : List SkipEntry) : Prop := ∃ d e, [d, e].Subperm l ∧ d.Clash e

/-- Two entries of the list clash, and the first clashes with every entry sorted between them. -/
def ShowsClash (l : List SkipEntry) : Prop :=
  ∃ d e, [d, e].Subperm l ∧ d.Clash e ∧ ∀ x ∈ l, d.key ≤ x.key → x.key ≤ e.key → d.Clash x

theorem pairwise_iff_not_hasClash :
    (l.Pairwise fun d e => ¬d.Clash e ∧ ¬e.Clash d) ↔ ¬HasClash l := by
  rw [List.pairwise_iff_forall_sublist]
  constructor
  · rintro h ⟨d, e, ⟨l', hperm, hsub⟩, hclash⟩
    rcases List.perm_pair.1 hperm with rfl | rfl
    · exact (h hsub).1 hclash
    · exact (h hsub).2 hclash
  · intro h d e hsub
    exact ⟨fun hclash => h ⟨d, e, hsub.subperm, hclash⟩,
      fun hclash => h ⟨e, d, (List.Perm.swap d e []).subperm.trans hsub.subperm, hclash⟩⟩

theorem HasClash.perm {l' : List SkipEntry} (hperm : l.Perm l') (h : HasClash l) : HasClash l' := by
  obtain ⟨d, e, hpair, hclash⟩ := h
  exact ⟨d, e, hpair.trans hperm.subperm, hclash⟩

theorem ShowsClash.perm {l' : List SkipEntry} (hperm : l.Perm l') (h : ShowsClash l) :
    ShowsClash l' := by
  obtain ⟨d, e, hpair, hclash, hbetween⟩ := h
  exact ⟨d, e, hpair.trans hperm.subperm, hclash, fun x hx => hbetween x (hperm.mem_iff.2 hx)⟩

/-- The check fails at the first entry that clashes with its neighbour. -/
theorem checkNeighbours_eq_ok :
    checkNeighbours l = .ok () ↔ ∀ l₁ d e l₂, l = l₁ ++ d :: e :: l₂ → ¬d.Clash e := by
  fun_induction checkNeighbours l with
  | case1 prev curr rest h =>
    have hclash : prev.Clash curr := .inl (by cases prev; cases curr; simp_all)
    simpa using ⟨[], prev, curr, ⟨rest, rfl⟩, hclash⟩
  | case2 prev curr rest h hnested =>
    simpa using ⟨[], prev, curr, ⟨rest, rfl⟩, .inr hnested⟩
  | case3 prev curr rest h hnested ih =>
    have hcurr : ¬prev.Clash curr := by
      rintro (rfl | hcovers)
      · exact h ⟨rfl, rfl⟩
      · exact hnested hcovers
    rw [ih]
    constructor
    · rintro hrest (_ | ⟨x, l₁⟩) d e l₂ heq
      · cases heq
        exact hcurr
      · exact hrest l₁ d e l₂ (List.cons.inj heq).2
    · intro hall l₁ d e l₂ heq
      exact hall (prev :: l₁) d e l₂ (by rw [heq]; rfl)
  | case4 l h =>
    refine iff_of_true rfl ?_
    rintro (_ | ⟨x, _ | ⟨y, l₁⟩⟩) d e l₂ rfl
    · exact absurd rfl (h d e l₂)
    · exact absurd rfl (h x d (e :: l₂))
    · exact absurd rfl (h x y (l₁ ++ d :: e :: l₂))

/-- In a sorted list the check of neighbours finds a clash just if the first of two entries clashes
with all that lies between them. -/
theorem checkNeighbours_eq_ok_iff_showsClash (hsorted : l.Pairwise (·.key ≤ ·.key)) :
    checkNeighbours l = .ok () ↔ ¬ShowsClash l := by
  rw [checkNeighbours_eq_ok]
  constructor
  · rintro hall ⟨d, e, hpair, hclash, hbetween⟩
    have : Std.Antisymm fun a b : SkipEntry => a.key ≤ b.key :=
      ⟨fun a b hab hba => key_injective (le_antisymm hab hba)⟩
    have hsub : [d, e].Sublist l :=
      List.sublist_of_subperm_of_pairwise hpair (by simpa using hclash.key_le) hsorted
    obtain ⟨l₁, l₂, rfl, hd, he⟩ := List.cons_sublist_iff.1 hsub
    obtain ⟨l₁, t, rfl⟩ := List.append_of_mem hd
    rw [List.append_assoc, List.cons_append] at *
    have he : e ∈ t ++ l₂ := List.mem_append_right _ (List.singleton_sublist.1 he)
    generalize t ++ l₂ = rest at *
    rw [List.pairwise_append, List.pairwise_cons] at hsorted
    obtain ⟨-, ⟨hd, hrest⟩, -⟩ := hsorted
    cases rest with
    | nil => cases he
    | cons x rest =>
      refine hall l₁ d x rest rfl (hbetween x (by simp) (hd x (by simp)) ?_)
      rcases List.mem_cons.1 he with rfl | he
      · exact le_rfl
      · exact (List.pairwise_cons.1 hrest).1 e he
  · rintro hshows l₁ d e l₂ rfl hclash
    refine hshows ⟨d, e, ?_, hclash, ?_⟩
    · exact ((((List.nil_sublist l₂).cons_cons e).cons_cons d).trans
        (List.sublist_append_right l₁ _)).subperm
    · intro x hx hdx hxe
      rw [List.pairwise_append, List.pairwise_cons, List.pairwise_cons] at hsorted
      obtain ⟨-, ⟨-, he, -⟩, hl₁⟩ := hsorted
      rcases List.mem_append.1 hx with hx | hx
      · exact .inl (key_injective (le_antisymm hdx (hl₁ x hx d (by simp))))
      · rcases List.mem_cons.1 hx with rfl | hx
        · exact .inl rfl
        · rcases List.mem_cons.1 hx with rfl | hx
          · exact hclash
          · rwa [← key_injective (le_antisymm (he x hx) hxe)]

end SkipEntry

open SkipEntry

variable {entries entries' : List SkipEntry} {g : SkipEntry → SkipEntry}

/-- `g` takes every entry of the list to the entry with the normalised path. -/
def Normalizes (g : SkipEntry → SkipEntry) (entries : List SkipEntry) : Prop :=
  ∀ e ∈ entries, (g e).kind = e.kind ∧ normalizeTransferSkipRelpath e.relpath = .ok (g e).relpath

theorem sortEntries_perm (l : List SkipEntry) : (sortEntries l).Perm l := List.perm_insertionSort ..

theorem sortEntries_sorted (l : List SkipEntry) : (sortEntries l).Pairwise (·.key ≤ ·.key) := by
  have : Std.Total fun a b : SkipEntry => a.key ≤ b.key := ⟨fun a b => le_total a.key b.key⟩
  have : IsTrans SkipEntry fun a b => a.key ≤ b.key := ⟨fun _ _ _ => le_trans⟩
  exact List.pairwise_insertionSort _ l

theorem sortEntries_eq {l' : List SkipEntry} (h : l'.Perm l) : sortEntries l' = sortEntries l := by
  have hperm := (sortEntries_perm l').trans (h.trans (sortEntries_perm l).symm)
  refine hperm.eq_of_pairwise ?_ (sortEntries_sorted l') (sortEntries_sorted l)
  exact fun a b _ _ hab hba => key_injective (le_antisymm hab hba)

theorem normalizeTransferSkipEntries_eq (h : Normalizes g entries) :
    normalizeTransferSkipEntries entries =
      (checkNeighbours (sortEntries (entries.map g))).map fun _ => sortEntries (entries.map g) := by
  have hmap : (entries.mapM fun e => (do
      return { e with relpath := ← normalizeTransferSkipRelpath e.relpath } :
        Except String SkipEntry)) = .ok (entries.map g) := by
    induction entries with
    | nil => rfl
    | cons e entries ih =>
      obtain ⟨hkind, hrelpath⟩ := h e (by simp)
      rw [List.mapM_cons, ih fun e he => h e (.tail _ he), hrelpath, ← hkind]
      rfl
  rw [normalizeTransferSkipEntries, hmap]
  change (checkNeighbours (sortEntries (entries.map g)) >>= fun _ => _) = _
  cases checkNeighbours (sortEntries (entries.map g)) <;> rfl

/-- **The check of the skip list is exact** just if a clash of two entries implies one of which the
first entry clashes with all that is sorted between. Exact means: a list whose paths normalise is
accepted if and only if no two entries are equal and no directory is or is above another entry; the
result does not depend on the order of the list; and no two directories of an accepted list match
one path. -/
theorem skip_entries_exact (hnorm : Normalizes g entries) :
    (((∃ out, normalizeTransferSkipEntries entries = .ok out) ↔
        (entries.map g).Pairwise fun d e => ¬d.Clash e ∧ ¬e.Clash d) ∧
      (∀ entries', entries'.Perm entries →
        normalizeTransferSkipEntries entries' = normalizeTransferSkipEntries entries) ∧
      ∀ out, normalizeTransferSkipEntries entries = .ok out → ∀ path, out.Pairwise fun d d' =>
        ¬(d.kind = .dir ∧ d'.kind = .dir ∧ d.matchesRelpath path ∧ d'.matchesRelpath path)) ↔
    (HasClash (entries.map g) → ShowsClash (entries.map g)) := by
  have hperm := sortEntries_perm (entries.map g)
  have heq := normalizeTransferSkipEntries_eq hnorm
  have haccepted : (∃ out, normalizeTransferSkipEntries entries = .ok out) ↔
      ¬ShowsClash (entries.map g) := by
    have hcheck : checkNeighbours (sortEntries (entries.map g)) = .ok () ↔
        ¬ShowsClash (entries.map g) := by
      rw [checkNeighbours_eq_ok_iff_showsClash (sortEntries_sorted _)]
      exact not_congr ⟨.perm hperm, .perm hperm.symm⟩
    rw [← hcheck, heq]
    cases checkNeighbours (sortEntries (entries.map g)) <;> simp [Except.map]
  rw [haccepted, pairwise_iff_not_hasClash, not_iff_not]
  constructor
  · exact fun h => h.1.2
  intro hshows
  refine ⟨⟨?_, hshows⟩, ?_, ?_⟩
  · rintro ⟨d, e, hpair, hclash, -⟩
    exact ⟨d, e, hpair, hclash⟩
  · intro entries' hentries
    rw [heq, normalizeTransferSkipEntries_eq fun e he => hnorm e (hentries.mem_iff.1 he),
      sortEntries_eq (hentries.map g)]
  · intro out hout path
    have hno : ¬HasClash out := by
      have hnot := mt hshows (haccepted.1 ⟨out, hout⟩)
      rw [heq] at hout
      obtain rfl : sortEntries (entries.map g) = out := by
        cases hchecked : checkNeighbours (sortEntries (entries.map g)) with
        | error e => simp [hchecked, Except.map] at hout
        | ok _ => simpa [hchecked, Except.map] using hout
      exact fun h => hnot (h.perm hperm)
    refine (pairwise_iff_not_hasClash.2 hno).imp ?_
    rintro d d' ⟨h, h'⟩ ⟨hdir, hdir', hmatch, hmatch'⟩
    simp only [matchesRelpath, hdir, hdir', decide_eq_true_eq] at hmatch hmatch'
    rcases hmatch.or_of_covers hmatch' with hcovers | hcovers
    · exact h (.inr ⟨hdir, hcovers⟩)
    · exact h' (.inr ⟨hdir', hcovers⟩)

/-- A directory and a file beside it whose name goes on from that of the directory are accepted. -/
theorem skip_entries_exact_siblings :
    ∃ out, normalizeTransferSkipEntries [⟨.file, ['a', '-', 'b']⟩, ⟨.dir, ['a']⟩] = .ok out := by
  have hnone : [⟨.file, ['a', '-', 'b']⟩, ⟨.dir, ['a']⟩].Pairwise
      fun d e : SkipEntry => ¬d.Clash e ∧ ¬e.Clash d := by
    simp [Clash, Covers]
  refine ((skip_entries_exact (g := id) ?_).2 fun h => ?_).1.2 hnone
  · intro e he
    rcases List.mem_pair.1 he with rfl | rfl <;> exact ⟨rfl, rfl⟩
  · exact absurd h (pairwise_iff_not_hasClash.1 hnone)

/-- The name `a-b` comes between the directory `a` and the directory `a/b` below it, so the list is
accepted, and both directories match `a/b`. -/
theorem nested_skip_entries_accepted :
    let a : SkipEntry := ⟨.dir, ['a']⟩
    let ab : SkipEntry := ⟨.dir, ['a', '/', 'b']⟩
    let file : SkipEntry := ⟨.file, ['a', '-', 'b']⟩
    normalizeTransferSkipEntries [a, ab, file] = .ok [a, file, ab] ∧ Covers a.relpath ab.relpath ∧
      a.matchesRelpath ab.relpath ∧ ab.matchesRelpath ab.relpath := by
  refine ⟨rfl, ?_⟩
  decide

end Fluxon.TransferJob
