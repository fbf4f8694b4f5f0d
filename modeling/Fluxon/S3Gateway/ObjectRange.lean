import Mathlib.Algebra.Group.Int.Defs
import Mathlib.Data.List.DropRight
import Mathlib.Data.List.TakeDrop
import Mathlib.Data.Nat.Notation

/-!
# Range answers

A GET parses the Range header, computes the headers of the answer and reads the object piece by
piece. The three agree just if the object is not empty or no suffix of it is asked for
(`range_answer_consistent`). A suffix range of an empty object is answered with the Content-Range
`bytes 0--1/0` (`suffix_of_empty_object`).
-/

namespace Fluxon.S3Gateway

/-- The length of a piece. -/
def fsRpcChunkBytes : ℕ := 1024 * 1024

/-- `read_chunk_cached` for an object: the bytes at an offset, of a length. -/
abbrev Read := ℕ → ℕ → Except String (List UInt8)

/-- `str::parse::<i64>`. -/
def parseI64 (s : List Char) : Option ℤ :=
  let digits := match s with
    | '+' :: ds | '-' :: ds => ds
    | ds => ds
  if digits ≠ [] ∧ digits.all Char.isDigit then
    let n : ℤ := digits.foldl (fun n c => 10 * n + (c.toNat - '0'.toNat : ℕ)) 0
    let n := if s.head? = some '-' then -n else n
    if -2 ^ 63 ≤ n ∧ n < 2 ^ 63 then some n else none
  else none

/-- The characters that `HeaderValue::to_str` lets through. -/
def visibleAscii (c : Char) : Bool := 32 ≤ c.toNat ∧ c.toNat < 127 ∨ c = '\t'

/-- `parse_range_header`: the first and the last byte that are asked for. -/
def parseRangeHeader (range : Option (List Char)) (size : ℤ) :
    Except String (Option ℤ × Option ℤ) :=
  match range with
  | none => .ok (none, none)
  | some v =>
    if ¬v.all visibleAscii then .error "invalid Range header" else
    let s := (v.dropWhile Char.isWhitespace).rdropWhile Char.isWhitespace
    if ¬"bytes=".toList.isPrefixOf s then .error "only bytes= ranges are supported" else
    match (s.drop 6).span (· ≠ '-') with
    | (_, []) => .error "invalid Range header"
    | ([], _ :: b) =>
      match parseI64 b with
      | none => .error "invalid suffix range"
      | some suffix =>
        if suffix ≤ 0 then .error "invalid suffix range"
        else .ok (some (max (size - suffix) 0), some (size - 1))
    | (a, _ :: b) =>
      match parseI64 a with
      | none => .error "invalid range start"
      | some start =>
        if start < 0 ∨ size ≤ start then .error "range start out of bounds" else
        if b = [] then .ok (some start, some (size - 1)) else
        match parseI64 b with
        | none => .error "invalid range end"
        | some last =>
          if last < start ∨ size ≤ last then .error "range end out of bounds"
          else .ok (some start, some last)

/-- The offsets and lengths of the reads from `off` to `last`. -/
def requests (last off : ℕ) : List (ℕ × ℕ) :=
  if last < off then []
  else
    let n := min (last - off + 1) (fsRpcChunkBytes - off % fsRpcChunkBytes)
    (off, n) :: requests last (off + n)
  termination_by last + 1 - off
  decreasing_by
    have := Nat.mod_lt off (show 0 < fsRpcChunkBytes by decide)
    omega

/-- The body: the reads in order. A short read ends the stream with an error. -/
def readPieces (read : Read) : List (ℕ × ℕ) → Except String (List (List UInt8))
  | [] => .ok []
  | (off, n) :: pieces =>
    if n = 0 then .error s!"invalid get_object chunk plan: off={off} n={n}" else
    match read off n with
    | .error e => .error e
    | .ok data =>
      if data.length ≠ n then .error "short read from backend" else
      match readPieces read pieces with
      | .error e => .error e
      | .ok body => .ok (data :: body)

/-- The numbers of a Content-Range header. -/
structure ContentRange where
  start : ℤ
  last : ℤ
  size : ℤ
  deriving DecidableEq

/-- The answer, with the reads whose results are its body. -/
structure ObjectAnswer where
  status : ℕ
  contentLength : ℤ
  contentRange : Option ContentRange
  reads : List (ℕ × ℕ)
  body : List (List UInt8)

section

variable (read : Read) (inflightPieces : ℕ) (fileSize : ℤ) (rangeStart rangeLast : Option ℤ)

/-- `get_object_stream`: the reads and the body they give. -/
def getObjectStream : Except String (List (ℕ × ℕ) × List (List UInt8)) :=
  if fileSize < 0 then .error s!"invalid object size: {fileSize}" else
  if fileSize = 0 then .ok ([], []) else
  let start := rangeStart.getD 0
  let last := rangeLast.getD (fileSize - 1)
  if start < 0 ∨ last < start ∨ fileSize ≤ last ∨ last - start + 1 ≤ 0 then .error "invalid range"
  else if inflightPieces = 0 then .error "invalid get_object_inflight_pieces=0"
  else
    let reads := requests last.toNat start.toNat
    match readPieces read reads with
    | .error e => .error e
    | .ok body => .ok (reads, body)

/-- The Content-Length and Content-Range of `apply_object_headers`. -/
def applyObjectHeaders : ℤ × Option ContentRange :=
  match rangeStart with
  | some start =>
    let last := rangeLast.getD (fileSize - 1)
    (last - start + 1, some ⟨start, last, fileSize⟩)
  | none => (fileSize, none)

/-- A GET of an object. -/
def getObject (range : Option (List Char)) : Except String ObjectAnswer :=
  match parseRangeHeader range fileSize with
  | .error e => .error e
  | .ok (rangeStart, rangeLast) =>
    match getObjectStream read inflightPieces fileSize rangeStart rangeLast with
    | .error e => .error e
    | .ok (reads, body) =>
      let (contentLength, contentRange) := applyObjectHeaders fileSize rangeStart rangeLast
      .ok ⟨if rangeStart.isSome then 206 else 200, contentLength, contentRange, reads, body⟩

end

variable {content : List UInt8} {read : Read} {range : Option (List Char)}

/-- The bytes of a read. -/
def slice (content : List UInt8) (piece : ℕ × ℕ) : List UInt8 := (content.drop piece.1).take piece.2

/-- What is read are bytes of the object at the offset. -/
def ReadsObject (content : List UInt8) (read : Read) : Prop :=
  ∀ off n data, read off n = .ok data → data = slice content (off, data.length)

theorem readPieces_eq (hread : ReadsObject content read) {pieces : List (ℕ × ℕ)}
    {body : List (List UInt8)} (h : readPieces read pieces = .ok body) :
    body = pieces.map (slice content) := by
  revert h
  fun_induction readPieces read pieces generalizing body <;> rintro ⟨⟩
  · rfl
  · next off n pieces _ data hdata hlen rest hrest ih =>
    rw [List.map_cons, ← ih hrest, hread off n data hdata, not_not.1 hlen]

/-- The reads cover the range, and none is empty or crosses the end of a piece. -/
theorem requests_spec (content : List UInt8) {last off : ℕ} (hoff : off ≤ last + 1) :
    ((requests last off).map (slice content)).flatten = slice content (off, last + 1 - off) ∧
      ∀ piece ∈ requests last off,
        0 < piece.2 ∧ piece.1 % fsRpcChunkBytes + piece.2 ≤ fsRpcChunkBytes := by
  fun_induction requests last off with
  | case1 off hlt => simp [slice, show last + 1 - off = 0 by omega]
  | case2 off hle n ih =>
    have hmod := Nat.mod_lt off (show 0 < fsRpcChunkBytes by decide)
    obtain ⟨hflat, hpieces⟩ := ih (by omega)
    refine ⟨?_, List.forall_mem_cons.2 ⟨⟨by omega, by dsimp only; omega⟩, hpieces⟩⟩
    rw [List.map_cons, List.flatten_cons, hflat]
    simp only [slice]
    rw [← List.drop_drop, ← List.take_add]
    congr 1
    omega

theorem parseRangeHeader_none {size : ℤ} {rangeLast : Option ℤ}
    (h : parseRangeHeader range size = .ok (none, rangeLast)) : rangeLast = none := by
  revert h
  fun_cases parseRangeHeader range size <;> rintro ⟨⟩
  rfl

/-- The header asks for the last bytes of the object, `bytes=-N` with a positive `N`. -/
def SuffixRange (range : Option (List Char)) : Prop :=
  ∃ v b n, range = some v ∧ v.all visibleAscii ∧
    (v.dropWhile Char.isWhitespace).rdropWhile Char.isWhitespace = "bytes=-".toList ++ b ∧
    parseI64 b = some n ∧ 0 < n

theorem SuffixRange.parse (h : SuffixRange range) (size : ℤ) :
    ∃ start, parseRangeHeader range size = .ok (some start, some (size - 1)) := by
  obtain ⟨v, b, n, rfl, hvisible, htrim, hn, hpos⟩ := h
  refine ⟨max (size - n) 0, ?_⟩
  have hspan : ("bytes=-".toList ++ b).drop 6 = '-' :: b := rfl
  have hprefix : "bytes=".toList.isPrefixOf ("bytes=-".toList ++ b) := rfl
  simp only [parseRangeHeader, hvisible, htrim, hprefix, hspan]
  simp [List.span, List.span.loop, hn, hpos]

/-- Of an empty object only a suffix can be asked for. -/
theorem suffixRange_of_parse {first last : Option ℤ}
    (h : parseRangeHeader range 0 = .ok (first, last)) :
    (first = none ∧ last = none) ∨ SuffixRange range := by
  revert h
  fun_cases parseRangeHeader range 0 <;> intro h <;> try cases h
  · exact .inl ⟨rfl, rfl⟩
  · next v hvisible s hbytes c b hspan n hn hpos =>
    right
    obtain ⟨t, ht⟩ := List.isPrefixOf_iff_prefix.1 (not_not.1 hbytes)
    -- what follows `bytes=` starts with the minus sign
    obtain ⟨rfl, rfl⟩ : t = c :: b ∧ c = '-' := by
      rw [← ht, List.drop_left' (by rfl), List.span_eq_takeWhile_dropWhile] at hspan
      cases t with
      | nil => simp at hspan
      | cons x t =>
        by_cases hx : x = '-'
        · subst hx
          obtain ⟨rfl, rfl⟩ : '-' = c ∧ t = b := by simpa using hspan
          exact ⟨rfl, rfl⟩
        · simp [hx] at hspan
    exact ⟨v, b, n, rfl, not_not.1 hvisible, ht.symm, hn, by omega⟩
  all_goals omega

/-- Range header, headers and body of an answer agree. Without a Content-Range the body is the whole
object. -/
structure Consistent (content : List UInt8) (answer : ObjectAnswer) : Prop where
  body : answer.body.flatten =
    let start := (answer.contentRange.map ContentRange.start).getD 0
    let last := (answer.contentRange.map ContentRange.last).getD (content.length - 1)
    slice content (start.toNat, (last - start + 1).toNat)
  reads : answer.body = answer.reads.map (slice content)
  pieces : ∀ piece ∈ answer.reads,
    0 < piece.2 ∧ piece.1 % fsRpcChunkBytes + piece.2 ≤ fsRpcChunkBytes
  contentLength : answer.contentLength = answer.body.flatten.length
  contentRange : ∀ r, answer.contentRange = some r →
    0 ≤ r.start ∧ r.start ≤ r.last ∧ r.last < r.size ∧ r.size = content.length

theorem consistent_of_getObject {inflightPieces : ℕ} {answer : ObjectAnswer}
    (hread : ReadsObject content read)
    (h : getObject read inflightPieces content.length range = .ok answer)
    (hrange : ¬(content = [] ∧ SuffixRange range)) : Consistent content answer := by
  unfold getObject at h
  split at h
  · cases h
  next rangeStart rangeLast hparse =>
    split at h
    · cases h
    next reads body hstream =>
    cases h
    revert hstream
    fun_cases getObjectStream read inflightPieces content.length rangeStart rangeLast <;>
      intro hstream <;> try cases hstream
    · next hzero =>
      -- an empty object
      obtain rfl : content = [] := by simpa using hzero
      obtain ⟨rfl, rfl⟩ | hsuffix := suffixRange_of_parse hparse
      · exact ⟨rfl, rfl, nofun, rfl, nofun⟩
      · exact absurd ⟨rfl, hsuffix⟩ hrange
    · next start last hvalid _ _ body hbody =>
      obtain ⟨rfl, rfl⟩ := Prod.mk.inj (Except.ok.inj hstream)
      obtain ⟨hstart, hle, hlt⟩ : 0 ≤ start ∧ start ≤ last ∧ last < content.length := by omega
      obtain ⟨hflat, hpieces⟩ := requests_spec content (show start.toNat ≤ last.toNat + 1 by omega)
      rw [← readPieces_eq hread hbody, show last.toNat + 1 - start.toNat = (last - start + 1).toNat
        by omega] at hflat
      have hlen : (body.flatten.length : ℤ) = last - start + 1 := by
        rw [hflat, slice, List.length_take, List.length_drop]
        omega
      cases rangeStart with
      | none =>
        obtain rfl := parseRangeHeader_none hparse
        refine ⟨hflat, readPieces_eq hread hbody, hpieces, ?_, nofun⟩
        rw [hlen]
        simp [start, last]
      | some first =>
        refine ⟨hflat, readPieces_eq hread hbody, hpieces, hlen.symm, ?_⟩
        rintro _ ⟨⟩
        exact ⟨hstart, hle, hlt, rfl⟩

/-- **Range answers are consistent**, for every object and every Range header, except when the
object is empty and a suffix of it is asked for. -/
theorem range_answer_consistent (content : List UInt8) (read : Read) (inflightPieces : ℕ)
    (range : Option (List Char)) (hread : ReadsObject content read) :
    (∀ answer, getObject read inflightPieces content.length range = .ok answer →
      Consistent content answer) ↔ ¬(content = [] ∧ SuffixRange range) := by
  constructor
  · rintro h ⟨rfl, hsuffix⟩
    obtain ⟨start, hparse⟩ := hsuffix.parse 0
    have hget : getObject read inflightPieces 0 range =
        .ok ⟨206, -1 - start + 1, some ⟨start, -1, 0⟩, [], []⟩ := by
      rw [getObject, hparse]
      rfl
    have hbound := (h _ hget).contentRange _ rfl
    dsimp only at hbound
    omega
  · intro hrange answer hget
    exact consistent_of_getObject hread hget hrange

/-- The last byte of two. -/
theorem range_answer_consistent_one :
    ∃ answer, getObject (fun off n => .ok (slice [7, 8] (off, n))) 1 2 (some "bytes=-1".toList) =
      .ok answer ∧ answer.body = [[8]] ∧ Consistent [7, 8] answer := by
  have hget : getObject (fun off n => .ok (slice [7, 8] (off, n))) 1 2 (some "bytes=-1".toList) =
      .ok ⟨206, 1, some ⟨1, 1, 2⟩, [(1, 1)], [[8]]⟩ := by
    have hparse : parseRangeHeader (some "bytes=-1".toList) 2 = .ok (some 1, some 1) := by decide
    rw [getObject, hparse]
    simp [getObjectStream, requests, fsRpcChunkBytes, readPieces, slice, applyObjectHeaders]
  refine ⟨_, hget, rfl, (range_answer_consistent [7, 8] _ 1 _ ?_).2 (by simp) _ hget⟩
  rintro off n _ ⟨⟩
  simp [slice]

/-- A suffix range of an empty object is answered, with a Content-Range that ends before it
starts. -/
theorem suffix_of_empty_object :
    getObject (fun off n => .ok (slice [] (off, n))) 1 0 (some "bytes=-5".toList) =
      .ok ⟨206, 0, some ⟨0, -1, 0⟩, [], []⟩ := by
  have hparse : parseRangeHeader (some "bytes=-5".toList) 0 = .ok (some 0, some (-1)) := by decide
  rw [getObject, hparse]
  rfl

end Fluxon.S3Gateway
