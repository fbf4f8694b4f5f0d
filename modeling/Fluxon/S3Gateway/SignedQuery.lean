import Mathlib.Data.Char
import Mathlib.Data.Countable.Basic
import Mathlib.Data.List.DropRight
import Mathlib.Data.List.Lex
import Mathlib.Data.List.Sort
import Mathlib.Data.Prod.Lex
import Mathlib.Logic.Equiv.List

/-!
# What the signature of a request says about its query

The gateway checks a signature over `canonical_query_string`, which sorts the parameters, and
dispatches on `parse_query_params`, where the last value of a name wins. The signature of a query
fixes the parameters just if no name has two values in it and the signed query is that of the
request, not of a forwarded header (`params_eq_of_accepted`).
-/

namespace Fluxon.S3Gateway

/-- A text by its characters. -/
abbrev Text := List Char

/-- `replace('+', "%20")`. -/
def replacePlus (text : Text) : Text :=
  text.flatMap fun c => if c = '+' then ['%', '2', '0'] else [c]

/-- The crate `form_urlencoded`: it writes one line, and reads back what it wrote, also with `%20`
for the `+` of a blank. -/
structure FormUrlencoded where
  parse : Text → List (Text × Text)
  serialize : List (Text × Text) → Text
  newline_notMem pairs : '\n' ∉ serialize pairs
  parse_replacePlus pairs : parse (replacePlus (serialize pairs)) = pairs

/-- SHA-256 and HMAC, taken to be injective. -/
structure Hashes where
  sha256Hex : Text → Text
  hmacSha256Hex : Text → Text → Text
  sha256Hex_injective : sha256Hex.Injective
  hmacSha256Hex_injective key : (hmacSha256Hex key).Injective

/-- What the check reads besides the query of the request. `originalUri` is the forwarded URI, if
there is one and its path has passed the checks. An absent query is read as the empty one. -/
structure SignedRequest where
  (externalBasePath publicPath method canonicalHeaders signedHeadersJoined payloadHash amzDate scope
    signingKey signatureHex : Text)
  originalUri : Option (Text × Text)

variable (url : FormUrlencoded) (hash : Hashes) (req : SignedRequest)

/-- `parse_query_params`: the last value of a name wins. -/
def parseQueryParams (q : Text) : Text → Option Text :=
  (url.parse q).foldl (fun out kv => Function.update out kv.1 (some kv.2)) fun _ => none

/-- `canonical_query_string`: the pairs in the order of their texts. -/
def canonicalQueryString (q : Text) : Text :=
  replacePlus (url.serialize ((url.parse q).insertionSort fun a b => toLex a ≤ toLex b))

/-- `canonical_uri_without_base_path`. -/
def canonicalUriWithoutBasePath (externalBasePath canonicalUri : Text) : Option Text :=
  let base := externalBasePath.rdropWhile (· = '/')
  if base = [] ∨ ¬ base <+: canonicalUri then none
  else match canonicalUri.drop base.length with
    | '/' :: rest => some ('/' :: rest)
    | rest => some ('/' :: rest)

/-- The signature of a request for a path and a canonical query. -/
def expect (uri query : Text) : Text :=
  let canonicalRequest := req.method ++ '\n' :: uri ++ '\n' :: query ++ '\n' :: req.canonicalHeaders
    ++ '\n' :: req.signedHeadersJoined ++ '\n' :: req.payloadHash
  hash.hmacSha256Hex req.signingKey ("AWS4-HMAC-SHA256\n".toList ++ req.amzDate ++ '\n' :: req.scope
    ++ '\n' :: hash.sha256Hex canonicalRequest)

/-- `verify_sigv4_authorization_header`: the signature is that of the path, with or without the
external base path. -/
def verifySigv4AuthorizationHeader (uri query : Text) : Bool :=
  let query := canonicalQueryString url query
  expect hash req uri query = req.signatureHex ||
    (canonicalUriWithoutBasePath req.externalBasePath uri).any
      (expect hash req · query = req.signatureHex)

/-- The parameters with which the request is dispatched, if its signature is accepted. -/
def handleAny (query : Text) : Option (Text → Option Text) :=
  -- `auth_original_path_and_query`
  let (path, signed) := req.originalUri.getD (req.publicPath, query)
  if verifySigv4AuthorizationHeader url hash req path signed then
    some (parseQueryParams url query)
  else none

/-- No name has two values. -/
def SingleValued (pairs : List (Text × Text)) : Prop :=
  ∀ a ∈ pairs, ∀ b ∈ pairs, a.1 = b.1 → a.2 = b.2

variable {url hash req} {q q' : Text}

theorem canonicalQueryString_eq_iff :
    canonicalQueryString url q = canonicalQueryString url q' ↔
      (url.parse q).Perm (url.parse q') := by
  have hsort := List.perm_insertionSort (α := Text × Text) fun a b => toLex a ≤ toLex b
  constructor
  · intro h
    have h := congrArg url.parse h
    simp only [canonicalQueryString, url.parse_replacePlus] at h
    exact (hsort _).symm.trans (h ▸ hsort _)
  · intro hperm
    have htotal : Std.Total fun a b : Text × Text => toLex a ≤ toLex b :=
      ⟨fun a b => le_total (toLex a) (toLex b)⟩
    have htrans : IsTrans (Text × Text) fun a b => toLex a ≤ toLex b := ⟨fun _ _ _ => le_trans⟩
    have hsorted := List.pairwise_insertionSort (α := Text × Text) fun a b => toLex a ≤ toLex b
    rw [canonicalQueryString, canonicalQueryString,
      ((hsort _).trans (hperm.trans (hsort _).symm)).eq_of_pairwise
        (fun a b _ _ hab hba => toLex.injective (le_antisymm hab hba)) (hsorted _) (hsorted _)]

/-- The query that is written for the pairs. -/
def queryOf (url : FormUrlencoded) (pairs : List (Text × Text)) : Text :=
  replacePlus (url.serialize pairs)

theorem parse_queryOf (pairs : List (Text × Text)) : url.parse (queryOf url pairs) = pairs :=
  url.parse_replacePlus pairs

/-- Every order of the pairs is that of a query with the same canonical string. -/
theorem exists_query_of_perm {pairs : List (Text × Text)} (hperm : pairs.Perm (url.parse q)) :
    ∃ q', canonicalQueryString url q = canonicalQueryString url q' ∧ url.parse q' = pairs :=
  ⟨queryOf url pairs, canonicalQueryString_eq_iff.2 (by rw [parse_queryOf]; exact hperm.symm),
    parse_queryOf pairs⟩

theorem SingleValued.params_eq (hq : SingleValued (url.parse q))
    (h : canonicalQueryString url q = canonicalQueryString url q') :
    parseQueryParams url q = parseQueryParams url q' := by
  refine (canonicalQueryString_eq_iff.1 h).foldl_eq' (fun a ha b hb out => ?_) _
  by_cases hk : a.1 = b.1
  · rw [hk, hq a ha b hb hk]
  · exact Function.update_comm hk ..

/-- The pairs of a query with two values of one name can be put in an order with another last
value. -/
theorem exists_other_params (h : ¬SingleValued (url.parse q)) :
    ∃ q', canonicalQueryString url q = canonicalQueryString url q' ∧
      parseQueryParams url q ≠ parseQueryParams url q' := by
  simp only [SingleValued, not_forall] at h
  obtain ⟨a, ha, b, hb, hname, hvalue⟩ := h
  obtain ⟨c, hc, hother⟩ : ∃ c ∈ url.parse q, parseQueryParams url q c.1 ≠ some c.2 := by
    by_contra hall
    push Not at hall
    have hvalues := (hall a ha).symm.trans (hname ▸ hall b hb)
    exact hvalue (Option.some.inj hvalues)
  obtain ⟨q', hcanon, hq'⟩ := exists_query_of_perm
    ((List.perm_append_singleton c _).trans (List.perm_cons_erase hc).symm)
  refine ⟨q', hcanon, fun heq => hother ?_⟩
  rw [heq, parseQueryParams, hq', List.foldl_append]
  exact Function.update_self ..

theorem newline_notMem_canonicalQueryString : '\n' ∉ canonicalQueryString url q := by
  simp only [canonicalQueryString, replacePlus, List.mem_flatMap, not_exists, not_and]
  intro c hc
  have := ne_of_mem_of_not_mem hc (url.newline_notMem _)
  split <;> simp [this.symm]

/-- The query is what follows the last line break before a fixed rest. -/
theorem query_eq_of_expect_eq {uri uri' : Text} (hq : '\n' ∉ q) (hq' : '\n' ∉ q')
    (h : expect hash req uri q = expect hash req uri' q') : q = q' := by
  have h := hash.hmacSha256Hex_injective _ h
  have h := hash.sha256Hex_injective (List.cons.inj (List.append_cancel_left h)).2
  simp only [List.append_cancel_right_eq] at h
  obtain ⟨as, -, h⟩ | ⟨as, -, h⟩ := List.append_eq_append_iff.mp h <;> cases as <;> simp_all

theorem mem_handleAny {params} (horig : req.originalUri = none)
    (h : params ∈ handleAny url hash req q) :
    (∃ uri, expect hash req uri (canonicalQueryString url q) = req.signatureHex) ∧
      parseQueryParams url q = params := by
  simp only [handleAny, horig, verifySigv4AuthorizationHeader] at h
  grind [Option.any_eq_true]

/-- The check reads only the canonical string of the query, or only the forwarded one. -/
theorem mem_handleAny_of_accepted {params} (h : params ∈ handleAny url hash req q)
    (hq : req.originalUri ≠ none ∨ canonicalQueryString url q = canonicalQueryString url q') :
    parseQueryParams url q' ∈ handleAny url hash req q' := by
  simp only [handleAny, Option.mem_def, Option.ite_none_right_eq_some] at h ⊢
  refine ⟨?_, trivial⟩
  cases horig : req.originalUri with
  | none =>
    have hcanon := hq.resolve_left (not_not.2 horig)
    simpa [horig, verifySigv4AuthorizationHeader, hcanon] using h.1
  | some signed => simpa [horig] using h.1

theorem exists_params_ne (url : FormUrlencoded) (params : Text → Option Text) :
    ∃ q', parseQueryParams url q' ≠ params := by
  by_contra hall
  push Not at hall
  have hempty := hall (queryOf url [])
  have hone := hall (queryOf url [([], [])])
  simp only [parseQueryParams, parse_queryOf] at hempty hone
  have hnone := congrFun (hempty.trans hone.symm) []
  cases hnone

/-- **What a signature says about the query.** All queries with the canonical string of a query have
its parameters just if no name has two values in it; and all requests that are accepted with the
signature of an accepted one have its parameters just if, in addition, no other query is forwarded
to the check. -/
theorem params_eq_of_accepted :
    ((∀ q', canonicalQueryString url q = canonicalQueryString url q' →
      parseQueryParams url q = parseQueryParams url q') ↔ SingleValued (url.parse q)) ∧
    ∀ params ∈ handleAny url hash req q,
      ((∀ q', ∀ params' ∈ handleAny url hash req q', params = params') ↔
        SingleValued (url.parse q) ∧ req.originalUri = none) := by
  refine ⟨⟨fun h => ?_, fun hq q' => hq.params_eq⟩, fun params hparams => ⟨fun h => ?_, ?_⟩⟩
  · by_contra hq
    obtain ⟨q', hcanon, hne⟩ := exists_other_params hq
    exact hne (h q' hcanon)
  · have horig : req.originalUri = none := by
      by_contra horig
      obtain ⟨q', hne⟩ := exists_params_ne url params
      exact hne (h q' _ (mem_handleAny_of_accepted hparams (.inl horig))).symm
    refine ⟨?_, horig⟩
    by_contra hq
    obtain ⟨q', hcanon, hne⟩ := exists_other_params hq
    have heq := h q' _ (mem_handleAny_of_accepted hparams (.inr hcanon))
    exact hne ((mem_handleAny horig hparams).2.trans heq)
  · rintro ⟨hq, horig⟩ q' params' hparams'
    obtain ⟨⟨uri, hsig⟩, rfl⟩ := mem_handleAny horig hparams
    obtain ⟨⟨uri', hsig'⟩, rfl⟩ := mem_handleAny horig hparams'
    exact hq.params_eq (query_eq_of_expect_eq newline_notMem_canonicalQueryString
      newline_notMem_canonicalQueryString (hsig.trans hsig'.symm))

/-- A request signed for a query. -/
def SignedRequest.sign (hash : Hashes) (query : Text) : SignedRequest :=
  let req : SignedRequest := ⟨[], [], [], [], [], [], [], [], [], [], none⟩
  { req with signatureHex := expect hash req [] query }

theorem mem_handleAny_sign (url : FormUrlencoded) (hash : Hashes) {q q' : Text}
    (h : canonicalQueryString url q = canonicalQueryString url q') :
    parseQueryParams url q' ∈
      handleAny url hash (.sign hash (canonicalQueryString url q)) q' := by
  simp [handleAny, SignedRequest.sign, verifySigv4AuthorizationHeader, expect, h]

/-- Hashes that leave the text as it is. -/
def Hashes.plain : Hashes := ⟨id, fun _ => id, fun _ _ => id, fun _ _ _ => id⟩

/-- The laws of `FormUrlencoded` are consistent. -/
theorem nonempty_formUrlencoded : Nonempty FormUrlencoded := by
  have : Countable Char := Function.Injective.countable fun _ _ => Char.toNat_inj.mp
  obtain ⟨code, hcode⟩ := exists_injective_nat (List (Text × Text))
  refine ⟨fun q => code.invFun q.length, fun pairs => .replicate (code pairs) 'a', by simp, ?_⟩
  simp [replacePlus, Function.leftInverse_invFun hcode _]

/-- The query `a=1&b=x%20y`, whatever the crate is, as long as it reads back what it writes. -/
theorem params_eq_of_accepted_one : Nonempty FormUrlencoded ∧ ∀ url : FormUrlencoded,
    let q := queryOf url [(['a'], ['1']), (['b'], ['x', ' ', 'y'])]
    let req := SignedRequest.sign .plain (canonicalQueryString url q)
    ∃ params ∈ handleAny url .plain req q, params ['b'] = some ['x', ' ', 'y'] ∧
      ∀ q', ∀ params' ∈ handleAny url .plain req q', params = params' := by
  refine ⟨nonempty_formUrlencoded, fun url => ?_⟩
  intro q req
  have haccepted := mem_handleAny_sign url .plain (q := q) rfl
  refine ⟨_, haccepted, ?_, (params_eq_of_accepted.2 _ haccepted).2 ⟨?_, rfl⟩⟩
  · rw [parseQueryParams, parse_queryOf]
    rfl
  · rw [parse_queryOf]
    simp [SingleValued]

/-- The queries `a=1&a=2` and `a=2&a=1`, whatever the crate is. -/
theorem same_signature_other_params : Nonempty FormUrlencoded ∧ ∀ url : FormUrlencoded,
    let q := queryOf url [(['a'], ['1']), (['a'], ['2'])]
    let q' := queryOf url [(['a'], ['2']), (['a'], ['1'])]
    let req := SignedRequest.sign .plain (canonicalQueryString url q)
    canonicalQueryString url q = canonicalQueryString url q' ∧
      ∃ params ∈ handleAny url .plain req q, ∃ params' ∈ handleAny url .plain req q',
        params ['a'] = some ['2'] ∧ params' ['a'] = some ['1'] := by
  refine ⟨nonempty_formUrlencoded, fun url => ?_⟩
  intro q q' req
  have hcanon : canonicalQueryString url q = canonicalQueryString url q' := by
    rw [canonicalQueryString_eq_iff, parse_queryOf, parse_queryOf]
    exact .swap ..
  refine ⟨hcanon, _, mem_handleAny_sign _ _ rfl, _, mem_handleAny_sign _ _ hcanon, ?_, ?_⟩
  · rw [parseQueryParams, parse_queryOf]
    rfl
  · rw [parseQueryParams, parse_queryOf]
    rfl

end Fluxon.S3Gateway
