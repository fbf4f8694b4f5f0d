import Fluxon.Foundations.ByteOrder
import Fluxon.Foundations.OrderedMap
import Mathlib.Data.Nat.Notation

/-!
# Paginated prefix scans

The transfer state lives in an ordered key-value store. All loads of a key family scan the range of
keys with a given first part, page by page: a page is the first entries of the range, and the next
page starts right after the last key of the page before. `scanAllPairs_eq` says what the pages add
up to: all entries whose key starts with the given bytes, and no others.
-/

namespace Fluxon.TransferStore

open List

/-- A snapshot of the key-value store. -/
abbrev TiKv (V : Type) := OrderedMap (List UInt8) V

variable {V : Type}

/-- `TIKV_SCAN_PAGE_LIMIT`. -/
def tikvScanPageLimit : ℕ := 1024

/-- `prefix_scan_key_after`. -/
def prefixScanKeyAfter (key : List UInt8) : List UInt8 := key ++ [0]

/-- `prefix_scan_range_end_exclusive`. The source walks back from the last byte; the recursion of
`rangeEnd` does the same from the front. -/
def prefixScanRangeEndExclusive (start : List UInt8) : Option (List UInt8) := rangeEnd start

/-- The keys of the range `start..stop`, without an end if there is no `stop`. -/
def inRange (start : List UInt8) (stop : Option (List UInt8)) (key : List UInt8) : Bool :=
  decide (¬ key < start) && stop.all fun e => decide (key < e)

/-- `Transaction::scan`: the first `limit` entries of a range, in key order. -/
def scan (store : TiKv V) (start : List UInt8) (stop : Option (List UInt8)) (limit : ℕ) :
    List (List UInt8 × V) :=
  (store.entries.filter fun e => inRange start stop e.1).take limit

/-- The page loop of `scan_tikv_pairs_paginated`; `fuel` bounds the number of pages. -/
def scanLoop (store : TiKv V) (stop : Option (List UInt8)) (limit : ℕ) :
    ℕ → List UInt8 → List (List UInt8 × V)
  | 0, _ => []
  | fuel + 1, start =>
    if stop.any fun e => decide (¬ start < e) then []
    else
      match (scan store start stop limit).getLast? with
      | none => []
      | some last => scan store start stop limit ++
          scanLoop store stop limit fuel (prefixScanKeyAfter last.1)

/-- `scan_all_pairs`. There are never more pages than entries, and one more to see the end. -/
def scanAllPairs (store : TiKv V) (start : List UInt8) : List (List UInt8 × V) :=
  scanLoop store (prefixScanRangeEndExclusive start) tikvScanPageLimit (store.entries.length + 1)
    start

/-- The loop of `scan_tikv_pairs_paginated` and the entries it visits, at most `fuel` scans long.
`tooLarge n limit` says that scan number `n` is refused as too large for a page of `limit` entries;
the page is then halved, and the loop fails if it holds a single entry. -/
def scanPages (store : TiKv V) (stop : Option (List UInt8)) (tooLarge : ℕ → ℕ → Bool) :
    ℕ → ℕ → ℕ → List UInt8 → Option (Except String (List (List UInt8 × V)))
  | 0, _, _, _ => none
  | fuel + 1, n, limit, start =>
    if stop.any fun e => decide (¬ start < e) then some (.ok [])
    else if tooLarge n limit then
      if limit > 1 then scanPages store stop tooLarge fuel (n + 1) (max 1 (limit / 2)) start
      else some (.error "scan transfer tikv range failed even at single-entry page size")
    else
      match (scan store start stop limit).getLast? with
      | none => some (.ok [])
      | some last =>
        (scanPages store stop tooLarge fuel (n + 1) limit (prefixScanKeyAfter last.1)).map
          (·.map (scan store start stop limit ++ ·))

/-- `scan_tikv_pairs_paginated` with a first page of `limit` entries. -/
def scanTikvPairsPaginated (store : TiKv V) (start : List UInt8) (limit : ℕ)
    (tooLarge : ℕ → ℕ → Bool) (fuel : ℕ) : Option (Except String (List (List UInt8 × V))) :=
  scanPages store (prefixScanRangeEndExclusive start) tooLarge fuel 0 limit start

/-! ## The pages cover the range -/

variable {store : TiKv V} {start : List UInt8} {stop : Option (List UInt8)}

theorem inRange_iff {key : List UInt8} :
    inRange start stop key = true ↔ ¬ key < start ∧ ∀ e, stop = some e → key < e := by
  cases stop <;> simp [inRange]

theorem prefix_iff_inRange {key : List UInt8} :
    start <+: key ↔ inRange start (prefixScanRangeEndExclusive start) key = true := by
  rw [inRange_iff, prefix_iff_range]
  rfl

/-- A range whose end does not lie above its start is empty. -/
theorem filter_inRange_of_end_le (h : (stop.any fun e => decide (¬ start < e)) = true)
    (l : List (List UInt8 × V)) : (l.filter fun e => inRange start stop e.1) = [] := by
  cases stop with
  | none => simp at h
  | some e =>
    have hle : e ≤ start := by simpa using h
    refine filter_eq_nil_iff.2 fun a _ hin => ?_
    obtain ⟨hstart, hstop⟩ := inRange_iff.1 hin
    exact hstart ((hstop e rfl).trans_le hle)

/-- In a list in key order, the entries above one of them are those after it. -/
theorem filter_gt_of_ordered {before after : List (List UInt8 × V)} {x : List UInt8 × V}
    (h : (before ++ x :: after).Pairwise fun a b => a.1 < b.1) :
    ((before ++ x :: after).filter fun e => decide (x.1 < e.1)) = after := by
  obtain ⟨-, htail, hcross⟩ := pairwise_append.1 h
  have hbefore : (before.filter fun e => decide (x.1 < e.1)) = [] := by
    refine filter_eq_nil_iff.2 fun a ha hlt => ?_
    exact absurd (hcross a ha x mem_cons_self) (of_decide_eq_true hlt).not_gt
  have hafter : (after.filter fun e => decide (x.1 < e.1)) = after := by
    refine filter_eq_self.2 fun a ha => ?_
    exact decide_eq_true ((pairwise_cons.1 htail).1 a ha)
  rw [filter_append, filter_cons_of_neg (by simp), hbefore, hafter, nil_append]

variable {last : List UInt8 × V}

/-- The range after the last key of a page holds what the page left over. -/
theorem filter_inRange_after {page rest : List (List UInt8 × V)}
    (hsplit : (store.entries.filter fun e => inRange start stop e.1) = page ++ rest)
    (hlast : page.getLast? = some last) :
    (store.entries.filter fun e => inRange (prefixScanKeyAfter last.1) stop e.1) = rest := by
  obtain ⟨before, rfl⟩ : ∃ before, page = before ++ [last] := by
    have hne : page ≠ [] := by
      rintro rfl
      simp at hlast
    refine ⟨page.dropLast, ?_⟩
    rw [getLast?_eq_some_getLast hne, Option.some.injEq] at hlast
    rw [← hlast, dropLast_append_getLast]
  rw [append_assoc, singleton_append] at hsplit
  have hmem : last ∈ store.entries.filter fun e => inRange start stop e.1 := by
    rw [hsplit]
    simp
  have hin := inRange_iff.1 (mem_filter.1 hmem).2
  have hordered : (before ++ last :: rest).Pairwise fun a b => a.1 < b.1 := by
    rw [← hsplit]
    exact store.ordered.filter _
  have hfilter := filter_gt_of_ordered hordered
  rw [← hsplit, filter_filter] at hfilter
  rw [← hfilter]
  refine filter_congr fun e _ => ?_
  rw [Bool.eq_iff_iff, inRange_iff, Bool.and_eq_true, inRange_iff, decide_eq_true_iff,
    prefixScanKeyAfter, ← lt_iff_not_lt_append_zero]
  constructor
  · intro h
    exact ⟨h.1, fun hlt => hin.1 (h.1.trans hlt), h.2⟩
  · intro h
    exact ⟨h.1, h.2.2⟩

variable {limit : ℕ}

/-- A page and the range after its last key make up the range. -/
theorem scan_append_after (hlast : (scan store start stop limit).getLast? = some last) :
    scan store start stop limit ≠ [] ∧ scan store start stop limit ++
        (store.entries.filter fun e => inRange (prefixScanKeyAfter last.1) stop e.1) =
      store.entries.filter fun e => inRange start stop e.1 := by
  have hsplit : scan store start stop limit ++
      (store.entries.filter fun e => inRange start stop e.1).drop limit =
        store.entries.filter fun e => inRange start stop e.1 := take_append_drop limit _
  rw [filter_inRange_after hsplit.symm hlast]
  refine ⟨fun h => ?_, hsplit⟩
  rw [h] at hlast
  cases hlast

/-- An empty page ends the range. -/
theorem filter_inRange_of_scan (hlimit : 0 < limit)
    (hlast : (scan store start stop limit).getLast? = none) :
    (store.entries.filter fun e => inRange start stop e.1) = [] := by
  have hempty : scan store start stop limit = [] := getLast?_eq_none_iff.1 hlast
  rw [scan, take_eq_nil_iff] at hempty
  exact hempty.resolve_left (by omega)

theorem scanLoop_eq (store : TiKv V) (stop : Option (List UInt8)) (hlimit : 0 < limit) (fuel : ℕ)
    (start : List UInt8)
    (hfuel : (store.entries.filter fun e => inRange start stop e.1).length < fuel) :
    scanLoop store stop limit fuel start =
      store.entries.filter fun e => inRange start stop e.1 := by
  induction fuel generalizing start with
  | zero => omega
  | succ fuel ih =>
    rw [scanLoop]
    by_cases hend : (stop.any fun e => decide (¬ start < e)) = true
    · rw [if_pos hend, filter_inRange_of_end_le hend]
    rw [if_neg hend]
    cases hlast : (scan store start stop limit).getLast? with
    | none => exact (filter_inRange_of_scan hlimit hlast).symm
    | some last =>
      obtain ⟨hne, hsplit⟩ := scan_append_after hlast
      have hpage := length_pos_of_ne_nil hne
      rw [← hsplit, length_append] at hfuel
      change scan store start stop limit ++ _ = _
      rw [ih _ (by omega), hsplit]

/-- Each scan shortens the range or the page. -/
theorem scanPages_eq {tooLarge : ℕ → ℕ → Bool} (hfits : ∀ n, tooLarge n 1 = false)
    (fuel n limit : ℕ) (start : List UInt8) (hlimit : 0 < limit)
    (hfuel : (store.entries.filter fun e => inRange start stop e.1).length + limit < fuel) :
    scanPages store stop tooLarge fuel n limit start =
      some (.ok (store.entries.filter fun e => inRange start stop e.1)) := by
  induction fuel generalizing n limit start with
  | zero => omega
  | succ fuel ih =>
    rw [scanPages]
    by_cases hend : (stop.any fun e => decide (¬ start < e)) = true
    · rw [if_pos hend, filter_inRange_of_end_le hend]
    rw [if_neg hend]
    by_cases hlarge : tooLarge n limit = true
    · have hhalve : limit > 1 := by
        by_contra hone
        rw [show limit = 1 by omega, hfits] at hlarge
        cases hlarge
      rw [if_pos hlarge, if_pos hhalve, ih _ _ _ (by omega) (by omega)]
    · rw [if_neg hlarge]
      cases hlast : (scan store start stop limit).getLast? with
      | none => rw [filter_inRange_of_scan hlimit hlast]
      | some last =>
        obtain ⟨hne, hsplit⟩ := scan_append_after hlast
        have hpage := length_pos_of_ne_nil hne
        rw [← hsplit, length_append] at hfuel
        have hrest := ih (n + 1) limit (prefixScanKeyAfter last.1) hlimit (by omega)
        simp only [hrest, Option.map_some, Except.map, hsplit]

/-- **A prefix scan is exact on bytes.** The pages add up to the entries whose key starts with the
scanned bytes, in key order. -/
theorem scanAllPairs_eq (store : TiKv V) (start : List UInt8) :
    scanAllPairs store start = store.entries.filter fun e => start.isPrefixOf e.1 := by
  have hfuel : (store.entries.filter fun e =>
      inRange start (prefixScanRangeEndExclusive start) e.1).length < store.entries.length + 1 :=
    Nat.lt_succ_of_le (length_filter_le _ _)
  have hlimit : 0 < tikvScanPageLimit := by decide
  rw [scanAllPairs, scanLoop_eq store _ hlimit _ _ hfuel]
  refine filter_congr fun e _ => ?_
  rw [Bool.eq_iff_iff, ← prefix_iff_inRange, isPrefixOf_iff_prefix]

/-- **A paginated scan is complete.** The keys with the scanned prefix are those of the computed
range, and whatever pages are refused and halved, the scan ends and has visited their entries, each
once and in key order. -/
theorem paginated_scan_complete (store : TiKv V) (start : List UInt8) (limit : ℕ)
    (tooLarge : ℕ → ℕ → Bool) (hlimit : 0 < limit) (hfits : ∀ n, tooLarge n 1 = false) :
    (∀ key, start <+: key ↔ inRange start (prefixScanRangeEndExclusive start) key = true) ∧
    ∃ visited, (∀ fuel, store.entries.length + limit < fuel →
        scanTikvPairsPaginated store start limit tooLarge fuel = some (.ok visited)) ∧
      visited.Pairwise (fun a b => a.1 < b.1) ∧
      ∀ e, e ∈ visited ↔ e ∈ store.entries ∧ start <+: e.1 := by
  refine ⟨fun key => prefix_iff_inRange, _, fun fuel hfuel => scanPages_eq hfits fuel 0 limit start
    hlimit ?_, store.ordered.filter _, fun e => ?_⟩
  · exact (Nat.add_le_add_right (length_filter_le _ _) _).trans_lt hfuel
  · rw [mem_filter, prefix_iff_inRange]

/-- Three entries, two of them under the prefix, and a first page that is refused twice. -/
theorem paginated_scan_complete_refused : ∃ visited, (∀ fuel, 7 < fuel → scanTikvPairsPaginated
        ⟨[([1], 0), ([7], 1), ([7, 255], 2)], by decide⟩ [7] 4 (fun n limit => n < 2 && limit > 1)
          fuel = some (.ok visited)) ∧ ([7, 255], 2) ∈ visited := by
  obtain ⟨-, visited, hscan, -, hmem⟩ := paginated_scan_complete
    ⟨[([1], 0), ([7], 1), ([7, 255], 2)], by decide⟩ [7] 4 (fun n limit => n < 2 && limit > 1)
    (by decide) (by simp)
  exact ⟨visited, hscan, (hmem _).2 ⟨by decide, by decide⟩⟩

end Fluxon.TransferStore
