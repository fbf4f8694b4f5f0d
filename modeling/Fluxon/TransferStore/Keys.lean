import Fluxon.Foundations.Utf8
import Fluxon.TransferStore.PrefixScan
import Mathlib.Data.Int.Notation
import Mathlib.Data.List.Sort

/-!
# Keys of the transfer store and its loads

Every row of the transfer state is stored under a key composed of the store's own key prefix, a
namespace and the ids of the row, each id after a zero byte. A load for a job or for a batch scans
the keys that start with the namespace and the requested ids.

No zero byte follows the last requested id, so a scan also meets the rows of every id that strictly
extends it. `loadRecords_exact_iff` says that this is the only way a load goes wrong: for ids
without zero bytes a load returns exactly the requested rows if and only if no stored row of its
kind belongs to such a longer id.
-/

namespace Fluxon.TransferStore

/-! ## Keys -/

/-- The namespaces of the store. -/
inductive Namespace
  | job
  | batch
  | batchEq
  | batchState
  | collectInfo
  | fileIssue
  | workerLease
  | workerAttempt
  | coverageClaim
  | directFilesComplete
  deriving DecidableEq, Repr

/-- `KEY_NS_*`. -/
def Namespace.bytes : Namespace → List UInt8
  | .job => asBytes "job"
  | .batch => asBytes "batch"
  | .batchEq => asBytes "batch_eq"
  | .batchState => asBytes "batch_state"
  | .collectInfo => asBytes "collect_info"
  | .fileIssue => asBytes "file_issue"
  | .workerLease => asBytes "worker_lease"
  | .workerAttempt => asBytes "worker_attempt"
  | .coverageClaim => asBytes "coverage_claim"
  | .directFilesComplete => asBytes "direct_files_complete"

/-- The parts of a key, each after a zero byte. -/
def composeParts : List String → List UInt8
  | [] => []
  | part :: rest => 0 :: asBytes part ++ composeParts rest

/-- `compose_key`. -/
def composeKey (keyPrefix : List UInt8) (ns : Namespace) (parts : List String) : List UInt8 :=
  keyPrefix ++ ns.bytes ++ composeParts parts

section Keys

variable (keyPrefix : List UInt8) (jobId : String)

def jobKey : List UInt8 := composeKey keyPrefix .job [jobId]

def batchPrefix : List UInt8 := composeKey keyPrefix .batch [jobId]

def batchKey (jobId batchId : String) : List UInt8 := composeKey keyPrefix .batch [jobId, batchId]

/-- `batch_eq_key`; a full directory batch is identified by its root alone. -/
def batchEqKey (jobId rootRelpath batchKind : String) (batchId : Option String) : List UInt8 :=
  composeKey keyPrefix .batchEq ([jobId, rootRelpath, batchKind] ++ batchId.toList)

def batchStateKey (jobId state batchId : String) : List UInt8 :=
  composeKey keyPrefix .batchState [jobId, state, batchId]

def collectInfoPrefix (jobId batchId : String) : List UInt8 :=
  composeKey keyPrefix .collectInfo [jobId, batchId]

def collectInfoKey (jobId batchId collectKind : String) : List UInt8 :=
  composeKey keyPrefix .collectInfo [jobId, batchId, collectKind]

def fileIssuePrefix (jobId batchId : String) : List UInt8 :=
  composeKey keyPrefix .fileIssue [jobId, batchId]

def fileIssueJobPrefix : List UInt8 := composeKey keyPrefix .fileIssue [jobId]

def fileIssueKey (jobId batchId relpath : String) : List UInt8 :=
  composeKey keyPrefix .fileIssue [jobId, batchId, relpath]

def workerLeasePrefix : List UInt8 := composeKey keyPrefix .workerLease [jobId]

def workerLeaseKey (jobId workerTaskId : String) : List UInt8 :=
  composeKey keyPrefix .workerLease [jobId, workerTaskId]

def workerAttemptKey (jobId workerTaskId : String) : List UInt8 :=
  composeKey keyPrefix .workerAttempt [jobId, workerTaskId]

def workerAttemptPrefix : List UInt8 := composeKey keyPrefix .workerAttempt [jobId]

def coverageClaimKey (jobId relpath : String) : List UInt8 :=
  composeKey keyPrefix .coverageClaim [jobId, relpath]

def directFilesCompleteKey (jobId rootRelpath : String) : List UInt8 :=
  composeKey keyPrefix .directFilesComplete [jobId, rootRelpath]

def directFilesCompletePrefix : List UInt8 := composeKey keyPrefix .directFilesComplete [jobId]

end Keys

/-! ## Rows -/

/-- A row of the store: its ids and what the loads sort by. -/
inductive StoredRecord
  | job (jobId : String)
  | batch (jobId batchId rootRelpath : String) (generation : ℤ)
  | batchEq (jobId rootRelpath batchKind : String) (batchId : Option String)
  | batchState (jobId state batchId : String)
  | collectInfo (jobId batchId collectKind : String)
  | fileIssue (jobId batchId relpath : String) (createdAtUnixMs : ℤ)
  | workerLease (jobId workerTaskId : String)
  | workerAttempt (jobId workerTaskId batchId : String) (createdAtUnixMs : ℤ)
  | coverageClaim (jobId relpath : String)
  | directFilesComplete (jobId rootRelpath : String)
  deriving DecidableEq, Repr

namespace StoredRecord

/-- The key a row is written under. -/
def key (keyPrefix : List UInt8) : StoredRecord → List UInt8
  | job j => jobKey keyPrefix j
  | batch j b _ _ => batchKey keyPrefix j b
  | batchEq j root kind b => batchEqKey keyPrefix j root kind b
  | batchState j state b => batchStateKey keyPrefix j state b
  | collectInfo j b kind => collectInfoKey keyPrefix j b kind
  | fileIssue j b p _ => fileIssueKey keyPrefix j b p
  | workerLease j w => workerLeaseKey keyPrefix j w
  | workerAttempt j w _ _ => workerAttemptKey keyPrefix j w
  | coverageClaim j p => coverageClaimKey keyPrefix j p
  | directFilesComplete j root => directFilesCompleteKey keyPrefix j root

/-- The namespace of a row. -/
def ns : StoredRecord → Namespace
  | job .. => .job
  | batch .. => .batch
  | batchEq .. => .batchEq
  | batchState .. => .batchState
  | collectInfo .. => .collectInfo
  | fileIssue .. => .fileIssue
  | workerLease .. => .workerLease
  | workerAttempt .. => .workerAttempt
  | coverageClaim .. => .coverageClaim
  | directFilesComplete .. => .directFilesComplete

/-- The job a row belongs to. -/
def jobId : StoredRecord → String
  | job j | batch j .. | batchEq j .. | batchState j .. | collectInfo j .. | fileIssue j ..
  | workerLease j .. | workerAttempt j .. | coverageClaim j .. | directFilesComplete j .. => j

/-- The batch a row belongs to, for the rows whose key has the batch right after the job. -/
def batchId : StoredRecord → Option String
  | batch _ b .. | collectInfo _ b .. | fileIssue _ b .. => some b
  | _ => none

/-- The part of a key after the job. -/
def keyTail : StoredRecord → List String
  | job _ => []
  | batch _ b _ _ => [b]
  | batchEq _ root kind b => [root, kind] ++ b.toList
  | batchState _ state b => [state, b]
  | collectInfo _ b kind => [b, kind]
  | fileIssue _ b p _ => [b, p]
  | workerLease _ w => [w]
  | workerAttempt _ w _ _ => [w]
  | coverageClaim _ p => [p]
  | directFilesComplete _ root => [root]

theorem key_eq (keyPrefix : List UInt8) (r : StoredRecord) :
    r.key keyPrefix = composeKey keyPrefix r.ns (r.jobId :: r.keyTail) := by
  cases r <;> rfl

end StoredRecord

/-- The stored rows: each is found under its own key. -/
structure Store (keyPrefix : List UInt8) where
  pairs : TiKv StoredRecord
  keyed : ∀ e ∈ pairs.entries, e.1 = e.2.key keyPrefix

/-- The rows of a store, in key order. -/
def Store.records {keyPrefix : List UInt8} (s : Store keyPrefix) : List StoredRecord :=
  s.pairs.entries.map Prod.snd

/-! ## Loads -/

/-- The loads for a job and for a batch. -/
inductive Load
  | batchesForJob (jobId : String)
  | collectInfosForBatch (jobId batchId : String)
  | fileIssuesForJob (jobId : String)
  | fileIssuesForBatch (jobId batchId : String)
  | workerLeasesForJob (jobId : String)
  | workerAttemptsForJob (jobId : String)
  | directFilesCompleteRecordsForJob (jobId : String)
  deriving DecidableEq, Repr

namespace Load

/-- The namespace a load reads. -/
def ns : Load → Namespace
  | batchesForJob _ => .batch
  | collectInfosForBatch .. => .collectInfo
  | fileIssuesForJob _ | fileIssuesForBatch .. => .fileIssue
  | workerLeasesForJob _ => .workerLease
  | workerAttemptsForJob _ => .workerAttempt
  | directFilesCompleteRecordsForJob _ => .directFilesComplete

/-- The requested job. -/
def jobId : Load → String
  | batchesForJob j | collectInfosForBatch j _ | fileIssuesForJob j | fileIssuesForBatch j _
  | workerLeasesForJob j | workerAttemptsForJob j | directFilesCompleteRecordsForJob j => j

/-- The requested batch, for the loads of one batch. -/
def batchId : Load → Option String
  | collectInfosForBatch _ b | fileIssuesForBatch _ b => some b
  | _ => none

/-- The bytes a load scans by. -/
def scanKey (keyPrefix : List UInt8) : Load → List UInt8
  | batchesForJob j => batchPrefix keyPrefix j
  | collectInfosForBatch j b => collectInfoPrefix keyPrefix j b
  | fileIssuesForJob j => fileIssueJobPrefix keyPrefix j
  | fileIssuesForBatch j b => fileIssuePrefix keyPrefix j b
  | workerLeasesForJob j => workerLeasePrefix keyPrefix j
  | workerAttemptsForJob j => workerAttemptPrefix keyPrefix j
  | directFilesCompleteRecordsForJob j => directFilesCompletePrefix keyPrefix j

/-- What the decoder of a load calls its rows in an error. -/
def context : Load → String
  | batchesForJob _ => "transfer batch record by job"
  | collectInfosForBatch .. => "transfer batch collect info record by batch"
  | fileIssuesForJob _ => "transfer batch file issue record by job"
  | fileIssuesForBatch .. => "transfer batch file issue record by batch"
  | workerLeasesForJob _ => "transfer worker lease record by job"
  | workerAttemptsForJob _ => "transfer worker attempt record by job"
  | directFilesCompleteRecordsForJob _ => "transfer direct files complete record by job"

/-- The order of the rows a load returns. -/
def cmp : Load → StoredRecord → StoredRecord → Ordering
  | batchesForJob _, .batch _ b root gen, .batch _ b' root' gen' =>
    ((compare root root').then (compare gen gen')).then (compare b b')
  | collectInfosForBatch .., .collectInfo _ _ kind, .collectInfo _ _ kind' => compare kind kind'
  | fileIssuesForJob _, .fileIssue _ b p t, .fileIssue _ b' p' t' =>
    ((compare b b').then (compare p p')).then (compare t t')
  | fileIssuesForBatch .., .fileIssue _ _ p _, .fileIssue _ _ p' _ => compare p p'
  | workerLeasesForJob _, .workerLease _ w, .workerLease _ w' => compare w w'
  | workerAttemptsForJob _, .workerAttempt _ w b t, .workerAttempt _ w' b' t' =>
    ((compare b b').then (compare t t')).then (compare w w')
  | directFilesCompleteRecordsForJob _, .directFilesComplete _ root,
      .directFilesComplete _ root' => compare root root'
  | _, _, _ => .eq

end Load

/-- `decode_record`: a row of another kind does not decode. -/
def decodeRecord (ns : Namespace) (context : String) (r : StoredRecord) :
    Except String StoredRecord :=
  if r.ns = ns then return r else throw s!"decode {context} failed"

/-- A load: scan, decode every row, sort. -/
def loadRecords {keyPrefix : List UInt8} (s : Store keyPrefix) (q : Load) :
    Except String (List StoredRecord) := do
  let rows ← (scanAllPairs s.pairs (q.scanKey keyPrefix)).mapM fun e =>
    decodeRecord q.ns q.context e.2
  return rows.insertionSort fun a b => q.cmp a b ≠ .gt

/-- The rows a load asks for. -/
def Load.Wants (q : Load) (r : StoredRecord) : Prop :=
  r.ns = q.ns ∧ r.jobId = q.jobId ∧ ∀ b ∈ q.batchId, r.batchId = some b

/-- The row's id at the place of the last requested id strictly extends it. -/
def Load.Clashes (q : Load) (r : StoredRecord) : Prop := r.ns = q.ns ∧
    match q.batchId with
    | none => asBytes q.jobId <+: asBytes r.jobId ∧ r.jobId ≠ q.jobId
    | some b => r.jobId = q.jobId ∧ ∃ b' ∈ r.batchId, asBytes b <+: asBytes b' ∧ b' ≠ b

instance (q : Load) (r : StoredRecord) : Decidable (q.Wants r) :=
  inferInstanceAs
    (Decidable (r.ns = q.ns ∧ r.jobId = q.jobId ∧ ∀ b ∈ q.batchId, r.batchId = some b))

/-! ## Byte strings without zero bytes -/

/-- The bytes of an id contain no zero. -/
def NulFree (s : String) : Prop := (0 : UInt8) ∉ asBytes s

instance (s : String) : Decidable (NulFree s) := inferInstanceAs (Decidable (_ ∉ _))

/-- Two strings without zeros, each followed by a zero, agree up to it. -/
theorem append_zero_prefix_iff {a b x y : List UInt8} (ha : (0 : UInt8) ∉ a)
    (hb : (0 : UInt8) ∉ b) : a ++ 0 :: x <+: b ++ 0 :: y ↔ a = b ∧ x <+: y := by
  induction a generalizing b with
  | nil =>
    cases b with
    | nil => simp [List.cons_prefix_cons]
    | cons c b =>
      have hc : (0 : UInt8) ≠ c := fun h => hb (by simp [h])
      simp [List.cons_prefix_cons, hc]
  | cons c a ih =>
    cases b with
    | nil =>
      have hc : c ≠ 0 := fun h => ha (by simp [h])
      simp [List.cons_prefix_cons, hc]
    | cons d b =>
      have ha' : (0 : UInt8) ∉ a := fun h => ha (List.mem_cons_of_mem _ h)
      have hb' : (0 : UInt8) ∉ b := fun h => hb (List.mem_cons_of_mem _ h)
      simp only [List.cons_append, List.cons_prefix_cons, ih ha' hb', List.cons.injEq, and_assoc]

/-- A string without zeros does not reach over the end of an id. -/
theorem prefix_append_parts_iff {a b : List UInt8} (ha : (0 : UInt8) ∉ a) (parts : List String) :
    a <+: b ++ composeParts parts ↔ a <+: b := by
  refine ⟨fun h => ?_, fun h => h.trans (List.prefix_append _ _)⟩
  cases parts with
  | nil => simpa [composeParts] using h
  | cons part rest =>
    induction a generalizing b with
    | nil => exact List.nil_prefix
    | cons c a ih =>
      have ha' : (0 : UInt8) ∉ a := fun h => ha (List.mem_cons_of_mem _ h)
      cases b with
      | nil =>
        have hc : c ≠ 0 := fun h => ha (by simp [h])
        simp [composeParts, List.cons_prefix_cons, hc] at h
      | cons d b =>
        rw [List.cons_append, List.cons_prefix_cons] at h
        exact List.cons_prefix_cons.2 ⟨h.1, ih ha' h.2⟩

theorem zero_notMem_ns (ns : Namespace) : (0 : UInt8) ∉ ns.bytes := by cases ns <;> decide +kernel

theorem ns_bytes_injective {ns ns' : Namespace} (h : ns.bytes = ns'.bytes) : ns = ns' := by
  revert h
  cases ns <;> cases ns' <;> decide +kernel

/-! ## What a scan meets -/

/-- The part of a scan key after the job. -/
theorem Load.scanKey_eq (keyPrefix : List UInt8) (q : Load) :
    q.scanKey keyPrefix = composeKey keyPrefix q.ns (q.jobId :: q.batchId.toList) := by
  cases q <;> rfl

variable {r : StoredRecord}

/-- Only the rows of one job can have the ids of a batch after it. -/
theorem StoredRecord.keyTail_of_ns {q : Load} {b : String} (hns : r.ns = q.ns)
    (hb : q.batchId = some b) : ∃ b' rest, r.batchId = some b' ∧ r.keyTail = b' :: rest := by
  cases q <;> cases r <;> simp [StoredRecord.ns, Load.ns, Load.batchId] at hns hb <;>
    exact ⟨_, _, rfl, rfl⟩

/-- The ids of a row contain no zero bytes. -/
def StoredRecord.NulFree (r : StoredRecord) : Prop :=
  TransferStore.NulFree r.jobId ∧ ∀ b ∈ r.batchId, TransferStore.NulFree b

/-- The requested ids contain no zero bytes. -/
def Load.NulFree (q : Load) : Prop :=
  TransferStore.NulFree q.jobId ∧ ∀ b ∈ q.batchId, TransferStore.NulFree b

instance (q : Load) : Decidable q.NulFree := inferInstanceAs (Decidable (_ ∧ _))

instance (r : StoredRecord) : Decidable r.NulFree := inferInstanceAs (Decidable (_ ∧ _))

/-- **What a scan meets.** The rows a load asks for, and those of longer ids. -/
theorem Load.scanKey_prefix_iff {keyPrefix : List UInt8} {q : Load} (hq : q.NulFree)
    (hr : r.NulFree) : q.scanKey keyPrefix <+: r.key keyPrefix ↔ q.Wants r ∨ q.Clashes r := by
  rw [Load.scanKey_eq, StoredRecord.key_eq, composeKey, composeKey, List.append_assoc,
    List.append_assoc, List.prefix_append_right_inj, composeParts, composeParts, List.cons_append,
    List.cons_append, append_zero_prefix_iff (zero_notMem_ns _) (zero_notMem_ns _)]
  have hns : q.ns.bytes = r.ns.bytes ↔ r.ns = q.ns :=
    ⟨fun h => (ns_bytes_injective h).symm, fun h => by rw [h]⟩
  rw [hns, Load.Wants, Load.Clashes, ← and_or_left]
  refine and_congr_right fun hsame => ?_
  cases hb : q.batchId with
  | none =>
    simp only [Option.toList_none, composeParts, List.append_nil, prefix_append_parts_iff hq.1]
    by_cases hjob : r.jobId = q.jobId
    · simp [hjob]
    · simp [hjob]
  | some b =>
    obtain ⟨b', rest, hb', htail⟩ := StoredRecord.keyTail_of_ns hsame hb
    have hbnul : TransferStore.NulFree b := hq.2 b hb
    simp only [Option.toList_some, htail, composeParts, List.append_nil, List.cons_append,
      append_zero_prefix_iff hq.1 hr.1, prefix_append_parts_iff hbnul, hb']
    have hjob : asBytes q.jobId = asBytes r.jobId ↔ r.jobId = q.jobId :=
      ⟨fun h => (asBytes_injective h).symm, fun h => by rw [h]⟩
    rw [hjob]
    by_cases hbb : b' = b
    · subst hbb
      simp
    · simp [hbb]

/-! ## Loads -/

theorem mapM_decodeRecord {ns : Namespace} {context : String} {l : List (List UInt8 × StoredRecord)}
    (h : ∀ e ∈ l, e.2.ns = ns) :
    (l.mapM fun e => decodeRecord ns context e.2) = .ok (l.map Prod.snd) := by
  induction l with
  | nil => rfl
  | cons e l ih =>
    have hhead : decodeRecord ns context e.2 = .ok e.2 := by
      rw [decodeRecord, if_pos (h e List.mem_cons_self)]
      rfl
    rw [List.mapM_cons, hhead, ih fun a ha => h a (List.mem_cons_of_mem _ ha)]
    rfl

section Loads

variable {keyPrefix : List UInt8} (s : Store keyPrefix) (q : Load)

instance (r : StoredRecord) : Decidable (q.Clashes r) :=
  match h : q.batchId with
  | none => decidable_of_iff
      (r.ns = q.ns ∧ asBytes q.jobId <+: asBytes r.jobId ∧ r.jobId ≠ q.jobId)
      (by rw [Load.Clashes, h])
  | some b => decidable_of_iff
      (r.ns = q.ns ∧ r.jobId = q.jobId ∧ ∃ b' ∈ r.batchId, asBytes b <+: asBytes b' ∧ b' ≠ b)
      (by rw [Load.Clashes, h])

/-- A load always succeeds, and returns what its scan meets. -/
theorem exists_loadRecords (hs : ∀ r ∈ s.records, r.NulFree) (hq : q.NulFree) :
    ∃ out, loadRecords s q = .ok out ∧
      out.Perm (s.records.filter fun r => q.Wants r ∨ q.Clashes r) := by
  have hmet : ∀ e ∈ s.pairs.entries,
      ((q.scanKey keyPrefix).isPrefixOf e.1 = true ↔ q.Wants e.2 ∨ q.Clashes e.2) := by
    intro e he
    have hmem : e.2 ∈ s.records := List.mem_map_of_mem he
    rw [s.keyed e he, List.isPrefixOf_iff_prefix]
    exact Load.scanKey_prefix_iff hq (hs e.2 hmem)
  have hns : ∀ e ∈ scanAllPairs s.pairs (q.scanKey keyPrefix), e.2.ns = q.ns := by
    intro e he
    rw [scanAllPairs_eq, List.mem_filter] at he
    obtain h | h := (hmet e he.1).1 he.2
    · exact h.1
    · exact h.1
  have hrows : (scanAllPairs s.pairs (q.scanKey keyPrefix)).map Prod.snd =
      s.records.filter fun r => decide (q.Wants r ∨ q.Clashes r) := by
    rw [scanAllPairs_eq, Store.records, List.filter_map]
    congr 1
    refine List.filter_congr fun e he => ?_
    rw [Bool.eq_iff_iff, hmet e he]
    simp
  refine ⟨_, by rw [loadRecords, mapM_decodeRecord hns]; rfl, ?_⟩
  rw [← hrows]
  exact List.perm_insertionSort _ _

/-- The load returns the rows it asks for, and no others. -/
def Exact : Prop :=
  ∃ out, loadRecords s q = .ok out ∧ out.Perm (s.records.filter fun r => q.Wants r)

theorem not_wants_of_clashes {q : Load} (h : q.Clashes r) : ¬ q.Wants r := by
  rintro ⟨-, hjob, hbatch⟩
  obtain ⟨-, h⟩ := h
  cases hb : q.batchId with
  | none =>
    rw [hb] at h
    exact h.2 hjob
  | some b =>
    rw [hb] at h
    obtain ⟨-, b', hb', -, hne⟩ := h
    have heq := hbatch b hb
    rw [hb', Option.some.injEq] at heq
    exact hne heq

/-- **When a load is isolated.** For ids without zero bytes, a load returns exactly the requested
rows if and only if no stored row of its kind belongs to an id that strictly extends the last
requested one. -/
theorem loadRecords_exact_iff (hs : ∀ r ∈ s.records, r.NulFree) (hq : q.NulFree) :
    Exact s q ↔ ∀ r ∈ s.records, ¬ q.Clashes r := by
  obtain ⟨out, hload, hperm⟩ := exists_loadRecords s q hs hq
  constructor
  · rintro ⟨out', hload', hperm'⟩ r hr hclash
    obtain rfl : out = out' := by
      rw [hload] at hload'
      exact Except.ok.inj hload'
    have hmem : r ∈ out := hperm.mem_iff.2 (List.mem_filter.2 ⟨hr, by simp [hclash]⟩)
    have hwants := (List.mem_filter.1 (hperm'.mem_iff.1 hmem)).2
    exact not_wants_of_clashes hclash (of_decide_eq_true hwants)
  · intro hnone
    refine ⟨out, hload, ?_⟩
    have hfilter : (s.records.filter fun r => decide (q.Wants r ∨ q.Clashes r)) =
        s.records.filter fun r => decide (q.Wants r) :=
      List.filter_congr fun r hr => by simp [hnone r hr]
    rwa [hfilter] at hperm

end Loads

/-! ## Partition indices -/

/-- `direct_files_only_batch_id_for_partition`. -/
def directFilesOnlyBatchIdForPartition (scanUnitId : String) (partitionIndex : ℤ) : String :=
  s!"{scanUnitId}__direct_files_only__{partitionIndex}"

/-- The symlink notices of the direct-files batches 1 and 10 of one scan unit. -/
def partitionStore : Store (asBytes "fs") where
  pairs := ⟨[1, 10].map fun i =>
    (collectInfoKey (asBytes "fs") "job" (directFilesOnlyBatchIdForPartition "unit" i)
      "symlink_notice",
      .collectInfo "job" (directFilesOnlyBatchIdForPartition "unit" i) "symlink_notice"),
    by decide +kernel⟩
  keyed := by decide +kernel

/-- The load of the collect infos of partition `i`. -/
def loadPartition (i : ℤ) : Load :=
  .collectInfosForBatch "job" (directFilesOnlyBatchIdForPartition "unit" i)

theorem loadRecords_exact_iff_partition_ten :
    (∀ r ∈ partitionStore.records, r.NulFree) ∧ (loadPartition 10).NulFree ∧
      Exact partitionStore (loadPartition 10) :=
  ⟨by decide +kernel, by decide +kernel,
    (loadRecords_exact_iff partitionStore (loadPartition 10) (by decide +kernel)
      (by decide +kernel)).2 (by decide +kernel)⟩

/-- The load for partition 1 also returns the row of partition 10. -/
theorem loadRecords_partition_one_not_exact :
    (∀ r ∈ partitionStore.records, r.NulFree) ∧ (loadPartition 1).NulFree ∧
      loadRecords partitionStore (loadPartition 1) = .ok partitionStore.records ∧
      ¬ Exact partitionStore (loadPartition 1) := by
  have hload : loadRecords partitionStore (loadPartition 1) = .ok partitionStore.records := by
    decide +kernel
  refine ⟨by decide +kernel, by decide +kernel, hload, ?_⟩
  rintro ⟨out, hout, hperm⟩
  obtain rfl : partitionStore.records = out := by exact Except.ok.inj hout
  have hlen := hperm.length_eq
  revert hlen
  decide +kernel

end Fluxon.TransferStore
