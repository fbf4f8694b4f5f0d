import Fluxon.Foundations.Table
import Fluxon.TransferScan.Wire

/-!
# The rows of a transfer job

The transfer store keeps a job as rows of a transactional key-value store: the job record, the batch
records with their state index and their equivalence index, the collect infos of batches, the
coverage claims of paths, worker leases, file issues and the markers of completely listed
directories. `Rows` is the content of one job; the rows of different jobs never meet.

The manifest of a batch stands for the blob that encodes it, and decoding it is `Manifest.validate`.
A collect info keeps its bytes, since batches are compared by them: `NoticeCodec` says that
the notices written into a blob are read back from it. Timestamps are left out.
-/

namespace Fluxon.TransferJob

open TransferScan (BatchKind)

/-! ## Paths -/

/-- `char::is_whitespace`. -/
def isWhiteSpace (c : Char) : Bool :=
  c.toNat ∈ [0x9, 0xA, 0xB, 0xC, 0xD, 0x20, 0x85, 0xA0, 0x1680, 0x2000, 0x2001, 0x2002, 0x2003,
    0x2004, 0x2005, 0x2006, 0x2007, 0x2008, 0x2009, 0x200A, 0x2028, 0x2029, 0x202F, 0x205F, 0x3000]

/-- `str::trim`. -/
def trim (s : List Char) : List Char :=
  ((s.dropWhile isWhiteSpace).reverse.dropWhile isWhiteSpace).reverse

/-- `str::split('/')`. -/
def splitSlash : List Char → List (List Char)
  | [] => [[]]
  | '/' :: rest => [] :: splitSlash rest
  | c :: rest =>
    match splitSlash rest with
    | [] => [[c]]
    | part :: parts => (c :: part) :: parts

/-- `safe_relpath`. -/
def safeRelpath (input : List Char) : Except String String :=
  let p := (input.map fun c => if c = '\\' then '/' else c).dropWhile (· = '/')
  if p = [] ∨ p = ['.'] then .error "empty relpath"
  else
    let parts := (splitSlash p).filter fun s => s ≠ [] ∧ s ≠ ['.']
    if ['.', '.'] ∈ parts then
      .error s!"invalid relpath: contains '..': {(String.ofList input).quote}"
    else
      let out := ['/'].intercalate parts
      if out = [] then .error "empty relpath" else .ok (String.ofList out)

/-- `normalize_transfer_root_relpath`. -/
def normalizeTransferRootRelpath (raw : String) : Except String String :=
  let trimmed := trim raw.toList
  if trimmed = [] ∨ trimmed = ['.'] ∨ trimmed = ['/'] then .ok "."
  else
    (safeRelpath trimmed).mapError fun e => s!"invalid transfer root relpath: input={raw} err={e}"

/-! ## Messages -/

structure ManifestEntry where
  relpath : String
  size : ℤ
  deriving DecidableEq, Repr

structure SymlinkNotice where
  relpath : String
  linkTarget : String
  deriving DecidableEq, Repr

/-- A manifest. Its `entry_count` and `total_bytes` are those of its entries, or it does not
decode. -/
structure Manifest where
  entries : List ManifestEntry
  emptyDirRelpaths : List String
  deriving DecidableEq, Repr

/-- `i64::saturating_add`. -/
def saturatingAddI64 (a b : ℤ) : ℤ := max (-2 ^ 63) (min (2 ^ 63 - 1) (a + b))

variable (manifest : Manifest)

def Manifest.entryCount : ℤ := manifest.entries.length

def Manifest.totalBytes : ℤ :=
  manifest.entries.foldl (fun acc entry => saturatingAddI64 acc entry.size) 0

/-- The empty directories of a manifest, checked one after the other. -/
def validateEmptyDirRelpaths : Option String → List String → Except String Unit
  | _, [] => .ok ()
  | previous, relpath :: rest =>
    if trim relpath.toList = [] then .error "transfer manifest empty_dir_relpath must be non-empty"
    else
      match previous with
      | none => validateEmptyDirRelpaths (some relpath) rest
      | some previous =>
        if previous ≥ relpath then
          .error <| s!"transfer manifest empty_dir_relpaths must be strictly sorted: " ++
            s!"previous={previous} current={relpath}"
        else validateEmptyDirRelpaths (some relpath) rest

/-- `FluxonFsTransferManifestWire::validate`. -/
def Manifest.validate : Except String Unit :=
  validateEmptyDirRelpaths none manifest.emptyDirRelpaths

/-- `decode_transfer_manifest_blob`, on a blob that stands for its manifest. -/
def decodeTransferManifestBlob : Except String Manifest :=
  match manifest.validate with
  | .ok () => .ok manifest
  | .error e => .error s!"decode transfer manifest failed: {e}"

/-- `transfer_manifest_stats`. -/
def transferManifestStats : ℤ × ℤ × ℤ := (1, max manifest.entryCount 0, max manifest.totalBytes 0)

/-- The blobs of symlink notices, a line of JSON for each one. -/
class NoticeCodec (Blob : Type) where
  /-- `decode_symlink_notice_collect_blob`. -/
  decode : Blob → Except String (List SymlinkNotice)
  /-- `build_symlink_notice_collect_blob`. -/
  encode : List SymlinkNotice → Blob
  decode_encode : ∀ notices, decode (encode notices) = .ok notices

/-- `FluxonFsTransferScanBatchWire`. There is one kind of collect info, the symlink notice. -/
structure BatchWire (Blob : Type) where
  batchId : String
  rootRelpath : String
  batchKind : BatchKind
  manifest : Manifest
  collectInfos : List Blob
  generation : ℤ
  deriving DecidableEq

structure ChildScanUnit where
  scanUnitId : String
  rootRelpath : String
  generation : ℤ
  deriving DecidableEq, Repr

/-- `FluxonFsTransferScanResultWire`. -/
structure ScanResult (Blob : Type) where
  scanEpoch : ℤ
  scanUnitId : String
  rootRelpath : String
  generation : ℤ
  directFilesOnlyBatches : List (BatchWire Blob)
  childScanUnits : List ChildScanUnit
  fullDirBatches : List (BatchWire Blob)
  deriving DecidableEq

/-- The batches of a result in the order in which they are applied. -/
def ScanResult.batches {Blob : Type} (result : ScanResult Blob) : List (BatchWire Blob) :=
  result.directFilesOnlyBatches ++ result.fullDirBatches

/-! ## Records -/

inductive JobState
  | running
  | stopping
  | completed
  | cancelled
  | failed
  deriving DecidableEq, Repr

inductive BatchState
  | ready
  | running
  | done
  | finished
  | cancelled
  | expired
  deriving DecidableEq, Repr

structure JobRecord where
  jobId : String
  scanEpoch : ℤ
  scanFinished : Bool
  scanDiscoveredBatchCount : ℤ
  scanDiscoveredFileCount : ℤ
  scanDiscoveredBytes : ℤ
  readyBatchCount : ℤ
  runningBatchCount : ℤ
  doneBatchCount : ℤ
  finishedBatchCount : ℤ
  expiredBatchCount : ℤ
  failedFileCount : ℤ
  state : JobState
  lastError : String
  deriving DecidableEq, Repr

/-- `adjust_job_batch_state_count`. -/
def JobRecord.adjustBatchStateCount (job : JobRecord) (state : BatchState) (delta : ℤ) :
    JobRecord :=
  match state with
  | .ready => { job with readyBatchCount := saturatingAddI64 job.readyBatchCount delta }
  | .running => { job with runningBatchCount := saturatingAddI64 job.runningBatchCount delta }
  | .done => { job with doneBatchCount := saturatingAddI64 job.doneBatchCount delta }
  | .finished => { job with finishedBatchCount := saturatingAddI64 job.finishedBatchCount delta }
  | .expired => { job with expiredBatchCount := saturatingAddI64 job.expiredBatchCount delta }
  | .cancelled => job

structure BatchRecord where
  rootRelpath : String
  batchKind : BatchKind
  state : BatchState
  assignedSrcExporterId : String
  assignedDstExporterId : String
  ownerWorkerId : String
  ownerWorkerTaskId : String
  leaseExpireUnixMs : ℤ
  manifest : Manifest
  generation : ℤ
  lastCountedScanEpoch : ℤ
  deriving DecidableEq, Repr

/-- `TransferCoveragePathKind`. -/
inductive PathKind
  | file
  | symlinkNotice
  | emptyDir
  deriving DecidableEq, Repr

def PathKind.debug : PathKind → String
  | .file => "File"
  | .symlinkNotice => "SymlinkNotice"
  | .emptyDir => "EmptyDir"

/-- `TransferCoverageClaimRecord`; its path is the key. -/
structure CoverageClaim where
  pathKind : PathKind
  batchId : String
  batchRootRelpath : String
  batchKind : BatchKind
  deriving DecidableEq, Repr

structure CollectInfoRecord (Blob : Type) where
  collectBlob : Blob
  materialized : Bool
  deriving DecidableEq, Repr

structure WorkerLease where
  workerId : String
  assignedBatchId : String
  leaseExpireUnixMs : ℤ
  deriving DecidableEq, Repr

/-- The rows of one job. -/
structure Rows (Blob : Type) where
  job : JobRecord
  batches : Table String BatchRecord
  /-- The state index: its keys. -/
  batchStates : Table (BatchState × String) Unit
  /-- The equivalence index; the key of a full-directory batch has no batch id. -/
  batchEq : Table (String × BatchKind × Option String) String
  collectInfos : Table String (CollectInfoRecord Blob)
  coverageClaims : Table String CoverageClaim
  /-- Worker leases by worker task. -/
  workerLeases : Table String WorkerLease
  /-- File issues by batch and path. -/
  fileIssues : Table (String × String) String
  directFilesComplete : Table String Unit

/-- The rows after `insert_transfer_job` of a new job. -/
def Rows.created {Blob : Type} (jobId : String) : Rows Blob where
  job := ⟨jobId, 1, false, 0, 0, 0, 0, 0, 0, 0, 0, 0, .running, ""⟩
  batches := ∅
  batchStates := ∅
  batchEq := ∅
  collectInfos := ∅
  coverageClaims := ∅
  workerLeases := ∅
  fileIssues := ∅
  directFilesComplete := ∅

end Fluxon.TransferJob
