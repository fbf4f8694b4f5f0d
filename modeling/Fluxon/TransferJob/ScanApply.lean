import Fluxon.TransferJob.Rows
import Mathlib.Data.List.Sort

/-!
# Applying scan results to a job

A scan appends batches to its job in transactions that lock the job row, so an application is a
function of the rows: `applyTransferScanAppend` and `applyTransferScanResult`. An application that
fails is rolled back.

Each batch goes through `insertOrReuseBatch`. A batch whose equivalence key is known must carry
the manifest and the collect infos that are stored; it is counted once for each scan epoch. A
new batch of direct files or of a subtree slice loses the paths that other batches of its root and
kind have claimed, and is not stored if nothing remains. A new full-directory batch must not
meet any claim.
-/

namespace Fluxon.TransferJob

open TransferScan (BatchKind)

/-- A fallible computation that goes through in two parts. -/
theorem bind_eq_ok {ε α β : Type} {x : Except ε α} {f : α → Except ε β} {b : β} :
    x >>= f = .ok b ↔ ∃ a, x = .ok a ∧ f a = .ok b := by
  cases x with
  | error | ok => simp [bind, Except.bind]

theorem toOption_eq_some {ε α : Type} {x : Except ε α} {a : α} :
    x.toOption = some a ↔ x = .ok a := by
  cases x with
  | error | ok => simp [Except.toOption]

variable {Blob : Type} [DecidableEq Blob] [NoticeCodec Blob]

/-! ## Equivalent batches -/

/-- `batch_eq_key`, for the normalized root. -/
def batchEqKey (root : String) (batch : BatchWire Blob) : String × BatchKind × Option String :=
  (root, batch.batchKind,
    match batch.batchKind with
    | .directFilesOnly => some batch.batchId
    | .subtreeSlice => some batch.batchId
    | .fullDir => none)

/-- The first difference between the entries of two manifests. -/
def validateEquivalentEntries (jobId batchId : String) :
    List (ManifestEntry × ManifestEntry) → Except String Unit
  | [] => .ok ()
  | (existing, incoming) :: rest =>
    if existing.relpath ≠ incoming.relpath ∨ existing.size ≠ incoming.size then
      .error <| s!"equivalent transfer batch entry mismatch: job_id={jobId} batch_id={batchId} " ++
        s!"existing_relpath={existing.relpath} incoming_relpath={incoming.relpath} " ++
        s!"existing_size={existing.size} incoming_size={incoming.size}"
    else validateEquivalentEntries jobId batchId rest

/-- The first difference between the empty directories of two manifests. -/
def validateEquivalentEmptyDirs (jobId batchId : String) :
    List (String × String) → Except String Unit
  | [] => .ok ()
  | (existing, incoming) :: rest =>
    if existing ≠ incoming then
      .error <| s!"equivalent transfer batch empty_dir_relpath mismatch: job_id={jobId} " ++
        s!"batch_id={batchId} existing_relpath={existing} incoming_relpath={incoming}"
    else validateEquivalentEmptyDirs jobId batchId rest

/-- `validate_equivalent_manifests`. -/
def validateEquivalentManifests (jobId batchId root : String) (kind : BatchKind)
    (existing incoming : Manifest) : Except String Unit :=
  let place := s!"job_id={jobId} batch_id={batchId} root_relpath={root} batch_kind={kind.asDbStr}"
  if existing.entryCount ≠ incoming.entryCount then
    .error s!"equivalent transfer batch entry_count mismatch: {place}"
  else if existing.totalBytes ≠ incoming.totalBytes then
    .error s!"equivalent transfer batch total_bytes mismatch: {place}"
  else if existing.entries.length ≠ incoming.entries.length then
    .error s!"equivalent transfer batch entry vector length mismatch: {place}"
  else do
    validateEquivalentEntries jobId batchId (existing.entries.zip incoming.entries)
    if existing.emptyDirRelpaths.length ≠ incoming.emptyDirRelpaths.length then
      .error s!"equivalent transfer batch empty_dir_relpaths length mismatch: {place}"
    else
      validateEquivalentEmptyDirs jobId batchId
        (existing.emptyDirRelpaths.zip incoming.emptyDirRelpaths)

variable (rows : Rows Blob)

/-- `load_collect_infos_for_batch_from_tx`. The scan of the keys of a batch also meets those of
every batch whose id extends its id. -/
def loadCollectInfosForBatch (batchId : String) : List Blob :=
  ((rows.collectInfos.entries.filter fun e => batchId.toList.isPrefixOf e.1.toList).insertionSort
    fun a b => a.1 ≤ b.1).map fun e => e.2.collectBlob

/-- `verify_equivalent_batch_collect_infos`. -/
def verifyEquivalentBatchCollectInfos (batchId : String)
    (incoming : List Blob) : Except String Unit :=
  let existing := loadCollectInfosForBatch rows batchId
  if existing.length ≠ incoming.length then
    .error <| s!"equivalent transfer batch collect info count mismatch: job_id={rows.job.jobId} " ++
      s!"batch_id={batchId} existing={existing.length} incoming={incoming.length}"
  else if existing ≠ incoming then
    .error <| s!"equivalent transfer batch collect info mismatch: job_id={rows.job.jobId} " ++
      s!"batch_id={batchId} collect_kind=symlink_notice"
  else .ok ()

variable (batch : BatchWire Blob)

/-- A batch whose equivalence key is stored for `existingId`. -/
def reuseBatch (incoming : Manifest) (root : String)
    (existingId : String) : Except String ((ℤ × ℤ × ℤ) × Rows Blob) :=
  match rows.batches.lookup existingId with
  | none => .error "equivalent transfer batch lookup"
  | some existing => do
    validateEquivalentManifests rows.job.jobId existingId root batch.batchKind existing.manifest
      incoming
    verifyEquivalentBatchCollectInfos rows existingId batch.collectInfos
    if existing.lastCountedScanEpoch = rows.job.scanEpoch then return ((0, 0, 0), rows)
    else
      let updated := { existing with lastCountedScanEpoch := rows.job.scanEpoch }
      return (transferManifestStats incoming,
        { rows with batches := rows.batches.insert existingId updated })

/-! ## New batches -/

/-- `decode_symlink_notices_from_collect_infos`. -/
def decodeSymlinkNotices : List Blob → Except String (List SymlinkNotice)
  | [] => .ok []
  | blob :: rest => do
    let notices ← NoticeCodec.decode blob
    let more ← decodeSymlinkNotices rest
    return notices ++ more

/-- `build_symlink_collect_infos`. -/
def buildSymlinkCollectInfos (notices : List SymlinkNotice) : List Blob :=
  if notices = [] then [] else [NoticeCodec.encode notices]

/-- What an error calls a path of each kind. -/
def PathKind.noun : PathKind → String
  | .file => "file"
  | .symlinkNotice => "symlink notice"
  | .emptyDir => "empty dir"

/-- The end of an error about a path that another batch claims. -/
def overlapDetail (root relpath : String) (existing : CoverageClaim) : String :=
  s!"job_id={rows.job.jobId} root_relpath={root} relpath={relpath} " ++
    s!"existing_batch_id={existing.batchId} existing_root_relpath={existing.batchRootRelpath} " ++
    s!"existing_batch_kind={existing.batchKind.asDbStr}"

/-- The loops of `filter_path_claimed_batch_locked_tx`, one for the files, one for the symlink
notices and one for the empty directories: what nobody claims is kept, what a batch of the same
root and kind claims is dropped. -/
def filterClaimed {α : Type} (rows : Rows Blob) (root : String) (kind : BatchKind)
    (pathKind : PathKind) (relpathOf : α → String) : List α → Except String (List α)
  | [] => .ok []
  | a :: rest =>
    match rows.coverageClaims.lookup (relpathOf a) with
    | none => do
      let kept ← filterClaimed rows root kind pathKind relpathOf rest
      return a :: kept
    | some existing =>
      if existing.pathKind ≠ pathKind then
        let noun := if pathKind = .file then "direct file" else pathKind.noun
        .error <| s!"transfer coverage claim kind mismatch for {noun}: job_id={rows.job.jobId} " ++
          s!"relpath={relpathOf a} existing_kind={existing.pathKind.debug}"
      else if existing.batchKind ≠ kind ∨ existing.batchRootRelpath ≠ root then
        .error <| s!"transfer {kind.asDbStr} {pathKind.noun} overlap rejected: " ++
          s!"{overlapDetail rows root (relpathOf a) existing}"
      else filterClaimed rows root kind pathKind relpathOf rest

/-- The loops of `validate_no_coverage_overlap_for_full_dir_batch_locked_tx`. -/
def validateUnclaimed (rows : Rows Blob) (root : String) (pathKind : PathKind) :
    List String → Except String Unit
  | [] => .ok ()
  | relpath :: rest =>
    match rows.coverageClaims.lookup relpath with
    | some existing =>
      let noun := if pathKind = .file then "" else s!"{pathKind.noun} "
      .error <| s!"transfer full dir {noun}overlap rejected: " ++
        s!"{overlapDetail rows root relpath existing}"
    | none => validateUnclaimed rows root pathKind rest

/-- What is stored of a batch: its files, notices and empty directories, and the collect infos that
hold the notices. -/
structure Materialized (Blob : Type) where
  manifest : Manifest
  notices : List SymlinkNotice
  collectInfos : List Blob

/-- The paths that a batch claims, in the order in which the claims are written. -/
def Materialized.paths (m : Materialized Blob) : List (String × PathKind) :=
  m.manifest.entries.map (fun e => (e.relpath, .file)) ++
    (m.notices.map (fun e => (e.relpath, .symlinkNotice)) ++
      m.manifest.emptyDirRelpaths.map (fun p => (p, .emptyDir)))

variable (root : String)

/-- `filter_path_claimed_batch_locked_tx`. -/
def filterPathClaimedBatch (kind : BatchKind) (incoming : Manifest)
    (collectInfos : List Blob) : Except String (Option (Materialized Blob)) := do
  let notices ← decodeSymlinkNotices collectInfos
  let keptEntries ← filterClaimed rows root kind .file ManifestEntry.relpath incoming.entries
  let keptNotices ← filterClaimed rows root kind .symlinkNotice SymlinkNotice.relpath notices
  let keptDirs ← filterClaimed rows root kind .emptyDir id incoming.emptyDirRelpaths
  if keptEntries = [] ∧ keptNotices = [] ∧ keptDirs = [] then return none
  else return some ⟨⟨keptEntries, keptDirs⟩, keptNotices, buildSymlinkCollectInfos keptNotices⟩

/-- `validate_no_coverage_overlap_for_full_dir_batch_locked_tx`, with what is stored then. -/
def validateNoCoverageOverlapForFullDirBatch (incoming : Manifest)
    (collectInfos : List Blob) : Except String (Materialized Blob) := do
  let notices ← decodeSymlinkNotices collectInfos
  validateUnclaimed rows root .file (incoming.entries.map ManifestEntry.relpath)
  validateUnclaimed rows root .symlinkNotice (notices.map SymlinkNotice.relpath)
  validateUnclaimed rows root .emptyDir incoming.emptyDirRelpaths
  return ⟨incoming, notices, collectInfos⟩

/-- What is stored of a new batch, if anything. -/
def materialize (batch : BatchWire Blob) (incoming : Manifest) :
    Except String (Option (Materialized Blob)) :=
  match batch.batchKind with
  | .directFilesOnly =>
    filterPathClaimedBatch rows root .directFilesOnly incoming batch.collectInfos
  | .subtreeSlice => filterPathClaimedBatch rows root .subtreeSlice incoming batch.collectInfos
  | .fullDir =>
    some <$> validateNoCoverageOverlapForFullDirBatch rows root incoming batch.collectInfos

/-- `insert_coverage_claims_locked_tx`. -/
def insertCoverageClaims (claims : Table String CoverageClaim) (batchId root : String)
    (kind : BatchKind) (paths : List (String × PathKind)) : Table String CoverageClaim :=
  paths.foldl (fun t p => t.insert p.1 ⟨p.2, batchId, root, kind⟩) claims

/-- The rows of a new batch. -/
def storeBatch (batch : BatchWire Blob) (m : Materialized Blob) : Rows Blob :=
  let record : BatchRecord :=
    { rootRelpath := root
      batchKind := batch.batchKind
      state := .ready
      assignedSrcExporterId := ""
      assignedDstExporterId := ""
      ownerWorkerId := ""
      ownerWorkerTaskId := ""
      leaseExpireUnixMs := 0
      manifest := m.manifest
      generation := batch.generation
      lastCountedScanEpoch := rows.job.scanEpoch }
  { rows with
    job := rows.job.adjustBatchStateCount .ready 1
    batches := rows.batches.insert batch.batchId record
    batchEq := rows.batchEq.insert (batchEqKey root batch) batch.batchId
    batchStates := rows.batchStates.insert (.ready, batch.batchId) ()
    collectInfos := m.collectInfos.foldl
      (fun t blob => t.insert batch.batchId ⟨blob, false⟩) rows.collectInfos
    coverageClaims := insertCoverageClaims rows.coverageClaims batch.batchId root batch.batchKind
      m.paths }

/-- A batch whose equivalence key is not stored. -/
def insertBatch (incoming : Manifest) (root : String) :
    Except String ((ℤ × ℤ × ℤ) × Rows Blob) := do
  match ← materialize rows root batch incoming with
  | none => return ((0, 0, 0), rows)
  | some m =>
    m.manifest.validate
    return (transferManifestStats m.manifest, storeBatch rows root batch m)

/-- `insert_or_reuse_batch_locked_tx`. -/
def insertOrReuseBatch : Except String ((ℤ × ℤ × ℤ) × Rows Blob) := do
  let incoming ← decodeTransferManifestBlob batch.manifest
  let root ← normalizeTransferRootRelpath batch.rootRelpath
  match rows.batchEq.lookup (batchEqKey root batch) with
  | some existingId => reuseBatch rows batch incoming root existingId
  | none => insertBatch rows batch incoming root

/-! ## Applications -/

/-- The discovered totals with one batch more. -/
def JobRecord.discover (job : JobRecord) (stats : ℤ × ℤ × ℤ) : JobRecord :=
  { job with
    scanDiscoveredBatchCount := saturatingAddI64 job.scanDiscoveredBatchCount (max stats.1 0)
    scanDiscoveredFileCount := saturatingAddI64 job.scanDiscoveredFileCount (max stats.2.1 0)
    scanDiscoveredBytes := saturatingAddI64 job.scanDiscoveredBytes (max stats.2.2 0) }

/-- A batch of a result, with the totals of the job. -/
def applyBatch : Except String (Rows Blob) := do
  let (stats, rows') ← insertOrReuseBatch rows batch
  return { rows' with job := rows'.job.discover stats }

variable (result : ScanResult Blob)

/-- `apply_transfer_scan_batches_locked_tx`. -/
def applyTransferScanBatches : Except String (Rows Blob) :=
  result.batches.foldlM applyBatch { rows with job := { rows.job with lastError := "" } }

/-- `apply_transfer_scan_append`. -/
def applyTransferScanAppend : Except String (Rows Blob) :=
  if rows.job.state = .stopping ∨ rows.job.state = .cancelled then .ok rows
  else if rows.job.state ≠ .running then
    .error s!"scan append rejected for missing running job: job_id={rows.job.jobId}"
  else if rows.job.scanEpoch ≠ result.scanEpoch then
    .error <| s!"scan append rejected for stale scan epoch: job_id={rows.job.jobId} " ++
      s!"result_epoch={result.scanEpoch} current_epoch={rows.job.scanEpoch}"
  else applyTransferScanBatches rows result

/-- Whether the result hands its own unit on, so that its root is not completely listed. -/
def ScanResult.rootListingIncomplete (root : String) : Bool :=
  result.childScanUnits.any fun child =>
    child.scanUnitId = result.scanUnitId ∧ child.rootRelpath = root ∧
      child.generation = result.generation

/-- `apply_transfer_scan_result`. -/
def applyTransferScanResult : Except String (Rows Blob) :=
  if rows.job.state = .stopping ∨ rows.job.state = .cancelled then .ok rows
  else if rows.job.state ≠ .running then
    .error s!"scan result rejected for missing running job: job_id={rows.job.jobId}"
  else if rows.job.scanEpoch ≠ result.scanEpoch then
    .error <| s!"scan result rejected for stale scan epoch: job_id={rows.job.jobId} " ++
      s!"result_epoch={result.scanEpoch} current_epoch={rows.job.scanEpoch}"
  else do
    let root ← normalizeTransferRootRelpath result.rootRelpath
    let rows' ← applyTransferScanBatches rows result
    if result.rootListingIncomplete root then return rows'
    else return { rows' with directFilesComplete := rows'.directFilesComplete.insert root () }

/-- `begin_transfer_scan_epoch`. -/
def beginTransferScanEpoch : Except String (Rows Blob) :=
  if rows.job.state ≠ .running then
    .error s!"no running transfer job found: job_id={rows.job.jobId}"
  else
    .ok { rows with
      job := { rows.job with
        scanEpoch := rows.job.scanEpoch + 1
        scanFinished := false
        scanDiscoveredBatchCount := 0
        scanDiscoveredFileCount := 0
        scanDiscoveredBytes := 0
        lastError := "" } }

end Fluxon.TransferJob
