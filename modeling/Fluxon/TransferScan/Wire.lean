import Mathlib.Data.Int.Notation
import Mathlib.Data.Nat.Notation
import Mathlib.Data.String.Basic
import Mathlib.Order.Basic

/-!
# Messages of a transfer scan

The master cuts the source tree of a transfer job into scan units, hands each one as an assignment
to a source agent, and gets back events that carry batches of work and new child units. The types
here are those of the wire; a manifest stands for the blob that encodes it.

A relative path is the list of its components, and `.` is the empty list. `Relpath.render` is the
string of the source, by which paths are ordered.
-/

namespace Fluxon.TransferScan

/-- A path below the source root, by its components. -/
abbrev Relpath := List String

/-- The path as the string that is sent and compared. -/
def Relpath.render : Relpath → String
  | [] => "."
  | p => "/".intercalate p

/-- `candidate.starts_with("{root}/")`, where every path other than `.` itself is below `.`. -/
def Relpath.strictlyBelow (root candidate : Relpath) : Bool :=
  root.isPrefixOf candidate && candidate ≠ root

inductive BatchKind
  | fullDir
  | subtreeSlice
  | directFilesOnly
  deriving DecidableEq, Repr

def BatchKind.asDbStr : BatchKind → String
  | .fullDir => "full_dir"
  | .subtreeSlice => "subtree_slice"
  | .directFilesOnly => "direct_files_only"

inductive ScanMode
  | fullTree
  | subtreeStreaming
  | rootDirectFanoutOnly
  | directoryDirectFanoutOnly
  deriving DecidableEq, Repr

/-- A regular file with its size. -/
structure FrontierEntry where
  relpath : Relpath
  size : ℤ
  deriving DecidableEq, Repr

structure SymlinkNotice where
  relpath : Relpath
  linkTarget : String
  deriving DecidableEq, Repr

structure Manifest where
  entries : List FrontierEntry
  emptyDirRelpaths : List Relpath
  deriving DecidableEq, Repr

structure ScanBatch where
  batchId : String
  rootRelpath : Relpath
  batchKind : BatchKind
  manifest : Manifest
  /-- The entries of the symlink notice among the collect infos. -/
  symlinkNotices : List SymlinkNotice
  generation : ℤ
  deriving DecidableEq, Repr

structure Disposition where
  rootRelpath : Relpath
  generation : ℤ
  batchKind : BatchKind
  deriving DecidableEq, Repr

structure ScanChildUnit where
  scanUnitId : String
  rootRelpath : Relpath
  generation : ℤ
  scanMode : ScanMode
  deriving DecidableEq, Repr

inductive SkipEntryKind
  | dir
  | file
  deriving DecidableEq, Repr

structure SkipEntry where
  kind : SkipEntryKind
  relpath : Relpath
  deriving DecidableEq, Repr

/-- What an agent is to scan. -/
structure ScanAssignment where
  jobId : String
  scanEpoch : ℤ
  scanUnitId : String
  scanTaskId : String
  rootRelpath : Relpath
  generation : ℤ
  scanMode : ScanMode
  srcExporterId : String
  batchReadyBytes : ℤ
  leaseExpireUnixMs : ℤ
  knownDispositions : List Disposition
  liveChildScanRoots : List Relpath
  skipEntries : List SkipEntry
  deriving DecidableEq, Repr

/-- What it has found. -/
structure ScanResult where
  jobId : String
  scanEpoch : ℤ
  scanUnitId : String
  scanTaskId : String
  rootRelpath : Relpath
  generation : ℤ
  directFilesOnlyBatches : List ScanBatch
  childScanUnits : List ScanChildUnit
  fullDirBatches : List ScanBatch
  finished : Bool
  deriving DecidableEq, Repr

/-- What an event reports. -/
inductive ScanEventKind
  | started
  | append
  | finished
  | failed
  deriving DecidableEq, Repr

/-- An event of a scan task. Agents build the events that start and fail a task without work. -/
structure ScanEvent where
  jobId : String
  scanEpoch : ℤ
  scanUnitId : String
  scanTaskId : String
  rootRelpath : Relpath
  generation : ℤ
  eventSeqNo : ℤ
  eventKind : ScanEventKind
  directFilesOnlyBatches : List ScanBatch
  childScanUnits : List ScanChildUnit
  fullDirBatches : List ScanBatch
  errorDetail : String
  workFree : eventKind = .started ∨ eventKind = .failed →
    directFilesOnlyBatches = [] ∧ childScanUnits = [] ∧ fullDirBatches = []
  deriving DecidableEq

structure ScanEventAck where
  accepted : Bool
  continueRunning : Bool
  leaseExpireUnixMs : ℤ
  deriving DecidableEq, Repr

namespace ScanEventAck

/-- `continue_running`: the agent goes on, until a new lease ends. -/
def continueRunningUntil (accepted : Bool) (leaseExpireUnixMs : ℤ) : ScanEventAck :=
  ⟨accepted, true, leaseExpireUnixMs⟩

/-- `stop`: the agent stops. -/
def stop (accepted : Bool) : ScanEventAck := ⟨accepted, false, 0⟩

end ScanEventAck

/-- `transfer_scan_event_result_view`. -/
def ScanEvent.resultView (event : ScanEvent) : ScanResult where
  jobId := event.jobId
  scanEpoch := event.scanEpoch
  scanUnitId := event.scanUnitId
  scanTaskId := event.scanTaskId
  rootRelpath := event.rootRelpath
  generation := event.generation
  directFilesOnlyBatches := event.directFilesOnlyBatches
  childScanUnits := event.childScanUnits
  fullDirBatches := event.fullDirBatches
  finished := event.eventKind = .finished

end Fluxon.TransferScan
