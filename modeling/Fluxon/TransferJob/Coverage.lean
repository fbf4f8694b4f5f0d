import Fluxon.Foundations.Run
import Fluxon.TransferJob.ScanApply

/-!
# Coverage claims

Every path that a stored batch contains is claimed for that batch, and every claim names a stored
batch that contains its path: `Rows.Covered`. So no path belongs to two stored batches of a job.

Batch ids carry this. A batch row is written under its batch id whatever was stored there, while a
known batch is found by its root and kind: an id that comes back with another root or kind replaces
the batch and leaves the claims of the old one behind (`reused_id_breaks_coverage`). Where each id
keeps to one root and kind, the rows are covered in every state (`coverage_disjoint`).
-/

namespace Fluxon.TransferJob

open List CollectInfoRecord BatchRecord AList Rows

open TransferScan (BatchKind)

variable {Blob : Type} [DecidableEq Blob] [NoticeCodec Blob]

/-! ## Runs -/

/-- What the remaining methods of the store keep of the rows of a job: they move batches between
states and owners, mark collect infos as materialized, change the counters and end the job. -/
structure Keeps (rows rows' : Rows Blob) : Prop where
  scanEpoch : rows'.job.scanEpoch = rows.job.scanEpoch
  running : rows'.job.state = .running →
    rows.job.state = .running ∧ rows'.job.lastError = rows.job.lastError
  discovered : rows'.job.scanDiscoveredBatchCount = rows.job.scanDiscoveredBatchCount ∧
    rows'.job.scanDiscoveredFileCount = rows.job.scanDiscoveredFileCount ∧
    rows'.job.scanDiscoveredBytes = rows.job.scanDiscoveredBytes
  batches : ∀ id, (rows'.batches.lookup id).map
      (fun r => (r.rootRelpath, r.batchKind, r.manifest, r.lastCountedScanEpoch)) =
    (rows.batches.lookup id).map
      fun r => (r.rootRelpath, r.batchKind, r.manifest, r.lastCountedScanEpoch)
  batchEq : rows'.batchEq = rows.batchEq
  collectInfos : ∀ id, (rows'.collectInfos.lookup id).map collectBlob =
    (rows.collectInfos.lookup id).map collectBlob
  coverageClaims : rows'.coverageClaims = rows.coverageClaims
  directFilesComplete : rows'.directFilesComplete = rows.directFilesComplete

/-- The methods of the store that succeed, the scan methods by name. -/
inductive Event (Blob : Type)
  | scanAppend (result : ScanResult Blob)
  | scanResult (result : ScanResult Blob)
  | beginEpoch
  | other

/-- The batches that a call brings. -/
def Event.batches : Event Blob → List (BatchWire Blob)
  | .scanAppend result => result.batches
  | .scanResult result => result.batches
  | .beginEpoch => []
  | .other => []

inductive Step : Rows Blob → Event Blob → Rows Blob → Prop
  | scanAppend {rows rows' : Rows Blob} {result : ScanResult Blob}
      (h : applyTransferScanAppend rows result = .ok rows') : Step rows (.scanAppend result) rows'
  | scanResult {rows rows' : Rows Blob} {result : ScanResult Blob}
      (h : applyTransferScanResult rows result = .ok rows') : Step rows (.scanResult result) rows'
  | beginEpoch {rows rows' : Rows Blob} (h : beginTransferScanEpoch rows = .ok rows') :
      Step rows .beginEpoch rows'
  | other {rows rows' : Rows Blob} (h : Keeps rows rows') : Step rows .other rows'

/-! ## Covered rows -/

/-- The notices in the collect info of a stored batch. -/
def Rows.storedNotices (rows : Rows Blob) (batchId : String) : List SymlinkNotice :=
  match rows.collectInfos.lookup batchId with
  | none => []
  | some info => (NoticeCodec.decode info.collectBlob).toOption.getD []

/-- The files, notices and empty directories of a stored batch. -/
def Rows.storedPaths (rows : Rows Blob) (batchId : String) (record : BatchRecord) :
    List (String × PathKind) :=
  (⟨record.manifest, rows.storedNotices batchId, []⟩ : Materialized Blob).paths

/-- Claims and the content of stored batches agree. -/
structure Rows.Covered (rows : Rows Blob) : Prop where
  claim_stored : ∀ {relpath claim}, rows.coverageClaims.lookup relpath = some claim →
    ∃ record, rows.batches.lookup claim.batchId = some record ∧
      (relpath, claim.pathKind) ∈ rows.storedPaths claim.batchId record
  stored_claimed : ∀ {batchId record}, rows.batches.lookup batchId = some record →
    ∀ {relpath pathKind}, (relpath, pathKind) ∈ rows.storedPaths batchId record →
      ∃ claim, rows.coverageClaims.lookup relpath = some claim ∧ claim.batchId = batchId

variable {rows rows' : Rows Blob} {relpath root batchId : String} {kind : BatchKind}
  {pathKind : PathKind} {relpaths : List String} {m : Materialized Blob} {incoming : Manifest}
  {batch : BatchWire Blob} {stats : ℤ × ℤ × ℤ} {r r' : BatchRecord}
  {use : String → String × BatchKind} {P : BatchWire Blob → Prop} {I : Rows Blob → Prop}

theorem Rows.Covered.unique (h : rows.Covered) {id₁ id₂ : String} {r₁ r₂ : BatchRecord}
    {k₁ k₂ : PathKind} (hr₁ : rows.batches.lookup id₁ = some r₁)
    (hr₂ : rows.batches.lookup id₂ = some r₂) (h₁ : (relpath, k₁) ∈ rows.storedPaths id₁ r₁)
    (h₂ : (relpath, k₂) ∈ rows.storedPaths id₂ r₂) : id₁ = id₂ := by
  obtain ⟨c₁, hc₁, rfl⟩ := h.stored_claimed hr₁ h₁
  obtain ⟨c₂, hc₂, rfl⟩ := h.stored_claimed hr₂ h₂
  rw [hc₁] at hc₂
  cases hc₂
  rfl

/-- The equivalence key of a stored batch. -/
def eqKeyOf (root : String) (kind : BatchKind) (batchId : String) :
    String × BatchKind × Option String :=
  (root, kind,
    match kind with
    | .directFilesOnly => some batchId
    | .subtreeSlice => some batchId
    | .fullDir => none)

theorem batchEqKey_eq (root : String) (batch : BatchWire Blob) :
    batchEqKey root batch = eqKeyOf root batch.batchKind batch.batchId := rfl

/-- Every stored batch is found by its equivalence key, and has the root and kind that its id stands
for. -/
structure Rows.Keyed (use : String → String × BatchKind) (rows : Rows Blob) : Prop where
  use_eq : ∀ {batchId record}, rows.batches.lookup batchId = some record →
    use batchId = (record.rootRelpath, record.batchKind)
  eq_known : ∀ {batchId record}, rows.batches.lookup batchId = some record →
    (rows.batchEq.lookup (eqKeyOf record.rootRelpath record.batchKind batchId)).isSome
  stored_info : ∀ {batchId}, rows.batches.lookup batchId = none →
    rows.collectInfos.lookup batchId = none

/-- Covered rows with known batches. -/
structure Rows.Indexed (use : String → String × BatchKind) (rows : Rows Blob) : Prop
    extends rows.Covered, rows.Keyed use

/-! ## What an application does -/

theorem filterClaimed_spec {α : Type} {relpathOf : α → String} {as kept : List α}
    (h : filterClaimed rows root kind pathKind relpathOf as = .ok kept) :
    kept.Sublist as ∧ (∀ a ∈ kept, rows.coverageClaims.lookup (relpathOf a) = none) ∧
      ∀ a ∈ as, a ∈ kept ∨ ∃ claim, rows.coverageClaims.lookup (relpathOf a) = some claim ∧
        claim.pathKind = pathKind ∧ claim.batchKind = kind ∧ claim.batchRootRelpath = root := by
  induction as generalizing kept with
  | nil =>
    cases h
    simp
  | cons a as ih =>
    rw [filterClaimed] at h
    split at h
    · next hnone =>
      obtain ⟨rest, hrest, hkept⟩ := bind_eq_ok.1 h
      cases hkept
      obtain ⟨hsub, hfree, hall⟩ := ih hrest
      refine ⟨hsub.cons_cons a, ?_, ?_⟩
      · intro b hb
        rcases mem_cons.1 hb with rfl | hb
        · exact hnone
        · exact hfree b hb
      · intro b hb
        rcases mem_cons.1 hb with rfl | hb
        · exact .inl (by simp)
        · exact (hall b hb).imp (mem_cons_of_mem a) id
    · next claim hsome =>
      split at h
      · cases h
      · next hkind =>
        split at h
        · cases h
        · next hplace =>
          obtain ⟨hsub, hfree, hall⟩ := ih h
          push Not at hkind hplace
          refine ⟨hsub.cons a, hfree, ?_⟩
          intro b hb
          rcases mem_cons.1 hb with rfl | hb
          · exact .inr ⟨claim, hsome, hkind, hplace.1, hplace.2⟩
          · exact hall b hb

theorem validateUnclaimed_spec (h : validateUnclaimed rows root pathKind relpaths = .ok ()) :
    ∀ relpath ∈ relpaths, rows.coverageClaims.lookup relpath = none := by
  induction relpaths with
  | nil => simp
  | cons relpath relpaths ih =>
    rw [validateUnclaimed] at h
    split at h
    · cases h
    · next hnone =>
      intro p hp
      rcases mem_cons.1 hp with rfl | hp
      · exact hnone
      · exact ih h p hp

theorem mem_materialized_paths : (relpath, pathKind) ∈ m.paths ↔
      (pathKind = .file ∧ ∃ e ∈ m.manifest.entries, e.relpath = relpath) ∨
      (pathKind = .symlinkNotice ∧ ∃ e ∈ m.notices, e.relpath = relpath) ∨
      (pathKind = .emptyDir ∧ relpath ∈ m.manifest.emptyDirRelpaths) := by
  simp only [Materialized.paths, mem_append, mem_map, Prod.mk.injEq]
  grind

/-- What `materialize` stores: part of the incoming batch, with paths that nobody claims, and at
most one collect info, which holds its notices. -/
structure Fresh (rows : Rows Blob) (incoming : Manifest) (notices : List SymlinkNotice)
    (m : Materialized Blob) : Prop where
  sub : m.paths.Sublist (⟨incoming, notices, []⟩ : Materialized Blob).paths
  free : ∀ p ∈ m.paths, rows.coverageClaims.lookup p.1 = none
  info : (m.collectInfos = [] ∧ m.notices = []) ∨
    ∃ blob, m.collectInfos = [blob] ∧ NoticeCodec.decode blob = .ok m.notices

theorem filterPathClaimedBatch_spec {collectInfos : List Blob}
    (h : filterPathClaimedBatch rows root kind incoming collectInfos = .ok (some m)) :
    ∃ notices, decodeSymlinkNotices collectInfos = .ok notices ∧ Fresh rows incoming notices m := by
  obtain ⟨notices, hnotices, h⟩ := bind_eq_ok.1 h
  obtain ⟨entries, hentries, h⟩ := bind_eq_ok.1 h
  obtain ⟨keptNotices, hkept, h⟩ := bind_eq_ok.1 h
  obtain ⟨dirs, hdirs, h⟩ := bind_eq_ok.1 h
  obtain ⟨hsubE, hfreeE, -⟩ := filterClaimed_spec hentries
  obtain ⟨hsubN, hfreeN, -⟩ := filterClaimed_spec hkept
  obtain ⟨hsubD, hfreeD, -⟩ := filterClaimed_spec hdirs
  split at h
  · cases h
  cases h
  refine ⟨notices, hnotices, ?_, ?_, ?_⟩
  · exact (hsubE.map _).append ((hsubN.map _).append (hsubD.map _))
  · rintro ⟨relpath, pathKind⟩ hp
    rcases mem_materialized_paths.1 hp with ⟨-, e, he, rfl⟩ | ⟨-, e, he, rfl⟩ | ⟨-, hd⟩
    · exact hfreeE e he
    · exact hfreeN e he
    · exact hfreeD relpath hd
  · unfold buildSymlinkCollectInfos
    split
    · next hnil => exact .inl ⟨rfl, hnil⟩
    · exact .inr ⟨_, rfl, NoticeCodec.decode_encode _⟩

theorem validateNoCoverageOverlap_spec {collectInfos : List Blob} (hone : collectInfos.length ≤ 1)
    (h : validateNoCoverageOverlapForFullDirBatch rows root incoming collectInfos = .ok m) :
    ∃ notices, decodeSymlinkNotices collectInfos = .ok notices ∧ Fresh rows incoming notices m := by
  obtain ⟨notices, hnotices, h⟩ := bind_eq_ok.1 h
  obtain ⟨⟨⟩, hentries, h⟩ := bind_eq_ok.1 h
  obtain ⟨⟨⟩, hkept, h⟩ := bind_eq_ok.1 h
  obtain ⟨⟨⟩, hdirs, h⟩ := bind_eq_ok.1 h
  cases h
  refine ⟨notices, hnotices, List.Sublist.refl _, ?_, ?_⟩
  · rintro ⟨relpath, pathKind⟩ hp
    rcases mem_materialized_paths.1 hp with ⟨-, e, he, rfl⟩ | ⟨-, e, he, rfl⟩ | ⟨-, hd⟩
    · exact validateUnclaimed_spec hentries _ (mem_map_of_mem he)
    · exact validateUnclaimed_spec hkept _ (mem_map_of_mem he)
    · exact validateUnclaimed_spec hdirs _ hd
  · match collectInfos, hone with
    | [], _ =>
      cases hnotices
      exact .inl ⟨rfl, rfl⟩
    | [blob], _ =>
      obtain ⟨ns, hns, hrest⟩ := bind_eq_ok.1 hnotices
      cases hrest
      exact .inr ⟨blob, rfl, by simpa using hns⟩

theorem materialize_spec (hone : batch.batchKind = .fullDir → batch.collectInfos.length ≤ 1)
    (h : materialize rows root batch incoming = .ok (some m)) :
    ∃ notices, decodeSymlinkNotices batch.collectInfos = .ok notices ∧
      Fresh rows incoming notices m := by
  unfold materialize at h
  split at h
  · exact filterPathClaimedBatch_spec h
  · exact filterPathClaimedBatch_spec h
  · next hkind =>
    obtain ⟨m', hm, hsome⟩ := bind_eq_ok.1 ((map_eq_pure_bind some _).symm.trans h)
    cases hsome
    exact validateNoCoverageOverlap_spec (hone hkind) hm

/-- What a batch does to the rows, by the three ways of `insert_or_reuse_batch_locked_tx`. -/
inductive Inserts (rows : Rows Blob) (batch : BatchWire Blob) (root : String) :
    (ℤ × ℤ × ℤ) → Rows Blob → Prop
  | counted {existingId : String} {record : BatchRecord}
      (known : rows.batchEq.lookup (batchEqKey root batch) = some existingId)
      (stored : rows.batches.lookup existingId = some record)
      (same : validateEquivalentManifests rows.job.jobId existingId root batch.batchKind
        record.manifest batch.manifest = .ok ())
      (infos : verifyEquivalentBatchCollectInfos rows existingId batch.collectInfos = .ok ())
      (epoch : record.lastCountedScanEpoch = rows.job.scanEpoch) :
      Inserts rows batch root (0, 0, 0) rows
  | recounted {existingId : String} {record : BatchRecord}
      (known : rows.batchEq.lookup (batchEqKey root batch) = some existingId)
      (stored : rows.batches.lookup existingId = some record)
      (same : validateEquivalentManifests rows.job.jobId existingId root batch.batchKind
        record.manifest batch.manifest = .ok ())
      (infos : verifyEquivalentBatchCollectInfos rows existingId batch.collectInfos = .ok ()) :
      Inserts rows batch root (transferManifestStats batch.manifest)
        { rows with
          batches := rows.batches.insert existingId
            { record with lastCountedScanEpoch := rows.job.scanEpoch } }
  | dropped (new : rows.batchEq.lookup (batchEqKey root batch) = none)
      (nothing : materialize rows root batch batch.manifest = .ok none) :
      Inserts rows batch root (0, 0, 0) rows
  | stored {m : Materialized Blob}
      (new : rows.batchEq.lookup (batchEqKey root batch) = none)
      (content : materialize rows root batch batch.manifest = .ok (some m)) :
      Inserts rows batch root (transferManifestStats m.manifest) (storeBatch rows root batch m)

theorem decodeTransferManifestBlob_eq_ok {manifest m : Manifest}
    (h : decodeTransferManifestBlob manifest = .ok m) :
    m = manifest ∧ manifest.validate = .ok () := by
  unfold decodeTransferManifestBlob at h
  split at h
  · next hok => exact ⟨(Except.ok.inj h).symm, hok⟩
  · cases h

theorem insertOrReuseBatch_cases (h : insertOrReuseBatch rows batch = .ok (stats, rows')) :
    ∃ root, normalizeTransferRootRelpath batch.rootRelpath = .ok root ∧
      Inserts rows batch root stats rows' := by
  obtain ⟨incoming, hdecode, h⟩ := bind_eq_ok.1 h
  obtain ⟨rfl, -⟩ := decodeTransferManifestBlob_eq_ok hdecode
  obtain ⟨root, hroot, h⟩ := bind_eq_ok.1 h
  refine ⟨root, hroot, ?_⟩
  split at h
  · next existingId hknown =>
    unfold reuseBatch at h
    split at h
    · cases h
    · next record hstored =>
      obtain ⟨⟨⟩, hsame, h⟩ := bind_eq_ok.1 h
      obtain ⟨⟨⟩, hinfos, h⟩ := bind_eq_ok.1 h
      split at h
      · next hepoch =>
        cases h
        exact .counted hknown hstored hsame hinfos hepoch
      · cases h
        exact .recounted hknown hstored hsame hinfos
  · next hnew =>
    obtain ⟨content, hcontent, h⟩ := bind_eq_ok.1 h
    split at h
    · cases h
      exact .dropped hnew hcontent
    · obtain ⟨-, -, h⟩ := bind_eq_ok.1 h
      cases h
      exact .stored hnew hcontent

/-! ## Covered rows stay covered -/

variable {claims : Table String CoverageClaim} {paths : List (String × PathKind)}

theorem lookup_insertCoverageClaims_of_notMem (h : relpath ∉ paths.map Prod.fst) :
    (insertCoverageClaims claims batchId root kind paths).lookup relpath =
      claims.lookup relpath := by
  unfold insertCoverageClaims
  induction paths generalizing claims with
  | nil => rfl
  | cons p paths ih =>
    rw [map_cons, mem_cons, not_or] at h
    rw [foldl_cons, ih h.2, lookup_insert_ne h.1]

theorem lookup_insertCoverageClaims_of_mem (hdistinct : (paths.map Prod.fst).Nodup)
    (h : (relpath, pathKind) ∈ paths) :
    (insertCoverageClaims claims batchId root kind paths).lookup relpath =
      some ⟨pathKind, batchId, root, kind⟩ := by
  induction paths generalizing claims with
  | nil => simp at h
  | cons p paths ih =>
    rw [map_cons, nodup_cons] at hdistinct
    rcases mem_cons.1 h with rfl | h
    · exact (lookup_insertCoverageClaims_of_notMem hdistinct.1).trans (lookup_insert _)
    · exact ih hdistinct.2 h

theorem storedPaths_congr (hmanifest : r'.manifest = r.manifest)
    (hinfo : (rows'.collectInfos.lookup batchId).map collectBlob =
      (rows.collectInfos.lookup batchId).map collectBlob) :
    rows'.storedPaths batchId r' = rows.storedPaths batchId r := by
  have hnotices : rows'.storedNotices batchId = rows.storedNotices batchId := by
    unfold storedNotices
    cases h : rows.collectInfos.lookup batchId with
    | none =>
      rw [h, Option.map_none, Option.map_eq_none_iff] at hinfo
      rw [hinfo]
    | some info =>
      rw [h, Option.map_some, Option.map_eq_some_iff] at hinfo
      obtain ⟨info', h', hblob⟩ := hinfo
      rw [h']
      simp only [hblob]
  rw [storedPaths, storedPaths, hmanifest, hnotices]

/-- The collect infos after a batch with at most one of them is stored. -/
theorem lookup_storeBatch_collectInfos (h : batchId ≠ batch.batchId) :
    (storeBatch rows root batch m).collectInfos.lookup batchId =
      rows.collectInfos.lookup batchId := by
  have hfold : ∀ (infos : List Blob) (t : Table String (CollectInfoRecord Blob)),
      (infos.foldl (fun t blob => t.insert batch.batchId ⟨blob, false⟩) t).lookup batchId =
        t.lookup batchId := by
    intro infos
    induction infos with
    | nil => exact fun t => rfl
    | cons blob infos ih =>
      intro t
      rw [foldl_cons, ih, lookup_insert_ne h]
  exact hfold _ _

theorem storedNotices_storeBatch {notices : List SymlinkNotice} (hm : Fresh rows incoming notices m)
    (hnone : rows.collectInfos.lookup batch.batchId = none) :
    (storeBatch rows root batch m).storedNotices batch.batchId = m.notices := by
  unfold storedNotices storeBatch
  rcases hm.info with ⟨hinfos, hnotices⟩ | ⟨blob, hinfos, hdecode⟩
  · simp only [hinfos, foldl_nil, hnone, hnotices]
  · simp only [hinfos, foldl_cons, foldl_nil, lookup_insert, hdecode]
    rfl

/-- A new batch with distinct paths that nobody claims keeps the rows covered. -/
theorem Rows.Covered.store (h : rows.Covered) {notices : List SymlinkNotice}
    (hm : Fresh rows incoming notices m) (hdistinct : (m.paths.map Prod.fst).Nodup)
    (hnew : rows.batches.lookup batch.batchId = none)
    (hinfo : rows.collectInfos.lookup batch.batchId = none) :
    (storeBatch rows root batch m).Covered := by
  have hother : ∀ {batchId record}, batchId ≠ batch.batchId →
      (storeBatch rows root batch m).storedPaths batchId record =
        rows.storedPaths batchId record := by
    intro batchId record hne
    exact storedPaths_congr rfl (by rw [lookup_storeBatch_collectInfos hne])
  have hself : ∀ {record}, (storeBatch rows root batch m).batches.lookup batch.batchId =
      some record → (storeBatch rows root batch m).storedPaths batch.batchId record = m.paths := by
    intro record hr
    rw [storeBatch, lookup_insert] at hr
    cases hr
    rw [storedPaths, storedNotices_storeBatch hm hinfo]
    rfl
  constructor
  · intro relpath claim hclaim
    by_cases hmem : relpath ∈ m.paths.map Prod.fst
    · obtain ⟨⟨p, pathKind⟩, hp, rfl⟩ := mem_map.1 hmem
      rw [storeBatch, lookup_insertCoverageClaims_of_mem hdistinct hp] at hclaim
      cases hclaim
      refine ⟨_, lookup_insert _, ?_⟩
      rw [hself (lookup_insert _)]
      exact hp
    · rw [storeBatch, lookup_insertCoverageClaims_of_notMem hmem] at hclaim
      obtain ⟨record, hr, hpath⟩ := h.claim_stored hclaim
      have hne : claim.batchId ≠ batch.batchId := by
        intro heq
        rw [heq, hnew] at hr
        cases hr
      exact ⟨record, (lookup_insert_ne hne).trans hr, by rw [hother hne]; exact hpath⟩
  · intro batchId record hr relpath pathKind hpath
    by_cases hne : batchId = batch.batchId
    · subst hne
      rw [hself hr] at hpath
      exact ⟨_, lookup_insertCoverageClaims_of_mem hdistinct hpath, rfl⟩
    rw [hother hne] at hpath
    have hr' : rows.batches.lookup batchId = some record := (lookup_insert_ne hne).symm.trans hr
    obtain ⟨claim, hclaim, hid⟩ := h.stored_claimed hr' hpath
    refine ⟨claim, ?_, hid⟩
    have hfree : relpath ∉ m.paths.map Prod.fst := by
      intro hmem
      obtain ⟨p, hp, rfl⟩ := mem_map.1 hmem
      rw [hm.free p hp] at hclaim
      cases hclaim
    exact (lookup_insertCoverageClaims_of_notMem hfree).trans hclaim

/-- What coverage reads of a batch record. -/
def BatchRecord.content (record : BatchRecord) : String × BatchKind × Manifest :=
  (record.rootRelpath, record.batchKind, record.manifest)

/-- Rows with the same batches up to state and owner, and the same indexes, claims and blobs. -/
structure SameContent (rows rows' : Rows Blob) : Prop where
  batches : ∀ id, (rows'.batches.lookup id).map content = (rows.batches.lookup id).map content
  batchEq : rows'.batchEq = rows.batchEq
  collectInfos : ∀ id, (rows'.collectInfos.lookup id).map collectBlob =
    (rows.collectInfos.lookup id).map collectBlob
  coverageClaims : rows'.coverageClaims = rows.coverageClaims

theorem Keeps.sameContent (h : Keeps rows rows') : SameContent rows rows' := by
  refine ⟨?_, h.batchEq, h.collectInfos, h.coverageClaims⟩
  intro id
  have hid := congrArg (Option.map fun c : String × BatchKind × Manifest × ℤ =>
    (c.1, c.2.1, c.2.2.1)) (h.batches id)
  rw [Option.map_map, Option.map_map] at hid
  exact hid

/-- Counting a batch again changes no content. -/
theorem sameContent_recounted {existingId : String} {record : BatchRecord}
    (hstored : rows.batches.lookup existingId = some record) (epoch : ℤ) :
    SameContent rows { rows with
      batches := rows.batches.insert existingId
        { record with lastCountedScanEpoch := epoch } } :=
  ⟨Table.map_lookup_insert hstored rfl, rfl, fun _ => rfl, rfl⟩

theorem SameContent.back (h : SameContent rows rows') {id : String}
    (hr' : rows'.batches.lookup id = some r') :
    ∃ r, rows.batches.lookup id = some r ∧ r.content = r'.content := by
  have hid := h.batches id
  rw [hr', Option.map_some] at hid
  exact Option.map_eq_some_iff.1 hid.symm

theorem SameContent.forth (h : SameContent rows rows') {id : String}
    (hr : rows.batches.lookup id = some r) :
    ∃ r', rows'.batches.lookup id = some r' ∧ r'.content = r.content := by
  have hid := h.batches id
  rw [hr, Option.map_some] at hid
  exact Option.map_eq_some_iff.1 hid

theorem BatchRecord.manifest_of_content (h : r.content = r'.content) :
    r.manifest = r'.manifest := congrArg (fun c => c.2.2) h

theorem BatchRecord.place_of_content (h : r.content = r'.content) :
    (r.rootRelpath, r.batchKind) = (r'.rootRelpath, r'.batchKind) :=
  congrArg (fun c => (c.1, c.2.1)) h

theorem Rows.Covered.congr (h : rows.Covered) (hsame : SameContent rows rows') : rows'.Covered := by
  constructor
  · intro relpath claim hclaim
    rw [hsame.coverageClaims] at hclaim
    obtain ⟨r, hr, hpath⟩ := h.claim_stored hclaim
    obtain ⟨r', hr', hc⟩ := hsame.forth hr
    refine ⟨r', hr', ?_⟩
    rwa [storedPaths_congr (manifest_of_content hc) (hsame.collectInfos _)]
  · intro id r' hr' relpath pathKind hpath
    obtain ⟨r, hr, hc⟩ := hsame.back hr'
    rw [storedPaths_congr (manifest_of_content hc).symm (hsame.collectInfos _)] at hpath
    rw [hsame.coverageClaims]
    exact h.stored_claimed hr hpath

theorem Rows.Keyed.congr (h : rows.Keyed use) (hsame : SameContent rows rows') :
    rows'.Keyed use := by
  constructor
  · intro id r' hr'
    obtain ⟨r, hr, hc⟩ := hsame.back hr'
    rw [h.use_eq hr, place_of_content hc]
  · intro id r' hr'
    obtain ⟨r, hr, hc⟩ := hsame.back hr'
    have hplace := place_of_content hc
    rw [Prod.mk.injEq] at hplace
    rw [hsame.batchEq, ← hplace.1, ← hplace.2]
    exact h.eq_known hr
  · intro id hid
    have hnone : rows.batches.lookup id = none := by
      have hmap := hsame.batches id
      rwa [hid, Option.map_none, eq_comm, Option.map_eq_none_iff] at hmap
    have hinfo := hsame.collectInfos id
    rwa [h.stored_info hnone, Option.map_none, Option.map_eq_none_iff] at hinfo

theorem Rows.Indexed.congr (h : rows.Indexed use) (hsame : SameContent rows rows') :
    rows'.Indexed use :=
  ⟨h.toCovered.congr hsame, h.toKeyed.congr hsame⟩

/-- What is asked of the batches of a run: distinct paths, an id that stands for one root and kind,
and for a full directory at most one collect info. -/
structure BatchWire.WellUsed (use : String → String × BatchKind) (batch : BatchWire Blob) :
    Prop where
  distinct : ∀ notices, decodeSymlinkNotices batch.collectInfos = .ok notices →
    ((⟨batch.manifest, notices, []⟩ : Materialized Blob).paths.map Prod.fst).Nodup
  use_eq : ∀ root, normalizeTransferRootRelpath batch.rootRelpath = .ok root →
    use batch.batchId = (root, batch.batchKind)
  one_info : batch.batchKind = .fullDir → batch.collectInfos.length ≤ 1

section

variable (huse : use batch.batchId = (root, batch.batchKind))
include huse

/-- A batch that is inserted has an id that is not stored: a stored one is found by its key. -/
theorem Rows.Keyed.new_id (h : rows.Keyed use)
    (hnew : rows.batchEq.lookup (batchEqKey root batch) = none) :
    rows.batches.lookup batch.batchId = none := by
  cases hr : rows.batches.lookup batch.batchId with
  | none => rfl
  | some record =>
    have hplace := (h.use_eq hr).symm.trans huse
    rw [Prod.mk.injEq] at hplace
    have hknown := h.eq_known hr
    rw [hplace.1, hplace.2, ← batchEqKey_eq, hnew] at hknown
    cases hknown

theorem Rows.Keyed.store (h : rows.Keyed use) (m : Materialized Blob) :
    (storeBatch rows root batch m).Keyed use := by
  constructor
  · intro id record hr
    by_cases hne : id = batch.batchId
    · subst hne
      rw [storeBatch, lookup_insert] at hr
      cases hr
      exact huse
    · exact h.use_eq ((lookup_insert_ne hne).symm.trans hr)
  · intro id record hr
    show (lookup _ (rows.batchEq.insert _ _)).isSome = true
    rw [Table.lookup_insert_eq]
    split
    · rfl
    · next hkey =>
      by_cases hne : id = batch.batchId
      · subst hne
        rw [storeBatch, lookup_insert] at hr
        cases hr
        exact absurd (batchEqKey_eq root batch).symm hkey
      · exact h.eq_known ((lookup_insert_ne hne).symm.trans hr)
  · intro id hnone
    have hne : id ≠ batch.batchId := by
      intro heq
      rw [heq, storeBatch, lookup_insert] at hnone
      cases hnone
    rw [lookup_storeBatch_collectInfos hne]
    exact h.stored_info ((lookup_insert_ne hne).symm.trans hnone)

theorem Rows.Keyed.inserts (h : rows.Keyed use)
    (hins : Inserts rows batch root stats rows') : rows'.Keyed use := by
  cases hins with
  | counted | dropped => exact h
  | recounted known stored => exact h.congr (sameContent_recounted stored _)
  | stored => exact h.store huse _

end

theorem Rows.Indexed.inserts (h : rows.Indexed use) (hbatch : batch.WellUsed use)
    (hroot : normalizeTransferRootRelpath batch.rootRelpath = .ok root)
    (hins : Inserts rows batch root stats rows') : rows'.Indexed use := by
  have huse := hbatch.use_eq root hroot
  refine ⟨?_, h.toKeyed.inserts huse hins⟩
  cases hins with
  | counted | dropped => exact h.toCovered
  | recounted known stored => exact h.toCovered.congr (sameContent_recounted stored _)
  | stored new content =>
    obtain ⟨notices, hnotices, hm⟩ := materialize_spec hbatch.one_info content
    have hid := h.toKeyed.new_id huse new
    have hdistinct := (hbatch.distinct notices hnotices).sublist (hm.sub.map Prod.fst)
    exact h.toCovered.store hm hdistinct hid (h.stored_info hid)

/-! ## What every call keeps -/

theorem applyBatch_cases (h : applyBatch rows batch = .ok rows') :
    ∃ root stats rows₁, normalizeTransferRootRelpath batch.rootRelpath = .ok root ∧
      Inserts rows batch root stats rows₁ ∧
      rows' = { rows₁ with job := rows₁.job.discover stats } := by
  obtain ⟨⟨stats, rows₁⟩, hins, h⟩ := bind_eq_ok.1 h
  cases h
  obtain ⟨root, hroot, hcase⟩ := insertOrReuseBatch_cases hins
  exact ⟨root, stats, rows₁, hroot, hcase, rfl⟩

/-- A property of rows that every call keeps whose batches meet a condition: each batch keeps it,
and so do the changes of the job record around the batches, the marker of a listed directory, a new
epoch and the other methods. -/
structure Kept (P : BatchWire Blob → Prop) (I : Rows Blob → Prop) : Prop where
  batch : ∀ {rows rows' b}, P b → I rows → applyBatch rows b = .ok rows' → I rows'
  clear : ∀ {rows}, I rows → I { rows with job := { rows.job with lastError := "" } }
  listed : ∀ {rows} (root), I rows →
    I { rows with directFilesComplete := rows.directFilesComplete.insert root () }
  epoch : ∀ {rows rows'}, I rows → beginTransferScanEpoch rows = .ok rows' → I rows'
  keeps : ∀ {rows rows'}, I rows → Keeps rows rows' → I rows'

/-- What every batch keeps, all batches of a call keep. -/
theorem applyBatches_invariant
    (hI : ∀ {rows rows' b}, P b → I rows → applyBatch rows b = .ok rows' → I rows')
    {batches : List (BatchWire Blob)} (hbatches : ∀ b ∈ batches, P b) (h : I rows)
    (happly : batches.foldlM applyBatch rows = .ok rows') : I rows' := by
  induction batches generalizing rows with
  | nil =>
    cases happly
    exact h
  | cons b bs ih =>
    obtain ⟨rows₁, hb, hrest⟩ := bind_eq_ok.1 happly
    exact ih (fun b' hb' => hbatches b' (by simp [hb'])) (hI (hbatches b (by simp)) h hb) hrest

theorem Kept.batches (hI : Kept P I) {batches : List (BatchWire Blob)}
    (hbatches : ∀ b ∈ batches, P b) (h : I rows)
    (happly : batches.foldlM applyBatch rows = .ok rows') : I rows' :=
  applyBatches_invariant hI.batch hbatches h happly

/-- An append that succeeds is without effect on a job that ends, or applies its batches. -/
theorem applyTransferScanAppend_cases {result : ScanResult Blob}
    (h : applyTransferScanAppend rows result = .ok rows') :
    ((rows.job.state = .stopping ∨ rows.job.state = .cancelled) ∧ rows' = rows) ∨
      (rows.job.state = .running ∧ rows.job.scanEpoch = result.scanEpoch ∧
        applyTransferScanBatches rows result = .ok rows') := by
  revert h
  fun_cases applyTransferScanAppend rows result <;> intro h <;> try cases h
  · next hstate => exact .inl ⟨hstate, rfl⟩
  · next hrunning hepoch => exact .inr ⟨not_not.1 hrunning, not_not.1 hepoch, h⟩

theorem applyTransferScanResult_cases {result : ScanResult Blob}
    (h : applyTransferScanResult rows result = .ok rows') :
    ((rows.job.state = .stopping ∨ rows.job.state = .cancelled) ∧ rows' = rows) ∨
      ∃ root rows₁, rows.job.state = .running ∧ rows.job.scanEpoch = result.scanEpoch ∧
        normalizeTransferRootRelpath result.rootRelpath = .ok root ∧
        applyTransferScanBatches rows result = .ok rows₁ ∧
        rows' = if result.rootListingIncomplete root then rows₁ else
          { rows₁ with directFilesComplete := rows₁.directFilesComplete.insert root () } := by
  revert h
  fun_cases applyTransferScanResult rows result <;> intro h <;> try cases h
  · next hstate => exact .inl ⟨hstate, rfl⟩
  · next hrunning hepoch =>
    obtain ⟨root, hroot, h⟩ := bind_eq_ok.1 h
    obtain ⟨rows₁, happly, h⟩ := bind_eq_ok.1 h
    refine .inr ⟨root, rows₁, not_not.1 hrunning, not_not.1 hepoch, hroot, happly, ?_⟩
    split at h <;> cases h <;> simp_all

theorem Kept.step (hI : Kept P I) {ev : Event Blob} (hev : ∀ b ∈ ev.batches, P b) (h : I rows)
    (hstep : Step rows ev rows') : I rows' := by
  cases hstep with
  | scanAppend happly =>
    rcases applyTransferScanAppend_cases happly with ⟨-, rfl⟩ | ⟨-, -, hbatches⟩
    · exact h
    · exact hI.batches hev (hI.clear h) hbatches
  | scanResult happly =>
    rcases applyTransferScanResult_cases happly with ⟨-, rfl⟩ |
      ⟨root, rows₁, -, -, -, hbatches, rfl⟩
    · exact h
    · have h₁ := hI.batches hev (hI.clear h) hbatches
      split
      · exact h₁
      · exact hI.listed root h₁
  | beginEpoch hbegin => exact hI.epoch h hbegin
  | other hkeeps => exact hI.keeps h hkeeps

theorem Kept.run (hI : Kept P I) {events : List (Event Blob)} (hrun : Run Step rows events rows')
    (hev : ∀ ev ∈ events, ∀ b ∈ ev.batches, P b) (h : I rows) : I rows' := by
  refine Run.invariant ?_ (hrun.guarded hev) h
  intro rows ev rows' h hstep
  exact hI.step hstep.1 h hstep.2

theorem beginTransferScanEpoch_cases (h : beginTransferScanEpoch rows = .ok rows') :
    rows.job.state = .running ∧ rows' = { rows with
      job := { rows.job with
        scanEpoch := rows.job.scanEpoch + 1
        scanFinished := false
        scanDiscoveredBatchCount := 0
        scanDiscoveredFileCount := 0
        scanDiscoveredBytes := 0
        lastError := "" } } := by
  unfold beginTransferScanEpoch at h
  split at h
  · cases h
  · next hrunning =>
    cases h
    exact ⟨not_not.1 hrunning, rfl⟩

/-- A property of the content alone is kept once every batch keeps it. -/
theorem Kept.of_content (hcongr : ∀ {rows rows'}, I rows → SameContent rows rows' → I rows')
    (hinserts : ∀ {rows rows' b root stats}, P b → I rows →
      normalizeTransferRootRelpath b.rootRelpath = .ok root → Inserts rows b root stats rows' →
      I rows') : Kept P I where
  batch := by
    intro rows rows' b hb h happly
    obtain ⟨root, stats, rows₁, hroot, hins, rfl⟩ := applyBatch_cases happly
    exact hcongr (hinserts hb h hroot hins) ⟨fun _ => rfl, rfl, fun _ => rfl, rfl⟩
  clear h := hcongr h ⟨fun _ => rfl, rfl, fun _ => rfl, rfl⟩
  listed _ h := hcongr h ⟨fun _ => rfl, rfl, fun _ => rfl, rfl⟩
  epoch := by
    intro rows rows' h hbegin
    obtain ⟨-, rfl⟩ := beginTransferScanEpoch_cases hbegin
    exact hcongr h ⟨fun _ => rfl, rfl, fun _ => rfl, rfl⟩
  keeps h hkeeps := hcongr h hkeeps.sameContent

theorem kept_indexed (use : String → String × BatchKind) :
    Kept (fun b : BatchWire Blob => b.WellUsed use) (Rows.Indexed use) :=
  .of_content Rows.Indexed.congr fun hb h => h.inserts hb

theorem keyed_created (use : String → String × BatchKind) (jobId : String) :
    (created jobId : Rows Blob).Keyed use := by
  constructor
  · intro batchId record h
    cases h
  · intro batchId record h
    cases h
  · intro batchId _
    rfl

theorem covered_created (jobId : String) : (created jobId : Rows Blob).Covered := by
  constructor
  · intro relpath claim h
    cases h
  · intro batchId record h
    cases h

/-- **Coverage is disjoint.** In every run whose manifests have distinct paths, whose batch ids
keep to one root and kind and whose full-directory batches have at most one collect info, every
claim names a stored batch that contains its path, every path of a stored batch is claimed for it,
and no path belongs to two stored batches. -/
theorem coverage_disjoint {jobId : String} (use : String → String × BatchKind)
    {events : List (Event Blob)} {rows : Rows Blob} (hrun : Run Step (created jobId) events rows)
    (hused : ∀ ev ∈ events, ∀ b ∈ ev.batches, b.WellUsed use) :
    rows.Covered ∧ ∀ id₁ id₂ r₁ r₂ relpath k₁ k₂, rows.batches.lookup id₁ = some r₁ →
      rows.batches.lookup id₂ = some r₂ → (relpath, k₁) ∈ rows.storedPaths id₁ r₁ →
      (relpath, k₂) ∈ rows.storedPaths id₂ r₂ → id₁ = id₂ := by
  have hindexed : rows.Indexed use :=
    (kept_indexed use).run hrun hused ⟨covered_created jobId, keyed_created use jobId⟩
  refine ⟨hindexed.toCovered, ?_⟩
  intro id₁ id₂ r₁ r₂ relpath k₁ k₂ hr₁ hr₂ h₁ h₂
  exact hindexed.toCovered.unique hr₁ hr₂ h₁ h₂

/-! ## Two runs -/

/-- Blobs that are the lists of their notices. -/
instance : NoticeCodec (List SymlinkNotice) where
  decode := .ok
  encode := id
  decode_encode _ := rfl

theorem run_of_appends {results : List (ScanResult Blob)}
    (h : results.foldlM applyTransferScanAppend rows = .ok rows') :
    Run Step rows (results.map .scanAppend) rows' := by
  induction results generalizing rows with
  | nil =>
    cases h
    exact .nil _
  | cons result results ih =>
    rw [foldlM_cons] at h
    obtain ⟨rows₁, happly, hrest⟩ := bind_eq_ok.1 h
    exact .cons (.scanAppend happly) (ih hrest)

/-- An append of one batch of files, each of one byte, right in a directory. -/
def appendFiles (batchId root : String) (relpaths : List String) :
    ScanResult (List SymlinkNotice) where
  scanEpoch := 1
  scanUnitId := "unit"
  rootRelpath := root
  generation := 1
  directFilesOnlyBatches :=
    [⟨batchId, root, .directFilesOnly, ⟨relpaths.map (⟨·, 1⟩), []⟩, [], 1⟩]
  childScanUnits := []
  fullDirBatches := []

theorem appendFiles_distinct (h : relpaths.Nodup) :
    ∀ b ∈ (appendFiles batchId root relpaths).batches, ∀ notices,
      decodeSymlinkNotices b.collectInfos = .ok notices →
        ((⟨b.manifest, notices, []⟩ : Materialized (List SymlinkNotice)).paths.map
          Prod.fst).Nodup := by
  intro b hb notices hnotices
  rw [ScanResult.batches, appendFiles, append_nil, mem_singleton] at hb
  subst hb
  cases hnotices
  simpa [Materialized.paths, Function.comp_def] using h

/-- A claim whose batch does not contain its path. -/
def Rows.misplaced (rows : Rows Blob) (relpath : String) : Bool :=
  match rows.coverageClaims.lookup relpath with
  | none => false
  | some claim =>
    match rows.batches.lookup claim.batchId with
    | none => true
    | some record => (relpath, claim.pathKind) ∉ rows.storedPaths claim.batchId record

theorem Rows.not_covered_of_misplaced (h : rows.misplaced relpath = true) : ¬ rows.Covered := by
  intro hcovered
  unfold misplaced at h
  split at h
  · cases h
  · next claim hclaim =>
    obtain ⟨record, hr, hpath⟩ := hcovered.claim_stored hclaim
    rw [hr] at h
    exact of_decide_eq_true h hpath

/-- **An id that comes back breaks the coverage.** The batch `b` of directory `x` is replaced by
the batch `b` of directory `y`, and the claim of `x/p` still names it. -/
theorem reused_id_breaks_coverage : ∃ (events : List (Event (List SymlinkNotice)))
    (rows : Rows (List SymlinkNotice)), Run Step (created "job") events rows ∧
      (∀ ev ∈ events, ∀ b ∈ ev.batches, ∀ notices,
        decodeSymlinkNotices b.collectInfos = .ok notices →
          ((⟨b.manifest, notices, []⟩ : Materialized (List SymlinkNotice)).paths.map
            Prod.fst).Nodup) ∧ ¬ rows.Covered := by
  have hlast : (([appendFiles "b" "x" ["x/p"], appendFiles "b" "y" ["y/q"]].foldlM
      applyTransferScanAppend (created "job")).toOption.any
        fun rows => rows.misplaced "x/p") = true := by
    decide +kernel
  obtain ⟨rows, hrows, hmisplaced⟩ := (Option.any_eq_true _ _).1 hlast
  refine ⟨_, rows, run_of_appends (toOption_eq_some.1 hrows), ?_,
    not_covered_of_misplaced hmisplaced⟩
  intro ev hev
  simp only [map_cons, map_nil, mem_cons, not_mem_nil, or_false] at hev
  rcases hev with rfl | rfl
  · exact appendFiles_distinct (nodup_singleton _)
  · exact appendFiles_distinct (nodup_singleton _)

/-- A batch of a whole directory with two symlink-notice infos. -/
def appendLinks : ScanResult (List SymlinkNotice) :=
  { appendFiles "b" "x" [] with
    directFilesOnlyBatches := []
    fullDirBatches := [⟨"b", "x", .fullDir, ⟨[], []⟩, [[⟨"x/l", "t"⟩], [⟨"x/m", "t"⟩]], 1⟩] }

/-- **A second collect info breaks the coverage.** Only the last one is stored, and the links of
both are claimed. -/
theorem second_info_breaks_coverage : ∃ rows : Rows (List SymlinkNotice),
    Run Step (created "job") [.scanAppend appendLinks] rows ∧ ¬ rows.Covered := by
  have hlast : ((applyTransferScanAppend (created "job") appendLinks).toOption.any
      fun rows => rows.misplaced "x/l") = true := by
    decide +kernel
  obtain ⟨rows, hrows, hmisplaced⟩ := (Option.any_eq_true _ _).1 hlast
  exact ⟨rows, .single (.scanAppend (toOption_eq_some.1 hrows)),
    not_covered_of_misplaced hmisplaced⟩

/-- The ids `a` and `b` of the directory `x`. -/
def idsOfDirectory : String → String × BatchKind := fun _ => ("x", .directFilesOnly)

theorem appendFiles_wellUsed (h : relpaths.Nodup) :
    ∀ b ∈ (appendFiles batchId "x" relpaths).batches, b.WellUsed idsOfDirectory := by
  intro b hb
  have hdistinct := appendFiles_distinct h b hb
  rw [ScanResult.batches, appendFiles, append_nil, mem_singleton] at hb
  subst hb
  refine ⟨hdistinct, ?_, fun hkind => nomatch hkind⟩
  intro root hroot
  have hx : normalizeTransferRootRelpath "x" = .ok "x" := by decide +kernel
  cases hx.symm.trans hroot
  rfl

/-- Two batches of one directory overlap: the second keeps the path that is left. -/
theorem coverage_disjoint_overlap : ∃ rows : Rows (List SymlinkNotice),
    Run Step (created "job") ([appendFiles "a" "x" ["x/p", "x/q"],
      appendFiles "b" "x" ["x/q", "x/r"]].map .scanAppend) rows ∧
    (rows.coverageClaims.lookup "x/q").map CoverageClaim.batchId = some "a" ∧
    (rows.coverageClaims.lookup "x/r").map CoverageClaim.batchId = some "b" ∧ rows.Covered := by
  have hlast : (([appendFiles "a" "x" ["x/p", "x/q"],
      appendFiles "b" "x" ["x/q", "x/r"]].foldlM applyTransferScanAppend
        (created "job")).toOption.any fun rows => decide
          ((rows.coverageClaims.lookup "x/q").map CoverageClaim.batchId = some "a" ∧
            (rows.coverageClaims.lookup "x/r").map CoverageClaim.batchId = some "b")) = true := by
    decide +kernel
  obtain ⟨rows, hrows, hclaims⟩ := (Option.any_eq_true _ _).1 hlast
  obtain ⟨hq, hr⟩ := of_decide_eq_true hclaims
  have hrun := run_of_appends (toOption_eq_some.1 hrows)
  refine ⟨rows, hrun, hq, hr, (coverage_disjoint idsOfDirectory hrun ?_).1⟩
  intro ev hev
  simp only [map_cons, map_nil, mem_cons, not_mem_nil, or_false] at hev
  rcases hev with rfl | rfl
  · exact appendFiles_wellUsed (by decide)
  · exact appendFiles_wellUsed (by decide)

end Fluxon.TransferJob
