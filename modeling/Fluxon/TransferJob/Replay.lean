import Fluxon.TransferJob.Coverage

/-!
# Replayed scan calls

A scan call that was applied may be sent again. Its batches are then known: a stored batch is
found by its key and compared with the incoming one, and it was counted in this epoch; a batch that
was dropped, because other batches claim all of its paths, is dropped again. `SettledBatch` says so
of a batch, and every later call of the epoch keeps it.

The comparison is with what is stored. A batch that lost some of its paths to other batches is
stored without them and does not equal itself any more: its replay is refused
(`partly_claimed_replay_refused`). For calls whose new batches are claimed entirely or not at all,
`scan_replay_idempotent` says that the replay succeeds and changes nothing.
-/

namespace Fluxon.TransferJob

open List CollectInfoRecord AList

open TransferScan (BatchKind)

variable {Blob : Type} [DecidableEq Blob] [NoticeCodec Blob]

/-! ## The comparison with a stored batch -/

variable {jobId batchId root : String} {α : Type} {as : List α} {kind : BatchKind}
  {incoming : Manifest} {rows rows' : Rows Blob} {ids : String → Prop}
  {body : String → BatchWire Blob} {batch : BatchWire Blob} {pathKind : PathKind}
  {relpathOf : α → String} {m : Materialized Blob} {stats : ℤ × ℤ × ℤ} {listed : Bool}
  {result : ScanResult Blob}

theorem validateEquivalentEntries_eq_ok {pairs : List (ManifestEntry × ManifestEntry)} :
    validateEquivalentEntries jobId batchId pairs = .ok () ↔ ∀ p ∈ pairs, p.1 = p.2 := by
  induction pairs with
  | nil => simp [validateEquivalentEntries]
  | cons p pairs ih =>
    obtain ⟨existing, incoming⟩ := p
    rw [validateEquivalentEntries]
    split
    · next hne =>
      constructor
      · intro h
        cases h
      · intro h
        have heq : existing = incoming := h (existing, incoming) (by simp)
        rw [heq] at hne
        simp at hne
    · next heq =>
      have : existing = incoming := by
        cases existing
        simp_all
      rw [ih, forall_mem_cons]
      exact ⟨fun h => ⟨this, h⟩, fun h => h.2⟩

theorem validateEquivalentEmptyDirs_eq_ok {pairs : List (String × String)} :
    validateEquivalentEmptyDirs jobId batchId pairs = .ok () ↔ ∀ p ∈ pairs, p.1 = p.2 := by
  induction pairs with
  | nil => simp [validateEquivalentEmptyDirs]
  | cons p pairs ih =>
    obtain ⟨existing, incoming⟩ := p
    rw [validateEquivalentEmptyDirs]
    split
    · next hne =>
      constructor
      · intro h
        cases h
      · intro h
        exact absurd (h (existing, incoming) (by simp)) hne
    · next heq =>
      rw [ih, forall_mem_cons]
      exact ⟨fun h => ⟨not_not.1 heq, h⟩, fun h => h.2⟩

theorem eq_of_zip_forall {bs : List α} (hlen : as.length = bs.length)
    (h : ∀ p ∈ as.zip bs, p.1 = p.2) : as = bs := by
  induction as generalizing bs with
  | nil =>
    cases bs with
    | nil => rfl
    | cons b bs => simp at hlen
  | cons a as ih =>
    cases bs with
    | nil => simp at hlen
    | cons b bs =>
      rw [zip_cons_cons, forall_mem_cons] at h
      rw [ih (by simpa using hlen) h.2, show a = b from h.1]

theorem zip_self_forall (as : List α) : ∀ p ∈ as.zip as, p.1 = p.2 := by
  induction as with
  | nil => simp
  | cons a as ih =>
    rw [zip_cons_cons, forall_mem_cons]
    exact ⟨rfl, ih⟩

/-- Two manifests are equivalent exactly if they are equal. -/
theorem validateEquivalentManifests_eq_ok {existing : Manifest} :
    validateEquivalentManifests jobId batchId root kind existing incoming = .ok () ↔
      existing = incoming := by
  constructor
  · intro h
    revert h
    fun_cases validateEquivalentManifests jobId batchId root kind existing incoming <;>
      intro h <;> try cases h
    next hlen =>
    obtain ⟨⟨⟩, hentries, h⟩ := bind_eq_ok.1 h
    split at h
    · cases h
    · next hdirs =>
      have he := eq_of_zip_forall (not_not.1 hlen) (validateEquivalentEntries_eq_ok.1 hentries)
      have hd := eq_of_zip_forall (not_not.1 hdirs) (validateEquivalentEmptyDirs_eq_ok.1 h)
      cases incoming
      cases he
      cases hd
      rfl
  · rintro rfl
    unfold validateEquivalentManifests
    simp only [ne_eq, not_true_eq_false, if_false,
      validateEquivalentEntries_eq_ok.2 (zip_self_forall _),
      validateEquivalentEmptyDirs_eq_ok.2 (zip_self_forall _)]
    rfl

theorem verifyEquivalentBatchCollectInfos_eq_ok {incoming : List Blob} :
    verifyEquivalentBatchCollectInfos rows batchId incoming = .ok () ↔
      loadCollectInfosForBatch rows batchId = incoming := by
  unfold verifyEquivalentBatchCollectInfos
  dsimp only
  split
  · next hlen =>
    constructor
    · intro h
      cases h
    · intro h
      exact absurd (congrArg length h) hlen
  · split
    · next hne =>
      constructor
      · intro h
        cases h
      · intro h
        exact absurd h hne
    · next heq => exact ⟨fun _ => not_not.1 heq, fun _ => rfl⟩

/-! ## Rows with named batches -/

/-- What is asked of the batches of a run: an id that names one batch and is among `ids`, and
collect infos as they are built from a list of notices. -/
structure BatchWire.Named (ids : String → Prop) (body : String → BatchWire Blob)
    (batch : BatchWire Blob) : Prop where
  id_mem : ids batch.batchId
  body_eq : body batch.batchId = batch
  infos : ∃ notices, batch.collectInfos = buildSymlinkCollectInfos notices

/-- No id strictly extends another one. -/
def PrefixFree (ids : String → Prop) : Prop := ∀ a b, ids a → ids b → a.toList <+: b.toList → a = b

/-- The root and kind of the batch that an id names. -/
def useOf (body : String → BatchWire Blob) (batchId : String) : String × BatchKind :=
  ((normalizeTransferRootRelpath (body batchId).rootRelpath).toOption.getD "",
    (body batchId).batchKind)

theorem BatchWire.Named.useOf_eq (h : batch.Named ids body)
    (hroot : normalizeTransferRootRelpath batch.rootRelpath = .ok root) :
    useOf body batch.batchId = (root, batch.batchKind) := by
  rw [useOf, h.body_eq, hroot]
  rfl

/-- What holds of the rows in every run of named batches. -/
structure Tracked (ids : String → Prop) (body : String → BatchWire Blob) (rows : Rows Blob) :
    Prop where
  keyed : rows.Keyed (useOf body)
  info_ids : ∀ {batchId info}, rows.collectInfos.lookup batchId = some info → ids batchId
  eq_ids : ∀ {key batchId}, rows.batchEq.lookup key = some batchId → ids batchId
  running : rows.job.state = .running → rows.job.lastError = ""
  totals : rows.job.discover (0, 0, 0) = rows.job

theorem saturatingAddI64_zero_right (a b : ℤ) :
    saturatingAddI64 (saturatingAddI64 a b) (max 0 0) = saturatingAddI64 a b := by
  unfold saturatingAddI64
  omega

theorem discover_discover (job : JobRecord) (stats : ℤ × ℤ × ℤ) :
    (job.discover stats).discover (0, 0, 0) = job.discover stats := by
  simp only [JobRecord.discover, saturatingAddI64_zero_right]

/-- With ids that do not extend each other, a load finds the collect info of its batch only. -/
theorem loadCollectInfosForBatch_eq (hids : PrefixFree ids)
    (hinfo : ∀ {batchId info}, rows.collectInfos.lookup batchId = some info → ids batchId)
    (hid : ids batchId) :
    loadCollectInfosForBatch rows batchId =
      ((rows.collectInfos.lookup batchId).map collectBlob).toList := by
  have hfilter : ∀ e ∈ rows.collectInfos.entries,
      batchId.toList.isPrefixOf e.1.toList = true ↔ e.1 = batchId := by
    intro e he
    refine isPrefixOf_iff_prefix.trans ⟨?_, ?_⟩
    · intro hpre
      exact (hids _ _ hid (hinfo (Table.mem_entries_iff.1 he)) hpre).symm
    · intro heq
      rw [heq]
  cases hlookup : rows.collectInfos.lookup batchId with
  | none =>
    have hnil : rows.collectInfos.entries.filter
        (fun e => batchId.toList.isPrefixOf e.1.toList) = [] := by
      rw [filter_eq_nil_iff]
      intro e he hpre
      have hmem := Table.mem_entries_iff.1 he
      rw [(hfilter e he).1 hpre, hlookup] at hmem
      cases hmem
    rw [loadCollectInfosForBatch, hnil]
    rfl
  | some info =>
    have hone : rows.collectInfos.entries.filter
        (fun e => batchId.toList.isPrefixOf e.1.toList) = [⟨batchId, info⟩] := by
      have hmem : (⟨batchId, info⟩ : (_ : String) × CollectInfoRecord Blob) ∈
          rows.collectInfos.entries := Table.mem_entries_iff.2 hlookup
      rw [filter_congr, filter_beq, count_eq_one_of_mem rows.collectInfos.nodupKeys.nodup hmem]
      · rfl
      intro e he
      rw [Bool.eq_iff_iff, hfilter e he, beq_iff_eq]
      constructor
      · intro heq
        have hlook := Table.mem_entries_iff.1 he
        rw [heq, hlookup] at hlook
        cases heq
        cases hlook
        rfl
      · rintro rfl
        rfl
    rw [loadCollectInfosForBatch, hone]
    rfl

/-! ## Settled batches -/

/-- The batch is stored as it is, and counted in this epoch. -/
def KnownBatch (rows : Rows Blob) (root : String) (batch : BatchWire Blob) : Prop :=
  ∃ batchId record, rows.batchEq.lookup (batchEqKey root batch) = some batchId ∧
    rows.batches.lookup batchId = some record ∧ record.manifest = batch.manifest ∧
    record.lastCountedScanEpoch = rows.job.scanEpoch ∧
    ((rows.collectInfos.lookup batchId).map collectBlob).toList = batch.collectInfos

/-- The batch is not stored, and nothing of it would be. -/
def DroppedBatch (rows : Rows Blob) (root : String) (batch : BatchWire Blob) : Prop :=
  rows.batchEq.lookup (batchEqKey root batch) = none ∧
    materialize rows root batch batch.manifest = .ok none

/-- A batch that can be replayed. -/
def SettledBatch (rows : Rows Blob) (batch : BatchWire Blob) : Prop :=
  batch.manifest.validate = .ok () ∧
    ∃ root, normalizeTransferRootRelpath batch.rootRelpath = .ok root ∧
      (KnownBatch rows root batch ∨ DroppedBatch rows root batch)

/-- **A settled batch is replayed without effect.** -/
theorem SettledBatch.replay (hids : PrefixFree ids) (h : Tracked ids body rows)
    (hbatch : SettledBatch rows batch) : applyBatch rows batch = .ok rows := by
  obtain ⟨hvalid, root, hroot, hcase⟩ := hbatch
  have hinsert : insertOrReuseBatch rows batch = .ok ((0, 0, 0), rows) := by
    rw [insertOrReuseBatch, decodeTransferManifestBlob, hvalid]
    refine bind_eq_ok.2 ⟨batch.manifest, rfl, bind_eq_ok.2 ⟨root, hroot, ?_⟩⟩
    rcases hcase with ⟨batchId, record, hknown, hstored, hmanifest, hepoch, hinfos⟩ |
      ⟨hnew, hnothing⟩
    · have hload := loadCollectInfosForBatch_eq hids h.info_ids (h.eq_ids hknown)
      rw [hinfos] at hload
      simp only [hknown, reuseBatch, hstored]
      refine bind_eq_ok.2 ⟨(), validateEquivalentManifests_eq_ok.2 hmanifest, ?_⟩
      refine bind_eq_ok.2 ⟨(), verifyEquivalentBatchCollectInfos_eq_ok.2 hload, ?_⟩
      rw [if_pos hepoch]
      rfl
    · simp only [hnew, insertBatch]
      exact bind_eq_ok.2 ⟨none, hnothing, rfl⟩
  refine bind_eq_ok.2 ⟨_, hinsert, ?_⟩
  dsimp only
  rw [h.totals]
  rfl

theorem filterClaimed_eq_nil
    (h : ∀ a ∈ as, ∃ claim, rows.coverageClaims.lookup (relpathOf a) = some claim ∧
      claim.pathKind = pathKind ∧ claim.batchKind = kind ∧ claim.batchRootRelpath = root) :
    filterClaimed rows root kind pathKind relpathOf as = .ok [] := by
  induction as with
  | nil => rfl
  | cons a as ih =>
    rw [forall_mem_cons] at h
    obtain ⟨⟨claim, hclaim, hpath, hkind, hroot⟩, hrest⟩ := h
    rw [filterClaimed, hclaim]
    simp only [hpath, hkind, hroot, ne_eq, not_true_eq_false, or_self, if_false]
    exact ih hrest

theorem filterClaimed_eq_self (h : ∀ a ∈ as, rows.coverageClaims.lookup (relpathOf a) = none) :
    filterClaimed rows root kind pathKind relpathOf as = .ok as := by
  induction as with
  | nil => rfl
  | cons a as ih =>
    rw [forall_mem_cons] at h
    rw [filterClaimed, h.1]
    exact bind_eq_ok.2 ⟨as, ih h.2, rfl⟩

/-- What is dropped now is dropped with more claims, too. -/
theorem filterClaimed_nil_mono
    (hclaims : ∀ {relpath claim}, rows.coverageClaims.lookup relpath = some claim →
      rows'.coverageClaims.lookup relpath = some claim)
    (h : filterClaimed rows root kind pathKind relpathOf as = .ok []) :
    filterClaimed rows' root kind pathKind relpathOf as = .ok [] := by
  refine filterClaimed_eq_nil ?_
  intro a ha
  rcases (filterClaimed_spec h).2.2 a ha with hnil | ⟨claim, hclaim, hrest⟩
  · cases hnil
  · exact ⟨claim, hclaims hclaim, hrest⟩

theorem filterPathClaimedBatch_eq_none {collectInfos : List Blob} :
    filterPathClaimedBatch rows root kind incoming collectInfos = .ok none ↔
      ∃ notices, decodeSymlinkNotices collectInfos = .ok notices ∧
        filterClaimed rows root kind .file ManifestEntry.relpath incoming.entries = .ok [] ∧
        filterClaimed rows root kind .symlinkNotice SymlinkNotice.relpath notices = .ok [] ∧
        filterClaimed rows root kind .emptyDir id incoming.emptyDirRelpaths = .ok [] := by
  constructor
  · intro h
    obtain ⟨notices, hnotices, h⟩ := bind_eq_ok.1 h
    obtain ⟨entries, hentries, h⟩ := bind_eq_ok.1 h
    obtain ⟨keptNotices, hkept, h⟩ := bind_eq_ok.1 h
    obtain ⟨dirs, hdirs, h⟩ := bind_eq_ok.1 h
    split at h
    · next hnil =>
      obtain ⟨rfl, rfl, rfl⟩ := hnil
      exact ⟨notices, hnotices, hentries, hkept, hdirs⟩
    · cases h
  · rintro ⟨notices, hnotices, hentries, hkept, hdirs⟩
    refine bind_eq_ok.2 ⟨_, hnotices, bind_eq_ok.2 ⟨_, hentries, bind_eq_ok.2 ⟨_, hkept, ?_⟩⟩⟩
    exact bind_eq_ok.2 ⟨_, hdirs, rfl⟩

theorem materialize_none_mono
    (hclaims : ∀ {relpath claim}, rows.coverageClaims.lookup relpath = some claim →
      rows'.coverageClaims.lookup relpath = some claim)
    (h : materialize rows root batch batch.manifest = .ok none) :
    materialize rows' root batch batch.manifest = .ok none := by
  unfold materialize at h ⊢
  split at h
  case h_3 =>
    obtain ⟨m, -, hsome⟩ := bind_eq_ok.1 ((map_eq_pure_bind some _).symm.trans h)
    cases hsome
  all_goals
    obtain ⟨notices, hnotices, hentries, hkept, hdirs⟩ := filterPathClaimedBatch_eq_none.1 h
    exact filterPathClaimedBatch_eq_none.2 ⟨notices, hnotices,
      filterClaimed_nil_mono hclaims hentries, filterClaimed_nil_mono hclaims hkept,
      filterClaimed_nil_mono hclaims hdirs⟩

/-! ## What calls keep of settled batches -/

/-- How the rows grow within an epoch. -/
structure Grows (ids : String → Prop) (body : String → BatchWire Blob) (rows rows' : Rows Blob) :
    Prop where
  scanEpoch : rows'.job.scanEpoch = rows.job.scanEpoch
  batchEq : ∀ {key batchId}, rows.batchEq.lookup key = some batchId →
    rows'.batchEq.lookup key = some batchId
  batches : ∀ {batchId record}, rows.batches.lookup batchId = some record →
    record.lastCountedScanEpoch = rows.job.scanEpoch →
    ∃ record', rows'.batches.lookup batchId = some record' ∧ record'.manifest = record.manifest ∧
      record'.lastCountedScanEpoch = record.lastCountedScanEpoch
  collectInfos : ∀ {batchId record}, rows.batches.lookup batchId = some record →
    (rows'.collectInfos.lookup batchId).map collectBlob =
      (rows.collectInfos.lookup batchId).map collectBlob
  claims : ∀ {relpath claim}, rows.coverageClaims.lookup relpath = some claim →
    rows'.coverageClaims.lookup relpath = some claim
  dropped : ∀ {batch : BatchWire Blob} {root}, batch.Named ids body →
    DroppedBatch rows root batch → rows'.batchEq.lookup (batchEqKey root batch) = none

theorem SettledBatch.grows (hgrows : Grows ids body rows rows') (hnamed : batch.Named ids body)
    (h : SettledBatch rows batch) : SettledBatch rows' batch := by
  obtain ⟨hvalid, root, hroot, hcase⟩ := h
  refine ⟨hvalid, root, hroot, ?_⟩
  rcases hcase with ⟨batchId, record, hknown, hstored, hmanifest, hepoch, hinfos⟩ | hdropped
  · obtain ⟨record', hstored', hmanifest', hepoch'⟩ := hgrows.batches hstored hepoch
    refine .inl ⟨batchId, record', hgrows.batchEq hknown, hstored', hmanifest'.trans hmanifest, ?_,
      ?_⟩
    · rw [hepoch', hepoch, hgrows.scanEpoch]
    · rw [hgrows.collectInfos hstored, hinfos]
  · exact .inr ⟨hgrows.dropped hnamed hdropped, materialize_none_mono hgrows.claims hdropped.2⟩

/-- A change of the job record within the epoch, or of the listed directories. -/
theorem Grows.of_job {job : JobRecord} {listed : Table String Unit}
    (h : job.scanEpoch = rows.job.scanEpoch) :
    Grows ids body rows { rows with job := job, directFilesComplete := listed } where
  scanEpoch := h
  batchEq h := h
  batches h _ := ⟨_, h, rfl, rfl⟩
  collectInfos _ := rfl
  claims h := h
  dropped _ h := h.1

theorem Keeps.grows (h : Keeps rows rows') : Grows ids body rows rows' where
  scanEpoch := h.scanEpoch
  batchEq hknown := by rwa [h.batchEq]
  batches := by
    intro batchId record hr _
    have hid := h.batches batchId
    rw [hr, Option.map_some] at hid
    obtain ⟨record', hr', hrest⟩ := Option.map_eq_some_iff.1 hid
    rw [Prod.mk.injEq, Prod.mk.injEq, Prod.mk.injEq] at hrest
    exact ⟨record', hr', hrest.2.2.1, hrest.2.2.2⟩
  collectInfos _ := h.collectInfos _
  claims hclaim := by rwa [h.coverageClaims]
  dropped _ hd := by
    rw [h.batchEq]
    exact hd.1

/-- The claims of a new batch are about paths without one. -/
theorem storeBatch_claims {rows : Rows Blob} {root : String} {batch : BatchWire Blob}
    {m : Materialized Blob} (hfree : ∀ p ∈ m.paths, rows.coverageClaims.lookup p.1 = none)
    {relpath : String} {claim : CoverageClaim}
    (h : rows.coverageClaims.lookup relpath = some claim) :
    (storeBatch rows root batch m).coverageClaims.lookup relpath = some claim := by
  have hnot : relpath ∉ m.paths.map Prod.fst := by
    intro hmem
    obtain ⟨p, hp, rfl⟩ := mem_map.1 hmem
    rw [hfree p hp] at h
    cases h
  exact (lookup_insertCoverageClaims_of_notMem hnot).trans h

theorem length_buildSymlinkCollectInfos (notices : List SymlinkNotice) :
    (buildSymlinkCollectInfos notices : List Blob).length ≤ 1 := by
  unfold buildSymlinkCollectInfos
  split <;> simp

theorem BatchWire.Named.one_info (h : batch.Named ids body) : batch.collectInfos.length ≤ 1 := by
  obtain ⟨notices, hinfos⟩ := h.infos
  rw [hinfos]
  exact length_buildSymlinkCollectInfos notices

/-- Batches with one equivalence key have one id, unless they are full directories. -/
theorem batchId_eq_of_batchEqKey {root' : String} {b b' : BatchWire Blob}
    (h : batchEqKey root b = batchEqKey root' b') (hkind : b.batchKind ≠ .fullDir) :
    b.batchId = b'.batchId ∧ root = root' := by
  obtain ⟨id, r, kind, m, infos, g⟩ := b
  obtain ⟨id', r', kind', m', infos', g'⟩ := b'
  simp only [batchEqKey, Prod.mk.injEq] at h
  obtain ⟨hroot, rfl, hid⟩ := h
  cases kind with
  | fullDir => exact absurd rfl hkind
  | subtreeSlice | directFilesOnly => exact ⟨Option.some.inj hid, hroot⟩

theorem DroppedBatch.not_fullDir (h : DroppedBatch rows root batch) :
    batch.batchKind ≠ .fullDir := by
  intro hkind
  have hnone := h.2
  rw [materialize, hkind] at hnone
  obtain ⟨m, -, hsome⟩ := bind_eq_ok.1 ((map_eq_pure_bind some _).symm.trans hnone)
  cases hsome

theorem Tracked.grows_store (h : Tracked ids body rows) (hnamed : batch.Named ids body)
    (hroot : normalizeTransferRootRelpath batch.rootRelpath = .ok root)
    (hnew : rows.batchEq.lookup (batchEqKey root batch) = none)
    (hcontent : materialize rows root batch batch.manifest = .ok (some m)) :
    Grows ids body rows (storeBatch rows root batch m) := by
  obtain ⟨notices, -, hm⟩ := materialize_spec (fun _ => hnamed.one_info) hcontent
  have hid := h.keyed.new_id (hnamed.useOf_eq hroot) hnew
  have hne : ∀ {batchId record}, rows.batches.lookup batchId = some record →
      batchId ≠ batch.batchId := by
    intro batchId record hr heq
    rw [heq, hid] at hr
    cases hr
  constructor
  · rfl
  · intro key batchId hknown
    have hkey : key ≠ batchEqKey root batch := by
      intro heq
      rw [heq, hnew] at hknown
      cases hknown
    exact (lookup_insert_ne hkey).trans hknown
  · intro batchId record hr _
    exact ⟨record, (lookup_insert_ne (hne hr)).trans hr, rfl, rfl⟩
  · intro batchId record hr
    rw [lookup_storeBatch_collectInfos (hne hr)]
  · intro relpath claim hclaim
    exact storeBatch_claims hm.free hclaim
  · intro batch' root' hnamed' hdropped
    -- A batch that is dropped is not the one that is stored, and its key differs.
    refine (lookup_insert_ne ?_).trans hdropped.1
    intro hkey
    obtain ⟨hids, rfl⟩ := batchId_eq_of_batchEqKey hkey hdropped.not_fullDir
    have hsame : batch' = batch := by rw [← hnamed'.body_eq, hids, hnamed.body_eq]
    subst hsame
    have hnone := hdropped.2
    rw [hcontent] at hnone
    cases hnone

theorem Tracked.grows (h : Tracked ids body rows) (hnamed : batch.Named ids body)
    (hroot : normalizeTransferRootRelpath batch.rootRelpath = .ok root)
    (hins : Inserts rows batch root stats rows') : Grows ids body rows rows' := by
  cases hins with
  | counted | dropped => exact .of_job rfl
  | @recounted existingId record known stored same infos =>
    refine ⟨rfl, fun h => h, ?_, fun _ => rfl, fun h => h, fun _ hd => hd.1⟩
    intro batchId r hr hepoch
    by_cases heq : batchId = existingId
    · subst heq
      rw [stored] at hr
      cases hr
      exact ⟨_, lookup_insert _, rfl, hepoch.symm⟩
    · exact ⟨r, (lookup_insert_ne heq).trans hr, rfl, rfl⟩
  | stored new content => exact h.grows_store hnamed hroot new content

theorem discover_zero_iff {job : JobRecord} : job.discover (0, 0, 0) = job ↔
    saturatingAddI64 job.scanDiscoveredBatchCount (max 0 0) = job.scanDiscoveredBatchCount ∧
    saturatingAddI64 job.scanDiscoveredFileCount (max 0 0) = job.scanDiscoveredFileCount ∧
    saturatingAddI64 job.scanDiscoveredBytes (max 0 0) = job.scanDiscoveredBytes := by
  obtain ⟨_, _, _, _, _, _, _, _, _, _, _, _, _, _⟩ := job
  simp [JobRecord.discover]

/-- A batch changes neither the epoch nor the state of the job nor its error. -/
theorem Inserts.job (h : Inserts rows batch root stats rows') :
    rows'.job.scanEpoch = rows.job.scanEpoch ∧ rows'.job.state = rows.job.state ∧
      rows'.job.lastError = rows.job.lastError := by
  cases h with
  | counted | recounted | dropped | stored => exact ⟨rfl, rfl, rfl⟩

theorem Grows.trans_job (h : Grows ids body rows rows') {job : JobRecord}
    (hjob : job.scanEpoch = rows'.job.scanEpoch) :
    Grows ids body rows { rows' with job := job } where
  scanEpoch := hjob.trans h.scanEpoch
  batchEq := h.batchEq
  batches := h.batches
  collectInfos := h.collectInfos
  claims := h.claims
  dropped := h.dropped

theorem Tracked.batch_applied (h : Tracked ids body rows) (hnamed : batch.Named ids body)
    (happly : applyBatch rows batch = .ok rows') :
    Tracked ids body rows' ∧ Grows ids body rows rows' := by
  obtain ⟨root, stats, rows₁, hroot, hins, rfl⟩ := applyBatch_cases happly
  obtain ⟨-, hstate, herror⟩ := hins.job
  refine ⟨⟨?_, ?_, ?_, ?_, discover_discover _ _⟩, (h.grows hnamed hroot hins).trans_job rfl⟩
  · exact (h.keyed.inserts (hnamed.useOf_eq hroot) hins).congr
      ⟨fun _ => rfl, rfl, fun _ => rfl, rfl⟩
  · intro batchId info hinfo
    cases hins with
    | counted | recounted | dropped => exact h.info_ids hinfo
    | @stored m new content =>
      by_cases heq : batchId = batch.batchId
      · rw [heq]
        exact hnamed.id_mem
      · have hold : (storeBatch rows root batch m).collectInfos.lookup batchId = some info := hinfo
        rw [lookup_storeBatch_collectInfos heq] at hold
        exact h.info_ids hold
  · intro key batchId hknown
    cases hins with
    | counted | recounted | dropped => exact h.eq_ids hknown
    | stored =>
      obtain ⟨-, rfl⟩ | ⟨-, hknown⟩ := Table.lookup_insert_cases hknown
      · exact hnamed.id_mem
      · exact h.eq_ids hknown
  · intro hrunning
    exact herror.trans (h.running (hstate.symm.trans hrunning))

theorem kept_tracked (ids : String → Prop) (body : String → BatchWire Blob) :
    Kept (fun b : BatchWire Blob => b.Named ids body) (Tracked ids body) where
  batch hb h happly := (h.batch_applied hb happly).1
  clear := by
    intro rows h
    refine ⟨h.keyed.congr ⟨fun _ => rfl, rfl, fun _ => rfl, rfl⟩, h.info_ids, h.eq_ids,
      fun _ => rfl, ?_⟩
    have htotals := discover_zero_iff.1 h.totals
    exact discover_zero_iff.2 htotals
  listed := by
    intro rows root h
    exact ⟨h.keyed.congr ⟨fun _ => rfl, rfl, fun _ => rfl, rfl⟩, h.info_ids, h.eq_ids, h.running,
      h.totals⟩
  epoch := by
    intro rows rows' h hbegin
    obtain ⟨-, rfl⟩ := beginTransferScanEpoch_cases hbegin
    exact ⟨h.keyed.congr ⟨fun _ => rfl, rfl, fun _ => rfl, rfl⟩, h.info_ids, h.eq_ids,
      fun _ => rfl, rfl⟩
  keeps := by
    intro rows rows' h hkeeps
    refine ⟨h.keyed.congr hkeeps.sameContent, ?_, ?_, ?_, ?_⟩
    · intro batchId info hinfo
      have hid := hkeeps.collectInfos batchId
      rw [hinfo, Option.map_some] at hid
      obtain ⟨info', hinfo', -⟩ := Option.map_eq_some_iff.1 hid.symm
      exact h.info_ids hinfo'
    · intro key batchId hknown
      rw [hkeeps.batchEq] at hknown
      exact h.eq_ids hknown
    · intro hrunning
      obtain ⟨hbefore, herror⟩ := hkeeps.running hrunning
      exact herror.trans (h.running hbefore)
    · obtain ⟨hbatches, hfiles, hbytes⟩ := hkeeps.discovered
      rw [discover_zero_iff, hbatches, hfiles, hbytes]
      exact discover_zero_iff.1 h.totals

theorem tracked_created (ids : String → Prop) (body : String → BatchWire Blob) (jobId : String) :
    Tracked ids body (Rows.created jobId) where
  keyed := keyed_created _ jobId
  info_ids h := by cases h
  eq_ids h := by cases h
  running _ := rfl
  totals := rfl

/-! ## A batch that was applied is settled -/

/-- Other batches claim no path of a new batch, or all of them. -/
def WholeIn (rows : Rows Blob) (batch : BatchWire Blob) : Prop :=
  ∀ root notices, normalizeTransferRootRelpath batch.rootRelpath = .ok root →
    rows.batchEq.lookup (batchEqKey root batch) = none →
    decodeSymlinkNotices batch.collectInfos = .ok notices →
    (∀ p ∈ (⟨batch.manifest, notices, []⟩ : Materialized Blob).paths,
      rows.coverageClaims.lookup p.1 = none) ∨
    ∀ p ∈ (⟨batch.manifest, notices, []⟩ : Materialized Blob).paths,
      rows.coverageClaims.lookup p.1 ≠ none

/-- Each batch of a call is claimed entirely or not at all when its turn comes. -/
def TakenWhole : Rows Blob → List (BatchWire Blob) → Prop
  | _, [] => True
  | rows, batch :: rest =>
    WholeIn rows batch ∧ ∀ rows', applyBatch rows batch = .ok rows' → TakenWhole rows' rest

theorem decodeSymlinkNotices_build (notices : List SymlinkNotice) :
    decodeSymlinkNotices (buildSymlinkCollectInfos notices : List Blob) = .ok notices := by
  unfold buildSymlinkCollectInfos
  split
  · next hnil =>
    rw [hnil]
    rfl
  · refine bind_eq_ok.2 ⟨notices, NoticeCodec.decode_encode notices, bind_eq_ok.2 ⟨[], rfl, ?_⟩⟩
    rw [append_nil]
    rfl

theorem filterClaimed_eq_nil_of_claimed {kept : List α}
    (h : filterClaimed rows root kind pathKind relpathOf as = .ok kept)
    (hclaimed : ∀ a ∈ as, rows.coverageClaims.lookup (relpathOf a) ≠ none) : kept = [] := by
  obtain ⟨hsub, hfree, -⟩ := filterClaimed_spec h
  rw [eq_nil_iff_forall_not_mem]
  intro a ha
  exact hclaimed a (hsub.subset ha) (hfree a ha)

theorem filterPathClaimedBatch_whole {notices : List SymlinkNotice}
    (hwhole : (∀ p ∈ (⟨incoming, notices, []⟩ : Materialized Blob).paths,
        rows.coverageClaims.lookup p.1 = none) ∨
      ∀ p ∈ (⟨incoming, notices, []⟩ : Materialized Blob).paths,
        rows.coverageClaims.lookup p.1 ≠ none)
    (h : filterPathClaimedBatch rows root kind incoming (buildSymlinkCollectInfos notices) =
      .ok (some m)) :
    m.manifest = incoming ∧ m.collectInfos = buildSymlinkCollectInfos notices := by
  obtain ⟨ns, hns, h⟩ := bind_eq_ok.1 h
  rw [decodeSymlinkNotices_build] at hns
  cases hns
  obtain ⟨entries, hentries, h⟩ := bind_eq_ok.1 h
  obtain ⟨keptNotices, hkept, h⟩ := bind_eq_ok.1 h
  obtain ⟨dirs, hdirs, h⟩ := bind_eq_ok.1 h
  have hfile : ∀ e ∈ incoming.entries, (e.relpath, PathKind.file) ∈
      (⟨incoming, notices, []⟩ : Materialized Blob).paths :=
    fun e he => mem_materialized_paths.2 (.inl ⟨rfl, e, he, rfl⟩)
  have hnotice : ∀ e ∈ notices, (e.relpath, PathKind.symlinkNotice) ∈
      (⟨incoming, notices, []⟩ : Materialized Blob).paths :=
    fun e he => mem_materialized_paths.2 (.inr (.inl ⟨rfl, e, he, rfl⟩))
  have hdir : ∀ p ∈ incoming.emptyDirRelpaths, (p, PathKind.emptyDir) ∈
      (⟨incoming, notices, []⟩ : Materialized Blob).paths :=
    fun p hp => mem_materialized_paths.2 (.inr (.inr ⟨rfl, hp⟩))
  rcases hwhole with hfree | hclaimed
  · rw [filterClaimed_eq_self fun e he => hfree _ (hfile e he)] at hentries
    rw [filterClaimed_eq_self fun e he => hfree _ (hnotice e he)] at hkept
    have hkeep : ∀ p ∈ incoming.emptyDirRelpaths, rows.coverageClaims.lookup (id p) = none :=
      fun p hp => hfree _ (hdir p hp)
    rw [filterClaimed_eq_self hkeep] at hdirs
    cases hentries
    cases hkept
    cases hdirs
    split at h
    · cases h
    · cases h
      exact ⟨rfl, rfl⟩
  · have he := filterClaimed_eq_nil_of_claimed hentries fun e he => hclaimed _ (hfile e he)
    have hn := filterClaimed_eq_nil_of_claimed hkept fun e he => hclaimed _ (hnotice e he)
    have hd := filterClaimed_eq_nil_of_claimed hdirs fun p hp => hclaimed _ (hdir p hp)
    rw [if_pos ⟨he, hn, hd⟩] at h
    cases h

theorem materialize_whole (hnamed : batch.Named ids body)
    (hroot : normalizeTransferRootRelpath batch.rootRelpath = .ok root)
    (hnew : rows.batchEq.lookup (batchEqKey root batch) = none) (hwhole : WholeIn rows batch)
    (h : materialize rows root batch batch.manifest = .ok (some m)) :
    m.manifest = batch.manifest ∧ m.collectInfos = batch.collectInfos := by
  obtain ⟨notices, hinfos⟩ := hnamed.infos
  have hdecode : decodeSymlinkNotices batch.collectInfos = .ok notices := by
    rw [hinfos, decodeSymlinkNotices_build]
  have hcases := hwhole root notices hroot hnew hdecode
  unfold materialize at h
  split at h
  · rw [hinfos] at h ⊢
    exact filterPathClaimedBatch_whole hcases h
  · rw [hinfos] at h ⊢
    exact filterPathClaimedBatch_whole hcases h
  obtain ⟨m', hm, hsome⟩ := bind_eq_ok.1 ((map_eq_pure_bind some _).symm.trans h)
  cases hsome
  obtain ⟨ns, -, hm⟩ := bind_eq_ok.1 hm
  obtain ⟨⟨⟩, -, hm⟩ := bind_eq_ok.1 hm
  obtain ⟨⟨⟩, -, hm⟩ := bind_eq_ok.1 hm
  obtain ⟨⟨⟩, -, hm⟩ := bind_eq_ok.1 hm
  cases hm
  exact ⟨rfl, rfl⟩

theorem applyBatch_validate (h : applyBatch rows batch = .ok rows') :
    batch.manifest.validate = .ok () := by
  obtain ⟨_, hins, -⟩ := bind_eq_ok.1 h
  obtain ⟨incoming, hdecode, -⟩ := bind_eq_ok.1 hins
  exact (decodeTransferManifestBlob_eq_ok hdecode).2

/-- The blobs stored with a batch of at most one collect info. -/
theorem collectInfos_storeBatch (root : String) {notices : List SymlinkNotice}
    (hm : Fresh rows incoming notices m) (hnone : rows.collectInfos.lookup batch.batchId = none) :
    (((storeBatch rows root batch m).collectInfos.lookup batch.batchId).map
      collectBlob).toList = m.collectInfos := by
  unfold storeBatch
  rcases hm.info with ⟨hinfos, -⟩ | ⟨blob, hinfos, -⟩
  · simp only [hinfos, foldl_nil, hnone, Option.map_none, Option.toList_none]
  · simp only [hinfos, foldl_cons, foldl_nil, lookup_insert, Option.map_some, Option.toList_some]

theorem Tracked.settled (hids : PrefixFree ids) (h : Tracked ids body rows)
    (hnamed : batch.Named ids body) (hwhole : WholeIn rows batch)
    (happly : applyBatch rows batch = .ok rows') : SettledBatch rows' batch := by
  have hvalid := applyBatch_validate happly
  obtain ⟨root, stats, rows₁, hroot, hins, rfl⟩ := applyBatch_cases happly
  refine ⟨hvalid, root, hroot, ?_⟩
  have hblobs : ∀ {existingId}, rows.batchEq.lookup (batchEqKey root batch) = some existingId →
      verifyEquivalentBatchCollectInfos rows existingId batch.collectInfos = .ok () →
      ((rows.collectInfos.lookup existingId).map collectBlob).toList = batch.collectInfos := by
    intro existingId hknown hinfos
    rw [← loadCollectInfosForBatch_eq hids h.info_ids (h.eq_ids hknown)]
    exact verifyEquivalentBatchCollectInfos_eq_ok.1 hinfos
  cases hins with
  | counted known stored same infos epoch =>
    exact .inl ⟨_, _, known, stored, validateEquivalentManifests_eq_ok.1 same, epoch,
      hblobs known infos⟩
  | recounted known stored same infos =>
    exact .inl ⟨_, _, known, lookup_insert _, validateEquivalentManifests_eq_ok.1 same, rfl,
      hblobs known infos⟩
  | dropped new nothing =>
    have hclaims : ∀ {relpath claim}, rows.coverageClaims.lookup relpath = some claim →
        rows.coverageClaims.lookup relpath = some claim := fun hc => hc
    exact .inr ⟨new, materialize_none_mono hclaims nothing⟩
  | stored new content =>
    obtain ⟨hmanifest, hinfos⟩ := materialize_whole hnamed hroot new hwhole content
    obtain ⟨notices, -, hm⟩ := materialize_spec (fun _ => hnamed.one_info) content
    have hid := h.keyed.new_id (hnamed.useOf_eq hroot) new
    refine .inl ⟨batch.batchId, _, lookup_insert _, lookup_insert _, hmanifest, rfl, ?_⟩
    exact (collectInfos_storeBatch root hm (h.keyed.stored_info hid)).trans hinfos

/-- The batches of a call that was applied are settled, and so stay those before them. -/
theorem settled_batches (hids : PrefixFree ids) (done : List (BatchWire Blob))
    {todo : List (BatchWire Blob)} (h : Tracked ids body rows)
    (hdone : ∀ b ∈ done, SettledBatch rows b) (hnamed : ∀ b ∈ done ++ todo, b.Named ids body)
    (hwhole : TakenWhole rows todo) (happly : todo.foldlM applyBatch rows = .ok rows') :
    (∀ b ∈ done ++ todo, SettledBatch rows' b) ∧ rows'.job.scanEpoch = rows.job.scanEpoch := by
  induction todo generalizing done rows with
  | nil =>
    cases happly
    rw [append_nil]
    exact ⟨hdone, rfl⟩
  | cons b bs ih =>
    obtain ⟨rows₁, hb, hrest⟩ := bind_eq_ok.1 happly
    have hname : b.Named ids body := hnamed b (by simp)
    obtain ⟨h₁, hgrows⟩ := h.batch_applied hname hb
    have hdone₁ : ∀ b' ∈ done ++ [b], SettledBatch rows₁ b' := by
      intro b' hb'
      rcases mem_append.1 hb' with hb' | hb'
      · exact (hdone b' hb').grows hgrows (hnamed b' (by simp [hb']))
      · rw [mem_singleton] at hb'
        rw [hb']
        exact h.settled hids hname hwhole.1 hb
    have hsplit : done ++ b :: bs = done ++ [b] ++ bs := by simp
    rw [hsplit] at hnamed ⊢
    obtain ⟨hall, hepoch⟩ := ih _ h₁ hdone₁ hnamed (hwhole.2 rows₁ hb) hrest
    exact ⟨hall, hepoch.trans hgrows.scanEpoch⟩

/-! ## Replays -/

/-- A scan result, or an append of one. -/
def applyScan (listed : Bool) (rows : Rows Blob) (result : ScanResult Blob) :
    Except String (Rows Blob) :=
  if listed then applyTransferScanResult rows result else applyTransferScanAppend rows result

def scanEvent (listed : Bool) (result : ScanResult Blob) : Event Blob :=
  if listed then .scanResult result else .scanAppend result

theorem scanEvent_batches (listed : Bool) (result : ScanResult Blob) :
    (scanEvent listed result).batches = result.batches := by
  cases listed <;> rfl

/-- The same rows, with the listed directories as a set. -/
structure Rows.SameAs (rows rows' : Rows Blob) : Prop where
  rows_eq : rows' = { rows with directFilesComplete := rows'.directFilesComplete }
  listed : ∀ root, rows'.directFilesComplete.lookup root = rows.directFilesComplete.lookup root

/-- What a result leaves behind besides its batches. -/
def Listed (listed : Bool) (result : ScanResult Blob) (rows : Rows Blob) : Prop :=
  listed = true → ∃ root, normalizeTransferRootRelpath result.rootRelpath = .ok root ∧
    (result.rootListingIncomplete root = false → rows.directFilesComplete.lookup root = some ())

theorem applyScan_cases (h : applyScan listed rows result = .ok rows') :
    ((rows.job.state = .stopping ∨ rows.job.state = .cancelled) ∧ rows' = rows) ∨
      ∃ rows₁, rows.job.state = .running ∧ rows.job.scanEpoch = result.scanEpoch ∧
        applyTransferScanBatches rows result = .ok rows₁ ∧
        rows' = { rows₁ with directFilesComplete := rows'.directFilesComplete } ∧
        Listed listed result rows' := by
  cases listed with
  | false =>
    rcases applyTransferScanAppend_cases h with hend | ⟨hstate, hepoch, hbatches⟩
    · exact .inl hend
    · exact .inr ⟨rows', hstate, hepoch, hbatches, rfl, fun hl => nomatch hl⟩
  | true =>
    rcases applyTransferScanResult_cases h with hend |
      ⟨root, rows₁, hstate, hepoch, hroot, hbatches, rfl⟩
    · exact .inl hend
    · refine .inr ⟨rows₁, hstate, hepoch, hbatches, ?_, fun _ => ⟨root, hroot, ?_⟩⟩
      · split <;> rfl
      · intro hcomplete
        rw [hcomplete]
        exact lookup_insert _

/-- A job that does not run does not start to. -/
theorem kept_notRunning (P : BatchWire Blob → Prop) :
    Kept P fun rows => rows.job.state ≠ .running where
  batch := by
    intro rows rows' b _ h happly
    obtain ⟨root, stats, rows₁, -, hins, rfl⟩ := applyBatch_cases happly
    exact fun hrunning => h (hins.job.2.1.symm.trans hrunning)
  clear h := h
  listed _ h := h
  epoch h hbegin := absurd (beginTransferScanEpoch_cases hbegin).1 h
  keeps h hkeeps hrunning := h (hkeeps.running hrunning).1

/-- Later in the epoch of a call, its batches are settled. -/
def Later (ids : String → Prop) (body : String → BatchWire Blob) (epoch : ℤ) (listed : Bool)
    (result : ScanResult Blob) (rows : Rows Blob) : Prop :=
  Tracked ids body rows ∧ (epoch < rows.job.scanEpoch ∨ (rows.job.scanEpoch = epoch ∧
    (∀ b ∈ result.batches, SettledBatch rows b) ∧ Listed listed result rows))

theorem Later.grows {epoch : ℤ} (hresult : ∀ b ∈ result.batches, b.Named ids body)
    (h : Later ids body epoch listed result rows) (htracked : Tracked ids body rows')
    (hgrows : Grows ids body rows rows')
    (hlisted : ∀ {root}, rows.directFilesComplete.lookup root = some () →
      rows'.directFilesComplete.lookup root = some ()) :
    Later ids body epoch listed result rows' := by
  refine ⟨htracked, ?_⟩
  rcases h.2 with hlater | ⟨heq, hsettled, hmark⟩
  · left
    rw [hgrows.scanEpoch]
    exact hlater
  right
  refine ⟨hgrows.scanEpoch.trans heq, ?_, ?_⟩
  · intro b hb
    exact (hsettled b hb).grows hgrows (hresult b hb)
  · intro hl
    obtain ⟨root, hroot, hcomplete⟩ := hmark hl
    exact ⟨root, hroot, fun hc => hlisted (hcomplete hc)⟩

theorem Inserts.directFilesComplete (h : Inserts rows batch root stats rows') :
    rows'.directFilesComplete = rows.directFilesComplete := by
  cases h with
  | counted | recounted | dropped | stored => rfl

theorem kept_later {epoch : ℤ} (hresult : ∀ b ∈ result.batches, b.Named ids body) :
    Kept (fun b : BatchWire Blob => b.Named ids body) (Later ids body epoch listed result) where
  batch := by
    intro rows rows' b hb h happly
    obtain ⟨htracked, hgrows⟩ := h.1.batch_applied hb happly
    refine h.grows hresult htracked hgrows ?_
    obtain ⟨root, stats, rows₁, -, hins, rfl⟩ := applyBatch_cases happly
    intro root' hroot'
    exact (congrArg (AList.lookup root') hins.directFilesComplete).trans hroot'
  clear h := h.grows hresult ((kept_tracked ids body).clear h.1) (.of_job rfl) fun h => h
  listed := by
    intro rows root h
    refine h.grows hresult ((kept_tracked ids body).listed root h.1) (.of_job rfl) ?_
    intro root' hroot'
    rw [Table.lookup_insert_eq]
    split
    · rfl
    · exact hroot'
  epoch := by
    intro rows rows' h hbegin
    refine ⟨(kept_tracked ids body).epoch h.1 hbegin, .inl ?_⟩
    obtain ⟨-, rfl⟩ := beginTransferScanEpoch_cases hbegin
    show epoch < rows.job.scanEpoch + 1
    rcases h.2 with hlater | ⟨heq, -⟩
    · omega
    · omega
  keeps := by
    intro rows rows' h hkeeps
    refine h.grows hresult ((kept_tracked ids body).keeps h.1 hkeeps) hkeeps.grows ?_
    intro root hroot
    rwa [hkeeps.directFilesComplete]

/-- Right after a call on a running job its batches are settled. -/
theorem later_of_applyScan (hids : PrefixFree ids) {rows₁ : Rows Blob} (h : Tracked ids body rows)
    (hresult : ∀ b ∈ result.batches, b.Named ids body)
    (hwhole : TakenWhole { rows with job := { rows.job with lastError := "" } } result.batches)
    (hbatches : applyTransferScanBatches rows result = .ok rows₁)
    (hrows : rows' = { rows₁ with directFilesComplete := rows'.directFilesComplete })
    (hlisted : Listed listed result rows') :
    Later ids body rows.job.scanEpoch listed result rows' := by
  have hclear := (kept_tracked ids body).clear h
  have htracked := (kept_tracked ids body).batches hresult hclear hbatches
  obtain ⟨hsettled, hepoch⟩ := settled_batches hids [] hclear (fun _ hb => nomatch hb)
    hresult hwhole hbatches
  have hgrows : Grows ids body rows₁ rows' := by
    rw [hrows]
    exact .of_job rfl
  refine ⟨?_, .inr ⟨hgrows.scanEpoch.trans hepoch, ?_, hlisted⟩⟩
  · rw [hrows]
    exact ⟨htracked.keyed.congr ⟨fun _ => rfl, rfl, fun _ => rfl, rfl⟩, htracked.info_ids,
      htracked.eq_ids, htracked.running, htracked.totals⟩
  · intro b hb
    exact (hsettled b hb).grows hgrows (hresult b hb)

theorem replay_batches (hids : PrefixFree ids) (h : Tracked ids body rows)
    {batches : List (BatchWire Blob)} (hsettled : ∀ b ∈ batches, SettledBatch rows b) :
    batches.foldlM applyBatch rows = .ok rows := by
  induction batches with
  | nil => rfl
  | cons b bs ih =>
    rw [foldlM_cons, (hsettled b (by simp)).replay hids h]
    exact ih fun b' hb' => hsettled b' (by simp [hb'])

/-- Clearing an empty error changes nothing. -/
theorem clear_eq (h : rows.job.lastError = "") :
    { rows with job := { rows.job with lastError := "" } } = rows := by
  obtain ⟨⟨_, _, _, _, _, _, _, _, _, _, _, _, _, _⟩, _, _, _, _, _, _, _, _⟩ := rows
  cases h
  rfl

section

variable (hrunning : rows.job.state = .running) (hepoch : rows.job.scanEpoch = result.scanEpoch)
include hrunning hepoch

theorem applyTransferScanAppend_running :
    applyTransferScanAppend rows result = applyTransferScanBatches rows result := by
  simp [applyTransferScanAppend, hrunning, hepoch]

theorem applyTransferScanResult_running : applyTransferScanResult rows result =
    normalizeTransferRootRelpath result.rootRelpath >>= fun root =>
      applyTransferScanBatches rows result >>= fun rows' =>
        .ok (if result.rootListingIncomplete root then rows' else
          { rows' with directFilesComplete := rows'.directFilesComplete.insert root () }) := by
  simp only [apply_ite Except.ok]
  simp [applyTransferScanResult, hrunning, hepoch, pure, Except.pure]

end

theorem Later.replay (hids : PrefixFree ids)
    (h : Later ids body rows.job.scanEpoch listed result rows)
    (hrunning : rows.job.state = .running) (hepoch : rows.job.scanEpoch = result.scanEpoch) :
    ∃ rows', applyScan listed rows result = .ok rows' ∧ rows.SameAs rows' := by
  obtain ⟨htracked, hlater | ⟨-, hsettled, hlisted⟩⟩ := h
  · exact absurd hlater (lt_irrefl _)
  have hbatches : applyTransferScanBatches rows result = .ok rows := by
    rw [applyTransferScanBatches, clear_eq (htracked.running hrunning)]
    exact replay_batches hids htracked hsettled
  cases listed with
  | false =>
    exact ⟨rows, (applyTransferScanAppend_running hrunning hepoch).trans hbatches, rfl,
      fun _ => rfl⟩
  | true =>
    obtain ⟨root, hroot, hmark⟩ := hlisted rfl
    refine ⟨_, (applyTransferScanResult_running hrunning hepoch).trans
      (bind_eq_ok.2 ⟨root, hroot, bind_eq_ok.2 ⟨rows, hbatches, rfl⟩⟩), ?_⟩
    split
    · exact ⟨rfl, fun _ => rfl⟩
    · next hcomplete =>
      refine ⟨rfl, ?_⟩
      intro root'
      rw [Table.lookup_insert_eq]
      split
      · next heq => rw [heq, hmark (eq_false_of_ne_true hcomplete)]
      · rfl

theorem applyScan_ended (result : ScanResult Blob)
    (h : rows.job.state = .stopping ∨ rows.job.state = .cancelled) :
    applyScan listed rows result = .ok rows := by
  cases listed with
  | false | true => exact if_pos h

/-- **Scan calls are idempotent.** Let a scan call be applied in a run whose batch ids name one
batch each and do not extend one another, and whose collect infos are built from notices. If each
new batch of the call was claimed entirely or not at all, then in every later state of its epoch in
which the job has not completed, the same call succeeds again and leaves the rows as they are. -/
theorem scan_replay_idempotent {jobId : String} {ids : String → Prop}
    (body : String → BatchWire Blob) (hids : PrefixFree ids) {listed : Bool}
    {result : ScanResult Blob} {before after : List (Event Blob)} {rows₀ rows₁ rows : Rows Blob}
    (hbefore : Run Step (Rows.created jobId) before rows₀)
    (happly : applyScan listed rows₀ result = .ok rows₁) (hafter : Run Step rows₁ after rows)
    (hnamed : ∀ ev ∈ before ++ scanEvent listed result :: after, ∀ b ∈ ev.batches, b.Named ids body)
    (hwhole : TakenWhole { rows₀ with job := { rows₀.job with lastError := "" } } result.batches)
    (hepoch : rows.job.scanEpoch = rows₀.job.scanEpoch)
    (hstate : rows.job.state ≠ .completed ∧ rows.job.state ≠ .failed) :
    ∃ rows', applyScan listed rows result = .ok rows' ∧ rows.SameAs rows' := by
  have hresult : ∀ b ∈ result.batches, b.Named ids body := by
    intro b hb
    refine hnamed (scanEvent listed result) (by simp) b ?_
    rwa [scanEvent_batches]
  have hlast : ∀ ev ∈ after, ∀ b ∈ ev.batches, b.Named ids body :=
    fun ev hev => hnamed ev (by simp [hev])
  have htracked : Tracked ids body rows₀ := (kept_tracked ids body).run hbefore
    (fun ev hev => hnamed ev (by simp [hev])) (tracked_created ids body jobId)
  have hended : rows.job.state ≠ .running →
      ∃ rows', applyScan listed rows result = .ok rows' ∧ rows.SameAs rows' := by
    intro hnot
    have hstop : rows.job.state = .stopping ∨ rows.job.state = .cancelled := by
      cases h : rows.job.state <;> simp_all
    exact ⟨rows, applyScan_ended result hstop, rfl, fun _ => rfl⟩
  rcases applyScan_cases happly with ⟨hstop, rfl⟩ |
    ⟨rows₂, hrunning₀, hepoch₀, hbatches, hrows, hmark⟩
  · -- The call met a job that was ending, and the job has not come back.
    refine hended ((kept_notRunning _).run hafter hlast ?_)
    rcases hstop with hstop | hstop
    · simp [hstop]
    · simp [hstop]
  · have hlater := (kept_later hresult).run hafter hlast
      (later_of_applyScan hids htracked hresult hwhole hbatches hrows hmark)
    by_cases hrunning : rows.job.state = .running
    · rw [← hepoch] at hlater hepoch₀
      exact hlater.replay hids hrunning hepoch₀
    · exact hended hrunning

/-- The ids `a` and `b`. -/
def isNamed (batchId : String) : Prop := batchId = "a" ∨ batchId = "b"

/-- The batches that they name. -/
def namedBatch (batchId : String) : BatchWire (List SymlinkNotice) :=
  if batchId = "b" then ⟨"b", "x", .directFilesOnly, ⟨[⟨"x/p", 1⟩, ⟨"x/q", 1⟩], []⟩, [], 1⟩
  else ⟨"a", "x", .directFilesOnly, ⟨[⟨"x/r", 1⟩], []⟩, [], 1⟩

/-- The append of `b` below, sent again after another append. -/
theorem scan_replay_idempotent_later : ∃ rows₀ rows₁ rows rows' : Rows (List SymlinkNotice),
    applyScan false rows₀ (appendFiles "b" "x" ["x/p", "x/q"]) = .ok rows₁ ∧
    applyScan false rows₁ (appendFiles "a" "x" ["x/r"]) = .ok rows ∧
    applyScan false rows (appendFiles "b" "x" ["x/p", "x/q"]) = .ok rows' ∧ rows.SameAs rows' := by
  have hlast : ((applyTransferScanAppend (Rows.created "job")
      (appendFiles "b" "x" ["x/p", "x/q"])).toOption.any fun rows₁ =>
        (applyTransferScanAppend rows₁ (appendFiles "a" "x" ["x/r"])).toOption.any fun rows =>
          decide (rows.job.scanEpoch = 1 ∧ rows.job.state = .running)) = true := by
    decide +kernel
  obtain ⟨rows₁, hrows₁, hnext⟩ := (Option.any_eq_true _ _).1 hlast
  obtain ⟨rows, hrows, hjob⟩ := (Option.any_eq_true _ _).1 hnext
  obtain ⟨hepoch, hrunning⟩ := of_decide_eq_true hjob
  have happly₁ : applyScan false (Rows.created "job") (appendFiles "b" "x" ["x/p", "x/q"]) =
      .ok rows₁ := toOption_eq_some.1 hrows₁
  have happly := toOption_eq_some.1 hrows
  have hwhole : TakenWhole (Rows.created "job")
      (appendFiles "b" "x" ["x/p", "x/q"]).batches := by
    refine ⟨fun _ _ _ _ _ => .inl fun _ _ => rfl, fun _ _ => trivial⟩
  have hids : PrefixFree isNamed := by
    intro x y hx hy hpre
    have hpre := isPrefixOf_iff_prefix.2 hpre
    rcases hx with rfl | rfl <;> rcases hy with rfl | rfl
    · rfl
    · exact absurd hpre (by decide +kernel)
    · exact absurd hpre (by decide +kernel)
    · rfl
  have hnamed : ∀ ev ∈ [] ++ scanEvent false (appendFiles "b" "x" ["x/p", "x/q"]) ::
      [.scanAppend (appendFiles "a" "x" ["x/r"])], ∀ b ∈ ev.batches,
        b.Named isNamed namedBatch := by
    intro ev hev b hb
    simp only [nil_append, mem_cons, not_mem_nil, or_false] at hev
    rcases hev with rfl | rfl
    · cases mem_singleton.1 hb
      exact ⟨.inr rfl, rfl, [], rfl⟩
    · cases mem_singleton.1 hb
      exact ⟨.inl rfl, rfl, [], rfl⟩
  obtain ⟨rows', hreplay, hsame⟩ := scan_replay_idempotent namedBatch hids (.nil _) happly₁
    (.single (.scanAppend happly)) hnamed hwhole (hepoch.trans rfl) (by simp [hrunning])
  exact ⟨_, rows₁, rows, rows', happly₁, happly, hreplay, hsame⟩

/-- **The replay of a partly claimed batch is refused.** The batch `b` loses `x/q` to `a` and is
stored with `x/r`; the same append again finds the stored batch and takes it for another one. -/
theorem partly_claimed_replay_refused : ∃ rows₀ rows₁ : Rows (List SymlinkNotice),
    Run Step (Rows.created "job") [.scanAppend (appendFiles "a" "x" ["x/p", "x/q"])] rows₀ ∧
    applyTransferScanAppend rows₀ (appendFiles "b" "x" ["x/q", "x/r"]) = .ok rows₁ ∧
    applyTransferScanAppend rows₁ (appendFiles "b" "x" ["x/q", "x/r"]) =
      .error ("equivalent transfer batch entry_count mismatch: job_id=job batch_id=b " ++
        "root_relpath=x batch_kind=direct_files_only") := by
  have hlast : ((applyTransferScanAppend (Rows.created "job")
      (appendFiles "a" "x" ["x/p", "x/q"])).toOption.any fun rows₀ =>
        (applyTransferScanAppend rows₀ (appendFiles "b" "x" ["x/q", "x/r"])).toOption.any
          fun rows₁ =>
            match applyTransferScanAppend rows₁ (appendFiles "b" "x" ["x/q", "x/r"]) with
            | .ok _ => false
            | .error e => e = "equivalent transfer batch entry_count mismatch: job_id=job " ++
              "batch_id=b root_relpath=x batch_kind=direct_files_only") = true := by
    decide +kernel
  obtain ⟨rows₀, hrows₀, hnext⟩ := (Option.any_eq_true _ _).1 hlast
  obtain ⟨rows₁, hrows₁, herror⟩ := (Option.any_eq_true _ _).1 hnext
  refine ⟨rows₀, rows₁, .single (.scanAppend (toOption_eq_some.1 hrows₀)),
    toOption_eq_some.1 hrows₁, ?_⟩
  split at herror
  · cases herror
  · next e he =>
    rw [he, of_decide_eq_true herror]
    rfl

end Fluxon.TransferJob
