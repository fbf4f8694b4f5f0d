import Fluxon.TransferJob.Replay

/-!
# Scan results in chunks

The gateway applies a scan result in transactions of at most 32 batches. All chunks but the last are
appended. They leave the rows that the whole result leaves (`chunked_scan_eq`).
-/

namespace Fluxon.TransferJob

open List

variable {Blob α : Type} {result last : ScanResult Blob} {init : List (ScanResult Blob)}

/-- `slice::chunks(TRANSFER_SCAN_STORE_BATCH_CHUNK_LIMIT)`. -/
def chunks : List α → List (List α)
  | [] => []
  | a :: as => (a :: as).take 32 :: chunks ((a :: as).drop 32)
termination_by as => as.length

section

variable (result : ScanResult Blob)

/-- `build_scan_store_chunk`. -/
def buildScanStoreChunk (direct full : List (BatchWire Blob))
    (units : List ChildScanUnit) : ScanResult Blob :=
  { result with
    directFilesOnlyBatches := direct, childScanUnits := units, fullDirBatches := full }

@[simp]
theorem batches_buildScanStoreChunk (direct full units) :
    (buildScanStoreChunk result direct full units).batches = direct ++ full :=
  rfl

/-- `split_scan_store_apply_chunks`. -/
def splitScanStoreApplyChunks (keepLast : Bool) :
    List (ScanResult Blob) × Option (ScanResult Blob) :=
  if result.batches.length = 0 then
    if keepLast then ([], some result) else ([result], none)
  else
    let all := (chunks result.directFilesOnlyBatches).map (buildScanStoreChunk result · [] []) ++
      (chunks result.fullDirBatches).map (buildScanStoreChunk result [] · [])
    if keepLast then
      (all.dropLast, all.getLast?.map fun chunk =>
        { chunk with childScanUnits := result.childScanUnits })
    else (all, none)

end

theorem flatten_chunks (as : List α) : (chunks as).flatten = as := by
  fun_induction chunks as with
  | case1 => rfl
  | case2 a as ih => rw [flatten_cons, ih, take_append_drop]

theorem length_le_of_mem_chunks {as c : List α} (hc : c ∈ chunks as) : c.length ≤ 32 := by
  fun_induction chunks as with
  | case1 => cases hc
  | case2 a as ih =>
    rcases mem_cons.1 hc with rfl | hc
    · exact length_take_le _ _
    · exact ih hc

/-- A split into `init` and `last`, as the store applies it. -/
structure Chunked (result : ScanResult Blob) (listed : Bool) (init : List (ScanResult Blob))
    (last : ScanResult Blob) : Prop where
  split_eq : splitScanStoreApplyChunks result listed =
    if listed then (init, some last) else (init ++ [last], none)
  batches_eq : ((init ++ [last]).map ScanResult.batches).flatten = result.batches
  init_eq : ∀ c ∈ init, c.batches.length ≤ 32 ∧
    ∃ direct full, c = buildScanStoreChunk result direct full []
  last_eq : last.batches.length ≤ 32 ∧ ∃ direct full units,
    last = buildScanStoreChunk result direct full units ∧
      (listed = true → units = result.childScanUnits)

theorem chunked (result : ScanResult Blob) (listed : Bool) :
    ∃ init last, Chunked result listed init last := by
  by_cases hnil : result.batches.length = 0
  · refine ⟨[], result, ?_, by simp, by simp, by omega, _, _, _, rfl, fun _ => rfl⟩
    rw [splitScanStoreApplyChunks, if_pos hnil]
    rfl
  have hsplit := splitScanStoreApplyChunks.eq_1 result listed
  rw [if_neg hnil] at hsplit
  generalize hall : map _ (chunks result.directFilesOnlyBatches) ++ _ = all at hsplit
  have hbatches : (all.map ScanResult.batches).flatten = result.batches := by
    simp [← hall, Function.comp_def, flatten_chunks, ← ScanResult.batches.eq_1]
  have hchunk : ∀ c ∈ all, c.batches.length ≤ 32 ∧
      ∃ direct full, c = buildScanStoreChunk result direct full [] := by
    intro c hc
    rw [← hall, mem_append, mem_map, mem_map] at hc
    rcases hc with ⟨batches, hb, rfl⟩ | ⟨batches, hb, rfl⟩ <;>
      exact ⟨by simpa using length_le_of_mem_chunks hb, _, _, rfl⟩
  obtain ⟨init, last, rfl⟩ : ∃ init last, all = init ++ [last] := by
    rcases eq_nil_or_concat all with rfl | h
    · simp [← hbatches] at hnil
    · simpa using h
  rw [forall_mem_append, forall_mem_singleton] at hchunk
  obtain ⟨hinit, hlast, direct, full, rfl⟩ := hchunk
  cases listed with
  | false => exact ⟨init, _, hsplit, hbatches, hinit, hlast, direct, full, [], rfl, by simp⟩
  | true =>
    exact ⟨init, buildScanStoreChunk result direct full result.childScanUnits,
      by simpa [buildScanStoreChunk] using hsplit, by simpa using hbatches, hinit, hlast,
      direct, full, _, rfl, fun _ => rfl⟩

variable [DecidableEq Blob] [NoticeCodec Blob] {rows rows' : Rows Blob} {listed : Bool}

/-- `GatewayState::apply_transfer_scan_result`, and `apply_transfer_scan_append` for a result that
is not `listed`. -/
def applyScanChunks (listed : Bool) (rows : Rows Blob) (result : ScanResult Blob) :
    Except String (Rows Blob) := do
  let (chunks, final) := splitScanStoreApplyChunks result listed
  let rows' ← chunks.foldlM applyTransferScanAppend rows
  match final with
  | none => return rows'
  | some chunk => applyTransferScanResult rows' chunk

theorem applyBatches_job {batches : List (BatchWire Blob)}
    (h : batches.foldlM applyBatch rows = .ok rows') :
    rows'.job.scanEpoch = rows.job.scanEpoch ∧ rows'.job.state = rows.job.state ∧
      rows'.job.lastError = rows.job.lastError := by
  refine applyBatches_invariant (P := fun _ => True) (I := fun r =>
    r.job.scanEpoch = rows.job.scanEpoch ∧ r.job.state = rows.job.state ∧
      r.job.lastError = rows.job.lastError) ?_ (fun _ _ => trivial) ⟨rfl, rfl, rfl⟩ h
  intro _ _ _ _ ⟨hepoch, hstate, herror⟩ hb
  obtain ⟨root, stats, rows₂, -, hins, rfl⟩ := applyBatch_cases hb
  obtain ⟨hepoch', hstate', herror'⟩ := hins.job
  exact ⟨hepoch'.trans hepoch, hstate'.trans hstate, herror'.trans herror⟩

/-- Appended chunks insert their batches one after the other. -/
theorem foldlM_scanAppend {cs : List (ScanResult Blob)} (hrunning : rows.job.state = .running)
    (hepoch : ∀ c ∈ cs, rows.job.scanEpoch = c.scanEpoch)
    (h : (cs.map ScanResult.batches).flatten.foldlM applyBatch
      { rows with job := { rows.job with lastError := "" } } = .ok rows') :
    ∃ rows₁, cs.foldlM applyTransferScanAppend rows = .ok rows₁ ∧
      { rows₁ with job := { rows₁.job with lastError := "" } } = rows' ∧
      rows₁.job.state = .running ∧ rows₁.job.scanEpoch = rows.job.scanEpoch := by
  induction cs generalizing rows with
  | nil => exact ⟨rows, rfl, Except.ok.inj h, hrunning, rfl⟩
  | cons c cs ih =>
    rw [map_cons, flatten_cons, foldlM_append] at h
    obtain ⟨rows₂, hc, h⟩ := bind_eq_ok.1 h
    obtain ⟨hepoch₂, hstate₂, herror⟩ := applyBatches_job hc
    rw [← clear_eq herror] at h
    obtain ⟨rows₁, hcs, hclear, hrunning₁, hepoch₁⟩ := ih (hstate₂.trans hrunning)
      (fun c' hc' => hepoch₂.trans (hepoch c' (mem_cons_of_mem _ hc'))) h
    refine ⟨rows₁, ?_, hclear, hrunning₁, hepoch₁.trans hepoch₂⟩
    rw [foldlM_cons]
    exact bind_eq_ok.2 ⟨rows₂, (applyTransferScanAppend_running hrunning
      (hepoch c mem_cons_self)).trans hc, hcs⟩

theorem foldlM_scanAppend_ended (cs : List (ScanResult Blob))
    (h : rows.job.state = .stopping ∨ rows.job.state = .cancelled) :
    cs.foldlM applyTransferScanAppend rows = .ok rows := by
  induction cs with
  | nil => rfl
  | cons c cs ih =>
    rw [foldlM_cons]
    exact bind_eq_ok.2 ⟨rows, if_pos h, ih⟩

theorem Chunked.applyScanChunks_eq (h : Chunked result listed init last) :
    applyScanChunks listed rows result =
      init.foldlM applyTransferScanAppend rows >>= fun rows => applyScan listed rows last := by
  rw [applyScanChunks, h.split_eq]
  cases listed with
  | false => simp [foldlM_append, applyScan]
  | true => rfl

/-- The last chunk is applied as the result would be. -/
theorem Chunked.applyScan_last {rows₀ : Rows Blob} (h : Chunked result listed init last)
    (hrunning : rows.job.state = .running) (hepoch : rows.job.scanEpoch = rows₀.job.scanEpoch)
    (hrunning₀ : rows₀.job.state = .running) (hepoch₀ : rows₀.job.scanEpoch = result.scanEpoch)
    (hbatches : applyTransferScanBatches rows last = applyTransferScanBatches rows₀ result) :
    applyScan listed rows last = applyScan listed rows₀ result := by
  obtain ⟨-, direct, full, units, rfl, hunits⟩ := h.last_eq
  replace hepoch : _ = (buildScanStoreChunk result direct full units).scanEpoch :=
    hepoch.trans hepoch₀
  cases listed with
  | false =>
    exact (applyTransferScanAppend_running hrunning hepoch).trans
      (hbatches.trans (applyTransferScanAppend_running hrunning₀ hepoch₀).symm)
  | true =>
    cases hunits rfl
    refine (applyTransferScanResult_running hrunning hepoch).trans ?_
    rw [hbatches]
    exact (applyTransferScanResult_running hrunning₀ hepoch₀).symm

/-- **Chunks are applied as one result.** Every scan result is split into chunks of at most 32
batches with its batches in order, of which only the last has the child units. In every state in
which the result can be applied, applying the chunks leaves the rows that it leaves. -/
theorem chunked_scan_eq (result : ScanResult Blob) (listed : Bool) :
    ∃ init last, Chunked result listed init last ∧
      ∀ rows rows', applyScan listed rows result = .ok rows' →
        applyScanChunks listed rows result = .ok rows' := by
  obtain ⟨init, last, h⟩ := chunked result listed
  refine ⟨init, last, h, fun rows rows' happly => ?_⟩
  rw [h.applyScanChunks_eq]
  rcases applyScan_cases happly with ⟨hended, rfl⟩ | ⟨rows₂, hrunning, hepoch, hbatches, -⟩
  · exact bind_eq_ok.2 ⟨_, foldlM_scanAppend_ended init hended, applyScan_ended last hended⟩
  have hall := hbatches
  rw [applyTransferScanBatches, ← h.batches_eq, map_append, flatten_append,
    foldlM_append] at hbatches
  obtain ⟨rows₃, hinit, hlast⟩ := bind_eq_ok.1 hbatches
  have hepochs : ∀ c ∈ init, rows.job.scanEpoch = c.scanEpoch := by
    intro c hc
    obtain ⟨-, _, _, rfl⟩ := h.init_eq c hc
    exact hepoch
  obtain ⟨rows₁, hcs, rfl, hrunning₁, hepoch₁⟩ := foldlM_scanAppend hrunning hepochs hinit
  refine bind_eq_ok.2 ⟨rows₁, hcs,
    (h.applyScan_last hrunning₁ hepoch₁ hrunning hepoch ?_).trans happly⟩
  rw [hall, applyTransferScanBatches, ← hlast, map_singleton, flatten_singleton]

end Fluxon.TransferJob
