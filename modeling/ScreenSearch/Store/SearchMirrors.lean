import ScreenSearch.Lib.Mirror
import ScreenSearch.Store.Memory
import ScreenSearch.Store.SearchTables

/-!
# The search indexes mirror the tables

The full-text indexes and the vector table follow the tables through every statement, and
so through every transaction, whether it commits or is rolled back.

Main results:

* `SearchOp.run_mirrored` — what a transaction keeps;
* `search_mirrors` — what every run of them leaves.
-/

namespace ScreenSearch.Store

open Mirror SearchTables

/-! ## The invariant -/

/-- The entry of a row in the index of one of its texts. -/
def ftsEntry (text : FrameTextRow → String) (row : FrameTextRow) : FtsEntry :=
  (row.frameId, text row)

def chunkKey (row : EmbeddingRow) : Int × Int := (row.frameId, row.chunkIndex)

/-- The vector of a row, by what was last stored for its chunk. -/
def vectorOf (latest : Int × Int → Option Embedding) (row : EmbeddingRow) : VectorRow where
  embeddingId := row.id
  embedding := f32Blob ((latest (chunkKey row)).getD [])

structure Mirrored (latest : Int × Int → Option Embedding) (db : SearchTables) : Prop where
  textKeys : (db.frameText.map FrameTextRow.frameId).Nodup
  content : Mirrors (ftsEntry FrameTextRow.contentText) db.frameText db.contentFts
  raw : Mirrors (ftsEntry FrameTextRow.rawText) db.frameText db.rawFts
  ids : (db.embeddings.map EmbeddingRow.id).Nodup
  chunks : (db.embeddings.map chunkKey).Nodup
  vectors : Mirrors (vectorOf latest) db.embeddings db.embeddingVectors
  stored : ∀ row ∈ db.embeddings, (latest (chunkKey row)).isSome

variable {latest : Int × Int → Option Embedding} {db db' : SearchTables}

theorem fresh_mirrored (uuid : String) : Mirrored latest (SearchTables.fresh uuid) := by
  have hText : (SearchTables.fresh uuid).frameText = [] := rfl
  refine ⟨?_, ?_, ?_, List.nodup_nil, List.nodup_nil, List.Perm.nil, fun _ hRow => by cases hRow⟩
  · rw [hText]
    exact List.nodup_nil
  · rw [hText]
    exact List.Perm.nil
  · rw [hText]
    exact List.Perm.nil

/-! ## Statements on frame_text -/

theorem frameTextOf_mem {tables : FrameTables} {frameId : Int} {row : FrameTextRow}
    (h : frameTextOf tables frameId = some row) :
    row ∈ tables.frameText ∧ row.frameId = frameId :=
  ⟨List.mem_of_find?_eq_some h, beq_iff_eq.mp (List.find?_some h :)⟩

theorem frameTextOf_none {tables : FrameTables} {frameId : Int}
    (h : frameTextOf tables frameId = none) : ∀ row ∈ tables.frameText, row.frameId ≠ frameId := by
  intro row hRow hEq
  exact List.find?_eq_none.mp h row hRow (beq_iff_eq.mpr hEq)

/-- An update in place, with its triggers. -/
theorem updateFrameText_mirrored (h : Mirrored latest db) {old new : FrameTextRow}
    (hOld : old ∈ db.frameText) (hSame : new.frameId = old.frameId) :
    Mirrored latest (updateFrameText old new db) where
  textKeys := by
    show ((db.frameText.map fun row => if row.frameId = new.frameId then new else row).map
      FrameTextRow.frameId).Nodup
    rw [replace_map h.textKeys hOld hSame hSame]
    exact h.textKeys
  content := h.content.update h.textKeys hOld hSame
  raw := h.raw.update h.textKeys hOld hSame
  ids := h.ids
  chunks := h.chunks
  vectors := h.vectors
  stored := h.stored

theorem upsertFrameText_mirrored (h : Mirrored latest db) {row : FrameTextRow}
    (hOk : db.upsertFrameText row = .ok db') : Mirrored latest db' := by
  unfold SearchTables.upsertFrameText Store.upsertFrameText at hOk
  split at hOk
  · cases hOk
  · cases hOk
    rcases hOld : frameTextOf db.toFrameTables row.frameId with - | old
    · have hNone := frameTextOf_none hOld
      have hAny : ¬ (db.frameText.any fun other => other.frameId == row.frameId) = true := by
        simpa using hNone
      rw [if_neg hAny]
      refine ⟨?_, h.content.insert row, h.raw.insert row, h.ids, h.chunks, h.vectors, h.stored⟩
      show ((db.frameText ++ [row]).map FrameTextRow.frameId).Nodup
      rw [List.map_append, List.map_singleton]
      refine List.nodup_append.mpr ⟨h.textKeys, List.nodup_singleton _, fun id hIn id' hNew => ?_⟩
      obtain ⟨other, hOther, rfl⟩ := List.mem_map.mp hIn
      rw [List.mem_singleton.mp hNew]
      exact hNone other hOther
    · obtain ⟨hMem, hId⟩ := frameTextOf_mem hOld
      have hAny : (db.frameText.any fun other => other.frameId == row.frameId) = true :=
        List.any_eq_true.mpr ⟨old, hMem, beq_iff_eq.mpr hId⟩
      rw [if_pos hAny]
      exact updateFrameText_mirrored h hMem hId.symm

/-! ## Statements on embeddings -/

theorem deleteEmbeddings_mirrored (h : Mirrored latest db) (isMatch : EmbeddingRow → Bool) :
    Mirrored latest (db.deleteEmbeddings isMatch) where
  textKeys := h.textKeys
  content := h.content
  raw := h.raw
  ids := h.ids.sublist (List.filter_sublist.map _)
  chunks := h.chunks.sublist (List.filter_sublist.map _)
  stored := fun row hRow => h.stored row (List.mem_of_mem_filter hRow)
  vectors := by
    refine h.vectors.filter _ _ fun row hRow => ?_
    -- an id is gone exactly when its row is
    have hGone : ((db.embeddings.filter isMatch).map EmbeddingRow.id).contains row.id =
        isMatch row := by
      rw [Bool.eq_iff_iff, List.contains_iff_mem]
      constructor
      · intro hIn
        obtain ⟨other, hOther, hId⟩ := List.mem_map.mp hIn
        obtain ⟨hMem, hMatch⟩ := List.mem_filter.mp hOther
        rwa [← List.inj_on_of_nodup_map h.ids hMem hRow hId]
      · exact fun hMatch => List.mem_map_of_mem (List.mem_filter.mpr ⟨hRow, hMatch⟩)
    show (!List.contains _ row.id) = _
    rw [hGone]

/-- The newest vector of one chunk, the others as they were. -/
def withLatest (key : Int × Int) (emb : Embedding) (latest : Int × Int → Option Embedding) :
    Int × Int → Option Embedding := fun other => if other = key then some emb else latest other

theorem vectorOf_withLatest {key : Int × Int} (emb : Embedding) {row : EmbeddingRow}
    (h : chunkKey row ≠ key) : vectorOf latest row = vectorOf (withLatest key emb latest) row := by
  unfold vectorOf withLatest
  rw [if_neg h]

theorem vectorOf_withLatest_self {emb : Embedding} {row : EmbeddingRow} :
    vectorOf (withLatest (chunkKey row) emb latest) row =
      { embeddingId := row.id, embedding := f32Blob emb } := by
  unfold vectorOf withLatest
  rw [if_pos rfl, Option.getD_some]

theorem insertVector_ok {row : VectorRow} (hOk : db.insertVector row = .ok db') :
    db' = { db with embeddingVectors := db.embeddingVectors ++ [row] } := by
  unfold insertVector at hOk
  split at hOk
  · cases hOk
  · cases hOk
    rfl

/-- A chunk that has a row keeps its id. -/
theorem updateEmbedding_mirrored (h : Mirrored latest db) {existing : EmbeddingRow}
    (hMem : existing ∈ db.embeddings) (chunkText : String) (source : ChunkSource) (model : String)
    (emb : Embedding) :
    Mirrored (withLatest (chunkKey existing) emb latest)
      { db with
        embeddings := db.embeddings.map fun row =>
          if row.id = existing.id then
            { row with chunkText := chunkText, source := source, model := model }
          else row
        embeddingVectors := (db.embeddingVectors.filter fun row => row.embeddingId ≠ existing.id) ++
          [{ embeddingId := existing.id, embedding := f32Blob emb }] } := by
  let new : EmbeddingRow := { existing with chunkText := chunkText, source := source, model := model }
  have hReplaced : (db.embeddings.map fun row =>
      if row.id = existing.id then
        { row with chunkText := chunkText, source := source, model := model }
      else row) = db.embeddings.map fun row => if row.id = new.id then new else row := by
    refine List.map_congr_left fun row hRow => ?_
    by_cases hId : row.id = existing.id
    · obtain rfl := List.inj_on_of_nodup_map h.ids hRow hMem hId
      simp only [if_true, new]
    · rw [if_neg hId, if_neg hId]
  have hPerm := replace_perm h.ids hMem (rfl : new.id = existing.id)
  have hKept : ∀ row ∈ db.embeddings.filter fun other => other.id ≠ existing.id,
      chunkKey row ≠ chunkKey existing := by
    intro row hRow hKey
    obtain ⟨hIn, hNe⟩ := List.mem_filter.mp hRow
    rw [decide_eq_true_eq] at hNe
    exact hNe (congrArg EmbeddingRow.id (List.inj_on_of_nodup_map h.chunks hIn hMem hKey))
  have hOthers := (h.vectors.filter (fun other => other.id ≠ existing.id)
    (fun row => row.embeddingId ≠ existing.id) fun _ _ => rfl).congr
      fun row hRow => vectorOf_withLatest emb (hKept row hRow)
  have hInserted := hOthers.insert new
  rw [show chunkKey existing = chunkKey new from rfl, vectorOf_withLatest_self] at hInserted
  rw [hReplaced]
  have hIds := replace_map h.ids hMem (rfl : new.id = existing.id) (f := EmbeddingRow.id) rfl
  have hChunks := replace_map h.ids hMem (rfl : new.id = existing.id) (f := chunkKey) rfl
  refine ⟨h.textKeys, h.content, h.raw, ?_, ?_, hInserted.trans (hPerm.map _).symm, ?_⟩
  · show (List.map EmbeddingRow.id _).Nodup
    rw [hIds]
    exact h.ids
  · show (List.map chunkKey _).Nodup
    rw [hChunks]
    exact h.chunks
  · intro row hRow
    have hIn : chunkKey row ∈ db.embeddings.map chunkKey := hChunks ▸ List.mem_map_of_mem hRow
    obtain ⟨other, hOther, hKey⟩ := List.mem_map.mp hIn
    unfold withLatest
    split
    · rfl
    · exact hKey ▸ h.stored other hOther

/-- A chunk without a row gets one, under an id that no vector has. -/
theorem insertEmbedding_mirrored (h : Mirrored latest db) {frameId chunkIndex : Int}
    (hKeys : ∀ row ∈ db.embeddings, chunkKey row ≠ (frameId, chunkIndex)) (chunkText : String)
    (source : ChunkSource) (model : String) (emb : Embedding) :
    Mirrored (withLatest (frameId, chunkIndex) emb latest)
      { db with
        embeddings := db.embeddings ++
          [{ id := nextRowid (db.embeddings.map EmbeddingRow.id)
             frameId := frameId
             chunkIndex := chunkIndex
             chunkText := chunkText
             source := source
             model := model }]
        embeddingVectors := db.embeddingVectors ++
          [{ embeddingId := nextRowid (db.embeddings.map EmbeddingRow.id)
             embedding := f32Blob emb }] } := by
  have hFresh := nextRowid_not_mem (db.embeddings.map EmbeddingRow.id)
  generalize nextRowid (db.embeddings.map EmbeddingRow.id) = id at hFresh ⊢
  let new : EmbeddingRow :=
    { id := id, frameId := frameId, chunkIndex := chunkIndex, chunkText := chunkText,
      source := source, model := model }
  have hInserted := (h.vectors.congr fun row hRow =>
    vectorOf_withLatest emb (hKeys row hRow)).insert new
  rw [show (frameId, chunkIndex) = chunkKey new from rfl, vectorOf_withLatest_self] at hInserted
  refine ⟨h.textKeys, h.content, h.raw, ?_, ?_, hInserted, ?_⟩
  · show ((db.embeddings ++ [new]).map EmbeddingRow.id).Nodup
    rw [List.map_append, List.map_singleton]
    refine List.nodup_append.mpr ⟨h.ids, List.nodup_singleton _, fun other hOther id' hNew => ?_⟩
    rw [List.mem_singleton.mp hNew]
    exact fun hEq => hFresh ((show other = id from hEq) ▸ hOther)
  · show ((db.embeddings ++ [new]).map chunkKey).Nodup
    rw [List.map_append, List.map_singleton]
    refine List.nodup_append.mpr ⟨h.chunks, List.nodup_singleton _, fun key hKey key' hNew => ?_⟩
    obtain ⟨row, hRow, rfl⟩ := List.mem_map.mp hKey
    rw [List.mem_singleton.mp hNew]
    exact hKeys row hRow
  · intro row hRow
    unfold withLatest
    split
    · rfl
    · next hOther =>
      rcases List.mem_append.mp hRow with hOld | hNew
      · exact h.stored row hOld
      · rw [List.mem_singleton.mp hNew] at hOther
        exact absurd rfl hOther

theorem upsertTextEmbedding_mirrored (h : Mirrored latest db) {frameId chunkIndex : Int}
    {chunkText : String} {source : ChunkSource} {emb : Embedding} {model : String}
    (hOk : db.upsertTextEmbedding frameId chunkIndex chunkText source emb model = .ok db') :
    Mirrored (withLatest (frameId, chunkIndex) emb latest) db' := by
  unfold upsertTextEmbedding at hOk
  split at hOk
  · cases hOk
  dsimp only at hOk
  rw [bind_ok] at hOk
  obtain ⟨⟨id, between⟩, hRow, hOk⟩ := hOk
  rw [insertVector_ok hOk]
  unfold upsertEmbeddingRow at hRow
  split at hRow
  · next existing hExisting =>
    cases hRow
    have hMem := List.mem_of_find?_eq_some hExisting
    have hKey : chunkKey existing = (frameId, chunkIndex) := by
      have hFound := List.find?_some hExisting
      rw [Bool.and_eq_true, beq_iff_eq, beq_iff_eq] at hFound
      exact Prod.ext hFound.1 hFound.2
    rw [← hKey]
    exact updateEmbedding_mirrored h hMem chunkText source model emb
  · next hNone =>
    split at hRow
    · cases hRow
    · cases hRow
      have hKeys : ∀ row ∈ db.embeddings, chunkKey row ≠ (frameId, chunkIndex) := by
        intro row hRow hKey
        have hFound := List.find?_eq_none.mp hNone row hRow
        rw [Bool.and_eq_true, beq_iff_eq, beq_iff_eq] at hFound
        exact hFound ⟨congrArg Prod.fst hKey, congrArg Prod.snd hKey⟩
      exact insertEmbedding_mirrored h hKeys chunkText source model emb

/-! ## Transactions -/

theorem replaceTextSpans_mirrored (h : Mirrored latest db) {frameId : Int} {spans : List TextSpan}
    (hOk : db.replaceTextSpans frameId spans = .ok db') : Mirrored latest db' := by
  unfold replaceTextSpans at hOk
  split at hOk
  · cases hOk
  · cases hOk
    exact ⟨h.textKeys, h.content, h.raw, h.ids, h.chunks, h.vectors, h.stored⟩

theorem insertJob_mirrored (h : Mirrored latest db) {job : NewJob} {clock : Int}
    (hOk : db.insertJob job clock = .ok db') : Mirrored latest db' := by
  unfold insertJob at hOk
  split at hOk
  · cases hOk
    exact ⟨h.textKeys, h.content, h.raw, h.ids, h.chunks, h.vectors, h.stored⟩
  · cases hOk

/-- A new frame has no text yet. -/
theorem insertFrame_ok {f : NewFrame} (hOk : db.insertFrame f = .ok db') :
    ∃ tables : FrameTables, db' = { db with toFrameTables := tables } ∧
      tables.frameText = db.frameText := by
  unfold SearchTables.insertFrame Store.insertFrame at hOk
  simp only [bind_ok] at hOk
  obtain ⟨⟨id, tables⟩, ⟨⟨id', allocated⟩, hAllocate, hFrame⟩, hOk⟩ := hOk
  cases hFrame
  cases hOk
  refine ⟨_, rfl, ?_⟩
  show allocated.frameText = db.frameText
  unfold allocateFrameId at hAllocate
  rw [bind_ok] at hAllocate
  obtain ⟨metadata, -, hAllocate⟩ := hAllocate
  dsimp only at hAllocate
  split at hAllocate
  · cases hAllocate
    rfl
  · cases hAllocate

theorem insertFrame_mirrored (h : Mirrored latest db) {f : NewFrame}
    (hOk : db.insertFrame f = .ok db') : Mirrored latest db' := by
  obtain ⟨tables, rfl, hText⟩ := insertFrame_ok hOk
  refine ⟨?_, ?_, ?_, h.ids, h.chunks, h.vectors, h.stored⟩
  · show (tables.frameText.map _).Nodup
    rw [hText]
    exact h.textKeys
  · show Mirrors _ tables.frameText _
    rw [hText]
    exact h.content
  · show Mirrors _ tables.frameText _
    rw [hText]
    exact h.raw

theorem insertOcr_mirrored (h : Mirrored latest db) {frameId : Int} {ocr : OcrResult}
    (hOk : db.insertOcr frameId ocr = .ok db') : Mirrored latest db' := by
  unfold insertOcr at hOk
  rw [bind_ok] at hOk
  obtain ⟨between, hText, hOk⟩ := hOk
  exact replaceTextSpans_mirrored (upsertFrameText_mirrored h hText) hOk

/-- The classified text is stored, then its spans, and the catalog counts what was seen. -/
theorem insertOcrFiltered_ok {textFilter : TextFilter} {frameId : Int} {ocr : OcrResult}
    {ctx : TextFilterContext} (hOk : db.insertOcrFiltered textFilter frameId ocr ctx = .ok db') :
    ∃ withText withSpans,
      SearchTables.upsertFrameText
        { frameId := frameId
          rawText := ocr.text
          contentText := (classified textFilter frameId ocr ctx db).contentText
          primarySource := primarySourceFor ocr.engine
          filterVersion := filterVersion
          suppressedCount := (classified textFilter frameId ocr ctx db).suppressedCount
          targetWindowTitle := (db.frameTargetContext frameId).2
          targetAppHint := (db.frameTargetContext frameId).1 } db = .ok withText ∧
      replaceTextSpans frameId (classified textFilter frameId ocr ctx db).spans withText =
        .ok withSpans ∧
      db' = { withSpans with
        chromeTextCatalog := (classified textFilter frameId ocr ctx db).observed.foldl
          (bumpCatalog (max ctx.chromeSuppressMinSeen 1)) withSpans.chromeTextCatalog } := by
  unfold insertOcrFiltered at hOk
  dsimp only at hOk
  rw [bind_ok] at hOk
  obtain ⟨withText, hText, hOk⟩ := hOk
  rw [bind_ok] at hOk
  obtain ⟨withSpans, hSpans, hOk⟩ := hOk
  cases hOk
  exact ⟨withText, withSpans, hText, hSpans, rfl⟩

theorem insertOcrFiltered_mirrored (textFilter : TextFilter) (h : Mirrored latest db)
    {frameId : Int} {ocr : OcrResult} {ctx : TextFilterContext}
    (hOk : db.insertOcrFiltered textFilter frameId ocr ctx = .ok db') : Mirrored latest db' := by
  obtain ⟨withText, withSpans, hText, hSpans, rfl⟩ := insertOcrFiltered_ok hOk
  have hMirrored := replaceTextSpans_mirrored (upsertFrameText_mirrored h hText) hSpans
  exact ⟨hMirrored.textKeys, hMirrored.content, hMirrored.raw, hMirrored.ids, hMirrored.chunks,
    hMirrored.vectors, hMirrored.stored⟩

theorem backfillFrame_mirrored (textFilter : TextFilter) {b : Backfill} (h : Mirrored latest db)
    {frameId : Int} (hOk : backfillFrame textFilter b db frameId = .ok db') :
    Mirrored latest db' := by
  unfold backfillFrame at hOk
  split at hOk
  · cases hOk
  next old hOld =>
  obtain ⟨hMem, -⟩ := frameTextOf_mem hOld
  dsimp only at hOk
  split at hOk
  · rw [bind_ok] at hOk
    obtain ⟨replaced, hSpans, hOk⟩ := hOk
    have hReplaced := replaceTextSpans_mirrored (updateFrameText_mirrored h hMem (by rfl)) hSpans
    have hDeleted := deleteEmbeddings_mirrored hReplaced
      fun row => row.frameId == frameId && row.source == .ocr
    split at hOk
    · exact insertJob_mirrored hDeleted hOk
    · cases hOk
      exact hDeleted
  · cases hOk
    exact updateFrameText_mirrored h hMem rfl

theorem backfillBatch_mirrored (textFilter : TextFilter) {b : Backfill} {batch : List Int}
    (h : Mirrored latest db) (hOk : db.backfillBatch textFilter b batch = .ok db') :
    Mirrored latest db' := by
  unfold backfillBatch at hOk
  induction batch generalizing db with
  | nil =>
    cases hOk
    exact h
  | cons frameId rest ih =>
    rw [List.foldlM_cons, bind_ok] at hOk
    obtain ⟨between, hFrame, hOk⟩ := hOk
    exact ih (backfillFrame_mirrored textFilter h hFrame) hOk

theorem degradeFrameToText_mirrored (textFilter : TextFilter) (h : Mirrored latest db)
    {frameId : Int} (hOk : db.degradeFrameToText textFilter frameId = .ok db') :
    Mirrored latest db' := by
  unfold degradeFrameToText at hOk
  rw [bind_ok] at hOk
  obtain ⟨merged, hSpans, hOk⟩ := hOk
  cases hOk
  have hMerged : Mirrored latest merged := by
    unfold mergeFrameSpans at hSpans
    dsimp only at hSpans
    split at hSpans
    · cases hSpans
      exact h
    · exact replaceTextSpans_mirrored h hSpans
  exact ⟨hMerged.textKeys, hMerged.content, hMerged.raw, hMerged.ids, hMerged.chunks,
    hMerged.vectors, hMerged.stored⟩

theorem insertVision_mirrored (h : Mirrored latest db) {frameId : Int} {v : VisionAnalysis}
    (hOk : db.insertVision frameId v = .ok db') : Mirrored latest db' := by
  unfold insertVision at hOk
  split at hOk
  · cases hOk
  · cases hOk
    exact ⟨h.textKeys, h.content, h.raw, h.ids, h.chunks, h.vectors, h.stored⟩

/-- The cascade takes the frame's text out of the indexes and its chunks' vectors with
them. -/
theorem deleteFrame_mirrored (h : Mirrored latest db) (frameId : Int) :
    Mirrored latest (db.deleteFrame frameId) := by
  have hDeleted := deleteEmbeddings_mirrored h fun row => row.frameId == frameId
  have hKeys : ((db.frameText.filter fun row => row.frameId ≠ frameId).map
      FrameTextRow.frameId).Nodup := h.textKeys.sublist (List.filter_sublist.map _)
  unfold SearchTables.deleteFrame
  dsimp only
  rcases hOld : frameTextOf db.toFrameTables frameId with - | old
  · have hKept : db.frameText.filter (fun row => row.frameId ≠ frameId) = db.frameText :=
      List.filter_eq_self.mpr fun row hRow => decide_eq_true (frameTextOf_none hOld row hRow)
    refine ⟨hKeys, ?_, ?_, hDeleted.ids, hDeleted.chunks, hDeleted.vectors, hDeleted.stored⟩
    · show Mirrors _ (db.frameText.filter fun row => row.frameId ≠ frameId) db.contentFts
      rw [hKept]
      exact h.content
    · show Mirrors _ (db.frameText.filter fun row => row.frameId ≠ frameId) db.rawFts
      rw [hKept]
      exact h.raw
  · obtain ⟨hMem, rfl⟩ := frameTextOf_mem hOld
    exact ⟨hKeys, h.content.delete h.textKeys hMem, h.raw.delete h.textKeys hMem, hDeleted.ids,
      hDeleted.chunks, hDeleted.vectors, hDeleted.stored⟩

/-! ## Runs -/

/-- What was last stored for each chunk, after one more call. -/
def SearchOp.latestAfter (latest : Int × Int → Option Embedding) :
    SearchOp → Int × Int → Option Embedding
  | .upsertTextEmbedding frameId chunkIndex _ _ emb _ => withLatest (frameId, chunkIndex) emb latest
  | _ => latest

/-- What a transaction keeps. -/
theorem SearchOp.run_mirrored (textFilter : TextFilter) {op : SearchOp} (h : Mirrored latest db)
    (hOk : op.run textFilter db = .ok db') : Mirrored (op.latestAfter latest) db' := by
  cases op with
  | insertFrame f => exact insertFrame_mirrored h hOk
  | insertOcr frameId ocr => exact insertOcr_mirrored h hOk
  | insertOcrFiltered frameId ocr ctx => exact insertOcrFiltered_mirrored textFilter h hOk
  | backfillBatch b batch => exact backfillBatch_mirrored textFilter h hOk
  | degradeFrameToText frameId => exact degradeFrameToText_mirrored textFilter h hOk
  | insertVision frameId v => exact insertVision_mirrored h hOk
  | upsertTextEmbedding frameId chunkIndex chunkText source emb model =>
    exact upsertTextEmbedding_mirrored h hOk
  | deleteFrame frameId =>
    cases hOk
    exact deleteFrame_mirrored h frameId

/-- A call, and whether one of its statements fails for a reason of its own. -/
structure SearchStep where
  op : SearchOp
  broken : Bool

/-- The tables, and the calls that took effect, the newest first. -/
structure SearchRun where
  db : SearchTables
  committed : List SearchOp

/-- A transaction that fails is rolled back. -/
def SearchRun.step (textFilter : TextFilter) (r : SearchRun) (s : SearchStep) : SearchRun :=
  if s.broken then r
  else
    match s.op.run textFilter r.db with
    | .ok db => { db := db, committed := s.op :: r.committed }
    | .error _ => r

def searchRun (textFilter : TextFilter) (uuid : String) (steps : List SearchStep) : SearchRun :=
  steps.foldl (SearchRun.step textFilter) { db := SearchTables.fresh uuid, committed := [] }

/-- The vector of the newest upsert of a chunk. -/
def latestUpsert (committed : List SearchOp) (key : Int × Int) : Option Embedding :=
  match committed with
  | [] => none
  | .upsertTextEmbedding frameId chunkIndex _ _ emb _ :: rest =>
    if key = (frameId, chunkIndex) then some emb else latestUpsert rest key
  | _ :: rest => latestUpsert rest key

theorem latestUpsert_cons (op : SearchOp) (committed : List SearchOp) :
    latestUpsert (op :: committed) = op.latestAfter (latestUpsert committed) := by
  funext key
  cases op <;> rfl

theorem searchRun_mirrored (textFilter : TextFilter) (uuid : String) (steps : List SearchStep) :
    Mirrored (latestUpsert (searchRun textFilter uuid steps).committed)
      (searchRun textFilter uuid steps).db := by
  unfold searchRun
  have hStart : Mirrored (latestUpsert []) (SearchTables.fresh uuid) := fresh_mirrored uuid
  generalize hRun : ({ db := SearchTables.fresh uuid, committed := [] } : SearchRun) = r
  have hGood : Mirrored (latestUpsert r.committed) r.db := hRun ▸ hStart
  clear hRun hStart
  induction steps generalizing r with
  | nil => exact hGood
  | cons s steps ih =>
    rw [List.foldl_cons]
    refine ih _ ?_
    unfold SearchRun.step
    split
    · exact hGood
    · split
      · next db hOk =>
        show Mirrored (latestUpsert (s.op :: r.committed)) db
        rw [latestUpsert_cons]
        exact SearchOp.run_mirrored textFilter hGood hOk
      · exact hGood

/-- An index holds, for each row, the row's text and nothing else. -/
def IndexOf (text : FrameTextRow → String) (rows : List FrameTextRow) (index : List FtsEntry) :
    Prop :=
  (∀ row ∈ rows, index.filter (fun e => e.1 = row.frameId) = [(row.frameId, text row)]) ∧
    ∀ e ∈ index, ∃ row ∈ rows, row.frameId = e.1

theorem Mirrored.indexOf {text : FrameTextRow → String} {rows : List FrameTextRow}
    {index : List FtsEntry} (h : Mirrors (ftsEntry text) rows index)
    (hKeys : (rows.map FrameTextRow.frameId).Nodup) : IndexOf text rows index := by
  refine ⟨fun row hRow => h.of_key hKeys Prod.fst (fun _ _ => rfl) hRow, ?_⟩
  intro e he
  obtain ⟨row, hRow, rfl⟩ := h.exists_row he
  exact ⟨row, hRow, rfl⟩

/-- **The indexes mirror the tables**, whatever calls are made and whichever of them
fail: each index has exactly one entry for each text, and it is the text as it is; each
embedding has exactly one vector, and it is the one that was last stored for its chunk. -/
theorem search_mirrors (textFilter : TextFilter) (uuid : String) (steps : List SearchStep) :
    let r := searchRun textFilter uuid steps
    (r.db.frameText.map FrameTextRow.frameId).Nodup ∧
    IndexOf FrameTextRow.contentText r.db.frameText r.db.contentFts ∧
    IndexOf FrameTextRow.rawText r.db.frameText r.db.rawFts ∧
    (∀ row ∈ r.db.embeddings, ∃ emb,
      latestUpsert r.committed (row.frameId, row.chunkIndex) = some emb ∧
      r.db.embeddingVectors.filter (fun v => v.embeddingId = row.id) =
        [{ embeddingId := row.id, embedding := f32Blob emb }]) ∧
    ∀ v ∈ r.db.embeddingVectors, ∃ row ∈ r.db.embeddings, row.id = v.embeddingId := by
  intro r
  have h := searchRun_mirrored textFilter uuid steps
  refine ⟨h.textKeys, Mirrored.indexOf h.content h.textKeys, Mirrored.indexOf h.raw h.textKeys,
    fun row hRow => ?_, fun v hv => ?_⟩
  · obtain ⟨emb, hEmb⟩ := Option.isSome_iff_exists.mp (h.stored row hRow)
    refine ⟨emb, hEmb, ?_⟩
    have hOne := h.vectors.of_key h.ids VectorRow.embeddingId (fun _ _ => rfl) hRow
    rw [hOne, vectorOf, hEmb, Option.getD_some]
  · obtain ⟨row, hRow, rfl⟩ := h.vectors.exists_row hv
    exact ⟨row, hRow, rfl⟩

end ScreenSearch.Store
