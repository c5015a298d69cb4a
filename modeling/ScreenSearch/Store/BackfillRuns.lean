import ScreenSearch.Store.FilterBackfill
import ScreenSearch.TextFilter.Classify

/-!
# Runs of the filter backfill

Frame ids are never given out again and a text of this filter is written once, so what was
listed and is still to be processed keeps its text as long as its frame, and no later call
lists what an earlier one has processed.

Main results:

* `step_backfillInv` — what every step keeps;
* `backfill_completes` — a run of calls does what it is for, if and only if no frame of a batch
  has lost its text.
-/

namespace ScreenSearch.Store

open SearchTables

/-! ## The calls beside the pass -/

variable (textFilter : TextFilter) {db db' : SearchTables} {frameId : Int}
variable {metadata metadata' : HistoryMetadata} {s : BackfillState}

/-- The tables under their constraints. -/
structure Framed (db : SearchTables) (metadata : HistoryMetadata) : Prop where
  wellFormed : db.WellFormed metadata
  rows : (db.frameText.map FrameTextRow.frameId).Nodup
  framed : ∀ row ∈ db.frameText, db.hasFrame row.frameId = true

/-- No frame comes back, a new text is the first of its frame and of this filter, and the
others go with their frame only. -/
structure Beside (db db' : SearchTables) (metadata metadata' : HistoryMetadata) : Prop where
  after : Framed db' metadata'
  highWater : metadata.frameIdHighWater ≤ metadata'.frameIdHighWater
  back : ∀ frameId : Int, frameId ≤ metadata.frameIdHighWater → db'.hasFrame frameId = true →
    db.hasFrame frameId = true
  texts : ∀ row ∈ db'.frameText, row ∈ db.frameText ∨ filterVersion ≤ row.filterVersion ∧
    db.hasFrame row.frameId = true ∧ row.frameId ∉ db.frameText.map FrameTextRow.frameId
  kept : ∀ row ∈ db.frameText, db'.hasFrame row.frameId = true → row ∈ db'.frameText

theorem hasFrame_le (h : Framed db metadata) (hFrame : db.hasFrame frameId = true) :
    frameId ≤ metadata.frameIdHighWater := by
  obtain ⟨frame, hMem, rfl⟩ := hasFrame_iff.mp hFrame
  exact h.wellFormed.ids_le frame hMem

/-- A call that changes no frame and no text. -/
theorem beside_of_tables (h : Framed db metadata)
    (hId : db'.historyId = db.historyId) (hAllocator : db'.frameIdHighWater = db.frameIdHighWater)
    (hFrames : db'.frames.map StoredFrame.id = db.frames.map StoredFrame.id)
    (hText : db'.frameText = db.frameText) : Beside db db' metadata metadata := by
  have hHas : ∀ frameId, db'.hasFrame frameId = true ↔ db.hasFrame frameId = true := by
    intro frameId
    rw [hasFrame_iff, hasFrame_iff, ← List.mem_map, ← List.mem_map, hFrames]
  have hFrame : ∀ frame ∈ db'.frames, ∃ old ∈ db.frames, old.id = frame.id := by
    intro frame hMem
    rw [← List.mem_map, ← hFrames]
    exact List.mem_map_of_mem hMem
  refine ⟨⟨⟨?_, h.wellFormed.valid, ?_, ?_, ?_, ?_⟩, ?_, ?_⟩, le_rfl, ?_, ?_, ?_⟩
  · exact hId.trans h.wellFormed.historyId
  · rw [hAllocator]
    exact h.wellFormed.allocator
  · rw [hFrames]
    exact h.wellFormed.ids_nodup
  · intro frame hMem
    obtain ⟨old, hOld, hSame⟩ := hFrame frame hMem
    exact hSame ▸ h.wellFormed.ids_pos old hOld
  · intro frame hMem
    obtain ⟨old, hOld, hSame⟩ := hFrame frame hMem
    exact hSame ▸ h.wellFormed.ids_le old hOld
  · rw [hText]
    exact h.rows
  · intro row hRow
    exact (hHas _).mpr (h.framed row (hText ▸ hRow))
  · exact fun frameId _ hFrame => (hHas frameId).mp hFrame
  · exact fun row hRow => .inl (hText ▸ hRow)
  · exact fun row hRow _ => hText ▸ hRow

theorem insertFrame_beside (h : Framed db metadata) {f : NewFrame}
    (hOk : db.insertFrame f = .ok db') : ∃ metadata', Beside db db' metadata metadata' := by
  unfold SearchTables.insertFrame at hOk
  rw [bind_ok] at hOk
  obtain ⟨⟨id, tables⟩, hInsert, hOk⟩ := hOk
  cases hOk
  obtain ⟨hId, hWell, frame, hFrame, -, hFrames, hText⟩ := insertFrame_fresh h.wellFormed hInsert
  have hHas : ∀ frameId, ({ db with toFrameTables := tables } : SearchTables).hasFrame frameId =
      true → db.hasFrame frameId = true ∨ frameId = metadata.frameIdHighWater + 1 := by
    intro frameId hHas
    obtain ⟨other, hMem, rfl⟩ := hasFrame_iff.mp hHas
    have hMem' : other ∈ tables.frames := hMem
    rw [hFrames] at hMem'
    rcases List.mem_append.mp hMem' with hOld | hNew
    · exact .inl (hasFrame_iff.mpr ⟨other, hOld, rfl⟩)
    · rw [List.mem_singleton.mp hNew, hFrame, hId]
      exact .inr rfl
  refine ⟨_, ⟨hWell, ?_, ?_⟩, Nat.le_succ _, ?_, ?_, ?_⟩
  · show (tables.frameText.map _).Nodup
    rw [hText]
    exact h.rows
  · intro row hRow
    have hRow' : row ∈ tables.frameText := hRow
    rw [hText] at hRow'
    obtain ⟨old, hOld, hSame⟩ := hasFrame_iff.mp (h.framed row hRow')
    refine hasFrame_iff.mpr ⟨old, ?_, hSame⟩
    show old ∈ tables.frames
    rw [hFrames]
    exact List.mem_append_left _ hOld
  · intro frameId hLe hFrame
    rcases hHas frameId hFrame with hOld | rfl
    · exact hOld
    · omega
  · intro row hRow
    have hRow' : row ∈ tables.frameText := hRow
    rw [hText] at hRow'
    exact .inl hRow'
  · intro row hRow _
    show row ∈ tables.frameText
    rw [hText]
    exact hRow

theorem classify_beside (h : Framed db metadata) {ocr : OcrResult} {ctx : TextFilterContext}
    (hNone : (frameTextOf db.toFrameTables frameId).isSome ≠ true)
    (hOk : db.insertOcrFiltered textFilter frameId ocr ctx = .ok db') :
    Beside db db' metadata metadata := by
  have hNew : frameId ∉ db.frameText.map FrameTextRow.frameId :=
    fun hIn => hNone (frameTextOf_isSome_iff.mpr hIn)
  have hAny : ¬ (db.frameText.any fun other => other.frameId == frameId) = true := by
    rw [List.any_eq_true]
    rintro ⟨other, hMem, hSame⟩
    exact hNew (List.mem_map.mpr ⟨other, hMem, beq_iff_eq.mp hSame⟩)
  obtain ⟨withText, withSpans, hText, hSpans, rfl⟩ := insertOcrFiltered_ok hOk
  obtain ⟨spans, rfl⟩ := replaceTextSpans_ok hSpans
  unfold SearchTables.upsertFrameText Store.upsertFrameText at hText
  split at hText
  · cases hText
  next hFrame =>
  cases hText
  have hFrame := not_not.mp hFrame
  refine ⟨⟨⟨h.wellFormed.historyId, h.wellFormed.valid, h.wellFormed.allocator,
    h.wellFormed.ids_nodup, h.wellFormed.ids_pos, h.wellFormed.ids_le⟩, ?_, ?_⟩, le_rfl, fun _ _ hHas => hHas, ?_, ?_⟩
  · show ((db.frameText ++ [_]).map FrameTextRow.frameId).Nodup
    rw [List.map_append, List.map_singleton]
    refine List.nodup_append.mpr ⟨h.rows, List.nodup_singleton _, fun id hOld id' hLast hSame => ?_⟩
    have hId : id = frameId := hSame.trans (List.mem_singleton.mp hLast)
    exact hNew (hId ▸ hOld)
  · intro row hRow
    rcases List.mem_append.mp hRow with hOld | hLast
    · exact h.framed row hOld
    · rw [List.mem_singleton.mp hLast]
      exact hFrame
  · intro row hRow
    rcases List.mem_append.mp hRow with hOld | hLast
    · exact .inl hOld
    · rw [List.mem_singleton.mp hLast]
      exact .inr ⟨le_rfl, hFrame, hNew⟩
  · exact fun row hRow _ => List.mem_append_left _ hRow

theorem deleteFrame_beside (h : Framed db metadata) (frameId : Int) :
    Beside db (db.deleteFrame frameId) metadata metadata := by
  have hHas : ∀ other, (db.deleteFrame frameId).hasFrame other = true ↔
      db.hasFrame other = true ∧ other ≠ frameId := by
    intro other
    rw [hasFrame_iff, hasFrame_iff]
    constructor
    · rintro ⟨frame, hMem, rfl⟩
      obtain ⟨hOld, hOther⟩ := List.mem_filter.mp hMem
      exact ⟨⟨frame, hOld, rfl⟩, of_decide_eq_true hOther⟩
    · rintro ⟨⟨frame, hMem, rfl⟩, hOther⟩
      exact ⟨frame, List.mem_filter.mpr ⟨hMem, decide_eq_true hOther⟩, rfl⟩
  refine ⟨⟨deleteFrame_wellFormed h.wellFormed frameId, ?_, ?_⟩, le_rfl, ?_, ?_, ?_⟩
  · exact h.rows.sublist (List.filter_sublist.map _)
  · intro row hRow
    obtain ⟨hOld, hOther⟩ := List.mem_filter.mp hRow
    exact (hHas _).mpr ⟨h.framed row hOld, of_decide_eq_true hOther⟩
  · exact fun other _ hFrame => ((hHas other).mp hFrame).1
  · exact fun row hRow => .inl (List.mem_of_mem_filter hRow)
  · intro row hRow hFrame
    exact List.mem_filter.mpr ⟨hRow, decide_eq_true ((hHas _).mp hFrame).2⟩

theorem degradeFrameToText_beside (h : Framed db metadata)
    (hOk : db.degradeFrameToText textFilter frameId = .ok db') :
    Beside db db' metadata metadata := by
  unfold degradeFrameToText at hOk
  rw [bind_ok] at hOk
  obtain ⟨merged, hSpans, hOk⟩ := hOk
  cases hOk
  have hMerged : ∃ rows, merged = { db with textSpans := rows } := by
    unfold mergeFrameSpans at hSpans
    dsimp only at hSpans
    split at hSpans
    · cases hSpans
      exact ⟨_, rfl⟩
    · exact replaceTextSpans_ok hSpans
  obtain ⟨rows, rfl⟩ := hMerged
  refine beside_of_tables h rfl rfl ?_ rfl
  show (db.frames.map _).map StoredFrame.id = _
  rw [List.map_map]
  refine List.map_congr_left fun frame _ => ?_
  show (if frame.id = frameId then { frame with imagePurged := true } else frame).id = frame.id
  split <;> rfl

/-! ## What every step keeps -/

structure BackfillState.Inv (s : BackfillState) (metadata : HistoryMetadata) : Prop where
  framed : Framed s.db metadata
  sound : s.watermark = some filterVersion → ∀ row ∈ s.db.frameText, filterVersion ≤ row.filterVersion
  nodup : ∀ pass ∈ s.pass, pass.remaining.Nodup
  /-- What is still to be processed has not been, and keeps its text as long as its frame. -/
  remaining : ∀ pass ∈ s.pass, ∀ frameId ∈ pass.remaining,
    frameId ≤ metadata.frameIdHighWater ∧ frameId ∉ s.processed ∧
      (s.db.hasFrame frameId = true → frameId ∈ s.db.frameText.map FrameTextRow.frameId) ∧
      ∀ row ∈ s.db.frameText, row.frameId = frameId → row.filterVersion < filterVersion
  listed : ∀ pass ∈ s.pass, ∀ row ∈ s.db.frameText, row.filterVersion < filterVersion →
    row.frameId ∈ pass.remaining
  done : ∀ frameId ∈ s.processed, frameId ≤ metadata.frameIdHighWater ∧
    ∀ row ∈ s.db.frameText, row.frameId = frameId → filterVersion ≤ row.filterVersion
  once : s.processed.Nodup
  marked : ∀ n, .ok n ∈ s.returns → s.watermark = some filterVersion

/-- What one step leaves of the frames and of the texts of this filter. -/
structure Spares (db db' : SearchTables) (metadata metadata' : HistoryMetadata) : Prop where
  highWater : metadata.frameIdHighWater ≤ metadata'.frameIdHighWater
  back : ∀ frameId : Int, frameId ≤ metadata.frameIdHighWater → db'.hasFrame frameId = true →
    db.hasFrame frameId = true
  kept : ∀ row ∈ db.frameText, filterVersion ≤ row.filterVersion →
    db'.hasFrame row.frameId = true → row ∈ db'.frameText

theorem Spares.refl (db : SearchTables) (metadata : HistoryMetadata) :
    Spares db db metadata metadata :=
  ⟨le_rfl, fun _ _ hFrame => hFrame, fun _ hRow _ _ => hRow⟩

theorem beside_inv (h : s.Inv metadata) (hBeside : Beside s.db db' metadata metadata') :
    ({ s with db := db' } : BackfillState).Inv metadata' where
  framed := hBeside.after
  sound := by
    intro hMark row hRow
    rcases hBeside.texts row hRow with hOld | ⟨hVersion, -⟩
    · exact h.sound hMark row hOld
    · exact hVersion
  nodup := h.nodup
  remaining := by
    intro pass hPass frameId hMem
    obtain ⟨hLe, hNot, hText, hVersion⟩ := h.remaining pass hPass frameId hMem
    have hHigh := hBeside.highWater
    refine ⟨by omega, hNot, fun hFrame => ?_, fun row hRow hId => ?_⟩
    · obtain ⟨row, hRow, rfl⟩ := List.mem_map.mp (hText (hBeside.back frameId hLe hFrame))
      exact List.mem_map_of_mem (hBeside.kept row hRow hFrame)
    · rcases hBeside.texts row hRow with hOld | ⟨-, hFrame, hNew⟩
      · exact hVersion row hOld hId
      · exact absurd (hText (hId ▸ hFrame)) (hId ▸ hNew)
  listed := by
    intro pass hPass row hRow hVersion
    rcases hBeside.texts row hRow with hOld | ⟨hNew, -⟩
    · exact h.listed pass hPass row hOld hVersion
    · omega
  done := by
    intro frameId hMem
    obtain ⟨hLe, hVersion⟩ := h.done frameId hMem
    have hHigh := hBeside.highWater
    refine ⟨by omega, fun row hRow hId => ?_⟩
    rcases hBeside.texts row hRow with hOld | ⟨hNew, -⟩
    · exact hVersion row hOld hId
    · exact hNew
  once := h.once
  marked := h.marked

theorem Beside.spares (h : Beside db db' metadata metadata') : Spares db db' metadata metadata' :=
  ⟨h.highWater, h.back, fun row hRow _ hFrame => h.kept row hRow hFrame⟩

/-- The frames are listed. -/
theorem plan_inv (h : s.Inv metadata) (config : FilterConfig) (reembed : Bool) :
    ({ s with pass := some (.plan config reembed s.db) } : BackfillState).Inv metadata := by
  have hOutdated : ∀ row, row ∈ outdated s.db ↔
      row ∈ s.db.frameText ∧ row.filterVersion < filterVersion := by
    intro row
    rw [outdated, Sorting.mem_sortByKey, List.mem_filter, decide_eq_true_eq]
  refine ⟨h.framed, h.sound, ?_, ?_, ?_, h.done, h.once, h.marked⟩
  · rintro _ ⟨⟩
    have hPerm := Sorting.sortByKey_perm FrameTextRow.frameId
      (s.db.frameText.filter fun row => row.filterVersion < filterVersion)
    exact (hPerm.map _).nodup_iff.mpr (h.framed.rows.sublist (List.filter_sublist.map _))
  · rintro _ ⟨⟩ frameId hMem
    obtain ⟨row, hRow, rfl⟩ := List.mem_map.mp hMem
    obtain ⟨hIn, hVersion⟩ := (hOutdated row).mp hRow
    refine ⟨hasFrame_le h.framed (h.framed.framed row hIn), fun hDone => ?_,
      fun _ => List.mem_map_of_mem hIn, fun other hOther hId => ?_⟩
    · have := (h.done _ hDone).2 row hIn rfl
      omega
    · rw [List.inj_on_of_nodup_map h.framed.rows hOther hIn hId]
      exact hVersion
  · rintro _ ⟨⟩ row hRow hVersion
    exact List.mem_map_of_mem ((hOutdated row).mpr ⟨hRow, hVersion⟩)

theorem mem_of_batch {pass : Pass} (h : frameId ∈ pass.batch) : frameId ∈ pass.remaining :=
  List.mem_of_mem_take h

/-- A batch whose frames all have a text is processed. -/
theorem batch_inv (h : s.Inv metadata) {pass : Pass} (hPass : s.pass = some pass)
    (hRows : Rewritten filterVersion pass.batch s.db db') (n : Nat) :
    ({ s with
        db := db'
        pass := some { pass with
          remaining := pass.remaining.drop backfillBatchSize
          changed := n }
        processed := pass.batch ++ s.processed } : BackfillState).Inv metadata ∧
      Spares s.db db' metadata metadata := by
  have hSplit : pass.batch ++ pass.remaining.drop backfillBatchSize = pass.remaining :=
    List.take_append_drop _ _
  have hNodup := h.nodup pass hPass
  rw [← hSplit, List.nodup_append] at hNodup
  obtain ⟨hBatch, hRest, hApart⟩ := hNodup
  have hHas : ∀ frameId, db'.hasFrame frameId = s.db.hasFrame frameId := by
    intro frameId
    rw [hasFrame, hasFrame, hRows.frames]
  have hVersion : ∀ row ∈ db'.frameText, row.frameId ∈ pass.batch ∨
      row.frameId ∉ pass.batch ∧ row ∈ s.db.frameText := by
    intro row hRow
    by_cases hIn : row.frameId ∈ pass.batch
    · exact .inl hIn
    · exact .inr ⟨hIn, (hRows.others row hIn).mp hRow⟩
  -- the batch leaves the remaining frames and joins those that are done
  refine ⟨⟨⟨?_, ?_, ?_⟩, ?_, ?_, ?_, ?_, ?_, ?_, h.marked⟩, le_rfl, ?_, ?_⟩
  · refine ⟨hRows.historyId.trans h.framed.wellFormed.historyId, h.framed.wellFormed.valid, ?_, ?_,
      ?_, ?_⟩
    · rw [hRows.allocator]
      exact h.framed.wellFormed.allocator
    · rw [hRows.frames]
      exact h.framed.wellFormed.ids_nodup
    · rw [hRows.frames]
      exact h.framed.wellFormed.ids_pos
    · rw [hRows.frames]
      exact h.framed.wellFormed.ids_le
  · rw [hRows.ids]
    exact h.framed.rows
  · intro row hRow
    have hIn : row.frameId ∈ s.db.frameText.map FrameTextRow.frameId := by
      rw [← hRows.ids]
      exact List.mem_map_of_mem hRow
    obtain ⟨old, hOld, hSame⟩ := List.mem_map.mp hIn
    rw [hHas, ← hSame]
    exact h.framed.framed old hOld
  · intro hMark row hRow
    rcases hVersion row hRow with hIn | ⟨-, hOld⟩
    · exact (hRows.version row hRow hIn).ge
    · exact h.sound hMark row hOld
  · rintro _ ⟨⟩
    exact hRest
  · rintro _ ⟨⟩ frameId hMem
    obtain ⟨hLe, hNot, hText, hOlder⟩ := h.remaining pass hPass frameId (List.mem_of_mem_drop hMem)
    refine ⟨hLe, ?_, ?_, ?_⟩
    · rw [List.mem_append, not_or]
      exact ⟨fun hIn => hApart frameId hIn frameId hMem rfl, hNot⟩
    · rw [hHas, hRows.ids]
      exact hText
    · rintro row hRow rfl
      rcases hVersion row hRow with hIn | ⟨-, hOld⟩
      · exact absurd rfl (hApart _ hIn _ hMem)
      · exact hOlder row hOld rfl
  · -- a row that is still old is outside the batch, so it is listed as before
    rintro _ ⟨⟩ row hRow hOlder
    rcases hVersion row hRow with hIn | ⟨hOut, hOld⟩
    · have := hRows.version row hRow hIn
      omega
    · have hMem := h.listed pass hPass row hOld hOlder
      rw [← hSplit] at hMem
      exact (List.mem_append.mp hMem).resolve_left hOut
  · intro frameId hMem
    rcases List.mem_append.mp hMem with hIn | hDone
    · refine ⟨(h.remaining pass hPass frameId (mem_of_batch hIn)).1, ?_⟩
      rintro row hRow rfl
      exact (hRows.version row hRow hIn).ge
    · refine ⟨(h.done frameId hDone).1, ?_⟩
      rintro row hRow rfl
      rcases hVersion row hRow with hIn | ⟨-, hOld⟩
      · exact (hRows.version row hRow hIn).ge
      · exact (h.done _ hDone).2 row hOld rfl
  · -- what is left of the pass was not done before
    refine List.nodup_append.mpr ⟨hBatch, h.once, ?_⟩
    rintro frameId hIn _ hDone rfl
    exact (h.remaining pass hPass frameId (mem_of_batch hIn)).2.1 hDone
  · intro frameId _ hFrame
    rwa [hHas] at hFrame
  · intro row hRow hCurrent _
    -- a current row is in no batch, and so it stays as it is
    refine (hRows.others row fun hIn => ?_).mpr hRow
    have := (h.remaining pass hPass _ (mem_of_batch hIn)).2.2.2 row hRow rfl
    omega

theorem withDb_inv (h : s.Inv metadata) {result : Except HistoryReadError SearchTables}
    (hBeside : ∀ db', result = .ok db' → ∃ metadata', Beside s.db db' metadata metadata') :
    ∃ metadata', (s.withDb result).Inv metadata' ∧
      Spares s.db (s.withDb result).db metadata metadata' := by
  cases result with
  | error e => exact ⟨_, h, .refl _ _⟩
  | ok db' =>
    obtain ⟨metadata', hDb⟩ := hBeside db' rfl
    exact ⟨_, beside_inv h hDb, hDb.spares⟩

/-- A batch of which a frame has lost its text takes the call with it. -/
theorem batch_failed (h : s.Inv metadata) {pass : Pass} (clock : Int)
    (hMissing : ¬ ∀ frameId ∈ pass.batch, (frameTextOf s.db.toFrameTables frameId).isSome = true) :
    ∃ e, s.batch textFilter pass clock =
      { s with pass := none, returns := .error e :: s.returns } := by
  push Not at hMissing
  obtain ⟨frameId, hMem, hNone⟩ := hMissing
  have hFailed := backfillBatch_missing textFilter (pass.backfill clock) h.framed.framed ⟨frameId, hMem, fun hIn => hNone (frameTextOf_isSome_iff.mpr hIn)⟩
  unfold BackfillState.batch
  rcases hResult : s.db.backfillBatch textFilter (pass.backfill clock) pass.batch with e | db'
  · exact ⟨e, rfl⟩
  · rw [hResult] at hFailed
    cases hFailed

/-- One whose frames all have a text does not. -/
theorem batch_processed (h : s.Inv metadata) {pass : Pass} (hPass : s.pass = some pass)
    (clock : Int)
    (hTexts : ∀ frameId ∈ pass.batch, (frameTextOf s.db.toFrameTables frameId).isSome = true) :
    (s.batch textFilter pass clock).returns = s.returns ∧
      (s.batch textFilter pass clock).Inv metadata ∧
      Spares s.db (s.batch textFilter pass clock).db metadata metadata := by
  obtain ⟨db', hOk, hRows⟩ := backfillBatch_rows textFilter (pass.backfill clock)
    h.framed.framed fun frameId hMem =>
      frameTextOf_isSome_iff.mp (hTexts frameId hMem)
  have hNext := batch_inv h hPass hRows
    (pass.changed + batchChanges textFilter (pass.backfill clock) pass.batch s.db)
  unfold BackfillState.batch
  rw [hOk]
  exact ⟨rfl, hNext⟩

theorem step_backfillInv (h : s.Inv metadata) (e : BackfillEvent) :
    ∃ metadata', (s.step textFilter e).Inv metadata' ∧
      Spares s.db (s.step textFilter e).db metadata metadata' := by
  -- the call ends, or fails, and the tables are as they were
  have hIdle : ∀ {returns : List (Except HistoryReadError Nat)},
      (∀ n, .ok n ∈ returns → s.watermark = some filterVersion) →
      ({ s with pass := none, returns := returns } : BackfillState).Inv metadata := fun hMarked =>
    ⟨h.framed, h.sound, fun _ => nofun, fun _ => nofun, fun _ => nofun, h.done, h.once, hMarked⟩
  cases e
  case insertFrame f => exact withDb_inv h fun db' hOk => insertFrame_beside h.framed hOk
  case degradeFrameToText frameId =>
    exact withDb_inv h fun db' hOk => ⟨_, degradeFrameToText_beside textFilter h.framed hOk⟩
  case deleteFrame frameId =>
    have hBeside := deleteFrame_beside h.framed frameId
    exact ⟨_, beside_inv h hBeside, hBeside.spares⟩
  case interrupt => exact ⟨_, hIdle h.marked, .refl _ _⟩
  all_goals
    unfold BackfillState.step
    dsimp only
  case call config reembed =>
    split
    · exact ⟨_, h, .refl _ _⟩
    · split
      · next hMark =>
        exact ⟨_, ⟨h.framed, h.sound, h.nodup, h.remaining, h.listed, h.done, h.once,
          fun _ _ => hMark⟩, .refl _ _⟩
      · exact ⟨_, plan_inv h config reembed, .refl _ _⟩
  case classify frameId ocr ctx =>
    split
    · exact ⟨_, h, .refl _ _⟩
    · next hNone => exact withDb_inv h fun db' hOk => ⟨_, classify_beside textFilter h.framed hNone hOk⟩
  case batch clock =>
    split
    · next pass hPass =>
      split
      · exact ⟨_, h, .refl _ _⟩
      by_cases hTexts : ∀ frameId ∈ pass.batch,
          (frameTextOf s.db.toFrameTables frameId).isSome = true
      · exact ⟨_, (batch_processed textFilter h hPass clock hTexts).2⟩
      · obtain ⟨e, hEq⟩ := batch_failed textFilter h clock hTexts
        rw [hEq]
        refine ⟨_, hIdle fun n hMem => ?_, .refl _ _⟩
        exact h.marked n ((List.mem_cons.mp hMem).resolve_left nofun)
    · exact ⟨_, h, .refl _ _⟩
  case finish =>
    split
    · next pass hPass =>
      split
      · next hEmpty =>
        -- every older text was listed, and nothing is left to process
        have hAll : ∀ row ∈ s.db.frameText, filterVersion ≤ row.filterVersion := by
          intro row hRow
          by_contra hOlder
          have hIn := h.listed pass hPass row hRow (not_le.mp hOlder)
          rw [List.isEmpty_iff.mp hEmpty] at hIn
          cases hIn
        exact ⟨_, ⟨h.framed, fun _ => hAll, fun _ => nofun, fun _ => nofun, fun _ => nofun, h.done,
          h.once, fun _ _ => rfl⟩, .refl _ _⟩
      · exact ⟨_, h, .refl _ _⟩
    · exact ⟨_, h, .refl _ _⟩

/-! ## Runs -/

theorem run_backfillInv (h : s.Inv metadata) (events : List BackfillEvent) :
    ∃ metadata', (s.run textFilter events).Inv metadata' ∧
      Spares s.db (s.run textFilter events).db metadata metadata' := by
  induction events generalizing s metadata with
  | nil => exact ⟨_, h, .refl _ _⟩
  | cons e rest ih =>
    obtain ⟨mid, hNext, hStep⟩ := step_backfillInv textFilter h e
    obtain ⟨metadata', hRun, hRest⟩ := ih hNext
    have hBack : ∀ frameId : Int, frameId ≤ metadata.frameIdHighWater →
        (s.run textFilter (e :: rest)).db.hasFrame frameId = true →
          (s.step textFilter e).db.hasFrame frameId = true := by
      intro frameId hLe hFrame
      have hHigh := hStep.highWater
      exact hRest.back frameId (by omega) hFrame
    refine ⟨metadata', hRun, hStep.highWater.trans hRest.highWater, ?_, ?_⟩
    · exact fun frameId hLe hFrame => hStep.back frameId hLe (hBack frameId hLe hFrame)
    · intro row hRow hCurrent hFrame
      have hLe := hasFrame_le h.framed (h.framed.framed row hRow)
      exact hRest.kept row (hStep.kept row hRow hCurrent (hBack _ hLe hFrame)) hCurrent hFrame

/-- A careful step returns no error, and one that is not careful does. -/
theorem step_returns (h : s.Inv metadata) (e : BackfillEvent) :
    (∀ result ∈ (s.step textFilter e).returns, result.isOk = true) ↔
      (∀ result ∈ s.returns, result.isOk = true) ∧ s.CarefulStep e := by
  have hDb : ∀ result, (s.withDb result).returns = s.returns := by
    intro result
    cases result <;> rfl
  have hOk : ∀ n, (∀ result ∈ (.ok n : Except HistoryReadError Nat) :: s.returns,
      result.isOk = true) ↔ (∀ result ∈ s.returns, result.isOk = true) ∧ True := by
    intro n
    rw [List.forall_mem_cons, and_true]
    exact and_iff_right rfl
  cases e
  case batch clock =>
    unfold BackfillState.step BackfillState.CarefulStep
    rcases hPass : s.pass with - | pass
    · simp
    dsimp only
    have hCareful : (∀ pass' ∈ some pass, ∀ frameId ∈ pass'.batch,
        (frameTextOf s.db.toFrameTables frameId).isSome = true) ↔
          ∀ frameId ∈ pass.batch, (frameTextOf s.db.toFrameTables frameId).isSome = true := by
      simp
    rw [hCareful]
    split
    · next hEmpty =>
      have hNone : pass.batch = [] := by
        rw [Pass.batch, List.isEmpty_iff.mp hEmpty]
        rfl
      simp [hNone]
    · -- a batch fails as a whole if one of its frames has no text
      by_cases hTexts : ∀ frameId ∈ pass.batch,
          (frameTextOf s.db.toFrameTables frameId).isSome = true
      · rw [(batch_processed textFilter h hPass clock hTexts).1]
        exact (and_iff_left hTexts).symm
      · obtain ⟨e, hEq⟩ := batch_failed textFilter h clock hTexts
        rw [hEq]
        refine iff_of_false (fun hAll => ?_) fun hBoth => hTexts hBoth.2
        cases hAll _ List.mem_cons_self
  case call config reembed =>
    unfold BackfillState.step
    dsimp only
    split
    · exact (and_iff_left trivial).symm
    · split
      · exact hOk 0
      · exact (and_iff_left trivial).symm
  case finish =>
    unfold BackfillState.step
    dsimp only
    split
    · split
      · exact hOk _
      · exact (and_iff_left trivial).symm
    · exact (and_iff_left trivial).symm
  case classify frameId ocr ctx =>
    unfold BackfillState.step
    dsimp only
    split
    · exact (and_iff_left trivial).symm
    · rw [hDb]
      exact (and_iff_left trivial).symm
  all_goals
    refine Iff.trans ?_ (and_iff_left trivial).symm
  case insertFrame f =>
    show (∀ result ∈ (s.withDb _).returns, _) ↔ _
    rw [hDb]
  case degradeFrameToText frameId =>
    show (∀ result ∈ (s.withDb _).returns, _) ↔ _
    rw [hDb]
  case interrupt => exact Iff.rfl
  case deleteFrame => exact Iff.rfl

theorem run_returns (h : s.Inv metadata) (events : List BackfillEvent) :
    (∀ result ∈ (s.run textFilter events).returns, result.isOk = true) ↔
      (∀ result ∈ s.returns, result.isOk = true) ∧ s.Careful textFilter events := by
  induction events generalizing s metadata with
  | nil => exact (and_iff_left trivial).symm
  | cons e rest ih =>
    obtain ⟨_, hNext, -⟩ := step_backfillInv textFilter h e
    show (∀ result ∈ ((s.step textFilter e).run textFilter rest).returns, _) ↔ _ ∧ _ ∧ _
    rw [ih hNext, step_returns textFilter h e, and_assoc]

theorem start_backfillInv (h : Framed db metadata) {watermark : Option Int}
    (hSound : watermark = some filterVersion → ∀ row ∈ db.frameText,
      filterVersion ≤ row.filterVersion) : (BackfillState.start db watermark).Inv metadata :=
  ⟨h, hSound, fun _ => nofun, fun _ => nofun, fun _ => nofun, fun _ => nofun, List.nodup_nil,
    fun _ => nofun⟩

theorem backfill_completes {watermark : Option Int}
    (h : Framed db metadata) (hSound : watermark = some filterVersion → ∀ row ∈ db.frameText,
      filterVersion ≤ row.filterVersion) (events : List BackfillEvent) :
    (BackfillState.start db watermark).Completes textFilter events ↔
      (BackfillState.start db watermark).Careful textFilter events := by
  have hStart := start_backfillInv h hSound
  have hReturns := run_returns textFilter hStart events
  constructor
  · intro hCompletes
    exact (hReturns.mp hCompletes.returned).2
  · intro hCareful
    obtain ⟨_, hEnd, -⟩ := run_backfillInv textFilter hStart events
    have hOk := hReturns.mpr ⟨fun _ => nofun, hCareful⟩
    refine ⟨hOk, fun hSome row hRow => ?_, hEnd.once, ?_⟩
    · obtain ⟨result, hMem⟩ := List.exists_mem_of_ne_nil _ hSome
      cases result with
      | error e => cases hOk _ hMem
      | ok n => exact hEnd.sound (hEnd.marked n hMem) row hRow
    · rintro first rest rfl row hRow hCurrent hFrame
      obtain ⟨_, hMid, -⟩ := run_backfillInv textFilter hStart first
      obtain ⟨_, -, hSpares⟩ := run_backfillInv textFilter hMid rest
      have hSplit : (BackfillState.start db watermark).run textFilter (first ++ rest) =
          ((BackfillState.start db watermark).run textFilter first).run textFilter rest :=
        List.foldl_append
      rw [hSplit] at hFrame ⊢
      exact hSpares.kept row hRow hCurrent hFrame

/-- Two frames whose texts no filter has classified. -/
def olderTexts : SearchTables where
  historyId := some "00000000-0000-4000-8000-000000000000"
  frameIdHighWater := some "2"
  frames := [1, 2].map fun id =>
    { id := id, capturedAt := id, monitorIndex := 0, appHint := none, windowTitle := none,
      browserUrl := none, activityType := none, sessionId := none, imagePurged := false }
  frameText := [1, 2].map fun id =>
    { frameId := id, rawText := "", contentText := "", primarySource := .ocr,
      filterVersion := unfilteredFilterVersion, suppressedCount := 0, targetWindowTitle := none,
      targetAppHint := none }
  visionAnalysis := []
  textSpans := []
  chromeTextCatalog := []
  contentFts := [(1, ""), (2, "")]
  rawFts := [(1, ""), (2, "")]
  embeddings := []
  embeddingVectors := []
  jobs := []

theorem olderTexts_framed : Framed olderTexts
    { historyId := "00000000-0000-4000-8000-000000000000", frameIdHighWater := 2 } where
  wellFormed := ⟨rfl, by decide +kernel, by decide +kernel, by decide, by decide, by decide⟩
  rows := by decide
  framed := by decide

def shippedConfig : FilterConfig where
  chromeSuppressMinSeen := 2
  chromeProtectMinChars := 48
  chromeRegionBuckets := 8

def thirdFrame : NewFrame where
  capturedAt := 3
  monitorIndex := 0
  appHint := none
  windowTitle := none
  browserUrl := none

/-- The first call is interrupted, a frame is deleted and one captured, and the second call
goes through. -/
def resumedRun : List BackfillEvent :=
  [.call shippedConfig true, .interrupt, .deleteFrame 1, .call shippedConfig true,
    .insertFrame thirdFrame, .batch 0, .finish]

theorem resumedRun_completes : (BackfillState.start olderTexts none).Completes
    (Attention.shipped Text.toAsciiLowercase) resumedRun :=
  (backfill_completes _ olderTexts_framed (fun hMark => by cases hMark) resumedRun).mpr
    (by decide +kernel)

/-- A frame that was listed is deleted before its batch, and the call returns an error. -/
theorem deleted_frame_fails : ¬ (BackfillState.start olderTexts none).Completes
    (Attention.shipped Text.toAsciiLowercase)
    [.call shippedConfig true, .deleteFrame 1, .batch 0] := by
  intro hCompletes
  have hFailed : ∃ result ∈ ((BackfillState.start olderTexts none).run
      (Attention.shipped Text.toAsciiLowercase)
      [.call shippedConfig true, .deleteFrame 1, .batch 0]).returns, result.isOk = false := by
    decide +kernel
  obtain ⟨result, hMem, hError⟩ := hFailed
  rw [hCompletes.returned result hMem] at hError
  cases hError

end ScreenSearch.Store
