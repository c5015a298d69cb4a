import ScreenSearch.Store.SearchMirrors

/-!
# What a call changes

For a frame's text, its embeddings and its jobs: what each transaction leaves of them, as
the readers of the tables see it.
-/

namespace ScreenSearch.Store

open SearchTables

variable {db db' : SearchTables} {metadata : HistoryMetadata}

/-! ## The text of a frame -/

/-- What is read of a row that took another's place. -/
theorem find_replace (rows : List FrameTextRow) (new : FrameTextRow) (frameId : Int) :
    (rows.map fun row => if row.frameId = new.frameId then new else row).find?
        (fun row => row.frameId == frameId) =
      (rows.find? fun row => row.frameId == frameId).map fun row =>
        if row.frameId = new.frameId then new else row := by
  rw [List.find?_map]
  have hSame : (fun row : FrameTextRow => row.frameId == frameId) ∘
      (fun row => if row.frameId = new.frameId then new else row) =
        fun row => row.frameId == frameId := by
    funext row
    show ((if row.frameId = new.frameId then new else row).frameId == frameId) = _
    split
    · next hEq => rw [hEq]
    · rfl
  rw [hSame]

theorem contentTextOf_some {frameId : Int} {text : String} (h : db.contentTextOf frameId = some text) :
    ∃ row ∈ db.frameText, row.frameId = frameId := by
  obtain ⟨row, hRow, -⟩ := Option.map_eq_some_iff.mp h
  exact ⟨row, frameTextOf_mem hRow⟩

theorem hasFrame_iff {frameId : Int} :
    db.hasFrame frameId = true ↔ ∃ frame ∈ db.frames, frame.id = frameId := by
  unfold hasFrame
  simp only [List.any_eq_true, beq_iff_eq]

/-- The text of one frame is written, and nothing else that a reader sees. -/
structure TextWritten (frameId : Int) (text : String) (db db' : SearchTables) : Prop where
  historyId : db'.historyId = db.historyId
  allocator : db'.frameIdHighWater = db.frameIdHighWater
  frames : db'.frames = db.frames
  text : ∀ other, db'.contentTextOf other =
    if other = frameId then some text else db.contentTextOf other
  rows : ∀ row ∈ db'.frameText, row.frameId = frameId ∨ ∃ old ∈ db.frameText, old.frameId = row.frameId

theorem TextWritten.wellFormed {frameId : Int} {text : String} (h : TextWritten frameId text db db')
    (hWell : db.WellFormed metadata) : db'.WellFormed metadata := by
  refine ⟨h.historyId ▸ hWell.historyId, hWell.valid, h.allocator ▸ hWell.allocator, ?_, ?_, ?_⟩
  · rw [h.frames]
    exact hWell.ids_nodup
  · rw [h.frames]
    exact hWell.ids_pos
  · rw [h.frames]
    exact hWell.ids_le

/-- A text that is written leaves the frames as they are. -/
theorem TextWritten.history {frameId : Int} {text : String} {db db' : SearchTables}
    (h : TextWritten frameId text db db') (metadata : HistoryMetadata)
    (hWell : db.WellFormed metadata) :
    ∃ highWater, metadata.frameIdHighWater ≤ highWater ∧
      db'.WellFormed { metadata with frameIdHighWater := highWater } ∧
      ∀ frameId : Int, frameId ≤ metadata.frameIdHighWater → db'.hasFrame frameId = true →
        db.hasFrame frameId = true := by
  refine ⟨_, le_rfl, h.wellFormed hWell, fun other _ hHas => ?_⟩
  rw [hasFrame, h.frames] at hHas
  exact hHas

/-- The text of frames is all that counts. -/
theorem TextWritten.of_tables {frameId : Int} {text : String} {mid : SearchTables}
    (h : TextWritten frameId text db mid) (hTables : db'.toFrameTables = mid.toFrameTables) :
    TextWritten frameId text db db' := by
  obtain ⟨tables', spans, catalog, content, raw, embeddings, vectors, jobs⟩ := db'
  dsimp only at hTables
  subst hTables
  exact ⟨h.historyId, h.allocator, h.frames, h.text, h.rows⟩

theorem updateFrameText_written {old new : FrameTextRow}
    (hOld : frameTextOf db.toFrameTables new.frameId = some old) :
    TextWritten new.frameId new.contentText db (updateFrameText old new db) where
  historyId := rfl
  allocator := rfl
  frames := rfl
  text := by
    intro other
    show ((db.frameText.map fun row => if row.frameId = new.frameId then new else row).find?
      (fun row => row.frameId == other)).map FrameTextRow.contentText = _
    rw [find_replace, Option.map_map]
    split
    · next hEq =>
      subst hEq
      have hFound : db.frameText.find? (fun row => row.frameId == new.frameId) = some old := hOld
      rw [hFound, Option.map_some]
      show some (if old.frameId = new.frameId then new else old).contentText = _
      rw [if_pos (frameTextOf_mem hOld).2]
    · next hNe =>
      refine Option.map_congr fun row hRow => ?_
      have hId : row.frameId = other := beq_iff_eq.mp (List.find?_some hRow :)
      show (if row.frameId = new.frameId then new else row).contentText = row.contentText
      rw [if_neg (hId ▸ hNe)]
  rows := by
    intro row hRow
    obtain ⟨before, hBefore, rfl⟩ := List.mem_map.mp hRow
    split
    · exact .inl rfl
    · exact .inr ⟨before, hBefore, rfl⟩

/-- What a text that is stored changes. -/
theorem upsertFrameText_written {row : FrameTextRow} (hOk : db.upsertFrameText row = .ok db') :
    TextWritten row.frameId row.contentText db db' ∧ db.hasFrame row.frameId = true ∧
      db'.embeddings = db.embeddings ∧ db'.jobs = db.jobs := by
  unfold SearchTables.upsertFrameText Store.upsertFrameText at hOk
  split at hOk
  · cases hOk
  next hFrame =>
  cases hOk
  refine ⟨?_, not_not.mp hFrame, rfl, rfl⟩
  rcases hOld : frameTextOf db.toFrameTables row.frameId with - | old
  · have hNone := frameTextOf_none hOld
    have hAny : ¬ (db.frameText.any fun other => other.frameId == row.frameId) = true := by
      simpa using hNone
    rw [if_neg hAny]
    refine ⟨rfl, rfl, rfl, fun other => ?_, fun new hNew => ?_⟩
    · show ((db.frameText ++ [row]).find? fun r => r.frameId == other).map _ = _
      rw [List.find?_append]
      split
      · next hEq =>
        subst hEq
        rw [show db.frameText.find? (fun r => r.frameId == row.frameId) = none from hOld,
          Option.none_or, List.find?_singleton, if_pos (beq_iff_eq.mpr rfl)]
        rfl
      · next hNe =>
        have hSkip : [row].find? (fun r => r.frameId == other) = none := by
          rw [List.find?_eq_none]
          intro r hr
          rw [List.mem_singleton.mp hr, beq_iff_eq]
          exact fun hEq => hNe hEq.symm
        rw [hSkip, Option.or_none]
        rfl
    · rcases List.mem_append.mp hNew with hBefore | hNew
      · exact .inr ⟨new, hBefore, rfl⟩
      · rw [List.mem_singleton.mp hNew]
        exact .inl rfl
  · obtain ⟨hMem, hId⟩ := frameTextOf_mem hOld
    have hAny : (db.frameText.any fun other => other.frameId == row.frameId) = true :=
      List.any_eq_true.mpr ⟨old, hMem, beq_iff_eq.mpr hId⟩
    rw [if_pos hAny]
    exact updateFrameText_written hOld

theorem replaceTextSpans_ok {frameId : Int} {spans : List TextSpan}
    (hOk : db.replaceTextSpans frameId spans = .ok db') :
    ∃ rows, db' = { db with textSpans := rows } := by
  unfold replaceTextSpans at hOk
  split at hOk
  · cases hOk
  · cases hOk
    exact ⟨_, rfl⟩

theorem insertOcrFiltered_written {textFilter : TextFilter} {frameId : Int} {ocr : OcrResult}
    {ctx : TextFilterContext} (hOk : db.insertOcrFiltered textFilter frameId ocr ctx = .ok db') :
    TextWritten frameId (classified textFilter frameId ocr ctx db).contentText db db' ∧
      db.hasFrame frameId = true ∧ db'.embeddings = db.embeddings ∧ db'.jobs = db.jobs := by
  obtain ⟨withText, withSpans, hText, hSpans, rfl⟩ := insertOcrFiltered_ok hOk
  obtain ⟨rows, rfl⟩ := replaceTextSpans_ok hSpans
  obtain ⟨h, hFrame, hEmbeddings, hJobs⟩ := upsertFrameText_written hText
  exact ⟨⟨h.historyId, h.allocator, h.frames, h.text, h.rows⟩, hFrame, hEmbeddings, hJobs⟩

/-! ## Jobs -/

/-- A job that is new, under an id that no job has. -/
theorem insertJob_ok {job : NewJob} {clock : Int} (hOk : db.insertJob job clock = .ok db') :
    ∃ new : Job, db' = { db with jobs := db.jobs ++ [new] } ∧ new.kind = job.kind ∧
      new.frameId = job.frameId ∧ new.state = .pending ∧ new.id ∉ db.jobs.map Job.id ∧
      ∀ frameId ∈ job.frameId, db.hasFrame frameId = true := by
  unfold insertJob enqueueJob at hOk
  split at hOk
  · next id t hEnqueued =>
    cases hOk
    split at hEnqueued
    · next hFrames =>
      cases hEnqueued
      refine ⟨_, rfl, rfl, rfl, rfl, nextRowid_not_mem _, fun frameId hFrame => ?_⟩
      have hIn := (Option.all_eq_true _ _).mp hFrames frameId hFrame
      obtain ⟨frame, hMem, hId⟩ := List.mem_map.mp (of_decide_eq_true hIn)
      exact hasFrame_iff.mpr ⟨frame, hMem, hId⟩
    · cases hEnqueued
  · cases hOk

/-- A claim of one job takes a pending one and makes it run. -/
theorem claimJobs_one {kinds : List JobKind} {now clock : Int} {t t' : JobTables} {jobs : List Job}
    {job : Job} (hIds : (t.jobs.map Job.id).Nodup)
    (hClaim : claimJobs kinds 1 now clock t = (jobs, t')) (hLast : jobs.getLast? = some job) :
    ∃ old ∈ t.jobs, old.state = .pending ∧
      job = { old with state := .running, updatedAt := clock } ∧
      t'.jobs = t.jobs.map fun other =>
        if other.id = old.id then { other with state := .running, updatedAt := clock } else other := by
  unfold claimJobs at hClaim
  split at hClaim
  · cases hClaim
    cases hLast
  cases hClaim
  have hMem := List.mem_of_getLast? hLast
  obtain ⟨hRow, hIn⟩ := List.mem_filter.mp ((Sorting.mem_sortByKey claimOrder).mp hMem)
  rw [decide_eq_true_eq] at hIn
  obtain ⟨old, hOld, hId, hPending⟩ := claimedIds_pending hIn
  -- the ids are this one
  have hOnly : claimedIds kinds 1 now t = [job.id] := by
    have hLength : (claimedIds kinds 1 now t).length ≤ 1 := by
      unfold claimedIds
      rw [List.length_map, List.length_take]
      exact min_le_left ..
    obtain ⟨id, hEq⟩ := List.length_eq_one_iff.mp
      (le_antisymm hLength (List.length_pos_of_mem hIn))
    rw [hEq] at hIn ⊢
    rw [List.mem_singleton.mp hIn]
  refine ⟨old, hOld, hPending, ?_, ?_⟩
  · obtain ⟨before, hBefore, ⟨-, rfl⟩ | ⟨hNot, rfl⟩⟩ := mem_updateJobs hRow
    · rw [List.inj_on_of_nodup_map hIds hBefore hOld hId.symm]
    · rw [decide_eq_false_iff_not] at hNot
      exact absurd hIn hNot
  · show (t.jobs.map fun other => if decide (other.id ∈ claimedIds kinds 1 now t) then _ else other) = _
    refine List.map_congr_left fun other _ => ?_
    rw [hOnly, hId]
    simp only [List.mem_singleton, decide_eq_true_eq]

/-- What the backfill does to one frame: its text may have changed, and then its
embeddings of it are gone and a job may wait to embed it again. -/
theorem backfillFrame_written {textFilter : TextFilter} {b : Backfill} {frameId : Int}
    (hOk : backfillFrame textFilter b db frameId = .ok db') :
    ∃ text, TextWritten frameId text db db' ∧ (∃ old ∈ db.frameText, old.frameId = frameId) ∧
      ((db'.embeddings = db.embeddings ∧ db'.jobs = db.jobs ∧
          db.contentTextOf frameId = some text) ∨
        (∀ row ∈ db'.embeddings, row ∈ db.embeddings ∧
          ¬ (row.frameId = frameId ∧ row.source = .ocr)) ∧
        (db'.jobs = db.jobs ∨ db.hasFrame frameId = true ∧ ∃ new : Job,
          db'.jobs = db.jobs ++ [new] ∧ new.frameId = some frameId ∧
            new.id ∉ db.jobs.map Job.id)) := by
  unfold backfillFrame at hOk
  split at hOk
  · cases hOk
  next old hOld =>
  obtain ⟨hMem, rfl⟩ := frameTextOf_mem hOld
  dsimp only at hOk
  split at hOk
  · rw [bind_ok] at hOk
    obtain ⟨replaced, hSpans, hOk⟩ := hOk
    obtain ⟨rows, rfl⟩ := replaceTextSpans_ok hSpans
    generalize textFilter.reconcile _ _ _ _ = out at hOk
    have hWritten := @updateFrameText_written db old (cleaned b out old) hOld
    have hGone : ∀ row ∈ (db.embeddings.filter fun row =>
        !(row.frameId == old.frameId && row.source == .ocr)), row ∈ db.embeddings ∧
          ¬ (row.frameId = old.frameId ∧ row.source = .ocr) := by
      intro row hRow
      obtain ⟨hIn, hKept⟩ := List.mem_filter.mp hRow
      refine ⟨hIn, fun hBoth => ?_⟩
      rw [hBoth.1, hBoth.2] at hKept
      simp at hKept
    refine ⟨out.contentText, ?_⟩
    split at hOk
    · obtain ⟨new, rfl, -, hFrame, -, hFresh, hHas⟩ := insertJob_ok hOk
      exact ⟨hWritten.of_tables rfl, ⟨old, hMem, rfl⟩, .inr ⟨hGone, .inr ⟨hHas _ rfl, new, rfl, hFrame, hFresh⟩⟩⟩
    · cases hOk
      exact ⟨hWritten.of_tables rfl, ⟨old, hMem, rfl⟩, .inr ⟨hGone, .inl rfl⟩⟩
  · cases hOk
    refine ⟨old.contentText, @updateFrameText_written db old { old with filterVersion := b.current }
      hOld, ⟨old, hMem, rfl⟩, .inl ⟨rfl, rfl, ?_⟩⟩
    rw [contentTextOf, hOld, Option.map_some]

/-! ## Embeddings -/

/-- The chunk's row says what was stored, and the other rows are as they were. -/
theorem upsertTextEmbedding_ok {latest : Int × Int → Option Embedding} (h : Mirrored latest db)
    {frameId chunkIndex : Int} {chunkText : String} {source : ChunkSource} {emb : Embedding}
    {model : String}
    (hOk : db.upsertTextEmbedding frameId chunkIndex chunkText source emb model = .ok db') :
    ∃ rows vectors, db' = { db with embeddings := rows, embeddingVectors := vectors } ∧
      (db.hasFrame frameId = true ∨ ∃ row ∈ db.embeddings, row.frameId = frameId) ∧
      ∀ row ∈ rows,
        (row.frameId = frameId ∧ row.chunkIndex = chunkIndex ∧ row.source = source ∧
          row.chunkText = chunkText) ∨
        row ∈ db.embeddings ∧ chunkKey row ≠ (frameId, chunkIndex) := by
  unfold upsertTextEmbedding at hOk
  split at hOk
  · cases hOk
  dsimp only at hOk
  rw [bind_ok] at hOk
  obtain ⟨⟨id, between⟩, hRow, hOk⟩ := hOk
  have hAfter := insertVector_ok hOk
  subst hAfter
  unfold upsertEmbeddingRow at hRow
  split at hRow
  · next existing hExisting =>
    cases hRow
    have hMem := List.mem_of_find?_eq_some hExisting
    have hFound := List.find?_some hExisting
    rw [Bool.and_eq_true, beq_iff_eq, beq_iff_eq] at hFound
    refine ⟨_, _, rfl, .inr ⟨existing, hMem, hFound.1⟩, fun row hIn => ?_⟩
    obtain ⟨before, hBefore, rfl⟩ := List.mem_map.mp hIn
    by_cases hId : before.id = existing.id
    · obtain rfl := List.inj_on_of_nodup_map h.ids hBefore hMem hId
      rw [if_pos rfl]
      exact .inl ⟨hFound.1, hFound.2, rfl, rfl⟩
    · rw [if_neg hId]
      refine .inr ⟨hBefore, fun hKey => hId ?_⟩
      have hSame : chunkKey before = chunkKey existing :=
        hKey.trans (Prod.ext hFound.1.symm hFound.2.symm)
      rw [List.inj_on_of_nodup_map h.chunks hBefore hMem hSame]
  · next hNone =>
    split at hRow
    · cases hRow
    · next hHas =>
      cases hRow
      refine ⟨_, _, rfl, .inl (by simpa using hHas), fun row hIn => ?_⟩
      rcases List.mem_append.mp hIn with hBefore | hNew
      · refine .inr ⟨hBefore, fun hKey => ?_⟩
        have hFound := List.find?_eq_none.mp hNone row hBefore
        rw [Bool.and_eq_true, beq_iff_eq, beq_iff_eq] at hFound
        exact hFound ⟨congrArg Prod.fst hKey, congrArg Prod.snd hKey⟩
      · rw [List.mem_singleton.mp hNew]
        exact .inl ⟨rfl, rfl, rfl, rfl⟩

end ScreenSearch.Store
