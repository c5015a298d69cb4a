import ScreenSearch.Lib.Batch
import ScreenSearch.Store.FilterBackfill
import ScreenSearch.TextFilter.KeptText

/-!
# What the filter backfill removes

The backfill rebuilds a content text from the spans of its frame. It is lossless when a text
was stored together with spans that keep just this text: the filter stores no other, but a
text that is stored as it was recognized may say anything.

Main results:

* `backfillFilterVersion_removes` — over tables whose texts are the ones their spans keep, a
  call takes out the lines it demotes and nothing else;
* `removes_only_demoted` — and so it is in every run in which each text stored as recognized
  is the one its spans keep.
-/

namespace ScreenSearch.Store

open SearchTables Attention

/-! ## The call -/

/-- The arguments of `backfill_filter_version`, and what it finds around it. -/
structure FilterCall where
  current : Int
  config : FilterConfig
  reembed : Bool
  clock : Int
  /-- `text.catalog_filter_version`. -/
  watermark : Option Int
  /-- After how many batches the next one fails of itself. -/
  brokenAfter : Option Nat

/-- The texts of an older version, oldest frame first. -/
def FilterCall.rows (call : FilterCall) (db : SearchTables) : List FrameTextRow :=
  Sorting.sortByKey FrameTextRow.frameId
    (db.frameText.filter fun row => row.filterVersion < call.current)

/-- The catalogs are read once, for the applications of these texts. -/
def FilterCall.backfill (call : FilterCall) (db : SearchTables) : Backfill where
  current := call.current
  config := call.config
  catalogs := fun hint =>
    if (call.rows db).any fun row => row.targetAppHint = hint then db.loadChromeCatalog hint
    else fun _ => 0
  reembed := call.reembed
  clock := call.clock

/-- The batches one after the other, until one fails; it is rolled back. -/
def runBatches (textFilter : TextFilter) (b : Backfill) :
    Option Nat → List (List Int) → SearchTables → SearchTables × Except HistoryReadError Nat
  | _, [], db => (db, .ok 0)
  | some 0, _ :: _, db => (db, .error (.storage "disk I/O error"))
  | broken, batch :: rest, db =>
    match db.backfillBatch textFilter b batch with
    | .ok db' =>
      let (after, result) := runBatches textFilter b (broken.map Nat.pred) rest db'
      (after, result.map fun changed => batchChanges textFilter b batch db + changed)
    | .error e => (db, .error e)

/-- The tables and the watermark after the call, and what it returns. -/
def backfillFilterVersion (textFilter : TextFilter) (call : FilterCall) (db : SearchTables) :
    SearchTables × Option Int × Except HistoryReadError Nat :=
  if call.watermark = some call.current then (db, call.watermark, .ok 0)
  else
    let (after, result) := runBatches textFilter (call.backfill db) call.brokenAfter
      (((call.rows db).map FrameTextRow.frameId).toChunks backfillBatchSize) db
    (after, if result.isOk then some call.current else call.watermark, result)

/-! ## The property -/

/-- The lines that were kept and are not any more. -/
def demotedLines (before after : List TextSpan) : List Nat :=
  (lineIndices before).filter fun index => lineKept before index && !lineKept after index

/-- `after` is `former` with the texts of the lines `gone` taken out. -/
def WithoutLines (spans : List TextSpan) (gone : List Nat) (former after : String) : Prop :=
  -- a piece of the text, and the line it is if that line goes
  ∃ pieces : List (Option Nat × String),
    former = "\n".intercalate (pieces.map Prod.snd) ∧
    after = "\n".intercalate ((pieces.filter fun piece => piece.1.isNone).map Prod.snd) ∧
    pieces.filterMap Prod.fst = gone ∧
    ∀ piece ∈ pieces, ∀ index ∈ piece.1, piece.2 = lineText spans index

/-- The rows of a frame's text embedding, each with its vector. -/
def textEmbedding (db : SearchTables) (frameId : Int) : List (EmbeddingRow × List VectorRow) :=
  (db.embeddings.filter fun row => row.frameId == frameId && row.source == .ocr).map fun row =>
    (row, db.embeddingVectors.filter fun vector => vector.embeddingId == row.id)

/-- What of a frame may be different after a call. -/
structure RemovesOnlyDemoted (frameId : Int) (db db' : SearchTables) : Prop where
  content : ∀ old, frameTextOf db.toFrameTables frameId = some old →
    ∃ new, frameTextOf db'.toFrameTables frameId = some new ∧ new.rawText = old.rawText ∧
      WithoutLines (db.readTextSpans frameId)
        (demotedLines (db.readTextSpans frameId) (db'.readTextSpans frameId))
        old.contentText new.contentText
  spared : demotedLines (db.readTextSpans frameId) (db'.readTextSpans frameId) = [] →
    db'.contentTextOf frameId = db.contentTextOf frameId ∧
    db'.readTextSpans frameId = db.readTextSpans frameId ∧
    textEmbedding db' frameId = textEmbedding db frameId
  suppressed : List.Forall₂
    (fun before after : TextSpan => before.isSearchable = false → after.isSearchable = false)
    (db.readTextSpans frameId) (db'.readTextSpans frameId)

/-- The text of a recognizer is what its spans keep. -/
def Recognized (ocr : OcrResult) : Prop := ocr.text = keptText ocr.spans ∧ Marked ocr.spans

instance (ocr : OcrResult) : Decidable (Recognized ocr) :=
  inferInstanceAs (Decidable (_ ∧ _))

/-- Each text that is stored as it was recognized is what its spans keep. -/
def SearchStep.Faithful (s : SearchStep) : Prop :=
  match s.op with
  | .insertOcr _ ocr => Recognized ocr
  | _ => True

/-! ## Reading spans -/

variable {db db' : SearchTables} {frameId : Int}

theorem readTextSpans_of_rows (h : db'.textSpans = db.textSpans) (other : Int) :
    db'.readTextSpans other = db.readTextSpans other := by
  unfold readTextSpans
  rw [h]

theorem replaceTextSpans_read {spans : List TextSpan}
    (hOk : db.replaceTextSpans frameId spans = .ok db') (other : Int) :
    db'.readTextSpans other = if other = frameId then spans else db.readTextSpans other := by
  unfold replaceTextSpans at hOk
  split at hOk
  · cases hOk
  cases hOk
  unfold readTextSpans
  show (Sorting.sortByKey SpanRow.spanIndex (List.filter _ (_ ++ _))).map SpanRow.span = _
  rw [List.filter_append, List.filter_filter, List.filter_map]
  split
  · next hSame =>
    subst hSame
    have hOthers : (db.textSpans.filter fun row =>
        (row.frameId == other) && decide (row.frameId ≠ other)) = [] := by
      rw [List.filter_eq_nil_iff]
      intro row _
      simp
    have hAll : spans.zipIdx.filter ((fun row : SpanRow => row.frameId == other) ∘
        fun x => { frameId := other, spanIndex := x.2, span := x.1 }) = spans.zipIdx := by
      rw [List.filter_eq_self]
      intro x _
      exact beq_self_eq_true other
    rw [hOthers, List.nil_append, hAll, Sorting.sortByKey_eq_self, List.map_map]
    · exact List.zipIdx_map_fst 0 spans
    · rw [List.pairwise_map]
      have hIndices := List.pairwise_map.mp
        ((List.zipIdx_map_snd 0 spans).symm ▸ List.pairwise_lt_range')
      exact hIndices.imp fun hLt => le_of_lt hLt
  · next hOther =>
    have hNone : spans.zipIdx.filter ((fun row : SpanRow => row.frameId == other) ∘
        fun x => { frameId := frameId, spanIndex := x.2, span := x.1 }) = [] := by
      rw [List.filter_eq_nil_iff]
      intro x _ hSame
      exact hOther (beq_iff_eq.mp hSame).symm
    have hSame : (db.textSpans.filter fun row =>
        (row.frameId == other) && decide (row.frameId ≠ frameId)) =
          db.textSpans.filter fun row => row.frameId == other := by
      refine List.filter_congr fun row _ => ?_
      by_cases hRow : row.frameId = other
      · rw [hRow]
        simp [hOther]
      · simp [hRow]
    rw [hNone, List.map_nil, List.append_nil, hSame]

/-! ## One frame -/

/-- Nothing of a frame's text is different. -/
structure SameFrame (frameId : Int) (db db' : SearchTables) : Prop where
  row : frameTextOf db'.toFrameTables frameId = frameTextOf db.toFrameTables frameId
  spans : db'.readTextSpans frameId = db.readTextSpans frameId
  embedding : textEmbedding db' frameId = textEmbedding db frameId

/-- The text of a frame is what its spans keep. -/
def Agrees (db : SearchTables) (frameId : Int) : Prop :=
  ∀ text, db.contentTextOf frameId = some text →
    keptText (db.readTextSpans frameId) = text ∧ Marked (db.readTextSpans frameId)

theorem Agrees.of_same (h : Agrees db frameId)
    (hText : db'.contentTextOf frameId = db.contentTextOf frameId)
    (hSpans : db'.readTextSpans frameId = db.readTextSpans frameId) : Agrees db' frameId := by
  unfold Agrees
  rw [hText, hSpans]
  exact h

theorem SameFrame.agrees (h : SameFrame frameId db db') (hAgrees : Agrees db frameId) :
    Agrees db' frameId :=
  hAgrees.of_same (by rw [contentTextOf, h.row, contentTextOf]) h.spans

theorem demotedLines_self (spans : List TextSpan) : demotedLines spans spans = [] := by
  unfold demotedLines
  rw [List.filter_eq_nil_iff]
  intro index _ hBoth
  rw [Bool.and_not_self] at hBoth
  exact Bool.false_ne_true hBoth

theorem WithoutLines.refl (spans : List TextSpan) (text : String) :
    WithoutLines spans [] text text :=
  ⟨[(none, text)], by simp [String.intercalate_singleton],
    by simp [String.intercalate_singleton], rfl,
    fun piece hPiece index hIndex => by
      rw [List.mem_singleton.mp hPiece] at hIndex
      cases hIndex⟩

theorem WithoutLines.eq_of_nil {spans : List TextSpan} {former after : String}
    (h : WithoutLines spans [] former after) : after = former := by
  obtain ⟨pieces, hFormer, hAfter, hGone, -⟩ := h
  have hAll : (pieces.filter fun piece => piece.1.isNone) = pieces := by
    rw [List.filter_eq_self]
    intro piece hPiece
    rcases hFirst : piece.1 with - | index
    · rfl
    · have hIn : index ∈ pieces.filterMap Prod.fst :=
        List.mem_filterMap.mpr ⟨piece, hPiece, hFirst⟩
      rw [hGone] at hIn
      cases hIn
  rw [hAfter, hAll, hFormer]

theorem suppressed_refl (spans : List TextSpan) : List.Forall₂
    (fun before after : TextSpan => before.isSearchable = false → after.isSearchable = false)
    spans spans :=
  List.forall₂_same.mpr fun _ _ h => h

/-- A text of which the version alone may be another. -/
theorem removesOnlyDemoted_of_same
    (hRow : ∀ old, frameTextOf db.toFrameTables frameId = some old →
      ∃ new, frameTextOf db'.toFrameTables frameId = some new ∧ new.rawText = old.rawText ∧
        new.contentText = old.contentText)
    (hText : db'.contentTextOf frameId = db.contentTextOf frameId)
    (hSpans : db'.readTextSpans frameId = db.readTextSpans frameId)
    (hEmbedding : textEmbedding db' frameId = textEmbedding db frameId) :
    RemovesOnlyDemoted frameId db db' where
  content := by
    intro old hOld
    obtain ⟨new, hNew, hRaw, hContent⟩ := hRow old hOld
    refine ⟨new, hNew, hRaw, ?_⟩
    rw [hSpans, demotedLines_self, hContent]
    exact .refl _ _
  spared := fun _ => ⟨hText, hSpans, hEmbedding⟩
  suppressed := by
    rw [hSpans]
    exact suppressed_refl _

theorem SameFrame.removes (h : SameFrame frameId db db') : RemovesOnlyDemoted frameId db db' :=
  removesOnlyDemoted_of_same (fun old hOld => ⟨old, h.row.trans hOld, rfl, rfl⟩)
    (by rw [contentTextOf, h.row, contentTextOf]) h.spans h.embedding

theorem SameFrame.refl (frameId : Int) (db : SearchTables) : SameFrame frameId db db :=
  ⟨rfl, rfl, rfl⟩

theorem SameFrame.trans {mid : SearchTables} (h : SameFrame frameId db mid)
    (h' : SameFrame frameId mid db') : SameFrame frameId db db' :=
  ⟨h'.row.trans h.row, h'.spans.trans h.spans, h'.embedding.trans h.embedding⟩

theorem RemovesOnlyDemoted.after_same {mid : SearchTables} (h : RemovesOnlyDemoted frameId mid db')
    (hSame : SameFrame frameId db mid) : RemovesOnlyDemoted frameId db db' := by
  have hText : mid.contentTextOf frameId = db.contentTextOf frameId := by
    rw [contentTextOf, hSame.row, contentTextOf]
  constructor
  · rw [← hSame.row, ← hSame.spans]
    exact h.content
  · rw [← hSame.spans, ← hText, ← hSame.embedding]
    exact h.spared
  · rw [← hSame.spans]
    exact h.suppressed

theorem RemovesOnlyDemoted.before_same {mid : SearchTables}
    (h : RemovesOnlyDemoted frameId db mid) (hSame : SameFrame frameId mid db') :
    RemovesOnlyDemoted frameId db db' := by
  have hText : db'.contentTextOf frameId = mid.contentTextOf frameId := by
    rw [contentTextOf, hSame.row, contentTextOf]
  constructor
  · rw [hSame.row, hSame.spans]
    exact h.content
  · rw [hSame.spans, hText, hSame.embedding]
    exact h.spared
  · rw [hSame.spans]
    exact h.suppressed

/-- Rows of another frame go with their vectors, which are none of this frame's. -/
theorem textEmbedding_deleteEmbeddings (hIds : (db.embeddings.map EmbeddingRow.id).Nodup)
    {isMatch : EmbeddingRow → Bool}
    (hOther : ∀ row, row.frameId = frameId → isMatch row = false) :
    textEmbedding (deleteEmbeddings isMatch db) frameId = textEmbedding db frameId := by
  unfold textEmbedding deleteEmbeddings
  dsimp only
  have hRows : (db.embeddings.filter fun row =>
      (row.frameId == frameId && row.source == .ocr) && !isMatch row) =
        db.embeddings.filter fun row => row.frameId == frameId && row.source == .ocr := by
    refine List.filter_congr fun row _ => ?_
    by_cases hFrame : row.frameId = frameId
    · rw [hOther row hFrame, Bool.not_false, Bool.and_true]
    · rw [beq_eq_false_iff_ne.mpr hFrame, Bool.false_and, Bool.false_and]
  rw [List.filter_filter, hRows]
  refine List.map_congr_left fun row hRow => ?_
  obtain ⟨hMem, hFrame⟩ := List.mem_filter.mp hRow
  congr 1
  rw [List.filter_filter]
  refine List.filter_congr fun vector _ => ?_
  by_cases hSame : vector.embeddingId = row.id
  · have hKept : ((db.embeddings.filter isMatch).map EmbeddingRow.id).contains
        vector.embeddingId = false := by
      rw [Bool.eq_false_iff]
      intro hGone
      obtain ⟨gone, hIn, hId⟩ := List.mem_map.mp (List.contains_iff_mem.mp hGone)
      obtain ⟨hIn, hMatch⟩ := List.mem_filter.mp hIn
      have hRowSame := List.inj_on_of_nodup_map hIds hIn hMem (hId.trans hSame)
      rw [hRowSame, hOther row (beq_iff_eq.mp (Bool.and_eq_true_iff.mp hFrame).1)] at hMatch
      exact Bool.false_ne_true hMatch
    rw [hKept]
    simp
  · simp [hSame]

theorem frameTextOf_updated {old new : FrameTextRow} (hId : old.frameId = new.frameId)
    (hOld : frameTextOf db.toFrameTables new.frameId = some old) (other : Int) :
    frameTextOf (updateFrameText old new db).toFrameTables other =
      if other = new.frameId then some new else frameTextOf db.toFrameTables other := by
  show (db.frameText.map fun row => if row.frameId = new.frameId then new else row).find?
    (fun row => row.frameId == other) = _
  rw [find_replace]
  split
  · next hSame =>
    subst hSame
    show (frameTextOf db.toFrameTables new.frameId).map _ = _
    rw [hOld, Option.map_some, if_pos hId]
  · next hOther =>
    show (frameTextOf db.toFrameTables other).map _ = frameTextOf db.toFrameTables other
    rcases hFound : frameTextOf db.toFrameTables other with - | row
    · rfl
    · rw [Option.map_some, if_neg]
      rw [(frameTextOf_mem hFound).2]
      exact hOther

/-- What cleaning a frame does to its text and to those of the others. -/
theorem backfillFrame_read {textFilter : TextFilter} {b : Backfill}
    (hIds : (db.embeddings.map EmbeddingRow.id).Nodup)
    (hOk : backfillFrame textFilter b db frameId = .ok db') :
    (∃ old new out, frameTextOf db.toFrameTables frameId = some old ∧
      out = textFilter.reconcile (db.readTextSpans frameId) old.targetAppHint
        (b.catalogs old.targetAppHint) b.config ∧
      frameTextOf db'.toFrameTables frameId = some new ∧ new.rawText = old.rawText ∧
      new.contentText = out.contentText ∧
      (out.contentText ≠ old.contentText ∧ db'.readTextSpans frameId = out.spans ∨
        out.contentText = old.contentText ∧
          db'.readTextSpans frameId = db.readTextSpans frameId ∧
          textEmbedding db' frameId = textEmbedding db frameId)) ∧
    ∀ other, other ≠ frameId → SameFrame other db db' := by
  unfold backfillFrame at hOk
  split at hOk
  · cases hOk
  next old hOld =>
  obtain ⟨hMem, rfl⟩ := frameTextOf_mem hOld
  dsimp only at hOk
  generalize hOut : textFilter.reconcile _ _ _ _ = out at hOk
  split at hOk
  · next hChanged =>
    rw [bind_ok] at hOk
    obtain ⟨replaced, hSpans, hOk⟩ := hOk
    have hRead := replaceTextSpans_read hSpans
    obtain ⟨rows, rfl⟩ := replaceTextSpans_ok hSpans
    have hRows := @frameTextOf_updated db old (cleaned b out old) rfl hOld
    -- the job, if there is one, is in no table that is read
    obtain ⟨jobs, rfl⟩ : ∃ jobs, db' = { deleteEmbeddings
        (fun row => row.frameId == old.frameId && row.source == .ocr)
        { updateFrameText old (cleaned b out old) db with textSpans := rows } with
        jobs := jobs } := by
      split at hOk
      · obtain ⟨new, rfl, -⟩ := insertJob_ok hOk
        exact ⟨_, rfl⟩
      · cases hOk
        exact ⟨_, rfl⟩
    refine ⟨⟨old, cleaned b out old, out, hOld, hOut.symm, (hRows old.frameId).trans (if_pos rfl),
      rfl, rfl, .inl ⟨hChanged, (hRead old.frameId).trans (if_pos rfl)⟩⟩, ?_⟩
    intro other hOther
    refine ⟨(hRows other).trans (if_neg hOther), (hRead other).trans (if_neg hOther), ?_⟩
    refine @textEmbedding_deleteEmbeddings
      { updateFrameText old (cleaned b out old) db with textSpans := rows } other hIds
      (fun row => row.frameId == old.frameId && row.source == .ocr) ?_
    intro row hRow
    rw [hRow, beq_eq_false_iff_ne.mpr hOther, Bool.false_and]
  · next hSame =>
    cases hOk
    have hRows := @frameTextOf_updated db old { old with filterVersion := b.current } rfl hOld
    refine ⟨⟨old, _, out, hOld, hOut.symm, (hRows old.frameId).trans (if_pos rfl), rfl,
      (not_not.mp hSame).symm, .inr ⟨not_not.mp hSame, rfl, rfl⟩⟩, ?_⟩
    exact fun other hOther => ⟨(hRows other).trans (if_neg hOther), rfl, rfl⟩

/-- The lines that a text loses are the ones that its spans keep no more. -/
theorem withoutLines_demoted (spans : List TextSpan) (demoted : List Nat) :
    WithoutLines spans (demotedLines spans (spans.map (demoteWord demoted))) (keptText spans)
      (keptText (spans.map (demoteWord demoted))) := by
  refine ⟨((lineIndices spans).filter (lineKept spans)).map fun index =>
    (if demoted.contains index then some index else none, lineText spans index), ?_, ?_, ?_, ?_⟩
  · rw [List.map_map]
    rfl
  · rw [demoted_keptText, List.filter_map, List.map_map, List.filter_filter]
    congr 2
    refine List.filter_congr fun index _ => ?_
    show _ = ((if demoted.contains index then some index else none).isNone && lineKept spans index)
    by_cases hIn : demoted.contains index = true
    · rw [if_pos hIn, hIn]
      simp
    · rw [if_neg hIn, Bool.eq_false_iff.mpr hIn]
      simp
  · rw [List.filterMap_map]
    unfold demotedLines
    rw [List.filterMap_filter]
    conv_rhs => rw [← List.filterMap_eq_filter]
    refine List.filterMap_congr fun index hIndex => ?_
    have hAfter := lineKept_demoted demoted hIndex
    by_cases hKept : lineKept spans index = true
    · simp [Option.guard, hAfter, hKept]
    · simp [Option.guard, hKept]
  · intro piece hPiece index hIndex
    obtain ⟨i, -, rfl⟩ := List.mem_map.mp hPiece
    dsimp only at hIndex ⊢
    split at hIndex
    · rw [Option.mem_some.mp hIndex]
    · cases hIndex

variable {toLowercase : String → String} {b : Backfill}

/-- **Cleaning a frame** whose text is what its spans keep takes out the lines it demotes. -/
theorem backfillFrame_removes (hIds : (db.embeddings.map EmbeddingRow.id).Nodup)
    (hAgrees : Agrees db frameId)
    (hOk : backfillFrame (shipped toLowercase) b db frameId = .ok db') :
    RemovesOnlyDemoted frameId db db' ∧ Agrees db' frameId := by
  obtain ⟨⟨old, new, out, hOld, hOut, hNew, hRaw, hContent, hCase⟩, -⟩ :=
    backfillFrame_read hIds hOk
  have hText : db.contentTextOf frameId = some old.contentText := by
    rw [contentTextOf, hOld, Option.map_some]
  have hText' : db'.contentTextOf frameId = some out.contentText := by
    rw [contentTextOf, hNew, Option.map_some, hContent]
  obtain ⟨hKept, hMarked⟩ := hAgrees _ hText
  obtain ⟨demoted, hSpans, hOutText⟩ := reconcile_eq toLowercase (db.readTextSpans frameId)
    old.targetAppHint (b.catalogs old.targetAppHint) b.config
  have hOutText : out.contentText = keptText out.spans := by
    rw [hOut]
    show (reconcile _ _ _ _ _).contentText = keptText (reconcile _ _ _ _ _).spans
    rw [hOutText, hSpans, demoted_keptText]
  have hSpans : out.spans = (db.readTextSpans frameId).map (demoteWord demoted) := by
    rw [hOut]
    exact hSpans
  rcases hCase with ⟨hChanged, hRead⟩ | ⟨hSame, hRead, hEmbedding⟩
  · rw [hSpans] at hRead
    have hWithout := withoutLines_demoted (db.readTextSpans frameId) demoted
    rw [← hRead, hKept] at hWithout
    refine ⟨⟨?_, ?_, ?_⟩, ?_⟩
    · intro old' hOld'
      cases hOld.symm.trans hOld'
      refine ⟨new, hNew, hRaw, ?_⟩
      rw [hContent, hOutText, hSpans, ← hRead]
      exact hWithout
    · -- no line is demoted: then the text would be the same
      intro hNone
      rw [hNone] at hWithout
      have hAfter := hWithout.eq_of_nil
      rw [hRead, ← hSpans, ← hOutText] at hAfter
      exact absurd hAfter hChanged
    · rw [hRead, List.forall₂_map_right_iff]
      refine List.forall₂_same.mpr fun span hSpan hHidden => ?_
      unfold demoteWord
      split
      · rfl
      · -- a word that cannot be searched is in no line that is kept
        show keptRole span.role = false
        rw [Bool.eq_false_iff]
        intro hRole
        rw [hMarked.searchable span hSpan hRole] at hHidden
        exact Bool.false_ne_true hHidden.symm
    · intro text hNow
      rw [hText'] at hNow
      cases hNow
      rw [hRead, ← hSpans, hOutText]
      exact ⟨rfl, hSpans ▸ hMarked.demote demoted⟩
  · refine ⟨removesOnlyDemoted_of_same ?_ ?_ hRead hEmbedding, hAgrees.of_same ?_ hRead⟩
    · intro old' hOld'
      cases hOld.symm.trans hOld'
      exact ⟨new, hNew, hRaw, hContent.trans hSame⟩
    · rw [hText', hText, hSame]
    · rw [hText', hText, hSame]

/-! ## Batches -/

variable {latest : Int × Int → Option Embedding}

/-- A batch changes the texts of its frames only, and each of them once. -/
theorem backfillBatch_removes {batch : List Int} (h : Mirrored latest db)
    (hAgrees : ∀ frameId, Agrees db frameId) (hNodup : batch.Nodup)
    (hOk : db.backfillBatch (shipped toLowercase) b batch = .ok db') :
    (∀ frameId, RemovesOnlyDemoted frameId db db' ∧ Agrees db' frameId) ∧
      ∀ frameId, frameId ∉ batch → SameFrame frameId db db' := by
  induction batch generalizing db with
  | nil =>
    cases hOk
    exact ⟨fun frameId => ⟨(SameFrame.refl frameId _).removes, hAgrees frameId⟩,
      fun frameId _ => .refl frameId _⟩
  | cons first rest ih =>
    obtain ⟨hNotIn, hRest⟩ := List.nodup_cons.mp hNodup
    unfold backfillBatch at hOk
    rw [List.foldlM_cons, bind_ok] at hOk
    obtain ⟨mid, hFirst, hOk⟩ := hOk
    have hOthers := (backfillFrame_read h.ids hFirst).2
    obtain ⟨hRemoves, hFirstAgrees⟩ := backfillFrame_removes h.ids (hAgrees first) hFirst
    have hMid : ∀ frameId, Agrees mid frameId := by
      intro frameId
      by_cases hSame : frameId = first
      · exact hSame ▸ hFirstAgrees
      · exact (hOthers frameId hSame).agrees (hAgrees frameId)
    obtain ⟨hAll, hLater⟩ := ih (backfillFrame_mirrored (shipped toLowercase) h hFirst) hMid hRest hOk
    refine ⟨fun frameId => ⟨?_, (hAll frameId).2⟩, fun frameId hOut => ?_⟩
    · by_cases hSame : frameId = first
      · subst hSame
        exact hRemoves.before_same (hLater frameId hNotIn)
      · exact (hAll frameId).1.after_same (hOthers frameId hSame)
    · rw [List.mem_cons, not_or] at hOut
      exact (hOthers frameId hOut.1).trans (hLater frameId hOut.2)

theorem runBatches_removes {broken : Option Nat} {batches : List (List Int)}
    (h : Mirrored latest db) (hAgrees : ∀ frameId, Agrees db frameId)
    (hNodup : batches.flatten.Nodup) :
    (∀ frameId, RemovesOnlyDemoted frameId db
        (runBatches (shipped toLowercase) b broken batches db).1) ∧
      ∀ frameId, frameId ∉ batches.flatten →
        SameFrame frameId db (runBatches (shipped toLowercase) b broken batches db).1 := by
  have hUnchanged : (∀ frameId, RemovesOnlyDemoted frameId db db) ∧
      ∀ frameId, frameId ∉ batches.flatten → SameFrame frameId db db :=
    ⟨fun frameId => (SameFrame.refl frameId db).removes, fun frameId _ => .refl frameId db⟩
  induction batches generalizing db broken with
  | nil => exact hUnchanged
  | cons batch rest ih =>
    rw [List.flatten_cons] at hNodup
    obtain ⟨hBatch, hRest, hApart⟩ := List.nodup_append.mp hNodup
    unfold runBatches
    split
    · next hNil => cases hNil
    · exact hUnchanged
    · next hCons =>
      cases hCons
      split
      · next mid hOk =>
        obtain ⟨hFirst, hOthers⟩ := backfillBatch_removes h hAgrees hBatch hOk
        obtain ⟨hAll, hLater⟩ := @ih mid _
          (backfillBatch_mirrored (shipped toLowercase) h hOk) (fun frameId => (hFirst frameId).2)
          hRest ⟨fun frameId => (SameFrame.refl frameId mid).removes,
            fun frameId _ => .refl frameId mid⟩
        refine ⟨fun frameId => ?_, fun frameId hOut => ?_⟩
        · by_cases hIn : frameId ∈ batch
          · refine (hFirst frameId).1.before_same (hLater frameId fun hInRest => ?_)
            exact hApart _ hIn _ hInRest rfl
          · exact (hAll frameId).after_same (hOthers frameId hIn)
        · rw [List.flatten_cons, List.mem_append, not_or] at hOut
          exact (hOthers frameId hOut.1).trans (hLater frameId hOut.2)
      · exact hUnchanged

/-- A call over texts that are what their spans keep. -/
theorem backfillFilterVersion_removes (h : Mirrored latest db)
    (hAgrees : ∀ frameId, Agrees db frameId) (call : FilterCall) (frameId : Int) :
    RemovesOnlyDemoted frameId db (backfillFilterVersion (shipped toLowercase) call db).1 := by
  unfold backfillFilterVersion
  split
  · exact (SameFrame.refl frameId db).removes
  · refine (runBatches_removes h hAgrees ?_).1 frameId
    rw [Batch.toChunks_flatten]
    have hPerm : ((call.rows db).map FrameTextRow.frameId).Perm
        ((db.frameText.filter fun row => row.filterVersion < call.current).map
          FrameTextRow.frameId) := (Sorting.sortByKey_perm _ _).map _
    exact hPerm.nodup_iff.mpr (h.textKeys.sublist (List.filter_sublist.map _))

/-! ## Runs -/

theorem upsertFrameText_spans {row : FrameTextRow} (hOk : db.upsertFrameText row = .ok db') :
    db'.textSpans = db.textSpans := by
  unfold SearchTables.upsertFrameText Store.upsertFrameText at hOk
  split at hOk
  · cases hOk
  · cases hOk
    rfl

/-- A text and its spans are stored together. -/
theorem stored_agrees {mid : SearchTables} {row : FrameTextRow} {spans : List TextSpan}
    (hAgrees : ∀ frameId, Agrees db frameId) (hText : db.upsertFrameText row = .ok mid)
    (hSpans : mid.replaceTextSpans row.frameId spans = .ok db')
    (hKept : row.contentText = keptText spans) (hMarked : Marked spans) :
    ∀ frameId, Agrees db' frameId := by
  have hRead := replaceTextSpans_read hSpans
  have hBefore := readTextSpans_of_rows (upsertFrameText_spans hText)
  have hWritten := (upsertFrameText_written hText).1.text
  obtain ⟨rows, rfl⟩ := replaceTextSpans_ok hSpans
  intro frameId
  by_cases hSame : frameId = row.frameId
  · intro text hNow
    have hNow : mid.contentTextOf frameId = some text := hNow
    rw [hWritten frameId, if_pos hSame] at hNow
    cases hNow
    rw [hRead frameId, if_pos hSame]
    exact ⟨hKept.symm, hMarked⟩
  · refine (hAgrees frameId).of_same ?_ ?_
    · show mid.contentTextOf frameId = _
      rw [hWritten frameId, if_neg hSame]
    · rw [hRead frameId, if_neg hSame, hBefore frameId]

theorem insertOcr_agrees {ocr : OcrResult} (hAgrees : ∀ frameId, Agrees db frameId)
    (hRecognized : Recognized ocr) (hOk : db.insertOcr frameId ocr = .ok db') :
    ∀ frameId, Agrees db' frameId := by
  unfold insertOcr at hOk
  dsimp only at hOk
  rw [bind_ok] at hOk
  obtain ⟨mid, hText, hSpans⟩ := hOk
  exact stored_agrees hAgrees hText hSpans hRecognized.1 hRecognized.2

theorem insertOcrFiltered_agrees {ocr : OcrResult} {ctx : TextFilterContext}
    (hAgrees : ∀ frameId, Agrees db frameId)
    (hOk : db.insertOcrFiltered (shipped toLowercase) frameId ocr ctx = .ok db') :
    ∀ frameId, Agrees db' frameId := by
  obtain ⟨mid, withSpans, hText, hSpans, rfl⟩ := insertOcrFiltered_ok hOk
  have hStored := stored_agrees hAgrees hText hSpans
    (classify_keptText toLowercase _ _ _).symm (classify_marked toLowercase _ _ _)
  exact fun frameId => (hStored frameId).of_same rfl rfl

theorem degradeFrameToText_agrees (hAgrees : ∀ frameId, Agrees db frameId)
    (hOk : db.degradeFrameToText (shipped toLowercase) frameId = .ok db') :
    ∀ frameId, Agrees db' frameId := by
  unfold degradeFrameToText mergeFrameSpans at hOk
  rw [bind_ok] at hOk
  obtain ⟨merged, hMerged, hOk⟩ := hOk
  cases hOk
  dsimp only at hMerged
  split at hMerged
  · cases hMerged
    exact fun other => (hAgrees other).of_same rfl rfl
  · have hRead := replaceTextSpans_read hMerged
    obtain ⟨rows, rfl⟩ := replaceTextSpans_ok hMerged
    intro other
    by_cases hSame : other = frameId
    · subst hSame
      intro text hText
      obtain ⟨hKept, hMarked⟩ := hAgrees other text hText
      obtain ⟨hMergedKept, hMergedMarked⟩ := mergeSpansToLines_keptText toLowercase hMarked
      have hNow : readTextSpans { db with textSpans := rows } other =
          mergeSpansToLines toLowercase (db.readTextSpans other) :=
        (hRead other).trans (if_pos rfl)
      show keptText (readTextSpans { db with textSpans := rows } other) = text ∧
        Marked (readTextSpans { db with textSpans := rows } other)
      rw [hNow]
      exact ⟨hMergedKept.trans hKept, hMergedMarked⟩
    · exact (hAgrees other).of_same rfl ((hRead other).trans (if_neg hSame))

theorem deleteFrame_agrees (hAgrees : ∀ frameId, Agrees db frameId) (frameId : Int) :
    ∀ other, Agrees (db.deleteFrame frameId) other := by
  intro other
  by_cases hSame : other = frameId
  · subst hSame
    intro text hText
    obtain ⟨row, hRow, hId⟩ := contentTextOf_some hText
    have hNot := (List.mem_filter.mp (show row ∈ db.frameText.filter fun row =>
      row.frameId ≠ other from hRow)).2
    exact absurd hId (of_decide_eq_true hNot)
  · refine (hAgrees other).of_same ?_ ?_
    · show ((db.frameText.filter fun row => row.frameId ≠ frameId).find? fun row =>
        row.frameId == other).map _ = _
      rw [List.find?_filter]
      unfold contentTextOf frameTextOf
      congr 2
      funext row
      by_cases hRow : row.frameId = other
      · rw [hRow]
        simp [hSame]
      · simp [hRow]
    · show (Sorting.sortByKey _ ((db.textSpans.filter fun row =>
        row.frameId ≠ frameId).filter _)).map _ = _
      rw [List.filter_filter]
      unfold readTextSpans
      congr 2
      refine List.filter_congr fun row _ => ?_
      by_cases hRow : row.frameId = other
      · rw [hRow]
        simp [hSame]
      · simp [hRow]

theorem backfillBatch_agrees {batch : List Int} (h : Mirrored latest db)
    (hAgrees : ∀ frameId, Agrees db frameId)
    (hOk : db.backfillBatch (shipped toLowercase) b batch = .ok db') :
    ∀ frameId, Agrees db' frameId := by
  induction batch generalizing db with
  | nil =>
    cases hOk
    exact hAgrees
  | cons first rest ih =>
    unfold backfillBatch at hOk
    rw [List.foldlM_cons, bind_ok] at hOk
    obtain ⟨mid, hFirst, hOk⟩ := hOk
    refine ih (backfillFrame_mirrored (shipped toLowercase) h hFirst) (fun frameId => ?_) hOk
    by_cases hSame : frameId = first
    · exact hSame ▸ (backfillFrame_removes h.ids (hAgrees first) hFirst).2
    · exact ((backfillFrame_read h.ids hFirst).2 frameId hSame).agrees (hAgrees frameId)

/-- Every call leaves each text what its spans keep. -/
theorem run_agrees {s : SearchStep} (h : Mirrored latest db)
    (hAgrees : ∀ frameId, Agrees db frameId) (hFaithful : s.Faithful)
    (hOk : s.op.run (shipped toLowercase) db = .ok db') : ∀ frameId, Agrees db' frameId := by
  unfold SearchStep.Faithful at hFaithful
  rcases hOp : s.op with f | ⟨frameId, ocr⟩ | ⟨frameId, ocr, ctx⟩ | ⟨b, batch⟩ | frameId |
    ⟨frameId, v⟩ | ⟨frameId, chunkIndex, chunkText, source, emb, model⟩ | frameId
  all_goals rw [hOp] at hFaithful hOk
  · obtain ⟨tables, rfl, hText⟩ := insertFrame_ok hOk
    refine fun other => (hAgrees other).of_same ?_ rfl
    unfold contentTextOf frameTextOf
    rw [hText]
  · exact insertOcr_agrees hAgrees hFaithful hOk
  · exact insertOcrFiltered_agrees hAgrees hOk
  · exact backfillBatch_agrees h hAgrees hOk
  · exact degradeFrameToText_agrees hAgrees hOk
  · unfold SearchOp.run insertVision at hOk
    dsimp only at hOk
    split at hOk
    · cases hOk
    · cases hOk
      exact fun other => (hAgrees other).of_same rfl rfl
  · obtain ⟨rows, vectors, rfl, -⟩ := upsertTextEmbedding_ok h hOk
    exact fun other => (hAgrees other).of_same rfl rfl
  · cases hOk
    exact deleteFrame_agrees hAgrees frameId

theorem searchRun_agrees (uuid : String) (steps : List SearchStep)
    (hFaithful : ∀ s ∈ steps, s.Faithful) :
    ∀ frameId, Agrees (searchRun (shipped toLowercase) uuid steps).db frameId := by
  induction steps using List.reverseRecOn with
  | nil =>
    intro frameId text hText
    obtain ⟨row, hRow, -⟩ := contentTextOf_some hText
    cases hRow
  | append_singleton steps s ih =>
    have hBefore := ih fun s hs => hFaithful s (List.mem_append_left _ hs)
    have hMirrored := searchRun_mirrored (shipped toLowercase) uuid steps
    unfold searchRun at hBefore hMirrored ⊢
    rw [List.foldl_append, List.foldl_cons, List.foldl_nil]
    unfold SearchRun.step
    split
    · exact hBefore
    · split
      · next db hOk =>
        exact run_agrees hMirrored hBefore (hFaithful s (by simp)) hOk
      · exact hBefore

/-- **The backfill removes only demoted chrome**, whatever the catalog and the configuration
are, if each text that was stored as it was recognized is what its spans keep. -/
theorem removes_only_demoted (toLowercase : String → String) (uuid : String)
    (steps : List SearchStep) (hFaithful : ∀ s ∈ steps, s.Faithful) (catalog : List CatalogRow)
    (call : FilterCall) (frameId : Int) :
    let db : SearchTables :=
      { (searchRun (shipped toLowercase) uuid steps).db with chromeTextCatalog := catalog }
    RemovesOnlyDemoted frameId db (backfillFilterVersion (shipped toLowercase) call db).1 := by
  have hMirrored := searchRun_mirrored (shipped toLowercase) uuid steps
  refine @backfillFilterVersion_removes _ toLowercase
    (latestUpsert (searchRun (shipped toLowercase) uuid steps).committed) ?_ ?_ call frameId
  · exact ⟨hMirrored.textKeys, hMirrored.content, hMirrored.raw, hMirrored.ids, hMirrored.chunks,
      hMirrored.vectors, hMirrored.stored⟩
  · exact fun other => (searchRun_agrees uuid steps hFaithful other).of_same rfl rfl

/-! ## Texts with and without spans -/

def recognizedFrame : NewFrame where
  capturedAt := 1000
  monitorIndex := 0
  appHint := some "editor"
  windowTitle := none
  browserUrl := none

def wordOn (lineIndex : Nat) (text : String) : TextSpan where
  text := text
  normalizedText := text
  source := .ocr
  role := .unknown
  x := 0
  y := lineIndex
  w := 1
  h := 1
  lineIndex := lineIndex
  isSearchable := true
  suppressReason := none

def storedText (text : String) (spans : List TextSpan) : List SearchStep :=
  [⟨.insertFrame recognizedFrame, false⟩,
    ⟨.insertOcr 1 { text := text, engine := "rten", spans := spans }, false⟩]

/-- The catalog has learned one label of the application. -/
def learnedFile : CatalogRow where
  signature := signature (some "editor") (regionBucket (1 / 2) (1 / 2) 8) "file"
  appHint := some "editor"
  regionBucket := regionBucket (1 / 2) (1 / 2) 8
  normalizedText := "file"
  seenCount := 25
  suppressed := true

def firstCall : FilterCall where
  current := filterVersion
  config := { chromeSuppressMinSeen := 25, chromeProtectMinChars := 40, chromeRegionBuckets := 8 }
  reembed := true
  clock := 0
  watermark := none
  brokenAfter := none

theorem removes_only_demoted_label :
    (∀ s ∈ storedText "file\nhello" [wordOn 0 "file", wordOn 1 "hello"], s.Faithful) ∧
    RemovesOnlyDemoted 1
      { (searchRun (shipped id) "00000000-0000-4000-8000-000000000000"
          (storedText "file\nhello" [wordOn 0 "file", wordOn 1 "hello"])).db with
        chromeTextCatalog := [learnedFile] }
      (backfillFilterVersion (shipped id) firstCall
        { (searchRun (shipped id) "00000000-0000-4000-8000-000000000000"
            (storedText "file\nhello" [wordOn 0 "file", wordOn 1 "hello"])).db with
          chromeTextCatalog := [learnedFile] }).1 := by
  have hFaithful : ∀ s ∈ storedText "file\nhello" [wordOn 0 "file", wordOn 1 "hello"],
      s.Faithful := by
    intro s hs
    rcases List.mem_cons.mp hs with rfl | hs
    · exact trivial
    · rw [List.mem_singleton.mp hs]
      show Recognized _
      decide +kernel
  exact ⟨hFaithful, removes_only_demoted id "00000000-0000-4000-8000-000000000000" _ hFaithful
    [learnedFile] firstCall 1⟩

/-- A text that was recognized without spans is lost, though no line is demoted. -/
theorem spanless_text_lost : ¬ RemovesOnlyDemoted 1
    (searchRun (shipped id) "00000000-0000-4000-8000-000000000000" (storedText "hello" [])).db
    (backfillFilterVersion (shipped id) firstCall
      (searchRun (shipped id) "00000000-0000-4000-8000-000000000000"
        (storedText "hello" [])).db).1 := by
  intro h
  have hNone : demotedLines [] [] = [] := rfl
  have hText := (h.spared (by decide +kernel)).1
  have hBefore : (searchRun (shipped id) "00000000-0000-4000-8000-000000000000"
      (storedText "hello" [])).db.contentTextOf 1 = some "hello" := by decide +kernel
  have hAfter : (backfillFilterVersion (shipped id) firstCall
      (searchRun (shipped id) "00000000-0000-4000-8000-000000000000"
        (storedText "hello" [])).db).1.contentTextOf 1 = some "" := by decide +kernel
  rw [hBefore, hAfter] at hText
  exact absurd hText (by decide)

end ScreenSearch.Store
