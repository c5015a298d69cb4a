import ScreenSearch.Lib.Bytes
import ScreenSearch.Store.Frames
import ScreenSearch.Store.Jobs
import ScreenSearch.Traits.TextSpans
import Mathlib.Algebra.Order.Ring.Rat

/-!
# The search tables

Texts, spans and embeddings of frames, with the two full-text indexes and the vector table
that triggers keep beside them. A statement is a function of the tables; a transaction is
a run of statements of which all take effect or none.
-/

namespace ScreenSearch.Store

/-- A row of `text_spans`. -/
structure SpanRow where
  frameId : Int
  spanIndex : Nat
  span : TextSpan
  deriving DecidableEq, Repr

/-- A row of `chrome_text_catalog`. -/
structure CatalogRow where
  signature : String
  appHint : Option String
  regionBucket : String
  normalizedText : String
  seenCount : Nat
  suppressed : Bool
  deriving DecidableEq, Repr

/-- A row of `embeddings`. -/
structure EmbeddingRow where
  id : Int
  frameId : Int
  chunkIndex : Int
  chunkText : String
  source : ChunkSource
  model : String
  deriving DecidableEq, Repr

/-- A row of `embedding_vectors`. -/
structure VectorRow where
  embeddingId : Int
  embedding : List UInt8
  deriving DecidableEq, Repr

/-- What a full-text index holds for a row. -/
abbrev FtsEntry := Int × String

structure SearchTables extends FrameTables where
  textSpans : List SpanRow
  chromeTextCatalog : List CatalogRow
  contentFts : List FtsEntry
  rawFts : List FtsEntry
  embeddings : List EmbeddingRow
  embeddingVectors : List VectorRow
  jobs : List Job
  deriving DecidableEq, Repr

namespace SearchTables

def noFrames : FrameTables where
  historyId := none
  frameIdHighWater := none
  frames := []
  frameText := []
  visionAnalysis := []

/-- A freshly migrated database, with the identity its history was given. -/
def fresh (uuid : String) : SearchTables where
  toFrameTables := setupHistoryMetadata uuid noFrames
  textSpans := []
  chromeTextCatalog := []
  contentFts := []
  rawFts := []
  embeddings := []
  embeddingVectors := []
  jobs := []

/-! ## Triggers -/

def ftsInsert (entry : FtsEntry) (index : List FtsEntry) : List FtsEntry := index ++ [entry]

/-- The `'delete'` command: only the text that was indexed takes its entry out. -/
def ftsDelete (entry : FtsEntry) (index : List FtsEntry) : List FtsEntry := index.erase entry

/-- The triggers of one index: the entry of the row as it was goes, the one of the row as
it is comes. -/
def syncIndex (text : FrameTextRow → String) (old new : Option FrameTextRow)
    (index : List FtsEntry) : List FtsEntry :=
  let index := match old with
    | some row => ftsDelete (row.frameId, text row) index
    | none => index
  match new with
  | some row => ftsInsert (row.frameId, text row) index
  | none => index

/-- `frame_text_ai`, `frame_text_au` and `frame_text_ad`, and the same for the raw text. -/
def afterFrameText (old new : Option FrameTextRow) (db : SearchTables) : SearchTables :=
  { db with
    contentFts := syncIndex FrameTextRow.contentText old new db.contentFts
    rawFts := syncIndex FrameTextRow.rawText old new db.rawFts }

/-! ## Statements -/

def hasFrame (db : SearchTables) (frameId : Int) : Bool :=
  db.frames.any fun frame => frame.id == frameId

/-- `INSERT .. ON CONFLICT(frame_id) DO UPDATE` of `frame_text`. -/
def upsertFrameText (row : FrameTextRow) (db : SearchTables) :
    Except HistoryReadError SearchTables := do
  let tables ← Store.upsertFrameText row db.toFrameTables
  let old := frameTextOf db.toFrameTables row.frameId
  pure (afterFrameText old (some row) { db with toFrameTables := tables })

/-- `UPDATE frame_text SET .. WHERE frame_id = ?1`, for a row that was read. -/
def updateFrameText (old new : FrameTextRow) (db : SearchTables) : SearchTables :=
  afterFrameText (some old) (some new)
    { db with frameText := db.frameText.map fun row => if row.frameId = new.frameId then new else row }

/-- `DELETE FROM embeddings`, with `embeddings_ad`. -/
def deleteEmbeddings (isMatch : EmbeddingRow → Bool) (db : SearchTables) : SearchTables :=
  let gone := (db.embeddings.filter isMatch).map EmbeddingRow.id
  { db with
    embeddings := db.embeddings.filter fun row => !isMatch row
    embeddingVectors := db.embeddingVectors.filter fun row => !gone.contains row.embeddingId }

def insertVector (row : VectorRow) (db : SearchTables) : Except HistoryReadError SearchTables :=
  if db.embeddingVectors.any fun other => other.embeddingId == row.embeddingId then
    .error (.storage "UNIQUE constraint failed on embedding_vectors primary key")
  else .ok { db with embeddingVectors := db.embeddingVectors ++ [row] }

/-- `DELETE FROM frames`, with what hangs off the frame. -/
def deleteFrame (frameId : Int) (db : SearchTables) : SearchTables :=
  let old := frameTextOf db.toFrameTables frameId
  let db := deleteEmbeddings (fun row => row.frameId == frameId) db
  afterFrameText old none
    { db with
      toFrameTables := Store.deleteFrame frameId db.toFrameTables
      textSpans := db.textSpans.filter fun row => row.frameId ≠ frameId
      jobs := db.jobs.filter fun job => job.frameId ≠ some frameId }

def replaceTextSpans (frameId : Int) (spans : List TextSpan) (db : SearchTables) :
    Except HistoryReadError SearchTables :=
  if !spans.isEmpty && !db.hasFrame frameId then
    .error (.storage "FOREIGN KEY constraint failed")
  else .ok
    { db with textSpans := (db.textSpans.filter fun row => row.frameId ≠ frameId) ++
        spans.zipIdx.map fun (span, i) => { frameId := frameId, spanIndex := i, span := span } }

def contentTextOf (db : SearchTables) (frameId : Int) : Option String :=
  (frameTextOf db.toFrameTables frameId).map FrameTextRow.contentText

/-- The content text of a frame, if there is such a frame and it has one. -/
def frameEnrichmentInput (db : SearchTables) (frameId : Int) : Option (Option String) :=
  if db.hasFrame frameId then some (db.contentTextOf frameId) else none

/-- In the order of the span index. -/
def readTextSpans (db : SearchTables) (frameId : Int) : List TextSpan :=
  (Sorting.sortByKey SpanRow.spanIndex (db.textSpans.filter fun row => row.frameId == frameId)).map
    SpanRow.span

/-- The queue's view of the tables. -/
def jobTables (db : SearchTables) : JobTables where
  frames := db.frames.map StoredFrame.id
  jobs := db.jobs

/-- `INSERT INTO jobs`. -/
def insertJob (job : NewJob) (clock : Int) (db : SearchTables) :
    Except HistoryReadError SearchTables :=
  match enqueueJob job clock db.jobTables with
  | .ok (_, t) => .ok { db with jobs := t.jobs }
  | .error e => .error (.storage e)

/-! ## The attention filter's reads and writes -/

def primarySourceFor (engine : String) : TextSource := if engine = "uia" then .uia else .ocr

def unfilteredFilterVersion : Int := 0

def filterVersion : Int := 2

/-- `(app_hint, window_title)`, both absent when there is no such frame. -/
def frameTargetContext (db : SearchTables) (frameId : Int) : Option String × Option String :=
  match db.frames.find? fun frame => frame.id == frameId with
  | some frame => (frame.appHint, frame.windowTitle)
  | none => (none, none)

/-- What the application's signatures were seen. -/
def loadChromeCatalog (db : SearchTables) (appHint : Option String) : ChromeCatalog :=
  fun signature =>
    match db.chromeTextCatalog.find? fun row =>
        row.signature == signature && row.appHint == appHint with
    | some row => row.seenCount
    | none => 0

/-- One more appearance of a signature. -/
def bumpCatalog (minSeen : Nat) (catalog : List CatalogRow) (obs : ObservedSignature) :
    List CatalogRow :=
  if catalog.any fun row => row.signature == obs.signature then
    catalog.map fun row =>
      if row.signature = obs.signature then
        { row with
          seenCount := row.seenCount + 1
          suppressed := decide (row.seenCount + 1 ≥ minSeen) }
      else row
  else catalog ++
    [{ signature := obs.signature
       appHint := obs.appHint
       regionBucket := obs.regionBucket
       normalizedText := obs.normalizedText
       seenCount := 1
       suppressed := decide (1 ≥ minSeen) }]

/-! ## Lines -/

/-- The words of a line, of which `first` is the first, as one span around them all. -/
def mergeLine (toLowercase : String → String) (first : TextSpan) (line : List TextSpan) :
    TextSpan :=
  let minX := ((line.map TextSpan.x).min?).getD first.x
  let minY := ((line.map TextSpan.y).min?).getD first.y
  let maxRight := ((line.map fun s => s.x + s.w).max?).getD (first.x + first.w)
  let maxBottom := ((line.map fun s => s.y + s.h).max?).getD (first.y + first.h)
  let text := " ".intercalate (line.map TextSpan.text)
  let isSearchable := line.any TextSpan.isSearchable
  { text := text
    normalizedText := normalizeText toLowercase text
    source := first.source
    -- content wins, so that the line stays legible
    role := ((line.find? fun s => s.role == .content).map TextSpan.role).getD first.role
    x := minX
    y := minY
    w := max (maxRight - minX) 0
    h := max (maxBottom - minY) 0
    lineIndex := first.lineIndex
    isSearchable := isSearchable
    suppressReason := if isSearchable then none else first.suppressReason }

/-- One span a line, in the order in which the lines first appear. -/
def mergeSpansToLines (toLowercase : String → String) (spans : List TextSpan) : List TextSpan :=
  ((spans.map TextSpan.lineIndex).eraseDups).filterMap fun lineIndex =>
    let line := spans.filter fun s => s.lineIndex == lineIndex
    line.head?.map fun first => mergeLine toLowercase first line

/-! ## Transactions -/

def insertFrame (f : NewFrame) (db : SearchTables) : Except HistoryReadError SearchTables := do
  let (_, tables) ← Store.insertFrame f db.toFrameTables
  pure { db with toFrameTables := tables }

/-- The text as it was recognized is its content. -/
def insertOcr (frameId : Int) (ocr : OcrResult) (db : SearchTables) :
    Except HistoryReadError SearchTables := do
  let (appHint, windowTitle) := db.frameTargetContext frameId
  let db ← upsertFrameText
    { frameId := frameId
      rawText := ocr.text
      contentText := ocr.text
      primarySource := primarySourceFor ocr.engine
      filterVersion := unfilteredFilterVersion
      suppressedCount := 0
      targetWindowTitle := windowTitle
      targetAppHint := appHint } db
  replaceTextSpans frameId ocr.spans db

/-- What the filter makes of a frame's text. -/
def classified (textFilter : TextFilter) (frameId : Int) (ocr : OcrResult) (ctx : TextFilterContext)
    (db : SearchTables) : ClassifyOutput :=
  let (appHint, windowTitle) := db.frameTargetContext frameId
  textFilter.classify
    { spans := ocr.spans
      targetRect := ctx.targetRect
      targetWindowTitle := windowTitle
      targetAppHint := appHint }
    (db.loadChromeCatalog appHint)
    { chromeSuppressMinSeen := ctx.chromeSuppressMinSeen
      chromeProtectMinChars := ctx.chromeProtectMinChars
      chromeRegionBuckets := ctx.chromeRegionBuckets }

def insertOcrFiltered (textFilter : TextFilter) (frameId : Int) (ocr : OcrResult)
    (ctx : TextFilterContext) (db : SearchTables) : Except HistoryReadError SearchTables := do
  let (appHint, windowTitle) := db.frameTargetContext frameId
  let out := classified textFilter frameId ocr ctx db
  let db ← upsertFrameText
    { frameId := frameId
      rawText := ocr.text
      contentText := out.contentText
      primarySource := primarySourceFor ocr.engine
      filterVersion := filterVersion
      suppressedCount := out.suppressedCount
      targetWindowTitle := windowTitle
      targetAppHint := appHint } db
  let db ← replaceTextSpans frameId out.spans db
  pure { db with chromeTextCatalog :=
    out.observed.foldl (bumpCatalog (max ctx.chromeSuppressMinSeen 1)) db.chromeTextCatalog }

/-- What one batch of the backfill is given; the catalogs were read before the first. -/
structure Backfill where
  current : Int
  config : FilterConfig
  catalogs : Option String → ChromeCatalog
  reembed : Bool
  clock : Int

/-- The row of a frame whose content changed. -/
def cleaned (b : Backfill) (out : ClassifyOutput) (old : FrameTextRow) : FrameTextRow :=
  { old with
    contentText := out.contentText
    suppressedCount := out.suppressedCount
    filterVersion := b.current }

/-- The text of one frame, cleaned again. -/
def backfillFrame (textFilter : TextFilter) (b : Backfill) (db : SearchTables) (frameId : Int) :
    Except HistoryReadError SearchTables :=
  match frameTextOf db.toFrameTables frameId with
  | none => .error (.storage "Query returned no rows")
  | some old =>
    let spans := db.readTextSpans frameId
    let out := textFilter.reconcile spans old.targetAppHint (b.catalogs old.targetAppHint) b.config
    if out.contentText ≠ old.contentText then do
      let db ← replaceTextSpans frameId out.spans (updateFrameText old (cleaned b out old) db)
      -- the dropped words must not keep finding the frame
      let db := deleteEmbeddings (fun row => row.frameId == frameId && row.source == .ocr) db
      if b.reembed then
        insertJob
          { kind := .embedText, frameId := some frameId, priority := 0, maxAttempts := 3,
            notBefore := 0 } b.clock db
      else pure db
    else pure (updateFrameText old { old with filterVersion := b.current } db)

def backfillBatch (textFilter : TextFilter) (b : Backfill) (batch : List Int) (db : SearchTables) :
    Except HistoryReadError SearchTables :=
  batch.foldlM (backfillFrame textFilter b) db

/-- The frame's spans, a line each. -/
def mergeFrameSpans (textFilter : TextFilter) (frameId : Int) (db : SearchTables) :
    Except HistoryReadError SearchTables :=
  let spans := db.readTextSpans frameId
  if spans.isEmpty then .ok db
  else replaceTextSpans frameId (mergeSpansToLines textFilter.toLowercase spans) db

def degradeFrameToText (textFilter : TextFilter) (frameId : Int) (db : SearchTables) :
    Except HistoryReadError SearchTables := do
  let db ← mergeFrameSpans textFilter frameId db
  pure { db with frames := db.frames.map fun frame =>
    if frame.id = frameId then { frame with imagePurged := true } else frame }

def insertVision (frameId : Int) (v : VisionAnalysis) (db : SearchTables) :
    Except HistoryReadError SearchTables :=
  if !db.hasFrame frameId then .error (.storage "FOREIGN KEY constraint failed")
  else
    let row : VisionRow :=
      { frameId := frameId
        description := v.description
        activityType := v.activityType
        appHint := v.appHint
        model := v.model }
    .ok { db with
      visionAnalysis :=
        if db.visionAnalysis.any fun other => other.frameId == frameId then
          db.visionAnalysis.map fun other => if other.frameId = frameId then row else other
        else db.visionAnalysis ++ [row]
      frames := db.frames.map fun frame =>
        if frame.id = frameId then { frame with activityType := v.activityType } else frame }

def embeddingDim : Nat := 768

/-- Little-endian. -/
def f32Blob (v : Embedding) : List UInt8 := v.flatMap fun bits => (Bytes.toBe 4 bits.toNat).reverse

/-- The metadata of a chunk, in the row it has or in a new one; also the row's id. -/
def upsertEmbeddingRow (frameId chunkIndex : Int) (chunkText : String) (source : ChunkSource)
    (model : String) (db : SearchTables) : Except HistoryReadError (Int × SearchTables) :=
  match db.embeddings.find? fun row => row.frameId == frameId && row.chunkIndex == chunkIndex with
  | some existing =>
    .ok (existing.id,
      { db with
        embeddings := db.embeddings.map fun row =>
          if row.id = existing.id then
            { row with chunkText := chunkText, source := source, model := model }
          else row
        embeddingVectors := db.embeddingVectors.filter fun row => row.embeddingId ≠ existing.id })
  | none =>
    if !db.hasFrame frameId then .error (.storage "FOREIGN KEY constraint failed")
    else
      let id := nextRowid (db.embeddings.map EmbeddingRow.id)
      .ok (id,
        { db with embeddings := db.embeddings ++
            [{ id := id
               frameId := frameId
               chunkIndex := chunkIndex
               chunkText := chunkText
               source := source
               model := model }] })

def upsertTextEmbedding (frameId chunkIndex : Int) (chunkText : String) (source : ChunkSource)
    (emb : Embedding) (model : String) (db : SearchTables) :
    Except HistoryReadError SearchTables := do
  if emb.length ≠ embeddingDim then
    throw (.storage "text embedding has the wrong number of dims")
  let (id, db) ← upsertEmbeddingRow frameId chunkIndex chunkText source model db
  insertVector { embeddingId := id, embedding := f32Blob emb } db

end SearchTables

/-! ## Runs -/

/-- A call of the store, with any arguments. -/
inductive SearchOp where
  | insertFrame (f : NewFrame)
  | insertOcr (frameId : Int) (ocr : OcrResult)
  | insertOcrFiltered (frameId : Int) (ocr : OcrResult) (ctx : TextFilterContext)
  | backfillBatch (b : SearchTables.Backfill) (batch : List Int)
  | degradeFrameToText (frameId : Int)
  | insertVision (frameId : Int) (v : VisionAnalysis)
  | upsertTextEmbedding (frameId chunkIndex : Int) (chunkText : String) (source : ChunkSource)
      (emb : Embedding) (model : String)
  | deleteFrame (frameId : Int)

def SearchOp.run (textFilter : TextFilter) (op : SearchOp) (db : SearchTables) :
    Except HistoryReadError SearchTables :=
  match op with
  | .insertFrame f => db.insertFrame f
  | .insertOcr frameId ocr => db.insertOcr frameId ocr
  | .insertOcrFiltered frameId ocr ctx => db.insertOcrFiltered textFilter frameId ocr ctx
  | .backfillBatch b batch => db.backfillBatch textFilter b batch
  | .degradeFrameToText frameId => db.degradeFrameToText textFilter frameId
  | .insertVision frameId v => db.insertVision frameId v
  | .upsertTextEmbedding frameId chunkIndex chunkText source emb model =>
    db.upsertTextEmbedding frameId chunkIndex chunkText source emb model
  | .deleteFrame frameId => .ok (db.deleteFrame frameId)

end ScreenSearch.Store
