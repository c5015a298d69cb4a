import ScreenSearch.Lib.Json
import ScreenSearch.Lib.Keyset
import ScreenSearch.Store.Frames

/-!
# The streaming export

The export reads the frames page by page and, behind the last one, the marks, while others
write. What it hands out are pieces of one document.

Main results:

* `poll_inv`, `write_inv` — what every read and every write keep;
* `export_complete` — what a finished export has handed out;
* `export_skipsLateFrame` — a mark of a frame that came between the last page and the marks.
-/

namespace ScreenSearch.Api.Export

open Store Sorting

/-! ## Tables -/

/-- A row of `marks`. -/
structure MarkRow where
  id : Int
  frameId : Int
  createdAt : Int
  note : Option String
  resolvedAt : Option Int
  deriving DecidableEq, Repr

structure ExportTables where
  db : FrameTables
  marks : List MarkRow
  deriving DecidableEq, Repr

inductive ExportWrite where
  | frame (write : FrameWrite)
  | insertMark (frameId createdAt : Int) (note : Option String)
  | resolveMark (markId resolvedAt : Int)
  | setMarkNote (markId : Int) (note : String)
  deriving DecidableEq, Repr

def nextMarkId (marks : List MarkRow) : Int := ((marks.map MarkRow.id).max?).getD 0 + 1

/-- The marks of a frame go with it. -/
def cascade (write : FrameWrite) (marks : List MarkRow) : List MarkRow :=
  match write with
  | .delete frameId => marks.filter fun mark => mark.frameId != frameId
  | _ => marks

def ExportWrite.apply (t : ExportTables) : ExportWrite → ExportTables
  | .frame write => { db := write.apply t.db, marks := cascade write t.marks }
  | .insertMark frameId createdAt note =>
    if t.db.frames.any fun frame => frame.id == frameId then
      { t with marks := t.marks ++ [⟨nextMarkId t.marks, frameId, createdAt, note, none⟩] }
    else t
  | .resolveMark markId resolvedAt =>
    { t with marks := t.marks.map fun mark =>
        if mark.id = markId ∧ mark.resolvedAt = none then
          { mark with resolvedAt := some resolvedAt }
        else mark }
  | .setMarkNote markId note =>
    { t with marks := t.marks.map fun mark =>
        if mark.id = markId then { mark with note := some note } else mark }

/-! ## Reads -/

/-- A half-open window; either end may be open. -/
structure ExportRequest where
  «from» : Option Int
  «to» : Option Int
  deriving DecidableEq, Repr

structure ExportFrameRow where
  frameId : Int
  capturedAt : Int
  appHint : Option String
  windowTitle : Option String
  browserUrl : Option String
  activityType : Option String
  contentText : Option String
  deriving DecidableEq, Repr

def inWindow (window : ExportRequest) (capturedAt : Int) : Bool :=
  (window.from.all fun start => decide (start ≤ capturedAt))
  && (window.to.all fun stop => decide (capturedAt < stop))

def exportFrameRow (db : FrameTables) (frame : StoredFrame) : ExportFrameRow where
  frameId := frame.id
  capturedAt := frame.capturedAt
  appHint := frame.appHint
  windowTitle := frame.windowTitle
  browserUrl := frame.browserUrl
  activityType := frame.activityType
  contentText := (frameTextOf db frame.id).map FrameTextRow.contentText

/-- The frames of the window behind an id, by their ids. -/
def framesBehind (window : ExportRequest) (afterId : Int) (db : FrameTables) : List StoredFrame :=
  sortByKey StoredFrame.id (db.frames.filter fun frame =>
    decide (afterId < frame.id) && inWindow window frame.capturedAt)

def exportFramesPage (afterId : Int) (window : ExportRequest) (limit : Nat) (db : FrameTables) :
    List ExportFrameRow :=
  ((framesBehind window afterId db).take limit).map (exportFrameRow db)

def pageSize : Nat := 500

/-- A mark with the capture time of its frame. -/
structure Mark where
  markId : Int
  frameId : Int
  createdAt : Int
  note : Option String
  resolvedAt : Option Int
  capturedAt : Int
  deriving DecidableEq, Repr

def joinFrame (frames : List StoredFrame) (mark : MarkRow) : Option Mark :=
  (frames.find? fun frame => frame.id == mark.frameId).map fun frame =>
    ⟨mark.id, mark.frameId, mark.createdAt, mark.note, mark.resolvedAt, frame.capturedAt⟩

/-- Unresolved marks first, then the newest. -/
def markKey (mark : Mark) : Nat ×ₗ Intᵒᵈ ×ₗ Intᵒᵈ :=
  toLex (if mark.resolvedAt.isSome then 1 else 0,
    toLex (OrderDual.toDual mark.createdAt, OrderDual.toDual mark.markId))

def listMarks (t : ExportTables) : List Mark :=
  sortByKey markKey (t.marks.filterMap (joinFrame t.db.frames))

/-! ## Texts -/

def optNum (value : Option Int) : Json := value.elim .null .num

def optStr (value : Option String) : Json := value.elim .null .str

/-- `opt_num`. -/
def optNumText (value : Option Int) : List Char := value.elim "null".toList Json.renderInt

def frameJson (row : ExportFrameRow) : Json :=
  .obj [("frame_id", .num row.frameId), ("captured_at", .num row.capturedAt),
    ("app_hint", optStr row.appHint), ("window_title", optStr row.windowTitle),
    ("browser_url", optStr row.browserUrl), ("activity_type", optStr row.activityType),
    ("content_text", optStr row.contentText)]

def markJson (mark : Mark) : Json :=
  .obj [("mark_id", .num mark.markId), ("frame_id", .num mark.frameId),
    ("created_at", .num mark.createdAt), ("note", optStr mark.note),
    ("resolved_at", optNum mark.resolvedAt)]

def schema : String := "screensearch.export.v1"

def headerText (now : Int) (window : ExportRequest) : List Char :=
  '{' :: ("\"schema\":\"".toList ++ schema.toList ++ "\",\"exported_at\":".toList
    ++ Json.renderInt now ++ ",\"from\":".toList ++ optNumText window.from ++ ",\"to\":".toList
    ++ optNumText window.to ++ ",\"frames\":[".toList)

/-- Every row but the first of all has a comma before it. -/
def framesText : Bool → List ExportFrameRow → List Char
  | _, [] => []
  | first, row :: rows =>
    (if first then [] else [',']) ++ (frameJson row).render ++ framesText false rows

/-- Outside `[from, to)`. -/
def skipsMark (window : ExportRequest) (mark : Mark) : Bool :=
  (window.from.any fun start => decide (mark.capturedAt < start))
  || (window.to.any fun stop => decide (stop ≤ mark.capturedAt))

/-- The text of the marks in the window, and how many there are. -/
def collectMarks (window : ExportRequest) : Bool → List Mark → List Char × Nat
  | _, [] => ([], 0)
  | first, mark :: marks =>
    if skipsMark window mark then collectMarks window first marks
    else
      let (text, count) := collectMarks window false marks
      ((if first then [] else [',']) ++ (markJson mark).render ++ text, count + 1)

def tailText (marks : List Char) : List Char :=
  "],\"marks\":[".toList ++ marks ++ [']', '}']

/-! ## The stream -/

inductive Phase where
  | header
  | frames (afterId : Int) (first : Bool)
  /-- The page was empty, and the marks are not read yet. -/
  | marks
  | done
  deriving DecidableEq, Repr

/-- A page, with the tables that it was read from. -/
structure PageRead where
  tables : ExportTables
  rows : List ExportFrameRow
  deriving DecidableEq, Repr

structure ExportState where
  tables : ExportTables
  phase : Phase
  /-- The texts handed out, one behind the other. -/
  output : List Char
  frames : Nat
  marks : Nat
  /-- What was read, for statements only. -/
  pages : List PageRead
  listed : List Mark
  deriving DecidableEq, Repr

def ExportState.start (tables : ExportTables) : ExportState where
  tables := tables
  phase := .header
  output := []
  frames := 0
  marks := 0
  pages := []
  listed := []

/-- A page is handed out; an empty one is the last. -/
def ExportState.takePage (s : ExportState) (afterId : Int) (first : Bool)
    (page : List ExportFrameRow) : ExportState :=
  let s := { s with pages := s.pages ++ [PageRead.mk s.tables page] }
  match page.getLast? with
  | none => { s with phase := .marks }
  | some last =>
    { s with
      phase := .frames last.frameId false
      output := s.output ++ framesText first page
      frames := s.frames + page.length }

/-- One access to the store, at most. -/
def ExportState.poll (window : ExportRequest) (now : Int) (s : ExportState) : ExportState :=
  match s.phase with
  | .header =>
    { s with phase := .frames 0 true, output := s.output ++ headerText now window }
  | .frames afterId first =>
    s.takePage afterId first (exportFramesPage afterId window pageSize s.tables.db)
  | .marks =>
    let (text, count) := collectMarks window true (listMarks s.tables)
    { s with
      phase := .done
      output := s.output ++ tailText text
      marks := s.marks + count
      listed := listMarks s.tables }
  | .done => s

inductive Event where
  | write (w : ExportWrite)
  | poll (now : Int)
  deriving DecidableEq, Repr

def ExportState.step (window : ExportRequest) (s : ExportState) : Event → ExportState
  | .write w => { s with tables := w.apply s.tables }
  | .poll now => s.poll window now

def ExportState.run (window : ExportRequest) (s : ExportState) (events : List Event) :
    ExportState :=
  events.foldl (ExportState.step window) s

/-! ## The texts are pieces of a document -/

def document (now : Int) (window : ExportRequest) (rows : List ExportFrameRow)
    (marks : List Mark) : Json :=
  .obj [("schema", .str schema), ("exported_at", .num now), ("from", optNum window.from),
    ("to", optNum window.to), ("frames", .arr (rows.map frameJson)),
    ("marks", .arr (marks.map markJson))]

theorem framesText_eq (first : Bool) (rows : List ExportFrameRow) :
    framesText first rows = if first then Json.commaJoined (rows.map frameJson)
      else Json.renderRest (rows.map frameJson) := by
  induction rows generalizing first with
  | nil => rcases first with - | - <;> rfl
  | cons row rows ih =>
    rw [framesText, ih false]
    rcases first with - | - <;> rfl

theorem skipsMark_eq (window : ExportRequest) (mark : Mark) :
    skipsMark window mark = !inWindow window mark.capturedAt := by
  have hNot : ∀ a b : Int, decide (a < b) = !decide (b ≤ a) := by
    intro a b
    rw [← decide_not, decide_eq_decide, not_le]
  unfold skipsMark inWindow
  rw [Bool.not_and]
  rcases window.from with - | start <;> rcases window.to with - | stop <;>
    simp [hNot]

/-- The marks in the window, and their number. -/
theorem collectMarks_eq (window : ExportRequest) (first : Bool) (marks : List Mark) :
    let kept := marks.filter fun mark => inWindow window mark.capturedAt
    collectMarks window first marks =
      (if first then Json.commaJoined (kept.map markJson) else Json.renderRest (kept.map markJson),
        kept.length) := by
  induction marks generalizing first with
  | nil => rcases first with - | - <;> rfl
  | cons mark marks ih =>
    dsimp only
    rw [collectMarks, skipsMark_eq, List.filter_cons]
    rcases hIn : inWindow window mark.capturedAt with - | -
    · exact ih first
    · dsimp only at ih
      rw [if_neg (by decide), ih false]
      rcases first with - | - <;> rfl

theorem optNum_render (value : Option Int) : (optNum value).render = optNumText value := by
  rcases value with - | n
  · rfl
  · simp [optNum, optNumText, Json.render]

/-- What is handed out is the document. -/
theorem document_render (now : Int) (window : ExportRequest) (rows : List ExportFrameRow)
    (marks : List Mark) :
    (document now window rows marks).render =
      headerText now window ++ Json.commaJoined (rows.map frameJson)
        ++ tailText (Json.commaJoined (marks.map markJson)) := by
  have hKey : ∀ key : String, key.toList.flatMap Json.escape = key.toList →
      Json.renderString key = '"' :: key.toList ++ ['"'] := fun key h => by
    rw [Json.renderString, h]
  unfold document headerText tailText
  simp only [Json.render, Json.renderFields, Json.render_arr, optNum_render]
  rw [hKey "schema" (by decide), hKey schema (by decide), hKey "exported_at" (by decide),
    hKey "from" (by decide), hKey "to" (by decide), hKey "frames" (by decide),
    hKey "marks" (by decide)]
  simp only [List.cons_append, List.append_assoc, List.nil_append]
  rfl

/-! ## One page -/

variable {window : ExportRequest} {afterId : Int} {limit : Nat} {db : FrameTables}
  {frame : StoredFrame}

theorem mem_framesBehind : frame ∈ framesBehind window afterId db ↔
    frame ∈ db.frames ∧ afterId < frame.id ∧ inWindow window frame.capturedAt = true := by
  rw [framesBehind, mem_sortByKey, List.mem_filter, Bool.and_eq_true, decide_eq_true_eq]

theorem framesBehind_strict (h : (db.frames.map StoredFrame.id).Nodup) :
    (framesBehind window afterId db).Pairwise fun a b => a.id < b.id :=
  Keyset.sortByKey_strict (h.sublist (List.filter_sublist.map StoredFrame.id))

theorem page_ids : (exportFramesPage afterId window limit db).map ExportFrameRow.frameId =
    ((framesBehind window afterId db).take limit).map StoredFrame.id := by
  rw [exportFramesPage, List.map_map]
  rfl

/-- A page's rows are frames of the window behind the id. -/
theorem mem_page {row : ExportFrameRow} (h : row ∈ exportFramesPage afterId window limit db) :
    ∃ frame ∈ db.frames, afterId < frame.id ∧ inWindow window frame.capturedAt = true ∧
      row = exportFrameRow db frame := by
  obtain ⟨frame, hFrame, rfl⟩ := List.mem_map.mp h
  obtain ⟨hStored, hBehind, hIn⟩ := mem_framesBehind.mp (List.mem_of_mem_take hFrame)
  exact ⟨frame, hStored, hBehind, hIn, rfl⟩

theorem page_strict (h : (db.frames.map StoredFrame.id).Nodup) :
    ((exportFramesPage afterId window limit db).map ExportFrameRow.frameId).Pairwise (· < ·) := by
  rw [page_ids, List.pairwise_map]
  exact (framesBehind_strict h).sublist (List.take_sublist ..)

/-- A frame of the window up to the page's last id is on the page. -/
theorem page_covers (h : (db.frames.map StoredFrame.id).Nodup) {last : ExportFrameRow}
    (hLast : (exportFramesPage afterId window limit db).getLast? = some last)
    (hStored : frame ∈ db.frames) (hIn : inWindow window frame.capturedAt = true)
    (hBehind : afterId < frame.id) (hUpTo : frame.id ≤ last.frameId) :
    frame.id ∈ (exportFramesPage afterId window limit db).map ExportFrameRow.frameId := by
  rw [exportFramesPage, List.getLast?_map] at hLast
  obtain ⟨lastFrame, hLastFrame, rfl⟩ := Option.map_eq_some_iff.mp hLast
  have hTaken := @Keyset.filter_le_eq_take _ _ _ StoredFrame.id _ (framesBehind_strict h) _ _ hLastFrame
  rw [page_ids, ← hTaken]
  exact List.mem_map_of_mem (List.mem_filter.mpr
    ⟨mem_framesBehind.mpr ⟨hStored, hBehind, hIn⟩, decide_eq_true hUpTo⟩)

/-- An empty page has nothing behind it. -/
theorem page_empty (hLimit : 0 < limit) (hPage : exportFramesPage afterId window limit db = [])
    (hStored : frame ∈ db.frames) (hIn : inWindow window frame.capturedAt = true) :
    frame.id ≤ afterId := by
  by_contra hBehind
  have hMem := mem_framesBehind.mpr ⟨hStored, not_le.mp hBehind, hIn⟩
  rw [exportFramesPage, List.map_eq_nil_iff, List.take_eq_nil_iff] at hPage
  rcases hPage with hZero | hNone
  · omega
  · rw [hNone] at hMem
    cases hMem

/-! ## What an export keeps -/

variable {first : FrameTables} {metadata : HistoryMetadata} {s : ExportState}

/-- The frames that were handed out. -/
def ExportState.rows (s : ExportState) : List ExportFrameRow := s.pages.flatMap PageRead.rows

/-- The marks that were handed out. -/
def ExportState.exportedMarks (window : ExportRequest) (s : ExportState) : List Mark :=
  s.listed.filter fun mark => inWindow window mark.capturedAt

/-- The last id that was handed out. -/
def ExportState.position (s : ExportState) : Int :=
  (s.rows.getLast?.map ExportFrameRow.frameId).getD 0

/-- What was handed out of the document, up to its frames. -/
def HandedOut (window : ExportRequest) (s : ExportState) : Prop :=
  ∃ now, s.output = headerText now window ++ Json.commaJoined (s.rows.map frameJson)

/-- What holds of the tables and the pages, whatever is next; `highWater` is the allocator's
now, and `metadata` was its history when the export began. -/
structure PagesInv (window : ExportRequest) (metadata : HistoryMetadata) (highWater : Nat)
    (s : ExportState) : Prop where
  wellFormed : s.tables.db.WellFormed { metadata with frameIdHighWater := highWater }
  since : metadata.frameIdHighWater ≤ highWater
  nonneg : 0 ≤ s.position
  allocated : s.position ≤ highWater
  increasing : (s.rows.map ExportFrameRow.frameId).Pairwise (· < ·)
  upTo : ∀ row ∈ s.rows, row.frameId ≤ s.position
  /-- Nothing that is there was passed over. -/
  covered : ∀ frame ∈ s.tables.db.frames, inWindow window frame.capturedAt = true →
    frame.id ≤ s.position → frame.id ∈ s.rows.map ExportFrameRow.frameId
  existed : ∀ read ∈ s.pages, ∀ row ∈ read.rows, ∃ frame ∈ read.tables.db.frames,
    inWindow window frame.capturedAt = true ∧ row = exportFrameRow read.tables.db frame
  count : s.frames = s.rows.length

/-- What the export has not handed out came after the last page. -/
structure Late (window : ExportRequest) (metadata : HistoryMetadata) (highWater : Nat)
    (s : ExportState) (last : PageRead) (seen : Nat) : Prop where
  last_eq : s.pages.getLast? = some last
  wellFormed : last.tables.db.WellFormed { metadata with frameIdHighWater := seen }
  since : metadata.frameIdHighWater ≤ seen
  before : seen ≤ highWater
  after : ∀ frame ∈ s.tables.db.frames, inWindow window frame.capturedAt = true →
    s.position < frame.id → (seen : Int) < frame.id

/-- Each mark is of a frame that was handed out, or that was not there at the last page. -/
def MarksRefer (window : ExportRequest) (s : ExportState) (last : PageRead) : Prop :=
  ∀ mark ∈ s.exportedMarks window, mark.frameId ∈ s.rows.map ExportFrameRow.frameId ∨
    mark.frameId ∉ last.tables.db.frames.map StoredFrame.id

/-- What holds in each phase. -/
def PhaseInv (window : ExportRequest) (metadata : HistoryMetadata) (highWater : Nat)
    (s : ExportState) : Prop :=
  match s.phase with
  | .header => s.output = [] ∧ s.pages = [] ∧ s.marks = 0
  | .frames afterId isFirst => HandedOut window s ∧ afterId = s.position ∧
    isFirst = s.rows.isEmpty ∧ s.marks = 0
  | .marks => HandedOut window s ∧ s.marks = 0 ∧
    ∃ last seen, Late window metadata highWater s last seen
  | .done => (∃ now, s.output = (document now window s.rows (s.exportedMarks window)).render) ∧
    s.marks = (s.exportedMarks window).length ∧
    ∃ last seen, Late window metadata highWater s last seen ∧ MarksRefer window s last

structure Inv (window : ExportRequest) (metadata : HistoryMetadata) (highWater : Nat)
    (s : ExportState) : Prop where
  pages : PagesInv window metadata highWater s
  phase : PhaseInv window metadata highWater s

theorem start_inv {tables : ExportTables} (h : tables.db.WellFormed metadata) :
    Inv window metadata metadata.frameIdHighWater (ExportState.start tables) where
  pages := ⟨h, le_rfl, le_rfl, Int.natCast_nonneg _, List.Pairwise.nil, fun _ => nofun,
    fun frame hFrame _ hLe => absurd (h.ids_pos frame hFrame) (not_lt.mpr hLe), fun _ => nofun, rfl⟩
  phase := ⟨rfl, rfl, rfl⟩

/-! ## Writes -/

/-- A write leaves the frames as they are, or is a write of the frames. -/
theorem write_frames (h : s.tables.db.WellFormed metadata) (w : ExportWrite) :
    ∃ highWater, metadata.frameIdHighWater ≤ highWater ∧
      (w.apply s.tables).db.WellFormed { metadata with frameIdHighWater := highWater } ∧
      ∀ frame ∈ (w.apply s.tables).db.frames, frame.id ≤ metadata.frameIdHighWater →
        frame ∈ s.tables.db.frames := by
  rcases w with write | ⟨frameId, createdAt, note⟩ | ⟨markId, resolvedAt⟩ | ⟨markId, note⟩
  · exact write.apply_wellFormed h
  · have hSame : ((ExportWrite.insertMark frameId createdAt note).apply s.tables).db =
        s.tables.db := by
      unfold ExportWrite.apply
      dsimp only
      split <;> rfl
    rw [hSame]
    exact ⟨_, le_rfl, h, fun _ hFrame _ => hFrame⟩
  · exact ⟨_, le_rfl, h, fun _ hFrame _ => hFrame⟩
  · exact ⟨_, le_rfl, h, fun _ hFrame _ => hFrame⟩

/-- Every write keeps the invariant. -/
theorem write_inv {highWater : Nat} (h : Inv window metadata highWater s) (w : ExportWrite) :
    ∃ later, Inv window metadata later (s.step window (.write w)) := by
  obtain ⟨later, hLater, hWell, hOld⟩ := write_frames h.pages.wellFormed w
  dsimp only at hLater hOld
  have hLate : ∀ {last seen}, Late window metadata highWater s last seen →
      Late window metadata later (s.step window (.write w)) last seen := by
    intro last seen hLast
    refine ⟨hLast.last_eq, hLast.wellFormed, hLast.since, hLast.before.trans hLater, ?_⟩
    intro frame hFrame hIn hBehind
    by_cases hKnown : frame.id ≤ highWater
    · exact hLast.after frame (hOld frame hFrame hKnown) hIn hBehind
    · have := hLast.before
      omega
  refine ⟨later, ⟨hWell, h.pages.since.trans hLater, h.pages.nonneg, ?_, h.pages.increasing,
    h.pages.upTo, ?_, h.pages.existed, h.pages.count⟩, ?_⟩
  · exact h.pages.allocated.trans (Int.ofNat_le.mpr hLater)
  · intro frame hFrame hIn hLe
    exact h.pages.covered frame (hOld frame hFrame (hLe.trans h.pages.allocated)) hIn hLe
  · have hPhase := h.phase
    unfold PhaseInv at hPhase ⊢
    change match s.phase with
      | .header => _
      | .frames afterId isFirst => _
      | .marks => _
      | .done => _
    rcases hAt : s.phase with - | ⟨afterId, isFirst⟩ | - | -
    all_goals
      rw [hAt] at hPhase
      dsimp only at hPhase ⊢
    · exact hPhase
    · exact hPhase
    · obtain ⟨hOut, hMarks, last, seen, hLast⟩ := hPhase
      exact ⟨hOut, hMarks, last, seen, hLate hLast⟩
    · obtain ⟨hOut, hMarks, last, seen, hLast, hRefer⟩ := hPhase
      exact ⟨hOut, hMarks, last, seen, hLate hLast, hRefer⟩

/-! ## Polls -/

variable {highWater : Nat}

theorem PagesInv.of_eq {s' : ExportState} (h : PagesInv window metadata highWater s)
    (hTables : s'.tables = s.tables) (hRows : s'.rows = s.rows)
    (hRead : ∀ read ∈ s'.pages, read ∈ s.pages ∨ read.rows = []) (hFrames : s'.frames = s.frames) :
    PagesInv window metadata highWater s' := by
  have hPosition : s'.position = s.position := by
    unfold ExportState.position
    rw [hRows]
  refine ⟨hTables ▸ h.wellFormed, h.since, hPosition ▸ h.nonneg, hPosition ▸ h.allocated,
    hRows ▸ h.increasing, fun row hRow => hPosition ▸ h.upTo row (hRows ▸ hRow), ?_, ?_, ?_⟩
  · rw [hTables, hRows, hPosition]
    exact h.covered
  · intro read hMem row hRow
    rcases hRead read hMem with hOld | hEmpty
    · exact h.existed read hOld row hRow
    · rw [hEmpty] at hRow
      cases hRow
  · rw [hFrames, hRows]
    exact h.count

/-- The rows behind another page. -/
theorem rows_append (pages : List PageRead) (read : PageRead) :
    (pages ++ [read]).flatMap PageRead.rows = pages.flatMap PageRead.rows ++ read.rows := by
  rw [List.flatMap_append, List.flatMap_singleton]

theorem headerPoll_inv (h : Inv window metadata highWater s) (hAt : s.phase = .header) (now : Int) :
    Inv window metadata highWater (s.poll window now) := by
  obtain ⟨hPages, hPhase⟩ := h
  unfold PhaseInv at hPhase
  rw [hAt] at hPhase
  obtain ⟨hOut, hNone, hMarks⟩ := hPhase
  have hPoll : s.poll window now =
      { s with phase := .frames 0 true, output := s.output ++ headerText now window } := by
    unfold ExportState.poll
    rw [hAt]
  have hRows : s.rows = [] := by rw [ExportState.rows, hNone]; rfl
  rw [hPoll]
  refine ⟨hPages.of_eq rfl rfl (fun _ => Or.inl) rfl, ⟨now, ?_⟩, ?_, ?_, hMarks⟩
  · show s.output ++ _ = _ ++ Json.commaJoined (s.rows.map frameJson)
    rw [hOut, hRows]
    exact (List.append_nil _).symm
  · show 0 = s.position
    rw [ExportState.position, hRows]
    rfl
  · show true = s.rows.isEmpty
    rw [hRows]
    rfl

theorem emptyPage_inv (h : PagesInv window metadata highWater s) (hOut : HandedOut window s)
    (hMarks : s.marks = 0)
    (hPage : exportFramesPage s.position window pageSize s.tables.db = []) :
    Inv window metadata highWater
      { s with pages := s.pages ++ [PageRead.mk s.tables []], phase := .marks } := by
  have hRows : (s.pages ++ [PageRead.mk s.tables []]).flatMap PageRead.rows = s.rows := by
    rw [rows_append, List.append_nil]
    rfl
  have hKept : PagesInv window metadata highWater
      { s with pages := s.pages ++ [PageRead.mk s.tables []], phase := .marks } := by
    refine h.of_eq rfl hRows (fun read hMem => ?_) rfl
    exact (List.mem_append.mp hMem).imp_right fun hNew => by rw [List.mem_singleton.mp hNew]
  obtain ⟨now, hOut⟩ := hOut
  refine ⟨hKept, ⟨now, ?_⟩, hMarks, ⟨s.tables, []⟩, highWater,
    List.getLast?_concat .., h.wellFormed, h.since, le_rfl, ?_⟩
  · show s.output = _ ++ Json.commaJoined (((s.pages ++ [_]).flatMap PageRead.rows).map frameJson)
    rw [hRows, hOut]
  · intro frame hFrame hIn hBehind
    have hUpTo := page_empty (by decide) hPage hFrame hIn
    change ((((s.pages ++ [_]).flatMap PageRead.rows).getLast?.map _).getD 0) < frame.id at hBehind
    rw [hRows] at hBehind
    exact absurd hUpTo (not_le.mpr hBehind)

/-- What a page that is not empty adds. -/
theorem fullPage_pages (h : PagesInv window metadata highWater s) {page : List ExportFrameRow}
    {last : ExportFrameRow}
    (hPage : exportFramesPage s.position window pageSize s.tables.db = page)
    (hLast : page.getLast? = some last) (s' : ExportState) (hTables : s'.tables = s.tables)
    (hPages : s'.pages = s.pages ++ [PageRead.mk s.tables page])
    (hFrames : s'.frames = s.frames + page.length) :
    PagesInv window metadata highWater s' ∧ s'.rows = s.rows ++ page ∧
      s'.position = last.frameId := by
  have hNodup := h.wellFormed.ids_nodup
  have hRows : s'.rows = s.rows ++ page := by
    unfold ExportState.rows
    rw [hPages, rows_append]
  have hPosition : s'.position = last.frameId := by
    unfold ExportState.position
    rw [hRows, List.getLast?_append, hLast]
    rfl
  have hLastMem : last ∈ page := List.mem_of_getLast? hLast
  -- a page lies behind the position and under the high-water mark
  have hPageRow : ∀ row ∈ page, s.position < row.frameId ∧ row.frameId ≤ highWater := by
    intro row hRow
    rw [← hPage] at hRow
    obtain ⟨frame, hFrame, hBehind, -, rfl⟩ := mem_page hRow
    exact ⟨hBehind, h.wellFormed.ids_le frame hFrame⟩
  have hStrict : (page.map ExportFrameRow.frameId).Pairwise (· < ·) := by
    rw [← hPage]
    exact page_strict hNodup
  have hPageUpTo : ∀ row ∈ page, row.frameId ≤ last.frameId := by
    obtain ⟨front, rfl⟩ := List.getLast?_eq_some_iff.mp hLast
    intro row hRow
    rw [List.map_append, List.pairwise_append] at hStrict
    rcases List.mem_append.mp hRow with hFront | hEnd
    · exact (hStrict.2.2 _ (List.mem_map_of_mem hFront) _ (List.mem_singleton_self _)).le
    · rw [List.mem_singleton.mp hEnd]
  refine ⟨⟨?_, h.since, ?_, ?_, ?_, ?_, ?_, ?_, ?_⟩, hRows, hPosition⟩
  · rw [hTables]
    exact h.wellFormed
  · rw [hPosition]
    exact h.nonneg.trans (hPageRow last hLastMem).1.le
  · rw [hPosition]
    exact (hPageRow last hLastMem).2
  · rw [hRows, List.map_append, List.pairwise_append]
    refine ⟨h.increasing, hStrict, fun a hOld b hNew => ?_⟩
    obtain ⟨row, hRow, rfl⟩ := List.mem_map.mp hOld
    obtain ⟨row', hRow', rfl⟩ := List.mem_map.mp hNew
    exact (h.upTo row hRow).trans_lt (hPageRow row' hRow').1
  · intro row hRow
    rw [hPosition]
    rw [hRows] at hRow
    rcases List.mem_append.mp hRow with hOld | hNew
    · exact (h.upTo row hOld).trans (hPageRow last hLastMem).1.le
    · exact hPageUpTo row hNew
  · -- what is up to the new position was up to the old one, or is on the page
    intro frame hFrame hIn hLe
    rw [hTables] at hFrame
    rw [hPosition] at hLe
    rw [hRows, List.map_append, List.mem_append]
    by_cases hKnown : frame.id ≤ s.position
    · exact Or.inl (h.covered frame hFrame hIn hKnown)
    · refine Or.inr ?_
      rw [← hPage] at hLast ⊢
      exact page_covers hNodup hLast hFrame hIn (not_le.mp hKnown) hLe
  · intro read hRead row hRow
    rw [hPages] at hRead
    rcases List.mem_append.mp hRead with hOld | hNew
    · exact h.existed read hOld row hRow
    · rw [List.mem_singleton.mp hNew] at hRow ⊢
      rw [← hPage] at hRow
      obtain ⟨frame, hFrame, -, hIn, hEq⟩ := mem_page hRow
      exact ⟨frame, hFrame, hIn, hEq⟩
  · rw [hFrames, hRows, List.length_append, h.count]

theorem fullPage_inv (h : PagesInv window metadata highWater s) {isFirst : Bool}
    (hFirst : isFirst = s.rows.isEmpty) (hOut : HandedOut window s) (hMarks : s.marks = 0)
    {page : List ExportFrameRow} {last : ExportFrameRow}
    (hPage : exportFramesPage s.position window pageSize s.tables.db = page)
    (hLast : page.getLast? = some last) :
    Inv window metadata highWater
      { s with
        pages := s.pages ++ [PageRead.mk s.tables page]
        phase := .frames last.frameId false
        output := s.output ++ framesText isFirst page
        frames := s.frames + page.length } := by
  generalize hNext : ExportState.mk .. = s'
  obtain ⟨hInv, hRows, hPosition⟩ := fullPage_pages h hPage hLast s'
    (by rw [← hNext]) (by rw [← hNext]) (by rw [← hNext])
  obtain ⟨now, hOut⟩ := hOut
  refine ⟨hInv, ?_⟩
  have hPhase : s'.phase = .frames last.frameId false := by rw [← hNext]
  unfold PhaseInv
  rw [hPhase]
  refine ⟨⟨now, ?_⟩, hPosition.symm, ?_, by rw [← hNext]; exact hMarks⟩
  · have hText : s'.output = s.output ++ framesText isFirst page := by rw [← hNext]
    rw [hText, hOut, hRows, framesText_eq, hFirst, List.map_append, Json.commaJoined_append,
      List.isEmpty_map, List.append_assoc]
  · rw [hRows]
    obtain ⟨front, rfl⟩ := List.getLast?_eq_some_iff.mp hLast
    simp

theorem mem_listMarks {t : ExportTables} {mark : Mark} (h : mark ∈ listMarks t) :
    ∃ frame ∈ t.db.frames, frame.id = mark.frameId ∧ frame.capturedAt = mark.capturedAt := by
  unfold listMarks at h
  rw [mem_sortByKey, List.mem_filterMap] at h
  obtain ⟨row, -, hJoin⟩ := h
  obtain ⟨frame, hFound, rfl⟩ := Option.map_eq_some_iff.mp hJoin
  have hId := List.find?_some hFound
  exact ⟨frame, List.mem_of_find?_eq_some hFound, beq_iff_eq.mp hId, rfl⟩

theorem marksPoll_inv (h : Inv window metadata highWater s) (hAt : s.phase = .marks) (now : Int) :
    Inv window metadata highWater (s.poll window now) := by
  obtain ⟨hPages, hPhase⟩ := h
  unfold PhaseInv at hPhase
  rw [hAt] at hPhase
  obtain ⟨⟨began, hOut⟩, hMarks, last, seen, hLate⟩ := hPhase
  have hCollected := collectMarks_eq window true (listMarks s.tables)
  dsimp only at hCollected
  rw [if_pos rfl] at hCollected
  have hPoll : s.poll window now =
      { s with
        phase := .done
        output := s.output ++ tailText (Json.commaJoined (((listMarks s.tables).filter
          fun mark => inWindow window mark.capturedAt).map markJson))
        marks := s.marks + ((listMarks s.tables).filter
          fun mark => inWindow window mark.capturedAt).length
        listed := listMarks s.tables } := by
    unfold ExportState.poll
    rw [hAt]
    dsimp only
    rw [hCollected]
  rw [hPoll]
  refine ⟨hPages.of_eq rfl rfl (fun _ => Or.inl) rfl, ⟨began, ?_⟩, ?_, last, seen,
    ⟨hLate.last_eq, hLate.wellFormed, hLate.since, hLate.before, hLate.after⟩, ?_⟩
  · rw [document_render]
    show s.output ++ _ = _
    rw [hOut]
    rfl
  · show s.marks + _ = _
    rw [hMarks, Nat.zero_add]
    rfl
  · intro mark hMark
    obtain ⟨hListed, hIn⟩ := List.mem_filter.mp hMark
    obtain ⟨frame, hFrame, hId, hCaptured⟩ := mem_listMarks hListed
    rw [← hCaptured] at hIn
    show mark.frameId ∈ s.rows.map ExportFrameRow.frameId ∨ _
    rw [← hId]
    by_cases hKnown : frame.id ≤ s.position
    · exact Or.inl (hPages.covered frame hFrame hIn hKnown)
    · -- it came after the last page
      refine Or.inr fun hThere => ?_
      obtain ⟨old, hOld, hSame⟩ := List.mem_map.mp hThere
      have hSeen := hLate.wellFormed.ids_le old hOld
      have hAfter := hLate.after frame hFrame hIn (not_le.mp hKnown)
      dsimp only at hSeen
      omega

/-- Every poll keeps the invariant. -/
theorem poll_inv (h : Inv window metadata highWater s) (now : Int) :
    Inv window metadata highWater (s.poll window now) := by
  rcases hAt : s.phase with - | ⟨afterId, isFirst⟩ | - | -
  · exact headerPoll_inv h hAt now
  · obtain ⟨hPages, hPhase⟩ := h
    unfold PhaseInv at hPhase
    rw [hAt] at hPhase
    obtain ⟨hOut, rfl, hFirst, hMarks⟩ := hPhase
    have hPoll : s.poll window now = s.takePage s.position isFirst
        (exportFramesPage s.position window pageSize s.tables.db) := by
      unfold ExportState.poll
      rw [hAt]
    rw [hPoll]
    unfold ExportState.takePage
    dsimp only
    rcases hLast : (exportFramesPage s.position window pageSize s.tables.db).getLast? with - | last
    · have hPage := List.getLast?_eq_none_iff.mp hLast
      rw [hPage]
      exact emptyPage_inv hPages hOut hMarks hPage
    · exact fullPage_inv hPages hFirst hOut hMarks rfl hLast
  · exact marksPoll_inv h hAt now
  · have hPoll : s.poll window now = s := by
      unfold ExportState.poll
      rw [hAt]
    rwa [hPoll]

theorem run_inv (h : Inv window metadata highWater s) (events : List Event) :
    ∃ later, Inv window metadata later (s.run window events) := by
  induction events generalizing s highWater with
  | nil => exact ⟨highWater, h⟩
  | cons event events ih =>
    rcases event with w | now
    · obtain ⟨later, hNext⟩ := write_inv h w
      exact ih hNext
    · exact ih (poll_inv h now)

/-! ## A finished export -/

/-- What an export that is done has handed out, since `first`. -/
structure Complete (window : ExportRequest) (first : ExportTables) (s : ExportState) : Prop where
  /-- One document, of these frames and marks. -/
  document : ∃ now, Json.decode s.output =
    some (document now window s.rows (s.exportedMarks window))
  increasing : (s.rows.map ExportFrameRow.frameId).Pairwise (· < ·)
  complete : ∀ frame ∈ first.db.frames, frame ∈ s.tables.db.frames →
    inWindow window frame.capturedAt = true →
    (s.rows.map ExportFrameRow.frameId).count frame.id = 1
  existed : ∀ read ∈ s.pages, ∀ row ∈ read.rows, ∃ frame ∈ read.tables.db.frames,
    inWindow window frame.capturedAt = true ∧ row = exportFrameRow read.tables.db frame
  marks : ∃ last ∈ s.pages.getLast?, MarksRefer window s last
  counts : s.frames = s.rows.length ∧ s.marks = (s.exportedMarks window).length

/-- **A finished export**, whatever was written between its reads: one document whose
frames have increasing ids, with every frame of the window that stayed, once, and none that
was not there when its page was read; its marks are of these frames or of frames that came
after the last page; and the counts are those of its arrays. -/
theorem export_complete {tables : ExportTables} {metadata : HistoryMetadata}
    (h : tables.db.WellFormed metadata) (window : ExportRequest) (events : List Event)
    (hDone : ((ExportState.start tables).run window events).phase = .done) :
    Complete window tables ((ExportState.start tables).run window events) := by
  have hStart : Inv window metadata metadata.frameIdHighWater (ExportState.start tables) :=
    start_inv h
  obtain ⟨highWater, hPages, hPhase⟩ := run_inv hStart events
  generalize (ExportState.start tables).run window events = s at hDone hPages hPhase
  unfold PhaseInv at hPhase
  rw [hDone] at hPhase
  obtain ⟨⟨now, hOut⟩, hMarks, last, seen, hLate, hRefer⟩ := hPhase
  refine ⟨⟨now, ?_⟩, hPages.increasing, ?_, hPages.existed, ⟨last, hLate.last_eq, hRefer⟩,
    hPages.count, hMarks⟩
  · rw [hOut, Json.decode_render]
  · intro frame hFirst hNow hIn
    have hKnown : frame.id ≤ s.position := by
      by_contra hBehind
      have hAfter := hLate.after frame hNow hIn (not_le.mp hBehind)
      have hBefore := h.ids_le frame hFirst
      have hSince := hLate.since
      omega
    have hNodup : (s.rows.map ExportFrameRow.frameId).Nodup := hPages.increasing.imp ne_of_lt
    exact List.count_eq_one_of_mem hNodup (hPages.covered frame hNow hIn hKnown)

def emptyHistory : ExportTables where
  db := setupHistoryMetadata "00000000-0000-4000-8000-000000000000" ⟨none, none, [], [], []⟩
  marks := []

theorem emptyHistory_wellFormed :
    emptyHistory.db.WellFormed ⟨"00000000-0000-4000-8000-000000000000", 0⟩ where
  historyId := rfl
  valid := by decide +kernel
  allocator := by decide +kernel
  ids_nodup := List.nodup_nil
  ids_pos := fun _ => nofun
  ids_le := fun _ => nofun

def newFrame (capturedAt : Int) : ExportWrite :=
  .frame (.insert ⟨capturedAt, 0, some "code.exe", some "a \"title\"", none⟩)

/-- Frames and marks come and go while the pages are read. -/
def concurrentWrites : List Event :=
  [.write (newFrame 10), .write (newFrame 20), .write (newFrame 90), .poll 100,
    .write (.insertMark 1 30 (some "look\nhere")), .poll 101, .write (.frame (.delete 2)),
    .write (newFrame 15), .poll 102, .poll 103, .write (.resolveMark 1 104), .poll 105]

theorem export_complete_concurrentWrites :
    Complete ⟨some 0, some 50⟩ emptyHistory
      ((ExportState.start emptyHistory).run ⟨some 0, some 50⟩ concurrentWrites) :=
  export_complete emptyHistory_wellFormed ⟨some 0, some 50⟩ concurrentWrites (by decide +kernel)

/-- A frame comes and is marked between the last page and the marks. -/
def lateFrame : List Event :=
  [.poll 0, .poll 1, .write (newFrame 2), .write (.insertMark 1 3 none), .poll 4]

/-- The mark is handed out, its frame is not. -/
theorem export_skipsLateFrame :
    let s := (ExportState.start emptyHistory).run ⟨none, none⟩ lateFrame
    s.phase = .done ∧ (s.exportedMarks ⟨none, none⟩).map Mark.frameId = [1] ∧ s.rows = [] := by
  decide +kernel

end ScreenSearch.Api.Export
