import ScreenSearch.Lib.Text
import ScreenSearch.Traits.History
import Mathlib.Data.List.MinMax
import Mathlib.Data.List.Nodup
import Mathlib.Order.Basic

/-!
# The frame tables

Frame ids are handed out by an allocator that is kept in the settings and only ever
goes up, so that an id that was once given to a frame never names another one.

Main results:

* `setupHistoryMetadata_wellFormed` — a history begins well formed;
* `FrameWrite.apply_wellFormed` — and every write keeps it so;
* `insertFrame_fresh` — a new frame's id is larger than every earlier one.
-/

namespace ScreenSearch.Store

/-- A row of `frames`, with the columns that are read. -/
structure StoredFrame where
  id : Int
  capturedAt : Int
  monitorIndex : Nat
  appHint : Option String
  windowTitle : Option String
  browserUrl : Option String
  activityType : Option String
  sessionId : Option Int
  imagePurged : Bool
  deriving DecidableEq, Repr

structure NewFrame where
  capturedAt : Int
  monitorIndex : Nat
  appHint : Option String
  windowTitle : Option String
  browserUrl : Option String
  deriving DecidableEq, Repr

/-- A row of `frame_text`. -/
structure FrameTextRow where
  frameId : Int
  rawText : String
  contentText : String
  primarySource : TextSource
  filterVersion : Int
  suppressedCount : Nat
  targetWindowTitle : Option String
  targetAppHint : Option String
  deriving DecidableEq, Repr

/-- A row of `vision_analysis`. -/
structure VisionRow where
  frameId : Int
  description : String
  activityType : Option String
  appHint : Option String
  model : String
  deriving DecidableEq, Repr

/-- The tables, and the two settings that belong to the history. -/
structure FrameTables where
  historyId : Option String
  frameIdHighWater : Option String
  frames : List StoredFrame
  frameText : List FrameTextRow
  visionAnalysis : List VisionRow
  deriving DecidableEq, Repr

variable {db db' : FrameTables}

/-! ## The history's metadata -/

/-- The allocator is stored as a decimal `i64` without a sign. -/
def parseHighWater (value : String) : Option Nat :=
  if value.toList.isEmpty || !value.toList.all Char.isDigit then none
  else
    let highWater := Nat.ofDigitChars 10 value.toList 0
    if highWater ≤ i64Max then some highWater else none

theorem parseHighWater_repr {n : Nat} (h : n ≤ i64Max) : parseHighWater n.repr = some n := by
  have hDigits : (Nat.toDigits 10 n).all Char.isDigit = true :=
    List.all_eq_true.mpr fun _ hc => Nat.isDigit_of_mem_toDigits (by decide) (by decide) hc
  unfold parseHighWater
  rw [Nat.toList_repr, hDigits, List.isEmpty_eq_false_iff.mpr Nat.toDigits_ne_nil]
  rw [if_neg (by decide), Nat.ofDigitChars_ten_toDigits]
  exact if_pos h

def readHistoryMetadata (db : FrameTables) : Except HistoryReadError HistoryMetadata := do
  let historyId ← db.historyId.elim (.error (.unavailable .missingIdentity)) .ok
  if !validHistoryId historyId then
    throw (.unavailable .invalidIdentity)
  let allocator ← db.frameIdHighWater.elim (.error (.unavailable .missingAllocator)) .ok
  let highWater ← (parseHighWater allocator).elim (.error (.unavailable .invalidAllocator)) .ok
  pure { historyId := historyId, frameIdHighWater := highWater }

/-- `COALESCE(MAX(id), 0)`, and at least zero. -/
def currentMaxFrameId (db : FrameTables) : Nat :=
  (((db.frames.map StoredFrame.id).max?).getD 0).toNat

/-- Only a history without both settings is set up; `uuid` is the text that SQLite's
random numbers make. -/
def setupHistoryMetadata (uuid : String) (db : FrameTables) : FrameTables :=
  if db.historyId.isNone && db.frameIdHighWater.isNone then
    { db with
      historyId := some uuid
      frameIdHighWater := some (currentMaxFrameId db).repr }
  else db

def allocateFrameId (db : FrameTables) : Except HistoryReadError (Nat × FrameTables) := do
  let metadata ← readHistoryMetadata db
  let id := max metadata.frameIdHighWater (currentMaxFrameId db) + 1
  if id ≤ i64Max then
    pure (id, { db with frameIdHighWater := some id.repr })
  else throw (.storage "frame ID allocator exhausted")

/-! ## Statements -/

def insertFrame (f : NewFrame) (db : FrameTables) : Except HistoryReadError (Int × FrameTables) := do
  let (id, db) ← allocateFrameId db
  pure (id,
    { db with frames := db.frames ++
        [{ id := id
           capturedAt := f.capturedAt
           monitorIndex := f.monitorIndex
           appHint := f.appHint
           windowTitle := f.windowTitle
           browserUrl := f.browserUrl
           activityType := none
           sessionId := none
           imagePurged := false }] })

/-- The rows of the tables that reference the frame go with it. -/
def deleteFrame (frameId : Int) (db : FrameTables) : FrameTables :=
  { db with
    frames := db.frames.filter fun row => row.id ≠ frameId
    frameText := db.frameText.filter fun row => row.frameId ≠ frameId
    visionAnalysis := db.visionAnalysis.filter fun row => row.frameId ≠ frameId }

/-- `INSERT .. ON CONFLICT(frame_id) DO UPDATE`, under the foreign key. -/
def upsertFrameText (row : FrameTextRow) (db : FrameTables) : Except HistoryReadError FrameTables :=
  if ¬ db.frames.any fun frame => frame.id == row.frameId then
    .error (.storage "FOREIGN KEY constraint failed")
  else .ok
    { db with frameText :=
        if db.frameText.any fun other => other.frameId == row.frameId then
          db.frameText.map fun other => if other.frameId = row.frameId then row else other
        else db.frameText ++ [row] }

def frameTextOf (db : FrameTables) (frameId : Int) : Option FrameTextRow :=
  db.frameText.find? fun row => row.frameId == frameId

/-! ## Well-formed histories -/

/-- What the allocator promises: it can be read, the frames have the ids it gave out,
and no two have the same. -/
structure FrameTables.WellFormed (db : FrameTables) (metadata : HistoryMetadata) : Prop where
  historyId : db.historyId = some metadata.historyId
  valid : validHistoryId metadata.historyId = true
  allocator : db.frameIdHighWater.bind parseHighWater = some metadata.frameIdHighWater
  ids_nodup : (db.frames.map StoredFrame.id).Nodup
  ids_pos : ∀ frame ∈ db.frames, 0 < frame.id
  ids_le : ∀ frame ∈ db.frames, frame.id ≤ metadata.frameIdHighWater

variable {metadata : HistoryMetadata}

theorem FrameTables.WellFormed.read (h : db.WellFormed metadata) :
    readHistoryMetadata db = .ok metadata := by
  obtain ⟨allocator, hAllocator, hParse⟩ := Option.bind_eq_some_iff.mp h.allocator
  unfold readHistoryMetadata
  rw [h.historyId, hAllocator]
  dsimp only [Option.elim_some]
  rw [show (Except.ok metadata.historyId >>= fun historyId : String => _) = _ from rfl]
  simp [h.valid, hParse, bind, Except.bind, pure, Except.pure]

theorem le_currentMaxFrameId {frame : StoredFrame} (h : frame ∈ db.frames) :
    frame.id ≤ currentMaxFrameId db := by
  have hMem : frame.id ∈ db.frames.map StoredFrame.id := List.mem_map_of_mem h
  unfold currentMaxFrameId
  rcases hMax : (db.frames.map StoredFrame.id).max? with - | greatest
  · rw [List.max?_eq_none_iff.mp hMax] at hMem
    cases hMem
  · have := (List.max?_eq_some_iff.mp hMax).2 _ hMem
    rw [Option.getD_some]
    omega

theorem currentMaxFrameId_le {n : Nat} (h : ∀ frame ∈ db.frames, frame.id ≤ n) :
    currentMaxFrameId db ≤ n := by
  unfold currentMaxFrameId
  rcases hMax : (db.frames.map StoredFrame.id).max? with - | greatest
  · simp
  · obtain ⟨frame, hFrame, rfl⟩ := List.mem_map.mp (List.max?_eq_some_iff.mp hMax).1
    have := h frame hFrame
    rw [Option.getD_some]
    omega

/-- A store whose frames have positive ids is set up well formed. -/
theorem setupHistoryMetadata_wellFormed {uuid : String} (hUuid : validHistoryId uuid = true)
    (hNew : db.historyId = none ∧ db.frameIdHighWater = none)
    (hNodup : (db.frames.map StoredFrame.id).Nodup) (hPos : ∀ frame ∈ db.frames, 0 < frame.id)
    (hLe : ∀ frame ∈ db.frames, frame.id ≤ i64Max) :
    (setupHistoryMetadata uuid db).WellFormed
      { historyId := uuid, frameIdHighWater := currentMaxFrameId db } := by
  unfold setupHistoryMetadata
  rw [hNew.1, hNew.2, if_pos (by decide)]
  refine ⟨rfl, hUuid, ?_, hNodup, hPos, fun frame hFrame => le_currentMaxFrameId hFrame⟩
  exact parseHighWater_repr (currentMaxFrameId_le hLe)

theorem allocateFrameId_ok (h : db.WellFormed metadata) {id : Nat}
    (hOk : allocateFrameId db = .ok (id, db')) :
    id = metadata.frameIdHighWater + 1 ∧ id ≤ i64Max ∧
      db' = { db with frameIdHighWater := some id.repr } := by
  unfold allocateFrameId at hOk
  rw [h.read] at hOk
  have hMax : max metadata.frameIdHighWater (currentMaxFrameId db) = metadata.frameIdHighWater :=
    max_eq_left (currentMaxFrameId_le h.ids_le)
  change (if max metadata.frameIdHighWater (currentMaxFrameId db) + 1 ≤ i64Max
    then Except.ok (max metadata.frameIdHighWater (currentMaxFrameId db) + 1, _)
    else Except.error _) = _ at hOk
  rw [hMax] at hOk
  split at hOk
  · next hFits =>
    cases hOk
    exact ⟨rfl, hFits, rfl⟩
  · cases hOk

/-- A new frame's id is the next one of the allocator. -/
theorem insertFrame_fresh (h : db.WellFormed metadata) {f : NewFrame} {id : Int}
    (hOk : insertFrame f db = .ok (id, db')) :
    id = metadata.frameIdHighWater + 1 ∧
      db'.WellFormed { metadata with frameIdHighWater := metadata.frameIdHighWater + 1 } ∧
      ∃ frame : StoredFrame, frame.id = id ∧ frame.capturedAt = f.capturedAt ∧
        db'.frames = db.frames ++ [frame] ∧ db'.frameText = db.frameText := by
  unfold insertFrame at hOk
  rcases hAllocated : allocateFrameId db with e | ⟨n, advanced⟩
  · rw [hAllocated] at hOk; cases hOk
  obtain ⟨hId, hFits, hAdvanced⟩ := allocateFrameId_ok h hAllocated
  rw [hAllocated] at hOk
  cases hOk
  subst hAdvanced hId
  refine ⟨rfl, ⟨h.historyId, h.valid, parseHighWater_repr hFits, ?_, ?_, ?_⟩, _, rfl, rfl, rfl, rfl⟩
  · rw [List.map_append]
    refine List.nodup_append.mpr ⟨h.ids_nodup, by simp, fun id hOld id' hNew => ?_⟩
    obtain ⟨frame, hFrame, rfl⟩ := List.mem_map.mp hOld
    have := h.ids_le frame hFrame
    rw [List.mem_singleton.mp hNew]
    show frame.id ≠ ((metadata.frameIdHighWater + 1 : Nat) : Int)
    omega
  · intro frame hFrame
    rcases List.mem_append.mp hFrame with hOld | hNew
    · exact h.ids_pos frame hOld
    · rw [List.mem_singleton.mp hNew]
      show (0 : Int) < ((metadata.frameIdHighWater + 1 : Nat) : Int)
      omega
  · intro frame hFrame
    rcases List.mem_append.mp hFrame with hOld | hNew
    · have := h.ids_le frame hOld
      push_cast
      omega
    · rw [List.mem_singleton.mp hNew]

theorem deleteFrame_wellFormed (h : db.WellFormed metadata) (frameId : Int) :
    (deleteFrame frameId db).WellFormed metadata where
  historyId := h.historyId
  valid := h.valid
  allocator := h.allocator
  ids_nodup := h.ids_nodup.sublist (List.filter_sublist.map _)
  ids_pos := fun frame hFrame => h.ids_pos frame (List.mem_of_mem_filter hFrame)
  ids_le := fun frame hFrame => h.ids_le frame (List.mem_of_mem_filter hFrame)

/-! ## Writes -/

inductive FrameWrite where
  | insert (f : NewFrame)
  | delete (frameId : Int)
  | text (row : FrameTextRow)
  deriving DecidableEq, Repr

/-- A statement that fails is rolled back. -/
def committed {α : Type} (db : FrameTables) (after : α → FrameTables) :
    Except HistoryReadError α → FrameTables
  | .ok a => after a
  | .error _ => db

def FrameWrite.apply (db : FrameTables) : FrameWrite → FrameTables
  | .insert f => committed db Prod.snd (insertFrame f db)
  | .delete frameId => deleteFrame frameId db
  | .text row => committed db id (upsertFrameText row db)

/-- A frame whose id is not new was there before, as it is. -/
theorem FrameWrite.apply_wellFormed (h : db.WellFormed metadata) (write : FrameWrite) :
    ∃ highWater, metadata.frameIdHighWater ≤ highWater ∧
      (write.apply db).WellFormed { metadata with frameIdHighWater := highWater } ∧
      ∀ frame ∈ (write.apply db).frames, frame.id ≤ metadata.frameIdHighWater →
        frame ∈ db.frames := by
  rcases write with f | frameId | row
  · show ∃ highWater, _ ∧ (committed db Prod.snd (insertFrame f db)).WellFormed _ ∧
      ∀ frame ∈ (committed db Prod.snd (insertFrame f db)).frames, _ → frame ∈ db.frames
    rcases hInsert : insertFrame f db with e | ⟨id, db'⟩
    · exact ⟨_, le_rfl, h, fun _ hFrame _ => hFrame⟩
    · obtain ⟨hId, hWell, frame, hFrame, -, hFrames, -⟩ := insertFrame_fresh h hInsert
      refine ⟨_, Nat.le_succ _, hWell, fun other hOther hLe => ?_⟩
      change other ∈ db'.frames at hOther
      rw [hFrames] at hOther
      rcases List.mem_append.mp hOther with hOld | hNew
      · exact hOld
      · rw [List.mem_singleton.mp hNew, hFrame, hId] at hLe
        omega
  · exact ⟨_, le_rfl, deleteFrame_wellFormed h frameId,
      fun frame hFrame _ => List.mem_of_mem_filter hFrame⟩
  · show ∃ highWater, _ ∧ (committed db id (upsertFrameText row db)).WellFormed _ ∧
      ∀ frame ∈ (committed db id (upsertFrameText row db)).frames, _ → frame ∈ db.frames
    unfold upsertFrameText
    split
    · exact ⟨_, le_rfl, h, fun _ hFrame _ => hFrame⟩
    · exact ⟨_, le_rfl, ⟨h.historyId, h.valid, h.allocator, h.ids_nodup, h.ids_pos, h.ids_le⟩,
        fun _ hFrame _ => hFrame⟩

end ScreenSearch.Store
