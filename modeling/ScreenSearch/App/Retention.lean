import ScreenSearch.Kernel.BackfillCut
import ScreenSearch.Store.FilterRemoves

/-!
# Degrade-to-text retention

The sweep over old screenshots, a step at a time: it lists the oldest frames whose image is there,
removes the file of one, and then marks the frame and merges its spans in one transaction. Frames
are captured in between, and a call may stop after any of its steps.

Main results:

* `safeFramePath_image` — a captured frame's path is a file under `frames/`;
* `imageFile_injective` — and frames of different times or monitors have different files.
-/

namespace ScreenSearch.App

open Store

/-! ## Paths -/

/-- `std::path::Component`. -/
inductive Component where
  | drive
  | rootDir
  | curDir
  | parentDir
  | normal (name : List Char)
  deriving DecidableEq, Repr

def isSeparator (c : Char) : Bool := c == '/' || c == '\\'

/-- A part between separators; an empty one and a single dot are dropped. -/
def part : List Char → Option Component
  | [] | ['.'] => none
  | ['.', '.'] => some .parentDir
  | name => some (.normal name)

/-- `Path::components` of a path without a drive. -/
def partsOf (path : List Char) : List Component :=
  match path.splitOnP isSeparator with
  | [[]] => []
  | [] :: rest => .rootDir :: rest.filterMap part
  | ['.'] :: rest => .curDir :: rest.filterMap part
  | parts => parts.filterMap part

def components (path : List Char) : List Component :=
  match path with
  | letter :: ':' :: rest => if letter.isAlpha then .drive :: partsOf rest else partsOf path
  | _ => partsOf path

def isAbsolute (path : List Component) : Bool :=
  match path with
  | .drive :: .rootDir :: _ => true
  | _ => false

def Component.normal? : Component → Option (List Char)
  | .normal name => some name
  | _ => none

/-- A file under the data directory, by the names on the way to it. -/
abbrev DataFile := List (List Char)

def framesDir : List Char := "frames".toList

/-- Nothing but names below `frames`. -/
def safeFramePath (imagePath : String) : Option DataFile :=
  let path := components imagePath.toList
  if isAbsolute path then none
  else match path with
    | .normal first :: rest =>
      if first = framesDir then (rest.mapM Component.normal?).map fun names => framesDir :: names
      else none
    | _ => none

def dayMs : Int := 86400000

/-- The path in the database, relative to the data directory. -/
def imagePaths (capturedAt : Int) (monitor : Nat) : String :=
  "frames/" ++ ("day-" ++ toString (capturedAt / dayMs) ++ "/" ++ toString capturedAt ++ "-" ++
    toString monitor ++ ".webp")

/-- The file that a capture writes. -/
def imageFile (capturedAt : Int) (monitor : Nat) : DataFile :=
  [framesDir, ("day-" ++ toString (capturedAt / dayMs)).toList,
    (toString capturedAt ++ "-" ++ toString monitor ++ ".webp").toList]

theorem part_long {name : List Char} (h : 2 < name.length) : part name = some (.normal name) := by
  unfold part
  split
  · simp at h
  · simp at h
  · simp at h
  · rfl

theorem toString_chars (n : Int) : ∀ c ∈ (toString n).toList, c.isDigit = true ∨ c = '-' := by
  have hNat : ∀ m : Nat, ∀ c ∈ m.repr.toList, c.isDigit = true := by
    intro m c hc
    rw [Nat.toList_repr] at hc
    exact Nat.isDigit_of_mem_toDigits (by decide) (by decide) hc
  rcases n with m | m
  · exact fun c hc => .inl (hNat m c hc)
  · intro c hc
    replace hc : c ∈ ("-" ++ (m + 1).repr).toList := hc
    rw [String.toList_append] at hc
    rcases List.mem_append.mp hc with hc | hc
    · exact .inr (List.mem_singleton.mp hc)
    · exact .inl (hNat (m + 1) c hc)

theorem ofDigits_repr (m : Nat) : Nat.ofDigitChars 10 m.repr.toList 0 = m := by
  rw [Nat.toList_repr, Nat.ofDigitChars_ten_toDigits]

theorem toString_nat_inj {m n : Nat} (h : (toString m).toList = (toString n).toList) : m = n := by
  rw [← ofDigits_repr m, ← ofDigits_repr n]
  exact congrArg (Nat.ofDigitChars 10 · 0) h

theorem toString_int_inj {m n : Int} (h : (toString m).toList = (toString n).toList) : m = n := by
  have hSign : ∀ a b : Nat, a.repr.toList ≠ ("-" ++ (b + 1).repr).toList := by
    intro a b hEq
    rw [String.toList_append] at hEq
    have hMem : '-' ∈ a.repr.toList := hEq ▸ List.mem_append_left _ (List.mem_singleton.mpr rfl)
    rw [Nat.toList_repr] at hMem
    exact absurd (Nat.isDigit_of_mem_toDigits (by decide) (by decide) hMem) (by decide)
  rcases m with a | a <;> rcases n with b | b
  · exact congrArg Int.ofNat (toString_nat_inj h)
  · exact absurd h (hSign a b)
  · exact absurd h.symm (hSign b a)
  · replace h : ("-" ++ (a + 1).repr).toList = ("-" ++ (b + 1).repr).toList := h
    rw [String.toList_append, String.toList_append] at h
    have := toString_nat_inj (List.append_cancel_left h)
    rw [Nat.succ.inj this]

/-- What follows the last dash is told apart from what comes before it. -/
theorem append_dash_inj {a a' b b' : List Char} (hb : '-' ∉ b) (hb' : '-' ∉ b')
    (h : a ++ '-' :: b = a' ++ '-' :: b') : a = a' ∧ b = b' := by
  rcases List.append_eq_append_iff.mp h with ⟨c, rfl, hRest⟩ | ⟨c, rfl, hRest⟩
  · rcases c with _ | ⟨x, c⟩
    · exact ⟨(List.append_nil a).symm, (List.cons.inj hRest).2⟩
    · rw [List.cons_append] at hRest
      refine absurd ?_ hb
      rw [(List.cons.inj hRest).2]
      exact List.mem_append_right c List.mem_cons_self
  · rcases c with _ | ⟨x, c⟩
    · exact ⟨List.append_nil a', (List.cons.inj hRest).2.symm⟩
    · rw [List.cons_append] at hRest
      refine absurd ?_ hb'
      rw [(List.cons.inj hRest).2]
      exact List.mem_append_right c List.mem_cons_self

theorem imageFile_injective {t t' : Int} {m m' : Nat} (h : imageFile t m = imageFile t' m') :
    t = t' ∧ m = m' := by
  have hFile := (List.cons.inj (List.cons.inj (List.cons.inj h).2).2).1
  simp only [String.toList_append, List.append_assoc] at hFile
  have hDigits : ∀ n : Nat, '-' ∉ (toString n).toList := by
    intro n hMem
    rw [show toString n = n.repr from rfl, Nat.toList_repr] at hMem
    exact absurd (Nat.isDigit_of_mem_toDigits (by decide) (by decide) hMem) (by decide)
  have hTail : ∀ n : Nat, '-' ∉ (toString n).toList ++ ".webp".toList := fun n hMem => by
    rcases List.mem_append.mp hMem with hMem | hMem
    · exact hDigits n hMem
    · exact absurd hMem (by decide)
  obtain ⟨hTime, hMonitor⟩ := append_dash_inj (hTail m) (hTail m') hFile
  exact ⟨toString_int_inj hTime, toString_nat_inj (List.append_cancel_right hMonitor)⟩

theorem no_separator {name : List Char} (h : name.all (fun c => !isSeparator c) = true) :
    ∀ c ∈ name, isSeparator c = false :=
  fun c hc => Bool.not_eq_true' _ ▸ List.all_eq_true.mp h c hc

/-- The path of a captured frame leads to the file that the capture wrote. -/
theorem safeFramePath_image (t : Int) (m : Nat) :
    safeFramePath (imagePaths t m) = some (imageFile t m) := by
  have hNumber : ∀ n : Int, ∀ c ∈ (toString n).toList, isSeparator c = false := by
    intro n c hc
    rcases toString_chars n c hc with hDigit | rfl
    · unfold isSeparator
      rw [Bool.or_eq_false_iff, beq_eq_false_iff_ne, beq_eq_false_iff_ne]
      constructor <;> rintro rfl <;> exact absurd hDigit (by decide)
    · decide
  have hDay : ∀ c ∈ ("day-" ++ toString (t / dayMs)).toList, isSeparator c = false := by
    intro c hc
    rw [String.toList_append] at hc
    rcases List.mem_append.mp hc with hc | hc
    · exact @no_separator "day-".toList (by decide) c hc
    · exact hNumber _ c hc
  have hName : ∀ c ∈ (toString t ++ "-" ++ toString m ++ ".webp").toList,
      isSeparator c = false := by
    intro c hc
    simp only [String.toList_append, List.mem_append] at hc
    rcases hc with ((hc | hc) | hc) | hc
    · exact hNumber t c hc
    · exact @no_separator "-".toList (by decide) c hc
    · exact hNumber (m : Int) c hc
    · exact @no_separator ".webp".toList (by decide) c hc
  have hChars : (imagePaths t m).toList = framesDir ++ '/' ::
      (("day-" ++ toString (t / dayMs)).toList ++ '/' ::
        (toString t ++ "-" ++ toString m ++ ".webp").toList) := by
    unfold imagePaths framesDir
    simp only [String.toList_append, List.append_assoc]
    rfl
  have hParts : components (imagePaths t m).toList = [.normal framesDir,
      .normal ("day-" ++ toString (t / dayMs)).toList,
      .normal (toString t ++ "-" ++ toString m ++ ".webp").toList] := by
    have hFrames : ∀ c ∈ framesDir, isSeparator c = false := no_separator (by decide)
    have hSplit : (imagePaths t m).toList.splitOnP isSeparator = [framesDir,
        ("day-" ++ toString (t / dayMs)).toList,
        (toString t ++ "-" ++ toString m ++ ".webp").toList] := by
      rw [hChars, List.splitOnP_append_cons_of_forall_mem hFrames '/' rfl,
        List.splitOnP_append_cons_of_forall_mem hDay '/' rfl, List.splitOnP_eq_singleton hName]
    have hDayPart := @part_long ("day-" ++ toString (t / dayMs)).toList (by
      rw [String.toList_append, List.length_append]
      exact Nat.lt_add_right _ (by decide))
    have hNamePart := @part_long (toString t ++ "-" ++ toString m ++ ".webp").toList (by
      rw [String.toList_append, List.length_append]
      exact Nat.lt_add_left _ (by decide))
    obtain ⟨rest, hRest⟩ : ∃ rest, (imagePaths t m).toList = 'f' :: 'r' :: rest := ⟨_, hChars⟩
    have hPath : components (imagePaths t m).toList = partsOf (imagePaths t m).toList := by
      rw [hRest]
      rfl
    rw [hPath]
    unfold partsOf
    rw [hSplit]
    show [framesDir, _, _].filterMap part = _
    rw [List.filterMap_cons_some (by decide : part framesDir = some (.normal framesDir)),
      List.filterMap_cons_some hDayPart, List.filterMap_cons_some hNamePart]
    rfl
  unfold safeFramePath
  rw [hParts]
  rfl

/-! ## The store and the calls -/

def retentionBatch : Nat := 1000

/-- The tables, with the column `frames.image_path` by the frame's id. -/
structure ImageTables where
  db : SearchTables
  imagePath : Int → String

/-- What a candidate's row is read to. -/
structure FrameMeta where
  frameId : Int
  capturedAt : Int
  imagePath : String
  deriving DecidableEq, Repr

namespace ImageTables

def imageOlderThan (cutoff : Int) (t : ImageTables) : List StoredFrame :=
  t.db.frames.filter fun frame => frame.capturedAt < cutoff && !frame.imagePurged

/-- Oldest first; of one time, in the order of the ids. -/
def framesWithImageOlderThan (cutoff : Int) (limit : Nat) (t : ImageTables) : List FrameMeta :=
  ((Sorting.sortByKey StoredFrame.capturedAt (t.imageOlderThan cutoff)).take limit).map
    fun frame =>
      { frameId := frame.id
        capturedAt := frame.capturedAt
        imagePath := t.imagePath frame.id }

end ImageTables

def i64Min : Int := -9223372036854775808
def i64Top : Int := 9223372036854775807

def saturate (n : Int) : Int := min (max n i64Min) i64Top

/-- `u32::from_str`: digits, after a plus sign if there is one. -/
def parseU32 (raw : String) : Option Nat :=
  let digits := match raw.toList with
    | '+' :: rest => rest
    | all => all
  if digits.isEmpty || !digits.all Char.isDigit then none
  else
    let n := Nat.ofDigitChars 10 digits 0
    if n < 2 ^ 32 then some n else none

/-- `storage.retention_days` as `load_settings` reads and clamps it: what is missing, cannot be
read or is no number is the default. -/
def loadRetentionDays (raw : Except HistoryReadError (Option String)) : Nat :=
  Kernel.clampU32 (match raw with
    | .ok (some text) => (parseU32 text).getD 30
    | .ok none | .error _ => 30) 0 3650

def retentionCutoff (days : Nat) (now : Int) : Int := saturate (now - saturate (days * dayMs))

/-- Where a call is. -/
inductive SweepPhase where
  | idle
  | listing
  | removing (todo : List FrameMeta)
  | degrading (frame : FrameMeta) (todo : List FrameMeta)
  | returned (result : Except String Nat)
  /-- It was dropped, or its process ended. -/
  | stopped

structure SweepCall where
  phase : SweepPhase
  /-- None where retention is off. -/
  cutoff : Option Int
  degraded : Nat
  /-- Some operation of it failed. -/
  faulty : Bool
  /-- The frames there were when it started. -/
  known : List StoredFrame
  /-- The candidates that it listed. -/
  listed : List FrameMeta

def SweepCall.idle : SweepCall where
  phase := .idle
  cutoff := none
  degraded := 0
  faulty := false
  known := []
  listed := []

structure RetentionState where
  tables : ImageTables
  /-- The files that are there. -/
  disk : DataFile → Bool
  calls : Nat → SweepCall

inductive RetentionEvent where
  /-- A call reads the setting and the clock. -/
  | start (i : Nat) (raw : Except HistoryReadError (Option String)) (now : Int)
  /-- The next operation of a call, which fails by itself where `fails`. -/
  | advance (i : Nat) (fails : Bool)
  | stop (i : Nat)
  /-- A capture creates its file, or writes over it. -/
  | writeImage (capturedAt : Int) (monitor : Nat)
  | insertFrame (f : NewFrame)
  | insertOcrFiltered (frameId : Int) (ocr : OcrResult) (ctx : TextFilterContext)

namespace RetentionState

def setCall (s : RetentionState) (i : Nat) (call : SweepCall) : RetentionState :=
  { s with calls := Function.update s.calls i call }

@[simp] theorem setCall_self (s : RetentionState) (i : Nat) (call : SweepCall) :
    (s.setCall i call).calls i = call :=
  Function.update_self ..

/-- The next operation of a call. -/
def advance (textFilter : TextFilter) (s : RetentionState) (i : Nat) (fails : Bool) :
    RetentionState :=
  let call := s.calls i
  match call.phase with
  | .idle | .returned _ | .stopped => s
  | .listing =>
    if fails then
      s.setCall i { call with phase := .returned (.error "listing failed"), faulty := true }
    else
      let cutoff := call.cutoff.getD i64Min
      let listed := s.tables.framesWithImageOlderThan cutoff retentionBatch
      s.setCall i { call with phase := .removing listed, listed := listed }
  | .removing [] => s.setCall i { call with phase := .returned (.ok call.degraded) }
  | .removing (frame :: todo) =>
    match safeFramePath frame.imagePath with
    | none => s.setCall i { call with phase := .degrading frame todo }
    | some path =>
      -- a file that is not there is as good as removed
      if fails then s.setCall i { call with phase := .removing todo, faulty := true }
      else
        { s.setCall i { call with phase := .degrading frame todo } with
          disk := Function.update s.disk path false }
  | .degrading frame todo =>
    match if fails then .error (.storage "degrade failed")
      else s.tables.db.degradeFrameToText textFilter frame.frameId with
    | .error _ => s.setCall i { call with phase := .removing todo, faulty := true }
    | .ok db =>
      { s.setCall i { call with phase := .removing todo, degraded := call.degraded + 1 } with
        tables := { s.tables with db := db } }

def step (textFilter : TextFilter) (s : RetentionState) : RetentionEvent → RetentionState
  | .start i raw now =>
    match (s.calls i).phase with
    | .idle =>
      let days := loadRetentionDays raw
      if days = 0 then s.setCall i { SweepCall.idle with phase := .returned (.ok 0) }
      else s.setCall i { SweepCall.idle with
        phase := .listing
        cutoff := some (retentionCutoff days now)
        known := s.tables.db.frames }
    | _ => s
  | .advance i fails => s.advance textFilter i fails
  | .stop i =>
    match (s.calls i).phase with
    | .idle | .returned _ => s
    | _ => s.setCall i { s.calls i with phase := .stopped }
  | .writeImage capturedAt monitor =>
    { s with disk := Function.update s.disk (imageFile capturedAt monitor) true }
  | .insertFrame f =>
    match Store.insertFrame f s.tables.db.toFrameTables with
    | .error _ => s
    | .ok (id, tables) =>
      { s with tables :=
        { db := { s.tables.db with toFrameTables := tables }
          imagePath := Function.update s.tables.imagePath id
            (imagePaths f.capturedAt f.monitorIndex) } }
  | .insertOcrFiltered frameId ocr ctx =>
    match s.tables.db.insertOcrFiltered textFilter frameId ocr ctx with
    | .error _ => s
    | .ok db => { s with tables := { s.tables with db := db } }

def run (textFilter : TextFilter) (s : RetentionState) (events : List RetentionEvent) :
    RetentionState :=
  events.foldl (step textFilter) s

end RetentionState

end ScreenSearch.App
