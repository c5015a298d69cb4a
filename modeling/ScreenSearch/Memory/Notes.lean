import Mathlib.Data.List.Destutter
import Mathlib.Data.List.Sort
import Mathlib.Data.Prod.Lex
import ScreenSearch.Lib.PrettyJson
import ScreenSearch.Memory.Delivery

/-!
# Memory notes

The Markdown note of a saved report: its file name, its frontmatter and its body,
and what the index makes of a note it finds.

`rfc3339` renders an instant in milliseconds, where there is one, and `fromStr`
reads frontmatter. Paths are lists of components. All callers replace the error
texts of `noteRelativePath` and `dailyNote` by their own.

Main results:

* `splitOnce_laid` — a laid out text ends at the first closing fence;
* `parseFrontmatter_dailyNote` — the metadata is read back from the note;
* `noteRelativePath_relabelled` — and names the file it is in;
* `dailyNote_accepted` — so the index takes the note.
-/

namespace ScreenSearch.Memory

open PrettyJson Text

/-! ## Dates and identities -/

/-- A date, ordered by year, month and day. -/
abbrev NaiveDate := Nat ×ₗ Nat ×ₗ Nat

def daysInMonth (year month : Nat) : Nat :=
  if month = 2 then
    if year % 4 = 0 ∧ (year % 100 ≠ 0 ∨ year % 400 = 0) then 29 else 28
  else if month ∈ [4, 6, 9, 11] then 30
  else 31

/-- Ten characters, and exactly those that the date is formatted as. -/
def parseDate (value : String) : Except String NaiveDate :=
  let year := Nat.ofDigitChars 10 (value.toList.take 4) 0
  let month := Nat.ofDigitChars 10 ((value.toList.drop 5).take 2) 0
  let day := Nat.ofDigitChars 10 (value.toList.drop 8) 0
  let shaped := value.toList.map fun c => if c.isDigit then '0' else c
  if shaped = "0000-00-00".toList ∧ 1 ≤ month ∧ month ≤ 12 ∧ 1 ≤ day ∧
      day ≤ daysInMonth year month then
    .ok (toLex (year, toLex (month, day)))
  else .error "date must be YYYY-MM-DD"

/-- Hyphenated and in lower case, the way `Uuid::to_string` writes it. -/
def canonicalUuid (value : String) : Bool :=
  value.toList.map (fun c => if c.isDigit || c ∈ "abcdef".toList then '0' else c) ==
    "00000000-0000-0000-0000-000000000000".toList

/-! ## Frontmatter -/

structure Frontmatter where
  requestedRange : Option MemoryReportRange
  baseRunId : Option String
  schema : Nat
  runId : String
  sourceId : String
  windowStart : String
  windowEnd : String
  timezone : String
  status : ReportOutcome
  model : Option String
  framesSampled : Nat
  framesSummarized : Nat
  periodsTotal : Nat
  periodsCovered : Nat
  truncated : Bool
  frameIds : List Int
  sessionIds : List Int
  deriving DecidableEq

def outcomeName : ReportOutcome → String
  | .ok => "OK"
  | .partialCoverage => "PARTIAL"
  | .noData => "NO_DATA"
  | .blocked => "BLOCKED"
  | .failed => "FAILED"

section

def stringValue (text : String) : Value := .scalar (Json.renderString text)

def optionValue (text : Option String) : Value := (text.map stringValue).getD (.scalar "null".toList)

def intValue (n : Int) : Value := .scalar (Json.renderInt n)

def boolValue (b : Bool) : Value := .scalar (if b then "true".toList else "false".toList)

def rangeValue (range : MemoryReportRange) : Value :=
  .obj [("start_date", stringValue range.startDate), ("end_date", stringValue range.endDate)]

def frontmatterValue (m : Frontmatter) : Value :=
  .obj [("requested_range", (m.requestedRange.map rangeValue).getD (.scalar "null".toList)),
    ("base_run_id", optionValue m.baseRunId), ("schema", intValue m.schema),
    ("run_id", stringValue m.runId), ("source_id", stringValue m.sourceId),
    ("window_start", stringValue m.windowStart), ("window_end", stringValue m.windowEnd),
    ("timezone", stringValue m.timezone), ("status", stringValue (outcomeName m.status)),
    ("model", optionValue m.model), ("frames_sampled", intValue m.framesSampled),
    ("frames_summarized", intValue m.framesSummarized), ("periods_total", intValue m.periodsTotal),
    ("periods_covered", intValue m.periodsCovered), ("truncated", boolValue m.truncated),
    ("frame_ids", .arr (m.frameIds.map intValue)), ("session_ids", .arr (m.sessionIds.map intValue))]

end

/-- `serde_json::to_string_pretty`. -/
def toStringPretty (m : Frontmatter) : String := String.ofList (render 0 (frontmatterValue m))

def reportLabel (run : ReportRun) : String :=
  match run.requestedRange with
  | some range =>
    if range.startDate ≠ range.endDate then range.startDate ++ " to " ++ range.endDate
    else range.startDate
  | none => run.localDate

/-! ## Notes -/

/-- A path below the output root. -/
structure NotePath where
  folder : String
  fileName : String
  deriving DecidableEq

def noteRelativePath (localDate : String) (range : Option MemoryReportRange)
    (baseRunId : Option String) : Except String NotePath := do
  match range with
  | some range =>
    let first ← parseDate range.startDate
    let last ← parseDate range.endDate
    Store.ensure (decide (first ≤ last)) "invalid requested date range"
    match baseRunId with
    | none => throw "missing base run identity"
    | some base =>
      Store.ensure (canonicalUuid base) "invalid base run identity"
      pure { folder := "Reports"
             fileName := range.startDate ++ "_to_" ++ range.endDate ++ "_" ++ base ++ ".md" }
  | none =>
    let _ ← parseDate localDate
    pure { folder := "Daily", fileName := localDate ++ ".md" }

/-- Sorted, each once. -/
def sortedIds (ids : List Int) : List Int := (ids.insertionSort (· ≤ ·)).destutter (· ≠ ·)

section

variable (rfc3339 : Int → Option String)

def timestamp (ms : Int) : Except String String :=
  match rfc3339 ms with
  | some text => pure text
  | none => throw "invalid report timestamp"

def noteMetadata (run : ReportRun) (baseRunId : Option String) (result : SavedReport)
    (status : ReportOutcome) : Except String Frontmatter := do
  Store.ensure (decide (status = .ok ∨ status = .partialCoverage ∨ status = .noData))
    "report is not exportable"
  let ids := sortedIds result.frameIds
  Store.ensure (decide (ids.length = result.framesSummarized)) "report evidence count mismatch"
  let sessionIds := sortedIds result.sessionIds
  if status = .noData then
    Store.ensure (ids.isEmpty && sessionIds.isEmpty && result.model.isNone)
      "no-data report contains model or evidence"
  let windowStart ← timestamp rfc3339 run.windowStart
  let windowEnd ← timestamp rfc3339 run.windowEnd
  pure { requestedRange := run.requestedRange, baseRunId, schema := 1, runId := run.runId
         sourceId := run.sourceId, windowStart, windowEnd, timezone := run.timezone, status
         model := result.model, framesSampled := result.framesSampled
         framesSummarized := result.framesSummarized, periodsTotal := result.periodsTotal
         periodsCovered := result.periodsCovered, truncated := result.truncated
         frameIds := ids, sessionIds }

/-- The note below its frontmatter. -/
def noteBody (run : ReportRun) (result : SavedReport) (status : ReportOutcome) : String :=
  "\n# " ++ reportLabel run ++ "\n\n" ++
    (if status = .partialCoverage then
      "> PARTIAL — coverage is incomplete; this is not an exhaustive account.\n\n" else "") ++
    result.markdown ++
    "\n\nEvidence IDs identify captured sources at generation time; later retention may remove them.\n"

def dailyNote (run : ReportRun) (baseRunId : Option String) : Except String String := do
  let _ ← noteRelativePath run.localDate run.requestedRange baseRunId
  match run.result with
  | none => throw "report has no saved output"
  | some result =>
    match run.outcome with
    | none => throw "report has no outcome"
    | some status =>
      let metadata ← noteMetadata rfc3339 run baseRunId result status
      pure ("---\n" ++ toStringPretty metadata ++ "\n---\n" ++ noteBody run result status)

end

/-! ## The index -/

section

variable (fromStr : String → Except String Frontmatter)

def parseFrontmatter (text : String) : Except String Frontmatter := do
  match stripPrefix "---\n" text with
  | none => throw "missing frontmatter"
  | some body =>
    match splitOnce "\n---\n" body with
    | none => throw "incomplete frontmatter"
    | some (json, _) => fromStr json

/-- The first line of the body that says something. -/
def indexTopic (text : String) : String :=
  let body := ((splitOnce "\n---\n" text).map Prod.snd).getD ""
  match ((lines body).map trim).find? fun line =>
      !line.isEmpty && !("#".toList.isPrefixOf line.toList) && !(">".toList.isPrefixOf line.toList) &&
        !("Evidence IDs".toList.isPrefixOf line.toList) &&
        !("**Partial".toList.isPrefixOf line.toList) with
  | some line =>
    " — " ++ String.ofList ((line.toList.filter fun c => c ∉ "[]()<>`*_".toList).take 100)
  | none => ""

/-- How the index calls the date of a note. -/
def labelDate (metadata : Frontmatter) (name : String) : String :=
  match metadata.requestedRange with
  | some range =>
    if range.startDate ≠ range.endDate then range.startDate ++ " to " ++ range.endDate
    else range.startDate
  | none => (stripSuffix ".md" name).getD ""

/-- One round of the index loop: the key and the line of a note, unless it is no note of
this source below `root`. `text` is what the file holds, where it is readable and as it was
recorded. -/
def indexEntry (root : List String) (sourceId : String) (owned : ReportFileOwnership)
    (path : List String) (text : Option String) : Except ReportError (Option (String × String)) :=
  if path.dropLast ∉ [root ++ ["Daily"], root ++ ["Reports"]] ∨ owned.sourceId ≠ sourceId then
    .ok none
  else
    match text, path.getLast? with
    | some text, some name =>
      match parseFrontmatter fromStr text with
      | .error _ => .error (fail "FILE_CONFLICT" "An owned note has invalid provenance metadata.")
      | .ok metadata =>
        if metadata.sourceId ≠ owned.sourceId ∨ metadata.runId ≠ owned.runId then
          .error (fail "FILE_CONFLICT" "An owned note does not match its saved provenance.")
        else
          let date := labelDate metadata name
          match noteRelativePath date metadata.requestedRange metadata.baseRunId with
          | .error _ =>
            .error (fail "FILE_CONFLICT" "An owned note has invalid date or filename metadata.")
          | .ok expected =>
            if root ++ [expected.folder, expected.fileName] ≠ path then
              .error (fail "FILE_CONFLICT"
                "An owned note filename does not match its provenance.")
            else
              let shown := expected.folder ++ "/" ++ expected.fileName
              .ok (some (date ++ "/" ++ shown, "- [" ++ date ++ "](" ++ shown ++ ") — " ++
                outcomeName metadata.status ++ indexTopic text ++ "\n"))
    | _, _ => .ok none

end

/-! ## The frontmatter is read back -/

/-- Where a text is laid out, the first closing fence is the one behind it. -/
theorem splitOnce_laid {json : String} (h : Laid json.toList) (rest : String) :
    splitOnce "\n---\n" (json ++ "\n---\n" ++ rest) = some (json, rest) := by
  have hText : (json ++ "\n---\n" ++ rest).toList =
      json.toList ++ ("\n---\n".toList ++ rest.toList) := by
    rw [String.toList_append, String.toList_append, List.append_assoc]
  unfold splitOnce
  rw [hText, splitAtFirst_append (by decide)]
  · rw [Option.map_some, String.ofList_toList, String.ofList_toList]
  · intro l r hSplit hSome hFence
    rw [hSplit] at h
    have hLaid := h.of_append
    rcases r with _ | ⟨c, r⟩
    · exact hSome rfl
    -- a fence would begin with a line break, and the line behind it with a dash
    obtain ⟨hBreak, hDashes⟩ := List.cons_prefix_cons.mp hFence
    obtain ⟨d, hHead, hStart⟩ := hLaid.1 hBreak.symm
    rcases r with _ | ⟨e, r⟩
    · cases hHead
    obtain rfl : e = d := Option.some.inj hHead
    obtain ⟨rfl, -⟩ := List.cons_prefix_cons.mp hDashes
    rcases hStart with hStart | hStart | hStart
    all_goals exact absurd hStart (by decide)

theorem stringValue_proper (text : String) : Proper (stringValue text) := by
  rw [stringValue, Proper]
  exact renderString_plain text

theorem intValue_proper (n : Int) : Proper (intValue n) := by
  rw [intValue, Proper]
  exact renderInt_plain n

theorem null_proper : Proper (.scalar "null".toList) := by
  rw [Proper]
  decide

theorem optionValue_proper (text : Option String) : Proper (optionValue text) := by
  rcases text with _ | text
  · exact null_proper
  · exact stringValue_proper text

theorem idsValue_proper (ids : List Int) : Proper (.arr (ids.map intValue)) := by
  rw [Proper]
  induction ids with
  | nil =>
    rw [List.map_nil, ProperItems]
    trivial
  | cons id ids ih =>
    rw [List.map_cons, ProperItems]
    exact ⟨intValue_proper id, ih⟩

theorem frontmatterValue_proper (m : Frontmatter) : Proper (frontmatterValue m) := by
  have hRange : Proper ((m.requestedRange.map rangeValue).getD (.scalar "null".toList)) := by
    rcases m.requestedRange with _ | range
    · exact null_proper
    · rw [Option.map_some, Option.getD_some, rangeValue, Proper]
      simp only [ProperFields, and_true]
      exact ⟨stringValue_proper _, stringValue_proper _⟩
  have hTruncated : Proper (boolValue m.truncated) := by
    rw [boolValue, Proper]
    rcases m.truncated with _ | _
    all_goals decide
  rw [frontmatterValue, Proper]
  simp only [ProperFields, and_true]
  exact ⟨hRange, optionValue_proper _, intValue_proper _, stringValue_proper _,
    stringValue_proper _, stringValue_proper _, stringValue_proper _, stringValue_proper _,
    stringValue_proper _, optionValue_proper _, intValue_proper _, intValue_proper _,
    intValue_proper _, intValue_proper _, hTruncated, idsValue_proper _, idsValue_proper _⟩

theorem toStringPretty_laid (m : Frontmatter) : Laid (toStringPretty m).toList := by
  unfold toStringPretty
  rw [String.toList_ofList]
  exact render_laid 0 _ (frontmatterValue_proper m)

variable {rfc3339 : Int → Option String} {fromStr : String → Except String Frontmatter}
  {run : ReportRun} {baseRunId : Option String} {note : String} {path : NotePath}
  {metadata : Frontmatter}

/-- A note is its metadata between two fences, and a body. -/
theorem dailyNote_cases (h : dailyNote rfc3339 run baseRunId = .ok note) :
    ∃ path result status metadata,
      noteRelativePath run.localDate run.requestedRange baseRunId = .ok path ∧
      run.result = some result ∧ run.outcome = some status ∧
      noteMetadata rfc3339 run baseRunId result status = .ok metadata ∧
      note = "---\n" ++ toStringPretty metadata ++ "\n---\n" ++ noteBody run result status := by
  simp only [dailyNote, Store.bind_ok] at h
  obtain ⟨path, hPath, h⟩ := h
  rcases hResult : run.result with _ | result
  · rw [hResult] at h
    cases h
  rcases hStatus : run.outcome with _ | status
  · rw [hResult, hStatus] at h
    cases h
  rw [hResult, hStatus] at h
  obtain ⟨metadata, hMetadata, h⟩ := Store.bind_ok.mp h
  cases h
  exact ⟨path, result, status, metadata, hPath, rfl, rfl, hMetadata, rfl⟩

theorem noteMetadata_identity {result : SavedReport} {status : ReportOutcome}
    (h : noteMetadata rfc3339 run baseRunId result status = .ok metadata) :
    metadata.requestedRange = run.requestedRange ∧ metadata.baseRunId = baseRunId ∧
      metadata.runId = run.runId ∧ metadata.sourceId = run.sourceId := by
  simp only [noteMetadata, Store.bind_ok] at h
  obtain ⟨-, -, -, -, h⟩ := h
  split at h
  · simp only [Store.bind_ok] at h
    obtain ⟨-, -, windowStart, -, windowEnd, -, h⟩ := h
    cases h
    exact ⟨rfl, rfl, rfl, rfl⟩
  · simp only [Store.bind_ok] at h
    obtain ⟨windowStart, -, windowEnd, -, h⟩ := h
    cases h
    exact ⟨rfl, rfl, rfl, rfl⟩

theorem parseFrontmatter_fenced (m : Frontmatter) (body : String) :
    parseFrontmatter fromStr ("---\n" ++ toStringPretty m ++ "\n---\n" ++ body) =
      fromStr (toStringPretty m) := by
  have hOpen : stripPrefix "---\n" ("---\n" ++ toStringPretty m ++ "\n---\n" ++ body) =
      some (toStringPretty m ++ "\n---\n" ++ body) := by
    unfold stripPrefix
    rw [String.append_assoc, String.append_assoc, String.toList_append,
      List.dropPrefix?_append_of_beq _ (beq_self_eq_true _), Option.map_some,
      String.ofList_toList, String.append_assoc]
  unfold parseFrontmatter
  rw [hOpen]
  dsimp only
  rw [splitOnce_laid (toStringPretty_laid m)]

/-! ## The file name is found again -/

theorem stripSuffix_append (value affix : String) :
    stripSuffix affix (value ++ affix) = some value := by
  have hDrop : List.dropSuffix? (value ++ affix).toList affix.toList = some value.toList := by
    rw [List.dropSuffix?_eq_some_iff]
    exact ⟨affix.toList, String.toList_append, beq_self_eq_true _⟩
  unfold stripSuffix
  rw [hDrop, Option.map_some, String.ofList_toList]

/-- A daily note is named by its date, a range note by its dates and the first run's identity. -/
theorem noteRelativePath_cases {localDate : String} {range : Option MemoryReportRange}
    (h : noteRelativePath localDate range baseRunId = .ok path) :
    (range = none ∧ (∃ date, parseDate localDate = .ok date) ∧
      path = { folder := "Daily", fileName := localDate ++ ".md" }) ∨
    ∃ dates first last base, range = some dates ∧ parseDate dates.startDate = .ok first ∧
      parseDate dates.endDate = .ok last ∧ canonicalUuid base = true ∧
      path = { folder := "Reports"
               fileName := dates.startDate ++ "_to_" ++ dates.endDate ++ "_" ++ base ++ ".md" } := by
  rcases range with _ | dates
  · simp only [noteRelativePath, Store.bind_ok] at h
    obtain ⟨date, hDate, h⟩ := h
    cases h
    exact Or.inl ⟨rfl, ⟨date, hDate⟩, rfl⟩
  · simp only [noteRelativePath, Store.bind_ok] at h
    obtain ⟨first, hFirst, last, hLast, -, -, h⟩ := h
    rcases baseRunId with _ | base
    · cases h
    · simp only [Store.bind_ok, Store.ensure_ok] at h
      obtain ⟨-, hCanonical, h⟩ := h
      cases h
      exact Or.inr ⟨dates, first, last, base, rfl, hFirst, hLast, hCanonical, rfl⟩

/-- The date of a daily note is in its name; that of a range note does not matter. -/
theorem noteRelativePath_relabelled
    (h : noteRelativePath run.localDate run.requestedRange baseRunId = .ok path)
    (hRange : metadata.requestedRange = run.requestedRange) :
    noteRelativePath (labelDate metadata path.fileName) run.requestedRange baseRunId =
      .ok path := by
  unfold labelDate
  rw [hRange]
  rcases noteRelativePath_cases h with ⟨hRequested, -, rfl⟩ | ⟨dates, -, -, -, hRequested, -⟩
  · rw [hRequested] at h ⊢
    rw [stripSuffix_append, Option.getD_some]
    exact h
  · rw [hRequested] at h ⊢
    exact h

/-! ## The file name is one component -/

/-- Nothing that separates the components of a path. -/
def Unseparated (text : String) : Prop := ∀ c ∈ text.toList, c ∉ ['/', '\\', ':']

theorem Unseparated.append {a b : String} (ha : Unseparated a) (hb : Unseparated b) :
    Unseparated (a ++ b) := by
  intro c hc
  rw [String.toList_append, List.mem_append] at hc
  exact hc.elim (ha c) (hb c)

theorem unseparated_literal {text : String}
    (hAll : text.toList.all (fun c => !(['/', '\\', ':'].contains c)) = true) :
    Unseparated text := by
  intro c hc hBad
  have hNot := List.all_eq_true.mp hAll c hc
  rw [List.contains_iff_mem.mpr hBad] at hNot
  cases hNot

theorem parseDate_unseparated {value : String} {date : NaiveDate}
    (h : parseDate value = .ok date) : Unseparated value := by
  intro c hc hBad
  unfold parseDate at h
  dsimp only at h
  split at h
  · rename_i hShape
    have hIn := List.mem_map_of_mem (f := fun c => if c.isDigit then '0' else c) hc
    rw [hShape.1] at hIn
    simp only [List.mem_cons, List.not_mem_nil, or_false] at hBad
    rcases hBad with rfl | rfl | rfl
    all_goals exact absurd hIn (by decide)
  · cases h

theorem canonicalUuid_unseparated {value : String} (h : canonicalUuid value = true) :
    Unseparated value := by
  intro c hc hBad
  have hShape := beq_iff_eq.mp h
  have hIn := List.mem_map_of_mem
    (f := fun c => if c.isDigit || c ∈ "abcdef".toList then '0' else c) hc
  rw [hShape] at hIn
  simp only [List.mem_cons, List.not_mem_nil, or_false] at hBad
  rcases hBad with rfl | rfl | rfl
  all_goals exact absurd hIn (by decide)

/-- Dates and identities have no path separators in them, so a file name is one component. -/
theorem noteRelativePath_component {localDate : String} {range : Option MemoryReportRange}
    (h : noteRelativePath localDate range baseRunId = .ok path) :
    ∀ c ∈ path.fileName.toList, c ∉ ['/', '\\', ':'] := by
  rcases noteRelativePath_cases h with
    ⟨-, ⟨date, hDate⟩, rfl⟩ | ⟨dates, first, last, base, -, hFirst, hLast, hCanonical, rfl⟩
  · exact (parseDate_unseparated hDate).append (unseparated_literal (by decide))
  · have hFrom := parseDate_unseparated hFirst
    have hTo := parseDate_unseparated hLast
    have hBase := canonicalUuid_unseparated hCanonical
    refine ((((hFrom.append ?_).append hTo).append ?_).append hBase).append ?_
    all_goals exact unseparated_literal (by decide)

/-! ## A note is accepted -/

/-- The metadata is read back, names the file the note is written to, and the index takes it. -/
def NoteAccepted (rfc3339 : Int → Option String) (fromStr : String → Except String Frontmatter)
    (run : ReportRun) (baseRunId : Option String) (note : String) : Prop :=
  ∃ result status metadata path, run.result = some result ∧ run.outcome = some status ∧
    noteMetadata rfc3339 run baseRunId result status = .ok metadata ∧
    noteRelativePath run.localDate run.requestedRange baseRunId = .ok path ∧
    parseFrontmatter fromStr note = .ok metadata ∧
    noteRelativePath (labelDate metadata path.fileName) metadata.requestedRange
      metadata.baseRunId = .ok path ∧
    ∀ (root : List String) (owned : ReportFileOwnership), owned.sourceId = run.sourceId →
      owned.runId = run.runId → ∃ entry,
        indexEntry fromStr root run.sourceId owned (root ++ [path.folder, path.fileName])
          (some note) = .ok (some entry)

/-- Whatever is in a report, its note is accepted where it is written. -/
theorem dailyNote_accepted (hNote : dailyNote rfc3339 run baseRunId = .ok note)
    (hFromStr : ∀ result status metadata, run.result = some result → run.outcome = some status →
      noteMetadata rfc3339 run baseRunId result status = .ok metadata →
        fromStr (toStringPretty metadata) = .ok metadata) :
    NoteAccepted rfc3339 fromStr run baseRunId note := by
  obtain ⟨path, result, status, metadata, hPath, hResult, hStatus, hMetadata, rfl⟩ :=
    dailyNote_cases hNote
  obtain ⟨hRange, hBase, hRunId, hSourceId⟩ := noteMetadata_identity hMetadata
  have hParsed := (parseFrontmatter_fenced metadata (noteBody run result status)).trans
    (hFromStr result status metadata hResult hStatus hMetadata)
  have hAgain := noteRelativePath_relabelled hPath hRange
  refine ⟨result, status, metadata, path, hResult, hStatus, hMetadata, hPath, hParsed, ?_, ?_⟩
  · rw [hRange, hBase]
    exact hAgain
  · intro root owned hSource hRun
    have hFolder : path.folder = "Daily" ∨ path.folder = "Reports" := by
      rcases noteRelativePath_cases hPath with ⟨-, -, rfl⟩ | ⟨-, -, -, -, -, -, -, -, rfl⟩
      · exact Or.inl rfl
      · exact Or.inr rfl
    have hParent : (root ++ [path.folder, path.fileName]).dropLast = root ++ [path.folder] := by
      rw [List.dropLast_append_of_ne_nil (by simp)]
      rfl
    have hLast : (root ++ [path.folder, path.fileName]).getLast? = some path.fileName := by
      rw [List.getLast?_append]
      rfl
    have hBelow : ¬((root ++ [path.folder, path.fileName]).dropLast ∉
        [root ++ ["Daily"], root ++ ["Reports"]] ∨ owned.sourceId ≠ run.sourceId) := by
      rw [hParent, not_or, not_not, not_not]
      refine ⟨?_, hSource⟩
      rcases hFolder with hFolder | hFolder
      · rw [hFolder]
        exact List.mem_cons_self ..
      · rw [hFolder]
        exact List.mem_cons_of_mem _ (List.mem_cons_self ..)
    unfold indexEntry
    rw [if_neg hBelow, hLast]
    dsimp only
    rw [hParsed]
    dsimp only
    rw [if_neg (by rw [hSourceId, hRunId, hSource, hRun]; simp), hRange, hBase, hAgain]
    dsimp only
    rw [if_neg (not_not.mpr rfl)]
    exact ⟨_, rfl⟩

/-- A day without data, with a fence in the report. -/
def quietRun : ReportRun where
  requestedRange := none
  runId := "run"
  sourceId := "source"
  scheduleId := none
  revisionOf := none
  windowStart := 0
  windowEnd := 86400000
  timezone := "UTC"
  localDate := "1970-01-01"
  phase := .finished
  outcome := some .noData
  error := none
  result := some
    { markdown := "---\nnothing\n---\n", model := none, frameIds := [], sessionIds := []
      citedFrameIds := [], framesSampled := 0, framesSummarized := 0, periodsTotal := 24
      periodsCovered := 0, passes := 0, truncated := false }
  configSnapshot :=
    { enabled := true, localTime := none, timezone := none, outputFolder := none
      telegramEnabled := false, telegramChatId := none }
  createdAt := 20
  updatedAt := 30

def quietMetadata : Frontmatter where
  requestedRange := none
  baseRunId := none
  schema := 1
  runId := "run"
  sourceId := "source"
  windowStart := "1970-01-01T00:00:00+00:00"
  windowEnd := "1970-01-02T00:00:00+00:00"
  timezone := "UTC"
  status := .noData
  model := none
  framesSampled := 0
  framesSummarized := 0
  periodsTotal := 24
  periodsCovered := 0
  truncated := false
  frameIds := []
  sessionIds := []

theorem dailyNote_accepted_quiet :
    NoteAccepted
      (fun ms => some (if ms = 0 then "1970-01-01T00:00:00+00:00" else "1970-01-02T00:00:00+00:00"))
      (fun text => if text = toStringPretty quietMetadata then .ok quietMetadata else .error "")
      quietRun none
      ("---\n" ++ toStringPretty quietMetadata ++ "\n---\n" ++
        "\n# 1970-01-01\n\n---\nnothing\n---\n" ++
        "\n\nEvidence IDs identify captured sources at generation time; " ++
        "later retention may remove them.\n") := by
  have hPath : noteRelativePath quietRun.localDate quietRun.requestedRange none =
      .ok { folder := "Daily", fileName := "1970-01-01.md" } := rfl
  have hBody : ∀ result, quietRun.result = some result → noteBody quietRun result .noData =
      "\n# 1970-01-01\n\n---\nnothing\n---\n" ++
        "\n\nEvidence IDs identify captured sources at generation time; " ++
        "later retention may remove them.\n" := by
    rintro result ⟨rfl⟩
    decide +kernel
  refine dailyNote_accepted ?_ ?_
  · unfold dailyNote
    rw [hPath]
    show Except.ok ("---\n" ++ toStringPretty quietMetadata ++ "\n---\n" ++
      noteBody quietRun _ .noData) = _
    rw [hBody _ rfl]
    simp only [String.append_assoc]
  · rintro result status metadata ⟨rfl⟩ ⟨rfl⟩ hMetadata
    have hQuiet : metadata = quietMetadata := (Except.ok.inj hMetadata).symm
    rw [hQuiet, if_pos rfl]

end ScreenSearch.Memory
