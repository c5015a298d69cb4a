import ScreenSearch.Api.History
import ScreenSearch.Store.ReportPages

/-!
# The saved-report list and its cursor

The list answers with a page of runs and, where more match, one opaque text for the next
page: version, window and the two times in fixed widths, the greatest run's id and the last
run's id with their lengths, then a byte for each filter. Ids are opaque and uncapped; only
the whole text is bounded.

Main results:

* `encodeReportCursor_iff` — a valid request has a cursor exactly when its two ids fit;
* `decodeReportCursor_written`, `decodeReportCursor_ok` — what is written is read again, and
  what is accepted is what would be written;
* `report_cursor_codec` — with them, that no accepted text extends another, and which
  continuations of the store have a cursor.
-/

namespace ScreenSearch.Api.Reports

open Store Bytes

/-- A report has no feed identity that could have changed. -/
def reportError : HistoryReadError → ApiError
  | .historyChanged => badQuery
  | other => historyError other

/-- `map_err(report_error)`. -/
def orReportError {α : Type} : Except HistoryReadError α → Except ApiError α
  | .ok a => .ok a
  | .error e => .error (reportError e)

/-! ## Cursors -/

def phaseTag : Option ReportRunPhase → UInt8
  | none => 0
  | some .queued => 1
  | some .running => 2
  | some .blocked => 3
  | some .finished => 4

def outcomeTag : Option ReportOutcome → UInt8
  | none => 0
  | some .ok => 1
  | some .partialCoverage => 2
  | some .noData => 3
  | some .blocked => 4
  | some .failed => 5

def phaseOfTag (tag : UInt8) : Except ApiError (Option ReportRunPhase) :=
  match tag.toNat with
  | 0 => .ok none
  | 1 => .ok (some .queued)
  | 2 => .ok (some .running)
  | 3 => .ok (some .blocked)
  | 4 => .ok (some .finished)
  | _ => .error badQuery

def outcomeOfTag (tag : UInt8) : Except ApiError (Option ReportOutcome) :=
  match tag.toNat with
  | 0 => .ok none
  | 1 => .ok (some .ok)
  | 2 => .ok (some .partialCoverage)
  | 3 => .ok (some .noData)
  | 4 => .ok (some .blocked)
  | 5 => .ok (some .failed)
  | _ => .error badQuery

def cursorVersion : UInt8 := 1

def reportCursorMaxBytes : Nat := 4096

/-- The length is a mechanical bound of the encoding, not a cap on ids. -/
def pushString (value : String) : Except ApiError (List UInt8) := do
  require (decide (value.utf8ByteSize ≤ u16Max))
  pure (toBe 2 value.utf8ByteSize ++ utf8 value)

def cursorNumbers (request : ReportPageRequest) (c : ReportContinuation) : List Int :=
  [request.window.from, request.window.to, c.snapshot.maxCreatedAt, c.after.createdAt]

def encodeReportCursor (base64 : Base64) (request : ReportPageRequest) :
    Except ApiError String := do
  orReportError request.validate
  let c ← orBadQuery request.continuation
  let maxRunId ← pushString c.snapshot.maxRunId
  let runId ← pushString c.after.runId
  let cursor := base64.encode (cursorVersion :: (cursorNumbers request c).flatMap i64ToBe
    ++ maxRunId ++ runId ++ [phaseTag request.filters.phase, outcomeTag request.filters.outcome])
  require (decide (cursor.utf8ByteSize ≤ reportCursorMaxBytes))
  pure cursor

def byte : CursorReader UInt8 := fun bytes => do
  let (value, rest) ← take 1 bytes
  pure (value.headD 0, rest)

/-- The length is checked against what is left before anything is read. -/
def string : CursorReader String := fun bytes => do
  let (length, rest) ← take 2 bytes
  let length := ofBe length
  require (decide (length ≤ rest.length))
  let (value, rest) ← take length rest
  let value ← orBadQuery (ofUtf8 value)
  pure (value, rest)

def readRequest (limit : Nat) : CursorReader ReportPageRequest := fun bytes => do
  let (version, rest) ← byte bytes
  require (decide (version = cursorVersion))
  let (start, rest) ← integer rest
  let (stop, rest) ← integer rest
  let (maxCreatedAt, rest) ← integer rest
  let (afterCreatedAt, rest) ← integer rest
  let (maxRunId, rest) ← string rest
  let (afterRunId, rest) ← string rest
  let (phase, rest) ← byte rest
  let phase ← phaseOfTag phase
  let (outcome, rest) ← byte rest
  let outcome ← outcomeOfTag outcome
  pure
    ({ window := ⟨start, stop⟩
       filters := ⟨phase, outcome⟩
       limit := limit
       continuation := some ⟨⟨maxCreatedAt, maxRunId⟩, ⟨afterCreatedAt, afterRunId⟩⟩ }, rest)

def decodeReportCursor (base64 : Base64) (cursor : String) (limit : Nat) :
    Except ApiError ReportPageRequest := do
  require (!cursor.isEmpty && decide (cursor.utf8ByteSize ≤ reportCursorMaxBytes))
  let bytes ← orBadQuery (base64.decode cursor)
  let (request, rest) ← readRequest limit bytes
  require rest.isEmpty
  orReportError request.validate
  pure request

/-! ## The endpoint -/

def parsePhase : Option String → Except ApiError (Option ReportRunPhase)
  | none => .ok none
  | some value =>
    if value = "queued" then .ok (some .queued)
    else if value = "running" then .ok (some .running)
    else if value = "blocked" then .ok (some .blocked)
    else if value = "finished" then .ok (some .finished)
    else .error badQuery

def parseOutcome : Option String → Except ApiError (Option ReportOutcome)
  | none => .ok none
  | some value =>
    if value = "OK" then .ok (some .ok)
    else if value = "PARTIAL" then .ok (some .partialCoverage)
    else if value = "NO_DATA" then .ok (some .noData)
    else if value = "BLOCKED" then .ok (some .blocked)
    else if value = "FAILED" then .ok (some .failed)
    else .error badQuery

def parseReportLimit (fields : Fields) : Except ApiError Nat :=
  match fieldOf fields "limit" with
  | none => .ok reportPageDefaultLimit
  | some value => do
    let n ← parseInteger value false
    require (decide (1 ≤ n ∧ n ≤ reportPageMaxLimit))
    pure n.toNat

def parseReportWindow (fields : Fields) : Except ApiError EvidenceWindow := do
  let start ← orBadQuery (fieldOf fields "from")
  let stop ← orBadQuery (fieldOf fields "to")
  let start ← parseInteger start true
  let stop ← parseInteger stop true
  orReportError (EvidenceWindow.validate ⟨start, stop⟩)
  pure ⟨start, stop⟩

/-- Beside a cursor only the limit may stand. -/
def parseReportPage (base64 : Base64) (raw : Option String) :
    Except ApiError ReportPageRequest := do
  let fields ← queryFields raw ["from", "to", "phase", "outcome", "limit", "cursor"]
  let limit ← parseReportLimit fields
  let fields := remove fields "limit"
  match fieldOf fields "cursor" with
  | some cursor => do
    require (remove fields "cursor").isEmpty
    decodeReportCursor base64 cursor limit
  | none => do
    let window ← parseReportWindow fields
    let phase ← parsePhase (fieldOf fields "phase")
    let outcome ← parseOutcome (fieldOf fields "outcome")
    pure { window := window, filters := ⟨phase, outcome⟩, limit := limit, continuation := none }

structure ReportPage where
  items : List ReportSummary
  nextCursor : Option String
  deriving DecidableEq, Repr

/-- The request that a page's next position stands for. -/
def nextRequest (page : StoredReportPage) (c : ReportContinuation) : ReportPageRequest where
  window := page.window
  filters := page.filters
  limit := reportPageDefaultLimit
  continuation := some c

/-- A position without a snapshot, or one that has no cursor, is a storage failure, never
the end of the list. -/
def nextCursor (base64 : Base64) (page : StoredReportPage) : Except ApiError (Option String) :=
  match page.snapshot, page.nextPosition with
  | _, none => .ok none
  | some snapshot, some after =>
    match encodeReportCursor base64 (nextRequest page ⟨snapshot, after⟩) with
    | .ok cursor => .ok (some cursor)
    | .error _ => .error .historyStorage
  | none, some _ => .error .historyStorage

def listReports (base64 : Base64)
    (host : ReportPageRequest → Except HistoryReadError StoredReportPage) (raw : Option String) :
    Except ApiError ReportPage := do
  let request ← parseReportPage base64 raw
  let page ← orReportError (host request)
  let cursor ← nextCursor base64 page
  pure { items := page.items, nextCursor := cursor }

/-! ## Readers undo what was written -/

@[simp] theorem orReportError_ok {α : Type} {x : Except HistoryReadError α} {a : α} :
    orReportError x = .ok a ↔ x = .ok a := by
  cases x <;> simp [orReportError]

theorem phaseOfTag_tag (phase : Option ReportRunPhase) :
    phaseOfTag (phaseTag phase) = .ok phase := by
  rcases phase with - | phase
  · rfl
  · cases phase <;> rfl

theorem outcomeOfTag_tag (outcome : Option ReportOutcome) :
    outcomeOfTag (outcomeTag outcome) = .ok outcome := by
  rcases outcome with - | outcome
  · rfl
  · cases outcome <;> rfl

theorem phaseOfTag_ok {tag : UInt8} {phase : Option ReportRunPhase}
    (h : phaseOfTag tag = .ok phase) : tag = phaseTag phase := by
  unfold phaseOfTag at h
  split at h <;> cases h
  all_goals
    next hTag => exact UInt8.toNat.inj hTag

theorem outcomeOfTag_ok {tag : UInt8} {outcome : Option ReportOutcome}
    (h : outcomeOfTag tag = .ok outcome) : tag = outcomeTag outcome := by
  unfold outcomeOfTag at h
  split at h <;> cases h
  all_goals
    next hTag => exact UInt8.toNat.inj hTag

theorem byte_append (value : UInt8) (rest : List UInt8) :
    byte (value :: rest) = .ok (value, rest) := by
  rw [byte, bind_ok]
  exact ⟨([value], rest), @take_append 1 [value] rfl rest, rfl⟩

theorem byte_ok {bytes rest : List UInt8} {value : UInt8} (h : byte bytes = .ok (value, rest)) :
    bytes = value :: rest := by
  simp only [byte, bind_ok] at h
  obtain ⟨⟨read, left⟩, hTake, h⟩ := h
  cases h
  obtain ⟨rfl, hLength⟩ := take_ok hTake
  obtain ⟨read, rfl⟩ := List.length_eq_one_iff.mp hLength
  rfl

theorem pushString_ok {value : String} {written : List UInt8} :
    pushString value = .ok written ↔
      value.utf8ByteSize ≤ u16Max ∧ toBe 2 value.utf8ByteSize ++ utf8 value = written := by
  simp only [pushString, bind_ok, require_ok, decide_eq_true_eq]
  constructor
  · rintro ⟨-, hSize, h⟩
    exact ⟨hSize, Except.ok.inj h⟩
  · rintro ⟨hSize, h⟩
    exact ⟨(), hSize, congrArg Except.ok h⟩

theorem string_append {value : String} {written : List UInt8}
    (h : pushString value = .ok written) (rest : List UInt8) :
    string (written ++ rest) = .ok (value, rest) := by
  obtain ⟨hSize, rfl⟩ := pushString_ok.mp h
  have hLength : ofBe (toBe 2 value.utf8ByteSize) = value.utf8ByteSize :=
    ofBe_toBe (hSize.trans_lt (by decide))
  unfold string
  rw [List.append_assoc, bind_ok]
  refine ⟨(_, utf8 value ++ rest), take_append (toBe_length 2 _) _, ?_⟩
  dsimp only
  rw [hLength]
  simp only [bind_ok, require_ok, decide_eq_true_eq, orBadQuery_ok]
  have hEnough : value.utf8ByteSize ≤ (utf8 value ++ rest).length := by
    rw [List.length_append, utf8_length]
    omega
  exact ⟨(), hEnough, _, take_append (utf8_length value) rest, value, ofUtf8_utf8 value, rfl⟩

theorem string_ok {bytes rest : List UInt8} {value : String}
    (h : string bytes = .ok (value, rest)) :
    ∃ written, pushString value = .ok written ∧ bytes = written ++ rest := by
  unfold string at h
  rw [bind_ok] at h
  obtain ⟨⟨length, left⟩, hTake, h⟩ := h
  obtain ⟨rfl, hLength⟩ := take_ok hTake
  simp only [bind_ok, require_ok, decide_eq_true_eq, orBadQuery_ok] at h
  obtain ⟨-, -, ⟨text, left'⟩, hTake', _, hDecoded, h⟩ := h
  cases h
  obtain ⟨rfl, hSize⟩ := take_ok hTake'
  have hBytes := utf8_ofUtf8 hDecoded
  have hCount : value.utf8ByteSize = ofBe length := by rw [← utf8_length, hBytes, hSize]
  have hSmall := ofBe_lt length
  rw [hLength] at hSmall
  refine ⟨toBe 2 value.utf8ByteSize ++ utf8 value, pushString_ok.mpr ⟨?_, rfl⟩, ?_⟩
  · rw [hCount]
    exact Nat.le_pred_of_lt hSmall
  · rw [hBytes, hCount, ← hLength, toBe_ofBe, List.append_assoc]

/-- The bytes of a request with this continuation, with its written ids. -/
def cursorBytes (request : ReportPageRequest) (c : ReportContinuation)
    (maxRunId runId : List UInt8) : List UInt8 :=
  cursorVersion :: (cursorNumbers request c).flatMap i64ToBe ++ maxRunId ++ runId
    ++ [phaseTag request.filters.phase, outcomeTag request.filters.outcome]

/-- The numbers of a request are `i64`s. -/
structure IsTyped (request : ReportPageRequest) (c : ReportContinuation) : Prop where
  numbers : ∀ n ∈ cursorNumbers request c, IsI64 n

theorem readRequest_append {request : ReportPageRequest} {c : ReportContinuation}
    {maxRunId runId : List UInt8} (hContinuation : request.continuation = some c)
    (hTyped : IsTyped request c) (hMax : pushString c.snapshot.maxRunId = .ok maxRunId)
    (hRun : pushString c.after.runId = .ok runId) (limit : Nat) (rest : List UInt8) :
    readRequest limit (cursorBytes request c maxRunId runId ++ rest) =
      .ok ({ request with limit := limit }, rest) := by
  obtain ⟨window, filters, oldLimit, continuation⟩ := request
  have hBytes : cursorBytes ⟨window, filters, oldLimit, continuation⟩ c maxRunId runId ++ rest =
      cursorVersion :: (i64ToBe window.from ++ (i64ToBe window.to ++
        (i64ToBe c.snapshot.maxCreatedAt ++ (i64ToBe c.after.createdAt ++
          (maxRunId ++ (runId ++ (phaseTag filters.phase :: outcomeTag filters.outcome ::
            rest))))))) := by
    simp [cursorBytes, cursorNumbers]
  have hNumbers := hTyped.numbers
  simp only [cursorNumbers, List.mem_cons, List.not_mem_nil, or_false, forall_eq_or_imp,
    forall_eq] at hNumbers
  obtain ⟨hFrom, hTo, hMaxAt, hAt⟩ := hNumbers
  rw [hBytes]
  simp only [readRequest, bind_ok, require_ok, decide_eq_true_eq]
  refine ⟨_, byte_append .., (), rfl, _, integer_append hFrom _, _, integer_append hTo _, _,
    integer_append hMaxAt _, _, integer_append hAt _, _, string_append hMax _, _,
    string_append hRun _, _, byte_append .., _, phaseOfTag_tag _, _, byte_append .., _,
    outcomeOfTag_tag _, ?_⟩
  dsimp only at hContinuation
  rw [hContinuation]
  rfl

theorem readRequest_ok {limit : Nat} {bytes rest : List UInt8} {request : ReportPageRequest}
    (h : readRequest limit bytes = .ok (request, rest)) :
    ∃ c maxRunId runId, request.continuation = some c ∧ request.limit = limit ∧
      IsTyped request c ∧ pushString c.snapshot.maxRunId = .ok maxRunId ∧
      pushString c.after.runId = .ok runId ∧
      bytes = cursorBytes request c maxRunId runId ++ rest := by
  simp only [readRequest, bind_ok, require_ok, decide_eq_true_eq] at h
  obtain ⟨⟨version, b0⟩, hVersion, -, hOne, ⟨start, b1⟩, hStart, ⟨stop, b2⟩, hStop,
    ⟨maxAt, b3⟩, hMaxAt, ⟨afterAt, b4⟩, hAfterAt, ⟨maxId, b5⟩, hMax, ⟨runId, b6⟩, hRun,
    ⟨phase, b7⟩, hPhase, _, hPhaseTag, ⟨outcome, b8⟩, hOutcome, _, hOutcomeTag, h⟩ := h
  cases h
  obtain ⟨maxWritten, hMaxWritten, hB4⟩ := string_ok hMax
  obtain ⟨runWritten, hRunWritten, hB5⟩ := string_ok hRun
  dsimp only at hOne hStart hStop hMaxAt hAfterAt hB4 hB5 hPhase hPhaseTag hOutcome hOutcomeTag
  obtain ⟨hB0, hStart⟩ := integer_ok hStart
  obtain ⟨hB1, hStop⟩ := integer_ok hStop
  obtain ⟨hB2, hMaxAt⟩ := integer_ok hMaxAt
  obtain ⟨hB3, hAfterAt⟩ := integer_ok hAfterAt
  refine ⟨_, maxWritten, runWritten, rfl, rfl, ⟨?_⟩, hMaxWritten, hRunWritten, ?_⟩
  · simp only [cursorNumbers, List.mem_cons, List.not_mem_nil, or_false, forall_eq_or_imp,
      forall_eq]
    exact ⟨hStart, hStop, hMaxAt, hAfterAt⟩
  · dsimp only
    rw [byte_ok hVersion, hOne, hB0, hB1, hB2, hB3, hB4, hB5, byte_ok hPhase, byte_ok hOutcome,
      phaseOfTag_ok hPhaseTag, outcomeOfTag_ok hOutcomeTag]
    simp [cursorBytes, cursorNumbers]

/-! ## What fits -/

/-- Three bytes take four letters: what a cursor leaves for its two ids. -/
def idsMaxBytes : Nat := reportCursorMaxBytes / 4 * 3 - (1 + 4 * 8 + 2 * 2 + 2)

def IdsFit (c : ReportContinuation) : Prop :=
  c.snapshot.maxRunId.utf8ByteSize + c.after.runId.utf8ByteSize ≤ idsMaxBytes

instance (c : ReportContinuation) : Decidable (IdsFit c) := inferInstanceAs (Decidable (_ ≤ _))

/-- The bytes of a text behind its length. -/
def lengthPrefixed (value : String) : List UInt8 := toBe 2 value.utf8ByteSize ++ utf8 value

/-- The text of a request with this continuation, however long it is. -/
def cursorText (base64 : Base64) (request : ReportPageRequest) (c : ReportContinuation) : String :=
  base64.encode (cursorBytes request c (lengthPrefixed c.snapshot.maxRunId)
    (lengthPrefixed c.after.runId))

theorem cursorBytes_length (request : ReportPageRequest) (c : ReportContinuation) :
    (cursorBytes request c (lengthPrefixed c.snapshot.maxRunId)
      (lengthPrefixed c.after.runId)).length =
        39 + (c.snapshot.maxRunId.utf8ByteSize + c.after.runId.utf8ByteSize) := by
  have hNumbers : ((cursorNumbers request c).flatMap i64ToBe).length = 4 * 8 := by
    simp [cursorNumbers, i64ToBe_length]
  simp only [cursorBytes, lengthPrefixed, List.length_append, List.length_cons, List.length_nil,
    hNumbers, toBe_length, utf8_length]
  omega

/-- The ids fit exactly when the text is not too long. -/
theorem cursorText_size {base64 : Base64} {request : ReportPageRequest} {c : ReportContinuation} :
    (cursorText base64 request c).utf8ByteSize ≤ reportCursorMaxBytes ↔ IdsFit c := by
  unfold cursorText IdsFit idsMaxBytes reportCursorMaxBytes
  rw [base64.encode_size, cursorBytes_length]
  omega

theorem IdsFit.pushString {c : ReportContinuation} (h : IdsFit c) :
    pushString c.snapshot.maxRunId = .ok (lengthPrefixed c.snapshot.maxRunId) ∧
      pushString c.after.runId = .ok (lengthPrefixed c.after.runId) := by
  unfold IdsFit at h
  have hSmall : idsMaxBytes ≤ u16Max := by decide
  exact ⟨pushString_ok.mpr ⟨by omega, rfl⟩, pushString_ok.mpr ⟨by omega, rfl⟩⟩

/-! ## There and back -/

variable {base64 : Base64} {request : ReportPageRequest} {c : ReportContinuation}
  {cursor : String} {limit : Nat}

theorem encodeReportCursor_ok : encodeReportCursor base64 request = .ok cursor ↔
    request.validate = .ok () ∧ ∃ c, request.continuation = some c ∧ IdsFit c ∧
      cursor = cursorText base64 request c := by
  simp only [encodeReportCursor, bind_ok, require_ok, decide_eq_true_eq, orBadQuery_ok,
    orReportError_ok]
  constructor
  · rintro ⟨_, hValid, c, hContinuation, maxRunId, hMax, runId, hRun, -, hSize, h⟩
    cases h
    obtain ⟨-, rfl⟩ := pushString_ok.mp hMax
    obtain ⟨-, rfl⟩ := pushString_ok.mp hRun
    exact ⟨hValid, c, hContinuation, cursorText_size.mp hSize, rfl⟩
  · rintro ⟨hValid, c, hContinuation, hFit, rfl⟩
    obtain ⟨hMax, hRun⟩ := hFit.pushString
    exact ⟨(), hValid, c, hContinuation, _, hMax, _, hRun, (), cursorText_size.mpr hFit, rfl⟩

/-- A valid request has a cursor exactly when its two ids fit. -/
theorem encodeReportCursor_iff (hValid : request.validate = .ok ())
    (hContinuation : request.continuation = some c) :
    (∃ cursor, encodeReportCursor base64 request = .ok cursor) ↔ IdsFit c := by
  constructor
  · rintro ⟨cursor, h⟩
    obtain ⟨-, c', hContinuation', hFit, -⟩ := encodeReportCursor_ok.mp h
    rw [hContinuation] at hContinuation'
    rwa [Option.some.inj hContinuation']
  · exact fun hFit => ⟨_, encodeReportCursor_ok.mpr ⟨hValid, c, hContinuation, hFit, rfl⟩⟩

/-- What is written is read again. -/
theorem decodeReportCursor_written (hValid : request.validate = .ok ())
    (hContinuation : request.continuation = some c) (hTyped : IsTyped request c)
    (hFit : IdsFit c) (hLimit : 1 ≤ limit ∧ limit ≤ reportPageMaxLimit) :
    decodeReportCursor base64 (cursorText base64 request c) limit =
      .ok { request with limit := limit } := by
  obtain ⟨hPlain, hC⟩ := ReportPageRequest.validate_ok.mp hValid
  have hEmpty : (cursorText base64 request c).isEmpty = false := by
    rw [String.isEmpty_eq_utf8ByteSize_beq_zero, cursorText, base64.encode_size,
      cursorBytes_length, beq_eq_false_iff_ne]
    omega
  obtain ⟨hMax, hRun⟩ := hFit.pushString
  have hRead := readRequest_append hContinuation hTyped hMax hRun limit []
  rw [List.append_nil] at hRead
  have hPlain' : ReportPageRequest.Plain request.window limit := ⟨hPlain.window, hLimit.1, hLimit.2⟩
  simp only [decodeReportCursor, bind_ok, require_ok, Bool.and_eq_true, decide_eq_true_eq,
    orBadQuery_ok, orReportError_ok, hEmpty]
  exact ⟨(), ⟨rfl, cursorText_size.mpr hFit⟩, _, base64.decode_encode _, _, hRead, (), rfl, (),
    ReportPageRequest.validate_ok.mpr ⟨hPlain', hC⟩, rfl⟩

/-- What is accepted is what would be written. -/
theorem decodeReportCursor_ok (h : decodeReportCursor base64 cursor limit = .ok request) :
    request.validate = .ok () ∧ request.limit = limit ∧ ∃ c, request.continuation = some c ∧
      IsTyped request c ∧ IdsFit c ∧ cursor = cursorText base64 request c := by
  simp only [decodeReportCursor, bind_ok, require_ok, Bool.and_eq_true, decide_eq_true_eq,
    orBadQuery_ok, orReportError_ok] at h
  obtain ⟨-, ⟨-, hSize⟩, bytes, hDecoded, ⟨decoded, rest⟩, hRead, -, hEnd, _, hValid, h⟩ := h
  cases h
  obtain ⟨c, maxRunId, runId, hContinuation, hLimit, hTyped, hMax, hRun, hBytes⟩ :=
    readRequest_ok hRead
  obtain ⟨-, rfl⟩ := pushString_ok.mp hMax
  obtain ⟨-, rfl⟩ := pushString_ok.mp hRun
  dsimp only at hEnd
  rw [List.isEmpty_iff.mp hEnd, List.append_nil] at hBytes
  have hText : cursor = cursorText base64 decoded c := by
    rw [← base64.encode_decode cursor bytes hDecoded, hBytes]
    rfl
  rw [hText] at hSize
  exact ⟨hValid, hLimit, c, hContinuation, hTyped, cursorText_size.mp hSize, hText⟩

/-- No accepted text has bytes that go on where another's end. -/
theorem decodeReportCursor_exact {bytes extra : List UInt8} {limit' : Nat}
    {request' : ReportPageRequest}
    (h : decodeReportCursor base64 (base64.encode bytes) limit = .ok request)
    (h' : decodeReportCursor base64 (base64.encode (bytes ++ extra)) limit' = .ok request') :
    extra = [] := by
  obtain ⟨-, -, c, hContinuation, hTyped, hFit, hText⟩ := decodeReportCursor_ok h
  obtain ⟨hMax, hRun⟩ := hFit.pushString
  have hBytes : bytes = cursorBytes request c (lengthPrefixed c.snapshot.maxRunId)
      (lengthPrefixed c.after.runId) := by
    have hDecoded := congrArg base64.decode hText
    rw [cursorText, base64.decode_encode, base64.decode_encode] at hDecoded
    exact Option.some.inj hDecoded
  have hRead := readRequest_append hContinuation hTyped hMax hRun limit' extra
  rw [← hBytes] at hRead
  simp only [decodeReportCursor, bind_ok, require_ok, orBadQuery_ok, base64.decode_encode] at h'
  obtain ⟨-, -, _, hSame, ⟨decoded, rest⟩, hRead', -, hEnd, -⟩ := h'
  rw [← Option.some.inj hSame, hRead] at hRead'
  obtain ⟨-, rfl⟩ := Prod.mk.inj (Except.ok.inj hRead')
  exact List.isEmpty_iff.mp hEnd

/-! ## Continuations of the store -/

variable {t : ReportTables} {page : StoredReportPage} {after : ReportPosition}

/-- What a page of the store says is next is a valid request. -/
theorem nextRequest_valid (h : ReportsGood t none) (hPage : reportPage request t = .ok page)
    (hNext : page.nextPosition = some after) :
    ∃ snapshot, page.snapshot = some snapshot ∧
      (nextRequest page ⟨snapshot, after⟩).validate = .ok () := by
  have hValid : request.validate = .ok () := by
    unfold reportPage at hPage
    rw [bind_ok] at hPage
    exact hPage.choose_spec.1
  obtain ⟨hPlain, hC⟩ := ReportPageRequest.validate_ok.mp hValid
  have hGood : ReportsGood t request.continuation := ⟨h.records, h.named, hC⟩
  obtain ⟨-, hIsPage⟩ := reportPage_isPage h.nodup hPage
  obtain ⟨snapshot, hSnapshot, hNextValid⟩ :=
    nextPosition_spec hGood hPlain.limit_pos hIsPage hNext
  have hWindow : page.window = request.window := by
    rw [reportPage, hValid] at hPage
    cases hPage
    rfl
  have hLimit : 1 ≤ reportPageDefaultLimit ∧ reportPageDefaultLimit ≤ reportPageMaxLimit := by
    decide
  refine ⟨snapshot, hSnapshot,
    ReportPageRequest.validate_ok.mpr ⟨⟨?_, hLimit.1, hLimit.2⟩, ?_⟩⟩
  · rw [nextRequest, hWindow]
    exact hPlain.window
  · intro c hc
    rwa [← Option.some.inj hc]

/-- The next position has a cursor exactly when its two ids fit; else it is an error. -/
theorem nextCursor_iff (h : ReportsGood t none) (hPage : reportPage request t = .ok page)
    (hNext : page.nextPosition = some after) :
    ∃ snapshot, page.snapshot = some snapshot ∧
      (IdsFit ⟨snapshot, after⟩ → ∃ cursor, nextCursor base64 page = .ok (some cursor) ∧
        cursor.utf8ByteSize ≤ reportCursorMaxBytes) ∧
      (¬ IdsFit ⟨snapshot, after⟩ → nextCursor base64 page = .error .historyStorage) := by
  obtain ⟨snapshot, hSnapshot, hValid⟩ := nextRequest_valid h hPage hNext
  refine ⟨snapshot, hSnapshot, fun hFit => ?_, fun hLong => ?_⟩
  · obtain ⟨cursor, hEncoded⟩ :
        ∃ cursor, encodeReportCursor base64 (nextRequest page ⟨snapshot, after⟩) = .ok cursor :=
      (encodeReportCursor_iff hValid rfl).mpr hFit
    refine ⟨cursor, ?_, ?_⟩
    · rw [nextCursor, hSnapshot, hNext]
      dsimp only
      rw [hEncoded]
    · obtain ⟨-, c, -, hFit', rfl⟩ := encodeReportCursor_ok.mp hEncoded
      exact cursorText_size.mpr hFit'
  · rw [nextCursor, hSnapshot, hNext]
    dsimp only
    rcases hEncoded : encodeReportCursor base64 (nextRequest page ⟨snapshot, after⟩) with e | cursor
    · rfl
    · exact absurd ((encodeReportCursor_iff hValid rfl).mp ⟨cursor, hEncoded⟩) hLong

/-- The list is the host's page, with the cursor of what is next. -/
theorem listReports_page (host : ReportPageRequest → Except HistoryReadError StoredReportPage)
    {raw : Option String} (hParse : parseReportPage base64 raw = .ok request)
    (hPage : host request = .ok page) :
    listReports base64 host raw = (nextCursor base64 page).map (ReportPage.mk page.items) := by
  unfold listReports
  rw [hParse]
  dsimp only [bind, Except.bind]
  rw [hPage]
  rfl

/-- The ids of a continuation are stored, or the snapshot's is the request's. -/
theorem nextPosition_stored (h : (t.runs.map RunRow.runId).Nodup)
    (hPage : reportPage request t = .ok page) (hNext : page.nextPosition = some after) :
    (∃ row ∈ t.runs, row.runId = after.runId) ∧ ∀ snapshot ∈ page.snapshot,
      (∃ row ∈ t.runs, row.runId = snapshot.maxRunId) ∨
        ∃ c ∈ request.continuation, c.snapshot = snapshot := by
  unfold reportPage at hPage
  rw [bind_ok] at hPage
  obtain ⟨-, -, hPage⟩ := hPage
  cases hPage
  dsimp only at hNext
  split at hNext
  · obtain ⟨item, hItem, rfl⟩ := Option.map_eq_some_iff.mp hNext
    obtain ⟨row, hRow, rfl⟩ := List.mem_map.mp (List.mem_of_mem_take (List.mem_of_getLast? hItem))
    rw [reportRows_eq h] at hRow
    have hStored := List.mem_of_mem_filter (List.mem_of_mem_filter
      ((Sorting.mem_sortByKey rowKey).mp (List.mem_of_mem_take hRow)))
    refine ⟨⟨row, hStored, rfl⟩, fun snapshot hSnapshot => ?_⟩
    change reportSnapshot request.continuation t = some snapshot at hSnapshot
    unfold reportSnapshot at hSnapshot
    split at hSnapshot
    · next c hc => exact Or.inr ⟨c, hc, Option.some.inj hSnapshot⟩
    · obtain ⟨last, hLast, hMax, -⟩ := maxTuple_spec hStored
      rw [hMax] at hSnapshot
      exact Or.inl ⟨last, hLast, congrArg ReportSnapshot.maxRunId (Option.some.inj hSnapshot)⟩
  · cases hNext

/-! ## The codec -/

/-- The store that operations leave. -/
def storeAfter (ops : List ReportOp) : ReportTables := ops.foldl ReportOp.apply ReportTables.empty

/-- The text of a UUID. -/
def uuidBytes : Nat := 36

/-- Every id that is stored, and the one the request has frozen, is that of a UUID. -/
structure UuidsOnly (t : ReportTables) (request : ReportPageRequest) : Prop where
  stored : ∀ row ∈ t.runs, row.runId.utf8ByteSize ≤ uuidBytes
  frozen : ∀ c ∈ request.continuation, c.snapshot.maxRunId.utf8ByteSize ≤ uuidBytes

theorem UuidsOnly.fit (h : UuidsOnly t request) (hNodup : (t.runs.map RunRow.runId).Nodup)
    (hPage : reportPage request t = .ok page) (hNext : page.nextPosition = some after)
    {snapshot : ReportSnapshot} (hSnapshot : page.snapshot = some snapshot) :
    IdsFit ⟨snapshot, after⟩ := by
  obtain ⟨⟨row, hRow, hAfter⟩, hFrozen⟩ := nextPosition_stored hNodup hPage hNext
  have hRun := h.stored row hRow
  have hMax : snapshot.maxRunId.utf8ByteSize ≤ uuidBytes := by
    rcases hFrozen snapshot hSnapshot with ⟨last, hLast, hId⟩ | ⟨c, hc, rfl⟩
    · exact hId ▸ h.stored last hLast
    · exact h.frozen c hc
  rw [hAfter] at hRun
  show _ + _ ≤ _
  have hRoom : uuidBytes + uuidBytes ≤ idsMaxBytes := by decide
  dsimp only
  omega

/-- **The report cursor codec.** A valid request has a cursor exactly when its two ids fit,
and it is read back with the caller's limit; what is accepted is the text that would be
written, and is checked like a fresh request; nothing that goes on where an accepted text
ends is accepted, or the other way round; and what a page of the store says is next has a
cursor when its ids fit, as those of UUIDs do, and is a storage failure when they do not. -/
theorem report_cursor_codec (base64 : Base64) :
    (∀ (request : ReportPageRequest) (c : ReportContinuation),
      request.validate = .ok () → request.continuation = some c →
      ((∃ cursor, encodeReportCursor base64 request = .ok cursor) ↔ IdsFit c) ∧
      ∀ cursor, encodeReportCursor base64 request = .ok cursor → IsTyped request c →
        decodeReportCursor base64 cursor request.limit = .ok request) ∧
    (∀ (cursor : String) (limit : Nat) (request : ReportPageRequest),
      decodeReportCursor base64 cursor limit = .ok request →
      encodeReportCursor base64 request = .ok cursor ∧ request.validate = .ok () ∧
        request.limit = limit ∧ ∃ c, request.continuation = some c ∧ IsTyped request c) ∧
    (∀ (bytes extra : List UInt8) (limit limit' : Nat) (request request' : ReportPageRequest),
      decodeReportCursor base64 (base64.encode bytes) limit = .ok request →
      decodeReportCursor base64 (base64.encode (bytes ++ extra)) limit' = .ok request' →
      extra = []) ∧
    (∀ (ops : List ReportOp) (request : ReportPageRequest) (page : StoredReportPage)
      (after : ReportPosition), reportPage request (storeAfter ops) = .ok page →
      page.nextPosition = some after → ∃ snapshot, page.snapshot = some snapshot ∧
        (IdsFit ⟨snapshot, after⟩ → ∃ cursor, nextCursor base64 page = .ok (some cursor) ∧
          cursor.utf8ByteSize ≤ reportCursorMaxBytes) ∧
        (¬ IdsFit ⟨snapshot, after⟩ → nextCursor base64 page = .error .historyStorage) ∧
        (UuidsOnly (storeAfter ops) request → IdsFit ⟨snapshot, after⟩)) := by
  refine ⟨fun request c hValid hContinuation => ⟨encodeReportCursor_iff hValid hContinuation, ?_⟩,
    ?_, fun _ _ _ _ _ _ => decodeReportCursor_exact, ?_⟩
  · intro cursor hEncoded hTyped
    obtain ⟨-, c', hContinuation', hFit, rfl⟩ := encodeReportCursor_ok.mp hEncoded
    rw [hContinuation] at hContinuation'
    obtain rfl := Option.some.inj hContinuation'
    obtain ⟨hPlain, -⟩ := ReportPageRequest.validate_ok.mp hValid
    exact decodeReportCursor_written hValid hContinuation hTyped hFit
      ⟨hPlain.limit_pos, hPlain.limit_le⟩
  · intro cursor limit request h
    obtain ⟨hValid, hLimit, c, hContinuation, hTyped, hFit, hText⟩ := decodeReportCursor_ok h
    exact ⟨encodeReportCursor_ok.mpr ⟨hValid, c, hContinuation, hFit, hText⟩, hValid, hLimit, c,
      hContinuation, hTyped⟩
  · intro ops request page after hPage hNext
    have hGood := reportOps_good ops
    obtain ⟨snapshot, hSnapshot, hFits, hLong⟩ := nextCursor_iff hGood hPage hNext
    exact ⟨snapshot, hSnapshot, hFits, hLong,
      fun hUuids => hUuids.fit hGood.nodup hPage hNext hSnapshot⟩

/-- The request for the page behind a run. -/
def behindRun : ReportPageRequest where
  window := ⟨0, 100⟩
  filters := ⟨some .finished, none⟩
  limit := 1
  continuation := some ⟨⟨20, "b"⟩, ⟨10, "a"⟩⟩

theorem report_cursor_codec_behindRun :
    ∃ cursor, encodeReportCursor Base64.urlSafeNoPad behindRun = .ok cursor ∧
      decodeReportCursor Base64.urlSafeNoPad cursor 1 = .ok behindRun := by
  obtain ⟨hIff, hRead⟩ :=
    (report_cursor_codec Base64.urlSafeNoPad).1 behindRun _ (by decide +kernel) rfl
  obtain ⟨cursor, hEncoded⟩ := hIff.mpr (by decide +kernel)
  exact ⟨cursor, hEncoded, hRead cursor hEncoded ⟨by simp [cursorNumbers, behindRun, IsI64]⟩⟩


/-- The store takes an id of any length. -/
def longId : String := String.ofList (List.replicate 800 'é')

def longIdStore : ReportTables :=
  storeAfter [.write (.createRun (manualRun "a" 1)), .write (.createRun (manualRun longId 2))]

def firstOfTwo : ReportPageRequest := ⟨⟨0, 10⟩, ⟨none, none⟩, 1, none⟩

/-- The store says what is next, and the list fails. -/
theorem long_id_ends_list :
    (reportPage firstOfTwo longIdStore).map StoredReportPage.nextPosition =
      .ok (some ⟨2, longId⟩) ∧
    listReports Base64.urlSafeNoPad (fun request => reportPage request longIdStore)
      (some "from=0&to=10&limit=1") = .error .historyStorage := by
  have hNext : (reportPage firstOfTwo longIdStore).map StoredReportPage.nextPosition =
      .ok (some ⟨2, longId⟩) := by decide +kernel
  have hSnapshot : (reportPage firstOfTwo longIdStore).map StoredReportPage.snapshot =
      .ok (some ⟨2, longId⟩) := by decide +kernel
  refine ⟨hNext, ?_⟩
  have hParse : parseReportPage Base64.urlSafeNoPad (some "from=0&to=10&limit=1") =
      .ok firstOfTwo := by decide +kernel
  rcases hPage : reportPage firstOfTwo longIdStore with e | page
  · rw [hPage] at hNext
    cases hNext
  rw [hPage] at hNext hSnapshot
  obtain ⟨snapshot, hSome, -, hLong⟩ :=
    nextCursor_iff (reportOps_good _) hPage (Except.ok.inj hNext)
  obtain rfl := Option.some.inj (hSome.symm.trans (Except.ok.inj hSnapshot))
  have hFails : nextCursor Base64.urlSafeNoPad page = .error .historyStorage :=
    hLong (by decide +kernel)
  exact (listReports_page (fun request => reportPage request longIdStore) hParse hPage).trans
    (by rw [hFails]; rfl)

end ScreenSearch.Api.Reports
