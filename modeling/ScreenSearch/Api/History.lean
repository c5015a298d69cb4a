import ScreenSearch.Lib.Base64
import ScreenSearch.Lib.Bytes
import ScreenSearch.Store.FramePages
import ScreenSearch.Store.Memory

/-!
# The frames endpoint and its cursor

A query is parsed strictly, and what is next is handed out as one opaque text: version,
history, window, snapshot and position in fixed widths, then the two filters.

Main results:

* `decodeCursor_written`, `decodeCursor_ok` — what is written is read again, and what is
  accepted is what would be written;
* `cursor_codec` — with it, that a cursor is checked like a fresh request and that what a
  page says is next always has one.
-/

namespace ScreenSearch.Api

open Store Bytes

inductive ApiError where
  | badRequest (message : String)
  | historyChanged
  | historyStorage
  | unavailable (message : String)
  deriving DecidableEq, Repr

/-- Never echoes what was sent. -/
def badQuery : ApiError := .badRequest "invalid history query or cursor"

def historyError : HistoryReadError → ApiError
  | .invalidRequest => badQuery
  | .historyChanged => .historyChanged
  | .unavailable _ => .unavailable "history feed unavailable"
  | .storage _ => .historyStorage

/-- `map_err(history_error)`. -/
def orHistoryError {α : Type} : Except HistoryReadError α → Except ApiError α
  | .ok a => .ok a
  | .error e => .error (historyError e)

/-- `ok_or_else(bad_query)`. -/
def orBadQuery {α : Type} : Option α → Except ApiError α
  | some a => .ok a
  | none => .error badQuery

def require (condition : Bool) : Except ApiError Unit :=
  if condition then .ok () else .error badQuery

/-! ## Queries -/

def hexValue (byte : UInt8) : Option Nat :=
  if 48 ≤ byte ∧ byte ≤ 57 then some (byte.toNat - 48)
  else if 97 ≤ byte ∧ byte ≤ 102 then some (byte.toNat - 87)
  else if 65 ≤ byte ∧ byte ≤ 70 then some (byte.toNat - 55)
  else none

/-- `+` is a blank, `%` begins two hex digits, and everything else is itself. -/
def decodeBytes : List UInt8 → Except ApiError (List UInt8)
  | [] => .ok []
  | byte :: rest =>
    if byte = 43 then (decodeBytes rest).map (32 :: ·)
    else if byte = 37 then
      match rest with
      | hi :: lo :: rest => do
        let hi ← orBadQuery (hexValue hi)
        let lo ← orBadQuery (hexValue lo)
        let rest ← decodeBytes rest
        pure (UInt8.ofNat (hi * 16 + lo) :: rest)
      | _ => .error badQuery
    else (decodeBytes rest).map (byte :: ·)

def decodeComponent (input : String) : Except ApiError String := do
  let bytes ← decodeBytes (utf8 input)
  orBadQuery (ofUtf8 bytes)

abbrev Fields := List (String × String)

def queryField (allowed : List String) (fields : Fields) (pair : String) :
    Except ApiError Fields := do
  let (key, value) ← orBadQuery (Text.splitOnce "=" pair)
  let key ← decodeComponent key
  require (allowed.contains key)
  let value ← decodeComponent value
  require (!fields.any fun field => field.1 == key)
  pure (fields ++ [(key, value)])

def queryFields (raw : Option String) (allowed : List String) : Except ApiError Fields :=
  ((((raw.getD "").toList.splitOn '&').filter fun pair => !pair.isEmpty).map String.ofList).foldlM
    (queryField allowed) []

def fieldOf (fields : Fields) (key : String) : Option String :=
  (fields.find? fun field => field.1 == key).map Prod.snd

def remove (fields : Fields) (key : String) : Fields := fields.filter fun field => field.1 != key

def parseInteger (value : String) (signed : Bool) : Except ApiError Int := do
  let digits := if signed then (Text.stripPrefix "-" value).getD value else value
  require (!digits.isEmpty && digits.toList.all Char.isDigit)
  let magnitude : Int := Nat.ofDigitChars 10 digits.toList 0
  let n := if digits = value then magnitude else -magnitude
  require (decide (-2 ^ 63 ≤ n ∧ n < 2 ^ 63))
  pure n

def parseWindow (fields : Fields) : Except ApiError EvidenceWindow := do
  let start ← orBadQuery (fieldOf fields "from")
  let start ← parseInteger start true
  let stop ← orBadQuery (fieldOf fields "to")
  let stop ← parseInteger stop true
  orHistoryError (EvidenceWindow.validate ⟨start, stop⟩)
  pure ⟨start, stop⟩

def parseLimit (fields : Fields) : Except ApiError Nat :=
  match fieldOf fields "limit" with
  | none => .ok framePageDefaultLimit
  | some value => do
    let n ← parseInteger value false
    require (decide (1 ≤ n ∧ n ≤ framePageMaxLimit))
    pure n.toNat

/-- Never trimmed, and folded in ASCII only. -/
def normalize (filters : FrameFilters) : FrameFilters where
  app := filters.app.map Text.toAsciiLowercase
  windowTitle := filters.windowTitle.map Text.toAsciiLowercase

/-! ## Cursors -/

def cursorVersion : UInt8 := 1

def frameCursorMaxBytes : Nat := 4096

def cursorBinaryMax : Nat := 1 + 36 + 5 * 8 + 2 * (2 + frameFilterMaxBytes)

def u16Max : Nat := 2 ^ 16 - 1

/-- A length of `u16::MAX` stands for no filter. -/
def encodeFilter : Option String → Except ApiError (List UInt8)
  | none => .ok (toBe 2 u16Max)
  | some value => do
    require (decide (value = Text.toAsciiLowercase value))
    pure (toBe 2 value.utf8ByteSize ++ utf8 value)

def cursorNumbers (request : FramePageRequest) (c : FrameContinuation) : List Int :=
  [request.window.from, request.window.to, c.snapshot.snapshotMaxFrameId, c.after.capturedAt,
    c.after.frameId]

def encodeCursor (base64 : Base64) (request : FramePageRequest) : Except ApiError String := do
  orHistoryError request.validate
  let c ← orBadQuery request.continuation
  let app ← encodeFilter request.filters.app
  let windowTitle ← encodeFilter request.filters.windowTitle
  let cursor := base64.encode (cursorVersion :: utf8 c.snapshot.historyId
    ++ (cursorNumbers request c).flatMap i64ToBe ++ app ++ windowTitle)
  require (decide (cursor.utf8ByteSize ≤ frameCursorMaxBytes))
  pure cursor

/-- A reader takes something off the bytes that are left. -/
abbrev CursorReader (α : Type) := List UInt8 → Except ApiError (α × List UInt8)

def take (n : Nat) : CursorReader (List UInt8) := fun bytes =>
  if bytes.length < n then .error badQuery else .ok (bytes.take n, bytes.drop n)

def integer : CursorReader Int := fun bytes => do
  let (value, rest) ← take 8 bytes
  pure (i64OfBe value, rest)

def filter : CursorReader (Option String) := fun bytes => do
  let (length, rest) ← take 2 bytes
  let length := ofBe length
  if length = u16Max then pure (none, rest)
  else do
    require (decide (length ≤ frameFilterMaxBytes))
    let (value, rest) ← take length rest
    let value ← orBadQuery (ofUtf8 value)
    require (decide (value = Text.toAsciiLowercase value))
    pure (some value, rest)

def historyId : CursorReader String := fun bytes => do
  let (version, rest) ← take 1 bytes
  require (decide (version = [cursorVersion]))
  let (value, rest) ← take 36 rest
  let value ← orBadQuery (ofUtf8 value)
  pure (value, rest)

def readRequest (limit : Nat) : CursorReader FramePageRequest := fun bytes => do
  let (historyId, rest) ← historyId bytes
  let (start, rest) ← integer rest
  let (stop, rest) ← integer rest
  let (snapshotMaxFrameId, rest) ← integer rest
  let (capturedAt, rest) ← integer rest
  let (frameId, rest) ← integer rest
  let (app, rest) ← filter rest
  let (windowTitle, rest) ← filter rest
  pure
    ({ window := ⟨start, stop⟩
       filters := ⟨app, windowTitle⟩
       limit := limit
       continuation := some ⟨⟨historyId, snapshotMaxFrameId⟩, ⟨capturedAt, frameId⟩⟩ }, rest)

def decodeCursor (base64 : Base64) (cursor : String) (limit : Nat) :
    Except ApiError FramePageRequest := do
  require (!cursor.isEmpty && decide (cursor.utf8ByteSize ≤ frameCursorMaxBytes))
  let bytes ← orBadQuery (base64.decode cursor)
  require (decide (bytes.length ≤ cursorBinaryMax))
  let (request, rest) ← readRequest limit bytes
  require rest.isEmpty
  orHistoryError request.validate
  pure request

/-! ## The endpoint -/

def parseFrames (base64 : Base64) (raw : Option String) : Except ApiError FramePageRequest := do
  let fields ← queryFields raw ["from", "to", "app", "window_title", "limit", "cursor"]
  let limit ← parseLimit fields
  let fields := remove fields "limit"
  match fieldOf fields "cursor" with
  | some cursor => do
    require (remove fields "cursor").isEmpty
    decodeCursor base64 cursor limit
  | none => do
    let window ← parseWindow fields
    let filters : FrameFilters := ⟨fieldOf fields "app", fieldOf fields "window_title"⟩
    orHistoryError filters.validate
    pure { window := window, filters := normalize filters, limit := limit, continuation := none }

structure FramePage where
  items : List FrameEvidence
  nextCursor : Option String
  historyId : String
  window : EvidenceWindow
  snapshotMaxFrameId : Int
  observedAt : Int
  deriving DecidableEq, Repr

/-- The request that a page's next position stands for. -/
def nextRequest (page : StoredFramePage) (after : FramePosition) : FramePageRequest where
  window := page.window
  filters := page.filters
  limit := framePageDefaultLimit
  continuation := some { snapshot := page.snapshot, after := after }

def nextCursor (base64 : Base64) (page : StoredFramePage) : Except ApiError (Option String) :=
  match page.nextPosition with
  | none => .ok none
  | some after =>
    match encodeCursor base64 (nextRequest page after) with
    | .ok cursor => .ok (some cursor)
    | .error _ => .error .historyStorage

def frames (base64 : Base64) (clock : Except HistoryReadError Int) (raw : Option String)
    (db : FrameTables) : Except ApiError FramePage := do
  let request ← parseFrames base64 raw
  let page ← orHistoryError (framePage clock request db)
  let cursor ← nextCursor base64 page
  pure
    { items := page.items
      nextCursor := cursor
      historyId := page.snapshot.historyId
      window := page.window
      snapshotMaxFrameId := page.snapshot.snapshotMaxFrameId
      observedAt := page.observedAt }

/-! ## Readers undo what was written -/

@[simp] theorem require_ok {condition : Bool} {u : Unit} :
    require condition = .ok u ↔ condition = true := by
  cases condition <;> simp [require]

@[simp] theorem orBadQuery_ok {α : Type} {x : Option α} {a : α} :
    orBadQuery x = .ok a ↔ x = some a := by
  cases x <;> simp [orBadQuery]

@[simp] theorem orHistoryError_ok {α : Type} {x : Except HistoryReadError α} {a : α} :
    orHistoryError x = .ok a ↔ x = .ok a := by
  cases x <;> simp [orHistoryError]

theorem take_append {n : Nat} {value : List UInt8} (h : value.length = n) (rest : List UInt8) :
    take n (value ++ rest) = .ok (value, rest) := by
  unfold take
  rw [if_neg (by rw [List.length_append]; omega), List.take_left' h, List.drop_left' h]

theorem take_ok {n : Nat} {bytes value rest : List UInt8} (h : take n bytes = .ok (value, rest)) :
    bytes = value ++ rest ∧ value.length = n := by
  unfold take at h
  split at h
  · cases h
  · next hLong =>
    cases h
    exact ⟨(List.take_append_drop n bytes).symm, List.length_take_of_le (not_lt.mp hLong)⟩

theorem integer_append {value : Int} (h : IsI64 value) (rest : List UInt8) :
    integer (i64ToBe value ++ rest) = .ok (value, rest) := by
  unfold integer
  rw [take_append (i64ToBe_length value)]
  show Except.ok (i64OfBe (i64ToBe value), rest) = _
  rw [i64OfBe_toBe h]

theorem integer_ok {bytes rest : List UInt8} {value : Int} (h : integer bytes = .ok (value, rest)) :
    bytes = i64ToBe value ++ rest ∧ IsI64 value := by
  simp only [integer, bind_ok] at h
  obtain ⟨⟨read, left⟩, hTake, h⟩ := h
  cases h
  obtain ⟨rfl, hLength⟩ := take_ok hTake
  exact ⟨by rw [i64ToBe_ofBe hLength], isI64_i64OfBe hLength⟩

/-- A filter that was checked for its length. -/
def FilterFits (value : Option String) : Prop :=
  ∀ text ∈ value, text.utf8ByteSize ≤ frameFilterMaxBytes

theorem filter_append {value : Option String} {written : List UInt8} (hFits : FilterFits value)
    (hWritten : encodeFilter value = .ok written) (rest : List UInt8) :
    filter (written ++ rest) = .ok (value, rest) := by
  unfold filter
  rcases value with - | text
  · cases hWritten
    rw [bind_ok]
    refine ⟨(_, rest), take_append (toBe_length 2 u16Max) rest, ?_⟩
    dsimp only
    rw [ofBe_toBe (by decide), if_pos rfl]
    rfl
  · have hSize := hFits text rfl
    have hSmall : text.utf8ByteSize < u16Max := hSize.trans_lt (by decide)
    simp only [encodeFilter, bind_ok, require_ok, decide_eq_true_eq] at hWritten
    obtain ⟨-, hLower, hWritten⟩ := hWritten
    cases hWritten
    have hLength : ofBe (toBe 2 text.utf8ByteSize) = text.utf8ByteSize :=
      ofBe_toBe (hSmall.trans (by decide))
    rw [List.append_assoc, bind_ok]
    refine ⟨(_, utf8 text ++ rest), take_append (toBe_length 2 _) _, ?_⟩
    dsimp only
    rw [hLength, if_neg hSmall.ne]
    simp only [bind_ok, require_ok, decide_eq_true_eq, orBadQuery_ok]
    have hTake := take_append (utf8_length text) rest
    refine ⟨(), hSize, (utf8 text, rest), hTake, text, ofUtf8_utf8 text, (), hLower, ?_⟩
    rfl

theorem filter_ok {bytes rest : List UInt8} {value : Option String}
    (h : filter bytes = .ok (value, rest)) :
    ∃ written, encodeFilter value = .ok written ∧ bytes = written ++ rest := by
  unfold filter at h
  rw [bind_ok] at h
  obtain ⟨⟨length, left⟩, hTake, h⟩ := h
  obtain ⟨rfl, hLength⟩ := take_ok hTake
  dsimp only at h
  split at h
  · next hNone =>
    cases h
    refine ⟨_, rfl, ?_⟩
    rw [← hNone, ← hLength, toBe_ofBe]
  · simp only [bind_ok, require_ok, decide_eq_true_eq, orBadQuery_ok] at h
    obtain ⟨-, hFits, ⟨text, left'⟩, hTake', decoded, hDecoded, -, hLower, h⟩ := h
    cases h
    obtain ⟨rfl, hSize⟩ := take_ok hTake'
    have hBytes := utf8_ofUtf8 hDecoded
    have hCount : decoded.utf8ByteSize = ofBe length := by
      rw [← utf8_length, hBytes, hSize]
    refine ⟨toBe 2 decoded.utf8ByteSize ++ utf8 decoded, ?_, ?_⟩
    · simp only [encodeFilter, bind_ok, require_ok, decide_eq_true_eq]
      exact ⟨(), hLower, rfl⟩
    · rw [hBytes, hCount, ← hLength, toBe_ofBe, List.append_assoc]

theorem historyId_append {id : String} (h : (utf8 id).length = 36) (rest : List UInt8) :
    historyId (cursorVersion :: utf8 id ++ rest) = .ok (id, rest) := by
  have hVersion : take 1 ([cursorVersion] ++ (utf8 id ++ rest)) =
      .ok ([cursorVersion], utf8 id ++ rest) := take_append rfl _
  simp only [historyId, bind_ok, require_ok, decide_eq_true_eq, orBadQuery_ok]
  exact ⟨_, hVersion, (), rfl, _, take_append h rest, id, ofUtf8_utf8 id, rfl⟩

theorem historyId_ok {bytes rest : List UInt8} {id : String}
    (h : historyId bytes = .ok (id, rest)) : bytes = cursorVersion :: utf8 id ++ rest := by
  simp only [historyId, bind_ok, require_ok, decide_eq_true_eq, orBadQuery_ok] at h
  obtain ⟨⟨version, left⟩, hVersion, -, hOne, ⟨value, left'⟩, hValue, decoded, hDecoded, h⟩ := h
  cases h
  dsimp only at hOne
  obtain ⟨rfl, -⟩ := take_ok hVersion
  obtain ⟨rfl, -⟩ := take_ok hValue
  rw [hOne, utf8_ofUtf8 hDecoded]
  rfl

/-- The bytes of a request with this continuation, with its written filters. -/
def cursorBytes (request : FramePageRequest) (c : FrameContinuation)
    (app windowTitle : List UInt8) : List UInt8 :=
  cursorVersion :: utf8 c.snapshot.historyId
    ++ (cursorNumbers request c).flatMap i64ToBe ++ app ++ windowTitle

/-- The numbers of a request are `i64`s. -/
structure FramePageRequest.IsTyped (request : FramePageRequest) (c : FrameContinuation) :
    Prop where
  numbers : ∀ n ∈ cursorNumbers request c, IsI64 n

theorem readRequest_append {request : FramePageRequest} {c : FrameContinuation}
    {app windowTitle : List UInt8} (hContinuation : request.continuation = some c)
    (hTyped : FramePageRequest.IsTyped request c)
    (hId : (utf8 c.snapshot.historyId).length = 36) (hApp : FilterFits request.filters.app)
    (hAppWritten : encodeFilter request.filters.app = .ok app)
    (hTitle : FilterFits request.filters.windowTitle)
    (hTitleWritten : encodeFilter request.filters.windowTitle = .ok windowTitle) (limit : Nat) :
    readRequest limit (cursorBytes request c app windowTitle) =
      .ok ({ request with limit := limit }, []) := by
  obtain ⟨window, filters, oldLimit, continuation⟩ := request
  have hBytes : cursorBytes ⟨window, filters, oldLimit, continuation⟩ c app windowTitle =
      cursorVersion :: utf8 c.snapshot.historyId ++ (i64ToBe window.from ++ (i64ToBe window.to ++
        (i64ToBe c.snapshot.snapshotMaxFrameId ++ (i64ToBe c.after.capturedAt ++
          (i64ToBe c.after.frameId ++ (app ++ (windowTitle ++ []))))))) := by
    simp [cursorBytes, cursorNumbers]
  have hNumbers := hTyped.numbers
  simp only [cursorNumbers, List.mem_cons, List.not_mem_nil, or_false, forall_eq_or_imp,
    forall_eq] at hNumbers
  obtain ⟨hFrom, hTo, hMax, hAt, hFrame⟩ := hNumbers
  rw [hBytes]
  simp only [readRequest, bind_ok]
  refine ⟨_, historyId_append hId _, _, integer_append hFrom _, _, integer_append hTo _, _,
    integer_append hMax _, _, integer_append hAt _, _, integer_append hFrame _, _,
    filter_append hApp hAppWritten _, _, filter_append hTitle hTitleWritten _, ?_⟩
  dsimp only at hContinuation
  rw [hContinuation]
  rfl

theorem readRequest_ok {limit : Nat} {bytes rest : List UInt8} {request : FramePageRequest}
    (h : readRequest limit bytes = .ok (request, rest)) :
    ∃ c app windowTitle, request.continuation = some c ∧ request.limit = limit ∧
      FramePageRequest.IsTyped request c ∧ encodeFilter request.filters.app = .ok app ∧
      encodeFilter request.filters.windowTitle = .ok windowTitle ∧
      bytes = cursorBytes request c app windowTitle ++ rest := by
  simp only [readRequest, bind_ok] at h
  obtain ⟨⟨id, b0⟩, hId, ⟨start, b1⟩, hStart, ⟨stop, b2⟩, hStop, ⟨maximum, b3⟩, hMaximum,
    ⟨at_, b4⟩, hAt, ⟨frame, b5⟩, hFrame, ⟨app, b6⟩, hApp, ⟨title, b7⟩, hTitle, h⟩ := h
  cases h
  obtain ⟨app', hAppWritten, hB5⟩ := filter_ok hApp
  obtain ⟨title', hTitleWritten, hB6⟩ := filter_ok hTitle
  dsimp only at hStart hStop hMaximum hAt hFrame hB5 hB6
  obtain ⟨hB0, hStart⟩ := integer_ok hStart
  obtain ⟨hB1, hStop⟩ := integer_ok hStop
  obtain ⟨hB2, hMaximum⟩ := integer_ok hMaximum
  obtain ⟨hB3, hAt⟩ := integer_ok hAt
  obtain ⟨hB4, hFrame⟩ := integer_ok hFrame
  refine ⟨_, app', title', rfl, rfl, ⟨?_⟩, hAppWritten, hTitleWritten, ?_⟩
  · simp only [cursorNumbers, List.mem_cons, List.not_mem_nil, or_false, forall_eq_or_imp,
      forall_eq]
    exact ⟨hStart, hStop, hMaximum, hAt, hFrame⟩
  · dsimp only
    rw [historyId_ok hId, hB0, hB1, hB2, hB3, hB4, hB5, hB6]
    simp [cursorBytes, cursorNumbers]

/-! ## What fits -/

/-- A filter that is written has no capital letters. -/
theorem encodeFilter_lower {value : Option String} :
    (∃ written, encodeFilter value = .ok written) ↔ value.map Text.toAsciiLowercase = value := by
  rcases value with - | text
  · exact ⟨fun _ => rfl, fun _ => ⟨_, rfl⟩⟩
  · simp only [encodeFilter, bind_ok, require_ok, decide_eq_true_eq, Option.map_some,
      Option.some.injEq]
    exact ⟨fun ⟨_, _, hLower, _⟩ => hLower.symm, fun hLower => ⟨_, (), hLower.symm, rfl⟩⟩

theorem encodeFilter_length {value : Option String} {written : List UInt8}
    (hFits : FilterFits value) (h : encodeFilter value = .ok written) :
    written.length ≤ 2 + frameFilterMaxBytes := by
  rcases value with - | text
  · cases h
    rw [toBe_length]
    omega
  · simp only [encodeFilter, bind_ok] at h
    obtain ⟨-, -, h⟩ := h
    cases h
    have := hFits text rfl
    rw [List.length_append, toBe_length, utf8_length]
    omega

theorem filtersFit {filters : FrameFilters} (h : filters.validate = .ok ()) :
    FilterFits filters.app ∧ FilterFits filters.windowTitle := by
  unfold FrameFilters.validate at h
  split at h
  · cases h
  · next hAny =>
    simp only [List.any_eq_true, decide_eq_true_eq, not_exists, not_and, List.mem_append,
      Option.mem_toList, not_lt] at hAny
    exact ⟨fun text hText => hAny text (.inl hText), fun text hText => hAny text (.inr hText)⟩

theorem historyIdByte_ascii {i : Nat} {c : Char} (h : historyIdByte i c = true) :
    c.utf8Size = 1 := by
  refine Char.utf8Size_eq_one_iff.mpr (UInt32.le_iff_toNat_le.mpr ?_)
  show c.toNat ≤ 127
  have hLe : ∀ d : Char, c ≤ d → c.toNat ≤ d.toNat := fun d hd => UInt32.le_iff_toNat_le.mp hd
  unfold historyIdByte at h
  split at h
  · rw [beq_iff_eq.mp h]
    decide
  · simp only [isAsciiHexdigit, Char.isDigit, Bool.or_eq_true, Bool.and_eq_true,
      decide_eq_true_eq] at h
    rcases h with ⟨-, hDigit⟩ | ⟨-, hSmall⟩ | ⟨-, hCapital⟩
    · exact (UInt32.le_iff_toNat_le.mp hDigit).trans (by decide)
    · exact (hLe _ hSmall).trans (by decide)
    · exact (hLe _ hCapital).trans (by decide)

/-- The text of a UUID takes a byte for each letter. -/
theorem validHistoryId_length {id : String} (h : validHistoryId id = true) :
    (utf8 id).length = 36 := by
  simp only [validHistoryId, Bool.and_eq_true, decide_eq_true_eq, List.all_eq_true] at h
  obtain ⟨hLength, hBytes⟩ := h
  have hOne : ∀ c ∈ id.toList, c.utf8Size = 1 := by
    intro c hc
    obtain ⟨i, hi, rfl⟩ := List.mem_iff_getElem.mp hc
    exact historyIdByte_ascii (hBytes (_, i) (List.mem_zipIdx_iff_getElem?.mpr
      (List.getElem?_eq_getElem hi)))
  rw [utf8_length, ← String.ofList_toList (s := id), Text.utf8ByteSize_eq_length hOne, hLength]

theorem cursorBytes_length (request : FramePageRequest) {c : FrameContinuation}
    {app windowTitle : List UInt8} (hId : (utf8 c.snapshot.historyId).length = 36)
    (hApp : app.length ≤ 2 + frameFilterMaxBytes)
    (hTitle : windowTitle.length ≤ 2 + frameFilterMaxBytes) :
    (cursorBytes request c app windowTitle).length ≤ cursorBinaryMax := by
  have hNumbers : ((cursorNumbers request c).flatMap i64ToBe).length = 5 * 8 := by
    simp [cursorNumbers, i64ToBe_length]
  unfold cursorBytes cursorBinaryMax
  rw [List.length_append, List.length_append, List.length_append, List.length_cons, hId, hNumbers]
  omega

/-! ## There and back -/

/-- A request whose filters are as a fresh one has them. -/
def Normalized (request : FramePageRequest) : Prop := normalize request.filters = request.filters

instance (request : FramePageRequest) : Decidable (Normalized request) :=
  inferInstanceAs (Decidable (_ = _))

theorem normalized_iff {request : FramePageRequest} :
    Normalized request ↔ (∃ app, encodeFilter request.filters.app = .ok app) ∧
      ∃ windowTitle, encodeFilter request.filters.windowTitle = .ok windowTitle := by
  rw [encodeFilter_lower, encodeFilter_lower]
  unfold Normalized normalize
  rw [FrameFilters.mk.injEq]

/-- A request that passes its checks is written, in bytes that are not too many. -/
structure Written (base64 : Base64) (request : FramePageRequest) (c : FrameContinuation)
    (cursor : String) (app windowTitle : List UInt8) : Prop where
  app_eq : encodeFilter request.filters.app = .ok app
  title_eq : encodeFilter request.filters.windowTitle = .ok windowTitle
  cursor_eq : cursor = base64.encode (cursorBytes request c app windowTitle)
  length_le : (cursorBytes request c app windowTitle).length ≤ cursorBinaryMax
  size_le : cursor.utf8ByteSize ≤ frameCursorMaxBytes

theorem written (base64 : Base64) {request : FramePageRequest} {c : FrameContinuation}
    (hValid : request.validate = .ok ()) (hContinuation : request.continuation = some c)
    {app windowTitle : List UInt8} (hApp : encodeFilter request.filters.app = .ok app)
    (hTitle : encodeFilter request.filters.windowTitle = .ok windowTitle) :
    Written base64 request c (base64.encode (cursorBytes request c app windowTitle)) app
      windowTitle := by
  obtain ⟨hPlain, hC⟩ := FramePageRequest.validate_ok.mp hValid
  obtain ⟨hAppFits, hTitleFits⟩ := filtersFit hPlain.filters
  have hLength := cursorBytes_length request
    (validHistoryId_length (hC c hContinuation).historyId) (encodeFilter_length hAppFits hApp)
    (encodeFilter_length hTitleFits hTitle)
  refine ⟨hApp, hTitle, rfl, hLength, ?_⟩
  rw [base64.encode_size]
  unfold cursorBinaryMax frameFilterMaxBytes at hLength
  unfold frameCursorMaxBytes
  omega

theorem encodeCursor_written {base64 : Base64} {request : FramePageRequest} {c : FrameContinuation}
    {cursor : String} {app windowTitle : List UInt8} (hValid : request.validate = .ok ())
    (hContinuation : request.continuation = some c)
    (h : Written base64 request c cursor app windowTitle) :
    encodeCursor base64 request = .ok cursor := by
  simp only [encodeCursor, bind_ok, require_ok, decide_eq_true_eq, orBadQuery_ok,
    orHistoryError_ok]
  have hSize := h.size_le
  rw [h.cursor_eq] at hSize
  refine ⟨(), hValid, c, hContinuation, app, h.app_eq, windowTitle, h.title_eq, (), hSize, ?_⟩
  rw [h.cursor_eq]
  rfl

/-- What is written is read again. -/
theorem decodeCursor_written {base64 : Base64} {request : FramePageRequest} {c : FrameContinuation}
    {cursor : String} {app windowTitle : List UInt8} (hValid : request.validate = .ok ())
    (hContinuation : request.continuation = some c) (hTyped : FramePageRequest.IsTyped request c)
    (h : Written base64 request c cursor app windowTitle) {limit : Nat}
    (hLimit : 1 ≤ limit ∧ limit ≤ framePageMaxLimit) :
    decodeCursor base64 cursor limit = .ok { request with limit := limit } := by
  obtain ⟨hPlain, hC⟩ := FramePageRequest.validate_ok.mp hValid
  obtain ⟨hApp, hTitle⟩ := filtersFit hPlain.filters
  have hId := validHistoryId_length (hC c hContinuation).historyId
  have hEmpty : cursor.isEmpty = false := by
    rw [String.isEmpty_eq_utf8ByteSize_beq_zero, h.cursor_eq, base64.encode_size]
    have : 1 ≤ (cursorBytes request c app windowTitle).length := by
      rw [cursorBytes, List.append_assoc, List.append_assoc, List.cons_append, List.length_cons]
      omega
    rw [beq_eq_false_iff_ne]
    omega
  simp only [decodeCursor, bind_ok, require_ok, Bool.and_eq_true, decide_eq_true_eq,
    orBadQuery_ok, orHistoryError_ok, hEmpty]
  have hDecoded : base64.decode cursor = some (cursorBytes request c app windowTitle) := by
    rw [h.cursor_eq, base64.decode_encode]
  have hRead := readRequest_append hContinuation hTyped hId hApp h.app_eq hTitle h.title_eq limit
  have hPlain' : FramePageRequest.Plain request.window request.filters limit :=
    ⟨hPlain.window, hPlain.filters, hLimit.1, hLimit.2⟩
  exact ⟨(), ⟨rfl, h.size_le⟩, _, hDecoded, (), h.length_le, _, hRead, (), rfl, (),
    FramePageRequest.validate_ok.mpr ⟨hPlain', hC⟩, rfl⟩

/-- What is accepted is what would be written. -/
theorem decodeCursor_ok {base64 : Base64} {cursor : String} {limit : Nat}
    {request : FramePageRequest} (h : decodeCursor base64 cursor limit = .ok request) :
    request.validate = .ok () ∧ request.limit = limit ∧
      ∃ c app windowTitle, request.continuation = some c ∧
        FramePageRequest.IsTyped request c ∧ Written base64 request c cursor app windowTitle := by
  simp only [decodeCursor, bind_ok, require_ok, Bool.and_eq_true, decide_eq_true_eq,
    orBadQuery_ok, orHistoryError_ok] at h
  obtain ⟨-, ⟨-, hSize⟩, bytes, hDecoded, -, hLength, ⟨decoded, rest⟩, hRead, -, hEnd, _, hValid,
    h⟩ := h
  cases h
  obtain ⟨c, app, windowTitle, hContinuation, hLimit, hTyped, hApp, hTitle, hBytes⟩ :=
    readRequest_ok hRead
  dsimp only at hEnd
  rw [List.isEmpty_iff.mp hEnd, List.append_nil] at hBytes
  refine ⟨hValid, hLimit, c, app, windowTitle, hContinuation, hTyped, hApp, hTitle, ?_, ?_, hSize⟩
  · rw [← hBytes, base64.encode_decode cursor bytes hDecoded]
  · rwa [← hBytes]

theorem parseFrames_normalized {base64 : Base64} {raw : Option String} {request : FramePageRequest}
    (h : parseFrames base64 raw = .ok request) : Normalized request := by
  simp only [parseFrames, bind_ok] at h
  obtain ⟨fields, -, limit, -, h⟩ := h
  split at h
  · simp only [bind_ok] at h
    obtain ⟨-, -, h⟩ := h
    obtain ⟨-, -, c, app, windowTitle, -, -, hWritten⟩ := decodeCursor_ok h
    exact normalized_iff.mpr ⟨⟨app, hWritten.app_eq⟩, windowTitle, hWritten.title_eq⟩
  · simp only [bind_ok] at h
    obtain ⟨window, -, -, -, h⟩ := h
    cases h
    have hMap : ∀ value : Option String,
        (value.map Text.toAsciiLowercase).map Text.toAsciiLowercase =
          value.map Text.toAsciiLowercase := by
      intro value
      rw [Option.map_map]
      exact Option.map_congr fun text _ => Text.toAsciiLowercase_idem text
    unfold Normalized normalize
    rw [FrameFilters.mk.injEq]
    exact ⟨hMap _, hMap _⟩

/-- What a page says is next is a valid request. -/
theorem nextRequest_valid {db : FrameTables} {metadata : HistoryMetadata}
    {request : FramePageRequest} {clock : Except HistoryReadError Int} {page : StoredFramePage}
    {after : FramePosition} (h : db.WellFormed metadata)
    (hPage : framePage clock request db = .ok page) (hNext : page.nextPosition = some after) :
    (nextRequest page after).validate = .ok () ∧ page.filters = request.filters := by
  have hGiven := framePage_givenOut h hPage
  obtain ⟨hPlain, hIsPage⟩ := framePage_isPage h hGiven hPage
  have hContinuation : nextContinuation page = some ⟨page.snapshot, after⟩ := by
    rw [nextContinuation, hNext]
    rfl
  have hNextGiven := nextContinuation_givenOut h hGiven hPlain.limit_pos hIsPage hContinuation
  have hEq : page.window = request.window ∧ page.filters = request.filters := by
    have hValid : request.validate = .ok () := FramePageRequest.validate_ok.mpr
      ⟨hPlain, fun c hc => (hGiven c hc).valid⟩
    rcases clock with e | now
    · rw [framePage, hValid, h.read] at hPage
      cases hPage
    · rw [framePage_eq h hValid hGiven now] at hPage
      cases hPage
      exact ⟨rfl, rfl⟩
  have hLimit : 1 ≤ framePageDefaultLimit ∧ framePageDefaultLimit ≤ framePageMaxLimit := by decide
  refine ⟨FramePageRequest.validate_ok.mpr ⟨⟨?_, ?_, hLimit.1, hLimit.2⟩, ?_⟩, hEq.2⟩
  · rw [nextRequest, hEq.1]
    exact hPlain.window
  · rw [nextRequest, hEq.2]
    exact hPlain.filters
  · rintro c hc
    obtain rfl := Option.some.inj hc
    rw [nextRequest, hEq.1]
    exact hNextGiven.valid

/-- **The cursor codec.** A valid, normalized request is written and read back, with the
caller's limit; what is accepted is the text that would be written, and is checked like
a fresh request; and what a page says is next always has a cursor that is short enough. -/
theorem cursor_codec (base64 : Base64) :
    (∀ (request : FramePageRequest) (c : FrameContinuation) (limit : Nat),
      request.validate = .ok () → request.continuation = some c →
      FramePageRequest.IsTyped request c → Normalized request →
      1 ≤ limit ∧ limit ≤ framePageMaxLimit →
      ∃ cursor, encodeCursor base64 request = .ok cursor ∧
        decodeCursor base64 cursor limit = .ok { request with limit := limit }) ∧
    (∀ (cursor : String) (limit : Nat) (request : FramePageRequest),
      decodeCursor base64 cursor limit = .ok request →
      encodeCursor base64 request = .ok cursor ∧ request.validate = .ok () ∧
        Normalized request ∧ request.limit = limit ∧
        ∃ c, request.continuation = some c ∧ FramePageRequest.IsTyped request c) ∧
    (∀ (db : FrameTables) (metadata : HistoryMetadata) (clock : Except HistoryReadError Int)
      (raw : Option String) (request : FramePageRequest) (page : StoredFramePage)
      (after : FramePosition),
      db.WellFormed metadata → parseFrames base64 raw = .ok request →
      framePage clock request db = .ok page → page.nextPosition = some after →
      ∃ cursor, encodeCursor base64 (nextRequest page after) = .ok cursor ∧
        cursor.utf8ByteSize ≤ frameCursorMaxBytes) := by
  refine ⟨?_, ?_, ?_⟩
  · intro request c limit hValid hContinuation hTyped hNormal hLimit
    obtain ⟨⟨app, hApp⟩, windowTitle, hTitle⟩ := normalized_iff.mp hNormal
    have hWritten := written base64 hValid hContinuation hApp hTitle
    exact ⟨_, encodeCursor_written hValid hContinuation hWritten,
      decodeCursor_written hValid hContinuation hTyped hWritten hLimit⟩
  · intro cursor limit request h
    obtain ⟨hValid, hLimit, c, app, windowTitle, hContinuation, hTyped, hWritten⟩ :=
      decodeCursor_ok h
    refine ⟨encodeCursor_written hValid hContinuation hWritten, hValid, ?_, hLimit, c,
      hContinuation, hTyped⟩
    exact normalized_iff.mpr ⟨⟨app, hWritten.app_eq⟩, windowTitle, hWritten.title_eq⟩
  · intro db metadata clock raw request page after h hParse hPage hNext
    obtain ⟨hValid, hFilters⟩ := nextRequest_valid h hPage hNext
    have hNormal : Normalized (nextRequest page after) := by
      show normalize page.filters = page.filters
      rw [hFilters]
      exact parseFrames_normalized hParse
    obtain ⟨⟨app, hApp⟩, windowTitle, hTitle⟩ := normalized_iff.mp hNormal
    have hWritten := written base64 hValid rfl hApp hTitle
    exact ⟨_, encodeCursor_written hValid rfl hWritten, hWritten.size_le⟩

/-- The request for the page behind a frame. -/
def behindFirst : FramePageRequest where
  window := ⟨0, 100⟩
  filters := ⟨some "code.exe", none⟩
  limit := 1
  continuation := some ⟨⟨"00000000-0000-4000-8000-000000000000", 3⟩, ⟨10, 2⟩⟩

theorem cursor_codec_behindFirst :
    ∃ cursor, encodeCursor Base64.urlSafeNoPad behindFirst = .ok cursor ∧
      decodeCursor Base64.urlSafeNoPad cursor 7 = .ok { behindFirst with limit := 7 } :=
  (cursor_codec Base64.urlSafeNoPad).1 behindFirst _ 7 (by decide +kernel) rfl
    ⟨by simp [cursorNumbers, behindFirst, IsI64]⟩ (by decide +kernel) (by decide)

end ScreenSearch.Api
