import ScreenSearch.Mcp.Queries

/-!
# Following the pages over MCP

A reader of `list_frames` asks for its window once and then hands each page's cursor back. What
it reads is what the store's own reader reads, whatever is written between two pages.

Main results:

* `frames_next` — a page's cursor, sent back with any limit, asks for the page behind it;
* `list_frames_walk` — the pages over MCP are those of the store, in order and with nothing
  twice.
-/

namespace ScreenSearch.Mcp

open Bytes Store Api Keyset

/-! ## Arguments -/

/-- The arguments that ask for a page. -/
def Asked.args (listing : Listing) (limit : Option Int) : Asked → Value
  | .first start stop one two =>
    .obj ([("from", .int start), ("to", .int stop)] ++
      (one.map fun s => (listing.filters.1, .str s)).toList ++
      (two.map fun s => (listing.filters.2, .str s)).toList ++
      (limit.map fun n => ("limit", .int n)).toList)
  | .next cursor => .obj (("cursor", .str cursor) :: (limit.map fun n => ("limit", .int n)).toList)

theorem asI64_int {n : Int} (h : IsI64 n) : (Value.int n).asI64 = some n := if_pos h

section

variable {listing : Listing} (hNames : listing.names.Nodup)
include hNames

theorem get_limit (asked : Asked) (limit : Option Int) :
    (asked.args listing limit).get "limit" = limit.map Value.int := by
  simp only [Listing.names, List.nodup_cons, List.mem_cons, List.not_mem_nil, or_false, not_or,
    List.nodup_nil, not_false_eq_true, and_true] at hNames
  rcases asked with ⟨start, stop, - | one, - | two⟩ | cursor <;> rcases limit with - | limit <;>
    simp [Value.get, Asked.args, hNames]

theorem get_next (cursor : String) (limit : Option Int) :
    ((Asked.next cursor).args listing limit).get "cursor" = some (.str cursor) ∧
      ∀ key ∈ ["from", "to", listing.filters.1, listing.filters.2],
        ((Asked.next cursor).args listing limit).get key = none := by
  simp only [Listing.names, List.nodup_cons, List.mem_cons, List.not_mem_nil, or_false, not_or,
    List.nodup_nil, not_false_eq_true, and_true] at hNames
  obtain ⟨⟨hFromTo, hFrom1, hFrom2, -, hFromC⟩, ⟨hTo1, hTo2, -, hToC⟩, ⟨h12, h1, h1C⟩, ⟨h2, h2C⟩,
    -⟩ := hNames
  rcases limit with - | limit <;>
    simp [Value.get, Asked.args, Ne.symm h1, Ne.symm h2, Ne.symm h1C, Ne.symm h2C]

theorem get_first (start stop : Int) (one two : Option String) (limit : Option Int) :
    ((Asked.first start stop one two).args listing limit).get "cursor" = none ∧
      ((Asked.first start stop one two).args listing limit).get "from" = some (.int start) ∧
      ((Asked.first start stop one two).args listing limit).get "to" = some (.int stop) ∧
      ((Asked.first start stop one two).args listing limit).get listing.filters.1 =
        one.map Value.str ∧
      ((Asked.first start stop one two).args listing limit).get listing.filters.2 =
        two.map Value.str := by
  simp only [Listing.names, List.nodup_cons, List.mem_cons, List.not_mem_nil, or_false, not_or,
    List.nodup_nil, not_false_eq_true, and_true] at hNames
  obtain ⟨⟨hFromTo, hFrom1, hFrom2, -, hFromC⟩, ⟨hTo1, hTo2, -, hToC⟩, ⟨h12, h1, h1C⟩, ⟨h2, h2C⟩,
    -⟩ := hNames
  rcases one with - | one <;> rcases two with - | two <;> rcases limit with - | limit <;>
    simp [Value.get, Asked.args, h1C, h2C, Ne.symm h1, Ne.symm h2, hFrom1, hFrom2, hTo1, hTo2,
      h12, Ne.symm h12]

end

theorem optionalInteger_args {listing : Listing} (hNames : listing.names.Nodup) (asked : Asked)
    (limit : Option Int) :
    optionalInteger (asked.args listing limit) "limit" =
      match limit with
      | none => .ok none
      | some n =>
        match (Value.int n).asI64 with
        | some n => .ok (some n)
        | none => .error (.input "`limit` must be an integer") := by
  unfold optionalInteger
  rw [get_limit hNames]
  rcases limit with - | n <;> rfl

/-- Arguments in range make their query. -/
theorem buildListingQuery_args {listing : Listing} (hNames : listing.names.Nodup)
    (hMax : listing.maxLimit = 1000) {asked : Asked} {limit : Option Int}
    (hFits : asked.Fits listing limit)
    (hCursor : ∀ cursor, asked = .next cursor → ∀ max ∈ listing.cursorMaxBytes,
      cursor.utf8ByteSize ≤ max) :
    buildListingQuery listing (asked.args listing limit) =
      .ok (asked.params listing ++ limitParam limit) := by
  have hLimit : optionalInteger (asked.args listing limit) "limit" = .ok limit := by
    rw [optionalInteger_args hNames]
    rcases limit with - | n
    · rfl
    · have hRange := hFits.limit n rfl
      rw [hMax] at hRange
      dsimp only
      rw [asI64_int ⟨by omega, by omega⟩]
  -- the check of the range lets the limit through
  have hRange : (limit.any fun n => decide (n < 1 ∨ listing.maxLimit < n)) = false := by
    rcases limit with - | n
    · rfl
    · have := hFits.limit n rfl
      rw [Option.any_some, decide_eq_false_iff_not]
      omega
  simp only [buildListingQuery, bind_ok]
  refine ⟨limit, hLimit, ?_⟩
  rw [hRange, if_neg Bool.false_ne_true]
  simp only [bind_ok]
  rcases asked with ⟨start, stop, one, two⟩ | cursor
  · -- without a cursor both ends of the window have to be there
    obtain ⟨hNone, hFrom, hTo, hOne, hTwo⟩ := get_first hNames start stop one two limit
    obtain ⟨hStart, hStop⟩ := hFits.numbers start stop one two rfl
    refine ⟨none, by unfold optionalString; rw [hNone], ?_⟩
    have hText : ∀ {args : Value} {key : String} {s : Option String},
        args.get key = s.map Value.str → optionalString args key = .ok s := by
      intro args key s hGet
      unfold optionalString
      rw [hGet]
      rcases s with - | s <;> rfl
    have hNumber : ∀ {args : Value} {key : String} {n : Int}, IsI64 n →
        args.get key = some (.int n) → requireInteger args key = .ok n := by
      intro args key n hn hGet
      unfold requireInteger
      rw [hGet]
      dsimp only
      rw [asI64_int hn]
    simp only [bind_ok]
    exact ⟨start, hNumber hStart hFrom, stop, hNumber hStop hTo, one, hText hOne, two, hText hTwo,
      rfl⟩
  · -- with a cursor nothing else may be there, and nothing is
    obtain ⟨hSome, hOthers⟩ := get_next hNames cursor limit
    refine ⟨some cursor, by unfold optionalString; rw [hSome], ?_⟩
    have hShort : (listing.cursorMaxBytes.any fun max => decide (max < cursor.utf8ByteSize)) =
        false := by
      rcases hCap : listing.cursorMaxBytes with - | max
      · rfl
      · have := hCursor cursor rfl max hCap
        rw [Option.any_some, decide_eq_false_iff_not]
        omega
    have hNothing : (["from", "to", listing.filters.1, listing.filters.2].find? fun key =>
        (((Asked.next cursor).args listing limit).get key).any fun v => !v.isNull) = none := by
      rw [List.find?_eq_none]
      intro key hKey
      rw [hOthers key hKey]
      decide
    dsimp only
    rw [hShort, if_neg Bool.false_ne_true, hNothing]
    rfl

/-- A limit out of range makes no query. -/
theorem buildListingQuery_refused {listing : Listing} (hNames : listing.names.Nodup)
    (hMax : listing.maxLimit = 1000) {asked : Asked} {n : Int} (hRange : ¬(1 ≤ n ∧ n ≤ 1000))
    (params : Params) :
    buildListingQuery listing (asked.args listing (some n)) ≠ .ok params := by
  intro h
  simp only [buildListingQuery, bind_ok] at h
  obtain ⟨limit, hLimit, h⟩ := h
  rw [optionalInteger_args hNames] at hLimit
  dsimp only [Value.asI64] at hLimit
  split at hLimit
  · next m hInt =>
    cases hLimit
    have hSame : n = m := by
      split at hInt
      · exact Option.some.inj hInt
      · cases hInt
    subst hSame
    rw [Option.any_some, hMax, if_pos (by rw [decide_eq_true_eq]; omega)] at h
    cases h
  · cases hLimit

/-! ## Requests -/

/-- A small letter takes a byte where its capital does. -/
theorem toLower_utf8Size (c : Char) : c.toLower.utf8Size = c.utf8Size := by
  rcases Text.toLower_cases c with hSame | ⟨hCapital, hSmall, -⟩
  · rw [hSame]
  · rw [Char.utf8Size_eq_one_iff.mpr hCapital, Char.utf8Size_eq_one_iff.mpr hSmall]

theorem toAsciiLowercase_utf8ByteSize (s : String) :
    (Text.toAsciiLowercase s).utf8ByteSize = s.utf8ByteSize := by
  conv_rhs => rw [← String.ofList_toList (s := s)]
  rw [Text.toAsciiLowercase, Text.utf8ByteSize_ofList, Text.utf8ByteSize_ofList, List.map_map]
  exact congrArg List.sum (List.map_congr_left fun c _ => toLower_utf8Size c)

/-- Folding a filter does not make it too long. -/
theorem normalize_validate (filters : FrameFilters) :
    (Api.normalize filters).validate = filters.validate := by
  obtain ⟨app, windowTitle⟩ := filters
  rcases app with - | app <;> rcases windowTitle with - | title <;>
    simp [FrameFilters.validate, Api.normalize, toAsciiLowercase_utf8ByteSize]

variable {window : EvidenceWindow} {filters : FrameFilters} {db : FrameTables}

/-- The cursors that stand for the continuations of a window. -/
structure Stands (base64 : Base64) (window : EvidenceWindow) (filters : FrameFilters)
    (db : FrameTables) (cursor : Option String) (c : Option FrameContinuation) : Prop where
  good : FramesGood window db c
  text : (cursor = none ∧ c = none) ∨ ∃ text k, cursor = some text ∧ c = some k ∧
    encodeCursor base64 ⟨window, Api.normalize filters, framePageDefaultLimit, some k⟩ = .ok text

/-- A continuation that was given out is made of `i64`s. -/
theorem isTyped (hFrom : IsI64 window.from) (hTo : IsI64 window.to) {c : FrameContinuation}
    (hGood : FramesGood window db (some c)) (limit : Nat) (filters : FrameFilters) :
    FramePageRequest.IsTyped ⟨window, filters, limit, some c⟩ c := by
  obtain ⟨metadata, h, hGiven⟩ := hGood
  obtain ⟨hValid, -, hMax⟩ := hGiven c rfl
  -- a high-water mark that can be read is an `i64`, and no id given out is above it
  have hHighWater : metadata.frameIdHighWater ≤ i64Max := by
    obtain ⟨text, -, hParse⟩ := Option.bind_eq_some_iff.mp h.allocator
    unfold parseHighWater at hParse
    split at hParse
    · cases hParse
    · dsimp only at hParse
      split at hParse
      · next hLe =>
        rwa [← Option.some.inj hParse]
      · cases hParse
  obtain ⟨-, hIdPos, hIdLe, hAt, hBefore⟩ := hValid
  unfold IsI64 at hFrom hTo
  unfold i64Max at hHighWater
  refine ⟨?_⟩
  simp only [cursorNumbers, List.mem_cons, List.not_mem_nil, or_false, forall_eq_or_imp,
    forall_eq, IsI64]
  refine ⟨hFrom, hTo, ?_, ?_, ?_⟩ <;> constructor <;> omega

/-- A page's cursor, sent back with any limit, asks for the page behind it. -/
theorem frames_next {base64 : Base64} (hFrom : IsI64 window.from) (hTo : IsI64 window.to)
    {c : FrameContinuation} (hGood : FramesGood window db (some c)) {cursor : String}
    (hCursor : encodeCursor base64 ⟨window, filters, framePageDefaultLimit, some c⟩ = .ok cursor)
    {limit : Nat} (hLimit : 1 ≤ limit ∧ limit ≤ framePageMaxLimit) :
    decodeCursor base64 cursor limit = .ok ⟨window, filters, limit, some c⟩ := by
  have hCursor' := hCursor
  simp only [encodeCursor, bind_ok, orHistoryError_ok] at hCursor'
  obtain ⟨_, hValid, -, -, app, hApp, title, hTitle, -⟩ := hCursor'
  have hWritten := written base64 hValid rfl hApp hTitle
  have hSame := encodeCursor_written hValid rfl hWritten
  rw [hCursor] at hSame
  cases hSame
  exact decodeCursor_written hValid rfl (isTyped hFrom hTo hGood _ _) hWritten hLimit

/-! ## The reader -/

section

variable (form : FormUrlencoded) (base64 : Base64)

/-- One call of `list_frames`: what its arguments make is sent, and the API answers. -/
def listFramesPage (clock : Except HistoryReadError Int) (args : Value) (db : FrameTables) :
    Option FramePage :=
  (buildFramesQuery args).toOption.bind fun params =>
    (frames base64 clock (some (form.query params)) db).toOption

/-- What the API does with a request that it has read. -/
def answer (clock : Except HistoryReadError Int) (db : FrameTables) (request : FramePageRequest) :
    Except ApiError FramePage := do
  let page ← orHistoryError (framePage clock request db)
  let cursor ← nextCursor base64 page
  pure
    { items := page.items
      nextCursor := cursor
      historyId := page.snapshot.historyId
      window := page.window
      snapshotMaxFrameId := page.snapshot.snapshotMaxFrameId
      observedAt := page.observedAt }

/-- The window at first, and then the cursor only. -/
def askedBy (window : EvidenceWindow) (filters : FrameFilters) : Option String → Asked
  | none => .first window.from window.to filters.app filters.windowTitle
  | some cursor => .next cursor

/-- A call has a limit or none, and the clock at its time. -/
abbrev Call := Option Int × Except HistoryReadError Int

/-- A reader of `list_frames` that hands each page's cursor back. -/
def mcpReader (window : EvidenceWindow) (filters : FrameFilters) :
    Reader FrameTables FrameWrite Call String FramePage where
  apply := fun db write => write.apply db
  ask := fun cursor (limit, clock) db =>
    listFramesPage form base64 clock ((askedBy window filters cursor).args framesListing limit) db
  next := FramePage.nextCursor

end

/-- The same call of the store. -/
def toFrameAsk (call : Call) : FrameAsk := (limitOr framePageDefaultLimit call.1, call.2)

/-- A page over MCP says what the store's page says. -/
structure SamePage (page' : FramePage) (page : StoredFramePage) : Prop where
  items : page'.items = page.items
  historyId : page'.historyId = page.snapshot.historyId
  window : page'.window = page.window
  snapshotMaxFrameId : page'.snapshotMaxFrameId = page.snapshot.snapshotMaxFrameId
  observedAt : page'.observedAt = page.observedAt
  last : page'.nextCursor = none ↔ page.nextPosition = none

theorem limitOr_range {limit : Option Int} (hLimit : ∀ n ∈ limit, 1 ≤ n ∧ n ≤ 1000) :
    1 ≤ limitOr framePageDefaultLimit limit ∧
      limitOr framePageDefaultLimit limit ≤ framePageMaxLimit := by
  unfold limitOr framePageDefaultLimit framePageMaxLimit
  rcases limit with - | n
  · decide
  · have := hLimit n rfl
    simp only [Option.map_some, Option.getD_some]
    omega

theorem normalize_normalize (filters : FrameFilters) :
    Api.normalize (Api.normalize filters) = Api.normalize filters := by
  have hTwice : ∀ value : Option String, (value.map Text.toAsciiLowercase).map
      Text.toAsciiLowercase = value.map Text.toAsciiLowercase := by
    intro value
    rw [Option.map_map]
    exact Option.map_congr fun text _ => Text.toAsciiLowercase_idem text
  exact FrameFilters.mk.injEq .. ▸ ⟨hTwice _, hTwice _⟩

/-- A page is of the window and the filters that were asked for. -/
theorem framePage_request {clock : Except HistoryReadError Int} {request : FramePageRequest}
    {page : StoredFramePage} (h : framePage clock request db = .ok page) :
    page.window = request.window ∧ page.filters = request.filters := by
  simp only [framePage, bind_ok] at h
  obtain ⟨-, -, history, -, now, -, snapshot, -, h⟩ := h
  cases h
  exact ⟨rfl, rfl⟩

/-- What is said of the next page. -/
theorem nextCursor_stands {base64 : Base64} {c : Option FrameContinuation}
    (hGood : FramesGood window db c)
    {limit : Nat} {clock : Except HistoryReadError Int} {page : StoredFramePage}
    (hPage : framePage clock ⟨window, Api.normalize filters, limit, c⟩ db = .ok page) :
    (page.nextPosition = none ∧ nextCursor base64 page = .ok none) ∨
      ∃ after cursor, page.nextPosition = some after ∧ nextCursor base64 page = .ok (some cursor) ∧
        Stands base64 window filters db (some cursor) (some ⟨page.snapshot, after⟩) := by
  rcases hNext : page.nextPosition with - | after
  · refine .inl ⟨rfl, ?_⟩
    unfold nextCursor
    rw [hNext]
  · -- the cursor is the request for the next page, whose filters are folded already
    refine .inr ⟨after, ?_⟩
    obtain ⟨metadata, h, hGiven⟩ := hGood
    obtain ⟨hValid, hFilters⟩ := nextRequest_valid h hPage hNext
    have hNormal : Normalized (nextRequest page after) := by
      show Api.normalize page.filters = page.filters
      rw [hFilters]
      exact normalize_normalize filters
    obtain ⟨⟨app, hApp⟩, title, hTitle⟩ := normalized_iff.mp hNormal
    obtain ⟨text, hWritten⟩ : ∃ text, encodeCursor base64 (nextRequest page after) = .ok text :=
      ⟨_, encodeCursor_written hValid rfl (written base64 hValid rfl hApp hTitle)⟩
    refine ⟨text, rfl, ?_, ⟨?_, .inr ⟨text, ⟨page.snapshot, after⟩, rfl, rfl, ?_⟩⟩⟩
    · unfold nextCursor
      rw [hNext]
      dsimp only
      rw [hWritten]
    · obtain ⟨hPlain, hIsPage⟩ := framePage_isPage h hGiven hPage
      refine ⟨metadata, h, fun c' hc' => ?_⟩
      obtain rfl := Option.some.inj hc'
      refine nextContinuation_givenOut h hGiven hPlain.limit_pos hIsPage ?_
      unfold nextContinuation
      rw [hNext]
      rfl
    · obtain ⟨hWindow, hSame⟩ := framePage_request hPage
      rwa [nextRequest, hWindow, hSame] at hWritten

/-- A call out of range is refused by both. -/
theorem refused_range {form : FormUrlencoded} {base64 : Base64} {cursor : Option String}
    {c : Option FrameContinuation} {limit : Option Int}
    (hRange : ¬∀ n ∈ limit, 1 ≤ n ∧ n ≤ 1000) (clock : Except HistoryReadError Int) :
    listFramesPage form base64 clock ((askedBy window filters cursor).args framesListing limit) db =
        none ∧
      ∀ page, framePage clock
        ⟨window, Api.normalize filters, limitOr framePageDefaultLimit limit, c⟩ db ≠ .ok page := by
  simp only [not_forall] at hRange
  obtain ⟨n, rfl, hRange⟩ := hRange
  constructor
  · unfold listFramesPage buildFramesQuery
    rcases hBuild : buildListingQuery framesListing
      ((askedBy window filters cursor).args framesListing (some n)) with e | params
    · rfl
    · exact absurd hBuild (buildListingQuery_refused framesListing_names rfl hRange params)
  · intro page hPage
    simp only [framePage, bind_ok] at hPage
    obtain ⟨_, hValid, -⟩ := hPage
    obtain ⟨hPlain, -⟩ := FramePageRequest.validate_ok.mp hValid
    have hPos : 1 ≤ n.toNat := hPlain.limit_pos
    have hLe : n.toNat ≤ 1000 := hPlain.limit_le
    omega

section

variable {form : FormUrlencoded} {base64 : Base64} (hFrom : IsI64 window.from)
  (hTo : IsI64 window.to)
include hFrom hTo

theorem askedBy_fits {cursor : Option String} {limit : Option Int}
    (hLimit : ∀ n ∈ limit, 1 ≤ n ∧ n ≤ 1000) :
    (askedBy window filters cursor).Fits framesListing limit := by
  refine ⟨hLimit, ?_⟩
  rcases cursor with - | cursor
  · rintro _ _ _ _ ⟨⟩
    exact ⟨hFrom, hTo⟩
  · rintro _ _ _ _ ⟨⟩

/-- What a call in range asks the API for. -/
theorem listFramesPage_args {cursor : Option String} {limit : Option Int}
    (hLimit : ∀ n ∈ limit, 1 ≤ n ∧ n ≤ 1000) (clock : Except HistoryReadError Int) :
    listFramesPage form base64 clock ((askedBy window filters cursor).args framesListing limit) db =
      (framesRequest base64 limit (askedBy window filters cursor) >>=
        answer base64 clock db).toOption := by
  have hFits : (askedBy window filters cursor).Fits framesListing limit :=
    askedBy_fits hFrom hTo hLimit
  unfold listFramesPage buildFramesQuery
  rw [buildListingQuery_args framesListing_names rfl hFits (by rintro _ _ _ ⟨⟩)]
  show (frames base64 clock _ db).toOption = _
  unfold frames
  rw [parseFrames_params form base64 hFits]
  rfl

/-- A call in range asks the API what the store's reader is asked, or is refused by both. -/
theorem framesRequest_stands {cursor : Option String} {c : Option FrameContinuation}
    (hStands : Stands base64 window filters db cursor c) {limit : Option Int}
    (hLimit : ∀ n ∈ limit, 1 ≤ n ∧ n ≤ 1000) :
    framesRequest base64 limit (askedBy window filters cursor) =
        .ok ⟨window, Api.normalize filters, limitOr framePageDefaultLimit limit, c⟩ ∨
      (∃ e, framesRequest base64 limit (askedBy window filters cursor) = .error e) ∧
        ∀ clock page, framePage clock
          ⟨window, Api.normalize filters, limitOr framePageDefaultLimit limit, c⟩ db ≠ .ok page := by
  rcases hStands.text with ⟨rfl, rfl⟩ | ⟨text, k, rfl, rfl, hText⟩
  · -- the first page: either side checks the window and then the filters
    rcases hWindow : window.validate with e | u
    · refine .inr ⟨⟨historyError e, ?_⟩, fun clock page hPage => ?_⟩
      · show (orHistoryError window.validate >>= _) = _
        rw [hWindow]
        rfl
      · unfold framePage FramePageRequest.validate at hPage
        rw [hWindow] at hPage
        cases hPage
    rcases hFilters : filters.validate with e | u
    · refine .inr ⟨⟨historyError e, ?_⟩, fun clock page hPage => ?_⟩
      · show (orHistoryError window.validate >>= fun _ => orHistoryError filters.validate >>= _) = _
        rw [hWindow, hFilters]
        rfl
      · unfold framePage FramePageRequest.validate at hPage
        rw [hWindow, normalize_validate, hFilters] at hPage
        cases hPage
    · left
      show (orHistoryError window.validate >>= fun _ => orHistoryError filters.validate >>= _) = _
      rw [hWindow, hFilters]
      rfl
  · exact .inl (frames_next hFrom hTo hStands.good hText (limitOr_range hLimit))

/-- The reader over MCP and the store's own one. -/
theorem mcpReader_simulates :
    Reader.Simulates (mcpReader form base64 window filters)
      (frameReader window (Api.normalize filters)) toFrameAsk (Stands base64 window filters)
      SamePage where
  apply := fun _ _ => rfl
  write := fun write hStands => ⟨frameReader_keeps.write write hStands.good, hStands.text⟩
  refused := by
    rintro db cursor c ⟨limit, clock⟩ hStands hNone
    by_cases hLimit : ∀ n ∈ limit, 1 ≤ n ∧ n ≤ 1000
    · -- in range the request is the store's own, and the store has refused it
      show listFramesPage form base64 clock _ db = none
      rw [listFramesPage_args hFrom hTo hLimit]
      rcases framesRequest_stands hFrom hTo hStands hLimit with hAsk | ⟨⟨e, hAsk⟩, -⟩
      · rw [hAsk]
        show (answer base64 clock db _).toOption = none
        unfold answer
        change (framePage clock _ db).toOption = none at hNone
        rcases hPage : framePage clock ⟨window, Api.normalize filters,
          limitOr framePageDefaultLimit limit, c⟩ db with e | page
        · rfl
        · rw [hPage] at hNone
          cases hNone
      · rw [hAsk]
        rfl
    · -- out of range no request goes out
      exact (refused_range (c := c) hLimit clock).1
  page := by
    rintro db cursor c ⟨limit, clock⟩ page hStands hAsk
    have hPage : framePage clock ⟨window, Api.normalize filters,
      limitOr framePageDefaultLimit limit, c⟩ db = .ok page := toOption_some hAsk
    -- a limit that the store has taken is in range
    have hLimit : ∀ n ∈ limit, 1 ≤ n ∧ n ≤ 1000 := by
      by_contra hRange
      have hRefused := (@refused_range window filters db form base64 cursor c _ hRange clock).2
      exact hRefused page hPage
    have hRequest : framesRequest base64 limit (askedBy window filters cursor) =
        .ok ⟨window, Api.normalize filters, limitOr framePageDefaultLimit limit, c⟩ := by
      rcases framesRequest_stands hFrom hTo hStands hLimit with hAsk | ⟨-, hRefused⟩
      · exact hAsk
      · exact absurd hPage (hRefused clock page)
    have hAnswer : ∀ next, nextCursor base64 page = .ok next →
        (mcpReader form base64 window filters).ask cursor (limit, clock) db =
          some ⟨page.items, next, page.snapshot.historyId, page.window,
            page.snapshot.snapshotMaxFrameId, page.observedAt⟩ := by
      intro next hNext
      show listFramesPage form base64 clock _ db = _
      rw [listFramesPage_args hFrom hTo hLimit, hRequest]
      show (answer base64 clock db _).toOption = _
      unfold answer
      rw [hPage]
      show (nextCursor base64 page >>= _).toOption = _
      rw [hNext]
      rfl
    have hNexts := @nextCursor_stands window filters db base64 c hStands.good _ clock page hPage
    -- the last page has no cursor; every other cursor stands for the next page
    rcases hNexts with ⟨hLast, hNext⟩ | ⟨after, text, hAfter, hNext, hLater⟩
    · refine ⟨_, hAnswer none hNext, ⟨rfl, rfl, rfl, rfl, rfl, by simp [hLast]⟩, .inl ⟨?_, rfl⟩⟩
      show nextContinuation page = none
      rw [nextContinuation, hLast]
      rfl
    · refine ⟨_, hAnswer (some text) hNext, ⟨rfl, rfl, rfl, rfl, rfl, by simp [hAfter]⟩,
        .inr ⟨⟨page.snapshot, after⟩, text, ?_, rfl, hLater⟩⟩
      show nextContinuation page = _
      rw [nextContinuation, hAfter]
      rfl

/-- **Following the pages over MCP.** Whatever is written between the calls and whatever limits
they have, the pages are those that the store's own reader gets, one for one, and what they hold
is in order with nothing twice. -/
theorem list_frames_walk {metadata : HistoryMetadata} (h : db.WellFormed metadata)
    (events : List (Event FrameWrite Call)) :
    let pages := (mcpReader form base64 window filters).walk none db events
    List.Forall₂ (fun mcp stored => SamePage mcp.page stored.page ∧ mcp.table = stored.table) pages
        (frameWalk window (Api.normalize filters) db (events.map (Event.mapAsk toFrameAsk))) ∧
      (pages.flatMap fun page => page.page.items).Pairwise
        (fun a b => evidenceKey a < evidenceKey b) := by
  intro pages
  have hGood : FramesGood window db none := ⟨metadata, h, by rintro _ ⟨⟩⟩
  have hSame := (@mcpReader_simulates window filters form base64 hFrom hTo).walk events
    ⟨hGood, .inl ⟨rfl, rfl⟩⟩
  refine ⟨hSame, ?_⟩
  -- the order is that of the store's reader, page by page
  have hItems : ((mcpReader form base64 window filters).walk none db events).flatMap
      (fun page => page.page.items) =
        returned ((frameWalk window (Api.normalize filters) db
          (events.map (Event.mapAsk toFrameAsk))).map (frameRead window (Api.normalize filters))) := by
    rw [returned, List.flatMap_map]
    unfold frameWalk
    generalize (mcpReader form base64 window filters).walk none db events = mcp at hSame
    generalize (frameReader window (Api.normalize filters)).walk none db
      (events.map (Event.mapAsk toFrameAsk)) = stored at hSame
    induction hSame with
    | nil => rfl
    | cons hHead _ ih =>
      rw [List.flatMap_cons, List.flatMap_cons, hHead.1.items, ih]
      rfl
  rw [hItems]
  exact (Reader.walk_chain frameReader_keeps frameReader_pages _ hGood).sorted

end

/-- Between the two calls a frame is deleted; the second one has no limit. -/
def lateCalls : List (Event FrameWrite Call) :=
  [.ask (some 1, .ok 0), .write (.delete 3), .ask (none, .ok 0)]

theorem list_frames_walk_lateCalls :
    (((mcpReader FormUrlencoded.standard Base64.urlSafeNoPad ⟨0, 100⟩ ⟨some "code.EXE", none⟩).walk
      none sampleHistory lateCalls).flatMap fun page => page.page.items).Pairwise
        (fun a b => evidenceKey a < evidenceKey b) :=
  have hWell : sampleHistory.WellFormed
      ⟨"00000000-0000-4000-8000-000000000000", currentMaxFrameId threeFrames⟩ :=
    setupHistoryMetadata_wellFormed (by decide +kernel) ⟨rfl, rfl⟩ (by decide) (by decide)
      (by decide)
  (@list_frames_walk ⟨0, 100⟩ _ _ _ _ ⟨by decide, by decide⟩ ⟨by decide, by decide⟩ _ hWell
    lateCalls).2

end ScreenSearch.Mcp
