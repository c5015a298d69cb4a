import ScreenSearch.Lib.Keyset
import ScreenSearch.Store.Frames
import Mathlib.Data.Prod.Lex

/-!
# Pages of frames

A reader asks for a first page and then, with what each page says is next, for the
pages after it, while frames are written and deleted. Membership is frozen by the
largest id of the first page; what a frame says is read when its page is.

Main results:

* `framePage_ok`, `framePage_isPage` — which requests succeed, and that their page is a
  keyset page of the frames that match;
* `frame_pages_complete` — what a walk returns.
-/

namespace ScreenSearch.Store

open Sorting

/-! ## The page query -/

/-- `COLLATE NOCASE`: ASCII letters match in either case, and the comparison stops at
a NUL. -/
def nocaseEq (a b : String) : Bool :=
  let folded (s : String) := (s.toList.takeWhile (· ≠ Char.ofNat 0)).map Char.toLower
  a.utf8ByteSize == b.utf8ByteSize && folded a == folded b

/-- `instr(lower(s), lower(pattern)) > 0`. -/
def containsIgnoringCase (s pattern : String) : Bool :=
  Text.contains (Text.toAsciiLowercase s) (Text.toAsciiLowercase pattern)

def targetAppHint (db : FrameTables) (f : StoredFrame) : Option String :=
  ((frameTextOf db f.id).bind FrameTextRow.targetAppHint).or f.appHint

def targetWindowTitle (db : FrameTables) (f : StoredFrame) : Option String :=
  ((frameTextOf db f.id).bind FrameTextRow.targetWindowTitle).or f.windowTitle

/-- A filter that is absent matches everything, one that is there no `NULL`. -/
def matchesFilters (filters : FrameFilters) (db : FrameTables) (f : StoredFrame) : Bool :=
  (filters.app.all fun app => (targetAppHint db f).any fun hint => nocaseEq hint app)
  && (filters.windowTitle.all fun title =>
    (targetWindowTitle db f).any fun target => containsIgnoringCase target title)

/-- `ORDER BY captured_at ASC, id ASC`. -/
def frameKey (f : StoredFrame) : Int ×ₗ Int := toLex (f.capturedAt, f.id)

def evidenceKey (item : FrameEvidence) : Int ×ₗ Int := toLex (item.capturedAt, item.frameId)

def positionKey (p : FramePosition) : Int ×ₗ Int := toLex (p.capturedAt, p.frameId)

/-- The `page` table expression: the frames of the start time behind the start id, and
the later ones. -/
def framePageRows (request : FramePageRequest) (maximum : Int) (db : FrameTables) :
    List StoredFrame :=
  let after := request.continuation.map FrameContinuation.after
  let startTime := (after.map FramePosition.capturedAt).getD request.window.from
  let startId := (after.map FramePosition.frameId).getD 0
  let atStart := db.frames.filter fun f =>
    f.capturedAt == startTime && decide (f.id > startId) && decide (f.id ≤ maximum)
    && matchesFilters request.filters db f
  let later := db.frames.filter fun f =>
    decide (f.capturedAt > startTime) && decide (f.capturedAt < request.window.to)
    && decide (f.id ≤ maximum) && matchesFilters request.filters db f
  (sortByKey frameKey (atStart ++ later)).take (request.limit + 1)

def rowToEvidence (db : FrameTables) (f : StoredFrame) : FrameEvidence :=
  let text := frameTextOf db f.id
  { frameId := f.id
    capturedAt := f.capturedAt
    monitorIndex := f.monitorIndex
    appHint := targetAppHint db f
    windowTitle := targetWindowTitle db f
    browserUrl := f.browserUrl
    rawText := text.map FrameTextRow.rawText
    contentText := text.map FrameTextRow.contentText
    textSource := text.map FrameTextRow.primarySource
    filterVersion := text.map FrameTextRow.filterVersion
    textState := if text.isSome then .available else .notAvailable
    visionDescription :=
      (db.visionAnalysis.find? fun row => row.frameId == f.id).map VisionRow.description
    sessionId := f.sessionId
    imagePurged := f.imagePurged }

def framePageSnapshot (continuation : Option FrameContinuation) (history : HistoryMetadata)
    (db : FrameTables) : Except HistoryReadError FrameSnapshot :=
  match continuation with
  | some c =>
    if c.snapshot.historyId ≠ history.historyId then .error .historyChanged
    -- deletions may lower MAX(id), never the allocator
    else if c.snapshot.snapshotMaxFrameId > history.frameIdHighWater then .error .invalidRequest
    else .ok c.snapshot
  | none =>
    .ok { historyId := history.historyId, snapshotMaxFrameId := currentMaxFrameId db }

/-- One row more than fits says that another page follows. -/
def storedPage (request : FramePageRequest) (snapshot : FrameSnapshot) (observedAt : Int)
    (found : List FrameEvidence) : StoredFramePage :=
  let items := found.take request.limit
  { items := items
    snapshot := snapshot
    window := request.window
    filters := request.filters
    nextPosition :=
      if found.length > request.limit then
        items.getLast?.map fun item => { capturedAt := item.capturedAt, frameId := item.frameId }
      else none
    observedAt := observedAt }

/-- `observedAt` is the clock, which may fail. -/
def framePage (observedAt : Except HistoryReadError Int) (request : FramePageRequest)
    (db : FrameTables) : Except HistoryReadError StoredFramePage := do
  request.validate
  let history ← readHistoryMetadata db
  let observedAt ← observedAt
  let snapshot ← framePageSnapshot request.continuation history db
  let found := framePageRows request snapshot.snapshotMaxFrameId db
  pure (storedPage request snapshot observedAt (found.map (rowToEvidence db)))

/-! ## One page -/

/-- The frames that a page may hold. -/
def pageMember (window : EvidenceWindow) (filters : FrameFilters) (maximum : Int)
    (db : FrameTables) (f : StoredFrame) : Bool :=
  decide (window.from ≤ f.capturedAt) && decide (f.capturedAt < window.to)
  && decide (f.id ≤ maximum) && matchesFilters filters db f

def pageMembers (window : EvidenceWindow) (filters : FrameFilters) (maximum : Int)
    (db : FrameTables) : List StoredFrame :=
  db.frames.filter (pageMember window filters maximum db)

def afterKey (continuation : Option FrameContinuation) : Option (Int ×ₗ Int) :=
  continuation.map fun c => positionKey c.after

variable {db : FrameTables} {metadata : HistoryMetadata} {request : FramePageRequest}
  {maximum : Int}

theorem behind_some {a : FramePosition} {f : StoredFrame} :
    Keyset.behind (some (positionKey a)) (frameKey f) = true ↔
      a.capturedAt < f.capturedAt ∨ a.capturedAt = f.capturedAt ∧ a.frameId < f.id := by
  show decide (positionKey a < frameKey f) = true ↔ _
  rw [decide_eq_true_eq, positionKey, frameKey, Prod.Lex.toLex_lt_toLex]

/-- The two halves of the query are the members behind the position. -/
theorem framePageRows_eq (maximum : Int) (hPos : ∀ f ∈ db.frames, 0 < f.id)
    (hKeys : (db.frames.map frameKey).Nodup) (hWindow : request.window.from < request.window.to)
    (hContinuation : ∀ c ∈ request.continuation, c.Valid request.window) :
    framePageRows request maximum db =
      (sortByKey frameKey
        ((pageMembers request.window request.filters maximum db).filter fun f =>
          Keyset.behind (afterKey request.continuation) (frameKey f))).take (request.limit + 1) := by
  unfold framePageRows
  dsimp only
  congr 1
  generalize hTime : ((request.continuation.map FrameContinuation.after).map
    FramePosition.capturedAt).getD request.window.from = startTime
  generalize hId : ((request.continuation.map FrameContinuation.after).map
    FramePosition.frameId).getD 0 = startId
  have hRange : request.window.from ≤ startTime ∧ startTime < request.window.to := by
    rcases hCase : request.continuation with - | c <;> rw [hCase] at hTime
    · exact ⟨le_of_eq hTime, hTime ▸ hWindow⟩
    · have hValid := hContinuation c hCase
      exact ⟨hTime ▸ hValid.from_le, hTime ▸ hValid.lt_to⟩
  have hBehind : ∀ f ∈ db.frames, request.window.from ≤ f.capturedAt →
      (Keyset.behind (afterKey request.continuation) (frameKey f) = true ↔
        startTime < f.capturedAt ∨ startTime = f.capturedAt ∧ startId < f.id) := by
    intro f hf hFrom
    rcases hCase : request.continuation with - | c <;> rw [hCase] at hTime hId
    · change request.window.from = startTime at hTime
      change 0 = startId at hId
      have := hPos f hf
      refine iff_of_true rfl ?_
      omega
    · change c.after.capturedAt = startTime at hTime
      change c.after.frameId = startId at hId
      rw [← hTime, ← hId]
      exact behind_some
  generalize hFilters : matchesFilters request.filters db = isMatch
  -- the members behind the position, split by whether they are at its time
  have hHalves := List.filter_append_perm (fun f => f.capturedAt == startTime)
    ((pageMembers request.window request.filters maximum db).filter fun f =>
      Keyset.behind (afterKey request.continuation) (frameKey f))
  refine sortByKey_eq_of_perm frameKey (List.Perm.trans
    (List.Perm.append (List.Perm.of_eq ?_) (List.Perm.of_eq ?_)) hHalves) ?_
  · rw [List.filter_filter, pageMembers, List.filter_filter]
    refine List.filter_congr fun f hf => ?_
    have hBehind := hBehind f hf
    rw [Bool.eq_iff_iff]
    simp only [Bool.and_eq_true, decide_eq_true_eq, beq_iff_eq, pageMember, hFilters,
      and_assoc]
    constructor
    · rintro ⟨hAt, hId, hMax, hMatch⟩
      exact ⟨hAt, (hBehind (by omega)).mpr (by omega), by omega, by omega, hMax, hMatch⟩
    · rintro ⟨hAt, hIs, hFrom, -, hMax, hMatch⟩
      have := (hBehind hFrom).mp hIs
      exact ⟨hAt, by omega, hMax, hMatch⟩
  · rw [List.filter_filter, pageMembers, List.filter_filter]
    refine List.filter_congr fun f hf => ?_
    have hBehind := hBehind f hf
    rw [Bool.eq_iff_iff]
    simp only [Bool.and_eq_true, decide_eq_true_eq, Bool.not_eq_true', beq_eq_false_iff_ne,
      pageMember, hFilters, and_assoc]
    constructor
    · rintro ⟨hLater, hTo, hMax, hMatch⟩
      exact ⟨by omega, (hBehind (by omega)).mpr (by omega), by omega, hTo, hMax, hMatch⟩
    · rintro ⟨hAt, hIs, hFrom, hTo, hMax, hMatch⟩
      have := (hBehind hFrom).mp hIs
      exact ⟨by omega, hTo, hMax, hMatch⟩
  · intro a ha b hb hab
    have hStored : ∀ (p q : StoredFrame → Bool), ∀ f ∈ db.frames.filter p ++ db.frames.filter q,
        f ∈ db.frames := fun p q f hf =>
      (List.mem_append.mp hf).elim List.mem_of_mem_filter List.mem_of_mem_filter
    exact List.inj_on_of_nodup_map hKeys (hStored _ _ a ha) (hStored _ _ b hb) hab

theorem frameKeys_nodup (h : db.WellFormed metadata) : (db.frames.map frameKey).Nodup := by
  refine List.Nodup.of_map (fun k : Int ×ₗ Int => (ofLex k).2) ?_
  rw [List.map_map]
  exact h.ids_nodup

/-- What a page says of the frames it may hold. -/
def pageEvidence (window : EvidenceWindow) (filters : FrameFilters) (maximum : Int)
    (db : FrameTables) : List FrameEvidence :=
  (pageMembers window filters maximum db).map (rowToEvidence db)

theorem pageEvidence_nodup (h : db.WellFormed metadata) (window : EvidenceWindow)
    (filters : FrameFilters) :
    ((pageEvidence window filters maximum db).map evidenceKey).Nodup := by
  rw [pageEvidence, List.map_map]
  exact (frameKeys_nodup h).sublist (List.filter_sublist.map frameKey)

/-- The page's rows, as what they say. -/
theorem framePageRows_evidence (hRows : framePageRows request maximum db =
      (sortByKey frameKey ((pageMembers request.window request.filters maximum db).filter fun f =>
        Keyset.behind (afterKey request.continuation) (frameKey f))).take (request.limit + 1)) :
    (framePageRows request maximum db).map (rowToEvidence db) =
      (sortByKey evidenceKey ((pageEvidence request.window request.filters maximum db).filter
        fun item => Keyset.behind (afterKey request.continuation) (evidenceKey item))).take
          (request.limit + 1) := by
  rw [hRows, List.map_take, map_sortByKey frameKey evidenceKey (rowToEvidence db) fun _ => rfl,
    pageEvidence, List.filter_map]
  rfl

/-- A continuation that a store with this metadata can have given out. -/
structure GivenOut (window : EvidenceWindow) (metadata : HistoryMetadata)
    (c : FrameContinuation) : Prop where
  valid : c.Valid window
  historyId : c.snapshot.historyId = metadata.historyId
  max_le : c.snapshot.snapshotMaxFrameId ≤ metadata.frameIdHighWater

/-- The snapshot a page is read in. -/
def pageSnapshot (continuation : Option FrameContinuation) (metadata : HistoryMetadata)
    (db : FrameTables) : FrameSnapshot :=
  (continuation.map FrameContinuation.snapshot).getD
    { historyId := metadata.historyId, snapshotMaxFrameId := currentMaxFrameId db }

theorem framePageSnapshot_ok {window : EvidenceWindow} {continuation : Option FrameContinuation}
    (hContinuation : ∀ c ∈ continuation, GivenOut window metadata c) :
    framePageSnapshot continuation metadata db = .ok (pageSnapshot continuation metadata db) := by
  unfold framePageSnapshot
  rcases continuation with - | c
  · rfl
  · have hFrom := hContinuation c rfl
    have := hFrom.max_le
    dsimp only
    rw [if_neg (not_not.mpr hFrom.historyId), if_neg (by omega)]
    rfl

/-- A page that is the keyset page of the members. -/
structure IsPage (request : FramePageRequest) (snapshot : FrameSnapshot) (db : FrameTables)
    (page : StoredFramePage) : Prop where
  snapshot_eq : page.snapshot = snapshot
  items_eq : page.items = (Keyset.page evidenceKey (afterKey request.continuation) request.limit
    (pageEvidence request.window request.filters snapshot.snapshotMaxFrameId db)).items
  next_eq : page.nextPosition.map positionKey =
    (Keyset.page evidenceKey (afterKey request.continuation) request.limit
      (pageEvidence request.window request.filters snapshot.snapshotMaxFrameId db)).next

/-- What a request that passes its checks makes. -/
theorem framePage_eq (h : db.WellFormed metadata) (hValid : request.validate = .ok ())
    (hContinuation : ∀ c ∈ request.continuation, GivenOut request.window metadata c) (now : Int) :
    framePage (.ok now) request db =
      .ok (storedPage request (pageSnapshot request.continuation metadata db) now
        ((framePageRows request
          (pageSnapshot request.continuation metadata db).snapshotMaxFrameId db).map
            (rowToEvidence db))) := by
  unfold framePage
  rw [hValid, h.read]
  show (framePageSnapshot request.continuation metadata db >>= _) = _
  rw [framePageSnapshot_ok hContinuation]
  rfl

/-- A request that makes sense succeeds. -/
theorem framePage_ok (h : db.WellFormed metadata)
    (hPlain : FramePageRequest.Plain request.window request.filters request.limit)
    (hContinuation : ∀ c ∈ request.continuation, GivenOut request.window metadata c) (now : Int) :
    ∃ page, framePage (.ok now) request db = .ok page :=
  ⟨_, framePage_eq h (FramePageRequest.validate_ok.mpr
    ⟨hPlain, fun c hc => (hContinuation c hc).valid⟩) hContinuation now⟩

/-- What a page is read of was given out. -/
theorem framePage_givenOut (h : db.WellFormed metadata) {clock : Except HistoryReadError Int}
    {page : StoredFramePage} (hPage : framePage clock request db = .ok page) :
    ∀ c ∈ request.continuation, GivenOut request.window metadata c := by
  intro c hc
  rcases hValid : request.validate with e | u
  · unfold framePage at hPage
    rw [hValid] at hPage
    cases hPage
  have hC := (FramePageRequest.validate_ok.mp hValid).2 c hc
  rcases clock with e | now
  · unfold framePage at hPage
    rw [hValid, h.read] at hPage
    cases hPage
  unfold framePage at hPage
  rw [hValid, h.read, Option.mem_def.mp hc] at hPage
  change (framePageSnapshot (some c) metadata db >>= _) = _ at hPage
  unfold framePageSnapshot at hPage
  dsimp only at hPage
  split at hPage
  · cases hPage
  · next hHistory =>
    split at hPage
    · cases hPage
    · exact ⟨hC, not_not.mp hHistory, by omega⟩

/-- A page that is read from a well-formed store is a keyset page of its members. -/
theorem framePage_isPage (h : db.WellFormed metadata)
    (hContinuation : ∀ c ∈ request.continuation, GivenOut request.window metadata c)
    {clock : Except HistoryReadError Int} {page : StoredFramePage}
    (hPage : framePage clock request db = .ok page) :
    FramePageRequest.Plain request.window request.filters request.limit ∧
      IsPage request (pageSnapshot request.continuation metadata db) db page := by
  rcases hValid : request.validate with e | u
  · unfold framePage at hPage
    rw [hValid] at hPage
    cases hPage
  rcases clock with e | now
  · unfold framePage at hPage
    rw [hValid, h.read] at hPage
    cases hPage
  rw [framePage_eq h hValid hContinuation] at hPage
  cases hPage
  obtain ⟨hPlain, -⟩ := FramePageRequest.validate_ok.mp hValid
  have hRows := framePageRows_evidence (framePageRows_eq
    (pageSnapshot request.continuation metadata db).snapshotMaxFrameId h.ids_pos
    (frameKeys_nodup h) (EvidenceWindow.validate_lt hPlain.window)
    fun c hc => (hContinuation c hc).valid)
  refine ⟨hPlain, rfl, ?_, ?_⟩
  · show ((framePageRows ..).map (rowToEvidence db)).take request.limit = _
    exact congrArg (List.take request.limit) hRows
  · unfold storedPage Keyset.page
    dsimp only
    rw [← hRows, apply_ite (Option.map positionKey), Option.map_map]
    rfl

/-! ## Walks -/

def nextContinuation (page : StoredFramePage) : Option FrameContinuation :=
  page.nextPosition.map fun after => { snapshot := page.snapshot, after := after }

/-- A request of a walk is a limit, and the clock at its time. -/
abbrev FrameAsk := Nat × Except HistoryReadError Int

/-- A reader that keeps the window and the filters from page to page. -/
def frameReader (window : EvidenceWindow) (filters : FrameFilters) :
    Keyset.Reader FrameTables FrameWrite FrameAsk FrameContinuation StoredFramePage where
  apply := fun db write => write.apply db
  ask := fun continuation (limit, clock) db =>
    (framePage clock ⟨window, filters, limit, continuation⟩ db).toOption
  next := nextContinuation

abbrev FrameEvent := Keyset.Event FrameWrite FrameAsk

abbrev PageRead := Keyset.Answer FrameTables FrameContinuation StoredFramePage

/-- The pages from the first one on, until one says that nothing is next. -/
def frameWalk (window : EvidenceWindow) (filters : FrameFilters) (db : FrameTables)
    (events : List FrameEvent) : List PageRead :=
  (frameReader window filters).walk none db events

/-- The page, with the rows that were there. -/
def frameRead (window : EvidenceWindow) (filters : FrameFilters) (read : PageRead) :
    Keyset.Read FrameEvidence (Int ×ₗ Int) where
  after := afterKey read.continuation
  rows := pageEvidence window filters read.page.snapshot.snapshotMaxFrameId read.table
  items := read.page.items
  next := read.page.nextPosition.map positionKey

/-- A store and a continuation that it gave out. -/
def FramesGood (window : EvidenceWindow) (db : FrameTables) (continuation : Option FrameContinuation) :
    Prop :=
  ∃ metadata, db.WellFormed metadata ∧ ∀ c ∈ continuation, GivenOut window metadata c

variable {window : EvidenceWindow} {filters : FrameFilters}
  {continuation : Option FrameContinuation} {request : FrameAsk} {page : StoredFramePage}

theorem toOption_some {ε α : Type} {x : Except ε α} {a : α} (h : x.toOption = some a) :
    x = .ok a := by
  rcases x with e | b
  · cases h
  · exact congrArg Except.ok (Option.some.inj h)

theorem GivenOut.mono {c : FrameContinuation} (h : GivenOut window metadata c) {highWater : Nat}
    (hLe : metadata.frameIdHighWater ≤ highWater) :
    GivenOut window { metadata with frameIdHighWater := highWater } c :=
  ⟨h.valid, h.historyId, h.max_le.trans (Int.ofNat_le.mpr hLe)⟩

/-- What a page that is asked for is. -/
theorem ask_isPage (h : db.WellFormed metadata)
    (hContinuation : ∀ c ∈ continuation, GivenOut window metadata c)
    (hAsk : (frameReader window filters).ask continuation request db = some page) :
    1 ≤ request.1 ∧
      IsPage ⟨window, filters, request.1, continuation⟩ (pageSnapshot continuation metadata db)
        db page := by
  obtain ⟨hPlain, hIsPage⟩ := framePage_isPage h hContinuation (toOption_some hAsk)
  exact ⟨hPlain.limit_pos, hIsPage⟩

theorem IsPage.faithful {limit : Nat} {snapshot : FrameSnapshot} (h : db.WellFormed metadata)
    (hLimit : 1 ≤ limit) (hPage : IsPage ⟨window, filters, limit, continuation⟩ snapshot db page) :
    (frameRead window filters ⟨continuation, db, page⟩).Faithful evidenceKey := by
  have hFaithful := @Keyset.page_faithful _ _ _ evidenceKey (afterKey continuation) limit _
    (@pageEvidence_nodup db metadata snapshot.snapshotMaxFrameId h window filters) hLimit
  unfold frameRead
  dsimp only
  rw [hPage.items_eq, hPage.next_eq, hPage.snapshot_eq]
  exact hFaithful

theorem pageSnapshot_historyId (hContinuation : ∀ c ∈ continuation, GivenOut window metadata c) :
    (pageSnapshot continuation metadata db).historyId = metadata.historyId := by
  rcases continuation with - | c
  · rfl
  · exact (hContinuation c rfl).historyId

theorem pageSnapshot_max_le (h : db.WellFormed metadata)
    (hContinuation : ∀ c ∈ continuation, GivenOut window metadata c) :
    (pageSnapshot continuation metadata db).snapshotMaxFrameId ≤ metadata.frameIdHighWater := by
  rcases continuation with - | c
  · exact Int.ofNat_le.mpr (currentMaxFrameId_le h.ids_le)
  · exact (hContinuation c rfl).max_le

theorem mem_pageEvidence {item : FrameEvidence} :
    item ∈ pageEvidence window filters maximum db ↔
      ∃ f ∈ db.frames, item = rowToEvidence db f ∧ window.from ≤ f.capturedAt ∧
        f.capturedAt < window.to ∧ f.id ≤ maximum ∧ matchesFilters filters db f = true := by
  simp only [pageEvidence, pageMembers, List.mem_map, List.mem_filter, pageMember,
    Bool.and_eq_true, decide_eq_true_eq]
  constructor
  · rintro ⟨f, ⟨hStored, ⟨⟨hFrom, hTo⟩, hMax⟩, hMatch⟩, rfl⟩
    exact ⟨f, hStored, rfl, hFrom, hTo, hMax, hMatch⟩
  · rintro ⟨f, hStored, rfl, hFrom, hTo, hMax, hMatch⟩
    exact ⟨f, ⟨hStored, ⟨⟨hFrom, hTo⟩, hMax⟩, hMatch⟩, rfl⟩

/-- The continuation that a page gives out is valid. -/
theorem nextContinuation_givenOut {limit : Nat} {page : StoredFramePage} {next : FrameContinuation}
    (h : db.WellFormed metadata) (hContinuation : ∀ c ∈ continuation, GivenOut window metadata c)
    (hLimit : 1 ≤ limit)
    (hPage : IsPage ⟨window, filters, limit, continuation⟩ (pageSnapshot continuation metadata db)
      db page)
    (hNext : nextContinuation page = some next) : GivenOut window metadata next := by
  have hFaithful := hPage.faithful h hLimit
  obtain ⟨after, hAfter, rfl⟩ := Option.map_eq_some_iff.mp hNext
  obtain ⟨item, hItem, hKey⟩ := hFaithful.next (positionKey after) (by
    show page.nextPosition.map positionKey = _
    rw [hAfter]; rfl)
  obtain ⟨f, hStored, rfl, hFrom, hTo, hMax, -⟩ := mem_pageEvidence.mp (hFaithful.mem.mp hItem).1
  have hTime : f.capturedAt = after.capturedAt :=
    congrArg (fun k : Int ×ₗ Int => (ofLex k).1) hKey
  have hId : f.id = after.frameId := congrArg (fun k : Int ×ₗ Int => (ofLex k).2) hKey
  have hHistory : page.snapshot.historyId = metadata.historyId := by
    rw [hPage.snapshot_eq, pageSnapshot_historyId hContinuation]
  refine ⟨⟨?_, ?_, ?_, ?_, ?_⟩, hHistory, ?_⟩
  · show validHistoryId page.snapshot.historyId = true
    rw [hHistory]
    exact h.valid
  · exact hId ▸ h.ids_pos f hStored
  · exact hId ▸ hMax
  · exact hTime ▸ hFrom
  · exact hTime ▸ hTo
  · show page.snapshot.snapshotMaxFrameId ≤ _
    rw [hPage.snapshot_eq]
    exact pageSnapshot_max_le h hContinuation

theorem frameReader_keeps : (frameReader window filters).Keeps (FramesGood window) where
  write := by
    rintro db c write ⟨metadata, h, hContinuation⟩
    obtain ⟨highWater, hLe, hWell, -⟩ := write.apply_wellFormed h
    exact ⟨_, hWell, fun c hc => (hContinuation c hc).mono hLe⟩
  ask := by
    rintro db c request page next ⟨metadata, h, hContinuation⟩ hAsk hNext
    obtain ⟨hLimit, hIsPage⟩ := ask_isPage h hContinuation hAsk
    have hGiven := nextContinuation_givenOut h hContinuation hLimit hIsPage hNext
    exact ⟨metadata, h, fun c hc => Option.some.inj hc ▸ hGiven⟩

theorem frameReader_pages : (frameReader window filters).Pages evidenceKey (FramesGood window)
    (fun c => positionKey c.after) (frameRead window filters) where
  faithful := by
    rintro db c request page ⟨metadata, h, hContinuation⟩ hAsk
    obtain ⟨hLimit, hIsPage⟩ := ask_isPage h hContinuation hAsk
    exact hIsPage.faithful h hLimit
  after := fun _ => rfl
  next := by
    rintro ⟨c, db, page⟩
    show page.nextPosition.map positionKey = (nextContinuation page).map _
    rw [nextContinuation, Option.map_map]
    rfl

/-- What a later page may hold was there when the first was read. -/
structure FramesSince (window : EvidenceWindow) (first : FrameTables) (maximum : Int)
    (db : FrameTables) (continuation : Option FrameContinuation) : Prop where
  good : FramesGood window db continuation
  max_eq : ∃ c, continuation = some c ∧ c.snapshot.snapshotMaxFrameId = maximum
  kept : ∀ frame ∈ db.frames, frame.id ≤ maximum → frame ∈ first.frames

theorem frameReader_since {first : FrameTables} {maximum : Int} :
    (frameReader window filters).Keeps (FramesSince window first maximum) where
  write := by
    rintro db continuation write ⟨hGood, ⟨c, rfl, hMax⟩, hKept⟩
    refine ⟨frameReader_keeps.write write hGood, ⟨c, rfl, hMax⟩, fun frame hFrame hLe => ?_⟩
    obtain ⟨metadata, h, hContinuation⟩ := hGood
    obtain ⟨-, -, -, hOld⟩ := write.apply_wellFormed h
    have hHighWater := (hContinuation c rfl).max_le
    exact hKept frame (hOld frame hFrame (by omega)) hLe
  ask := by
    rintro db continuation request page next ⟨hGood, ⟨c, rfl, hMax⟩, hKept⟩ hAsk hNext
    refine ⟨frameReader_keeps.ask hGood hAsk hNext, ⟨next, rfl, ?_⟩, hKept⟩
    obtain ⟨metadata, h, hContinuation⟩ := hGood
    obtain ⟨after, -, rfl⟩ := Option.map_eq_some_iff.mp hNext
    show page.snapshot.snapshotMaxFrameId = maximum
    rw [(ask_isPage h hContinuation hAsk).2.snapshot_eq]
    exact hMax

/-- What every page of a walk may hold was there at the first one, and all that was there
it may hold. -/
theorem frameWalk_first (h : db.WellFormed metadata) (events : List FrameEvent) {first : PageRead}
    (hFirst : first ∈ (frameWalk window filters db events).head?) :
    (first.table.frames.map StoredFrame.id).Nodup ∧
    ∃ maximum, (∀ frame ∈ first.table.frames, frame.id ≤ maximum) ∧
      ∀ read ∈ frameWalk window filters db events,
        read.page.snapshot.snapshotMaxFrameId = maximum ∧
        ∀ frame ∈ read.table.frames, frame.id ≤ maximum → frame ∈ first.table.frames := by
  have hGood : FramesGood window db none := ⟨metadata, h, fun _ hc => by cases hc⟩
  obtain ⟨⟨⟨metadata, h, hContinuation⟩, request, hAsk⟩, hOthers⟩ :=
    Keyset.Reader.walk_head frameReader_keeps events hGood first hFirst
  obtain ⟨hLimit, hIsPage⟩ := ask_isPage h hContinuation hAsk
  refine ⟨h.ids_nodup, first.page.snapshot.snapshotMaxFrameId, fun frame hFrame => ?_,
    fun read hRead => ?_⟩
  · rw [hIsPage.snapshot_eq]
    exact le_currentMaxFrameId hFrame
  · rcases hOthers read hRead with rfl | ⟨next, rest, hNext, hIn⟩
    · exact ⟨rfl, fun _ hFrame _ => hFrame⟩
    have hNextGood := frameReader_keeps.ask ⟨metadata, h, hContinuation⟩ hAsk hNext
    have hMax : next.snapshot.snapshotMaxFrameId = first.page.snapshot.snapshotMaxFrameId := by
      obtain ⟨after, -, rfl⟩ := Option.map_eq_some_iff.mp hNext
      rfl
    obtain ⟨⟨hGood, ⟨c, hc, hMaxEq⟩, hKept⟩, again, hAgain⟩ := Keyset.Reader.walk_kept
      frameReader_since rest ⟨hNextGood, ⟨next, rfl, hMax⟩, fun _ hFrame _ => hFrame⟩ read hIn
    refine ⟨?_, hKept⟩
    obtain ⟨metadata, h, hContinuation⟩ := hGood
    rw [(ask_isPage h hContinuation hAgain).2.snapshot_eq, hc]
    exact hMaxEq

/-! ## What a walk returns -/

/-- The page's range, from behind the position it was asked for to the one it gave. -/
def pageCovers (read : PageRead) (frame : StoredFrame) : Bool :=
  Keyset.upTo (read.page.nextPosition.map positionKey) (frameKey frame)
  && Keyset.behind (afterKey read.continuation) (frameKey frame)

/-- The last page says that nothing is next. -/
def walkFinished (reads : List PageRead) : Prop :=
  ∃ read ∈ reads.getLast?, nextContinuation read.page = none

/-- A request with a limit in range, at a time that can be read. -/
def askValid : FrameEvent → Prop
  | .write _ => True
  | .ask (limit, clock) => (1 ≤ limit ∧ limit ≤ framePageMaxLimit) ∧ ∃ now, clock = .ok now

/-- No request of a walk fails. -/
theorem frameWalk_length (hWindow : window.validate = .ok ()) (hFilters : filters.validate = .ok ())
    (h : db.WellFormed metadata) {events : List FrameEvent} (hValid : ∀ event ∈ events, askValid event)
    (hOpen : ¬ walkFinished (frameWalk window filters db events)) :
    (frameWalk window filters db events).length = events.countP Keyset.Event.isAsk := by
  have hGood : FramesGood window db none := ⟨metadata, h, fun _ hc => by cases hc⟩
  refine Keyset.Reader.walk_length frameReader_keeps events ?_ hGood hOpen
  rintro db c ⟨limit, clock⟩ ⟨metadata, h, hContinuation⟩ hIn
  obtain ⟨⟨hPos, hLe⟩, now, rfl⟩ := hValid _ hIn
  obtain ⟨page, hPage⟩ := @framePage_ok db metadata ⟨window, filters, limit, c⟩ h
    ⟨hWindow, hFilters, hPos, hLe⟩ hContinuation now
  show ((framePage (.ok now) ⟨window, filters, limit, c⟩ db).toOption).isSome = true
  rw [hPage]
  rfl

/-- A row of a page is a frame of the first page's store. -/
theorem rows_stored (h : db.WellFormed metadata) {events : List FrameEvent} {first read : PageRead}
    {item : FrameEvidence} (hFirst : first ∈ (frameWalk window filters db events).head?)
    (hRead : read ∈ frameWalk window filters db events)
    (hItem : item ∈ (frameRead window filters read).rows) :
    ∃ frame ∈ first.table.frames, frame ∈ read.table.frames ∧
      item = rowToEvidence read.table frame ∧ matchesFilters filters read.table frame = true := by
  obtain ⟨-, maximum, -, hReads⟩ := frameWalk_first h events hFirst
  obtain ⟨frame, hStored, hEq, -, -, hMax, hMatch⟩ := mem_pageEvidence.mp hItem
  obtain ⟨hMaxEq, hKept⟩ := hReads read hRead
  exact ⟨frame, hKept frame hStored (hMaxEq ▸ hMax), hStored, hEq, hMatch⟩

/-- **What following the pages returns**, for every order of writes and requests:
strictly ordered, only frames that the first page's store had, and of these exactly the
ones that are stored and match when their page is read. A walk whose requests make sense
goes on without a failure and comes to an end. -/
theorem frame_pages_complete (h : db.WellFormed metadata) (window : EvidenceWindow)
    (filters : FrameFilters) (events : List FrameEvent) :
    let reads := frameWalk window filters db events
    let returned := reads.flatMap fun read => read.page.items
    returned.Pairwise (fun a b => evidenceKey a < evidenceKey b) ∧
    (∀ first ∈ reads.head?,
      (∀ item ∈ returned, ∃ frame ∈ first.table.frames,
        frame.id = item.frameId ∧ frame.capturedAt = item.capturedAt) ∧
      (walkFinished reads → ∀ frame ∈ first.table.frames,
        window.from ≤ frame.capturedAt → frame.capturedAt < window.to →
        ∃ read ∈ reads, pageCovers read frame = true ∧
          ((∃ item ∈ returned, item.frameId = frame.id) ↔
            frame ∈ read.table.frames ∧ matchesFilters filters read.table frame = true)) ∧
      (¬ walkFinished reads → reads.length ≤ first.table.frames.length)) ∧
    (window.validate = .ok () → filters.validate = .ok () → (∀ event ∈ events, askValid event) →
      ¬ walkFinished reads → reads.length = events.countP Keyset.Event.isAsk) := by
  intro reads returned
  have hGood : FramesGood window db none := ⟨metadata, h, fun _ hc => by cases hc⟩
  have hReturned : returned = Keyset.returned (reads.map (frameRead window filters)) := by
    rw [Keyset.returned, List.flatMap_map]
    rfl
  -- every returned item is on a page, and so a frame of the first page's store
  have hStored : ∀ first ∈ reads.head?, ∀ item ∈ returned, ∃ frame ∈ first.table.frames,
      frame.id = item.frameId ∧ frame.capturedAt = item.capturedAt := by
    intro first hFirst item hItem
    rw [hReturned] at hItem
    obtain ⟨read, hRead, hRows, -⟩ :=
      Keyset.Reader.walk_returned frameReader_keeps frameReader_pages events hGood hItem
    obtain ⟨frame, hFrame, -, rfl, -⟩ := rows_stored h hFirst hRead hRows
    exact ⟨frame, hFrame, rfl, rfl⟩
  refine ⟨?_, fun first hFirst => ⟨hStored first hFirst, ?_, ?_⟩, ?_⟩
  · rw [hReturned]
    exact (Keyset.Reader.walk_chain frameReader_keeps frameReader_pages events hGood).sorted
  · intro hFinished frame hFrame hFrom hTo
    obtain ⟨hNodup, maximum, hMax, hReads⟩ := frameWalk_first h events hFirst
    obtain ⟨read, hRead, hCovers, hFound⟩ := Keyset.Reader.walk_found frameReader_keeps
      frameReader_pages events hGood hFinished (k := frameKey frame) rfl
    refine ⟨read, hRead, hCovers, ?_, ?_⟩
    · rintro ⟨item, hItem, hId⟩
      obtain ⟨found, hIn, hFoundId, hFoundAt⟩ := hStored first hFirst item hItem
      obtain rfl := List.inj_on_of_nodup_map hNodup hIn hFrame (hFoundId.trans hId)
      rw [hReturned] at hItem
      have hKey : evidenceKey item = frameKey found := by
        rw [evidenceKey, frameKey, hFoundId, hFoundAt]
      have hRow := (hFound item hKey).mp hItem
      obtain ⟨again, hAgain, hStored, rfl, hMatch⟩ := rows_stored h hFirst hRead hRow
      obtain rfl := List.inj_on_of_nodup_map hNodup hAgain hFrame hFoundId.symm
      exact ⟨hStored, hMatch⟩
    · rintro ⟨hStored, hMatch⟩
      refine ⟨rowToEvidence read.table frame, ?_, rfl⟩
      rw [hReturned]
      refine (hFound _ rfl).mpr (mem_pageEvidence.mpr
        ⟨frame, hStored, rfl, hFrom, hTo, ?_, hMatch⟩)
      rw [(hReads read hRead).1]
      exact hMax frame hFrame
  · intro hOpen
    rw [← List.length_map (f := frameKey)]
    refine Keyset.Reader.walk_length_le frameReader_keeps frameReader_pages events hGood hOpen ?_
    intro item hItem
    change item ∈ Keyset.returned (reads.map (frameRead window filters)) at hItem
    rw [← hReturned] at hItem
    obtain ⟨frame, hFrame, hId, hAt⟩ := hStored first hFirst item hItem
    refine List.mem_map.mpr ⟨frame, hFrame, ?_⟩
    rw [evidenceKey, frameKey, hId, hAt]
  · exact fun hWindow hFilters hValid hOpen =>
      frameWalk_length hWindow hFilters h hValid hOpen

def plainFrame (id capturedAt : Int) : StoredFrame where
  id := id
  capturedAt := capturedAt
  monitorIndex := 0
  appHint := some "Code.exe"
  windowTitle := none
  browserUrl := none
  activityType := none
  sessionId := none
  imagePurged := false

/-- Three frames, two of them captured at the same time. -/
def threeFrames : FrameTables where
  historyId := none
  frameIdHighWater := none
  frames := [plainFrame 1 20, plainFrame 2 10, plainFrame 3 20]
  frameText := []
  visionAnalysis := []

def sampleHistory : FrameTables :=
  setupHistoryMetadata "00000000-0000-4000-8000-000000000000" threeFrames

/-- Between the first page and the second a frame arrives late and one is deleted. -/
def lateArrival : List FrameEvent :=
  [.ask (1, .ok 0),
    .write (.insert
      { capturedAt := 15, monitorIndex := 0, appHint := some "Code.exe", windowTitle := none,
        browserUrl := none }),
    .write (.delete 3), .ask (1, .ok 0)]

theorem frame_pages_complete_lateArrival :
    let reads := frameWalk ⟨0, 100⟩ ⟨some "code.EXE", none⟩ sampleHistory lateArrival
    reads.map (fun read => read.page.items.map FrameEvidence.frameId) = [[2], [1]] ∧
    (reads.flatMap fun read => read.page.items).Pairwise
      (fun a b => evidenceKey a < evidenceKey b) := by
  have hWell : sampleHistory.WellFormed
      ⟨"00000000-0000-4000-8000-000000000000", currentMaxFrameId threeFrames⟩ :=
    setupHistoryMetadata_wellFormed (by decide +kernel) ⟨rfl, rfl⟩ (by decide) (by decide)
      (by decide)
  exact ⟨by decide +kernel, (frame_pages_complete hWell ⟨0, 100⟩ ⟨some "code.EXE", none⟩
    lateArrival).1⟩

end ScreenSearch.Store
