import Mathlib.Data.List.MinMax
import ScreenSearch.Lib.Batch
import ScreenSearch.Sessions.Segmenter
import ScreenSearch.Store.Frozen

/-!
# What the session scheduler reads and writes

The queries over the session tables, the artifact statements, and for the
statements of `Sessions` what they leave behind when they succeed:

* `assignFramesSession_ok` — the chunks of one call act like one update, and the
  count is the number of frames that may change hands;
* `deleteUnfrozenSession_ok`, `insertSession_ok`, `updateUnfrozenSession_ok`.
-/

namespace ScreenSearch.Store

open Sorting

/-- A row of `frame_text`. -/
structure FrameText where
  frameId : Int
  contentText : String
  deriving DecidableEq, Repr

/-! ## Queries -/

def unfrozenSessions (db : Tables) : List Session :=
  sortByKey (fun session : Session => toLex (session.startedAt, session.id))
    (db.sessions.filter fun session => !session.frozen)

/-- The predicates of a filter. An open session ends now. -/
def inRange (filter : SessionFilter) (session : Session) : Bool :=
  (filter.fromMs.all fun fromMs => decide (fromMs < session.endedAt.getD filter.nowMs)) &&
    (filter.toMs.all fun toMs => decide (session.startedAt < toMs)) &&
    (filter.kind.all fun kind => session.kind == kind) &&
    (filter.tool.all fun tool => session.tool == some tool)

def sessionsInRange (filter : SessionFilter) (db : Tables) : List Session :=
  let rows := sortByKey (fun session : Session =>
    toLex (OrderDual.toDual session.startedAt, OrderDual.toDual session.id))
    (db.sessions.filter (inRange filter))
  match filter.limit with
  | some limit => rows.take (min limit 10000)
  | none => rows

def getSession (id : Int) (db : Tables) : Option Session :=
  db.sessions.find? fun session => session.id == id

def sessionFramesMeta (sessionId : Int) (db : Tables) : List SegmenterFrame :=
  sortByKey Sessions.timeKey
    ((db.frames.filter fun row => row.sessionId = some sessionId).map FrameRow.frame)

def framesMetaInRange (fromMs toMs : Int) (db : Tables) : List SegmenterFrame :=
  if toMs ≤ fromMs then []
  else
    sortByKey Sessions.timeKey
      ((db.frames.map FrameRow.frame).filter fun frame =>
        decide (fromMs ≤ frame.capturedAt) && decide (frame.capturedAt < toMs))

/-- The first row of each of `limit` even buckets. -/
def sampleFramesInRange (start stop : Int) (limit : Nat) (db : Tables) : List SegmenterFrame :=
  if stop ≤ start ∨ limit = 0 then []
  else
    let ranked := framesMetaInRange start stop db
    let first := fun entry : SegmenterFrame × Nat =>
      decide (entry.2 = 0) ||
        decide (entry.2 * limit / ranked.length ≠ (entry.2 - 1) * limit / ranked.length)
    ((ranked.zipIdx.filter first).map Prod.fst).take limit

/-- `trim` of one argument removes spaces only. -/
def isBlank (text : String) : Bool := text.all fun c => c == ' '

/-- The rows of one chunk of ids, in table order. -/
def contentTextsOfChunk (texts : List FrameText) (db : Tables) (chunk : List Int) :
    List SessionContent :=
  db.frames.flatMap fun row =>
    if row.frame.id ∈ chunk then
      (texts.filter fun text => text.frameId = row.frame.id ∧ ¬ isBlank text.contentText).map
        fun text =>
          { frameId := row.frame.id
            capturedAt := row.frame.capturedAt
            contentText := text.contentText }
    else []

def contentTextsForFrames (frameIds : List Int) (texts : List FrameText) (db : Tables) :
    List SessionContent :=
  sortByKey (fun content : SessionContent => toLex (content.capturedAt, content.frameId))
    ((frameIds.toChunks 400).flatMap (contentTextsOfChunk texts db))

/-- The texts do not depend on who owns the frames. -/
theorem contentTextsForFrames_congr {db db' : Tables}
    (h : db'.frames.map FrameRow.frame = db.frames.map FrameRow.frame) (frameIds : List Int)
    (texts : List FrameText) :
    contentTextsForFrames frameIds texts db' = contentTextsForFrames frameIds texts db := by
  have hchunk : ∀ chunk, contentTextsOfChunk texts db' chunk = contentTextsOfChunk texts db chunk := by
    intro chunk
    unfold contentTextsOfChunk
    have hmap : ∀ rows : List FrameRow, rows.flatMap (fun row =>
        if row.frame.id ∈ chunk then
          (texts.filter fun text => text.frameId = row.frame.id ∧ ¬ isBlank text.contentText).map
            fun text => SessionContent.mk row.frame.id row.frame.capturedAt text.contentText
        else []) = (rows.map FrameRow.frame).flatMap (fun frame =>
        if frame.id ∈ chunk then
          (texts.filter fun text => text.frameId = frame.id ∧ ¬ isBlank text.contentText).map
            fun text => SessionContent.mk frame.id frame.capturedAt text.contentText
        else []) := by
      intro rows
      rw [List.flatMap_map]
    rw [hmap, hmap, h]
  rw [contentTextsForFrames, contentTextsForFrames, funext hchunk]

/-! ## Artifacts -/

def listSessionArtifacts (sessionId : Int) (db : Tables) : List SessionArtifact :=
  sortByKey (fun artifact : SessionArtifact => toLex (artifact.createdAt, artifact.id))
    (db.artifacts.filter fun artifact => artifact.sessionId = sessionId)

/-- An exchange has a role, the reserved kinds have none. -/
def roleCheck (artifact : NewSessionArtifact) : Bool :=
  match artifact.kind with
  | .exchange => artifact.role.isSome
  | .transcript | .note => artifact.role.isNone

def insertArtifact (sessionId clock : Int) (artifact : NewSessionArtifact) : Statement Int :=
  fun db =>
    if !roleCheck artifact then .error .check
    else if (db.sessions.all fun session => session.id ≠ sessionId) ||
        (artifact.frameId.any fun frameId => db.frames.all fun row => row.frame.id ≠ frameId) then
      .error .foreignKey
    else
      let id := nextRowid (db.artifacts.map SessionArtifact.id)
      .ok (id, { db with artifacts := db.artifacts ++
        [{ id := id
           sessionId := sessionId
           kind := artifact.kind
           role := artifact.role
           frameId := artifact.frameId
           content := artifact.content
           createdAt := clock }] })

/-- All rows in one transaction, under one reading of the clock. -/
def insertSessionArtifacts (sessionId : Int) (artifacts : List NewSessionArtifact)
    (clock : Int) : Statement (List Int) := fun db =>
  artifacts.foldlM (fun (state : List Int × Tables) artifact => do
    let (id, after) ← insertArtifact sessionId clock artifact state.2
    return (state.1 ++ [id], after)) ([], db)

def deleteSessionArtifactsByKind (sessionId : Int) (kind : SessionArtifactKind) :
    Statement Nat := fun db =>
  let isMatch := fun artifact : SessionArtifact =>
    decide (artifact.sessionId = sessionId) && artifact.kind == kind
  .ok (db.artifacts.countP isMatch,
    { db with artifacts := db.artifacts.filter fun artifact => !isMatch artifact })

/-! ## What a successful statement leaves behind -/

theorem insertSession_ok {session : NewSession} {clock id : Int} {db db' : Tables}
    (h : insertSession session clock db = .ok (id, db')) :
    id = nextRowid (db.sessions.map Session.id) ∧ db'.frames = db.frames ∧
      db'.artifacts = db.artifacts ∧
      ∃ row : Session, db'.sessions = db.sessions ++ [row] ∧ row.id = id ∧
        recorded row = session := by
  rw [insertSession] at h
  split at h
  · simp only [Except.ok.injEq, Prod.mk.injEq] at h
    obtain ⟨rfl, rfl⟩ := h
    exact ⟨rfl, rfl, rfl, _, rfl, rfl, rfl⟩
  · cases h

/-- What an update does to the row it is about. -/
def rewritten (session : NewSession) (clock : Int) (row : Session) : Session :=
  { row with
    startedAt := session.startedAt
    endedAt := session.endedAt
    kind := session.kind
    tool := session.tool
    host := session.host
    contextKey := session.contextKey
    confidence := session.confidence
    updatedAt := clock }

theorem recorded_rewritten (session : NewSession) (clock : Int) (row : Session) :
    recorded (rewritten session clock row) = { session with frozen := row.frozen } := rfl

theorem updateUnfrozenSession_ok {id : Int} {session : NewSession} {clock : Int} {found : Bool}
    {db db' : Tables} (h : updateUnfrozenSession id session clock db = .ok (found, db')) :
    db'.frames = db.frames ∧ db'.artifacts = db.artifacts ∧
      db'.sessions = (db.sessions.map fun row =>
        if row.id == id && !row.frozen then rewritten session clock row else row) ∧
      found = db.sessions.any fun row => row.id == id && !row.frozen := by
  simp only [updateUnfrozenSession, updateSessions] at h
  split at h
  · simp only [Except.ok.injEq, Prod.mk.injEq] at h
    obtain ⟨rfl, rfl⟩ := h
    refine ⟨rfl, rfl, rfl, ?_⟩
    rw [Bool.eq_iff_iff, decide_eq_true_eq, List.countP_pos_iff, List.any_eq_true]
  · cases h

theorem deleteUnfrozenSession_ok {id : Int} {deleted : Bool} {db db' : Tables}
    (h : deleteUnfrozenSession id db = .ok (deleted, db'))
    (hRow : ∃ row ∈ db.sessions, row.id = id ∧ row.frozen = false) :
    deleted = true ∧
      db'.frames = (db.frames.map fun row =>
        if row.sessionId = some id then { row with sessionId := none } else row) ∧
      db'.sessions = (db.sessions.filter fun row => !(row.id == id && !row.frozen)) ∧
      db'.artifacts = db.artifacts.filter fun row => row.sessionId ≠ id := by
  obtain ⟨row, hmem, hid, hmutable⟩ := hRow
  have hany : (db.sessions.any fun row => row.id == id && !row.frozen) = true :=
    List.any_eq_true.mpr ⟨row, hmem, by simp [hid, hmutable]⟩
  rw [deleteUnfrozenSession, if_pos hany] at h
  simp only [Except.ok.injEq, Prod.mk.injEq] at h
  obtain ⟨rfl, rfl⟩ := h
  exact ⟨rfl, rfl, rfl, rfl⟩

/-- The rows an assignment is about: named, and free to change hands. -/
def isAssigned (ids : List Int) (db : Tables) (row : FrameRow) : Bool :=
  decide (row.frame.id ∈ ids) && assignable db row

def reassigned (ids : List Int) (sessionId : Option Int) (db : Tables) (row : FrameRow) :
    FrameRow :=
  if isAssigned ids db row then { row with sessionId := sessionId } else row

@[simp] theorem reassigned_frame (ids : List Int) (sessionId : Option Int) (db : Tables)
    (row : FrameRow) : (reassigned ids sessionId db row).frame = row.frame := by
  unfold reassigned
  split <;> rfl

/-- One update of all rows. -/
def assignFrames (ids : List Int) (sessionId : Option Int) (db : Tables) : Tables :=
  { db with frames := db.frames.map (reassigned ids sessionId db) }

theorem isAssigned_append (ids more : List Int) (db : Tables) (row : FrameRow) :
    isAssigned (ids ++ more) db row = (isAssigned ids db row || isAssigned more db row) := by
  simp only [isAssigned, List.mem_append, Bool.decide_or, Bool.and_or_distrib_right]

theorem assignFrames_nil (sessionId : Option Int) (db : Tables) :
    assignFrames [] sessionId db = db := by
  have hself : reassigned [] sessionId db = id :=
    funext fun row => if_neg (by simp [isAssigned])
  rw [assignFrames, hself, List.map_id]

theorem countP_or {α : Type} {p q : α → Bool} (hDisjoint : ∀ a, p a = true → q a = false)
    (l : List α) : l.countP (fun a => p a || q a) = l.countP p + l.countP q := by
  induction l with
  | nil => rfl
  | cons a l ih =>
    simp only [List.countP_cons, ih]
    have ha := hDisjoint a
    cases hp : p a <;> cases hq : q a <;> simp_all <;> omega

/-- What a chunk says of a row that has been through the chunks before it. -/
theorem isAssigned_reassigned {done chunk : List Int} (hDisjoint : done.Disjoint chunk)
    (sessionId : Option Int) (db : Tables) (row : FrameRow) :
    isAssigned chunk (assignFrames done sessionId db) (reassigned done sessionId db row) =
      isAssigned chunk db row := by
  by_cases hin : isAssigned done db row
  · have hnot : row.frame.id ∉ chunk := by
      simp only [isAssigned, Bool.and_eq_true, decide_eq_true_eq] at hin
      exact hDisjoint hin.1
    simp [isAssigned, hnot]
  · rw [reassigned, if_neg hin]
    rfl

/-- A chunk of ids that have not been assigned yet. -/
theorem assignChunk_ok {done chunk : List Int} {sessionId : Option Int} {changed : Nat}
    {db db' : Tables} (hDisjoint : done.Disjoint chunk)
    (h : assignChunk sessionId (assignFrames done sessionId db) chunk = .ok (changed, db')) :
    db' = assignFrames (done ++ chunk) sessionId db ∧
      changed = db.frames.countP (isAssigned chunk db) := by
  rw [assignChunk] at h
  dsimp only at h
  split at h
  · cases h
  simp only [Except.ok.injEq, Prod.mk.injEq] at h
  obtain ⟨rfl, rfl⟩ := h
  have hmatch := isAssigned_reassigned hDisjoint sessionId db
  refine ⟨?_, ?_⟩
  · simp only [assignFrames, List.map_map, Tables.mk.injEq, and_true]
    refine List.map_congr_left fun row _ => ?_
    rw [Function.comp_apply]
    change (if isAssigned chunk (assignFrames done sessionId db)
      (reassigned done sessionId db row) then _ else _) = _
    rw [hmatch, reassigned, reassigned, isAssigned_append]
    by_cases hdone : isAssigned done db row <;> by_cases hchunk : isAssigned chunk db row <;>
      simp [hdone, hchunk]
  · simp only [assignFrames, List.countP_map]
    refine List.countP_congr fun row _ => ?_
    exact Bool.eq_iff_iff.mp (hmatch row)

theorem assignChunks_ok {chunks : List (List Int)} {sessionId : Option Int} {db : Tables}
    {done : List Int} {before : Nat} {result : Nat × Tables}
    (hNodup : (done ++ chunks.flatten).Nodup)
    (h : chunks.foldlM (fun (state : Nat × Tables) chunk => do
        let (changed, after) ← assignChunk sessionId state.2 chunk
        return (state.1 + changed, after)) (before, assignFrames done sessionId db) =
      Except.ok result) :
    result = (before + db.frames.countP (isAssigned chunks.flatten db),
      assignFrames (done ++ chunks.flatten) sessionId db) := by
  induction chunks generalizing done before with
  | nil =>
    simp only [List.foldlM_nil, pure, Except.pure, Except.ok.injEq] at h
    simp [← h, isAssigned]
  | cons chunk chunks ih =>
    rw [List.flatten_cons, ← List.append_assoc] at hNodup
    have hDisjoint := List.disjoint_of_nodup_append (List.nodup_append.mp hNodup).1
    rw [List.foldlM_cons] at h
    cases hstep : assignChunk sessionId (assignFrames done sessionId db) chunk with
    | error e => simp [hstep, bind, Except.bind] at h
    | ok first =>
      obtain ⟨changed, mid⟩ := first
      obtain ⟨rfl, rfl⟩ := assignChunk_ok hDisjoint hstep
      simp only [hstep, bind, Except.bind, pure, Except.pure] at h
      rw [ih hNodup h, List.flatten_cons, List.append_assoc, Prod.mk.injEq]
      refine ⟨?_, rfl⟩
      -- no row is counted by two chunks
      have hcount : db.frames.countP (isAssigned (chunk ++ chunks.flatten) db) =
          db.frames.countP (isAssigned chunk db) +
            db.frames.countP (isAssigned chunks.flatten db) := by
        rw [← countP_or]
        · exact List.countP_congr fun row _ => by rw [isAssigned_append]
        · intro row hrow
          have hmore : chunk.Disjoint chunks.flatten := List.disjoint_of_nodup_append
            ((List.append_assoc .. ▸ hNodup).of_append_right)
          simp only [isAssigned, Bool.and_eq_true, decide_eq_true_eq] at hrow
          rw [isAssigned, decide_eq_false (hmore hrow.1), Bool.false_and]
      omega

/-- An assignment of distinct frames acts like one update. -/
theorem assignFramesSession_ok {ids : List Int} {sessionId : Option Int} {changed : Nat}
    {db db' : Tables} (hNodup : ids.Nodup)
    (h : assignFramesSession ids sessionId db = .ok (changed, db')) :
    db' = assignFrames ids sessionId db ∧
      changed = db.frames.countP (isAssigned ids db) := by
  rw [assignFramesSession] at h
  have hstart : ((0, db) : Nat × Tables) = (0, assignFrames [] sessionId db) := by
    rw [assignFrames_nil]
  rw [hstart] at h
  have hresult := assignChunks_ok (by simpa [Batch.toChunks_flatten] using hNodup) h
  simp only [Batch.toChunks_flatten, List.nil_append, Nat.zero_add, Prod.mk.injEq] at hresult
  exact ⟨hresult.2, hresult.1⟩

theorem assignChunk_sessions {sessionId : Option Int} {chunk : List Int} {changed : Nat}
    {db db' : Tables} (h : assignChunk sessionId db chunk = .ok (changed, db')) :
    db'.sessions = db.sessions := by
  rw [assignChunk] at h
  dsimp only at h
  split at h
  · cases h
  · simp only [Except.ok.injEq, Prod.mk.injEq] at h
    obtain ⟨-, rfl⟩ := h
    rfl

/-- Only a missing session makes an assignment fail. -/
theorem assignFramesSession_error {ids : List Int} {sessionId : Option Int} {db : Tables}
    {e : StoreError} (h : assignFramesSession ids sessionId db = .error e) :
    ∃ id, sessionId = some id ∧ ∀ session ∈ db.sessions, session.id ≠ id := by
  rw [assignFramesSession] at h
  generalize ids.toChunks 400 = chunks at h
  generalize hstart : ((0, db) : Nat × Tables) = state at h
  have hsessions : state.2.sessions = db.sessions := by rw [← hstart]
  clear hstart
  induction chunks generalizing state with
  | nil => simp [pure, Except.pure] at h
  | cons chunk chunks ih =>
    rw [List.foldlM_cons] at h
    cases hstep : assignChunk sessionId state.2 chunk with
    | error e =>
      rw [assignChunk] at hstep
      dsimp only at hstep
      split at hstep
      · rename_i hmissing
        cases hid : sessionId with
        | none => simp [hid] at hmissing
        | some id =>
          refine ⟨id, rfl, ?_⟩
          simpa [hid, hsessions] using hmissing.2
      · cases hstep
    | ok result =>
      obtain ⟨changed, mid⟩ := result
      simp only [hstep, bind, Except.bind, pure, Except.pure] at h
      exact ih _ h ((assignChunk_sessions hstep).trans hsessions)

/-- An assignment that finds nothing to change. -/
theorem assignFramesSession_noop {ids : List Int} {sessionId : Option Int} {db : Tables}
    (hNodup : ids.Nodup) (hExists : ∀ id, sessionId = some id → ∃ row ∈ db.sessions, row.id = id)
    (hNone : ∀ row ∈ db.frames, isAssigned ids db row = false) :
    assignFramesSession ids sessionId db = .ok (0, db) := by
  cases hrun : assignFramesSession ids sessionId db with
  | error e =>
    obtain ⟨id, hid, hmissing⟩ := assignFramesSession_error hrun
    obtain ⟨row, hrow, hrid⟩ := hExists id hid
    exact absurd hrid (hmissing row hrow)
  | ok result =>
    obtain ⟨changed, after⟩ := result
    obtain ⟨rfl, rfl⟩ := assignFramesSession_ok hNodup hrun
    have hcount : db.frames.countP (isAssigned ids db) = 0 := by
      rw [List.countP_eq_zero]
      exact fun row hrow => by simp [hNone row hrow]
    have hsame : db.frames.map (reassigned ids sessionId db) = db.frames := by
      conv_rhs => rw [← List.map_id db.frames]
      refine List.map_congr_left fun row hrow => ?_
      rw [reassigned, hNone row hrow]
      rfl
    rw [hcount, assignFrames, hsame]

/-! ## What a session's artifacts are after a statement -/

/-- An artifact without what its row adds. -/
def withoutRow (artifact : SessionArtifact) : NewSessionArtifact where
  kind := artifact.kind
  role := artifact.role
  frameId := artifact.frameId
  content := artifact.content

theorem lt_nextRowid {ids : List Int} {id : Int} (h : id ∈ ids) : id < nextRowid ids := by
  obtain ⟨largest, hlargest⟩ : ∃ largest, ids.max? = some largest :=
    Option.isSome_iff_exists.mp (List.isSome_max?_of_mem h)
  have hle := (List.max?_eq_some_iff.mp hlargest).2 id h
  simp only [nextRowid, hlargest, Option.getD_some]
  omega

theorem insertArtifact_ok {sessionId clock id : Int} {artifact : NewSessionArtifact}
    {db db' : Tables} (h : insertArtifact sessionId clock artifact db = .ok (id, db')) :
    db'.frames = db.frames ∧ db'.sessions = db.sessions ∧
      ∃ row : SessionArtifact, db'.artifacts = db.artifacts ++ [row] ∧
        withoutRow row = artifact ∧ row.sessionId = sessionId ∧ row.createdAt = clock ∧
        ∀ old ∈ db.artifacts, old.id < row.id := by
  rw [insertArtifact] at h
  split at h
  · cases h
  split at h
  · cases h
  · simp only [Except.ok.injEq, Prod.mk.injEq] at h
    obtain ⟨rfl, rfl⟩ := h
    exact ⟨rfl, rfl, _, rfl, rfl, rfl, rfl,
      fun old hold => lt_nextRowid (List.mem_map_of_mem hold)⟩

/-- The rows of one insertion: in order, behind everything that was there. -/
structure InsertedArtifacts (sessionId clock : Int) (artifacts : List NewSessionArtifact)
    (db db' : Tables) (rows : List SessionArtifact) : Prop where
  frames : db'.frames = db.frames
  sessions : db'.sessions = db.sessions
  appended : db'.artifacts = db.artifacts ++ rows
  content : rows.map withoutRow = artifacts
  stamped : ∀ row ∈ rows, row.sessionId = sessionId ∧ row.createdAt = clock
  behind : ∀ row ∈ rows, ∀ old ∈ db.artifacts, old.id < row.id
  ascending : rows.Pairwise fun a b => a.id < b.id

theorem insertSessionArtifacts_ok {sessionId clock : Int} {artifacts : List NewSessionArtifact}
    {ids : List Int} {db db' : Tables}
    (h : insertSessionArtifacts sessionId artifacts clock db = .ok (ids, db')) :
    ∃ rows, InsertedArtifacts sessionId clock artifacts db db' rows := by
  rw [insertSessionArtifacts] at h
  generalize hstart : (([], db) : List Int × Tables) = state at h
  obtain rfl : state.2 = db := by rw [← hstart]
  clear hstart
  induction artifacts generalizing state with
  | nil =>
    simp only [List.foldlM_nil, pure, Except.pure, Except.ok.injEq] at h
    rw [h]
    exact ⟨[], rfl, rfl, by simp, rfl, by simp, by simp, .nil⟩
  | cons artifact artifacts ih =>
    rw [List.foldlM_cons] at h
    cases hstep : insertArtifact sessionId clock artifact state.2 with
    | error e => simp [hstep, bind, Except.bind] at h
    | ok first =>
      obtain ⟨id, mid⟩ := first
      simp only [hstep, bind, Except.bind, pure, Except.pure] at h
      obtain ⟨hframes, hsessions, row, happended, hcontent, hsession, hstamp, hbehind⟩ :=
        insertArtifact_ok hstep
      obtain ⟨rows, hrows⟩ := ih (state.1 ++ [id], mid) h
      refine ⟨row :: rows, hrows.frames.trans hframes, hrows.sessions.trans hsessions, ?_,
        ?_, ?_, ?_, ?_⟩
      · rw [hrows.appended, happended, List.append_assoc, List.singleton_append]
      · rw [List.map_cons, hcontent, hrows.content]
      · intro r hr
        rcases List.mem_cons.mp hr with rfl | hin
        · exact ⟨hsession, hstamp⟩
        · exact hrows.stamped r hin
      · intro r hr old hold
        rcases List.mem_cons.mp hr with rfl | hin
        · exact hbehind old hold
        · exact hrows.behind r hin old (by rw [happended]; exact List.mem_append_left _ hold)
      · refine List.pairwise_cons.mpr ⟨fun r hr => ?_, hrows.ascending⟩
        exact hrows.behind r hr row (by rw [happended]; simp)

/-- The exchanges among a session's artifacts. -/
def storedExchanges (artifacts : List SessionArtifact) : List NewSessionArtifact :=
  (artifacts.filter fun artifact => artifact.kind == .exchange).map withoutRow

/-- Replacing the exchanges of a session: they are read back as they were
written, and nothing else changes. -/
theorem replaceExchanges {sessionId clock : Int} {artifacts : List NewSessionArtifact}
    {count : Nat} {ids : List Int} {db mid db' : Tables}
    (hKind : ∀ artifact ∈ artifacts, artifact.kind = .exchange)
    (hDelete : deleteSessionArtifactsByKind sessionId .exchange db = .ok (count, mid))
    (hInsert : insertSessionArtifacts sessionId artifacts clock mid = .ok (ids, db')) :
    db'.frames = db.frames ∧ db'.sessions = db.sessions ∧
      storedExchanges (listSessionArtifacts sessionId db') = artifacts ∧
      ∀ other, other ≠ sessionId →
        listSessionArtifacts other db' = listSessionArtifacts other db := by
  simp only [deleteSessionArtifactsByKind, Except.ok.injEq, Prod.mk.injEq] at hDelete
  obtain ⟨-, rfl⟩ := hDelete
  obtain ⟨rows, hrows⟩ := insertSessionArtifacts_ok hInsert
  refine ⟨hrows.frames, hrows.sessions, ?_, fun other hother => ?_⟩
  · have hkinds : ∀ row ∈ rows, row.kind = .exchange := by
      intro row hrow
      refine hKind (withoutRow row) ?_
      rw [← hrows.content]
      exact List.mem_map_of_mem hrow
    have hselected : (db'.artifacts.filter fun artifact => artifact.sessionId = sessionId).filter
        (fun artifact => artifact.kind == .exchange) = rows := by
      rw [hrows.appended, List.filter_append, List.filter_append, List.filter_filter,
        List.filter_filter, List.filter_filter]
      have hold : ∀ l : List SessionArtifact, l.filter (fun artifact =>
          ((artifact.kind == .exchange) && decide (artifact.sessionId = sessionId)) &&
            !(decide (artifact.sessionId = sessionId) && artifact.kind == .exchange)) = [] := by
        intro l
        rw [List.filter_eq_nil_iff]
        intro a _
        cases decide (a.sessionId = sessionId) <;> cases a.kind == .exchange <;> simp
      rw [hold, List.nil_append, List.filter_eq_self]
      intro row hrow
      simp [hkinds row hrow, (hrows.stamped row hrow).1]
    rw [storedExchanges, listSessionArtifacts, ← sortByKey_filter, hselected, sortByKey_eq_self,
      hrows.content]
    refine hrows.ascending.imp_of_mem fun {a b} ha hb hlt => ?_
    refine (Prod.Lex.le_iff ..).mpr (.inr ⟨?_, hlt.le⟩)
    exact (hrows.stamped a ha).2.trans (hrows.stamped b hb).2.symm
  · have hnone : (rows.filter fun artifact => artifact.sessionId = other) = [] := by
      rw [List.filter_eq_nil_iff]
      intro row hrow
      simpa [(hrows.stamped row hrow).1] using Ne.symm hother
    rw [listSessionArtifacts, listSessionArtifacts, hrows.appended, List.filter_append, hnone,
      List.append_nil, List.filter_filter]
    congr 1
    refine List.filter_congr fun a _ => ?_
    by_cases ha : a.sessionId = other
    · simp [ha, hother]
    · simp [ha]

end ScreenSearch.Store
