import ScreenSearch.Lib.Sort
import ScreenSearch.Traits.Sessions

/-!
# The session tables

The tables are lists of rows, and a statement is a function of the tables that
may fail on a constraint; a statement that fails changes nothing. `SessionDb` is
a state of the tables that meets the primary and foreign keys, and every
statement maps one to another (`SessionOp.apply_wellFormed`).

`updated_at=unixepoch()*1000` reads a clock: it is the last argument of the
statements that write it.
-/

namespace ScreenSearch.Store

open Sorting

/-- A row of `frames`, with the columns the session statements read and write. -/
structure FrameRow where
  frame : SegmenterFrame
  sessionId : Option Int
  deriving DecidableEq, Repr

structure Tables where
  frames : List FrameRow
  sessions : List Session
  artifacts : List SessionArtifact
  deriving DecidableEq, Repr

inductive StoreError where
  | foreignKey
  | check
  deriving DecidableEq, Repr

/-- A statement: its result and the tables after it, or the constraint it
violates. -/
abbrev Statement (α : Type) := Tables → Except StoreError (α × Tables)

/-- `INTEGER PRIMARY KEY`: one more than the largest key in use. -/
def nextRowid (ids : List Int) : Int := (ids.max?).getD 0 + 1

/-- The row constraint `tool IS NULL OR kind = 'ai'`. -/
def toolCheck (session : NewSession) : Bool := session.tool.isNone || session.kind == .ai

/-- The columns a segmentation writes. -/
def recorded (session : Session) : NewSession where
  startedAt := session.startedAt
  endedAt := session.endedAt
  kind := session.kind
  tool := session.tool
  host := session.host
  contextKey := session.contextKey
  confidence := session.confidence
  frozen := session.frozen

/-! ## Statements -/

def insertSession (session : NewSession) (clock : Int) : Statement Int := fun db =>
  if toolCheck session then
    let id := nextRowid (db.sessions.map Session.id)
    .ok (id, { db with sessions := db.sessions ++
      [{ id := id
         startedAt := session.startedAt
         endedAt := session.endedAt
         kind := session.kind
         tool := session.tool
         host := session.host
         contextKey := session.contextKey
         title := none
         summary := none
         summaryModel := none
         confidence := session.confidence
         frozen := session.frozen
         createdAt := clock
         updatedAt := clock }] })
  else .error .check

/-- `UPDATE sessions SET .. WHERE ..`: how many rows matched, and the table. -/
def updateSessions (isMatch : Session → Bool) (assign : Session → Session) (db : Tables) :
    Nat × Tables :=
  (db.sessions.countP isMatch,
    { db with sessions := db.sessions.map fun row => if isMatch row then assign row else row })

def updateUnfrozenSession (id : Int) (session : NewSession) (clock : Int) : Statement Bool :=
  fun db =>
    let (changed, after) := updateSessions (fun row => row.id == id && !row.frozen)
      (fun row =>
        { row with
          startedAt := session.startedAt
          endedAt := session.endedAt
          kind := session.kind
          tool := session.tool
          host := session.host
          contextKey := session.contextKey
          confidence := session.confidence
          updatedAt := clock }) db
    if changed = 0 ∨ toolCheck session then .ok (decide (0 < changed), after)
    else .error .check

/-- Deleting a row clears `frames.session_id` where it names the row and removes
the row's artifacts. -/
def deleteUnfrozenSession (id : Int) : Statement Bool := fun db =>
  if db.sessions.any fun row => row.id == id && !row.frozen then
    .ok (true,
      { frames := db.frames.map fun row =>
          if row.sessionId = some id then { row with sessionId := none } else row
        sessions := db.sessions.filter fun row => !(row.id == id && !row.frozen)
        artifacts := db.artifacts.filter fun row => row.sessionId ≠ id })
  else .ok (false, db)

/-- A frame may change hands unless its current session is frozen. -/
def assignable (db : Tables) (row : FrameRow) : Bool :=
  match row.sessionId with
  | none => true
  | some current => db.sessions.any fun session => session.id == current && !session.frozen

/-- One `UPDATE frames` of a chunk of ids. -/
def assignChunk (sessionId : Option Int) (db : Tables) (chunk : List Int) :
    Except StoreError (Nat × Tables) :=
  let isMatch := fun row : FrameRow => decide (row.frame.id ∈ chunk) && assignable db row
  let changed := db.frames.countP isMatch
  if 0 < changed ∧ sessionId.any (fun id => db.sessions.all fun session => session.id ≠ id) then
    .error .foreignKey
  else
    let update := fun row : FrameRow =>
      if isMatch row then { row with sessionId := sessionId } else row
    .ok (changed, { db with frames := db.frames.map update })

/-- All chunks in one transaction. -/
def assignFramesSession (frameIds : List Int) (sessionId : Option Int) : Statement Nat :=
  fun db =>
    (frameIds.toChunks 400).foldlM (fun (state : Nat × Tables) chunk => do
      let (changed, after) ← assignChunk sessionId state.2 chunk
      return (state.1 + changed, after)) (0, db)

def freezeSessions (olderThanMs clock : Int) : Statement Nat := fun db =>
  .ok (updateSessions (fun row => !row.frozen && row.endedAt.any fun ended => ended < olderThanMs)
    (fun row => { row with frozen := true, updatedAt := clock }) db)

def setSessionTitleSummary (id : Int) (title summary model : String) (clock : Int) :
    Statement Bool := fun db =>
  let (changed, after) := updateSessions (fun row => row.id == id)
    (fun row =>
      { row with
        title := some title
        summary := some summary
        summaryModel := some model
        updatedAt := clock }) db
  .ok (decide (0 < changed), after)

def clearSessionTitleSummary (id clock : Int) : Statement Bool := fun db =>
  let (changed, after) := updateSessions (fun row => row.id == id)
    (fun row =>
      { row with title := none, summary := none, summaryModel := none, updatedAt := clock }) db
  .ok (decide (0 < changed), after)

/-! ## Runs -/

inductive SessionOp where
  | insertSession (session : NewSession) (clock : Int)
  | updateUnfrozenSession (id : Int) (session : NewSession) (clock : Int)
  | deleteUnfrozenSession (id : Int)
  | assignFramesSession (frameIds : List Int) (sessionId : Option Int)
  | freezeSessions (olderThanMs clock : Int)
  | setSessionTitleSummary (id : Int) (title summary model : String) (clock : Int)
  | clearSessionTitleSummary (id clock : Int)
  deriving DecidableEq, Repr

/-- What a statement leaves behind: a failed one leaves the tables alone. -/
def Statement.after {α : Type} (statement : Statement α) (db : Tables) : Tables :=
  match statement db with
  | .ok (_, after) => after
  | .error _ => db

def SessionOp.apply (db : Tables) : SessionOp → Tables
  | .insertSession session clock => (Store.insertSession session clock).after db
  | .updateUnfrozenSession id session clock =>
    (Store.updateUnfrozenSession id session clock).after db
  | .deleteUnfrozenSession id => (Store.deleteUnfrozenSession id).after db
  | .assignFramesSession frameIds sessionId =>
    (Store.assignFramesSession frameIds sessionId).after db
  | .freezeSessions olderThanMs clock => (Store.freezeSessions olderThanMs clock).after db
  | .setSessionTitleSummary id title summary model clock =>
    (Store.setSessionTitleSummary id title summary model clock).after db
  | .clearSessionTitleSummary id clock => (Store.clearSessionTitleSummary id clock).after db

/-- The keys of the tables: primary keys are unique and a frame's session
exists. -/
structure Tables.WellFormed (db : Tables) : Prop where
  frameIds : (db.frames.map fun row => row.frame.id).Nodup
  sessionIds : (db.sessions.map Session.id).Nodup
  references : ∀ row ∈ db.frames, ∀ id, row.sessionId = some id →
    ∃ session ∈ db.sessions, session.id = id

/-! ## The keys survive every statement -/

theorem nextRowid_not_mem (ids : List Int) : nextRowid ids ∉ ids := by
  intro hmem
  obtain ⟨largest, hlargest⟩ : ∃ largest, ids.max? = some largest :=
    Option.isSome_iff_exists.mp (List.isSome_max?_of_mem hmem)
  have hle := List.max?_eq_some_iff.mp hlargest
  have := hle.2 _ hmem
  simp only [nextRowid, hlargest, Option.getD_some] at this
  omega

theorem updateSessions_ids {isMatch : Session → Bool} {assign : Session → Session}
    (hid : ∀ row, (assign row).id = row.id) (db : Tables) :
    (updateSessions isMatch assign db).2.sessions.map Session.id =
      db.sessions.map Session.id := by
  rw [updateSessions, List.map_map]
  refine List.map_congr_left fun row _ => ?_
  simp only [Function.comp_apply]
  split
  · exact hid row
  · rfl

theorem updateSessions_wellFormed {isMatch : Session → Bool} {assign : Session → Session}
    (hid : ∀ row, (assign row).id = row.id) {db : Tables} (h : db.WellFormed) :
    (updateSessions isMatch assign db).2.WellFormed where
  frameIds := h.frameIds
  sessionIds := by rw [updateSessions_ids hid]; exact h.sessionIds
  references := by
    intro row hrow id hsession
    obtain ⟨session, hmem, hsid⟩ := h.references row hrow id hsession
    have hin : id ∈ (updateSessions isMatch assign db).2.sessions.map Session.id := by
      rw [updateSessions_ids hid]
      exact List.mem_map.mpr ⟨session, hmem, hsid⟩
    obtain ⟨session', hmem', hsid'⟩ := List.mem_map.mp hin
    exact ⟨session', hmem', hsid'⟩

theorem insertSession_wellFormed {session : NewSession} {clock id : Int} {db db' : Tables}
    (h : db.WellFormed) (hok : insertSession session clock db = .ok (id, db')) :
    db'.WellFormed := by
  rw [insertSession] at hok
  split at hok
  · simp only [Except.ok.injEq, Prod.mk.injEq] at hok
    obtain ⟨rfl, rfl⟩ := hok
    refine ⟨h.frameIds, ?_, ?_⟩
    · rw [List.map_append, List.nodup_append']
      refine ⟨h.sessionIds, List.nodup_singleton _, ?_⟩
      simpa using nextRowid_not_mem (db.sessions.map Session.id)
    · intro row hrow id hsession
      obtain ⟨existing, hmem, hid⟩ := h.references row hrow id hsession
      exact ⟨existing, List.mem_append_left _ hmem, hid⟩
  · cases hok

theorem deleteUnfrozenSession_wellFormed {id : Int} {deleted : Bool} {db db' : Tables}
    (h : db.WellFormed) (hok : deleteUnfrozenSession id db = .ok (deleted, db')) :
    db'.WellFormed := by
  rw [deleteUnfrozenSession] at hok
  split at hok <;> simp only [Except.ok.injEq, Prod.mk.injEq] at hok <;> obtain ⟨rfl, rfl⟩ := hok
  · refine ⟨?_, h.sessionIds.sublist (List.filter_sublist.map _), ?_⟩
    · rw [List.map_map]
      convert h.frameIds using 1
      refine List.map_congr_left fun row _ => ?_
      simp only [Function.comp_apply]
      split <;> rfl
    · intro row hrow sid hsession
      obtain ⟨old, hold, rfl⟩ := List.mem_map.mp hrow
      by_cases hcleared : old.sessionId = some id
      · simp [hcleared] at hsession
      · rw [if_neg hcleared] at hsession
        obtain ⟨session, hmem, hsid⟩ := h.references old hold sid hsession
        refine ⟨session, List.mem_filter.mpr ⟨hmem, ?_⟩, hsid⟩
        have : session.id ≠ id := fun heq => hcleared (by rw [hsession, ← hsid, heq])
        simp [this]
  · exact h

theorem assignChunk_wellFormed {sessionId : Option Int} {chunk : List Int} {changed : Nat}
    {db db' : Tables} (h : db.WellFormed)
    (hok : assignChunk sessionId db chunk = .ok (changed, db')) : db'.WellFormed := by
  rw [assignChunk] at hok
  dsimp only at hok
  split at hok
  · cases hok
  · rename_i hfk
    simp only [Except.ok.injEq, Prod.mk.injEq] at hok
    obtain ⟨rfl, rfl⟩ := hok
    refine ⟨?_, h.sessionIds, ?_⟩
    · rw [List.map_map]
      convert h.frameIds using 1
      refine List.map_congr_left fun row _ => ?_
      simp only [Function.comp_apply]
      split <;> rfl
    · intro row hrow sid hsession
      obtain ⟨old, hold, rfl⟩ := List.mem_map.mp hrow
      split at hsession
      · rename_i hmatch
        -- a changed row names a session the foreign key has found
        have hpos : 0 < db.frames.countP fun row =>
            decide (row.frame.id ∈ chunk) && assignable db row :=
          List.countP_pos_iff.mpr ⟨old, hold, hmatch⟩
        simp only [hpos, true_and] at hfk
        simp only at hsession
        subst hsession
        simpa using hfk
      · exact h.references old hold sid hsession

/-- One statement after another: a property that every chunk keeps holds at the
end of the transaction. -/
theorem assignFramesSession_induction {P : Tables → Prop} {sessionId : Option Int}
    (hchunk : ∀ db chunk changed db', P db →
      assignChunk sessionId db chunk = .ok (changed, db') → P db')
    {frameIds : List Int} {changed : Nat} {db db' : Tables} (h : P db)
    (hok : assignFramesSession frameIds sessionId db = .ok (changed, db')) : P db' := by
  rw [assignFramesSession] at hok
  generalize frameIds.toChunks 400 = chunks at hok
  generalize hstart : (0, db) = state at hok
  have hP : P state.2 := by rw [← hstart]; exact h
  clear hstart
  induction chunks generalizing state with
  | nil =>
    simp only [List.foldlM_nil, pure, Except.pure, Except.ok.injEq] at hok
    rw [hok] at hP
    exact hP
  | cons chunk chunks ih =>
    rw [List.foldlM_cons] at hok
    cases hstep : assignChunk sessionId state.2 chunk with
    | error e => simp [hstep, bind, Except.bind] at hok
    | ok result =>
      simp only [hstep, bind, Except.bind, pure, Except.pure] at hok
      exact ih _ hok (hchunk _ _ _ _ hP hstep)

/-- The keys hold after every statement. -/
theorem SessionOp.apply_wellFormed {db : Tables} (h : db.WellFormed) (op : SessionOp) :
    (op.apply db).WellFormed := by
  cases op with
  | insertSession session clock =>
    simp only [SessionOp.apply, Statement.after]
    split
    · exact insertSession_wellFormed h ‹_›
    · exact h
  | updateUnfrozenSession id session clock =>
    simp only [SessionOp.apply, Statement.after, Store.updateUnfrozenSession]
    split
    · rename_i hok
      split at hok
      · cases hok
        exact updateSessions_wellFormed (by intro; rfl) h
      · cases hok
    · exact h
  | deleteUnfrozenSession id =>
    simp only [SessionOp.apply, Statement.after]
    split
    · exact deleteUnfrozenSession_wellFormed h ‹_›
    · exact h
  | assignFramesSession frameIds sessionId =>
    simp only [SessionOp.apply, Statement.after]
    split
    · exact assignFramesSession_induction (fun _ _ _ _ => assignChunk_wellFormed) h ‹_›
    · exact h
  | freezeSessions olderThanMs clock => exact updateSessions_wellFormed (by intro; rfl) h
  | setSessionTitleSummary id title summary model clock =>
    exact updateSessions_wellFormed (by intro; rfl) h
  | clearSessionTitleSummary id clock => exact updateSessions_wellFormed (by intro; rfl) h

/-- A database: tables that meet their keys. -/
structure SessionDb where
  tables : Tables
  wellFormed : tables.WellFormed

def SessionDb.step (db : SessionDb) (op : SessionOp) : SessionDb where
  tables := op.apply db.tables
  wellFormed := op.apply_wellFormed db.wellFormed

def SessionDb.run (db : SessionDb) (ops : List SessionOp) : SessionDb := ops.foldl step db

end ScreenSearch.Store
