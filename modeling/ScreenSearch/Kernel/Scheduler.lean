import ScreenSearch.Kernel.BackfillCut
import ScreenSearch.Lib.Process
import ScreenSearch.Store.SessionQueries

/-!
# The session scheduler

One tick reconciles the unfrozen sessions with what the segmenter proposes for
the live window, freezes what has ended long enough ago, and moves the historical
backfill on by one chunk. Every store call may fail; what the calls before it
wrote stays.
-/

namespace ScreenSearch.Kernel

open Process Sorting Store

def backfillChunkMs : Int := 6 * 60 * 60 * 1000

structure BackfillCheckpoint where
  cursorMs : Int
  targetMs : Int
  deriving DecidableEq, Repr

/-- What the scheduler sees of the store: the session tables, the filtered text
and the setting `sessions.backfill_done_until`. -/
structure SchedulerDb where
  tables : Tables
  frameText : List FrameText
  backfillMarker : Option BackfillCheckpoint
  deriving DecidableEq, Repr

inductive PassError where
  /-- A store call that did nothing. -/
  | unavailable
  | constraint (error : StoreError)
  | bail (message : String)
  deriving DecidableEq, Repr

inductive KernelEvent where
  | sessionsChanged
  deriving DecidableEq, Repr

/-- Which interactions fail, and `unixepoch()*1000` at each of them. -/
structure Surroundings where
  fails : Nat → Bool
  clock : Nat → Int

abbrev SchedulerProgram (α : Type) := Program SchedulerDb KernelEvent PassError α

/-- The contract of the segmenter: a frame is owned by one draft at most. -/
structure SessionSegmenter where
  segment : List SegmenterFrame → SegmentationParams → List SessionDraft
  extractExchanges : String → List SessionContent → List ExtractedExchange
  once : ∀ frames params, (frames.map SegmenterFrame.id).Nodup →
    (Sessions.ownedIds (segment frames params)).Nodup

/-- The engine, with its taxonomy; the exchanges are extracted by `extract`. -/
def sessionEngine (lowercase : String → String) (order : Assoc.HashOrder)
    (taxonomy : Sessions.Taxonomy) (extract : String → List SessionContent → List ExtractedExchange) :
    SessionSegmenter where
  segment := fun frames params =>
    Sessions.segmentWithTaxonomy lowercase order frames taxonomy params
  extractExchanges := extract
  once := fun _ params hIds => Sessions.segment_nodup lowercase order taxonomy params hIds

@[simp] theorem sessionEngine_segment (lowercase : String → String) (order : Assoc.HashOrder)
    (taxonomy : Sessions.Taxonomy) (extract : String → List SessionContent → List ExtractedExchange)
    (frames : List SegmenterFrame) (params : SegmentationParams) :
    (sessionEngine lowercase order taxonomy extract).segment frames params =
      Sessions.segmentWithTaxonomy lowercase order frames taxonomy params := rfl

/-! ## Store calls -/

def Surroundings.query {α : Type} (env : Surroundings) (read : SchedulerDb → α) :
    SchedulerProgram α :=
  Program.call env.fails .unavailable fun db => .ok (read db, db)

/-- A statement may read the clock. -/
def Surroundings.execute {α : Type} (env : Surroundings) (statement : Int → Statement α) :
    SchedulerProgram α := do
  let n ← Program.interact
  Program.call env.fails .unavailable fun db =>
    match statement (env.clock n) db.tables with
    | .ok (a, tables) => .ok (a, { db with tables := tables })
    | .error error => .error (.constraint error)

def Surroundings.saveCheckpoint (env : Surroundings) (checkpoint : BackfillCheckpoint) :
    SchedulerProgram Unit :=
  Program.call env.fails .unavailable fun db =>
    .ok ((), { db with backfillMarker := some checkpoint })

section

variable {α : Type} {env : Surroundings} {db : SchedulerDb} {Q : α → SchedulerDb → Prop}
  {E : PassError → Prop}

theorem query_ends {read : SchedulerDb → α} (hFail : ∀ n, env.fails n = true → E .unavailable)
    (hDone : Q (read db) db) : Ends (env.query read) db Q E :=
  Ends.call hFail (fun _ h => by cases h) (fun _ _ h => by cases h; exact hDone)

theorem execute_ends {statement : Int → Statement α}
    (hFail : ∀ n, env.fails n = true → E .unavailable)
    (hError : ∀ clock error, statement clock db.tables = .error error → E (.constraint error))
    (hDone : ∀ clock a tables, statement clock db.tables = .ok (a, tables) →
      Q a { db with tables := tables }) : Ends (env.execute statement) db Q E := by
  refine Ends.bind (R := fun _ db' => db' = db) (Ends.interact fun _ => rfl) ?_
  rintro n db' rfl
  refine Ends.call hFail ?_ ?_
  · intro e he
    split at he
    · cases he
    · rename_i error herror
      cases he
      exact hError _ error herror
  · intro a after hafter
    split at hafter
    · rename_i a' tables hok
      cases hafter
      exact hDone _ a tables hok
    · cases hafter

end

/-! ## Drafts and rows -/

def partition (kind : SessionKind) (contextKey : String) : String :=
  if kind = .focus then "focus" else contextKey

/-- The map from frame ids to times. -/
def frameTime (frames : List SegmenterFrame) (id : Int) : Option Int :=
  (frames.reverse.find? fun frame => frame.id == id).map SegmenterFrame.capturedAt

/-- Keep the frames whose time passes; the draft then spans what is left. -/
def retainFrames (frames : List SegmenterFrame) (keep : Int → Bool) (draft : SessionDraft) :
    Option SessionDraft :=
  let frameIds := draft.frameIds.filter fun id => (frameTime frames id).any keep
  if frameIds.isEmpty then none
  else do
    let times := frameIds.filterMap (frameTime frames)
    let startedAt ← times.min?
    let endedAt ← times.max?
    return { draft with frameIds := frameIds, startedAt := startedAt, endedAt := endedAt }

/-- The latest end of a frozen session of the draft's partition it reaches into. -/
def frozenEnd (frozen : List Session) (draft : SessionDraft) : Option Int :=
  let own := frozen.filter fun session =>
    session.frozen && partition session.kind session.contextKey ==
      partition draft.kind draft.contextKey
  (own.filterMap fun session =>
    session.endedAt.filter fun ended =>
      decide (draft.startedAt ≤ ended) && decide (session.startedAt ≤ draft.endedAt)).max?

def trimDraftsAgainstFrozen (drafts : List SessionDraft) (frozen : List Session)
    (frames : List SegmenterFrame) : List SessionDraft :=
  drafts.filterMap fun draft =>
    match frozenEnd frozen draft with
    | some cut => retainFrames frames (fun capturedAt => decide (cut < capturedAt)) draft
    | none => some draft

def overlapMs (draft : SessionDraft) (session : Session) (nowMs : Int) : Option Int :=
  let sessionEnd := session.endedAt.getD nowMs
  let overlap := min draft.endedAt sessionEnd - max draft.startedAt session.startedAt
  if 0 < overlap then some overlap else none

/-- The row of the draft's key with the longest overlap; then the one that starts
closest, then the lowest id. -/
def bestMatch (draft : SessionDraft) (existing : List Session) (used : List Int) (nowMs : Int) :
    Option Int :=
  let candidates := existing.filter fun session =>
    !session.frozen && session.contextKey == draft.contextKey && decide (session.id ∉ used)
  let overlapping := candidates.filterMap fun session =>
    (overlapMs draft session nowMs).map fun overlap => (session, overlap)
  (maxByKey (fun entry : Session × Int =>
    toLex (entry.2, toLex (OrderDual.toDual |draft.startedAt - entry.1.startedAt|,
      OrderDual.toDual entry.1.id))) overlapping).map fun entry => entry.1.id

/-- Each draft in turn takes a row nobody has taken. -/
def matchUnused (existing : List Session) (nowMs : Int) (used : List Int) :
    List SessionDraft → List (Option Int)
  | [] => []
  | draft :: drafts =>
    let best := bestMatch draft existing used nowMs
    best :: matchUnused existing nowMs (best.toList ++ used) drafts

def matchDraftsToExisting (drafts : List SessionDraft) (existing : List Session) (nowMs : Int) :
    List (Option Int) :=
  matchUnused existing nowMs [] drafts

def sessionMatchesDraft (session : Session) (draft : SessionDraft) : Bool :=
  let desired := draft.asNewSession false
  decide (session.startedAt = desired.startedAt) &&
    decide (session.endedAt = desired.endedAt) &&
    decide (session.kind = desired.kind) &&
    decide (session.tool = desired.tool) &&
    decide (session.host = desired.host) &&
    decide (session.contextKey = desired.contextKey) &&
    decide (session.confidence = desired.confidence) &&
    !session.frozen

/-! ## The incremental pass -/

section

variable (env : Surroundings) (segmenter : SessionSegmenter)

def asArtifact (exchange : ExtractedExchange) : NewSessionArtifact where
  kind := .exchange
  role := some exchange.role
  frameId := some exchange.frameId
  content := exchange.content

def refreshExchanges (sessionId : Int) (draft : SessionDraft) : SchedulerProgram Bool := do
  let contents ← env.query fun db => contentTextsForFrames draft.frameIds db.frameText db.tables
  let artifacts := (segmenter.extractExchanges (draft.tool.getD "") contents).map asArtifact
  let listed ← env.query fun db => listSessionArtifacts sessionId db.tables
  if storedExchanges listed = artifacts then return false
  else do
    let _ ← env.execute fun _ => deleteSessionArtifactsByKind sessionId .exchange
    let _ ← env.execute fun clock => insertSessionArtifacts sessionId artifacts clock
    return true

def refreshIfAi (sessionId : Int) (draft : SessionDraft) : SchedulerProgram Bool :=
  if draft.kind = .ai then refreshExchanges env segmenter sessionId draft else return false

/-- The draft a row is matched with. -/
def desiredByExisting (plan : List (SessionDraft × Option Int)) (id : Int) :
    Option SessionDraft :=
  (plan.reverse.find? fun entry => entry.2 == some id).map Prod.fst

/-- A matched row gives up what its draft does not want. -/
def releaseRow (plan : List (SessionDraft × Option Int)) (sessionId : Int) (ids : List Int) :
    SchedulerProgram Bool :=
  match desiredByExisting plan sessionId with
  | some draft => do
    let stale := ids.filter fun id => decide (id ∉ draft.frameIds)
    let count ← env.execute fun _ => assignFramesSession stale none
    return decide (0 < count)
  | none => return false

/-- The first loop keeps what each row owned before. -/
def releaseStale (plan : List (SessionDraft × Option Int)) :
    List (Int × List Int) → List Session → SchedulerProgram (Bool × List (Int × List Int))
  | owned, [] => pure (false, owned)
  | owned, session :: existing => do
    let frames ← env.query fun db => sessionFramesMeta session.id db.tables
    let ids := frames.map SegmenterFrame.id
    let released ← releaseRow env plan session.id ids
    let (changed, owned) ← releaseStale plan ((session.id, ids) :: owned) existing
    return (released || changed, owned)

def deleteRow (plan : List (SessionDraft × Option Int)) (sessionId : Int) :
    SchedulerProgram Bool :=
  if some sessionId ∈ plan.map Prod.snd then return false
  else env.execute fun _ => deleteUnfrozenSession sessionId

/-- The second loop. -/
def deleteUnmatched (plan : List (SessionDraft × Option Int)) :
    List Session → SchedulerProgram Bool
  | [] => pure false
  | session :: existing => do
    let deleted ← deleteRow env plan session.id
    let changed ← deleteUnmatched plan existing
    return deleted || changed

/-- The row a draft is written to, unless the matched row has gone. -/
def targetSession (existing : List Session) (draft : SessionDraft) :
    Option Int → SchedulerProgram (Option Int × Bool)
  | some id =>
    if (existing.find? fun session => session.id == id).any
        fun session => !sessionMatchesDraft session draft then do
      let updated ← env.execute fun clock =>
        updateUnfrozenSession id (draft.asNewSession false) clock
      if updated then return (some id, true)
      else return (none, false)
    else return (some id, false)
  | none => do
    let id ← env.execute fun clock => insertSession (draft.asNewSession false) clock
    return (some id, true)

def writeDraft (existing : List Session) (owned : List (Int × List Int))
    (entry : SessionDraft × Option Int) : SchedulerProgram Bool := do
  let (target, written) ← targetSession env existing entry.1 entry.2
  match target with
  | none => return written
  | some sessionId => do
    let alreadyOwned := (owned.lookup sessionId).getD []
    let toAssign := entry.1.frameIds.filter fun id => decide (id ∉ alreadyOwned)
    let assigned ← env.execute fun _ => assignFramesSession toAssign (some sessionId)
    let refreshed ← refreshIfAi env segmenter sessionId entry.1
    return written || decide (0 < assigned) || refreshed

/-- The third loop. -/
def writeDrafts (existing : List Session) (owned : List (Int × List Int)) :
    List (SessionDraft × Option Int) → SchedulerProgram Bool
  | [] => pure false
  | entry :: plan => do
    let written ← writeDraft env segmenter existing owned entry
    let changed ← writeDrafts existing owned plan
    return written || changed

/-- The live window begins with the earliest row that may still change. -/
def windowStart (existing : List Session) (mutableTail : Int) : Int :=
  match (existing.map Session.startedAt).min? with
  | some earliest => min earliest mutableTail
  | none => mutableTail

def liveFilter (fromMs nowMs : Int) : SessionFilter where
  fromMs := some fromMs
  toMs := some (nowMs + 1)
  kind := none
  tool := none
  limit := none
  nowMs := nowMs

/-- The three loops. -/
def applyPlan (existing : List Session) (plan : List (SessionDraft × Option Int)) :
    SchedulerProgram Bool := do
  let (released, owned) ← releaseStale env plan [] existing
  let deleted ← deleteUnmatched env plan existing
  let written ← writeDrafts env segmenter existing owned plan
  return released || deleted || written

def runIncrementalPass (nowMs : Int) (current : Settings) : SchedulerProgram Bool := do
  let params := paramsFromSettings nowMs current
  let existing ← env.query fun db => unfrozenSessions db.tables
  let fromMs := windowStart existing (nowMs - params.freezeLookbackMs)
  let frames ← env.query fun db => framesMetaInRange fromMs (nowMs + 1) db.tables
  let ranged ← env.query fun db => sessionsInRange (liveFilter fromMs nowMs) db.tables
  let frozen := ranged.filter Session.frozen
  let drafts := trimDraftsAgainstFrozen (segmenter.segment frames params) frozen frames
  applyPlan env segmenter existing (drafts.zip (matchDraftsToExisting drafts existing nowMs))

end

/-! ## What the first two loops take -/

/-- The rows among `done` that no draft is matched with. -/
def dropped (plan : List (SessionDraft × Option Int)) (done : List Int) (id : Int) : Bool :=
  decide (id ∈ done) && !decide (some id ∈ plan.map Prod.snd)

/-- The rows both loops keep. -/
def isKept (plan : List (SessionDraft × Option Int)) (session : Session) : Bool :=
  session.frozen || decide (some session.id ∈ plan.map Prod.snd)

end ScreenSearch.Kernel
