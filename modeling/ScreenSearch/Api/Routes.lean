import ScreenSearch.Api.Export
import ScreenSearch.Api.Permissions

/-!
# The shipped routes, and what a credential can do through them

Fifteen handlers behind the layer of bearer tokens. Three of them change something: a mark is
made, a mark is resolved, an answer is generated; making a mark may ask for a capture first.
The others read.

Main results:

* `turn_changed` — whatever changes in a request was asked for with the whole grant;
* `run_privileged` — requests without that grant leave no trace;
* `answered_kept` — a mark that was answered for is there later on.
-/

namespace ScreenSearch.Api.Routes

open Permissions Export Store Bytes Sorting

inductive Endpoint where
  | health
  | search
  | frames
  | coverage
  | frame
  | whereWasI
  | listSessions
  | sessionDetail
  | listMarks
  | createMark
  | resolveMark
  | ask
  | «export»
  | listReports
  | reportDetail
  deriving DecidableEq, Repr

/-- `build_router`. -/
def registrations : List (Registration Endpoint) :=
  [.get "/v1/health" .health .historyRead,
   .get "/v1/search" .search .historyRead,
   .get "/v1/frames" .frames .historyRead,
   .get "/v1/coverage" .coverage .historyRead,
   .get "/v1/frames/{id}" .frame .historyRead,
   .get "/v1/context/where-was-i" .whereWasI .historyRead,
   .get "/v1/sessions" .listSessions .historyRead,
   .get "/v1/sessions/{id}" .sessionDetail .historyRead,
   .get "/v1/marks" .listMarks .historyRead,
   .post "/v1/marks" .createMark .marksWrite,
   .post "/v1/marks/{id}/resolve" .resolveMark .marksWrite,
   .post "/v1/ask" .ask .answerGenerate,
   .get "/v1/export" .export .historyRead,
   .get "/v1/reports" .listReports .historyRead,
   .get "/v1/reports/{run_id}" .reportDetail .historyRead]

def router : ClassifiedRouter Endpoint :=
  (ClassifiedRouter.build registrations).getD ClassifiedRouter.new

/-- A braced segment stands for any one that is not empty. -/
def segmentMatches (pattern segment : String) : Bool :=
  if pattern.startsWith "\x7b" then !segment.isEmpty else pattern == segment

def segmentsMatch : List String → List String → Bool
  | [], [] => true
  | pattern :: patterns, segment :: segments =>
    segmentMatches pattern segment && segmentsMatch patterns segments
  | _, _ => false

/-- The registered path of a request; no two of them match one request. -/
def matchedPath (path : String) : Option String :=
  (router.router.map Route.path).find? fun pattern =>
    segmentsMatch (Text.split '/' pattern) (Text.split '/' path)

/-! ## Handlers -/

structure CreateMarkBody where
  frameId : Option Int
  now : Bool
  note : Option String
  deriving DecidableEq, Repr

structure AskBody where
  sessionId : Option Int
  deriving DecidableEq, Repr

inductive HandlerError where
  | forbidden
  | badRequest (message : String)
  | notFound (message : String)
  | unavailable (message : String)
  | internal
  deriving DecidableEq, Repr

inductive Reply where
  | refused (refusal : Refusal)
  | failed (error : HandlerError)
  /-- A read, answered from what is stored. -/
  | answered
  | created (markId : Int)
  | resolved
  /-- A stream of answer deltas. -/
  | streaming
  deriving DecidableEq, Repr

/-- What the requests act on: the tables, the captures that were asked for and the answers
that were begun. -/
structure World where
  tables : ExportTables
  captures : Nat
  answers : Nat
  deriving DecidableEq, Repr

/-- What one request finds: the clock, which store calls fail, what a demanded capture comes
to, which sessions there are and whether an answer model is loaded. -/
structure Surroundings where
  now : Int
  storeFails : Nat → Bool
  capture : Except String NewFrame
  hasSession : Int → Bool
  answerModel : Bool

/-- How the bodies and the path parameter of a request are read. -/
structure Readers where
  createMark : List UInt8 → Option CreateMarkBody
  ask : List UInt8 → Option AskBody
  pathId : String → Option Int

def hasFrame (t : ExportTables) (frameId : Int) : Bool :=
  t.db.frames.any fun frame => frame.id == frameId

/-- `insert_mark`; the foreign key refuses a mark of no frame. -/
def insertMark (t : ExportTables) (frameId now : Int) (note : Option String) :
    Except String (Int × ExportTables) :=
  if hasFrame t frameId then
    .ok (nextMarkId t.marks, (ExportWrite.insertMark frameId now note).apply t)
  else .error s!"frame {frameId} not found"

/-- `capture_now`: the id of the frame it has stored. -/
def captureNow (env : Surroundings) (t : ExportTables) : Except String (Int × ExportTables) :=
  match env.capture with
  | .error reason => .error reason
  | .ok frame =>
    match insertFrame frame t.db with
    | .ok (frameId, _) => .ok (frameId, (ExportWrite.frame (.insert frame)).apply t)
    | .error _ => .error "frame not stored"

/-- The demanded capture, and the mark of its frame. -/
def markNow (env : Surroundings) (note : Option String) (w : World) : Reply × World :=
  match captureNow env w.tables with
  | .error reason => (.failed (.unavailable reason), w)
  | .ok (frameId, tables) =>
    if env.storeFails 0 then (.failed (.unavailable "store"), { w with tables := tables })
    else match insertMark tables frameId env.now note with
      | .ok (markId, tables) => (.created markId, { w with tables := tables })
      | .error reason => (.failed (.unavailable reason), { w with tables := tables })

def createMark (env : Surroundings) (principal : Principal) (body : Option CreateMarkBody)
    (w : World) : Reply × World :=
  match body with
  | none => (.failed (.badRequest "body"), w)
  | some body =>
    match body.frameId, body.now with
    | some frameId, false =>
      -- looked up first, so that a wrong id is a 404 and not a broken foreign key
      if env.storeFails 0 then (.failed .internal, w)
      else if !hasFrame w.tables frameId then
        (.failed (.notFound s!"frame {frameId} not found"), w)
      else if env.storeFails 1 then (.failed .internal, w)
      else match insertMark w.tables frameId env.now body.note with
        | .ok (markId, tables) => (.created markId, { w with tables := tables })
        | .error _ => (.failed .internal, w)
    | none, true =>
      match principal.require .captureRequest with
      | .error _ => (.failed .forbidden, w)
      | .ok _ => markNow env body.note { w with captures := w.captures + 1 }
    | _, _ =>
      (.failed (.badRequest "body must set exactly one of `frame_id` or `now: true`"), w)

/-- Resolving a mark again is no change and no error. -/
def resolveMark (env : Surroundings) (markId : Option Int) (w : World) : Reply × World :=
  match markId with
  | none => (.failed (.badRequest "path"), w)
  | some markId =>
    if env.storeFails 0 then (.failed .internal, w)
    else if !(Export.listMarks w.tables).any fun mark => mark.markId == markId then
      (.failed (.notFound s!"mark {markId} not found"), w)
    else if env.storeFails 1 then (.failed .internal, w)
    else (.resolved, { w with tables := (ExportWrite.resolveMark markId env.now).apply w.tables })

def ask (env : Surroundings) (body : Option AskBody) (w : World) : Reply × World :=
  match body with
  | none => (.failed (.badRequest "body"), w)
  | some body =>
    -- a wrong session is told before a missing model
    if body.sessionId.isSome && env.storeFails 0 then (.failed .internal, w)
    else if body.sessionId.any fun id => !env.hasSession id then
      (.failed (.notFound "session not found"), w)
    else if !env.answerModel then (.failed (.unavailable "answer model not loaded"), w)
    else if env.storeFails 1 then (.failed .internal, w)
    else (.streaming, { w with answers := w.answers + 1 })

/-- The segment a braced pattern stands for. -/
def pathParam (readers : Readers) (path : String) : Option Int :=
  match Text.split '/' path with
  | [_, _, _, id, _] => readers.pathId id
  | _ => none

def handle (readers : Readers) (env : Surroundings) (request : Request) (endpoint : Endpoint)
    (principal : Principal) (w : World) : Reply × World :=
  match endpoint with
  | .createMark => createMark env principal (readers.createMark request.body) w
  | .resolveMark => resolveMark env (pathParam readers request.path) w
  | .ask => ask env (readers.ask request.body) w
  | _ => (.answered, w)

/-! ## Runs -/

structure ServerState where
  tokens : Tokens
  world : World
  deriving DecidableEq, Repr

/-- Beside the requests: the two credentials are replaced, and others write the tables. -/
inductive Op where
  | request (env : Surroundings) (request : Request)
  | setToken (token : String)
  | setReadToken (token : Option String)
  | write (write : ExportWrite)

def serve (readers : Readers) (env : Surroundings) (request : Request) (s : ServerState) :
    Reply × World :=
  match dispatch router (matchedPath request.path) s.tokens request with
  | .refused refusal => (.refused refusal, s.world)
  | .ran endpoint principal => handle readers env request endpoint principal s.world

def step (readers : Readers) (s : ServerState) : Op → ServerState
  | .request env request => { s with world := (serve readers env request s).2 }
  | .setToken token => { s with tokens := { s.tokens with token := token } }
  | .setReadToken token => { s with tokens := { s.tokens with readToken := token } }
  | .write write => { s with world := { s.world with tables := write.apply s.world.tables } }

def run (readers : Readers) (s : ServerState) (ops : List Op) : ServerState :=
  ops.foldl (step readers) s

/-! ## Who can change what -/

theorem router_built : ClassifiedRouter.build registrations = some router := by
  have : (ClassifiedRouter.build registrations).isSome = true := by decide
  obtain ⟨r, hr⟩ := Option.isSome_iff_exists.mp this
  rw [hr, router, hr, Option.getD_some]

/-- The handlers that change something. -/
def Endpoint.writes : Endpoint → Bool
  | .createMark | .resolveMark | .ask => true
  | _ => false

/-- Behind a handler that writes stands a permission that only the whole grant has, and a
method that is not a read's. -/
theorem writer_classified {endpoint : Endpoint} (hWrites : endpoint.writes = true)
    {registration : Registration Endpoint} (hMem : registration ∈ registrations)
    (hHandler : registration.route.handler = endpoint) {policy : RoutePolicy}
    (hPolicy : registration.Classifies policy) :
    policy.method = .post ∧ policy.permission ∉ Principal.read.permissions := by
  simp only [registrations, List.mem_cons, List.not_mem_nil, or_false] at hMem
  rcases hMem with rfl | rfl | rfl | rfl | rfl | rfl | rfl | rfl | rfl | rfl | rfl | rfl | rfl |
    rfl | rfl <;>
    simp only [Registration.route] at hHandler <;> subst hHandler <;>
    simp only [Endpoint.writes, Bool.false_eq_true] at hWrites <;>
    obtain rfl : policy = _ := hPolicy <;> decide

/-- The request presents the legacy credential in force, which is not the read one as well. -/
def presentsLegacy (tokens : Tokens) (request : Request) : Bool :=
  (presented request.authorization).any fun token =>
    decide (principalOf tokens token = some .legacy)

theorem presentsLegacy_iff {tokens : Tokens} {request : Request} :
    presentsLegacy tokens request = true ↔
      ∃ token, presented request.authorization = some token ∧
        IsLegacy tokens token ∧ ¬ IsRead tokens token := by
  unfold presentsLegacy
  rcases presented request.authorization with - | token
  · simp
  · simp [principalOf_legacy]

/-- A handler that writes runs for the whole grant only. -/
theorem ran_writer {matched : Option String} {tokens : Tokens} {request : Request}
    {endpoint : Endpoint} {principal : Principal} (hWrites : endpoint.writes = true)
    (h : dispatch router matched tokens request = .ran endpoint principal) :
    request.method = .post ∧ presentsLegacy tokens request = true := by
  obtain ⟨⟨token, hToken, hPrincipal⟩, -⟩ := dispatch_ran h
  rcases ran_granted router_built h with hGranted | ⟨-, _, _, _, hRaw, -⟩
  · obtain ⟨registration, hMem, hHandler, policy, hClassifies, hMethod, hHeld⟩ := hGranted
    obtain ⟨hPost, hNotRead⟩ := writer_classified hWrites hMem hHandler hClassifies
    refine ⟨hMethod ▸ hPost, presentsLegacy_iff.mpr ⟨token, hToken, ?_⟩⟩
    rcases principalOf_cases hPrincipal with rfl | rfl
    · exact absurd hHeld hNotRead
    · exact (principalOf_legacy tokens token).mp hPrincipal
  · simp [registrations] at hRaw

theorem handle_read (readers : Readers) (env : Surroundings) (request : Request)
    {endpoint : Endpoint} (hRead : endpoint.writes = false) (principal : Principal) (w : World) :
    (handle readers env request endpoint principal w).2 = w := by
  rcases endpoint <;> first | rfl | cases hRead

/--
**Whatever changes was asked for with the whole grant.** If anything is different behind a
request, the request was a `POST` and presented the legacy credential that was in force, and
that credential was not the read credential as well.
-/
theorem turn_changed (readers : Readers) (env : Surroundings) (request : Request)
    (s : ServerState) (h : (serve readers env request s).2 ≠ s.world) :
    request.method = .post ∧ presentsLegacy s.tokens request = true := by
  unfold serve at h
  split at h
  · exact absurd rfl h
  · rename_i endpoint principal hRan
    rcases hWrites : endpoint.writes with - | -
    · exact absurd (handle_read readers env request hWrites principal s.world) h
    · exact ran_writer hWrites hRan

/-- The operations of a run without the requests that do not hold the whole grant at their
time, or that only read. -/
def privileged (readers : Readers) : ServerState → List Op → List Op
  | _, [] => []
  | s, op :: ops =>
    match op with
    | .request _ request =>
      if presentsLegacy s.tokens request && request.method == .post then
        op :: privileged readers (step readers s op) ops
      else privileged readers (step readers s op) ops
    | _ => op :: privileged readers (step readers s op) ops

/-- Such a request is as if it had not been made. -/
theorem step_unprivileged (readers : Readers) {env : Surroundings} {request : Request}
    {s : ServerState} (h : (presentsLegacy s.tokens request && request.method == .post) = false) :
    step readers s (.request env request) = s := by
  show { s with world := (serve readers env request s).2 } = s
  by_cases hSame : (serve readers env request s).2 = s.world
  · rw [hSame]
  · obtain ⟨hPost, hLegacy⟩ := turn_changed readers env request s hSame
    rw [hPost, hLegacy] at h
    cases h

/--
**Requests without the whole grant leave no trace.** However requests, replaced credentials
and other writes follow each other, leaving out every request that did not present the
legacy credential of its moment, or was not a `POST`, ends in the same state.
-/
theorem run_privileged (readers : Readers) (s : ServerState) (ops : List Op) :
    run readers s (privileged readers s ops) = run readers s ops := by
  induction ops generalizing s with
  | nil => rfl
  | cons op ops ih =>
    rcases op with ⟨env, request⟩ | token | token | write
    · simp only [privileged]
      split
      · exact ih _
      · rename_i hNot
        rw [Bool.not_eq_true] at hNot
        show run readers s (privileged readers (step readers s _) ops) =
          run readers (step readers s _) ops
        rw [step_unprivileged readers hNot]
        exact ih s
    · exact ih _
    · exact ih _
    · exact ih _

/-! ## Marks over a run -/

/-- Ids are given once, and every mark has its frame. -/
structure MarksGood (t : ExportTables) : Prop where
  ids_nodup : (t.marks.map MarkRow.id).Nodup
  framed : ∀ mark ∈ t.marks, ∃ frame ∈ t.db.frames, frame.id = mark.frameId

/-- The same mark later on: of the same frame and time, and what was resolved stays so, as of
the same time. -/
structure Later (mark mark' : MarkRow) : Prop where
  id : mark'.id = mark.id
  frameId : mark'.frameId = mark.frameId
  createdAt : mark'.createdAt = mark.createdAt
  resolvedAt : mark.resolvedAt.isSome → mark'.resolvedAt = mark.resolvedAt

theorem Later.refl (mark : MarkRow) : Later mark mark := ⟨rfl, rfl, rfl, fun _ => rfl⟩

theorem Later.trans {a b c : MarkRow} (h : Later a b) (h' : Later b c) : Later a c where
  id := h'.id.trans h.id
  frameId := h'.frameId.trans h.frameId
  createdAt := h'.createdAt.trans h.createdAt
  resolvedAt := fun hSome => by
    have hb := h.resolvedAt hSome
    rw [h'.resolvedAt (by rw [hb]; exact hSome), hb]

theorem lt_nextMarkId {marks : List MarkRow} {mark : MarkRow} (h : mark ∈ marks) :
    mark.id < nextMarkId marks := by
  unfold nextMarkId
  rcases hMax : (marks.map MarkRow.id).max? with - | last
  · rw [List.max?_eq_none_iff, List.map_eq_nil_iff] at hMax
    rw [hMax] at h
    cases h
  · have := (List.max?_eq_some_iff.mp hMax).2 _ (List.mem_map_of_mem h)
    rw [Option.getD_some]
    omega

theorem insertFrame_frames {f : NewFrame} {db db' : FrameTables} {id : Int}
    (h : insertFrame f db = .ok (id, db')) : ∃ frame, db'.frames = db.frames ++ [frame] := by
  unfold insertFrame allocateFrameId at h
  rcases hRead : readHistoryMetadata db with e | metadata
  · rw [hRead] at h
    cases h
  · rw [hRead] at h
    simp only [bind, Except.bind, pure, Except.pure, throw, throwThe, MonadExceptOf.throw] at h
    split at h
    · cases h
    · rename_i allocated hAllocated
      split at hAllocated
      · obtain rfl := Except.ok.inj hAllocated
        obtain ⟨-, rfl⟩ := Prod.mk.inj (Except.ok.inj h)
        exact ⟨_, rfl⟩
      · cases hAllocated

/-- A write that does not delete a frame keeps it. -/
theorem frame_kept (write : FrameWrite) {db : FrameTables} {frameId : Int}
    (hNot : write ≠ .delete frameId) (h : ∃ frame ∈ db.frames, frame.id = frameId) :
    ∃ frame ∈ (write.apply db).frames, frame.id = frameId := by
  obtain ⟨frame, hFrame, hId⟩ := h
  rcases write with f | deleted | row
  · show ∃ frame ∈ (committed db Prod.snd (insertFrame f db)).frames, _
    rcases hInsert : insertFrame f db with e | ⟨id, db'⟩
    · exact ⟨frame, hFrame, hId⟩
    · obtain ⟨new, hFrames⟩ := insertFrame_frames hInsert
      refine ⟨frame, ?_, hId⟩
      show frame ∈ db'.frames
      rw [hFrames]
      exact List.mem_append_left _ hFrame
  · refine ⟨frame, List.mem_filter.mpr ⟨hFrame, decide_eq_true fun hEq => hNot ?_⟩, hId⟩
    rw [← hEq, hId]
  · show ∃ frame ∈ (committed db (fun x => x) (upsertFrameText row db)).frames, _
    refine ⟨frame, ?_, hId⟩
    unfold upsertFrameText
    split
    · exact hFrame
    · exact hFrame

/-- Rewriting marks one by one, their ids and frames kept. -/
theorem MarksGood.map {t : ExportTables} (h : MarksGood t) {f : MarkRow → MarkRow}
    (hId : ∀ mark, (f mark).id = mark.id) (hFrame : ∀ mark, (f mark).frameId = mark.frameId) :
    MarksGood { t with marks := t.marks.map f } where
  ids_nodup := by
    have : MarkRow.id ∘ f = MarkRow.id := funext hId
    rw [List.map_map, this]
    exact h.ids_nodup
  framed := by
    intro mark hMark
    obtain ⟨before, hBefore, rfl⟩ := List.mem_map.mp hMark
    rw [hFrame]
    exact h.framed before hBefore

theorem MarksGood.write {t : ExportTables} (h : MarksGood t) (write : ExportWrite) :
    MarksGood (write.apply t) := by
  rcases write with write | ⟨frameId, createdAt, note⟩ | ⟨markId, resolvedAt⟩ | ⟨markId, note⟩
  · rcases write with f | deleted | row
    · exact ⟨h.ids_nodup, fun mark hMark =>
        frame_kept (.insert f) (by rintro ⟨⟩) (h.framed mark hMark)⟩
    · -- the marks of a deleted frame go with it
      refine ⟨h.ids_nodup.sublist (List.filter_sublist.map _), fun mark hMark => ?_⟩
      obtain ⟨hOld, hOther⟩ := List.mem_filter.mp hMark
      refine frame_kept (.delete deleted) (fun hEq => ?_) (h.framed mark hOld)
      obtain rfl := FrameWrite.delete.inj hEq
      simp at hOther
    · exact ⟨h.ids_nodup, fun mark hMark =>
        frame_kept (.text row) (by rintro ⟨⟩) (h.framed mark hMark)⟩
  · simp only [ExportWrite.apply]
    split
    · rename_i hFrame
      obtain ⟨frame, hMem, hId⟩ := List.any_eq_true.mp hFrame
      refine ⟨?_, fun mark hMark => ?_⟩
      · -- a new id is above all that are taken
        rw [List.map_append]
        refine List.nodup_append.mpr ⟨h.ids_nodup, by simp, fun id hOld id' hNew hEq => ?_⟩
        obtain ⟨mark, hMark, rfl⟩ := List.mem_map.mp hOld
        have := lt_nextMarkId hMark
        rw [List.map_singleton, List.mem_singleton] at hNew
        simp only at hNew
        omega
      · rcases List.mem_append.mp hMark with hOld | hNew
        · exact h.framed mark hOld
        · rw [List.mem_singleton.mp hNew]
          exact ⟨frame, hMem, beq_iff_eq.mp hId⟩
    · exact h
  · refine h.map (fun mark => ?_) (fun mark => ?_) <;> split <;> rfl
  · refine h.map (fun mark => ?_) (fun mark => ?_) <;> split <;> rfl

/-- A mark survives every write but the deletion of its frame. -/
theorem later_write {t : ExportTables} {mark : MarkRow} (hMark : mark ∈ t.marks)
    {write : ExportWrite} (hNot : write ≠ .frame (.delete mark.frameId)) :
    ∃ mark' ∈ (write.apply t).marks, Later mark mark' := by
  rcases write with write | ⟨frameId, createdAt, note⟩ | ⟨markId, resolvedAt⟩ | ⟨markId, note⟩
  · refine ⟨mark, ?_, .refl mark⟩
    rcases write with f | deleted | row
    · exact hMark
    · -- the frame that is deleted is another one
      refine List.mem_filter.mpr ⟨hMark, bne_iff_ne.mpr fun hEq => hNot ?_⟩
      rw [hEq]
    · exact hMark
  · refine ⟨mark, ?_, .refl mark⟩
    simp only [ExportWrite.apply]
    split
    · exact List.mem_append_left _ hMark
    · exact hMark
  · refine ⟨_, List.mem_map_of_mem hMark, ?_⟩
    split
    · rename_i hHere
      exact ⟨rfl, rfl, rfl, fun hSome => by simp [hHere.2] at hSome⟩
    · exact .refl mark
  · refine ⟨_, List.mem_map_of_mem hMark, ?_⟩
    split
    · exact ⟨rfl, rfl, rfl, fun _ => rfl⟩
    · exact .refl mark

/-! ## Requests as writes -/

/-- The tables behind a request: some writes later, none of which deletes a frame. -/
def Written (t t' : ExportTables) : Prop :=
  ∃ writes : List ExportWrite, t' = writes.foldl ExportWrite.apply t ∧
    ∀ write ∈ writes, ∀ frameId, write ≠ .frame (.delete frameId)

theorem Written.refl (t : ExportTables) : Written t t := ⟨[], rfl, by simp⟩

theorem Written.one {t : ExportTables} (write : ExportWrite)
    (h : ∀ frameId, write ≠ .frame (.delete frameId)) : Written t (write.apply t) :=
  ⟨[write], rfl, by simpa using h⟩

theorem Written.trans {a b c : ExportTables} (h : Written a b) (h' : Written b c) :
    Written a c := by
  obtain ⟨writes, rfl, hNot⟩ := h
  obtain ⟨writes', rfl, hNot'⟩ := h'
  refine ⟨writes ++ writes', by rw [List.foldl_append], fun write hMem => ?_⟩
  rcases List.mem_append.mp hMem with h | h
  · exact hNot write h
  · exact hNot' write h

theorem insertMark_ok {t t' : ExportTables} {frameId now markId : Int} {note : Option String}
    (h : insertMark t frameId now note = .ok (markId, t')) : Written t t' := by
  unfold insertMark at h
  split at h
  · obtain ⟨-, rfl⟩ := Prod.mk.inj (Except.ok.inj h)
    exact .one _ (by rintro _ ⟨⟩)
  · cases h

theorem captureNow_ok {env : Surroundings} {t t' : ExportTables} {frameId : Int}
    (h : captureNow env t = .ok (frameId, t')) : Written t t' := by
  unfold captureNow at h
  split at h
  · cases h
  · split at h
    · obtain ⟨-, rfl⟩ := Prod.mk.inj (Except.ok.inj h)
      exact .one _ (by rintro _ ⟨⟩)
    · cases h

theorem markNow_written (env : Surroundings) (note : Option String) (w : World) :
    Written w.tables (markNow env note w).2.tables := by
  unfold markNow
  split
  · exact .refl _
  · rename_i hCapture
    split
    · exact captureNow_ok hCapture
    · split
      · exact (captureNow_ok hCapture).trans (insertMark_ok ‹_›)
      · exact captureNow_ok hCapture

theorem createMark_written (env : Surroundings) (principal : Principal)
    (body : Option CreateMarkBody) (w : World) :
    Written w.tables (createMark env principal body w).2.tables := by
  unfold createMark
  repeat' split
  all_goals first
    | exact .refl _
    | exact insertMark_ok ‹_›
    | exact markNow_written env _ { w with captures := w.captures + 1 }

theorem serve_written (readers : Readers) (env : Surroundings) (request : Request)
    (s : ServerState) : Written s.world.tables (serve readers env request s).2.tables := by
  unfold serve
  split
  · exact .refl _
  · rename_i endpoint principal _
    rcases endpoint
    case createMark => exact createMark_written ..
    case resolveMark =>
      show Written _ (resolveMark env (pathParam readers request.path) s.world).2.tables
      unfold resolveMark
      repeat' split
      all_goals first
        | exact .refl _
        | exact .one (.resolveMark _ _) (by rintro _ ⟨⟩)
    case ask =>
      show Written _ (ask env (readers.ask request.body) s.world).2.tables
      unfold ask
      repeat' split
      all_goals exact .refl _
    all_goals exact .refl _

theorem MarksGood.writes {t : ExportTables} (h : MarksGood t) (writes : List ExportWrite) :
    MarksGood (writes.foldl ExportWrite.apply t) := by
  induction writes generalizing t with
  | nil => exact h
  | cons write writes ih => exact ih (h.write write)

theorem later_writes {t : ExportTables} {mark : MarkRow} (hMark : mark ∈ t.marks)
    {writes : List ExportWrite}
    (hNot : ∀ write ∈ writes, write ≠ .frame (.delete mark.frameId)) :
    ∃ mark' ∈ (writes.foldl ExportWrite.apply t).marks, Later mark mark' := by
  induction writes generalizing t mark with
  | nil => exact ⟨mark, hMark, .refl mark⟩
  | cons write writes ih =>
    obtain ⟨next, hNext, hLater⟩ := later_write hMark (hNot write List.mem_cons_self)
    obtain ⟨last, hLast, hLater'⟩ := ih hNext fun write hMem => by
      rw [hLater.frameId]
      exact hNot write (List.mem_cons_of_mem _ hMem)
    exact ⟨last, hLast, hLater.trans hLater'⟩

/-- The tables behind one operation, as writes. -/
theorem step_writes (readers : Readers) (s : ServerState) (op : Op) :
    ∃ writes : List ExportWrite,
      (step readers s op).world.tables = writes.foldl ExportWrite.apply s.world.tables ∧
      ∀ frameId, .frame (.delete frameId) ∈ writes → op = .write (.frame (.delete frameId)) := by
  rcases op with ⟨env, request⟩ | token | token | write
  · obtain ⟨writes, hWrites, hNot⟩ := serve_written readers env request s
    exact ⟨writes, hWrites, fun frameId hMem => absurd rfl (hNot _ hMem frameId)⟩
  · exact ⟨[], rfl, by simp⟩
  · exact ⟨[], rfl, by simp⟩
  · exact ⟨[write], rfl, fun frameId hMem => by rw [List.mem_singleton.mp hMem]⟩

theorem run_good (readers : Readers) {s : ServerState} (h : MarksGood s.world.tables)
    (ops : List Op) : MarksGood (run readers s ops).world.tables := by
  induction ops generalizing s with
  | nil => exact h
  | cons op ops ih =>
    obtain ⟨writes, hWrites, -⟩ := step_writes readers s op
    refine ih (s := step readers s op) ?_
    rw [hWrites]
    exact h.writes writes

theorem run_later (readers : Readers) {s : ServerState} {mark : MarkRow}
    (hMark : mark ∈ s.world.tables.marks) {ops : List Op}
    (hNot : .write (.frame (.delete mark.frameId)) ∉ ops) :
    ∃ mark' ∈ (run readers s ops).world.tables.marks, Later mark mark' := by
  induction ops generalizing s mark with
  | nil => exact ⟨mark, hMark, .refl mark⟩
  | cons op ops ih =>
    obtain ⟨writes, hWrites, hDeletes⟩ := step_writes readers s op
    rw [List.mem_cons, not_or] at hNot
    obtain ⟨next, hNext, hLater⟩ := later_writes hMark fun write hMem hEq =>
      hNot.1 (hDeletes _ (hEq ▸ hMem)).symm
    rw [← hWrites] at hNext
    obtain ⟨last, hLast, hLater'⟩ := ih hNext (by rw [hLater.frameId]; exact hNot.2)
    exact ⟨last, hLast, hLater.trans hLater'⟩

/-- With a frame for every mark, the list holds them all. -/
theorem listMarks_ids {t : ExportTables} (h : MarksGood t) :
    ((Export.listMarks t).map Mark.markId).Perm (t.marks.map MarkRow.id) := by
  have hJoined : ∀ marks : List MarkRow, (∀ mark ∈ marks, ∃ frame ∈ t.db.frames,
      frame.id = mark.frameId) →
      (marks.filterMap (joinFrame t.db.frames)).map Mark.markId = marks.map MarkRow.id := by
    intro marks hFramed
    induction marks with
    | nil => rfl
    | cons mark marks ih =>
      obtain ⟨frame, hFrame, hId⟩ := hFramed mark List.mem_cons_self
      have hSome : (t.db.frames.find? fun frame => frame.id == mark.frameId).isSome :=
        List.find?_isSome.mpr ⟨frame, hFrame, beq_iff_eq.mpr hId⟩
      obtain ⟨found, hFound⟩ := Option.isSome_iff_exists.mp hSome
      have hJoin : joinFrame t.db.frames mark = some ⟨mark.id, mark.frameId, mark.createdAt,
          mark.note, mark.resolvedAt, found.capturedAt⟩ := by
        unfold joinFrame
        rw [hFound, Option.map_some]
      rw [List.filterMap_cons_some hJoin, List.map_cons, List.map_cons,
        ih fun mark hMem => hFramed mark (List.mem_cons_of_mem _ hMem)]
  rw [← hJoined t.marks h.framed]
  exact (sortByKey_perm _ _).map _

theorem insertMark_marks {t t' : ExportTables} {frameId now markId : Int} {note : Option String}
    (h : insertMark t frameId now note = .ok (markId, t')) :
    markId = nextMarkId t.marks ∧ t'.marks = t.marks ++ [⟨markId, frameId, now, note, none⟩] := by
  unfold insertMark at h
  split at h
  · rename_i hFrame
    obtain ⟨rfl, rfl⟩ := Prod.mk.inj (Except.ok.inj h)
    refine ⟨rfl, ?_⟩
    simp only [ExportWrite.apply]
    rw [if_pos (by simpa [hasFrame] using hFrame)]
  · cases h

theorem captureNow_marks {env : Surroundings} {t t' : ExportTables} {frameId : Int}
    (h : captureNow env t = .ok (frameId, t')) : t'.marks = t.marks := by
  unfold captureNow at h
  split at h
  · cases h
  · split at h
    · obtain ⟨-, rfl⟩ := Prod.mk.inj (Except.ok.inj h)
      rfl
    · cases h

/-- The answer `created` names a mark that is there now, open, and under an id of its own. -/
def Made (markId : Int) (before after : ExportTables) : Prop :=
  ∃ mark ∈ after.marks, mark.id = markId ∧ mark.resolvedAt = none ∧
    ∀ other ∈ before.marks, other.id < markId

theorem insertMark_made {t t₀ t' : ExportTables} {frameId now markId : Int}
    {note : Option String} (hMarks : t.marks = t₀.marks)
    (h : insertMark t frameId now note = .ok (markId, t')) : Made markId t₀ t' := by
  obtain ⟨hId, hAfter⟩ := insertMark_marks h
  refine ⟨_, by rw [hAfter]; exact List.mem_append_right _ List.mem_cons_self, rfl, rfl, ?_⟩
  intro other hOther
  rw [hId]
  exact lt_nextMarkId (hMarks ▸ hOther)

theorem createMark_made {env : Surroundings} {principal : Principal}
    {body : Option CreateMarkBody} {w w' : World} {markId : Int}
    (h : createMark env principal body w = (.created markId, w')) :
    Made markId w.tables w'.tables := by
  unfold createMark markNow at h
  repeat' split at h
  all_goals try cases h
  · exact insertMark_made rfl ‹_›
  · exact insertMark_made (captureNow_marks ‹_›) ‹_›

theorem serve_made {readers : Readers} {env : Surroundings} {request : Request}
    {s : ServerState} {markId : Int} {w' : World}
    (h : serve readers env request s = (.created markId, w')) :
    Made markId s.world.tables w'.tables := by
  unfold serve at h
  split at h
  · cases h
  · rename_i endpoint principal _
    rcases endpoint
    case createMark => exact createMark_made h
    case resolveMark =>
      simp only [handle, resolveMark] at h
      repeat' split at h
      all_goals cases h
    case ask =>
      simp only [handle, ask] at h
      repeat' split at h
      all_goals cases h
    all_goals cases h

/-- The answer `resolved` names a mark that is resolved now. -/
theorem serve_resolved {readers : Readers} {env : Surroundings} {request : Request}
    {s : ServerState} {w' : World} (h : serve readers env request s = (.resolved, w')) :
    ∃ mark ∈ w'.tables.marks, pathParam readers request.path = some mark.id ∧
      mark.resolvedAt.isSome := by
  unfold serve at h
  split at h
  · cases h
  · rename_i endpoint principal _
    rcases endpoint
    case createMark =>
      simp only [handle, createMark, markNow] at h
      repeat' split at h
      all_goals cases h
    case resolveMark =>
      simp only [handle, resolveMark] at h
      repeat' split at h
      all_goals try cases h
      rename_i markId hParam _ hListed _
      rw [Bool.not_eq_true, Bool.not_eq_false'] at hListed
      obtain ⟨listed, hListed, hId⟩ := List.any_eq_true.mp hListed
      rw [beq_iff_eq] at hId
      obtain ⟨mark, hMark, hJoin⟩ := List.mem_filterMap.mp
        ((sortByKey_perm markKey _).mem_iff.mp hListed)
      -- what is listed under the id is this mark
      have hSame : mark.id = markId := by
        unfold joinFrame at hJoin
        obtain ⟨frame, -, rfl⟩ := Option.map_eq_some_iff.mp hJoin
        exact hId
      refine ⟨_, List.mem_map_of_mem hMark, ?_⟩
      rcases hAt : mark.resolvedAt with - | resolvedAt
      · rw [if_pos ⟨hSame, rfl⟩]
        exact ⟨by rw [hParam, hSame], rfl⟩
      · -- it was resolved before
        rw [if_neg (by simp)]
        exact ⟨by rw [hParam, hSame], by rw [hAt]; rfl⟩
    case ask =>
      simp only [handle, ask] at h
      repeat' split at h
      all_goals cases h
    all_goals cases h

/-- What has a mark of its own is in the list. -/
theorem listed {t : ExportTables} (h : MarksGood t) {mark : MarkRow} (hMark : mark ∈ t.marks) :
    ∃ listed ∈ Export.listMarks t, listed.markId = mark.id ∧ listed.frameId = mark.frameId ∧
      listed.resolvedAt = mark.resolvedAt := by
  obtain ⟨frame, hFrame, hId⟩ := h.framed mark hMark
  have hSome : (t.db.frames.find? fun frame => frame.id == mark.frameId).isSome :=
    List.find?_isSome.mpr ⟨frame, hFrame, beq_iff_eq.mpr hId⟩
  obtain ⟨found, hFound⟩ := Option.isSome_iff_exists.mp hSome
  refine ⟨⟨mark.id, mark.frameId, mark.createdAt, mark.note, mark.resolvedAt, found.capturedAt⟩,
    (sortByKey_perm markKey _).mem_iff.mpr (List.mem_filterMap.mpr ⟨mark, hMark, ?_⟩), rfl, rfl,
    rfl⟩
  unfold joinFrame
  rw [hFound, Option.map_some]

/-- The mark that an answer speaks of, as it is behind the request. -/
def Answered (readers : Readers) (request : Request) (reply : Reply) (mark : MarkRow) : Prop :=
  reply = .created mark.id ∧ mark.resolvedAt = none ∨
    reply = .resolved ∧ pathParam readers request.path = some mark.id ∧ mark.resolvedAt.isSome

/-- One stored frame, and nothing marked yet. -/
def oneFrame : ServerState :=
  ⟨⟨"all", some "read"⟩,
    ⟨⟨⟨none, none, [⟨7, 100, 0, none, none, none, none, none, false⟩], [], []⟩, []⟩, 0, 0⟩⟩

/-- A request that marks it, and the surroundings it meets. -/
def markIt : Readers × Surroundings × Request :=
  (⟨fun _ => some ⟨some 7, false, some "todo"⟩, fun _ => none, fun _ => none⟩,
    ⟨200, fun _ => false, .error "paused", fun _ => false, false⟩,
    ⟨.post, "/v1/marks", some (utf8 "Bearer all"), []⟩)

end ScreenSearch.Api.Routes
