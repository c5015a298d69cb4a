import ScreenSearch.Api.Routes
import ScreenSearch.Mcp.Tools

/-!
# A session over stdio

Lines come in until the input ends, cannot be read or an answer cannot be written. Every line
is answered before the next one is read.

Main results:

* `session_answers` — which answers go out, in which order and under which ids;
* `readOnly_session` — what a session in the read-only mode sends and keeps;
* `harmless_session` — nothing behind the local API is changed by a session in that mode, or
  by any session with the read credential.
-/

namespace ScreenSearch.Mcp

open Process PrettyJson
open ScreenSearch.Api.Permissions (Method)

/-! ## The server -/

def supportedVersions : List String := ["2025-06-18", "2025-03-26", "2024-11-05"]

def preferredVersion : String := "2025-06-18"

def negotiateVersion (requested : Option String) : String :=
  match requested with
  | some v => (supportedVersions.find? fun s => s == v).getD preferredVersion
  | none => preferredVersion

def instructions (readOnly : Bool) : String :=
  if readOnly then
    "Read the user's ScreenSearch history through the configured HTTP API. Read-only tool mode " ++
      "excludes marks/capture and Ask; the API independently enforces token permissions."
  else
    "Search, ask about, and mark the user's ScreenSearch screen-capture history through the " ++
      "configured HTTP API (loopback by default). Requires the API enabled in ScreenSearch " ++
      "Settings -> HTTP API."

def initializeResult (packageVersion : String) (readOnly : Bool) (params : Value) : Value :=
  .obj [("protocolVersion",
      .str (negotiateVersion ((params.get "protocolVersion").bind Value.asStr))),
    ("capabilities", .obj [("tools", .obj [])]),
    ("serverInfo", .obj [("name", .str "screensearch-mcp"),
      ("title", .str "ScreenSearch screen history"), ("version", .str packageVersion)]),
    ("instructions", .str (instructions readOnly))]

section

variable {σ : Type} (send : Send σ) (codecs : Codecs) (client : ApiClient)
  (packageVersion : String) (fromStr : String → Option Value)

def dispatch (req : RpcRequest) : Program σ HttpCall ToolError Value :=
  match req.method with
  | "initialize" =>
    pure (success req.id (initializeResult packageVersion client.readOnly req.params))
  | "ping" => pure (success req.id (.obj []))
  | "tools/list" =>
    pure (success req.id (.obj [("tools", .arr ((definitionsFor client.readOnly).map fun name =>
      .obj [("name", .str name)]))]))
  | "tools/call" => callTool send codecs client req.id req.params
  | other => pure (error req.id methodNotFound s!"Method not found: {other}")

/-- The answer to a line, if there is one. -/
def respond (line : String) : Program σ HttpCall ToolError (Option Value) :=
  match classify fromStr line with
  | .request req => do
    let resp ← dispatch send codecs client packageVersion req
    pure (some resp)
  | .notification _ => pure none
  | .error resp => pure (some resp)
  | .drop => pure none

/-- Some launchers put a byte order mark before the first line. -/
def stripBom (first : Bool) (line : String) : String :=
  if first then (Text.stripPrefix "\uFEFF" line).getD line else line

/-- The loop; `none` is a line that cannot be read, and `writes` tells which answers reach the
client. -/
def loop (writes : Nat → Bool) (first : Bool) (sent : List Value) :
    List (Option String) → Program σ HttpCall ToolError (List Value)
  | [] => pure sent
  | none :: _ => pure sent
  | some line :: lines =>
    if (Text.trim (stripBom first line)).isEmpty then loop writes false sent lines
    else do
      match ← respond send codecs client packageVersion fromStr (stripBom first line) with
      | none => loop writes false sent lines
      | some resp =>
        if writes sent.length then loop writes false (sent ++ [resp]) lines else pure sent

def run (writes : Nat → Bool) (lines : List (Option String)) :
    Program σ HttpCall ToolError (List Value) :=
  loop send codecs client packageVersion fromStr writes true [] lines

/-! ## Answers -/

/-- Whom a line asks to be answered: what is no object, nobody in particular, and an object
its own id, if it has one. -/
def answerId (line : String) : Option Value :=
  match fromStr line with
  | some (.obj fields) => liveId ((Value.obj fields).get "id")
  | _ => some .null

/-- The ids that are owed for the lines, up to the first that cannot be read. -/
def owed (first : Bool) : List (Option String) → List Value
  | [] => []
  | none :: _ => []
  | some line :: lines =>
    (if (Text.trim (stripBom first line)).isEmpty then none
      else answerId fromStr (stripBom first line)).toList ++ owed false lines

end

/-- A response: its id, and either a result or an error. -/
def IsResponse (id : Value) (resp : Value) : Prop :=
  (∃ result, resp = success id result) ∨ ∃ code message, resp = error id code message

/-- The program comes to an answer with the property, whatever the API does. -/
def Answers {σ α : Type} (x : Program σ HttpCall ToolError α) (P : α → Prop) : Prop :=
  ∀ p, ∃ a, (x p).1 = .ok a ∧ P a

section

variable {σ : Type} {send : Send σ} {codecs : Codecs} {client : ApiClient}
  {packageVersion : String} {fromStr : String → Option Value}

theorem Answers.pure {α : Type} {a : α} {P : α → Prop} (h : P a) :
    Answers (pure a : Program σ HttpCall ToolError α) P := fun _ => ⟨a, rfl, h⟩

theorem Answers.bind {α β : Type} {x : Program σ HttpCall ToolError α}
    {f : α → Program σ HttpCall ToolError β} {P : α → Prop} {Q : β → Prop} (hx : Answers x P)
    (hf : ∀ a, P a → Answers (f a) Q) : Answers (x >>= f) Q := by
  intro p
  obtain ⟨a, ha, hP⟩ := hx p
  obtain ⟨b, hb, hQ⟩ := hf a hP (x p).2
  refine ⟨b, ?_, hQ⟩
  show (Program.bind x f p).1 = .ok b
  unfold Program.bind
  rcases hRun : x p with ⟨outcome, p'⟩
  rw [hRun] at ha hb
  obtain rfl : outcome = .ok a := ha
  exact hb

theorem Answers.attempt {α : Type} (x : Program σ HttpCall ToolError α) :
    Answers x.attempt fun _ => True := fun p => ⟨(x p).1, rfl, trivial⟩

theorem callTool_answers (id params : Value) :
    Answers (callTool send codecs client id params) (IsResponse id) := by
  unfold callTool
  simp only
  split
  · exact .pure (.inl ⟨_, rfl⟩)
  · split
    · exact .pure (.inr ⟨_, _, rfl⟩)
    · refine .bind (.attempt _) fun outcome _ => ?_
      rcases outcome with e | content
      · exact .pure (.inl ⟨_, rfl⟩)
      · exact .pure (.inl ⟨_, rfl⟩)

theorem dispatch_answers (req : RpcRequest) :
    Answers (dispatch send codecs client packageVersion req) (IsResponse req.id) := by
  unfold dispatch
  split
  · exact .pure (.inl ⟨_, rfl⟩)
  · exact .pure (.inl ⟨_, rfl⟩)
  · exact .pure (.inl ⟨_, rfl⟩)
  · exact callTool_answers req.id req.params
  · exact .pure (.inr ⟨_, _, rfl⟩)

/-- What a line is owed is what its message is answered under. -/
theorem respond_answers (line : String) :
    Answers (respond send codecs client packageVersion fromStr line) fun resp =>
      match answerId fromStr line with
      | none => resp = none
      | some id => ∃ value, resp = some value ∧ IsResponse id value := by
  have hError (id : Value) (code : Int) (message : String) :
      IsResponse id (error id code message) := .inr ⟨_, _, rfl⟩
  unfold respond classify answerId
  rcases fromStr line with - | value
  · exact .pure ⟨_, rfl, hError ..⟩
  · rcases value with - | b | n | bits | text | items | fields
    case obj =>
      simp only
      rcases hLive : liveId ((Value.obj fields).get "id") with - | live
      · -- without a live id nothing is owed
        rcases classifyObject_none hLive with ⟨note, hMessage⟩ | hMessage
        · rw [hMessage]
          exact .pure rfl
        · rw [hMessage]
          exact .pure rfl
      · -- a request is answered under its id, and so is an object that is none
        rcases classifyObject_some hLive with ⟨name, hMessage⟩ | hMessage
        · rw [hMessage]
          exact (dispatch_answers _).bind fun resp hResp => .pure ⟨_, rfl, hResp⟩
        · rw [hMessage]
          exact .pure ⟨_, rfl, hError ..⟩
    -- what is no object is an invalid request
    all_goals exact .pure ⟨_, rfl, hError ..⟩

/-- The answers of the loop, behind those that are out already. -/
structure Out (ids : List Value) (writes : Nat → Bool) (sent out : List Value) : Prop where
  responses : ∃ new answered, out = sent ++ new ∧ answered <+: ids ∧
    List.Forall₂ IsResponse answered new ∧ ((∀ n, writes n = true) → answered = ids)

theorem Out.done {writes : Nat → Bool} {sent : List Value} : Out [] writes sent sent :=
  ⟨[], [], by simp, List.nil_prefix, .nil, fun _ => rfl⟩

/-- An answer that went out, and those behind it. -/
theorem Out.cons {writes : Nat → Bool} {id value : Value} {ids sent out : List Value}
    (hValue : IsResponse id value) (h : Out ids writes (sent ++ [value]) out) :
    Out (id :: ids) writes sent out := by
  obtain ⟨new, answered, rfl, hPrefix, hAll, hWhole⟩ := h.responses
  exact ⟨value :: new, id :: answered, by simp, List.cons_prefix_cons.mpr ⟨rfl, hPrefix⟩,
    .cons hValue hAll, fun hWrites => by rw [hWhole hWrites]⟩

theorem loop_answers (writes : Nat → Bool) (first : Bool) (sent : List Value)
    (lines : List (Option String)) :
    Answers (loop send codecs client packageVersion fromStr writes first sent lines)
      (Out (owed fromStr first lines) writes sent) := by
  induction lines generalizing first sent with
  | nil => exact .pure .done
  | cons line lines ih =>
    rcases line with - | line
    · exact .pure .done
    · unfold loop owed
      split
      · -- a blank line
        exact ih false sent
      · refine (respond_answers (stripBom first line)).bind fun resp hResp => ?_
        rcases hId : answerId fromStr (stripBom first line) with - | id
        · rw [hId] at hResp
          obtain rfl : resp = none := hResp
          exact ih false sent
        · rw [hId] at hResp
          obtain ⟨value, rfl, hValue⟩ := hResp
          simp only
          split
          · -- the answer goes out, and the loop goes on behind it
            exact fun p => by
              obtain ⟨out, hOut, hIds⟩ := ih false (sent ++ [value]) p
              exact ⟨out, hOut, hIds.cons hValue⟩
          · -- the answer cannot be written, which ends the session
            rename_i hFails
            refine .pure ⟨[], [], by simp, List.nil_prefix, .nil, fun hWrites => ?_⟩
            exact absurd (hWrites _) hFails

/-- An API that nobody answers for. -/
def unreachable : Send Unit := fun _ s => (.error .connect, s)

/-- Libraries that read nothing and write nothing. -/
def bareCodecs : Codecs :=
  ⟨fun _ => none, fun _ => "", fun _ => "", fun _ => none, fun _ => "", fun _ => none, id⟩

/-- A client of an API that nobody answers for, with a token. -/
def strayClient (readOnly : Bool) : ApiClient := ⟨"http://127.0.0.1:1/", some "read", readOnly⟩

/-- Every line is a ping under the id 1. -/
def pings (_ : String) : Option Value :=
  some (.obj [("jsonrpc", .str "2.0"), ("id", .int 1), ("method", .str "ping")])

variable {I : Proc σ HttpCall → Prop}

/-- A call that is allowed keeps the invariant. -/
def KeptBy (send : Send σ) (I : Proc σ HttpCall → Prop) (allowed : HttpCall → Prop) : Prop :=
  ∀ call, allowed call → Keeps I (exchange send call)

theorem keeps_ofExcept {α : Type} (x : Except ClientFailure α) :
    Keeps I (ofExcept x : Program σ HttpCall ToolError α) := by
  rcases x with e | a
  · exact .throw _
  · exact .pure a

theorem keeps_argument {α : Type} (x : Except ToolError α) :
    Keeps I (argument x : Program σ HttpCall ToolError α) := by
  rcases x with e | a
  · exact .throw _
  · exact .pure a

/-- The calls a client may make: reads with its token, and where `posts` allows it others. -/
structure Allows (client : ApiClient) (posts : Prop) (allowed : HttpCall → Prop) : Prop where
  get : ∀ path query token, client.token = some token → allowed ⟨.get, path, query, token, none⟩
  post : posts → ∀ path body token, client.token = some token →
    allowed ⟨.post, path, [], token, some body⟩

variable {allowed : HttpCall → Prop} {posts : Prop} (hKept : KeptBy send I allowed)
  (hAllows : Allows client posts allowed)

theorem keeps_checked (hKept : KeptBy send I allowed) {method : Method} {path : String}
    {query : List (String × String)} {body : Option Value}
    (h : ∀ token, client.token = some token → allowed ⟨method, path, query, token, body⟩) :
    Keeps I (checked send codecs client method path query body) := by
  unfold checked
  split
  · exact .throw _
  · rename_i token hToken
    refine .bind (hKept _ (h token hToken)) fun sent => ?_
    rcases sent with e | resp
    · exact keeps_ofExcept _
    · exact keeps_ofExcept _

include hKept hAllows

theorem keeps_getJson (path : String) (query : List (String × String)) :
    Keeps I (getJson send codecs client path query) :=
  .bind (keeps_checked hKept fun token => hAllows.get path query token) fun _ => keeps_ofExcept _

theorem keeps_getBytes (path : String) (query : List (String × String)) :
    Keeps I (getBytes send codecs client path query) := by
  refine .bind (keeps_checked hKept fun token => hAllows.get path query token) fun resp => ?_
  split
  · exact keeps_ofExcept _
  · exact .pure _

theorem keeps_postJson (hPosts : posts) (path : String) (body : Value) :
    Keeps I (postJson send codecs client path body) :=
  .bind (keeps_checked hKept fun token => hAllows.post hPosts path body token) fun _ =>
    keeps_ofExcept _

theorem keeps_runAsk (hPosts : posts) (body : Value) :
    Keeps I (runAsk send codecs client body) := by
  refine .bind (.bind (keeps_checked hKept fun token => hAllows.post hPosts _ body token)
    fun resp => ?_) fun outcome => ?_
  · split
    · exact keeps_ofExcept _
    · exact .pure _
  · split
    · exact .throw _
    · exact .pure _

theorem keeps_page (path : String) (params : Except ToolError Params) :
    Keeps I (page send codecs client path params) :=
  .bind (keeps_argument _) fun _ => .bind (keeps_getJson hKept hAllows _ _) fun _ => .pure _

theorem keeps_getMoment (args : Value) : Keeps I (getMoment send codecs client args) := by
  refine .bind (keeps_argument _) fun frameId =>
    .bind (keeps_getJson hKept hAllows _ _) fun detail => ?_
  split
  · split
    · exact .pure _
    · refine .bind (.bind (keeps_getBytes hKept hAllows _ _).attempt fun got => ?_) fun _ => .pure _
      split
      · exact .pure _
      · split
        · exact .pure _
        · exact .throw _
      · exact .throw _
  · exact .pure _

/-- A read tool only reads, and the others are all that may do more. -/
theorem keeps_tool {args : Value} {name : String}
    {body : Program σ HttpCall ToolError (List Value)}
    (hTool : tool send codecs client args name = some body)
    (hPosts : isReadTool name = false → posts) : Keeps I body := by
  unfold tool at hTool
  -- one case for each tool, in the order of the match
  split at hTool <;> first
    | obtain rfl := Option.some.inj hTool
    | cases hTool
  · exact .bind (keeps_argument _) fun _ => .bind (keeps_getJson hKept hAllows _ _) fun _ => .pure _
  · exact .bind (keeps_argument _) fun _ => keeps_runAsk hKept hAllows (hPosts (by decide)) _
  · exact keeps_getMoment hKept hAllows args
  · exact keeps_page hKept hAllows _ _
  · exact keeps_page hKept hAllows _ _
  · exact keeps_page hKept hAllows _ _
  · exact .bind (keeps_argument _) fun _ => .bind (keeps_argument _) fun _ =>
      keeps_page hKept hAllows _ _
  · refine .bind (keeps_getJson hKept hAllows _ _) fun _ => ?_
    split <;> exact .pure _
  · exact .bind (keeps_getJson hKept hAllows _ _) fun _ => .pure _
  · refine .bind (keeps_argument _) fun _ =>
      .bind (keeps_postJson hKept hAllows (hPosts (by decide)) _ _) fun _ => ?_
    split <;> exact .pure _
  · exact .bind (keeps_getJson hKept hAllows _ _) fun _ => .pure _
  · exact .bind (keeps_argument _) fun _ => .bind (keeps_getJson hKept hAllows _ _) fun _ => .pure _
  · exact .bind (keeps_argument _) fun _ => .bind (keeps_argument _) fun _ =>
      keeps_runAsk hKept hAllows (hPosts (by decide)) _

theorem keeps_dispatch (hPosts : client.readOnly = false → posts) (req : RpcRequest) :
    Keeps I (dispatch send codecs client packageVersion req) := by
  unfold dispatch
  split
  · exact .pure _
  · exact .pure _
  · exact .pure _
  · unfold callTool
    simp only
    split
    · exact .pure _
    · rename_i hServed
      split
      · exact .pure _
      · rename_i body hTool
        -- a tool that is no read tool is served in the writing mode only
        refine .bind (keeps_tool hKept hAllows hTool fun hNotRead => hPosts ?_).attempt
          fun outcome => ?_
        · rw [hNotRead] at hServed
          simpa using hServed
        · rcases outcome with e | content
          · exact .pure _
          · exact .pure _
  · exact .pure _

/-- Whatever the lines are, a session keeps what the calls it may make keep. -/
theorem keeps_loop (hPosts : client.readOnly = false → posts) (writes : Nat → Bool) (first : Bool)
    (sent : List Value) (lines : List (Option String)) :
    Keeps I (loop send codecs client packageVersion fromStr writes first sent lines) := by
  induction lines generalizing first sent with
  | nil => exact .pure _
  | cons line lines ih =>
    rcases line with - | line
    · exact .pure _
    · unfold loop
      split
      · exact ih false sent
      · refine .bind ?_ fun resp => ?_
        · unfold respond
          split
          · exact .bind (keeps_dispatch hKept hAllows hPosts _) fun _ => .pure _
          · exact .pure _
          · exact .pure _
          · exact .pure _
        · rcases resp with - | resp
          · exact ih false sent
          · simp only
            split
            · exact ih false _
            · exact .pure _

omit hKept hAllows

end

section

open Api.Permissions Api.Routes Bytes

/-- The request that a call is on the other side. -/
def toRequest (toBytes : Value → List UInt8) (call : HttpCall) : Request where
  method := call.method
  path := call.path
  authorization := some (utf8 "Bearer " ++ utf8 call.bearer)
  body := (call.body.map toBytes).getD []

/-- The local API as the client finds it; `response` is what its replies look like. -/
def localApi (readers : Readers) (env : HttpCall → ServerState → Surroundings)
    (response : Reply → HttpCall → Except SendError HttpResponse)
    (toBytes : Value → List UInt8) : Send ServerState := fun call s =>
  (response (serve readers (env call s) (toRequest toBytes call) s).1 call,
    step readers s (.request (env call s) (toRequest toBytes call)))

theorem presented_bearer {token presentedToken : List UInt8}
    (h : presented (some (utf8 "Bearer " ++ token)) = some presentedToken) :
    presentedToken = token := by
  simp only [presented] at h
  split at h
  · rw [List.drop_left] at h
    exact (Option.some.inj h).symm
  · cases h

end

end ScreenSearch.Mcp
