import ScreenSearch.Api.Permissions
import ScreenSearch.Lib.Process
import ScreenSearch.Mcp.Rpc
import ScreenSearch.Mcp.Sse

/-!
# The tools and the API client under them

A tool call becomes one or two HTTP calls of the local API with the configured token. What the
API does with a call is not known here: it answers from a state of its own, and may change it.

Main result:

* `listed_iff_served` — in each mode the listed tools are exactly those that are served.
-/

namespace ScreenSearch.Mcp

open Process
open ScreenSearch.Api.Permissions (Method)
open ScreenSearch.Inference (Arrival)

/-! ## The client -/

/-- An HTTP call, as it is sent. -/
structure HttpCall where
  method : Method
  path : String
  query : List (String × String)
  bearer : String
  body : Option Value

/-- Why nothing came back. -/
inductive SendError where
  | connect
  | timeout
  | other (error : String)

structure HttpResponse where
  status : Nat
  contentType : Option String
  /-- The body, chunk by chunk as it arrives. -/
  arrivals : List Arrival

inductive ClientFailure where
  | notReachable (url : String)
  | noToken
  | unauthorized
  | forbidden
  | redirect (status : Nat)
  | stream (failure : ApiFailure)
  deriving DecidableEq, Repr

def ClientFailure.message : ClientFailure → String
  | .notReachable url =>
    s!"ScreenSearch's local API is not responding at {url} — enable the API in " ++
      "ScreenSearch Settings (Settings -> HTTP API), then set SCREENSEARCH_API_TOKEN to the " ++
      "token shown there."
  | .noToken =>
    "No API token is configured. Copy the token from ScreenSearch Settings -> HTTP API and set " ++
      "SCREENSEARCH_API_TOKEN (or pass --token). If the API is off, enable the API in " ++
      "ScreenSearch Settings first."
  | .unauthorized =>
    "The API token was rejected (401). Copy the current token from ScreenSearch Settings -> " ++
      "HTTP API — it may have been regenerated — and update SCREENSEARCH_API_TOKEN."
  | .forbidden =>
    "Permission denied (403): this API token lacks permission for the requested operation. A " ++
      "read-only token cannot create marks, request capture or run Ask. Use read tools " ++
      "(--read-only hides unsupported tools), or explicitly configure an appropriately " ++
      "authorized token from ScreenSearch Settings -> HTTP API."
  | .redirect status =>
    s!"API redirect refused (HTTP {status}); no redirect destination was visited. Configure " ++
      "--api-url with the final HTTP/HTTPS API root. The bearer token was not forwarded."
  | .stream (.api code message) => s!"{code}: {message}"
  | .stream (.transport e) => s!"Local API request failed: {e}"

inductive ToolError where
  | input (message : String)
  | api (failure : ClientFailure)
  deriving DecidableEq, Repr

def ToolError.message : ToolError → String
  | .input message => message
  | .api failure => failure.message

structure ApiClient where
  base : String
  token : Option String
  readOnly : Bool

/-- What the client uses of its libraries: JSON documents read from bytes and printed over
lines, lossy text, the payload of a delta, base64, the reason of a status, and the segment of
a URL. -/
structure Codecs where
  json : List UInt8 → Option Value
  pretty : Value → String
  lossy : List UInt8 → String
  payload : String → Option Payload
  base64 : List UInt8 → String
  reason : Nat → Option String
  segment : String → String

/-- The API: what it answers to a call, and the state it is in then. -/
abbrev Send (σ : Type) := HttpCall → σ → Except SendError HttpResponse × σ

section

variable {σ : Type} (send : Send σ) (codecs : Codecs) (client : ApiClient)

/-- One call goes out, and is remembered. -/
def exchange (call : HttpCall) : Program σ HttpCall ToolError (Except SendError HttpResponse) :=
  fun p =>
    (.ok (send call p.store).1,
      { store := (send call p.store).2, clock := p.clock + 1,
        history := { store := (send call p.store).2, event := some call } :: p.history })

def ofExcept {α : Type} : Except ClientFailure α → Program σ HttpCall ToolError α
  | .ok a => pure a
  | .error failure => Program.throw (.api failure)

def mapReqwest : SendError → ClientFailure
  | .connect | .timeout => .notReachable client.base
  | .other e => .stream (.transport e)

/-- The bytes of a body, if all of them arrive. -/
def bytes (arrivals : List Arrival) : Except String (List UInt8) :=
  (arrivals.mapM id).map List.flatten

def checkStatus (resp : HttpResponse) : Except ClientFailure HttpResponse :=
  if 200 ≤ resp.status ∧ resp.status < 300 then .ok resp
  else if resp.status = 401 then .error .unauthorized
  else if resp.status = 403 then .error .forbidden
  else if 300 ≤ resp.status ∧ resp.status < 400 then .error (.redirect resp.status)
  else
    let fallback := Text.toAsciiLowercase ((codecs.reason resp.status).getD "error")
    match (bytes resp.arrivals).toOption.bind codecs.json with
    | some v =>
      .error (.stream (.api (((v.get "error").bind Value.asStr).getD fallback)
        (((v.get "message").bind Value.asStr).getD "")))
    | none => .error (.stream (.api fallback s!"HTTP {resp.status}"))

/-- One authorized call, and its answer if it is a success; without a token nothing is sent. -/
def checked (method : Method) (path : String) (query : List (String × String))
    (body : Option Value) : Program σ HttpCall ToolError HttpResponse :=
  match client.token with
  | none => Program.throw (.api .noToken)
  | some token => do
    match ← exchange send ⟨method, path, query, token, body⟩ with
    | .error e => ofExcept (.error (mapReqwest client e))
    | .ok resp => ofExcept (checkStatus codecs resp)

def jsonBody (resp : HttpResponse) : Except ClientFailure Value :=
  match (bytes resp.arrivals) with
  | .error e => .error (.stream (.transport e))
  | .ok body =>
    match codecs.json body with
    | some v => .ok v
    | none => .error (.stream (.transport "error decoding response body"))

def getJson (path : String) (query : List (String × String)) :
    Program σ HttpCall ToolError Value := do
  let resp ← checked send codecs client .get path query none
  ofExcept (jsonBody codecs resp)

def getBytes (path : String) (query : List (String × String)) :
    Program σ HttpCall ToolError (List UInt8 × String) := do
  let resp ← checked send codecs client .get path query none
  match bytes resp.arrivals with
  | .error e => ofExcept (.error (.stream (.transport e)))
  | .ok body => pure (body, resp.contentType.getD "image/webp")

def postJson (path : String) (body : Value) : Program σ HttpCall ToolError Value := do
  let resp ← checked send codecs client .post path [] (some body)
  ofExcept (jsonBody codecs resp)

def postAsk (body : Value) : Program σ HttpCall ToolError AskOutcome := do
  let resp ← checked send codecs client .post "/v1/ask" [] (some body)
  match ask codecs.lossy codecs.payload resp.arrivals with
  | .error failure => ofExcept (.error (.stream failure))
  | .ok outcome => pure outcome

end

/-! ## Arguments -/

abbrev Params := List (String × String)

def requireStr (args : Value) (key : String) : Except ToolError String :=
  match (args.get key).bind Value.asStr with
  | some s => .ok s
  | none => .error (.input s!"missing required string argument `{key}`")

def requireI64 (args : Value) (key : String) : Except ToolError Int :=
  match (args.get key).bind Value.asI64 with
  | some n => .ok n
  | none => .error (.input s!"missing required integer argument `{key}`")

/-- Nothing is coerced: an integer in quotes is not one. -/
def requireInteger (args : Value) (key : String) : Except ToolError Int :=
  match args.get key with
  | none | some .null => .error (.input s!"missing required integer argument `{key}`")
  | some v =>
    match v.asI64 with
    | some n => .ok n
    | none => .error (.input s!"`{key}` must be an integer")

def optionalInteger (args : Value) (key : String) : Except ToolError (Option Int) :=
  match args.get key with
  | none | some .null => .ok none
  | some v =>
    match v.asI64 with
    | some n => .ok (some n)
    | none => .error (.input s!"`{key}` must be an integer")

def optionalString (args : Value) (key : String) : Except ToolError (Option String) :=
  match args.get key with
  | none | some .null => .ok none
  | some (.str s) => .ok (some s)
  | some _ => .error (.input s!"`{key}` must be a string")

/-- A parameter that is left out where its argument has another type. -/
def lenientInt (args : Value) (key : String) : Params :=
  (((args.get key).bind Value.asI64).map fun n => (key, toString n)).toList

def lenientStr (args : Value) (key : String) : Params :=
  (((args.get key).bind Value.asStr).map fun s => (key, s)).toList

def lenientBool (args : Value) (key : String) : Params :=
  (((args.get key).bind Value.asBool).map fun b => (key, if b then "true" else "false")).toList

/-- A page of a listing: its maximum, the cap on its cursor if it has one, and the two filters
that the first page may carry. -/
structure Listing where
  maxLimit : Int
  cursorMaxBytes : Option Nat
  filters : String × String

def cannotCombine (key : String) : ToolError :=
  .input (s!"`{key}` cannot be combined with `cursor` — a continuation carries the frozen window " ++
    "and filters; pass only `limit` alongside `cursor`")

/-- The first page asks for its window, a further one for its cursor only. -/
def buildListingQuery (listing : Listing) (args : Value) : Except ToolError Params := do
  let limit ← optionalInteger args "limit"
  if limit.any fun n => decide (n < 1 ∨ listing.maxLimit < n) then
    throw (.input s!"`limit` must be between 1 and {listing.maxLimit}")
  let limitParam := (limit.map fun n => ("limit", toString n)).toList
  match ← optionalString args "cursor" with
  | some cursor =>
    if listing.cursorMaxBytes.any fun max => decide (max < cursor.utf8ByteSize) then
      throw (.input s!"`cursor` exceeds the {listing.cursorMaxBytes.getD 0}-byte limit")
    match ["from", "to", listing.filters.1, listing.filters.2].find? fun key =>
        (args.get key).any fun v => !v.isNull with
    | some key => throw (cannotCombine key)
    | none => pure (("cursor", cursor) :: limitParam)
  | none =>
    let start ← requireInteger args "from"
    let stop ← requireInteger args "to"
    let first ← optionalString args listing.filters.1
    let second ← optionalString args listing.filters.2
    pure ([("from", toString start), ("to", toString stop)] ++
      (first.map fun s => (listing.filters.1, s)).toList ++
      (second.map fun s => (listing.filters.2, s)).toList ++ limitParam)

def framesListing : Listing := ⟨1000, none, ("app", "window_title")⟩

def buildFramesQuery : Value → Except ToolError Params := buildListingQuery framesListing

def reportsListing : Listing := ⟨1000, some 4096, ("phase", "outcome")⟩

def buildReportsQuery : Value → Except ToolError Params := buildListingQuery reportsListing

def buildCoverageQuery (args : Value) : Except ToolError Params := do
  let start ← requireInteger args "from"
  let stop ← requireInteger args "to"
  pure [("from", toString start), ("to", toString stop)]

def rejectUnrepresentableRunId (runId : String) : Except ToolError Unit :=
  if runId.isEmpty || runId == "." || runId == ".." then
    .error (.input ("`run_id` must be a non-empty opaque id that is not `.` or `..` — it is " ++
      "carried as a single URL path segment"))
  else .ok ()

/-- No frame id asks for the screen of now; one that is no integer asks for nothing. -/
def buildAddMarkBody (args : Value) : Except ToolError Value := do
  let target ← match args.get "frame_id" with
    | none | some .null => pure [("now", Value.bool true)]
    | some v =>
      match v.asI64 with
      | some id => pure [("frame_id", Value.int id)]
      | none =>
        throw (.input "`frame_id` must be an integer (omit it to mark the current screen)")
  let note := (((args.get "note").bind Value.asStr).map fun s => ("note", Value.str s)).toList
  pure (.obj (target ++ note))

def buildAskBody (args : Value) (sessionId : Option Int) : Except ToolError Value := do
  let query ← requireStr args "query"
  let number (key : String) :=
    (((args.get key).bind Value.asI64).map fun n => (key, Value.int n)).toList
  let thinking := (((args.get "thinking").bind Value.asBool).map fun b =>
    ("thinking", Value.bool b)).toList
  let session := (sessionId.map fun id => ("session_id", Value.int id)).toList
  pure (.obj ([("query", .str query)] ++ number "top_k" ++ number "max_tokens" ++ thinking ++
    session))

/-! ## Tools -/

def textBlock (text : String) : Value := .obj [("type", .str "text"), ("text", .str text)]

def errorResult (message : String) : Value :=
  .obj [("content", .arr [textBlock message]), ("isError", .bool true)]

def purgedNote : String :=
  "(screenshot purged by retention — the text reconstruction is preserved)"

section

variable {σ : Type} (send : Send σ) (codecs : Codecs) (client : ApiClient)

/-- An argument, or the input error of the tool. -/
def argument {α : Type} : Except ToolError α → Program σ HttpCall ToolError α
  | .ok a => pure a
  | .error e => Program.throw e

/-- A list, or a text for an empty one. -/
def listOr (codecs : Codecs) (none : String) (body : Value) : List Value :=
  [textBlock (if body.arrayLength = 0 then none else codecs.pretty body)]

def search (args : Value) : Program σ HttpCall ToolError (List Value) := do
  let query ← argument (requireStr args "query")
  let body ← getJson send codecs client "/v1/search"
    ([("q", query)] ++ lenientInt args "from" ++ lenientInt args "to" ++ lenientInt args "limit" ++
      lenientBool args "include_chrome")
  pure (listOr codecs "No results." body)

def renderAnswer (outcome : AskOutcome) : String :=
  (if outcome.answer.isEmpty then "(the model returned no answer text)" else outcome.answer) ++
    if outcome.citations.isEmpty then ""
    else "\n\nCited frames: " ++ ", ".intercalate (outcome.citations.map toString)

def runAsk (body : Value) : Program σ HttpCall ToolError (List Value) := do
  let outcome ← postAsk send codecs client body
  if !outcome.done && !outcome.tokensSeen then
    Program.throw (.input ("The answer stream ended without producing a response — check that an " ++
      "answer model is loaded in ScreenSearch."))
  else pure [textBlock (renderAnswer outcome)]

def askTool (args : Value) : Program σ HttpCall ToolError (List Value) := do
  let body ← argument (buildAskBody args none)
  runAsk send codecs client body

def askSession (args : Value) : Program σ HttpCall ToolError (List Value) := do
  let sessionId ← argument (requireI64 args "session_id")
  let body ← argument (buildAskBody args (some sessionId))
  runAsk send codecs client body

/-- The image of a frame that is not purged yet; it may be by now. -/
def momentImage (frameId : Int) : Program σ HttpCall ToolError Value := do
  match ← (getBytes send codecs client s!"/v1/frames/{frameId}" [("image", "1")]).attempt with
  | .ok (bytes, mime) =>
    pure (.obj [("type", .str "image"), ("data", .str (codecs.base64 bytes)),
      ("mimeType", .str mime)])
  | .error (.api (.stream (.api code message))) =>
    if code = "image_purged" then pure (textBlock purgedNote)
    else Program.throw (.api (.stream (.api code message)))
  | .error e => Program.throw e

def getMoment (args : Value) : Program σ HttpCall ToolError (List Value) := do
  let frameId ← argument (requireI64 args "frame_id")
  let detail ← getJson send codecs client s!"/v1/frames/{frameId}" []
  let content := [textBlock (codecs.pretty detail)]
  if ((args.get "include_image").bind Value.asBool).getD false then
    if ((detail.get "image_purged").bind Value.asBool).getD false then
      pure (content ++ [textBlock purgedNote])
    else do
      let image ← momentImage send codecs client frameId
      pure (content ++ [image])
  else pure content

/-- A page is handed on whole. -/
def page (path : String) (params : Except ToolError Params) :
    Program σ HttpCall ToolError (List Value) := do
  let params ← argument params
  let page ← getJson send codecs client path params
  pure [textBlock (codecs.pretty page)]

def listFrames (args : Value) : Program σ HttpCall ToolError (List Value) :=
  page send codecs client "/v1/frames" (buildFramesQuery args)

def getCaptureCoverage (args : Value) : Program σ HttpCall ToolError (List Value) :=
  page send codecs client "/v1/coverage" (buildCoverageQuery args)

def listReportsTool (args : Value) : Program σ HttpCall ToolError (List Value) :=
  page send codecs client "/v1/reports" (buildReportsQuery args)

def getReport (args : Value) : Program σ HttpCall ToolError (List Value) := do
  let runId ← argument (requireStr args "run_id")
  argument (rejectUnrepresentableRunId runId)
  page send codecs client s!"/v1/reports/{codecs.segment runId}" (.ok [])

def whereWasI : Program σ HttpCall ToolError (List Value) := do
  let body ← getJson send codecs client "/v1/context/where-was-i" []
  if body.isNull then
    pure [textBlock "Nothing to resume — no sustained context found before the current activity."]
  else pure [textBlock (codecs.pretty body)]

def listMarksTool : Program σ HttpCall ToolError (List Value) := do
  let body ← getJson send codecs client "/v1/marks" []
  pure (listOr codecs "No marks." body)

def addMark (args : Value) : Program σ HttpCall ToolError (List Value) := do
  let body ← argument (buildAddMarkBody args)
  let resp ← postJson send codecs client "/v1/marks" body
  match (resp.get "mark_id").bind Value.asI64 with
  | some id => pure [textBlock s!"Created mark {id}.\n{codecs.pretty resp}"]
  | none => pure [textBlock (codecs.pretty resp)]

def listSessionsTool (args : Value) : Program σ HttpCall ToolError (List Value) := do
  let body ← getJson send codecs client "/v1/sessions"
    (lenientStr args "kind" ++ lenientStr args "tool" ++ lenientInt args "from" ++
      lenientInt args "to" ++ lenientInt args "limit")
  pure (listOr codecs "No sessions." body)

def getSession (args : Value) : Program σ HttpCall ToolError (List Value) := do
  let sessionId ← argument (requireI64 args "session_id")
  let revealed := ((args.get "include_summary").bind Value.asBool).getD false
  let body ← getJson send codecs client s!"/v1/sessions/{sessionId}"
    (if revealed then [("include_summary", "1")] else [])
  pure [textBlock (codecs.pretty body)]

/-! ## The registry -/

/-- The names of the tools, in listing order. -/
def definitions : List String :=
  ["search_screen_history", "ask_screen_history", "get_moment", "list_frames",
    "get_capture_coverage", "list_reports", "get_report", "where_was_i", "list_marks", "add_mark",
    "list_sessions", "get_session", "ask_session"]

/-- A name that is not here never runs in the read-only mode. -/
def isReadTool (name : String) : Bool :=
  ["search_screen_history", "get_moment", "list_frames", "get_capture_coverage", "list_reports",
    "get_report", "where_was_i", "list_marks", "list_sessions", "get_session"].contains name

def definitionsFor (readOnly : Bool) : List String :=
  if readOnly then definitions.filter isReadTool else definitions

/-- The tool of a name. -/
def tool (args : Value) : String → Option (Program σ HttpCall ToolError (List Value))
  | "search_screen_history" => some (search send codecs client args)
  | "ask_screen_history" => some (askTool send codecs client args)
  | "get_moment" => some (getMoment send codecs client args)
  | "list_frames" => some (listFrames send codecs client args)
  | "get_capture_coverage" => some (getCaptureCoverage send codecs client args)
  | "list_reports" => some (listReportsTool send codecs client args)
  | "get_report" => some (getReport send codecs client args)
  | "where_was_i" => some (whereWasI send codecs client)
  | "list_marks" => some (listMarksTool send codecs client)
  | "add_mark" => some (addMark send codecs client args)
  | "list_sessions" => some (listSessionsTool send codecs client args)
  | "get_session" => some (getSession send codecs client args)
  | "ask_session" => some (askSession send codecs client args)
  | _ => none

def unavailable : String :=
  "Tool unavailable in --read-only mode: only read tools are accepted (marks/capture and Ask are " ++
    "excluded). API token permissions are enforced independently."

/-- A tool's own failure is a result, and only an unknown tool is an error of the protocol. -/
def callTool (id params : Value) : Program σ HttpCall ToolError Value := do
  let name := ((params.get "name").bind Value.asStr).getD ""
  if client.readOnly && !isReadTool name then
    pure (success id (errorResult unavailable))
  else
    match tool send codecs client ((params.get "arguments").getD (.obj [])) name with
    | none => pure (error id invalidParams s!"Unknown tool: {name}")
    | some run => do
      match ← run.attempt with
      | .ok content => pure (success id (.obj [("content", .arr content)]))
      | .error e => pure (success id (errorResult e.message))

end

/-- In each mode the listed tools are exactly those that are served. -/
theorem listed_iff_served {σ : Type} (send : Send σ) (codecs : Codecs) (client : ApiClient)
    (args : Value) (name : String) :
    name ∈ definitionsFor client.readOnly ↔
      (client.readOnly && !isReadTool name) = false ∧
        (tool send codecs client args name).isSome := by
  have hServed : name ∈ definitions ↔ (tool send codecs client args name).isSome := by
    unfold tool definitions
    constructor
    · intro hMem
      simp only [List.mem_cons, List.not_mem_nil, or_false] at hMem
      rcases hMem with rfl | rfl | rfl | rfl | rfl | rfl | rfl | rfl | rfl | rfl | rfl | rfl | rfl <;>
        rfl
    · split <;> simp
  unfold definitionsFor
  rcases client.readOnly with - | -
  · simp [hServed]
  · simp [hServed, and_comm]

end ScreenSearch.Mcp
