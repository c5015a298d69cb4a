import Mathlib.Order.WithBot
import ScreenSearch.Lib.Process
import ScreenSearch.Lib.Text
import ScreenSearch.Store.Memory

/-!
# Telegram delivery of memory reports

The worker and the commands as programs over the report store. Everything they
read from outside (the settings, which the user may change at any moment, the
clock, fresh identifiers, the credential, the service's answer) comes from the
environment under the number of the interaction, and so does which store calls
fail. Chat changes are the environment's settings changing; a crash is a store
call that fails and all later ones failing until the next start.

Announced events: `dispatch` when a chunk is handed to the service, `redirecting`
and `redirected` around a completed redirect.
-/

namespace ScreenSearch.Memory

open Process Store

inductive SendOutcome where
  | confirmed (messageId : Int)
  | retryable (afterSecs : Nat)
  | unknown
  | permanent (message : String)
  deriving DecidableEq, Repr

structure Environment where
  fails : Nat → Bool
  settings : Nat → MemorySettings
  now : Nat → Int
  uuid : Nat → String
  /-- Whether the credential can be read. -/
  token : Nat → Bool
  stopping : Nat → Bool
  /-- What the service answers to the dispatch. -/
  outcome : Nat → SendOutcome
  /-- The rendered digest of a run, in chunks. -/
  digestChunks : ReportRun → Option (List String)

inductive Event where
  | dispatch (attempt : ReportDelivery)
  | redirecting (runId target : String)
  | redirected (runId target : String)
  deriving DecidableEq, Repr

abbrev MemoryProgram (α : Type) := Program MemoryDb Event ReportError α
abbrev MemoryProc := Proc MemoryDb Event

def fail (code message : String) : ReportError := { code := code, message := message }

def storage : ReportError := fail "STORE_ERROR" "Could not read or save memory report state."

section

variable (env : Environment)

/-- A store call; whatever goes wrong in it is a storage error. -/
def store {α : Type} (op : MemoryStatement α) : MemoryProgram α :=
  Program.call env.fails storage fun db => (op db).mapError fun _ => storage

/-- The settings at this moment. -/
def readSettings : MemoryProgram MemorySettings := do
  let t ← Program.interact
  if env.fails t then Program.throw storage else pure (env.settings t)

def nowMs : MemoryProgram Int := do
  let t ← Program.interact
  pure (env.now t)

def uuid : MemoryProgram String := do
  let t ← Program.interact
  pure (env.uuid t)

def isStopping : MemoryProgram Bool := do
  let t ← Program.interact
  pure (env.stopping t)

/-- Paths are kept with forward slashes. -/
def pathString (path : String) : String := path.map fun c => if c = '\\' then '/' else c

def normalizeDeliveryPaths (item : ReportDelivery) : ReportDelivery :=
  { item with path := item.path.map pathString, recoveryPath := item.recoveryPath.map pathString }

def updateDelivery (item : ReportDelivery) (expected : ReportDeliveryState) :
    MemoryProgram ReportDelivery := do
  let now ← nowMs env
  let item := { normalizeDeliveryPaths item with updatedAt := now }
  let updated ← store env (updateReportDelivery item expected)
  if updated then pure item
  else Program.throw (fail "BUSY" "The delivery state changed; refresh before retrying.")

/-! ## Redirecting -/

/-- Whether the attempt targets the chat. -/
def atChat (chat : String) (d : ReportDelivery) : Bool :=
  match d.destinationSnapshot with
  | .telegram snapshot => snapshot.chatId == chat
  | .other _ => false

def redirectable (d : ReportDelivery) : Bool :=
  decide (d.destination = .telegram) &&
    decide (d.state = .pending ∨ d.state = .failed ∨ d.state = .succeeded)

/-- The chunk of the attempt is confirmed in the chat already. -/
def targetConfirmed (receipts : List ReportDelivery) (item : ReportDelivery) (target : String) :
    Bool :=
  item.chunkIndex.isSome && receipts.any fun d =>
    decide (d.destination = .telegram) && decide (d.state = .succeeded) &&
      d.chunkIndex == item.chunkIndex && atChat target d

/-- The attempt has a replacement that is neither reviewed nor skipped. -/
def replacementLive (receipts : List ReportDelivery) (item : ReportDelivery) : Bool :=
  receipts.any fun d => d.revisionOf == some item.id && decide (d.destination = .telegram) &&
    !decide (d.state = .reviewed ∨ d.state = .skipped)

def replacementOf (item : ReportDelivery) (id target text : String) (now : Int) :
    ReportDelivery :=
  { item with
    id := id
    revisionOf := some item.id
    state := .pending
    destinationSnapshot := .telegram { chatId := target, text := text }
    messageId := none
    error := none
    nextAttemptAt := none
    attempt := 0
    createdAt := now
    updatedAt := now }

/-- Link a replacement to a stale attempt unless it has one or the target has the
chunk. -/
def linkReplacement (target : String) (receipts : List ReportDelivery) (item : ReportDelivery)
    (text : String) : MemoryProgram Unit :=
  if !replacementLive receipts item && !targetConfirmed receipts item target then do
    let id ← uuid env
    let now ← nowMs env
    let _ ← store env (createReportDelivery (replacementOf item id target text now))
    pure ()
  else pure ()

/-- Review a stale attempt unless it is confirmed. -/
def reviewStale (item : ReportDelivery) : MemoryProgram Unit :=
  if item.state ≠ .succeeded then do
    let _ ← updateDelivery env { item with state := .reviewed } item.state
    pure ()
  else pure ()

/-- One attempt of the redirect. The replacement comes before the review, so that
a crash between them loses nothing. -/
def redirectOne (target : String) (receipts : List ReportDelivery) (item : ReportDelivery) :
    MemoryProgram Unit :=
  match item.destinationSnapshot with
  | .other _ => pure ()
  | .telegram snapshot =>
    if snapshot.chatId = target then pure ()
    else do
      linkReplacement env target receipts item snapshot.text
      reviewStale env item

/-- The chat to redirect to, if one is selected. -/
def selectedChat (chat : Option String) : Option String :=
  (chat.map Text.trim).filter fun id => !id.isEmpty

def redirectStaleTelegramDeliveries (runId : String) (targetChat : Option String) :
    MemoryProgram Unit :=
  match selectedChat targetChat with
  | none => pure ()
  | some target => do
    Program.emit (.redirecting runId target)
    let receipts ← store env (listReportDeliveries runId)
    Program.each (receipts.filter redirectable) (redirectOne env target receipts)
    Program.emit (.redirected runId target)

/-! ## Retrying -/

def lookup (runId : String) : MemoryProgram ReportRun := do
  match ← store env (getReportRun runId) with
  | some run => pure run
  | none => Program.throw (fail "NOT_FOUND" "Report not found.")

/-- What a retry does with one attempt after the redirect. -/
def retryOne (item : ReportDelivery) : MemoryProgram Unit := do
  if item.destination ≠ .telegram ∧ item.state = .conflict then
    let _ ← updateDelivery env { item with state := .reviewed } .conflict
  if item.destination = .telegram ∧ item.state = .failed then
    let _ ← updateDelivery env
      { item with state := .pending, nextAttemptAt := none, error := none } .failed

def retryMemoryReport (runId : String) : MemoryProgram Unit := do
  let run ← lookup env runId
  if run.phase = .queued ∨ run.phase = .running then
    Program.throw (fail "BUSY" "This report is already queued or running.")
  else
    let current ← readSettings env
    redirectStaleTelegramDeliveries env runId current.telegramChatId
    let receipts ← store env (listReportDeliveries runId)
    Program.each receipts (retryOne env)
    let now ← nowMs env
    store env (updateReportRun
      { run with
        phase := .queued
        error := none
        outcome := if run.result.isNone then none else run.outcome
        updatedAt := now })

/-! ## The guard over revisions -/

def isTelegramIn (states : List ReportDeliveryState) (d : ReportDelivery) : Bool :=
  decide (d.destination = .telegram) && decide (d.state ∈ states)

def familyDeliveryBlock (receipts : List ReportDelivery) (runId : String) : Option String :=
  if receipts.any fun d => d.runId != runId && isTelegramIn [.succeeded] d then
    some "A related report revision already has confirmed Telegram delivery."
  else if receipts.any fun d => d.runId != runId && isTelegramIn [.unknownDelivery] d then
    some "A related report revision has unknown Telegram delivery; review it first."
  else none

/-- Up the revisions, each looked at once. -/
def ancestorWalk (visited : List String) : Nat → Option String → MemoryProgram (Option String)
  | _, none => pure none
  | 0, some _ =>
    pure (some "Revision history is inconsistent; inspect earlier delivery before sending.")
  | fuel + 1, some id => do
    if id ∈ visited then
      pure (some "Revision history is inconsistent; inspect earlier delivery before sending.")
    else
      match ← store env (getReportRun id) with
      | none =>
        pure (some
          "Earlier revision history is unavailable; delivery cannot be safely repeated.")
      | some previous =>
        let receipts ← store env (listReportDeliveries id)
        if receipts.any (isTelegramIn [.succeeded]) then
          pure (some "An earlier revision already has confirmed Telegram delivery.")
        else if receipts.any (isTelegramIn [.unknownDelivery]) then
          pure (some "An earlier revision has unknown delivery; review that attempt first.")
        else if receipts.any (isTelegramIn [.pending, .sending]) then
          pure (some "An earlier revision still has pending delivery; resolve it before sending a new revision.")
        else ancestorWalk (id :: visited) fuel previous.revisionOf

/-- How often the walk up can go on before it meets a run again. -/
def walkFuel : MemoryProgram Nat := fun p => (.ok (p.store.runs.length + 1), p)

def ancestorDeliveryBlock (run : ReportRun) : MemoryProgram (Option String) := do
  let family ← store env (listReportFamilyDeliveries run.runId)
  match familyDeliveryBlock family run.runId with
  | some reason => pure (some reason)
  | none => ancestorWalk env [] (← walkFuel) run.revisionOf

/-! ## Dispatching -/

def delivery (run : ReportRun) (destination : ReportDestination)
    (snapshot : DestinationSnapshot) : MemoryProgram ReportDelivery := do
  let now ← nowMs env
  let id ← uuid env
  pure
    { id := id
      runId := run.runId
      destination := destination
      state := .pending
      revisionOf := none
      destinationSnapshot := snapshot
      path := none
      hash := none
      recoveryPath := none
      chunkIndex := none
      chunkCount := none
      messageId := none
      error := none
      nextAttemptAt := none
      attempt := 0
      createdAt := now
      updatedAt := now }

/-- The intents of a digest, numbered from `index`. -/
def digestIntents (run : ReportRun) (chatId : String) (count index : Nat) :
    List String → MemoryProgram (List ReportDelivery)
  | [] => pure []
  | text :: chunks => do
    let item ← delivery env run .telegram (.telegram { chatId := chatId, text := text })
    let others ← digestIntents run chatId count (index + 1) chunks
    pure ({ item with chunkIndex := some index, chunkCount := some count } :: others)

def deliverable (run : ReportRun) : Bool :=
  decide (run.outcome = some .ok ∨ run.outcome = some .partialCoverage)

/-- Why no digest is sent, if none is. -/
def digestSkip (run : ReportRun) : MemoryProgram (Option String) :=
  if !run.configSnapshot.telegramEnabled then
    pure (some "Telegram was disabled for this report.")
  else if !deliverable run then
    pure (some "No digest is sent for a no-data, blocked or failed report.")
  else ancestorDeliveryBlock env run

def recordSkip (run : ReportRun) (reason : String) : MemoryProgram Unit := do
  let item ← delivery env run .telegram (.other ((run.configSnapshot.telegramChatId).getD "null"))
  let _ ← store env (createReportDelivery
    { item with state := .skipped, error := some (fail "DELIVERY_FAILED" reason) })
  pure ()

/-- Persist the digest, all chunks or none, and read the receipts again. -/
def persistDigest (run : ReportRun) : MemoryProgram (List ReportDelivery) :=
  match run.configSnapshot.telegramChatId with
  | none => Program.throw (fail "INVALID_CONFIG" "Saved Telegram destination is missing.")
  | some chatId =>
    match env.digestChunks run with
    | none => Program.throw (fail "DELIVERY_FAILED" "Could not render the saved report digest.")
    | some chunks => do
      let intents ← digestIntents env run chatId chunks.length 0 chunks
      let _ ← store env (createReportDeliveries intents)
      store env (listReportDeliveries run.runId)

/-- The first part of `deliver_telegram`: record why nothing is sent, or persist
the digest. Returns the receipts to dispatch, if any. -/
def prepareTelegram (run : ReportRun) : MemoryProgram (Option (List ReportDelivery)) := do
  let receipts ← store env (listReportDeliveries run.runId)
  let hasChunks := receipts.any fun d =>
    decide (d.destination = .telegram) && d.chunkIndex.isSome
  let eligible := run.configSnapshot.telegramEnabled && deliverable run
  let hasTelegram := receipts.any fun d => decide (d.destination = .telegram)
  if !hasChunks && (eligible || !hasTelegram) then
    match ← digestSkip env run with
    | some reason =>
      recordSkip env run reason
      pure none
    | none =>
      let receipts ← persistDigest env run
      pure (some receipts)
  else pure (some receipts)

def retryDelay (attempt serverSecs : Nat) : Option Int :=
  ([30, 120, 600][attempt - 1]?).map fun base => (max base serverSecs : Nat) * 1000

/-- What the service's answer makes of an attempt that was sent. -/
def settle (item : ReportDelivery) (now : Int) : SendOutcome → ReportDelivery
  | .confirmed messageId => { item with state := .succeeded, messageId := some messageId }
  | .unknown =>
    { item with
      state := .unknownDelivery
      error := some (fail "DELIVERY_FAILED"
        "Telegram acceptance is unknown. Inspect the conversation before deciding whether to resend.") }
  | .permanent message =>
    { item with state := .failed, error := some (fail "DELIVERY_FAILED" message) }
  | .retryable afterSecs =>
    { item with
      state := .failed
      error := some (fail "DELIVERY_FAILED"
        "Telegram explicitly rejected the request temporarily.")
      nextAttemptAt := (retryDelay item.attempt afterSecs).map fun delay => now + delay }

/-- Whether delivery is on, for this chat, and the process is not stopping. -/
def mayDispatch (chatId : String) : MemoryProgram Bool := do
  let current ← readSettings env
  let stopping ← isStopping env
  pure (current.telegramEnabled && current.telegramChatId == some chatId && !stopping)

/-- Hand the chunk to the service and record the answer; whether it was
confirmed. -/
def sendChunk (item : ReportDelivery) : MemoryProgram Bool := do
  let item ← updateDelivery env
    { item with state := .sending, attempt := item.attempt + 1, nextAttemptAt := none,
                error := none } item.state
  Program.emit (.dispatch item)
  let t ← Program.interact
  let item := settle item (env.now t) (env.outcome t)
  let _ ← updateDelivery env item .sending
  pure (decide (item.state = .succeeded))

/-- The guard before a dispatch; a linked attempt does without it. -/
def dispatchBlock (run : ReportRun) (item : ReportDelivery) : MemoryProgram (Option String) :=
  if item.revisionOf.isNone then ancestorDeliveryBlock env run else pure none

/-- One attempt whose turn it is; whether the loop goes on. -/
def dispatchOne (run : ReportRun) (item : ReportDelivery) : MemoryProgram Bool :=
  match item.destinationSnapshot with
  | .other _ => Program.throw storage
  | .telegram payload => do
    if ← mayDispatch env payload.chatId then
      let blocked ← dispatchBlock env run item
      if blocked.isSome then pure false
      else
        let t ← Program.interact
        if env.token t then
          if ← mayDispatch env payload.chatId then sendChunk env item else pure false
        else
          let _ ← updateDelivery env
            { item with
              state := .failed
              nextAttemptAt := none
              error := some (fail "CREDENTIAL_UNAVAILABLE"
                "Configure an available Telegram credential, then retry.") } item.state
          pure false
    else pure false

/-- The loop over the attempts of a round, stopping at the first that may not be
sent or is not confirmed. -/
def dispatchLoop (run : ReportRun) : List ReportDelivery → MemoryProgram Unit
  | [] => pure ()
  | item :: rest => do
    if item.state = .succeeded ∨ item.state = .skipped ∨ item.state = .reviewed then
      dispatchLoop run rest
    else if item.state = .failed ∧ item.nextAttemptAt.isNone then pure ()
    else
      let now ← nowMs env
      if item.nextAttemptAt.any fun time => decide (now < time) then pure ()
      else if ← dispatchOne env run item then dispatchLoop run rest
      else pure ()

/-- An attempt without a chunk index sorts first. -/
def chunkOrder (d : ReportDelivery) : WithBot Nat := d.chunkIndex

/-- The order a round goes through the attempts. -/
def roundOrder (receipts : List ReportDelivery) : List ReportDelivery :=
  Sorting.sortByKey (fun d : ReportDelivery => toLex (chunkOrder d, d.createdAt))
    (receipts.filter fun d => d.destination = .telegram)

def deliverTelegram (run : ReportRun) : MemoryProgram Unit := do
  match ← prepareTelegram env run with
  | none => pure ()
  | some receipts =>
    let current ← readSettings env
    let stopping ← isStopping env
    if !current.telegramEnabled || stopping then pure ()
    else
      let telegram := roundOrder receipts
      if telegram.any fun d => decide (d.state = .unknownDelivery) then pure ()
      else dispatchLoop env run telegram

/-! ## Resolving -/

def resolveTelegramDelivery (attemptId : String) (resolution : TelegramDeliveryResolution) :
    MemoryProgram Unit := do
  match ← store env (getReportDelivery attemptId) with
  | none => Program.throw (fail "NOT_FOUND" "Delivery attempt not found.")
  | some old =>
    let _ ← lookup env old.runId
    if old.destination ≠ .telegram ∨ old.state ≠ .unknownDelivery then
      Program.throw (fail "BUSY" "This attempt no longer needs an unknown-delivery decision.")
    else
      let id ← uuid env
      let now ← nowMs env
      let replacement :=
        if resolution = .resend then
          some { old with
            id := id, revisionOf := some old.id, state := .pending, messageId := none,
            error := none, attempt := 0, nextAttemptAt := none, createdAt := now,
            updatedAt := now }
        else none
      let resolved ← store env (resolveReportDelivery
        { old with state := .reviewed, updatedAt := now } replacement)
      if resolved then pure ()
      else Program.throw (fail "BUSY" "Another action already resolved this delivery.")

/-! ## The system -/

/-- What the user and the worker do, one thing after the other: the worker holds
the control lock or is marked active while it does it. -/
inductive Action where
  /-- A base run, or with `prior` the revision of a run. -/
  | enqueue (run : ReportRun) (prior : Option String)
  /-- The worker writes the phase and the outcome of a run. -/
  | progress (run : ReportRun)
  /-- The worker creates a file delivery. -/
  | recordFile (d : ReportDelivery)
  | retry (runId : String)
  | deliver (runId : String)
  | recover
  | prune (visit : List String) (before : Int)
  | resolve (attemptId : String) (resolution : TelegramDeliveryResolution)

def enqueue (run : ReportRun) (prior : Option String) : MemoryProgram Unit := do
  match prior with
  | some id =>
    let previous ← lookup env id
    if previous.phase = .queued ∨ previous.phase = .running then
      Program.throw (fail "BUSY" "This report is already active.")
    else
      let id ← uuid env
      let _ ← store env (createReportRun
        { run with runId := id, revisionOf := some previous.runId, result := none })
  | none =>
    let id ← uuid env
    let _ ← store env (createReportRun { run with runId := id, revisionOf := none, result := none })

def recordFile (d : ReportDelivery) : MemoryProgram Unit :=
  if d.destination = .telegram then pure ()
  else do
    let id ← uuid env
    let _ ← store env (createReportDelivery { d with id := id })

def perform : Action → MemoryProgram Unit
  | .enqueue run prior => enqueue env run prior
  | .progress run => store env (updateReportRun run)
  | .recordFile d => recordFile env d
  | .retry runId => retryMemoryReport env runId
  | .deliver runId => do
    let run ← lookup env runId
    deliverTelegram env run
  | .recover => do
    let now ← nowMs env
    store env (recoverReportWork now)
  | .prune visit before => store env (pruneReportRuns visit before)
  | .resolve attemptId resolution => resolveTelegramDelivery env attemptId resolution

/-- Every action is carried out however the ones before it ended. -/
def session (actions : List Action) : MemoryProgram Unit :=
  Program.each actions fun action => do
    let _ ← (perform env action).attempt

/-- Everything that happens, newest first. -/
def historyOf (actions : List Action) : List (Moment MemoryDb Event) :=
  (session env actions (Proc.start MemoryDb.empty)).2.history

end

end ScreenSearch.Memory
