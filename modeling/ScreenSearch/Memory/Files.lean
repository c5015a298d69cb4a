import ScreenSearch.Lib.Threads
import ScreenSearch.Memory.Delivery
import ScreenSearch.Store.ReportFiles

/-!
# Writing notes

`fileDelivery` as a thread over the report store, the ownership table and the
disk. Any number of them may be under way; the user edits, creates and deletes
files between any two operations; a thread may be abandoned while its writer is
still at work, and a crash ends all of them. The writer holds the file while it
looks at it and replaces it, so `writeOwned` is one operation.

Files are named by their paths with forward slashes. Hashes are those of an
unspecified `digest`. The history keeps every deed with what was there after it.
-/

namespace ScreenSearch.Memory.Files

open Process Store Threads Sorting

abbrev Bytes := List UInt8
abbrev Disk := String → Option Bytes

def asBytes (content : String) : Bytes := content.toUTF8.toList

/-- What happens to the disk and what is written down about it. -/
inductive Deed where
  | edited (path : String) (bytes : Option Bytes)
  | replaced (path source : String) (after : Option Bytes)
  | written (path source hash : String)
  /-- An existing file is not the one that was expected. -/
  | left (path source : String) (expected : Option String)
  /-- Another source owns the file. -/
  | foreign (path source : String)
  /-- The file has what an interrupted attempt was about to write. -/
  | adopted (path source : String) (item : ReportDelivery)
  | recorded (path source hash : String)
  | settled (item : ReportDelivery)
  deriving DecidableEq, Repr

structure Event where
  /-- The thread; nobody's is the user. -/
  who : Option Nat
  deed : Deed
  deriving DecidableEq, Repr

/-- What there is before anything happens. -/
structure Tables where
  db : MemoryDb
  reportFiles : List ReportFileRow
  disk : Disk

structure World extends Tables where
  history : List (Moment Tables Event)

/-- Something has been done, and this is what has come of it. -/
def World.announce (w : World) (who : Option Nat) (deed : Deed) : World :=
  { w with
    history := { store := w.toTables, event := some { who := who, deed := deed } } :: w.history }

/-- How the file system lets a reader or writer down. -/
inductive IoFault where
  /-- Before anything is replaced. -/
  | before (conflict : Bool) (message : String)
  /-- Between moving the old file away and putting the new one in its place. -/
  | during (recoveryPath : Option String)
  /-- After the file is in its place. -/
  | after (message : String) (recoveryPath : Option String)
  deriving DecidableEq, Repr

structure Input where
  now : Int
  uuid : String
  io : Option IoFault
  deriving DecidableEq, Repr

abbrev FileThread (α : Type) := Thread Input World ReportError α

/-! ## Operations -/

def statement {α : Type} (op : MemoryStatement α) : FileThread α :=
  Thread.atomically fun _ _ w =>
    match op w.db with
    | .ok (a, db) => .ok (a, { w with db := db })
    | .error _ => .error storage

def nowMs : FileThread Int := Thread.atomically fun _ input w => .ok (input.now, w)

def uuid : FileThread String := Thread.atomically fun _ input w => .ok (input.uuid, w)

/-- The compare-and-set of a delivery. -/
def writeDelivery (item : ReportDelivery) (expected : ReportDeliveryState) : FileThread Bool :=
  Thread.atomically fun who _ w =>
    match updateReportDelivery item expected w.db with
    | .ok (true, db) =>
      .ok (true, { w with db := db }.announce (some who) (.settled item))
    | .ok (false, db) => .ok (false, { w with db := db })
    | .error _ => .error storage

/-- Whether another source owns the file. -/
def isForeign (source : String) (ownership : Option ReportFileOwnership) : Bool :=
  ownership.any fun owner => owner.sourceId != source

/-- Look the owner up. -/
def ownershipOf (path source : String) : FileThread (Option ReportFileOwnership) :=
  Thread.atomically fun who _ w =>
    let ownership := getReportFile path w.reportFiles
    if isForeign source ownership then
      .ok (ownership, w.announce (some who) (.foreign path source))
    else .ok (ownership, w)

def saveOwnership (ownership : ReportFileOwnership) : FileThread Unit :=
  Thread.atomically fun who _ w =>
    .ok ((), { w with reportFiles := saveReportFile ownership w.reportFiles }.announce (some who)
      (.recorded (normalizePath ownership.path) ownership.sourceId ownership.hash))

structure WriteFailure where
  message : String
  conflict : Bool
  recoveryPath : Option String
  deriving DecidableEq, Repr

section

variable (digest : Bytes → String)

/-- Read a file for the recovery of an attempt. -/
def readOwned (path source : String) (item : ReportDelivery) :
    FileThread (Except WriteFailure (Option Bytes)) :=
  Thread.atomically fun who input w =>
    match input.io with
    | some (.before conflict message) =>
      .ok (.error { message := message, conflict := conflict, recoveryPath := none }, w)
    | _ =>
      if (w.disk path).any fun bytes => some (digest bytes) == item.hash then
        .ok (.ok (w.disk path), w.announce (some who) (.adopted path source item))
      else .ok (.ok (w.disk path), w)

/-- Put something in the place of a file. -/
def World.put (w : World) (who : Nat) (path source : String) (after : Option Bytes) : World :=
  { w with disk := Function.update w.disk path after }.announce (some who)
    (.replaced path source after)

/-- The replacement, once the writer has found that it may. -/
def replaceNote (path source content : String) (io : Option IoFault) (who : Nat) (w : World) :
    Except WriteFailure String × World :=
  match io with
  | some (.during recoveryPath) =>
    (.error
      { message := "atomic note replacement failed; inspect the destination and any retained recovery copy"
        conflict := true
        recoveryPath := recoveryPath }, w.put who path source none)
  | some (.after message recoveryPath) =>
    (.error { message := message, conflict := true, recoveryPath := recoveryPath },
      w.put who path source (some (asBytes content)))
  | _ =>
    let hash := digest (asBytes content)
    (.ok hash, (w.put who path source (some (asBytes content))).announce (some who)
      (.written path source hash))

/-- Create a file, or replace it if it is the one that is expected. -/
def writeOwned (path source content : String) (expected : Option String) :
    FileThread (Except WriteFailure String) :=
  Thread.atomically fun who input w => .ok <|
    match input.io with
    | some (.before conflict message) =>
      (.error { message := message, conflict := conflict, recoveryPath := none }, w)
    | io =>
      match w.disk path with
      | none => replaceNote digest path source content io who w
      | some bytes =>
        if expected ≠ some (digest bytes) then
          (.error
            { message := "existing note was edited or is not owned"
              conflict := true
              recoveryPath := none }, w.announce (some who) (.left path source expected))
        else if digest bytes = digest (asBytes content) then
          (.ok (digest bytes), w.announce (some who) (.written path source (digest bytes)))
        else replaceNote digest path source content io who w

end

/-! ## Delivering a file -/

def updateDelivery (item : ReportDelivery) (expected : ReportDeliveryState) :
    FileThread ReportDelivery := do
  let now ← nowMs
  let item := { normalizeDeliveryPaths item with updatedAt := now }
  let updated ← writeDelivery item expected
  if updated then pure item
  else Thread.fail (Memory.fail "BUSY" "The delivery state changed; refresh before retrying.")

def saveFile (run : ReportRun) (path hash : String) : FileThread Unit := do
  let now ← nowMs
  saveOwnership
    { path := path, sourceId := run.sourceId, runId := run.runId, hash := hash, updatedAt := now }

/-- The newest attempt at the destination that no other one stands for. -/
def currentDelivery (existing : List ReportDelivery) (destination : ReportDestination) :
    Option ReportDelivery :=
  let superseded := existing.filterMap ReportDelivery.revisionOf
  maxByKey ReportDelivery.createdAt
    (existing.filter fun d => decide (d.destination = destination) && decide (d.id ∉ superseded))

/-- JSON text of a string. -/
def jsonString (text : String) : String :=
  let escape (c : Char) : List Char :=
    if c = '"' then ['\\', '"']
    else if c = '\\' then ['\\', '\\']
    else if c = '\n' then ['\\', 'n']
    else if c = '\t' then ['\\', 't']
    else if c = '\r' then ['\\', 'r']
    else if c.toNat = 8 then ['\\', 'b']
    else if c.toNat = 12 then ['\\', 'f']
    else if c.toNat < 32 then
      ['\\', 'u', '0', '0', Nat.digitChar (c.toNat / 16), Nat.digitChar (c.toNat % 16)]
    else [c]
  String.ofList ('"' :: text.toList.flatMap escape ++ ['"'])

def failed (item : ReportDelivery) (failure : WriteFailure) : ReportDelivery :=
  { item with
    state := if failure.conflict then .conflict else .failed
    error := some (fail (if failure.conflict then "FILE_CONFLICT" else "WRITE_FAILED")
      failure.message)
    recoveryPath := failure.recoveryPath }

def foreignConflict (item : ReportDelivery) : ReportDelivery :=
  { item with
    state := .conflict
    error := some (fail "FILE_CONFLICT" "Another source owns this generated file.") }

section

variable (digest : Bytes → String) (run : ReportRun) (path content : String)

/-- A new attempt, in place of the previous one if there is one. -/
def newIntent (destination : ReportDestination) (previous : Option ReportDelivery) :
    FileThread ReportDelivery := do
  let now ← nowMs
  let id ← uuid
  statement (createReportDelivery
    { id := id
      runId := run.runId
      destination := destination
      state := .pending
      revisionOf := previous.map ReportDelivery.id
      destinationSnapshot := .other (jsonString path)
      path := some path
      hash := some (digest (asBytes content))
      recoveryPath := none
      chunkIndex := none
      chunkCount := none
      messageId := none
      error := none
      nextAttemptAt := none
      attempt := 0
      createdAt := now
      updatedAt := now })

/-- What an attempt that was interrupted has left: the file may be written already. -/
def recoverIntent (item : ReportDelivery) : FileThread (Option ReportDelivery) :=
  if 0 < item.attempt ∧ item.hash.isSome then do
    match ← readOwned digest path run.sourceId item with
    | .error failure => do
      let item ← updateDelivery (failed item failure) item.state
      pure (some item)
    | .ok (some bytes) =>
      if some (digest bytes) = item.hash then do
        saveFile run path (digest bytes)
        let item ← updateDelivery { item with state := .succeeded, error := none } item.state
        pure (some item)
      else pure none
    | .ok none => pure none
  else pure none

/-- Write the intent down, then the file, then who owns it. -/
def writeNote (ownership : Option ReportFileOwnership) (item : ReportDelivery) :
    FileThread ReportDelivery := do
  let item ← updateDelivery
    { item with
      hash := some (digest (asBytes content))
      state := .sending
      attempt := item.attempt + 1
      error := none } item.state
  match ← writeOwned digest path run.sourceId content (ownership.map ReportFileOwnership.hash) with
  | .ok hash => do
    saveFile run path hash
    updateDelivery { item with hash := some hash, state := .succeeded, error := none } .sending
  | .error failure => updateDelivery (failed item failure) .sending

def workOn (item : ReportDelivery) : FileThread ReportDelivery := do
  let ownership ← ownershipOf path run.sourceId
  if isForeign run.sourceId ownership then updateDelivery (foreignConflict item) item.state
  else
    match ← recoverIntent digest run path item with
    | some item => pure item
    | none => writeNote digest run path content ownership item

def fileDelivery (destination : ReportDestination) : FileThread ReportDelivery := do
  let existing ← statement (listReportDeliveries run.runId)
  match currentDelivery existing destination with
  | some item =>
    if item.state = .succeeded ∨ item.state = .conflict then pure item
    else if item.state = .skipped ∨ item.state = .conflict ∨ item.state = .reviewed then do
      let item ← newIntent digest run path content destination (some item)
      workOn digest run path content item
    else workOn digest run path content item
  | none => do
    let item ← newIntent digest run path content destination none
    workOn digest run path content item

end

/-! ## Deliveries among users and crashes -/

inductive Action where
  /-- A delivery, a retry of it or a regeneration starts. -/
  | deliver (run : ReportRun) (destination : ReportDestination) (path content : String)
  | step (who : Nat) (input : Input)
  /-- A store call of a delivery fails. -/
  | refuse (who : Nat)
  /-- A delivery is abandoned; its writer may still finish. -/
  | abandon (who : Nat)
  | crash
  /-- The user edits, creates or deletes a file. -/
  | edit (path : String) (bytes : Option Bytes)
  /-- Everybody else changes runs and deliveries. -/
  | others (change : MemoryDb → MemoryDb)

abbrev System := Pool Input World ReportError ReportDelivery

def System.start (tables : Tables) : System :=
  { state := { tables with history := [] }, threads := [] }

def World.edit (path : String) (bytes : Option Bytes) (w : World) : World :=
  { w with disk := Function.update w.disk path bytes }.announce none (.edited path bytes)

def cancelled : ReportError := fail "CANCELLED" ""

def act (digest : Bytes → String) (system : System) : Action → System
  | .deliver run destination path content =>
    system.spawn (fileDelivery digest run (normalizePath path) content destination)
  | .step who input => system.step who input
  | .refuse who => system.refuse who storage
  | .abandon who => system.abandon who cancelled
  | .crash => system.stop cancelled
  | .edit path bytes => system.change (World.edit path bytes)
  | .others change => system.change fun w => { w with db := change w.db }

def runActions (digest : Bytes → String) (system : System) (actions : List Action) : System :=
  actions.foldl (act digest) system

end ScreenSearch.Memory.Files
