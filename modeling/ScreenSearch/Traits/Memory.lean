import Mathlib.Data.String.Basic

/-!
# Report-run and delivery types shared by the store and the memory worker

Configuration snapshots are kept as the settings they are the JSON of, and
destination snapshots as the Telegram snapshot where they are one.
-/

namespace ScreenSearch

inductive ReportRunPhase where
  | queued | running | blocked | finished
  deriving DecidableEq, Repr

inductive ReportOutcome where
  | ok | partialCoverage | noData | blocked | failed
  deriving DecidableEq, Repr

inductive ReportDestination where
  | vault | index | telegram
  deriving DecidableEq, Repr

inductive ReportDeliveryState where
  | pending | sending | succeeded | conflict | failed | skipped | unknownDelivery | reviewed
  deriving DecidableEq, Repr

structure ReportError where
  code : String
  message : String
  deriving DecidableEq, Repr

structure MemorySettings where
  enabled : Bool
  localTime : Option String
  timezone : Option String
  outputFolder : Option String
  telegramEnabled : Bool
  telegramChatId : Option String
  deriving DecidableEq, Repr

structure ReportScheduleState where
  scheduleId : String
  activatedAt : Int
  lastWindowEnd : Option Int
  gapStart : Option Int
  gapEnd : Option Int
  deriving DecidableEq, Repr

structure SavedReport where
  markdown : String
  model : Option String
  frameIds : List Int
  sessionIds : List Int
  citedFrameIds : List Int
  framesSampled : Nat
  framesSummarized : Nat
  periodsTotal : Nat
  periodsCovered : Nat
  passes : Nat
  truncated : Bool
  deriving DecidableEq, Repr

/-- Inclusive local calendar dates. -/
structure MemoryReportRange where
  startDate : String
  endDate : String
  deriving DecidableEq, Repr

structure ReportRun where
  requestedRange : Option MemoryReportRange
  runId : String
  sourceId : String
  scheduleId : Option String
  revisionOf : Option String
  windowStart : Int
  windowEnd : Int
  timezone : String
  localDate : String
  phase : ReportRunPhase
  outcome : Option ReportOutcome
  error : Option ReportError
  result : Option SavedReport
  /-- The settings as they were when the run was enqueued. -/
  configSnapshot : MemorySettings
  createdAt : Int
  updatedAt : Int
  deriving DecidableEq, Repr

structure TelegramSnapshot where
  chatId : String
  text : String
  deriving DecidableEq, Repr

/-- The JSON of a destination snapshot, read as a Telegram snapshot where it is
one. -/
inductive DestinationSnapshot where
  | telegram (snapshot : TelegramSnapshot)
  | other (json : String)
  deriving DecidableEq, Repr

structure ReportDelivery where
  id : String
  runId : String
  destination : ReportDestination
  state : ReportDeliveryState
  revisionOf : Option String
  destinationSnapshot : DestinationSnapshot
  path : Option String
  hash : Option String
  recoveryPath : Option String
  chunkIndex : Option Nat
  chunkCount : Option Nat
  messageId : Option Int
  error : Option ReportError
  nextAttemptAt : Option Int
  attempt : Nat
  createdAt : Int
  updatedAt : Int
  deriving DecidableEq, Repr

structure ReportFileOwnership where
  path : String
  sourceId : String
  runId : String
  hash : String
  updatedAt : Int
  deriving DecidableEq, Repr

inductive TelegramDeliveryResolution where
  | reviewed | resend
  deriving DecidableEq, Repr

end ScreenSearch
