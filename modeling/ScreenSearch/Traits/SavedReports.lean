import ScreenSearch.Traits.History
import ScreenSearch.Traits.Memory
import Mathlib.Data.String.Basic

/-!
# Saved-report contracts

A report page is the window, the filters and the continuation of the page before it. A
continuation carries the greatest `(created_at, run_id)` of the first page.
-/

namespace ScreenSearch

def reportPageDefaultLimit : Nat := 100

def reportPageMaxLimit : Nat := 1000

structure ReportFilters where
  phase : Option ReportRunPhase
  outcome : Option ReportOutcome
  deriving DecidableEq, Repr

/-- Typed filters are always valid. -/
def ReportFilters.validate (_ : ReportFilters) : Except HistoryReadError Unit := .ok ()

structure ReportPosition where
  createdAt : Int
  runId : String
  deriving DecidableEq, Repr

structure ReportSnapshot where
  maxCreatedAt : Int
  maxRunId : String
  deriving DecidableEq, Repr

structure ReportContinuation where
  snapshot : ReportSnapshot
  after : ReportPosition
  deriving DecidableEq, Repr

structure ReportPageRequest where
  window : EvidenceWindow
  filters : ReportFilters
  limit : Nat
  continuation : Option ReportContinuation
  deriving DecidableEq, Repr

/-- The position sorts strictly above the frozen maximum. -/
def tupleAboveMax (after : ReportPosition) (max : ReportSnapshot) : Bool :=
  decide (after.createdAt > max.maxCreatedAt)
  || (after.createdAt == max.maxCreatedAt && decide (after.runId > max.maxRunId))

def ReportPageRequest.validate (request : ReportPageRequest) : Except HistoryReadError Unit := do
  request.window.validate
  request.filters.validate
  if ¬ (1 ≤ request.limit ∧ request.limit ≤ reportPageMaxLimit) then
    throw .invalidRequest
  match request.continuation with
  | none => pure ()
  | some c =>
    if c.after.runId.isEmpty || c.snapshot.maxRunId.isEmpty || tupleAboveMax c.after c.snapshot
    then throw .invalidRequest
    else pure ()

structure ReportSummary where
  runId : String
  sourceId : String
  revisionOf : Option String
  requestedRange : Option MemoryReportRange
  windowStart : Int
  windowEnd : Int
  timezone : String
  localDate : String
  createdAt : Int
  updatedAt : Int
  phase : ReportRunPhase
  outcome : Option ReportOutcome
  errorCode : Option String
  deriving DecidableEq, Repr

structure StoredReportPage where
  items : List ReportSummary
  /-- Absent when the table was empty. -/
  snapshot : Option ReportSnapshot
  window : EvidenceWindow
  filters : ReportFilters
  nextPosition : Option ReportPosition
  deriving DecidableEq, Repr

def reportErrorCodeAllowlist : List String :=
  ["INVALID_CONFIG", "NOT_FOUND", "BUSY", "SOURCE_UNAVAILABLE", "MODEL_UNAVAILABLE",
    "STORE_ERROR", "GENERATION_FAILED", "FILE_CONFLICT", "WRITE_FAILED",
    "CREDENTIAL_UNAVAILABLE", "DELIVERY_FAILED"]

/-! ## What the check accepts -/

/-- Everything of a request but the continuation. -/
structure ReportPageRequest.Plain (window : EvidenceWindow) (limit : Nat) : Prop where
  window : window.validate = .ok ()
  limit_pos : 1 ≤ limit
  limit_le : limit ≤ reportPageMaxLimit

/-- A continuation names its runs and stands at or below its maximum. -/
structure ReportContinuation.Valid (c : ReportContinuation) : Prop where
  runId : c.after.runId.isEmpty = false
  maxRunId : c.snapshot.maxRunId.isEmpty = false
  le_max : tupleAboveMax c.after c.snapshot = false

theorem ReportPageRequest.validate_ok {request : ReportPageRequest} :
    request.validate = .ok () ↔
      ReportPageRequest.Plain request.window request.limit ∧
        ∀ c ∈ request.continuation, c.Valid := by
  obtain ⟨window, filters, limit, continuation⟩ := request
  unfold ReportPageRequest.validate ReportFilters.validate
  dsimp only
  constructor
  · intro hOk
    rcases hWindow : window.validate with e | u
    · rw [hWindow] at hOk; cases hOk
    rw [hWindow] at hOk
    by_cases hLimit : 1 ≤ limit ∧ limit ≤ reportPageMaxLimit
    · refine ⟨⟨hWindow, hLimit.1, hLimit.2⟩, fun c hc => ?_⟩
      rw [Option.mem_def] at hc
      subst hc
      rw [if_neg (not_not.mpr hLimit)] at hOk
      rcases hFlag : c.after.runId.isEmpty || c.snapshot.maxRunId.isEmpty
        || tupleAboveMax c.after c.snapshot with - | -
      · simp only [Bool.or_eq_false_iff] at hFlag
        exact ⟨hFlag.1.1, hFlag.1.2, hFlag.2⟩
      · dsimp only at hOk
        rw [hFlag] at hOk
        cases hOk
    · rw [if_pos hLimit] at hOk; cases hOk
  · rintro ⟨⟨hWindow, hPos, hLe⟩, hContinuation⟩
    rw [hWindow, if_neg (not_not.mpr ⟨hPos, hLe⟩)]
    rcases continuation with - | c
    · rfl
    · obtain ⟨hRun, hMax, hBelow⟩ := hContinuation c rfl
      dsimp only
      rw [hRun, hMax, hBelow]
      rfl

end ScreenSearch
