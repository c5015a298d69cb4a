import ScreenSearch.Lib.Text
import ScreenSearch.Memory.Delivery
import ScreenSearch.Traits.Reports

/-!
# Generating a memory report

One generation, from the probe of the evidence to the report the run is saved with, as the steps
between its awaits. Between two passes the worker's cancel flag is looked at; that a pass was
called off and that it failed is one error to everybody above.
-/

namespace ScreenSearch.Memory

structure ReportExecution where
  output : ReportOutput
  model : Option String
  deriving DecidableEq, Repr

structure ReportEvidence where
  missingFrameIds : List Int
  sessionIds : List Int
  deriving DecidableEq, Repr

/-- Dates in time zones. -/
structure Calendar where
  /-- Whether a window that ends there leaves a part of the zone's day out; `none` for a zone or a
  date that cannot be read. -/
  rangeIsInProgress : String → String → Int → Option Bool
  /-- An instant as it is written in a report. -/
  rfc3339 : Int → Option String

/-- What the resolver finds of the answer model. -/
inductive Provider where
  | notReady | notInstalled | installed
  deriving DecidableEq, Repr

/-! ## Execution -/

def noContent : ReportExecution where
  output :=
    { markdown := "No captured content in this time range."
      citedFrameIds := []
      frameIds := []
      mode := .empty
      periodsTotal := 0
      periodsCovered := 0
      framesSampled := 0
      framesSummarized := 0
      passes := 0
      truncated := false }
  model := none

def generationFailed : ReportError := fail "GENERATION_FAILED"
  "Report generation failed or was cancelled; retry after checking the local model."

/-- After a probe that found content; a memory report always asks for coverage. -/
def saysNothing (output : ReportOutput) : Bool :=
  decide (output.mode = .empty) || (Text.trim output.markdown).isEmpty

/-- Where a generation stands between two awaits. -/
inductive Generating where
  | probing
  | resolving
  /-- Before a pass, or before the first one's evidence is there. -/
  | planning
  | reading
  | labelling (output : ReportOutput)
  | collecting (execution : ReportExecution)
  deriving DecidableEq, Repr

/-- What a generation is told when it goes on. -/
inductive Reply where
  /-- Whether the window has content; `none` if the store could not say. -/
  | probe (content : Option Bool)
  | provider (found : Provider)
  | checkCancel
  /-- The store or the model failed. -/
  | broken
  | read
  | written (output : ReportOutput)
  | label (model : Option String)
  | evidence (found : Option ReportEvidence)
  deriving DecidableEq, Repr

inductive Progress where
  | goes (stage : Generating)
  | ends (result : Except ReportError ReportRun)

section

variable (calendar : Calendar)

def requestedRangeInProgress (run : ReportRun) : Except ReportError Bool :=
  match run.requestedRange with
  | none => .ok false
  | some range =>
    match calendar.rangeIsInProgress run.timezone range.endDate run.windowEnd with
    | some inProgress => .ok inProgress
    | none => .error (fail "INVALID_CONFIG" "Invalid saved report range.")

/-- What a report of a range that is not over yet begins with. -/
def asOf (run : ReportRun) (inProgress : Bool) : Except ReportError String :=
  if inProgress then
    match calendar.rfc3339 run.windowEnd with
    | some cutoff => .ok ("**In-progress coverage:** Selected dates are covered only as of " ++
        cutoff ++ " (UTC); the final selected day was still in progress at enqueue time.\n\n")
    | none => .error (fail "INVALID_CONFIG" "Invalid saved cutoff.")
  else .ok ""

def saveExecution (run : ReportRun) (execution : ReportExecution) (evidence : ReportEvidence) :
    Except ReportError ReportRun := do
  let out := execution.output
  let inProgress ← requestedRangeInProgress calendar run
  let isPartial := out.truncated || !evidence.missingFrameIds.isEmpty ||
    (inProgress && decide (out.mode ≠ .empty))
  let prefixed ← asOf calendar run inProgress
  pure
    { run with
      outcome := some (if out.mode = .empty then .noData
        else if isPartial then .partialCoverage else .ok)
      result := some
        { markdown := if isPartial then prefixed ++
              "**Partial coverage:** This report uses sampled evidence and does not cover all requested activity.\n\n"
                ++ out.markdown
            else prefixed ++ out.markdown
          model := execution.model
          frameIds := out.frameIds
          sessionIds := evidence.sessionIds
          citedFrameIds := out.citedFrameIds
          framesSampled := out.framesSampled
          framesSummarized := out.framesSummarized
          periodsTotal := out.periodsTotal
          periodsCovered := out.periodsCovered
          passes := out.passes
          truncated := out.truncated } }

/-- The next step of a generation, if the reply is one it waits for. -/
def Generating.step (cancel : Bool) (run : ReportRun) : Generating → Reply → Option Progress
  | .probing, .probe content =>
    if run.windowEnd ≤ run.windowStart then
      some (.ends (.error (fail "INVALID_CONFIG" "Report window must have a positive duration.")))
    else
      match content with
      | none => some (.ends (.error (fail "STORE_ERROR"
          "Could not inspect the report evidence window.")))
      | some false => some (.goes (.collecting noContent))
      | some true => some (.goes .resolving)
  | .resolving, .provider .notReady =>
    some (.ends (.error (fail "MODEL_UNAVAILABLE" "Local answer model is not ready.")))
  | .resolving, .provider .notInstalled =>
    some (.ends (.error (fail "MODEL_UNAVAILABLE"
      "The selected answer model is not installed. Download it explicitly in Models, then retry.")))
  | .resolving, .provider .installed => some (.goes .planning)
  | .planning, .checkCancel =>
    if cancel then some (.ends (.error generationFailed)) else some (.goes .reading)
  | .planning, .broken => some (.ends (.error generationFailed))
  | .planning, .written output =>
    if saysNothing output then
      some (.ends (.error (fail "GENERATION_FAILED"
        "Report generation produced no usable text despite captured evidence; check the local model or retry.")))
    else some (.goes (.labelling output))
  | .reading, .broken => some (.ends (.error generationFailed))
  | .reading, .read => some (.goes .planning)
  | .labelling output, .label model =>
    some (.goes (.collecting { output := output, model := model }))
  | .collecting _, .evidence none => some (.ends (.error storage))
  | .collecting execution, .evidence (some evidence) =>
    some (.ends (saveExecution calendar run execution evidence))
  | _, _ => none

end

/-! ## The end of a generation -/

/-- The run once its generation is over, as it is going to be saved. -/
def settled (run : ReportRun) : Except ReportError ReportRun → ReportRun
  | .ok run' => { run' with phase := .finished, error := none }
  | .error e =>
    if e.code = "MODEL_UNAVAILABLE" ∨ e.code = "SOURCE_UNAVAILABLE" then
      { run with phase := .blocked, outcome := some .blocked, error := some e }
    else { run with phase := .finished, outcome := some .failed, error := some e }

theorem saveExecution_ok {calendar : Calendar} {run run' : ReportRun} {execution : ReportExecution}
    {evidence : ReportEvidence} (h : saveExecution calendar run execution evidence = .ok run') :
    ∃ outcome result, outcome ≠ .failed ∧
      run' = { run with outcome := some outcome, result := some result } := by
  unfold saveExecution at h
  dsimp only at h
  rw [Store.bind_ok] at h
  obtain ⟨inProgress, -, h⟩ := h
  rw [Store.bind_ok] at h
  obtain ⟨prefixed, -, h⟩ := h
  cases h
  refine ⟨_, _, ?_, rfl⟩
  repeat' split
  all_goals simp

/-- A generation that returns has a report. -/
theorem step_ok {calendar : Calendar} {cancel : Bool} {run run' : ReportRun} {stage : Generating}
    {reply : Reply} (h : stage.step calendar cancel run reply = some (.ends (.ok run'))) :
    ∃ outcome result, outcome ≠ .failed ∧
      run' = { run with outcome := some outcome, result := some result } := by
  unfold Generating.step at h
  repeat' split at h
  all_goals first
    | (simp only [Option.some.injEq, Progress.ends.injEq] at h; exact saveExecution_ok h)
    | cases h

end ScreenSearch.Memory
