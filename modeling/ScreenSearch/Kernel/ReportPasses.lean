import Mathlib.Algebra.GroupWithZero.Nat
import ScreenSearch.Kernel.Reports

/-!
# The passes of a report

A report that does not fit one pass is written in three steps: each group is summarized, the
summaries are combined six at a time until they fit, and the final pass writes the report. Every
pass is a call of the provider, which may fail, and before each of them the report may be cancelled.
A budget of passes stops the first two steps.

Main results:

* `reduceRound_shrinks` — a round that is not stopped leaves fewer summaries;
* `mapReduce_within` — the steps, beside what they would do without a budget;
* `passes_within_budget` — when a report keeps to the budget.
-/

namespace ScreenSearch.Kernel

open Batch Inference Sorting

/-! ## Calls -/

structure ReportCall where
  systemPrompt : String
  instruction : String
  chunks : List RetrievedChunk
  deriving DecidableEq, Repr

/-- The answer provider and the cancel flag, by the number of calls made so far. -/
structure Provider where
  summarize : Nat → ReportCall → Except String (String × List Int)
  cancelled : Nat → Bool

/-- An error, and the number of calls that were made. -/
abbrev Stopped := String × Nat

/-- `check_cancel`, and one call. -/
def Provider.call (p : Provider) (passes : Nat) (c : ReportCall) :
    Except Stopped (String × List Int) :=
  if p.cancelled passes then .error ("report cancelled", passes)
  else match p.summarize passes c with
    | .error e => .error (e, passes + 1)
    | .ok reply => .ok reply

/-- Summaries as chunks; the tag is no frame. -/
def nodesAsChunks (nodes : List String) : List RetrievedChunk :=
  nodes.mapIdx fun i text => { frameId := i, text, capturedAt := i }

def mapCall (group : Group) : ReportCall where
  systemPrompt := mapSystemPrompt
  instruction := mapInstruction group.label
  chunks := group.chunks

def reduceCall (nodes : List String) : ReportCall where
  systemPrompt := reduceSystemPrompt
  instruction := ""
  chunks := nodesAsChunks nodes

def finalCall (instruction : String) (chunks : List RetrievedChunk) : ReportCall where
  systemPrompt := finalSystemPrompt
  instruction
  chunks

/-! ## Map -/

structure MapState where
  nodes : List String := []
  union : List Int := []
  passes : Nat := 0
  truncated : Bool
  deriving DecidableEq, Repr

/-- The summary of a group, unless the reply is blank. -/
def sectionOf (group : Group) (text : String) : List String :=
  if (Text.trim text).isEmpty then [] else [group.label ++ ": " ++ Text.trim text]

/-- One group was summarized. -/
def MapState.add (s : MapState) (group : Group) (text : String) (cited : List Int) : MapState :=
  { s with
    nodes := s.nodes ++ sectionOf group text
    union := if (Text.trim text).isEmpty then s.union else cited.foldl pushNew s.union
    passes := s.passes + 1 }

def mapLoop (p : Provider) : List Group → MapState → Except Stopped MapState
  | [], s => .ok s
  | group :: groups, s =>
    match p.call s.passes (mapCall group) with
    | .error stopped => .error stopped
    | .ok (text, cited) =>
      let next := s.add group text cited
      if next.passes ≥ maxReportPasses then .ok { next with truncated := true }
      else mapLoop p groups next

/-! ## Reduce -/

/-- `nodes.chunks(REDUCE_FANOUT)`. -/
def fanIn (nodes : List String) : List (List String) :=
  if _h : nodes = [] then []
  else nodes.take reduceFanout :: fanIn (nodes.drop reduceFanout)
termination_by nodes.length
decreasing_by
  have := List.length_pos_iff.mpr _h
  rw [List.length_drop, reduceFanout]
  omega

def fitsSinglePass (nodes : List String) (replyBudget ctxTokens : Nat) : Bool :=
  decide ((nodes.map fun node => estTokens node + reportIdFraming).sum ≤
    ctxTokens - planReserve finalSystemPrompt replyBudget)

/-- What a round leaves. -/
structure RoundState where
  next : List String
  passes : Nat
  /-- The budget stopped the round. -/
  stopped : Bool
  deriving DecidableEq, Repr

/-- One round over the groups of summaries; a single one needs no call. -/
def reduceRound (p : Provider) :
    List (List String) → List String → Nat → Except Stopped RoundState
  | [], next, passes => .ok { next, passes, stopped := false }
  | group :: groups, next, passes =>
    if group.length = 1 then reduceRound p groups (next ++ group) passes
    else match p.call passes (reduceCall group) with
      | .error stopped => .error stopped
      | .ok (text, _) =>
        if passes + 1 ≥ maxReportPasses then
          .ok { next := next ++ [Text.trim text], passes := passes + 1, stopped := true }
        else reduceRound p groups (next ++ [Text.trim text]) (passes + 1)

theorem fanIn_length (nodes : List String) :
    (fanIn nodes).length = (nodes.length + (reduceFanout - 1)) / reduceFanout := by
  induction h : nodes.length using Nat.strongRecOn generalizing nodes with
  | ind n ih =>
    rw [fanIn]
    split
    · next hNil =>
      rw [hNil] at h
      rw [← h]
      rfl
    · next hSome =>
      have hPos := List.length_pos_iff.mpr hSome
      have hRest := ih (nodes.drop reduceFanout).length
        (by rw [List.length_drop, reduceFanout]; omega) _ rfl
      rw [List.length_drop] at hRest
      rw [List.length_cons, hRest, h]
      unfold reduceFanout
      omega

/-- A round that is not stopped leaves one summary for each group. -/
theorem reduceRound_length {p : Provider} {groups : List (List String)} {next : List String}
    {passes : Nat} {s : RoundState} (h : reduceRound p groups next passes = .ok s)
    (hGoesOn : s.stopped = false) : s.next.length = next.length + groups.length := by
  induction groups generalizing next passes with
  | nil =>
    cases h
    rfl
  | cons group groups ih =>
    rw [reduceRound] at h
    split at h
    · next hOne =>
      rw [ih h, List.length_append, hOne, List.length_cons]
      omega
    · split at h
      · cases h
      · split at h
        · cases h
          cases hGoesOn
        · rw [ih h, List.length_append, List.length_singleton, List.length_cons]
          omega

/-- So it leaves fewer than it began with. -/
theorem reduceRound_shrinks {p : Provider} {nodes : List String} {passes : Nat} {s : RoundState}
    (h : reduceRound p (fanIn nodes) [] passes = .ok s) (hGoesOn : s.stopped = false)
    (hSeveral : 1 < nodes.length) : s.next.length < nodes.length := by
  rw [reduceRound_length h hGoesOn, fanIn_length, List.length_nil]
  unfold reduceFanout
  omega

/-- What the reduce step works on. -/
structure ReduceState where
  nodes : List String
  passes : Nat
  truncated : Bool
  deriving DecidableEq, Repr

def reduceLoop (p : Provider) (cfg : ReportConfig) (ctxTokens : Nat) (s : ReduceState) :
    Except Stopped ReduceState :=
  if _hSeveral :
      1 < s.nodes.length ∧ fitsSinglePass s.nodes cfg.replyBudget ctxTokens = false then
    if s.passes ≥ maxReportPasses then .ok { s with truncated := true }
    else
      match _hRound : reduceRound p (fanIn s.nodes) [] s.passes with
      | .error stopped => .error stopped
      | .ok round =>
        let truncated := s.truncated || round.stopped
        let next : ReduceState := { nodes := round.next, passes := round.passes, truncated }
        if _hGoesOn : next.truncated = false then reduceLoop p cfg ctxTokens next else .ok next
  else .ok s
termination_by s.nodes.length
decreasing_by
  exact reduceRound_shrinks _hRound (Bool.or_eq_false_iff.mp _hGoesOn).2 _hSeveral.1

/-! ## The report -/

def emptyOutput (periodsTotal : Nat) : ReportOutput where
  markdown := "No screen activity was captured for this range — there is nothing to summarize."
  citedFrameIds := []
  frameIds := []
  mode := .empty
  periodsTotal
  periodsCovered := 0
  framesSampled := 0
  framesSummarized := 0
  passes := 0
  truncated := false

/-- The periods of which a frame was read. -/
def coveredPeriods (groups : List Group) (ids : List Int) : Nat :=
  (groups.filter fun group => group.chunks.any fun chunk => ids.contains chunk.frameId).length

def framesSampled (groups : List Group) : Nat := (groups.map fun group => group.chunks.length).sum

/-- The report of the frames that were read. -/
def writtenOutput (markdown : String) (union : List Int) (mode : ReportMode) (groups : List Group)
    (periodsTotal passes : Nat) (truncated : Bool) : ReportOutput :=
  let frameIds := union.eraseDups
  { markdown
    citedFrameIds := frameIds.take maxReportCitations
    frameIds
    mode
    periodsTotal
    periodsCovered := coveredPeriods groups frameIds
    framesSampled := framesSampled groups
    framesSummarized := frameIds.length
    passes
    truncated := truncated || decide (frameIds.length < framesSampled groups) }

/-- What a report is written from. -/
structure ReportInput where
  cfg : ReportConfig
  ctxTokens : Nat
  prompt : Option String
  /-- The instruction of the final pass. -/
  instruction : String
  groups : List Group
  periodsTotal : Nat
  totalInRange : Nat
  deriving DecidableEq, Repr

namespace ReportInput

/-- Whether evidence is left out from the start. -/
def sampled (r : ReportInput) : Bool :=
  if r.prompt.isSome then decide (r.cfg.weeklyTopK ≤ r.totalInRange)
  else decide (framesSampled r.groups < r.totalInRange)

def fitted (r : ReportInput) : List Group :=
  splitGroupsToFit r.groups r.cfg.replyBudget r.ctxTokens

end ReportInput

/-- The single pass of a small report, with the number of its calls. -/
def singlePass (p : Provider) (r : ReportInput) : Except Stopped (ReportOutput × Nat) := do
  let (markdown, cited) ← p.call 0 (finalCall r.instruction (singlePassChunks r.prompt r.fitted))
  pure (writtenOutput markdown cited .singlePass r.groups r.periodsTotal 1 r.sampled, 1)

/-- Map, reduce and final. -/
def mapReduce (p : Provider) (r : ReportInput) : Except Stopped (ReportOutput × Nat) := do
  let mapped ← mapLoop p r.fitted { truncated := r.sampled }
  if mapped.nodes.isEmpty then pure (emptyOutput r.periodsTotal, mapped.passes)
  else
    let reduced ← reduceLoop p r.cfg r.ctxTokens
      { nodes := mapped.nodes, passes := mapped.passes, truncated := mapped.truncated }
    let (markdown, _) ←
      p.call reduced.passes (finalCall r.instruction (nodesAsChunks reduced.nodes))
    let passes := reduced.passes + 1
    pure (writtenOutput markdown mapped.union .mapReduce r.groups r.periodsTotal passes
      reduced.truncated, passes)

/-- A report from its groups on: the result, and the number of calls that were made. -/
def writeReport (p : Provider) (r : ReportInput) : Except String ReportOutput × Nat :=
  let result :=
    if framesSampled r.groups = 0 then .ok (emptyOutput r.periodsTotal, 0)
    else if collapses r.cfg r.groups r.ctxTokens then singlePass p r
    else mapReduce p r
  match result with
  | .error (e, calls) => (.error e, calls)
  | .ok (output, calls) => (.ok output, calls)

/-! ## Without a budget -/

/-- The map step over all groups. -/
def mapAll (p : Provider) :
    List Group → List String → Nat → Except Stopped (List String × Nat)
  | [], nodes, calls => .ok (nodes, calls)
  | group :: groups, nodes, calls =>
    match p.call calls (mapCall group) with
    | .error stopped => .error stopped
    | .ok (text, _) => mapAll p groups (nodes ++ sectionOf group text) (calls + 1)

/-- A reduce round over all groups of summaries. -/
def roundAll (p : Provider) :
    List (List String) → List String → Nat → Except Stopped (List String × Nat)
  | [], next, calls => .ok (next, calls)
  | group :: groups, next, calls =>
    if group.length = 1 then roundAll p groups (next ++ group) calls
    else match p.call calls (reduceCall group) with
      | .error stopped => .error stopped
      | .ok (text, _) => roundAll p groups (next ++ [Text.trim text]) (calls + 1)

theorem roundAll_length {p : Provider} {groups : List (List String)} {next left : List String}
    {calls made : Nat} (h : roundAll p groups next calls = .ok (left, made)) :
    left.length = next.length + groups.length := by
  induction groups generalizing next calls with
  | nil =>
    cases h
    rfl
  | cons group groups ih =>
    rw [roundAll] at h
    split at h
    · next hOne =>
      rw [ih h, List.length_append, hOne, List.length_cons]
      omega
    · split at h
      · cases h
      · rw [ih h, List.length_append, List.length_singleton, List.length_cons]
        omega

/-- The reduce step with all its rounds; a report known to be incomplete takes one. -/
def reduceAll (p : Provider) (cfg : ReportConfig) (ctxTokens : Nat) (once : Bool)
    (nodes : List String) (calls : Nat) : Except Stopped (List String × Nat) :=
  if _hSeveral : 1 < nodes.length ∧ fitsSinglePass nodes cfg.replyBudget ctxTokens = false then
    match _hRound : roundAll p (fanIn nodes) [] calls with
    | .error stopped => .error stopped
    | .ok (left, made) =>
      if once then .ok (left, made) else reduceAll p cfg ctxTokens once left made
  else .ok (nodes, calls)
termination_by nodes.length
decreasing_by
  rw [roundAll_length _hRound, fanIn_length, List.length_nil]
  unfold reduceFanout
  omega

/-- The final call, if it is not cancelled. -/
def finalCalls (p : Provider) (calls : Nat) : Nat := if p.cancelled calls then calls else calls + 1

/-- The calls of a report whose reduce step came out so. -/
def withFinal (p : Provider) : Except Stopped (List String × Nat) → Nat
  | .error stopped => stopped.2
  | .ok (_, calls) => finalCalls p calls

/-- The calls of a report whose map step has left these summaries. -/
def callsFrom (p : Provider) (r : ReportInput) (nodes : List String) (calls : Nat) : Nat :=
  if nodes.isEmpty then calls
  else withFinal p (reduceAll p r.cfg r.ctxTokens r.sampled nodes calls)

/-- The calls of map, reduce and final. -/
def stepsNeed (p : Provider) (r : ReportInput) : Nat :=
  match mapAll p r.fitted [] 0 with
  | .error stopped => stopped.2
  | .ok (nodes, calls) => callsFrom p r nodes calls

/-- The calls that a report needs. -/
def callsNeeded (p : Provider) (r : ReportInput) : Nat :=
  if framesSampled r.groups = 0 then 0
  else if collapses r.cfg r.groups r.ctxTokens then finalCalls p 0
  else stepsNeed p r

/-- As many groups as the budget has passes have nothing to say. -/
def BlankStart (p : Provider) (r : ReportInput) : Prop :=
  mapAll p (r.fitted.take maxReportPasses) [] 0 = .ok ([], maxReportPasses)

theorem reduceAll_done {p : Provider} {cfg : ReportConfig} {ctxTokens : Nat} (once : Bool)
    {nodes : List String} (calls : Nat)
    (h : ¬(1 < nodes.length ∧ fitsSinglePass nodes cfg.replyBudget ctxTokens = false)) :
    reduceAll p cfg ctxTokens once nodes calls = .ok (nodes, calls) := by
  rw [reduceAll, dif_neg h]

theorem reduceAll_round {p : Provider} {cfg : ReportConfig} {ctxTokens : Nat} (once : Bool)
    {nodes : List String} (calls : Nat)
    (h : 1 < nodes.length ∧ fitsSinglePass nodes cfg.replyBudget ctxTokens = false) :
    reduceAll p cfg ctxTokens once nodes calls =
      match roundAll p (fanIn nodes) [] calls with
      | .error stopped => .error stopped
      | .ok (left, made) =>
        if once then .ok (left, made) else reduceAll p cfg ctxTokens once left made := by
  rw [reduceAll, dif_pos h]
  split
  · next hRound =>
    rw [hRound]
  · next hRound =>
    rw [hRound]

/-! ## What comes next is a call -/

/-- A total, where the next thing to happen is a call: it is counted unless it is cancelled. -/
def CallNext (p : Provider) (calls total : Nat) : Prop :=
  if p.cancelled calls then total = calls else calls < total

/-- Where a step is done: if it did anything, it made a call. -/
def Reaches (p : Provider) (calls made : Nat) : Prop :=
  made = calls ∨ p.cancelled calls = false ∧ calls < made

theorem CallNext.le {p : Provider} {calls total : Nat} (h : CallNext p calls total) :
    calls ≤ total := by
  rw [CallNext] at h
  split at h
  · exact Nat.le_of_eq h.symm
  · exact Nat.le_of_lt h

theorem Reaches.le {p : Provider} {calls made : Nat} (h : Reaches p calls made) :
    calls ≤ made := by
  rcases h with h | ⟨-, h⟩ <;> omega

/-- A call was made, and the step went on. -/
theorem Reaches.succ {p : Provider} {calls made : Nat} (h : Reaches p calls (calls + 1))
    (hRest : calls + 1 ≤ made) : Reaches p calls made := by
  rcases h with h | ⟨hGoesOn, -⟩
  · omega
  · exact .inr ⟨hGoesOn, hRest⟩

theorem Reaches.callNext {p : Provider} {calls made total : Nat} (h : Reaches p calls made)
    (hNext : CallNext p made total) : CallNext p calls total := by
  rcases h with h | ⟨hGoesOn, hLt⟩
  · rw [← h]
    exact hNext
  · rw [CallNext, hGoesOn]
    exact Nat.lt_of_lt_of_le hLt hNext.le

/-- Two totals that begin with the same call keep to that many calls together. -/
theorem CallNext.within {p : Provider} {calls total : Nat} (h : CallNext p calls total) :
    finalCalls p calls ≤ calls ↔ total ≤ calls := by
  rw [CallNext] at h
  rw [finalCalls]
  split at h
  · next hCancelled =>
    rw [if_pos hCancelled]
    exact ⟨fun _ => Nat.le_of_eq h, fun _ => Nat.le_refl _⟩
  · next hGoesOn =>
    rw [if_neg hGoesOn]
    refine ⟨fun hLe => ?_, fun hLe => ?_⟩ <;> omega

theorem finalCalls_next (p : Provider) (calls : Nat) : CallNext p calls (finalCalls p calls) := by
  rw [CallNext, finalCalls]
  split
  · rfl
  · exact Nat.lt_succ_self calls

theorem finalCalls_le (p : Provider) (calls : Nat) : finalCalls p calls ≤ calls + 1 := by
  rw [finalCalls]
  split <;> omega

theorem call_error {p : Provider} {calls : Nat} {c : ReportCall} {stopped : Stopped}
    (h : p.call calls c = .error stopped) :
    CallNext p calls stopped.2 ∧ stopped.2 ≤ calls + 1 := by
  rw [Provider.call] at h
  split at h
  · next hCancelled =>
    cases h
    refine ⟨?_, Nat.le_succ _⟩
    rw [CallNext, hCancelled]
    rfl
  · next hGoesOn =>
    split at h
    · cases h
      refine ⟨?_, Nat.le_refl _⟩
      rw [CallNext, if_neg hGoesOn]
      exact Nat.lt_succ_self calls
    · cases h

theorem call_ok {p : Provider} {calls : Nat} {c : ReportCall} {reply : String × List Int}
    (h : p.call calls c = .ok reply) : Reaches p calls (calls + 1) := by
  rw [Provider.call] at h
  split at h
  · cases h
  · next hGoesOn => exact .inr ⟨Bool.eq_false_iff.mpr hGoesOn, Nat.lt_succ_self calls⟩

theorem roundAll_ok {p : Provider} {groups : List (List String)} {next left : List String}
    {calls made : Nat} (h : roundAll p groups next calls = .ok (left, made)) :
    Reaches p calls made := by
  induction groups generalizing next calls with
  | nil =>
    cases h
    exact .inl rfl
  | cons group groups ih =>
    rw [roundAll] at h
    split at h
    · exact ih h
    · split at h
      · cases h
      · next hCall => exact (call_ok hCall).succ (ih h).le

theorem roundAll_error {p : Provider} {groups : List (List String)} {next : List String}
    {calls : Nat} {stopped : Stopped} (h : roundAll p groups next calls = .error stopped) :
    CallNext p calls stopped.2 := by
  induction groups generalizing next calls with
  | nil => cases h
  | cons group groups ih =>
    rw [roundAll] at h
    split at h
    · exact ih h
    · split at h
      · next hCall =>
        cases h
        exact (call_error hCall).1
      · next hCall => exact (call_ok hCall).callNext (ih h)

theorem mapAll_ok {p : Provider} {groups : List Group} {nodes left : List String}
    {calls made : Nat} (h : mapAll p groups nodes calls = .ok (left, made)) :
    Reaches p calls made ∧ nodes <+: left := by
  induction groups generalizing nodes calls with
  | nil =>
    cases h
    exact ⟨.inl rfl, List.prefix_rfl⟩
  | cons group groups ih =>
    rw [mapAll] at h
    split at h
    · cases h
    · next hCall =>
      obtain ⟨hReaches, hPrefix⟩ := ih h
      exact ⟨(call_ok hCall).succ hReaches.le, (List.prefix_append _ _).trans hPrefix⟩

theorem mapAll_error {p : Provider} {groups : List Group} {nodes : List String}
    {calls : Nat} {stopped : Stopped} (h : mapAll p groups nodes calls = .error stopped) :
    CallNext p calls stopped.2 := by
  induction groups generalizing nodes calls with
  | nil => cases h
  | cons group groups ih =>
    rw [mapAll] at h
    split at h
    · next hCall =>
      cases h
      exact (call_error hCall).1
    · next hCall => exact (call_ok hCall).callNext (ih h)

/-- A round, and what comes after it. -/
theorem round_next {p : Provider} {cfg : ReportConfig} {ctxTokens : Nat} {once : Bool}
    {groups : List (List String)} {next : List String} {calls : Nat}
    (hRest : ∀ left made, roundAll p groups next calls = .ok (left, made) →
      CallNext p made (withFinal p (reduceAll p cfg ctxTokens once left made))) :
    CallNext p calls (withFinal p (match roundAll p groups next calls with
      | .error stopped => .error stopped
      | .ok (left, made) =>
        if once then .ok (left, made) else reduceAll p cfg ctxTokens once left made)) := by
  rcases hRound : roundAll p groups next calls with stopped | ⟨left, made⟩
  · exact roundAll_error hRound
  · refine (roundAll_ok hRound).callNext ?_
    dsimp only
    split
    · exact finalCalls_next p made
    · exact hRest left made hRound

/-- After the map step there is always a call to come, at the latest the final one. -/
theorem reduceAll_next (p : Provider) (cfg : ReportConfig) (ctxTokens : Nat) (once : Bool)
    (nodes : List String) (calls : Nat) :
    CallNext p calls (withFinal p (reduceAll p cfg ctxTokens once nodes calls)) := by
  induction h : nodes.length using Nat.strongRecOn generalizing nodes calls with
  | ind n ih =>
    by_cases hSeveral : 1 < nodes.length ∧ fitsSinglePass nodes cfg.replyBudget ctxTokens = false
    · rw [reduceAll_round once calls hSeveral]
      refine round_next fun left made hRound => ?_
      have hShorter : left.length < n := by
        rw [roundAll_length hRound, fanIn_length, List.length_nil, ← h]
        unfold reduceFanout
        omega
      exact ih _ hShorter left made rfl
    · rw [reduceAll_done once calls hSeveral]
      exact finalCalls_next p calls

theorem callsFrom_next {p : Provider} {r : ReportInput} {nodes : List String} (calls : Nat)
    (h : nodes ≠ []) : CallNext p calls (callsFrom p r nodes calls) := by
  rw [callsFrom, if_neg (by rwa [List.isEmpty_iff])]
  exact reduceAll_next p _ _ _ nodes calls

/-! ## The budget -/

theorem mapAll_append (p : Provider) (first rest : List Group) (nodes : List String)
    (calls : Nat) :
    mapAll p (first ++ rest) nodes calls =
      match mapAll p first nodes calls with
      | .error stopped => .error stopped
      | .ok (left, made) => mapAll p rest left made := by
  induction first generalizing nodes calls with
  | nil => rfl
  | cons group first ih =>
    rw [List.cons_append, mapAll, mapAll]
    rcases p.call calls (mapCall group) with stopped | ⟨text, cited⟩
    · rfl
    · exact ih _ _

/-- The map step against the one without a budget. -/
theorem mapLoop_error {p : Provider} {groups : List Group} {s : MapState} {stopped : Stopped}
    (hWithin : s.passes < maxReportPasses) (h : mapLoop p groups s = .error stopped) :
    mapAll p groups s.nodes s.passes = .error stopped ∧ stopped.2 ≤ maxReportPasses := by
  induction groups generalizing s with
  | nil => cases h
  | cons group groups ih =>
    rw [mapLoop] at h
    rw [mapAll]
    split at h
    · next hCall =>
      cases h
      have hNext := (call_error hCall).2
      exact ⟨rfl, by omega⟩
    · dsimp only at h
      split at h
      · cases h
      · next hGoesOn => exact ih (Nat.lt_of_not_ge hGoesOn) h

theorem mapLoop_ok {p : Provider} {groups : List Group} {s t : MapState}
    (hWithin : s.passes < maxReportPasses) (h : mapLoop p groups s = .ok t) :
    t.passes < maxReportPasses ∧ t.truncated = s.truncated ∧
        mapAll p groups s.nodes s.passes = .ok (t.nodes, t.passes) ∨
      t.passes = maxReportPasses ∧
        mapAll p (groups.take (maxReportPasses - s.passes)) s.nodes s.passes =
          .ok (t.nodes, maxReportPasses) := by
  induction groups generalizing s with
  | nil =>
    cases h
    exact .inl ⟨hWithin, rfl, rfl⟩
  | cons group groups ih =>
    rw [mapLoop] at h
    split at h
    · cases h
    · next hCall =>
      dsimp only at h
      split at h
      · next hStops =>
        have hLast : s.passes + 1 = maxReportPasses := by
          have : s.passes + 1 ≥ maxReportPasses := hStops
          omega
        cases h
        refine .inr ⟨hLast, ?_⟩
        rw [show maxReportPasses - s.passes = 1 by omega, List.take_succ_cons, List.take_zero,
          mapAll, hCall]
        show Except.ok (s.nodes ++ _, s.passes + 1) = _
        rw [hLast]
        rfl
      · next hGoesOn =>
        have hRest := ih (Nat.lt_of_not_ge hGoesOn) h
        rw [show maxReportPasses - s.passes = maxReportPasses - (s.passes + 1) + 1 by omega,
          List.take_succ_cons, mapAll, mapAll, hCall]
        exact hRest

theorem reduceRound_error {p : Provider} {groups : List (List String)} {next : List String}
    {passes : Nat} {stopped : Stopped} (hWithin : passes < maxReportPasses)
    (h : reduceRound p groups next passes = .error stopped) :
    roundAll p groups next passes = .error stopped ∧ stopped.2 ≤ maxReportPasses := by
  induction groups generalizing next passes with
  | nil => cases h
  | cons group groups ih =>
    rw [reduceRound] at h
    rw [roundAll]
    split at h
    · next hOne =>
      rw [if_pos hOne]
      exact ih hWithin h
    · next hSeveral =>
      rw [if_neg hSeveral]
      split at h
      · next hCall =>
        cases h
        have hNext := (call_error hCall).2
        exact ⟨rfl, by omega⟩
      · split at h
        · cases h
        · next hGoesOn => exact ih (Nat.lt_of_not_ge hGoesOn) h

theorem reduceRound_ok {p : Provider} {groups : List (List String)} {next : List String}
    {passes : Nat} {s : RoundState} (hWithin : passes < maxReportPasses)
    (h : reduceRound p groups next passes = .ok s) :
    s.stopped = false ∧ s.passes < maxReportPasses ∧
        roundAll p groups next passes = .ok (s.next, s.passes) ∨
      s.stopped = true ∧ s.passes = maxReportPasses ∧
        ∃ rest, roundAll p groups next passes = roundAll p rest s.next maxReportPasses := by
  induction groups generalizing next passes with
  | nil =>
    cases h
    exact .inl ⟨rfl, hWithin, rfl⟩
  | cons group groups ih =>
    rw [reduceRound] at h
    rw [roundAll]
    split at h
    · next hOne =>
      rw [if_pos hOne]
      exact ih hWithin h
    · next hSeveral =>
      rw [if_neg hSeveral]
      split at h
      · cases h
      · split at h
        · next hStops =>
          have hLast : passes + 1 = maxReportPasses := by omega
          cases h
          exact .inr ⟨rfl, hLast, groups, by rw [← hLast]⟩
        · next hGoesOn => exact ih (Nat.lt_of_not_ge hGoesOn) h

theorem reduceLoop_done {p : Provider} {cfg : ReportConfig} {ctxTokens : Nat} {s : ReduceState}
    (h : ¬(1 < s.nodes.length ∧ fitsSinglePass s.nodes cfg.replyBudget ctxTokens = false)) :
    reduceLoop p cfg ctxTokens s = .ok s := by
  rw [reduceLoop, dif_neg h]

/-- With the budget spent there is no round. -/
theorem reduceLoop_spent (p : Provider) (cfg : ReportConfig) (ctxTokens : Nat) (s : ReduceState)
    (h : maxReportPasses ≤ s.passes) :
    ∃ truncated, reduceLoop p cfg ctxTokens s = .ok { s with truncated } := by
  rw [reduceLoop, if_pos h]
  split
  · exact ⟨true, rfl⟩
  · exact ⟨s.truncated, rfl⟩

theorem reduceLoop_round {p : Provider} {cfg : ReportConfig} {ctxTokens : Nat} {s : ReduceState}
    (h : 1 < s.nodes.length ∧ fitsSinglePass s.nodes cfg.replyBudget ctxTokens = false)
    (hWithin : s.passes < maxReportPasses) :
    reduceLoop p cfg ctxTokens s =
      match reduceRound p (fanIn s.nodes) [] s.passes with
      | .error stopped => .error stopped
      | .ok round =>
        let truncated := s.truncated || round.stopped
        let next : ReduceState := { nodes := round.next, passes := round.passes, truncated }
        if next.truncated then .ok next else reduceLoop p cfg ctxTokens next := by
  rw [reduceLoop, dif_pos h, if_neg (Nat.not_le.mpr hWithin)]
  split
  · next hRound =>
    rw [hRound]
  · next hRound =>
    rw [hRound]
    dsimp only
    split
    · next hGoesOn => rw [if_neg (by rw [hGoesOn]; exact Bool.false_ne_true)]
    · next hStops => rw [if_pos (Bool.eq_true_of_not_eq_false hStops)]

/-- The calls of a report whose reduce step came out so. -/
def reduceCalls (p : Provider) : Except Stopped ReduceState → Nat
  | .error stopped => stopped.2
  | .ok s => finalCalls p s.passes

/-- The reduce step and the final call keep to the budget when without it they would. -/
theorem reduceLoop_within (p : Provider) (cfg : ReportConfig) (ctxTokens : Nat) (s : ReduceState)
    (hWithin : s.passes < maxReportPasses) :
    (reduceCalls p (reduceLoop p cfg ctxTokens s) ≤ maxReportPasses ↔
      withFinal p (reduceAll p cfg ctxTokens s.truncated s.nodes s.passes) ≤ maxReportPasses) ∧
    reduceCalls p (reduceLoop p cfg ctxTokens s) ≤ maxReportPasses + 1 := by
  induction h : s.nodes.length using Nat.strongRecOn generalizing s with
  | ind n ih =>
    by_cases hSeveral :
      1 < s.nodes.length ∧ fitsSinglePass s.nodes cfg.replyBudget ctxTokens = false
    · rw [reduceLoop_round hSeveral hWithin, reduceAll_round _ _ hSeveral]
      rcases hRound : reduceRound p (fanIn s.nodes) [] s.passes with stopped | round
      · obtain ⟨hAll, hLe⟩ := reduceRound_error hWithin hRound
        rw [hAll]
        exact ⟨Iff.rfl, Nat.le_succ_of_le hLe⟩
      · rcases reduceRound_ok hWithin hRound with
          ⟨hStopped, hPasses, hAll⟩ | ⟨hStopped, hPasses, hAll⟩
        · -- the round was not stopped
          rw [hAll]
          dsimp only
          rw [hStopped, Bool.or_false]
          split
          · have hFinal := finalCalls_le p round.passes
            exact ⟨Iff.rfl, Nat.le_trans hFinal (by omega)⟩
          · next hGoesOn =>
            have hShorter := reduceRound_shrinks hRound hStopped hSeveral.1
            exact ih _ (h ▸ hShorter) _ hPasses rfl
        · -- the budget is spent, and the next thing to happen is a call
          obtain ⟨rest, hAll⟩ := hAll
          rw [hAll]
          dsimp only
          rw [hStopped, Bool.or_true, if_pos rfl]
          show (finalCalls p round.passes ≤ _ ↔ _) ∧ finalCalls p round.passes ≤ _
          rw [hPasses]
          exact ⟨(round_next fun left made _ => reduceAll_next p _ _ _ left made).within,
            finalCalls_le p _⟩
    · rw [reduceLoop_done hSeveral, reduceAll_done _ _ hSeveral]
      have hFinal := finalCalls_le p s.passes
      exact ⟨Iff.rfl, Nat.le_trans hFinal (by omega)⟩

/-- The calls that were made for a result. -/
def callsOf : Except Stopped (ReportOutput × Nat) → Nat
  | .error stopped => stopped.2
  | .ok (_, calls) => calls

theorem singlePass_calls (p : Provider) (r : ReportInput) :
    callsOf (singlePass p r) = finalCalls p 0 := by
  rw [singlePass, finalCalls]
  rw [Provider.call]
  split
  · rfl
  · rcases p.summarize 0 _ with e | ⟨markdown, cited⟩ <;> rfl

theorem mapReduce_calls (p : Provider) (r : ReportInput) :
    callsOf (mapReduce p r) =
      match mapLoop p r.fitted { truncated := r.sampled } with
      | .error stopped => stopped.2
      | .ok mapped =>
        if mapped.nodes.isEmpty then mapped.passes
        else reduceCalls p (reduceLoop p r.cfg r.ctxTokens
          { nodes := mapped.nodes, passes := mapped.passes, truncated := mapped.truncated }) := by
  rw [mapReduce]
  rcases mapLoop p r.fitted { truncated := r.sampled } with stopped | mapped
  · rfl
  · show callsOf (if mapped.nodes.isEmpty then _ else _) = _
    dsimp only
    split
    · rfl
    · rcases reduceLoop p r.cfg r.ctxTokens _ with stopped | reduced
      · rfl
      · show callsOf (do
          let (markdown, _) ← p.call reduced.passes _
          pure (_, reduced.passes + 1)) = finalCalls p reduced.passes
        rw [Provider.call, finalCalls]
        split
        · rfl
        · rcases p.summarize reduced.passes _ with e | ⟨markdown, cited⟩ <;> rfl

/-- The map step needs its first groups, and then the others. -/
theorem stepsNeed_split (p : Provider) (r : ReportInput) :
    stepsNeed p r =
      match mapAll p (r.fitted.take maxReportPasses) [] 0 with
      | .error stopped => stopped.2
      | .ok (nodes, calls) =>
        match mapAll p (r.fitted.drop maxReportPasses) nodes calls with
        | .error stopped => stopped.2
        | .ok (nodes, calls) => callsFrom p r nodes calls := by
  have hAll := mapAll_append p (r.fitted.take maxReportPasses) (r.fitted.drop maxReportPasses) [] 0
  rw [List.take_append_drop] at hAll
  rw [stepsNeed, hAll]
  rcases mapAll p (r.fitted.take maxReportPasses) [] 0 with stopped | ⟨nodes, calls⟩ <;> rfl

/-- Summaries are left when the budget is spent: the next thing to happen is a call. -/
theorem stepsNeed_next {p : Provider} {r : ReportInput} {nodes : List String}
    (h : mapAll p (r.fitted.take maxReportPasses) [] 0 = .ok (nodes, maxReportPasses))
    (hNodes : nodes ≠ []) : CallNext p maxReportPasses (stepsNeed p r) := by
  rw [stepsNeed_split, h]
  dsimp only
  rcases hRest : mapAll p (r.fitted.drop maxReportPasses) nodes maxReportPasses with
    stopped | ⟨left, made⟩
  · exact mapAll_error hRest
  · obtain ⟨hReaches, hPrefix⟩ := mapAll_ok hRest
    refine hReaches.callNext (callsFrom_next made ?_)
    intro hNil
    rw [hNil] at hPrefix
    exact hNodes (List.prefix_nil.mp hPrefix)

/-- With a blank start no more than the budget can be reached. -/
theorem BlankStart.not_within {p : Provider} {r : ReportInput} (hBlank : BlankStart p r)
    {nodes : List String} {calls : Nat} (h : mapAll p r.fitted [] 0 = .ok (nodes, calls)) :
    maxReportPasses ≤ calls := by
  have hAll := mapAll_append p (r.fitted.take maxReportPasses) (r.fitted.drop maxReportPasses) [] 0
  rw [List.take_append_drop, hBlank, h] at hAll
  exact (mapAll_ok hAll.symm).1.le

theorem mapReduce_within (p : Provider) (r : ReportInput) :
    (callsOf (mapReduce p r) ≤ maxReportPasses ↔
      stepsNeed p r ≤ maxReportPasses ∨ BlankStart p r) ∧
    callsOf (mapReduce p r) ≤ maxReportPasses + 1 := by
  have hStart : (0 : Nat) < maxReportPasses := by decide
  rw [mapReduce_calls]
  rcases hMap : mapLoop p r.fitted { truncated := r.sampled } with stopped | mapped
  · obtain ⟨hAll, hLe⟩ := mapLoop_error hStart hMap
    refine ⟨⟨fun _ => .inl ?_, fun _ => hLe⟩, Nat.le_succ_of_le hLe⟩
    rw [stepsNeed, hAll]
    exact hLe
  · rcases mapLoop_ok hStart hMap with ⟨hPasses, hTruncated, hAll⟩ | ⟨hPasses, hAll⟩
    · -- the map step was not stopped
      have hNotBlank : ¬BlankStart p r := fun hBlank =>
        absurd (hBlank.not_within hAll) (Nat.not_le.mpr hPasses)
      rw [or_iff_left hNotBlank, stepsNeed, hAll]
      dsimp only
      rw [callsFrom]
      split
      · exact ⟨Iff.rfl, by omega⟩
      · have hReduce := reduceLoop_within p r.cfg r.ctxTokens
          { nodes := mapped.nodes, passes := mapped.passes, truncated := mapped.truncated } hPasses
        rw [show mapped.truncated = r.sampled from hTruncated] at hReduce ⊢
        exact hReduce
    · -- the budget is spent
      dsimp only
      split
      · next hNil =>
        have hBlank : BlankStart p r := by
          rw [List.isEmpty_iff.mp hNil] at hAll
          exact hAll
        exact ⟨⟨fun _ => .inr hBlank, fun _ => Nat.le_of_eq hPasses⟩, by omega⟩
      · next hSome =>
        have hNodes : mapped.nodes ≠ [] := fun hNil => hSome (List.isEmpty_iff.mpr hNil)
        have hNotBlank : ¬BlankStart p r := fun hBlank => by
          have hOther := hAll.symm.trans hBlank
          injection hOther with hOther
          exact hNodes (congrArg Prod.fst hOther)
        obtain ⟨truncated, hSpent⟩ := reduceLoop_spent p r.cfg r.ctxTokens
          { nodes := mapped.nodes, passes := mapped.passes, truncated := mapped.truncated }
          (Nat.le_of_eq hPasses.symm)
        rw [or_iff_left hNotBlank, hSpent, reduceCalls, hPasses]
        exact ⟨(stepsNeed_next hAll hNodes).within, finalCalls_le p _⟩

/-- A round of the reduce step leaves fewer summaries, or it ends the step. -/
def RoundsShrink (p : Provider) : Prop :=
  ∀ (nodes : List String) (passes : Nat) (round : RoundState), 1 < nodes.length →
    reduceRound p (fanIn nodes) [] passes = .ok round →
    round.next.length < nodes.length ∨ round.stopped = true

theorem writeReport_calls (p : Provider) (r : ReportInput) :
    (writeReport p r).2 =
      if framesSampled r.groups = 0 then 0
      else if collapses r.cfg r.groups r.ctxTokens then finalCalls p 0
      else callsOf (mapReduce p r) := by
  have hCalls : ∀ result : Except Stopped (ReportOutput × Nat),
      (match result with
        | .error (e, calls) => ((.error e : Except String ReportOutput), calls)
        | .ok (output, calls) => (.ok output, calls)).2 = callsOf result := by
    rintro (⟨e, calls⟩ | ⟨output, calls⟩) <;> rfl
  rw [writeReport, hCalls]
  split
  · rfl
  · split
    · exact singlePass_calls p r
    · rfl

/-- **The budget of passes.** A report makes at most as many calls as the budget has passes when it
needs no more, or when that many groups in a row had nothing to say. In every other case it makes
one more, the final call, which the budget leaves out. -/
theorem passes_within_budget (p : Provider) (r : ReportInput) :
    ((writeReport p r).2 ≤ maxReportPasses ∧ RoundsShrink p ↔
      callsNeeded p r ≤ maxReportPasses ∨ BlankStart p r) ∧
    RoundsShrink p ∧ (writeReport p r).2 ≤ maxReportPasses + 1 := by
  have hShrink : RoundsShrink p := by
    intro nodes passes round hSeveral hRound
    rcases hStopped : round.stopped with _ | _
    · exact .inl (reduceRound_shrinks hRound hStopped hSeveral)
    · exact .inr rfl
  rw [and_iff_left hShrink, writeReport_calls, callsNeeded]
  have hFinal := finalCalls_le p 0
  have hBudget : maxReportPasses = 64 := rfl
  split
  · exact ⟨⟨fun h => .inl h, fun _ => Nat.zero_le _⟩, hShrink, Nat.zero_le _⟩
  · split
    · have hWithin : finalCalls p 0 ≤ maxReportPasses := by omega
      exact ⟨⟨fun h => .inl h, fun _ => hWithin⟩, hShrink, Nat.le_succ_of_le hWithin⟩
    · obtain ⟨hIff, hLe⟩ := mapReduce_within p r
      exact ⟨hIff, hShrink, hLe⟩

/-- Two days at the default depth, with no room for two frames in a pass. -/
def twoFullDays : ReportInput where
  cfg := { dailyTopK := 40, weeklyTopK := 200, mapReduceMinFrames := 20, replyBudget := 2048 }
  ctxTokens := 2048
  prompt := none
  instruction := "Write the report."
  groups := ["day 1", "day 2"].map fun label =>
    { label
      chunks := (List.range 40).map fun (i : Nat) =>
        { frameId := i, text := "Inbox", capturedAt := i } }
  periodsTotal := 2
  totalInRange := 80

/-- The final call comes after the budget is spent. -/
theorem final_call_over_budget :
    ¬(writeReport { summarize := fun _ _ => .ok ("Mail.", [1]), cancelled := fun _ => false }
        twoFullDays).2 ≤ maxReportPasses := by
  decide +kernel

end ScreenSearch.Kernel
