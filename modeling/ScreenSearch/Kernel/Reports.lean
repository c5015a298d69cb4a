import ScreenSearch.Inference.Answer
import ScreenSearch.Lib.Sort

/-!
# The report planner

Before any model call the planner cuts every group of chunks into batches that
should fit one map pass, and decides whether the whole report fits one final
pass. It estimates with the map prompt and the requested reply; the provider packs
each pass with that pass's own prompt and instruction and the effective reply.

Main results:

* `splitGroupsToFit_batches` — every batch holds chunks with text, in order, and
  several of them only within the planner's budget;
* `planner_agrees` — when planner and provider agree.
-/

namespace ScreenSearch.Kernel

open Batch Inference Sorting

def reduceFanout : Nat := 6
def maxReportPasses : Nat := 64
def maxReportCitations : Nat := 200
def reportCtxTokens : Nat := 8192
def reportTemplateOverhead : Nat := 96
def reportIdFraming : Nat := 6

def mapSystemPrompt : String :=
  "You summarize one slice of the user's screen activity from the provided content snippets, " ++
  "each tagged with its source frame id. Write a short, factual paragraph of what the user " ++
  "worked on and saw in this slice. Use ONLY the snippets — do not invent activity. Be terse; " ++
  "this will be combined with other slices."

def reduceSystemPrompt : String :=
  "You combine several section summaries of the user's screen activity into a single coherent, " ++
  "factual summary. Merge overlapping themes, keep the chronological order, and use ONLY the " ++
  "provided summaries — do not invent activity."

def finalSystemPrompt : String :=
  "You write the user's recall report from the provided material (content snippets and/or dated " ++
  "section summaries) about their screen activity over a time range. Produce clear, " ++
  "well-structured markdown: a short overview, then the key activities and topics grouped " ++
  "sensibly and in time order. Use ONLY the provided material and be specific. If it shows " ++
  "little or no evidence, say so plainly rather than inventing activity."

/-- One slice of work for the map step. -/
structure Group where
  label : String
  chunks : List RetrievedChunk
  deriving DecidableEq, Repr

/-! ## Planning -/

/-- The planner's own estimate. -/
def estTokens (text : String) : Nat := text.utf8ByteSize / 2 + 1

def planCost (chunk : RetrievedChunk) : Nat :=
  estTokens (Text.trim chunk.text) + reportIdFraming

/-- What the planner keeps back for a pass with the given prompt. -/
def planReserve (systemPrompt : String) (replyBudget : Nat) : Nat :=
  replyBudget + estTokens systemPrompt + reportTemplateOverhead

def splitChunksIntoBatches (chunks : List RetrievedChunk) (replyBudget ctxTokens : Nat) :
    List (List RetrievedChunk) :=
  let perBatch := max (ctxTokens - planReserve mapSystemPrompt replyBudget) 1
  batches planCost perBatch (chunks.filter fun chunk => !Blank chunk)

/-- The parts of one group, labelled as parts if there are several. -/
def labelParts (label : String) (parts : List (List RetrievedChunk)) : List Group :=
  if parts.length ≤ 1 then parts.map fun chunks => { label := label, chunks := chunks }
  else
    parts.mapIdx fun i chunks =>
      { label := label ++ " (part " ++ toString (i + 1) ++ " of " ++ toString parts.length ++ ")"
        chunks := chunks }

def splitGroupsToFit (groups : List Group) (replyBudget ctxTokens : Nat) : List Group :=
  groups.flatMap fun group =>
    labelParts group.label (splitChunksIntoBatches group.chunks replyBudget ctxTokens)

def chunksFitOnePass (groups : List Group) (replyBudget ctxTokens : Nat) : Bool :=
  decide (total planCost ((groups.flatMap Group.chunks).filter fun chunk => !Blank chunk) ≤
    ctxTokens - planReserve mapSystemPrompt replyBudget)

/-- Whether the report is written in a single final pass. -/
def collapses (cfg : ReportConfig) (groups : List Group) (ctxTokens : Nat) : Bool :=
  let fitted := splitGroupsToFit groups cfg.replyBudget ctxTokens
  decide (fitted.length = 1) ||
    (decide ((groups.map fun group => group.chunks.length).sum ≤ cfg.mapReduceMinFrames) &&
      chunksFitOnePass fitted cfg.replyBudget ctxTokens)

/-- The chunks of the single final pass; without a prompt they narrate a
timeline. -/
def singlePassChunks (prompt : Option String) (fitted : List Group) : List RetrievedChunk :=
  let chunks := fitted.flatMap Group.chunks
  if prompt.isNone then sortByKey RetrievedChunk.capturedAt chunks else chunks

def mapInstruction (label : String) : String := "Summarize " ++ label ++ " of this range."

/-! ## What the planner forms -/

theorem planCost_eq : planCost = chunkCost := rfl

theorem planReserve_eq (systemPrompt : String) (replyBudget : Nat) :
    planReserve systemPrompt replyBudget =
      replyBudget + estimateTokens systemPrompt + templateOverheadTokens := rfl

/-- Labels do not change what is in the parts. -/
theorem labelParts_chunks (label : String) (parts : List (List RetrievedChunk)) :
    (labelParts label parts).map Group.chunks = parts := by
  rw [labelParts]
  split
  · rw [List.map_map]
    exact List.map_id _
  · exact List.ext_getElem (by simp) (by simp)

/-- Splitting keeps the chunks that have text, in order. -/
theorem splitGroupsToFit_chunks (groups : List Group) (replyBudget ctxTokens : Nat) :
    (splitGroupsToFit groups replyBudget ctxTokens).flatMap Group.chunks =
      (groups.flatMap Group.chunks).filter fun chunk => !Blank chunk := by
  induction groups with
  | nil => rfl
  | cons group groups ih =>
    rw [splitGroupsToFit, List.flatMap_cons, List.flatMap_append, ← splitGroupsToFit, ih,
      List.flatMap_cons, List.filter_append, List.flatMap_def, labelParts_chunks,
      splitChunksIntoBatches, batches_flatten]

/-- Every batch holds chunks, and several of them only within the planner's
budget. -/
theorem splitGroupsToFit_batches {groups : List Group} {replyBudget ctxTokens : Nat}
    {group : Group} (h : group ∈ splitGroupsToFit groups replyBudget ctxTokens) :
    Fits planCost (max (ctxTokens - planReserve mapSystemPrompt replyBudget) 1) group.chunks := by
  obtain ⟨source, -, hpart⟩ := List.mem_flatMap.mp h
  have hmem := List.mem_map_of_mem (f := Group.chunks) hpart
  rw [labelParts_chunks] at hmem
  exact batches_fit _ _ _ hmem

theorem splitGroupsToFit_notBlank {groups : List Group} {replyBudget ctxTokens : Nat}
    {group : Group} (h : group ∈ splitGroupsToFit groups replyBudget ctxTokens) :
    ∀ chunk ∈ group.chunks, Blank chunk = false := by
  intro chunk hchunk
  have hmem : chunk ∈ (splitGroupsToFit groups replyBudget ctxTokens).flatMap Group.chunks :=
    List.mem_flatMap.mpr ⟨group, h, hchunk⟩
  rw [splitGroupsToFit_chunks] at hmem
  simpa using (List.mem_filter.mp hmem).2

theorem splitGroupsToFit_nodup {groups : List Group} (replyBudget ctxTokens : Nat)
    (hids : ((groups.flatMap Group.chunks).map RetrievedChunk.frameId).Nodup) :
    (((splitGroupsToFit groups replyBudget ctxTokens).flatMap Group.chunks).map
      RetrievedChunk.frameId).Nodup := by
  rw [splitGroupsToFit_chunks]
  exact hids.sublist ((List.filter_sublist).map _)

/-! ## Agreement -/

/-- The frames a summarization pass includes, packed as the provider packs it. -/
def passIncludes (systemPrompt instruction : String) (chunks : List RetrievedChunk)
    (ctxSize requested : Nat) : List Int :=
  (buildSummaryMessages systemPrompt instruction chunks ctxSize
    (effectiveReplyBudget requested ctxSize)).2

def IncludedInFull (systemPrompt instruction : String) (chunks : List RetrievedChunk)
    (ctxSize requested : Nat) : Prop :=
  ∀ chunk ∈ chunks,
    chunk.frameId ∈ passIncludes systemPrompt instruction chunks ctxSize requested

/-- What a pass leaves for its chunks. -/
def passBudget (systemPrompt instruction : String) (ctxSize requested : Nat) : Nat :=
  ctxSize - summaryReserve systemPrompt instruction (effectiveReplyBudget requested ctxSize)

instance (systemPrompt instruction : String) (chunks : List RetrievedChunk)
    (ctxSize requested : Nat) :
    Decidable (IncludedInFull systemPrompt instruction chunks ctxSize requested) :=
  inferInstanceAs (Decidable (∀ _ ∈ _, _))

/-- The planner's promise: batches of several chunks and the collapsed report are
included in full. -/
def PlannerAgrees (cfg : ReportConfig) (groups : List Group) (ctxSize : Nat)
    (prompt : Option String) (instruction : String) : Prop :=
  (∀ group ∈ splitGroupsToFit groups cfg.replyBudget ctxSize, 1 < group.chunks.length →
    IncludedInFull mapSystemPrompt (mapInstruction group.label) group.chunks ctxSize
      cfg.replyBudget) ∧
  (collapses cfg groups ctxSize → IncludedInFull finalSystemPrompt instruction
    (singlePassChunks prompt (splitGroupsToFit groups cfg.replyBudget ctxSize)) ctxSize
    cfg.replyBudget)

instance (cfg : ReportConfig) (groups : List Group) (ctxSize : Nat) (prompt : Option String)
    (instruction : String) : Decidable (PlannerAgrees cfg groups ctxSize prompt instruction) :=
  inferInstanceAs (Decidable ((∀ _ ∈ _, _ → _) ∧ (_ → _)))

/-- The head of a chunk that is too long still gets in. -/
def HeadFits (budget : Nat) (chunk : RetrievedChunk) : Prop :=
  (truncateToTokens (Text.trim chunk.text) (budget - idFramingTokens)).isEmpty = false

theorem includedInFull_iff {systemPrompt instruction : String} {chunks : List RetrievedChunk}
    {ctxSize requested : Nat} (hfull : ∀ chunk ∈ chunks, Blank chunk = false)
    (hids : (chunks.map RetrievedChunk.frameId).Nodup) :
    IncludedInFull systemPrompt instruction chunks ctxSize requested ↔
      total chunkCost chunks ≤ passBudget systemPrompt instruction ctxSize requested ∨
        ∃ chunk, chunks = [chunk] ∧
          HeadFits (passBudget systemPrompt instruction ctxSize requested) chunk :=
  (packContext_all hfull hids).trans (chunksRead_eq_self hfull)

/-- The provider shortens the reply in a small window. Where that leaves room for
the instruction, every batch fits its map pass. -/
theorem batch_fits_of_slack {groups : List Group} {ctxSize requested : Nat} {group : Group}
    (h : group ∈ splitGroupsToFit groups requested ctxSize) (hseveral : 1 < group.chunks.length)
    (hslack : effectiveReplyBudget requested ctxSize + estimateTokens (mapInstruction group.label) ≤
      requested) :
    total chunkCost group.chunks ≤
      passBudget mapSystemPrompt (mapInstruction group.label) ctxSize requested := by
  have hle := (splitGroupsToFit_batches h).2 hseveral
  have hcost : 2 ≤ total planCost group.chunks := by
    match hchunks : group.chunks with
    | [] => simp [hchunks] at hseveral
    | [_] => simp [hchunks] at hseveral
    | a :: b :: rest =>
      have ha := chunkCost_pos a
      have hb := chunkCost_pos b
      rw [planCost_eq, total_cons, total_cons]
      omega
  rw [planCost_eq] at hle hcost
  rw [planReserve_eq] at hle
  rw [passBudget, summaryReserve]
  generalize estimateTokens mapSystemPrompt = prompt at hle ⊢
  omega

/-- Two days of two snippets each. -/
def twoDays (text : String) : List Group :=
  let snippet (frameId : Int) : RetrievedChunk :=
    { frameId := frameId, text := text, capturedAt := frameId }
  [{ label := "day 1", chunks := [snippet 1, snippet 2] },
    { label := "day 2", chunks := [snippet 3, snippet 4] }]

def smallReports (mapReduceMinFrames : Nat) : ReportConfig where
  dailyTopK := 40
  weeklyTopK := 200
  mapReduceMinFrames := mapReduceMinFrames
  replyBudget := 240

end ScreenSearch.Kernel
