import ScreenSearch.Lib.Batch
import ScreenSearch.Lib.Text
import ScreenSearch.Traits.Reports

/-!
# Packing a prompt

The answer provider bounds every prompt to the model's context window: what the
reply, the system prompt, the instruction and the template leave is spent on
chunks in their order, and the rest is dropped.

Main results:

* `packContext_mem` — a frame is included exactly when its chunk is read;
* `chunksRead_eq_self` — when all chunks are read;
* `packContext_all` — chunks of different frames are all included exactly then.
-/

namespace ScreenSearch.Inference

open Batch

def templateOverheadTokens : Nat := 96
def idFramingTokens : Nat := 6
def bytesPerToken : Nat := 2

structure ChatMessage where
  role : String
  content : String
  deriving DecidableEq, Repr

/-! ## Estimates -/

/-- At most half the window goes to the reply. -/
def effectiveReplyBudget (requested ctxSize : Nat) : Nat := min requested (max (ctxSize / 2) 1)

def estimateTokens (text : String) : Nat := text.utf8ByteSize / bytesPerToken + 1

/-- The scalars of the front that fit into `maxBytes`. -/
def takeBytes : Nat → List Char → List Char
  | _, [] => []
  | maxBytes, c :: cs =>
    if c.utf8Size ≤ maxBytes then c :: takeBytes (maxBytes - c.utf8Size) cs else []

/-- Cut at the last scalar boundary inside the budget. -/
def truncateToTokens (text : String) (budgetTokens : Nat) : String :=
  String.ofList (takeBytes (min (budgetTokens * bytesPerToken) text.utf8ByteSize) text.toList)

/-! ## Packing -/

/-- A chunk costs its text and the framing with its frame id. -/
def chunkCost (chunk : RetrievedChunk) : Nat :=
  estimateTokens (Text.trim chunk.text) + idFramingTokens

def snippetLine (frameId : Int) (snippet : String) : String :=
  "[frame " ++ toString frameId ++ "] " ++ snippet ++ "\n"

def pushNew (included : List Int) (frameId : Int) : List Int :=
  if frameId ∈ included then included else included ++ [frameId]

/-- The loop over the chunks. A chunk that does not fit ends it, except that the
very first one is cut to what is left. -/
def packLoop (budget : Nat) (user : String) (included : List Int) :
    List RetrievedChunk → String × List Int
  | [] => (user, included)
  | chunk :: rest =>
    if budget = 0 then (user, included)
    else
      let text := Text.trim chunk.text
      if text.isEmpty then packLoop budget user included rest
      else if chunkCost chunk ≤ budget then
        packLoop (budget - chunkCost chunk) (user ++ snippetLine chunk.frameId text)
          (pushNew included chunk.frameId) rest
      else if included.isEmpty then
        let snippet := truncateToTokens text (budget - idFramingTokens)
        if snippet.isEmpty then (user, included)
        else
          packLoop 0 (user ++ snippetLine chunk.frameId snippet)
            (pushNew included chunk.frameId) rest
      else (user, included)

def packContext (intro : String) (context : List RetrievedChunk) (budgetTokens : Nat) :
    String × List Int :=
  let (user, included) := packLoop budgetTokens intro [] context
  (if included.isEmpty then user ++ "(no relevant snippets found)\n" else user, included)

/-- What a pass keeps back from the window. -/
def summaryReserve (systemPrompt instruction : String) (maxTokens : Nat) : Nat :=
  maxTokens + estimateTokens systemPrompt + estimateTokens instruction + templateOverheadTokens

/-- The messages of one summarization pass and the frames it reads. -/
def buildSummaryMessages (systemPrompt instruction : String) (context : List RetrievedChunk)
    (ctxSize maxTokens : Nat) : List ChatMessage × List Int :=
  let budget := ctxSize - summaryReserve systemPrompt instruction maxTokens
  let (user, included) := packContext "Content from my screen history:\n" context budget
  let user := if (Text.trim instruction).isEmpty then user else user ++ "\n" ++ instruction
  ([{ role := "system", content := systemPrompt }, { role := "user", content := user }], included)

/-! ## What is read -/

def Blank (chunk : RetrievedChunk) : Bool := (Text.trim chunk.text).isEmpty

/-- The chunks a pass reads: those that fit, or the head of the very first. -/
def chunksRead (budget : Nat) (context : List RetrievedChunk) : List RetrievedChunk :=
  match context.filter fun chunk => !Blank chunk with
  | [] => []
  | chunk :: rest =>
    if chunkCost chunk ≤ budget then fitting chunkCost budget (chunk :: rest)
    else if (truncateToTokens (Text.trim chunk.text) (budget - idFramingTokens)).isEmpty then []
    else [chunk]

theorem chunkCost_pos (chunk : RetrievedChunk) : 0 < chunkCost chunk := by
  rw [chunkCost, idFramingTokens]
  omega

theorem packLoop_zero (user : String) (included : List Int) (context : List RetrievedChunk) :
    packLoop 0 user included context = (user, included) := by
  cases context <;> simp [packLoop]

theorem mem_pushNew {included : List Int} {frameId x : Int} :
    x ∈ pushNew included frameId ↔ x ∈ included ∨ x = frameId := by
  rw [pushNew]
  split
  · rename_i hin
    exact ⟨Or.inl, fun h => h.elim id fun heq => heq ▸ hin⟩
  · simp

/-- Once something is included, exactly the chunks that fit are added. -/
theorem packLoop_mem {budget : Nat} {user : String} {included : List Int}
    {context : List RetrievedChunk} (hne : included ≠ []) (x : Int) :
    x ∈ (packLoop budget user included context).2 ↔
      x ∈ included ∨ x ∈ (fitting chunkCost budget
        (context.filter fun chunk => !Blank chunk)).map RetrievedChunk.frameId := by
  induction context generalizing budget user included with
  | nil => simp [packLoop, fitting]
  | cons chunk context ih =>
    rw [packLoop]
    by_cases hzero : budget = 0
    · -- a chunk never costs nothing
      have hnone : fitting chunkCost 0 ((chunk :: context).filter fun c => !Blank c) = [] := by
        cases (chunk :: context).filter fun c => !Blank c with
        | nil => rfl
        | cons c rest => simp [fitting, (chunkCost_pos c).ne']
      simp [hzero, hnone]
    · rw [if_neg hzero]
      dsimp only
      by_cases hblank : (Text.trim chunk.text).isEmpty
      · rw [if_pos hblank, List.filter_cons_of_neg (by simp [Blank, hblank])]
        exact ih hne
      · rw [if_neg hblank, List.filter_cons_of_pos (by simp [Blank, hblank]), fitting]
        split
        · rw [ih (by simp [pushNew]; split <;> simp [hne]), mem_pushNew, List.map_cons,
            List.mem_cons, or_assoc]
        · simp [hne]

theorem truncateToTokens_zero (text : String) : (truncateToTokens text 0).isEmpty := by
  have htake : ∀ cs, takeBytes 0 cs = [] := by
    intro cs
    cases cs with
    | nil => rfl
    | cons c cs => simp [takeBytes, (Char.utf8Size_pos c).ne']
  simp [truncateToTokens, htake]

theorem chunksRead_zero (context : List RetrievedChunk) : chunksRead 0 context = [] := by
  rw [chunksRead]
  cases context.filter fun chunk => !Blank chunk with
  | nil => rfl
  | cons chunk rest =>
    dsimp only
    rw [if_neg (Nat.not_le.mpr (chunkCost_pos chunk)), Nat.zero_sub,
      if_pos (truncateToTokens_zero _)]

/-- A frame is included exactly when its chunk is read. -/
theorem packContext_mem (intro : String) (context : List RetrievedChunk) (budget : Nat) (x : Int) :
    x ∈ (packContext intro context budget).2 ↔
      x ∈ (chunksRead budget context).map RetrievedChunk.frameId := by
  suffices h : ∀ user, x ∈ (packLoop budget user [] context).2 ↔
      x ∈ (chunksRead budget context).map RetrievedChunk.frameId from h intro
  intro user
  by_cases hzero : budget = 0
  · subst hzero
    simp [packLoop_zero, chunksRead_zero]
  induction context with
  | nil => simp [packLoop, chunksRead]
  | cons chunk context ih =>
    rw [packLoop, if_neg hzero, chunksRead]
    dsimp only
    by_cases hblank : (Text.trim chunk.text).isEmpty
    · rw [if_pos hblank, List.filter_cons_of_neg (by simp [Blank, hblank]), ih, chunksRead]
    · rw [if_neg hblank, List.filter_cons_of_pos (by simp [Blank, hblank])]
      dsimp only
      split
      · rename_i hfits
        rw [packLoop_mem (by simp [pushNew]), fitting, if_pos hfits]
        simp [pushNew]
      · rw [if_pos List.isEmpty_nil]
        split
        · simp
        · simp [packLoop_zero, pushNew]

/-- A pass reads all of its chunks when they fit, and also a single one that is
too long but has a head that fits. -/
theorem chunksRead_eq_self {budget : Nat} {context : List RetrievedChunk}
    (hfull : ∀ chunk ∈ context, Blank chunk = false) :
    chunksRead budget context = context ↔
      total chunkCost context ≤ budget ∨
        ∃ chunk, context = [chunk] ∧
          (truncateToTokens (Text.trim chunk.text) (budget - idFramingTokens)).isEmpty = false := by
  have hfilter : context.filter (fun chunk => !Blank chunk) = context :=
    List.filter_eq_self.mpr fun chunk hchunk => by simp [hfull chunk hchunk]
  rw [chunksRead, hfilter]
  cases context with
  | nil => simp
  | cons chunk rest =>
    dsimp only
    split
    · rename_i hfits
      rw [fitting_eq_self]
      refine ⟨Or.inl, fun h => h.elim id ?_⟩
      rintro ⟨only, heq, -⟩
      obtain ⟨rfl, rfl⟩ := List.cons.inj heq
      simpa using hfits
    · rename_i hover
      have hlarge : ¬ total chunkCost (chunk :: rest) ≤ budget := by
        rw [total_cons]
        omega
      split
      · rename_i hempty
        refine ⟨fun h => absurd h (by simp), fun h => ?_⟩
        rcases h with hle | ⟨only, heq, hhead⟩
        · exact absurd hle hlarge
        · obtain ⟨rfl, rfl⟩ := List.cons.inj heq
          simp [hempty] at hhead
      · rename_i hhead
        refine ⟨fun h => Or.inr ⟨chunk, h.symm, by simpa using hhead⟩, fun h => ?_⟩
        rcases h with hle | ⟨only, heq, -⟩
        · exact absurd hle hlarge
        · obtain ⟨rfl, rfl⟩ := List.cons.inj heq
          rfl

theorem chunksRead_prefix (budget : Nat) (context : List RetrievedChunk) :
    chunksRead budget context <+: context.filter fun chunk => !Blank chunk := by
  rw [chunksRead]
  cases context.filter fun chunk => !Blank chunk with
  | nil => exact List.prefix_rfl
  | cons chunk rest =>
    dsimp only
    split
    · exact fitting_begins chunkCost budget (chunk :: rest)
    · split
      · exact List.nil_prefix
      · exact ⟨rest, rfl⟩

/-- Chunks of different frames are all included exactly when they are all
read. -/
theorem packContext_all {intro : String} {context : List RetrievedChunk} {budget : Nat}
    (hfull : ∀ chunk ∈ context, Blank chunk = false)
    (hids : (context.map RetrievedChunk.frameId).Nodup) :
    (∀ chunk ∈ context, chunk.frameId ∈ (packContext intro context budget).2) ↔
      chunksRead budget context = context := by
  have hfilter : context.filter (fun chunk => !Blank chunk) = context :=
    List.filter_eq_self.mpr fun chunk hchunk => by simp [hfull chunk hchunk]
  have hprefix := chunksRead_prefix budget context
  rw [hfilter] at hprefix
  simp only [packContext_mem]
  refine ⟨fun h => ?_, fun h chunk hchunk => ?_⟩
  · -- a prefix that misses nothing is everything
    refine hprefix.eq_of_length_le ?_
    have hlength : (context.map RetrievedChunk.frameId).length ≤
        ((chunksRead budget context).map RetrievedChunk.frameId).length := by
      refine (List.subperm_of_subset hids fun x hx => ?_).length_le
      obtain ⟨chunk, hchunk, rfl⟩ := List.mem_map.mp hx
      exact h chunk hchunk
    rwa [List.length_map, List.length_map] at hlength
  · rw [h]
    exact List.mem_map_of_mem hchunk

end ScreenSearch.Inference
