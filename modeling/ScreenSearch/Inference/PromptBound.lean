import ScreenSearch.Inference.Answer
import ScreenSearch.Lib.Ranking
import ScreenSearch.Traits.History

/-!
# The bound of a prompt

A prompt is packed by estimates, chunk by chunk. The framing of a chunk is six tokens, which is
twelve bytes; the frame id, its brackets and the odd byte that halving drops may need more.

Main results:

* `packContext_lines` — the user message holds one line for every chunk that is read;
* `packed_bytes` — how many bytes the lines have, beside what was kept back for them;
* `prompts_bounded` — when a prompt keeps to the window.
-/

namespace ScreenSearch.Inference

open Batch

def systemPrompt : String :=
  "You answer questions about the user's screen history. Use ONLY the provided context snippets, " ++
  "each tagged with its source frame id. Ground your answer in them and be concise. If the " ++
  "context does not contain the answer, say so plainly rather than guessing."

/-- The messages of a question and the frames it reads. -/
def buildMessages (query : String) (context : List RetrievedChunk) (ctxSize maxTokens : Nat) :
    List ChatMessage × List Int :=
  let budget := ctxSize - summaryReserve systemPrompt query maxTokens
  let (user, included) := packContext "Context snippets from my screen history:\n" context budget
  ([{ role := "system", content := systemPrompt },
    { role := "user", content := user ++ ("\nQuestion: " ++ query) }], included)

/-! ## The lines of a message -/

/-- A chunk that is read, with what is written of it. -/
abbrev Line := RetrievedChunk × String

def written : List Line → String
  | [] => ""
  | line :: lines => snippetLine line.1.frameId line.2 ++ written lines

def whole (chunk : RetrievedChunk) : Line := (chunk, Text.trim chunk.text)

/-- The chunks that fit, or the head of the very first. -/
def linesRead (budget : Nat) (context : List RetrievedChunk) : List Line :=
  match context.filter fun chunk => !Blank chunk with
  | [] => []
  | chunk :: rest =>
    if chunkCost chunk ≤ budget then (fitting chunkCost budget (chunk :: rest)).map whole
    else
      let head := truncateToTokens (Text.trim chunk.text) (budget - idFramingTokens)
      if head.isEmpty then [] else [(chunk, head)]

def lineIds (lines : List Line) : List Int := lines.map fun line => line.1.frameId

theorem packLoop_some {budget : Nat} {user : String} {included : List Int}
    {context : List RetrievedChunk} (hSome : included ≠ []) :
    let lines := (fitting chunkCost budget (context.filter fun chunk => !Blank chunk)).map whole
    packLoop budget user included context =
      (user ++ written lines, (lineIds lines).foldl pushNew included) := by
  induction context generalizing budget user included with
  | nil =>
    show (user, included) = (user ++ "", included)
    rw [String.append_empty]
  | cons chunk context ih =>
    rw [packLoop]
    by_cases hZero : budget = 0
    · have hNone : fitting chunkCost 0 ((chunk :: context).filter fun c => !Blank c) = [] := by
        cases (chunk :: context).filter fun c => !Blank c with
        | nil => rfl
        | cons c rest => rw [fitting, if_neg (Nat.not_le.mpr (chunkCost_pos c))]
      rw [if_pos hZero, hZero, hNone]
      show (user, included) = (user ++ "", included)
      rw [String.append_empty]
    · rw [if_neg hZero]
      dsimp only
      by_cases hBlank : (Text.trim chunk.text).isEmpty
      · rw [if_pos hBlank, List.filter_cons_of_neg (by simp [Blank, hBlank])]
        exact ih hSome
      · rw [if_neg hBlank, List.filter_cons_of_pos (by simp [Blank, hBlank]), fitting]
        split
        · have hStill : pushNew included chunk.frameId ≠ [] := by
            rw [pushNew]
            split
            · exact hSome
            · exact List.append_ne_nil_of_right_ne_nil _ (List.cons_ne_nil _ _)
          rw [ih hStill, String.append_assoc]
          rfl
        · have hFilled : ¬included.isEmpty = true := fun hNil => hSome (List.isEmpty_iff.mp hNil)
          rw [if_neg hFilled]
          show (user, included) = (user ++ "", included)
          rw [String.append_empty]

theorem linesRead_zero (context : List RetrievedChunk) : linesRead 0 context = [] := by
  rw [linesRead]
  cases context.filter fun chunk => !Blank chunk with
  | nil => rfl
  | cons chunk rest =>
    dsimp only
    rw [if_neg (Nat.not_le.mpr (chunkCost_pos chunk)), Nat.zero_sub,
      if_pos (truncateToTokens_zero _)]

theorem packLoop_lines (budget : Nat) (user : String) (context : List RetrievedChunk) :
    packLoop budget user [] context =
      (user ++ written (linesRead budget context),
        (lineIds (linesRead budget context)).foldl pushNew []) := by
  by_cases hZero : budget = 0
  · rw [hZero, packLoop_zero, linesRead_zero]
    show (user, []) = (user ++ "", [])
    rw [String.append_empty]
  · induction context with
    | nil =>
      show (user, []) = (user ++ "", [])
      rw [String.append_empty]
    | cons chunk context ih =>
      rw [packLoop, if_neg hZero, linesRead]
      dsimp only
      by_cases hBlank : (Text.trim chunk.text).isEmpty
      · rw [if_pos hBlank, List.filter_cons_of_neg (by simp [Blank, hBlank]), ih, linesRead]
      · rw [if_neg hBlank, List.filter_cons_of_pos (by simp [Blank, hBlank])]
        dsimp only
        split
        · next hFits =>
          rw [fitting, if_pos hFits]
          refine Eq.trans (packLoop_some (List.cons_ne_nil chunk.frameId [])) ?_
          rw [String.append_assoc]
          rfl
        · rw [if_pos List.isEmpty_nil]
          split
          · show (user, []) = (user ++ "", [])
            rw [String.append_empty]
          · rw [packLoop_zero]
            show _ = (user ++ (snippetLine _ _ ++ ""), _)
            rw [String.append_empty]
            rfl

theorem foldl_pushNew (ids : List Int) : ids.foldl pushNew [] = ids.eraseDups := by
  induction ids using List.reverseRecOn with
  | nil => rfl
  | append_singleton ids id ih =>
    rw [List.foldl_concat, ih, Ranking.eraseDups_concat, pushNew]
    simp only [List.mem_eraseDups]

def noneLine (lines : List Line) : String :=
  if lines.isEmpty then "(no relevant snippets found)\n" else ""

/-- **The lines.** -/
theorem packContext_lines (intro : String) (context : List RetrievedChunk) (budget : Nat) :
    let lines := linesRead budget context
    packContext intro context budget =
      (intro ++ (written lines ++ noneLine lines), (lineIds lines).eraseDups) := by
  dsimp only
  rw [packContext, packLoop_lines, foldl_pushNew]
  have hEmpty : (lineIds (linesRead budget context)).eraseDups.isEmpty =
      (linesRead budget context).isEmpty := by
    rcases linesRead budget context with _ | ⟨line, lines⟩
    · rfl
    · rw [lineIds, List.map_cons, List.eraseDups_cons]
      rfl
  dsimp only
  rw [hEmpty, noneLine]
  split
  · rw [String.append_assoc]
  · rw [String.append_empty]

/-! ## Bytes -/

def idWidth (frameId : Int) : Nat := (toString frameId).utf8ByteSize

theorem digit_utf8Size {c : Char} (h : c.isDigit = true) : c.utf8Size = 1 := by
  unfold Char.isDigit at h
  rw [Bool.and_eq_true, decide_eq_true_eq, decide_eq_true_eq] at h
  have hLe : c.val ≤ 0x7f := UInt32.le_trans h.2 (by decide)
  exact if_pos hLe

/-- An `i64` has twenty digits at most, with its sign. -/
theorem idWidth_le {frameId : Int} (hLow : -(i64Max : Int) - 1 ≤ frameId)
    (hHigh : frameId ≤ i64Max) : idWidth frameId ≤ 20 := by
  have hDigits : ∀ n : Nat, n < 10 ^ 19 → n.repr.utf8ByteSize ≤ 19 := by
    intro n hn
    have hOne : ∀ c ∈ Nat.toDigits 10 n, c.utf8Size = 1 := fun c hc =>
      digit_utf8Size (Nat.isDigit_of_mem_toDigits (by decide) (by decide) hc)
    rw [Nat.repr_eq_ofList_toDigits, Text.utf8ByteSize_eq_length hOne]
    exact (Nat.length_toDigits_le_iff (by decide) (by decide)).mpr hn
  unfold idWidth
  rw [i64Max] at hLow hHigh
  rw [Int.toString_eq_repr, Int.repr_eq_if]
  split
  · have := hDigits frameId.toNat (by omega)
    omega
  · have := hDigits (-frameId).toNat (by omega)
    rw [String.utf8ByteSize_append]
    show 1 + _ ≤ 20
    omega

theorem snippetLine_bytes (frameId : Int) (snippet : String) :
    (snippetLine frameId snippet).utf8ByteSize = 10 + idWidth frameId + snippet.utf8ByteSize := by
  unfold snippetLine
  rw [String.utf8ByteSize_append, String.utf8ByteSize_append, String.utf8ByteSize_append,
    String.utf8ByteSize_append, idWidth]
  show 7 + _ + 2 + _ + 1 = _
  omega

/-- What a chunk's line needs beyond its cost, when four bytes are granted. -/
def excess (chunk : RetrievedChunk) : Nat :=
  idWidth chunk.frameId + (Text.trim chunk.text).utf8ByteSize % 2

theorem whole_bytes (chunks : List RetrievedChunk) :
    (written (chunks.map whole)).utf8ByteSize + 4 * chunks.length =
      2 * total chunkCost chunks + total excess chunks := by
  induction chunks with
  | nil => rfl
  | cons chunk chunks ih =>
    rw [List.map_cons, written, String.utf8ByteSize_append, snippetLine_bytes, total_cons,
      total_cons, List.length_cons, chunkCost, excess, estimateTokens, bytesPerToken,
      idFramingTokens]
    dsimp only [whole]
    omega

theorem takeBytes_size (maxBytes : Nat) (chars : List Char) :
    ((takeBytes maxBytes chars).map Char.utf8Size).sum ≤ maxBytes := by
  induction chars generalizing maxBytes with
  | nil => exact Nat.zero_le _
  | cons c chars ih =>
    rw [takeBytes]
    split
    · have hRest := ih (maxBytes - c.utf8Size)
      rw [List.map_cons, List.sum_cons]
      omega
    · exact Nat.zero_le _

theorem truncateToTokens_bytes (text : String) (budgetTokens : Nat) :
    (truncateToTokens text budgetTokens).utf8ByteSize ≤ 2 * budgetTokens := by
  rw [truncateToTokens, Text.utf8ByteSize_ofList]
  refine Nat.le_trans (takeBytes_size _ _) (Nat.le_trans (Nat.min_le_left _ _) ?_)
  rw [bytesPerToken, Nat.mul_comm]

/-- The chunks that fit the budget, with text. -/
def chunksFit (budget : Nat) (context : List RetrievedChunk) : List RetrievedChunk :=
  fitting chunkCost budget (context.filter fun chunk => !Blank chunk)

/-- The ids of the chunks that fit are narrow enough for the budget with this slack. -/
def IdsFit (budget slack : Nat) (context : List RetrievedChunk) : Prop :=
  total excess (chunksFit budget context) ≤
    4 * (chunksFit budget context).length +
      2 * (budget - total chunkCost (chunksFit budget context)) + slack

instance (budget slack : Nat) (context : List RetrievedChunk) :
    Decidable (IdsFit budget slack context) :=
  inferInstanceAs (Decidable (_ ≤ _))

/-- **Bytes.** The lines keep to a budget and a slack, that is as much as the line that says there
are none, exactly when the ids do. -/
theorem packed_bytes {context : List RetrievedChunk} (hIds : ∀ chunk ∈ context,
      -(i64Max : Int) - 1 ≤ chunk.frameId ∧ chunk.frameId ≤ i64Max)
    (budget : Nat) {slack : Nat} (hSlack : 29 ≤ slack) :
    (written (linesRead budget context) ++ noneLine (linesRead budget context)).utf8ByteSize ≤
        2 * budget + slack ↔ IdsFit budget slack context := by
  have hNoneSize : (noneLine []).utf8ByteSize = 29 := rfl
  rw [String.utf8ByteSize_append, IdsFit, chunksFit, linesRead]
  have hMem : ∀ chunk ∈ context.filter fun chunk => !Blank chunk, chunk ∈ context :=
    fun chunk h => (List.mem_filter.mp h).1
  generalize (context.filter fun chunk => !Blank chunk) = full at hMem ⊢
  rcases full with _ | ⟨chunk, rest⟩
  · show 0 + 29 ≤ _ ↔ 0 ≤ _
    omega
  · dsimp only
    split
    · next hFits =>
      have hBytes := whole_bytes (fitting chunkCost budget (chunk :: rest))
      have hTotal := fitting_total chunkCost budget (chunk :: rest)
      have hSome : noneLine ((fitting chunkCost budget (chunk :: rest)).map whole) = "" := by
        rw [fitting, if_pos hFits]
        rfl
      rw [hSome, String.utf8ByteSize_empty]
      omega
    · next hOver =>
      -- a head is shorter than what is left, by more than the line's frame
      rw [fitting, if_neg hOver]
      split
      · show 0 + 29 ≤ _ ↔ 0 ≤ _
        omega
      · next hHead =>
        have hWidth := hIds chunk (hMem chunk List.mem_cons_self)
        have hWidth := idWidth_le hWidth.1 hWidth.2
        have hBytes := truncateToTokens_bytes (Text.trim chunk.text) (budget - idFramingTokens)
        have hRoom : idFramingTokens < budget := by
          by_contra hNone
          rw [Nat.sub_eq_zero_of_le (Nat.not_lt.mp hNone)] at hHead
          exact hHead (truncateToTokens_zero _)
        show (snippetLine chunk.frameId _ ++ "").utf8ByteSize + 0 ≤ _ ↔ 0 ≤ _
        rw [String.append_empty, snippetLine_bytes]
        dsimp only
        have hSix : idFramingTokens = 6 := rfl
        omega

/-! ## The messages -/

/-- The estimates of the messages and the reply keep to the window. -/
def WithinWindow (messages : List ChatMessage) (maxTokens ctxSize : Nat) : Prop :=
  (messages.map fun message => estimateTokens message.content).sum + maxTokens ≤ ctxSize

instance (messages : List ChatMessage) (maxTokens ctxSize : Nat) :
    Decidable (WithinWindow messages maxTokens ctxSize) :=
  inferInstanceAs (Decidable (_ ≤ _))

/-- The included ids are those of the chunks that are written to the message, in order: chunks from
the front, with their text, or a head of the very first. -/
def Includes (intro tail : String) (context : List RetrievedChunk) (user : String)
    (included : List Int) : Prop :=
  ∃ lines : List Line, lines.map Prod.fst <+: (context.filter fun chunk => !Blank chunk) ∧
    ((∀ line ∈ lines, line.2 = Text.trim line.1.text) ∨
      ∃ chunk head, lines = [(chunk, head)] ∧ head.isEmpty = false ∧
        head.toList <+: (Text.trim chunk.text).toList) ∧
    user = intro ++ (written lines ++ noneLine lines) ++ tail ∧
    included = (lineIds lines).eraseDups

theorem takeBytes_prefix (maxBytes : Nat) (chars : List Char) :
    takeBytes maxBytes chars <+: chars := by
  induction chars generalizing maxBytes with
  | nil => exact List.prefix_rfl
  | cons c chars ih =>
    rw [takeBytes]
    split
    · exact (List.prefix_cons_inj c).mpr (ih _)
    · exact List.nil_prefix

theorem linesRead_front (budget : Nat) (context : List RetrievedChunk) :
    (linesRead budget context).map Prod.fst <+: context.filter fun chunk => !Blank chunk := by
  rw [linesRead]
  rcases context.filter fun chunk => !Blank chunk with _ | ⟨chunk, rest⟩
  · exact List.nil_prefix
  · dsimp only
    split
    · rw [List.map_map]
      refine List.IsPrefix.trans ?_ (fitting_begins chunkCost budget (chunk :: rest))
      rw [show Prod.fst ∘ whole = id from rfl, List.map_id]
    · split
      · exact List.nil_prefix
      · exact ⟨rest, rfl⟩

theorem linesRead_text (budget : Nat) (context : List RetrievedChunk) :
    (∀ line ∈ linesRead budget context, line.2 = Text.trim line.1.text) ∨
      ∃ chunk head, linesRead budget context = [(chunk, head)] ∧ head.isEmpty = false ∧
        head.toList <+: (Text.trim chunk.text).toList := by
  rw [linesRead]
  rcases context.filter fun chunk => !Blank chunk with _ | ⟨chunk, rest⟩
  · exact .inl fun line h => absurd h List.not_mem_nil
  · dsimp only
    split
    · refine .inl fun line h => ?_
      obtain ⟨chunk, -, rfl⟩ := List.mem_map.mp h
      rfl
    · split
      · exact .inl fun line h => absurd h List.not_mem_nil
      · next hHead =>
        refine .inr ⟨chunk, _, rfl, Bool.eq_false_iff.mpr hHead, ?_⟩
        rw [truncateToTokens, String.toList_ofList]
        exact takeBytes_prefix _ _

theorem packContext_includes (intro tail : String) (context : List RetrievedChunk)
    (budget : Nat) :
    Includes intro tail context ((packContext intro context budget).1 ++ tail)
      (packContext intro context budget).2 := by
  have hLines := packContext_lines intro context budget
  refine ⟨_, linesRead_front budget context, linesRead_text budget context, ?_, ?_⟩
  · rw [hLines]
  · rw [hLines]

/-- What the estimates leave to the packed lines, in bytes. -/
theorem window_iff {system user intro packed tail text : String} {maxTokens ctxSize : Nat}
    (hReserve : summaryReserve system text maxTokens ≤ ctxSize)
    (hUser : user = intro ++ packed ++ tail) :
    WithinWindow [{ role := "system", content := system }, { role := "user", content := user }]
        maxTokens ctxSize ↔
      packed.utf8ByteSize + intro.utf8ByteSize + tail.utf8ByteSize ≤
        2 * (ctxSize - summaryReserve system text maxTokens) + 2 * (text.utf8ByteSize / 2) + 193 := by
  rw [summaryReserve, templateOverheadTokens] at *
  have hSum : WithinWindow
      [{ role := "system", content := system }, { role := "user", content := user }]
        maxTokens ctxSize ↔
      estimateTokens system + estimateTokens user + maxTokens ≤ ctxSize := Iff.rfl
  rw [hSum, hUser]
  have hText : estimateTokens text = text.utf8ByteSize / 2 + 1 := rfl
  have hMessage : estimateTokens (intro ++ packed ++ tail) =
      (intro.utf8ByteSize + packed.utf8ByteSize + tail.utf8ByteSize) / 2 + 1 := by
    rw [estimateTokens, String.utf8ByteSize_append, String.utf8ByteSize_append]
    rfl
  omega

/-- The slack of a question: what the template's reserve leaves when the intro, the caption of the
question and its odd byte are paid. -/
def askSlack (query : String) : Nat := 141 - query.utf8ByteSize % 2

/-- A blank instruction is not written, though it was reserved for. -/
def summarySlack (instruction : String) : Nat :=
  if (Text.trim instruction).isEmpty then 161 + 2 * (instruction.utf8ByteSize / 2)
  else 160 - instruction.utf8ByteSize % 2

theorem buildMessages_iff {query : String} {context : List RetrievedChunk} {ctxSize maxTokens : Nat}
    (hIds : ∀ chunk ∈ context,
      -(i64Max : Int) - 1 ≤ chunk.frameId ∧ chunk.frameId ≤ i64Max)
    (hReserve : summaryReserve systemPrompt query maxTokens ≤ ctxSize) :
    WithinWindow (buildMessages query context ctxSize maxTokens).1 maxTokens ctxSize ↔
      IdsFit (ctxSize - summaryReserve systemPrompt query maxTokens) (askSlack query) context := by
  rw [← packed_bytes hIds _ (show 29 ≤ askSlack query by rw [askSlack]; omega)]
  have hLines := packContext_lines "Context snippets from my screen history:\n" context
    (ctxSize - summaryReserve systemPrompt query maxTokens)
  dsimp only at hLines
  rw [buildMessages, hLines]
  dsimp only
  rw [window_iff hReserve rfl, String.utf8ByteSize_append (s := "\nQuestion: "), askSlack]
  have hIntro : "Context snippets from my screen history:\n".utf8ByteSize = 41 := rfl
  have hCaption : "\nQuestion: ".utf8ByteSize = 11 := rfl
  omega

/-- What comes after the lines of a summary's message. -/
def summaryTail (instruction : String) : String :=
  if (Text.trim instruction).isEmpty then "" else "\n" ++ instruction

theorem buildSummaryMessages_user (system instruction : String) (context : List RetrievedChunk)
    (ctxSize maxTokens : Nat) :
    let packed := packContext "Content from my screen history:\n" context
      (ctxSize - summaryReserve system instruction maxTokens)
    buildSummaryMessages system instruction context ctxSize maxTokens =
      ([{ role := "system", content := system },
        { role := "user", content := packed.1 ++ summaryTail instruction }], packed.2) := by
  dsimp only
  rw [buildSummaryMessages, summaryTail]
  dsimp only
  split
  · rw [String.append_empty]
  · rw [String.append_assoc]

theorem buildSummaryMessages_iff {system instruction : String} {context : List RetrievedChunk}
    {ctxSize maxTokens : Nat} (hIds : ∀ chunk ∈ context,
      -(i64Max : Int) - 1 ≤ chunk.frameId ∧ chunk.frameId ≤ i64Max)
    (hReserve : summaryReserve system instruction maxTokens ≤ ctxSize) :
    WithinWindow (buildSummaryMessages system instruction context ctxSize maxTokens).1 maxTokens
        ctxSize ↔
      IdsFit (ctxSize - summaryReserve system instruction maxTokens) (summarySlack instruction)
        context := by
  rw [← packed_bytes hIds _ (show 29 ≤ summarySlack instruction by
    rw [summarySlack]
    split <;> omega)]
  have hLines := packContext_lines "Content from my screen history:\n" context
    (ctxSize - summaryReserve system instruction maxTokens)
  dsimp only at hLines
  rw [buildSummaryMessages_user, hLines]
  dsimp only
  rw [window_iff hReserve rfl, summaryTail, summarySlack]
  have hIntro : "Content from my screen history:\n".utf8ByteSize = 32 := rfl
  split
  · have hTail : "".utf8ByteSize = 0 := rfl
    omega
  · rw [String.utf8ByteSize_append (s := "\n")]
    have hBreak : "\n".utf8ByteSize = 1 := rfl
    omega

/-- **The bound of a prompt.** Where the fixed reserve fits, a prompt keeps to the window exactly
when the ids of the chunks that fit are narrow enough for what is left; and the included ids are
those of the chunks that are written. -/
theorem prompts_bounded (context : List RetrievedChunk) (ctxSize maxTokens : Nat)
    (hIds : ∀ chunk ∈ context,
      -(i64Max : Int) - 1 ≤ chunk.frameId ∧ chunk.frameId ≤ i64Max) :
    (∀ query, summaryReserve systemPrompt query maxTokens ≤ ctxSize →
      let built := buildMessages query context ctxSize maxTokens
      let keeps := ∃ user, built.1 = [{ role := "system", content := systemPrompt },
          { role := "user", content := user }] ∧
        Includes "Context snippets from my screen history:\n" ("\nQuestion: " ++ query) context
          user built.2
      keeps ∧ (WithinWindow built.1 maxTokens ctxSize ∧ keeps ↔
        IdsFit (ctxSize - summaryReserve systemPrompt query maxTokens) (askSlack query)
          context)) ∧
    ∀ system instruction, summaryReserve system instruction maxTokens ≤ ctxSize →
      let built := buildSummaryMessages system instruction context ctxSize maxTokens
      let keeps := ∃ user, built.1 = [{ role := "system", content := system },
          { role := "user", content := user }] ∧
        Includes "Content from my screen history:\n" (summaryTail instruction) context user
          built.2
      keeps ∧ (WithinWindow built.1 maxTokens ctxSize ∧ keeps ↔
        IdsFit (ctxSize - summaryReserve system instruction maxTokens)
          (summarySlack instruction) context) := by
  refine ⟨fun query hReserve => ?_, fun system instruction hReserve => ?_⟩
  · intro built keeps
    have hKeeps : keeps := ⟨_, rfl, packContext_includes _ _ context _⟩
    exact ⟨hKeeps, (and_iff_left hKeeps).trans (buildMessages_iff hIds hReserve)⟩
  · intro built keeps
    have hKeeps : keeps := by
      refine ⟨_, congrArg Prod.fst (buildSummaryMessages_user ..), ?_⟩
      rw [show built.2 = _ from congrArg Prod.snd (buildSummaryMessages_user ..)]
      exact packContext_includes _ _ context _
    exact ⟨hKeeps, (and_iff_left hKeeps).trans (buildSummaryMessages_iff hIds hReserve)⟩

/-- So many short snippets of frames with seven-digit ids. -/
def shortSnippets (n : Nat) : List RetrievedChunk :=
  (List.range n).map fun (i : Nat) =>
    { frameId := 1000000 + i, text := "a", capturedAt := 0 }

theorem prompts_bounded_one :
    WithinWindow (buildMessages "Where?" (shortSnippets 1) 1024 512).1 512 1024 :=
  (((prompts_bounded (shortSnippets 1) 1024 512 (by decide +kernel)).1 "Where?"
    (by decide +kernel)).2.mpr (by decide +kernel)).1

/-- With forty of them the window is passed, by the estimates themselves. -/
theorem window_passed :
    summaryReserve systemPrompt "Where?" 512 ≤ 1024 ∧
      ¬WithinWindow (buildMessages "Where?" (shortSnippets 40) 1024 512).1 512 1024 := by
  decide +kernel

end ScreenSearch.Inference
