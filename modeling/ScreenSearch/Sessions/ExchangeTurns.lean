import ScreenSearch.Lib.Thinning
import ScreenSearch.Sessions.Exchange

/-!
# Extracted turns

Where the extracted exchanges come from, and which blocks they stand for. A block
that is contained in a kept one of its role, or contains one, is left out, whichever
of the two came first.

Main results:

* `blocks_marked`, `codexDesktopBlocks_bounded` — a block stands behind a marker of its
  role and reaches to a boundary;
* `extractExchanges_eq` — the loop thins the blocks of the ordered frames out;
* `extractExchanges_turns` — order, origin, no duplicates, nothing unrelated dropped.
-/

namespace ScreenSearch.Sessions

open Sorting Text Thinning

/-! ## Blocks behind markers -/

/-- The lines end in a block of the role: a marker, and lines that are none. -/
def EndsInBlock (toolId : String) (read : List String) (role : SessionArtifactRole)
    (body : List String) : Prop :=
  ∃ before marked inline rest, read = before ++ marked :: rest ∧
    marker toolId (trim marked) = some (role, inline) ∧
    (∀ line ∈ rest, marker toolId (trim line) = none) ∧
    body = inline.toList ++ rest.map trim

/-- A block reaches from a marker of its role to the next marker. -/
def MarkedBlock (toolId : String) (read : List String) (role : SessionArtifactRole)
    (content : String) : Prop :=
  ∃ block after body, read = block ++ after ∧ EndsInBlock toolId block role body ∧
    (∀ next, after.head? = some next → (marker toolId (trim next)).isSome) ∧
    content = trim ("\n".intercalate body)

theorem marker_empty (toolId : String) : marker toolId "" = none := by
  unfold marker
  split
  · rfl
  · rfl

variable {toolId : String} {read : List String} {reading : Reading}

/-- The finished blocks are closed by a marker; the last block is still open. -/
structure ReadSoFar (toolId : String) (read : List String) (reading : Reading) : Prop where
  finished : ∀ block ∈ reading.1, ∃ done next after body, read = done ++ next :: after ∧
    EndsInBlock toolId done block.1 body ∧ (marker toolId (trim next)).isSome ∧
    block.2 = trim ("\n".intercalate body) ∧ block.2.isEmpty = false
  current : ∀ role body, reading.2 = some (role, body) → EndsInBlock toolId read role body

theorem ReadSoFar.longer (h : ReadSoFar toolId read reading) (line : String) :
    ∀ block ∈ reading.1, ∃ done next after body, read ++ [line] = done ++ next :: after ∧
      EndsInBlock toolId done block.1 body ∧ (marker toolId (trim next)).isSome ∧
      block.2 = trim ("\n".intercalate body) ∧ block.2.isEmpty = false := by
  intro block hBlock
  obtain ⟨done, next, after, body, hRead, hEnds⟩ := h.finished block hBlock
  exact ⟨done, next, after ++ [line], body, by rw [hRead]; simp, hEnds⟩

theorem ReadSoFar.continued (h : ReadSoFar toolId read reading) {line : String}
    (hPlain : marker toolId (trim line) = none) :
    ReadSoFar toolId (read ++ [line]) (continued reading (trim line)) := by
  refine ⟨h.longer line, ?_⟩
  intro role body hCurrent
  obtain ⟨⟨role', body'⟩, hOpen, hSame⟩ := Option.map_eq_some_iff.mp hCurrent
  obtain ⟨rfl, rfl⟩ := Prod.mk.inj hSame
  obtain ⟨before, marked, inline, rest, hRead, hMarker, hRest, hBody⟩ := h.current _ _ hOpen
  refine ⟨before, marked, inline, rest ++ [line], by rw [hRead]; simp, hMarker, ?_, ?_⟩
  · intro other hOther
    rcases List.mem_append.mp hOther with hIn | hIn
    · exact hRest other hIn
    · rw [List.mem_singleton.mp hIn]
      exact hPlain
  · rw [hBody, List.map_append, List.map_singleton, List.append_assoc]

/-- A block that is flushed is finished, or it was the open one. -/
theorem mem_flush {block : Block} (h : block ∈ flush reading) :
    block ∈ reading.1 ∨ ∃ body, reading.2 = some (block.1, body) ∧
      block.2 = trim ("\n".intercalate body) ∧ block.2.isEmpty = false := by
  obtain ⟨out, _ | ⟨role, body⟩⟩ := reading
  · exact Or.inl h
  · unfold flush at h
    dsimp only at h
    split at h
    · exact Or.inl h
    · rename_i hContent
      rcases List.mem_append.mp h with hIn | hIn
      · exact Or.inl hIn
      · rw [List.mem_singleton.mp hIn]
        exact Or.inr ⟨body, rfl, rfl, Bool.eq_false_iff.mpr hContent⟩

theorem ReadSoFar.readLine (h : ReadSoFar toolId read reading) (line : String) :
    ReadSoFar toolId (read ++ [line]) (readLine toolId reading line) := by
  unfold Sessions.readLine
  dsimp only
  split
  · rename_i hBlank
    have hEmpty : trim line = "" := String.isEmpty_iff.mp hBlank
    have hPlain : marker toolId (trim line) = none := by rw [hEmpty, marker_empty]
    have hContinued := h.continued hPlain
    rwa [hEmpty] at hContinued
  · split
    · rename_i role inline hMarker
      refine ⟨?_, ?_⟩
      · intro block hBlock
        rcases mem_flush hBlock with hIn | ⟨body, hOpen, hFilled⟩
        · exact h.longer line block hIn
        · exact ⟨read, line, [], body, rfl, h.current _ _ hOpen, by rw [hMarker]; rfl, hFilled⟩
      · intro role' body hCurrent
        cases hCurrent
        exact ⟨read, line, inline, [], rfl, hMarker, by simp, by simp⟩
    · rename_i hPlain
      exact h.continued hPlain

theorem foldl_readSoFar (unread : List String) (h : ReadSoFar toolId read reading) :
    ReadSoFar toolId (read ++ unread) (unread.foldl (readLine toolId) reading) := by
  induction unread generalizing read reading with
  | nil =>
    rw [List.append_nil]
    exact h
  | cons line unread ih =>
    rw [List.append_cons]
    exact ih (h.readLine line)

theorem blocks_readSoFar (toolId text : String) :
    ReadSoFar toolId (lines text) ((lines text).foldl (readLine toolId) ([], none)) := by
  have hNone : ReadSoFar toolId [] ([], none) := ⟨by simp, by simp⟩
  have h := foldl_readSoFar (lines text) hNone
  rwa [List.nil_append] at h

/-- A block stands behind a marker of its role. -/
theorem blocks_marked {text : String} {block : Block} (h : block ∈ blocks toolId text) :
    MarkedBlock toolId (lines text) block.1 block.2 := by
  have hRead := blocks_readSoFar toolId text
  rcases mem_flush h with hIn | ⟨body, hOpen, hContent, -⟩
  · obtain ⟨done, next, after, body, hLines, hEnds, hNext, hContent, -⟩ := hRead.finished block hIn
    refine ⟨done, next :: after, body, hLines, hEnds, ?_, hContent⟩
    rintro _ ⟨rfl⟩
    exact hNext
  · exact ⟨lines text, [], body, (List.append_nil _).symm, hRead.current _ _ hOpen, by simp,
      hContent⟩

theorem blocks_worded {text : String} {block : Block} (h : block ∈ blocks toolId text) :
    splitWhitespace block.2 ≠ [] := by
  have hTrimmed : ∃ content, block.2 = trim content ∧ block.2.isEmpty = false := by
    rcases mem_flush h with hIn | ⟨body, -, hContent, hFilled⟩
    · obtain ⟨-, -, -, body, -, -, -, hContent, hFilled⟩ :=
        (blocks_readSoFar toolId text).finished block hIn
      exact ⟨_, hContent, hFilled⟩
    · exact ⟨_, hContent, hFilled⟩
  obtain ⟨content, hContent, hFilled⟩ := hTrimmed
  rw [hContent] at hFilled ⊢
  exact splitWhitespace_trim hFilled

/-! ## Codex desktop -/

/-- Between the prompt icon and the next menu label. -/
def PromptedBlock (shown : List String) (content : String) : Prop :=
  ∃ before body after, shown = before ++ "Q" :: (body ++ "File" :: after) ∧ "File" ∉ body ∧
    body.length < 8 ∧ content = "\n".intercalate body

/-- At most four lines behind a work status, none of them a known control. -/
def ReportedBlock (shown : List String) (content : String) : Prop :=
  ∃ before status body after, shown = before ++ status :: (body ++ after) ∧
    isCodexWorkStatus status = true ∧ (∀ line ∈ body, isCodexResponseStop line = false) ∧
    body.length ≤ 4 ∧ content = "\n".intercalate body

def CodexBlock (shown : List String) (role : SessionArtifactRole) (content : String) : Prop :=
  hasNavSignature shown ∧
    match role with
    | .user => PromptedBlock shown content
    | .agent => ReportedBlock shown content

theorem mem_joinedBlock {role : SessionArtifactRole} {body : List String} {block : Block}
    (h : block ∈ joinedBlock role body) : block = (role, "\n".intercalate body) ∧ body ≠ [] := by
  unfold joinedBlock at h
  dsimp only at h
  split at h
  · cases h
  · rename_i hContent
    refine ⟨List.mem_singleton.mp h, ?_⟩
    rintro rfl
    exact hContent rfl

/-- The block before the first menu label of the next eight lines. -/
theorem findIdx?_file {tail : List String} {fileIndex : Nat}
    (h : (tail.take 8).findIdx? (fun candidate => candidate = "File") = some fileIndex) :
    ∃ after, tail = (tail.take 8).take fileIndex ++ "File" :: after ∧
      "File" ∉ (tail.take 8).take fileIndex ∧ ((tail.take 8).take fileIndex).length < 8 := by
  obtain ⟨hLength, hFile, hBefore⟩ := List.findIdx?_eq_some_iff_getElem.mp h
  have hTake : fileIndex < 8 ∧ fileIndex < tail.length := by
    rw [List.length_take] at hLength
    omega
  rw [List.take_take, min_eq_left hTake.1.le]
  refine ⟨tail.drop (fileIndex + 1), ?_, ?_, ?_⟩
  · have hIndex : fileIndex < tail.length := hTake.2
    have hAt : tail[fileIndex] = "File" := by
      rw [List.getElem_take] at hFile
      exact of_decide_eq_true hFile
    rw [← hAt, ← List.drop_eq_getElem_cons hIndex, List.take_append_drop]
  · intro hIn
    obtain ⟨index, hIndex, hSame⟩ := List.mem_iff_getElem.mp hIn
    rw [List.length_take] at hIndex
    have hNot := hBefore index (by omega)
    rw [List.getElem_take] at hSame hNot
    exact hNot (decide_eq_true hSame)
  · rw [List.length_take]
    omega

theorem mem_codexBlockAt {before shown rest : List String} {line : String} {block : Block}
    (hShown : shown = before ++ line :: rest) (h : block ∈ codexBlockAt (line :: rest)) :
    ∃ body ⊆ rest, body ≠ [] ∧ block.2 = "\n".intercalate body ∧
      match block.1 with
      | .user => PromptedBlock shown block.2
      | .agent => ReportedBlock shown block.2 := by
  rw [codexBlockAt] at h
  split at h
  · rename_i hPrompt
    split at h
    · rename_i fileIndex hFile
      obtain ⟨after, hRest, hNone, hLength⟩ := findIdx?_file hFile
      obtain ⟨rfl, hBody⟩ := mem_joinedBlock h
      refine ⟨(rest.take 8).take fileIndex, ?_, hBody, rfl, before, _, after, ?_, hNone, hLength, rfl⟩
      · exact List.Subset.trans (List.take_subset _ _) (List.take_subset _ _)
      · rw [← hRest, hShown, hPrompt]
    · cases h
  · split at h
    · rename_i hStatus
      obtain ⟨rfl, hBody⟩ := mem_joinedBlock h
      set stopped := rest.takeWhile fun candidate => !isCodexResponseStop candidate with hStopped
      refine ⟨stopped.take 4, ?_, hBody, rfl, before, line, stopped.take 4,
        stopped.drop 4 ++ rest.dropWhile (fun candidate => !isCodexResponseStop candidate),
        ?_, hStatus, ?_, List.length_take_le _ _, rfl⟩
      · exact List.Subset.trans (List.take_subset _ _) (List.takeWhile_subset _)
      · rw [← List.append_assoc, List.take_append_drop, List.takeWhile_append_dropWhile, hShown]
      · intro other hOther
        have hGoesOn := List.mem_takeWhile_imp (List.mem_of_mem_take hOther)
        rwa [Bool.not_eq_true'] at hGoesOn
    · cases h

/-- A block stands between the boundaries of its role. -/
theorem codexDesktopBlocks_bounded {text : String} {block : Block}
    (h : block ∈ codexDesktopBlocks text) :
    CodexBlock (codexLines text) block.1 block.2 ∧ splitWhitespace block.2 ≠ [] := by
  unfold codexDesktopBlocks at h
  split at h
  · rename_i hNav
    obtain ⟨tail, hTail, hBlock⟩ := List.mem_flatMap.mp h
    obtain ⟨before, hShown⟩ := (List.mem_tails _ _).mp hTail
    rcases tail with _ | ⟨line, rest⟩
    · cases hBlock
    · obtain ⟨body, hBody, hSome, hContent, hRole⟩ := mem_codexBlockAt hShown.symm hBlock
      refine ⟨⟨hNav, hRole⟩, ?_⟩
      -- the first line of the body is a trimmed line with something on it
      rcases body with _ | ⟨first, others⟩
      · exact absurd rfl hSome
      have hFirst : first ∈ codexLines text := by
        rw [← hShown]
        exact List.mem_append_right _ (List.mem_cons_of_mem _ (hBody (List.mem_cons_self ..)))
      obtain ⟨hMapped, hFilled⟩ := List.mem_filter.mp hFirst
      obtain ⟨raw, -, hTrim⟩ := List.mem_map.mp hMapped
      have hWords : splitWhitespace first ≠ [] := by
        rw [Bool.not_eq_true'] at hFilled
        rw [← hTrim] at hFilled ⊢
        exact splitWhitespace_trim hFilled
      rw [hContent]
      rcases others with _ | ⟨second, others⟩
      · rwa [String.intercalate_singleton]
      · rw [String.intercalate_cons_cons, String.append_assoc]
        intro hNone
        have hSplit := splitWhitespace_append_cons (c := '\n') (by decide) first.toList
          ("\n".intercalate (second :: others)).toList
        rw [String.ofList_toList, String.ofList_toList] at hSplit
        have hText : first ++ ("\n" ++ "\n".intercalate (second :: others)) =
            String.ofList (first.toList ++ '\n' :: ("\n".intercalate (second :: others)).toList) := by
          rw [← String.toList_inj, String.toList_ofList]
          simp
        rw [hText, hSplit, List.append_eq_nil_iff] at hNone
        exact hWords hNone.1
  · cases h

/-! ## Exchanges -/

/-- A block of the text, introduced by a marker of its role. -/
def Introduced (toolId text : String) (role : SessionArtifactRole) (content : String) : Prop :=
  if toolId = "codex" then CodexBlock (codexLines text) role content
  else MarkedBlock toolId (lines text) role content

theorem candidates_introduced {text : String} {block : Block} (h : block ∈ candidates toolId text) :
    Introduced toolId text block.1 block.2 ∧ splitWhitespace block.2 ≠ [] := by
  unfold candidates at h
  unfold Introduced
  split at h
  · rename_i hCodex
    rw [if_pos hCodex]
    exact codexDesktopBlocks_bounded h
  · rename_i hOther
    rw [if_neg hOther]
    exact ⟨blocks_marked h, blocks_worded h⟩

/-- Every block of every frame, the frames in order. -/
def found (toolId : String) (contents : List SessionContent) : List (SessionContent × Block) :=
  (sortByKey contentKey contents).flatMap fun frame =>
    (candidates toolId frame.contentText).map fun block => (frame, block)

theorem mem_found {toolId : String} {contents : List SessionContent}
    {entry : SessionContent × Block} : entry ∈ found toolId contents ↔
      entry.1 ∈ contents ∧ entry.2 ∈ candidates toolId entry.1.contentText := by
  unfold found
  rw [List.mem_flatMap]
  constructor
  · rintro ⟨frame, hFrame, hEntry⟩
    obtain ⟨block, hBlock, rfl⟩ := List.mem_map.mp hEntry
    exact ⟨(sortByKey_perm contentKey contents).subset hFrame, hBlock⟩
  · rintro ⟨hFrame, hBlock⟩
    exact ⟨entry.1, (sortByKey_perm contentKey contents).symm.subset hFrame,
      List.mem_map_of_mem hBlock⟩

/-- The frames of the blocks are in order. -/
theorem found_ordered (toolId : String) (contents : List SessionContent) :
    (found toolId contents).Pairwise fun a b => contentKey a.1 ≤ contentKey b.1 := by
  unfold found
  rw [List.pairwise_flatMap]
  refine ⟨?_, (sortByKey_pairwise contentKey contents).imp ?_⟩
  · intro frame _
    rw [List.pairwise_map]
    exact List.pairwise_of_forall fun _ _ => le_rfl
  · intro a b hLe x hx y hy
    obtain ⟨-, -, rfl⟩ := List.mem_map.mp hx
    obtain ⟨-, -, rfl⟩ := List.mem_map.mp hy
    exact hLe

/-- One block says what the other says, or part of it. -/
def repeated (a b : SessionContent × Block) : Bool :=
  a.2.1 = b.2.1 && overlapping (normalized a.2.2) (normalized b.2.2)

def asExchange (block : SessionContent × Block) : ExtractedExchange where
  role := block.2.1
  content := block.2.2
  frameId := block.1.frameId

theorem normalized_isEmpty {content : String} (h : splitWhitespace content ≠ []) :
    (normalized content).isEmpty = false := by
  obtain ⟨word, words, hWords⟩ := List.exists_cons_of_ne_nil h
  have hWord : word ≠ "" := by
    have hIn : word ∈ splitWhitespace content := by
      rw [hWords]
      exact List.mem_cons_self ..
    obtain ⟨chars, hChars, rfl⟩ := List.mem_map.mp hIn
    have hFilled := (List.mem_filter.mp hChars).2
    rintro hEmpty
    rw [← String.toList_inj, String.toList_ofList, String.toList_empty] at hEmpty
    rw [hEmpty] at hFilled
    exact absurd hFilled (by decide)
  rw [Bool.eq_false_iff, Ne, String.isEmpty_iff, normalized, hWords]
  rcases words with _ | ⟨second, words⟩
  · rwa [String.intercalate_singleton]
  · rw [String.intercalate_cons_cons, String.append_assoc]
    intro hEmpty
    exact hWord (String.append_eq_empty_iff.mp hEmpty).1

/-- What the loop holds when these blocks are kept. -/
def extractionOf (kept : List (SessionContent × Block)) : Extraction :=
  (kept.map fun block => (block.2.1, normalized block.2.2), kept.map asExchange)

theorem extractBlock_eq (kept : List (SessionContent × Block)) (frame : SessionContent)
    {block : Block} (hWords : splitWhitespace block.2 ≠ []) :
    extractBlock frame (extractionOf kept) block =
      extractionOf (keepUnrelated repeated kept (frame, block)) := by
  have hSeen : ((extractionOf kept).1.any fun seen =>
      decide (seen.1 = block.1) && overlapping seen.2 (normalized block.2)) =
      kept.any fun k => repeated k (frame, block) := by
    unfold extractionOf
    rw [List.any_map]
    rfl
  unfold extractBlock keepUnrelated
  dsimp only
  rw [hSeen, normalized_isEmpty hWords, Bool.false_or]
  split
  · rfl
  · unfold extractionOf
    rw [List.map_append, List.map_append]
    rfl

/-- The loop keeps the blocks that repeat none kept before. -/
theorem extractExchanges_eq (toolId : String) (contents : List SessionContent) :
    extractExchanges toolId contents =
      (thin repeated (found toolId contents)).map asExchange := by
  have hFrame : ∀ (frame : SessionContent) (blocks : List Block) (kept : List _),
      (∀ block ∈ blocks, splitWhitespace block.2 ≠ []) →
        blocks.foldl (extractBlock frame) (extractionOf kept) =
          extractionOf ((blocks.map fun block => (frame, block)).foldl
            (keepUnrelated repeated) kept) := by
    intro frame blocks
    induction blocks with
    | nil => exact fun kept _ => rfl
    | cons block blocks ih =>
      intro kept hWords
      rw [List.foldl_cons, extractBlock_eq kept frame (hWords block (List.mem_cons_self ..)),
        ih _ fun b hb => hWords b (List.mem_cons_of_mem _ hb)]
      rfl
  have hFrames : ∀ (frames : List SessionContent) (kept : List _),
      frames.foldl (fun extraction frame =>
          (candidates toolId frame.contentText).foldl (extractBlock frame) extraction)
          (extractionOf kept) =
        extractionOf ((frames.flatMap fun frame =>
          (candidates toolId frame.contentText).map fun block => (frame, block)).foldl
            (keepUnrelated repeated) kept) := by
    intro frames
    induction frames with
    | nil => exact fun kept => rfl
    | cons frame frames ih =>
      intro kept
      rw [List.foldl_cons, hFrame frame _ kept fun _ hBlock => (candidates_introduced hBlock).2,
        ih, List.flatMap_cons, List.foldl_append]
  exact congrArg Prod.snd (hFrames (sortByKey contentKey contents) [])

/-- The exchanges stand in the order of the frames they come from; no two of one role repeat
each other, and every block found repeats an exchange of its role. -/
theorem extractExchanges_turns (toolId : String) (contents : List SessionContent) :
    (∃ frames : List SessionContent, (∀ frame ∈ frames, frame ∈ contents) ∧
      frames.Pairwise (fun a b => contentKey a ≤ contentKey b) ∧
      List.Forall₂ (fun (exchange : ExtractedExchange) frame =>
        exchange.frameId = frame.frameId ∧
          Introduced toolId frame.contentText exchange.role exchange.content)
        (extractExchanges toolId contents) frames) ∧
    (extractExchanges toolId contents).Pairwise (fun a b => a.role = b.role →
      contains (normalized a.content) (normalized b.content) = false ∧
        contains (normalized b.content) (normalized a.content) = false) ∧
    ∀ frame ∈ contents, ∀ block ∈ candidates toolId frame.contentText,
      ∃ exchange ∈ extractExchanges toolId contents, exchange.role = block.1 ∧
        (contains (normalized exchange.content) (normalized block.2) = true ∨
          contains (normalized block.2) (normalized exchange.content) = true) := by
  rw [extractExchanges_eq]
  have hSub : (thin repeated (found toolId contents)).Sublist (found toolId contents) :=
    thin_sublist _
  refine ⟨⟨(thin repeated (found toolId contents)).map Prod.fst, ?_, ?_, ?_⟩, ?_, ?_⟩
  · intro frame hFrame
    obtain ⟨block, hBlock, rfl⟩ := List.mem_map.mp hFrame
    exact (mem_found.mp (hSub.subset hBlock)).1
  · rw [List.pairwise_map]
    exact (found_ordered toolId contents).sublist hSub
  · rw [List.forall₂_map_left_iff, List.forall₂_map_right_iff, List.forall₂_same]
    intro block hBlock
    have hCandidate := (mem_found.mp (hSub.subset hBlock)).2
    exact ⟨rfl, (candidates_introduced hCandidate).1⟩
  · rw [List.pairwise_map]
    refine (thin_pairwise (found toolId contents)).imp ?_
    intro a b hApart hRole
    unfold repeated overlapping at hApart
    rw [Bool.and_eq_false_iff, Bool.or_eq_false_iff] at hApart
    rcases hApart with hRoles | hWords
    · exact absurd hRole (of_decide_eq_false hRoles)
    · exact hWords
  · intro frame hFrame block hBlock
    have hFound : (frame, block) ∈ found toolId contents := mem_found.mpr ⟨hFrame, hBlock⟩
    obtain ⟨kept, hKept, hCovers⟩ : ∃ kept ∈ thin repeated (found toolId contents),
        kept = (frame, block) ∨ repeated kept (frame, block) = true := thin_covers hFound
    refine ⟨asExchange kept, List.mem_map_of_mem hKept, ?_⟩
    rcases hCovers with rfl | hRepeated
    · refine ⟨rfl, Or.inl ?_⟩
      exact decide_eq_true (List.infix_refl _)
    · unfold repeated overlapping at hRepeated
      rw [Bool.and_eq_true, decide_eq_true_eq, Bool.or_eq_true] at hRepeated
      exact hRepeated

/-- A prompt captured while it was typed: only its beginning is extracted. -/
theorem extractExchanges_beginning :
    ¬∀ (toolId : String) (contents : List SessionContent), ∀ frame ∈ contents,
      ∀ block ∈ candidates toolId frame.contentText,
        ∃ exchange ∈ extractExchanges toolId contents, exchange.role = block.1 ∧
          contains (normalized exchange.content) (normalized block.2) = true := by
  intro h
  have hTyped := h "browser-ai" [⟨1, 10, "User: fix"⟩, ⟨2, 20, "User: fix login"⟩]
    ⟨2, 20, "User: fix login"⟩ (by decide) (.user, "fix login") (by decide +kernel)
  revert hTyped
  decide +kernel

end ScreenSearch.Sessions
