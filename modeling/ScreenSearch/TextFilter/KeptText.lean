import ScreenSearch.Store.SearchTables
import ScreenSearch.TextFilter.Classify

/-!
# The text that spans keep

The content text of a frame is a function of its spans: the texts of the kept lines, in
reading order. What the filter and the merging of lines do to spans is read off here line by
line.

Main results:

* `classify_keptText`, `reconcile_keptText` — the content text of an output is the text that
  its spans keep;
* `mergeSpansToLines_keptText` — merging lines does not change what they keep;
* `reconcile_contentText` — reconciling takes out the lines it demotes.
-/

namespace ScreenSearch.Attention

open Sorting Store.SearchTables

/-! ## Lists -/

/-- An element is found by its key when keys differ. -/
theorem find?_key {α β : Type} [BEq β] [LawfulBEq β] (key : α → β) {l : List α} {a : α}
    (h : (l.map key).Nodup) (ha : a ∈ l) : l.find? (fun b => key b == key a) = some a := by
  have hSome : (l.find? fun b => key b == key a).isSome = true :=
    List.find?_isSome.mpr ⟨a, ha, beq_self_eq_true (key a)⟩
  obtain ⟨b, hb⟩ := Option.isSome_iff_exists.mp hSome
  rw [hb, List.inj_on_of_nodup_map h (List.mem_of_find?_eq_some hb) ha
    (beq_iff_eq.mp (List.find?_some hb :))]

/-! ## Lines of spans -/

/-- The words of a line. -/
def lineSpans (spans : List TextSpan) (index : Nat) : List TextSpan :=
  spans.filter fun s => s.lineIndex == index

/-- In reading order. -/
def lineIndices (spans : List TextSpan) : List Nat :=
  sortByKey id (spans.map TextSpan.lineIndex).eraseDups

def lineText (spans : List TextSpan) (index : Nat) : String :=
  " ".intercalate ((lineSpans spans index).map TextSpan.text)

/-- By the role of the line's first word. -/
def lineKept (spans : List TextSpan) (index : Nat) : Bool :=
  (lineSpans spans index).head?.any fun first => keptRole first.role

def keptText (spans : List TextSpan) : String :=
  "\n".intercalate (((lineIndices spans).filter (lineKept spans)).map (lineText spans))

/-- A line that would be kept once its words are merged is kept as it is, and a word that is
kept can be searched. -/
structure Marked (spans : List TextSpan) : Prop where
  searchable : ∀ span ∈ spans, keptRole span.role = true → span.isSearchable = true
  content : ∀ span ∈ spans, span.role = .content → lineKept spans span.lineIndex = true

instance (spans : List TextSpan) : Decidable (Marked spans) :=
  decidable_of_iff
    ((∀ span ∈ spans, keptRole span.role = true → span.isSearchable = true) ∧
      ∀ span ∈ spans, span.role = .content → lineKept spans span.lineIndex = true)
    ⟨fun h => ⟨h.1, h.2⟩, fun h => ⟨h.searchable, h.content⟩⟩

variable {toLowercase : String → String} {spans : List TextSpan}

theorem nodup_lineIndices (spans : List TextSpan) : (lineIndices spans).Nodup :=
  (sortByKey_perm id _).nodup_iff.mpr (nodup_eraseDups _)

theorem mem_lineIndices {index : Nat} :
    index ∈ lineIndices spans ↔ ∃ span ∈ spans, span.lineIndex = index := by
  unfold lineIndices
  rw [mem_sortByKey, List.mem_eraseDups, List.mem_map]

theorem lineSpans_cons_of_mem {index : Nat} (h : index ∈ lineIndices spans) :
    ∃ first rest, lineSpans spans index = first :: rest := by
  obtain ⟨span, hSpan, hIndex⟩ := mem_lineIndices.mp h
  have hMem : span ∈ lineSpans spans index := List.mem_filter.mpr ⟨hSpan, by simp [hIndex]⟩
  exact List.exists_cons_of_ne_nil (List.ne_nil_of_mem hMem)

theorem lineIndex_of_lineSpans {index : Nat} {first : TextSpan} {rest : List TextSpan}
    (h : lineSpans spans index = first :: rest) : first ∈ spans ∧ first.lineIndex = index := by
  have hMem : first ∈ lineSpans spans index := h ▸ List.mem_cons_self
  obtain ⟨hIn, hIndex⟩ := List.mem_filter.mp hMem
  exact ⟨hIn, beq_iff_eq.mp hIndex⟩

/-- The line that has this index. -/
def lineAt (toLowercase : String → String) (spans : List TextSpan) (index : Nat) : LineAcc :=
  ((lineSpans spans index).head?.map fun first =>
    lineOf toLowercase first (lineSpans spans index)).getD ⟨index, [], "", .unknown, 0, 0, 0, 0⟩

theorem lineAt_of_lineSpans (toLowercase : String → String) {index : Nat} {first : TextSpan}
    {rest : List TextSpan} (h : lineSpans spans index = first :: rest) :
    lineAt toLowercase spans index = lineOf toLowercase first (first :: rest) := by
  unfold lineAt
  rw [h]
  rfl

theorem groupLines_eq (toLowercase : String → String) (spans : List TextSpan) :
    groupLines toLowercase spans = (lineIndices spans).map (lineAt toLowercase spans) := by
  show List.filterMap _ (lineIndices spans) = _
  conv_rhs => rw [← List.filterMap_eq_map]
  refine List.filterMap_congr fun index hIndex => ?_
  obtain ⟨first, rest, hLine⟩ := lineSpans_cons_of_mem hIndex
  show (lineSpans spans index).head?.map (fun first =>
    lineOf toLowercase first (lineSpans spans index)) = some (lineAt toLowercase spans index)
  rw [lineAt_of_lineSpans toLowercase hLine, hLine]
  rfl

/-- A line has the index it is grouped by. -/
theorem lineAt_index (toLowercase : String → String) {index : Nat} (h : index ∈ lineIndices spans) :
    (lineAt toLowercase spans index).index = index := by
  obtain ⟨first, rest, hLine⟩ := lineSpans_cons_of_mem h
  rw [lineAt_of_lineSpans toLowercase hLine]
  exact (lineIndex_of_lineSpans hLine).2

theorem lineAt_text (toLowercase : String → String) {index : Nat} (h : index ∈ lineIndices spans) :
    (lineAt toLowercase spans index).text = lineText spans index := by
  obtain ⟨first, rest, hLine⟩ := lineSpans_cons_of_mem h
  unfold lineText
  rw [lineAt_of_lineSpans toLowercase hLine, hLine]
  rfl

theorem lineAt_role (toLowercase : String → String) {index : Nat} (h : index ∈ lineIndices spans) :
    keptRole (lineAt toLowercase spans index).role = lineKept spans index := by
  obtain ⟨first, rest, hLine⟩ := lineSpans_cons_of_mem h
  unfold lineKept
  rw [lineAt_of_lineSpans toLowercase hLine, hLine]
  rfl

/-! ## Spans whose roles are set -/

/-- Words that are marked again, each by a mark that stays on its line. -/
def Remarks (mark : TextSpan → TextSpan) : Prop :=
  ∀ span, (mark span).lineIndex = span.lineIndex ∧ (mark span).text = span.text

theorem lineSpans_map {mark : TextSpan → TextSpan} (h : Remarks mark) (index : Nat) :
    lineSpans (spans.map mark) index = (lineSpans spans index).map mark := by
  unfold lineSpans
  rw [List.filter_map]
  congr 1
  refine List.filter_congr fun span _ => ?_
  show ((mark span).lineIndex == index) = _
  rw [(h span).1]

theorem lineIndices_map {mark : TextSpan → TextSpan} (h : Remarks mark) :
    lineIndices (spans.map mark) = lineIndices spans := by
  unfold lineIndices
  rw [List.map_map]
  congr 2
  exact List.map_congr_left fun span _ => (h span).1

theorem lineText_map {mark : TextSpan → TextSpan} (h : Remarks mark) (index : Nat) :
    lineText (spans.map mark) index = lineText spans index := by
  unfold lineText
  rw [lineSpans_map h, List.map_map]
  congr 1
  exact List.map_congr_left fun span _ => (h span).2

theorem keptText_map {mark : TextSpan → TextSpan} (h : Remarks mark) :
    keptText (spans.map mark) = "\n".intercalate
      (((lineIndices spans).filter (lineKept (spans.map mark))).map (lineText spans)) := by
  unfold keptText
  rw [lineIndices_map h]
  congr 1
  exact List.map_congr_left fun index _ => lineText_map h index

theorem applyDecision_remarks (decisionOf : Nat → Decision) :
    Remarks fun span => applyDecision (decisionOf span.lineIndex) span :=
  fun _ => ⟨rfl, rfl⟩

/-- A decision about the lines decides which of them are kept. -/
theorem lineKept_decided (decisionOf : Nat → Decision) {index : Nat}
    (h : index ∈ lineIndices spans) :
    lineKept (spans.map fun span => applyDecision (decisionOf span.lineIndex) span) index =
      keptRole (decisionOf index).1 := by
  obtain ⟨first, rest, hLine⟩ := lineSpans_cons_of_mem h
  unfold lineKept
  rw [lineSpans_map (applyDecision_remarks decisionOf), hLine]
  show keptRole (decisionOf first.lineIndex).1 = _
  rw [(lineIndex_of_lineSpans hLine).2]

/-! ## Classifying -/

/-- What classifying decides about a line. -/
def decisionAt (toLowercase : String → String) (input : ClassifyInput) (catalog : ChromeCatalog)
    (config : FilterConfig) (index : Nat) : Decision :=
  (decideLine toLowercase input catalog config (lineAt toLowercase input.spans index)).1

/-- The decision that a span looks up is the one about its line. -/
theorem decided_find (toLowercase : String → String) (input : ClassifyInput)
    (catalog : ChromeCatalog) (config : FilterConfig) {index : Nat}
    (h : index ∈ lineIndices input.spans) :
    ((groupLines toLowercase input.spans).map fun line =>
      (line, decideLine toLowercase input catalog config line)).find? (fun d => d.1.index == index) =
      some (lineAt toLowercase input.spans index,
        decideLine toLowercase input catalog config (lineAt toLowercase input.spans index)) := by
  have hKeys : (((groupLines toLowercase input.spans).map fun line =>
      (line, decideLine toLowercase input catalog config line)).map fun d => d.1.index) =
      lineIndices input.spans := by
    rw [groupLines_eq, List.map_map, List.map_map]
    conv_rhs => rw [← List.map_id (lineIndices input.spans)]
    exact List.map_congr_left fun index hIndex => lineAt_index toLowercase hIndex
  have hMem : (lineAt toLowercase input.spans index,
      decideLine toLowercase input catalog config (lineAt toLowercase input.spans index)) ∈
      (groupLines toLowercase input.spans).map fun line =>
        (line, decideLine toLowercase input catalog config line) := by
    rw [groupLines_eq, List.map_map]
    exact List.mem_map_of_mem h
  have hKey := find?_key (fun d => d.1.index) (hKeys ▸ nodup_lineIndices _) hMem
  rw [show (lineAt toLowercase input.spans index).index = index from lineAt_index toLowercase h]
    at hKey
  exact hKey

theorem classify_spans (toLowercase : String → String) (input : ClassifyInput)
    (catalog : ChromeCatalog) (config : FilterConfig) :
    (classify toLowercase input catalog config).spans = input.spans.map fun span =>
      applyDecision (decisionAt toLowercase input catalog config span.lineIndex) span := by
  refine List.map_congr_left fun span hSpan => ?_
  have hIndex : span.lineIndex ∈ lineIndices input.spans := mem_lineIndices.mpr ⟨span, hSpan, rfl⟩
  dsimp only
  rw [decided_find toLowercase input catalog config hIndex]
  rfl

theorem classify_contentText (toLowercase : String → String) (input : ClassifyInput)
    (catalog : ChromeCatalog) (config : FilterConfig) :
    (classify toLowercase input catalog config).contentText = "\n".intercalate
      (((lineIndices input.spans).filter fun index =>
        keptRole (decisionAt toLowercase input catalog config index).1).map
          (lineText input.spans)) := by
  show "\n".intercalate (List.map _ (List.filter _ (List.map _ (groupLines _ _)))) = _
  rw [groupLines_eq, List.map_map, List.filter_map, List.map_map]
  congr 1
  exact List.map_congr_left fun index hIndex =>
    lineAt_text toLowercase (List.mem_of_mem_filter hIndex)

/-- What classifying decides about each line. -/
theorem classify_eq (toLowercase : String → String) (input : ClassifyInput)
    (catalog : ChromeCatalog) (config : FilterConfig) :
    ∃ decisionOf : Nat → Decision,
      (classify toLowercase input catalog config).spans =
        input.spans.map (fun span => applyDecision (decisionOf span.lineIndex) span) ∧
      (classify toLowercase input catalog config).contentText = "\n".intercalate
        (((lineIndices input.spans).filter fun index => keptRole (decisionOf index).1).map
          (lineText input.spans)) :=
  ⟨decisionAt toLowercase input catalog config, classify_spans toLowercase input catalog config,
    classify_contentText toLowercase input catalog config⟩

theorem classify_keptText (toLowercase : String → String) (input : ClassifyInput)
    (catalog : ChromeCatalog) (config : FilterConfig) :
    keptText (classify toLowercase input catalog config).spans =
      (classify toLowercase input catalog config).contentText := by
  obtain ⟨decisionOf, hSpans, hText⟩ := classify_eq toLowercase input catalog config
  rw [hSpans, hText, keptText_map (applyDecision_remarks decisionOf)]
  congr 2
  exact List.filter_congr fun index hIndex => lineKept_decided decisionOf hIndex

theorem classify_marked (toLowercase : String → String) (input : ClassifyInput)
    (catalog : ChromeCatalog) (config : FilterConfig) :
    Marked (classify toLowercase input catalog config).spans := by
  obtain ⟨decisionOf, hSpans, -⟩ := classify_eq toLowercase input catalog config
  rw [hSpans]
  constructor
  · intro span hSpan hKept
    obtain ⟨old, -, rfl⟩ := List.mem_map.mp hSpan
    exact hKept
  · intro span hSpan hContent
    obtain ⟨old, hOld, rfl⟩ := List.mem_map.mp hSpan
    have hRole : (decisionOf old.lineIndex).1 = .content := hContent
    show lineKept _ old.lineIndex = true
    rw [lineKept_decided decisionOf (mem_lineIndices.mpr ⟨old, hOld, rfl⟩), hRole]
    rfl

/-! ## Reconciling -/

/-- What becomes of a word when lines are demoted. -/
def demoteWord (demoted : List Nat) (span : TextSpan) : TextSpan :=
  if demoted.contains span.lineIndex then applyDecision (.chrome, some .staticChrome) span
  else { span with isSearchable := keptRole span.role }

theorem demoteWord_remarks (demoted : List Nat) : Remarks (demoteWord demoted) := by
  intro span
  unfold demoteWord
  split <;> exact ⟨rfl, rfl⟩

/-- The lines that reconciling demotes. -/
def demotedLines (toLowercase : String → String) (spans : List TextSpan) (appHint : Option String)
    (catalog : ChromeCatalog) (config : FilterConfig) : List Nat :=
  (lineIndices spans).filter fun index =>
    newlyChrome appHint catalog config (lineAt toLowercase spans index)

theorem demotedLines_eq (toLowercase : String → String) (spans : List TextSpan)
    (appHint : Option String) (catalog : ChromeCatalog) (config : FilterConfig) :
    ((groupLines toLowercase spans).filter (newlyChrome appHint catalog config)).map LineAcc.index =
      demotedLines toLowercase spans appHint catalog config := by
  rw [groupLines_eq, List.filter_map, List.map_map]
  conv_rhs => rw [← List.map_id (demotedLines toLowercase spans appHint catalog config)]
  exact List.map_congr_left fun index hIndex =>
    lineAt_index toLowercase (List.mem_of_mem_filter hIndex)

theorem reconcile_spans (toLowercase : String → String) (spans : List TextSpan)
    (appHint : Option String) (catalog : ChromeCatalog) (config : FilterConfig) :
    (reconcile toLowercase spans appHint catalog config).spans =
      spans.map (demoteWord (demotedLines toLowercase spans appHint catalog config)) := by
  rw [← demotedLines_eq]
  rfl

theorem reconcile_contentText (toLowercase : String → String) (spans : List TextSpan)
    (appHint : Option String) (catalog : ChromeCatalog) (config : FilterConfig) :
    (reconcile toLowercase spans appHint catalog config).contentText = "\n".intercalate
      (((lineIndices spans).filter fun index => lineKept spans index &&
        !(demotedLines toLowercase spans appHint catalog config).contains index).map
          (lineText spans)) := by
  show "\n".intercalate (List.map _ (List.filter (fun line => keptRole line.role &&
    !(((groupLines toLowercase spans).filter (newlyChrome appHint catalog config)).map
      LineAcc.index).contains line.index) (groupLines _ _))) = _
  rw [demotedLines_eq, groupLines_eq, List.filter_map, List.map_map]
  congr 1
  have hKept : ∀ index ∈ lineIndices spans,
      (keptRole (lineAt toLowercase spans index).role &&
        !(demotedLines toLowercase spans appHint catalog config).contains
          (lineAt toLowercase spans index).index) =
      (lineKept spans index &&
        !(demotedLines toLowercase spans appHint catalog config).contains index) := by
    intro index hIndex
    rw [lineAt_role toLowercase hIndex, lineAt_index toLowercase hIndex]
  rw [← List.filter_congr hKept]
  exact List.map_congr_left fun index hIndex =>
    lineAt_text toLowercase (List.mem_of_mem_filter hIndex)

/-- Reconciling demotes some of the lines that were kept, and the content is what remains. -/
theorem reconcile_eq (toLowercase : String → String) (spans : List TextSpan)
    (appHint : Option String) (catalog : ChromeCatalog) (config : FilterConfig) :
    ∃ demoted : List Nat,
      (reconcile toLowercase spans appHint catalog config).spans = spans.map (demoteWord demoted) ∧
      (reconcile toLowercase spans appHint catalog config).contentText = "\n".intercalate
        (((lineIndices spans).filter fun index =>
          lineKept spans index && !demoted.contains index).map (lineText spans)) :=
  ⟨demotedLines toLowercase spans appHint catalog config,
    reconcile_spans toLowercase spans appHint catalog config,
    reconcile_contentText toLowercase spans appHint catalog config⟩

theorem lineKept_demoted (demoted : List Nat) {index : Nat} (h : index ∈ lineIndices spans) :
    lineKept (spans.map (demoteWord demoted)) index =
      (lineKept spans index && !demoted.contains index) := by
  obtain ⟨first, rest, hLine⟩ := lineSpans_cons_of_mem h
  obtain ⟨-, hIndex⟩ := lineIndex_of_lineSpans hLine
  unfold lineKept
  rw [lineSpans_map (demoteWord_remarks demoted), hLine]
  show keptRole (demoteWord demoted first).role = (keptRole first.role && _)
  unfold demoteWord
  rw [hIndex]
  by_cases hIn : demoted.contains index = true
  · rw [if_pos hIn, hIn, Bool.not_true, Bool.and_false]
    rfl
  · rw [if_neg hIn, Bool.eq_false_iff.mpr hIn, Bool.not_false, Bool.and_true]

theorem demoted_keptText (demoted : List Nat) (spans : List TextSpan) :
    keptText (spans.map (demoteWord demoted)) = "\n".intercalate
      (((lineIndices spans).filter fun index =>
        lineKept spans index && !demoted.contains index).map (lineText spans)) := by
  rw [keptText_map (demoteWord_remarks demoted)]
  congr 2
  exact List.filter_congr fun index hIndex => lineKept_demoted demoted hIndex

theorem reconcile_keptText (toLowercase : String → String) (spans : List TextSpan)
    (appHint : Option String) (catalog : ChromeCatalog) (config : FilterConfig) :
    keptText (reconcile toLowercase spans appHint catalog config).spans =
      (reconcile toLowercase spans appHint catalog config).contentText := by
  rw [reconcile_spans, reconcile_contentText, demoted_keptText]

theorem Marked.demote (h : Marked spans) (demoted : List Nat) :
    Marked (spans.map (demoteWord demoted)) := by
  constructor
  · intro span hSpan hKept
    obtain ⟨old, -, rfl⟩ := List.mem_map.mp hSpan
    unfold demoteWord at hKept ⊢
    split at hKept
    · cases hKept
    · next hIn =>
      rw [if_neg hIn]
      exact hKept
  · intro span hSpan hContent
    obtain ⟨old, hOld, rfl⟩ := List.mem_map.mp hSpan
    rw [(demoteWord_remarks demoted old).1,
      lineKept_demoted demoted (mem_lineIndices.mpr ⟨old, hOld, rfl⟩)]
    unfold demoteWord at hContent
    split at hContent
    · cases hContent
    · next hIn =>
      rw [h.content old hOld hContent, Bool.eq_false_iff.mpr hIn]
      rfl

/-! ## Merging -/

/-- Lines that are one word each. -/
theorem lineSpans_words {indices : List Nat} (hNodup : indices.Nodup) {word : Nat → TextSpan}
    (hWord : ∀ index ∈ indices, (word index).lineIndex = index) {index : Nat}
    (hIndex : index ∈ indices) : lineSpans (indices.map word) index = [word index] := by
  unfold lineSpans
  rw [List.filter_map, List.filter_congr (q := fun i => i == index), List.filter_beq,
    List.count_eq_one_of_mem hNodup hIndex]
  · rfl
  · intro i hi
    show ((word i).lineIndex == index) = _
    rw [hWord i hi]

/-- The merged lines: each is one word. -/
theorem mergeSpansToLines_eq (toLowercase : String → String) (spans : List TextSpan) :
    ∃ word : Nat → TextSpan,
      mergeSpansToLines toLowercase spans =
        (spans.map TextSpan.lineIndex).eraseDups.map word ∧
      ∀ index ∈ lineIndices spans, ∃ first rest, lineSpans spans index = first :: rest ∧
        first.lineIndex = index ∧ word index = mergeLine toLowercase first (first :: rest) := by
  refine ⟨fun index => ((lineSpans spans index).head?.map fun first =>
    mergeLine toLowercase first (lineSpans spans index)).getD
      ⟨"", "", .ocr, .unknown, 0, 0, 0, 0, 0, true, none⟩, ?_, ?_⟩
  · unfold mergeSpansToLines
    conv_rhs => rw [← List.filterMap_eq_map]
    refine List.filterMap_congr fun index hIndex => ?_
    obtain ⟨first, rest, hLine⟩ := lineSpans_cons_of_mem
      (mem_lineIndices.mpr (List.mem_map.mp (List.mem_eraseDups.mp hIndex)))
    show (lineSpans spans index).head?.map (fun first =>
      mergeLine toLowercase first (lineSpans spans index)) = some _
    dsimp only
    rw [hLine]
    rfl
  · intro index hIndex
    obtain ⟨first, rest, hLine⟩ := lineSpans_cons_of_mem hIndex
    refine ⟨first, rest, hLine, (lineIndex_of_lineSpans hLine).2, ?_⟩
    dsimp only
    rw [hLine]
    rfl

/-- The lines stay in the order in which they first appear. -/
theorem mergeSpansToLines_keys (toLowercase : String → String) (spans : List TextSpan) :
    (mergeSpansToLines toLowercase spans).map TextSpan.lineIndex =
      (spans.map TextSpan.lineIndex).eraseDups := by
  obtain ⟨word, hWords, hWord⟩ := mergeSpansToLines_eq toLowercase spans
  rw [hWords, List.map_map]
  conv_rhs => rw [← List.map_id (spans.map TextSpan.lineIndex).eraseDups]
  refine List.map_congr_left fun index hIndex => ?_
  obtain ⟨first, rest, -, hSame, hMerged⟩ :=
    hWord index (mem_lineIndices.mpr (List.mem_map.mp (List.mem_eraseDups.mp hIndex)))
  show (word index).lineIndex = index
  rw [hMerged]
  exact hSame

/-- The lines stay, each with the one word that its words were merged to. -/
theorem mergeSpansToLines_lines (toLowercase : String → String) (spans : List TextSpan) :
    lineIndices (mergeSpansToLines toLowercase spans) = lineIndices spans ∧
      ∀ index ∈ lineIndices spans, ∃ first rest, lineSpans spans index = first :: rest ∧
        lineSpans (mergeSpansToLines toLowercase spans) index =
          [mergeLine toLowercase first (first :: rest)] := by
  obtain ⟨word, hWords, hWord⟩ := mergeSpansToLines_eq toLowercase spans
  have hNodup := nodup_eraseDups (spans.map TextSpan.lineIndex)
  have hIndex : ∀ index ∈ (spans.map TextSpan.lineIndex).eraseDups,
      (word index).lineIndex = index := by
    intro index hIn
    obtain ⟨first, rest, -, hSame, hMerged⟩ :=
      hWord index (mem_lineIndices.mpr (List.mem_map.mp (List.mem_eraseDups.mp hIn)))
    rw [hMerged]
    exact hSame
  constructor
  · unfold lineIndices
    rw [mergeSpansToLines_keys, eraseDups_eq_self hNodup]
  · intro index hIn
    obtain ⟨first, rest, hLine, -, hMerged⟩ := hWord index hIn
    refine ⟨first, rest, hLine, ?_⟩
    rw [hWords, ← hMerged]
    exact lineSpans_words hNodup hIndex
      (List.mem_eraseDups.mpr (List.mem_map.mpr (mem_lineIndices.mp hIn)))

/-- A merged word is the one of its line. -/
theorem mem_mergeSpansToLines {toLowercase : String → String} {span : TextSpan}
    (h : span ∈ mergeSpansToLines toLowercase spans) :
    span.lineIndex ∈ lineIndices spans ∧ ∃ first rest,
      lineSpans spans span.lineIndex = first :: rest ∧
        span = mergeLine toLowercase first (first :: rest) := by
  obtain ⟨hIndices, hLines⟩ := mergeSpansToLines_lines toLowercase spans
  have hIn : span.lineIndex ∈ lineIndices spans := hIndices ▸ mem_lineIndices.mpr ⟨span, h, rfl⟩
  obtain ⟨first, rest, hLine, hMerged⟩ := hLines span.lineIndex hIn
  refine ⟨hIn, first, rest, hLine, List.mem_singleton.mp ?_⟩
  rw [← hMerged]
  exact List.mem_filter.mpr ⟨h, beq_self_eq_true _⟩

/-- A line reads as before. -/
theorem mergeSpansToLines_lineText (toLowercase : String → String) (spans : List TextSpan)
    {index : Nat} (h : index ∈ lineIndices spans) :
    lineText (mergeSpansToLines toLowercase spans) index = lineText spans index := by
  obtain ⟨first, rest, hLine, hMerged⟩ := (mergeSpansToLines_lines toLowercase spans).2 index h
  unfold lineText
  rw [hMerged, hLine]
  rfl

/-- A merged line is kept if its line was, and then can be searched. -/
theorem mergeLine_kept (toLowercase : String → String) (h : Marked spans) {index : Nat}
    {first : TextSpan} {rest : List TextSpan} (hLine : lineSpans spans index = first :: rest) :
    keptRole (mergeLine toLowercase first (first :: rest)).role = lineKept spans index ∧
      (keptRole (mergeLine toLowercase first (first :: rest)).role = true →
        (mergeLine toLowercase first (first :: rest)).isSearchable = true) := by
  obtain ⟨hFirst, -⟩ := lineIndex_of_lineSpans hLine
  have hMem : ∀ span ∈ first :: rest, span ∈ spans ∧ span.lineIndex = index := by
    intro span hSpan
    rw [← hLine] at hSpan
    obtain ⟨hIn, hSame⟩ := List.mem_filter.mp hSpan
    exact ⟨hIn, beq_iff_eq.mp hSame⟩
  have hKept : lineKept spans index = keptRole first.role := by
    unfold lineKept
    rw [hLine]
    rfl
  rw [hKept]
  show keptRole ((((first :: rest).find? fun s => s.role == .content).map TextSpan.role).getD
    first.role) = keptRole first.role ∧ (keptRole ((((first :: rest).find? fun s =>
      s.role == .content).map TextSpan.role).getD first.role) = true →
        (first :: rest).any TextSpan.isSearchable = true)
  rcases hFound : (first :: rest).find? (fun s => s.role == .content) with - | span
  · rw [hFound]
    exact ⟨rfl, fun hRole => List.any_eq_true.mpr
      ⟨first, List.mem_cons_self, h.searchable first hFirst hRole⟩⟩
  · -- a line with a word of content was kept already
    obtain ⟨hSpan, hSame⟩ := hMem span (List.mem_of_find?_eq_some hFound)
    have hContent : span.role = .content := beq_iff_eq.mp (List.find?_some hFound :)
    have hLineKept := h.content span hSpan hContent
    rw [hSame, hKept] at hLineKept
    rw [hFound]
    show keptRole span.role = _ ∧ (keptRole span.role = true → _)
    refine ⟨by rw [hContent, hLineKept]; rfl, fun hRole => List.any_eq_true.mpr ?_⟩
    exact ⟨span, List.mem_of_find?_eq_some hFound, h.searchable span hSpan hRole⟩

theorem mergeSpansToLines_keptText (toLowercase : String → String) (h : Marked spans) :
    keptText (mergeSpansToLines toLowercase spans) = keptText spans ∧
      Marked (mergeSpansToLines toLowercase spans) := by
  obtain ⟨hIndices, hLines⟩ := mergeSpansToLines_lines toLowercase spans
  have hKept : ∀ index ∈ lineIndices spans,
      lineKept (mergeSpansToLines toLowercase spans) index = lineKept spans index := by
    intro index hIndex
    obtain ⟨first, rest, hLine, hMerged⟩ := hLines index hIndex
    rw [← (mergeLine_kept toLowercase h hLine).1]
    unfold lineKept
    rw [hMerged]
    rfl
  refine ⟨?_, ?_, ?_⟩
  · unfold keptText
    rw [hIndices, List.filter_congr hKept]
    congr 1
    exact List.map_congr_left fun index hIndex =>
      mergeSpansToLines_lineText toLowercase spans (List.mem_of_mem_filter hIndex)
  · intro span hSpan hRole
    obtain ⟨-, first, rest, hLine, hMerged⟩ := mem_mergeSpansToLines hSpan
    rw [hMerged] at hRole ⊢
    exact (mergeLine_kept toLowercase h hLine).2 hRole
  · intro span hSpan hContent
    obtain ⟨hIn, first, rest, hLine, hMerged⟩ := mem_mergeSpansToLines hSpan
    rw [hKept _ hIn, ← (mergeLine_kept toLowercase h hLine).1, ← hMerged, hContent]
    rfl

end ScreenSearch.Attention
