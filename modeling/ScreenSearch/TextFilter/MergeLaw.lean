import ScreenSearch.TextFilter.ReconcileLaw

/-!
# Reconciling spans that are merged

A frame may be degraded to one span a line before the backfill comes to it, or after, and the
backfill may come again. The line of the spans and the one span they are merged to read the
same and stand in the same place, so that the backfill demotes the same lines.

Main results:

* `mergeSpansToLines_law` — merging is idempotent and keeps what a line is;
* `reconcile_law` — reconciling suppresses more with a warmer catalog, takes nothing back,
  changes nothing the second time, and comes to the same on merged spans.
-/

namespace ScreenSearch.Attention

open Sorting Store.SearchTables

/-! ## The extent of a line -/

/-- The words of each line have one role. -/
def OneRole (spans : List TextSpan) : Prop :=
  ∀ span ∈ spans, ∀ other ∈ spans, span.lineIndex = other.lineIndex → span.role = other.role

/-- No word has a negative extent. -/
def Sized (spans : List TextSpan) : Prop := ∀ span ∈ spans, 0 ≤ span.w ∧ 0 ≤ span.h

instance (spans : List TextSpan) : Decidable (OneRole spans) :=
  inferInstanceAs (Decidable (∀ span ∈ spans, ∀ other ∈ spans, _ → _))

instance (spans : List TextSpan) : Decidable (Sized spans) :=
  inferInstanceAs (Decidable (∀ span ∈ spans, _ ∧ _))

variable {toLowercase : String → String} {spans : List TextSpan} {first : TextSpan}
  {rest : List TextSpan} {index : Nat}

/-- The least start of the words is before their last end. -/
theorem start_le_finish (start extent : TextSpan → ℚ) (rest : List TextSpan)
    (h : 0 ≤ extent first) :
    (((first :: rest).map start).min?).getD 0 ≤
      (((first :: rest).map fun s => start s + extent s).max?).getD 0 := by
  obtain ⟨least, hLeast⟩ := Option.isSome_iff_exists.mp
    (List.isSome_min?_of_mem (List.mem_map_of_mem (f := start) (List.mem_cons_self (l := rest))))
  obtain ⟨last, hLast⟩ := Option.isSome_iff_exists.mp
    (List.isSome_max?_of_mem
      (List.mem_map_of_mem (f := fun s => start s + extent s) (List.mem_cons_self (l := rest))))
  rw [hLeast, hLast, Option.getD_some, Option.getD_some]
  calc least ≤ start first :=
        (List.min?_eq_some_iff.mp hLeast).2 _ (List.mem_map_of_mem List.mem_cons_self)
    _ ≤ start first + extent first := le_add_of_nonneg_right h
    _ ≤ last := (List.max?_eq_some_iff.mp hLast).2 _
        (List.mem_map_of_mem (f := fun s => start s + extent s) List.mem_cons_self)

/-- The one word of a merged line reads like the line and stands where it does. -/
theorem mergeLine_alike (hSize : 0 ≤ first.w ∧ 0 ≤ first.h) :
    Alike (lineOf toLowercase (mergeLine toLowercase first (first :: rest))
        [mergeLine toLowercase first (first :: rest)])
      (lineOf toLowercase first (first :: rest)) := by
  refine ⟨rfl, rfl, rfl, ?_, ?_⟩
  · have hLe := start_le_finish TextSpan.x TextSpan.w rest hSize.1
    show (((first :: rest).map TextSpan.x).min?).getD 0 +
      max ((((first :: rest).map fun s => s.x + s.w).max?).getD 0 -
        (((first :: rest).map TextSpan.x).min?).getD 0) 0 = _
    rw [max_eq_left (sub_nonneg.mpr hLe), add_sub_cancel]
    rfl
  · have hLe := start_le_finish TextSpan.y TextSpan.h rest hSize.2
    show (((first :: rest).map TextSpan.y).min?).getD 0 +
      max ((((first :: rest).map fun s => s.y + s.h).max?).getD 0 -
        (((first :: rest).map TextSpan.y).min?).getD 0) 0 = _
    rw [max_eq_left (sub_nonneg.mpr hLe), add_sub_cancel]
    rfl

/-- A word that stands for its line. -/
structure Whole (toLowercase : String → String) (span : TextSpan) : Prop where
  normalizedText : span.normalizedText = normalizeText toLowercase span.text
  w : 0 ≤ span.w
  h : 0 ≤ span.h
  reason : span.isSearchable = true → span.suppressReason = none

theorem mergeLine_whole : Whole toLowercase (mergeLine toLowercase first (first :: rest)) where
  normalizedText := rfl
  w := le_max_right _ _
  h := le_max_right _ _
  reason := fun hSearchable => if_pos hSearchable

/-- It stays as it is. -/
theorem Whole.mergeLine {span : TextSpan} (h : Whole toLowercase span) :
    mergeLine toLowercase span [span] = span := by
  have hRole : (([span].find? fun s => s.role == .content).map TextSpan.role).getD span.role =
      span.role := by
    rw [List.find?_singleton]
    split <;> rfl
  have hW : max (span.x + span.w - span.x) 0 = span.w := by
    rw [add_sub_cancel_left, max_eq_left h.w]
  have hH : max (span.y + span.h - span.y) 0 = span.h := by
    rw [add_sub_cancel_left, max_eq_left h.h]
  have hSearchable : [span].any TextSpan.isSearchable = span.isSearchable := by
    rw [List.any_cons, List.any_nil, Bool.or_false]
  have hReason : (if [span].any TextSpan.isSearchable = true then none else span.suppressReason) =
      span.suppressReason := by
    rw [hSearchable]
    split
    · next hTrue => exact (h.reason hTrue).symm
    · rfl
  unfold Store.SearchTables.mergeLine
  dsimp only
  rw [hRole, hReason, hSearchable]
  show TextSpan.mk span.text (normalizeText toLowercase span.text) _ _ span.x span.y
    (max (span.x + span.w - span.x) 0) (max (span.y + span.h - span.y) 0) _ _ _ = span
  rw [hW, hH, ← h.normalizedText]

/-! ## Merging -/

theorem mergeSpansToLines_idem (toLowercase : String → String) (spans : List TextSpan) :
    mergeSpansToLines toLowercase (mergeSpansToLines toLowercase spans) =
      mergeSpansToLines toLowercase spans := by
  have hKeys := mergeSpansToLines_keys toLowercase spans
  have hNodup : ((mergeSpansToLines toLowercase spans).map TextSpan.lineIndex).Nodup :=
    hKeys ▸ nodup_eraseDups _
  obtain ⟨word, hWords, hWord⟩ :=
    mergeSpansToLines_eq toLowercase (mergeSpansToLines toLowercase spans)
  rw [hWords, eraseDups_eq_self hNodup, List.map_map]
  conv_rhs => rw [← List.map_id (mergeSpansToLines toLowercase spans)]
  refine List.map_congr_left fun span hSpan => ?_
  obtain ⟨hIn, first, rest, hLine, hSame⟩ := mem_mergeSpansToLines hSpan
  obtain ⟨first', rest', hLine', -, hMerged⟩ :=
    hWord span.lineIndex (mem_lineIndices.mpr ⟨span, hSpan, rfl⟩)
  obtain ⟨other, others, hOther, hOnly⟩ :=
    (mergeSpansToLines_lines toLowercase spans).2 span.lineIndex hIn
  rw [hLine] at hOther
  cases hOther
  rw [hLine', ← hSame] at hOnly
  cases hOnly
  show word span.lineIndex = span
  rw [hMerged]
  exact Whole.mergeLine (hSame ▸ mergeLine_whole)

/-- Merging again changes nothing, and a line keeps its role, its text, its place, and whether
it can be searched. -/
structure MergeLaw (toLowercase : String → String) (spans merged : List TextSpan) : Prop where
  idempotent : mergeSpansToLines toLowercase merged = merged
  lines : merged.map TextSpan.lineIndex = (spans.map TextSpan.lineIndex).eraseDups
  role : ∀ line ∈ merged, ∀ span ∈ spans, span.lineIndex = line.lineIndex → line.role = span.role
  searchable : ∀ line ∈ merged, (line.isSearchable = true ↔
    ∃ span ∈ spans, span.lineIndex = line.lineIndex ∧ span.isSearchable = true)
  text : ∀ line ∈ merged, line.text = lineText spans line.lineIndex
  bbox : ∀ line ∈ merged, (line.x, line.y, line.w, line.h) =
    (lineAt toLowercase spans line.lineIndex).bbox

/-- A merged line has the role that its words have. -/
theorem mergeLine_role (hRoles : OneRole spans) (hLine : lineSpans spans index = first :: rest) :
    (mergeLine toLowercase first (first :: rest)).role = first.role := by
  show (((first :: rest).find? fun s => s.role == .content).map TextSpan.role).getD first.role = _
  rcases hFound : (first :: rest).find? (fun s => s.role == .content) with - | span
  · rw [hFound]
    rfl
  · rw [hFound]
    obtain ⟨hFirst, hIndex⟩ := lineIndex_of_lineSpans hLine
    have hIn : span ∈ lineSpans spans index := hLine ▸ List.mem_of_find?_eq_some hFound
    obtain ⟨hSpan, hSame⟩ := List.mem_filter.mp hIn
    exact hRoles span hSpan first hFirst ((beq_iff_eq.mp hSame).trans hIndex.symm)

theorem mergeSpansToLines_law (toLowercase : String → String) (hRoles : OneRole spans) :
    MergeLaw toLowercase spans (mergeSpansToLines toLowercase spans) where
  idempotent := mergeSpansToLines_idem toLowercase spans
  lines := mergeSpansToLines_keys toLowercase spans
  role := by
    intro line hMerged span hSpan hIndex
    obtain ⟨-, first, rest, hLine, hSame⟩ := mem_mergeSpansToLines hMerged
    obtain ⟨hFirst, hFirstIndex⟩ := lineIndex_of_lineSpans hLine
    rw [hSame, mergeLine_role hRoles hLine]
    exact hRoles first hFirst span hSpan (hFirstIndex.trans hIndex.symm)
  searchable := by
    intro line hMerged
    obtain ⟨-, first, rest, hLine, hSame⟩ := mem_mergeSpansToLines hMerged
    have hAny : line.isSearchable = (lineSpans spans line.lineIndex).any TextSpan.isSearchable := by
      rw [hLine]
      exact congrArg TextSpan.isSearchable hSame
    rw [hAny, List.any_eq_true]
    constructor
    · rintro ⟨span, hSpan, hSearchable⟩
      obtain ⟨hIn, hIndex⟩ := List.mem_filter.mp hSpan
      exact ⟨span, hIn, beq_iff_eq.mp hIndex, hSearchable⟩
    · rintro ⟨span, hSpan, hIndex, hSearchable⟩
      exact ⟨span, List.mem_filter.mpr ⟨hSpan, beq_iff_eq.mpr hIndex⟩, hSearchable⟩
  text := by
    intro line hMerged
    obtain ⟨-, first, rest, hLine, hSame⟩ := mem_mergeSpansToLines hMerged
    unfold lineText
    rw [hLine]
    exact congrArg TextSpan.text hSame
  bbox := by
    intro line hMerged
    obtain ⟨-, first, rest, hLine, hSame⟩ := mem_mergeSpansToLines hMerged
    rw [lineAt_of_lineSpans toLowercase hLine]
    exact congrArg (fun span => (span.x, span.y, span.w, span.h)) hSame

/-! ## Reconciling -/

variable {appHint : Option String} {catalog catalog' : ChromeCatalog} {config : FilterConfig}

def Suppressed (span : TextSpan) : Prop := keptRole span.role = false

instance (span : TextSpan) : Decidable (Suppressed span) :=
  inferInstanceAs (Decidable (_ = _))

/-- The lines of which the words are suppressed. -/
def suppressedLines (spans : List TextSpan) : List Nat :=
  (lineIndices spans).filter fun index => !lineKept spans index

/-- What reconciling the spans of a frame promises, against a catalog and a warmer one. -/
structure ReconcileLaw (toLowercase : String → String) (spans : List TextSpan)
    (appHint : Option String) (catalog catalog' : ChromeCatalog) (config : FilterConfig) :
    Prop where
  mono : List.Forall₂ (fun span warmer => Suppressed span → Suppressed warmer)
    (reconcile toLowercase spans appHint catalog config).spans
    (reconcile toLowercase spans appHint catalog' config).spans
  keeps : List.Forall₂ (fun before after => Suppressed before → Suppressed after)
    spans (reconcile toLowercase spans appHint catalog config).spans
  idempotent : reconcile toLowercase (reconcile toLowercase spans appHint catalog config).spans
    appHint catalog config = reconcile toLowercase spans appHint catalog config
  mergedDemotes : demotedLines toLowercase (mergeSpansToLines toLowercase spans)
    appHint catalog config = demotedLines toLowercase spans appHint catalog config
  mergedRoles : ∀ line ∈ (reconcile toLowercase (mergeSpansToLines toLowercase spans)
      appHint catalog config).spans,
    ∀ span ∈ (reconcile toLowercase spans appHint catalog config).spans,
      line.lineIndex = span.lineIndex → line.role = span.role
  /-- The words that are suppressed are counted, and after the merging their lines. -/
  counts : (reconcile toLowercase spans appHint catalog config).suppressedCount =
    ((reconcile toLowercase spans appHint catalog config).spans.filter Suppressed).length
  mergedCounts : (reconcile toLowercase (mergeSpansToLines toLowercase spans)
      appHint catalog config).suppressedCount =
    (suppressedLines (reconcile toLowercase spans appHint catalog config).spans).length
  mergedContent : (reconcile toLowercase (mergeSpansToLines toLowercase spans)
      appHint catalog config).contentText =
    (reconcile toLowercase spans appHint catalog config).contentText

theorem demotedLines_mono (hLe : ∀ sig, catalog sig ≤ catalog' sig)
    (h : index ∈ demotedLines toLowercase spans appHint catalog config) :
    index ∈ demotedLines toLowercase spans appHint catalog' config := by
  have hIndex : index ∈ lineIndices spans := List.mem_of_mem_filter h
  rw [mem_demotedLines hIndex] at h ⊢
  obtain ⟨hKept, hShort, hLearned⟩ := h
  exact ⟨hKept, hShort, hLearned.trans (hLe _)⟩

/-- What is demoted is not kept, so that it is not demoted again. -/
theorem demotedLines_again (toLowercase : String → String) (spans : List TextSpan)
    (appHint : Option String) (catalog : ChromeCatalog) (config : FilterConfig) :
    demotedLines toLowercase (spans.map (demoteWord
      (demotedLines toLowercase spans appHint catalog config))) appHint catalog config = [] := by
  have hPlaces := demoteWord_places (demotedLines toLowercase spans appHint catalog config)
  refine List.eq_nil_iff_forall_not_mem.mpr fun index hIn => ?_
  have hAgain := List.mem_of_mem_filter hIn
  have hIndex := hAgain
  rw [lineIndices_map hPlaces.remarks] at hIndex
  have hAlike : Alike _ _ := lineAt_map toLowercase hPlaces hIndex
  rw [mem_demotedLines hAgain, lineKept_demoted _ hIndex, hAlike.short, hAlike.lineSignature,
    Bool.and_eq_true] at hIn
  obtain ⟨⟨hKept, hNot⟩, hShort, hLearned⟩ := hIn
  have hDemoted : index ∈ demotedLines toLowercase spans appHint catalog config :=
    (mem_demotedLines hIndex).mpr ⟨hKept, hShort, hLearned⟩
  rw [List.contains_iff_mem.mpr hDemoted] at hNot
  cases hNot

theorem demoteWord_again (demoted : List Nat) (span : TextSpan) :
    demoteWord [] (demoteWord demoted span) = demoteWord demoted span := by
  unfold demoteWord
  by_cases hIn : demoted.contains span.lineIndex = true
  · rw [if_pos hIn]
    rfl
  · rw [if_neg hIn]
    rfl

/-- The spans decide the rest of the output. -/
theorem reconcile_eta (toLowercase : String → String) (spans : List TextSpan)
    (appHint : Option String) (catalog : ChromeCatalog) (config : FilterConfig) :
    reconcile toLowercase spans appHint catalog config =
      { spans := (reconcile toLowercase spans appHint catalog config).spans
        contentText := keptText (reconcile toLowercase spans appHint catalog config).spans
        suppressedCount := (reconcile toLowercase spans appHint catalog config).spans.countP
          fun span => !span.isSearchable
        observed := [] } := by
  rw [reconcile_keptText]
  rfl

theorem reconcile_idempotent (toLowercase : String → String) (spans : List TextSpan)
    (appHint : Option String) (catalog : ChromeCatalog) (config : FilterConfig) :
    reconcile toLowercase (reconcile toLowercase spans appHint catalog config).spans
      appHint catalog config = reconcile toLowercase spans appHint catalog config := by
  have hOnce := reconcile_spans toLowercase spans appHint catalog config
  have hDemoted := demotedLines_again toLowercase spans appHint catalog config
  rw [← hOnce] at hDemoted
  have hSpans : (reconcile toLowercase (reconcile toLowercase spans appHint catalog config).spans
      appHint catalog config).spans = (reconcile toLowercase spans appHint catalog config).spans := by
    rw [reconcile_spans, hDemoted, hOnce, List.map_map]
    exact List.map_congr_left fun span _ => demoteWord_again _ span
  rw [reconcile_eta, hSpans]
  exact (reconcile_eta toLowercase spans appHint catalog config).symm

theorem lineAt_merged (toLowercase : String → String) (hSized : Sized spans)
    (h : index ∈ lineIndices spans) :
    Alike (lineAt toLowercase (mergeSpansToLines toLowercase spans) index)
      (lineAt toLowercase spans index) := by
  obtain ⟨first, rest, hLine, hMerged⟩ := (mergeSpansToLines_lines toLowercase spans).2 index h
  rw [lineAt_of_lineSpans toLowercase hMerged, lineAt_of_lineSpans toLowercase hLine]
  exact mergeLine_alike (hSized first (lineIndex_of_lineSpans hLine).1)

theorem lineKept_merged (hRoles : OneRole spans) (h : index ∈ lineIndices spans) :
    lineKept (mergeSpansToLines toLowercase spans) index = lineKept spans index := by
  obtain ⟨first, rest, hLine, hMerged⟩ := (mergeSpansToLines_lines toLowercase spans).2 index h
  unfold lineKept
  rw [hMerged, hLine]
  exact congrArg keptRole (mergeLine_role hRoles hLine)

theorem demotedLines_merged (hRoles : OneRole spans) (hSized : Sized spans) :
    demotedLines toLowercase (mergeSpansToLines toLowercase spans) appHint catalog config =
      demotedLines toLowercase spans appHint catalog config := by
  have hIndices := (mergeSpansToLines_lines toLowercase spans).1
  unfold demotedLines
  rw [hIndices]
  refine List.filter_congr fun index hIndex => Bool.eq_iff_iff.mpr ?_
  have hAlike : Alike _ _ := lineAt_merged toLowercase hSized hIndex
  rw [newlyChrome_iff, newlyChrome_iff, hAlike.short, hAlike.lineSignature,
    lineAt_role toLowercase hIndex, lineAt_role toLowercase (hIndices ▸ hIndex),
    lineKept_merged hRoles hIndex]

theorem reconcile_mono (hLe : ∀ sig, catalog sig ≤ catalog' sig) :
    List.Forall₂ (fun span warmer => Suppressed span → Suppressed warmer)
      (reconcile toLowercase spans appHint catalog config).spans
      (reconcile toLowercase spans appHint catalog' config).spans := by
  rw [reconcile_spans, reconcile_spans, List.forall₂_map_left_iff, List.forall₂_map_right_iff,
    List.forall₂_same]
  intro span hSpan
  unfold Suppressed
  rw [demoteWord_role, demoteWord_role]
  by_cases hIn : span.lineIndex ∈ demotedLines toLowercase spans appHint catalog config
  · rw [if_pos (demotedLines_mono hLe hIn)]
    exact fun _ => rfl
  · rw [if_neg hIn]
    split
    · exact fun _ => rfl
    · exact id

theorem reconcile_keeps (toLowercase : String → String) (spans : List TextSpan)
    (appHint : Option String) (catalog : ChromeCatalog) (config : FilterConfig) :
    List.Forall₂ (fun before after => Suppressed before → Suppressed after)
      spans (reconcile toLowercase spans appHint catalog config).spans := by
  rw [reconcile_spans, List.forall₂_map_right_iff, List.forall₂_same]
  intro span hSpan
  unfold Suppressed
  rw [demoteWord_role]
  split
  · exact fun _ => rfl
  · exact id

theorem demoteWord_searchable (demoted : List Nat) (span : TextSpan) :
    (demoteWord demoted span).isSearchable =
      (keptRole span.role && !demoted.contains span.lineIndex) := by
  unfold demoteWord
  by_cases hIn : demoted.contains span.lineIndex = true
  · rw [if_pos hIn, hIn, Bool.not_true, Bool.and_false]
    rfl
  · rw [if_neg hIn, Bool.eq_false_iff.mpr hIn, Bool.not_false, Bool.and_true]

/-- A word can be searched as its role says. -/
theorem reconcile_searchable {span : TextSpan}
    (h : span ∈ (reconcile toLowercase spans appHint catalog config).spans) :
    span.isSearchable = keptRole span.role := by
  rw [reconcile_spans] at h
  obtain ⟨old, -, rfl⟩ := List.mem_map.mp h
  unfold demoteWord
  split <;> rfl

theorem reconcile_counts (toLowercase : String → String) (spans : List TextSpan)
    (appHint : Option String) (catalog : ChromeCatalog) (config : FilterConfig) :
    (reconcile toLowercase spans appHint catalog config).suppressedCount =
      ((reconcile toLowercase spans appHint catalog config).spans.filter Suppressed).length := by
  rw [← List.countP_eq_length_filter]
  refine List.countP_congr fun span hSpan => ?_
  rw [reconcile_searchable hSpan, Bool.not_eq_true', decide_eq_true_eq]
  exact Iff.rfl

theorem reconcile_merged_roles (hRoles : OneRole spans) (hSized : Sized spans) {line span : TextSpan}
    (hLine : line ∈ (reconcile toLowercase (mergeSpansToLines toLowercase spans)
      appHint catalog config).spans)
    (hSpan : span ∈ (reconcile toLowercase spans appHint catalog config).spans)
    (hIndex : line.lineIndex = span.lineIndex) : line.role = span.role := by
  rw [reconcile_spans, demotedLines_merged hRoles hSized] at hLine
  rw [reconcile_spans] at hSpan
  obtain ⟨merged, hMerged, rfl⟩ := List.mem_map.mp hLine
  obtain ⟨old, hOld, rfl⟩ := List.mem_map.mp hSpan
  rw [(demoteWord_remarks _ merged).1, (demoteWord_remarks _ old).1] at hIndex
  rw [demoteWord_role, demoteWord_role, hIndex,
    (mergeSpansToLines_law toLowercase hRoles).role merged hMerged old hOld hIndex.symm]

theorem reconcile_merged_content (hRoles : OneRole spans) (hSized : Sized spans) :
    (reconcile toLowercase (mergeSpansToLines toLowercase spans) appHint catalog config).contentText
      = (reconcile toLowercase spans appHint catalog config).contentText := by
  rw [reconcile_contentText, reconcile_contentText, demotedLines_merged hRoles hSized,
    (mergeSpansToLines_lines toLowercase spans).1]
  congr 1
  rw [List.filter_congr fun index hIndex => by rw [lineKept_merged hRoles hIndex]]
  exact List.map_congr_left fun index hIndex =>
    mergeSpansToLines_lineText toLowercase spans (List.mem_of_mem_filter hIndex)

theorem reconcile_merged_counts (hRoles : OneRole spans) (hSized : Sized spans) :
    (reconcile toLowercase (mergeSpansToLines toLowercase spans)
      appHint catalog config).suppressedCount =
    (suppressedLines (reconcile toLowercase spans appHint catalog config).spans).length := by
  have hPerm : (lineIndices spans).Perm (spans.map TextSpan.lineIndex).eraseDups :=
    sortByKey_perm id _
  have hCount : (reconcile toLowercase (mergeSpansToLines toLowercase spans)
      appHint catalog config).suppressedCount =
      (reconcile toLowercase (mergeSpansToLines toLowercase spans)
        appHint catalog config).spans.countP fun span => !span.isSearchable := rfl
  unfold suppressedLines
  rw [hCount, reconcile_spans, demotedLines_merged hRoles hSized, reconcile_spans, List.countP_map,
    ← List.countP_eq_length_filter, lineIndices_map (demoteWord_remarks _), hPerm.countP_eq,
    ← mergeSpansToLines_keys toLowercase, List.countP_map]
  refine List.countP_congr fun line hLine => ?_
  obtain ⟨hIndex, first, rest, hFirst, hSame⟩ := mem_mergeSpansToLines hLine
  have hRole : keptRole line.role = lineKept spans line.lineIndex := by
    unfold lineKept
    rw [hFirst]
    exact congrArg keptRole ((congrArg TextSpan.role hSame).trans (mergeLine_role hRoles hFirst))
  show (!(demoteWord _ line).isSearchable) = true ↔ (!lineKept _ line.lineIndex) = true
  rw [lineKept_demoted _ hIndex, ← hRole, demoteWord_searchable]

/-- Reconciling suppresses more with a warmer catalog, takes nothing back, changes nothing the
second time, and demotes the same lines of merged spans. -/
theorem reconcile_law (toLowercase : String → String) (appHint : Option String)
    (config : FilterConfig) (hRoles : OneRole spans) (hSized : Sized spans)
    (hLe : ∀ sig, catalog sig ≤ catalog' sig) :
    ReconcileLaw toLowercase spans appHint catalog catalog' config ∧
      MergeLaw toLowercase spans (mergeSpansToLines toLowercase spans) where
  left :=
    { mono := reconcile_mono hLe
      keeps := reconcile_keeps toLowercase spans appHint catalog config
      idempotent := reconcile_idempotent toLowercase spans appHint catalog config
      mergedDemotes := demotedLines_merged hRoles hSized
      mergedRoles := fun _ hLine _ hSpan => reconcile_merged_roles hRoles hSized hLine hSpan
      counts := reconcile_counts toLowercase spans appHint catalog config
      mergedCounts := reconcile_merged_counts hRoles hSized
      mergedContent := reconcile_merged_content hRoles hSized }
  right := mergeSpansToLines_law toLowercase hRoles

/-- A menu of two words, and a word of the body. -/
def menuAndBody : List TextSpan :=
  [⟨"File", "file", .ocr, .content, 7 / 100, 1 / 100, 2 / 100, 2 / 100, 0, true, none⟩,
    ⟨"Edit", "edit", .ocr, .content, 10 / 100, 1 / 100, 2 / 100, 2 / 100, 0, true, none⟩,
    ⟨"ok", "ok", .ocr, .content, 40 / 100, 50 / 100, 2 / 100, 2 / 100, 1, true, none⟩]

theorem reconcile_law_menuAndBody :
    ReconcileLaw Text.toAsciiLowercase menuAndBody (some "editor") (fun _ => 0)
        (fun sig => if sig = signature (some "editor") "0,0" "file edit" then 4 else 0)
        shippedThresholds ∧
      MergeLaw Text.toAsciiLowercase menuAndBody
        (mergeSpansToLines Text.toAsciiLowercase menuAndBody) :=
  reconcile_law Text.toAsciiLowercase (some "editor") shippedThresholds (by decide)
    (by decide +kernel) fun _ => Nat.zero_le _

end ScreenSearch.Attention
