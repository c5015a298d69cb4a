import ScreenSearch.TextFilter.ClassifyLaw

/-!
# Reconciling against classifying

The backfill goes by the text of a line and by its cell on a coarse grid, and does not know
the rectangle of the window. Classifying asks the catalog about short lines at the edge of the
window only.

Main results:

* `mem_demotedLines` — which lines reconciling demotes;
* `reconcile_agrees_iff` — reconciling a stored frame comes to what classifying with the
  warmer catalog would, exactly if no short line in the interior of the window has a signature
  that was counted often enough.
-/

namespace ScreenSearch.Attention

/-! ## Lines that look alike -/

/-- The lines read the same and stand in the same place. -/
structure Alike (a b : LineAcc) : Prop where
  normalized : a.normalized = b.normalized
  x0 : a.x0 = b.x0
  y0 : a.y0 = b.y0
  x1 : a.x1 = b.x1
  y1 : a.y1 = b.y1

def Short (config : FilterConfig) (line : LineAcc) : Prop :=
  line.normalized.length < config.chromeProtectMinChars

/-- The signature of a line, whether it is catalogued or not. -/
def lineSignature (appHint : Option String) (config : FilterConfig) (line : LineAcc) : String :=
  signature appHint
    (regionBucket line.centroid.1 line.centroid.2 (max config.chromeRegionBuckets 1))
    line.normalized

/-- The middle of the line is in the interior of the rectangle. -/
def Interior (rect : Rect) (line : LineAcc) : Prop :=
  centroidInterior rect line.centroid.1 line.centroid.2 = true

/-- The signature was seen often enough. -/
def Learned (catalog : ChromeCatalog) (config : FilterConfig) (signature : String) : Prop :=
  max config.chromeSuppressMinSeen 1 ≤ catalog signature

variable {toLowercase : String → String} {spans : List TextSpan} {appHint : Option String}
  {catalog catalog₀ : ChromeCatalog} {config : FilterConfig} {input : ClassifyInput}
  {line : LineAcc} {rect : Rect}

theorem Alike.short {a b : LineAcc} (h : Alike a b) : Short config a ↔ Short config b := by
  unfold Short
  rw [h.normalized]

theorem Alike.lineSignature {a b : LineAcc} (h : Alike a b) :
    lineSignature appHint config a = lineSignature appHint config b := by
  unfold Attention.lineSignature LineAcc.centroid
  rw [h.normalized, h.x0, h.y0, h.x1, h.y1]

theorem Alike.bbox {a b : LineAcc} (h : Alike a b) : a.bbox = b.bbox := by
  unfold LineAcc.bbox
  rw [h.x0, h.y0, h.x1, h.y1]

/-- Words that are marked again, each in its place. -/
structure Places (mark : TextSpan → TextSpan) : Prop where
  remarks : Remarks mark
  x : ∀ span, (mark span).x = span.x
  y : ∀ span, (mark span).y = span.y
  w : ∀ span, (mark span).w = span.w
  h : ∀ span, (mark span).h = span.h

theorem lineAt_map (toLowercase : String → String) {mark : TextSpan → TextSpan}
    (hMark : Places mark) {index : Nat} (hIndex : index ∈ lineIndices spans) :
    Alike (lineAt toLowercase (spans.map mark) index) (lineAt toLowercase spans index) := by
  obtain ⟨first, rest, hLine⟩ := lineSpans_cons_of_mem hIndex
  have hMarked : lineSpans (spans.map mark) index = mark first :: rest.map mark := by
    rw [lineSpans_map hMark.remarks, hLine, List.map_cons]
  have hText : (mark first :: rest.map mark).map TextSpan.text =
      (first :: rest).map TextSpan.text := by
    rw [← List.map_cons, List.map_map]
    exact List.map_congr_left fun span _ => (hMark.remarks span).2
  rw [lineAt_of_lineSpans toLowercase hMarked, lineAt_of_lineSpans toLowercase hLine]
  unfold lineOf
  refine ⟨?_, ?_, ?_, ?_, ?_⟩
  · dsimp only
    rw [hText]
  all_goals
    dsimp only
    rw [← List.map_cons, List.map_map]
    congr 2
    refine List.map_congr_left fun span _ => ?_
  · exact hMark.x span
  · exact hMark.y span
  · exact congrArg₂ (· + ·) (hMark.x span) (hMark.w span)
  · exact congrArg₂ (· + ·) (hMark.y span) (hMark.h span)

theorem applyDecision_places (decisionOf : Nat → Decision) :
    Places fun span => applyDecision (decisionOf span.lineIndex) span :=
  ⟨applyDecision_remarks decisionOf, fun _ => rfl, fun _ => rfl, fun _ => rfl, fun _ => rfl⟩

theorem demoteWord_places (demoted : List Nat) : Places (demoteWord demoted) := by
  refine ⟨demoteWord_remarks demoted, ?_, ?_, ?_, ?_⟩
  all_goals
    intro span
    unfold demoteWord
    split <;> rfl

/-! ## The lines that are demoted -/

theorem newlyChrome_iff :
    newlyChrome appHint catalog config line = true ↔ keptRole line.role = true ∧
      Short config line ∧ Learned catalog config (lineSignature appHint config line) := by
  show (keptRole line.role && decide _ && decide _) = true ↔ _
  rw [Bool.and_eq_true, Bool.and_eq_true, decide_eq_true_eq, decide_eq_true_eq, and_assoc]
  exact Iff.rfl

theorem mem_demotedLines {index : Nat} (h : index ∈ lineIndices spans) :
    index ∈ demotedLines toLowercase spans appHint catalog config ↔
      lineKept spans index = true ∧ Short config (lineAt toLowercase spans index) ∧
        Learned catalog config (lineSignature appHint config (lineAt toLowercase spans index)) := by
  unfold demotedLines
  rw [List.mem_filter, newlyChrome_iff, lineAt_role toLowercase h]
  exact and_iff_right h

/-! ## The signatures that are counted -/

/-- A line at the edge of the window is a candidate. -/
theorem candidate_iff (hRect : input.targetRect = some rect) (config : FilterConfig)
    (line : LineAcc) :
    (candidate input config line).isSome = true ↔ Short config line ∧ ¬ Interior rect line := by
  unfold candidate Short Interior
  dsimp only
  rw [hRect, Option.bind_some]
  split
  · next h =>
    rw [Bool.and_eq_true, decide_eq_true_eq, Bool.not_eq_true'] at h
    exact ⟨fun _ => ⟨h.1, Bool.eq_false_iff.mp h.2⟩, fun _ => rfl⟩
  · next h =>
    refine ⟨fun hSome => (nomatch hSome), fun hEdge => absurd ?_ h⟩
    rw [Bool.and_eq_true, decide_eq_true_eq, Bool.not_eq_true']
    exact ⟨hEdge.1, Bool.eq_false_iff.mpr hEdge.2⟩

theorem candidate_signature {obs : ObservedSignature} (h : candidate input config line = some obs) :
    obs.signature = lineSignature input.targetAppHint config line := by
  unfold candidate at h
  obtain ⟨rect, -, hObs⟩ := Option.bind_eq_some_iff.mp h
  split at hObs
  · rw [← Option.some.inj hObs]
    rfl
  · cases hObs

/-- A short line in the window, at its edge, that is not the title. -/
structure EdgeLabel (toLowercase : String → String) (input : ClassifyInput) (config : FilterConfig)
    (rect : Rect) (line : LineAcc) : Prop where
  inside : ¬ Outside input line
  title : ¬ Titled toLowercase input line
  short : Short config line
  edge : ¬ Interior rect line

theorem decideLine_observed (hRect : input.targetRect = some rect) (catalog : ChromeCatalog)
    (config : FilterConfig) (line : LineAcc) (sig : String) :
    (∃ obs, (decideLine toLowercase input catalog config line).2 = some obs ∧ obs.signature = sig) ↔
      EdgeLabel toLowercase input config rect line ∧
        lineSignature input.targetAppHint config line = sig := by
  by_cases hSettled : Outside input line ∨ Titled toLowercase input line
  · rw [(decideLine_settled hSettled catalog catalog config).2.2]
    refine ⟨fun ⟨_, h, _⟩ => (nomatch h), fun ⟨h, _⟩ => absurd hSettled ?_⟩
    exact not_or.mpr ⟨h.inside, h.title⟩
  · obtain ⟨hInside, hTitle⟩ := not_or.mp hSettled
    rw [decideLine_open hInside hTitle]
    constructor
    · rintro ⟨obs, hObs, rfl⟩
      have hEdge := (candidate_iff hRect config line).mp (Option.isSome_of_eq_some hObs)
      exact ⟨⟨hInside, hTitle, hEdge.1, hEdge.2⟩, (candidate_signature hObs).symm⟩
    · rintro ⟨hEdge, hSig⟩
      obtain ⟨obs, hObs⟩ := Option.isSome_iff_exists.mp
        ((candidate_iff hRect config line).mpr ⟨hEdge.short, hEdge.edge⟩)
      exact ⟨obs, hObs, (candidate_signature hObs).trans hSig⟩

/-- Each signature is observed once a frame. -/
theorem any_dedupSignatures (observed : List ObservedSignature) (sig : String) :
    ((dedupSignatures observed).any fun obs => obs.signature == sig) =
      observed.any fun obs => obs.signature == sig := by
  unfold dedupSignatures
  -- what was kept so far stands for what was seen so far
  suffices hAcc : ∀ seen : List ObservedSignature,
      ((observed.foldl (fun seen obs =>
        if seen.any fun other => other.signature == obs.signature then seen else seen ++ [obs])
          seen).any fun obs => obs.signature == sig) =
        (seen.any (fun obs => obs.signature == sig) ||
          observed.any fun obs => obs.signature == sig) from hAcc []
  induction observed with
  | nil => exact fun seen => (Bool.or_false _).symm
  | cons obs rest ih =>
    intro seen
    rw [List.foldl_cons, ih, List.any_cons, ← Bool.or_assoc]
    congr 1
    split
    · next hSeen =>
      obtain ⟨other, hOther, hSame⟩ := List.any_eq_true.mp hSeen
      by_cases hSig : obs.signature = sig
      · rw [List.any_eq_true.mpr ⟨other, hOther, ?_⟩]
        · rfl
        · rw [beq_iff_eq.mp hSame, hSig]
          exact beq_self_eq_true sig
      · rw [beq_eq_false_iff_ne.mpr hSig, Bool.or_false]
    · rw [List.any_append, List.any_cons, List.any_nil, Bool.or_false]

/-- The catalog after the signatures of a frame were counted. -/
def counted (catalog : ChromeCatalog) (observed : List ObservedSignature) : ChromeCatalog :=
  fun sig => catalog sig + if observed.any fun obs => obs.signature == sig then 1 else 0

theorem any_observed (hRect : input.targetRect = some rect) (catalog : ChromeCatalog)
    (config : FilterConfig) (sig : String) :
    (((classify toLowercase input catalog config).observed).any
        fun obs => obs.signature == sig) = true ↔
      ∃ line ∈ groupLines toLowercase input.spans,
        EdgeLabel toLowercase input config rect line ∧
          lineSignature input.targetAppHint config line = sig := by
  show (dedupSignatures (List.filterMap _ (List.map _ (groupLines toLowercase input.spans)))).any _
    = true ↔ _
  rw [any_dedupSignatures, List.any_eq_true]
  constructor
  · rintro ⟨obs, hObs, hSig⟩
    obtain ⟨decided, hDecided, hSome⟩ := List.mem_filterMap.mp hObs
    obtain ⟨line, hLine, rfl⟩ := List.mem_map.mp hDecided
    exact ⟨line, hLine,
      (decideLine_observed hRect catalog config line sig).mp ⟨obs, hSome, beq_iff_eq.mp hSig⟩⟩
  · rintro ⟨line, hLine, hEdge⟩
    obtain ⟨obs, hSome, hSig⟩ := (decideLine_observed hRect catalog config line sig).mpr hEdge
    exact ⟨obs, List.mem_filterMap.mpr ⟨_, List.mem_map_of_mem hLine, hSome⟩, beq_iff_eq.mpr hSig⟩

/-! ## The agreement -/

/-- A short line in the interior of the window has a signature that was seen often enough, or
is with a label at the edge of the same frame. -/
structure Mistaken (toLowercase : String → String) (input : ClassifyInput) (catalog : ChromeCatalog)
    (config : FilterConfig) (rect : Rect) (line : LineAcc) : Prop where
  inside : ¬ Outside input line
  title : ¬ Titled toLowercase input line
  short : Short config line
  interior : Interior rect line
  learned : Learned catalog config (lineSignature input.targetAppHint config line) ∨
    (max config.chromeSuppressMinSeen 1 ≤
        catalog (lineSignature input.targetAppHint config line) + 1 ∧
      ∃ label ∈ groupLines toLowercase input.spans,
        EdgeLabel toLowercase input config rect label ∧
          lineSignature input.targetAppHint config label =
            lineSignature input.targetAppHint config line)

theorem learned_counted (hRect : input.targetRect = some rect) (catalog₀ catalog : ChromeCatalog)
    (config : FilterConfig) (sig : String) :
    Learned (counted catalog (classify toLowercase input catalog₀ config).observed) config sig ↔
      Learned catalog config sig ∨ (max config.chromeSuppressMinSeen 1 ≤ catalog sig + 1 ∧
        ∃ label ∈ groupLines toLowercase input.spans,
          EdgeLabel toLowercase input config rect label ∧
            lineSignature input.targetAppHint config label = sig) := by
  rw [← any_observed hRect catalog₀ config sig]
  unfold Learned counted
  split
  · next hSeen => exact ⟨fun h => .inr ⟨h, hSeen⟩, fun h => by omega⟩
  · next hUnseen =>
    exact ⟨fun h => .inl h, fun h => h.elim id fun hSeen => absurd hSeen.2 hUnseen⟩

/-- The lines of a stored frame that are demoted, by the frame as it was recognized. -/
theorem mem_demotedLines_stored (toLowercase : String → String) (catalog₀ catalog : ChromeCatalog)
    (config : FilterConfig) (appHint : Option String) {index : Nat}
    (h : index ∈ lineIndices input.spans) :
    index ∈ demotedLines toLowercase (classify toLowercase input catalog₀ config).spans
        appHint catalog config ↔
      keptRole (decisionAt toLowercase input catalog₀ config index).1 = true ∧
        Short config (lineAt toLowercase input.spans index) ∧
        Learned catalog config
          (lineSignature appHint config (lineAt toLowercase input.spans index)) := by
  have hPlaces := applyDecision_places (decisionAt toLowercase input catalog₀ config)
  have hAlike : Alike _ _ := lineAt_map toLowercase hPlaces h
  have hIndex := h
  rw [← lineIndices_map hPlaces.remarks] at hIndex
  rw [classify_spans, mem_demotedLines hIndex, lineKept_decided _ h, hAlike.short,
    hAlike.lineSignature]

/-- A line comes to the same on both ways unless it is mistaken for a label. -/
theorem role_agrees (hRect : input.targetRect = some rect)
    (hLe : ∀ sig, catalog₀ sig ≤ catalog sig) {index : Nat} (h : index ∈ lineIndices input.spans) :
    ((if index ∈ demotedLines toLowercase (classify toLowercase input catalog₀ config).spans
        input.targetAppHint
        (counted catalog (classify toLowercase input catalog₀ config).observed) config
      then TextRole.chrome else (decisionAt toLowercase input catalog₀ config index).1) =
        (decisionAt toLowercase input catalog config index).1) ↔
      ¬ Mistaken toLowercase input catalog config rect (lineAt toLowercase input.spans index) := by
  have hDemoted := mem_demotedLines_stored toLowercase catalog₀
    (counted catalog (classify toLowercase input catalog₀ config).observed) config
    input.targetAppHint h
  rw [learned_counted hRect] at hDemoted
  generalize demotedLines _ _ _ _ _ = demoted at hDemoted ⊢
  have hLine : lineAt toLowercase input.spans index ∈ groupLines toLowercase input.spans := by
    rw [groupLines_eq]
    exact List.mem_map_of_mem h
  unfold decisionAt at hDemoted ⊢
  generalize lineAt toLowercase input.spans index = line at hLine hDemoted ⊢
  by_cases hSettled : Outside input line ∨ Titled toLowercase input line
  · obtain ⟨hSame, hDropped, -⟩ := decideLine_settled hSettled catalog₀ catalog config
    rw [hDropped] at hDemoted
    rw [if_neg (fun hIn => Bool.false_ne_true (hDemoted.mp hIn).1), hSame]
    exact ⟨fun _ hMistaken => absurd hSettled (not_or.mpr ⟨hMistaken.inside, hMistaken.title⟩),
      fun _ => rfl⟩
  obtain ⟨hInside, hTitle⟩ := not_or.mp hSettled
  rcases hCandidate : candidate input config line with - | obs
  · -- the catalog is not asked about the line
    rw [decideLine_uncatalogued hCandidate hInside hTitle,
      decideLine_uncatalogued hCandidate hInside hTitle]
    have hNotEdge : ¬ (Short config line ∧ ¬ Interior rect line) := by
      rw [← candidate_iff hRect, hCandidate]
      exact Bool.false_ne_true
    rw [decideLine_uncatalogued hCandidate hInside hTitle] at hDemoted
    split
    · next hIn =>
      obtain ⟨-, hShort, hLearned⟩ := hDemoted.mp hIn
      have hInterior : Interior rect line := not_not.mp fun hEdge => hNotEdge ⟨hShort, hEdge⟩
      refine ⟨fun hSame => absurd (congrArg keptRole hSame) ?_, fun hNot => absurd
        ⟨hInside, hTitle, hShort, hInterior, hLearned⟩ hNot⟩
      rw [keptRole_keptDecision]
      exact Bool.false_ne_true
    · next hNotIn =>
      refine ⟨fun _ hMistaken => hNotIn (hDemoted.mpr ?_), fun _ => rfl⟩
      exact ⟨keptRole_keptDecision input, hMistaken.short, hMistaken.learned⟩
  · -- the line is a label at the edge, and counts for itself
    obtain ⟨hShort, hEdge⟩ :=
      (candidate_iff hRect config line).mp (Option.isSome_of_eq_some hCandidate)
    have hSig := candidate_signature hCandidate
    refine ⟨fun _ hMistaken => absurd hMistaken.interior hEdge, fun _ => ?_⟩
    rw [decideLine_open hInside hTitle, hCandidate, Option.any_some, hSig] at hDemoted
    rw [decideLine_open hInside hTitle, decideLine_open hInside hTitle, hCandidate,
      Option.any_some, Option.any_some, hSig]
    have hMore := hLe (lineSignature input.targetAppHint config line)
    by_cases hRepeats : max config.chromeSuppressMinSeen 1 ≤
        catalog (lineSignature input.targetAppHint config line) + 1
    · rw [if_pos (decide_eq_true hRepeats)]
      by_cases hBefore : max config.chromeSuppressMinSeen 1 ≤
          catalog₀ (lineSignature input.targetAppHint config line) + 1
      · rw [if_pos (decide_eq_true hBefore)]
        exact ite_self _
      · rw [if_neg (fun hTrue => hBefore (of_decide_eq_true hTrue))] at hDemoted
        rw [if_pos]
        · rfl
        · exact hDemoted.mpr ⟨keptRole_keptDecision input, hShort, .inr ⟨hRepeats, line, hLine,
            ⟨hInside, hTitle, hShort, hEdge⟩, rfl⟩⟩
    · have hBefore : ¬ max config.chromeSuppressMinSeen 1 ≤
          catalog₀ (lineSignature input.targetAppHint config line) + 1 := by omega
      rw [if_neg (fun hTrue => hRepeats (of_decide_eq_true hTrue)),
        if_neg (fun hTrue => hBefore (of_decide_eq_true hTrue)), if_neg]
      intro hIn
      obtain ⟨-, -, hLearned | hLearned⟩ := hDemoted.mp hIn
      · exact hRepeats (Nat.le_succ_of_le hLearned)
      · exact hRepeats hLearned.1

theorem demoteWord_role (demoted : List Nat) (span : TextSpan) :
    (demoteWord demoted span).role =
      if span.lineIndex ∈ demoted then .chrome else span.role := by
  unfold demoteWord
  by_cases hIn : span.lineIndex ∈ demoted
  · rw [if_pos (List.contains_iff_mem.mpr hIn), if_pos hIn]
    rfl
  · rw [if_neg (fun h => hIn (List.contains_iff_mem.mp h)), if_neg hIn]

theorem mem_zip_map {α β : Type} {f : α → β} {l : List α} {pair : α × β}
    (h : pair ∈ l.zip (l.map f)) : pair.1 ∈ l ∧ pair.2 = f pair.1 := by
  rw [List.zip, List.zipWith_map_right, List.zipWith_self] at h
  obtain ⟨a, hIn, rfl⟩ := List.mem_map.mp h
  exact ⟨hIn, rfl⟩

theorem not_settled_of_kept
    (h : keptRole (decideLine toLowercase input catalog config line).1.1 = true) :
    ¬ (Outside input line ∨ Titled toLowercase input line) := by
  intro hSettled
  rw [(decideLine_settled hSettled catalog catalog config).2.1] at h
  exact Bool.false_ne_true h

/-- A stored frame that is reconciled comes to what classifying it anew would, and no line in
the interior of the window is demoted. -/
structure Agrees (toLowercase : String → String) (input : ClassifyInput) (rect : Rect)
    (stored reconciled warm : ClassifyOutput) : Prop where
  roles : reconciled.spans.map TextSpan.role = warm.spans.map TextSpan.role
  contentText : reconciled.contentText = warm.contentText
  interior : ∀ pair ∈ stored.spans.zip reconciled.spans,
    Interior rect (lineAt toLowercase input.spans pair.1.lineIndex) → pair.2.role = pair.1.role

/-- A window that fills the frame: the label `File` at its top edge, and the same word as the
first line of the body, in the same cell of the grid. -/
def fileMenu : ClassifyInput where
  spans :=
    [⟨"File", "file", .ocr, .unknown, 7 / 100, 1 / 100, 2 / 100, 2 / 100, 0, true, none⟩,
      ⟨"File", "file", .ocr, .unknown, 7 / 100, 8 / 100, 2 / 100, 2 / 100, 1, true, none⟩]
  targetRect := some (0, 0, 1, 1)
  targetWindowTitle := some "Report"
  targetAppHint := some "editor"

def shippedThresholds : FilterConfig := ⟨4, 48, 8⟩

/-- The label was seen in three earlier frames. -/
def menuCatalog : ChromeCatalog := fun sig =>
  if sig = signature (some "editor") "0,0" "file" then 3 else 0

end ScreenSearch.Attention
