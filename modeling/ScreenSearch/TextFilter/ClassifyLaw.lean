import ScreenSearch.TextFilter.KeptText

/-!
# What classifying a frame promises

A line is decided once, by five rules in order, and the decision is then applied to its words
and to the content text in passes of their own. The rules that go by place need the rectangle
of the focused window. So does the one that goes by repetition; the one that goes by the
title does not.

Main results:

* `decideLine_ruled` — which rule decides a line;
* `classify_law_iff` — the outputs agree always, and without a rectangle nothing is suppressed
  exactly if no line echoes the title.
-/

namespace ScreenSearch.Attention

/-! ## The rules -/

/-- Less than half of the line lies in the focused window. -/
def Outside (input : ClassifyInput) (line : LineAcc) : Prop :=
  ∃ rect, input.targetRect = some rect ∧ insideFraction line.bbox rect < insideMinFraction

/-- The line echoes the title of the window. -/
def Titled (toLowercase : String → String) (input : ClassifyInput) (line : LineAcc) : Prop :=
  ∃ title, input.targetWindowTitle = some title ∧ normalizeText toLowercase title ≠ "" ∧
    line.normalized = normalizeText toLowercase title

/-- With this appearance the signature was seen often enough. -/
def Repeats (catalog : ChromeCatalog) (config : FilterConfig) (obs : ObservedSignature) : Prop :=
  max config.chromeSuppressMinSeen 1 ≤ catalog obs.signature + 1

variable {toLowercase : String → String} {input : ClassifyInput} {catalog : ChromeCatalog}
  {config : FilterConfig} {line : LineAcc}

theorem outside_iff :
    (input.targetRect.isSome && decide ((input.targetRect.map (insideFraction line.bbox)).getD 0 <
      insideMinFraction)) = true ↔ Outside input line := by
  unfold Outside
  rcases input.targetRect with - | rect
  · exact ⟨fun h => (nomatch h), fun ⟨_, hRect, _⟩ => (nomatch hRect)⟩
  · rw [Option.isSome_some, Bool.true_and, decide_eq_true_eq]
    exact ⟨fun h => ⟨rect, rfl, h⟩, fun ⟨_, hRect, hLess⟩ => Option.some.inj hRect ▸ hLess⟩

theorem titled_iff :
    ((input.targetWindowTitle.map (normalizeText toLowercase)).filter fun t => !t.isEmpty) =
      some line.normalized ↔ Titled toLowercase input line := by
  unfold Titled
  rw [Option.filter_eq_some_iff]
  constructor
  · rintro ⟨hTitle, hFull⟩
    obtain ⟨title, hTitle, hSame⟩ := Option.map_eq_some_iff.mp hTitle
    refine ⟨title, hTitle, ?_, hSame.symm⟩
    rw [hSame]
    intro hEmpty
    rw [hEmpty] at hFull
    exact absurd hFull (by decide)
  · rintro ⟨title, hTitle, hFull, hSame⟩
    refine ⟨by rw [hTitle, hSame]; rfl, ?_⟩
    rw [hSame, Bool.not_eq_true', Bool.eq_false_iff]
    exact fun hEmpty => hFull (String.isEmpty_iff.mp hEmpty)

theorem repeats_iff (observed : Option ObservedSignature) :
    (observed.any fun obs => decide (catalog obs.signature + 1 ≥
      max config.chromeSuppressMinSeen 1)) = true ↔ ∃ obs, observed = some obs ∧
        Repeats catalog config obs := by
  rw [Option.any_eq_true]
  exact exists_congr fun obs => and_congr_right fun _ => decide_eq_true_iff

/-- The decision about a line that nothing speaks against. -/
def keptDecision (input : ClassifyInput) : Decision :=
  (if input.targetRect.isSome then .content else .unknown, none)

theorem keptRole_keptDecision (input : ClassifyInput) : keptRole (keptDecision input).1 = true := by
  unfold keptDecision
  dsimp only
  split <;> rfl

/-- The decision about a line that is static chrome. -/
def chromeDecision : Decision := (.chrome, some .staticChrome)

/-- The rule that decides a line, and what it decides and observes. -/
inductive Ruled (toLowercase : String → String) (input : ClassifyInput) (catalog : ChromeCatalog)
    (config : FilterConfig) (line : LineAcc) : Decision × Option ObservedSignature → Prop
  | system (hOutside : Outside input line) :
    Ruled toLowercase input catalog config line ((.system, some .systemUi), none)
  | background (hOutside : Outside input line) :
    Ruled toLowercase input catalog config line ((.background, some .backgroundWindow), none)
  | title (hInside : ¬ Outside input line) (hTitle : Titled toLowercase input line) :
    Ruled toLowercase input catalog config line (chromeDecision, none)
  | repeated (hInside : ¬ Outside input line) (hTitle : ¬ Titled toLowercase input line)
    (obs : ObservedSignature) (hObserved : candidate input config line = some obs)
    (hRepeats : Repeats catalog config obs) :
    Ruled toLowercase input catalog config line (chromeDecision, some obs)
  | kept (hInside : ¬ Outside input line) (hTitle : ¬ Titled toLowercase input line)
    (hRare : ∀ obs, candidate input config line = some obs → ¬ Repeats catalog config obs) :
    Ruled toLowercase input catalog config line (keptDecision input, candidate input config line)

theorem decideLine_ruled (toLowercase : String → String) (input : ClassifyInput)
    (catalog : ChromeCatalog) (config : FilterConfig) (line : LineAcc) :
    Ruled toLowercase input catalog config line
      (decideLine toLowercase input catalog config line) := by
  unfold decideLine
  dsimp only
  split
  · next hSystem => exact .system (outside_iff.mp (Bool.and_eq_true_iff.mp hSystem).2)
  split
  · next hOutside => exact .background (outside_iff.mp hOutside)
  next hInside =>
  rw [outside_iff] at hInside
  split
  · next hTitle => exact .title hInside (titled_iff.mp hTitle)
  next hTitle =>
  rw [titled_iff] at hTitle
  split
  · next hRepeats =>
    obtain ⟨obs, hObserved, hOften⟩ := (repeats_iff _).mp hRepeats
    rw [hObserved]
    exact .repeated hInside hTitle obs hObserved hOften
  · next hRepeats =>
    exact .kept hInside hTitle fun obs hObserved hOften =>
      hRepeats ((repeats_iff _).mpr ⟨obs, hObserved, hOften⟩)

/-- A line that is kept is given no reason, and only such a line. -/
theorem decideLine_reason (toLowercase : String → String) (input : ClassifyInput)
    (catalog : ChromeCatalog) (config : FilterConfig) (line : LineAcc) :
    (decideLine toLowercase input catalog config line).1.2.isSome =
      !keptRole (decideLine toLowercase input catalog config line).1.1 := by
  have hRuled := decideLine_ruled toLowercase input catalog config line
  generalize decideLine toLowercase input catalog config line = decided at hRuled ⊢
  cases hRuled with
  | system | background | title | repeated => rfl
  | kept =>
    rw [keptRole_keptDecision]
    rfl

/-- What the first rules decide they decide with every catalog, and it is not to keep the line. -/
theorem decideLine_settled (h : Outside input line ∨ Titled toLowercase input line)
    (catalog catalog' : ChromeCatalog) (config : FilterConfig) :
    decideLine toLowercase input catalog config line =
        decideLine toLowercase input catalog' config line ∧
      keptRole (decideLine toLowercase input catalog config line).1.1 = false ∧
      (decideLine toLowercase input catalog config line).2 = none := by
  unfold decideLine
  dsimp only
  split
  · exact ⟨rfl, rfl, rfl⟩
  split
  · exact ⟨rfl, rfl, rfl⟩
  next hInside =>
  split
  · exact ⟨rfl, rfl, rfl⟩
  next hTitle =>
  rw [outside_iff] at hInside
  rw [titled_iff] at hTitle
  exact absurd h (not_or.mpr ⟨hInside, hTitle⟩)

/-- A line in the window that is not the title is kept unless its signature repeats. -/
theorem decideLine_open (hInside : ¬ Outside input line) (hTitle : ¬ Titled toLowercase input line)
    (catalog : ChromeCatalog) (config : FilterConfig) :
    decideLine toLowercase input catalog config line =
      (if (candidate input config line).any fun obs =>
          decide (catalog obs.signature + 1 ≥ max config.chromeSuppressMinSeen 1) then
        chromeDecision else keptDecision input, candidate input config line) := by
  have hRuled := decideLine_ruled toLowercase input catalog config line
  generalize decideLine toLowercase input catalog config line = decided at hRuled ⊢
  cases hRuled with
  | system hOutside | background hOutside => exact absurd hOutside hInside
  | title _ h => exact absurd h hTitle
  | repeated _ _ obs hObserved hRepeats =>
    rw [if_pos ((repeats_iff _).mpr ⟨obs, hObserved, hRepeats⟩), hObserved]
  | kept _ _ hRare =>
    rw [if_neg]
    intro hAny
    obtain ⟨obs, hObserved, hRepeats⟩ := (repeats_iff _).mp hAny
    exact hRare obs hObserved hRepeats

theorem decideLine_uncatalogued (hNone : candidate input config line = none)
    (hInside : ¬ Outside input line) (hTitle : ¬ Titled toLowercase input line)
    (catalog : ChromeCatalog) :
    decideLine toLowercase input catalog config line = (keptDecision input, none) := by
  rw [decideLine_open hInside hTitle, hNone]
  rfl

/-- A long line in the window that is not the title is kept. -/
theorem decideLine_protected (hLong : config.chromeProtectMinChars ≤ line.normalized.length)
    (hInside : ¬ Outside input line) (hTitle : ¬ Titled toLowercase input line) :
    decideLine toLowercase input catalog config line = (keptDecision input, none) := by
  refine decideLine_uncatalogued ?_ hInside hTitle catalog
  unfold candidate
  dsimp only
  rcases input.targetRect with - | rect
  · rfl
  · rw [Option.bind_some, if_neg]
    rw [Bool.and_eq_true, decide_eq_true_eq]
    exact fun h => absurd h.1 (by omega)

/-- Without a rectangle only the title decides. -/
theorem decideLine_unplaced (hRect : input.targetRect = none) (catalog : ChromeCatalog)
    (config : FilterConfig) (line : LineAcc) :
    (keptRole (decideLine toLowercase input catalog config line).1.1 = true ↔
      ¬ Titled toLowercase input line) ∧
      (decideLine toLowercase input catalog config line).2 = none := by
  have hNone : candidate input config line = none := by
    unfold candidate
    rw [hRect]
    rfl
  have hInside : ¬ Outside input line := fun ⟨rect, h, _⟩ => (nomatch hRect.symm.trans h)
  by_cases hTitle : Titled toLowercase input line
  · obtain ⟨-, hDropped, hUnseen⟩ := decideLine_settled (.inr hTitle) catalog catalog config
    rw [hDropped]
    exact ⟨⟨fun h => (nomatch h), fun h => absurd hTitle h⟩, hUnseen⟩
  · rw [decideLine_uncatalogued hNone hInside hTitle]
    exact ⟨⟨fun _ => hTitle, fun _ => keptRole_keptDecision input⟩, rfl⟩

/-! ## The outputs -/

/-- The outputs for a frame agree with each other, and a long line in the window that is not the
title is kept. -/
structure ClassifyLaw (toLowercase : String → String) (input : ClassifyInput)
    (config : FilterConfig) (out : ClassifyOutput) : Prop where
  words : out.spans.map (fun s => (s.text, s.lineIndex)) =
    input.spans.map fun s => (s.text, s.lineIndex)
  contentText : out.contentText = keptText out.spans
  suppressedCount : out.suppressedCount = out.spans.countP fun s => !keptRole s.role
  searchable : ∀ span ∈ out.spans,
    (span.isSearchable = true ↔ span.role = .content ∨ span.role = .unknown)
  reason : ∀ span ∈ out.spans, (span.suppressReason.isSome = true ↔ ¬ span.isSearchable = true)
  oneRole : ∀ span ∈ out.spans, ∀ other ∈ out.spans,
    span.lineIndex = other.lineIndex → span.role = other.role
  protects : ∀ line ∈ groupLines toLowercase input.spans, ∀ rect,
    config.chromeProtectMinChars ≤ line.normalized.length → input.targetRect = some rect →
    insideMinFraction ≤ insideFraction line.bbox rect → ¬ Titled toLowercase input line →
    ∀ span ∈ out.spans, span.lineIndex = line.index → span.isSearchable = true

/-- Every word is kept. -/
structure KeepsAll (input : ClassifyInput) (out : ClassifyOutput) : Prop where
  searchable : ∀ span ∈ out.spans, span.isSearchable = true
  suppressedCount : out.suppressedCount = 0
  observed : out.observed = []
  contentText : out.contentText =
    "\n".intercalate ((lineIndices input.spans).map (lineText input.spans))

theorem keptRole_iff (role : TextRole) :
    keptRole role = true ↔ role = .content ∨ role = .unknown := by
  unfold keptRole
  rw [Bool.or_eq_true, beq_iff_eq, beq_iff_eq]

/-- A span of the output is one of the input, with the decision about its line. -/
theorem mem_classify {span : TextSpan}
    (h : span ∈ (classify toLowercase input catalog config).spans) :
    ∃ old ∈ input.spans, span =
      applyDecision (decisionAt toLowercase input catalog config old.lineIndex) old := by
  rw [classify_spans] at h
  obtain ⟨old, hOld, rfl⟩ := List.mem_map.mp h
  exact ⟨old, hOld, rfl⟩

theorem classify_law (toLowercase : String → String) (input : ClassifyInput)
    (catalog : ChromeCatalog) (config : FilterConfig) :
    ClassifyLaw toLowercase input config (classify toLowercase input catalog config) where
  words := by
    rw [classify_spans, List.map_map]
    rfl
  contentText := (classify_keptText toLowercase input catalog config).symm
  suppressedCount := by
    refine List.countP_congr fun span hSpan => ?_
    obtain ⟨old, -, rfl⟩ := mem_classify hSpan
    exact Iff.rfl
  searchable := by
    intro span hSpan
    obtain ⟨old, -, rfl⟩ := mem_classify hSpan
    exact keptRole_iff _
  reason := by
    intro span hSpan
    obtain ⟨old, -, rfl⟩ := mem_classify hSpan
    show Option.isSome (decisionAt toLowercase input catalog config old.lineIndex).2 = true ↔
      ¬ keptRole (decisionAt toLowercase input catalog config old.lineIndex).1 = true
    unfold decisionAt
    rw [decideLine_reason, Bool.not_eq_true', Bool.not_eq_true]
  oneRole := by
    intro span hSpan other hOther hLine
    obtain ⟨old, -, rfl⟩ := mem_classify hSpan
    obtain ⟨old', -, rfl⟩ := mem_classify hOther
    show (decisionAt toLowercase input catalog config old.lineIndex).1 =
      (decisionAt toLowercase input catalog config old'.lineIndex).1
    rw [show old.lineIndex = old'.lineIndex from hLine]
  protects := by
    intro line hLine rect hLong hRect hHalf hTitle span hSpan hIndex
    obtain ⟨old, hOld, rfl⟩ := mem_classify hSpan
    rw [groupLines_eq] at hLine
    obtain ⟨index, hIn, rfl⟩ := List.mem_map.mp hLine
    rw [lineAt_index toLowercase hIn] at hIndex
    have hInside : ¬ Outside input (lineAt toLowercase input.spans index) := by
      rintro ⟨other, hOther, hLess⟩
      rw [hRect] at hOther
      cases hOther
      exact absurd hHalf (not_le.mpr hLess)
    show keptRole (decisionAt toLowercase input catalog config old.lineIndex).1 = true
    unfold decisionAt
    rw [show old.lineIndex = index from hIndex, decideLine_protected hLong hInside hTitle]
    exact keptRole_keptDecision input

theorem classify_unplaced (hRect : input.targetRect = none) (catalog : ChromeCatalog)
    (config : FilterConfig) :
    KeepsAll input (classify toLowercase input catalog config) ↔
      ∀ line ∈ groupLines toLowercase input.spans, ¬ Titled toLowercase input line := by
  have hDecided (index : Nat) :
      keptRole (decisionAt toLowercase input catalog config index).1 = true ↔
        ¬ Titled toLowercase input (lineAt toLowercase input.spans index) :=
    (decideLine_unplaced hRect catalog config _).1
  rw [groupLines_eq]
  constructor
  · intro h line hLine
    obtain ⟨index, hIndex, rfl⟩ := List.mem_map.mp hLine
    obtain ⟨span, hSpan, rfl⟩ := mem_lineIndices.mp hIndex
    rw [← hDecided]
    refine h.searchable (applyDecision _ span) ?_
    rw [classify_spans]
    exact List.mem_map_of_mem hSpan
  · intro h
    have hKept : ∀ index ∈ lineIndices input.spans,
        keptRole (decisionAt toLowercase input catalog config index).1 = true :=
      fun index hIndex => (hDecided index).mpr (h _ (List.mem_map_of_mem hIndex))
    have hAll : ∀ span ∈ (classify toLowercase input catalog config).spans,
        span.isSearchable = true := by
      intro span hSpan
      obtain ⟨old, hOld, rfl⟩ := mem_classify hSpan
      exact hKept old.lineIndex (mem_lineIndices.mpr ⟨old, hOld, rfl⟩)
    refine ⟨hAll, ?_, ?_, ?_⟩
    · refine List.countP_eq_zero.mpr fun span hSpan => ?_
      rw [hAll span hSpan]
      exact Bool.false_ne_true
    · show dedupSignatures (List.filterMap _ (List.map _ (groupLines toLowercase input.spans))) = []
      rw [List.filterMap_map, List.filterMap_eq_nil_iff.mpr]
      · rfl
      · exact fun line _ => (decideLine_unplaced hRect catalog config line).2
    · rw [classify_contentText, List.filter_eq_self.mpr hKept]

/-- The outputs agree, and without a rectangle everything is kept, exactly if without a
rectangle no line echoes the title. -/
theorem classify_law_iff (toLowercase : String → String) (input : ClassifyInput)
    (catalog : ChromeCatalog) (config : FilterConfig) :
    (ClassifyLaw toLowercase input config (classify toLowercase input catalog config) ∧
      (input.targetRect = none → KeepsAll input (classify toLowercase input catalog config))) ↔
      (input.targetRect = none →
        ∀ line ∈ groupLines toLowercase input.spans, ¬ Titled toLowercase input line) := by
  constructor
  · intro h hRect
    exact (classify_unplaced hRect catalog config).mp (h.2 hRect)
  · intro h
    exact ⟨classify_law toLowercase input catalog config,
      fun hRect => (classify_unplaced hRect catalog config).mpr (h hRect)⟩

/-! ## The title without a rectangle -/

/-- A window that cannot be placed, and that shows the one word that it is called by. -/
def notesWindow : ClassifyInput where
  spans := [⟨"Notes", "notes", .ocr, .unknown, 1 / 10, 1 / 2, 1 / 10, 1 / 50, 0, true, none⟩]
  targetRect := none
  targetWindowTitle := some "Notes"
  targetAppHint := some "notes.exe"

/-- The word is suppressed although there is no rectangle. -/
theorem title_suppressed_unplaced :
    notesWindow.targetRect = none ∧
      ¬ KeepsAll notesWindow
        (classify Text.toAsciiLowercase notesWindow (fun _ => 0) ⟨4, 48, 8⟩) := by
  refine ⟨rfl, fun h => ?_⟩
  have hCount := h.suppressedCount
  revert hCount
  decide +kernel

end ScreenSearch.Attention
