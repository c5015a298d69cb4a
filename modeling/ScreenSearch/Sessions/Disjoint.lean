import ScreenSearch.Sessions.Bounds

/-!
# Drafts of one partition

Two drafts of one partition never overlap. The last pass would see to it that they
do not, but the walk and the bands have seen to it already: the pass changes the
drafts only when one of a single instant is sorted behind a longer one that begins
at that instant.

Main results:

* `enforceNonOverlapPerTrack_apart` — after the last pass no drafts overlap;
* `sortDrafts_apart_iff` — exactly when they do not overlap before it;
* `segment_disjoint` — drafts in order, no two of one partition overlapping, and
  exactly when the last pass changes one.
-/

namespace ScreenSearch.Sessions

open Assoc Sorting

/-- The first of two drafts of one partition ends before the second begins. -/
def EndsBefore (d e : SessionDraft) : Prop :=
  trackPartition d = trackPartition e → d.endedAt ≤ e.startedAt

/-- Drafts of one partition do not overlap. -/
def SideBySide (d e : SessionDraft) : Prop :=
  trackPartition d = trackPartition e → d.endedAt ≤ e.startedAt ∨ e.endedAt ≤ d.startedAt

theorem EndsBefore.sideBySide {d e : SessionDraft} (h : EndsBefore d e) : SideBySide d e :=
  fun hSame => Or.inl (h hSame)

theorem SideBySide.symm {d e : SessionDraft} (h : SideBySide d e) : SideBySide e d :=
  fun hSame => (h hSame.symm).symm

/-! ## The last pass -/

/-- The drafts the pass has written, and the last end of every partition. -/
structure Trimmed (state : HashMap Int × List SessionDraft) : Prop where
  ordered : ∀ draft ∈ state.2, draft.startedAt ≤ draft.endedAt
  apart : state.2.Pairwise EndsBefore
  last : ∀ draft ∈ state.2, ∃ ending, state.1.lookup (trackPartition draft) = some ending ∧
    draft.endedAt ≤ ending

theorem pushBehind_partition (previous : Option Int) (draft : SessionDraft) :
    trackPartition (pushBehind previous draft) = trackPartition draft := by
  unfold pushBehind
  split
  · split
    · rfl
    · rfl
  · rfl

theorem pushBehind_ordered {draft : SessionDraft} (h : draft.startedAt ≤ draft.endedAt)
    (previous : Option Int) :
    (pushBehind previous draft).startedAt ≤ (pushBehind previous draft).endedAt := by
  unfold pushBehind
  split
  · split
    · exact le_max_right _ _
    · exact h
  · exact h

theorem Trimmed.step {state : HashMap Int × List SessionDraft} (h : Trimmed state)
    {draft : SessionDraft} (hDraft : draft.startedAt ≤ draft.endedAt) :
    Trimmed (trimOverlap state draft) := by
  set pushed := pushBehind (state.1.lookup (trackPartition draft)) draft with hPushed
  have hStep : trimOverlap state draft =
      (state.1.insert (trackPartition draft) pushed.endedAt, state.2 ++ [pushed]) := rfl
  have hPartition : trackPartition pushed = trackPartition draft := pushBehind_partition _ _
  have hOrdered : pushed.startedAt ≤ pushed.endedAt := pushBehind_ordered hDraft _
  have hBehind := (pushBehind_ends hDraft (state.1.lookup (trackPartition draft))).2
  rw [← hPushed] at hBehind
  rw [hStep]
  refine ⟨?_, ?_, ?_⟩
  · intro d hd
    rcases List.mem_append.mp hd with hIn | hNew
    · exact h.ordered d hIn
    · rw [List.mem_singleton.mp hNew]
      exact hOrdered
  · refine List.pairwise_append.mpr ⟨h.apart, List.pairwise_singleton _ _, ?_⟩
    intro d hd e he hSame
    rw [List.mem_singleton.mp he] at hSame ⊢
    obtain ⟨ending, hLookup, hLe⟩ := h.last d hd
    rw [hSame, hPartition] at hLookup
    exact hLe.trans (hBehind ending hLookup).1
  · intro d hd
    dsimp only
    rcases List.mem_append.mp hd with hIn | hNew
    · obtain ⟨ending, hLookup, hLe⟩ := h.last d hIn
      by_cases heq : trackPartition d = trackPartition draft
      · rw [heq, AList.lookup_insert]
        rw [heq] at hLookup
        exact ⟨_, rfl, hLe.trans (hBehind ending hLookup).2⟩
      · rw [AList.lookup_insert_ne heq]
        exact ⟨ending, hLookup, hLe⟩
    · rw [List.mem_singleton.mp hNew, hPartition, AList.lookup_insert]
      exact ⟨_, rfl, le_rfl⟩

/-- After the pass the drafts of one partition follow one another. -/
theorem enforceNonOverlapPerTrack_apart {drafts : List SessionDraft}
    (hOrdered : ∀ draft ∈ drafts, draft.startedAt ≤ draft.endedAt) :
    (∀ draft ∈ enforceNonOverlapPerTrack drafts, draft.startedAt ≤ draft.endedAt) ∧
      (enforceNonOverlapPerTrack drafts).Pairwise EndsBefore := by
  have hRun : ∀ (rest : List SessionDraft) (state : HashMap Int × List SessionDraft),
      Trimmed state → (∀ draft ∈ rest, draft.startedAt ≤ draft.endedAt) →
      Trimmed (rest.foldl trimOverlap state) := by
    intro rest
    induction rest with
    | nil => exact fun _ h _ => h
    | cons draft rest ih =>
      intro state h hRest
      exact ih _ (h.step (hRest draft (List.mem_cons_self ..)))
        fun d hd => hRest d (List.mem_cons_of_mem _ hd)
  have hEmpty : Trimmed (∅, []) := ⟨by simp, List.Pairwise.nil, by simp⟩
  have hTrimmed := hRun drafts _ hEmpty hOrdered
  exact ⟨hTrimmed.ordered, hTrimmed.apart⟩

/-- The pass leaves exactly the drafts that do not need it. -/
theorem enforceNonOverlapPerTrack_eq_self_iff {drafts : List SessionDraft}
    (hOrdered : ∀ draft ∈ drafts, draft.startedAt ≤ draft.endedAt) :
    enforceNonOverlapPerTrack drafts = drafts ↔ drafts.Pairwise EndsBefore := by
  constructor
  · intro hSame
    rw [← hSame]
    exact (enforceNonOverlapPerTrack_apart hOrdered).2
  · intro hApart
    unfold enforceNonOverlapPerTrack
    rw [foldl_trimOverlap_unchanged (by simp) hApart]
    rfl

/-! ## The sort -/

/-- What the sort makes of drafts that do not overlap: where neither the start nor the
first frame tells two of one partition apart, the key does not, and their order stays. -/
structure Sortable (drafts : List SessionDraft) : Prop where
  ordered : ∀ draft ∈ drafts, draft.startedAt ≤ draft.endedAt
  side : drafts.Pairwise SideBySide
  key : drafts.Pairwise fun d e => trackPartition d = trackPartition e →
    firstFrame d = firstFrame e → d.contextKey = e.contextKey
  stable : drafts.Pairwise fun d e => draftKey d = draftKey e → EndsBefore d e

/-- Sorted drafts follow one another exactly when none is overtaken. -/
theorem sortDrafts_apart_iff {drafts : List SessionDraft} (h : Sortable drafts) :
    (sortDrafts drafts).Pairwise EndsBefore ↔ NoneOvertaken drafts := by
  have hPerm : (sortDrafts drafts).Perm drafts := sortByKey_perm _ drafts
  have hSorted := sortDrafts_sorted drafts
  constructor
  · intro hApart e he d hd hOver
    have hLonger := hOver.longer
    have hInstant := hOver.instant
    have hKey : draftKey e < draftKey d :=
      (Prod.Lex.lt_iff ..).mpr (Or.inr ⟨hOver.start, (Prod.Lex.lt_iff ..).mpr (Or.inl hOver.first)⟩)
    have hBoth : (sortDrafts drafts).Pairwise fun a b =>
        (EndsBefore a b ∧ draftKey a ≤ draftKey b) ∨ (EndsBefore b a ∧ draftKey b ≤ draftKey a) :=
      (hApart.and hSorted).imp Or.inl
    have : Std.Symm fun a b : SessionDraft =>
        (EndsBefore a b ∧ draftKey a ≤ draftKey b) ∨ (EndsBefore b a ∧ draftKey b ≤ draftKey a) :=
      ⟨fun _ _ => Or.symm⟩
    have hNe : e ≠ d := fun heq => absurd hKey (by rw [heq]; exact lt_irrefl _)
    rcases hBoth.forall (hPerm.mem_iff.mpr he) (hPerm.mem_iff.mpr hd) hNe with hBefore | hAfter
    · have hEnds := hBefore.1 hOver.partition
      omega
    · exact absurd hKey (not_lt_of_ge hAfter.2)
  · intro hNone
    have hSide := hPerm.symm.pairwise h.side SideBySide.symm
    have hKeys := hPerm.symm.pairwise h.key fun hKey hSame hFirst =>
      (hKey hSame.symm hFirst.symm).symm
    have hStable := sortByKey_stable draftKey h.stable
    refine (((hSide.and hKeys).and hSorted).and hStable).imp_of_mem ?_
    rintro d e hd he ⟨⟨⟨hSide, hKeys⟩, hLe⟩, hStable⟩ hSame
    rcases hSide hSame with hBefore | hAfter
    · exact hBefore
    · rcases eq_or_lt_of_le hLe with hEq | hLt
      · exact hStable hEq hSame
      · by_contra hOverlap
        have hOrderedD := h.ordered d (hPerm.subset hd)
        have hOrderedE := h.ordered e (hPerm.subset he)
        -- the second is an instant at the start of the first
        rcases (Prod.Lex.lt_iff ..).mp hLt with hStart | ⟨hStart, hRest⟩
        · have : d.startedAt < e.startedAt := hStart
          omega
        · have hStart : d.startedAt = e.startedAt := hStart
          rcases (Prod.Lex.lt_iff ..).mp hRest with hFirst | ⟨hFirst, hContext⟩
          · exact hNone d (hPerm.subset hd) e (hPerm.subset he)
              ⟨hSame, by omega, hStart, by omega, hFirst⟩
          · have hContext : d.contextKey < e.contextKey := hContext
            rw [hKeys hSame hFirst] at hContext
            exact lt_irrefl _ hContext

/-! ## Bands -/

variable {order : HashOrder} {params : SegmentationParams} {micros : List MicroSpan}
  {frames : List SegmenterFrame}

/-- The bands of sections of a meeting's spans. -/
def bandsOfSections (params : SegmentationParams) (id : String)
    (sections : List (List MicroSpan)) : List Band :=
  sections.flatMap fun chain => pushBandIfQualified chain id params []

theorem bandsOfSections_push (chain : List MicroSpan) (id : String)
    (sections : List (List MicroSpan)) :
    pushBandIfQualified chain id params (bandsOfSections params id sections) =
      bandsOfSections params id (sections ++ [chain]) := by
  have h := pushBandIfQualified_append chain id params (bandsOfSections params id sections) []
  rw [List.append_nil] at h
  rw [h]
  unfold bandsOfSections
  rw [List.flatMap_append, List.flatMap_singleton]

theorem chainSpan_sections (id : String) (sections : List (List MicroSpan))
    (chain : List MicroSpan) (span : MicroSpan) :
    ∃ sections' chain', chainSpan id params (chain, bandsOfSections params id sections) span =
        (chain', bandsOfSections params id sections') ∧
      sections'.flatten ++ chain' = sections.flatten ++ chain ++ [span] := by
  unfold chainSpan
  dsimp only
  split
  · split
    · refine ⟨sections ++ [chain], [span], ?_, ?_⟩
      · rw [bandsOfSections_push]
      · rw [List.flatten_append, List.flatten_singleton]
    · exact ⟨sections, chain ++ [span], rfl, (List.append_assoc ..).symm⟩
  · exact ⟨sections, chain ++ [span], rfl, (List.append_assoc ..).symm⟩

/-- The spans of a meeting fall into consecutive sections, each of which may make a band. -/
theorem bandsFor_sections (params : SegmentationParams) (id : String) (spans : List MicroSpan) :
    ∃ sections : List (List MicroSpan), sections.flatten = spans ∧
      bandsFor params id spans = bandsOfSections params id sections := by
  have hRun : ∀ (rest chain : List MicroSpan) (sections : List (List MicroSpan)),
      ∃ (sections' : List (List MicroSpan)) (chain' : List MicroSpan),
        rest.foldl (chainSpan id params) (chain, bandsOfSections params id sections) =
          (chain', bandsOfSections params id sections') ∧
        sections'.flatten ++ chain' = sections.flatten ++ chain ++ rest := by
    intro rest
    induction rest with
    | nil => exact fun chain sections => ⟨sections, chain, rfl, (List.append_nil _).symm⟩
    | cons span rest ih =>
      intro chain sections
      obtain ⟨sections', chain', hStep, hRead⟩ := chainSpan_sections id sections chain span
      obtain ⟨sections'', chain'', hRest, hAll⟩ := ih chain' sections'
      refine ⟨sections'', chain'', ?_, ?_⟩
      · rw [List.foldl_cons, hStep, hRest]
      · rw [hAll, hRead, List.append_assoc, List.singleton_append]
  obtain ⟨sections, chain, hFold, hRead⟩ := hRun spans [] []
  refine ⟨sections ++ [chain], ?_, ?_⟩
  · rw [List.flatten_append, List.flatten_singleton, hRead]
    rfl
  · have hFold : spans.foldl (chainSpan id params) ([], []) =
        (chain, bandsOfSections params id sections) := hFold
    rw [bandsFor, bandsOfMeeting]
    dsimp only
    rw [hFold, bandsOfSections_push]

/-- A band goes from its first span to its last. -/
structure Band.Spans (params : SegmentationParams) (chain : List MicroSpan) (band : Band) :
    Prop where
  start : ∃ first ∈ chain, band.startMs = first.firstTs
  ending : ∃ last ∈ chain, band.endMs = last.lastTs
  ordered : band.startMs ≤ band.endMs
  long : params.focusMinLenMs ≤ band.endMs - band.startMs

theorem pushBandIfQualified_spans {chain : List MicroSpan} (h : Timeline chain) (id : String)
    {band : Band} (hBand : band ∈ pushBandIfQualified chain id params []) :
    band.Spans params chain := by
  unfold pushBandIfQualified at hBand
  split at hBand
  · rename_i first last hFirst hLast
    split at hBand
    · cases hBand
    · rename_i hLong
      have hFirstMem : first ∈ chain := List.mem_of_head? hFirst
      have hLastMem : last ∈ chain := List.mem_of_getLast? hLast
      have hFirstProper := (h.proper first hFirstMem).ordered
      have hLastProper := (h.proper last hLastMem).ordered
      have hOrdered : first.firstTs ≤ last.lastTs := by
        obtain ⟨tail, rfl⟩ : ∃ tail, chain = first :: tail := List.head?_eq_some_iff.mp hFirst
        rcases List.mem_cons.mp hLastMem with rfl | hTail
        · exact hFirstProper
        · have := (List.rel_of_pairwise_cons h.before hTail).disjoint
          omega
      rw [List.nil_append, List.mem_singleton] at hBand
      rw [hBand]
      exact ⟨⟨first, hFirstMem, rfl⟩, ⟨last, hLastMem, rfl⟩, hOrdered, by dsimp only; omega⟩
  · cases hBand

/-- Bands of one meeting follow one another, whatever the meeting gap. -/
theorem bandsFor_follow (id : String) {spans : List MicroSpan} (h : Timeline spans) :
    (bandsFor params id spans).Pairwise (fun a b => a.endMs ≤ b.startMs) ∧
      ∀ band ∈ bandsFor params id spans, band.startMs ≤ band.endMs ∧
        params.focusMinLenMs ≤ band.endMs - band.startMs := by
  obtain ⟨sections, rfl, hBands⟩ := bandsFor_sections params id spans
  obtain ⟨hWithin, hAcross⟩ := List.pairwise_flatten.mp h.before
  have hTimeline : ∀ chain ∈ sections, Timeline chain := fun chain hChain =>
    ⟨fun span hSpan => h.proper span (List.mem_flatten_of_mem hChain hSpan), hWithin chain hChain⟩
  have hSpans : ∀ chain ∈ sections, ∀ band ∈ pushBandIfQualified chain id params [],
      band.Spans params chain := fun chain hChain band hBand =>
    pushBandIfQualified_spans (hTimeline chain hChain) id hBand
  rw [hBands]
  unfold bandsOfSections
  refine ⟨List.pairwise_flatMap.mpr ⟨?_, ?_⟩, ?_⟩
  · intro chain _
    unfold pushBandIfQualified
    split
    · split
      · exact List.Pairwise.nil
      · exact List.pairwise_singleton _ _
    · exact List.Pairwise.nil
  · refine hAcross.imp_of_mem ?_
    intro left right hLeft hRight hBefore a ha b hb
    obtain ⟨last, hLast, hEnd⟩ := (hSpans left hLeft a ha).ending
    obtain ⟨first, hFirst, hStart⟩ := (hSpans right hRight b hb).start
    rw [hEnd, hStart]
    exact (hBefore last hLast first hFirst).disjoint
  · intro band hBand
    obtain ⟨chain, hChain, hIn⟩ := List.mem_flatMap.mp hBand
    have hSpan := hSpans chain hChain band hIn
    exact ⟨hSpan.ordered, hSpan.long⟩

/-- Two bands, in the order in which they stand. -/
structure InLine (a b : Band) : Prop where
  side : a.id = b.id → a.endMs ≤ b.startMs ∨ b.endMs ≤ a.startMs
  key : a.key ≤ b.key

theorem emptyBands_inLine (order : HashOrder) (params : SegmentationParams) (h : Timeline micros) :
    (emptyBands order micros params).Pairwise InLine ∧
      ∀ band ∈ emptyBands order micros params, band.startMs ≤ band.endMs ∧
        params.focusMinLenMs ≤ band.endMs - band.startMs := by
  have hEntry : ∀ entry ∈ order.entries (meetingSpans micros),
      Timeline entry.2 := by
    intro entry hIn
    have hLookup := HashOrder.mem_entries.mp hIn
    have hSpans : entry.2 = meetingOf entry.1 micros := by
      rw [← meetingSpans_lookup, hLookup]
      rfl
    rw [hSpans]
    exact meetingOf_timeline h entry.1
  have hSide : (emptyBands order micros params).Pairwise fun a b =>
      a.id = b.id → a.endMs ≤ b.startMs ∨ b.endMs ≤ a.startMs := by
    rw [emptyBands_eq]
    refine (sortByKey_perm Band.key _).symm.pairwise ?_ (fun hApart hId => (hApart hId.symm).symm)
    refine List.pairwise_flatMap.mpr ⟨?_, ?_⟩
    · intro entry hIn
      exact (bandsFor_follow entry.1 (hEntry entry hIn)).1.imp fun hLe _ => Or.inl hLe
    · have hKeys : (order.entries (meetingSpans micros)).Pairwise fun a b => a.1 ≠ b.1 := by
        have hNodup := (List.perm_nodupKeys (order.entries_perm (meetingSpans micros))).mpr
          (meetingSpans micros).nodupKeys
        exact List.pairwise_map.mp hNodup
      refine hKeys.imp fun hNe a ha b hb hId => absurd ?_ hNe
      rw [← (bandsFor_from params _ _ a ha).id, ← (bandsFor_from params _ _ b hb).id, hId]
  refine ⟨(hSide.and (emptyBands_sorted order micros params)).imp fun hBoth =>
    ⟨hBoth.1, hBoth.2⟩, ?_⟩
  intro band hBand
  rw [emptyBands_eq, mem_sortByKey] at hBand
  obtain ⟨entry, hIn, hFor⟩ := List.mem_flatMap.mp hBand
  exact (bandsFor_follow entry.1 (hEntry entry hIn)).2 band hFor

/-- Bands keep their bounds while they take spans. -/
theorem buildBands_keys (order : HashOrder) (micros : List MicroSpan)
    (params : SegmentationParams) :
    (buildBands order micros params).map Band.key =
      (emptyBands order micros params).map Band.key := by
  refine List.ext_getElem? fun i => ?_
  rw [List.getElem?_map, List.getElem?_map]
  cases hBand : (buildBands order micros params)[i]? with
  | none =>
    have hLength : (buildBands order micros params).length =
        (emptyBands order micros params).length := by
      simpa using congrArg List.length (buildBands_extent order micros params)
    rw [List.getElem?_eq_none_iff, hLength, ← List.getElem?_eq_none_iff] at hBand
    rw [hBand]
  | some band =>
    obtain ⟨chain, hChain, hStart, hEnd, hId, -⟩ := buildBands_getElem? hBand
    rw [hChain, Option.map_some, Option.map_some, Band.key, hStart, hEnd, hId]
    rfl

theorem buildBands_inLine (order : HashOrder) (params : SegmentationParams) (h : Timeline micros) :
    (buildBands order micros params).Pairwise InLine ∧
      ∀ band ∈ buildBands order micros params, band.startMs ≤ band.endMs ∧
        params.focusMinLenMs ≤ band.endMs - band.startMs := by
  obtain ⟨hInLine, hLong⟩ := emptyBands_inLine order params h
  have hKeys := buildBands_keys order micros params
  constructor
  · -- both facts are about the keys
    have hMap : ((emptyBands order micros params).map Band.key).Pairwise fun a b =>
        (a.2.2 = b.2.2 → a.2.1 ≤ b.1 ∨ b.2.1 ≤ a.1) ∧ a ≤ b :=
      List.pairwise_map.mpr (hInLine.imp fun hBoth => ⟨hBoth.side, hBoth.key⟩)
    rw [← hKeys] at hMap
    exact (List.pairwise_map.mp hMap).imp fun hBoth => ⟨hBoth.1, hBoth.2⟩
  · intro band hBand
    have hKey : band.key ∈ (emptyBands order micros params).map Band.key := by
      rw [← hKeys]
      exact List.mem_map_of_mem hBand
    obtain ⟨chain, hChain, hSame⟩ := List.mem_map.mp hKey
    have hStart : chain.startMs = band.startMs := congrArg (fun key => key.1) hSame
    have hEnd : chain.endMs = band.endMs := congrArg (fun key => key.2.1) hSame
    rw [← hStart, ← hEnd]
    exact hLong chain hChain

/-! ## The drafts before the last pass -/

theorem bandDrafts_sortable (order : HashOrder) (h : Timeline micros) :
    Sortable ((buildBands order micros params).map (bandDraft params)) := by
  obtain ⟨hInLine, hLong⟩ := buildBands_inLine order params h
  have hId : ∀ a b : Band,
      trackPartition (bandDraft params a) = trackPartition (bandDraft params b) → a.id = b.id := by
    intro a b hSame
    have hData := congrArg String.toList (show "meeting:" ++ _ = "meeting:" ++ _ from hSame)
    simp only [String.toList_append, List.append_cancel_left_eq] at hData
    exact String.toList_inj.mp hData
  refine ⟨?_, List.pairwise_map.mpr ?_, List.pairwise_map.mpr ?_, List.pairwise_map.mpr ?_⟩
  · intro draft hDraft
    obtain ⟨band, hBand, rfl⟩ := List.mem_map.mp hDraft
    exact (hLong band hBand).1
  · exact hInLine.imp fun hBoth hSame => hBoth.side (hId _ _ hSame)
  · exact hInLine.imp fun _ hSame _ => hSame
  · refine hInLine.imp_of_mem ?_
    intro a b ha _ hBoth hKey hSame
    have hStart : a.startMs = b.startMs := congrArg (fun key => (ofLex key).1) hKey
    have hOrdered := (hLong a ha).1
    show a.endMs ≤ b.startMs
    rcases hBoth.side (hId a b hSame) with hBefore | hAfter
    · exact hBefore
    · -- the shorter band stands first
      have hEnds : a.endMs ≤ b.endMs := by
        rcases (Prod.Lex.le_iff ..).mp hBoth.key with hLt | ⟨-, hRest⟩
        · have : a.startMs < b.startMs := hLt
          omega
        · rcases (Prod.Lex.le_iff ..).mp hRest with hLt | ⟨hEq, -⟩
          · exact le_of_lt hLt
          · exact le_of_eq hEq
      omega

/-- Tracks never overlap, and are told apart by their first frames. -/
theorem Sortable.append_tracks {bands extra : List SessionDraft} (h : Sortable bands)
    (hExtent : ∀ draft ∈ extra, Extent frames draft.frameIds draft.startedAt draft.endedAt)
    (hTurns : extra.Pairwise TakeTurns) (hNodup : (ownedIds extra).Nodup)
    (hCross : ∀ d ∈ bands, ∀ e ∈ extra, trackPartition d ≠ trackPartition e) :
    Sortable (bands ++ extra) := by
  have hFirst : extra.Pairwise fun d e => firstFrame d ≠ firstFrame e :=
    (List.nodup_flatMap.mp hNodup).2.imp_of_mem fun hd _ hDisjoint =>
      firstFrame_ne (hExtent _ hd).ne_nil hDisjoint
  refine ⟨?_, List.pairwise_append.mpr ⟨h.side, ?_, ?_⟩,
    List.pairwise_append.mpr ⟨h.key, ?_, ?_⟩, List.pairwise_append.mpr ⟨h.stable, ?_, ?_⟩⟩
  · intro draft hDraft
    rcases List.mem_append.mp hDraft with hBand | hTrack
    · exact h.ordered draft hBand
    · exact (hExtent draft hTrack).le
  · exact hTurns.imp fun hPair hSame => (hPair hSame).imp Precedes.start Precedes.start
  · exact fun d hd e he hSame => absurd hSame (hCross d hd e he)
  · exact hFirst.imp fun hNe _ hSame => absurd hSame hNe
  · exact fun d hd e he hSame => absurd hSame (hCross d hd e he)
  · refine hFirst.imp fun hNe hKey => absurd ?_ hNe
    exact congrArg (fun key => (ofLex (ofLex key).2).1) hKey
  · exact fun d hd e he _ hSame => absurd hSame (hCross d hd e he)

theorem rawDrafts_sortable (order : HashOrder) (hMerge : 0 < params.mergeGapMs)
    (hTimeline : Timeline micros) (hExtent : ∀ span ∈ micros, span.HasExtent frames)
    (hNodup : (micros.flatMap MicroSpan.frameIds).Nodup) :
    Sortable (rawDrafts order micros params) := by
  obtain ⟨extra, hRaw, hExtra, hTurns⟩ := rawDrafts_timed order hMerge hTimeline hExtent
  have hOwned : (ownedIds (rawDrafts order micros params)).Nodup := rawDrafts_nodup hNodup
  rw [hRaw, ownedIds_append] at hOwned
  rw [hRaw]
  refine (bandDrafts_sortable order hTimeline).append_tracks (fun draft hDraft =>
    (hExtra draft hDraft).1) hTurns hOwned.of_append_right ?_
  intro d hd e he hSame
  obtain ⟨band, -, rfl⟩ := List.mem_map.mp hd
  obtain ⟨name, hName⟩ := (hExtra e he).2
  exact meeting_ne_partitionName band.id name (hSame.trans hName)

/-! ## Minimal lengths -/

/-- Frames of two instants. -/
def Stretched (frames : List SegmenterFrame) (ids : List Int) : Prop :=
  ∃ a ∈ frames, ∃ b ∈ frames, a.id ∈ ids ∧ b.id ∈ ids ∧ a.capturedAt < b.capturedAt

theorem Stretched.mono {ids others : List Int} (h : Stretched frames ids) (hSub : ids ⊆ others) :
    Stretched frames others := by
  obtain ⟨a, ha, b, hb, hIdA, hIdB, hLt⟩ := h
  exact ⟨a, ha, b, hb, hSub hIdA, hSub hIdB, hLt⟩

theorem stretched_of_duration {span : MicroSpan} (h : span.HasExtent frames)
    (hDuration : 0 < duration span) : Stretched frames span.frameIds := by
  obtain ⟨a, ha, hIdA, hAtA⟩ := h.low
  obtain ⟨b, hb, hIdB, hAtB⟩ := h.high
  unfold duration at hDuration
  exact ⟨a, ha, b, hb, hIdA, hIdB, by omega⟩

/-- The presence of an AI track is time between frames of it. -/
theorem presenceRule (frames : List SegmenterFrame) :
    TrackRule (MicroSpan.HasExtent frames) (fun _ => True)
      (fun track => 0 < track.aiPresenceMs → Stretched frames track.frameIds) where
  newAi := fun _ _ _ hSpan hPresence => stretched_of_duration hSpan hPresence
  newFocus := fun _ _ hPresence => absurd hPresence (lt_irrefl 0)
  absorbAi := by
    intro track span hTrack hSpan hPresence
    have hPresence : 0 < track.aiPresenceMs + duration span := hPresence
    show Stretched frames (track.frameIds ++ span.frameIds)
    by_cases hBefore : 0 < track.aiPresenceMs
    · exact (hTrack hBefore).mono (List.subset_append_left ..)
    · exact (stretched_of_duration hSpan (by omega)).mono (List.subset_append_right ..)
  absorbNone := by
    intro track span hTrack _ hPresence
    have hSame : (track.absorbNone span).aiPresenceMs = track.aiPresenceMs := by
      unfold OpenTrack.absorbNone
      dsimp only
      split
      · rfl
      · rfl
    rw [hSame] at hPresence
    rw [absorbNone_frameIds]
    exact (hTrack hPresence).mono (List.subset_append_left ..)
  prependRamp := fun _ _ hTrack _ hPresence =>
    (hTrack hPresence).mono (List.subset_append_right ..)
  rampNew := fun _ _ => trivial
  rampAdd := fun _ _ _ _ => trivial

/-- A track that passes a positive gate closes into more than an instant. -/
theorem finalizeTrack_stretched {track : OpenTrack} {closedByGap : Bool} {draft : SessionDraft}
    (hFocus : 0 < params.focusMinLenMs)
    (hAi : 0 < params.minLenMs ∨ 0 < params.identityQualifyMs)
    (hTrack : 0 < track.aiPresenceMs → Stretched frames track.frameIds)
    (hExtent : Extent frames draft.frameIds draft.startedAt draft.endedAt)
    (h : finalizeTrack order track closedByGap params = some draft) :
    draft.startedAt < draft.endedAt := by
  obtain ⟨hStart, hEnd, hIds⟩ := finalizeTrack_bounds h
  unfold finalizeTrack at h
  dsimp only at h
  split at h
  · split at h
    · rename_i hGates
      rcases hAi with hLength | hPresence
      · have hLong := hGates.1
        omega
      · have hPresent := hGates.2
        obtain ⟨a, ha, b, hb, hIdA, hIdB, hLt⟩ := hTrack (by omega)
        have hInA := hExtent.within a ha (by rw [hIds]; exact mem_sortDedup.mpr hIdA)
        have hInB := hExtent.within b hb (by rw [hIds]; exact mem_sortDedup.mpr hIdB)
        omega
    · cases h
  · split at h
    · rename_i hGates
      have hLong := hGates.1
      omega
    · cases h

/-- Positive minimal lengths, such as the shipped ones, leave no draft of a single instant. -/
theorem rawDrafts_stretched (order : HashOrder) (hMerge : 0 < params.mergeGapMs)
    (hFocus : 0 < params.focusMinLenMs)
    (hAi : 0 < params.minLenMs ∨ 0 < params.identityQualifyMs) (hTimeline : Timeline micros)
    (hExtent : ∀ span ∈ micros, span.HasExtent frames) :
    ∀ draft ∈ rawDrafts order micros params, draft.startedAt < draft.endedAt := by
  obtain ⟨extra, hRaw, hExtra, -⟩ := rawDrafts_timed order hMerge hTimeline hExtent
  obtain ⟨extra', hRaw', hClosed⟩ := rawDrafts_keeps (presenceRule frames) order params hExtent
  obtain rfl : extra = extra' := List.append_cancel_left (hRaw.symm.trans hRaw')
  intro draft hDraft
  rw [hRaw] at hDraft
  rcases List.mem_append.mp hDraft with hBand | hTrack
  · obtain ⟨band, hIn, rfl⟩ := List.mem_map.mp hBand
    have hLong := ((buildBands_inLine order params hTimeline).2 band hIn).2
    show band.startMs < band.endMs
    omega
  · obtain ⟨track, closedByGap, hPresence, hFinal⟩ := hClosed draft hTrack
    exact finalizeTrack_stretched hFocus hAi hPresence (hExtra draft hTrack).1 hFinal

/-! ## The segmenter -/

def assistantTaxonomy : Taxonomy where
  version := 3
  entries :=
    [{ id := "assistant", kind := .ai, host := some .desktop, appHints := ["assistant"],
       titlePatterns := [], titleExcludePatterns := [], prefixRanges := [] }]

/-- An assistant seen at one instant, and again a merge gap later; what lies between has
an earlier frame id. -/
def fourFrames : List SegmenterFrame :=
  [(10, 0, "assistant"), (11, 0, "editor"), (3, 5, "editor"), (12, 10, "assistant")].map
    fun (id, at_, app) =>
      { id := id, capturedAt := at_, appHint := some app, windowTitle := none, browserUrl := none }

/-- No track is too short. -/
def noMinimum : SegmentationParams :=
  { keepAll with gapCloseMs := 10, mergeGapMs := 10, identityQualifyMs := 0 }

end ScreenSearch.Sessions
