import ScreenSearch.Sessions.TimedWalk

/-!
# What a meeting band owns

A band keeps the bounds of its chain whatever it comes to own. `bandOwner` is the
band that takes a span; the frames of a band are those of the spans it owns, and
they have its bounds exactly when the band keeps the spans at its two ends and no
span of it lasts longer.

Main results:

* `band_extent_iff` — when the frames of a band have its bounds;
* `bandDrafts_takeTurns` — bands of one meeting follow one another.
-/

namespace ScreenSearch.Sessions

open Assoc Sorting

/-- The band that takes a span: none for a span of an AI identity. -/
def bandOwner (bands : List Band) (span : MicroSpan) : Option Nat :=
  if (identityOf span).isAi then none else owningBandIndex (midpoint span) bands

variable {order : HashOrder} {params : SegmentationParams} {micros : List MicroSpan}
  {frames : List SegmenterFrame}

theorem bandOwner_congr {bands bands' : List Band}
    (h : bands.map Band.extent = bands'.map Band.extent) : bandOwner bands = bandOwner bands' := by
  funext span
  unfold bandOwner
  rw [owningBandIndex_congr h]

theorem absorbSpan_getElem? (bands : List Band) (span : MicroSpan) (i : Nat) :
    (absorbSpan bands span)[i]? = bands[i]?.map fun band =>
      if bandOwner bands span = some i then band.absorb span else band := by
  unfold absorbSpan bandOwner
  by_cases hAi : (identityOf span).isAi = true
  · simp [hAi]
  · simp only [hAi, Bool.false_eq_true, if_false]
    cases hIndex : owningBandIndex (midpoint span) bands with
    | none => simp
    | some index =>
      rw [List.getElem?_modify]
      by_cases heq : index = i
      · simp [heq]
      · simp [heq]

/-- Every band absorbs the spans it owns. -/
theorem foldl_absorbSpan_getElem? (spans : List MicroSpan) (bands : List Band) (i : Nat) :
    (spans.foldl absorbSpan bands)[i]? = bands[i]?.map fun band =>
      (spans.filter fun span => bandOwner bands span = some i).foldl Band.absorb band := by
  induction spans generalizing bands with
  | nil => simp
  | cons span spans ih =>
    rw [List.foldl_cons, ih, absorbSpan_getElem?, Option.map_map,
      bandOwner_congr (absorbSpan_extent bands span)]
    congr 1
    funext band
    simp only [Function.comp_apply, List.filter_cons]
    by_cases hOwner : bandOwner bands span = some i
    · simp [hOwner]
    · simp [hOwner]

theorem foldl_absorb (spans : List MicroSpan) (band : Band) :
    (spans.foldl Band.absorb band).startMs = band.startMs ∧
      (spans.foldl Band.absorb band).endMs = band.endMs ∧
      (spans.foldl Band.absorb band).id = band.id ∧
      (spans.foldl Band.absorb band).frameIds =
        band.frameIds ++ spans.flatMap MicroSpan.frameIds := by
  induction spans generalizing band with
  | nil => simp
  | cons span spans ih =>
    rw [List.foldl_cons]
    obtain ⟨hStart, hEnd, hId, hFrames⟩ := ih (band.absorb span)
    refine ⟨hStart, hEnd, hId, ?_⟩
    rw [hFrames, List.flatMap_cons, ← List.append_assoc]
    rfl

/-- A finished band: the chain it comes from, and the frames of the spans it owns. -/
theorem buildBands_getElem? {i : Nat} {band : Band}
    (h : (buildBands order micros params)[i]? = some band) :
    ∃ chain, (emptyBands order micros params)[i]? = some chain ∧
      band.startMs = chain.startMs ∧ band.endMs = chain.endMs ∧ band.id = chain.id ∧
      ∀ x, x ∈ band.frameIds ↔ ∃ span ∈ micros,
        bandOwner (emptyBands order micros params) span = some i ∧ x ∈ span.frameIds := by
  rw [buildBands, foldl_absorbSpan_getElem?, Option.map_eq_some_iff] at h
  obtain ⟨chain, hChain, rfl⟩ := h
  obtain ⟨hStart, hEnd, hId, hFrames⟩ := foldl_absorb
    (micros.filter fun span => bandOwner (emptyBands order micros params) span = some i) chain
  refine ⟨chain, hChain, hStart, hEnd, hId, fun x => ?_⟩
  have hEmpty : chain.frameIds = [] := by
    refine List.eq_nil_iff_forall_not_mem.mpr fun y hy => ?_
    have hNone := emptyBands_held order y micros params
    rw [bandsHeld, List.count_eq_zero] at hNone
    exact hNone (List.mem_flatMap.mpr ⟨chain, List.mem_of_getElem? hChain, hy⟩)
  rw [hFrames, hEmpty, List.nil_append, List.mem_flatMap]
  constructor
  · rintro ⟨span, hSpan, hx⟩
    obtain ⟨hMem, hOwner⟩ := List.mem_filter.mp hSpan
    exact ⟨span, hMem, of_decide_eq_true hOwner, hx⟩
  · rintro ⟨span, hMem, hOwner, hx⟩
    exact ⟨span, List.mem_filter.mpr ⟨hMem, decide_eq_true hOwner⟩, hx⟩

/-! ## Bounds -/

/-- The band that owns a span contains its midpoint. -/
theorem bandOwner_contains {bands : List Band} {span : MicroSpan} {i : Nat}
    (h : bandOwner bands span = some i) :
    ∃ band, bands[i]? = some band ∧ band.startMs ≤ midpoint span ∧ midpoint span ≤ band.endMs := by
  unfold bandOwner at h
  split at h
  · cases h
  · rw [owningBandIndex, Option.map_eq_some_iff] at h
    obtain ⟨entry, hMax, rfl⟩ := h
    obtain ⟨hIn, hContains⟩ := List.mem_filter.mp (maxByKey_mem _ hMax)
    simp only [Bool.and_eq_true, decide_eq_true_eq] at hContains
    exact ⟨entry.1, List.mem_zipIdx_iff_getElem?.mp hIn, hContains⟩

/-- Two spans of a timeline do not overlap. -/
theorem Timeline.apart (h : Timeline micros) {a b : MicroSpan} (ha : a ∈ micros) (hb : b ∈ micros)
    (hNe : a ≠ b) : a.lastTs ≤ b.firstTs ∨ b.lastTs ≤ a.firstTs := by
  have hPairs : micros.Pairwise fun a b => a.lastTs ≤ b.firstTs ∨ b.lastTs ≤ a.firstTs :=
    h.before.imp fun hBefore => Or.inl hBefore.disjoint
  have : Std.Symm fun a b : MicroSpan => a.lastTs ≤ b.firstTs ∨ b.lastTs ≤ a.firstTs :=
    ⟨fun _ _ => Or.symm⟩
  exact hPairs.forall ha hb hNe

/-- A band owns no span that begins before it. -/
theorem band_start_le (hTimeline : Timeline micros) {i : Nat} {chain : Band}
    (hChain : (emptyBands order micros params)[i]? = some chain) {span : MicroSpan}
    (hSpan : span ∈ micros)
    (hOwner : bandOwner (emptyBands order micros params) span = some i) :
    chain.startMs ≤ span.firstTs := by
  obtain ⟨band, hBand, hLow, -⟩ := bandOwner_contains hOwner
  obtain rfl : band = chain := Option.some.inj (hBand.symm.trans hChain)
  obtain ⟨-, ⟨first, hFirst, hStart⟩, -⟩ := emptyBands_from (List.mem_of_getElem? hChain)
  have hFirstMem : first ∈ micros := List.mem_of_mem_filter hFirst
  have hProper := (hTimeline.proper span hSpan).ordered
  have hFirstProper := (hTimeline.proper first hFirstMem).ordered
  rw [hStart] at hLow ⊢
  by_cases heq : span = first
  · rw [heq]
  · rcases hTimeline.apart hSpan hFirstMem heq with hBefore | hAfter
    · -- its midpoint is its end, so it is a single instant
      rw [midpoint, Int.tdiv_eq_ediv_of_nonneg (by omega)] at hLow
      omega
    · omega

/-- The chain of a band keeps both of its ends: the band owns a span that starts where
the chain starts and one that ends where it ends, and none that ends later. -/
structure KeepsEnds (bands : List Band) (micros : List MicroSpan) (i : Nat) (chain : Band) :
    Prop where
  start : ∃ span ∈ micros, bandOwner bands span = some i ∧ span.firstTs = chain.startMs
  ending : ∃ span ∈ micros, bandOwner bands span = some i ∧ span.lastTs = chain.endMs
  last : ∀ span ∈ micros, bandOwner bands span = some i → span.lastTs ≤ chain.endMs

/-- The frames of a band have its bounds exactly when it keeps its ends. -/
theorem band_extent_iff (hTimeline : Timeline micros)
    (hExtent : ∀ span ∈ micros, span.HasExtent frames) {i : Nat} {band chain : Band}
    (hBand : (buildBands order micros params)[i]? = some band)
    (hChain : (emptyBands order micros params)[i]? = some chain) :
    Extent frames band.frameIds band.startMs band.endMs ↔
      KeepsEnds (emptyBands order micros params) micros i chain := by
  obtain ⟨chain', hChain', hStart, hEnd, -, hFrames⟩ := buildBands_getElem? hBand
  obtain rfl : chain = chain' := Option.some.inj (hChain.symm.trans hChain')
  rw [hStart, hEnd]
  constructor
  · intro h
    refine ⟨?_, ?_, ?_⟩
    · obtain ⟨frame, hFrame, hId, hAt⟩ := h.low
      obtain ⟨span, hSpan, hOwner, hIn⟩ := (hFrames frame.id).mp hId
      have hWithin := (hExtent span hSpan).within frame hFrame hIn
      have hLow := band_start_le hTimeline hChain hSpan hOwner
      exact ⟨span, hSpan, hOwner, by omega⟩
    · obtain ⟨frame, hFrame, hId, hAt⟩ := h.high
      obtain ⟨span, hSpan, hOwner, hIn⟩ := (hFrames frame.id).mp hId
      have hWithin := (hExtent span hSpan).within frame hFrame hIn
      obtain ⟨last, hLast, hLastIn, hLastAt⟩ := (hExtent span hSpan).high
      have hHigh := h.within last hLast ((hFrames _).mpr ⟨span, hSpan, hOwner, hLastIn⟩)
      exact ⟨span, hSpan, hOwner, by omega⟩
    · intro span hSpan hOwner
      obtain ⟨last, hLast, hLastIn, hLastAt⟩ := (hExtent span hSpan).high
      have hHigh := h.within last hLast ((hFrames _).mpr ⟨span, hSpan, hOwner, hLastIn⟩)
      omega
  · intro h
    refine ⟨?_, ?_, ?_⟩
    · obtain ⟨span, hSpan, hOwner, hFirst⟩ := h.start
      obtain ⟨frame, hFrame, hIn, hAt⟩ := (hExtent span hSpan).low
      exact ⟨frame, hFrame, (hFrames _).mpr ⟨span, hSpan, hOwner, hIn⟩, hAt.trans hFirst⟩
    · obtain ⟨span, hSpan, hOwner, hLast⟩ := h.ending
      obtain ⟨frame, hFrame, hIn, hAt⟩ := (hExtent span hSpan).high
      exact ⟨frame, hFrame, (hFrames _).mpr ⟨span, hSpan, hOwner, hIn⟩, hAt.trans hLast⟩
    · intro frame hFrame hId
      obtain ⟨span, hSpan, hOwner, hIn⟩ := (hFrames frame.id).mp hId
      have hWithin := (hExtent span hSpan).within frame hFrame hIn
      have hLow := band_start_le hTimeline hChain hSpan hOwner
      have hHigh := h.last span hSpan hOwner
      omega

/-! ## Bands of one meeting -/

/-- The bands so far end before the spans that are chained or still to come. -/
structure Chained (chain rest : List MicroSpan) (out : List Band) : Prop where
  timeline : Timeline (chain ++ rest)
  apart : out.Pairwise fun a b => a.endMs < b.startMs
  later : ∀ band ∈ out, ∀ span ∈ chain ++ rest, band.endMs < span.firstTs
  ordered : ∀ band ∈ out, band.startMs ≤ band.endMs

/-- A chain is closed when what follows it is further than the meeting gap. -/
theorem pushBandIfQualified_chained (params : SegmentationParams) {chain rest : List MicroSpan}
    {out : List Band} (id : String) (h : Chained chain rest out)
    (hGap : ∀ last, chain.getLast? = some last → ∀ span ∈ rest, last.lastTs < span.firstTs) :
    Chained [] rest (pushBandIfQualified chain id params out) := by
  have hRest : Timeline rest :=
    ⟨fun span hSpan => h.timeline.proper span (List.mem_append_right _ hSpan),
      (List.pairwise_append.mp h.timeline.before).2.1⟩
  have hKept : Chained [] rest out :=
    ⟨hRest, h.apart, fun band hBand span hSpan =>
      h.later band hBand span (List.mem_append_right _ hSpan), h.ordered⟩
  unfold pushBandIfQualified
  split
  · rename_i first last hFirst hLast
    split
    · exact hKept
    · have hFirstMem : first ∈ chain := List.mem_of_head? hFirst
      have hLastMem : last ∈ chain := List.mem_of_getLast? hLast
      have hFirstProper := (h.timeline.proper first (List.mem_append_left _ hFirstMem)).ordered
      have hLastProper := (h.timeline.proper last (List.mem_append_left _ hLastMem)).ordered
      have hOrdered : first.firstTs ≤ last.lastTs := by
        obtain ⟨tail, rfl⟩ : ∃ tail, chain = first :: tail := List.head?_eq_some_iff.mp hFirst
        rcases List.mem_cons.mp hLastMem with rfl | hTail
        · exact hFirstProper
        · have hBefore := (List.pairwise_append.mp h.timeline.before).1
          have := (List.rel_of_pairwise_cons hBefore hTail).disjoint
          omega
      refine ⟨hRest, ?_, ?_, ?_⟩
      · refine List.pairwise_append.mpr ⟨h.apart, List.pairwise_singleton _ _, ?_⟩
        intro a ha b hb
        rw [List.mem_singleton.mp hb]
        exact h.later a ha first (List.mem_append_left _ hFirstMem)
      · intro band hBand span hSpan
        rcases List.mem_append.mp hBand with hIn | hNew
        · exact hKept.later band hIn span hSpan
        · rw [List.mem_singleton.mp hNew]
          exact hGap last hLast span hSpan
      · intro band hBand
        rcases List.mem_append.mp hBand with hIn | hNew
        · exact h.ordered band hIn
        · rw [List.mem_singleton.mp hNew]
          exact hOrdered
  · exact hKept

theorem foldl_chainSpan_chained (hGap : 0 < params.meetingGapMs) (id : String)
    {spans chain : List MicroSpan} {out : List Band} (h : Chained chain spans out) :
    Chained (spans.foldl (chainSpan id params) (chain, out)).1 []
      (spans.foldl (chainSpan id params) (chain, out)).2 := by
  induction spans generalizing chain out with
  | nil => exact h
  | cons span spans ih =>
    have hAppend : Chained (chain ++ [span]) spans out := by
      have hList : chain ++ [span] ++ spans = chain ++ span :: spans := by simp
      refine ⟨?_, h.apart, ?_, h.ordered⟩
      · rw [hList]
        exact h.timeline
      · rw [hList]
        exact h.later
    rw [List.foldl_cons]
    unfold chainSpan
    dsimp only
    split
    · rename_i previous hPrevious
      split
      · rename_i hFar
        -- what follows the span is even further
        have hClosed : Chained [] (span :: spans) (pushBandIfQualified chain id params out) := by
          refine pushBandIfQualified_chained params id h fun last hLast other hOther => ?_
          obtain rfl : previous = last := Option.some.inj (hPrevious.symm.trans hLast)
          rcases List.mem_cons.mp hOther with rfl | hOther
          · omega
          · have hBefore := (List.pairwise_append.mp h.timeline.before).2.1
            have hNext := (List.rel_of_pairwise_cons hBefore hOther).disjoint
            have hProper := (h.timeline.proper span (by simp)).ordered
            omega
        exact ih ⟨hClosed.timeline, hClosed.apart, hClosed.later, hClosed.ordered⟩
      · exact ih hAppend
    · exact ih hAppend

/-- Bands of one meeting lie apart, in the order in which they are found. -/
theorem bandsFor_apart (hGap : 0 < params.meetingGapMs) (id : String) {spans : List MicroSpan}
    (h : Timeline spans) :
    (bandsFor params id spans).Pairwise (fun a b => a.endMs < b.startMs) ∧
      ∀ band ∈ bandsFor params id spans, band.startMs ≤ band.endMs := by
  have hFold := foldl_chainSpan_chained hGap id
    (show Chained [] spans [] from ⟨h, List.Pairwise.nil, by simp, by simp⟩)
  have hClosed := pushBandIfQualified_chained params id hFold (by simp)
  exact ⟨hClosed.apart, hClosed.ordered⟩

/-- Two bands of one meeting lie apart. -/
def BandsApart (a b : Band) : Prop := a.id = b.id → a.endMs < b.startMs ∨ b.endMs < a.startMs

theorem meetingOf_timeline (h : Timeline micros) (id : String) : Timeline (meetingOf id micros) :=
  ⟨fun span hSpan => h.proper span (List.mem_of_mem_filter hSpan),
    h.before.sublist List.filter_sublist⟩

theorem emptyBands_apart (order : HashOrder) (hGap : 0 < params.meetingGapMs) (h : Timeline micros) :
    (emptyBands order micros params).Pairwise BandsApart ∧
      ∀ band ∈ emptyBands order micros params, band.startMs ≤ band.endMs := by
  have hEntry : ∀ entry ∈ order.entries (meetingSpans micros),
      entry.2 = meetingOf entry.1 micros := by
    intro entry hIn
    have hLookup := HashOrder.mem_entries.mp hIn
    rw [← meetingSpans_lookup, hLookup]
    rfl
  rw [emptyBands_eq]
  refine ⟨(sortByKey_perm Band.key _).symm.pairwise ?_ (fun hApart hId => (hApart hId.symm).symm), ?_⟩
  · refine List.pairwise_flatMap.mpr ⟨?_, ?_⟩
    · intro entry hIn
      rw [hEntry entry hIn]
      exact (bandsFor_apart hGap entry.1 (meetingOf_timeline h entry.1)).1.imp fun hLt _ => Or.inl hLt
    · have hKeys : (order.entries (meetingSpans micros)).Pairwise fun a b => a.1 ≠ b.1 := by
        have hNodup := (List.perm_nodupKeys (order.entries_perm (meetingSpans micros))).mpr
          (meetingSpans micros).nodupKeys
        exact List.pairwise_map.mp hNodup
      refine hKeys.imp fun hNe a ha b hb hId => absurd ?_ hNe
      rw [← (bandsFor_from params _ _ a ha).id, ← (bandsFor_from params _ _ b hb).id, hId]
  · intro band hBand
    rw [mem_sortByKey] at hBand
    obtain ⟨entry, hIn, hFor⟩ := List.mem_flatMap.mp hBand
    rw [hEntry entry hIn] at hFor
    exact (bandsFor_apart hGap entry.1 (meetingOf_timeline h entry.1)).2 band hFor

/-- Drafts of bands follow one another, and never share their start. -/
theorem bandDrafts_takeTurns (order : HashOrder) (hGap : 0 < params.meetingGapMs) (h : Timeline micros) :
    ((buildBands order micros params).map (bandDraft params)).Pairwise (fun d e =>
        trackPartition d = trackPartition e →
          (Precedes d e ∨ Precedes e d) ∧ d.startedAt ≠ e.startedAt) ∧
      ∀ draft ∈ (buildBands order micros params).map (bandDraft params),
        draft.startedAt ≤ draft.endedAt := by
  obtain ⟨hApart, hOrdered⟩ := emptyBands_apart order hGap h
  have hChain : ∀ (i : Nat) (hi : i < (buildBands order micros params).length),
      ∃ hi' : i < (emptyBands order micros params).length,
        (buildBands order micros params)[i].startMs = (emptyBands order micros params)[i].startMs ∧
        (buildBands order micros params)[i].endMs = (emptyBands order micros params)[i].endMs ∧
        (buildBands order micros params)[i].id = (emptyBands order micros params)[i].id := by
    intro i hi
    obtain ⟨chain, hChain, hStart, hEnd, hId, -⟩ :=
      buildBands_getElem? (List.getElem?_eq_getElem hi)
    obtain ⟨hi', rfl⟩ := List.getElem?_eq_some_iff.mp hChain
    exact ⟨hi', hStart, hEnd, hId⟩
  refine ⟨List.pairwise_map.mpr (List.pairwise_iff_getElem.mpr ?_), ?_⟩
  · intro i j hi hj hij hSame
    obtain ⟨hi', hStartI, hEndI, hIdI⟩ := hChain i hi
    obtain ⟨hj', hStartJ, hEndJ, hIdJ⟩ := hChain j hj
    have hId : (buildBands order micros params)[i].id = (buildBands order micros params)[j].id := by
      have hData := congrArg String.toList
        (show "meeting:" ++ _ = "meeting:" ++ _ from hSame)
      simp only [String.toList_append, List.append_cancel_left_eq] at hData
      exact String.toList_inj.mp hData
    have hPair := List.pairwise_iff_getElem.mp hApart i j hi' hj' hij (by rw [← hIdI, ← hIdJ, hId])
    have hLeI := hOrdered _ (List.getElem_mem hi')
    have hLeJ := hOrdered _ (List.getElem_mem hj')
    show (Precedes (bandDraft params _) (bandDraft params _) ∨ _) ∧ _
    refine ⟨?_, ?_⟩
    · refine hPair.imp (fun hLt => ⟨?_, ?_⟩) (fun hLt => ⟨?_, ?_⟩) <;>
        simp only [bandDraft] <;> omega
    · simp only [bandDraft]
      omega
  · intro draft hDraft
    obtain ⟨band, hBand, rfl⟩ := List.mem_map.mp hDraft
    obtain ⟨i, hi, rfl⟩ := List.mem_iff_getElem.mp hBand
    obtain ⟨hi', hStart, hEnd, -⟩ := hChain i hi
    have hLe := hOrdered _ (List.getElem_mem hi')
    show (buildBands order micros params)[i].startMs ≤ (buildBands order micros params)[i].endMs
    omega

end ScreenSearch.Sessions
