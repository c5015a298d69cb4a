import Mathlib.Data.Int.ConditionallyCompleteOrder
import Mathlib.Order.ConditionallyCompleteLattice.Basic
import ScreenSearch.Sessions.BandExtent

/-!
# The bounds of the drafts

Every draft is meant to begin with the first of its frames and to end with the
last. A track's draft does. A meeting's draft does only when its band keeps the
spans at its ends, and the last pass, which pushes a draft behind the previous
one of its partition, breaks the bounds of a draft that another one overtakes.

Main results:

* `arrange_eq_sortDrafts` — without overtaken drafts the last pass changes nothing;
* `arrange_overtaken` — an overtaken draft is pushed behind its frames;
* `noneOvertaken_of_minLen` — positive minimal lengths rule overtaking out;
* `segment_bounds_iff` — exactly when all drafts have the bounds of their frames.
-/

namespace ScreenSearch.Sessions

open Assoc Sorting

/-- A draft of a single instant that is sorted behind a longer one of its partition
which begins at the same instant. -/
structure Overtakes (e d : SessionDraft) : Prop where
  partition : trackPartition e = trackPartition d
  instant : d.startedAt = d.endedAt
  start : e.startedAt = d.startedAt
  longer : d.endedAt < e.endedAt
  first : firstFrame e < firstFrame d

/-- Drafts of one partition follow one another and are told apart by where they begin. -/
def Sequenced (d e : SessionDraft) : Prop :=
  trackPartition d = trackPartition e →
    (Precedes d e ∨ Precedes e d) ∧ (d.startedAt = e.startedAt → firstFrame d ≠ firstFrame e)

theorem Sequenced.symm {d e : SessionDraft} (h : Sequenced d e) : Sequenced e d := by
  intro hSame
  obtain ⟨hTurns, hFirst⟩ := h hSame.symm
  exact ⟨hTurns.symm, fun hStart => (hFirst hStart.symm).symm⟩

/-! ## The last pass -/

/-- Ends that are passed already do not push a draft. -/
theorem foldl_trimOverlap_unchanged {drafts : List SessionDraft}
    {state : HashMap Int × List SessionDraft}
    (hEnds : ∀ draft ∈ drafts, ∀ ending, state.1.lookup (trackPartition draft) = some ending →
      ending ≤ draft.startedAt)
    (hTurns : drafts.Pairwise fun d e =>
      trackPartition d = trackPartition e → d.endedAt ≤ e.startedAt) :
    (drafts.foldl trimOverlap state).2 = state.2 ++ drafts := by
  induction drafts generalizing state with
  | nil => exact (List.append_nil _).symm
  | cons draft drafts ih =>
    have hStep : trimOverlap state draft =
        (state.1.insert (trackPartition draft) draft.endedAt, state.2 ++ [draft]) := by
      unfold trimOverlap
      have hKept : pushBehind (state.1.lookup (trackPartition draft)) draft = draft := by
        unfold pushBehind
        split
        · rename_i ending hLookup
          have hLe := hEnds draft (List.mem_cons_self ..) ending hLookup
          rw [if_neg (by omega)]
        · rfl
      dsimp only
      rw [hKept]
    rw [List.foldl_cons, hStep, ih ?_ hTurns.of_cons, List.append_assoc, List.singleton_append]
    intro other hOther ending hLookup
    by_cases heq : trackPartition other = trackPartition draft
    · rw [heq, AList.lookup_insert] at hLookup
      cases hLookup
      exact List.rel_of_pairwise_cons hTurns hOther heq.symm
    · rw [AList.lookup_insert_ne heq] at hLookup
      exact hEnds other (List.mem_cons_of_mem _ hOther) ending hLookup

theorem sortDrafts_sorted (drafts : List SessionDraft) :
    (sortDrafts drafts).Pairwise fun d e => draftKey d ≤ draftKey e :=
  sortByKey_pairwise draftKey drafts

/-- Without overtaken drafts the last pass changes nothing. -/
theorem arrange_eq_sortDrafts {drafts : List SessionDraft} (hSequenced : drafts.Pairwise Sequenced)
    (hOrdered : ∀ draft ∈ drafts, draft.startedAt ≤ draft.endedAt)
    (hNone : ∀ e ∈ drafts, ∀ d ∈ drafts, ¬Overtakes e d) : arrange drafts = sortDrafts drafts := by
  have hPerm : (sortDrafts drafts).Perm drafts := sortByKey_perm _ drafts
  have hPairs := hPerm.symm.pairwise hSequenced fun h => h.symm
  have hTurns : (sortDrafts drafts).Pairwise fun d e =>
      trackPartition d = trackPartition e → d.endedAt ≤ e.startedAt := by
    refine (hPairs.and (sortDrafts_sorted drafts)).imp_of_mem ?_
    intro d e hd he hBoth hSame
    obtain ⟨hTurns, hFirst⟩ := hBoth.1 hSame
    rcases hTurns with hPrecedes | hPrecedes
    · exact hPrecedes.start
    · -- otherwise the later draft is a single instant that has been overtaken
      have hStart : d.startedAt ≤ e.startedAt := by
        rcases (Prod.Lex.le_iff ..).mp hBoth.2 with hLt | ⟨hEq, -⟩
        · exact le_of_lt hLt
        · exact le_of_eq hEq
      have hLe := hOrdered e (hPerm.subset he)
      have hBegin := hPrecedes.start
      have hEnd := hPrecedes.ending
      have hEq : d.startedAt = e.startedAt := by omega
      refine absurd ?_ (hNone d (hPerm.subset hd) e (hPerm.subset he))
      refine ⟨hSame, by omega, hEq, hEnd, lt_of_le_of_ne ?_ (hFirst hEq)⟩
      rcases (Prod.Lex.le_iff ..).mp hBoth.2 with hLt | ⟨-, hRest⟩
      · exact absurd hLt (by show ¬d.startedAt < e.startedAt; omega)
      · rcases (Prod.Lex.le_iff ..).mp hRest with hLt | ⟨hFirstEq, -⟩
        · exact le_of_lt hLt
        · exact le_of_eq hFirstEq
  unfold arrange enforceNonOverlapPerTrack
  rw [foldl_trimOverlap_unchanged (by simp) hTurns]
  exact sortByKey_eq_self _ (sortDrafts_sorted drafts)

theorem pushBehind_ends {draft : SessionDraft} (h : draft.startedAt ≤ draft.endedAt)
    (previous : Option Int) :
    draft.endedAt ≤ (pushBehind previous draft).endedAt ∧
      ∀ ending, previous = some ending → ending ≤ (pushBehind previous draft).startedAt ∧
        ending ≤ (pushBehind previous draft).endedAt := by
  unfold pushBehind
  cases previous with
  | none => exact ⟨le_rfl, by simp⟩
  | some ending =>
    dsimp only
    split
    · refine ⟨le_max_left _ _, fun other hOther => ?_⟩
      cases hOther
      exact ⟨le_rfl, le_max_right _ _⟩
    · refine ⟨le_rfl, fun other hOther => ?_⟩
      cases hOther
      omega

/-- The last end of a partition only grows. -/
theorem foldl_trimOverlap_grows {drafts : List SessionDraft}
    (hOrdered : ∀ draft ∈ drafts, draft.startedAt ≤ draft.endedAt)
    {state : HashMap Int × List SessionDraft} {key : String} {ending : Int}
    (h : ∃ last, state.1.lookup key = some last ∧ ending ≤ last) :
    ∃ last, (drafts.foldl trimOverlap state).1.lookup key = some last ∧ ending ≤ last := by
  induction drafts generalizing state with
  | nil => exact h
  | cons draft drafts ih =>
    rw [List.foldl_cons]
    refine ih (fun d hd => hOrdered d (List.mem_cons_of_mem _ hd)) ?_
    obtain ⟨last, hLast, hLe⟩ := h
    have hEnds := (pushBehind_ends (hOrdered draft (List.mem_cons_self ..))
      (state.1.lookup (trackPartition draft))).2
    unfold trimOverlap
    dsimp only
    by_cases heq : key = trackPartition draft
    · subst heq
      refine ⟨_, AList.lookup_insert _, ?_⟩
      have := (hEnds last hLast).2
      omega
    · rw [AList.lookup_insert_ne heq]
      exact ⟨last, hLast, hLe⟩

/-- What the last pass has written stays. -/
theorem foldl_trimOverlap_extends (drafts : List SessionDraft)
    (state : HashMap Int × List SessionDraft) :
    state.2 <+: (drafts.foldl trimOverlap state).2 := by
  induction drafts generalizing state with
  | nil => exact List.prefix_rfl
  | cons draft drafts ih =>
    rw [List.foldl_cons]
    exact (List.prefix_append _ _).trans (ih (trimOverlap state draft))

/-- An overtaken draft is pushed behind its frames. -/
theorem arrange_overtaken {drafts : List SessionDraft}
    (hOrdered : ∀ draft ∈ drafts, draft.startedAt ≤ draft.endedAt) {e d : SessionDraft}
    (he : e ∈ drafts) (hd : d ∈ drafts) (h : Overtakes e d) :
    ∃ pushed ∈ arrange drafts, pushed.frameIds = d.frameIds ∧ d.endedAt < pushed.startedAt := by
  have hPerm : (sortDrafts drafts).Perm drafts := sortByKey_perm _ drafts
  obtain ⟨left, right, hSplit⟩ := List.append_of_mem (hPerm.mem_iff.mpr hd)
  have hKey : draftKey e < draftKey d :=
    (Prod.Lex.lt_iff ..).mpr (Or.inr ⟨h.start, (Prod.Lex.lt_iff ..).mpr (Or.inl h.first)⟩)
  have hSorted := sortDrafts_sorted drafts
  rw [hSplit, List.pairwise_append] at hSorted
  -- the other draft stands before it
  have hLeft : e ∈ left := by
    have hIn := hPerm.mem_iff.mpr he
    rw [hSplit, List.mem_append, List.mem_cons] at hIn
    rcases hIn with hIn | rfl | hIn
    · exact hIn
    · exact absurd hKey (lt_irrefl _)
    · exact absurd (List.rel_of_pairwise_cons hSorted.2.1 hIn) (not_le_of_gt hKey)
  have hAll : ∀ draft ∈ sortDrafts drafts, draft.startedAt ≤ draft.endedAt :=
    fun draft hDraft => hOrdered draft (hPerm.subset hDraft)
  obtain ⟨before, between, rfl⟩ := List.append_of_mem hLeft
  rw [hSplit] at hAll
  set first : HashMap Int × List SessionDraft := before.foldl trimOverlap (∅, [])
  set second := between.foldl trimOverlap (trimOverlap first e)
  have hReached : ∃ last, second.1.lookup (trackPartition d) = some last ∧ e.endedAt ≤ last := by
    refine foldl_trimOverlap_grows (fun draft hDraft => hAll draft (by simp [hDraft])) ?_
    refine ⟨_, ?_, (pushBehind_ends (hOrdered e he) (first.1.lookup (trackPartition e))).1⟩
    show (first.1.insert (trackPartition e) _).lookup (trackPartition d) = _
    rw [h.partition, AList.lookup_insert]
  obtain ⟨last, hLast, hLe⟩ := hReached
  set pushed := pushBehind (second.1.lookup (trackPartition d)) d with hPushed
  refine ⟨pushed, ?_, pushBehind_frameIds _ d, ?_⟩
  · unfold arrange enforceNonOverlapPerTrack
    rw [hSplit]
    have hWhole : (before ++ e :: between ++ d :: right).foldl trimOverlap (∅, []) =
        right.foldl trimOverlap (trimOverlap second d) := by
      rw [List.foldl_append, List.foldl_append, List.foldl_cons, List.foldl_cons]
    rw [hWhole]
    refine (sortByKey_perm _ _).mem_iff.mpr ((foldl_trimOverlap_extends right _).subset ?_)
    show pushed ∈ second.2 ++ [pushed]
    simp
  · have hStart : last ≤ pushed.startedAt :=
      ((pushBehind_ends (hOrdered d hd) _).2 last hLast).1
    have hLonger := h.longer
    omega

/-! ## The drafts before the last pass -/

/-- A meeting is in no partition of the tracks. -/
theorem meeting_ne_partitionName (id : String) (name : Option String) :
    "meeting:" ++ id ≠ partitionName name := by
  intro h
  have hData := congrArg String.toList h
  cases name with
  | none => simp [partitionName] at hData
  | some id' => simp [partitionName] at hData

/-- Drafts that share no frame are told apart by their first frames. -/
theorem firstFrame_ne {d e : SessionDraft} (hFrames : d.frameIds ≠ [])
    (h : List.Disjoint d.frameIds e.frameIds) : firstFrame d ≠ firstFrame e := by
  intro hFirst
  unfold firstFrame at hFirst
  obtain ⟨x, rest, hHead⟩ := List.exists_cons_of_ne_nil hFrames
  rw [hHead, List.head?_cons] at hFirst
  have hIn : x ∈ e.frameIds := List.mem_of_head? hFirst.symm
  rw [hHead] at h
  exact h (List.mem_cons_self ..) hIn

variable {order : HashOrder} {params : SegmentationParams} {micros : List MicroSpan}
  {frames : List SegmenterFrame}

/-- The drafts of a segmentation before its last pass: bands, and tracks with the
extent of their frames. -/
structure RawDrafts (frames : List SegmenterFrame) (bands extra : List SessionDraft) : Prop where
  sequenced : (bands ++ extra).Pairwise Sequenced
  ordered : ∀ draft ∈ bands ++ extra, draft.startedAt ≤ draft.endedAt
  extent : ∀ draft ∈ extra, Extent frames draft.frameIds draft.startedAt draft.endedAt
  bands : ∀ d ∈ bands, ∀ e ∈ bands ++ extra, trackPartition e = trackPartition d →
    e.startedAt = d.startedAt → e = d

theorem rawDrafts_split (order : HashOrder) (hMerge : 0 < params.mergeGapMs)
    (hMeeting : 0 < params.meetingGapMs) (hTimeline : Timeline micros)
    (hExtent : ∀ span ∈ micros, span.HasExtent frames)
    (hNodup : (micros.flatMap MicroSpan.frameIds).Nodup) :
    ∃ extra, rawDrafts order micros params =
        (buildBands order micros params).map (bandDraft params) ++ extra ∧
      RawDrafts frames ((buildBands order micros params).map (bandDraft params)) extra := by
  obtain ⟨extra, hRaw, hExtra, hTurns⟩ := rawDrafts_timed order hMerge hTimeline hExtent
  obtain ⟨hBands, hOrdered⟩ := bandDrafts_takeTurns order hMeeting hTimeline
  have hOwned : (ownedIds (rawDrafts order micros params)).Nodup := rawDrafts_nodup hNodup
  rw [hRaw, ownedIds_append] at hOwned
  have hDisjoint := (List.nodup_flatMap.mp hOwned.of_append_right).2
  have hCross : ∀ d ∈ (buildBands order micros params).map (bandDraft params), ∀ e ∈ extra,
      trackPartition d ≠ trackPartition e := by
    intro d hd e he hSame
    obtain ⟨band, -, rfl⟩ := List.mem_map.mp hd
    obtain ⟨name, hName⟩ := (hExtra e he).2
    exact meeting_ne_partitionName band.id name (hSame.trans hName)
  refine ⟨extra, hRaw, ⟨?_, ?_, fun draft hDraft => (hExtra draft hDraft).1, ?_⟩⟩
  · refine List.pairwise_append.mpr ⟨hBands.imp ?_, ?_, ?_⟩
    · intro d e hPair hSame
      exact ⟨(hPair hSame).1, fun hStart => absurd hStart (hPair hSame).2⟩
    · refine (hTurns.and hDisjoint).imp_of_mem ?_
      intro d e hd _ hBoth hSame
      exact ⟨hBoth.1 hSame, fun _ => firstFrame_ne (hExtra d hd).1.ne_nil hBoth.2⟩
    · exact fun d hd e he hSame => absurd hSame (hCross d hd e he)
  · intro draft hDraft
    rcases List.mem_append.mp hDraft with hBand | hTrack
    · exact hOrdered draft hBand
    · exact (hExtra draft hTrack).1.le
  · intro d hd e he hSame hStart
    rcases List.mem_append.mp he with hBand | hTrack
    · have : Std.Symm fun d e : SessionDraft =>
          trackPartition d = trackPartition e → d.startedAt ≠ e.startedAt :=
        ⟨fun _ _ h hSame => (h hSame.symm).symm⟩
      by_contra hNe
      exact (hBands.imp fun hPair hSame => (hPair hSame).2).forall hBand hd hNe hSame hStart
    · exact absurd hSame.symm (hCross d hd e hTrack)

/-! ## When all bounds are those of the frames -/

/-- No draft stands in the way of a single-instant one of its partition. -/
def NoneOvertaken (drafts : List SessionDraft) : Prop :=
  ∀ e ∈ drafts, ∀ d ∈ drafts, ¬Overtakes e d

/-- Every meeting band keeps the spans at the ends of its chain. -/
def MeetingsKeepEnds (order : HashOrder) (micros : List MicroSpan)
    (params : SegmentationParams) : Prop :=
  ∀ i chain, (emptyBands order micros params)[i]? = some chain →
    KeepsEnds (emptyBands order micros params) micros i chain

theorem bandDrafts_extent_iff (hTimeline : Timeline micros)
    (hExtent : ∀ span ∈ micros, span.HasExtent frames) :
    (∀ draft ∈ (buildBands order micros params).map (bandDraft params),
      Extent frames draft.frameIds draft.startedAt draft.endedAt) ↔
      MeetingsKeepEnds order micros params := by
  have hLength : (buildBands order micros params).length =
      (emptyBands order micros params).length := by
    simpa using congrArg List.length (buildBands_extent order micros params)
  have hBand : ∀ band : Band, (Extent frames (sortDedup band.frameIds) band.startMs band.endMs ↔
      Extent frames band.frameIds band.startMs band.endMs) := fun band =>
    ⟨fun h => h.congr fun _ => mem_sortDedup.symm, fun h => h.congr fun _ => mem_sortDedup⟩
  constructor
  · intro h i chain hChain
    obtain ⟨hi, -⟩ := List.getElem?_eq_some_iff.mp hChain
    have hGet := List.getElem?_eq_getElem (l := buildBands order micros params) (i := i)
      (by omega)
    refine (band_extent_iff hTimeline hExtent hGet hChain).mp ((hBand _).mp ?_)
    exact h _ (List.mem_map_of_mem (List.getElem_mem _))
  · intro h draft hDraft
    obtain ⟨band, hIn, rfl⟩ := List.mem_map.mp hDraft
    obtain ⟨i, hGet⟩ := List.mem_iff_getElem?.mp hIn
    obtain ⟨chain, hChain, -⟩ := buildBands_getElem? hGet
    exact (hBand band).mpr ((band_extent_iff hTimeline hExtent hGet hChain).mpr (h i chain hChain))

theorem rawDrafts_extent_iff (order : HashOrder) (hMerge : 0 < params.mergeGapMs)
    (hMeeting : 0 < params.meetingGapMs) (hTimeline : Timeline micros)
    (hExtent : ∀ span ∈ micros, span.HasExtent frames)
    (hNodup : (micros.flatMap MicroSpan.frameIds).Nodup) :
    (∀ draft ∈ arrange (rawDrafts order micros params),
      Extent frames draft.frameIds draft.startedAt draft.endedAt) ↔
      MeetingsKeepEnds order micros params ∧ NoneOvertaken (rawDrafts order micros params) := by
  obtain ⟨extra, hRaw, hSplit⟩ := rawDrafts_split order hMerge hMeeting hTimeline hExtent hNodup
  have hSequenced := hSplit.sequenced
  have hOrdered := hSplit.ordered
  rw [← hRaw] at hSequenced hOrdered
  constructor
  · intro h
    have hNone : NoneOvertaken (rawDrafts order micros params) := by
      intro e he d hd hOver
      obtain ⟨pushed, hIn, hFrames, hLater⟩ := arrange_overtaken hOrdered he hd hOver
      have hPushed := h pushed hIn
      rw [hFrames] at hPushed
      rw [hRaw] at he hd
      -- no band is overtaken, so the draft is one of a track
      rcases List.mem_append.mp hd with hBand | hTrack
      · obtain rfl := hSplit.bands d hBand e he hOver.partition hOver.start
        exact absurd hOver.longer (lt_irrefl _)
      · have hBounds := (hSplit.extent d hTrack).unique hPushed
        have hInstant := hOver.instant
        omega
    refine ⟨(bandDrafts_extent_iff hTimeline hExtent).mp fun draft hDraft => ?_, hNone⟩
    refine h draft ?_
    rw [arrange_eq_sortDrafts hSequenced hOrdered hNone]
    refine (sortByKey_perm _ _).mem_iff.mpr ?_
    rw [hRaw]
    exact List.mem_append_left _ hDraft
  · rintro ⟨hMeetings, hNone⟩ draft hDraft
    rw [arrange_eq_sortDrafts hSequenced hOrdered hNone] at hDraft
    have hIn := (sortByKey_perm _ _).mem_iff.mp hDraft
    rw [hRaw] at hIn
    rcases List.mem_append.mp hIn with hBand | hTrack
    · exact (bandDrafts_extent_iff hTimeline hExtent).mpr hMeetings draft hBand
    · exact hSplit.extent draft hTrack

/-- A track that passes a positive minimal length closes into more than an instant. -/
theorem finalizeTrack_longer {track : OpenTrack} {closedByGap : Bool} {draft : SessionDraft}
    (hMinLen : 0 < params.minLenMs) (hFocus : 0 < params.focusMinLenMs)
    (h : finalizeTrack order track closedByGap params = some draft) :
    draft.startedAt < draft.endedAt := by
  unfold finalizeTrack at h
  split at h
  · dsimp only at h
    split at h
    · rename_i hGates
      have hGate := hGates.1
      rw [← Option.some.inj h]
      dsimp only
      omega
    · cases h
  · dsimp only at h
    split at h
    · rename_i hGates
      have hGate := hGates.1
      rw [← Option.some.inj h]
      dsimp only
      omega
    · cases h

/-- Only drafts of a single instant can be overtaken, so positive minimal lengths, such
as the shipped ones, rule it out. -/
theorem noneOvertaken_of_minLen (order : HashOrder) (hMerge : 0 < params.mergeGapMs)
    (hMeeting : 0 < params.meetingGapMs) (hMinLen : 0 < params.minLenMs)
    (hFocus : 0 < params.focusMinLenMs) (hTimeline : Timeline micros)
    (hExtent : ∀ span ∈ micros, span.HasExtent frames)
    (hNodup : (micros.flatMap MicroSpan.frameIds).Nodup) :
    NoneOvertaken (rawDrafts order micros params) := by
  obtain ⟨extra, hRaw, hSplit⟩ := rawDrafts_split order hMerge hMeeting hTimeline hExtent hNodup
  have hRule : TrackRule (fun _ => True) (fun _ => True) (fun _ => True) := by
    constructor <;> intros <;> trivial
  obtain ⟨extra', hRaw', hClosed⟩ := rawDrafts_keeps hRule order params
    fun span (_ : span ∈ micros) => trivial
  obtain rfl : extra = extra' := List.append_cancel_left (hRaw.symm.trans hRaw')
  intro e he d hd hOver
  rw [hRaw] at he hd
  rcases List.mem_append.mp hd with hBand | hTrack
  · obtain rfl := hSplit.bands d hBand e he hOver.partition hOver.start
    exact absurd hOver.longer (lt_irrefl _)
  · obtain ⟨track, closedByGap, -, hFinal⟩ := hClosed d hTrack
    have hLonger := finalizeTrack_longer hMinLen hFocus hFinal
    have hInstant := hOver.instant
    omega

/-- A call over half an hour with another call inside it, in two visits. -/
def twoMeetings : List SegmenterFrame :=
  [(0, "zoom"), (4, "zoom"), (8, "zoom"), (9, "teams"), (12, "teams"), (13, "zoom"), (16, "zoom"),
    (19, "zoom"), (20, "teams"), (23, "teams"), (24, "zoom"), (28, "zoom"), (32, "zoom")].map
    fun (minute, app) =>
      { id := minute, capturedAt := minute * 60000, appHint := some app, windowTitle := none,
        browserUrl := none }

def meetingTaxonomy : Taxonomy where
  version := 3
  entries := ["zoom", "teams"].map fun app =>
    { id := app, kind := .meeting, host := some .desktop, appHints := [app], titlePatterns := [],
      titleExcludePatterns := [], prefixRanges := [] }

end ScreenSearch.Sessions
