import ScreenSearch.Sessions.Cut

/-!
# Order independence

Neither the order in which the frames come nor the order in which a hash map is
iterated shows in the drafts. Every choice the walk makes is by a key that tells
the candidates apart, so the walk itself is the same function whatever the hash
order; only the tracks that are still open at the end come out in that order,
and the final sort, whose key tells them apart by their first frame, undoes it.

Main results:

* `walkSpan_order` — the walk does not depend on the hash order;
* `sortDrafts_rawDrafts_order` — nor do the drafts, once sorted;
* `segment_order_independent` — the segmenter depends on neither order.
-/

namespace ScreenSearch.Sessions

open Assoc Sorting

variable (order order' : HashOrder) (params : SegmentationParams)

/-! ## The choices -/

theorem finalizeTrack_order (track : OpenTrack) (closedByGap : Bool) :
    finalizeTrack order track closedByGap params = finalizeTrack order' track closedByGap params := by
  unfold finalizeTrack
  rw [dominantStem_order order order']

/-- Two tracks of one map that end together differ in their name. -/
theorem lastTouched_order (tracks : HashMap OpenTrack) (span : MicroSpan) :
    lastTouched order params tracks span = lastTouched order' params tracks span := by
  unfold lastTouched
  have hPerm : (order.entries tracks).Perm (order'.entries tracks) :=
    (order.entries_perm _).trans (order'.entries_perm _).symm
  dsimp only
  rw [maxByKey_eq_of_perm _ (hPerm.filter _)]
  intro a ha b hb hKey
  simp only [EmbeddingLike.apply_eq_iff_eq, Prod.mk.injEq] at hKey
  have hLookupA := HashOrder.mem_entries.mp (List.mem_of_mem_filter ha)
  have hLookupB := HashOrder.mem_entries.mp (List.mem_of_mem_filter hb)
  obtain ⟨idA, trackA⟩ := a
  obtain ⟨idB, trackB⟩ := b
  obtain rfl : idA = idB := hKey.2
  rw [hLookupA] at hLookupB
  obtain rfl : trackA = trackB := Option.some.inj hLookupB
  rfl

/-! ## The walk -/

theorem extendOrOpenFocus_order (t : Tracks) (span : MicroSpan) :
    extendOrOpenFocus order params t span = extendOrOpenFocus order' params t span := by
  unfold extendOrOpenFocus Tracks.finalize
  simp only [finalizeTrack_order order order']

theorem flushSpan_order (rampStart : Option Int) :
    flushSpan order params rampStart = flushSpan order' params rampStart := by
  funext state span
  unfold flushSpan
  rw [lastTouched_order order order', extendOrOpenFocus_order order order']

theorem flushPending_order (rampStart : Option Int) (w : Walk) :
    flushPending order params rampStart w = flushPending order' params rampStart w := by
  unfold flushPending
  rw [flushSpan_order order order']

theorem closeGapped_order (w : Walk) (id : String) (span : MicroSpan) :
    closeGapped order params w id span = closeGapped order' params w id span := by
  unfold closeGapped Tracks.finalize
  simp only [finalizeTrack_order order order']

/-- One step of the walk does not depend on the hash order. -/
theorem walkSpan_order : walkSpan order params = walkSpan order' params := by
  funext w span
  unfold walkSpan flushStale walkAi walkNone
  simp only [flushPending_order order order', closeGapped_order order order',
    extendOrOpenFocus_order order order']

/-! ## The drafts -/

/-- The drafts of two hash orders: the tracks that are open at the end may come out
in another order, all the rest is the same. -/
theorem rawDrafts_order (micros : List MicroSpan) :
    (rawDrafts order micros params).Perm (rawDrafts order' micros params) := by
  unfold rawDrafts finishWalk
  simp only [buildBands_order order order', walkSpan_order order order',
    flushPending_order order order', finalizeTrack_order order order']
  refine (List.Perm.append_left _ ?_).append_right _
  exact ((order.entries_perm _).trans (order'.entries_perm _).symm).filterMap _

variable {order order' params}

/-- A draft without a first frame is a band. -/
theorem filter_rawDrafts_empty {low high : Int} {micros : List MicroSpan}
    (h : ∀ span ∈ micros, span.Within low high) (start : Int) (contextKey : String) :
    (rawDrafts order micros params).filter (fun draft =>
        draftKey draft = toLex (start, toLex ((⊥ : WithBot Int), contextKey))) =
      ((buildBands order micros params).map (bandDraft params)).filter fun draft =>
        draftKey draft = toLex (start, toLex ((⊥ : WithBot Int), contextKey)) := by
  obtain ⟨extra, hRaw, hExtra, -⟩ := rawDrafts_shape order params h
  have hNil : extra.filter (fun draft =>
      draftKey draft = toLex (start, toLex ((⊥ : WithBot Int), contextKey))) = [] := by
    rw [List.filter_eq_nil_iff]
    intro draft hDraft hKey
    simp only [draftKey, decide_eq_true_eq, EmbeddingLike.apply_eq_iff_eq, Prod.mk.injEq] at hKey
    exact hExtra draft hDraft (List.head?_eq_none_iff.mp hKey.2.1)
  rw [hRaw, List.filter_append, hNil, List.append_nil]

/-- Sorting undoes the hash order. -/
theorem sortDrafts_rawDrafts_order {low high : Int} {micros : List MicroSpan}
    (h : ∀ span ∈ micros, span.Within low high)
    (hNodup : (micros.flatMap MicroSpan.frameIds).Nodup) :
    sortDrafts (rawDrafts order micros params) = sortDrafts (rawDrafts order' micros params) := by
  refine sortByKey_eq_of_filter draftKey fun k => ?_
  obtain ⟨start, first, contextKey⟩ := k
  cases first with
  | bot =>
    show (rawDrafts order micros params).filter (fun draft =>
        draftKey draft = toLex (start, toLex ((⊥ : WithBot Int), contextKey))) =
      (rawDrafts order' micros params).filter fun draft =>
        draftKey draft = toLex (start, toLex ((⊥ : WithBot Int), contextKey))
    rw [filter_rawDrafts_empty h, filter_rawDrafts_empty h, buildBands_order order order']
  | coe x =>
    have hOwned : (ownedIds (rawDrafts order micros params)).Nodup := rawDrafts_nodup hNodup
    exact perm_eq_of_length_le_one ((rawDrafts_order order order' params micros).filter _)
      (filter_draftKey_length_le_one hOwned start x contextKey)

/-! ## The segmenter -/

/-- A timeline lies in some interval. -/
theorem Timeline.within {micros : List MicroSpan} (h : Timeline micros) :
    ∃ low high, ∀ span ∈ micros, span.Within low high := by
  obtain ⟨low, hLow⟩ := exists_low micros
  obtain ⟨high, hHigh⟩ : ∃ high, ∀ span ∈ micros, span.lastTs ≤ high := by
    induction micros with
    | nil => exact ⟨0, by simp⟩
    | cons span micros ih =>
      obtain ⟨high, hHigh⟩ := ih ⟨fun s hs => h.proper s (List.mem_cons_of_mem _ hs), h.before.of_cons⟩
        fun s hs => hLow s (List.mem_cons_of_mem _ hs)
      refine ⟨max span.lastTs high, fun s hs => ?_⟩
      rcases List.mem_cons.mp hs with rfl | hs
      · exact le_max_left _ _
      · exact (hHigh s hs).trans (le_max_right _ _)
  refine ⟨low, high, fun span hSpan => ?_⟩
  have hProper := h.proper span hSpan
  exact ⟨hLow span hSpan, hProper.ordered, hHigh span hSpan, hProper.frames⟩

/-- Frames with distinct ids come out of the sort in one order. -/
theorem segmentsOf_perm (lowercase : String → String) {frames frames' : List SegmenterFrame}
    (taxonomy : Taxonomy) (params : SegmentationParams)
    (hIds : (frames.map SegmenterFrame.id).Nodup) (hPerm : frames.Perm frames') :
    segmentsOf lowercase frames taxonomy params = segmentsOf lowercase frames' taxonomy params := by
  unfold segmentsOf
  rw [sortByKey_eq_of_perm timeKey hPerm]
  intro a ha b hb hKey
  have hId : a.id = b.id := congrArg (fun k => (ofLex k).2) hKey
  exact List.inj_on_of_nodup_map hIds ha hb hId

/-- The drafts depend neither on the order of the frames nor on the hash order. -/
theorem segment_order_independent (lowercase : String → String) (order order' : HashOrder)
    {frames frames' : List SegmenterFrame} (taxonomy : Taxonomy) (params : SegmentationParams)
    (hIds : (frames.map SegmenterFrame.id).Nodup) (hPerm : frames.Perm frames') :
    segmentWithTaxonomy lowercase order frames taxonomy params =
      segmentWithTaxonomy lowercase order' frames' taxonomy params := by
  have hMicros : segmentMicro lowercase order frames taxonomy params =
      segmentMicro lowercase order' frames' taxonomy params := by
    rw [segmentMicro_order lowercase order order', segmentMicro_eq_microRuns,
      segmentMicro_eq_microRuns, segmentsOf_perm lowercase taxonomy params hIds hPerm]
  have hNodup : ((segmentMicro lowercase order frames taxonomy params).flatMap
      MicroSpan.frameIds).Nodup :=
    (segmentMicro_frameIds_perm lowercase order frames taxonomy params).nodup_iff.mpr
      (keyedIds_nodup hIds)
  obtain ⟨low, high, hWithin⟩ :=
    (segmentMicro_timeline lowercase order frames taxonomy params).within
  unfold segmentWithTaxonomy
  dsimp only
  rw [sortDrafts_rawDrafts_order hWithin hNodup, hMicros]

theorem segment_order_independent_threeFrames :
    segmentWithTaxonomy id .stored threeFrames ⟨3, []⟩ keepAll =
      segmentWithTaxonomy id .reversed threeFrames.reverse ⟨3, []⟩ keepAll :=
  segment_order_independent id .stored .reversed ⟨3, []⟩ keepAll (by decide)
    (List.reverse_perm threeFrames).symm

end ScreenSearch.Sessions
