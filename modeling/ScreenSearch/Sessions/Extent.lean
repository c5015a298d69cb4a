import ScreenSearch.Sessions.Timeline

/-!
# The extent of frames

`Extent frames ids lo hi` says that the frames named by `ids` are captured from
`lo` to `hi`, the first of them at `lo` and the last at `hi`. What a frame has and
frames keep when others follow them holds of every micro span; so a micro span has
the extent of its own frames.

Main results:

* `Extent.append` — the extent of two sets of frames;
* `segmentMicro_joins` — what joins holds of every micro span;
* `segmentMicro_extent` — a micro span begins and ends with its frames;
* `segmentMicro_partition` — micro spans cut the keyed frames into runs.
-/

namespace ScreenSearch.Sessions

open Assoc Sorting

structure Extent (frames : List SegmenterFrame) (ids : List Int) (lo hi : Int) : Prop where
  low : ∃ frame ∈ frames, frame.id ∈ ids ∧ frame.capturedAt = lo
  high : ∃ frame ∈ frames, frame.id ∈ ids ∧ frame.capturedAt = hi
  within : ∀ frame ∈ frames, frame.id ∈ ids → lo ≤ frame.capturedAt ∧ frame.capturedAt ≤ hi

variable {frames : List SegmenterFrame} {ids others : List Int} {lo hi lo' hi' : Int}

theorem Extent.le (h : Extent frames ids lo hi) : lo ≤ hi := by
  obtain ⟨frame, hFrame, hId, rfl⟩ := h.low
  exact (h.within frame hFrame hId).2

theorem Extent.ne_nil (h : Extent frames ids lo hi) : ids ≠ [] := by
  obtain ⟨frame, -, hId, -⟩ := h.low
  exact List.ne_nil_of_mem hId

/-- An extent only depends on which frames are named. -/
theorem Extent.congr (h : Extent frames ids lo hi) (hMem : ∀ x, x ∈ others ↔ x ∈ ids) :
    Extent frames others lo hi := by
  obtain ⟨first, hFirst, hFirstId, hLow⟩ := h.low
  obtain ⟨last, hLast, hLastId, hHigh⟩ := h.high
  refine ⟨⟨first, hFirst, (hMem _).mpr hFirstId, hLow⟩, ⟨last, hLast, (hMem _).mpr hLastId, hHigh⟩, ?_⟩
  intro frame hFrame hId
  exact h.within frame hFrame ((hMem _).mp hId)

theorem Extent.unique (h : Extent frames ids lo hi) (h' : Extent frames ids lo' hi') :
    lo = lo' ∧ hi = hi' := by
  obtain ⟨f, hf, hfId, rfl⟩ := h.low
  obtain ⟨g, hg, hgId, rfl⟩ := h.high
  obtain ⟨f', hf', hfId', rfl⟩ := h'.low
  obtain ⟨g', hg', hgId', rfl⟩ := h'.high
  have hLow := h.within f' hf' hfId'
  have hHigh := h.within g' hg' hgId'
  have hLow' := h'.within f hf hfId
  have hHigh' := h'.within g hg hgId
  omega

/-- Frames that come together reach from the earlier start to the later end. -/
theorem Extent.append (h : Extent frames ids lo hi) (h' : Extent frames others lo' hi') :
    Extent frames (ids ++ others) (min lo lo') (max hi hi') := by
  refine ⟨?_, ?_, ?_⟩
  · rcases min_choice lo lo' with hMin | hMin
    · obtain ⟨frame, hFrame, hId, hAt⟩ := h.low
      exact ⟨frame, hFrame, List.mem_append_left _ hId, hAt.trans hMin.symm⟩
    · obtain ⟨frame, hFrame, hId, hAt⟩ := h'.low
      exact ⟨frame, hFrame, List.mem_append_right _ hId, hAt.trans hMin.symm⟩
  · rcases max_choice hi hi' with hMax | hMax
    · obtain ⟨frame, hFrame, hId, hAt⟩ := h.high
      exact ⟨frame, hFrame, List.mem_append_left _ hId, hAt.trans hMax.symm⟩
    · obtain ⟨frame, hFrame, hId, hAt⟩ := h'.high
      exact ⟨frame, hFrame, List.mem_append_right _ hId, hAt.trans hMax.symm⟩
  · intro frame hFrame hId
    rcases List.mem_append.mp hId with hIn | hIn
    · have := h.within frame hFrame hIn
      omega
    · have := h'.within frame hFrame hIn
      omega

/-- Frames that come after the others extend them. -/
theorem Extent.followed (h : Extent frames ids lo hi) (h' : Extent frames others lo' hi')
    (hAfter : hi ≤ lo') : Extent frames (ids ++ others) lo hi' := by
  have hJoin := h.append h'
  have := h.le
  have := h'.le
  rw [min_eq_left (by omega), max_eq_right (by omega)] at hJoin
  exact hJoin

/-! ## Joining frames -/

/-- What a single frame has, and what frames keep when others follow them in time. -/
structure Joins (frames : List SegmenterFrame) (R : List Int → Int → Int → Prop) : Prop where
  single : ∀ frame ∈ frames, R [frame.id] frame.capturedAt frame.capturedAt
  followed : ∀ {ids others : List Int} {lo hi lo' hi' : Int}, R ids lo hi → R others lo' hi' →
    hi ≤ lo' → R (ids ++ others) lo hi'

variable {R : List Int → Int → Int → Prop}

theorem pushFrame_joins (hJoins : Joins frames R) {gapCloseMs : Int} {segments : List Segment}
    {key : String} {recognition : Option Recognized} {frame : SegmenterFrame}
    (hFrame : frame ∈ frames) (hLater : ∀ segment ∈ segments, segment.lastTs ≤ frame.capturedAt)
    (h : ∀ segment ∈ segments, R segment.frameIds segment.firstTs segment.lastTs) :
    ∀ segment ∈ pushFrame gapCloseMs segments key recognition frame,
      R segment.frameIds segment.firstTs segment.lastTs := by
  have hOwn := hJoins.single frame hFrame
  have hNew : ∀ segment ∈ segments ++ [Segment.ofFrame key recognition frame],
      R segment.frameIds segment.firstTs segment.lastTs := by
    intro segment hSegment
    rcases List.mem_append.mp hSegment with hIn | hIn
    · exact h segment hIn
    · rw [List.mem_singleton.mp hIn]
      exact hOwn
  unfold pushFrame
  split
  · rename_i last hLast
    have hMem := List.mem_of_getLast? hLast
    split
    · intro segment hSegment
      rcases List.mem_append.mp hSegment with hIn | hIn
      · exact h segment (List.dropLast_subset _ hIn)
      · rw [List.mem_singleton.mp hIn]
        show R (last.frameIds ++ [frame.id]) last.firstTs frame.capturedAt
        exact hJoins.followed (h last hMem) hOwn (hLater last hMem)
    · exact hNew
  · exact hNew

theorem segmentsFrom_joins (hJoins : Joins frames R) {lowercase : String → String}
    {taxonomy : Taxonomy} {gapCloseMs : Int} {segments : List Segment}
    {ordered : List SegmenterFrame} (hSub : ∀ frame ∈ ordered, frame ∈ frames)
    (hOrdered : ordered.Pairwise fun a b => timeKey a ≤ timeKey b)
    (hSegmented : Segmented segments ordered)
    (h : ∀ segment ∈ segments, R segment.frameIds segment.firstTs segment.lastTs) :
    ∀ segment ∈ segmentsFrom lowercase taxonomy gapCloseMs segments ordered,
      R segment.frameIds segment.firstTs segment.lastTs := by
  induction ordered generalizing segments with
  | nil => exact h
  | cons frame ordered ih =>
    rw [segmentsFrom, List.foldl_cons, ← segmentsFrom]
    have hRest : ∀ f ∈ ordered, f ∈ frames := fun f hf => hSub f (List.mem_cons_of_mem _ hf)
    split
    · refine ih hRest hOrdered.of_cons ⟨hSegmented.proper, hSegmented.before, ?_⟩ h
      intro segment hSegment f hf
      exact hSegmented.later segment hSegment f (List.mem_cons_of_mem _ hf)
    · refine ih hRest hOrdered.of_cons (pushFrame_segmented hSegmented fun f hf =>
        List.rel_of_pairwise_cons hOrdered hf) ?_
      refine pushFrame_joins hJoins (hSub frame (List.mem_cons_self ..)) ?_ h
      intro segment hSegment
      exact (hSegmented.later segment hSegment frame (List.mem_cons_self ..)).1

theorem segmentsOf_joins (hJoins : Joins frames R) (lowercase : String → String)
    (taxonomy : Taxonomy) (params : SegmentationParams) :
    ∀ segment ∈ segmentsOf lowercase frames taxonomy params,
      R segment.frameIds segment.firstTs segment.lastTs :=
  segmentsFrom_joins hJoins (fun _ hFrame => (sortByKey_perm timeKey frames).subset hFrame)
    (sortByKey_pairwise _ _) ⟨by simp, List.Pairwise.nil, by simp⟩ (by simp)

/-- Segments in time order reach from the first to the last of them. -/
theorem taken_joins (hJoins : Joins frames R) {segment : Segment} {taken : List Segment}
    (h : ∀ s ∈ segment :: taken, R s.frameIds s.firstTs s.lastTs)
    (hBefore : (segment :: taken).Pairwise Segment.Before) :
    R (segment.frameIds ++ taken.flatMap Segment.frameIds) segment.firstTs
      ((taken.getLast?.map Segment.lastTs).getD segment.lastTs) := by
  induction taken using List.reverseRecOn with
  | nil =>
    rw [List.flatMap_nil, List.append_nil]
    exact h segment (List.mem_cons_self ..)
  | append_singleton taken last ih =>
    have hInit := ih (fun s hs => h s (by
        rw [List.mem_cons] at hs ⊢
        exact hs.imp_right (List.mem_append_left _)))
      (hBefore.sublist ((List.sublist_append_left taken [last]).cons_cons segment))
    have hLast := h last (by simp)
    have hAfter : (taken.getLast?.map Segment.lastTs).getD segment.lastTs ≤ last.firstTs := by
      rw [← List.cons_append, List.pairwise_append] at hBefore
      cases hPrevious : taken.getLast? with
      | none => exact (hBefore.2.2 segment (by simp) last (by simp)).disjoint
      | some previous =>
        have hMem : previous ∈ segment :: taken :=
          List.mem_cons_of_mem _ (List.mem_of_getLast? hPrevious)
        exact (hBefore.2.2 previous hMem last (by simp)).disjoint
    have hJoin := hJoins.followed hInit hLast hAfter
    simpa [List.flatMap_append, List.append_assoc] using hJoin

theorem microRuns_joins (hJoins : Joins frames R) {order : HashOrder}
    {params : SegmentationParams} {segments : List Segment}
    (h : ∀ segment ∈ segments, R segment.frameIds segment.firstTs segment.lastTs)
    (hBefore : segments.Pairwise Segment.Before) :
    ∀ span ∈ microRuns order params segments, R span.frameIds span.firstTs span.lastTs := by
  induction segments using microRuns.induct order params with
  | case1 => simp [microRuns]
  | case2 segment rest ih =>
    obtain ⟨taken, hSplit, hTakenIds, hLast⟩ :=
      growRun_taken order params segment.key segment.lastTs segment.frameIds [] rest
    rw [List.nil_append] at hSplit
    set run := runFrom order params segment rest with hRun
    have hSplit : rest = taken ++ run.rest := hSplit
    rw [hSplit] at h hBefore
    rw [microRuns, ← hRun]
    intro span hSpan
    rcases List.mem_cons.mp hSpan with rfl | hSpan
    · show R run.frameIds segment.firstTs run.lastTs
      have hTaken := taken_joins hJoins (fun s hs => h s (by
          rw [← List.cons_append]
          exact List.mem_append_left _ hs))
        (hBefore.sublist (List.sublist_append_left (segment :: taken) run.rest))
      rw [← hTakenIds, ← hLast] at hTaken
      exact hTaken
    · refine ih (fun s hs => h s ?_) (List.pairwise_append.mp hBefore.of_cons).2.1 span hSpan
      exact List.mem_cons_of_mem _ (List.mem_append_right _ hs)

/-- What joins holds of every micro span. -/
theorem segmentMicro_joins (hJoins : Joins frames R) (lowercase : String → String)
    (order : HashOrder) (taxonomy : Taxonomy) (params : SegmentationParams) :
    ∀ span ∈ segmentMicro lowercase order frames taxonomy params,
      R span.frameIds span.firstTs span.lastTs := by
  rw [segmentMicro_eq_microRuns]
  exact microRuns_joins hJoins (segmentsOf_joins hJoins lowercase taxonomy params)
    (segmentsOf_segmented lowercase frames taxonomy params).before

/-! ## The extent of segments and micro spans -/

theorem Extent.singleton {frame : SegmenterFrame} (hIds : (frames.map SegmenterFrame.id).Nodup)
    (hFrame : frame ∈ frames) :
    Extent frames [frame.id] frame.capturedAt frame.capturedAt := by
  refine ⟨⟨frame, hFrame, by simp, rfl⟩, ⟨frame, hFrame, by simp, rfl⟩, ?_⟩
  intro other hOther hId
  obtain rfl := List.inj_on_of_nodup_map hIds hOther hFrame (List.mem_singleton.mp hId)
  exact ⟨le_rfl, le_rfl⟩

theorem extent_joins (hIds : (frames.map SegmenterFrame.id).Nodup) :
    Joins frames (Extent frames) where
  single _ hFrame := Extent.singleton hIds hFrame
  followed h h' hAfter := h.followed h' hAfter

def Segment.HasExtent (frames : List SegmenterFrame) (segment : Segment) : Prop :=
  Extent frames segment.frameIds segment.firstTs segment.lastTs

def MicroSpan.HasExtent (frames : List SegmenterFrame) (span : MicroSpan) : Prop :=
  Extent frames span.frameIds span.firstTs span.lastTs

theorem segmentsOf_extent (lowercase : String → String) (taxonomy : Taxonomy)
    (params : SegmentationParams) (hIds : (frames.map SegmenterFrame.id).Nodup) :
    ∀ segment ∈ segmentsOf lowercase frames taxonomy params, segment.HasExtent frames :=
  segmentsOf_joins (extent_joins hIds) lowercase taxonomy params

/-- A micro span begins with the first of its frames and ends with the last. -/
theorem segmentMicro_extent (lowercase : String → String) (order : HashOrder) (taxonomy : Taxonomy)
    (params : SegmentationParams) (hIds : (frames.map SegmenterFrame.id).Nodup) :
    ∀ span ∈ segmentMicro lowercase order frames taxonomy params, span.HasExtent frames :=
  segmentMicro_joins (extent_joins hIds) lowercase order taxonomy params

/-! ## First and last frames -/

/-- The first of the frames is captured at `lo` and the last at `hi`. -/
structure Ends (frames : List SegmenterFrame) (ids : List Int) (lo hi : Int) : Prop where
  first : ∃ frame ∈ frames, ids.head? = some frame.id ∧ frame.capturedAt = lo
  last : ∃ frame ∈ frames, ids.getLast? = some frame.id ∧ frame.capturedAt = hi

theorem Ends.followed (h : Ends frames ids lo hi) (h' : Ends frames others lo' hi') :
    Ends frames (ids ++ others) lo hi' := by
  obtain ⟨first, hFirst, hHead, hLow⟩ := h.first
  obtain ⟨last, hLast, hTail, hHigh⟩ := h'.last
  refine ⟨⟨first, hFirst, ?_, hLow⟩, ⟨last, hLast, ?_, hHigh⟩⟩
  · rw [List.head?_append, hHead, Option.some_or]
  · rw [List.getLast?_append, hTail, Option.some_or]

theorem ends_joins (frames : List SegmenterFrame) : Joins frames (Ends frames) where
  single frame hFrame := ⟨⟨frame, hFrame, rfl, rfl⟩, ⟨frame, hFrame, rfl, rfl⟩⟩
  followed h h' _ := h.followed h'

/-- The micro spans cut the timeline up: they follow one another in time, each from its first
frame to its last, and together they hold the frames that have a context in time order. -/
theorem segmentMicro_partition (lowercase : String → String) (order : HashOrder)
    (frames : List SegmenterFrame) (taxonomy : Taxonomy) (params : SegmentationParams) :
    Timeline (segmentMicro lowercase order frames taxonomy params) ∧
      (∀ span ∈ segmentMicro lowercase order frames taxonomy params,
        (∃ frame ∈ frames, span.frameIds.head? = some frame.id ∧
          frame.capturedAt = span.firstTs) ∧
        ∃ frame ∈ frames, span.frameIds.getLast? = some frame.id ∧
          frame.capturedAt = span.lastTs) ∧
      (segmentMicro lowercase order frames taxonomy params).flatMap MicroSpan.frameIds =
        ((sortByKey timeKey frames).filter fun frame =>
          (contextOf lowercase frame taxonomy).isSome).map SegmenterFrame.id := by
  refine ⟨segmentMicro_timeline lowercase order frames taxonomy params, ?_, ?_⟩
  · intro span hSpan
    have hEnds := segmentMicro_joins (ends_joins frames) lowercase order taxonomy params span hSpan
    exact ⟨hEnds.first, hEnds.last⟩
  · rw [segmentMicro_eq_microRuns, microRuns_frameIds, segmentsOf_frameIds, keyedIds]

end ScreenSearch.Sessions
