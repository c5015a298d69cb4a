import ScreenSearch.Sessions.Micro

/-!
# Segments and micro spans in time

Segments and micro spans stand in time order and do not overlap.

Main results:

* `segmentMicro_timeline` — micro spans are in time order and disjoint;
* `segmentMicro_order` — they do not depend on the hash order.
-/

namespace ScreenSearch.Sessions

open Assoc Sorting

/-! ## Segments -/

/-- What holds of every segment and micro span on its own. -/
structure Segment.Proper (segment : Segment) : Prop where
  ordered : segment.firstTs ≤ segment.lastTs
  frames : segment.frameIds ≠ []

def Segment.timeKey (segment : Segment) : Int ×ₗ Int := toLex (segment.firstTs, segment.firstId)

/-- One segment after another. -/
structure Segment.Before (a b : Segment) : Prop where
  disjoint : a.lastTs ≤ b.firstTs
  key : a.timeKey ≤ b.timeKey

/-- The segments so far, and that the frames still to come are later. -/
structure Segmented (segments : List Segment) (rest : List SegmenterFrame) : Prop where
  proper : ∀ segment ∈ segments, segment.Proper
  before : segments.Pairwise Segment.Before
  later : ∀ segment ∈ segments, ∀ frame ∈ rest,
    segment.lastTs ≤ frame.capturedAt ∧ segment.timeKey ≤ timeKey frame

theorem pushFrame_segmented {gapCloseMs : Int} {segments : List Segment} {key : String}
    {recognition : Option Recognized} {frame : SegmenterFrame} {rest : List SegmenterFrame}
    (h : Segmented segments (frame :: rest)) (hrest : ∀ f ∈ rest, timeKey frame ≤ timeKey f) :
    Segmented (pushFrame gapCloseMs segments key recognition frame) rest := by
  have hts : ∀ f ∈ rest, frame.capturedAt ≤ f.capturedAt := by
    intro f hf
    rcases (Prod.Lex.le_iff ..).mp (hrest f hf) with hlt | ⟨heq, -⟩
    · exact hlt.le
    · exact heq.le
  have hlater : ∀ segment ∈ segments, segment.lastTs ≤ frame.capturedAt ∧
      segment.timeKey ≤ timeKey frame :=
    fun segment hsegment => h.later segment hsegment frame (List.mem_cons_self ..)
  have hopen : Segmented (segments ++ [Segment.ofFrame key recognition frame]) rest := by
    refine ⟨?_, ?_, ?_⟩
    · intro segment hsegment
      rcases List.mem_append.mp hsegment with hin | hnew
      · exact h.proper segment hin
      · rw [List.mem_singleton.mp hnew]
        exact ⟨le_rfl, by simp [Segment.ofFrame]⟩
    · rw [List.pairwise_append]
      refine ⟨h.before, List.pairwise_singleton _ _, ?_⟩
      intro segment hsegment new hnew
      rw [List.mem_singleton.mp hnew]
      exact ⟨(hlater segment hsegment).1, (hlater segment hsegment).2⟩
    · intro segment hsegment f hf
      rcases List.mem_append.mp hsegment with hin | hnew
      · exact h.later segment hin f (List.mem_cons_of_mem _ hf)
      · rw [List.mem_singleton.mp hnew]
        exact ⟨hts f hf, hrest f hf⟩
  rw [pushFrame]
  split
  · rename_i last hlast
    split
    · -- the last segment grows up to the frame
      obtain ⟨init, rfl⟩ : ∃ init, segments = init ++ [last] :=
        ⟨segments.dropLast, (List.dropLast_append_getLast? last hlast).symm⟩
      have hinit : ∀ segment ∈ init, segment ∈ init ++ [last] :=
        fun _ hin => List.mem_append_left _ hin
      have hmem : last ∈ init ++ [last] := by simp
      rw [List.dropLast_concat]
      refine ⟨?_, ?_, ?_⟩
      · intro segment hsegment
        rcases List.mem_append.mp hsegment with hin | hnew
        · exact h.proper segment (hinit segment hin)
        · rw [List.mem_singleton.mp hnew]
          exact ⟨(h.proper last hmem).ordered.trans (hlater last hmem).1, by simp [Segment.push]⟩
      · have hbefore := List.pairwise_append.mp h.before
        rw [List.pairwise_append]
        refine ⟨hbefore.1, List.pairwise_singleton _ _, ?_⟩
        intro segment hsegment new hnew
        rw [List.mem_singleton.mp hnew]
        have hpair := hbefore.2.2 segment hsegment last (by simp)
        exact ⟨hpair.disjoint, hpair.key⟩
      · intro segment hsegment f hf
        rcases List.mem_append.mp hsegment with hin | hnew
        · exact h.later segment (hinit segment hin) f (List.mem_cons_of_mem _ hf)
        · rw [List.mem_singleton.mp hnew]
          exact ⟨hts f hf, (h.later last hmem f (List.mem_cons_of_mem _ hf)).2⟩
    · exact hopen
  · exact hopen

theorem segmentsFrom_segmented {lowercase : String → String} {taxonomy : Taxonomy}
    {gapCloseMs : Int} {segments : List Segment} {ordered : List SegmenterFrame}
    (h : Segmented segments ordered)
    (hordered : ordered.Pairwise fun a b => timeKey a ≤ timeKey b) :
    Segmented (segmentsFrom lowercase taxonomy gapCloseMs segments ordered) [] := by
  induction ordered generalizing segments with
  | nil => exact h
  | cons frame ordered ih =>
    rw [segmentsFrom, List.foldl_cons, ← segmentsFrom]
    refine ih ?_ hordered.of_cons
    split
    · exact ⟨h.proper, h.before, fun segment hsegment f hf =>
        h.later segment hsegment f (List.mem_cons_of_mem _ hf)⟩
    · exact pushFrame_segmented h fun f hf => List.rel_of_pairwise_cons hordered hf

theorem segmentsOf_segmented (lowercase : String → String) (frames : List SegmenterFrame)
    (taxonomy : Taxonomy) (params : SegmentationParams) :
    Segmented (segmentsOf lowercase frames taxonomy params) [] :=
  segmentsFrom_segmented ⟨by simp, List.Pairwise.nil, by simp⟩ (sortByKey_pairwise _ _)

/-! ## Micro spans -/

/-- What holds of every micro span on its own. -/
structure MicroSpan.Proper (span : MicroSpan) : Prop where
  ordered : span.firstTs ≤ span.lastTs
  frames : span.frameIds ≠ []

structure MicroSpan.Before (a b : MicroSpan) : Prop where
  disjoint : a.lastTs ≤ b.firstTs
  key : a.timeKey ≤ b.timeKey

/-- Micro spans in time order, each ending before the next begins. -/
structure Timeline (micros : List MicroSpan) : Prop where
  proper : ∀ span ∈ micros, span.Proper
  before : micros.Pairwise MicroSpan.Before

/-- Where the time and the key of a micro span come from. -/
theorem microRuns_first {order : HashOrder} {params : SegmentationParams}
    {segments : List Segment} {span : MicroSpan} (h : span ∈ microRuns order params segments) :
    ∃ segment ∈ segments, span.firstTs = segment.firstTs ∧ span.timeKey = segment.timeKey ∧
      span.key = segment.key := by
  induction segments using microRuns.induct order params with
  | case1 => simp [microRuns] at h
  | case2 segment rest ih =>
    rw [microRuns, List.mem_cons] at h
    rcases h with rfl | h
    · exact ⟨segment, List.mem_cons_self .., rfl, rfl, rfl⟩
    · obtain ⟨found, hfound, hfirst⟩ := ih h
      obtain ⟨taken, hsplit, -⟩ :=
        growRun_taken order params segment.key segment.lastTs segment.frameIds [] rest
      rw [List.nil_append] at hsplit
      refine ⟨found, List.mem_cons_of_mem _ ?_, hfirst⟩
      rw [hsplit]
      exact List.mem_append_right _ hfound

/-- A micro span ends with one of the segments. -/
theorem microRuns_last {order : HashOrder} {params : SegmentationParams}
    {segments : List Segment} {span : MicroSpan} (h : span ∈ microRuns order params segments) :
    ∃ segment ∈ segments, span.lastTs = segment.lastTs := by
  induction segments using microRuns.induct order params with
  | case1 => simp [microRuns] at h
  | case2 segment rest ih =>
    obtain ⟨taken, hsplit, -, hlast⟩ :=
      growRun_taken order params segment.key segment.lastTs segment.frameIds [] rest
    rw [List.nil_append] at hsplit
    rw [microRuns, List.mem_cons] at h
    rcases h with rfl | h
    · rw [Segment.toMicro, runFrom, hlast]
      cases htaken : taken.getLast? with
      | none => exact ⟨segment, List.mem_cons_self .., rfl⟩
      | some last =>
        refine ⟨last, List.mem_cons_of_mem _ ?_, rfl⟩
        rw [hsplit]
        exact List.mem_append_left _ (List.mem_of_getLast? htaken)
    · obtain ⟨found, hfound, hfirst⟩ := ih h
      refine ⟨found, List.mem_cons_of_mem _ ?_, hfirst⟩
      rw [hsplit]
      exact List.mem_append_right _ hfound

theorem microRuns_timeline {order : HashOrder} {params : SegmentationParams}
    {segments : List Segment} (hproper : ∀ segment ∈ segments, segment.Proper)
    (hbefore : segments.Pairwise Segment.Before) :
    Timeline (microRuns order params segments) := by
  induction segments using microRuns.induct order params with
  | case1 => exact ⟨by simp [microRuns], by simp [microRuns]⟩
  | case2 segment rest ih =>
    obtain ⟨taken, hsplit, hids, hlast⟩ :=
      growRun_taken order params segment.key segment.lastTs segment.frameIds [] rest
    rw [List.nil_append] at hsplit
    -- the run takes the segments in front, and the rest are behind it
    set run := runFrom order params segment rest with hrun
    have hsplit : rest = taken ++ run.rest := hsplit
    have hids : run.frameIds = segment.frameIds ++ taken.flatMap Segment.frameIds := hids
    have hlast : run.lastTs = (taken.getLast?.map Segment.lastTs).getD segment.lastTs := hlast
    rw [hsplit] at hproper hbefore
    have hcons := List.pairwise_cons.mp hbefore
    have happend := List.pairwise_append.mp hcons.2
    obtain ⟨hmicros, hpairs⟩ := ih
      (fun s hs => hproper s (List.mem_cons_of_mem _ (List.mem_append_right _ hs))) happend.2.1
    have hseg := hproper segment (List.mem_cons_self ..)
    rw [microRuns, ← hrun]
    refine ⟨?_, List.pairwise_cons.mpr ⟨?_, hpairs⟩⟩
    · intro span hspan
      rcases List.mem_cons.mp hspan with rfl | hspan
      · refine ⟨?_, ?_⟩
        · change segment.firstTs ≤ run.lastTs
          rw [hlast]
          cases htaken : taken.getLast? with
          | none => exact hseg.ordered
          | some last =>
            have hmem := List.mem_of_getLast? htaken
            have hb := hcons.1 last (List.mem_append_left _ hmem)
            have hp := hproper last (List.mem_cons_of_mem _ (List.mem_append_left _ hmem))
            exact (hseg.ordered.trans hb.disjoint).trans hp.ordered
        · change run.frameIds ≠ []
          rw [hids]
          simp [hseg.frames]
      · exact hmicros span hspan
    · intro span hspan
      obtain ⟨first, hfirst, hts, hkey, -⟩ := microRuns_first hspan
      refine ⟨?_, ?_⟩
      · change run.lastTs ≤ span.firstTs
        rw [hts, hlast]
        cases htaken : taken.getLast? with
        | none => exact (hcons.1 first (List.mem_append_right _ hfirst)).disjoint
        | some last =>
          exact (happend.2.2 last (List.mem_of_getLast? htaken) first hfirst).disjoint
      · rw [hkey]
        exact (hcons.1 first (List.mem_append_right _ hfirst)).key

/-- Every segment lies inside a micro span. -/
theorem microRuns_covers (order : HashOrder) (params : SegmentationParams)
    {segments : List Segment} (hproper : ∀ segment ∈ segments, segment.Proper)
    (hbefore : segments.Pairwise Segment.Before) {segment : Segment} (h : segment ∈ segments) :
    ∃ span ∈ microRuns order params segments,
      span.firstTs ≤ segment.firstTs ∧ segment.lastTs ≤ span.lastTs := by
  induction segments using microRuns.induct order params with
  | case1 => simp at h
  | case2 first rest ih =>
    obtain ⟨taken, hsplit, -, hlast⟩ :=
      growRun_taken order params first.key first.lastTs first.frameIds [] rest
    rw [List.nil_append] at hsplit
    set run := runFrom order params first rest with hrun
    have hsplit : rest = taken ++ run.rest := hsplit
    have hlast : run.lastTs = (taken.getLast?.map Segment.lastTs).getD first.lastTs := hlast
    rw [hsplit] at h hproper hbefore
    have hcons := List.pairwise_cons.mp hbefore
    have happend := List.pairwise_append.mp hcons.2
    rw [microRuns, ← hrun]
    -- the run reaches as far as everything it has taken
    have htaken : ∀ s ∈ first :: taken, s.lastTs ≤ run.lastTs := by
      intro s hs
      rw [hlast]
      rcases List.eq_nil_or_concat taken with hnil | ⟨init, last, hconcat⟩
      · rw [hnil, List.mem_singleton] at hs
        simp [hnil, hs]
      · simp only [hconcat, List.concat_eq_append, List.getLast?_append, List.getLast?_singleton,
          Option.some_or, Option.map_some, Option.getD_some] at hs ⊢
        have hpair := hbefore.sublist (List.sublist_append_left (first :: taken) run.rest)
        rw [hconcat, List.concat_eq_append, ← List.cons_append, List.pairwise_append] at hpair
        have hproperLast := hproper last (by simp [hconcat])
        rw [← List.cons_append, List.mem_append, List.mem_singleton] at hs
        rcases hs with hin | rfl
        · exact (hpair.2.2 s hin last (by simp)).disjoint.trans hproperLast.ordered
        · exact le_rfl
    rw [← List.cons_append, List.mem_append] at h
    rcases h with hin | hin
    · refine ⟨first.toMicro run, List.mem_cons_self .., ?_, htaken segment hin⟩
      rcases List.mem_cons.mp hin with rfl | hin
      · exact le_rfl
      · exact (hproper first (List.mem_cons_self ..)).ordered.trans
          (hcons.1 segment (List.mem_append_left _ hin)).disjoint
    · obtain ⟨span, hspan, hends⟩ := ih
        (fun s hs => hproper s (List.mem_cons_of_mem _ (List.mem_append_right _ hs)))
        happend.2.1 hin
      exact ⟨span, List.mem_cons_of_mem _ hspan, hends⟩

/-- The runs come out in time order, so the final sort changes nothing. -/
theorem segmentMicro_eq_microRuns (lowercase : String → String) (order : HashOrder)
    (frames : List SegmenterFrame) (taxonomy : Taxonomy) (params : SegmentationParams) :
    segmentMicro lowercase order frames taxonomy params =
      microRuns order params (segmentsOf lowercase frames taxonomy params) := by
  have hsegmented := segmentsOf_segmented lowercase frames taxonomy params
  rw [segmentMicro, consolidate_eq_microRuns]
  exact sortByKey_eq_self _
    ((microRuns_timeline hsegmented.proper hsegmented.before).before.imp fun h => h.key)

theorem segmentMicro_timeline (lowercase : String → String) (order : HashOrder)
    (frames : List SegmenterFrame) (taxonomy : Taxonomy) (params : SegmentationParams) :
    Timeline (segmentMicro lowercase order frames taxonomy params) := by
  have hsegmented := segmentsOf_segmented lowercase frames taxonomy params
  rw [segmentMicro_eq_microRuns]
  exact microRuns_timeline hsegmented.proper hsegmented.before

/-! ## Hash order -/

theorem gapHasSustainedInterrupter_order (order order' : HashOrder) (gap : List Segment)
    (minLenMs : Int) : gapHasSustainedInterrupter order gap minLenMs =
      gapHasSustainedInterrupter order' gap minLenMs := by
  rw [gapHasSustainedInterrupter, gapHasSustainedInterrupter]
  exact ((order.entries_perm _).trans (order'.entries_perm _).symm).any_eq

theorem growRun_order (order order' : HashOrder) (params : SegmentationParams) (key : String)
    (lastTs : Int) (frameIds : List Int) (gap rest : List Segment) :
    growRun order params key lastTs frameIds gap rest =
      growRun order' params key lastTs frameIds gap rest := by
  induction rest generalizing lastTs frameIds gap with
  | nil => rfl
  | cons segment rest ih =>
    rw [growRun, growRun, ih, ih, gapHasSustainedInterrupter_order order order']

theorem microRuns_order (order order' : HashOrder) (params : SegmentationParams)
    (segments : List Segment) :
    microRuns order params segments = microRuns order' params segments := by
  induction segments using microRuns.induct order params with
  | case1 => rw [microRuns, microRuns]
  | case2 segment rest ih =>
    have hrun : runFrom order' params segment rest = runFrom order params segment rest :=
      growRun_order order' order ..
    rw [microRuns, microRuns, ih, hrun]

/-- Micro spans do not depend on the hash order. -/
theorem segmentMicro_order (lowercase : String → String) (order order' : HashOrder)
    (frames : List SegmenterFrame) (taxonomy : Taxonomy) (params : SegmentationParams) :
    segmentMicro lowercase order frames taxonomy params =
      segmentMicro lowercase order' frames taxonomy params := by
  rw [segmentMicro_eq_microRuns, segmentMicro_eq_microRuns, microRuns_order order order']

end ScreenSearch.Sessions
