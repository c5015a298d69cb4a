import ScreenSearch.Sessions.Timeline

/-!
# Splitting a timeline

Frames in time order, cut in two. Pass one segments the two parts on their own
unless a micro span reaches across the cut, and a span only does that where
frames of one context stand on both sides less than the close gap apart.

Main results:

* `segmentMicro_split` — pass one splits, or a span reaches across the cut and
  joins two near frames;
* `segmentMicro_append` — it splits where no span reaches across.
-/

namespace ScreenSearch.Sessions

open Assoc Sorting

variable {lowercase : String → String} {taxonomy : Taxonomy}

/-! ## Segments across the cut -/

/-- Two segments of one context less than the close gap apart. -/
def Segment.Near (gapCloseMs : Int) (a b : Segment) : Prop :=
  a.key = b.key ∧ b.firstTs - a.lastTs < gapCloseMs

theorem pushFrame_append {gapCloseMs : Int} {before segments : List Segment} {key : String}
    {recognition : Option Recognized} {frame : SegmenterFrame}
    (h : segments ≠ [] ∨ ∀ last ∈ before.getLast?,
      ¬ last.Near gapCloseMs (Segment.ofFrame key recognition frame)) :
    pushFrame gapCloseMs (before ++ segments) key recognition frame =
      before ++ pushFrame gapCloseMs segments key recognition frame := by
  rcases List.eq_nil_or_concat segments with rfl | ⟨init, last, rfl⟩
  · -- the last segment of `before` may not grow
    rcases h with hne | hfar
    · exact absurd rfl hne
    · rw [List.append_nil, pushFrame]
      split
      · rename_i last hlast
        have hstop : ¬ (last.key = key ∧ frame.capturedAt - last.lastTs < gapCloseMs) :=
          hfar last hlast
        rw [if_neg hstop]
        simp [pushFrame]
      · simp [pushFrame]
  · simp only [List.concat_eq_append]
    rw [← List.append_assoc, pushFrame, pushFrame]
    simp only [List.getLast?_append, List.getLast?_singleton, Option.some_or,
      List.dropLast_concat]
    split <;> simp

/-- A segment that reaches up to the cut is still there when later frames have
come. -/
theorem pushFrame_reaches {gapCloseMs cut first : Int} {segments : List Segment} {key : String}
    {recognition : Option Recognized} {frame : SegmenterFrame} (hframe : cut ≤ frame.capturedAt)
    (h : ∃ segment ∈ segments, segment.firstTs = first ∧ cut ≤ segment.lastTs) :
    ∃ segment ∈ pushFrame gapCloseMs segments key recognition frame,
      segment.firstTs = first ∧ cut ≤ segment.lastTs := by
  obtain ⟨segment, hsegment, hfirst, hlast⟩ := h
  have hopen : ∃ found ∈ segments ++ [Segment.ofFrame key recognition frame],
      found.firstTs = first ∧ cut ≤ found.lastTs :=
    ⟨segment, List.mem_append_left _ hsegment, hfirst, hlast⟩
  rw [pushFrame]
  split
  · rename_i last hgetLast
    split
    · rw [← List.dropLast_append_getLast? last hgetLast] at hsegment
      rcases List.mem_append.mp hsegment with hin | hin
      · exact ⟨segment, List.mem_append_left _ hin, hfirst, hlast⟩
      · rw [List.mem_singleton.mp hin] at hfirst
        exact ⟨last.push frame, by simp, hfirst, hframe⟩
    · exact hopen
  · exact hopen

theorem segmentsFrom_reaches {gapCloseMs cut first : Int} {segments : List Segment}
    {frames : List SegmenterFrame} (hframes : ∀ frame ∈ frames, cut ≤ frame.capturedAt)
    (h : ∃ segment ∈ segments, segment.firstTs = first ∧ cut ≤ segment.lastTs) :
    ∃ segment ∈ segmentsFrom lowercase taxonomy gapCloseMs segments frames,
      segment.firstTs = first ∧ cut ≤ segment.lastTs := by
  induction frames generalizing segments with
  | nil => exact h
  | cons frame frames ih =>
    rw [segmentsFrom, List.foldl_cons, ← segmentsFrom]
    refine ih (fun f hf => hframes f (List.mem_cons_of_mem _ hf)) ?_
    split
    · exact h
    · exact pushFrame_reaches (hframes frame (List.mem_cons_self ..)) h

/-- Later frames leave the segments alone, or a frame near the last of them
makes it grow over the cut. -/
theorem segmentsFrom_append (lowercase : String → String) (taxonomy : Taxonomy)
    (gapCloseMs : Int) (before : List Segment) {cut : Int} {frames : List SegmenterFrame} (hframes : ∀ frame ∈ frames, cut ≤ frame.capturedAt)
    (segments : List Segment) :
    segmentsFrom lowercase taxonomy gapCloseMs (before ++ segments) frames =
        before ++ segmentsFrom lowercase taxonomy gapCloseMs segments frames ∨
      ∃ last ∈ before,
        (∃ frame ∈ frames, ∃ key recognition,
          contextOf lowercase frame taxonomy = some (key, recognition) ∧
            last.Near gapCloseMs (Segment.ofFrame key recognition frame)) ∧
        ∃ grown ∈ segmentsFrom lowercase taxonomy gapCloseMs (before ++ segments) frames,
          grown.firstTs = last.firstTs ∧ cut ≤ grown.lastTs := by
  induction frames generalizing segments with
  | nil => exact Or.inl rfl
  | cons frame frames ih =>
    have hlater : ∀ f ∈ frames, cut ≤ f.capturedAt :=
      fun f hf => hframes f (List.mem_cons_of_mem _ hf)
    have hcut := hframes frame (List.mem_cons_self ..)
    have ih := fun segments => (ih hlater segments).imp_right fun h =>
      let ⟨last, hlast, ⟨f, hf, hnear⟩, hgrown⟩ := h
      (⟨last, hlast, ⟨f, List.mem_cons_of_mem frame hf, hnear⟩, hgrown⟩ : ∃ last ∈ before,
        (∃ f ∈ frame :: frames, ∃ key recognition,
          contextOf lowercase f taxonomy = some (key, recognition) ∧
            last.Near gapCloseMs (Segment.ofFrame key recognition f)) ∧
        ∃ grown ∈ segmentsFrom lowercase taxonomy gapCloseMs (before ++ segments) frames,
          grown.firstTs = last.firstTs ∧ cut ≤ grown.lastTs)
    rw [segmentsFrom, segmentsFrom, List.foldl_cons, List.foldl_cons, ← segmentsFrom,
      ← segmentsFrom]
    cases hctx : contextOf lowercase frame taxonomy with
    | none => exact ih segments
    | some ctx =>
      obtain ⟨key, recognition⟩ := ctx
      dsimp only
      by_cases happend : segments ≠ [] ∨ ∀ last ∈ before.getLast?,
          ¬ last.Near gapCloseMs (Segment.ofFrame key recognition frame)
      · rw [pushFrame_append happend]
        exact ih _
      · push Not at happend
        obtain ⟨rfl, last, hlast, hnear⟩ := happend
        have hmem := List.mem_of_getLast? hlast
        refine Or.inr ⟨last, hmem,
          ⟨frame, List.mem_cons_self .., key, recognition, hctx, hnear⟩, ?_⟩
        refine segmentsFrom_reaches hlater ⟨last.push frame, ?_, rfl, hcut⟩
        have hgrow : last.key = key ∧ frame.capturedAt - last.lastTs < gapCloseMs := hnear
        rw [List.append_nil, pushFrame, hlast]
        dsimp only
        rw [if_pos hgrow]
        simp

/-! ## Runs across the cut -/

/-- A run stops before the later segments, or one that is near it makes it grow
into them. -/
theorem growRun_append (order : HashOrder) (params : SegmentationParams) (key : String)
    (rest later : List Segment) (lastTs : Int) (frameIds : List Int) (gap : List Segment) :
    growRun order params key lastTs frameIds gap (rest ++ later) =
        { growRun order params key lastTs frameIds gap rest with
          rest := (growRun order params key lastTs frameIds gap rest).rest ++ later } ∨
      (∃ b ∈ later, b.key = key ∧
        b.firstTs - (growRun order params key lastTs frameIds gap rest).lastTs <
          params.gapCloseMs) ∧
      ∃ b ∈ later, (growRun order params key lastTs frameIds gap (rest ++ later)).lastTs =
        b.lastTs := by
  induction rest generalizing lastTs frameIds gap with
  | nil =>
    rw [List.nil_append, growRun]
    induction later generalizing lastTs frameIds gap with
    | nil => simp [growRun]
    | cons b later ih =>
      rw [growRun]
      split
      · rename_i hkey
        split
        · simp
        · rename_i hgrow
          push Not at hgrow
          refine Or.inr ⟨⟨b, List.mem_cons_self .., hkey, hgrow.1⟩, ?_⟩
          rcases ih b.lastTs (frameIds ++ (gap ++ [b]).flatMap Segment.frameIds) [] with h | h
          · exact ⟨b, List.mem_cons_self .., by rw [h]⟩
          · obtain ⟨-, c, hc, hlast⟩ := h
            exact ⟨c, List.mem_cons_of_mem _ hc, hlast⟩
      · rcases ih lastTs frameIds (gap ++ [b]) with h | ⟨⟨c, hc, hnear⟩, d, hd, hlast⟩
        · exact Or.inl (by simpa using h)
        · exact Or.inr ⟨⟨c, List.mem_cons_of_mem _ hc, hnear⟩, d, List.mem_cons_of_mem _ hd, hlast⟩
  | cons segment rest ih =>
    rw [List.cons_append, growRun, growRun]
    split
    · split
      · simp
      · exact ih _ _ _
    · exact ih _ _ _

/-- A run ends where it starts or with a segment of its key. -/
theorem growRun_lastTs (order : HashOrder) (params : SegmentationParams) (key : String)
    (lastTs : Int) (frameIds : List Int) (gap rest : List Segment) :
    (growRun order params key lastTs frameIds gap rest).lastTs = lastTs ∨
      ∃ segment ∈ rest, segment.key = key ∧
        (growRun order params key lastTs frameIds gap rest).lastTs = segment.lastTs := by
  induction rest generalizing lastTs frameIds gap with
  | nil => exact Or.inl rfl
  | cons segment rest ih =>
    have htail : ∀ lastTs' frameIds' gap',
        (growRun order params key lastTs' frameIds' gap' rest).lastTs = lastTs' ∨
          ∃ s ∈ segment :: rest, s.key = key ∧
            (growRun order params key lastTs' frameIds' gap' rest).lastTs = s.lastTs :=
      fun lastTs' frameIds' gap' => (ih lastTs' frameIds' gap').imp_right
        fun ⟨s, hs, hrest⟩ => ⟨s, List.mem_cons_of_mem _ hs, hrest⟩
    rw [growRun]
    split
    · rename_i hkey
      split
      · exact Or.inl rfl
      · refine Or.inr ?_
        rcases htail segment.lastTs (frameIds ++ (gap ++ [segment]).flatMap Segment.frameIds) []
          with hlast | hlast
        · exact ⟨segment, List.mem_cons_self .., hkey, hlast⟩
        · exact hlast
    · exact htail _ _ _

/-- The runs of both parts are those of each, or one of them reaches from the
first into the second. -/
theorem microRuns_append (order : HashOrder) (params : SegmentationParams)
    (segments later : List Segment) :
    microRuns order params (segments ++ later) =
        microRuns order params segments ++ microRuns order params later ∨
      (∃ a ∈ segments, ∃ b ∈ later, a.Near params.gapCloseMs b) ∧
      ∃ span ∈ microRuns order params (segments ++ later),
        ∃ a ∈ segments, ∃ b ∈ later, span.firstTs = a.firstTs ∧ span.lastTs = b.lastTs := by
  induction segments using microRuns.induct order params with
  | case1 => simp [microRuns]
  | case2 segment rest ih =>
    obtain ⟨taken, hsplit, -⟩ :=
      growRun_taken order params segment.key segment.lastTs segment.frameIds [] rest
    rw [List.nil_append] at hsplit
    rw [List.cons_append, microRuns, microRuns]
    rcases growRun_append order params segment.key rest later segment.lastTs
      segment.frameIds [] with
      hstops | ⟨⟨b, hb, hkey, hnear⟩, c, hc, hreach⟩
    · have hrun : runFrom order params segment (rest ++ later) =
          { runFrom order params segment rest with
            rest := (runFrom order params segment rest).rest ++ later } := hstops
      have hrest : ∀ a ∈ (runFrom order params segment rest).rest, a ∈ segment :: rest := by
        intro a ha
        rw [hsplit]
        exact List.mem_cons_of_mem _ (List.mem_append_right _ ha)
      rw [hrun]
      rcases ih with hih | ⟨⟨a, ha, b, hb, hnear⟩, span, hspan, a', ha', hends⟩
      · exact Or.inl (by rw [hih]; rfl)
      · exact Or.inr ⟨⟨a, hrest a ha, b, hb, hnear⟩, span, List.mem_cons_of_mem _ hspan,
          a', hrest a' ha', hends⟩
    · -- the run of the first segment goes on
      refine Or.inr ⟨?_, _, List.mem_cons_self .., segment, List.mem_cons_self .., c, hc, rfl,
        hreach⟩
      rcases growRun_lastTs order params segment.key segment.lastTs segment.frameIds [] rest with
        hlast | ⟨a, ha, hakey, hlast⟩
      · rw [hlast] at hnear
        exact ⟨segment, List.mem_cons_self .., b, hb, hkey.symm, hnear⟩
      · rw [hlast] at hnear
        exact ⟨a, List.mem_cons_of_mem _ ha, b, hb, hakey.trans hkey.symm, hnear⟩

/-! ## Segments and their frames -/

/-- The key and the two ends of a segment are those of frames. -/
structure Segment.From (lowercase : String → String) (taxonomy : Taxonomy)
    (frames : List SegmenterFrame) (segment : Segment) : Prop where
  first : ∃ frame ∈ frames, ∃ recognition,
    contextOf lowercase frame taxonomy = some (segment.key, recognition) ∧
      frame.capturedAt = segment.firstTs
  last : ∃ frame ∈ frames, ∃ recognition,
    contextOf lowercase frame taxonomy = some (segment.key, recognition) ∧
      frame.capturedAt = segment.lastTs

theorem pushFrame_from {frames : List SegmenterFrame} {gapCloseMs : Int}
    {segments : List Segment} {key : String} {recognition : Option Recognized}
    {frame : SegmenterFrame} (hframe : frame ∈ frames)
    (hctx : contextOf lowercase frame taxonomy = some (key, recognition))
    (h : ∀ segment ∈ segments, Segment.From lowercase taxonomy frames segment) :
    ∀ segment ∈ pushFrame gapCloseMs segments key recognition frame,
      Segment.From lowercase taxonomy frames segment := by
  have hnew : ∀ segment ∈ segments ++ [Segment.ofFrame key recognition frame],
      Segment.From lowercase taxonomy frames segment := by
    intro segment hsegment
    rcases List.mem_append.mp hsegment with hin | hin
    · exact h segment hin
    · rw [List.mem_singleton.mp hin]
      exact ⟨⟨frame, hframe, recognition, hctx, rfl⟩, ⟨frame, hframe, recognition, hctx, rfl⟩⟩
  rw [pushFrame]
  split
  · rename_i last hlast
    split
    · rename_i hcond
      intro segment hsegment
      rcases List.mem_append.mp hsegment with hin | hin
      · exact h segment (List.dropLast_subset _ hin)
      · rw [List.mem_singleton.mp hin]
        refine ⟨(h last (List.mem_of_getLast? hlast)).first, frame, hframe, recognition, ?_, rfl⟩
        rw [hctx, Segment.push, hcond.1]
    · exact hnew
  · exact hnew

theorem segmentsFrom_from {gapCloseMs : Int} {frames ordered : List SegmenterFrame}
    {segments : List Segment} (hsub : ∀ frame ∈ ordered, frame ∈ frames)
    (h : ∀ segment ∈ segments, Segment.From lowercase taxonomy frames segment) :
    ∀ segment ∈ segmentsFrom lowercase taxonomy gapCloseMs segments ordered,
      Segment.From lowercase taxonomy frames segment := by
  induction ordered generalizing segments with
  | nil => exact h
  | cons frame ordered ih =>
    rw [segmentsFrom, List.foldl_cons, ← segmentsFrom]
    refine ih (fun f hf => hsub f (List.mem_cons_of_mem _ hf)) ?_
    split
    · exact h
    · rename_i hctx
      exact pushFrame_from (hsub frame (List.mem_cons_self ..)) hctx h

theorem segmentsOf_from (lowercase : String → String) (taxonomy : Taxonomy)
    (frames : List SegmenterFrame) (params : SegmentationParams) :
    ∀ segment ∈ segmentsOf lowercase frames taxonomy params,
      Segment.From lowercase taxonomy frames segment :=
  segmentsFrom_from (fun _ hframe => (sortByKey_perm timeKey frames).subset hframe) (by simp)

/-- Whether the segmenter sees the frame at all. -/
def Keyed (lowercase : String → String) (taxonomy : Taxonomy) (frame : SegmenterFrame) : Prop :=
  (contextOf lowercase frame taxonomy).isSome

/-- A micro span begins and ends with frames the segmenter sees. -/
theorem segmentMicro_ends {order : HashOrder} {frames : List SegmenterFrame}
    {params : SegmentationParams} {span : MicroSpan}
    (h : span ∈ segmentMicro lowercase order frames taxonomy params) :
    (∃ frame ∈ frames, Keyed lowercase taxonomy frame ∧ frame.capturedAt = span.firstTs) ∧
      ∃ frame ∈ frames, Keyed lowercase taxonomy frame ∧ frame.capturedAt = span.lastTs := by
  rw [segmentMicro_eq_microRuns] at h
  obtain ⟨s, hs, hfirst, -⟩ := microRuns_first h
  obtain ⟨t, ht, hlast⟩ := microRuns_last h
  obtain ⟨f, hf, r, hctx, hfts⟩ := (segmentsOf_from lowercase taxonomy frames params s hs).first
  obtain ⟨g, hg, r', hctx', hgts⟩ := (segmentsOf_from lowercase taxonomy frames params t ht).last
  exact ⟨⟨f, hf, by simp [Keyed, hctx], hfts.trans hfirst.symm⟩,
    ⟨g, hg, by simp [Keyed, hctx'], hgts.trans hlast.symm⟩⟩

/-! ## Pass one on both sides -/

/-- Ordered as `frames_meta_in_range` returns them. -/
def InTimeOrder (frames : List SegmenterFrame) : Prop :=
  frames.Pairwise fun a b => timeKey a ≤ timeKey b

/-- Two frames of one context, on two sides, less than the close gap apart. -/
def ContextsMeet (lowercase : String → String) (taxonomy : Taxonomy) (gapCloseMs : Int)
    (frames later : List SegmenterFrame) : Prop :=
  ∃ a ∈ frames, ∃ b ∈ later, ∃ key r r',
    contextOf lowercase a taxonomy = some (key, r) ∧
      contextOf lowercase b taxonomy = some (key, r') ∧ b.capturedAt - a.capturedAt < gapCloseMs

/-- Pass one splits at the cut, or a span reaches across it between near frames
of one context. -/
theorem segmentMicro_split (lowercase : String → String) (taxonomy : Taxonomy)
    (params : SegmentationParams) {frames later : List SegmenterFrame} {cut : Int} (order : HashOrder) (hordered : InTimeOrder (frames ++ later))
    (hbefore : ∀ frame ∈ frames, frame.capturedAt < cut)
    (hfrom : ∀ frame ∈ later, cut ≤ frame.capturedAt) :
    segmentMicro lowercase order (frames ++ later) taxonomy params =
        segmentMicro lowercase order frames taxonomy params ++
          segmentMicro lowercase order later taxonomy params ∨
      ContextsMeet lowercase taxonomy params.gapCloseMs frames later ∧
        ∃ span ∈ segmentMicro lowercase order (frames ++ later) taxonomy params,
          span.firstTs < cut ∧ cut ≤ span.lastTs := by
  obtain ⟨hframes, hlater, -⟩ := List.pairwise_append.mp hordered
  have hleft := segmentsOf_from lowercase taxonomy frames params
  have hright := segmentsOf_from lowercase taxonomy later params
  have hwhole : segmentsOf lowercase (frames ++ later) taxonomy params =
      segmentsFrom lowercase taxonomy params.gapCloseMs
        (segmentsOf lowercase frames taxonomy params ++ []) later := by
    rw [segmentsOf, sortByKey_eq_self _ hordered, segmentsFrom, List.foldl_append,
      List.append_nil, segmentsOf, sortByKey_eq_self _ hframes]
    rfl
  rw [segmentMicro_eq_microRuns, segmentMicro_eq_microRuns, segmentMicro_eq_microRuns]
  rcases segmentsFrom_append lowercase taxonomy params.gapCloseMs
    (segmentsOf lowercase frames taxonomy params) hfrom [] with hsegments | ⟨last, hlast, ⟨b, hb, key, r', hctx, hkey, hnear⟩, grown, hgrown,
      hfirst, hreach⟩
  · have hsplit : segmentsOf lowercase (frames ++ later) taxonomy params =
        segmentsOf lowercase frames taxonomy params ++
          segmentsOf lowercase later taxonomy params := by
      rw [hwhole, hsegments, segmentsOf, segmentsOf, sortByKey_eq_self _ hlater]
    rw [hsplit]
    refine (microRuns_append order params _ _).imp_right ?_
    rintro ⟨⟨s, hs, t, ht, hkey, hnear⟩, span, hspan, s', hs', t', ht', hfirst, hreach⟩
    obtain ⟨a, ha, r, hctx, hats⟩ := (hleft s hs).last
    obtain ⟨b, hb, r', hctx', hbts⟩ := (hright t ht).first
    obtain ⟨a', ha', -, -, hats'⟩ := (hleft s' hs').first
    obtain ⟨b', hb', -, -, hbts'⟩ := (hright t' ht').last
    refine ⟨⟨a, ha, b, hb, s.key, r, r', hctx, by rw [hctx', hkey], by omega⟩, span, hspan, ?_, ?_⟩
    · rw [hfirst, ← hats']
      exact hbefore a' ha'
    · rw [hreach, ← hbts']
      exact hfrom b' hb'
  · -- the micro span around a segment that grew over the cut
    refine Or.inr ⟨?_, ?_⟩
    · obtain ⟨a, ha, r, hctxa, hats⟩ := (hleft last hlast).last
      refine ⟨a, ha, b, hb, last.key, r, r', hctxa, by rw [hctx, hkey]; rfl, ?_⟩
      rw [hats]
      exact hnear
    · rw [← hwhole] at hgrown
      obtain ⟨a, ha, -, -, hats⟩ := (hleft last hlast).first
      have hsegmented := segmentsOf_segmented lowercase (frames ++ later) taxonomy params
      obtain ⟨span, hspan, hstart, hend⟩ :=
        microRuns_covers order params hsegmented.proper hsegmented.before hgrown
      have := hbefore a ha
      exact ⟨span, hspan, by omega, by omega⟩

/-- Pass one splits at a cut that no span reaches across. -/
theorem segmentMicro_append (lowercase : String → String) (taxonomy : Taxonomy)
    (params : SegmentationParams) {frames later : List SegmenterFrame} {cut : Int} (order : HashOrder) (hordered : InTimeOrder (frames ++ later))
    (hbefore : ∀ frame ∈ frames, frame.capturedAt < cut)
    (hfrom : ∀ frame ∈ later, cut ≤ frame.capturedAt)
    (hspans : ∀ span ∈ segmentMicro lowercase order (frames ++ later) taxonomy params,
      span.lastTs < cut ∨ cut ≤ span.firstTs) :
    segmentMicro lowercase order (frames ++ later) taxonomy params =
      segmentMicro lowercase order frames taxonomy params ++
        segmentMicro lowercase order later taxonomy params := by
  rcases segmentMicro_split lowercase taxonomy params order hordered hbefore hfrom with h | ⟨-, span, hspan, hlt, hge⟩
  · exact h
  · have := hspans span hspan
    omega

end ScreenSearch.Sessions
