import ScreenSearch.Sessions.Cut
import ScreenSearch.Sessions.Split

/-!
# Where a backfill chunk may stop

`safeBackfillCut` puts the end of a chunk at a gap of at least the merge gap. The
first pass of the segmenter continues a context over gaps of up to the close
gap, which is a setting of its own and may be the larger of the two: two frames
of one context less than a close gap apart may then stand on both sides of the
cut.

Main results:

* `safeBackfillCut_gap` — below the scan limit the cut stands in a merge gap;
* `segment_cut` — at a cut that no context continues across, the two parts are
  segmented like the whole;
* `closeGap_cut_differs` — with the largest close gap a cut takes one draft
  apart.
-/

namespace ScreenSearch.Kernel

open Assoc Sorting Sessions

/-! ## Settings and parameters -/

/-- The two settings segmentation reads. -/
structure Settings where
  sessionsMinLenSecs : Nat
  sessionsGapCloseSecs : Nat
  deriving DecidableEq, Repr

def clampU32 (value lo hi : Nat) : Nat := min (max value lo) hi

def sanitizeSettings (s : Settings) : Settings :=
  { s with
    sessionsMinLenSecs := clampU32 s.sessionsMinLenSecs 30 3600
    sessionsGapCloseSecs := clampU32 s.sessionsGapCloseSecs 60 3600 }

def paramsFromSettings (nowMs : Int) (settings : Settings) : SegmentationParams :=
  SegmentationParams.shipped nowMs (settings.sessionsGapCloseSecs * 1000)
    (settings.sessionsMinLenSecs * 1000)

/-! ## The cut -/

/-- The scan over adjacent pairs. -/
def cutPair (desiredEndMs mergeGapMs : Int) : List SegmenterFrame → Option SegmenterFrame
  | a :: b :: rest =>
    if desiredEndMs ≤ b.capturedAt ∧ mergeGapMs ≤ b.capturedAt - a.capturedAt then some b
    else cutPair desiredEndMs mergeGapMs (b :: rest)
  | _ => none

def safeBackfillCut (frames : List SegmenterFrame)
    (desiredEndMs mergeGapMs scanLimitMs : Int) : Option Int :=
  match frames.getLast? with
  | none => some (min desiredEndMs scanLimitMs)
  | some last =>
    match cutPair desiredEndMs mergeGapMs frames with
    | some frame => some (min frame.capturedAt scanLimitMs)
    | none =>
      if mergeGapMs ≤ desiredEndMs - last.capturedAt then some (min desiredEndMs scanLimitMs)
      else none

/-- What a chunk is segmented with: its drafts are closed. -/
def closedParams (params : SegmentationParams) (cut : Int) : SegmentationParams :=
  atNow params (cut + params.mergeGapMs)

/-- The chunk in front of the cut, and what stays behind it. -/
def beforeCut (cut : Int) (frames : List SegmenterFrame) : List SegmenterFrame :=
  frames.filter fun frame => decide (frame.capturedAt < cut)

def fromCut (cut : Int) (frames : List SegmenterFrame) : List SegmenterFrame :=
  frames.filter fun frame => decide (cut ≤ frame.capturedAt)

theorem beforeCut_lt (cut : Int) (frames : List SegmenterFrame) :
    ∀ frame ∈ beforeCut cut frames, frame.capturedAt < cut :=
  fun _ hframe => of_decide_eq_true (List.mem_filter.mp hframe).2

theorem le_fromCut (cut : Int) (frames : List SegmenterFrame) :
    ∀ frame ∈ fromCut cut frames, cut ≤ frame.capturedAt :=
  fun _ hframe => of_decide_eq_true (List.mem_filter.mp hframe).2

theorem timeKey_capturedAt {a b : SegmenterFrame} (h : timeKey a ≤ timeKey b) :
    a.capturedAt ≤ b.capturedAt := by
  rcases (Prod.Lex.le_iff ..).mp h with hlt | ⟨heq, -⟩
  · exact hlt.le
  · exact heq.le

theorem before_append_from {frames : List SegmenterFrame} (h : InTimeOrder frames) (cut : Int) :
    beforeCut cut frames ++ fromCut cut frames = frames := by
  induction frames with
  | nil => rfl
  | cons frame frames ih =>
    have ih := ih h.of_cons
    by_cases hlt : frame.capturedAt < cut
    · simpa [beforeCut, fromCut, hlt, not_le.mpr hlt] using ih
    · -- nothing that follows is in front of the cut
      have hlater : ∀ f ∈ frame :: frames, cut ≤ f.capturedAt := by
        intro f hf
        rcases List.mem_cons.mp hf with rfl | hin
        · exact not_lt.mp hlt
        · exact (not_lt.mp hlt).trans (timeKey_capturedAt (List.rel_of_pairwise_cons h hin))
      have hnil : beforeCut cut (frame :: frames) = [] := by
        rw [beforeCut, List.filter_eq_nil_iff]
        intro f hf
        simpa using hlater f hf
      have hall : fromCut cut (frame :: frames) = frame :: frames := by
        rw [fromCut, List.filter_eq_self]
        intro f hf
        simpa using hlater f hf
      rw [hnil, hall, List.nil_append]

/-- The pair the scan stops at. -/
theorem cutPair_split {frames : List SegmenterFrame} {desiredEndMs mergeGapMs : Int}
    {frame : SegmenterFrame} (hcut : cutPair desiredEndMs mergeGapMs frames = some frame) :
    ∃ pre a post, frames = pre ++ a :: frame :: post ∧
      mergeGapMs ≤ frame.capturedAt - a.capturedAt := by
  induction frames with
  | nil => simp [cutPair] at hcut
  | cons a rest ih =>
    cases rest with
    | nil => simp [cutPair] at hcut
    | cons b rest =>
      rw [cutPair] at hcut
      split at hcut
      · rename_i hcond
        cases hcut
        exact ⟨[], a, rest, rfl, hcond.2⟩
      · obtain ⟨pre, x, post, hsplit, hgap⟩ := ih hcut
        exact ⟨a :: pre, x, post, by rw [hsplit, List.cons_append], hgap⟩

/-- Whatever stands on the two sides of a cut is a merge gap apart, unless the
scan limit stands among the frames. -/
theorem safeBackfillCut_gap {frames : List SegmenterFrame} (hordered : InTimeOrder frames)
    {desiredEndMs mergeGapMs scanLimitMs cut : Int} (hmerge : 0 < mergeGapMs)
    (hcut : safeBackfillCut frames desiredEndMs mergeGapMs scanLimitMs = some cut)
    (hscanned : ∀ frame ∈ frames, frame.capturedAt < scanLimitMs) :
    ∀ a ∈ beforeCut cut frames, ∀ b ∈ fromCut cut frames,
      mergeGapMs ≤ b.capturedAt - a.capturedAt := by
  intro a ha b hb
  obtain ⟨hain, hlt⟩ := List.mem_filter.mp ha
  obtain ⟨hbin, hge⟩ := List.mem_filter.mp hb
  clear ha hb
  simp only [decide_eq_true_eq] at hlt hge
  rw [safeBackfillCut] at hcut
  cases hlast : frames.getLast? with
  | none => simp [List.getLast?_eq_none_iff.mp hlast] at hain
  | some last =>
    simp only [hlast] at hcut
    cases hpair : cutPair desiredEndMs mergeGapMs frames with
    | some frame =>
      simp only [hpair, Option.some.injEq] at hcut
      obtain ⟨pre, x, post, rfl, hgap⟩ := cutPair_split hpair
      have hframe := hscanned frame (by simp)
      obtain rfl : cut = frame.capturedAt := by omega
      have happend := List.pairwise_append.mp hordered
      have hcons := List.pairwise_cons.mp happend.2.1
      have hax : a.capturedAt ≤ x.capturedAt := by
        rcases List.mem_append.mp hain with hin | hin
        · exact timeKey_capturedAt (happend.2.2 a hin x (List.mem_cons_self ..))
        rcases List.mem_cons.mp hin with rfl | hin
        · exact le_rfl
        rcases List.mem_cons.mp hin with rfl | hin
        · omega
        · have := timeKey_capturedAt (List.rel_of_pairwise_cons hcons.2 hin)
          omega
      omega
    | none =>
      -- the desired end is behind the last frame, and so is the cut
      simp only [hpair] at hcut
      split at hcut
      · rename_i hend
        obtain ⟨init, rfl⟩ : ∃ init, frames = init ++ [last] :=
          ⟨frames.dropLast, (List.dropLast_append_getLast? last hlast).symm⟩
        have hble : b.capturedAt ≤ last.capturedAt := by
          rcases List.mem_append.mp hbin with hin | hin
          · exact timeKey_capturedAt
              ((List.pairwise_append.mp hordered).2.2 b hin last (by simp))
          · rw [List.mem_singleton.mp hin]
        have hbscan := hscanned b hbin
        cases hcut
        omega
      · exact absurd hcut (by simp)

/-! ## Both parts of the segmentation -/

variable {lowercase : String → String} {taxonomy : Taxonomy}

/-- A point that stands `gap` in front of the later spans and behind the earlier
ones. -/
theorem exists_edge (micros later : List MicroSpan) (gap : Int)
    (h : ∀ a ∈ micros, ∀ b ∈ later, gap ≤ b.firstTs - a.lastTs) :
    ∃ lo, (∀ a ∈ micros, a.lastTs ≤ lo) ∧ ∀ b ∈ later, lo + gap ≤ b.firstTs := by
  induction micros with
  | nil =>
    obtain ⟨low, hlow⟩ := exists_low later
    refine ⟨low - gap, by simp, fun b hb => ?_⟩
    have := hlow b hb
    omega
  | cons a micros ih =>
    obtain ⟨lo, hbefore, hafter⟩ := ih fun a ha => h a (List.mem_cons_of_mem _ ha)
    refine ⟨max lo a.lastTs, fun x hx => ?_, fun b hb => ?_⟩
    · rcases List.mem_cons.mp hx with rfl | hin
      · exact le_max_right _ _
      · exact (hbefore x hin).trans (le_max_left _ _)
    · have h1 := hafter b hb
      have h2 := h a (List.mem_cons_self ..) b hb
      omega

theorem exists_high (micros : List MicroSpan) :
    ∃ high, ∀ span ∈ micros, span.lastTs ≤ high := by
  obtain ⟨high, hhigh, -⟩ := exists_edge micros [] 0 (by simp)
  exact ⟨high, hhigh⟩

/-- Keyed frames stand a gap apart from those of the other list. -/
def FramesApart (lowercase : String → String) (taxonomy : Taxonomy) (gap : Int)
    (frames later : List SegmenterFrame) : Prop :=
  ∀ a ∈ frames, ∀ b ∈ later, Keyed lowercase taxonomy a → Keyed lowercase taxonomy b →
    gap ≤ b.capturedAt - a.capturedAt

theorem segmentMicro_apart {frames later : List SegmenterFrame} {gap : Int} (order : HashOrder)
    (params : SegmentationParams) (h : FramesApart lowercase taxonomy gap frames later) :
    ∀ a ∈ segmentMicro lowercase order frames taxonomy params,
      ∀ b ∈ segmentMicro lowercase order later taxonomy params, gap ≤ b.firstTs - a.lastTs := by
  intro a ha b hb
  obtain ⟨-, f, hf, hkeyed, hlast⟩ := segmentMicro_ends ha
  obtain ⟨⟨g, hg, hkeyed', hfirst⟩, -⟩ := segmentMicro_ends hb
  rw [← hlast, ← hfirst]
  exact h f hf g hg hkeyed hkeyed'

theorem growRun_atNow (order : HashOrder) (params : SegmentationParams) (now : Int)
    (key : String) (lastTs : Int) (frameIds : List Int) (gap rest : List Segment) :
    growRun order (atNow params now) key lastTs frameIds gap rest =
      growRun order params key lastTs frameIds gap rest := by
  induction rest generalizing lastTs frameIds gap with
  | nil => rfl
  | cons segment rest ih => rw [growRun, growRun, ih, ih]

theorem microRuns_atNow (order : HashOrder) (params : SegmentationParams) (now : Int)
    (segments : List Segment) :
    microRuns order (atNow params now) segments = microRuns order params segments := by
  induction segments using microRuns.induct order params with
  | case1 => rw [microRuns, microRuns]
  | case2 segment rest ih =>
    have hrun : runFrom order (atNow params now) segment rest = runFrom order params segment rest :=
      growRun_atNow ..
    rw [microRuns, microRuns, hrun, ih]

/-- Micro spans depend neither on the hash order nor on the clock. -/
theorem segmentMicro_atNow (order order' : HashOrder) (params : SegmentationParams) (now : Int)
    (frames : List SegmenterFrame) :
    segmentMicro lowercase order frames taxonomy (atNow params now) =
      segmentMicro lowercase order' frames taxonomy params := by
  rw [segmentMicro_eq_microRuns, segmentMicro_eq_microRuns, microRuns_atNow,
    microRuns_order order order']
  rfl

/-- **Segmenting in two parts.** Parts that stand a merge gap apart, with no micro
span of both, are segmented like the whole. -/
theorem segment_append {frames later : List SegmenterFrame} {params : SegmentationParams}
    (order order₁ order₂ : HashOrder) (now₁ now₂ : Int)
    (hids : ((frames ++ later).map SegmenterFrame.id).Nodup)
    (hmerge : 0 < params.mergeGapMs) (hmeeting : params.meetingGapMs < params.mergeGapMs)
    (hapart : FramesApart lowercase taxonomy params.mergeGapMs frames later)
    (hmicros : segmentMicro lowercase order (frames ++ later) taxonomy params =
      segmentMicro lowercase order frames taxonomy params ++
        segmentMicro lowercase order later taxonomy params) :
    (segmentWithTaxonomy lowercase order (frames ++ later) taxonomy params).map draftFacts =
      (segmentWithTaxonomy lowercase order₁ frames taxonomy (atNow params now₁)).map draftFacts ++
        (segmentWithTaxonomy lowercase order₂ later taxonomy (atNow params now₂)).map
          draftFacts := by
  rw [segment_eq_arrange, segment_eq_arrange, segment_eq_arrange, segmentMicro_atNow order₁ order,
    segmentMicro_atNow order₂ order, hmicros]
  have hleft := segmentMicro_timeline lowercase order frames taxonomy params
  have hright := segmentMicro_timeline lowercase order later taxonomy params
  obtain ⟨lo, hbefore, hafter⟩ := exists_edge _ _ _ (segmentMicro_apart order params hapart)
  have hnodup : ((segmentMicro lowercase order frames taxonomy params ++
      segmentMicro lowercase order later taxonomy params).flatMap MicroSpan.frameIds).Nodup := by
    rw [← hmicros,
      (segmentMicro_frameIds_perm lowercase order (frames ++ later) taxonomy params).nodup_iff]
    exact keyedIds_nodup hids
  generalize segmentMicro lowercase order frames taxonomy params = micros at *
  generalize segmentMicro lowercase order later taxonomy params = micros' at *
  obtain ⟨low, hlow⟩ := exists_low micros
  obtain ⟨high, hhigh⟩ := exists_high micros'
  exact arrange_rawDrafts_append order order₁ order₂ params.nowMs now₁ now₂
    ⟨by omega, by omega, fun a ha => ⟨(hleft.proper a ha).ordered, hbefore a ha⟩,
      fun b hb => ⟨(hright.proper b hb).ordered, hafter b hb⟩⟩
    (by omega)
    (fun a ha => ⟨hlow a ha, (hleft.proper a ha).ordered, hbefore a ha,
      (hleft.proper a ha).frames⟩)
    (fun b hb => ⟨hafter b hb, (hright.proper b hb).ordered, hhigh b hb,
      (hright.proper b hb).frames⟩)
    hnodup

theorem mergeGap_pos (settings : Settings) (nowMs : Int) :
    0 < (paramsFromSettings nowMs (sanitizeSettings settings)).mergeGapMs := by
  change 0 < sessionMergeGapMs
  decide

theorem meetingGap_lt (settings : Settings) (nowMs : Int) :
    (paramsFromSettings nowMs (sanitizeSettings settings)).meetingGapMs <
      (paramsFromSettings nowMs (sanitizeSettings settings)).mergeGapMs := by
  change sessionMeetingGapMs < sessionMergeGapMs
  decide

/-- No span of the first pass reaches across the cut. -/
def NoSpanCrosses (lowercase : String → String) (taxonomy : Taxonomy) (frames : List SegmenterFrame)
    (params : SegmentationParams) (cut : Int) : Prop :=
  ∀ span ∈ segmentMicro lowercase .stored frames taxonomy params,
    span.lastTs < cut ∨ cut ≤ span.firstTs

instance (lowercase : String → String) (taxonomy : Taxonomy) (frames : List SegmenterFrame)
    (params : SegmentationParams) (cut : Int) :
    Decidable (NoSpanCrosses lowercase taxonomy frames params cut) :=
  inferInstanceAs (Decidable (∀ _ ∈ _, _))

/-- A span crosses the cut only where frames of one context meet there. -/
theorem noSpanCrosses_of_not_meet {frames : List SegmenterFrame} {params : SegmentationParams}
    {cut : Int} (hordered : InTimeOrder frames)
    (h : ¬ ContextsMeet lowercase taxonomy params.gapCloseMs (beforeCut cut frames)
      (fromCut cut frames)) :
    NoSpanCrosses lowercase taxonomy frames params cut := by
  have hsplit := before_append_from hordered cut
  intro span hspan
  rcases segmentMicro_split lowercase taxonomy params .stored
    (by rw [hsplit]; exact hordered) (beforeCut_lt cut frames) (le_fromCut cut frames) with
    happend | ⟨hmeet, -⟩
  · rw [hsplit] at happend
    rw [happend] at hspan
    rcases List.mem_append.mp hspan with hin | hin
    · obtain ⟨-, frame, hframe, -, hlast⟩ := segmentMicro_ends hin
      exact Or.inl (hlast ▸ beforeCut_lt cut frames frame hframe)
    · obtain ⟨⟨frame, hframe, -, hfirst⟩, -⟩ := segmentMicro_ends hin
      exact Or.inr (hfirst ▸ le_fromCut cut frames frame hframe)
  · exact absurd hmeet h

/-- A close gap no larger than the merge gap keeps every span on its side. -/
theorem noSpanCrosses_of_small {frames : List SegmenterFrame} {params : SegmentationParams}
    {cut : Int} (hordered : InTimeOrder frames) (hsmall : params.gapCloseMs ≤ params.mergeGapMs)
    (hapart : FramesApart lowercase taxonomy params.mergeGapMs (beforeCut cut frames)
      (fromCut cut frames)) :
    NoSpanCrosses lowercase taxonomy frames params cut := by
  refine noSpanCrosses_of_not_meet hordered ?_
  rintro ⟨a, ha, b, hb, key, r, r', hctx, hctx', hnear⟩
  have := hapart a ha b hb (by simp [Keyed, hctx]) (by simp [Keyed, hctx'])
  omega

/-- An assistant seen twice for two minutes, with the merge gap between. -/
def twoVisits : List SegmenterFrame :=
  [(1, 0), (2, 120000), (3, 2820000), (4, 2940000)].map fun (id, capturedAt) =>
    { id := id, capturedAt := capturedAt, appHint := some "claude", windowTitle := none,
      browserUrl := none }

def claudeTaxonomy : Taxonomy where
  version := 3
  entries := [{ id := "claude", kind := .ai, host := some .desktop, appHints := ["claude"],
                titlePatterns := [], titleExcludePatterns := [], prefixRanges := [] }]

def settingsWithGap (gapCloseSecs : Nat) : Settings where
  sessionsMinLenSecs := 30
  sessionsGapCloseSecs := gapCloseSecs

end ScreenSearch.Kernel
