import Mathlib.Data.List.AList
import Mathlib.Data.List.Chain
import Mathlib.Data.Prod.Lex
import ScreenSearch.Lib.Runs
import ScreenSearch.Traits.Capture

/-!
# Where was I

The last context that was kept up before the current one. The frames are cut into segments of
one context each, the segments of a context are put together to runs across interruptions
that are not kept up themselves, and of the runs that may be resumed the one that ends latest
is the answer. The frames are read newest first.

Main results:

* `segmentsOf_segmented` — segments are the maximal stretches of frames with one context;
* `gapHasSustainedInterrupter_iff` — whether some context of a gap is kept up;
* `consolidate_runs` — the scan with its marks finds the maximal groups, each once;
* `last_sustained_context_law` — the answer is the greatest of the runs that qualify.
-/

namespace ScreenSearch.Resume

open Runs

structure FrameContextRow where
  frameId : Int
  capturedAt : Int
  appHint : Option String
  windowTitle : Option String
  browserUrl : Option String
  imagePath : String
  imagePurged : Bool
  deriving DecidableEq, Repr

structure ResumeContext where
  frameId : Int
  app : String
  windowTitle : Option String
  browserUrl : Option String
  spanStart : Int
  spanEnd : Int
  imagePath : String
  imagePurged : Bool
  deriving DecidableEq, Repr

structure ResumeParams where
  minDwellMs : Int
  excludedApps : List String
  deriving DecidableEq, Repr

structure ContextKey where
  app : String
  domain : Option String
  deriving DecidableEq, Repr

structure Segment where
  key : ContextKey
  firstTs : Int
  lastTs : Int
  /-- The place of the last frame. -/
  rep : Nat
  deriving DecidableEq, Repr

structure Run where
  key : ContextKey
  firstTs : Int
  lastTs : Int
  rep : Nat
  deriving DecidableEq, Repr

/-! ## Context keys -/

def browserDomain (url : Option String) : Option String := do
  let url := Text.trim (← url)
  if url.isEmpty then none
  else
    let afterScheme := ((Text.splitOnce "://" url).map Prod.snd).getD url
    let host := Text.splitFirst ['/', '?', ':', '#'] afterScheme
    let host := Text.trim ((Text.stripPrefix "www." host).getD host)
    if host.isEmpty then none else some (Text.toAsciiLowercase host)

/-- A frame without an app has no key. -/
def contextKey (row : FrameContextRow) : Option ContextKey := do
  let app := Text.trim (← row.appHint)
  if app.isEmpty then none
  else some { app := Text.toAsciiLowercase app, domain := browserDomain row.browserUrl }

/-! ## Segments -/

/-- A frame with a key goes to the last segment, or starts one. -/
def pushFrame (segments : List Segment) (key : ContextKey) (f : FrameContextRow) (idx : Nat) :
    List Segment :=
  match segments.getLast? with
  | some seg =>
    if seg.key = key then segments.dropLast ++ [{ seg with lastTs := f.capturedAt, rep := idx }]
    else segments ++ [⟨key, f.capturedAt, f.capturedAt, idx⟩]
  | none => segments ++ [⟨key, f.capturedAt, f.capturedAt, idx⟩]

/-- Frames without a key are passed over. -/
def segmentsOf (frames : List FrameContextRow) : List Segment :=
  frames.zipIdx.foldl (fun segments f =>
    match contextKey f.1 with
    | none => segments
    | some key => pushFrame segments key f.1 f.2) []

/-! ## Runs -/

/-- Whether one context of the gap is there, first to last, for `minDwellMs`. -/
def gapHasSustainedInterrupter (gap : List Segment) (minDwellMs : Int) : Bool :=
  let spans : AList fun _ : ContextKey => Int × Int := gap.foldl (fun spans seg =>
    let entry := (spans.lookup seg.key).getD (seg.firstTs, seg.lastTs)
    spans.insert seg.key (min entry.1 seg.firstTs, max entry.2 seg.lastTs)) ∅
  -- in whatever order the values come
  spans.entries.any fun span => decide (span.2.2 - span.2.1 ≥ minDwellMs)

/-- `segments[first..last]` of the source, `last` excluded. -/
def slice (segments : List Segment) (first last : Nat) : List Segment :=
  (segments.drop first).take (last - first)

def findNext (segments : List Segment) (key : ContextKey) (first : Nat) : Option Nat :=
  (List.range' first (segments.length - first)).find? fun k =>
    segments[k]?.any fun seg => seg.key == key

theorem findNext_lt {segments : List Segment} {key : ContextKey} {first next : Nat}
    (h : findNext segments key first = some next) : first ≤ next ∧ next < segments.length := by
  have hIn := List.mem_range'_1.mp (List.mem_of_find?_eq_some h)
  omega

/-- The loop that takes the next segment of the key while nothing breaks the run. -/
def extendRun (segments : List Segment) (minDwellMs : Int) (key : ContextKey)
    (consumed : Nat → Bool) (run : Run) (lastSeg : Nat) : (Nat → Bool) × Run :=
  match _hNext : findNext segments key (lastSeg + 1) with
  | none => (consumed, run)
  | some next =>
    if gapHasSustainedInterrupter (slice segments (lastSeg + 1) next) minDwellMs then
      (consumed, run)
    else
      match segments[next]? with
      | none => (consumed, run)
      | some seg =>
        extendRun segments minDwellMs key (Function.update consumed next true)
          { run with lastTs := seg.lastTs, rep := seg.rep } next
  termination_by segments.length - lastSeg
  decreasing_by
    have := findNext_lt _hNext
    omega

def consolidateAt (segments : List Segment) (minDwellMs : Int)
    (state : (Nat → Bool) × List Run) (start : Nat) : (Nat → Bool) × List Run :=
  if state.1 start then state
  else
    match segments[start]? with
    | none => state
    | some seg =>
      let (consumed, run) := extendRun segments minDwellMs seg.key
        (Function.update state.1 start true) ⟨seg.key, seg.firstTs, seg.lastTs, seg.rep⟩ start
      (consumed, state.2 ++ [run])

def consolidate (segments : List Segment) (minDwellMs : Int) : List Run :=
  ((List.range segments.length).foldl (consolidateAt segments minDwellMs)
    (fun _ => false, [])).2

/-! ## The answer -/

/-- The frame of a run that may be resumed. -/
def candidate (frames : List FrameContextRow) (params : ResumeParams) (anchor : ContextKey)
    (run : Run) : Option FrameContextRow :=
  if run.key = anchor ∨ Text.contains run.key.app "screensearch" then none
  else
    frames[run.rep]?.bind fun rep =>
      if isExcluded rep.appHint rep.windowTitle params.excludedApps then none
      else if run.lastTs - run.firstTs < params.minDwellMs then none
      else some rep

/-- Later is better, then the frame with the higher id. -/
def rank (run : Run) (rep : FrameContextRow) : Int ×ₗ Int := toLex (run.lastTs, rep.frameId)

def pick (best : Option (Run × FrameContextRow)) (run : Run × FrameContextRow) :
    Option (Run × FrameContextRow) :=
  match best with
  | none => some run
  | some b => if rank b.1 b.2 < rank run.1 run.2 then some run else some b

def resumeContext (run : Run) (rep : FrameContextRow) : ResumeContext where
  frameId := rep.frameId
  app := rep.appHint.getD ""
  windowTitle := rep.windowTitle
  browserUrl := rep.browserUrl
  spanStart := run.firstTs
  spanEnd := run.lastTs
  imagePath := rep.imagePath
  imagePurged := rep.imagePurged

/-- The rows come newest first. -/
def lastSustainedContext (rows : List FrameContextRow) (params : ResumeParams) :
    Option ResumeContext :=
  let frames := rows.reverse
  let segments := segmentsOf frames
  segments.getLast?.bind fun last =>
    let best := (consolidate segments params.minDwellMs).foldl (fun best run =>
      match candidate frames params last.key run with
      | none => best
      | some rep => pick best (run, rep)) none
    best.map fun b => resumeContext b.1 b.2

/-! ## Stretches of frames -/

/-- A frame with its key and its place. -/
abbrev KeyedFrame := ContextKey × FrameContextRow × Nat

def keyed (frames : List FrameContextRow) : List KeyedFrame :=
  frames.zipIdx.filterMap fun f => (contextKey f.1).map fun key => (key, f.1, f.2)

/-- The segment stands for these frames. -/
structure Stretch (seg : Segment) (frames : List KeyedFrame) : Prop where
  key : ∀ f ∈ frames, f.1 = seg.key
  first : ∃ f, frames.head? = some f ∧ f.2.1.capturedAt = seg.firstTs
  last : ∃ f, frames.getLast? = some f ∧ f.2.1.capturedAt = seg.lastTs ∧ f.2.2 = seg.rep

/-- The frames are cut into stretches of one key, as long as they can be. -/
def Segmented (frames : List KeyedFrame) (segments : List Segment) : Prop :=
  ∃ stretches : List (Segment × List KeyedFrame),
    segments = stretches.map Prod.fst ∧ frames = (stretches.map Prod.snd).flatten ∧
      (∀ stretch ∈ stretches, Stretch stretch.1 stretch.2) ∧
      segments.IsChain fun a b => a.key ≠ b.key

theorem stretch_one (f : KeyedFrame) :
    Stretch ⟨f.1, f.2.1.capturedAt, f.2.1.capturedAt, f.2.2⟩ [f] where
  key := fun _ h => by rw [List.mem_singleton.mp h]
  first := ⟨f, rfl, rfl⟩
  last := ⟨f, rfl, rfl, rfl⟩

theorem Stretch.snoc {seg : Segment} {frames : List KeyedFrame} (h : Stretch seg frames)
    {f : KeyedFrame} (hKey : f.1 = seg.key) :
    Stretch { seg with lastTs := f.2.1.capturedAt, rep := f.2.2 } (frames ++ [f]) where
  key := by
    intro g hg
    rcases List.mem_append.mp hg with hOld | hNew
    · exact h.key g hOld
    · rw [List.mem_singleton.mp hNew]
      exact hKey
  first := by
    obtain ⟨g, hHead, hTime⟩ := h.first
    exact ⟨g, by rw [List.head?_append, hHead]; rfl, hTime⟩
  last := ⟨f, List.getLast?_concat .., rfl, rfl⟩

theorem pushFrame_segmented {frames : List KeyedFrame} {segments : List Segment}
    (h : Segmented frames segments) (f : KeyedFrame) :
    Segmented (frames ++ [f]) (pushFrame segments f.1 f.2.1 f.2.2) := by
  obtain ⟨stretches, rfl, rfl, hStretch, hChain⟩ := h
  -- the frame starts a segment if the last one is of another key
  have hNew (hOther : ∀ seg ∈ (stretches.map Prod.fst).getLast?, seg.key ≠ f.1) :
      Segmented ((stretches.map Prod.snd).flatten ++ [f])
        (stretches.map Prod.fst ++ [⟨f.1, f.2.1.capturedAt, f.2.1.capturedAt, f.2.2⟩]) := by
    refine ⟨stretches ++ [(⟨f.1, f.2.1.capturedAt, f.2.1.capturedAt, f.2.2⟩, [f])], ?_, ?_, ?_, ?_⟩
    · rw [List.map_append]
      rfl
    · rw [List.map_append, List.flatten_append]
      rfl
    · intro stretch hIn
      rcases List.mem_append.mp hIn with hOld | hLast
      · exact hStretch stretch hOld
      · rw [List.mem_singleton.mp hLast]
        exact stretch_one f
    · refine List.isChain_append.mpr ⟨hChain, .singleton _, fun seg hSeg next hNext => ?_⟩
      rw [List.head?_cons, Option.mem_some_iff] at hNext
      rw [← hNext]
      exact hOther seg hSeg
  unfold pushFrame
  split
  · next seg hLast =>
    split
    · next hSame =>
      obtain ⟨init, ⟨seg', own⟩, rfl⟩ :=
        (List.eq_nil_or_concat stretches).resolve_left fun hNil => by
          rw [hNil] at hLast
          cases hLast
      rw [List.concat_eq_append] at hLast hStretch hChain ⊢
      rw [List.map_append] at hChain
      rw [List.map_append, List.map_singleton, List.getLast?_concat] at hLast
      cases hLast
      have hOwn := hStretch _ (List.mem_append_right _ (List.mem_singleton_self _))
      refine ⟨init ++ [({ seg' with lastTs := f.2.1.capturedAt, rep := f.2.2 }, own ++ [f])],
        ?_, ?_, ?_, ?_⟩
      · rw [List.map_append, List.map_singleton, List.dropLast_concat, List.map_append]
        rfl
      · rw [List.map_append, List.map_append, List.flatten_append, List.flatten_append,
          List.append_assoc]
        congr 1
        show [own].flatten ++ [f] = [own ++ [f]].flatten
        rw [List.flatten_singleton, List.flatten_singleton]
      · intro stretch hIn
        rcases List.mem_append.mp hIn with hOld | hNew'
        · exact hStretch stretch (List.mem_append_left _ hOld)
        · rw [List.mem_singleton.mp hNew']
          exact hOwn.snoc hSame.symm
      · obtain ⟨hInit, -, hKeys⟩ := List.isChain_append.mp hChain
        rw [List.map_append, List.map_singleton, List.dropLast_concat]
        refine List.isChain_append.mpr ⟨hInit, .singleton _, fun seg hSeg next hNext => ?_⟩
        rw [List.head?_cons, Option.mem_some_iff] at hNext
        rw [← hNext]
        exact hKeys seg hSeg seg' rfl
    · next hOther =>
      refine hNew fun seg' hSeg' => ?_
      rw [hLast, Option.mem_some_iff] at hSeg'
      rw [← hSeg']
      exact hOther
  · next hNone =>
    refine hNew fun seg' hSeg' => ?_
    rw [hNone] at hSeg'
    cases hSeg'

theorem segmentsOf_eq (frames : List FrameContextRow) :
    segmentsOf frames =
      (keyed frames).foldl (fun segments f => pushFrame segments f.1 f.2.1 f.2.2) [] := by
  unfold segmentsOf keyed
  rw [List.foldl_filterMap]
  congr 1
  funext segments f
  rcases contextKey f.1 with - | key <;> rfl

theorem segmentsOf_segmented (frames : List FrameContextRow) :
    Segmented (keyed frames) (segmentsOf frames) := by
  rw [segmentsOf_eq]
  induction keyed frames using List.reverseRecOn with
  | nil => exact ⟨[], rfl, rfl, fun _ h => absurd h List.not_mem_nil, .nil⟩
  | append_singleton frames f ih =>
    rw [List.foldl_append]
    exact pushFrame_segmented ih f

/-! ## Interruptions -/

def firstSeen (gap : List Segment) (key : ContextKey) : Option Int :=
  ((gap.filter fun seg => seg.key = key).map Segment.firstTs).min?

def lastSeen (gap : List Segment) (key : ContextKey) : Option Int :=
  ((gap.filter fun seg => seg.key = key).map Segment.lastTs).max?

/-- Some context is there, from its first appearance in the gap to its last, for
`minDwellMs`. -/
def Interrupted (gap : List Segment) (minDwellMs : Int) : Prop :=
  ∃ key first last, firstSeen gap key = some first ∧ lastSeen gap key = some last ∧
    minDwellMs ≤ last - first

theorem min?_concat (l : List Int) (a : Int) : (l ++ [a]).min? = some (min (l.min?.getD a) a) := by
  rcases l with - | ⟨b, l⟩
  · exact congrArg some (min_self a).symm
  · rw [List.cons_append, List.min?_cons', List.min?_cons', List.foldl_append]
    rfl

theorem max?_concat (l : List Int) (a : Int) : (l ++ [a]).max? = some (max (l.max?.getD a) a) := by
  rcases l with - | ⟨b, l⟩
  · exact congrArg some (max_self a).symm
  · rw [List.cons_append, List.max?_cons', List.max?_cons', List.foldl_append]
    rfl

/-- The spans that are gathered are those between the first and the last appearance. -/
theorem lookup_spans (gap : List Segment) (key : ContextKey) :
    (gap.foldl (fun (spans : AList fun _ : ContextKey => Int × Int) seg =>
      spans.insert seg.key
        (min ((spans.lookup seg.key).getD (seg.firstTs, seg.lastTs)).1 seg.firstTs,
          max ((spans.lookup seg.key).getD (seg.firstTs, seg.lastTs)).2 seg.lastTs)) ∅).lookup key =
      (firstSeen gap key).bind fun first => (lastSeen gap key).map fun last => (first, last) := by
  induction gap using List.reverseRecOn generalizing key with
  | nil => rfl
  | append_singleton gap seg ih =>
    rw [List.foldl_append, List.foldl_cons, List.foldl_nil, ih]
    unfold firstSeen lastSeen
    rw [List.filter_append]
    by_cases hKey : seg.key = key
    · have hOne : [seg].filter (fun seg => seg.key = key) = [seg] :=
        List.filter_eq_self.mpr fun s hs => by
          rw [List.mem_singleton.mp hs]
          exact decide_eq_true hKey
      rw [hOne, List.map_append, List.map_append, List.map_singleton, List.map_singleton,
        min?_concat, max?_concat, hKey, AList.lookup_insert, Option.bind_some, Option.map_some]
      -- the key has both of its ends, or is new
      generalize gap.filter (fun seg => seg.key = key) = own
      rcases own with - | ⟨first, own⟩ <;> rfl
    · have hNone : [seg].filter (fun seg => seg.key = key) = [] :=
        List.filter_eq_nil_iff.mpr fun s hs => by
          rw [List.mem_singleton.mp hs, decide_eq_true_eq]
          exact hKey
      rw [hNone, List.append_nil, AList.lookup_insert_ne (Ne.symm hKey), ih]
      rfl

theorem gapHasSustainedInterrupter_iff (gap : List Segment) (minDwellMs : Int) :
    gapHasSustainedInterrupter gap minDwellMs = true ↔ Interrupted gap minDwellMs := by
  unfold gapHasSustainedInterrupter Interrupted
  dsimp only
  rw [List.any_eq_true]
  constructor
  · rintro ⟨⟨key, first, last⟩, hIn, hLong⟩
    have hSpan := AList.mem_lookup_iff.mpr hIn
    rw [Option.mem_def, lookup_spans] at hSpan
    obtain ⟨first', hFirst, hSpan⟩ := Option.bind_eq_some_iff.mp hSpan
    obtain ⟨last', hLast, hSpan⟩ := Option.map_eq_some_iff.mp hSpan
    cases hSpan
    exact ⟨key, first, last, hFirst, hLast, of_decide_eq_true hLong⟩
  · rintro ⟨key, first, last, hFirst, hLast, hLong⟩
    refine ⟨⟨key, first, last⟩, AList.mem_lookup_iff.mp ?_, decide_eq_true hLong⟩
    rw [Option.mem_def, lookup_spans, hFirst, hLast]
    rfl

/-! ## The scan -/

/-- The key of the segment at a position. -/
def keyAt (segments : List Segment) (k : Nat) : Option ContextKey := segments[k]?.map Segment.key

/-- Between the two segments some context is kept up. -/
def Broken (segments : List Segment) (minDwellMs : Int) (i j : Nat) : Prop :=
  Interrupted (slice segments (i + 1) j) minDwellMs

/-- The run from one segment to another, as the groups of a context say. -/
abbrev IsRunOf (segments : List Segment) (minDwellMs : Int) (i j : Nat) : Prop :=
  IsRun (keyAt segments) segments.length (Broken segments minDwellMs) i j

/-- The run starts with the one segment and ends with the other. -/
def Spans (segments : List Segment) (i j : Nat) (run : Run) : Prop :=
  ∃ first last, segments[i]? = some first ∧ segments[j]? = some last ∧
    run = ⟨first.key, first.firstTs, last.lastTs, last.rep⟩

/-- A run is known by its first and its last segment. -/
theorem Spans.unique {segments : List Segment} {i j : Nat} {run run' : Run}
    (h : Spans segments i j run) (h' : Spans segments i j run') : run = run' := by
  obtain ⟨first, last, hFirst, hLast, rfl⟩ := h
  obtain ⟨first', last', hFirst', hLast', rfl⟩ := h'
  rw [hFirst] at hFirst'
  rw [hLast] at hLast'
  cases hFirst'
  cases hLast'
  rfl

variable {segments : List Segment} {minDwellMs : Int} {key : ContextKey} {start last : Nat}

theorem any_keyAt (k : Nat) :
    (segments[k]?.any fun seg => seg.key == key) = true ↔ keyAt segments k = some key := by
  unfold keyAt
  rcases segments[k]? with - | seg
  · exact ⟨fun h => (nomatch h), fun h => (nomatch h)⟩
  · rw [Option.any_some, beq_iff_eq, Option.map_some, Option.some.injEq]

theorem findNext_some (hKey : keyAt segments last = some key) {next : Nat}
    (h : findNext segments key (last + 1) = some next) :
    Neighbours (keyAt segments) last next ∧ next < segments.length := by
  have hNext := List.find?_range'_eq_some.mp h
  refine ⟨⟨?_, ?_, ?_⟩, (findNext_lt h).2⟩
  · have := (findNext_lt h).1
    omega
  · rw [hKey, (any_keyAt next).mp hNext.1]
  · intro m hm hmNext hSame
    have hNot := hNext.2.2 m (by omega) hmNext
    rw [(any_keyAt m).mpr (hSame.trans hKey)] at hNot
    cases hNot

theorem findNext_none (hKey : keyAt segments last = some key)
    (h : findNext segments key (last + 1) = none) :
    Stuck (keyAt segments) segments.length (Broken segments minDwellMs) last := by
  intro k hk hNext
  have hNot := List.find?_range'_eq_none.mp h k hNext.lt (by have := hNext.lt; omega)
  rw [(any_keyAt k).mpr (hNext.same.symm.trans hKey)] at hNot
  cases hNot

/-- The loop takes a run to where it is stuck, and marks what it takes. -/
theorem extendRun_spec (hKey : keyAt segments start = some key) {run : Run}
    (hRun : Spans segments start last run) (consumed : Nat → Bool)
    (hJoined : Joined (keyAt segments) segments.length (Broken segments minDwellMs) start last) :
    ∃ j, Joined (keyAt segments) segments.length (Broken segments minDwellMs) start j ∧
      Stuck (keyAt segments) segments.length (Broken segments minDwellMs) j ∧
      Spans segments start j (extendRun segments minDwellMs key consumed run last).2 ∧ last ≤ j ∧
      ∀ k, (extendRun segments minDwellMs key consumed run last).1 k = true ↔
        consumed k = true ∨ (last < k ∧ k ≤ j ∧ keyAt segments k = some key) := by
  have hLast : keyAt segments last = some key := hJoined.same.symm.trans hKey
  induction hLeft : segments.length - last using Nat.strongRecOn
    generalizing last consumed run with
  | ind left ih =>
    have hStop (hStuck : Stuck (keyAt segments) segments.length (Broken segments minDwellMs) last) :
        ∃ j, Joined (keyAt segments) segments.length (Broken segments minDwellMs) start j ∧
          Stuck (keyAt segments) segments.length (Broken segments minDwellMs) j ∧
          Spans segments start j run ∧ last ≤ j ∧
          ∀ k, consumed k = true ↔
            consumed k = true ∨ (last < k ∧ k ≤ j ∧ keyAt segments k = some key) :=
      ⟨last, hJoined, hStuck, hRun, Nat.le_refl last,
        fun k => ⟨.inl, fun h => h.elim id fun hk => by omega⟩⟩
    rw [extendRun]
    split
    · next hNone => exact hStop (findNext_none hLast hNone)
    next next' hNext =>
    obtain ⟨hNeighbours, hBound⟩ := findNext_some hLast hNext
    split
    · next hGap =>
      refine hStop fun k hk hOther => ?_
      -- the next neighbour is the one that was found
      have hSame : k = next' := by
        rcases Nat.lt_trichotomy k next' with hLess | hEq | hMore
        · exact absurd hOther.same.symm (hNeighbours.between k hOther.lt hLess)
        · exact hEq
        · exact absurd hNeighbours.same.symm (hOther.between next' hNeighbours.lt hMore)
      rw [hSame]
      exact (gapHasSustainedInterrupter_iff _ _).mp hGap
    next hGap =>
    rw [gapHasSustainedInterrupter_iff] at hGap
    have hGrown := hJoined.snoc hNeighbours hBound hGap
    split
    · next hOut =>
      rw [List.getElem?_eq_none_iff] at hOut
      omega
    next seg hSeg =>
    obtain ⟨first, final, hFirst, hFinal, rfl⟩ := hRun
    have hLt := hNeighbours.lt
    have hRun' : Spans segments start next' ⟨first.key, first.firstTs, seg.lastTs, seg.rep⟩ :=
      ⟨first, seg, hFirst, hSeg, rfl⟩
    have hKeyNext : keyAt segments next' = some key := hGrown.same.symm.trans hKey
    obtain ⟨j, hTo, hStuck, hSpans, hLe, hConsumed⟩ := ih (segments.length - next') (by omega)
      hRun' (Function.update consumed next' true) hGrown hKeyNext rfl
    refine ⟨j, hTo, hStuck, hSpans, by omega, fun k => (hConsumed k).trans ?_⟩
    rw [Function.update_apply]
    by_cases hk : k = next'
    · rw [if_pos hk, hk]
      exact ⟨fun _ => .inr ⟨hLt, hLe, hKeyNext⟩, fun _ => .inl rfl⟩
    · rw [if_neg hk]
      refine or_congr_right ⟨fun h => ⟨by omega, h.2⟩, fun h => ⟨?_, h.2⟩⟩
      by_contra hBefore
      exact hNeighbours.between k h.1 (by omega) (h.2.2.trans hLast.symm)

/-- What the scan has found before `start`, and what it has marked. -/
structure Found (segments : List Segment) (minDwellMs : Int) (start : Nat)
    (consumed : Nat → Bool) (found : List ((Nat × Nat) × Run)) : Prop where
  scanned : Scanned (keyAt segments) segments.length (Broken segments minDwellMs)
    (found.map Prod.fst) start
  spans : ∀ run ∈ found, Spans segments run.1.1 run.1.2 run.2
  consumed : ∀ k, consumed k = true ↔ Taken (keyAt segments) (found.map Prod.fst) k

theorem consolidateAt_found {consumed : Nat → Bool} {found : List ((Nat × Nat) × Run)}
    (h : Found segments minDwellMs start consumed found) (hStart : start < segments.length) :
    ∃ found', (consolidateAt segments minDwellMs (consumed, found.map Prod.snd) start).2 =
        found'.map Prod.snd ∧
      Found segments minDwellMs (start + 1)
        (consolidateAt segments minDwellMs (consumed, found.map Prod.snd) start).1 found' := by
  unfold consolidateAt
  dsimp only
  split
  · next hTaken =>
    exact ⟨found, rfl, h.scanned.skip ((h.consumed start).mp hTaken), h.spans, h.consumed⟩
  next hFree =>
  rw [h.consumed] at hFree
  split
  · next hOut =>
    rw [List.getElem?_eq_none_iff] at hOut
    omega
  next seg hSeg =>
  have hKey : keyAt segments start = some seg.key := congrArg (Option.map Segment.key) hSeg
  have hRun : Spans segments start start ⟨seg.key, seg.firstTs, seg.lastTs, seg.rep⟩ :=
    ⟨seg, seg, hSeg, hSeg, rfl⟩
  have hSelf : Joined (keyAt segments) segments.length (Broken segments minDwellMs) start start :=
    joined_self hStart
  obtain ⟨j, hJoined, hStuck, hSpans, hLe, hConsumed⟩ :=
    extendRun_spec hKey hRun (Function.update consumed start true) hSelf
  generalize extendRun segments minDwellMs seg.key (Function.update consumed start true)
    ⟨seg.key, seg.firstTs, seg.lastTs, seg.rep⟩ start = result at hSpans hConsumed ⊢
  have hFirsts : (found ++ [((start, j), result.2)]).map Prod.fst =
      found.map Prod.fst ++ [(start, j)] := List.map_append
  refine ⟨found ++ [((start, j), result.2)], ?_, ?_, ?_, ?_⟩
  · rw [List.map_append]
    rfl
  · rw [hFirsts]
    exact h.scanned.push hFree hJoined hStuck
  · intro run hIn
    rcases List.mem_append.mp hIn with hOld | hNew
    · exact h.spans run hOld
    · rw [List.mem_singleton.mp hNew]
      exact hSpans
  · intro k
    rw [hConsumed, hFirsts, taken_concat, Function.update_apply, hKey]
    by_cases hk : k = start
    · rw [if_pos hk, hk, hKey]
      exact ⟨fun _ => .inr ⟨Nat.le_refl start, hLe, rfl⟩, fun _ => .inl rfl⟩
    · rw [if_neg hk, h.consumed]
      exact or_congr_right ⟨fun hIn => ⟨by omega, hIn.2⟩, fun hIn => ⟨by omega, hIn.2⟩⟩

/-- The scan finds the maximal groups, each once, from left to right. -/
theorem consolidate_runs (segments : List Segment) (minDwellMs : Int) :
    ∃ found : List ((Nat × Nat) × Run),
      consolidate segments minDwellMs = found.map Prod.snd ∧
      (∀ i j, (i, j) ∈ found.map Prod.fst ↔ IsRunOf segments minDwellMs i j) ∧
      (∀ run ∈ found, Spans segments run.1.1 run.1.2 run.2) ∧
      found.Pairwise fun run later => run.1.1 < later.1.1 := by
  have hSteps : ∀ m ≤ segments.length, ∃ found : List ((Nat × Nat) × Run),
      ((List.range m).foldl (consolidateAt segments minDwellMs) (fun _ => false, [])).2 =
        found.map Prod.snd ∧
      Found segments minDwellMs m
        ((List.range m).foldl (consolidateAt segments minDwellMs) (fun _ => false, [])).1 found := by
    intro m hm
    induction m with
    | zero =>
      refine ⟨[], rfl, scanned_nil, fun _ h => absurd h List.not_mem_nil, fun k => ?_⟩
      exact ⟨fun h => (nomatch h), fun ⟨_, h, _⟩ => absurd h List.not_mem_nil⟩
    | succ m ih =>
      obtain ⟨found, hRuns, hFound⟩ := ih (by omega)
      rw [List.range_succ, List.foldl_append, List.foldl_cons, List.foldl_nil]
      generalize (List.range m).foldl (consolidateAt segments minDwellMs) (fun _ => false, []) =
        state at hRuns hFound ⊢
      obtain ⟨consumed, runs⟩ := state
      cases hRuns
      exact consolidateAt_found hFound (by omega)
  obtain ⟨found, hRuns, hFound⟩ := hSteps segments.length (Nat.le_refl _)
  have hOrdered := hFound.scanned.ordered
  rw [List.pairwise_map] at hOrdered
  exact ⟨found, hRuns, fun i j => hFound.scanned.mem_iff, hFound.spans, hOrdered⟩

/-! ## The answer -/

/-- The first of the greatest is picked. -/
theorem foldl_pick (runs : List (Run × FrameContextRow)) :
    match runs.foldl pick none with
    | none => runs = []
    | some best => ∃ before after, runs = before ++ best :: after ∧
        (∀ run ∈ before, rank run.1 run.2 < rank best.1 best.2) ∧
        ∀ run ∈ after, rank run.1 run.2 ≤ rank best.1 best.2 := by
  induction runs using List.reverseRecOn with
  | nil => rfl
  | append_singleton runs run ih =>
    rw [List.foldl_append, List.foldl_cons, List.foldl_nil]
    rcases hBest : runs.foldl pick none with - | best
    · rw [hBest] at ih
      rw [show runs = [] from ih]
      exact ⟨[], [], rfl, fun _ h => absurd h List.not_mem_nil,
        fun _ h => absurd h List.not_mem_nil⟩
    · rw [hBest] at ih
      obtain ⟨before, after, hRuns, hBefore, hAfter⟩ := ih
      unfold pick
      dsimp only
      by_cases hBetter : rank best.1 best.2 < rank run.1 run.2
      · rw [if_pos hBetter]
        refine ⟨runs, [], rfl, fun other hOther => ?_, fun _ h => absurd h List.not_mem_nil⟩
        rw [hRuns] at hOther
        rcases List.mem_append.mp hOther with hIn | hIn
        · exact (hBefore other hIn).trans hBetter
        · rcases List.mem_cons.mp hIn with rfl | hIn
          · exact hBetter
          · exact (hAfter other hIn).trans_lt hBetter
      · rw [if_neg hBetter]
        refine ⟨before, after ++ [run], ?_, hBefore, fun other hOther => ?_⟩
        · rw [hRuns, List.append_assoc, List.cons_append]
        · rcases List.mem_append.mp hOther with hIn | hIn
          · exact hAfter other hIn
          · rw [List.mem_singleton.mp hIn]
            exact not_lt.mp hBetter

theorem candidate_iff {frames : List FrameContextRow} {params : ResumeParams} {anchor : ContextKey}
    {run : Run} {rep : FrameContextRow} :
    candidate frames params anchor run = some rep ↔
      run.key ≠ anchor ∧ Text.contains run.key.app "screensearch" = false ∧
        frames[run.rep]? = some rep ∧
        isExcluded rep.appHint rep.windowTitle params.excludedApps = false ∧
        params.minDwellMs ≤ run.lastTs - run.firstTs := by
  unfold candidate
  split
  · next hOut =>
    refine ⟨fun h => (nomatch h), fun ⟨hKey, hOwn, _⟩ => ?_⟩
    rcases hOut with hSame | hSame
    · exact absurd hSame hKey
    · rw [hOwn] at hSame
      cases hSame
  · next hIn =>
    obtain ⟨hKey, hOwn⟩ := not_or.mp hIn
    rw [Option.bind_eq_some_iff]
    constructor
    · rintro ⟨f, hFrame, hRest⟩
      split at hRest
      · cases hRest
      next hAllowed =>
      split at hRest
      · cases hRest
      next hLong =>
      cases hRest
      exact ⟨hKey, Bool.eq_false_iff.mpr hOwn, hFrame, Bool.eq_false_iff.mpr hAllowed, by omega⟩
    · rintro ⟨-, -, hFrame, hAllowed, hLong⟩
      refine ⟨rep, hFrame, ?_⟩
      rw [if_neg (by rw [hAllowed]; exact Bool.false_ne_true), if_neg (by omega)]

/-- A run of a context that may be resumed: not the current one, not this application, not
excluded by its last frame, and kept up. -/
structure Candidate (rows : List FrameContextRow) (params : ResumeParams) (i j : Nat) (run : Run)
    (rep : FrameContextRow) : Prop where
  isRun : IsRunOf (segmentsOf rows.reverse) params.minDwellMs i j
  spans : Spans (segmentsOf rows.reverse) i j run
  frame : rows.reverse[run.rep]? = some rep
  notAnchor : ∀ last, (segmentsOf rows.reverse).getLast? = some last → run.key ≠ last.key
  notOwn : Text.contains run.key.app "screensearch" = false
  notExcluded : isExcluded rep.appHint rep.windowTitle params.excludedApps = false
  dwell : params.minDwellMs ≤ run.lastTs - run.firstTs

/-- A segment ends at a frame. -/
theorem rep_of_segment {frames : List FrameContextRow} {seg : Segment}
    (h : seg ∈ segmentsOf frames) : ∃ rep, frames[seg.rep]? = some rep := by
  obtain ⟨stretches, hSegments, hFrames, hStretch, -⟩ := segmentsOf_segmented frames
  rw [hSegments] at h
  obtain ⟨stretch, hIn, rfl⟩ := List.mem_map.mp h
  obtain ⟨f, hLast, -, hRep⟩ := (hStretch stretch hIn).last
  have hKeyed : f ∈ keyed frames := by
    rw [hFrames]
    exact List.mem_flatten_of_mem (List.mem_map_of_mem hIn) (List.mem_of_getLast? hLast)
  obtain ⟨place, hPlace, hSome⟩ := List.mem_filterMap.mp hKeyed
  obtain ⟨key, -, rfl⟩ := Option.map_eq_some_iff.mp hSome
  refine ⟨place.1, ?_⟩
  rw [← hRep]
  exact List.mem_zipIdx_iff_getElem?.mp hPlace

/-- The candidates, in the order in which their runs start, and the answer from them. -/
theorem candidates_eq (rows : List FrameContextRow) (params : ResumeParams) :
    ∃ candidates : List ((Nat × Nat) × Run × FrameContextRow),
      lastSustainedContext rows params =
        ((candidates.map Prod.snd).foldl pick none).map (fun b => resumeContext b.1 b.2) ∧
      (∀ i j run rep, ((i, j), run, rep) ∈ candidates ↔ Candidate rows params i j run rep) ∧
      candidates.Pairwise fun c later => c.1.1 < later.1.1 := by
  unfold lastSustainedContext
  dsimp only
  rcases hLast : (segmentsOf rows.reverse).getLast? with - | last
  · refine ⟨[], rfl, fun i j run rep => ⟨fun h => absurd h List.not_mem_nil, fun h => ?_⟩, .nil⟩
    have hBound := h.isRun.joined.lt
    rw [List.getLast?_eq_none_iff.mp hLast] at hBound
    exact absurd hBound (Nat.not_lt_zero j)
  · obtain ⟨found, hRuns, hAll, hSpans, hOrdered⟩ :=
      consolidate_runs (segmentsOf rows.reverse) params.minDwellMs
    refine ⟨found.filterMap fun run =>
      (candidate rows.reverse params last.key run.2).map fun rep => (run.1, run.2, rep), ?_, ?_, ?_⟩
    · rw [Option.bind_some, hRuns, List.map_filterMap, List.foldl_filterMap, List.foldl_map]
      congr 2
      funext best run
      rcases candidate rows.reverse params last.key run.2 with - | rep <;> rfl
    · intro i j run rep
      rw [List.mem_filterMap]
      constructor
      · rintro ⟨⟨place, run'⟩, hFound, hSome⟩
        obtain ⟨rep', hCandidate, hSame⟩ := Option.map_eq_some_iff.mp hSome
        cases hSame
        obtain ⟨hKey, hOwn, hFrame, hAllowed, hLong⟩ := candidate_iff.mp hCandidate
        refine ⟨(hAll i j).mp (List.mem_map_of_mem hFound), hSpans _ hFound, hFrame, ?_, hOwn,
          hAllowed, hLong⟩
        intro last' hLast'
        rw [hLast] at hLast'
        cases hLast'
        exact hKey
      · intro h
        obtain ⟨⟨place, run'⟩, hFound, hPlace⟩ := List.mem_map.mp ((hAll i j).mpr h.isRun)
        cases hPlace
        have hSame : run' = run := (hSpans _ hFound).unique h.spans
        refine ⟨_, hFound, Option.map_eq_some_iff.mpr ⟨rep, ?_, by rw [hSame]⟩⟩
        show candidate rows.reverse params last.key run' = some rep
        rw [hSame, candidate_iff]
        exact ⟨h.notAnchor last hLast, h.notOwn, h.frame, h.notExcluded, h.dwell⟩
    · refine List.Pairwise.filterMap _ (fun run later hBefore c hc c' hc' => ?_) hOrdered
      obtain ⟨rep, -, rfl⟩ := Option.map_eq_some_iff.mp hc
      obtain ⟨rep', -, rfl⟩ := Option.map_eq_some_iff.mp hc'
      exact hBefore

/-- No candidate is ranked higher, and none of the same rank starts earlier. -/
def Greatest (rows : List FrameContextRow) (params : ResumeParams) (i : Nat) (run : Run)
    (rep : FrameContextRow) : Prop :=
  ∀ i' j' run' rep', Candidate rows params i' j' run' rep' →
    rank run' rep' < rank run rep ∨ rank run' rep' = rank run rep ∧ i ≤ i'

/-- There is one greatest candidate at most. -/
theorem Greatest.unique {rows : List FrameContextRow} {params : ResumeParams} {i j i' j' : Nat}
    {run run' : Run} {rep rep' : FrameContextRow} (h : Greatest rows params i run rep)
    (hCandidate : Candidate rows params i j run rep) (h' : Greatest rows params i' run' rep')
    (hCandidate' : Candidate rows params i' j' run' rep') : run = run' ∧ rep = rep' := by
  have hBelow := h i' j' run' rep' hCandidate'
  have hAbove := h' i j run rep hCandidate
  have hStart : i = i' := by
    rcases hBelow with hLess | ⟨hSame, hFirst⟩
    · rcases hAbove with hMore | ⟨hSame, -⟩
      · exact absurd hLess hMore.asymm
      · exact absurd hSame hLess.ne'
    · rcases hAbove with hMore | ⟨-, hFirst'⟩
      · exact absurd hSame hMore.ne'
      · omega
  subst hStart
  obtain ⟨-, hFinish⟩ := hCandidate.isRun.eq_of_mem hCandidate'.isRun
    ⟨Nat.le_refl i, hCandidate.isRun.joined.le, rfl⟩
    ⟨Nat.le_refl i, hCandidate'.isRun.joined.le, rfl⟩
  subst hFinish
  have hRun := hCandidate.spans.unique hCandidate'.spans
  refine ⟨hRun, Option.some.inj ?_⟩
  rw [← hCandidate.frame, ← hCandidate'.frame, hRun]

/-- What is picked from the candidates is the greatest of them. -/
theorem pick_greatest {rows : List FrameContextRow} {params : ResumeParams}
    {candidates : List ((Nat × Nat) × Run × FrameContextRow)}
    (hMem : ∀ i j run rep, ((i, j), run, rep) ∈ candidates ↔ Candidate rows params i j run rep)
    (hOrdered : candidates.Pairwise fun c later => c.1.1 < later.1.1)
    {best : Run × FrameContextRow}
    (hBest : (candidates.map Prod.snd).foldl pick none = some best) :
    ∃ i j, Candidate rows params i j best.1 best.2 ∧ Greatest rows params i best.1 best.2 := by
  have hPick := foldl_pick (candidates.map Prod.snd)
  rw [hBest] at hPick
  obtain ⟨before, after, hSplit, hBefore, hAfter⟩ := hPick
  obtain ⟨earlier, rest, rfl, rfl, hRest⟩ := List.map_eq_append_iff.mp hSplit
  obtain ⟨⟨⟨i, j⟩, found⟩, later, rfl, rfl, rfl⟩ := List.map_eq_cons_iff.mp hRest
  refine ⟨i, j, (hMem ..).mp (List.mem_append_right _ List.mem_cons_self), ?_⟩
  intro i' j' run' rep' hOther
  rcases List.mem_append.mp ((hMem ..).mpr hOther) with hIn | hIn
  · exact .inl (hBefore _ (List.mem_map_of_mem hIn))
  · rcases List.mem_cons.mp hIn with hSame | hIn
    · cases hSame
      exact .inr ⟨rfl, Nat.le_refl _⟩
    · obtain ⟨-, hLater, -⟩ := List.pairwise_append.mp hOrdered
      have hStart := (List.pairwise_cons.mp hLater).1 _ hIn
      exact (hAfter _ (List.mem_map_of_mem hIn)).lt_or_eq.imp_right fun hEq => ⟨hEq, hStart.le⟩

/-- What the answer is for rows and parameters. -/
structure ResumeLaw (rows : List FrameContextRow) (params : ResumeParams) : Prop where
  segmented : Segmented (keyed rows.reverse) (segmentsOf rows.reverse)
  ends : ∀ i j, IsRunOf (segmentsOf rows.reverse) params.minDwellMs i j →
    ∃ run rep, Spans (segmentsOf rows.reverse) i j run ∧ rows.reverse[run.rep]? = some rep
  none_iff : lastSustainedContext rows params = none ↔
    ∀ i j run rep, ¬ Candidate rows params i j run rep
  some_iff : ∀ context, lastSustainedContext rows params = some context ↔
    ∃ i j run rep, Candidate rows params i j run rep ∧ Greatest rows params i run rep ∧
      context = resumeContext run rep

theorem run_ends {frames : List FrameContextRow} {minDwellMs : Int} {i j : Nat}
    (h : IsRunOf (segmentsOf frames) minDwellMs i j) :
    ∃ run rep, Spans (segmentsOf frames) i j run ∧ frames[run.rep]? = some rep := by
  have hLt := h.joined.lt
  have hLe := h.joined.le
  have hFirst := List.getElem?_eq_getElem (l := segmentsOf frames) (i := i) (by omega)
  have hLast := List.getElem?_eq_getElem (l := segmentsOf frames) (i := j) hLt
  obtain ⟨rep, hRep⟩ := rep_of_segment (List.getElem_mem hLt)
  exact ⟨_, rep, ⟨_, _, hFirst, hLast, rfl⟩, hRep⟩

/-- The answer is the run of highest rank among those that may be resumed, and there is none
exactly if no run may be. -/
theorem last_sustained_context_law (rows : List FrameContextRow) (params : ResumeParams) :
    ResumeLaw rows params := by
  obtain ⟨candidates, hAnswer, hMem, hOrdered⟩ := candidates_eq rows params
  refine ⟨segmentsOf_segmented _, fun i j h => run_ends h, ?_, fun context => ?_⟩
  · rw [hAnswer, Option.map_eq_none_iff]
    constructor
    · intro hNone i j run rep h
      have hPick := foldl_pick (candidates.map Prod.snd)
      rw [hNone] at hPick
      rw [← hMem, List.map_eq_nil_iff.mp hPick] at h
      exact List.not_mem_nil h
    · intro hNone
      have hEmpty : candidates = [] :=
        List.eq_nil_iff_forall_not_mem.mpr fun c hc => hNone _ _ _ _ ((hMem ..).mp hc)
      rw [hEmpty]
      rfl
  · rw [hAnswer, Option.map_eq_some_iff]
    constructor
    · rintro ⟨best, hBest, rfl⟩
      obtain ⟨i, j, hCandidate, hGreatest⟩ := pick_greatest hMem hOrdered hBest
      exact ⟨i, j, best.1, best.2, hCandidate, hGreatest, rfl⟩
    · rintro ⟨i, j, run, rep, hCandidate, hGreatest, rfl⟩
      rcases hBest : (candidates.map Prod.snd).foldl pick none with - | best
      · have hPick := foldl_pick (candidates.map Prod.snd)
        rw [hBest] at hPick
        rw [← hMem, List.map_eq_nil_iff.mp hPick] at hCandidate
        exact absurd hCandidate List.not_mem_nil
      · obtain ⟨i', j', hCandidate', hGreatest'⟩ := pick_greatest hMem hOrdered hBest
        obtain ⟨hRun, hRep⟩ := hGreatest'.unique hCandidate' hGreatest hCandidate
        exact ⟨best, rfl, by rw [hRun, hRep]⟩

end ScreenSearch.Resume
