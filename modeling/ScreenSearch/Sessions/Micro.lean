import Mathlib.Data.String.Lemmas
import ScreenSearch.Lib.Assoc
import ScreenSearch.Lib.Sort
import ScreenSearch.Sessions.Taxonomy

/-!
# Pass one of the segmenter: frames to micro spans

`segmentMicro` is the code's loop over segment indexes with its `consumed`
flags. `microRuns` states the same result by recursion on the segments that
remain: a run starts at the first of them, grows over non-sustained
interruptions, and what it has not swallowed is segmented in turn.

* `consolidate_eq_microRuns` — the index loop computes `microRuns`;
* `microRuns_frameIds` — consolidation moves frames around and neither drops nor
  invents one.
-/

namespace ScreenSearch.Sessions

open Assoc Sorting

structure Segment where
  key : String
  recognition : Option Recognized
  firstTs : Int
  lastTs : Int
  firstId : Int
  frameIds : List Int
  deriving DecidableEq, Repr

structure MicroSpan where
  key : String
  recognition : Option Recognized
  firstTs : Int
  lastTs : Int
  firstId : Int
  frameIds : List Int
  deriving DecidableEq, Repr

/-! ## Context keys -/

def browserDomain (url : Option String) : Option String := do
  let url := Text.trim (← url)
  if url.isEmpty then none
  else
    let afterScheme := ((Text.splitOnce "://" url).map Prod.snd).getD url
    let host := Text.splitFirst ['/', '?', ':', '#'] afterScheme
    let host := Text.trim ((Text.stripPrefix "www." host).getD host)
    if host.isEmpty then none else some (Text.toAsciiLowercase host)

/-- The context key and recognition of a frame; `none` for a frame without an
app hint, or with a blank one. -/
def contextOf (lowercase : String → String) (frame : SegmenterFrame) (taxonomy : Taxonomy) :
    Option (String × Option Recognized) := do
  let app := Text.trim (← frame.appHint)
  if app.isEmpty then none
  else
    let app := Text.toAsciiLowercase app
    let domain := (browserDomain frame.browserUrl).getD ""
    let recognition := taxonomy.recognize lowercase frame.appHint frame.windowTitle
    let identity := (recognition.map Recognized.id).getD ""
    let key := Text.trimEndMatches '|' (app ++ "|" ++ domain ++ "|" ++ identity)
    some (key, recognition)

/-! ## Maximal same-key segments -/

def Segment.ofFrame (key : String) (recognition : Option Recognized) (frame : SegmenterFrame) :
    Segment where
  key := key
  recognition := recognition
  firstTs := frame.capturedAt
  lastTs := frame.capturedAt
  firstId := frame.id
  frameIds := [frame.id]

def Segment.push (segment : Segment) (frame : SegmenterFrame) : Segment :=
  { segment with lastTs := frame.capturedAt, frameIds := segment.frameIds ++ [frame.id] }

/-- One keyed frame: extend the last segment or open a new one. -/
def pushFrame (gapCloseMs : Int) (segments : List Segment) (key : String)
    (recognition : Option Recognized) (frame : SegmenterFrame) : List Segment :=
  match segments.getLast? with
  | some segment =>
    if segment.key = key ∧ frame.capturedAt - segment.lastTs < gapCloseMs then
      segments.dropLast ++ [segment.push frame]
    else segments ++ [Segment.ofFrame key recognition frame]
  | none => segments ++ [Segment.ofFrame key recognition frame]

/-- Chronological, ties by frame id. -/
def timeKey (frame : SegmenterFrame) : Int ×ₗ Int := toLex (frame.capturedAt, frame.id)

/-- The loop over the ordered frames; frames without a context are skipped. -/
def segmentsFrom (lowercase : String → String) (taxonomy : Taxonomy) (gapCloseMs : Int)
    (segments : List Segment) (ordered : List SegmenterFrame) : List Segment :=
  ordered.foldl (fun segments frame =>
    match contextOf lowercase frame taxonomy with
    | none => segments
    | some (key, recognition) => pushFrame gapCloseMs segments key recognition frame) segments

def segmentsOf (lowercase : String → String) (frames : List SegmenterFrame)
    (taxonomy : Taxonomy) (params : SegmentationParams) : List Segment :=
  segmentsFrom lowercase taxonomy params.gapCloseMs [] (sortByKey timeKey frames)

/-! ## Consolidation -/

/-- Whether one context of the gap is present, first to last, for `minLenMs`. -/
def gapHasSustainedInterrupter (order : HashOrder) (gap : List Segment) (minLenMs : Int) : Bool :=
  let spans : HashMap (Int × Int) := gap.foldl (fun spans segment =>
    let entry := (spans.lookup segment.key).getD (segment.firstTs, segment.lastTs)
    spans.insert segment.key (min entry.1 segment.firstTs, max entry.2 segment.lastTs)) ∅
  (order.entries spans).any fun entry => decide (minLenMs ≤ entry.2.2 - entry.2.1)

/-- What the growth loop of one micro span carries. -/
structure Growth where
  consumed : List Bool
  frameIds : List Int
  lastTs : Int
  lastSegment : Nat
  deriving DecidableEq, Repr

def findNext (segments : List Segment) (key : String) (start : Nat) : Option Nat :=
  (List.range' start (segments.length - start)).find? fun index =>
    segments[index]?.any fun segment => segment.key == key

def markConsumed (consumed : List Bool) (first last : Nat) : List Bool :=
  consumed.mapIdx fun index flag => flag || (decide (first ≤ index) && decide (index ≤ last))

/-- `segments[first..last]` of the source, `last` excluded. -/
def slice (segments : List Segment) (first last : Nat) : List Segment :=
  (segments.drop first).take (last - first)

/-- The growth loop. Every iteration moves `lastSegment` forward, so `fuel` as
large as the list never runs out. -/
def growLoop (order : HashOrder) (segments : List Segment) (params : SegmentationParams)
    (key : String) : Nat → Growth → Growth
  | 0, g => g
  | fuel + 1, g =>
    match findNext segments key (g.lastSegment + 1) with
    | none => g
    | some next =>
      match segments[next]?, segments[g.lastSegment]? with
      | some nextSegment, some lastSegment =>
        let elapsed := nextSegment.firstTs - lastSegment.lastTs
        if params.gapCloseMs ≤ elapsed ∨
            gapHasSustainedInterrupter order (slice segments (g.lastSegment + 1) next)
              params.minLenMs then g
        else
          growLoop order segments params key fuel
            { consumed := markConsumed g.consumed (g.lastSegment + 1) next
              frameIds := g.frameIds ++
                (slice segments (g.lastSegment + 1) (next + 1)).flatMap Segment.frameIds
              lastTs := nextSegment.lastTs
              lastSegment := next }
      | _, _ => g

/-- One iteration of the outer loop. -/
def consolidateAt (order : HashOrder) (segments : List Segment) (params : SegmentationParams)
    (state : List Bool × List MicroSpan) (start : Nat) : List Bool × List MicroSpan :=
  match segments[start]?, state.1[start]? with
  | some segment, some false =>
    let g := growLoop order segments params segment.key segments.length
      { consumed := markConsumed state.1 start start
        frameIds := segment.frameIds
        lastTs := segment.lastTs
        lastSegment := start }
    (g.consumed, state.2 ++
      [{ key := segment.key
         recognition := segment.recognition
         firstTs := segment.firstTs
         lastTs := g.lastTs
         firstId := segment.firstId
         frameIds := g.frameIds }])
  | _, _ => state

def consolidate (order : HashOrder) (segments : List Segment) (params : SegmentationParams) :
    List MicroSpan :=
  ((List.range segments.length).foldl (consolidateAt order segments params)
    (List.replicate segments.length false, [])).2

/-- Micro spans are ordered by their first frame. -/
def MicroSpan.timeKey (span : MicroSpan) : Int ×ₗ Int := toLex (span.firstTs, span.firstId)

def segmentMicro (lowercase : String → String) (order : HashOrder)
    (frames : List SegmenterFrame) (taxonomy : Taxonomy) (params : SegmentationParams) :
    List MicroSpan :=
  sortByKey MicroSpan.timeKey
    (consolidate order (segmentsOf lowercase frames taxonomy params) params)

/-! ## Consolidation by recursion -/

/-- What a run has taken, and the segments it leaves. -/
structure Run where
  lastTs : Int
  frameIds : List Int
  rest : List Segment
  deriving DecidableEq, Repr

/-- Grow a run of `key` over the segments that follow it; `gap` is what has been
seen since its last segment. -/
def growRun (order : HashOrder) (params : SegmentationParams) (key : String) (lastTs : Int)
    (frameIds : List Int) : List Segment → List Segment → Run
  | gap, [] => { lastTs := lastTs, frameIds := frameIds, rest := gap }
  | gap, segment :: rest =>
    if segment.key = key then
      if params.gapCloseMs ≤ segment.firstTs - lastTs ∨
          gapHasSustainedInterrupter order gap params.minLenMs then
        { lastTs := lastTs, frameIds := frameIds, rest := gap ++ segment :: rest }
      else
        growRun order params key segment.lastTs
          (frameIds ++ (gap ++ [segment]).flatMap Segment.frameIds) [] rest
    else growRun order params key lastTs frameIds (gap ++ [segment]) rest

/-- A run takes a block of the segments in front of it and leaves the rest. -/
theorem growRun_taken (order : HashOrder) (params : SegmentationParams) (key : String)
    (lastTs : Int) (frameIds : List Int) (gap rest : List Segment) :
    ∃ taken, gap ++ rest = taken ++ (growRun order params key lastTs frameIds gap rest).rest ∧
      (growRun order params key lastTs frameIds gap rest).frameIds =
        frameIds ++ taken.flatMap Segment.frameIds ∧
      (growRun order params key lastTs frameIds gap rest).lastTs =
        (taken.getLast?.map Segment.lastTs).getD lastTs := by
  induction rest generalizing lastTs frameIds gap with
  | nil => exact ⟨[], by simp [growRun]⟩
  | cons segment rest ih =>
    rw [growRun]
    split
    · split
      · exact ⟨[], by simp⟩
      · obtain ⟨taken, hsplit, hids, hlast⟩ := ih segment.lastTs
          (frameIds ++ (gap ++ [segment]).flatMap Segment.frameIds) []
        refine ⟨gap ++ segment :: taken, ?_, ?_, ?_⟩
        · rw [List.nil_append] at hsplit
          rw [List.append_assoc, List.cons_append, ← hsplit]
        · rw [hids]
          simp
        · rw [hlast, List.getLast?_append, List.getLast?_cons]
          cases taken.getLast? <;> rfl
    · obtain ⟨taken, hsplit, hids, hlast⟩ := ih lastTs frameIds (gap ++ [segment])
      exact ⟨taken, by simpa using hsplit, hids, hlast⟩

/-- The micro span a run of the first segment becomes. -/
def Segment.toMicro (segment : Segment) (run : Run) : MicroSpan where
  key := segment.key
  recognition := segment.recognition
  firstTs := segment.firstTs
  lastTs := run.lastTs
  firstId := segment.firstId
  frameIds := run.frameIds

/-- The run that starts at `segment`. -/
def runFrom (order : HashOrder) (params : SegmentationParams) (segment : Segment)
    (rest : List Segment) : Run :=
  growRun order params segment.key segment.lastTs segment.frameIds [] rest

def microRuns (order : HashOrder) (params : SegmentationParams) : List Segment → List MicroSpan
  | [] => []
  | segment :: rest =>
    segment.toMicro (runFrom order params segment rest) ::
      microRuns order params (runFrom order params segment rest).rest
termination_by segments => segments.length
decreasing_by
  obtain ⟨taken, hsplit, -⟩ :=
    growRun_taken order params segment.key segment.lastTs segment.frameIds [] rest
  have hlen := congrArg List.length hsplit
  simp only [List.nil_append, List.length_append, List.length_cons, runFrom] at *
  omega

/-- Without a later segment of its key a run ends where it is. -/
theorem growRun_of_forall_ne {order : HashOrder} {params : SegmentationParams} {key : String}
    {rest : List Segment} (h : ∀ segment ∈ rest, segment.key ≠ key) (lastTs : Int)
    (frameIds : List Int) (gap : List Segment) :
    growRun order params key lastTs frameIds gap rest =
      { lastTs := lastTs, frameIds := frameIds, rest := gap ++ rest } := by
  induction rest generalizing gap with
  | nil => simp [growRun]
  | cons segment rest ih =>
    have hne : segment.key ≠ key := h segment (List.mem_cons_self ..)
    rw [growRun, if_neg hne, ih fun s hs => h s (List.mem_cons_of_mem _ hs)]
    simp

/-- The next segment of the key decides whether the run goes on. -/
theorem growRun_split {order : HashOrder} {params : SegmentationParams} {key : String}
    {pre : List Segment} {segment : Segment} {post : List Segment}
    (hpre : ∀ s ∈ pre, s.key ≠ key) (hkey : segment.key = key) (lastTs : Int)
    (frameIds : List Int) (gap : List Segment) :
    growRun order params key lastTs frameIds gap (pre ++ segment :: post) =
      if params.gapCloseMs ≤ segment.firstTs - lastTs ∨
          gapHasSustainedInterrupter order (gap ++ pre) params.minLenMs then
        { lastTs := lastTs, frameIds := frameIds, rest := gap ++ pre ++ segment :: post }
      else
        growRun order params key segment.lastTs
          (frameIds ++ (gap ++ pre ++ [segment]).flatMap Segment.frameIds) [] post := by
  induction pre generalizing gap with
  | nil => simp [growRun, hkey]
  | cons s pre ih =>
    have hne : s.key ≠ key := hpre s (List.mem_cons_self ..)
    rw [List.cons_append, growRun, if_neg hne, ih fun x hx => hpre x (List.mem_cons_of_mem _ hx)]
    simp

/-! ## The index loop computes the recursion -/

/-- Exactly the first `count` of `total` segments are consumed. -/
def ConsumedUpTo (total count : Nat) (consumed : List Bool) : Prop :=
  ∀ index, consumed[index]? = if index < total then some (decide (index < count)) else none

theorem consumedUpTo_mark {total count last : Nat} {consumed : List Bool}
    (h : ConsumedUpTo total count consumed) (hcount : count ≤ last + 1) :
    ConsumedUpTo total (last + 1) (markConsumed consumed count last) := by
  intro index
  rw [markConsumed, List.getElem?_mapIdx, h index]
  split
  · rw [Option.map_some, Option.some.injEq, Bool.eq_iff_iff]
    simp only [Bool.or_eq_true, Bool.and_eq_true, decide_eq_true_eq]
    omega
  · rfl

theorem findNext_eq_none {segments : List Segment} {key : String} {start : Nat}
    (h : findNext segments key start = none) :
    ∀ segment ∈ segments.drop start, segment.key ≠ key := by
  intro segment hmem hkey
  obtain ⟨i, hi, rfl⟩ := List.mem_iff_getElem.mp hmem
  simp only [List.length_drop] at hi
  rw [findNext, List.find?_eq_none] at h
  have hin : start + i ∈ List.range' start (segments.length - start) := by
    simp only [List.mem_range'_1]
    omega
  refine h (start + i) hin ?_
  rw [List.getElem_drop] at hkey
  simp [List.getElem?_eq_getElem (show start + i < segments.length by omega), hkey]

theorem findNext_eq_some {segments : List Segment} {key : String} {start next : Nat}
    (h : findNext segments key start = some next) :
    ∃ segment, segments[next]? = some segment ∧ segment.key = key ∧ start ≤ next ∧
      next < segments.length ∧
      segments.drop start = slice segments start next ++ segment :: segments.drop (next + 1) ∧
      ∀ s ∈ slice segments start next, s.key ≠ key := by
  rw [findNext, List.find?_range'_eq_some] at h
  obtain ⟨hp, hmem, hbefore⟩ := h
  rw [List.mem_range'_1] at hmem
  have hlt : next < segments.length := by omega
  have hget : segments[next]? = some segments[next] := List.getElem?_eq_getElem hlt
  refine ⟨segments[next], hget, ?_, hmem.1, hlt, ?_, ?_⟩
  · simpa [hget] using hp
  · have hsplit := List.take_append_drop (next - start) (segments.drop start)
    rw [List.drop_drop, show start + (next - start) = next by omega,
      List.drop_eq_getElem_cons hlt] at hsplit
    exact hsplit.symm
  · intro s hs hkey
    obtain ⟨i, hi, rfl⟩ := List.mem_iff_getElem.mp hs
    simp only [slice, List.length_take, List.length_drop] at hi
    have hi' : start + i < segments.length := by omega
    have hnot := hbefore (start + i) (by omega) (by omega)
    simp only [slice, List.getElem_take, List.getElem_drop] at hkey
    simp [List.getElem?_eq_getElem hi', hkey] at hnot

/-- The growth loop takes the segments `growRun` takes and stops where it
stops. -/
theorem growLoop_eq_growRun (order : HashOrder) (segments : List Segment)
    (params : SegmentationParams) (key : String) (fuel : Nat) (g : Growth) (last : Segment)
    (hfuel : segments.length ≤ fuel + g.lastSegment + 1)
    (hlast : segments[g.lastSegment]? = some last) (hts : g.lastTs = last.lastTs)
    (hflags : ConsumedUpTo segments.length (g.lastSegment + 1) g.consumed) :
    ∃ final < segments.length, g.lastSegment ≤ final ∧
      ConsumedUpTo segments.length (final + 1)
        (growLoop order segments params key fuel g).consumed ∧
      { lastTs := (growLoop order segments params key fuel g).lastTs
        frameIds := (growLoop order segments params key fuel g).frameIds
        rest := segments.drop (final + 1) : Run } =
      growRun order params key g.lastTs g.frameIds [] (segments.drop (g.lastSegment + 1)) := by
  have hlt : g.lastSegment < segments.length := (List.getElem?_eq_some_iff.mp hlast).1
  induction fuel generalizing g last with
  | zero =>
    -- the run has reached the end of the list
    have hdrop : segments.drop (g.lastSegment + 1) = [] :=
      List.drop_eq_nil_of_le (by omega)
    refine ⟨g.lastSegment, hlt, le_rfl, hflags, ?_⟩
    rw [hdrop]
    rfl
  | succ fuel ih =>
    rw [growLoop]
    cases hnext : findNext segments key (g.lastSegment + 1) with
    | none =>
      refine ⟨g.lastSegment, hlt, le_rfl, hflags, ?_⟩
      rw [growRun_of_forall_ne (findNext_eq_none hnext)]
      rfl
    | some next =>
      obtain ⟨segment, hget, hkey, hle, hnlt, hsplit, hgap⟩ := findNext_eq_some hnext
      simp only [hget, hlast]
      rw [hsplit, growRun_split hgap hkey, List.nil_append, ← hts]
      split
      · refine ⟨g.lastSegment, hlt, le_rfl, hflags, ?_⟩
        rw [hsplit]
      · obtain ⟨final, hfinal, hge, hmarked, hrun⟩ := ih
          { consumed := markConsumed g.consumed (g.lastSegment + 1) next
            frameIds := g.frameIds ++
              (slice segments (g.lastSegment + 1) (next + 1)).flatMap Segment.frameIds
            lastTs := segment.lastTs
            lastSegment := next } segment
          (by simp only; omega) hget rfl (consumedUpTo_mark hflags (Nat.le_succ_of_le hle)) hnlt
        refine ⟨final, hfinal, by simp only at hge; omega, hmarked, ?_⟩
        rw [hrun]
        have hslice : slice segments (g.lastSegment + 1) (next + 1) =
            slice segments (g.lastSegment + 1) next ++ [segment] := by
          have hlen : next - (g.lastSegment + 1) <
              (segments.drop (g.lastSegment + 1)).length := by
            simp only [List.length_drop]
            omega
          rw [slice, slice, show next + 1 - (g.lastSegment + 1) =
            next - (g.lastSegment + 1) + 1 by omega, List.take_succ_eq_append_getElem hlen,
            List.getElem_drop]
          obtain ⟨_, hval⟩ := List.getElem?_eq_some_iff.mp hget
          simp only [show g.lastSegment + 1 + (next - (g.lastSegment + 1)) = next by omega, hval]
        rw [hslice]

/-- Once the loop has processed everything before `start` and consumed the first
`count` segments, it adds the runs of the rest. -/
theorem foldl_consolidateAt {order : HashOrder} {segments : List Segment}
    {params : SegmentationParams} (remaining : Nat) {start count : Nat} {consumed : List Bool}
    (micros : List MicroSpan) (htotal : start + remaining = segments.length)
    (hcount : start ≤ count) (hle : count ≤ segments.length)
    (hflags : ConsumedUpTo segments.length count consumed) :
    ((List.range' start remaining).foldl (consolidateAt order segments params)
      (consumed, micros)).2 = micros ++ microRuns order params (segments.drop count) := by
  induction remaining generalizing start count consumed micros with
  | zero =>
    rw [show count = segments.length by omega, List.drop_length, microRuns]
    simp
  | succ remaining ih =>
    rw [List.range'_succ, List.foldl_cons]
    have hstart : start < segments.length := by omega
    have hget : segments[start]? = some segments[start] := List.getElem?_eq_getElem hstart
    by_cases hskip : start < count
    · -- the segment was swallowed by an earlier run
      have hflag : consumed[start]? = some true := by simp [hflags start, hstart, hskip]
      have hstep : consolidateAt order segments params (consumed, micros) start =
          (consumed, micros) := by simp [consolidateAt, hget, hflag]
      rw [hstep]
      exact ih micros (by omega) (by omega) hle hflags
    · obtain rfl : start = count := by omega
      have hflag : consumed[start]? = some false := by simp [hflags start, hstart]
      obtain ⟨final, hfinal, hge, hmarked, hrun⟩ :=
        growLoop_eq_growRun order segments params segments[start].key segments.length
          { consumed := markConsumed consumed start start
            frameIds := segments[start].frameIds
            lastTs := segments[start].lastTs
            lastSegment := start } segments[start]
          (by simp only; omega) hget rfl (consumedUpTo_mark hflags (Nat.le_succ start))
      simp only at hge hrun
      have hstep : consolidateAt order segments params (consumed, micros) start =
          ((growLoop order segments params segments[start].key segments.length
              { consumed := markConsumed consumed start start
                frameIds := segments[start].frameIds
                lastTs := segments[start].lastTs
                lastSegment := start }).consumed,
            micros ++ [segments[start].toMicro
              (runFrom order params segments[start] (segments.drop (start + 1)))]) := by
        simp [consolidateAt, hget, hflag, Segment.toMicro, runFrom, ← hrun]
      rw [hstep, ih _ (by omega) (show start + 1 ≤ final + 1 by omega) (by omega) hmarked,
        List.drop_eq_getElem_cons hstart, microRuns, List.append_assoc, List.singleton_append]
      rw [show (runFrom order params segments[start] (segments.drop (start + 1))).rest =
        segments.drop (final + 1) by rw [runFrom, ← hrun]]

/-- The index loop with its `consumed` flags computes the runs. -/
theorem consolidate_eq_microRuns (order : HashOrder) (segments : List Segment)
    (params : SegmentationParams) :
    consolidate order segments params = microRuns order params segments := by
  have hflags : ConsumedUpTo segments.length 0 (List.replicate segments.length false) := by
    intro index
    simp [List.getElem?_replicate]
  rw [consolidate, List.range_eq_range']
  exact foldl_consolidateAt segments.length [] (by omega) (by omega) (by omega) hflags

/-! ## Frames through pass one -/

/-- Consolidation keeps the frames and their order. -/
theorem microRuns_frameIds (order : HashOrder) (params : SegmentationParams)
    (segments : List Segment) :
    (microRuns order params segments).flatMap MicroSpan.frameIds =
      segments.flatMap Segment.frameIds := by
  induction segments using microRuns.induct order params with
  | case1 => simp [microRuns]
  | case2 segment rest ih =>
    obtain ⟨taken, hsplit, hids, -⟩ :=
      growRun_taken order params segment.key segment.lastTs segment.frameIds [] rest
    rw [List.nil_append] at hsplit
    rw [microRuns, List.flatMap_cons, ih, Segment.toMicro]
    simp only [runFrom]
    rw [hids, List.append_assoc, ← List.flatMap_append, ← hsplit, List.flatMap_cons]

/-- The ids of the frames that have a context, in time order. -/
def keyedIds (lowercase : String → String) (frames : List SegmenterFrame)
    (taxonomy : Taxonomy) : List Int :=
  ((sortByKey timeKey frames).filter fun frame =>
    (contextOf lowercase frame taxonomy).isSome).map SegmenterFrame.id

theorem pushFrame_frameIds (gapCloseMs : Int) (segments : List Segment) (key : String)
    (recognition : Option Recognized) (frame : SegmenterFrame) :
    (pushFrame gapCloseMs segments key recognition frame).flatMap Segment.frameIds =
      segments.flatMap Segment.frameIds ++ [frame.id] := by
  rw [pushFrame]
  split
  · rename_i segment hlast
    have hsegments : segments = segments.dropLast ++ [segment] :=
      (List.dropLast_append_getLast? segment hlast).symm
    split
    · conv_rhs => rw [hsegments]
      simp [Segment.push]
    · simp [Segment.ofFrame]
  · simp [Segment.ofFrame]

theorem segmentsOf_frameIds (lowercase : String → String) (frames : List SegmenterFrame)
    (taxonomy : Taxonomy) (params : SegmentationParams) :
    (segmentsOf lowercase frames taxonomy params).flatMap Segment.frameIds =
      keyedIds lowercase frames taxonomy := by
  suffices h : ∀ (ordered : List SegmenterFrame) (segments : List Segment),
      (segmentsFrom lowercase taxonomy params.gapCloseMs segments ordered).flatMap
          Segment.frameIds =
        segments.flatMap Segment.frameIds ++ (ordered.filter fun frame =>
          (contextOf lowercase frame taxonomy).isSome).map SegmenterFrame.id by
    simpa [segmentsOf, keyedIds] using h (sortByKey timeKey frames) []
  intro ordered
  induction ordered with
  | nil => simp [segmentsFrom]
  | cons frame ordered ih =>
    intro segments
    rw [segmentsFrom, List.foldl_cons, ← segmentsFrom, ih]
    cases hctx : contextOf lowercase frame taxonomy with
    | none => simp [hctx]
    | some ctx => simp [hctx, pushFrame_frameIds]

/-- Every keyed frame is in exactly one micro span, as often as it is among the
frames. -/
theorem segmentMicro_frameIds_perm (lowercase : String → String) (order : HashOrder)
    (frames : List SegmenterFrame) (taxonomy : Taxonomy) (params : SegmentationParams) :
    ((segmentMicro lowercase order frames taxonomy params).flatMap MicroSpan.frameIds).Perm
      (keyedIds lowercase frames taxonomy) := by
  rw [← segmentsOf_frameIds lowercase frames taxonomy params,
    ← microRuns_frameIds order params, ← consolidate_eq_microRuns]
  exact (sortByKey_perm _ _).flatMap_right _

end ScreenSearch.Sessions
