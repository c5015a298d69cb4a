import Mathlib.Algebra.GroupWithZero.Nat
import ScreenSearch.Store.Timeline

/-!
# The coverage of a report

A report covers its range bucket by bucket: the frames are counted by bucket, every bucket gets a
quota, and so many of its frames are sampled. A session's recap does the same over the frames that
the session owns, without the database.

Main results:

* `sampleSessionBucket_picked` — a bucket's sample runs from its first frame to its last;
* `sessionBuckets_law` — a session's buckets count what the timeline's would;
* `planDepth_quotas` — a quota is no more than the count, and less than three only with it;
* `samplers_even`, `coverage_agrees` — the samplers, and buckets and samples together.
-/

namespace ScreenSearch.Kernel

open Buckets Spread Store

def minFramesPerPeriod : Nat := 3

structure EvidenceFrame where
  frameId : Int
  capturedAt : Int
  deriving DecidableEq, Repr

def evidence (frame : SegmenterFrame) : EvidenceFrame where
  frameId := frame.id
  capturedAt := frame.capturedAt

/-- Saturating arithmetic of an `i64`. -/
def clampI64 (n : Int) : Int := min (max n (-(i64Max : Int) - 1)) i64Max

/-- From the first frame to just behind the last one; a session without frames has its own times. -/
def sessionWindow (session : Session) (frames : List SegmenterFrame) : Int × Int :=
  let start := (frames.head?.map SegmenterFrame.capturedAt).getD session.startedAt
  let stop := ((frames.getLast?.map fun frame => clampI64 (frame.capturedAt + 1)).or
    (session.endedAt.map fun ended => clampI64 (ended + 1))).getD (clampI64 (session.startedAt + 1))
  (start, max stop (clampI64 (start + 1)))

def sessionBuckets (frames : List SegmenterFrame) (start stop : Int) (bucketCount : Nat) :
    List TimelineBucket :=
  if frames.isEmpty ∨ stop ≤ start ∨ bucketCount = 0 then []
  else if (i64Max : Int) < stop - start then []
  else
    let width := bucketWidth (stop - start) bucketCount
    let bucketOf := fun frame : SegmenterFrame =>
      min (max ((clampI64 (frame.capturedAt - start)).tdiv width) 0) (bucketCount - 1)
    (tally u32Max (frames.map bucketOf)).map fun (b, count) =>
      let bucketStart := clampI64 (start + clampI64 (b * width))
      { start := bucketStart, stop := min (clampI64 (bucketStart + width)) stop, count }

def framesInBucket (frames : List SegmenterFrame) (start stop : Int) : List SegmenterFrame :=
  frames.filter fun frame => decide (start ≤ frame.capturedAt) && decide (frame.capturedAt < stop)

def sampleSessionBucket (frames : List SegmenterFrame) (start stop : Int) (limit : Nat) :
    List EvidenceFrame :=
  if limit = 0 then []
  else
    let inBucket := framesInBucket frames start stop
    let wanted := min limit inBucket.length
    if wanted = 0 then []
    else if wanted = 1 then (inBucket.take 1).map evidence
    else (List.range wanted).filterMap fun index =>
      inBucket[index * (inBucket.length - 1) / (wanted - 1)]?.map evidence

/-- `as u32` wraps, and the product saturates. -/
def planDepth (periodCounts : List Nat) (dailyTopK weeklyTopK : Nat) : List Nat :=
  let a := periodCounts.length % 2 ^ 32
  if a = 0 then []
  else
    let perPeriod :=
      if min (dailyTopK * a) u32Max ≤ weeklyTopK then dailyTopK
      else max (weeklyTopK / a) minFramesPerPeriod
    let target := max (max perPeriod minFramesPerPeriod) 1
    periodCounts.map fun count => min target count

/-! ## Quotas -/

theorem planDepth_quotas {periodCounts : List Nat} (h : periodCounts.length ≤ u32Max)
    (dailyTopK weeklyTopK : Nat) :
    List.Forall₂ (fun count quota => min minFramesPerPeriod count ≤ quota ∧ quota ≤ count)
      periodCounts (planDepth periodCounts dailyTopK weeklyTopK) := by
  rw [planDepth, Nat.mod_eq_of_lt (show _ < 2 ^ 32 from Nat.lt_succ_of_le h)]
  dsimp only
  split
  · next hNone =>
    rw [List.eq_nil_of_length_eq_zero hNone]
    exact .nil
  · generalize (if min (dailyTopK * periodCounts.length) u32Max ≤ weeklyTopK then dailyTopK
      else max (weeklyTopK / periodCounts.length) minFramesPerPeriod) = perPeriod
    rw [List.forall₂_map_right_iff, List.forall₂_same]
    intro count _
    omega

/-! ## Samples -/

/-- A bucket's sample, by rank. -/
theorem sampleSessionBucket_picked (frames : List SegmenterFrame) (start stop : Int)
    (limit : Nat) :
    let rows := framesInBucket frames start stop
    Picked (rows.map evidence) (endpoints rows.length (min rows.length limit))
      (sampleSessionBucket frames start stop limit) := by
  dsimp only [sampleSessionBucket]
  generalize framesInBucket frames start stop = rows
  rw [Nat.min_comm limit]
  split
  · next hNone =>
    rw [hNone, Nat.min_zero]
    rfl
  · split
    · next hEmpty =>
      rw [hEmpty]
      rfl
    · next hSome =>
      split
      · next hOne =>
        rw [hOne]
        cases rows with
        | nil => exact absurd (Nat.zero_min limit) hSome
        | cons row rows =>
          unfold Picked endpoints
          simp
      · have hIn : ∀ r ∈ endpoints rows.length (min rows.length limit),
            r < (rows.map evidence).length := by
          intro r hr
          rw [List.length_map]
          exact lt_of_mem_endpoints (by omega) hr
        have hPicked := picked_filterMap hIn
        rw [endpoints, List.filterMap_map, ← endpoints] at hPicked
        refine Eq.trans (congrArg (List.map some) (List.filterMap_congr fun index _ => ?_)) hPicked
        rw [Function.comp_apply, List.getElem?_map]

/-- The sample runs from the first to the last of the rows, evenly, and has no more than `limit`. -/
def EndToEnd {α : Type} (rows sample : List α) (limit : Nat) : Prop :=
  ∃ ranks : List Nat, Picked rows ranks sample ∧ ranks.length = min rows.length limit ∧
    ranks.Pairwise (· < ·) ∧ (0 < min rows.length limit → ranks.head? = some 0) ∧
    (2 ≤ limit → rows ≠ [] → ranks.getLast? = some (rows.length - 1))

/-- The sample has one of the rows of each even range of ranks, in order, and the first row. -/
def OneOfEach {α : Type} (rows sample : List α) (limit : Nat) : Prop :=
  ∃ ranks : List Nat, Picked rows ranks sample ∧ ranks.length = min rows.length limit ∧
    ranks.Pairwise (· < ·) ∧ (0 < min rows.length limit → ranks.head? = some 0) ∧
    ranks.map (range (min rows.length limit) rows.length) = List.range (min rows.length limit)

theorem endToEnd_of_picked {α : Type} {rows sample : List α} {limit : Nat}
    (h : Picked rows (endpoints rows.length (min rows.length limit)) sample) :
    EndToEnd rows sample limit := by
  refine ⟨_, h, endpoints_length _ _, endpoints_pairwise (Nat.min_le_left _ _), endpoints_head,
    fun hLimit hRows => ?_⟩
  have hPos := List.length_pos_iff.mpr hRows
  rcases Nat.lt_or_ge (min rows.length limit) 2 with hOne | hSeveral
  · -- a single row is the first and the last
    rw [show min rows.length limit = 1 by omega, show rows.length = 1 by omega]
    rfl
  · exact endpoints_last hSeveral

theorem sampleFramesInRange_none (start stop : Int) (db : Tables) :
    sampleFramesInRange start stop 0 db = [] := by
  rw [sampleFramesInRange, if_pos (.inr rfl)]

theorem oneOfEach_sample (start stop : Int) (limit : Nat) (db : Tables) :
    OneOfEach (framesMetaInRange start stop db) (sampleFramesInRange start stop limit db)
      limit := by
  rcases Nat.eq_zero_or_pos limit with rfl | hLimit
  · rw [sampleFramesInRange_none]
    unfold OneOfEach
    rw [Nat.min_zero]
    exact ⟨[], rfl, rfl, List.Pairwise.nil, fun h => absurd h (Nat.lt_irrefl 0), rfl⟩
  · refine ⟨_, sampleFramesInRange_picked start stop db hLimit, evenFirsts_length hLimit,
      firsts_pairwise _ _, fun hPos => evenFirsts_head (by omega), evenFirsts_ranges hLimit⟩

/-- **The samplers.** A window's sample has one frame of each even range of ranks, with the first
frame. The samples of a session and of a bucket run from the first frame to the last one; a
session's has 24 frames at most. -/
theorem samplers_even (db : SessionDb) :
    (∀ (start stop : Int) (limit : Nat),
      let sample := sampleFramesInRange start stop limit db.tables
      OneOfEach (framesMetaInRange start stop db.tables) sample limit ∧ sample.Pairwise Earlier) ∧
    (∀ (sessionId : Int) (limit : Nat),
      let sample := (sessionFrameSample sessionId limit db.tables).frames
      EndToEnd (sessionFramesMeta sessionId db.tables) sample (min limit maxSessionFrameSample) ∧
        sample.Pairwise Earlier) ∧
    ∀ (frames : List SegmenterFrame) (start stop : Int) (limit : Nat),
      EndToEnd ((framesInBucket frames start stop).map evidence)
        (sampleSessionBucket frames start stop limit) limit := by
  refine ⟨fun start stop limit => ?_, fun sessionId limit => ?_, fun frames start stop limit => ?_⟩
  · have hEven := oneOfEach_sample start stop limit db.tables
    have ⟨ranks, hPicked, _, hRanks, _⟩ := hEven
    exact ⟨hEven, hPicked.pairwise hRanks (framesMetaInRange_sorted start stop db.wellFormed)⟩
  · have hPicked := sessionFrameSample_picked sessionId limit db.tables
    exact ⟨endToEnd_of_picked hPicked, hPicked.pairwise (endpoints_pairwise (Nat.min_le_left _ _))
      (sessionFramesMeta_sorted sessionId db.wellFormed)⟩
  · have hPicked := sampleSessionBucket_picked frames start stop limit
    refine endToEnd_of_picked ?_
    rw [List.length_map]
    exact hPicked

def plainFrame (id capturedAt : Int) : SegmenterFrame where
  id
  capturedAt
  appHint := none
  windowTitle := none
  browserUrl := none

/-- A session of 25 frames. -/
def longSession : Tables where
  frames := (List.range 25).map fun (i : Nat) => { frame := plainFrame i i, sessionId := some 1 }
  sessions := [{
    id := 1
    startedAt := 0
    endedAt := some 24
    kind := .focus
    tool := none
    host := none
    contextKey := "editor"
    title := none
    summary := none
    summaryModel := none
    confidence := 1
    frozen := true
    createdAt := 0
    updatedAt := 0 }]
  artifacts := []

/-- It is not sampled whole, though that was asked for. -/
theorem session_sample_capped :
    ¬EndToEnd (sessionFramesMeta 1 longSession) (sessionFrameSample 1 25 longSession).frames
      25 := by
  rintro ⟨ranks, hPicked, hLength, -⟩
  have hSample := hPicked.length
  rw [hLength] at hSample
  exact absurd hSample (by decide +kernel)

/-! ## A session's buckets -/

theorem clampI64_of_mem {n : Int} (hLow : -(i64Max : Int) - 1 ≤ n) (hHigh : n ≤ i64Max) :
    clampI64 n = n := by
  rw [clampI64, max_eq_left hLow, min_eq_left hHigh]

theorem Earlier.le {a b : SegmenterFrame} (h : Earlier a b) : a.capturedAt ≤ b.capturedAt := by
  rw [Earlier, Sessions.timeKey, Sessions.timeKey, Prod.Lex.toLex_lt_toLex] at h
  rcases h with h | ⟨h, -⟩
  · exact le_of_lt h
  · exact le_of_eq h

/-- The recap's window holds the session's frames, as long as their times have a successor. -/
theorem sessionWindow_holds {session : Session} {frames : List SegmenterFrame}
    (hSorted : frames.Pairwise Earlier)
    (hTimes : ∀ frame ∈ frames,
      -(i64Max : Int) - 1 ≤ frame.capturedAt ∧ frame.capturedAt < i64Max) :
    ∀ frame ∈ frames, (sessionWindow session frames).1 ≤ frame.capturedAt ∧
      frame.capturedAt < (sessionWindow session frames).2 := by
  intro frame hFrame
  rcases List.eq_nil_or_concat' frames with rfl | ⟨front, last, rfl⟩
  · cases hFrame
  · have hLast : frame.capturedAt ≤ last.capturedAt := by
      rcases List.mem_append.mp hFrame with hFront | hHere
      · exact Earlier.le ((List.pairwise_append.mp hSorted).2.2 frame hFront last
          (List.mem_singleton_self last))
      · rw [List.mem_singleton.mp hHere]
    obtain ⟨hLow, hHigh⟩ := hTimes last (List.mem_append_right _ (List.mem_singleton_self last))
    have hStop : (sessionWindow session (front ++ [last])).2 ≥ last.capturedAt + 1 := by
      rw [sessionWindow, List.getLast?_concat]
      show max (clampI64 (last.capturedAt + 1)) _ ≥ _
      rw [clampI64_of_mem (by omega) (by omega)]
      exact le_max_left _ _
    refine ⟨?_, by omega⟩
    rw [sessionWindow]
    generalize front ++ [last] = frames at hFrame hSorted ⊢
    cases frames with
    | nil => cases hFrame
    | cons first rest =>
      show first.capturedAt ≤ _
      rcases List.mem_cons.mp hFrame with rfl | hRest
      · exact le_refl _
      · exact Earlier.le ((List.pairwise_cons.mp hSorted).1 frame hRest)

theorem sessionBuckets_eq (window : Window) {bucketCount : Nat} (hCount : 0 < bucketCount)
    {frames : List SegmenterFrame}
    (hFrames : ∀ frame ∈ frames,
      window.start ≤ frame.capturedAt ∧ frame.capturedAt < window.stop) :
    sessionBuckets frames window.start window.stop bucketCount =
      bucketsOf (frames.map SegmenterFrame.capturedAt) window.start
        (bucketWidth (window.stop - window.start) bucketCount) window.stop := by
  have hOpens := window.opens
  have hSpan := window.span
  have hHigh := window.high
  have hLow := window.low
  have hWidth := bucketWidth_pos (window.stop - window.start) bucketCount
  have hSome : (0 : Int) < bucketCount := by omega
  have hCovers := bucketWidth_covers (window.stop - window.start) hSome
  rw [sessionBuckets]
  split
  · next hNone =>
    have hNil : frames = [] := by
      rcases hNone with hNil | hNone
      · exact List.isEmpty_iff.mp hNil
      · omega
    rw [hNil]
    rfl
  · rw [if_neg (by omega)]
    dsimp only
    generalize bucketWidth (window.stop - window.start) bucketCount = width at *
    -- inside the window no number is clamped
    have hNumbers : (frames.map fun frame =>
        min (max ((clampI64 (frame.capturedAt - window.start)).tdiv width) 0) (bucketCount - 1)) =
        (frames.map SegmenterFrame.capturedAt).map (slot window.start width) := by
      rw [List.map_map]
      refine List.map_congr_left fun frame hFrame => ?_
      obtain ⟨hStart, hStop⟩ := hFrames frame hFrame
      have hNonneg := slot_nonneg hWidth hStart
      have hLt := slot_lt hWidth hCovers hStop
      rw [Function.comp_apply, clampI64_of_mem (by omega) (by omega),
        Int.tdiv_eq_ediv_of_nonneg (by omega)]
      show min (max (slot _ _ _) 0) _ = slot _ _ _
      omega
    rw [hNumbers, tally_eq]
    unfold bucketsOf
    rw [List.map_map]
    refine List.map_congr_left fun b hb => ?_
    obtain ⟨t, ht, rfl⟩ := List.mem_map.mp (mem_keysOf.mp hb)
    obtain ⟨frame, hFrame, rfl⟩ := List.mem_map.mp ht
    obtain ⟨hStart, hStop⟩ := hFrames frame hFrame
    have hSlot := (slot_iff (b := slot window.start width frame.capturedAt) hWidth).mp rfl
    have hNonneg : 0 ≤ slot window.start width frame.capturedAt * width :=
      Int.mul_nonneg (slot_nonneg hWidth hStart) (Int.le_of_lt hWidth)
    rw [Function.comp_apply]
    dsimp only
    rw [bucketAt]
    generalize slot window.start width frame.capturedAt * width = offset at *
    rw [clampI64_of_mem (n := offset) (by omega) (by omega),
      clampI64_of_mem (n := window.start + offset) (by omega) (by omega)]
    congr 1
    rw [clampI64]
    omega

/-! ## Buckets and samples -/

/-- A sample that is large enough holds every frame of its bucket, and no sample holds a frame of
another bucket. -/
structure SamplesMatch (frames : List SegmenterFrame) (buckets : List TimelineBucket)
    (sample : TimelineBucket → Nat → List Int) : Prop where
  every : ∀ bucket ∈ buckets, ∀ quota,
    frames.countP (fun frame => bucket.holds frame.capturedAt) ≤ quota →
    ∀ frame ∈ frames, bucket.holds frame.capturedAt → frame.id ∈ sample bucket quota
  inside : ∀ bucket ∈ buckets, ∀ quota, ∀ id ∈ sample bucket quota,
    ∃ frame ∈ frames, frame.id = id ∧ bucket.holds frame.capturedAt
  apart : buckets.Pairwise fun a b => ∀ quota quota', (sample a quota).Disjoint (sample b quota')

theorem holds_iff {bucket : TimelineBucket} {t : Int} :
    bucket.holds t ↔ bucket.start ≤ t ∧ t < bucket.stop := by
  rw [TimelineBucket.holds, Bool.and_eq_true, decide_eq_true_eq, decide_eq_true_eq]

/-- Samples from inside their buckets are apart when the buckets are. -/
theorem samples_apart {frames : List SegmenterFrame} {buckets : List TimelineBucket}
    {sample : TimelineBucket → Nat → List Int} (hIds : (frames.map SegmenterFrame.id).Nodup)
    (hBuckets : buckets.Pairwise fun a b => a.stop ≤ b.start)
    (hInside : ∀ bucket ∈ buckets, ∀ quota, ∀ id ∈ sample bucket quota,
      ∃ frame ∈ frames, frame.id = id ∧ bucket.holds frame.capturedAt) :
    buckets.Pairwise fun a b => ∀ quota quota', (sample a quota).Disjoint (sample b quota') := by
  refine hBuckets.imp_of_mem fun {a b} ha hb hApart quota quota' id hId hId' => ?_
  obtain ⟨frame, hFrame, hEq, hHolds⟩ := hInside a ha quota id hId
  obtain ⟨frame', hFrame', hEq', hHolds'⟩ := hInside b hb quota' id hId'
  have hSame : frame = frame' :=
    List.inj_on_of_nodup_map hIds hFrame hFrame' (hEq.trans hEq'.symm)
  rw [hSame, holds_iff] at hHolds
  rw [holds_iff] at hHolds'
  omega

/-- **A window's buckets and samples.** -/
theorem timeline_samples (window : Window) {bucketCount : Nat} (hCount : 0 < bucketCount)
    {db : Tables} (h : db.WellFormed) :
    SamplesMatch (framesMetaInRange window.start window.stop db)
      (timelineBuckets window.start window.stop bucketCount db)
      fun bucket quota =>
        (sampleFramesInRange bucket.start bucket.stop quota db).map SegmenterFrame.id := by
  obtain ⟨hLaw, -, hInside⟩ := timelineBuckets_law window hCount db
  have hMem : ∀ bucket ∈ timelineBuckets window.start window.stop bucketCount db, ∀ frame,
      frame ∈ framesMetaInRange bucket.start bucket.stop db ↔
        frame ∈ (framesMetaInRange window.start window.stop db).filter
          fun frame => bucket.holds frame.capturedAt := by
    intro bucket hBucket frame
    obtain ⟨hStart, hStop⟩ := hInside bucket hBucket
    rw [List.mem_filter, mem_framesMetaInRange, mem_framesMetaInRange, holds_iff]
    constructor
    · rintro ⟨hRow, hLow, hHigh⟩
      exact ⟨⟨hRow, by omega, by omega⟩, hLow, hHigh⟩
    · rintro ⟨⟨hRow, -⟩, hLow, hHigh⟩
      exact ⟨hRow, hLow, hHigh⟩
  have hNodup : ∀ start stop, (framesMetaInRange start stop db).Nodup := fun start stop =>
    (framesMetaInRange_sorted start stop h).imp fun {a b} hLt hEq => by
      rw [hEq] at hLt
      exact lt_irrefl _ hLt
  have hSampled : ∀ start stop quota, ∀ frame ∈ sampleFramesInRange start stop quota db,
      frame ∈ framesMetaInRange start stop db := by
    intro start stop quota frame hFrame
    obtain ⟨ranks, hPicked, -⟩ := oneOfEach_sample start stop quota db
    exact hPicked.mem hFrame
  have hIn : ∀ bucket ∈ timelineBuckets window.start window.stop bucketCount db, ∀ quota,
      ∀ id ∈ (sampleFramesInRange bucket.start bucket.stop quota db).map SegmenterFrame.id,
      ∃ frame ∈ framesMetaInRange window.start window.stop db,
        frame.id = id ∧ bucket.holds frame.capturedAt := by
    intro bucket hBucket quota id hId
    obtain ⟨frame, hFrame, rfl⟩ := List.mem_map.mp hId
    have hRow := (hMem bucket hBucket frame).mp (hSampled _ _ _ frame hFrame)
    exact ⟨frame, (List.mem_filter.mp hRow).1, rfl, (List.mem_filter.mp hRow).2⟩
  refine ⟨fun bucket hBucket quota hQuota frame hFrame hHolds => ?_, hIn, ?_⟩
  · have hPerm : (framesMetaInRange bucket.start bucket.stop db).Perm
        ((framesMetaInRange window.start window.stop db).filter
          fun frame => bucket.holds frame.capturedAt) :=
      (List.perm_ext_iff_of_nodup (hNodup _ _) ((hNodup _ _).filter _)).mpr (hMem bucket hBucket)
    have hLength := hPerm.length_eq
    rw [← List.countP_eq_length_filter] at hLength
    have hRow := (hMem bucket hBucket frame).mpr (List.mem_filter.mpr ⟨hFrame, hHolds⟩)
    have hPos := List.length_pos_of_mem hRow
    have hQuota : 0 < quota := by omega
    have hPicked := sampleFramesInRange_picked bucket.start bucket.stop db hQuota
    rw [evenFirsts_all (by omega)] at hPicked
    rw [hPicked.eq_of_all]
    exact List.mem_map_of_mem hRow
  · refine samples_apart ?_ hLaw.apart hIn
    rw [framesMetaInRange, if_neg (by have := window.opens; omega)]
    have hIds : ((db.frames.map FrameRow.frame).map SegmenterFrame.id).Nodup := by
      rw [List.map_map]
      exact h.frameIds
    refine ((Sorting.sortByKey_perm _ _).map _).nodup_iff.mpr ?_
    exact hIds.sublist (List.filter_sublist.map _)

/-- **A session's buckets and samples.** -/
theorem session_samples (window : Window) {bucketCount : Nat} (hCount : 0 < bucketCount)
    {frames : List SegmenterFrame} (hIds : (frames.map SegmenterFrame.id).Nodup)
    (hFrames : ∀ frame ∈ frames,
      window.start ≤ frame.capturedAt ∧ frame.capturedAt < window.stop) :
    SamplesMatch frames (sessionBuckets frames window.start window.stop bucketCount)
      fun bucket quota =>
        (sampleSessionBucket frames bucket.start bucket.stop quota).map EvidenceFrame.frameId := by
  have hMem : ∀ (bucket : TimelineBucket) (frame : SegmenterFrame),
      frame ∈ framesInBucket frames bucket.start bucket.stop ↔
        frame ∈ frames ∧ bucket.holds frame.capturedAt := fun _ _ => List.mem_filter
  have hIn : ∀ bucket ∈ sessionBuckets frames window.start window.stop bucketCount, ∀ quota,
      ∀ id ∈ (sampleSessionBucket frames bucket.start bucket.stop quota).map
        EvidenceFrame.frameId,
      ∃ frame ∈ frames, frame.id = id ∧ bucket.holds frame.capturedAt := by
    intro bucket _ quota id hId
    obtain ⟨sampled, hSampled, rfl⟩ := List.mem_map.mp hId
    have hPicked := sampleSessionBucket_picked frames bucket.start bucket.stop quota
    obtain ⟨frame, hFrame, rfl⟩ := List.mem_map.mp (hPicked.mem hSampled)
    exact ⟨frame, ((hMem bucket frame).mp hFrame).1, rfl, ((hMem bucket frame).mp hFrame).2⟩
  refine ⟨fun bucket hBucket quota hQuota frame hFrame hHolds => ?_, hIn, ?_⟩
  · have hLength : (framesInBucket frames bucket.start bucket.stop).length ≤ quota := by
      rw [framesInBucket, ← List.countP_eq_length_filter]
      exact hQuota
    have hPicked := sampleSessionBucket_picked frames bucket.start bucket.stop quota
    dsimp only at hPicked
    rw [Nat.min_eq_left hLength, endpoints_self, ← List.length_map (f := evidence)] at hPicked
    rw [hPicked.eq_of_all, List.map_map]
    exact List.mem_map_of_mem (f := SegmenterFrame.id) ((hMem bucket frame).mpr ⟨hFrame, hHolds⟩)
  · refine samples_apart hIds ?_ hIn
    rw [sessionBuckets_eq window hCount hFrames]
    refine (bucketsOf_countsOnce (bucketWidth_pos _ _) fun t ht => ?_).apart
    obtain ⟨frame, hFrame, rfl⟩ := List.mem_map.mp ht
    exact (hFrames frame hFrame).2

/-- Every frame is counted in the one bucket it lies in, every bucket has a quota, and the samples
match the buckets. The counts are `u32`s that do not wrap. -/
structure Covers (frames : List SegmenterFrame) (buckets : List TimelineBucket)
    (sample : TimelineBucket → Nat → List Int) : Prop where
  counted : CountsOnce (frames.map SegmenterFrame.capturedAt) buckets
  sum : (∀ bucket ∈ buckets,
      frames.countP (fun frame => bucket.holds frame.capturedAt) ≤ u32Max) →
    (buckets.map TimelineBucket.count).sum = frames.length
  quotas : ∀ dailyTopK weeklyTopK,
    List.Forall₂ (fun count quota => min minFramesPerPeriod count ≤ quota ∧ quota ≤ count)
      (buckets.map TimelineBucket.count)
      (planDepth (buckets.map TimelineBucket.count) dailyTopK weeklyTopK)
  samples : SamplesMatch frames buckets sample

theorem covers_of_counted {frames : List SegmenterFrame} {buckets : List TimelineBucket}
    {sample : TimelineBucket → Nat → List Int}
    (hCounted : CountsOnce (frames.map SegmenterFrame.capturedAt) buckets)
    (hLength : buckets.length ≤ u32Max) (hSamples : SamplesMatch frames buckets sample) :
    Covers frames buckets sample where
  counted := hCounted
  sum hFits := by
    have hTotal := hCounted.total
    rw [List.length_map] at hTotal
    rw [← hTotal]
    refine congrArg List.sum (List.map_congr_left fun bucket hBucket => ?_)
    rw [hCounted.count bucket hBucket]
    refine min_eq_left ?_
    rw [List.countP_map]
    exact hFits bucket hBucket
  quotas dailyTopK weeklyTopK := by
    refine planDepth_quotas ?_ dailyTopK weeklyTopK
    rw [List.length_map]
    exact hLength
  samples := hSamples

/-- **Coverage.** Buckets, quotas and samples agree, for a window of the timeline and for the frames
of a session; and the window of a session's recap holds its frames. -/
theorem coverage_agrees (db : SessionDb) (window : Window) (bucketCount : Nat)
    (hCount : 0 < bucketCount) (hFits : bucketCount ≤ u32Max) :
    Covers (framesMetaInRange window.start window.stop db.tables)
      (timelineBuckets window.start window.stop bucketCount db.tables)
      (fun bucket quota =>
        (sampleFramesInRange bucket.start bucket.stop quota db.tables).map SegmenterFrame.id) ∧
    ∀ sessionId,
      let frames := sessionFramesMeta sessionId db.tables
      ((∀ frame ∈ frames, window.start ≤ frame.capturedAt ∧ frame.capturedAt < window.stop) →
        Covers frames (sessionBuckets frames window.start window.stop bucketCount)
          fun bucket quota => (sampleSessionBucket frames bucket.start bucket.stop quota).map
            EvidenceFrame.frameId) ∧
      ((∀ frame ∈ frames,
          -(i64Max : Int) - 1 ≤ frame.capturedAt ∧ frame.capturedAt < i64Max) →
        ∀ session, ∀ frame ∈ frames, (sessionWindow session frames).1 ≤ frame.capturedAt ∧
          frame.capturedAt < (sessionWindow session frames).2) := by
  obtain ⟨hLaw, hLength, -⟩ := timelineBuckets_law window hCount db.tables
  refine ⟨covers_of_counted hLaw (Nat.le_trans hLength hFits)
    (timeline_samples window hCount db.wellFormed), fun sessionId => ⟨fun hFrames => ?_, ?_⟩⟩
  · have hIds : ((sessionFramesMeta sessionId db.tables).map SegmenterFrame.id).Nodup := by
      refine ((Sorting.sortByKey_perm _ _).map _).nodup_iff.mpr ?_
      rw [List.map_map]
      exact db.wellFormed.frameIds.sublist (List.filter_sublist.map _)
    have hSamples := session_samples window hCount hIds hFrames
    have hTimes : ∀ t ∈ (sessionFramesMeta sessionId db.tables).map SegmenterFrame.capturedAt,
        window.start ≤ t ∧ t < window.stop := by
      intro t ht
      obtain ⟨frame, hFrame, rfl⟩ := List.mem_map.mp ht
      exact hFrames frame hFrame
    have hWidth := bucketWidth_pos (window.stop - window.start) bucketCount
    have hSome : (0 : Int) < bucketCount := by omega
    have hCovers := bucketWidth_covers (window.stop - window.start) hSome
    rw [sessionBuckets_eq window hCount hFrames] at hSamples ⊢
    exact covers_of_counted (bucketsOf_countsOnce hWidth fun t ht => (hTimes t ht).2)
      (Nat.le_trans (bucketsOf_length hWidth hCovers hTimes) hFits) hSamples
  · intro hTimes session
    exact sessionWindow_holds (sessionFramesMeta_sorted sessionId db.wellFormed) hTimes

def longSessionDb : SessionDb where
  tables := longSession
  wellFormed := {
    frameIds := by decide +kernel
    sessionIds := by decide
    references := by
      intro row hRow id hId
      obtain ⟨i, -, rfl⟩ := List.mem_map.mp hRow
      cases hId
      exact ⟨_, List.mem_singleton_self _, rfl⟩ }

/-- Twenty-five milliseconds in seven buckets. -/
theorem coverage_agrees_seven :
    Covers (framesMetaInRange 0 25 longSession) (timelineBuckets 0 25 7 longSession)
      fun bucket quota =>
        (sampleFramesInRange bucket.start bucket.stop quota longSession).map SegmenterFrame.id :=
  (coverage_agrees longSessionDb
    { start := 0, stop := 25, opens := by decide, low := by decide, high := by decide,
      span := by decide } 7 (by decide) (by decide)).1

/-- So many frames at one time. -/
def crowd (n : Nat) : Tables where
  frames := (List.range n).map fun (i : Nat) => { frame := plainFrame i 0, sessionId := none }
  sessions := []
  artifacts := []

theorem crowd_inRange (n : Nat) : (framesMetaInRange 0 1 (crowd n)).length = n := by
  rw [framesMetaInRange, if_neg (by decide), (Sorting.sortByKey_perm _ _).length_eq,
    List.filter_eq_self.mpr fun frame hFrame => ?_, List.length_map, crowd, List.length_map,
    List.length_range]
  rw [crowd, List.map_map] at hFrame
  obtain ⟨i, -, rfl⟩ := List.mem_map.mp hFrame
  rfl

/-- The counts of one bucket are an `u32`, however many frames there are. -/
theorem counts_saturate :
    ¬((timelineBuckets 0 1 1 (crowd (2 ^ 32))).map TimelineBucket.count).sum =
      (framesMetaInRange 0 1 (crowd (2 ^ 32))).length := by
  rw [crowd_inRange]
  generalize crowd (2 ^ 32) = db
  obtain ⟨hLaw, hLength, -⟩ := timelineBuckets_law
    { start := 0, stop := 1, opens := by decide, low := by decide, high := by decide,
      span := by decide } Nat.one_pos db
  change CountsOnce _ (timelineBuckets 0 1 1 db) at hLaw
  change (timelineBuckets 0 1 1 db).length ≤ 1 at hLength
  generalize timelineBuckets 0 1 1 db = buckets at hLaw hLength ⊢
  rcases buckets with _ | ⟨bucket, _ | ⟨other, rest⟩⟩
  · decide
  · have hCount := hLaw.count bucket (List.mem_singleton_self _)
    have hTop : u32Max < 2 ^ 32 := by decide
    rw [List.map_singleton, List.sum_singleton, hCount]
    omega
  · exact absurd hLength (by simp)

end ScreenSearch.Kernel
