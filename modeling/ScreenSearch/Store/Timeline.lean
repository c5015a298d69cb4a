import Mathlib.Algebra.GroupWithZero.Nat
import ScreenSearch.Lib.Buckets
import ScreenSearch.Lib.Keyset
import ScreenSearch.Lib.Spread
import ScreenSearch.Store.SessionQueries
import ScreenSearch.Traits.History

/-!
# The timeline's buckets, and the samples of a window and of a session

Main results:

* `sampleFramesInRange_picked` — a window's sample is the first frame of each of `limit` even
  ranges of ranks;
* `sessionFrameSample_picked` — a session's sample runs from its first frame to its last;
* `timelineBuckets_law` — every frame of a window lies in one bucket, which counts it.
-/

namespace ScreenSearch.Store

open Buckets Spread Sorting

def u32Max : Nat := 2 ^ 32 - 1

/-! ## Buckets -/

structure TimelineBucket where
  start : Int
  stop : Int
  count : Nat
  deriving DecidableEq, Repr

/-- The span over the number of buckets, rounded up, and at least a millisecond. -/
def bucketWidth (span count : Int) : Int := max (span / count + if span % count = 0 then 0 else 1) 1

/-- `GROUP BY bucket ORDER BY bucket`, with `COUNT(*)`. -/
def groupCounts (numbers : List Int) : List (Int × Nat) :=
  (keysOf numbers).map fun b => (b, numbers.count b)

/-- The times of the frames in a window. -/
def timesInRange (start stop : Int) (db : Tables) : List Int :=
  (framesMetaInRange start stop db).map SegmenterFrame.capturedAt

/-- A span or an end that is no `i64` is caught. -/
def timelineBuckets (start stop : Int) (bucketCount : Nat) (db : Tables) : List TimelineBucket :=
  if stop ≤ start ∨ bucketCount = 0 then []
  else if (i64Max : Int) < stop - start then []
  else
    let width := bucketWidth (stop - start) bucketCount
    (groupCounts ((timesInRange start stop db).map (slot start width))).map fun (b, count) =>
      let bucketStart := start + b * width
      { start := bucketStart
        stop := min (if bucketStart + width ≤ i64Max then bucketStart + width else stop) stop
        count := min count u32Max }

/-! ## Samples -/

def maxSessionFrameSample : Nat := 24

/-- Frames of a session; the total is an `u32`. -/
structure SessionFrameSample where
  totalCount : Nat
  frames : List SegmenterFrame
  deriving DecidableEq, Repr

/-- The rank that a slot asks for. -/
def slotRank (total limit k : Nat) : Nat :=
  if total ≤ limit then k else k * (total - 1) / (limit - 1)

/-- The frames with their ranks, joined to the slots on the rank. -/
def sessionFrameSample (sessionId : Int) (limit : Nat) (db : Tables) : SessionFrameSample :=
  let limit := min limit maxSessionFrameSample
  let ranked := sessionFramesMeta sessionId db
  let total := ranked.length
  { totalCount := min total u32Max
    frames :=
      if total = 0 ∨ limit = 0 then []
      else if limit = 1 then ranked.take 1
      else ranked.zipIdx.flatMap fun entry =>
        ((List.range limit).filter fun k =>
          decide (k < min total limit) && decide (entry.2 = slotRank total limit k)).map
            fun _ => entry.1 }

/-- Chronological, ties by frame id. -/
def Earlier (a b : SegmenterFrame) : Prop := Sessions.timeKey a < Sessions.timeKey b

theorem timeKeys_nodup {frames : List SegmenterFrame}
    (h : (frames.map SegmenterFrame.id).Nodup) : (frames.map Sessions.timeKey).Nodup := by
  have hIds : (frames.map Sessions.timeKey).map (fun k => (ofLex k).2) =
      frames.map SegmenterFrame.id := by
    rw [List.map_map]
    rfl
  rw [← hIds] at h
  exact h.of_map _

theorem sessionFramesMeta_sorted (sessionId : Int) {db : Tables} (h : db.WellFormed) :
    (sessionFramesMeta sessionId db).Pairwise Earlier := by
  refine Keyset.sortByKey_strict (timeKeys_nodup ?_)
  rw [List.map_map]
  exact h.frameIds.sublist (List.filter_sublist.map _)

theorem framesMetaInRange_sorted (start stop : Int) {db : Tables} (h : db.WellFormed) :
    (framesMetaInRange start stop db).Pairwise Earlier := by
  rw [framesMetaInRange]
  split
  · exact List.Pairwise.nil
  · refine Keyset.sortByKey_strict (timeKeys_nodup ?_)
    have hIds : ((db.frames.map FrameRow.frame).map SegmenterFrame.id).Nodup := by
      rw [List.map_map]
      exact h.frameIds
    exact hIds.sublist (List.filter_sublist.map _)

/-- A window's sample, by rank. -/
theorem sampleFramesInRange_picked (start stop : Int) {limit : Nat} (db : Tables)
    (hLimit : 0 < limit) :
    Picked (framesMetaInRange start stop db)
      (evenFirsts limit (framesMetaInRange start stop db).length)
      (sampleFramesInRange start stop limit db) := by
  rw [sampleFramesInRange]
  split
  · next hNone =>
    have hEmpty : framesMetaInRange start stop db = [] := by
      rw [framesMetaInRange, if_pos (hNone.resolve_right (by omega))]
    rw [hEmpty]
    rfl
  · generalize framesMetaInRange start stop db = rows
    have hPicked : Picked rows (evenFirsts limit rows.length)
        ((rows.zipIdx.filter fun entry => decide (entry.2 = 0) ||
          decide (entry.2 * limit / rows.length ≠ (entry.2 - 1) * limit / rows.length)).map
            Prod.fst) :=
      filter_zipIdx_picked rows _
    have hLength := hPicked.length
    rw [evenFirsts_length hLimit] at hLength
    dsimp only
    rw [List.take_of_length_le (hLength ▸ Nat.min_le_right _ _)]
    exact hPicked

theorem slots_below {m limit : Nat} (h : m ≤ limit) :
    (List.range limit).filter (fun k => decide (k < m)) = List.range m := by
  obtain ⟨rest, rfl⟩ := Nat.exists_eq_add_of_le h
  rw [List.range_add, List.filter_append, List.filter_eq_self.mpr fun k hk => by simpa using hk,
    List.filter_eq_nil_iff.mpr fun k hk => ?_, List.append_nil]
  obtain ⟨j, -, rfl⟩ := List.mem_map.mp hk
  simp

/-- The slots ask for ranks from the first to the last. -/
theorem slots_ranks (total limit : Nat) :
    (List.range (min total limit)).map (slotRank total limit) =
      endpoints total (min total limit) := by
  rcases Nat.lt_or_ge limit total with hSome | hAll
  · rw [Nat.min_eq_right (Nat.le_of_lt hSome), endpoints]
    exact List.map_congr_left fun k _ => by rw [slotRank, if_neg (Nat.not_le.mpr hSome)]
  · rw [Nat.min_eq_left hAll, endpoints_self]
    refine (List.map_congr_left fun k _ => ?_).trans (List.map_id _)
    rw [slotRank, if_pos hAll]
    rfl

/-- A session's sample, by rank. -/
theorem sessionFrameSample_picked (sessionId : Int) (limit : Nat) (db : Tables) :
    let rows := sessionFramesMeta sessionId db
    Picked rows (endpoints rows.length (min rows.length (min limit maxSessionFrameSample)))
      (sessionFrameSample sessionId limit db).frames := by
  dsimp only [sessionFrameSample]
  generalize min limit maxSessionFrameSample = limit
  generalize sessionFramesMeta sessionId db = rows
  split
  · next hNone =>
    rw [show min rows.length limit = 0 by omega]
    rfl
  · next hSome =>
    split
    · next hOne =>
      rw [hOne, show min rows.length 1 = 1 by omega]
      cases rows with
      | nil => exact absurd (.inl rfl) hSome
      | cons row rows =>
        unfold Picked endpoints
        simp
    · have hBelow : ∀ r ∈ endpoints rows.length (min rows.length limit), r < rows.length :=
        fun r hr => lt_of_mem_endpoints (by omega) hr
      have hPicked := join_picked (endpoints_pairwise (Nat.min_le_left _ limit)) hBelow
      rw [← slots_ranks] at hPicked ⊢
      refine Eq.trans (congrArg (List.map some) (List.flatMap_congr fun entry _ => ?_)) hPicked
      rw [List.filter_map, List.map_map, ← slots_below (Nat.min_le_right rows.length limit),
        List.filter_filter]
      refine congrArg (List.map _) (List.filter_congr fun k _ => ?_)
      rw [Bool.and_comm]
      congr 1
      exact decide_eq_decide.mpr eq_comm

/-! ## What the buckets count -/

def TimelineBucket.holds (bucket : TimelineBucket) (t : Int) : Bool :=
  decide (bucket.start ≤ t) && decide (t < bucket.stop)

/-- Every time lies in one bucket, and a bucket counts the times that lie in it, as far as an `u32`
goes. -/
structure CountsOnce (times : List Int) (buckets : List TimelineBucket) : Prop where
  once : ∀ t ∈ times, ∃ bucket ∈ buckets, bucket.holds t ∧
    ∀ other ∈ buckets, other.holds t → other = bucket
  apart : buckets.Pairwise fun a b => a.stop ≤ b.start
  count : ∀ bucket ∈ buckets, bucket.count = min (times.countP bucket.holds) u32Max
  total : (buckets.map fun bucket => times.countP bucket.holds).sum = times.length

/-- The bucket of a number, in a window. -/
def bucketAt (start width stop : Int) (count : Nat) (b : Int) : TimelineBucket where
  start := start + b * width
  stop := min (start + b * width + width) stop
  count := count

/-- The buckets that hold a time. -/
def bucketsOf (times : List Int) (start width stop : Int) : List TimelineBucket :=
  let numbers := times.map (slot start width)
  (keysOf numbers).map fun b => bucketAt start width stop (min (numbers.count b) u32Max) b

theorem bucketWidth_pos (span count : Int) : 0 < bucketWidth span count :=
  lt_of_lt_of_le Int.one_pos (le_max_right _ _)

theorem bucketWidth_covers (span : Int) {count : Int} (hCount : 0 < count) :
    span ≤ count * bucketWidth span count := by
  have hSplit := Int.mul_ediv_add_emod span count
  have hRest := Int.emod_lt_of_pos span hCount
  calc span ≤ count * (span / count + if span % count = 0 then 0 else 1) := by
        rw [Int.mul_add]
        split <;> omega
    _ ≤ count * bucketWidth span count :=
        Int.mul_le_mul_of_nonneg_left (le_max_left _ _) (Int.le_of_lt hCount)

theorem bucketAt_holds {start width stop t : Int} (hWidth : 0 < width) (h : t < stop) (count : Nat)
    (b : Int) : (bucketAt start width stop count b).holds t = decide (slot start width t = b) := by
  have hIff : (start + b * width ≤ t ∧ t < min (start + b * width + width) stop) ↔
      slot start width t = b := by
    rw [slot_iff hWidth, lt_min_iff]
    exact and_congr_right fun _ => and_iff_left h
  rw [← decide_eq_decide.mpr hIff]
  exact (Bool.decide_and _ _).symm

theorem bucketsOf_countsOnce {times : List Int} {start width stop : Int} (hWidth : 0 < width)
    (hTimes : ∀ t ∈ times, t < stop) : CountsOnce times (bucketsOf times start width stop) := by
  have hCount : ∀ count b, times.countP (bucketAt start width stop count b).holds =
      (times.map (slot start width)).count b := by
    intro count b
    rw [List.count, List.countP_map]
    refine List.countP_congr fun t ht => ?_
    rw [bucketAt_holds hWidth (hTimes t ht)]
    simp
  refine ⟨fun t ht => ?_, ?_, fun bucket hBucket => ?_, ?_⟩
  · have hKey : slot start width t ∈ keysOf (times.map (slot start width)) :=
      mem_keysOf.mpr (List.mem_map_of_mem ht)
    refine ⟨_, List.mem_map_of_mem hKey, ?_, fun other hOther hHolds => ?_⟩
    · rw [bucketAt_holds hWidth (hTimes t ht)]
      exact decide_eq_true rfl
    · obtain ⟨b, -, rfl⟩ := List.mem_map.mp hOther
      rw [bucketAt_holds hWidth (hTimes t ht), decide_eq_true_eq] at hHolds
      rw [hHolds]
  · unfold bucketsOf
    rw [List.pairwise_map]
    refine (keysOf_pairwise _).imp fun {a b} hLt => ?_
    have hMul : (a + 1) * width ≤ b * width :=
      Int.mul_le_mul_of_nonneg_right hLt (Int.le_of_lt hWidth)
    rw [Int.add_mul, Int.one_mul] at hMul
    exact le_trans (min_le_left _ _) (by show _ ≤ start + b * width; omega)
  · obtain ⟨b, -, rfl⟩ := List.mem_map.mp hBucket
    rw [hCount]
    rfl
  · unfold bucketsOf
    rw [List.map_map]
    refine Eq.trans (congrArg List.sum (List.map_congr_left fun b _ => hCount _ b)) ?_
    rw [sum_counts, List.length_map]

theorem bucketsOf_inside {times : List Int} {start width stop : Int} (hWidth : 0 < width)
    (hTimes : ∀ t ∈ times, start ≤ t) {bucket : TimelineBucket}
    (h : bucket ∈ bucketsOf times start width stop) :
    start ≤ bucket.start ∧ bucket.stop ≤ stop := by
  obtain ⟨b, hb, rfl⟩ := List.mem_map.mp h
  obtain ⟨t, ht, rfl⟩ := List.mem_map.mp (mem_keysOf.mp hb)
  have hStart : 0 ≤ slot start width t * width :=
    Int.mul_nonneg (slot_nonneg hWidth (hTimes t ht)) (Int.le_of_lt hWidth)
  exact ⟨by show start ≤ start + _; omega, min_le_right _ _⟩

/-- There are no more buckets than were asked for. -/
theorem bucketsOf_length {times : List Int} {start width stop : Int} {count : Nat}
    (hWidth : 0 < width) (hCovers : stop - start ≤ count * width)
    (hTimes : ∀ t ∈ times, start ≤ t ∧ t < stop) :
    (bucketsOf times start width stop).length ≤ count := by
  have hIn : ∀ b ∈ keysOf (times.map (slot start width)), 0 ≤ b ∧ b < count := by
    intro b hb
    obtain ⟨t, ht, rfl⟩ := List.mem_map.mp (mem_keysOf.mp hb)
    exact ⟨slot_nonneg hWidth (hTimes t ht).1, slot_lt hWidth hCovers (hTimes t ht).2⟩
  unfold bucketsOf
  rw [List.length_map]
  generalize hKeys : keysOf (times.map (slot start width)) = keys at hIn ⊢
  have hNodup : (keys.map Int.toNat).Nodup := by
    refine List.Nodup.map_on (fun a ha b hb h => ?_) (hKeys ▸ keysOf_nodup _)
    have := (hIn a ha).1
    have := (hIn b hb).1
    omega
  have hSubset : keys.map Int.toNat ⊆ List.range count := by
    intro k hk
    obtain ⟨b, hb, rfl⟩ := List.mem_map.mp hk
    have := hIn b hb
    exact List.mem_range.mpr (by omega)
  have hLe := (List.subperm_of_subset hNodup hSubset).length_le
  rwa [List.length_map, List.length_range] at hLe

/-- A window whose ends and span are `i64`s. -/
structure Window where
  start : Int
  stop : Int
  opens : start < stop
  low : -(i64Max : Int) - 1 ≤ start
  high : stop ≤ i64Max
  span : stop - start ≤ i64Max

theorem timelineBuckets_eq (window : Window) {bucketCount : Nat} (hCount : 0 < bucketCount)
    (db : Tables) :
    timelineBuckets window.start window.stop bucketCount db =
      bucketsOf (timesInRange window.start window.stop db) window.start
        (bucketWidth (window.stop - window.start) bucketCount) window.stop := by
  have hOpens := window.opens
  have hSpan := window.span
  have hHigh := window.high
  rw [timelineBuckets, if_neg (by omega), if_neg (by omega)]
  unfold bucketsOf groupCounts
  rw [List.map_map]
  refine List.map_congr_left fun b _ => ?_
  unfold bucketAt
  dsimp only [Function.comp_apply]
  congr 1
  -- an end that is no `i64` lies behind the window's
  split
  · rfl
  · omega

theorem mem_framesMetaInRange {start stop : Int} {db : Tables} {frame : SegmenterFrame} :
    frame ∈ framesMetaInRange start stop db ↔
      frame ∈ db.frames.map FrameRow.frame ∧ start ≤ frame.capturedAt ∧
        frame.capturedAt < stop := by
  rw [framesMetaInRange]
  split
  · constructor
    · exact fun h => absurd h List.not_mem_nil
    · rintro ⟨-, h, h'⟩
      omega
  · rw [mem_sortByKey, List.mem_filter, Bool.and_eq_true, decide_eq_true_eq, decide_eq_true_eq]

theorem timesInRange_mem {start stop t : Int} {db : Tables} (h : t ∈ timesInRange start stop db) :
    start ≤ t ∧ t < stop := by
  obtain ⟨frame, hFrame, rfl⟩ := List.mem_map.mp h
  exact (mem_framesMetaInRange.mp hFrame).2

/-- **The timeline's buckets.** -/
theorem timelineBuckets_law (window : Window) {bucketCount : Nat} (hCount : 0 < bucketCount)
    (db : Tables) :
    CountsOnce (timesInRange window.start window.stop db)
      (timelineBuckets window.start window.stop bucketCount db) ∧
    (timelineBuckets window.start window.stop bucketCount db).length ≤ bucketCount ∧
    ∀ bucket ∈ timelineBuckets window.start window.stop bucketCount db,
      window.start ≤ bucket.start ∧ bucket.stop ≤ window.stop := by
  rw [timelineBuckets_eq window hCount]
  have hWidth := bucketWidth_pos (window.stop - window.start) bucketCount
  have hSome : (0 : Int) < bucketCount := by omega
  have hCovers := bucketWidth_covers (window.stop - window.start) hSome
  exact ⟨bucketsOf_countsOnce hWidth fun t ht => (timesInRange_mem ht).2,
    bucketsOf_length hWidth hCovers fun t ht => timesInRange_mem ht,
    fun bucket hBucket => bucketsOf_inside hWidth (fun t ht => (timesInRange_mem ht).1) hBucket⟩

end ScreenSearch.Store
