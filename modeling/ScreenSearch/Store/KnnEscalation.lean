import Mathlib.Data.List.Perm.Subperm
import ScreenSearch.Lib.Ranking

/-!
# The escalating vector search

The vector table cannot filter inside its search, so a search in a time window or a session fetches
the nearest rows and filters afterwards. If too few are left it fetches again with a larger `k`, up
to the engine's ceiling. What it aims at is counted beforehand, on the frames of the window.

Main results:

* `escalate_eq` — enough rounds return the filtered rows up to the ceiling, each frame once, and
  `pool` of them at most;
* `target_le`, `le_target` — the count admits that;
* `exhaustive` — so with all rows below the ceiling nothing is lost, and five rounds are enough.
-/

namespace ScreenSearch.Store

def sqliteVecMaxK : Nat := 4096
def knnEscalationFactor : Nat := 8
def maxTimeRangeKnn : Nat := sqliteVecMaxK
def countScanCap : Nat := maxTimeRangeKnn

/-- Each frame once, where it is seen first. -/
def dedupKeepOrder (ids : List Int) : List Int := ids.eraseDups

/-! ## The search -/

/-- One pass: how many rows the engine returned, and which of their frames are in range. The rows are
all candidates in the order of their distance, each given by its frame. -/
def fetchKnn (rows : List Int) (inRange : Int → Bool) (k : Nat) : Nat × List Int :=
  let nearest := rows.take (min k sqliteVecMaxK)
  (nearest.length, nearest.filter inRange)

/-- The loop, with the number of rounds it may take. -/
def escalateInRangeKnn (fetch : Nat → Nat × List Int) (pool target : Nat) :
    Nat → Nat → Option (List Int)
  | 0, _ => none
  | rounds + 1, k =>
    let (raw, inRange) := fetch k
    let ids := dedupKeepOrder inRange
    if ids.length ≥ target ∨ raw < k ∨ k ≥ maxTimeRangeKnn then some (ids.take pool)
    else escalateInRangeKnn fetch pool target rounds (min (k * knnEscalationFactor) maxTimeRangeKnn)

/-- The target for a window: none if it provably has no embedded frame, and the pool if it has too
many frames to count. -/
def countEmbeddedFramesInRange (window : List Int) (embedded : Int → Bool) (pool scanCap : Nat) :
    Option Nat :=
  let scannedFrames := window.take scanCap
  let scanned := scannedFrames.length
  let count := scannedFrames.countP embedded
  if scanned ≥ scanCap then some pool
  else if count = 0 then none
  else some (min count pool)

/-- `text_knn_in_range` in a window or a session. -/
def boundedKnn (rows : List Int) (inRange : Int → Bool) (window : List Int) (embedded : Int → Bool)
    (pool rounds : Nat) : Option (List Int) :=
  match countEmbeddedFramesInRange window embedded pool countScanCap with
  | none => some []
  | some target =>
    escalateInRangeKnn (fetchKnn rows inRange) pool target rounds (min pool maxTimeRangeKnn)

/-! ## One search -/

variable {rows window : List Int} {inRange embedded : Int → Bool} {pool target rounds k : Nat}

/-- The frames in range, nearest first. -/
def ranked (rows : List Int) (inRange : Int → Bool) : List Int := dedupKeepOrder (rows.filter inRange)

/-- Fewer rows rank the same frames first. -/
theorem ranked_take_begins (rows : List Int) (inRange : Int → Bool) (k : Nat) :
    ranked (rows.take k) inRange <+: ranked rows inRange := by
  have hSplit : rows.filter inRange = (rows.take k).filter inRange ++ (rows.drop k).filter inRange := by
    rw [← List.filter_append, List.take_append_drop]
  unfold ranked dedupKeepOrder
  rw [hSplit]
  exact Ranking.eraseDups_prefix _ _

theorem ranked_prefix_take (rows : List Int) (inRange : Int → Bool) {k n : Nat} (h : k ≤ n) :
    ranked (rows.take k) inRange <+: ranked (rows.take n) inRange := by
  have hPrefix := ranked_take_begins (rows.take n) inRange k
  rwa [List.take_take, Nat.min_eq_left h] at hPrefix

/-- Whatever ends the search, the frames it has are those up to the ceiling. -/
theorem stopped_eq (hTarget : min pool (ranked rows inRange).length ≤ target)
    (hk : k ≤ maxTimeRangeKnn)
    (hStop : (ranked (rows.take k) inRange).length ≥ target ∨ rows.length < k ∨
      k ≥ maxTimeRangeKnn) :
    (ranked (rows.take k) inRange).take pool =
      (ranked (rows.take maxTimeRangeKnn) inRange).take pool := by
  have hPrefix := ranked_prefix_take rows inRange hk
  rcases hStop with hGathered | hDrained | hCeiling
  · have hAll := (ranked_take_begins rows inRange maxTimeRangeKnn).length_le
    refine Ranking.take_eq_of_prefix hPrefix ?_
    omega
  · rw [List.take_of_length_le (Nat.le_of_lt hDrained), List.take_of_length_le (Nat.le_trans (Nat.le_of_lt hDrained) hk)]
  · rw [Nat.le_antisymm hk hCeiling]

/-- One round, below the ceiling. -/
theorem escalate_succ (hk : k ≤ maxTimeRangeKnn) :
    escalateInRangeKnn (fetchKnn rows inRange) pool target (rounds + 1) k =
      if (ranked (rows.take k) inRange).length ≥ target ∨ rows.length < k ∨ k ≥ maxTimeRangeKnn then
        some ((ranked (rows.take k) inRange).take pool)
      else escalateInRangeKnn (fetchKnn rows inRange) pool target rounds
        (min (k * knnEscalationFactor) maxTimeRangeKnn) := by
  have hRaw : (rows.take k).length < k ↔ rows.length < k := by
    rw [List.length_take]
    omega
  rw [escalateInRangeKnn, fetchKnn, show min k sqliteVecMaxK = k from Nat.min_eq_left hk]
  simp only [hRaw]
  rfl

/-- Enough rounds end the search; the target may be anything from what there is, as far as `pool`
goes. -/
theorem escalate_eq (hTarget : min pool (ranked rows inRange).length ≤ target)
    (hk : k ≤ maxTimeRangeKnn) (hRounds : maxTimeRangeKnn ≤ k * knnEscalationFactor ^ rounds) :
    escalateInRangeKnn (fetchKnn rows inRange) pool target (rounds + 1) k =
      some ((ranked (rows.take maxTimeRangeKnn) inRange).take pool) := by
  induction rounds generalizing k with
  | zero =>
    rw [Nat.pow_zero, Nat.mul_one] at hRounds
    have hStop := Or.inr (a := (ranked (rows.take k) inRange).length ≥ target)
      (Or.inr (a := rows.length < k) hRounds)
    rw [escalate_succ hk, if_pos hStop, stopped_eq hTarget hk hStop]
  | succ rounds ih =>
    rw [escalate_succ hk]
    split
    · next hStop => rw [stopped_eq hTarget hk hStop]
    · refine ih (Nat.min_le_right _ _) ?_
      rcases Nat.le_total (k * knnEscalationFactor) maxTimeRangeKnn with hBelow | hAbove
      · rw [Nat.min_eq_left hBelow, Nat.mul_assoc, ← Nat.pow_succ']
        exact hRounds
      · rw [Nat.min_eq_right hAbove]
        exact Nat.le_mul_of_pos_right _ (Nat.pow_pos (by decide))

/-- Five rounds are enough, from any pool. -/
theorem escalate_five (hTarget : min pool (ranked rows inRange).length ≤ target)
    (hPool : target ≤ pool) :
    escalateInRangeKnn (fetchKnn rows inRange) pool target (rounds + 5) (min pool maxTimeRangeKnn) =
      some ((ranked (rows.take maxTimeRangeKnn) inRange).take pool) := by
  have hk : min pool maxTimeRangeKnn ≤ maxTimeRangeKnn := Nat.min_le_right _ _
  rcases Nat.eq_zero_or_pos pool with rfl | hPos
  · -- nothing is asked for, and the first round has it
    have hStop : (ranked (rows.take (min 0 maxTimeRangeKnn)) inRange).length ≥ target ∨
        rows.length < min 0 maxTimeRangeKnn ∨ min 0 maxTimeRangeKnn ≥ maxTimeRangeKnn :=
      Or.inl (Nat.le_trans hPool (Nat.zero_le _))
    rw [show rounds + 5 = rounds + 4 + 1 from rfl, escalate_succ hk, if_pos hStop,
      stopped_eq hTarget hk hStop]
  · have hPower : 4096 ≤ knnEscalationFactor ^ (rounds + 4) := by
      rw [Nat.pow_add]
      exact Nat.le_mul_of_pos_left 4096 (Nat.pow_pos (by decide))
    refine @escalate_eq rows inRange pool target (rounds + 4) _ hTarget hk ?_
    calc maxTimeRangeKnn ≤ 1 * knnEscalationFactor ^ (rounds + 4) := by
          rw [Nat.one_mul]
          exact hPower
      _ ≤ min pool maxTimeRangeKnn * knnEscalationFactor ^ (rounds + 4) :=
          Nat.mul_le_mul_right _ (by
            have : 0 < maxTimeRangeKnn := by decide
            omega)

/-! ## The target -/

/-- The window holds the frames of the rows in range, and knows that they are embedded. -/
def Covers (window : List Int) (embedded inRange : Int → Bool) (rows : List Int) : Prop :=
  ∀ id ∈ rows, inRange id = true → id ∈ window ∧ embedded id = true

/-- The frames in range are among those that a full count finds. -/
theorem ranked_length_le (h : Covers window embedded inRange rows) :
    (ranked rows inRange).length ≤ window.countP embedded := by
  rw [List.countP_eq_length_filter]
  refine (List.subperm_of_subset (Sorting.nodup_eraseDups _) ?_).length_le
  · intro id hid
    obtain ⟨hRow, hIn⟩ := List.mem_filter.mp (List.mem_eraseDups.mp hid)
    exact List.mem_filter.mpr (h id hRow hIn)

/-- A window without a target has no frame to return; a target admits the search. -/
theorem count_spec (h : Covers window embedded inRange rows) (pool scanCap : Nat) :
    match countEmbeddedFramesInRange window embedded pool scanCap with
    | none => ranked rows inRange = []
    | some target => min pool (ranked rows inRange).length ≤ target ∧ target ≤ pool := by
  have hFull := ranked_length_le h
  unfold countEmbeddedFramesInRange
  by_cases hBudget : (window.take scanCap).length ≥ scanCap
  · dsimp only
    rw [if_pos hBudget]
    exact ⟨Nat.min_le_left _ _, Nat.le_refl _⟩
  · -- the whole window was scanned
    have hAll : window.take scanCap = window := by
      rw [List.length_take] at hBudget
      exact List.take_of_length_le (by omega)
    dsimp only
    rw [if_neg hBudget, hAll]
    by_cases hNone : window.countP embedded = 0
    · rw [if_pos hNone]
      exact List.eq_nil_of_length_eq_zero (by omega)
    · rw [if_neg hNone]
      dsimp only
      omega

/-- The whole of a bounded search. -/
theorem boundedKnn_eq (h : Covers window embedded inRange rows) :
    boundedKnn rows inRange window embedded pool (rounds + 5) =
      some ((ranked (rows.take maxTimeRangeKnn) inRange).take pool) := by
  have hCount := count_spec h pool countScanCap
  unfold boundedKnn
  split
  · next hNone =>
    rw [hNone] at hCount
    have hPrefix := ranked_take_begins rows inRange maxTimeRangeKnn
    rw [show ranked rows inRange = [] from hCount] at hPrefix
    rw [List.prefix_nil.mp hPrefix, List.take_nil]
  · next target hSome =>
    rw [hSome] at hCount
    exact escalate_five hCount.1 hCount.2

/-- With all rows below the engine's ceiling, the search returns what an exhaustive one does: the
rows in range, each frame once, and the first `pool` of them. It needs five rounds at most, with the
target that the count gives and with any other that does not lie below what there is. -/
theorem exhaustive (rows : List Int) (inRange : Int → Bool) (pool rounds : Nat)
    (hRows : rows.length ≤ maxTimeRangeKnn) :
    (∀ target, min pool (dedupKeepOrder (rows.filter inRange)).length ≤ target → target ≤ pool →
      escalateInRangeKnn (fetchKnn rows inRange) pool target (rounds + 5)
        (min pool maxTimeRangeKnn) = some ((dedupKeepOrder (rows.filter inRange)).take pool)) ∧
    ∀ window embedded, Covers window embedded inRange rows →
      boundedKnn rows inRange window embedded pool (rounds + 5) =
        some ((dedupKeepOrder (rows.filter inRange)).take pool) := by
  have hAll : rows.take maxTimeRangeKnn = rows := List.take_of_length_le hRows
  refine ⟨fun target hTarget hPool => ?_, fun window embedded hCovers => ?_⟩
  · rw [escalate_five hTarget hPool, hAll]
    rfl
  · rw [boundedKnn_eq hCovers, hAll]
    rfl

/-- Two rows of one frame, a frame out of range, and a pool that the first pass does not fill. -/
theorem exhaustive_small :
    boundedKnn [7, 7, 8, 9] (fun id => id != 8) [9, 7] (fun _ => true) 2 5 = some [7, 9] := by
  have h := (exhaustive [7, 7, 8, 9] (fun id => id != 8) 2 0 (by decide)).2 [9, 7] (fun _ => true)
    (by unfold Covers; decide)
  rw [h]
  decide

end ScreenSearch.Store
