import Mathlib.Algebra.GroupWithZero.Nat
import Mathlib.Algebra.Order.Group.Abs
import Mathlib.Algebra.Order.Group.Int
import Mathlib.Data.String.Basic
import Mathlib.Order.Bounds.Basic
import ScreenSearch.Lib.Assoc
import ScreenSearch.Lib.Matching
import ScreenSearch.Lib.Sort

/-!
# Scoring a segmentation

The boundaries that a segmenter predicts for a day are matched with the labeled ones, starts
with starts and ends with ends, within a tolerance; once for the day as a whole and once for
each identity alone. The greatest matching is found by dynamic programming over the sorted
times, one row at a time.

Main results:

* `optimalMatch_eq` — the rows are those of the recursion `best`;
* `optimalMatch_greatest` — no matching is larger;
* `scoring_law` — the two scores have the same totals, and the score by identity has no more
  matches.
-/

namespace ScreenSearch.Harness

open Assoc Matching Sorting

inductive Kind where
  | focus | meeting | ai | other
  deriving DecidableEq, Repr

structure SessionSpan where
  startMs : Int
  endMs : Int
  kind : Kind
  tool : Option String
  deriving DecidableEq, Repr

structure ResolvedLabel where
  startMs : Int
  endMs : Int
  kind : Kind
  tool : Option String
  deriving DecidableEq, Repr

structure BoundaryScore where
  predicted : Nat
  labeled : Nat
  matched : Nat
  deriving DecidableEq, Repr

def BoundaryScore.zero : BoundaryScore := ⟨0, 0, 0⟩

def BoundaryScore.add (b o : BoundaryScore) : BoundaryScore :=
  ⟨b.predicted + o.predicted, b.labeled + o.labeled, b.matched + o.matched⟩

structure DayScore where
  date : String
  boundaries : BoundaryScore
  toolCorrect : Nat
  toolTotal : Nat
  deriving DecidableEq, Repr

/-! ## Matching -/

/-- The two times differ by at most the tolerance. -/
def Within (tolMs : Int) (a b : Int) : Prop := |a - b| ≤ tolMs

instance (tolMs : Int) : DecidableRel (Within tolMs) :=
  fun a b => inferInstanceAs (Decidable (|a - b| ≤ tolMs))

/-- The cells of a row after the first, from the row before and the cell on the left. -/
def matchRow (tolMs ai : Int) : List Int → List Nat → Nat → List Nat
  | bj :: b, diag :: up :: prev, left =>
    let hit := if Within tolMs ai bj then 1 else 0
    let cell := max (max left up) (diag + hit)
    cell :: matchRow tolMs ai b (up :: prev) cell
  | _, _, _ => []

/-- The most pairs, one to one, of times within the tolerance. -/
def optimalMatch (a b : List Int) (tolMs : Int) : Nat :=
  let a := sortByKey id a
  let b := sortByKey id b
  let prev := List.replicate (b.length + 1) 0
  (a.foldl (fun prev ai => 0 :: matchRow tolMs ai b prev 0) prev).getLastD 0

/-- Boundaries near the start or the end of the day are dropped. -/
def keepInterior (events : List Int) (dayStartMs dayEndMs tolMs : Int) : List Int :=
  events.filter fun t => decide (|t - dayStartMs| > tolMs) && decide (|dayEndMs - t| > tolMs)

/-! ## Scores -/

/-- The labeled sessions of a tool, and how many of them the predicted one of greatest overlap
gets right. -/
def toolAccuracy (spans : List SessionSpan) (labels : List ResolvedLabel) : Nat × Nat :=
  let ai := labels.filter fun l => l.kind == .ai
  let best (l : ResolvedLabel) : Option SessionSpan :=
    (maxByKey Prod.fst ((spans.filter fun s => s.kind == .ai).filterMap fun s =>
      let overlap := max (min s.endMs l.endMs - max s.startMs l.startMs) 0
      if overlap > 0 then some (overlap, s) else none)).map Prod.snd
  (ai.countP fun l => (best l).any fun s => s.tool == l.tool, ai.length)

def scoreDay (date : String) (spans : List SessionSpan) (labels : List ResolvedLabel)
    (dayStartMs dayEndMs tolMs : Int) : DayScore :=
  let predStarts := keepInterior (spans.map SessionSpan.startMs) dayStartMs dayEndMs tolMs
  let predEnds := keepInterior (spans.map SessionSpan.endMs) dayStartMs dayEndMs tolMs
  let labStarts := keepInterior (labels.map ResolvedLabel.startMs) dayStartMs dayEndMs tolMs
  let labEnds := keepInterior (labels.map ResolvedLabel.endMs) dayStartMs dayEndMs tolMs
  let (toolCorrect, toolTotal) := toolAccuracy spans labels
  { date := date
    boundaries :=
      { predicted := predStarts.length + predEnds.length
        labeled := labStarts.length + labEnds.length
        matched := optimalMatch predStarts labStarts tolMs + optimalMatch predEnds labEnds tolMs }
    toolCorrect := toolCorrect
    toolTotal := toolTotal }

/-- The identity that boundaries are scored by. -/
def partitionKey (kind : Kind) (tool : Option String) : String :=
  match kind with
  | .ai => "ai:" ++ tool.getD ""
  | .meeting => "meeting"
  | .focus => "focus"
  | .other => "other"

def SessionSpan.partitionKey (s : SessionSpan) : String := Harness.partitionKey s.kind s.tool

def ResolvedLabel.partitionKey (l : ResolvedLabel) : String := Harness.partitionKey l.kind l.tool

/-- The times under each key. -/
def timesByKey {α : Type} (key : α → String) (time : α → Int) (items : List α) :
    HashMap (List Int) :=
  items.foldl (fun times x => times.insert (key x) ((times.lookup (key x)).getD [] ++ [time x])) ∅

def scoreDayPartitioned (date : String) (spans : List SessionSpan) (labels : List ResolvedLabel)
    (dayStartMs dayEndMs tolMs : Int) : DayScore :=
  let predStarts := timesByKey SessionSpan.partitionKey SessionSpan.startMs spans
  let predEnds := timesByKey SessionSpan.partitionKey SessionSpan.endMs spans
  let labStarts := timesByKey ResolvedLabel.partitionKey ResolvedLabel.startMs labels
  let labEnds := timesByKey ResolvedLabel.partitionKey ResolvedLabel.endMs labels
  let keys := sortByKey id
    (predStarts.keys ++ labStarts.keys ++ predEnds.keys ++ labEnds.keys).eraseDups
  let ki (times : HashMap (List Int)) (k : String) : List Int :=
    keepInterior ((times.lookup k).getD []) dayStartMs dayEndMs tolMs
  let boundaries := keys.foldl (fun boundaries k =>
    boundaries.add
      { predicted := (ki predStarts k).length + (ki predEnds k).length
        labeled := (ki labStarts k).length + (ki labEnds k).length
        matched := optimalMatch (ki predStarts k) (ki labStarts k) tolMs
          + optimalMatch (ki predEnds k) (ki labEnds k) tolMs }) .zero
  let (toolCorrect, toolTotal) := toolAccuracy spans labels
  { date := date
    boundaries := boundaries
    toolCorrect := toolCorrect
    toolTotal := toolTotal }

/-! ## The rows -/

/-- The sizes for ever more of a list, after those that were taken before, latest first. -/
def laterCells (R : Int → Int → Prop) [DecidableRel R] (a : List Int) :
    List Int → List Int → List Nat
  | _, [] => []
  | taken, bj :: b => best R a (bj :: taken) :: laterCells R a (bj :: taken) b

variable {tolMs : Int}

/-- A row is computed from the row before it. -/
theorem matchRow_eq (tolMs ai : Int) (a : List Int) : ∀ (b taken : List Int),
    matchRow tolMs ai b (best (Within tolMs) a taken :: laterCells (Within tolMs) a taken b)
      (best (Within tolMs) (ai :: a) taken) = laterCells (Within tolMs) (ai :: a) taken b
  | [], taken => by
    unfold laterCells matchRow
    rfl
  | bj :: b, taken => by
    have hCell : best (Within tolMs) (ai :: a) (bj :: taken) =
        max (max (best (Within tolMs) (ai :: a) taken) (best (Within tolMs) a (bj :: taken)))
          (best (Within tolMs) a taken + if Within tolMs ai bj then 1 else 0) := by
      rw [best]
    rw [laterCells, laterCells, matchRow, ← hCell, matchRow_eq tolMs ai a b (bj :: taken)]

theorem getLastD_cells (R : Int → Int → Prop) [DecidableRel R] (a : List Int) :
    ∀ (b taken : List Int),
      (best R a taken :: laterCells R a taken b).getLastD 0 = best R a (b.reverse ++ taken)
  | [], taken => rfl
  | bj :: b, taken => by
    rw [laterCells, List.getLastD_cons, List.getLastD_cons, List.reverse_cons, List.append_assoc]
    have hRest := getLastD_cells R a b (bj :: taken)
    rw [List.getLastD_cons] at hRest
    exact hRest

theorem laterCells_nil (R : Int → Int → Prop) [DecidableRel R] :
    ∀ b taken : List Int, laterCells R [] taken b = List.replicate b.length 0
  | [], taken => rfl
  | bj :: b, taken => by
    rw [laterCells, laterCells_nil R b, best, List.length_cons, List.replicate_succ]

/-- The rows after the first `a` are those of the recursion. -/
theorem rows_eq (tolMs : Int) (b : List Int) : ∀ a taken : List Int,
    a.foldl (fun prev ai => 0 :: matchRow tolMs ai b prev 0)
        (0 :: laterCells (Within tolMs) taken [] b) =
      0 :: laterCells (Within tolMs) (a.reverse ++ taken) [] b
  | [], taken => rfl
  | ai :: a, taken => by
    have hRow := matchRow_eq tolMs ai taken b []
    rw [best_nil_right, best_nil_right] at hRow
    rw [List.foldl_cons, hRow, rows_eq tolMs b a, List.reverse_cons, List.append_assoc]
    rfl

theorem optimalMatch_eq (a b : List Int) (tolMs : Int) :
    optimalMatch a b tolMs =
      best (Within tolMs) (sortByKey id a).reverse (sortByKey id b).reverse := by
  unfold optimalMatch
  dsimp only
  have hFirst := laterCells_nil (Within tolMs) (sortByKey id b) []
  rw [List.replicate_succ, ← hFirst, rows_eq tolMs (sortByKey id b)]
  have hLast := getLastD_cells (Within tolMs) ((sortByKey id a).reverse ++ []) (sortByKey id b) []
  rw [best_nil_right] at hLast
  rw [hLast, List.append_nil, List.append_nil]

/-! ## The greatest matching -/

theorem within_exchanges (tolMs : Int) : Exchanges (Within tolMs) := by
  intro x x' y y' hx hy hCross hCross'
  unfold Within at hCross hCross' ⊢
  rw [abs_le] at hCross hCross' ⊢
  rw [abs_le]
  omega

theorem reverse_sorted (l : List Int) : (sortByKey id l).reverse.Pairwise fun x x' => x' ≤ x :=
  List.pairwise_reverse.mpr (sortByKey_pairwise id l)

theorem coe_reverse_sorted (l : List Int) : ((sortByKey id l).reverse : Multiset Int) = l :=
  Multiset.coe_eq_coe.mpr ((List.reverse_perm _).trans (sortByKey_perm id l))

theorem optimalMatch_achieved (a b : List Int) (tolMs : Int) :
    ∃ pairs, Pairs (Within tolMs) a b pairs ∧ pairs.card = optimalMatch a b tolMs := by
  have hBest := best_achieved (R := Within tolMs) (sortByKey id a).reverse (sortByKey id b).reverse
  rwa [coe_reverse_sorted, coe_reverse_sorted, ← optimalMatch_eq] at hBest

theorem card_le_optimalMatch {a b : List Int} {pairs : Multiset (Int × Int)}
    (h : Pairs (Within tolMs) a b pairs) : pairs.card ≤ optimalMatch a b tolMs := by
  rw [optimalMatch_eq]
  rw [← coe_reverse_sorted a, ← coe_reverse_sorted b] at h
  exact best_optimal (within_exchanges tolMs) (reverse_sorted a) (reverse_sorted b) h

/-- The match is a greatest one. -/
theorem optimalMatch_greatest (a b : List Int) (tolMs : Int) :
    IsGreatest {n | ∃ m : Pairing (Within tolMs) a b, m.size = n} (optimalMatch a b tolMs) := by
  constructor
  · obtain ⟨pairs, hPairs, hCard⟩ := optimalMatch_achieved a b tolMs
    obtain ⟨m, hSize⟩ := hPairs.exists_pairing
    exact ⟨m, hSize.trans hCard⟩
  · rintro _ ⟨m, rfl⟩
    obtain ⟨pairs, hPairs, hCard⟩ := m.exists_pairs
    exact hCard ▸ card_le_optimalMatch hPairs

/-- Matching part by part gives a matching of the whole. -/
theorem sum_optimalMatch_le (keys : List String) (a b : String → List Int) (tolMs : Int) :
    (keys.map fun k => optimalMatch (a k) (b k) tolMs).sum ≤
      optimalMatch (keys.flatMap a) (keys.flatMap b) tolMs := by
  suffices hPairs : ∃ pairs, Pairs (Within tolMs) (keys.flatMap a) (keys.flatMap b) pairs ∧
      pairs.card = (keys.map fun k => optimalMatch (a k) (b k) tolMs).sum by
    obtain ⟨pairs, hPairs, hCard⟩ := hPairs
    exact hCard ▸ card_le_optimalMatch hPairs
  induction keys with
  | nil => exact ⟨0, .empty _ _ _, rfl⟩
  | cons k keys ih =>
    obtain ⟨rest, hRest, hRestCard⟩ := ih
    obtain ⟨pairs, hPairs, hCard⟩ := optimalMatch_achieved (a k) (b k) tolMs
    refine ⟨pairs + rest, ?_, ?_⟩
    · have hBoth := hPairs.add hRest
      rwa [Multiset.coe_add, Multiset.coe_add] at hBoth
    · rw [Multiset.card_add, hCard, hRestCard, List.map_cons, List.sum_cons]

theorem optimalMatch_congr {a a' b b' : List Int} (ha : a.Perm a') (hb : b.Perm b') (tolMs : Int) :
    optimalMatch a b tolMs = optimalMatch a' b' tolMs := by
  unfold optimalMatch
  rw [sortByKey_eq_of_perm id ha fun _ _ _ _ h => h, sortByKey_eq_of_perm id hb fun _ _ _ _ h => h]

/-! ## Times by key -/

section TimesByKey

variable {α : Type} {key : α → String} {time : α → Int}

theorem lookup_timesByKey (key : α → String) (time : α → Int) (items : List α) (k : String) :
    ((timesByKey key time items).lookup k).getD [] =
      (items.filter fun x => key x == k).map time := by
  unfold timesByKey
  suffices hFrom : ∀ times : HashMap (List Int),
      ((items.foldl (fun times x => times.insert (key x)
        ((times.lookup (key x)).getD [] ++ [time x])) times).lookup k).getD [] =
        (times.lookup k).getD [] ++ (items.filter fun x => key x == k).map time from hFrom ∅
  induction items with
  | nil => exact fun times => (List.append_nil _).symm
  | cons x items ih =>
    intro times
    rw [List.foldl_cons, ih]
    by_cases hKey : key x = k
    · rw [List.filter_cons_of_pos (by rw [hKey]; exact beq_self_eq_true k), List.map_cons,
        ← hKey, AList.lookup_insert, Option.getD_some, List.append_assoc]
      rfl
    · rw [List.filter_cons_of_neg (by rw [beq_iff_eq]; exact hKey),
        AList.lookup_insert_ne (Ne.symm hKey)]

theorem mem_keys_timesByKey (key : α → String) (time : α → Int) {items : List α} {k : String} :
    k ∈ (timesByKey key time items).keys ↔ ∃ x ∈ items, key x = k := by
  unfold timesByKey
  suffices hFrom : ∀ times : HashMap (List Int),
      k ∈ (items.foldl (fun times x => times.insert (key x)
        ((times.lookup (key x)).getD [] ++ [time x])) times).keys ↔
        k ∈ times.keys ∨ ∃ x ∈ items, key x = k by
    rw [hFrom ∅]
    exact or_iff_right List.not_mem_nil
  induction items with
  | nil => exact fun times => (or_iff_left fun ⟨_, h, _⟩ => List.not_mem_nil h).symm
  | cons x items ih =>
    intro times
    rw [List.foldl_cons, ih, ← AList.mem_keys, AList.mem_insert, ← AList.mem_keys,
      List.exists_mem_cons_iff, or_assoc, eq_comm, or_left_comm]

/-- The items under each key are together all of them. -/
theorem flatMap_filter_perm {keys : List String} (hNodup : keys.Nodup) {items : List α}
    (hKeys : ∀ x ∈ items, key x ∈ keys) :
    (keys.flatMap fun k => items.filter fun x => key x == k).Perm items := by
  induction keys generalizing items with
  | nil =>
    rcases items with - | ⟨x, items⟩
    · exact .refl _
    · exact absurd (hKeys x List.mem_cons_self) List.not_mem_nil
  | cons k keys ih =>
    obtain ⟨hNotIn, hRest⟩ := List.nodup_cons.mp hNodup
    -- the other keys find the same without the items of this one
    have hOthers : keys.flatMap (fun k' => items.filter fun x => key x == k') =
        keys.flatMap fun k' =>
          (items.filter fun x => !(key x == k)).filter fun x => key x == k' := by
      refine List.flatMap_congr fun k' hk' => ?_
      rw [List.filter_filter]
      refine List.filter_congr fun x _ => ?_
      by_cases hKey : key x = k'
      · have hNe : key x ≠ k := fun h => hNotIn (h ▸ hKey ▸ hk')
        rw [beq_iff_eq.mpr hKey, beq_eq_false_iff_ne.mpr hNe]
        rfl
      · rw [beq_eq_false_iff_ne.mpr hKey, Bool.false_and]
    rw [List.flatMap_cons, hOthers]
    refine ((ih hRest fun x hx => ?_).append_left _).trans
      (List.filter_append_perm (fun x => key x == k) items)
    obtain ⟨hx, hNe⟩ := List.mem_filter.mp hx
    refine (List.mem_cons.mp (hKeys x hx)).resolve_left fun h => ?_
    rw [beq_iff_eq.mpr h] at hNe
    cases hNe

/-- The boundaries inside the day that are under some key are those of all items. -/
theorem keepInterior_perm {keys : List String} (hNodup : keys.Nodup) {items : List α}
    (hKeys : ∀ x ∈ items, key x ∈ keys) (time : α → Int) (dayStartMs dayEndMs tolMs : Int) :
    (keys.flatMap fun k => keepInterior (((timesByKey key time items).lookup k).getD [])
      dayStartMs dayEndMs tolMs).Perm (keepInterior (items.map time) dayStartMs dayEndMs tolMs) := by
  rw [List.flatMap_congr fun k _ => by rw [lookup_timesByKey]]
  unfold keepInterior
  rw [← List.filter_flatMap, ← List.map_flatMap]
  exact ((flatMap_filter_perm hNodup hKeys).map time).filter _

end TimesByKey

/-! ## The two scores -/

theorem foldl_add (score : String → BoundaryScore) (keys : List String) :
    ∀ b : BoundaryScore, keys.foldl (fun b k => b.add (score k)) b =
      b.add ⟨(keys.map fun k => (score k).predicted).sum, (keys.map fun k => (score k).labeled).sum,
        (keys.map fun k => (score k).matched).sum⟩ := by
  induction keys with
  | nil => exact fun b => rfl
  | cons k keys ih =>
    intro b
    rw [List.foldl_cons, ih]
    unfold BoundaryScore.add
    simp only [List.map_cons, List.sum_cons, Nat.add_assoc]

/-- What scoring by identity changes. -/
structure PartitionLaw (pooled partitioned : DayScore) : Prop where
  predicted : partitioned.boundaries.predicted = pooled.boundaries.predicted
  labeled : partitioned.boundaries.labeled = pooled.boundaries.labeled
  matched : partitioned.boundaries.matched ≤ pooled.boundaries.matched

theorem partition_law (date : String) (spans : List SessionSpan) (labels : List ResolvedLabel)
    (dayStartMs dayEndMs tolMs : Int) :
    PartitionLaw (scoreDay date spans labels dayStartMs dayEndMs tolMs)
      (scoreDayPartitioned date spans labels dayStartMs dayEndMs tolMs) := by
  obtain ⟨keys, hKeys⟩ : ∃ keys, keys = sortByKey id
      ((timesByKey SessionSpan.partitionKey SessionSpan.startMs spans).keys ++
        (timesByKey ResolvedLabel.partitionKey ResolvedLabel.startMs labels).keys ++
        (timesByKey SessionSpan.partitionKey SessionSpan.endMs spans).keys ++
        (timesByKey ResolvedLabel.partitionKey ResolvedLabel.endMs labels).keys).eraseDups :=
    ⟨_, rfl⟩
  have hNodup : keys.Nodup := hKeys ▸ (sortByKey_perm id _).nodup_iff.mpr (nodup_eraseDups _)
  have hSpans : ∀ s ∈ spans, s.partitionKey ∈ keys := by
    intro s hs
    rw [hKeys, mem_sortByKey, List.mem_eraseDups]
    have hKey := (mem_keys_timesByKey SessionSpan.partitionKey SessionSpan.startMs).mpr ⟨s, hs, rfl⟩
    exact List.mem_append_left _ (List.mem_append_left _ (List.mem_append_left _ hKey))
  have hLabels : ∀ l ∈ labels, l.partitionKey ∈ keys := by
    intro l hl
    rw [hKeys, mem_sortByKey, List.mem_eraseDups]
    have hKey :=
      (mem_keys_timesByKey ResolvedLabel.partitionKey ResolvedLabel.endMs).mpr ⟨l, hl, rfl⟩
    exact List.mem_append_right _ hKey
  have hPredStarts := keepInterior_perm hNodup hSpans SessionSpan.startMs dayStartMs dayEndMs tolMs
  have hPredEnds := keepInterior_perm hNodup hSpans SessionSpan.endMs dayStartMs dayEndMs tolMs
  have hLabStarts :=
    keepInterior_perm hNodup hLabels ResolvedLabel.startMs dayStartMs dayEndMs tolMs
  have hLabEnds := keepInterior_perm hNodup hLabels ResolvedLabel.endMs dayStartMs dayEndMs tolMs
  unfold scoreDayPartitioned scoreDay
  dsimp only
  rw [← hKeys, foldl_add]
  refine ⟨?_, ?_, ?_⟩
  · show 0 + (keys.map fun k => _ + _).sum = _ + _
    rw [Nat.zero_add, List.sum_map_add, ← List.length_flatMap, ← List.length_flatMap,
      hPredStarts.length_eq, hPredEnds.length_eq]
  · show 0 + (keys.map fun k => _ + _).sum = _ + _
    rw [Nat.zero_add, List.sum_map_add, ← List.length_flatMap, ← List.length_flatMap,
      hLabStarts.length_eq, hLabEnds.length_eq]
  · show 0 + (keys.map fun k => _ + _).sum ≤ _ + _
    rw [Nat.zero_add, List.sum_map_add]
    refine Nat.add_le_add ((sum_optimalMatch_le keys _ _ tolMs).trans ?_)
      ((sum_optimalMatch_le keys _ _ tolMs).trans ?_)
    · exact (optimalMatch_congr hPredStarts hLabStarts tolMs).le
    · exact (optimalMatch_congr hPredEnds hLabEnds tolMs).le

/-- The match is greatest, and scoring by identity keeps the totals and adds no match. -/
theorem scoring_law :
    (∀ (a b : List Int) (tolMs : Int),
      IsGreatest {n | ∃ m : Pairing (Within tolMs) a b, m.size = n} (optimalMatch a b tolMs)) ∧
    ∀ (date : String) (spans : List SessionSpan) (labels : List ResolvedLabel)
      (dayStartMs dayEndMs tolMs : Int),
      PartitionLaw (scoreDay date spans labels dayStartMs dayEndMs tolMs)
        (scoreDayPartitioned date spans labels dayStartMs dayEndMs tolMs) :=
  ⟨optimalMatch_greatest, partition_law⟩

end ScreenSearch.Harness
