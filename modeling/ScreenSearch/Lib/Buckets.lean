import Mathlib.Algebra.BigOperators.Group.List.Lemmas
import Mathlib.Algebra.GroupWithZero.Nat
import Mathlib.Data.List.Dedup
import Mathlib.Data.List.Induction
import ScreenSearch.Lib.Sort

/-!
# Buckets of one width

A line of integers is cut from `start` on into buckets of one width, and points are counted by
bucket: over all points at once, or point by point in a map that is kept in order.

Main results:

* `slot_iff` — a point has a bucket's number exactly when it lies in it;
* `tally_eq` — both ways to count agree;
* `sum_counts` — every point is counted once.
-/

namespace Buckets

open Sorting

/-! ## Slots -/

/-- The number of a point's bucket. -/
def slot (start width t : Int) : Int := (t - start) / width

theorem slot_iff {start width t b : Int} (hWidth : 0 < width) :
    slot start width t = b ↔ start + b * width ≤ t ∧ t < start + b * width + width := by
  unfold slot
  rw [Int.ediv_eq_iff_of_pos hWidth]
  constructor <;> rintro ⟨h, h'⟩ <;> constructor <;> omega

theorem slot_nonneg {start width t : Int} (hWidth : 0 < width) (h : start ≤ t) :
    0 ≤ slot start width t :=
  Int.ediv_nonneg (by omega) (Int.le_of_lt hWidth)

/-- Enough buckets of enough width hold every point. -/
theorem slot_lt {start stop width count t : Int} (hWidth : 0 < width)
    (hCovers : stop - start ≤ count * width) (h : t < stop) : slot start width t < count := by
  unfold slot
  rw [Int.ediv_lt_iff_lt_mul hWidth]
  omega

/-! ## Keys -/

/-- The numbers that occur, in order. -/
def keysOf (bs : List Int) : List Int := (sortByKey id bs).dedup

@[simp] theorem mem_keysOf {bs : List Int} {k : Int} : k ∈ keysOf bs ↔ k ∈ bs := by
  rw [keysOf, List.mem_dedup, mem_sortByKey]

theorem keysOf_nodup (bs : List Int) : (keysOf bs).Nodup := List.nodup_dedup _

theorem keysOf_pairwise (bs : List Int) : (keysOf bs).Pairwise (· < ·) := by
  have hLe : (keysOf bs).Pairwise (· ≤ ·) :=
    (sortByKey_pairwise id bs).sublist (List.dedup_sublist _)
  refine (hLe.and (keysOf_nodup bs)).imp fun {a b} h => ?_
  exact lt_of_le_of_ne h.1 h.2

/-- Numbers in order are told by which they are. -/
theorem eq_of_mem_iff {l l' : List Int} (h : l.Pairwise (· < ·)) (h' : l'.Pairwise (· < ·))
    (hMem : ∀ k, k ∈ l ↔ k ∈ l') : l = l' := by
  have hPerm : l.Perm l' :=
    (List.perm_ext_iff_of_nodup (h.imp ne_of_lt) (h'.imp ne_of_lt)).mpr hMem
  exact hPerm.eq_of_pairwise (fun _ _ _ _ hab hba => absurd hab (lt_asymm hba)) h h'

/-- Every point is counted once. -/
theorem sum_counts (bs : List Int) : ((keysOf bs).map bs.count).sum = bs.length := by
  have hPerm : (keysOf bs).Perm bs.dedup :=
    (List.perm_ext_iff_of_nodup (keysOf_nodup bs) bs.nodup_dedup).mpr fun k => by
      rw [mem_keysOf, List.mem_dedup]
  rw [(hPerm.map bs.count).sum_eq, List.sum_map_count_dedup_eq_length]

/-! ## Counting point by point -/

/-- One point more in a map kept in order; a count does not pass `cap`. -/
def bump (cap : Nat) (b : Int) : List (Int × Nat) → List (Int × Nat)
  | [] => [(b, min 1 cap)]
  | (k, c) :: rest =>
    if b < k then (b, min 1 cap) :: (k, c) :: rest
    else if b = k then (k, min (c + 1) cap) :: rest
    else (k, c) :: bump cap b rest

def tally (cap : Nat) (bs : List Int) : List (Int × Nat) :=
  bs.foldl (fun m b => bump cap b m) []

/-- The keys of such a map with one more. -/
def place (b : Int) : List Int → List Int
  | [] => [b]
  | k :: ks => if b < k then b :: k :: ks else if b = k then k :: ks else k :: place b ks

theorem mem_place {b k : Int} {ks : List Int} : k ∈ place b ks ↔ k = b ∨ k ∈ ks := by
  induction ks with
  | nil => exact List.mem_singleton.trans (or_iff_left List.not_mem_nil).symm
  | cons k' ks ih =>
    rw [place]
    split
    · exact List.mem_cons
    · split
      · next hEq =>
        rw [hEq, List.mem_cons]
        exact (or_iff_right_of_imp .inl).symm
      · rw [List.mem_cons, ih, List.mem_cons]
        exact or_left_comm

theorem place_pairwise {b : Int} {ks : List Int} (h : ks.Pairwise (· < ·)) :
    (place b ks).Pairwise (· < ·) := by
  induction ks with
  | nil => exact List.pairwise_singleton _ _
  | cons k ks ih =>
    obtain ⟨hHead, hTail⟩ := List.pairwise_cons.mp h
    rw [place]
    split
    · next hLt =>
      refine List.pairwise_cons.mpr ⟨fun x hx => ?_, h⟩
      rcases List.mem_cons.mp hx with rfl | hx
      · exact hLt
      · exact lt_trans hLt (hHead x hx)
    · split
      · exact h
      · refine List.pairwise_cons.mpr ⟨fun x hx => ?_, ih hTail⟩
        rcases mem_place.mp hx with rfl | hx
        · omega
        · exact hHead x hx

theorem bump_map {cap : Nat} {b : Int} {ks : List Int} {g g' : Int → Nat}
    (h : ks.Pairwise (· < ·)) (hAt : g' b = g b + 1) (hElse : ∀ k, k ≠ b → g' k = g k)
    (hAbsent : b ∉ ks → g b = 0) :
    bump cap b (ks.map fun k => (k, min (g k) cap)) =
      (place b ks).map fun k => (k, min (g' k) cap) := by
  induction ks with
  | nil =>
    rw [List.map_nil, bump, place, List.map_singleton, hAt, hAbsent List.not_mem_nil]
  | cons k ks ih =>
    obtain ⟨hHead, hTail⟩ := List.pairwise_cons.mp h
    have hKept : ∀ {l : List Int}, (∀ x ∈ l, x ≠ b) →
        (l.map fun k => (k, min (g k) cap)) = l.map fun k => (k, min (g' k) cap) :=
      fun hl => List.map_congr_left fun x hx => by rw [hElse x (hl x hx)]
    rw [List.map_cons, bump, place]
    split
    · next hLt =>
      -- a new key, before all others
      have hLater : ∀ x ∈ k :: ks, b < x := by
        intro x hx
        rcases List.mem_cons.mp hx with rfl | hx
        · exact hLt
        · exact lt_trans hLt (hHead x hx)
      rw [List.map_cons, hAt, hAbsent fun hb => lt_irrefl b (hLater b hb), ← List.map_cons
        (f := fun k => (k, min (g k) cap)), hKept fun x hx => (ne_of_lt (hLater x hx)).symm]
    · split
      · next hEq =>
        subst hEq
        rw [List.map_cons, hAt, hKept fun x hx => (ne_of_lt (hHead x hx)).symm]
        congr 2
        omega
      · next hNot hNe =>
        have hRest := ih hTail fun hb =>
          hAbsent fun hMem => hb ((List.mem_cons.mp hMem).resolve_left hNe)
        rw [List.map_cons, hRest, hElse k (Ne.symm hNe)]

/-- **Counting.** The map holds the numbers that occur, with how often they do. -/
theorem tally_eq (cap : Nat) (bs : List Int) :
    tally cap bs = (keysOf bs).map fun k => (k, min (bs.count k) cap) := by
  induction bs using List.reverseRecOn with
  | nil => rfl
  | append_singleton bs b ih =>
    have hKeys : keysOf (bs ++ [b]) = place b (keysOf bs) := by
      refine eq_of_mem_iff (keysOf_pairwise _) (place_pairwise (keysOf_pairwise _)) fun k => ?_
      rw [mem_keysOf, mem_place, mem_keysOf, List.mem_append, List.mem_singleton]
      exact or_comm
    have hStep : tally cap (bs ++ [b]) = bump cap b (tally cap bs) := List.foldl_concat ..
    rw [hStep, ih, hKeys]
    refine bump_map (keysOf_pairwise _) ?_ (fun k hNe => ?_) fun hAbsent => ?_
    · rw [List.count_append, List.count_singleton_self]
    · rw [List.count_append, List.count_singleton, if_neg (by simpa using Ne.symm hNe)]
      rfl
    · exact List.count_eq_zero.mpr fun hb => hAbsent (mem_keysOf.mpr hb)

end Buckets
