import Mathlib.Algebra.Order.BigOperators.Group.List
import Mathlib.Algebra.Order.Field.Rat
import Mathlib.Tactic.GCongr
import Mathlib.Tactic.Positivity
import ScreenSearch.Lib.Sort

/-!
# Rankings

A ranking is a list without repetitions, best first. It comes from a list in which an entry may
stand several times, of which the first one counts. Several rankings are fused by the sum of the
reciprocals of an entry's places.

Main results:

* `eraseDups_concat`, `eraseDups_prefix` — first occurrences, as a list grows;
* `take_eq_of_prefix` — a beginning of a ranking that is long enough has its best;
* `fusedScore_mono` — what is placed as high as another in every ranking does not score less;
* `best_complete` — what is not among the `n` best comes after all of them.
-/

namespace Ranking

variable {α : Type} [DecidableEq α] {l front all : List α}

theorem eraseDups_concat (l : List α) (x : α) :
    (l ++ [x]).eraseDups = if x ∈ l then l.eraseDups else l.eraseDups ++ [x] := by
  rw [List.eraseDups_append]
  split
  · next hKnown => simp [List.removeAll, hKnown]
  · next hNew => simp [List.removeAll, hNew, List.eraseDups_cons]

theorem eraseDups_prefix (l r : List α) : l.eraseDups <+: (l ++ r).eraseDups := by
  rw [List.eraseDups_append]
  exact List.prefix_append _ _

omit [DecidableEq α] in
/-- A beginning that is long enough, as far as `n` goes. -/
theorem take_eq_of_prefix {n : Nat} (hPrefix : front <+: all)
    (h : n ≤ front.length ∨ all.length ≤ front.length) : front.take n = all.take n := by
  obtain ⟨rest, rfl⟩ := hPrefix
  rcases h with hPool | hAll
  · rw [List.take_append_of_le_length hPool]
  · rw [List.length_append] at hAll
    rw [List.eq_nil_of_length_eq_zero (by omega : rest.length = 0), List.append_nil]

/-! ## Reciprocal ranks -/

/-- The share of a place, counted from zero. -/
def reciprocal (damping : ℚ) (rank : Nat) : ℚ := 1 / (damping + (rank + 1 : Nat))

/-- The shares of all places at which `x` stands. -/
def armScore (damping : ℚ) (arm : List α) (x : α) : ℚ :=
  ((arm.zipIdx.filter fun e => e.1 = x).map fun e => reciprocal damping e.2).sum

def fusedScore (damping : ℚ) (arms : List (List α)) (x : α) : ℚ :=
  (arms.map fun arm => armScore damping arm x).sum

variable {damping : ℚ} {arm : List α} {arms : List (List α)} {x a b : α}

theorem reciprocal_pos (hDamping : 0 ≤ damping) (rank : Nat) : 0 < reciprocal damping rank := by
  unfold reciprocal
  positivity

theorem reciprocal_anti (hDamping : 0 ≤ damping) {m n : Nat} (h : m ≤ n) :
    reciprocal damping n ≤ reciprocal damping m := by
  unfold reciprocal
  gcongr

theorem armScore_of_not_mem (h : x ∉ arm) : armScore damping arm x = 0 := by
  have hNone : arm.zipIdx.filter (fun e => e.1 = x) = [] := by
    rw [List.filter_eq_nil_iff]
    intro e he hSame
    exact h (of_decide_eq_true hSame ▸ List.fst_mem_of_mem_zipIdx he)
  rw [armScore, hNone]
  rfl

theorem filter_zipIdx (hArm : arm.Nodup) (h : x ∈ arm) (n : Nat) :
    (arm.zipIdx n).filter (fun e => e.1 = x) = [(x, n + arm.idxOf x)] := by
  induction arm generalizing n with
  | nil => cases h
  | cons y arm ih =>
    obtain ⟨hNew, hRest⟩ := List.nodup_cons.mp hArm
    rw [List.zipIdx_cons]
    by_cases hHere : y = x
    · subst hHere
      have hNone : (arm.zipIdx (n + 1)).filter (fun e => e.1 = y) = [] := by
        rw [List.filter_eq_nil_iff]
        intro e he hSame
        exact hNew (of_decide_eq_true hSame ▸ List.fst_mem_of_mem_zipIdx he)
      rw [List.filter_cons_of_pos (by simp), hNone, List.idxOf_cons_self]
      rfl
    · have hLater : x ∈ arm := (List.mem_cons.mp h).resolve_left (Ne.symm hHere)
      rw [List.filter_cons_of_neg (by simpa using hHere), ih hRest hLater,
        List.idxOf_cons_ne _ hHere, Nat.succ_eq_add_one, Nat.add_assoc, Nat.add_comm 1]

/-- An entry of a ranking has one place. -/
theorem armScore_of_mem (hArm : arm.Nodup) (h : x ∈ arm) :
    armScore damping arm x = reciprocal damping (arm.idxOf x) := by
  rw [armScore, filter_zipIdx hArm h 0, Nat.zero_add]
  exact add_zero _

theorem armScore_nonneg (hDamping : 0 ≤ damping) : 0 ≤ armScore damping arm x := by
  refine List.sum_nonneg fun share hShare => ?_
  obtain ⟨e, -, rfl⟩ := List.mem_map.mp hShare
  exact (reciprocal_pos hDamping _).le

/-- Whatever is placed as high as another in every ranking that lists it does not score less. -/
theorem fusedScore_mono (hDamping : 0 ≤ damping) (hArms : ∀ arm ∈ arms, arm.Nodup)
    (h : ∀ arm ∈ arms, b ∈ arm → a ∈ arm ∧ arm.idxOf a ≤ arm.idxOf b) :
    fusedScore damping arms b ≤ fusedScore damping arms a := by
  refine List.sum_le_sum fun arm hArm => ?_
  by_cases hb : b ∈ arm
  · obtain ⟨ha, hPlace⟩ := h arm hArm hb
    rw [armScore_of_mem (hArms arm hArm) hb, armScore_of_mem (hArms arm hArm) ha]
    exact reciprocal_anti hDamping hPlace
  · rw [armScore_of_not_mem hb]
    exact armScore_nonneg hDamping

theorem fusedScore_pos (hDamping : 0 ≤ damping) (hArms : ∀ arm ∈ arms, arm.Nodup)
    (h : ∃ arm ∈ arms, x ∈ arm) : 0 < fusedScore damping arms x := by
  obtain ⟨arm, hArm, hx⟩ := h
  refine lt_of_lt_of_le ?_ (List.single_le_sum (l := arms.map fun arm => armScore damping arm x)
    ?_ _ (List.mem_map_of_mem hArm))
  · rw [armScore_of_mem (hArms arm hArm) hx]
    exact reciprocal_pos hDamping _
  · intro share hShare
    obtain ⟨arm, -, rfl⟩ := List.mem_map.mp hShare
    exact armScore_nonneg hDamping

theorem fusedScore_of_not_mem (h : ∀ arm ∈ arms, x ∉ arm) : fusedScore damping arms x = 0 := by
  refine List.sum_eq_zero fun share hShare => ?_
  obtain ⟨arm, hArm, rfl⟩ := List.mem_map.mp hShare
  exact armScore_of_not_mem (h arm hArm)

/-! ## The best -/

section

variable {α β : Type} [LinearOrder β] (key : α → β) {l : List α} {n : Nat}

/-- The `n` entries of least key, in its order. -/
def best (n : Nat) (l : List α) : List α := (Sorting.sortByKey key l).take n

theorem best_subset {x : α} (h : x ∈ best key n l) : x ∈ l :=
  (Sorting.mem_sortByKey key).mp (List.mem_of_mem_take h)

theorem best_length : (best key n l).length = min n l.length := by
  rw [best, List.length_take, (Sorting.sortByKey_perm key l).length_eq]

theorem best_nodup (h : l.Nodup) : (best key n l).Nodup :=
  ((Sorting.sortByKey_perm key l).nodup_iff.mpr h).sublist (List.take_sublist n _)

theorem best_pairwise : (best key n l).Pairwise fun a b => key a ≤ key b :=
  (Sorting.sortByKey_pairwise key l).sublist (List.take_sublist n _)

/-- Whatever is not among them comes after all of them, and there are `n`. -/
theorem best_complete {x : α} (h : x ∈ l) (hNot : x ∉ best key n l) :
    (best key n l).length = n ∧ ∀ y ∈ best key n l, key y ≤ key x := by
  have hSplit := List.take_append_drop n (Sorting.sortByKey key l)
  have hRest : x ∈ (Sorting.sortByKey key l).drop n := by
    have hIn : x ∈ Sorting.sortByKey key l := (Sorting.mem_sortByKey key).mpr h
    rw [← hSplit] at hIn
    exact (List.mem_append.mp hIn).resolve_left hNot
  have hOrder := Sorting.sortByKey_pairwise key l
  rw [← hSplit] at hOrder
  refine ⟨?_, fun y hy => (List.pairwise_append.mp hOrder).2.2 y hy x hRest⟩
  have hLonger : n < (Sorting.sortByKey key l).length := by
    by_contra hShort
    rw [List.drop_eq_nil_of_le (Nat.not_lt.mp hShort)] at hRest
    cases hRest
  rw [best, List.length_take]
  omega

end

end Ranking
