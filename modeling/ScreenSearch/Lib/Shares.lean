import Mathlib.Algebra.GroupWithZero.Nat
import Mathlib.Algebra.Order.BigOperators.Group.List
import Mathlib.Algebra.Order.Group.Nat

/-!
# Shares of a resource

Every task of a list holds some units of a resource, and a task at a time changes what it
holds.

* `total_set` — what the change of one task does to the total;
* `share_add_le` — two tasks together hold no more than all;
* `others_hold_none` — if one holds all there is, no other holds any.
-/

namespace Shares

variable {τ : Type*} {share : τ → Nat} {tasks : List τ} {i j : Nat} {a b : τ}

def total (share : τ → Nat) (tasks : List τ) : Nat := (tasks.map share).sum

theorem total_append (share : τ → Nat) (tasks : List τ) (a : τ) :
    total share (tasks ++ [a]) = total share tasks + share a := by
  unfold total
  rw [List.map_append, List.sum_append]
  simp

theorem total_set (share : τ → Nat) (h : tasks[i]? = some a) (b : τ) :
    total share (tasks.set i b) + share a = total share tasks + share b := by
  unfold total
  induction tasks generalizing i with
  | nil => cases h
  | cons x rest ih =>
    rcases i with - | i
    · cases h
      simp only [List.set_cons_zero, List.map_cons, List.sum_cons]
      omega
    · have := ih (i := i) h
      simp only [List.set_cons_succ, List.map_cons, List.sum_cons]
      omega

theorem share_le (share : τ → Nat) (h : tasks[i]? = some a) : share a ≤ total share tasks :=
  List.single_le_sum (fun _ _ => Nat.zero_le _) _
    (List.mem_map_of_mem (List.mem_of_getElem? h))

theorem share_add_le (share : τ → Nat) (hi : tasks[i]? = some a) (hj : tasks[j]? = some b)
    (hNe : i ≠ j) : share a + share b ≤ total share tasks := by
  unfold total
  induction tasks generalizing i j with
  | nil => cases hi
  | cons x rest ih =>
    rw [List.map_cons, List.sum_cons]
    rcases i with - | i <;> rcases j with - | j
    · exact absurd rfl hNe
    · cases hi
      have := @share_le _ rest j b share hj
      unfold total at this
      omega
    · cases hj
      have := @share_le _ rest i a share hi
      unfold total at this
      omega
    · have := ih (i := i) (j := j) hi hj (fun hSame => hNe (congrArg (· + 1) hSame))
      omega

theorem others_hold_none (share : τ → Nat) (hAll : total share tasks ≤ share a) (hi : tasks[i]? = some a)
    (hj : tasks[j]? = some b) (hNe : i ≠ j) : share b = 0 := by
  have := share_add_le share hi hj hNe
  omega

theorem total_eq_zero (share : τ → Nat) (h : total share tasks = 0) (hi : tasks[i]? = some a) : share a = 0 := by
  have := share_le share hi
  omega

end Shares
