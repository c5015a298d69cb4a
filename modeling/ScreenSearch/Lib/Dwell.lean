import Mathlib.Data.List.Induction
import Mathlib.Data.List.Pairwise
import Mathlib.Order.Defs.LinearOrder
import Mathlib.Order.Lattice

/-!
# Dwell timers

A machine watches samples and acts once a condition has held for long enough. The timer of the
condition starts at the first sample it holds at, is cleared by one it does not hold at, and starts
again at a sample where the machine has acted. A timer is a function of the samples seen, and says
since when the condition has held with no action in between.

Main results:

* `since_concat` — what one more sample does to that;
* `timer_spec` — the timer shows the earliest sample since which the condition has held;
* `elapsed_iff` — so it has run long enough exactly if the condition has held for long enough.
-/

namespace Dwell

variable {ρ τ : Type} {holds acted : ρ → Bool} {time : ρ → τ}
  {past : List ρ} {x first : ρ}

/-- In `past` the condition has held since `first`, with no action after it. -/
def Since (holds acted : ρ → Bool) (past : List ρ) (first : ρ) : Prop :=
  ∃ older later, past = older ++ first :: later ∧ (∀ y ∈ first :: later, holds y = true) ∧
    ∀ y ∈ later, acted y = false

def tick (holds acted : ρ → Bool) (time : ρ → τ) (timer : Option τ) (x : ρ) : Option τ :=
  if holds x then
    if acted x then some (time x) else some (timer.getD (time x))
  else none

/-- The timer after the samples seen. -/
def timer (holds acted : ρ → Bool) (time : ρ → τ) (past : List ρ) : Option τ :=
  past.foldl (tick holds acted time) none

theorem timer_concat (past : List ρ) (x : ρ) :
    timer holds acted time (past ++ [x]) =
      tick holds acted time (timer holds acted time past) x := by
  rw [timer, List.foldl_append]
  rfl

theorem Since.mem (h : Since holds acted past first) : first ∈ past := by
  obtain ⟨older, later, rfl, -, -⟩ := h
  exact List.mem_append_right _ List.mem_cons_self

theorem not_since_nil : ¬ Since holds acted [] first := fun h => List.not_mem_nil h.mem

/-- One more sample: it may be the first, or the condition goes on without an action. -/
theorem since_concat : Since holds acted (past ++ [x]) first ↔
    holds x = true ∧ (first = x ∨ acted x = false ∧ Since holds acted past first) := by
  constructor
  · rintro ⟨older, later, hSplit, hHolds, hActed⟩
    rcases List.eq_nil_or_concat later with rfl | ⟨front, last, rfl⟩
    · obtain ⟨-, hLast⟩ := List.append_inj' hSplit rfl
      cases hLast
      exact ⟨hHolds x List.mem_cons_self, Or.inl rfl⟩
    · rw [List.concat_eq_append, ← List.cons_append, ← List.append_assoc] at hSplit
      obtain ⟨rfl, hLast⟩ := List.append_inj' hSplit rfl
      cases hLast
      rw [List.concat_eq_append] at hHolds hActed
      have hIn : x ∈ front ++ [x] := List.mem_append_right _ List.mem_cons_self
      refine ⟨hHolds x (List.mem_cons_of_mem _ hIn), Or.inr ⟨hActed x hIn, older, front, rfl, ?_, ?_⟩⟩
      · exact fun y hy => hHolds y (List.mem_append_left [x] hy)
      · exact fun y hy => hActed y (List.mem_append_left _ hy)
  · rintro ⟨hx, rfl | ⟨hNot, older, later, rfl, hHolds, hActed⟩⟩
    · refine ⟨past, [], rfl, fun y hy => ?_, nofun⟩
      rw [List.mem_singleton.mp hy]
      exact hx
    · refine ⟨older, later ++ [x], List.append_assoc _ _ _, fun y hy => ?_, fun y hy => ?_⟩
      · rcases List.mem_append.mp (List.cons_append ▸ hy : y ∈ (first :: later) ++ [x]) with h | h
        · exact hHolds y h
        · rw [List.mem_singleton.mp h]
          exact hx
      · rcases List.mem_append.mp hy with h | h
        · exact hActed y h
        · rw [List.mem_singleton.mp h]
          exact hNot

variable [LinearOrder τ]

/-- The timer shows the earliest sample since which the condition has held, if there is one. -/
theorem timer_spec (holds acted : ρ → Bool) (hTimes : past.Pairwise fun a b => time a ≤ time b) :
    match timer holds acted time past with
    | none => ∀ first, ¬ Since holds acted past first
    | some t => (∃ first, Since holds acted past first ∧ time first = t) ∧
        ∀ first, Since holds acted past first → t ≤ time first := by
  induction past using List.reverseRecOn with
  | nil => exact fun first => not_since_nil
  | append_singleton past x ih =>
    obtain ⟨hPast, -, hLast⟩ := List.pairwise_append.mp hTimes
    have hBefore : ∀ first, Since holds acted past first → time first ≤ time x :=
      fun first h => hLast first h.mem x List.mem_cons_self
    specialize ih hPast
    rw [timer_concat, tick]
    by_cases hx : holds x = true
    · rw [if_pos hx]
      have hNew : Since holds acted (past ++ [x]) x := since_concat.mpr ⟨hx, Or.inl rfl⟩
      by_cases hActed : acted x = true
      · -- the timer starts again
        rw [if_pos hActed]
        refine ⟨⟨x, hNew, rfl⟩, fun first h => ?_⟩
        rcases (since_concat.mp h).2 with rfl | ⟨hNot, -⟩
        · exact le_refl _
        · rw [hActed] at hNot
          cases hNot
      · have hNot : acted x = false := Bool.eq_false_iff.mpr hActed
        rw [if_neg hActed]
        rcases hTimer : timer holds acted time past with _ | t
        · rw [hTimer] at ih
          refine ⟨⟨x, hNew, rfl⟩, fun first h => ?_⟩
          rcases (since_concat.mp h).2 with rfl | ⟨-, hOlder⟩
          · exact le_refl _
          · exact absurd hOlder (ih first)
        · rw [hTimer] at ih
          obtain ⟨⟨first, hFirst, hTime⟩, hEarliest⟩ := ih
          refine ⟨⟨first, since_concat.mpr ⟨hx, Or.inr ⟨hNot, hFirst⟩⟩, hTime⟩, fun other h => ?_⟩
          rcases (since_concat.mp h).2 with rfl | ⟨-, hOlder⟩
          · exact hTime ▸ hBefore first hFirst
          · exact hEarliest other hOlder
    · rw [if_neg hx]
      exact fun first h => hx (since_concat.mp h).1

/-- Whether a timer that is read at the sample `x` has run for long enough. -/
theorem elapsed_iff (holds acted : ρ → Bool) {Enough : τ → Prop}
    (hEnough : ∀ s t, s ≤ t → Enough t → Enough s)
    (hTimes : (past ++ [x]).Pairwise fun a b => time a ≤ time b) :
    Enough ((timer holds acted time past).getD (time x)) ↔
      ∃ first, (first = x ∨ Since holds acted past first) ∧ Enough (time first) := by
  obtain ⟨hPast, -, hLast⟩ := List.pairwise_append.mp hTimes
  have hSpec := timer_spec holds acted hPast
  generalize timer holds acted time past = running at hSpec ⊢
  rcases running with _ | t
  · constructor
    · exact fun h => ⟨x, Or.inl rfl, h⟩
    · rintro ⟨first, rfl | hSince, h⟩
      · exact h
      · exact absurd hSince (hSpec first)
  · obtain ⟨⟨first, hFirst, hTime⟩, hEarliest⟩ := hSpec
    constructor
    · exact fun h => ⟨first, Or.inr hFirst, hTime ▸ h⟩
    · rintro ⟨other, rfl | hSince, h⟩
      · exact hEnough _ _ (hTime ▸ hLast first hFirst.mem other List.mem_cons_self) h
      · exact hEnough _ _ (hEarliest other hSince) h

end Dwell
