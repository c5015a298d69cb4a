import Mathlib.Data.List.Basic
import Mathlib.Order.Basic

/-!
# Leftmost non-overlapping matches

`hit` gives the size of the match that begins at a position, where one does. The
search goes from left to right and resumes behind each match it finds.

Main results:

* `mem_spans_iff` — the search finds the leftmost matches;
* `spans_pairwise`, `spans_covers` — they are apart from each other, and every other
  match begins inside one of them;
* `mem_replaceFrom` — replacing them copies exactly the positions outside.
-/

namespace Leftmost

variable (hit : Nat → Option Nat)

/-! ## Search -/

/-- The matches found at `left` positions from `position` on, none of them before `resume`. -/
def spansFrom : Nat → Nat → Nat → List (Nat × Nat)
  | 0, _, _ => []
  | left + 1, position, resume =>
    if position < resume then spansFrom left (position + 1) resume
    else
      match hit position with
      | some size =>
        (position, position + size) :: spansFrom left (position + 1) (position + size)
      | none => spansFrom left (position + 1) resume

def spans (total : Nat) : List (Nat × Nat) := spansFrom hit total 0 0

/-- The first match at or behind a position. -/
def FirstFrom (r s size : Nat) : Prop :=
  r ≤ s ∧ hit s = some size ∧ ∀ j, r ≤ j → j < s → hit j = none

/-- Where a search from left to right comes to look for the next match. -/
inductive Resumes : Nat → Prop
  | start : Resumes 0
  | after {r s size : Nat} : Resumes r → FirstFrom hit r s size → Resumes (s + size)

/-- One of the successive leftmost matches. -/
def IsLeftmost (s size : Nat) : Prop := ∃ r, Resumes hit r ∧ FirstFrom hit r s size

variable {hit} {left position resume total : Nat}

section

variable (hPos : ∀ s size, hit s = some size → 0 < size)

include hPos

theorem spansFrom_bounds : ∀ x ∈ spansFrom hit left position resume,
    position ≤ x.1 ∧ resume ≤ x.1 ∧ x.1 < x.2 := by
  induction left generalizing position resume with
  | zero => exact fun x hx => nomatch hx
  | succ left ih =>
    intro x hx
    rw [spansFrom] at hx
    split at hx
    · have := ih x hx
      omega
    · split at hx
      · rename_i size hHit
        have := hPos _ _ hHit
        rcases List.mem_cons.mp hx with rfl | hx
        · dsimp only
          omega
        · have := ih x hx
          omega
      · have := ih x hx
        omega

theorem spansFrom_pairwise :
    (spansFrom hit left position resume).Pairwise fun x y => x.2 ≤ y.1 := by
  induction left generalizing position resume with
  | zero => exact List.Pairwise.nil
  | succ left ih =>
    rw [spansFrom]
    split
    · exact ih
    · split
      · refine List.pairwise_cons.mpr ⟨?_, ih⟩
        intro y hy
        exact (spansFrom_bounds hPos y hy).2.1
      · exact ih

/-- A match at a position the search looks at begins inside one that is found. -/
theorem spansFrom_covers {i : Nat} (hFrom : position ≤ i) (hTo : i < position + left)
    (hResume : resume ≤ i) (hHit : (hit i).isSome) :
    ∃ x ∈ spansFrom hit left position resume, x.1 ≤ i ∧ i < x.2 := by
  induction left generalizing position resume with
  | zero => omega
  | succ left ih =>
    rw [spansFrom]
    split
    · exact ih (by omega) (by omega) hResume
    · split
      · rename_i size hHere
        have := hPos _ _ hHere
        by_cases hInside : i < position + size
        · exact ⟨_, List.mem_cons_self .., hFrom, hInside⟩
        · obtain ⟨x, hx, hIn⟩ : ∃ x ∈ spansFrom hit left (position + 1) (position + size),
              x.1 ≤ i ∧ i < x.2 := ih (by omega) (by omega) (by omega)
          exact ⟨x, List.mem_cons_of_mem _ hx, hIn⟩
      · rename_i hNone
        have hNot : i ≠ position := by
          rintro rfl
          rw [hNone] at hHit
          cases hHit
        exact ih (by omega) (by omega) hResume

theorem spansFrom_leftmost (hResumes : Resumes hit resume)
    (hNone : ∀ j, resume ≤ j → j < position → hit j = none) :
    ∀ x ∈ spansFrom hit left position resume,
      ∃ size, x.2 = x.1 + size ∧ IsLeftmost hit x.1 size := by
  induction left generalizing position resume with
  | zero => exact fun x hx => nomatch hx
  | succ left ih =>
    intro x hx
    rw [spansFrom] at hx
    split at hx
    · refine ih hResumes ?_ x hx
      intro j hFrom hTo
      omega
    · rename_i hHere
      split at hx
      · rename_i size hHit
        have hFirst : FirstFrom hit resume position size := ⟨Nat.not_lt.mp hHere, hHit, hNone⟩
        have := hPos _ _ hHit
        rcases List.mem_cons.mp hx with rfl | hx
        · exact ⟨size, rfl, resume, hResumes, hFirst⟩
        · refine ih (hResumes.after hFirst) ?_ x hx
          intro j hFrom hTo
          omega
      · rename_i hHit
        refine ih hResumes ?_ x hx
        intro j hFrom hTo
        rcases Nat.lt_succ_iff_lt_or_eq.mp hTo with hLess | rfl
        · exact hNone j hFrom hLess
        · exact hHit

theorem spans_pairwise : (spans hit total).Pairwise fun x y => x.2 ≤ y.1 := spansFrom_pairwise hPos

/-- Two matches found are the same, or one ends before the other begins. -/
theorem spans_apart {x y : Nat × Nat} (hx : x ∈ spans hit total) (hy : y ∈ spans hit total) :
    x = y ∨ x.2 ≤ y.1 ∨ y.2 ≤ x.1 := by
  have hPairs : (spans hit total).Pairwise fun x y => x.2 ≤ y.1 := spans_pairwise hPos
  exact List.Pairwise.forall_of_forall_of_flip (R := fun x y => x = y ∨ x.2 ≤ y.1 ∨ y.2 ≤ x.1)
    (fun _ _ => Or.inl rfl) (hPairs.imp fun h => Or.inr (Or.inl h))
    (hPairs.imp fun h => Or.inr (Or.inr h)) hx hy

section

variable (hBound : ∀ s size, hit s = some size → s < total)

include hBound

theorem spans_covers {i : Nat} (hHit : (hit i).isSome) :
    ∃ x ∈ spans hit total, x.1 ≤ i ∧ i < x.2 := by
  obtain ⟨size, hSize⟩ := Option.isSome_iff_exists.mp hHit
  have := hBound i size hSize
  exact spansFrom_covers hPos (Nat.zero_le _) (by omega) (Nat.zero_le _) hHit

/-- The first match behind a position that no found match reaches over is found. -/
theorem FirstFrom.found {r s size : Nat} (h : FirstFrom hit r s size)
    (hOutside : ∀ x ∈ spans hit total, x.2 ≤ r ∨ r ≤ x.1) : (s, s + size) ∈ spans hit total := by
  obtain ⟨hFrom, hHit, hNone⟩ := h
  obtain ⟨y, hy, hLow, hHigh⟩ := spans_covers hPos hBound (i := s) (by rw [hHit]; rfl)
  obtain ⟨size', hSize', -, -, -, hHit', -⟩ :=
    spansFrom_leftmost hPos Resumes.start (fun j _ h => absurd h (Nat.not_lt_zero j)) y hy
  -- the match that covers the first one behind `r` is that one
  have hStart : y.1 = s := by
    rcases hOutside y hy with hBefore | hAfter
    · omega
    · by_contra hNot
      rw [hNone y.1 hAfter (by omega)] at hHit'
      cases hHit'
  rw [hStart, hHit] at hHit'
  rw [hStart, ← Option.some.inj hHit'] at hSize'
  have hPair : y = (s, s + size) := Prod.ext hStart hSize'
  rwa [← hPair]

/-- The search never resumes inside a match it has found. -/
theorem Resumes.outside {r : Nat} (h : Resumes hit r) :
    ∀ x ∈ spans hit total, x.2 ≤ r ∨ r ≤ x.1 := by
  induction h with
  | start => exact fun x _ => Or.inr (Nat.zero_le _)
  | @after r s size hResumes hFirst ih =>
    have hFound := hFirst.found hPos hBound ih
    have := hPos _ _ hFirst.2.1
    intro x hx
    rcases spans_apart hPos hx hFound with rfl | hBefore | hAfter
    · exact Or.inl (Nat.le_refl _)
    · exact Or.inl (by omega)
    · exact Or.inr hAfter

theorem mem_spans_iff {s e : Nat} :
    (s, e) ∈ spans hit total ↔ ∃ size, e = s + size ∧ IsLeftmost hit s size := by
  constructor
  · intro h
    exact spansFrom_leftmost hPos Resumes.start (fun j _ h => absurd h (Nat.not_lt_zero j)) _ h
  · rintro ⟨size, rfl, r, hResumes, hFirst⟩
    exact hFirst.found hPos hBound (hResumes.outside hPos hBound)

end

end

/-! ## Replacement -/

variable {α : Type} (text replacement : List α)

/-- Elements with the positions they are copied from. -/
def copied (low high : Nat) : List (α × Option Nat) :=
  (List.range' low (high - low)).filterMap fun j => text[j]?.map fun c => (c, some j)

/-- The text behind `last` with a replacement for every match; what is copied knows where
from. -/
def replaceFrom (last : Nat) : List (Nat × Nat) → List (α × Option Nat)
  | [] => copied text last text.length
  | (s, e) :: rest =>
    copied text last s ++ replacement.map (fun c => (c, none)) ++ replaceFrom e rest

variable {text replacement}

theorem mem_copied {low high j : Nat} {c : α} :
    (c, some j) ∈ copied text low high ↔ text[j]? = some c ∧ low ≤ j ∧ j < high := by
  unfold copied
  rw [List.mem_filterMap]
  constructor
  · rintro ⟨i, hIn, hCopy⟩
    obtain ⟨d, hGet, hPair⟩ := Option.map_eq_some_iff.mp hCopy
    obtain ⟨rfl, hSame⟩ := Prod.mk.inj hPair
    obtain rfl := Option.some.inj hSame
    rw [List.mem_range'_1] at hIn
    exact ⟨hGet, hIn.1, by omega⟩
  · rintro ⟨hGet, hLow, hHigh⟩
    refine ⟨j, List.mem_range'_1.mpr ⟨hLow, by omega⟩, ?_⟩
    rw [hGet, Option.map_some]

/-- Exactly the positions outside the matches are copied. -/
theorem mem_replaceFrom {found : List (Nat × Nat)} {last j : Nat} {c : α}
    (hLast : ∀ x ∈ found, last ≤ x.1 ∧ x.1 ≤ x.2) (hApart : found.Pairwise fun x y => x.2 ≤ y.1) :
    (c, some j) ∈ replaceFrom text replacement last found ↔
      text[j]? = some c ∧ last ≤ j ∧ ∀ x ∈ found, ¬(x.1 ≤ j ∧ j < x.2) := by
  induction found generalizing last with
  | nil =>
    rw [replaceFrom, mem_copied]
    constructor
    · rintro ⟨hGet, hLow, -⟩
      exact ⟨hGet, hLow, by simp⟩
    · rintro ⟨hGet, hLow, -⟩
      exact ⟨hGet, hLow, (List.getElem?_eq_some_iff.mp hGet).1⟩
  | cons x found ih =>
    obtain ⟨s, e⟩ := x
    obtain ⟨hBehind, hRest⟩ := List.pairwise_cons.mp hApart
    have hHere := hLast (s, e) (List.mem_cons_self ..)
    have hTail : (c, some j) ∈ replaceFrom text replacement e found ↔
        text[j]? = some c ∧ e ≤ j ∧ ∀ y ∈ found, ¬(y.1 ≤ j ∧ j < y.2) :=
      ih (fun y hy => ⟨hBehind y hy, (hLast y (List.mem_cons_of_mem _ hy)).2⟩) hRest
    have hNone : (c, some j) ∉ replacement.map fun c => (c, (none : Option Nat)) := by
      rw [List.mem_map]
      rintro ⟨d, -, hPair⟩
      cases hPair
    rw [replaceFrom, List.mem_append, List.mem_append, mem_copied, hTail]
    dsimp only at hHere hBehind
    constructor
    · rintro ((⟨hGet, hLow, hHigh⟩ | hReplaced) | ⟨hGet, hLow, hOutside⟩)
      · refine ⟨hGet, hLow, ?_⟩
        intro y hy
        rcases List.mem_cons.mp hy with rfl | hy
        · dsimp only
          omega
        · have := hBehind y hy
          omega
      · exact absurd hReplaced hNone
      · refine ⟨hGet, by omega, ?_⟩
        intro y hy
        rcases List.mem_cons.mp hy with rfl | hy
        · dsimp only
          omega
        · exact hOutside y hy
    · rintro ⟨hGet, hLow, hOutside⟩
      have hNot := hOutside (s, e) (List.mem_cons_self ..)
      dsimp only at hNot
      by_cases hBefore : j < s
      · exact Or.inl (Or.inl ⟨hGet, hLow, hBefore⟩)
      · exact Or.inr ⟨hGet, by omega, fun y hy => hOutside y (List.mem_cons_of_mem _ hy)⟩

end Leftmost
