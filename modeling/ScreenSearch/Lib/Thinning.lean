import Mathlib.Data.List.Infix

/-!
# Thinning a list out

An element is kept unless it is related to one kept before it.

Main results:

* `thin_sublist` — what is kept stands in the order of the list;
* `thin_pairwise` — no two kept elements are related;
* `thin_covers` — every element is kept, or related to a kept one.
-/

namespace Thinning

variable {α : Type} (related : α → α → Bool)

def keepUnrelated (kept : List α) (a : α) : List α :=
  if kept.any fun k => related k a then kept else kept ++ [a]

def thin (l : List α) : List α := l.foldl (keepUnrelated related) []

variable {related} {l kept : List α}

theorem keepUnrelated_grows (a : α) : kept <+: keepUnrelated related kept a := by
  unfold keepUnrelated
  split
  · exact List.prefix_rfl
  · exact List.prefix_append _ _

theorem foldl_grows : kept <+: l.foldl (keepUnrelated related) kept := by
  induction l generalizing kept with
  | nil => exact List.prefix_rfl
  | cons a l ih => exact (keepUnrelated_grows a).trans ih

theorem foldl_sublist : (l.foldl (keepUnrelated related) kept).Sublist (kept ++ l) := by
  induction l generalizing kept with
  | nil =>
    rw [List.append_nil]
    exact List.Sublist.refl _
  | cons a l ih =>
    have hStep : (keepUnrelated related kept a).Sublist (kept ++ [a]) := by
      unfold keepUnrelated
      split
      · exact List.sublist_append_left _ _
      · exact List.Sublist.refl _
    rw [List.foldl_cons, List.append_cons]
    exact ih.trans (hStep.append_right l)

theorem thin_sublist (l : List α) : (thin related l).Sublist l := by
  have h : (thin related l).Sublist ([] ++ l) := foldl_sublist
  rwa [List.nil_append] at h

theorem foldl_pairwise (h : kept.Pairwise fun a b => related a b = false) :
    (l.foldl (keepUnrelated related) kept).Pairwise fun a b => related a b = false := by
  induction l generalizing kept with
  | nil => exact h
  | cons a l ih =>
    refine ih ?_
    unfold keepUnrelated
    split
    · exact h
    · rename_i hNone
      rw [Bool.not_eq_true, List.any_eq_false] at hNone
      rw [List.pairwise_append]
      refine ⟨h, List.pairwise_singleton _ _, ?_⟩
      intro k hk b hb
      rw [List.mem_singleton.mp hb]
      exact Bool.eq_false_iff.mpr (hNone k hk)

/-- Of two kept elements the later one is not related to the earlier one. -/
theorem thin_pairwise (l : List α) : (thin related l).Pairwise fun a b => related a b = false :=
  foldl_pairwise List.Pairwise.nil

theorem keepUnrelated_covers (kept : List α) (a : α) :
    ∃ k ∈ keepUnrelated related kept a, k = a ∨ related k a = true := by
  unfold keepUnrelated
  split
  · rename_i hSome
    obtain ⟨k, hk, hRelated⟩ := List.any_eq_true.mp hSome
    exact ⟨k, hk, Or.inr hRelated⟩
  · exact ⟨a, by simp, Or.inl rfl⟩

/-- An element that is not kept is related to one kept before it. -/
theorem thin_covers {a : α} (h : a ∈ l) :
    ∃ k ∈ thin related l, k = a ∨ related k a = true := by
  obtain ⟨before, after, rfl⟩ := List.append_of_mem h
  unfold thin
  rw [List.foldl_append, List.foldl_cons]
  obtain ⟨k, hk, hCovers⟩ := keepUnrelated_covers (before.foldl (keepUnrelated related) []) a
  exact ⟨k, foldl_grows.subset hk, hCovers⟩

end Thinning
