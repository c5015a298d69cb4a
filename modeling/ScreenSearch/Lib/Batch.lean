import Mathlib.Algebra.GroupWithZero.Nat
import Mathlib.Algebra.Order.BigOperators.Group.List

/-!
# Filling a budget

Items with a cost, and a budget. `fitting` takes items from the front as long as
they fit; `batches` cuts the whole list into batches of consecutive items, each
as long as the budget allows and never empty.
-/

namespace Batch

variable {α : Type} (cost : α → Nat)

/-- What all items cost together. -/
def total (items : List α) : Nat := (items.map cost).sum

@[simp] theorem total_nil : total cost [] = 0 := rfl

@[simp] theorem total_cons (a : α) (items : List α) :
    total cost (a :: items) = cost a + total cost items := by
  simp [total]

@[simp] theorem total_append (items more : List α) :
    total cost (items ++ more) = total cost items + total cost more := by
  simp [total]

theorem total_perm {items items' : List α} (h : items.Perm items') :
    total cost items = total cost items' :=
  (h.map cost).sum_eq

/-! ## The prefix that fits -/

def fitting : Nat → List α → List α
  | _, [] => []
  | budget, a :: items =>
    if cost a ≤ budget then a :: fitting (budget - cost a) items else []

theorem fitting_begins (budget : Nat) (items : List α) :
    fitting cost budget items <+: items := by
  induction items generalizing budget with
  | nil => exact List.prefix_rfl
  | cons a items ih =>
    rw [fitting]
    split
    · exact (List.prefix_cons_inj a).mpr (ih _)
    · exact List.nil_prefix

theorem fitting_total (budget : Nat) (items : List α) :
    total cost (fitting cost budget items) ≤ budget := by
  induction items generalizing budget with
  | nil => exact Nat.zero_le _
  | cons a items ih =>
    rw [fitting]
    split
    · have hRest := ih (budget - cost a)
      rw [total_cons]
      omega
    · exact Nat.zero_le _

/-- Everything is taken exactly when everything fits. -/
theorem fitting_eq_self {budget : Nat} {items : List α} :
    fitting cost budget items = items ↔ total cost items ≤ budget := by
  induction items generalizing budget with
  | nil => simp [fitting]
  | cons a items ih =>
    rw [fitting, total_cons]
    split
    · simp only [List.cons.injEq, true_and, ih]
      omega
    · simp
      omega

/-! ## Batches -/

/-- The batches that are closed, and the one that is being filled. -/
structure Filling (α : Type) where
  closed : List (List α)
  current : List α
  spent : Nat

def Filling.add (limit : Nat) (s : Filling α) (a : α) : Filling α :=
  if s.current ≠ [] ∧ limit < s.spent + cost a then
    { closed := s.closed ++ [s.current], current := [a], spent := cost a }
  else { s with current := s.current ++ [a], spent := s.spent + cost a }

def Filling.close (s : Filling α) : List (List α) :=
  if s.current = [] then s.closed else s.closed ++ [s.current]

def batches (limit : Nat) (items : List α) : List (List α) :=
  (items.foldl (Filling.add cost limit) { closed := [], current := [], spent := 0 }).close

/-- A batch holds something, and more than one item only within the limit. -/
def Fits (limit : Nat) (batch : List α) : Prop :=
  batch ≠ [] ∧ (1 < batch.length → total cost batch ≤ limit)

/-- What holds while the items are put into batches. -/
structure Filling.Good (limit : Nat) (s : Filling α) : Prop where
  spent : s.spent = total cost s.current
  closed : ∀ batch ∈ s.closed, Fits cost limit batch
  current : 1 < s.current.length → s.spent ≤ limit

variable {cost}

theorem Filling.add_good {limit : Nat} {s : Filling α} (h : s.Good cost limit) (a : α) :
    (s.add cost limit a).Good cost limit := by
  rw [Filling.add]
  split
  · rename_i hfull
    refine ⟨by simp, fun batch hbatch => ?_, by simp⟩
    rcases List.mem_append.mp hbatch with hin | hin
    · exact h.closed batch hin
    · rw [List.mem_singleton.mp hin]
      exact ⟨hfull.1, fun hlen => h.spent ▸ h.current hlen⟩
  · rename_i hroom
    refine ⟨by simp [h.spent], h.closed, fun hlen => ?_⟩
    have hne : s.current ≠ [] := by
      intro hnil
      simp [hnil] at hlen
    dsimp only
    exact not_lt.mp fun hover => hroom ⟨hne, hover⟩

theorem foldl_add_good {limit : Nat} {items : List α} {s : Filling α} (h : s.Good cost limit) :
    (items.foldl (Filling.add cost limit) s).Good cost limit := by
  induction items generalizing s with
  | nil => exact h
  | cons a items ih => exact ih (Filling.add_good h a)

theorem batches_fit (limit : Nat) (items : List α) :
    ∀ batch ∈ batches cost limit items, Fits cost limit batch := by
  have hgood : (items.foldl (Filling.add cost limit)
      { closed := [], current := [], spent := 0 }).Good cost limit :=
    foldl_add_good ⟨rfl, by simp, by simp⟩
  intro batch hbatch
  rw [batches, Filling.close] at hbatch
  split at hbatch
  · exact hgood.closed batch hbatch
  · rename_i hne
    rcases List.mem_append.mp hbatch with hin | hin
    · exact hgood.closed batch hin
    · rw [List.mem_singleton.mp hin]
      exact ⟨hne, fun hlen => hgood.spent ▸ hgood.current hlen⟩

/-- Batches keep the items and their order. -/
theorem batches_flatten (limit : Nat) (items : List α) :
    (batches cost limit items).flatten = items := by
  suffices h : ∀ s : Filling α, (items.foldl (Filling.add cost limit) s).close.flatten =
      s.close.flatten ++ items by
    simpa [batches, Filling.close] using h { closed := [], current := [], spent := 0 }
  induction items with
  | nil => simp
  | cons a items ih =>
    intro s
    have hadd : (s.add cost limit a).close.flatten = s.close.flatten ++ [a] := by
      rw [Filling.add]
      by_cases hnil : s.current = []
      · simp [Filling.close, hnil]
      · split
        · simp [Filling.close, hnil]
        · simp [Filling.close, hnil]
    rw [List.foldl_cons, ih, hadd, List.append_assoc, List.singleton_append]

/-! ## Chunks of one length -/

theorem toChunks_go_flatten {n : Nat} (items : List α) (chunk : Array α)
    (chunks : Array (List α)) :
    (List.toChunks.go n items chunk chunks).flatten =
      chunks.toList.flatten ++ chunk.toList ++ items := by
  induction items generalizing chunk chunks with
  | nil => simp [List.toChunks.go]
  | cons a items ih =>
    rw [List.toChunks.go]
    split
    · rw [ih]
      simp
    · rw [ih]
      simp

/-- Chunks keep the items and their order. -/
theorem toChunks_flatten (n : Nat) (items : List α) : (items.toChunks n).flatten = items := by
  cases items with
  | nil => cases n <;> rfl
  | cons a items =>
    cases n with
    | zero => simp [List.toChunks]
    | succ n =>
      rw [List.toChunks, toChunks_go_flatten]
      · simp
      · simp

end Batch
