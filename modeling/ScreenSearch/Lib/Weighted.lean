import Mathlib.Algebra.GroupWithZero.Nat
import Mathlib.Data.List.Infix

/-!
# Weighted lists

Lists cut by the weight of their elements.

Main results:

* `takeWithin_eq_self`, `takeWithin_begins` — the longest beginning within a weight;
* `cut_flatten`, `cut_weight` — greedy chunks lose nothing and stay within the limit.
-/

namespace Weighted

variable {α : Type} (weight : α → Nat)

def total (l : List α) : Nat := (l.map weight).sum

/-- What comes before the weight is exceeded, where `used` is there already. -/
def takeWithin (limit : Nat) : Nat → List α → List α
  | _, [] => []
  | used, a :: rest =>
    if used + weight a ≤ limit then a :: takeWithin limit (used + weight a) rest else []

structure Cutting (α : Type) where
  chunks : List (List α)
  current : List α
  used : Nat

/-- The element goes into the current chunk, or opens the next one. -/
def cutStep (limit : Nat) (cutting : Cutting α) (a : α) : Cutting α :=
  if limit < cutting.used + weight a then
    { chunks := cutting.chunks ++ [cutting.current], current := [a], used := weight a }
  else { cutting with current := cutting.current ++ [a], used := cutting.used + weight a }

def cut (limit : Nat) (l : List α) : List (List α) :=
  let cutting := l.foldl (cutStep weight limit) { chunks := [], current := [], used := 0 }
  if cutting.current.isEmpty then cutting.chunks else cutting.chunks ++ [cutting.current]

variable {weight} {limit used : Nat} {l read : List α} {cutting : Cutting α}

theorem total_append (a b : List α) : total weight (a ++ b) = total weight a + total weight b := by
  unfold total
  rw [List.map_append, List.sum_append_nat]

theorem total_singleton (a : α) : total weight [a] = weight a := by
  unfold total
  rw [List.map_singleton, List.sum_singleton]

theorem total_cons (a : α) (l : List α) : total weight (a :: l) = weight a + total weight l := by
  unfold total
  rw [List.map_cons, List.sum_cons]

/-! ## Beginnings -/

theorem takeWithin_begins : takeWithin weight limit used l <+: l := by
  induction l generalizing used with
  | nil => exact List.prefix_rfl
  | cons a l ih =>
    rw [takeWithin]
    split
    · exact List.cons_prefix_cons.mpr ⟨rfl, ih⟩
    · exact List.nil_prefix

/-- Nothing is left out exactly where everything is within the weight. -/
theorem takeWithin_eq_self (h : used ≤ limit) :
    takeWithin weight limit used l = l ↔ used + total weight l ≤ limit := by
  induction l generalizing used with
  | nil => exact ⟨fun _ => h, fun _ => rfl⟩
  | cons a l ih =>
    rw [takeWithin, total_cons, ← Nat.add_assoc]
    split
    · rename_i hFits
      rw [List.cons.injEq, ih hFits]
      exact ⟨fun hRest => hRest.2, fun hRest => ⟨rfl, hRest⟩⟩
    · rename_i hExceeds
      constructor
      · exact fun hNil => nomatch hNil
      · intro hFits
        omega

/-! ## Chunks -/

/-- What has been read is in the chunks, each of them filled and within the limit. -/
structure CutSoFar (weight : α → Nat) (limit : Nat) (read : List α) (cutting : Cutting α) :
    Prop where
  kept : cutting.chunks.flatten ++ cutting.current = read
  chunks : ∀ chunk ∈ cutting.chunks, chunk ≠ [] ∧ total weight chunk ≤ limit
  current : total weight cutting.current = cutting.used
  used : cutting.used ≤ limit

theorem CutSoFar.step (h : CutSoFar weight limit read cutting) {a : α} (hFits : weight a ≤ limit) :
    CutSoFar weight limit (read ++ [a]) (cutStep weight limit cutting a) := by
  unfold cutStep
  split
  · rename_i hExceeds
    refine ⟨?_, ?_, total_singleton a, hFits⟩
    · dsimp only
      rw [List.flatten_append, List.flatten_singleton, h.kept]
    · intro chunk hChunk
      rcases List.mem_append.mp hChunk with hIn | hIn
      · exact h.chunks chunk hIn
      · rw [List.mem_singleton.mp hIn]
        refine ⟨?_, h.current.trans_le h.used⟩
        -- the element alone would have fitted
        intro hNil
        have hUsed := h.current
        rw [hNil] at hUsed
        have hZero : cutting.used = 0 := hUsed.symm
        omega
  · rename_i hRoom
    refine ⟨?_, h.chunks, ?_, Nat.not_lt.mp hRoom⟩
    · dsimp only
      rw [← List.append_assoc, h.kept]
    · dsimp only
      rw [total_append, total_singleton, h.current]

theorem foldl_cutSoFar (unread : List α) (h : CutSoFar weight limit read cutting)
    (hFits : ∀ a ∈ unread, weight a ≤ limit) :
    CutSoFar weight limit (read ++ unread) (unread.foldl (cutStep weight limit) cutting) := by
  induction unread generalizing read cutting with
  | nil =>
    rw [List.append_nil]
    exact h
  | cons a unread ih =>
    rw [List.append_cons]
    exact ih (h.step (hFits a (List.mem_cons_self ..))) fun b hb =>
      hFits b (List.mem_cons_of_mem _ hb)

theorem cut_cutSoFar (hFits : ∀ a ∈ l, weight a ≤ limit) : CutSoFar weight limit l
    (l.foldl (cutStep weight limit) { chunks := [], current := [], used := 0 }) := by
  have hNone : CutSoFar weight limit ([] : List α) { chunks := [], current := [], used := 0 } :=
    ⟨rfl, by simp, rfl, Nat.zero_le _⟩
  have h := foldl_cutSoFar l hNone hFits
  rwa [List.nil_append] at h

/-- The chunks together are the list. -/
theorem cut_flatten (hFits : ∀ a ∈ l, weight a ≤ limit) : (cut weight limit l).flatten = l := by
  have h := (cut_cutSoFar hFits).kept
  unfold cut
  dsimp only
  split
  · rename_i hNil
    rwa [List.isEmpty_iff.mp hNil, List.append_nil] at h
  · rwa [List.flatten_append, List.flatten_singleton]

/-- Every chunk has something in it and is within the limit. -/
theorem cut_weight (hFits : ∀ a ∈ l, weight a ≤ limit) :
    ∀ chunk ∈ cut weight limit l, chunk ≠ [] ∧ total weight chunk ≤ limit := by
  have h := cut_cutSoFar hFits
  unfold cut
  dsimp only
  split
  · exact h.chunks
  · rename_i hSome
    intro chunk hChunk
    rcases List.mem_append.mp hChunk with hIn | hIn
    · exact h.chunks chunk hIn
    · rw [List.mem_singleton.mp hIn]
      exact ⟨mt List.isEmpty_iff.mpr hSome, h.current.trans_le h.used⟩

end Weighted
