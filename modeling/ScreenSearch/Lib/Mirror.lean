import Mathlib.Data.List.Nodup
import Mathlib.Data.List.Perm.Basic
import Mathlib.Data.List.Perm.Lattice

/-!
# Mirrors of a table

A mirror is a list of entries beside a table, kept by hand: a row that comes, changes or
goes has its entry written or erased, in no fixed order.

Main results:

* `Mirrors.insert`, `Mirrors.delete`, `Mirrors.update`, `Mirrors.filter` — what the
  statements on the table have to do to the mirror;
* `Mirrors.of_key` — then each row has exactly its own entry.
-/

namespace Mirror

variable {ρ ε κ : Type}

/-- The mirror has the entry of every row and nothing else. -/
def Mirrors (entry : ρ → ε) (table : List ρ) (mirror : List ε) : Prop :=
  mirror.Perm (table.map entry)

variable {entry : ρ → ε} {table : List ρ} {mirror : List ε}

theorem Mirrors.insert (h : Mirrors entry table mirror) (row : ρ) :
    Mirrors entry (table ++ [row]) (mirror ++ [entry row]) := by
  unfold Mirrors
  rw [List.map_append, List.map_singleton]
  exact h.append_right _

/-- Rows and entries that are dropped together. -/
theorem Mirrors.filter (h : Mirrors entry table mirror) (keepRow : ρ → Bool) (keep : ε → Bool)
    (hKeep : ∀ row ∈ table, keep (entry row) = keepRow row) :
    Mirrors entry (table.filter keepRow) (mirror.filter keep) := by
  have hFilter := List.Perm.filter keep h
  rw [List.filter_map] at hFilter
  refine hFilter.trans (List.Perm.of_eq (congrArg _ (List.filter_congr hKeep)))

/-- A different entry for the rows, when the entries are the same. -/
theorem Mirrors.congr (h : Mirrors entry table mirror) {entry' : ρ → ε}
    (hEntry : ∀ row ∈ table, entry row = entry' row) : Mirrors entry' table mirror :=
  h.trans (List.Perm.of_eq (List.map_congr_left hEntry))

theorem Mirrors.exists_row (h : Mirrors entry table mirror) {e : ε} (he : e ∈ mirror) :
    ∃ row ∈ table, entry row = e := List.mem_map.mp (h.mem_iff.mp he)

variable [DecidableEq κ] {key : ρ → κ}

/-- In a table with a key, a row stands before and behind rows with other keys. -/
theorem perm_cons_filter (hKeys : (table.map key).Nodup) {row : ρ} (hRow : row ∈ table) :
    table.Perm (row :: table.filter fun other => key other ≠ key row) := by
  induction table with
  | nil => cases hRow
  | cons first rest ih =>
    rw [List.map_cons, List.nodup_cons] at hKeys
    rcases List.mem_cons.mp hRow with rfl | hRest
    · have hOthers : rest.filter (fun other => key other ≠ key row) = rest := by
        rw [List.filter_eq_self]
        intro other hOther
        have hNe : key other ≠ key row := fun hEq => hKeys.1 (hEq ▸ List.mem_map_of_mem hOther)
        simpa using hNe
      rw [List.filter_cons_of_neg (by simp), hOthers]
    · have hNe : key first ≠ key row := fun hEq => hKeys.1 (hEq ▸ List.mem_map_of_mem hRest)
      rw [List.filter_cons_of_pos (by simpa using hNe)]
      exact (List.Perm.cons first (ih hKeys.2 hRest)).trans (List.Perm.swap row first _)

/-- The mirror of a row that goes loses its entry. -/
theorem Mirrors.delete [BEq ε] [LawfulBEq ε] (h : Mirrors entry table mirror)
    (hKeys : (table.map key).Nodup) {row : ρ} (hRow : row ∈ table) :
    Mirrors entry (table.filter fun other => key other ≠ key row) (mirror.erase (entry row)) := by
  have hSplit : mirror.Perm
      (entry row :: (table.filter fun other => key other ≠ key row).map entry) :=
    h.trans ((perm_cons_filter hKeys hRow).map entry)
  have hErase := hSplit.erase (entry row)
  rwa [List.erase_cons_head] at hErase

/-- What a row that takes another's place has in common with it stays in the table. -/
theorem replace_map {α : Type} (hKeys : (table.map key).Nodup) {old new : ρ} (hOld : old ∈ table)
    (hSame : key new = key old) {f : ρ → α} (hf : f new = f old) :
    (table.map fun row => if key row = key new then new else row).map f = table.map f := by
  rw [List.map_map]
  refine List.map_congr_left fun row hRow => ?_
  show f (if key row = key new then new else row) = f row
  split
  · next hEq => rw [hf, List.inj_on_of_nodup_map hKeys hRow hOld (hEq.trans hSame)]
  · rfl

/-- A row that takes another's place. -/
theorem replace_perm (hKeys : (table.map key).Nodup) {old new : ρ} (hOld : old ∈ table)
    (hSame : key new = key old) :
    (table.map fun row => if key row = key new then new else row).Perm
      ((table.filter fun other => key other ≠ key old) ++ [new]) := by
  have hOthers : (table.filter fun other => key other ≠ key old).map
      (fun row => if key row = key new then new else row) =
        table.filter fun other => key other ≠ key old := by
    refine (List.map_congr_left fun row hRow => ?_).trans (List.map_id _)
    have hNe := (List.mem_filter.mp hRow).2
    rw [decide_eq_true_eq] at hNe
    rw [if_neg (hSame ▸ hNe)]
    rfl
  have hSplit := (perm_cons_filter hKeys hOld).map fun row => if key row = key new then new else row
  rw [List.map_cons, if_pos hSame.symm, hOthers] at hSplit
  exact hSplit.trans (List.perm_append_singleton _ _).symm

/-- The mirror of a row that changes loses the entry it had and gets the new one. -/
theorem Mirrors.update [BEq ε] [LawfulBEq ε] (h : Mirrors entry table mirror)
    (hKeys : (table.map key).Nodup) {old new : ρ} (hOld : old ∈ table) (hSame : key new = key old) :
    Mirrors entry (table.map fun row => if key row = key new then new else row)
      (mirror.erase (entry old) ++ [entry new]) :=
  ((h.delete hKeys hOld).insert new).trans ((replace_perm hKeys hOld hSame).map entry).symm

/-- What a mirror says under a key is what the row says. -/
theorem Mirrors.of_key (h : Mirrors entry table mirror) (hKeys : (table.map key).Nodup)
    (entryKey : ε → κ) (hEntry : ∀ row ∈ table, entryKey (entry row) = key row) {row : ρ}
    (hRow : row ∈ table) :
    mirror.filter (fun e => entryKey e = key row) = [entry row] := by
  have hFilter : Mirrors entry (table.filter fun other => key other = key row)
      (mirror.filter fun e => entryKey e = key row) :=
    h.filter _ _ fun other hOther => by rw [hEntry other hOther]
  have hOne : table.filter (fun other => key other = key row) = [row] := by
    have hSplit := (perm_cons_filter hKeys hRow).filter fun other => key other = key row
    rw [List.filter_cons_of_pos (by simp), List.filter_filter] at hSplit
    have hNone : table.filter (fun other => decide (key other = key row) && decide (key other ≠ key row))
        = [] := by
      rw [List.filter_eq_nil_iff]
      intro other _
      simp
    rw [hNone] at hSplit
    exact List.perm_singleton.mp hSplit
  unfold Mirrors at hFilter
  rw [hOne] at hFilter
  exact List.perm_singleton.mp hFilter

end Mirror
