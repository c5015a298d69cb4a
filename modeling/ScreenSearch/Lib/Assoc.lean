import Mathlib.Algebra.BigOperators.Group.List.Basic
import Mathlib.Data.List.AList

/-!
# Assoc: hash maps with string keys

A hash map is an association list without duplicate keys, `HashMap β`. What such
a map holds is looked up, inserted and erased as usual; the order in which its
entries are *iterated* is not specified, so every iteration goes through a
`HashOrder`, an arbitrary rearrangement of the entries.

* `weight_erase`, `weight_insert` — a measure summed over the entries of a map
  splits into the entry that is touched and the rest, so an update accounts for
  exactly what it adds and what it drops.
-/

namespace Assoc

/-- A hash map with string keys. -/
abbrev HashMap (β : Type) := AList fun _ : String => β

/-- An unspecified iteration order: some rearrangement of the entries. -/
structure HashOrder where
  iter : {β : Type} → List (Σ _ : String, β) → List (Σ _ : String, β)
  iter_perm : ∀ {β : Type} (l : List (Σ _ : String, β)), (iter l).Perm l

/-- The entries in the order they stand in. -/
def HashOrder.stored : HashOrder where
  iter := id
  iter_perm := fun l => List.Perm.refl l

/-- The opposite order. -/
def HashOrder.reversed : HashOrder where
  iter := List.reverse
  iter_perm := fun l => List.reverse_perm l

variable {β : Type}

/-- The entries of a map in iteration order. -/
def HashOrder.entries (order : HashOrder) (m : HashMap β) : List (Σ _ : String, β) :=
  order.iter m.entries

theorem HashOrder.entries_perm (order : HashOrder) (m : HashMap β) :
    (order.entries m).Perm m.entries :=
  order.iter_perm _

theorem mem_entries_iff {m : HashMap β} {e : Σ _ : String, β} :
    e ∈ m.entries ↔ m.lookup e.1 = some e.2 :=
  (AList.mem_lookup_iff (s := m) (a := e.1) (b := e.2)).symm

theorem HashOrder.mem_entries {order : HashOrder} {m : HashMap β} {e : Σ _ : String, β} :
    e ∈ order.entries m ↔ m.lookup e.1 = some e.2 := by
  rw [(order.entries_perm m).mem_iff, mem_entries_iff]

theorem HashOrder.entries_nodup (order : HashOrder) (m : HashMap β) : (order.entries m).Nodup :=
  (order.entries_perm m).nodup_iff.mpr m.nodupKeys.nodup

variable {M : Type} [AddCommMonoid M]

/-- A measure of the values, summed over the map. -/
def weight (f : β → M) (m : HashMap β) : M :=
  (m.entries.map fun e => f e.2).sum

/-- The measure of what a lookup finds. -/
def weightAt (f : β → M) (m : HashMap β) (k : String) : M :=
  ((m.lookup k).map f).getD 0

@[simp] theorem weight_empty (f : β → M) : weight f (∅ : HashMap β) = 0 := rfl

theorem weightAt_of_some {f : β → M} {m : HashMap β} {k : String} {v : β}
    (h : m.lookup k = some v) : weightAt f m k = f v := by
  simp [weightAt, h]

theorem weightAt_of_none {f : β → M} {m : HashMap β} {k : String}
    (h : m.lookup k = none) : weightAt f m k = 0 := by
  simp [weightAt, h]

/-- Erasing a key takes away what the key held. -/
theorem weight_erase (f : β → M) (m : HashMap β) (k : String) :
    weight f (m.erase k) + weightAt f m k = weight f m := by
  change ((m.entries.kerase k).map fun e => f e.2).sum +
    ((m.entries.dlookup k).map f).getD 0 = _
  rw [weight]
  induction m.entries with
  | nil => exact add_zero 0
  | cons e l ih =>
    obtain ⟨k', v⟩ := e
    by_cases hk : k = k'
    · subst hk
      rw [List.kerase_cons_eq (show k = (⟨k, v⟩ : Σ _ : String, β).1 from rfl),
        List.dlookup_cons_eq]
      simp [add_comm]
    · rw [List.kerase_cons_ne hk, List.dlookup_cons_ne _ _ hk]
      simp only [List.map_cons, List.sum_cons]
      rw [add_assoc, ih]

/-- Inserting replaces what the key held. -/
theorem weight_insert (f : β → M) (m : HashMap β) (k : String) (v : β) :
    weight f (m.insert k v) + weightAt f m k = f v + weight f m := by
  rw [← weight_erase f m k, ← add_assoc]
  rfl

/-- The measure does not depend on the iteration order. -/
theorem weight_entries (order : HashOrder) (f : β → M) (m : HashMap β) :
    ((order.entries m).map fun e => f e.2).sum = weight f m :=
  ((order.entries_perm m).map _).sum_eq

end Assoc
