import Mathlib.Data.List.Basic

/-!
# Files and crashes

A file as its content now and the contents it had since the last fsync: a crash brings back
one of them, or, where positions reach the disk one by one, a blend of them.

Main results:

* `getElem?_writeAt` — what a positioned write leaves where;
* `Blends.eq_of_survivors` — what all surviving contents agree on, a blend has too.
-/

namespace ScreenSearch

variable {α : Type*} {zero : α}

/-! ## Contents -/

/-- Cuts the content, or extends it with zeros. -/
def setLen (zero : α) (n : Nat) (l : List α) : List α :=
  l.take n ++ List.replicate (n - l.length) zero

/-- Writes the data at an offset; a gap before it is filled with zeros. -/
def writeAt (zero : α) (offset : Nat) (data l : List α) : List α :=
  let padded := l ++ List.replicate (offset + data.length - l.length) zero
  padded.take offset ++ data ++ padded.drop (offset + data.length)

@[simp] theorem length_setLen (n : Nat) (l : List α) : (setLen zero n l).length = n := by
  unfold setLen
  rw [List.length_append, List.length_take, List.length_replicate]
  omega

variable {offset x : Nat} {data l : List α}

/-- A write inside the content needs no padding. -/
theorem writeAt_of_le (hFits : offset + data.length ≤ l.length) :
    writeAt zero offset data l = l.take offset ++ data ++ l.drop (offset + data.length) := by
  unfold writeAt
  rw [Nat.sub_eq_zero_of_le hFits, List.replicate_zero, List.append_nil]

theorem length_writeAt (hFits : offset + data.length ≤ l.length) :
    (writeAt zero offset data l).length = l.length := by
  rw [writeAt_of_le hFits]
  simp only [List.length_append, List.length_take, List.length_drop]
  omega

theorem getElem?_writeAt (hFits : offset + data.length ≤ l.length) :
    (writeAt zero offset data l)[x]? =
      if offset ≤ x ∧ x < offset + data.length then data[x - offset]? else l[x]? := by
  have hTake : (l.take offset).length = offset := by
    rw [List.length_take]
    omega
  rw [writeAt_of_le hFits, List.append_assoc]
  rcases Nat.lt_or_ge x offset with hBefore | hFrom
  · rw [if_neg (by omega), List.getElem?_append_left (by omega), List.getElem?_take_of_lt hBefore]
  rw [List.getElem?_append_right (by omega), hTake]
  rcases Nat.lt_or_ge x (offset + data.length) with hIn | hAfter
  · rw [if_pos ⟨hFrom, hIn⟩, List.getElem?_append_left (by omega)]
  · rw [if_neg (by omega), List.getElem?_append_right (by omega), List.getElem?_drop]
    congr 1
    omega

/-! ## Files -/

/-- A file, absent or with a content. -/
structure DurableFile (α : Type*) where
  now : Option (List α)
  /-- What it was before, back to the last fsync. -/
  older : List (Option (List α))
  deriving DecidableEq, Repr

namespace DurableFile

/-- What is on disk for certain. -/
def stored (content : Option (List α)) : DurableFile α := ⟨content, []⟩

def absent : DurableFile α := stored none

/-- What a crash may leave. -/
def survivors (f : DurableFile α) : List (Option (List α)) := f.now :: f.older

def put (f : DurableFile α) (content : Option (List α)) : DurableFile α := ⟨content, f.survivors⟩

def sync (f : DurableFile α) : DurableFile α := stored f.now

@[simp] theorem now_stored (content : Option (List α)) : (stored content).now = content := rfl
@[simp] theorem now_put (f : DurableFile α) (content : Option (List α)) :
    (f.put content).now = content := rfl
@[simp] theorem now_sync (f : DurableFile α) : f.sync.now = f.now := rfl
@[simp] theorem survivors_stored (content : Option (List α)) :
    (stored content).survivors = [content] := rfl
@[simp] theorem survivors_put (f : DurableFile α) (content : Option (List α)) :
    (f.put content).survivors = content :: f.survivors := rfl
@[simp] theorem survivors_sync (f : DurableFile α) : f.sync.survivors = [f.now] := rfl

theorem now_mem (f : DurableFile α) : f.now ∈ f.survivors := List.mem_cons_self

/-- The content has the length of a survivor and at each position what some survivor has. -/
def Blends (f : DurableFile α) : Option (List α) → Prop
  | none => none ∈ f.survivors
  | some l => (∃ v ∈ f.survivors, v.map List.length = some l.length) ∧
      ∀ i < l.length, ∃ v ∈ f.survivors, v.bind (·[i]?) = l[i]?

instance [DecidableEq α] (f : DurableFile α) : (left : Option (List α)) → Decidable (f.Blends left)
  | none => inferInstanceAs (Decidable (none ∈ f.survivors))
  | some l => inferInstanceAs (Decidable ((∃ v ∈ f.survivors, v.map List.length = some l.length) ∧
      ∀ i < l.length, ∃ v ∈ f.survivors, v.bind (·[i]?) = l[i]?))

variable {f : DurableFile α}

theorem Blends.length_mem (hBlends : f.Blends (some l)) :
    ∃ v, some v ∈ f.survivors ∧ v.length = l.length := by
  obtain ⟨⟨v, hv, hLength⟩, -⟩ := hBlends
  rcases v with - | v
  · cases hLength
  · exact ⟨v, hv, Option.some.inj hLength⟩

theorem Blends.eq_of_survivors {expected : Option α} (hBlends : f.Blends (some l))
    (hAgree : ∀ v, some v ∈ f.survivors → v[x]? = none ∨ v[x]? = expected) :
    l[x]? = none ∨ l[x]? = expected := by
  rcases Nat.lt_or_ge x l.length with hLt | hGe
  · obtain ⟨v, hv, hEq⟩ := hBlends.2 x hLt
    rcases v with - | v
    · exact Or.inl hEq.symm
    · rw [← hEq]
      exact hAgree v hv
  · exact Or.inl (List.getElem?_eq_none hGe)

end DurableFile

end ScreenSearch
