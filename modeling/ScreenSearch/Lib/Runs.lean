import Mathlib.Data.List.Basic

/-!
# Runs: the maximal groups of a key

Every position below `n` has a key. The positions of one key, in order, are cut between two
neighbours where the stretch between them is `broken`; what stays together is a run.

Main results:

* `IsRun.eq_of_mem` — runs that share a position are the same;
* `Scanned.push`, `Scanned.mem_iff` — going from left to right, and taking from each position
  that is not taken yet as many neighbours as hold together, finds each run once.
-/

namespace Runs

variable {κ : Type}

/-- Two positions of a key with none of it between them. -/
structure Neighbours (key : Nat → κ) (i j : Nat) : Prop where
  lt : i < j
  same : key i = key j
  between : ∀ m, i < m → m < j → key m ≠ key i

/-- From `i` to `j` the positions of the key hold together. -/
structure Joined (key : Nat → κ) (n : Nat) (broken : Nat → Nat → Prop) (i j : Nat) : Prop where
  le : i ≤ j
  lt : j < n
  same : key i = key j
  unbroken : ∀ a b, i ≤ a → b ≤ j → key a = key i → Neighbours key a b → ¬ broken a b

/-- A maximal group of positions that hold together, by its first and its last one. -/
structure IsRun (key : Nat → κ) (n : Nat) (broken : Nat → Nat → Prop) (i j : Nat) : Prop where
  joined : Joined key n broken i j
  maximal : ∀ i' j', i' ≤ i → j ≤ j' → key i' = key i → Joined key n broken i' j' →
    i' = i ∧ j' = j

/-- No later neighbour holds together with the position. -/
def Stuck (key : Nat → κ) (n : Nat) (broken : Nat → Nat → Prop) (j : Nat) : Prop :=
  ∀ k < n, Neighbours key j k → broken j k

variable {key : Nat → κ} {n : Nat} {broken : Nat → Nat → Prop} {i j k : Nat}

/-! ## What holds together -/

theorem joined_self (h : i < n) : Joined key n broken i i where
  le := Nat.le_refl i
  lt := h
  same := rfl
  unbroken := by
    intro a b ha hb _ hNext
    have := hNext.lt
    omega

/-- A position of the key after `j` has a first one before it. -/
theorem exists_neighbour (hLt : j < k) (hSame : key j = key k) :
    ∃ m, Neighbours key j m ∧ m ≤ k := by
  induction k using Nat.strongRecOn with
  | ind k ih =>
    by_cases hBetween : ∃ m, j < m ∧ m < k ∧ key m = key j
    · obtain ⟨m, hjm, hmk, hKey⟩ := hBetween
      obtain ⟨first, hFirst, hLe⟩ := ih m hmk hjm hKey.symm
      exact ⟨first, hFirst, by omega⟩
    · exact ⟨k, ⟨hLt, hSame, fun m hjm hmk hKey => hBetween ⟨m, hjm, hmk, hKey⟩⟩, Nat.le_refl k⟩

theorem Joined.snoc (h : Joined key n broken i j) (hNext : Neighbours key j k) (hk : k < n)
    (hUnbroken : ¬ broken j k) : Joined key n broken i k where
  le := by
    have := h.le
    have := hNext.lt
    omega
  lt := hk
  same := h.same.trans hNext.same
  unbroken := by
    intro a b ha hb hKey hPair
    by_cases hbj : b ≤ j
    · exact h.unbroken a b ha hbj hKey hPair
    · -- the pair ends after `j`, and so it is `j` and `k`
      have hKeyA : key j = key a := h.same.symm.trans hKey.symm
      have hKeyB : key b = key j := hPair.same.symm.trans hKeyA.symm
      have hbk : b = k := by
        by_contra hNe
        exact hNext.between b (by omega) (by omega) hKeyB
      have haj : a = j := by
        have hLt := hPair.lt
        rcases Nat.lt_trichotomy a j with hLess | hEq | hMore
        · exact absurd hKeyA (hPair.between j hLess (by omega))
        · exact hEq
        · exact absurd hKeyA.symm (hNext.between a hMore (by omega))
      rw [haj, hbk]
      exact hUnbroken

/-- Groups of a key that overlap hold together. -/
theorem Joined.union {i' j' : Nat} (h : Joined key n broken i j) (h' : Joined key n broken i' j')
    (hKey : key i = key i') (hStart : i ≤ i') (hOverlap : i' ≤ j) (hFinish : j ≤ j') :
    Joined key n broken i j' where
  le := by omega
  lt := h'.lt
  same := hKey.trans h'.same
  unbroken := by
    intro a b ha hb hKeyA hPair
    by_cases hbj : b ≤ j
    · exact h.unbroken a b ha hbj hKeyA hPair
    by_cases hai : i' ≤ a
    · exact h'.unbroken a b hai hb (hKeyA.trans hKey) hPair
    -- the second group starts between the two
    · exact absurd (hKey.symm.trans hKeyA.symm) (hPair.between i' (by omega) (by omega))

/-- A group does not go past a position where it is stuck. -/
theorem Joined.le_of_stuck {i' j' : Nat} (h : Joined key n broken i' j')
    (hStuck : Stuck key n broken j) (hStart : i' ≤ j) (hKey : key j = key i') : j' ≤ j := by
  by_contra hPast
  have hLater : ∃ m, Neighbours key j m ∧ m ≤ j' :=
    exists_neighbour (by omega) (hKey.trans h.same)
  obtain ⟨m, hNext, hm⟩ := hLater
  have hBroken := hStuck m (by have := h.lt; omega) hNext
  exact h.unbroken j m hStart hm hKey hNext hBroken

/-- Runs that share a position are the same. -/
theorem IsRun.eq_of_mem {i' j' m : Nat} (h : IsRun key n broken i j)
    (h' : IsRun key n broken i' j') (hm : i ≤ m ∧ m ≤ j ∧ key m = key i)
    (hm' : i' ≤ m ∧ m ≤ j' ∧ key m = key i') : i' = i ∧ j' = j := by
  have hKey : key i = key i' := hm.2.2.symm.trans hm'.2.2
  rcases Nat.le_total i i' with hStart | hStart
  · rcases Nat.le_total j j' with hFinish | hFinish
    · have hUnion := h.joined.union h'.joined hKey hStart (by omega) hFinish
      have hSame := h.maximal i j' (Nat.le_refl i) hFinish rfl hUnion
      have hSame' := h'.maximal i j' hStart (Nat.le_refl j') hKey hUnion
      omega
    · have hSame := h'.maximal i j hStart hFinish hKey h.joined
      omega
  · rcases Nat.le_total j j' with hFinish | hFinish
    · exact h.maximal i' j' hStart hFinish hKey.symm h'.joined
    · have hUnion := h'.joined.union h.joined hKey.symm hStart (by omega) hFinish
      have hSame := h'.maximal i' j (Nat.le_refl i') hFinish rfl hUnion
      have hSame' := h.maximal i' j hStart (Nat.le_refl j) hKey.symm hUnion
      omega

/-! ## From left to right -/

/-- The position is in one of the runs. -/
def Taken (key : Nat → κ) (runs : List (Nat × Nat)) (m : Nat) : Prop :=
  ∃ run ∈ runs, run.1 ≤ m ∧ m ≤ run.2 ∧ key m = key run.1

theorem taken_concat {runs : List (Nat × Nat)} {start m : Nat} :
    Taken key (runs ++ [(start, j)]) m ↔
      Taken key runs m ∨ start ≤ m ∧ m ≤ j ∧ key m = key start := by
  unfold Taken
  constructor
  · rintro ⟨run, hRun, hIn⟩
    rcases List.mem_append.mp hRun with hOld | hNew
    · exact .inl ⟨run, hOld, hIn⟩
    · rw [List.mem_singleton.mp hNew] at hIn
      exact .inr hIn
  · rintro (⟨run, hRun, hIn⟩ | hIn)
    · exact ⟨run, List.mem_append_left _ hRun, hIn⟩
    · exact ⟨_, List.mem_append_right _ (List.mem_singleton_self _), hIn⟩

/-- The runs of the positions before `start`, in the order in which they start. -/
structure Scanned (key : Nat → κ) (n : Nat) (broken : Nat → Nat → Prop)
    (runs : List (Nat × Nat)) (start : Nat) : Prop where
  isRun : ∀ run ∈ runs, IsRun key n broken run.1 run.2
  taken : ∀ m < start, Taken key runs m
  before : ∀ run ∈ runs, run.1 < start
  ordered : runs.Pairwise fun run later => run.1 < later.1

theorem scanned_nil : Scanned key n broken [] 0 where
  isRun := fun _ h => absurd h List.not_mem_nil
  taken := fun m h => absurd h (Nat.not_lt_zero m)
  before := fun _ h => absurd h List.not_mem_nil
  ordered := .nil

variable {runs : List (Nat × Nat)} {start : Nat}

theorem Scanned.skip (h : Scanned key n broken runs start) (hTaken : Taken key runs start) :
    Scanned key n broken runs (start + 1) where
  isRun := h.isRun
  taken := by
    intro m hm
    rcases Nat.lt_succ_iff_lt_or_eq.mp hm with hLess | rfl
    · exact h.taken m hLess
    · exact hTaken
  before := fun run hRun => Nat.lt_succ_of_lt (h.before run hRun)
  ordered := h.ordered

/-- A position that is not taken starts a run, which ends where it is stuck. -/
theorem Scanned.starts (h : Scanned key n broken runs start) (hFree : ¬ Taken key runs start)
    (hJoined : Joined key n broken start j) (hStuck : Stuck key n broken j) :
    IsRun key n broken start j where
  joined := hJoined
  maximal := by
    intro i' j' hStart hFinish hKey hLarger
    have hLe := hJoined.le
    have hEnd : j' ≤ j := hLarger.le_of_stuck hStuck (by omega) (hJoined.same.symm.trans hKey.symm)
    refine ⟨?_, by omega⟩
    by_contra hNe
    -- the earlier position is in a run, which would go on to `start`
    obtain ⟨run, hRun, hFrom, hTo, hSame⟩ := h.taken i' (by omega)
    have hMaximal := h.isRun run hRun
    refine hFree ⟨run, hRun, by omega, ?_, hKey.symm.trans hSame⟩
    by_contra hPast
    have hUnion := hMaximal.joined.union hLarger hSame.symm hFrom hTo (by omega)
    have := hMaximal.maximal run.1 j' (Nat.le_refl _) (by omega) rfl hUnion
    omega

theorem Scanned.push (h : Scanned key n broken runs start) (hFree : ¬ Taken key runs start)
    (hJoined : Joined key n broken start j) (hStuck : Stuck key n broken j) :
    Scanned key n broken (runs ++ [(start, j)]) (start + 1) where
  isRun := by
    intro run hRun
    rcases List.mem_append.mp hRun with hOld | hNew
    · exact h.isRun run hOld
    · rw [List.mem_singleton.mp hNew]
      exact h.starts hFree hJoined hStuck
  taken := by
    intro m hm
    rw [taken_concat]
    rcases Nat.lt_succ_iff_lt_or_eq.mp hm with hLess | rfl
    · exact .inl (h.taken m hLess)
    · exact .inr ⟨Nat.le_refl m, hJoined.le, rfl⟩
  before := by
    intro run hRun
    rcases List.mem_append.mp hRun with hOld | hNew
    · exact Nat.lt_succ_of_lt (h.before run hOld)
    · rw [List.mem_singleton.mp hNew]
      exact Nat.lt_succ_self start
  ordered := by
    refine List.pairwise_append.mpr ⟨h.ordered, List.pairwise_singleton _ _, ?_⟩
    intro run hRun later hLater
    rw [List.mem_singleton.mp hLater]
    exact h.before run hRun

/-- Once all positions are passed, the runs are those that there are. -/
theorem Scanned.mem_iff (h : Scanned key n broken runs n) :
    (i, j) ∈ runs ↔ IsRun key n broken i j := by
  refine ⟨fun hRun => h.isRun _ hRun, fun hRun => ?_⟩
  have hLe := hRun.joined.le
  obtain ⟨run, hIn, hTaken⟩ := h.taken i (by have := hRun.joined.lt; omega)
  obtain ⟨hFirst, hLast⟩ := hRun.eq_of_mem (h.isRun run hIn) ⟨Nat.le_refl i, hLe, rfl⟩ hTaken
  rwa [← hFirst, ← hLast]

end Runs
