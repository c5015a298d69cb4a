import Mathlib.Data.List.Sort
import Mathlib.Data.List.Basic

/-!
# Ranks that are spread evenly

Two ways to take some of the ranks below `n`: the first rank of each of `m` even ranges, and
`m` ranks from the first to the last one.

Main results:

* `evenFirsts_ranges` — the first ranks lie one in each range, in order;
* `endpoints_pairwise`, `endpoints_head`, `endpoints_last` — the other ranks strictly increase, from
  the first rank to the last;
* `filter_zipIdx_picked`, `join_picked` — rows that are filtered by rank, or joined to ranks, are
  the rows picked at these ranks.
-/

namespace Spread

variable {α : Type}

/-! ## The first rank of each range -/

/-- The ranks below `n` at which a function takes a new value. -/
def firsts (f : Nat → Nat) (n : Nat) : List Nat :=
  (List.range n).filter fun r => decide (r = 0) || decide (f r ≠ f (r - 1))

theorem firsts_pairwise (f : Nat → Nat) (n : Nat) : (firsts f n).Pairwise (· < ·) :=
  List.pairwise_lt_range.filter _

theorem firsts_succ (f : Nat → Nat) (n : Nat) :
    firsts f (n + 1) =
      firsts f n ++ if n = 0 ∨ f n ≠ f (n - 1) then [n] else [] := by
  unfold firsts
  rw [List.range_succ, List.filter_append, List.filter_singleton]
  congr 1
  have hTest : (decide (n = 0) || decide (f n ≠ f (n - 1))) = decide (n = 0 ∨ f n ≠ f (n - 1)) :=
    (Bool.decide_or _ _).symm
  rw [hTest]
  by_cases h : n = 0 ∨ f n ≠ f (n - 1)
  · rw [if_pos h, decide_eq_true h]
    rfl
  · rw [if_neg h, decide_eq_false h]
    rfl

/-- A function that begins at zero and goes up by at most one takes each of its values anew. -/
theorem firsts_map {f : Nat → Nat} {n : Nat} (hStart : f 0 = 0)
    (hStep : ∀ r, r < n → f (r + 1) = f r ∨ f (r + 1) = f r + 1) :
    (firsts f (n + 1)).map f = List.range (f n + 1) := by
  induction n with
  | zero =>
    rw [firsts_succ, if_pos (.inl rfl)]
    show [f 0] = _
    rw [hStart]
    rfl
  | succ n ih =>
    have ih' := ih fun r hr => hStep r (Nat.lt_succ_of_lt hr)
    rw [firsts_succ, List.map_append, ih', Nat.add_sub_cancel]
    rcases hStep n (Nat.lt_succ_self n) with hSame | hNext
    · rw [if_neg (by omega), hSame]
      exact List.append_nil _
    · rw [if_pos (.inr (by omega)), List.map_singleton, hNext, List.range_succ (n := f n + 1)]

/-- The range of a rank, of `m` even ones. -/
def range (m n r : Nat) : Nat := r * m / n

theorem range_step {m n : Nat} (h : m ≤ n) (r : Nat) :
    range m n (r + 1) = range m n r ∨ range m n (r + 1) = range m n r + 1 := by
  unfold range
  rcases Nat.eq_zero_or_pos n with hn | hn
  · rw [hn, Nat.div_zero, Nat.div_zero]
    exact .inl rfl
  · have hLow : r * m / n ≤ (r + 1) * m / n :=
      Nat.div_le_div_right (Nat.mul_le_mul_right m (Nat.le_succ r))
    have hHigh : (r + 1) * m / n ≤ r * m / n + 1 := by
      calc (r + 1) * m / n ≤ (r * m + n) / n := by
            refine Nat.div_le_div_right ?_
            rw [Nat.succ_mul]
            exact Nat.add_le_add_left h _
        _ = r * m / n + 1 := Nat.add_div_right _ hn
    omega

theorem range_last {m n : Nat} (hm : 0 < m) (h : m ≤ n) : range m n (n - 1) = m - 1 := by
  unfold range
  have hn : 0 < n := Nat.lt_of_lt_of_le hm h
  rw [Nat.div_eq_iff hn]
  obtain ⟨n, rfl⟩ := Nat.exists_eq_add_of_lt hn
  obtain ⟨m, rfl⟩ := Nat.exists_eq_add_of_lt hm
  simp only [Nat.zero_add, Nat.add_sub_cancel] at *
  have hMul : n * (m + 1) = m * (n + 1) + n - m := by
    rw [Nat.mul_succ, Nat.mul_succ, Nat.mul_comm n m]
    omega
  rw [hMul, Nat.mul_comm m (n + 1)]
  omega

/-- The ranks at which the quotient by even ranges changes. With more ranges than ranks each rank
has its own. -/
def evenFirsts (limit n : Nat) : List Nat := firsts (range limit n) n

theorem evenFirsts_all {limit n : Nat} (h : n ≤ limit) : evenFirsts limit n = List.range n := by
  unfold evenFirsts firsts
  refine List.filter_eq_self.mpr fun r hr => ?_
  rw [List.mem_range] at hr
  rcases Nat.eq_zero_or_pos r with hZero | hPos
  · rw [hZero]
    rfl
  · have hn : 0 < n := Nat.lt_of_le_of_lt (Nat.zero_le r) hr
    obtain ⟨r, rfl⟩ := Nat.exists_eq_add_of_lt hPos
    have hLt : range limit n r < range limit n (r + 1) := by
      unfold range
      calc r * limit / n < r * limit / n + 1 := Nat.lt_succ_self _
        _ = (r * limit + n) / n := (Nat.add_div_right _ hn).symm
        _ ≤ (r + 1) * limit / n := by
            refine Nat.div_le_div_right ?_
            rw [Nat.succ_mul]
            exact Nat.add_le_add_left h _
    rw [Nat.zero_add, Nat.add_sub_cancel, Bool.or_eq_true, decide_eq_true_eq, decide_eq_true_eq]
    exact .inr (Nat.ne_of_gt hLt)

/-- **One rank of each range.** -/
theorem evenFirsts_ranges {limit n : Nat} (hLimit : 0 < limit) :
    (evenFirsts limit n).map (range (min n limit) n) = List.range (min n limit) := by
  rcases Nat.le_total n limit with h | h
  · rw [evenFirsts_all h, Nat.min_eq_left h]
    refine (List.map_congr_left fun r hr => ?_).trans (List.map_id _)
    rw [List.mem_range] at hr
    exact Nat.mul_div_cancel r (Nat.lt_of_le_of_lt (Nat.zero_le r) hr)
  · rw [Nat.min_eq_right h]
    have hn : n = n - 1 + 1 := by omega
    have hMap := firsts_map (f := range limit n) (n := n - 1)
      (by rw [range, Nat.zero_mul, Nat.zero_div]) fun r _ => range_step h r
    rw [← hn, range_last hLimit h] at hMap
    rw [evenFirsts, hMap]
    congr 1
    omega

theorem evenFirsts_length {limit n : Nat} (hLimit : 0 < limit) :
    (evenFirsts limit n).length = min n limit := by
  have hLength := congrArg List.length (evenFirsts_ranges (n := n) hLimit)
  rwa [List.length_map, List.length_range] at hLength

theorem evenFirsts_head {limit n : Nat} (hn : 0 < n) : (evenFirsts limit n).head? = some 0 := by
  obtain ⟨n, rfl⟩ := Nat.exists_eq_add_of_lt hn
  unfold evenFirsts firsts
  rw [Nat.zero_add, List.range_succ_eq_map, List.filter_cons_of_pos (by rfl)]
  rfl

/-! ## From the first to the last -/

/-- `m` ranks from the first to the last of `n`. -/
def endpoints (n m : Nat) : List Nat := (List.range m).map fun k => k * (n - 1) / (m - 1)

@[simp] theorem endpoints_length (n m : Nat) : (endpoints n m).length = m := by
  rw [endpoints, List.length_map, List.length_range]

theorem endpoints_self (n : Nat) : endpoints n n = List.range n := by
  unfold endpoints
  refine (List.map_congr_left fun k hk => ?_).trans (List.map_id _)
  rw [List.mem_range] at hk
  rcases Nat.eq_zero_or_pos (n - 1) with hZero | hPos
  · have : k = 0 := by omega
    rw [this, Nat.zero_mul, Nat.zero_div]
    rfl
  · exact Nat.mul_div_cancel k hPos

theorem endpoints_pairwise {n m : Nat} (h : m ≤ n) : (endpoints n m).Pairwise (· < ·) := by
  unfold endpoints
  rw [List.pairwise_map]
  refine List.pairwise_lt_range.imp_of_mem fun {j k} _ hk hLt => ?_
  rw [List.mem_range] at hk
  have hm : 0 < m - 1 := by omega
  calc j * (n - 1) / (m - 1) < j * (n - 1) / (m - 1) + 1 := Nat.lt_succ_self _
    _ = (j * (n - 1) + (m - 1)) / (m - 1) := (Nat.add_div_right _ hm).symm
    _ ≤ k * (n - 1) / (m - 1) := by
        refine Nat.div_le_div_right ?_
        calc j * (n - 1) + (m - 1) ≤ j * (n - 1) + (n - 1) :=
              Nat.add_le_add_left (Nat.sub_le_sub_right h 1) _
          _ = (j + 1) * (n - 1) := (Nat.succ_mul _ _).symm
          _ ≤ k * (n - 1) := Nat.mul_le_mul_right _ hLt

theorem endpoints_head {n m : Nat} (hm : 0 < m) : (endpoints n m).head? = some 0 := by
  obtain ⟨m, rfl⟩ := Nat.exists_eq_add_of_lt hm
  rw [endpoints, Nat.zero_add, List.range_succ_eq_map, List.map_cons, List.head?_cons,
    Nat.zero_mul, Nat.zero_div]

theorem endpoints_last {n m : Nat} (hm : 2 ≤ m) : (endpoints n m).getLast? = some (n - 1) := by
  obtain ⟨m, rfl⟩ := Nat.exists_eq_add_of_le hm
  rw [endpoints, show 2 + m = m + 1 + 1 by omega, List.range_succ, List.map_append,
    List.map_singleton, List.getLast?_concat, Nat.add_sub_cancel,
    Nat.mul_div_cancel_left _ (Nat.succ_pos m)]

theorem lt_of_mem_endpoints {n m r : Nat} (hn : 0 < n) (h : r ∈ endpoints n m) : r < n := by
  obtain ⟨k, hk, rfl⟩ := List.mem_map.mp h
  rw [List.mem_range] at hk
  have hLe : k * (n - 1) / (m - 1) ≤ n - 1 := by
    rcases Nat.eq_zero_or_pos (m - 1) with hZero | hPos
    · rw [hZero, Nat.div_zero]
      exact Nat.zero_le _
    · refine Nat.div_le_of_le_mul ?_
      exact Nat.mul_le_mul_right _ (by omega)
  omega

/-! ## Rows at ranks -/

/-- These rows stand at these ranks. -/
def Picked (rows : List α) (ranks : List Nat) (sample : List α) : Prop :=
  sample.map some = ranks.map (rows[·]?)

theorem Picked.length {rows sample : List α} {ranks : List Nat} (h : Picked rows ranks sample) :
    sample.length = ranks.length := by
  have hLength := congrArg List.length h
  rwa [List.length_map, List.length_map] at hLength

/-- Rows keep their order when the ranks do. -/
theorem Picked.pairwise {rows sample : List α} {ranks : List Nat} {R : α → α → Prop}
    (h : Picked rows ranks sample) (hRanks : ranks.Pairwise (· < ·)) (hRows : rows.Pairwise R) :
    sample.Pairwise R := by
  have hAt : ∀ i (hi : i < sample.length) (hi' : i < ranks.length),
      rows[ranks[i]]? = some sample[i] := by
    intro i hi hi'
    have hEntry := congrArg (fun l => l[i]?) h
    simpa [hi, hi'] using hEntry.symm
  rw [List.pairwise_iff_getElem] at hRanks hRows ⊢
  intro i j hi hj hLt
  have hLength := h.length
  obtain ⟨hri, hi'⟩ := List.getElem?_eq_some_iff.mp (hAt i hi (by omega))
  obtain ⟨hrj, hj'⟩ := List.getElem?_eq_some_iff.mp (hAt j hj (by omega))
  rw [← hi', ← hj']
  exact hRows _ _ hri hrj (hRanks i j (by omega) (by omega) hLt)

theorem Picked.mem {rows sample : List α} {ranks : List Nat} (h : Picked rows ranks sample) {x : α}
    (hx : x ∈ sample) : x ∈ rows := by
  have hSome : some x ∈ ranks.map (rows[·]?) := by
    rw [← h]
    exact List.mem_map_of_mem hx
  obtain ⟨r, -, hr⟩ := List.mem_map.mp hSome
  exact List.mem_of_getElem? hr

/-- Every row stands at its own rank. -/
theorem picked_range (rows : List α) : Picked rows (List.range rows.length) rows := by
  refine List.ext_getElem (by simp) fun i hi _ => ?_
  rw [List.length_map] at hi
  simp [List.getElem?_eq_getElem hi]

/-- Rows that are all picked. -/
theorem Picked.eq_of_all {rows sample : List α}
    (h : Picked rows (List.range rows.length) sample) : sample = rows := by
  have hMap : sample.map some = rows.map some := h.trans (picked_range rows).symm
  exact List.map_injective_iff.mpr (Option.some_injective α) hMap

theorem picked_filterMap {rows : List α} {ranks : List Nat} (h : ∀ r ∈ ranks, r < rows.length) :
    Picked rows ranks (ranks.filterMap (rows[·]?)) := by
  induction ranks with
  | nil => rfl
  | cons r ranks ih =>
    have hHere := h r List.mem_cons_self
    have hRest := ih fun r hr => h r (List.mem_cons_of_mem _ hr)
    rw [List.filterMap_cons_some (List.getElem?_eq_getElem hHere)]
    unfold Picked at *
    rw [List.map_cons, List.map_cons, hRest, List.getElem?_eq_getElem hHere]

theorem zipIdx_map_some (rows : List α) :
    rows.zipIdx.map (fun entry => (some entry.1, entry.2)) =
      (List.range rows.length).map fun r => (rows[r]?, r) := by
  refine List.ext_getElem (by simp) fun i hi _ => ?_
  rw [List.length_map, List.length_zipIdx] at hi
  simp [List.getElem?_eq_getElem hi]

/-- Filtering by rank. -/
theorem filter_zipIdx_picked (rows : List α) (p : Nat → Bool) :
    Picked rows ((List.range rows.length).filter p)
      ((rows.zipIdx.filter fun entry => p entry.2).map Prod.fst) := by
  have hEntries := congrArg (fun entries : List (Option α × Nat) =>
    (entries.filter fun entry => p entry.2).map Prod.fst) (zipIdx_map_some rows)
  simp only [List.filter_map, List.map_map] at hEntries
  unfold Picked
  rw [List.map_map]
  exact hEntries

theorem filter_lt_succ {ranks : List Nat} (h : ranks.Pairwise (· < ·)) (n : Nat) :
    ranks.filter (· < n) ++ ranks.filter (· = n) = ranks.filter (· < n + 1) := by
  induction ranks with
  | nil => rfl
  | cons r ranks ih =>
    obtain ⟨hHead, hTail⟩ := List.pairwise_cons.mp h
    rcases Nat.lt_trichotomy r n with hLt | hEq | hGt
    · rw [List.filter_cons_of_pos (by simpa using hLt), List.filter_cons_of_neg (by simp; omega),
        List.filter_cons_of_pos (by simp; omega), List.cons_append, ih hTail]
    · -- everything after it is larger
      have hNone : ranks.filter (· < n) = [] := by
        refine List.filter_eq_nil_iff.mpr fun x hx => ?_
        have := hHead x hx
        simp
        omega
      rw [List.filter_cons_of_neg (by simp; omega), List.filter_cons_of_pos (by simpa using hEq),
        List.filter_cons_of_pos (by simp; omega), ← ih hTail, hNone, List.nil_append,
        List.nil_append]
    · rw [List.filter_cons_of_neg (by simp; omega), List.filter_cons_of_neg (by simp; omega),
        List.filter_cons_of_neg (by simp; omega), ih hTail]

/-- Ranks in order are found by looking for each rank. -/
theorem flatMap_ranks {ranks : List Nat} (h : ranks.Pairwise (· < ·)) (n : Nat) :
    ((List.range n).flatMap fun r => ranks.filter (· = r)) = ranks.filter (· < n) := by
  induction n with
  | zero =>
    symm
    exact List.filter_eq_nil_iff.mpr fun x _ => by simp
  | succ n ih =>
    rw [List.range_succ, List.flatMap_append, ih, List.flatMap_singleton, filter_lt_succ h]

/-- Joining on the rank. -/
theorem join_picked {rows : List α} {ranks : List Nat} (h : ranks.Pairwise (· < ·))
    (hIn : ∀ r ∈ ranks, r < rows.length) :
    Picked rows ranks
      (rows.zipIdx.flatMap fun entry => (ranks.filter (· = entry.2)).map fun _ => entry.1) := by
  have hEntries := congrArg (fun entries : List (Option α × Nat) =>
    entries.flatMap fun entry => (ranks.filter (· = entry.2)).map fun _ => entry.1)
    (zipIdx_map_some rows)
  simp only [List.flatMap_map] at hEntries
  unfold Picked
  rw [List.map_flatMap]
  simp only [List.map_map]
  refine hEntries.trans ?_
  have hAll : ranks.filter (· < rows.length) = ranks :=
    List.filter_eq_self.mpr fun r hr => by simpa using hIn r hr
  calc ((List.range rows.length).flatMap fun r =>
        (ranks.filter (· = r)).map fun _ => rows[r]?)
      = (List.range rows.length).flatMap fun r => (ranks.filter (· = r)).map (rows[·]?) := by
        refine List.flatMap_congr fun r _ => List.map_congr_left fun x hx => ?_
        rw [of_decide_eq_true (List.mem_filter.mp hx).2]
    _ = ((List.range rows.length).flatMap fun r => ranks.filter (· = r)).map (rows[·]?) :=
        (List.map_flatMap ..).symm
    _ = ranks.map (rows[·]?) := by rw [flatMap_ranks h, hAll]

end Spread
