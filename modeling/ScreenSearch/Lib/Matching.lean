import Mathlib.Algebra.Order.Group.Multiset
import Mathlib.Data.List.FinRange
import Mathlib.Data.List.Permutation
import Mathlib.Order.Fin.Basic

/-!
# Matching two lists one to one

A matching pairs positions of one list with positions of another. What it needs of the lists
is how often each value is there, so that the order does not matter, and the greatest
matching of two sorted lists is found without pairs that cross, if related values can be
exchanged.

Main results:

* `Pairing.exists_pairs`, `Pairs.exists_pairing` — matchings by position and by value;
* `best_achieved`, `best_optimal` — the recursion over two lists from their greatest elements
  down finds the greatest size.
-/

namespace Matching

variable {α β : Type}

/-- Positions of the one list with positions of the other, none of them twice. -/
structure Pairing (R : α → β → Prop) (a : List α) (b : List β) where
  pairs : List (Fin a.length × Fin b.length)
  left : (pairs.map Prod.fst).Nodup
  right : (pairs.map Prod.snd).Nodup
  related : ∀ pair ∈ pairs, R (a.get pair.1) (b.get pair.2)

def Pairing.size {R : α → β → Prop} {a : List α} {b : List β} (m : Pairing R a b) : Nat :=
  m.pairs.length

/-- Values of the one side with values of the other, none more often than it is there. -/
structure Pairs (R : α → β → Prop) (a : Multiset α) (b : Multiset β) (pairs : Multiset (α × β)) :
    Prop where
  left : pairs.map Prod.fst ≤ a
  right : pairs.map Prod.snd ≤ b
  related : ∀ pair ∈ pairs, R pair.1 pair.2

variable {R : α → β → Prop}

/-! ## Positions and values -/

/-- Different positions hold no value more often than the list does. -/
theorem map_get_le {a : List α} {positions : List (Fin a.length)} (h : positions.Nodup) :
    ((positions.map a.get : List α) : Multiset α) ≤ a := by
  have hAll : (positions : Multiset (Fin a.length)) ≤ List.finRange a.length :=
    Multiset.coe_le.mpr (h.subperm fun i _ => List.mem_finRange i)
  have hValues := Multiset.map_le_map (f := a.get) hAll
  rw [Multiset.map_coe, Multiset.map_coe, List.map_get_finRange] at hValues
  exact hValues

theorem Pairing.exists_pairs {a : List α} {b : List β} (m : Pairing R a b) :
    ∃ pairs, Pairs R a b pairs ∧ pairs.card = m.size := by
  refine ⟨(m.pairs.map fun pair => (a.get pair.1, b.get pair.2) : List (α × β)), ⟨?_, ?_, ?_⟩, ?_⟩
  · rw [Multiset.map_coe, List.map_map]
    have hLe := map_get_le m.left
    rw [List.map_map] at hLe
    exact hLe
  · rw [Multiset.map_coe, List.map_map]
    have hLe := map_get_le m.right
    rw [List.map_map] at hLe
    exact hLe
  · intro pair hPair
    obtain ⟨positions, hIn, rfl⟩ := List.mem_map.mp (Multiset.mem_coe.mp hPair)
    exact m.related positions hIn
  · rw [Multiset.coe_card, List.length_map]
    rfl

/-- Values that a list holds often enough stand at different positions of it. -/
theorem exists_positions {a : List α} (values : List α) (h : (values : Multiset α) ≤ a) :
    ∃ positions : List (Fin a.length), positions.Nodup ∧ positions.map a.get = values := by
  obtain ⟨taken, hPerm, hSub⟩ := Multiset.coe_le.mp h
  obtain ⟨positions, hTaken, hOrder⟩ := List.sublist_eq_map_getElem hSub
  -- the values come in another order than they stand in
  have hForall : List.Forall₂ (fun value i => a.get i = value) taken positions := by
    rw [hTaken, List.forall₂_map_left_iff, List.forall₂_same]
    exact fun i _ => rfl
  obtain ⟨positions', hForall', hPerm'⟩ := List.perm_comp_forall₂ hPerm.symm hForall
  refine ⟨positions', hPerm'.nodup_iff.mpr (hOrder.imp fun hLt => ne_of_lt hLt), ?_⟩
  refine List.forall₂_eq_eq_eq ▸ ?_
  rw [List.forall₂_map_left_iff]
  exact hForall'.flip

theorem Pairs.exists_pairing {a : List α} {b : List β} {pairs : Multiset (α × β)}
    (h : Pairs R a b pairs) : ∃ m : Pairing R a b, m.size = pairs.card := by
  obtain ⟨values, rfl⟩ := Quot.exists_rep pairs
  obtain ⟨left, hLeft, hLeftValues⟩ := exists_positions (values.map Prod.fst) h.left
  obtain ⟨right, hRight, hRightValues⟩ := exists_positions (values.map Prod.snd) h.right
  have hLeftLength : left.length = values.length := by
    rw [← List.length_map (f := a.get), hLeftValues, List.length_map]
  have hRightLength : right.length = values.length := by
    rw [← List.length_map (f := b.get), hRightValues, List.length_map]
  refine ⟨⟨left.zip right, ?_, ?_, ?_⟩, ?_⟩
  · rwa [List.map_fst_zip (by omega)]
  · rwa [List.map_snd_zip (by omega)]
  · intro pair hPair
    have hValue : (a.get pair.1, b.get pair.2) ∈ values := by
      have hZip : (left.zip right).map (fun pair => (a.get pair.1, b.get pair.2)) = values := by
        show (left.zip right).map (Prod.map a.get b.get) = values
        rw [← List.zip_map, hLeftValues, hRightValues]
        exact (List.zip_of_prod rfl rfl).symm
      exact hZip ▸ List.mem_map_of_mem hPair
    exact h.related _ (Multiset.mem_coe.mpr hValue)
  · show (left.zip right).length = values.length
    rw [List.length_zip]
    omega

/-! ## Two sides together -/

theorem Pairs.empty (R : α → β → Prop) (a : Multiset α) (b : Multiset β) : Pairs R a b 0 :=
  ⟨Multiset.zero_le _, Multiset.zero_le _, fun _ h => absurd h (Multiset.notMem_zero _)⟩

theorem Pairs.add {a a' : Multiset α} {b b' : Multiset β} {pairs pairs' : Multiset (α × β)}
    (h : Pairs R a b pairs) (h' : Pairs R a' b' pairs') :
    Pairs R (a + a') (b + b') (pairs + pairs') := by
  refine ⟨?_, ?_, ?_⟩
  · rw [Multiset.map_add]
    exact add_le_add h.left h'.left
  · rw [Multiset.map_add]
    exact add_le_add h.right h'.right
  · intro pair hPair
    exact (Multiset.mem_add.mp hPair).elim (h.related pair) (h'.related pair)

theorem Pairs.mono {a a' : Multiset α} {b b' : Multiset β} {pairs : Multiset (α × β)}
    (h : Pairs R a b pairs) (hLeft : a ≤ a') (hRight : b ≤ b') : Pairs R a' b' pairs :=
  ⟨h.left.trans hLeft, h.right.trans hRight, h.related⟩

/-! ## The exchange -/

/-- Pairs that cross can be exchanged for pairs that do not. -/
def Exchanges [LE α] [LE β] (R : α → β → Prop) : Prop :=
  ∀ x x' y y', x ≤ x' → y ≤ y' → R x y' → R x' y → R x y ∧ R x' y'

/-- A pair that is taken out leaves the rest. -/
theorem Pairs.of_cons {a : Multiset α} {b : Multiset β} {x : α} {y : β}
    {pairs : Multiset (α × β)} (h : Pairs R (x ::ₘ a) (y ::ₘ b) ((x, y) ::ₘ pairs)) :
    Pairs R a b pairs ∧ R x y := by
  refine ⟨⟨?_, ?_, fun pair hPair => h.related pair (Multiset.mem_cons_of_mem hPair)⟩,
    h.related _ (Multiset.mem_cons_self _ _)⟩
  · have hLeft := h.left
    rw [Multiset.map_cons] at hLeft
    exact (Multiset.cons_le_cons_iff x).mp hLeft
  · have hRight := h.right
    rw [Multiset.map_cons] at hRight
    exact (Multiset.cons_le_cons_iff y).mp hRight

/-- What becomes of a matching when the greatest values are taken away: one of them is not
matched, or they are matched with each other, perhaps after an exchange. -/
theorem Pairs.uncons [LE α] [LE β] (hR : Exchanges R) {a : Multiset α} {b : Multiset β}
    {x : α} {y : β} (hx : ∀ x' ∈ a, x' ≤ x) (hy : ∀ y' ∈ b, y' ≤ y) {pairs : Multiset (α × β)}
    (h : Pairs R (x ::ₘ a) (y ::ₘ b) pairs) :
    Pairs R a (y ::ₘ b) pairs ∨ Pairs R (x ::ₘ a) b pairs ∨
      R x y ∧ ∃ rest, Pairs R a b rest ∧ pairs.card = rest.card + 1 := by
  by_cases hxIn : x ∈ pairs.map Prod.fst
  · obtain ⟨⟨_, v⟩, hPair, rfl⟩ := Multiset.mem_map.mp hxIn
    obtain ⟨rest, rfl⟩ := Multiset.exists_cons_of_mem hPair
    have hLeft := h.left
    have hRight := h.right
    rw [Multiset.map_cons] at hLeft hRight
    replace hLeft := (Multiset.cons_le_cons_iff _).mp hLeft
    by_cases hyIn : y ∈ v ::ₘ rest.map Prod.snd
    · rcases Multiset.mem_cons.mp hyIn with rfl | hyIn
      · obtain ⟨hRest, hRelated⟩ := h.of_cons
        exact .inr (.inr ⟨hRelated, rest, hRest, Multiset.card_cons _ _⟩)
      · -- both are matched, but not with each other
        obtain ⟨⟨u, _⟩, hPair', rfl⟩ := Multiset.mem_map.mp hyIn
        obtain ⟨rest', rfl⟩ := Multiset.exists_cons_of_mem hPair'
        rw [Multiset.map_cons] at hLeft hRight
        rw [Multiset.cons_swap] at hRight
        replace hRight := (Multiset.cons_le_cons_iff _).mp hRight
        have hu := hx u (Multiset.mem_of_le hLeft (Multiset.mem_cons_self _ _))
        have hv := hy v (Multiset.mem_of_le hRight (Multiset.mem_cons_self _ _))
        obtain ⟨hBelow, hRelated⟩ := hR _ _ _ _ hu hv
          (h.related _ (Multiset.mem_cons_of_mem (Multiset.mem_cons_self _ _)))
          (h.related _ (Multiset.mem_cons_self _ _))
        refine .inr (.inr ⟨hRelated, (u, v) ::ₘ rest', ⟨?_, ?_, ?_⟩, ?_⟩)
        · rwa [Multiset.map_cons]
        · rwa [Multiset.map_cons]
        · intro pair hIn
          rcases Multiset.mem_cons.mp hIn with rfl | hIn
          · exact hBelow
          · exact h.related pair (Multiset.mem_cons_of_mem (Multiset.mem_cons_of_mem hIn))
        · rw [Multiset.card_cons, Multiset.card_cons, Multiset.card_cons]
    · rw [← Multiset.map_cons Prod.snd (_, v)] at hyIn
      exact .inr (.inl ⟨h.left, (Multiset.le_cons_of_notMem hyIn).mp h.right, h.related⟩)
  · exact .inl ⟨(Multiset.le_cons_of_notMem hxIn).mp h.left, h.right, h.related⟩

/-! ## The recursion -/

/-- The most pairs that do not cross. -/
def best (R : α → β → Prop) [DecidableRel R] : List α → List β → Nat
  | [], _ => 0
  | _ :: _, [] => 0
  | x :: a, y :: b =>
    max (max (best R (x :: a) b) (best R a (y :: b))) (best R a b + if R x y then 1 else 0)

variable [DecidableRel R]

theorem best_nil_right (a : List α) : best R a [] = 0 := by
  cases a with
  | nil => rw [best]
  | cons x a => rw [best]

theorem best_achieved (a : List α) (b : List β) :
    ∃ pairs, Pairs R a b pairs ∧ pairs.card = best R a b := by
  induction a, b using best.induct with
  | case1 b => exact ⟨0, .empty R _ _, by rw [best, Multiset.card_zero]⟩
  | case2 x a => exact ⟨0, .empty R _ _, by rw [best, Multiset.card_zero]⟩
  | case3 x a y b ihLeft ihRight ihBoth =>
    unfold best
    rcases max_choice (max (best R (x :: a) b) (best R a (y :: b)))
      (best R a b + if R x y then 1 else 0) with hMax | hMax
    · rw [hMax]
      rcases max_choice (best R (x :: a) b) (best R a (y :: b)) with hMax' | hMax'
      · obtain ⟨pairs, hPairs, hCard⟩ := ihLeft
        exact ⟨pairs, hPairs.mono le_rfl (Multiset.le_cons_self _ y), hCard.trans hMax'.symm⟩
      · obtain ⟨pairs, hPairs, hCard⟩ := ihRight
        exact ⟨pairs, hPairs.mono (Multiset.le_cons_self _ x) le_rfl, hCard.trans hMax'.symm⟩
    · rw [hMax]
      obtain ⟨pairs, hPairs, hCard⟩ := ihBoth
      by_cases hRelated : R x y
      · refine ⟨(x, y) ::ₘ pairs, ⟨?_, ?_, ?_⟩, ?_⟩
        · rw [Multiset.map_cons]
          exact Multiset.cons_le_cons x hPairs.left
        · rw [Multiset.map_cons]
          exact Multiset.cons_le_cons y hPairs.right
        · intro pair hPair
          rcases Multiset.mem_cons.mp hPair with rfl | hPair
          · exact hRelated
          · exact hPairs.related pair hPair
        · rw [Multiset.card_cons, hCard, if_pos hRelated]
      · rw [if_neg hRelated, Nat.add_zero]
        exact ⟨pairs, hPairs.mono (Multiset.le_cons_self _ x) (Multiset.le_cons_self _ y), hCard⟩

theorem best_optimal [LE α] [LE β] (hR : Exchanges R) {a : List α} {b : List β}
    (ha : a.Pairwise fun x x' => x' ≤ x) (hb : b.Pairwise fun y y' => y' ≤ y)
    {pairs : Multiset (α × β)} (h : Pairs R a b pairs) : pairs.card ≤ best R a b := by
  induction a, b using best.induct generalizing pairs with
  | case1 b =>
    have hNone := Multiset.card_le_card h.left
    rw [Multiset.card_map, Multiset.coe_nil, Multiset.card_zero] at hNone
    exact hNone.trans (Nat.zero_le _)
  | case2 x a =>
    have hNone := Multiset.card_le_card h.right
    rw [Multiset.card_map, Multiset.coe_nil, Multiset.card_zero] at hNone
    exact hNone.trans (Nat.zero_le _)
  | case3 x a y b ihLeft ihRight ihBoth =>
    obtain ⟨hx, ha'⟩ := List.pairwise_cons.mp ha
    obtain ⟨hy, hb'⟩ := List.pairwise_cons.mp hb
    rw [best]
    rw [← Multiset.cons_coe, ← Multiset.cons_coe] at h
    rcases h.uncons hR hx hy with hFree | hFree | ⟨hRelated, rest, hRest, hCard⟩
    · exact (ihRight ha' hb hFree).trans ((le_max_right _ _).trans (le_max_left _ _))
    · exact (ihLeft ha hb' hFree).trans ((le_max_left _ _).trans (le_max_left _ _))
    · rw [if_pos hRelated, hCard]
      exact (Nat.succ_le_succ (ihBoth ha' hb' hRest)).trans (le_max_right _ _)

end Matching
