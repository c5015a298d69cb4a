import Mathlib.Data.List.Sort
import Mathlib.Data.Prod.Lex

/-!
# Sort: stable sorting and selection by a key

`sortByKey` is a stable sort by a key in a linear order, `maxByKey` selects the
last element of greatest key. Both have the results a stable in-place sort and a
left-to-right maximum scan have; the lemmas below are what the models use of
them.

* `sortByKey_append` — sorting a list whose first part lies below its second
  part sorts the two parts separately;
* `sortByKey_eq_of_filter` — the sorted list is a function of the elements of
  each key, in their order; `sortByKey_eq_of_perm` is the case of distinct keys;
* `nodup_eraseDups` — a list without its duplicates.
-/

namespace Sorting

variable {α β : Type} [LinearOrder β]

/-- Stable sort by a key. -/
def sortByKey (key : α → β) (l : List α) : List α :=
  l.insertionSort fun a b => key a ≤ key b

variable (key : α → β)

@[simp] theorem sortByKey_nil : sortByKey key [] = [] := rfl

theorem sortByKey_perm (l : List α) : (sortByKey key l).Perm l :=
  List.perm_insertionSort _ l

@[simp] theorem mem_sortByKey {l : List α} {x : α} : x ∈ sortByKey key l ↔ x ∈ l :=
  (sortByKey_perm key l).mem_iff

theorem sortByKey_pairwise (l : List α) :
    (sortByKey key l).Pairwise fun a b => key a ≤ key b := by
  have : Std.Total fun a b : α => key a ≤ key b := ⟨fun a b => le_total (key a) (key b)⟩
  have : IsTrans α fun a b => key a ≤ key b := ⟨fun _ _ _ => le_trans⟩
  exact List.pairwise_insertionSort _ l

theorem sortByKey_eq_self {l : List α} (h : l.Pairwise fun a b => key a ≤ key b) :
    sortByKey key l = l :=
  h.insertionSort_eq

/-- Two lists with the same elements sort to the same list, if the key tells the
elements apart. -/
theorem sortByKey_eq_of_perm {l l' : List α} (hp : l.Perm l')
    (hinj : ∀ a ∈ l, ∀ b ∈ l, key a = key b → a = b) :
    sortByKey key l = sortByKey key l' := by
  have hperm : (sortByKey key l).Perm (sortByKey key l') :=
    (sortByKey_perm key l).trans (hp.trans (sortByKey_perm key l').symm)
  refine List.Perm.eq_of_pairwise ?_ (sortByKey_pairwise key l) (sortByKey_pairwise key l') hperm
  intro a b ha hb hab hba
  have hb' : b ∈ l := hp.mem_iff.mpr ((mem_sortByKey key).mp hb)
  exact hinj a ((mem_sortByKey key).mp ha) b hb' (le_antisymm hab hba)

theorem sortByKey_cons (a : α) (l : List α) :
    sortByKey key (a :: l) =
      (sortByKey key l).orderedInsert (fun a b => key a ≤ key b) a := rfl

/-- Sorting keeps two blocks apart when every key of the first is strictly below
every key of the second. -/
theorem sortByKey_append {l r : List α} (h : ∀ a ∈ l, ∀ b ∈ r, key a < key b) :
    sortByKey key (l ++ r) = sortByKey key l ++ sortByKey key r := by
  induction l with
  | nil => rfl
  | cons a l ih =>
    have ih' := ih fun x hx => h x (List.mem_cons_of_mem a hx)
    -- inserting into the first block never reaches the second one
    have hr : ∀ b ∈ sortByKey key r, key a ≤ key b := fun b hb =>
      (h a (List.mem_cons_self ..) b ((mem_sortByKey key).mp hb)).le
    rw [List.cons_append, sortByKey_cons, ih', sortByKey_cons]
    generalize sortByKey key l = l'
    generalize sortByKey key r = r' at hr
    induction l' with
    | nil =>
      cases r' with
      | nil => rfl
      | cons b r' =>
        rw [List.nil_append, List.orderedInsert_cons, if_pos (hr b (List.mem_cons_self ..))]
        rfl
    | cons c l' ihl =>
      rw [List.cons_append, List.orderedInsert_cons, List.orderedInsert_cons]
      split
      · rfl
      · rw [ihl, List.cons_append]

theorem filter_orderedInsert (k : β) (a : α) (l : List α) :
    (l.orderedInsert (fun a b => key a ≤ key b) a).filter (fun x => key x = k) =
      (a :: l).filter fun x => key x = k := by
  induction l with
  | nil => rfl
  | cons b l ih =>
    rw [List.orderedInsert_cons]
    split
    · rfl
    · rename_i hlt
      have hne : key b ≠ key a := fun heq => hlt heq.symm.le
      simp only [List.filter_cons] at ih ⊢
      rw [ih]
      by_cases hb : key b = k
      · have ha : key a ≠ k := fun heq => hne (hb.trans heq.symm)
        simp [hb, ha]
      · simp [hb]

/-- Stability: elements of one key keep their order. -/
theorem filter_sortByKey (k : β) (l : List α) :
    (sortByKey key l).filter (fun x => key x = k) = l.filter fun x => key x = k := by
  induction l with
  | nil => rfl
  | cons a l ih =>
    rw [sortByKey_cons, filter_orderedInsert]
    simp only [List.filter_cons, ih]

/-- Stability: what holds of elements of one key, the earlier one first, stays. -/
theorem sortByKey_stable {S : α → α → Prop} {l : List α}
    (h : l.Pairwise fun a b => key a = key b → S a b) :
    (sortByKey key l).Pairwise fun a b => key a = key b → S a b := by
  rw [List.pairwise_iff_forall_sublist]
  intro a b hSub hKey
  have hFilter := hSub.filter fun x => key x = key a
  have hBoth : [a, b].filter (fun x => key x = key a) = [a, b] := by simp [hKey]
  rw [filter_sortByKey, hBoth] at hFilter
  exact List.pairwise_iff_forall_sublist.mp h (hFilter.trans List.filter_sublist) hKey

/-- A sorted list is determined by its elements of each key. -/
theorem eq_of_sorted_of_filter {l l' : List α} (hl : l.Pairwise fun a b => key a ≤ key b)
    (hl' : l'.Pairwise fun a b => key a ≤ key b)
    (h : ∀ k, l.filter (fun x => key x = k) = l'.filter fun x => key x = k) : l = l' := by
  induction l generalizing l' with
  | nil =>
    cases l' with
    | nil => rfl
    | cons b l' => simpa using h (key b)
  | cons a l ih =>
    cases l' with
    | nil => simpa using h (key a)
    | cons b l' =>
      have hab : key a = key b := by
        have ha : a ∈ (b :: l').filter fun x => key x = key a := by
          rw [← h (key a)]
          simp
        have hb : b ∈ (a :: l).filter fun x => key x = key b := by
          rw [h (key b)]
          simp
        have hba : key b ≤ key a := by
          rcases List.mem_cons.mp (List.mem_of_mem_filter ha) with rfl | hin
          · exact le_rfl
          · exact List.rel_of_pairwise_cons hl' hin
        have hab : key a ≤ key b := by
          rcases List.mem_cons.mp (List.mem_of_mem_filter hb) with rfl | hin
          · exact le_rfl
          · exact List.rel_of_pairwise_cons hl hin
        exact le_antisymm hab hba
      have hhead := h (key a)
      rw [List.filter_cons_of_pos (by simp), List.filter_cons_of_pos (by simp [hab])] at hhead
      obtain ⟨rfl, -⟩ := List.cons.inj hhead
      rw [ih hl.of_cons hl'.of_cons fun k => ?_]
      have hk := h k
      simp only [List.filter_cons] at hk
      split at hk
      · exact (List.cons.inj hk).2
      · exact hk

/-- Two lists sort to the same list when they agree, in order, on the elements of
each key. -/
theorem sortByKey_eq_of_filter {l l' : List α}
    (h : ∀ k, l.filter (fun x => key x = k) = l'.filter fun x => key x = k) :
    sortByKey key l = sortByKey key l' := by
  refine eq_of_sorted_of_filter key (sortByKey_pairwise key l) (sortByKey_pairwise key l') ?_
  intro k
  rw [filter_sortByKey, filter_sortByKey, h]

/-- A map that keeps the key commutes with sorting. -/
theorem map_sortByKey {γ : Type} (key' : γ → β) (f : α → γ) (hf : ∀ a, key' (f a) = key a)
    (l : List α) : (sortByKey key l).map f = sortByKey key' (l.map f) := by
  refine eq_of_sorted_of_filter key' ?_ (sortByKey_pairwise key' _) ?_
  · rw [List.pairwise_map]
    simpa only [hf] using sortByKey_pairwise key l
  · intro k
    rw [filter_sortByKey, List.filter_map, List.filter_map]
    have hcomp : ((fun x => decide (key' x = k)) ∘ f) = fun x => decide (key x = k) := by
      funext a
      simp [hf]
    rw [hcomp, filter_sortByKey]

/-- Sorting and selecting commute. -/
theorem sortByKey_filter (p : α → Bool) (l : List α) :
    sortByKey key (l.filter p) = (sortByKey key l).filter p := by
  refine eq_of_sorted_of_filter key (sortByKey_pairwise key _)
    ((sortByKey_pairwise key l).sublist List.filter_sublist) fun k => ?_
  rw [filter_sortByKey, List.filter_filter, List.filter_filter]
  have hcomm : ∀ l : List α, (l.filter fun a => (decide (key a = k)) && p a) =
      (l.filter fun a => decide (key a = k)).filter p := by
    intro l
    rw [List.filter_filter]
    exact List.filter_congr fun a _ => Bool.and_comm ..
  rw [hcomm, hcomm, filter_sortByKey]

/-- The element of greatest key that comes last: a left-to-right scan that keeps
the old best only when it is strictly greater. -/
def maxByKey (key : α → β) : List α → Option α
  | [] => none
  | a :: l => some (l.foldl (fun best x => if key x < key best then best else x) a)

@[simp] theorem maxByKey_nil : maxByKey key [] = none := rfl

theorem maxByKey_eq_none {l : List α} : maxByKey key l = none ↔ l = [] := by
  cases l <;> simp [maxByKey]

/-- What the scan returns is one of the elements, and none has a greater key. -/
theorem maxByKey_spec {l : List α} {m : α} (h : maxByKey key l = some m) :
    m ∈ l ∧ ∀ x ∈ l, key x ≤ key m := by
  cases l with
  | nil => simp at h
  | cons a l =>
    simp only [maxByKey, Option.some.injEq] at h
    subst h
    induction l generalizing a with
    | nil => simp
    | cons b l ih =>
      rw [List.foldl_cons]
      obtain ⟨hmem, hmax⟩ := ih (if key b < key a then a else b)
      refine ⟨?_, ?_⟩
      · rcases List.mem_cons.mp hmem with heq | hin
        · rw [heq]
          split <;> simp
        · exact List.mem_cons_of_mem _ (List.mem_cons_of_mem _ hin)
      · intro x hx
        have hstep : key (if key b < key a then a else b) ≤ _ :=
          hmax _ (List.mem_cons_self ..)
        rcases List.mem_cons.mp hx with rfl | hx
        · refine le_trans ?_ hstep
          split
          · exact le_rfl
          · exact not_lt.mp ‹_›
        · rcases List.mem_cons.mp hx with rfl | hx
          · refine le_trans ?_ hstep
            split
            · exact le_of_lt ‹_›
            · exact le_rfl
          · exact hmax x (List.mem_cons_of_mem _ hx)

theorem maxByKey_mem {l : List α} {m : α} (h : maxByKey key l = some m) : m ∈ l :=
  (maxByKey_spec key h).1

/-- A scan over images is the scan by the image's key. -/
theorem maxByKey_map {γ : Type} (f : γ → α) (l : List γ) :
    maxByKey key (l.map f) = (maxByKey (fun c => key (f c)) l).map f := by
  cases l with
  | nil => rfl
  | cons c l =>
    simp only [List.map_cons, maxByKey, Option.map_some, Option.some.injEq]
    induction l generalizing c with
    | nil => rfl
    | cons d l ih =>
      rw [List.map_cons, List.foldl_cons, List.foldl_cons, ← ih]
      congr 1
      split <;> rfl

/-- When the key tells the elements apart, the scan does not depend on the order
of the list. -/
theorem maxByKey_eq_of_perm {l l' : List α} (hp : l.Perm l')
    (hinj : ∀ a ∈ l, ∀ b ∈ l, key a = key b → a = b) :
    maxByKey key l = maxByKey key l' := by
  cases hm : maxByKey key l with
  | none =>
    rw [maxByKey_eq_none] at hm
    subst hm
    rw [hp.nil_eq.symm]
    rfl
  | some m =>
    cases hm' : maxByKey key l' with
    | none =>
      rw [maxByKey_eq_none] at hm'
      subst hm'
      rw [hp.eq_nil] at hm
      simp at hm
    | some m' =>
      obtain ⟨hmem, hmax⟩ := maxByKey_spec key hm
      obtain ⟨hmem', hmax'⟩ := maxByKey_spec key hm'
      have h1 := hmax m' (hp.mem_iff.mpr hmem')
      have h2 := hmax' m (hp.mem_iff.mp hmem)
      rw [hinj m hmem m' (hp.mem_iff.mpr hmem') (le_antisymm h2 h1)]

/-! ## Without duplicates -/

theorem nodup_eraseDups {α : Type} [BEq α] [LawfulBEq α] (l : List α) : l.eraseDups.Nodup := by
  induction hLength : l.length using Nat.strong_induction_on generalizing l with
  | _ n ih =>
    rcases l with - | ⟨a, rest⟩
    · exact List.nodup_nil
    · rw [List.eraseDups_cons, List.nodup_cons]
      refine ⟨?_, ih _ ?_ _ rfl⟩
      · rw [List.mem_eraseDups, List.mem_filter]
        rintro ⟨-, hNe⟩
        rw [beq_self_eq_true, Bool.not_true] at hNe
        exact Bool.false_ne_true hNe
      · have hLe := List.length_filter_le (fun b => !b == a) rest
        rw [List.length_cons] at hLength
        omega

theorem eraseDups_eq_self {α : Type} [BEq α] [LawfulBEq α] {l : List α} (h : l.Nodup) :
    l.eraseDups = l := by
  induction l with
  | nil => rfl
  | cons a rest ih =>
    obtain ⟨hNotIn, hRest⟩ := List.nodup_cons.mp h
    have hAll : rest.filter (fun b => !b == a) = rest := by
      rw [List.filter_eq_self]
      intro b hb
      rw [Bool.not_eq_true', beq_eq_false_iff_ne]
      exact fun hSame => hNotIn (hSame ▸ hb)
    rw [List.eraseDups_cons, hAll, ih hRest]

end Sorting
