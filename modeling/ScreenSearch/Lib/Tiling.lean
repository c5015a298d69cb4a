import Mathlib.Data.List.Basic
import Mathlib.Order.Basic
import Mathlib.Order.Lattice

/-!
# Tilings

Cuts between a start and a stop, and the pieces between neighbouring cuts. Where two cuts coincide
or are the wrong way round there is no piece.

Main results:

* `tiles_pieces_iff` — the pieces tile the range exactly when the cuts do not decrease;
* `mem_inner` — then the boundaries inside are the cuts inside;
* `pieces_length` — there are fewer pieces than cuts.
-/

namespace Tiling

variable {α : Type} [LinearOrder α]

/-- The pieces between neighbours that increase. -/
def pieces : List α → List (α × α)
  | a :: b :: cuts => if a < b then (a, b) :: pieces (b :: cuts) else pieces (b :: cuts)
  | _ => []

/-- Non-empty periods without gaps from start to stop. -/
structure Tiles (start stop : α) (periods : List (α × α)) : Prop where
  nonempty : ∀ period ∈ periods, period.1 < period.2
  contiguous : periods.IsChain fun p q => p.2 = q.1
  first : periods.head?.map Prod.fst = some start
  last : periods.getLast?.map Prod.snd = some stop

/-- The same, from one boundary on, and of no period where nothing is left. -/
def Path (start stop : α) : List (α × α) → Prop
  | [] => start = stop
  | (a, b) :: periods => start = a ∧ a < b ∧ Path b stop periods

theorem tiles_cons {start stop a b : α} {periods : List (α × α)} :
    Tiles start stop ((a, b) :: periods) ↔
      start = a ∧ a < b ∧ (periods = [] ∧ b = stop ∨ Tiles b stop periods) := by
  constructor
  · rintro ⟨hNonempty, hContiguous, hFirst, hLast⟩
    have hStart : a = start := Option.some.inj hFirst
    refine ⟨hStart.symm, hNonempty (a, b) List.mem_cons_self, ?_⟩
    rcases periods with _ | ⟨next, periods⟩
    · exact .inl ⟨rfl, Option.some.inj hLast⟩
    · obtain ⟨hJoin, hRest⟩ := List.isChain_cons_cons.mp hContiguous
      exact .inr ⟨fun period hp => hNonempty period (List.mem_cons_of_mem _ hp), hRest,
        congrArg some hJoin.symm, hLast⟩
  · rintro ⟨rfl, hLt, ⟨rfl, rfl⟩ | hRest⟩
    · exact ⟨fun period hp => by rw [List.mem_singleton.mp hp]; exact hLt,
        List.IsChain.singleton _, rfl, rfl⟩
    · rcases periods with _ | ⟨next, periods⟩
      · cases hRest.first
      · refine ⟨fun period hp => ?_, List.isChain_cons_cons.mpr ⟨?_, hRest.contiguous⟩, rfl,
          hRest.last⟩
        · rcases List.mem_cons.mp hp with rfl | hp
          · exact hLt
          · exact hRest.nonempty period hp
        · exact (Option.some.inj hRest.first).symm

theorem tiles_iff_path {start stop : α} (periods : List (α × α)) :
    Tiles start stop periods ↔ periods ≠ [] ∧ Path start stop periods := by
  induction periods generalizing start with
  | nil => exact ⟨fun h => (Option.some_ne_none _ h.first.symm).elim, fun h => absurd rfl h.1⟩
  | cons period periods ih =>
    obtain ⟨a, b⟩ := period
    rw [tiles_cons, ih, Path]
    have hRest : (periods = [] ∧ b = stop ∨ periods ≠ [] ∧ Path b stop periods) ↔
        Path b stop periods := by
      rcases periods with _ | ⟨next, periods⟩
      · exact ⟨fun h => h.elim And.right fun h => absurd rfl h.1, fun h => .inl ⟨rfl, h⟩⟩
      · exact ⟨fun h => h.elim (fun h => by cases h.1) And.right,
          fun h => .inr ⟨List.cons_ne_nil _ _, h⟩⟩
    rw [hRest]
    exact (and_iff_right (List.cons_ne_nil _ _)).symm

theorem pieces_cons_of_lt {a b : α} (h : a < b) (cuts : List α) :
    pieces (a :: b :: cuts) = (a, b) :: pieces (b :: cuts) := if_pos h

theorem pieces_cons_of_le {a b : α} (h : b ≤ a) (cuts : List α) :
    pieces (a :: b :: cuts) = pieces (b :: cuts) := if_neg (not_lt.mpr h)

/-- Dropping pieces never brings a later start. -/
theorem le_of_path {c b stop : α} {cuts : List α} (hLast : (b :: cuts).getLast? = some stop)
    (h : Path c stop (pieces (b :: cuts))) : c ≤ b := by
  induction cuts generalizing b with
  | nil =>
    have hb : b = stop := Option.some.inj hLast
    have hc : c = stop := h
    exact le_of_eq (hc.trans hb.symm)
  | cons d cuts ih =>
    rw [List.getLast?_cons_cons] at hLast
    rcases lt_or_ge b d with hLt | hGe
    · rw [pieces_cons_of_lt hLt] at h
      exact le_of_eq h.1
    · rw [pieces_cons_of_le hGe] at h
      exact le_trans (ih hLast h) hGe

theorem path_pieces_iff {a stop : α} {cuts : List α} (hLast : (a :: cuts).getLast? = some stop) :
    Path a stop (pieces (a :: cuts)) ↔ (a :: cuts).IsChain (· ≤ ·) := by
  induction cuts generalizing a with
  | nil => exact ⟨fun _ => List.IsChain.singleton _, fun _ => Option.some.inj hLast⟩
  | cons b cuts ih =>
    have hRest := hLast
    rw [List.getLast?_cons_cons] at hRest
    rw [List.isChain_cons_cons, ← ih hRest]
    rcases lt_trichotomy a b with hLt | rfl | hGt
    · rw [pieces_cons_of_lt hLt, Path]
      exact ⟨fun h => ⟨le_of_lt hLt, h.2.2⟩, fun h => ⟨rfl, hLt, h.2⟩⟩
    · rw [pieces_cons_of_le (le_refl a)]
      exact (and_iff_right (le_refl a)).symm
    · rw [pieces_cons_of_le (le_of_lt hGt)]
      exact ⟨fun h => absurd (le_of_path hRest h) (not_le.mpr hGt),
        fun h => absurd h.1 (not_le.mpr hGt)⟩

/-- **Tilings.** The pieces tile the range exactly when the cuts do not decrease. -/
theorem tiles_pieces_iff {start stop : α} (h : start < stop) (cuts : List α) :
    Tiles start stop (pieces (start :: cuts ++ [stop])) ↔
      (start :: cuts ++ [stop]).IsChain (· ≤ ·) := by
  have hLast : (start :: (cuts ++ [stop])).getLast? = some stop := by
    rw [← List.cons_append, List.getLast?_concat]
  rw [tiles_iff_path, List.cons_append, ← path_pieces_iff hLast]
  refine and_iff_right_of_imp fun hPath hNil => ?_
  rw [hNil] at hPath
  exact absurd hPath (ne_of_lt h)

theorem pieces_length (a : α) (cuts : List α) : (pieces (a :: cuts)).length ≤ cuts.length := by
  induction cuts generalizing a with
  | nil => exact Nat.le_refl _
  | cons b cuts ih =>
    rcases lt_or_ge a b with hLt | hGe
    · rw [pieces_cons_of_lt hLt]
      exact Nat.succ_le_succ (ih b)
    · rw [pieces_cons_of_le hGe]
      exact Nat.le_succ_of_le (ih b)

/-! ## Boundaries -/

/-- The boundaries between periods. -/
def inner (periods : List (α × α)) : List α := periods.tail.map Prod.fst

theorem le_last {a stop : α} {cuts : List α} (hLast : (a :: cuts).getLast? = some stop)
    (h : (a :: cuts).IsChain (· ≤ ·)) : a ≤ stop := by
  induction cuts generalizing a with
  | nil => exact le_of_eq (Option.some.inj hLast)
  | cons b cuts ih =>
    obtain ⟨hStep, hRest⟩ := List.isChain_cons_cons.mp h
    rw [List.getLast?_cons_cons] at hLast
    exact le_trans hStep (ih hLast hRest)

/-- Of cuts in order, all but the last begin a piece. -/
theorem mem_starts {a stop : α} {cuts : List α} (hLast : (a :: cuts).getLast? = some stop)
    (h : (a :: cuts).IsChain (· ≤ ·)) (x : α) :
    x ∈ (pieces (a :: cuts)).map Prod.fst ↔ x ∈ a :: cuts ∧ x < stop := by
  induction cuts generalizing a with
  | nil =>
    have hEq : a = stop := Option.some.inj hLast
    constructor
    · exact fun hx => absurd hx List.not_mem_nil
    · rintro ⟨hx, hLt⟩
      rw [List.mem_singleton.mp hx, hEq] at hLt
      exact absurd hLt (lt_irrefl _)
  | cons b cuts ih =>
    obtain ⟨hStep, hRest⟩ := List.isChain_cons_cons.mp h
    rw [List.getLast?_cons_cons] at hLast
    have ih' := ih hLast hRest
    rcases lt_or_eq_of_le hStep with hLt | rfl
    · have hBefore : a < stop := lt_of_lt_of_le hLt (le_last hLast hRest)
      rw [pieces_cons_of_lt hLt, List.map_cons, List.mem_cons, ih', List.mem_cons (a := x) (b := a)]
      constructor
      · rintro (rfl | ⟨hx, hxLt⟩)
        · exact ⟨.inl rfl, hBefore⟩
        · exact ⟨.inr hx, hxLt⟩
      · rintro ⟨rfl | hx, hxLt⟩
        · exact .inl rfl
        · exact .inr ⟨hx, hxLt⟩
    · rw [pieces_cons_of_le (le_refl a), ih', List.mem_cons (a := x) (b := a) (l := a :: cuts)]
      refine and_congr_left fun _ => ⟨.inr, fun hx => hx.elim (fun hEq => ?_) id⟩
      rw [hEq]
      exact List.mem_cons_self

theorem le_start_of_path {a stop : α} {periods : List (α × α)} (h : Path a stop periods) :
    ∀ period ∈ periods, a ≤ period.1 := by
  induction periods generalizing a with
  | nil => exact fun period hp => absurd hp List.not_mem_nil
  | cons period periods ih =>
    obtain ⟨rfl, hLt, hRest⟩ := h
    intro later hp
    rcases List.mem_cons.mp hp with rfl | hp
    · exact le_refl _
    · exact le_trans (le_of_lt hLt) (ih hRest later hp)

/-- The boundaries inside are the cuts inside. -/
theorem mem_inner {start stop : α} {cuts : List α} (h : start < stop)
    (hChain : (start :: cuts ++ [stop]).IsChain (· ≤ ·)) (x : α) :
    x ∈ inner (pieces (start :: cuts ++ [stop])) ↔ x ∈ cuts ∧ start < x ∧ x < stop := by
  have hLast : (start :: (cuts ++ [stop])).getLast? = some stop := by
    rw [← List.cons_append, List.getLast?_concat]
  obtain ⟨hSome, hPath⟩ := (tiles_iff_path _).mp ((tiles_pieces_iff h cuts).mpr hChain)
  have hStarts := mem_starts hLast hChain x
  rw [← List.cons_append] at hStarts
  generalize pieces (start :: cuts ++ [stop]) = periods at hSome hPath hStarts ⊢
  rcases periods with _ | ⟨⟨a, b⟩, periods⟩
  · exact absurd rfl hSome
  · obtain ⟨rfl, hLt, hRest⟩ := hPath
    have hInner : x ∈ periods.map Prod.fst → start < x := by
      intro hx
      obtain ⟨period, hp, rfl⟩ := List.mem_map.mp hx
      exact lt_of_lt_of_le hLt (le_start_of_path hRest period hp)
    rw [List.map_cons, List.mem_cons, List.cons_append, List.mem_cons, List.mem_append,
      List.mem_singleton] at hStarts
    show x ∈ periods.map Prod.fst ↔ _
    constructor
    · intro hx
      have hBegins := hInner hx
      obtain ⟨hCut, hEnds⟩ := hStarts.mp (.inr hx)
      refine ⟨?_, hBegins, hEnds⟩
      rcases hCut with rfl | hCut | rfl
      · exact absurd hBegins (lt_irrefl _)
      · exact hCut
      · exact absurd hEnds (lt_irrefl _)
    · rintro ⟨hCut, hBegins, hEnds⟩
      refine (hStarts.mpr ⟨.inr (.inl hCut), hEnds⟩).resolve_left fun hEq => ?_
      rw [hEq] at hBegins
      exact lt_irrefl _ hBegins

end Tiling
