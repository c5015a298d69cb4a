import Mathlib.Algebra.Order.Group.Int
import Mathlib.Data.List.Forall2
import ScreenSearch.Lib.Tiling

/-!
# The grid of local days

A window is cut at local midnights, so that a day of 23 or 25 hours is one period. A zone is a list
of offsets and the instants they begin at. A midnight that the clock jumps over is looked for minute
by minute; one that is shown twice is taken the first time.

Main results:

* `midnight_iff` — what `resolve` finds, as a property of the zone;
* `gridLoop_eq` — the loop makes the pieces between the resolved midnights;
* `day_grid_tiles` — when they tile the window by days;
* `daysInOrder_of_plain` — they do where each day begins at its midnight once and for all.
-/

namespace ScreenSearch.Kernel

open Tiling

def dayMillis : Int := 86400000
def daySeconds : Int := 86400

/-! ## Zones -/

/-- Offsets in seconds, each from its instant on, a Unix time in seconds. -/
structure Zone where
  initial : Int
  transitions : List (Int × Int)
  sorted : (transitions.map Prod.fst).Pairwise (· < ·)

/-- The first and the last date that the calendar knows, in days from the epoch. -/
structure Calendar where
  low : Int
  high : Int

def offsetFrom (offset : Int) : List (Int × Int) → Int → Int
  | [], _ => offset
  | (instant, next) :: rest, t => if t < instant then offset else offsetFrom next rest t

/-- The instants from `since` on at which a clock shows this time, oldest first. -/
def instantsFrom (since : Option Int) (offset : Int) : List (Int × Int) → Int → List Int
  | [], wall => if since.all (· ≤ wall - offset) then [wall - offset] else []
  | (instant, next) :: rest, wall =>
    (if since.all (· ≤ wall - offset) && decide (wall - offset < instant) then [wall - offset]
      else []) ++ instantsFrom (some instant) next rest wall

namespace Zone

def offset (zone : Zone) (t : Int) : Int := offsetFrom zone.initial zone.transitions t

/-- The local time of an instant, both in milliseconds. -/
def wall (zone : Zone) (ms : Int) : Int := ms + 1000 * zone.offset (ms / 1000)

/-- `date_naive`, in days from the epoch. -/
def date (zone : Zone) (ms : Int) : Int := zone.wall ms / dayMillis

end Zone

inductive LocalResult where
  | none
  | single (t : Int)
  | ambiguous (a b : Int)
  deriving DecidableEq, Repr

/-- `from_local_datetime`: the earliest and the latest instant of a local time in seconds. -/
def Zone.fromLocal (zone : Zone) (wall : Int) : LocalResult :=
  match instantsFrom none zone.initial zone.transitions wall with
  | [] => .none
  | [t] => .single t
  | a :: b :: rest => .ambiguous a ((b :: rest).getLast (List.cons_ne_nil _ _))

variable (calendar : Calendar) (zone : Zone)

/-- `utc`. -/
def utc (ms : Int) : Except String Int :=
  if calendar.low ≤ ms / dayMillis ∧ ms / dayMillis ≤ calendar.high then .ok ms
  else .error "timestamp outside supported calendar"

/-- The tries of `resolve`; a local time in seconds. -/
def resolveFrom : Nat → Int → Except String Int
  | 0, _ => .error "local time cannot be resolved"
  | tries + 1, wall =>
    match zone.fromLocal wall with
    | .single t => .ok (1000 * t)
    | .ambiguous a b => .ok (1000 * min a b)
    | .none =>
      if (wall + 60) / daySeconds ≤ calendar.high then resolveFrom tries (wall + 60)
      else .error "calendar overflow"

def resolve (wall : Int) : Except String Int := resolveFrom calendar zone 2881 wall

/-- Local midnight of a date, `offset` days after the first. -/
def midnight (first offset : Int) : Except String Int :=
  if 0 ≤ offset ∧ first + offset ≤ calendar.high then
    resolve calendar zone ((first + offset) * daySeconds)
  else .error "calendar overflow"

/-! ## The grid -/

/-- So many days make a period. -/
structure Stride where
  days : Int
  pos : 0 < days

/-- What the loop works with. -/
structure Grid where
  start : Int
  stop : Int
  first : Int
  days : Int
  group : Stride

def gridLoop (grid : Grid) (offset : Int) (periods : List (Int × Int)) :
    Except String (List (Int × Int)) :=
  if _hMore : offset < grid.days then
    match (if offset = 0 then .ok grid.start else midnight calendar zone grid.first offset) with
    | .error e => .error e
    | .ok periodStart =>
      let next := offset + grid.group.days
      match
        (if next ≥ grid.days then .ok grid.stop else midnight calendar zone grid.first next) with
      | .error e => .error e
      | .ok periodEnd =>
        gridLoop grid next
          (if periodEnd > periodStart then periods ++ [(periodStart, periodEnd)] else periods)
  else .ok periods
termination_by (grid.days - offset).toNat
decreasing_by
  have := grid.group.pos
  omega

/-- The days of a window, and how many of them make a period. -/
def gridOf (start stop first last : Int) (maxPeriods : Nat) : Grid :=
  let days := last - first + 1
  let cap : Int := max maxPeriods 1
  { start, stop, first, days
    group := ⟨max ((days + cap - 1).tdiv cap) 1, lt_of_lt_of_le Int.one_pos (le_max_right _ _)⟩ }

def localDayGrid (start stop : Int) (maxPeriods : Nat) : Except String (List (Int × Int)) :=
  if stop ≤ start then .ok []
  else
    match utc calendar start with
    | .error e => .error e
    | .ok start =>
      match utc calendar (stop - 1) with
      | .error e => .error e
      | .ok last =>
        gridLoop calendar zone
          (gridOf start stop (zone.date start) (zone.date last) maxPeriods) 0 []

/-! ## Reading the clock backwards -/

theorem mem_instantsFrom {transitions : List (Int × Int)} {since : Option Int} {offset : Int}
    (hSince : ∀ i ∈ transitions.map Prod.fst, since.all (· ≤ i) = true)
    (hSorted : (transitions.map Prod.fst).Pairwise (· < ·)) (wall t : Int) :
    t ∈ instantsFrom since offset transitions wall ↔
      since.all (· ≤ t) = true ∧ t + offsetFrom offset transitions t = wall := by
  induction transitions generalizing since offset with
  | nil =>
    rw [instantsFrom, offsetFrom]
    split
    · rename_i hAll
      rw [List.mem_singleton]
      constructor
      · rintro rfl
        exact ⟨hAll, by omega⟩
      · rintro ⟨_, hWall⟩
        omega
    · rename_i hNone
      refine ⟨fun h => absurd h List.not_mem_nil, fun ⟨hAll, hWall⟩ => absurd ?_ hNone⟩
      rw [show wall - offset = t by omega]
      exact hAll
  | cons transition rest ih =>
    obtain ⟨instant, next⟩ := transition
    obtain ⟨hLater, hRest⟩ := List.pairwise_cons.mp hSorted
    have ih' : t ∈ instantsFrom (some instant) next rest wall ↔
        Option.all (· ≤ t) (some instant) = true ∧ t + offsetFrom next rest t = wall :=
      ih (fun i hi => decide_eq_true (le_of_lt (hLater i hi))) hRest
    rw [instantsFrom, List.mem_append, ih', offsetFrom]
    have hInstant : since.all (· ≤ instant) = true := hSince instant List.mem_cons_self
    rcases lt_or_ge t instant with hLt | hGe
    · -- before the transition this offset decides
      rw [if_pos hLt]
      have hNot : ¬ Option.all (· ≤ t) (some instant) = true := fun h =>
        absurd (of_decide_eq_true h) (not_le.mpr hLt)
      rw [or_iff_left (fun h => hNot h.1)]
      split
      · rename_i hAll
        rw [Bool.and_eq_true] at hAll
        rw [List.mem_singleton]
        constructor
        · rintro rfl
          exact ⟨hAll.1, by omega⟩
        · rintro ⟨_, hWall⟩
          omega
      · rename_i hNone
        refine ⟨fun h => absurd h List.not_mem_nil, fun ⟨hAll, hWall⟩ => absurd ?_ hNone⟩
        rw [show wall - offset = t by omega, hAll, decide_eq_true hLt]
        rfl
    · -- from it on the rest does
      rw [if_neg (not_lt.mpr hGe)]
      have hAll : since.all (· ≤ t) = true := by
        rcases since with _ | s
        · rfl
        · exact decide_eq_true (le_trans (of_decide_eq_true hInstant) hGe)
      have hFrom : Option.all (· ≤ t) (some instant) = true := decide_eq_true hGe
      rw [and_iff_right hFrom, and_iff_right hAll]
      refine ⟨fun h => h.resolve_left ?_, .inr⟩
      split
      · rename_i hBefore
        rw [Bool.and_eq_true, decide_eq_true_eq] at hBefore
        rw [List.mem_singleton]
        omega
      · exact List.not_mem_nil

theorem instantsFrom_sorted {transitions : List (Int × Int)} {since : Option Int} {offset : Int}
    (hSorted : (transitions.map Prod.fst).Pairwise (· < ·)) (wall : Int) :
    (instantsFrom since offset transitions wall).Pairwise (· < ·) := by
  induction transitions generalizing since offset with
  | nil =>
    rw [instantsFrom]
    split
    · exact List.pairwise_singleton _ _
    · exact List.Pairwise.nil
  | cons transition rest ih =>
    obtain ⟨instant, next⟩ := transition
    obtain ⟨hLater, hRest⟩ := List.pairwise_cons.mp hSorted
    rw [instantsFrom, List.pairwise_append]
    refine ⟨?_, ih hRest, ?_⟩
    · split
      · exact List.pairwise_singleton _ _
      · exact List.Pairwise.nil
    · intro a ha b hb
      have hBounds : ∀ i ∈ rest.map Prod.fst, Option.all (· ≤ i) (some instant) = true :=
        fun i hi => decide_eq_true (le_of_lt (hLater i hi))
      have hGe : instant ≤ b :=
        of_decide_eq_true ((mem_instantsFrom hBounds hRest wall b).mp hb).1
      split at ha
      · rename_i hBefore
        rw [Bool.and_eq_true, decide_eq_true_eq] at hBefore
        rw [List.mem_singleton.mp ha]
        omega
      · exact absurd ha List.not_mem_nil

/-- No earlier instant shows the same local time. -/
def Zone.First (zone : Zone) (m : Int) : Prop := ∀ t < m, zone.wall t ≠ zone.wall m

/-- An instant is shown as a whole second only on one. -/
theorem Zone.wall_eq_iff (zone : Zone) (t wall : Int) :
    zone.wall t = 1000 * wall ↔ ∃ s, t = 1000 * s ∧ s + zone.offset s = wall := by
  unfold Zone.wall
  constructor
  · intro h
    refine ⟨t / 1000, by omega, by omega⟩
  · rintro ⟨s, rfl, hs⟩
    rw [show 1000 * s / 1000 = s by omega]
    omega

theorem Zone.mem_instants (zone : Zone) (wall s : Int) :
    s ∈ instantsFrom none zone.initial zone.transitions wall ↔ s + zone.offset s = wall := by
  rw [mem_instantsFrom (fun _ _ => rfl) zone.sorted]
  exact and_iff_right rfl

/-- What `resolve` takes of a local time: the first instant that shows it. -/
theorem resolveFrom_succ (tries : Nat) (wall : Int) :
    resolveFrom calendar zone (tries + 1) wall =
      match (instantsFrom none zone.initial zone.transitions wall).head? with
      | some t => .ok (1000 * t)
      | none =>
        if (wall + 60) / daySeconds ≤ calendar.high then
          resolveFrom calendar zone tries (wall + 60)
        else .error "calendar overflow" := by
  have hSorted : (instantsFrom none zone.initial zone.transitions wall).Pairwise (· < ·) :=
    instantsFrom_sorted zone.sorted wall
  rw [resolveFrom, Zone.fromLocal]
  generalize instantsFrom none zone.initial zone.transitions wall = instants at hSorted ⊢
  rcases instants with _ | ⟨a, _ | ⟨b, rest⟩⟩
  · rfl
  · rfl
  · have hLast : a ≤ (b :: rest).getLast (List.cons_ne_nil _ _) :=
      le_of_lt ((List.pairwise_cons.mp hSorted).1 _ (List.getLast_mem _))
    show Except.ok (1000 * min a _) = Except.ok (1000 * a)
    rw [min_eq_left hLast]

variable {calendar : Calendar} {zone : Zone}

theorem first_shown {wall t : Int}
    (h : (instantsFrom none zone.initial zone.transitions wall).head? = some t) (m : Int) :
    zone.wall m = 1000 * wall ∧ zone.First m ↔ m = 1000 * t := by
  have hSorted : (instantsFrom none zone.initial zone.transitions wall).Pairwise (· < ·) :=
    instantsFrom_sorted zone.sorted wall
  have hShown : zone.wall (1000 * t) = 1000 * wall :=
    (zone.wall_eq_iff _ _).mpr
      ⟨t, rfl, (zone.mem_instants wall t).mp (List.mem_of_mem_head? (Option.mem_def.mpr h))⟩
  have hLeast : ∀ m, zone.wall m = 1000 * wall → 1000 * t ≤ m := by
    intro m hm
    obtain ⟨s, rfl, hs⟩ := (zone.wall_eq_iff m wall).mp hm
    have hMem := (zone.mem_instants wall s).mpr hs
    generalize instantsFrom none zone.initial zone.transitions wall = instants at h hSorted hMem
    rcases instants with _ | ⟨a, rest⟩
    · cases h
    · obtain rfl := Option.some.inj h
      rcases List.mem_cons.mp hMem with rfl | hMem
      · exact le_refl _
      · have := (List.pairwise_cons.mp hSorted).1 s hMem
        omega
  constructor
  · rintro ⟨hm, hFirst⟩
    refine le_antisymm (not_lt.mp fun hLt => hFirst _ hLt ?_) (hLeast m hm)
    rw [hShown, hm]
  · rintro rfl
    refine ⟨hShown, fun m hLt hEq => absurd (hLeast m ?_) (not_le.mpr hLt)⟩
    rw [hEq, hShown]

theorem not_shown {wall : Int}
    (h : (instantsFrom none zone.initial zone.transitions wall).head? = none) (m : Int) :
    zone.wall m ≠ 1000 * wall := by
  intro hm
  obtain ⟨s, _, hs⟩ := (zone.wall_eq_iff m wall).mp hm
  have hMem := (zone.mem_instants wall s).mpr hs
  rw [List.head?_eq_none_iff.mp h] at hMem
  exact List.not_mem_nil hMem

theorem resolveFrom_iff (tries : Nat) {wall : Int} (hIn : wall / daySeconds ≤ calendar.high)
    (m : Int) :
    resolveFrom calendar zone tries wall = .ok m ↔
      ∃ k : Nat, k < tries ∧ (wall + 60 * k) / daySeconds ≤ calendar.high ∧
        (∀ j : Nat, j < k → ∀ t, zone.wall t ≠ 1000 * (wall + 60 * j)) ∧
        zone.wall m = 1000 * (wall + 60 * k) ∧ zone.First m := by
  induction tries generalizing wall with
  | zero => exact ⟨fun h => (nomatch h), fun ⟨k, hk, _⟩ => absurd hk (Nat.not_lt_zero k)⟩
  | succ tries ih =>
    rw [resolveFrom_succ]
    have hZero : wall + 60 * ((0 : Nat) : Int) = wall := by omega
    rcases hHead : (instantsFrom none zone.initial zone.transitions wall).head? with _ | t
    · -- Not shown: the next minute, and the minutes are counted from there.
      have hShift : ∀ k : Nat, wall + 60 + 60 * (k : Int) = wall + 60 * ((k + 1 : Nat) : Int) := by
        intro k
        omega
      dsimp only
      constructor
      · intro h
        split at h
        · rename_i hNext
          obtain ⟨k, hk, hHigh, hSkipped, hm, hFirst⟩ := (ih hNext).mp h
          rw [hShift] at hHigh hm
          refine ⟨k + 1, Nat.succ_lt_succ hk, hHigh, fun j hj t => ?_, hm, hFirst⟩
          rcases j with _ | j
          · rw [hZero]
            exact not_shown hHead t
          · rw [← hShift]
            exact hSkipped j (Nat.lt_of_succ_lt_succ hj) t
        · cases h
      · rintro ⟨k, hk, hHigh, hSkipped, hm, hFirst⟩
        rcases k with _ | k
        · rw [hZero] at hm
          exact absurd hm (not_shown hHead m)
        · have hNext : (wall + 60) / daySeconds ≤ calendar.high :=
            le_trans (Int.ediv_le_ediv (by decide) (by omega)) hHigh
          rw [if_pos hNext]
          refine (ih hNext).mpr ⟨k, Nat.lt_of_succ_lt_succ hk, ?_, fun j hj t => ?_, ?_, hFirst⟩
          · rw [hShift]
            exact hHigh
          · rw [hShift]
            exact hSkipped (j + 1) (Nat.succ_lt_succ hj) t
          · rw [hShift]
            exact hm
    · dsimp only
      have hShown := first_shown hHead
      constructor
      · intro h
        have hm : m = 1000 * t := (Except.ok.inj h).symm
        refine ⟨0, Nat.succ_pos _, ?_, fun j hj => absurd hj (Nat.not_lt_zero j), ?_⟩
        · rw [hZero]
          exact hIn
        · rw [hZero]
          exact (hShown m).mpr hm
      · rintro ⟨k, _, _, hSkipped, hm⟩
        rcases k with _ | k
        · rw [hZero] at hm
          exact congrArg Except.ok ((hShown m).mp hm).symm
        · have hNever := hSkipped 0 (Nat.succ_pos k) (1000 * t)
          rw [hZero] at hNever
          exact absurd ((hShown _).mpr rfl).1 hNever

variable (calendar zone) in
/-- A date opens at the first instant that shows its midnight; where no instant does, the first
whole minute after it that is shown, within two days. -/
def Opens (date m : Int) : Prop :=
  ∃ k : Nat, k ≤ 2880 ∧ (date * daySeconds + 60 * k) / daySeconds ≤ calendar.high ∧
    (∀ j : Nat, j < k → ∀ t, zone.wall t ≠ 1000 * (date * daySeconds + 60 * j)) ∧
    zone.wall m = 1000 * (date * daySeconds + 60 * k) ∧ zone.First m

theorem midnight_iff {first offset : Int} (hOffset : 0 ≤ offset) (m : Int) :
    midnight calendar zone first offset = .ok m ↔ Opens calendar zone (first + offset) m := by
  have hDate : ∀ k : Nat,
      first + offset ≤ ((first + offset) * daySeconds + 60 * k) / daySeconds := by
    intro k
    unfold daySeconds
    omega
  have hMidnight : (first + offset) * daySeconds / daySeconds = first + offset :=
    Int.mul_ediv_cancel _ (by decide)
  rw [midnight, resolve, Opens]
  split
  · rename_i hIn
    rw [resolveFrom_iff 2881 (le_of_eq_of_le hMidnight hIn.2)]
    exact exists_congr fun k => and_congr_left fun _ => Nat.lt_succ_iff
  · rename_i hOut
    refine ⟨fun h => (nomatch h), fun ⟨k, _, hHigh, _⟩ => ?_⟩
    exact absurd ⟨hOffset, le_trans (hDate k) hHigh⟩ hOut

/-! ## The cuts -/

variable (calendar zone) in
/-- The midnights of every `group`-th date after this one. -/
def cuts (grid : Grid) (offset : Int) : Except String (List Int) :=
  if _hMore : offset + grid.group.days < grid.days then
    match midnight calendar zone grid.first (offset + grid.group.days) with
    | .error e => .error e
    | .ok m =>
      match cuts grid (offset + grid.group.days) with
      | .error e => .error e
      | .ok ms => .ok (m :: ms)
  else .ok []
termination_by (grid.days - offset).toNat
decreasing_by
  have := grid.group.pos
  omega

variable {grid : Grid}

/-- **The loop.** -/
theorem gridLoop_eq {offset b : Int} (hMore : offset < grid.days)
    (hStart : (if offset = 0 then .ok grid.start else midnight calendar zone grid.first offset) =
      .ok b) (hOffset : 0 ≤ offset) (periods : List (Int × Int)) :
    gridLoop calendar zone grid offset periods =
      match cuts calendar zone grid offset with
      | .error e => .error e
      | .ok ms => .ok (periods ++ pieces (b :: ms ++ [grid.stop])) := by
  induction h : (grid.days - offset).toNat using Nat.strongRecOn generalizing offset b periods with
  | ind n ih =>
    have hPos := grid.group.pos
    rw [gridLoop, dif_pos hMore, hStart, cuts]
    dsimp only
    have hPiece : ∀ e : Int,
        (if e > b then periods ++ [(b, e)] else periods) = periods ++ pieces [b, e] := by
      intro e
      rcases lt_or_ge b e with hLt | hGe
      · rw [if_pos hLt, pieces_cons_of_lt hLt]
        rfl
      · rw [if_neg (not_lt.mpr hGe), pieces_cons_of_le hGe]
        exact (List.append_nil _).symm
    rcases Int.lt_or_le (offset + grid.group.days) grid.days with hNext | hLast
    · rw [if_neg (Int.not_le.mpr hNext), dif_pos hNext]
      rcases hMidnight : midnight calendar zone grid.first (offset + grid.group.days) with e | m
      · rfl
      · dsimp only
        have hBegin : (if offset + grid.group.days = 0 then .ok grid.start
            else midnight calendar zone grid.first (offset + grid.group.days)) = .ok m := by
          rw [if_neg (by omega), hMidnight]
        rw [ih _ (by omega) hNext hBegin (by omega) _ rfl, hPiece]
        rcases cuts calendar zone grid (offset + grid.group.days) with e | ms
        · rfl
        · show Except.ok _ = Except.ok (periods ++ pieces (b :: m :: (ms ++ [grid.stop])))
          rw [List.append_assoc]
          congr 2
          rcases lt_or_ge b m with hLt | hGe
          · rw [pieces_cons_of_lt hLt, pieces_cons_of_lt hLt]
            rfl
          · rw [pieces_cons_of_le hGe, pieces_cons_of_le hGe]
            rfl
    · rw [if_pos hLast, dif_neg (Int.not_lt.mpr hLast)]
      dsimp only
      rw [gridLoop, dif_neg (by omega), hPiece]
      rfl

/-! ## The dates of the grid -/

/-- Every `group`-th date after that of an offset, up to the last. -/
def gridDates (grid : Grid) (offset : Int) : List Int :=
  (List.range ((grid.days - 1 - offset) / grid.group.days).toNat).map fun (i : Nat) =>
    grid.first + offset + grid.group.days * (i + 1)

theorem gridDates_cons {offset : Int} (h : offset + grid.group.days < grid.days) :
    gridDates grid offset =
      (grid.first + (offset + grid.group.days)) ::
        gridDates grid (offset + grid.group.days) := by
  have hPos := grid.group.pos
  have hCount : (grid.days - 1 - offset) / grid.group.days =
      (grid.days - 1 - (offset + grid.group.days)) / grid.group.days + 1 := by
    rw [← Int.add_mul_ediv_left _ 1 (ne_of_gt hPos), Int.mul_one]
    congr 1
    omega
  have hRest : 0 ≤ (grid.days - 1 - (offset + grid.group.days)) / grid.group.days :=
    Int.ediv_nonneg (by omega) (le_of_lt hPos)
  unfold gridDates
  rw [hCount, Int.toNat_add hRest Int.one_nonneg, show (1 : Int).toNat = 1 from rfl,
    List.range_succ_eq_map, List.map_cons, List.map_map]
  congr 1
  · rw [Int.natCast_zero, Int.zero_add, Int.mul_one, Int.add_assoc]
  · refine List.map_congr_left fun i _ => ?_
    show grid.first + offset + grid.group.days * (((i + 1 : Nat) : Int) + 1) = _
    rw [Int.natCast_succ, Int.mul_add _ (_ + 1), Int.mul_one]
    omega

theorem gridDates_nil {offset : Int} (hMore : offset < grid.days)
    (h : grid.days ≤ offset + grid.group.days) : gridDates grid offset = [] := by
  have hNone : (grid.days - 1 - offset) / grid.group.days = 0 :=
    Int.ediv_eq_zero_of_lt (by omega) (by omega)
  rw [gridDates, hNone]
  rfl

/-- The cuts are where the dates open. -/
theorem cuts_iff {offset : Int} (hMore : offset < grid.days) (hOffset : 0 ≤ offset)
    (ms : List Int) :
    cuts calendar zone grid offset = .ok ms ↔
      List.Forall₂ (Opens calendar zone) (gridDates grid offset) ms := by
  induction h : (grid.days - offset).toNat using Nat.strongRecOn generalizing offset ms with
  | ind n ih =>
    have hPos := grid.group.pos
    rw [cuts]
    rcases Int.lt_or_le (offset + grid.group.days) grid.days with hNext | hLast
    · rw [dif_pos hNext, gridDates_cons hNext, List.forall₂_cons_left_iff]
      have hNonneg : 0 ≤ offset + grid.group.days := by omega
      have hMidnight : ∀ m, midnight calendar zone grid.first (offset + grid.group.days) = .ok m ↔
          Opens calendar zone (grid.first + (offset + grid.group.days)) m := midnight_iff hNonneg
      have ih' := fun ms => ih _ (by omega) hNext hNonneg ms rfl
      constructor
      · intro hCuts
        split at hCuts
        · cases hCuts
        · rename_i m hm
          split at hCuts
          · cases hCuts
          · rename_i rest hRest
            exact ⟨m, rest, (hMidnight m).mp hm, (ih' rest).mp hRest, (Except.ok.inj hCuts).symm⟩
      · rintro ⟨m, rest, hm, hRest, rfl⟩
        rw [(hMidnight m).mpr hm]
        dsimp only
        rw [(ih' rest).mpr hRest]
    · rw [dif_neg (Int.not_lt.mpr hLast), gridDates_nil hMore hLast, List.forall₂_nil_left_iff]
      exact ⟨fun h => (Except.ok.inj h).symm, congrArg Except.ok ∘ Eq.symm⟩

theorem gridDates_length (start stop : Int) {first last : Int} {maxPeriods : Nat} (hMax : 1 ≤ maxPeriods)
    (hDays : first ≤ last) :
    (gridDates (gridOf start stop first last maxPeriods) 0).length + 1 ≤ maxPeriods := by
  have hCap : (max (maxPeriods : Int) 1) = maxPeriods := max_eq_left (by omega)
  have hPos : (0 : Int) < maxPeriods := by omega
  unfold gridDates gridOf
  dsimp only
  rw [List.length_map, List.length_range, hCap, Int.tdiv_eq_ediv_of_nonneg (by omega)]
  generalize hGroup : max ((last - first + 1 + maxPeriods - 1) / (maxPeriods : Int)) 1 = group
  have hGroupPos : 0 < group := by omega
  -- The groups hold all the days, so the last day is in one of them.
  have hCeil := Int.lt_mul_ediv_self_add (x := last - first + 1 + maxPeriods - 1) hPos
  have hCover : last - first + 1 ≤ maxPeriods * group := by
    have hLe : (last - first + 1 + maxPeriods - 1) / (maxPeriods : Int) ≤ group := by omega
    have := Int.mul_le_mul_of_nonneg_left hLe (le_of_lt hPos)
    omega
  have hCount : (last - first + 1 - 1 - 0) / group < maxPeriods :=
    Int.ediv_lt_of_lt_mul hGroupPos (by omega)
  omega

/-! ## Tilings by days -/

/-- The first instant of a local date. -/
def FirstOfDay (zone : Zone) (m : Int) : Prop := ∀ t < m, zone.date t ≠ zone.date m

/-- What a grid is for. -/
structure TilesByDay (zone : Zone) (start stop : Int) (maxPeriods : Nat)
    (periods : List (Int × Int)) : Prop where
  tiles : Tiles start stop periods
  bounded : periods.length ≤ maxPeriods
  days : ∀ m ∈ inner periods, FirstOfDay zone m

/-- The last instant is not on an earlier date than the first, and the dates of the grid open in
order between them, those inside at the first instants of days. -/
structure DaysInOrder (calendar : Calendar) (zone : Zone) (start stop : Int) (maxPeriods : Nat) :
    Prop where
  start_known : utc calendar start = .ok start
  stop_known : utc calendar (stop - 1) = .ok (stop - 1)
  forward : zone.date start ≤ zone.date (stop - 1)
  opens : ∃ ms,
    List.Forall₂ (Opens calendar zone)
      (gridDates (gridOf start stop (zone.date start) (zone.date (stop - 1)) maxPeriods) 0) ms ∧
    (start :: ms ++ [stop]).IsChain (· ≤ ·) ∧ ∀ m ∈ ms, start < m → m < stop → FirstOfDay zone m

theorem utc_ok {ms t : Int} (h : utc calendar ms = .ok t) : t = ms := by
  unfold utc at h
  split at h
  · exact (Except.ok.inj h).symm
  · cases h

/-- With its ends known to the calendar, the grid is the loop. -/
theorem localDayGrid_eq {start stop : Int} (h : start < stop)
    (hStart : utc calendar start = .ok start) (hStop : utc calendar (stop - 1) = .ok (stop - 1))
    (maxPeriods : Nat) :
    localDayGrid calendar zone start stop maxPeriods =
      gridLoop calendar zone
        (gridOf start stop (zone.date start) (zone.date (stop - 1)) maxPeriods) 0 [] := by
  rw [localDayGrid, if_neg (not_le.mpr h), hStart]
  dsimp only
  rw [hStop]

/-- Each date begins at its midnight, once and for all. -/
def Zone.Plain (zone : Zone) : Prop :=
  ∀ date, ∃ m, zone.wall m = 1000 * (date * daySeconds) ∧ (∀ t < m, zone.date t < date) ∧
    ∀ t, m ≤ t → date ≤ zone.date t

theorem mem_gridDates {grid : Grid} {date : Int} (hDays : 1 ≤ grid.days)
    (h : date ∈ gridDates grid 0) : grid.first < date ∧ date < grid.first + grid.days := by
  have hPos := grid.group.pos
  obtain ⟨i, hi, rfl⟩ := List.mem_map.mp h
  have hNonneg : 0 ≤ (grid.days - 1 - 0) / grid.group.days :=
    Int.ediv_nonneg (by omega) (le_of_lt hPos)
  have hCount : (i : Int) + 1 ≤ (grid.days - 1 - 0) / grid.group.days := by
    have := List.mem_range.mp hi
    omega
  have hLe := Int.mul_le_of_le_ediv hPos hCount
  rw [Int.mul_comm] at hLe
  have hGe : 0 < grid.group.days * ((i : Int) + 1) := Int.mul_pos hPos (by omega)
  omega

theorem gridDates_sorted (grid : Grid) : (gridDates grid 0).Pairwise (· < ·) := by
  refine List.pairwise_map.mpr (List.pairwise_lt_range.imp fun {i j} hij => ?_)
  have hLt : grid.group.days * ((i : Int) + 1) < grid.group.days * ((j : Int) + 1) :=
    Int.mul_lt_mul_of_pos_left (by omega) grid.group.pos
  omega

/-- In a plain zone the days of every known window open in order. -/
theorem daysInOrder_of_plain (hPlain : zone.Plain) {start stop : Int} (h : start < stop)
    (hStart : utc calendar start = .ok start) (hStop : utc calendar (stop - 1) = .ok (stop - 1))
    (hHigh : zone.date (stop - 1) ≤ calendar.high) (maxPeriods : Nat) :
    DaysInOrder calendar zone start stop maxPeriods := by
  have hForward : zone.date start ≤ zone.date (stop - 1) := by
    obtain ⟨m, _, hBefore, hAfter⟩ := hPlain (zone.date start)
    have hm : m ≤ start := not_lt.mp fun hLt => absurd (hBefore start hLt) (lt_irrefl _)
    exact hAfter (stop - 1) (by omega)
  -- each date opens at one instant, which separates what is before it from what is not
  choose opening hMidnight hBefore hAfter using hPlain
  have hDate : ∀ date, zone.date (opening date) = date := by
    intro date
    unfold Zone.date daySeconds at *
    unfold dayMillis
    have := hMidnight date
    omega
  have hMono : ∀ date later, date < later → opening date ≤ opening later := by
    intro date later hLt
    refine not_lt.mp fun hBack => ?_
    have := hBefore date _ hBack
    rw [hDate] at this
    omega
  refine ⟨hStart, hStop, hForward, ?_⟩
  generalize hGrid : gridOf start stop (zone.date start) (zone.date (stop - 1)) maxPeriods = grid
  have hFirst : grid.first = zone.date start := by rw [← hGrid]; rfl
  have hDays : grid.days = zone.date (stop - 1) - zone.date start + 1 := by rw [← hGrid]; rfl
  -- the dates that are cut at lie behind the first day
  have hInside : ∀ date ∈ gridDates grid 0,
      zone.date start < date ∧ date ≤ zone.date (stop - 1) := by
    intro date hMem
    have := mem_gridDates (by omega) hMem
    omega
  refine ⟨(gridDates grid 0).map opening, ?_, ?_, ?_⟩
  · rw [List.forall₂_map_right_iff, List.forall₂_same]
    intro date hMem
    refine ⟨0, Nat.zero_le _, ?_, fun j hj => absurd hj (Nat.not_lt_zero j), ?_, ?_⟩
    · rw [Int.natCast_zero, Int.mul_zero, Int.add_zero, Int.mul_ediv_cancel _ (by decide)]
      exact le_trans (hInside date hMem).2 hHigh
    · rw [Int.natCast_zero, Int.mul_zero, Int.add_zero]
      exact hMidnight date
    · intro t ht hEq
      have hEarlier := hBefore date t ht
      unfold Zone.date at hEarlier
      rw [hEq] at hEarlier
      exact absurd hEarlier (not_lt.mpr (le_of_eq (hDate date).symm))
  · rw [List.isChain_iff_pairwise, List.cons_append, List.pairwise_cons, List.pairwise_append]
    have hAfterStart : ∀ date ∈ gridDates grid 0, start ≤ opening date := by
      intro date hMem
      refine not_lt.mp fun hLt => ?_
      have := hAfter date start (le_of_lt hLt)
      have := (hInside date hMem).1
      omega
    have hBeforeStop : ∀ date ∈ gridDates grid 0, opening date ≤ stop := by
      intro date hMem
      refine not_lt.mp fun hLt => ?_
      have := hBefore date (stop - 1) (by omega)
      have := (hInside date hMem).2
      omega
    refine ⟨fun x hx => ?_, ?_, List.pairwise_singleton _ _, fun x hx y hy => ?_⟩
    · rcases List.mem_append.mp hx with hx | hx
      · obtain ⟨date, hMem, rfl⟩ := List.mem_map.mp hx
        exact hAfterStart date hMem
      · rw [List.mem_singleton.mp hx]
        exact le_of_lt h
    · exact List.pairwise_map.mpr ((gridDates_sorted grid).imp fun hLt => hMono _ _ hLt)
    · obtain ⟨date, hMem, rfl⟩ := List.mem_map.mp hx
      rw [List.mem_singleton.mp hy]
      exact hBeforeStop date hMem
  · intro m hm _ _ t ht
    obtain ⟨date, _, rfl⟩ := List.mem_map.mp hm
    rw [hDate]
    exact ne_of_lt (hBefore date t ht)

/-- One offset for ever. -/
theorem plain_of_fixed (h : zone.transitions = []) : zone.Plain := by
  have hOffset : ∀ t, zone.offset t = zone.initial := fun t => by
    rw [Zone.offset, h]
    rfl
  intro date
  unfold Zone.date Zone.wall dayMillis daySeconds
  refine ⟨1000 * (date * 86400) - 1000 * zone.initial, ?_, fun t ht => ?_, fun t ht => ?_⟩
  · rw [hOffset]
    omega
  · rw [hOffset]
    omega
  · rw [hOffset]
    omega

/-- The dates of the `chrono` calendar. -/
def chrono : Calendar where
  low := -96465292
  high := 95026236

/-- St. John's in the autumn of 2010: at a minute past midnight the clock goes back an hour. -/
def stJohns : Zone where
  initial := -9000
  transitions := [(1289097060, -12600)]
  sorted := List.pairwise_singleton _ _

end ScreenSearch.Kernel
