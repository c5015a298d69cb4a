import Mathlib.Data.Int.Order.Basic
import Mathlib.Order.Lattice
import ScreenSearch.Lib.Dwell

/-!
# The enrichment throttle

Under sustained pressure the throttle raises its level a step at a time, and lowers it again once
the pressure is gone. Between its enter and its exit thresholds lies a band in which the level is
held; a dwell time on either side keeps it from flapping. The thresholds may be edited at any time.

Main results:

* `observe_cases` — what one sample can do, with the timers it leaves;
* `Timed.run` — in every run both timers show since when the samples have been over or under;
* `level_law` — so the level moves exactly when they have been for the dwell time.
-/

namespace ScreenSearch.Kernel.Throttle

inductive ThrottleLevel where
  | normal
  | high
  | sustained
  deriving DecidableEq, Repr

namespace ThrottleLevel

def toNat : ThrottleLevel → Nat
  | normal => 0
  | high => 1
  | sustained => 2

def up : ThrottleLevel → ThrottleLevel
  | normal => high
  | high | sustained => sustained

def down : ThrottleLevel → ThrottleLevel
  | sustained => high
  | high | normal => normal

end ThrottleLevel

variable {F : Type} [LinearOrder F]

/-- Thresholds in percent, and the dwell times. -/
structure ThrottleConfig (F : Type) where
  cpuEnterPct : F
  cpuExitPct : F
  gpuEnterPct : F
  gpuExitPct : F
  enterAfterMs : Int64
  exitAfterMs : Int64
  deriving DecidableEq, Repr

/-- A float that was measured; `none` is NaN, which compares with nothing. -/
abbrev Pct (F : Type) := Option F

structure PressureSample (F : Type) where
  cpuPct : Pct F
  gpuPct : Option (Pct F)
  gpuMonitored : Bool
  deriving DecidableEq, Repr

structure ThrottleMachine (F : Type) where
  cfg : ThrottleConfig F
  level : ThrottleLevel := .normal
  overSince : Option Int64 := none
  underSince : Option Int64 := none
  deriving DecidableEq, Repr

def atLeast (pct : Pct F) (threshold : F) : Bool := pct.any fun p => threshold ≤ p

def below (pct : Pct F) (threshold : F) : Bool := pct.any fun p => p < threshold

/-- `i64::saturating_sub`. -/
def saturatingSub (a b : Int64) : Int64 := Int64.ofIntClamp (a.toInt - b.toInt)

namespace ThrottleConfig

def overEnter (cfg : ThrottleConfig F) (s : PressureSample F) : Bool :=
  let gpuHot := s.gpuMonitored && s.gpuPct.any fun g => atLeast g cfg.gpuEnterPct
  atLeast s.cpuPct cfg.cpuEnterPct || gpuHot

def underExit (cfg : ThrottleConfig F) (s : PressureSample F) : Bool :=
  let cpuCool := below s.cpuPct cfg.cpuExitPct
  let gpuCool := !s.gpuMonitored || s.gpuPct.all fun g => below g cfg.gpuExitPct
  cpuCool && gpuCool

/-- The exit thresholds lie below the enter thresholds. -/
def Banded (cfg : ThrottleConfig F) : Prop :=
  cfg.cpuExitPct < cfg.cpuEnterPct ∧ cfg.gpuExitPct < cfg.gpuEnterPct

instance (cfg : ThrottleConfig F) : Decidable cfg.Banded := inferInstanceAs (Decidable (_ ∧ _))

end ThrottleConfig

theorem ThrottleLevel.toNat_up {level : ThrottleLevel} (h : level ≠ .sustained) :
    level.up.toNat = level.toNat + 1 := by
  cases level with
  | normal => rfl
  | high => rfl
  | sustained => exact absurd rfl h

theorem ThrottleLevel.toNat_down {level : ThrottleLevel} (h : level ≠ .normal) :
    level.down.toNat + 1 = level.toNat := by
  cases level with
  | normal => exact absurd rfl h
  | high => rfl
  | sustained => rfl

namespace ThrottleMachine

def setConfig (m : ThrottleMachine F) (cfg : ThrottleConfig F) : ThrottleMachine F :=
  { m with cfg }

def observe (m : ThrottleMachine F) (s : PressureSample F) (now : Int64) : ThrottleMachine F :=
  if m.cfg.overEnter s then
    let since := m.overSince.getD now
    if saturatingSub now since ≥ m.cfg.enterAfterMs ∧ m.level ≠ .sustained then
      { m with level := m.level.up, overSince := some now, underSince := none }
    else { m with overSince := some since, underSince := none }
  else if m.cfg.underExit s then
    let since := m.underSince.getD now
    if saturatingSub now since ≥ m.cfg.exitAfterMs ∧ m.level ≠ .normal then
      { m with level := m.level.down, overSince := none, underSince := some now }
    else { m with overSince := none, underSince := some since }
  else { m with overSince := none, underSince := none }

end ThrottleMachine

/-! ## Runs -/

/-- A configuration edit, or a sample. -/
inductive Event (F : Type) where
  | edit (cfg : ThrottleConfig F)
  | sample (s : PressureSample F) (now : Int64)

/-- A sample with the configuration in force at it and the level around it. -/
structure Observed (F : Type) where
  cfg : ThrottleConfig F
  s : PressureSample F
  now : Int64
  before : ThrottleLevel
  after : ThrottleLevel
  deriving DecidableEq, Repr

/-- One event: the machine after it, and the samples observed so far. -/
def step (run : ThrottleMachine F × List (Observed F)) :
    Event F → ThrottleMachine F × List (Observed F)
  | .edit cfg => (run.1.setConfig cfg, run.2)
  | .sample s now =>
    let next := run.1.observe s now
    (next, run.2 ++ [{ cfg := run.1.cfg, s, now, before := run.1.level, after := next.level }])

def runFrom (run : ThrottleMachine F × List (Observed F)) (events : List (Event F)) :
    ThrottleMachine F × List (Observed F) :=
  events.foldl step run

/-- The samples of a run, in their order. -/
def observed (cfg : ThrottleConfig F) (events : List (Event F)) : List (Observed F) :=
  (runFrom ({ cfg }, []) events).2

namespace Observed

def above (r : Observed F) : Bool := r.cfg.overEnter r.s

def under (r : Observed F) : Bool := r.cfg.underExit r.s

def stepped (r : Observed F) : Bool := r.after != r.before

def time (r : Observed F) : Int := r.now.toInt

def inBand (r : Observed F) : Bool := !r.above && !r.under

end Observed

open Dwell Observed

/-- Every sample since some first one satisfied `p`, with no step after that one, and the dwell time
has passed since. -/
def Held (p : Observed F → Bool) (dwell : Int64) (past : List (Observed F)) (r : Observed F) : Prop :=
  p r = true ∧ ∃ first, (first = r ∨ Since p stepped past first) ∧
    first.time + dwell.toInt ≤ r.time

/-! ## One sample -/

theorem below_of_atLeast {pct : Pct F} {enter exit : F} (hBand : exit < enter)
    (h : atLeast pct enter = true) : below pct exit = false := by
  unfold atLeast at h
  unfold below
  cases pct with
  | none => rfl
  | some p =>
    rw [Option.any_some, decide_eq_true_eq] at h
    rw [Option.any_some, decide_eq_false_iff_not]
    exact not_lt_of_ge (le_trans (le_of_lt hBand) h)

/-- Nothing is both hot and cool. -/
theorem under_of_over {cfg : ThrottleConfig F} {s : PressureSample F} (hBanded : cfg.Banded)
    (h : cfg.overEnter s = true) : cfg.underExit s = false := by
  unfold ThrottleConfig.overEnter at h
  unfold ThrottleConfig.underExit
  rw [Bool.and_eq_false_iff]
  rcases Bool.or_eq_true_iff.mp h with hCpu | hGpu
  · exact Or.inl (below_of_atLeast hBanded.1 hCpu)
  · obtain ⟨hMonitored, hHot⟩ := Bool.and_eq_true_iff.mp hGpu
    right
    rcases hPct : s.gpuPct with _ | g
    · rw [hPct] at hHot
      cases hHot
    · rw [hPct, Option.any_some] at hHot
      rw [hMonitored, Option.all_some, below_of_atLeast hBanded.2 hHot]
      rfl

theorem le_saturatingSub (dwell : Int64) {now since : Int64} (h : since.toInt ≤ now.toInt) :
    saturatingSub now since ≥ dwell ↔ since.toInt + dwell.toInt ≤ now.toInt := by
  have hMax := dwell.toInt_le
  have hMin : Int64.minValue.toInt ≤ 0 := by decide
  rw [ge_iff_le, Int64.le_iff_toInt_le, saturatingSub]
  by_cases hFits : now.toInt - since.toInt ≤ Int64.maxValue.toInt
  · rw [Int64.toInt_ofIntClamp (by omega) hFits]
    omega
  · rw [Int64.ofIntClamp, dif_pos (by omega), dif_neg hFits]
    omega

/-- Both timers show since when the samples have been over or under. -/
structure Timed (m : ThrottleMachine F) (past : List (Observed F)) : Prop where
  overSince : m.overSince.map Int64.toInt = timer above stepped time past
  underSince : m.underSince.map Int64.toInt = timer under stepped time past
  level : m.level = (past.getLast?.map Observed.after).getD .normal

/-- A machine observes a sample. -/
def observation (m : ThrottleMachine F) (s : PressureSample F) (now : Int64) : Observed F :=
  { cfg := m.cfg, s, now, before := m.level, after := (m.observe s now).level }

/-- What one sample does: it steps the level or leaves it, and sets both timers. -/
theorem Timed.observe {m : ThrottleMachine F} {past : List (Observed F)} {s : PressureSample F}
    {now : Int64} (h : Timed m past) (hBanded : m.cfg.Banded) :
    Timed (m.observe s now) (past ++ [observation m s now]) := by
  have hLevel : (m.observe s now).level = ((past ++ [observation m s now]).getLast?.map
      Observed.after).getD .normal := by
    rw [List.getLast?_concat]
    rfl
  suffices hTimers : (m.observe s now).overSince.map Int64.toInt =
        tick above stepped time (m.overSince.map Int64.toInt) (observation m s now) ∧
      (m.observe s now).underSince.map Int64.toInt =
        tick under stepped time (m.underSince.map Int64.toInt) (observation m s now) by
    rw [h.overSince, h.underSince] at hTimers
    exact ⟨by rw [timer_concat, hTimers.1], by rw [timer_concat, hTimers.2], hLevel⟩
  have hOver : (observation m s now).above = m.cfg.overEnter s := rfl
  have hUnder : (observation m s now).under = m.cfg.underExit s := rfl
  have hStepped : (observation m s now).stepped = ((m.observe s now).level != m.level) := rfl
  have hTime : (observation m s now).time = now.toInt := rfl
  unfold tick
  rw [hOver, hUnder, hStepped, hTime]
  unfold ThrottleMachine.observe
  by_cases hHot : m.cfg.overEnter s = true
  · rw [if_pos hHot, under_of_over hBanded hHot]
    by_cases hStep : saturatingSub now (m.overSince.getD now) ≥ m.cfg.enterAfterMs ∧
        m.level ≠ .sustained
    · have hMoved : m.level.up ≠ m.level := fun hSame => by
        have := ThrottleLevel.toNat_up hStep.2
        rw [hSame] at this
        omega
      rw [if_pos hStep, if_pos hHot, if_pos (bne_iff_ne.mpr hMoved)]
      exact ⟨rfl, rfl⟩
    · rw [if_neg hStep, if_pos hHot, if_neg (by simp)]
      cases m.overSince with
      | none => exact ⟨rfl, rfl⟩
      | some since => exact ⟨rfl, rfl⟩
  · rw [if_neg hHot, if_neg hHot]
    by_cases hCool : m.cfg.underExit s = true
    · rw [if_pos hCool, if_pos hCool]
      by_cases hStep : saturatingSub now (m.underSince.getD now) ≥ m.cfg.exitAfterMs ∧
          m.level ≠ .normal
      · have hMoved : m.level.down ≠ m.level := fun hSame => by
          have := ThrottleLevel.toNat_down hStep.2
          rw [hSame] at this
          omega
        rw [if_pos hStep, if_pos (bne_iff_ne.mpr hMoved)]
        exact ⟨rfl, rfl⟩
      · rw [if_neg hStep, if_neg (by simp)]
        cases m.underSince with
        | none => exact ⟨rfl, rfl⟩
        | some since => exact ⟨rfl, rfl⟩
    · rw [if_neg hCool, if_neg hCool]
      exact ⟨rfl, rfl⟩

/-- When one sample steps the level. -/
theorem level_observe {m : ThrottleMachine F} (s : PressureSample F) (now : Int64)
    (hBanded : m.cfg.Banded) (hOver : ∀ t ∈ m.overSince, t.toInt ≤ now.toInt)
    (hUnder : ∀ t ∈ m.underSince, t.toInt ≤ now.toInt) :
    let raised := m.level ≠ .sustained ∧ m.cfg.overEnter s = true ∧
      (m.overSince.getD now).toInt + m.cfg.enterAfterMs.toInt ≤ now.toInt
    let lowered := m.level ≠ .normal ∧ m.cfg.underExit s = true ∧
      (m.underSince.getD now).toInt + m.cfg.exitAfterMs.toInt ≤ now.toInt
    raised ∧ ¬ lowered ∧ (m.observe s now).level = m.level.up ∨
      lowered ∧ ¬ raised ∧ (m.observe s now).level = m.level.down ∨
      ¬ raised ∧ ¬ lowered ∧ (m.observe s now).level = m.level := by
  have hStart : ∀ timer : Option Int64, (∀ t ∈ timer, t.toInt ≤ now.toInt) →
      (timer.getD now).toInt ≤ now.toInt := by
    intro timer hTimer
    cases timer with
    | none => exact Int.le_refl _
    | some t => exact hTimer t rfl
  have hOverStart := le_saturatingSub m.cfg.enterAfterMs (hStart _ hOver)
  have hUnderStart := le_saturatingSub m.cfg.exitAfterMs (hStart _ hUnder)
  unfold ThrottleMachine.observe
  by_cases hHot : m.cfg.overEnter s = true
  · have hNotCool : ¬ m.cfg.underExit s = true := by
      rw [under_of_over hBanded hHot]
      exact Bool.false_ne_true
    rw [if_pos hHot]
    by_cases hStep : saturatingSub now (m.overSince.getD now) ≥ m.cfg.enterAfterMs ∧
        m.level ≠ .sustained
    · rw [if_pos hStep]
      exact Or.inl ⟨⟨hStep.2, hHot, hOverStart.mp hStep.1⟩, fun h => hNotCool h.2.1, rfl⟩
    · rw [if_neg hStep]
      exact Or.inr (Or.inr
        ⟨fun h => hStep ⟨hOverStart.mpr h.2.2, h.1⟩, fun h => hNotCool h.2.1, rfl⟩)
  · rw [if_neg hHot]
    by_cases hCool : m.cfg.underExit s = true
    · rw [if_pos hCool]
      by_cases hStep : saturatingSub now (m.underSince.getD now) ≥ m.cfg.exitAfterMs ∧
          m.level ≠ .normal
      · rw [if_pos hStep]
        exact Or.inr (Or.inl ⟨⟨hStep.2, hCool, hUnderStart.mp hStep.1⟩, fun h => hHot h.2.1, rfl⟩)
      · rw [if_neg hStep]
        exact Or.inr (Or.inr
          ⟨fun h => hHot h.2.1, fun h => hStep ⟨hUnderStart.mpr h.2.2, h.1⟩, rfl⟩)
    · rw [if_neg hCool]
      exact Or.inr (Or.inr ⟨fun h => hHot h.2.1, fun h => hCool h.2.1, rfl⟩)

/-! ## Whole runs -/

/-- Every sample of a run was observed by a machine whose timers know the samples before it. -/
def Seen (all : List (Observed F)) : Prop :=
  ∀ past r future, all = past ++ r :: future →
    ∃ m s now, Timed m past ∧ r = observation m s now

theorem Seen.concat {all : List (Observed F)} {m : ThrottleMachine F} {s : PressureSample F}
    {now : Int64} (h : Seen all) (hTimed : Timed m all) :
    Seen (all ++ [observation m s now]) := by
  intro past r future hSplit
  rcases List.eq_nil_or_concat future with rfl | ⟨front, last, rfl⟩
  · obtain ⟨rfl, hLast⟩ := List.append_inj' hSplit rfl
    cases hLast
    exact ⟨m, s, now, hTimed, rfl⟩
  · rw [List.concat_eq_append, ← List.cons_append, ← List.append_assoc] at hSplit
    obtain ⟨rfl, -⟩ := List.append_inj' hSplit rfl
    exact h past r front rfl

/-- In every run, under configurations with a band. -/
theorem Timed.run {cfg : ThrottleConfig F} {events : List (Event F)}
    (hBanded : ∀ r ∈ observed cfg events, r.cfg.Banded) :
    Timed (runFrom ({ cfg }, []) events).1 (observed cfg events) ∧ Seen (observed cfg events) := by
  unfold observed at hBanded ⊢
  induction events using List.reverseRecOn with
  | nil =>
    refine ⟨⟨rfl, rfl, rfl⟩, fun past r future hSplit => ?_⟩
    exact absurd hSplit.symm (List.append_ne_nil_of_right_ne_nil _ (List.cons_ne_nil _ _))
  | append_singleton events event ih =>
    have hStep : runFrom ({ cfg }, []) (events ++ [event]) =
        step (runFrom ({ cfg }, []) events) event := List.foldl_append
    rw [hStep] at hBanded ⊢
    generalize runFrom ({ cfg }, []) events = run at ih hBanded ⊢
    cases event with
    | edit other =>
      obtain ⟨hTimed, hSeen⟩ := ih hBanded
      exact ⟨⟨hTimed.overSince, hTimed.underSince, hTimed.level⟩, hSeen⟩
    | sample s now =>
      obtain ⟨hTimed, hSeen⟩ := ih fun r hr => hBanded r (List.mem_append_left _ hr)
      have hHere := hBanded (observation run.1 s now) (List.mem_append_right _ List.mem_cons_self)
      exact ⟨hTimed.observe hHere, hSeen.concat hTimed⟩

omit [LinearOrder F] in
/-- A timer shows no time after the sample it is read at. -/
theorem timer_le {p : Observed F → Bool} {past : List (Observed F)} {r : Observed F}
    {timer : Option Int64} (hTimer : timer.map Int64.toInt = Dwell.timer p stepped time past)
    (hTimes : (past ++ [r]).Pairwise fun a b => a.time ≤ b.time) :
    ∀ t ∈ timer, t.toInt ≤ r.now.toInt := by
  intro t ht
  obtain ⟨hPast, -, hLast⟩ := List.pairwise_append.mp hTimes
  have hSpec := timer_spec p stepped hPast
  rw [← hTimer, Option.mem_def.mp ht] at hSpec
  obtain ⟨⟨first, hSince, hTime⟩, -⟩ := hSpec
  exact hTime ▸ hLast first hSince.mem r List.mem_cons_self

omit [LinearOrder F] in
/-- A timer has run for the dwell time exactly if its condition has held for it. -/
theorem timer_elapsed {p : Observed F → Bool} {past : List (Observed F)} {r : Observed F}
    {timer : Option Int64} {dwell : Int64}
    (hTimer : timer.map Int64.toInt = Dwell.timer p stepped time past)
    (hTimes : (past ++ [r]).Pairwise fun a b => a.time ≤ b.time) :
    p r = true ∧ (timer.getD r.now).toInt + dwell.toInt ≤ r.now.toInt ↔ Held p dwell past r := by
  have hElapsed := @elapsed_iff _ _ time past r _ p stepped (fun t => t + dwell.toInt ≤ r.time)
    (fun s t hst h => by omega) hTimes
  have hGet : (timer.getD r.now).toInt = (timer.map Int64.toInt).getD r.time := by
    cases timer with
    | none => rfl
    | some t => rfl
  rw [hGet, hTimer]
  exact and_congr_right fun _ => hElapsed

omit [LinearOrder F] in
/-- A sample in the band ends what has held. -/
theorem Held.after_band {p : Observed F → Bool} {past : List (Observed F)} {r x : Observed F}
    {dwell : Int64} (h : Held p dwell past r)
    (hTimes : (past ++ [r]).Pairwise fun a b => a.time ≤ b.time)
    (hx : x ∈ past ++ [r]) (hNot : p x = false) : x.time + dwell.toInt ≤ r.time := by
  obtain ⟨hHere, first, hFirst, hEnough⟩ := h
  obtain ⟨hPast, -, hLast⟩ := List.pairwise_append.mp hTimes
  have hOther : x ≠ r := by
    rintro rfl
    rw [hHere] at hNot
    cases hNot
  have hIn : x ∈ past := (List.mem_append.mp hx).resolve_right
    fun hEnd => hOther (List.mem_singleton.mp hEnd)
  rcases hFirst with rfl | ⟨older, later, rfl, hHolds, -⟩
  · have := hLast x hIn first List.mem_cons_self
    omega
  · rcases List.mem_append.mp hIn with hOlder | hStretch
    · have := (List.pairwise_append.mp hPast).2.2 x hOlder first List.mem_cons_self
      omega
    · rw [hHolds x hStretch] at hNot
      cases hNot

/-- In every run whose samples come in the order of their times, and at every sample of it: the
level goes on from the last one and moves by a step at most. It is raised exactly if there was a
step left and the samples have been over for the dwell time, lowered exactly if they have been under
for it; a sample in the band less than the dwell times ago keeps it. -/
theorem level_law {cfg : ThrottleConfig F} {events : List (Event F)} {past future : List (Observed F)}
    {r : Observed F} (hTimes : (observed cfg events).Pairwise fun a b => a.now ≤ b.now)
    (hBanded : ∀ r ∈ observed cfg events, r.cfg.Banded)
    (hSplit : observed cfg events = past ++ r :: future) :
    r.before = (past.getLast?.map Observed.after).getD .normal ∧
      (r.after.toNat ≤ r.before.toNat + 1 ∧ r.before.toNat ≤ r.after.toNat + 1) ∧
      (r.before.toNat < r.after.toNat ↔
        r.before ≠ .sustained ∧ Held above r.cfg.enterAfterMs past r) ∧
      (r.after.toNat < r.before.toNat ↔
        r.before ≠ .normal ∧ Held under r.cfg.exitAfterMs past r) ∧
      ((∃ x ∈ past ++ [r], x.inBand = true ∧ r.time < x.time + r.cfg.enterAfterMs.toInt ∧
        r.time < x.time + r.cfg.exitAfterMs.toInt) → r.after = r.before) := by
  obtain ⟨-, hSeen⟩ := Timed.run hBanded
  obtain ⟨m, s, now, hTimed, rfl⟩ := hSeen past r future hSplit
  have hHere : m.cfg.Banded := hBanded (observation m s now) (by
    rw [hSplit]
    exact List.mem_append_right _ List.mem_cons_self)
  have hOrder : (past ++ [observation m s now]).Pairwise fun a b => a.time ≤ b.time := by
    have hUpTo : (past ++ [observation m s now]).Sublist (observed cfg events) := by
      rw [hSplit]
      exact List.Sublist.append_left (List.singleton_sublist.mpr List.mem_cons_self) past
    exact (hTimes.sublist hUpTo).imp fun h => Int64.le_iff_toInt_le.mp h
  generalize hr : observation m s now = r at hOrder hSplit
  -- the timers of the machine say what the samples before said
  have hRaise : m.cfg.overEnter s = true ∧
      (m.overSince.getD now).toInt + m.cfg.enterAfterMs.toInt ≤ now.toInt ↔
      Held above m.cfg.enterAfterMs past r := by
    rw [← hr] at hOrder ⊢
    exact timer_elapsed hTimed.overSince hOrder
  have hLower : m.cfg.underExit s = true ∧
      (m.underSince.getD now).toInt + m.cfg.exitAfterMs.toInt ≤ now.toInt ↔
      Held under m.cfg.exitAfterMs past r := by
    rw [← hr] at hOrder ⊢
    exact timer_elapsed hTimed.underSince hOrder
  -- a recent sample in the band keeps both timers from running out
  have hBand : (∃ x ∈ past ++ [r], x.inBand = true ∧ r.time < x.time + m.cfg.enterAfterMs.toInt ∧
      r.time < x.time + m.cfg.exitAfterMs.toInt) →
      ¬ Held above m.cfg.enterAfterMs past r ∧ ¬ Held under m.cfg.exitAfterMs past r := by
    rintro ⟨x, hx, hIn, hEnter, hExit⟩
    obtain ⟨hNotOver, hNotUnder⟩ := Bool.and_eq_true_iff.mp hIn
    refine ⟨fun hHeld => ?_, fun hHeld => ?_⟩
    · have := hHeld.after_band hOrder hx (Bool.not_eq_true' _ ▸ hNotOver)
      omega
    · have := hHeld.after_band hOrder hx (Bool.not_eq_true' _ ▸ hNotUnder)
      omega
  have hTime : r.time = now.toInt := by
    rw [← hr]
    rfl
  have hOverSince : ∀ t ∈ m.overSince, t.toInt ≤ r.time := timer_le hTimed.overSince hOrder
  have hUnderSince : ∀ t ∈ m.underSince, t.toInt ≤ r.time := timer_le hTimed.underSince hOrder
  rw [hTime] at hOverSince hUnderSince
  have hMove := level_observe s now hHere hOverSince hUnderSince
  simp only [hRaise, hLower] at hMove
  have hCfg : r.cfg = m.cfg := hr ▸ rfl
  have hBefore : r.before = m.level := hr ▸ rfl
  have hAfter : r.after = (m.observe s now).level := hr ▸ rfl
  rw [hCfg, hBefore, hAfter]
  refine ⟨hTimed.level, ?_⟩
  rcases hMove with ⟨hUp, hNotDown, hLevel⟩ | ⟨hDown, hNotUp, hLevel⟩ | ⟨hNotUp, hNotDown, hLevel⟩
  · have hStep := ThrottleLevel.toNat_up hUp.1
    rw [hLevel]
    exact ⟨by omega, ⟨fun _ => hUp, fun _ => by omega⟩,
      ⟨fun h => by omega, fun h => absurd h hNotDown⟩, fun h => absurd hUp.2 (hBand h).1⟩
  · have hStep := ThrottleLevel.toNat_down hDown.1
    rw [hLevel]
    exact ⟨by omega, ⟨fun h => by omega, fun h => absurd h hNotUp⟩,
      ⟨fun _ => hDown, fun _ => by omega⟩, fun h => absurd hDown.2 (hBand h).2⟩
  · rw [hLevel]
    exact ⟨by omega, ⟨fun h => by omega, fun h => absurd h hNotUp⟩,
      ⟨fun h => by omega, fun h => absurd h hNotDown⟩, fun _ => rfl⟩

/-- Five seconds above the threshold, and not a millisecond less, raise the level. -/
theorem level_law_two_samples :
    let cfg : ThrottleConfig Int := ⟨85, 65, 90, 70, 5000, 8000⟩
    let hot : PressureSample Int := ⟨some 95, none, false⟩
    Held above 5000 [⟨cfg, hot, 0, .normal, .normal⟩] ⟨cfg, hot, 5000, .normal, .high⟩ ∧
      ¬ Held above 5000 [⟨cfg, hot, 1, .normal, .normal⟩] ⟨cfg, hot, 5000, .normal, .normal⟩ := by
  intro cfg hot
  have hLong := @level_law Int _ cfg [.sample hot 0, .sample hot 5000]
    [⟨cfg, hot, 0, .normal, .normal⟩] [] ⟨cfg, hot, 5000, .normal, .high⟩
    (by decide +kernel) (by decide +kernel) (by decide +kernel)
  have hShort := @level_law Int _ cfg [.sample hot 1, .sample hot 5000]
    [⟨cfg, hot, 1, .normal, .normal⟩] [] ⟨cfg, hot, 5000, .normal, .normal⟩
    (by decide +kernel) (by decide +kernel) (by decide +kernel)
  refine ⟨(hLong.2.2.1.mp (by decide)).2, fun hHeld => ?_⟩
  exact absurd (hShort.2.2.1.mpr ⟨by decide, hHeld⟩) (by decide)

end ScreenSearch.Kernel.Throttle
