import Mathlib.Tactic.Common
import ScreenSearch.Lib.Assoc

/-!
# The per-app circuit breaker

An app whose walks end badly too many times in a row is left to OCR for a while. The breaker
keeps one entry per app: the streak of bad walks, and until when it is open. A lapsed entry is
cleared by the next record of its app, which is also where the resumption is reported.

Main results:

* `record_entry` — a record changes the entry of its app only, as `PerApp.next` says;
* `runs_kept` — what the entry of an app says of the log of all walks so far;
* `breaker_law` — when the breaker is open, opens and closes, in terms of the log alone, and
  that the walks of one app are answered as if there were no others.
-/

namespace ScreenSearch.Uia

open Assoc

/-- The breaker's view of a walk. -/
inductive UiaSignal where
  | good | bad | neutral
  deriving DecidableEq, Repr

inductive BreakerTransition where
  | opened | closed
  deriving DecidableEq, Repr

structure PerApp where
  consecutiveBad : Nat
  openUntilMs : Option Nat
  deriving DecidableEq, Repr

/-- `PerApp::default`. -/
def PerApp.fresh : PerApp := ⟨0, none⟩

structure AppBreaker where
  apps : HashMap PerApp
  threshold : Nat
  cooldownMs : Nat

def u64Max : Nat := 18446744073709551615

def saturatingAdd (a b : Nat) : Nat := min (a + b) u64Max

namespace AppBreaker

def new (threshold cooldownMs : Nat) : AppBreaker where
  apps := ∅
  threshold := max threshold 1
  cooldownMs := cooldownMs

def isOpen (b : AppBreaker) (app : String) (nowMs : Nat) : Bool :=
  match b.apps.lookup app with
  | some ⟨_, some t⟩ => decide (nowMs < t)
  | _ => false

/-- A cooldown that lapsed is cleared, and its end is reported once. -/
def lapse (b : AppBreaker) (app : String) (nowMs : Nat) :
    HashMap PerApp × Option BreakerTransition :=
  match b.apps.lookup app with
  | some p =>
    if p.openUntilMs.any fun t => decide (nowMs ≥ t) then
      (b.apps.insert app { p with openUntilMs := none, consecutiveBad := 0 }, some .closed)
    else (b.apps, none)
  | none => (b.apps, none)

def record (b : AppBreaker) (app : String) (signal : UiaSignal) (nowMs : Nat) :
    AppBreaker × Option BreakerTransition :=
  let (apps, transition) := b.lapse app nowMs
  match signal with
  | .neutral => ({ b with apps := apps }, transition)
  | .good =>
    match apps.lookup app with
    | some p => ({ b with apps := apps.insert app { p with consecutiveBad := 0 } }, transition)
    | none => ({ b with apps := apps }, transition)
  | .bad =>
    let p := (apps.lookup app).getD .fresh
    let p := { p with consecutiveBad := p.consecutiveBad + 1 }
    if p.consecutiveBad ≥ b.threshold then
      -- opening supersedes a resumption reported by the same call
      let p : PerApp := { consecutiveBad := 0, openUntilMs := some (saturatingAdd nowMs b.cooldownMs) }
      ({ b with apps := apps.insert app p }, some .opened)
    else ({ b with apps := apps.insert app p }, transition)

end AppBreaker

/-! ## Guarded walks -/

/-- A frame of an app, at a time, and how a walk of it would end. -/
structure AppWalk where
  app : String
  signal : UiaSignal
  nowMs : Nat
  deriving DecidableEq, Repr

/-- A walk that was recorded, and the transition that this reported. -/
structure Recorded extends AppWalk where
  transition : Option BreakerTransition
  deriving DecidableEq, Repr

/-- The breaker, and the walks that were recorded, latest first. -/
structure BreakerRun where
  breaker : AppBreaker
  log : List Recorded

namespace BreakerRun

def start (threshold cooldownMs : Nat) : BreakerRun := ⟨.new threshold cooldownMs, []⟩

/-- An open breaker skips the walk. -/
def walk (r : BreakerRun) (w : AppWalk) : BreakerRun :=
  if r.breaker.isOpen w.app w.nowMs then r
  else
    let (breaker, transition) := r.breaker.record w.app w.signal w.nowMs
    ⟨breaker, ⟨w, transition⟩ :: r.log⟩

def walks (r : BreakerRun) (ws : List AppWalk) : BreakerRun := ws.foldl walk r

end BreakerRun

/-! ## What the log says -/

def ofApp (app : String) (log : List Recorded) : List Recorded :=
  log.filter fun e => decide (e.app = app)

/-- When the breaker last opened, in the log of one app. -/
def lastOpenedMs (log : List Recorded) : Option Nat :=
  (log.find? fun e => decide (e.transition = some .opened)).map fun e => e.nowMs

/-- How many walks ended badly since the last good one and the last opening, in the log of one
app. -/
def badSince (log : List Recorded) : Nat :=
  (log.takeWhile fun e => decide (e.signal ≠ .good) && decide (e.transition ≠ some .opened)).countP
    fun e => decide (e.signal = .bad)

/-- The transitions that were reported, latest first. -/
def transitions (log : List Recorded) : List BreakerTransition := log.filterMap (·.transition)

/-- The last walk that was recorded opened the breaker. -/
def justOpened : List Recorded → Option Nat
  | [] => none
  | e :: _ => if e.transition = some .opened then some e.nowMs else none

/-! ## One entry -/

/-- The entry after a record, and the transition that it reports. -/
def PerApp.next (threshold cooldownMs : Nat) (p : PerApp) (signal : UiaSignal) (nowMs : Nat) :
    PerApp × Option BreakerTransition :=
  let (p, transition) :=
    if p.openUntilMs.any fun t => decide (nowMs ≥ t) then (PerApp.fresh, some .closed) else (p, none)
  match signal with
  | .neutral => (p, transition)
  | .good => ({ p with consecutiveBad := 0 }, transition)
  | .bad =>
    if p.consecutiveBad + 1 ≥ threshold then
      (⟨0, some (saturatingAdd nowMs cooldownMs)⟩, some .opened)
    else ({ p with consecutiveBad := p.consecutiveBad + 1 }, transition)

namespace AppBreaker

variable {b : AppBreaker} {app other : String} {signal : UiaSignal} {t nowMs : Nat}

def entry (b : AppBreaker) (app : String) : PerApp := (b.apps.lookup app).getD .fresh

theorem isOpen_entry :
    b.isOpen app t = (b.entry app).openUntilMs.any fun u => decide (t < u) := by
  unfold isOpen entry
  rcases b.apps.lookup app with _ | ⟨_, _ | u⟩ <;> rfl

/-- The map after a lapse, and what it reports. -/
theorem lapse_entry (b : AppBreaker) (app : String) (nowMs : Nat) :
    ((b.lapse app nowMs).1.lookup app).getD .fresh =
      (if (b.entry app).openUntilMs.any fun t => decide (nowMs ≥ t) then .fresh else b.entry app) ∧
    (b.lapse app nowMs).2 =
      (if (b.entry app).openUntilMs.any fun t => decide (nowMs ≥ t) then some .closed else none) ∧
    ∀ other, other ≠ app → (b.lapse app nowMs).1.lookup other = b.apps.lookup other := by
  unfold lapse entry
  rcases hLookup : b.apps.lookup app with _ | p
  · exact ⟨by rw [hLookup]; rfl, rfl, fun _ _ => rfl⟩
  · dsimp only [Option.getD_some]
    split
    · refine ⟨?_, rfl, ?_⟩
      · rw [AList.lookup_insert]
        rfl
      · intro other hOther
        exact AList.lookup_insert_ne hOther
    · exact ⟨by rw [hLookup]; rfl, rfl, fun _ _ => rfl⟩

theorem record_entry (b : AppBreaker) (app : String) (signal : UiaSignal) (nowMs : Nat) :
    (b.record app signal nowMs).1.threshold = b.threshold ∧
    (b.record app signal nowMs).1.cooldownMs = b.cooldownMs ∧
    ((b.record app signal nowMs).1.entry app, (b.record app signal nowMs).2) =
      (b.entry app).next b.threshold b.cooldownMs signal nowMs ∧
    ∀ other, other ≠ app → (b.record app signal nowMs).1.entry other = b.entry other := by
  obtain ⟨hEntry, hTransition, hOthers⟩ := lapse_entry b app nowMs
  unfold record PerApp.next
  rcases hLapse : b.lapse app nowMs with ⟨apps, transition⟩
  rw [hLapse] at hEntry hTransition hOthers
  dsimp only at hEntry hTransition hOthers ⊢
  have hInsert : ∀ p : PerApp, ∀ other, other ≠ app →
      ({ b with apps := apps.insert app p } : AppBreaker).entry other = b.entry other := by
    intro p other hOther
    unfold entry
    rw [AList.lookup_insert_ne hOther, hOthers other hOther]
  have hSelf : ∀ p : PerApp, ({ b with apps := apps.insert app p } : AppBreaker).entry app = p := by
    intro p
    unfold entry
    rw [AList.lookup_insert]
    rfl
  have hSame : ∀ other, other ≠ app →
      ({ b with apps := apps } : AppBreaker).entry other = b.entry other := by
    intro other hOther
    unfold entry
    rw [hOthers other hOther]
  have hKept : ({ b with apps := apps } : AppBreaker).entry app = (apps.lookup app).getD .fresh := rfl
  have hPair : (if (b.entry app).openUntilMs.any fun t => decide (nowMs ≥ t) then
      (PerApp.fresh, some .closed) else (b.entry app, none)) =
      ((apps.lookup app).getD .fresh, transition) := by
    rw [hEntry, hTransition]
    split <;> rfl
  rw [hPair]
  dsimp only
  rcases signal with _ | _ | _
  · -- good
    dsimp only
    split
    · next p hp =>
      refine ⟨rfl, rfl, ?_, hInsert _⟩
      rw [hSelf, hp]
      rfl
    · next hNone =>
      refine ⟨rfl, rfl, ?_, hSame⟩
      rw [hKept, hNone]
      rfl
  · -- bad
    dsimp only
    split
    · refine ⟨rfl, rfl, ?_, hInsert _⟩
      rw [hSelf]
    · refine ⟨rfl, rfl, ?_, hInsert _⟩
      rw [hSelf]
  · exact ⟨rfl, rfl, rfl, hSame⟩

end AppBreaker

/-- What the entry of an app says of the log of its walks. -/
structure PerApp.Kept (threshold cooldownMs : Nat) (p : PerApp) (log : List Recorded) : Prop where
  streak : p.consecutiveBad = badSince log
  below : p.consecutiveBad < threshold
  openUntil : p.openUntilMs = (justOpened log).map (saturatingAdd · cooldownMs)
  passed : ∀ t₀, lastOpenedMs log = some t₀ →
    justOpened log = some t₀ ∨ ∃ e ∈ log, saturatingAdd t₀ cooldownMs ≤ e.nowMs

section

variable {threshold cooldownMs : Nat} {p : PerApp} {log : List Recorded} {e : Recorded}

theorem badSince_cons (e : Recorded) (log : List Recorded) : badSince (e :: log) =
    if e.signal = .good ∨ e.transition = some .opened then 0
    else (if e.signal = .bad then 1 else 0) + badSince log := by
  unfold badSince
  rw [List.takeWhile_cons]
  by_cases hStop : e.signal = .good ∨ e.transition = some .opened
  · rw [if_pos hStop, if_neg (by grind)]
    rfl
  · rw [if_neg hStop, if_pos (by grind), List.countP_cons, Nat.add_comm]
    simp only [decide_eq_true_eq]

/-- Right after an opening the streak is empty. -/
theorem badSince_of_justOpened {t₀ : Nat} (h : justOpened log = some t₀) : badSince log = 0 := by
  rcases log with _ | ⟨e, log⟩
  · cases h
  · unfold justOpened at h
    dsimp only at h
    split at h
    · next hOpened => rw [badSince_cons, if_pos (.inr hOpened)]
    · cases h

/-- What a record does that was let through. -/
theorem next_kept (h : p.Kept threshold cooldownMs log) (signal : UiaSignal) {nowMs : Nat}
    (hClosed : (p.openUntilMs.any fun u => decide (nowMs < u)) = false) :
    p.next threshold cooldownMs signal nowMs =
      let transition := if (justOpened log).isSome then some .closed else none
      match signal with
      | .neutral => (⟨badSince log, none⟩, transition)
      | .good => (⟨0, none⟩, transition)
      | .bad =>
        if badSince log + 1 ≥ threshold then
          (⟨0, some (saturatingAdd nowMs cooldownMs)⟩, some .opened)
        else (⟨badSince log + 1, none⟩, transition) := by
  obtain ⟨hStreak, -, hUntil, -⟩ := h
  have hLapse : (if p.openUntilMs.any fun t => decide (nowMs ≥ t) then
      (PerApp.fresh, some BreakerTransition.closed) else (p, none)) =
      (⟨badSince log, none⟩, if (justOpened log).isSome then some .closed else none) := by
    rcases hOpened : justOpened log with _ | t₀
    · rw [hOpened] at hUntil
      obtain ⟨count, openUntil⟩ := p
      obtain rfl : openUntil = none := hUntil
      rw [← hStreak]
      rfl
    · rw [hOpened] at hUntil
      rw [hUntil] at hClosed ⊢
      have hNow : nowMs ≥ saturatingAdd t₀ cooldownMs := by
        simpa using hClosed
      rw [if_pos (by simpa using hNow), badSince_of_justOpened hOpened]
      rfl
  unfold PerApp.next
  rw [hLapse]
  rcases signal <;> rfl

theorem fresh_kept (hThreshold : 0 < threshold) : PerApp.fresh.Kept threshold cooldownMs [] where
  streak := rfl
  below := hThreshold
  openUntil := rfl
  passed := fun _ h => by cases h

/-- The three answers of a record that was let through, and the entry after it. -/
theorem next_cases (h : p.Kept threshold cooldownMs log) (signal : UiaSignal) {nowMs : Nat}
    (hClosed : (p.openUntilMs.any fun u => decide (nowMs < u)) = false)
    {p' : PerApp} {transition : Option BreakerTransition}
    (hNext : p.next threshold cooldownMs signal nowMs = (p', transition)) :
    (signal = .bad ∧ badSince log + 1 = threshold ∧ transition = some .opened ∧
      p' = ⟨0, some (saturatingAdd nowMs cooldownMs)⟩) ∨
    (¬ (signal = .bad ∧ badSince log + 1 = threshold) ∧
      transition = (if (justOpened log).isSome then some .closed else none) ∧
      p'.openUntilMs = none ∧ p'.consecutiveBad < threshold ∧
      p'.consecutiveBad = if signal = .good then 0
        else (if signal = .bad then 1 else 0) + badSince log) := by
  have hBelow := h.streak ▸ h.below
  rw [next_kept h signal hClosed] at hNext
  rcases signal with _ | _ | _
  · obtain ⟨rfl, rfl⟩ := Prod.mk.inj hNext
    refine .inr ⟨by simp, rfl, rfl, ?_, by simp⟩
    show 0 < threshold
    omega
  · dsimp only at hNext
    split at hNext
    · obtain ⟨rfl, rfl⟩ := Prod.mk.inj hNext
      exact .inl ⟨rfl, by omega, rfl, rfl⟩
    · next hNot =>
      obtain ⟨rfl, rfl⟩ := Prod.mk.inj hNext
      refine .inr ⟨?_, rfl, rfl, ?_, ?_⟩
      · rintro ⟨-, hReached⟩
        omega
      · show badSince log + 1 < threshold
        omega
      · show badSince log + 1 = _
        simp [Nat.add_comm]
  · obtain ⟨rfl, rfl⟩ := Prod.mk.inj hNext
    exact .inr ⟨by simp, rfl, rfl, hBelow, by simp⟩

theorem next_keeps (h : p.Kept threshold cooldownMs log)
    (hClosed : (p.openUntilMs.any fun u => decide (e.nowMs < u)) = false) {p' : PerApp}
    (hNext : p.next threshold cooldownMs e.signal e.nowMs = (p', e.transition)) :
    p'.Kept threshold cooldownMs (e :: log) := by
  have hUntil := h.openUntil
  rcases next_cases h e.signal hClosed hNext with
    ⟨hBad, -, hOpened, rfl⟩ | ⟨-, hTransition, hNone, hBelow, hCount⟩
  · have hJust : justOpened (e :: log) = some e.nowMs := if_pos hOpened
    constructor
    · rw [badSince_cons, if_pos (.inr hOpened)]
    · exact Nat.lt_of_le_of_lt (Nat.zero_le _) h.below
    · rw [hJust]
      rfl
    · intro t₀ hLast
      unfold lastOpenedMs at hLast
      rw [List.find?_cons_of_pos (by simpa using hOpened)] at hLast
      exact .inl (hJust.trans hLast)
  · have hNot : e.transition ≠ some .opened := by
      rw [hTransition]
      split <;> simp
    have hJust : justOpened (e :: log) = none := if_neg hNot
    constructor
    · rw [badSince_cons, hCount]
      simp only [hNot, or_false]
    · exact hBelow
    · rw [hJust, hNone]
      rfl
    · intro t₀ hLast
      unfold lastOpenedMs at hLast
      rw [List.find?_cons_of_neg (by simpa using hNot)] at hLast
      rcases h.passed t₀ hLast with hOpened | ⟨o, hMem, hPassed⟩
      · -- this record was let through, so the cooldown was over
        rw [hUntil, hOpened] at hClosed
        exact .inr ⟨e, List.mem_cons_self, by simpa using hClosed⟩
      · exact .inr ⟨o, List.mem_cons_of_mem _ hMem, hPassed⟩

end

/-! ## One record -/

/-- A record reports what it should, by the log before it. -/
structure Recorded.Lawful (threshold cooldownMs : Nat) (e : Recorded) (earlier : List Recorded) :
    Prop where
  opens : e.transition = some .opened ↔
    e.signal = .bad ∧ badSince (ofApp e.app earlier) + 1 = threshold
  closes : 2 ≤ threshold →
    (e.transition = some .closed ↔ (justOpened (ofApp e.app earlier)).isSome)
  after : ∀ t₀, justOpened (ofApp e.app earlier) = some t₀ →
    saturatingAdd t₀ cooldownMs ≤ e.nowMs

def LawfulLog (threshold cooldownMs : Nat) : List Recorded → Prop
  | [] => True
  | e :: earlier => e.Lawful threshold cooldownMs earlier ∧ LawfulLog threshold cooldownMs earlier

section

variable {threshold cooldownMs : Nat} {p : PerApp} {log later earlier : List Recorded}
  {e : Recorded} {app : String}

theorem next_lawful (h : p.Kept threshold cooldownMs (ofApp e.app log))
    (hClosed : (p.openUntilMs.any fun u => decide (e.nowMs < u)) = false) {p' : PerApp}
    (hNext : p.next threshold cooldownMs e.signal e.nowMs = (p', e.transition)) :
    e.Lawful threshold cooldownMs log := by
  have hAfter : ∀ t₀, justOpened (ofApp e.app log) = some t₀ →
      saturatingAdd t₀ cooldownMs ≤ e.nowMs := by
    intro t₀ hOpened
    rw [h.openUntil, hOpened] at hClosed
    simpa using hClosed
  rcases next_cases h e.signal hClosed hNext with
    ⟨hBad, hReached, hOpened, -⟩ | ⟨hNot, hTransition, -⟩
  · refine ⟨by simp [hBad, hReached, hOpened], ?_, hAfter⟩
    intro hThreshold
    constructor
    · intro hClosing
      exact absurd (hOpened.symm.trans hClosing) (by decide)
    · intro hJust
      -- the streak would be empty
      obtain ⟨t₀, ht⟩ := Option.isSome_iff_exists.mp hJust
      have hEmpty := badSince_of_justOpened ht
      omega
  · refine ⟨⟨?_, fun hYes => absurd hYes hNot⟩, ?_, hAfter⟩
    · intro hOpened
      rw [hTransition] at hOpened
      split at hOpened <;> cases hOpened
    · intro _
      rw [hTransition]
      split
      · next hJust => exact ⟨fun _ => hJust, fun _ => rfl⟩
      · next hJust => exact ⟨fun hNone => absurd hNone (by simp), fun hYes => absurd hYes hJust⟩

theorem lawful_of_split (h : LawfulLog threshold cooldownMs log)
    (hLog : log = later ++ e :: earlier) : e.Lawful threshold cooldownMs earlier := by
  induction later generalizing log with
  | nil =>
    subst hLog
    exact h.1
  | cons o later ih =>
    subst hLog
    exact ih h.2 rfl

/-- Opened, closed, opened, and so on, with the breaker open after an odd number of them. -/
theorem alternates_of_lawful (hThreshold : 2 ≤ threshold) (h : LawfulLog threshold cooldownMs log)
    (app : String) :
    (∀ i t, (transitions (ofApp app log)).reverse[i]? = some t →
      t = if i % 2 = 0 then .opened else .closed) ∧
    ((justOpened (ofApp app log)).isSome ↔ (transitions (ofApp app log)).length % 2 = 1) := by
  induction log with
  | nil =>
    exact ⟨fun i t ht => by simp [ofApp, transitions] at ht,
      by simp [ofApp, transitions, justOpened]⟩
  | cons e log ih =>
    obtain ⟨hAlternate, hParity⟩ := ih h.2
    by_cases hApp : e.app = app
    · subst hApp
      obtain ⟨⟨hOpens, hCloses, -⟩, -⟩ := h
      have hCons : ofApp e.app (e :: log) = e :: ofApp e.app log := List.filter_cons_of_pos (by simp)
      rw [hCons]
      unfold justOpened
      dsimp only
      rcases hTransition : e.transition with _ | t
      · -- nothing turned: the breaker is as it was
        have hSame : transitions (e :: ofApp e.app log) = transitions (ofApp e.app log) :=
          List.filterMap_cons_none hTransition
        have hNot : ¬ (justOpened (ofApp e.app log)).isSome := by
          rw [← hCloses hThreshold, hTransition]
          simp
        rw [hSame]
        exact ⟨hAlternate, by simpa using fun hOdd => hNot (hParity.mpr hOdd)⟩
      · have hSnoc : (transitions (e :: ofApp e.app log)).reverse =
            (transitions (ofApp e.app log)).reverse ++ [t] := by
          unfold transitions
          rw [List.filterMap_cons_some hTransition, List.reverse_cons]
        have hLength : (transitions (e :: ofApp e.app log)).length =
            (transitions (ofApp e.app log)).length + 1 := by
          unfold transitions
          rw [List.filterMap_cons_some hTransition, List.length_cons]
        have hEmpty : (justOpened (ofApp e.app log)).isSome → badSince (ofApp e.app log) = 0 := by
          intro hJust
          obtain ⟨t₀, ht⟩ := Option.isSome_iff_exists.mp hJust
          exact badSince_of_justOpened ht
        -- it opens only behind bad walks since it closed, and closes only behind an opening
        have hValue : t = if (transitions (ofApp e.app log)).length % 2 = 0 then .opened
            else .closed := by
          rcases t with _ | _
          · have hStreak := (hOpens.mp hTransition).2
            rw [if_pos]
            by_contra hOdd
            have := hEmpty (hParity.mpr (by omega))
            omega
          · have hJust := (hCloses hThreshold).mp hTransition
            rw [if_neg]
            have := hParity.mp hJust
            omega
        refine ⟨?_, ?_⟩
        · intro i t' ht'
          rw [hSnoc] at ht'
          rcases Nat.lt_trichotomy i (transitions (ofApp e.app log)).length with hLt | rfl | hGt
          · rw [List.getElem?_append_left (by simpa using hLt)] at ht'
            exact hAlternate i t' ht'
          · rw [List.getElem?_append_right (by simp)] at ht'
            simp at ht'
            rw [← ht']
            exact hValue
          · rw [List.getElem?_eq_none (by simp; omega)] at ht'
            cases ht'
        · rw [hLength, hValue]
          split <;> simp <;> omega
    · -- another application
      have hCons : ofApp app (e :: log) = ofApp app log := List.filter_cons_of_neg (by simpa using hApp)
      rw [hCons]
      exact ⟨hAlternate, hParity⟩

end

/-! ## Runs -/

namespace BreakerRun

variable {r r' : BreakerRun} {w : AppWalk} {app : String} {threshold cooldownMs : Nat}

/-- The entries and the log fit together. -/
structure Kept (threshold cooldownMs : Nat) (r : BreakerRun) : Prop where
  thresholdEq : r.breaker.threshold = threshold
  cooldownEq : r.breaker.cooldownMs = cooldownMs
  entries : ∀ app, (r.breaker.entry app).Kept threshold cooldownMs (ofApp app r.log)
  lawful : LawfulLog threshold cooldownMs r.log

theorem walk_skipped (h : r.breaker.isOpen w.app w.nowMs = true) : r.walk w = r := if_pos h

theorem walk_recorded (h : r.breaker.isOpen w.app w.nowMs = false) :
    r.walk w = ⟨(r.breaker.record w.app w.signal w.nowMs).1,
      ⟨w, (r.breaker.record w.app w.signal w.nowMs).2⟩ :: r.log⟩ := by
  unfold walk
  rw [if_neg (by simp [h])]

theorem walk_kept (h : r.Kept threshold cooldownMs) (w : AppWalk) :
    (r.walk w).Kept threshold cooldownMs := by
  rcases hOpen : r.breaker.isOpen w.app w.nowMs with _ | _
  · rw [walk_recorded hOpen]
    obtain ⟨hThreshold, hCooldown, hEntries, hLawful⟩ := h
    obtain ⟨hThreshold', hCooldown', hNext, hOthers⟩ :=
      r.breaker.record_entry w.app w.signal w.nowMs
    rw [AppBreaker.isOpen_entry] at hOpen
    rw [hThreshold, hCooldown] at hNext
    refine ⟨hThreshold'.trans hThreshold, hCooldown'.trans hCooldown, ?_, ?_, hLawful⟩
    · intro app
      by_cases hApp : w.app = app
      · subst hApp
        rw [ofApp, List.filter_cons_of_pos (by simp)]
        exact next_keeps (hEntries w.app) hOpen hNext.symm
      · rw [ofApp, List.filter_cons_of_neg (by simpa using hApp), hOthers app (Ne.symm hApp)]
        exact hEntries app
    · exact next_lawful (hEntries w.app) hOpen hNext.symm
  · rw [walk_skipped hOpen]
    exact h

theorem runs_kept (h : r.Kept threshold cooldownMs) (ws : List AppWalk) :
    (r.walks ws).Kept threshold cooldownMs := by
  induction ws generalizing r with
  | nil => exact h
  | cons w ws ih => exact ih (walk_kept h w)

theorem start_kept (threshold cooldownMs : Nat) :
    (start threshold cooldownMs).Kept (max threshold 1) cooldownMs where
  thresholdEq := rfl
  cooldownEq := rfl
  entries := fun _ => fresh_kept (Nat.lt_of_lt_of_le Nat.one_pos (Nat.le_max_right ..))
  lawful := trivial

/-- The log holds walks of the run. -/
theorem log_subset (ws : List AppWalk) : ∀ e ∈ (r.walks ws).log, e ∈ r.log ∨ e.toAppWalk ∈ ws := by
  induction ws generalizing r with
  | nil => exact fun e he => .inl he
  | cons w ws ih =>
    intro e he
    rcases ih e he with hOld | hNew
    · rcases hOpen : r.breaker.isOpen w.app w.nowMs with _ | _
      · rw [walk_recorded hOpen] at hOld
        rcases List.mem_cons.mp hOld with rfl | hOld
        · exact .inr List.mem_cons_self
        · exact .inl hOld
      · rw [walk_skipped hOpen] at hOld
        exact .inl hOld
    · exact .inr (List.mem_cons_of_mem _ hNew)

/-! ## One app -/

/-- Two runs that look the same to an app. -/
structure Alike (app : String) (r r' : BreakerRun) : Prop where
  threshold : r.breaker.threshold = r'.breaker.threshold
  cooldown : r.breaker.cooldownMs = r'.breaker.cooldownMs
  entry : r.breaker.entry app = r'.breaker.entry app
  log : ofApp app r.log = ofApp app r'.log

/-- A walk of another app is not seen. -/
theorem walk_other (h : Alike app r r') (hApp : w.app ≠ app) : Alike app (r.walk w) r' := by
  rcases hOpen : r.breaker.isOpen w.app w.nowMs with _ | _
  · rw [walk_recorded hOpen]
    obtain ⟨hThreshold, hCooldown, -, hOthers⟩ := r.breaker.record_entry w.app w.signal w.nowMs
    refine ⟨hThreshold.trans h.threshold, hCooldown.trans h.cooldown,
      (hOthers app (Ne.symm hApp)).trans h.entry, ?_⟩
    rw [ofApp, List.filter_cons_of_neg (by simpa using hApp)]
    exact h.log
  · rw [walk_skipped hOpen]
    exact h

/-- A walk of the app is answered the same. -/
theorem walk_same (h : Alike app r r') (hApp : w.app = app) : Alike app (r.walk w) (r'.walk w) := by
  subst hApp
  have hSame : r'.breaker.isOpen w.app w.nowMs = r.breaker.isOpen w.app w.nowMs := by
    rw [AppBreaker.isOpen_entry, AppBreaker.isOpen_entry, h.entry]
  rcases hOpen : r.breaker.isOpen w.app w.nowMs with _ | _
  · rw [walk_recorded hOpen, walk_recorded (hSame.trans hOpen)]
    obtain ⟨hThreshold, hCooldown, hNext, -⟩ := r.breaker.record_entry w.app w.signal w.nowMs
    obtain ⟨hThreshold', hCooldown', hNext', -⟩ := r'.breaker.record_entry w.app w.signal w.nowMs
    rw [h.entry, h.threshold, h.cooldown, ← hNext'] at hNext
    obtain ⟨hEntry, hTransition⟩ := Prod.mk.inj hNext
    refine ⟨hThreshold.trans (h.threshold.trans hThreshold'.symm),
      hCooldown.trans (h.cooldown.trans hCooldown'.symm), hEntry, ?_⟩
    show ofApp w.app (_ :: r.log) = ofApp w.app (_ :: r'.log)
    rw [hTransition, ofApp, ofApp, List.filter_cons_of_pos (by simp),
      List.filter_cons_of_pos (by simp)]
    exact congrArg _ h.log
  · rw [walk_skipped hOpen, walk_skipped (hSame.trans hOpen)]
    exact h

theorem walks_alike (h : Alike app r r') (ws : List AppWalk) :
    Alike app (r.walks ws) (r'.walks (ws.filter fun w => decide (w.app = app))) := by
  induction ws generalizing r r' with
  | nil => exact h
  | cons w ws ih =>
    by_cases hApp : w.app = app
    · rw [List.filter_cons_of_pos (by simpa using hApp)]
      exact ih (walk_same h hApp)
    · rw [List.filter_cons_of_neg (by simpa using hApp)]
      exact ih (walk_other h hApp)

end BreakerRun

/-! ## The law -/

open BreakerRun

/-- What the breaker answers in a run of guarded walks, by the log of those that were recorded. -/
structure BreakerLaw (threshold cooldownMs : Nat) (ws : List AppWalk) (r : BreakerRun) : Prop where
  /-- Open while the cooldown of the last opening lasts, at any time not before the walks. -/
  isOpen : ∀ app t, (∀ w ∈ ws, w.nowMs ≤ t) →
    (r.breaker.isOpen app t = true ↔ ∃ t₀, lastOpenedMs (ofApp app r.log) = some t₀ ∧
      t < saturatingAdd t₀ cooldownMs)
  /-- It opens at the bad walk that fills the streak. -/
  opens : ∀ later e earlier, r.log = later ++ e :: earlier → (e.transition = some .opened ↔
    e.signal = .bad ∧ badSince (ofApp e.app earlier) + 1 = max threshold 1)
  /-- It closes at the first record after an opening, which is after the cooldown. -/
  closes : 2 ≤ threshold → ∀ later e earlier, r.log = later ++ e :: earlier →
    (e.transition = some .closed ↔
      ∃ t₀, justOpened (ofApp e.app earlier) = some t₀ ∧ saturatingAdd t₀ cooldownMs ≤ e.nowMs)
  alternates : 2 ≤ threshold → ∀ app i t, (transitions (ofApp app r.log)).reverse[i]? = some t →
    t = if i % 2 = 0 then .opened else .closed
  /-- The walks of the app alone get the same answers. -/
  alone : ∀ app, Alike app r
    ((start threshold cooldownMs).walks (ws.filter fun w => decide (w.app = app)))

/-- A wrong time would show an opening that the next record has cleared already. -/
theorem isOpen_of_kept {threshold cooldownMs : Nat} {p : PerApp} {log : List Recorded} {t : Nat}
    (h : p.Kept threshold cooldownMs log) (hLate : ∀ e ∈ log, e.nowMs ≤ t) :
    (p.openUntilMs.any fun u => decide (t < u)) = true ↔
      ∃ t₀, lastOpenedMs log = some t₀ ∧ t < saturatingAdd t₀ cooldownMs := by
  have hLast : ∀ t₀, justOpened log = some t₀ → lastOpenedMs log = some t₀ := by
    intro t₀ hJust
    rcases log with _ | ⟨e, log⟩
    · cases hJust
    · unfold justOpened at hJust
      dsimp only at hJust
      split at hJust
      · next hOpened =>
        unfold lastOpenedMs
        rw [List.find?_cons_of_pos (by simpa using hOpened)]
        exact hJust
      · cases hJust
  rw [h.openUntil]
  constructor
  · intro hAny
    rcases hJust : justOpened log with _ | t₀
    · rw [hJust] at hAny
      cases hAny
    · rw [hJust] at hAny
      exact ⟨t₀, hLast t₀ hJust, by simpa using hAny⟩
  · rintro ⟨t₀, hOpened, hBefore⟩
    rcases h.passed t₀ hOpened with hJust | ⟨e, hMem, hPassed⟩
    · rw [hJust]
      simpa using hBefore
    · have := hLate e hMem
      omega

/-- The law of the breaker, over every run of guarded walks of any number of apps. -/
theorem breaker_law (threshold cooldownMs : Nat) (ws : List AppWalk) :
    BreakerLaw threshold cooldownMs ws ((start threshold cooldownMs).walks ws) := by
  have hKept := runs_kept (start_kept threshold cooldownMs) ws
  constructor
  · intro app t hLate
    rw [AppBreaker.isOpen_entry]
    refine isOpen_of_kept (hKept.entries app) ?_
    intro e he
    rcases log_subset ws e (List.mem_filter.mp he).1 with hOld | hNew
    · cases hOld
    · exact hLate _ hNew
  · intro later e earlier hLog
    exact (lawful_of_split hKept.lawful hLog).opens
  · intro hThreshold later e earlier hLog
    have hLawful := lawful_of_split hKept.lawful hLog
    rw [hLawful.closes (by omega), Option.isSome_iff_exists]
    constructor
    · rintro ⟨t₀, hJust⟩
      exact ⟨t₀, hJust, hLawful.after t₀ hJust⟩
    · rintro ⟨t₀, hJust, -⟩
      exact ⟨t₀, hJust⟩
  · intro hThreshold app
    exact (alternates_of_lawful (by omega) hKept.lawful app).1
  · intro app
    exact walks_alike ⟨rfl, rfl, rfl, rfl⟩ ws

end ScreenSearch.Uia
