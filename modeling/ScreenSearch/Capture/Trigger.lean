import Mathlib.Tactic.Common
import ScreenSearch.Traits.Capture

/-!
# Event-driven capture triggers

The hook thread feeds foreground events to the machine, and the capture loop polls it with the
time since the last input. A burst of events settles before it is captured, no two captures are
closer than the minimum interval, and going idle is captured once. What the minimum interval
blocks stays armed.

Main results:

* `run_kept` — the machine's state is what the log of calls says;
* `poll_due` — so a poll emits what is due by the log;
* `trigger_law` — and the policy holds of every run.
-/

namespace ScreenSearch.Capture

inductive InputEventKind where
  /-- The foreground window changed. -/
  | foreground
  deriving DecidableEq, Repr

structure TriggerConfig where
  onForeground : Bool
  onIdle : Bool
  debounceMs : Int
  minIntervalMs : Int
  idleThresholdMs : Int
  deriving DecidableEq, Repr

structure TriggerMachine where
  cfg : TriggerConfig
  /-- A trigger that waits for its events to settle, and the time of the latest. -/
  pending : Option (CaptureTrigger × Int)
  lastEmitMs : Option Int
  firedIdle : Bool
  deriving DecidableEq, Repr

namespace TriggerMachine

def new (cfg : TriggerConfig) : TriggerMachine where
  cfg := cfg
  pending := none
  lastEmitMs := none
  firedIdle := false

/-- A newer event replaces the one that waits; a disabled kind is ignored. -/
def onInputEvent (m : TriggerMachine) (kind : InputEventKind) (nowMs : Int) : TriggerMachine :=
  match kind with
  | .foreground =>
    if m.cfg.onForeground then { m with pending := some (.foregroundChange, nowMs) } else m

def tryEmit (m : TriggerMachine) (trigger : CaptureTrigger) (nowMs : Int) :
    TriggerMachine × Option CaptureTrigger :=
  if m.lastEmitMs.any fun last => decide (nowMs - last < m.cfg.minIntervalMs) then (m, none)
  else ({ m with lastEmitMs := some nowMs }, some trigger)

/-- Clears what is pending only where it is emitted. -/
def flush (m : TriggerMachine) (nowMs : Int) : TriggerMachine × Option CaptureTrigger :=
  match m.pending with
  | some (trigger, latestEventMs) =>
    if nowMs - latestEventMs ≥ m.cfg.debounceMs then
      match m.tryEmit trigger nowMs with
      | (m, some t) => ({ m with pending := none }, some t)
      | (m, none) => (m, none)
    else (m, none)
  | none => (m, none)

/-- The next quiet period fires afresh. -/
def rearm (m : TriggerMachine) (idleMs : Int) : TriggerMachine :=
  if idleMs < m.cfg.idleThresholdMs then { m with firedIdle := false } else m

def poll (m : TriggerMachine) (nowMs idleMs : Int) : TriggerMachine × Option CaptureTrigger :=
  let m := m.rearm idleMs
  if m.cfg.onIdle && decide (idleMs ≥ m.cfg.idleThresholdMs) && !m.firedIdle then
    match m.tryEmit .idle nowMs with
    | (m, some t) => ({ m with firedIdle := true }, some t)
    | (m, none) => m.flush nowMs
  else m.flush nowMs

end TriggerMachine

/-! ## Runs -/

inductive TriggerCall where
  | onInputEvent (kind : InputEventKind) (nowMs : Int)
  | poll (nowMs idleMs : Int)
  deriving DecidableEq, Repr

def TriggerCall.nowMs : TriggerCall → Int
  | .onInputEvent _ nowMs | .poll nowMs _ => nowMs

inductive TriggerEntry where
  | event (kind : InputEventKind) (nowMs : Int)
  | polled (nowMs idleMs : Int) (emitted : Option CaptureTrigger)
  deriving DecidableEq, Repr

def TriggerEntry.call : TriggerEntry → TriggerCall
  | .event kind nowMs => .onInputEvent kind nowMs
  | .polled nowMs idleMs _ => .poll nowMs idleMs

/-- The machine, and the calls with their answers, latest first. -/
structure TriggerRun where
  machine : TriggerMachine
  log : List TriggerEntry

namespace TriggerRun

def start (cfg : TriggerConfig) : TriggerRun := ⟨.new cfg, []⟩

def call (r : TriggerRun) : TriggerCall → TriggerRun
  | .onInputEvent kind nowMs => ⟨r.machine.onInputEvent kind nowMs, .event kind nowMs :: r.log⟩
  | .poll nowMs idleMs =>
    let (machine, emitted) := r.machine.poll nowMs idleMs
    ⟨machine, .polled nowMs idleMs emitted :: r.log⟩

def calls (r : TriggerRun) (cs : List TriggerCall) : TriggerRun := cs.foldl call r

end TriggerRun

/-! ## What the log says -/

def TriggerEntry.emission : TriggerEntry → Option Int
  | .polled nowMs _ (some _) => some nowMs
  | .polled _ _ none | .event _ _ => none

/-- When something was emitted, latest first. -/
def emissions (log : List TriggerEntry) : List Int := log.filterMap TriggerEntry.emission

/-- Every emission is long enough ago. -/
def CeilingPassed (cfg : TriggerConfig) (log : List TriggerEntry) (nowMs : Int) : Prop :=
  ∀ t ∈ emissions log, cfg.minIntervalMs ≤ nowMs - t

/-- The stretch of idle polls that the log ends with has had its `Idle`. -/
def idleFired (cfg : TriggerConfig) : List TriggerEntry → Bool
  | [] => false
  | .event _ _ :: log => idleFired cfg log
  | .polled _ idleMs emitted :: log =>
    decide (cfg.idleThresholdMs ≤ idleMs) && (decide (emitted = some .idle) || idleFired cfg log)

/-- A poll of a stretch that has had no `Idle` yet. -/
def IdleEdge (cfg : TriggerConfig) (log : List TriggerEntry) (idleMs : Int) : Prop :=
  cfg.onIdle = true ∧ cfg.idleThresholdMs ≤ idleMs ∧ idleFired cfg log = false

/-- The latest enabled event, unless it was emitted. -/
def waiting (cfg : TriggerConfig) : List TriggerEntry → Option Int
  | [] => none
  | .event .foreground nowMs :: log => if cfg.onForeground then some nowMs else waiting cfg log
  | .polled _ _ emitted :: log =>
    if emitted = some .foregroundChange then none else waiting cfg log

/-- An event waits, and there is none within the debounce window. -/
def Settled (cfg : TriggerConfig) (log : List TriggerEntry) (nowMs : Int) : Prop :=
  ∃ t, waiting cfg log = some t ∧ cfg.debounceMs ≤ nowMs - t

instance (cfg : TriggerConfig) (log : List TriggerEntry) (nowMs : Int) :
    Decidable (CeilingPassed cfg log nowMs) :=
  inferInstanceAs (Decidable (∀ t ∈ emissions log, _))

instance (cfg : TriggerConfig) (log : List TriggerEntry) (idleMs : Int) :
    Decidable (IdleEdge cfg log idleMs) :=
  inferInstanceAs (Decidable (_ ∧ _ ∧ _))

instance (cfg : TriggerConfig) (log : List TriggerEntry) (nowMs : Int) :
    Decidable (Settled cfg log nowMs) :=
  decidable_of_iff ((waiting cfg log).any fun t => decide (cfg.debounceMs ≤ nowMs - t))
    (by simp [Settled, Option.any_eq_true])

/-- What a poll is to emit. -/
def due (cfg : TriggerConfig) (log : List TriggerEntry) (nowMs idleMs : Int) :
    Option CaptureTrigger :=
  if CeilingPassed cfg log nowMs then
    if IdleEdge cfg log idleMs then some .idle
    else if Settled cfg log nowMs then some .foregroundChange
    else none
  else none

/-! ## The machine and the log -/

section

variable {cfg : TriggerConfig} {log : List TriggerEntry} {m : TriggerMachine} {r : TriggerRun}
  {nowMs idleMs : Int}

/-- What the fields of a machine say of the log. -/
structure TriggerMachine.Kept (cfg : TriggerConfig) (m : TriggerMachine) (log : List TriggerEntry) :
    Prop where
  cfgEq : m.cfg = cfg
  pending : m.pending = (waiting cfg log).map fun t => (.foregroundChange, t)
  fired : m.firedIdle = idleFired cfg log
  last : m.lastEmitMs = (emissions log).head?

/-- The times of the log never decrease. -/
def Chronological (log : List TriggerEntry) : Prop :=
  (log.map fun e => e.call.nowMs).Pairwise fun later earlier => earlier ≤ later

theorem emissions_sublist (log : List TriggerEntry) :
    (emissions log).Sublist (log.map fun e => e.call.nowMs) := by
  induction log with
  | nil => exact List.Sublist.refl _
  | cons e log ih =>
    rcases e with ⟨kind, t⟩ | ⟨t, idle, _ | trigger⟩
    · exact ih.cons _
    · exact ih.cons _
    · exact ih.cons_cons _

/-- Times never decrease, so the last emission is all that counts. -/
theorem ceiling_of_last (hTimes : Chronological log) : CeilingPassed cfg log nowMs ↔
    ((emissions log).head?.any fun last => decide (nowMs - last < cfg.minIntervalMs)) = false := by
  have hSorted := List.Pairwise.sublist (emissions_sublist log) hTimes
  unfold CeilingPassed
  generalize emissions log = times at hSorted ⊢
  rcases times with _ | ⟨last, older⟩
  · simp
  · obtain ⟨hOlder, -⟩ := List.pairwise_cons.mp hSorted
    simp only [List.head?_cons, Option.any_some, decide_eq_false_iff_not, Int.not_lt]
    constructor
    · intro hAll
      exact hAll last List.mem_cons_self
    · intro hLast t ht
      rcases List.mem_cons.mp ht with rfl | ht
      · exact hLast
      · have := hOlder t ht
        omega

theorem tryEmit_eq (hCfg : m.cfg = cfg) (hLast : m.lastEmitMs = (emissions log).head?)
    (hTimes : Chronological log) (trigger : CaptureTrigger) (nowMs : Int) :
    m.tryEmit trigger nowMs = if CeilingPassed cfg log nowMs then
      ({ m with lastEmitMs := some nowMs }, some trigger) else (m, none) := by
  unfold TriggerMachine.tryEmit
  rw [hCfg, hLast]
  by_cases hPassed : CeilingPassed cfg log nowMs
  · rw [if_pos hPassed, if_neg (by rw [ceiling_of_last hTimes] at hPassed; simp [hPassed])]
  · rw [if_neg hPassed, if_pos (by rw [ceiling_of_last hTimes] at hPassed; simpa using hPassed)]

theorem flush_eq (hCfg : m.cfg = cfg) (hLast : m.lastEmitMs = (emissions log).head?)
    (hPending : m.pending = (waiting cfg log).map fun t => (.foregroundChange, t))
    (hTimes : Chronological log) (nowMs : Int) :
    m.flush nowMs = if CeilingPassed cfg log nowMs ∧ Settled cfg log nowMs then
      ({ m with pending := none, lastEmitMs := some nowMs }, some .foregroundChange)
      else (m, none) := by
  unfold TriggerMachine.flush
  rw [hPending]
  rcases hWaiting : waiting cfg log with _ | t
  · have hNot : ¬ Settled cfg log nowMs := by
      rintro ⟨t, ht, -⟩
      exact Option.some_ne_none t (ht.symm.trans hWaiting)
    rw [if_neg fun h => hNot h.2]
    rfl
  · have hSettled : Settled cfg log nowMs ↔ nowMs - t ≥ cfg.debounceMs := by
      unfold Settled
      rw [hWaiting]
      simp
    dsimp only [Option.map_some]
    rw [tryEmit_eq hCfg hLast hTimes, hCfg]
    by_cases hPassed : CeilingPassed cfg log nowMs <;>
      by_cases hQuiet : nowMs - t ≥ cfg.debounceMs <;> simp [hPassed, hQuiet, hSettled]

theorem rearm_eq (m : TriggerMachine) (idleMs : Int) : m.rearm idleMs =
    { m with firedIdle := decide (m.cfg.idleThresholdMs ≤ idleMs) && m.firedIdle } := by
  unfold TriggerMachine.rearm
  by_cases hActive : idleMs < m.cfg.idleThresholdMs
  · rw [if_pos hActive, decide_eq_false (by omega)]
    rfl
  · rw [if_neg hActive, decide_eq_true (by omega)]
    rfl

/-- A poll emits what is due, and the fields follow the log. -/
theorem poll_due (h : m.Kept cfg log) (hTimes : Chronological log) (nowMs idleMs : Int) :
    (m.poll nowMs idleMs).2 = due cfg log nowMs idleMs ∧
    (m.poll nowMs idleMs).1.Kept cfg (.polled nowMs idleMs (m.poll nowMs idleMs).2 :: log) := by
  obtain ⟨hCfg, hPending, hFired, hLast⟩ := h
  have hCfg' : (m.rearm idleMs).cfg = cfg := by rw [rearm_eq]; exact hCfg
  have hPending' : (m.rearm idleMs).pending =
      (waiting cfg log).map fun t => (.foregroundChange, t) := by rw [rearm_eq]; exact hPending
  have hLast' : (m.rearm idleMs).lastEmitMs = (emissions log).head? := by rw [rearm_eq]; exact hLast
  have hFired' : (m.rearm idleMs).firedIdle =
      (decide (cfg.idleThresholdMs ≤ idleMs) && idleFired cfg log) := by
    rw [rearm_eq, ← hFired, ← hCfg]
  unfold TriggerMachine.poll due
  generalize m.rearm idleMs = m' at hCfg' hPending' hLast' hFired'
  have hEdge : (m'.cfg.onIdle && decide (idleMs ≥ m'.cfg.idleThresholdMs) && !m'.firedIdle) = true ↔
      IdleEdge cfg log idleMs := by
    unfold IdleEdge
    rw [hCfg', hFired']
    grind
  -- nothing is emitted, and the idle flag stays as it was armed
  have hNone : m'.Kept cfg (.polled nowMs idleMs none :: log) :=
    ⟨hCfg', hPending', by simp [idleFired, hFired'], hLast'⟩
  have hFlush := flush_eq hCfg' hLast' hPending' hTimes nowMs
  dsimp only
  by_cases hIdle : IdleEdge cfg log idleMs
  · rw [if_pos (hEdge.mpr hIdle), tryEmit_eq hCfg' hLast' hTimes]
    by_cases hPassed : CeilingPassed cfg log nowMs
    · rw [if_pos hPassed, if_pos hPassed, if_pos hIdle]
      exact ⟨rfl, hCfg', hPending', by simp [idleFired, hIdle.2.1], rfl⟩
    · rw [if_neg fun hBoth => hPassed hBoth.1] at hFlush
      rw [if_neg hPassed, if_neg hPassed]
      dsimp only
      rw [hFlush]
      exact ⟨rfl, hNone⟩
  · rw [if_neg fun hYes => hIdle (hEdge.mp hYes), if_neg hIdle]
    by_cases hPassed : CeilingPassed cfg log nowMs
    · rw [if_pos hPassed]
      by_cases hSettled : Settled cfg log nowMs
      · rw [if_pos ⟨hPassed, hSettled⟩] at hFlush
        rw [hFlush, if_pos hSettled]
        exact ⟨rfl, hCfg', rfl, by simp [idleFired, hFired'], rfl⟩
      · rw [if_neg fun hBoth => hSettled hBoth.2] at hFlush
        rw [hFlush, if_neg hSettled]
        exact ⟨rfl, hNone⟩
    · rw [if_neg fun hBoth => hPassed hBoth.1] at hFlush
      rw [hFlush, if_neg hPassed]
      exact ⟨rfl, hNone⟩

theorem event_kept (h : m.Kept cfg log) (kind : InputEventKind) (nowMs : Int) :
    (m.onInputEvent kind nowMs).Kept cfg (.event kind nowMs :: log) := by
  obtain ⟨hCfg, hPending, hFired, hLast⟩ := h
  unfold TriggerMachine.onInputEvent
  rcases kind with _
  dsimp only
  split
  · next hOn =>
    rw [hCfg] at hOn
    exact ⟨hCfg, by simp [waiting, hOn], hFired, hLast⟩
  · next hOff =>
    rw [hCfg] at hOff
    exact ⟨hCfg, by simp [waiting, hOff, hPending], hFired, hLast⟩

/-- Every poll of the log emitted what was due. -/
def DueLog (cfg : TriggerConfig) : List TriggerEntry → Prop
  | [] => True
  | .event _ _ :: log => DueLog cfg log
  | .polled nowMs idleMs emitted :: log => emitted = due cfg log nowMs idleMs ∧ DueLog cfg log

theorem log_calls (r : TriggerRun) (cs : List TriggerCall) :
    (r.calls cs).log.map TriggerEntry.call = cs.reverse ++ r.log.map TriggerEntry.call := by
  induction cs generalizing r with
  | nil => rfl
  | cons c cs ih =>
    show ((r.call c).calls cs).log.map TriggerEntry.call = _
    rw [ih, List.reverse_cons, List.append_assoc]
    rcases c <;> rfl

theorem run_chronological (cfg : TriggerConfig) {cs : List TriggerCall}
    (hTimes : (cs.map TriggerCall.nowMs).Pairwise (· ≤ ·)) :
    Chronological ((TriggerRun.start cfg).calls cs).log := by
  have hCalls := congrArg (List.map TriggerCall.nowMs) (log_calls (TriggerRun.start cfg) cs)
  rw [List.map_map] at hCalls
  show ((((TriggerRun.start cfg).calls cs).log).map (TriggerCall.nowMs ∘ TriggerEntry.call)).Pairwise _
  rw [hCalls]
  simpa [List.pairwise_reverse, TriggerRun.start] using hTimes

/-- What the machine of a run knows of its log, and that it emitted what was due. -/
structure TriggerRun.Kept (cfg : TriggerConfig) (r : TriggerRun) : Prop where
  machine : r.machine.Kept cfg r.log
  due : DueLog cfg r.log

theorem call_kept (h : r.Kept cfg) (hTimes : Chronological r.log) (c : TriggerCall) :
    (r.call c).Kept cfg := by
  rcases c with ⟨kind, nowMs⟩ | ⟨nowMs, idleMs⟩
  · exact ⟨event_kept h.machine kind nowMs, h.due⟩
  · obtain ⟨hDue, hKept⟩ := poll_due h.machine hTimes nowMs idleMs
    exact ⟨hKept, hDue, h.due⟩

theorem run_kept (cfg : TriggerConfig) (cs : List TriggerCall)
    (hTimes : (cs.map TriggerCall.nowMs).Pairwise (· ≤ ·)) :
    ((TriggerRun.start cfg).calls cs).Kept cfg := by
  induction cs using List.reverseRecOn with
  | nil => exact ⟨⟨rfl, rfl, rfl, rfl⟩, trivial⟩
  | append_singleton cs c ih =>
    rw [List.map_append, List.pairwise_append] at hTimes
    unfold TriggerRun.calls
    rw [List.foldl_append]
    exact call_kept (ih hTimes.1) (run_chronological cfg hTimes.1) c

/-! ## What is due -/

theorem due_blocked (h : ¬ CeilingPassed cfg log nowMs) : due cfg log nowMs idleMs = none := if_neg h

theorem due_edge (hPassed : CeilingPassed cfg log nowMs) (hEdge : IdleEdge cfg log idleMs) :
    due cfg log nowMs idleMs = some .idle := by
  unfold due
  rw [if_pos hPassed, if_pos hEdge]

theorem due_settled (hPassed : CeilingPassed cfg log nowMs) (hEdge : ¬ IdleEdge cfg log idleMs)
    (hSettled : Settled cfg log nowMs) : due cfg log nowMs idleMs = some .foregroundChange := by
  unfold due
  rw [if_pos hPassed, if_neg hEdge, if_pos hSettled]

theorem ceiling_of_due {trigger : CaptureTrigger} (h : due cfg log nowMs idleMs = some trigger) :
    CeilingPassed cfg log nowMs := by
  by_contra hBlocked
  rw [due_blocked hBlocked] at h
  cases h

theorem edge_of_due (h : due cfg log nowMs idleMs = some .idle) : IdleEdge cfg log idleMs := by
  have hPassed := ceiling_of_due h
  by_contra hEdge
  unfold due at h
  rw [if_pos hPassed, if_neg hEdge] at h
  split at h <;> cases h

theorem settled_of_due (h : due cfg log nowMs idleMs = some .foregroundChange) :
    ¬ IdleEdge cfg log idleMs ∧ Settled cfg log nowMs := by
  have hPassed := ceiling_of_due h
  have hEdge : ¬ IdleEdge cfg log idleMs := by
    intro hEdge
    rw [due_edge hPassed hEdge] at h
    cases h
  refine ⟨hEdge, ?_⟩
  by_contra hSettled
  unfold due at h
  rw [if_pos hPassed, if_neg hEdge, if_neg hSettled] at h
  cases h

variable {rest mid earlier : List TriggerEntry}

theorem dueLog_append (h : DueLog cfg (rest ++ earlier)) : DueLog cfg earlier := by
  induction rest with
  | nil => exact h
  | cons e rest ih =>
    rcases e with _ | _
    · exact ih h
    · exact ih h.2

theorem due_of_split {emitted : Option CaptureTrigger} (h : DueLog cfg log)
    (hLog : log = rest ++ .polled nowMs idleMs emitted :: earlier) :
    emitted = due cfg earlier nowMs idleMs := by
  subst hLog
  exact (dueLog_append h).1

/-- An event that waits is the latest, and no emission after it was for an event. -/
theorem waiting_split {t : Int} (h : waiting cfg log = some t) : cfg.onForeground = true ∧
    ∃ between before, log = between ++ .event .foreground t :: before ∧
      ∀ e ∈ between, (∀ kind u, e ≠ .event kind u) ∧
        ∀ u i, e ≠ .polled u i (some .foregroundChange) := by
  induction log with
  | nil => cases h
  | cons e log ih =>
    rcases e with ⟨kind, u⟩ | ⟨u, i, emitted⟩
    · rcases kind with _
      unfold waiting at h
      split at h
      · next hOn =>
        obtain rfl := Option.some.inj h
        exact ⟨hOn, [], log, rfl, fun _ he => absurd he List.not_mem_nil⟩
      · next hOff =>
        obtain ⟨hOn, -⟩ := ih h
        exact absurd hOn hOff
    · unfold waiting at h
      split at h
      · cases h
      · next hOther =>
        obtain ⟨hOn, between, before, rfl, hBetween⟩ := ih h
        refine ⟨hOn, .polled u i emitted :: between, before, rfl, ?_⟩
        intro e he
        rcases List.mem_cons.mp he with rfl | he
        · refine ⟨fun _ _ => TriggerEntry.noConfusion, ?_⟩
          intro u' i' hSame
          exact hOther (TriggerEntry.polled.inj hSame).2.2
        · exact hBetween e he

theorem waiting_append (hEvents : ∀ kind u, .event kind u ∉ mid)
    (hPolls : ∀ u i, .polled u i (some .foregroundChange) ∉ mid) :
    waiting cfg (mid ++ log) = waiting cfg log := by
  induction mid with
  | nil => rfl
  | cons e mid ih =>
    have hRest := ih (fun kind u h => hEvents kind u (List.mem_cons_of_mem _ h))
      fun u i h => hPolls u i (List.mem_cons_of_mem _ h)
    rcases e with ⟨kind, u⟩ | ⟨u, i, emitted⟩
    · exact absurd List.mem_cons_self (hEvents kind u)
    · have hOther : emitted ≠ some .foregroundChange := by
        rintro rfl
        exact hPolls u i List.mem_cons_self
      show (if emitted = some .foregroundChange then none else waiting cfg (mid ++ log)) = _
      rw [if_neg hOther]
      exact hRest

/-- The stretch goes on, so its `Idle` still counts. -/
theorem idleFired_append (hFired : idleFired cfg log = true)
    (hIdle : ∀ u i emitted, .polled u i emitted ∈ mid → cfg.idleThresholdMs ≤ i) :
    idleFired cfg (mid ++ log) = true := by
  induction mid with
  | nil => exact hFired
  | cons e mid ih =>
    have hRest := ih fun u i emitted h => hIdle u i emitted (List.mem_cons_of_mem _ h)
    rcases e with ⟨kind, u⟩ | ⟨u, i, emitted⟩
    · exact hRest
    · have hLong := hIdle u i emitted List.mem_cons_self
      simp [idleFired, hLong, hRest]

/-- No `Idle` was emitted, so there is none. -/
theorem not_idleFired_append (hFired : idleFired cfg log = false)
    (hNone : ∀ u i, .polled u i (some .idle) ∉ mid) : idleFired cfg (mid ++ log) = false := by
  induction mid with
  | nil => exact hFired
  | cons e mid ih =>
    have hRest := ih fun u i h => hNone u i (List.mem_cons_of_mem _ h)
    rcases e with ⟨kind, u⟩ | ⟨u, i, emitted⟩
    · exact hRest
    · have hOther : emitted ≠ some .idle := by
        rintro rfl
        exact hNone u i List.mem_cons_self
      simp [idleFired, hOther, hRest]

theorem chronological_split {e f : TriggerEntry} (h : Chronological log)
    (hLog : log = rest ++ e :: (mid ++ f :: earlier)) : f.call.nowMs ≤ e.call.nowMs := by
  subst hLog
  unfold Chronological at h
  rw [List.map_append, List.pairwise_append] at h
  exact (List.pairwise_cons.mp h.2.1).1 _
    (List.mem_map_of_mem (List.mem_append_right _ List.mem_cons_self))

/-! ## The policy -/

/-- A poll where the ceiling has passed and no idle edge takes precedence. -/
def Free (cfg : TriggerConfig) (log : List TriggerEntry) (nowMs idleMs : Int) : Prop :=
  CeilingPassed cfg log nowMs ∧ ¬ IdleEdge cfg log idleMs

/-- The policy, over a log of calls with the latest first. -/
structure TriggerLaw (cfg : TriggerConfig) (log : List TriggerEntry) : Prop where
  /-- Any two emissions are the minimum interval apart. -/
  spaced : (emissions log).Pairwise fun later earlier => cfg.minIntervalMs ≤ later - earlier
  /-- What is emitted for an event has one, which is settled and was not emitted before. -/
  foreground : ∀ rest earlier nowMs idleMs,
    log = rest ++ .polled nowMs idleMs (some .foregroundChange) :: earlier →
    cfg.onForeground = true ∧ ∃ between before t, earlier = between ++ .event .foreground t :: before ∧
      cfg.debounceMs ≤ nowMs - t ∧
      ∀ e ∈ between, (∀ kind u, e ≠ .event kind u) ∧ ∀ u i, e ≠ .polled u i (some .foregroundChange)
  /-- Between two captures of being idle there is a poll where the user was not. -/
  idle : ∀ rest mid earlier nowMs idleMs nowMs' idleMs',
    log = rest ++ .polled nowMs idleMs (some .idle) ::
      (mid ++ .polled nowMs' idleMs' (some .idle) :: earlier) →
    ∃ u i emitted, .polled u i emitted ∈ mid ∧ i < cfg.idleThresholdMs
  /-- A settled event that the ceiling blocked is emitted at the first free poll after that,
  unless there was a newer one. -/
  blockedEvent : ∀ rest mid earlier nowMs idleMs emitted nowMs' idleMs' blocked,
    log = rest ++ .polled nowMs idleMs emitted ::
      (mid ++ .polled nowMs' idleMs' blocked :: earlier) →
    Settled cfg earlier nowMs' → ¬ CeilingPassed cfg earlier nowMs' →
    (∀ kind u, .event kind u ∉ mid) →
    Free cfg (mid ++ .polled nowMs' idleMs' blocked :: earlier) nowMs idleMs →
    (∀ later between u i o, mid = later ++ .polled u i o :: between →
      ¬ Free cfg (between ++ .polled nowMs' idleMs' blocked :: earlier) u i) →
    emitted = some .foregroundChange
  /-- An idle edge that the ceiling blocked is emitted at the first poll of the stretch where the
  ceiling has passed. -/
  blockedIdle : ∀ rest mid earlier nowMs idleMs emitted nowMs' idleMs' blocked,
    log = rest ++ .polled nowMs idleMs emitted ::
      (mid ++ .polled nowMs' idleMs' blocked :: earlier) →
    IdleEdge cfg earlier idleMs' → ¬ CeilingPassed cfg earlier nowMs' →
    (∀ u i o, .polled u i o ∈ mid → cfg.idleThresholdMs ≤ i) → cfg.idleThresholdMs ≤ idleMs →
    CeilingPassed cfg (mid ++ .polled nowMs' idleMs' blocked :: earlier) nowMs →
    (∀ later between u i o, mid = later ++ .polled u i o :: between →
      ¬ CeilingPassed cfg (between ++ .polled nowMs' idleMs' blocked :: earlier) u) →
    emitted = some .idle

theorem spaced_of_due (h : DueLog cfg log) :
    (emissions log).Pairwise fun later earlier => cfg.minIntervalMs ≤ later - earlier := by
  induction log with
  | nil => exact List.Pairwise.nil
  | cons e log ih =>
    rcases e with ⟨kind, t⟩ | ⟨t, idle, _ | trigger⟩
    · exact ih h
    · exact ih h.2
    · exact List.pairwise_cons.mpr ⟨ceiling_of_due h.1.symm, ih h.2⟩

/-- The earlier of two entries of a log, a poll, emitted what was due. -/
theorem due_of_earlier {k : TriggerEntry} {emitted : Option CaptureTrigger} (h : DueLog cfg log)
    (hLog : log = rest ++ k :: (mid ++ .polled nowMs idleMs emitted :: earlier)) :
    emitted = due cfg earlier nowMs idleMs := by
  have hSplit : log = (rest ++ k :: mid) ++ .polled nowMs idleMs emitted :: earlier := by
    rw [hLog]
    simp only [List.append_assoc, List.cons_append]
  exact due_of_split h hSplit

/-- A poll between two others of a log emitted what was due. -/
theorem due_between {k f : TriggerEntry} {u i : Int} {o : Option CaptureTrigger} (h : DueLog cfg log)
    (hLog : log = rest ++ k :: (mid ++ f :: earlier)) {later between : List TriggerEntry}
    (hMid : mid = later ++ .polled u i o :: between) : o = due cfg (between ++ f :: earlier) u i := by
  have hEarlier : log = rest ++ k :: (later ++ .polled u i o :: (between ++ f :: earlier)) := by
    rw [hLog, hMid, List.append_assoc, List.cons_append]
  exact due_of_earlier h hEarlier

theorem law_of_due (h : DueLog cfg log) (hTimes : Chronological log) : TriggerLaw cfg log where
  spaced := spaced_of_due h
  foreground := by
    intro rest earlier nowMs idleMs hLog
    obtain ⟨-, t, hWaiting, hSettled⟩ := settled_of_due (due_of_split h hLog).symm
    obtain ⟨hOn, between, before, hEarlier, hBetween⟩ := waiting_split hWaiting
    exact ⟨hOn, between, before, t, hEarlier, hSettled, hBetween⟩
  idle := by
    intro rest mid earlier nowMs idleMs nowMs' idleMs' hLog
    by_contra hNone
    push Not at hNone
    have hLast := edge_of_due (due_of_split h hLog).symm
    have hFirst := edge_of_due (due_of_earlier h hLog).symm
    have hFired : idleFired cfg (.polled nowMs' idleMs' (some .idle) :: earlier) = true := by
      simp [idleFired, hFirst.2.1]
    exact absurd (idleFired_append hFired hNone) (by rw [hLast.2.2]; exact Bool.false_ne_true)
  blockedEvent := by
    intro rest mid earlier nowMs idleMs emitted nowMs' idleMs' blocked hLog hSettled hBlocked hEvents
      hFree hFirst
    have hQuiet : blocked = none := (due_of_earlier h hLog).trans (due_blocked hBlocked)
    -- what waited at the blocked poll still waits
    have hPolls : ∀ u i, .polled u i (some .foregroundChange) ∉ mid := by
      intro u i hMem
      obtain ⟨later, between, hMid⟩ := List.append_of_mem hMem
      have hDue := (due_between h hLog hMid).symm
      exact hFirst later between u i _ hMid ⟨ceiling_of_due hDue, (settled_of_due hDue).1⟩
    obtain ⟨t, hWaiting, hOld⟩ := hSettled
    have hStill : waiting cfg (mid ++ .polled nowMs' idleMs' blocked :: earlier) = some t := by
      rw [waiting_append hEvents hPolls, hQuiet]
      exact hWaiting
    have hLater : nowMs' ≤ nowMs := chronological_split hTimes hLog
    rw [due_of_split h hLog]
    exact due_settled hFree.1 hFree.2 ⟨t, hStill, by omega⟩
  blockedIdle := by
    intro rest mid earlier nowMs idleMs emitted nowMs' idleMs' blocked hLog hEdge hBlocked hStretch
      hIdle hPassed hFirst
    have hQuiet : blocked = none := (due_of_earlier h hLog).trans (due_blocked hBlocked)
    have hNone : ∀ u i, .polled u i (some .idle) ∉ mid := by
      intro u i hMem
      obtain ⟨later, between, hMid⟩ := List.append_of_mem hMem
      exact hFirst later between u i _ hMid (ceiling_of_due (due_between h hLog hMid).symm)
    have hStill : idleFired cfg (mid ++ .polled nowMs' idleMs' blocked :: earlier) = false := by
      refine not_idleFired_append ?_ hNone
      rw [hQuiet]
      simp [idleFired, hEdge.2.2]
    rw [due_of_split h hLog]
    exact due_edge hPassed ⟨hEdge.1, hIdle, hStill⟩

end

/-- The trigger policy, over every run whose times never decrease. -/
theorem trigger_law (cfg : TriggerConfig) (cs : List TriggerCall)
    (hTimes : (cs.map TriggerCall.nowMs).Pairwise (· ≤ ·)) :
    TriggerLaw cfg ((TriggerRun.start cfg).calls cs).log :=
  law_of_due (run_kept cfg cs hTimes).due (run_chronological cfg hTimes)

/-- An event is blocked by the ceiling, and so is the idle edge that then goes first. -/
def blockedCalls : List TriggerCall :=
  [.onInputEvent .foreground 0, .poll 100 0, .onInputEvent .foreground 200, .poll 400 0,
    .poll 900 5000, .poll 1200 6000, .poll 2000 6800, .poll 2200 7000]

def quickTriggers : TriggerConfig where
  onForeground := true
  onIdle := true
  debounceMs := 100
  minIntervalMs := 1000
  idleThresholdMs := 5000

theorem trigger_law_blocked :
    (blockedCalls.map TriggerCall.nowMs).Pairwise (· ≤ ·) ∧
      TriggerLaw quickTriggers ((TriggerRun.start quickTriggers).calls blockedCalls).log :=
  ⟨by decide, trigger_law quickTriggers blockedCalls (by decide)⟩

example : emissions ((TriggerRun.start quickTriggers).calls blockedCalls).log =
    [2200, 1200, 100] := by decide

end ScreenSearch.Capture
