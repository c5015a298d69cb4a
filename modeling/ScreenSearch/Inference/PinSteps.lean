import ScreenSearch.Inference.Preload
import ScreenSearch.Inference.LeaseSafety

/-!
# What a call does to the pin

One step of a call on the supervisor leaves the process in the state and the pin, or is one
of five: a process is taken out to be replaced by one of the same specification, or by
another with the pin cleared, or to be stopped; one is put there; an unload clears the pin.
The recovery from a crash is the odd one: it may replace another specification's process.

Main result: `next_turn` — one case per phase.
-/

namespace ScreenSearch.Inference

open Shares

variable {config : SupervisorConfig} {sys : SystemAnswer} {sup sup' : Supervisor}
  {spec : ModelSpec} {ph ph' : Phase} {s : PinSystem}

/-! ## What one step can do -/

def Phase.ofUnload : Phase → Bool
  | .unloadPin | .unloadGate | .unloadLock | .unloadCheck => true
  | _ => false

/-- What a step does to the process in the state and to the pin. -/
inductive Shift (sup : Supervisor) (spec : ModelSpec) (ph : Phase) (after : Supervisor × Phase) :
    Prop
  | quiet (state : after.1.state = sup.state) (pinned : after.1.pinned = sup.pinned)
      (respawns : after.2.respawns = true →
        ph.respawns = true ∨ ph = .enterCheck ∧ sup.state = none)
  /-- A process is taken out of the state, to put another there. -/
  | refresh (old : SidecarProcess) (all : ph.permits = requestGatePermits)
      (before : sup.state = some old)
      (same : needsRestart old.spec spec = false ∨ ph = .crashCheck)
      (state : after.1.state = none) (pinned : after.1.pinned = sup.pinned)
      (respawns : after.2.respawns = true)
  | switch (all : ph.permits = requestGatePermits) (pinned : after.1.pinned = false)
  | stop (phase : ph = .unloadCheck ∨ ph = .evictTake) (pinned : after.1.pinned = sup.pinned)
  | install (proc : SidecarProcess) (before : ph.respawns = true)
      (fits : needsRestart proc.spec spec = false) (state : after.1.state = some proc)
      (pinned : after.1.pinned = sup.pinned) (phase : after.2 = .installed ph.permits proc)
  | clear (phase : ph = .unloadPin) (next : after.2 = .unloadGate)
      (pinned : after.1.pinned = false)

/-- A step of one call. -/
structure Turn (sup : Supervisor) (spec : ModelSpec) (ph : Phase) (after : Supervisor × Phase) :
    Prop where
  shift : Shift sup spec ph after
  crash : ∀ running, after.2 = .crashHealth running → needsRestart running.spec spec = false
  evict : after.2 = .evictTake → sup.pinned = false
  unload : after.2.ofUnload = true → ph.ofUnload = true

/-- Has decided what to do with the process in the state. -/
def Phase.decided : Phase → Bool
  | .crashHealth _ | .evictTake => true
  | _ => false

/-- A phase that nothing here asks about. -/
def Phase.plain (ph : Phase) : Bool := !ph.respawns && (!ph.ofUnload && !ph.decided)

theorem respawns_of_plain (h : ph.plain = true) : ph.respawns = false := by
  unfold Phase.plain at h
  rw [Bool.and_eq_true, Bool.not_eq_true'] at h
  exact h.1

theorem ofUnload_of_plain (h : ph.plain = true) : ph.ofUnload = false := by
  unfold Phase.plain at h
  rw [Bool.and_eq_true, Bool.and_eq_true, Bool.not_eq_true', Bool.not_eq_true'] at h
  exact h.2.1

theorem respawns_of_ofUnload (h : ph.ofUnload = true) : ph.respawns = false := by
  cases ph <;> first | rfl | cases h

theorem turn_plain {after : Supervisor × Phase} (hState : after.1.state = sup.state)
    (hPinned : after.1.pinned = sup.pinned) (hPlain : after.2.plain = true) :
    Turn sup spec ph after where
  shift := by
    refine .quiet hState hPinned fun hRespawns => ?_
    rw [respawns_of_plain hPlain] at hRespawns
    cases hRespawns
  crash := by
    intro running hAt
    rw [hAt] at hPlain
    cases hPlain
  evict := by
    intro hAt
    rw [hAt] at hPlain
    cases hPlain
  unload := by
    intro hUnload
    rw [ofUnload_of_plain hPlain] at hUnload
    cases hUnload

theorem turn_enter {n : Nat} (hWaits : ph.plain = true) (hNext : ph'.plain = true) :
    Turn sup spec ph (sup.enter n ph ph') := by
  unfold Supervisor.enter
  split
  · exact turn_plain rfl rfl hNext
  · exact turn_plain rfl rfl hWaits

theorem turn_lock (hWaits : ph.plain = true) (hNext : ph'.plain = true) :
    Turn sup spec ph (sup.lock ph ph') := by
  unfold Supervisor.lock
  split
  · exact turn_plain rfl rfl hWaits
  · exact turn_plain rfl rfl hNext

/-- Waiting of an unload. -/
theorem turn_unload {after : Supervisor × Phase} (hState : after.1.state = sup.state)
    (hPinned : after.1.pinned = sup.pinned) (hUnload : ph.ofUnload = true)
    (hNext : after.2.ofUnload = true) : Turn sup spec ph after := by
  obtain ⟨sup', ph'⟩ := after
  refine ⟨.quiet hState hPinned fun hRespawns => ?_, ?_, ?_, fun _ => hUnload⟩
  · rw [respawns_of_ofUnload hNext] at hRespawns
    cases hRespawns
  · rintro running rfl
    cases hNext
  · rintro rfl
    cases hNext

theorem turn_refresh {old : SidecarProcess} (hAll : ph.permits = requestGatePermits)
    (hBefore : sup.state = some old) (hSame : needsRestart old.spec spec = false ∨ ph = .crashCheck) :
    Turn sup spec ph (sup.take .respawn old) where
  shift := .refresh old hAll hBefore hSame rfl rfl rfl
  crash := by
    intro running hAt
    cases hAt
  evict := by
    intro hAt
    cases hAt
  unload := by
    intro hUnload
    cases hUnload

theorem turn_stop {reason : StopReason} {old : SidecarProcess}
    (hPhase : ph = .unloadCheck ∨ ph = .evictTake) : Turn sup spec ph (sup.take reason old) where
  shift := .stop hPhase rfl
  crash := by
    intro running hAt
    cases hAt
  evict := by
    intro hAt
    cases hAt
  unload := by
    intro hUnload
    cases hUnload

/-- Another attempt of a task that respawns, or its end. -/
theorem turn_respawn {after : Supervisor × Phase} (hState : after.1.state = sup.state)
    (hPinned : after.1.pinned = sup.pinned) (hRespawns : ph.respawns = true)
    (hNext : after.2.respawns = true ∨ after.2.plain = true) : Turn sup spec ph after := by
  rcases hNext with hNext | hPlain
  · obtain ⟨sup', ph'⟩ := after
    refine ⟨.quiet hState hPinned fun _ => .inl hRespawns, ?_, ?_, ?_⟩
    · rintro running rfl
      cases hNext
    · rintro rfl
      cases hNext
    · intro hUnload
      rw [respawns_of_ofUnload hUnload] at hNext
      cases hNext
  · exact turn_plain hState hPinned hPlain

theorem nextAttempt_next (permits attempt : Nat) :
    (nextAttempt permits attempt).respawns = true ∨ (nextAttempt permits attempt).plain = true := by
  unfold nextAttempt
  split
  · exact .inl rfl
  · exact .inr rfl

theorem spawn_turn {permits attempt : Nat} : Turn sup spec (.spawning permits attempt)
    (sup.spawn config sys spec permits attempt) := by
  unfold Supervisor.spawn
  split
  · exact turn_respawn rfl rfl rfl (.inl rfl)
  · exact turn_respawn rfl rfl rfl (nextAttempt_next permits attempt)

theorem poll_turn {permits attempt : Nat} {proc : SidecarProcess}
    (hOk : (Phase.starting permits attempt proc).Ok config spec sup) :
    Turn sup spec (.starting permits attempt proc) (sup.poll sys permits attempt proc) := by
  unfold Supervisor.poll
  split
  · exact turn_respawn rfl rfl rfl (nextAttempt_next permits attempt)
  split
  · refine ⟨.install proc rfl hOk.2.2.1.compatible rfl rfl rfl, ?_, ?_, ?_⟩
    · intro running hAt
      cases hAt
    · intro hAt
      cases hAt
    · intro hUnload
      cases hUnload
  split
  · exact turn_respawn rfl rfl rfl (nextAttempt_next permits attempt)
  · exact turn_respawn rfl rfl rfl (.inl rfl)

/-- One step of a call. -/
theorem next_turn {task : Task} (hOk : task.phase.Ok config task.spec sup)
    (hCrash : ∀ running, task.phase = .crashHealth running →
      needsRestart running.spec task.spec = false) :
    Turn sup task.spec task.phase (task.next config sys sup) := by
  obtain ⟨spec, ph⟩ := task
  unfold Task.next
  dsimp only at hOk hCrash ⊢
  cases ph <;> dsimp only
  case overCeiling =>
    split
    · exact turn_plain rfl rfl rfl
    split
    · exact turn_plain rfl rfl rfl
    split <;> exact turn_plain rfl rfl rfl
  case recycleGate => exact turn_enter rfl rfl
  case recycleLock => exact turn_lock rfl rfl
  case recycleCheck =>
    split
    · next old hSome =>
      split
      · next hOver =>
        refine turn_refresh rfl hSome (.inl ?_)
        unfold overCeiling at hOver
        rw [Option.map_some, Option.getD_some, Bool.and_eq_true, Bool.not_eq_true'] at hOver
        exact hOver.1
      · exact turn_plain rfl rfl rfl
    · exact turn_plain rfl rfl rfl
  case needsSwitch =>
    split
    · exact turn_plain rfl rfl rfl
    split <;> exact turn_plain rfl rfl rfl
  case switchGate => exact turn_enter rfl rfl
  case switchLock => exact turn_lock rfl rfl
  case switchCheck =>
    split
    · next old hSome =>
      split
      · -- a switch takes the process out together with its pin
        refine ⟨.switch rfl rfl, ?_, ?_, ?_⟩
        · intro running hAt
          cases hAt
        · intro hAt
          cases hAt
        · intro hUnload
          cases hUnload
      · exact turn_plain rfl rfl rfl
    · exact turn_plain rfl rfl rfl
  case enterGate => exact turn_enter rfl rfl
  case enterLock => exact turn_lock rfl rfl
  case enterCheck =>
    split
    · split <;> exact turn_plain rfl rfl rfl
    · next hNone =>
      refine ⟨.quiet rfl rfl fun _ => .inr ⟨rfl, hNone⟩, ?_, ?_, ?_⟩
      · intro running hAt
        cases hAt
      · intro hAt
        cases hAt
      · intro hUnload
        cases hUnload
  case healthCheck => split <;> exact turn_plain rfl rfl rfl
  case crashGate => exact turn_enter rfl rfl
  case crashLock => exact turn_lock rfl rfl
  case crashCheck =>
    split
    · next running hSome =>
      split
      · exact turn_refresh rfl hSome (.inr rfl)
      · next hSame =>
        refine ⟨.quiet rfl rfl (fun hRespawns => by cases hRespawns), ?_, ?_, ?_⟩
        · intro _ hAt
          cases hAt
          exact Bool.eq_false_iff.mpr hSame
        · intro hAt
          cases hAt
        · intro hUnload
          cases hUnload
    · exact turn_plain rfl rfl rfl
  case crashHealth running =>
    split
    · exact turn_plain rfl rfl rfl
    · exact turn_refresh rfl hOk (.inl (hCrash running rfl))
  case stopping reason old =>
    rcases reason
    · exact turn_respawn rfl rfl rfl (.inl rfl)
    · exact turn_plain rfl rfl rfl
    · exact turn_plain rfl rfl rfl
  case spawning => exact spawn_turn
  case starting => exact poll_turn hOk
  case unloadPin =>
    refine ⟨.clear rfl rfl rfl, ?_, ?_, fun _ => rfl⟩
    · intro running hAt
      cases hAt
    · intro hAt
      cases hAt
  case unloadGate =>
    unfold Supervisor.enter
    split <;> exact turn_unload rfl rfl rfl rfl
  case unloadLock =>
    unfold Supervisor.lock
    split <;> exact turn_unload rfl rfl rfl rfl
  case unloadCheck =>
    split
    · exact turn_stop (.inl rfl)
    · exact turn_plain rfl rfl rfl
  case evictProbe => split <;> exact turn_plain rfl rfl rfl
  case evictLock => exact turn_lock rfl rfl
  case evictCheck =>
    split
    · exact turn_plain rfl rfl rfl
    · next hKeep =>
      refine ⟨.quiet rfl rfl (fun hRespawns => by cases hRespawns), ?_, fun _ => ?_, ?_⟩
      · intro running hAt
        cases hAt
      · -- an eviction goes on only where nothing is pinned
        rw [Bool.not_eq_true, Bool.or_eq_false_iff] at hKeep
        exact hKeep.2
      · intro hUnload
        cases hUnload
  case evictTake =>
    split
    · exact turn_stop (.inr rfl)
    · exact turn_plain rfl rfl rfl
  all_goals exact turn_plain rfl rfl rfl

end ScreenSearch.Inference
