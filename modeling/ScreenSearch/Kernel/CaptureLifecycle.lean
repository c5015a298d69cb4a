import Mathlib.Logic.Function.Basic
import Mathlib.Tactic.Common

/-!
# Starting and stopping capture

Any number of callers start, stop and reload capture, and the loop's source may shut down by
itself. The slot holds the handle of a loop under a lock; a start keeps the lock for all it does,
a stop only while it empties the slot. Signalling the loop, waiting for its end, the observation
and the readiness come after.

Main results:

* `step_inv` — what every step keeps, where no start fills the slot of a stop under way;
* `capture_agrees` — in every such run one loop runs, and readiness and observations agree with
  the slot.
-/

namespace ScreenSearch.Kernel

inductive ComponentStatus where
  | disabled | initializing | ready | unavailable | error
  deriving DecidableEq, Repr

/-- What is recorded of capture, with the loop it is recorded for where there is one. -/
inductive CaptureNote where
  | started (id : Nat)
  | captureStopped
  | workerError
  deriving DecidableEq, Repr

/-- The task of a loop. -/
inductive LoopTask where
  | absent
  | running
  /-- The source has shut down; the slot is looked at next. -/
  | ending
  /-- The slot has been emptied under the lock. -/
  | clearing
  | over
  deriving DecidableEq, Repr

inductive LifecycleCall where
  | done
  | starting
  /-- The slot is locked and was found empty. -/
  | loading
  | spawned (id : Nat)
  | installed (id : Nat)
  /-- A reload before it has looked at the slot. -/
  | checking
  | stopping (restart : Bool)
  /-- The slot is empty now; the lock is released. -/
  | emptied (handle : Option Nat) (restart : Bool)
  | observed (id : Nat) (restart : Bool)
  | joining (id : Nat) (restart : Bool)
  | released (restart : Bool)
  deriving DecidableEq, Repr

inductive LockHolder where
  | call (i : Nat)
  | task (id : Nat)
  deriving DecidableEq, Repr

structure CaptureLifecycle where
  ocrUnavailable : Bool
  slot : Option Nat
  lock : Option LockHolder
  readiness : ComponentStatus
  /-- `capture_generation`. -/
  generation : Nat
  tasks : Nat → LoopTask
  stopSignals : Nat → Bool
  calls : Nat → LifecycleCall
  /-- Newest first. -/
  notes : List CaptureNote

namespace CaptureLifecycle

def initial (ocrUnavailable : Bool) : CaptureLifecycle where
  ocrUnavailable := ocrUnavailable
  slot := none
  lock := none
  readiness := .disabled
  generation := 0
  tasks _ := .absent
  stopSignals _ := false
  calls _ := .done
  notes := []

variable (s : CaptureLifecycle)

def setCall (i : Nat) (phase : LifecycleCall) : CaptureLifecycle :=
  { s with calls := Function.update s.calls i phase }

def setTask (id : Nat) (task : LoopTask) : CaptureLifecycle :=
  { s with tasks := Function.update s.tasks id task }

def observeCapture (note : CaptureNote) : CaptureLifecycle := { s with notes := note :: s.notes }

end CaptureLifecycle

/-! ## Steps -/

inductive LifecycleEvent where
  | startCapture (i : Nat)
  | stopCapture (i : Nat)
  | reloadCapture (i : Nat)
  /-- A caller that waits for the lock gets it. -/
  | enter (i : Nat)
  /-- The factory builds a source, or fails. -/
  | build (i : Nat) (built : Bool)
  | install (i : Nat)
  | ready (i : Nat)
  | observe (i : Nat)
  | signal (i : Nat)
  /-- The task has ended; joining it may report that it panicked. -/
  | join (i : Nat) (panicked : Bool)
  | release (i : Nat)
  /-- The loop sees its stop signal. -/
  | loopStops (id : Nat)
  | sourceShutdown (id : Nat)
  | loopExit (id : Nat)
  | loopClear (id : Nat)
  deriving DecidableEq, Repr

namespace CaptureLifecycle

variable (s : CaptureLifecycle)

/-- The lock is free and the caller takes it. -/
def enter (i : Nat) : CaptureLifecycle :=
  if s.lock ≠ none then s
  else
    match s.calls i with
    | .starting =>
      if s.slot.isSome then s.setCall i .done
      else if s.ocrUnavailable then { s with readiness := .unavailable }.setCall i .done
      else { s with lock := some (.call i), readiness := .initializing }.setCall i .loading
    | .checking => if s.slot.isSome then s.setCall i (.stopping true) else s.setCall i .done
    | .stopping restart => { s with slot := none }.setCall i (.emptied s.slot restart)
    | _ => s

def build (i : Nat) (built : Bool) : CaptureLifecycle :=
  match s.calls i with
  | .loading =>
    if built then
      ({ s with
        generation := s.generation + 1
        tasks := Function.update s.tasks s.generation .running }.observeCapture
          (.started s.generation)).setCall i (.spawned s.generation)
    else
      ({ s with readiness := .unavailable, lock := none }.observeCapture .workerError).setCall i .done
  | _ => s

/-- What a stop does once the slot is empty. -/
def observe (i : Nat) : CaptureLifecycle :=
  match s.calls i with
  | .emptied (some id) restart => (s.observeCapture .captureStopped).setCall i (.observed id restart)
  | .emptied none restart => s.setCall i (.released restart)
  | _ => s

def join (i : Nat) (panicked : Bool) : CaptureLifecycle :=
  match s.calls i with
  | .joining id restart =>
    if s.tasks id = .over then
      (if panicked then s.observeCapture .workerError else s).setCall i (.released restart)
    else s
  | _ => s

/-- The loop's own way out; only the loop in the slot may empty it. -/
def loopExit (id : Nat) : CaptureLifecycle :=
  if s.tasks id = .ending ∧ s.lock = none then
    if s.slot = some id then
      ({ s with slot := none, lock := some (.task id) }.observeCapture .workerError).setTask id
        .clearing
    else s.setTask id .over
  else s

def begin (i : Nat) (phase : LifecycleCall) : CaptureLifecycle :=
  if s.calls i = .done then s.setCall i phase else s

def step : LifecycleEvent → CaptureLifecycle
  | .startCapture i => s.begin i .starting
  | .stopCapture i => s.begin i (.stopping false)
  | .reloadCapture i => s.begin i .checking
  | .enter i => s.enter i
  | .build i built => s.build i built
  | .install i =>
    match s.calls i with
    | .spawned id => { s with slot := some id }.setCall i (.installed id)
    | _ => s
  | .ready i =>
    match s.calls i with
    | .installed _ => { s with readiness := .ready, lock := none }.setCall i .done
    | _ => s
  | .observe i => s.observe i
  | .signal i =>
    match s.calls i with
    | .observed id restart =>
      { s with stopSignals := Function.update s.stopSignals id true }.setCall i
        (.joining id restart)
    | _ => s
  | .join i panicked => s.join i panicked
  | .release i =>
    match s.calls i with
    | .released restart =>
      { s with readiness := .disabled }.setCall i (if restart then .starting else .done)
    | _ => s
  | .loopStops id =>
    if s.tasks id = .running ∧ s.stopSignals id = true then s.setTask id .over else s
  | .sourceShutdown id => if s.tasks id = .running then s.setTask id .ending else s
  | .loopExit id => s.loopExit id
  | .loopClear id =>
    if s.tasks id = .clearing then
      { s with readiness := .error, lock := none }.setTask id .over
    else s

def run (events : List LifecycleEvent) : CaptureLifecycle := events.foldl step s

end CaptureLifecycle

/-! ## Agreement -/

/-- No call is in progress and no loop is ending. -/
structure CaptureLifecycle.Quiet (s : CaptureLifecycle) : Prop where
  calls : ∀ i, s.calls i = .done
  tasks : ∀ id, s.tasks id ≠ .ending ∧ s.tasks id ≠ .clearing

/-- No stop was observed since the start of the loop was. -/
def NoStopSince (id : Nat) (notes : List CaptureNote) : Prop :=
  ∃ newer older, notes = newer ++ .started id :: older ∧ .captureStopped ∉ newer

structure CaptureLifecycle.Agrees (s : CaptureLifecycle) : Prop where
  one : ∀ id id', s.tasks id = .running → s.tasks id' = .running → id = id'
  readiness : s.Quiet → (s.readiness = .ready ↔ s.slot.isSome)
  observed : s.Quiet → ∀ id, s.slot = some id → NoStopSince id s.notes

/-- A stop that has emptied the slot and not yet set the readiness. -/
@[grind] def LifecycleCall.underWay : LifecycleCall → Bool
  | .emptied _ _ | .observed _ _ | .joining _ _ | .released _ => true
  | _ => false

/-- No start finds the slot empty while a stop is under way. -/
def CaptureLifecycle.CarefulStep (s : CaptureLifecycle) : LifecycleEvent → Prop
  | .enter i => s.calls i = .starting → s.lock = none → s.slot = none →
      ∀ j, (s.calls j).underWay = false
  | _ => True

def CaptureLifecycle.Careful : CaptureLifecycle → List LifecycleEvent → Prop
  | _, [] => True
  | s, e :: events => s.CarefulStep e ∧ (s.step e).Careful events

/-! ## Who has which loop -/

/-- A start that has the lock. -/
@[grind] def LifecycleCall.locks : LifecycleCall → Bool
  | .loading | .spawned _ | .installed _ => true
  | _ => false

/-- A start that has found the slot empty and not filled it. -/
@[grind] def LifecycleCall.early : LifecycleCall → Bool
  | .loading | .spawned _ => true
  | _ => false

/-- The loop a call has outside the slot. -/
@[grind] def LifecycleCall.owns : LifecycleCall → Option Nat
  | .spawned id | .observed id _ | .joining id _ => some id
  | .emptied handle _ => handle
  | _ => none

/-- Before or after everything: neither the lock nor a loop. -/
def LifecycleCall.waits : LifecycleCall → Bool
  | .done | .starting | .checking | .stopping _ => true
  | _ => false

theorem LifecycleCall.waits_apart {phase : LifecycleCall} (h : phase.waits = true) :
    phase.locks = false ∧ phase.underWay = false ∧ phase.early = false ∧ phase.owns = none ∧
      ∀ id, phase ≠ .spawned id ∧ phase ≠ .installed id := by
  cases phase
  case done => exact ⟨rfl, rfl, rfl, rfl, fun _ => ⟨nofun, nofun⟩⟩
  case starting => exact ⟨rfl, rfl, rfl, rfl, fun _ => ⟨nofun, nofun⟩⟩
  case checking => exact ⟨rfl, rfl, rfl, rfl, fun _ => ⟨nofun, nofun⟩⟩
  case stopping => exact ⟨rfl, rfl, rfl, rfl, fun _ => ⟨nofun, nofun⟩⟩
  all_goals cases h

namespace CaptureLifecycle

structure Inv (s : CaptureLifecycle) : Prop where
  locked : ∀ i, (s.calls i).locks = true → s.lock = some (.call i)
  holder : ∀ i, s.lock = some (.call i) → (s.calls i).locks = true
  clearing : ∀ id, s.tasks id = .clearing → s.lock = some (.task id) ∧ s.slot = none
  underWay : ∀ i, (s.calls i).underWay = true → s.slot = none ∧ ∀ j, (s.calls j).locks = false
  early : ∀ i, (s.calls i).early = true → s.slot = none
  owned : ∀ id, s.tasks id = .running ∨ s.tasks id = .ending →
    s.slot = some id ∨ ∃ i, (s.calls i).owns = some id
  owners : ∀ i j id id', (s.calls i).owns = some id → (s.calls j).owns = some id' → i = j
  ready : s.slot.isSome → s.readiness = .ready ∨ ∃ i, s.lock = some (.call i)
  unready : s.readiness = .ready →
    s.slot.isSome ∨ (∃ i, (s.calls i).underWay = true) ∨ ∃ id, s.tasks id = .clearing
  observed : ∀ id, s.slot = some id ∨ (∃ i, s.calls i = .spawned id) → NoStopSince id s.notes
  installed : ∀ i id, s.calls i = .installed id → s.slot = some id

variable {s : CaptureLifecycle} {i id : Nat}

/-- A call that waits goes on waiting. -/
theorem setCall_inv (h : s.Inv) {phase : LifecycleCall} (hBefore : (s.calls i).waits = true)
    (hAfter : phase.waits = true) : (s.setCall i phase).Inv := by
  obtain ⟨hLocks, hUnderWay, hEarly, hOwns, hSpawned⟩ := LifecycleCall.waits_apart hBefore
  obtain ⟨hLocks', hUnderWay', hEarly', hOwns', hSpawned'⟩ := LifecycleCall.waits_apart hAfter
  obtain ⟨h1, h2, h3, h4, h5, h6, h7, h8, h9, h10, h11⟩ := h
  constructor
  all_goals
    simp only [setCall, Function.update_apply]
    grind

theorem begin_inv (h : s.Inv) {phase : LifecycleCall} (hPhase : phase.waits = true) :
    (s.begin i phase).Inv := by
  unfold begin
  split
  · next hDone =>
    refine setCall_inv h ?_ hPhase
    rw [hDone]
    rfl
  · exact h

/-! ## The lock -/

theorem unlocked (h : s.Inv) (hFree : s.lock = none) (j : Nat) : (s.calls j).locks = false := by
  rcases hLocks : (s.calls j).locks with _ | _
  · rfl
  · rw [h.locked j hLocks] at hFree
    cases hFree

/-- A loop outside the slot leaves it empty. -/
theorem owns_slot (h : s.Inv) (hOwns : (s.calls i).owns = some id) : s.slot = none := by
  cases hCall : s.calls i <;> rw [hCall] at hOwns
  case spawned => exact h.early i (by rw [hCall]; rfl)
  case emptied => exact (h.underWay i (by rw [hCall]; rfl)).1
  case observed => exact (h.underWay i (by rw [hCall]; rfl)).1
  case joining => exact (h.underWay i (by rw [hCall]; rfl)).1
  all_goals cases hOwns

/-- A start takes the lock and finds the slot empty. -/
theorem load_inv (h : s.Inv) (hCall : s.calls i = .starting) (hFree : s.lock = none)
    (hEmpty : s.slot = none) (hAlone : ∀ j, (s.calls j).underWay = false) :
    ({ s with lock := some (.call i), readiness := .initializing }.setCall i .loading).Inv := by
  have hUnlocked := unlocked h hFree
  obtain ⟨h1, h2, h3, h4, h5, h6, h7, h8, h9, h10, h11⟩ := h
  constructor
  all_goals
    simp only [setCall, Function.update_apply]
    grind

/-- A stop empties the slot. -/
theorem take_inv (h : s.Inv) {restart : Bool} (hCall : s.calls i = .stopping restart)
    (hFree : s.lock = none) : ({ s with slot := none }.setCall i (.emptied s.slot restart)).Inv := by
  have hUnlocked := unlocked h hFree
  have hApart : ∀ j id, (s.calls j).owns = some id → s.slot = none := fun j id => owns_slot h
  obtain ⟨h1, h2, h3, h4, h5, h6, h7, h8, h9, h10, h11⟩ := h
  constructor
  all_goals
    simp only [setCall, Function.update_apply]
    grind

theorem enter_inv (h : s.Inv) (hCareful : s.CarefulStep (.enter i)) : (s.enter i).Inv := by
  unfold enter
  split
  · exact h
  · next hFree =>
    have hFree' : s.lock = none := not_not.mp hFree
    split
    · next hCall =>
      have hWaits : (s.calls i).waits = true := by
        rw [hCall]
        rfl
      split
      · exact setCall_inv h hWaits rfl
      · next hSlot =>
        have hEmpty : s.slot = none := Option.not_isSome_iff_eq_none.mp hSlot
        split
        · -- a loop that cannot start leaves a slot that is empty anyway
          refine setCall_inv ?_ hWaits rfl
          exact { h with
            ready := fun hSome => absurd hSome hSlot
            unready := nofun }
        · exact load_inv h hCall hFree' hEmpty (hCareful hCall hFree' hEmpty)
    · next hCall =>
      have hWaits : (s.calls i).waits = true := by
        rw [hCall]
        rfl
      split <;> exact setCall_inv h hWaits rfl
    · next restart hCall => exact take_inv h hCall hFree'
    · exact h

/-! ## A start under the lock -/

theorem noStopSince_note {notes : List CaptureNote} {note : CaptureNote}
    (h : NoStopSince id notes) (hNote : note ≠ .captureStopped) : NoStopSince id (note :: notes) := by
  obtain ⟨newer, older, rfl, hNewer⟩ := h
  refine ⟨note :: newer, older, rfl, ?_⟩
  rw [List.mem_cons]
  rintro (hSame | hIn)
  · exact hNote hSame.symm
  · exact hNewer hIn

theorem noStopSince_started (id : Nat) (notes : List CaptureNote) :
    NoStopSince id (.started id :: notes) := ⟨[], notes, rfl, List.not_mem_nil⟩

/-- One start at most is under the lock, and no stop is under way. -/
theorem locks_alone (h : s.Inv) (hLocks : (s.calls i).locks = true) :
    (∀ j, (s.calls j).locks = true → j = i) ∧ ∀ j, (s.calls j).underWay = false := by
  refine ⟨fun j hOther => ?_, fun j => ?_⟩
  · have hSame := h.locked j hOther
    rw [h.locked i hLocks] at hSame
    cases hSame
    rfl
  · rcases hUnderWay : (s.calls j).underWay with _ | _
    · rfl
    · rw [(h.underWay j hUnderWay).2 i] at hLocks
      cases hLocks

/-- Only a stop under way or the start under the lock has a loop. -/
theorem owns_locks {phase : LifecycleCall} (hOwns : phase.owns = some id)
    (hUnderWay : phase.underWay = false) : phase = .spawned id := by
  cases phase
  case spawned =>
    cases hOwns
    rfl
  case emptied => cases hUnderWay
  case observed => cases hUnderWay
  case joining => cases hUnderWay
  all_goals cases hOwns

theorem build_inv (h : s.Inv) (built : Bool) : (s.build i built).Inv := by
  unfold build observeCapture setCall
  split
  · next hCall =>
    have hLocks : (s.calls i).locks = true := by
      rw [hCall]
      rfl
    have hLock := h.locked i hLocks
    have hEmpty : s.slot = none := h.early i (by rw [hCall]; rfl)
    obtain ⟨hAlone, hNotUnderWay⟩ := locks_alone h hLocks
    have hNoOwner : ∀ j id, (s.calls j).owns ≠ some id := by
      intro j id hOwns
      have hSpawned := owns_locks hOwns (hNotUnderWay j)
      have hSame := hAlone j (by rw [hSpawned]; rfl)
      rw [hSame, hCall] at hSpawned
      cases hSpawned
    have hNotes : ∀ note, note ≠ .captureStopped → ∀ id, NoStopSince id s.notes →
        NoStopSince id (note :: s.notes) := fun note hNote id hSince => noStopSince_note hSince hNote
    have hStarted := noStopSince_started s.generation s.notes
    obtain ⟨h1, h2, h3, h4, h5, h6, h7, h8, h9, h10, h11⟩ := h
    split
    · constructor
      all_goals
        simp only [Function.update_apply]
        grind
    · constructor
      all_goals
        simp only [Function.update_apply]
        grind
  · exact h

theorem install_inv (h : s.Inv) : (s.step (.install i)).Inv := by
  unfold step setCall
  dsimp only
  split
  · next id hCall =>
    have hLocks : (s.calls i).locks = true := by
      rw [hCall]
      rfl
    have hLock := h.locked i hLocks
    obtain ⟨hAlone, hNotUnderWay⟩ := locks_alone h hLocks
    have hOwner : ∀ j id', (s.calls j).owns = some id' → id' = id ∧ j = i := by
      intro j id' hOwns
      have hSpawned := owns_locks hOwns (hNotUnderWay j)
      have hSame := hAlone j (by rw [hSpawned]; rfl)
      rw [hSame, hCall] at hSpawned
      cases hSpawned
      exact ⟨rfl, hSame⟩
    have hSince := h.observed id (Or.inr ⟨i, hCall⟩)
    have hEarly : ∀ j, (s.calls j).early = true → (s.calls j).locks = true := by
      intro j
      cases s.calls j <;> first | exact fun _ => rfl | exact fun hEarly => by cases hEarly
    obtain ⟨h1, h2, h3, h4, h5, h6, h7, h8, h9, h10, h11⟩ := h
    constructor
    all_goals
      simp only [Function.update_apply]
      grind
  · exact h

theorem ready_inv (h : s.Inv) : (s.step (.ready i)).Inv := by
  unfold step setCall
  dsimp only
  split
  · next id hCall =>
    have hLocks : (s.calls i).locks = true := by
      rw [hCall]
      rfl
    have hLock := h.locked i hLocks
    obtain ⟨hAlone, hNotUnderWay⟩ := locks_alone h hLocks
    have hFilled := h.installed i id hCall
    obtain ⟨h1, h2, h3, h4, h5, h6, h7, h8, h9, h10, h11⟩ := h
    constructor
    all_goals
      simp only [Function.update_apply]
      grind
  · exact h

/-! ## A stop after the lock -/

/-- A stop under way goes on; only what is noted and the readiness change, and its loop is let go
once it is over. -/
theorem stopOn_inv (h : s.Inv) {phase : LifecycleCall} {notes : List CaptureNote}
    (hUnderWay : (s.calls i).underWay = true) (hNext : phase.underWay = true)
    (hOwns : ∀ id, (s.calls i).owns = some id → phase.owns = some id ∨ s.tasks id = .over)
    (hSame : ∀ id, phase.owns = some id → (s.calls i).owns = some id) :
    ({ s with notes := notes }.setCall i phase).Inv := by
  obtain ⟨hEmpty, hUnlocked⟩ := h.underWay i hUnderWay
  have hLocks : phase.locks = false := by
    cases phase <;> first | rfl | cases hNext
  have hEarly : phase.early = false := by
    cases phase <;> first | rfl | cases hNext
  have hSpawned : ∀ id, phase ≠ .spawned id := by
    rintro id rfl
    cases hNext
  have hNoSpawned : ∀ j id, s.calls j ≠ .spawned id := by
    intro j id hCall
    have hLocked := hUnlocked j
    rw [hCall] at hLocked
    cases hLocked
  have hNoInstalled : ∀ id, phase ≠ .installed id := by
    rintro id rfl
    cases hNext
  obtain ⟨h1, h2, h3, h4, h5, h6, h7, h8, h9, h10, h11⟩ := h
  constructor
  all_goals
    simp only [setCall, Function.update_apply]
    grind

theorem observe_inv (h : s.Inv) : (s.observe i).Inv := by
  unfold observe observeCapture
  split
  · next id restart hCall =>
    refine stopOn_inv h (by rw [hCall]; rfl) rfl (fun id' hOwns => ?_) fun id' hOwns => ?_
    · rw [hCall] at hOwns
      exact Or.inl hOwns
    · rw [hCall]
      exact hOwns
  · next restart hCall =>
    refine stopOn_inv h (by rw [hCall]; rfl) rfl (fun id' hOwns => ?_) nofun
    rw [hCall] at hOwns
    cases hOwns
  · exact h

theorem signal_inv (h : s.Inv) : (s.step (.signal i)).Inv := by
  unfold step
  dsimp only
  split
  · next id restart hCall =>
    have hNext : ({ s with notes := s.notes }.setCall i (.joining id restart) :
        CaptureLifecycle).Inv := stopOn_inv h
      (by rw [hCall]; rfl) rfl (fun id' hOwns => ?_) fun id' hOwns => ?_
    · exact { hNext with }
    · rw [hCall] at hOwns
      exact Or.inl hOwns
    · rw [hCall]
      exact hOwns
  · exact h

theorem join_inv (h : s.Inv) (panicked : Bool) : (s.join i panicked).Inv := by
  unfold join observeCapture
  split
  · next id restart hCall =>
    split
    · next hOver =>
      have hLetGo : ∀ id', (s.calls i).owns = some id' →
          (LifecycleCall.released restart).owns = some id' ∨ s.tasks id' = .over := by
        intro id' hOwns
        rw [hCall] at hOwns
        cases hOwns
        exact Or.inr hOver
      split <;> exact stopOn_inv h (by rw [hCall]; rfl) rfl hLetGo nofun
    · exact h
  · exact h

/-- The readiness is set; nothing but stops can have happened since the slot was emptied. -/
theorem release_inv (h : s.Inv) : (s.step (.release i)).Inv := by
  unfold step setCall
  dsimp only
  split
  · next restart hCall =>
    obtain ⟨hEmpty, hUnlocked⟩ := h.underWay i (by rw [hCall]; rfl)
    have hWaits : LifecycleCall.waits (if restart then .starting else .done) = true := by
      split <;> rfl
    obtain ⟨hLocks', hUnderWay', hEarly', hOwns', hSpawned'⟩ := LifecycleCall.waits_apart hWaits
    generalize (if restart then LifecycleCall.starting else .done) = phase at *
    obtain ⟨h1, h2, h3, h4, h5, h6, h7, h8, h9, h10, h11⟩ := h
    constructor
    all_goals
      simp only [Function.update_apply]
      grind
  · exact h

/-! ## The loops -/

/-- A loop's task moves on without the slot. -/
theorem setTask_inv (h : s.Inv) {task : LoopTask} (hNotClearing : task ≠ .clearing)
    (hBefore : s.tasks id ≠ .clearing)
    (hLive : task = .running ∨ task = .ending → s.tasks id = .running ∨ s.tasks id = .ending) :
    (s.setTask id task).Inv := by
  obtain ⟨h1, h2, h3, h4, h5, h6, h7, h8, h9, h10, h11⟩ := h
  constructor
  all_goals
    simp only [setTask, Function.update_apply]
    grind

theorem loopExit_inv (h : s.Inv) : (s.loopExit id).Inv := by
  unfold loopExit
  split
  · next hEnding =>
    obtain ⟨hTask, hFree⟩ := hEnding
    split
    · next hSlot =>
      have hUnlocked := unlocked h hFree
      have hSince : ∀ note, note ≠ .captureStopped → ∀ id, NoStopSince id s.notes →
          NoStopSince id (note :: s.notes) := fun note hNote id hSince => noStopSince_note hSince hNote
      have hApart : ∀ j id, (s.calls j).owns = some id → s.slot = none := fun j id => owns_slot h
      have hSpawned : ∀ j id', s.calls j ≠ .spawned id' := by
        intro j id' hCall
        have hLocks := hUnlocked j
        rw [hCall] at hLocks
        cases hLocks
      have hInstalled : ∀ j id', s.calls j ≠ .installed id' := by
        intro j id' hCall
        have hLocks := hUnlocked j
        rw [hCall] at hLocks
        cases hLocks
      obtain ⟨h1, h2, h3, h4, h5, h6, h7, h8, h9, h10, h11⟩ := h
      constructor
      all_goals
        simp only [observeCapture, setTask, Function.update_apply]
        grind
    · refine setTask_inv h nofun (by rw [hTask]; nofun) ?_
      rintro (hLive | hLive) <;> cases hLive
  · exact h

theorem loopClear_inv (h : s.Inv) : (s.step (.loopClear id)).Inv := by
  unfold step setTask
  dsimp only
  split
  · next hClearing =>
    obtain ⟨hLock, hEmpty⟩ := h.clearing id hClearing
    have hUnlocked : ∀ j, (s.calls j).locks = false := by
      intro j
      rcases hLocks : (s.calls j).locks with _ | _
      · rfl
      · rw [h.locked j hLocks] at hLock
        cases hLock
    obtain ⟨h1, h2, h3, h4, h5, h6, h7, h8, h9, h10, h11⟩ := h
    constructor
    all_goals
      simp only [Function.update_apply]
      grind
  · exact h

/-! ## Runs -/

theorem initial_inv (ocrUnavailable : Bool) : (initial ocrUnavailable).Inv where
  locked i hLocks := by cases hLocks
  holder i hLock := by cases hLock
  clearing id hTask := by cases hTask
  underWay i hUnderWay := by cases hUnderWay
  early i hEarly := by cases hEarly
  owned id hLive := by rcases hLive with hTask | hTask <;> cases hTask
  owners i j id id' hOwns := by cases hOwns
  ready hSlot := by cases hSlot
  unready hReady := by cases hReady
  observed id hLoop := by
    rcases hLoop with hSlot | ⟨i, hCall⟩
    · cases hSlot
    · cases hCall
  installed i id hCall := by cases hCall

/-- What a step keeps, where no start fills the slot of a stop under way. -/
theorem step_inv (h : s.Inv) {e : LifecycleEvent} (hCareful : s.CarefulStep e) : (s.step e).Inv := by
  cases e
  case startCapture i => exact begin_inv h rfl
  case stopCapture i => exact begin_inv h rfl
  case reloadCapture i => exact begin_inv h rfl
  case enter i => exact enter_inv h hCareful
  case build i built => exact build_inv h built
  case install i => exact install_inv h
  case ready i => exact ready_inv h
  case observe i => exact observe_inv h
  case signal i => exact signal_inv h
  case join i panicked => exact join_inv h panicked
  case release i => exact release_inv h
  case loopExit id => exact loopExit_inv h
  case loopClear id => exact loopClear_inv h
  case loopStops id =>
    unfold step
    dsimp only
    split
    · next hStops =>
      refine setTask_inv h nofun (by rw [hStops.1]; nofun) ?_
      rintro (hLive | hLive) <;> cases hLive
    · exact h
  case sourceShutdown id =>
    unfold step
    dsimp only
    split
    · next hRunning =>
      exact setTask_inv h nofun (by rw [hRunning]; nofun) fun _ => Or.inl hRunning
    · exact h

theorem run_inv (h : s.Inv) {events : List LifecycleEvent} (hCareful : s.Careful events) :
    (s.run events).Inv := by
  induction events generalizing s with
  | nil => exact h
  | cons e events ih => exact ih (step_inv h hCareful.1) hCareful.2

theorem agrees_of_inv (h : s.Inv) : s.Agrees where
  one id id' hRunning hRunning' := by
    rcases h.owned id (Or.inl hRunning) with hSlot | ⟨i, hOwns⟩
    · rcases h.owned id' (Or.inl hRunning') with hSlot' | ⟨j, hOwns'⟩
      · rw [hSlot] at hSlot'
        exact Option.some.inj hSlot'
      · rw [owns_slot h hOwns'] at hSlot
        cases hSlot
    · rcases h.owned id' (Or.inl hRunning') with hSlot' | ⟨j, hOwns'⟩
      · rw [owns_slot h hOwns] at hSlot'
        cases hSlot'
      · obtain rfl := h.owners i j id id' hOwns hOwns'
        rw [hOwns] at hOwns'
        exact Option.some.inj hOwns'
  readiness hQuiet := by
    constructor
    · intro hReady
      rcases h.unready hReady with hSlot | ⟨i, hUnderWay⟩ | ⟨id, hClearing⟩
      · exact hSlot
      · rw [hQuiet.calls i] at hUnderWay
        cases hUnderWay
      · exact absurd hClearing (hQuiet.tasks id).2
    · intro hSlot
      rcases h.ready hSlot with hReady | ⟨i, hLock⟩
      · exact hReady
      · have hLocks := h.holder i hLock
        rw [hQuiet.calls i] at hLocks
        cases hLocks
  observed _ id hSlot := h.observed id (Or.inl hSlot)

/-- **Capture agrees with its slot.** In every run in which no start finds the slot empty while a
stop is under way, at most one loop runs at any time; and when nothing is in progress, capture is
ready exactly where there is a handle, and no stop was observed since its loop was started. -/
theorem capture_agrees (ocrUnavailable : Bool) (events : List LifecycleEvent)
    (hCareful : (initial ocrUnavailable).Careful events) :
    ((initial ocrUnavailable).run events).Agrees :=
  agrees_of_inv (run_inv (initial_inv ocrUnavailable) hCareful)

/-- Start, reload, and a source that shuts down. -/
def reloadedRun : List LifecycleEvent :=
  [.startCapture 0, .enter 0, .build 0 true, .install 0, .ready 0,
    .reloadCapture 1, .enter 1, .enter 1, .observe 1, .signal 1, .loopStops 0, .join 1 false,
    .release 1, .enter 1, .build 1 true, .install 1, .ready 1, .sourceShutdown 1, .loopExit 1,
    .loopClear 1]

theorem capture_agrees_reloaded : ((initial false).run reloadedRun).Agrees := by
  refine capture_agrees false reloadedRun ?_
  repeat' constructor
  · intro _ _ _ j
    match j with
    | 0 => rfl
    | j + 1 => rfl
  · intro hStarting
    cases hStarting
  · intro hStarting
    cases hStarting
  · intro _ _ _ j
    match j with
    | 0 => rfl
    | 1 => rfl
    | j + 2 => rfl

/-- A start that comes while a stop waits for the old loop: both loops run, and the stop ends by
noting a stop and disabling what has been started since. -/
def overtakenStop : List LifecycleEvent :=
  [.startCapture 0, .enter 0, .build 0 true, .install 0, .ready 0, .stopCapture 1, .enter 1,
    .startCapture 0, .enter 0, .build 0 true, .install 0, .ready 0]

theorem overtaken_stop :
    ¬ ((initial false).run overtakenStop).Agrees ∧
      ¬ ((initial false).run (overtakenStop ++
        [.observe 1, .signal 1, .loopStops 0, .join 1 false, .release 1])).Agrees := by
  constructor
  · intro h
    exact absurd (h.one 0 1 rfl rfl) (by decide)
  · intro h
    have hReady := (h.readiness ⟨fun i => ?_, fun id => ?_⟩).mpr rfl
    · cases hReady
    · match i with
      | 0 => rfl
      | 1 => rfl
      | i + 2 => rfl
    · match id with
      | 0 => exact ⟨nofun, nofun⟩
      | 1 => exact ⟨nofun, nofun⟩
      | id + 2 => exact ⟨nofun, nofun⟩

end CaptureLifecycle

end ScreenSearch.Kernel
