import ScreenSearch.Inference.PinSteps

/-!
# The pin belongs to the resident model

A preload pins while it has its lease, so what it pins is resident, and whoever takes that
process away either clears the pin, or saw it clear, or puts a process of the same
specification there. Two paths do not: an unload clears the pin before it waits for the
gate, so a preload that ends in between pins what the unload then stops; and a request that
finds the process crashed, or none, spawns its own specification under a pin of another.

Main results:

* `belongs_moved` — what the pin stands for, over one step of a call;
* `step_pinInv` — every careful step keeps the invariant;
* `pin_belongs` — in every careful run the pin is that of the resident model, and an unload
  returns with the pin clear.
-/

namespace ScreenSearch.Inference

open Shares

variable {config : SupervisorConfig} {sys : SystemAnswer} {sup : Supervisor}
  {spec : ModelSpec} {ph : Phase} {s : PinSystem}

/-! ## The invariant -/

/-- A preload that has set the pin and not returned. -/
def Holding (c : ActiveCall) (task : Task) : Prop := c.pinned = true ∧ task.phase ≠ .finished

/-- The phases of a preload that has set the pin. -/
def Phase.afterPin : Phase → Bool
  | .leased _ | .dropped | .finished => true
  | _ => false

/-- The specification that the pin stands for. -/
structure PinSystem.PinnedBy (s : PinSystem) (spec : ModelSpec) : Prop where
  source : s.latest = some spec ∨
    ∃ i c task, s.At i c task ∧ Holding c task ∧ task.spec = spec
  state : ∀ proc, s.base.sup.state = some proc → needsRestart proc.spec spec = false
  respawning : ∀ i c task, s.At i c task → task.phase.respawns = true →
    needsRestart task.spec spec = false
  holding : ∀ i c task, s.At i c task → Holding c task → needsRestart task.spec spec = false
  empty : s.base.sup.state = none →
    s.respawned = true ∧ ∀ i c task, s.At i c task → ¬ Holding c task

structure PinInv (config : SupervisorConfig) (s : PinSystem) : Prop where
  base : s.base.Inv config
  length : s.calls.length = s.base.tasks.length
  unloading : ∀ i c task, s.At i c task → Unloading c task → s.base.sup.pinned = false
  ofUnload : ∀ i c task, s.At i c task → task.phase.ofUnload = true → c.call = .unload
  evict : ∀ i c task, s.At i c task → task.phase = .evictTake → s.base.sup.pinned = false
  crash : ∀ i c task running, s.At i c task → task.phase = .crashHealth running →
    needsRestart running.spec task.spec = false
  flagged : ∀ i c task, s.At i c task → c.pinned = true →
    c.call = .preload ∧ task.phase.afterPin = true
  /-- Only an unload that waits for the gate clears a pin while a preload holds its lease. -/
  waiting : ∀ i c task, s.At i c task → Holding c task → s.base.sup.pinned = false →
    ∃ j d other, s.At j d other ∧ d.call = .unload ∧ other.phase = .unloadGate
  belongs : s.base.sup.pinned = true → ∃ spec, s.PinnedBy spec

variable {i j : Nat} {c d : ActiveCall} {task other : Task}

theorem needsRestart_symm {a b : ModelSpec} (h : needsRestart a b = false) :
    needsRestart b a = false := by
  simp only [needsRestart, Bool.or_eq_false_iff, decide_eq_false_iff_not, not_not] at h ⊢
  obtain ⟨⟨⟨⟨⟨⟨hGguf, hMmproj⟩, hNgl⟩, hDevice⟩, hCtx⟩, hKv⟩, hFlash⟩ := h
  exact ⟨⟨⟨⟨⟨⟨hGguf.symm, hMmproj.symm⟩, hNgl.symm⟩, hDevice.symm⟩, hCtx.symm⟩, hKv.symm⟩,
    hFlash.symm⟩

theorem needsRestart_trans {a b c : ModelSpec} (h : needsRestart a b = false)
    (h' : needsRestart b c = false) : needsRestart a c = false := by
  simp only [needsRestart, Bool.or_eq_false_iff, decide_eq_false_iff_not, not_not] at h h' ⊢
  obtain ⟨⟨⟨⟨⟨⟨hGguf, hMmproj⟩, hNgl⟩, hDevice⟩, hCtx⟩, hKv⟩, hFlash⟩ := h
  obtain ⟨⟨⟨⟨⟨⟨hGguf', hMmproj'⟩, hNgl'⟩, hDevice'⟩, hCtx'⟩, hKv'⟩, hFlash'⟩ := h'
  exact ⟨⟨⟨⟨⟨⟨hGguf.trans hGguf', hMmproj.trans hMmproj'⟩, hNgl.trans hNgl'⟩,
    hDevice.trans hDevice'⟩, hCtx.trans hCtx'⟩, hKv.trans hKv'⟩, hFlash.trans hFlash'⟩

/-- Whoever respawns has found the state empty. -/
theorem state_of_respawns (h : PinInv config s) (hAt : s.At i c task)
    (hRespawns : task.phase.respawns = true) : s.base.sup.state = none := by
  have hOk := h.base.ok i task hAt.2
  rcases hPhase : task.phase <;> rw [hPhase] at hOk hRespawns <;> try cases hRespawns
  case stopping reason old => exact hOk.1
  case spawning => exact hOk.2
  case starting => exact hOk.2.1

/-- A preload that has set the pin has a permit until it returns. -/
theorem permits_of_holding (h : PinInv config s) (hAt : s.At i c task) (hHolds : Holding c task) :
    task.phase.permits = 1 := by
  have hAfter := (h.flagged i c task hAt hHolds.1).2
  rcases hPhase : task.phase <;> rw [hPhase] at hAfter <;> try cases hAfter
  case leased => rfl
  case dropped => rfl
  case finished => exact absurd hPhase hHolds.2

/-- No preload holds a permit while another task has all of them. -/
theorem not_holding_of_all (h : PinInv config s) (hi : s.base.tasks[i]? = some task)
    (hAll : task.phase.permits = requestGatePermits) :
    ∀ j d other, s.At j d other → ¬ Holding d other := by
  intro j d other hAt hHolds
  have hOne := permits_of_holding h hAt hHolds
  rcases eq_or_ne i j with rfl | hNe
  · rw [Option.some.inj (hi.symm.trans hAt.2)] at hAll
    rw [hAll] at hOne
    cases hOne
  · have hZero : other.phase.permits = 0 := by
      refine others_hold_none (fun task => task.phase.permits) ?_ hi hAt.2 hNe
      have := h.base.permits
      omega
    rw [hOne] at hZero
    cases hZero

/-! ## Calls that begin, and what happens by itself -/

theorem at_begin {call : Call} {phase : Phase} (hLength : s.calls.length = s.base.tasks.length)
    (hAt : ({ s with
      base := s.base.begin spec phase
      calls := s.calls ++ [⟨call, false⟩] } : PinSystem).At i c task) :
    s.At i c task ∨ (c = ⟨call, false⟩ ∧ task = ⟨spec, phase⟩) := by
  obtain ⟨hCall, hTask⟩ := hAt
  change (s.calls ++ [_])[i]? = some c at hCall
  change (s.base.tasks ++ [_])[i]? = some task at hTask
  rcases Nat.lt_or_ge i s.calls.length with hOld | hNew
  · rw [List.getElem?_append_left hOld] at hCall
    rw [List.getElem?_append_left (hLength ▸ hOld)] at hTask
    exact .inl ⟨hCall, hTask⟩
  · rw [List.getElem?_append_right hNew] at hCall
    rw [List.getElem?_append_right (hLength ▸ hNew)] at hTask
    exact .inr ⟨List.mem_singleton.mp (List.mem_of_getElem? hCall),
      List.mem_singleton.mp (List.mem_of_getElem? hTask)⟩

theorem at_begin_old {call : Call} {phase : Phase} (hAt : s.At i c task) :
    ({ s with
      base := s.base.begin spec phase
      calls := s.calls ++ [⟨call, false⟩] } : PinSystem).At i c task := by
  obtain ⟨hCall, hTask⟩ := hAt
  constructor
  · show (s.calls ++ [_])[i]? = some c
    rw [List.getElem?_append_left (List.getElem?_eq_some_iff.mp hCall).1]
    exact hCall
  · show (s.base.tasks ++ [_])[i]? = some task
    rw [List.getElem?_append_left (List.getElem?_eq_some_iff.mp hTask).1]
    exact hTask

theorem begin_pinInv {call : Call} {phase : Phase} (h : PinInv config s)
    (hBase : (s.base.begin spec phase).Inv config) (hRespawns : phase.respawns = false)
    (hUnload : phase.ofUnload = true → call = .unload ∧ phase = .unloadPin)
    (hUnloading : call = .unload → phase = .unloadPin) (hDecided : phase.decided = false) :
    PinInv config { s with
      base := s.base.begin spec phase
      calls := s.calls ++ [⟨call, false⟩] } where
  base := hBase
  length := by
    show (s.calls ++ [_]).length = (s.base.tasks ++ [_]).length
    rw [List.length_append, List.length_append, h.length]
    rfl
  unloading := by
    intro i c task hAt hUnloads
    rcases at_begin h.length hAt with hOld | ⟨rfl, rfl⟩
    · exact h.unloading i c task hOld hUnloads
    · exact absurd (hUnloading hUnloads.1) hUnloads.2.1
  ofUnload := by
    intro i c task hAt hOf
    rcases at_begin h.length hAt with hOld | ⟨rfl, rfl⟩
    · exact h.ofUnload i c task hOld hOf
    · exact (hUnload hOf).1
  evict := by
    intro i c task hAt hEvict
    rcases at_begin h.length hAt with hOld | ⟨rfl, rfl⟩
    · exact h.evict i c task hOld hEvict
    · rw [show phase = .evictTake from hEvict] at hDecided
      cases hDecided
  crash := by
    intro i c task running hAt hCrash
    rcases at_begin h.length hAt with hOld | ⟨rfl, rfl⟩
    · exact h.crash i c task running hOld hCrash
    · rw [show phase = .crashHealth running from hCrash] at hDecided
      cases hDecided
  flagged := by
    intro i c task hAt hPinned
    rcases at_begin h.length hAt with hOld | ⟨rfl, rfl⟩
    · exact h.flagged i c task hOld hPinned
    · cases hPinned
  waiting := by
    intro i c task hAt hHolds hClear
    rcases at_begin h.length hAt with hOld | ⟨rfl, rfl⟩
    · obtain ⟨j, d, other, hOther, hWaits⟩ := h.waiting i c task hOld hHolds hClear
      exact ⟨j, d, other, at_begin_old hOther, hWaits⟩
    · cases hHolds.1
  belongs := by
    intro hPinned
    obtain ⟨pinSpec, hBy⟩ := h.belongs hPinned
    refine ⟨pinSpec, ?_, hBy.state, ?_, ?_, ?_⟩
    · rcases hBy.source with hLatest | ⟨i, c, task, hAt, hHolds⟩
      · exact .inl hLatest
      · exact .inr ⟨i, c, task, at_begin_old hAt, hHolds⟩
    · intro i c task hAt hRespawning
      rcases at_begin h.length hAt with hOld | ⟨rfl, rfl⟩
      · exact hBy.respawning i c task hOld hRespawning
      · rw [hRespawns] at hRespawning
        cases hRespawning
    · intro i c task hAt hHolds
      rcases at_begin h.length hAt with hOld | ⟨rfl, rfl⟩
      · exact hBy.holding i c task hOld hHolds
      · cases hHolds.1
    · intro hNone
      refine ⟨(hBy.empty hNone).1, fun i c task hAt hHolds => ?_⟩
      rcases at_begin h.length hAt with hOld | ⟨rfl, rfl⟩
      · exact (hBy.empty hNone).2 i c task hOld hHolds
      · cases hHolds.1

/-- What the pin does not depend on. -/
theorem pinInv_congr {base : SupervisorSystem} (h : PinInv config s) (hBase : base.Inv config)
    (hTasks : base.tasks = s.base.tasks) (hState : base.sup.state = s.base.sup.state)
    (hPinned : base.sup.pinned = s.base.sup.pinned) : PinInv config { s with base := base } := by
  obtain ⟨sup, tasks⟩ := base
  dsimp only at hTasks hState hPinned
  subst hTasks
  refine ⟨hBase, h.length, ?_, h.ofUnload, ?_, h.crash, h.flagged, ?_, ?_⟩
  · intro i c task hAt hUnloads
    exact hPinned.trans (h.unloading i c task hAt hUnloads)
  · intro i c task hAt hEvict
    exact hPinned.trans (h.evict i c task hAt hEvict)
  · intro i c task hAt hHolds hClear
    exact h.waiting i c task hAt hHolds (hPinned.symm.trans hClear)
  · intro hSet
    obtain ⟨pinSpec, hBy⟩ := h.belongs (hPinned.symm.trans hSet)
    exact ⟨pinSpec, hBy.source, fun proc hSome => hBy.state proc (hState.symm.trans hSome),
      hBy.respawning, hBy.holding, fun hNone => hBy.empty (hState.symm.trans hNone)⟩

/-! ## Setting the pin -/

/-- The system after the preload at the position has set the pin. -/
def PinSystem.setPin (s : PinSystem) (i : Nat) (c : ActiveCall) : PinSystem :=
  { s with
    base := { s.base with sup := { s.base.sup with pinned := true } }
    calls := s.calls.set i { c with pinned := true } }

theorem at_setPin (hi : s.At i c task) (hAt : (s.setPin i c).At j d other) :
    (j = i ∧ d = { c with pinned := true } ∧ other = task) ∨ (i ≠ j ∧ s.At j d other) := by
  obtain ⟨hCall, hTask⟩ := hAt
  change (s.calls.set i _)[j]? = some d at hCall
  rcases eq_or_ne i j with rfl | hNe
  · rw [List.getElem?_set_self (List.getElem?_eq_some_iff.mp hi.1).1] at hCall
    exact .inl ⟨rfl, (Option.some.inj hCall).symm, Option.some.inj (hTask.symm.trans hi.2)⟩
  · rw [List.getElem?_set_ne hNe] at hCall
    exact .inr ⟨hNe, hCall, hTask⟩

/-- The lease of a preload that is about to set the pin. -/
theorem leased_of_pinsNext (h : c.pinsNext task.phase = true) :
    c.call = .preload ∧ ∃ proc, task.phase = .leased proc := by
  unfold ActiveCall.pinsNext at h
  rw [Bool.and_eq_true, Bool.and_eq_true, decide_eq_true_eq] at h
  refine ⟨h.1.1, ?_⟩
  rcases hPhase : task.phase
  case leased proc => exact ⟨proc, rfl⟩
  all_goals
    rw [hPhase] at h
    cases h.2

theorem setPin_pinInv (h : PinInv config s) (hi : s.At i c task)
    (hBase : (s.setPin i c).base.Inv config) (hPins : c.pinsNext task.phase = true)
    (hNone : ∀ j d other, s.At j d other → ¬ Unloading d other) :
    PinInv config (s.setPin i c) := by
  obtain ⟨hPreload, proc, hLeased⟩ := leased_of_pinsNext hPins
  have hOk := h.base.ok i task hi.2
  rw [hLeased] at hOk
  obtain ⟨hState, hFits⟩ := hOk
  have hHolds : Holding { c with pinned := true } task :=
    ⟨rfl, by rw [hLeased]; exact Phase.noConfusion⟩
  have hSelf : (s.setPin i c).At i { c with pinned := true } task :=
    ⟨List.getElem?_set_self (List.getElem?_eq_some_iff.mp hi.1).1, hi.2⟩
  refine ⟨hBase, (List.length_set).trans h.length, ?_, ?_, ?_, ?_, ?_, ?_, ?_⟩
  · intro j d other hAt hUnloads
    rcases at_setPin hi hAt with ⟨rfl, rfl, rfl⟩ | ⟨hNe, hOld⟩
    · rw [show ({ c with pinned := true } : ActiveCall).call = c.call from rfl, hPreload] at hUnloads
      cases hUnloads.1
    · exact absurd hUnloads (hNone j d other hOld)
  · intro j d other hAt hOf
    rcases at_setPin hi hAt with ⟨rfl, rfl, rfl⟩ | ⟨hNe, hOld⟩
    · exact h.ofUnload j c other hi hOf
    · exact h.ofUnload j d other hOld hOf
  · intro j d other hAt hEvict
    -- The evictor has seen, with the lock, that there is no lease.
    exfalso
    have hIdle := h.base.ok j other hAt.2
    rw [hEvict] at hIdle
    have hZero : task.phase.leaseCount = 0 :=
      total_eq_zero (fun task => task.phase.leaseCount) (h.base.inFlight.symm.trans hIdle) hi.2
    rw [hLeased] at hZero
    cases hZero
  · intro j d other running hAt hCrash
    rcases at_setPin hi hAt with ⟨rfl, rfl, rfl⟩ | ⟨hNe, hOld⟩
    · exact h.crash j c other running hi hCrash
    · exact h.crash j d other running hOld hCrash
  · intro j d other hAt hPinned
    rcases at_setPin hi hAt with ⟨rfl, rfl, rfl⟩ | ⟨hNe, hOld⟩
    · exact ⟨hPreload, by rw [hLeased]; rfl⟩
    · exact h.flagged j d other hOld hPinned
  · intro j d other hAt hOther hClear
    cases hClear
  · intro _
    refine ⟨task.spec, .inr ⟨i, _, task, hSelf, hHolds, rfl⟩, ?_, ?_, ?_, ?_⟩
    · intro running hSome
      obtain rfl := Option.some.inj (hState.symm.trans hSome)
      exact hFits.compatible
    · intro j d other hAt hRespawning
      have hEmpty : s.base.sup.state = none := by
        rcases at_setPin hi hAt with ⟨rfl, rfl, rfl⟩ | ⟨hNe, hOld⟩
        · exact state_of_respawns h hi hRespawning
        · exact state_of_respawns h hOld hRespawning
      rw [hState] at hEmpty
      cases hEmpty
    · intro j d other hAt hOther
      rcases at_setPin hi hAt with ⟨rfl, rfl, rfl⟩ | ⟨hNe, hOld⟩
      · exact needsRestart_self _
      -- Another preload that holds its lease has pinned the same process.
      rcases hSet : s.base.sup.pinned with - | -
      · obtain ⟨k, e, waits, hWaits, hCall, hGate⟩ := h.waiting j d other hOld hOther hSet
        exact absurd ⟨hCall, by rw [hGate]; decide, by rw [hGate]; decide⟩ (hNone k e waits hWaits)
      · obtain ⟨pinSpec, hBy⟩ := h.belongs hSet
        exact needsRestart_trans (hBy.holding j d other hOld hOther)
          (needsRestart_trans (needsRestart_symm (hBy.state proc hState)) hFits.compatible)
    · intro hEmpty
      rw [show (s.setPin i c).base.sup.state = s.base.sup.state from rfl, hState] at hEmpty
      cases hEmpty

/-! ## The other steps -/

/-- The system after a step of the call at the position. -/
def PinSystem.moved (s : PinSystem) (i : Nat) (c : ActiveCall) (task : Task)
    (after : Supervisor × Phase) : PinSystem :=
  { s with
    base := { sup := after.1, tasks := s.base.tasks.set i { task with phase := after.2 } }
    latest := latestAfter s.latest c task s.base.sup after
    respawned := respawnedAfter s.respawned s.base.sup after }

variable {after : Supervisor × Phase}

theorem at_moved (hi : s.At i c task) (hAt : (s.moved i c task after).At j d other) :
    (j = i ∧ d = c ∧ other = { task with phase := after.2 }) ∨ (i ≠ j ∧ s.At j d other) := by
  obtain ⟨hCall, hTask⟩ := hAt
  rcases get_set hi.2 hTask with ⟨rfl, rfl⟩ | ⟨hNe, hOld⟩
  · exact .inl ⟨rfl, Option.some.inj (hCall.symm.trans hi.1), rfl⟩
  · exact .inr ⟨hNe, hCall, hOld⟩

theorem at_moved_self (hi : s.At i c task) :
    (s.moved i c task after).At i c { task with phase := after.2 } :=
  ⟨hi.1, get_set_self hi.2 _⟩

theorem at_moved_ne (hNe : i ≠ j) (hAt : s.At j d other) :
    (s.moved i c task after).At j d other := by
  refine ⟨hAt.1, ?_⟩
  show (s.base.tasks.set i _)[j]? = some other
  rw [List.getElem?_set_ne hNe]
  exact hAt.2

/-- A step does not set the pin. -/
theorem pinned_of_shift (h : Shift s.base.sup spec ph after) (hSet : after.1.pinned = true) :
    s.base.sup.pinned = true := by
  rcases h with ⟨-, hPinned, -⟩ | ⟨old, -, -, -, -, hPinned, -⟩ | ⟨-, hClear⟩ | ⟨-, hPinned⟩ |
    ⟨proc, -, -, -, hPinned, -⟩ | ⟨-, -, hClear⟩
  · exact hPinned ▸ hSet
  · exact hPinned ▸ hSet
  · rw [hClear] at hSet
    cases hSet
  · exact hPinned ▸ hSet
  · exact hPinned ▸ hSet
  · rw [hClear] at hSet
    cases hSet

theorem next_finished (hPhase : task.phase = .finished) :
    (task.next config sys sup).2 = .finished := by
  unfold Task.next
  rw [hPhase]

theorem next_unloadPin (hPhase : task.phase = .unloadPin) :
    (task.next config sys sup) = ({ sup with pinned := false }, .unloadGate) := by
  unfold Task.next
  rw [hPhase]

theorem next_afterPin (hAfter : task.phase.afterPin = true) :
    (task.next config sys sup).2.afterPin = true := by
  rcases hPhase : task.phase <;> rw [hPhase] at hAfter <;> try cases hAfter
  case leased =>
    unfold Task.next
    rw [hPhase]
    rfl
  case dropped =>
    unfold Task.next
    rw [hPhase]
    rfl
  case finished =>
    rw [next_finished hPhase]
    rfl

/-- A preload that holds its lease after a step held it before. -/
theorem holding_moved (hi : s.At i c task) (hAt : (s.moved i c task (task.next config sys sup)).At
    j d other) (hHolds : Holding d other) : ∃ before, s.At j d before ∧ Holding d before ∧
      before.spec = other.spec ∧ (i ≠ j → before = other) := by
  rcases at_moved hi hAt with ⟨rfl, rfl, rfl⟩ | ⟨hNe, hOld⟩
  · refine ⟨task, hi, ⟨hHolds.1, fun hFinished => ?_⟩, rfl, fun hNe => absurd rfl hNe⟩
    exact hHolds.2 (next_finished hFinished)
  · exact ⟨other, hOld, hHolds, rfl, fun _ => rfl⟩

theorem latestAfter_returns {latest : Option ModelSpec} (hHolds : Holding c task)
    (hCall : c.call = .preload) (hFinished : after.2 = .finished) :
    latestAfter latest c task sup after = some task.spec := by
  unfold latestAfter
  rw [if_pos ⟨hFinished, hHolds.2⟩, hCall]
  dsimp only
  rw [if_pos hHolds.1]

/-- Only a preload that has pinned, or an unload, changes by its return what the pin stands
for. -/
theorem latestAfter_same {latest : Option ModelSpec} (hState : after.1.state = sup.state)
    (hNot : ¬ (Holding c task ∧ after.2 = .finished))
    (hUnload : c.call = .unload → after.2 = .finished → task.phase = .finished) :
    latestAfter latest c task sup after = latest := by
  unfold latestAfter
  rw [if_pos hState]
  split
  · next hEnds =>
    rcases hCall : c.call
    case unload => exact absurd (hUnload hCall hEnds.1) hEnds.2
    case preload =>
      dsimp only
      rw [if_neg fun hPinned => hNot ⟨⟨hPinned, hEnds.2⟩, hEnds.1⟩]
    all_goals rfl
  · rfl

theorem latestAfter_fits {latest : Option ModelSpec} (hRuns : after.2 ≠ .finished)
    (hFits : ∀ proc, after.1.state = some proc → needsRestart proc.spec spec = false)
    (hLatest : latest = some spec) : latestAfter latest c task sup after = some spec := by
  unfold latestAfter
  rw [if_neg fun hEnds => hRuns hEnds.1, hLatest]
  split
  · rfl
  · refine Option.filter_eq_some_iff.mpr ⟨rfl, ?_⟩
    rcases hState : after.1.state with - | proc
    · rfl
    · rw [Option.all_some, hFits proc hState]
      rfl

/-- What the pin stands for is still there. -/
theorem source_moved {pinSpec : ModelSpec} (hi : s.At i c task) (hBy : s.PinnedBy pinSpec)
    (hNot : ¬ (Holding c task ∧ after.2 = .finished))
    (hLatest : s.latest = some pinSpec →
      latestAfter s.latest c task s.base.sup after = some pinSpec) :
    (s.moved i c task after).latest = some pinSpec ∨ ∃ j d other,
      (s.moved i c task after).At j d other ∧ Holding d other ∧ other.spec = pinSpec := by
  rcases hBy.source with hOld | ⟨j, d, other, hAt, hHolds, hSpec⟩
  · exact .inl (hLatest hOld)
  right
  rcases eq_or_ne i j with rfl | hNe
  · obtain rfl := Option.some.inj (hAt.1.symm.trans hi.1)
    obtain rfl := Option.some.inj (hAt.2.symm.trans hi.2)
    exact ⟨i, d, _, at_moved_self hi, ⟨hHolds.1, fun hEnds => hNot ⟨hHolds, hEnds⟩⟩, hSpec⟩
  · exact ⟨j, d, other, at_moved_ne hNe hAt, hHolds, hSpec⟩

/-- A task that respawns is the one that steps, or did so before. -/
theorem respawning_moved {pinSpec : ModelSpec} (hi : s.At i c task) (hBy : s.PinnedBy pinSpec)
    (hSelf : after.2.respawns = true → needsRestart task.spec pinSpec = false) :
    ∀ j d other, (s.moved i c task after).At j d other → other.phase.respawns = true →
      needsRestart other.spec pinSpec = false := by
  intro j d other hAt hRespawns
  rcases at_moved hi hAt with ⟨rfl, rfl, rfl⟩ | ⟨hNe, hOld⟩
  · exact hSelf hRespawns
  · exact hBy.respawning j d other hOld hRespawns

theorem holdings_moved {pinSpec : ModelSpec} (hi : s.At i c task) (hBy : s.PinnedBy pinSpec) :
    ∀ j d other, (s.moved i c task (task.next config sys sup)).At j d other → Holding d other →
      needsRestart other.spec pinSpec = false := by
  intro j d other hAt hHolds
  obtain ⟨before, hBefore, hHeld, hSpec, -⟩ := holding_moved hi hAt hHolds
  rw [← hSpec]
  exact hBy.holding j d before hBefore hHeld

/-- What the pin stands for may be named by any specification that needs no restart of it. -/
theorem pinnedBy_of_fits {pinSpec pinSpec' : ModelSpec} (hBy : s.PinnedBy pinSpec)
    (hFits : needsRestart pinSpec pinSpec' = false) (hSource : s.latest = some pinSpec' ∨
      ∃ i c task, s.At i c task ∧ Holding c task ∧ task.spec = pinSpec') :
    s.PinnedBy pinSpec' where
  source := hSource
  state := fun proc hState => needsRestart_trans (hBy.state proc hState) hFits
  respawning := fun i c task hAt hRespawns =>
    needsRestart_trans (hBy.respawning i c task hAt hRespawns) hFits
  holding := fun i c task hAt hHolds =>
    needsRestart_trans (hBy.holding i c task hAt hHolds) hFits
  empty := hBy.empty

/-- An unload that returns has been in progress, with the pin clear. -/
theorem not_unload_returns (h : PinInv config s) (hi : s.At i c task)
    (hSet : s.base.sup.pinned = true) (hCall : c.call = .unload)
    (hFinished : (task.next config sys sup).2 = .finished) : task.phase = .finished := by
  by_contra hRuns
  have hClear := h.unloading i c task hi ⟨hCall, ?_, hRuns⟩
  · rw [hSet] at hClear
    cases hClear
  · intro hPin
    rw [next_unloadPin hPin] at hFinished
    cases hFinished

theorem moved_pinnedBy {pinSpec : ModelSpec} (hi : s.At i c task) (hBy : s.PinnedBy pinSpec)
    (hNext : task.next config sys sup = after)
    (hSelf : after.2.respawns = true → needsRestart task.spec pinSpec = false)
    (hSource : (s.moved i c task after).latest = some pinSpec ∨ ∃ j d other,
      (s.moved i c task after).At j d other ∧ Holding d other ∧ other.spec = pinSpec)
    (hState : ∀ proc, after.1.state = some proc → needsRestart proc.spec pinSpec = false)
    (hEmpty : after.1.state = none → respawnedAfter s.respawned s.base.sup after = true ∧
      ∀ j d other, s.At j d other → ¬ Holding d other) :
    (s.moved i c task after).PinnedBy pinSpec where
  source := hSource
  state := hState
  respawning := respawning_moved hi hBy hSelf
  holding := by
    subst hNext
    exact holdings_moved hi hBy
  empty := by
    intro hNone
    refine ⟨(hEmpty hNone).1, fun j d other hAt hHolds => ?_⟩
    subst hNext
    obtain ⟨before, hBefore, hHeld, -, -⟩ := holding_moved hi hAt hHolds
    exact (hEmpty hNone).2 j d before hBefore hHeld

theorem locks_of_respawns (h : ph.respawns = true) : ph.locks = 1 := by
  cases ph
  case stopping => rfl
  case spawning => rfl
  case starting => rfl
  all_goals cases h

/-- What the pin stands for, when a request finds no process. -/
theorem pinnedBy_of_empty {pinSpec pinSpec' : ModelSpec} (h : PinInv config s)
    (hi : s.At i c task) (hBy : s.PinnedBy pinSpec) (hPhase : task.phase = .enterCheck)
    (hNone : s.base.sup.state = none) (hLatest : s.latest = some pinSpec') :
    s.PinnedBy pinSpec' where
  source := .inl hLatest
  state := by
    intro proc hSome
    rw [hNone] at hSome
    cases hSome
  respawning := by
    intro j d other hAt hRespawns
    exfalso
    have hLocks := locks_of_respawns hRespawns
    rcases eq_or_ne i j with rfl | hNe
    · rw [← Option.some.inj (hi.2.symm.trans hAt.2), hPhase] at hRespawns
      cases hRespawns
    · have hZero := locks_unique h.base hi.2 hAt.2 (by rw [hPhase]; rfl) hNe
      rw [hLocks] at hZero
      cases hZero
  holding := fun j d other hAt hHolds => absurd hHolds ((hBy.empty hNone).2 j d other hAt)
  empty := hBy.empty

/-- A specification that the pin stands for before a step that leaves the state, and that a
task that now respawns has. -/
theorem pinnedBy_of_quiet (h : PinInv config s) (hi : s.At i c task)
    (hSet : s.base.sup.pinned = true)
    (hRespawns : after.2.respawns = true →
      task.phase.respawns = true ∨ task.phase = .enterCheck ∧ s.base.sup.state = none)
    (hEmpty : task.phase = .enterCheck → s.base.sup.state = none →
      ∃ spec, s.latest = some spec ∧ needsRestart task.spec spec = false) :
    ∃ pinSpec, s.PinnedBy pinSpec ∧
      (after.2.respawns = true → needsRestart task.spec pinSpec = false) := by
  obtain ⟨pinSpec, hBy⟩ := h.belongs hSet
  rcases hNow : after.2.respawns with - | -
  · exact ⟨pinSpec, hBy, fun hTrue => by cases hTrue⟩
  rcases hRespawns hNow with hBefore | ⟨hPhase, hNone⟩
  · exact ⟨pinSpec, hBy, fun _ => hBy.respawning i c task hi hBefore⟩
  · obtain ⟨pinSpec', hLatest, hFits⟩ := hEmpty hPhase hNone
    exact ⟨pinSpec', pinnedBy_of_empty h hi hBy hPhase hNone hLatest, fun _ => hFits⟩

/-- The pin over a step that leaves the state. -/
theorem belongs_quiet (h : PinInv config s) (hi : s.At i c task)
    (hNext : task.next config sys s.base.sup = after) (hState : after.1.state = s.base.sup.state)
    (hRespawns : after.2.respawns = true →
      task.phase.respawns = true ∨ task.phase = .enterCheck ∧ s.base.sup.state = none)
    (hEmpty : task.phase = .enterCheck → s.base.sup.state = none →
      ∃ spec, s.latest = some spec ∧ needsRestart task.spec spec = false)
    (hSet : s.base.sup.pinned = true) : ∃ spec, (s.moved i c task after).PinnedBy spec := by
  obtain ⟨pinSpec, hBy, hSelf⟩ := pinnedBy_of_quiet h hi hSet hRespawns hEmpty
  have hNone : ∀ spec, s.PinnedBy spec → after.1.state = none →
      respawnedAfter s.respawned s.base.sup after = true ∧
        ∀ j d other, s.At j d other → ¬ Holding d other := by
    intro spec hBy hAfter
    rw [hState] at hAfter
    obtain ⟨hRespawned, hNot⟩ := hBy.empty hAfter
    refine ⟨?_, hNot⟩
    unfold respawnedAfter
    rw [hAfter]
    exact hRespawned
  by_cases hReturns : Holding c task ∧ after.2 = .finished
  · have hFits := needsRestart_symm (hBy.holding i c task hi hReturns.1)
    have hBy' := pinnedBy_of_fits hBy hFits (.inr ⟨i, c, task, hi, hReturns.1, rfl⟩)
    refine ⟨task.spec, moved_pinnedBy hi hBy' hNext ?_ (.inl ?_) ?_ (hNone _ hBy')⟩
    · intro _
      exact needsRestart_self _
    · exact latestAfter_returns hReturns.1 (h.flagged i c task hi hReturns.1.1).1 hReturns.2
    · intro proc hSome
      exact hBy'.state proc (hState.symm.trans hSome)
  · refine ⟨pinSpec, moved_pinnedBy hi hBy hNext hSelf (source_moved hi hBy hReturns ?_) ?_
      (hNone _ hBy)⟩
    · intro hLatest
      rw [latestAfter_same hState hReturns, hLatest]
      intro hCall hFinished
      subst hNext
      exact not_unload_returns h hi hSet hCall hFinished
    · intro proc hSome
      exact hBy.state proc (hState.symm.trans hSome)

/-- The pin over a step. -/
theorem belongs_moved (h : PinInv config s) (hi : s.At i c task)
    (hNext : task.next config sys s.base.sup = after)
    (hShift : Shift s.base.sup task.spec task.phase after)
    (hCrash : task.phase = .crashCheck → ∀ running, s.base.sup.state = some running →
      needsRestart running.spec task.spec = false)
    (hEmpty : task.phase = .enterCheck → s.base.sup.state = none →
      ∃ spec, s.latest = some spec ∧ needsRestart task.spec spec = false)
    (hAfter : after.1.pinned = true) : ∃ spec, (s.moved i c task after).PinnedBy spec := by
  have hSet := pinned_of_shift hShift hAfter
  obtain ⟨pinSpec, hBy⟩ := h.belongs hSet
  rcases hShift with ⟨hState, -, hRespawns⟩ | ⟨old, hAll, hBefore, hSame, hState, -, hRespawns⟩ |
    ⟨-, hClear⟩ | ⟨hPhase, -⟩ | ⟨proc, hBefore, hFits, hState, -, hPhase⟩ | ⟨-, -, hClear⟩
  · exact belongs_quiet h hi hNext hState hRespawns hEmpty hSet
  · have hOld : needsRestart old.spec task.spec = false := by
      rcases hSame with hSame | hPhase
      · exact hSame
      · exact hCrash hPhase old hBefore
    have hRuns : after.2 ≠ .finished := by
      intro hFinished
      rw [hFinished] at hRespawns
      cases hRespawns
    have hNone : ∀ proc, after.1.state = some proc → needsRestart proc.spec pinSpec = false := by
      intro proc hSome
      rw [hState] at hSome
      cases hSome
    refine ⟨pinSpec, moved_pinnedBy hi hBy hNext ?_ (source_moved hi hBy ?_ ?_) hNone ?_⟩
    · intro _
      exact needsRestart_trans (needsRestart_symm hOld) (hBy.state old hBefore)
    · exact fun hReturns => hRuns hReturns.2
    · exact latestAfter_fits hRuns hNone
    · intro _
      refine ⟨?_, not_holding_of_all h hi.2 hAll⟩
      unfold respawnedAfter
      rw [hBefore, hState]
      exact hRespawns
  · rw [hClear] at hAfter
    cases hAfter
  · -- Who stops the process has seen the pin clear.
    exfalso
    rcases hPhase with hPhase | hPhase
    · have hCall := h.ofUnload i c task hi (by rw [hPhase]; rfl)
      have hClear := h.unloading i c task hi
        ⟨hCall, by rw [hPhase]; decide, by rw [hPhase]; decide⟩
      rw [hSet] at hClear
      cases hClear
    · have hClear := h.evict i c task hi hPhase
      rw [hSet] at hClear
      cases hClear
  · have hOwn := hBy.respawning i c task hi hBefore
    have hRuns : after.2 ≠ .finished := by
      rw [hPhase]
      exact fun hAt => by cases hAt
    have hProc : ∀ running, after.1.state = some running →
        needsRestart running.spec pinSpec = false := by
      intro running hSome
      obtain rfl := Option.some.inj (hState.symm.trans hSome)
      exact needsRestart_trans hFits hOwn
    refine ⟨pinSpec, moved_pinnedBy hi hBy hNext (fun _ => hOwn) (source_moved hi hBy ?_ ?_) hProc
      ?_⟩
    · exact fun hReturns => hRuns hReturns.2
    · exact latestAfter_fits hRuns hProc
    · intro hNone
      rw [hState] at hNone
      cases hNone
  · rw [hClear] at hAfter
    cases hAfter

/-- A preload that holds its lease while the pin is clear waits for an unload. -/
theorem waiting_moved (h : PinInv config s) (hi : s.At i c task)
    (hNext : task.next config sys s.base.sup = after)
    (hShift : Shift s.base.sup task.spec task.phase after)
    (hBase : (s.moved i c task after).base.Inv config)
    (hAt : (s.moved i c task after).At j d other) (hHolds : Holding d other)
    (hClear : after.1.pinned = false) : ∃ k e waits, (s.moved i c task after).At k e waits ∧
      e.call = .unload ∧ waits.phase = .unloadGate := by
  subst hNext
  obtain ⟨before, hBefore, hHeld, -, -⟩ := holding_moved hi hAt hHolds
  have hNone : ∀ {t : Task}, s.base.tasks[i]? = some t → t.phase.permits = requestGatePermits → False :=
    fun hTask hAll => not_holding_of_all h hTask hAll j d before hBefore hHeld
  have hKept : s.base.sup.pinned = false → ∃ k e waits,
      (s.moved i c task (task.next config sys s.base.sup)).At k e waits ∧
        e.call = .unload ∧ waits.phase = .unloadGate := by
    intro hOld
    obtain ⟨k, e, waits, hWaits, hCall, hGate⟩ := h.waiting j d before hBefore hHeld hOld
    rcases eq_or_ne i k with rfl | hNe
    · -- The unload waits on, as the preload has one of the permits.
      obtain rfl := Option.some.inj (hWaits.1.symm.trans hi.1)
      obtain rfl := Option.some.inj (hWaits.2.symm.trans hi.2)
      refine ⟨i, e, _, at_moved_self hi, hCall, ?_⟩
      have hFew : ¬ requestGatePermits ≤ s.base.sup.permits := by
        intro hAll
        have hTotal := h.base.permits
        have hShare := share_le (fun task => task.phase.permits) hBefore.2
        have hOne := permits_of_holding h hBefore hHeld
        omega
      show (waits.next config sys s.base.sup).2 = .unloadGate
      unfold Task.next
      rw [hGate]
      dsimp only
      unfold Supervisor.enter
      rw [if_neg hFew]
    · exact ⟨k, e, waits, at_moved_ne hNe hWaits, hCall, hGate⟩
  rcases hShift with ⟨-, hPinned, -⟩ | ⟨old, -, -, -, -, hPinned, -⟩ | ⟨hAll, -⟩ | ⟨-, hPinned⟩ |
    ⟨proc, -, -, -, hPinned, -⟩ | ⟨hPhase, hGate, -⟩
  · exact hKept (hPinned ▸ hClear)
  · exact hKept (hPinned ▸ hClear)
  · exact (hNone hi.2 hAll).elim
  · exact hKept (hPinned ▸ hClear)
  · exact hKept (hPinned ▸ hClear)
  · refine ⟨i, c, _, at_moved_self hi, ?_, hGate⟩
    exact h.ofUnload i c task hi (by rw [hPhase]; rfl)

theorem moved_pinInv (h : PinInv config s) (hi : s.At i c task)
    (hNext : task.next config sys s.base.sup = after)
    (hBase : (s.moved i c task after).base.Inv config)
    (hCrash : s.base.sup.pinned = true → task.phase = .crashCheck → ∀ running,
      s.base.sup.state = some running → needsRestart running.spec task.spec = false)
    (hEmpty : s.base.sup.pinned = true → task.phase = .enterCheck → s.base.sup.state = none →
      ∃ spec, s.latest = some spec ∧ needsRestart task.spec spec = false) :
    PinInv config (s.moved i c task after) := by
  have hTurn : Turn s.base.sup task.spec task.phase after := by
    rw [← hNext]
    exact next_turn (h.base.ok i task hi.2) fun running hPhase => h.crash i c task running hi hPhase
  have hClears : s.base.sup.pinned = false → after.1.pinned = false := by
    intro hClear
    rcases hSet : after.1.pinned with - | -
    · rfl
    · rw [pinned_of_shift hTurn.shift hSet] at hClear
      cases hClear
  refine ⟨hBase, ?_, ?_, ?_, ?_, ?_, ?_, ?_, ?_⟩
  · show s.calls.length = (s.base.tasks.set i _).length
    rw [List.length_set, h.length]
  · intro j d other hAt hUnloads
    rcases at_moved hi hAt with ⟨rfl, rfl, rfl⟩ | ⟨hNe, hOld⟩
    · obtain ⟨hCall, -, hRuns⟩ := hUnloads
      by_cases hPin : task.phase = .unloadPin
      · rw [next_unloadPin hPin] at hNext
        rw [← hNext]
        rfl
      · refine hClears (h.unloading j d task hi ⟨hCall, hPin, fun hFinished => hRuns ?_⟩)
        rw [← hNext]
        exact next_finished hFinished
    · exact hClears (h.unloading j d other hOld hUnloads)
  · intro j d other hAt hOf
    rcases at_moved hi hAt with ⟨rfl, rfl, rfl⟩ | ⟨hNe, hOld⟩
    · exact h.ofUnload j d task hi (hTurn.unload hOf)
    · exact h.ofUnload j d other hOld hOf
  · intro j d other hAt hEvict
    rcases at_moved hi hAt with ⟨rfl, rfl, rfl⟩ | ⟨hNe, hOld⟩
    · exact hClears (hTurn.evict hEvict)
    · exact hClears (h.evict j d other hOld hEvict)
  · intro j d other running hAt hAtCrash
    rcases at_moved hi hAt with ⟨rfl, rfl, rfl⟩ | ⟨hNe, hOld⟩
    · exact hTurn.crash running hAtCrash
    · exact h.crash j d other running hOld hAtCrash
  · intro j d other hAt hPinned
    rcases at_moved hi hAt with ⟨rfl, rfl, rfl⟩ | ⟨hNe, hOld⟩
    · obtain ⟨hCall, hAfterPin⟩ := h.flagged j d task hi hPinned
      refine ⟨hCall, ?_⟩
      rw [← hNext]
      exact next_afterPin hAfterPin
    · exact h.flagged j d other hOld hPinned
  · intro j d other hAt hHolds hClear
    exact waiting_moved h hi hNext hTurn.shift hBase hAt hHolds hClear
  · intro hAfter
    have hSet := pinned_of_shift hTurn.shift hAfter
    exact belongs_moved h hi hNext hTurn.shift (hCrash hSet) (hEmpty hSet) hAfter

/-! ## Runs -/

theorem new_pinInv (config : SupervisorConfig) : PinInv config .new where
  base := new_inv config
  length := rfl
  unloading := fun _ _ _ hAt => by cases hAt.1
  ofUnload := fun _ _ _ hAt => by cases hAt.1
  evict := fun _ _ _ hAt => by cases hAt.1
  crash := fun _ _ _ _ hAt => by cases hAt.1
  flagged := fun _ _ _ hAt => by cases hAt.1
  waiting := fun _ _ _ hAt => by cases hAt.1
  belongs := fun hSet => by cases hSet

theorem mem_zip_of_at (hAt : s.At i c task) : (c, task) ∈ s.calls.zip s.base.tasks := by
  refine List.mem_of_getElem? (i := i) ?_
  rw [List.getElem?_zip_eq_some]
  exact hAt

/-- A step sets the pin, or is one of the task. -/
theorem stepCall_cases (hi : s.At i c task) : s.stepCall config sys i =
    if c.pinsNext task.phase then s.setPin i c
    else s.moved i c task (task.next config sys s.base.sup) := by
  have hBase : s.base.step config (.step i sys) =
      (s.moved i c task (task.next config sys s.base.sup)).base := by
    show s.base.stepTask config sys i = _
    unfold SupervisorSystem.stepTask
    rw [hi.2]
    rfl
  unfold PinSystem.stepCall
  rw [hi.1, hi.2]
  dsimp only
  split
  · rfl
  · rw [hBase]
    rfl

theorem stepCall_pinInv (h : PinInv config s) (hCareful : s.CarefulStep (.step i sys)) :
    PinInv config (s.stepCall config sys i) := by
  rcases hCall : s.calls[i]? with - | c
  · unfold PinSystem.stepCall
    rw [hCall]
    exact h
  rcases hTask : s.base.tasks[i]? with - | task
  · unfold PinSystem.stepCall
    rw [hCall, hTask]
    exact h
  have hi : s.At i c task := ⟨hCall, hTask⟩
  obtain ⟨hPin, hCrash, hEmpty⟩ := hCareful c hCall task hTask
  have hStep := @stepCall_cases config sys s i c task hi
  split at hStep
  · next hPins =>
    rw [hStep]
    refine setPin_pinInv h hi (step_inv h.base (.setPinned true)) hPins fun j d other hAt => ?_
    exact hPin hPins (d, other) (mem_zip_of_at hAt)
  · rw [hStep]
    refine moved_pinInv h hi rfl ?_ hCrash hEmpty
    have hBase := stepTask_inv h.base sys i
    unfold SupervisorSystem.stepTask at hBase
    rw [hTask] at hBase
    exact hBase

theorem step_pinInv (h : PinInv config s) {e : PinEvent} (hCareful : s.CarefulStep e) :
    PinInv config (s.step config e) := by
  rcases e with spec | spec | - | - | ⟨i, sys⟩ | pid | active
  · exact begin_pinInv h (step_inv h.base (.acquire spec)) rfl (fun hOf => by cases hOf)
      (fun hCall => by cases hCall) rfl
  · exact begin_pinInv h (step_inv h.base (.acquire spec)) rfl (fun hOf => by cases hOf)
      (fun hCall => by cases hCall) rfl
  · exact begin_pinInv h (step_inv h.base .unload) rfl (fun _ => ⟨rfl, rfl⟩) (fun _ => rfl) rfl
  · exact begin_pinInv h (step_inv h.base .maybeEvict) rfl (fun hOf => by cases hOf)
      (fun hCall => by cases hCall) rfl
  · exact stepCall_pinInv h hCareful
  · exact pinInv_congr h (step_inv h.base (.exit pid)) rfl rfl rfl
  · exact pinInv_congr h (step_inv h.base (.setBackfillActive active)) rfl rfl rfl

theorem run_pinInv (h : PinInv config s) {events : List PinEvent}
    (hCareful : s.Careful config events) : PinInv config (s.run config events) := by
  induction events generalizing s with
  | nil => exact h
  | cons e rest ih => exact ih (step_pinInv h hCareful.1) hCareful.2

theorem careful_append {events : List PinEvent} {e : PinEvent}
    (hCareful : s.Careful config (events ++ [e])) :
    s.Careful config events ∧ (s.run config events).CarefulStep e := by
  induction events generalizing s with
  | nil => exact ⟨trivial, hCareful.1⟩
  | cons first rest ih =>
    obtain ⟨hRest, hLast⟩ := ih hCareful.2
    exact ⟨⟨hCareful.1, hRest⟩, hLast⟩

theorem run_append (events : List PinEvent) (e : PinEvent) :
    s.run config (events ++ [e]) = (s.run config events).step config e := by
  unfold PinSystem.run
  rw [List.foldl_append]
  rfl

/-- When no preload is in progress, the pin is that of the resident model. -/
theorem pinOk_of_inv (h : PinInv config s) (hQuiet : s.Quiet) : s.PinOk := by
  intro hSet
  obtain ⟨spec, hBy⟩ := h.belongs hSet
  refine ⟨spec, ?_, ?_, fun hNone => (hBy.empty hNone).1⟩
  · rcases hBy.source with hLatest | ⟨i, c, task, hAt, hHolds, -⟩
    · exact hLatest
    · exact absurd (hQuiet i c task hAt (.inl (h.flagged i c task hAt hHolds.1).1)) hHolds.2
  · intro proc hState
    refine ⟨hBy.state proc hState, fun modelsRoot hRunning hRequested => ?_⟩
    exact spec_eq_of_not_needsRestart hRunning hRequested (hBy.state proc hState)

/-- A call that is over only after a step has made the step. -/
theorem moved_of_returns {e : PinEvent} {after : Task} (h : PinInv config s) (hi : s.At i c task)
    (hRuns : task.phase ≠ .finished) (hAt : (s.step config e).At i c after)
    (hFinished : after.phase = .finished) : ∃ sys, e = .step i sys ∧
      (s.step config e).base.sup = (task.next config sys s.base.sup).1 ∧
        (task.next config sys s.base.sup).2 = .finished := by
  have hOver : ∀ {t : Task}, s.At i c t → t.phase ≠ .finished := by
    intro t ht
    rw [Option.some.inj (ht.2.symm.trans hi.2)]
    exact hRuns
  have hBegun : ∀ {spec : ModelSpec} {call : Call} {phase : Phase}, phase ≠ .finished →
      ¬ ({ s with
        base := s.base.begin spec phase
        calls := s.calls ++ [⟨call, false⟩] } : PinSystem).At i c after := by
    intro spec call phase hPhase hNew
    rcases at_begin h.length hNew with hOld | ⟨-, rfl⟩
    · exact hOver hOld hFinished
    · exact hPhase hFinished
  rcases e with spec | spec | - | - | ⟨j, sys⟩ | pid | active
  · exact absurd hAt (hBegun (by decide))
  · exact absurd hAt (hBegun (by decide))
  · exact absurd hAt (hBegun (by decide))
  · exact absurd hAt (hBegun (by decide))
  · have hSame : (s.stepCall config sys j).At i c after := hAt
    show ∃ sys', PinEvent.step j sys = .step i sys' ∧ (s.stepCall config sys j).base.sup = _ ∧ _
    rcases hCall : s.calls[j]? with - | d
    · unfold PinSystem.stepCall at hSame
      rw [hCall] at hSame
      exact absurd hFinished (hOver hSame)
    rcases hTask : s.base.tasks[j]? with - | other
    · unfold PinSystem.stepCall at hSame
      rw [hCall, hTask] at hSame
      exact absurd hFinished (hOver hSame)
    have hStep := @stepCall_cases config sys s j d other ⟨hCall, hTask⟩
    rw [hStep] at hSame ⊢
    split at hSame
    · exact absurd hFinished (hOver ⟨hi.1, hSame.2⟩)
    · next hPins =>
      rw [if_neg hPins]
      rcases at_moved ⟨hCall, hTask⟩ hSame with ⟨rfl, rfl, rfl⟩ | ⟨hNe, hOld⟩
      · obtain rfl := Option.some.inj (hTask.symm.trans hi.2)
        exact ⟨sys, rfl, rfl, hFinished⟩
      · exact absurd hFinished (hOver hOld)
  · exact absurd hFinished (hOver hAt)
  · exact absurd hFinished (hOver hAt)

/-- An unload that returns leaves the pin clear. -/
theorem unload_clears (h : PinInv config s) {e : PinEvent}
    (hReturns : s.UnloadReturns config e) : (s.step config e).base.sup.pinned = false := by
  obtain ⟨i, c, task, after, hi, hCall, hRuns, hAt, hFinished⟩ := hReturns
  obtain ⟨sys, -, hSup, hEnds⟩ := moved_of_returns h hi hRuns hAt hFinished
  have hPin : task.phase ≠ .unloadPin := by
    intro hPin
    rw [next_unloadPin hPin] at hEnds
    cases hEnds
  have hClear := h.unloading i c task hi ⟨hCall, hPin, hRuns⟩
  have hTurn := @next_turn config sys s.base.sup task (h.base.ok i task hi.2)
    fun running hPhase => h.crash i c task running hi hPhase
  rw [hSup]
  rcases hSet : (task.next config sys s.base.sup).1.pinned with - | -
  · rfl
  · rw [pinned_of_shift hTurn.shift hSet] at hClear
    cases hClear

theorem pin_belongs (config : SupervisorConfig) (events : List PinEvent)
    (hCareful : PinSystem.new.Careful config events) :
    ((PinSystem.new.run config events).Quiet → (PinSystem.new.run config events).PinOk) ∧
      ∀ before e, events = before ++ [e] →
        (PinSystem.new.run config before).UnloadReturns config e →
          (PinSystem.new.run config events).base.sup.pinned = false := by
  refine ⟨fun hQuiet => pinOk_of_inv (run_pinInv (new_pinInv config) hCareful) hQuiet, ?_⟩
  rintro before e rfl hReturns
  obtain ⟨hBefore, -⟩ := careful_append hCareful
  rw [run_append]
  exact unload_clears (run_pinInv (new_pinInv config) hBefore) hReturns

def quietConfig : SupervisorConfig := ⟨⟨true, true, true, .enumOnOffAuto⟩, 100, 0⟩

def healthySystem : SystemAnswer := ⟨none, true, true, 8080, 500, false⟩

/-- A preload that nothing disturbs, the evictor's tick and an unload. -/
def calmRun : List PinEvent :=
  .preload default :: List.replicate 13 (.step 0 healthySystem) ++
    .maybeEvict :: .step 1 healthySystem :: .unload :: List.replicate 6 (.step 2 healthySystem)

theorem pin_belongs_calm :
    (PinSystem.new.run quietConfig (calmRun.take 14)).base.sup.pinned = true ∧
    ((PinSystem.new.run quietConfig calmRun).Quiet →
      (PinSystem.new.run quietConfig calmRun).PinOk) ∧
    ∀ before e, calmRun = before ++ [e] →
      (PinSystem.new.run quietConfig before).UnloadReturns quietConfig e →
        (PinSystem.new.run quietConfig calmRun).base.sup.pinned = false :=
  ⟨by decide +kernel, pin_belongs quietConfig calmRun (by decide +kernel)⟩

/-- The unload clears the pin and waits for the preload's lease; the preload pins what it has
and returns; the unload stops it. -/
def latePinRun : List PinEvent :=
  .preload default :: List.replicate 10 (.step 0 healthySystem) ++
    .unload :: .step 1 healthySystem :: List.replicate 3 (.step 0 healthySystem) ++
      List.replicate 6 (.step 1 healthySystem)

theorem late_pin : ¬ ∀ (config : SupervisorConfig) (events : List PinEvent),
    (PinSystem.new.run config events).Quiet → (PinSystem.new.run config events).PinOk := by
  intro hAlways
  have hOver : ∀ p ∈ (PinSystem.new.run quietConfig latePinRun).calls.zip
      (PinSystem.new.run quietConfig latePinRun).base.tasks, p.2.phase = .finished := by
    decide +kernel
  have hQuiet : (PinSystem.new.run quietConfig latePinRun).Quiet :=
    fun i c task hAt _ => hOver (c, task) (mem_zip_of_at hAt)
  obtain ⟨spec, -, -, hRespawned⟩ := hAlways quietConfig latePinRun hQuiet (by decide +kernel)
  exact absurd (hRespawned (by decide +kernel)) (by decide +kernel)

end ScreenSearch.Inference
