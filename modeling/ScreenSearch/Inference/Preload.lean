import ScreenSearch.Inference.Supervisor

/-!
# Preload, unload and the pin

The calls on the supervisor by name: a preload is an acquire that pins what it was given a
lease to, an unload clears the pin before it drains the gate. The specification that the pin
stands for is kept beside the calls; no call reads it.
-/

namespace ScreenSearch.Inference

inductive Call where
  | acquire | preload | unload | maybeEvict
  deriving DecidableEq, Repr

/-- A call, and whether it has set the pin. -/
structure ActiveCall where
  call : Call
  pinned : Bool
  deriving DecidableEq, Repr

/-- The calls of the tasks, in their order. -/
structure PinSystem where
  base : SupervisorSystem
  calls : List ActiveCall
  /-- The specification of the latest preload that returned `Ok`, when no unload has returned
  and no process of another specification was put into the state since. -/
  latest : Option ModelSpec
  /-- The process was last taken out of the state to put another one there. -/
  respawned : Bool
  deriving DecidableEq, Repr

def PinSystem.new : PinSystem where
  base := .new
  calls := []
  latest := none
  respawned := false

inductive PinEvent where
  | acquire (spec : ModelSpec)
  | preload (spec : ModelSpec)
  | unload
  | maybeEvict
  | step (call : Nat) (sys : SystemAnswer)
  /-- A process exits by itself. -/
  | exit (pid : Nat)
  | setBackfillActive (active : Bool)
  deriving DecidableEq, Repr

def Phase.isLeased : Phase → Bool
  | .leased _ => true
  | _ => false

/-- A preload that has its lease sets the pin before it drops the lease. -/
def ActiveCall.pinsNext (c : ActiveCall) (phase : Phase) : Bool :=
  decide (c.call = .preload) && !c.pinned && phase.isLeased

/-- On its way to put a process of its own specification into the state. -/
def Phase.respawns : Phase → Bool
  | .stopping .respawn _ | .spawning _ _ | .starting _ _ _ => true
  | _ => false

/-- What the pin stands for after a step of a call. -/
def latestAfter (latest : Option ModelSpec) (c : ActiveCall) (task : Task) (sup : Supervisor)
    (after : Supervisor × Phase) : Option ModelSpec :=
  if after.2 = .finished ∧ task.phase ≠ .finished then
    match c.call with
    | .unload => none
    | .preload => if c.pinned then some task.spec else latest
    | _ => latest
  else if after.1.state = sup.state then latest
  else latest.filter fun spec => after.1.state.all fun proc => !needsRestart proc.spec spec

/-- What becomes of the process after a step of a call. -/
def respawnedAfter (respawned : Bool) (sup : Supervisor) (after : Supervisor × Phase) : Bool :=
  if sup.state.isSome && after.1.state.isNone then after.2.respawns else respawned

def PinSystem.stepCall (config : SupervisorConfig) (sys : SystemAnswer) (s : PinSystem)
    (i : Nat) : PinSystem :=
  match s.calls[i]?, s.base.tasks[i]? with
  | some c, some task =>
    if c.pinsNext task.phase then
      { s with
        base := s.base.step config (.setPinned true)
        calls := s.calls.set i { c with pinned := true } }
    else
      let after := task.next config sys s.base.sup
      { s with
        base := s.base.step config (.step i sys)
        latest := latestAfter s.latest c task s.base.sup after
        respawned := respawnedAfter s.respawned s.base.sup after }
  | _, _ => s

def PinSystem.begin (config : SupervisorConfig) (s : PinSystem) (call : Call)
    (event : SupervisorEvent) : PinSystem :=
  { s with base := s.base.step config event, calls := s.calls ++ [⟨call, false⟩] }

def PinSystem.step (config : SupervisorConfig) (s : PinSystem) : PinEvent → PinSystem
  | .acquire spec => s.begin config .acquire (.acquire spec)
  | .preload spec => s.begin config .preload (.acquire spec)
  | .unload => s.begin config .unload .unload
  | .maybeEvict => s.begin config .maybeEvict .maybeEvict
  | .step i sys => s.stepCall config sys i
  | .exit pid => { s with base := s.base.step config (.exit pid) }
  | .setBackfillActive active => { s with base := s.base.step config (.setBackfillActive active) }

def PinSystem.run (config : SupervisorConfig) (s : PinSystem) (events : List PinEvent) :
    PinSystem :=
  events.foldl (PinSystem.step config) s

/-! ## The property -/

/-- The call at a position and its task. -/
def PinSystem.At (s : PinSystem) (i : Nat) (c : ActiveCall) (task : Task) : Prop :=
  s.calls[i]? = some c ∧ s.base.tasks[i]? = some task

/-- No preload and no unload is in progress. -/
def PinSystem.Quiet (s : PinSystem) : Prop :=
  ∀ i c task, s.At i c task → c.call = .preload ∨ c.call = .unload → task.phase = .finished

/-- An unload that has cleared the pin and not returned. -/
def Unloading (c : ActiveCall) (task : Task) : Prop :=
  c.call = .unload ∧ task.phase ≠ .unloadPin ∧ task.phase ≠ .finished

/-- The pin is that of the resident model. -/
def PinSystem.PinOk (s : PinSystem) : Prop :=
  s.base.sup.pinned = true → ∃ spec, s.latest = some spec ∧
    (∀ proc, s.base.sup.state = some proc → needsRestart proc.spec spec = false ∧
      ∀ modelsRoot, proc.spec.Resolved modelsRoot → spec.Resolved modelsRoot → proc.spec = spec) ∧
    (s.base.sup.state = none → s.respawned = true)

/-- The unload returns with the step. -/
def PinSystem.UnloadReturns (config : SupervisorConfig) (s : PinSystem) (e : PinEvent) : Prop :=
  ∃ i c task after, s.At i c task ∧ c.call = .unload ∧ task.phase ≠ .finished ∧
    (s.step config e).At i c after ∧ after.phase = .finished

/-- No preload sets the pin while an unload that has cleared it is in progress, and while the
pin is set neither the recovery from a crash replaces a process of another specification nor
a request that finds no process spawns one of another specification than that of the pin. -/
def PinSystem.CarefulStep (s : PinSystem) : PinEvent → Prop
  | .step i _ => ∀ c ∈ s.calls[i]?, ∀ task ∈ s.base.tasks[i]?,
      (c.pinsNext task.phase = true →
        ∀ other ∈ s.calls.zip s.base.tasks, ¬ Unloading other.1 other.2) ∧
      (s.base.sup.pinned = true → task.phase = .crashCheck → ∀ running ∈ s.base.sup.state,
        needsRestart running.spec task.spec = false) ∧
      (s.base.sup.pinned = true → task.phase = .enterCheck → s.base.sup.state = none →
        ∃ spec ∈ s.latest, needsRestart task.spec spec = false)
  | _ => True

def PinSystem.Careful (config : SupervisorConfig) : PinSystem → List PinEvent → Prop
  | _, [] => True
  | s, e :: rest => s.CarefulStep e ∧ (s.step config e).Careful config rest

instance (c : ActiveCall) (task : Task) : Decidable (Unloading c task) :=
  inferInstanceAs (Decidable (_ ∧ _ ∧ _))

instance (s : PinSystem) : (e : PinEvent) → Decidable (s.CarefulStep e)
  | .step i _ => inferInstanceAs (Decidable (∀ c ∈ s.calls[i]?, ∀ task ∈ s.base.tasks[i]?,
      (c.pinsNext task.phase = true →
        ∀ other ∈ s.calls.zip s.base.tasks, ¬ Unloading other.1 other.2) ∧
      (s.base.sup.pinned = true → task.phase = .crashCheck → ∀ running ∈ s.base.sup.state,
        needsRestart running.spec task.spec = false) ∧
      (s.base.sup.pinned = true → task.phase = .enterCheck → s.base.sup.state = none →
        ∃ spec ∈ s.latest, needsRestart task.spec spec = false)))
  | .acquire _ | .preload _ | .unload | .maybeEvict | .exit _ | .setBackfillActive _ =>
    isTrue trivial

instance PinSystem.decidableCareful (config : SupervisorConfig) :
    (s : PinSystem) → (events : List PinEvent) → Decidable (s.Careful config events)
  | _, [] => isTrue trivial
  | s, e :: rest =>
    have := PinSystem.decidableCareful config (s.step config e) rest
    inferInstanceAs (Decidable (s.CarefulStep e ∧ (s.step config e).Careful config rest))

end ScreenSearch.Inference
