import ScreenSearch.Inference.Models
import ScreenSearch.Lib.Shares

/-!
# The sidecar's supervisor

One process at a time serves the requests. A request is a task that takes permits of the
gate and then the lock on the state; the evictor takes the lock alone. Tasks take their
steps in any order, one atomic operation or one uninterrupted run of the code at a time, and
a task that has to wait does not take its step.
-/

namespace ScreenSearch.Inference

/-- `pid` is never used twice. -/
structure SidecarProcess where
  pid : Nat
  port : Nat
  spec : ModelSpec
  args : List String
  deriving DecidableEq, Repr

structure SupervisorConfig where
  caps : SidecarCaps
  idleTtl : Nat
  recycleCeilingBytes : Nat
  deriving DecidableEq, Repr

def requestGatePermits : Nat := 1024

def spawnAttempts : Nat := 3

/-- What the tasks share. `processes` are those that were spawned and neither killed nor
exited; no task reads `killed`. -/
structure Supervisor where
  permits : Nat
  locked : Bool
  state : Option SidecarProcess
  inFlight : Nat
  backfillActive : Bool
  pinned : Bool
  processes : List SidecarProcess
  spawned : Nat
  killed : List Nat
  deriving DecidableEq, Repr

def Supervisor.new : Supervisor where
  permits := requestGatePermits
  locked := false
  state := none
  inFlight := 0
  backfillActive := false
  pinned := false
  processes := []
  spawned := 0
  killed := []

/-- Why a process is stopped, and so what comes after. -/
inductive StopReason where
  | respawn | unload | evict
  deriving DecidableEq, Repr

/-- How far a task has come. -/
inductive Phase where
  -- the head of the loop of `acquire`
  | overCeiling
  | recycleGate
  | recycleLock
  | recycleCheck
  | needsSwitch
  | switchGate
  | switchLock
  | switchCheck
  | enterGate
  | enterLock
  | enterCheck
  /-- Waits for the health of the process, with the lock. -/
  | healthCheck (running : SidecarProcess)
  | crashGate
  | crashLock
  | crashCheck
  | crashHealth (running : SidecarProcess)
  /-- Has taken the process out of the state, to kill it. -/
  | stopping (reason : StopReason) (old : SidecarProcess)
  | spawning (permits attempt : Nat)
  | starting (permits attempt : Nat) (proc : SidecarProcess)
  /-- Has put the process into the state, and is to keep one permit. -/
  | installed (permits : Nat) (proc : SidecarProcess)
  | granted (proc : SidecarProcess)
  /-- Holds a lease, and still the lock. -/
  | counted (proc : SidecarProcess)
  | leased (proc : SidecarProcess)
  /-- Is no longer counted, and is to give its permit back. -/
  | dropped
  | unloadPin
  | unloadGate
  | unloadLock
  | unloadCheck
  | evictProbe
  | evictLock
  | evictCheck
  | evictTake
  /-- Is to release the lock and its permits. -/
  | leaving (permits : Nat)
  | finished
  deriving DecidableEq, Repr

/-- `spec` is what `acquire` was called with; the other tasks do not read theirs. -/
structure Task where
  spec : ModelSpec
  phase : Phase
  deriving DecidableEq, Repr

def StopReason.permits : StopReason → Nat
  | .respawn | .unload => requestGatePermits
  | .evict => 0

def Phase.permits : Phase → Nat
  | .recycleLock | .recycleCheck | .switchLock | .switchCheck | .crashLock | .crashCheck |
    .crashHealth _ | .unloadLock | .unloadCheck => requestGatePermits
  | .enterLock | .enterCheck | .healthCheck _ | .granted _ | .counted _ | .leased _ |
    .dropped => 1
  | .stopping reason _ => reason.permits
  | .spawning permits _ | .starting permits _ _ | .installed permits _ | .leaving permits => permits
  | _ => 0

def Phase.locks : Phase → Nat
  | .recycleCheck | .switchCheck | .enterCheck | .healthCheck _ | .crashCheck | .crashHealth _ |
    .stopping _ _ | .spawning _ _ | .starting _ _ _ | .installed _ _ | .granted _ | .counted _ |
    .unloadCheck | .evictCheck | .evictTake | .leaving _ => 1
  | _ => 0

/-- The process of a lease, from the count up to its drop. -/
def Phase.lease : Phase → Option SidecarProcess
  | .counted proc | .leased proc => some proc
  | _ => none

/-- The process that a task holds apart from the state. -/
def Phase.owned : Phase → Option SidecarProcess
  | .stopping _ old => some old
  | .starting _ _ proc => some proc
  | _ => none

/-! ## Predicates -/

def shouldRecycle (rssBytes ceilingBytes : Nat) : Bool :=
  decide (ceilingBytes ≠ 0) && decide (ceilingBytes ≤ rssBytes)

def shouldEvict (inFlight elapsed ttl : Nat) (backfillActive : Bool) : Bool :=
  decide (inFlight = 0) && !backfillActive && decide (ttl ≤ elapsed)

/-- What the system answers at a step. -/
structure SystemAnswer where
  /-- Committed bytes of the process, if they can be read. -/
  rss : Option Nat
  /-- Whether the health endpoint answers. -/
  health : Bool
  /-- Whether a process could be created. -/
  created : Bool
  port : Nat
  /-- Milliseconds since the last activity. -/
  elapsed : Nat
  /-- Whether the time for a start to become healthy, or the binding to the job or the
  resumption, has failed. -/
  startFails : Bool
  deriving DecidableEq, Repr

def overCeiling (config : SupervisorConfig) (sys : SystemAnswer) (spec : ModelSpec)
    (state : Option SidecarProcess) : Bool :=
  (state.map fun p => !needsRestart p.spec spec &&
    (sys.rss.map (shouldRecycle · config.recycleCeilingBytes)).getD false).getD false

def needsSwitch (spec : ModelSpec) (state : Option SidecarProcess) : Bool :=
  (state.map fun p => needsRestart p.spec spec).getD false

/-- Alive and healthy. -/
def Supervisor.healthy (sup : Supervisor) (sys : SystemAnswer) (running : SidecarProcess) : Bool :=
  decide (running ∈ sup.processes) && sys.health

/-! ## Steps of a task -/

/-- Takes permits, if there are as many. -/
def Supervisor.enter (sup : Supervisor) (n : Nat) (waiting next : Phase) : Supervisor × Phase :=
  if n ≤ sup.permits then ({ sup with permits := sup.permits - n }, next) else (sup, waiting)

def Supervisor.lock (sup : Supervisor) (waiting next : Phase) : Supervisor × Phase :=
  if sup.locked then (sup, waiting) else ({ sup with locked := true }, next)

/-- Releases the lock and then the permits. -/
def Supervisor.leave (sup : Supervisor) (permits : Nat) (next : Phase) : Supervisor × Phase :=
  ({ sup with locked := false, permits := sup.permits + permits }, next)

def Supervisor.take (sup : Supervisor) (reason : StopReason) (old : SidecarProcess) :
    Supervisor × Phase :=
  ({ sup with state := none }, .stopping reason old)

def Supervisor.kill (sup : Supervisor) (proc : SidecarProcess) : Supervisor :=
  { sup with processes := sup.processes.erase proc, killed := proc.pid :: sup.killed }

def StopReason.next : StopReason → Phase
  | .respawn => .spawning requestGatePermits 1
  | .unload => .leaving requestGatePermits
  | .evict => .leaving 0

/-- After a failed attempt, another one, or the error of the last. -/
def nextAttempt (permits attempt : Nat) : Phase :=
  if attempt < spawnAttempts then .spawning permits (attempt + 1) else .leaving permits

def Supervisor.spawn (sup : Supervisor) (config : SupervisorConfig) (sys : SystemAnswer)
    (spec : ModelSpec) (permits attempt : Nat) : Supervisor × Phase :=
  if sys.created then
    let proc : SidecarProcess :=
      { pid := sup.spawned, port := sys.port, spec := spec, args := buildArgs spec sys.port config.caps }
    ({ sup with spawned := sup.spawned + 1, processes := proc :: sup.processes },
      .starting permits attempt proc)
  else (sup, nextAttempt permits attempt)

/-- A poll of a process that starts. -/
def Supervisor.poll (sup : Supervisor) (sys : SystemAnswer) (permits attempt : Nat)
    (proc : SidecarProcess) : Supervisor × Phase :=
  if proc ∉ sup.processes then (sup, nextAttempt permits attempt)
  else if sys.health then ({ sup with state := some proc }, .installed permits proc)
  else if sys.startFails then (sup.kill proc, nextAttempt permits attempt)
  else (sup, .starting permits attempt proc)

def Task.next (config : SupervisorConfig) (sys : SystemAnswer) (sup : Supervisor) (task : Task) :
    Supervisor × Phase :=
  match task.phase with
  | .overCeiling =>
    if config.recycleCeilingBytes = 0 then (sup, .needsSwitch)
    else if sup.locked then (sup, .overCeiling)
    else if overCeiling config sys task.spec sup.state then (sup, .recycleGate)
    else (sup, .needsSwitch)
  | .recycleGate => sup.enter requestGatePermits .recycleGate .recycleLock
  | .recycleLock => sup.lock .recycleLock .recycleCheck
  | .recycleCheck =>
    match sup.state with
    | some old =>
      if overCeiling config sys task.spec (some old) then sup.take .respawn old
      else sup.leave requestGatePermits .overCeiling
    | none => sup.leave requestGatePermits .overCeiling
  | .needsSwitch =>
    if sup.locked then (sup, .needsSwitch)
    else if needsSwitch task.spec sup.state then (sup, .switchGate)
    else (sup, .enterGate)
  | .switchGate => sup.enter requestGatePermits .switchGate .switchLock
  | .switchLock => sup.lock .switchLock .switchCheck
  | .switchCheck =>
    match sup.state with
    | some old =>
      if needsRestart old.spec task.spec then { sup with pinned := false }.take .respawn old
      else sup.leave requestGatePermits .overCeiling
    | none => sup.leave requestGatePermits .overCeiling
  | .enterGate => sup.enter 1 .enterGate .enterLock
  | .enterLock => sup.lock .enterLock .enterCheck
  | .enterCheck =>
    match sup.state with
    | some running =>
      if needsRestart running.spec task.spec then sup.leave 1 .overCeiling
      else (sup, .healthCheck running)
    | none => (sup, .spawning 1 1)
  | .healthCheck running =>
    if sup.healthy sys running then (sup, .granted running) else sup.leave 1 .crashGate
  | .crashGate => sup.enter requestGatePermits .crashGate .crashLock
  | .crashLock => sup.lock .crashLock .crashCheck
  | .crashCheck =>
    match sup.state with
    | some running =>
      if needsRestart running.spec task.spec then sup.take .respawn running
      else (sup, .crashHealth running)
    | none => sup.leave requestGatePermits .overCeiling
  | .crashHealth running =>
    if sup.healthy sys running then sup.leave requestGatePermits .overCeiling
    else sup.take .respawn running
  | .stopping reason old => (sup.kill old, reason.next)
  | .spawning permits attempt => sup.spawn config sys task.spec permits attempt
  | .starting permits attempt proc => sup.poll sys permits attempt proc
  -- `into_single`
  | .installed permits proc => ({ sup with permits := sup.permits + (permits - 1) }, .granted proc)
  -- `lease_from_state`
  | .granted proc => ({ sup with inFlight := sup.inFlight + 1 }, .counted proc)
  | .counted proc => ({ sup with locked := false }, .leased proc)
  -- the drop of the lease, and then of its permit
  | .leased _ => ({ sup with inFlight := sup.inFlight - 1 }, .dropped)
  | .dropped => ({ sup with permits := sup.permits + 1 }, .finished)
  | .unloadPin => ({ sup with pinned := false }, .unloadGate)
  | .unloadGate => sup.enter requestGatePermits .unloadGate .unloadLock
  | .unloadLock => sup.lock .unloadLock .unloadCheck
  | .unloadCheck =>
    match sup.state with
    | some p => sup.take .unload p
    | none => (sup, .leaving requestGatePermits)
  | .evictProbe =>
    if shouldEvict sup.inFlight sys.elapsed config.idleTtl (sup.backfillActive || sup.pinned) then
      (sup, .evictLock)
    else (sup, .finished)
  | .evictLock => sup.lock .evictLock .evictCheck
  | .evictCheck =>
    if decide (0 < sup.inFlight) || sup.backfillActive || sup.pinned then (sup, .leaving 0)
    else (sup, .evictTake)
  | .evictTake =>
    match sup.state with
    | some p => sup.take .evict p
    | none => (sup, .leaving 0)
  | .leaving permits => sup.leave permits .finished
  | .finished => (sup, .finished)

/-! ## Runs -/

structure SupervisorSystem where
  sup : Supervisor
  tasks : List Task
  deriving DecidableEq, Repr

def SupervisorSystem.new : SupervisorSystem where
  sup := .new
  tasks := []

inductive SupervisorEvent where
  /-- `acquire`, of which `preload` is a call. -/
  | acquire (spec : ModelSpec)
  | unload
  | maybeEvict
  | step (task : Nat) (sys : SystemAnswer)
  /-- A process exits by itself. -/
  | exit (pid : Nat)
  /-- Also what `preload` does with its lease. -/
  | setPinned (pinned : Bool)
  | setBackfillActive (active : Bool)
  deriving DecidableEq, Repr

def SupervisorSystem.begin (s : SupervisorSystem) (spec : ModelSpec) (phase : Phase) :
    SupervisorSystem :=
  { s with tasks := s.tasks ++ [{ spec := spec, phase := phase }] }

def SupervisorSystem.stepTask (config : SupervisorConfig) (sys : SystemAnswer)
    (s : SupervisorSystem) (i : Nat) : SupervisorSystem :=
  match s.tasks[i]? with
  | some task =>
    let (sup, phase) := task.next config sys s.sup
    { sup := sup, tasks := s.tasks.set i { task with phase := phase } }
  | none => s

def SupervisorSystem.step (config : SupervisorConfig) (s : SupervisorSystem) :
    SupervisorEvent → SupervisorSystem
  | .acquire spec => s.begin spec .overCeiling
  | .unload => s.begin default .unloadPin
  | .maybeEvict => s.begin default .evictProbe
  | .step i sys => s.stepTask config sys i
  | .exit pid =>
    { s with sup := { s.sup with processes := s.sup.processes.filter fun p => p.pid ≠ pid } }
  | .setPinned pinned => { s with sup := { s.sup with pinned := pinned } }
  | .setBackfillActive active => { s with sup := { s.sup with backfillActive := active } }

def SupervisorSystem.run (config : SupervisorConfig) (s : SupervisorSystem)
    (events : List SupervisorEvent) : SupervisorSystem :=
  events.foldl (SupervisorSystem.step config) s

/-- A lease, with the specification that it was asked for with. -/
structure Lease where
  requested : ModelSpec
  process : SidecarProcess
  deriving DecidableEq, Repr

def Task.lease (task : Task) : Option Lease :=
  task.phase.lease.map fun proc => ⟨task.spec, proc⟩

/-- The leases that are live. -/
def SupervisorSystem.leases (s : SupervisorSystem) : List Lease := s.tasks.filterMap Task.lease

/-- What the supervisor promises at every moment. -/
structure SupervisorSystem.Safe (config : SupervisorConfig) (s : SupervisorSystem) : Prop where
  not_killed : ∀ lease ∈ s.leases, lease.process.pid ∉ s.sup.killed
  one_process : s.sup.processes.length ≤ 1
  bound : ∀ lease ∈ s.leases, needsRestart lease.process.spec lease.requested = false ∧
    lease.process.args = buildArgs lease.requested lease.process.port config.caps
  /-- All specifications that are asked for are resolved, under the one models root. -/
  same_spec : ∀ lease ∈ s.leases, ∀ modelsRoot, lease.process.spec.Resolved modelsRoot →
    lease.requested.Resolved modelsRoot → lease.process.spec = lease.requested
  in_flight : s.sup.inFlight = s.leases.length

end ScreenSearch.Inference
