import Mathlib.Data.Finset.Card
import ScreenSearch.Kernel.EmbedWorkers

/-!
# The worker pool

The loops of one enrichment pool: workers that claim a job, join the set of active jobs, run
a provider for as long as it takes, record the outcome and leave the set, and the sweep that
requeues jobs which run for too long, unless a worker is active. One step is one statement of
the store or one uninterrupted run of the code; the loops and the rest of the program take
their steps in any order.
-/

namespace ScreenSearch.Kernel

open Store

def visibilityTimeoutMs : Int := 5 * 60 * 1000

/-- A job as a claim returned it, and the number of the claim. -/
structure Claim where
  serial : Nat
  job : Job
  deriving DecidableEq, Repr

inductive PoolWorker where
  /-- At the head of its loop. -/
  | idle
  /-- Has seen no stop signal and is about to claim. -/
  | polling
  /-- The claim has committed. -/
  | claimed (c : Claim)
  /-- Is in the set of active jobs. -/
  | processing (c : Claim)
  | finishing (c : Claim) (outcome : Outcome)
  /-- Has recorded the outcome and is about to leave the set. -/
  | releasing (c : Claim)
  | exited
  deriving DecidableEq, Repr

inductive Sweep where
  | waiting
  /-- Has found no active job, and is about to requeue. The jobs that were registered since
  are kept here; the code does not keep them. -/
  | updating (joined : List Int)
  | exited
  deriving DecidableEq, Repr

/-- A call of `complete_job` or `fail_job`. -/
structure FinalCall where
  serial : Nat
  worker : Nat
  id : Int
  /-- The store itself failed. -/
  broken : Bool
  ok : Bool
  deriving DecidableEq, Repr

structure PoolTasks where
  workers : List PoolWorker
  /-- `active_jobs`. -/
  active : Finset Int
  sweep : Sweep
  stopping : Bool
  /-- The worker of each claim, oldest first. -/
  claims : List Nat
  calls : List FinalCall
  deriving DecidableEq

structure PoolState where
  tables : JobTables
  clock : Int
  /-- The claims whose job was deleted with its frame. -/
  deleted : List Nat
  tasks : PoolTasks
  deriving DecidableEq

/-- The part of a job that a worker may still have to do. -/
def PoolWorker.unsettled : PoolWorker → Option Claim
  | .claimed c | .processing c | .finishing c _ => some c
  | _ => none

/-- The job of a worker that is in the set of active jobs. -/
def PoolWorker.registered : PoolWorker → Option Claim
  | .processing c | .finishing c _ | .releasing c => some c
  | _ => none

/-- The job of a worker, until it has left the set. -/
def PoolWorker.held : PoolWorker → Option Claim
  | .claimed c | .processing c | .finishing c _ | .releasing c => some c
  | _ => none

/-- The job of a worker that has still to join the set. -/
def PoolWorker.unregistered : PoolWorker → Option Claim
  | .claimed c => some c
  | _ => none

/-- The job of a worker that has only to leave the set. -/
def PoolWorker.leaving : PoolWorker → Option Claim
  | .releasing c => some c
  | _ => none

def Sweep.joined : Sweep → List Int
  | .updating joined => joined
  | _ => []

/-- `WorkerPool::spawn`. -/
def PoolTasks.spawn (concurrency : Nat) : PoolTasks where
  workers := List.replicate (max concurrency 1) .idle
  active := ∅
  sweep := .waiting
  stopping := false
  claims := []
  calls := []

inductive PoolEvent where
  /-- A worker reads the stop signal. -/
  | look (w : Nat)
  | claim (w : Nat) (kinds : List JobKind) (now : Int) (broken : Bool)
  | register (w : Nat)
  | process (w : Nat) (outcome : Outcome)
  | finalize (w : Nat) (now : Int) (broken : Bool)
  | release (w : Nat)
  | sweepTest
  | sweepUpdate (broken : Bool)
  | sweepExit
  | stop
  -- the rest of the program, and time
  | tick (elapsed : Nat)
  | enqueue (job : NewJob)
  | insertFrame (id : Int)
  | deleteFrame (id : Int)
  | cancelPendingVision
  deriving DecidableEq, Repr

def PoolState.setWorker (p : PoolState) (w : Nat) (s : PoolWorker) : PoolState :=
  { p with tasks := { p.tasks with workers := p.tasks.workers.set w s } }

/-- `claim_jobs(kinds, 1, now)` and `jobs.pop()`. -/
def PoolState.claim (p : PoolState) (w : Nat) (kinds : List JobKind) (now : Int) : PoolState :=
  match (claimJobs kinds 1 now p.clock p.tables).1.getLast? with
  | some job =>
    { p with
      tables := (claimJobs kinds 1 now p.clock p.tables).2
      tasks := { p.tasks with
        workers := p.tasks.workers.set w (.claimed ⟨p.tasks.claims.length, job⟩)
        claims := p.tasks.claims ++ [w] } }
  | none => p.setWorker w .idle

def Sweep.join (id : Int) : Sweep → Sweep
  | .updating joined => .updating (id :: joined)
  | sweep => sweep

/-- `ActiveJobGuard::new`. -/
def PoolState.register (p : PoolState) (w : Nat) (c : Claim) : PoolState :=
  { p with tasks := { p.tasks with
      workers := p.tasks.workers.set w (.processing c)
      active := insert c.job.id p.tasks.active
      sweep := p.tasks.sweep.join c.job.id } }

def PoolState.finalize (p : PoolState) (w : Nat) (c : Claim) (outcome : Outcome) (now : Int)
    (broken : Bool) : PoolState :=
  let result := if broken then .error "store" else settleJob c.job outcome now p.clock p.tables
  { p with
    tables := match result with
      | .ok tables => tables
      | .error _ => p.tables
    tasks := { p.tasks with
      workers := p.tasks.workers.set w (.releasing c)
      calls := ⟨c.serial, w, c.job.id, broken, result.isOk⟩ :: p.tasks.calls } }

/-- The drop of the guard. -/
def PoolState.release (p : PoolState) (w : Nat) (c : Claim) : PoolState :=
  { p with tasks := { p.tasks with
      workers := p.tasks.workers.set w .idle
      active := p.tasks.active.erase c.job.id } }

def PoolState.setSweep (p : PoolState) (sweep : Sweep) : PoolState :=
  { p with tasks := { p.tasks with sweep := sweep } }

/-- The foreign key of `jobs` cascades. -/
def deleteFrameJobs (id : Int) (t : JobTables) : JobTables where
  frames := t.frames.filter fun frame => frame ≠ id
  jobs := t.jobs.filter fun job => job.frameId ≠ some id

/-- A loop that is elsewhere does not take the step. -/
def PoolState.step (p : PoolState) : PoolEvent → PoolState
  | .look w =>
    match p.tasks.workers[w]? with
    | some .idle => p.setWorker w (if p.tasks.stopping then .exited else .polling)
    | _ => p
  | .claim w kinds now broken =>
    match p.tasks.workers[w]? with
    | some .polling => if broken then p.setWorker w .idle else p.claim w kinds now
    | _ => p
  | .register w =>
    match p.tasks.workers[w]? with
    | some (.claimed c) => p.register w c
    | _ => p
  | .process w outcome =>
    match p.tasks.workers[w]? with
    | some (.processing c) => p.setWorker w (.finishing c outcome)
    | _ => p
  | .finalize w now broken =>
    match p.tasks.workers[w]? with
    | some (.finishing c outcome) => p.finalize w c outcome now broken
    | _ => p
  | .release w =>
    match p.tasks.workers[w]? with
    | some (.releasing c) => p.release w c
    | _ => p
  | .sweepTest =>
    match p.tasks.sweep with
    | .waiting => if p.tasks.active.card > 0 then p else p.setSweep (.updating [])
    | _ => p
  | .sweepUpdate broken =>
    match p.tasks.sweep with
    | .updating _ =>
      if broken then p.setSweep .waiting
      else { p with
        tables := (resetStaleRunningJobs visibilityTimeoutMs p.clock p.tables).2 }.setSweep .waiting
    | _ => p
  | .sweepExit =>
    match p.tasks.sweep with
    | .waiting => if p.tasks.stopping then p.setSweep .exited else p
    | _ => p
  | .stop => { p with tasks := { p.tasks with stopping := true } }
  | .tick elapsed => { p with clock := p.clock + elapsed }
  | .enqueue job =>
    match enqueueJob job p.clock p.tables with
    | .ok (_, t) => { p with tables := t }
    | .error _ => p
  | .insertFrame id => { p with tables := { p.tables with frames := id :: p.tables.frames } }
  | .deleteFrame id =>
    { p with
      tables := deleteFrameJobs id p.tables
      deleted := ((p.tasks.workers.filterMap PoolWorker.unsettled).filter fun c =>
        c.job.frameId = some id).map Claim.serial ++ p.deleted }
  | .cancelPendingVision => { p with tables := (cancelPendingVisionJobs p.tables).2 }

def PoolState.run (p : PoolState) (events : List PoolEvent) : PoolState :=
  events.foldl PoolState.step p

/-- A pool over tables where no job runs. -/
def PoolState.start (tables : JobTables) (clock : Int) (concurrency : Nat) : PoolState where
  tables := tables
  clock := clock
  deleted := []
  tasks := .spawn concurrency

/-! ## The property -/

def PoolState.unsettledAt (p : PoolState) (w : Nat) : Option Claim :=
  p.tasks.workers[w]?.bind PoolWorker.unsettled

def PoolState.registeredAt (p : PoolState) (w : Nat) : Option Claim :=
  p.tasks.workers[w]?.bind PoolWorker.registered

def PoolState.heldAt (p : PoolState) (w : Nat) : Option Claim :=
  p.tasks.workers[w]?.bind PoolWorker.held

/-- The calls that a claim has had. -/
def PoolTasks.callsOf (tasks : PoolTasks) (serial : Nat) : Nat :=
  tasks.calls.countP fun call => call.serial = serial

/-- No job is processed twice at once. -/
structure PoolState.Exclusive (p : PoolState) : Prop where
  not_twice : ∀ w w' c c', p.unsettledAt w = some c → p.unsettledAt w' = some c' → w ≠ w' →
    c.job.id ≠ c'.job.id
  /-- The row of a job with a worker is as the claim left it. -/
  not_requeued : ∀ w c, p.unsettledAt w = some c → c.job.state = .running ∧
    (c.job ∈ p.tables.jobs ∨ c.serial ∈ p.deleted) ∧
      ∀ row ∈ p.tables.jobs, row.id = c.job.id → row = c.job
  one_call : ∀ serial w, p.tasks.claims[serial]? = some w → p.tasks.callsOf serial =
    if (p.unsettledAt w).map Claim.serial = some serial then 0 else 1
  by_claimer : ∀ call ∈ p.tasks.calls, p.tasks.claims[call.serial]? = some call.worker
  succeeds : ∀ call ∈ p.tasks.calls, call.broken = false → call.serial ∉ p.deleted → call.ok = true

/-- Every claimed job is registered before the visibility timeout has passed. -/
def PoolState.Timely (p : PoolState) : Prop :=
  ∀ s ∈ p.tasks.workers, ∀ c ∈ s.unregistered, p.clock < c.job.updatedAt + visibilityTimeoutMs

instance (p : PoolState) : Decidable p.Timely :=
  inferInstanceAs (Decidable (∀ s ∈ p.tasks.workers, ∀ c ∈ s.unregistered, _))

/-- The row id of a new job is not that of a job with a worker; a claim does not return a job
that another worker has put back and not left; and when the sweep requeues, the visibility
timeout has not passed since the claim of a job that was registered since it looked. -/
def PoolState.CarefulStep (p : PoolState) : PoolEvent → Prop
  | .enqueue job => ∀ made ∈ (enqueueJob job p.clock p.tables).toOption,
      ∀ s ∈ p.tasks.workers, ∀ c ∈ s.held, c.job.id ≠ made.1
  | .claim w kinds now broken => p.tasks.workers[w]? = some .polling → broken = false →
      ∀ job ∈ (claimJobs kinds 1 now p.clock p.tables).1.getLast?,
        ∀ s ∈ p.tasks.workers, ∀ c ∈ s.leaving, c.job.id ≠ job.id
  | .sweepUpdate broken => broken = false → ∀ s ∈ p.tasks.workers, ∀ c ∈ s.unsettled,
      s.registered = some c → c.job.id ∈ p.tasks.sweep.joined →
        p.clock < c.job.updatedAt + visibilityTimeoutMs
  | _ => True

instance (p : PoolState) : (e : PoolEvent) → Decidable (p.CarefulStep e)
  | .enqueue job => inferInstanceAs (Decidable
      (∀ made ∈ (enqueueJob job p.clock p.tables).toOption, ∀ s ∈ p.tasks.workers, ∀ c ∈ s.held, _))
  | .claim w kinds now broken => inferInstanceAs (Decidable
      (p.tasks.workers[w]? = some .polling → broken = false →
        ∀ job ∈ (claimJobs kinds 1 now p.clock p.tables).1.getLast?,
          ∀ s ∈ p.tasks.workers, ∀ c ∈ s.leaving, c.job.id ≠ job.id))
  | .sweepUpdate broken => inferInstanceAs (Decidable
      (broken = false → ∀ s ∈ p.tasks.workers, ∀ c ∈ s.unsettled, s.registered = some c →
        c.job.id ∈ p.tasks.sweep.joined → p.clock < c.job.updatedAt + visibilityTimeoutMs))
  | .look _ | .register _ | .process .. | .finalize .. | .release _ | .sweepTest | .sweepExit
  | .stop | .tick _ | .insertFrame _ | .deleteFrame _ | .cancelPendingVision =>
    inferInstanceAs (Decidable True)

def PoolState.TimelyRun : PoolState → List PoolEvent → Prop
  | p, [] => p.Timely
  | p, e :: rest => p.Timely ∧ (p.step e).TimelyRun rest

def PoolState.Careful : PoolState → List PoolEvent → Prop
  | p, [] => p.Timely
  | p, e :: rest => p.Timely ∧ p.CarefulStep e ∧ (p.step e).Careful rest

instance decidableTimelyRun : (p : PoolState) → (events : List PoolEvent) →
    Decidable (p.TimelyRun events)
  | p, [] => inferInstanceAs (Decidable p.Timely)
  | p, e :: rest =>
    have := decidableTimelyRun (p.step e) rest
    inferInstanceAs (Decidable (_ ∧ _))

instance decidableCareful : (p : PoolState) → (events : List PoolEvent) →
    Decidable (p.Careful events)
  | p, [] => inferInstanceAs (Decidable p.Timely)
  | p, e :: rest =>
    have := decidableCareful (p.step e) rest
    inferInstanceAs (Decidable (_ ∧ _ ∧ _))

end ScreenSearch.Kernel
