import ScreenSearch.Kernel.PoolExclusion

/-!
# Starting and stopping the worker pool

The calls of the kernel that start, stop and restart the worker pool, by any number of callers,
with the loops of every pool that was spawned. A start holds the lock of the handle from its
check to the spawn; a stop takes the handle under the lock, and drains the pool without it.
-/

namespace ScreenSearch.Kernel

open Store

/-- What the kernel offers about its workers. -/
inductive WorkersCall where
  | startWorkers
  | stopWorkers
  | reconfigureEnrichment
  | attachEmbedder
  | attachInference
  deriving DecidableEq, Repr

inductive CallerPhase where
  /-- In `stop_workers`, and in a restart to start the workers after it. -/
  | stopping (restart : Bool)
  /-- Has taken the handle of a pool. -/
  | took (pool : Nat) (restart : Bool)
  /-- Has signalled stop and awaits the joins. -/
  | draining (pool : Nat) (restart : Bool)
  /-- In `start_workers`. -/
  | starting
  /-- Holds the lock and has found no handle. -/
  | loading
  /-- Is about to requeue what runs. -/
  | sweeping (concurrency : Nat)
  | spawning (concurrency : Nat)
  | returned
  deriving DecidableEq, Repr

/-- The tasks of a pool, and its claims whose job was deleted with its frame. -/
structure Pool where
  tasks : PoolTasks
  deleted : List Nat
  deriving DecidableEq

def Pool.spawn (concurrency : Nat) : Pool where
  tasks := .spawn concurrency
  deleted := []

structure WorkersState where
  tables : JobTables
  clock : Int
  /-- Every pool that was spawned, oldest first. -/
  pools : List Pool
  /-- The handle in `workers`. -/
  slot : Option Nat
  /-- The caller that holds the lock of `workers`. -/
  lock : Option Nat
  embedder : Bool
  vision : Bool
  callers : List CallerPhase
  deriving DecidableEq

inductive WorkersEvent where
  | call (call : WorkersCall)
  | take (i : Nat)
  | signal (i : Nat)
  | join (i : Nat)
  | lock (i : Nat)
  /-- `load_settings`, and what follows of it. -/
  | load (i : Nat) (enrichEmbedText : Bool) (concurrency : Nat)
  | sweep (i : Nat) (broken : Bool)
  | spawn (i : Nat)
  /-- A loop of a pool. -/
  | task (k : Nat) (e : PoolEvent)
  /-- The rest of the program. -/
  | rest (e : PoolEvent)
  deriving DecidableEq, Repr

/-- The steps that the loops of a pool take. -/
def PoolEvent.ofLoop : PoolEvent → Bool
  | .look _ | .claim .. | .register _ | .process .. | .finalize .. | .release _
  | .sweepTest | .sweepUpdate _ | .sweepExit => true
  | _ => false

/-- The steps that have nothing to do with the pool. -/
def PoolEvent.ofRest : PoolEvent → Bool
  | .tick _ | .enqueue _ | .insertFrame _ | .deleteFrame _ | .cancelPendingVision => true
  | _ => false

/-- Every task has ended. -/
def PoolTasks.Drained (tasks : PoolTasks) : Prop :=
  (∀ s ∈ tasks.workers, s = .exited) ∧ tasks.sweep = .exited

instance (tasks : PoolTasks) : Decidable tasks.Drained :=
  inferInstanceAs (Decidable (_ ∧ _))

/-- What a pool sees. -/
def WorkersState.view (s : WorkersState) (pool : Pool) : PoolState where
  tables := s.tables
  clock := s.clock
  deleted := pool.deleted
  tasks := pool.tasks

/-- The pool in a state of it. -/
def PoolState.pool (p : PoolState) : Pool where
  tasks := p.tasks
  deleted := p.deleted

def WorkersState.setCaller (s : WorkersState) (i : Nat) (phase : CallerPhase) : WorkersState :=
  { s with callers := s.callers.set i phase }

/-- The first phase of a call. -/
def WorkersCall.begin : WorkersCall → CallerPhase
  | .startWorkers | .attachInference => .starting
  | .stopWorkers => .stopping false
  | .reconfigureEnrichment | .attachEmbedder => .stopping true

def WorkersState.call (s : WorkersState) (call : WorkersCall) : WorkersState :=
  { s with
    embedder := s.embedder || call = .attachEmbedder
    vision := s.vision || call = .attachInference
    callers := s.callers ++ [call.begin] }

/-- The phase after `stop_workers`. -/
def afterStop (restart : Bool) : CallerPhase := if restart then .starting else .returned

/-- `workers.lock().await.take()`. -/
def WorkersState.take (s : WorkersState) (i : Nat) (restart : Bool) : WorkersState :=
  match s.slot with
  | some k => { s with slot := none }.setCaller i (.took k restart)
  | none => s.setCaller i (afterStop restart)

/-- `reset_stale_running_jobs(0)`. -/
def WorkersState.sweepAll (s : WorkersState) (i concurrency : Nat) (broken : Bool) :
    WorkersState :=
  { s with tables := if broken then s.tables else (resetStaleRunningJobs 0 s.clock s.tables).2
  }.setCaller i (.spawning concurrency)

def WorkersState.spawn (s : WorkersState) (i concurrency : Nat) : WorkersState :=
  { s with
    pools := s.pools ++ [Pool.spawn concurrency]
    slot := some s.pools.length
    lock := none }.setCaller i .returned

/-- A step of one pool. -/
def WorkersState.stepPool (s : WorkersState) (k : Nat) (pool : Pool) (e : PoolEvent) : WorkersState :=
  { s with
    tables := ((s.view pool).step e).tables
    pools := s.pools.set k ((s.view pool).step e).pool }

/-- A step of the rest of the program, which every pool sees. -/
def WorkersState.stepRest (s : WorkersState) (e : PoolEvent) : WorkersState :=
  { s with
    tables := ((s.view (.spawn 0)).step e).tables
    clock := ((s.view (.spawn 0)).step e).clock
    pools := s.pools.map fun pool => ((s.view pool).step e).pool }

/-- A step that cannot be taken changes nothing. -/
def WorkersState.step (s : WorkersState) : WorkersEvent → WorkersState
  | .call call => s.call call
  | .take i =>
    match s.callers[i]?, s.lock with
    | some (.stopping restart), none => s.take i restart
    | _, _ => s
  | .signal i =>
    match s.callers[i]? with
    | some (.took k restart) =>
      match s.pools[k]? with
      | some pool => (s.stepPool k pool .stop).setCaller i (.draining k restart)
      | none => s
    | _ => s
  | .join i =>
    match s.callers[i]? with
    | some (.draining k restart) =>
      if ∀ pool ∈ s.pools[k]?, pool.tasks.Drained then s.setCaller i (afterStop restart) else s
    | _ => s
  | .lock i =>
    match s.callers[i]?, s.lock with
    | some .starting, none =>
      if s.slot.isSome then s.setCaller i .returned
      else { s with lock := some i }.setCaller i .loading
    | _, _ => s
  | .load i enrichEmbedText concurrency =>
    match s.callers[i]? with
    | some .loading =>
      if (s.embedder && enrichEmbedText) || s.vision then s.setCaller i (.sweeping concurrency)
      else { s with lock := none }.setCaller i .returned
    | _ => s
  | .sweep i broken =>
    match s.callers[i]? with
    | some (.sweeping concurrency) => s.sweepAll i concurrency broken
    | _ => s
  | .spawn i =>
    match s.callers[i]? with
    | some (.spawning concurrency) => s.spawn i concurrency
    | _ => s
  | .task k e =>
    match s.pools[k]? with
    | some pool => if e.ofLoop then s.stepPool k pool e else s
    | none => s
  | .rest e => if e.ofRest then s.stepRest e else s

def WorkersState.run (s : WorkersState) (events : List WorkersEvent) : WorkersState :=
  events.foldl WorkersState.step s

/-- The kernel has been built, over what an earlier process left. -/
def WorkersState.start (tables : JobTables) (clock : Int) : WorkersState where
  tables := tables
  clock := clock
  pools := []
  slot := none
  lock := none
  embedder := false
  vision := false
  callers := []

/-! ## The property -/

def WorkersState.unsettledAt (s : WorkersState) (k w : Nat) : Option Claim :=
  s.pools[k]?.bind fun pool => (s.view pool).unsettledAt w

structure WorkersState.Exclusive (s : WorkersState) : Prop where
  one_pool : ∀ (k k' : Nat) (pool pool' : Pool), s.pools[k]? = some pool → s.pools[k']? = some pool' →
    (∃ w ∈ pool.tasks.workers, w ≠ .exited) → (∃ w ∈ pool'.tasks.workers, w ≠ .exited) → k = k'
  /-- The row of a job with a worker is as the claim left it. -/
  not_requeued : ∀ k w c, s.unsettledAt k w = some c → c.job.state = .running ∧
    ∀ row ∈ s.tables.jobs, row.id = c.job.id → row = c.job
  not_twice : ∀ k w k' w' c c', s.unsettledAt k w = some c → s.unsettledAt k' w' = some c' →
    (k, w) ≠ (k', w') → c.job.id ≠ c'.job.id

/-- The pool that a caller has taken and not seen drained. -/
def CallerPhase.stops : CallerPhase → Option Nat
  | .took k _ | .draining k _ => some k
  | _ => none

/-- The startup sweep of one call does not run while another call drains a pool; and the steps
of a pool are as the pool itself needs them. -/
def WorkersState.CarefulStep (s : WorkersState) : WorkersEvent → Prop
  | .sweep i _ => (s.callers[i]?.any fun phase => phase matches .sweeping _) = true →
      ∀ phase ∈ s.callers, ∀ k ∈ phase.stops, ∀ pool ∈ s.pools[k]?, pool.tasks.Drained
  | .task k e => ∀ pool ∈ s.pools[k]?, (s.view pool).Timely ∧ (s.view pool).CarefulStep e
  | .rest e => ∀ pool ∈ s.pools, (s.view pool).Timely ∧ (s.view pool).CarefulStep e
  | _ => True

def WorkersState.Careful : WorkersState → List WorkersEvent → Prop
  | _, [] => True
  | s, e :: rest => s.CarefulStep e ∧ (s.step e).Careful rest

instance (s : WorkersState) : (e : WorkersEvent) → Decidable (s.CarefulStep e)
  | .sweep i _ => inferInstanceAs (Decidable
      ((s.callers[i]?.any fun phase => phase matches .sweeping _) = true →
        ∀ phase ∈ s.callers, ∀ k ∈ phase.stops, ∀ pool ∈ s.pools[k]?, pool.tasks.Drained))
  | .task k e => inferInstanceAs (Decidable
      (∀ pool ∈ s.pools[k]?, (s.view pool).Timely ∧ (s.view pool).CarefulStep e))
  | .rest e => inferInstanceAs (Decidable
      (∀ pool ∈ s.pools, (s.view pool).Timely ∧ (s.view pool).CarefulStep e))
  | .call _ | .take _ | .signal _ | .join _ | .lock _ | .load .. | .spawn _ =>
    inferInstanceAs (Decidable True)

instance decidableWorkersCareful : (s : WorkersState) → (events : List WorkersEvent) →
    Decidable (s.Careful events)
  | _, [] => inferInstanceAs (Decidable True)
  | s, e :: rest =>
    have := decidableWorkersCareful (s.step e) rest
    inferInstanceAs (Decidable (_ ∧ _))

end ScreenSearch.Kernel
