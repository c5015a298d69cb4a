import ScreenSearch.Inference.Supervisor

/-!
# Leases are safe

Three things keep a process from being killed under a lease: a path that stops a process
holds every permit of the gate, or it is the evictor and saw with the lock that nothing was
in flight; and requests are counted with the lock held.

Main results:

* `next_moves` — what one step of a task can do, one case per phase;
* `moves_inv` — every such step keeps the invariant of all tasks together;
* `lease_safety` — in every run: no leased process is killed, at most one process lives,
  every lease is bound to what was asked for, and the count is that of the leases.
-/

namespace ScreenSearch.Inference

open Shares

variable {config : SupervisorConfig} {sys : SystemAnswer} {spec : ModelSpec}
  {sup sup' : Supervisor} {ph ph' : Phase} {proc : SidecarProcess}

/-! ## What a task knows -/

def Phase.leaseCount (ph : Phase) : Nat := ph.lease.toList.length

/-- The process was launched with the arguments of its specification. -/
def Launched (config : SupervisorConfig) (proc : SidecarProcess) : Prop :=
  proc.args = buildArgs proc.spec proc.port config.caps

/-- The process serves a request for the specification. -/
structure Fits (config : SupervisorConfig) (spec : ModelSpec) (proc : SidecarProcess) : Prop where
  compatible : needsRestart proc.spec spec = false
  args : proc.args = buildArgs spec proc.port config.caps

theorem fits_of_launched (hLaunched : Launched config proc)
    (hCompatible : needsRestart proc.spec spec = false) : Fits config spec proc where
  compatible := hCompatible
  args := by
    rw [← buildArgs_eq_of_not_needsRestart hCompatible]
    exact hLaunched

/-- What holds in a phase. -/
def Phase.Ok (config : SupervisorConfig) (spec : ModelSpec) (sup : Supervisor) : Phase → Prop
  | .healthCheck running => sup.state = some running ∧ needsRestart running.spec spec = false
  | .crashHealth running => sup.state = some running
  | .stopping _ old => sup.state = none ∧ old.pid < sup.spawned
  | .spawning permits _ => 1 ≤ permits ∧ sup.state = none
  | .starting permits _ proc => 1 ≤ permits ∧ sup.state = none ∧ Fits config spec proc ∧
      Launched config proc ∧ proc.pid < sup.spawned ∧ proc.pid ∉ sup.killed
  | .installed permits proc => 1 ≤ permits ∧ sup.state = some proc ∧ Fits config spec proc
  | .granted proc | .counted proc | .leased proc => sup.state = some proc ∧ Fits config spec proc
  | .evictTake => sup.inFlight = 0
  | _ => True

/-- Without the lock a task knows only of its lease. -/
theorem ok_of_unlocked (hUnlocked : ph.locks = 0)
    (hLease : ∀ proc, ph.lease = some proc → sup.state = some proc ∧ Fits config spec proc) :
    ph.Ok config spec sup := by
  cases ph
  case leased proc => exact hLease proc rfl
  all_goals trivial

/-- What a phase depends on. -/
theorem ok_congr (hState : sup'.state = sup.state) (hKilled : sup'.killed = sup.killed)
    (hSpawned : sup'.spawned = sup.spawned) (hIdle : sup.inFlight = 0 → sup'.inFlight = 0)
    (hOk : ph.Ok config spec sup) : ph.Ok config spec sup' := by
  cases ph <;> simp only [Phase.Ok, hState, hKilled, hSpawned] at hOk ⊢ <;>
    first | exact hOk | exact hIdle hOk

theorem lease_ok (hOk : ph.Ok config spec sup) (hLease : ph.lease = some proc) :
    sup.state = some proc ∧ Fits config spec proc := by
  cases ph
  case counted leased => cases hLease; exact hOk
  case leased leased => cases hLease; exact hOk
  all_goals cases hLease

theorem owned_ok (hOk : ph.Ok config spec sup) (hOwned : ph.owned = some proc) :
    sup.state = none ∧ proc.pid < sup.spawned := by
  cases ph
  case stopping reason old => cases hOwned; exact hOk
  case starting permits attempt started =>
    cases hOwned
    exact ⟨hOk.2.1, hOk.2.2.2.2.1⟩
  all_goals cases hOwned

theorem owned_locks (hOwned : ph.owned = some proc) : ph.locks = 1 := by
  cases ph
  case stopping => rfl
  case starting => rfl
  all_goals cases hOwned

theorem lease_permits (hLease : ph.lease = some proc) : ph.permits = 1 := by
  cases ph
  case counted => rfl
  case leased => rfl
  all_goals cases hLease

/-! ## What one step can do -/

/-- What a step does to the processes. -/
inductive Effect (config : SupervisorConfig) (sup sup' : Supervisor) (ph ph' : Phase) : Prop
  /-- Nothing; and only with the lock can a request be counted. -/
  | quiet (state : sup'.state = sup.state) (processes : sup'.processes = sup.processes)
      (killed : sup'.killed = sup.killed) (spawned : sup'.spawned = sup.spawned)
      (owned : ph'.owned = ph.owned)
      (counts : sup'.inFlight ≤ sup.inFlight ∨ ph.locks = 1)
  /-- A process is taken out of the state while nobody can have a lease. -/
  | take (old : SidecarProcess) (locks : ph.locks = 1) (before : sup.state = some old)
      (state : sup'.state = none) (processes : sup'.processes = sup.processes)
      (killed : sup'.killed = sup.killed) (spawned : sup'.spawned = sup.spawned)
      (inFlight : sup'.inFlight = sup.inFlight)
      (owned : ph'.owned = some old) (alone : ph.permits = requestGatePermits ∨ sup.inFlight = 0)
  | kill (proc : SidecarProcess) (before : ph.owned = some proc) (state : sup'.state = sup.state)
      (processes : sup'.processes = sup.processes.erase proc)
      (killed : sup'.killed = proc.pid :: sup.killed) (spawned : sup'.spawned = sup.spawned)
      (inFlight : sup'.inFlight = sup.inFlight) (owned : ph'.owned = none)
  | spawn (proc : SidecarProcess) (locks : ph.locks = 1) (before : ph.owned = none)
      (empty : sup.state = none) (pid : proc.pid = sup.spawned)
      (state : sup'.state = sup.state) (processes : sup'.processes = proc :: sup.processes)
      (killed : sup'.killed = sup.killed) (spawned : sup'.spawned = sup.spawned + 1)
      (inFlight : sup'.inFlight = sup.inFlight) (owned : ph'.owned = some proc)
  /-- A process that starts has exited. -/
  | lost (proc : SidecarProcess) (before : ph.owned = some proc) (gone : proc ∉ sup.processes)
      (same : sup' = sup) (owned : ph'.owned = none)
  | install (proc : SidecarProcess) (before : ph.owned = some proc)
      (launched : Launched config proc) (fresh : proc.pid ∉ sup.killed)
      (state : sup'.state = some proc)
      (processes : sup'.processes = sup.processes) (killed : sup'.killed = sup.killed)
      (spawned : sup'.spawned = sup.spawned) (inFlight : sup'.inFlight = sup.inFlight)
      (owned : ph'.owned = none)

/-- A step of one task: what it takes it gives back, and what it then knows. -/
structure Moves (config : SupervisorConfig) (spec : ModelSpec) (sup : Supervisor) (ph : Phase)
    (after : Supervisor × Phase) : Prop where
  permits : after.1.permits + after.2.permits = sup.permits + ph.permits
  locks : after.2.locks + sup.locked.toNat = ph.locks + after.1.locked.toNat
  inFlight : after.1.inFlight + ph.leaseCount = sup.inFlight + after.2.leaseCount
  ok : after.2.Ok config spec after.1
  effect : Effect config sup after.1 ph after.2

/-- A step that leaves what is shared. -/
theorem Moves.stay (hPermits : ph'.permits = ph.permits) (hLocks : ph'.locks = ph.locks)
    (hCount : ph'.leaseCount = ph.leaseCount) (hOwned : ph'.owned = ph.owned)
    (hOk : ph'.Ok config spec sup) : Moves config spec sup ph (sup, ph') where
  permits := by rw [hPermits]
  locks := by rw [hLocks]
  inFlight := by rw [hCount]
  ok := hOk
  effect := .quiet rfl rfl rfl rfl hOwned (.inl (Nat.le_refl _))

/-- Waiting for permits, and getting them. -/
theorem Moves.enter {n : Nat} (hOk : ph.Ok config spec sup)
    (hOk' : ∀ after : Supervisor, ph'.Ok config spec after)
    (hPermits : ph'.permits = n + ph.permits) (hLocks : ph'.locks = ph.locks)
    (hCount : ph'.leaseCount = ph.leaseCount) (hOwned : ph'.owned = ph.owned) :
    Moves config spec sup ph (sup.enter n ph ph') := by
  unfold Supervisor.enter
  split
  · refine ⟨?_, ?_, ?_, hOk' _, .quiet rfl rfl rfl rfl hOwned (.inl (Nat.le_refl _))⟩
    · show sup.permits - n + ph'.permits = sup.permits + ph.permits
      omega
    · rw [hLocks]
    · rw [hCount]
  · exact .stay rfl rfl rfl rfl hOk

/-- Waiting for the lock, and getting it. -/
theorem Moves.lock (hOk : ph.Ok config spec sup)
    (hOk' : ∀ after : Supervisor, ph'.Ok config spec after) (hPermits : ph'.permits = ph.permits)
    (hLocks : ph'.locks = ph.locks + 1) (hCount : ph'.leaseCount = ph.leaseCount)
    (hOwned : ph'.owned = ph.owned) : Moves config spec sup ph (sup.lock ph ph') := by
  unfold Supervisor.lock
  split
  · exact .stay rfl rfl rfl rfl hOk
  · next hFree =>
    refine ⟨?_, ?_, ?_, hOk' _, .quiet rfl rfl rfl rfl hOwned (.inl (Nat.le_refl _))⟩
    · show sup.permits + ph'.permits = sup.permits + ph.permits
      rw [hPermits]
    · rw [hLocks, Bool.eq_false_iff.mpr hFree]
      rfl
    · rw [hCount]

/-- Giving back the lock and some permits. -/
theorem Moves.leave {n : Nat} (hLocked : ph.locks ≤ sup.locked.toNat) (hHolds : ph.locks = 1)
    (hOk' : ∀ after : Supervisor, ph'.Ok config spec after)
    (hPermits : ph.permits = n + ph'.permits) (hLocks : ph'.locks = 0)
    (hCount : ph'.leaseCount = ph.leaseCount) (hOwned : ph'.owned = ph.owned) :
    Moves config spec sup ph (sup.leave n ph') := by
  have hTrue : sup.locked = true := by
    rcases hBool : sup.locked
    · rw [hBool, hHolds] at hLocked
      cases hLocked
    · rfl
  refine ⟨?_, ?_, ?_, hOk' _, .quiet rfl rfl rfl rfl hOwned (.inl (Nat.le_refl _))⟩
  · show sup.permits + n + ph'.permits = sup.permits + ph.permits
    omega
  · show ph'.locks + sup.locked.toNat = ph.locks + 0
    rw [hLocks, hHolds, hTrue]
    rfl
  · show sup.inFlight + ph.leaseCount = sup.inFlight + ph'.leaseCount
    rw [hCount]

/-- Taking the process out of the state. -/
theorem Moves.take {reason : StopReason} {old : SidecarProcess} (hHolds : ph.locks = 1)
    (hState : sup.state = some old) (hPid : old.pid < sup.spawned)
    (hPermits : ph.permits = reason.permits) (hCount : ph.leaseCount = 0)
    (hAlone : ph.permits = requestGatePermits ∨ sup.inFlight = 0) (pinned : Bool) :
    Moves config spec sup ph ({ sup with pinned := pinned }.take reason old) where
  permits := by
    show sup.permits + reason.permits = sup.permits + ph.permits
    rw [hPermits]
  locks := by
    show 1 + sup.locked.toNat = ph.locks + sup.locked.toNat
    rw [hHolds]
  inFlight := by
    show sup.inFlight + ph.leaseCount = sup.inFlight + 0
    rw [hCount]
  ok := ⟨rfl, hPid⟩
  effect := .take old hHolds hState rfl rfl rfl rfl rfl rfl hAlone

/-- The process in the state. -/
structure StateOk (config : SupervisorConfig) (sup : Supervisor) (proc : SidecarProcess) : Prop where
  launched : Launched config proc
  alive : proc.pid ∉ sup.killed
  pid : proc.pid < sup.spawned

theorem nextAttempt_moves {permits attempt : Nat} (hSome : 1 ≤ permits)
    (hPermits : ph.permits = permits) (hLocks : ph.locks = 1) (hCount : ph.leaseCount = 0) (hState : sup.state = none) :
    ((nextAttempt permits attempt).permits = ph.permits) ∧
      (nextAttempt permits attempt).locks = ph.locks ∧
      (nextAttempt permits attempt).leaseCount = ph.leaseCount ∧
      (nextAttempt permits attempt).owned = none ∧
      (nextAttempt permits attempt).Ok config spec sup := by
  unfold nextAttempt
  rw [hPermits, hLocks, hCount]
  split
  · exact ⟨rfl, rfl, rfl, rfl, hSome, hState⟩
  · exact ⟨rfl, rfl, rfl, rfl, trivial⟩

theorem spawn_moves {permits attempt : Nat}
    (hOk : (Phase.spawning permits attempt).Ok config spec sup)
    (hKilled : ∀ pid ∈ sup.killed, pid < sup.spawned) :
    Moves config spec sup (.spawning permits attempt)
      (sup.spawn config sys spec permits attempt) := by
  unfold Supervisor.spawn
  split
  · have hFresh : sup.spawned ∉ sup.killed := fun hMem =>
      absurd (hKilled sup.spawned hMem) (Nat.lt_irrefl _)
    refine ⟨rfl, rfl, rfl, ⟨hOk.1, hOk.2, ⟨needsRestart_self spec, rfl⟩, rfl, Nat.lt_succ_self _,
      hFresh⟩, ?_⟩
    exact .spawn _ rfl rfl hOk.2 rfl rfl rfl rfl rfl rfl rfl
  · obtain ⟨hPermits, hLocks, hCount, hOwned, hNext⟩ :=
      @nextAttempt_moves config spec sup (.spawning permits attempt) permits attempt hOk.1 rfl rfl rfl
        hOk.2
    exact .stay hPermits hLocks hCount hOwned hNext

theorem poll_moves {permits attempt : Nat}
    (hOk : (Phase.starting permits attempt proc).Ok config spec sup) :
    Moves config spec sup (.starting permits attempt proc)
      (sup.poll sys permits attempt proc) := by
  obtain ⟨hSome, hState, hFits, hLaunched, hPid, hAlive⟩ := hOk
  unfold Supervisor.poll
  split
  · next hGone =>
    obtain ⟨hPermits, hLocks, hCount, hOwned, hNext⟩ :=
      @nextAttempt_moves config spec sup (.starting permits attempt proc) permits attempt hSome rfl
        rfl rfl hState
    exact ⟨congrArg (sup.permits + ·) hPermits, congrArg (· + sup.locked.toNat) hLocks,
      congrArg (sup.inFlight + ·) hCount.symm, hNext, .lost proc rfl hGone rfl hOwned⟩
  split
  · exact ⟨rfl, rfl, rfl, ⟨hSome, rfl, hFits⟩,
      .install proc rfl hLaunched hAlive rfl rfl rfl rfl rfl rfl⟩
  split
  · obtain ⟨hPermits, hLocks, hCount, hOwned, hNext⟩ :=
      @nextAttempt_moves config spec (sup.kill proc) (.starting permits attempt proc) permits attempt
        hSome rfl rfl rfl hState
    exact ⟨congrArg (sup.permits + ·) hPermits, congrArg (· + sup.locked.toNat) hLocks,
      congrArg (sup.inFlight + ·) hCount.symm, hNext, .kill proc rfl rfl rfl rfl rfl rfl hOwned⟩
  · exact .stay rfl rfl rfl rfl ⟨hSome, hState, hFits, hLaunched, hPid, hAlive⟩

/-- A process is killed by who took it out of the state. -/
theorem stopping_moves {reason : StopReason} {old : SidecarProcess}
    (hOk : (Phase.stopping reason old).Ok config spec sup) :
    Moves config spec sup (.stopping reason old) (sup.kill old, reason.next) := by
  rcases reason
  · exact ⟨rfl, rfl, rfl, ⟨by decide, hOk.1⟩, .kill old rfl rfl rfl rfl rfl rfl rfl⟩
  · exact ⟨rfl, rfl, rfl, trivial, .kill old rfl rfl rfl rfl rfl rfl rfl⟩
  · exact ⟨rfl, rfl, rfl, trivial, .kill old rfl rfl rfl rfl rfl rfl rfl⟩

/-- One step of a task. -/
theorem next_moves {task : Task} (hOk : task.phase.Ok config task.spec sup)
    (hLocked : task.phase.locks ≤ sup.locked.toNat)
    (hCounted : task.phase.leaseCount ≤ sup.inFlight)
    (hKilled : ∀ pid ∈ sup.killed, pid < sup.spawned)
    (hState : ∀ proc, sup.state = some proc → StateOk config sup proc) :
    Moves config task.spec sup task.phase (task.next config sys sup) := by
  obtain ⟨spec, ph⟩ := task
  unfold Task.next
  dsimp only at hOk hLocked hCounted ⊢
  cases ph <;> dsimp only
  case overCeiling =>
    split
    · exact .stay rfl rfl rfl rfl trivial
    split
    · exact .stay rfl rfl rfl rfl trivial
    split <;> exact .stay rfl rfl rfl rfl trivial
  case recycleGate => exact .enter trivial (fun _ => trivial) rfl rfl rfl rfl
  case recycleLock => exact .lock trivial (fun _ => trivial) rfl rfl rfl rfl
  case recycleCheck =>
    split
    · next old hSome =>
      split
      · exact .take rfl hSome (hState old hSome).pid rfl rfl (.inl rfl) sup.pinned
      · exact .leave hLocked rfl (fun _ => trivial) rfl rfl rfl rfl
    · exact .leave hLocked rfl (fun _ => trivial) rfl rfl rfl rfl
  case needsSwitch =>
    split
    · exact .stay rfl rfl rfl rfl trivial
    split <;> exact .stay rfl rfl rfl rfl trivial
  case switchGate => exact .enter trivial (fun _ => trivial) rfl rfl rfl rfl
  case switchLock => exact .lock trivial (fun _ => trivial) rfl rfl rfl rfl
  case switchCheck =>
    split
    · next old hSome =>
      split
      · exact .take rfl hSome (hState old hSome).pid rfl rfl (.inl rfl) false
      · exact .leave hLocked rfl (fun _ => trivial) rfl rfl rfl rfl
    · exact .leave hLocked rfl (fun _ => trivial) rfl rfl rfl rfl
  case enterGate => exact .enter trivial (fun _ => trivial) rfl rfl rfl rfl
  case enterLock => exact .lock trivial (fun _ => trivial) rfl rfl rfl rfl
  case enterCheck =>
    split
    · next running hSome =>
      split
      · exact .leave hLocked rfl (fun _ => trivial) rfl rfl rfl rfl
      · next hSame => exact .stay rfl rfl rfl rfl ⟨hSome, Bool.eq_false_iff.mpr hSame⟩
    · next hNone => exact .stay rfl rfl rfl rfl ⟨Nat.le_refl _, hNone⟩
  case healthCheck running =>
    split
    · exact .stay rfl rfl rfl rfl ⟨hOk.1, fits_of_launched (hState running hOk.1).launched hOk.2⟩
    · exact .leave hLocked rfl (fun _ => trivial) rfl rfl rfl rfl
  case crashGate => exact .enter trivial (fun _ => trivial) rfl rfl rfl rfl
  case crashLock => exact .lock trivial (fun _ => trivial) rfl rfl rfl rfl
  case crashCheck =>
    split
    · next running hSome =>
      split
      · exact .take rfl hSome (hState running hSome).pid rfl rfl (.inl rfl) sup.pinned
      · exact .stay rfl rfl rfl rfl hSome
    · exact .leave hLocked rfl (fun _ => trivial) rfl rfl rfl rfl
  case crashHealth running =>
    split
    · exact .leave hLocked rfl (fun _ => trivial) rfl rfl rfl rfl
    · exact .take rfl hOk (hState running hOk).pid rfl rfl (.inl rfl) sup.pinned
  case stopping reason old => exact stopping_moves hOk
  case spawning permits attempt => exact spawn_moves hOk hKilled
  case starting permits attempt proc => exact poll_moves hOk
  case installed permits proc =>
    refine ⟨?_, rfl, rfl, hOk.2, .quiet rfl rfl rfl rfl rfl (.inl (Nat.le_refl _))⟩
    -- the permits but one go back, and the last is that of the lease
    have := hOk.1
    show sup.permits + (permits - 1) + 1 = sup.permits + permits
    omega
  case granted proc =>
    exact ⟨rfl, rfl, rfl, hOk, .quiet rfl rfl rfl rfl rfl (.inr rfl)⟩
  case counted proc =>
    -- the lock is held by this very call
    have hTrue : sup.locked = true := by
      rcases hBool : sup.locked
      · rw [hBool] at hLocked
        cases hLocked
      · rfl
    refine ⟨rfl, ?_, rfl, hOk, .quiet rfl rfl rfl rfl rfl (.inl (Nat.le_refl _))⟩
    rw [hTrue]
    rfl
  case leased proc =>
    refine ⟨rfl, rfl, ?_, trivial, .quiet rfl rfl rfl rfl rfl (.inl (Nat.sub_le _ _))⟩
    change 1 ≤ sup.inFlight at hCounted
    show sup.inFlight - 1 + 1 = sup.inFlight + 0
    omega
  case dropped => exact ⟨rfl, rfl, rfl, trivial, .quiet rfl rfl rfl rfl rfl (.inl (Nat.le_refl _))⟩
  case unloadPin =>
    exact ⟨rfl, rfl, rfl, trivial, .quiet rfl rfl rfl rfl rfl (.inl (Nat.le_refl _))⟩
  case unloadGate => exact .enter trivial (fun _ => trivial) rfl rfl rfl rfl
  case unloadLock => exact .lock trivial (fun _ => trivial) rfl rfl rfl rfl
  case unloadCheck =>
    split
    · next p hSome =>
      exact .take rfl hSome (hState p hSome).pid rfl rfl (.inl rfl) sup.pinned
    · exact .stay rfl rfl rfl rfl trivial
  case evictProbe => split <;> exact .stay rfl rfl rfl rfl trivial
  case evictLock => exact .lock trivial (fun _ => trivial) rfl rfl rfl rfl
  case evictCheck =>
    split
    · exact .stay rfl rfl rfl rfl trivial
    · next hIdle =>
      -- an eviction goes on only where no lease is out
      have hZero : sup.inFlight = 0 := by
        simp only [Bool.or_eq_true, decide_eq_true_eq, not_or] at hIdle
        omega
      exact .stay rfl rfl rfl rfl hZero
  case evictTake =>
    split
    · next p hSome =>
      exact .take rfl hSome (hState p hSome).pid rfl rfl (.inr hOk) sup.pinned
    · exact .stay rfl rfl rfl rfl trivial
  case leaving permits => exact .leave hLocked rfl (fun _ => trivial) (Nat.add_zero _).symm rfl rfl rfl
  case finished => exact .stay rfl rfl rfl rfl trivial

/-! ## All tasks together -/

structure SupervisorSystem.Inv (config : SupervisorConfig) (s : SupervisorSystem) : Prop where
  permits : s.sup.permits + total (fun task => task.phase.permits) s.tasks = requestGatePermits
  locks : total (fun task => task.phase.locks) s.tasks = s.sup.locked.toNat
  inFlight : s.sup.inFlight = total (fun task => task.phase.leaseCount) s.tasks
  ok : ∀ (i : Nat) task, s.tasks[i]? = some task → task.phase.Ok config task.spec s.sup
  killed : ∀ pid ∈ s.sup.killed, pid < s.sup.spawned
  state : ∀ proc, s.sup.state = some proc → StateOk config s.sup proc
  processes_nodup : s.sup.processes.Nodup
  processes_pid : ∀ proc ∈ s.sup.processes, proc.pid < s.sup.spawned
  /-- Whoever runs is in the state, or a task is about to start or to stop it. -/
  known : ∀ proc ∈ s.sup.processes, s.sup.state = some proc ∨
    ∃ (i : Nat) (task : Task), s.tasks[i]? = some task ∧ task.phase.owned = some proc

variable {s : SupervisorSystem} {i j : Nat} {task other : Task}

/-- Two tasks do not have the lock at once. -/
theorem locks_unique (h : s.Inv config) (hi : s.tasks[i]? = some task)
    (hj : s.tasks[j]? = some other) (hLocks : task.phase.locks = 1) (hNe : i ≠ j) :
    other.phase.locks = 0 := by
  refine others_hold_none (fun task => task.phase.locks) ?_ hi hj hNe
  rw [h.locks, hLocks]
  exact Bool.toNat_le _

/-- While a task is about to take the process out of the state, no other has a lease. -/
theorem alone_unleased (h : s.Inv config) (hi : s.tasks[i]? = some task)
    (hj : s.tasks[j]? = some other) (hNe : i ≠ j)
    (hAlone : task.phase.permits = requestGatePermits ∨ s.sup.inFlight = 0) :
    other.phase.lease = none := by
  rcases hLease : other.phase.lease with - | proc
  · rfl
  rcases hAlone with hAll | hIdle
  · have hZero : other.phase.permits = 0 := by
      refine others_hold_none (fun task => task.phase.permits) ?_ hi hj hNe
      have := h.permits
      omega
    rw [lease_permits hLease] at hZero
    cases hZero
  · have hZero : other.phase.leaseCount = 0 :=
      total_eq_zero (fun task => task.phase.leaseCount) (h.inFlight ▸ hIdle) hj
    unfold Phase.leaseCount at hZero
    rw [hLease] at hZero
    cases hZero

/-- What the step of one task leaves of what another one knows. -/
theorem others_ok (h : s.Inv config) (hi : s.tasks[i]? = some task)
    (hj : s.tasks[j]? = some other) (hNe : i ≠ j) {after : Supervisor × Phase}
    (hMoves : Moves config task.spec s.sup task.phase after) :
    other.phase.Ok config other.spec after.1 := by
  have hOther := h.ok j other hj
  -- a lease knows the state, so who changes the state must have seen that there is none
  have hLeased : after.1.state = s.sup.state ∨ other.phase.lease = none →
      ∀ proc, other.phase.lease = some proc →
        after.1.state = some proc ∧ Fits config other.spec proc := by
    rintro (hSame | hNone) proc hLease
    · rw [hSame]
      exact lease_ok hOther hLease
    · rw [hNone] at hLease
      cases hLease
  have hUnlocked := fun hLocks => locks_unique h hi hj hLocks hNe
  rcases hMoves.effect with ⟨hState, -, hKilled, hSpawned, -, hLess | hLocks⟩ |
    ⟨old, hLocks, -, -, -, -, -, -, -, hAlone⟩ | ⟨proc, hBefore, hState, -⟩ |
    ⟨proc, hLocks, -, -, -, hState, -⟩ | ⟨proc, hBefore, -, hSame, -⟩ | ⟨proc, hBefore, -⟩
  · exact ok_congr hState hKilled hSpawned (fun hIdle => by omega) hOther
  · exact ok_of_unlocked (hUnlocked hLocks) (hLeased (.inl hState))
  · exact ok_of_unlocked (hUnlocked hLocks) (hLeased (.inr (alone_unleased h hi hj hNe hAlone)))
  · exact ok_of_unlocked (hUnlocked (owned_locks hBefore)) (hLeased (.inl hState))
  · exact ok_of_unlocked (hUnlocked hLocks) (hLeased (.inl hState))
  · exact ok_of_unlocked (hUnlocked (owned_locks hBefore)) (hLeased (.inl (by rw [hSame])))
  · refine ok_of_unlocked (hUnlocked (owned_locks hBefore)) (hLeased (.inr ?_))
    rcases hLease : other.phase.lease with - | leased
    · rfl
    · have hSome := (lease_ok hOther hLease).1
      rw [(owned_ok (h.ok i task hi) hBefore).1] at hSome
      cases hSome

/-- The tasks after a step of one of them. -/
theorem get_set (hi : s.tasks[i]? = some task) {ph : Phase} {after : Task}
    (hAfter : (s.tasks.set i { task with phase := ph })[j]? = some after) :
    (j = i ∧ after = { task with phase := ph }) ∨ (i ≠ j ∧ s.tasks[j]? = some after) := by
  rw [List.getElem?_set] at hAfter
  split at hAfter
  · next hSame =>
    rw [if_pos (hSame ▸ (List.getElem?_eq_some_iff.mp hi).1)] at hAfter
    exact .inl ⟨hSame.symm, (Option.some.inj hAfter).symm⟩
  · next hNe => exact .inr ⟨hNe, hAfter⟩

theorem get_set_self (hi : s.tasks[i]? = some task) (after : Task) :
    (s.tasks.set i after)[i]? = some after :=
  List.getElem?_set_self (List.getElem?_eq_some_iff.mp hi).1

/-- A process that is known without the task that steps is so after its step. -/
theorem known_kept (hi : s.tasks[i]? = some task) {after : Supervisor × Phase}
    (hState : after.1.state = s.sup.state) {proc : SidecarProcess}
    (hOwned : task.phase.owned = some proc → after.2.owned = some proc)
    (hKnown : s.sup.state = some proc ∨
      ∃ (j : Nat) (other : Task), s.tasks[j]? = some other ∧ other.phase.owned = some proc) :
    after.1.state = some proc ∨ ∃ (j : Nat) (other : Task),
      (s.tasks.set i { task with phase := after.2 })[j]? = some other ∧
        other.phase.owned = some proc := by
  rcases hKnown with hSome | ⟨j, other, hOther, hOwns⟩
  · exact .inl (hState.trans hSome)
  · right
    by_cases hSame : j = i
    · subst hSame
      rw [hi] at hOther
      cases hOther
      exact ⟨j, _, get_set_self hi _, hOwned hOwns⟩
    · refine ⟨j, other, ?_, hOwns⟩
      rw [List.getElem?_set_ne (Ne.symm hSame)]
      exact hOther

/-- A process that runs is in the state, or whoever holds the lock owns it. -/
theorem known_of_locks (h : s.Inv config) (hi : s.tasks[i]? = some task)
    (hLocks : task.phase.locks = 1) {proc : SidecarProcess} (hMem : proc ∈ s.sup.processes) :
    s.sup.state = some proc ∨ task.phase.owned = some proc := by
  rcases h.known proc hMem with hSome | ⟨j, other, hOther, hOwns⟩
  · exact .inl hSome
  right
  by_cases hSame : i = j
  · subst hSame
    rw [hi] at hOther
    cases hOther
    exact hOwns
  · have hZero := locks_unique h hi hOther hLocks hSame
    rw [owned_locks hOwns] at hZero
    cases hZero

/-- The same for a task that owns a process itself. -/
theorem known_of_owned (h : s.Inv config) (hi : s.tasks[i]? = some task) {proc : SidecarProcess}
    (hOwned : task.phase.owned = some proc) {running : SidecarProcess}
    (hMem : running ∈ s.sup.processes) : running = proc := by
  rcases known_of_locks h hi (owned_locks hOwned) hMem with hSome | hOwns
  · rw [(owned_ok (h.ok i task hi) hOwned).1] at hSome
    cases hSome
  · rw [hOwned] at hOwns
    exact (Option.some.inj hOwns).symm

theorem moves_killed (h : s.Inv config) (hi : s.tasks[i]? = some task)
    {after : Supervisor × Phase} (hEffect : Effect config s.sup after.1 task.phase after.2) :
    ∀ pid ∈ after.1.killed, pid < after.1.spawned := by
  rcases hEffect with ⟨-, -, hKilled, hSpawned, -⟩ | ⟨-, -, -, -, -, hKilled, hSpawned, -⟩ |
    ⟨proc, hBefore, -, -, hKilled, hSpawned, -⟩ | ⟨-, -, -, -, -, -, -, hKilled, hSpawned, -⟩ |
    ⟨-, -, -, hSame, -⟩ | ⟨-, -, -, -, -, -, hKilled, hSpawned, -⟩
  · rw [hKilled, hSpawned]; exact h.killed
  · rw [hKilled, hSpawned]; exact h.killed
  · rw [hKilled, hSpawned]
    intro pid hPid
    rcases List.mem_cons.mp hPid with rfl | hOld
    · exact (owned_ok (h.ok i task hi) hBefore).2
    · exact h.killed pid hOld
  · rw [hKilled, hSpawned]
    exact fun pid hPid => Nat.lt_succ_of_lt (h.killed pid hPid)
  · rw [hSame]; exact h.killed
  · rw [hKilled, hSpawned]; exact h.killed

theorem moves_state (h : s.Inv config) (hi : s.tasks[i]? = some task)
    {after : Supervisor × Phase} (hEffect : Effect config s.sup after.1 task.phase after.2) :
    ∀ proc, after.1.state = some proc → StateOk config after.1 proc := by
  intro proc hSome
  rcases hEffect with ⟨hState, -, hKilled, hSpawned, -⟩ | ⟨-, -, -, hNone, -⟩ |
    ⟨owned, hBefore, hState, -⟩ | ⟨-, -, -, hEmpty, -, hState, -⟩ |
    ⟨-, -, -, hSame, -⟩ | ⟨owned, hBefore, hLaunched, hFresh, hState, -, hKilled, hSpawned, -⟩
  · obtain ⟨hLaunched, hAlive, hPid⟩ := h.state proc (hState ▸ hSome)
    exact ⟨hLaunched, hKilled ▸ hAlive, hSpawned ▸ hPid⟩
  · rw [hNone] at hSome
    cases hSome
  · rw [hState, (owned_ok (h.ok i task hi) hBefore).1] at hSome
    cases hSome
  · rw [hState, hEmpty] at hSome
    cases hSome
  · rw [hSame] at hSome ⊢
    exact h.state proc hSome
  · rw [hState] at hSome
    cases hSome
    exact ⟨hLaunched, hKilled ▸ hFresh, hSpawned ▸ (owned_ok (h.ok i task hi) hBefore).2⟩

/-- A step keeps the processes apart and their numbers used. -/
theorem moves_processes (h : s.Inv config)
    {after : Supervisor × Phase} (hEffect : Effect config s.sup after.1 task.phase after.2) :
    after.1.processes.Nodup ∧ ∀ proc ∈ after.1.processes, proc.pid < after.1.spawned := by
  rcases hEffect with ⟨-, hSame, -, hSpawned, -⟩ | ⟨-, -, -, -, hSame, -, hSpawned, -⟩ |
    ⟨proc, -, -, hErase, -, hSpawned, -⟩ | ⟨proc, -, -, -, hPid, -, hCons, -, hSpawned, -⟩ |
    ⟨-, -, -, hSame, -⟩ | ⟨-, -, -, -, -, hSame, -, hSpawned, -⟩
  · rw [hSame, hSpawned]; exact ⟨h.processes_nodup, h.processes_pid⟩
  · rw [hSame, hSpawned]; exact ⟨h.processes_nodup, h.processes_pid⟩
  · rw [hErase, hSpawned]
    exact ⟨h.processes_nodup.erase proc, fun other hOther =>
      h.processes_pid other (List.mem_of_mem_erase hOther)⟩
  · rw [hCons, hSpawned]
    refine ⟨List.nodup_cons.mpr ⟨fun hMem => ?_, h.processes_nodup⟩, fun other hOther => ?_⟩
    · have := h.processes_pid proc hMem
      omega
    · rcases List.mem_cons.mp hOther with rfl | hOld
      · omega
      · exact Nat.lt_succ_of_lt (h.processes_pid other hOld)
  · rw [hSame]; exact ⟨h.processes_nodup, h.processes_pid⟩
  · rw [hSame, hSpawned]; exact ⟨h.processes_nodup, h.processes_pid⟩

theorem moves_known (h : s.Inv config) (hi : s.tasks[i]? = some task)
    {after : Supervisor × Phase} (hEffect : Effect config s.sup after.1 task.phase after.2) :
    ∀ proc ∈ after.1.processes, after.1.state = some proc ∨ ∃ (j : Nat) (other : Task),
      (s.tasks.set i { task with phase := after.2 })[j]? = some other ∧
        other.phase.owned = some proc := by
  intro proc hMem
  rcases hEffect with ⟨hState, hSame, -, -, hOwned, -⟩ |
    ⟨old, hLocks, hSome, -, hSame, -, -, -, hOwned, -⟩ | ⟨owned, hBefore, -, hErase, -⟩ |
    ⟨owned, hLocks, hNone, hEmpty, -, -, hCons, -, -, -, hOwned⟩ |
    ⟨owned, hBefore, hGone, hSame, -⟩ | ⟨owned, hBefore, -, -, hState, hSame, -⟩
  · rw [hSame] at hMem
    exact known_kept hi hState (fun hBefore => hOwned.trans hBefore) (h.known proc hMem)
  · rw [hSame] at hMem
    have hOld : proc = old := by
      rcases known_of_locks h hi hLocks hMem with hProc | hOwns
      · rw [hSome] at hProc
        exact (Option.some.inj hProc).symm
      · rw [(owned_ok (h.ok i task hi) hOwns).1] at hSome
        cases hSome
    exact .inr ⟨i, _, get_set_self hi _, hOld ▸ hOwned⟩
  · rw [hErase] at hMem
    obtain ⟨hNe, hOld⟩ := h.processes_nodup.mem_erase_iff.mp hMem
    exact absurd (known_of_owned h hi hBefore hOld) hNe
  · rw [hCons] at hMem
    rcases List.mem_cons.mp hMem with rfl | hOld
    · exact .inr ⟨i, _, get_set_self hi _, hOwned⟩
    · rcases known_of_locks h hi hLocks hOld with hSome | hOwns
      · rw [hEmpty] at hSome
        cases hSome
      · rw [hNone] at hOwns
        cases hOwns
  · rw [hSame] at hMem
    exact absurd (known_of_owned h hi hBefore hMem ▸ hMem) hGone
  · rw [hSame] at hMem
    exact .inl (known_of_owned h hi hBefore hMem ▸ hState)

theorem moves_inv (h : s.Inv config) (hi : s.tasks[i]? = some task) {after : Supervisor × Phase}
    (hMoves : Moves config task.spec s.sup task.phase after) :
    SupervisorSystem.Inv config
      { sup := after.1, tasks := s.tasks.set i { task with phase := after.2 } } where
  permits := by
    have hTotal := total_set (fun task => task.phase.permits) hi { task with phase := after.2 }
    have := h.permits
    have := hMoves.permits
    dsimp only at hTotal ⊢
    omega
  locks := by
    have hTotal := total_set (fun task => task.phase.locks) hi { task with phase := after.2 }
    have := h.locks
    have := hMoves.locks
    dsimp only at hTotal ⊢
    omega
  inFlight := by
    have hTotal := total_set (fun task => task.phase.leaseCount) hi { task with phase := after.2 }
    have := h.inFlight
    have := hMoves.inFlight
    dsimp only at hTotal ⊢
    omega
  ok := by
    intro j other hOther
    rcases get_set hi hOther with ⟨rfl, rfl⟩ | ⟨hNe, hOld⟩
    · exact hMoves.ok
    · exact others_ok h hi hOld hNe hMoves
  killed := moves_killed h hi hMoves.effect
  state := moves_state h hi hMoves.effect
  processes_nodup := (moves_processes h hMoves.effect).1
  processes_pid := (moves_processes h hMoves.effect).2
  known := moves_known h hi hMoves.effect

/-! ## Runs -/

theorem stepTask_inv (h : s.Inv config) (sys : SystemAnswer) (i : Nat) :
    (s.stepTask config sys i).Inv config := by
  unfold SupervisorSystem.stepTask
  rcases hi : s.tasks[i]? with - | task
  · exact h
  have hLocked : task.phase.locks ≤ s.sup.locked.toNat := by
    rw [← h.locks]
    exact share_le (fun task => task.phase.locks) hi
  have hCounted : task.phase.leaseCount ≤ s.sup.inFlight := by
    rw [h.inFlight]
    exact share_le (fun task => task.phase.leaseCount) hi
  exact moves_inv h hi (next_moves (h.ok i task hi) hLocked hCounted h.killed h.state)

/-- A task that begins holds nothing. -/
theorem begin_inv (h : s.Inv config) (spec : ModelSpec) {ph : Phase} (hPermits : ph.permits = 0)
    (hLocks : ph.locks = 0) (hCount : ph.leaseCount = 0)
    (hOk : ∀ sup, ph.Ok config spec sup) : (s.begin spec ph).Inv config where
  permits := by
    have := h.permits
    show s.sup.permits + total _ (s.tasks ++ [⟨spec, ph⟩]) = _
    rw [total_append]
    dsimp only
    omega
  locks := by
    show total _ (s.tasks ++ [⟨spec, ph⟩]) = _
    rw [total_append]
    dsimp only
    rw [hLocks]
    exact h.locks
  inFlight := by
    show _ = total _ (s.tasks ++ [⟨spec, ph⟩])
    rw [total_append]
    dsimp only
    rw [hCount]
    exact h.inFlight
  ok := by
    intro i task hTask
    rcases Nat.lt_or_ge i s.tasks.length with hOld | hNew
    · rw [show (s.begin spec ph).tasks = s.tasks ++ [⟨spec, ph⟩] from rfl,
        List.getElem?_append_left hOld] at hTask
      exact h.ok i task hTask
    · rw [show (s.begin spec ph).tasks = s.tasks ++ [⟨spec, ph⟩] from rfl,
        List.getElem?_append_right hNew] at hTask
      rw [List.mem_singleton.mp (List.mem_of_getElem? hTask)]
      exact hOk _
  killed := h.killed
  state := h.state
  processes_nodup := h.processes_nodup
  processes_pid := h.processes_pid
  known := by
    intro proc hMem
    rcases h.known proc hMem with hSome | ⟨i, task, hTask, hOwns⟩
    · exact .inl hSome
    · refine .inr ⟨i, task, ?_, hOwns⟩
      show (s.tasks ++ [_])[i]? = some task
      rw [List.getElem?_append_left (List.getElem?_eq_some_iff.mp hTask).1]
      exact hTask

theorem new_inv (config : SupervisorConfig) : SupervisorSystem.new.Inv config where
  permits := rfl
  locks := rfl
  inFlight := rfl
  ok := fun _ _ hTask => by cases hTask
  killed := fun _ hPid => by cases hPid
  state := fun _ hSome => by cases hSome
  processes_nodup := List.nodup_nil
  processes_pid := fun _ hMem => by cases hMem
  known := fun _ hMem => by cases hMem

theorem step_inv (h : s.Inv config) (event : SupervisorEvent) : (s.step config event).Inv config := by
  rcases event with spec | - | - | ⟨i, sys⟩ | pid | pinned | active
  · exact begin_inv h spec rfl rfl rfl fun _ => trivial
  · exact begin_inv h _ rfl rfl rfl fun _ => trivial
  · exact begin_inv h _ rfl rfl rfl fun _ => trivial
  · exact stepTask_inv h sys i
  · exact ⟨h.permits, h.locks, h.inFlight,
      fun i task hTask => ok_congr rfl rfl rfl id (h.ok i task hTask), h.killed,
      fun proc hSome => ⟨(h.state proc hSome).launched, (h.state proc hSome).alive,
        (h.state proc hSome).pid⟩, h.processes_nodup.filter _,
      fun proc hMem => h.processes_pid proc (List.mem_of_mem_filter hMem),
      fun proc hMem => h.known proc (List.mem_of_mem_filter hMem)⟩
  · exact ⟨h.permits, h.locks, h.inFlight,
      fun i task hTask => ok_congr rfl rfl rfl id (h.ok i task hTask), h.killed,
      fun proc hSome => ⟨(h.state proc hSome).launched, (h.state proc hSome).alive,
        (h.state proc hSome).pid⟩, h.processes_nodup, h.processes_pid, h.known⟩
  · exact ⟨h.permits, h.locks, h.inFlight,
      fun i task hTask => ok_congr rfl rfl rfl id (h.ok i task hTask), h.killed,
      fun proc hSome => ⟨(h.state proc hSome).launched, (h.state proc hSome).alive,
        (h.state proc hSome).pid⟩, h.processes_nodup, h.processes_pid, h.known⟩

theorem run_inv (h : s.Inv config) (events : List SupervisorEvent) :
    (s.run config events).Inv config := by
  induction events generalizing s with
  | nil => exact h
  | cons event events ih => exact ih (step_inv h event)

theorem mem_leases {lease : Lease} (hLease : lease ∈ s.leases) :
    ∃ (i : Nat) (task : Task), s.tasks[i]? = some task ∧ task.phase.lease = some lease.process ∧
      task.spec = lease.requested := by
  obtain ⟨task, hTask, hOf⟩ := List.mem_filterMap.mp hLease
  obtain ⟨i, hi⟩ := List.mem_iff_getElem?.mp hTask
  obtain ⟨proc, hProc, rfl⟩ := Option.map_eq_some_iff.mp hOf
  exact ⟨i, task, hi, hProc, rfl⟩

/-- Of two processes that run, each is in the state or owned by the one task with the lock. -/
theorem processes_eq (h : s.Inv config) {a b : SidecarProcess} (ha : a ∈ s.sup.processes)
    (hb : b ∈ s.sup.processes) : a = b := by
  rcases h.known a ha with hSome | ⟨i, task, hi, hOwned⟩
  · rcases h.known b hb with hSome' | ⟨i, task, hi, hOwned⟩
    · rw [hSome] at hSome'
      exact Option.some.inj hSome'
    · exact known_of_owned h hi hOwned ha
  · exact (known_of_owned h hi hOwned hb).symm

theorem leases_length (tasks : List Task) :
    (tasks.filterMap Task.lease).length = total (fun task => task.phase.leaseCount) tasks := by
  unfold total
  induction tasks with
  | nil => rfl
  | cons task rest ih =>
    rw [List.map_cons, List.sum_cons, ← ih]
    unfold Phase.leaseCount
    rcases hLease : task.phase.lease with - | proc
    · rw [List.filterMap_cons_none (by unfold Task.lease; rw [hLease]; rfl)]
      simp
    · rw [List.filterMap_cons_some (b := ⟨task.spec, proc⟩)
        (by unfold Task.lease; rw [hLease]; rfl)]
      simp [Nat.add_comm]

theorem safe_of_inv (h : s.Inv config) : s.Safe config where
  not_killed := by
    intro lease hLease
    obtain ⟨i, task, hi, hProc, -⟩ := mem_leases hLease
    exact (h.state _ (lease_ok (h.ok i task hi) hProc).1).alive
  one_process := by
    rcases hProcesses : s.sup.processes with - | ⟨a, - | ⟨b, rest⟩⟩
    · exact Nat.zero_le _
    · exact Nat.le_refl _
    · have hNodup := h.processes_nodup
      rw [hProcesses] at hNodup
      have hEq : a = b := processes_eq h (by rw [hProcesses]; simp) (by rw [hProcesses]; simp)
      exact absurd (hEq ▸ List.mem_cons_self) (List.nodup_cons.mp hNodup).1
  bound := by
    intro lease hLease
    obtain ⟨i, task, hi, hProc, hSpec⟩ := mem_leases hLease
    obtain ⟨-, hCompatible, hArgs⟩ := lease_ok (h.ok i task hi) hProc
    rw [← hSpec]
    exact ⟨hCompatible, hArgs⟩
  same_spec := by
    intro lease hLease modelsRoot hRunning hRequested
    obtain ⟨i, task, hi, hProc, hSpec⟩ := mem_leases hLease
    have hCompatible := (lease_ok (h.ok i task hi) hProc).2.compatible
    rw [hSpec] at hCompatible
    exact spec_eq_of_not_needsRestart hRunning hRequested hCompatible
  in_flight := h.inFlight.trans (leases_length s.tasks).symm

/-- A request that waits for the evictor, starts the sidecar and is served. -/
example :
    let config : SupervisorConfig := ⟨⟨true, true, true, .enumOnOffAuto⟩, 100, 0⟩
    let sys : SystemAnswer := ⟨none, true, true, 8080, 500, false⟩
    (SupervisorSystem.new.run config ([.maybeEvict, .acquire default] ++
      (List.replicate 2 (.step 0 sys)) ++ (List.replicate 5 (.step 1 sys)) ++
      (List.replicate 4 (.step 0 sys)) ++ (List.replicate 9 (.step 1 sys)))).leases.length = 1 := by
  decide +kernel

end ScreenSearch.Inference
