import ScreenSearch.Kernel.WorkerLifecycle

/-!
# One live worker pool

A pool is in the slot or a caller is stopping it until its tasks have ended. So when a start
that has found the slot empty comes to its startup sweep, the only pools alive are those that
other callers still drain; where there are none, no job has a worker, and the pool it spawns is
the only one.

Main results:

* `task_workersInv`, `sweep_workersInv`, `spawn_workersInv` — what the steps keep;
* `one_live_pool` — in every careful run one pool is alive, and no job has two workers.
-/

namespace ScreenSearch.Kernel

open Store

variable {s : WorkersState} {p : PoolState} {pool pool' : Pool} {i k : Nat} {phase old : CallerPhase}

/-- Holds the lock of the handle. -/
def CallerPhase.locked : CallerPhase → Bool
  | .loading | .sweeping _ | .spawning _ => true
  | _ => false

structure WorkersState.PoolsInv (s : WorkersState) : Prop where
  ids : (s.tables.jobs.map Job.id).Nodup
  pools : ∀ pool ∈ s.pools, (s.view pool).Inv
  one : ∀ (k k' : Nat) (pool pool' : Pool), s.pools[k]? = some pool → s.pools[k']? = some pool' →
    ¬ pool.tasks.Drained → ¬ pool'.tasks.Drained → k = k'

structure WorkersState.CallersInv (s : WorkersState) : Prop where
  owned : ∀ (k : Nat) (pool : Pool), s.pools[k]? = some pool → ¬ pool.tasks.Drained →
    s.slot = some k ∨ ∃ phase ∈ s.callers, phase.stops = some k
  locked : ∀ (i : Nat) (phase : CallerPhase), s.callers[i]? = some phase → phase.locked = true →
    s.lock = some i ∧ s.slot = none
  spawning : ∀ concurrency, .spawning concurrency ∈ s.callers → ∀ pool ∈ s.pools,
    pool.tasks.Drained

/-! ## Pools that have drained -/

theorem drained_worker (h : p.tasks.Drained) {w : Nat} {worker : PoolWorker}
    (hw : p.tasks.workers[w]? = some worker) : worker = .exited :=
  h.1 worker (List.mem_of_getElem? hw)

/-- No loop of a drained pool takes a step. -/
theorem drained_step (h : p.tasks.Drained) {e : PoolEvent} (hLoop : e.ofLoop = true) :
    p.step e = p := by
  have hNone : ∀ {w : Nat} {worker : PoolWorker}, worker ≠ .exited →
      p.tasks.workers[w]? ≠ some worker := fun hOther hw => hOther (drained_worker h hw)
  cases e
  case stop => cases hLoop
  case tick => cases hLoop
  case enqueue => cases hLoop
  case insertFrame => cases hLoop
  case deleteFrame => cases hLoop
  case cancelPendingVision => cases hLoop
  all_goals
    unfold PoolState.step
    dsimp only
  case sweepTest => rw [h.2]
  case sweepUpdate => rw [h.2]
  case sweepExit => rw [h.2]
  all_goals
    split
    · next hw => exact absurd hw (hNone PoolWorker.noConfusion)
    · rfl

theorem drained_unsettledAt (h : p.tasks.Drained) (w : Nat) : p.unsettledAt w = none := by
  refine Option.bind_eq_none_iff.mpr fun worker hw => ?_
  rw [drained_worker h hw]
  rfl

/-- The tables may be changed when a pool has drained. -/
theorem drained_tables (h : (s.view pool).Inv) (hDrained : pool.tasks.Drained) {tables : JobTables}
    (hIds : (tables.jobs.map Job.id).Nodup) : ({ s with tables := tables }.view pool).Inv := by
  have hNone := drained_unsettledAt (p := s.view pool) hDrained
  exact tables_poolInv h hIds (fun w c hw => by cases (hNone w).symm.trans hw)
    (fun w c hw => by cases (hNone w).symm.trans hw) fun _ hOld => hOld

/-! ## Steps of the pools -/

theorem loop_clock {e : PoolEvent} (hLoop : e.ofLoop = true) : (p.step e).clock = p.clock := by
  have hClaim : ∀ w kinds now, (p.claim w kinds now).clock = p.clock := by
    intro w kinds now
    unfold PoolState.claim
    split <;> rfl
  cases e
  case tick => cases hLoop
  case enqueue => cases hLoop
  case claim w kinds now broken =>
    unfold PoolState.step
    dsimp only
    split
    · split
      · rfl
      · exact hClaim w kinds now
    · rfl
  all_goals
    unfold PoolState.step
    dsimp only
    repeat' split
    all_goals rfl

/-- What a loop makes of its pool is what the pool sees after the step. -/
theorem view_stepPool {e : PoolEvent} (hClock : ((s.view pool).step e).clock = s.clock) :
    (s.stepPool k pool e).view ((s.view pool).step e).pool = (s.view pool).step e := by
  show (⟨_, s.clock, _, _⟩ : PoolState) = _
  rw [← hClock]
  rfl

theorem get_stepPool (hk : s.pools[k]? = some pool) (e : PoolEvent) (j : Nat) :
    (s.stepPool k pool e).pools[j]? =
      if k = j then some ((s.view pool).step e).pool else s.pools[j]? := by
  show (s.pools.set k _)[j]? = _
  rw [List.getElem?_set]
  split
  · next hSame =>
    subst hSame
    rw [if_pos (List.getElem?_eq_some_iff.mp hk).1]
  · rfl

/-- The rest of the program does not change the tasks. -/
theorem rest_tasks {e : PoolEvent} (hRest : e.ofRest = true) : (p.step e).tasks = p.tasks := by
  cases e
  case tick => rfl
  case insertFrame => rfl
  case deleteFrame => rfl
  case cancelPendingVision => rfl
  case enqueue job =>
    unfold PoolState.step
    dsimp only
    split <;> rfl
  all_goals cases hRest

/-- What the rest of the program does is the same to every pool. -/
theorem view_stepRest {e : PoolEvent} (hRest : e.ofRest = true) :
    (s.stepRest e).view ((s.view pool).step e).pool = (s.view pool).step e := by
  cases e
  case tick => rfl
  case insertFrame => rfl
  case deleteFrame => rfl
  case cancelPendingVision => rfl
  case enqueue job =>
    unfold WorkersState.stepRest WorkersState.view PoolState.pool PoolState.step
    dsimp only
    cases enqueueJob job s.clock s.tables <;> rfl
  all_goals cases hRest

/-- The tasks of every pool end or stay as they were. -/
theorem callersInv_pools (h : s.CallersInv) {pools : List Pool} {tables : JobTables} {clock : Int}
    (hPools : ∀ (k : Nat) (pool' : Pool), pools[k]? = some pool' →
      ∃ pool, s.pools[k]? = some pool ∧ (pool.tasks.Drained → pool'.tasks.Drained)) :
    ({ s with pools := pools, tables := tables, clock := clock } : WorkersState).CallersInv where
  owned := by
    intro k pool' hk hLive
    obtain ⟨pool, hOld, hDrained⟩ := hPools k pool' hk
    exact h.owned k pool hOld fun hEnd => hLive (hDrained hEnd)
  locked := h.locked
  spawning := by
    intro concurrency hSpawning pool' hMem
    obtain ⟨k, hk⟩ := List.mem_iff_getElem?.mp hMem
    obtain ⟨pool, hOld, hDrained⟩ := hPools k pool' hk
    exact hDrained (h.spawning concurrency hSpawning pool (List.mem_of_getElem? hOld))

/-- A pool that has drained stays so. -/
theorem drained_stepPool (hk : s.pools[k]? = some pool) {e : PoolEvent}
    (hDrained : pool.tasks.Drained → ((s.view pool).step e).tasks.Drained) (j : Nat) (pool' : Pool)
    (hj : (s.stepPool k pool e).pools[j]? = some pool') :
    ∃ before, s.pools[j]? = some before ∧ (before.tasks.Drained → pool'.tasks.Drained) := by
  rw [get_stepPool hk] at hj
  split at hj
  · next hSame =>
    obtain rfl := Option.some.inj hj
    exact ⟨pool, hSame ▸ hk, hDrained⟩
  · exact ⟨pool', hj, id⟩

theorem one_of_drained (h : s.PoolsInv) {pools : List Pool}
    (hPools : ∀ (k : Nat) (pool' : Pool), pools[k]? = some pool' →
      ∃ pool, s.pools[k]? = some pool ∧ (pool.tasks.Drained → pool'.tasks.Drained))
    (j j' : Nat) (a a' : Pool) (hj : pools[j]? = some a) (hj' : pools[j']? = some a')
    (hLive : ¬ a.tasks.Drained) (hLive' : ¬ a'.tasks.Drained) : j = j' := by
  obtain ⟨before, hOld, hDrained⟩ := hPools j a hj
  obtain ⟨before', hOld', hDrained'⟩ := hPools j' a' hj'
  exact h.one j j' before before' hOld hOld' (fun hEnd => hLive (hDrained hEnd))
    fun hEnd => hLive' (hDrained' hEnd)

theorem task_poolsInv (h : s.PoolsInv) (hk : s.pools[k]? = some pool) {e : PoolEvent}
    (hLoop : e.ofLoop = true) (hTimely : (s.view pool).Timely)
    (hCareful : (s.view pool).CarefulStep e) : (s.stepPool k pool e).PoolsInv := by
  have hMem := List.mem_of_getElem? hk
  have hNext := step_poolInv (h.pools pool hMem) hTimely e hCareful
  refine ⟨hNext.ids, ?_, ?_⟩
  · intro pool' hMem'
    obtain ⟨j, hj⟩ := List.mem_iff_getElem?.mp hMem'
    rw [get_stepPool hk] at hj
    split at hj
    · obtain rfl := Option.some.inj hj
      rw [view_stepPool (loop_clock hLoop)]
      exact hNext
    · next hOther =>
      have hOld := h.pools pool' (List.mem_of_getElem? hj)
      -- only one of the two pools is alive
      by_cases hDrained : pool.tasks.Drained
      · have hSame : (s.stepPool k pool e).view pool' = s.view pool' := by
          show ({ s with tables := ((s.view pool).step e).tables } : WorkersState).view pool' = _
          rw [drained_step (p := s.view pool) hDrained hLoop]
          rfl
        rw [hSame]
        exact hOld
      · have hDrained' : pool'.tasks.Drained :=
          not_not.mp fun hLive => hOther (h.one k j pool pool' hk hj hDrained hLive)
        exact drained_tables hOld hDrained' hNext.ids
  · refine one_of_drained h (drained_stepPool hk fun hDrained => ?_)
    rw [drained_step (p := s.view pool) hDrained hLoop]
    exact hDrained

theorem signal_poolsInv (h : s.PoolsInv) (hk : s.pools[k]? = some pool) :
    (s.stepPool k pool .stop).PoolsInv := by
  have hNext := stop_poolInv (h.pools pool (List.mem_of_getElem? hk))
  refine ⟨h.ids, ?_, one_of_drained h (drained_stepPool hk id)⟩
  intro pool' hMem'
  obtain ⟨j, hj⟩ := List.mem_iff_getElem?.mp hMem'
  rw [get_stepPool hk] at hj
  split at hj
  · obtain rfl := Option.some.inj hj
    exact hNext
  · exact h.pools pool' (List.mem_of_getElem? hj)

theorem drained_stepRest {e : PoolEvent} (hRest : e.ofRest = true) (j : Nat) (pool' : Pool)
    (hj : (s.stepRest e).pools[j]? = some pool') :
    ∃ before, s.pools[j]? = some before ∧ (before.tasks.Drained → pool'.tasks.Drained) := by
  obtain ⟨before, hOld, rfl⟩ := Option.map_eq_some_iff.mp (List.getElem?_map .. ▸ hj)
  refine ⟨before, hOld, fun hDrained => ?_⟩
  show ((s.view before).step e).tasks.Drained
  rw [rest_tasks hRest]
  exact hDrained

theorem rest_poolsInv (h : s.PoolsInv) {e : PoolEvent} (hRest : e.ofRest = true)
    (hIds : ((s.stepRest e).tables.jobs.map Job.id).Nodup)
    (hCareful : ∀ pool ∈ s.pools, (s.view pool).Timely ∧ (s.view pool).CarefulStep e) :
    (s.stepRest e).PoolsInv := by
  refine ⟨hIds, ?_, one_of_drained h (drained_stepRest hRest)⟩
  intro pool' hMem'
  obtain ⟨pool, hMem, rfl⟩ := List.mem_map.mp hMem'
  rw [view_stepRest hRest]
  exact step_poolInv (h.pools pool hMem) (hCareful pool hMem).1 e (hCareful pool hMem).2

theorem stepRest_ids (hIds : (s.tables.jobs.map Job.id).Nodup) (e : PoolEvent) :
    ((s.stepRest e).tables.jobs.map Job.id).Nodup := by
  have hIdle : ∀ worker ∈ (PoolState.start s.tables s.clock 0).tasks.workers, worker = .idle :=
    fun worker hMem => List.eq_of_mem_replicate hMem
  have hTimely : (PoolState.start s.tables s.clock 0).Timely := by
    intro worker hMem c hc
    rw [hIdle worker hMem] at hc
    cases hc
  have hCareful : (PoolState.start s.tables s.clock 0).CarefulStep e := by
    cases e
    case enqueue job =>
      intro made _ worker hMem c hc
      rw [hIdle worker hMem] at hc
      cases hc
    case claim w kinds now broken =>
      intro _ _ job _ worker hMem c hc
      rw [hIdle worker hMem] at hc
      cases hc
    case sweepUpdate broken =>
      intro _ worker hMem c hc
      rw [hIdle worker hMem] at hc
      cases hc
    all_goals trivial
  exact (step_poolInv (start_poolInv hIds s.clock 0) hTimely e hCareful).ids

/-! ## Steps of the callers -/

theorem get_setCaller (hi : s.callers[i]? = some old) (phase : CallerPhase) (j : Nat) :
    (s.callers.set i phase)[j]? = if i = j then some phase else s.callers[j]? := by
  rw [List.getElem?_set]
  split
  · next hSame =>
    subst hSame
    rw [if_pos (List.getElem?_eq_some_iff.mp hi).1]
  · rfl

/-- Another caller still stops its pool after the step of one. -/
theorem stops_set (hi : s.callers[i]? = some old) (phase : CallerPhase)
    (hStops : old.stops ≠ some k) (h : ∃ phase ∈ s.callers, phase.stops = some k) :
    ∃ phase' ∈ s.callers.set i phase, phase'.stops = some k := by
  obtain ⟨other, hMem, hOther⟩ := h
  obtain ⟨j, hj⟩ := List.mem_iff_getElem?.mp hMem
  refine ⟨other, List.mem_of_getElem? (i := j) ?_, hOther⟩
  rw [get_setCaller hi, if_neg, hj]
  rintro rfl
  obtain rfl := Option.some.inj (hi.symm.trans hj)
  exact hStops hOther

/-- A caller that goes on without the lock, or with the one it has. -/
theorem setCaller_callersInv (h : s.CallersInv) (hi : s.callers[i]? = some old)
    (hStops : ∀ (k : Nat) (pool : Pool), old.stops = some k → s.pools[k]? = some pool →
      ¬ pool.tasks.Drained → phase.stops = some k)
    (hLocked : phase.locked = true → old.locked = true)
    (hSpawning : ∀ concurrency, phase = .spawning concurrency → ∀ pool ∈ s.pools,
      pool.tasks.Drained) : (s.setCaller i phase).CallersInv where
  owned := by
    intro k pool hk hLive
    by_cases hOwn : old.stops = some k
    · refine .inr ⟨phase, List.mem_of_getElem? (i := i) ?_, hStops k pool hOwn hk hLive⟩
      show (s.callers.set i phase)[i]? = some phase
      rw [get_setCaller hi, if_pos rfl]
    · rcases h.owned k pool hk hLive with hSlot | hOther
      · exact .inl hSlot
      · exact .inr (stops_set hi phase hOwn hOther)
  locked := by
    intro j other hj hOther
    have hj' : (s.callers.set i phase)[j]? = some other := hj
    rw [get_setCaller hi] at hj'
    split at hj'
    · next hSame =>
      obtain rfl := Option.some.inj hj'
      exact hSame ▸ h.locked i old hi (hLocked hOther)
    · exact h.locked j other hj' hOther
  spawning := by
    intro concurrency hMem
    obtain ⟨j, hj⟩ := List.mem_iff_getElem?.mp hMem
    have hj' : (s.callers.set i phase)[j]? = some _ := hj
    rw [get_setCaller hi] at hj'
    split at hj'
    · exact hSpawning concurrency (Option.some.inj hj')
    · exact h.spawning concurrency (List.mem_of_getElem? hj')

/-- A stop is over. -/
theorem afterStop_callersInv (h : s.CallersInv) (hi : s.callers[i]? = some old) (restart : Bool)
    (hDrained : ∀ (k : Nat) (pool : Pool), old.stops = some k → s.pools[k]? = some pool →
      pool.tasks.Drained) : (s.setCaller i (afterStop restart)).CallersInv := by
  refine setCaller_callersInv h hi
    (fun k pool hStops hk hLive => absurd (hDrained k pool hStops hk) hLive) ?_ ?_
  · intro hLocked
    cases restart <;> cases hLocked
  · intro concurrency hSpawning
    cases restart <;> cases hSpawning

theorem take_callersInv (h : s.CallersInv) {restart : Bool}
    (hi : s.callers[i]? = some (.stopping restart)) (hLock : s.lock = none) :
    (s.take i restart).CallersInv := by
  unfold WorkersState.take
  split
  case h_2 =>
    exact afterStop_callersInv h hi restart fun _ _ hStops => (by cases hStops)
  case h_1 k hSlot =>
    have hGone : ∀ (j : Nat) (other : CallerPhase), s.callers[j]? = some other →
        other.locked = true → False := by
      intro j other hj hOther
      cases hLock.symm.trans (h.locked j other hj hOther).1
    have hNew : (s.callers.set i (.took k restart))[i]? = some (.took k restart) := by
      rw [get_setCaller hi, if_pos rfl]
    refine ⟨?_, ?_, ?_⟩
    · intro j pool hj hLive
      rcases h.owned j pool hj hLive with hOld | hOther
      · obtain rfl := Option.some.inj (hSlot.symm.trans hOld)
        exact .inr ⟨_, List.mem_of_getElem? hNew, rfl⟩
      · exact .inr (stops_set hi _ (fun hStops => by cases hStops) hOther)
    · intro j other hj hOther
      have hj' : (s.callers.set i (.took k restart))[j]? = some other := hj
      rw [get_setCaller hi] at hj'
      split at hj'
      · obtain rfl := Option.some.inj hj'
        cases hOther
      · exact (hGone j other hj' hOther).elim
    · intro concurrency hMem
      obtain ⟨j, hj⟩ := List.mem_iff_getElem?.mp hMem
      have hj' : (s.callers.set i (.took k restart))[j]? = some _ := hj
      rw [get_setCaller hi] at hj'
      split at hj'
      · cases hj'
      · exact (hGone j _ hj' rfl).elim

/-- A caller takes or gives back the lock, or puts a pool in the slot; no one else has it. -/
theorem lock_callersInv (h : s.CallersInv) (hi : s.callers[i]? = some old)
    (hOwn : s.lock = none ∨ s.lock = some i) (hStops : old.stops = none)
    {lock slot : Option Nat} (hSlot : s.slot = none ∨ slot = s.slot)
    (hLocked : phase.locked = true → lock = some i ∧ slot = none)
    (hSpawning : ∀ concurrency, phase ≠ .spawning concurrency) :
    ({ s with lock := lock, slot := slot }.setCaller i phase).CallersInv := by
  have hGone : ∀ (j : Nat) (other : CallerPhase), i ≠ j → s.callers[j]? = some other →
      other.locked = true → False := by
    intro j other hOther hj hLocked
    have hLock := (h.locked j other hj hLocked).1
    rcases hOwn with hNone | hSome
    · cases hNone.symm.trans hLock
    · exact hOther (Option.some.inj (hSome.symm.trans hLock))
  refine ⟨?_, ?_, ?_⟩
  · intro k pool hk hLive
    rcases h.owned k pool hk hLive with hOld | hOther
    · rcases hSlot with hNone | rfl
      · cases hNone.symm.trans hOld
      · exact .inl hOld
    · exact .inr (stops_set hi _ (fun hSome => by cases hStops.symm.trans hSome) hOther)
  · intro j other hj hOther
    have hj' : (s.callers.set i phase)[j]? = some other := hj
    rw [get_setCaller hi] at hj'
    split at hj'
    · next hSame =>
      obtain rfl := Option.some.inj hj'
      exact hSame ▸ hLocked hOther
    · next hNot => exact (hGone j other hNot hj' hOther).elim
  · intro concurrency hMem
    obtain ⟨j, hj⟩ := List.mem_iff_getElem?.mp hMem
    have hj' : (s.callers.set i phase)[j]? = some _ := hj
    rw [get_setCaller hi] at hj'
    split at hj'
    · exact absurd (Option.some.inj hj') (hSpawning concurrency)
    · next hNot => exact (hGone j _ hNot hj' rfl).elim

/-! ## Runs -/

theorem call_callersInv (h : s.CallersInv) (call : WorkersCall) : (s.call call).CallersInv := by
  have hBegin : ∀ {j : Nat} {phase : CallerPhase},
      (s.callers ++ [call.begin])[j]? = some phase → phase.locked = true →
        s.callers[j]? = some phase := by
    intro j phase hj hLocked
    rcases Nat.lt_or_ge j s.callers.length with hLt | hGe
    · rwa [List.getElem?_append_left hLt] at hj
    · rw [List.getElem?_append_right hGe] at hj
      rw [List.mem_singleton.mp (List.mem_of_getElem? hj)] at hLocked
      cases call <;> cases hLocked
  refine ⟨?_, ?_, ?_⟩
  · intro k pool hk hLive
    rcases h.owned k pool hk hLive with hSlot | ⟨phase, hMem, hStops⟩
    · exact .inl hSlot
    · exact .inr ⟨phase, List.mem_append_left _ hMem, hStops⟩
  · intro j phase hj hLocked
    exact h.locked j phase (hBegin hj hLocked) hLocked
  · intro concurrency hMem
    obtain ⟨j, hj⟩ := List.mem_iff_getElem?.mp hMem
    exact h.spawning concurrency (List.mem_of_getElem? (hBegin hj rfl))

theorem take_poolsInv (h : s.PoolsInv) (i : Nat) (restart : Bool) :
    (s.take i restart).PoolsInv := by
  unfold WorkersState.take
  split <;> exact ⟨h.ids, h.pools, h.one⟩

theorem sweep_workersInv (h : s.PoolsInv) (hCallers : s.CallersInv) {concurrency : Nat}
    (hi : s.callers[i]? = some (.sweeping concurrency)) (broken : Bool)
    (hCareful : s.CarefulStep (.sweep i broken)) :
    (s.sweepAll i concurrency broken).PoolsInv ∧ (s.sweepAll i concurrency broken).CallersInv := by
  have hAll : ∀ pool ∈ s.pools, pool.tasks.Drained := by
    intro pool hMem
    obtain ⟨k, hk⟩ := List.mem_iff_getElem?.mp hMem
    by_contra hLive
    rcases hCallers.owned k pool hk hLive with hSlot | ⟨phase, hPhase, hStops⟩
    · cases (hCallers.locked i _ hi rfl).2.symm.trans hSlot
    · exact hLive (hCareful (by rw [hi]; rfl) phase hPhase k hStops pool hk)
  unfold WorkersState.sweepAll
  generalize hTables : (if broken then s.tables else _) = tables
  have hIds : (tables.jobs.map Job.id).Nodup := by
    rw [← hTables]
    split
    · exact h.ids
    · exact @updateJobs_nodup (stale 0 s.clock)
        (fun job => { job with state := .pending, updatedAt := s.clock }) (fun _ => rfl) _ h.ids
  refine ⟨⟨hIds, fun pool hMem => ?_, h.one⟩, ?_⟩
  · exact drained_tables (h.pools pool hMem) (hAll pool hMem) hIds
  · exact setCaller_callersInv
      (callersInv_pools hCallers fun k pool hk => ⟨pool, hk, id⟩) hi
      (fun _ _ hStops => by cases hStops) (fun _ => rfl) fun _ _ => hAll

theorem spawn_workersInv (h : s.PoolsInv) (hCallers : s.CallersInv) {concurrency : Nat}
    (hi : s.callers[i]? = some (.spawning concurrency)) :
    (s.spawn i concurrency).PoolsInv ∧ (s.spawn i concurrency).CallersInv := by
  have hAll := hCallers.spawning concurrency (List.mem_of_getElem? hi)
  obtain ⟨hLock, hSlot⟩ := hCallers.locked i _ hi rfl
  have hLast : ∀ (k : Nat) (pool : Pool), (s.pools ++ [Pool.spawn concurrency])[k]? = some pool →
      ¬ pool.tasks.Drained → k = s.pools.length := by
    intro k pool hk hLive
    rcases Nat.lt_or_ge k s.pools.length with hLt | hGe
    · rw [List.getElem?_append_left hLt] at hk
      exact absurd (hAll pool (List.mem_of_getElem? hk)) hLive
    · have hLt := (List.getElem?_eq_some_iff.mp hk).1
      rw [List.length_append, List.length_singleton] at hLt
      omega
  have hReturned : ({ s with lock := none, slot := some s.pools.length }.setCaller i
      .returned).CallersInv :=
    lock_callersInv hCallers hi (.inr hLock) rfl (.inl hSlot) (fun hLocked => by cases hLocked)
      fun _ => CallerPhase.noConfusion
  refine ⟨⟨h.ids, ?_, ?_⟩, ?_, hReturned.locked, ?_⟩
  · intro pool hMem
    rcases List.mem_append.mp hMem with hOld | hNew
    · exact h.pools pool hOld
    · rw [List.mem_singleton.mp hNew]
      exact start_poolInv h.ids s.clock concurrency
  · intro k k' pool pool' hk hk' hLive hLive'
    rw [hLast k pool hk hLive, hLast k' pool' hk' hLive']
  · intro k pool hk hLive
    exact .inl (congrArg some (hLast k pool hk hLive).symm)
  · intro other hMem
    obtain ⟨j, hj⟩ := List.mem_iff_getElem?.mp hMem
    cases (hReturned.locked j _ hj rfl).1

theorem step_workersInv (h : s.PoolsInv) (hCallers : s.CallersInv) (e : WorkersEvent)
    (hCareful : s.CarefulStep e) : (s.step e).PoolsInv ∧ (s.step e).CallersInv := by
  have hSet : ∀ {q : WorkersState}, q.PoolsInv → ∀ i phase, (q.setCaller i phase).PoolsInv :=
    fun hq _ _ => ⟨hq.ids, hq.pools, hq.one⟩
  cases e
  all_goals
    unfold WorkersState.step
    dsimp only
  case call call => exact ⟨⟨h.ids, h.pools, h.one⟩, call_callersInv hCallers call⟩
  case take i =>
    split
    · next hi hLock => exact ⟨take_poolsInv h i _, take_callersInv hCallers hi hLock⟩
    · exact ⟨h, hCallers⟩
  case signal i =>
    split
    · next k restart hi =>
      split
      · next pool hk =>
        refine ⟨hSet (signal_poolsInv h hk) _ _, setCaller_callersInv
          (callersInv_pools hCallers (drained_stepPool hk id)) hi
          (fun _ _ hStops _ _ => hStops) (fun hLocked => by cases hLocked)
          fun _ hSpawning => by cases hSpawning⟩
      · exact ⟨h, hCallers⟩
    · exact ⟨h, hCallers⟩
  case join i =>
    split
    · next k restart hi =>
      split
      · -- a stop ends only when no loop of the pool is left
        next hDrained =>
        refine ⟨hSet h _ _, afterStop_callersInv hCallers hi restart fun j pool hStops hj => ?_⟩
        obtain rfl := Option.some.inj hStops
        exact hDrained pool hj
      · exact ⟨h, hCallers⟩
    · exact ⟨h, hCallers⟩
  case lock i =>
    split
    · next hi hLock =>
      split
      · exact ⟨hSet h _ _, setCaller_callersInv hCallers hi (fun _ _ hStops => by cases hStops)
          (fun hLocked => by cases hLocked) fun _ hSpawning => by cases hSpawning⟩
      · -- there is no pool: the caller keeps the lock and makes one
        next hSlot =>
        have hNone := Option.not_isSome_iff_eq_none.mp hSlot
        refine ⟨⟨h.ids, h.pools, h.one⟩, ?_⟩
        exact lock_callersInv hCallers hi (.inl hLock) rfl (.inl hNone) (fun _ => ⟨rfl, hNone⟩)
          fun _ => CallerPhase.noConfusion
    · exact ⟨h, hCallers⟩
  case load i enrichEmbedText concurrency =>
    split
    · next hi =>
      split
      · exact ⟨hSet h _ _, setCaller_callersInv hCallers hi (fun _ _ hStops => by cases hStops)
          (fun _ => rfl) fun _ hSpawning => by cases hSpawning⟩
      · refine ⟨⟨h.ids, h.pools, h.one⟩, ?_⟩
        exact lock_callersInv hCallers hi (.inr (hCallers.locked i _ hi rfl).1) rfl (.inr rfl)
          (fun hLocked => by cases hLocked) fun _ => CallerPhase.noConfusion
    · exact ⟨h, hCallers⟩
  case sweep i broken =>
    split
    · next hi => exact sweep_workersInv h hCallers hi broken hCareful
    · exact ⟨h, hCallers⟩
  case spawn i =>
    split
    · next hi => exact spawn_workersInv h hCallers hi
    · exact ⟨h, hCallers⟩
  case task k e =>
    split
    · next pool hk =>
      split
      · next hLoop =>
        obtain ⟨hTimely, hStep⟩ := hCareful pool hk
        refine ⟨task_poolsInv h hk hLoop hTimely hStep,
          callersInv_pools hCallers (drained_stepPool hk fun hDrained => ?_)⟩
        rw [drained_step (p := s.view pool) hDrained hLoop]
        exact hDrained
      · exact ⟨h, hCallers⟩
    · exact ⟨h, hCallers⟩
  case rest e =>
    split
    · next hRest =>
      exact ⟨rest_poolsInv h hRest (stepRest_ids h.ids e) hCareful,
        callersInv_pools hCallers (drained_stepRest hRest)⟩
    · exact ⟨h, hCallers⟩

theorem run_workersInv (h : s.PoolsInv) (hCallers : s.CallersInv) (events : List WorkersEvent)
    (hCareful : s.Careful events) : (s.run events).PoolsInv := by
  induction events generalizing s with
  | nil => exact h
  | cons e rest ih =>
    obtain ⟨hNext, hNextCallers⟩ := step_workersInv h hCallers e hCareful.1
    exact ih hNext hNextCallers hCareful.2

theorem exclusive_of_poolsInv (h : s.PoolsInv) : s.Exclusive where
  one_pool := by
    rintro k k' pool pool' hk hk' ⟨worker, hMem, hLive⟩ ⟨worker', hMem', hLive'⟩
    exact h.one k k' pool pool' hk hk' (fun hDrained => hLive (hDrained.1 worker hMem))
      fun hDrained => hLive' (hDrained.1 worker' hMem')
  not_requeued := by
    intro k w c hw
    obtain ⟨pool, hk, hw⟩ := Option.bind_eq_some_iff.mp hw
    have hPool := h.pools pool (List.mem_of_getElem? hk)
    exact ⟨hPool.running w c hw, hPool.same w c hw⟩
  not_twice := by
    intro k w k' w' c c' hw hw' hOther
    obtain ⟨pool, hk, hw⟩ := Option.bind_eq_some_iff.mp hw
    obtain ⟨pool', hk', hw'⟩ := Option.bind_eq_some_iff.mp hw'
    have hLive : ∀ {pool : Pool} {w : Nat} {c : Claim}, (s.view pool).unsettledAt w = some c →
        ¬ pool.tasks.Drained := by
      intro pool w c hc hDrained
      cases (drained_unsettledAt (p := s.view pool) hDrained w).symm.trans hc
    obtain rfl := h.one k k' pool pool' hk hk' (hLive hw) (hLive hw')
    obtain rfl := Option.some.inj (hk.symm.trans hk')
    refine (h.pools pool (List.mem_of_getElem? hk)).distinct w w' c c' (heldAt_of_unsettledAt hw)
      (heldAt_of_unsettledAt hw') fun hSame => hOther ?_
    rw [hSame]

theorem one_live_pool {tables : JobTables} (hIds : (tables.jobs.map Job.id).Nodup) (clock : Int)
    (events : List WorkersEvent) (hCareful : (WorkersState.start tables clock).Careful events) :
    ((WorkersState.start tables clock).run events).Exclusive := by
  refine exclusive_of_poolsInv (run_workersInv ⟨hIds, ?_, ?_⟩ ⟨?_, ?_, ?_⟩ events hCareful)
  · exact fun pool hMem => (by cases hMem)
  · exact fun k k' pool pool' hk => (by cases hk)
  · exact fun k pool hk => (by cases hk)
  · exact fun i phase hi => (by cases hi)
  · exact fun concurrency hMem => (by cases hMem)

/-! ## What goes wrong otherwise -/

def oneJob : WorkersState := .start contested.tables 0

/-- The embedder is attached, and the first worker of two takes the job. -/
def attached : List WorkersEvent :=
  [.call .attachEmbedder, .take 0, .lock 0, .load 0 true 2, .sweep 0 false, .spawn 0,
    .task 0 (.look 0), .task 0 (.claim 0 [.embedText] 0 false), .task 0 (.register 0),
    .task 0 (.look 1)]

/-- The settings are saved, and the pool drains before the next one is started. -/
def restarted : List WorkersEvent := attached ++
  [.call .reconfigureEnrichment, .take 1, .signal 1, .task 0 (.process 0 (.complete true)),
    .task 0 (.finalize 0 0 false), .task 0 (.release 0), .task 0 (.look 0),
    .task 0 (.claim 1 [.embedText] 0 false), .task 0 (.look 1), .task 0 .sweepExit, .join 1,
    .lock 1, .load 1 true 2, .sweep 1 false, .spawn 1]

/-- The settings are saved, and the inference is attached while the pool drains. -/
def overtaken : List WorkersEvent := attached ++
  [.call .reconfigureEnrichment, .take 1, .signal 1, .call .attachInference, .lock 2,
    .load 2 true 2, .sweep 2 false, .spawn 2, .task 1 (.look 0),
    .task 1 (.claim 0 [.embedText] 0 false)]

theorem restarted_exclusive : (oneJob.run restarted).Exclusive :=
  one_live_pool (by decide) 0 restarted (by decide +kernel)

/-- Two pools are alive, and the job has a worker in each. -/
theorem two_live_pools : ¬ (oneJob.run overtaken).Exclusive := by
  have hTwice : (((oneJob.run overtaken).unsettledAt 0 0).bind fun c =>
      ((oneJob.run overtaken).unsettledAt 1 0).map fun c' => decide (c.job.id = c'.job.id)) =
        some true := by decide +kernel
  intro hExclusive
  obtain ⟨c, hc, hTwice⟩ := Option.bind_eq_some_iff.mp hTwice
  obtain ⟨c', hc', hSame⟩ := Option.map_eq_some_iff.mp hTwice
  exact hExclusive.not_twice 0 0 1 0 c c' hc hc' (by decide) (of_decide_eq_true hSame)

end ScreenSearch.Kernel
