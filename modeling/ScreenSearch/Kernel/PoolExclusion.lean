import ScreenSearch.Kernel.WorkerPool
import ScreenSearch.Store.SearchEffects

/-!
# No job is processed twice at once

The row of a job stays as its claim left it until the claimer records the outcome: other
claims take pending rows, and the sweep requeues only when no job is active, or what is not
old enough. The set of active jobs holds ids, so this rests on ids that are not given out
again, or claimed again, while a worker is still to remove them; and the sweep's look and its
update are two steps, so on no more than the visibility timeout between them.

Main results:

* `finalize_poolInv` — recording an outcome settles the claim, and succeeds if the row is there;
* `step_poolInv` — every careful step keeps the invariant;
* `pool_exclusive` — in every careful run no job is processed twice at once;
* `exclusion_lost` — three runs that are not careful, and where one is.
-/

namespace ScreenSearch.Kernel

open Store

variable {p : PoolState} {w w' : Nat} {c c' : Claim} {s old : PoolWorker}

structure PoolState.Inv (p : PoolState) : Prop where
  ids : (p.tables.jobs.map Job.id).Nodup
  running : ∀ w c, p.unsettledAt w = some c → c.job.state = .running
  kept : ∀ w c, p.unsettledAt w = some c → c.job ∈ p.tables.jobs ∨ c.serial ∈ p.deleted
  same : ∀ w c, p.unsettledAt w = some c → ∀ row ∈ p.tables.jobs, row.id = c.job.id → row = c.job
  distinct : ∀ w w' c c', p.heldAt w = some c → p.heldAt w' = some c' → w ≠ w' →
    c.job.id ≠ c'.job.id
  active : ∀ id, id ∈ p.tasks.active ↔ ∃ w c, p.registeredAt w = some c ∧ c.job.id = id
  joined : ∀ joined, p.tasks.sweep = .updating joined → ∀ w c, p.registeredAt w = some c →
    c.job.id ∈ joined
  claimer : ∀ w c, p.unsettledAt w = some c → p.tasks.claims[c.serial]? = some w
  calls : ∀ serial w, p.tasks.claims[serial]? = some w → p.tasks.callsOf serial =
    if (p.unsettledAt w).map Claim.serial = some serial then 0 else 1
  caller : ∀ call ∈ p.tasks.calls, p.tasks.claims[call.serial]? = some call.worker
  succeeds : ∀ call ∈ p.tasks.calls, call.broken = false → call.serial ∉ p.deleted → call.ok = true

/-! ## What the workers hold -/

theorem held_of_unsettled (h : s.unsettled = some c) : s.held = some c := by
  cases s
  case claimed => exact h
  case processing => exact h
  case finishing => exact h
  all_goals cases h

theorem held_of_registered (h : s.registered = some c) : s.held = some c := by
  cases s
  case processing => exact h
  case finishing => exact h
  case releasing => exact h
  all_goals cases h

theorem heldAt_of_unsettledAt (h : p.unsettledAt w = some c) : p.heldAt w = some c := by
  obtain ⟨s, hs, hUnsettled⟩ := Option.bind_eq_some_iff.mp h
  exact Option.bind_eq_some_iff.mpr ⟨s, hs, held_of_unsettled hUnsettled⟩

theorem heldAt_of_registeredAt (h : p.registeredAt w = some c) : p.heldAt w = some c := by
  obtain ⟨s, hs, hRegistered⟩ := Option.bind_eq_some_iff.mp h
  exact Option.bind_eq_some_iff.mpr ⟨s, hs, held_of_registered hRegistered⟩

/-- A job of a worker is one of a worker in the list. -/
theorem mem_of_heldAt (h : p.heldAt w = some c) : ∃ s ∈ p.tasks.workers, s.held = some c := by
  obtain ⟨s, hs, hHeld⟩ := Option.bind_eq_some_iff.mp h
  exact ⟨s, List.mem_of_getElem? hs, hHeld⟩

theorem get_workers_set (hw : p.tasks.workers[w]? = some old) (s : PoolWorker) (w' : Nat) :
    (p.tasks.workers.set w s)[w']? = if w = w' then some s else p.tasks.workers[w']? := by
  rw [List.getElem?_set]
  split
  · next hSame =>
    subst hSame
    rw [if_pos (List.getElem?_eq_some_iff.mp hw).1]
  · rfl

/-- The tasks after a step of one worker. -/
def PoolState.moved (p : PoolState) (w : Nat) (s : PoolWorker) (tasks : PoolTasks) : PoolState :=
  { p with tasks := { tasks with workers := p.tasks.workers.set w s } }

variable {tasks : PoolTasks}

theorem unsettledAt_moved (hw : p.tasks.workers[w]? = some old) :
    (p.moved w s tasks).unsettledAt w' = if w = w' then s.unsettled else p.unsettledAt w' := by
  show ((p.tasks.workers.set w s)[w']?).bind _ = _
  rw [get_workers_set hw]
  split <;> rfl

theorem registeredAt_moved (hw : p.tasks.workers[w]? = some old) :
    (p.moved w s tasks).registeredAt w' = if w = w' then s.registered else p.registeredAt w' := by
  show ((p.tasks.workers.set w s)[w']?).bind _ = _
  rw [get_workers_set hw]
  split <;> rfl

theorem heldAt_moved (hw : p.tasks.workers[w]? = some old) :
    (p.moved w s tasks).heldAt w' = if w = w' then s.held else p.heldAt w' := by
  show ((p.tasks.workers.set w s)[w']?).bind _ = _
  rw [get_workers_set hw]
  split <;> rfl

theorem unsettledAt_eq (hw : p.tasks.workers[w]? = some old) : p.unsettledAt w = old.unsettled := by
  unfold PoolState.unsettledAt
  rw [hw]
  rfl

theorem registeredAt_eq (hw : p.tasks.workers[w]? = some old) :
    p.registeredAt w = old.registered := by
  unfold PoolState.registeredAt
  rw [hw]
  rfl

theorem heldAt_eq (hw : p.tasks.workers[w]? = some old) : p.heldAt w = old.held := by
  unfold PoolState.heldAt
  rw [hw]
  rfl

/-- A worker that goes on with the same claim leaves what the workers hold as it was. -/
theorem unsettledAt_kept (hw : p.tasks.workers[w]? = some old) (hSame : s.unsettled = old.unsettled)
    (v : Nat) : (p.moved w s tasks).unsettledAt v = p.unsettledAt v := by
  rw [unsettledAt_moved hw]
  split
  · next hOwn => rw [← hOwn, unsettledAt_eq hw, hSame]
  · rfl

theorem registeredAt_kept (hw : p.tasks.workers[w]? = some old)
    (hSame : s.registered = old.registered) (v : Nat) :
    (p.moved w s tasks).registeredAt v = p.registeredAt v := by
  rw [registeredAt_moved hw]
  split
  · next hOwn => rw [← hOwn, registeredAt_eq hw, hSame]
  · rfl

theorem heldAt_kept (hw : p.tasks.workers[w]? = some old) (hSame : s.held = old.held) (v : Nat) :
    (p.moved w s tasks).heldAt v = p.heldAt v := by
  rw [heldAt_moved hw]
  split
  · next hOwn => rw [← hOwn, heldAt_eq hw, hSame]
  · rfl

/-- A worker goes on with what it has. -/
theorem move_poolInv (h : p.Inv) (hw : p.tasks.workers[w]? = some old)
    (hUnsettled : s.unsettled = old.unsettled) (hRegistered : s.registered = old.registered)
    (hHeld : s.held = old.held) : (p.setWorker w s).Inv := by
  have hU : ∀ v, (p.setWorker w s).unsettledAt v = p.unsettledAt v :=
    unsettledAt_kept hw hUnsettled
  have hR : ∀ v, (p.setWorker w s).registeredAt v = p.registeredAt v :=
    registeredAt_kept hw hRegistered
  have hH : ∀ v, (p.setWorker w s).heldAt v = p.heldAt v :=
    heldAt_kept hw hHeld
  refine ⟨h.ids, ?_, ?_, ?_, ?_, ?_, ?_, ?_, ?_, h.caller, h.succeeds⟩
  · intro v c hv
    exact h.running v c (hU v ▸ hv)
  · intro v c hv
    exact h.kept v c (hU v ▸ hv)
  · intro v c hv
    exact h.same v c (hU v ▸ hv)
  · intro v v' c c' hv hv'
    exact h.distinct v v' c c' (hH v ▸ hv) (hH v' ▸ hv')
  · intro id
    simp only [hR]
    exact h.active id
  · intro joined hSweep v c hv
    exact h.joined joined hSweep v c (hR v ▸ hv)
  · intro v c hv
    exact h.claimer v c (hU v ▸ hv)
  · intro serial v hClaim
    rw [hU]
    exact h.calls serial v hClaim

/-! ## The tables -/

/-- Rows change, but not those of jobs with a worker. -/
theorem tables_poolInv (h : p.Inv) {tables : JobTables} {deleted : List Nat} {clock : Int}
    (hIds : (tables.jobs.map Job.id).Nodup)
    (hKept : ∀ w c, p.unsettledAt w = some c → c.job ∈ p.tables.jobs →
      c.job ∈ tables.jobs ∨ c.serial ∈ deleted)
    (hSame : ∀ w c, p.unsettledAt w = some c → ∀ row ∈ tables.jobs, row.id = c.job.id →
      row ∈ p.tables.jobs)
    (hDeleted : ∀ serial ∈ p.deleted, serial ∈ deleted) :
    ({ p with tables := tables, deleted := deleted, clock := clock } : PoolState).Inv where
  ids := hIds
  running := h.running
  kept := by
    intro w c hw
    rcases h.kept w c hw with hMem | hGone
    · exact hKept w c hw hMem
    · exact .inr (hDeleted _ hGone)
  same := fun w c hw row hRow hId => h.same w c hw row (hSame w c hw row hRow hId) hId
  distinct := h.distinct
  active := h.active
  joined := h.joined
  claimer := h.claimer
  calls := h.calls
  caller := h.caller
  succeeds := fun call hCall hBroken hGone =>
    h.succeeds call hCall hBroken fun hOld => hGone (hDeleted _ hOld)

/-- An update that does not match the row of a job with a worker. -/
theorem update_poolInv (h : p.Inv) (isMatch : Job → Bool) (assign : Job → Job) {tables : JobTables}
    (hId : ∀ job, (assign job).id = job.id)
    (hJobs : tables.jobs = p.tables.jobs.map fun job => if isMatch job then assign job else job)
    (hNot : ∀ w c, p.unsettledAt w = some c → c.job ∈ p.tables.jobs → isMatch c.job = false) :
    ({ p with tables := tables } : PoolState).Inv := by
  refine tables_poolInv h ?_ ?_ ?_ fun _ hOld => hOld
  · rw [hJobs]
    exact updateJobs_nodup hId h.ids
  · intro w c hw hMem
    left
    rw [hJobs]
    refine List.mem_map.mpr ⟨c.job, hMem, ?_⟩
    rw [hNot w c hw hMem]
    rfl
  · intro w c hw row hRow hRowId
    rw [hJobs] at hRow
    obtain ⟨before, hBefore, rfl⟩ := List.mem_map.mp hRow
    have hBeforeId : before.id = c.job.id := by
      rw [← hRowId]
      split
      · exact (hId before).symm
      · rfl
    obtain rfl := h.same w c hw before hBefore hBeforeId
    rw [hNot w c hw hBefore]
    exact hBefore

theorem enqueue_poolInv (h : p.Inv) (job : NewJob) (hCareful : p.CarefulStep (.enqueue job)) :
    (p.step (.enqueue job)).Inv := by
  unfold PoolState.step
  dsimp only
  split
  case h_2 => exact h
  case h_1 id t hOk =>
    have hNew := hCareful (id, t) (by rw [hOk]; rfl)
    unfold enqueueJob at hOk
    split at hOk
    case isFalse => cases hOk
    case isTrue =>
      obtain ⟨rfl, rfl⟩ := Prod.mk.inj (Except.ok.inj hOk)
      refine tables_poolInv h ?_ ?_ ?_ fun _ hOld => hOld
      · dsimp only
        rw [List.map_append, List.map_singleton]
        refine List.nodup_append.mpr ⟨h.ids, List.nodup_singleton _, ?_⟩
        intro a ha b hb hEq
        rw [List.mem_singleton.mp hb] at hEq
        exact nextRowid_not_mem _ (hEq ▸ ha)
      · intro w c hw hMem
        exact .inl (List.mem_append_left _ hMem)
      · intro w c hw row hRow hId
        rcases List.mem_append.mp hRow with hOld | hLast
        · exact hOld
        · obtain ⟨s, hs, hHeld⟩ := mem_of_heldAt (heldAt_of_unsettledAt hw)
          rw [List.mem_singleton.mp hLast] at hId
          exact absurd hId.symm (hNew s hs c hHeld)

theorem setSweep_poolInv (h : p.Inv) {sweep : Sweep}
    (hJoined : ∀ joined, sweep = .updating joined → p.tasks.active.card = 0) :
    (p.setSweep sweep).Inv := by
  refine ⟨h.ids, h.running, h.kept, h.same, h.distinct, h.active, ?_, h.claimer, h.calls,
    h.caller, h.succeeds⟩
  intro joined hSweep w c hw
  have hMem := (h.active c.job.id).mpr ⟨w, c, hw, rfl⟩
  rw [Finset.card_eq_zero.mp (hJoined joined hSweep)] at hMem
  cases hMem

theorem sweepUpdate_poolInv (h : p.Inv) (hTimely : p.Timely) (broken : Bool)
    (hCareful : p.CarefulStep (.sweepUpdate broken)) : (p.step (.sweepUpdate broken)).Inv := by
  have hWait : ∀ {q : PoolState}, q.Inv → (q.setSweep .waiting).Inv := fun hq =>
    setSweep_poolInv hq fun _ hSweep => (by cases hSweep)
  unfold PoolState.step
  dsimp only
  split
  case h_2 => exact h
  case h_1 joined hSweep =>
    split
    · exact hWait h
    next hBroken =>
    -- A job with a worker is too young to be requeued.
    refine hWait (update_poolInv h (stale visibilityTimeoutMs p.clock)
      (fun job => { job with state := .pending, updatedAt := p.clock }) (fun _ => rfl) rfl ?_)
    intro w c hw _
    have hYoung : p.clock < c.job.updatedAt + visibilityTimeoutMs := by
      obtain ⟨s, hs, hUnsettled⟩ := Option.bind_eq_some_iff.mp hw
      have hMem := List.mem_of_getElem? hs
      rcases hRegistered : s.registered with - | r
      · refine hTimely s hMem c ?_
        cases s
        case claimed => exact hUnsettled
        case processing => cases hRegistered
        case finishing => cases hRegistered
        all_goals cases hUnsettled
      · obtain rfl : r = c := Option.some.inj
          ((held_of_registered hRegistered).symm.trans (held_of_unsettled hUnsettled))
        have hIn : r.job.id ∈ p.tasks.sweep.joined := by
          rw [hSweep]
          refine h.joined joined hSweep w r ?_
          rw [registeredAt_eq hs]
          exact hRegistered
        exact hCareful (Bool.eq_false_iff.mpr hBroken) s hMem r hUnsettled hRegistered hIn
    unfold stale
    refine Bool.and_eq_false_iff.mpr (.inr (Bool.or_eq_false_iff.mpr ⟨by decide, ?_⟩))
    refine decide_eq_false ?_
    omega

theorem deleteFrame_poolInv (h : p.Inv) (id : Int) : (p.step (.deleteFrame id)).Inv := by
  refine tables_poolInv h ?_ ?_ ?_ ?_
  · exact h.ids.sublist (List.filter_sublist.map _)
  · intro w c hw hMem
    by_cases hFrame : c.job.frameId = some id
    · right
      obtain ⟨s, hs, hUnsettled⟩ := Option.bind_eq_some_iff.mp hw
      refine List.mem_append_left _ (List.mem_map.mpr ⟨c, List.mem_filter.mpr ⟨?_, ?_⟩, rfl⟩)
      · exact List.mem_filterMap.mpr ⟨s, List.mem_of_getElem? hs, hUnsettled⟩
      · exact decide_eq_true hFrame
    · exact .inl (List.mem_filter.mpr ⟨hMem, decide_eq_true hFrame⟩)
  · exact fun w c hw row hRow _ => (List.mem_filter.mp hRow).1
  · exact fun _ hOld => List.mem_append_right _ hOld

theorem cancelPendingVision_poolInv (h : p.Inv) : (p.step .cancelPendingVision).Inv := by
  refine tables_poolInv h ?_ ?_ ?_ fun _ hOld => hOld
  · exact h.ids.sublist (List.filter_sublist.map _)
  · intro w c hw hMem
    refine .inl (List.mem_filter.mpr ⟨hMem, ?_⟩)
    unfold pendingVision
    rw [h.running w c hw]
    simp
  · exact fun w c hw row hRow _ => (List.mem_filter.mp hRow).1

/-! ## The workers -/

theorem register_poolInv (h : p.Inv) (hw : p.tasks.workers[w]? = some (.claimed c)) :
    (p.register w c).Inv := by
  have hView : p.register w c = p.moved w (.processing c) { p.tasks with
      active := insert c.job.id p.tasks.active
      sweep := p.tasks.sweep.join c.job.id } := rfl
  have hU : ∀ v, (p.register w c).unsettledAt v = p.unsettledAt v := by
    rw [hView]
    exact unsettledAt_kept hw rfl
  have hH : ∀ v, (p.register w c).heldAt v = p.heldAt v := by
    rw [hView]
    exact heldAt_kept hw rfl
  have hR : ∀ v, (p.register w c).registeredAt v =
      if w = v then some c else p.registeredAt v := by
    intro v
    rw [hView, registeredAt_moved hw]
    rfl
  have hNone : p.registeredAt w = none := registeredAt_eq hw
  refine ⟨h.ids, ?_, ?_, ?_, ?_, ?_, ?_, ?_, ?_, h.caller, h.succeeds⟩
  · intro v c' hv
    exact h.running v c' (hU v ▸ hv)
  · intro v c' hv
    exact h.kept v c' (hU v ▸ hv)
  · intro v c' hv
    exact h.same v c' (hU v ▸ hv)
  · intro v v' c' c'' hv hv'
    exact h.distinct v v' c' c'' (hH v ▸ hv) (hH v' ▸ hv')
  · intro id
    show id ∈ insert c.job.id p.tasks.active ↔ _
    rw [Finset.mem_insert, h.active]
    constructor
    · rintro (rfl | ⟨v, c', hv, hId⟩)
      · exact ⟨w, c, by rw [hR, if_pos rfl], rfl⟩
      · refine ⟨v, c', ?_, hId⟩
        rw [hR, if_neg, hv]
        rintro rfl
        cases hNone.symm.trans hv
    · rintro ⟨v, c', hv, hId⟩
      rw [hR] at hv
      split at hv
      · obtain rfl := Option.some.inj hv
        exact .inl hId.symm
      · exact .inr ⟨v, c', hv, hId⟩
  · intro joined hSweep v c' hv
    have hJoin : p.tasks.sweep.join c.job.id = .updating joined := hSweep
    unfold Sweep.join at hJoin
    split at hJoin
    · next before hBefore =>
      obtain rfl := Sweep.updating.inj hJoin
      rw [hR] at hv
      split at hv
      · obtain rfl := Option.some.inj hv
        exact List.mem_cons_self
      · exact List.mem_cons_of_mem _ (h.joined before hBefore v c' hv)
    · next hNot => exact absurd hJoin (hNot joined)
  · intro v c' hv
    exact h.claimer v c' (hU v ▸ hv)
  · intro serial v hClaim
    rw [hU]
    exact h.calls serial v hClaim

theorem release_poolInv (h : p.Inv) (hw : p.tasks.workers[w]? = some (.releasing c)) :
    (p.release w c).Inv := by
  have hView : p.release w c = p.moved w .idle { p.tasks with
      active := p.tasks.active.erase c.job.id } := rfl
  have hU : ∀ v, (p.release w c).unsettledAt v = p.unsettledAt v := by
    rw [hView]
    exact unsettledAt_kept hw rfl
  have hH : ∀ v, (p.release w c).heldAt v = if w = v then none else p.heldAt v := by
    intro v
    rw [hView, heldAt_moved hw]
    rfl
  have hR : ∀ v, (p.release w c).registeredAt v = if w = v then none else p.registeredAt v := by
    intro v
    rw [hView, registeredAt_moved hw]
    rfl
  have hHeld : p.heldAt w = some c := heldAt_eq hw
  have hHeldOf : ∀ v c', (p.release w c).heldAt v = some c' → w ≠ v ∧ p.heldAt v = some c' := by
    intro v c' hv
    rw [hH] at hv
    split at hv
    · cases hv
    · next hOther => exact ⟨hOther, hv⟩
  refine ⟨h.ids, ?_, ?_, ?_, ?_, ?_, ?_, ?_, ?_, h.caller, h.succeeds⟩
  · intro v c' hv
    exact h.running v c' (hU v ▸ hv)
  · intro v c' hv
    exact h.kept v c' (hU v ▸ hv)
  · intro v c' hv
    exact h.same v c' (hU v ▸ hv)
  · intro v v' c' c'' hv hv'
    exact h.distinct v v' c' c'' (hHeldOf v c' hv).2 (hHeldOf v' c'' hv').2
  · intro id
    show id ∈ p.tasks.active.erase c.job.id ↔ _
    rw [Finset.mem_erase, h.active]
    constructor
    · rintro ⟨hOther, v, c', hv, hId⟩
      refine ⟨v, c', ?_, hId⟩
      rw [hR, if_neg, hv]
      rintro rfl
      obtain rfl := Option.some.inj (hHeld.symm.trans (heldAt_of_registeredAt hv))
      exact hOther hId.symm
    · rintro ⟨v, c', hv, hId⟩
      rw [hR] at hv
      split at hv
      · cases hv
      -- no other worker holds the same id
      · next hOther =>
        refine ⟨?_, v, c', hv, hId⟩
        rw [← hId]
        exact (h.distinct w v c c' hHeld (heldAt_of_registeredAt hv) hOther).symm
  · intro joined hSweep v c' hv
    rw [hR] at hv
    split at hv
    · cases hv
    · exact h.joined joined hSweep v c' hv
  · intro v c' hv
    exact h.claimer v c' (hU v ▸ hv)
  · intro serial v hClaim
    rw [hU]
    exact h.calls serial v hClaim

theorem callsOf_cons (call : FinalCall) (serial : Nat) :
    ({ tasks with calls := call :: tasks.calls } : PoolTasks).callsOf serial =
      tasks.callsOf serial + if call.serial = serial then 1 else 0 := by
  unfold PoolTasks.callsOf
  rw [List.countP_cons]
  simp only [decide_eq_true_eq]

/-- The worker records an outcome, before the table has changed. -/
def PoolState.settled (p : PoolState) (w : Nat) (c : Claim) (broken ok : Bool) : PoolState :=
  { p with tasks := { p.tasks with
      workers := p.tasks.workers.set w (.releasing c)
      calls := ⟨c.serial, w, c.job.id, broken, ok⟩ :: p.tasks.calls } }

theorem settled_poolInv (h : p.Inv) {outcome : Outcome} {broken ok : Bool}
    (hw : p.tasks.workers[w]? = some (.finishing c outcome))
    (hOk : broken = false → c.serial ∉ p.deleted → ok = true) :
    (p.settled w c broken ok).Inv := by
  have hView : p.settled w c broken ok = p.moved w (.releasing c) { p.tasks with
      calls := ⟨c.serial, w, c.job.id, broken, ok⟩ :: p.tasks.calls } := rfl
  have hOwn : p.unsettledAt w = some c := unsettledAt_eq hw
  -- only this worker is done with its claim; who is held or registered stays
  have hU : ∀ v, (p.settled w c broken ok).unsettledAt v =
      if w = v then none else p.unsettledAt v := by
    intro v
    rw [hView, unsettledAt_moved hw]
    rfl
  have hH : ∀ v, (p.settled w c broken ok).heldAt v = p.heldAt v := by
    rw [hView]
    exact heldAt_kept hw rfl
  have hR : ∀ v, (p.settled w c broken ok).registeredAt v = p.registeredAt v := by
    rw [hView]
    exact registeredAt_kept hw rfl
  have hUnsettledOf : ∀ v c', (p.settled w c broken ok).unsettledAt v = some c' →
      p.unsettledAt v = some c' := by
    intro v c' hv
    rw [hU] at hv
    split at hv
    · cases hv
    · exact hv
  refine ⟨h.ids, ?_, ?_, ?_, ?_, ?_, ?_, ?_, ?_, ?_, ?_⟩
  · intro v c' hv
    exact h.running v c' (hUnsettledOf v c' hv)
  · intro v c' hv
    exact h.kept v c' (hUnsettledOf v c' hv)
  · intro v c' hv
    exact h.same v c' (hUnsettledOf v c' hv)
  · intro v v' c' c'' hv hv'
    exact h.distinct v v' c' c'' (hH v ▸ hv) (hH v' ▸ hv')
  · intro id
    simp only [hR]
    exact h.active id
  · intro joined hSweep v c' hv
    exact h.joined joined hSweep v c' (hR v ▸ hv)
  · intro v c' hv
    exact h.claimer v c' (hUnsettledOf v c' hv)
  · intro serial v hClaim
    -- the call is counted for the claim that it settles, and for no other
    have hBefore := h.calls serial v hClaim
    show ({ p.tasks with calls := _ :: p.tasks.calls } : PoolTasks).callsOf serial = _
    rw [callsOf_cons, hBefore, hU]
    dsimp only
    have hClaimer := h.claimer w c hOwn
    by_cases hSame : w = v
    · subst hSame
      rw [hOwn, if_pos rfl]
      simp only [Option.map_some, Option.some.injEq, Option.map_none, reduceCtorEq, if_false]
      split <;> rfl
    · have hOther : c.serial ≠ serial := by
        rintro rfl
        exact hSame (Option.some.inj (hClaimer.symm.trans hClaim))
      rw [if_neg hSame, if_neg hOther, Nat.add_zero]
  · intro call hCall
    rcases List.mem_cons.mp hCall with rfl | hOld
    · exact h.claimer w c hOwn
    · exact h.caller call hOld
  · intro call hCall
    rcases List.mem_cons.mp hCall with rfl | hOld
    · exact hOk
    · exact h.succeeds call hOld

/-- A call for a running row succeeds. -/
theorem settleJob_isOk {job : Job} {outcome : Outcome} {now clock : Int} {t : JobTables}
    (hMem : job ∈ t.jobs) (hRunning : job.state = .running) :
    (settleJob job outcome now clock t).isOk = true := by
  have hSome : ∀ assign, (updateJobs (runningAt job.id) assign t).1 ≠ 0 := by
    intro assign
    have hMatch : runningAt job.id job = true := by
      unfold runningAt
      rw [hRunning, decide_eq_true rfl]
      rfl
    exact Nat.pos_iff_ne_zero.mp (List.countP_pos_iff.mpr ⟨job, hMem, hMatch⟩)
  have hFail : ∀ err retryAt, (failJob job.id err retryAt clock t).isOk = true := by
    intro err retryAt
    unfold failJob
    dsimp only
    rw [if_neg (hSome _)]
    rfl
  rcases outcome with changedData | err | err
  · show (completeJob job.id clock t).isOk = true
    unfold completeJob
    dsimp only
    rw [if_neg (hSome _)]
    rfl
  · exact hFail _ _
  · exact hFail _ _

/-- Recording an outcome settles the claim, and succeeds if the row is there. -/
theorem finalize_poolInv (h : p.Inv) {outcome : Outcome} {now : Int} {broken : Bool}
    (hw : p.tasks.workers[w]? = some (.finishing c outcome)) :
    (p.finalize w c outcome now broken).Inv := by
  have hOwn : p.unsettledAt w = some c := unsettledAt_eq hw
  have hOk : broken = false → c.serial ∉ p.deleted →
      (if broken then .error "store" else
        settleJob c.job outcome now p.clock p.tables).isOk = true := by
    intro hBroken hThere
    rw [hBroken, if_neg Bool.false_ne_true]
    exact settleJob_isOk ((h.kept w c hOwn).resolve_right hThere) (h.running w c hOwn)
  have hSettled := settled_poolInv h hw hOk
  unfold PoolState.finalize
  dsimp only
  revert hSettled
  generalize hResult : (if broken then .error "store" else
    settleJob c.job outcome now p.clock p.tables) = result
  intro hSettled
  cases result with
  | error e => exact hSettled
  | ok tables =>
    cases broken with
    | true => cases hResult
    | false =>
      rw [if_neg Bool.false_ne_true] at hResult
      obtain ⟨assign, hJobs, hAssign⟩ := settleJob_ok hResult
      refine update_poolInv hSettled (runningAt c.job.id) assign (fun job => (hAssign job).1) hJobs ?_
      -- another worker has another job
      intro v c' hv _
      have hHeld : (p.settled w c false true).heldAt w = some c := by
        show ((p.tasks.workers.set w (.releasing c))[w]?).bind _ = _
        rw [get_workers_set hw, if_pos rfl]
        rfl
      have hOther : w ≠ v := by
        rintro rfl
        have hNone : (p.settled w c false true).unsettledAt w = none := by
          show ((p.tasks.workers.set w (.releasing c))[w]?).bind _ = _
          rw [get_workers_set hw, if_pos rfl]
          rfl
        cases hNone.symm.trans hv
      have hId := hSettled.distinct w v c c' hHeld (heldAt_of_unsettledAt hv) hOther
      unfold runningAt
      rw [decide_eq_false hId.symm, Bool.false_and]

/-- The worker gets a job, after the table has changed. -/
def PoolState.claimed (p : PoolState) (w : Nat) (job : Job) : PoolState :=
  { p with tasks := { p.tasks with
      workers := p.tasks.workers.set w (.claimed ⟨p.tasks.claims.length, job⟩)
      claims := p.tasks.claims ++ [w] } }

theorem claimed_poolInv (h : p.Inv) (hw : p.tasks.workers[w]? = some .polling) {job : Job}
    (hMem : job ∈ p.tables.jobs) (hRunning : job.state = .running)
    (hFree : ∀ v c, p.heldAt v = some c → c.job.id ≠ job.id) : (p.claimed w job).Inv := by
  have hView : p.claimed w job = p.moved w (.claimed ⟨p.tasks.claims.length, job⟩)
      { p.tasks with claims := p.tasks.claims ++ [w] } := rfl
  have hU : ∀ v, (p.claimed w job).unsettledAt v =
      if w = v then some ⟨p.tasks.claims.length, job⟩ else p.unsettledAt v := by
    intro v
    rw [hView, unsettledAt_moved hw]
    rfl
  have hH : ∀ v, (p.claimed w job).heldAt v =
      if w = v then some ⟨p.tasks.claims.length, job⟩ else p.heldAt v := by
    intro v
    rw [hView, heldAt_moved hw]
    rfl
  have hR : ∀ v, (p.claimed w job).registeredAt v = p.registeredAt v := by
    rw [hView]
    exact registeredAt_kept hw rfl
  have hUnsettledOf : ∀ v c', (p.claimed w job).unsettledAt v = some c' →
      c' = ⟨p.tasks.claims.length, job⟩ ∧ v = w ∨ p.unsettledAt v = some c' := by
    intro v c' hv
    rw [hU] at hv
    split at hv
    · next hSame => exact .inl ⟨(Option.some.inj hv).symm, hSame.symm⟩
    · exact .inr hv
  have hLess : ∀ call ∈ p.tasks.calls, call.serial < p.tasks.claims.length := fun call hCall =>
    (List.getElem?_eq_some_iff.mp (h.caller call hCall)).1
  have hEarlier : ∀ {serial : Nat} {v : Nat}, p.tasks.claims[serial]? = some v →
      (p.tasks.claims ++ [w])[serial]? = some v := by
    intro serial v hClaim
    rw [List.getElem?_append_left (List.getElem?_eq_some_iff.mp hClaim).1]
    exact hClaim
  refine ⟨h.ids, ?_, ?_, ?_, ?_, ?_, ?_, ?_, ?_, ?_, h.succeeds⟩
  · intro v c' hv
    rcases hUnsettledOf v c' hv with ⟨rfl, -⟩ | hOld
    · exact hRunning
    · exact h.running v c' hOld
  · intro v c' hv
    rcases hUnsettledOf v c' hv with ⟨rfl, -⟩ | hOld
    · exact .inl hMem
    · exact h.kept v c' hOld
  · intro v c' hv row hRow hId
    rcases hUnsettledOf v c' hv with ⟨rfl, -⟩ | hOld
    · exact List.inj_on_of_nodup_map h.ids hRow hMem hId
    · exact h.same v c' hOld row hRow hId
  · intro v v' c' c'' hv hv' hOther
    rw [hH] at hv hv'
    split at hv
    · obtain rfl := Option.some.inj hv
      split at hv'
      · next hSame hSame' => exact absurd (hSame.symm.trans hSame') hOther
      · exact (hFree v' c'' hv').symm
    · split at hv'
      · obtain rfl := Option.some.inj hv'
        exact hFree v c' hv
      · exact h.distinct v v' c' c'' hv hv' hOther
  · intro id
    simp only [hR]
    exact h.active id
  · intro joined hSweep v c' hv
    exact h.joined joined hSweep v c' (hR v ▸ hv)
  · intro v c' hv
    rcases hUnsettledOf v c' hv with ⟨rfl, rfl⟩ | hOld
    · exact List.getElem?_concat_length
    · exact hEarlier (h.claimer v c' hOld)
  · intro serial v hClaim
    show p.tasks.callsOf serial = _
    rw [hU]
    rcases Nat.lt_or_ge serial p.tasks.claims.length with hLt | hGe
    · have hOld : p.tasks.claims[serial]? = some v := by
        rw [← hClaim]
        exact (List.getElem?_append_left hLt).symm
      rw [h.calls serial v hOld]
      by_cases hSame : w = v
      -- the worker had settled its earlier claims
      · subst hSame
        have hNone : p.unsettledAt w = none := unsettledAt_eq hw
        have hNew : (some ⟨p.tasks.claims.length, job⟩ : Option Claim).map Claim.serial ≠
            some serial := fun hEq => absurd (Option.some.inj hEq) hLt.ne'
        rw [if_pos rfl, hNone, if_neg hNew]
        rfl
      · rw [if_neg hSame]
    · have hLt : serial < (p.tasks.claims ++ [w]).length := (List.getElem?_eq_some_iff.mp hClaim).1
      rw [List.length_append, List.length_singleton] at hLt
      obtain rfl : serial = p.tasks.claims.length := by omega
      have hClaim' : (p.tasks.claims ++ [w])[p.tasks.claims.length]? = some v := hClaim
      rw [List.getElem?_concat_length] at hClaim'
      obtain rfl := Option.some.inj hClaim'
      rw [if_pos rfl, Option.map_some, if_pos rfl]
      refine List.countP_eq_zero.mpr fun call hCall => ?_
      rw [decide_eq_true_eq]
      exact (hLess call hCall).ne
  · intro call hCall
    exact hEarlier (h.caller call hCall)

theorem claim_poolInv (h : p.Inv) (hw : p.tasks.workers[w]? = some .polling) (kinds : List JobKind)
    (now : Int) (hCareful : p.CarefulStep (.claim w kinds now false)) :
    (p.claim w kinds now).Inv := by
  unfold PoolState.claim
  split
  case h_2 => exact move_poolInv h hw rfl rfl rfl
  case h_1 job hLast =>
    obtain ⟨old, hOld, hPending, rfl, hJobs⟩ :=
      claimJobs_one h.ids (Prod.mk.eta (p := claimJobs kinds 1 now p.clock p.tables)).symm hLast
    have hReleasing := hCareful hw rfl _ hLast
    revert hJobs
    generalize (claimJobs kinds 1 now p.clock p.tables).2 = tables
    intro hJobs
    -- a job with a worker is not pending
    have hOther : ∀ v c, p.unsettledAt v = some c → c.job.id ≠ old.id := by
      intro v c hv hId
      have hSame := h.same v c hv old hOld hId.symm
      have hRunning := h.running v c hv
      rw [← hSame, hPending] at hRunning
      cases hRunning
    have hTables : ({ p with tables := tables } : PoolState).Inv := by
      refine update_poolInv h (fun other => decide (other.id = old.id))
        (fun other => { other with state := .running, updatedAt := p.clock }) (fun _ => rfl) ?_ ?_
      · rw [hJobs]
        simp only [decide_eq_true_eq]
      · exact fun v c hv _ => decide_eq_false (hOther v c hv)
    refine claimed_poolInv hTables hw ?_ rfl ?_
    · show _ ∈ tables.jobs
      rw [hJobs]
      exact List.mem_map.mpr ⟨old, hOld, if_pos rfl⟩
    · intro v c hv
      obtain ⟨s, hs, hHeld⟩ := Option.bind_eq_some_iff.mp hv
      cases s
      case releasing c' =>
        obtain rfl := Option.some.inj hHeld
        exact hReleasing _ (List.mem_of_getElem? hs) _ rfl
      case idle => cases hHeld
      case polling => cases hHeld
      case exited => cases hHeld
      all_goals exact hOther v c (Option.bind_eq_some_iff.mpr ⟨_, hs, hHeld⟩)

/-! ## Runs -/

theorem stop_poolInv (h : p.Inv) : (p.step .stop).Inv :=
  ⟨h.ids, h.running, h.kept, h.same, h.distinct, h.active, h.joined, h.claimer, h.calls, h.caller,
    h.succeeds⟩

theorem step_poolInv (h : p.Inv) (hTimely : p.Timely) (e : PoolEvent) (hCareful : p.CarefulStep e) :
    (p.step e).Inv := by
  cases e
  case enqueue job => exact enqueue_poolInv h job hCareful
  case sweepUpdate broken => exact sweepUpdate_poolInv h hTimely broken hCareful
  case deleteFrame id => exact deleteFrame_poolInv h id
  case cancelPendingVision => exact cancelPendingVision_poolInv h
  case tick elapsed =>
    exact tables_poolInv h h.ids (fun _ _ _ hMem => .inl hMem) (fun _ _ _ _ hRow _ => hRow)
      fun _ hOld => hOld
  case insertFrame id =>
    exact tables_poolInv h h.ids (fun _ _ _ hMem => .inl hMem) (fun _ _ _ _ hRow _ => hRow)
      fun _ hOld => hOld
  case stop => exact stop_poolInv h
  all_goals
    unfold PoolState.step
    dsimp only
  case look w =>
    split
    · next hw =>
      refine move_poolInv h hw ?_ ?_ ?_
      all_goals split <;> rfl
    · exact h
  case claim w kinds now broken =>
    split
    · next hw =>
      split
      · exact move_poolInv h hw rfl rfl rfl
      · next hBroken =>
        rw [Bool.eq_false_iff.mpr hBroken] at hCareful
        exact claim_poolInv h hw kinds now hCareful
    · exact h
  case register w =>
    split
    · next hw => exact register_poolInv h hw
    · exact h
  case process w outcome =>
    split
    · next hw => exact move_poolInv h hw rfl rfl rfl
    · exact h
  case finalize w now broken =>
    split
    · next hw => exact finalize_poolInv h hw
    · exact h
  case release w =>
    split
    · next hw => exact release_poolInv h hw
    · exact h
  case sweepTest =>
    split
    · split
      · exact h
      · next hNone => exact setSweep_poolInv h fun _ _ => Nat.eq_zero_of_not_pos hNone
    · exact h
  case sweepExit =>
    split
    · split
      · exact setSweep_poolInv h fun _ hSweep => (by cases hSweep)
      · exact h
    · exact h

theorem start_poolInv {tables : JobTables} (hIds : (tables.jobs.map Job.id).Nodup) (clock : Int)
    (concurrency : Nat) : (PoolState.start tables clock concurrency).Inv := by
  have hIdle : ∀ {w : Nat} {s : PoolWorker},
      (PoolState.start tables clock concurrency).tasks.workers[w]? = some s → s = .idle := by
    intro w s hw
    have hMem : s ∈ List.replicate (max concurrency 1) .idle := List.mem_of_getElem? hw
    exact List.eq_of_mem_replicate hMem
  have hU : ∀ w, (PoolState.start tables clock concurrency).unsettledAt w = none := by
    intro w
    refine Option.bind_eq_none_iff.mpr fun s hs => ?_
    rw [hIdle hs]
    rfl
  have hR : ∀ w, (PoolState.start tables clock concurrency).registeredAt w = none := by
    intro w
    refine Option.bind_eq_none_iff.mpr fun s hs => ?_
    rw [hIdle hs]
    rfl
  have hH : ∀ w, (PoolState.start tables clock concurrency).heldAt w = none := by
    intro w
    refine Option.bind_eq_none_iff.mpr fun s hs => ?_
    rw [hIdle hs]
    rfl
  refine ⟨hIds, ?_, ?_, ?_, ?_, ?_, ?_, ?_, ?_, ?_, ?_⟩
  · exact fun w c hw => (by cases (hU w).symm.trans hw)
  · exact fun w c hw => (by cases (hU w).symm.trans hw)
  · exact fun w c hw => (by cases (hU w).symm.trans hw)
  · exact fun w w' c c' hw => (by cases (hH w).symm.trans hw)
  · intro id
    refine ⟨fun hMem => (by cases hMem), ?_⟩
    rintro ⟨w, c, hw, -⟩
    cases (hR w).symm.trans hw
  · exact fun joined hSweep => (by cases hSweep)
  · exact fun w c hw => (by cases (hU w).symm.trans hw)
  · exact fun serial w hClaim => (by cases hClaim)
  · exact fun call hCall => (by cases hCall)
  · exact fun call hCall => (by cases hCall)

theorem run_poolInv (h : p.Inv) (events : List PoolEvent) (hCareful : p.Careful events) :
    (p.run events).Inv := by
  induction events generalizing p with
  | nil => exact h
  | cons e rest ih =>
    obtain ⟨hTimely, hStep, hRest⟩ := hCareful
    exact ih (step_poolInv h hTimely e hStep) hRest

theorem exclusive_of_poolInv (h : p.Inv) : p.Exclusive where
  not_twice := fun w w' c c' hw hw' => h.distinct w w' c c' (heldAt_of_unsettledAt hw)
    (heldAt_of_unsettledAt hw')
  not_requeued := fun w c hw => ⟨h.running w c hw, h.kept w c hw, h.same w c hw⟩
  one_call := h.calls
  by_claimer := h.caller
  succeeds := h.succeeds

theorem pool_exclusive {tables : JobTables} (hIds : (tables.jobs.map Job.id).Nodup) (clock : Int)
    (concurrency : Nat) (events : List PoolEvent)
    (hCareful : (PoolState.start tables clock concurrency).Careful events) :
    ((PoolState.start tables clock concurrency).run events).Exclusive :=
  exclusive_of_poolInv (run_poolInv (start_poolInv hIds clock concurrency) events hCareful)

/-! ## What goes wrong otherwise -/

/-- Two workers and one pending job, of the first of two frames. -/
def contested : PoolState := .start
  { frames := [1, 2]
    jobs := [{ id := 1, kind := .embedText, frameId := some 1, state := .pending, priority := 0
               attempts := 0, maxAttempts := 3, notBefore := 0, lastError := none
               createdAt := 0, updatedAt := 0 }] } 0 2

/-- A worker works on for ten minutes, and the sweep looks meanwhile. -/
def longRun : List PoolEvent :=
  [.look 0, .claim 0 [.embedText] 0 false, .register 0, .tick 600000, .sweepTest,
    .process 0 (.complete true)]

/-- The frame goes while its job is processed, and the job of the next frame gets the id. -/
def reusedRun : List PoolEvent :=
  [.look 0, .claim 0 [.embedText] 0 false, .register 0, .deleteFrame 1,
    .enqueue (embedTextJob 2), .look 1, .claim 1 [.embedText] 0 false, .register 1,
    .process 0 (.complete true), .finalize 0 0 false,
    .process 1 (.complete true), .finalize 1 0 false]

/-- The sweep looks, and requeues five minutes later. -/
def sweptRun : List PoolEvent :=
  [.sweepTest, .look 0, .claim 0 [.embedText] 0 false, .register 0, .tick 300000,
    .sweepUpdate false, .look 1, .claim 1 [.embedText] 300000 false]

/-- A job is retried by another worker before the first has left the set. -/
def retriedRun : List PoolEvent :=
  [.look 0, .claim 0 [.embedText] 0 false, .register 0, .process 0 (.retry "busy"),
    .finalize 0 0 false, .tick 100000, .look 1, .claim 1 [.embedText] 100000 false, .register 1,
    .release 0, .tick 300000, .sweepTest, .sweepUpdate false, .look 0,
    .claim 0 [.embedText] 400000 false]

theorem contested_exclusive : (contested.run longRun).Exclusive :=
  pool_exclusive (by decide) 0 2 longRun (by decide +kernel)

/-- A job with two workers, or a call that fails though its job is there. -/
theorem exclusion_lost :
    (contested.TimelyRun reusedRun ∧ ¬ (contested.run reusedRun).Exclusive) ∧
      (contested.TimelyRun sweptRun ∧ ¬ (contested.run sweptRun).Exclusive) ∧
      contested.TimelyRun retriedRun ∧ ¬ (contested.run retriedRun).Exclusive := by
  have hTwice : ∀ {p : PoolState}, ((p.unsettledAt 0).bind fun c => (p.unsettledAt 1).map fun c' =>
      decide (c.job.id = c'.job.id)) = some true → ¬ p.Exclusive := by
    intro p hEq hExclusive
    obtain ⟨c, hc, hEq⟩ := Option.bind_eq_some_iff.mp hEq
    obtain ⟨c', hc', hEq⟩ := Option.map_eq_some_iff.mp hEq
    exact hExclusive.not_twice 0 1 c c' hc hc' (by decide) (of_decide_eq_true hEq)
  refine ⟨⟨by decide +kernel, fun hExclusive => ?_⟩,
    ⟨by decide +kernel, hTwice (by decide +kernel)⟩, by decide +kernel, hTwice (by decide +kernel)⟩
  have hFailed : ∃ call ∈ (contested.run reusedRun).tasks.calls, call.broken = false ∧
      call.serial ∉ (contested.run reusedRun).deleted ∧ call.ok = false := by decide +kernel
  obtain ⟨call, hCall, hBroken, hThere, hOk⟩ := hFailed
  cases hOk.symm.trans (hExclusive.succeeds call hCall hBroken hThere)

end ScreenSearch.Kernel
