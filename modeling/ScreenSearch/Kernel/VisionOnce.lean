import ScreenSearch.Kernel.PoolExclusion
import ScreenSearch.Kernel.VisionScheduler

/-!
# Frames that are analysed once

While every job stays with the worker that claimed it, the scheduler lists no frame that a
worker may still store an analysis for. A frame is then analysed again only after the job
that had its analysis could not be completed: the sweep requeues such a job, and its next
run does not ask whether the analysis is there.

Main results:

* `step_claims` — a job stays with its worker;
* `step_once` — a frame with a job in flight has been analysed no more often than its job
  could not be completed, unless its analysis was stored just now;
* `queued_once` — what holds of the scheduler in every run.
-/

namespace ScreenSearch.Kernel

open Store

/-- The job of a worker whose analysis is stored and which has still to be completed. -/
def PoolWorker.stored : PoolWorker → Option Claim
  | .finishing c (.complete true) => some c
  | _ => none

def PoolState.storedAt (p : PoolState) (w : Nat) : Option Claim :=
  p.tasks.workers[w]?.bind PoolWorker.stored

/-- A job with a worker is as the claim left it, until it goes with its frame. -/
structure SchedulerState.Claims (s : SchedulerState) : Prop where
  running : ∀ w c, s.pool.unsettledAt w = some c → c.job.state = .running
  kept : ∀ w c, s.pool.unsettledAt w = some c → c.job ∈ s.pool.tables.jobs ∨
    ∃ frameId, c.job.frameId = some frameId ∧ frameId ≤ s.frameIdHighWater ∧
      frameId ∉ s.pool.tables.frames
  same : ∀ w c, s.pool.unsettledAt w = some c → ∀ row ∈ s.pool.tables.jobs,
    row.id = c.job.id → row = c.job
  distinct : ∀ w w' c c', s.pool.unsettledAt w = some c → s.pool.unsettledAt w' = some c' →
    w ≠ w' → c.job.id ≠ c'.job.id

structure SchedulerState.Once (s : SchedulerState) : Prop where
  unlisted : ∀ p rest, s.producers p = .enqueuing rest → ∀ frameId ∈ rest, frameId ∉ s.analysed
  logged : ∀ e ∈ s.enqueued, e.analysed = false
  kept : ∀ frameId ∈ s.analyses, frameId ≤ s.frameIdHighWater ∧
    (frameId ∈ s.pool.tables.frames → frameId ∈ s.analysed)
  bound : ∀ frameId, s.analyses.count frameId ≤ 1 + s.unrecorded.count frameId
  flight : ∀ row ∈ s.pool.tables.jobs, inFlight row = true → ∀ frameId ∈ row.frameId,
    s.analyses.count frameId ≤ s.unrecorded.count frameId ∨
      ∃ w c, s.pool.storedAt w = some c ∧ c.job.id = row.id

variable {s s' : SchedulerState} {p p' : PoolState} {w w' : Nat} {old new : PoolWorker} {c : Claim}

/-! ## Views of the workers -/

theorem unsettled_of_stored {worker : PoolWorker} (h : worker.stored = some c) :
    worker.unsettled = some c := by
  unfold PoolWorker.stored at h
  split at h
  · exact h
  · cases h

theorem unsettledAt_of_storedAt (h : p.storedAt w = some c) : p.unsettledAt w = some c := by
  obtain ⟨worker, hWorker, hStored⟩ := Option.bind_eq_some_iff.mp h
  exact Option.bind_eq_some_iff.mpr ⟨worker, hWorker, unsettled_of_stored hStored⟩

theorem unsettledAt_set (hw : p.tasks.workers[w]? = some old)
    (hWorkers : p'.tasks.workers = p.tasks.workers.set w new) (v : Nat) :
    p'.unsettledAt v = if w = v then new.unsettled else p.unsettledAt v := by
  unfold PoolState.unsettledAt
  rw [hWorkers, get_workers_set hw]
  split <;> rfl

theorem storedAt_set (hw : p.tasks.workers[w]? = some old)
    (hWorkers : p'.tasks.workers = p.tasks.workers.set w new) (v : Nat) :
    p'.storedAt v = if w = v then new.stored else p.storedAt v := by
  unfold PoolState.storedAt
  rw [hWorkers, get_workers_set hw]
  split <;> rfl

theorem storedAt_eq (hw : p.tasks.workers[w]? = some old) : p.storedAt w = old.stored := by
  unfold PoolState.storedAt
  rw [hw]
  rfl

/-- A worker that has stored nothing moves. -/
theorem storedAt_of_set (hw : p.tasks.workers[w]? = some old)
    (hWorkers : p'.tasks.workers = p.tasks.workers.set w new) (hStored : old.stored = none)
    {v : Nat} (hv : p.storedAt v = some c) : p'.storedAt v = some c := by
  rw [storedAt_set hw hWorkers]
  split
  · next hSame =>
    rw [← hSame, storedAt_eq hw, hStored] at hv
    cases hv
  · exact hv

/-- What a step does to the workers: one of them goes on with what it has. -/
structure Follows (p p' : PoolState) : Prop where
  unsettled : ∀ v, p'.unsettledAt v = p.unsettledAt v
  stored : ∀ v c, p.storedAt v = some c → p'.storedAt v = some c

theorem follows_of_same (h : p'.tasks.workers = p.tasks.workers) : Follows p p' := by
  constructor
  · intro v
    unfold PoolState.unsettledAt
    rw [h]
  · intro v c hv
    unfold PoolState.storedAt
    rw [h]
    exact hv

theorem follows_of_set (hw : p.tasks.workers[w]? = some old)
    (hWorkers : p'.tasks.workers = p.tasks.workers.set w new)
    (hUnsettled : new.unsettled = old.unsettled) (hStored : old.stored = none) : Follows p p' := by
  constructor
  · intro v
    rw [unsettledAt_set hw hWorkers]
    split
    · next hSame => rw [hUnsettled, ← hSame, unsettledAt_eq hw]
    · rfl
  · exact fun v c hv => storedAt_of_set hw hWorkers hStored hv

theorem step_follows (p : PoolState) {e : PoolEvent}
    (hClaim : ∀ w kinds now broken, e ≠ .claim w kinds now broken)
    (hFinalize : ∀ w now broken, e ≠ .finalize w now broken) : Follows p (p.step e) := by
  cases e
  case claim w kinds now broken => exact absurd rfl (hClaim w kinds now broken)
  case finalize w now broken => exact absurd rfl (hFinalize w now broken)
  case look w =>
    unfold PoolState.step
    dsimp only
    split
    · next hw =>
      refine follows_of_set hw rfl ?_ rfl
      split <;> rfl
    · exact follows_of_same rfl
  case register w =>
    unfold PoolState.step
    dsimp only
    split
    · next hw => exact follows_of_set hw rfl rfl rfl
    · exact follows_of_same rfl
  case process w outcome =>
    unfold PoolState.step
    dsimp only
    split
    · next hw => exact follows_of_set hw rfl rfl rfl
    · exact follows_of_same rfl
  case release w =>
    unfold PoolState.step
    dsimp only
    split
    · next hw => exact follows_of_set hw rfl rfl rfl
    · exact follows_of_same rfl
  all_goals
    unfold PoolState.step
    dsimp only
    (repeat' split) <;> exact follows_of_same rfl

/-! ## A job stays with its worker -/

/-- The rows of the jobs with a worker are in the new table as they were. -/
theorem tables_claims (h : s.Claims)
    (hViews : ∀ v c, s'.pool.unsettledAt v = some c → s.pool.unsettledAt v = some c)
    (hKept : ∀ v c, s'.pool.unsettledAt v = some c → c.job ∈ s.pool.tables.jobs →
      c.job ∈ s'.pool.tables.jobs ∨ ∃ frameId, c.job.frameId = some frameId ∧
        frameId ≤ s'.frameIdHighWater ∧ frameId ∉ s'.pool.tables.frames)
    (hSame : ∀ v c, s'.pool.unsettledAt v = some c → ∀ row ∈ s'.pool.tables.jobs,
      row.id = c.job.id → row ∈ s.pool.tables.jobs)
    (hFrames : ∀ frameId ≤ s.frameIdHighWater, frameId ∉ s.pool.tables.frames →
      frameId ≤ s'.frameIdHighWater ∧ frameId ∉ s'.pool.tables.frames) : s'.Claims where
  running := fun v c hv => h.running v c (hViews v c hv)
  kept := by
    intro v c hv
    rcases h.kept v c (hViews v c hv) with hIn | ⟨frameId, hFrame, hLe, hGone⟩
    · exact hKept v c hv hIn
    · exact .inr ⟨frameId, hFrame, hFrames frameId hLe hGone⟩
  same := fun v c hv row hRow hId => h.same v c (hViews v c hv) row (hSame v c hv row hRow hId) hId
  distinct := fun v v' c c' hv hv' => h.distinct v v' c c' (hViews v c hv) (hViews v' c' hv')

theorem follows_claims (h : s.Claims) (hFollows : Follows s.pool s'.pool)
    (hTables : s'.pool.tables = s.pool.tables) (hHighWater : s'.frameIdHighWater = s.frameIdHighWater) :
    s'.Claims := by
  refine tables_claims h (fun v c hv => hFollows.unsettled v ▸ hv) ?_ ?_ ?_
  · exact fun v c _ hIn => .inl (by rw [hTables]; exact hIn)
  · exact fun v c _ row hRow _ => by rw [hTables] at hRow; exact hRow
  · rw [hTables, hHighWater]
    exact fun frameId hLe hGone => ⟨hLe, hGone⟩

/-- An update in place that does not touch the jobs with a worker. -/
theorem update_claims (h : s.Claims) (isMatch : Job → Bool) (assign : Job → Job)
    (hJobs : s'.pool.tables.jobs =
      s.pool.tables.jobs.map fun job => if isMatch job then assign job else job)
    (hFrames : s'.pool.tables.frames = s.pool.tables.frames)
    (hHighWater : s'.frameIdHighWater = s.frameIdHighWater) (hId : ∀ job, (assign job).id = job.id)
    (hViews : ∀ v c, s'.pool.unsettledAt v = some c → s.pool.unsettledAt v = some c)
    (hNot : ∀ v c, s'.pool.unsettledAt v = some c → c.job ∈ s.pool.tables.jobs →
      isMatch c.job = false) : s'.Claims := by
  refine tables_claims h hViews ?_ ?_ ?_
  · intro v c hv hIn
    rw [hJobs]
    refine .inl (List.mem_map.mpr ⟨c.job, hIn, ?_⟩)
    rw [hNot v c hv hIn]
    rfl
  · intro v c hv row hRow hRowId
    rw [hJobs] at hRow
    obtain ⟨old, hOld, rfl⟩ := List.mem_map.mp hRow
    have hOldId : old.id = c.job.id := by
      rw [← hRowId]
      split
      · exact (hId old).symm
      · rfl
    obtain rfl := h.same v c (hViews v c hv) old hOld hOldId
    rw [hNot v c hv hOld]
    exact hOld
  · rw [hFrames, hHighWater]
    exact fun frameId hLe hGone => ⟨hLe, hGone⟩

theorem claim_claims (h : s.Claims) (hIds : (s.pool.tables.jobs.map Job.id).Nodup)
    (hw : s.pool.tasks.workers[w]? = some .polling) (kinds : List JobKind) (now : Int) :
    ({ s with pool := s.pool.claim w kinds now } : SchedulerState).Claims := by
  unfold PoolState.claim
  split
  case h_2 => exact follows_claims h (follows_of_set hw rfl rfl rfl) rfl rfl
  case h_1 job hLast =>
    obtain ⟨old, hOld, hPending, rfl, hJobs⟩ := claimJobs_one hIds (Prod.eta _).symm hLast
    -- the rows of the other workers run already
    have hOther : ∀ v c, s.pool.unsettledAt v = some c → c.job.id ≠ old.id := by
      intro v c hv hId
      have hRunning := h.running v c hv
      rw [← h.same v c hv old hOld hId.symm, hPending] at hRunning
      cases hRunning
    have hViews := @unsettledAt_set s.pool { s.pool with
      tables := (claimJobs kinds 1 now s.pool.clock s.pool.tables).2
      tasks := { s.pool.tasks with
        workers := s.pool.tasks.workers.set w (.claimed ⟨s.pool.tasks.claims.length,
          { old with state := .running, updatedAt := s.pool.clock }⟩)
        claims := s.pool.tasks.claims ++ [w] } } w _ _ hw rfl
    have hMem : ∀ row, row ∈ s.pool.tables.jobs → row.id ≠ old.id →
        row ∈ (claimJobs kinds 1 now s.pool.clock s.pool.tables).2.jobs := by
      intro row hRow hId
      rw [hJobs]
      exact List.mem_map.mpr ⟨row, hRow, if_neg hId⟩
    constructor
    · intro v c hv
      rw [hViews] at hv
      split at hv
      · cases hv
        rfl
      · exact h.running v c hv
    · intro v c hv
      rw [hViews] at hv
      split at hv
      · cases hv
        refine .inl ?_
        show _ ∈ (claimJobs kinds 1 now s.pool.clock s.pool.tables).2.jobs
        rw [hJobs]
        exact List.mem_map.mpr ⟨old, hOld, if_pos rfl⟩
      · rcases h.kept v c hv with hIn | ⟨frameId, hFrame, hLe, hGone⟩
        · exact .inl (hMem c.job hIn (hOther v c hv))
        · refine .inr ⟨frameId, hFrame, hLe, ?_⟩
          show frameId ∉ (claimJobs kinds 1 now s.pool.clock s.pool.tables).2.frames
          rw [claimJobs_frames (Prod.eta _).symm]
          exact hGone
    · intro v c hv row hRow hId
      have hRow : row ∈ (claimJobs kinds 1 now s.pool.clock s.pool.tables).2.jobs := hRow
      rw [hJobs] at hRow
      obtain ⟨before, hBefore, rfl⟩ := List.mem_map.mp hRow
      have hBeforeId : before.id = c.job.id := by
        rw [← hId]
        split <;> rfl
      rw [hViews] at hv
      split at hv
      · cases hv
        have hSame := List.inj_on_of_nodup_map hIds hBefore hOld hBeforeId
        subst hSame
        exact if_pos rfl
      · have hSame := h.same v c hv before hBefore hBeforeId
        subst hSame
        exact if_neg (hOther v c hv)
    · intro v v' c c' hv hv' hNe
      rw [hViews] at hv hv'
      split at hv
      · next hv1 =>
        split at hv'
        · next hv2 => exact absurd (hv1.symm.trans hv2) hNe
        · cases hv
          exact (hOther v' c' hv').symm
      · split at hv'
        · cases hv'
          exact hOther v c hv
        · exact h.distinct v v' c c' hv hv' hNe

/-- The outcome of a worker is recorded, or is not. -/
theorem finalize_views {outcome : Outcome} (hw : p.tasks.workers[w]? = some (.finishing c outcome))
    (now : Int) (broken : Bool) (v : Nat) :
    (p.finalize w c outcome now broken).unsettledAt v =
      if w = v then none else p.unsettledAt v :=
  @unsettledAt_set p (p.finalize w c outcome now broken) w _ (.releasing c) hw rfl v

theorem finalize_claims (h : s.Claims) {outcome : Outcome}
    (hw : s.pool.tasks.workers[w]? = some (.finishing c outcome)) (now : Int) (broken : Bool)
    (hPool : s'.pool = s.pool.finalize w c outcome now broken)
    (hHighWater : s'.frameIdHighWater = s.frameIdHighWater) : s'.Claims := by
  have hOwn : s.pool.unsettledAt w = some c := unsettledAt_eq hw
  have hViews : ∀ v c', s'.pool.unsettledAt v = some c' → w ≠ v ∧ s.pool.unsettledAt v = some c' := by
    intro v c' hv
    rw [hPool, finalize_views hw] at hv
    split at hv
    · cases hv
    · next hNe => exact ⟨hNe, hv⟩
  rcases hResult : (if broken then .error "store" else
    settleJob c.job outcome now s.pool.clock s.pool.tables : Except String JobTables) with e | t
  · have hTables : s'.pool.tables = s.pool.tables := by
      rw [hPool]
      unfold PoolState.finalize
      rw [hResult]
    refine tables_claims h (fun v c' hv => (hViews v c' hv).2) ?_ ?_ ?_
    · exact fun v c' _ hIn => .inl (by rw [hTables]; exact hIn)
    · exact fun v c' _ row hRow _ => by rw [hTables] at hRow; exact hRow
    · rw [hTables, hHighWater]
      exact fun frameId hLe hGone => ⟨hLe, hGone⟩
  · have hTables : s'.pool.tables = t := by
      rw [hPool]
      unfold PoolState.finalize
      rw [hResult]
    have hOk : settleJob c.job outcome now s.pool.clock s.pool.tables = .ok t := by
      split at hResult
      · cases hResult
      · exact hResult
    obtain ⟨assign, hJobs, hAssign⟩ := settleJob_ok hOk
    refine update_claims h (runningAt c.job.id) assign (hTables ▸ hJobs)
      (hTables ▸ settleJob_frames hOk) hHighWater (fun job => (hAssign job).1)
      (fun v c' hv => (hViews v c' hv).2) fun v c' hv _ => ?_
    obtain ⟨hNe, hBefore⟩ := hViews v c' hv
    unfold runningAt
    rw [decide_eq_false (h.distinct w v c c' hOwn hBefore hNe).symm, Bool.false_and]

theorem sweepUpdate_claims (h : s.Claims)
    (hUndisturbed : s.UndisturbedStep (.pool (.sweepUpdate false))) :
    ({ s with pool := s.pool.step (.sweepUpdate false) } : SchedulerState).Claims := by
  unfold PoolState.step
  dsimp only
  split
  case h_2 => exact h
  case h_1 joined hSweep =>
    refine update_claims h (stale visibilityTimeoutMs s.pool.clock)
      (fun job => { job with state := .pending, updatedAt := s.pool.clock }) rfl rfl rfl
      (fun _ => rfl) (fun v c hv => hv) fun v c hv hIn => ?_
    obtain ⟨worker, hWorker, hUnsettled⟩ := Option.bind_eq_some_iff.mp
      (show s.pool.unsettledAt v = some c from hv)
    rw [Bool.eq_false_iff]
    intro hStale
    exact hUndisturbed.sweep rfl (by rw [hSweep]; nofun) (by rw [hSweep]; nofun) c.job hIn hStale
      worker (List.mem_of_getElem? hWorker) c hUnsettled rfl

theorem deleteFrame_claims (h : s.Claims) (hFramesLe : ∀ frameId ∈ s.pool.tables.frames,
      frameId ≤ s.frameIdHighWater) (hFramed : ∀ row ∈ s.pool.tables.jobs, ∀ frameId ∈ row.frameId,
      frameId ∈ s.pool.tables.frames) (id : Int) (hPool : s'.pool = s.pool.step (.deleteFrame id))
    (hHighWater : s'.frameIdHighWater = s.frameIdHighWater) : s'.Claims := by
  have hTables : s'.pool.tables = deleteFrameJobs id s.pool.tables := by
    rw [hPool]
    rfl
  refine tables_claims h (fun v c hv => ?_) ?_ ?_ ?_
  · rw [hPool] at hv
    exact hv
  · intro v c _ hIn
    rw [hTables, hHighWater]
    by_cases hFrame : c.job.frameId = some id
    · refine .inr ⟨id, hFrame, hFramesLe id (hFramed c.job hIn id hFrame), fun hStill => ?_⟩
      exact absurd rfl (of_decide_eq_true (List.mem_filter.mp hStill).2)
    · exact .inl (List.mem_filter.mpr ⟨hIn, decide_eq_true hFrame⟩)
  · intro v c _ row hRow _
    rw [hTables] at hRow
    exact (List.mem_filter.mp hRow).1
  · intro frameId hLe hGone
    rw [hTables, hHighWater]
    exact ⟨hLe, fun hStill => hGone (List.mem_filter.mp hStill).1⟩

theorem cancelPendingVision_claims (h : s.Claims) :
    ({ s with pool := s.pool.step .cancelPendingVision } : SchedulerState).Claims := by
  refine tables_claims h (fun v c hv => hv) ?_ ?_ fun _ hLe hGone => ⟨hLe, hGone⟩
  · intro v c hv hIn
    refine .inl (List.mem_filter.mpr ⟨hIn, ?_⟩)
    unfold pendingVision
    rw [h.running v c hv]
    simp
  · exact fun v c _ row hRow _ => (List.mem_filter.mp hRow).1

/-- A new job has not the id of one with a worker. -/
theorem append_claims (h : s.Claims) {new : Job}
    (hJobs : s'.pool.tables.jobs = s.pool.tables.jobs ++ [new])
    (hFrames : s'.pool.tables.frames = s.pool.tables.frames)
    (hHighWater : s'.frameIdHighWater = s.frameIdHighWater)
    (hWorkers : s'.pool.tasks.workers = s.pool.tasks.workers)
    (hFresh : ∀ worker ∈ s.pool.tasks.workers, ∀ c ∈ worker.unsettled, c.job.id ≠ new.id) :
    s'.Claims := by
  have hFollows : Follows s.pool s'.pool := follows_of_same hWorkers
  refine tables_claims h (fun v c hv => hFollows.unsettled v ▸ hv) ?_ ?_ ?_
  · exact fun v c _ hIn => .inl (by rw [hJobs]; exact List.mem_append_left _ hIn)
  · intro v c hv row hRow hId
    rw [hJobs] at hRow
    rcases List.mem_append.mp hRow with hOld | hNew
    · exact hOld
    · rw [List.mem_singleton.mp hNew] at hId
      obtain ⟨worker, hWorker, hUnsettled⟩ := Option.bind_eq_some_iff.mp (hFollows.unsettled v ▸ hv)
      exact absurd hId.symm (hFresh worker (List.mem_of_getElem? hWorker) c hUnsettled)
  · rw [hFrames, hHighWater]
    exact fun frameId hLe hGone => ⟨hLe, hGone⟩

theorem insertFrame_claims (h : s.Claims) (capturedAt : Int) :
    (s.step (.insertFrame capturedAt)).Claims := by
  refine tables_claims h (fun v c hv => hv) (fun v c _ hIn => .inl hIn)
    (fun v c _ row hRow _ => hRow) fun frameId hLe hGone => ?_
  show frameId ≤ s.frameIdHighWater + 1 ∧ frameId ∉ (s.frameIdHighWater + 1) :: s.pool.tables.frames
  rw [List.mem_cons, not_or]
  exact ⟨by omega, by omega, hGone⟩

/-! ## Analyses -/

/-- Rows only age, nothing is analysed, and what was stored is remembered. -/
theorem aged_once (h : s.Once) (hAges : Ages s.pool.tables s'.pool.tables)
    (hSame : SameScheduler s s') (hAnalyses : s'.analyses = s.analyses)
    (hUnrecorded : s'.unrecorded = s.unrecorded)
    (hAnalysed : ∀ frameId ∈ s'.pool.tables.frames, frameId ∈ s.analysed → frameId ∈ s'.analysed)
    (hSub : ∀ frameId ∈ s'.analysed, frameId ∈ s.analysed)
    (hStored : ∀ v c, s.pool.storedAt v = some c → s'.pool.storedAt v = some c) : s'.Once where
  unlisted := by
    rw [hSame.producers]
    exact fun p rest hPhase frameId hIn hNow => h.unlisted p rest hPhase frameId hIn (hSub _ hNow)
  logged := by
    rw [hSame.enqueued]
    exact h.logged
  kept := by
    rw [hAnalyses, hSame.highWater]
    intro frameId hIn
    obtain ⟨hLe, hKept⟩ := h.kept frameId hIn
    exact ⟨hLe, fun hFrame => hAnalysed frameId hFrame (hKept (hAges.frames.subset hFrame))⟩
  bound := by
    rw [hAnalyses, hUnrecorded]
    exact h.bound
  flight := by
    rw [hAnalyses, hUnrecorded]
    intro row hRow hFlight frameId hFrame
    obtain ⟨before, hBefore, hId, -, hBeforeFrame, hBeforeFlight, -⟩ := hAges.rows row hRow
    rcases h.flight before hBefore (hBeforeFlight hFlight) frameId (hBeforeFrame ▸ hFrame) with
      hLe | ⟨v, c, hv, hSameId⟩
    · exact .inl hLe
    · exact .inr ⟨v, c, hStored v c hv, hSameId.trans hId.symm⟩

theorem completeJob_done {id clock : Int} {t t' : JobTables} (hOk : completeJob id clock t = .ok t')
    {row : Job} (hRow : row ∈ t'.jobs) (hId : row.id = id)
    (hRunning : ∀ before ∈ t.jobs, before.id = id → before.state = .running) :
    row.state = .done := by
  unfold completeJob at hOk
  dsimp only at hOk
  split at hOk
  · cases hOk
  · cases hOk
    obtain ⟨before, hBefore, ⟨-, rfl⟩ | ⟨hNot, rfl⟩⟩ := mem_updateJobs hRow
    · rfl
    · unfold runningAt at hNot
      rw [hRunning row hBefore hId, hId] at hNot
      simp at hNot

/-- A worker records the outcome of its job. The job of a stored analysis is then done, or
the analysis counts as unrecorded. -/
theorem finalize_once (h : s.Once) (hClaims : s.Claims) (hIds : (s.pool.tables.jobs.map Job.id).Nodup)
    (w : Nat) (now : Int) (broken : Bool) : (s.poolStep (.finalize w now broken)).Once := by
  have hAges := poolStep_ages hIds (e := .finalize w now broken) fun _ => nofun
  have hMore : ∀ frameId, s.unrecorded.count frameId ≤
      ((s.unrecordedBy w now broken).toList ++ s.unrecorded).count frameId := by
    intro frameId
    rw [List.count_append]
    exact Nat.le_add_left _ _
  refine ⟨h.unlisted, h.logged, ?_, ?_, ?_⟩
  · intro frameId hIn
    obtain ⟨hLe, hKept⟩ := h.kept frameId hIn
    exact ⟨hLe, fun hFrame => hKept (hAges.frames.subset hFrame)⟩
  · exact fun frameId => le_trans (h.bound frameId) (Nat.add_le_add_left (hMore frameId) 1)
  · intro row hRow hFlight frameId hFrame
    obtain ⟨before, hBefore, hId, hKind, hBeforeFrame, hBeforeFlight, -⟩ := hAges.rows row hRow
    rcases h.flight before hBefore (hBeforeFlight hFlight) frameId (hBeforeFrame ▸ hFrame) with
      hLe | ⟨v, c, hv, hSameId⟩
    · exact .inl (le_trans hLe (hMore frameId))
    have hUnsettled := unsettledAt_of_storedAt hv
    have hBeforeSame := hClaims.same v c hUnsettled before hBefore hSameId.symm
    rcases hWorker : s.pool.tasks.workers[w]? with - | worker
    · refine .inr ⟨v, c, ?_, hSameId.trans hId.symm⟩
      show (s.pool.step (.finalize w now broken)).storedAt v = some c
      unfold PoolState.step
      dsimp only
      rw [hWorker]
      exact hv
    by_cases hOther : w = v ∧ worker = .finishing c (.complete true)
    · obtain ⟨rfl, rfl⟩ := hOther
      -- this is the job that is settled
      have hVision : c.job.kind = .visionTag := by
        rw [← hBeforeSame]
        exact (inFlight_iff.mp (hBeforeFlight hFlight)).1
      have hCFrame : c.job.frameId = some frameId := by
        rw [← hBeforeSame, ← hBeforeFrame]
        exact hFrame
      rcases hResult : (if broken then .error "store" else settleJob c.job (.complete true) now
        s.pool.clock s.pool.tables : Except String JobTables) with e | t
      · left
        have hFailed : (broken || !(settleJob c.job (.complete true) now s.pool.clock
            s.pool.tables).isOk) = true := by
          rcases broken with - | -
          · rw [if_neg Bool.false_ne_true] at hResult
            rw [hResult]
            rfl
          · rfl
        have hBy : s.unrecordedBy w now broken = some frameId := by
          unfold SchedulerState.unrecordedBy
          rw [hWorker]
          dsimp only
          rw [hVision, hFailed, hCFrame]
          rfl
        show s.analyses.count frameId ≤
          ((s.unrecordedBy w now broken).toList ++ s.unrecorded).count frameId
        rw [hBy, List.count_append]
        have := h.bound frameId
        have hOne : (some frameId).toList.count frameId = 1 := by simp
        omega
      · exfalso
        have hOk : completeJob c.job.id s.pool.clock s.pool.tables = .ok t := by
          split at hResult
          · cases hResult
          · exact hResult
        have hTables : (s.poolStep (.finalize w now broken)).pool.tables = t := by
          show (s.pool.step (.finalize w now broken)).tables = t
          unfold PoolState.step
          dsimp only
          rw [hWorker]
          dsimp only
          unfold PoolState.finalize
          rw [hResult]
        rw [hTables] at hRow
        have hDone := completeJob_done hOk hRow (hId.trans hSameId.symm) fun other hIn hOtherId => by
          rw [hClaims.same w c hUnsettled other hIn hOtherId]
          exact hClaims.running w c hUnsettled
        rcases (inFlight_iff.mp hFlight).2 with hState | hState
        · cases hDone.symm.trans hState
        · cases hDone.symm.trans hState
    · -- the worker that stored the analysis is another
      refine .inr ⟨v, c, ?_, hSameId.trans hId.symm⟩
      show (s.pool.step (.finalize w now broken)).storedAt v = some c
      unfold PoolState.step
      dsimp only
      rw [hWorker]
      have hNe : w ≠ v := by
        rintro rfl
        rw [storedAt_eq hWorker] at hv
        refine hOther ⟨rfl, ?_⟩
        unfold PoolWorker.stored at hv
        split at hv
        · cases hv
          rfl
        · cases hv
      split
      · next c' outcome hSome =>
        cases hSome
        rw [@storedAt_set s.pool (s.pool.finalize w c' outcome now broken) w _ (.releasing c')
          hWorker rfl, if_neg hNe]
        exact hv
      · exact hv

/-- A worker at a job of a frame that is there: the job is in flight, and no analysis of the
frame is more than the ones that were not recorded. -/
theorem processing_once (h : s.Once) (hClaims : s.Claims)
    (hw : s.pool.tasks.workers[w]? = some (.processing c)) (hKind : c.job.kind = .visionTag)
    {frameId : Int} (hFrame : c.job.frameId = some frameId)
    (hThere : frameId ∈ s.pool.tables.frames) :
    c.job ∈ s.pool.tables.jobs ∧ inFlight c.job = true ∧
      s.analyses.count frameId ≤ s.unrecorded.count frameId := by
  have hUnsettled : s.pool.unsettledAt w = some c := unsettledAt_eq hw
  have hFlight : inFlight c.job = true :=
    inFlight_iff.mpr ⟨hKind, .inr (hClaims.running w c hUnsettled)⟩
  rcases hClaims.kept w c hUnsettled with hIn | ⟨gone, hGoneFrame, -, hGone⟩
  · refine ⟨hIn, hFlight, ?_⟩
    rcases h.flight c.job hIn hFlight frameId hFrame with hLe | ⟨v, c', hv, hId⟩
    · exact hLe
    · have hNe : v ≠ w := by
        rintro rfl
        rw [storedAt_eq hw] at hv
        cases hv
      exact absurd hId (hClaims.distinct v w c' c (unsettledAt_of_storedAt hv) hUnsettled hNe)
  · rw [hFrame] at hGoneFrame
    cases hGoneFrame
    exact absurd hThere hGone

theorem storeAnalysis_once (h : s.Once) (hClaims : s.Claims) (hInv : s.Inv)
    (hw : s.pool.tasks.workers[w]? = some (.processing c)) (hKind : c.job.kind = .visionTag)
    {frameId : Int} (hFrame : c.job.frameId = some frameId) (broken : Bool) :
    (s.storeAnalysis w c frameId broken).Once := by
  unfold SchedulerState.storeAnalysis
  split
  · exact aged_once h (.refl hInv.ids) ⟨rfl, rfl, rfl, rfl⟩ rfl rfl (fun _ _ hIn => hIn)
      (fun _ hIn => hIn) fun v c' hv => storedAt_of_set hw rfl rfl hv
  next hStores =>
  simp only [Bool.or_eq_true, Bool.not_eq_true', decide_eq_false_iff_not, not_or, not_not] at hStores
  obtain ⟨hJob, hFlight, hCount⟩ := processing_once h hClaims hw hKind hFrame hStores.2
  have hAnalysed : ∀ other, other ∈ (if s.analysed.contains frameId then s.analysed
      else s.analysed ++ [frameId]) ↔ other ∈ s.analysed ∨ other = frameId := by
    intro other
    split
    · next hIn =>
      refine ⟨.inl, fun hEither => hEither.elim id fun hSame => ?_⟩
      exact hSame ▸ List.contains_iff_mem.mp hIn
    · rw [List.mem_append, List.mem_singleton]
  refine ⟨?_, h.logged, ?_, ?_, ?_⟩
  · intro p rest hPhase other hIn hNow
    rcases (hAnalysed other).mp hNow with hOld | rfl
    · exact h.unlisted p rest hPhase other hIn hOld
    · -- the job of a frame on the list would have kept it off
      have hOff := (hInv.listed p rest hPhase).2 other hIn c.job hJob hFrame
      obtain ⟨-, hState⟩ := inFlight_iff.mp hFlight
      rw [keepsOff_iff.mpr ⟨hKind, hState.imp_right .inl⟩] at hOff
      cases hOff
  · intro other hIn
    rcases List.mem_cons.mp hIn with rfl | hOld
    · exact ⟨hInv.frames_le _ hStores.2, fun _ => (hAnalysed _).mpr (.inr rfl)⟩
    · obtain ⟨hLe, hKept⟩ := h.kept other hOld
      exact ⟨hLe, fun hThere => (hAnalysed other).mpr (.inl (hKept hThere))⟩
  · intro other
    show (frameId :: s.analyses).count other ≤ 1 + s.unrecorded.count other
    rw [List.count_cons]
    split
    · next hSame =>
      rw [← beq_iff_eq.mp hSame]
      omega
    · exact h.bound other
  · intro row hRow hRowFlight other hOther
    show (frameId :: s.analyses).count other ≤ _ ∨ _
    rw [List.count_cons]
    split
    · next hSame =>
      have hSame := beq_iff_eq.mp hSame
      refine .inr ⟨w, c, ?_, ?_⟩
      · show (s.pool.setWorker w (.finishing c (.complete true))).storedAt w = some c
        rw [storedAt_set hw rfl, if_pos rfl]
        rfl
      · exact hInv.one c.job hJob row hRow hFlight hRowFlight
          (hFrame.trans (hSame ▸ (Option.mem_def.mp hOther).symm))
    · rcases h.flight row hRow hRowFlight other hOther with hLe | ⟨v, c', hv, hId⟩
      · exact .inl hLe
      · exact .inr ⟨v, c', storedAt_of_set hw rfl rfl hv, hId⟩

theorem analyse_once (h : s.Once) (hClaims : s.Claims) (hInv : s.Inv)
    (hw : s.pool.tasks.workers[w]? = some (.processing c)) (hKind : c.job.kind = .visionTag)
    (run : VisionRun) : (s.analyse w c run).Once := by
  have hEnds : ∀ outcome, ({ s with
      pool := s.pool.setWorker w (.finishing c outcome) } : SchedulerState).Once := fun outcome =>
    aged_once h (.refl hInv.ids) ⟨rfl, rfl, rfl, rfl⟩ rfl rfl (fun _ _ hIn => hIn)
      (fun _ hIn => hIn) fun v c' hv => storedAt_of_set hw rfl rfl hv
  unfold SchedulerState.analyse
  dsimp only
  split
  · exact hEnds _
  · next frameId hFrame =>
    cases run
    case analysed broken => exact storeAnalysis_once h hClaims hInv hw hKind hFrame broken
    case purged =>
      dsimp only
      split
      · exact h
      · exact hEnds _
    all_goals exact hEnds _

theorem analyse_claims (h : s.Claims) (hw : s.pool.tasks.workers[w]? = some (.processing c))
    (run : VisionRun) : (s.analyse w c run).Claims := by
  obtain ⟨hSame, hTables⟩ := analyse_same s w c run
  refine follows_claims h ?_ hTables hSame.highWater
  have hEnds : ∀ outcome, Follows s.pool (s.pool.setWorker w (.finishing c outcome)) :=
    fun outcome => follows_of_set hw rfl rfl rfl
  unfold SchedulerState.analyse
  dsimp only
  split
  · exact hEnds _
  · cases run
    case analysed broken =>
      dsimp only
      unfold SchedulerState.storeAnalysis
      split
      · exact hEnds _
      · exact hEnds _
    case purged =>
      dsimp only
      split
      · exact follows_of_same rfl
      · exact hEnds _
    all_goals exact hEnds _

/-- The producers move, and list only frames without an analysis. -/
theorem producers_once (h : s.Once) {gate : Option Producer} {producers : Producer → ProducerPhase}
    (hUnlisted : ∀ p rest, producers p = .enqueuing rest → ∀ frameId ∈ rest,
      frameId ∉ s.analysed) :
    ({ s with gate := gate, producers := producers } : SchedulerState).Once :=
  ⟨hUnlisted, h.logged, h.kept, h.bound, h.flight⟩

theorem setProducer_once (h : s.Once) {gate : Option Producer} {p : Producer}
    {phase : ProducerPhase} (hOwn : ∀ rest, phase = .enqueuing rest → ∀ frameId ∈ rest,
      frameId ∉ s.analysed) :
    ({ s with gate := gate }.setProducer p phase : SchedulerState).Once := by
  refine producers_once h fun q rest hPhase => ?_
  by_cases hSame : q = p
  · subst hSame
    rw [Function.update_self] at hPhase
    exact hOwn rest hPhase
  · rw [Function.update_of_ne hSame] at hPhase
    exact h.unlisted q rest hPhase

/-- A new job is of another kind, or of a frame that was never analysed. -/
theorem append_once (h : s.Once) {new : Job} {pool : PoolState}
    (hJobs : pool.tables.jobs = s.pool.tables.jobs ++ [new])
    (hFrames : pool.tables.frames = s.pool.tables.frames)
    (hWorkers : pool.tasks.workers = s.pool.tasks.workers)
    (hFramed : ∀ frameId ∈ new.frameId, frameId ∈ s.pool.tables.frames)
    (hNew : inFlight new = true → ∀ frameId ∈ new.frameId, frameId ∉ s.analysed) :
    ({ s with pool := pool } : SchedulerState).Once := by
  refine ⟨h.unlisted, h.logged, ?_, h.bound, ?_⟩
  · intro frameId hIn
    obtain ⟨hLe, hKept⟩ := h.kept frameId hIn
    exact ⟨hLe, fun hThere => hKept (hFrames ▸ hThere)⟩
  · intro row hRow hFlight frameId hFrame
    have hRow : row ∈ pool.tables.jobs := hRow
    rw [hJobs] at hRow
    rcases List.mem_append.mp hRow with hOld | hLast
    · rcases h.flight row hOld hFlight frameId hFrame with hLe | ⟨v, c, hv, hId⟩
      · exact .inl hLe
      · exact .inr ⟨v, c, (follows_of_same hWorkers).stored v c hv, hId⟩
    · rw [List.mem_singleton.mp hLast] at hFlight hFrame
      left
      have hNone : s.analyses.count frameId = 0 := by
        rw [List.count_eq_zero]
        intro hIn
        exact hNew hFlight frameId hFrame ((h.kept frameId hIn).2 (hFramed frameId hFrame))
      show s.analyses.count frameId ≤ s.unrecorded.count frameId
      rw [hNone]
      exact Nat.zero_le _

/-! ## Steps -/

theorem enqueueFrame_once (h : s.Once) (hClaims : s.Claims) {p : Producer} {frameId : Int}
    {rest : List Int} (hPhase : s.producers p = .enqueuing (frameId :: rest)) (broken : Bool)
    (hUndisturbed : s.UndisturbedStep (.enqueue p broken)) :
    (s.enqueueFrame p frameId rest broken).Claims ∧ (s.enqueueFrame p frameId rest broken).Once := by
  have hUnlisted := h.unlisted p _ hPhase
  have hRest : ∀ rest', ProducerPhase.enqueuing rest = .enqueuing rest' → ∀ other ∈ rest',
      other ∉ s.analysed := by
    intro rest' hSame other hIn
    cases hSame
    exact hUnlisted other (List.mem_cons_of_mem _ hIn)
  have hSkipped : (s.setProducer p (.enqueuing rest)).Claims ∧
      (s.setProducer p (.enqueuing rest)).Once :=
    ⟨follows_claims hClaims (follows_of_same rfl) rfl rfl, setProducer_once h hRest⟩
  unfold SchedulerState.enqueueFrame
  split
  · exact hSkipped
  next hBroken =>
  split
  case h_2 => exact hSkipped
  case h_1 id t hOk =>
    obtain ⟨new, hJobs, hFrames, hId, -, hFrame, -, -, hFramed⟩ := enqueueJob_ok hOk
    have hFrame : new.frameId = some frameId := hFrame
    have hFresh := hUndisturbed.fresh (SchedulerState.visionTagJob frameId) (by
      unfold SchedulerState.newJob
      rw [Bool.eq_false_iff.mpr hBroken]
      dsimp only
      rw [hPhase]
      rfl) (id, t) (by rw [hOk]; rfl)
    constructor
    · exact append_claims hClaims hJobs hFrames rfl rfl (hId ▸ hFresh)
    · have hAppended : ({ s with pool := { s.pool with tables := t } } : SchedulerState).Once := by
        refine append_once h hJobs hFrames rfl (hFrame ▸ hFramed) fun _ other hOther => ?_
        rw [hFrame] at hOther
        cases hOther
        exact hUnlisted frameId List.mem_cons_self
      have hMoved : ({ s with pool := { s.pool with tables := t } }.setProducer p
          (.enqueuing rest) : SchedulerState).Once := setProducer_once hAppended hRest
      refine ⟨hMoved.unlisted, ?_, hMoved.kept, hMoved.bound, hMoved.flight⟩
      intro e he
      rcases List.mem_cons.mp he with rfl | hOld
      · show s.analysed.contains frameId = false
        rw [Bool.eq_false_iff]
        exact fun hIn => hUnlisted frameId List.mem_cons_self (List.contains_iff_mem.mp hIn)
      · exact h.logged e hOld

theorem embed_once (h : s.Once) (hClaims : s.Claims) {job : NewJob} (hKind : job.kind ≠ .visionTag)
    (hUndisturbed : s.UndisturbedStep (.pool (.enqueue job))) :
    ({ s with pool := s.pool.step (.enqueue job) } : SchedulerState).Claims ∧
      ({ s with pool := s.pool.step (.enqueue job) } : SchedulerState).Once := by
  unfold PoolState.step
  dsimp only
  rcases hOk : enqueueJob job s.pool.clock s.pool.tables with e | ⟨id, t⟩
  · exact ⟨hClaims, h⟩
  · obtain ⟨new, hJobs, hFrames, hId, hNewKind, hFrame, -, -, hFramed⟩ := enqueueJob_ok hOk
    have hFresh := hUndisturbed.fresh job rfl (id, t) (by rw [hOk]; rfl)
    refine ⟨append_claims hClaims hJobs hFrames rfl rfl (hId ▸ hFresh),
      append_once h hJobs hFrames rfl (hFrame ▸ hFramed) fun hFlight => ?_⟩
    exact absurd (hNewKind ▸ (inFlight_iff.mp hFlight).1) hKind

/-- A step of the pool that leaves the rows as they are. -/
theorem follows_step (h : s.Once) (hClaims : s.Claims) (hIds : (s.pool.tables.jobs.map Job.id).Nodup)
    {pool : PoolState} (hFollows : Follows s.pool pool) (hTables : pool.tables = s.pool.tables) :
    ({ s with pool := pool } : SchedulerState).Claims ∧
      ({ s with pool := pool } : SchedulerState).Once :=
  ⟨follows_claims hClaims hFollows hTables rfl,
    aged_once h (by rw [hTables]; exact .refl hIds) ⟨rfl, rfl, rfl, rfl⟩ rfl rfl
      (fun _ _ hIn => hIn) (fun _ hIn => hIn) hFollows.stored⟩

theorem claim_step (h : s.Once) (hClaims : s.Claims) (hIds : (s.pool.tables.jobs.map Job.id).Nodup)
    (w : Nat) (kinds : List JobKind) (now : Int) (broken : Bool) :
    (s.poolStep (.claim w kinds now broken)).Claims ∧
      (s.poolStep (.claim w kinds now broken)).Once := by
  have hAges := poolStep_ages hIds (e := .claim w kinds now broken) fun _ => nofun
  have hClaimed : (s.poolStep (.claim w kinds now broken)).Claims ∧
      ∀ v c, s.pool.storedAt v = some c →
        (s.poolStep (.claim w kinds now broken)).pool.storedAt v = some c := by
    show ({ s with pool := s.pool.step (.claim w kinds now broken) } : SchedulerState).Claims ∧
      ∀ v c, _ → (s.pool.step (.claim w kinds now broken)).storedAt v = some c
    unfold PoolState.step
    dsimp only
    split
    · next hw =>
      split
      · exact ⟨follows_claims hClaims (follows_of_set hw rfl rfl rfl) rfl rfl,
          fun v c hv => storedAt_of_set hw rfl rfl hv⟩
      · refine ⟨claim_claims hClaims hIds hw kinds now, fun v c hv => ?_⟩
        unfold PoolState.claim
        split
        · exact storedAt_of_set hw rfl rfl hv
        · exact storedAt_of_set hw rfl rfl hv
    · exact ⟨hClaims, fun v c hv => hv⟩
  exact ⟨hClaimed.1, aged_once h hAges (poolStep_same s _) rfl rfl (fun _ _ hIn => hIn)
    (fun _ hIn => hIn) hClaimed.2⟩

theorem pool_step_once (h : s.Once) (hClaims : s.Claims) (hInv : s.Inv) (e : PoolEvent)
    (hUndisturbed : s.UndisturbedStep (.pool e)) : (s.poolStep e).Claims ∧ (s.poolStep e).Once := by
  cases e
  case enqueue job =>
    show (if job.kind = .visionTag then s else _ : SchedulerState).Claims ∧
      (if job.kind = .visionTag then s else _ : SchedulerState).Once
    split
    · exact ⟨hClaims, h⟩
    · next hKind => exact embed_once h hClaims hKind hUndisturbed
  case insertFrame id => exact ⟨hClaims, h⟩
  case process w outcome =>
    unfold SchedulerState.poolStep
    dsimp only
    split
    · split
      · exact ⟨hClaims, h⟩
      · refine follows_step h hClaims hInv.ids (step_follows _ (by rintro _ _ _ _ ⟨⟩)
          (by rintro _ _ _ ⟨⟩)) ?_
        unfold PoolState.step
        dsimp only
        split <;> rfl
    · exact ⟨hClaims, h⟩
  case claim w kinds now broken => exact claim_step h hClaims hInv.ids w kinds now broken
  case finalize w now broken =>
    refine ⟨?_, finalize_once h hClaims hInv.ids w now broken⟩
    rcases hWorker : s.pool.tasks.workers[w]? with - | worker
    · refine follows_claims hClaims ?_ ?_ rfl
      · show Follows s.pool (s.pool.step (.finalize w now broken))
        unfold PoolState.step
        dsimp only
        rw [hWorker]
        exact follows_of_same rfl
      · show (s.pool.step (.finalize w now broken)).tables = _
        unfold PoolState.step
        dsimp only
        rw [hWorker]
    · -- only a worker that is finishing writes anything
      by_cases hFinishing : ∃ c outcome, worker = .finishing c outcome
      · obtain ⟨c, outcome, rfl⟩ := hFinishing
        refine finalize_claims hClaims hWorker now broken ?_ rfl
        show s.pool.step (.finalize w now broken) = _
        unfold PoolState.step
        dsimp only
        rw [hWorker]
      · have hStays : s.pool.step (.finalize w now broken) = s.pool := by
          unfold PoolState.step
          dsimp only
          rw [hWorker]
          split
          · next c outcome hSome => exact absurd ⟨c, outcome, Option.some.inj hSome⟩ hFinishing
          · rfl
        refine follows_claims hClaims ?_ ?_ rfl
        · show Follows s.pool (s.pool.step (.finalize w now broken))
          rw [hStays]
          exact follows_of_same rfl
        · show (s.pool.step (.finalize w now broken)).tables = _
          rw [hStays]
  case sweepUpdate broken =>
    have hFollows := step_follows s.pool (e := .sweepUpdate broken) (by rintro _ _ _ _ ⟨⟩)
      (by rintro _ _ _ ⟨⟩)
    rcases broken with - | -
    · exact ⟨sweepUpdate_claims hClaims hUndisturbed,
        aged_once h (poolStep_ages hInv.ids (by rintro _ ⟨⟩)) (poolStep_same s _) rfl rfl
          (fun _ _ hIn => hIn) (fun _ hIn => hIn) hFollows.stored⟩
    · -- a sweep that fails leaves the tables alone
      refine follows_step h hClaims hInv.ids hFollows ?_
      unfold PoolState.step
      dsimp only
      split <;> rfl
  case deleteFrame id =>
    refine ⟨deleteFrame_claims hClaims hInv.frames_le hInv.framed id rfl rfl, ?_⟩
    refine aged_once h (poolStep_ages hInv.ids (by rintro _ ⟨⟩)) (poolStep_same s _) rfl rfl ?_ ?_
      fun v c hv => hv
    · intro frameId hThere hIn
      have hNe : decide (frameId ≠ id) = true := (List.mem_filter.mp hThere).2
      exact List.mem_filter.mpr ⟨hIn, hNe⟩
    · exact fun frameId hIn => (List.mem_filter.mp hIn).1
  case cancelPendingVision =>
    exact ⟨cancelPendingVision_claims hClaims,
      aged_once h (poolStep_ages hInv.ids (by rintro _ ⟨⟩)) (poolStep_same s _) rfl rfl
        (fun _ _ hIn => hIn) (fun _ hIn => hIn) fun v c hv => hv⟩
  -- the other events leave jobs and frames alone
  all_goals
    refine follows_step h hClaims hInv.ids (step_follows _ (by rintro _ _ _ _ ⟨⟩)
      (by rintro _ _ _ ⟨⟩)) ?_
    unfold PoolState.step
    first
    | rfl
    | dsimp only
      (repeat' split) <;> rfl

theorem step_claims_once (h : s.Once) (hClaims : s.Claims) (hInv : s.Inv) (e : SchedulerEvent)
    (hUndisturbed : s.UndisturbedStep e) : (s.step e).Claims ∧ (s.step e).Once := by
  -- nothing but a producer's phase changes
  have hMoves : ∀ {gate p phase}, (∀ rest, phase = .enqueuing rest → ∀ frameId ∈ rest,
      frameId ∉ s.analysed) → ({ s with gate := gate }.setProducer p phase : SchedulerState).Claims ∧
        ({ s with gate := gate }.setProducer p phase : SchedulerState).Once :=
    fun hOwn => ⟨follows_claims hClaims (follows_of_same rfl) rfl rfl, setProducer_once h hOwn⟩
  cases e
  case pool e => exact pool_step_once h hClaims hInv e hUndisturbed
  case analyse w run =>
    unfold SchedulerState.step
    dsimp only
    split
    · next c hw =>
      split
      · next hKind =>
        exact ⟨analyse_claims hClaims hw run, analyse_once h hClaims hInv hw hKind run⟩
      · exact ⟨hClaims, h⟩
    · exact ⟨hClaims, h⟩
  case insertFrame capturedAt =>
    refine ⟨insertFrame_claims hClaims capturedAt, h.unlisted, h.logged, ?_, h.bound, h.flight⟩
    intro frameId hIn
    obtain ⟨hLe, hKept⟩ := h.kept frameId hIn
    show frameId ≤ s.frameIdHighWater + 1 ∧
      (frameId ∈ (s.frameIdHighWater + 1) :: s.pool.tables.frames → _)
    refine ⟨by omega, fun hThere => ?_⟩
    rcases List.mem_cons.mp hThere with rfl | hOld
    · omega
    · exact hKept hOld
  case timerTick settings =>
    unfold SchedulerState.step
    dsimp only
    split
    · split
      · exact hMoves nofun
      · exact ⟨hClaims, h⟩
    · exact ⟨hClaims, h⟩
  case idleTick settings idleMs countBroken =>
    unfold SchedulerState.step
    dsimp only
    split
    · unfold SchedulerState.idleTick
      dsimp only
      generalize (settings.idleEnabled && _ && _) = ready
      rcases ready with - | -
      · exact ⟨hClaims, h⟩
      · exact hMoves nofun
    · exact ⟨hClaims, h⟩
  case lock p =>
    unfold SchedulerState.step
    dsimp only
    split
    · exact hMoves nofun
    · exact ⟨hClaims, h⟩
  case list p broken =>
    unfold SchedulerState.step
    dsimp only
    split
    · next batch _ =>
      split
      · exact hMoves nofun
      · refine hMoves fun rest hSame frameId hIn => ?_
        cases hSame
        exact ((untaggedFrameIds_listed hInv batch none).2 frameId hIn).1
    · exact ⟨hClaims, h⟩
  case enqueue p broken =>
    unfold SchedulerState.step
    dsimp only
    split
    · next frameId rest hPhase => exact enqueueFrame_once h hClaims hPhase broken hUndisturbed
    · exact ⟨hClaims, h⟩
  case unlock p =>
    unfold SchedulerState.step
    dsimp only
    split
    · exact hMoves nofun
    · exact ⟨hClaims, h⟩

theorem start_claims (clock : Int) (concurrency : Nat) :
    (SchedulerState.start clock concurrency).Claims := by
  have hNone : ∀ w, (SchedulerState.start clock concurrency).pool.unsettledAt w = none := by
    intro w
    unfold PoolState.unsettledAt
    show ((List.replicate (max concurrency 1) PoolWorker.idle)[w]?).bind _ = none
    rw [List.getElem?_replicate]
    split <;> rfl
  refine ⟨?_, ?_, ?_, ?_⟩
  all_goals intro w
  all_goals simp only [hNone, reduceCtorEq, false_implies, implies_true]

theorem start_once (clock : Int) (concurrency : Nat) :
    (SchedulerState.start clock concurrency).Once :=
  ⟨fun _ _ hPhase => (by cases hPhase), fun _ hIn => absurd hIn List.not_mem_nil,
    fun _ hIn => absurd hIn List.not_mem_nil, fun _ => Nat.zero_le _,
    fun _ hIn => absurd hIn List.not_mem_nil⟩

theorem run_once (h : s.Once) (hClaims : s.Claims) (hInv : s.Inv) (events : List SchedulerEvent)
    (hUndisturbed : s.Undisturbed events) : (s.run events).Once := by
  induction events generalizing s with
  | nil => exact h
  | cons e rest ih =>
    obtain ⟨hClaims', h'⟩ := step_claims_once h hClaims hInv e hUndisturbed.1
    exact ih h' hClaims' (step_schedulerInv hInv e) hUndisturbed.2

/-- **The scheduler queues no frame twice**, and while jobs stay with their workers it queues
none that has an analysis, and analyses none again that did not fail to be recorded. -/
theorem queued_once (clock : Int) (concurrency : Nat) (events : List SchedulerEvent) :
    ((SchedulerState.start clock concurrency).run events).OneInFlight ∧
      ((SchedulerState.start clock concurrency).Undisturbed events →
        ((SchedulerState.start clock concurrency).run events).AnalysedOnce) := by
  refine ⟨one_job_in_flight (run_schedulerInv (start_schedulerInv clock concurrency) events),
    fun hUndisturbed => ?_⟩
  have h := run_once (start_once clock concurrency) (start_claims clock concurrency)
    (start_schedulerInv clock concurrency) events hUndisturbed
  exact ⟨h.logged, h.bound⟩

/-! ## Analyses that come again -/

def everyMinute : VisionSettings where
  timerEnabled := true
  idleEnabled := false
  idleSecs := 300
  batchSize := 8

/-- One frame is listed and its job enqueued, and a worker stores its analysis. -/
def analysedRun : List SchedulerEvent :=
  [.insertFrame 1000, .timerTick everyMinute, .lock .timer, .list .timer false,
    .enqueue .timer false, .unlock .timer, .pool (.look 0), .pool (.claim 0 [.visionTag] 0 false),
    .pool (.register 0), .analyse 0 (.analysed false)]

/-- The job cannot be completed; it is swept and run again. -/
def unrecordedRun : List SchedulerEvent :=
  analysedRun ++ [.pool (.finalize 0 0 true), .pool (.release 0), .pool (.tick 300000),
    .pool .sweepTest, .pool (.sweepUpdate false), .pool (.look 0),
    .pool (.claim 0 [.visionTag] 300000 false), .pool (.register 0), .analyse 0 (.analysed false)]

/-- The sweep has looked before the job is claimed, and requeues it five minutes later under
its worker's hands; the job is cancelled, and the frame is listed again before the worker
stores the analysis. -/
def disturbedRun : List SchedulerEvent :=
  [.insertFrame 1000, .timerTick everyMinute, .lock .timer, .list .timer false,
    .enqueue .timer false, .unlock .timer, .pool .sweepTest, .pool (.look 0),
    .pool (.claim 0 [.visionTag] 0 false), .pool (.register 0), .pool (.tick 300000),
    .pool (.sweepUpdate false), .pool .cancelPendingVision, .timerTick everyMinute, .lock .timer,
    .list .timer false, .analyse 0 (.analysed false), .enqueue .timer false]

theorem queued_once_unrecorded :
    (SchedulerState.start 0 1).Undisturbed unrecordedRun ∧
      ((SchedulerState.start 0 1).run unrecordedRun).AnalysedOnce := by
  have hUndisturbed : (SchedulerState.start 0 1).Undisturbed unrecordedRun := by decide +kernel
  exact ⟨hUndisturbed, (queued_once 0 1 unrecordedRun).2 hUndisturbed⟩

/-- A frame is analysed twice, or its job is enqueued though it has an analysis. -/
theorem analysed_twice :
    ¬ ((SchedulerState.start 0 1).run unrecordedRun).QueuedOnce ∧
      ¬ ((SchedulerState.start 0 1).run disturbedRun).QueuedOnce := by
  constructor
  · intro h
    have hTwice : ((SchedulerState.start 0 1).run unrecordedRun).analyses.count 1 = 2 := by
      decide +kernel
    have hOnce := h.once 1
    omega
  · intro h
    have hAnalysed : ∃ e ∈ ((SchedulerState.start 0 1).run disturbedRun).enqueued,
        e.analysed = true := by
      decide +kernel
    obtain ⟨e, he, hAnalysed⟩ := hAnalysed
    cases hAnalysed.symm.trans (h.untagged e he).1

end ScreenSearch.Kernel
