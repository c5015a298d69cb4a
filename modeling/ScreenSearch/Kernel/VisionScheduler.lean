import Mathlib.Logic.Function.Basic
import ScreenSearch.Kernel.WorkerPool
import ScreenSearch.Store.SearchEffects

/-!
# The vision scheduler

Two producers, one on a timer and one for when the user is idle, list frames that have no
analysis yet and enqueue a job for each, one by one, under a gate of their own. The workers of
the pool, its sweep and the rest of the program know nothing of the gate and take their steps
in between. One step is one statement of the store or one uninterrupted run of the code.

Main results:

* `run_schedulerInv` — a frame that a producer has listed gets no other job and none of its
  jobs comes back, whatever the others do;
* `one_job_in_flight` — no frame has two jobs in flight, and none is enqueued over a dead one.
-/

namespace ScreenSearch.Kernel

open Store Sorting

/-! ## The queue -/

/-- A `vision_tag` job that is pending or running. -/
def inFlight (job : Job) : Bool :=
  decide (job.kind = .visionTag) && (decide (job.state = .pending) || decide (job.state = .running))

/-- A `vision_tag` job that keeps its frame off the list. -/
def keepsOff (job : Job) : Bool :=
  decide (job.kind = .visionTag) && (decide (job.state = .pending) || decide (job.state = .running)
    || decide (job.state = .dead))

def pendingVisionJobCount (t : JobTables) : Nat := t.jobs.countP inFlight

/-! ## The state -/

inductive Producer where
  | timer | idle
  deriving DecidableEq, Repr

inductive ProducerPhase where
  /-- Between two ticks. -/
  | sleeping
  /-- Is about to lock the gate. -/
  | waiting (batch : Nat)
  /-- Holds the gate, and is about to list frames. -/
  | listing (batch : Nat)
  /-- Holds the gate, and has these frames still to enqueue. -/
  | enqueuing (rest : List Int)
  deriving DecidableEq, Repr

/-- A job that a producer enqueued, and what there was of its frame at that moment. -/
structure Enqueued where
  frameId : Int
  analysed : Bool
  dead : Bool
  inFlight : Bool
  deriving DecidableEq, Repr

structure SchedulerState where
  pool : PoolState
  /-- The largest frame id that was given out. -/
  frameIdHighWater : Int
  /-- `frames.captured_at`. -/
  capturedAt : Int → Int
  /-- The frames with a row in `vision_analysis`. -/
  analysed : List Int
  gate : Option Producer
  producers : Producer → ProducerPhase
  -- what happened, latest first
  enqueued : List Enqueued
  /-- The frames that were analysed successfully. -/
  analyses : List Int
  /-- The frames whose analysis was stored, and whose job could then not be completed. -/
  unrecorded : List Int

/-- The settings that the loops read. -/
structure VisionSettings where
  timerEnabled : Bool
  idleEnabled : Bool
  idleSecs : Nat
  batchSize : Nat
  deriving DecidableEq, Repr

/-- Where a run of `vision_tag_outcome` for a job with a frame ends. -/
inductive VisionRun where
  | unattached
  | readFailed
  /-- The frame was purged after its job was enqueued. -/
  | purged
  | imageBusy
  | imageMissing
  | analyzeFailed
  /-- The model has answered, and the analysis is to be stored. -/
  | analysed (broken : Bool)
  deriving DecidableEq, Repr

inductive SchedulerEvent where
  /-- A step of the pool, or of the rest of the program. -/
  | pool (e : PoolEvent)
  /-- A worker's run for a `vision_tag` job. -/
  | analyse (w : Nat) (run : VisionRun)
  | insertFrame (capturedAt : Int)
  -- the producers
  | timerTick (s : VisionSettings)
  | idleTick (s : VisionSettings) (idleMs : Option Nat) (countBroken : Bool)
  | lock (p : Producer)
  | list (p : Producer) (broken : Bool)
  | enqueue (p : Producer) (broken : Bool)
  | unlock (p : Producer)
  deriving DecidableEq, Repr

namespace SchedulerState

def setProducer (s : SchedulerState) (p : Producer) (phase : ProducerPhase) : SchedulerState :=
  { s with producers := Function.update s.producers p phase }

/-! ## The producers -/

/-- Oldest first, at most `limit`, captured within `range` if there is one. -/
def untaggedFrameIds (limit : Nat) (range : Option (Int × Int)) (s : SchedulerState) : List Int :=
  (sortByKey s.capturedAt (s.pool.tables.frames.filter fun id =>
    !s.analysed.contains id
    && !(s.pool.tables.jobs.any fun job => decide (job.frameId = some id) && keepsOff job)
    && range.all fun (first, last) =>
      decide (s.capturedAt id ≥ first) && decide (s.capturedAt id < last))).take limit

def visionTagJob (frameId : Int) : NewJob where
  kind := .visionTag
  frameId := some frameId
  priority := 0
  maxAttempts := 3
  notBefore := 0

/-- What there is of a frame. -/
def enqueuedNow (s : SchedulerState) (frameId : Int) : Enqueued where
  frameId := frameId
  analysed := s.analysed.contains frameId
  dead := s.pool.tables.jobs.any fun job => decide (job.frameId = some frameId)
    && decide (job.kind = .visionTag) && decide (job.state = .dead)
  inFlight := s.pool.tables.jobs.any fun job => decide (job.frameId = some frameId) && inFlight job

/-- A frame that has gone is skipped, as is one whose job cannot be stored. -/
def enqueueFrame (s : SchedulerState) (p : Producer) (frameId : Int) (rest : List Int)
    (broken : Bool) : SchedulerState :=
  if broken then s.setProducer p (.enqueuing rest)
  else
    match enqueueJob (visionTagJob frameId) s.pool.clock s.pool.tables with
    | .ok (_, t) =>
      { s with
        pool := { s.pool with tables := t }
        enqueued := s.enqueuedNow frameId :: s.enqueued }.setProducer p (.enqueuing rest)
    | .error _ => s.setProducer p (.enqueuing rest)

/-- The idle loop waits while much of what it enqueued is still in flight. -/
def idleTick (s : SchedulerState) (settings : VisionSettings) (idleMs : Option Nat)
    (countBroken : Bool) : SchedulerState :=
  let nowIdle := idleMs.any fun ms => decide (ms ≥ settings.idleSecs * 1000)
  let pending := if countBroken then 0 else pendingVisionJobCount s.pool.tables
  let watermark := max (settings.batchSize / 4) 1
  if settings.idleEnabled && nowIdle && !decide (pending ≥ watermark) then
    s.setProducer .idle (.waiting settings.batchSize)
  else s

/-! ## The workers -/

/-- `insert_vision`, after a model has answered; the foreign key wants the frame. -/
def storeAnalysis (s : SchedulerState) (w : Nat) (c : Claim) (frameId : Int) (broken : Bool) :
    SchedulerState :=
  if broken || !decide (frameId ∈ s.pool.tables.frames) then
    { s with pool := s.pool.setWorker w (.finishing c (.retry "insert vision")) }
  else
    { s with
      pool := s.pool.setWorker w (.finishing c (.complete true))
      analysed := if s.analysed.contains frameId then s.analysed else s.analysed ++ [frameId]
      analyses := frameId :: s.analyses }

/-- `vision_tag_outcome`. -/
def analyse (s : SchedulerState) (w : Nat) (c : Claim) (run : VisionRun) : SchedulerState :=
  let ends (outcome : Outcome) : SchedulerState :=
    { s with pool := s.pool.setWorker w (.finishing c outcome) }
  match c.job.frameId with
  | none => ends (.deadLetter "vision_tag job has no frame_id")
  | some frameId =>
    match run with
    | .unattached => ends (.retry "vision provider not attached")
    | .readFailed => ends (.retry "read frame")
    | .purged =>
      -- only a frame that is not there is found to be purged
      if frameId ∈ s.pool.tables.frames then s else ends (.complete false)
    | .imageBusy => ends (.retry "load image")
    | .imageMissing => ends (.deadLetter "image missing")
    | .analyzeFailed => ends (.retry "vision analyze frame")
    | .analysed broken => s.storeAnalysis w c frameId broken

/-- The frame of a vision job whose analysis was stored, if the call that ends it fails. -/
def unrecordedBy (s : SchedulerState) (w : Nat) (now : Int) (broken : Bool) : Option Int :=
  match s.pool.tasks.workers[w]? with
  | some (.finishing c (.complete true)) =>
    if c.job.kind = .visionTag
        && (broken || !(settleJob c.job (.complete true) now s.pool.clock s.pool.tables).isOk) then
      c.job.frameId
    else none
  | _ => none

/-- Nobody else enqueues a `vision_tag` job; frames get fresh ids; and the run of a worker for
such a job is an event of its own. -/
def poolStep (s : SchedulerState) (e : PoolEvent) : SchedulerState :=
  match e with
  | .enqueue job =>
    if job.kind = .visionTag then s else { s with pool := s.pool.step (.enqueue job) }
  | .insertFrame _ => s
  | .process w outcome =>
    match s.pool.tasks.workers[w]? with
    | some (.processing c) =>
      if c.job.kind = .visionTag then s else { s with pool := s.pool.step (.process w outcome) }
    | _ => s
  | .finalize w now broken =>
    { s with
      pool := s.pool.step (.finalize w now broken)
      unrecorded := (s.unrecordedBy w now broken).toList ++ s.unrecorded }
  | .deleteFrame id =>
    { s with
      pool := s.pool.step (.deleteFrame id)
      analysed := s.analysed.filter fun frameId => frameId ≠ id }
  | e => { s with pool := s.pool.step e }

/-- A loop that is elsewhere does not take the step. -/
def step (s : SchedulerState) : SchedulerEvent → SchedulerState
  | .pool e => s.poolStep e
  | .analyse w run =>
    match s.pool.tasks.workers[w]? with
    | some (.processing c) => if c.job.kind = .visionTag then s.analyse w c run else s
    | _ => s
  | .insertFrame capturedAt =>
    { s with
      pool := s.pool.step (.insertFrame (s.frameIdHighWater + 1))
      frameIdHighWater := s.frameIdHighWater + 1
      capturedAt := Function.update s.capturedAt (s.frameIdHighWater + 1) capturedAt }
  | .timerTick settings =>
    match s.producers .timer with
    | .sleeping =>
      if settings.timerEnabled then s.setProducer .timer (.waiting settings.batchSize) else s
    | _ => s
  | .idleTick settings idleMs countBroken =>
    match s.producers .idle with
    | .sleeping => s.idleTick settings idleMs countBroken
    | _ => s
  | .lock p =>
    match s.producers p, s.gate with
    | .waiting batch, none => { s with gate := some p }.setProducer p (.listing batch)
    | _, _ => s
  | .list p broken =>
    match s.producers p with
    | .listing batch =>
      if broken then { s with gate := none }.setProducer p .sleeping
      else s.setProducer p (.enqueuing (s.untaggedFrameIds batch none))
    | _ => s
  | .enqueue p broken =>
    match s.producers p with
    | .enqueuing (frameId :: rest) => s.enqueueFrame p frameId rest broken
    | _ => s
  | .unlock p =>
    match s.producers p with
    | .enqueuing [] => { s with gate := none }.setProducer p .sleeping
    | _ => s

def run (s : SchedulerState) (events : List SchedulerEvent) : SchedulerState :=
  events.foldl step s

/-- No frame and no job yet. -/
def start (clock : Int) (concurrency : Nat) : SchedulerState where
  pool := .start { frames := [], jobs := [] } clock concurrency
  frameIdHighWater := 0
  capturedAt := fun _ => 0
  analysed := []
  gate := none
  producers := fun _ => .sleeping
  enqueued := []
  analyses := []
  unrecorded := []

/-! ## The property -/

/-- The jobs of a frame that are pending or running. -/
def jobsInFlight (s : SchedulerState) (frameId : Int) : List Job :=
  s.pool.tables.jobs.filter fun job => decide (job.frameId = some frameId) && inFlight job

/-- The scheduler never queues a frame twice. -/
structure QueuedOnce (s : SchedulerState) : Prop where
  one : ∀ frameId, (s.jobsInFlight frameId).length ≤ 1
  untagged : ∀ e ∈ s.enqueued, e.analysed = false ∧ e.dead = false
  once : ∀ frameId, s.analyses.count frameId ≤ 1

/-- The part of it that needs nothing of the pool. -/
structure OneInFlight (s : SchedulerState) : Prop where
  one : ∀ frameId, (s.jobsInFlight frameId).length ≤ 1
  untagged : ∀ e ∈ s.enqueued, e.inFlight = false ∧ e.dead = false

/-- The part of it that needs a pool in which a job stays with its worker. -/
structure AnalysedOnce (s : SchedulerState) : Prop where
  untagged : ∀ e ∈ s.enqueued, e.analysed = false
  /-- Again only after a job that had its analysis could not be completed. -/
  once : ∀ frameId, s.analyses.count frameId ≤ 1 + s.unrecorded.count frameId

/-- The job that a step enqueues. -/
def newJob (s : SchedulerState) : SchedulerEvent → Option NewJob
  | .pool (.enqueue job) => some job
  | .enqueue p false =>
    match s.producers p with
    | .enqueuing (frameId :: _) => some (visionTagJob frameId)
    | _ => none
  | _ => none

/-- The sweep requeues no job that a worker is at, and no new job gets the row id of one. -/
structure UndisturbedStep (s : SchedulerState) (e : SchedulerEvent) : Prop where
  sweep : e = .pool (.sweepUpdate false) → s.pool.tasks.sweep ≠ .waiting →
    s.pool.tasks.sweep ≠ .exited → ∀ row ∈ s.pool.tables.jobs,
      stale visibilityTimeoutMs s.pool.clock row = true →
        ∀ worker ∈ s.pool.tasks.workers, ∀ c ∈ worker.unsettled, c.job.id ≠ row.id
  fresh : ∀ job ∈ s.newJob e, ∀ made ∈ (enqueueJob job s.pool.clock s.pool.tables).toOption,
    ∀ worker ∈ s.pool.tasks.workers, ∀ c ∈ worker.unsettled, c.job.id ≠ made.1

def Undisturbed : SchedulerState → List SchedulerEvent → Prop
  | _, [] => True
  | s, e :: rest => s.UndisturbedStep e ∧ (s.step e).Undisturbed rest

instance (s : SchedulerState) (e : SchedulerEvent) : Decidable (s.UndisturbedStep e) :=
  decidable_of_iff
    ((e = .pool (.sweepUpdate false) → s.pool.tasks.sweep ≠ .waiting →
        s.pool.tasks.sweep ≠ .exited → ∀ row ∈ s.pool.tables.jobs,
          stale visibilityTimeoutMs s.pool.clock row = true →
            ∀ worker ∈ s.pool.tasks.workers, ∀ c ∈ worker.unsettled, c.job.id ≠ row.id) ∧
      ∀ job ∈ s.newJob e, ∀ made ∈ (enqueueJob job s.pool.clock s.pool.tables).toOption,
        ∀ worker ∈ s.pool.tasks.workers, ∀ c ∈ worker.unsettled, c.job.id ≠ made.1)
    ⟨fun h => ⟨h.1, h.2⟩, fun h => ⟨h.sweep, h.fresh⟩⟩

instance decidableUndisturbed : (s : SchedulerState) → (events : List SchedulerEvent) →
    Decidable (s.Undisturbed events)
  | _, [] => inferInstanceAs (Decidable True)
  | s, e :: rest =>
    have := decidableUndisturbed (s.step e) rest
    inferInstanceAs (Decidable (_ ∧ _))

end SchedulerState

/-! ## What becomes of rows -/

/-- No row is new, and none that had left the queue is back. -/
structure Ages (t t' : JobTables) : Prop where
  ids : (t'.jobs.map Job.id).Nodup
  rows : ∀ row ∈ t'.jobs, ∃ old ∈ t.jobs, row.id = old.id ∧ row.kind = old.kind ∧
    row.frameId = old.frameId ∧ (inFlight row = true → inFlight old = true) ∧
      (keepsOff row = true → keepsOff old = true)
  frames : t'.frames.Sublist t.frames
  framed : ∀ row ∈ t'.jobs, ∀ frameId ∈ row.frameId, frameId ∈ t.frames → frameId ∈ t'.frames

variable {t t' : JobTables}

theorem inFlight_iff {job : Job} : inFlight job = true ↔
    job.kind = .visionTag ∧ (job.state = .pending ∨ job.state = .running) := by
  unfold inFlight
  simp only [Bool.and_eq_true, Bool.or_eq_true, decide_eq_true_eq]

theorem keepsOff_iff {job : Job} : keepsOff job = true ↔
    job.kind = .visionTag ∧ (job.state = .pending ∨ job.state = .running ∨ job.state = .dead) := by
  unfold keepsOff
  simp only [Bool.and_eq_true, Bool.or_eq_true, decide_eq_true_eq, or_assoc]

theorem Ages.refl (hIds : (t.jobs.map Job.id).Nodup) : Ages t t :=
  ⟨hIds, fun row hRow => ⟨row, hRow, rfl, rfl, rfl, id, id⟩, List.Sublist.refl _,
    fun _ _ _ _ hFrame => hFrame⟩

/-- Rows that are pending or running may be given another state. -/
theorem update_ages (isMatch : Job → Bool) (assign : Job → Job) (hIds : (t.jobs.map Job.id).Nodup)
    (hJobs : t'.jobs = t.jobs.map fun job => if isMatch job then assign job else job)
    (hFrames : t'.frames = t.frames)
    (hSame : ∀ job, (assign job).id = job.id ∧ (assign job).frameId = job.frameId ∧
      (assign job).kind = job.kind)
    (hMatch : ∀ job ∈ t.jobs, isMatch job = true → job.state = .pending ∨ job.state = .running) :
    Ages t t' where
  ids := by
    rw [hJobs]
    exact updateJobs_nodup (fun job => (hSame job).1) hIds
  rows := by
    intro row hRow
    rw [hJobs] at hRow
    obtain ⟨old, hOld, rfl⟩ := List.mem_map.mp hRow
    refine ⟨old, hOld, ?_⟩
    split
    · next hIs =>
      obtain ⟨hId, hFrame, hKind⟩ := hSame old
      have hState := hMatch old hOld hIs
      refine ⟨hId, hKind, hFrame, fun hNew => ?_, fun hNew => ?_⟩
      · rw [inFlight_iff] at hNew ⊢
        exact ⟨hKind ▸ hNew.1, hState⟩
      · rw [keepsOff_iff] at hNew ⊢
        exact ⟨hKind ▸ hNew.1, hState.imp_right .inl⟩
    · exact ⟨rfl, rfl, rfl, id, id⟩
  frames := hFrames ▸ List.Sublist.refl _
  framed := fun _ _ _ _ hFrame => hFrames ▸ hFrame

theorem cancelPendingVision_ages (hIds : (t.jobs.map Job.id).Nodup) :
    Ages t (cancelPendingVisionJobs t).2 where
  ids := hIds.sublist (List.filter_sublist.map _)
  rows := fun row hRow => ⟨row, List.mem_of_mem_filter hRow, rfl, rfl, rfl, id, id⟩
  frames := List.Sublist.refl _
  framed := fun _ _ _ _ hFrame => hFrame

theorem deleteFrameJobs_ages (frameId : Int) (hIds : (t.jobs.map Job.id).Nodup) :
    Ages t (deleteFrameJobs frameId t) where
  ids := hIds.sublist (List.filter_sublist.map _)
  rows := fun row hRow => ⟨row, List.mem_of_mem_filter hRow, rfl, rfl, rfl, id, id⟩
  frames := List.filter_sublist
  framed := by
    intro row hRow other hOther hFrame
    have hNot : row.frameId ≠ some frameId := of_decide_eq_true (List.mem_filter.mp hRow).2
    refine List.mem_filter.mpr ⟨hFrame, decide_eq_true ?_⟩
    rintro rfl
    exact hNot hOther

theorem claimJobs_frames {kinds : List JobKind} {limit : Nat} {now clock : Int} {jobs : List Job}
    (hClaim : claimJobs kinds limit now clock t = (jobs, t')) : t'.frames = t.frames := by
  unfold claimJobs at hClaim
  split at hClaim
  · cases hClaim
    rfl
  · cases hClaim
    rfl

theorem settleJob_frames {job : Job} {outcome : Outcome} {now clock : Int}
    (hOk : settleJob job outcome now clock t = .ok t') : t'.frames = t.frames := by
  have hFail : ∀ err retryAt, failJob job.id err retryAt clock t = .ok t' →
      t'.frames = t.frames := by
    intro err retryAt hFailed
    unfold failJob at hFailed
    dsimp only at hFailed
    split at hFailed
    · cases hFailed
    · cases hFailed
      rfl
  rcases outcome with changed | err | err
  · unfold settleJob completeJob at hOk
    dsimp only at hOk
    split at hOk
    · cases hOk
    · cases hOk
      rfl
  · exact hFail _ _ hOk
  · exact hFail _ _ hOk

theorem claim_ages {kinds : List JobKind} {now clock : Int} {jobs : List Job} {job : Job}
    (hIds : (t.jobs.map Job.id).Nodup) (hClaim : claimJobs kinds 1 now clock t = (jobs, t'))
    (hLast : jobs.getLast? = some job) : Ages t t' := by
  obtain ⟨old, hOld, hPending, -, hJobs⟩ := claimJobs_one hIds hClaim hLast
  refine update_ages (fun other => decide (other.id = old.id))
    (fun other => { other with state := .running, updatedAt := clock }) hIds
    (hJobs.trans (List.map_congr_left fun other _ => ?_)) (claimJobs_frames hClaim)
    (fun _ => ⟨rfl, rfl, rfl⟩) ?_
  · show _ = if decide (other.id = old.id) = true then
      { other with state := .running, updatedAt := clock } else other
    simp only [decide_eq_true_eq]
  · intro other hOther hId
    rw [List.inj_on_of_nodup_map hIds hOther hOld (of_decide_eq_true hId)]
    exact .inl hPending

theorem settle_ages {job : Job} {outcome : Outcome} {now clock : Int}
    (hIds : (t.jobs.map Job.id).Nodup) (hOk : settleJob job outcome now clock t = .ok t') :
    Ages t t' := by
  obtain ⟨assign, hJobs, hAssign⟩ := settleJob_ok hOk
  refine update_ages _ assign hIds hJobs (settleJob_frames hOk) (fun row => ⟨(hAssign row).1, (hAssign row).2.1,
    (hAssign row).2.2.1⟩) fun row _ hMatch => ?_
  exact .inr (of_decide_eq_true (Bool.and_eq_true_iff.mp hMatch).2)

theorem reset_ages (olderThanMs clock : Int) (hIds : (t.jobs.map Job.id).Nodup) :
    Ages t (resetStaleRunningJobs olderThanMs clock t).2 := by
  refine update_ages (stale olderThanMs clock)
    (fun job => { job with state := .pending, updatedAt := clock }) hIds rfl rfl
    (fun _ => ⟨rfl, rfl, rfl⟩) fun row _ hMatch => ?_
  exact .inr (of_decide_eq_true (Bool.and_eq_true_iff.mp hMatch).1)

/-- A job that is new, under an id that no job has. -/
theorem enqueueJob_ok {job : NewJob} {clock id : Int} (hOk : enqueueJob job clock t = .ok (id, t')) :
    ∃ new : Job, t'.jobs = t.jobs ++ [new] ∧ t'.frames = t.frames ∧ new.id = id ∧
      new.kind = job.kind ∧ new.frameId = job.frameId ∧ new.state = .pending ∧
      new.id ∉ t.jobs.map Job.id ∧ ∀ frameId ∈ job.frameId, frameId ∈ t.frames := by
  unfold enqueueJob at hOk
  split at hOk
  · next hFrames =>
    cases hOk
    refine ⟨_, rfl, rfl, rfl, rfl, rfl, rfl, nextRowid_not_mem _, fun frameId hFrame => ?_⟩
    exact of_decide_eq_true ((Option.all_eq_true _ _).mp hFrames frameId hFrame)
  · cases hOk

/-- The steps of a pool that enqueue nothing and bring no frame. -/
theorem step_ages {p : PoolState} (hIds : (p.tables.jobs.map Job.id).Nodup) {e : PoolEvent}
    (hEnqueue : ∀ job, e ≠ .enqueue job) (hInsert : ∀ id, e ≠ .insertFrame id) :
    Ages p.tables (p.step e).tables := by
  cases e
  case enqueue job => exact absurd rfl (hEnqueue job)
  case insertFrame id => exact absurd rfl (hInsert id)
  case claim w kinds now broken =>
    unfold PoolState.step
    dsimp only
    split
    · split
      · exact .refl hIds
      · unfold PoolState.claim
        split
        · next job hLast => exact claim_ages hIds (Prod.eta _).symm hLast
        · exact .refl hIds
    · exact .refl hIds
  case finalize w now broken =>
    unfold PoolState.step
    dsimp only
    split
    · next c outcome _ =>
      unfold PoolState.finalize
      rcases hResult : (if broken then .error "store" else
        settleJob c.job outcome now p.clock p.tables : Except String JobTables) with e | t'
      · exact .refl hIds
      · split at hResult
        · cases hResult
        · exact settle_ages hIds hResult
    · exact .refl hIds
  case sweepUpdate broken =>
    unfold PoolState.step
    dsimp only
    split
    · split
      · exact .refl hIds
      · exact reset_ages _ _ hIds
    · exact .refl hIds
  case deleteFrame id => exact deleteFrameJobs_ages id hIds
  case cancelPendingVision => exact cancelPendingVision_ages hIds
  all_goals
    unfold PoolState.step
    dsimp only
    (repeat' split) <;> exact .refl hIds

/-! ## The invariant -/

/-- The producer has the gate. -/
def ProducerPhase.holds : ProducerPhase → Bool
  | .listing _ | .enqueuing _ => true
  | .sleeping | .waiting _ => false

structure SchedulerState.Inv (s : SchedulerState) : Prop where
  frames_nodup : s.pool.tables.frames.Nodup
  frames_le : ∀ frameId ∈ s.pool.tables.frames, frameId ≤ s.frameIdHighWater
  ids : (s.pool.tables.jobs.map Job.id).Nodup
  framed : ∀ row ∈ s.pool.tables.jobs, ∀ frameId ∈ row.frameId, frameId ∈ s.pool.tables.frames
  one : ∀ row ∈ s.pool.tables.jobs, ∀ other ∈ s.pool.tables.jobs, inFlight row = true →
    inFlight other = true → row.frameId = other.frameId → row.id = other.id
  /-- A frame on the list has no job that would have kept it off. -/
  listed : ∀ p rest, s.producers p = .enqueuing rest → rest.Nodup ∧
    ∀ frameId ∈ rest, ∀ row ∈ s.pool.tables.jobs, row.frameId = some frameId → keepsOff row = false
  gate : ∀ p, (s.producers p).holds = true → s.gate = some p
  log : ∀ e ∈ s.enqueued, e.inFlight = false ∧ e.dead = false

variable {s : SchedulerState}

/-- Rows only age, and the producers do not move. -/
theorem aged_schedulerInv (h : s.Inv) {s' : SchedulerState}
    (hAges : Ages s.pool.tables s'.pool.tables)
    (hHighWater : s'.frameIdHighWater = s.frameIdHighWater) (hProducers : s'.producers = s.producers)
    (hGate : s'.gate = s.gate) (hEnqueued : s'.enqueued = s.enqueued) : s'.Inv where
  frames_nodup := h.frames_nodup.sublist hAges.frames
  frames_le := by
    rw [hHighWater]
    exact fun frameId hFrame => h.frames_le frameId (hAges.frames.subset hFrame)
  ids := hAges.ids
  framed := by
    intro row hRow frameId hFrame
    obtain ⟨old, hOld, -, -, hSame, -⟩ := hAges.rows row hRow
    exact hAges.framed row hRow frameId hFrame (h.framed old hOld frameId (hSame ▸ hFrame))
  one := by
    intro row hRow other hOther hFlight hFlight' hFrame
    obtain ⟨old, hOld, hId, -, hOldFrame, hOldFlight, -⟩ := hAges.rows row hRow
    obtain ⟨old', hOld', hId', -, hOldFrame', hOldFlight', -⟩ := hAges.rows other hOther
    rw [hId, hId']
    refine h.one old hOld old' hOld' (hOldFlight hFlight) (hOldFlight' hFlight') ?_
    rw [← hOldFrame, ← hOldFrame', hFrame]
  listed := by
    rw [hProducers]
    intro p rest hPhase
    obtain ⟨hNodup, hOff⟩ := h.listed p rest hPhase
    refine ⟨hNodup, fun frameId hIn row hRow hFrame => ?_⟩
    obtain ⟨old, hOld, -, -, hSame, -, hKeeps⟩ := hAges.rows row hRow
    have hOldOff := hOff frameId hIn old hOld (hSame ▸ hFrame)
    rw [Bool.eq_false_iff] at hOldOff ⊢
    exact fun hNow => hOldOff (hKeeps hNow)
  gate := by
    rw [hProducers, hGate]
    exact h.gate
  log := by
    rw [hEnqueued]
    exact h.log

/-- A producer moves without enqueuing anything. -/
theorem setProducer_schedulerInv (h : s.Inv) {p : Producer} {phase : ProducerPhase}
    {gate : Option Producer}
    (hListed : ∀ rest, phase = .enqueuing rest → rest.Nodup ∧ ∀ frameId ∈ rest,
      ∀ row ∈ s.pool.tables.jobs, row.frameId = some frameId → keepsOff row = false)
    (hOwn : phase.holds = true → gate = some p)
    (hOthers : ∀ q, q ≠ p → (s.producers q).holds = true → gate = some q) :
    ({ s with gate := gate }.setProducer p phase : SchedulerState).Inv where
  frames_nodup := h.frames_nodup
  frames_le := h.frames_le
  ids := h.ids
  framed := h.framed
  one := h.one
  listed := by
    intro q rest hPhase
    have hPhase : Function.update s.producers p phase q = .enqueuing rest := hPhase
    by_cases hSame : q = p
    · subst hSame
      rw [Function.update_self] at hPhase
      exact hListed rest hPhase
    · rw [Function.update_of_ne hSame] at hPhase
      exact h.listed q rest hPhase
  gate := by
    intro q hHolds
    have hHolds : (Function.update s.producers p phase q).holds = true := hHolds
    by_cases hSame : q = p
    · subst hSame
      rw [Function.update_self] at hHolds
      exact hOwn hHolds
    · rw [Function.update_of_ne hSame] at hHolds
      exact hOthers q hSame hHolds
  log := h.log

/-- Who has the gate has it alone. -/
theorem holds_alone (h : s.Inv) {p q : Producer} (hp : (s.producers p).holds = true)
    (hq : (s.producers q).holds = true) : q = p :=
  Option.some.inj ((h.gate q hq).symm.trans (h.gate p hp))

theorem untaggedFrameIds_listed (h : s.Inv) (limit : Nat) (range : Option (Int × Int)) :
    (s.untaggedFrameIds limit range).Nodup ∧ ∀ frameId ∈ s.untaggedFrameIds limit range,
      frameId ∉ s.analysed ∧ ∀ row ∈ s.pool.tables.jobs, row.frameId = some frameId →
        keepsOff row = false := by
  unfold SchedulerState.untaggedFrameIds
  constructor
  · refine List.Nodup.sublist (List.take_sublist _ _) ?_
    exact (sortByKey_perm _ _).nodup_iff.mpr (h.frames_nodup.sublist List.filter_sublist)
  · intro frameId hFrame
    have hFrame := (mem_sortByKey _).mp (List.mem_of_mem_take hFrame)
    obtain ⟨-, hEligible⟩ := List.mem_filter.mp hFrame
    simp only [Bool.and_eq_true, Bool.not_eq_true', List.any_eq_false, Bool.and_eq_true,
      decide_eq_true_eq, not_and] at hEligible
    refine ⟨?_, fun row hRow hSame => Bool.eq_false_iff.mpr (hEligible.1.2 row hRow hSame)⟩
    intro hIn
    rw [List.contains_iff_mem.mpr hIn] at hEligible
    exact Bool.false_ne_true hEligible.1.1.symm

/-- A frame without a job that would keep it off gets a new one. -/
theorem append_schedulerInv (h : s.Inv) {s' : SchedulerState} {new : Job}
    (hJobs : s'.pool.tables.jobs = s.pool.tables.jobs ++ [new])
    (hFrames : s'.pool.tables.frames = s.pool.tables.frames)
    (hHighWater : s'.frameIdHighWater = s.frameIdHighWater)
    (hFresh : new.id ∉ s.pool.tables.jobs.map Job.id)
    (hFramed : ∀ frameId ∈ new.frameId, frameId ∈ s.pool.tables.frames)
    (hOff : inFlight new = true → ∀ row ∈ s.pool.tables.jobs, row.frameId = new.frameId →
      inFlight row = false)
    (hListed : ∀ p rest, s'.producers p = .enqueuing rest →
      (∃ before, s.producers p = .enqueuing before ∧ rest.Sublist before) ∧
        (keepsOff new = true → ∀ frameId ∈ rest, new.frameId ≠ some frameId))
    (hGate : ∀ p, (s'.producers p).holds = true → s'.gate = some p)
    (hLog : ∀ e ∈ s'.enqueued, e.inFlight = false ∧ e.dead = false) : s'.Inv where
  frames_nodup := hFrames ▸ h.frames_nodup
  frames_le := by
    rw [hFrames, hHighWater]
    exact h.frames_le
  ids := by
    rw [hJobs, List.map_append, List.map_singleton]
    refine List.nodup_append.mpr ⟨h.ids, List.nodup_singleton _, fun a ha b hb hEq => ?_⟩
    rw [List.mem_singleton.mp hb] at hEq
    exact hFresh (hEq ▸ ha)
  framed := by
    rw [hJobs, hFrames]
    intro row hRow
    rcases List.mem_append.mp hRow with hOld | hNew
    · exact h.framed row hOld
    · rw [List.mem_singleton.mp hNew]
      exact hFramed
  one := by
    rw [hJobs]
    intro row hRow other hOther hFlight hFlight' hFrame
    rcases List.mem_append.mp hRow with hOld | hNew
    · rcases List.mem_append.mp hOther with hOld' | hNew'
      · exact h.one row hOld other hOld' hFlight hFlight' hFrame
      · rw [List.mem_singleton.mp hNew'] at hFlight' hFrame
        rw [hOff hFlight' row hOld hFrame] at hFlight
        cases hFlight
    · rcases List.mem_append.mp hOther with hOld' | hNew'
      · rw [List.mem_singleton.mp hNew] at hFlight hFrame
        rw [hOff hFlight other hOld' hFrame.symm] at hFlight'
        cases hFlight'
      · rw [List.mem_singleton.mp hNew, List.mem_singleton.mp hNew']
  listed := by
    rw [hJobs]
    intro p rest hPhase
    obtain ⟨⟨before, hBefore, hSub⟩, hNot⟩ := hListed p rest hPhase
    obtain ⟨hNodup, hKept⟩ := h.listed p before hBefore
    refine ⟨hNodup.sublist hSub, fun frameId hIn row hRow hFrame => ?_⟩
    rcases List.mem_append.mp hRow with hOld | hNew
    · exact hKept frameId (hSub.subset hIn) row hOld hFrame
    · rw [List.mem_singleton.mp hNew] at hFrame ⊢
      rw [Bool.eq_false_iff]
      exact fun hNow => hNot hNow frameId hIn hFrame
  gate := hGate
  log := hLog

/-! ## Steps -/

/-- The scheduler's own part of the state is not the pool's business. -/
structure SameScheduler (s s' : SchedulerState) : Prop where
  highWater : s'.frameIdHighWater = s.frameIdHighWater
  producers : s'.producers = s.producers
  gate : s'.gate = s.gate
  enqueued : s'.enqueued = s.enqueued

theorem SameScheduler.refl (s : SchedulerState) : SameScheduler s s := ⟨rfl, rfl, rfl, rfl⟩

theorem analyse_same (s : SchedulerState) (w : Nat) (c : Claim) (run : VisionRun) :
    SameScheduler s (s.analyse w c run) ∧ (s.analyse w c run).pool.tables = s.pool.tables := by
  unfold SchedulerState.analyse
  dsimp only
  split
  · exact ⟨⟨rfl, rfl, rfl, rfl⟩, rfl⟩
  · cases run
    case analysed broken =>
      dsimp only
      unfold SchedulerState.storeAnalysis
      split
      · exact ⟨⟨rfl, rfl, rfl, rfl⟩, rfl⟩
      · exact ⟨⟨rfl, rfl, rfl, rfl⟩, rfl⟩
    case purged =>
      dsimp only
      split
      · exact ⟨.refl s, rfl⟩
      · exact ⟨⟨rfl, rfl, rfl, rfl⟩, rfl⟩
    all_goals exact ⟨⟨rfl, rfl, rfl, rfl⟩, rfl⟩

theorem poolStep_same (s : SchedulerState) (e : PoolEvent) : SameScheduler s (s.poolStep e) := by
  unfold SchedulerState.poolStep
  (repeat' split) <;> exact ⟨rfl, rfl, rfl, rfl⟩

/-- What a step of the pool does to the rows, if it enqueues nothing. -/
theorem poolStep_ages (hIds : (s.pool.tables.jobs.map Job.id).Nodup) {e : PoolEvent}
    (hEnqueue : ∀ job, e ≠ .enqueue job) : Ages s.pool.tables (s.poolStep e).pool.tables := by
  unfold SchedulerState.poolStep
  split
  · next job => exact absurd rfl (hEnqueue job)
  · exact .refl hIds
  · split
    · split
      · exact .refl hIds
      · exact step_ages hIds (fun _ => nofun) fun _ => nofun
    · exact .refl hIds
  · exact step_ages hIds (fun _ => nofun) fun _ => nofun
  · exact step_ages hIds (fun _ => nofun) fun _ => nofun
  · next hInsert _ _ _ => exact step_ages hIds hEnqueue hInsert

theorem embed_schedulerInv (h : s.Inv) {job : NewJob} (hKind : job.kind ≠ .visionTag) :
    ({ s with pool := s.pool.step (.enqueue job) } : SchedulerState).Inv := by
  rcases hOk : enqueueJob job s.pool.clock s.pool.tables with e | ⟨id, t⟩
  · have hSame : s.pool.step (.enqueue job) = s.pool := by
      unfold PoolState.step
      dsimp only
      rw [hOk]
    rw [hSame]
    exact h
  · have hStep : s.pool.step (.enqueue job) = { s.pool with tables := t } := by
      unfold PoolState.step
      dsimp only
      rw [hOk]
    rw [hStep]
    obtain ⟨new, hJobs, hFrames, -, hNewKind, hFrame, -, hFresh, hFramed⟩ := enqueueJob_ok hOk
    have hNot : new.kind ≠ .visionTag := hNewKind ▸ hKind
    refine append_schedulerInv h hJobs hFrames rfl hFresh (hFrame ▸ hFramed) ?_ ?_ h.gate h.log
    · exact fun hFlight => absurd (inFlight_iff.mp hFlight).1 hNot
    · exact fun p rest hPhase => ⟨⟨rest, hPhase, List.Sublist.refl _⟩,
        fun hOff => absurd (keepsOff_iff.mp hOff).1 hNot⟩

/-- A producer enqueues the next frame of its list. -/
theorem enqueueFrame_schedulerInv (h : s.Inv) {p : Producer} {frameId : Int} {rest : List Int}
    (hPhase : s.producers p = .enqueuing (frameId :: rest)) (broken : Bool) :
    (s.enqueueFrame p frameId rest broken).Inv := by
  have hHolds : (s.producers p).holds = true := by rw [hPhase]; rfl
  obtain ⟨hNodup, hOff⟩ := h.listed p _ hPhase
  obtain ⟨hNotIn, hRest⟩ := List.nodup_cons.mp hNodup
  have hSkipped : (s.setProducer p (.enqueuing rest)).Inv := by
    refine setProducer_schedulerInv h (fun rest' hSame => ?_) (fun _ => h.gate p hHolds)
      fun q _ hq => h.gate q hq
    cases hSame
    exact ⟨hRest, fun other hIn => hOff other (List.mem_cons_of_mem _ hIn)⟩
  unfold SchedulerState.enqueueFrame
  split
  · exact hSkipped
  split
  case h_2 => exact hSkipped
  case h_1 id t hOk =>
    obtain ⟨new, hJobs, hFrames, -, -, hFrame, -, hFresh, hFramed⟩ := enqueueJob_ok hOk
    have hFrame : new.frameId = some frameId := hFrame
    -- only this producer has the gate, so only its list is looked at
    have hAlone : ∀ q rest', Function.update s.producers p (.enqueuing rest) q = .enqueuing rest' →
        q = p ∧ rest' = rest := by
      intro q rest' hq
      by_cases hSame : q = p
      · subst hSame
        rw [Function.update_self] at hq
        exact ⟨rfl, (ProducerPhase.enqueuing.inj hq).symm⟩
      · rw [Function.update_of_ne hSame] at hq
        exact absurd (holds_alone h hHolds (by rw [hq]; rfl)) hSame
    refine append_schedulerInv h hJobs hFrames rfl hFresh (hFrame ▸ hFramed) ?_ ?_ ?_ ?_
    · intro _ row hRow hSame
      have hRowOff := hOff frameId List.mem_cons_self row hRow (hSame.trans hFrame)
      rw [Bool.eq_false_iff] at hRowOff ⊢
      intro hFlight
      obtain ⟨hKind, hState⟩ := inFlight_iff.mp hFlight
      exact hRowOff (keepsOff_iff.mpr ⟨hKind, hState.imp_right .inl⟩)
    · intro q rest' hq
      obtain ⟨rfl, rfl⟩ := hAlone q rest' hq
      refine ⟨⟨_, hPhase, List.sublist_cons_self _ _⟩, fun _ other hIn hSame => ?_⟩
      rw [hFrame] at hSame
      exact hNotIn (Option.some.inj hSame ▸ hIn)
    · intro q hq
      have hq : (Function.update s.producers p (.enqueuing rest) q).holds = true := hq
      by_cases hSame : q = p
      · exact hSame ▸ h.gate p hHolds
      · rw [Function.update_of_ne hSame] at hq
        exact h.gate q hq
    · intro e he
      rcases List.mem_cons.mp he with rfl | hOld
      · unfold SchedulerState.enqueuedNow
        dsimp only
        constructor
        · rw [List.any_eq_false]
          intro row hRow hBoth
          obtain ⟨hSame, hFlight⟩ := Bool.and_eq_true_iff.mp hBoth
          have hRowOff := hOff frameId List.mem_cons_self row hRow (of_decide_eq_true hSame)
          obtain ⟨hKind, hState⟩ := inFlight_iff.mp hFlight
          rw [keepsOff_iff.mpr ⟨hKind, hState.imp_right .inl⟩] at hRowOff
          cases hRowOff
        · rw [List.any_eq_false]
          intro row hRow hBoth
          simp only [Bool.and_eq_true, decide_eq_true_eq] at hBoth
          have hRowOff := hOff frameId List.mem_cons_self row hRow hBoth.1.1
          rw [keepsOff_iff.mpr ⟨hBoth.1.2, .inr (.inr hBoth.2)⟩] at hRowOff
          cases hRowOff
      · exact h.log e hOld

theorem insertFrame_schedulerInv (h : s.Inv) (capturedAt : Int) :
    (s.step (.insertFrame capturedAt)).Inv where
  frames_nodup := List.nodup_cons.mpr ⟨fun hIn => by have := h.frames_le _ hIn; omega,
    h.frames_nodup⟩
  frames_le := by
    intro frameId hFrame
    show frameId ≤ s.frameIdHighWater + 1
    rcases List.mem_cons.mp hFrame with rfl | hOld
    · exact le_rfl
    · have := h.frames_le _ hOld
      omega
  ids := h.ids
  framed := fun row hRow frameId hFrame => List.mem_cons_of_mem _ (h.framed row hRow frameId hFrame)
  one := h.one
  listed := h.listed
  gate := h.gate
  log := h.log

theorem step_schedulerInv (h : s.Inv) (e : SchedulerEvent) : (s.step e).Inv := by
  -- a producer that does not come to hold the gate leaves it as it is
  have hMoves : ∀ {p phase}, phase.holds = false →
      (s.setProducer p phase).Inv := by
    intro p phase hPhase
    refine setProducer_schedulerInv h (fun rest hSame => ?_) (fun hHolds => ?_)
      fun q _ hq => h.gate q hq
    · rw [hSame] at hPhase
      cases hPhase
    · rw [hPhase] at hHolds
      cases hHolds
  have hDrops : ∀ {p}, (s.producers p).holds = true →
      ({ s with gate := none }.setProducer p .sleeping : SchedulerState).Inv := by
    intro p hHolds
    refine setProducer_schedulerInv h nofun nofun fun q hOther hq => ?_
    exact absurd (holds_alone h hHolds hq) hOther
  cases e
  case pool e =>
    obtain ⟨hHighWater, hProducers, hGate, hEnqueued⟩ := poolStep_same s e
    by_cases hEnqueue : ∃ job, e = .enqueue job
    · obtain ⟨job, rfl⟩ := hEnqueue
      show (if job.kind = .visionTag then s else _ : SchedulerState).Inv
      split
      · exact h
      · next hKind => exact embed_schedulerInv h hKind
    · exact aged_schedulerInv h (poolStep_ages h.ids fun job hJob => hEnqueue ⟨job, hJob⟩)
        hHighWater hProducers hGate hEnqueued
  case analyse w run =>
    unfold SchedulerState.step
    dsimp only
    split
    · next c hw =>
      split
      · obtain ⟨⟨hHighWater, hProducers, hGate, hEnqueued⟩, hTables⟩ := analyse_same s w c run
        exact aged_schedulerInv h (by rw [hTables]; exact .refl h.ids) hHighWater hProducers hGate hEnqueued
      · exact h
    · exact h
  case insertFrame capturedAt => exact insertFrame_schedulerInv h capturedAt
  case timerTick settings =>
    unfold SchedulerState.step
    dsimp only
    split
    · split
      · exact hMoves rfl
      · exact h
    · exact h
  case idleTick settings idleMs countBroken =>
    unfold SchedulerState.step
    dsimp only
    split
    · unfold SchedulerState.idleTick
      dsimp only
      generalize (settings.idleEnabled && _ && _) = ready
      rcases ready with - | -
      · exact h
      · exact hMoves rfl
    · exact h
  case lock p =>
    unfold SchedulerState.step
    dsimp only
    split
    · next batch _ hGate =>
      refine setProducer_schedulerInv h nofun (fun _ => rfl) fun q _ hq => ?_
      cases hGate.symm.trans (h.gate q hq)
    · exact h
  case list p broken =>
    unfold SchedulerState.step
    dsimp only
    split
    · next batch hPhase =>
      have hHolds : (s.producers p).holds = true := by rw [hPhase]; rfl
      split
      · exact hDrops hHolds
      · refine setProducer_schedulerInv h (fun rest hSame => ?_) (fun _ => h.gate p hHolds)
          fun q _ hq => h.gate q hq
        cases hSame
        obtain ⟨hNodup, hListed⟩ := untaggedFrameIds_listed h batch none
        exact ⟨hNodup, fun frameId hIn => (hListed frameId hIn).2⟩
    · exact h
  case enqueue p broken =>
    unfold SchedulerState.step
    dsimp only
    split
    · next frameId rest hPhase => exact enqueueFrame_schedulerInv h hPhase broken
    · exact h
  case unlock p =>
    unfold SchedulerState.step
    dsimp only
    split
    · next hPhase => exact hDrops (by rw [hPhase]; rfl)
    · exact h

theorem start_schedulerInv (clock : Int) (concurrency : Nat) :
    (SchedulerState.start clock concurrency).Inv :=
  ⟨List.nodup_nil, fun _ hIn => absurd hIn List.not_mem_nil, List.nodup_nil,
    fun _ hIn => absurd hIn List.not_mem_nil, fun _ hIn => absurd hIn List.not_mem_nil,
    fun _ _ hPhase => (by cases hPhase), fun _ hHolds => (by cases hHolds),
    fun _ hIn => absurd hIn List.not_mem_nil⟩

theorem run_schedulerInv (h : s.Inv) (events : List SchedulerEvent) : (s.run events).Inv := by
  induction events generalizing s with
  | nil => exact h
  | cons e rest ih => exact ih (step_schedulerInv h e)

theorem one_job_in_flight (h : s.Inv) : s.OneInFlight where
  one := by
    intro frameId
    unfold SchedulerState.jobsInFlight
    have hNodup : (s.pool.tables.jobs.filter fun job =>
        decide (job.frameId = some frameId) && inFlight job).Nodup :=
      (List.Nodup.of_map _ h.ids).sublist List.filter_sublist
    by_contra hMore
    rw [not_le] at hMore
    obtain ⟨row, other, tail, hJobs⟩ : ∃ row other tail, (s.pool.tables.jobs.filter fun job =>
        decide (job.frameId = some frameId) && inFlight job) = row :: other :: tail := by
      rcases hFilter : (s.pool.tables.jobs.filter fun job =>
        decide (job.frameId = some frameId) && inFlight job) with - | ⟨row, - | ⟨other, tail⟩⟩
      · rw [hFilter] at hMore
        cases hMore
      · rw [hFilter] at hMore
        exact absurd hMore (by simp)
      · exact ⟨row, other, tail, hFilter⟩
    rw [hJobs] at hNodup
    have hIn : ∀ job ∈ row :: other :: tail, job ∈ s.pool.tables.jobs ∧
        job.frameId = some frameId ∧ inFlight job = true := by
      intro job hJob
      rw [← hJobs] at hJob
      obtain ⟨hMem, hBoth⟩ := List.mem_filter.mp hJob
      obtain ⟨hFrame, hFlight⟩ := Bool.and_eq_true_iff.mp hBoth
      exact ⟨hMem, of_decide_eq_true hFrame, hFlight⟩
    obtain ⟨hRow, hFrame, hFlight⟩ := hIn row (by simp)
    obtain ⟨hOther, hFrame', hFlight'⟩ := hIn other (by simp)
    have hId := h.one row hRow other hOther hFlight hFlight' (hFrame.trans hFrame'.symm)
    have hSame := List.inj_on_of_nodup_map h.ids hRow hOther hId
    exact (List.nodup_cons.mp hNodup).1 (hSame ▸ List.mem_cons_self)
  untagged := h.log

end ScreenSearch.Kernel
