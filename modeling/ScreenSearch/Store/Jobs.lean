import ScreenSearch.Lib.Sort
import ScreenSearch.Store.Sessions
import ScreenSearch.Traits.Jobs

/-!
# The job queue

The statements of the durable queue, each atomic, so that any interleaving of
workers is a list of them. A ghost log keeps what happened to each identifier,
newest first: identifiers of deleted rows are given out again, so it also says
when a row was created.

Main results:

* `JobQueue.step_inv` — one statement keeps the invariant of rows and log;
* `step_keeps_finished`, `step_deletes` — what a statement does to other rows;
* `job_lifecycle` — the life of a job under any statements.
-/

namespace ScreenSearch.Store

open Sorting

structure JobTables where
  /-- The frames a job may refer to. -/
  frames : List Int
  jobs : List Job
  deriving DecidableEq, Repr

/-- `UPDATE jobs SET … WHERE …`: the rows changed and the tables after it. -/
def updateJobs (isMatch : Job → Bool) (assign : Job → Job) (t : JobTables) : Nat × JobTables :=
  (t.jobs.countP isMatch,
    { t with jobs := t.jobs.map fun job => if isMatch job then assign job else job })

def enqueueJob (job : NewJob) (clock : Int) (t : JobTables) : Except String (Int × JobTables) :=
  if job.frameId.all fun frame => decide (frame ∈ t.frames) then
    let id := nextRowid (t.jobs.map Job.id)
    .ok (id, { t with jobs := t.jobs ++
      [{ id := id
         kind := job.kind
         frameId := job.frameId
         state := .pending
         priority := job.priority
         attempts := 0
         maxAttempts := job.maxAttempts
         notBefore := job.notBefore
         lastError := none
         createdAt := clock
         updatedAt := clock }] })
  else .error "FOREIGN KEY constraint failed"

/-- Highest priority first, then oldest. -/
def claimOrder (job : Job) : Intᵒᵈ ×ₗ Int := toLex (OrderDual.toDual job.priority, job.id)

def runnable (kinds : List JobKind) (now : Int) (job : Job) : Bool :=
  decide (job.state = .pending) && decide (job.notBefore ≤ now) && decide (job.kind ∈ kinds)

/-- The identifiers one claim takes. -/
def claimedIds (kinds : List JobKind) (limit : Nat) (now : Int) (t : JobTables) : List Int :=
  ((sortByKey claimOrder (t.jobs.filter (runnable kinds now))).take limit).map Job.id

def claimJobs (kinds : List JobKind) (limit : Nat) (now clock : Int) (t : JobTables) :
    List Job × JobTables :=
  if kinds.isEmpty then ([], t)
  else
    let ids := claimedIds kinds limit now t
    let t := (updateJobs (fun job => decide (job.id ∈ ids))
      (fun job => { job with state := .running, updatedAt := clock }) t).2
    (sortByKey claimOrder (t.jobs.filter fun job => decide (job.id ∈ ids)), t)

/-- The row of a job that is running. -/
def runningAt (id : Int) (job : Job) : Bool := decide (job.id = id) && decide (job.state = .running)

def completeJob (id clock : Int) (t : JobTables) : Except String JobTables :=
  let (changed, t) := updateJobs (runningAt id)
    (fun job => { job with state := .done, updatedAt := clock }) t
  if changed = 0 then .error "missing or not running" else .ok t

/-- Whether a failed attempt is retried. -/
def retries (retryAt : Option Int) (job : Job) : Bool :=
  retryAt.isSome && decide (job.attempts + 1 < job.maxAttempts)

def failedJob (err : String) (retryAt : Option Int) (clock : Int) (job : Job) : Job :=
  { job with
    attempts := job.attempts + 1
    lastError := some err
    state := if retries retryAt job then .pending else .dead
    notBefore := if retries retryAt job then retryAt.getD job.notBefore else job.notBefore
    updatedAt := clock }

def failJob (id : Int) (err : String) (retryAt : Option Int) (clock : Int) (t : JobTables) :
    Except String JobTables :=
  let (changed, t) := updateJobs (runningAt id) (failedJob err retryAt clock) t
  if changed = 0 then .error "missing or not running" else .ok t

/-- A running job that the sweep takes for abandoned. -/
def stale (olderThanMs clock : Int) (job : Job) : Bool :=
  decide (job.state = .running) &&
    (decide (olderThanMs ≤ 0) || decide (job.updatedAt ≤ clock - olderThanMs))

def resetStaleRunningJobs (olderThanMs clock : Int) (t : JobTables) : Nat × JobTables :=
  updateJobs (stale olderThanMs clock)
    (fun job => { job with state := .pending, updatedAt := clock }) t

def pendingVision (job : Job) : Bool :=
  decide (job.kind = .visionTag) && decide (job.state = .pending)

def cancelPendingVisionJobs (t : JobTables) : Nat × JobTables :=
  (t.jobs.countP pendingVision, { t with jobs := t.jobs.filter fun job => !pendingVision job })

/-! ## The log -/

inductive JobEvent where
  /-- A row was created, pending. -/
  | enqueued (id : Int)
  /-- A row that was running is pending again. -/
  | requeued (id : Int)
  /-- A claim returned the job. -/
  | returned (id : Int)
  /-- A failed attempt was recorded. -/
  | failed (id : Int)
  deriving DecidableEq, Repr

/-- The claims that returned the job since it last became pending. -/
def claimsSince (id : Int) : List JobEvent → Nat
  | [] => 0
  | .enqueued i :: log => if i = id then 0 else claimsSince id log
  | .requeued i :: log => if i = id then 0 else claimsSince id log
  | .returned i :: log => claimsSince id log + if i = id then 1 else 0
  | .failed _ :: log => claimsSince id log

/-- The failures recorded since the job was created. -/
def failsSince (id : Int) : List JobEvent → Nat
  | [] => 0
  | .enqueued i :: log => if i = id then 0 else failsSince id log
  | .requeued _ :: log => failsSince id log
  | .returned _ :: log => failsSince id log
  | .failed i :: log => failsSince id log + if i = id then 1 else 0

structure JobQueue where
  tables : JobTables
  log : List JobEvent
  deriving DecidableEq, Repr

def JobQueue.start (frames : List Int) : JobQueue where
  tables := { frames := frames, jobs := [] }
  log := []

/-- A call of any worker, with any arguments and at any time. -/
inductive JobOp where
  | enqueue (job : NewJob) (clock : Int)
  | claim (kinds : List JobKind) (limit : Nat) (now clock : Int)
  | complete (id clock : Int)
  | fail (id : Int) (err : String) (retryAt : Option Int) (clock : Int)
  | resetStale (olderThanMs clock : Int)
  | cancelPendingVision
  deriving DecidableEq, Repr

/-- What a failure leaves in the log: a job that is retried is pending again. -/
def failEvents (id : Int) (retryAt : Option Int) (t : JobTables) : List JobEvent :=
  if t.jobs.any fun job => runningAt id job && retries retryAt job then [.requeued id, .failed id]
  else [.failed id]

def JobQueue.step (q : JobQueue) : JobOp → JobQueue
  | .enqueue job clock =>
    match enqueueJob job clock q.tables with
    | .ok (id, t) => { tables := t, log := .enqueued id :: q.log }
    | .error _ => q
  | .claim kinds limit now clock =>
    let (jobs, t) := claimJobs kinds limit now clock q.tables
    { tables := t, log := jobs.map (fun job => .returned job.id) ++ q.log }
  | .complete id clock =>
    match completeJob id clock q.tables with
    | .ok t => { q with tables := t }
    | .error _ => q
  | .fail id err retryAt clock =>
    match failJob id err retryAt clock q.tables with
    | .ok t => { tables := t, log := failEvents id retryAt q.tables ++ q.log }
    | .error _ => q
  | .resetStale olderThanMs clock =>
    { tables := (resetStaleRunningJobs olderThanMs clock q.tables).2
      log := (q.tables.jobs.filter (stale olderThanMs clock)).map (fun job => .requeued job.id) ++
        q.log }
  | .cancelPendingVision => { q with tables := (cancelPendingVisionJobs q.tables).2 }

def JobQueue.run (q : JobQueue) (ops : List JobOp) : JobQueue := ops.foldl JobQueue.step q

/-! ## Counting in the log -/

theorem claimsSince_returned (id : Int) (ids : List Int) (log : List JobEvent) :
    claimsSince id (ids.map JobEvent.returned ++ log) = claimsSince id log + ids.count id := by
  induction ids with
  | nil => simp
  | cons i ids ih =>
    rw [List.map_cons, List.cons_append, claimsSince, ih, List.count_cons]
    simp only [beq_iff_eq]
    omega

theorem claimsSince_requeued (id : Int) (ids : List Int) (log : List JobEvent) :
    claimsSince id (ids.map JobEvent.requeued ++ log) =
      if id ∈ ids then 0 else claimsSince id log := by
  induction ids with
  | nil => simp
  | cons i ids ih =>
    rw [List.map_cons, List.cons_append, claimsSince, ih]
    by_cases hid : i = id
    · simp [hid]
    · simp [hid, Ne.symm hid]

theorem failsSince_returned (id : Int) (ids : List Int) (log : List JobEvent) :
    failsSince id (ids.map JobEvent.returned ++ log) = failsSince id log := by
  induction ids with
  | nil => rfl
  | cons i ids ih => exact ih

theorem failsSince_requeued (id : Int) (ids : List Int) (log : List JobEvent) :
    failsSince id (ids.map JobEvent.requeued ++ log) = failsSince id log := by
  induction ids with
  | nil => rfl
  | cons i ids ih => exact ih

/-! ## The invariant -/

/-- The attempts of a job stay below its maximum while it is pending or running,
and reach it only when it is dead. -/
structure BoundedJob (job : Job) : Prop where
  active : job.state = .pending ∨ job.state = .running → job.attempts < job.maxAttempts
  le : job.attempts ≤ job.maxAttempts
  spent : job.attempts = job.maxAttempts → job.state = .dead

structure JobQueue.Inv (q : JobQueue) : Prop where
  ids : (q.tables.jobs.map Job.id).Nodup
  bounded : ∀ job ∈ q.tables.jobs, 1 ≤ job.maxAttempts → BoundedJob job
  fails : ∀ job ∈ q.tables.jobs, job.attempts = failsSince job.id q.log
  waiting : ∀ job ∈ q.tables.jobs, job.state = .pending → claimsSince job.id q.log = 0
  once : ∀ id, claimsSince id q.log ≤ 1

theorem start_inv (frames : List Int) : (JobQueue.start frames).Inv :=
  ⟨List.nodup_nil, by simp [JobQueue.start], by simp [JobQueue.start], by simp [JobQueue.start],
    fun _ => Nat.zero_le _⟩

/-- An update in place changes a row or leaves it. -/
theorem mem_updateJobs {isMatch : Job → Bool} {assign : Job → Job} {t : JobTables} {job : Job}
    (h : job ∈ (updateJobs isMatch assign t).2.jobs) :
    ∃ old ∈ t.jobs, (isMatch old = true ∧ job = assign old) ∨ (isMatch old = false ∧ job = old) := by
  obtain ⟨old, hold, rfl⟩ := List.mem_map.mp h
  refine ⟨old, hold, ?_⟩
  cases isMatch old with
  | true => exact Or.inl ⟨rfl, rfl⟩
  | false => exact Or.inr ⟨rfl, rfl⟩

theorem updateJobs_ids {isMatch : Job → Bool} {assign : Job → Job}
    (hid : ∀ job, (assign job).id = job.id) (t : JobTables) :
    (updateJobs isMatch assign t).2.jobs.map Job.id = t.jobs.map Job.id := by
  unfold updateJobs
  rw [List.map_map]
  refine List.map_congr_left fun job _ => ?_
  show (if isMatch job then assign job else job).id = job.id
  split
  · exact hid job
  · rfl

theorem updateJobs_nodup {isMatch : Job → Bool} {assign : Job → Job}
    (hid : ∀ job, (assign job).id = job.id) {t : JobTables} (h : (t.jobs.map Job.id).Nodup) :
    ((updateJobs isMatch assign t).2.jobs.map Job.id).Nodup := by
  rw [updateJobs_ids hid]
  exact h

theorem claimedIds_pending {kinds : List JobKind} {limit : Nat} {now id : Int} {t : JobTables}
    (h : id ∈ claimedIds kinds limit now t) : ∃ job ∈ t.jobs, job.id = id ∧ job.state = .pending := by
  obtain ⟨job, hjob, rfl⟩ := List.mem_map.mp h
  have hin := (mem_sortByKey claimOrder).mp (List.mem_of_mem_take hjob)
  obtain ⟨hmem, hrun⟩ := List.mem_filter.mp hin
  simp only [runnable, Bool.and_eq_true, decide_eq_true_eq] at hrun
  exact ⟨job, hmem, rfl, hrun.1.1⟩

theorem JobQueue.Inv.unique {q : JobQueue} (h : q.Inv) {a b : Job} (ha : a ∈ q.tables.jobs)
    (hb : b ∈ q.tables.jobs) (hid : a.id = b.id) : a = b :=
  List.inj_on_of_nodup_map h.ids ha hb hid

/-! ## One statement -/

variable {q : JobQueue}

theorem enqueue_inv (h : q.Inv) (job : NewJob) (clock : Int) :
    (q.step (.enqueue job clock)).Inv := by
  unfold JobQueue.step enqueueJob
  dsimp only
  split
  · rename_i id t hrun
    split at hrun
    · cases hrun
      set id := nextRowid (q.tables.jobs.map Job.id) with hid
      have hfresh : ∀ old ∈ q.tables.jobs, id ≠ old.id := by
        intro old hold heq
        have hin : old.id ∈ q.tables.jobs.map Job.id := List.mem_map_of_mem hold
        rw [← heq, hid] at hin
        exact nextRowid_not_mem _ hin
      refine ⟨?_, ?_, ?_, ?_, fun i => ?_⟩
      · show ((q.tables.jobs ++ [_]).map Job.id).Nodup
        rw [List.map_append, List.map_singleton]
        refine List.nodup_append.mpr ⟨h.ids, List.nodup_singleton _, ?_⟩
        intro a ha b hb
        obtain ⟨old, hold, rfl⟩ := List.mem_map.mp ha
        rw [List.mem_singleton.mp hb]
        exact (hfresh old hold).symm
      · intro new hnew hmax
        rcases List.mem_append.mp hnew with hold | hnew
        · exact h.bounded new hold hmax
        · obtain rfl := List.mem_singleton.mp hnew
          have hPos : (1 : Int) ≤ job.maxAttempts := hmax
          refine ⟨fun _ => ?_, ?_, fun heq => ?_⟩
          · show (0 : Int) < job.maxAttempts
            omega
          · show (0 : Int) ≤ job.maxAttempts
            omega
          · have hZero : (0 : Int) = job.maxAttempts := heq
            omega
      · intro new hnew
        rcases List.mem_append.mp hnew with hold | hnew
        · rw [h.fails new hold, failsSince, if_neg (hfresh new hold)]
        · obtain rfl := List.mem_singleton.mp hnew
          show (0 : Int) = failsSince id (.enqueued id :: q.log)
          rw [failsSince, if_pos rfl]
          rfl
      · intro new hnew hpending
        rcases List.mem_append.mp hnew with hold | hnew
        · rw [claimsSince, if_neg (hfresh new hold)]
          exact h.waiting new hold hpending
        · obtain rfl := List.mem_singleton.mp hnew
          show claimsSince id (.enqueued id :: q.log) = 0
          rw [claimsSince, if_pos rfl]
      · rw [claimsSince]
        split
        · omega
        · exact h.once i
    · cases hrun
  · exact h

theorem claim_inv (h : q.Inv) (kinds : List JobKind) (limit : Nat) (now clock : Int) :
    (q.step (.claim kinds limit now clock)).Inv := by
  unfold JobQueue.step claimJobs
  dsimp only
  split
  · exact h
  · set ids := claimedIds kinds limit now q.tables with hids
    set t := (updateJobs (fun job => decide (job.id ∈ ids))
      (fun job => { job with state := .running, updatedAt := clock }) q.tables).2 with ht
    have htids : t.jobs.map Job.id = q.tables.jobs.map Job.id := updateJobs_ids (by intro; rfl) _
    set returned := (sortByKey claimOrder (t.jobs.filter fun job => decide (job.id ∈ ids))).map Job.id
      with hreturned
    have hlog : (sortByKey claimOrder (t.jobs.filter fun job => decide (job.id ∈ ids))).map
        (fun job => JobEvent.returned job.id) = returned.map JobEvent.returned := by
      rw [hreturned, List.map_map]
      rfl
    have hnodup : returned.Nodup := by
      have hperm := (sortByKey_perm claimOrder (t.jobs.filter fun job => decide (job.id ∈ ids))).map
        Job.id
      rw [hreturned, hperm.nodup_iff]
      exact (htids ▸ h.ids).sublist (List.filter_sublist.map _)
    have hmem : ∀ id ∈ returned, id ∈ ids := by
      intro id hid
      obtain ⟨job, hjob, rfl⟩ := List.mem_map.mp hid
      simpa using (List.mem_filter.mp ((mem_sortByKey claimOrder).mp hjob)).2
    rw [hlog]
    refine ⟨htids ▸ h.ids, ?_, ?_, ?_, fun id => ?_⟩
    · intro job hjob hmax
      obtain ⟨old, hold, ⟨hmatch, rfl⟩ | ⟨-, rfl⟩⟩ := mem_updateJobs hjob
      · -- a claimed row was pending
        obtain ⟨other, hother, hid, hpending⟩ := claimedIds_pending (of_decide_eq_true hmatch)
        obtain rfl := h.unique hother hold hid
        have hb := h.bounded other hold hmax
        have hlt := hb.active (Or.inl hpending)
        exact ⟨fun _ => hlt, hb.le, fun heq => absurd heq (ne_of_lt hlt)⟩
      · exact h.bounded job hold hmax
    · intro job hjob
      rw [failsSince_returned]
      obtain ⟨old, hold, ⟨-, rfl⟩ | ⟨-, rfl⟩⟩ := mem_updateJobs hjob
      · exact h.fails old hold
      · exact h.fails job hold
    · intro job hjob hpending
      obtain ⟨old, hold, ⟨-, rfl⟩ | ⟨hmatch, rfl⟩⟩ := mem_updateJobs hjob
      · cases hpending
      · rw [claimsSince_returned, h.waiting job hold hpending, Nat.zero_add]
        exact List.count_eq_zero.mpr fun hin => of_decide_eq_false hmatch (hmem _ hin)
    · rw [claimsSince_returned]
      by_cases hid : id ∈ returned
      · obtain ⟨job, hjob, rfl, hpending⟩ := claimedIds_pending (hmem id hid)
        rw [h.waiting job hjob hpending, List.count_eq_one_of_mem hnodup hid]
      · rw [List.count_eq_zero.mpr hid]
        exact h.once id

theorem complete_inv (h : q.Inv) (id clock : Int) : (q.step (.complete id clock)).Inv := by
  unfold JobQueue.step completeJob
  dsimp only
  split
  · rename_i t hrun
    split at hrun
    · cases hrun
    · cases hrun
      refine ⟨updateJobs_nodup (by intro; rfl) h.ids, ?_, ?_, ?_, h.once⟩
      · intro job hjob hmax
        obtain ⟨old, hold, ⟨hmatch, rfl⟩ | ⟨-, rfl⟩⟩ := mem_updateJobs hjob
        · simp only [runningAt, Bool.and_eq_true, decide_eq_true_eq] at hmatch
          have hb := h.bounded old hold hmax
          have hlt := hb.active (Or.inr hmatch.2)
          exact ⟨fun _ => hlt, hb.le, fun heq => absurd heq (ne_of_lt hlt)⟩
        · exact h.bounded job hold hmax
      · intro job hjob
        obtain ⟨old, hold, ⟨-, rfl⟩ | ⟨-, rfl⟩⟩ := mem_updateJobs hjob
        · exact h.fails old hold
        · exact h.fails job hold
      · intro job hjob hpending
        obtain ⟨old, hold, ⟨-, rfl⟩ | ⟨-, rfl⟩⟩ := mem_updateJobs hjob
        · cases hpending
        · exact h.waiting job hold hpending
  · exact h

/-- A retry is announced exactly when the running row is retried. -/
theorem failEvents_eq (h : q.Inv) {job : Job} (hjob : job ∈ q.tables.jobs)
    (hrunning : job.state = .running) (retryAt : Option Int) :
    failEvents job.id retryAt q.tables =
      if retries retryAt job then [.requeued job.id, .failed job.id] else [.failed job.id] := by
  unfold failEvents
  refine if_congr ?_ rfl rfl
  rw [List.any_eq_true]
  constructor
  · rintro ⟨other, hother, hmatch⟩
    simp only [runningAt, Bool.and_eq_true, decide_eq_true_eq] at hmatch
    rw [← h.unique hother hjob hmatch.1.1]
    exact hmatch.2
  · intro hretries
    exact ⟨job, hjob, by simp [runningAt, hrunning, hretries]⟩

theorem fail_inv (h : q.Inv) (id : Int) (err : String) (retryAt : Option Int) (clock : Int) :
    (q.step (.fail id err retryAt clock)).Inv := by
  unfold JobQueue.step failJob
  dsimp only
  split
  · rename_i t hrun
    split at hrun
    · cases hrun
    · rename_i hchanged
      cases hrun
      -- the one row that is changed
      obtain ⟨job, hjob, hmatch⟩ := List.countP_pos_iff.mp (Nat.pos_of_ne_zero hchanged)
      simp only [runningAt, Bool.and_eq_true, decide_eq_true_eq] at hmatch
      obtain ⟨rfl, hrunning⟩ := hmatch
      have honly : ∀ old ∈ q.tables.jobs, runningAt job.id old = true → old = job := by
        intro old hold hmatch
        simp only [runningAt, Bool.and_eq_true, decide_eq_true_eq] at hmatch
        exact h.unique hold hjob hmatch.1
      have hothers : ∀ old ∈ q.tables.jobs, runningAt job.id old = false → old.id ≠ job.id := by
        intro old hold hmatch hid
        rw [h.unique hold hjob hid] at hmatch
        simp [runningAt, hrunning] at hmatch
      rw [failEvents_eq h hjob hrunning]
      have hfails : ∀ i, failsSince i ((if retries retryAt job then [.requeued job.id, .failed job.id]
          else [.failed job.id]) ++ q.log) = failsSince i q.log + if job.id = i then 1 else 0 := by
        intro i
        split <;> rfl
      have hclaims : ∀ i, claimsSince i ((if retries retryAt job then
          [.requeued job.id, .failed job.id] else [.failed job.id]) ++ q.log) =
          if retries retryAt job ∧ job.id = i then 0 else claimsSince i q.log := by
        intro i
        by_cases hretries : retries retryAt job = true
        · simp [hretries, claimsSince]
        · simp [hretries, claimsSince]
      refine ⟨updateJobs_nodup (by intro; rfl) h.ids, ?_, ?_, ?_, fun i => ?_⟩
      · intro new hnew hmax
        obtain ⟨old, hold, ⟨hmatch, rfl⟩ | ⟨-, rfl⟩⟩ := mem_updateJobs hnew
        · obtain rfl := honly old hold hmatch
          have hb := h.bounded old hold hmax
          have hlt : old.attempts < old.maxAttempts := hb.active (Or.inr hrunning)
          show BoundedJob (failedJob err retryAt clock old)
          unfold failedJob
          by_cases hretries : retries retryAt old = true
          · have hmore : old.attempts + 1 < old.maxAttempts := by
              simp only [retries, Bool.and_eq_true, decide_eq_true_eq] at hretries
              exact hretries.2
            refine ⟨fun _ => hmore, le_of_lt hmore, fun heq => ?_⟩
            exact absurd heq (ne_of_lt hmore)
          · rw [if_neg hretries]
            refine ⟨fun hactive => ?_, hlt, fun _ => rfl⟩
            rcases hactive with hstate | hstate <;> cases hstate
        · exact h.bounded new hold hmax
      · intro new hnew
        rw [hfails]
        obtain ⟨old, hold, ⟨hmatch, rfl⟩ | ⟨hmatch, rfl⟩⟩ := mem_updateJobs hnew
        · obtain rfl := honly old hold hmatch
          show old.attempts + 1 = ((failsSince old.id q.log + if old.id = old.id then 1 else 0 : Nat) : Int)
          rw [if_pos rfl, h.fails old hold]
          rfl
        · rw [if_neg (Ne.symm (hothers new hold hmatch))]
          exact h.fails new hold
      · intro new hnew hpending
        rw [hclaims]
        obtain ⟨old, hold, ⟨hmatch, rfl⟩ | ⟨hmatch, rfl⟩⟩ := mem_updateJobs hnew
        · obtain rfl := honly old hold hmatch
          have hstate : (if retries retryAt old then JobState.pending else .dead) = .pending := hpending
          by_cases hretries : retries retryAt old = true
          · exact if_pos ⟨hretries, rfl⟩
          · rw [if_neg hretries] at hstate
            cases hstate
        · rw [if_neg fun hand => hothers new hold hmatch hand.2.symm]
          exact h.waiting new hold hpending
      · rw [hclaims]
        split
        · exact Nat.zero_le _
        · exact h.once i
  · exact h

theorem resetStale_inv (h : q.Inv) (olderThanMs clock : Int) :
    (q.step (.resetStale olderThanMs clock)).Inv := by
  unfold JobQueue.step resetStaleRunningJobs
  have hlog : (q.tables.jobs.filter (stale olderThanMs clock)).map
      (fun job => JobEvent.requeued job.id) =
      ((q.tables.jobs.filter (stale olderThanMs clock)).map Job.id).map JobEvent.requeued := by
    rw [List.map_map]
    rfl
  dsimp only
  rw [hlog]
  refine ⟨updateJobs_nodup (by intro; rfl) h.ids, ?_, ?_, ?_, fun id => ?_⟩
  · intro job hjob hmax
    obtain ⟨old, hold, ⟨hmatch, rfl⟩ | ⟨-, rfl⟩⟩ := mem_updateJobs hjob
    · simp only [stale, Bool.and_eq_true, decide_eq_true_eq] at hmatch
      have hb := h.bounded old hold hmax
      have hlt := hb.active (Or.inr hmatch.1)
      exact ⟨fun _ => hlt, hb.le, fun heq => absurd heq (ne_of_lt hlt)⟩
    · exact h.bounded job hold hmax
  · intro job hjob
    rw [failsSince_requeued]
    obtain ⟨old, hold, ⟨-, rfl⟩ | ⟨-, rfl⟩⟩ := mem_updateJobs hjob
    · exact h.fails old hold
    · exact h.fails job hold
  · intro job hjob hpending
    rw [claimsSince_requeued]
    obtain ⟨old, hold, ⟨hmatch, rfl⟩ | ⟨-, rfl⟩⟩ := mem_updateJobs hjob
    · exact if_pos (List.mem_map.mpr ⟨old, List.mem_filter.mpr ⟨hold, hmatch⟩, rfl⟩)
    · rw [h.waiting job hold hpending]
      exact ite_self 0
  · rw [claimsSince_requeued]
    split
    · exact Nat.zero_le _
    · exact h.once id

theorem cancel_inv (h : q.Inv) : (q.step .cancelPendingVision).Inv where
  ids := h.ids.sublist (List.filter_sublist.map _)
  bounded job hjob := h.bounded job (List.mem_of_mem_filter hjob)
  fails job hjob := h.fails job (List.mem_of_mem_filter hjob)
  waiting job hjob := h.waiting job (List.mem_of_mem_filter hjob)
  once := h.once

/-- One statement keeps the invariant. -/
theorem JobQueue.step_inv (h : q.Inv) (op : JobOp) : (q.step op).Inv := by
  cases op with
  | enqueue job clock => exact enqueue_inv h job clock
  | claim kinds limit now clock => exact claim_inv h kinds limit now clock
  | complete id clock => exact complete_inv h id clock
  | fail id err retryAt clock => exact fail_inv h id err retryAt clock
  | resetStale olderThanMs clock => exact resetStale_inv h olderThanMs clock
  | cancelPendingVision => exact cancel_inv h

theorem JobQueue.run_inv (h : q.Inv) (ops : List JobOp) : (q.run ops).Inv := by
  induction ops generalizing q with
  | nil => exact h
  | cons op ops ih => exact ih (JobQueue.step_inv h op)

/-! ## What a statement does to one row -/

/-- A job whose work is over. -/
def Finished (job : Job) : Prop := job.state = .done ∨ job.state = .dead

theorem Finished.not_active {job : Job} (h : Finished job) :
    ¬(job.state = .pending ∨ job.state = .running) := by
  unfold Finished at h
  rcases h with hDone | hDead
  · rw [hDone]
    decide
  · rw [hDead]
    decide

theorem mem_updateJobs_of_not {isMatch : Job → Bool} {assign : Job → Job} {t : JobTables} {job : Job}
    (hjob : job ∈ t.jobs) (hNot : isMatch job = false) : job ∈ (updateJobs isMatch assign t).2.jobs := by
  refine List.mem_map.mpr ⟨job, hjob, ?_⟩
  show (if isMatch job = true then assign job else job) = job
  rw [hNot]
  rfl

/-- An update puts the changed row in the place of the old one. -/
theorem mem_updateJobs_assign {isMatch : Job → Bool} (assign : Job → Job) {t : JobTables}
    {job : Job} (hjob : job ∈ t.jobs) (hMatch : isMatch job = true) :
    assign job ∈ (updateJobs isMatch assign t).2.jobs := by
  refine List.mem_map.mpr ⟨job, hjob, ?_⟩
  show (if isMatch job = true then assign job else job) = assign job
  rw [hMatch]
  rfl

/-- An update leaves a row or changes it under its identifier. -/
theorem updateJobs_row (isMatch : Job → Bool) (assign : Job → Job)
    (hid : ∀ job, (assign job).id = job.id) {t : JobTables} {job : Job} (hjob : job ∈ t.jobs) :
    job ∈ (updateJobs isMatch assign t).2.jobs ∨
      isMatch job = true ∧ ∃ new ∈ (updateJobs isMatch assign t).2.jobs, new.id = job.id := by
  cases hMatch : isMatch job with
  | false => exact Or.inl (mem_updateJobs_of_not hjob hMatch)
  | true => exact Or.inr ⟨rfl, assign job, mem_updateJobs_assign assign hjob hMatch, hid job⟩

/-- A statement leaves a row, changes an active one under its identifier, or deletes
a pending vision job. -/
theorem step_row (h : q.Inv) (op : JobOp) {job : Job} (hjob : job ∈ q.tables.jobs) :
    job ∈ (q.step op).tables.jobs ∨
      ((job.state = .pending ∨ job.state = .running) ∧
        ∃ new ∈ (q.step op).tables.jobs, new.id = job.id) ∨
      (job.kind = .visionTag ∧ job.state = .pending) := by
  cases op with
  | enqueue new clock =>
    unfold JobQueue.step enqueueJob
    dsimp only
    split
    · rename_i id t hrun
      split at hrun
      · cases hrun
        exact Or.inl (List.mem_append_left _ hjob)
      · cases hrun
    · exact Or.inl hjob
  | claim kinds limit now clock =>
    unfold JobQueue.step claimJobs
    dsimp only
    split
    · exact Or.inl hjob
    · rcases updateJobs_row (fun row => decide (row.id ∈ claimedIds kinds limit now q.tables)) (fun row => { row with state := .running, updatedAt := clock })
        (fun _ => rfl) hjob with hkept | ⟨hmatch, hnew⟩
      · exact Or.inl hkept
      · obtain ⟨other, hother, hid, hpending⟩ := claimedIds_pending (of_decide_eq_true hmatch)
        obtain rfl := h.unique hother hjob hid
        exact Or.inr (Or.inl ⟨Or.inl hpending, hnew⟩)
  | complete id clock =>
    unfold JobQueue.step completeJob
    dsimp only
    split
    · rename_i t hrun
      split at hrun
      · cases hrun
      · cases hrun
        rcases updateJobs_row (runningAt id) (fun row => { row with state := .done, updatedAt := clock })
          (fun _ => rfl) hjob with hkept | ⟨hmatch, hnew⟩
        · exact Or.inl hkept
        · simp only [runningAt, Bool.and_eq_true, decide_eq_true_eq] at hmatch
          exact Or.inr (Or.inl ⟨Or.inr hmatch.2, hnew⟩)
    · exact Or.inl hjob
  | fail id err retryAt clock =>
    unfold JobQueue.step failJob
    dsimp only
    split
    · rename_i t hrun
      split at hrun
      · cases hrun
      · cases hrun
        rcases updateJobs_row (runningAt id) (failedJob err retryAt clock)
          (fun _ => rfl) hjob with hkept | ⟨hmatch, hnew⟩
        · exact Or.inl hkept
        · simp only [runningAt, Bool.and_eq_true, decide_eq_true_eq] at hmatch
          exact Or.inr (Or.inl ⟨Or.inr hmatch.2, hnew⟩)
    · exact Or.inl hjob
  | resetStale olderThanMs clock =>
    rcases updateJobs_row (stale olderThanMs clock) (fun row => { row with state := .pending, updatedAt := clock })
      (fun _ => rfl) hjob with hkept | ⟨hmatch, hnew⟩
    · exact Or.inl hkept
    · simp only [stale, Bool.and_eq_true, decide_eq_true_eq] at hmatch
      exact Or.inr (Or.inl ⟨Or.inr hmatch.1, hnew⟩)
  | cancelPendingVision =>
    cases hmatch : pendingVision job with
    | false => exact Or.inl (List.mem_filter.mpr ⟨hjob, by rw [hmatch]; rfl⟩)
    | true =>
      simp only [pendingVision, Bool.and_eq_true, decide_eq_true_eq] at hmatch
      exact Or.inr (Or.inr hmatch)

theorem step_keeps_finished (h : q.Inv) (op : JobOp) {job : Job} (hjob : job ∈ q.tables.jobs)
    (hFinished : Finished job) : job ∈ (q.step op).tables.jobs := by
  rcases step_row h op hjob with hkept | ⟨hactive, -⟩ | ⟨-, hpending⟩
  · exact hkept
  · exact absurd hactive hFinished.not_active
  · exact absurd (Or.inl hpending) hFinished.not_active

theorem run_keeps_finished (h : q.Inv) (ops : List JobOp) {job : Job} (hjob : job ∈ q.tables.jobs)
    (hFinished : Finished job) : job ∈ (q.run ops).tables.jobs := by
  induction ops generalizing q with
  | nil => exact hjob
  | cons op ops ih => exact ih (JobQueue.step_inv h op) (step_keeps_finished h op hjob hFinished)

/-- A row that disappears was a pending vision job. -/
theorem step_deletes (h : q.Inv) (op : JobOp) {job : Job} (hjob : job ∈ q.tables.jobs)
    (hGone : job.id ∉ (q.step op).tables.jobs.map Job.id) :
    job.kind = .visionTag ∧ job.state = .pending := by
  rcases step_row h op hjob with hkept | ⟨-, new, hnew, hid⟩ | hvision
  · exact absurd (List.mem_map_of_mem hkept) hGone
  · exact absurd (List.mem_map.mpr ⟨new, hnew, hid⟩) hGone
  · exact hvision

/-! ## What a statement adds to the log -/

/-- What the log says of a statement is what the statement did to the rows. -/
structure Truthful (q : JobQueue) (op : JobOp) (events : List JobEvent) : Prop where
  log : (q.step op).log = events ++ q.log
  enqueued : ∀ id, .enqueued id ∈ events → id ∉ q.tables.jobs.map Job.id ∧
    ∃ new ∈ (q.step op).tables.jobs, new.id = id ∧ new.state = .pending
  requeued : ∀ id, .requeued id ∈ events →
    ∃ old ∈ q.tables.jobs, ∃ new ∈ (q.step op).tables.jobs,
      old.id = id ∧ new.id = id ∧ old.state = .running ∧ new.state = .pending
  returned : ∀ id, .returned id ∈ events → ∃ old ∈ q.tables.jobs, old.id = id ∧ old.state = .pending

/-- A statement that logs nothing. -/
theorem truthful_nil {op : JobOp} (hLog : (q.step op).log = q.log) : Truthful q op [] :=
  ⟨hLog, by simp, by simp, by simp⟩

theorem step_truthful (op : JobOp) : ∃ events, Truthful q op events := by
  cases op with
  | enqueue job clock =>
    cases hrun : enqueueJob job clock q.tables with
    | error e =>
      refine ⟨[], truthful_nil ?_⟩
      unfold JobQueue.step
      simp only [hrun]
    | ok made =>
      obtain ⟨id, t⟩ := made
      have hstep : q.step (.enqueue job clock) = ⟨t, .enqueued id :: q.log⟩ := by
        unfold JobQueue.step
        simp only [hrun]
      unfold enqueueJob at hrun
      split at hrun
      · cases hrun
        refine ⟨[.enqueued _], by rw [hstep]; rfl, ?_, by simp, by simp⟩
        intro i hi
        obtain rfl : i = nextRowid (q.tables.jobs.map Job.id) := by simpa using hi
        rw [hstep]
        -- the id was nobody's before
        exact ⟨nextRowid_not_mem _, _, List.mem_append_right _ (List.mem_singleton_self _), rfl, rfl⟩
      · cases hrun
  | claim kinds limit now clock =>
    refine ⟨(claimJobs kinds limit now clock q.tables).1.map fun job => .returned job.id, rfl, ?_,
      ?_, ?_⟩
    · simp
    · simp
    · intro id hid
      obtain ⟨job, hjob, heq⟩ := List.mem_map.mp hid
      cases heq
      unfold claimJobs at hjob
      split at hjob
      · cases hjob
      · have hin := (List.mem_filter.mp ((mem_sortByKey claimOrder).mp hjob)).2
        -- only pending jobs are claimed
        exact claimedIds_pending (of_decide_eq_true hin)
  | complete id clock =>
    refine ⟨[], truthful_nil ?_⟩
    unfold JobQueue.step
    dsimp only
    split <;> rfl
  | fail id err retryAt clock =>
    cases hrun : failJob id err retryAt clock q.tables with
    | error e =>
      refine ⟨[], truthful_nil ?_⟩
      unfold JobQueue.step
      simp only [hrun]
    | ok t =>
      have hstep : q.step (.fail id err retryAt clock) =
          ⟨t, failEvents id retryAt q.tables ++ q.log⟩ := by
        unfold JobQueue.step
        simp only [hrun]
      unfold failJob at hrun
      dsimp only at hrun
      split at hrun
      · cases hrun
      · cases hrun
        refine ⟨failEvents id retryAt q.tables, by rw [hstep], ?_, ?_, ?_⟩
        · intro i hi
          unfold failEvents at hi
          split at hi <;> simp at hi
        · intro i hi
          unfold failEvents at hi
          split at hi
          · rename_i hany
            obtain rfl : i = id := by simpa using hi
            obtain ⟨job, hjob, hboth⟩ := List.any_eq_true.mp hany
            rw [Bool.and_eq_true] at hboth
            have hmem := mem_updateJobs_assign (failedJob err retryAt clock) hjob hboth.1
            have hmatch := hboth.1
            simp only [runningAt, Bool.and_eq_true, decide_eq_true_eq] at hmatch
            rw [hstep]
            -- a running job that may be tried again is pending again
            refine ⟨job, hjob, _, hmem, hmatch.1, hmatch.1, hmatch.2, ?_⟩
            show (if retries retryAt job then JobState.pending else .dead) = .pending
            exact if_pos hboth.2
          · simp at hi
        · intro i hi
          unfold failEvents at hi
          split at hi <;> simp at hi
  | resetStale olderThanMs clock =>
    refine ⟨(q.tables.jobs.filter (stale olderThanMs clock)).map fun job => .requeued job.id, rfl, ?_,
      ?_, ?_⟩
    · simp
    · intro id hid
      obtain ⟨job, hjob, heq⟩ := List.mem_map.mp hid
      cases heq
      obtain ⟨hmem, hstale⟩ := List.mem_filter.mp hjob
      have hnew := mem_updateJobs_assign
        (fun row => { row with state := .pending, updatedAt := clock }) hmem hstale
      simp only [stale, Bool.and_eq_true, decide_eq_true_eq] at hstale
      exact ⟨job, hmem, _, hnew, rfl, rfl, hstale.1, rfl⟩
    · simp
  | cancelPendingVision => exact ⟨[], truthful_nil rfl⟩

/-- A finished job is not returned by any later claim. -/
theorem run_returns_finished (h : q.Inv) (ops : List JobOp) {job : Job} (hjob : job ∈ q.tables.jobs)
    (hFinished : Finished job) :
    (q.run ops).log.count (.returned job.id) = q.log.count (.returned job.id) := by
  induction ops generalizing q with
  | nil => rfl
  | cons op ops ih =>
    have hnext := ih (JobQueue.step_inv h op) (step_keeps_finished h op hjob hFinished)
    show ((q.step op).run ops).log.count _ = _
    obtain ⟨events, hevents⟩ := step_truthful op
    rw [hnext, hevents.log, List.count_append]
    have hnone : events.count (.returned job.id) = 0 := by
      refine List.count_eq_zero.mpr fun hin => ?_
      obtain ⟨old, hold, hid, hpending⟩ := hevents.returned job.id hin
      rw [h.unique hold hjob hid] at hpending
      exact hFinished.not_active (Or.inl hpending)
    omega

/-! ## The life of a job -/

/--
Over any statements of any workers, the attempts of every job stay within its
maximum, a finished row never changes again, a row that disappears was a pending
vision job, a job is returned at most once for each time it becomes pending, and
one that failed as often as its maximum is dead and is returned no more.
-/
theorem job_lifecycle (frames : List Int) (ops : List JobOp) :
    (∀ job ∈ ((JobQueue.start frames).run ops).tables.jobs, 1 ≤ job.maxAttempts → BoundedJob job) ∧
    (∀ job ∈ ((JobQueue.start frames).run ops).tables.jobs, Finished job → ∀ later,
      job ∈ (((JobQueue.start frames).run ops).run later).tables.jobs) ∧
    (∀ job ∈ ((JobQueue.start frames).run ops).tables.jobs, ∀ op,
      job.id ∉ (((JobQueue.start frames).run ops).step op).tables.jobs.map Job.id →
        job.kind = .visionTag ∧ job.state = .pending) ∧
    (∀ id, claimsSince id ((JobQueue.start frames).run ops).log ≤ 1) ∧
    (∀ op, ∃ events, Truthful ((JobQueue.start frames).run ops) op events) ∧
    (∀ job ∈ ((JobQueue.start frames).run ops).tables.jobs, 1 ≤ job.maxAttempts →
      job.maxAttempts ≤ failsSince job.id ((JobQueue.start frames).run ops).log →
        job.state = .dead ∧ ∀ later,
          (((JobQueue.start frames).run ops).run later).log.count (.returned job.id) =
            ((JobQueue.start frames).run ops).log.count (.returned job.id)) := by
  have h := JobQueue.run_inv (start_inv frames) ops
  refine ⟨h.bounded, ?_, ?_, h.once, step_truthful, ?_⟩
  · intro job hjob hFinished later
    exact run_keeps_finished h later hjob hFinished
  · intro job hjob op hGone
    exact step_deletes h op hjob hGone
  · intro job hjob hmax hspent
    have hb := h.bounded job hjob hmax
    rw [← h.fails job hjob] at hspent
    have hdead := hb.spent (le_antisymm hb.le hspent)
    exact ⟨hdead, fun later => run_returns_finished h later hjob (Or.inr hdead)⟩

end ScreenSearch.Store
