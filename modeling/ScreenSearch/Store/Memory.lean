import ScreenSearch.Lib.Sort
import ScreenSearch.Traits.Memory

/-!
# The report store

Runs and their deliveries, as the statements of the store change them. Payloads
are whole records; the columns beside them repeat fields of the payload. Deleting
a run deletes its deliveries.
-/

namespace ScreenSearch.Store

open Sorting

structure MemoryDb where
  runs : List ReportRun
  deliveries : List ReportDelivery
  /-- The `memory.schedule.state` setting. -/
  scheduleState : Option ReportScheduleState
  deriving DecidableEq, Repr

def MemoryDb.empty : MemoryDb where
  runs := []
  deliveries := []
  scheduleState := none

/-- A statement of the store: it fails with a message and changes nothing, or
returns a value. -/
abbrev MemoryStatement (α : Type) := MemoryDb → Except String (α × MemoryDb)

def ensure (condition : Bool) (message : String) : Except String Unit :=
  if condition then .ok () else .error message

namespace MemoryDb

def runAt (db : MemoryDb) (id : String) : Option ReportRun :=
  db.runs.find? fun run => run.runId == id

def deliveryAt (db : MemoryDb) (id : String) : Option ReportDelivery :=
  db.deliveries.find? fun d => d.id == id

/-- Overwrite the row of a run. -/
def setRun (db : MemoryDb) (run : ReportRun) : MemoryDb :=
  { db with runs := db.runs.map fun old => if old.runId = run.runId then run else old }

def setDelivery (db : MemoryDb) (d : ReportDelivery) : MemoryDb :=
  { db with deliveries := db.deliveries.map fun old => if old.id = d.id then d else old }

end MemoryDb

/-! ## Runs -/

def validateRun (run : ReportRun) : Except String Unit := do
  ensure (!run.runId.isEmpty && !run.sourceId.isEmpty) "missing report identity"
  ensure (decide (run.windowStart < run.windowEnd)) "invalid report window"
  ensure (run.scheduleId.isNone || run.requestedRange.isNone)
    "scheduled reports cannot carry a manual requested range"
  match run.result with
  | some result =>
    ensure (decide (result.frameIds.dedup.length = result.frameIds.length ∧
      result.frameIds.dedup.length = result.framesSummarized)) "report provenance count mismatch"
  | none => pure ()

/-- The base run a new base run stands for, if there is one. -/
def existingBaseRun (db : MemoryDb) (run : ReportRun) : Option ReportRun :=
  if run.revisionOf.isSome then none
  else
    match run.scheduleId with
    | some schedule =>
      db.runs.find? fun old => old.scheduleId == some schedule &&
        decide (old.windowStart = run.windowStart) && decide (old.windowEnd = run.windowEnd) &&
        old.revisionOf.isNone
    | none =>
      if run.requestedRange.isSome then none
      else
        -- the newest of those still queued or running
        (sortByKey (fun old : ReportRun => OrderDual.toDual old.createdAt)
          (db.runs.filter fun old => old.scheduleId.isNone && old.revisionOf.isNone &&
            decide (old.windowStart = run.windowStart) && decide (old.windowEnd = run.windowEnd) &&
            decide (old.phase = .queued ∨ old.phase = .running) &&
            old.sourceId == run.sourceId && old.requestedRange.isNone)).head?

def createReportRun (run : ReportRun) : MemoryStatement ReportRun := fun db => do
  validateRun run
  match db.runAt run.runId with
  | some existing => pure (existing, db)
  | none =>
    match existingBaseRun db run with
    | some existing => pure (existing, db)
    | none => pure (run, { db with runs := db.runs ++ [run] })

def getReportRun (id : String) : MemoryStatement (Option ReportRun) := fun db =>
  pure (db.runAt id, db)

def updateReportRun (run : ReportRun) : MemoryStatement Unit := fun db => do
  match db.runAt run.runId with
  | none => throw "report not found"
  | some old =>
    ensure (decide (old.sourceId = run.sourceId ∧ old.scheduleId = run.scheduleId ∧
        old.revisionOf = run.revisionOf ∧ old.requestedRange = run.requestedRange ∧
        old.windowStart = run.windowStart ∧ old.windowEnd = run.windowEnd ∧
        old.timezone = run.timezone ∧ old.localDate = run.localDate ∧
        old.configSnapshot = run.configSnapshot ∧ old.createdAt = run.createdAt))
      "report identity and configuration are immutable"
    ensure (old.result.isNone || decide (old.result = run.result)) "saved report is immutable"
    validateRun run
    pure ((), db.setRun run)

/-- The worker takes a queued run. -/
def claimReportRun (id : String) (now : Int) : MemoryStatement Bool := fun db =>
  match db.runAt id with
  | none => pure (false, db)
  | some run =>
    if run.phase ≠ .queued then pure (false, db)
    else pure (true, db.setRun { run with phase := .running, updatedAt := now })

/-! ## Deliveries -/

/-- What an attempt may never change. -/
def SameIdentity (old new : ReportDelivery) : Prop :=
  old.id = new.id ∧ old.runId = new.runId ∧ old.destination = new.destination ∧
    old.destinationSnapshot = new.destinationSnapshot ∧ old.revisionOf = new.revisionOf ∧
    old.createdAt = new.createdAt ∧ old.chunkIndex = new.chunkIndex ∧
    old.chunkCount = new.chunkCount

instance (old new : ReportDelivery) : Decidable (SameIdentity old new) :=
  inferInstanceAs (Decidable (_ ∧ _))

def checkDeliveryIdentity (old new : ReportDelivery) : Except String Unit :=
  ensure (decide (SameIdentity old new)) "delivery identity is immutable"

def insertDelivery (db : MemoryDb) (d : ReportDelivery) : Except String MemoryDb := do
  ensure (!d.id.isEmpty) "missing delivery identity"
  ensure (db.runAt d.runId).isSome "FOREIGN KEY constraint failed"
  ensure (db.deliveryAt d.id).isNone "UNIQUE constraint failed: report_deliveries.id"
  pure { db with deliveries := db.deliveries ++ [d] }

def createReportDelivery (d : ReportDelivery) : MemoryStatement ReportDelivery := fun db => do
  match db.deliveryAt d.id with
  | some old =>
    checkDeliveryIdentity old d
    pure (old, db)
  | none =>
    let db ← insertDelivery db d
    pure (d, db)

/-- One transaction: all of them or none. -/
def createReportDeliveries : List ReportDelivery → MemoryStatement (List ReportDelivery)
  | [], db => pure ([], db)
  | d :: deliveries, db => do
    let (first, db) ← createReportDelivery d db
    let (others, db) ← createReportDeliveries deliveries db
    pure (first :: others, db)

def getReportDelivery (id : String) : MemoryStatement (Option ReportDelivery) := fun db =>
  pure (db.deliveryAt id, db)

/-- Compare and set: nothing happens unless the attempt is in the expected
state, and a state that is final cannot be left. -/
def updateReportDelivery (d : ReportDelivery) (expected : ReportDeliveryState) :
    MemoryStatement Bool := fun db => do
  match db.deliveryAt d.id with
  | none => pure (false, db)
  | some old =>
    checkDeliveryIdentity old d
    if old.state ≠ expected then pure (false, db)
    else
      ensure (decide (old.state ≠ .succeeded ∧ old.state ≠ .skipped ∧ old.state ≠ .reviewed))
        "terminal delivery is immutable"
      ensure (decide (old.state ≠ .unknownDelivery))
        "unknown delivery requires explicit resolution"
      pure (true, db.setDelivery d)

def resolveReportDelivery (previous : ReportDelivery) (replacement : Option ReportDelivery) :
    MemoryStatement Bool := fun db => do
  match db.deliveryAt previous.id with
  | none => pure (false, db)
  | some old =>
    if old.state ≠ .unknownDelivery then pure (false, db)
    else
      checkDeliveryIdentity old previous
      ensure (decide (previous.state = .reviewed ∧ previous.messageId = old.messageId ∧
        previous.error = old.error)) "resolution must preserve uncertainty and receipts"
      match replacement with
      | some new =>
        ensure (decide (new.revisionOf = some old.id ∧ new.runId = old.runId ∧
          new.state = .pending)) "invalid linked resend"
        let db ← insertDelivery db new
        pure (true, db.setDelivery previous)
      | none => pure (true, db.setDelivery previous)

def listReportDeliveries (runId : String) : MemoryStatement (List ReportDelivery) := fun db =>
  pure (sortByKey ReportDelivery.id (db.deliveries.filter fun d => d.runId == runId), db)

/-! ## Revision families -/

/-- Up the revisions to the root. Each step visits a run not seen before. -/
def rootWalk (db : MemoryDb) (visited : List String) : Nat → ReportRun → Except String ReportRun
  | 0, _ => throw "report revision cycle"
  | fuel + 1, run =>
    match run.revisionOf with
    | none => pure run
    | some parent =>
      if parent ∈ visited then throw "report revision cycle"
      else
        match db.runAt parent with
        | none =>
          throw "report ancestor unavailable; delivery history cannot be verified"
        | some previous => rootWalk db (parent :: visited) fuel previous

/-- One round of the recursive query: the runs that revise one of `family`. -/
def familyRound (db : MemoryDb) (family : List String) : List String :=
  family ++ (db.runs.filter fun run =>
    run.revisionOf.any (fun parent => decide (parent ∈ family)) &&
      decide (run.runId ∉ family)).map ReportRun.runId

/-- The root and everything that revises it. -/
def familyOf (db : MemoryDb) (root : String) : List String :=
  db.runs.length.iterate (familyRound db) [root]

def listReportFamilyDeliveries (runId : String) : MemoryStatement (List ReportDelivery) :=
    fun db => do
  match db.runAt runId with
  | none => throw "report not found"
  | some run =>
    let root ← rootWalk db [] (db.runs.length + 1) run
    pure (sortByKey ReportDelivery.id
      (db.deliveries.filter fun d => decide (d.runId ∈ familyOf db root.runId)), db)

/-! ## Recovery and retention -/

def interruptedError : ReportError where
  code := "DELIVERY_FAILED"
  message := "Delivery was interrupted; service acceptance is unknown. Review before resending."

/-- What a restart makes of an attempt that was being sent. -/
def interrupted (now : Int) (d : ReportDelivery) : ReportDelivery :=
  if d.destination = .telegram then
    { d with state := .unknownDelivery, nextAttemptAt := none, error := some interruptedError,
             updatedAt := now }
  else { d with state := .pending, updatedAt := now }

def recoverDelivery (now : Int) (d : ReportDelivery) : ReportDelivery :=
  if d.state = .sending then interrupted now d else d

/-- Back to the queue with a run that was being worked on. -/
def requeued (now : Int) (run : ReportRun) : ReportRun :=
  { run with phase := .queued, updatedAt := now }

def recoverRun (now : Int) (run : ReportRun) : ReportRun :=
  if run.phase = .running then requeued now run else run

def recoverReportWork (now : Int) : MemoryStatement Unit := fun db => do
  (db.runs.filter fun run => run.phase = .running).forM fun run =>
    validateRun (recoverRun now run)
  pure ((), { db with
    runs := db.runs.map (recoverRun now), deliveries := db.deliveries.map (recoverDelivery now) })

/-- Whether a run has been delivered everywhere it has to be. -/
def Receipted (db : MemoryDb) (runId : String) (destination : ReportDestination) : Bool :=
  db.deliveries.any fun d => d.runId == runId && decide (d.destination = destination)

/-- A state the worker or the user still has to deal with. -/
def Unsettled (d : ReportDelivery) : Bool :=
  decide (d.state = .pending ∨ d.state = .sending ∨ d.state = .unknownDelivery ∨
    d.state = .conflict) || (decide (d.state = .failed) && d.nextAttemptAt.isSome)

/-- Whether the run, or a delivery of it, is still to be worked on. -/
def pendingRun (db : MemoryDb) (run : ReportRun) : Bool :=
  decide (run.phase = .queued ∨ run.phase = .running ∨ run.phase = .blocked) ||
    (db.deliveries.any fun d => d.runId == run.runId && Unsettled d) ||
    (decide (run.phase = .finished) && run.result.isSome &&
      (!Receipted db run.runId .vault || !Receipted db run.runId .index ||
        !Receipted db run.runId .telegram))

def listPendingReportRuns : MemoryStatement (List ReportRun) := fun db =>
  pure (sortByKey (fun run : ReportRun => toLex (run.createdAt, run.runId))
    (db.runs.filter (pendingRun db)), db)

/-- Whether retention may delete the run. -/
def prunable (db : MemoryDb) (before : Int) (run : ReportRun) : Bool :=
  decide (run.phase = .finished) && decide (run.updatedAt < before) &&
    !(db.runs.any fun child => child.revisionOf == some run.runId) &&
    (run.result.isNone ||
      (Receipted db run.runId .vault && Receipted db run.runId .index &&
        Receipted db run.runId .telegram)) &&
    !(db.deliveries.any fun d => d.runId == run.runId && Unsettled d)

def deleteRun (db : MemoryDb) (runId : String) : MemoryDb :=
  { db with
    runs := db.runs.filter fun run => run.runId != runId
    deliveries := db.deliveries.filter fun d => d.runId != runId }

def pruneOne (before : Int) (db : MemoryDb) (runId : String) : MemoryDb :=
  match db.runAt runId with
  | some run => if prunable db before run then deleteRun db runId else db
  | none => db

/-- Retention deletes row by row, in whatever order the rows are visited. -/
def pruneReportRuns (visit : List String) (before : Int) : MemoryStatement Unit := fun db =>
  pure ((), visit.foldl (pruneOne before) db)

/-! ## What each statement can do -/

@[simp] theorem ensure_ok {condition : Bool} {message : String} {u : Unit} :
    ensure condition message = .ok u ↔ condition = true := by
  cases condition <;> simp [ensure]

theorem bind_ok {ε α β : Type} {x : Except ε α} {f : α → Except ε β} {b : β} :
    x >>= f = .ok b ↔ ∃ a, x = .ok a ∧ f a = .ok b := by
  cases x <;> simp [bind, Except.bind]

theorem deliveryAt_some {db : MemoryDb} {id : String} {d : ReportDelivery}
    (h : db.deliveryAt id = some d) : d ∈ db.deliveries ∧ d.id = id :=
  ⟨List.mem_of_find?_eq_some h, by simpa using List.find?_some h⟩

theorem deliveryAt_none {db : MemoryDb} {id : String} (h : db.deliveryAt id = none) :
    id ∉ db.deliveries.map ReportDelivery.id := by
  intro hmem
  obtain ⟨d, hd, rfl⟩ := List.mem_map.mp hmem
  have := List.find?_eq_none.mp h d hd
  simp at this

theorem runAt_some {db : MemoryDb} {id : String} {run : ReportRun}
    (h : db.runAt id = some run) : run ∈ db.runs ∧ run.runId = id :=
  ⟨List.mem_of_find?_eq_some h, by simpa using List.find?_some h⟩

theorem runAt_none {db : MemoryDb} {id : String} (h : db.runAt id = none) :
    id ∉ db.runs.map ReportRun.runId := by
  intro hmem
  obtain ⟨run, hrun, rfl⟩ := List.mem_map.mp hmem
  have := List.find?_eq_none.mp h run hrun
  simp at this

theorem insertDelivery_cases {db db' : MemoryDb} {d : ReportDelivery}
    (h : insertDelivery db d = .ok db') :
    (db.runAt d.runId).isSome ∧ db.deliveryAt d.id = none ∧
      db' = { db with deliveries := db.deliveries ++ [d] } := by
  simp only [insertDelivery, bind_ok, ensure_ok, Option.isNone_iff_eq_none] at h
  obtain ⟨-, -, -, hrun, -, hnew, h⟩ := h
  exact ⟨hrun, hnew, (Except.ok.inj h).symm⟩

/-- A delivery is there already, or it is added. -/
theorem createReportDelivery_cases {db db' : MemoryDb} {d a : ReportDelivery}
    (h : createReportDelivery d db = .ok (a, db')) :
    db' = db ∨ (db.runAt d.runId).isSome ∧ db.deliveryAt d.id = none ∧
      db' = { db with deliveries := db.deliveries ++ [d] } := by
  rw [createReportDelivery] at h
  split at h
  · simp only [bind_ok] at h
    obtain ⟨-, -, h⟩ := h
    cases h
    exact Or.inl rfl
  · simp only [bind_ok] at h
    obtain ⟨db₁, hinsert, h⟩ := h
    cases h
    exact Or.inr (insertDelivery_cases hinsert)

/-- Deliveries are there already, or they are added. -/
theorem createReportDeliveries_cases {db db' : MemoryDb} {ds as : List ReportDelivery}
    (h : createReportDeliveries ds db = .ok (as, db')) :
    ∃ added, added.Sublist ds ∧ db' = { db with deliveries := db.deliveries ++ added } ∧
      ((db.deliveries.map ReportDelivery.id).Nodup → (db'.deliveries.map ReportDelivery.id).Nodup) := by
  induction ds generalizing db db' as with
  | nil =>
    cases h
    exact ⟨[], List.Sublist.refl _, by simp, id⟩
  | cons d ds ih =>
    simp only [createReportDeliveries, bind_ok] at h
    obtain ⟨⟨first, db₁⟩, hfirst, ⟨others, db₂⟩, hothers, h⟩ := h
    cases h
    obtain ⟨added, hsub, rfl, hids⟩ := ih hothers
    rcases createReportDelivery_cases hfirst with rfl | ⟨-, hnew, rfl⟩
    · exact ⟨added, hsub.cons _, rfl, hids⟩
    · refine ⟨d :: added, hsub.cons_cons _, by simp, fun h => hids ?_⟩
      rw [List.map_append, List.map_singleton, List.nodup_append]
      refine ⟨h, List.nodup_singleton _, fun a ha b hb => ?_⟩
      rw [List.mem_singleton.mp hb]
      rintro rfl
      exact deliveryAt_none hnew ha

/-- A state an attempt can still be moved out of. -/
def Open (d : ReportDelivery) : Prop :=
  d.state ≠ .succeeded ∧ d.state ≠ .skipped ∧ d.state ≠ .reviewed ∧ d.state ≠ .unknownDelivery

/-- The attempt is overwritten where it was in the expected state, which is not
final, and keeps its identity. -/
theorem updateReportDelivery_cases {db db' : MemoryDb} {d : ReportDelivery}
    {expected : ReportDeliveryState} {updated : Bool}
    (h : updateReportDelivery d expected db = .ok (updated, db')) :
    updated = false ∧ db' = db ∨
      updated = true ∧ ∃ old, db.deliveryAt d.id = some old ∧ SameIdentity old d ∧
        old.state = expected ∧ Open old ∧ db' = db.setDelivery d := by
  rw [updateReportDelivery] at h
  split at h
  · cases h
    exact Or.inl ⟨rfl, rfl⟩
  · rename_i old hold
    simp only [checkDeliveryIdentity, bind_ok, ensure_ok, decide_eq_true_eq] at h
    obtain ⟨-, hsame, h⟩ := h
    split at h
    · cases h
      exact Or.inl ⟨rfl, rfl⟩
    · rename_i hstate
      simp only [bind_ok, ensure_ok, decide_eq_true_eq] at h
      obtain ⟨-, hfinal, -, hunknown, h⟩ := h
      cases h
      exact Or.inr ⟨rfl, old, hold, hsame, not_not.mp hstate,
        ⟨hfinal.1, hfinal.2.1, hfinal.2.2, hunknown⟩, rfl⟩

/-- An unknown attempt becomes reviewed, with a linked attempt if one is
wanted. -/
theorem resolveReportDelivery_cases {db db' : MemoryDb} {previous : ReportDelivery}
    {replacement : Option ReportDelivery} {resolved : Bool}
    (h : resolveReportDelivery previous replacement db = .ok (resolved, db')) :
    db' = db ∨
      ∃ old db₁, db.deliveryAt previous.id = some old ∧ old.state = .unknownDelivery ∧
        SameIdentity old previous ∧
        (previous.state = .reviewed ∧ previous.messageId = old.messageId ∧
          previous.error = old.error) ∧
        (match replacement with
          | none => db₁ = db
          | some new => new.revisionOf = some old.id ∧ new.runId = old.runId ∧
              new.state = .pending ∧ insertDelivery db new = .ok db₁) ∧
        db' = db₁.setDelivery previous := by
  rw [resolveReportDelivery] at h
  split at h
  · cases h
    exact Or.inl rfl
  · rename_i old hold
    split at h
    · cases h
      exact Or.inl rfl
    · rename_i hstate
      simp only [checkDeliveryIdentity, bind_ok, ensure_ok, decide_eq_true_eq] at h
      obtain ⟨-, hsame, -, hprevious, h⟩ := h
      cases replacement with
      | none =>
        cases h
        exact Or.inr ⟨old, db, hold, not_not.mp hstate, hsame, hprevious, rfl, rfl⟩
      | some new =>
        simp only [bind_ok, ensure_ok, decide_eq_true_eq] at h
        obtain ⟨-, hnew, db₁, hinsert, h⟩ := h
        cases h
        exact Or.inr ⟨old, db₁, hold, not_not.mp hstate, hsame, hprevious,
          ⟨hnew.1, hnew.2.1, hnew.2.2, hinsert⟩, rfl⟩

/-- A run is there already, or it is added; deliveries stay. -/
theorem createReportRun_cases {db db' : MemoryDb} {run a : ReportRun}
    (h : createReportRun run db = .ok (a, db')) :
    db' = db ∧ a ∈ db.runs ∨
      db.runAt run.runId = none ∧ a = run ∧ existingBaseRun db run = none ∧
        db' = { db with runs := db.runs ++ [run] } := by
  simp only [createReportRun, bind_ok] at h
  obtain ⟨-, -, h⟩ := h
  split at h
  · rename_i existing hexisting
    cases h
    exact Or.inl ⟨rfl, (runAt_some hexisting).1⟩
  · rename_i hnew
    split at h
    · rename_i existing hexisting
      cases h
      refine Or.inl ⟨rfl, ?_⟩
      rw [existingBaseRun] at hexisting
      split at hexisting
      · cases hexisting
      · split at hexisting
        · exact List.mem_of_find?_eq_some hexisting
        · split at hexisting
          · cases hexisting
          · have hmem := List.mem_of_mem_head? hexisting
            exact List.mem_of_mem_filter ((sortByKey_perm _ _).subset hmem)
    · rename_i hnone
      cases h
      exact Or.inr ⟨hnew, rfl, hnone, rfl⟩

/-- A run keeps its identity. -/
theorem updateReportRun_cases {db db' : MemoryDb} {run : ReportRun} {u : Unit}
    (h : updateReportRun run db = .ok (u, db')) :
    ∃ old, db.runAt run.runId = some old ∧ old.revisionOf = run.revisionOf ∧
      db' = db.setRun run := by
  rw [updateReportRun] at h
  split at h
  · cases h
  · rename_i old hold
    simp only [bind_ok, ensure_ok, decide_eq_true_eq] at h
    obtain ⟨-, hidentity, -, -, -, -, h⟩ := h
    cases h
    exact ⟨old, hold, hidentity.2.2.1, rfl⟩

theorem recoverReportWork_cases {db db' : MemoryDb} {now : Int} {u : Unit}
    (h : recoverReportWork now db = .ok (u, db')) :
    db' = { db with
      runs := db.runs.map (recoverRun now), deliveries := db.deliveries.map (recoverDelivery now) } := by
  simp only [recoverReportWork, bind_ok] at h
  obtain ⟨-, -, h⟩ := h
  cases h
  rfl

end ScreenSearch.Store
