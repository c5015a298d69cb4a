import ScreenSearch.Store.Memory

/-!
# Report rows and their indexed columns

The tables as SQL sees them: each row repeats fields of its payload in columns,
and every statement writes the columns it writes. Queries select by column, reads
take the payload. `tablesOf` lays the records of `Store.Memory` out in rows, and
`Refines` says that a statement does on these rows what another does on the
records.

Main results:

* `rewrite_run`, `rewrite_delivery` — writing the columns of an update rewrites the
  whole row, since what the update leaves out did not change.
-/

namespace ScreenSearch.Store

open Sorting

structure RunRow where
  runId : String
  scheduleId : Option String
  revisionOf : Option String
  windowStart : Int
  windowEnd : Int
  phase : ReportRunPhase
  createdAt : Int
  updatedAt : Int
  payload : ReportRun
  deriving DecidableEq, Repr

structure DeliveryRow where
  id : String
  runId : String
  state : ReportDeliveryState
  nextAttemptAt : Option Int
  payload : ReportDelivery
  deriving DecidableEq, Repr

structure ReportTables where
  runs : List RunRow
  deliveries : List DeliveryRow
  deriving DecidableEq, Repr

def ReportTables.empty : ReportTables where
  runs := []
  deliveries := []

abbrev RowStatement (α : Type) := ReportTables → Except String (α × ReportTables)

/-- The columns of a new run. -/
def RunRow.ofRun (run : ReportRun) : RunRow where
  runId := run.runId
  scheduleId := run.scheduleId
  revisionOf := run.revisionOf
  windowStart := run.windowStart
  windowEnd := run.windowEnd
  phase := run.phase
  createdAt := run.createdAt
  updatedAt := run.updatedAt
  payload := run

def DeliveryRow.ofDelivery (d : ReportDelivery) : DeliveryRow where
  id := d.id
  runId := d.runId
  state := d.state
  nextAttemptAt := d.nextAttemptAt
  payload := d

namespace ReportTables

def runAt (t : ReportTables) (id : String) : Option ReportRun :=
  (t.runs.find? fun row => row.runId == id).map RunRow.payload

def deliveryAt (t : ReportTables) (id : String) : Option ReportDelivery :=
  (t.deliveries.find? fun row => row.id == id).map DeliveryRow.payload

end ReportTables

/-! ## Runs -/

namespace Rows

/-- `UPDATE report_runs SET phase, updated_at, payload`. -/
def writeRun (run : ReportRun) (t : ReportTables) : Except String ReportTables := do
  validateRun run
  pure { t with runs := t.runs.map fun row =>
    if row.runId = run.runId then
      { row with phase := run.phase, updatedAt := run.updatedAt, payload := run }
    else row }

/-- A row the partial unique index holds for the same schedule and window. -/
def sameSchedule (run : ReportRun) (row : RunRow) : Bool :=
  run.scheduleId.isSome && run.revisionOf.isNone && row.scheduleId == run.scheduleId &&
    decide (row.windowStart = run.windowStart) && decide (row.windowEnd = run.windowEnd) &&
    row.revisionOf.isNone

def insertRun (run : ReportRun) (t : ReportTables) : Except String ReportTables := do
  ensure (!t.runs.any fun row => row.runId == run.runId)
    "UNIQUE constraint failed: report_runs.run_id"
  ensure (decide (run.windowStart < run.windowEnd)) "CHECK constraint failed"
  ensure (!t.runs.any (sameSchedule run)) "UNIQUE constraint failed: idx_report_schedule_window"
  pure { t with runs := t.runs ++ [RunRow.ofRun run] }

def existingBaseRun (t : ReportTables) (run : ReportRun) : Option ReportRun :=
  if run.revisionOf.isSome then none
  else
    match run.scheduleId with
    | some schedule =>
      (t.runs.find? fun row => row.scheduleId == some schedule &&
        decide (row.windowStart = run.windowStart) && decide (row.windowEnd = run.windowEnd) &&
        row.revisionOf.isNone).map RunRow.payload
    | none =>
      if run.requestedRange.isSome then none
      else
        (sortByKey (fun row : RunRow => OrderDual.toDual row.createdAt)
          (t.runs.filter fun row => row.scheduleId.isNone && row.revisionOf.isNone &&
            decide (row.windowStart = run.windowStart) &&
            decide (row.windowEnd = run.windowEnd) &&
            decide (row.phase = .queued ∨ row.phase = .running) &&
            row.payload.sourceId == run.sourceId &&
            row.payload.requestedRange.isNone)).head?.map RunRow.payload

def createReportRun (run : ReportRun) : RowStatement ReportRun := fun t => do
  validateRun run
  match t.runAt run.runId with
  | some existing => pure (existing, t)
  | none =>
    match existingBaseRun t run with
    | some existing => pure (existing, t)
    | none =>
      let t ← insertRun run t
      pure (run, t)

def updateReportRun (run : ReportRun) : RowStatement Unit := fun t => do
  match t.runAt run.runId with
  | none => throw "report not found"
  | some old =>
    ensure (decide (old.sourceId = run.sourceId ∧ old.scheduleId = run.scheduleId ∧
        old.revisionOf = run.revisionOf ∧ old.requestedRange = run.requestedRange ∧
        old.windowStart = run.windowStart ∧ old.windowEnd = run.windowEnd ∧
        old.timezone = run.timezone ∧ old.localDate = run.localDate ∧
        old.configSnapshot = run.configSnapshot ∧ old.createdAt = run.createdAt))
      "report identity and configuration are immutable"
    ensure (old.result.isNone || decide (old.result = run.result)) "saved report is immutable"
    let t ← writeRun run t
    pure ((), t)

/-- `UPDATE … WHERE run_id AND phase='queued'`; whether a row was changed. -/
def claimReportRun (id : String) (now : Int) : RowStatement Bool := fun t =>
  match t.runAt id with
  | none => pure (false, t)
  | some run =>
    if run.phase ≠ .queued then pure (false, t)
    else
      let claimed := { run with phase := .running, updatedAt := now }
      pure (decide (t.runs.countP (fun row =>
          row.runId == claimed.runId && decide (row.phase = .queued)) = 1),
        { t with runs := t.runs.map fun row =>
          if row.runId = claimed.runId ∧ row.phase = .queued then
            { row with phase := .running, updatedAt := claimed.updatedAt, payload := claimed }
          else row })

/-! ## Deliveries -/

def insertDelivery (d : ReportDelivery) (t : ReportTables) : Except String ReportTables := do
  ensure (!d.id.isEmpty) "missing delivery identity"
  ensure (t.runs.any fun row => row.runId == d.runId) "FOREIGN KEY constraint failed"
  ensure (!t.deliveries.any fun row => row.id == d.id)
    "UNIQUE constraint failed: report_deliveries.id"
  pure { t with deliveries := t.deliveries ++ [DeliveryRow.ofDelivery d] }

/-- `UPDATE report_deliveries SET state, next_attempt_at, payload`. -/
def writeDelivery (d : ReportDelivery) (t : ReportTables) : ReportTables :=
  { t with deliveries := t.deliveries.map fun row =>
    if row.id = d.id then
      { row with state := d.state, nextAttemptAt := d.nextAttemptAt, payload := d }
    else row }

def createReportDelivery (d : ReportDelivery) : RowStatement ReportDelivery := fun t => do
  match t.deliveryAt d.id with
  | some old =>
    checkDeliveryIdentity old d
    pure (old, t)
  | none =>
    let t ← insertDelivery d t
    pure (d, t)

def createReportDeliveries : List ReportDelivery → RowStatement (List ReportDelivery)
  | [], t => pure ([], t)
  | d :: deliveries, t => do
    let (first, t) ← createReportDelivery d t
    let (others, t) ← createReportDeliveries deliveries t
    pure (first :: others, t)

/-- `UPDATE … WHERE id AND state`; whether a row was changed. -/
def updateReportDelivery (d : ReportDelivery) (expected : ReportDeliveryState) :
    RowStatement Bool := fun t => do
  match t.deliveryAt d.id with
  | none => pure (false, t)
  | some old =>
    checkDeliveryIdentity old d
    if old.state ≠ expected then pure (false, t)
    else
      ensure (decide (old.state ≠ .succeeded ∧ old.state ≠ .skipped ∧ old.state ≠ .reviewed))
        "terminal delivery is immutable"
      ensure (decide (old.state ≠ .unknownDelivery))
        "unknown delivery requires explicit resolution"
      pure (decide (t.deliveries.countP (fun row =>
          row.id == d.id && decide (row.state = expected)) = 1),
        { t with deliveries := t.deliveries.map fun row =>
          if row.id = d.id ∧ row.state = expected then
            { row with state := d.state, nextAttemptAt := d.nextAttemptAt, payload := d }
          else row })

def resolveReportDelivery (previous : ReportDelivery) (replacement : Option ReportDelivery) :
    RowStatement Bool := fun t => do
  match t.deliveryAt previous.id with
  | none => pure (false, t)
  | some old =>
    if old.state ≠ .unknownDelivery then pure (false, t)
    else
      checkDeliveryIdentity old previous
      ensure (decide (previous.state = .reviewed ∧ previous.messageId = old.messageId ∧
        previous.error = old.error)) "resolution must preserve uncertainty and receipts"
      match replacement with
      | some new =>
        ensure (decide (new.revisionOf = some old.id ∧ new.runId = old.runId ∧
          new.state = .pending)) "invalid linked resend"
        let t ← insertDelivery new t
        pure (true, writeDelivery previous t)
      | none => pure (true, writeDelivery previous t)

/-! ## Pending work, recovery and retention -/

def receipted (t : ReportTables) (runId : String) (destination : ReportDestination) : Bool :=
  t.deliveries.any fun row => row.runId == runId &&
    decide (row.payload.destination = destination)

def unsettled (row : DeliveryRow) : Bool :=
  decide (row.state = .pending ∨ row.state = .sending ∨ row.state = .unknownDelivery ∨
    row.state = .conflict) || (decide (row.state = .failed) && row.nextAttemptAt.isSome)

def pendingRow (t : ReportTables) (row : RunRow) : Bool :=
  decide (row.phase = .queued ∨ row.phase = .running ∨ row.phase = .blocked) ||
    (t.deliveries.any fun d => d.runId == row.runId && unsettled d) ||
    (decide (row.phase = .finished) && row.payload.result.isSome &&
      (!receipted t row.runId .vault || !receipted t row.runId .index ||
        !receipted t row.runId .telegram))

def listPendingReportRuns : RowStatement (List ReportRun) := fun t =>
  pure ((sortByKey (fun row : RunRow => toLex (row.createdAt, row.runId))
    (t.runs.filter (pendingRow t))).map RunRow.payload, t)

def requeueRun (now : Int) (t : ReportTables) (id : String) : Except String ReportTables :=
  match t.runAt id with
  | none => throw "report disappeared"
  | some run => writeRun (requeued now run) t

def interruptOne (now : Int) (t : ReportTables) (id : String) : Except String ReportTables :=
  match t.deliveryAt id with
  | none => throw "delivery disappeared"
  | some d => pure (writeDelivery (interrupted now d) t)

def recoverReportWork (now : Int) : RowStatement Unit := fun t => do
  let t ← ((t.runs.filter fun row => row.phase = .running).map RunRow.runId).foldlM
    (requeueRun now) t
  let t ← ((t.deliveries.filter fun row => row.state = .sending).map DeliveryRow.id).foldlM
    (interruptOne now) t
  pure ((), t)

def prunable (t : ReportTables) (before : Int) (row : RunRow) : Bool :=
  decide (row.phase = .finished) && decide (row.updatedAt < before) &&
    !(t.runs.any fun child => child.revisionOf == some row.runId) &&
    (row.payload.result.isNone ||
      (receipted t row.runId .vault && receipted t row.runId .index &&
        receipted t row.runId .telegram)) &&
    !(t.deliveries.any fun d => d.runId == row.runId && unsettled d)

def pruneOne (before : Int) (t : ReportTables) (runId : String) : ReportTables :=
  match t.runs.find? fun row => row.runId == runId with
  | some row =>
    if prunable t before row then
      { runs := t.runs.filter fun other => other.runId != runId
        deliveries := t.deliveries.filter fun d => d.runId != runId }
    else t
  | none => t

def pruneReportRuns (visit : List String) (before : Int) : RowStatement Unit := fun t =>
  pure ((), visit.foldl (pruneOne before) t)

end Rows

/-! ## Records laid out in rows -/

def tablesOf (db : MemoryDb) : ReportTables where
  runs := db.runs.map RunRow.ofRun
  deliveries := db.deliveries.map DeliveryRow.ofDelivery

/-- Primary keys. -/
structure MemoryDb.WellFormed (db : MemoryDb) : Prop where
  runs : (db.runs.map ReportRun.runId).Nodup
  deliveries : (db.deliveries.map ReportDelivery.id).Nodup

/-- What the statement does on rows, the other one does on the records. -/
def Refines {α : Type} (row : RowStatement α) (op : MemoryStatement α) : Prop :=
  ∀ db a t, db.WellFormed → row (tablesOf db) = .ok (a, t) →
    ∃ db', op db = .ok (a, db') ∧ t = tablesOf db' ∧ db'.WellFormed

theorem tablesOf_runAt (db : MemoryDb) (id : String) : (tablesOf db).runAt id = db.runAt id := by
  unfold ReportTables.runAt tablesOf MemoryDb.runAt
  rw [List.find?_map, Option.map_map]
  show Option.map _ (db.runs.find? fun run => run.runId == id) = _
  cases db.runs.find? fun run => run.runId == id <;> rfl

theorem tablesOf_deliveryAt (db : MemoryDb) (id : String) :
    (tablesOf db).deliveryAt id = db.deliveryAt id := by
  unfold ReportTables.deliveryAt tablesOf MemoryDb.deliveryAt
  rw [List.find?_map, Option.map_map]
  show Option.map _ (db.deliveries.find? fun d => d.id == id) = _
  cases db.deliveries.find? fun d => d.id == id <;> rfl

theorem MemoryDb.WellFormed.run_unique {db : MemoryDb} (h : db.WellFormed) {old run : ReportRun}
    (hold : db.runAt run.runId = some old) {other : ReportRun} (hother : other ∈ db.runs)
    (hid : other.runId = run.runId) : other = old := by
  obtain ⟨hin, hrun⟩ := runAt_some hold
  exact List.inj_on_of_nodup_map h.runs hother hin (by rw [hid, hrun])

theorem MemoryDb.WellFormed.delivery_unique {db : MemoryDb} (h : db.WellFormed)
    {old d : ReportDelivery} (hold : db.deliveryAt d.id = some old) {other : ReportDelivery}
    (hother : other ∈ db.deliveries) (hid : other.id = d.id) : other = old := by
  obtain ⟨hin, hd⟩ := deliveryAt_some hold
  exact List.inj_on_of_nodup_map h.deliveries hother hin (by rw [hid, hd])

theorem MemoryDb.WellFormed.setRun {db : MemoryDb} (h : db.WellFormed) (run : ReportRun) :
    (db.setRun run).WellFormed := by
  refine ⟨?_, h.deliveries⟩
  have hids : (db.setRun run).runs.map ReportRun.runId = db.runs.map ReportRun.runId := by
    unfold MemoryDb.setRun
    rw [List.map_map]
    refine List.map_congr_left fun old _ => ?_
    show (if old.runId = run.runId then run else old).runId = old.runId
    split
    · rename_i hid
      exact hid.symm
    · rfl
  rw [hids]
  exact h.runs

theorem MemoryDb.WellFormed.setDelivery {db : MemoryDb} (h : db.WellFormed) (d : ReportDelivery) :
    (db.setDelivery d).WellFormed := by
  refine ⟨h.runs, ?_⟩
  have hids : (db.setDelivery d).deliveries.map ReportDelivery.id =
      db.deliveries.map ReportDelivery.id := by
    unfold MemoryDb.setDelivery
    rw [List.map_map]
    refine List.map_congr_left fun old _ => ?_
    show (if old.id = d.id then d else old).id = old.id
    split
    · rename_i hid
      exact hid.symm
    · rfl
  rw [hids]
  exact h.deliveries

theorem MemoryDb.WellFormed.addRun {db : MemoryDb} (h : db.WellFormed) {run : ReportRun}
    (hnew : db.runAt run.runId = none) :
    MemoryDb.WellFormed { db with runs := db.runs ++ [run] } := by
  refine ⟨?_, h.deliveries⟩
  show ((db.runs ++ [run]).map ReportRun.runId).Nodup
  rw [List.map_append, List.map_singleton]
  exact List.nodup_append.mpr ⟨h.runs, List.nodup_singleton _, fun a ha b hb hab =>
    runAt_none hnew (by rwa [← List.mem_singleton.mp hb, ← hab])⟩

theorem MemoryDb.WellFormed.addDelivery {db : MemoryDb} (h : db.WellFormed) {d : ReportDelivery}
    (hnew : db.deliveryAt d.id = none) :
    MemoryDb.WellFormed { db with deliveries := db.deliveries ++ [d] } := by
  refine ⟨h.runs, ?_⟩
  show ((db.deliveries ++ [d]).map ReportDelivery.id).Nodup
  rw [List.map_append, List.map_singleton]
  exact List.nodup_append.mpr ⟨h.deliveries, List.nodup_singleton _, fun a ha b hb hab =>
    deliveryAt_none hnew (by rwa [← List.mem_singleton.mp hb, ← hab])⟩

/-- The columns an update of a run leaves out are fields it does not change. -/
def SameRunColumns (old new : ReportRun) : Prop :=
  old.scheduleId = new.scheduleId ∧ old.revisionOf = new.revisionOf ∧
    old.windowStart = new.windowStart ∧ old.windowEnd = new.windowEnd ∧
    old.createdAt = new.createdAt

/-- Rewriting the row of a run. -/
theorem rewrite_run {db : MemoryDb} (h : db.WellFormed) {old run : ReportRun}
    (hold : db.runAt run.runId = some old) (hsame : SameRunColumns old run) :
    ((tablesOf db).runs.map fun row =>
      if row.runId = run.runId then
        { row with phase := run.phase, updatedAt := run.updatedAt, payload := run }
      else row) = (tablesOf (db.setRun run)).runs := by
  unfold tablesOf MemoryDb.setRun
  rw [List.map_map, List.map_map]
  refine List.map_congr_left fun other hother => ?_
  show (if other.runId = run.runId then _ else _) = RunRow.ofRun (if _ then _ else _)
  by_cases hid : other.runId = run.runId
  · obtain rfl := h.run_unique hold hother hid
    obtain ⟨hschedule, hrevision, hstart, hend, hcreated⟩ := hsame
    rw [if_pos hid, if_pos hid]
    simp only [RunRow.ofRun, hid, hschedule, hrevision, hstart, hend, hcreated]
  · rw [if_neg hid, if_neg hid]

/-- A guard on the phase that was read changes nothing. -/
theorem rewrite_run_inPhase {db : MemoryDb} (h : db.WellFormed) {old run : ReportRun}
    (hold : db.runAt run.runId = some old) (hsame : SameRunColumns old run) :
    ((tablesOf db).runs.map fun row =>
      if row.runId = run.runId ∧ row.phase = old.phase then
        { row with phase := run.phase, updatedAt := run.updatedAt, payload := run }
      else row) = (tablesOf (db.setRun run)).runs := by
  rw [← rewrite_run h hold hsame]
  unfold tablesOf
  rw [List.map_map, List.map_map]
  refine List.map_congr_left fun other hother => ?_
  show (if other.runId = run.runId ∧ other.phase = old.phase then _ else _) =
    if other.runId = run.runId then _ else _
  by_cases hid : other.runId = run.runId
  · obtain rfl := h.run_unique hold hother hid
    rw [if_pos ⟨hid, rfl⟩, if_pos hid]
  · rw [if_neg fun h => hid h.1, if_neg hid]

/-- Rewriting the row of a delivery. -/
theorem rewrite_delivery {db : MemoryDb} (h : db.WellFormed) {old d : ReportDelivery}
    (hold : db.deliveryAt d.id = some old) (hrun : old.runId = d.runId) :
    Rows.writeDelivery d (tablesOf db) = tablesOf (db.setDelivery d) := by
  unfold Rows.writeDelivery tablesOf MemoryDb.setDelivery
  simp only [List.map_map, ReportTables.mk.injEq, true_and]
  refine List.map_congr_left fun other hother => ?_
  show (if other.id = d.id then _ else _) = DeliveryRow.ofDelivery (if _ then _ else _)
  by_cases hid : other.id = d.id
  · obtain rfl := h.delivery_unique hold hother hid
    rw [if_pos hid, if_pos hid]
    simp only [DeliveryRow.ofDelivery, hid, hrun]
  · rw [if_neg hid, if_neg hid]

/-- A guard on the state that was read changes nothing. -/
theorem rewrite_delivery_inState {db : MemoryDb} (h : db.WellFormed) {old d : ReportDelivery}
    (hold : db.deliveryAt d.id = some old) (hrun : old.runId = d.runId) :
    ((tablesOf db).deliveries.map fun row =>
      if row.id = d.id ∧ row.state = old.state then
        { row with state := d.state, nextAttemptAt := d.nextAttemptAt, payload := d }
      else row) = (tablesOf (db.setDelivery d)).deliveries := by
  rw [← rewrite_delivery h hold hrun]
  unfold Rows.writeDelivery tablesOf
  rw [List.map_map, List.map_map]
  refine List.map_congr_left fun other hother => ?_
  show (if other.id = d.id ∧ other.state = old.state then _ else _) =
    if other.id = d.id then _ else _
  by_cases hid : other.id = d.id
  · obtain rfl := h.delivery_unique hold hother hid
    rw [if_pos ⟨hid, rfl⟩, if_pos hid]
  · rw [if_neg fun h => hid h.1, if_neg hid]

end ScreenSearch.Store
