import ScreenSearch.Store.HistoryAllocator
import ScreenSearch.Store.Schema

/-!
# Opening a database file

Any number of connections open one file, each a statement at a time, and any of them may stop
between two statements. The version is read once, before the transactions that advance it; the
check for broken references runs after the last of them, and only where there were any.

Main results:

* `step_inv` — one statement of one connection, where no migration repeats one;
* `opens` — from there a connection that is left alone opens the file;
* `opens_soundly` — so over any run the migrations apply once, in order, and opening is sound.
-/

namespace ScreenSearch.Store

open Ddl

/-- The file: the rows of `schema_version`, where there is such a table, and the rest. -/
structure StoreFile where
  schemaVersion : Option (List Nat)
  db : Database

/-- `SELECT version FROM schema_version`, read as one row; zero where there is none. -/
def StoreFile.version (file : StoreFile) : Nat := (file.schemaVersion.getD []).headD 0

/-- The statement that a connection comes to next. -/
inductive OpenPhase where
  | closed
  /-- `CREATE TABLE IF NOT EXISTS schema_version`. -/
  | creating
  | counting
  | seeding (rows : Nat)
  | reading
  /-- `PRAGMA foreign_keys=OFF`, for there are migrations pending. -/
  | disabling (current : Nat)
  /-- The first migration above `current`, with the update of the version. -/
  | migrating (current : Nat)
  | checking
  /-- `PRAGMA foreign_keys=ON`. -/
  | enabling
  /-- `setup_history_metadata`. -/
  | settling
  | opened
  | failed (error : String)
  deriving DecidableEq, Repr

structure OpenConnection where
  phase : OpenPhase
  foreignKeys : Bool
  deriving DecidableEq, Repr

structure OpenState where
  file : StoreFile
  connections : Nat → OpenConnection
  /-- The migrations that were committed, in order. -/
  applied : List Nat

inductive OpenEvent where
  | start (i : Nat)
  /-- The next statement of `i` runs; `uuid` is the text that SQLite's random numbers make. -/
  | advance (i : Nat) (uuid : String)
  /-- The next statement of `i` fails by itself, or its process ends. -/
  | stop (i : Nat)
  deriving DecidableEq, Repr

/-! ## Statements -/

/-- One migration in its own transaction, and the version with it. -/
def applyMigration (version : Nat) (script : List Statement) (file : StoreFile) :
    Except String StoreFile :=
  match file.schemaVersion with
  | none => .error "no such table: schema_version"
  | some versions =>
    match runAll script file.db with
    | .ok db => .ok ⟨some (versions.map fun _ => version), db⟩
    | .error e => .error e

def settingRow (key value : String) : Row := fun column =>
  if column = "key" then .text key else if column = "value" then .text value else .null

/-- `COALESCE(MAX(id),0) FROM frames`, at least zero. -/
def maxFrameId (frames : List Row) : Int :=
  (frames.map fun row => match row "id" with | .integer n => n | _ => 0).foldl max 0

/-- Identity and allocator, unless one of them is there. -/
def setupHistoryRows (uuid : String) (db : Database) : Database :=
  let settings := db.rows "settings"
  if settings.any (fun row => row "key" = .text historyIdKey || row "key" = .text frameIdHighWaterKey)
  then db
  else
    { db with
      rows := Function.update db.rows "settings" (settings ++
        [settingRow historyIdKey uuid,
          settingRow frameIdHighWaterKey (toString (maxFrameId (db.rows "frames")))]) }

/-- The next statement of a connection, on the file. -/
def OpenConnection.advance (uuid : String) (file : StoreFile) (c : OpenConnection) :
    OpenConnection × StoreFile :=
  match c.phase with
  | .closed | .opened | .failed _ => (c, file)
  | .creating =>
    ({ c with phase := .counting }, { file with schemaVersion := some (file.schemaVersion.getD []) })
  | .counting =>
    match file.schemaVersion with
    | none => ({ c with phase := .failed "no such table: schema_version" }, file)
    | some versions => ({ c with phase := .seeding versions.length }, file)
  | .seeding rows =>
    ({ c with phase := .reading },
      if rows = 0 then { file with schemaVersion := file.schemaVersion.map fun vs => vs ++ [0] }
      else file)
  | .reading =>
    match file.schemaVersion.bind List.head? with
    | none => ({ c with phase := .failed "query returned no rows" }, file)
    | some current =>
      if current > latestSchemaVersion then
        ({ c with phase := .failed "database has newer schema_version" }, file)
      else if current < latestSchemaVersion then ({ c with phase := .disabling current }, file)
      else ({ c with phase := .settling }, file)
  | .disabling current => ({ phase := .migrating current, foreignKeys := false }, file)
  | .migrating current =>
    match MIGRATIONS.find? fun m => m.1 > current with
    | none => ({ c with phase := .checking }, file)
    | some (version, script) =>
      match applyMigration version script file with
      | .ok file' => ({ c with phase := .migrating version }, file')
      | .error e => ({ c with phase := .failed e }, file)
  | .checking =>
    if Sound file.db then ({ c with phase := .enabling }, file)
    else
      ({ c with phase := .failed "post-migration foreign_key_check found integrity violations" },
        file)
  | .enabling => ({ phase := .settling, foreignKeys := true }, file)
  | .settling =>
    ({ c with phase := .opened }, { file with db := setupHistoryRows uuid file.db })

/-- The migration that the next statement commits, if it is one. -/
def OpenConnection.commits (file : StoreFile) (c : OpenConnection) : Option Nat :=
  match c.phase with
  | .migrating current =>
    match MIGRATIONS.find? fun m => m.1 > current with
    | none => none
    | some (version, script) =>
      if (applyMigration version script file).isOk then some version else none
  | _ => none

namespace OpenState

def set (s : OpenState) (i : Nat) (c : OpenConnection) : OpenState :=
  { s with connections := Function.update s.connections i c }

def step (s : OpenState) : OpenEvent → OpenState
  | .start i =>
    if (s.connections i).phase = .closed then s.set i ⟨.creating, true⟩ else s
  | .advance i uuid =>
    let c := s.connections i
    { s.set i (c.advance uuid s.file).1 with
      file := (c.advance uuid s.file).2
      applied := s.applied ++ (c.commits s.file).toList }
  | .stop i =>
    if (s.connections i).phase = .closed then s
    else s.set i { s.connections i with phase := .failed "stopped" }

def run (s : OpenState) (events : List OpenEvent) : OpenState := events.foldl step s

/-- Nobody has the file open, and it is at the version. -/
def begin (version : Nat) (file : StoreFile) : OpenState where
  file := file
  connections := fun _ => ⟨.closed, true⟩
  applied := List.range' 1 version

end OpenState

/-- The migrations up to `version` are applied, and the version says so; a file without
migrations need not say anything. -/
structure FileAt (version : Nat) (file : StoreFile) : Prop where
  latest : version ≤ latestSchemaVersion
  schema : file.db.schema = schemaAt version
  recorded : file.schemaVersion.bind List.head? = some version ∨
    version = 0 ∧ file.schemaVersion.bind List.head? = none

/-- No migration that a schema takes again meets one that has it. -/
def OpenEvent.Unrepeated (s : OpenState) : OpenEvent → Prop
  | .advance i _ =>
    match (s.connections i).phase with
    | .migrating current => repeatable (current + 1) = true → s.file.version ≤ current
    | _ => True
  | .start _ | .stop _ => True

instance (s : OpenState) (e : OpenEvent) : Decidable (e.Unrepeated s) := by
  unfold OpenEvent.Unrepeated
  split
  · split <;> infer_instance
  · infer_instance
  · infer_instance

namespace OpenState

/-- Every step of the run is one that repeats no migration. -/
def Unrepeated (s : OpenState) : List OpenEvent → Prop
  | [] => True
  | e :: rest => e.Unrepeated s ∧ Unrepeated (s.step e) rest

instance decidableUnrepeated : (s : OpenState) → (events : List OpenEvent) →
    Decidable (s.Unrepeated events)
  | _, [] => inferInstanceAs (Decidable True)
  | s, e :: rest =>
    have := decidableUnrepeated (s.step e) rest
    inferInstanceAs (Decidable (e.Unrepeated s ∧ Unrepeated (s.step e) rest))

end OpenState

/-! ## Invariant -/

def StoreFile.Recorded (file : StoreFile) : Prop :=
  file.schemaVersion.bind List.head? = some file.version

/-- What a connection knows of the file by the statement it comes to, where `v` was the version
before anybody opened it. -/
def OpenConnection.Ok (v : Nat) (file : StoreFile) (c : OpenConnection) : Prop :=
  match c.phase with
  | .closed | .failed _ => True
  | .creating => c.foreignKeys = true
  | .counting => c.foreignKeys = true ∧ file.schemaVersion.isSome
  | .seeding rows => c.foreignKeys = true ∧ file.schemaVersion.isSome ∧ (rows ≠ 0 → file.Recorded)
  | .reading => c.foreignKeys = true ∧ file.Recorded
  | .disabling current | .migrating current =>
    v < latestSchemaVersion ∧ file.Recorded ∧ current ≤ file.version
  | .checking | .enabling => v < latestSchemaVersion ∧ file.version = latestSchemaVersion
  | .settling | .opened => c.foreignKeys = true ∧ file.version = latestSchemaVersion

structure OpenState.Inv (v : Nat) (s : OpenState) : Prop where
  file : FileAt s.file.version s.file
  applied : s.applied = List.range' 1 s.file.version
  grows : v ≤ s.file.version
  whole : v < latestSchemaVersion → Whole s.file.version s.file.db
  connections : ∀ i, (s.connections i).Ok v s.file

/-- A statement takes nothing of the record back. -/
structure StoreFile.Grows (file file' : StoreFile) : Prop where
  version : file.version ≤ file'.version
  created : file.schemaVersion.isSome → file'.schemaVersion.isSome
  recorded : file.Recorded → file'.Recorded

variable {v : Nat} {file file' : StoreFile} {c : OpenConnection} {s : OpenState}

theorem StoreFile.Grows.refl (file : StoreFile) : file.Grows file := ⟨le_rfl, id, id⟩

theorem OpenConnection.Ok.mono (h : c.Ok v file) (hGrows : file.Grows file')
    (hLatest : file'.version ≤ latestSchemaVersion) : c.Ok v file' := by
  have hVersion := hGrows.version
  unfold OpenConnection.Ok at h ⊢
  split at h <;> simp_all only
  · exact ⟨trivial, hGrows.created h.2⟩
  · exact ⟨trivial, hGrows.created h.2.1, fun hRows => hGrows.recorded (h.2.2 hRows)⟩
  · exact ⟨trivial, hGrows.recorded h.2⟩
  · exact ⟨trivial, hGrows.recorded h.2.1, h.2.2.trans hVersion⟩
  · exact ⟨trivial, hGrows.recorded h.2.1, h.2.2.trans hVersion⟩
  all_goals exact ⟨trivial, le_antisymm hLatest (h.2 ▸ hVersion)⟩

/-! ## One statement -/

theorem version_of_head {n : Nat} (h : file.schemaVersion.bind List.head? = some n) :
    file.version = n := by
  obtain ⟨versions, hVersions, hHead⟩ := Option.bind_eq_some_iff.mp h
  unfold StoreFile.version
  rw [hVersions, Option.getD_some, List.headD_eq_head?_getD, hHead, Option.getD_some]

theorem version_of_none (h : file.schemaVersion.bind List.head? = none) : file.version = 0 := by
  unfold StoreFile.version
  rw [List.headD_eq_head?_getD]
  rcases hVersions : file.schemaVersion with _ | versions
  · rfl
  · rw [hVersions] at h
    rw [Option.getD_some, show versions.head? = none from h, Option.getD_none]

theorem FileAt.version_eq {n : Nat} (h : FileAt n file) : file.version = n := by
  rcases h.recorded with hHead | ⟨rfl, hNone⟩
  · exact version_of_head hHead
  · exact version_of_none hNone

/-- What one statement of one connection keeps. -/
structure Advances (v : Nat) (file : StoreFile) (c : OpenConnection) (uuid : String) : Prop where
  keeps : FileAt (c.advance uuid file).2.version (c.advance uuid file).2
  grows : file.Grows (c.advance uuid file).2
  whole : v < latestSchemaVersion → Whole (c.advance uuid file).2.version (c.advance uuid file).2.db
  ok : (c.advance uuid file).1.Ok v (c.advance uuid file).2
  commits : List.range' 1 file.version ++ (c.commits file).toList =
    List.range' 1 (c.advance uuid file).2.version

/-- The statement leaves the file alone. -/
theorem advances_same {uuid : String} (hFile : FileAt file.version file)
    (hWhole : v < latestSchemaVersion → Whole file.version file.db)
    (hSame : (c.advance uuid file).2 = file) (hOk : (c.advance uuid file).1.Ok v file)
    (hCommits : c.commits file = none) : Advances v file c uuid := by
  constructor
  · rwa [hSame]
  · rw [hSame]
    exact .refl file
  · rwa [hSame]
  · rwa [hSame]
  · rw [hSame, hCommits]
    exact List.append_nil _

/-- The table is there, and seeded if it was empty. -/
theorem record_grows {versions : Option (List Nat)} (hFile : FileAt file.version file)
    (hHead : versions.bind List.head? = file.schemaVersion.bind List.head? ∨
      file.schemaVersion.bind List.head? = none ∧ versions.bind List.head? = some 0)
    (hCreated : versions.isSome) :
    FileAt file.version { file with schemaVersion := versions } ∧
      file.Grows { file with schemaVersion := versions } := by
  have hRecorded : versions.bind List.head? = some file.version ∨
      file.version = 0 ∧ versions.bind List.head? = none := by
    rcases hHead with hHead | ⟨hNone, hZero⟩
    · rw [hHead]
      exact hFile.recorded
    · rw [version_of_none hNone]
      exact .inl hZero
  have hAt : FileAt file.version { file with schemaVersion := versions } :=
    ⟨hFile.latest, hFile.schema, hRecorded⟩
  refine ⟨hAt, hAt.version_eq.ge, fun _ => hCreated, fun hOld => ?_⟩
  unfold StoreFile.Recorded at hOld ⊢
  rw [hAt.version_eq]
  rcases hHead with hHead | ⟨hNone, -⟩
  · exact hHead.trans hOld
  · rw [hNone] at hOld
    cases hOld

/-- The first migration above what the connection read is the next one, and it either takes the
schema on or fails; one that the schema takes again is not behind it. -/
theorem migrating_advances {uuid : String} {current : Nat} (hPhase : c.phase = .migrating current)
    (hFile : FileAt file.version file) (hPending : v < latestSchemaVersion)
    (hWhole : v < latestSchemaVersion → Whole file.version file.db) (hRecorded : file.Recorded)
    (hCurrent : current ≤ file.version)
    (hOnce : repeatable (current + 1) = true → file.version ≤ current) :
    Advances v file c uuid := by
  have hAdvance : c.advance uuid file = match MIGRATIONS.find? fun m => m.1 > current with
      | none => ({ c with phase := .checking }, file)
      | some (version, script) =>
        match applyMigration version script file with
        | .ok file' => ({ c with phase := .migrating version }, file')
        | .error e => ({ c with phase := .failed e }, file) := by
    unfold OpenConnection.advance
    rw [hPhase]
  have hCommits : c.commits file = match MIGRATIONS.find? fun m => m.1 > current with
      | none => none
      | some (version, script) =>
        if (applyMigration version script file).isOk then some version else none := by
    unfold OpenConnection.commits
    rw [hPhase]
  rcases Nat.lt_or_ge current 12 with hMore | hAll
  · rw [find_migration current hMore] at hAdvance hCommits
    dsimp only at hAdvance hCommits
    obtain ⟨versions, hVersions, hHead⟩ := Option.bind_eq_some_iff.mp hRecorded
    by_cases hNext : file.version ≤ current
    · -- nothing has happened since the version was read
      obtain rfl : current = file.version := le_antisymm hCurrent hNext
      have hRun := runAll_of_schema (hFile.schema ▸ migration_applies file.version hMore)
      have hApply : applyMigration (file.version + 1) (migration (file.version + 1)) file =
          .ok ⟨some (versions.map fun _ => file.version + 1),
            ⟨schemaAt (file.version + 1), runRows (migration (file.version + 1)) file.db.rows⟩⟩ := by
        unfold applyMigration
        rw [hVersions, hRun]
      rw [hApply] at hAdvance hCommits
      have hNewHead : (versions.map fun _ => file.version + 1).head? = some (file.version + 1) := by
        rw [List.head?_map, hHead, Option.map_some]
      have hVersion : (c.advance uuid file).2.version = file.version + 1 := by
        rw [hAdvance]
        exact version_of_head hNewHead
      constructor
      · rw [hVersion, hAdvance]
        exact ⟨hMore, rfl, .inl hNewHead⟩
      · refine ⟨hVersion ▸ Nat.le_succ _, fun _ => ?_, fun _ => ?_⟩
        · rw [hAdvance]
          rfl
        · unfold StoreFile.Recorded
          rw [hVersion, hAdvance]
          exact hNewHead
      · intro _
        rw [hVersion, hAdvance]
        exact migration_whole hFile.schema hMore (hWhole hPending)
      · rw [hAdvance]
        rw [hAdvance] at hVersion
        exact ⟨hPending, hNewHead.trans (congrArg some hVersion.symm), hVersion.ge⟩
      · rw [hVersion, hCommits, List.range'_1_concat, Nat.add_comm 1]
        rfl
    · -- another connection has applied it: the transaction fails
      have hStale := stale_migration_fails file.version (Nat.lt_succ_of_le hFile.latest) current
        (Nat.lt_of_not_le hNext) (by rw [← Bool.not_eq_true]; exact fun h => hNext (hOnce h))
      obtain ⟨e, hApply⟩ : ∃ e, applyMigration (current + 1) (migration (current + 1)) file =
          .error e := by
        rcases hRun : runSchema (migration (current + 1)) (schemaAt file.version) with e | schema
        · refine ⟨e, ?_⟩
          unfold applyMigration
          rw [hVersions, runAll_of_error (hFile.schema ▸ hRun)]
        · rw [hRun] at hStale
          cases hStale
      rw [hApply] at hAdvance hCommits
      refine advances_same hFile hWhole (by rw [hAdvance]) ?_ hCommits
      rw [hAdvance]
      trivial
  · obtain rfl : current = 12 := le_antisymm (hCurrent.trans hFile.latest) hAll
    rw [find_migration_latest] at hAdvance hCommits
    refine advances_same hFile hWhole (by rw [hAdvance]) ?_ hCommits
    rw [hAdvance]
    exact ⟨hPending, le_antisymm hFile.latest hCurrent⟩

/-- The settings are nobody's parent and refer to nothing. -/
theorem settle_whole {uuid : String} {db : Database}
    (hSchema : db.schema = schemaAt latestSchemaVersion) (h : Whole latestSchemaVersion db) :
    Whole latestSchemaVersion (setupHistoryRows uuid db) := by
  have hApart : ∀ t ∈ (schemaAt latestSchemaVersion).tables, ∀ fk ∈ t.foreignKeys,
      t.name ≠ "settings" ∧ fk.parent ≠ "settings" := by
    decide +kernel
  unfold setupHistoryRows
  dsimp only
  split
  · exact h
  · intro t ht fk hfk row hRow hKeep
    obtain ⟨hName, hParent⟩ := hApart t (hSchema ▸ ht) fk hfk
    unfold Refers
    dsimp only at hRow ⊢
    rw [Function.update_of_ne hName] at hRow
    rw [Function.update_of_ne hParent]
    exact h t ht fk hfk row hRow hKeep

theorem setup_schema (uuid : String) (db : Database) :
    (setupHistoryRows uuid db).schema = db.schema := by
  unfold setupHistoryRows
  dsimp only
  split <;> rfl

theorem settling_advances {uuid : String} (hPhase : c.phase = .settling)
    (hFile : FileAt file.version file)
    (hWhole : v < latestSchemaVersion → Whole file.version file.db)
    (hForeignKeys : c.foreignKeys = true) (hVersion : file.version = latestSchemaVersion) :
    Advances v file c uuid := by
  have hAdvance : c.advance uuid file = ({ c with phase := .opened },
      { file with db := setupHistoryRows uuid file.db }) := by
    unfold OpenConnection.advance
    rw [hPhase]
  have hCommits : c.commits file = none := by
    unfold OpenConnection.commits
    rw [hPhase]
  have hSame : (c.advance uuid file).2.version = file.version := by
    rw [hAdvance]
    rfl
  constructor
  · rw [hSame, hAdvance]
    exact ⟨hFile.latest, (setup_schema uuid file.db).trans hFile.schema, hFile.recorded⟩
  · rw [hAdvance]
    exact ⟨le_rfl, id, id⟩
  · intro hPending
    rw [hSame, hAdvance, hVersion]
    exact settle_whole (hVersion ▸ hFile.schema) (hVersion ▸ hWhole hPending)
  · rw [hAdvance]
    exact ⟨hForeignKeys, hVersion⟩
  · rw [hSame, hCommits]
    exact List.append_nil _

theorem recording_advances {uuid : String} {versions : Option (List Nat)}
    (hAdvance : (c.advance uuid file).2 = { file with schemaVersion := versions })
    (hFile : FileAt file.version file)
    (hWhole : v < latestSchemaVersion → Whole file.version file.db)
    (hHead : versions.bind List.head? = file.schemaVersion.bind List.head? ∨
      file.schemaVersion.bind List.head? = none ∧ versions.bind List.head? = some 0)
    (hCreated : versions.isSome)
    (hOk : FileAt file.version { file with schemaVersion := versions } →
      (c.advance uuid file).1.Ok v { file with schemaVersion := versions })
    (hCommits : c.commits file = none) : Advances v file c uuid := by
  obtain ⟨hAt, hGrows⟩ := record_grows hFile hHead hCreated
  have hSame : (c.advance uuid file).2.version = file.version := by
    rw [hAdvance]
    exact hAt.version_eq
  constructor
  · rw [hSame, hAdvance]
    exact hAt
  · rw [hAdvance]
    exact hGrows
  · rw [hSame, hAdvance]
    exact hWhole
  · rw [hAdvance]
    exact hOk hAt
  · rw [hSame, hCommits]
    exact List.append_nil _

theorem advance_advances (uuid : String) (hFile : FileAt file.version file)
    (hWhole : v < latestSchemaVersion → Whole file.version file.db)
    (hGrows : v ≤ file.version) (hOk : c.Ok v file)
    (hOnce : ∀ current, c.phase = .migrating current → repeatable (current + 1) = true →
      file.version ≤ current) : Advances v file c uuid := by
  rcases c with ⟨phase, foreignKeys⟩
  cases phase with
  | closed | opened | failed => exact advances_same hFile hWhole rfl hOk rfl
  | creating =>
    refine recording_advances rfl hFile hWhole (.inl ?_) rfl (fun _ => ⟨hOk, rfl⟩) rfl
    rcases file.schemaVersion with _ | versions <;> rfl
  | counting =>
    obtain ⟨versions, hVersions⟩ := Option.isSome_iff_exists.mp hOk.2
    have hAdvance : OpenConnection.advance uuid file ⟨.counting, foreignKeys⟩ =
        (⟨.seeding versions.length, foreignKeys⟩, file) := by
      unfold OpenConnection.advance
      dsimp only
      rw [hVersions]
    refine advances_same hFile hWhole (by rw [hAdvance]) ?_ rfl
    rw [hAdvance]
    refine ⟨hOk.1, hOk.2, fun hRows => ?_⟩
    rcases versions with _ | ⟨version, rest⟩
    · exact absurd rfl hRows
    · have hHead : file.schemaVersion.bind List.head? = some version := by rw [hVersions]; rfl
      exact hHead.trans (congrArg some (version_of_head hHead).symm)
  | seeding rows =>
    obtain ⟨hForeignKeys, hCreated, hRecorded⟩ := hOk
    obtain ⟨versions, hVersions⟩ := Option.isSome_iff_exists.mp hCreated
    rcases rows with _ | n
    · have hAdvance : (OpenConnection.advance uuid file ⟨.seeding 0, foreignKeys⟩).2 =
          { file with schemaVersion := some (versions ++ [0]) } := by
        unfold OpenConnection.advance
        dsimp only
        rw [if_pos rfl, hVersions]
        rfl
      -- the seeded row is the first one, or the first one stays
      have hHead : (some (versions ++ [0])).bind List.head? =
          file.schemaVersion.bind List.head? ∨ file.schemaVersion.bind List.head? = none ∧
            (some (versions ++ [0])).bind List.head? = some 0 := by
        rw [hVersions]
        rcases versions with _ | ⟨version, rest⟩
        · exact .inr ⟨rfl, rfl⟩
        · exact .inl rfl
      refine recording_advances hAdvance hFile hWhole hHead rfl (fun hAt => ?_) rfl
      refine ⟨hForeignKeys, ?_⟩
      unfold StoreFile.Recorded
      rw [hAt.version_eq]
      rcases hAt.recorded with hSome | ⟨-, hNone⟩
      · exact hSome
      · exact absurd hNone (by rcases versions <;> nofun)
    · exact advances_same hFile hWhole rfl ⟨hForeignKeys, hRecorded (Nat.succ_ne_zero n)⟩ rfl
  | reading =>
    obtain ⟨hForeignKeys, hRecorded⟩ := hOk
    have hAdvance : OpenConnection.advance uuid file ⟨.reading, foreignKeys⟩ =
        (⟨if file.version < latestSchemaVersion then .disabling file.version else .settling,
          foreignKeys⟩, file) := by
      unfold OpenConnection.advance
      dsimp only
      rw [hRecorded]
      dsimp only
      rw [if_neg (Nat.not_lt_of_le hFile.latest)]
      split <;> rfl
    refine advances_same hFile hWhole (by rw [hAdvance]) ?_ rfl
    rw [hAdvance]
    -- foreign keys go off only where the file is behind
    by_cases hPending : file.version < latestSchemaVersion
    · rw [if_pos hPending]
      exact ⟨hGrows.trans_lt hPending, hRecorded, le_rfl⟩
    · rw [if_neg hPending]
      exact ⟨hForeignKeys, le_antisymm hFile.latest (Nat.le_of_not_lt hPending)⟩
  | disabling current => exact advances_same hFile hWhole rfl hOk rfl
  | migrating current =>
    obtain ⟨hPending, hRecorded, hCurrent⟩ := hOk
    exact migrating_advances rfl hFile hPending hWhole hRecorded hCurrent (hOnce current rfl)
  | checking =>
    obtain ⟨hPending, hVersion⟩ := hOk
    -- every migration has left the tables whole, so the check passes
    have hSound : Sound file.db := whole_latest (hVersion ▸ hWhole hPending)
    have hAdvance : OpenConnection.advance uuid file ⟨.checking, foreignKeys⟩ =
        (⟨.enabling, foreignKeys⟩, file) := if_pos hSound
    refine advances_same hFile hWhole (by rw [hAdvance]) ?_ rfl
    rw [hAdvance]
    exact ⟨hPending, hVersion⟩
  | enabling => exact advances_same hFile hWhole rfl ⟨rfl, hOk.2⟩ rfl
  | settling => exact settling_advances rfl hFile hWhole hOk.1 hOk.2

/-! ## Runs -/

namespace OpenState

theorem begin_inv (hFile : FileAt v file)
    (hWhole : v < latestSchemaVersion → Whole v file.db) : (begin v file).Inv v := by
  have hVersion := hFile.version_eq
  constructor
  · exact hVersion.symm ▸ hFile
  · exact congrArg (List.range' 1) hVersion.symm
  · exact hVersion.ge
  · exact hVersion.symm ▸ hWhole
  · exact fun _ => trivial

theorem set_ok (h : s.Inv v) {i : Nat} (hOk : c.Ok v s.file) (j : Nat) :
    ((s.set i c).connections j).Ok v s.file := by
  show (Function.update s.connections i c j).Ok v s.file
  rw [Function.update_apply]
  split
  · exact hOk
  · exact h.connections j

theorem step_inv (h : s.Inv v) {e : OpenEvent} (hOnce : e.Unrepeated s) :
    (s.step e).Inv v ∧ s.file.version ≤ (s.step e).file.version := by
  cases e with
  | start i =>
    unfold step
    dsimp only
    split
    · exact ⟨⟨h.file, h.applied, h.grows, h.whole, set_ok h rfl⟩, le_rfl⟩
    · exact ⟨h, le_rfl⟩
  | stop i =>
    unfold step
    dsimp only
    split
    · exact ⟨h, le_rfl⟩
    · exact ⟨⟨h.file, h.applied, h.grows, h.whole, set_ok h trivial⟩, le_rfl⟩
  | advance i uuid =>
    have hAdvances : Advances v s.file (s.connections i) uuid := by
      refine advance_advances uuid h.file h.whole h.grows (h.connections i) ?_
      intro current hPhase
      unfold OpenEvent.Unrepeated at hOnce
      dsimp only at hOnce
      rw [hPhase] at hOnce
      exact hOnce
    refine ⟨⟨hAdvances.keeps, ?_, h.grows.trans hAdvances.grows.version, hAdvances.whole, ?_⟩,
      hAdvances.grows.version⟩
    · show s.applied ++ _ = _
      rw [h.applied]
      exact hAdvances.commits
    · intro j
      show (Function.update s.connections i _ j).Ok v _
      rw [Function.update_apply]
      split
      · exact hAdvances.ok
      · exact (h.connections j).mono hAdvances.grows hAdvances.keeps.latest

theorem run_inv {events : List OpenEvent} (h : s.Inv v) (hOnce : s.Unrepeated events) :
    (s.run events).Inv v ∧ s.file.version ≤ (s.run events).file.version := by
  induction events generalizing s with
  | nil => exact ⟨h, le_rfl⟩
  | cons e rest ih =>
    obtain ⟨hInv, hVersion⟩ := step_inv h hOnce.1
    obtain ⟨hRun, hLater⟩ := ih hInv hOnce.2
    exact ⟨hRun, hVersion.trans hLater⟩

theorem unrepeated_append {earlier later : List OpenEvent} :
    s.Unrepeated (earlier ++ later) ↔
      s.Unrepeated earlier ∧ (s.run earlier).Unrepeated later := by
  induction earlier generalizing s with
  | nil => exact (iff_of_eq (true_and _)).symm
  | cons e rest ih => exact (and_congr_right fun _ => ih).trans and_assoc.symm

theorem run_append (earlier later : List OpenEvent) :
    s.run (earlier ++ later) = (s.run earlier).run later :=
  List.foldl_append

end OpenState

/-! ## A connection that is left alone -/

/-- The connection has not failed, and the version it read is the version. -/
def OpenConnection.Current (file : StoreFile) (c : OpenConnection) : Prop :=
  match c.phase with
  | .closed | .failed _ => False
  | .disabling current | .migrating current => current = file.version
  | _ => True

/-- How many statements are left at most. -/
def OpenPhase.remaining : OpenPhase → Nat
  | .closed | .failed _ | .opened => 0
  | .settling => 1
  | .enabling => 2
  | .checking => 3
  | .migrating current => 4 + (latestSchemaVersion - current)
  | .disabling current => 5 + (latestSchemaVersion - current)
  | .reading => 18
  | .seeding _ => 19
  | .counting => 20
  | .creating => 21

theorem advance_current (uuid : String) (hFile : FileAt file.version file)
    (hWhole : v < latestSchemaVersion → Whole file.version file.db) (hOk : c.Ok v file)
    (hCurrent : c.Current file) (hOpen : c.phase ≠ .opened) :
    (c.advance uuid file).1.Current (c.advance uuid file).2 ∧
      (c.advance uuid file).1.phase.remaining < c.phase.remaining := by
  rcases c with ⟨phase, foreignKeys⟩
  cases phase with
  | closed | failed => exact hCurrent.elim
  | opened => exact absurd rfl hOpen
  | creating => exact ⟨trivial, show 20 < 21 by decide⟩
  | counting =>
    obtain ⟨versions, hVersions⟩ := Option.isSome_iff_exists.mp hOk.2
    unfold OpenConnection.advance
    dsimp only
    rw [hVersions]
    exact ⟨trivial, show 19 < 20 by decide⟩
  | seeding rows => exact ⟨trivial, show 18 < 19 by decide⟩
  | reading =>
    unfold OpenConnection.advance
    dsimp only
    rw [hOk.2]
    dsimp only
    rw [if_neg (Nat.not_lt_of_le hFile.latest)]
    split
    · exact ⟨rfl, show 5 + (12 - file.version) < 18 by omega⟩
    · exact ⟨trivial, show 1 < 18 by decide⟩
  | disabling current =>
    exact ⟨hCurrent, show 4 + (12 - current) < 5 + (12 - current) by omega⟩
  | migrating current =>
    obtain ⟨hPending, hRecorded, -⟩ := hOk
    obtain rfl : current = file.version := hCurrent
    unfold OpenConnection.advance
    dsimp only
    rcases Nat.lt_or_ge file.version 12 with hMore | hAll
    · obtain ⟨versions, hVersions, hHead⟩ := Option.bind_eq_some_iff.mp hRecorded
      have hRun := runAll_of_schema (hFile.schema ▸ migration_applies file.version hMore)
      rw [find_migration file.version hMore]
      dsimp only
      unfold applyMigration
      rw [hVersions, hRun]
      refine ⟨(version_of_head ?_).symm, show 4 + (12 - (file.version + 1)) < 4 + (12 - file.version)
        by omega⟩
      show (versions.map fun _ => file.version + 1).head? = _
      rw [List.head?_map, hHead, Option.map_some]
    · have hVersion : file.version = 12 := le_antisymm hFile.latest hAll
      rw [hVersion, find_migration_latest]
      exact ⟨trivial, show 3 < 4 by decide⟩
  | checking =>
    have hSound : Sound file.db := whole_latest (hOk.2 ▸ hWhole hOk.1)
    unfold OpenConnection.advance
    dsimp only
    rw [if_pos hSound]
    exact ⟨trivial, show 2 < 3 by decide⟩
  | enabling => exact ⟨trivial, show 1 < 2 by decide⟩
  | settling => exact ⟨trivial, show 0 < 1 by decide⟩

theorem unrepeated_of_current {i : Nat} {uuid : String}
    (hCurrent : (s.connections i).Current s.file) : (OpenEvent.advance i uuid).Unrepeated s := by
  unfold OpenConnection.Current at hCurrent
  unfold OpenEvent.Unrepeated
  dsimp only
  split
  · next hPhase =>
    rw [hPhase] at hCurrent
    exact fun _ => hCurrent.ge
  · trivial

namespace OpenState

/-- No statement of it fails by itself, and no other connection comes in between. -/
theorem opens {n : Nat} {i : Nat} (uuid : String) (h : s.Inv v)
    (hCurrent : (s.connections i).Current s.file)
    (hRemaining : (s.connections i).phase.remaining ≤ n) :
    ∃ k, ((s.run (List.replicate k (.advance i uuid))).connections i).phase = .opened := by
  induction n generalizing s with
  | zero =>
    refine ⟨0, ?_⟩
    show (s.connections i).phase = .opened
    by_contra hOpen
    obtain ⟨-, hLess⟩ :=
      advance_current uuid h.file h.whole (h.connections i) hCurrent hOpen
    omega
  | succ n ih =>
    by_cases hOpen : (s.connections i).phase = .opened
    · exact ⟨0, hOpen⟩
    · obtain ⟨hNext, hLess⟩ :=
        advance_current uuid h.file h.whole (h.connections i) hCurrent hOpen
      have hSelf : ((s.step (.advance i uuid)).connections i) =
          ((s.connections i).advance uuid s.file).1 := Function.update_self ..
      obtain ⟨hInv, -⟩ := step_inv h (unrepeated_of_current hCurrent)
      obtain ⟨k, hk⟩ := ih hInv (by rw [hSelf]; exact hNext) (by rw [hSelf]; omega)
      exact ⟨k + 1, hk⟩

/-- What opening promises about a file at version `v`, after a run of its connections. -/
structure Soundly (v : Nat) (file : StoreFile) (events : List OpenEvent) : Prop where
  /-- The migrations that were committed are the first ones, each once, and the version says so. -/
  applied : ((begin v file).run events).applied =
    List.range' 1 ((begin v file).run events).file.version
  known : ((begin v file).run events).file.version ≤ latestSchemaVersion
  /-- The version has never been higher. -/
  monotone : ∀ earlier later, events = earlier ++ later →
    ((begin v file).run earlier).file.version ≤ ((begin v file).run events).file.version
  /-- A connection that has not come yet can open the file. -/
  reopens : ∀ i, (((begin v file).run events).connections i).phase = .closed → ∀ uuid, ∃ k,
    ((((begin v file).run events).run
      (.start i :: List.replicate k (.advance i uuid))).connections i).phase = .opened
  /-- An open that returned has the latest version with the foreign keys enforced, and what the
  migrations left refers to rows that are there. -/
  opened : ∀ i, (((begin v file).run events).connections i).phase = .opened →
    ((begin v file).run events).file.version = latestSchemaVersion ∧
      (((begin v file).run events).connections i).foreignKeys = true ∧
      (v < latestSchemaVersion → Sound ((begin v file).run events).file.db)

/-- Where no open commits a migration that the version has reached since it was read, and a file
with migrations pending has no broken reference among the rows they keep. -/
theorem opens_soundly (hFile : FileAt v file) (hWhole : v < latestSchemaVersion → Whole v file.db)
    (events : List OpenEvent) (hOnce : (begin v file).Unrepeated events) :
    Soundly v file events := by
  obtain ⟨hInv, -⟩ := run_inv (begin_inv hFile hWhole) hOnce
  constructor
  · exact hInv.applied
  · exact hInv.file.latest
  · rintro earlier later rfl
    obtain ⟨hEarlier, hLater⟩ := unrepeated_append.mp hOnce
    obtain ⟨hMid, -⟩ := run_inv (begin_inv hFile hWhole) hEarlier
    rw [run_append]
    exact (run_inv hMid hLater).2
  · intro i hClosed uuid
    have hStart : ((begin v file).run events).step (.start i) =
        ((begin v file).run events).set i ⟨.creating, true⟩ := if_pos hClosed
    have hSelf : ((((begin v file).run events).step (.start i)).connections i) =
        ⟨.creating, true⟩ := by
      rw [hStart]
      exact Function.update_self ..
    obtain ⟨hNext, -⟩ := step_inv hInv (e := .start i) trivial
    exact opens uuid hNext (by rw [hSelf]; trivial) le_rfl
  · intro i hOpened
    have hOk := hInv.connections i
    unfold OpenConnection.Ok at hOk
    rw [hOpened] at hOk
    exact ⟨hOk.2, hOk.1, fun hPending => whole_latest (hOk.2 ▸ hInv.whole hPending)⟩

end OpenState

/-! ## Two opens of one file -/

/-- A file of an earlier release, at the version. -/
def oldFile (version : Nat) (rows : Rows) : StoreFile where
  schemaVersion := some [version]
  db := ⟨schemaAt version, rows⟩

def advances (i count : Nat) : List OpenEvent := List.replicate count (.advance i "uuid")

/-- Both read version 7; the first opens the file, and the second goes on with migration 8. -/
def staleOpen : List OpenEvent :=
  [.start 0, .start 1] ++ advances 0 5 ++ advances 1 5 ++ advances 0 9 ++ advances 1 2

/-- The second comes when the first is done. -/
def lateOpen : List OpenEvent :=
  [.start 0, .start 1] ++ advances 0 5 ++ advances 1 3 ++ advances 0 9 ++ advances 1 2

/-- A mark of a frame that is gone. -/
def danglingMark : Rows := fun name =>
  if name = "marks" then [fun column => if column = "frame_id" then .integer 1 else .null] else []

/-- The first finds the mark after it has migrated; the second does not look. -/
def openTwice : List OpenEvent := [.start 0] ++ advances 0 8 ++ [.start 1] ++ advances 1 5

namespace OpenState

theorem failed_stays {i : Nat} {error : String} (k : Nat)
    (h : (s.connections i).phase = .failed error) :
    ((s.run (advances i k)).connections i).phase = .failed error := by
  induction k generalizing s with
  | zero => exact h
  | succ k ih =>
    refine ih (s := s.step (.advance i "uuid")) ?_
    show (Function.update s.connections i _ i).phase = _
    rw [Function.update_self]
    unfold OpenConnection.advance
    rw [h]
    exact h

theorem opens_soundly_late : Soundly 7 (oldFile 7 fun _ => []) lateOpen :=
  opens_soundly ⟨by decide, rfl, .inl rfl⟩ (fun _ => whole_of_sound (by decide +kernel)) lateOpen
    (by decide +kernel)

/-- The version goes from 12 back to 8, where no later open gets past migration 9; and an open
returns with a mark of a frame that is gone. -/
theorem stale_open_breaks :
    ¬ Soundly 7 (oldFile 7 fun _ => []) staleOpen ∧
      (∀ k, ((((begin 7 (oldFile 7 fun _ => [])).run staleOpen).run
        (.start 2 :: advances 2 k)).connections 2).phase ≠ .opened) ∧
      ¬ Soundly 11 (oldFile 11 danglingMark) openTwice := by
  obtain ⟨hApplied, hFailed, hLast⟩ :
      ((begin 7 (oldFile 7 fun _ => [])).run staleOpen).applied ≠
        List.range' 1 ((begin 7 (oldFile 7 fun _ => [])).run staleOpen).file.version ∧
      (∀ k < 7, ((((begin 7 (oldFile 7 fun _ => [])).run staleOpen).run
        (.start 2 :: advances 2 k)).connections 2).phase ≠ .opened) ∧
      ((((begin 7 (oldFile 7 fun _ => [])).run staleOpen).run
        (.start 2 :: advances 2 6)).connections 2).phase = .failed "no such table" := by
    decide +kernel
  obtain ⟨hSecond, hBroken⟩ :
      (((begin 11 (oldFile 11 danglingMark)).run openTwice).connections 1).phase = .opened ∧
        ¬ Sound ((begin 11 (oldFile 11 danglingMark)).run openTwice).file.db := by
    decide +kernel
  refine ⟨fun h => hApplied h.applied, fun k hOpened => ?_,
    fun h => hBroken ((h.opened 1 hSecond).2.2 (by decide))⟩
  rcases Nat.lt_or_ge k 7 with hEarly | hLate
  · exact hFailed k hEarly hOpened
  · obtain ⟨m, rfl⟩ := Nat.exists_eq_add_of_le hLate
    have hSplit : OpenEvent.start 2 :: advances 2 (7 + m) =
        (.start 2 :: advances 2 6) ++ advances 2 (m + 1) := by
      have hCount : 7 + m = 6 + (m + 1) := by omega
      rw [List.cons_append]
      unfold advances
      rw [← List.replicate_add, hCount]
    rw [hSplit, run_append, failed_stays (m + 1) hLast] at hOpened
    cases hOpened

end OpenState

end ScreenSearch.Store
