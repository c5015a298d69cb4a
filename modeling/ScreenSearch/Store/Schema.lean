import Mathlib.Tactic.IntervalCases
import ScreenSearch.Lib.Ddl

/-!
# Forward-only schema migrations

The migrations as the statements they run, in order: the tables with their columns and foreign
keys, the indexes with the columns they need, the triggers with their tables. A virtual table is
a table without foreign keys.

Main results:

* `migration_applies` — each migration applies to what the ones before it leave;
* `stale_migration_fails` — to a later schema it does not, but for three of them;
* `migration_whole` — a migration leaves no row that refers to a missing row, if none was there.
-/

namespace ScreenSearch.Store

open Ddl

def latestSchemaVersion : Nat := 12

def table (name : String) (columns : List String) : Table where
  name := name
  columns := columns
  foreignKeys := []

/-- `REFERENCES parent(id)`. -/
def Table.references (t : Table) (column parent : String) : Table :=
  { t with foreignKeys := t.foreignKeys ++ [⟨column, parent, "id"⟩] }

/-- v1: the full data spine. -/
def migrationV1 : List Statement :=
  [ .createTable (table "frames" ["id", "captured_at", "monitor_index", "width", "height",
      "image_path", "content_hash", "app_hint", "window_title", "browser_url", "activity_type",
      "created_at"]),
    .createIndex "idx_frames_captured_at" "frames" ["captured_at"] false,
    .createTable (Table.references (table "ocr_text" ["frame_id", "text", "mean_confidence",
      "engine"]) "frame_id" "frames"),
    .createTable (table "ocr_text_fts" ["text"]),
    .createTrigger "ocr_text_ai" "ocr_text",
    .createTrigger "ocr_text_ad" "ocr_text",
    .createTrigger "ocr_text_au" "ocr_text",
    .createTable (Table.references (table "vision_analysis" ["frame_id", "description",
      "activity_type", "app_hint", "confidence", "model", "created_at"]) "frame_id" "frames"),
    .createTable (Table.references (table "embeddings" ["id", "frame_id", "chunk_index",
      "chunk_text", "source", "model", "dim", "content_hash"]) "frame_id" "frames"),
    .createIndex "idx_embeddings_frame" "embeddings" ["frame_id"] false,
    .createTable (table "embedding_vectors" ["embedding_id", "embedding"]),
    .createTrigger "embeddings_ad" "embeddings",
    .createTable (Table.references (table "image_embeddings" ["id", "frame_id", "model", "dim"])
      "frame_id" "frames"),
    .createTable (table "image_embedding_vectors" ["image_embedding_id", "embedding"]),
    .createTrigger "image_embeddings_ad" "image_embeddings",
    .createTable (Table.references (table "jobs" ["id", "kind", "frame_id", "state", "priority",
      "attempts", "max_attempts", "not_before", "last_error", "created_at", "updated_at"])
      "frame_id" "frames"),
    .createIndex "idx_jobs_ready" "jobs" ["state", "not_before", "priority", "id"] false,
    .createTable (table "tags" ["id", "name"]),
    .createTable (Table.references (Table.references (table "frame_tags" ["frame_id", "tag_id"])
      "frame_id" "frames") "tag_id" "tags"),
    .createTable (table "settings" ["key", "value"]) ]

/-- v2: the scheduler's index, if it is not there. -/
def migrationV2 : List Statement :=
  [.createIndex "idx_jobs_frame_kind_state" "jobs" ["frame_id", "kind", "state"] true]

/-- v3: text in two layers, with spans and a catalog of chrome. -/
def migrationV3 : List Statement :=
  [ .dropTrigger "ocr_text_au" true,
    .dropTrigger "ocr_text_ad" true,
    .dropTrigger "ocr_text_ai" true,
    .dropTable "ocr_text_fts" true,
    .dropTable "ocr_text" true,
    .createTable (Table.references (table "frame_text" ["frame_id", "raw_text", "content_text",
      "primary_source", "filter_version", "suppressed_count", "target_window_title",
      "target_app_hint", "created_at"]) "frame_id" "frames"),
    .createTable (table "frame_text_fts" ["content_text"]),
    .createTrigger "frame_text_ai" "frame_text",
    .createTrigger "frame_text_ad" "frame_text",
    .createTrigger "frame_text_au" "frame_text",
    .createTable (table "frame_text_raw_fts" ["raw_text"]),
    .createTrigger "frame_text_raw_ai" "frame_text",
    .createTrigger "frame_text_raw_ad" "frame_text",
    .createTrigger "frame_text_raw_au" "frame_text",
    .createTable (Table.references (table "text_spans" ["frame_id", "span_index", "text",
      "normalized_text", "source", "role", "x", "y", "w", "h", "is_searchable",
      "suppress_reason"]) "frame_id" "frames"),
    .createTable (table "chrome_text_catalog" ["signature", "app_hint", "region_bucket",
      "normalized_text", "seen_count", "first_seen_at", "last_seen_at", "suppressed"]) ]

/-- v4: the line of a span. -/
def migrationV4 : List Statement := [.addColumn "text_spans" "line_index" none (.integer 0)]

/-- v5: why a frame was captured. -/
def migrationV5 : List Statement := [.addColumn "frames" "capture_trigger" none .null]

def framesNewColumns : List String :=
  ["id", "captured_at", "monitor_index", "width", "height", "image_path", "content_hash",
    "app_hint", "window_title", "browser_url", "activity_type", "created_at", "capture_trigger"]

/-- v6: the frames rebuilt, since the check on a column cannot be altered in place. -/
def migrationV6 : List Statement :=
  [ .createTable (table "frames_new" framesNewColumns),
    .copyRows "frames" "frames_new" framesNewColumns,
    .dropIndex "idx_frames_captured_at" true,
    .dropTable "frames" false,
    .renameTable "frames_new" "frames",
    .createIndex "idx_frames_captured_at" "frames" ["captured_at"] false ]

/-- v7: whether the screenshot is gone. -/
def migrationV7 : List Statement := [.addColumn "frames" "image_purged" none (.integer 0)]

/-- v8: the retention sweep's index, if it is not there. -/
def migrationV8 : List Statement :=
  [.createIndex "idx_frames_image_retention" "frames" ["captured_at", "image_purged"] true]

/-- v9: no image embeddings. -/
def migrationV9 : List Statement :=
  [ .dropTable "image_embedding_vectors" false,
    .dropTable "image_embeddings" false,
    .deleteRows "jobs" "kind" (.text "embed_image") ]

/-- v10: marks. -/
def migrationV10 : List Statement :=
  [ .createTable (Table.references (table "marks" ["id", "frame_id", "created_at", "note",
      "resolved_at"]) "frame_id" "frames"),
    .createIndex "idx_marks_open" "marks" ["resolved_at", "created_at"] false ]

/-- v11: sessions. -/
def migrationV11 : List Statement :=
  [ .createTable (table "sessions" ["id", "started_at", "ended_at", "kind", "tool", "host",
      "context_key", "title", "summary", "summary_model", "confidence", "frozen", "created_at",
      "updated_at"]),
    .createIndex "idx_sessions_time" "sessions" ["started_at", "ended_at"] false,
    .addColumn "frames" "session_id" (some ⟨"session_id", "sessions", "id"⟩) .null,
    .createIndex "idx_frames_session" "frames" ["session_id"] false,
    .createTable (Table.references (Table.references (table "session_artifacts" ["id",
      "session_id", "kind", "role", "frame_id", "content", "created_at"])
      "session_id" "sessions") "frame_id" "frames"),
    .createIndex "idx_artifacts_session" "session_artifacts" ["session_id", "created_at"] false,
    .createIndex "idx_artifacts_frame" "session_artifacts" ["frame_id"] false ]

/-- v12: report runs, deliveries and files. -/
def migrationV12 : List Statement :=
  [ .createTable (table "report_runs" ["run_id", "schedule_id", "revision_of", "window_start",
      "window_end", "phase", "created_at", "updated_at", "payload"]),
    .createIndex "idx_report_schedule_window" "report_runs"
      ["schedule_id", "window_start", "window_end", "revision_of"] false,
    .createIndex "idx_report_runs_created" "report_runs" ["created_at"] false,
    .createTable { table "report_deliveries" ["id", "run_id", "state", "next_attempt_at",
      "payload"] with foreignKeys := [⟨"run_id", "report_runs", "run_id"⟩] },
    .createIndex "idx_report_deliveries_run" "report_deliveries" ["run_id"] false,
    .createTable (table "report_files" ["path", "payload"]) ]

/-- Ordered; each is applied when the version on record is below its own. -/
def MIGRATIONS : List (Nat × List Statement) :=
  [ (1, migrationV1), (2, migrationV2), (3, migrationV3), (4, migrationV4), (5, migrationV5),
    (6, migrationV6), (7, migrationV7), (8, migrationV8), (9, migrationV9), (10, migrationV10),
    (11, migrationV11), (12, migrationV12) ]

def migration (version : Nat) : List Statement :=
  ((MIGRATIONS.find? fun m => m.1 == version).map Prod.snd).getD []

/-- The schema that the migrations up to `version` leave. -/
def schemaAt (version : Nat) : Schema :=
  match runSchema ((MIGRATIONS.filter fun m => m.1 ≤ version).flatMap Prod.snd) .empty with
  | .ok schema => schema
  | .error _ => .empty

/-- The migrations that a schema with their work done still takes: v2 and v8 create an index if it
is not there, and v6 rebuilds whatever frames it finds. -/
def repeatable (version : Nat) : Bool := version = 2 || version = 6 || version = 8

theorem find_migration : ∀ current < 12,
    MIGRATIONS.find? (fun m => m.1 > current) = some (current + 1, migration (current + 1)) := by
  intro current hCurrent
  interval_cases current <;> rfl

theorem find_migration_latest : MIGRATIONS.find? (fun m => m.1 > 12) = none := rfl

/-- Jobs have no added column. -/
def avoidsJobs : Statement → Bool
  | .addColumn table .. => table != "jobs"
  | _ => true

/-- What is read off the migrations and the schemas between them, in one evaluation. -/
theorem migrations_checked :
    (∀ version < 12,
      runSchema (migration (version + 1)) (schemaAt version) = .ok (schemaAt (version + 1)) ∧
      (version ≠ 5 → sparesAll (migration (version + 1)) (schemaAt version) = true) ∧
      (migration (version + 1)).all avoidsJobs = true) ∧
    ∀ version < 13, ∀ current < version, repeatable (current + 1) = false →
      (runSchema (migration (current + 1)) (schemaAt version)).isOk = false := by
  decide +kernel

/-- The tables that v6 and v9 leave, in the same way. -/
theorem tables_checked :
    (∀ t ∈ (schemaAt 6).tables, t.foreignKeys ≠ [] →
      t ∈ (schemaAt 5).tables ∧ t.name ≠ "frames" ∧ t.name ≠ "frames_new") ∧
    (∀ t ∈ (schemaAt 6).tables, ∀ fk ∈ t.foreignKeys,
      fk.parent ≠ "frames_new" ∧ (fk.parent = "frames" → fk.key ∈ framesNewColumns)) ∧
    ∀ t ∈ (schemaAt 9).tables, t.name ≠ "ocr_text" ∧ t.name ≠ "image_embeddings" := by
  decide +kernel

theorem migration_applies (version : Nat) (h : version < 12) :
    runSchema (migration (version + 1)) (schemaAt version) = .ok (schemaAt (version + 1)) :=
  (migrations_checked.1 version h).1

/-- A migration that is behind the schema fails in its transaction. -/
theorem stale_migration_fails : ∀ version < 13, ∀ current < version,
    repeatable (current + 1) = false →
      (runSchema (migration (current + 1)) (schemaAt version)).isOk = false :=
  migrations_checked.2

/-! ## Rows that refer to rows that are there -/

/-- No migration from `version` on deletes the row. -/
def Survives (version : Nat) (name : String) (row : Row) : Prop :=
  version < 9 → name ≠ "ocr_text" ∧ name ≠ "image_embeddings" ∧
    ¬ (name = "jobs" ∧ row "kind" = .text "embed_image")

/-- Of the rows that the migrations keep, none refers to a missing row. -/
def Whole (version : Nat) (db : Database) : Prop := SoundOn (Survives version) db

variable {db : Database} {version : Nat}

theorem survives_succ (hDrop : version ≠ 8) : Survives (version + 1) = Survives version := by
  funext name row
  refine propext (imp_congr_left ?_)
  omega

theorem whole_latest (h : Whole latestSchemaVersion db) : Sound db :=
  fun t ht fk hfk row hRow => h t ht fk hfk row hRow fun hEarly => absurd hEarly (by decide)

theorem whole_of_sound (h : Sound db) : Whole version db :=
  fun t ht fk hfk row hRow _ => h t ht fk hfk row hRow

theorem survives_unseen {s : Statement} (h : avoidsJobs s = true) :
    s.AddsUnseen (Survives version) := by
  cases s with
  | addColumn table column foreignKey default =>
    intro row hSurvives hEarly
    obtain ⟨hOcr, hImages, -⟩ := hSurvives hEarly
    exact ⟨hOcr, hImages, fun hJobs => bne_iff_ne.mp h hJobs.1⟩
  | _ => trivial

theorem migrations_avoid_jobs (version : Nat) (h : version < 12) :
    (migration (version + 1)).all avoidsJobs = true :=
  (migrations_checked.1 version h).2.2

theorem migrations_spare_keys (version : Nat) (h : version < 12) (hRebuild : version ≠ 5) :
    sparesAll (migration (version + 1)) (schemaAt version) = true :=
  (migrations_checked.1 version h).2.1 hRebuild

/-- The frames are rebuilt with their ids, under every table that refers to them. -/
theorem rebuild_whole (hSchema : db.schema = schemaAt 5) (h : Whole 5 db) :
    Whole 6 ⟨schemaAt 6, runRows (migration 6) db.rows⟩ := by
  obtain ⟨hTables, hParents, _⟩ := tables_checked
  unfold Whole
  rw [survives_succ (by decide)]
  refine rebuild_soundOn h (hSchema ▸ hTables) hParents ?_
  intro name
  show runRows migrationV6 db.rows name = _
  simp only [runRows, migrationV6, List.foldl_cons, List.foldl_nil, Statement.onRows, table,
    Function.update_apply]
  by_cases hFrames : name = "frames"
  · simp [hFrames]
  · by_cases hNew : name = "frames_new" <;> simp [hFrames, hNew]

/-- From here on no row is exempt: the last of those that were are gone. -/
theorem drop_images_whole (hSchema : db.schema = schemaAt 8) (h : Whole 8 db) :
    Whole 9 ⟨schemaAt 9, runRows (migration 9) db.rows⟩ := by
  have hEarly : SoundOn (Survives 8) ⟨schemaAt 9, runRows (migration 9) db.rows⟩ := by
    refine runAll_soundOn ?_ ?_ ?_ h
    · rw [hSchema]
      exact migration_applies 8 (by decide)
    · rw [hSchema]
      exact migrations_spare_keys 8 (by decide) (by decide)
    · exact fun s hs => survives_unseen
        (List.all_eq_true.mp (migrations_avoid_jobs 8 (by decide)) s hs)
  obtain ⟨_, _, hNames⟩ := tables_checked
  have hJobs : runRows (migration 9) db.rows "jobs" =
      (db.rows "jobs").filter fun row => row "kind" ≠ .text "embed_image" := by
    show runRows migrationV9 db.rows "jobs" = _
    simp [runRows, migrationV9, Statement.onRows]
  intro t ht fk hfk row hRow _
  refine hEarly t ht fk hfk row hRow fun _ => ⟨(hNames t ht).1, (hNames t ht).2, ?_⟩
  rintro ⟨hName, hKind⟩
  replace hRow : row ∈ runRows (migration 9) db.rows t.name := hRow
  rw [hName, hJobs] at hRow
  exact of_decide_eq_true (List.mem_filter.mp hRow).2 hKind

theorem migration_whole (hSchema : db.schema = schemaAt version) (hPending : version < 12)
    (h : Whole version db) :
    Whole (version + 1) ⟨schemaAt (version + 1), runRows (migration (version + 1)) db.rows⟩ := by
  by_cases hRebuild : version = 5
  · subst hRebuild
    exact rebuild_whole hSchema h
  by_cases hDrop : version = 8
  · subst hDrop
    exact drop_images_whole hSchema h
  · unfold Whole
    rw [survives_succ hDrop]
    refine runAll_soundOn ?_ ?_ ?_ h
    · rw [hSchema]
      exact migration_applies version hPending
    · rw [hSchema]
      exact migrations_spare_keys version hPending hRebuild
    · exact fun s hs => survives_unseen
        (List.all_eq_true.mp (migrations_avoid_jobs version hPending) s hs)

end ScreenSearch.Store
