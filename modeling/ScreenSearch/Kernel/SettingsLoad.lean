import ScreenSearch.Kernel.Settings

/-!
# A load by itself

What a load finds and leaves behind while no other program calls the store.

Main results:

* `loadSettings_alone` — from a table in which settings are stored a load reads them, and
  changes nothing once the migrations are over;
* `first_load` — they are over after one load, unless the hotkey cannot be read.
-/

namespace ScreenSearch.Config

open Inference SerdeJson Threads

/-! ## Round trips of single values -/

theorem parseU32_u32Str (n : UInt32) : parseU32 (u32Str n) = some n := by
  have hDigits : (u32Str n).toList = Nat.toDigits 10 n.toNat := by simp [u32Str]
  have hAll : (Nat.toDigits 10 n.toNat).all Char.isDigit = true :=
    List.all_eq_true.mpr fun c hc => Nat.isDigit_of_mem_toDigits (by decide) (by decide) hc
  have hSome : (Nat.toDigits 10 n.toNat).isEmpty = false := by
    rw [List.isEmpty_eq_false_iff]
    exact Nat.toDigits_ne_nil
  rw [parseU32, App.parseU32, hDigits]
  dsimp only
  split
  · next rest hPlus =>
    rw [hPlus] at hAll
    exact absurd hAll (by simp)
  · rw [hSome, hAll, Nat.ofDigitChars_ten_toDigits, if_neg (by decide), if_pos n.toNat_lt,
      Option.map_some, UInt32.ofNat_toNat]

theorem parseBool_boolStr (b : Bool) : parseBool (boolStr b) = some b := by
  rcases b <;> decide

/-! ## Rows -/

/-- A key that is not written keeps its row. -/
theorem Table.upsert_of_notMem {kvs : List (String × String)} {key : String} (table : Table)
    (h : key ∉ kvs.map Prod.fst) : table.upsert kvs key = table key := by
  induction kvs generalizing table with
  | nil => rfl
  | cons kv kvs ih =>
    rw [List.map_cons, List.mem_cons, not_or] at h
    show Table.upsert kvs (Function.update table kv.1 (some kv.2)) key = _
    rw [ih _ h.2, Function.update_of_ne h.1]

theorem Table.upsert_single (key value : String) (table : Table) :
    table.upsert [(key, value)] key = some value := by
  show Function.update table key (some value) key = some value
  rw [Function.update_self]

/-- A key that is written once has what was written. -/
theorem Table.upsert_of_mem {kvs : List (String × String)} (hKeys : (kvs.map Prod.fst).Nodup)
    {kv : String × String} (h : kv ∈ kvs) (table : Table) :
    table.upsert kvs kv.1 = some kv.2 := by
  induction kvs generalizing table with
  | nil => exact absurd h List.not_mem_nil
  | cons first kvs ih =>
    rw [List.map_cons, List.nodup_cons] at hKeys
    show Table.upsert kvs (Function.update table first.1 (some first.2)) kv.1 = _
    rcases List.mem_cons.mp h with rfl | hRest
    · rw [Table.upsert_of_notMem _ hKeys.1, Function.update_self]
    · exact ih hKeys.2 hRest _

/-- The table holds the settings. -/
def Stored (text : FloatText) (s : Settings) (table : Table) : Prop :=
  ∀ kv ∈ settingsRows text s, table kv.1 = some kv.2

def settingsKeys : List String :=
  (settingsRows ⟨fun _ => "", fun _ => none⟩ Settings.default).map Prod.fst

theorem settingsRows_keys (text : FloatText) (s : Settings) :
    (settingsRows text s).map Prod.fst = settingsKeys := by
  simp only [settingsRows, settingsKeys, List.map_cons, List.map_nil]

theorem settingsKeys_nodup : settingsKeys.Nodup := by decide +kernel

theorem settingsKeys_own :
    settingsKeys.any Store.isHistoryMetadataKey = false ∧
      overlayHotkeyMigratedKey ∉ settingsKeys ∧ sessionsGapCloseMigratedKey ∉ settingsKeys ∧
      ∀ key ∈ retiredSettingsKeys, key ∉ settingsKeys := by decide +kernel

/-! ## A load by itself -/

section

variable {ι α : Type} {fails : ι → Call → Bool} {who : Nat} {quiet : ι} {table : Table}

theorem getSetting_alone (hQuiet : ∀ call, fails quiet call = false) (key : String) :
    (getSetting fails key).alone who quiet table = (.ok (some (table key)), table) := by
  simp [getSetting, Thread.atomically, Thread.alone, hQuiet]

theorem setSettings_alone (hQuiet : ∀ call, fails quiet call = false)
    {kvs : List (String × String)}
    (hOwn : (kvs.any fun kv => Store.isHistoryMetadataKey kv.1) = false) :
    (setSettings fails kvs).alone who quiet table = (.ok true, table.upsert kvs) := by
  simp [setSettings, setSettingsBatch, Thread.atomically, Thread.alone, hQuiet, hOwn]

theorem reading_alone (hQuiet : ∀ call, fails quiet call = false) (parse : String → Option α)
    (key : String) (fallback : α) :
    (reading fails parse key fallback).alone who quiet table =
      (.ok (((table key).bind parse).getD fallback), table) := by
  rw [reading, Thread.alone_bind (getSetting_alone hQuiet key)]
  rfl

/-- A row that can be read is what it says. -/
theorem reading_stored (hQuiet : ∀ call, fails quiet call = false) {parse : String → Option α}
    {key raw : String} {a : α} (fallback : α) (hRow : table key = some raw)
    (hParse : parse raw = some a) :
    (reading fails parse key fallback).alone who quiet table = (.ok a, table) := by
  rw [reading_alone hQuiet, hRow, Option.bind_some, hParse, Option.getD_some]

theorem loadTier_stored (hQuiet : ∀ call, fails quiet call = false) (serde : SerdeJson)
    {key : String} {tier fallback : ModelTier} (hRow : table key = some (print tierForm tier)) :
    (loadTier fails serde key fallback).alone who quiet table = (.ok tier, table) := by
  rw [loadTier, Thread.alone_bind (getSetting_alone hQuiet key), hRow]
  dsimp only
  rw [serde.parse_print]
  rfl

theorem loadOverlayHotkey_stored (hQuiet : ∀ call, fails quiet call = false) (serde : SerdeJson)
    (hMarker : table overlayHotkeyMigratedKey ≠ none) {hotkey fallback : String}
    (hRow : table "overlay.hotkey" = some (print textForm hotkey)) :
    (loadOverlayHotkey fails serde fallback).alone who quiet table = (.ok hotkey, table) := by
  obtain ⟨marker, hMarker⟩ := Option.ne_none_iff_exists'.mp hMarker
  rw [loadOverlayHotkey, Thread.alone_bind (getSetting_alone hQuiet _)]
  dsimp only
  rw [Thread.alone_bind (getSetting_alone hQuiet _), hRow, hMarker]
  dsimp only
  rw [serde.parse_print]
  rfl

theorem loadSessionsGapCloseSecs_stored (hQuiet : ∀ call, fails quiet call = false)
    (hMarker : table sessionsGapCloseMigratedKey ≠ none) {secs fallback : UInt32}
    (hRow : table "sessions.gap_close_secs" = some (u32Str secs)) :
    (loadSessionsGapCloseSecs fails fallback).alone who quiet table = (.ok secs, table) := by
  obtain ⟨marker, hMarker⟩ := Option.ne_none_iff_exists'.mp hMarker
  rw [loadSessionsGapCloseSecs, Thread.alone_bind (getSetting_alone hQuiet _)]
  dsimp only
  rw [Thread.alone_bind (getSetting_alone hQuiet _), hRow, hMarker]
  dsimp only
  rw [parseU32_u32Str]
  rfl

-- Each of the next rules takes the first of the rows that are left to be read.

variable {β : Type} {rows : Prop} {end_ : Except Unit β × Table} {key : String}

theorem num_next (hQuiet : ∀ call, fails quiet call = false) {n fallback : UInt32}
    {next : UInt32 → Load ι β} (h : table key = some (u32Str n) ∧ rows)
    (hNext : rows → (next n).alone who quiet table = end_) :
    (num fails key fallback >>= next).alone who quiet table = end_ := by
  rw [num, Thread.alone_bind (reading_stored hQuiet fallback h.1 (parseU32_u32Str n))]
  exact hNext h.2

theorem numF32_next (hQuiet : ∀ call, fails quiet call = false) {text : FloatText}
    {x fallback : F32} (hText : text.parse (text.print x) = some x) {next : F32 → Load ι β}
    (h : table key = some (text.print x) ∧ rows)
    (hNext : rows → (next x).alone who quiet table = end_) :
    (numF32 fails text key fallback >>= next).alone who quiet table = end_ := by
  rw [numF32, Thread.alone_bind (reading_stored hQuiet fallback h.1 hText)]
  exact hNext h.2

theorem boolean_next (hQuiet : ∀ call, fails quiet call = false) {b fallback : Bool}
    {next : Bool → Load ι β} (h : table key = some (boolStr b) ∧ rows)
    (hNext : rows → (next b).alone who quiet table = end_) :
    (boolean fails key fallback >>= next).alone who quiet table = end_ := by
  rw [boolean, Thread.alone_bind (reading_stored hQuiet fallback h.1 (parseBool_boolStr b))]
  exact hNext h.2

theorem json_next (hQuiet : ∀ call, fails quiet call = false) (serde : SerdeJson)
    {form : JsonForm α} {a fallback : α} {next : α → Load ι β}
    (h : table key = some (print form a) ∧ rows)
    (hNext : rows → (next a).alone who quiet table = end_) :
    (json fails serde form key fallback >>= next).alone who quiet table = end_ := by
  rw [json, Thread.alone_bind (reading_stored hQuiet fallback h.1 (serde.parse_print form a))]
  exact hNext h.2

theorem loadTier_next (hQuiet : ∀ call, fails quiet call = false) (serde : SerdeJson)
    {tier fallback : ModelTier} {next : ModelTier → Load ι β}
    (h : table key = some (print tierForm tier) ∧ rows)
    (hNext : rows → (next tier).alone who quiet table = end_) :
    (loadTier fails serde key fallback >>= next).alone who quiet table = end_ := by
  rw [Thread.alone_bind (loadTier_stored hQuiet serde h.1)]
  exact hNext h.2

/-- The floats of clamped settings. -/
def Settings.floats (s : Settings) : List F32 :=
  [s.captureDiffThreshold, s.throttleCpuEnterPct, s.throttleCpuExitPct, s.throttleGpuEnterPct,
    s.throttleGpuExitPct]

/-- From a table that holds settings a load reads them, and it changes nothing once the
migrations are over. -/
theorem loadSettings_alone (hQuiet : ∀ call, fails quiet call = false) (serde : SerdeJson)
    {text : FloatText} {s : Settings} (hText : ∀ x ∈ s.floats, text.parse (text.print x) = some x)
    (hOverlay : table overlayHotkeyMigratedKey ≠ none)
    (hGap : table sessionsGapCloseMigratedKey ≠ none) (hStored : Stored text s table) :
    (loadSettings fails serde text).alone who quiet table = (.ok (sanitizeSettings s), table) := by
  simp only [Settings.floats, List.forall_mem_cons] at hText
  obtain ⟨hDiff, hCpuEnter, hCpuExit, hGpuEnter, hGpuExit, -⟩ := hText
  simp only [Stored, settingsRows, List.forall_mem_cons] at hStored
  unfold loadSettings
  dsimp only
  -- the rows are read in the order in which they are written
  refine num_next hQuiet hStored fun hStored => ?_
  refine json_next hQuiet serde hStored fun hStored => ?_
  refine numF32_next hQuiet hDiff hStored fun hStored => ?_
  iterate 2 refine num_next hQuiet hStored fun hStored => ?_
  iterate 2 refine boolean_next hQuiet hStored fun hStored => ?_
  refine num_next hQuiet hStored fun hStored => ?_
  refine boolean_next hQuiet hStored fun hStored => ?_
  iterate 3 refine num_next hQuiet hStored fun hStored => ?_
  iterate 2 refine loadTier_next hQuiet serde hStored fun hStored => ?_
  refine boolean_next hQuiet hStored fun hStored => ?_
  iterate 2 refine num_next hQuiet hStored fun hStored => ?_
  refine json_next hQuiet serde hStored fun hStored => ?_
  refine num_next hQuiet hStored fun hStored => ?_
  iterate 2 refine json_next hQuiet serde hStored fun hStored => ?_
  refine boolean_next hQuiet hStored fun hStored => ?_
  refine num_next hQuiet hStored fun hStored => ?_
  refine json_next hQuiet serde hStored fun hStored => ?_
  iterate 2 refine boolean_next hQuiet hStored fun hStored => ?_
  iterate 7 refine num_next hQuiet hStored fun hStored => ?_
  iterate 3 refine boolean_next hQuiet hStored fun hStored => ?_
  iterate 4 refine num_next hQuiet hStored fun hStored => ?_
  refine boolean_next hQuiet hStored fun hStored => ?_
  iterate 2 refine num_next hQuiet hStored fun hStored => ?_
  refine boolean_next hQuiet hStored fun hStored => ?_
  iterate 3 refine num_next hQuiet hStored fun hStored => ?_
  rw [Thread.alone_bind (loadOverlayHotkey_stored hQuiet serde hOverlay hStored.1)]
  replace hStored := hStored.2
  iterate 3 refine num_next hQuiet hStored fun hStored => ?_
  rw [Thread.alone_bind (loadSessionsGapCloseSecs_stored hQuiet hGap hStored.1)]
  replace hStored := hStored.2
  refine json_next hQuiet serde hStored fun hStored => ?_
  refine boolean_next hQuiet hStored fun hStored => ?_
  refine numF32_next hQuiet hCpuEnter hStored fun hStored => ?_
  refine numF32_next hQuiet hCpuExit hStored fun hStored => ?_
  refine numF32_next hQuiet hGpuEnter hStored fun hStored => ?_
  refine numF32_next hQuiet hGpuExit hStored fun hStored => ?_
  iterate 4 refine num_next hQuiet hStored fun hStored => ?_
  iterate 2 refine boolean_next hQuiet hStored fun hStored => ?_
  rfl

/-! ## The first load -/

/-- Alone, the program ends and leaves a table of the kind. -/
def Reaches (who : Nat) (quiet : ι) (x : Load ι α) (table : Table)
    (P : Table → Prop) : Prop :=
  ∃ a table', x.alone who quiet table = (.ok a, table') ∧ P table'

theorem Reaches.bind {x : Load ι α} {next : α → Load ι β} {P Q : Table → Prop}
    (h : Reaches who quiet x table P)
    (hNext : ∀ a table, P table → Reaches who quiet (next a) table Q) :
    Reaches who quiet (x >>= next) table Q := by
  obtain ⟨a, table', hAlone, hP⟩ := h
  obtain ⟨b, table'', hAlone', hQ⟩ := hNext a table' hP
  exact ⟨b, table'', by rw [Thread.alone_bind hAlone, hAlone'], hQ⟩

theorem Reaches.reading (hQuiet : ∀ call, fails quiet call = false) {parse : String → Option α}
    {fallback : α} {next : α → Load ι β} {Q : Table → Prop}
    (hNext : ∀ a, Reaches who quiet (next a) table Q) :
    Reaches who quiet (Config.reading fails parse key fallback >>= next) table Q :=
  Reaches.bind (P := (· = table)) ⟨_, _, reading_alone hQuiet parse key fallback, rfl⟩
    fun a _ hSame => hSame ▸ hNext a

/-- No tier of an older version is left in the row. -/
def TierSettled (serde : SerdeJson) (key : String) (table : Table) : Prop :=
  ∀ raw, table key = some raw → serde.parse tierForm raw = none →
    serde.parse textForm raw ≠ some "beta"

/-- There is nothing left to migrate. -/
structure Settled (serde : SerdeJson) (table : Table) : Prop where
  overlay : table overlayHotkeyMigratedKey ≠ none
  gap : table sessionsGapCloseMigratedKey ≠ none
  vision : TierSettled serde "models.vision_tier" table
  answer : TierSettled serde "models.answer_tier" table

theorem TierSettled.of_eq {serde : SerdeJson} {table' : Table} (h : TierSettled serde key table)
    (hSame : table' key = table key) : TierSettled serde key table' := by
  intro raw hRow
  exact h raw (hSame ▸ hRow)

theorem TierSettled.print (serde : SerdeJson) {tier : ModelTier}
    (hRow : table key = some (SerdeJson.print tierForm tier)) : TierSettled serde key table := by
  intro raw hRaw hParse
  obtain rfl := Option.some.inj (hRow.symm.trans hRaw)
  rw [serde.parse_print] at hParse
  exact absurd hParse (Option.some_ne_none tier)

theorem loadTier_reaches (hQuiet : ∀ call, fails quiet call = false) (serde : SerdeJson)
    (hOwn : Store.isHistoryMetadataKey key = false) (fallback : ModelTier) :
    Reaches who quiet (loadTier fails serde key fallback) table fun table' =>
      TierSettled serde key table' ∧ ∀ k, k ≠ key → table' k = table k := by
  unfold loadTier Reaches
  rw [Thread.alone_bind (getSetting_alone hQuiet key)]
  rcases hRow : table key with - | raw
  · exact ⟨_, _, rfl, fun raw hRaw => absurd (hRow.symm.trans hRaw) (by simp), fun _ _ => rfl⟩
  · dsimp only
    split
    · -- a row that can be read stays
      next tier hParse =>
      refine ⟨_, _, rfl, fun raw' hRaw hNone => ?_, fun _ _ => rfl⟩
      obtain rfl := Option.some.inj (hRow.symm.trans hRaw)
      rw [hParse] at hNone
      exact absurd hNone (Option.some_ne_none tier)
    · split
      · -- the retired name is rewritten
        rw [Thread.alone_bind (setSettings_alone hQuiet (by simp [hOwn]))]
        refine ⟨_, _, rfl, .print serde (?_ : _ = some (SerdeJson.print tierForm .quality)),
          fun k hk => ?_⟩
        · exact Function.update_self key _ table
        · exact Function.update_of_ne hk _ table
      · -- any other row stays unread
        next hBeta =>
        refine ⟨_, _, rfl, fun raw' hRaw _ => ?_, fun _ _ => rfl⟩
        obtain rfl := Option.some.inj (hRow.symm.trans hRaw)
        exact hBeta

/-- The hotkey can be read, or none is stored. -/
def Readable (serde : SerdeJson) (table : Table) : Prop :=
  ∀ raw, table "overlay.hotkey" = some raw → serde.parse textForm raw ≠ none

theorem markOverlayHotkeyMigrated_alone (hQuiet : ∀ call, fails quiet call = false)
    (table : Table) :
    (markOverlayHotkeyMigrated fails).alone who quiet table =
      (.ok (), table.upsert [(overlayHotkeyMigratedKey, "1")]) := by
  rw [markOverlayHotkeyMigrated, Thread.alone_bind (setSettings_alone hQuiet (by decide))]
  rfl

theorem markSessionsGapCloseMigrated_alone (hQuiet : ∀ call, fails quiet call = false)
    (table : Table) :
    (markSessionsGapCloseMigrated fails).alone who quiet table =
      (.ok (), table.upsert [(sessionsGapCloseMigratedKey, "1")]) := by
  rw [markSessionsGapCloseMigrated, Thread.alone_bind (setSettings_alone hQuiet (by decide))]
  rfl

theorem persistSessionsGapCloseMigration_alone (hQuiet : ∀ call, fails quiet call = false)
    (value : UInt32) (table : Table) :
    (persistSessionsGapCloseMigration fails value).alone who quiet table =
      (.ok (), table.upsert
        [("sessions.gap_close_secs", u32Str value), (sessionsGapCloseMigratedKey, "1")]) := by
  rw [persistSessionsGapCloseMigration,
    Thread.alone_bind (setSettings_alone hQuiet (by simp; decide))]
  rfl

/-- The marker is set, and nothing but the two rows has changed. -/
def Marked (key marker : String) (table table' : Table) : Prop :=
  table' marker ≠ none ∧ ∀ k, k ≠ key → k ≠ marker → table' k = table k

/-- Rows are written, and the marker last. -/
theorem Marked.upsert {key marker : String} (kvs : List (String × String))
    (hKeys : ∀ kv ∈ kvs, kv.1 = key) (table : Table) :
    Marked key marker table (table.upsert (kvs ++ [(marker, "1")])) := by
  refine ⟨?_, fun k hKey hMarker => Table.upsert_of_notMem table ?_⟩
  · simp [Table.upsert, List.foldl_append]
  · simp only [List.map_append, List.mem_append, List.mem_map, List.map_cons, List.map_nil,
      List.mem_singleton, not_or]
    refine ⟨?_, hMarker⟩
    rintro ⟨kv, hMem, rfl⟩
    exact hKey (hKeys kv hMem)

theorem loadOverlayHotkey_reaches (hQuiet : ∀ call, fails quiet call = false) (serde : SerdeJson)
    (hReadable : Readable serde table) (fallback : String) :
    Reaches who quiet (loadOverlayHotkey fails serde fallback) table
      (Marked "overlay.hotkey" overlayHotkeyMigratedKey table) := by
  unfold loadOverlayHotkey Reaches
  rw [Thread.alone_bind (getSetting_alone hQuiet _)]
  dsimp only
  rw [Thread.alone_bind (getSetting_alone hQuiet _)]
  rcases hMarker : table overlayHotkeyMigratedKey with - | marker
  · rcases hRow : table "overlay.hotkey" with - | raw
    · dsimp only
      rw [Thread.alone_bind (x := onlyIf _ _) (markOverlayHotkeyMigrated_alone hQuiet table)]
      exact ⟨_, _, rfl, Marked.upsert [] (by simp) table⟩
    · dsimp only
      obtain ⟨stored, hStored⟩ := Option.ne_none_iff_exists'.mp (hReadable raw hRow)
      rw [hStored]
      dsimp only
      rw [if_neg (by simp)]
      split
      · -- the retired default is replaced
        rw [Thread.alone_bind (setSettings_alone hQuiet (by simp; decide)),
          Thread.alone_bind (x := onlyIf _ _) (markOverlayHotkeyMigrated_alone hQuiet _)]
        exact ⟨_, _, rfl, Marked.upsert [_] (by simp) table⟩
      · -- a shortcut of the user's own stays
        rw [Thread.alone_bind (markOverlayHotkeyMigrated_alone hQuiet table)]
        exact ⟨_, _, rfl, Marked.upsert [] (by simp) table⟩
  · -- the marker is set: nothing is written
    have hSame : Marked "overlay.hotkey" overlayHotkeyMigratedKey table table :=
      ⟨by rw [hMarker]; exact Option.some_ne_none marker, fun _ _ _ => rfl⟩
    rcases hRow : table "overlay.hotkey" with - | raw
    · exact ⟨_, _, rfl, hSame⟩
    · dsimp only
      obtain ⟨stored, hStored⟩ := Option.ne_none_iff_exists'.mp (hReadable raw hRow)
      rw [hStored]
      exact ⟨_, _, rfl, hSame⟩

theorem loadSessionsGapCloseSecs_reaches (hQuiet : ∀ call, fails quiet call = false)
    (fallback : UInt32) :
    Reaches who quiet (loadSessionsGapCloseSecs fails fallback) table
      (Marked "sessions.gap_close_secs" sessionsGapCloseMigratedKey table) := by
  have hPersisted : ∀ value : UInt32, Marked "sessions.gap_close_secs" sessionsGapCloseMigratedKey
      table (table.upsert
        [("sessions.gap_close_secs", u32Str value), (sessionsGapCloseMigratedKey, "1")]) :=
    fun value => Marked.upsert [_] (by simp) table
  unfold loadSessionsGapCloseSecs Reaches
  rw [Thread.alone_bind (getSetting_alone hQuiet _)]
  dsimp only
  rw [Thread.alone_bind (getSetting_alone hQuiet _)]
  rcases hMarker : table sessionsGapCloseMigratedKey with - | marker
  · rcases hRow : table "sessions.gap_close_secs" with - | raw
    · dsimp only
      rw [Thread.alone_bind (x := onlyIf _ _) (persistSessionsGapCloseMigration_alone hQuiet _ table)]
      exact ⟨_, _, rfl, hPersisted _⟩
    · dsimp only
      rcases parseU32 raw with - | stored
      · dsimp only
        rw [Thread.alone_bind (x := onlyIf _ _) (markSessionsGapCloseMigrated_alone hQuiet table)]
        exact ⟨_, _, rfl, Marked.upsert [] (by simp) table⟩
      · dsimp only
        rw [if_neg (by simp)]
        split
        · -- the retired default is replaced
          rw [Thread.alone_bind (persistSessionsGapCloseMigration_alone hQuiet _ table)]
          exact ⟨_, _, rfl, hPersisted _⟩
        · -- a gap of the user's own stays
          rw [Thread.alone_bind (markSessionsGapCloseMigrated_alone hQuiet table)]
          exact ⟨_, _, rfl, Marked.upsert [] (by simp) table⟩
  · -- the marker is set: nothing is written
    have hSame : Marked "sessions.gap_close_secs" sessionsGapCloseMigratedKey table table :=
      ⟨by rw [hMarker]; exact Option.some_ne_none marker, fun _ _ _ => rfl⟩
    rcases hRow : table "sessions.gap_close_secs" with - | raw
    · exact ⟨_, _, rfl, hSame⟩
    · dsimp only
      rcases parseU32 raw with - | stored
      · exact ⟨_, _, rfl, hSame⟩
      · exact ⟨_, _, rfl, hSame⟩

/-- After a load nothing is left to migrate, unless the hotkey cannot be read. -/
theorem first_load (hQuiet : ∀ call, fails quiet call = false) (serde : SerdeJson)
    (text : FloatText) (hReadable : Readable serde table) :
    Reaches who quiet (loadSettings fails serde text) table (Settled serde) := by
  unfold loadSettings
  dsimp only
  -- of all reads only the tiers, the shortcut and the gap may write
  iterate 12 refine .reading hQuiet fun _ => ?_
  refine .bind (loadTier_reaches hQuiet serde (by decide) _) fun _ t1 h1 => ?_
  refine .bind (loadTier_reaches hQuiet serde (by decide) _) fun _ t2 h2 => ?_
  iterate 33 refine .reading hQuiet fun _ => ?_
  have hReadable2 : Readable serde t2 := by
    intro raw hRow
    exact hReadable raw (by rw [← hRow, h2.2 _ (by decide), h1.2 _ (by decide)])
  refine .bind (loadOverlayHotkey_reaches hQuiet serde hReadable2 _) fun _ t3 h3 => ?_
  iterate 3 refine .reading hQuiet fun _ => ?_
  refine .bind (loadSessionsGapCloseSecs_reaches hQuiet _) fun _ t4 h4 => ?_
  iterate 12 refine .reading hQuiet fun _ => ?_
  refine ⟨_, _, rfl, ?_, h4.1, ?_, ?_⟩
  · rw [h4.2 _ (by decide) (by decide)]
    exact h3.1
  · refine h1.1.of_eq ?_
    rw [h4.2 _ (by decide) (by decide), h3.2 _ (by decide) (by decide), h2.2 _ (by decide)]
  · refine h2.1.of_eq ?_
    rw [h4.2 _ (by decide) (by decide), h3.2 _ (by decide) (by decide)]

end

end ScreenSearch.Config
