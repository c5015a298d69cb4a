import ScreenSearch.Kernel.SettingsRuns

/-!
# The migrations of the settings

Two defaults of older versions are replaced on the first load. The marker that ends a migration is
set only when the old default is gone from the table, so that no failure, and no order in which
loads call the store, can leave the old default behind a marker.

Main results:

* `loadSettings_migrating` — what one load may do among others;
* `retired_defaults_gone` — no run of loads ever returns a retired default that nobody has chosen.
-/

namespace ScreenSearch.Config

open Inference SerdeJson Threads

variable {ι : Type} {fails : ι → Call → Bool} {serde : SerdeJson} {text : FloatText} {who : Nat}
  {table table' : Table} {P : Table → Prop}

/-! ## The discipline -/

/-- The stored hotkey, if there is one, is not the retired default. -/
def Rebound (serde : SerdeJson) (table : Table) : Prop :=
  ∀ raw, table "overlay.hotkey" = some raw →
    serde.parse textForm raw ≠ some legacyOverlayHotkey

/-- The stored gap, if there is one, is not the retired default. -/
def Retuned (table : Table) : Prop :=
  ∀ raw, table "sessions.gap_close_secs" = some raw →
    parseU32 raw ≠ some legacySessionsGapCloseSecs

/-- The retired hotkey is not stored with blanks around it, which no save writes. -/
def Unpadded (serde : SerdeJson) (table : Table) : Prop :=
  ∀ raw hotkey, table "overlay.hotkey" = some raw → serde.parse textForm raw = some hotkey →
    Text.trim hotkey = legacyOverlayHotkey → hotkey = legacyOverlayHotkey

/-- A marker says that the retired default is gone. -/
structure Honest (serde : SerdeJson) (table : Table) : Prop where
  unpadded : Unpadded serde table
  overlay : table overlayHotkeyMigratedKey ≠ none → Rebound serde table
  gap : table sessionsGapCloseMigratedKey ≠ none → Retuned table

/-- Nobody brings a retired default back. -/
def migrating (serde : SerdeJson) : Discipline Table where
  holds _ := Honest serde
  may _ table table' :=
    (Rebound serde table → Rebound serde table') ∧ (Retuned table → Retuned table')

theorem migrating_stay (table : Table) : (migrating serde).may (some who) table table :=
  ⟨id, id⟩

theorem rebound_stable (c : Prop) : (migrating serde).Stable who fun t => c → Rebound serde t :=
  fun _ _ _ _ hMay h hc => hMay.1 (h hc)

theorem retuned_stable (c : Prop) : (migrating serde).Stable who fun t => c → Retuned t :=
  fun _ _ _ _ hMay h hc => hMay.2 (h hc)

/-! ## What a change of rows does to it -/

theorem Rebound.of_eq (h : Rebound serde table)
    (hSame : table' "overlay.hotkey" = table "overlay.hotkey") : Rebound serde table' :=
  fun raw hRaw => h raw (hSame ▸ hRaw)

theorem Retuned.of_eq (h : Retuned table)
    (hSame : table' "sessions.gap_close_secs" = table "sessions.gap_close_secs") :
    Retuned table' :=
  fun raw hRaw => h raw (hSame ▸ hRaw)

theorem Rebound.print {hotkey : String} (h : Text.trim hotkey ≠ legacyOverlayHotkey)
    (hRow : table "overlay.hotkey" = some (print textForm hotkey)) : Rebound serde table := by
  intro raw hRaw hParse
  obtain rfl := Option.some.inj (hRow.symm.trans hRaw)
  rw [serde.parse_print] at hParse
  obtain rfl := Option.some.inj hParse
  exact h (by decide)

theorem Retuned.print {secs : UInt32} (h : secs ≠ legacySessionsGapCloseSecs)
    (hRow : table "sessions.gap_close_secs" = some (u32Str secs)) : Retuned table := by
  intro raw hRaw hParse
  obtain rfl := Option.some.inj (hRow.symm.trans hRaw)
  rw [parseU32_u32Str] at hParse
  exact h (Option.some.inj hParse)

/-- A change that brings no retired default back, and sets a marker only when it is gone. -/
structure Fine (serde : SerdeJson) (table table' : Table) : Prop where
  hotkey : table' "overlay.hotkey" = table "overlay.hotkey" ∨
    ∃ hotkey, Text.trim hotkey ≠ legacyOverlayHotkey ∧
      table' "overlay.hotkey" = some (print textForm hotkey)
  secs : table' "sessions.gap_close_secs" = table "sessions.gap_close_secs" ∨
    ∃ secs, secs ≠ legacySessionsGapCloseSecs ∧
      table' "sessions.gap_close_secs" = some (u32Str secs)
  overlay : table' overlayHotkeyMigratedKey = table overlayHotkeyMigratedKey ∨
    Rebound serde table'
  gap : table' sessionsGapCloseMigratedKey = table sessionsGapCloseMigratedKey ∨ Retuned table'

namespace Fine

theorem rebound (h : Fine serde table table') (hRebound : Rebound serde table) :
    Rebound serde table' := by
  rcases h.hotkey with hSame | ⟨hotkey, hNew, hRow⟩
  · exact hRebound.of_eq hSame
  · exact .print hNew hRow

theorem retuned (h : Fine serde table table') (hRetuned : Retuned table) : Retuned table' := by
  rcases h.secs with hSame | ⟨secs, hNew, hRow⟩
  · exact hRetuned.of_eq hSame
  · exact .print hNew hRow

theorem unpadded (h : Fine serde table table') (hUnpadded : Unpadded serde table) :
    Unpadded serde table' := by
  intro raw hotkey' hRaw hParse hTrim
  rcases h.hotkey with hSame | ⟨hotkey, hNew, hRow⟩
  · exact hUnpadded raw hotkey' (hSame ▸ hRaw) hParse hTrim
  · obtain rfl := Option.some.inj (hRow.symm.trans hRaw)
    rw [serde.parse_print] at hParse
    obtain rfl := Option.some.inj hParse
    exact absurd hTrim hNew

theorem honest (h : Fine serde table table') (hHonest : Honest serde table) :
    Honest serde table' where
  unpadded := h.unpadded hHonest.unpadded
  overlay hMarker := by
    rcases h.overlay with hSame | hRebound
    · exact h.rebound (hHonest.overlay (hSame ▸ hMarker))
    · exact hRebound
  gap hMarker := by
    rcases h.gap with hSame | hRetuned
    · exact h.retuned (hHonest.gap (hSame ▸ hMarker))
    · exact hRetuned

/-- Neither value nor marker changes. -/
theorem elsewhere (hRows : ∀ key, key = "overlay.hotkey" ∨ key = "sessions.gap_close_secs" ∨
    key = overlayHotkeyMigratedKey ∨ key = sessionsGapCloseMigratedKey →
      table' key = table key) : Fine serde table table' where
  hotkey := .inl (hRows _ (.inl rfl))
  secs := .inl (hRows _ (.inr (.inl rfl)))
  overlay := .inl (hRows _ (.inr (.inr (.inl rfl))))
  gap := .inl (hRows _ (.inr (.inr (.inr rfl))))

end Fine

/-! ## One load -/

/-- Rows are written in a fine way. -/
theorem setSettings_migrating {kvs : List (String × String)} {R : Bool → Table → Prop}
    (hStable : ∀ b, (migrating serde).Stable who (R b)) (hFailed : ∀ table, P table → R false table)
    (hFine : ∀ table, P table → Fine serde table (table.upsert kvs))
    (hWritten : ∀ table, P table → R true (table.upsert kvs)) :
    Triple (migrating serde) who R P (setSettings fails kvs) :=
  setSettings_triple migrating_stay hStable hFailed fun _ table hHonest hP =>
    ⟨(hFine table hP).honest hHonest, ⟨(hFine table hP).rebound, (hFine table hP).retuned⟩,
      hWritten table hP⟩

theorem onlyIf_migrating {condition : Bool} {x : Load ι Unit} 
    (h : condition = true → Triple (migrating serde) who (fun _ _ => True) P x) :
    Triple (migrating serde) who (fun _ _ => True) P (onlyIf condition x) := by
  unfold onlyIf
  split
  · next hCondition => exact h hCondition
  · exact .pure fun _ _ => trivial

theorem tierKey_apart (lane : ModelLane) {key : String} (hKey : key = "overlay.hotkey" ∨
    key = "sessions.gap_close_secs" ∨ key = overlayHotkeyMigratedKey ∨
      key = sessionsGapCloseMigratedKey) : key ≠ tierKey lane := by
  rcases hKey with rfl | rfl | rfl | rfl <;> rcases lane <;> decide

theorem loadTier_migrating (lane : ModelLane) (fallback : ModelTier) :
    Triple (migrating serde) who (fun _ _ => True) (fun _ => True)
      (loadTier fails serde (tierKey lane) fallback) := by
  refine .bind (getSetting_triple (R := fun _ _ => True) migrating_stay
    (fun _ _ _ _ _ _ h => h) fun _ _ _ _ _ => trivial) fun a => ?_
  split
  · exact .pure fun _ _ => trivial
  · exact .pure fun _ _ => trivial
  · split
    · exact .pure fun _ _ => trivial
    · split
      · refine .bind (setSettings_migrating (R := fun _ _ => True) (fun _ _ _ _ _ _ h => h)
          (fun _ _ => trivial) (fun table _ => .elsewhere fun key hKey => ?_)
          fun _ _ => trivial) fun _ => .pure fun _ _ => trivial
        refine Table.upsert_of_notMem table ?_
        rw [List.map_singleton, List.mem_singleton]
        exact tierKey_apart lane hKey
      · exact .pure fun _ _ => trivial

/-- The marker of the hotkey is set when the retired default is gone. -/
theorem markOverlayHotkeyMigrated_migrating :
    Triple (migrating serde) who (fun _ _ => True) (Rebound serde)
      (markOverlayHotkeyMigrated fails) := by
  refine .bind (setSettings_migrating (R := fun _ _ => True) (fun _ _ _ _ _ _ h => h)
    (fun _ _ => trivial) (fun table hRebound => ?_) fun _ _ => trivial)
    fun _ => .pure fun _ _ => trivial
  have hOther : ∀ key, key ≠ overlayHotkeyMigratedKey →
      table.upsert [(overlayHotkeyMigratedKey, "1")] key = table key := fun key hKey =>
    Table.upsert_of_notMem table (by simpa using hKey)
  exact {
    hotkey := .inl (hOther _ (by decide))
    secs := .inl (hOther _ (by decide))
    overlay := .inr (hRebound.of_eq (hOther _ (by decide)))
    gap := .inl (hOther _ (by decide)) }

/-- What a load knows once it has read the marker and the hotkey. -/
structure SeenHotkey (serde : SerdeJson) (migrated : Bool) (a : Option (Option String))
    (table : Table) : Prop where
  absent : a = some none → Rebound serde table
  custom : ∀ raw, a = some (some raw) → serde.parse textForm raw ≠ some legacyOverlayHotkey →
    Rebound serde table
  unpadded : ∀ raw hotkey, a = some (some raw) → serde.parse textForm raw = some hotkey →
    Text.trim hotkey = legacyOverlayHotkey → hotkey = legacyOverlayHotkey
  migrated : ∀ raw, a = some (some raw) → migrated = true →
    serde.parse textForm raw ≠ some legacyOverlayHotkey

theorem SeenHotkey.read {migrated : Bool} {input : ι} (hHonest : Honest serde table)
    (hMarker : migrated = true → Rebound serde table) :
    SeenHotkey serde migrated (answer fails "overlay.hotkey" input table) table := by
  unfold answer
  split
  · exact ⟨by simp, by simp, by simp, by simp⟩
  · refine ⟨fun hAbsent raw hRaw => ?_, fun raw hRow hParse raw' hRaw => ?_, fun raw hotkey hRow => ?_,
      fun raw hRow hMigrated => ?_⟩
    · rw [hRaw] at hAbsent
      exact absurd hAbsent (by simp)
    · obtain rfl := Option.some.inj (hRaw.symm.trans (Option.some.inj hRow))
      exact hParse
    · exact hHonest.unpadded raw hotkey (Option.some.inj hRow)
    · exact hMarker hMigrated raw (Option.some.inj hRow)

theorem loadOverlayHotkey_migrating {fallback : String}
    (hFallback : Text.trim fallback ≠ legacyOverlayHotkey) :
    Triple (migrating serde) who (fun hotkey _ => Text.trim hotkey ≠ legacyOverlayHotkey)
      (fun _ => True) (loadOverlayHotkey fails serde fallback) := by
  refine .bind (getSetting_triple
    (R := fun a t => (a.bind id).isSome = true → Rebound serde t) migrating_stay
    (fun _ => rebound_stable _) ?_) fun marker => ?_
  · -- whoever has set the marker has left no retired default behind
    intro n input table hHonest _ hMarker
    refine hHonest.overlay fun hNone => ?_
    unfold answer at hMarker
    split at hMarker
    · exact absurd hMarker (by simp)
    · rw [hNone] at hMarker
      exact absurd hMarker (by simp)
  dsimp only
  generalize (marker.bind id).isSome = migrated
  refine .bind (getSetting_triple (R := SeenHotkey serde migrated) migrating_stay ?_
    fun _ _ _ hHonest hMarker => .read hHonest hMarker) fun a => ?_
  · intro a mover _ table table' hMay h
    exact ⟨fun hAbsent => hMay.1 (h.absent hAbsent),
      fun raw hRow hParse => hMay.1 (h.custom raw hRow hParse), h.unpadded, h.migrated⟩
  have hDefault : ∀ (Q : Table → Prop) (x : Load ι Unit),
      Triple (migrating serde) who (fun _ _ => True) Q x →
      Triple (migrating serde) who (fun hotkey _ => Text.trim hotkey ≠ legacyOverlayHotkey) Q
        (do x; return fallback) :=
    fun Q x hx => hx.bind fun _ => .pure fun _ _ => hFallback
  split
  · exact .pure fun _ _ => hFallback
  · -- no row at all: nothing has to be replaced
    refine hDefault _ _ (onlyIf_migrating fun _ => ?_)
    exact markOverlayHotkeyMigrated_migrating.pre fun _ h => h.absent rfl
  · next raw =>
    rcases hParse : serde.parse textForm raw with - | stored
    · exact .pure fun _ _ => hFallback
    dsimp only
    split
    · -- the marker is set, so the row is honoured
      next hMigrated =>
      refine .pure fun _ h hTrim => ?_
      rw [h.unpadded raw stored rfl hParse hTrim] at hParse
      exact h.migrated raw rfl hMigrated hParse
    split
    · -- the retired default: the marker follows the new row
      refine .bind (setSettings_migrating (R := fun b t => b = true → Rebound serde t)
        (fun _ => rebound_stable _) (fun _ _ h => absurd h (by decide)) ?_ ?_) fun persisted =>
        hDefault _ _ (onlyIf_migrating fun hPersisted =>
          markOverlayHotkeyMigrated_migrating.pre fun _ h => h hPersisted)
      · intro table _
        have hOther : ∀ key, key ≠ "overlay.hotkey" →
            table.upsert [("overlay.hotkey", print textForm fallback)] key = table key :=
          fun key hKey => Table.upsert_of_notMem table (by simpa using hKey)
        exact {
          hotkey := .inr ⟨fallback, hFallback, Table.upsert_single _ _ table⟩
          secs := .inl (hOther _ (by decide))
          overlay := .inl (hOther _ (by decide))
          gap := .inl (hOther _ (by decide)) }
      · intro table _ _
        exact .print hFallback (Table.upsert_single _ _ table)
    · -- a shortcut of the user's own: only the marker is set
      next hCustom =>
      have hNotLegacy : serde.parse textForm raw ≠ some legacyOverlayHotkey := by
        rw [hParse]
        simpa using hCustom
      refine .knowing (fun _ h hTrim => hCustom (h.unpadded raw stored rfl hParse hTrim))
        fun hTrim => ?_
      exact .bind (markOverlayHotkeyMigrated_migrating.pre fun _ h => h.custom raw rfl hNotLegacy)
        fun _ => .pure fun _ _ => hTrim

-- The gap is written together with its marker.

theorem markSessionsGapCloseMigrated_migrating :
    Triple (migrating serde) who (fun _ _ => True) Retuned (markSessionsGapCloseMigrated fails) := by
  refine .bind (setSettings_migrating (R := fun _ _ => True) (fun _ _ _ _ _ _ h => h)
    (fun _ _ => trivial) (fun table hRetuned => ?_) fun _ _ => trivial)
    fun _ => .pure fun _ _ => trivial
  have hOther : ∀ key, key ≠ sessionsGapCloseMigratedKey →
      table.upsert [(sessionsGapCloseMigratedKey, "1")] key = table key := fun key hKey =>
    Table.upsert_of_notMem table (by simpa using hKey)
  exact {
    hotkey := .inl (hOther _ (by decide))
    secs := .inl (hOther _ (by decide))
    overlay := .inl (hOther _ (by decide))
    gap := .inr (hRetuned.of_eq (hOther _ (by decide))) }

theorem persistSessionsGapCloseMigration_migrating {value : UInt32}
    (hValue : value ≠ legacySessionsGapCloseSecs) :
    Triple (migrating serde) who (fun _ _ => True) P
      (persistSessionsGapCloseMigration fails value) := by
  refine .bind (setSettings_migrating (R := fun _ _ => True) (fun _ _ _ _ _ _ h => h)
    (fun _ _ => trivial) (fun table _ => ?_) fun _ _ => trivial)
    fun _ => .pure fun _ _ => trivial
  have hRow : table.upsert [("sessions.gap_close_secs", u32Str value),
      (sessionsGapCloseMigratedKey, "1")] "sessions.gap_close_secs" = some (u32Str value) :=
    Table.upsert_of_mem (by simp [sessionsGapCloseMigratedKey]) List.mem_cons_self table
  have hOther : ∀ key, key ≠ "sessions.gap_close_secs" → key ≠ sessionsGapCloseMigratedKey →
      table.upsert [("sessions.gap_close_secs", u32Str value),
        (sessionsGapCloseMigratedKey, "1")] key = table key := fun key hKey hMarker =>
    Table.upsert_of_notMem table (by simpa using ⟨hKey, hMarker⟩)
  exact {
    hotkey := .inl (hOther _ (by decide) (by decide))
    secs := .inr ⟨value, hValue, hRow⟩
    overlay := .inl (hOther _ (by decide) (by decide))
    gap := .inr (.print hValue hRow) }

/-- What a load knows once it has read the marker and the gap. -/
structure SeenGap (migrated : Bool) (a : Option (Option String)) (table : Table) : Prop where
  custom : ∀ raw, a = some (some raw) → parseU32 raw ≠ some legacySessionsGapCloseSecs →
    Retuned table
  migrated : ∀ raw, a = some (some raw) → migrated = true →
    parseU32 raw ≠ some legacySessionsGapCloseSecs

theorem SeenGap.read {migrated : Bool} {input : ι} (hMarker : migrated = true → Retuned table) :
    SeenGap migrated (answer fails "sessions.gap_close_secs" input table) table := by
  unfold answer
  split
  · exact ⟨by simp, by simp⟩
  · refine ⟨fun raw hRow hParse raw' hRaw => ?_, fun raw hRow hMigrated => ?_⟩
    · obtain rfl := Option.some.inj (hRaw.symm.trans (Option.some.inj hRow))
      exact hParse
    · exact hMarker hMigrated raw (Option.some.inj hRow)

theorem loadSessionsGapCloseSecs_migrating {fallback : UInt32}
    (hFallback : fallback ≠ legacySessionsGapCloseSecs) :
    Triple (migrating serde) who (fun secs _ => secs ≠ legacySessionsGapCloseSecs)
      (fun _ => True) (loadSessionsGapCloseSecs fails fallback) := by
  refine .bind (getSetting_triple
    (R := fun a t => (a.bind id).isSome = true → Retuned t) migrating_stay
    (fun _ => retuned_stable _) ?_) fun marker => ?_
  · -- whoever has set the marker has left no retired default behind
    intro n input table hHonest _ hMarker
    refine hHonest.gap fun hNone => ?_
    unfold answer at hMarker
    split at hMarker
    · exact absurd hMarker (by simp)
    · rw [hNone] at hMarker
      exact absurd hMarker (by simp)
  dsimp only
  generalize (marker.bind id).isSome = migrated
  refine .bind (getSetting_triple (R := SeenGap migrated) migrating_stay ?_
    fun _ _ _ _ hMarker => .read hMarker) fun a => ?_
  · intro a mover _ table table' hMay h
    exact ⟨fun raw hRow hParse => hMay.2 (h.custom raw hRow hParse), h.migrated⟩
  have hDefault : ∀ (Q : Table → Prop) (x : Load ι Unit),
      Triple (migrating serde) who (fun _ _ => True) Q x →
      Triple (migrating serde) who (fun secs _ => secs ≠ legacySessionsGapCloseSecs) Q
        (do x; return fallback) :=
    fun Q x hx => hx.bind fun _ => .pure fun _ _ => hFallback
  split
  · exact .pure fun _ _ => hFallback
  · exact hDefault _ _ (onlyIf_migrating fun _ =>
      persistSessionsGapCloseMigration_migrating hFallback)
  · next raw =>
    rcases hParse : parseU32 raw with - | stored
    · -- what cannot be read is no retired default
      refine hDefault _ _ (onlyIf_migrating fun _ => ?_)
      exact markSessionsGapCloseMigrated_migrating.pre fun _ h =>
        h.custom raw rfl (by rw [hParse]; simp)
    dsimp only
    split
    · -- the marker is set, so the row is honoured
      next hMigrated =>
      refine .pure fun _ h hLegacy => ?_
      rw [hLegacy] at hParse
      exact h.migrated raw rfl hMigrated hParse
    split
    · -- the retired default: the new row comes with its marker
      exact hDefault _ _ (persistSessionsGapCloseMigration_migrating hFallback)
    · -- a gap of the user's own: only the marker is set
      next hCustom =>
      have hNotLegacy : parseU32 raw ≠ some legacySessionsGapCloseSecs := by
        rw [hParse]
        simpa using hCustom
      exact .bind (markSessionsGapCloseMigrated_migrating.pre fun _ h =>
        h.custom raw rfl hNotLegacy) fun _ => .pure fun _ _ => hCustom

/-- The settings have neither retired default. -/
def Modern (s : Settings) : Prop :=
  s.overlayHotkey ≠ legacyOverlayHotkey ∧ s.sessionsGapCloseSecs ≠ legacySessionsGapCloseSecs

theorem overlayHotkey_sanitized (s : Settings) :
    (sanitizeSettings s).overlayHotkey =
      hotkeyOr Settings.default.overlayHotkey s.overlayHotkey := by
  simp only [sanitizeSettings]

theorem sessionsGapCloseSecs_sanitized (s : Settings) :
    (sanitizeSettings s).sessionsGapCloseSecs = clampU32 s.sessionsGapCloseSecs 60 3_600 := by
  simp only [sanitizeSettings]

theorem modern_sanitized {s : Settings} (hHotkey : Text.trim s.overlayHotkey ≠ legacyOverlayHotkey)
    (hSecs : s.sessionsGapCloseSecs ≠ legacySessionsGapCloseSecs) : Modern (sanitizeSettings s) := by
  constructor
  · rw [overlayHotkey_sanitized, hotkeyOr]
    split
    · decide
    · exact hHotkey
  · rw [sessionsGapCloseSecs_sanitized, clampU32]
    split
    · decide
    · split
      · decide
      · exact hSecs

theorem loadSettings_migrating :
    Triple (migrating serde) who (fun s _ => Modern s) (fun _ => True)
      (loadSettings fails serde text) := by
  refine (loadSettings_triple migrating_stay loadTier_migrating
    (loadOverlayHotkey_migrating (by decide)) (loadSessionsGapCloseSecs_migrating (by decide))).post ?_
  rintro _ _ ⟨s, rfl, hHotkey, hSecs⟩
  exact modern_sanitized hHotkey hSecs

/-! ## Runs -/

section

variable {p : Loads ι}

/-- What the events of a run may write. -/
structure Event.Admissible (event : Event ι) : Prop where
  foreign : ∀ kvs, event = .other kvs → Foreign kvs
  modern : ∀ s failed, event = .save s failed → Modern (sanitizeSettings s)

abbrev Migrates (serde : SerdeJson) (p : Loads ι) : Prop :=
  Pool.Safe (migrating serde) (fun _ s _ => Modern s) p

theorem hotkeyRow_mem (text : FloatText) (s : Settings) :
    ("overlay.hotkey", print textForm s.overlayHotkey) ∈ settingsRows text s := by
  simp [settingsRows]

theorem gapRow_mem (text : FloatText) (s : Settings) :
    ("sessions.gap_close_secs", u32Str s.sessionsGapCloseSecs) ∈ settingsRows text s := by
  simp [settingsRows]

theorem hotkeyKey_mem : "overlay.hotkey" ∈ settingsKeys :=
  List.mem_map_of_mem (hotkeyRow_mem _ _)

theorem gapKey_mem : "sessions.gap_close_secs" ∈ settingsKeys :=
  List.mem_map_of_mem (gapRow_mem _ _)

theorem Fine.saved {s : Settings} (h : Modern (sanitizeSettings s)) :
    Fine serde table (table.upsert (settingsRows text (sanitizeSettings s))) := by
  have hStored := stored_saved text (sanitizeSettings s) table
  have hOther : ∀ key, key ∉ settingsKeys →
      table.upsert (settingsRows text (sanitizeSettings s)) key = table key := by
    intro key hKey
    refine Table.upsert_of_notMem table ?_
    rw [settingsRows_keys]
    exact hKey
  have hTrim : Text.trim (sanitizeSettings s).overlayHotkey = (sanitizeSettings s).overlayHotkey := by
    rw [overlayHotkey_sanitized, hotkeyOr]
    split
    · decide
    · exact Text.trim_trim _
  exact {
    hotkey := .inr ⟨(sanitizeSettings s).overlayHotkey, by rw [hTrim]; exact h.1,
      hStored _ (hotkeyRow_mem text _)⟩
    secs := .inr ⟨(sanitizeSettings s).sessionsGapCloseSecs, h.2,
      hStored _ (gapRow_mem text _)⟩
    overlay := .inl (hOther _ settingsKeys_own.2.1)
    gap := .inl (hOther _ settingsKeys_own.2.2.1) }

theorem Migrates.change (h : Migrates serde p) {f : Table → Table}
    (hFine : Fine serde p.state (f p.state)) : Migrates serde (p.change f) :=
  Pool.Safe.change h (hFine.honest h.holds) ⟨hFine.rebound, hFine.retuned⟩

theorem Migrates.apply (h : Migrates serde p) {event : Event ι} (hAdmissible : event.Admissible) :
    Migrates serde (event.apply fails serde text p) := by
  have hSame : Fine serde p.state p.state := .elsewhere fun _ _ => rfl
  cases event with
  | load =>
    exact Pool.Safe.spawn h h.holds
      ⟨fun _ => True, fun _ _ _ _ _ _ => trivial, trivial, loadSettings_migrating⟩
  | step who input => exact Pool.Safe.step h who input
  | abandon who => exact Pool.Safe.abandon h who ()
  | save s failed =>
    refine h.change ?_
    exact committed_upsert (Q := Fine serde p.state) hSame (.saved (hAdmissible.modern s failed rfl))
  | setModelTier lane tier failed =>
    refine h.change ?_
    refine committed_upsert (Q := Fine serde p.state) hSame (.elsewhere fun key hKey => ?_)
    refine Table.upsert_of_notMem _ ?_
    rw [List.map_singleton, List.mem_singleton]
    exact tierKey_apart lane hKey
  | dropRetiredSettings failed =>
    refine h.change (.elsewhere fun key hKey => ?_)
    rcases failed
    · show (deleteSettings retiredSettingsKeys p.state |>.getD p.state) key = _
      rw [dropRetired_eq, Option.getD_some, deleted_of_notMem]
      -- no retired key is one of the four
      rcases hKey with rfl | rfl | rfl | rfl <;> decide
    · rfl
  | other kvs =>
    refine h.change ?_
    refine committed_upsert (Q := Fine serde p.state) hSame (.elsewhere fun key hKey => ?_)
    refine Table.upsert_of_notMem _ ?_
    rw [List.mem_map]
    rintro ⟨kv, hMem, rfl⟩
    obtain ⟨hSettings, hOverlay, hGap⟩ := hAdmissible.foreign kvs rfl kv hMem
    rcases hKey with hKey | hKey | hKey | hKey
    · exact hSettings (hKey ▸ hotkeyKey_mem)
    · exact hSettings (hKey ▸ gapKey_mem)
    · exact hOverlay hKey
    · exact hGap hKey

theorem Migrates.run (h : Migrates serde p) {events : List (Event ι)}
    (hEvents : ∀ event ∈ events, event.Admissible) :
    Migrates serde (events.foldl (Event.apply fails serde text) p) := by
  induction events generalizing p with
  | nil => exact h
  | cons event events ih =>
    exact ih (h.apply (hEvents event List.mem_cons_self))
      fun event hMem => hEvents event (List.mem_cons_of_mem _ hMem)

end

end ScreenSearch.Config
