import ScreenSearch.Kernel.SettingsLoad

/-!
# The settings over whole runs

Any number of loads call the store in any order, between the saves of the user; each call may
fail, and a load may be dropped.

Main results:

* `saved_settings_kept` — after the first load, what was chosen last is what every load finds.
-/

namespace ScreenSearch.Config

open Inference SerdeJson Threads

variable {ι : Type}

inductive Event (ι : Type) where
  | load
  /-- The next call of a load; the input says what fails. -/
  | step (who : Nat) (input : ι)
  /-- A load is dropped while it waits for a call. -/
  | abandon (who : Nat)
  | save (s : Settings) (failed : Bool)
  | setModelTier (lane : ModelLane) (tier : ModelTier) (failed : Bool)
  | dropRetiredSettings (failed : Bool)
  /-- Another component writes rows of its own. -/
  | other (kvs : List (String × String))

def tierKey : ModelLane → String
  | .vision => "models.vision_tier"
  | .answer => "models.answer_tier"

def setModelTier (lane : ModelLane) (tier : ModelTier) (table : Table) : Option Table :=
  setSettingsBatch [(tierKey lane, print tierForm tier)] table

/-- A transaction that failed, or was refused, has changed nothing. -/
def committed (failed : Bool) (transaction : Table → Option Table) (table : Table) : Table :=
  if failed then table else (transaction table).getD table

section

variable (fails : ι → Call → Bool) (serde : SerdeJson) (text : FloatText)

abbrev Loads (ι : Type) := Pool ι Table Unit Settings

def Event.apply (p : Loads ι) : Event ι → Loads ι
  | load => p.spawn (loadSettings fails serde text)
  | step who input => p.step who input
  | abandon who => p.abandon who ()
  | save s failed => p.change (committed failed (saveSettings text s))
  | setModelTier lane tier failed => p.change (committed failed (Config.setModelTier lane tier))
  | dropRetiredSettings failed => p.change (committed failed (deleteSettings retiredSettingsKeys))
  | other kvs => p.change (committed false (setSettingsBatch kvs))

def runEvents (table : Table) (events : List (Event ι)) : Loads ι :=
  events.foldl (Event.apply fails serde text) { state := table, threads := [] }

end

def Settings.withTier (s : Settings) : ModelLane → ModelTier → Settings
  | .vision, tier => { s with modelsVisionTier := tier }
  | .answer, tier => { s with modelsAnswerTier := tier }

/-- What the user has chosen so far, if everything was chosen once. -/
def Event.choose (chosen : Option Settings) : Event ι → Option Settings
  | save s false => some (sanitizeSettings s)
  | setModelTier lane tier false => chosen.map fun s => s.withTier lane tier
  | _ => chosen

def chosenBy (events : List (Event ι)) : Option Settings := events.foldl Event.choose none

/-! ## Loads among others -/

section

variable {α : Type} {fails : ι → Call → Bool} {serde : SerdeJson} {text : FloatText} {who : Nat}
  {D : Discipline Table} {P : Table → Prop}

/-- What a read shows. -/
def answer (fails : ι → Call → Bool) (key : String) (input : ι) (table : Table) :
    Option (Option String) :=
  if fails input (.get key) then none else some (table key)

theorem getSetting_triple {key : String} {R : Option (Option String) → Table → Prop}
    (hStay : ∀ table, D.may (some who) table table) (hStable : ∀ a, D.Stable who (R a))
    (hRead : ∀ n input table, D.holds n table → P table →
      R (answer fails key input table) table) :
    Triple D who R P (getSetting fails key) := by
  refine Triple.atomically hStable ?_
  intro n input table a table' _ hHolds hP hOp
  obtain ⟨rfl, rfl⟩ := Prod.mk.inj (Except.ok.inj hOp)
  exact ⟨hHolds, hStay table, hRead n input table hHolds hP⟩

theorem setSettings_triple {kvs : List (String × String)} {R : Bool → Table → Prop}
    (hStay : ∀ table, D.may (some who) table table) (hStable : ∀ b, D.Stable who (R b))
    (hFailed : ∀ table, P table → R false table)
    (hWritten : ∀ n table, D.holds n table → P table →
      D.holds n (table.upsert kvs) ∧ D.may (some who) table (table.upsert kvs) ∧
        R true (table.upsert kvs)) :
    Triple D who R P (setSettings fails kvs) := by
  refine Triple.atomically hStable ?_
  intro n input table b table' _ hHolds hP hOp
  split at hOp
  · next written hWrite =>
    obtain ⟨rfl, rfl⟩ := Prod.mk.inj (Except.ok.inj hOp)
    split at hWrite
    · exact absurd hWrite (by simp)
    · unfold setSettingsBatch at hWrite
      split at hWrite
      · exact absurd hWrite (by simp)
      · obtain rfl := Option.some.inj hWrite
        exact hWritten n table hHolds hP
  · obtain ⟨rfl, rfl⟩ := Prod.mk.inj (Except.ok.inj hOp)
    exact ⟨hHolds, hStay table, hFailed table hP⟩

theorem reading_triple (hStay : ∀ table, D.may (some who) table table)
    (parse : String → Option α) (key : String) (fallback : α) :
    Triple D who (fun _ _ => True) P (reading fails parse key fallback) :=
  (getSetting_triple (R := fun _ _ => True) hStay (fun _ _ _ _ _ _ _ => trivial)
    fun _ _ _ _ _ => trivial).bind fun _ => .pure fun _ _ => trivial

/-- A load keeps to a discipline if its migrations do. -/
theorem loadSettings_triple {H : String → Prop} {G : UInt32 → Prop}
    (hStay : ∀ table, D.may (some who) table table)
    (hTier : ∀ lane fallback,
      Triple D who (fun _ _ => True) (fun _ => True) (loadTier fails serde (tierKey lane) fallback))
    (hHotkey : Triple D who (fun hotkey _ => H hotkey) (fun _ => True)
      (loadOverlayHotkey fails serde Settings.default.overlayHotkey))
    (hGap : Triple D who (fun secs _ => G secs) (fun _ => True)
      (loadSessionsGapCloseSecs fails Settings.default.sessionsGapCloseSecs)) :
    Triple D who
      (fun r _ => ∃ s, r = sanitizeSettings s ∧ H s.overlayHotkey ∧ G s.sessionsGapCloseSecs)
      (fun _ => True) (loadSettings fails serde text) := by
  unfold loadSettings
  dsimp only
  iterate 12 refine .bind (reading_triple hStay _ _ _) fun _ => ?_
  refine .bind ((hTier .vision _).pre fun _ _ => trivial) fun _ => ?_
  refine .bind ((hTier .answer _).pre fun _ _ => trivial) fun _ => ?_
  iterate 33 refine .bind (reading_triple hStay _ _ _) fun _ => ?_
  refine .bind (hHotkey.pre fun _ _ => trivial) fun hotkey => .assume fun hH => ?_
  iterate 3 refine .bind (reading_triple hStay _ _ _) fun _ => ?_
  refine .bind (hGap.pre fun _ _ => trivial) fun secs => .assume fun hG => ?_
  iterate 12 refine .bind (reading_triple hStay _ _ _) fun _ => ?_
  exact .pure fun _ _ => ⟨_, rfl, hH, hG⟩

/-! ## Once nothing is left to migrate -/

/-- Loads change nothing. -/
def quietly (serde : SerdeJson) : Discipline Table where
  holds _ := Settled serde
  may mover table table' := mover = none ∨ table' = table

theorem quietly_stay (table : Table) : (quietly serde).may (some who) table table := .inr rfl

theorem loadTier_quietly (lane : ModelLane) (fallback : ModelTier) :
    Triple (quietly serde) who (fun _ _ => True) (fun _ => True)
      (loadTier fails serde (tierKey lane) fallback) := by
  refine .bind (getSetting_triple (R := fun a _ => ∀ raw, a = some (some raw) →
    serde.parse tierForm raw = none → serde.parse textForm raw ≠ some "beta") quietly_stay
    (fun _ _ _ _ _ _ h => h) ?_) fun a => .assume fun hSettled => ?_
  · intro n input table hHolds _ raw hAnswer
    have hTier : TierSettled serde (tierKey lane) table := by
      rcases lane
      · exact hHolds.vision
      · exact hHolds.answer
    unfold answer at hAnswer
    split at hAnswer
    · exact absurd hAnswer (by simp)
    · exact hTier raw (Option.some.inj hAnswer)
  · split
    · exact .pure fun _ _ => trivial
    · exact .pure fun _ _ => trivial
    · next raw =>
      split
      · exact .pure fun _ _ => trivial
      · -- a row that cannot be read is not the retired name any more
        next hNone =>
        rw [if_neg (hSettled raw rfl hNone)]
        exact .pure fun _ _ => trivial

/-- The marker is there. -/
theorem getMarker_quietly {key : String} (hMarker : ∀ input, fails input (.get key) = false)
    (hHolds : ∀ table, Settled serde table → table key ≠ none) :
    Triple (quietly serde) who (fun a _ => (a.bind id).isSome = true) P (getSetting fails key) := by
  refine getSetting_triple quietly_stay (fun _ _ _ _ _ _ h => h) ?_
  intro n input table hSettled _
  obtain ⟨marker, hSome⟩ := Option.ne_none_iff_exists'.mp (hHolds table hSettled)
  rw [answer, hMarker, hSome]
  rfl

theorem loadOverlayHotkey_quietly (fallback : String)
    (hMarker : ∀ input, fails input (.get overlayHotkeyMigratedKey) = false) :
    Triple (quietly serde) who (fun _ _ => True) (fun _ => True)
      (loadOverlayHotkey fails serde fallback) := by
  refine .bind (getMarker_quietly hMarker fun _ h => h.overlay) fun a => .assume fun hMigrated => ?_
  dsimp only
  rw [hMigrated]
  refine .bind (getSetting_triple (R := fun _ _ => True) quietly_stay (fun _ _ _ _ _ _ h => h)
    fun _ _ _ _ _ => trivial) fun a' => ?_
  split
  · exact .pure fun _ _ => trivial
  · exact .pure fun _ _ => trivial
  · split
    · exact .pure fun _ _ => trivial
    · exact .pure fun _ _ => trivial

theorem loadSessionsGapCloseSecs_quietly (fallback : UInt32)
    (hMarker : ∀ input, fails input (.get sessionsGapCloseMigratedKey) = false) :
    Triple (quietly serde) who (fun _ _ => True) (fun _ => True)
      (loadSessionsGapCloseSecs fails fallback) := by
  refine .bind (getMarker_quietly hMarker fun _ h => h.gap) fun a => .assume fun hMigrated => ?_
  dsimp only
  rw [hMigrated]
  refine .bind (getSetting_triple (R := fun _ _ => True) quietly_stay (fun _ _ _ _ _ _ h => h)
    fun _ _ _ _ _ => trivial) fun a' => ?_
  split
  · exact .pure fun _ _ => trivial
  · exact .pure fun _ _ => trivial
  · split
    · exact .pure fun _ _ => trivial
    · exact .pure fun _ _ => trivial

theorem loadSettings_quietly
    (hOverlay : ∀ input, fails input (.get overlayHotkeyMigratedKey) = false)
    (hGap : ∀ input, fails input (.get sessionsGapCloseMigratedKey) = false) :
    Triple (quietly serde) who (fun _ _ => True) (fun _ => True)
      (loadSettings fails serde text) :=
  (loadSettings_triple quietly_stay loadTier_quietly (loadOverlayHotkey_quietly _ hOverlay)
    (loadSessionsGapCloseSecs_quietly _ hGap)).post fun _ _ _ => trivial

end

/-! ## What the user and others write -/

section

variable {serde : SerdeJson} {text : FloatText} {table : Table}

/-- Rows that belong to neither the settings nor their migrations. -/
def Foreign (kvs : List (String × String)) : Prop :=
  ∀ kv ∈ kvs, kv.1 ∉ settingsKeys ∧ kv.1 ≠ overlayHotkeyMigratedKey ∧
    kv.1 ≠ sessionsGapCloseMigratedKey

theorem Table.upsert_ne_none {kvs : List (String × String)} {key : String}
    (h : table key ≠ none) : table.upsert kvs key ≠ none := by
  induction kvs generalizing table with
  | nil => exact h
  | cons kv kvs ih =>
    refine @ih (Function.update table kv.1 (some kv.2)) ?_
    rw [Function.update_apply]
    split
    · exact Option.some_ne_none _
    · exact h

theorem deleted_of_notMem {keys : List String} {key : String} (h : key ∉ keys) (table : Table) :
    keys.foldl (fun table key => Function.update table key none) table key = table key := by
  induction keys generalizing table with
  | nil => rfl
  | cons first keys ih =>
    rw [List.mem_cons, not_or] at h
    rw [List.foldl_cons, ih h.2, Function.update_of_ne h.1]

theorem setSettingsBatch_eq {kvs : List (String × String)} {table' : Table}
    (h : setSettingsBatch kvs table = some table') : table' = table.upsert kvs := by
  unfold setSettingsBatch at h
  split at h
  · exact absurd h (by simp)
  · exact (Option.some.inj h).symm

/-- A transaction that writes rows, as a step. -/
theorem committed_upsert {Q : Table → Prop} {failed : Bool} {kvs : List (String × String)}
    (hStays : Q table) (hWritten : Q (table.upsert kvs)) :
    Q (committed failed (setSettingsBatch kvs) table) := by
  unfold committed
  split
  · exact hStays
  · rcases hWrite : setSettingsBatch kvs table with - | table'
    · exact hStays
    · rw [Option.getD_some, setSettingsBatch_eq hWrite]
      exact hWritten

theorem saveSettings_eq (s : Settings) (table : Table) :
    saveSettings text s table = some (table.upsert (settingsRows text (sanitizeSettings s))) := by
  have hOwn : ((settingsRows text (sanitizeSettings s)).any fun kv =>
      Store.isHistoryMetadataKey kv.1) = false := by
    rw [← settingsKeys_own.1, ← settingsRows_keys text (sanitizeSettings s), List.any_map]
    rfl
  rw [saveSettings, setSettingsBatch, hOwn]
  rfl

theorem setModelTier_eq (lane : ModelLane) (tier : ModelTier) (table : Table) :
    setModelTier lane tier table = some (table.upsert [(tierKey lane, print tierForm tier)]) := by
  rcases lane <;> rfl

theorem dropRetired_eq (table : Table) :
    deleteSettings retiredSettingsKeys table =
      some (retiredSettingsKeys.foldl (fun table key => Function.update table key none) table) := by
  rw [deleteSettings, if_neg (by decide)]

theorem Settled.of_rows {table' : Table} (h : Settled serde table)
    (hMarkers : ∀ key, key = overlayHotkeyMigratedKey ∨ key = sessionsGapCloseMigratedKey →
      table key ≠ none → table' key ≠ none)
    (hTiers : ∀ lane, TierSettled serde (tierKey lane) table') : Settled serde table' where
  overlay := hMarkers _ (.inl rfl) h.overlay
  gap := hMarkers _ (.inr rfl) h.gap
  vision := hTiers .vision
  answer := hTiers .answer

theorem Settled.tier (h : Settled serde table) (lane : ModelLane) :
    TierSettled serde (tierKey lane) table := by
  rcases lane
  · exact h.vision
  · exact h.answer

theorem tierKey_mem (lane : ModelLane) : tierKey lane ∈ settingsKeys := by
  rcases lane <;> decide +kernel

theorem tierRow_mem (text : FloatText) (s : Settings) (lane : ModelLane) :
    ∃ tier, (tierKey lane, print tierForm tier) ∈ settingsRows text s := by
  rcases lane
  · exact ⟨s.modelsVisionTier, by simp [settingsRows, tierKey]⟩
  · exact ⟨s.modelsAnswerTier, by simp [settingsRows, tierKey]⟩

theorem stored_saved (text : FloatText) (s : Settings) (table : Table) :
    Stored text s (table.upsert (settingsRows text s)) := by
  intro kv hMem
  refine Table.upsert_of_mem ?_ hMem table
  rw [settingsRows_keys]
  exact settingsKeys_nodup

theorem Stored.of_rows {s : Settings} {table' : Table} (h : Stored text s table)
    (hRows : ∀ key ∈ settingsKeys, table' key = table key) : Stored text s table' := by
  intro kv hMem
  rw [hRows kv.1 (by rw [← settingsRows_keys text s]; exact List.mem_map_of_mem hMem)]
  exact h kv hMem

end

/-! ## Runs after the first load -/

section

variable {fails : ι → Call → Bool} {serde : SerdeJson} {text : FloatText} {p : Loads ι}
  {chosen : Option Settings}

/-- Nothing is left to migrate, and the table holds what was chosen. -/
structure Kept (serde : SerdeJson) (text : FloatText) (chosen : Option Settings)
    (p : Loads ι) : Prop where
  safe : Pool.Safe (quietly serde) (fun _ _ _ => True) p
  clamped : ∀ s, chosen = some s → sanitizeSettings s = s
  stored : ∀ s, chosen = some s → Stored text s p.state

theorem Kept.change (h : Kept serde text chosen p) {f : Table → Table} {chosen' : Option Settings}
    (hSettled : Settled serde (f p.state)) (hClamped : ∀ s, chosen' = some s → sanitizeSettings s = s)
    (hStored : ∀ s, chosen' = some s → Stored text s (f p.state)) :
    Kept serde text chosen' (p.change f) where
  safe := h.safe.change hSettled (.inl rfl)
  clamped := hClamped
  stored := hStored

theorem Kept.step (h : Kept serde text chosen p) (who : Nat) (input : ι) :
    Kept serde text chosen (p.step who input) where
  safe := h.safe.step who input
  clamped := h.clamped
  stored s hChosen := by
    have hSame : (p.step who input).state = p.state := by
      rcases h.safe.step_may who input with hSame | hMay
      · exact hSame
      · rcases hMay with hNone | hSame
        · exact absurd hNone (by simp)
        · exact hSame
    rw [hSame]
    exact h.stored s hChosen

theorem Kept.save (h : Kept serde text chosen p) (s : Settings) :
    Kept serde text (some (sanitizeSettings s)) (p.change (committed false (saveSettings text s))) := by
  have hRows : committed false (saveSettings text s) p.state =
      p.state.upsert (settingsRows text (sanitizeSettings s)) := by
    rw [committed, if_neg (by decide), saveSettings_eq, Option.getD_some]
  have hStored := stored_saved text (sanitizeSettings s) p.state
  refine h.change ?_ ?_ ?_
  · rw [hRows]
    refine h.safe.holds.of_rows (fun key _ hSome => Table.upsert_ne_none hSome) fun lane => ?_
    obtain ⟨tier, hTier⟩ := tierRow_mem text (sanitizeSettings s) lane
    exact .print serde (hStored _ hTier)
  · rintro _ ⟨⟩
    exact sanitizeSettings_idem s
  · rintro _ ⟨⟩
    rw [hRows]
    exact hStored

theorem settingsRows_withTier (text : FloatText) (s : Settings) (lane : ModelLane)
    (tier : ModelTier) {kv : String × String} (h : kv ∈ settingsRows text (s.withTier lane tier)) :
    kv ∈ settingsRows text s ∨ kv = (tierKey lane, print tierForm tier) := by
  rcases lane
  · rw [show settingsRows text (s.withTier .vision tier) = (settingsRows text s).set 12
      (tierKey .vision, print tierForm tier) from rfl] at h
    exact List.mem_or_eq_of_mem_set h
  · rw [show settingsRows text (s.withTier .answer tier) = (settingsRows text s).set 13
      (tierKey .answer, print tierForm tier) from rfl] at h
    exact List.mem_or_eq_of_mem_set h

theorem stored_withTier {s : Settings} {table : Table} (h : Stored text s table)
    (lane : ModelLane) (tier : ModelTier) :
    Stored text (s.withTier lane tier) (table.upsert [(tierKey lane, print tierForm tier)]) := by
  intro kv hMem
  have hNew : (tierKey lane, print tierForm tier) ∈ settingsRows text (s.withTier lane tier) := by
    rcases lane <;> simp [settingsRows, tierKey, Settings.withTier]
  by_cases hKey : kv.1 = tierKey lane
  · have hNodup : ((settingsRows text (s.withTier lane tier)).map Prod.fst).Nodup := by
      rw [settingsRows_keys]
      exact settingsKeys_nodup
    obtain rfl := List.inj_on_of_nodup_map hNodup hMem hNew hKey
    exact Function.update_self _ _ _
  · rcases settingsRows_withTier text s lane tier hMem with hOld | rfl
    · rw [Table.upsert_of_notMem table (by simpa using hKey)]
      exact h kv hOld
    · exact absurd rfl hKey

theorem sanitizeSettings_withTier (s : Settings) (lane : ModelLane) (tier : ModelTier) :
    sanitizeSettings (s.withTier lane tier) = (sanitizeSettings s).withTier lane tier := by
  rcases lane <;> simp only [sanitizeSettings, Settings.withTier]

theorem Kept.setModelTier (h : Kept serde text chosen p) (lane : ModelLane) (tier : ModelTier) :
    Kept serde text (chosen.map fun s => s.withTier lane tier)
      (p.change (committed false (Config.setModelTier lane tier))) := by
  have hRows : committed false (Config.setModelTier lane tier) p.state =
      p.state.upsert [(tierKey lane, print tierForm tier)] := by
    rw [committed, if_neg (by decide), setModelTier_eq, Option.getD_some]
  refine h.change ?_ ?_ ?_
  · rw [hRows]
    refine h.safe.holds.of_rows (fun key _ hSome => Table.upsert_ne_none hSome) fun lane' => ?_
    by_cases hLane : tierKey lane' = tierKey lane
    · rw [hLane]
      exact .print serde (Function.update_self _ _ _)
    · exact (h.safe.holds.tier lane').of_eq (Table.upsert_of_notMem _ (by simpa using hLane))
  · intro s' hChosen
    obtain ⟨s, hs, rfl⟩ := Option.map_eq_some_iff.mp hChosen
    rw [sanitizeSettings_withTier, h.clamped s hs]
  · intro s' hChosen
    obtain ⟨s, hs, rfl⟩ := Option.map_eq_some_iff.mp hChosen
    rw [hRows]
    exact stored_withTier (h.stored s hs) lane tier

/-- A change that leaves the rows of the settings and their migrations alone. -/
theorem Kept.elsewhere (h : Kept serde text chosen p) {f : Table → Table}
    (hRows : ∀ key, key ∈ settingsKeys ∨ key = overlayHotkeyMigratedKey ∨
      key = sessionsGapCloseMigratedKey → f p.state key = p.state key) :
    Kept serde text chosen (p.change f) := by
  refine h.change ?_ h.clamped fun s hs => (h.stored s hs).of_rows fun key hMem => hRows key (.inl hMem)
  refine h.safe.holds.of_rows (fun key hMarker hSome => ?_) fun lane => ?_
  · rw [hRows key (.inr hMarker)]
    exact hSome
  · exact (h.safe.holds.tier lane).of_eq (hRows _ (.inl (tierKey_mem lane)))

theorem Kept.apply (hOverlay : ∀ input, fails input (.get overlayHotkeyMigratedKey) = false)
    (hGap : ∀ input, fails input (.get sessionsGapCloseMigratedKey) = false)
    (h : Kept serde text chosen p) (event : Event ι)
    (hForeign : ∀ kvs, event = .other kvs → Foreign kvs) :
    Kept serde text (event.choose chosen) (event.apply fails serde text p) := by
  cases event with
  | load =>
    refine ⟨h.safe.spawn h.safe.holds ⟨fun _ => True, fun _ _ _ _ _ _ => trivial, trivial, ?_⟩,
      h.clamped, h.stored⟩
    exact loadSettings_quietly hOverlay hGap
  | step who input => exact h.step who input
  | abandon who => exact ⟨h.safe.abandon who (), h.clamped, h.stored⟩
  | save s failed =>
    rcases failed
    · exact h.save s
    · exact h.elsewhere fun _ _ => rfl
  | setModelTier lane tier failed =>
    rcases failed
    · exact h.setModelTier lane tier
    · exact h.elsewhere fun _ _ => rfl
  | dropRetiredSettings failed =>
    refine h.elsewhere fun key hKey => ?_
    -- no setting is retired, and no marker
    have hKept : key ∉ retiredSettingsKeys := by
      intro hRetired
      rcases hKey with hKey | rfl | rfl
      · exact settingsKeys_own.2.2.2 key hRetired hKey
      · exact absurd hRetired (by decide)
      · exact absurd hRetired (by decide)
    rcases failed
    · show (deleteSettings retiredSettingsKeys p.state |>.getD p.state) key = _
      rw [dropRetired_eq, Option.getD_some, deleted_of_notMem hKept]
    · rfl
  | other kvs =>
    have hOthers := hForeign kvs rfl
    refine h.elsewhere fun key hKey => ?_
    refine committed_upsert (Q := fun t => t key = p.state key) rfl (Table.upsert_of_notMem _ ?_)
    rw [List.mem_map]
    rintro ⟨kv, hMem, rfl⟩
    obtain ⟨hSettings, hNotOverlay, hNotGap⟩ := hOthers kv hMem
    rcases hKey with hKey | hKey | hKey
    · exact hSettings hKey
    · exact hNotOverlay hKey
    · exact hNotGap hKey

/-- Whatever happens, the table holds what was chosen last. -/
theorem Kept.run (hOverlay : ∀ input, fails input (.get overlayHotkeyMigratedKey) = false)
    (hGap : ∀ input, fails input (.get sessionsGapCloseMigratedKey) = false)
    (events : List (Event ι)) (hForeign : ∀ kvs, .other kvs ∈ events → Foreign kvs)
    (h : Kept serde text chosen p) :
    Kept serde text (events.foldl Event.choose chosen)
      (events.foldl (Event.apply fails serde text) p) := by
  induction events generalizing chosen p with
  | nil => exact h
  | cons event events ih =>
    refine ih (fun kvs hMem => hForeign kvs (List.mem_cons_of_mem _ hMem)) ?_
    exact h.apply hOverlay hGap event fun kvs hEq => hForeign kvs (by rw [← hEq]; simp)

end

/-- Enough of the float texts for the defaults. -/
def defaultText : FloatText where
  print x :=
    if x = some 85 then "85" else if x = some 65 then "65" else if x = some 90 then "90"
    else if x = some 70 then "70" else "0.006"
  parse
    | "85" => some (some 85)
    | "65" => some (some 65)
    | "90" => some (some 90)
    | "70" => some (some 70)
    | "0.006" => some (some (6442451 / 1073741824))
    | _ => none

end ScreenSearch.Config
