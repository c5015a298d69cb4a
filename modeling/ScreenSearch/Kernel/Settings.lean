import ScreenSearch.App.Retention
import ScreenSearch.Lib.Text
import ScreenSearch.Lib.Threads
import ScreenSearch.Store.HistoryAllocator
import ScreenSearch.Traits.Settings

/-!
# Loading and saving the settings

The settings are rows of a table, a text under each key. They are saved in one transaction and
loaded key by key, while other loads and saves go on; a load also moves three values of older
versions, each once. Whatever is loaded or saved is clamped first.

Main results:

* `sanitizeSettings_idem` — what is clamped stays as it is, the defaults among it;
* `throttle_hysteresis` — each exit threshold is below its enter threshold.
-/

namespace ScreenSearch.Config

open Inference SerdeJson Threads

/-! ## The bounds -/

def clampU32 (value lo hi : UInt32) : UInt32 :=
  if value < lo then lo else if hi < value then hi else value

def clampF32 (value : F32) (lo hi : ℚ) : ℚ :=
  match value with
  | some v => if v < lo then lo else if hi < v then hi else v
  | none => lo

/-- Zero has a meaning of its own. -/
def zeroOr (value lo hi : UInt32) : UInt32 := if value = 0 then 0 else clampU32 value lo hi

def hotkeyOr (default hotkey : String) : String :=
  if (Text.trim hotkey).isEmpty then default else Text.trim hotkey

def trimDevice (device : Option String) : Option String :=
  device.bind fun d => if (Text.trim d).isEmpty then none else some (Text.trim d)

/-- Taking one from a float between one and a hundred loses nothing. -/
def sanitizeSettings (s : Settings) : Settings :=
  let cpuEnter := clampF32 s.throttleCpuEnterPct 1 100
  let gpuEnter := clampF32 s.throttleGpuEnterPct 1 100
  { s with
    captureIntervalMs := clampU32 s.captureIntervalMs 250 3_600_000
    captureDiffThreshold := some (clampF32 s.captureDiffThreshold 0 1)
    storageMaxWidth := zeroOr s.storageMaxWidth 320 7680
    storageRetentionDays := clampU32 s.storageRetentionDays 0 3650
    enrichWorkerConcurrency := clampU32 s.enrichWorkerConcurrency 1 16
    enrichVisionTimerIntervalMs := clampU32 s.enrichVisionTimerIntervalMs 60_000 86_400_000
    enrichVisionIdleSecs := clampU32 s.enrichVisionIdleSecs 60 86_400
    enrichVisionBatchSize := clampU32 s.enrichVisionBatchSize 1 500
    sidecarIdleTtlSecs := clampU32 s.sidecarIdleTtlSecs 0 86_400
    sidecarNgl := clampU32 s.sidecarNgl 0 999
    sidecarCtxSize := zeroOr s.sidecarCtxSize 512 32_768
    sidecarRecycleRssMb := zeroOr s.sidecarRecycleRssMb 8192 131_072
    sidecarDevice := trimDevice s.sidecarDevice
    textChromeSuppressMinSeen := clampU32 s.textChromeSuppressMinSeen 2 100_000
    textChromeProtectMinChars := clampU32 s.textChromeProtectMinChars 1 4_096
    textChromeRegionBuckets := clampU32 s.textChromeRegionBuckets 1 32
    retrievalDefaultTopK := clampU32 s.retrievalDefaultTopK 1 100
    reportsDailyTopK := clampU32 s.reportsDailyTopK 1 1_000
    reportsWeeklyTopK := clampU32 s.reportsWeeklyTopK 1 2_000
    reportsMapReduceMinFrames := clampU32 s.reportsMapReduceMinFrames 1 1_000
    captureEventDebounceMs := clampU32 s.captureEventDebounceMs 100 10_000
    captureEventMinIntervalMs := clampU32 s.captureEventMinIntervalMs 250 60_000
    captureEventIdleThresholdMs := clampU32 s.captureEventIdleThresholdMs 1_000 60_000
    captureEventFallbackIntervalMs := clampU32 s.captureEventFallbackIntervalMs 1_000 3_600_000
    captureUiaLatencyBudgetMs := clampU32 s.captureUiaLatencyBudgetMs 20 2_000
    captureUiaMinTextChars := clampU32 s.captureUiaMinTextChars 0 10_000
    captureUiaMaxNodes := clampU32 s.captureUiaMaxNodes 100 20_000
    captureUiaMaxTextpatternCalls := clampU32 s.captureUiaMaxTextpatternCalls 1 4_096
    captureUiaSuppressDuringInputMs := clampU32 s.captureUiaSuppressDuringInputMs 0 10_000
    overlayHotkey := hotkeyOr Settings.default.overlayHotkey s.overlayHotkey
    overlayMaxResults := clampU32 s.overlayMaxResults 1 50
    resumeMinDwellSecs := clampU32 s.resumeMinDwellSecs 10 86_400
    sessionsMinLenSecs := clampU32 s.sessionsMinLenSecs 30 3_600
    sessionsGapCloseSecs := clampU32 s.sessionsGapCloseSecs 60 3_600
    marksHotkey := hotkeyOr Settings.default.marksHotkey s.marksHotkey
    throttleCpuEnterPct := some cpuEnter
    throttleCpuExitPct := some (clampF32 s.throttleCpuExitPct 0 (cpuEnter - 1))
    throttleGpuEnterPct := some gpuEnter
    throttleGpuExitPct := some (clampF32 s.throttleGpuExitPct 0 (gpuEnter - 1))
    throttleEnterAfterMs := clampU32 s.throttleEnterAfterMs 500 120_000
    throttleExitAfterMs := clampU32 s.throttleExitAfterMs 500 300_000
    throttleSampleIntervalMs := clampU32 s.throttleSampleIntervalMs 250 10_000
    throttleEmbedTextFloor := clampU32 s.throttleEmbedTextFloor 1 16 }

theorem clampU32_of_bounds {v lo hi : UInt32} (hLow : lo ≤ v) (hHigh : v ≤ hi) :
    clampU32 v lo hi = v := by
  unfold clampU32
  grind

theorem clampU32_idem (value : UInt32) {lo hi : UInt32} (h : lo ≤ hi) :
    clampU32 (clampU32 value lo hi) lo hi = clampU32 value lo hi := by
  unfold clampU32
  split
  · grind
  · grind

theorem clampF32_bounds (value : F32) {lo hi : ℚ} (h : lo ≤ hi) :
    lo ≤ clampF32 value lo hi ∧ clampF32 value lo hi ≤ hi := by
  unfold clampF32
  split
  · grind
  · exact ⟨le_refl lo, h⟩

theorem clampF32_of_bounds {v lo hi : ℚ} (hLow : lo ≤ v) (hHigh : v ≤ hi) :
    clampF32 (some v) lo hi = v := by
  show (if v < lo then lo else if hi < v then hi else v) = v
  rw [if_neg (not_lt.mpr hLow), if_neg (not_lt.mpr hHigh)]

theorem clampF32_idem (value : F32) {lo hi : ℚ} (h : lo ≤ hi) :
    clampF32 (some (clampF32 value lo hi)) lo hi = clampF32 value lo hi :=
  clampF32_of_bounds (clampF32_bounds value h).1 (clampF32_bounds value h).2

theorem zeroOr_idem (value : UInt32) {lo hi : UInt32} (hLow : 0 < lo) (h : lo ≤ hi) :
    zeroOr (zeroOr value lo hi) lo hi = zeroOr value lo hi := by
  unfold zeroOr
  split
  · rfl
  · rw [if_neg, clampU32_idem value h]
    unfold clampU32
    grind

theorem hotkeyOr_idem {fallback : String} (hSome : (Text.trim fallback).isEmpty = false)
    (hTrim : Text.trim fallback = fallback) (hotkey : String) :
    hotkeyOr fallback (hotkeyOr fallback hotkey) = hotkeyOr fallback hotkey := by
  unfold hotkeyOr
  split
  · rw [if_neg (by rw [hSome]; decide), hTrim]
  · next h => rw [Text.trim_trim, if_neg h]

theorem trimDevice_idem (device : Option String) :
    trimDevice (trimDevice device) = trimDevice device := by
  rcases device with - | d
  · rfl
  · by_cases hBlank : Text.trim d = ""
    · simp [trimDevice, hBlank]
    · simp [trimDevice, hBlank, Text.trim_trim]

/-- What is clamped stays as it is. -/
theorem sanitizeSettings_idem (s : Settings) :
    sanitizeSettings (sanitizeSettings s) = sanitizeSettings s := by
  have hCpu := (clampF32_bounds s.throttleCpuEnterPct (show (1 : ℚ) ≤ 100 by decide)).1
  have hGpu := (clampF32_bounds s.throttleGpuEnterPct (show (1 : ℚ) ≤ 100 by decide)).1
  simp (disch := decide) only [sanitizeSettings, clampU32_idem, zeroOr_idem, hotkeyOr_idem,
    clampF32_idem, trimDevice_idem]
  rw [clampF32_idem _ (sub_nonneg.mpr hCpu), clampF32_idem _ (sub_nonneg.mpr hGpu)]

/-- The defaults are within the bounds. -/
theorem sanitizeSettings_default : sanitizeSettings Settings.default = Settings.default := by
  have hDiff : clampF32 (some (6442451 / 1073741824)) 0 1 = 6442451 / 1073741824 :=
    clampF32_of_bounds (by norm_num) (by norm_num)
  have hOverlay : hotkeyOr "Ctrl+Alt+Z" "Ctrl+Alt+Z" = "Ctrl+Alt+Z" := by decide
  have hMarks : hotkeyOr "Ctrl+Alt+M" "Ctrl+Alt+M" = "Ctrl+Alt+M" := by decide
  have hAuto : ∀ lo hi, zeroOr 0 lo hi = 0 := fun _ _ => rfl
  simp (disch := decide) only [sanitizeSettings, Settings.default, clampU32_of_bounds,
    clampF32_of_bounds, hDiff, hOverlay, hMarks, hAuto, trimDevice, Option.bind_none]
  rw [clampF32_of_bounds (by norm_num) (by norm_num), clampF32_of_bounds (by norm_num) (by norm_num)]

/-- Each exit threshold is below its enter threshold. -/
theorem throttle_hysteresis (s : Settings) :
    ∃ cpuEnter cpuExit gpuEnter gpuExit : ℚ,
      (sanitizeSettings s).throttleCpuEnterPct = some cpuEnter ∧
      (sanitizeSettings s).throttleCpuExitPct = some cpuExit ∧
      (sanitizeSettings s).throttleGpuEnterPct = some gpuEnter ∧
      (sanitizeSettings s).throttleGpuExitPct = some gpuExit ∧
      0 ≤ cpuExit ∧ cpuExit + 1 ≤ cpuEnter ∧ cpuEnter ≤ 100 ∧
      0 ≤ gpuExit ∧ gpuExit + 1 ≤ gpuEnter ∧ gpuEnter ≤ 100 := by
  have hCpu := clampF32_bounds s.throttleCpuEnterPct (show (1 : ℚ) ≤ 100 by decide)
  have hGpu := clampF32_bounds s.throttleGpuEnterPct (show (1 : ℚ) ≤ 100 by decide)
  have hCpuExit := clampF32_bounds s.throttleCpuExitPct (sub_nonneg.mpr hCpu.1)
  have hGpuExit := clampF32_bounds s.throttleGpuExitPct (sub_nonneg.mpr hGpu.1)
  exact ⟨_, _, _, _, rfl, rfl, rfl, rfl, hCpuExit.1, le_sub_iff_add_le.mp hCpuExit.2, hCpu.2,
    hGpuExit.1, le_sub_iff_add_le.mp hGpuExit.2, hGpu.2⟩

/-! ## The table -/

/-- The rows of the table by key. -/
abbrev Table := String → Option String

def Table.upsert (kvs : List (String × String)) (table : Table) : Table :=
  kvs.foldl (fun table kv => Function.update table kv.1 (some kv.2)) table

/-- One transaction, unless a key belongs to the history. -/
def setSettingsBatch (kvs : List (String × String)) (table : Table) : Option Table :=
  if kvs.any fun kv => Store.isHistoryMetadataKey kv.1 then none else some (table.upsert kvs)

def deleteSettings (keys : List String) (table : Table) : Option Table :=
  if keys.any Store.isHistoryMetadataKey then none
  else some (keys.foldl (fun table key => Function.update table key none) table)

/-- A call to the store. -/
inductive Call where
  | get (key : String)
  | set (kvs : List (String × String))

/-- A program that calls the store, call by call. -/
abbrev Load (ι : Type) := Thread ι Table Unit

section

variable {ι α : Type} (fails : ι → Call → Bool)

/-- `none` is a failed read. -/
def getSetting (key : String) : Load ι (Option (Option String)) :=
  Thread.atomically fun _ input table =>
    .ok (if fails input (.get key) then none else some (table key), table)

/-- Whether the rows were written. -/
def setSettings (kvs : List (String × String)) : Load ι Bool :=
  Thread.atomically fun _ input table =>
    match if fails input (.set kvs) then none else setSettingsBatch kvs table with
    | some table => .ok (true, table)
    | none => .ok (false, table)

/-! ## Loading -/

def u32Str (n : UInt32) : String := toString n.toNat

def parseU32 (raw : String) : Option UInt32 := (App.parseU32 raw).map UInt32.ofNat

def boolStr (b : Bool) : String := if b then "true" else "false"

def parseBool (raw : String) : Option Bool :=
  match Text.toAsciiLowercase (Text.trim raw) with
  | "true" | "1" | "yes" | "on" => some true
  | "false" | "0" | "no" | "off" => some false
  | _ => none

/-- How the standard library writes and reads floats. -/
structure FloatText where
  print : F32 → String
  parse : String → Option F32

/-- What is missing, or cannot be read, is the default. -/
def reading (parse : String → Option α) (key : String) (default : α) : Load ι α := do
  let answer ← getSetting fails key
  return ((answer.bind id).bind parse).getD default

def num (key : String) (default : UInt32) : Load ι UInt32 := reading fails parseU32 key default

def numF32 (text : FloatText) (key : String) (default : F32) : Load ι F32 :=
  reading fails text.parse key default

def boolean (key : String) (default : Bool) : Load ι Bool := reading fails parseBool key default

def json (serde : SerdeJson) (form : JsonForm α) (key : String) (default : α) : Load ι α :=
  reading fails (serde.parse form) key default

def onlyIf (condition : Bool) (x : Load ι Unit) : Load ι Unit :=
  if condition then x else pure ()

/-- The tier `beta` of older versions is `quality` now. -/
def loadTier (serde : SerdeJson) (key : String) (fallback : ModelTier) : Load ι ModelTier := do
  match ← getSetting fails key with
  | none | some none => return fallback
  | some (some raw) =>
    match serde.parse tierForm raw with
    | some tier => return tier
    | none =>
      if serde.parse textForm raw = some "beta" then do
        let _ ← setSettings fails [(key, print tierForm .quality)]
        return .quality
      else return fallback

def legacyOverlayHotkey : String := "Ctrl+Alt+Space"

def overlayHotkeyMigratedKey : String := "overlay.hotkey_migrated"

def markOverlayHotkeyMigrated : Load ι Unit := do
  let _ ← setSettings fails [(overlayHotkeyMigratedKey, "1")]

/-- The old default is replaced once, and the marker is set only after that. -/
def loadOverlayHotkey (serde : SerdeJson) (fallback : String) : Load ι String := do
  let marker ← getSetting fails overlayHotkeyMigratedKey
  let migrated := (marker.bind id).isSome
  match ← getSetting fails "overlay.hotkey" with
  | none => return fallback
  | some none => do
    onlyIf (!migrated) (markOverlayHotkeyMigrated fails)
    return fallback
  | some (some raw) =>
    match serde.parse textForm raw with
    | none => return fallback
    | some stored =>
      if migrated then return stored
      else if stored = legacyOverlayHotkey then do
        let persisted ← setSettings fails [("overlay.hotkey", print textForm fallback)]
        onlyIf persisted (markOverlayHotkeyMigrated fails)
        return fallback
      else do
        markOverlayHotkeyMigrated fails
        return stored

def legacySessionsGapCloseSecs : UInt32 := 300

def sessionsGapCloseMigratedKey : String := "sessions.gap_close_secs_migrated"

def markSessionsGapCloseMigrated : Load ι Unit := do
  let _ ← setSettings fails [(sessionsGapCloseMigratedKey, "1")]

/-- The value and its marker are written together. -/
def persistSessionsGapCloseMigration (value : UInt32) : Load ι Unit := do
  let _ ← setSettings fails
    [("sessions.gap_close_secs", u32Str value), (sessionsGapCloseMigratedKey, "1")]

def loadSessionsGapCloseSecs (fallback : UInt32) : Load ι UInt32 := do
  let marker ← getSetting fails sessionsGapCloseMigratedKey
  let migrated := (marker.bind id).isSome
  match ← getSetting fails "sessions.gap_close_secs" with
  | none => return fallback
  | some none => do
    onlyIf (!migrated) (persistSessionsGapCloseMigration fails fallback)
    return fallback
  | some (some raw) =>
    match parseU32 raw with
    | none => do
      onlyIf (!migrated) (markSessionsGapCloseMigrated fails)
      return fallback
    | some stored =>
      if migrated then return stored
      else if stored = legacySessionsGapCloseSecs then do
        persistSessionsGapCloseMigration fails fallback
        return fallback
      else do
        markSessionsGapCloseMigrated fails
        return stored

def loadSettings (serde : SerdeJson) (text : FloatText) : Load ι Settings := do
  let d := Settings.default
  let captureIntervalMs ← num fails "capture.interval_ms" d.captureIntervalMs
  let captureMonitors ← json fails serde monitorsForm "capture.monitors" d.captureMonitors
  let captureDiffThreshold ← numF32 fails text "capture.diff_threshold" d.captureDiffThreshold
  let storageMaxWidth ← num fails "storage.max_width" d.storageMaxWidth
  let storageRetentionDays ← num fails "storage.retention_days" d.storageRetentionDays
  let enrichEmbedText ← boolean fails "enrich.embed_text" d.enrichEmbedText
  let enrichVisionTimerEnabled ←
    boolean fails "enrich.vision_timer_enabled" d.enrichVisionTimerEnabled
  let enrichVisionTimerIntervalMs ←
    num fails "enrich.vision_timer_interval_ms" d.enrichVisionTimerIntervalMs
  let enrichVisionIdleEnabled ← boolean fails "enrich.vision_idle_enabled" d.enrichVisionIdleEnabled
  let enrichVisionIdleSecs ← num fails "enrich.vision_idle_secs" d.enrichVisionIdleSecs
  let enrichVisionBatchSize ← num fails "enrich.vision_batch_size" d.enrichVisionBatchSize
  let enrichWorkerConcurrency ← num fails "enrich.worker_concurrency" d.enrichWorkerConcurrency
  let modelsVisionTier ← loadTier fails serde "models.vision_tier" d.modelsVisionTier
  let modelsAnswerTier ← loadTier fails serde "models.answer_tier" d.modelsAnswerTier
  let answerThinking ← boolean fails "answer.thinking" d.answerThinking
  let sidecarIdleTtlSecs ← num fails "sidecar.idle_ttl_secs" d.sidecarIdleTtlSecs
  let sidecarNgl ← num fails "sidecar.ngl" d.sidecarNgl
  let sidecarDevice ← json fails serde deviceForm "sidecar.device" d.sidecarDevice
  let sidecarCtxSize ← num fails "sidecar.ctx_size" d.sidecarCtxSize
  let sidecarKvCacheType ← json fails serde kvCacheForm "sidecar.kv_cache_type" d.sidecarKvCacheType
  let sidecarFlashAttn ← json fails serde flashAttnForm "sidecar.flash_attn" d.sidecarFlashAttn
  let sidecarRecycleEnabled ← boolean fails "sidecar.recycle_enabled" d.sidecarRecycleEnabled
  let sidecarRecycleRssMb ← num fails "sidecar.recycle_rss_mb" d.sidecarRecycleRssMb
  let privacyExcludedApps ← json fails serde appsForm "privacy.excluded_apps" d.privacyExcludedApps
  let privacyPauseOnLock ← boolean fails "privacy.pause_on_lock" d.privacyPauseOnLock
  let textIncludeChromeDefault ←
    boolean fails "text.include_chrome_default" d.textIncludeChromeDefault
  let textChromeSuppressMinSeen ←
    num fails "text.chrome_suppress_min_seen" d.textChromeSuppressMinSeen
  let textChromeProtectMinChars ←
    num fails "text.chrome_protect_min_chars" d.textChromeProtectMinChars
  let textChromeRegionBuckets ← num fails "text.chrome_region_buckets" d.textChromeRegionBuckets
  let retrievalDefaultTopK ← num fails "retrieval.default_top_k" d.retrievalDefaultTopK
  let reportsDailyTopK ← num fails "reports.daily_top_k" d.reportsDailyTopK
  let reportsWeeklyTopK ← num fails "reports.weekly_top_k" d.reportsWeeklyTopK
  let reportsMapReduceMinFrames ←
    num fails "reports.map_reduce_min_frames" d.reportsMapReduceMinFrames
  let captureEventDrivenEnabled ←
    boolean fails "capture.event_driven_enabled" d.captureEventDrivenEnabled
  let captureEventOnForeground ←
    boolean fails "capture.event_on_foreground" d.captureEventOnForeground
  let captureEventOnIdle ← boolean fails "capture.event_on_idle" d.captureEventOnIdle
  let captureEventDebounceMs ← num fails "capture.event_debounce_ms" d.captureEventDebounceMs
  let captureEventMinIntervalMs ←
    num fails "capture.event_min_interval_ms" d.captureEventMinIntervalMs
  let captureEventIdleThresholdMs ←
    num fails "capture.event_idle_threshold_ms" d.captureEventIdleThresholdMs
  let captureEventFallbackIntervalMs ←
    num fails "capture.event_fallback_interval_ms" d.captureEventFallbackIntervalMs
  let captureUiaTextEnabled ← boolean fails "capture.uia_text_enabled" d.captureUiaTextEnabled
  let captureUiaLatencyBudgetMs ←
    num fails "capture.uia_latency_budget_ms" d.captureUiaLatencyBudgetMs
  let captureUiaMinTextChars ← num fails "capture.uia_min_text_chars" d.captureUiaMinTextChars
  let captureUiaViewControlOnly ←
    boolean fails "capture.uia_view_control_only" d.captureUiaViewControlOnly
  let captureUiaMaxNodes ← num fails "capture.uia_max_nodes" d.captureUiaMaxNodes
  let captureUiaMaxTextpatternCalls ←
    num fails "capture.uia_max_textpattern_calls" d.captureUiaMaxTextpatternCalls
  let captureUiaSuppressDuringInputMs ←
    num fails "capture.uia_suppress_during_input_ms" d.captureUiaSuppressDuringInputMs
  let overlayHotkey ← loadOverlayHotkey fails serde d.overlayHotkey
  let overlayMaxResults ← num fails "overlay.max_results" d.overlayMaxResults
  let resumeMinDwellSecs ← num fails "resume.min_dwell_secs" d.resumeMinDwellSecs
  let sessionsMinLenSecs ← num fails "sessions.min_len_secs" d.sessionsMinLenSecs
  let sessionsGapCloseSecs ← loadSessionsGapCloseSecs fails d.sessionsGapCloseSecs
  let marksHotkey ← json fails serde textForm "marks.hotkey" d.marksHotkey
  let throttleEnabled ← boolean fails "throttle.enabled" d.throttleEnabled
  let throttleCpuEnterPct ← numF32 fails text "throttle.cpu_enter_pct" d.throttleCpuEnterPct
  let throttleCpuExitPct ← numF32 fails text "throttle.cpu_exit_pct" d.throttleCpuExitPct
  let throttleGpuEnterPct ← numF32 fails text "throttle.gpu_enter_pct" d.throttleGpuEnterPct
  let throttleGpuExitPct ← numF32 fails text "throttle.gpu_exit_pct" d.throttleGpuExitPct
  let throttleEnterAfterMs ← num fails "throttle.enter_after_ms" d.throttleEnterAfterMs
  let throttleExitAfterMs ← num fails "throttle.exit_after_ms" d.throttleExitAfterMs
  let throttleSampleIntervalMs ← num fails "throttle.sample_interval_ms" d.throttleSampleIntervalMs
  let throttleEmbedTextFloor ← num fails "throttle.embed_text_floor" d.throttleEmbedTextFloor
  let appCloseToTray ← boolean fails "app.close_to_tray" d.appCloseToTray
  let appRunAtStartup ← boolean fails "app.run_at_startup" d.appRunAtStartup
  return sanitizeSettings
    {
      captureIntervalMs, captureMonitors, captureDiffThreshold, storageMaxWidth,
      storageRetentionDays, enrichEmbedText, enrichVisionTimerEnabled, enrichVisionTimerIntervalMs,
      enrichVisionIdleEnabled, enrichVisionIdleSecs, enrichVisionBatchSize,
      enrichWorkerConcurrency, modelsVisionTier, modelsAnswerTier, answerThinking,
      sidecarIdleTtlSecs, sidecarNgl, sidecarDevice, sidecarCtxSize, sidecarKvCacheType,
      sidecarFlashAttn, sidecarRecycleEnabled, sidecarRecycleRssMb, privacyExcludedApps,
      privacyPauseOnLock, textIncludeChromeDefault, textChromeSuppressMinSeen,
      textChromeProtectMinChars, textChromeRegionBuckets, retrievalDefaultTopK, reportsDailyTopK,
      reportsWeeklyTopK, reportsMapReduceMinFrames, captureEventDrivenEnabled,
      captureEventOnForeground, captureEventOnIdle, captureEventDebounceMs,
      captureEventMinIntervalMs, captureEventIdleThresholdMs, captureEventFallbackIntervalMs,
      captureUiaTextEnabled, captureUiaLatencyBudgetMs, captureUiaMinTextChars,
      captureUiaViewControlOnly, captureUiaMaxNodes, captureUiaMaxTextpatternCalls,
      captureUiaSuppressDuringInputMs, overlayHotkey, overlayMaxResults, resumeMinDwellSecs,
      sessionsMinLenSecs, sessionsGapCloseSecs, marksHotkey, throttleEnabled, throttleCpuEnterPct,
      throttleCpuExitPct, throttleGpuEnterPct, throttleGpuExitPct, throttleEnterAfterMs,
      throttleExitAfterMs, throttleSampleIntervalMs, throttleEmbedTextFloor, appCloseToTray,
      appRunAtStartup }

end

def retiredSettingsKeys : List String :=
  ["capture.event_on_clipboard", "capture.event_on_typing_pause", "capture.event_on_click",
    "capture.event_on_scroll_stop", "capture.event_typing_pause_ms", "enrich.image_embeddings",
    "storage.jpeg_quality", "capture.uia_run_on_interactive", "sessions.focus_min_len_secs",
    "sessions.focus_min_density_fph"]

/-! ## Saving -/

/-- The rows of settings that are clamped already. -/
def settingsRows (text : FloatText) (s : Settings) : List (String × String) :=
  [ ("capture.interval_ms", u32Str s.captureIntervalMs),
    ("capture.monitors", print monitorsForm s.captureMonitors),
    ("capture.diff_threshold", text.print s.captureDiffThreshold),
    ("storage.max_width", u32Str s.storageMaxWidth),
    ("storage.retention_days", u32Str s.storageRetentionDays),
    ("enrich.embed_text", boolStr s.enrichEmbedText),
    ("enrich.vision_timer_enabled", boolStr s.enrichVisionTimerEnabled),
    ("enrich.vision_timer_interval_ms", u32Str s.enrichVisionTimerIntervalMs),
    ("enrich.vision_idle_enabled", boolStr s.enrichVisionIdleEnabled),
    ("enrich.vision_idle_secs", u32Str s.enrichVisionIdleSecs),
    ("enrich.vision_batch_size", u32Str s.enrichVisionBatchSize),
    ("enrich.worker_concurrency", u32Str s.enrichWorkerConcurrency),
    ("models.vision_tier", print tierForm s.modelsVisionTier),
    ("models.answer_tier", print tierForm s.modelsAnswerTier),
    ("answer.thinking", boolStr s.answerThinking),
    ("sidecar.idle_ttl_secs", u32Str s.sidecarIdleTtlSecs),
    ("sidecar.ngl", u32Str s.sidecarNgl),
    ("sidecar.device", print deviceForm s.sidecarDevice),
    ("sidecar.ctx_size", u32Str s.sidecarCtxSize),
    ("sidecar.kv_cache_type", print kvCacheForm s.sidecarKvCacheType),
    ("sidecar.flash_attn", print flashAttnForm s.sidecarFlashAttn),
    ("sidecar.recycle_enabled", boolStr s.sidecarRecycleEnabled),
    ("sidecar.recycle_rss_mb", u32Str s.sidecarRecycleRssMb),
    ("privacy.excluded_apps", print appsForm s.privacyExcludedApps),
    ("privacy.pause_on_lock", boolStr s.privacyPauseOnLock),
    ("text.include_chrome_default", boolStr s.textIncludeChromeDefault),
    ("text.chrome_suppress_min_seen", u32Str s.textChromeSuppressMinSeen),
    ("text.chrome_protect_min_chars", u32Str s.textChromeProtectMinChars),
    ("text.chrome_region_buckets", u32Str s.textChromeRegionBuckets),
    ("retrieval.default_top_k", u32Str s.retrievalDefaultTopK),
    ("reports.daily_top_k", u32Str s.reportsDailyTopK),
    ("reports.weekly_top_k", u32Str s.reportsWeeklyTopK),
    ("reports.map_reduce_min_frames", u32Str s.reportsMapReduceMinFrames),
    ("capture.event_driven_enabled", boolStr s.captureEventDrivenEnabled),
    ("capture.event_on_foreground", boolStr s.captureEventOnForeground),
    ("capture.event_on_idle", boolStr s.captureEventOnIdle),
    ("capture.event_debounce_ms", u32Str s.captureEventDebounceMs),
    ("capture.event_min_interval_ms", u32Str s.captureEventMinIntervalMs),
    ("capture.event_idle_threshold_ms", u32Str s.captureEventIdleThresholdMs),
    ("capture.event_fallback_interval_ms", u32Str s.captureEventFallbackIntervalMs),
    ("capture.uia_text_enabled", boolStr s.captureUiaTextEnabled),
    ("capture.uia_latency_budget_ms", u32Str s.captureUiaLatencyBudgetMs),
    ("capture.uia_min_text_chars", u32Str s.captureUiaMinTextChars),
    ("capture.uia_view_control_only", boolStr s.captureUiaViewControlOnly),
    ("capture.uia_max_nodes", u32Str s.captureUiaMaxNodes),
    ("capture.uia_max_textpattern_calls", u32Str s.captureUiaMaxTextpatternCalls),
    ("capture.uia_suppress_during_input_ms", u32Str s.captureUiaSuppressDuringInputMs),
    ("overlay.hotkey", print textForm s.overlayHotkey),
    ("overlay.max_results", u32Str s.overlayMaxResults),
    ("resume.min_dwell_secs", u32Str s.resumeMinDwellSecs),
    ("sessions.min_len_secs", u32Str s.sessionsMinLenSecs),
    ("sessions.gap_close_secs", u32Str s.sessionsGapCloseSecs),
    ("marks.hotkey", print textForm s.marksHotkey),
    ("throttle.enabled", boolStr s.throttleEnabled),
    ("throttle.cpu_enter_pct", text.print s.throttleCpuEnterPct),
    ("throttle.cpu_exit_pct", text.print s.throttleCpuExitPct),
    ("throttle.gpu_enter_pct", text.print s.throttleGpuEnterPct),
    ("throttle.gpu_exit_pct", text.print s.throttleGpuExitPct),
    ("throttle.enter_after_ms", u32Str s.throttleEnterAfterMs),
    ("throttle.exit_after_ms", u32Str s.throttleExitAfterMs),
    ("throttle.sample_interval_ms", u32Str s.throttleSampleIntervalMs),
    ("throttle.embed_text_floor", u32Str s.throttleEmbedTextFloor),
    ("app.close_to_tray", boolStr s.appCloseToTray),
    ("app.run_at_startup", boolStr s.appRunAtStartup) ]

def saveSettings (text : FloatText) (s : Settings) (table : Table) : Option Table :=
  setSettingsBatch (settingsRows text (sanitizeSettings s)) table

end ScreenSearch.Config
