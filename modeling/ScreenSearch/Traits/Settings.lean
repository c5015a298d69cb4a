import Mathlib.Algebra.Order.Ring.Unbundled.Rat
import ScreenSearch.Inference.Models
import ScreenSearch.Lib.Json

/-!
# The settings

What the user can set, its defaults, and how the values that are no plain numbers or switches are
written as JSON.

Main results:

* `SerdeJson.parse_print` — what is written that way is read back.
-/

namespace ScreenSearch.Config

open Inference

/-- A float; `none` is not finite. -/
abbrev F32 := Option ℚ

structure Settings where
  captureIntervalMs : UInt32
  captureMonitors : List UInt32
  captureDiffThreshold : F32
  storageMaxWidth : UInt32
  storageRetentionDays : UInt32
  enrichEmbedText : Bool
  enrichVisionTimerEnabled : Bool
  enrichVisionTimerIntervalMs : UInt32
  enrichVisionIdleEnabled : Bool
  enrichVisionIdleSecs : UInt32
  enrichVisionBatchSize : UInt32
  enrichWorkerConcurrency : UInt32
  modelsVisionTier : ModelTier
  modelsAnswerTier : ModelTier
  answerThinking : Bool
  sidecarIdleTtlSecs : UInt32
  sidecarNgl : UInt32
  sidecarDevice : Option String
  sidecarCtxSize : UInt32
  sidecarKvCacheType : KvCacheType
  sidecarFlashAttn : FlashAttnSetting
  sidecarRecycleEnabled : Bool
  sidecarRecycleRssMb : UInt32
  privacyExcludedApps : List String
  privacyPauseOnLock : Bool
  textIncludeChromeDefault : Bool
  textChromeSuppressMinSeen : UInt32
  textChromeProtectMinChars : UInt32
  textChromeRegionBuckets : UInt32
  retrievalDefaultTopK : UInt32
  reportsDailyTopK : UInt32
  reportsWeeklyTopK : UInt32
  reportsMapReduceMinFrames : UInt32
  captureEventDrivenEnabled : Bool
  captureEventOnForeground : Bool
  captureEventOnIdle : Bool
  captureEventDebounceMs : UInt32
  captureEventMinIntervalMs : UInt32
  captureEventIdleThresholdMs : UInt32
  captureEventFallbackIntervalMs : UInt32
  captureUiaTextEnabled : Bool
  captureUiaLatencyBudgetMs : UInt32
  captureUiaMinTextChars : UInt32
  captureUiaViewControlOnly : Bool
  captureUiaMaxNodes : UInt32
  captureUiaMaxTextpatternCalls : UInt32
  captureUiaSuppressDuringInputMs : UInt32
  overlayHotkey : String
  overlayMaxResults : UInt32
  resumeMinDwellSecs : UInt32
  sessionsMinLenSecs : UInt32
  sessionsGapCloseSecs : UInt32
  marksHotkey : String
  throttleEnabled : Bool
  throttleCpuEnterPct : F32
  throttleCpuExitPct : F32
  throttleGpuEnterPct : F32
  throttleGpuExitPct : F32
  throttleEnterAfterMs : UInt32
  throttleExitAfterMs : UInt32
  throttleSampleIntervalMs : UInt32
  throttleEmbedTextFloor : UInt32
  appCloseToTray : Bool
  appRunAtStartup : Bool
  deriving DecidableEq, Repr

/-- The diff threshold is the float that is closest to 0.006. -/
def Settings.default : Settings where
  captureIntervalMs := 3000
  captureMonitors := []
  captureDiffThreshold := some (6442451 / 1073741824)
  storageMaxWidth := 0
  storageRetentionDays := 30
  enrichEmbedText := true
  enrichVisionTimerEnabled := false
  enrichVisionTimerIntervalMs := 3_600_000
  enrichVisionIdleEnabled := false
  enrichVisionIdleSecs := 300
  enrichVisionBatchSize := 20
  enrichWorkerConcurrency := 2
  modelsVisionTier := .default
  modelsAnswerTier := .default
  answerThinking := true
  sidecarIdleTtlSecs := 180
  sidecarNgl := 99
  sidecarDevice := none
  sidecarCtxSize := 0
  sidecarKvCacheType := .q8_0
  sidecarFlashAttn := .auto
  sidecarRecycleEnabled := true
  sidecarRecycleRssMb := 0
  privacyExcludedApps := ["1Password", "KeePass", "Bitwarden"]
  privacyPauseOnLock := true
  textIncludeChromeDefault := false
  textChromeSuppressMinSeen := 4
  textChromeProtectMinChars := 48
  textChromeRegionBuckets := 8
  retrievalDefaultTopK := 8
  reportsDailyTopK := 40
  reportsWeeklyTopK := 200
  reportsMapReduceMinFrames := 20
  captureEventDrivenEnabled := false
  captureEventOnForeground := true
  captureEventOnIdle := false
  captureEventDebounceMs := 500
  captureEventMinIntervalMs := 1000
  captureEventIdleThresholdMs := 5000
  captureEventFallbackIntervalMs := 30_000
  captureUiaTextEnabled := true
  captureUiaLatencyBudgetMs := 150
  captureUiaMinTextChars := 16
  captureUiaViewControlOnly := true
  captureUiaMaxNodes := 4000
  captureUiaMaxTextpatternCalls := 64
  captureUiaSuppressDuringInputMs := 500
  overlayHotkey := "Ctrl+Alt+Z"
  overlayMaxResults := 8
  resumeMinDwellSecs := 120
  sessionsMinLenSecs := 120
  sessionsGapCloseSecs := 120
  marksHotkey := "Ctrl+Alt+M"
  throttleEnabled := false
  throttleCpuEnterPct := some 85
  throttleCpuExitPct := some 65
  throttleGpuEnterPct := some 90
  throttleGpuExitPct := some 70
  throttleEnterAfterMs := 5000
  throttleExitAfterMs := 8000
  throttleSampleIntervalMs := 1000
  throttleEmbedTextFloor := 1
  appCloseToTray := true
  appRunAtStartup := false

/-! ## JSON -/

/-- How a type is written as JSON, and what of it is read. -/
structure JsonForm (α : Type) where
  toJson : α → Json
  ofJson : Json → Option α
  ofJson_toJson : ∀ a, ofJson (toJson a) = some a

/-- A variant without data is its name, which may also be the only key of an object. -/
def variantName : Json → Option String
  | .str name => some name
  | .obj [(name, .null)] => some name
  | _ => none

def ofText : Json → Option String
  | .str text => some text
  | _ => none

def ofNumber : Json → Option UInt32
  | .num n => if 0 ≤ n ∧ n < 2 ^ 32 then some (UInt32.ofNat n.toNat) else none
  | _ => none

theorem ofNumber_num (n : UInt32) : ofNumber (.num n.toNat) = some n := by
  have hRange : (0 : Int) ≤ n.toNat ∧ (n.toNat : Int) < 2 ^ 32 := by
    have := n.toNat_lt
    omega
  rw [ofNumber, if_pos hRange, Int.toNat_natCast, UInt32.ofNat_toNat]

def ofItems {α : Type} (ofItem : Json → Option α) : Json → Option (List α)
  | .arr items => items.mapM ofItem
  | _ => none

theorem mapM_map {α : Type} {toItem : α → Json} {ofItem : Json → Option α}
    (hItem : ∀ a, ofItem (toItem a) = some a) (items : List α) :
    (items.map toItem).mapM ofItem = some items := by
  induction items with
  | nil => rfl
  | cons item items ih => simp [hItem, ih]

def textForm : JsonForm String where
  toJson := .str
  ofJson := ofText
  ofJson_toJson _ := rfl

def appsForm : JsonForm (List String) where
  toJson apps := .arr (apps.map .str)
  ofJson := ofItems ofText
  ofJson_toJson := mapM_map fun _ => rfl

def monitorsForm : JsonForm (List UInt32) where
  toJson monitors := .arr (monitors.map fun n : UInt32 => Json.num n.toNat)
  ofJson := ofItems ofNumber
  ofJson_toJson := mapM_map ofNumber_num

def deviceForm : JsonForm (Option String) where
  toJson
    | none => .null
    | some device => .str device
  ofJson
    | .null => some none
    | .str device => some (some device)
    | _ => none
  ofJson_toJson device := by rcases device with - | device <;> rfl

def tierOfName : String → Option ModelTier
  | "default" => some .default
  | "quality" => some .quality
  | _ => none

def tierForm : JsonForm ModelTier where
  toJson
    | .default => .str "default"
    | .quality => .str "quality"
  ofJson json := (variantName json).bind tierOfName
  ofJson_toJson tier := by rcases tier <;> rfl

def kvCacheOfName : String → Option KvCacheType
  | "f16" => some .f16
  | "q8_0" => some .q8_0
  | "q4_0" => some .q4_0
  | _ => none

def kvCacheForm : JsonForm KvCacheType where
  toJson kv := .str kv.asArg
  ofJson json := (variantName json).bind kvCacheOfName
  ofJson_toJson kv := by rcases kv <;> rfl

def flashAttnOfName : String → Option FlashAttnSetting
  | "auto" => some .auto
  | "on" => some .on
  | "off" => some .off
  | _ => none

def flashAttnForm : JsonForm FlashAttnSetting where
  toJson
    | .auto => .str "auto"
    | .on => .str "on"
    | .off => .str "off"
  ofJson json := (variantName json).bind flashAttnOfName
  ofJson_toJson flash := by rcases flash <;> rfl

/-- The JSON reader; it takes more than the compact texts that are written, and says nothing of
values that no setting has. -/
structure SerdeJson where
  fromStr : String → Option Json
  fromStr_render : ∀ json, fromStr (String.ofList (Json.render json)) = some json

namespace SerdeJson

/-- A reader of compact texts only. -/
def compact : SerdeJson where
  fromStr raw := Json.decode raw.toList
  fromStr_render json := by rw [String.toList_ofList, Json.decode_render]

variable {α : Type}

def parse (serde : SerdeJson) (form : JsonForm α) (raw : String) : Option α :=
  (serde.fromStr raw).bind form.ofJson

def print (form : JsonForm α) (value : α) : String :=
  String.ofList (Json.render (form.toJson value))

theorem parse_print (serde : SerdeJson) (form : JsonForm α) (value : α) :
    serde.parse form (print form value) = some value := by
  rw [parse, print, serde.fromStr_render, Option.bind_some, form.ofJson_toJson]

end SerdeJson

end ScreenSearch.Config
