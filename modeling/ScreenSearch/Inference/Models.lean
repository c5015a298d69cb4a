import Mathlib.Data.List.Basic
import Mathlib.Tactic.Common

/-!
# Model specifications

What the sidecar is launched with. `lane` and `tier` say where a model's files lie; the
other fields go into its arguments.

Main results:

* `buildArgs_eq_of_not_needsRestart` — a sidecar that need not be restarted has the
  arguments that were asked for;
* `spec_eq_of_not_needsRestart` — for models that were resolved under one root, it runs
  what was asked for.
-/

namespace ScreenSearch.Inference

inductive ModelLane where
  | vision | answer
  deriving DecidableEq, Inhabited, Repr

inductive ModelTier where
  | default | quality
  deriving DecidableEq, Inhabited, Repr

inductive KvCacheType where
  | f16 | q8_0 | q4_0
  deriving DecidableEq, Inhabited, Repr

def KvCacheType.asArg : KvCacheType → String
  | .f16 => "f16"
  | .q8_0 => "q8_0"
  | .q4_0 => "q4_0"

def KvCacheType.isQuantized (kv : KvCacheType) : Bool := decide (kv ≠ .f16)

inductive FlashAttnSetting where
  | auto | on | off
  deriving DecidableEq, Inhabited, Repr

inductive FlashAttnKind where
  | unsupported | boolFlag | enumOnOffAuto
  deriving DecidableEq, Repr

structure SidecarCaps where
  ctxSize : Bool
  cacheTypeK : Bool
  cacheTypeV : Bool
  flashAttnKind : FlashAttnKind
  deriving DecidableEq, Repr

/-- A path is the list of its components. -/
structure ModelSpec where
  lane : ModelLane
  tier : ModelTier
  ggufPath : List String
  mmprojPath : Option (List String)
  ngl : Nat
  device : Option String
  ctxSize : Nat
  kvCacheType : KvCacheType
  flashAttn : FlashAttnSetting
  deriving DecidableEq, Inhabited, Repr

def needsRestart (running requested : ModelSpec) : Bool :=
  decide (running.ggufPath ≠ requested.ggufPath) ||
  decide (running.mmprojPath ≠ requested.mmprojPath) ||
  decide (running.ngl ≠ requested.ngl) ||
  decide (running.device ≠ requested.device) ||
  decide (running.ctxSize ≠ requested.ctxSize) ||
  decide (running.kvCacheType ≠ requested.kvCacheType) ||
  decide (running.flashAttn ≠ requested.flashAttn)

/-! ## Arguments -/

inductive FlashState where
  | active | binaryUnsupported | userDisabled
  deriving DecidableEq, Repr

def pushFlashAttn (kind : FlashAttnKind) (setting : FlashAttnSetting) : List String × FlashState :=
  match kind, setting with
  | .unsupported, _ => ([], .binaryUnsupported)
  | .boolFlag, .off => ([], .userDisabled)
  | .boolFlag, _ => (["--flash-attn"], .active)
  | .enumOnOffAuto, .off => (["--flash-attn", "off"], .userDisabled)
  | .enumOnOffAuto, .auto => (["--flash-attn", "auto"], .active)
  | .enumOnOffAuto, .on => (["--flash-attn", "on"], .active)

def pushKvCache (caps : SidecarCaps) (kv : KvCacheType) (flash : FlashState) : List String :=
  if !kv.isQuantized || decide (flash ≠ .active) then []
  else
    (if caps.cacheTypeK then ["--cache-type-k", kv.asArg] else []) ++
    (if caps.cacheTypeV then ["--cache-type-v", kv.asArg] else [])

def pathText (path : List String) : String := "\\".intercalate path

def buildArgs (spec : ModelSpec) (port : Nat) (caps : SidecarCaps) : List String :=
  let (flashArgs, flash) := pushFlashAttn caps.flashAttnKind spec.flashAttn
  ["--model", pathText spec.ggufPath, "--host", "127.0.0.1", "--port", port.repr,
    "-ngl", spec.ngl.repr] ++
  (spec.mmprojPath.elim [] fun mmproj => ["--mmproj", pathText mmproj]) ++
  (spec.device.elim [] fun device => ["--device", device]) ++
  (if caps.ctxSize then ["--ctx-size", spec.ctxSize.repr] else []) ++
  flashArgs ++ pushKvCache caps spec.kvCacheType flash

/-! ## Specifications that need no restart -/

variable {running requested : ModelSpec}

theorem needsRestart_self (spec : ModelSpec) : needsRestart spec spec = false := by
  simp [needsRestart]

/-- All but the lane and the tier is compared. -/
theorem eq_of_not_needsRestart (h : needsRestart running requested = false) :
    { running with lane := requested.lane, tier := requested.tier } = requested := by
  simp only [needsRestart, Bool.or_eq_false_iff, decide_eq_false_iff_not, not_not] at h
  obtain ⟨⟨⟨⟨⟨⟨hGguf, hMmproj⟩, hNgl⟩, hDevice⟩, hCtx⟩, hKv⟩, hFlash⟩ := h
  rcases running with ⟨_, _, _, _, _, _, _, _, _⟩
  rcases requested with ⟨_, _, _, _, _, _, _, _, _⟩
  subst hGguf hMmproj hNgl hDevice hCtx hKv hFlash
  rfl

theorem buildArgs_eq_of_not_needsRestart (h : needsRestart running requested = false)
    (port : Nat) (caps : SidecarCaps) :
    buildArgs running port caps = buildArgs requested port caps := by
  rw [← eq_of_not_needsRestart h]
  rfl

def laneSlug : ModelLane → String
  | .vision => "vision"
  | .answer => "answer"

def tierSlug : ModelTier → String
  | .default => "default"
  | .quality => "quality"

def localDir (modelsRoot : List String) (lane : ModelLane) (tier : ModelTier) : List String :=
  modelsRoot ++ [laneSlug lane, tierSlug tier]

/-- `resolve_spec` takes the weights from the directory of the lane and the tier. -/
def ModelSpec.Resolved (modelsRoot : List String) (spec : ModelSpec) : Prop :=
  ∃ file, spec.ggufPath = localDir modelsRoot spec.lane spec.tier ++ [file]

theorem slugs_inj {lane lane' : ModelLane} {tier tier' : ModelTier}
    (h : [laneSlug lane, tierSlug tier] = [laneSlug lane', tierSlug tier']) :
    lane = lane' ∧ tier = tier' := by
  rcases lane <;> rcases lane' <;> rcases tier <;> rcases tier' <;> revert h <;> decide

theorem spec_eq_of_not_needsRestart {modelsRoot : List String}
    (hRunning : running.Resolved modelsRoot) (hRequested : requested.Resolved modelsRoot)
    (h : needsRestart running requested = false) : running = requested := by
  have hEq := eq_of_not_needsRestart h
  obtain ⟨file, hPath⟩ := hRunning
  obtain ⟨file', hPath'⟩ := hRequested
  have hSame : running.ggufPath = requested.ggufPath := by rw [← hEq]
  rw [hPath, hPath'] at hSame
  have hDirs := (List.append_inj' hSame rfl).1
  obtain ⟨hLane, hTier⟩ := slugs_inj (List.append_cancel_left hDirs)
  rw [← hEq, ← hLane, ← hTier]

end ScreenSearch.Inference
