import ScreenSearch.Lib.Text
import Mathlib.Algebra.Order.Ring.Rat
import Mathlib.Data.Rat.Defs

/-!
# Captured frames

What the capture source hands to the kernel, and what excludes a window from capture.
-/

namespace ScreenSearch

inductive CaptureTrigger where
  | timer | idle | foregroundChange | clipboardChange | typingPause | click | scrollStop | manual
  deriving DecidableEq, Repr

structure MonitorInfo where
  index : Nat
  name : String
  width : Nat
  height : Nat
  isPrimary : Bool
  deriving DecidableEq, Repr

/-- Four bytes a pixel, row after row. -/
structure RgbaImage where
  width : Nat
  height : Nat
  raw : List UInt8
  deriving DecidableEq, Repr

structure CapturedFrame where
  monitorIndex : Nat
  width : Nat
  height : Nat
  capturedAt : Int
  pixels : RgbaImage
  contentHash : String
  appHint : Option String
  windowTitle : Option String
  targetRect : Option (ℚ × ℚ × ℚ × ℚ)
  foregroundHwnd : Option Int
  trigger : CaptureTrigger
  demanded : Bool
  deriving DecidableEq, Repr

/-- The settings that the capture source reads in a cycle. -/
structure CaptureConfig where
  monitors : List Nat
  diffThreshold : ℚ
  excludedApps : List String
  pauseOnLock : Bool
  deriving DecidableEq, Repr

def isExcluded (app title : Option String) (excluded : List String) : Bool :=
  let app := Text.toAsciiLowercase (app.getD "")
  let title := Text.toAsciiLowercase (title.getD "")
  excluded.any fun entry =>
    let needle := Text.toAsciiLowercase (Text.trim entry)
    !needle.isEmpty && (Text.contains app needle || Text.contains title needle)

/-- `RgbaImage::from_raw`: the bytes have to be enough. -/
def RgbaImage.fromRaw (width height : Nat) (raw : List UInt8) : Option RgbaImage :=
  if width * height * 4 ≤ raw.length then some ⟨width, height, raw⟩ else none

end ScreenSearch
