import ScreenSearch.Traits.Capture

/-!
# One turn of `next_frame`

A wake-up passes the privacy gate, asks the worker for a capture cycle, and queues the
frames that come back. What the operating system says at the gate is a `Probe`.
-/

namespace ScreenSearch.Capture

/-- What the Win32 calls of the gate return. -/
structure Probe where
  locked : Bool
  foregroundPid : Nat
  ownPid : Nat
  appHint : Option String
  windowTitle : Option String
  windowRect : Option (Int × Int × Int × Int)
  hwnd : Option Int
  deriving DecidableEq, Repr

def isOwnWindowPid (fgPid ownPid : Nat) : Bool :=
  decide (fgPid ≠ 0) && decide (ownPid ≠ 0) && decide (fgPid = ownPid)

/-- The reason with which a demand is denied, or nothing. -/
def privacyGate (config : CaptureConfig) (probe : Probe) : Option String :=
  if config.pauseOnLock && probe.locked then some "the workstation is locked"
  else if isOwnWindowPid probe.foregroundPid probe.ownPid then
    some "a ScreenSearch window is focused"
  else if isExcluded probe.appHint probe.windowTitle config.excludedApps then
    some "the focused app is excluded from capture"
  else none

/-! ## Monitors -/

structure MonitorBounds where
  index : Nat
  left : Int
  top : Int
  width : Int
  height : Int
  deriving DecidableEq, Repr

def clampUnit (x : ℚ) : ℚ := max 0 (min x 1)

/-- Nothing unless the centre of the window lies on the monitor. -/
def normalizeWindowRect (win : Int × Int × Int × Int) (mon : MonitorBounds) :
    Option (ℚ × ℚ × ℚ × ℚ) :=
  let (wl, wt, wr, wb) := win
  if mon.width ≤ 0 || mon.height ≤ 0 || wr ≤ wl || wb ≤ wt then none
  else
    let cx := (wl + wr).tdiv 2
    let cy := (wt + wb).tdiv 2
    if cx < mon.left || cx ≥ mon.left + mon.width || cy < mon.top || cy ≥ mon.top + mon.height then
      none
    else
      let mw : ℚ := mon.width
      let mh : ℚ := mon.height
      let nx := clampUnit (((wl - mon.left : Int) : ℚ) / mw)
      let ny := clampUnit (((wt - mon.top : Int) : ℚ) / mh)
      let nr := clampUnit (((wr - mon.left : Int) : ℚ) / mw)
      let nb := clampUnit (((wb - mon.top : Int) : ℚ) / mh)
      some (nx, ny, max (nr - nx) 0, max (nb - ny) 0)

/-- The monitor that holds the foreground window, else the primary one, else the first. -/
def selectTargetMonitor (fgRect : Option (Int × Int × Int × Int)) (bounds : List MonitorBounds)
    (monitors : List MonitorInfo) : Nat :=
  let held := fgRect.bind fun rect => bounds.find? fun b => (normalizeWindowRect rect b).isSome
  match held with
  | some b => b.index
  | none =>
    (((monitors.find? fun m => m.isPrimary).orElse fun _ => monitors.head?).map
      MonitorInfo.index).getD 0

/-! ## A cycle -/

/-- A changed frame, as the worker replies with it. -/
structure FrameData where
  monitorIndex : Nat
  width : Nat
  height : Nat
  rgba : List UInt8
  contentHash : String
  deriving DecidableEq, Repr

/-- What `WgcCapture` keeps from its start on. -/
structure Setup where
  config : CaptureConfig
  monitors : List MonitorInfo
  monitorBounds : List MonitorBounds
  deriving DecidableEq, Repr

/-- The monitor whose diff gate the cycle bypasses, which only a demand does. -/
def bypassFor (setup : Setup) (probe : Probe) (demanded : Bool) : Option Nat :=
  if demanded then
    some (selectTargetMonitor probe.windowRect setup.monitorBounds setup.monitors)
  else none

/-- One of the frames that the cycle queues. -/
def capturedFrame (setup : Setup) (probe : Probe) (trigger : CaptureTrigger)
    (bypass : Option Nat) (capturedAt : Int) (fd : FrameData) : Option CapturedFrame :=
  (RgbaImage.fromRaw fd.width fd.height fd.rgba).map fun pixels =>
    { monitorIndex := fd.monitorIndex
      width := fd.width
      height := fd.height
      capturedAt := capturedAt
      pixels := pixels
      contentHash := fd.contentHash
      appHint := probe.appHint
      windowTitle := probe.windowTitle
      targetRect := probe.windowRect.bind fun rect =>
        (setup.monitorBounds.find? fun b => b.index == fd.monitorIndex).bind
          (normalizeWindowRect rect)
      foregroundHwnd := probe.hwnd
      trigger := trigger
      demanded := decide (bypass = some fd.monitorIndex) }

def cycleFrames (setup : Setup) (probe : Probe) (trigger : CaptureTrigger)
    (bypass : Option Nat) (capturedAt : Int) (frames : List FrameData) : List CapturedFrame :=
  frames.filterMap (capturedFrame setup probe trigger bypass capturedAt)

/-- What the worker acknowledges a demand with. -/
def demandAck (queued : List CapturedFrame) : Except String Unit :=
  if queued.any CapturedFrame.demanded then .ok ()
  else .error "no frame captured for the foreground monitor"

end ScreenSearch.Capture
