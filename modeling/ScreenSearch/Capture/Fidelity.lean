import ScreenSearch.Capture.Wgc

/-!
# What a captured frame shows

A pool that is full keeps its oldest images, and a wake-up that the gate turns down does not
drain it. So the image that a later cycle grabs can be of a window that the gate never saw.

Main results:

* `nextFrame_faithful` — in a run in which no cycle finds an image from before the last
  change of the foreground window or the lock, every frame shows the screen at a moment at
  which its window was in the foreground and the gate would have let it through;
* `excluded_screen` — a run in which a frame shows the window that the user excluded.
-/

namespace ScreenSearch.Capture

/-- What the gate would read, and what every screen shows. -/
structure Moment where
  probe : Probe
  screens : Nat → RgbaImage

/-- A frame, and the image it was made of. -/
structure SeenFrame where
  frame : CapturedFrame
  shown : Shown
  deriving DecidableEq, Repr

/-- The capture source on a desktop. `earlier` are the moments before this one, the oldest
first, and `changed` is the number of the moment at which the foreground window or the lock
changed last; they and `returned` record what happened, and nothing reads them. -/
structure Desktop where
  setup : Setup
  now : Moment
  monitors : List MonitorState
  queue : List SeenFrame
  earlier : List Moment
  changed : Nat
  returned : List SeenFrame

def Desktop.start (setup : Setup) (now : Moment) : Desktop where
  setup := setup
  now := now
  monitors := setup.monitors.map fun info =>
    { info := info, pool := .empty, redelivers := true, prev := none }
  queue := []
  earlier := []
  changed := 0
  returned := []

def Desktop.moments (s : Desktop) : List Moment := s.earlier ++ [s.now]

/-- An image of a monitor's screen as it is now. -/
def Desktop.shownNow (s : Desktop) (monitor : Nat) : Shown :=
  ⟨s.now.screens monitor, s.earlier.length⟩

/-- The system puts such an image into the monitor's pool. -/
def Desktop.deliver (s : Desktop) (monitor : Nat) : Desktop :=
  { s with monitors := s.monitors.map fun ms =>
      if ms.info.index = monitor then { ms with pool := ms.pool.push (s.shownNow monitor) } else ms }

def Desktop.screenUpdate (s : Desktop) (monitor : Nat) (image : RgbaImage) : Desktop :=
  { s with
    earlier := s.earlier ++ [s.now]
    now := { s.now with screens := Function.update s.now.screens monitor image } }.deliver monitor

/-- Another window comes to the foreground, or the lock changes. -/
def Desktop.change (s : Desktop) (probe : Probe) : Desktop :=
  { s with
    earlier := s.earlier ++ [s.now]
    now := { s.now with probe := probe }
    changed := s.earlier.length + 1 }

/-- The image of a new pool comes before a cycle asks for it. -/
def Desktop.redeliver (s : Desktop) (monitor : Nat) : Desktop :=
  if s.monitors.any fun ms => decide (ms.info.index = monitor) && ms.redelivers then
    let s := s.deliver monitor
    { s with monitors := s.monitors.map fun ms =>
        if ms.info.index = monitor then { ms with redelivers := false } else ms }
  else s

/-- `next_frame` from a wake-up to its next wait; nothing changes in between. -/
def Desktop.cycle (contentHash : RgbaImage → String) (s : Desktop) (trigger : CaptureTrigger)
    (demanded : Bool) (capturedAt : Int) (sys : Nat → Grabbing) : Desktop :=
  if s.queue.isEmpty && (privacyGate s.setup.config s.now.probe).isNone then
    let bypass := bypassFor s.setup s.now.probe demanded
    let (frames, monitors) :=
      captureAll contentHash s.setup.config.diffThreshold sys bypass s.shownNow s.monitors
    { s with
      monitors := monitors
      queue := s.queue ++ frames.filterMap fun (fd, shown) =>
        (capturedFrame s.setup s.now.probe trigger bypass capturedAt fd).map fun frame =>
          ⟨frame, shown⟩ }
  else s

def Desktop.nextFrame (s : Desktop) : Desktop :=
  match s.queue with
  | seen :: rest => { s with queue := rest, returned := s.returned ++ [seen] }
  | [] => s

/-! ## Runs -/

inductive DesktopEvent where
  | screenUpdate (monitor : Nat) (image : RgbaImage)
  /-- Another window is in the foreground, or the same one with another title or place. -/
  | foreground (window : Probe)
  | lock (locked : Bool)
  | redeliver (monitor : Nat)
  | cycle (trigger : CaptureTrigger) (demanded : Bool) (capturedAt : Int) (sys : Nat → Grabbing)
  | nextFrame

def Desktop.step (contentHash : RgbaImage → String) (s : Desktop) : DesktopEvent → Desktop
  | .screenUpdate monitor image => s.screenUpdate monitor image
  | .foreground window =>
    s.change { window with locked := s.now.probe.locked, ownPid := s.now.probe.ownPid }
  | .lock locked => s.change { s.now.probe with locked := locked }
  | .redeliver monitor => s.redeliver monitor
  | .cycle trigger demanded capturedAt sys => s.cycle contentHash trigger demanded capturedAt sys
  | .nextFrame => s.nextFrame

def Desktop.run (contentHash : RgbaImage → String) (s : Desktop) (events : List DesktopEvent) :
    Desktop := events.foldl (Desktop.step contentHash) s

/-- The frame is what its monitor showed at the moment, and its window was in the foreground
then, neither excluded nor our own, with the workstation not locked against capture. -/
def Moment.shows (config : CaptureConfig) (seen : SeenFrame) (moment : Moment) : Bool :=
  decide (seen.frame.pixels = moment.screens seen.frame.monitorIndex) &&
    decide (moment.probe.appHint = seen.frame.appHint) &&
    decide (moment.probe.windowTitle = seen.frame.windowTitle) &&
    (privacyGate config moment.probe).isNone

/-- Every frame that `next_frame` returned shows the moment that its image is of. -/
def Desktop.faithful (s : Desktop) : Bool :=
  s.returned.all fun seen =>
    (s.moments[seen.shown.taken]?.map (Moment.shows s.setup.config seen)).getD false

/-- The cycle passes the gate, and the newest image in some pool is from before the last
change of the foreground window or the lock. -/
def Desktop.findsOld (s : Desktop) : DesktopEvent → Bool
  | .cycle _ _ _ _ => s.queue.isEmpty && (privacyGate s.setup.config s.now.probe).isNone &&
      s.monitors.any fun ms =>
        (ms.pool.items.getLast?.map fun shown => decide (shown.taken < s.changed)).getD false
  | _ => false

/-- No cycle of the run does so. -/
def Desktop.neverOld (contentHash : RgbaImage → String) : Desktop → List DesktopEvent → Bool
  | _, [] => true
  | s, event :: events =>
    !s.findsOld event && (s.step contentHash event).neverOld contentHash events

/-! ## The invariant -/

variable {s : Desktop} {contentHash : RgbaImage → String}

/-- The image is of the monitor's screen at the moment that it says it is of. -/
def Desktop.Took (s : Desktop) (monitor : Nat) (shown : Shown) : Prop :=
  ∃ moment, s.moments[shown.taken]? = some moment ∧ moment.screens monitor = shown.image

structure Desktop.Inv (s : Desktop) : Prop where
  waiting : ∀ ms ∈ s.monitors, ∀ shown ∈ ms.pool.items, s.Took ms.info.index shown
  /-- The window and the lock are as they were since the last change. -/
  unchanged : ∀ i moment, s.changed ≤ i → s.moments[i]? = some moment →
    moment.probe = s.now.probe
  seen : ∀ seen ∈ s.queue ++ s.returned, ∃ moment, s.moments[seen.shown.taken]? = some moment ∧
    moment.shows s.setup.config seen = true

theorem start_inv (setup : Setup) (now : Moment) : (Desktop.start setup now).Inv where
  waiting := by
    intro ms hMonitor shown hShown
    obtain ⟨info, -, rfl⟩ := List.mem_map.mp hMonitor
    cases hShown
  unchanged := by
    intro i moment _ hMoment
    rw [List.mem_singleton.mp (List.mem_of_getElem? hMoment)]
  seen := fun _ hSeen => by cases hSeen

theorem getElem?_grown {α : Type*} {xs ys : List α} {i : Nat} {a : α} (h : xs[i]? = some a) :
    (xs ++ ys)[i]? = some a := by
  rw [List.getElem?_append_left (List.getElem?_eq_some_iff.mp h).1]
  exact h

theorem took_now (s : Desktop) (monitor : Nat) : s.Took monitor (s.shownNow monitor) :=
  ⟨s.now, by simp [Desktop.moments, Desktop.shownNow], rfl⟩

/-- Only what `push` keeps is in the pool. -/
theorem mem_push {α : Type*} {capacity : Nat} {q : BoundedFifo α capacity} {a b : α}
    (h : b ∈ (q.push a).items) : b ∈ q.items ∨ b = a := by
  unfold BoundedFifo.push at h
  split at h
  · simpa using h
  · exact .inl h

theorem Desktop.Inv.deliver (h : s.Inv) (monitor : Nat) : (s.deliver monitor).Inv where
  waiting := by
    intro after hAfter shown hShown
    obtain ⟨ms, hMonitor, rfl⟩ := List.mem_map.mp hAfter
    split at hShown
    · next hIndex =>
      rw [if_pos hIndex]
      rcases mem_push hShown with hOld | rfl
      · exact h.waiting ms hMonitor shown hOld
      · rw [← hIndex]
        exact took_now s ms.info.index
    · next hIndex =>
      rw [if_neg hIndex]
      exact h.waiting ms hMonitor shown hShown
  unchanged := h.unchanged
  seen := h.seen

/-- Time goes on: what is true of the earlier moments stays so. -/
theorem Desktop.Inv.advance (h : s.Inv) (now : Moment) {changed : Nat}
    (hChanged : changed = s.earlier.length + 1 ∨
      changed = s.changed ∧ now.probe = s.now.probe) :
    { s with earlier := s.earlier ++ [s.now], now := now, changed := changed }.Inv where
  waiting := by
    intro ms hMonitor shown hShown
    obtain ⟨moment, hMoment, hScreen⟩ := h.waiting ms hMonitor shown hShown
    exact ⟨moment, getElem?_grown hMoment, hScreen⟩
  unchanged := by
    intro i moment hLe hMoment
    change (s.moments ++ [now])[i]? = some moment at hMoment
    have hLength : s.moments.length = s.earlier.length + 1 := by simp [Desktop.moments]
    rcases Nat.lt_or_ge i s.moments.length with hOld | hNew
    · rw [List.getElem?_append_left hOld] at hMoment
      rcases hChanged with rfl | ⟨rfl, hSame⟩
      · change s.earlier.length + 1 ≤ i at hLe
        omega
      · exact (h.unchanged i moment hLe hMoment).trans hSame.symm
    · rw [List.getElem?_append_right hNew] at hMoment
      rw [List.mem_singleton.mp (List.mem_of_getElem? hMoment)]
  seen := by
    intro seen hSeen
    obtain ⟨moment, hMoment, hShows⟩ := h.seen seen hSeen
    exact ⟨moment, getElem?_grown hMoment, hShows⟩

/-! ## Steps -/

theorem redeliver_inv (h : s.Inv) (monitor : Nat) : (s.redeliver monitor).Inv := by
  unfold Desktop.redeliver
  split
  · have hDelivered := h.deliver monitor
    refine ⟨fun after hAfter => ?_, hDelivered.unchanged, hDelivered.seen⟩
    obtain ⟨ms, hMonitor, rfl⟩ := List.mem_map.mp hAfter
    dsimp only
    split <;> exact hDelivered.waiting ms hMonitor
  · exact h

/-- An image from after the last change is of the window that the gate sees. -/
theorem grabbed_shows (h : s.Inv) {ms : MonitorState} (hMonitor : ms ∈ s.monitors) {shown : Shown}
    (hGrabbed : Grabbed ms (s.shownNow ms.info.index) shown)
    (hNotOld : ∀ newest, ms.pool.items.getLast? = some newest → s.changed ≤ newest.taken) :
    ∃ moment, s.moments[shown.taken]? = some moment ∧
      moment.screens ms.info.index = shown.image ∧ moment.probe = s.now.probe := by
  rcases hGrabbed with hLast | rfl
  · obtain ⟨moment, hMoment, hScreen⟩ := h.waiting ms hMonitor shown (List.mem_of_getLast? hLast)
    exact ⟨moment, hMoment, hScreen, h.unchanged _ moment (hNotOld shown hLast) hMoment⟩
  · exact ⟨s.now, by simp [Desktop.moments, Desktop.shownNow], rfl, rfl⟩

theorem cycle_inv (h : s.Inv) {trigger : CaptureTrigger} {demanded : Bool} {capturedAt : Int}
    {sys : Nat → Grabbing} (hNotOld : s.findsOld (.cycle trigger demanded capturedAt sys) = false) :
    (s.cycle contentHash trigger demanded capturedAt sys).Inv := by
  unfold Desktop.cycle
  split
  swap
  · exact h
  next hPasses =>
  have hGate := (Bool.and_eq_true_iff.mp hPasses).2
  have hNewest : ∀ ms ∈ s.monitors, ∀ newest, ms.pool.items.getLast? = some newest →
      s.changed ≤ newest.taken := by
    intro ms hMonitor newest hLast
    simp only [Desktop.findsOld, hPasses, Bool.true_and, List.any_eq_false] at hNotOld
    have hOne := hNotOld ms hMonitor
    rw [hLast] at hOne
    simpa using hOne
  refine ⟨fun ms hMonitor shown hShown => ?_, h.unchanged, fun seen hSeen => ?_⟩
  · rw [captureAll_drained ms hMonitor] at hShown
    cases hShown
  rw [List.append_assoc] at hSeen
  rcases List.mem_append.mp hSeen with hOld | hSeen
  · exact h.seen seen (List.mem_append_left _ hOld)
  rcases List.mem_append.mp hSeen with hNew | hOld
  swap
  · exact h.seen seen (List.mem_append_right _ hOld)
  obtain ⟨⟨fd, shown⟩, hReply, hFrame⟩ := List.mem_filterMap.mp hNew
  obtain ⟨frame, hCaptured, rfl⟩ := Option.map_eq_some_iff.mp hFrame
  obtain ⟨ms, hMonitor, hBrought⟩ := captureAll_shows hReply
  obtain ⟨moment, hMoment, hScreen, hProbe⟩ :=
    grabbed_shows h hMonitor hBrought.grabbed (hNewest ms hMonitor)
  refine ⟨moment, hMoment, ?_⟩
  obtain ⟨pixels, hPixels, rfl⟩ := Option.map_eq_some_iff.mp hCaptured
  have hImage : pixels = shown.image := by
    unfold RgbaImage.fromRaw at hPixels
    split at hPixels
    · cases hPixels
      rw [hBrought.width, hBrought.height, hBrought.rgba]
    · cases hPixels
  simp [Moment.shows, hProbe, hImage, hBrought.index, hScreen, hGate]

theorem step_inv (h : s.Inv) {event : DesktopEvent} (hNotOld : s.findsOld event = false) :
    (s.step contentHash event).Inv := by
  rcases event with ⟨monitor, image⟩ | window | locked | monitor |
    ⟨trigger, demanded, capturedAt, sys⟩ | -
  · have hNext := h.advance { s.now with screens := Function.update s.now.screens monitor image }
      (.inr ⟨rfl, rfl⟩)
    exact hNext.deliver monitor
  · exact h.advance _ (.inl rfl)
  · exact h.advance _ (.inl rfl)
  · exact redeliver_inv h monitor
  · exact cycle_inv h hNotOld
  · show s.nextFrame.Inv
    unfold Desktop.nextFrame
    rcases hQueue : s.queue with - | ⟨seen, rest⟩
    · exact h
    · refine ⟨h.waiting, h.unchanged, fun other hOther => h.seen other ?_⟩
      rw [hQueue]
      simp only [List.mem_append, List.mem_cons, List.not_mem_nil, or_false] at hOther ⊢
      tauto

theorem run_inv {events : List DesktopEvent} (h : s.Inv)
    (hNever : s.neverOld contentHash events = true) : (s.run contentHash events).Inv := by
  induction events generalizing s with
  | nil => exact h
  | cons event events ih =>
    simp only [Desktop.neverOld, Bool.and_eq_true, Bool.not_eq_true'] at hNever
    exact ih (step_inv h hNever.1) hNever.2

theorem nextFrame_faithful (contentHash : RgbaImage → String) (setup : Setup) (now : Moment)
    (events : List DesktopEvent)
    (hNever : (Desktop.start setup now).neverOld contentHash events = true) :
    ((Desktop.start setup now).run contentHash events).faithful = true := by
  have hInv := run_inv (start_inv setup now) hNever
  refine List.all_eq_true.mpr fun seen hSeen => ?_
  obtain ⟨moment, hMoment, hShows⟩ := hInv.seen seen (List.mem_append_right _ hSeen)
  rw [hMoment]
  exact hShows

/-! ## A pool that was not drained -/

def demoSetup : Setup where
  config :=
    { monitors := [], diffThreshold := 6 / 1000, excludedApps := ["KeePass"], pauseOnLock := true }
  monitors := [⟨0, "Monitor 0", 1, 1, true⟩]
  monitorBounds := [⟨0, 0, 0, 1, 1⟩]

def demoWindow (app title : String) : Probe where
  locked := false
  foregroundPid := 7
  ownPid := 42
  appHint := some app
  windowTitle := some title
  windowRect := none
  hwnd := none

def demoImage (grey : UInt8) : RgbaImage := ⟨1, 1, [grey, grey, grey, 255]⟩

/-- Everything that a cycle asks of the system succeeds. -/
def demoSystem : Nat → Grabbing := fun _ => ⟨fun _ => true, fun _ => true, fun _ => true, true⟩

def demoDesktop : Desktop :=
  .start demoSetup ⟨demoWindow "firefox" "Inbox", fun _ => demoImage 255⟩

def demoCycle : DesktopEvent := .cycle .timer false 0 demoSystem

/-- The password manager fills the pool while it is in the foreground, and its later images
are dropped. The gate turns that wake-up down; the next one grabs what waits. -/
def excludedCycle : List DesktopEvent :=
  [demoCycle, .nextFrame, .foreground (demoWindow "KeePass" "Vault"),
    .screenUpdate 0 (demoImage 0), .screenUpdate 0 (demoImage 60), .screenUpdate 0 (demoImage 90),
    demoCycle, .foreground (demoWindow "firefox" "Inbox"), .screenUpdate 0 (demoImage 255),
    demoCycle, .nextFrame]

theorem excluded_screen :
    ¬ ∀ (contentHash : RgbaImage → String) (setup : Setup) (now : Moment)
      (events : List DesktopEvent),
      ((Desktop.start setup now).run contentHash events).faithful = true := by
  intro h
  have hLeaked : (demoDesktop.run (fun _ => "") excludedCycle).faithful = false := by decide +kernel
  rw [demoDesktop, h] at hLeaked
  cases hLeaked

theorem nextFrame_faithful_focused :
    (demoDesktop.run (fun _ => "") [demoCycle, .nextFrame, .screenUpdate 0 (demoImage 0), demoCycle,
      .nextFrame]).faithful = true :=
  nextFrame_faithful _ _ _ _ (by decide +kernel)

end ScreenSearch.Capture
