import Mathlib.Algebra.GroupWithZero.Nat
import Mathlib.Logic.Function.Basic
import ScreenSearch.Capture.NextFrame
import ScreenSearch.Lib.BoundedFifo

/-!
# The capture worker

Every monitor has a pool into which the system puts an image whenever the monitor's screen
changes, until both of its buffers are taken. A capture cycle drains the pools, and the diff
gate lets through what changed.

Main result: `captureAll_shows` — the image that a cycle brings of a monitor is the newest
that waited in its pool, or one of the screen as it is now.
-/

namespace ScreenSearch.Capture

/-! ## The diff gate -/

/-- Side of the grid of samples. -/
def grid : Nat := 32

structure Fingerprint where
  width : Nat
  height : Nat
  luma : List UInt8
  deriving DecidableEq, Repr

/-- The four bytes of a pixel start here. -/
def pixelOffset (img : RgbaImage) (x y : Nat) : Nat := (y * img.width + x) * 4

/-- BT.601 in integers. -/
def lumaAt (img : RgbaImage) (x y : Nat) : UInt8 :=
  let channel (c : Nat) : Nat := (img.raw.getD (pixelOffset img x y + c) 0).toNat
  UInt8.ofNat ((77 * channel 0 + 150 * channel 1 + 29 * channel 2) / 256)

def fingerprint (img : RgbaImage) : Fingerprint :=
  let iw := max img.width 1
  let ih := max img.height 1
  { width := img.width
    height := img.height
    luma := (List.range grid).flatMap fun gy =>
      (List.range grid).map fun gx =>
        lumaAt img (min (gx * iw / grid) (iw - 1)) (min (gy * ih / grid) (ih - 1)) }

/-- Normalized to `[0, 1]`. -/
def difference (a b : Fingerprint) : ℚ :=
  if a.width ≠ b.width ∨ a.height ≠ b.height then 1
  else
    let sum : Nat := (List.zipWith (fun x y => max x.toNat y.toNat - min x.toNat y.toNat)
      a.luma b.luma).sum
    sum / (a.luma.length * 255)

def gatePasses (bypass : Bool) (prev : Option Fingerprint) (fp : Fingerprint) (threshold : ℚ) :
    Bool :=
  bypass || match prev with
    | none => true
    | some prev => decide (threshold < difference prev fp)

/-! ## A monitor's pool -/

/-- An image of a screen. `taken` numbers the moment it is of; nothing reads it. -/
structure Shown where
  image : RgbaImage
  taken : Nat
  deriving DecidableEq, Repr

/-- Buffers of a frame pool. -/
def poolBuffers : Nat := 2

structure MonitorState where
  info : MonitorInfo
  pool : BoundedFifo Shown poolBuffers
  /-- The pool is new, and the system has not yet put the whole screen into it. -/
  redelivers : Bool
  prev : Option Fingerprint
  deriving DecidableEq, Repr

/-- What the system does at the attempts of one cycle to grab from one monitor. -/
structure Grabbing where
  /-- The image of a new pool has come while the worker slept. -/
  arrives : Nat → Bool
  surface : Nat → Bool
  readback : Nat → Bool
  recreate : Bool

/-- The loop that keeps the newest image, and a second try after a short sleep. -/
def takeNewest (sys : Grabbing) (attempt : Nat) (screen : Shown) (ms : MonitorState) :
    Option Shown × MonitorState :=
  let (kept, pool) := ms.pool.drain 16 none
  match kept with
  | some shown => (some shown, { ms with pool := pool })
  | none =>
    if ms.redelivers && sys.arrives attempt then
      (some screen, { ms with pool := pool, redelivers := false })
    else (none, { ms with pool := pool })

def grabLatest (sys : Grabbing) (attempt : Nat) (screen : Shown) (ms : MonitorState) :
    Except String (Option Shown) × MonitorState :=
  match takeNewest sys attempt screen ms with
  | (none, ms) => (.ok none, ms)
  | (some shown, ms) =>
    if !sys.surface attempt then (.ok none, ms)
    else if !sys.readback attempt then (.error "readback failed", ms)
    else (.ok (some shown), ms)

/-- The retries after the pool was recreated. -/
def pollRecreated (sys : Grabbing) (screen : Shown) :
    Nat → Nat → MonitorState → Except String (Option Shown) × MonitorState
  | 0, _, ms => (.ok none, ms)
  | n + 1, attempt, ms =>
    match grabLatest sys attempt screen ms with
    | (.ok none, ms) => pollRecreated sys screen n (attempt + 1) ms
    | found => found

def grabAfterRecreate (sys : Grabbing) (screen : Shown) (ms : MonitorState) :
    Except String (Option Shown) × MonitorState :=
  if sys.recreate then
    pollRecreated sys screen 10 1 { ms with pool := .empty, redelivers := true }
  else (.error "recreate failed", ms)

/-- The image of one monitor for a cycle. -/
def grabForCycle (sys : Grabbing) (bypass : Bool) (screen : Shown) (ms : MonitorState) :
    Except String (Option Shown) × MonitorState :=
  match grabLatest sys 0 screen ms with
  | (.ok none, ms) =>
    if bypass then
      match grabAfterRecreate sys screen ms with
      | (.ok none, ms) => (.error "no frame available from the capture device", ms)
      | found => found
    else (.ok none, ms)
  | found => found

def captureChanged (contentHash : RgbaImage → String) (threshold : ℚ) (sys : Grabbing)
    (bypass : Bool) (screen : Shown) (ms : MonitorState) :
    Except String (Option (FrameData × Shown)) × MonitorState :=
  match grabForCycle sys bypass screen ms with
  | (.error e, ms) => (.error e, ms)
  | (.ok none, ms) => (.ok none, ms)
  | (.ok (some shown), ms) =>
    let fp := fingerprint shown.image
    if gatePasses bypass ms.prev fp threshold then
      (.ok (some
        ({ monitorIndex := ms.info.index
           width := shown.image.width
           height := shown.image.height
           rgba := shown.image.raw
           contentHash := contentHash shown.image }, shown)),
        { ms with prev := some fp })
    else (.ok none, ms)

/-- One request to the worker: every monitor in turn; one that fails is passed over. -/
def captureAll (contentHash : RgbaImage → String) (threshold : ℚ) (sys : Nat → Grabbing)
    (bypassFor : Option Nat) (screens : Nat → Shown) :
    List MonitorState → List (FrameData × Shown) × List MonitorState
  | [] => ([], [])
  | ms :: rest =>
    let (found, ms) := captureChanged contentHash threshold (sys ms.info.index)
      (decide (bypassFor = some ms.info.index)) (screens ms.info.index) ms
    let (changed, rest) := captureAll contentHash threshold sys bypassFor screens rest
    match found with
    | .ok (some fd) => (fd :: changed, ms :: rest)
    | _ => (changed, ms :: rest)

/-! ## Which image a cycle brings -/

variable {sys : Grabbing} {attempt : Nat} {screen shown : Shown} {ms ms' : MonitorState}

theorem takeNewest_eq (sys : Grabbing) (attempt : Nat) (screen : Shown) (ms : MonitorState) :
    takeNewest sys attempt screen ms =
      match ms.pool.items.getLast? with
      | some shown => (some shown, { ms with pool := .empty })
      | none =>
        if ms.redelivers && sys.arrives attempt then
          (some screen, { ms with pool := .empty, redelivers := false })
        else (none, { ms with pool := .empty }) := by
  have hFits : ms.pool.items.length < 16 := lt_of_le_of_lt ms.pool.bounded (by decide)
  unfold takeNewest
  rw [BoundedFifo.drain_eq 16 ms.pool none hFits, Option.or_none]

/-- The grabbed image waited last in the pool, or it is on the screen. -/
def Grabbed (ms : MonitorState) (screen shown : Shown) : Prop :=
  ms.pool.items.getLast? = some shown ∨ shown = screen

theorem takeNewest_grabbed (h : takeNewest sys attempt screen ms = (some shown, ms')) :
    Grabbed ms screen shown := by
  rw [takeNewest_eq] at h
  rcases hLast : ms.pool.items.getLast? with - | newest
  · rw [hLast] at h
    dsimp only at h
    split at h
    · cases h
      exact .inr rfl
    · cases h
  · rw [hLast] at h
    cases h
    exact .inl hLast

/-- Whatever a try to grab ends in, the pool is empty after it. -/
theorem takeNewest_pool (sys : Grabbing) (attempt : Nat) (screen : Shown) (ms : MonitorState) :
    (takeNewest sys attempt screen ms).2.pool = .empty ∧
      (takeNewest sys attempt screen ms).2.info = ms.info := by
  rw [takeNewest_eq]
  split
  · exact ⟨rfl, rfl⟩
  · split <;> exact ⟨rfl, rfl⟩

theorem grabLatest_pool (sys : Grabbing) (attempt : Nat) (screen : Shown) (ms : MonitorState) :
    (grabLatest sys attempt screen ms).2.pool = .empty ∧
      (grabLatest sys attempt screen ms).2.info = ms.info := by
  have hPool := takeNewest_pool sys attempt screen ms
  unfold grabLatest
  rcases hTake : takeNewest sys attempt screen ms with ⟨- | shown, after⟩ <;> rw [hTake] at hPool
  · exact hPool
  · dsimp only
    split
    · exact hPool
    · split <;> exact hPool

theorem grabLatest_grabbed (h : grabLatest sys attempt screen ms = (.ok (some shown), ms')) :
    Grabbed ms screen shown := by
  unfold grabLatest at h
  rcases hTake : takeNewest sys attempt screen ms with ⟨- | taken, after⟩ <;> rw [hTake] at h
  · cases h
  · dsimp only at h
    split at h
    · cases h
    · split at h
      · cases h
      · cases h
        exact takeNewest_grabbed hTake

/-- A pool that was recreated can only give what is on the screen. -/
theorem pollRecreated_screen {n : Nat} (hPool : ms.pool = .empty)
    (h : pollRecreated sys screen n attempt ms = (.ok (some shown), ms')) : shown = screen := by
  induction n generalizing attempt ms with
  | zero => cases h
  | succ n ih =>
    have hAfter := grabLatest_pool sys attempt screen ms
    unfold pollRecreated at h
    rcases hGrab : grabLatest sys attempt screen ms with ⟨e | - | grabbed, after⟩ <;>
      rw [hGrab] at h hAfter
    · cases h
    · exact ih hAfter.1 h
    · cases h
      rcases grabLatest_grabbed hGrab with hLast | hScreen
      · rw [hPool] at hLast
        cases hLast
      · exact hScreen

theorem pollRecreated_pool (sys : Grabbing) (screen : Shown) (n attempt : Nat)
    (ms : MonitorState) (hPool : ms.pool = .empty) :
    (pollRecreated sys screen n attempt ms).2.pool = .empty ∧
      (pollRecreated sys screen n attempt ms).2.info = ms.info := by
  induction n generalizing attempt ms with
  | zero => exact ⟨hPool, rfl⟩
  | succ n ih =>
    obtain ⟨hAfter, hInfo⟩ := grabLatest_pool sys attempt screen ms
    unfold pollRecreated
    rcases hGrab : grabLatest sys attempt screen ms with ⟨e | - | grabbed, after⟩ <;>
      rw [hGrab] at hAfter hInfo
    · exact ⟨hAfter, hInfo⟩
    · obtain ⟨hRest, hRestInfo⟩ := ih (attempt + 1) after hAfter
      exact ⟨hRest, hRestInfo.trans hInfo⟩
    · exact ⟨hAfter, hInfo⟩

theorem grabAfterRecreate_pool (sys : Grabbing) (screen : Shown) (ms : MonitorState)
    (hPool : ms.pool = .empty) :
    (grabAfterRecreate sys screen ms).2.pool = .empty ∧
      (grabAfterRecreate sys screen ms).2.info = ms.info := by
  unfold grabAfterRecreate
  split
  · exact pollRecreated_pool sys screen 10 1 _ rfl
  · exact ⟨hPool, rfl⟩

theorem grabForCycle_pool (sys : Grabbing) (bypass : Bool) (screen : Shown) (ms : MonitorState) :
    (grabForCycle sys bypass screen ms).2.pool = .empty ∧
      (grabForCycle sys bypass screen ms).2.info = ms.info := by
  obtain ⟨hAfter, hInfo⟩ := grabLatest_pool sys 0 screen ms
  unfold grabForCycle
  rcases hGrab : grabLatest sys 0 screen ms with ⟨e | - | grabbed, after⟩ <;>
    rw [hGrab] at hAfter hInfo
  · exact ⟨hAfter, hInfo⟩
  · dsimp only
    split
    · obtain ⟨hRecreate, hRecreateInfo⟩ := grabAfterRecreate_pool sys screen after hAfter
      split
      · next hNone =>
        rw [hNone] at hRecreate hRecreateInfo
        exact ⟨hRecreate, hRecreateInfo.trans hInfo⟩
      · exact ⟨hRecreate, hRecreateInfo.trans hInfo⟩
    · exact ⟨hAfter, hInfo⟩
  · exact ⟨hAfter, hInfo⟩

theorem grabForCycle_grabbed {bypass : Bool}
    (h : grabForCycle sys bypass screen ms = (.ok (some shown), ms')) :
    Grabbed ms screen shown := by
  unfold grabForCycle at h
  rcases hGrab : grabLatest sys 0 screen ms with ⟨e | - | grabbed, after⟩ <;> rw [hGrab] at h
  · cases h
  · dsimp only at h
    split at h
    · unfold grabAfterRecreate at h
      split at h
      · next hFound =>
        cases h
      · next hNotNone =>
        split at h
        · exact .inr (pollRecreated_screen rfl h)
        · cases h
    · cases h
  · cases h
    exact grabLatest_grabbed hGrab

/-- What a reply says of a monitor. -/
structure Brought (ms : MonitorState) (screen : Shown) (fd : FrameData) (shown : Shown) :
    Prop where
  grabbed : Grabbed ms screen shown
  index : fd.monitorIndex = ms.info.index
  width : fd.width = shown.image.width
  height : fd.height = shown.image.height
  rgba : fd.rgba = shown.image.raw

variable {contentHash : RgbaImage → String} {threshold : ℚ}

theorem captureChanged_shows {bypass : Bool} {fd : FrameData}
    (h : captureChanged contentHash threshold sys bypass screen ms =
      (.ok (some (fd, shown)), ms')) : Brought ms screen fd shown := by
  have hInfo := (grabForCycle_pool sys bypass screen ms).2
  unfold captureChanged at h
  rcases hGrab : grabForCycle sys bypass screen ms with ⟨e | - | grabbed, after⟩ <;>
    rw [hGrab] at h hInfo
  · cases h
  · cases h
  · dsimp only at h
    split at h
    · cases h
      exact ⟨grabForCycle_grabbed hGrab, congrArg MonitorInfo.index hInfo, rfl, rfl, rfl⟩
    · cases h

theorem captureChanged_pool (contentHash : RgbaImage → String) (threshold : ℚ) (sys : Grabbing)
    (bypass : Bool) (screen : Shown) (ms : MonitorState) :
    (captureChanged contentHash threshold sys bypass screen ms).2.pool = .empty := by
  have hPool := (grabForCycle_pool sys bypass screen ms).1
  unfold captureChanged
  rcases hGrab : grabForCycle sys bypass screen ms with ⟨e | - | grabbed, after⟩ <;>
    rw [hGrab] at hPool
  · exact hPool
  · exact hPool
  · dsimp only
    split <;> exact hPool

/-- A cycle leaves no pool with an image. -/
theorem captureAll_drained {sys : Nat → Grabbing} {bypassFor : Option Nat} {screens : Nat → Shown}
    {monitors : List MonitorState} :
    ∀ ms ∈ (captureAll contentHash threshold sys bypassFor screens monitors).2,
      ms.pool = .empty := by
  induction monitors with
  | nil =>
    intro _ hMem
    cases hMem
  | cons ms rest ih =>
    have hPool := captureChanged_pool contentHash threshold (sys ms.info.index)
      (decide (bypassFor = some ms.info.index)) (screens ms.info.index) ms
    unfold captureAll
    dsimp only
    split
    all_goals
      intro other hMem
      rcases List.mem_cons.mp hMem with rfl | hRest
      · exact hPool
      · exact ih other hRest

/-- Every frame of a reply is of one of the monitors. -/
theorem captureAll_shows {sys : Nat → Grabbing} {bypassFor : Option Nat} {screens : Nat → Shown}
    {monitors : List MonitorState} {fd : FrameData}
    (h : (fd, shown) ∈ (captureAll contentHash threshold sys bypassFor screens monitors).1) :
    ∃ ms ∈ monitors, Brought ms (screens ms.info.index) fd shown := by
  induction monitors with
  | nil => cases h
  | cons ms rest ih =>
    unfold captureAll at h
    dsimp only at h
    rcases hChanged : captureChanged contentHash threshold (sys ms.info.index)
      (decide (bypassFor = some ms.info.index)) (screens ms.info.index) ms with
      ⟨e | - | ⟨fd', shown'⟩, after⟩
    all_goals rw [hChanged] at h; dsimp only at h
    · obtain ⟨other, hMem, hBrought⟩ := ih h
      exact ⟨other, List.mem_cons_of_mem _ hMem, hBrought⟩
    · obtain ⟨other, hMem, hBrought⟩ := ih h
      exact ⟨other, List.mem_cons_of_mem _ hMem, hBrought⟩
    · rcases List.mem_cons.mp h with hHead | hRest
      · cases hHead
        exact ⟨ms, List.mem_cons_self, captureChanged_shows hChanged⟩
      · obtain ⟨other, hMem, hBrought⟩ := ih hRest
        exact ⟨other, List.mem_cons_of_mem _ hMem, hBrought⟩

end ScreenSearch.Capture
