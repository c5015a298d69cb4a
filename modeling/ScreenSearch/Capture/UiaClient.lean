import Mathlib.Logic.Function.Basic
import Mathlib.Tactic.Common

/-!
# The UI Automation client

Recognitions share one client, which the first that finds the slot empty spawns under a gate.
Applying changed settings and the end of capture empty the slot and shut the client down; they do
not take the gate. The configuration, the slot and the latch of a failed spawn have a lock each.

Main results:

* `step_inv` — what every step keeps where no change meets a spawn;
* `uia_client_matches` — in every such run the slot matches the configuration.
-/

namespace ScreenSearch.Capture

structure UiaBudget where
  latencyMs : Nat
  minTextChars : Nat
  maxNodes : Nat
  maxTextpatternCalls : Nat
  controlView : Bool
  deriving DecidableEq, Repr

structure UiaRuntimeConfig where
  enabled : Bool
  budget : UiaBudget
  suppressDuringInputMs : Nat
  deriving DecidableEq, Repr

/-- A spawned client. -/
structure UiaTextProvider where
  budget : UiaBudget
  /-- How often the configuration had changed when the budget was read. -/
  version : Nat
  shutDown : Bool
  deriving DecidableEq, Repr

/-- A call, between two of its steps. A recognition knows the newest configuration that had been
applied when it started. -/
inductive UiaCall where
  | done
  | recognizing (since : Nat)
  /-- The configuration wants a walk; the slot is looked at next. -/
  | looking (since : Nat)
  | missed (since : Nat)
  | queued (since : Nat)
  | gated (since : Nat)
  | relooked (since : Nat)
  | choosing (since : Nat)
  | spawning (since : Nat) (budget : UiaBudget) (version : Nat)
  | spawned (since : Nat) (client : Nat)
  | walking
  | fallback
  | applying (config : UiaRuntimeConfig)
  | applied (version : Nat)
  | cleared (version : Nat)
  | stopping
  /-- The slot is empty; `version` is what is being applied, if anything is. -/
  | torn (version : Option Nat) (client : Option Nat)
  deriving DecidableEq, Repr

inductive SpawnOutcome where
  | connected | failed | panicked
  deriving DecidableEq, Repr

structure UiaWithOcrFallback where
  config : UiaRuntimeConfig
  /-- How often the configuration has changed. -/
  version : Nat
  slot : Option Nat
  spawnFailed : Bool
  respawnGate : Option Nat
  clientCount : Nat
  clients : Nat → UiaTextProvider
  calls : Nat → UiaCall
  /-- The newest configuration whose change has been applied to the end. -/
  returned : Nat
  /-- The last call that completed was `on_capture_stopped`. -/
  lastStopped : Bool
  /-- For each walk, the version of its client and the newest configuration applied before the
  recognition started. -/
  walks : List (Nat × Nat)

namespace UiaWithOcrFallback

def initial (config : UiaRuntimeConfig) : UiaWithOcrFallback where
  config := config
  version := 0
  slot := none
  spawnFailed := false
  respawnGate := none
  clientCount := 0
  clients _ := { budget := config.budget, version := 0, shutDown := true }
  calls _ := .done
  returned := 0
  lastStopped := false
  walks := []

variable (s : UiaWithOcrFallback)

def setCall (i : Nat) (phase : UiaCall) : UiaWithOcrFallback :=
  { s with calls := Function.update s.calls i phase }

/-- Dispatch a walk to the client. -/
def walk (i client since : Nat) : UiaWithOcrFallback :=
  { s with walks := ((s.clients client).version, since) :: s.walks }.setCall i .walking

end UiaWithOcrFallback

/-! ## Steps -/

inductive UiaEvent where
  | recognize (i : Nat)
  /-- The configuration is read; trigger, input gate, window and breaker allow a walk or not. -/
  | snapshot (i : Nat) (eligible : Bool)
  | look (i : Nat)
  | checkFailed (i : Nat)
  | lockGate (i : Nat)
  | chooseBudget (i : Nat)
  | spawn (i : Nat) (outcome : SpawnOutcome)
  | install (i : Nat)
  | walkEnds (i : Nat) (recognized : Bool)
  | ocrEnds (i : Nat)
  | applySettings (i : Nat) (config : UiaRuntimeConfig)
  | swap (i : Nat)
  | clearFailed (i : Nat)
  | onCaptureStopped (i : Nat)
  | take (i : Nat)
  | shutdown (i : Nat)
  deriving DecidableEq, Repr

namespace UiaWithOcrFallback

variable (s : UiaWithOcrFallback)

def begin (i : Nat) (phase : UiaCall) : UiaWithOcrFallback :=
  if s.calls i = .done then s.setCall i phase else s

def complete (i : Nat) (stopped : Bool) : UiaWithOcrFallback :=
  { s with lastStopped := stopped }.setCall i .done

/-- Look at the slot, before the gate and again behind it. -/
def look (i : Nat) : UiaWithOcrFallback :=
  match s.calls i, s.slot with
  | .looking since, some client => s.walk i client since
  | .looking since, none => s.setCall i (.missed since)
  | .gated since, some client => { s with respawnGate := none }.walk i client since
  | .gated since, none => s.setCall i (.relooked since)
  | _, _ => s

/-- Look at the latch, before the gate and again behind it. -/
def checkFailed (i : Nat) : UiaWithOcrFallback :=
  match s.calls i with
  | .missed since => if s.spawnFailed then s.setCall i .fallback else s.setCall i (.queued since)
  | .relooked since =>
    if s.spawnFailed then { s with respawnGate := none }.setCall i .fallback
    else s.setCall i (.choosing since)
  | _ => s

def spawn (i : Nat) (outcome : SpawnOutcome) : UiaWithOcrFallback :=
  match s.calls i with
  | .spawning since budget version =>
    match outcome with
    | .connected =>
      { s with
        clientCount := s.clientCount + 1
        clients := Function.update s.clients s.clientCount
          { budget := budget, version := version, shutDown := false } }.setCall i
            (.spawned since s.clientCount)
    | .failed => { s with spawnFailed := true, respawnGate := none }.setCall i .fallback
    | .panicked => { s with respawnGate := none }.setCall i .fallback
  | _ => s

def install (i : Nat) : UiaWithOcrFallback :=
  match s.calls i with
  | .spawned since client =>
    { s with slot := some client, respawnGate := none }.walk i client since
  | _ => s

/-- Swap the configuration in; one that is the same ends the call. -/
def swap (i : Nat) : UiaWithOcrFallback :=
  match s.calls i with
  | .applying config =>
    if s.config = config then s.complete i false
    else { s with config := config, version := s.version + 1 }.setCall i (.applied (s.version + 1))
  | _ => s

def take (i : Nat) : UiaWithOcrFallback :=
  match s.calls i with
  | .cleared version => { s with slot := none }.setCall i (.torn (some version) s.slot)
  | .stopping => { s with slot := none }.setCall i (.torn none s.slot)
  | _ => s

def shutClient (client : Option Nat) : UiaWithOcrFallback :=
  match client with
  | some client =>
    { s with
      clients := Function.update s.clients client { s.clients client with shutDown := true } }
  | none => s

/-- Shut down what was taken, and return. -/
def shutdown (i : Nat) : UiaWithOcrFallback :=
  match s.calls i with
  | .torn (some version) client =>
    ({ s with returned := max s.returned version }.shutClient client).complete i false
  | .torn none client => (s.shutClient client).complete i true
  | _ => s

def step : UiaEvent → UiaWithOcrFallback
  | .recognize i => s.begin i (.recognizing s.returned)
  | .snapshot i eligible =>
    match s.calls i with
    | .recognizing since =>
      if s.config.enabled && eligible then s.setCall i (.looking since) else s.setCall i .fallback
    | _ => s
  | .look i => s.look i
  | .checkFailed i => s.checkFailed i
  | .lockGate i =>
    match s.calls i with
    | .queued since =>
      if s.respawnGate = none then { s with respawnGate := some i }.setCall i (.gated since) else s
    | _ => s
  | .chooseBudget i =>
    match s.calls i with
    | .choosing since => s.setCall i (.spawning since s.config.budget s.version)
    | _ => s
  | .spawn i outcome => s.spawn i outcome
  | .install i => s.install i
  | .walkEnds i recognized =>
    match s.calls i with
    | .walking => if recognized then s.complete i false else s.setCall i .fallback
    | _ => s
  | .ocrEnds i =>
    match s.calls i with
    | .fallback => s.complete i false
    | _ => s
  | .applySettings i config => s.begin i (.applying config)
  | .swap i => s.swap i
  | .clearFailed i =>
    match s.calls i with
    | .applied version => { s with spawnFailed := false }.setCall i (.cleared version)
    | _ => s
  | .onCaptureStopped i => s.begin i .stopping
  | .take i => s.take i
  | .shutdown i => s.shutdown i

def run (events : List UiaEvent) : UiaWithOcrFallback := events.foldl step s

/-! ## Matching -/

def Quiet : Prop := ∀ i, s.calls i = .done

structure Matches (s : UiaWithOcrFallback) : Prop where
  empty : s.Quiet → s.config.enabled = false ∨ s.lastStopped = true → s.slot = none
  budget : s.Quiet → ∀ client, s.slot = some client →
    (s.clients client).budget = s.config.budget
  one : s.Quiet → ∀ client client', client < s.clientCount → client' < s.clientCount →
    (s.clients client).shutDown = false → (s.clients client').shutDown = false → client = client'
  walks : ∀ walk ∈ s.walks, walk.2 ≤ walk.1

end UiaWithOcrFallback

/-- A recognition that wants a walk and has no client yet. -/
@[grind] def UiaCall.pending : UiaCall → Bool
  | .looking _ | .missed _ | .queued _ | .gated _ | .relooked _ | .choosing _ | .spawning _ _ _
  | .spawned _ _ => true
  | .done | .recognizing _ | .walking | .fallback | .applying _ | .applied _ | .cleared _
  | .stopping | .torn _ _ => false

/-- The budget of the client has been read, and the client is not in the slot yet. -/
@[grind] def UiaCall.spawns : UiaCall → Bool
  | .spawning _ _ _ | .spawned _ _ => true
  | .done | .recognizing _ | .looking _ | .missed _ | .queued _ | .gated _ | .relooked _
  | .choosing _ | .walking | .fallback | .applying _ | .applied _ | .cleared _ | .stopping
  | .torn _ _ => false

/-- The end of capture has emptied the slot and not returned. -/
@[grind] def UiaCall.ends : UiaCall → Bool
  | .torn none _ => true
  | .torn (some _) _ => false
  | .done | .recognizing _ | .looking _ | .missed _ | .queued _ | .gated _ | .relooked _
  | .choosing _ | .spawning _ _ _ | .spawned _ _ | .walking | .fallback | .applying _
  | .applied _ | .cleared _ | .stopping => false

namespace UiaWithOcrFallback

/-- No change of the configuration meets a spawn, none that disables meets a recognition without a
client, and none of these gets its client while the end of capture is under way. -/
def CarefulStep (s : UiaWithOcrFallback) : UiaEvent → Prop
  | .swap i => ∀ config, s.calls i = .applying config → s.config ≠ config →
      (∀ j, (s.calls j).spawns = false) ∧
        (config.enabled = false → ∀ j, (s.calls j).pending = false)
  | .install i => (s.calls i).spawns = true → ∀ j, (s.calls j).ends = false
  | _ => True

def Careful : UiaWithOcrFallback → List UiaEvent → Prop
  | _, [] => True
  | s, e :: events => s.CarefulStep e ∧ (s.step e).Careful events

end UiaWithOcrFallback

/-! ## What is kept -/

/-- Holds the gate. -/
@[grind] def UiaCall.gatedNow : UiaCall → Bool
  | .gated _ | .relooked _ | .choosing _ | .spawning _ _ _ | .spawned _ _ => true
  | .done | .recognizing _ | .looking _ | .missed _ | .queued _ | .walking | .fallback
  | .applying _ | .applied _ | .cleared _ | .stopping | .torn _ _ => false

/-- Has found the slot empty behind the gate. -/
@[grind] def UiaCall.alone : UiaCall → Bool
  | .relooked _ | .choosing _ | .spawning _ _ _ | .spawned _ _ => true
  | .done | .recognizing _ | .looking _ | .missed _ | .queued _ | .gated _ | .walking
  | .fallback | .applying _ | .applied _ | .cleared _ | .stopping | .torn _ _ => false

/-- A change is in and the slot has not been emptied for it. -/
@[grind] def UiaCall.changed : UiaCall → Bool
  | .applied _ | .cleared _ => true
  | .done | .recognizing _ | .looking _ | .missed _ | .queued _ | .gated _ | .relooked _
  | .choosing _ | .spawning _ _ _ | .spawned _ _ | .walking | .fallback | .applying _
  | .stopping | .torn _ _ => false

/-- The client a call has outside the slot. -/
@[grind] def UiaCall.client : UiaCall → Option Nat
  | .spawned _ client => some client
  | .torn _ client => client
  | .done | .recognizing _ | .looking _ | .missed _ | .queued _ | .gated _ | .relooked _
  | .choosing _ | .spawning _ _ _ | .walking | .fallback | .applying _ | .applied _ | .cleared _
  | .stopping => none

/-- What the recognition must not fall behind. -/
@[grind] def UiaCall.since : UiaCall → Option Nat
  | .recognizing since | .looking since | .missed since | .queued since | .gated since
  | .relooked since | .choosing since | .spawning since _ _ | .spawned since _ => some since
  | .done | .walking | .fallback | .applying _ | .applied _ | .cleared _ | .stopping | .torn _ _ => none

/-- The change a call has applied or is applying. -/
@[grind] def UiaCall.version : UiaCall → Option Nat
  | .applied version | .cleared version => some version
  | .torn version _ => version
  | .done | .recognizing _ | .looking _ | .missed _ | .queued _ | .gated _ | .relooked _
  | .choosing _ | .spawning _ _ _ | .spawned _ _ | .walking | .fallback | .applying _
  | .stopping => none

namespace UiaWithOcrFallback

structure Inv (s : UiaWithOcrFallback) : Prop where
  gate : ∀ i, (s.calls i).gatedNow = true → s.respawnGate = some i
  alone : ∀ i, (s.calls i).alone = true → s.slot = none
  enabled : ∀ i, (s.calls i).pending = true → s.config.enabled = true
  spawning : ∀ i since budget version, s.calls i = .spawning since budget version →
    budget = s.config.budget ∧ version = s.version
  spawned : ∀ i since client, s.calls i = .spawned since client →
    (s.clients client).budget = s.config.budget ∧ (s.clients client).version = s.version
  current : ∀ client, s.slot = some client →
    ((s.clients client).budget = s.config.budget ∧ s.config.enabled = true) ∨
      ∃ i, (s.calls i).changed = true
  stopped : s.lastStopped = true → s.slot = none ∨
    ∃ i, s.calls i = .walking ∨ s.calls i = .fallback
  ends : ∀ i, (s.calls i).ends = true → s.slot = none
  counted : ∀ client, (s.slot = some client ∨ ∃ i, (s.calls i).client = some client) →
    client < s.clientCount
  live : ∀ client < s.clientCount, (s.clients client).shutDown = false →
    s.slot = some client ∨ ∃ i, (s.calls i).client = some client
  applied : ∀ i version, (s.calls i).version = some version → version ≤ s.version
  returned : s.returned ≤ s.version
  since : ∀ i since, (s.calls i).since = some since → since ≤ s.returned
  newer : ∀ client, s.slot = some client → s.returned ≤ (s.clients client).version ∧
    ∀ i version taken, s.calls i = .torn (some version) taken →
      version ≤ (s.clients client).version
  walks : ∀ walk ∈ s.walks, walk.2 ≤ walk.1

variable {s : UiaWithOcrFallback} {i : Nat}

/-- A call moves on: it has no change to apply, keeps its client if it has one, and takes nothing
that it did not have. -/
structure Passes (s : UiaWithOcrFallback) (i : Nat) (phase : UiaCall) :
    Prop where
  gate : phase.gatedNow = true → (s.calls i).gatedNow = true
  alone : phase.alone = true → s.slot = none
  pending : phase.pending = true → s.config.enabled = true
  spawns : phase.spawns = false
  ends : phase.ends = false
  client : (s.calls i).client = phase.client
  changed : (s.calls i).changed = false
  version : phase.version = none
  dispatched : s.calls i = .walking ∨ s.calls i = .fallback → phase = .fallback
  since : ∀ since, phase.since = some since → since ≤ s.returned

theorem setCall_inv (h : s.Inv) {phase : UiaCall} (hPasses : s.Passes i phase) :
    (s.setCall i phase).Inv := by
  obtain ⟨hGate, hAlone, hPending, hSpawns, hEnds, hClient, hChanged, hVersion, hDispatched,
    hSince⟩ := hPasses
  have hSpawning : ∀ since budget version, phase ≠ .spawning since budget version := by
    rintro since budget version rfl
    cases hSpawns
  have hSpawned : ∀ since client, phase ≠ .spawned since client := by
    rintro since client rfl
    cases hSpawns
  have hTorn : ∀ version taken, phase ≠ .torn (some version) taken := by
    rintro version taken rfl
    cases hVersion
  obtain ⟨h1, h2, h3, h4, h5, h6, h7, h8, h9, h10, h11, h12, h13, h14, h15⟩ := h
  constructor
  all_goals
    simp only [setCall, Function.update_apply]
    grind

theorem begin_inv (h : s.Inv) {phase : UiaCall} (hPasses : s.calls i = .done → s.Passes i phase) :
    (s.begin i phase).Inv := by
  unfold begin
  split
  · next hDone => exact setCall_inv h (hPasses hDone)
  · exact h

/-- A call completes whose client, if it has one, is shut down. -/
theorem finish_inv (h : s.Inv) {returned : Nat} {stopped : Bool}
    (hClient : ∀ client, (s.calls i).client = some client → (s.clients client).shutDown = true)
    (hChanged : (s.calls i).changed = false) (hStopped : stopped = true → s.slot = none)
    (hLater : s.returned ≤ returned ∧ returned ≤ s.version)
    (hNewer : ∀ client, s.slot = some client → returned ≤ (s.clients client).version) :
    ({ s with returned := returned }.complete i stopped).Inv := by
  obtain ⟨h1, h2, h3, h4, h5, h6, h7, h8, h9, h10, h11, h12, h13, h14, h15⟩ := h
  constructor
  all_goals
    simp only [complete, setCall, Function.update_apply]
    grind

theorem complete_inv (h : s.Inv) (hClient : (s.calls i).client = none)
    (hChanged : (s.calls i).changed = false) : (s.complete i false).Inv := by
  refine finish_inv h (fun client hSome => ?_) hChanged nofun ⟨Nat.le_refl _, h.returned⟩
    fun client hSlot => (h.newer client hSlot).1
  rw [hClient] at hSome
  cases hSome

/-! ## Recognizing -/

theorem snapshot_inv (h : s.Inv) (eligible : Bool) : (s.step (.snapshot i eligible)).Inv := by
  unfold step
  dsimp only
  split
  · next since hCall =>
    have hSince := h.since i since (by rw [hCall]; rfl)
    split
    · next hWalk =>
      have hEnabled := (Bool.and_eq_true_iff.mp hWalk).1
      exact setCall_inv h (by constructor <;> grind)
    · exact setCall_inv h (by constructor <;> grind)
  · exact h

/-- The client in the slot is at least as new as what had been applied before the recognition. -/
theorem walk_slot_inv (h : s.Inv) {client since : Nat} (hSlot : s.slot = some client)
    (hSince : since ≤ s.returned)
    (hCall : s.calls i = .looking since ∨ s.calls i = .gated since) {gate : Option Nat}
    (hGate : ∀ j, j ≠ i → s.respawnGate = some j → gate = some j) :
    ({ s with respawnGate := gate }.walk i client since).Inv := by
  have hNewer := (h.newer client hSlot).1
  obtain ⟨h1, h2, h3, h4, h5, h6, h7, h8, h9, h10, h11, h12, h13, h14, h15⟩ := h
  constructor
  all_goals
    simp only [walk, setCall, Function.update_apply]
    grind

theorem look_inv (h : s.Inv) : (s.look i).Inv := by
  unfold look
  split
  · next since client hCall hSlot =>
    exact walk_slot_inv h hSlot (h.since i since (by rw [hCall]; rfl)) (Or.inl hCall)
      fun _ _ hGate => hGate
  · next since hCall hSlot =>
    have hSince := h.since i since (by rw [hCall]; rfl)
    have hEnabled := h.enabled i (by rw [hCall]; rfl)
    exact setCall_inv h (by constructor <;> grind)
  · next since client hCall hSlot =>
    refine walk_slot_inv h hSlot (h.since i since (by rw [hCall]; rfl)) (Or.inr hCall) ?_
    intro j hOther hGate
    rw [h.gate i (by rw [hCall]; rfl)] at hGate
    cases hGate
    exact absurd rfl hOther
  · next since hCall hSlot =>
    have hSince := h.since i since (by rw [hCall]; rfl)
    have hEnabled := h.enabled i (by rw [hCall]; rfl)
    exact setCall_inv h (by constructor <;> grind)
  · exact h

/-- Leaving the gate without a client. -/
theorem leave_inv (h : s.Inv) (hGated : (s.calls i).gatedNow = true)
    (hClient : (s.calls i).client = none) (failed : Bool) :
    ({ s with spawnFailed := failed, respawnGate := none }.setCall i .fallback).Inv := by
  have hGate := h.gate i hGated
  have hChanged : (s.calls i).changed = false := by
    rcases hCall : s.calls i <;> rw [hCall] at hGated <;> first | rfl | cases hGated
  obtain ⟨h1, h2, h3, h4, h5, h6, h7, h8, h9, h10, h11, h12, h13, h14, h15⟩ := h
  constructor
  all_goals
    simp only [setCall, Function.update_apply]
    grind

theorem checkFailed_inv (h : s.Inv) : (s.checkFailed i).Inv := by
  unfold checkFailed
  split
  · next since hCall =>
    have hSince := h.since i since (by rw [hCall]; rfl)
    have hEnabled := h.enabled i (by rw [hCall]; rfl)
    split
    · exact setCall_inv h (by constructor <;> grind)
    · exact setCall_inv h (by constructor <;> grind)
  · next since hCall =>
    have hSince := h.since i since (by rw [hCall]; rfl)
    have hEnabled := h.enabled i (by rw [hCall]; rfl)
    have hEmpty := h.alone i (by rw [hCall]; rfl)
    split
    · exact leave_inv h (by rw [hCall]; rfl) (by rw [hCall]; rfl) s.spawnFailed
    · exact setCall_inv h (by constructor <;> grind)
  · exact h

theorem lockGate_inv (h : s.Inv) : (s.step (.lockGate i)).Inv := by
  unfold step
  dsimp only
  split
  · next since hCall =>
    split
    · next hFree =>
      have hNone : ∀ j, (s.calls j).gatedNow = false := by
        intro j
        rcases hGated : (s.calls j).gatedNow with _ | _
        · rfl
        · rw [h.gate j hGated] at hFree
          cases hFree
      obtain ⟨h1, h2, h3, h4, h5, h6, h7, h8, h9, h10, h11, h12, h13, h14, h15⟩ := h
      constructor
      all_goals
        simp only [setCall, Function.update_apply]
        grind
    · exact h
  · exact h

theorem chooseBudget_inv (h : s.Inv) : (s.step (.chooseBudget i)).Inv := by
  unfold step
  dsimp only
  split
  · next since hCall =>
    obtain ⟨h1, h2, h3, h4, h5, h6, h7, h8, h9, h10, h11, h12, h13, h14, h15⟩ := h
    constructor
    all_goals
      simp only [setCall, Function.update_apply]
      grind
  · exact h

theorem spawn_inv (h : s.Inv) (outcome : SpawnOutcome) : (s.spawn i outcome).Inv := by
  unfold spawn
  split
  · next since budget version hCall =>
    have hGated : (s.calls i).gatedNow = true := by
      rw [hCall]
      rfl
    have hClient : (s.calls i).client = none := by
      rw [hCall]
      rfl
    split
    · obtain ⟨hBudget, hVersion⟩ := h.spawning i since budget version hCall
      have hOther : ∀ j, (s.calls j).gatedNow = true → j = i := by
        intro j hOther
        have hSame := h.gate j hOther
        rw [h.gate i hGated] at hSame
        exact (Option.some.inj hSame).symm
      obtain ⟨h1, h2, h3, h4, h5, h6, h7, h8, h9, h10, h11, h12, h13, h14, h15⟩ := h
      constructor
      all_goals
        simp only [setCall, Function.update_apply]
        grind
    · exact leave_inv h hGated hClient true
    · exact leave_inv h hGated hClient s.spawnFailed
  · exact h

/-- The client comes into an empty slot, and it is as new as the configuration. -/
theorem install_inv (h : s.Inv) (hCareful : s.CarefulStep (.install i)) : (s.install i).Inv := by
  unfold install
  split
  · next since client hCall =>
    have hEmpty := h.alone i (by rw [hCall]; rfl)
    have hNotEnding := hCareful (by rw [hCall]; rfl)
    have hEnabled := h.enabled i (by rw [hCall]; rfl)
    obtain ⟨hBudget, hVersion⟩ := h.spawned i since client hCall
    have hCounted := h.counted client (Or.inr ⟨i, by rw [hCall]; rfl⟩)
    have hOther : ∀ j, (s.calls j).gatedNow = true → j = i := by
      intro j hOther
      have hSame := h.gate j hOther
      rw [h.gate i (by rw [hCall]; rfl)] at hSame
      exact (Option.some.inj hSame).symm
    have hAlone : ∀ j, (s.calls j).alone = true → (s.calls j).gatedNow = true := by
      intro j hAlone
      cases hPhase : s.calls j <;> rw [hPhase] at hAlone <;> first | rfl | cases hAlone
    obtain ⟨h1, h2, h3, h4, h5, h6, h7, h8, h9, h10, h11, h12, h13, h14, h15⟩ := h
    constructor
    all_goals
      simp only [walk, setCall, Function.update_apply]
      grind
  · exact h

/-! ## Applying and stopping -/

/-- Whatever the slot holds when the configuration changes, the change is there to empty it. -/
theorem swap_inv (h : s.Inv) (hCareful : s.CarefulStep (.swap i)) : (s.swap i).Inv := by
  unfold swap
  split
  · next config hCall =>
    split
    · exact complete_inv h (by rw [hCall]; rfl) (by rw [hCall]; rfl)
    · next hChanges =>
      obtain ⟨hNoSpawn, hNoPending⟩ := hCareful config hCall hChanges
      have hStill : ∀ j, (s.calls j).pending = true → config.enabled = true := by
        intro j hPending
        by_contra hDisabled
        rw [hNoPending (Bool.eq_false_iff.mpr hDisabled) j] at hPending
        cases hPending
      obtain ⟨h1, h2, h3, h4, h5, h6, h7, h8, h9, h10, h11, h12, h13, h14, h15⟩ := h
      constructor
      all_goals
        simp only [setCall, Function.update_apply]
        grind
  · exact h

theorem clearFailed_inv (h : s.Inv) : (s.step (.clearFailed i)).Inv := by
  unfold step
  dsimp only
  split
  · next version hCall =>
    obtain ⟨h1, h2, h3, h4, h5, h6, h7, h8, h9, h10, h11, h12, h13, h14, h15⟩ := h
    constructor
    all_goals
      simp only [setCall, Function.update_apply]
      grind
  · exact h

/-- The slot is emptied, and its client is the caller's. -/
theorem tear_inv (h : s.Inv) {version : Option Nat}
    (hCall : version = none ∧ s.calls i = .stopping ∨
      ∃ v, version = some v ∧ s.calls i = .cleared v) :
    ({ s with slot := none }.setCall i (.torn version s.slot)).Inv := by
  obtain ⟨h1, h2, h3, h4, h5, h6, h7, h8, h9, h10, h11, h12, h13, h14, h15⟩ := h
  constructor
  all_goals
    simp only [setCall, Function.update_apply]
    grind

theorem take_inv (h : s.Inv) : (s.take i).Inv := by
  unfold take
  split
  · next version hCall => exact tear_inv h (Or.inr ⟨version, rfl, hCall⟩)
  · next hCall => exact tear_inv h (Or.inl ⟨rfl, hCall⟩)
  · exact h

/-- A client that is shut down keeps its budget. -/
theorem shutClient_same (client : Option Nat) (c : Nat) :
    ((s.shutClient client).clients c).budget = (s.clients c).budget ∧
      ((s.shutClient client).clients c).version = (s.clients c).version ∧
      (((s.shutClient client).clients c).shutDown = false → (s.clients c).shutDown = false) := by
  unfold shutClient
  split
  · next client =>
    dsimp only
    rw [Function.update_apply]
    split
    · next hSame =>
      subst hSame
      exact ⟨rfl, rfl, nofun⟩
    · exact ⟨rfl, rfl, id⟩
  · exact ⟨rfl, rfl, id⟩

theorem shutClient_inv (h : s.Inv) (client : Option Nat) : (s.shutClient client).Inv := by
  have hSame := shutClient_same (s := s) client
  have hRest : s.shutClient client = { s with clients := (s.shutClient client).clients } := by
    unfold shutClient
    split <;> rfl
  rw [hRest]
  generalize (s.shutClient client).clients = clients at hSame
  exact
    { h with
      spawned := fun i since c hCall => by
        rw [(hSame c).1, (hSame c).2.1]
        exact h.spawned i since c hCall
      current := fun c hSlot => by
        rw [(hSame c).1]
        exact h.current c hSlot
      live := fun c hCount hLive => h.live c hCount ((hSame c).2.2 hLive)
      newer := fun c hSlot => by
        rw [(hSame c).2.1]
        exact h.newer c hSlot }

/-- What a teardown took is shut down, and the call returns. -/
theorem return_inv (h : s.Inv) {version taken : Option Nat}
    (hCall : s.calls i = .torn version taken) :
    (({ s with returned := max s.returned (version.getD 0) }.shutClient taken).complete i
      version.isNone).Inv := by
  have hOrder : ({ s with returned := max s.returned (version.getD 0) }.shutClient taken) =
      { s.shutClient taken with returned := max s.returned (version.getD 0) } := by
    cases taken <;> rfl
  have hSlot : (s.shutClient taken).slot = s.slot := by
    cases taken <;> rfl
  have hReturned : (s.shutClient taken).returned = s.returned := by
    cases taken <;> rfl
  have hVersion : (s.shutClient taken).version = s.version := by
    cases taken <;> rfl
  have hCalls : (s.shutClient taken).calls = s.calls := by
    cases taken <;> rfl
  rw [hOrder]
  refine finish_inv (shutClient_inv h taken) (fun client hClient => ?_) ?_ (fun hNone => ?_) ?_
    fun client hFull => ?_
  · rw [hCalls, hCall] at hClient
    obtain rfl : taken = some client := hClient
    show (Function.update s.clients client _ client).shutDown = true
    rw [Function.update_self]
  · rw [hCalls, hCall]
    rfl
  · rw [hSlot]
    refine h.ends i ?_
    rw [hCall, Option.isNone_iff_eq_none.mp hNone]
    rfl
  · rw [hReturned, hVersion]
    refine ⟨Nat.le_max_left _ _, Nat.max_le.mpr ⟨h.returned, ?_⟩⟩
    rcases version with _ | v
    · exact Nat.zero_le _
    · exact h.applied i v (by rw [hCall]; rfl)
  · rw [hSlot] at hFull
    rw [(shutClient_same taken client).2.1]
    refine Nat.max_le.mpr ⟨(h.newer client hFull).1, ?_⟩
    rcases version with _ | v
    · exact Nat.zero_le _
    · exact (h.newer client hFull).2 i v taken hCall

theorem shutdown_inv (h : s.Inv) : (s.shutdown i).Inv := by
  unfold shutdown
  split
  · next version taken hCall => exact return_inv h hCall
  · next taken hCall =>
    have hReturn := return_inv h hCall
    rw [Option.getD_none, Nat.max_zero] at hReturn
    exact hReturn
  · exact h

/-! ## Runs -/

theorem initial_inv (config : UiaRuntimeConfig) : (initial config).Inv := by
  have hDone : ∀ i, (initial config).calls i = .done := fun _ => rfl
  constructor <;> grind [initial]

/-- What a step keeps, where no change meets a spawn. -/
theorem step_inv (h : s.Inv) {e : UiaEvent} (hCareful : s.CarefulStep e) : (s.step e).Inv := by
  cases e
  case recognize i =>
    refine begin_inv h fun hDone => ?_
    constructor <;> grind
  case snapshot i eligible => exact snapshot_inv h eligible
  case look i => exact look_inv h
  case checkFailed i => exact checkFailed_inv h
  case lockGate i => exact lockGate_inv h
  case chooseBudget i => exact chooseBudget_inv h
  case spawn i outcome => exact spawn_inv h outcome
  case install i => exact install_inv h hCareful
  case walkEnds i recognized =>
    unfold step
    dsimp only
    split
    · next hCall =>
      split
      · exact complete_inv h (by rw [hCall]; rfl) (by rw [hCall]; rfl)
      · exact setCall_inv h (by constructor <;> grind)
    · exact h
  case ocrEnds i =>
    unfold step
    dsimp only
    split
    · next hCall => exact complete_inv h (by rw [hCall]; rfl) (by rw [hCall]; rfl)
    · exact h
  case applySettings i config =>
    refine begin_inv h fun hDone => ?_
    constructor <;> grind
  case swap i => exact swap_inv h hCareful
  case clearFailed i => exact clearFailed_inv h
  case onCaptureStopped i =>
    refine begin_inv h fun hDone => ?_
    constructor <;> grind
  case take i => exact take_inv h
  case shutdown i => exact shutdown_inv h

theorem run_inv (h : s.Inv) {events : List UiaEvent} (hCareful : s.Careful events) :
    (s.run events).Inv := by
  induction events generalizing s with
  | nil => exact h
  | cons e events ih => exact ih (step_inv h hCareful.1) hCareful.2

theorem matches_of_inv (h : s.Inv) : s.Matches where
  empty hQuiet hOff := by
    rcases hOff with hDisabled | hStopped
    · by_contra hSlot
      obtain ⟨client, hSome⟩ := Option.ne_none_iff_exists'.mp hSlot
      rcases h.current client hSome with ⟨-, hEnabled⟩ | ⟨i, hChanged⟩
      · rw [hDisabled] at hEnabled
        cases hEnabled
      · rw [hQuiet i] at hChanged
        cases hChanged
    · rcases h.stopped hStopped with hEmpty | ⟨i, hCall | hCall⟩
      · exact hEmpty
      · rw [hQuiet i] at hCall
        cases hCall
      · rw [hQuiet i] at hCall
        cases hCall
  budget hQuiet client hSlot := by
    rcases h.current client hSlot with ⟨hBudget, -⟩ | ⟨i, hChanged⟩
    · exact hBudget
    · rw [hQuiet i] at hChanged
      cases hChanged
  one hQuiet client client' hCount hCount' hLive hLive' := by
    have hSlot : ∀ c < s.clientCount, (s.clients c).shutDown = false → s.slot = some c := by
      intro c hCounted hOpen
      rcases h.live c hCounted hOpen with hIn | ⟨i, hClient⟩
      · exact hIn
      · rw [hQuiet i] at hClient
        cases hClient
    have hSame := hSlot client hCount hLive
    rw [hSlot client' hCount' hLive'] at hSame
    exact (Option.some.inj hSame).symm
  walks := h.walks

/-- **The client matches the settings.** In every run in which no change of the configuration meets
a spawn, none that disables meets a recognition without a client, and none of these gets its client
while the end of capture is under way: when no call is in progress the slot is empty if UI
Automation is off or capture has just stopped, its client has the configured budget and is the only
one not shut down; and no walk goes to a client older than what had been applied before. -/
theorem uia_client_matches (config : UiaRuntimeConfig) (events : List UiaEvent)
    (hCareful : (initial config).Careful events) : ((initial config).run events).Matches :=
  matches_of_inv (run_inv (initial_inv config) hCareful)

/-- UI Automation on, with a latency budget. -/
def walking (latencyMs : Nat) : UiaRuntimeConfig where
  enabled := true
  budget :=
    { latencyMs := latencyMs, minTextChars := 40, maxNodes := 1500, maxTextpatternCalls := 24,
      controlView := true }
  suppressDuringInputMs := 1500

/-- Up to the reading of the budget. -/
def towardsSpawn (i : Nat) : List UiaEvent :=
  [.recognize i, .snapshot i true, .look i, .checkFailed i, .lockGate i, .look i, .checkFailed i,
    .chooseBudget i]

/-- A client is spawned, the settings change, and the next recognition spawns another. -/
def respawnedRun : List UiaEvent :=
  towardsSpawn 0 ++ [.spawn 0 .connected, .install 0, .walkEnds 0 true,
    .applySettings 1 (walking 300), .swap 1, .clearFailed 1, .take 1, .shutdown 1] ++
    towardsSpawn 0 ++ [.spawn 0 .connected, .install 0, .walkEnds 0 true]

theorem uia_client_matches_respawned : ((initial (walking 250)).run respawnedRun).Matches := by
  refine uia_client_matches (walking 250) respawnedRun ?_
  repeat' constructor
  · intro _ j
    match j with
    | 0 => rfl
    | j + 1 => rfl
  · intro config hApplying _
    obtain rfl : walking 300 = config := UiaCall.applying.inj hApplying
    refine ⟨fun j => ?_, nofun⟩
    match j with
    | 0 => rfl
    | 1 => rfl
    | j + 2 => rfl
  · intro _ j
    match j with
    | 0 => rfl
    | 1 => rfl
    | j + 2 => rfl

/-- The configuration is read before UI Automation is turned off, and the client spawned after. -/
def disabledRun : List UiaEvent :=
  [.recognize 0, .snapshot 0 true, .look 0,
    .applySettings 1 { walking 250 with enabled := false }, .swap 1, .clearFailed 1, .take 1,
    .shutdown 1, .checkFailed 0, .lockGate 0, .look 0, .checkFailed 0, .chooseBudget 0,
    .spawn 0 .connected, .install 0, .walkEnds 0 true]

/-- A budget changes while a client is being spawned with the old one. -/
def staleBudgetRun : List UiaEvent :=
  towardsSpawn 0 ++ [.applySettings 1 (walking 300), .swap 1, .clearFailed 1, .take 1, .shutdown 1,
    .spawn 0 .connected, .install 0, .walkEnds 0 true, .recognize 0, .snapshot 0 true, .look 0,
    .walkEnds 0 true]

theorem disabled_stays_connected :
    ¬ ((initial (walking 250)).run disabledRun).Matches ∧
      ¬ ((initial (walking 250)).run staleBudgetRun).Matches := by
  constructor
  · intro h
    have hEmpty := h.empty (fun i => ?_) (Or.inl rfl)
    · cases hEmpty
    · match i with
      | 0 => rfl
      | 1 => rfl
      | i + 2 => rfl
  · intro h
    exact absurd (h.walks (0, 1) (List.mem_cons_self ..)) (by decide)

end UiaWithOcrFallback

end ScreenSearch.Capture
