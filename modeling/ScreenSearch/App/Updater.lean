import Mathlib.Logic.Function.Basic
import Mathlib.Tactic.Common

/-!
# The auto-update manager

Checks, from the launch, the settings or the tray, each with its download in the background, and
the commands that install what was downloaded. The status and the staged installer are two cells
behind two locks; a step below is one access to a cell, or one wait for the endpoint, the
download, the shutdown or the installer. Checks and downloads exclude each other by a flag, but
a restart takes the staged installer at any time.

Main results:

* `run_updaterInv` — one check or download at a time, whatever the calls do;
* `step_settling` — every careful step keeps the status and the installer in agreement, up to
  what the calls in progress are still to write;
* `careless_disagrees` — and a step that is not careful breaks it;
* `status_agrees` — so careful runs agree whenever nothing is in progress.
-/

namespace ScreenSearch.App

inductive UpdateStatus where
  /-- No update known. -/
  | idle
  | checking
  | available (version : String)
  | downloading (version : String)
  | ready (version : String)
  | error (message : String)
  deriving DecidableEq, Repr

/-- A verified, downloaded update, held for install on restart. -/
structure PendingUpdate where
  version : String
  bytes : List UInt8
  deriving DecidableEq, Repr

/-! ## Calls -/

/-- Where a call of `run_check` is, with the task that it spawns. -/
inductive CheckPhase where
  | idle
  /-- Holds the slot, and is about to set `Checking`. -/
  | claimed
  | querying
  -- no newer release
  | clearing
  | quieting
  -- a newer release
  | announcing (version : String)
  | spawned (version : String)
  | downloading (version : String)
  | staging (update : PendingUpdate)
  | reporting (version : String)
  /-- The download failed, and what was staged is about to be dropped. -/
  | discarding (message : String)
  | discarded (message : String)
  /-- The check failed. -/
  | failed (message : String)
  /-- Is about to drop the guard. -/
  | releasing
  deriving DecidableEq, Repr

/-- Where a call of `restart_to_apply_update` is. -/
inductive RestartPhase where
  | idle
  | shuttingDown (update : PendingUpdate)
  | installing (update : PendingUpdate)
  | failing (message : String)
  | returned (message : String)
  deriving DecidableEq, Repr

/-- Is still to write the status. -/
@[grind] def CheckPhase.writes : CheckPhase → Bool
  | .idle | .releasing => false
  | _ => true

/-- Has taken an installer, and is still to write the status. -/
@[grind] def RestartPhase.applies : RestartPhase → Bool
  | .shuttingDown _ | .installing _ | .failing _ => true
  | .idle | .returned _ => false

structure UpdaterState where
  status : UpdateStatus
  pending : Option PendingUpdate
  inFlight : Bool
  checks : Nat → CheckPhase
  restarts : Nat → RestartPhase

inductive UpdaterEvent where
  /-- `run_check` is called. -/
  | runCheck (i : Nat)
  /-- The endpoint answered, with the version of a newer release if there is one. -/
  | checked (i : Nat) (found : Except String (Option String))
  | downloaded (i : Nat) (bytes : Except String (List UInt8))
  /-- A check or download goes on with its next access to the cells. -/
  | proceed (i : Nat)
  /-- `restart_to_apply_update` is called. -/
  | restart (r : Nat)
  | shutDown (r : Nat)
  | installFailed (r : Nat) (message : String)
  | report (r : Nat)

namespace UpdaterState

def initial : UpdaterState where
  status := .idle
  pending := none
  inFlight := false
  checks := fun _ => .idle
  restarts := fun _ => .idle

def setCheck (s : UpdaterState) (i : Nat) (phase : CheckPhase) : UpdaterState :=
  { s with checks := Function.update s.checks i phase }

def setRestart (s : UpdaterState) (r : Nat) (phase : RestartPhase) : UpdaterState :=
  { s with restarts := Function.update s.restarts r phase }

def setStatus (s : UpdaterState) (status : UpdateStatus) : UpdaterState :=
  { s with status := status }

/-- The loser of the exchange returns at once. -/
def runCheck (s : UpdaterState) (i : Nat) : UpdaterState :=
  if s.checks i = .idle ∧ s.inFlight = false then
    { s with inFlight := true }.setCheck i .claimed
  else s

def checked (s : UpdaterState) (i : Nat) (found : Except String (Option String)) : UpdaterState :=
  match s.checks i with
  | .querying =>
    match found with
    | .ok (some version) => s.setCheck i (.announcing version)
    | .ok none => s.setCheck i .clearing
    | .error message => s.setCheck i (.failed message)
  | _ => s

def downloaded (s : UpdaterState) (i : Nat) (bytes : Except String (List UInt8)) : UpdaterState :=
  match s.checks i with
  | .downloading version =>
    match bytes with
    | .ok bytes => s.setCheck i (.staging ⟨version, bytes⟩)
    | .error message => s.setCheck i (.discarding message)
  | _ => s

def proceed (s : UpdaterState) (i : Nat) : UpdaterState :=
  match s.checks i with
  | .claimed => (s.setStatus .checking).setCheck i .querying
  | .clearing => { s with pending := none }.setCheck i .quieting
  | .quieting => (s.setStatus .idle).setCheck i .releasing
  | .announcing version => (s.setStatus (.available version)).setCheck i (.spawned version)
  | .spawned version => (s.setStatus (.downloading version)).setCheck i (.downloading version)
  | .staging update => { s with pending := some update }.setCheck i (.reporting update.version)
  | .reporting version => (s.setStatus (.ready version)).setCheck i .releasing
  | .discarding message => { s with pending := none }.setCheck i (.discarded message)
  | .discarded message => (s.setStatus (.error message)).setCheck i .releasing
  -- the installer of an earlier check stays where it is
  | .failed message => (s.setStatus (.error message)).setCheck i .releasing
  | .releasing => { s with inFlight := false }.setCheck i .idle
  | .idle | .querying | .downloading _ => s

def restart (s : UpdaterState) (r : Nat) : UpdaterState :=
  if (s.restarts r).applies then s
  else match s.pending with
    | some update => { s with pending := none }.setRestart r (.shuttingDown update)
    | none => s.setRestart r (.returned "no update is ready to install")

def shutDown (s : UpdaterState) (r : Nat) : UpdaterState :=
  match s.restarts r with
  | .shuttingDown update => s.setRestart r (.installing update)
  | _ => s

def installFailed (s : UpdaterState) (r : Nat) (message : String) : UpdaterState :=
  match s.restarts r with
  | .installing _ => s.setRestart r (.failing message)
  | _ => s

def report (s : UpdaterState) (r : Nat) : UpdaterState :=
  match s.restarts r with
  | .failing message => (s.setStatus (.error message)).setRestart r (.returned message)
  | _ => s

def step (s : UpdaterState) : UpdaterEvent → UpdaterState
  | .runCheck i => s.runCheck i
  | .checked i found => s.checked i found
  | .downloaded i bytes => s.downloaded i bytes
  | .proceed i => s.proceed i
  | .restart r => s.restart r
  | .shutDown r => s.shutDown r
  | .installFailed r message => s.installFailed r message
  | .report r => s.report r

def run (s : UpdaterState) (es : List UpdaterEvent) : UpdaterState := es.foldl step s

/-! ## What is to hold -/

/-- Some check or download is still to write the status. -/
def Writing (s : UpdaterState) : Prop := ∃ i, (s.checks i).writes = true

def Applying (s : UpdaterState) : Prop := ∃ r, (s.restarts r).applies = true

/-- An update of this version is staged. -/
def Staged (s : UpdaterState) (version : String) : Prop :=
  ∃ update, s.pending = some update ∧ update.version = version

def Agrees (s : UpdaterState) : Prop := ∀ version, s.status = .ready version ↔ s.Staged version

/-- No check, download or restart is in progress. -/
def Quiet (s : UpdaterState) : Prop :=
  (∀ i, s.checks i = .idle) ∧ ∀ r, (s.restarts r).applies = false

def SingleFlight (s : UpdaterState) : Prop :=
  ∀ i j, s.checks i ≠ .idle → s.checks j ≠ .idle → i = j

/-- What a step has to find: nothing staged where a check fails; what was staged, or the restart
that took it, where `Ready` is reported; nothing staged, or a check that still has to write the
status, where a failed installation is. -/
def Careful (s : UpdaterState) : UpdaterEvent → Prop
  | .proceed i =>
    match s.checks i with
    | .failed _ => s.pending = none
    | .reporting _ => s.pending ≠ none ∨ s.Applying
    | _ => True
  | .report r =>
    match s.restarts r with
    | .failing _ => s.pending = none ∨ s.Writing
    | _ => True
  | _ => True

def CarefulRun (s : UpdaterState) : List UpdaterEvent → Prop
  | [] => True
  | e :: es => s.Careful e ∧ (s.step e).CarefulRun es

/-- What holds of any run. -/
structure Inv (s : UpdaterState) : Prop where
  flight : s.inFlight = true ↔ ∃ i, s.checks i ≠ .idle
  single : s.SingleFlight
  quieting : ∀ i, s.checks i = .quieting → s.pending = none
  discarded : ∀ i message, s.checks i = .discarded message → s.pending = none
  reporting : ∀ i version update, s.checks i = .reporting version → s.pending = some update →
    update.version = version

/-- What holds of careful runs: the two cells agree, up to who is still to write the status. -/
structure Settling (s : UpdaterState) : Prop where
  ready : ∀ version, s.status = .ready version → s.Staged version ∨ s.Applying ∨ s.Writing
  staged : ∀ update, s.pending = some update → s.status = .ready update.version ∨ s.Writing

variable {s : UpdaterState} {i r : Nat}

/-! ## One at a time -/

@[simp] theorem setCheck_self (phase : CheckPhase) : (s.setCheck i phase).checks i = phase :=
  Function.update_self ..

/-- A check in progress goes on: the slot stays taken. -/
theorem setCheck_inv (h : s.Inv) (hBusy : s.checks i ≠ .idle) {pending : Option PendingUpdate}
    {status : UpdateStatus} {phase : CheckPhase} (hPhase : phase ≠ .idle)
    (hQuieting : phase = .quieting → pending = none)
    (hDiscarded : ∀ message, phase = .discarded message → pending = none)
    (hReporting : ∀ version update, phase = .reporting version → pending = some update →
      update.version = version) :
    ({ s with pending := pending, status := status }.setCheck i phase).Inv := by
  obtain ⟨hFlight, hSingle, -, -, -⟩ := h
  have hOnly : ∀ j, s.checks j ≠ .idle → j = i := fun j hj => hSingle j i hj hBusy
  constructor
  · constructor
    · intro _
      exact ⟨i, by rw [setCheck_self]; exact hPhase⟩
    · intro _
      exact hFlight.mpr ⟨i, hBusy⟩
  all_goals simp only [SingleFlight, setCheck, Function.update_apply]; grind

theorem runCheck_inv (h : s.Inv) (i : Nat) : (s.runCheck i).Inv := by
  unfold runCheck
  split
  · next hFree =>
    obtain ⟨hFlight, -, -, -, -⟩ := h
    have hIdle : ∀ j, s.checks j = .idle := by
      intro j
      by_contra hBusy
      exact absurd (hFlight.mpr ⟨j, hBusy⟩) (by rw [hFree.2]; exact Bool.false_ne_true)
    constructor
    · constructor
      · intro _
        exact ⟨i, by rw [setCheck_self]; exact CheckPhase.noConfusion⟩
      · intro _
        rfl
    all_goals simp only [SingleFlight, setCheck, Function.update_apply]; grind
  · exact h

theorem checked_inv (h : s.Inv) (i : Nat) (found : Except String (Option String)) :
    (s.checked i found).Inv := by
  unfold checked
  split
  · next hPhase =>
    have hBusy : s.checks i ≠ .idle := by
      rw [hPhase]
      exact CheckPhase.noConfusion
    split
    all_goals exact setCheck_inv h hBusy (by simp) (by simp) (by simp) (by simp)
  · exact h

theorem downloaded_inv (h : s.Inv) (i : Nat) (bytes : Except String (List UInt8)) :
    (s.downloaded i bytes).Inv := by
  unfold downloaded
  split
  · next hPhase =>
    have hBusy : s.checks i ≠ .idle := by
      rw [hPhase]
      exact CheckPhase.noConfusion
    split
    all_goals exact setCheck_inv h hBusy (by simp) (by simp) (by simp) (by simp)
  · exact h

theorem proceed_inv (h : s.Inv) (i : Nat) : (s.proceed i).Inv := by
  by_cases hIdle : s.checks i = .idle
  · unfold proceed
    rw [hIdle]
    exact h
  by_cases hReleasing : s.checks i = .releasing
  · -- the only one in progress leaves
    obtain ⟨-, hSingle, -, -, -⟩ := h
    have hOthers : ∀ j, j ≠ i → s.checks j = .idle := by
      intro j hj
      by_contra hBusy
      exact hj (hSingle j i hBusy hIdle)
    unfold proceed
    rw [hReleasing]
    constructor
    · simp only [setCheck, Function.update_apply]
      grind
    all_goals simp only [SingleFlight, setCheck, Function.update_apply]; grind
  unfold proceed
  split
  case h_11 hPhase => exact absurd hPhase hReleasing
  all_goals first | exact h | exact setCheck_inv h hIdle (by simp) (by simp) (by simp) (by simp)

theorem setRestart_inv (h : s.Inv) (r : Nat) {pending : Option PendingUpdate}
    {status : UpdateStatus} {phase : RestartPhase}
    (hPending : pending = s.pending ∨ pending = none) :
    ({ s with pending := pending, status := status }.setRestart r phase).Inv := by
  obtain ⟨hFlight, hSingle, hQuieting, hDiscarded, hReporting⟩ := h
  refine ⟨hFlight, hSingle, ?_, ?_, ?_⟩
  all_goals simp only [setRestart]; grind

theorem restart_inv (h : s.Inv) (r : Nat) : (s.restart r).Inv := by
  unfold restart
  split
  · exact h
  · split
    · exact setRestart_inv h r (.inr rfl)
    · exact setRestart_inv h r (.inl rfl)

theorem shutDown_inv (h : s.Inv) (r : Nat) : (s.shutDown r).Inv := by
  unfold shutDown
  split
  · exact setRestart_inv h r (.inl rfl)
  · exact h

theorem installFailed_inv (h : s.Inv) (r : Nat) (message : String) :
    (s.installFailed r message).Inv := by
  unfold installFailed
  split
  · exact setRestart_inv h r (.inl rfl)
  · exact h

theorem report_inv (h : s.Inv) (r : Nat) : (s.report r).Inv := by
  unfold report
  split
  · exact setRestart_inv h r (.inl rfl)
  · exact h

theorem step_updaterInv (h : s.Inv) (e : UpdaterEvent) : (s.step e).Inv := by
  cases e with
  | runCheck i => exact runCheck_inv h i
  | checked i found => exact checked_inv h i found
  | downloaded i bytes => exact downloaded_inv h i bytes
  | proceed i => exact proceed_inv h i
  | restart r => exact restart_inv h r
  | shutDown r => exact shutDown_inv h r
  | installFailed r message => exact installFailed_inv h r message
  | report r => exact report_inv h r

theorem run_updaterInv (h : s.Inv) (es : List UpdaterEvent) : (s.run es).Inv := by
  induction es generalizing s with
  | nil => exact h
  | cons e es ih => exact ih (step_updaterInv h e)

theorem initial_inv : initial.Inv where
  flight := ⟨fun h => absurd h Bool.false_ne_true, fun ⟨_, h⟩ => absurd rfl h⟩
  single := fun _ _ h => absurd rfl h
  quieting := fun _ h => CheckPhase.noConfusion h
  discarded := fun _ _ h => CheckPhase.noConfusion h
  reporting := fun _ _ _ h => CheckPhase.noConfusion h

/-! ## The status and the installer -/

/-- A check that has more to write. -/
theorem setCheck_settling (s : UpdaterState) {phase : CheckPhase} (hWrites : phase.writes = true) :
    (s.setCheck i phase).Settling := by
  have hWriting : (s.setCheck i phase).Writing := ⟨i, by rw [setCheck_self]; exact hWrites⟩
  exact ⟨fun _ _ => .inr (.inr hWriting), fun _ _ => .inr hWriting⟩

/-- After the last thing that a check writes. -/
theorem setCheck_settled {phase : CheckPhase}
    (hReady : ∀ version, s.status = .ready version → s.Staged version ∨ s.Applying)
    (hStaged : ∀ update, s.pending = some update → s.status = .ready update.version) :
    (s.setCheck i phase).Settling where
  ready := by
    intro version hStatus
    rcases hReady version hStatus with hStaged | hApplying
    · exact .inl hStaged
    · exact .inr (.inl hApplying)
  staged := fun update hPending => .inl (hStaged update hPending)

/-- Nothing is staged, and the status is not `Ready`. -/
theorem setCheck_unstaged {phase : CheckPhase} {status : UpdateStatus} (hNone : s.pending = none)
    (hStatus : ∀ version, status ≠ .ready version) :
    ((s.setStatus status).setCheck i phase).Settling := by
  refine setCheck_settled (fun version h => absurd h (hStatus version)) ?_
  intro update hPending
  exact absurd (hNone.symm.trans hPending).symm (Option.some_ne_none _)

theorem proceed_settling (hInv : s.Inv) (h : s.Settling) (hCareful : s.Careful (.proceed i)) :
    (s.proceed i).Settling := by
  unfold Careful at hCareful
  dsimp only at hCareful
  unfold proceed
  split
  case h_3 hPhase =>
    exact setCheck_unstaged (hInv.quieting i hPhase) fun _ => UpdateStatus.noConfusion
  case h_7 version hPhase =>
    rw [hPhase] at hCareful
    refine setCheck_settled ?_ ?_
    · intro version' hStatus
      obtain rfl : version = version' := UpdateStatus.ready.inj hStatus
      rcases hCareful with hPending | hApplying
      · obtain ⟨update, hUpdate⟩ := Option.ne_none_iff_exists'.mp hPending
        exact .inl ⟨update, hUpdate, hInv.reporting i version update hPhase hUpdate⟩
      · exact .inr hApplying
    · intro update hUpdate
      show UpdateStatus.ready version = _
      rw [hInv.reporting i version update hPhase hUpdate]
  case h_9 message hPhase =>
    exact setCheck_unstaged (hInv.discarded i message hPhase) fun _ => UpdateStatus.noConfusion
  case h_10 hPhase =>
    rw [hPhase] at hCareful
    exact setCheck_unstaged hCareful fun _ => UpdateStatus.noConfusion
  case h_11 hPhase =>
    -- it was not to write any more
    have hWriting : s.Writing → ({ s with inFlight := false }.setCheck i .idle).Writing := by
      rintro ⟨j, hj⟩
      refine ⟨j, ?_⟩
      have hNe : j ≠ i := by
        rintro rfl
        rw [hPhase] at hj
        exact Bool.false_ne_true hj
      show (Function.update s.checks i .idle j).writes = true
      rw [Function.update_of_ne hNe]
      exact hj
    constructor
    · intro version hStatus
      rcases h.ready version hStatus with hStaged | hApplying | hOther
      · exact .inl hStaged
      · exact .inr (.inl hApplying)
      · exact .inr (.inr (hWriting hOther))
    · intro update hPending
      rcases h.staged update hPending with hStatus | hOther
      · exact .inl hStatus
      · exact .inr (hWriting hOther)
  all_goals first | exact h | exact setCheck_settling _ rfl

theorem runCheck_settling (h : s.Settling) (i : Nat) : (s.runCheck i).Settling := by
  unfold runCheck
  split
  · exact setCheck_settling _ rfl
  · exact h

theorem checked_settling (h : s.Settling) (i : Nat) (found : Except String (Option String)) :
    (s.checked i found).Settling := by
  unfold checked
  split
  · split
    all_goals exact setCheck_settling _ rfl
  · exact h

theorem downloaded_settling (h : s.Settling) (i : Nat) (bytes : Except String (List UInt8)) :
    (s.downloaded i bytes).Settling := by
  unfold downloaded
  split
  · split
    all_goals exact setCheck_settling _ rfl
  · exact h

/-- A restart goes on, or one that took nothing returns. -/
theorem setRestart_settling (h : s.Settling) (r : Nat) {phase : RestartPhase}
    (hPhase : phase.applies = (s.restarts r).applies) : (s.setRestart r phase).Settling := by
  have hApplying : s.Applying → (s.setRestart r phase).Applying := by
    rintro ⟨r', hr'⟩
    refine ⟨r', ?_⟩
    show (Function.update s.restarts r phase r').applies = true
    rw [Function.update_apply]
    split
    · next hSame => rw [hPhase, ← hSame, hr']
    · exact hr'
  refine ⟨?_, h.staged⟩
  intro version hStatus
  rcases h.ready version hStatus with hStaged | hOther | hWriting
  · exact .inl hStaged
  · exact .inr (.inl (hApplying hOther))
  · exact .inr (.inr hWriting)

theorem restart_settling (h : s.Settling) (r : Nat) : (s.restart r).Settling := by
  unfold restart
  split
  · exact h
  · next hIdle =>
    split
    · next update hPending =>
      have hApplying : ({ s with pending := none }.setRestart r (.shuttingDown update)).Applying :=
        ⟨r, by simp [setRestart, RestartPhase.applies]⟩
      refine ⟨fun _ _ => .inr (.inl hApplying), ?_⟩
      intro _ hNone
      exact absurd hNone.symm (Option.some_ne_none _)
    · exact setRestart_settling h r (Bool.not_eq_true _ ▸ hIdle).symm

theorem shutDown_settling (h : s.Settling) (r : Nat) : (s.shutDown r).Settling := by
  unfold shutDown
  split
  · next hPhase => exact setRestart_settling h r (by rw [hPhase]; rfl)
  · exact h

theorem installFailed_settling (h : s.Settling) (r : Nat) (message : String) :
    (s.installFailed r message).Settling := by
  unfold installFailed
  split
  · next hPhase => exact setRestart_settling h r (by rw [hPhase]; rfl)
  · exact h

theorem report_settling (h : s.Settling) (hCareful : s.Careful (.report r)) :
    (s.report r).Settling := by
  unfold Careful at hCareful
  dsimp only at hCareful
  unfold report
  split
  · next hPhase =>
    rw [hPhase] at hCareful
    refine ⟨fun _ hStatus => UpdateStatus.noConfusion hStatus, ?_⟩
    intro update hPending
    rcases hCareful with hNone | hWriting
    · exact absurd (hNone.symm.trans hPending).symm (Option.some_ne_none _)
    · exact .inr hWriting
  · exact h

theorem step_settling (hInv : s.Inv) (h : s.Settling) {e : UpdaterEvent} (hCareful : s.Careful e) :
    (s.step e).Settling := by
  cases e with
  | runCheck i => exact runCheck_settling h i
  | checked i found => exact checked_settling h i found
  | downloaded i bytes => exact downloaded_settling h i bytes
  | proceed i => exact proceed_settling hInv h hCareful
  | restart r => exact restart_settling h r
  | shutDown r => exact shutDown_settling h r
  | installFailed r message => exact installFailed_settling h r message
  | report r => exact report_settling h hCareful

theorem run_settling (hInv : s.Inv) (h : s.Settling) {es : List UpdaterEvent}
    (hCareful : s.CarefulRun es) : (s.run es).Settling := by
  induction es generalizing s with
  | nil => exact h
  | cons e es ih =>
    exact ih (step_updaterInv hInv e) (step_settling hInv h hCareful.1) hCareful.2

theorem agrees_of_settling (h : s.Settling) (hQuiet : s.Quiet) : s.Agrees := by
  have hNot : ¬ s.Writing := by
    rintro ⟨i, hi⟩
    rw [hQuiet.1 i] at hi
    exact Bool.false_ne_true hi
  intro version
  constructor
  · intro hStatus
    rcases h.ready version hStatus with hStaged | ⟨r, hr⟩ | hWriting
    · exact hStaged
    · exact absurd ((hQuiet.2 r).symm.trans hr) Bool.false_ne_true
    · exact absurd hWriting hNot
  · rintro ⟨update, hPending, rfl⟩
    exact (h.staged update hPending).resolve_right hNot

/-- A step that is not careful, after which nobody is to write the status: the two cells disagree,
and do so until another call starts. -/
theorem careless_disagrees {e : UpdaterEvent} (hCareless : ¬ s.Careful e)
    (hApplying : ¬ (s.step e).Applying) : ¬ (s.step e).Agrees := by
  intro hAgrees
  unfold Careful at hCareless
  have hError : ∀ message update, (s.step e).status = .error message →
      (s.step e).pending ≠ some update := by
    intro message update hStatus hPending
    have hReady := (hAgrees update.version).mpr ⟨update, hPending, rfl⟩
    exact UpdateStatus.noConfusion (hStatus.symm.trans hReady)
  split at hCareless
  · next i =>
    split at hCareless
    · next message hPhase =>
      obtain ⟨update, hUpdate⟩ := Option.ne_none_iff_exists'.mp hCareless
      have hStep : s.step (.proceed i) = (s.setStatus (.error message)).setCheck i .releasing := by
        show s.proceed i = _
        unfold proceed
        rw [hPhase]
      rw [hStep] at hError
      exact hError message update rfl hUpdate
    · next version hPhase =>
      have hStep : s.step (.proceed i) = (s.setStatus (.ready version)).setCheck i .releasing := by
        show s.proceed i = _
        unfold proceed
        rw [hPhase]
      rw [hStep] at hAgrees hApplying
      obtain ⟨update, hUpdate, -⟩ := (hAgrees version).mp rfl
      exact hCareless (.inl fun hNone => Option.some_ne_none _ (hUpdate.symm.trans hNone))
    · exact hCareless trivial
  · next r =>
    split at hCareless
    · next message hPhase =>
      obtain ⟨update, hUpdate⟩ := Option.ne_none_iff_exists'.mp fun hNone => hCareless (.inl hNone)
      have hStep : s.step (.report r) =
          (s.setStatus (.error message)).setRestart r (.returned message) := by
        show s.report r = _
        unfold report
        rw [hPhase]
      rw [hStep] at hError
      exact hError message update rfl hUpdate
    · exact hCareless trivial
  · exact hCareless trivial

end UpdaterState

/-! ## The law -/

open UpdaterState

theorem initial_settling : initial.Settling where
  ready := fun _ h => UpdateStatus.noConfusion h
  staged := fun _ h => absurd h.symm (Option.some_ne_none _)

/-- In every run whose steps are careful, at most one check or download is in progress, and
whenever nothing is, the status is `Ready` with a version just when that version is staged. -/
theorem status_agrees (es : List UpdaterEvent) (h : initial.CarefulRun es) :
    (initial.run es).SingleFlight ∧ ((initial.run es).Quiet → (initial.run es).Agrees) :=
  ⟨(run_updaterInv initial_inv es).single,
    agrees_of_settling (run_settling initial_inv initial_settling h)⟩

/-- A launch check that stages a release. -/
def stagingRun : List UpdaterEvent :=
  [.runCheck 0, .proceed 0, .checked 0 (.ok (some "0.3.3")), .proceed 0, .proceed 0,
    .downloaded 0 (.ok [1]), .proceed 0, .proceed 0, .proceed 0]

/-- A release is staged, its installation fails, and a check after that does. -/
def failingRun : List UpdaterEvent :=
  stagingRun ++ [.restart 0, .shutDown 0, .installFailed 0 "denied", .report 0,
    .runCheck 1, .proceed 1, .checked 1 (.error "offline"), .proceed 1, .proceed 1]

theorem status_agrees_failing : initial.CarefulRun failingRun ∧
    ((initial.run failingRun).SingleFlight ∧
      ((initial.run failingRun).Quiet → (initial.run failingRun).Agrees)) := by
  have hCareful : initial.CarefulRun failingRun := by
    simp [failingRun, stagingRun, CarefulRun, Careful, step, runCheck, proceed, checked,
      downloaded, restart, shutDown, installFailed, report, initial, setCheck, setRestart, setStatus,
      RestartPhase.applies]
  exact ⟨hCareful, status_agrees failingRun hCareful⟩

/-- A release is staged, and a later check fails: the status is `Error`, and the installer is
still there. -/
theorem stranded_installer : ∃ es, (initial.run es).Quiet ∧ ¬ (initial.run es).Agrees := by
  refine ⟨stagingRun ++ [.runCheck 1, .proceed 1, .checked 1 (.error "offline"), .proceed 1,
    .proceed 1], ⟨?_, ?_⟩, ?_⟩
  · intro i
    by_cases h0 : i = 0 <;> by_cases h1 : i = 1 <;>
      simp [stagingRun, run, step, runCheck, proceed, checked, downloaded, initial, setCheck,
        setStatus, h0, h1]
  · intro r
    rfl
  · intro hAgrees
    have hStatus := (hAgrees "0.3.3").mpr ⟨⟨"0.3.3", [1]⟩, rfl, rfl⟩
    exact UpdateStatus.noConfusion hStatus

end ScreenSearch.App
