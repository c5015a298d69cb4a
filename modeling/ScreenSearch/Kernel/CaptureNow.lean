import ScreenSearch.Capture.NextFrame
import ScreenSearch.Store.Frames
import Mathlib.Logic.Function.Basic

/-!
# `capture_now` and the capture loops

A call of `capture_now` sends a request to the live session's capture source and waits for
two things: the source's acknowledgement, and the id that the session's loop hands back
through the slot that all sessions share. The calls are one at a time, under a gate; the
sources and the loops go on between any two steps of a call, also those of a session that
was stopped and still has a frame in work.
-/

namespace ScreenSearch.Kernel

open Store Capture

/-- Carries the sender of a call's acknowledgement, which is named by the call. -/
structure CaptureNowRequest where
  ack : Nat
  deriving DecidableEq, Repr

/-- A frame, and the call that its cycle served. The loop does not see the call. -/
structure CycleFrame where
  frame : CapturedFrame
  servedCall : Option Nat
  deriving DecidableEq, Repr

/-- Where `next_frame` stands. -/
inductive SourceState where
  | waiting
  /-- Past the gate; the worker has not replied. -/
  | cycling (trigger : CaptureTrigger) (demand : Option CaptureNowRequest) (probe : Probe)
  deriving DecidableEq, Repr

/-- Where `process_frame` stands, if it runs. -/
inductive ProcessState where
  | idle
  | recognizing (f : CycleFrame)
  | inserted (f : CycleFrame) (id : Int)
  | storingText (id : Int)
  deriving DecidableEq, Repr

/-- A capture loop with its source. -/
structure CaptureSession where
  setup : Setup
  requests : List CaptureNowRequest
  source : SourceState
  queue : List CycleFrame
  processing : ProcessState
  stopping : Bool
  deriving DecidableEq, Repr

inductive CallPhase where
  /-- Holds the gate. -/
  | started
  /-- Its sender is in the slot, its request not yet in the channel of the session. -/
  | sending (session : Nat)
  | awaitingAck
  | awaitingFrame
  deriving DecidableEq, Repr

/-- The call that holds the gate, with what arrived in its two channels. -/
structure CaptureCall where
  id : Nat
  began : Int
  phase : CallPhase
  ack : Option (Except String Unit)
  frame : Option Int
  deriving DecidableEq, Repr

structure FinishedCall where
  id : Nat
  began : Int
  result : Except String Int
  deriving DecidableEq, Repr

/-- `finished` and `stored` record what happened; no step reads them. -/
structure CaptureSystem where
  clock : Int
  db : FrameTables
  sessions : Nat → Option CaptureSession
  live : Option Nat
  generation : Nat
  pendingDemand : Option Nat
  call : Option CaptureCall
  calls : Nat
  finished : List FinishedCall
  stored : List (Int × CycleFrame)

def CaptureSystem.start (clock : Int) (db : FrameTables) : CaptureSystem where
  clock := clock
  db := db
  sessions := fun _ => none
  live := none
  generation := 0
  pendingDemand := none
  call := none
  calls := 0
  finished := []
  stored := []

/-! ## Channels -/

/-- The capacity of a session's channel of demands. -/
def captureNowCapacity : Nat := 4

def CaptureSystem.setSession (s : CaptureSystem) (i : Nat) (session : Option CaptureSession) :
    CaptureSystem :=
  { s with sessions := Function.update s.sessions i session }

/-- A receiver that is gone is not told. -/
def CaptureSystem.sendAck (s : CaptureSystem) (req : CaptureNowRequest)
    (ack : Except String Unit) : CaptureSystem :=
  { s with call := s.call.map fun call =>
      if call.id = req.ack then { call with ack := some ack } else call }

def CaptureSystem.denyDemand (s : CaptureSystem) (demand : Option CaptureNowRequest)
    (reason : String) : CaptureSystem :=
  match demand with
  | some req => s.sendAck req (.error reason)
  | none => s

def CaptureSystem.sendFrame (s : CaptureSystem) (call : Nat) (id : Int) : CaptureSystem :=
  { s with call := s.call.map fun waiting =>
      if waiting.id = call then { waiting with frame := some id } else waiting }

/-- A request whose acknowledgement is still to come. -/
def CaptureSession.holdsRequest (session : CaptureSession) (call : Nat) : Bool :=
  session.requests.any (fun req => req.ack == call) ||
    match session.source with
    | .cycling _ (some req) _ => req.ack == call
    | _ => false

/-- The sender of the acknowledgement was not dropped. -/
def CaptureSystem.ackOpen (s : CaptureSystem) (call : Nat) : Bool :=
  (List.range s.generation).any fun i =>
    ((s.sessions i).map fun session => session.holdsRequest call).getD false

/-! ## The capture source -/

/-- `next_frame` waits only with an empty queue, and not while a frame is in work. -/
def CaptureSession.canWake (session : CaptureSession) : Bool :=
  session.queue.isEmpty && decide (session.source = .waiting) &&
    decide (session.processing = .idle)

def CaptureSystem.wake (s : CaptureSystem) (i : Nat) (trigger : CaptureTrigger) (probe : Probe) :
    CaptureSystem :=
  match s.sessions i with
  | some session =>
    if session.canWake && (privacyGate session.setup.config probe).isNone then
      s.setSession i (some { session with source := .cycling trigger none probe })
    else s
  | none => s

def CaptureSystem.wakeDemand (s : CaptureSystem) (i : Nat) (probe : Probe) : CaptureSystem :=
  match s.sessions i with
  | some session =>
    match session.requests with
    | req :: rest =>
      if session.canWake then
        match privacyGate session.setup.config probe with
        | some reason =>
          (s.setSession i (some { session with requests := rest })).denyDemand (some req) reason
        | none =>
          s.setSession i (some { session with
            requests := rest
            source := .cycling .manual (some req) probe })
      else s
    | [] => s
  | none => s

/-- The worker's reply: the frames are queued, and then the demand is acknowledged. -/
def CaptureSystem.reply (s : CaptureSystem) (i : Nat) (frames : List FrameData) : CaptureSystem :=
  match s.sessions i with
  | some session =>
    match session.source with
    | .cycling trigger demand probe =>
      let bypass := bypassFor session.setup probe demand.isSome
      let queued := cycleFrames session.setup probe trigger bypass s.clock frames
      let s := s.setSession i (some { session with
        source := .waiting
        queue := session.queue ++ queued.map fun frame =>
          { frame := frame, servedCall := demand.map CaptureNowRequest.ack } })
      match demand with
      | some req => s.sendAck req (demandAck queued)
      | none => s
    | .waiting => s
  | none => s

/-- The worker is gone, which ends the session. -/
def CaptureSystem.sourceShutdown (s : CaptureSystem) (i : Nat) : CaptureSystem :=
  match s.sessions i with
  | some session =>
    match session.source with
    | .cycling _ demand _ =>
      let s := (s.setSession i none).denyDemand demand "the capture worker is unavailable"
      if s.live = some i then { s with live := none } else s
    | .waiting => s
  | none => s

/-! ## The capture loop -/

/-- `next_frame` gives the front of the queue, when the loop asks for it. -/
def CaptureSystem.nextFrame (s : CaptureSystem) (i : Nat) : CaptureSystem :=
  match s.sessions i with
  | some session =>
    match session.queue, session.processing, session.source with
    | f :: rest, .idle, .waiting =>
      s.setSession i (some { session with queue := rest, processing := .recognizing f })
    | _, _, _ => s
  | none => s

def CaptureSystem.setProcessing (s : CaptureSystem) (i : Nat) (session : CaptureSession)
    (processing : ProcessState) : CaptureSystem :=
  s.setSession i (some { session with processing := processing })

/-- The recognizer or the encoder failed, or the insert. -/
def CaptureSystem.dropFrame (s : CaptureSystem) (i : Nat) : CaptureSystem :=
  match s.sessions i with
  | some session =>
    match session.processing with
    | .recognizing _ => s.setProcessing i session .idle
    | _ => s
  | none => s

def newFrameOf (frame : CapturedFrame) : NewFrame where
  capturedAt := frame.capturedAt
  monitorIndex := frame.monitorIndex
  appHint := frame.appHint
  windowTitle := frame.windowTitle
  browserUrl := none

def CaptureSystem.insertFrame (s : CaptureSystem) (i : Nat) : CaptureSystem :=
  match s.sessions i with
  | some session =>
    match session.processing with
    | .recognizing f =>
      match Store.insertFrame (newFrameOf f.frame) s.db with
      | .ok (id, db) =>
        { s with db := db, stored := s.stored ++ [(id, f)] }.setProcessing i session (.inserted f id)
      | .error _ => s.setProcessing i session .idle
    | _ => s
  | none => s

/-- A demanded frame goes to whoever waits in the slot. -/
def CaptureSystem.handBack (s : CaptureSystem) (i : Nat) : CaptureSystem :=
  match s.sessions i with
  | some session =>
    match session.processing with
    | .inserted f id =>
      let s := s.setProcessing i session (.storingText id)
      if f.frame.demanded then
        match s.pendingDemand with
        | some call => { s with pendingDemand := none }.sendFrame call id
        | none => s
      else s
    | _ => s
  | none => s

/-- The text is stored and its job enqueued, or one of the two failed. -/
def CaptureSystem.finishFrame (s : CaptureSystem) (i : Nat) : CaptureSystem :=
  match s.sessions i with
  | some session =>
    match session.processing with
    | .storingText _ => s.setProcessing i session .idle
    | _ => s
  | none => s

/-! ## Starting and stopping -/

def CaptureSystem.startCapture (s : CaptureSystem) (setup : Setup) : CaptureSystem :=
  if s.live.isSome then s
  else
    { s.setSession s.generation (some
        { setup := setup
          requests := []
          source := .waiting
          queue := []
          processing := .idle
          stopping := false }) with
      live := some s.generation
      generation := s.generation + 1 }

def CaptureSystem.stopCapture (s : CaptureSystem) : CaptureSystem :=
  match s.live with
  | some i =>
    match s.sessions i with
    | some session => { s with live := none }.setSession i (some { session with stopping := true })
    | none => { s with live := none }
  | none => s

/-- A loop sees the stop between two frames, and drops its source with all that is queued. -/
def CaptureSystem.loopExit (s : CaptureSystem) (i : Nat) : CaptureSystem :=
  match s.sessions i with
  | some session =>
    if session.stopping && decide (session.processing = .idle) then s.setSession i none else s
  | none => s

/-! ## A call -/

/-- A return before the sender is in the slot. -/
def CaptureSystem.finishEarly (s : CaptureSystem) (call : CaptureCall) (result : Except String Int) :
    CaptureSystem :=
  { s with
    call := none
    finished := s.finished ++ [{ id := call.id, began := call.began, result := result }] }

/-- Every other return clears the slot. -/
def CaptureSystem.finish (s : CaptureSystem) (call : CaptureCall) (result : Except String Int) :
    CaptureSystem :=
  { s with pendingDemand := none }.finishEarly call result

def CaptureSystem.setPhase (s : CaptureSystem) (call : CaptureCall) (phase : CallPhase) :
    CaptureSystem :=
  { s with call := some { call with phase := phase } }

/-- A call takes the gate. -/
def CaptureSystem.callBegin (s : CaptureSystem) : CaptureSystem :=
  if s.call.isSome then s
  else
    { s with
      call := some { id := s.calls, began := s.clock, phase := .started, ack := none, frame := none }
      calls := s.calls + 1 }

/-- What the call that holds the gate does next, when nothing keeps it waiting. -/
def CaptureSystem.callStep (s : CaptureSystem) : CaptureSystem :=
  match s.call with
  | none => s
  | some call =>
    match call.phase with
    | .started =>
      match s.live with
      | some i => { s with pendingDemand := some call.id }.setPhase call (.sending i)
      | none => s.finishEarly call (.error "capture is off")
    | .sending i =>
      match s.sessions i with
      | some session =>
        if session.requests.length < captureNowCapacity then
          (s.setSession i (some { session with requests := session.requests ++ [⟨call.id⟩] })).setPhase
            call .awaitingAck
        else s
      | none => s.finish call (.error "capture stopped")
    | .awaitingAck =>
      match call.ack with
      | some (.ok ()) => s.setPhase call .awaitingFrame
      | some (.error reason) => s.finish call (.error reason)
      | none => if s.ackOpen call.id then s else s.finish call (.error "capture stopped")
    | .awaitingFrame =>
      match call.frame with
      | some id => s.finish call (.ok id)
      | none =>
        if s.pendingDemand = some call.id then s
        else s.finish call (.error "captured frame was dropped before it could be marked")

/-- Either wait runs out, if what it waits for has not arrived. -/
def CaptureSystem.callTimeout (s : CaptureSystem) : CaptureSystem :=
  match s.call with
  | none => s
  | some call =>
    if (call.phase = .awaitingAck ∧ call.ack = none) ∨
        (call.phase = .awaitingFrame ∧ call.frame = none) then
      s.finish call (.error "capture timed out")
    else s

/-! ## Runs -/

inductive CaptureEvent where
  | tick (ms : Nat)
  | startCapture (setup : Setup)
  | stopCapture
  | loopExit (session : Nat)
  | wake (session : Nat) (trigger : CaptureTrigger) (probe : Probe)
  | wakeDemand (session : Nat) (probe : Probe)
  | reply (session : Nat) (frames : List FrameData)
  | sourceShutdown (session : Nat)
  | nextFrame (session : Nat)
  | dropFrame (session : Nat)
  | insertFrame (session : Nat)
  | handBack (session : Nat)
  | finishFrame (session : Nat)
  /-- Any other write to the frames. -/
  | write (w : FrameWrite)
  | callBegin
  | callStep
  | callTimeout
  deriving DecidableEq, Repr

def CaptureSystem.step (s : CaptureSystem) : CaptureEvent → CaptureSystem
  | .tick ms => { s with clock := s.clock + ms }
  | .startCapture setup => s.startCapture setup
  | .stopCapture => s.stopCapture
  | .loopExit i => s.loopExit i
  | .wake i trigger probe => s.wake i trigger probe
  | .wakeDemand i probe => s.wakeDemand i probe
  | .reply i frames => s.reply i frames
  | .sourceShutdown i => s.sourceShutdown i
  | .nextFrame i => s.nextFrame i
  | .dropFrame i => s.dropFrame i
  | .insertFrame i => s.insertFrame i
  | .handBack i => s.handBack i
  | .finishFrame i => s.finishFrame i
  | .write w => { s with db := w.apply s.db }
  | .callBegin => s.callBegin
  | .callStep => s.callStep
  | .callTimeout => s.callTimeout

def CaptureSystem.run (s : CaptureSystem) (events : List CaptureEvent) : CaptureSystem :=
  events.foldl CaptureSystem.step s

/-! ## What a call is promised -/

/-- The id is of a frame that was captured for the call's own request, after it began. -/
def CaptureSystem.ownFrame (s : CaptureSystem) (call : FinishedCall) : Bool :=
  match call.result with
  | .ok id => s.stored.any fun (storedId, f) =>
      decide (storedId = id) && f.frame.demanded && decide (f.servedCall = some call.id) &&
        decide (call.began ≤ f.frame.capturedAt)
  | .error _ => true

/-- The ids that the calls returned. -/
def CaptureSystem.returned (s : CaptureSystem) : List Int :=
  s.finished.filterMap fun call => call.result.toOption

def CaptureSystem.ownFrames (s : CaptureSystem) : Bool :=
  s.finished.all s.ownFrame && decide s.returned.Nodup

/-- A demanded frame is about to go to the call that waits in the slot, and the call that
demanded it has returned. -/
def CaptureSystem.handsBackLate (s : CaptureSystem) : CaptureEvent → Bool
  | .handBack i =>
    match s.sessions i with
    | some session =>
      match session.processing, s.pendingDemand with
      | .inserted f _, some _ => f.frame.demanded &&
          s.finished.any fun call => decide (f.servedCall = some call.id)
      | _, _ => false
    | none => false
  | _ => false

/-- No step of the run does so. -/
def CaptureSystem.neverLate : CaptureSystem → List CaptureEvent → Bool
  | _, [] => true
  | s, event :: events => !s.handsBackLate event && (s.step event).neverLate events

end ScreenSearch.Kernel
