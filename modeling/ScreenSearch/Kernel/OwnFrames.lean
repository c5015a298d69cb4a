import ScreenSearch.Kernel.CaptureNow

/-!
# A call returns its own frame

The slot carries no identity. A frame that a call demanded and that is inserted only after
the call ran out of time goes to whichever call waits in the slot by then.

Main results:

* `CaptureSystem.step_inv` — every step but such a late one keeps apart what was captured for
  which call;
* `captureNow_own` — in a run without a late step every call returns its own frame, and no
  two calls the same;
* `misrouted_frame` — a run in which a call returns the frame of the call before it.
-/

namespace ScreenSearch.Kernel

open Store Capture

variable {s s' : CaptureSystem} {i : Nat} {session : CaptureSession} {call : CaptureCall}

/-! ## The invariant -/

/-- The call that holds the gate, and since when. -/
def CaptureSystem.active (s : CaptureSystem) : Option (Nat × Int) :=
  s.call.map fun call => (call.id, call.began)

/-- A demanded frame was captured for a call that began, and if that one still waits, after
it began. -/
structure CycleFrame.Served (calls : Nat) (active : Option (Nat × Int)) (f : CycleFrame) :
    Prop where
  demanded : f.frame.demanded = true → f.servedCall.isSome = true
  issued : ∀ c, f.servedCall = some c → c < calls
  after : ∀ c began, f.servedCall = some c → active = some (c, began) → began ≤ f.frame.capturedAt

/-- The id is of a frame that was captured for the call. -/
def Owned (stored : List (Int × CycleFrame)) (c : Nat) (began id : Int) : Prop :=
  ∃ f, (id, f) ∈ stored ∧ f.frame.demanded = true ∧ f.servedCall = some c ∧
    began ≤ f.frame.capturedAt

def ProcessState.Served (calls : Nat) (active : Option (Nat × Int))
    (stored : List (Int × CycleFrame)) : ProcessState → Prop
  | .recognizing f => f.Served calls active
  | .inserted f id => f.Served calls active ∧ (id, f) ∈ stored
  | _ => True

structure CaptureSession.Served (calls : Nat) (active : Option (Nat × Int))
    (stored : List (Int × CycleFrame)) (session : CaptureSession) : Prop where
  requests : ∀ req ∈ session.requests, req.ack < calls
  demand : ∀ trigger req probe, session.source = .cycling trigger (some req) probe →
    req.ack < calls
  queue : ∀ f ∈ session.queue, f.Served calls active
  processing : session.processing.Served calls active stored

structure CaptureSystem.Inv (s : CaptureSystem) : Prop where
  db : ∃ metadata, s.db.WellFormed metadata ∧
    ∀ entry ∈ s.stored, entry.1 ≤ metadata.frameIdHighWater
  stored_nodup : (s.stored.map Prod.fst).Nodup
  sessions : ∀ i session, s.sessions i = some session → session.Served s.calls s.active s.stored
  began : ∀ c began, s.active = some (c, began) → began ≤ s.clock
  issued : ∀ c, c < s.calls ↔ c ∈ s.finished.map FinishedCall.id ∨
    c ∈ (s.active.map Prod.fst).toList
  calls_nodup : (s.finished.map FinishedCall.id ++ (s.active.map Prod.fst).toList).Nodup
  slot : ∀ c, s.pendingDemand = some c → s.active.map Prod.fst = some c
  started : ∀ call, s.call = some call → call.phase = .started → s.pendingDemand = none
  frame : ∀ call id, s.call = some call → call.frame = some id →
    Owned s.stored call.id call.began id
  finished : ∀ done ∈ s.finished, ∀ id, done.result = .ok id →
    Owned s.stored done.id done.began id

theorem active_eq (h : s.call = some call) : s.active = some (call.id, call.began) := by
  unfold CaptureSystem.active
  rw [h]
  rfl

theorem Owned.mono {stored stored' : List (Int × CycleFrame)} (hSub : stored ⊆ stored') {c : Nat}
    {began id : Int} (h : Owned stored c began id) : Owned stored' c began id := by
  obtain ⟨f, hMem, hRest⟩ := h
  exact ⟨f, hSub hMem, hRest⟩

/-! ## Sessions -/

/-- A step that puts a session in the place of another, or ends one. -/
theorem CaptureSystem.Inv.setSession (h : s.Inv) (i : Nat)
    (session : Option CaptureSession) (hServed : ∀ after, session = some after →
      after.Served s.calls s.active s.stored) :
    (s.setSession i session).Inv where
  db := h.db
  stored_nodup := h.stored_nodup
  sessions := by
    intro j after hAfter
    change Function.update s.sessions i session j = some after at hAfter
    by_cases hSame : j = i
    · subst hSame
      rw [Function.update_self] at hAfter
      exact hServed after hAfter
    · rw [Function.update_of_ne hSame] at hAfter
      exact h.sessions j after hAfter
  began := h.began
  issued := h.issued
  calls_nodup := h.calls_nodup
  slot := h.slot
  started := h.started
  frame := h.frame
  finished := h.finished

theorem CaptureSystem.Inv.setProcessing (h : s.Inv) (hSession : s.sessions i = some session)
    (processing : ProcessState) (hServed : processing.Served s.calls s.active s.stored) :
    (s.setProcessing i session processing).Inv := by
  refine h.setSession i _ fun after hAfter => ?_
  cases hAfter
  have hBefore := h.sessions i session hSession
  exact ⟨hBefore.requests, hBefore.demand, hBefore.queue, hServed⟩

/-- A step that leaves all but which session is the live one. -/
theorem CaptureSystem.Inv.withLive (h : s.Inv) (live : Option Nat) :
    { s with live := live }.Inv :=
  ⟨h.db, h.stored_nodup, h.sessions, h.began, h.issued, h.calls_nodup, h.slot, h.started,
    h.frame, h.finished⟩

theorem CaptureSystem.Inv.clearSlot (h : s.Inv) : { s with pendingDemand := none }.Inv :=
  ⟨h.db, h.stored_nodup, h.sessions, h.began, h.issued, h.calls_nodup,
    (fun _ hSlot => by cases hSlot), (fun _ _ _ => rfl), h.frame, h.finished⟩

/-- What arrives in a channel of the call leaves which call it is. -/
theorem CaptureSystem.Inv.mapCall (h : s.Inv) {f : CaptureCall → CaptureCall}
    (hId : ∀ call, (f call).id = call.id) (hBegan : ∀ call, (f call).began = call.began)
    (hPhase : ∀ call, (f call).phase = .started → call.phase = .started)
    (hFrame : ∀ call id, s.call = some call → (f call).frame = some id →
      Owned s.stored call.id call.began id) :
    { s with call := s.call.map f }.Inv := by
  have hActive : ({ s with call := s.call.map f } : CaptureSystem).active = s.active := by
    unfold CaptureSystem.active
    dsimp only
    rw [Option.map_map]
    refine congrArg (Option.map · s.call) (funext fun call => ?_)
    rw [Function.comp_apply, hId, hBegan]
  refine ⟨h.db, h.stored_nodup, ?_, ?_, ?_, ?_, ?_, ?_, ?_, h.finished⟩
  · rw [hActive]; exact h.sessions
  · rw [hActive]; exact h.began
  · rw [hActive]; exact h.issued
  · rw [hActive]; exact h.calls_nodup
  · rw [hActive]; exact h.slot
  · intro after hAfter hStarted
    obtain ⟨call, hCall, rfl⟩ := Option.map_eq_some_iff.mp hAfter
    exact h.started call hCall (hPhase call hStarted)
  · intro after id hAfter hArrived
    obtain ⟨call, hCall, rfl⟩ := Option.map_eq_some_iff.mp hAfter
    rw [hId, hBegan]
    exact hFrame call id hCall hArrived

theorem CaptureSystem.Inv.sendAck (h : s.Inv) (req : CaptureNowRequest) (ack : Except String Unit) :
    (s.sendAck req ack).Inv := by
  refine h.mapCall ?_ ?_ ?_ ?_
  · intro call; split <;> rfl
  · intro call; split <;> rfl
  · intro call hStarted
    split at hStarted <;> exact hStarted
  · intro call id hCall hArrived
    refine h.frame call id hCall ?_
    split at hArrived <;> exact hArrived

theorem CaptureSystem.Inv.denyDemand (h : s.Inv) (demand : Option CaptureNowRequest)
    (reason : String) : (s.denyDemand demand reason).Inv := by
  rcases demand with - | req
  · exact h
  · exact h.sendAck req _

/-- The id that is handed back is of a frame of the call that gets it. -/
theorem CaptureSystem.Inv.sendFrame (h : s.Inv) {c : Nat} {id : Int}
    (hOwned : ∀ call, s.call = some call → call.id = c → Owned s.stored call.id call.began id) :
    (s.sendFrame c id).Inv := by
  refine h.mapCall ?_ ?_ ?_ ?_
  · intro call; split <;> rfl
  · intro call; split <;> rfl
  · intro call hStarted
    split at hStarted <;> exact hStarted
  · intro call arrived hCall hArrived
    split at hArrived
    · next hId =>
      cases hArrived
      exact hOwned call hCall hId
    · exact h.frame call arrived hCall hArrived

/-! ## The source's steps -/

theorem CaptureSystem.wake_inv (h : s.Inv) (i : Nat) (trigger : CaptureTrigger) (probe : Probe) :
    (s.wake i trigger probe).Inv := by
  unfold CaptureSystem.wake
  rcases hSession : s.sessions i with - | session
  · exact h
  dsimp only
  split
  · refine h.setSession i _ fun after hAfter => ?_
    cases hAfter
    have hBefore := h.sessions i session hSession
    exact ⟨hBefore.requests, (fun _ _ _ hSource => by cases hSource), hBefore.queue,
      hBefore.processing⟩
  · exact h

theorem CaptureSystem.wakeDemand_inv (h : s.Inv) (i : Nat) (probe : Probe) :
    (s.wakeDemand i probe).Inv := by
  unfold CaptureSystem.wakeDemand
  rcases hSession : s.sessions i with - | session
  · exact h
  have hBefore := h.sessions i session hSession
  dsimp only
  rcases hRequests : session.requests with - | ⟨req, rest⟩
  · exact h
  have hReq : req.ack < s.calls := hBefore.requests req (by rw [hRequests]; exact List.mem_cons_self)
  have hRest : ∀ other ∈ rest, other.ack < s.calls := fun other hOther =>
    hBefore.requests other (by rw [hRequests]; exact List.mem_cons_of_mem _ hOther)
  dsimp only
  split
  · split
    · refine (h.setSession i _ fun after hAfter => ?_).denyDemand _ _
      cases hAfter
      exact ⟨hRest, hBefore.demand, hBefore.queue, hBefore.processing⟩
    · refine h.setSession i _ fun after hAfter => ?_
      cases hAfter
      refine ⟨hRest, fun _ other _ hSource => ?_, hBefore.queue, hBefore.processing⟩
      cases hSource
      exact hReq
  · exact h

theorem mem_cycleFrames {setup : Setup} {probe : Probe} {trigger : CaptureTrigger}
    {bypass : Option Nat} {capturedAt : Int} {frames : List FrameData} {frame : CapturedFrame}
    (h : frame ∈ cycleFrames setup probe trigger bypass capturedAt frames) :
    frame.capturedAt = capturedAt ∧ (frame.demanded = true → bypass.isSome = true) := by
  obtain ⟨fd, -, hFrame⟩ := List.mem_filterMap.mp h
  obtain ⟨pixels, -, rfl⟩ := Option.map_eq_some_iff.mp hFrame
  refine ⟨rfl, fun hDemanded => ?_⟩
  rw [of_decide_eq_true hDemanded]
  rfl

theorem bypassFor_isSome (setup : Setup) (probe : Probe) (demanded : Bool) :
    (bypassFor setup probe demanded).isSome = demanded := by
  rcases demanded <;> rfl

/-- A call that waits began before now, so what a cycle brings now was captured after. -/
theorem CaptureSystem.reply_inv (h : s.Inv) (i : Nat) (frames : List FrameData) :
    (s.reply i frames).Inv := by
  unfold CaptureSystem.reply
  rcases hSession : s.sessions i with - | session
  · exact h
  have hBefore := h.sessions i session hSession
  dsimp only
  rcases hSource : session.source with - | ⟨trigger, demand, probe⟩
  · exact h
  dsimp only
  generalize hQueued : cycleFrames _ _ _ _ _ _ = queued
  have hServed : ∀ frame ∈ queued,
      CycleFrame.Served s.calls s.active ⟨frame, demand.map CaptureNowRequest.ack⟩ := by
    intro frame hFrame
    rw [← hQueued] at hFrame
    obtain ⟨hCapturedAt, hBypass⟩ := mem_cycleFrames hFrame
    refine ⟨fun hDemanded => ?_, fun c hServing => ?_, fun c began hServing hActive => ?_⟩
    · rw [Option.isSome_map]
      exact bypassFor_isSome session.setup probe demand.isSome ▸ hBypass hDemanded
    · obtain ⟨req, rfl, rfl⟩ := Option.map_eq_some_iff.mp hServing
      exact hBefore.demand trigger req probe hSource
    · show began ≤ frame.capturedAt
      rw [hCapturedAt]
      exact h.began c began hActive
  have hQueue : (s.setSession i (some { session with
      source := .waiting
      queue := session.queue ++ queued.map fun frame =>
        { frame := frame, servedCall := demand.map CaptureNowRequest.ack } })).Inv := by
    refine h.setSession i _ fun after hAfter => ?_
    cases hAfter
    refine ⟨hBefore.requests, (fun _ _ _ hWaiting => by cases hWaiting), ?_, hBefore.processing⟩
    intro f hf
    rcases List.mem_append.mp hf with hOld | hNew
    · exact hBefore.queue f hOld
    · obtain ⟨frame, hFrame, rfl⟩ := List.mem_map.mp hNew
      exact hServed frame hFrame
  rcases demand with - | req
  · exact hQueue
  · exact hQueue.sendAck req _

theorem CaptureSystem.sourceShutdown_inv (h : s.Inv) (i : Nat) : (s.sourceShutdown i).Inv := by
  unfold CaptureSystem.sourceShutdown
  rcases s.sessions i with - | session
  · exact h
  dsimp only
  rcases session.source with - | ⟨-, demand, -⟩
  · exact h
  dsimp only
  have hDenied := (h.setSession i none fun _ hNone => by cases hNone).denyDemand demand
    "the capture worker is unavailable"
  split
  · exact hDenied.withLive none
  · exact hDenied

/-! ## The loop's steps -/

theorem CaptureSystem.nextFrame_inv (h : s.Inv) (i : Nat) : (s.nextFrame i).Inv := by
  unfold CaptureSystem.nextFrame
  rcases hSession : s.sessions i with - | session
  · exact h
  have hBefore := h.sessions i session hSession
  dsimp only
  split
  · next f rest hQueue _ _ =>
    refine h.setSession i _ fun after hAfter => ?_
    cases hAfter
    have hMem : ∀ other ∈ f :: rest, other.Served s.calls s.active := by
      rw [← hQueue]
      exact hBefore.queue
    exact ⟨hBefore.requests, hBefore.demand, fun other hOther =>
      hMem other (List.mem_cons_of_mem _ hOther), hMem f List.mem_cons_self⟩
  · exact h

theorem CaptureSystem.dropFrame_inv (h : s.Inv) (i : Nat) : (s.dropFrame i).Inv := by
  unfold CaptureSystem.dropFrame
  rcases hSession : s.sessions i with - | session
  · exact h
  dsimp only
  split
  · exact h.setProcessing hSession .idle trivial
  · exact h

theorem CaptureSystem.finishFrame_inv (h : s.Inv) (i : Nat) : (s.finishFrame i).Inv := by
  unfold CaptureSystem.finishFrame
  rcases hSession : s.sessions i with - | session
  · exact h
  dsimp only
  split
  · exact h.setProcessing hSession .idle trivial
  · exact h

/-- The tables may be written, and frames stored, as long as no id is stored twice. -/
theorem CaptureSystem.Inv.store (h : s.Inv) {db : FrameTables}
    {stored : List (Int × CycleFrame)} (hSub : s.stored ⊆ stored)
    (hDb : ∃ metadata, db.WellFormed metadata ∧
      ∀ entry ∈ stored, entry.1 ≤ metadata.frameIdHighWater)
    (hNodup : (stored.map Prod.fst).Nodup) : { s with db := db, stored := stored }.Inv where
  db := hDb
  stored_nodup := hNodup
  sessions := by
    intro j session hSession
    have hBefore := h.sessions j session hSession
    refine ⟨hBefore.requests, hBefore.demand, hBefore.queue, ?_⟩
    show session.processing.Served s.calls s.active stored
    have hProcessing := hBefore.processing
    rcases hState : session.processing with - | f | ⟨f, id⟩ | id <;> rw [hState] at hProcessing
    · trivial
    · exact hProcessing
    · exact ⟨hProcessing.1, hSub hProcessing.2⟩
    · trivial
  began := h.began
  issued := h.issued
  calls_nodup := h.calls_nodup
  slot := h.slot
  started := h.started
  frame := fun call id hCall hArrived => (h.frame call id hCall hArrived).mono hSub
  finished := fun done hDone id hResult => (h.finished done hDone id hResult).mono hSub

theorem CaptureSystem.insertFrame_inv (h : s.Inv) (i : Nat) : (s.insertFrame i).Inv := by
  unfold CaptureSystem.insertFrame
  rcases hSession : s.sessions i with - | session
  · exact h
  have hBefore := (h.sessions i session hSession).processing
  dsimp only
  rcases hProcessing : session.processing with - | f | ⟨f, id⟩ | id
  · exact h
  · rw [hProcessing] at hBefore
    dsimp only
    rcases hInsert : Store.insertFrame (newFrameOf f.frame) s.db with e | ⟨id, db⟩
    · exact h.setProcessing hSession .idle trivial
    obtain ⟨metadata, hWell, hLe⟩ := h.db
    obtain ⟨hId, hWell', -⟩ := insertFrame_fresh hWell hInsert
    have hNew : ∀ entry ∈ s.stored ++ [(id, f)],
        entry.1 ≤ ((metadata.frameIdHighWater + 1 : Nat) : Int) := by
      intro entry hEntry
      rcases List.mem_append.mp hEntry with hOld | hLast
      · have := hLe entry hOld
        push_cast
        omega
      · rw [List.mem_singleton.mp hLast, hId]
        push_cast
        omega
    have hNodup : ((s.stored ++ [(id, f)]).map Prod.fst).Nodup := by
      rw [List.map_append]
      refine List.nodup_append.mpr ⟨h.stored_nodup, List.nodup_singleton _, ?_⟩
      intro old hOld new hLast
      obtain ⟨entry, hEntry, rfl⟩ := List.mem_map.mp hOld
      have := hLe entry hEntry
      rw [List.mem_singleton.mp hLast]
      omega
    have hStored := h.store (List.subset_append_left s.stored [(id, f)]) ⟨_, hWell', hNew⟩ hNodup
    exact hStored.setProcessing hSession _
      ⟨hBefore, List.mem_append_right _ (List.mem_singleton.mpr rfl)⟩
  · exact h
  · exact h

/-- An active call is the only one below the counter that has not returned. -/
theorem CaptureSystem.Inv.active_of_served (h : s.Inv) {c : Nat} (hLt : c < s.calls)
    (hNotDone : c ∉ s.finished.map FinishedCall.id) : s.active.map Prod.fst = some c :=
  Option.mem_toList.mp (((h.issued c).mp hLt).resolve_left hNotDone)

/-- If the call that demanded the frame has not returned, it is the one that waits. -/
theorem CaptureSystem.handBack_inv (h : s.Inv) (i : Nat)
    (hLate : s.handsBackLate (.handBack i) = false) :
    (s.handBack i).Inv := by
  unfold CaptureSystem.handBack
  rcases hSession : s.sessions i with - | session
  · exact h
  have hBefore := (h.sessions i session hSession).processing
  dsimp only
  rcases hProcessing : session.processing with - | f | ⟨f, id⟩ | id
  · exact h
  · exact h
  · rw [hProcessing] at hBefore
    dsimp only
    have hStoring := h.setProcessing hSession (.storingText id) trivial
    have hKeeps : (s.setProcessing i session (.storingText id)).pendingDemand =
        s.pendingDemand := rfl
    split
    · next hDemanded =>
      rcases hSlot : s.pendingDemand with - | c
      · rw [hKeeps, hSlot]
        exact hStoring
      · obtain ⟨own, hOwn⟩ := Option.isSome_iff_exists.mp (hBefore.1.demanded hDemanded)
        have hNotDone : own ∉ s.finished.map FinishedCall.id := by
          intro hDone
          obtain ⟨done, hMem, rfl⟩ := List.mem_map.mp hDone
          have hHandsBack : s.handsBackLate (.handBack i) = true := by
            simp only [CaptureSystem.handsBackLate, hSession, hProcessing, hSlot, hDemanded,
              Bool.true_and, List.any_eq_true, decide_eq_true_eq]
            exact ⟨done, hMem, hOwn⟩
          rw [hHandsBack] at hLate
          cases hLate
        have hActive := h.active_of_served (hBefore.1.issued own hOwn) hNotDone
        rw [hKeeps, hSlot]
        refine hStoring.clearSlot.sendFrame fun call hCall hId => ?_
        change s.call = some call at hCall
        have hCallActive := active_eq hCall
        rw [hCallActive] at hActive
        obtain rfl : call.id = own := Option.some.inj hActive
        exact ⟨f, hBefore.2, hDemanded, hOwn, hBefore.1.after _ _ hOwn hCallActive⟩
    · exact hStoring
  · exact h

/-! ## Starting and stopping -/

theorem CaptureSystem.startCapture_inv (h : s.Inv) (setup : Setup) : (s.startCapture setup).Inv := by
  unfold CaptureSystem.startCapture
  split
  · exact h
  · have hStarted := h.setSession s.generation
      (some ⟨setup, [], .waiting, [], .idle, false⟩) fun after hAfter => by
        cases hAfter
        exact ⟨by simp, (fun _ _ _ hSource => by cases hSource), by simp, trivial⟩
    exact ⟨hStarted.db, hStarted.stored_nodup, hStarted.sessions, hStarted.began, hStarted.issued,
      hStarted.calls_nodup, hStarted.slot, hStarted.started, hStarted.frame, hStarted.finished⟩

theorem CaptureSystem.stopCapture_inv (h : s.Inv) : s.stopCapture.Inv := by
  unfold CaptureSystem.stopCapture
  rcases s.live with - | i
  · exact h
  dsimp only
  rcases hSession : s.sessions i with - | session
  · exact h.withLive none
  · refine (h.withLive none).setSession i _ fun after hAfter => ?_
    cases hAfter
    have hBefore := h.sessions i session hSession
    exact ⟨hBefore.requests, hBefore.demand, hBefore.queue, hBefore.processing⟩

theorem CaptureSystem.loopExit_inv (h : s.Inv) (i : Nat) : (s.loopExit i).Inv := by
  unfold CaptureSystem.loopExit
  rcases s.sessions i with - | session
  · exact h
  dsimp only
  split
  · exact h.setSession i _ fun _ hNone => by cases hNone
  · exact h

/-! ## The call's steps -/

theorem CaptureSystem.setPhase_inv (h : s.Inv) (hCall : s.call = some call) (phase : CallPhase)
    (hPhase : phase ≠ .started) : (s.setPhase call phase).Inv := by
  have hMap := h.mapCall (f := fun call => { call with phase := phase }) (fun _ => rfl)
    (fun _ => rfl) (fun _ hStarted => absurd hStarted hPhase)
    (fun waiting id hWaiting hArrived => h.frame waiting id hWaiting hArrived)
  rw [hCall] at hMap
  exact hMap

/-- Of a call that returned nothing more is asked than what it returned. -/
theorem CaptureSystem.finishEarly_inv (h : s.Inv) (hCall : s.call = some call)
    (hSlot : s.pendingDemand = none)
    {result : Except String Int}
    (hResult : ∀ id, result = .ok id → Owned s.stored call.id call.began id) :
    (s.finishEarly call result).Inv := by
  have hActive := active_eq hCall
  have hIds : (s.finishEarly call result).finished.map FinishedCall.id =
      s.finished.map FinishedCall.id ++ [call.id] := List.map_append
  refine ⟨h.db, h.stored_nodup, ?_, ?_, ?_, ?_, ?_, ?_, ?_, ?_⟩
  · intro i session hSession
    have hBefore := h.sessions i session hSession
    have hServed : ∀ f : CycleFrame, f.Served s.calls s.active → f.Served s.calls none :=
      fun f hf => ⟨hf.demanded, hf.issued, fun _ _ _ hNone => by cases hNone⟩
    refine ⟨hBefore.requests, hBefore.demand, fun f hf => hServed f (hBefore.queue f hf), ?_⟩
    have hProcessing := hBefore.processing
    rcases hState : session.processing with - | f | ⟨f, id⟩ | id <;> rw [hState] at hProcessing
    · trivial
    · exact hServed f hProcessing
    · exact ⟨hServed f hProcessing.1, hProcessing.2⟩
    · trivial
  · intro _ _ hNone
    cases hNone
  · intro c
    rw [hIds]
    have hIssued := h.issued c
    rw [hActive] at hIssued
    simpa [CaptureSystem.active, CaptureSystem.finishEarly] using hIssued
  · rw [hIds]
    have hNodup := h.calls_nodup
    rw [hActive] at hNodup
    simpa [CaptureSystem.active, CaptureSystem.finishEarly] using hNodup
  · intro c hSome
    change s.pendingDemand = some c at hSome
    rw [hSlot] at hSome
    cases hSome
  · intro _ hNone
    cases hNone
  · intro _ _ hNone
    cases hNone
  · intro done hDone id hOk
    rcases List.mem_append.mp hDone with hOld | hNew
    · exact h.finished done hOld id hOk
    · obtain rfl := List.mem_singleton.mp hNew
      exact hResult id hOk

theorem CaptureSystem.finish_inv (h : s.Inv) (hCall : s.call = some call) {result : Except String Int}
    (hResult : ∀ id, result = .ok id → Owned s.stored call.id call.began id) :
    (s.finish call result).Inv :=
  CaptureSystem.finishEarly_inv h.clearSlot hCall rfl hResult

theorem CaptureSystem.callBegin_inv (h : s.Inv) : s.callBegin.Inv := by
  unfold CaptureSystem.callBegin
  rcases hCall : s.call with - | call
  swap
  · exact h
  have hNone : s.active = none := by
    unfold CaptureSystem.active
    rw [hCall]
    rfl
  have hNotIssued : s.calls ∉ s.finished.map FinishedCall.id := fun hMem =>
    absurd ((h.issued s.calls).mpr (Or.inl hMem)) (Nat.lt_irrefl _)
  -- no frame in work was demanded by the call that begins now
  have hServed : ∀ f : CycleFrame, f.Served s.calls s.active →
      f.Served (s.calls + 1) (some (s.calls, s.clock)) := by
    intro f hf
    refine ⟨hf.demanded, fun c hc => Nat.lt_succ_of_lt (hf.issued c hc), ?_⟩
    intro c began hc hNow
    cases hNow
    exact absurd (hf.issued _ hc) (Nat.lt_irrefl _)
  rw [if_neg (by simp)]
  refine ⟨h.db, h.stored_nodup, ?_, ?_, ?_, ?_, ?_, ?_, ?_, h.finished⟩
  · intro i session hSession
    have hBefore := h.sessions i session hSession
    refine ⟨fun req hReq => Nat.lt_succ_of_lt (hBefore.requests req hReq),
      fun trigger req probe hSource => Nat.lt_succ_of_lt (hBefore.demand trigger req probe hSource),
      fun f hf => hServed f (hBefore.queue f hf), ?_⟩
    have hProcessing := hBefore.processing
    rcases hState : session.processing with - | f | ⟨f, id⟩ | id <;> rw [hState] at hProcessing
    · trivial
    · exact hServed f hProcessing
    · exact ⟨hServed f hProcessing.1, hProcessing.2⟩
    · trivial
  · intro c began hNow
    cases hNow
    exact le_rfl
  · intro c
    have hIssued := h.issued c
    rw [hNone] at hIssued
    show c < s.calls + 1 ↔ c ∈ s.finished.map FinishedCall.id ∨ c ∈ [s.calls]
    rw [List.mem_singleton, Nat.lt_succ_iff_lt_or_eq, hIssued]
    simp
  · have hNodup := h.calls_nodup
    rw [hNone] at hNodup
    change (s.finished.map FinishedCall.id ++ []).Nodup at hNodup
    rw [List.append_nil] at hNodup
    show (s.finished.map FinishedCall.id ++ [s.calls]).Nodup
    refine List.nodup_append.mpr ⟨hNodup, List.nodup_singleton _, fun c hc c' hc' => ?_⟩
    rw [List.mem_singleton.mp hc']
    exact fun hSame => hNotIssued (hSame ▸ hc)
  · intro c hSlot
    have := h.slot c hSlot
    rw [hNone] at this
    cases this
  · intro _ _ _
    rcases hSlot : s.pendingDemand with - | c
    · rfl
    · have := h.slot c hSlot
      rw [hNone] at this
      cases this
  · intro after id hAfter hArrived
    cases hAfter
    cases hArrived

/-- The call puts its own sender into the slot. -/
theorem CaptureSystem.fillSlot_inv (h : s.Inv) (hCall : s.call = some call) (i : Nat) :
    ({ s with pendingDemand := some call.id }.setPhase call (.sending i)).Inv := by
  have hSending := CaptureSystem.setPhase_inv h hCall (.sending i) (by simp)
  refine ⟨hSending.db, hSending.stored_nodup, hSending.sessions, hSending.began, hSending.issued,
    hSending.calls_nodup, ?_, ?_, hSending.frame, hSending.finished⟩
  · intro c hSlot
    cases hSlot
    rfl
  · intro after hAfter hStarted
    cases hAfter
    cases hStarted

theorem CaptureSystem.callStep_inv (h : s.Inv) : s.callStep.Inv := by
  unfold CaptureSystem.callStep
  rcases hCall : s.call with - | call
  · exact h
  dsimp only
  rcases hPhase : call.phase with - | i | - | -
  · dsimp only
    split
    · next i _ => exact CaptureSystem.fillSlot_inv h hCall i
    · exact CaptureSystem.finishEarly_inv h hCall (h.started call hCall hPhase)
        fun _ hOk => by cases hOk
  · dsimp only
    rcases hSession : s.sessions i with - | session
    · exact CaptureSystem.finish_inv h hCall fun _ hOk => by cases hOk
    dsimp only
    split
    · have hBefore := h.sessions i session hSession
      have hIssued : call.id < s.calls := by
        refine (h.issued call.id).mpr (Or.inr ?_)
        rw [active_eq hCall]
        exact List.mem_singleton.mpr rfl
      refine CaptureSystem.setPhase_inv (h.setSession i _ fun after hAfter => ?_) hCall _ (by simp)
      cases hAfter
      refine ⟨fun req hReq => ?_, hBefore.demand, hBefore.queue, hBefore.processing⟩
      rcases List.mem_append.mp hReq with hOld | hNew
      · exact hBefore.requests req hOld
      · rw [List.mem_singleton.mp hNew]
        exact hIssued
    · exact h
  · dsimp only
    rcases call.ack with - | reason | -
    · dsimp only
      split
      · exact h
      · exact CaptureSystem.finish_inv h hCall fun _ hOk => by cases hOk
    · exact CaptureSystem.finish_inv h hCall fun _ hOk => by cases hOk
    · exact CaptureSystem.setPhase_inv h hCall _ (by simp)
  · dsimp only
    rcases hFrame : call.frame with - | id
    · dsimp only
      split
      · exact h
      · exact CaptureSystem.finish_inv h hCall fun _ hOk => by cases hOk
    · refine CaptureSystem.finish_inv h hCall fun id' hOk => ?_
      cases hOk
      exact h.frame call id hCall hFrame

theorem CaptureSystem.callTimeout_inv (h : s.Inv) : s.callTimeout.Inv := by
  unfold CaptureSystem.callTimeout
  rcases hCall : s.call with - | call
  · exact h
  dsimp only
  split
  · exact CaptureSystem.finish_inv h hCall fun _ hOk => by cases hOk
  · exact h

/-! ## Runs -/

theorem CaptureSystem.start_inv {metadata : HistoryMetadata} {db : FrameTables}
    (h : db.WellFormed metadata) (clock : Int) : (CaptureSystem.start clock db).Inv where
  db := ⟨metadata, h, by simp [CaptureSystem.start]⟩
  stored_nodup := List.nodup_nil
  sessions := fun _ _ hSession => by cases hSession
  began := fun _ _ hActive => by cases hActive
  issued := by simp [CaptureSystem.start, CaptureSystem.active]
  calls_nodup := List.nodup_nil
  slot := fun _ hSlot => by cases hSlot
  started := fun _ hCall => by cases hCall
  frame := fun _ _ hCall => by cases hCall
  finished := by simp [CaptureSystem.start]

theorem CaptureSystem.step_inv (h : s.Inv) {event : CaptureEvent}
    (hLate : s.handsBackLate event = false) :
    (s.step event).Inv := by
  rcases event with ms | setup | - | i | ⟨i, trigger, probe⟩ | ⟨i, probe⟩ | ⟨i, frames⟩ | i | i |
    i | i | i | i | w | - | - | -
  · refine ⟨h.db, h.stored_nodup, h.sessions, fun c began hActive => ?_, h.issued, h.calls_nodup,
      h.slot, h.started, h.frame, h.finished⟩
    have := h.began c began hActive
    show began ≤ s.clock + ms
    omega
  · exact CaptureSystem.startCapture_inv h setup
  · exact CaptureSystem.stopCapture_inv h
  · exact CaptureSystem.loopExit_inv h i
  · exact CaptureSystem.wake_inv h i trigger probe
  · exact CaptureSystem.wakeDemand_inv h i probe
  · exact CaptureSystem.reply_inv h i frames
  · exact CaptureSystem.sourceShutdown_inv h i
  · exact CaptureSystem.nextFrame_inv h i
  · exact CaptureSystem.dropFrame_inv h i
  · exact CaptureSystem.insertFrame_inv h i
  · exact CaptureSystem.handBack_inv h i hLate
  · exact CaptureSystem.finishFrame_inv h i
  · obtain ⟨metadata, hWell, hLe⟩ := h.db
    obtain ⟨highWater, hUp, hWell', -⟩ := w.apply_wellFormed hWell
    refine h.store (List.Subset.refl _) ⟨_, hWell', fun entry hEntry => ?_⟩ h.stored_nodup
    have := hLe entry hEntry
    show entry.1 ≤ (highWater : Int)
    omega
  · exact CaptureSystem.callBegin_inv h
  · exact CaptureSystem.callStep_inv h
  · exact CaptureSystem.callTimeout_inv h

theorem CaptureSystem.run_inv {events : List CaptureEvent} (h : s.Inv)
    (hNever : s.neverLate events = true) :
    (s.run events).Inv := by
  induction events generalizing s with
  | nil => exact h
  | cons event events ih =>
    simp only [CaptureSystem.neverLate, Bool.and_eq_true, Bool.not_eq_true'] at hNever
    exact ih (CaptureSystem.step_inv h hNever.1) hNever.2

/-- An id is stored once, so it tells the call that its frame was captured for. -/
theorem returned_nodup (h : s.Inv) : s.returned.Nodup := by
  have hCalls : (s.finished.map FinishedCall.id).Nodup := (List.nodup_append.mp h.calls_nodup).1
  unfold CaptureSystem.returned
  refine List.pairwise_filterMap.mpr ((List.pairwise_map.mp hCalls).imp_of_mem ?_)
  intro done done' hDone hDone' hNe id hId id' hId' hSame
  subst hSame
  have hOk : ∀ {r : Except String Int}, r.toOption = some id → r = .ok id := by
    intro r hr
    rcases r with e | a
    · cases hr
    · cases hr; rfl
  obtain ⟨f, hMem, -, hServed, -⟩ := h.finished done hDone id (hOk hId)
  obtain ⟨f', hMem', -, hServed', -⟩ := h.finished done' hDone' id (hOk hId')
  have hEq := List.inj_on_of_nodup_map h.stored_nodup hMem hMem' rfl
  cases hEq
  rw [hServed] at hServed'
  exact hNe (Option.some.inj hServed')

theorem ownFrames_of_inv (h : s.Inv) : s.ownFrames = true := by
  simp only [CaptureSystem.ownFrames, Bool.and_eq_true, List.all_eq_true, decide_eq_true_eq]
  refine ⟨fun done hDone => ?_, returned_nodup h⟩
  unfold CaptureSystem.ownFrame
  rcases hResult : done.result with e | id
  · rfl
  obtain ⟨f, hMem, hDemanded, hServed, hAfter⟩ := h.finished done hDone id hResult
  refine List.any_eq_true.mpr ⟨(id, f), hMem, ?_⟩
  simp [hDemanded, hServed, hAfter]

/-- A run may interleave the call with any number of sessions and with every delay; of its
steps only the hand-back of a frame whose call is over is left out. -/
theorem captureNow_own {metadata : HistoryMetadata} {db : FrameTables} (clock : Int)
    (events : List CaptureEvent) (hDb : db.WellFormed metadata)
    (hNever : (CaptureSystem.start clock db).neverLate events = true) :
    ((CaptureSystem.start clock db).run events).ownFrames = true :=
  ownFrames_of_inv (CaptureSystem.run_inv (CaptureSystem.start_inv hDb clock) hNever)

/-! ## A late frame -/

def demoTables : FrameTables :=
  setupHistoryMetadata "00000000-0000-4000-8000-000000000000" ⟨none, none, [], [], []⟩

def demoSetup : Setup where
  config := { monitors := [], diffThreshold := 0, excludedApps := ["KeePass"], pauseOnLock := true }
  monitors := [⟨0, "Monitor 0", 1, 1, true⟩]
  monitorBounds := [⟨0, 0, 0, 1, 1⟩]

def demoProbe : Probe where
  locked := false
  foregroundPid := 7
  ownPid := 42
  appHint := some "firefox"
  windowTitle := some "Inbox"
  windowRect := none
  hwnd := none

/-- A call takes the gate, fills the slot and sends its request, which is then served. -/
def demoDemand : List CaptureEvent :=
  [.callBegin, .callStep, .callStep, .wakeDemand 0 demoProbe, .reply 0 [⟨0, 1, 1, [0, 0, 0, 255], ""⟩],
    .callStep, .nextFrame 0]

def demoStore : List CaptureEvent := [.insertFrame 0, .handBack 0, .finishFrame 0]

/-- The recognizer takes longer than the first call waits; its frame is inserted when the
second call waits in the slot. -/
def lateCapture : List CaptureEvent :=
  [.startCapture demoSetup] ++ demoDemand ++ [.tick 5000, .callTimeout, .callBegin, .callStep, .callStep]
    ++ demoStore ++ demoDemand.drop 3 ++ [.callStep]

theorem demoTables_wellFormed :
    demoTables.WellFormed ⟨"00000000-0000-4000-8000-000000000000", 0⟩ :=
  @setupHistoryMetadata_wellFormed ⟨none, none, [], [], []⟩ _ (by decide +kernel) ⟨rfl, rfl⟩
    List.nodup_nil (fun _ hFrame => by cases hFrame) (fun _ hFrame => by cases hFrame)

theorem misrouted_frame :
    ¬ ∀ (metadata : HistoryMetadata) (db : FrameTables) (clock : Int) (events : List CaptureEvent),
      db.WellFormed metadata → ((CaptureSystem.start clock db).run events).ownFrames = true := by
  intro h
  have hMisrouted : ((CaptureSystem.start 0 demoTables).run lateCapture).ownFrames = false := by
    decide +kernel
  rw [h _ demoTables 0 lateCapture demoTables_wellFormed] at hMisrouted
  cases hMisrouted

theorem captureNow_own_inTime :
    ((CaptureSystem.start 0 demoTables).run
      ([.startCapture demoSetup] ++ demoDemand ++ demoStore ++ [.callStep])).ownFrames = true :=
  captureNow_own 0 _ demoTables_wellFormed (by decide +kernel)

end ScreenSearch.Kernel
