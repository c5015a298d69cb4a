import ScreenSearch.Memory.Dispatch
import ScreenSearch.Memory.Retarget

/-!
# Delivery across the lives of the process

The process may stop at any moment. Each of its lives begins with the recovery of what
the one before left behind; until that is done, and for good if it fails, only commands
are carried out.

Main results:

* `recover_unknown` — recovery makes an interrupted delivery unknown;
* `lives_inOrder` — over all lives chunks are dispatched in order;
* `lives_spare` — what was being sent when the process stopped is not dispatched again
  unless it is resolved;
* `dispatch_safe` — both.
-/

namespace ScreenSearch.Memory

open Process Store

/-- What the user may do while no worker runs. -/
def Action.isCommand : Action → Bool
  | .enqueue _ _ => true
  | .retry _ => true
  | .resolve _ _ => true
  | _ => false

/-- One life of the process: the commands before the recovery is done, and what comes
after it. -/
structure Life where
  early : List Action
  later : List Action
  commands : ∀ action ∈ early, action.isCommand = true
  once : ∀ action ∈ later, action ≠ .recover

/-- Without recovery the worker does not start. -/
def live (env : Environment) (life : Life) : MemoryProgram Unit := do
  session env life.early
  match ← (perform env .recover).attempt with
  | .ok _ => session env life.later
  | .error _ => session env (life.later.filter Action.isCommand)

/-- Where the process is after its lives, however each of them ended. -/
def after (env : Environment) (lives : List Life) (p : MemoryProc) : MemoryProc :=
  lives.foldl (fun p life => (live env life p).2) p

variable {env : Environment} {S : ReportDelivery → Prop} {I : MemoryProc → Prop}
  {P : MemoryDb → ReportDelivery → Prop} {past : List (Moment MemoryDb Event)}
  {F : MemoryDb → Prop} {id : String}

/-! ## Actions -/

theorem command_leaves (hS : ∀ d, S d → d.state = .sending ∨ d.state = .unknownDelivery)
    {action : Action} (hCommand : action.isCommand = true)
    (hResolve : ∀ attemptId resolution, action = .resolve attemptId resolution →
      ∀ d, S d → d.id ≠ attemptId) : LeavesAlone S (perform env action) := by
  rcases action with ⟨run, prior⟩ | _ | _ | ⟨runId⟩ | _ | _ | _ | ⟨attemptId, resolution⟩
  · exact enqueue_leaves run prior
  · cases hCommand
  · cases hCommand
  · exact retryMemoryReport_leaves hS runId
  · cases hCommand
  · cases hCommand
  · cases hCommand
  · exact resolve_leaves (hResolve attemptId resolution rfl) resolution

/-- What an action keeps, from what delivery keeps. -/
theorem perform_rule (hI : Tolerant S I) (hS : ∀ d, S d → d.state = .unknownDelivery)
    (hDeliver : ∀ run, Keeps I (deliverTelegram env run)) {action : Action}
    (hOnce : action ≠ .recover)
    (hResolve : ∀ attemptId resolution, action = .resolve attemptId resolution →
      ∀ d, S d → d.id ≠ attemptId) : Keeps I (perform env action) := by
  have hCommand : action.isCommand = true → Keeps I (perform env action) := fun hCommand =>
    command_leaves (fun d hd => Or.inr (hS d hd)) hCommand hResolve I hI
  rcases action with _ | ⟨run⟩ | ⟨d⟩ | _ | ⟨runId⟩ | _ | _ | _
  · exact hCommand rfl
  · exact updateReportRun_leaves run I hI
  · exact recordFile_leaves d I hI
  · exact hCommand rfl
  · exact Keeps.bind (lookup_reads runId I hI.toQuiet) fun run => hDeliver run
  · exact absurd rfl hOnce
  · refine store_leaves (fun db u db' hop => pruneReportRuns_leaves (fun d hd => ?_) hop) I hI
    unfold Unsettled
    rw [hS d hd]
    rfl
  · exact hCommand rfl

theorem session_keeps {actions : List Action}
    (h : ∀ action ∈ actions, Keeps I (perform env action)) : Keeps I (session env actions) :=
  Keeps.each fun action hIn => Keeps.bind (Keeps.attempt (h action hIn)) fun _ => Keeps.pure _

/-- However its lives end, the process keeps what each of them keeps. -/
theorem after_keeps {lives : List Life} (h : ∀ life ∈ lives, Keeps I (live env life))
    {p : MemoryProc} (hp : I p) : I (after env lives p) := by
  induction lives generalizing p with
  | nil => exact hp
  | cons life lives ih =>
    exact ih (fun other hOther => h other (List.mem_cons_of_mem _ hOther))
      ((h life (List.mem_cons_self ..)).after hp)

/-! ## Order -/

theorem live_inOrder (life : Life) : Keeps (Since InOrder past fun _ => True) (live env life) := by
  have hTolerant : Tolerant (fun _ => False) (Since InOrder past fun _ => True) := anyStore_tolerant
  have hAction : ∀ action, action ≠ .recover →
      Keeps (Since InOrder past fun _ => True) (perform env action) := fun action hOnce =>
    perform_rule hTolerant (fun _ h => h.elim) deliverTelegram_inOrder hOnce
      fun _ _ _ _ h => h.elim
  have hEarly : ∀ action : Action, action.isCommand = true → action ≠ .recover := by
    rintro action hCommand rfl
    cases hCommand
  unfold live
  refine Keeps.bind (session_keeps fun action hIn =>
    hAction action (hEarly action (life.commands action hIn))) fun _ => ?_
  refine Keeps.bind (Keeps.attempt ?_) fun recovered => ?_
  · refine Keeps.bind (nowMs_reads _ since_quiet) fun now => ?_
    exact store_leaves (fun _ _ _ => recoverReportWork_leaves fun _ h => h.elim) _ hTolerant
  · rcases recovered with _ | _
    · exact session_keeps fun action hIn =>
        hAction action (life.once action (List.mem_of_mem_filter hIn))
    · exact session_keeps fun action hIn => hAction action (life.once action hIn)

/-- Over all lives chunks are dispatched in order. -/
theorem lives_inOrder (env : Environment) {db : MemoryDb}
    (hIds : (db.deliveries.map ReportDelivery.id).Nodup) (lives : List Life) :
    ∀ m ∈ (after env lives (Proc.start db)).history, OnDispatch InOrder m := by
  have hStart : Since InOrder [] (fun _ => True) (Proc.start db) :=
    ⟨hIds, ⟨[], rfl, by simp⟩, trivial⟩
  have hAfter : Since InOrder [] (fun _ => True) (after env lives (Proc.start db)) :=
    after_keeps (fun life _ => live_inOrder life) hStart
  obtain ⟨recent, hHistory, hRecent⟩ := hAfter.recent
  rw [hHistory, List.append_nil]
  exact hRecent

/-! ## Stopped while sending -/

/-- An attempt of which only the service knows whether it was accepted. -/
def Left (id : String) (d : ReportDelivery) : Prop :=
  d.id = id ∧ (d.destination = .telegram ∧ d.state = .sending ∨ d.state = .unknownDelivery)

def LeftAt (id : String) (db : MemoryDb) : Prop := ∃ d ∈ db.deliveries, Left id d

theorem leftAt_tolerant (id : String) : Tolerant (Left id) (Since P past (LeftAt id)) :=
  since_tolerant fun _ _ hIds hLeaves ⟨d, hd, hLeft⟩ => ⟨d, hLeaves.kept hIds d hd hLeft, hLeft⟩

theorem leftAt_of_unknownAt {db : MemoryDb} (h : UnknownAt id db) : LeftAt id db := by
  obtain ⟨d, hd, hId, hState⟩ := h
  exact ⟨d, hd, hId, Or.inr hState⟩

/-- Recovery makes the delivery unknown, or fails. -/
theorem recover_unknown (id : String) :
    Triple (Since P past (LeftAt id)) (perform env .recover)
      (fun _ => Since P past (UnknownAt id)) (Since P past (LeftAt id)) := by
  refine Triple.bind (nowMs_reads _ since_quiet) fun now => ?_
  refine store_step since_quiet fun p u db' c hp hop => ?_
  have hIds := (recoverReportWork_leaves (S := fun _ => False) (fun _ h => h.elim) hop).ids hp.ids
  refine hp.moment hIds ?_ (onDispatch_none db')
  obtain ⟨d, hd, hId, hState⟩ := hp.store
  rw [recoverReportWork_cases hop]
  refine ⟨recoverDelivery now d, List.mem_map_of_mem hd, ?_⟩
  unfold recoverDelivery interrupted
  rcases hState with ⟨hTelegram, hSending⟩ | hUnknown
  · rw [if_pos hSending, if_pos hTelegram]
    exact ⟨hId, rfl⟩
  · rw [if_neg (by rw [hUnknown]; decide)]
    exact ⟨hId, hUnknown⟩

/-- The user does not resolve the attempt in this life. -/
def Life.Unresolved (id : String) (life : Life) : Prop :=
  ∀ action ∈ life.early ++ life.later, ∀ resolution, action ≠ .resolve id resolution

/-- A life does not dispatch what the one before left behind. -/
theorem live_spares (id : String) {life : Life} (hLife : life.Unresolved id) :
    Keeps (Since (NotOf id) past (LeftAt id)) (live env life) := by
  have hCommands : ∀ actions : List Action,
      (∀ action ∈ actions, action.isCommand = true ∧ action ∈ life.early ++ life.later) →
      Keeps (Since (NotOf id) past (LeftAt id)) (session env actions) := by
    intro actions hActions
    refine session_keeps fun action hIn => ?_
    obtain ⟨hCommand, hMine⟩ := hActions action hIn
    refine command_leaves (S := Left id) ?_ hCommand ?_ _ (leftAt_tolerant id)
    · exact fun d hd => hd.2.imp And.right fun h => h
    · rintro attemptId resolution rfl d hd rfl
      exact hLife _ hMine resolution (by rw [hd.1])
  unfold live
  refine Keeps.bind (hCommands _ fun action hIn =>
    ⟨life.commands action hIn, List.mem_append_left _ hIn⟩) fun _ => ?_
  refine Triple.bind (R := fun recovered => match recovered with
    | .ok _ => Since (NotOf id) past (UnknownAt id)
    | .error _ => Since (NotOf id) past (LeftAt id))
    (Triple.attempt ((recover_unknown id).mono (fun _ h => h) (fun _ _ h => h) fun _ h _ => h))
    fun recovered => ?_
  rcases recovered with _ | _
  · exact hCommands _ fun action hIn =>
      ⟨(List.mem_filter.mp hIn).2, List.mem_append_right _ (List.mem_of_mem_filter hIn)⟩
  · have hKeeps : Keeps (Since (NotOf id) past (UnknownAt id))
        (session env life.later) := by
      refine session_keeps fun action hIn => ?_
      refine perform_rule (unknownAt_tolerant id) (fun d hd => hd.2) (deliverTelegram_spares id)
        (life.once action hIn) ?_
      rintro attemptId resolution rfl d hd rfl
      exact hLife _ (List.mem_append_right _ hIn) resolution (by rw [hd.1])
    exact hKeeps.mono (fun _ h => h) (fun _ _ h => h.mono leftAt_of_unknownAt)
      fun _ h => h.mono leftAt_of_unknownAt

/-- What was being sent when the process stopped is not dispatched in the lives after. -/
theorem lives_spare {p : MemoryProc} (hIds : (p.store.deliveries.map ReportDelivery.id).Nodup)
    {d : ReportDelivery} (hd : d ∈ p.store.deliveries) (hTelegram : d.destination = .telegram)
    (hSending : d.state = .sending) {lives : List Life}
    (hLives : ∀ life ∈ lives, life.Unresolved d.id) :
    ∃ recent, (after env lives p).history = recent ++ p.history ∧
      ∀ m ∈ recent, OnDispatch (NotOf d.id) m := by
  have hStopped : Since (NotOf d.id) p.history (LeftAt d.id) p :=
    ⟨hIds, ⟨[], rfl, by simp⟩, d, hd, rfl, Or.inl ⟨hTelegram, hSending⟩⟩
  exact (after_keeps (fun life hIn => live_spares d.id (hLives life hIn)) hStopped).recent

/-- From any store and over any lives, a chunk is dispatched only while no delivery of its run
is unknown and all chunks before it are settled, and an attempt that was being sent when the
process stopped is not dispatched again before the user resolves it. -/
theorem dispatch_safe (env : Environment) (db : MemoryDb) (lives : List Life)
    (hIds : (db.deliveries.map ReportDelivery.id).Nodup) :
    (∀ m ∈ (after env lives (Proc.start db)).history, OnDispatch InOrder m) ∧
    ∀ before later, lives = before ++ later →
      ∀ d ∈ (after env before (Proc.start db)).store.deliveries,
        d.destination = .telegram → d.state = .sending →
        (∀ life ∈ later, life.Unresolved d.id) →
        ∃ recent, (after env lives (Proc.start db)).history =
            recent ++ (after env before (Proc.start db)).history ∧
          ∀ m ∈ recent, OnDispatch (NotOf d.id) m := by
  refine ⟨lives_inOrder env hIds lives, ?_⟩
  rintro before later rfl d hd hTelegram hSending hLater
  have hStart : Since InOrder [] (fun _ => True) (Proc.start db) :=
    ⟨hIds, ⟨[], rfl, by simp⟩, trivial⟩
  have hBefore : Since InOrder [] (fun _ => True) (after env before (Proc.start db)) :=
    after_keeps (fun life _ => live_inOrder life) hStart
  have hSplit : after env (before ++ later) (Proc.start db) =
      after env later (after env before (Proc.start db)) := List.foldl_append ..
  rw [hSplit]
  exact lives_spare hBefore.ids hd hTelegram hSending hLater

/-- A chunk of the saved report. -/
def chunkAttempt (id : String) (index : Nat) (state : ReportDeliveryState) : ReportDelivery where
  id := id
  runId := savedRun.runId
  destination := .telegram
  state := state
  revisionOf := none
  destinationSnapshot := .telegram { chatId := "A", text := "hello" }
  path := none
  hash := none
  recoveryPath := none
  chunkIndex := some index
  chunkCount := some 2
  messageId := none
  error := none
  nextAttemptAt := none
  attempt := 0
  createdAt := 0
  updatedAt := 0

/-- The process stopped while it sent the first of two chunks. -/
def stoppedDb : MemoryDb where
  runs := [savedRun]
  deliveries := [chunkAttempt "a" 0 .sending, chunkAttempt "b" 1 .pending]
  scheduleState := none

/-- The user retries at once, and the worker delivers. -/
def restarted : Life where
  early := [.retry "id0"]
  later := [.deliver "id0"]
  commands := by
    intro action hIn
    rw [List.mem_singleton.mp hIn]
    rfl
  once := by
    rintro action hIn rfl
    exact absurd (List.mem_singleton.mp hIn) Action.noConfusion

theorem dispatch_safe_restarted :
    (∀ m ∈ (after (chatChanges fun _ => "A") [restarted] (Proc.start stoppedDb)).history,
      OnDispatch InOrder m) ∧
    ∃ recent, (after (chatChanges fun _ => "A") [restarted] (Proc.start stoppedDb)).history =
        recent ++ [] ∧
      ∀ m ∈ recent, OnDispatch (NotOf "a") m := by
  have hSafe := dispatch_safe (chatChanges fun _ => "A") stoppedDb [restarted] (by decide)
  refine ⟨hSafe.1, hSafe.2 [] [restarted] rfl (chunkAttempt "a" 0 .sending)
    (List.mem_cons_self ..) rfl rfl ?_⟩
  rintro life hIn action hAction resolution rfl
  rw [List.mem_singleton.mp hIn] at hAction
  simp [restarted] at hAction

/-- The user has the interrupted chunk sent again. -/
def resent : Life where
  early := []
  later := [.resolve "a" .resend, .deliver "id0"]
  commands := by simp
  once := by simp

example : (after (chatChanges fun _ => "A") [restarted, resent]
    (Proc.start stoppedDb)).history.filterMap (fun m => match m.event with
      | some (.dispatch attempt) => attempt.chunkIndex
      | _ => none) = [1, 0] := by decide +kernel

end ScreenSearch.Memory
