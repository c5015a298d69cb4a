import ScreenSearch.Store.ReportRefines

/-!
# What report writes never undo

A saved result, the identity of a run or of an attempt and an attempt in a final
state are never changed by a write, whatever its arguments. An attempt whose
delivery is unknown changes only when the user resolves it.

Main results:

* `ReportWrite.kept` — what one write keeps;
* `report_writes_monotone` — what any further writes keep.
-/

namespace ScreenSearch.Store

/-- What a run may never change, and what it keeps once it is saved. -/
structure RunKept (old new : ReportRun) : Prop where
  runId : new.runId = old.runId
  sourceId : new.sourceId = old.sourceId
  scheduleId : new.scheduleId = old.scheduleId
  revisionOf : new.revisionOf = old.revisionOf
  requestedRange : new.requestedRange = old.requestedRange
  windowStart : new.windowStart = old.windowStart
  windowEnd : new.windowEnd = old.windowEnd
  timezone : new.timezone = old.timezone
  localDate : new.localDate = old.localDate
  configSnapshot : new.configSnapshot = old.configSnapshot
  createdAt : new.createdAt = old.createdAt
  result : old.result.isSome → new.result = old.result

def Final (d : ReportDelivery) : Prop :=
  d.state = .succeeded ∨ d.state = .skipped ∨ d.state = .reviewed

/-- What an attempt may never change, and that it does not change at all once it is
in a final state. -/
structure DeliveryKept (old new : ReportDelivery) : Prop where
  identity : SameIdentity old new
  final : Final old → new = old

/-- The user's decision about an attempt whose delivery is unknown. -/
structure Reviewed (old new : ReportDelivery) : Prop where
  state : new.state = .reviewed
  messageId : new.messageId = old.messageId
  error : new.error = old.error

theorem RunKept.refl (run : ReportRun) : RunKept run run :=
  ⟨rfl, rfl, rfl, rfl, rfl, rfl, rfl, rfl, rfl, rfl, rfl, fun _ => rfl⟩

theorem RunKept.trans {a b c : ReportRun} (h : RunKept a b) (h' : RunKept b c) : RunKept a c where
  runId := h'.runId.trans h.runId
  sourceId := h'.sourceId.trans h.sourceId
  scheduleId := h'.scheduleId.trans h.scheduleId
  revisionOf := h'.revisionOf.trans h.revisionOf
  requestedRange := h'.requestedRange.trans h.requestedRange
  windowStart := h'.windowStart.trans h.windowStart
  windowEnd := h'.windowEnd.trans h.windowEnd
  timezone := h'.timezone.trans h.timezone
  localDate := h'.localDate.trans h.localDate
  configSnapshot := h'.configSnapshot.trans h.configSnapshot
  createdAt := h'.createdAt.trans h.createdAt
  result hsome := (h'.result (by rw [h.result hsome]; exact hsome)).trans (h.result hsome)

theorem SameIdentity.refl (d : ReportDelivery) : SameIdentity d d :=
  ⟨rfl, rfl, rfl, rfl, rfl, rfl, rfl, rfl⟩

theorem SameIdentity.trans {a b c : ReportDelivery} (h : SameIdentity a b)
    (h' : SameIdentity b c) : SameIdentity a c := by
  obtain ⟨h1, h2, h3, h4, h5, h6, h7, h8⟩ := h
  obtain ⟨k1, k2, k3, k4, k5, k6, k7, k8⟩ := h'
  exact ⟨h1.trans k1, h2.trans k2, h3.trans k3, h4.trans k4, h5.trans k5, h6.trans k6, h7.trans k7,
    h8.trans k8⟩

theorem DeliveryKept.refl (d : ReportDelivery) : DeliveryKept d d :=
  ⟨SameIdentity.refl d, fun _ => rfl⟩

theorem DeliveryKept.trans {a b c : ReportDelivery} (h : DeliveryKept a b)
    (h' : DeliveryKept b c) : DeliveryKept a c where
  identity := h.identity.trans h'.identity
  final hfinal := by
    obtain rfl := h.final hfinal
    exact h'.final hfinal

/-! ## One write -/

/-- What a write keeps of the records: every run and every attempt is still there
and kept, and an unknown attempt is untouched unless `resolves`. -/
structure Kept (resolves : Prop) (db db' : MemoryDb) : Prop where
  runs : ∀ run ∈ db.runs, ∃ run' ∈ db'.runs, RunKept run run'
  deliveries : ∀ d ∈ db.deliveries, ∃ d' ∈ db'.deliveries, DeliveryKept d d' ∧
    (d.state = .unknownDelivery → d' = d ∨ resolves ∧ Reviewed d d')

variable {resolves : Prop} {db db' : MemoryDb}

theorem Kept.refl (db : MemoryDb) : Kept resolves db db :=
  ⟨fun run hrun => ⟨run, hrun, RunKept.refl run⟩,
    fun d hd => ⟨d, hd, DeliveryKept.refl d, fun _ => Or.inl rfl⟩⟩

/-- Runs change only. -/
theorem Kept.of_runs (h : db'.deliveries = db.deliveries)
    (hruns : ∀ run ∈ db.runs, ∃ run' ∈ db'.runs, RunKept run run') : Kept resolves db db' :=
  ⟨hruns, fun d hd => ⟨d, h ▸ hd, DeliveryKept.refl d, fun _ => Or.inl rfl⟩⟩

/-- Attempts change only. -/
theorem Kept.of_deliveries (h : db'.runs = db.runs)
    (hdeliveries : ∀ d ∈ db.deliveries, ∃ d' ∈ db'.deliveries, DeliveryKept d d' ∧
      (d.state = .unknownDelivery → d' = d ∨ resolves ∧ Reviewed d d')) : Kept resolves db db' :=
  ⟨fun run hrun => ⟨run, h ▸ hrun, RunKept.refl run⟩, hdeliveries⟩

/-- The row of a run is overwritten. -/
theorem setRun_kept (hwf : db.WellFormed) {old run : ReportRun}
    (hold : db.runAt run.runId = some old) (hkept : RunKept old run) :
    Kept resolves db (db.setRun run) := by
  refine Kept.of_runs rfl fun other hother => ?_
  by_cases hid : other.runId = run.runId
  · obtain rfl := hwf.run_unique hold hother hid
    exact ⟨run, List.mem_map.mpr ⟨other, hother, if_pos hid⟩, hkept⟩
  · exact ⟨other, List.mem_map.mpr ⟨other, hother, if_neg hid⟩, RunKept.refl other⟩

/-- The row of an attempt is overwritten. -/
theorem setDelivery_kept (hwf : db.WellFormed) {old d : ReportDelivery}
    (hold : db.deliveryAt d.id = some old) (hsame : SameIdentity old d)
    (hnotFinal : ¬ Final old) (hunknown : old.state = .unknownDelivery → resolves ∧ Reviewed old d) :
    Kept resolves db (db.setDelivery d) := by
  refine Kept.of_deliveries rfl fun other hother => ?_
  by_cases hid : other.id = d.id
  · obtain rfl := hwf.delivery_unique hold hother hid
    exact ⟨d, List.mem_map.mpr ⟨other, hother, if_pos hid⟩,
      ⟨hsame, fun hfinal => absurd hfinal hnotFinal⟩, fun h => Or.inr (hunknown h)⟩
  · exact ⟨other, List.mem_map.mpr ⟨other, hother, if_neg hid⟩, DeliveryKept.refl other,
      fun _ => Or.inl rfl⟩

theorem addDelivery_kept (db : MemoryDb) (added : List ReportDelivery) :
    Kept resolves db { db with deliveries := db.deliveries ++ added } :=
  Kept.of_deliveries rfl fun d hd =>
    ⟨d, List.mem_append_left _ hd, DeliveryKept.refl d, fun _ => Or.inl rfl⟩

theorem updateReportRun_kept (hwf : db.WellFormed) {run : ReportRun} {u : Unit}
    (h : updateReportRun run db = .ok (u, db')) : Kept resolves db db' := by
  unfold updateReportRun at h
  split at h
  · cases h
  · rename_i old hold
    simp only [bind_ok, ensure_ok, decide_eq_true_eq, Bool.or_eq_true, Option.isNone_iff_eq_none] at h
    obtain ⟨-, hidentity, -, hresult, -, -, h⟩ := h
    cases h
    obtain ⟨hsource, hschedule, hrevision, hrange, hstart, hend, hzone, hdate, hconfig, hcreated⟩ :=
      hidentity
    refine setRun_kept hwf hold ⟨(runAt_some hold).2.symm, hsource.symm, hschedule.symm,
      hrevision.symm, hrange.symm, hstart.symm, hend.symm, hzone.symm, hdate.symm, hconfig.symm,
      hcreated.symm, fun hsome => ?_⟩
    rcases hresult with hnone | hsame
    · rw [hnone] at hsome
      cases hsome
    · exact hsame.symm

theorem claimReportRun_kept (hwf : db.WellFormed) {id : String} {now : Int} {claimed : Bool}
    (h : claimReportRun id now db = .ok (claimed, db')) : Kept resolves db db' := by
  unfold claimReportRun at h
  split at h
  · cases h
    exact Kept.refl db
  · rename_i old hold
    split at h
    · cases h
      exact Kept.refl db
    · cases h
      have hid := (runAt_some hold).2
      exact setRun_kept hwf (show db.runAt old.runId = some old from hid ▸ hold)
        ⟨rfl, rfl, rfl, rfl, rfl, rfl, rfl, rfl, rfl, rfl, rfl, fun _ => rfl⟩

theorem recoverReportWork_kept {now : Int} {u : Unit}
    (h : recoverReportWork now db = .ok (u, db')) : Kept resolves db db' := by
  obtain rfl := recoverReportWork_cases h
  refine ⟨fun run hrun => ⟨recoverRun now run, List.mem_map_of_mem hrun, ?_⟩,
    fun d hd => ⟨recoverDelivery now d, List.mem_map_of_mem hd, ?_⟩⟩
  · unfold recoverRun requeued
    split
    · exact ⟨rfl, rfl, rfl, rfl, rfl, rfl, rfl, rfl, rfl, rfl, rfl, fun _ => rfl⟩
    · exact RunKept.refl run
  · unfold recoverDelivery
    split
    · rename_i hsending
      refine ⟨⟨interrupted_identity now d, fun hfinal => ?_⟩, fun hunknown => ?_⟩
      · rcases hfinal with h | h | h <;> rw [hsending] at h <;> cases h
      · rw [hsending] at hunknown
        cases hunknown
    · exact ⟨DeliveryKept.refl d, fun _ => Or.inl rfl⟩

theorem updateReportDelivery_kept (hwf : db.WellFormed) {d : ReportDelivery}
    {expected : ReportDeliveryState} {updated : Bool}
    (h : updateReportDelivery d expected db = .ok (updated, db')) : Kept resolves db db' := by
  rcases updateReportDelivery_cases h with ⟨-, rfl⟩ | ⟨-, old, hold, hsame, -, hopen, rfl⟩
  · exact Kept.refl _
  · obtain ⟨hsucceeded, hskipped, hreviewed, hunknown⟩ := hopen
    refine setDelivery_kept hwf hold hsame (fun hfinal => ?_) fun h => absurd h hunknown
    rcases hfinal with h | h | h
    · exact hsucceeded h
    · exact hskipped h
    · exact hreviewed h

theorem resolveReportDelivery_kept (hwf : db.WellFormed) {previous : ReportDelivery}
    {replacement : Option ReportDelivery} {resolved : Bool}
    (h : resolveReportDelivery previous replacement db = .ok (resolved, db')) :
    Kept True db db' := by
  rcases resolveReportDelivery_cases h with
    rfl | ⟨old, db₁, hold, hunknown, hsame, hprevious, hnew, rfl⟩
  · exact Kept.refl _
  · have hnotFinal : ¬ Final old := by
      rintro (h | h | h) <;> rw [hunknown] at h <;> cases h
    have hreviewed : Reviewed old previous := ⟨hprevious.1, hprevious.2.1, hprevious.2.2⟩
    cases replacement with
    | none =>
      obtain rfl : db₁ = db := hnew
      exact setDelivery_kept hwf hold hsame hnotFinal fun _ => ⟨trivial, hreviewed⟩
    | some new =>
      obtain ⟨-, -, -, hinsert⟩ := hnew
      obtain ⟨-, hfresh, rfl⟩ := insertDelivery_cases hinsert
      -- the linked attempt comes after the one that is resolved
      have hold' : MemoryDb.deliveryAt { db with deliveries := db.deliveries ++ [new] }
          previous.id = some old := by
        unfold MemoryDb.deliveryAt
        rw [List.find?_append]
        exact (Option.or_of_isSome (Option.isSome_of_eq_some hold)).trans hold
      have hset := setDelivery_kept (hwf.addDelivery hfresh) hold' hsame hnotFinal
        fun _ => (⟨trivial, hreviewed⟩ : True ∧ Reviewed old previous)
      exact ⟨hset.runs, fun d hd => hset.deliveries d (List.mem_append_left _ hd)⟩

/-- Whether the write is the user's decision about an attempt. -/
def ReportWrite.IsResolve : ReportWrite → Prop
  | .resolve _ _ => True
  | _ => False

/-- What one write keeps. -/
theorem ReportWrite.kept {w : ReportWrite} (hwf : db.WellFormed) (h : w.Writes db db') :
    Kept w.IsResolve db db' := by
  cases w with
  | createRun run =>
    obtain ⟨a, h⟩ := h
    rcases createReportRun_cases h with ⟨rfl, -⟩ | ⟨-, -, -, rfl⟩
    · exact Kept.refl _
    · exact Kept.of_runs rfl fun run hrun =>
        ⟨run, List.mem_append_left _ hrun, RunKept.refl run⟩
  | updateRun run =>
    obtain ⟨u, h⟩ := h
    exact updateReportRun_kept hwf h
  | claim id now =>
    obtain ⟨claimed, h⟩ := h
    exact claimReportRun_kept hwf h
  | recover now =>
    obtain ⟨u, h⟩ := h
    exact recoverReportWork_kept h
  | createDelivery d =>
    obtain ⟨a, h⟩ := h
    rcases createReportDelivery_cases h with rfl | ⟨-, -, rfl⟩
    · exact Kept.refl _
    · exact addDelivery_kept db [d]
  | createDeliveries deliveries =>
    obtain ⟨as, h⟩ := h
    obtain ⟨added, -, rfl, -⟩ := createReportDeliveries_cases h
    exact addDelivery_kept db added
  | updateDelivery d expected =>
    obtain ⟨updated, h⟩ := h
    exact updateReportDelivery_kept hwf h
  | resolve previous replacement =>
    obtain ⟨resolved, h⟩ := h
    exact resolveReportDelivery_kept hwf h

theorem ReportWrite.apply_kept (w : ReportWrite) (hwf : db.WellFormed) :
    ∃ db', w.apply (tablesOf db) = tablesOf db' ∧ db'.WellFormed ∧ Kept w.IsResolve db db' := by
  obtain ⟨db', hwrites, hrows, hwf'⟩ := w.apply_refines hwf
  refine ⟨db', hrows, hwf', ?_⟩
  rcases hwrites with rfl | hwrites
  · exact Kept.refl _
  · exact w.kept hwf hwrites

/-! ## Any writes -/

/-- What any writes keep. -/
structure KeptThroughout (db db' : MemoryDb) : Prop where
  runs : ∀ run ∈ db.runs, ∃ run' ∈ db'.runs, RunKept run run'
  deliveries : ∀ d ∈ db.deliveries, ∃ d' ∈ db'.deliveries, DeliveryKept d d'

theorem runWrites_kept (writes : List ReportWrite) (hwf : db.WellFormed) :
    ∃ db', writes.foldl ReportWrite.apply (tablesOf db) = tablesOf db' ∧ db'.WellFormed ∧
      KeptThroughout db db' := by
  induction writes generalizing db with
  | nil =>
    exact ⟨db, rfl, hwf, ⟨fun run hrun => ⟨run, hrun, RunKept.refl run⟩,
      fun d hd => ⟨d, hd, DeliveryKept.refl d⟩⟩⟩
  | cons w writes ih =>
    obtain ⟨db₁, hfirst, hwf₁, hkept⟩ := w.apply_kept hwf
    obtain ⟨db₂, hrest, hwf₂, hlater⟩ := ih hwf₁
    refine ⟨db₂, by rw [List.foldl_cons, hfirst, hrest], hwf₂, ⟨fun run hrun => ?_, fun d hd => ?_⟩⟩
    · obtain ⟨run₁, hrun₁, hstep⟩ := hkept.runs run hrun
      obtain ⟨run₂, hrun₂, hsteps⟩ := hlater.runs run₁ hrun₁
      exact ⟨run₂, hrun₂, hstep.trans hsteps⟩
    · obtain ⟨d₁, hd₁, hstep, -⟩ := hkept.deliveries d hd
      obtain ⟨d₂, hd₂, hsteps⟩ := hlater.deliveries d₁ hd₁
      exact ⟨d₂, hd₂, hstep.trans hsteps⟩

/-- **Report writes are monotone.** From any state that writes lead to, whatever
writes follow: the one row of a run still has its identity, configuration and
saved result, the one row of an attempt its identity, and all of it once it is
final; and the next write changes an unknown attempt only by resolving it. -/
theorem report_writes_monotone (before later : List ReportWrite) (next : ReportWrite) :
    let t := before.foldl ReportWrite.apply ReportTables.empty
    let t' := later.foldl ReportWrite.apply t
    ((t'.runs.map RunRow.runId).Nodup ∧
      ∀ row ∈ t.runs, ∃ row' ∈ t'.runs, row'.runId = row.runId ∧
        RunKept row.payload row'.payload) ∧
    ((t'.deliveries.map DeliveryRow.id).Nodup ∧
      ∀ row ∈ t.deliveries, ∃ row' ∈ t'.deliveries, row'.id = row.id ∧
        DeliveryKept row.payload row'.payload) ∧
    ∀ row ∈ t.deliveries, row.payload.state = .unknownDelivery →
      ∃ row' ∈ (next.apply t).deliveries, row'.id = row.id ∧
        (row'.payload = row.payload ∨ next.IsResolve ∧ Reviewed row.payload row'.payload) := by
  obtain ⟨db, hdb, hwf, -⟩ := runWrites_kept before empty_wellFormed
  obtain ⟨db', hdb', hwf', hkept⟩ := runWrites_kept later hwf
  obtain ⟨dbn, hdbn, -, hnext⟩ := next.apply_kept hwf
  rw [tablesOf_empty] at hdb
  intro t t'
  have ht : t = tablesOf db := hdb
  have ht' : t' = tablesOf db' := by
    rw [← hdb', ← ht]
  have hruns : (tablesOf db').runs.map RunRow.runId = db'.runs.map ReportRun.runId := List.map_map
  have hdeliveries : (tablesOf db').deliveries.map DeliveryRow.id =
      db'.deliveries.map ReportDelivery.id := List.map_map
  rw [ht, ht', hdbn]
  refine ⟨⟨hruns ▸ hwf'.runs, fun row hrow => ?_⟩, ⟨hdeliveries ▸ hwf'.deliveries,
    fun row hrow => ?_⟩, fun row hrow hunknown => ?_⟩
  · obtain ⟨run, hrun, rfl⟩ := List.mem_map.mp hrow
    obtain ⟨run', hrun', hsame⟩ := hkept.runs run hrun
    exact ⟨RunRow.ofRun run', List.mem_map_of_mem hrun', hsame.runId, hsame⟩
  · obtain ⟨d, hd, rfl⟩ := List.mem_map.mp hrow
    obtain ⟨d', hd', hsame⟩ := hkept.deliveries d hd
    exact ⟨DeliveryRow.ofDelivery d', List.mem_map_of_mem hd', hsame.identity.1.symm, hsame⟩
  · obtain ⟨d, hd, rfl⟩ := List.mem_map.mp hrow
    obtain ⟨d', hd', hsame, hchange⟩ := hnext.deliveries d hd
    exact ⟨DeliveryRow.ofDelivery d', List.mem_map_of_mem hd', hsame.identity.1.symm,
      hchange hunknown⟩

end ScreenSearch.Store
