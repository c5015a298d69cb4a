import ScreenSearch.Store.ReportRows

/-!
# Statements on report rows refine statements on records

Each statement of `Store.ReportRows`, run on the rows of some records, leaves the
rows of the records the statement of `Store.Memory` leaves.

Main results:

* `ReportWrite.apply_refines`, `ReportOp.apply_refines` — every statement refines;
* `columns_mirror_payload` — after any statements, every column is the field of
  the payload it repeats.
-/

namespace ScreenSearch.Store

open Sorting

/-! ## Every statement refines -/

theorem existingBaseRun_tablesOf (db : MemoryDb) (run : ReportRun) :
    Rows.existingBaseRun (tablesOf db) run = existingBaseRun db run := by
  have hpayload : RunRow.payload ∘ RunRow.ofRun = id := rfl
  unfold Rows.existingBaseRun existingBaseRun tablesOf
  dsimp only
  split
  · rfl
  · cases run.scheduleId with
    | some schedule =>
      dsimp only
      rw [List.find?_map, Option.map_map, hpayload, Option.map_id]
      rfl
    | none =>
      dsimp only
      split
      · rfl
      · have hsort := map_sortByKey (fun old : ReportRun => OrderDual.toDual old.createdAt)
          (fun row : RunRow => OrderDual.toDual row.createdAt) RunRow.ofRun fun _ => rfl
        rw [List.filter_map, ← hsort, List.head?_map, Option.map_map, hpayload, Option.map_id]
        rfl

theorem createReportRun_refines (run : ReportRun) :
    Refines (Rows.createReportRun run) (createReportRun run) := by
  intro db a t hwf h
  simp only [Rows.createReportRun, bind_ok] at h
  obtain ⟨u, hvalid, h⟩ := h
  rw [tablesOf_runAt, existingBaseRun_tablesOf] at h
  simp only [createReportRun, bind_ok]
  cases hexisting : db.runAt run.runId with
  | some existing =>
    rw [hexisting] at h
    cases h
    exact ⟨db, ⟨u, hvalid, rfl⟩, rfl, hwf⟩
  | none =>
    rw [hexisting] at h
    cases hbase : existingBaseRun db run with
    | some existing =>
      simp only [hbase] at h
      cases h
      exact ⟨db, ⟨u, hvalid, rfl⟩, rfl, hwf⟩
    | none =>
      simp only [hbase, Rows.insertRun, bind_ok, ensure_ok] at h
      obtain ⟨t', ⟨-, -, -, -, -, -, hinsert⟩, h⟩ := h
      cases hinsert
      cases h
      refine ⟨{ db with runs := db.runs ++ [run] }, ⟨u, hvalid, rfl⟩, ?_,
        hwf.addRun hexisting⟩
      simp only [tablesOf, List.map_append, List.map_singleton]

theorem updateReportRun_refines (run : ReportRun) :
    Refines (Rows.updateReportRun run) (updateReportRun run) := by
  intro db a t hwf h
  unfold Rows.updateReportRun at h
  rw [tablesOf_runAt] at h
  cases hold : db.runAt run.runId with
  | none => simp [hold, throw, throwThe, MonadExceptOf.throw] at h
  | some old =>
    simp only [hold, bind_ok, ensure_ok, decide_eq_true_eq, Rows.writeRun] at h
    obtain ⟨-, hidentity, -, hresult, t', ⟨u, hvalid, hwrite⟩, h⟩ := h
    cases hwrite
    cases h
    refine ⟨db.setRun run, ?_, ?_, hwf.setRun run⟩
    · simp only [updateReportRun, hold, bind_ok, ensure_ok, decide_eq_true_eq]
      exact ⟨(), hidentity, (), hresult, u, hvalid, rfl⟩
    · obtain ⟨-, hschedule, hrevision, -, hstart, hend, -, -, -, hcreated⟩ := hidentity
      rw [rewrite_run hwf hold ⟨hschedule, hrevision, hstart, hend, hcreated⟩]
      rfl

/-- The row an update by key and column finds is the one that was read. -/
theorem countP_eq_one_of_unique {α : Type} {p : α → Bool} {l : List α} {a : α} (hnodup : l.Nodup)
    (ha : a ∈ l) (hpa : p a = true) (hunique : ∀ b ∈ l, p b = true → b = a) : l.countP p = 1 := by
  have hfilter : l.filter p = [a] := by
    refine List.perm_singleton.mp ((List.perm_ext_iff_of_nodup (hnodup.filter p)
      (List.nodup_singleton a)).mpr fun b => ?_)
    rw [List.mem_filter, List.mem_singleton]
    exact ⟨fun hb => hunique b hb.1 hb.2, fun hb => hb ▸ ⟨ha, hpa⟩⟩
  rw [List.countP_eq_length_filter, hfilter, List.length_singleton]

theorem claimReportRun_refines (id : String) (now : Int) :
    Refines (Rows.claimReportRun id now) (claimReportRun id now) := by
  intro db a t hwf h
  unfold Rows.claimReportRun at h
  rw [tablesOf_runAt] at h
  unfold claimReportRun
  cases hold : db.runAt id with
  | none =>
    rw [hold] at h
    cases h
    exact ⟨db, rfl, rfl, hwf⟩
  | some old =>
    simp only [hold] at h ⊢
    split at h
    · rename_i hphase
      cases h
      exact ⟨db, if_pos hphase, rfl, hwf⟩
    · rename_i hphase
      cases h
      have hqueued : old.phase = .queued := not_not.mp hphase
      obtain ⟨hin, hid⟩ := runAt_some hold
      have hclaimed : db.runAt ({ old with phase := .running, updatedAt := now } : ReportRun).runId =
          some old := hid ▸ hold
      refine ⟨db.setRun { old with phase := .running, updatedAt := now }, ?_, ?_, hwf.setRun _⟩
      · rw [if_neg hphase]
        have hcount : (tablesOf db).runs.countP (fun row =>
            row.runId == old.runId && decide (row.phase = .queued)) = 1 := by
          unfold tablesOf
          rw [List.countP_map]
          refine countP_eq_one_of_unique (List.Nodup.of_map _ hwf.runs) hin
            (by simp [RunRow.ofRun, hqueued]) fun other hother hsame => ?_
          simp only [Function.comp_apply, RunRow.ofRun, Bool.and_eq_true, beq_iff_eq] at hsame
          exact hwf.run_unique hclaimed hother hsame.1
        simp only [hcount, decide_true]
        rfl
      · have hrows := rewrite_run_inPhase hwf hclaimed ⟨rfl, rfl, rfl, rfl, rfl⟩
        rw [hqueued] at hrows
        exact congrArg (ReportTables.mk · (tablesOf db).deliveries) hrows

theorem any_runId_tablesOf (db : MemoryDb) (id : String) :
    ((tablesOf db).runs.any fun row => row.runId == id) = (db.runAt id).isSome := by
  unfold tablesOf MemoryDb.runAt
  rw [List.any_map, List.isSome_find?]
  rfl

theorem any_id_tablesOf (db : MemoryDb) (id : String) :
    ((tablesOf db).deliveries.any fun row => row.id == id) = (db.deliveryAt id).isSome := by
  unfold tablesOf MemoryDb.deliveryAt
  rw [List.any_map, List.isSome_find?]
  rfl

theorem insertDelivery_tablesOf {db : MemoryDb} {d : ReportDelivery} {t : ReportTables}
    (hwf : db.WellFormed) (h : Rows.insertDelivery d (tablesOf db) = .ok t) :
    ∃ db', insertDelivery db d = .ok db' ∧ t = tablesOf db' ∧ db'.WellFormed ∧
      db'.deliveries = db.deliveries ++ [d] := by
  simp only [Rows.insertDelivery, bind_ok, ensure_ok, any_runId_tablesOf, any_id_tablesOf,
    Bool.not_eq_true', Option.isSome_eq_false_iff, Option.isNone_iff_eq_none] at h
  obtain ⟨-, hid, -, hrun, -, hnew, h⟩ := h
  cases h
  refine ⟨{ db with deliveries := db.deliveries ++ [d] }, ?_, ?_, hwf.addDelivery hnew, rfl⟩
  · simp only [insertDelivery, bind_ok, ensure_ok, Bool.not_eq_true', Option.isNone_iff_eq_none]
    exact ⟨(), hid, (), hrun, (), hnew, rfl⟩
  · simp only [tablesOf, List.map_append, List.map_singleton]

theorem createReportDelivery_refines (d : ReportDelivery) :
    Refines (Rows.createReportDelivery d) (createReportDelivery d) := by
  intro db a t hwf h
  unfold Rows.createReportDelivery at h
  rw [tablesOf_deliveryAt] at h
  unfold createReportDelivery
  cases hold : db.deliveryAt d.id with
  | some old =>
    simp only [hold, bind_ok] at h ⊢
    obtain ⟨u, hidentity, h⟩ := h
    cases h
    exact ⟨db, ⟨u, hidentity, rfl⟩, rfl, hwf⟩
  | none =>
    simp only [hold, bind_ok] at h ⊢
    obtain ⟨t', hinsert, h⟩ := h
    cases h
    obtain ⟨db', hinsert', rfl, hwf', -⟩ := insertDelivery_tablesOf hwf hinsert
    exact ⟨db', ⟨db', hinsert', rfl⟩, rfl, hwf'⟩

theorem createReportDeliveries_refines (deliveries : List ReportDelivery) :
    Refines (Rows.createReportDeliveries deliveries) (createReportDeliveries deliveries) := by
  induction deliveries with
  | nil =>
    intro db a t hwf h
    cases h
    exact ⟨db, rfl, rfl, hwf⟩
  | cons d deliveries ih =>
    intro db a t hwf h
    simp only [Rows.createReportDeliveries, createReportDeliveries, bind_ok] at h ⊢
    obtain ⟨⟨first, t₁⟩, hfirst, ⟨others, t₂⟩, hothers, h⟩ := h
    cases h
    obtain ⟨db₁, hfirst', rfl, hwf₁⟩ := createReportDelivery_refines d db first t₁ hwf hfirst
    obtain ⟨db₂, hothers', rfl, hwf₂⟩ := ih db₁ others t₂ hwf₁ hothers
    exact ⟨db₂, ⟨(first, db₁), hfirst', (others, db₂), hothers', rfl⟩, rfl, hwf₂⟩

theorem updateReportDelivery_refines (d : ReportDelivery) (expected : ReportDeliveryState) :
    Refines (Rows.updateReportDelivery d expected) (updateReportDelivery d expected) := by
  intro db a t hwf h
  unfold Rows.updateReportDelivery at h
  rw [tablesOf_deliveryAt] at h
  unfold updateReportDelivery
  cases hold : db.deliveryAt d.id with
  | none =>
    rw [hold] at h
    cases h
    exact ⟨db, rfl, rfl, hwf⟩
  | some old =>
    simp only [hold, checkDeliveryIdentity, bind_ok, ensure_ok, decide_eq_true_eq] at h ⊢
    obtain ⟨-, hsame, h⟩ := h
    split at h
    · rename_i hstate
      cases h
      exact ⟨db, ⟨(), hsame, if_pos hstate⟩, rfl, hwf⟩
    · rename_i hstate
      simp only [bind_ok, ensure_ok, decide_eq_true_eq] at h
      obtain ⟨-, hfinal, -, hunknown, h⟩ := h
      cases h
      obtain rfl : old.state = expected := not_not.mp hstate
      obtain ⟨hin, hid⟩ := deliveryAt_some hold
      refine ⟨db.setDelivery d, ⟨(), hsame, ?_⟩, ?_, hwf.setDelivery d⟩
      · rw [if_neg hstate]
        simp only [bind_ok, ensure_ok, decide_eq_true_eq]
        refine ⟨(), hfinal, (), hunknown, ?_⟩
        have hcount : (tablesOf db).deliveries.countP (fun row =>
            row.id == d.id && decide (row.state = old.state)) = 1 := by
          unfold tablesOf
          rw [List.countP_map]
          refine countP_eq_one_of_unique (List.Nodup.of_map _ hwf.deliveries) hin
            (by simp [DeliveryRow.ofDelivery, hid]) fun other hother hsame => ?_
          simp only [Function.comp_apply, DeliveryRow.ofDelivery, Bool.and_eq_true,
            beq_iff_eq] at hsame
          exact hwf.delivery_unique hold hother hsame.1
        simp only [hcount, decide_true]
        rfl
      · exact congrArg (ReportTables.mk (tablesOf db).runs)
          (rewrite_delivery_inState hwf hold hsame.2.1)

theorem resolveReportDelivery_refines (previous : ReportDelivery)
    (replacement : Option ReportDelivery) :
    Refines (Rows.resolveReportDelivery previous replacement)
      (resolveReportDelivery previous replacement) := by
  intro db a t hwf h
  unfold Rows.resolveReportDelivery at h
  rw [tablesOf_deliveryAt] at h
  unfold resolveReportDelivery
  cases hold : db.deliveryAt previous.id with
  | none =>
    rw [hold] at h
    cases h
    exact ⟨db, rfl, rfl, hwf⟩
  | some old =>
    simp only [hold] at h ⊢
    split at h
    · rename_i hstate
      cases h
      exact ⟨db, if_pos hstate, rfl, hwf⟩
    · rename_i hstate
      rw [if_neg hstate]
      simp only [checkDeliveryIdentity, bind_ok, ensure_ok, decide_eq_true_eq] at h ⊢
      obtain ⟨-, hsame, -, hprevious, h⟩ := h
      cases replacement with
      | none =>
        cases h
        exact ⟨db.setDelivery previous, ⟨(), hsame, (), hprevious, rfl⟩,
          rewrite_delivery hwf hold hsame.2.1, hwf.setDelivery previous⟩
      | some new =>
        simp only [bind_ok, ensure_ok, decide_eq_true_eq] at h ⊢
        obtain ⟨-, hnew, t', hinsert, h⟩ := h
        cases h
        obtain ⟨db', hinsert', rfl, hwf', hdeliveries⟩ := insertDelivery_tablesOf hwf hinsert
        have hold' : db'.deliveryAt previous.id = some old := by
          unfold MemoryDb.deliveryAt
          rw [hdeliveries, List.find?_append]
          exact Option.or_of_isSome (Option.isSome_of_eq_some hold) |>.trans hold
        exact ⟨db'.setDelivery previous, ⟨(), hsame, (), hprevious, (), hnew, db', hinsert', rfl⟩,
          rewrite_delivery hwf' hold' hsame.2.1, hwf'.setDelivery previous⟩

theorem receipted_tablesOf (db : MemoryDb) (runId : String) (destination : ReportDestination) :
    Rows.receipted (tablesOf db) runId destination = Receipted db runId destination := by
  unfold Rows.receipted tablesOf Receipted
  rw [List.any_map]
  rfl

theorem any_unsettled_tablesOf (db : MemoryDb) (runId : String) :
    ((tablesOf db).deliveries.any fun d => d.runId == runId && Rows.unsettled d) =
      db.deliveries.any fun d => d.runId == runId && Unsettled d := by
  unfold tablesOf
  rw [List.any_map]
  rfl

theorem pendingRow_tablesOf (db : MemoryDb) (run : ReportRun) :
    Rows.pendingRow (tablesOf db) (RunRow.ofRun run) = pendingRun db run := by
  unfold Rows.pendingRow pendingRun
  rw [any_unsettled_tablesOf, receipted_tablesOf, receipted_tablesOf, receipted_tablesOf]
  rfl

/-- Pending work found by column is the pending work of the payloads. -/
theorem listPendingReportRuns_refines :
    Refines Rows.listPendingReportRuns listPendingReportRuns := by
  intro db a t hwf h
  cases h
  refine ⟨db, ?_, rfl, hwf⟩
  have hsort := map_sortByKey (fun run : ReportRun => toLex (run.createdAt, run.runId))
    (fun row : RunRow => toLex (row.createdAt, row.runId)) RunRow.ofRun fun _ => rfl
  have hpending : Rows.pendingRow (tablesOf db) ∘ RunRow.ofRun = pendingRun db :=
    funext fun run => pendingRow_tablesOf db run
  have hrows : (sortByKey (fun row : RunRow => toLex (row.createdAt, row.runId))
      ((tablesOf db).runs.filter (Rows.pendingRow (tablesOf db)))).map RunRow.payload =
      sortByKey (fun run : ReportRun => toLex (run.createdAt, run.runId))
        (db.runs.filter (pendingRun db)) := by
    show (sortByKey _ ((db.runs.map RunRow.ofRun).filter _)).map RunRow.payload = _
    rw [List.filter_map, hpending, ← hsort, List.map_map]
    exact List.map_id _
  rw [hrows]
  rfl

/-! ## Recovery, row by row -/

theorem interrupted_identity (now : Int) (d : ReportDelivery) :
    SameIdentity d (interrupted now d) := by
  unfold interrupted
  split <;> exact ⟨rfl, rfl, rfl, rfl, rfl, rfl, rfl, rfl⟩

theorem requeued_runId (now : Int) (run : ReportRun) : (requeued now run).runId = run.runId := rfl

/-- The row that is read by the identifier of a run is the run itself. -/
theorem MemoryDb.WellFormed.runAt_mem {db : MemoryDb} (h : db.WellFormed) {run : ReportRun}
    (hrun : run ∈ db.runs) : db.runAt run.runId = some run := by
  obtain ⟨old, hold⟩ : ∃ old, db.runAt run.runId = some old :=
    Option.isSome_iff_exists.mp (List.find?_isSome.mpr ⟨run, hrun, by simp⟩)
  rw [hold, h.run_unique hold hrun rfl]

theorem MemoryDb.WellFormed.deliveryAt_mem {db : MemoryDb} (h : db.WellFormed)
    {d : ReportDelivery} (hd : d ∈ db.deliveries) : db.deliveryAt d.id = some d := by
  obtain ⟨old, hold⟩ : ∃ old, db.deliveryAt d.id = some old :=
    Option.isSome_iff_exists.mp (List.find?_isSome.mpr ⟨d, hd, by simp⟩)
  rw [hold, h.delivery_unique hold hd rfl]

/-- Requeueing the runs one after the other requeues exactly them. -/
theorem requeueRuns {now : Int} {t : ReportTables} (running : List ReportRun) {db : MemoryDb}
    (hwf : db.WellFormed) (hin : ∀ run ∈ running, run ∈ db.runs)
    (hdistinct : (running.map ReportRun.runId).Nodup)
    (h : (running.map ReportRun.runId).foldlM (Rows.requeueRun now) (tablesOf db) = .ok t) :
    (∀ run ∈ running, ∃ u, validateRun (requeued now run) = .ok u) ∧
      t = tablesOf { db with runs := db.runs.map fun run =>
        if run.runId ∈ running.map ReportRun.runId then requeued now run else run } := by
  induction running generalizing db with
  | nil =>
    cases h
    refine ⟨by simp, ?_⟩
    simp
  | cons run running ih =>
    rw [List.map_cons, List.foldlM_cons, bind_ok] at h
    obtain ⟨t₁, hfirst, h⟩ := h
    rw [List.map_cons, List.nodup_cons] at hdistinct
    have hrun := hin run (List.mem_cons_self ..)
    have hat := hwf.runAt_mem hrun
    unfold Rows.requeueRun at hfirst
    rw [tablesOf_runAt, hat] at hfirst
    simp only [Rows.writeRun, bind_ok] at hfirst
    obtain ⟨u, hvalid, hwrite⟩ := hfirst
    cases hwrite
    have hat' : db.runAt (requeued now run).runId = some run := hat
    rw [rewrite_run hwf hat' ⟨rfl, rfl, rfl, rfl, rfl⟩] at h
    have hlater : ∀ other ∈ running, other ∈ (db.setRun (requeued now run)).runs := by
      intro other hother
      refine List.mem_map.mpr ⟨other, hin other (List.mem_cons_of_mem _ hother), if_neg ?_⟩
      exact fun hid => hdistinct.1 (List.mem_map.mpr ⟨other, hother, hid⟩)
    obtain ⟨hvalids, rfl⟩ := ih (hwf.setRun (requeued now run)) hlater hdistinct.2 h
    refine ⟨fun other hother => ?_, ?_⟩
    · rcases List.mem_cons.mp hother with rfl | hin'
      · exact ⟨u, hvalid⟩
      · exact hvalids other hin'
    · unfold MemoryDb.setRun
      dsimp only
      rw [List.map_map]
      congr 2
      refine List.map_congr_left fun other hother => ?_
      rw [Function.comp_apply, List.map_cons, requeued_runId]
      by_cases hid : other.runId = run.runId
      · obtain rfl := hwf.run_unique hat hother hid
        rw [if_pos rfl, requeued_runId, if_neg hdistinct.1, if_pos (List.mem_cons_self ..)]
      · rw [if_neg hid]
        refine if_congr ?_ rfl rfl
        rw [List.mem_cons, or_iff_right hid]

/-- Interrupting the attempts one after the other interrupts exactly them. -/
theorem interruptDeliveries {now : Int} {t : ReportTables} (sending : List ReportDelivery)
    {db : MemoryDb} (hwf : db.WellFormed) (hin : ∀ d ∈ sending, d ∈ db.deliveries)
    (hdistinct : (sending.map ReportDelivery.id).Nodup)
    (h : (sending.map ReportDelivery.id).foldlM (Rows.interruptOne now) (tablesOf db) = .ok t) :
    t = tablesOf { db with deliveries := db.deliveries.map fun d =>
      if d.id ∈ sending.map ReportDelivery.id then interrupted now d else d } := by
  induction sending generalizing db with
  | nil =>
    cases h
    simp
  | cons d sending ih =>
    rw [List.map_cons, List.foldlM_cons, bind_ok] at h
    obtain ⟨t₁, hfirst, h⟩ := h
    rw [List.map_cons, List.nodup_cons] at hdistinct
    have hd := hin d (List.mem_cons_self ..)
    have hsame : SameIdentity d (interrupted now d) := interrupted_identity now d
    have hid : (interrupted now d).id = d.id := hsame.1.symm
    have hat : db.deliveryAt (interrupted now d).id = some d := hid ▸ hwf.deliveryAt_mem hd
    unfold Rows.interruptOne at hfirst
    rw [tablesOf_deliveryAt, hwf.deliveryAt_mem hd] at hfirst
    cases hfirst
    rw [rewrite_delivery hwf hat hsame.2.1] at h
    have hlater : ∀ other ∈ sending, other ∈ (db.setDelivery (interrupted now d)).deliveries := by
      intro other hother
      refine List.mem_map.mpr ⟨other, hin other (List.mem_cons_of_mem _ hother), if_neg ?_⟩
      exact fun hsameId => hdistinct.1 (List.mem_map.mpr ⟨other, hother, hsameId.trans hid⟩)
    rw [ih (hwf.setDelivery (interrupted now d)) hlater hdistinct.2 h]
    unfold MemoryDb.setDelivery
    dsimp only
    rw [List.map_map]
    congr 2
    refine List.map_congr_left fun other hother => ?_
    rw [Function.comp_apply, List.map_cons, hid]
    by_cases hother' : other.id = d.id
    · obtain rfl := hwf.delivery_unique (hwf.deliveryAt_mem hd) hother hother'
      rw [if_pos rfl, hid, if_neg hdistinct.1, if_pos (List.mem_cons_self ..)]
    · rw [if_neg hother']
      refine if_congr ?_ rfl rfl
      rw [List.mem_cons, or_iff_right hother']

theorem forM_ok {α : Type} {l : List α} {f : α → Except String Unit}
    (h : ∀ a ∈ l, ∃ u, f a = .ok u) : l.forM f = .ok () := by
  induction l with
  | nil => rfl
  | cons a l ih =>
    obtain ⟨u, ha⟩ := h a (List.mem_cons_self ..)
    show (f a >>= fun _ => l.forM f) = .ok ()
    rw [ha]
    exact ih fun b hb => h b (List.mem_cons_of_mem _ hb)

/-- Choosing by identifier among distinct records is choosing by what selected
them. -/
theorem map_selected {α : Type} {l : List α} {key : α → String} {p : α → Prop} [DecidablePred p]
    (hdistinct : (l.map key).Nodup) (f : α → α) :
    (l.map fun a => if key a ∈ (l.filter fun b => p b).map key then f a else a) =
      l.map fun a => if p a then f a else a := by
  refine List.map_congr_left fun a ha => if_congr ?_ rfl rfl
  refine ⟨fun h => ?_, fun h => List.mem_map.mpr ⟨a, List.mem_filter.mpr ⟨ha, by simpa using h⟩, rfl⟩⟩
  obtain ⟨b, hb, hkey⟩ := List.mem_map.mp h
  obtain ⟨hin, hpb⟩ := List.mem_filter.mp hb
  rw [← List.inj_on_of_nodup_map hdistinct hin ha hkey]
  simpa using hpb

theorem recoverReportWork_refines (now : Int) :
    Refines (Rows.recoverReportWork now) (recoverReportWork now) := by
  intro db a t hwf h
  simp only [Rows.recoverReportWork, bind_ok] at h
  obtain ⟨t₁, hruns, t₂, hdeliveries, h⟩ := h
  cases h
  -- the columns select what the payloads select
  have hrunning : ((tablesOf db).runs.filter fun row => row.phase = .running).map RunRow.runId =
      (db.runs.filter fun run => run.phase = .running).map ReportRun.runId := by
    show ((db.runs.map RunRow.ofRun).filter _).map RunRow.runId = _
    rw [List.filter_map, List.map_map]
    rfl
  rw [hrunning] at hruns
  have hsub := List.filter_sublist (p := fun run : ReportRun => decide (run.phase = .running))
    (l := db.runs)
  obtain ⟨hvalids, rfl⟩ := requeueRuns _ hwf (fun run hrun => hsub.subset hrun)
    (hwf.runs.sublist (hsub.map _)) hruns
  rw [map_selected hwf.runs] at hdeliveries
  have hwf₁ : MemoryDb.WellFormed { db with runs := db.runs.map (recoverRun now) } := by
    refine ⟨?_, hwf.deliveries⟩
    show ((db.runs.map (recoverRun now)).map ReportRun.runId).Nodup
    rw [List.map_map, show ReportRun.runId ∘ recoverRun now = ReportRun.runId from ?_]
    · exact hwf.runs
    · funext run
      show (if run.phase = .running then requeued now run else run).runId = run.runId
      split <;> rfl
  have hsending : ((tablesOf { db with runs := db.runs.map (recoverRun now) }).deliveries.filter
      fun row => row.state = .sending).map DeliveryRow.id =
      (db.deliveries.filter fun d => d.state = .sending).map ReportDelivery.id := by
    show ((db.deliveries.map DeliveryRow.ofDelivery).filter _).map DeliveryRow.id = _
    rw [List.filter_map, List.map_map]
    rfl
  have hsubD := List.filter_sublist (p := fun d : ReportDelivery => decide (d.state = .sending))
    (l := db.deliveries)
  have hrecovered := interruptDeliveries _ hwf₁ (fun d hd => hsubD.subset hd)
    (hwf.deliveries.sublist (hsubD.map _)) (hsending ▸ hdeliveries)
  rw [map_selected hwf.deliveries] at hrecovered
  refine ⟨_, ?_, hrecovered, ⟨hwf₁.runs, ?_⟩⟩
  · simp only [recoverReportWork, bind_ok]
    refine ⟨(), forM_ok fun run hrun => ?_, rfl⟩
    have hphase : run.phase = .running := by simpa using (List.mem_filter.mp hrun).2
    unfold recoverRun
    rw [if_pos hphase]
    exact hvalids run hrun
  · show ((db.deliveries.map (recoverDelivery now)).map ReportDelivery.id).Nodup
    rw [List.map_map, show ReportDelivery.id ∘ recoverDelivery now = ReportDelivery.id from ?_]
    · exact hwf.deliveries
    · funext d
      show (if d.state = .sending then interrupted now d else d).id = d.id
      split
      · exact (interrupted_identity now d).1.symm
      · rfl

/-! ## Retention -/

theorem prunable_tablesOf (db : MemoryDb) (before : Int) (run : ReportRun) :
    Rows.prunable (tablesOf db) before (RunRow.ofRun run) = prunable db before run := by
  have hchild : ((tablesOf db).runs.any fun child => child.revisionOf == some run.runId) =
      db.runs.any fun child => child.revisionOf == some run.runId := by
    unfold tablesOf
    rw [List.any_map]
    rfl
  unfold Rows.prunable prunable
  rw [receipted_tablesOf, receipted_tablesOf, receipted_tablesOf]
  show (_ && _ && !((tablesOf db).runs.any fun child => child.revisionOf == some run.runId) && _ &&
    !((tablesOf db).deliveries.any fun d => d.runId == run.runId && Rows.unsettled d)) = _
  rw [hchild, any_unsettled_tablesOf]
  rfl

theorem pruneOne_tablesOf (before : Int) (db : MemoryDb) (runId : String) :
    Rows.pruneOne before (tablesOf db) runId = tablesOf (pruneOne before db runId) := by
  have hfind : ((tablesOf db).runs.find? fun row => row.runId == runId) =
      (db.runAt runId).map RunRow.ofRun := by
    unfold tablesOf MemoryDb.runAt
    rw [List.find?_map]
    rfl
  unfold Rows.pruneOne pruneOne
  rw [hfind]
  cases db.runAt runId with
  | none => rfl
  | some run =>
    dsimp only [Option.map_some]
    rw [prunable_tablesOf]
    split
    · unfold tablesOf deleteRun
      rw [List.filter_map, List.filter_map]
      rfl
    · rfl

theorem pruneOne_wellFormed (before : Int) {db : MemoryDb} (h : db.WellFormed) (runId : String) :
    (pruneOne before db runId).WellFormed := by
  unfold pruneOne
  split
  · split
    · exact ⟨h.runs.sublist (List.filter_sublist.map _),
        h.deliveries.sublist (List.filter_sublist.map _)⟩
    · exact h
  · exact h

theorem pruneReportRuns_refines (visit : List String) (before : Int) :
    Refines (Rows.pruneReportRuns visit before) (pruneReportRuns visit before) := by
  intro db a t hwf h
  cases h
  induction visit generalizing db with
  | nil => exact ⟨db, rfl, rfl, hwf⟩
  | cons runId visit ih =>
    rw [List.foldl_cons, pruneOne_tablesOf]
    exact ih (pruneOne before db runId) (pruneOne_wellFormed before hwf runId)

/-! ## Runs of the store -/

/-- A report operation that writes, with any arguments. -/
inductive ReportWrite where
  | createRun (run : ReportRun)
  | updateRun (run : ReportRun)
  | claim (id : String) (now : Int)
  | recover (now : Int)
  | createDelivery (d : ReportDelivery)
  | createDeliveries (deliveries : List ReportDelivery)
  | updateDelivery (d : ReportDelivery) (expected : ReportDeliveryState)
  | resolve (previous : ReportDelivery) (replacement : Option ReportDelivery)

inductive ReportOp where
  | write (w : ReportWrite)
  | prune (visit : List String) (before : Int)

/-- The tables after a statement; one that fails is rolled back. -/
def RowStatement.after {α : Type} (op : RowStatement α) (t : ReportTables) : ReportTables :=
  match op t with
  | .ok (_, t') => t'
  | .error _ => t

def ReportWrite.apply (t : ReportTables) : ReportWrite → ReportTables
  | .createRun run => RowStatement.after (Rows.createReportRun run) t
  | .updateRun run => RowStatement.after (Rows.updateReportRun run) t
  | .claim id now => RowStatement.after (Rows.claimReportRun id now) t
  | .recover now => RowStatement.after (Rows.recoverReportWork now) t
  | .createDelivery d => RowStatement.after (Rows.createReportDelivery d) t
  | .createDeliveries deliveries => RowStatement.after (Rows.createReportDeliveries deliveries) t
  | .updateDelivery d expected => RowStatement.after (Rows.updateReportDelivery d expected) t
  | .resolve previous replacement =>
    RowStatement.after (Rows.resolveReportDelivery previous replacement) t

def ReportOp.apply (t : ReportTables) : ReportOp → ReportTables
  | .write w => w.apply t
  | .prune visit before => RowStatement.after (Rows.pruneReportRuns visit before) t

/-- The same write on the records. -/
def ReportWrite.Writes (w : ReportWrite) (db db' : MemoryDb) : Prop :=
  match w with
  | .createRun run => ∃ a, createReportRun run db = .ok (a, db')
  | .updateRun run => ∃ a, updateReportRun run db = .ok (a, db')
  | .claim id now => ∃ a, claimReportRun id now db = .ok (a, db')
  | .recover now => ∃ a, recoverReportWork now db = .ok (a, db')
  | .createDelivery d => ∃ a, createReportDelivery d db = .ok (a, db')
  | .createDeliveries deliveries => ∃ a, createReportDeliveries deliveries db = .ok (a, db')
  | .updateDelivery d expected => ∃ a, updateReportDelivery d expected db = .ok (a, db')
  | .resolve previous replacement =>
    ∃ a, resolveReportDelivery previous replacement db = .ok (a, db')

theorem Refines.after {α : Type} {row : RowStatement α} {op : MemoryStatement α}
    (h : Refines row op) {db : MemoryDb} (hwf : db.WellFormed) :
    ∃ db', (db' = db ∨ ∃ a, op db = .ok (a, db')) ∧
      RowStatement.after row (tablesOf db) = tablesOf db' ∧ db'.WellFormed := by
  unfold RowStatement.after
  cases hrow : row (tablesOf db) with
  | error e => exact ⟨db, Or.inl rfl, rfl, hwf⟩
  | ok result =>
    obtain ⟨a, t⟩ := result
    obtain ⟨db', hop, ht, hwf'⟩ := h db a t hwf hrow
    exact ⟨db', Or.inr ⟨a, hop⟩, ht, hwf'⟩

/-- A write on the rows is the write on the records, or nothing. -/
theorem ReportWrite.apply_refines (w : ReportWrite) {db : MemoryDb} (hwf : db.WellFormed) :
    ∃ db', (db' = db ∨ w.Writes db db') ∧ w.apply (tablesOf db) = tablesOf db' ∧
      db'.WellFormed := by
  cases w with
  | createRun run => exact (createReportRun_refines run).after hwf
  | updateRun run => exact (updateReportRun_refines run).after hwf
  | claim id now => exact (claimReportRun_refines id now).after hwf
  | recover now => exact (recoverReportWork_refines now).after hwf
  | createDelivery d => exact (createReportDelivery_refines d).after hwf
  | createDeliveries deliveries => exact (createReportDeliveries_refines deliveries).after hwf
  | updateDelivery d expected => exact (updateReportDelivery_refines d expected).after hwf
  | resolve previous replacement =>
    exact (resolveReportDelivery_refines previous replacement).after hwf

theorem ReportOp.apply_refines (op : ReportOp) {db : MemoryDb} (hwf : db.WellFormed) :
    ∃ db', op.apply (tablesOf db) = tablesOf db' ∧ db'.WellFormed := by
  cases op with
  | write w =>
    obtain ⟨db', -, hrows, hwf'⟩ := w.apply_refines hwf
    exact ⟨db', hrows, hwf'⟩
  | prune visit before =>
    obtain ⟨db', -, hrows, hwf'⟩ := (pruneReportRuns_refines visit before).after hwf
    exact ⟨db', hrows, hwf'⟩

theorem runOps_refines (ops : List ReportOp) {db : MemoryDb} (hwf : db.WellFormed) :
    ∃ db', ops.foldl ReportOp.apply (tablesOf db) = tablesOf db' ∧ db'.WellFormed := by
  induction ops generalizing db with
  | nil => exact ⟨db, rfl, hwf⟩
  | cons op ops ih =>
    obtain ⟨db₁, hfirst, hwf₁⟩ := op.apply_refines hwf
    rw [List.foldl_cons, hfirst]
    exact ih hwf₁

theorem tablesOf_empty : tablesOf MemoryDb.empty = ReportTables.empty := rfl

theorem empty_wellFormed : MemoryDb.empty.WellFormed := ⟨List.nodup_nil, List.nodup_nil⟩

/-- **Columns mirror payloads.** After any report operations with any arguments,
every column of a run and of a delivery is the field of its payload. -/
theorem columns_mirror_payload (ops : List ReportOp) :
    let t := ops.foldl ReportOp.apply ReportTables.empty
    (∀ row ∈ t.runs, row = RunRow.ofRun row.payload) ∧
      ∀ row ∈ t.deliveries, row = DeliveryRow.ofDelivery row.payload := by
  obtain ⟨db, hrows, -⟩ := runOps_refines ops empty_wellFormed
  rw [tablesOf_empty] at hrows
  intro t
  rw [show t = tablesOf db from hrows]
  refine ⟨fun row hrow => ?_, fun row hrow => ?_⟩
  · obtain ⟨run, -, rfl⟩ := List.mem_map.mp hrow
    rfl
  · obtain ⟨d, -, rfl⟩ := List.mem_map.mp hrow
    rfl

end ScreenSearch.Store
