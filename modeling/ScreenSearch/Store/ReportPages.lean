import ScreenSearch.Lib.Keyset
import ScreenSearch.Store.ReportRefines
import ScreenSearch.Traits.SavedReports
import Mathlib.Data.Prod.Lex

/-!
# Pages of saved reports

The pages go down from the greatest `(created_at, run_id)` of the first one, while runs
are created, updated and pruned. No statement changes the two columns of a stored run, so
a run keeps its place; a run that is created above the greatest is on no later page.

Main results:

* `ReportOp.apply_runs` — what a statement does to the places of the runs;
* `reportPage_isPage` — a page is a keyset page of the runs that match;
* `report_pages_complete` — what following the pages returns.
-/

namespace ScreenSearch.Store

open Sorting

/-! ## The page query -/

/-- Descending `(created_at, run_id)`. -/
def placeKey (createdAt : Int) (runId : String) : (Int ×ₗ String)ᵒᵈ :=
  OrderDual.toDual (toLex (createdAt, runId))

def rowKey (row : RunRow) : (Int ×ₗ String)ᵒᵈ := placeKey row.createdAt row.runId

def summaryKey (item : ReportSummary) : (Int ×ₗ String)ᵒᵈ := placeKey item.createdAt item.runId

def reportPositionKey (p : ReportPosition) : (Int ×ₗ String)ᵒᵈ := placeKey p.createdAt p.runId

/-- The run's window overlaps, and the filters that are there hold of the stored run. -/
def reportMatches (window : EvidenceWindow) (filters : ReportFilters) (row : RunRow) : Bool :=
  decide (row.windowStart < window.to) && decide (row.windowEnd > window.from)
  && (filters.phase.all fun phase => decide (row.phase = phase))
  && (filters.outcome.all fun outcome => decide (row.payload.outcome = some outcome))

def rowToSummary (row : RunRow) : ReportSummary where
  runId := row.runId
  sourceId := row.payload.sourceId
  revisionOf := row.payload.revisionOf
  requestedRange := row.payload.requestedRange
  windowStart := row.windowStart
  windowEnd := row.windowEnd
  timezone := row.payload.timezone
  localDate := row.payload.localDate
  createdAt := row.createdAt
  updatedAt := row.updatedAt
  phase := row.phase
  outcome := row.payload.outcome
  errorCode := (row.payload.error.map ReportError.code).filter fun code =>
    reportErrorCodeAllowlist.contains code

def maxTuple (t : ReportTables) : Option ReportSnapshot :=
  (sortByKey rowKey t.runs).head?.map fun row =>
    { maxCreatedAt := row.createdAt, maxRunId := row.runId }

def queryFirst (request : ReportPageRequest) (t : ReportTables) : List RunRow :=
  (sortByKey rowKey (t.runs.filter (reportMatches request.window request.filters))).take
    (request.limit + 1)

/-- The rest of the last run's time, and the earlier runs. -/
def queryAfter (request : ReportPageRequest) (after : ReportPosition) (t : ReportTables) :
    List RunRow :=
  let sameTime := t.runs.filter fun row =>
    row.createdAt == after.createdAt && decide (row.runId < after.runId)
    && reportMatches request.window request.filters row
  let earlier := t.runs.filter fun row =>
    decide (row.createdAt < after.createdAt) && reportMatches request.window request.filters row
  (sortByKey rowKey (sameTime ++ earlier)).take (request.limit + 1)

def reportSnapshot (continuation : Option ReportContinuation) (t : ReportTables) :
    Option ReportSnapshot :=
  match continuation with
  | some c => some c.snapshot
  | none => maxTuple t

def reportRows (request : ReportPageRequest) (t : ReportTables) : List RunRow :=
  match request.continuation with
  | some c => queryAfter request c.after t
  | none => queryFirst request t

def reportPage (request : ReportPageRequest) (t : ReportTables) :
    Except HistoryReadError StoredReportPage := do
  request.validate
  let found := (reportRows request t).map rowToSummary
  let items := found.take request.limit
  pure
    { items := items
      snapshot := reportSnapshot request.continuation t
      window := request.window
      filters := request.filters
      nextPosition :=
        if found.length > request.limit then
          items.getLast?.map fun item => { createdAt := item.createdAt, runId := item.runId }
        else none }

/-- The request for the page after this one. A position without a snapshot would be an
error of the reader. -/
def nextReports (page : StoredReportPage) : Option ReportContinuation :=
  match page.snapshot, page.nextPosition with
  | some snapshot, some after => some { snapshot := snapshot, after := after }
  | _, _ => none

/-! ## One page -/

variable {t t' : ReportTables} {request : ReportPageRequest} {window : EvidenceWindow}
  {filters : ReportFilters} {page : StoredReportPage} {c : ReportContinuation}
  {continuation : Option ReportContinuation}

def pageSummaries (window : EvidenceWindow) (filters : ReportFilters) (t : ReportTables) :
    List ReportSummary :=
  (t.runs.filter (reportMatches window filters)).map rowToSummary

def afterReport (continuation : Option ReportContinuation) : Option (Int ×ₗ String)ᵒᵈ :=
  continuation.map fun c => reportPositionKey c.after

theorem placeKey_lt {createdAt createdAt' : Int} {runId runId' : String} :
    placeKey createdAt runId < placeKey createdAt' runId' ↔
      createdAt' < createdAt ∨ createdAt' = createdAt ∧ runId' < runId := by
  rw [placeKey, placeKey, OrderDual.toDual_lt_toDual, Prod.Lex.toLex_lt_toLex]

theorem tupleAboveMax_eq_false {after : ReportPosition} {max : ReportSnapshot} :
    tupleAboveMax after max = false ↔
      placeKey max.maxCreatedAt max.maxRunId ≤ reportPositionKey after := by
  rw [← not_lt, reportPositionKey, placeKey_lt, ← Bool.not_eq_true]
  refine not_congr ?_
  simp only [tupleAboveMax, Bool.or_eq_true, Bool.and_eq_true, decide_eq_true_eq, beq_iff_eq]
  exact or_congr Iff.rfl (and_congr eq_comm Iff.rfl)

theorem behind_report {a : ReportPosition} {row : RunRow} :
    Keyset.behind (some (reportPositionKey a)) (rowKey row) = true ↔
      row.createdAt < a.createdAt ∨ row.createdAt = a.createdAt ∧ row.runId < a.runId := by
  show decide (reportPositionKey a < rowKey row) = true ↔ _
  rw [decide_eq_true_eq, reportPositionKey, rowKey, placeKey_lt]

theorem rowKeys_nodup (h : (t.runs.map RunRow.runId).Nodup) : (t.runs.map rowKey).Nodup := by
  refine List.Nodup.of_map (fun k : (Int ×ₗ String)ᵒᵈ => (ofLex (OrderDual.ofDual k)).2) ?_
  rw [List.map_map]
  exact h

/-- Either query finds the runs that match behind the position. -/
theorem reportRows_eq (h : (t.runs.map RunRow.runId).Nodup) :
    reportRows request t =
      (sortByKey rowKey ((t.runs.filter (reportMatches request.window request.filters)).filter
        fun row => Keyset.behind (afterReport request.continuation) (rowKey row))).take
          (request.limit + 1) := by
  unfold reportRows
  rcases hCase : request.continuation with - | c
  · have hAll : (t.runs.filter (reportMatches request.window request.filters)).filter
        (fun row => Keyset.behind (afterReport none) (rowKey row)) =
          t.runs.filter (reportMatches request.window request.filters) :=
      List.filter_eq_self.mpr fun _ _ => rfl
    rw [hAll]
    rfl
  · show queryAfter request c.after t = _
    unfold queryAfter
    dsimp only
    congr 1
    -- the matches behind the position, split by whether they are at its time
    have hHalves := List.filter_append_perm (fun row => row.createdAt == c.after.createdAt)
      ((t.runs.filter (reportMatches request.window request.filters)).filter fun row =>
        Keyset.behind (some (reportPositionKey c.after)) (rowKey row))
    refine sortByKey_eq_of_perm rowKey (List.Perm.trans
      (List.Perm.append (List.Perm.of_eq ?_) (List.Perm.of_eq ?_)) hHalves) ?_
    · rw [List.filter_filter, List.filter_filter]
      refine List.filter_congr fun row hRow => ?_
      rw [Bool.eq_iff_iff]
      simp only [Bool.and_eq_true, decide_eq_true_eq, beq_iff_eq, behind_report, and_assoc]
      constructor
      · rintro ⟨hAt, hBelow, hMatch⟩
        exact ⟨hAt, Or.inr ⟨hAt, hBelow⟩, hMatch⟩
      · rintro ⟨hAt, hEarlier | ⟨-, hBelow⟩, hMatch⟩
        · omega
        · exact ⟨hAt, hBelow, hMatch⟩
    · rw [List.filter_filter, List.filter_filter]
      refine List.filter_congr fun row hRow => ?_
      rw [Bool.eq_iff_iff]
      simp only [Bool.and_eq_true, decide_eq_true_eq, Bool.not_eq_true', beq_eq_false_iff_ne,
        behind_report, and_assoc]
      constructor
      · rintro ⟨hEarlier, hMatch⟩
        exact ⟨by omega, Or.inl hEarlier, hMatch⟩
      · rintro ⟨hAt, hEarlier | ⟨hSame, -⟩, hMatch⟩
        · exact ⟨hEarlier, hMatch⟩
        · exact absurd hSame hAt
    · intro a ha b hb hab
      have hStored : ∀ (p q : RunRow → Bool), ∀ row ∈ t.runs.filter p ++ t.runs.filter q,
          row ∈ t.runs := fun p q row hRow =>
        (List.mem_append.mp hRow).elim List.mem_of_mem_filter List.mem_of_mem_filter
      exact List.inj_on_of_nodup_map (rowKeys_nodup h) (hStored _ _ a ha) (hStored _ _ b hb) hab

theorem mem_pageSummaries {item : ReportSummary} :
    item ∈ pageSummaries window filters t ↔
      ∃ row ∈ t.runs, item = rowToSummary row ∧ reportMatches window filters row = true := by
  simp only [pageSummaries, List.mem_map, List.mem_filter]
  constructor
  · rintro ⟨row, ⟨hStored, hMatch⟩, rfl⟩
    exact ⟨row, hStored, rfl, hMatch⟩
  · rintro ⟨row, hStored, rfl, hMatch⟩
    exact ⟨row, ⟨hStored, hMatch⟩, rfl⟩

theorem maxTuple_spec {row : RunRow} (h : row ∈ t.runs) :
    ∃ last ∈ t.runs, maxTuple t = some ⟨last.createdAt, last.runId⟩ ∧ rowKey last ≤ rowKey row := by
  unfold maxTuple
  have hIn : row ∈ sortByKey rowKey t.runs := (mem_sortByKey rowKey).mpr h
  have hSorted := sortByKey_pairwise rowKey t.runs
  rcases hCase : sortByKey rowKey t.runs with - | ⟨last, rest⟩
  · rw [hCase] at hIn; cases hIn
  · rw [hCase] at hIn hSorted
    refine ⟨last, (mem_sortByKey rowKey).mp (hCase ▸ List.mem_cons_self ..), rfl, ?_⟩
    rcases List.mem_cons.mp hIn with rfl | hLater
    · exact le_rfl
    · exact (List.pairwise_cons.mp hSorted).1 row hLater

/-- A page that is the keyset page of the runs that match. -/
structure IsReportPage (request : ReportPageRequest) (t : ReportTables)
    (page : StoredReportPage) : Prop where
  snapshot_eq : page.snapshot = reportSnapshot request.continuation t
  items_eq : page.items = (Keyset.page summaryKey (afterReport request.continuation) request.limit
    (pageSummaries request.window request.filters t)).items
  next_eq : page.nextPosition.map reportPositionKey =
    (Keyset.page summaryKey (afterReport request.continuation) request.limit
      (pageSummaries request.window request.filters t)).next

theorem reportPage_isPage (h : (t.runs.map RunRow.runId).Nodup)
    (hPage : reportPage request t = .ok page) :
    ReportPageRequest.Plain request.window request.limit ∧ IsReportPage request t page := by
  unfold reportPage at hPage
  rcases hValid : request.validate with e | u
  · rw [hValid] at hPage; cases hPage
  rw [hValid] at hPage
  cases hPage
  obtain ⟨hPlain, -⟩ := ReportPageRequest.validate_ok.mp hValid
  have hRows : (reportRows request t).map rowToSummary =
      (sortByKey summaryKey ((pageSummaries request.window request.filters t).filter
        fun item => Keyset.behind (afterReport request.continuation) (summaryKey item))).take
          (request.limit + 1) := by
    rw [reportRows_eq h, List.map_take, map_sortByKey rowKey summaryKey rowToSummary fun _ => rfl,
      pageSummaries, List.filter_map]
    rfl
  refine ⟨hPlain, rfl, congrArg (List.take request.limit) hRows, ?_⟩
  unfold Keyset.page
  dsimp only
  rw [← hRows, apply_ite (Option.map reportPositionKey), Option.map_map]
  rfl

/-- A request that makes sense succeeds. -/
theorem reportPage_ok (hPlain : ReportPageRequest.Plain request.window request.limit)
    (hContinuation : ∀ c ∈ request.continuation, c.Valid) (t : ReportTables) :
    ∃ page, reportPage request t = .ok page := by
  unfold reportPage
  rw [ReportPageRequest.validate_ok.mpr ⟨hPlain, hContinuation⟩]
  exact ⟨_, rfl⟩

/-! ## Writes keep the places -/

/-- No run is where none was. -/
def SamePlaces (rows rows' : List RunRow) : Prop := rows'.map rowKey ⊆ rows.map rowKey

theorem SamePlaces.of_map {rows : List RunRow} {f : RunRow → RunRow}
    (h : ∀ row, rowKey (f row) = rowKey row) : SamePlaces rows (rows.map f) := by
  unfold SamePlaces
  rw [List.map_map, show rowKey ∘ f = rowKey from funext h]
  exact List.Subset.refl _

theorem writeRun_places {run : ReportRun} (h : Rows.writeRun run t = .ok t') :
    SamePlaces t.runs t'.runs := by
  simp only [Rows.writeRun, bind_ok] at h
  obtain ⟨-, -, h⟩ := h
  cases h
  refine SamePlaces.of_map fun row => ?_
  split <;> rfl

theorem foldlM_keeps {α : Type} {R : ReportTables → ReportTables → Prop} (hRefl : ∀ t, R t t)
    (hTrans : ∀ a b c, R a b → R b c → R a c) {f : ReportTables → α → Except String ReportTables}
    (hStep : ∀ t a t', f t a = .ok t' → R t t') (l : List α) :
    ∀ {t t'}, l.foldlM f t = .ok t' → R t t' := by
  induction l with
  | nil =>
    intro t t' h
    cases h
    exact hRefl t
  | cons a l ih =>
    intro t t' h
    rw [List.foldlM_cons, bind_ok] at h
    obtain ⟨between, hFirst, hRest⟩ := h
    exact hTrans _ _ _ (hStep t a between hFirst) (ih hRest)

theorem createReportRun_runs {run a : ReportRun} (h : Rows.createReportRun run t = .ok (a, t')) :
    t'.runs = t.runs ∨ t'.runs = t.runs ++ [RunRow.ofRun run] ∧ run.runId.isEmpty = false ∧
      run.runId ∉ t.runs.map RunRow.runId := by
  simp only [Rows.createReportRun, bind_ok] at h
  obtain ⟨u, hValid, h⟩ := h
  split at h
  · cases h
    exact Or.inl rfl
  split at h
  · cases h
    exact Or.inl rfl
  simp only [Rows.insertRun, bind_ok, ensure_ok] at h
  obtain ⟨_, ⟨-, hNew, -, -, -, -, hInsert⟩, h⟩ := h
  cases hInsert
  cases h
  refine Or.inr ⟨rfl, ?_, ?_⟩
  · simp only [validateRun, bind_ok, ensure_ok, Bool.and_eq_true, Bool.not_eq_true'] at hValid
    obtain ⟨-, ⟨hRun, -⟩, -⟩ := hValid
    exact hRun
  · intro hIn
    obtain ⟨row, hRow, hId⟩ := List.mem_map.mp hIn
    rw [Bool.not_eq_true', List.any_eq_false] at hNew
    exact hNew row hRow (beq_iff_eq.mpr hId)

theorem updateReportRun_places {run : ReportRun} {u : Unit}
    (h : Rows.updateReportRun run t = .ok (u, t')) : SamePlaces t.runs t'.runs := by
  unfold Rows.updateReportRun at h
  split at h
  · cases h
  · simp only [bind_ok] at h
    obtain ⟨-, -, -, -, _, hWrite, h⟩ := h
    cases h
    exact writeRun_places hWrite

theorem claimReportRun_places {id : String} {now : Int} {claimed : Bool}
    (h : Rows.claimReportRun id now t = .ok (claimed, t')) : SamePlaces t.runs t'.runs := by
  unfold Rows.claimReportRun at h
  split at h
  · cases h
    exact List.Subset.refl _
  split at h
  · cases h
    exact List.Subset.refl _
  · cases h
    refine SamePlaces.of_map fun row => ?_
    split <;> rfl

theorem insertDelivery_runs {d : ReportDelivery} (h : Rows.insertDelivery d t = .ok t') :
    t'.runs = t.runs := by
  simp only [Rows.insertDelivery, bind_ok] at h
  obtain ⟨-, -, -, -, -, -, h⟩ := h
  cases h
  rfl

theorem createReportDelivery_runs {d a : ReportDelivery}
    (h : Rows.createReportDelivery d t = .ok (a, t')) : t'.runs = t.runs := by
  unfold Rows.createReportDelivery at h
  split at h
  · simp only [bind_ok] at h
    obtain ⟨-, -, h⟩ := h
    cases h
    rfl
  · simp only [bind_ok] at h
    obtain ⟨_, hInsert, h⟩ := h
    cases h
    exact insertDelivery_runs hInsert

theorem createReportDeliveries_runs {deliveries : List ReportDelivery} :
    ∀ {t t' : ReportTables} {as : List ReportDelivery},
      Rows.createReportDeliveries deliveries t = .ok (as, t') → t'.runs = t.runs := by
  induction deliveries with
  | nil =>
    intro t t' as h
    cases h
    rfl
  | cons d deliveries ih =>
    intro t t' as h
    simp only [Rows.createReportDeliveries, bind_ok] at h
    obtain ⟨⟨first, between⟩, hFirst, ⟨others, last⟩, hOthers, h⟩ := h
    cases h
    exact (ih hOthers).trans (createReportDelivery_runs hFirst)

theorem updateReportDelivery_runs {d : ReportDelivery} {expected : ReportDeliveryState}
    {changed : Bool} (h : Rows.updateReportDelivery d expected t = .ok (changed, t')) :
    t'.runs = t.runs := by
  unfold Rows.updateReportDelivery at h
  split at h
  · cases h
    rfl
  simp only [bind_ok] at h
  obtain ⟨-, -, h⟩ := h
  split at h
  · cases h
    rfl
  · simp only [bind_ok] at h
    obtain ⟨-, -, -, -, h⟩ := h
    cases h
    rfl

theorem resolveReportDelivery_runs {previous : ReportDelivery}
    {replacement : Option ReportDelivery} {changed : Bool}
    (h : Rows.resolveReportDelivery previous replacement t = .ok (changed, t')) :
    t'.runs = t.runs := by
  unfold Rows.resolveReportDelivery at h
  split at h
  · cases h
    rfl
  split at h
  · cases h
    rfl
  simp only [bind_ok] at h
  obtain ⟨-, -, -, -, h⟩ := h
  split at h
  · simp only [bind_ok] at h
    obtain ⟨-, -, inserted, hInsert, h⟩ := h
    cases h
    show inserted.runs = t.runs
    exact insertDelivery_runs hInsert
  · cases h
    rfl

theorem recoverReportWork_places {now : Int} {u : Unit}
    (h : Rows.recoverReportWork now t = .ok (u, t')) : SamePlaces t.runs t'.runs := by
  simp only [Rows.recoverReportWork, bind_ok] at h
  obtain ⟨between, hRuns, last, hDeliveries, h⟩ := h
  cases h
  have hRequeued : SamePlaces t.runs between.runs := by
    refine foldlM_keeps (R := fun a b => SamePlaces a.runs b.runs) (fun _ => List.Subset.refl _)
      (fun _ _ _ hab hbc => List.Subset.trans hbc hab) (fun a id b hStep => ?_) _ hRuns
    unfold Rows.requeueRun at hStep
    split at hStep
    · cases hStep
    · exact writeRun_places hStep
  have hInterrupted : t'.runs = between.runs := by
    refine foldlM_keeps (R := fun a b => b.runs = a.runs) (fun _ => rfl)
      (fun _ _ _ hab hbc => hbc.trans hab) (fun a id b hStep => ?_) _ hDeliveries
    unfold Rows.interruptOne at hStep
    split at hStep
    · cases hStep
    · cases hStep
      rfl
  rwa [hInterrupted]

theorem pruneOne_places (before : Int) (t : ReportTables) (runId : String) :
    SamePlaces t.runs (Rows.pruneOne before t runId).runs := by
  unfold Rows.pruneOne
  split
  · split
    · exact (List.filter_sublist.map rowKey).subset
    · exact List.Subset.refl _
  · exact List.Subset.refl _

theorem pruneReportRuns_places (visit : List String) (before : Int) :
    ∀ t : ReportTables, SamePlaces t.runs (visit.foldl (Rows.pruneOne before) t).runs := by
  induction visit with
  | nil => exact fun t => List.Subset.refl _
  | cons runId visit ih =>
    intro t
    exact List.Subset.trans (ih _) (pruneOne_places before t runId)

/-- Every run is where it was, or is the one that was created, under a new identity. -/
def RunsKept (created : Option ReportRun) (rows rows' : List RunRow) : Prop :=
  ∀ row ∈ rows', rowKey row ∈ rows.map rowKey ∨
    ∃ run, created = some run ∧ row = RunRow.ofRun run ∧ run.runId.isEmpty = false ∧
      run.runId ∉ rows.map RunRow.runId

variable {added : Option ReportRun}

theorem SamePlaces.kept {rows rows' : List RunRow} (h : SamePlaces rows rows') :
    RunsKept added rows rows' :=
  fun _ hRow => Or.inl (h (List.mem_map_of_mem hRow))

theorem RunsKept.of_eq {rows rows' : List RunRow} (h : rows' = rows) :
    RunsKept added rows rows' :=
  SamePlaces.kept (by rw [h]; exact List.Subset.refl _)

theorem RowStatement.after_kept {α : Type} {op : RowStatement α}
    (h : ∀ a t', op t = .ok (a, t') → RunsKept added t.runs t'.runs) :
    RunsKept added t.runs (op.after t).runs := by
  unfold RowStatement.after
  rcases hOp : op t with e | ⟨a, t'⟩
  · exact RunsKept.of_eq rfl
  · exact h a t' hOp

/-- The run that an operation may create. -/
def ReportOp.created : ReportOp → Option ReportRun
  | .write (.createRun run) => some run
  | _ => none

theorem ReportOp.apply_runs (op : ReportOp) (t : ReportTables) :
    RunsKept op.created t.runs (op.apply t).runs := by
  rcases op with w | ⟨visit, before⟩
  · rcases w with run | run | ⟨id, now⟩ | now | d | deliveries | ⟨d, expected⟩ |
      ⟨previous, replacement⟩
    · refine RowStatement.after_kept fun a t' h => ?_
      rcases createReportRun_runs h with hSame | ⟨hAdded, hId, hNew⟩
      · exact RunsKept.of_eq hSame
      · intro row hRow
        rw [hAdded] at hRow
        rcases List.mem_append.mp hRow with hOld | hIn
        · exact Or.inl (List.mem_map_of_mem hOld)
        · exact Or.inr ⟨run, rfl, List.mem_singleton.mp hIn, hId, hNew⟩
    · exact RowStatement.after_kept fun a t' h => (updateReportRun_places h).kept
    · exact RowStatement.after_kept fun a t' h => (claimReportRun_places h).kept
    · exact RowStatement.after_kept fun a t' h => (recoverReportWork_places h).kept
    · exact RowStatement.after_kept fun a t' h => RunsKept.of_eq (createReportDelivery_runs h)
    · exact RowStatement.after_kept fun a t' h => RunsKept.of_eq (createReportDeliveries_runs h)
    · exact RowStatement.after_kept fun a t' h => RunsKept.of_eq (updateReportDelivery_runs h)
    · exact RowStatement.after_kept fun a t' h => RunsKept.of_eq (resolveReportDelivery_runs h)
  · refine RowStatement.after_kept fun a t' h => ?_
    cases h
    exact (pruneReportRuns_places visit before t).kept

/-- A stored run keeps its creation time, or has been created with the one it has. -/
theorem RunsKept.createdAt {rows rows' : List RunRow} (h : RunsKept added rows rows')
    {row : RunRow} (hRow : row ∈ rows') :
    (∃ old ∈ rows, old.createdAt = row.createdAt ∧ old.runId = row.runId) ∨
      ∃ run, added = some run ∧ run.createdAt = row.createdAt ∧ run.runId = row.runId ∧
        row.runId.isEmpty = false := by
  rcases h row hRow with hOld | ⟨run, hRun, rfl, hNamed, -⟩
  · obtain ⟨old, hIn, hKey⟩ := List.mem_map.mp hOld
    have hPlace : (old.createdAt, old.runId) = (row.createdAt, row.runId) :=
      congrArg (fun k : (Int ×ₗ String)ᵒᵈ => ofLex (OrderDual.ofDual k)) hKey
    obtain ⟨hAt, hId⟩ := Prod.mk.inj hPlace
    exact Or.inl ⟨old, hIn, hAt, hId⟩
  · exact Or.inr ⟨run, hRun, rfl, rfl, hNamed⟩

/-! ## Walks -/

/-- A reader that keeps the window and the filters from page to page, and asks with a
limit. -/
def reportReader (window : EvidenceWindow) (filters : ReportFilters) :
    Keyset.Reader ReportTables ReportOp Nat ReportContinuation StoredReportPage where
  apply := fun t op => op.apply t
  ask := fun continuation limit t =>
    match reportPage ⟨window, filters, limit, continuation⟩ t with
    | .ok page => some page
    | .error _ => none
  next := nextReports

abbrev ReportEvent := Keyset.Event ReportOp Nat

abbrev ReportPageRead := Keyset.Answer ReportTables ReportContinuation StoredReportPage

def reportWalk (window : EvidenceWindow) (filters : ReportFilters) (t : ReportTables)
    (events : List ReportEvent) : List ReportPageRead :=
  (reportReader window filters).walk none t events

/-- The page, with the runs that were there. -/
def reportRead (window : EvidenceWindow) (filters : ReportFilters) (read : ReportPageRead) :
    Keyset.Read ReportSummary (Int ×ₗ String)ᵒᵈ where
  after := afterReport read.continuation
  rows := pageSummaries window filters read.table
  items := read.page.items
  next := (nextReports read.page).map fun c => reportPositionKey c.after

/-- Tables that the statements make, and a continuation for them. -/
structure ReportsGood (t : ReportTables) (continuation : Option ReportContinuation) : Prop where
  records : ∃ db : MemoryDb, db.WellFormed ∧ t = tablesOf db
  named : ∀ row ∈ t.runs, row.runId.isEmpty = false
  valid : ∀ c ∈ continuation, c.Valid

theorem ReportsGood.nodup (h : ReportsGood t continuation) : (t.runs.map RunRow.runId).Nodup := by
  obtain ⟨db, hWell, rfl⟩ := h.records
  rw [tablesOf, List.map_map]
  exact hWell.runs

theorem ask_reportPage {limit : Nat}
    (hAsk : (reportReader window filters).ask continuation limit t = some page) :
    reportPage ⟨window, filters, limit, continuation⟩ t = .ok page := by
  unfold reportReader at hAsk
  dsimp only at hAsk
  split at hAsk
  · next hPage => rw [hPage, Option.some.inj hAsk]
  · cases hAsk

/-- What a page that is asked for is. -/
theorem ask_isReportPage {limit : Nat} (h : ReportsGood t continuation)
    (hAsk : (reportReader window filters).ask continuation limit t = some page) :
    1 ≤ limit ∧ IsReportPage ⟨window, filters, limit, continuation⟩ t page := by
  obtain ⟨hPlain, hIsPage⟩ := reportPage_isPage h.nodup (ask_reportPage hAsk)
  exact ⟨hPlain.limit_pos, hIsPage⟩

theorem pageSummaries_nodup (h : (t.runs.map RunRow.runId).Nodup) :
    ((pageSummaries window filters t).map summaryKey).Nodup := by
  rw [pageSummaries, List.map_map]
  exact (rowKeys_nodup h).sublist (List.filter_sublist.map rowKey)

/-- A position is that of a run of the page, which a snapshot is at or above. -/
theorem nextPosition_spec {limit : Nat} {after : ReportPosition} (h : ReportsGood t continuation)
    (hLimit : 1 ≤ limit) (hPage : IsReportPage ⟨window, filters, limit, continuation⟩ t page)
    (hNext : page.nextPosition = some after) :
    ∃ snapshot, page.snapshot = some snapshot ∧
      (⟨snapshot, after⟩ : ReportContinuation).Valid := by
  have hPosition : (Keyset.page summaryKey (afterReport continuation) limit
      (pageSummaries window filters t)).next = some (reportPositionKey after) := by
    rw [← hPage.next_eq, hNext]
    rfl
  obtain ⟨item, hItem, hKey⟩ := Keyset.page_next hPosition
  rw [Keyset.page_items (pageSummaries_nodup h.nodup) hLimit, mem_sortByKey, List.mem_filter,
    Bool.and_eq_true] at hItem
  obtain ⟨hRow, -, hBehind⟩ := hItem
  obtain ⟨row, hStored, rfl, -⟩ := mem_pageSummaries.mp hRow
  have hPlace : (row.createdAt, row.runId) = (after.createdAt, after.runId) :=
    congrArg (fun k : (Int ×ₗ String)ᵒᵈ => ofLex (OrderDual.ofDual k)) hKey
  obtain ⟨hAt, hId⟩ := Prod.mk.inj hPlace
  have hNamed : after.runId.isEmpty = false := hId ▸ h.named row hStored
  rcases continuation with - | c
  · obtain ⟨last, hLast, hMax, hLe⟩ := maxTuple_spec hStored
    refine ⟨_, hPage.snapshot_eq.trans hMax, hNamed, h.named last hLast, ?_⟩
    refine tupleAboveMax_eq_false.mpr ?_
    rw [← hKey]
    exact hLe
  · have hValid := h.valid c rfl
    refine ⟨_, hPage.snapshot_eq, hNamed, hValid.maxRunId, ?_⟩
    refine tupleAboveMax_eq_false.mpr ((tupleAboveMax_eq_false.mp hValid.le_max).trans ?_)
    rw [← hKey]
    exact (of_decide_eq_true hBehind).le

/-- There is a next page where there is a next position. -/
theorem nextReports_eq {limit : Nat} (h : ReportsGood t continuation) (hLimit : 1 ≤ limit)
    (hPage : IsReportPage ⟨window, filters, limit, continuation⟩ t page) :
    (nextReports page).map (fun c => reportPositionKey c.after) =
      page.nextPosition.map reportPositionKey := by
  unfold nextReports
  rcases hNext : page.nextPosition with - | after
  · split <;> simp_all
  · obtain ⟨snapshot, hSnapshot, -⟩ := nextPosition_spec h hLimit hPage hNext
    rw [hSnapshot]
    rfl

theorem ReportsGood.apply (h : ReportsGood t continuation) (op : ReportOp) :
    ReportsGood (op.apply t) continuation := by
  obtain ⟨db, hWell, rfl⟩ := h.records
  refine ⟨?_, fun row hRow => ?_, h.valid⟩
  · obtain ⟨db', hRows, hWell'⟩ := op.apply_refines hWell
    exact ⟨db', hWell', hRows⟩
  · rcases (op.apply_runs (tablesOf db)).createdAt hRow with
      ⟨old, hIn, -, hId⟩ | ⟨-, -, -, -, hNamed⟩
    · exact hId ▸ h.named old hIn
    · exact hNamed

/-- The stores that operations make. -/
theorem reportOps_good (ops : List ReportOp) :
    ReportsGood (ops.foldl ReportOp.apply ReportTables.empty) none := by
  have hKept : ∀ (ops : List ReportOp) (t : ReportTables), ReportsGood t none →
      ReportsGood (ops.foldl ReportOp.apply t) none := by
    intro ops
    induction ops with
    | nil => exact fun _ h => h
    | cons op ops ih => exact fun t h => ih _ (h.apply op)
  have hEmpty : ReportsGood ReportTables.empty none :=
    ⟨⟨MemoryDb.empty, empty_wellFormed, tablesOf_empty.symm⟩,
      fun _ hRow => absurd hRow List.not_mem_nil, fun _ hc => by cases hc⟩
  exact hKept ops _ hEmpty

theorem reportReader_keeps : (reportReader window filters).Keeps ReportsGood where
  write := fun op h => h.apply op
  ask := by
    intro t continuation limit page next h hAsk hNext
    obtain ⟨hLimit, hIsPage⟩ := ask_isReportPage h hAsk
    refine ⟨h.records, h.named, fun c hc => ?_⟩
    obtain rfl := Option.some.inj hc
    change nextReports page = some _ at hNext
    unfold nextReports at hNext
    split at hNext
    · next snapshot after hSnapshot hAfter =>
      obtain ⟨snapshot', hSnapshot', hValid⟩ := nextPosition_spec h hLimit hIsPage hAfter
      rw [hSnapshot] at hSnapshot'
      rwa [← Option.some.inj hNext, Option.some.inj hSnapshot']
    · cases hNext

theorem reportReader_pages : (reportReader window filters).Pages summaryKey ReportsGood
    (fun c => reportPositionKey c.after) (reportRead window filters) where
  faithful := by
    intro t continuation limit page h hAsk
    obtain ⟨hLimit, hIsPage⟩ := ask_isReportPage h hAsk
    have hFaithful := @Keyset.page_faithful _ _ _ summaryKey (afterReport continuation) limit _
      (@pageSummaries_nodup t window filters h.nodup) hLimit
    unfold reportRead
    dsimp only
    rw [nextReports_eq h hLimit hIsPage, hIsPage.items_eq, hIsPage.next_eq]
    exact hFaithful
  after := fun _ => rfl
  next := fun _ => rfl

/-! ## What a walk returns -/

/-- The last page says that nothing is next. -/
def reportWalkFinished (reads : List ReportPageRead) : Prop :=
  ∃ read ∈ reads.getLast?, read.page.nextPosition = none

/-- The page's range, from behind the position it was asked for to the one it gave. -/
def reportPageCovers (read : ReportPageRead) (createdAt : Int) (runId : String) : Bool :=
  Keyset.upTo (read.page.nextPosition.map reportPositionKey) (placeKey createdAt runId)
  && Keyset.behind (afterReport read.continuation) (placeKey createdAt runId)

variable {events : List ReportEvent}

theorem reportWalk_next (h : ReportsGood t none) {read : ReportPageRead}
    (hRead : read ∈ reportWalk window filters t events) :
    (nextReports read.page).map (fun c => reportPositionKey c.after) =
      read.page.nextPosition.map reportPositionKey := by
  obtain ⟨hGood, limit, hAsk⟩ := Keyset.Reader.walk_kept reportReader_keeps events h read hRead
  obtain ⟨hLimit, hIsPage⟩ := ask_isReportPage hGood hAsk
  exact nextReports_eq hGood hLimit hIsPage

theorem reportWalk_ended (h : ReportsGood t none) :
    (reportReader window filters).Ended (reportWalk window filters t events) ↔
      reportWalkFinished (reportWalk window filters t events) := by
  unfold Keyset.Reader.Ended reportWalkFinished
  refine exists_congr fun read => and_congr_right fun hLast => ?_
  have hNext := reportWalk_next h (List.mem_of_getLast? hLast)
  show nextReports read.page = none ↔ _
  rw [← Option.map_eq_none_iff (f := fun c => reportPositionKey c.after), hNext,
    Option.map_eq_none_iff]

/-- No run above the first page's greatest is on a later page. -/
def BelowFirst (snapshot : Option ReportSnapshot) (t : ReportTables)
    (continuation : Option ReportContinuation) : Prop :=
  ReportsGood t continuation ∧ ∃ c, continuation = some c ∧ some c.snapshot = snapshot

theorem reportReader_belowFirst {snapshot : Option ReportSnapshot} :
    (reportReader window filters).Keeps (BelowFirst snapshot) where
  write := by
    rintro t continuation op ⟨hGood, hSnapshot⟩
    exact ⟨reportReader_keeps.write op hGood, hSnapshot⟩
  ask := by
    rintro t continuation limit page next ⟨hGood, c, rfl, hSnapshot⟩ hAsk hNext
    refine ⟨reportReader_keeps.ask hGood hAsk hNext, next, rfl, ?_⟩
    obtain ⟨-, hIsPage⟩ := ask_isReportPage hGood hAsk
    change nextReports page = some next at hNext
    unfold nextReports at hNext
    split at hNext
    · next found after hFound hAfter =>
      rw [← Option.some.inj hNext, ← hSnapshot, ← hFound, hIsPage.snapshot_eq]
      rfl
    · cases hNext

/-- Where an id stands for one creation time, it stands for it on every page. -/
theorem reportWalk_places {place : String → Int}
    (hPlace : ∀ row ∈ t.runs, row.createdAt = place row.runId)
    (hCreated : ∀ run, .write (.write (.createRun run)) ∈ events →
      run.createdAt = place run.runId) {read : ReportPageRead}
    (hRead : read ∈ reportWalk window filters t events) :
    ∀ row ∈ read.table.runs, row.createdAt = place row.runId := by
  have hKeeps := @Keyset.Reader.walk_invariant _ _ _ _ _ (reportReader window filters)
    (fun t _ => ∀ row ∈ t.runs, row.createdAt = place row.runId) events
  refine (hKeeps ?_ (fun hKept _ _ => hKept) hPlace read hRead).1
  intro t c op hIn hKept row hRow
  rcases (op.apply_runs t).createdAt hRow with ⟨old, hOld, hAt, hId⟩ | ⟨run, hRun, hAt, hId, -⟩
  · rw [← hAt, ← hId]
    exact hKept old hOld
  · have hOp : op = .write (.createRun run) := by
      unfold ReportOp.created at hRun
      split at hRun
      · rw [Option.some.inj hRun]
      · cases hRun
    subst hOp
    rw [← hAt, ← hId]
    exact hCreated run hIn

/-- A page holds nothing above the greatest run of the first one. -/
theorem reportWalk_max (h : ReportsGood t none) {first : ReportPageRead}
    (hFirst : first ∈ (reportWalk window filters t events).head?) :
    first.page.snapshot = maxTuple first.table ∧
      ∀ read ∈ reportWalk window filters t events, ∀ row ∈ read.table.runs,
        (reportRead window filters read).covers (rowKey row) = true →
        ∃ snapshot, first.page.snapshot = some snapshot ∧
          tupleAboveMax ⟨row.createdAt, row.runId⟩ snapshot = false := by
  obtain ⟨⟨hGood, limit, hAsk⟩, hOthers⟩ :=
    Keyset.Reader.walk_head reportReader_keeps events h first hFirst
  obtain ⟨hLimit, hIsPage⟩ := ask_isReportPage hGood hAsk
  refine ⟨hIsPage.snapshot_eq, fun read hRead row hRow hCovers => ?_⟩
  rcases hOthers read hRead with rfl | ⟨next, rest, hNext, hIn⟩
  · obtain ⟨last, -, hMax, hLe⟩ := maxTuple_spec hRow
    exact ⟨_, hIsPage.snapshot_eq.trans hMax, tupleAboveMax_eq_false.mpr hLe⟩
  · have hNextGood := reportReader_keeps.ask hGood hAsk hNext
    have hSnapshot : some next.snapshot = first.page.snapshot := by
      change nextReports first.page = some next at hNext
      unfold nextReports at hNext
      split at hNext
      · next hFound _ => rw [← Option.some.inj hNext, hFound]
      · cases hNext
    obtain ⟨⟨hReadGood, c, hc, hSame⟩, -⟩ := Keyset.Reader.walk_kept reportReader_belowFirst rest
      ⟨hNextGood, next, rfl, hSnapshot⟩ read hIn
    refine ⟨c.snapshot, hSame.symm, tupleAboveMax_eq_false.mpr ?_⟩
    -- the run is behind the position, which is at or below the snapshot
    have hBelow := tupleAboveMax_eq_false.mp (hReadGood.valid c hc).le_max
    have hBehind := (Bool.and_eq_true_iff.mp hCovers).2
    change Keyset.behind (afterReport read.continuation) (rowKey row) = true at hBehind
    rw [hc] at hBehind
    exact hBelow.trans (of_decide_eq_true hBehind).le

/-- **What following the pages returns**, for every order of operations and requests, from
any store that operations made: strictly descending, nothing above the first page's
greatest run, and of each place the run that is stored there and matches when the place's
page is read. Where no id is given to two runs, none comes twice. A request of the walk
does not fail. -/
theorem report_pages_complete (ops : List ReportOp) (window : EvidenceWindow)
    (filters : ReportFilters) (events : List ReportEvent) :
    let t := ops.foldl ReportOp.apply ReportTables.empty
    let reads := reportWalk window filters t events
    let returned := reads.flatMap fun read => read.page.items
    returned.Pairwise (fun a b => b.createdAt < a.createdAt ∨
      b.createdAt = a.createdAt ∧ b.runId < a.runId) ∧
    (∀ first ∈ reads.head?, first.page.snapshot = maxTuple first.table ∧
      ∀ item ∈ returned, ∃ snapshot, first.page.snapshot = some snapshot ∧
        tupleAboveMax ⟨item.createdAt, item.runId⟩ snapshot = false) ∧
    (reportWalkFinished reads → ∀ createdAt runId,
      ∃ read ∈ reads, reportPageCovers read createdAt runId = true ∧
        ((∃ item ∈ returned, item.createdAt = createdAt ∧ item.runId = runId) ↔
          ∃ row ∈ read.table.runs, row.createdAt = createdAt ∧ row.runId = runId ∧
            reportMatches window filters row = true)) ∧
    (∀ place : String → Int, (∀ row ∈ t.runs, row.createdAt = place row.runId) →
      (∀ run, .write (.write (.createRun run)) ∈ events → run.createdAt = place run.runId) →
      (returned.map ReportSummary.runId).Nodup) ∧
    (window.validate = .ok () →
      (∀ limit, .ask limit ∈ events → 1 ≤ limit ∧ limit ≤ reportPageMaxLimit) →
      ¬ reportWalkFinished reads → reads.length = events.countP Keyset.Event.isAsk) := by
  intro t reads returned
  have hGood : ReportsGood t none := reportOps_good ops
  have hReturned : returned = Keyset.returned (reads.map (reportRead window filters)) := by
    rw [Keyset.returned, List.flatMap_map]
    rfl
  have hChain : Keyset.Chain summaryKey none (reads.map (reportRead window filters)) :=
    Keyset.Reader.walk_chain reportReader_keeps reportReader_pages events hGood
  have hSorted : returned.Pairwise fun a b => summaryKey a < summaryKey b :=
    hReturned ▸ hChain.sorted
  -- each item was read on a page that covers its place
  have hFoundOn : ∀ item ∈ returned, ∃ read ∈ reads, (∃ row ∈ read.table.runs,
      item = rowToSummary row ∧ reportMatches window filters row = true) ∧
      (reportRead window filters read).covers (summaryKey item) = true := by
    intro item hItem
    rw [hReturned] at hItem
    obtain ⟨read, hRead, hRows, hCovers⟩ :=
      Keyset.Reader.walk_returned reportReader_keeps reportReader_pages events hGood hItem
    exact ⟨read, hRead, mem_pageSummaries.mp hRows, hCovers⟩
  refine ⟨hSorted.imp fun hLt => placeKey_lt.mp hLt, fun first hFirst => ?_, ?_, ?_, ?_⟩
  · obtain ⟨hMax, hBelow⟩ := reportWalk_max hGood hFirst
    refine ⟨hMax, fun item hItem => ?_⟩
    obtain ⟨read, hRead, ⟨row, hRow, rfl, -⟩, hCovers⟩ := hFoundOn item hItem
    exact hBelow read hRead row hRow hCovers
  · -- a finished walk has covered every place once
    intro hFinished createdAt runId
    obtain ⟨read, hRead, hCovers, hFound⟩ := Keyset.Reader.walk_found reportReader_keeps
      reportReader_pages events hGood ((reportWalk_ended hGood).mpr hFinished)
      (k := placeKey createdAt runId) rfl
    refine ⟨read, hRead, ?_, ?_, ?_⟩
    · rw [← hCovers]
      show reportPageCovers read createdAt runId =
        (Keyset.upTo ((nextReports read.page).map fun c => reportPositionKey c.after) _ && _)
      rw [reportWalk_next hGood hRead]
      rfl
    · rintro ⟨item, hItem, rfl, rfl⟩
      rw [hReturned] at hItem
      obtain ⟨row, hRow, rfl, hMatch⟩ := mem_pageSummaries.mp ((hFound item rfl).mp hItem)
      exact ⟨row, hRow, rfl, rfl, hMatch⟩
    · rintro ⟨row, hRow, rfl, rfl, hMatch⟩
      refine ⟨rowToSummary row, ?_, rfl, rfl⟩
      rw [hReturned]
      exact (hFound _ rfl).mpr (mem_pageSummaries.mpr ⟨row, hRow, rfl, hMatch⟩)
  · -- a run that came twice would have two places
    intro place hPlace hCreated
    have hAt : ∀ item ∈ returned, item.createdAt = place item.runId := by
      intro item hItem
      obtain ⟨read, hRead, ⟨row, hRow, rfl, -⟩, -⟩ := hFoundOn item hItem
      exact reportWalk_places hPlace hCreated hRead row hRow
    refine List.pairwise_map.mpr (hSorted.imp_of_mem fun ha hb hLt hSame => ?_)
    rw [summaryKey, summaryKey, hAt _ ha, hAt _ hb, hSame] at hLt
    exact lt_irrefl _ hLt
  · intro hWindow hLimits hOpen
    refine Keyset.Reader.walk_length reportReader_keeps events ?_ hGood
      fun hEnded => hOpen ((reportWalk_ended hGood).mp hEnded)
    intro t c limit h hIn
    obtain ⟨hPos, hLe⟩ := hLimits limit hIn
    obtain ⟨page, hPage⟩ := @reportPage_ok ⟨window, filters, limit, c⟩ ⟨hWindow, hPos, hLe⟩
      h.valid t
    show (match reportPage ⟨window, filters, limit, c⟩ t with
      | .ok page => some page
      | .error _ => none).isSome = true
    rw [hPage]
    rfl

def manualRun (runId : String) (createdAt : Int) : ReportRun where
  requestedRange := none
  runId := runId
  sourceId := "source"
  scheduleId := none
  revisionOf := some "base"
  windowStart := 0
  windowEnd := 10
  timezone := "UTC"
  localDate := "1970-01-01"
  phase := .queued
  outcome := none
  error := none
  result := none
  configSnapshot :=
    { enabled := true, localTime := none, timezone := none, outputFolder := none,
      telegramEnabled := false, telegramChatId := none }
  createdAt := createdAt
  updatedAt := createdAt

/-- A run above the greatest and one below it are created between two pages. -/
example :
    (reportWalk ⟨0, 100⟩ ⟨none, none⟩
      ([ReportOp.write (.createRun (manualRun "a" 5)), .write (.createRun (manualRun "b" 5))].foldl
        ReportOp.apply ReportTables.empty)
      [.ask 1, .write (.write (.createRun (manualRun "c" 5))),
        .write (.write (.createRun (manualRun "d" 4))), .ask 1, .ask 1, .ask 1]).map
      (fun read => read.page.items.map ReportSummary.runId) = [["b"], ["a"], ["d"]] := by
  decide +kernel

end ScreenSearch.Store
