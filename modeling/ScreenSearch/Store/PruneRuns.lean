import ScreenSearch.Store.ReportRows

/-!
# What retention deletes

`DELETE FROM report_runs` decides row by row, and a deleted row may leave its
parent childless while the statement runs. Whatever has gone so far, the tables
are the old ones without the runs in `gone` and their deliveries.

Main results:

* `prunable_iff` — the two queries are complements: a finished, old, childless run is
  prunable exactly when it is not pending;
* `Swept.pruneOne` — one visited row keeps what has gone settled and childless;
* `pruneReportRuns_retained` — no pending run and no named parent is deleted, and
  nothing else that is old and childless stays.
-/

namespace ScreenSearch.Store

/-- The tables without some runs and the deliveries of these. -/
def ReportTables.without (t : ReportTables) (gone : List String) : ReportTables where
  runs := t.runs.filter fun row => decide (row.runId ∉ gone)
  deliveries := t.deliveries.filter fun d => decide (d.runId ∉ gone)

namespace Rows

/-- Retention visits every row that its condition selects when the statement begins. -/
def Visits (t : ReportTables) (visit : List String) (before : Int) : Prop :=
  ∀ row ∈ t.runs, prunable t before row = true → row.runId ∈ visit

variable {t : ReportTables} {gone visit : List String} {before : Int} {row : RunRow}

theorem without_nil : t.without [] = t := by
  unfold ReportTables.without
  simp

theorem mem_without : row ∈ (t.without gone).runs ↔ row ∈ t.runs ∧ row.runId ∉ gone := by
  unfold ReportTables.without
  rw [List.mem_filter, decide_eq_true_eq]

/-! ## The two queries -/

/-- A run is prunable when it is finished, old and childless, and not pending. -/
theorem prunable_iff : prunable t before row = true ↔
    row.phase = .finished ∧ row.updatedAt < before ∧
      (∀ child ∈ t.runs, child.revisionOf ≠ some row.runId) ∧ pendingRow t row = false := by
  have hPhase : row.phase = .finished →
      ¬(row.phase = .queued ∨ row.phase = .running ∨ row.phase = .blocked) := by
    intro hFinished
    rw [hFinished]
    decide
  unfold prunable pendingRow
  simp only [Bool.and_eq_true, Bool.or_eq_true, Bool.or_eq_false_iff, Bool.and_eq_false_iff,
    Bool.not_eq_true', Bool.not_eq_false', decide_eq_true_eq, decide_eq_false_iff_not,
    Option.isNone_iff_eq_none, Option.isSome_eq_false_iff, List.any_eq_false, beq_iff_eq]
  constructor
  · rintro ⟨⟨⟨⟨hFinished, hOld⟩, hChildless⟩, hReceipts⟩, hUnsettled⟩
    refine ⟨hFinished, hOld, hChildless, ⟨hPhase hFinished, hUnsettled⟩, ?_⟩
    rcases hReceipts with hNone | ⟨⟨hVault, hIndex⟩, hTelegram⟩
    · exact Or.inl (Or.inr hNone)
    · exact Or.inr ⟨⟨hVault, hIndex⟩, hTelegram⟩
  · rintro ⟨hFinished, hOld, hChildless, ⟨-, hUnsettled⟩, hReceipts⟩
    refine ⟨⟨⟨⟨hFinished, hOld⟩, hChildless⟩, ?_⟩, hUnsettled⟩
    rcases hReceipts with (hNot | hNone) | ⟨⟨hVault, hIndex⟩, hTelegram⟩
    · exact absurd hFinished hNot
    · exact Or.inl hNone
    · exact Or.inr ⟨⟨hVault, hIndex⟩, hTelegram⟩

/-- A query about the deliveries of one run does not see the deliveries of others go. -/
theorem any_deliveries_without (hStays : row.runId ∉ gone) (p : DeliveryRow → Bool) :
    ((t.without gone).deliveries.any fun d => d.runId == row.runId && p d) =
      t.deliveries.any fun d => d.runId == row.runId && p d := by
  unfold ReportTables.without
  rw [List.any_filter]
  refine congrArg t.deliveries.any (funext fun d => ?_)
  by_cases hRun : d.runId = row.runId
  · simp [hRun, hStays]
  · simp [hRun]

theorem pendingRow_without (hStays : row.runId ∉ gone) :
    pendingRow (t.without gone) row = pendingRow t row := by
  unfold pendingRow receipted
  rw [any_deliveries_without hStays unsettled]
  repeat rw [any_deliveries_without hStays]

/-- Once some runs have gone, a run whose children are all among them is childless. -/
theorem prunable_without (hStays : row.runId ∉ gone) :
    prunable (t.without gone) before row = true ↔
      row.phase = .finished ∧ row.updatedAt < before ∧
        (∀ child ∈ t.runs, child.revisionOf = some row.runId → child.runId ∈ gone) ∧
        pendingRow t row = false := by
  rw [prunable_iff, pendingRow_without hStays]
  refine and_congr_right' (and_congr_right' (and_congr_left' ?_))
  constructor
  · intro h child hChild hParent
    by_contra hLeft
    exact h child (mem_without.mpr ⟨hChild, hLeft⟩) hParent
  · intro h child hChild hParent
    obtain ⟨hIn, hLeft⟩ := mem_without.mp hChild
    exact hLeft (h child hIn hParent)

/-! ## Row by row -/

/-- What has gone was not pending, and its children have gone too. -/
structure Swept (t : ReportTables) (gone : List String) : Prop where
  settled : ∀ row ∈ t.runs, row.runId ∈ gone → pendingRow t row = false
  children : ∀ parent ∈ gone, ∀ child ∈ t.runs, child.revisionOf = some parent → child.runId ∈ gone

theorem without_cons (t : ReportTables) (gone : List String) (id : String) :
    (t.without gone).runs.filter (fun other => other.runId != id) = (t.without (id :: gone)).runs ∧
      (t.without gone).deliveries.filter (fun d => d.runId != id) =
        (t.without (id :: gone)).deliveries := by
  unfold ReportTables.without
  rw [List.filter_filter, List.filter_filter]
  refine ⟨List.filter_congr fun row _ => ?_, List.filter_congr fun d _ => ?_⟩
  · simp [bne, beq_eq_decide]
  · simp [bne, beq_eq_decide]

/-- A visited run stays, or it goes with its deliveries because it is prunable now. -/
theorem pruneOne_without (before : Int) (gone : List String)
    (hIds : (t.runs.map RunRow.runId).Nodup) (id : String) :
    (pruneOne before (t.without gone) id = t.without gone ∧
        ∀ row ∈ t.runs, row.runId = id → id ∉ gone →
          prunable (t.without gone) before row = false) ∨
      (pruneOne before (t.without gone) id = t.without (id :: gone) ∧
        ∃ row ∈ t.runs, row.runId = id ∧ id ∉ gone ∧
          prunable (t.without gone) before row = true) := by
  unfold pruneOne
  split
  · rename_i row hFind
    obtain ⟨hRow, hLeft⟩ := mem_without.mp (List.mem_of_find?_eq_some hFind)
    have hId : row.runId = id := by simpa using List.find?_some hFind
    split
    · rename_i hPrunable
      obtain ⟨hRuns, hDeliveries⟩ := without_cons t gone id
      rw [hRuns, hDeliveries]
      exact Or.inr ⟨rfl, row, hRow, hId, hId ▸ hLeft, hPrunable⟩
    · rename_i hNot
      refine Or.inl ⟨rfl, ?_⟩
      intro other hOther hOtherId _
      obtain rfl := List.inj_on_of_nodup_map hIds hOther hRow (hOtherId.trans hId.symm)
      exact Bool.eq_false_iff.mpr hNot
  · rename_i hNone
    refine Or.inl ⟨rfl, ?_⟩
    intro row hRow hId hLeft
    have := List.find?_eq_none.mp hNone row (mem_without.mpr ⟨hRow, hId ▸ hLeft⟩)
    simp [hId] at this

/-- One visited row keeps what has gone settled and childless. -/
theorem Swept.pruneOne (h : Swept t gone) (before : Int)
    (hIds : (t.runs.map RunRow.runId).Nodup) (id : String) :
    ∃ gone', Rows.pruneOne before (t.without gone) id = t.without gone' ∧ Swept t gone' ∧
      gone ⊆ gone' ∧
      ∀ row ∈ t.runs, row.runId = id → prunable t before row = true → id ∈ gone' := by
  rcases pruneOne_without before gone hIds id with
    ⟨hStep, hKept⟩ | ⟨hStep, row, hRow, hId, hLeft, hPrunable⟩
  · refine ⟨gone, hStep, h, List.Subset.refl _, ?_⟩
    intro row hRow hId hPrunable
    by_contra hLeft
    obtain ⟨hFinished, hOld, hChildless, hSettled⟩ := prunable_iff.mp hPrunable
    have hNow : prunable (t.without gone) before row = true :=
      (prunable_without (hId ▸ hLeft)).mpr ⟨hFinished, hOld, fun child hChild hParent => absurd hParent (hChildless child hChild),
        hSettled⟩
    rw [hKept row hRow hId hLeft] at hNow
    exact Bool.false_ne_true hNow
  · obtain ⟨-, -, hChildren, hSettled⟩ := (prunable_without (hId ▸ hLeft)).mp hPrunable
    refine ⟨id :: gone, hStep, ⟨?_, ?_⟩, List.subset_cons_self .., fun _ _ _ _ =>
      List.mem_cons_self ..⟩
    · intro other hOther hGone
      rcases List.mem_cons.mp hGone with hSame | hGone
      · obtain rfl := List.inj_on_of_nodup_map hIds hOther hRow (hSame.trans hId.symm)
        exact hSettled
      · exact h.settled other hOther hGone
    · intro parent hParent child hChild hNames
      rcases List.mem_cons.mp hParent with rfl | hParent
      · exact List.mem_cons_of_mem _ (hChildren child hChild (hId ▸ hNames))
      · exact List.mem_cons_of_mem _ (h.children parent hParent child hChild hNames)

theorem Swept.prune (h : Swept t gone) (before : Int)
    (hIds : (t.runs.map RunRow.runId).Nodup) (visit : List String) :
    ∃ gone', visit.foldl (Rows.pruneOne before) (t.without gone) = t.without gone' ∧
      Swept t gone' ∧ gone ⊆ gone' ∧
      ∀ row ∈ t.runs, row.runId ∈ visit → prunable t before row = true → row.runId ∈ gone' := by
  induction visit generalizing gone with
  | nil => exact ⟨gone, rfl, h, List.Subset.refl _, by simp⟩
  | cons id visit ih =>
    obtain ⟨mid, hStep, hMid, hGrows, hTaken⟩ := h.pruneOne before hIds id
    obtain ⟨gone', hRest, hSwept, hGrows', hTaken'⟩ := ih hMid
    rw [List.foldl_cons, hStep]
    refine ⟨gone', hRest, hSwept, List.Subset.trans hGrows hGrows', ?_⟩
    intro row hRow hVisit hPrunable
    rcases List.mem_cons.mp hVisit with hId | hVisit
    · rw [hId]
      exact hGrows' (hTaken row hRow hId hPrunable)
    · exact hTaken' row hRow hVisit hPrunable

/-- What retention keeps and what it takes. -/
structure Retained (t t' : ReportTables) (before : Int) : Prop where
  pending : ∀ row ∈ t.runs, row ∉ t'.runs → pendingRow t row = false
  parents : ∀ survivor ∈ t'.runs, ∀ parent ∈ t.runs,
    survivor.revisionOf = some parent.runId → parent ∈ t'.runs
  complete : ∀ row ∈ t.runs, row.phase = .finished → row.updatedAt < before →
    (∀ child ∈ t.runs, child.revisionOf ≠ some row.runId) → pendingRow t row = false →
      row ∉ t'.runs

/-- Retention deletes no run that is pending and no parent of a run it leaves, and it
deletes every finished childless run older than the cutoff that is not pending. -/
theorem pruneReportRuns_retained (hIds : (t.runs.map RunRow.runId).Nodup)
    (hVisits : Visits t visit before) :
    ∃ t', pruneReportRuns visit before t = .ok ((), t') ∧ Retained t t' before := by
  have hNone : Swept t [] := ⟨by simp, by simp⟩
  obtain ⟨gone, hPrune, hSwept, -, hTaken⟩ := hNone.prune before hIds visit
  rw [without_nil] at hPrune
  refine ⟨t.without gone, by rw [← hPrune]; rfl, ?_, ?_, ?_⟩
  · intro row hRow hGone
    rw [mem_without] at hGone
    exact hSwept.settled row hRow (by_contra fun hLeft => hGone ⟨hRow, hLeft⟩)
  · intro survivor hSurvivor parent hParent hNames
    obtain ⟨hIn, hLeft⟩ := mem_without.mp hSurvivor
    exact mem_without.mpr ⟨hParent, fun hGone =>
      hLeft (hSwept.children parent.runId hGone survivor hIn hNames)⟩
  · intro row hRow hFinished hOld hChildless hSettled hLeft
    have hPrunable := prunable_iff.mpr ⟨hFinished, hOld, hChildless, hSettled⟩
    exact (mem_without.mp hLeft).2 (hTaken row hRow (hVisits row hRow hPrunable) hPrunable)

/-- A run that failed before there was a report to deliver. -/
def failedRow (runId : String) (revisionOf : Option String) : RunRow :=
  RunRow.ofRun
    { requestedRange := none, runId, sourceId := "source", scheduleId := none, revisionOf
      windowStart := 0, windowEnd := 10, timezone := "UTC", localDate := "1970-01-01"
      phase := .finished, outcome := some .failed, error := none, result := none
      configSnapshot :=
        { enabled := true, localTime := none, timezone := none, outputFolder := none
          telegramEnabled := false, telegramChatId := none }
      createdAt := 20, updatedAt := 30 }

/-- A failed run and its failed revision, both old. -/
def revisedRuns : ReportTables where
  runs := [failedRow "run" none, failedRow "revision" (some "run")]
  deliveries := []

/-- Visited child first, both of them go. -/
theorem pruneReportRuns_retained_revised :
    (∃ t', pruneReportRuns ["revision", "run"] 100 revisedRuns = .ok ((), t') ∧
      Retained revisedRuns t' 100) ∧
    pruneReportRuns ["revision", "run"] 100 revisedRuns = .ok ((), ReportTables.empty) :=
  ⟨pruneReportRuns_retained (by decide) (by unfold Visits; decide), by rfl⟩

end Rows

end ScreenSearch.Store
