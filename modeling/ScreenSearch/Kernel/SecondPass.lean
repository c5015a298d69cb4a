import ScreenSearch.Kernel.Idempotent

/-!
# When a second pass does nothing

A pass leaves a row for each of its drafts. The window of the next pass begins
with the earliest of them, and its drafts are matched with these rows. All of
this is known before the first pass runs: `nextPlan` reads it off the tables the
first pass starts in.

Main results:

* `Midway.footprints` — what a pass leaves of every draft;
* `Midway.next_plan` — the plan of the next pass;
* `second_pass_iff` — the next pass does nothing exactly when its drafts are
  matched with the rows they agree with;
* `Settled.lasts` — drafts without length are never matched;
* `settled_of_lasting` — the same drafts are, when they last and no id is reused.
-/

namespace ScreenSearch.Kernel

open Process Sorting Store Sessions

variable {segmenter : SessionSegmenter} {plan : List (SessionDraft × Option Int)}
  {start after : SchedulerDb} {done : List WrittenEntry} {nowMs : Int} {current : Settings}

/-! ## What a draft leaves in the tables -/

structure Footprint where
  session : NewSession
  frames : List Int
  exchanges : List NewSessionArtifact
  deriving DecidableEq

/-- The frames that a new row misses: they belonged to the row whose id it got. -/
def reusedBy (written : WrittenEntry) (row : FrameRow) : Bool :=
  written.1.2.isNone && row.sessionId == some written.2

/-- A draft, with the frames it gets from the tables and its exchanges. -/
def footprint (segmenter : SessionSegmenter) (db : SchedulerDb) (draft : SessionDraft)
    (lost : FrameRow → Bool) : Footprint where
  session := draft.asNewSession false
  frames := (db.tables.frames.filter fun row => decide (row.frame.id ∈ draft.frameIds) &&
    !frozenOwned db.tables row && !lost row).map fun row => row.frame.id
  exchanges := if draft.kind = .ai then wantedExchanges segmenter db draft else []

/-- A row, with what it owns. -/
def rowFootprint (db : SchedulerDb) (session : Session) : Footprint where
  session := recorded session
  frames := (db.tables.frames.filter fun row => row.sessionId == some session.id).map
    fun row => row.frame.id
  exchanges :=
    if session.kind = .ai then storedExchanges (listSessionArtifacts session.id db.tables) else []

/-- Who owns what a draft wants. -/
theorem Rows.ownerAfter_iff {db : Tables} (h : Rows start.tables plan done [] db)
    (hStart : start.tables.WellFormed) (hPlan : Plan start.tables plan)
    (hOrder : plan = done.map Prod.fst) {written : WrittenEntry} (hWritten : written ∈ done)
    (row : FrameRow) :
    ownerAfter plan start.tables done row = some written.2 ↔
      row.frame.id ∈ written.1.1.frameIds ∧ frozenOwned start.tables row = false ∧
        reusedBy written row = false := by
  have hReused : reusedBy written row = false ↔
      ¬ (written.1.2 = none ∧ row.sessionId = some written.2) := by
    rw [← Bool.not_eq_true, reusedBy, Bool.and_eq_true, Option.isNone_iff_eq_none, beq_iff_eq]
  rw [hReused]
  constructor
  · intro hOwner
    cases hFrozen : frozenOwned start.tables row with
    | true =>
      obtain ⟨session, hMem, hSession, hSessionFrozen⟩ := frozenOwned_session hFrozen
      rw [ownerAfter_frozen hPlan hOrder hFrozen, hSession] at hOwner
      exact absurd (Option.some.inj hOwner).symm
        (h.written_ne_frozen hStart hPlan hOrder hMem hSessionFrozen written hWritten)
    | false =>
      obtain ⟨other, hOther, hid, hin⟩ := ownerAfter_mutable hPlan hOrder hFrozen hOwner
      obtain rfl := List.inj_on_of_nodup_map h.distinct hOther hWritten hid
      refine ⟨hin, rfl, fun hReuse => ?_⟩
      rw [ownerAfter_written hPlan hOrder hWritten hin, hFrozen, if_neg Bool.false_ne_true,
        if_pos hReuse] at hOwner
      cases hOwner
  · rintro ⟨hWanted, hMutable, hKept⟩
    rw [ownerAfter_written hPlan hOrder hWritten hWanted, hMutable, if_neg Bool.false_ne_true,
      if_neg hKept]

theorem Midway.frame_table (h : Midway segmenter start plan done [] after) :
    after.tables.frames.map FrameRow.frame = start.tables.frames.map FrameRow.frame := by
  rw [h.owners]
  exact withOwners_frame ..

/-- The row of an entry, with the footprint of its draft. -/
theorem Midway.rowFootprint_eq (h : Midway segmenter start plan done [] after)
    (hStart : start.tables.WellFormed) (hPlan : Plan start.tables plan)
    (hOrder : plan = done.map Prod.fst) {written : WrittenEntry} (hWritten : written ∈ done)
    {session : Session} (hid : session.id = written.2)
    (hRecorded : recorded session = written.1.1.asNewSession false) :
    rowFootprint after session = footprint segmenter start written.1.1 (reusedBy written) := by
  have hKind : session.kind = written.1.1.kind := congrArg NewSession.kind hRecorded
  have hFrames : (after.tables.frames.filter fun row => row.sessionId == some session.id).map
        (fun row => row.frame.id) =
      (start.tables.frames.filter fun row => decide (row.frame.id ∈ written.1.1.frameIds) &&
        !frozenOwned start.tables row && !reusedBy written row).map fun row => row.frame.id := by
    rw [h.owners, withOwners, List.filter_map, List.map_map]
    refine congrArg₂ _ rfl (List.filter_congr fun row _ => ?_)
    rw [Bool.eq_iff_iff, Function.comp_apply, hid, beq_iff_eq,
      h.rows.ownerAfter_iff hStart hPlan hOrder hWritten]
    simp [and_assoc]
  rw [rowFootprint, footprint, hRecorded, hFrames, hKind]
  congr 1
  split
  · next hAi => rw [hid, h.exchanges written hWritten hAi]
  · rfl

/-- **What a pass leaves.** The unfrozen rows have the footprints of the drafts. -/
theorem Midway.footprints (h : Midway segmenter start plan done [] after)
    (hStart : start.tables.WellFormed) (hPlan : Plan start.tables plan)
    (hOrder : plan = done.map Prod.fst) :
    ((after.tables.sessions.filter fun session => !session.frozen).map fun session =>
      (session.id, rowFootprint after session)).Perm
      (done.map fun written =>
        (written.2, footprint segmenter start written.1.1 (reusedBy written))) := by
  have hRows := h.rows.perm hStart hPlan hOrder
  refine (List.perm_ext_iff_of_nodup ?_ ?_).mpr ?_
  · refine List.Nodup.of_map Prod.fst ?_
    rw [List.map_map]
    exact h.rows.keys.sublist (List.filter_sublist.map _)
  · refine List.Nodup.of_map Prod.fst ?_
    rw [List.map_map]
    exact h.rows.distinct
  · intro entry
    constructor
    · intro hEntry
      obtain ⟨session, hMem, rfl⟩ := List.mem_map.mp hEntry
      obtain ⟨written, hWritten, heq⟩ := List.mem_map.mp
        (hRows.mem_iff.mp (List.mem_map_of_mem (f := fun row => (row.id, recorded row)) hMem))
      obtain ⟨hid, hRecorded⟩ := Prod.mk.inj heq
      refine List.mem_map.mpr ⟨written, hWritten, ?_⟩
      rw [h.rowFootprint_eq hStart hPlan hOrder hWritten hid.symm hRecorded.symm, hid]
    · intro hEntry
      obtain ⟨written, hWritten, rfl⟩ := List.mem_map.mp hEntry
      obtain ⟨session, hMem, heq⟩ := List.mem_map.mp (hRows.mem_iff.mpr
        (List.mem_map_of_mem (f := fun entry => (entry.2, entry.1.1.asNewSession false)) hWritten))
      obtain ⟨hid, hRecorded⟩ := Prod.mk.inj heq
      refine List.mem_map.mpr ⟨session, hMem, ?_⟩
      rw [h.rowFootprint_eq hStart hPlan hOrder hWritten hid hRecorded, hid]

/-! ## Matching reads little of a row -/

/-- The id, the start and the overlap of a row the draft may take. -/
def candidate (draft : SessionDraft) (used : List Int) (nowMs : Int)
    (entry : Int × NewSession) : Option (Int × Int × Int) :=
  if !entry.2.frozen && entry.2.contextKey == draft.contextKey && decide (entry.1 ∉ used) then
    let overlap := min draft.endedAt (entry.2.endedAt.getD nowMs) -
      max draft.startedAt entry.2.startedAt
    if 0 < overlap then some (entry.1, entry.2.startedAt, overlap) else none
  else none

theorem candidate_id {draft : SessionDraft} {used : List Int} {entry : Int × NewSession}
    {found : Int × Int × Int} (h : candidate draft used nowMs entry = some found) :
    found.1 = entry.1 := by
  unfold candidate at h
  dsimp only at h
  split at h
  · split at h
    · cases h
      rfl
    · cases h
  · cases h

theorem bestMatch_eq (draft : SessionDraft) (existing : List Session) (used : List Int)
    (nowMs : Int) :
    bestMatch draft existing used nowMs =
      (maxByKey (fun found : Int × Int × Int =>
        toLex (found.2.2, toLex (OrderDual.toDual |draft.startedAt - found.2.1|,
          OrderDual.toDual found.1)))
        ((existing.map fun session => (session.id, recorded session)).filterMap
          (candidate draft used nowMs))).map Prod.fst := by
  have hFound : (existing.map fun session => (session.id, recorded session)).filterMap
        (candidate draft used nowMs) =
      ((existing.filter fun session => !session.frozen && session.contextKey == draft.contextKey &&
          decide (session.id ∉ used)).filterMap fun session =>
            (overlapMs draft session nowMs).map fun overlap => (session, overlap)).map
        fun entry : Session × Int => (entry.1.id, entry.1.startedAt, entry.2) := by
    rw [List.filterMap_map, List.filterMap_filter, List.map_filterMap]
    refine List.filterMap_congr fun session _ => ?_
    have hCandidate : candidate draft used nowMs (session.id, recorded session) =
        if !session.frozen && session.contextKey == draft.contextKey &&
            decide (session.id ∉ used) then
          (overlapMs draft session nowMs).map fun overlap => (session.id, session.startedAt, overlap)
        else none := by
      rw [candidate, overlapMs]
      refine if_congr Iff.rfl ?_ rfl
      rw [apply_ite (Option.map fun overlap => (session.id, session.startedAt, overlap))]
      rfl
    rw [Function.comp_apply, hCandidate]
    split
    · rw [Option.map_map]
      rfl
    · rfl
  rw [hFound, maxByKey_map, Option.map_map]
  rfl

/-- A match depends on the recorded rows, not on their order. -/
theorem bestMatch_congr {existing existing' : List Session}
    (h : (existing.map fun session => (session.id, recorded session)).Perm
      (existing'.map fun session => (session.id, recorded session)))
    (hIds : (existing.map Session.id).Nodup) (draft : SessionDraft) (used : List Int)
    (nowMs : Int) :
    bestMatch draft existing used nowMs = bestMatch draft existing' used nowMs := by
  rw [bestMatch_eq, bestMatch_eq, maxByKey_eq_of_perm _ (h.filterMap _)]
  intro a ha b hb hKey
  obtain ⟨rowA, hRowA, hA⟩ := List.mem_filterMap.mp ha
  obtain ⟨rowB, hRowB, hB⟩ := List.mem_filterMap.mp hb
  have hId : a.1 = b.1 := by
    have hPair := congrArg (fun key => (ofLex key).2) hKey
    exact OrderDual.toDual_inj.mp (congrArg (fun key => (ofLex key).2) hPair)
  have hSame : rowA = rowB := by
    have hNodup : ((existing.map fun session => (session.id, recorded session)).map
        Prod.fst).Nodup := by rwa [List.map_map]
    exact List.inj_on_of_nodup_map hNodup hRowA hRowB
      ((candidate_id hA).symm.trans (hId.trans (candidate_id hB)))
  subst hSame
  exact Option.some.inj (hA.symm.trans hB)

theorem matchDraftsToExisting_congr {existing existing' : List Session}
    (h : (existing.map fun session => (session.id, recorded session)).Perm
      (existing'.map fun session => (session.id, recorded session)))
    (hIds : (existing.map Session.id).Nodup) (drafts : List SessionDraft) (nowMs : Int) :
    matchDraftsToExisting drafts existing nowMs = matchDraftsToExisting drafts existing' nowMs := by
  unfold matchDraftsToExisting
  generalize ([] : List Int) = used
  induction drafts generalizing used with
  | nil => rfl
  | cons draft drafts ih =>
    rw [matchUnused, matchUnused, bestMatch_congr h hIds, ih]

theorem windowStart_congr {existing existing' : List Session}
    (h : (existing.map fun session => (session.id, recorded session)).Perm
      (existing'.map fun session => (session.id, recorded session))) (mutableTail : Int) :
    windowStart existing mutableTail = windowStart existing' mutableTail := by
  have hStarts := h.map fun entry => entry.2.startedAt
  rw [List.map_map, List.map_map] at hStarts
  have hMin : (existing.map Session.startedAt).min? = (existing'.map Session.startedAt).min? := by
    refine Option.ext fun earliest => ?_
    have hMem : ∀ t, t ∈ existing.map Session.startedAt ↔ t ∈ existing'.map Session.startedAt :=
      fun t => hStarts.mem_iff
    rw [List.min?_eq_some_iff, List.min?_eq_some_iff]
    simp only [hMem]
  rw [windowStart, windowStart, hMin]

/-! ## The next plan -/

/-- The trimmed drafts of the window that begins at `fromMs`. -/
def draftsFrom (segmenter : SessionSegmenter) (nowMs : Int) (current : Settings) (fromMs : Int)
    (db : Tables) : List SessionDraft :=
  trimDraftsAgainstFrozen
    (segmenter.segment (framesMetaInRange fromMs (nowMs + 1) db) (paramsFromSettings nowMs current))
    ((sessionsInRange (liveFilter fromMs nowMs) db).filter Session.frozen)
    (framesMetaInRange fromMs (nowMs + 1) db)

/-- The row of a written draft, as far as it can be told beforehand. -/
def rowOf (written : WrittenEntry) : Session :=
  let new := written.1.1.asNewSession false
  { id := written.2
    startedAt := new.startedAt
    endedAt := new.endedAt
    kind := new.kind
    tool := new.tool
    host := new.host
    contextKey := new.contextKey
    title := none
    summary := none
    summaryModel := none
    confidence := new.confidence
    frozen := new.frozen
    createdAt := 0
    updatedAt := 0 }

/-- The rows after a pass. -/
def nextRows (segmenter : SessionSegmenter) (nowMs : Int) (current : Settings) (db : Tables) :
    List Session :=
  (writtenPlan (livePlan segmenter nowMs current db) db).map rowOf

/-- What the next pass proposes. -/
def nextDrafts (segmenter : SessionSegmenter) (nowMs : Int) (current : Settings) (db : Tables) :
    List SessionDraft :=
  draftsFrom segmenter nowMs current
    (windowStart (nextRows segmenter nowMs current db)
      (nowMs - (paramsFromSettings nowMs current).freezeLookbackMs)) db

def nextPlan (segmenter : SessionSegmenter) (nowMs : Int) (current : Settings) (db : Tables) :
    List (SessionDraft × Option Int) :=
  (nextDrafts segmenter nowMs current db).zip
    (matchDraftsToExisting (nextDrafts segmenter nowMs current db)
      (nextRows segmenter nowMs current db) nowMs)

theorem framesMetaInRange_congr {db db' : Tables}
    (h : db'.frames.map FrameRow.frame = db.frames.map FrameRow.frame) (fromMs toMs : Int) :
    framesMetaInRange fromMs toMs db' = framesMetaInRange fromMs toMs db := by
  rw [framesMetaInRange, framesMetaInRange, h]

/-- A pass leaves the frozen rows of every range. -/
theorem Midway.frozen_range (h : Midway segmenter start plan done [] after)
    (hStart : start.tables.WellFormed) (hPlan : Plan start.tables plan)
    (hOrder : plan = done.map Prod.fst) (fromMs nowMs : Int) :
    (sessionsInRange (liveFilter fromMs nowMs) after.tables).filter Session.frozen =
      (sessionsInRange (liveFilter fromMs nowMs) start.tables).filter Session.frozen := by
  have hSame : ∀ session, (session ∈ after.tables.sessions ∧ session.frozen = true) ↔
      (session ∈ start.tables.sessions ∧ session.frozen = true) := by
    intro session
    constructor
    · rintro ⟨hMem, hFrozen⟩
      rcases h.rows.rows session hMem with ⟨-, hin⟩ | ⟨written, -, -, hRecorded⟩ | ⟨hMutable, -⟩
      · exact ⟨hin, hFrozen⟩
      · have := congrArg NewSession.frozen hRecorded
        rw [show (recorded session).frozen = session.frozen from rfl, hFrozen] at this
        cases this
      · rw [hFrozen] at hMutable
        cases hMutable
    · rintro ⟨hMem, hFrozen⟩
      obtain ⟨row, hRow, hid⟩ := h.rows.frozen_present hMem hFrozen
      have hRowFrozen := h.rows.frozen_row hStart hPlan (by rw [hOrder, List.append_nil]) hMem
        hFrozen row hRow hid
      rcases h.rows.rows row hRow with ⟨-, hin⟩ | ⟨written, -, -, hRecorded⟩ | ⟨hMutable, -⟩
      · obtain rfl := hStart.session_unique hin hMem hid
        exact ⟨hRow, hFrozen⟩
      · have := congrArg NewSession.frozen hRecorded
        rw [show (recorded row).frozen = row.frozen from rfl, hRowFrozen] at this
        cases this
      · rw [hRowFrozen] at hMutable
        cases hMutable
  unfold sessionsInRange
  dsimp only [liveFilter]
  rw [← sortByKey_filter, ← sortByKey_filter]
  refine sortByKey_eq_of_perm _ ?_ ?_
  · refine (List.perm_ext_iff_of_nodup ?_ ?_).mpr fun session => ?_
    · exact (h.rows.keys.of_map Session.id).sublist
        (List.filter_sublist.trans List.filter_sublist)
    · exact (hStart.sessionIds.of_map Session.id).sublist
        (List.filter_sublist.trans List.filter_sublist)
    · simp only [List.mem_filter]
      have := hSame session
      tauto
  · intro a ha b hb hKey
    refine List.inj_on_of_nodup_map h.rows.keys (List.mem_filter.mp (List.mem_filter.mp ha).1).1
      (List.mem_filter.mp (List.mem_filter.mp hb).1).1 ?_
    exact OrderDual.toDual_inj.mp (congrArg (fun key => (ofLex key).2) hKey)

theorem Midway.unfrozen_rows (h : Midway segmenter start plan done [] after)
    (hStart : start.tables.WellFormed) (hPlan : Plan start.tables plan)
    (hOrder : plan = done.map Prod.fst) :
    ((unfrozenSessions after.tables).map fun session => (session.id, recorded session)).Perm
      ((done.map rowOf).map fun session => (session.id, recorded session)) := by
  refine ((sortByKey_perm _ _).map _).trans ((h.rows.perm hStart hPlan hOrder).trans ?_)
  rw [List.map_map]
  exact List.Perm.refl _

theorem unfrozenSessions_nodup {db : Tables} (h : db.WellFormed) :
    ((unfrozenSessions db).map Session.id).Nodup := by
  refine ((sortByKey_perm _ _).map Session.id).nodup_iff.mpr ?_
  exact h.sessionIds.sublist (List.filter_sublist.map _)

/-- **The plan of the next pass**, from the tables the first one starts in. -/
theorem Midway.next_plan
    (h : Midway segmenter start (livePlan segmenter nowMs current start.tables)
      (writtenPlan (livePlan segmenter nowMs current start.tables) start.tables) [] after)
    (hStart : start.tables.WellFormed) :
    livePlan segmenter nowMs current after.tables =
      nextPlan segmenter nowMs current start.tables := by
  have hPlan := livePlan_plan segmenter nowMs current hStart
  have hOrder := (writtenPlan_fst (livePlan segmenter nowMs current start.tables)
    start.tables).symm
  have hRows := h.unfrozen_rows hStart hPlan hOrder
  have hIds := unfrozenSessions_nodup (h.wellFormed hStart hPlan hOrder)
  have hWindow : liveStart nowMs current after.tables =
      windowStart (nextRows segmenter nowMs current start.tables)
        (nowMs - (paramsFromSettings nowMs current).freezeLookbackMs) :=
    windowStart_congr hRows _
  have hDrafts : liveDrafts segmenter nowMs current after.tables =
      nextDrafts segmenter nowMs current start.tables := by
    rw [liveDrafts, liveFrames, hWindow, framesMetaInRange_congr h.frame_table,
      h.frozen_range hStart hPlan hOrder]
    rfl
  rw [livePlan, hDrafts, matchDraftsToExisting_congr hRows hIds]
  rfl

/-! ## The next pass -/

/-- The drafts of the next pass are matched with the rows of this one, one for one
and with the footprints these have left. -/
def Settled (segmenter : SessionSegmenter) (nowMs : Int) (current : Settings)
    (start : SchedulerDb) : Prop :=
  ((nextPlan segmenter nowMs current start.tables).map fun entry =>
      (entry.2, footprint segmenter start entry.1 fun _ => false)).Perm
    ((writtenPlan (livePlan segmenter nowMs current start.tables) start.tables).map fun written =>
      (some written.2, footprint segmenter start written.1.1 (reusedBy written)))

instance (segmenter : SessionSegmenter) (nowMs : Int) (current : Settings)
    (start : SchedulerDb) : Decidable (Settled segmenter nowMs current start) :=
  inferInstanceAs (Decidable (List.Perm _ _))

/-- A pass does not change what a draft would get. -/
theorem Midway.footprint_after (h : Midway segmenter start plan done [] after)
    (hStart : start.tables.WellFormed) (hPlan : Plan start.tables plan)
    (hOrder : plan = done.map Prod.fst) (draft : SessionDraft) :
    footprint segmenter after draft (fun _ => false) =
      footprint segmenter start draft fun _ => false := by
  have hFrames : (after.tables.frames.filter fun row => decide (row.frame.id ∈ draft.frameIds) &&
        !frozenOwned after.tables row && !false).map (fun row => row.frame.id) =
      (start.tables.frames.filter fun row => decide (row.frame.id ∈ draft.frameIds) &&
        !frozenOwned start.tables row && !false).map fun row => row.frame.id := by
    rw [h.owners, withOwners, List.filter_map, List.map_map]
    refine congrArg₂ _ rfl (List.filter_congr fun row _ => ?_)
    rw [Function.comp_apply, frozenOwned_after h.rows hStart hPlan hOrder]
  rw [footprint, footprint, hFrames, wantedExchanges_congr h.frame_table h.text]

theorem NoOp.settled {again : Surroundings} {after : Proc SchedulerDb KernelEvent}
    (hFirst : Midway segmenter start (livePlan segmenter nowMs current start.tables)
      (writtenPlan (livePlan segmenter nowMs current start.tables) start.tables) [] after.store)
    (hStart : start.tables.WellFormed) (h : NoOp again segmenter nowMs current after) :
    Settled segmenter nowMs current start := by
  have hPlan := livePlan_plan segmenter nowMs current hStart
  have hOrder := (writtenPlan_fst (livePlan segmenter nowMs current start.tables)
    start.tables).symm
  have hKeys := hFirst.wellFormed hStart hPlan hOrder
  have hSecond := (runIncrementalPass_leaves again segmenter nowMs current hKeys).ok rfl h.unchanged
  have hMatched := h.matched
  have hPlan' := livePlan_plan segmenter nowMs current hKeys
  rw [hFirst.next_plan hStart] at hSecond hMatched hPlan'
  have hOrder' := (writtenPlan_fst (nextPlan segmenter nowMs current start.tables)
    after.store.tables).symm
  generalize hDone : writtenPlan (nextPlan segmenter nowMs current start.tables)
    after.store.tables = done' at hSecond hOrder'
  have hLeft := hSecond.footprints hKeys hPlan' hOrder'
  -- both passes leave the same rows
  have hRows : ∀ session, rowFootprint (runIncrementalPass again segmenter nowMs current
      after).2.store session = rowFootprint after.store session := by
    intro session
    rw [rowFootprint, rowFootprint, h.tables]
  simp only [hRows, h.tables] at hLeft
  have hNext : (nextPlan segmenter nowMs current start.tables).map (fun entry =>
        (entry.2, footprint segmenter start entry.1 fun _ => false)) =
      (done'.map fun written => (written.2, footprint segmenter after.store written.1.1
        (reusedBy written))).map fun entry => (some entry.1, entry.2) := by
    rw [hOrder', List.map_map, List.map_map]
    refine List.map_congr_left fun written hWritten => ?_
    obtain ⟨id, hid⟩ := Option.ne_none_iff_exists'.mp
      (hMatched written.1 (hOrder' ▸ List.mem_map_of_mem hWritten))
    have hLost : reusedBy written = fun _ => false := by
      funext row
      rw [reusedBy, hid, Option.isNone_some, Bool.false_and]
    rw [Function.comp_apply, Function.comp_apply, hLost,
      hFirst.footprint_after hStart hPlan hOrder, hid, hSecond.rows.matched written hWritten id hid]
  rw [Settled, hNext]
  have hBoth := (hLeft.symm.trans (hFirst.footprints hStart hPlan hOrder)).map
    fun entry : Int × Footprint => (some entry.1, entry.2)
  rwa [List.map_map (l := writtenPlan _ _)] at hBoth

/-- Equal footprints select the same rows. -/
theorem selected_iff {rows : List FrameRow} {p q : FrameRow → Bool}
    (hIds : (rows.map fun row => row.frame.id).Nodup)
    (h : (rows.filter p).map (fun row => row.frame.id) =
      (rows.filter q).map fun row => row.frame.id)
    {row : FrameRow} (hRow : row ∈ rows) : p row = true ↔ q row = true := by
  have hSelect : ∀ {r : FrameRow → Bool}, r row = true ↔
      row.frame.id ∈ (rows.filter r).map fun row => row.frame.id := by
    intro r
    refine ⟨fun hr => List.mem_map_of_mem (List.mem_filter.mpr ⟨hRow, hr⟩), fun hin => ?_⟩
    obtain ⟨other, hOther, hid⟩ := List.mem_map.mp hin
    obtain ⟨hMem, hr⟩ := List.mem_filter.mp hOther
    rwa [List.inj_on_of_nodup_map hIds hMem hRow hid] at hr
  rw [hSelect, hSelect, h]

/-- A row that was written with the footprint of a draft need not be written again. -/
theorem Midway.current_row (h : Midway segmenter start plan done [] after)
    (hStart : start.tables.WellFormed) (hPlan : Plan start.tables plan)
    (hOrder : plan = done.map Prod.fst) {written : WrittenEntry} (hWritten : written ∈ done)
    {draft : SessionDraft} (hNodup : draft.frameIds.Nodup)
    (hSame : footprint segmenter start draft (fun _ => false) =
      footprint segmenter start written.1.1 (reusedBy written)) :
    Current segmenter after draft written.2 := by
  have hRecorded : draft.asNewSession false = written.1.1.asNewSession false :=
    congrArg Footprint.session hSame
  have hFrames := congrArg Footprint.frames hSame
  obtain ⟨row, hRow, hid⟩ := h.rows.written_present hPlan hOrder hWritten
  have hRec := h.rows.written_row hStart hPlan hOrder hWritten hRow hid
  refine ⟨⟨row, hRow, hid, congrArg NewSession.frozen hRec, hRec.trans hRecorded.symm⟩, hNodup,
    ?_, ?_⟩
  · intro row' hRow' hWanted
    rw [h.owners] at hRow'
    obtain ⟨frame, hFrame, rfl⟩ := List.mem_map.mp hRow'
    rw [frozenOwned_after h.rows hStart hPlan hOrder]
    cases hFrozen : frozenOwned start.tables frame with
    | true => exact .inr rfl
    | false =>
      left
      have hBoth := (selected_iff hStart.frameIds hFrames hFrame).mp
        (by simpa [hFrozen] using hWanted)
      simp only [Bool.and_eq_true, Bool.not_eq_true', decide_eq_true_eq] at hBoth
      exact (h.rows.ownerAfter_iff hStart hPlan hOrder hWritten frame).mpr
        ⟨hBoth.1.1, hFrozen, hBoth.2⟩
  · intro hAi
    have hKind : written.1.1.kind = .ai := (congrArg NewSession.kind hRecorded).symm.trans hAi
    have hExchanges := congrArg Footprint.exchanges hSame
    dsimp only [footprint] at hExchanges
    rw [if_pos hAi, if_pos hKind] at hExchanges
    rw [h.exchanges written hWritten hKind, ← hExchanges,
      wantedExchanges_congr h.frame_table h.text]

theorem Settled.noOp {again : Surroundings} {after : Proc SchedulerDb KernelEvent}
    (hFirst : Midway segmenter start (livePlan segmenter nowMs current start.tables)
      (writtenPlan (livePlan segmenter nowMs current start.tables) start.tables) [] after.store)
    (hStart : start.tables.WellFormed) (hCalm : ∀ n, again.fails n = false)
    (h : Settled segmenter nowMs current start) : NoOp again segmenter nowMs current after := by
  have hPlan := livePlan_plan segmenter nowMs current hStart
  have hOrder := (writtenPlan_fst (livePlan segmenter nowMs current start.tables)
    start.tables).symm
  have hKeys := hFirst.wellFormed hStart hPlan hOrder
  have hPlan' := livePlan_plan segmenter nowMs current hKeys
  have hNext := hFirst.next_plan hStart
  rw [hNext] at hPlan'
  -- the two plans agree entry for entry, up to their order
  have hEntry : ∀ entry ∈ nextPlan segmenter nowMs current start.tables,
      ∃ written ∈ writtenPlan (livePlan segmenter nowMs current start.tables) start.tables,
        entry.2 = some written.2 ∧ footprint segmenter start entry.1 (fun _ => false) =
          footprint segmenter start written.1.1 (reusedBy written) := by
    intro entry hEntry
    obtain ⟨written, hWritten, heq⟩ := List.mem_map.mp
      (h.mem_iff.mp (List.mem_map_of_mem (f := fun entry =>
        (entry.2, footprint segmenter start entry.1 fun _ => false)) hEntry))
    obtain ⟨hid, hSame⟩ := Prod.mk.inj heq
    exact ⟨written, hWritten, hid.symm, hSame.symm⟩
  have hWritten : ∀ written ∈ writtenPlan (livePlan segmenter nowMs current start.tables)
      start.tables, ∃ entry ∈ nextPlan segmenter nowMs current start.tables,
        entry.2 = some written.2 ∧ footprint segmenter start entry.1 (fun _ => false) =
          footprint segmenter start written.1.1 (reusedBy written) := by
    intro written hWritten
    obtain ⟨entry, hEntry, heq⟩ := List.mem_map.mp
      (h.mem_iff.mpr (List.mem_map_of_mem (f := fun written : WrittenEntry => (some written.2,
        footprint segmenter start written.1.1 (reusedBy written))) hWritten))
    obtain ⟨hid, hSame⟩ := Prod.mk.inj heq
    exact ⟨entry, hEntry, hid, hSame⟩
  -- so the next plan matches each draft with the row written for it
  have hMatched : livePlan segmenter nowMs current after.store.tables =
      ((nextPlan segmenter nowMs current start.tables).map fun entry =>
        (entry.1, entry.2.getD 0)).map fun pair => (pair.1, some pair.2) := by
    rw [hNext, List.map_map]
    refine (List.map_id _).symm.trans (List.map_congr_left fun entry hIn => ?_)
    obtain ⟨written, -, hid, -⟩ := hEntry entry hIn
    rw [Function.comp_apply, hid, Option.getD_some, ← hid]
    rfl
  refine NoOp.of_idle (runIncrementalPass_idle hCalm hKeys hMatched ?_ ?_)
  · -- no row of the window is without a draft
    intro session hMem hMutable
    obtain ⟨written, hIn, heq⟩ := List.mem_map.mp
      ((hFirst.footprints hStart hPlan hOrder).mem_iff.mp (List.mem_map.mpr
        ⟨session, List.mem_filter.mpr ⟨hMem, by rw [hMutable]; rfl⟩, rfl⟩))
    obtain ⟨hid, -⟩ := Prod.mk.inj heq
    obtain ⟨entry, hEntryIn, hMatch, hSame⟩ := hWritten written hIn
    refine ⟨_, List.mem_map_of_mem hEntryIn, by rw [hMatch, Option.getD_some, hid], ?_⟩
    intro row' hRow' hOwner
    rw [hFirst.owners] at hRow'
    obtain ⟨frame, hFrame, rfl⟩ := List.mem_map.mp hRow'
    dsimp only at hOwner
    rw [← hid, hFirst.rows.ownerAfter_iff hStart hPlan hOrder hIn] at hOwner
    have hBoth := (selected_iff hStart.frameIds (congrArg Footprint.frames hSame) hFrame).mpr
      (by simp [hOwner])
    simp only [Bool.and_eq_true, decide_eq_true_eq] at hBoth
    exact hBoth.1.1
  · -- and no row differs from its draft
    intro pair hPair
    obtain ⟨entry, hIn, rfl⟩ := List.mem_map.mp hPair
    obtain ⟨written, hInWritten, hid, hSame⟩ := hEntry entry hIn
    rw [hid, Option.getD_some]
    refine hFirst.current_row hStart hPlan hOrder hInWritten ?_ hSame
    exact (List.nodup_flatMap.mp hPlan'.once).1 entry.1 (List.mem_map_of_mem hIn)

/-- Drafts that are settled have a length: an instant overlaps nothing. -/
theorem Settled.lasts (h : Settled segmenter nowMs current start) :
    ∀ draft ∈ nextDrafts segmenter nowMs current start.tables, draft.startedAt < draft.endedAt := by
  intro draft hDraft
  by_contra hInstant
  have hFst : (nextPlan segmenter nowMs current start.tables).map Prod.fst =
      nextDrafts segmenter nowMs current start.tables :=
    List.map_fst_zip (matchUnused_length ..).ge
  rw [← hFst] at hDraft
  obtain ⟨entry, hEntry, rfl⟩ := List.mem_map.mp hDraft
  have hNone : entry.2 = none := matchUnused_instant hEntry (not_lt.mp hInstant)
  obtain ⟨written, -, heq⟩ := List.mem_map.mp
    (h.mem_iff.mp (List.mem_map_of_mem (f := fun entry =>
      (entry.2, footprint segmenter start entry.1 fun _ => false)) hEntry))
  have hid := congrArg Prod.fst heq
  rw [hNone] at hid
  cases hid

/-- Drafts that last, none of one key starting with another, are settled as soon as
the next window proposes them again and no id was reused. -/
theorem Midway.settled_of_lasting
    (h : Midway segmenter start (livePlan segmenter nowMs current start.tables)
      (writtenPlan (livePlan segmenter nowMs current start.tables) start.tables) [] after)
    (hSame : nextDrafts segmenter nowMs current start.tables =
      liveDrafts segmenter nowMs current start.tables)
    (hPast : ∀ draft ∈ liveDrafts segmenter nowMs current start.tables, draft.endedAt ≤ nowMs)
    (hLasts : ∀ draft ∈ liveDrafts segmenter nowMs current start.tables,
      draft.startedAt < draft.endedAt)
    (hStarts : (liveDrafts segmenter nowMs current start.tables).Pairwise fun a b =>
      a.contextKey = b.contextKey → a.startedAt ≠ b.startedAt)
    (hNoReuse : NoReuse (livePlan segmenter nowMs current start.tables) start.tables) :
    Settled segmenter nowMs current start := by
  have hDrafts := writtenPlan_drafts (livePlan segmenter nowMs current start.tables) start.tables
  rw [livePlan_drafts] at hDrafts
  have hDistinct := h.rows.distinct
  unfold NoReuse at hNoReuse
  unfold Settled nextPlan nextRows
  rw [hSame]
  generalize writtenPlan (livePlan segmenter nowMs current start.tables) start.tables = done
    at hDrafts hDistinct hNoReuse ⊢
  rw [← hDrafts] at hPast hLasts hStarts ⊢
  rw [List.pairwise_map] at hStarts
  rw [List.forall_mem_map] at hPast hLasts
  -- every draft is matched with its own row
  have hOwn : matchUnused (done.map rowOf) nowMs []
      ((done.map fun written => (written.1.1, written.2)).map Prod.fst) =
      (done.map fun written => (written.1.1, written.2)).map fun pair => some pair.2 := by
    refine matchUnused_own ?_ ?_ ?_ ?_ ?_ (by simp)
    · intro pair hPair
      obtain ⟨written, hWritten, rfl⟩ := List.mem_map.mp hPair
      exact ⟨rowOf written, List.mem_map_of_mem hWritten, rfl, rfl⟩
    · exact List.forall_mem_map.mpr hPast
    · exact List.forall_mem_map.mpr hLasts
    · intro a ha b hb hKey hStart
      obtain ⟨written, hWritten, rfl⟩ := List.mem_map.mp ha
      obtain ⟨other, hOther, rfl⟩ := List.mem_map.mp hb
      rw [eq_of_pairwise hStarts hWritten hOther (fun h => h hKey hStart)
        (fun h => h hKey.symm hStart.symm)]
    · rwa [List.map_map]
  rw [List.map_map, List.map_map] at hOwn
  have hNext : (done.map fun written => written.1.1).zip
      (matchDraftsToExisting (done.map fun written => written.1.1) (done.map rowOf) nowMs) =
      done.map fun written => (written.1.1, some written.2) := by
    rw [matchDraftsToExisting]
    exact (congrArg _ hOwn).trans (List.zip_map' ..)
  rw [hNext, List.map_map]
  refine List.Perm.of_eq (List.map_congr_left fun written hWritten => ?_)
  have hFrames : (start.tables.frames.filter fun row =>
        decide (row.frame.id ∈ written.1.1.frameIds) && !frozenOwned start.tables row && !false) =
      start.tables.frames.filter fun row => decide (row.frame.id ∈ written.1.1.frameIds) &&
        !frozenOwned start.tables row && !reusedBy written row := by
    refine List.filter_congr fun row hRow => ?_
    cases hReused : reusedBy written row with
    | false => rfl
    | true =>
      rw [reusedBy, Bool.and_eq_true, Option.isNone_iff_eq_none, beq_iff_eq] at hReused
      have hUnwanted : row.frame.id ∉ written.1.1.frameIds :=
        fun hin => hNoReuse written hWritten hReused.1 row hRow hin hReused.2
      rw [decide_eq_false hUnwanted, Bool.false_and, Bool.false_and, Bool.false_and]
  rw [Function.comp_apply, footprint, footprint, hFrames]

/-! ## A frame behind a frozen session -/

/-- A frozen session of ten minutes, and one later frame of its app. -/
def lateFrame : SchedulerDb where
  tables :=
    { frames := seen 1 "vim" (some 1) [0, 1, 2, 3, 4, 5, 6, 7, 8, 9, 10] ++ seen 12 "vim" none [19]
      sessions := [{ focusRow "focus:vim" with endedAt := some 600000, frozen := true }]
      artifacts := [] }
  frameText := []
  backfillMarker := none

def fifteenMinutes : Settings where
  sessionsMinLenSecs := 300
  sessionsGapCloseSecs := 900

end ScreenSearch.Kernel
