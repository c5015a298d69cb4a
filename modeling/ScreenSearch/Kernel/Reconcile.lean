import ScreenSearch.Kernel.Release

/-!
# What a pass leaves behind

The third loop writes one draft after the other. `Rows` and `ownerAfter` say what
the tables hold when some of them are written.

Main results:

* `runIncrementalPass_leaves` — the tables after a pass, as a function of the
  tables before it;
* `reconciled_iff` — a pass reconciles the store with its drafts exactly when no
  new row gets the id of a row that owned one of its frames.
-/

namespace ScreenSearch.Kernel

open Process Sorting Store Sessions

variable {start : Tables} {plan : List (SessionDraft × Option Int)}

/-! ## The third loop: the rows -/

/-- An entry of the plan with the row it has been written to. -/
abbrev WrittenEntry := (SessionDraft × Option Int) × Int

def keptIds (plan : List (SessionDraft × Option Int)) (start : Tables) : List Int :=
  (start.sessions.filter (isKept plan)).map Session.id

/-- The ids of the rows that are new. -/
def newIds (done : List WrittenEntry) : List Int :=
  done.filterMap fun entry => if entry.1.2.isNone then some entry.2 else none

/-- The row an entry is written to when the rows `taken` exist. -/
def rowId (taken : List Int) (entry : SessionDraft × Option Int) : Int :=
  entry.2.getD (nextRowid taken)

theorem newIds_append (done more : List WrittenEntry) :
    newIds (done ++ more) = newIds done ++ newIds more :=
  List.filterMap_append

theorem sessionMatchesDraft_iff {session : Session} {draft : SessionDraft} :
    sessionMatchesDraft session draft = true ↔ recorded session = draft.asNewSession false := by
  have hMutable : (draft.asNewSession false).frozen = false := rfl
  unfold sessionMatchesDraft recorded
  generalize draft.asNewSession false = desired at hMutable ⊢
  obtain ⟨startedAt, endedAt, kind, tool, host, contextKey, confidence, frozen⟩ := desired
  subst hMutable
  simp [and_assoc]

/-- The session rows when the entries in `done` have been written. -/
structure Rows (start : Tables) (plan : List (SessionDraft × Option Int))
    (done : List WrittenEntry) (pending : List (SessionDraft × Option Int)) (db : Tables) :
    Prop where
  keys : (db.sessions.map Session.id).Nodup
  ids : db.sessions.map Session.id = keptIds plan start ++ newIds done
  matched : ∀ entry ∈ done, ∀ id, entry.1.2 = some id → entry.2 = id
  distinct : (done.map Prod.snd).Nodup
  rows : ∀ session ∈ db.sessions,
    (session.frozen = true ∧ session ∈ start.sessions) ∨
      (∃ entry ∈ done, entry.2 = session.id ∧ recorded session = entry.1.1.asNewSession false) ∨
      (session.frozen = false ∧ session ∈ start.sessions ∧
        ∃ entry ∈ pending, entry.2 = some session.id)

section

variable {done : List WrittenEntry} {pending : List (SessionDraft × Option Int)} {db : Tables}
  {entry : SessionDraft × Option Int}

theorem Rows.disjoint (h : Rows start plan done pending db) :
    (keptIds plan start).Disjoint (newIds done) := by
  have hkeys := h.keys
  rw [h.ids] at hkeys
  exact List.disjoint_of_nodup_append hkeys

theorem Plan.matched_kept (hPlan : Plan start plan) (hEntry : entry ∈ plan) {id : Int}
    (hid : entry.2 = some id) : id ∈ keptIds plan start := by
  obtain ⟨session, hMem, rfl, -, -⟩ := hPlan.rows entry hEntry id hid
  refine List.mem_map.mpr ⟨session, List.mem_filter.mpr ⟨hMem, ?_⟩, rfl⟩
  rw [isKept, decide_eq_true (List.mem_map.mpr ⟨entry, hEntry, hid⟩), Bool.or_true]

theorem newIds_mem {written : WrittenEntry} (hDone : written ∈ done) (hNew : written.1.2 = none) :
    written.2 ∈ newIds done :=
  List.mem_filterMap.mpr ⟨written, hDone, by simp [hNew]⟩

/-- The row of a pending match has not been written to. -/
theorem Rows.pending_fresh (h : Rows start plan done (entry :: pending) db)
    (hPlan : Plan start plan) (hOrder : plan = done.map Prod.fst ++ entry :: pending) {id : Int}
    (hid : entry.2 = some id) : ∀ written ∈ done, written.2 ≠ id := by
  intro written hwritten heq
  have hEntry : entry ∈ plan := by rw [hOrder]; simp
  cases hmatch : written.1.2 with
  | none =>
    exact h.disjoint (hPlan.matched_kept hEntry hid) (heq ▸ newIds_mem hwritten hmatch)
  | some other =>
    have hother := h.matched written hwritten other hmatch
    have hdistinct := hPlan.distinct
    rw [hOrder, List.filterMap_append] at hdistinct
    refine List.disjoint_of_nodup_append hdistinct (a := id)
      (List.mem_filterMap.mpr ⟨written.1, List.mem_map_of_mem hwritten, ?_⟩)
      (List.mem_filterMap.mpr ⟨entry, List.mem_cons_self .., hid⟩)
    rw [hmatch, ← hother, heq]

/-- A row the pass found frozen is still the row of its id. -/
theorem Rows.frozen_row (h : Rows start plan done pending db) (hStart : start.WellFormed)
    (hPlan : Plan start plan) (hOrder : plan = done.map Prod.fst ++ pending) {session : Session}
    (hMem : session ∈ start.sessions) (hFrozen : session.frozen = true) :
    ∀ row ∈ db.sessions, row.id = session.id → row.frozen = true := by
  intro row hrow hid
  -- a row the pass found unfrozen has another id
  have hother : ∀ other ∈ start.sessions, other.frozen = false → other.id ≠ session.id := by
    intro other hin hmutable heq
    rw [hStart.session_unique hin hMem heq, hFrozen] at hmutable
    cases hmutable
  rcases h.rows row hrow with ⟨hrowFrozen, -⟩ | ⟨written, hwritten, hwid, -⟩ |
      ⟨hmutable, hin, -⟩
  · exact hrowFrozen
  · exfalso
    cases hmatch : written.1.2 with
    | none =>
      have hkept : session.id ∈ keptIds plan start :=
        List.mem_map.mpr ⟨session, List.mem_filter.mpr ⟨hMem, by simp [isKept, hFrozen]⟩, rfl⟩
      exact h.disjoint hkept (hid ▸ hwid ▸ newIds_mem hwritten hmatch)
    | some id =>
      have hEntry : written.1 ∈ plan := by
        rw [hOrder]
        exact List.mem_append_left _ (List.mem_map_of_mem hwritten)
      obtain ⟨other, hin, hoid, hmutable, -⟩ := hPlan.rows _ hEntry id hmatch
      have hsame := h.matched written hwritten id hmatch
      exact hother other hin hmutable (by omega)
  · exact absurd hid (hother row hin hmutable)

/-- A pending match finds its row as the pass found it. -/
theorem Rows.pending_row (h : Rows start plan done (entry :: pending) db)
    (hStart : start.WellFormed) (hPlan : Plan start plan)
    (hOrder : plan = done.map Prod.fst ++ entry :: pending) {id : Int}
    (hid : entry.2 = some id) :
    ∃ session ∈ start.sessions, session ∈ db.sessions ∧ session.id = id ∧
      session.frozen = false := by
  have hEntry : entry ∈ plan := by rw [hOrder]; simp
  have hkept := hPlan.matched_kept hEntry hid
  obtain ⟨row, hrow, hrowId⟩ : ∃ row ∈ db.sessions, row.id = id := by
    refine List.mem_map.mp ?_
    rw [h.ids]
    exact List.mem_append_left _ hkept
  obtain ⟨session, hMem, hsid, hMutable, -⟩ := hPlan.rows entry hEntry id hid
  have hfound : row ∈ start.sessions := by
    rcases h.rows row hrow with ⟨-, hin⟩ | ⟨written, hwritten, hwid, -⟩ | ⟨-, hin, -⟩
    · exact hin
    · exact absurd (hwid.trans hrowId) (h.pending_fresh hPlan hOrder hid written hwritten)
    · exact hin
  rw [← hStart.session_unique hfound hMem (hrowId.trans hsid.symm)] at hMutable
  exact ⟨row, hfound, hrow, hrowId, hMutable⟩

end

/-- What choosing the row of a draft leaves: the row, with everything else. -/
structure Targeted (start : Tables) (plan : List (SessionDraft × Option Int))
    (done : List WrittenEntry) (pending : List (SessionDraft × Option Int))
    (db db' : SchedulerDb) : Prop where
  rows : Rows start plan done pending db'.tables
  frames : db'.tables.frames = db.tables.frames
  artifacts : db'.tables.artifacts = db.tables.artifacts
  text : db'.frameText = db.frameText
  marker : db'.backfillMarker = db.backfillMarker

theorem targetSession_leaves (env : Surroundings) (hStart : start.WellFormed)
    (hPlan : Plan start plan) {done : List WrittenEntry}
    {pending : List (SessionDraft × Option Int)} {entry : SessionDraft × Option Int}
    (hOrder : plan = done.map Prod.fst ++ entry :: pending) {db : SchedulerDb}
    (h : Rows start plan done (entry :: pending) db.tables) :
    Leaves (targetSession env (unfrozenSessions start) entry.1 entry.2) db fun result db' =>
      result.1 = some (rowId (keptIds plan start ++ newIds done) entry) ∧
        Targeted start plan
          (done ++ [(entry, rowId (keptIds plan start ++ newIds done) entry)]) pending db db' := by
  cases hmatch : entry.2 with
  | none =>
    rw [targetSession]
    refine Ends.bind (R := fun id db' =>
      id = rowId (keptIds plan start ++ newIds done) entry ∧
        Targeted start plan
          (done ++ [(entry, rowId (keptIds plan start ++ newIds done) entry)]) pending db db')
      (execute_ends (fun _ _ => trivial) (fun _ _ _ => trivial) ?_)
      (fun _ _ hdone => Ends.pure ⟨by rw [hdone.1], hdone.2⟩)
    intro _ id tables hok
    obtain ⟨hid, hframes, hartifacts, row, hsessions, hrowId, hrecorded⟩ := insertSession_ok hok
    have hnew : id = rowId (keptIds plan start ++ newIds done) entry := by
      rw [rowId, hmatch, Option.getD_none, ← h.ids, hid]
    rw [← hnew]
    have hfresh : id ∉ db.tables.sessions.map Session.id := hid ▸ nextRowid_not_mem _
    refine ⟨rfl, ?_, hframes, hartifacts, rfl, rfl⟩
    refine ⟨?_, ?_, ?_, ?_, ?_⟩
    · rw [hsessions, List.map_append, List.nodup_append']
      refine ⟨h.keys, List.nodup_singleton _, ?_⟩
      simpa [hrowId] using hfresh
    · rw [hsessions, List.map_append, h.ids, newIds_append, List.append_assoc]
      simp [newIds, hmatch, hrowId]
    · intro written hwritten other hother
      rcases List.mem_append.mp hwritten with hin | hin
      · exact h.matched written hin other hother
      · rw [List.mem_singleton.mp hin, hmatch] at hother
        cases hother
    · rw [List.map_append, List.nodup_append']
      refine ⟨h.distinct, List.nodup_singleton _, ?_⟩
      rw [List.map_singleton, List.disjoint_singleton]
      intro hin
      obtain ⟨written, hwritten, heq⟩ := List.mem_map.mp hin
      refine hfresh ?_
      rw [h.ids, ← show written.2 = id from heq]
      cases hold : written.1.2 with
      | none => exact List.mem_append_right _ (newIds_mem hwritten hold)
      | some other =>
        rw [h.matched written hwritten other hold]
        have hEntry : written.1 ∈ plan := by
          rw [hOrder]
          exact List.mem_append_left _ (List.mem_map_of_mem hwritten)
        exact List.mem_append_left _ (hPlan.matched_kept hEntry hold)
    · intro session hsession
      rw [hsessions] at hsession
      rcases List.mem_append.mp hsession with hin | hin
      · rcases h.rows session hin with hfrozen | ⟨written, hwritten, hw⟩ | ⟨hf, hs, e, he, heid⟩
        · exact .inl hfrozen
        · exact .inr (.inl ⟨written, List.mem_append_left _ hwritten, hw⟩)
        · refine .inr (.inr ⟨hf, hs, e, ?_, heid⟩)
          rcases List.mem_cons.mp he with rfl | hpending
          · rw [hmatch] at heid
            cases heid
          · exact hpending
      · rw [List.mem_singleton.mp hin]
        exact .inr (.inl ⟨(entry, id), by simp, hrowId.symm, hrecorded⟩)
  | some id =>
    obtain ⟨session, hMem, hHere, hsid, hMutable⟩ := h.pending_row hStart hPlan hOrder hmatch
    have hrowId : rowId (keptIds plan start ++ newIds done) entry = id := by
      rw [rowId, hmatch, Option.getD_some]
    have hfound : (unfrozenSessions start).find? (fun row => row.id == id) = some session := by
      cases hfind : (unfrozenSessions start).find? (fun row => row.id == id) with
      | none =>
        exact absurd (by simp [hsid])
          (List.find?_eq_none.mp hfind session (unfrozenSessions_mem.mpr ⟨hMem, hMutable⟩))
      | some other =>
        have hother := List.find?_some hfind
        rw [beq_iff_eq] at hother
        rw [hStart.session_unique (unfrozenSessions_mem.mp (List.mem_of_find?_eq_some hfind)).1
          hMem (hother.trans hsid.symm)]
    rw [hrowId]
    -- both branches write nothing but the row of `id`
    have hrows : ∀ tables : Tables, tables.sessions.map Session.id =
          db.tables.sessions.map Session.id →
        (∀ row ∈ tables.sessions, (row.id = id ∧ recorded row = entry.1.asNewSession false) ∨
          (row ∈ db.tables.sessions ∧ row.id ≠ id)) →
        Rows start plan (done ++ [(entry, id)]) pending tables := by
      intro tables hids hcases
      refine ⟨hids ▸ h.keys, ?_, ?_, ?_, ?_⟩
      · rw [hids, h.ids, newIds_append]
        simp [newIds, hmatch]
      · intro written hwritten other hother
        rcases List.mem_append.mp hwritten with hin | hin
        · exact h.matched written hin other hother
        · rw [List.mem_singleton.mp hin] at hother ⊢
          exact Option.some.inj (hmatch.symm.trans hother)
      · rw [List.map_append, List.nodup_append']
        refine ⟨h.distinct, List.nodup_singleton _, ?_⟩
        rw [List.map_singleton, List.disjoint_singleton]
        intro hin
        obtain ⟨written, hwritten, heq⟩ := List.mem_map.mp hin
        exact h.pending_fresh hPlan hOrder hmatch written hwritten heq
      · intro row hrow
        rcases hcases row hrow with ⟨hid, hrec⟩ | ⟨hin, hne⟩
        · exact .inr (.inl ⟨(entry, id), by simp, hid.symm, hrec⟩)
        · rcases h.rows row hin with hfrozen | ⟨written, hwritten, hw⟩ | ⟨hf, hs, e, he, heid⟩
          · exact .inl hfrozen
          · exact .inr (.inl ⟨written, List.mem_append_left _ hwritten, hw⟩)
          · refine .inr (.inr ⟨hf, hs, e, ?_, heid⟩)
            rcases List.mem_cons.mp he with rfl | hpending
            · exact absurd (Option.some.inj (heid.symm.trans hmatch)) hne
            · exact hpending
    rw [targetSession, hfound, Option.any_some]
    by_cases hsame : sessionMatchesDraft session entry.1 = true
    · rw [hsame]
      refine Ends.pure ⟨rfl, hrows db.tables rfl fun row hrow => ?_, rfl, rfl, rfl, rfl⟩
      by_cases hid : row.id = id
      · left
        have : row = session := List.inj_on_of_nodup_map h.keys hrow hHere (hid.trans hsid.symm)
        exact ⟨hid, this ▸ sessionMatchesDraft_iff.mp hsame⟩
      · exact .inr ⟨hrow, hid⟩
    · rw [Bool.not_eq_true] at hsame
      rw [hsame]
      refine Ends.bind (R := fun updated db' => updated = true ∧
        Targeted start plan (done ++ [(entry, id)]) pending db db')
        (execute_ends (fun _ _ => trivial) (fun _ _ _ => trivial) ?_) ?_
      · intro clock updated tables hok
        obtain ⟨hframes, hartifacts, hsessions, hupdated⟩ := updateUnfrozenSession_ok hok
        refine ⟨?_, hrows tables ?_ ?_, hframes, hartifacts, rfl, rfl⟩
        · rw [hupdated, List.any_eq_true]
          exact ⟨session, hHere, by simp [hsid, hMutable]⟩
        · rw [hsessions, List.map_map]
          refine List.map_congr_left fun row _ => ?_
          rw [Function.comp_apply]
          split <;> rfl
        · intro row hrow
          rw [hsessions] at hrow
          obtain ⟨old, hold, rfl⟩ := List.mem_map.mp hrow
          by_cases hid : old.id = id
          · have : old = session :=
              List.inj_on_of_nodup_map h.keys hold hHere (hid.trans hsid.symm)
            subst this
            left
            rw [if_pos (by simp [hid, hMutable]), recorded_rewritten, hMutable]
            exact ⟨hid, rfl⟩
          · rw [if_neg (by simp [hid])]
            exact .inr ⟨hold, hid⟩
      · rintro updated db' ⟨rfl, htargeted⟩
        exact Ends.pure ⟨rfl, htargeted⟩

/-! ## The third loop: the frames -/

/-- The owner of a row when the entries in `done` have been written. A new row
whose id was the id of the row's owner before does not get the frame. -/
def ownerAfter (plan : List (SessionDraft × Option Int)) (start : Tables)
    (done : List WrittenEntry) (row : FrameRow) : Option Int :=
  match done.find? fun entry => decide (row.frame.id ∈ entry.1.1.frameIds) with
  | some entry =>
    if frozenOwned start row then row.sessionId
    else if entry.1.2 = none ∧ row.sessionId = some entry.2 then none
    else some entry.2
  | none => keptOwner plan start row

/-- A frame that no entry so far wants. -/
theorem ownerAfter_fresh {done : List WrittenEntry} {row : FrameRow}
    (h : ∀ entry ∈ done, row.frame.id ∉ entry.1.1.frameIds) :
    ownerAfter plan start done row = keptOwner plan start row := by
  have hnone : done.find? (fun entry => decide (row.frame.id ∈ entry.1.1.frameIds)) = none := by
    rw [List.find?_eq_none]
    exact fun entry hentry => by simpa using h entry hentry
  rw [ownerAfter, hnone]

theorem ownerAfter_snoc_other {done : List WrittenEntry} {written : WrittenEntry} {row : FrameRow}
    (h : row.frame.id ∉ written.1.1.frameIds) :
    ownerAfter plan start (done ++ [written]) row = ownerAfter plan start done row := by
  have hnone : [written].find? (fun entry => decide (row.frame.id ∈ entry.1.1.frameIds)) = none := by
    rw [List.find?_singleton, if_neg (by simpa using h)]
  rw [ownerAfter, ownerAfter, List.find?_append, hnone, Option.or_none]

theorem ownerAfter_snoc_wanted {done : List WrittenEntry} {written : WrittenEntry} {row : FrameRow}
    (hFresh : ∀ entry ∈ done, row.frame.id ∉ entry.1.1.frameIds)
    (hWanted : row.frame.id ∈ written.1.1.frameIds) :
    ownerAfter plan start (done ++ [written]) row =
      if frozenOwned start row then row.sessionId
      else if written.1.2 = none ∧ row.sessionId = some written.2 then none
      else some written.2 := by
  have hnone : done.find? (fun entry => decide (row.frame.id ∈ entry.1.1.frameIds)) = none := by
    rw [List.find?_eq_none]
    exact fun entry hentry => by simpa using hFresh entry hentry
  have hfound : [written].find? (fun entry => decide (row.frame.id ∈ entry.1.1.frameIds)) =
      some written := by
    simp [hWanted]
  rw [ownerAfter, List.find?_append, hnone, hfound]
  rfl

/-- Who owns a row after the assignment of one more draft. -/
theorem assigned_owner (hStart : start.WellFormed) (hPlan : Plan start plan)
    {done : List WrittenEntry} {pending : List (SessionDraft × Option Int)}
    {entry : SessionDraft × Option Int} {id : Int} {db : Tables} {owned : List (Int × List Int)}
    (hOrder : plan = done.map Prod.fst ++ entry :: pending)
    (hRows : Rows start plan (done ++ [(entry, id)]) pending db)
    (hOwned : Snapshot start (unfrozenIds start) owned) {row : FrameRow}
    (hRow : row ∈ start.frames) :
    (if decide (row.frame.id ∈ entry.1.frameIds.filter fun frameId =>
          decide (frameId ∉ (owned.lookup id).getD [])) &&
        replaceable db (ownerAfter plan start done row) then some id
      else ownerAfter plan start done row) =
      ownerAfter plan start (done ++ [(entry, id)]) row := by
  by_cases hWanted : row.frame.id ∈ entry.1.frameIds
  · have hEntry : entry ∈ plan := by rw [hOrder]; simp
    have hFresh : ∀ written ∈ done, row.frame.id ∉ written.1.1.frameIds := by
      intro written hwritten hin
      have hOnce := hPlan.once
      rw [hOrder, List.map_append, ownedIds, List.flatMap_append] at hOnce
      refine List.disjoint_of_nodup_append hOnce (a := row.frame.id) ?_ ?_
      · exact List.mem_flatMap.mpr
          ⟨written.1.1, List.mem_map_of_mem (List.mem_map_of_mem hwritten), hin⟩
      · exact List.mem_flatMap.mpr ⟨entry.1, by simp, hWanted⟩
    rw [ownerAfter_snoc_wanted hFresh hWanted, ownerAfter_fresh hFresh]
    have hSnapshot : row.frame.id ∈ (owned.lookup id).getD [] ↔
        id ∈ unfrozenIds start ∧ row.sessionId = some id := by
      rw [hOwned id row.frame.id]
      refine and_congr_right fun _ => ⟨?_, fun h => ⟨row, hRow, rfl, h⟩⟩
      rintro ⟨other, hother, hsame, howner⟩
      rwa [← frame_unique hStart hother hRow hsame]
    simp only [List.mem_filter, hWanted, true_and, decide_eq_true_eq, hSnapshot]
    cases hOwner : row.sessionId with
    | none => simp [keptOwner, hOwner, frozenOwned, wanted, replaceable]
    | some current =>
      obtain ⟨session, hMem, rfl⟩ := hStart.references row hRow current hOwner
      have hFrozenEq := frozenOwned_row hStart hMem hOwner
      cases hFrozen : session.frozen with
      | true =>
        -- no assignment reaches a frame of a frozen session
        have hOrder' : plan = (done ++ [(entry, id)]).map Prod.fst ++ pending := by simp [hOrder]
        have hkeep : replaceable db (some session.id) = false := by
          rw [replaceable, List.any_eq_false]
          intro other hother
          by_cases hid : other.id = session.id
          · simp [hRows.frozen_row hStart hPlan hOrder' hMem hFrozen other hother hid]
          · simp [hid]
        rw [keptOwner, hFrozenEq, hFrozen, Bool.true_or, if_pos rfl, hOwner, hkeep, Bool.and_false]
        simp
      | false =>
        rw [keptOwner, hFrozenEq, hFrozen, Bool.false_or]
        have hUnfrozen : session.id ∈ unfrozenIds start :=
          (unfrozenIds_row hStart hMem).mpr hFrozen
        cases hKept : wanted plan row with
        | true =>
          -- the draft that wants the frame of its row is this one
          rw [wanted, hOwner, Option.any_some] at hKept
          obtain ⟨draft, hdesired, hin⟩ := (Option.any_eq_true ..).mp hKept
          have hsame := hPlan.same_frame (desiredByExisting_some hdesired) hEntry
            (of_decide_eq_true hin) hWanted
          have hmatch : entry.2 = some session.id := by rw [← hsame]
          have hid : id = session.id := hRows.matched (entry, id) (by simp) _ hmatch
          subst hid
          simp [hOwner, hUnfrozen, hmatch]
        | false =>
          by_cases hid : session.id = id
          · subst hid
            have hnew : entry.2 = none := by
              cases hmatch : entry.2 with
              | none => rfl
              | some other =>
                have hother := hRows.matched (entry, session.id) (by simp) other hmatch
                have hdesired := hPlan.desired hEntry (hmatch.trans (by rw [← hother]))
                rw [wanted, hOwner, Option.any_some, hdesired, Option.any_some] at hKept
                exact absurd hWanted (of_decide_eq_false hKept)
            simp [hUnfrozen, hnew]
          · simp [hid, replaceable]
  · rw [ownerAfter_snoc_other hWanted]
    simp [hWanted]

/-! ## The third loop -/

variable {segmenter : SessionSegmenter}

/-- The exchanges the segmenter finds in a draft's frames. -/
def wantedExchanges (segmenter : SessionSegmenter) (db : SchedulerDb) (draft : SessionDraft) :
    List NewSessionArtifact :=
  (segmenter.extractExchanges (draft.tool.getD "")
    (contentTextsForFrames draft.frameIds db.frameText db.tables)).map asArtifact

/-- The exchanges of one row are those of its draft, and nothing else changed. -/
structure Refreshed (segmenter : SessionSegmenter) (sessionId : Int) (draft : SessionDraft)
    (db db' : SchedulerDb) : Prop where
  frames : db'.tables.frames = db.tables.frames
  sessions : db'.tables.sessions = db.tables.sessions
  text : db'.frameText = db.frameText
  marker : db'.backfillMarker = db.backfillMarker
  exchanges : draft.kind = .ai →
    storedExchanges (listSessionArtifacts sessionId db'.tables) = wantedExchanges segmenter db draft
  others : ∀ other, other ≠ sessionId →
    listSessionArtifacts other db'.tables = listSessionArtifacts other db.tables

theorem refreshIfAi_leaves (env : Surroundings) (segmenter : SessionSegmenter) (sessionId : Int)
    (draft : SessionDraft) (db : SchedulerDb) :
    Leaves (refreshIfAi env segmenter sessionId draft) db fun _ db' =>
      Refreshed segmenter sessionId draft db db' := by
  unfold refreshIfAi
  by_cases hAi : draft.kind = .ai
  · rw [if_pos hAi, refreshExchanges]
    refine Ends.bind (R := fun contents after => after = db ∧
      contents = contentTextsForFrames draft.frameIds db.frameText db.tables)
      (query_ends (fun _ _ => trivial) ⟨rfl, rfl⟩) ?_
    rintro contents after ⟨rfl, rfl⟩
    refine Ends.bind (R := fun listed last => last = after ∧
      listed = listSessionArtifacts sessionId after.tables)
      (query_ends (fun _ _ => trivial) ⟨rfl, rfl⟩) ?_
    rintro listed last ⟨rfl, rfl⟩
    split
    · rename_i hsame
      exact Ends.pure ⟨rfl, rfl, rfl, rfl, fun _ => hsame, fun _ _ => rfl⟩
    · refine Ends.bind (R := fun count mid =>
        ∃ tables, deleteSessionArtifactsByKind sessionId .exchange last.tables =
          .ok (count, tables) ∧ mid = { last with tables := tables })
        (execute_ends (fun _ _ => trivial) (fun _ _ _ => trivial)
          fun _ count tables hok => ⟨tables, hok, rfl⟩) ?_
      rintro count mid ⟨deleted, hdeleted, rfl⟩
      refine Ends.bind (R := fun _ => Refreshed segmenter sessionId draft last)
        (execute_ends (fun _ _ => trivial) (fun _ _ _ => trivial) ?_)
        (fun _ _ h => Ends.pure h)
      intro clock ids tables hok
      obtain ⟨hframes, hsessions, hexchanges, hothers⟩ := replaceExchanges (by
        intro artifact hartifact
        obtain ⟨exchange, -, rfl⟩ := List.mem_map.mp hartifact
        rfl) hdeleted hok
      exact ⟨hframes, hsessions, rfl, rfl, fun _ => hexchanges, hothers⟩
  · rw [if_neg hAi]
    exact Ends.pure ⟨rfl, rfl, rfl, rfl, fun h => absurd h hAi, fun _ _ => rfl⟩

/-- The store when the entries in `done` have been written and those in `pending`
are to come. -/
structure Midway (segmenter : SessionSegmenter) (start : SchedulerDb)
    (plan : List (SessionDraft × Option Int)) (done : List WrittenEntry)
    (pending : List (SessionDraft × Option Int)) (db : SchedulerDb) : Prop where
  rows : Rows start.tables plan done pending db.tables
  owners : db.tables.frames = withOwners start.tables (ownerAfter plan start.tables done)
  text : db.frameText = start.frameText
  marker : db.backfillMarker = start.backfillMarker
  exchanges : ∀ entry ∈ done, entry.1.1.kind = .ai →
    storedExchanges (listSessionArtifacts entry.2 db.tables) =
      wantedExchanges segmenter start entry.1.1

/-- What is extracted depends on the frames and their text alone. -/
theorem wantedExchanges_congr {db db' : SchedulerDb}
    (hFrames : db'.tables.frames.map FrameRow.frame = db.tables.frames.map FrameRow.frame)
    (hText : db'.frameText = db.frameText) (draft : SessionDraft) :
    wantedExchanges segmenter db' draft = wantedExchanges segmenter db draft := by
  rw [wantedExchanges, wantedExchanges, hText, contentTextsForFrames_congr hFrames]

theorem writeDraft_leaves (env : Surroundings) {start : SchedulerDb}
    (hStart : start.tables.WellFormed) (hPlan : Plan start.tables plan)
    {done : List WrittenEntry} {pending : List (SessionDraft × Option Int)}
    {entry : SessionDraft × Option Int} {owned : List (Int × List Int)} {db : SchedulerDb}
    (hOrder : plan = done.map Prod.fst ++ entry :: pending)
    (hOwned : Snapshot start.tables (unfrozenIds start.tables) owned)
    (h : Midway segmenter start plan done (entry :: pending) db) :
    Leaves (writeDraft env segmenter (unfrozenSessions start.tables) owned entry) db fun _ db' =>
      Midway segmenter start plan
        (done ++ [(entry, rowId (keptIds plan start.tables ++ newIds done) entry)]) pending
        db' := by
  rw [writeDraft]
  refine Ends.bind (targetSession_leaves env hStart hPlan hOrder h.rows) ?_
  generalize rowId (keptIds plan start.tables ++ newIds done) entry = id
  rintro ⟨target, written⟩ mid ⟨htarget, hmid⟩
  obtain rfl : target = some id := htarget
  dsimp only
  -- the row is there; next its frames, but those that it owns already
  have hFrames := hmid.frames.trans h.owners
  have hNodup : (entry.1.frameIds.filter fun frameId =>
      decide (frameId ∉ (owned.lookup id).getD [])).Nodup := by
    refine List.Nodup.filter _ ?_
    refine (List.nodup_flatMap.mp hPlan.once).1 entry.1 ?_
    rw [hOrder]
    simp
  refine Ends.bind (R := fun _ after => after = { mid with tables :=
      { mid.tables with
        frames := withOwners start.tables
          (ownerAfter plan start.tables (done ++ [(entry, id)])) } })
    (execute_ends (fun _ _ => trivial) (fun _ _ _ => trivial) ?_) ?_
  · intro _ count tables hok
    obtain ⟨rfl, -⟩ := assignFramesSession_ok hNodup hok
    have hrows := assignFrames_owners hFrames (entry.1.frameIds.filter fun frameId =>
      decide (frameId ∉ (owned.lookup id).getD [])) (some id)
    rw [withOwners_congr fun row hrow =>
      assigned_owner hStart hPlan hOrder hmid.rows hOwned hrow] at hrows
    congr 1
    rw [← hrows]
    rfl
  · rintro count after rfl
    -- exchanges come last, and only those of this session change
    refine Ends.bind (refreshIfAi_leaves env segmenter id entry.1 _) ?_
    rintro refreshed last hrefreshed
    have hRows : Rows start.tables plan (done ++ [(entry, id)]) pending last.tables := by
      have hsessions := hrefreshed.sessions
      dsimp only at hsessions
      obtain ⟨keys, ids, matched, distinct, rows⟩ := hmid.rows
      exact ⟨hsessions ▸ keys, hsessions ▸ ids, matched, distinct, hsessions ▸ rows⟩
    refine Ends.pure ⟨hRows, hrefreshed.frames, hrefreshed.text.trans (hmid.text.trans h.text),
      hrefreshed.marker.trans (hmid.marker.trans h.marker), ?_⟩
    intro other hother hAi
    rcases List.mem_append.mp hother with hin | hin
    · have hne : other.2 ≠ id := by
        intro heq
        have hdistinct := hmid.rows.distinct
        rw [List.map_append] at hdistinct
        exact List.disjoint_of_nodup_append hdistinct
          (List.mem_map_of_mem hin) (by simp [heq])
      rw [hrefreshed.others other.2 hne, ← h.exchanges other hin hAi]
      simp only [listSessionArtifacts, hmid.artifacts]
    · rw [List.mem_singleton.mp hin] at hAi ⊢
      rw [hrefreshed.exchanges hAi]
      refine wantedExchanges_congr ?_ ?_ entry.1
      · exact withOwners_frame ..
      · exact hmid.text.trans h.text

/-- The rows a plan is written to, in order. -/
def rowIds (taken : List Int) : List (SessionDraft × Option Int) → List Int
  | [] => []
  | entry :: plan =>
    rowId taken entry ::
      rowIds (if entry.2.isNone then taken ++ [rowId taken entry] else taken) plan

theorem rowIds_length (taken : List Int) (plan : List (SessionDraft × Option Int)) :
    (rowIds taken plan).length = plan.length := by
  induction plan generalizing taken with
  | nil => rfl
  | cons entry plan ih => rw [rowIds, List.length_cons, List.length_cons, ih]

theorem writeDrafts_leaves (env : Surroundings) {start : SchedulerDb}
    (hStart : start.tables.WellFormed) (hPlan : Plan start.tables plan)
    (done : List WrittenEntry) {pending : List (SessionDraft × Option Int)}
    {owned : List (Int × List Int)} {db : SchedulerDb}
    (hOrder : plan = done.map Prod.fst ++ pending)
    (hOwned : Snapshot start.tables (unfrozenIds start.tables) owned)
    (h : Midway segmenter start plan done pending db) :
    Leaves (writeDrafts env segmenter (unfrozenSessions start.tables) owned pending) db
      fun _ db' => Midway segmenter start plan
        (done ++ pending.zip (rowIds (keptIds plan start.tables ++ newIds done) pending)) []
        db' := by
  induction pending generalizing done db with
  | nil => exact Ends.pure (by simpa using h)
  | cons entry pending ih =>
    rw [writeDrafts]
    refine Ends.bind (writeDraft_leaves env hStart hPlan hOrder hOwned h) ?_
    intro _ mid hmid
    refine Ends.bind (ih _ (by simp [hOrder]) hmid) ?_
    intro _ last hlast
    refine Ends.pure ?_
    rw [rowIds, List.zip_cons_cons]
    generalize rowId (keptIds plan start.tables ++ newIds done) entry = id at hlast ⊢
    have hnew : keptIds plan start.tables ++ newIds (done ++ [(entry, id)]) =
        if entry.2.isNone then keptIds plan start.tables ++ newIds done ++ [id]
        else keptIds plan start.tables ++ newIds done := by
      rw [newIds_append]
      cases hmatch : entry.2 <;> simp [newIds, hmatch]
    rw [hnew, List.append_assoc] at hlast
    exact hlast

/-! ## The pass -/

/-- The entries of a plan with the rows they are written to. -/
def writtenPlan (plan : List (SessionDraft × Option Int)) (start : Tables) : List WrittenEntry :=
  plan.zip (rowIds (keptIds plan start) plan)

theorem writtenPlan_fst (plan : List (SessionDraft × Option Int)) (start : Tables) :
    (writtenPlan plan start).map Prod.fst = plan :=
  List.map_fst_zip (rowIds_length ..).ge

theorem writtenPlan_snd (plan : List (SessionDraft × Option Int)) (start : Tables) :
    (writtenPlan plan start).map Prod.snd = rowIds (keptIds plan start) plan :=
  List.map_snd_zip (rowIds_length ..).le

/-- Nothing is written yet when both loops are done. -/
theorem midway_start (segmenter : SessionSegmenter) {start db : SchedulerDb}
    (hStart : start.tables.WellFormed)
    (hPlan : Plan start.tables plan)
    (h : Dropped start.tables plan (releasedOwner plan (unfrozenIds start.tables))
      (unfrozenIds start.tables) db.tables)
    (hText : db.frameText = start.frameText) (hMarker : db.backfillMarker = start.backfillMarker) :
    Midway segmenter start plan [] plan db := by
  have hSessions : db.tables.sessions = start.tables.sessions.filter (isKept plan) := by
    rw [h.sessions]
    exact List.filter_congr fun session hMem => dropped_unfrozen hStart hMem
  refine ⟨⟨?_, ?_, by simp, List.nodup_nil, ?_⟩, ?_, hText, hMarker, by simp⟩
  · rw [hSessions]
    exact hStart.sessionIds.sublist (List.filter_sublist.map _)
  · rw [hSessions, keptIds]
    simp [newIds]
  · intro session hMem
    rw [hSessions, List.mem_filter, isKept] at hMem
    cases hFrozen : session.frozen with
    | true => exact .inl ⟨rfl, hMem.1⟩
    | false =>
      rw [hFrozen, Bool.false_or, decide_eq_true_eq] at hMem
      obtain ⟨entry, hEntry, hid⟩ := List.mem_map.mp hMem.2
      exact .inr (.inr ⟨rfl, hMem.1, entry, hEntry, hid⟩)
  · rw [h.frames]
    exact withOwners_congr fun row hRow => dropped_owner hStart hPlan hRow

/-- **The tables after a pass.** Every entry of the plan has been written to its
row. -/
theorem runIncrementalPass_leaves (env : Surroundings) (segmenter : SessionSegmenter)
    (nowMs : Int) (current : Settings) {start : SchedulerDb} (hStart : start.tables.WellFormed) :
    Leaves (runIncrementalPass env segmenter nowMs current) start fun _ db' =>
      Midway segmenter start (livePlan segmenter nowMs current start.tables)
        (writtenPlan (livePlan segmenter nowMs current start.tables) start.tables) [] db' := by
  have hPlan := livePlan_plan segmenter nowMs current hStart
  have hExisting : ∀ session ∈ unfrozenSessions start.tables,
      session ∈ start.tables.sessions ∧ session.frozen = false :=
    fun _ => unfrozenSessions_mem.mp
  have hNodup : (unfrozenIds start.tables).Nodup := by
    refine ((sortByKey_perm _ _).map Session.id).nodup_iff.mpr ?_
    exact hStart.sessionIds.sublist (List.filter_sublist.map _)
  refine runIncrementalPass_ends segmenter nowMs current (fun _ _ => trivial) ?_
  change Leaves (applyPlan env segmenter (unfrozenSessions start.tables) _) start _
  generalize livePlan segmenter nowMs current start.tables = plan at hPlan
  -- nothing is released before the first loop
  have hNone : start.tables = { start.tables with
      frames := withOwners start.tables (releasedOwner plan []) } := by
    have hself : releasedOwner plan [] = FrameRow.sessionId := by
      funext row
      cases hOwner : row.sessionId <;> simp [releasedOwner, hOwner]
    rw [hself, withOwners_self]
  rw [applyPlan]
  refine Ends.bind (releaseStale_leaves env hStart [] hExisting hNodup hNone ?_) ?_
  · intro id x
    simp
  rintro ⟨released, owned⟩ released' ⟨rfl, hOwned⟩
  have hNothing : Dropped start.tables plan (releasedOwner plan (unfrozenIds start.tables)) []
      { start.tables with
        frames := withOwners start.tables (releasedOwner plan (unfrozenIds start.tables)) } := by
    refine ⟨?_, ?_⟩
    · refine withOwners_congr fun row _ => ?_
      cases releasedOwner plan (unfrozenIds start.tables) row <;>
        simp [dropped, Option.filter_some]
    · simp [dropped]
  refine Ends.bind (deleteUnmatched_leaves env hStart [] hExisting hNodup hNothing) ?_
  rintro deleted pruned ⟨hdropped, htext, hmarker⟩
  have hMidway := midway_start segmenter hStart hPlan hdropped htext hmarker
  refine Ends.bind (writeDrafts_leaves env hStart hPlan [] rfl hOwned hMidway) ?_
  intro written last hlast
  refine Ends.pure ?_
  simpa [newIds, writtenPlan] using hlast

/-! ## Reconciled stores -/

/-- The unfrozen sessions are the drafts, one row each, and each row owns what its
draft wants and no frozen session has. -/
structure Reconciled (drafts : List SessionDraft) (db : Tables) (ids : List Int) : Prop where
  length : ids.length = drafts.length
  distinct : ids.Nodup
  rows : ((db.sessions.filter fun session => !session.frozen).map fun session =>
    (session.id, recorded session)).Perm (ids.zip (drafts.map fun draft => draft.asNewSession false))
  frames : ∀ entry ∈ drafts.zip ids, ∀ row ∈ db.frames,
    row.sessionId = some entry.2 ↔ row.frame.id ∈ entry.1.frameIds ∧ frozenOwned db row = false

/-- In a reconciled store a wanted frame belongs to some session. -/
theorem Reconciled.owner_isSome {drafts : List SessionDraft} {db : Tables} {ids : List Int}
    (h : Reconciled drafts db ids) {draft : SessionDraft} (hDraft : draft ∈ drafts)
    {row : FrameRow} (hRow : row ∈ db.frames) (hWanted : row.frame.id ∈ draft.frameIds)
    (hMutable : frozenOwned db row = false) : row.sessionId ≠ none := by
  obtain ⟨i, hi, rfl⟩ := List.getElem_of_mem hDraft
  have hlen : i < ids.length := by rw [h.length]; exact hi
  have hEntry : (drafts[i], ids[i]) ∈ drafts.zip ids :=
    List.mem_iff_getElem.mpr ⟨i, by simp [hi, hlen], List.getElem_zip⟩
  rw [(h.frames _ hEntry row hRow).mpr ⟨hWanted, hMutable⟩]
  exact Option.some_ne_none _

/-- No new row gets the id of a row that owned one of its frames. -/
def NoReuse (plan : List (SessionDraft × Option Int)) (start : Tables) : Prop :=
  ∀ written ∈ writtenPlan plan start, written.1.2 = none →
    ∀ row ∈ start.frames, row.frame.id ∈ written.1.1.frameIds → row.sessionId ≠ some written.2

section

variable {done : List WrittenEntry} {db : Tables} {written : WrittenEntry} {row : FrameRow}

/-- The row an entry is written to records its draft. -/
theorem Rows.written_row (h : Rows start plan done [] db) (hStart : start.WellFormed)
    (hPlan : Plan start plan) (hOrder : plan = done.map Prod.fst) (hWritten : written ∈ done)
    {session : Session} (hMem : session ∈ db.sessions) (hid : session.id = written.2) :
    recorded session = written.1.1.asNewSession false := by
  rcases h.rows session hMem with ⟨hFrozen, hin⟩ | ⟨other, hOther, hoid, hrec⟩ | ⟨-, -, _, he, -⟩
  · exfalso
    cases hmatch : written.1.2 with
    | none =>
      have hkept : session.id ∈ keptIds plan start :=
        List.mem_map.mpr ⟨session, List.mem_filter.mpr ⟨hin, by simp [isKept, hFrozen]⟩, rfl⟩
      exact h.disjoint hkept (hid ▸ newIds_mem hWritten hmatch)
    | some id =>
      have hEntry : written.1 ∈ plan := hOrder ▸ List.mem_map_of_mem hWritten
      obtain ⟨mutableRow, hrow, hrid, hMutable, -⟩ := hPlan.rows _ hEntry id hmatch
      have hsame := h.matched written hWritten id hmatch
      rw [hStart.session_unique hrow hin (by omega), hFrozen] at hMutable
      cases hMutable
  · rw [List.inj_on_of_nodup_map h.distinct hOther hWritten (hoid.trans hid)] at hrec
    exact hrec
  · cases he

/-- Every entry has a row. -/
theorem Rows.written_present (h : Rows start plan done [] db) (hPlan : Plan start plan)
    (hOrder : plan = done.map Prod.fst) (hWritten : written ∈ done) :
    ∃ session ∈ db.sessions, session.id = written.2 := by
  refine List.mem_map.mp ?_
  rw [h.ids]
  cases hmatch : written.1.2 with
  | none => exact List.mem_append_right _ (newIds_mem hWritten hmatch)
  | some id =>
    rw [h.matched written hWritten id hmatch]
    exact List.mem_append_left _
      (hPlan.matched_kept (hOrder ▸ List.mem_map_of_mem hWritten) hmatch)

/-- A row the pass found frozen is there still. -/
theorem Rows.frozen_present (h : Rows start plan done [] db) {session : Session}
    (hMem : session ∈ start.sessions) (hFrozen : session.frozen = true) :
    ∃ row ∈ db.sessions, row.id = session.id := by
  refine List.mem_map.mp ?_
  rw [h.ids]
  refine List.mem_append_left _ (List.mem_map.mpr ⟨session, List.mem_filter.mpr ⟨hMem, ?_⟩, rfl⟩)
  simp [isKept, hFrozen]

/-- Who owns a wanted frame in the end. -/
theorem ownerAfter_written (hPlan : Plan start plan) (hOrder : plan = done.map Prod.fst)
    (hWritten : written ∈ done) (hWanted : row.frame.id ∈ written.1.1.frameIds) :
    ownerAfter plan start done row =
      if frozenOwned start row then row.sessionId
      else if written.1.2 = none ∧ row.sessionId = some written.2 then none
      else some written.2 := by
  cases hFound : done.find? (fun entry => decide (row.frame.id ∈ entry.1.1.frameIds)) with
  | none =>
    exact absurd (by simpa using hWanted) (List.find?_eq_none.mp hFound written hWritten)
  | some other =>
    have hOnce := hPlan.once
    rw [hOrder, ownedIds, List.flatMap_map, List.flatMap_map] at hOnce
    have hWanted' : row.frame.id ∈ other.1.1.frameIds := by
      simpa using List.find?_some hFound
    have hsame : other = written :=
      eq_of_nodup_flatMap hOnce (List.mem_of_find?_eq_some hFound) hWritten hWanted' hWanted
    rw [ownerAfter, hFound, hsame]

/-- A frame that no draft wants keeps a frozen owner and no other. -/
theorem ownerAfter_unwanted (hOrder : plan = done.map Prod.fst)
    (hUnwanted : ∀ written ∈ done, row.frame.id ∉ written.1.1.frameIds) :
    ownerAfter plan start done row =
      if frozenOwned start row then row.sessionId else none := by
  have hnot : wanted plan row = false := by
    rw [wanted, Option.any_eq_false]
    intro id _
    rw [Option.any_eq_false]
    intro draft hdesired
    have hEntry := desiredByExisting_some hdesired
    rw [hOrder] at hEntry
    obtain ⟨written, hWritten, heq⟩ := List.mem_map.mp hEntry
    have hunwanted := hUnwanted written hWritten
    rw [heq] at hunwanted
    simpa using hunwanted
  rw [ownerAfter_fresh hUnwanted, keptOwner, hnot, Bool.or_false]

end

section

variable {done : List WrittenEntry} {db : Tables} {row : FrameRow}

theorem ownerAfter_frozen (hPlan : Plan start plan) (hOrder : plan = done.map Prod.fst)
    (hFrozen : frozenOwned start row = true) :
    ownerAfter plan start done row = row.sessionId := by
  by_cases hWanted : ∃ written ∈ done, row.frame.id ∈ written.1.1.frameIds
  · obtain ⟨written, hWritten, hin⟩ := hWanted
    rw [ownerAfter_written hPlan hOrder hWritten hin, if_pos hFrozen]
  · rw [ownerAfter_unwanted hOrder fun written hWritten hin => hWanted ⟨written, hWritten, hin⟩,
      if_pos hFrozen]

theorem ownerAfter_mutable (hPlan : Plan start plan) (hOrder : plan = done.map Prod.fst)
    (hMutable : frozenOwned start row = false) {id : Int}
    (hOwner : ownerAfter plan start done row = some id) :
    ∃ written ∈ done, written.2 = id ∧ row.frame.id ∈ written.1.1.frameIds := by
  by_cases hWanted : ∃ written ∈ done, row.frame.id ∈ written.1.1.frameIds
  · obtain ⟨written, hWritten, hin⟩ := hWanted
    rw [ownerAfter_written hPlan hOrder hWritten hin, hMutable, if_neg Bool.false_ne_true] at hOwner
    split at hOwner
    · cases hOwner
    · exact ⟨written, hWritten, Option.some.inj hOwner, hin⟩
  · rw [ownerAfter_unwanted hOrder fun written hWritten hin => hWanted ⟨written, hWritten, hin⟩,
      hMutable, if_neg Bool.false_ne_true] at hOwner
    cases hOwner

theorem frozenOwned_session (h : frozenOwned start row = true) :
    ∃ session ∈ start.sessions, row.sessionId = some session.id ∧ session.frozen = true := by
  obtain ⟨id, hOwner, hAny⟩ := (Option.any_eq_true ..).mp h
  obtain ⟨session, hMem, hcond⟩ := List.any_eq_true.mp hAny
  simp only [Bool.and_eq_true, beq_iff_eq] at hcond
  exact ⟨session, hMem, by rw [hOwner, hcond.1], hcond.2⟩

/-- No entry is written to a row the pass found frozen. -/
theorem Rows.written_ne_frozen (h : Rows start plan done [] db) (hStart : start.WellFormed)
    (hPlan : Plan start plan) (hOrder : plan = done.map Prod.fst) {session : Session}
    (hMem : session ∈ start.sessions) (hFrozen : session.frozen = true) :
    ∀ written ∈ done, written.2 ≠ session.id := by
  intro written hWritten heq
  obtain ⟨there, hThere, hid⟩ := h.frozen_present hMem hFrozen
  have hrec := h.written_row hStart hPlan hOrder hWritten hThere (hid.trans heq.symm)
  have hfrozen := h.frozen_row hStart hPlan (by rw [hOrder, List.append_nil]) hMem hFrozen there
    hThere hid
  have := congrArg NewSession.frozen hrec
  rw [show (recorded there).frozen = there.frozen from rfl, hfrozen] at this
  cases this

/-- The frozen sessions own what they owned, and nothing else. -/
theorem frozenOwned_after (h : Rows start plan done [] db) (hStart : start.WellFormed)
    (hPlan : Plan start plan) (hOrder : plan = done.map Prod.fst) (row : FrameRow) :
    frozenOwned db { row with sessionId := ownerAfter plan start done row } =
      frozenOwned start row := by
  cases hFrozen : frozenOwned start row with
  | true =>
    obtain ⟨session, hMem, hOwner, hSession⟩ := frozenOwned_session hFrozen
    obtain ⟨there, hThere, hid⟩ := h.frozen_present hMem hSession
    rw [frozenOwned, ownerAfter_frozen hPlan hOrder hFrozen, hOwner, Option.any_some,
      List.any_eq_true]
    refine ⟨there, hThere, ?_⟩
    simp [hid, h.frozen_row hStart hPlan (by rw [hOrder, List.append_nil]) hMem hSession there
      hThere hid]
  | false =>
    rw [frozenOwned, Option.any_eq_false]
    intro id hOwner
    obtain ⟨written, hWritten, rfl, -⟩ := ownerAfter_mutable hPlan hOrder hFrozen hOwner
    rw [List.any_eq_false]
    intro session hMem hcond
    simp only [Bool.and_eq_true, beq_iff_eq] at hcond
    have hrec := h.written_row hStart hPlan hOrder hWritten hMem hcond.1
    have := congrArg NewSession.frozen hrec
    rw [show (recorded session).frozen = session.frozen from rfl, hcond.2] at this
    cases this

/-- The rows and the drafts, whatever happens to the frames. -/
theorem Rows.perm (h : Rows start plan done [] db) (hStart : start.WellFormed)
    (hPlan : Plan start plan) (hOrder : plan = done.map Prod.fst) :
    ((db.sessions.filter fun session => !session.frozen).map fun session =>
      (session.id, recorded session)).Perm
      (done.map fun written => (written.2, written.1.1.asNewSession false)) := by
  refine (List.perm_ext_iff_of_nodup ?_ ?_).mpr ?_
  · refine List.Nodup.of_map Prod.fst ?_
    rw [List.map_map]
    exact h.keys.sublist (List.filter_sublist.map _)
  · refine List.Nodup.of_map Prod.fst ?_
    rw [List.map_map]
    exact h.distinct
  · rintro ⟨id, new⟩
    simp only [List.mem_map, List.mem_filter, Bool.not_eq_true', Prod.mk.injEq]
    constructor
    · rintro ⟨session, ⟨hMem, hMutable⟩, rfl, rfl⟩
      rcases h.rows session hMem with ⟨hFrozen, -⟩ | ⟨written, hWritten, hid, hrec⟩ |
          ⟨-, -, _, he, -⟩
      · rw [hFrozen] at hMutable
        cases hMutable
      · exact ⟨written, hWritten, hid, hrec.symm⟩
      · cases he
    · rintro ⟨written, hWritten, rfl, rfl⟩
      obtain ⟨session, hMem, hid⟩ := h.written_present hPlan hOrder hWritten
      have hrec := h.written_row hStart hPlan hOrder hWritten hMem hid
      exact ⟨session, ⟨hMem, congrArg NewSession.frozen hrec⟩, hid, hrec⟩

end

section

variable {start after : SchedulerDb}

theorem writtenPlan_drafts (plan : List (SessionDraft × Option Int)) (start : Tables) :
    (writtenPlan plan start).map (fun written => written.1.1) = plan.map Prod.fst := by
  conv_rhs => rw [← writtenPlan_fst plan start]
  rw [List.map_map]
  rfl

theorem Midway.frame_mem {done : List WrittenEntry}
    (h : Midway segmenter start plan done [] after) {row : FrameRow}
    (hRow : row ∈ start.tables.frames) :
    { row with sessionId := ownerAfter plan start.tables done row } ∈ after.tables.frames := by
  rw [h.owners]
  exact List.mem_map_of_mem hRow

/-- When no id is reused, everything a draft wants is its row's. -/
theorem Midway.reconciled
    (h : Midway segmenter start plan (writtenPlan plan start.tables) [] after)
    (hStart : start.tables.WellFormed) (hPlan : Plan start.tables plan)
    (hNoReuse : NoReuse plan start.tables) :
    Reconciled (plan.map Prod.fst) after.tables (rowIds (keptIds plan start.tables) plan) := by
  have hOrder := (writtenPlan_fst plan start.tables).symm
  rw [← writtenPlan_drafts plan start.tables, ← writtenPlan_snd]
  unfold NoReuse at hNoReuse
  generalize writtenPlan plan start.tables = done at h hOrder hNoReuse
  refine ⟨by simp, h.rows.distinct, ?_, ?_⟩
  · rw [List.map_map, List.zip_map']
    exact h.rows.perm hStart hPlan hOrder
  · rw [List.zip_map']
    intro entry hEntry row' hRow'
    obtain ⟨written, hWritten, rfl⟩ := List.mem_map.mp hEntry
    rw [h.owners] at hRow'
    obtain ⟨row, hRow, rfl⟩ := List.mem_map.mp hRow'
    rw [frozenOwned_after h.rows hStart hPlan hOrder]
    dsimp only
    constructor
    · intro hOwner
      have hMutable : frozenOwned start.tables row = false := by
        by_contra hFrozen
        rw [Bool.not_eq_false] at hFrozen
        obtain ⟨session, hMem, hSession, hSessionFrozen⟩ := frozenOwned_session hFrozen
        rw [ownerAfter_frozen hPlan hOrder hFrozen, hSession] at hOwner
        exact h.rows.written_ne_frozen hStart hPlan hOrder hMem hSessionFrozen written hWritten
          (Option.some.inj hOwner).symm
      obtain ⟨other, hOther, hid, hin⟩ := ownerAfter_mutable hPlan hOrder hMutable hOwner
      rw [← List.inj_on_of_nodup_map h.rows.distinct hOther hWritten hid]
      exact ⟨hin, hMutable⟩
    · rintro ⟨hWanted, hMutable⟩
      rw [ownerAfter_written hPlan hOrder hWritten hWanted, hMutable, if_neg Bool.false_ne_true,
        if_neg fun hreused => hNoReuse written hWritten hreused.1 row hRow hWanted hreused.2]

/-- A reused id leaves a wanted frame without a session. -/
theorem Midway.lost_frame
    (h : Midway segmenter start plan (writtenPlan plan start.tables) [] after)
    (hStart : start.tables.WellFormed) (hPlan : Plan start.tables plan)
    (hReuse : ¬ NoReuse plan start.tables) :
    ∃ draft ∈ plan.map Prod.fst, ∃ row ∈ after.tables.frames, row.frame.id ∈ draft.frameIds ∧
      frozenOwned after.tables row = false ∧ row.sessionId = none := by
  have hOrder := (writtenPlan_fst plan start.tables).symm
  rw [← writtenPlan_drafts plan start.tables]
  unfold NoReuse at hReuse
  generalize writtenPlan plan start.tables = done at h hOrder hReuse
  push Not at hReuse
  obtain ⟨written, hWritten, hNew, row, hRow, hWanted, hOwner⟩ := hReuse
  have hMutable : frozenOwned start.tables row = false := by
    by_contra hFrozen
    rw [Bool.not_eq_false] at hFrozen
    obtain ⟨session, hMem, hSession, hSessionFrozen⟩ := frozenOwned_session hFrozen
    exact h.rows.written_ne_frozen hStart hPlan hOrder hMem hSessionFrozen written hWritten
      (Option.some.inj (hOwner.symm.trans hSession))
  refine ⟨written.1.1, List.mem_map_of_mem hWritten, _, h.frame_mem hRow, hWanted,
    (frozenOwned_after h.rows hStart hPlan hOrder row).trans hMutable, ?_⟩
  rw [ownerAfter_written hPlan hOrder hWritten hWanted, hMutable, if_neg Bool.false_ne_true,
    if_pos ⟨hNew, hOwner⟩]

end

/-- **When a pass reconciles.** After a pass that returns, the unfrozen sessions
are the trimmed drafts and own their frames, exactly when no new row has got the
id of a deleted row that owned a frame of its draft. -/
theorem reconciled_iff (env : Surroundings) (segmenter : SessionSegmenter) (nowMs : Int)
    (current : Settings) (before : Proc SchedulerDb KernelEvent)
    (hKeys : before.store.tables.WellFormed) (changed : Bool)
    (hOk : (runIncrementalPass env segmenter nowMs current before).1 = .ok changed) :
    (∃ ids, Reconciled (liveDrafts segmenter nowMs current before.store.tables)
        (runIncrementalPass env segmenter nowMs current before).2.store.tables ids) ↔
      NoReuse (livePlan segmenter nowMs current before.store.tables) before.store.tables := by
  have hPlan := livePlan_plan segmenter nowMs current hKeys
  have h := (runIncrementalPass_leaves env segmenter nowMs current hKeys).ok rfl hOk
  rw [← livePlan_drafts]
  constructor
  · rintro ⟨ids, hReconciled⟩
    by_contra hReuse
    obtain ⟨draft, hDraft, row, hRow, hWanted, hMutable, hNone⟩ := h.lost_frame hKeys hPlan hReuse
    exact hReconciled.owner_isSome hDraft hRow hWanted hMutable hNone
  · intro hNoReuse
    exact ⟨_, h.reconciled hKeys hPlan hNoReuse⟩

/-! ## A row that is written anew -/

/-- Nothing fails, and no time passes. -/
def calm : Surroundings where
  fails := fun _ => false
  clock := fun _ => 0

def noTools : SessionSegmenter := sessionEngine id .stored ⟨3, []⟩ fun _ _ => []

def fiveMinutes : Settings where
  sessionsMinLenSecs := 300
  sessionsGapCloseSecs := 300

/-- Frames of one app, a row every given minute. -/
def seen (first : Int) (app : String) (owner : Option Int) (minutes : List Int) :
    List FrameRow :=
  minutes.zipIdx.map fun (minute, index) =>
    { frame :=
        { id := first + index, capturedAt := minute * 60000, appHint := some app
          windowTitle := none, browserUrl := none }
      sessionId := owner }

def focusRow (contextKey : String) : Session where
  id := 1
  startedAt := 0
  endedAt := none
  kind := .focus
  tool := none
  host := none
  contextKey := contextKey
  title := none
  summary := none
  summaryModel := none
  confidence := 1
  frozen := false
  createdAt := 0
  updatedAt := 0

def editorFrames : List FrameRow :=
  seen 1 "vim" (some 1) [0, 2, 4, 6, 8, 10] ++ seen 7 "code" none [12, 14, 16, 18, 20, 22, 24]

/-- Ten minutes of one editor in a row of their own, then twelve of another. -/
def twoEditors (contextKey : String) : SchedulerDb where
  tables :=
    { frames := editorFrames
      sessions := [focusRow contextKey]
      artifacts := [] }
  frameText := []
  backfillMarker := none

theorem twoEditors_wellFormed (contextKey : String) :
    (twoEditors contextKey).tables.WellFormed where
  frameIds := show (editorFrames.map fun row => row.frame.id).Nodup by decide
  sessionIds := by simp [twoEditors]
  references := by
    intro row hRow id hOwner
    refine ⟨focusRow contextKey, by simp [twoEditors], ?_⟩
    have hone : ∀ row ∈ editorFrames, row.sessionId = none ∨ row.sessionId = some 1 := by decide
    rcases hone row hRow with h | h
    · rw [h] at hOwner
      cases hOwner
    · exact Option.some.inj (h.symm.trans hOwner)

/-- The row keeps its key, and the pass reconciles. -/
theorem reconciled_iff_twoEditors :
    (∃ ids, Reconciled
        (liveDrafts noTools 1500000 fiveMinutes (twoEditors "focus:code").tables)
        (runIncrementalPass calm noTools 1500000 fiveMinutes
          (Proc.start (twoEditors "focus:code"))).2.store.tables ids) ↔
      NoReuse (livePlan noTools 1500000 fiveMinutes (twoEditors "focus:code").tables)
        (twoEditors "focus:code").tables :=
  reconciled_iff calm noTools 1500000 fiveMinutes (Proc.start (twoEditors "focus:code"))
    (twoEditors_wellFormed _) true (by decide +kernel)

/-- The longer second editor gives the session another key: its row is deleted,
the new row gets the same id, and the frames of the first editor are left without
a session. -/
theorem twoEditors_not_reconciled :
    (twoEditors "focus:vim").tables.WellFormed ∧
      (runIncrementalPass calm noTools 1500000 fiveMinutes
        (Proc.start (twoEditors "focus:vim"))).1 = .ok true ∧
      ¬ ∃ ids, Reconciled
        (liveDrafts noTools 1500000 fiveMinutes (twoEditors "focus:vim").tables)
        (runIncrementalPass calm noTools 1500000 fiveMinutes
          (Proc.start (twoEditors "focus:vim"))).2.store.tables ids := by
  refine ⟨twoEditors_wellFormed _, by decide +kernel, ?_⟩
  rintro ⟨ids, hReconciled⟩
  have hLost : ∃ draft ∈ liveDrafts noTools 1500000 fiveMinutes (twoEditors "focus:vim").tables,
      ∃ row ∈ (runIncrementalPass calm noTools 1500000 fiveMinutes
          (Proc.start (twoEditors "focus:vim"))).2.store.tables.frames,
        row.frame.id ∈ draft.frameIds ∧
          frozenOwned (runIncrementalPass calm noTools 1500000 fiveMinutes
            (Proc.start (twoEditors "focus:vim"))).2.store.tables row = false ∧
          row.sessionId = none := by
    decide +kernel
  obtain ⟨draft, hDraft, row, hRow, hWanted, hMutable, hNone⟩ := hLost
  exact hReconciled.owner_isSome hDraft hRow hWanted hMutable hNone

end ScreenSearch.Kernel
