import Mathlib.Data.List.Zip
import ScreenSearch.Kernel.Reconcile
import ScreenSearch.Sessions.Closed

/-!
# A pass after a pass

What a second pass does to a store the first one has left. A draft finds its own
row again when it lasts: an overlap of no length is no match.

Main results:

* `matchUnused_own` — lasting drafts with distinct starts are matched with their
  rows;
* `runIncrementalPass_idle` — a pass over rows that are current already is a no-op.
-/

namespace ScreenSearch.Kernel

open Process Sorting Store Sessions

/-! ## Matching its own row -/

/-- No overlap is longer than the draft. -/
theorem overlapMs_le {draft : SessionDraft} {session : Session} {nowMs overlap : Int}
    (h : overlapMs draft session nowMs = some overlap) :
    0 < overlap ∧ overlap ≤ draft.endedAt - draft.startedAt ∧
      (overlap = draft.endedAt - draft.startedAt → session.startedAt ≤ draft.startedAt) := by
  unfold overlapMs at h
  dsimp only at h
  split at h
  · cases h
    refine ⟨by assumption, ?_, ?_⟩ <;> omega
  · cases h

/-- A draft without length matches nothing. -/
theorem bestMatch_instant {draft : SessionDraft} (h : draft.endedAt ≤ draft.startedAt)
    (existing : List Session) (used : List Int) (nowMs : Int) :
    bestMatch draft existing used nowMs = none := by
  rw [bestMatch, Option.map_eq_none_iff, maxByKey_eq_none]
  refine List.filterMap_eq_nil_iff.mpr fun session _ => ?_
  rw [Option.map_eq_none_iff]
  cases hOverlap : overlapMs draft session nowMs with
  | none => rfl
  | some overlap =>
    have := overlapMs_le hOverlap
    omega

theorem overlapMs_own {draft : SessionDraft} {row : Session} {nowMs : Int}
    (hRecorded : recorded row = draft.asNewSession false) (hPast : draft.endedAt ≤ nowMs)
    (hLasts : draft.startedAt < draft.endedAt) :
    overlapMs draft row nowMs = some (draft.endedAt - draft.startedAt) := by
  have hStart : row.startedAt = draft.startedAt := congrArg NewSession.startedAt hRecorded
  have hEnd : row.endedAt = if draft.isOpen then none else some draft.endedAt :=
    congrArg NewSession.endedAt hRecorded
  have hOverlap : min draft.endedAt (row.endedAt.getD nowMs) -
      max draft.startedAt row.startedAt = draft.endedAt - draft.startedAt := by
    rw [hStart, hEnd]
    cases draft.isOpen <;> simp only [if_true, if_false, Bool.false_eq_true, Option.getD_none,
      Option.getD_some] <;> omega
  unfold overlapMs
  dsimp only
  rw [hOverlap, if_pos (by omega)]

/-- The row of a draft beats every row that starts elsewhere. -/
theorem bestMatch_own {draft : SessionDraft} {existing : List Session} {used : List Int}
    {nowMs : Int} {row : Session} (hRow : row ∈ existing)
    (hRecorded : recorded row = draft.asNewSession false) (hPast : draft.endedAt ≤ nowMs)
    (hLasts : draft.startedAt < draft.endedAt) (hFresh : row.id ∉ used)
    (hStarts : ∀ other ∈ existing, other.contextKey = row.contextKey →
      other.startedAt = row.startedAt → other = row) :
    bestMatch draft existing used nowMs = some row.id := by
  have hStart : row.startedAt = draft.startedAt := congrArg NewSession.startedAt hRecorded
  have hKey : row.contextKey = draft.contextKey := congrArg NewSession.contextKey hRecorded
  have hMutable : row.frozen = false := congrArg NewSession.frozen hRecorded
  unfold bestMatch
  dsimp only
  set overlapping := (existing.filter fun session => !session.frozen &&
    session.contextKey == draft.contextKey && decide (session.id ∉ used)).filterMap
      fun session => (overlapMs draft session nowMs).map fun overlap => (session, overlap)
    with hOverlapping
  have hOwn : (row, draft.endedAt - draft.startedAt) ∈ overlapping := by
    refine List.mem_filterMap.mpr ⟨row, List.mem_filter.mpr ⟨hRow, ?_⟩, ?_⟩
    · simp [hMutable, hKey, hFresh]
    · rw [overlapMs_own hRecorded hPast hLasts, Option.map_some]
  cases hBest : maxByKey (fun entry : Session × Int =>
      toLex (entry.2, toLex (OrderDual.toDual |draft.startedAt - entry.1.startedAt|,
        OrderDual.toDual entry.1.id))) overlapping with
  | none =>
    rw [maxByKey_eq_none] at hBest
    rw [hBest] at hOwn
    cases hOwn
  | some best =>
    obtain ⟨hMem, hMax⟩ := maxByKey_spec _ hBest
    have hle := hMax _ hOwn
    obtain ⟨other, hOther, hEntry⟩ := List.mem_filterMap.mp hMem
    obtain ⟨overlap, hOverlap, rfl⟩ := Option.map_eq_some_iff.mp hEntry
    obtain ⟨hIn, hcond⟩ := List.mem_filter.mp hOther
    simp only [Bool.and_eq_true, beq_iff_eq] at hcond
    obtain ⟨-, hShort, hTouch⟩ := overlapMs_le hOverlap
    -- a longest overlap starts no later, and then a distance of zero is best
    have hLongest : overlap = draft.endedAt - draft.startedAt := by
      rcases (Prod.Lex.le_iff ..).mp hle with hlt | ⟨heq, -⟩
      · exact absurd hlt (not_lt.mpr hShort)
      · exact heq.symm
    have hNear : |draft.startedAt - other.startedAt| ≤ 0 := by
      rcases (Prod.Lex.le_iff ..).mp hle with hlt | ⟨-, hle⟩
      · exact absurd hlt (not_lt.mpr hShort)
      rcases (Prod.Lex.le_iff ..).mp hle with hlt | ⟨heq, -⟩
      · have hlt := OrderDual.toDual_lt_toDual.mp hlt
        rw [hStart, sub_self, abs_zero] at hlt
        exact hlt.le
      · have heq := OrderDual.toDual_inj.mp heq
        rw [hStart, sub_self, abs_zero] at heq
        exact heq.symm.le
    have hSame : other.startedAt = row.startedAt := by
      have := abs_nonpos_iff.mp hNear
      omega
    rw [Option.map_some, hStarts other hIn (hcond.1.2.trans hKey.symm) hSame]

/-- Every draft finds its own row, whichever went before. -/
theorem matchUnused_own {existing : List Session} {nowMs : Int}
    {pairs : List (SessionDraft × Int)} {used : List Int}
    (hRows : ∀ pair ∈ pairs, ∃ row ∈ existing, row.id = pair.2 ∧
      recorded row = pair.1.asNewSession false)
    (hPast : ∀ pair ∈ pairs, pair.1.endedAt ≤ nowMs)
    (hLasts : ∀ pair ∈ pairs, pair.1.startedAt < pair.1.endedAt)
    (hStarts : ∀ a ∈ existing, ∀ b ∈ existing, a.contextKey = b.contextKey →
      a.startedAt = b.startedAt → a = b)
    (hDistinct : (pairs.map Prod.snd).Nodup) (hFresh : ∀ pair ∈ pairs, pair.2 ∉ used) :
    matchUnused existing nowMs used (pairs.map Prod.fst) =
      pairs.map fun pair => some pair.2 := by
  induction pairs generalizing used with
  | nil => rfl
  | cons pair pairs ih =>
    obtain ⟨row, hRow, hid, hRecorded⟩ := hRows pair (List.mem_cons_self ..)
    have hBest : bestMatch pair.1 existing used nowMs = some pair.2 := by
      rw [← hid]
      exact bestMatch_own hRow hRecorded (hPast pair (List.mem_cons_self ..))
        (hLasts pair (List.mem_cons_self ..)) (hid ▸ hFresh pair (List.mem_cons_self ..))
        fun other hOther => hStarts other hOther row hRow
    rw [List.map_cons, matchUnused, hBest, List.map_cons]
    obtain ⟨hHead, hTail⟩ := List.nodup_cons.mp hDistinct
    rw [ih (fun p hp => hRows p (List.mem_cons_of_mem _ hp))
      (fun p hp => hPast p (List.mem_cons_of_mem _ hp))
      (fun p hp => hLasts p (List.mem_cons_of_mem _ hp)) hTail]
    intro p hp hin
    rcases List.mem_cons.mp hin with heq | hin
    · exact hHead (heq ▸ List.mem_map_of_mem hp)
    · exact hFresh p (List.mem_cons_of_mem _ hp) hin

/-! ## Reading a reconciled store -/

section

variable {drafts : List SessionDraft} {db : Tables} {ids : List Int}

end

/-! ## Loops that do nothing -/

/-- The program returns `a` and leaves the store alone. -/
def Idle {α : Type} (x : SchedulerProgram α) (db : SchedulerDb) (Q : α → Prop) : Prop :=
  Ends x db (fun a db' => db' = db ∧ Q a) fun _ => False

theorem Idle.bind {α β : Type} {x : SchedulerProgram α} {f : α → SchedulerProgram β}
    {db : SchedulerDb} {R : α → Prop} {Q : β → Prop} (hx : Idle x db R)
    (hf : ∀ a, R a → Idle (f a) db Q) : Idle (x >>= f) db Q := by
  refine Ends.bind hx ?_
  rintro a db' ⟨rfl, ha⟩
  exact hf a ha

theorem Idle.pure {α : Type} {a : α} {db : SchedulerDb} {Q : α → Prop} (h : Q a) :
    Idle (pure a) db Q := Ends.pure ⟨rfl, h⟩

variable {env : Surroundings} {segmenter : SessionSegmenter}
  {plan : List (SessionDraft × Option Int)} {db : SchedulerDb}

theorem query_idle {α : Type} (hCalm : ∀ n, env.fails n = false) (read : SchedulerDb → α) :
    Idle (env.query read) db fun a => a = read db :=
  query_ends (fun n hn => by simp [hCalm n] at hn) ⟨rfl, rfl⟩

theorem assign_idle (hCalm : ∀ n, env.fails n = false) {ids : List Int} {sessionId : Option Int}
    (hNodup : ids.Nodup)
    (hExists : ∀ id, sessionId = some id → ∃ row ∈ db.tables.sessions, row.id = id)
    (hNone : ∀ row ∈ db.tables.frames, isAssigned ids db.tables row = false) :
    Idle (env.execute fun _ => assignFramesSession ids sessionId) db fun count => count = 0 := by
  have hNoop := assignFramesSession_noop hNodup hExists hNone
  refine execute_ends (fun n hn => by simp [hCalm n] at hn) ?_ ?_
  · intro _ error herror
    rw [hNoop] at herror
    cases herror
  · intro _ count tables hok
    rw [hNoop] at hok
    cases hok
    exact ⟨rfl, rfl⟩

theorem releaseStale_idle (hCalm : ∀ n, env.fails n = false) {existing : List Session}
    (done : List Int) {owned : List (Int × List Int)}
    (hExisting : ∀ session ∈ existing, ∃ draft, desiredByExisting plan session.id = some draft ∧
      ∀ row ∈ db.tables.frames, row.sessionId = some session.id → row.frame.id ∈ draft.frameIds)
    (hOwned : Snapshot db.tables done owned) :
    Idle (releaseStale env plan owned existing) db fun result =>
      result.1 = false ∧ Snapshot db.tables (done ++ existing.map Session.id) result.2 := by
  induction existing generalizing done owned with
  | nil => exact Idle.pure ⟨rfl, by simpa using hOwned⟩
  | cons session existing ih =>
    obtain ⟨draft, hdesired, hin⟩ := hExisting session (List.mem_cons_self ..)
    rw [releaseStale]
    refine Idle.bind (query_idle hCalm _) ?_
    rintro frames rfl
    have hMem : ∀ x, x ∈ (sessionFramesMeta session.id db.tables).map SegmenterFrame.id ↔
        ∃ row ∈ db.tables.frames, row.frame.id = x ∧ row.sessionId = some session.id :=
      fun x => mem_sessionFramesMeta (withOwners_self db.tables).symm
    dsimp only
    generalize (sessionFramesMeta session.id db.tables).map SegmenterFrame.id = ids at hMem
    have hStale : (ids.filter fun id => decide (id ∉ draft.frameIds)) = [] := by
      rw [List.filter_eq_nil_iff]
      intro x hx
      obtain ⟨row, hrow, rfl, howner⟩ := (hMem x).mp hx
      simpa using hin row hrow howner
    refine Idle.bind (R := fun released => released = false) ?_ ?_
    · rw [releaseRow, hdesired]
      dsimp only
      rw [hStale]
      refine Idle.bind (assign_idle hCalm List.nodup_nil (by simp) fun row _ => by
        simp [isAssigned]) ?_
      rintro count rfl
      exact Idle.pure rfl
    · rintro released rfl
      refine Idle.bind (ih (done ++ [session.id])
        (fun s hs => hExisting s (List.mem_cons_of_mem _ hs)) ?_) ?_
      · intro id x
        rw [List.lookup_cons]
        by_cases hid : id = session.id
        · subst hid
          simp [hMem x]
        · have hne : (id == session.id) = false := beq_false_of_ne hid
          simp only [hne, hOwned id x, List.mem_append, List.mem_singleton, hid, or_false]
      · rintro ⟨changed, owned'⟩ ⟨hchanged, hsnapshot⟩
        refine Idle.pure ⟨hchanged, ?_⟩
        rwa [List.append_assoc, List.singleton_append] at hsnapshot

theorem deleteUnmatched_idle {existing : List Session}
    (hMatched : ∀ session ∈ existing, some session.id ∈ plan.map Prod.snd) :
    Idle (deleteUnmatched env plan existing) db fun changed => changed = false := by
  induction existing with
  | nil => exact Idle.pure rfl
  | cons session existing ih =>
    rw [deleteUnmatched, deleteRow, if_pos (hMatched session (List.mem_cons_self ..))]
    refine Idle.bind (Idle.pure rfl) ?_
    rintro deleted rfl
    refine Idle.bind (ih fun s hs => hMatched s (List.mem_cons_of_mem _ hs)) ?_
    rintro changed rfl
    exact Idle.pure rfl

/-- What makes writing an entry superfluous. -/
structure Current (segmenter : SessionSegmenter) (db : SchedulerDb) (draft : SessionDraft)
    (id : Int) : Prop where
  row : ∃ row ∈ db.tables.sessions, row.id = id ∧ row.frozen = false ∧
    recorded row = draft.asNewSession false
  nodup : draft.frameIds.Nodup
  frames : ∀ row ∈ db.tables.frames, row.frame.id ∈ draft.frameIds →
    row.sessionId = some id ∨ frozenOwned db.tables row = true
  exchanges : draft.kind = .ai →
    storedExchanges (listSessionArtifacts id db.tables) = wantedExchanges segmenter db draft

theorem refreshIfAi_idle (hCalm : ∀ n, env.fails n = false) {draft : SessionDraft} {id : Int}
    (h : Current segmenter db draft id) :
    Idle (refreshIfAi env segmenter id draft) db fun changed => changed = false := by
  unfold refreshIfAi
  by_cases hAi : draft.kind = .ai
  · rw [if_pos hAi, refreshExchanges]
    refine Idle.bind (query_idle hCalm _) ?_
    rintro contents rfl
    refine Idle.bind (query_idle hCalm _) ?_
    rintro listed rfl
    have hSame := h.exchanges hAi
    unfold wantedExchanges at hSame
    rw [if_pos hSame]
    exact Idle.pure rfl
  · rw [if_neg hAi]
    exact Idle.pure rfl

theorem writeDraft_idle (hCalm : ∀ n, env.fails n = false) (hKeys : db.tables.WellFormed)
    {owned : List (Int × List Int)}
    (hOwned : Snapshot db.tables (unfrozenIds db.tables) owned) {draft : SessionDraft} {id : Int}
    (h : Current segmenter db draft id) :
    Idle (writeDraft env segmenter (unfrozenSessions db.tables) owned (draft, some id)) db
      fun changed => changed = false := by
  obtain ⟨row, hRow, hid, hMutable, hRecorded⟩ := h.row
  have hUnfrozen : id ∈ unfrozenIds db.tables := mem_unfrozenIds.mpr ⟨row, hRow, hid, hMutable⟩
  have hfound : ((unfrozenSessions db.tables).find? fun session => session.id == id) =
      some row := by
    cases hfind : (unfrozenSessions db.tables).find? (fun session => session.id == id) with
    | none =>
      exact absurd (by simp [hid])
        (List.find?_eq_none.mp hfind row (unfrozenSessions_mem.mpr ⟨hRow, hMutable⟩))
    | some other =>
      have hother := List.find?_some hfind
      rw [beq_iff_eq] at hother
      rw [hKeys.session_unique (unfrozenSessions_mem.mp (List.mem_of_find?_eq_some hfind)).1
        hRow (hother.trans hid.symm)]
  rw [writeDraft]
  refine Idle.bind (R := fun target => target = (some id, false)) ?_ ?_
  · dsimp only
    rw [targetSession, hfound, Option.any_some, sessionMatchesDraft_iff.mpr hRecorded]
    exact Idle.pure rfl
  · rintro target rfl
    dsimp only
    refine Idle.bind (assign_idle hCalm (h.nodup.filter _) ?_ ?_) ?_
    · intro other hother
      exact ⟨row, hRow, hid.trans (Option.some.inj hother)⟩
    · intro frame hFrame
      rw [isAssigned, Bool.and_eq_false_iff]
      by_cases hin : frame.frame.id ∈ draft.frameIds
      · rcases h.frames frame hFrame hin with howner | hfrozen
        · left
          have hsnap := (hOwned id frame.frame.id).mpr ⟨hUnfrozen, frame, hFrame, rfl, howner⟩
          simp [hsnap]
        · right
          obtain ⟨session, hMem, howner, hSession⟩ := frozenOwned_session hfrozen
          exact assignable_eq_false hKeys hMem hSession howner
      · left
        simp [hin]
    · rintro count rfl
      refine Idle.bind (refreshIfAi_idle hCalm h) ?_
      rintro refreshed rfl
      exact Idle.pure rfl

theorem writeDrafts_idle (hCalm : ∀ n, env.fails n = false) (hKeys : db.tables.WellFormed)
    {owned : List (Int × List Int)}
    (hOwned : Snapshot db.tables (unfrozenIds db.tables) owned)
    {pairs : List (SessionDraft × Int)}
    (h : ∀ pair ∈ pairs, Current segmenter db pair.1 pair.2) :
    Idle (writeDrafts env segmenter (unfrozenSessions db.tables) owned
      (pairs.map fun pair => (pair.1, some pair.2))) db fun changed => changed = false := by
  induction pairs with
  | nil => exact Idle.pure rfl
  | cons pair pairs ih =>
    rw [List.map_cons, writeDrafts]
    refine Idle.bind (writeDraft_idle hCalm hKeys hOwned (h pair (List.mem_cons_self ..))) ?_
    rintro written rfl
    refine Idle.bind (ih fun p hp => h p (List.mem_cons_of_mem _ hp)) ?_
    rintro changed rfl
    exact Idle.pure rfl

/-! ## The plan of the second pass -/

theorem frameTime_mem {frames : List SegmenterFrame} {id time : Int}
    (h : frameTime frames id = some time) : ∃ frame ∈ frames, frame.capturedAt = time := by
  obtain ⟨frame, hFound, hTime⟩ := Option.map_eq_some_iff.mp h
  exact ⟨frame, List.mem_reverse.mp (List.mem_of_find?_eq_some hFound), hTime⟩

theorem framesMetaInRange_mem {tables : Tables} {fromMs toMs : Int} {frame : SegmenterFrame}
    (h : frame ∈ framesMetaInRange fromMs toMs tables) :
    (∃ row ∈ tables.frames, row.frame = frame) ∧ fromMs ≤ frame.capturedAt ∧
      frame.capturedAt < toMs := by
  unfold framesMetaInRange at h
  split at h
  · cases h
  · rw [mem_sortByKey, List.mem_filter] at h
    simp only [List.mem_map, Bool.and_eq_true, decide_eq_true_eq] at h
    exact h

/-- The engine's drafts of the live window do not end in the future. -/
theorem liveDrafts_past (lowercase : String → String) (order : Assoc.HashOrder)
    (taxonomy : Taxonomy) (extract : String → List SessionContent → List ExtractedExchange)
    (nowMs : Int) (current : Settings) (tables : Tables) :
    ∀ draft ∈ liveDrafts (sessionEngine lowercase order taxonomy extract) nowMs current tables,
      draft.endedAt ≤ nowMs := by
  intro draft hDraft
  have hFrames : ∀ frame ∈ liveFrames nowMs current tables,
      liveStart nowMs current tables ≤ frame.capturedAt ∧ frame.capturedAt ≤ nowMs := by
    intro frame hFrame
    obtain ⟨-, hFrom, hTo⟩ := framesMetaInRange_mem hFrame
    exact ⟨hFrom, by omega⟩
  obtain ⟨raw, hRaw, hTrim⟩ := List.mem_filterMap.mp hDraft
  split at hTrim
  · obtain ⟨-, -, -, -, hMax⟩ := retainFrames_some hTrim
    obtain ⟨id, -, hTime⟩ := List.mem_filterMap.mp (List.max?_mem hMax)
    obtain ⟨frame, hFrame, heq⟩ := frameTime_mem hTime
    rw [← heq]
    exact (hFrames frame hFrame).2
  · cases hTrim
    rw [sessionEngine_segment] at hRaw
    have hWithin := segment_within lowercase order taxonomy (paramsFromSettings nowMs current)
      hFrames
    obtain ⟨-, -, -, hEnd⟩ := hWithin draft hRaw
    exact hEnd

/-- A pass leaves the keys of the tables in order. -/
theorem Midway.wellFormed {start after : SchedulerDb} {done : List WrittenEntry}
    (h : Midway segmenter start plan done [] after) (hStart : start.tables.WellFormed)
    (hPlan : Plan start.tables plan) (hOrder : plan = done.map Prod.fst) :
    after.tables.WellFormed := by
  refine ⟨?_, h.rows.keys, ?_⟩
  · have hids := congrArg (List.map SegmenterFrame.id)
      (withOwners_frame start.tables (ownerAfter plan start.tables done))
    rw [List.map_map, List.map_map, ← h.owners] at hids
    change (after.tables.frames.map (SegmenterFrame.id ∘ FrameRow.frame)).Nodup
    rw [hids]
    exact hStart.frameIds
  · intro row' hRow' id hOwner
    rw [h.owners] at hRow'
    obtain ⟨row, hRow, rfl⟩ := List.mem_map.mp hRow'
    dsimp only at hOwner
    cases hFrozen : frozenOwned start.tables row with
    | true =>
      obtain ⟨session, hMem, hSession, hSessionFrozen⟩ := frozenOwned_session hFrozen
      rw [ownerAfter_frozen hPlan hOrder hFrozen, hSession] at hOwner
      obtain ⟨there, hThere, hid⟩ := h.rows.frozen_present hMem hSessionFrozen
      exact ⟨there, hThere, hid.trans (Option.some.inj hOwner)⟩
    | false =>
      obtain ⟨written, hWritten, rfl, -⟩ := ownerAfter_mutable hPlan hOrder hFrozen hOwner
      exact h.rows.written_present hPlan hOrder hWritten

/-- Every program leaves something. -/
theorem leaves_any {α : Type} (x : SchedulerProgram α) (db : SchedulerDb) :
    Leaves x db fun _ _ => True := by
  intro p _
  cases hrun : x p with
  | mk outcome p' => cases outcome <;> trivial

/-- A draft without a row makes the pass report a change. -/
theorem writeDrafts_unmatched (env : Surroundings) (existing : List Session)
    (owned : List (Int × List Int)) (hUnmatched : ∃ entry ∈ plan, entry.2 = none) :
    Leaves (writeDrafts env segmenter existing owned plan) db fun changed _ => changed = true := by
  induction plan generalizing db with
  | nil => obtain ⟨entry, hEntry, -⟩ := hUnmatched; cases hEntry
  | cons entry plan ih =>
    rw [writeDrafts]
    by_cases hHead : entry.2 = none
    · have hWrite : Leaves (writeDraft env segmenter existing owned entry) db
          fun written _ => written = true := by
        rw [writeDraft, hHead, targetSession]
        refine Ends.bind (R := fun target _ => target.2 = true)
          (Ends.bind (leaves_any _ _) fun _ _ _ => Ends.pure rfl) ?_
        rintro ⟨target, written⟩ mid hWritten
        obtain rfl : written = true := hWritten
        dsimp only
        split
        · exact Ends.pure rfl
        · exact Ends.bind (leaves_any _ _) fun _ _ _ => Ends.bind (leaves_any _ _) fun _ _ _ => Ends.pure rfl
      refine Ends.bind hWrite ?_
      rintro written mid rfl
      exact Ends.bind (leaves_any _ _) fun _ _ _ => Ends.pure rfl
    · have hRest : ∃ entry ∈ plan, entry.2 = none := by
        obtain ⟨other, hOther, hNone⟩ := hUnmatched
        rcases List.mem_cons.mp hOther with rfl | hin
        · exact absurd hNone hHead
        · exact ⟨other, hin, hNone⟩
      refine Ends.bind (leaves_any _ _) fun written mid _ => ?_
      refine Ends.bind (ih hRest) ?_
      rintro changed last rfl
      exact Ends.pure (Bool.or_true _)

/-! ## The second pass -/

theorem matchUnused_instant {existing : List Session} {nowMs : Int} {used : List Int}
    {drafts : List SessionDraft} {entry : SessionDraft × Option Int}
    (hEntry : entry ∈ drafts.zip (matchUnused existing nowMs used drafts))
    (hInstant : entry.1.endedAt ≤ entry.1.startedAt) : entry.2 = none := by
  induction drafts generalizing used with
  | nil => cases hEntry
  | cons draft drafts ih =>
    rw [matchUnused, List.zip_cons_cons] at hEntry
    rcases List.mem_cons.mp hEntry with rfl | hin
    · exact bestMatch_instant hInstant existing used nowMs
    · exact ih hin

/-- The pass returns `Ok(false)` and leaves the tables alone. -/
structure NoOp (env : Surroundings) (segmenter : SessionSegmenter) (nowMs : Int)
    (current : Settings) (before : Proc SchedulerDb KernelEvent) : Prop where
  unchanged : (runIncrementalPass env segmenter nowMs current before).1 = .ok false
  tables : (runIncrementalPass env segmenter nowMs current before).2.store.tables =
    before.store.tables

/-- A pass that reports no change has matched all its drafts. -/
theorem NoOp.matched {nowMs : Int} {current : Settings} {before : Proc SchedulerDb KernelEvent}
    (h : NoOp env segmenter nowMs current before) :
    ∀ entry ∈ livePlan segmenter nowMs current before.store.tables, entry.2 ≠ none := by
  intro entry hEntry hNone
  have hChanged : Leaves (runIncrementalPass env segmenter nowMs current) before.store
      fun changed _ => changed = true := by
    refine runIncrementalPass_ends segmenter nowMs current (fun _ _ => trivial) ?_
    rw [applyPlan]
    refine Ends.bind (R := fun _ _ => True) (leaves_any _ _) fun released mid _ => ?_
    refine Ends.bind (R := fun _ _ => True) (leaves_any _ _) fun deleted mid _ => ?_
    refine Ends.bind (writeDrafts_unmatched env _ _ ⟨entry, hEntry, hNone⟩) ?_
    rintro written last rfl
    exact Ends.pure (Bool.or_true _)
  exact absurd (hChanged.ok rfl h.unchanged) Bool.false_ne_true

/-- A store that is reconciled with its own drafts, exchanges included, is left
alone. -/
theorem runIncrementalPass_idle (hCalm : ∀ n, env.fails n = false) {nowMs : Int}
    {current : Settings} (hKeys : db.tables.WellFormed) {pairs : List (SessionDraft × Int)}
    (hPlan : livePlan segmenter nowMs current db.tables =
      pairs.map fun pair => (pair.1, some pair.2))
    (hRows : ∀ session ∈ db.tables.sessions, session.frozen = false → ∃ pair ∈ pairs,
      pair.2 = session.id ∧
        ∀ row ∈ db.tables.frames, row.sessionId = some session.id → row.frame.id ∈ pair.1.frameIds)
    (hPairs : ∀ pair ∈ pairs, Current segmenter db pair.1 pair.2) :
    Idle (runIncrementalPass env segmenter nowMs current) db fun changed => changed = false := by
  have hFacts := livePlan_plan segmenter nowMs current hKeys
  refine runIncrementalPass_ends segmenter nowMs current (fun n hn => by simp [hCalm n] at hn) ?_
  rw [hPlan] at hFacts ⊢
  have hEntry : ∀ pair ∈ pairs, (pair.1, some pair.2) ∈ pairs.map fun pair => (pair.1, some pair.2) :=
    fun pair hPair => List.mem_map.mpr ⟨pair, hPair, rfl⟩
  change Idle (applyPlan _ _ _ _) db _
  rw [applyPlan]
  refine Idle.bind (releaseStale_idle hCalm [] ?_ ?_) ?_
  · intro session hSession
    obtain ⟨hMem, hMutable⟩ := unfrozenSessions_mem.mp hSession
    obtain ⟨pair, hPair, hid, hOwned⟩ := hRows session hMem hMutable
    exact ⟨pair.1, hFacts.desired (hEntry pair hPair) (by rw [hid]), hOwned⟩
  · intro id x
    simp
  rintro ⟨released, owned⟩ ⟨rfl, hOwned⟩
  refine Idle.bind (deleteUnmatched_idle ?_) ?_
  · intro session hSession
    obtain ⟨hMem, hMutable⟩ := unfrozenSessions_mem.mp hSession
    obtain ⟨pair, hPair, hid, -⟩ := hRows session hMem hMutable
    exact List.mem_map.mpr ⟨_, hEntry pair hPair, by rw [hid]⟩
  rintro deleted rfl
  refine Idle.bind (writeDrafts_idle hCalm hKeys hOwned hPairs) ?_
  rintro written rfl
  exact Idle.pure rfl

theorem NoOp.of_idle {nowMs : Int} {current : Settings} {before : Proc SchedulerDb KernelEvent}
    (h : Idle (runIncrementalPass env segmenter nowMs current) before.store
      fun changed => changed = false) : NoOp env segmenter nowMs current before := by
  have hRun := h before rfl
  cases hResult : runIncrementalPass env segmenter nowMs current before with
  | mk outcome after =>
    rw [hResult] at hRun
    cases outcome with
    | error e => exact hRun.elim
    | ok changed =>
      obtain ⟨hStore, rfl⟩ := hRun
      exact ⟨by rw [hResult], by rw [hResult, hStore]⟩

end ScreenSearch.Kernel
