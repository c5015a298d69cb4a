import ScreenSearch.Kernel.LivePlan

/-!
# What a pass takes away

The first two loops of an incremental pass: matched rows give up the frames their
drafts do not want, the other rows are deleted. What they leave is told by a
function from the frame rows the pass found to their owners.

* `releaseStale_leaves`, `deleteUnmatched_leaves` — the loops;
* `dropped_owner` — after both, a frame has its owner still exactly when that is
  frozen or wants it.
-/

namespace ScreenSearch.Kernel

open Process Sorting Store Sessions

/-- The frame rows with other owners. -/
def withOwners (db : Tables) (owner : FrameRow → Option Int) : List FrameRow :=
  db.frames.map fun row => { row with sessionId := owner row }

theorem withOwners_congr {db : Tables} {owner owner' : FrameRow → Option Int}
    (h : ∀ row ∈ db.frames, owner row = owner' row) :
    withOwners db owner = withOwners db owner' :=
  List.map_congr_left fun row hrow => by rw [h row hrow]

theorem withOwners_self (db : Tables) : withOwners db FrameRow.sessionId = db.frames :=
  List.map_id _

theorem withOwners_frame (db : Tables) (owner : FrameRow → Option Int) :
    (withOwners db owner).map FrameRow.frame = db.frames.map FrameRow.frame := by
  rw [withOwners, List.map_map]
  rfl

/-- An owner that an assignment may replace. -/
def replaceable (db : Tables) : Option Int → Bool
  | none => true
  | some id => db.sessions.any fun session => session.id == id && !session.frozen

theorem assignable_eq (db : Tables) (row : FrameRow) :
    assignable db row = replaceable db row.sessionId := rfl

/-- An assignment, told by owners. -/
theorem assignFrames_owners {start db : Tables} {owner : FrameRow → Option Int}
    (h : db.frames = withOwners start owner) (ids : List Int) (sessionId : Option Int) :
    (assignFrames ids sessionId db).frames = withOwners start fun row =>
      if decide (row.frame.id ∈ ids) && replaceable db (owner row) then sessionId
      else owner row := by
  rw [assignFrames, h, withOwners, withOwners, List.map_map]
  refine List.map_congr_left fun row _ => ?_
  rw [Function.comp_apply, reassigned, isAssigned, assignable_eq]
  split <;> rfl

/-! ## The plan again -/

variable {start : Tables} {plan : List (SessionDraft × Option Int)}

/-- Two members of a list that are not related either way are one. -/
theorem eq_of_pairwise {α : Type} {R : α → α → Prop} {l : List α} (h : l.Pairwise R) {a b : α}
    (ha : a ∈ l) (hb : b ∈ l) (hab : ¬ R a b) (hba : ¬ R b a) : a = b := by
  obtain ⟨i, hi, rfl⟩ := List.getElem_of_mem ha
  obtain ⟨j, hj, rfl⟩ := List.getElem_of_mem hb
  rcases lt_trichotomy i j with hlt | heq | hgt
  · exact absurd (List.pairwise_iff_getElem.mp h i j hi hj hlt) hab
  · subst heq
    rfl
  · exact absurd (List.pairwise_iff_getElem.mp h j i hj hi hgt) hba

/-- What two members of a list share, when nothing occurs twice. -/
theorem eq_of_nodup_flatMap {α β : Type} {f : α → List β} {l : List α}
    (h : (l.flatMap f).Nodup) {a b : α} (ha : a ∈ l) (hb : b ∈ l) {x : β} (hax : x ∈ f a)
    (hbx : x ∈ f b) : a = b :=
  eq_of_pairwise (List.nodup_flatMap.mp h).2 ha hb (fun h => h hax hbx) (fun h => h hbx hax)

/-- A frame is wanted by one entry. -/
theorem Plan.same_frame (h : Plan start plan) {a b : SessionDraft × Option Int} (ha : a ∈ plan)
    (hb : b ∈ plan) {x : Int} (hax : x ∈ a.1.frameIds) (hbx : x ∈ b.1.frameIds) : a = b := by
  have hOnce := h.once
  rw [ownedIds, List.flatMap_map] at hOnce
  exact eq_of_nodup_flatMap hOnce ha hb hax hbx

/-- A row is matched by one entry. -/
theorem Plan.same_row (h : Plan start plan) {a b : SessionDraft × Option Int} (ha : a ∈ plan)
    (hb : b ∈ plan) {id : Int} (hid : a.2 = some id) (hid' : b.2 = some id) : a = b := by
  have hDistinct := h.distinct
  rw [List.filterMap_eq_flatMap_toList] at hDistinct
  exact eq_of_nodup_flatMap hDistinct ha hb (x := id) (by simp [hid]) (by simp [hid'])

theorem desiredByExisting_some {id : Int} {draft : SessionDraft}
    (h : desiredByExisting plan id = some draft) : (draft, some id) ∈ plan := by
  obtain ⟨entry, hfound, rfl⟩ := Option.map_eq_some_iff.mp h
  have hmatch := List.find?_some hfound
  rw [beq_iff_eq] at hmatch
  rw [← hmatch]
  exact List.mem_reverse.mp (List.mem_of_find?_eq_some hfound)

theorem Plan.desired (h : Plan start plan) {entry : SessionDraft × Option Int} {id : Int}
    (hEntry : entry ∈ plan) (hid : entry.2 = some id) :
    desiredByExisting plan id = some entry.1 := by
  cases hfound : desiredByExisting plan id with
  | none =>
    rw [desiredByExisting, Option.map_eq_none_iff, List.find?_eq_none] at hfound
    exact absurd (by simp [hid]) (hfound entry (List.mem_reverse.mpr hEntry))
  | some draft =>
    rw [← h.same_row (desiredByExisting_some hfound) hEntry rfl hid]

/-- A row that belongs to a frozen session. -/
def frozenOwned (db : Tables) (row : FrameRow) : Bool :=
  row.sessionId.any fun id => db.sessions.any fun session => session.id == id && session.frozen

/-- A row that the draft of its session wants. -/
def wanted (plan : List (SessionDraft × Option Int)) (row : FrameRow) : Bool :=
  row.sessionId.any fun id =>
    (desiredByExisting plan id).any fun draft => decide (row.frame.id ∈ draft.frameIds)

/-- What a program leaves when it returns; it may also fail. -/
def Leaves {α : Type} (x : SchedulerProgram α) (db : SchedulerDb)
    (Q : α → SchedulerDb → Prop) : Prop :=
  Ends x db Q fun _ => True

/-! ## The first loop -/

theorem mem_sessionFramesMeta {db : Tables} {owner : FrameRow → Option Int}
    (h : db.frames = withOwners start owner) {id x : Int} :
    x ∈ (sessionFramesMeta id db).map SegmenterFrame.id ↔
      ∃ row ∈ start.frames, row.frame.id = x ∧ owner row = some id := by
  simp only [sessionFramesMeta, h, withOwners, List.mem_map, mem_sortByKey, List.mem_filter,
    decide_eq_true_eq]
  constructor
  · rintro ⟨_, ⟨_, ⟨⟨row, hrow, rfl⟩, hid⟩, rfl⟩, rfl⟩
    exact ⟨row, hrow, rfl, hid⟩
  · rintro ⟨row, hrow, rfl, hid⟩
    exact ⟨row.frame, ⟨_, ⟨⟨row, hrow, rfl⟩, hid⟩, rfl⟩, rfl⟩

theorem sessionFramesMeta_nodup {db : Tables} {owner : FrameRow → Option Int}
    (hStart : start.WellFormed) (h : db.frames = withOwners start owner) (id : Int) :
    ((sessionFramesMeta id db).map SegmenterFrame.id).Nodup := by
  refine ((sortByKey_perm _ _).map SegmenterFrame.id).nodup_iff.mpr ?_
  rw [List.map_map]
  refine List.Nodup.sublist (List.filter_sublist.map _) ?_
  have hids := congrArg (List.map SegmenterFrame.id) (withOwners_frame start owner)
  rw [List.map_map, List.map_map, ← h] at hids
  rw [hids]
  exact hStart.frameIds

/-- Two rows of one table with the same frame are the same row. -/
theorem frame_unique (hStart : start.WellFormed) {a b : FrameRow} (ha : a ∈ start.frames)
    (hb : b ∈ start.frames) (hid : a.frame.id = b.frame.id) : a = b :=
  List.inj_on_of_nodup_map hStart.frameIds ha hb hid

/-- What the rows own when the first loop reads them. -/
def Snapshot (start : Tables) (done : List Int) (owned : List (Int × List Int)) : Prop :=
  ∀ id x, x ∈ (owned.lookup id).getD [] ↔
    id ∈ done ∧ ∃ row ∈ start.frames, row.frame.id = x ∧ row.sessionId = some id

/-- The owners after the rows in `done` have been released. -/
def releasedOwner (plan : List (SessionDraft × Option Int)) (done : List Int) (row : FrameRow) :
    Option Int :=
  row.sessionId.filter fun id =>
    !(decide (id ∈ done) && (desiredByExisting plan id).any fun draft =>
      decide (row.frame.id ∉ draft.frameIds))

theorem releasedOwner_fresh {done : List Int} {id : Int} (hFresh : id ∉ done) (row : FrameRow) :
    releasedOwner plan done row = some id ↔ row.sessionId = some id := by
  rw [releasedOwner, Option.filter_eq_some_iff]
  exact ⟨fun h => h.1, fun h => ⟨h, by simp [hFresh]⟩⟩

theorem releasedOwner_snoc (done : List Int) (id : Int) (row : FrameRow) :
    releasedOwner plan (done ++ [id]) row =
      if row.sessionId = some id ∧ (desiredByExisting plan id).any
          (fun draft => decide (row.frame.id ∉ draft.frameIds)) = true then none
      else releasedOwner plan done row := by
  unfold releasedOwner
  cases row.sessionId with
  | none => rfl
  | some current =>
    rw [Option.filter_some, Option.filter_some]
    by_cases hid : current = id
    · subst hid
      cases (desiredByExisting plan current).any
        (fun draft => decide (row.frame.id ∉ draft.frameIds)) <;> simp
    · simp [hid]

theorem releaseStale_leaves (env : Surroundings) (hStart : start.WellFormed)
    {existing : List Session} (done : List Int) {owned : List (Int × List Int)}
    {db : SchedulerDb}
    (hExisting : ∀ session ∈ existing, session ∈ start.sessions ∧ session.frozen = false)
    (hNodup : (done ++ existing.map Session.id).Nodup)
    (hTables : db.tables =
      { start with frames := withOwners start (releasedOwner plan done) })
    (hOwned : Snapshot start done owned) :
    Leaves (releaseStale env plan owned existing) db fun result db' =>
      db' = { db with tables :=
        { start with
          frames := withOwners start (releasedOwner plan (done ++ existing.map Session.id)) } } ∧
        Snapshot start (done ++ existing.map Session.id) result.2 := by
  induction existing generalizing done owned db with
  | nil =>
    refine Ends.pure ⟨?_, by simpa using hOwned⟩
    simp only [List.map_nil, List.append_nil, ← hTables]
  | cons session existing ih =>
    have hMutable := hExisting session (List.mem_cons_self ..)
    have hFresh : session.id ∉ done := by
      intro hin
      exact List.disjoint_of_nodup_append hNodup hin (List.mem_cons_self ..)
    have hFrames : db.tables.frames = withOwners start (releasedOwner plan done) := by rw [hTables]
    rw [releaseStale]
    refine Ends.bind (R := fun frames db' => db' = db ∧
      frames = sessionFramesMeta session.id db.tables)
      (query_ends (fun _ _ => trivial) ⟨rfl, rfl⟩) ?_
    rintro frames db' ⟨rfl, rfl⟩
    have hMem : ∀ x, x ∈ (sessionFramesMeta session.id db'.tables).map SegmenterFrame.id ↔
        ∃ row ∈ start.frames, row.frame.id = x ∧ row.sessionId = some session.id := by
      intro x
      rw [mem_sessionFramesMeta hFrames]
      simp only [releasedOwner_fresh hFresh]
    have hIds := sessionFramesMeta_nodup hStart hFrames session.id
    dsimp only
    generalize (sessionFramesMeta session.id db'.tables).map SegmenterFrame.id = ids at hMem hIds
    -- the row gives up what its draft does not want
    refine Ends.bind (R := fun _ after => after = { db' with tables :=
      { start with frames := withOwners start (releasedOwner plan (done ++ [session.id])) } }) ?_ ?_
    · unfold releaseRow
      cases hdesired : desiredByExisting plan session.id with
      | none =>
        have hsame : releasedOwner plan (done ++ [session.id]) = releasedOwner plan done := by
          funext row
          rw [releasedOwner_snoc, hdesired]
          simp
        exact Ends.pure (by rw [hsame, ← hTables])
      | some draft =>
        refine Ends.bind (R := fun _ after => after = { db' with tables :=
          { start with
            frames := withOwners start (releasedOwner plan (done ++ [session.id])) } }) ?_
          (fun _ _ h => Ends.pure h)
        refine execute_ends (fun _ _ => trivial) (fun _ _ _ => trivial) ?_
        intro _ count tables hok
        obtain ⟨rfl, -⟩ := assignFramesSession_ok (hIds.filter _) hok
        congr 1
        have hrows := assignFrames_owners hFrames
          (ids.filter fun id => decide (id ∉ draft.frameIds)) none
        rw [@withOwners_congr start _ (releasedOwner plan (done ++ [session.id]))] at hrows
        · rw [← hrows, assignFrames, hTables]
        · intro row hrow
          have hstale : row.frame.id ∈ ids.filter (fun id => decide (id ∉ draft.frameIds)) ↔
              row.sessionId = some session.id ∧ row.frame.id ∉ draft.frameIds := by
            rw [List.mem_filter, hMem, decide_eq_true_eq]
            refine and_congr_left fun _ => ⟨?_, fun h => ⟨row, hrow, rfl, h⟩⟩
            rintro ⟨other, hother, hsame, howner⟩
            rwa [← frame_unique hStart hother hrow hsame]
          rw [releasedOwner_snoc, hdesired, Option.any_some]
          simp only [Bool.and_eq_true, decide_eq_true_eq, hstale]
          refine if_congr ⟨fun h => h.1, fun h => ⟨h, ?_⟩⟩ rfl rfl
          rw [(releasedOwner_fresh hFresh row).mpr h.1, replaceable, hTables]
          exact List.any_eq_true.mpr ⟨session, hMutable.1, by simp [hMutable.2]⟩
    · rintro _ after rfl
      have hSnapshot : Snapshot start (done ++ [session.id]) ((session.id, ids) :: owned) := by
        intro id x
        rw [List.lookup_cons]
        by_cases hid : id = session.id
        · subst hid
          simp [hMem x]
        · have hne : (id == session.id) = false := beq_false_of_ne hid
          simp only [hne, hOwned id x, List.mem_append, List.mem_singleton, hid, or_false]
      refine Ends.bind (ih (done ++ [session.id])
        (fun s hs => hExisting s (List.mem_cons_of_mem _ hs)) (by simpa using hNodup) rfl
        hSnapshot) ?_
      rintro ⟨changed, owned'⟩ last ⟨hlast, hsnapshot⟩
      refine Ends.pure ?_
      simp only [List.append_assoc, List.singleton_append] at hlast hsnapshot
      exact ⟨hlast, hsnapshot⟩

/-! ## The second loop -/

/-- The tables once the rows among `done` have been dropped. -/
structure Dropped (start : Tables) (plan : List (SessionDraft × Option Int))
    (owner : FrameRow → Option Int) (done : List Int) (db : Tables) : Prop where
  frames : db.frames = withOwners start fun row =>
    (owner row).filter fun id => !dropped plan done id
  sessions : db.sessions = start.sessions.filter fun session => !dropped plan done session.id

theorem dropped_snoc_matched {id : Int} (hMatched : some id ∈ plan.map Prod.snd)
    (done : List Int) : dropped plan (done ++ [id]) = dropped plan done := by
  funext other
  unfold dropped
  by_cases hid : other = id
  · subst hid
    simp only [decide_eq_true hMatched, Bool.not_true, Bool.and_false]
  · simp [hid]

theorem dropped_snoc {id : Int} (hUnmatched : some id ∉ plan.map Prod.snd) (done : List Int)
    (other : Int) : dropped plan (done ++ [id]) other = (dropped plan done other || other == id) := by
  unfold dropped
  by_cases hid : other = id
  · subst hid
    rw [decide_eq_false hUnmatched]
    simp
  · simp [hid]

theorem deleteRow_leaves (env : Surroundings) (hStart : start.WellFormed)
    {owner : FrameRow → Option Int} {done : List Int} {session : Session} {db : SchedulerDb}
    (hMem : session ∈ start.sessions) (hMutable : session.frozen = false)
    (hFresh : session.id ∉ done) (h : Dropped start plan owner done db.tables) :
    Leaves (deleteRow env plan session.id) db fun _ db' =>
      Dropped start plan owner (done ++ [session.id]) db'.tables ∧
        db'.frameText = db.frameText ∧ db'.backfillMarker = db.backfillMarker := by
  unfold deleteRow
  by_cases hMatched : some session.id ∈ plan.map Prod.snd
  · rw [if_pos hMatched]
    refine Ends.pure ⟨⟨?_, ?_⟩, rfl, rfl⟩ <;> rw [dropped_snoc_matched hMatched]
    · exact h.frames
    · exact h.sessions
  · rw [if_neg hMatched]
    refine execute_ends (fun _ _ => trivial) (fun _ _ _ => trivial) ?_
    intro _ deleted tables hok
    have hRow : ∃ row ∈ db.tables.sessions, row.id = session.id ∧ row.frozen = false := by
      refine ⟨session, ?_, rfl, hMutable⟩
      rw [h.sessions, List.mem_filter]
      exact ⟨hMem, by simp [dropped, hFresh]⟩
    obtain ⟨-, hframes, hsessions, -⟩ := deleteUnfrozenSession_ok hok hRow
    refine ⟨⟨?_, ?_⟩, rfl, rfl⟩
    · rw [hframes, h.frames, withOwners, withOwners, List.map_map]
      refine List.map_congr_left fun row _ => ?_
      rw [Function.comp_apply]
      cases owner row with
      | none => simp
      | some id =>
        simp only [Option.filter_some, dropped_snoc hMatched]
        by_cases hid : id = session.id <;> cases dropped plan done id <;> simp [hid]
    · rw [hsessions, h.sessions, List.filter_filter]
      refine List.filter_congr fun row hrow => ?_
      rw [dropped_snoc hMatched]
      by_cases hid : row.id = session.id
      · -- the key names one row, and that one is not frozen
        have hsame := hStart.session_unique hrow hMem hid
        simp [hsame, hMutable]
      · rw [beq_false_of_ne hid]
        simp

theorem deleteUnmatched_leaves (env : Surroundings) (hStart : start.WellFormed)
    {owner : FrameRow → Option Int} {existing : List Session} (done : List Int) {db : SchedulerDb}
    (hExisting : ∀ session ∈ existing, session ∈ start.sessions ∧ session.frozen = false)
    (hNodup : (done ++ existing.map Session.id).Nodup)
    (h : Dropped start plan owner done db.tables) :
    Leaves (deleteUnmatched env plan existing) db fun _ db' =>
      Dropped start plan owner (done ++ existing.map Session.id) db'.tables ∧
        db'.frameText = db.frameText ∧ db'.backfillMarker = db.backfillMarker := by
  induction existing generalizing done db with
  | nil => exact Ends.pure ⟨by simpa using h, rfl, rfl⟩
  | cons session existing ih =>
    have hMutable := hExisting session (List.mem_cons_self ..)
    have hFresh : session.id ∉ done := fun hin =>
      List.disjoint_of_nodup_append hNodup hin (List.mem_cons_self ..)
    rw [deleteUnmatched]
    refine Ends.bind (deleteRow_leaves env hStart hMutable.1 hMutable.2 hFresh h) ?_
    rintro deleted mid ⟨hmid, htext, hmarker⟩
    have hrest := ih (done ++ [session.id])
      (fun s hs => hExisting s (List.mem_cons_of_mem _ hs)) (by simpa using hNodup) hmid
    refine Ends.bind hrest ?_
    rintro changed last ⟨hlast, htext', hmarker'⟩
    refine Ends.pure ⟨?_, htext'.trans htext, hmarker'.trans hmarker⟩
    rwa [List.append_assoc, List.singleton_append] at hlast

/-- The owner of a row once both loops are done. -/
def keptOwner (plan : List (SessionDraft × Option Int)) (start : Tables) (row : FrameRow) :
    Option Int :=
  if frozenOwned start row || wanted plan row then row.sessionId else none

def unfrozenIds (db : Tables) : List Int := (unfrozenSessions db).map Session.id

theorem mem_unfrozenIds {id : Int} :
    id ∈ unfrozenIds start ↔ ∃ session ∈ start.sessions, session.id = id ∧ session.frozen = false := by
  simp only [unfrozenIds, List.mem_map, unfrozenSessions_mem]
  exact ⟨fun ⟨s, ⟨h, hf⟩, hid⟩ => ⟨s, h, hid, hf⟩, fun ⟨s, h, hid, hf⟩ => ⟨s, ⟨h, hf⟩, hid⟩⟩

theorem unfrozenIds_row (hStart : start.WellFormed) {session : Session}
    (hMem : session ∈ start.sessions) :
    session.id ∈ unfrozenIds start ↔ session.frozen = false := by
  rw [mem_unfrozenIds]
  refine ⟨?_, fun h => ⟨session, hMem, rfl, h⟩⟩
  rintro ⟨other, hother, hid, hmutable⟩
  rwa [← hStart.session_unique hother hMem hid]

theorem frozenOwned_row (hStart : start.WellFormed) {session : Session} {row : FrameRow}
    (hMem : session ∈ start.sessions) (hOwner : row.sessionId = some session.id) :
    frozenOwned start row = session.frozen := by
  rw [frozenOwned, hOwner, Option.any_some, Bool.eq_iff_iff, List.any_eq_true]
  constructor
  · rintro ⟨other, hother, hcond⟩
    simp only [Bool.and_eq_true, beq_iff_eq] at hcond
    rw [← hStart.session_unique hother hMem hcond.1]
    exact hcond.2
  · intro h
    exact ⟨session, hMem, by simp [h]⟩

theorem dropped_unfrozen (hStart : start.WellFormed) {session : Session}
    (hMem : session ∈ start.sessions) :
    (!dropped plan (unfrozenIds start) session.id) = isKept plan session := by
  rw [dropped, isKept, Bool.not_and, Bool.not_not]
  congr 1
  rw [Bool.eq_iff_iff]
  simp [unfrozenIds_row hStart hMem]

/-- What both loops leave of the owner of a row. -/
theorem dropped_owner (hStart : start.WellFormed) (hPlan : Plan start plan) {row : FrameRow}
    (hRow : row ∈ start.frames) :
    ((releasedOwner plan (unfrozenIds start) row).filter fun id =>
        !dropped plan (unfrozenIds start) id) = keptOwner plan start row := by
  unfold releasedOwner keptOwner
  cases hOwner : row.sessionId with
  | none => simp
  | some id =>
    obtain ⟨session, hMem, rfl⟩ := hStart.references row hRow id hOwner
    rw [frozenOwned_row hStart hMem hOwner, wanted, hOwner, Option.any_some, Option.filter_some]
    have hIn := unfrozenIds_row hStart hMem
    cases hfrozen : session.frozen with
    | true =>
      have hout : session.id ∉ unfrozenIds start := by simp [hIn, hfrozen]
      simp [hout, dropped]
    | false =>
      rw [hfrozen] at hIn
      cases hdesired : desiredByExisting plan session.id with
      | none =>
        have hunmatched : some session.id ∉ plan.map Prod.snd := by
          intro hmatched
          obtain ⟨entry, hentry, hid⟩ := List.mem_map.mp hmatched
          rw [hPlan.desired hentry hid] at hdesired
          cases hdesired
        simp [dropped, hIn, decide_eq_false hunmatched, Option.filter_some]
      | some draft =>
        have hmatched : some session.id ∈ plan.map Prod.snd :=
          List.mem_map.mpr ⟨_, desiredByExisting_some hdesired, rfl⟩
        by_cases hwant : row.frame.id ∈ draft.frameIds <;>
          simp [dropped, hIn, decide_eq_true hmatched, hwant, Option.filter_some]

end ScreenSearch.Kernel
