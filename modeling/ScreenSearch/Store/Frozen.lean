import ScreenSearch.Store.Sessions

/-!
# Frozen sessions are immutable

Every statement carries its own `frozen = 0` guard; `FrozenKept` says what the
guards are for, and it composes, so a run keeps it if each statement does.

* `SessionOp.apply_frozenKept` — one statement, one case per statement;
* `frozen_session_immutable` — whole runs from any database.
-/

namespace ScreenSearch.Store

/-- The frozen rows of `db` are still there, with everything a segmentation
writes, and still hold their frames. -/
structure FrozenKept (db db' : Tables) : Prop where
  rows : ∀ row ∈ db.sessions, row.frozen = true →
    ∃ row' ∈ db'.sessions, row'.id = row.id ∧ recorded row' = recorded row
  frames : ∀ row ∈ db.sessions, row.frozen = true →
    ∀ frame ∈ db.frames, frame.sessionId = some row.id → frame ∈ db'.frames

theorem FrozenKept.refl (db : Tables) : FrozenKept db db where
  rows := fun row hrow _ => ⟨row, hrow, rfl, rfl⟩
  frames := fun _ _ _ _ hframe _ => hframe

theorem FrozenKept.trans {a b c : Tables} (hab : FrozenKept a b) (hbc : FrozenKept b c) :
    FrozenKept a c where
  rows := by
    intro row hrow hfrozen
    obtain ⟨row', hrow', hid, hrec⟩ := hab.rows row hrow hfrozen
    have hfrozen' : row'.frozen = true := (congrArg NewSession.frozen hrec).trans hfrozen
    obtain ⟨row'', hrow'', hid', hrec'⟩ := hbc.rows row' hrow' hfrozen'
    exact ⟨row'', hrow'', hid'.trans hid, hrec'.trans hrec⟩
  frames := by
    intro row hrow hfrozen frame hframe hsession
    obtain ⟨row', hrow', hid, hrec⟩ := hab.rows row hrow hfrozen
    have hfrozen' : row'.frozen = true := (congrArg NewSession.frozen hrec).trans hfrozen
    exact hbc.frames row' hrow' hfrozen' frame (hab.frames row hrow hfrozen frame hframe hsession)
      (by rw [hid, hsession])

/-- An update leaves frozen rows alone when it either skips them or assigns none
of the recorded columns. -/
theorem updateSessions_frozenKept {isMatch : Session → Bool} {assign : Session → Session}
    (hid : ∀ row, (assign row).id = row.id)
    (hrec : ∀ row, row.frozen = true → isMatch row = true → recorded (assign row) = recorded row)
    (db : Tables) : FrozenKept db (updateSessions isMatch assign db).2 where
  rows := by
    intro row hrow hfrozen
    refine ⟨if isMatch row then assign row else row, List.mem_map.mpr ⟨row, hrow, rfl⟩, ?_⟩
    split
    · exact ⟨hid row, hrec row hfrozen ‹_›⟩
    · exact ⟨rfl, rfl⟩
  frames := fun _ _ _ _ hframe _ => hframe

theorem insertSession_frozenKept {session : NewSession} {clock id : Int} {db db' : Tables}
    (hok : insertSession session clock db = .ok (id, db')) : FrozenKept db db' := by
  rw [insertSession] at hok
  split at hok
  · simp only [Except.ok.injEq, Prod.mk.injEq] at hok
    obtain ⟨rfl, rfl⟩ := hok
    exact ⟨fun row hrow _ => ⟨row, List.mem_append_left _ hrow, rfl, rfl⟩,
      fun _ _ _ _ hframe _ => hframe⟩
  · cases hok

/-- Two rows of one table with the same key are the same row. -/
theorem Tables.WellFormed.session_unique {db : Tables} (h : db.WellFormed) {a b : Session}
    (ha : a ∈ db.sessions) (hb : b ∈ db.sessions) (hid : a.id = b.id) : a = b :=
  List.inj_on_of_nodup_map h.sessionIds ha hb hid

theorem deleteUnfrozenSession_frozenKept {id : Int} {deleted : Bool} {db db' : Tables}
    (h : db.WellFormed) (hok : deleteUnfrozenSession id db = .ok (deleted, db')) :
    FrozenKept db db' := by
  rw [deleteUnfrozenSession] at hok
  split at hok <;> simp only [Except.ok.injEq, Prod.mk.injEq] at hok <;> obtain ⟨rfl, rfl⟩ := hok
  · rename_i hany
    obtain ⟨target, htarget, hguard⟩ := List.any_eq_true.mp hany
    simp only [Bool.and_eq_true, beq_iff_eq, Bool.not_eq_true'] at hguard
    -- the deleted row is not frozen, so no frozen row has its id
    have hne : ∀ row ∈ db.sessions, row.frozen = true → row.id ≠ id := by
      intro row hrow hfrozen heq
      have := h.session_unique hrow htarget (heq.trans hguard.1.symm)
      rw [this, hguard.2] at hfrozen
      cases hfrozen
    refine ⟨fun row hrow hfrozen => ⟨row, ?_, rfl, rfl⟩, ?_⟩
    · exact List.mem_filter.mpr ⟨hrow, by simp [hfrozen]⟩
    · intro row hrow hfrozen frame hframe hsession
      refine List.mem_map.mpr ⟨frame, hframe, if_neg ?_⟩
      rw [hsession, Option.some.injEq]
      exact hne row hrow hfrozen
  · exact FrozenKept.refl db

/-- The guard of `assignFramesSession` is on the frame's current session: a
frame of a frozen session is not assignable. -/
theorem assignable_eq_false {db : Tables} (h : db.WellFormed) {row : Session}
    (hrow : row ∈ db.sessions) (hfrozen : row.frozen = true) {frame : FrameRow}
    (hsession : frame.sessionId = some row.id) : assignable db frame = false := by
  rw [assignable, hsession]
  simp only [List.any_eq_false, Bool.and_eq_true, beq_iff_eq, Bool.not_eq_true', not_and,
    Bool.not_eq_false]
  intro other hother hid
  rw [h.session_unique hother hrow hid]
  exact hfrozen

theorem assignChunk_frozenKept {sessionId : Option Int} {chunk : List Int} {changed : Nat}
    {db db' : Tables} (h : db.WellFormed)
    (hok : assignChunk sessionId db chunk = .ok (changed, db')) : FrozenKept db db' := by
  rw [assignChunk] at hok
  dsimp only at hok
  split at hok
  · cases hok
  · simp only [Except.ok.injEq, Prod.mk.injEq] at hok
    obtain ⟨rfl, rfl⟩ := hok
    refine ⟨fun row hrow _ => ⟨row, hrow, rfl, rfl⟩, ?_⟩
    intro row hrow hfrozen frame hframe hsession
    refine List.mem_map.mpr ⟨frame, hframe, if_neg ?_⟩
    simp [assignable_eq_false h hrow hfrozen hsession]

theorem assignFramesSession_frozenKept {frameIds : List Int} {sessionId : Option Int}
    {changed : Nat} {db db' : Tables} (h : db.WellFormed)
    (hok : assignFramesSession frameIds sessionId db = .ok (changed, db')) :
    FrozenKept db db' := by
  have := assignFramesSession_induction
    (P := fun mid : Tables => mid.WellFormed ∧ FrozenKept db mid)
    (fun _ _ _ _ hmid hchunk => ⟨assignChunk_wellFormed hmid.1 hchunk,
      hmid.2.trans (assignChunk_frozenKept hmid.1 hchunk)⟩)
    ⟨h, FrozenKept.refl db⟩ hok
  exact this.2

/-- Every statement keeps the frozen sessions. -/
theorem SessionOp.apply_frozenKept {db : Tables} (h : db.WellFormed) (op : SessionOp) :
    FrozenKept db (op.apply db) := by
  cases op with
  | insertSession session clock =>
    simp only [SessionOp.apply, Statement.after]
    split
    · exact insertSession_frozenKept ‹_›
    · exact FrozenKept.refl db
  | updateUnfrozenSession id session clock =>
    simp only [SessionOp.apply, Statement.after, Store.updateUnfrozenSession]
    split
    · rename_i hok
      split at hok
      · cases hok
        refine updateSessions_frozenKept (by intro; rfl) ?_ db
        intro row hfrozen hmatch
        simp [hfrozen] at hmatch
      · cases hok
    · exact FrozenKept.refl db
  | deleteUnfrozenSession id =>
    simp only [SessionOp.apply, Statement.after]
    split
    · exact deleteUnfrozenSession_frozenKept h ‹_›
    · exact FrozenKept.refl db
  | assignFramesSession frameIds sessionId =>
    simp only [SessionOp.apply, Statement.after]
    split
    · exact assignFramesSession_frozenKept h ‹_›
    · exact FrozenKept.refl db
  | freezeSessions olderThanMs clock =>
    refine updateSessions_frozenKept (by intro; rfl) ?_ db
    intro row hfrozen hmatch
    simp [hfrozen] at hmatch
  | setSessionTitleSummary id title summary model clock =>
    exact updateSessions_frozenKept (by intro; rfl) (by intros; rfl) db
  | clearSessionTitleSummary id clock =>
    exact updateSessions_frozenKept (by intro; rfl) (by intros; rfl) db

/-- What holds between a database and its state after any run. -/
theorem SessionDb.run_frozenKept (db : SessionDb) (ops : List SessionOp) :
    FrozenKept db.tables (db.run ops).tables := by
  induction ops generalizing db with
  | nil => exact FrozenKept.refl db.tables
  | cons op ops ih => exact (op.apply_frozenKept db.wellFormed).trans (ih (db.step op))

/-- **Frozen sessions are immutable.** From the moment a row is frozen, whatever
session statements run: exactly one row has its id, what a segmentation records
in it is what it was, frozen included, and the frames that point at it still do. -/
theorem frozen_session_immutable (db : SessionDb) (ops : List SessionOp) (row : Session)
    (hrow : row ∈ db.tables.sessions) (hfrozen : row.frozen = true) :
    (∃! row' : Session, row' ∈ (db.run ops).tables.sessions ∧ row'.id = row.id) ∧
      (∀ row' ∈ (db.run ops).tables.sessions, row'.id = row.id →
        recorded row' = recorded row) ∧
      ∀ frame ∈ db.tables.frames, frame.sessionId = some row.id →
        frame ∈ (db.run ops).tables.frames := by
  have hkept := db.run_frozenKept ops
  obtain ⟨row', hrow', hid, hrec⟩ := hkept.rows row hrow hfrozen
  have hunique : ∀ other ∈ (db.run ops).tables.sessions, other.id = row.id → other = row' :=
    fun other hother hoid => (db.run ops).wellFormed.session_unique hother hrow'
      (hoid.trans hid.symm)
  refine ⟨⟨row', ⟨hrow', hid⟩, fun other hother => hunique other hother.1 hother.2⟩, ?_,
    hkept.frames row hrow hfrozen⟩
  intro other hother hoid
  rw [hunique other hother hoid]
  exact hrec

/-- A frozen session with one frame, and a frame without a session. -/
def frozenExample : SessionDb where
  tables :=
    { frames :=
        [ { frame := ⟨1, 1000, some "Code", none, none⟩, sessionId := some 1 },
          { frame := ⟨2, 2000, some "Code", none, none⟩, sessionId := none } ]
      sessions :=
        [ { id := 1, startedAt := 1000, endedAt := some 1000, kind := .focus, tool := none,
            host := none, contextKey := "focus:code", title := none, summary := none,
            summaryModel := none, confidence := 1 / 2, frozen := true, createdAt := 0,
            updatedAt := 0 } ]
      artifacts := [] }
  wellFormed := ⟨by decide, by decide, by decide⟩

/-- Every kind of write is tried on the frozen row. -/
def frozenExampleOps : List SessionOp :=
  [ .updateUnfrozenSession 1 ⟨0, none, .other, none, none, "", 0, false⟩ 9,
    .deleteUnfrozenSession 1,
    .assignFramesSession [1] none,
    .assignFramesSession [1, 2] (some 1),
    .setSessionTitleSummary 1 "t" "s" "m" 9 ]

theorem frozen_session_immutable_example :
    (∃! row' : Session, row' ∈ (frozenExample.run frozenExampleOps).tables.sessions ∧
        row'.id = (1 : Int)) ∧
      (∀ row' ∈ (frozenExample.run frozenExampleOps).tables.sessions, row'.id = (1 : Int) →
        recorded row' = ⟨1000, some 1000, .focus, none, none, "focus:code", 1 / 2, true⟩) ∧
      ∀ frame ∈ frozenExample.tables.frames, frame.sessionId = some 1 →
        frame ∈ (frozenExample.run frozenExampleOps).tables.frames :=
  frozen_session_immutable frozenExample frozenExampleOps
    { id := 1, startedAt := 1000, endedAt := some 1000, kind := .focus, tool := none,
      host := none, contextKey := "focus:code", title := none, summary := none,
      summaryModel := none, confidence := 1 / 2, frozen := true, createdAt := 0, updatedAt := 0 }
    (List.mem_singleton.mpr rfl) rfl

/-- The frame without a session joins, the other one stays. -/
example : (frozenExample.run frozenExampleOps).tables.frames.map FrameRow.sessionId =
    [some 1, some 1] := by decide

end ScreenSearch.Store
