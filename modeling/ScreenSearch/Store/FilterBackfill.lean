import ScreenSearch.Store.SearchEffects

/-!
# The filter backfill

One pass cleans the texts of frames that an older filter has classified. The frames are
listed once, and then their batches are processed under locks of their own, with other calls
of the store between them; a frame that is deleted in between takes its text along.

Main results:

* `backfillBatch_rows`, `backfillBatch_missing` — a batch succeeds when every frame of it still
  has a text, and then it changes only these.
-/

namespace ScreenSearch.Store

open SearchTables

def backfillBatchSize : Nat := 64

/-- A call of `backfill_filter_version` between its batches. -/
structure Pass where
  config : FilterConfig
  reembed : Bool
  /-- The catalogs of the applications, as they were when the frames were listed. -/
  catalogs : Option String → ChromeCatalog
  remaining : List Int
  changed : Nat

structure BackfillState where
  db : SearchTables
  /-- `text.catalog_filter_version`. -/
  watermark : Option Int
  /-- The call in progress. -/
  pass : Option Pass
  /-- What the calls returned, latest first. -/
  returns : List (Except HistoryReadError Nat)
  /-- The frames whose processing was committed, latest first. -/
  processed : List Int

inductive BackfillEvent where
  /-- The call is made: the frames are listed and the catalogs are read. -/
  | call (config : FilterConfig) (reembed : Bool)
  | batch (clock : Int)
  | finish
  /-- The program ends. -/
  | interrupt
  -- other calls of the store
  | insertFrame (f : NewFrame)
  | classify (frameId : Int) (ocr : OcrResult) (ctx : TextFilterContext)
  | deleteFrame (frameId : Int)
  | degradeFrameToText (frameId : Int)

/-- The texts of an older filter, oldest frame first. -/
def outdated (db : SearchTables) : List FrameTextRow :=
  Sorting.sortByKey FrameTextRow.frameId
    (db.frameText.filter fun row => row.filterVersion < filterVersion)

def Pass.plan (config : FilterConfig) (reembed : Bool) (db : SearchTables) : Pass where
  config := config
  reembed := reembed
  catalogs := fun hint =>
    if (outdated db).any fun row => row.targetAppHint = hint then db.loadChromeCatalog hint
    else fun _ => 0
  remaining := (outdated db).map FrameTextRow.frameId
  changed := 0

/-- The frames of the next batch. -/
def Pass.batch (pass : Pass) : List Int := pass.remaining.take backfillBatchSize

def Pass.backfill (pass : Pass) (clock : Int) : Backfill where
  current := filterVersion
  config := pass.config
  catalogs := pass.catalogs
  reembed := pass.reembed
  clock := clock

/-- Whether the content of a frame is not what the filter makes of it now. -/
def contentChanges (textFilter : TextFilter) (b : Backfill) (db : SearchTables) (frameId : Int) :
    Bool :=
  (frameTextOf db.toFrameTables frameId).any fun old =>
    (textFilter.reconcile (db.readTextSpans frameId) old.targetAppHint
      (b.catalogs old.targetAppHint) b.config).contentText ≠ old.contentText

/-- How many frames of a batch change. -/
def batchChanges (textFilter : TextFilter) (b : Backfill) : List Int → SearchTables → Nat
  | [], _ => 0
  | frameId :: rest, db =>
    match backfillFrame textFilter b db frameId with
    | .ok db' =>
      (contentChanges textFilter b db frameId).toNat + batchChanges textFilter b rest db'
    | .error _ => 0

def BackfillState.withDb (s : BackfillState) : Except HistoryReadError SearchTables → BackfillState
  | .ok db => { s with db := db }
  | .error _ => s

/-- A batch that fails takes the call with it. -/
def BackfillState.batch (textFilter : TextFilter) (s : BackfillState) (pass : Pass) (clock : Int) :
    BackfillState :=
  match s.db.backfillBatch textFilter (pass.backfill clock) pass.batch with
  | .ok db =>
    { s with
      db := db
      pass := some { pass with
        remaining := pass.remaining.drop backfillBatchSize
        changed := pass.changed + batchChanges textFilter (pass.backfill clock) pass.batch s.db }
      processed := pass.batch ++ s.processed }
  | .error e => { s with pass := none, returns := .error e :: s.returns }

/-- A step that cannot be taken changes nothing. -/
def BackfillState.step (textFilter : TextFilter) (s : BackfillState) :
    BackfillEvent → BackfillState
  | .call config reembed =>
    if s.pass.isSome then s
    else if s.watermark = some filterVersion then { s with returns := .ok 0 :: s.returns }
    else { s with pass := some (.plan config reembed s.db) }
  | .batch clock =>
    match s.pass with
    | some pass => if pass.remaining.isEmpty then s else s.batch textFilter pass clock
    | none => s
  | .finish =>
    match s.pass with
    | some pass =>
      if pass.remaining.isEmpty then
        { s with
          watermark := some filterVersion
          pass := none
          returns := .ok pass.changed :: s.returns }
      else s
    | none => s
  | .interrupt => { s with pass := none }
  | .insertFrame f => s.withDb (s.db.insertFrame f)
  | .classify frameId ocr ctx =>
    -- the text of a frame is classified once
    if (frameTextOf s.db.toFrameTables frameId).isSome then s
    else s.withDb (s.db.insertOcrFiltered textFilter frameId ocr ctx)
  | .deleteFrame frameId => { s with db := s.db.deleteFrame frameId }
  | .degradeFrameToText frameId => s.withDb (s.db.degradeFrameToText textFilter frameId)

def BackfillState.run (textFilter : TextFilter) (s : BackfillState) (events : List BackfillEvent) :
    BackfillState :=
  events.foldl (BackfillState.step textFilter) s

/-- No call has been made yet. -/
def BackfillState.start (db : SearchTables) (watermark : Option Int) : BackfillState where
  db := db
  watermark := watermark
  pass := none
  returns := []
  processed := []

/-! ## The property -/

/-- What the pass is for, over a run from `s`. -/
structure BackfillState.Completes (textFilter : TextFilter) (s : BackfillState)
    (events : List BackfillEvent) : Prop where
  returned : ∀ result ∈ (s.run textFilter events).returns, result.isOk = true
  cleaned : (s.run textFilter events).returns ≠ [] →
    ∀ row ∈ (s.run textFilter events).db.frameText, filterVersion ≤ row.filterVersion
  once : (s.run textFilter events).processed.Nodup
  /-- A text of this filter stays as it is. -/
  spared : ∀ first rest, events = first ++ rest →
    ∀ row ∈ (s.run textFilter first).db.frameText, filterVersion ≤ row.filterVersion →
      (s.run textFilter events).db.hasFrame row.frameId = true →
        row ∈ (s.run textFilter events).db.frameText

/-- Every frame of the next batch still has a text. -/
def BackfillState.CarefulStep (s : BackfillState) : BackfillEvent → Prop
  | .batch _ => ∀ pass ∈ s.pass, ∀ frameId ∈ pass.batch,
      (frameTextOf s.db.toFrameTables frameId).isSome = true
  | _ => True

instance (s : BackfillState) : (e : BackfillEvent) → Decidable (s.CarefulStep e)
  | .batch _ => inferInstanceAs (Decidable (∀ pass ∈ s.pass, ∀ frameId ∈ pass.batch, _))
  | .call .. | .finish | .interrupt | .insertFrame _ | .classify .. | .deleteFrame _
  | .degradeFrameToText _ => inferInstanceAs (Decidable True)

def BackfillState.Careful (textFilter : TextFilter) : BackfillState → List BackfillEvent → Prop
  | _, [] => True
  | s, e :: rest => s.CarefulStep e ∧ (s.step textFilter e).Careful textFilter rest

instance decidableBackfillCareful (textFilter : TextFilter) : (s : BackfillState) →
    (events : List BackfillEvent) → Decidable (s.Careful textFilter events)
  | _, [] => inferInstanceAs (Decidable True)
  | s, e :: rest =>
    have := decidableBackfillCareful textFilter (s.step textFilter e) rest
    inferInstanceAs (Decidable (_ ∧ _))

/-! ## One batch -/

variable (textFilter : TextFilter) (b : Backfill) {db db' : SearchTables} {frameId : Int}

theorem frameTextOf_isSome_iff {tables : FrameTables} :
    (frameTextOf tables frameId).isSome = true ↔ frameId ∈ tables.frameText.map FrameTextRow.frameId := by
  unfold frameTextOf
  rw [List.find?_isSome, List.mem_map]
  simp only [beq_iff_eq]

theorem replaceTextSpans_of_hasFrame (h : db.hasFrame frameId = true) (spans : List TextSpan) :
    ∃ rows, replaceTextSpans frameId spans db = .ok { db with textSpans := rows } := by
  unfold replaceTextSpans
  rw [h, Bool.not_true, Bool.and_false, if_neg Bool.false_ne_true]
  exact ⟨_, rfl⟩

theorem insertJob_of_hasFrame (h : db.hasFrame frameId = true) {job : NewJob}
    (hJob : job.frameId = some frameId) (clock : Int) :
    ∃ jobs, insertJob job clock db = .ok { db with jobs := jobs } := by
  have hFrames : (job.frameId.all fun frame => decide (frame ∈ db.jobTables.frames)) = true := by
    obtain ⟨frame, hMem, hId⟩ := hasFrame_iff.mp h
    rw [hJob, Option.all_some, decide_eq_true_eq]
    exact List.mem_map.mpr ⟨frame, hMem, hId⟩
  unfold insertJob enqueueJob
  rw [if_pos hFrames]
  exact ⟨_, rfl⟩

/-- A frame that has a text gets the version of the pass, and no other text changes. -/
theorem backfillFrame_row {old : FrameTextRow}
    (hOld : frameTextOf db.toFrameTables frameId = some old) (hFrame : db.hasFrame frameId = true) :
    ∃ db' new, backfillFrame textFilter b db frameId = .ok db' ∧
      db'.toFrameTables = { db.toFrameTables with
        frameText := db.frameText.map fun row => if row.frameId = frameId then new else row } ∧
      new.frameId = frameId ∧ new.filterVersion = b.current := by
  obtain ⟨-, hId⟩ := frameTextOf_mem hOld
  subst hId
  unfold backfillFrame
  rw [hOld]
  dsimp only
  split
  · generalize textFilter.reconcile _ _ _ _ = out
    obtain ⟨rows, hRows⟩ := @replaceTextSpans_of_hasFrame
      (updateFrameText old (cleaned b out old) db) old.frameId hFrame out.spans
    rw [hRows]
    show ∃ db' new, (if b.reembed then _ else _) = _ ∧ _
    split
    · obtain ⟨jobs, hJobs⟩ := @insertJob_of_hasFrame
        (deleteEmbeddings (fun row => row.frameId == old.frameId && row.source == .ocr)
          { updateFrameText old (cleaned b out old) db with textSpans := rows })
        old.frameId hFrame
        { kind := .embedText, frameId := some old.frameId, priority := 0, maxAttempts := 3,
          notBefore := 0 } rfl b.clock
      exact ⟨_, cleaned b out old, hJobs, rfl, rfl, rfl⟩
    · exact ⟨_, cleaned b out old, rfl, rfl, rfl, rfl⟩
  · exact ⟨_, _, rfl, rfl, rfl, rfl⟩

/-- The texts after a batch: those of its frames have the version of the pass. -/
structure Rewritten (version : Int) (batch : List Int) (db db' : SearchTables) : Prop where
  historyId : db'.historyId = db.historyId
  allocator : db'.frameIdHighWater = db.frameIdHighWater
  frames : db'.frames = db.frames
  ids : db'.frameText.map FrameTextRow.frameId = db.frameText.map FrameTextRow.frameId
  others : ∀ row, row.frameId ∉ batch → (row ∈ db'.frameText ↔ row ∈ db.frameText)
  version : ∀ row ∈ db'.frameText, row.frameId ∈ batch → row.filterVersion = version

theorem backfillFrame_rewritten (hText : frameId ∈ db.frameText.map FrameTextRow.frameId)
    (hFrame : db.hasFrame frameId = true) :
    ∃ db', backfillFrame textFilter b db frameId = .ok db' ∧ Rewritten b.current [frameId] db db' := by
  obtain ⟨old, hOld⟩ := Option.isSome_iff_exists.mp (frameTextOf_isSome_iff.mpr hText)
  obtain ⟨db', new, hOk, hTables, hId, hVersion⟩ :=
    backfillFrame_row textFilter b hOld hFrame
  have hRows : db'.frameText =
      db.frameText.map fun row => if row.frameId = frameId then new else row := by
    rw [hTables]
  refine ⟨db', hOk, by rw [hTables], by rw [hTables], by rw [hTables], ?_, ?_, ?_⟩
  · rw [hRows, List.map_map]
    refine List.map_congr_left fun row _ => ?_
    show (if row.frameId = frameId then new else row).frameId = row.frameId
    split
    · next hSame => rw [hSame, hId]
    · rfl
  · intro row hOther
    rw [List.mem_singleton] at hOther
    rw [hRows, List.mem_map]
    constructor
    · rintro ⟨before, hBefore, rfl⟩
      by_cases hSame : before.frameId = frameId
      · rw [if_pos hSame] at hOther
        exact absurd hId hOther
      · rw [if_neg hSame]
        exact hBefore
    · intro hRow
      exact ⟨row, hRow, if_neg hOther⟩
  · intro row hRow hIn
    rw [hRows] at hRow
    obtain ⟨before, -, rfl⟩ := List.mem_map.mp hRow
    rw [List.mem_singleton] at hIn
    by_cases hSame : before.frameId = frameId
    · rw [if_pos hSame]
      exact hVersion
    · rw [if_neg hSame] at hIn
      exact absurd hIn hSame

theorem Rewritten.cons {version : Int} {batch : List Int} {mid : SearchTables}
    (hFirst : Rewritten version [frameId] db mid) (hRest : Rewritten version batch mid db') :
    Rewritten version (frameId :: batch) db db' where
  historyId := hRest.historyId.trans hFirst.historyId
  allocator := hRest.allocator.trans hFirst.allocator
  frames := hRest.frames.trans hFirst.frames
  ids := hRest.ids.trans hFirst.ids
  others := by
    intro row hOther
    rw [List.mem_cons, not_or] at hOther
    rw [hRest.others row hOther.2, hFirst.others row (by rw [List.mem_singleton]; exact hOther.1)]
  version := by
    intro row hRow hIn
    by_cases hLater : row.frameId ∈ batch
    · exact hRest.version row hRow hLater
    · have hSame : row.frameId ∈ [frameId] :=
        List.mem_singleton.mpr ((List.mem_cons.mp hIn).resolve_right hLater)
      exact hFirst.version row ((hRest.others row hLater).mp hRow) hSame

/-- A batch of frames that all have a text succeeds. -/
theorem backfillBatch_rows {batch : List Int}
    (hFramed : ∀ row ∈ db.frameText, db.hasFrame row.frameId = true)
    (hTexts : ∀ frameId ∈ batch, frameId ∈ db.frameText.map FrameTextRow.frameId) :
    ∃ db', db.backfillBatch textFilter b batch = .ok db' ∧ Rewritten b.current batch db db' := by
  induction batch generalizing db with
  | nil =>
    exact ⟨db, rfl, rfl, rfl, rfl, rfl, fun _ _ => Iff.rfl, fun _ _ hIn => by cases hIn⟩
  | cons frameId rest ih =>
    have hText := hTexts frameId List.mem_cons_self
    obtain ⟨row, hRow, hRowId⟩ := List.mem_map.mp hText
    obtain ⟨mid, hOk, hFirst⟩ := backfillFrame_rewritten textFilter b hText
      (hRowId ▸ hFramed row hRow)
    have hFramed' : ∀ row ∈ mid.frameText, mid.hasFrame row.frameId = true := by
      intro row hRow
      have hIn : row.frameId ∈ db.frameText.map FrameTextRow.frameId := by
        rw [← hFirst.ids]
        exact List.mem_map_of_mem hRow
      obtain ⟨before, hBefore, hId⟩ := List.mem_map.mp hIn
      rw [hasFrame, hFirst.frames, ← hId]
      exact hFramed before hBefore
    obtain ⟨db', hRest, hRewritten⟩ := ih hFramed' fun other hOther => by
      rw [hFirst.ids]
      exact hTexts other (List.mem_cons_of_mem _ hOther)
    refine ⟨db', ?_, hFirst.cons hRewritten⟩
    unfold backfillBatch
    rw [List.foldlM_cons, hOk]
    exact hRest

/-- A batch fails when a frame of it has no text any more. -/
theorem backfillBatch_missing {batch : List Int}
    (hFramed : ∀ row ∈ db.frameText, db.hasFrame row.frameId = true)
    (hMissing : ∃ frameId ∈ batch, frameId ∉ db.frameText.map FrameTextRow.frameId) :
    (db.backfillBatch textFilter b batch).isOk = false := by
  induction batch generalizing db with
  | nil => obtain ⟨_, hMem, _⟩ := hMissing; cases hMem
  | cons frameId rest ih =>
    unfold backfillBatch
    rw [List.foldlM_cons]
    by_cases hText : frameId ∈ db.frameText.map FrameTextRow.frameId
    · obtain ⟨row, hRow, hRowId⟩ := List.mem_map.mp hText
      obtain ⟨mid, hOk, hFirst⟩ := backfillFrame_rewritten textFilter b hText
        (hRowId ▸ hFramed row hRow)
      rw [hOk]
      refine ih ?_ ?_
      · intro row hRow
        have hIn : row.frameId ∈ db.frameText.map FrameTextRow.frameId := by
          rw [← hFirst.ids]
          exact List.mem_map_of_mem hRow
        obtain ⟨before, hBefore, hId⟩ := List.mem_map.mp hIn
        rw [hasFrame, hFirst.frames, ← hId]
        exact hFramed before hBefore
      · obtain ⟨other, hMem, hNone⟩ := hMissing
        rcases List.mem_cons.mp hMem with rfl | hMem
        · exact absurd hText hNone
        · exact ⟨other, hMem, by rw [hFirst.ids]; exact hNone⟩
    · have hNone : frameTextOf db.toFrameTables frameId = none :=
        Option.not_isSome_iff_eq_none.mp fun hSome => hText (frameTextOf_isSome_iff.mp hSome)
      unfold backfillFrame
      rw [hNone]
      rfl

end ScreenSearch.Store
