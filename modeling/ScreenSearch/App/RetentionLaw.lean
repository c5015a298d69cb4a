import ScreenSearch.App.Retention

/-!
# Retention removes what it should and nothing else

A candidate keeps the row it was listed from, and that row is older than the call's cutoff; so the
file that is removed and the row that is marked are an old frame's, whatever is captured in between.

Main results:

* `step_cases` — what one event can do, and nothing else;
* `step_ok` — one operation keeps what is known of every call;
* `sweep_keeps` — and, if it is a call's, touches the file or the flag of an old frame only;
* `retention_law` — so over any run with crashes and failures.
-/

namespace ScreenSearch.App

open Store Attention

variable {textFilter : TextFilter} {t t' : ImageTables} {s s' : RetentionState} {call : SweepCall}

/-! ## Tables -/

/-- Every frame has an id of its own and the path of its capture. -/
structure ImageTables.Captured (t : ImageTables) : Prop where
  nodup : (t.db.frames.map StoredFrame.id).Nodup
  paths : ∀ f ∈ t.db.frames, t.imagePath f.id = imagePaths f.capturedAt f.monitorIndex

def ImageTables.Purged (t : ImageTables) (frameId : Int) : Prop :=
  ∃ f ∈ t.db.frames, f.id = frameId ∧ f.imagePurged = true

/-- Rows stay, with the time and the monitor they have, and no mark is taken back. -/
def ImageTables.Grows (t t' : ImageTables) : Prop :=
  ∀ f ∈ t.db.frames, ∃ f' ∈ t'.db.frames, f'.id = f.id ∧ f'.capturedAt = f.capturedAt ∧
    f'.monitorIndex = f.monitorIndex ∧ (f.imagePurged = true → f'.imagePurged = true)

theorem ImageTables.Grows.purged (h : t.Grows t') {frameId : Int} (hPurged : t.Purged frameId) :
    t'.Purged frameId := by
  obtain ⟨f, hf, rfl, hMark⟩ := hPurged
  obtain ⟨f', hf', hId, -, -, hKept⟩ := h f hf
  exact ⟨f', hf', hId, hKept hMark⟩

theorem ImageTables.Captured.unique (h : t.Captured) {f f' : StoredFrame}
    (hf : f ∈ t.db.frames) (hf' : f' ∈ t.db.frames) (hId : f.id = f'.id) : f = f' :=
  List.inj_on_of_nodup_map h.nodup hf hf' hId

/-- A new row, under an id above the others. -/
theorem insertFrame_row {f : NewFrame} {db db' : FrameTables} {id : Int}
    (hOk : Store.insertFrame f db = .ok (id, db')) :
    (∀ frame ∈ db.frames, frame.id < id) ∧
      ∃ frame : StoredFrame, db'.frames = db.frames ++ [frame] ∧ frame.id = id ∧
        frame.capturedAt = f.capturedAt ∧ frame.monitorIndex = f.monitorIndex ∧
        frame.imagePurged = false := by
  unfold Store.insertFrame at hOk
  rw [bind_ok] at hOk
  obtain ⟨⟨n, advanced⟩, hAllocate, hOk⟩ := hOk
  cases hOk
  unfold allocateFrameId at hAllocate
  rw [bind_ok] at hAllocate
  obtain ⟨metadata, -, hAllocate⟩ := hAllocate
  dsimp only at hAllocate
  split at hAllocate
  · cases hAllocate
    refine ⟨fun frame hFrame => ?_, _, rfl, rfl, rfl, rfl, rfl⟩
    have hLe := le_currentMaxFrameId hFrame
    have := Nat.le_max_right metadata.frameIdHighWater (currentMaxFrameId db)
    omega
  · cases hAllocate

theorem insertFrame_captured (h : t.Captured) {f : NewFrame} {id : Int} {tables : FrameTables}
    (hOk : Store.insertFrame f t.db.toFrameTables = .ok (id, tables)) {after : ImageTables}
    (hAfter : after = { db := { t.db with toFrameTables := tables }
                        imagePath := Function.update t.imagePath id
                          (imagePaths f.capturedAt f.monitorIndex) }) :
    after.Captured ∧ t.Grows after := by
  obtain ⟨hAbove, frame, hFrames, hId, hTime, hMonitor, -⟩ := insertFrame_row hOk
  subst hAfter
  refine ⟨⟨?_, ?_⟩, fun f hf => ⟨f, ?_, rfl, rfl, rfl, fun hMark => hMark⟩⟩
  · show (tables.frames.map StoredFrame.id).Nodup
    rw [hFrames, List.map_append]
    refine List.nodup_append.mpr ⟨h.nodup, List.nodup_singleton _, fun a hOld b hNew => ?_⟩
    obtain ⟨old, hIn, rfl⟩ := List.mem_map.mp hOld
    rw [List.mem_singleton.mp hNew, hId]
    exact (hAbove old hIn).ne
  · intro row hRow
    replace hRow : row ∈ tables.frames := hRow
    rw [hFrames] at hRow
    show Function.update t.imagePath id _ row.id = _
    rcases List.mem_append.mp hRow with hOld | hNew
    · rw [Function.update_of_ne (hAbove row hOld).ne]
      exact h.paths row hOld
    · rw [List.mem_singleton.mp hNew, hId, Function.update_self, hTime, hMonitor]
  · show f ∈ tables.frames
    rw [hFrames]
    exact List.mem_append_left _ hf

/-- The lines of a frame's text, with the text of each. -/
def SameLines (spans spans' : List TextSpan) : Prop :=
  lineIndices spans' = lineIndices spans ∧
    ∀ index ∈ lineIndices spans, lineText spans' index = lineText spans index

def unpurged (f : StoredFrame) : StoredFrame := { f with imagePurged := false }

/-- What marking a frame leaves as it is. -/
structure TextKept (db db' : SearchTables) : Prop where
  rows : db'.frames.map unpurged = db.frames.map unpurged
  frameText : db'.frameText = db.frameText
  visionAnalysis : db'.visionAnalysis = db.visionAnalysis
  contentFts : db'.contentFts = db.contentFts
  rawFts : db'.rawFts = db.rawFts
  embeddings : db'.embeddings = db.embeddings
  embeddingVectors : db'.embeddingVectors = db.embeddingVectors
  lines : ∀ frameId, SameLines (db.readTextSpans frameId) (db'.readTextSpans frameId)

theorem SameLines.refl (spans : List TextSpan) : SameLines spans spans := ⟨rfl, fun _ _ => rfl⟩

theorem TextKept.refl (db : SearchTables) : TextKept db db :=
  ⟨rfl, rfl, rfl, rfl, rfl, rfl, rfl, fun _ => .refl _⟩

theorem degrade_kept {db db' : SearchTables} {frameId : Int}
    (hOk : db.degradeFrameToText textFilter frameId = .ok db') :
    TextKept db db' ∧ db'.frames = db.frames.map fun frame =>
      if frame.id = frameId then { frame with imagePurged := true } else frame := by
  unfold SearchTables.degradeFrameToText SearchTables.mergeFrameSpans at hOk
  rw [bind_ok] at hOk
  obtain ⟨merged, hMerged, hOk⟩ := hOk
  cases hOk
  dsimp only at hMerged
  have hRows : ∀ frames : List StoredFrame, (frames.map fun frame =>
      if frame.id = frameId then { frame with imagePurged := true } else frame).map unpurged =
        frames.map unpurged := by
    intro frames
    rw [List.map_map]
    refine List.map_congr_left fun frame _ => ?_
    show unpurged (if _ then _ else _) = _
    split <;> rfl
  split at hMerged
  · cases hMerged
    exact ⟨⟨hRows _, rfl, rfl, rfl, rfl, rfl, rfl, fun _ => .refl _⟩, rfl⟩
  · have hRead := replaceTextSpans_read hMerged
    obtain ⟨rows, rfl⟩ := replaceTextSpans_ok hMerged
    refine ⟨⟨hRows _, rfl, rfl, rfl, rfl, rfl, rfl, fun other => ?_⟩, rfl⟩
    show SameLines _ (SearchTables.readTextSpans { db with textSpans := rows } other)
    rw [hRead other]
    split
    · next hSame =>
      rw [hSame]
      exact ⟨(mergeSpansToLines_lines _ _).1, fun index => mergeSpansToLines_lineText _ _⟩
    · exact .refl _

theorem degrade_captured (h : t.Captured) {frameId : Int} {db' : SearchTables}
    (hOk : t.db.degradeFrameToText textFilter frameId = .ok db') :
    ({ t with db := db' } : ImageTables).Captured ∧ t.Grows { t with db := db' } := by
  obtain ⟨-, hFrames⟩ := degrade_kept hOk
  have hIds : db'.frames.map StoredFrame.id = t.db.frames.map StoredFrame.id := by
    rw [hFrames, List.map_map]
    refine List.map_congr_left fun frame _ => ?_
    show StoredFrame.id (if _ then _ else _) = _
    split <;> rfl
  refine ⟨⟨hIds ▸ h.nodup, fun row hRow => ?_⟩, fun f hf => ?_⟩
  · replace hRow : row ∈ db'.frames := hRow
    rw [hFrames] at hRow
    obtain ⟨f, hf, rfl⟩ := List.mem_map.mp hRow
    have := h.paths f hf
    split <;> exact this
  · refine ⟨if f.id = frameId then { f with imagePurged := true } else f, ?_, ?_⟩
    · show _ ∈ db'.frames
      rw [hFrames]
      exact List.mem_map_of_mem hf
    · split
      · exact ⟨rfl, rfl, rfl, fun _ => rfl⟩
      · exact ⟨rfl, rfl, rfl, id⟩

/-! ## Calls -/

/-- The candidates that are still to come, the one that is under way first. -/
def SweepPhase.pending : SweepPhase → List FrameMeta
  | .removing todo => todo
  | .degrading frame todo => frame :: todo
  | _ => []

/-- The call has its candidates, and has not ended early. -/
def SweepPhase.isListed : SweepPhase → Bool
  | .removing _ | .degrading .. | .returned (.ok _) => true
  | _ => false

/-- A candidate has the time and the path of a row that is older than the cutoff. -/
def FrameMeta.Of (t : ImageTables) (cutoff : Option Int) (c : FrameMeta) : Prop :=
  ∃ f ∈ t.db.frames, f.id = c.frameId ∧ f.capturedAt = c.capturedAt ∧
    c.imagePath = imagePaths f.capturedAt f.monitorIndex ∧ ∃ bound ∈ cutoff, f.capturedAt < bound

/-- The frame was marked, or it is a candidate, or there are as many candidates as there can be
and none is newer. -/
def SweepCall.Covers (t : ImageTables) (call : SweepCall) (f : StoredFrame) : Prop :=
  t.Purged f.id ∨ f.id ∈ call.listed.map FrameMeta.frameId ∨
    (call.listed.length = retentionBatch ∧ ∀ c ∈ call.listed, c.capturedAt ≤ f.capturedAt)

/-- What a call knows of the tables. -/
structure SweepCall.Ok (t : ImageTables) (call : SweepCall) : Prop where
  known : ∀ f ∈ call.known, ∃ f' ∈ t.db.frames, f'.id = f.id ∧ f'.capturedAt = f.capturedAt
  starting : call.phase = .listing → call.cutoff.isSome ∧ call.degraded = 0
  listed : ∀ c ∈ call.listed, c.Of t call.cutoff
  distinct : (call.listed.map FrameMeta.frameId).Nodup
  pending : ∀ c ∈ call.phase.pending, c ∈ call.listed
  done : call.phase.isListed = true → call.faulty = false →
    (∀ c ∈ call.listed, c ∈ call.phase.pending ∨ t.Purged c.frameId) ∧
      call.degraded + call.phase.pending.length = call.listed.length
  covered : call.phase.isListed = true → ∀ f ∈ call.known, ∀ bound ∈ call.cutoff,
    f.capturedAt < bound → call.Covers t f

theorem SweepCall.Ok.mono (h : call.Ok t) (hGrows : t.Grows t') : call.Ok t' := by
  refine ⟨fun f hf => ?_, h.starting, fun c hc => ?_, h.distinct, h.pending, fun hListed hFine => ?_,
    fun hListed f hf bound hBound hOld => ?_⟩
  · obtain ⟨f', hf', hId, hTime⟩ := h.known f hf
    obtain ⟨f'', hf'', hId', hTime', -, -⟩ := hGrows f' hf'
    exact ⟨f'', hf'', hId'.trans hId, hTime'.trans hTime⟩
  · obtain ⟨f, hf, hId, hTime, hPath, bound, hBound, hOld⟩ := h.listed c hc
    obtain ⟨f', hf', hId', hTime', hMonitor, -⟩ := hGrows f hf
    refine ⟨f', hf', hId'.trans hId, hTime'.trans hTime, ?_, bound, hBound, hTime' ▸ hOld⟩
    rw [hPath, hTime', hMonitor]
  · obtain ⟨hEach, hCount⟩ := h.done hListed hFine
    exact ⟨fun c hc => (hEach c hc).imp_right hGrows.purged, hCount⟩
  · exact (h.covered hListed f hf bound hBound hOld).imp_left hGrows.purged

/-- The rows that are listed, oldest first, are rows of frames to degrade; one that is not listed
comes after as many as are listed at once. -/
theorem listing_covers {bound : Int} {f : StoredFrame}
    (hf : f ∈ t.db.frames) (hOld : f.capturedAt < bound) :
    t.Purged f.id ∨
      f.id ∈ (t.framesWithImageOlderThan bound retentionBatch).map FrameMeta.frameId ∨
      ((t.framesWithImageOlderThan bound retentionBatch).length = retentionBatch ∧
        ∀ c ∈ t.framesWithImageOlderThan bound retentionBatch, c.capturedAt ≤ f.capturedAt) := by
  rcases hMark : f.imagePurged with - | -
  · right
    have hIn : f ∈ Sorting.sortByKey StoredFrame.capturedAt (t.imageOlderThan bound) := by
      refine (Sorting.mem_sortByKey _).mpr (List.mem_filter.mpr ⟨hf, ?_⟩)
      rw [hMark, decide_eq_true hOld]
      rfl
    have hSorted := Sorting.sortByKey_pairwise StoredFrame.capturedAt (t.imageOlderThan bound)
    unfold ImageTables.framesWithImageOlderThan
    generalize Sorting.sortByKey StoredFrame.capturedAt (t.imageOlderThan bound) = sorted at *
    rw [← List.take_append_drop retentionBatch sorted] at hIn hSorted
    rcases List.mem_append.mp hIn with hTake | hDrop
    · refine .inl ?_
      rw [List.map_map]
      exact List.mem_map.mpr ⟨f, hTake, rfl⟩
    · refine .inr ⟨?_, fun c hc => ?_⟩
      · rw [List.length_map, List.length_take]
        have := List.length_pos_of_mem hDrop
        rw [List.length_drop] at this
        omega
      · obtain ⟨earlier, hEarlier, rfl⟩ := List.mem_map.mp hc
        exact (List.pairwise_append.mp hSorted).2.2 earlier hEarlier f hDrop
  · exact .inl ⟨f, hf, rfl, hMark⟩

theorem listing_of (hCaptured : t.Captured) {bound : Int} {limit : Nat} :
    (∀ c ∈ t.framesWithImageOlderThan bound limit, c.Of t (some bound)) ∧
      ((t.framesWithImageOlderThan bound limit).map FrameMeta.frameId).Nodup := by
  unfold ImageTables.framesWithImageOlderThan
  constructor
  · intro c hc
    obtain ⟨f, hf, rfl⟩ := List.mem_map.mp hc
    obtain ⟨hIn, hOld⟩ := List.mem_filter.mp
      ((Sorting.mem_sortByKey _).mp (List.mem_of_mem_take hf))
    exact ⟨f, hIn, rfl, rfl, hCaptured.paths f hIn, bound, rfl,
      of_decide_eq_true (Bool.and_eq_true_iff.mp hOld).1⟩
  · rw [List.map_map]
    have hSorted := (Sorting.sortByKey_perm StoredFrame.capturedAt (t.imageOlderThan bound)).map
      StoredFrame.id
    have hNodup : ((t.imageOlderThan bound).map StoredFrame.id).Nodup :=
      hCaptured.nodup.sublist (List.filter_sublist.map _)
    exact (hSorted.nodup_iff.mpr hNodup).sublist ((List.take_sublist _ _).map _)

/-! ## What an event does -/

/-- One constructor for each way an event can go. -/
inductive RetentionStep (textFilter : TextFilter) (s : RetentionState) :
    RetentionEvent → RetentionState → Prop where
  | unchanged (e : RetentionEvent) : RetentionStep textFilter s e s
  | off {i raw now} (hIdle : (s.calls i).phase = .idle) :
      RetentionStep textFilter s (.start i raw now)
        (s.setCall i { SweepCall.idle with phase := .returned (.ok 0) })
  | started {i raw now} (hIdle : (s.calls i).phase = .idle) :
      RetentionStep textFilter s (.start i raw now) (s.setCall i { SweepCall.idle with
        phase := .listing
        cutoff := some (retentionCutoff (loadRetentionDays raw) now)
        known := s.tables.db.frames })
  | notListed {i fails} :
      RetentionStep textFilter s (.advance i fails) (s.setCall i { s.calls i with
        phase := .returned (.error "listing failed")
        faulty := true })
  | listed {i fails} (hPhase : (s.calls i).phase = .listing) :
      RetentionStep textFilter s (.advance i fails) (s.setCall i { s.calls i with
        phase := .removing (s.tables.framesWithImageOlderThan ((s.calls i).cutoff.getD i64Min)
          retentionBatch)
        listed := s.tables.framesWithImageOlderThan ((s.calls i).cutoff.getD i64Min)
          retentionBatch })
  | finished {i fails} (hPhase : (s.calls i).phase = .removing []) :
      RetentionStep textFilter s (.advance i fails)
        (s.setCall i { s.calls i with phase := .returned (.ok (s.calls i).degraded) })
  | noFile {i fails frame todo} (hPhase : (s.calls i).phase = .removing (frame :: todo))
      (hPath : safeFramePath frame.imagePath = none) :
      RetentionStep textFilter s (.advance i fails)
        (s.setCall i { s.calls i with phase := .degrading frame todo })
  | notRemoved {i fails frame todo} (hPhase : (s.calls i).phase = .removing (frame :: todo)) :
      RetentionStep textFilter s (.advance i fails)
        (s.setCall i { s.calls i with phase := .removing todo, faulty := true })
  | removed {i fails frame todo path} (hPhase : (s.calls i).phase = .removing (frame :: todo))
      (hPath : safeFramePath frame.imagePath = some path) :
      RetentionStep textFilter s (.advance i fails)
        { s.setCall i { s.calls i with phase := .degrading frame todo } with
          disk := Function.update s.disk path false }
  | notMarked {i fails frame todo} (hPhase : (s.calls i).phase = .degrading frame todo) :
      RetentionStep textFilter s (.advance i fails)
        (s.setCall i { s.calls i with phase := .removing todo, faulty := true })
  | marked {i fails frame todo db'} (hPhase : (s.calls i).phase = .degrading frame todo)
      (hOk : s.tables.db.degradeFrameToText textFilter frame.frameId = .ok db') :
      RetentionStep textFilter s (.advance i fails)
        { s.setCall i { s.calls i with
            phase := .removing todo
            degraded := (s.calls i).degraded + 1 } with
          tables := { s.tables with db := db' } }
  | stopped {i} : RetentionStep textFilter s (.stop i)
      (s.setCall i { s.calls i with phase := .stopped })
  | wrote (capturedAt : Int) (monitor : Nat) :
      RetentionStep textFilter s (.writeImage capturedAt monitor)
        { s with disk := Function.update s.disk (imageFile capturedAt monitor) true }
  | inserted {f id tables} (hOk : Store.insertFrame f s.tables.db.toFrameTables = .ok (id, tables)) :
      RetentionStep textFilter s (.insertFrame f) { s with tables :=
        { db := { s.tables.db with toFrameTables := tables }
          imagePath := Function.update s.tables.imagePath id
            (imagePaths f.capturedAt f.monitorIndex) } }
  | filtered {frameId ocr ctx db'}
      (hOk : s.tables.db.insertOcrFiltered textFilter frameId ocr ctx = .ok db') :
      RetentionStep textFilter s (.insertOcrFiltered frameId ocr ctx)
        { s with tables := { s.tables with db := db' } }

theorem advance_cases (textFilter : TextFilter) (s : RetentionState) (i : Nat) (fails : Bool) :
    RetentionStep textFilter s (.advance i fails) (s.advance textFilter i fails) := by
  unfold RetentionState.advance
  dsimp only
  split
  · exact .unchanged _
  · exact .unchanged _
  · exact .unchanged _
  · next hPhase =>
    split
    · exact .notListed
    · exact .listed hPhase
  · next hPhase => exact .finished hPhase
  · next frame todo hPhase =>
    split
    · next hPath => exact .noFile hPhase hPath
    · next path hPath =>
      split
      · exact .notRemoved hPhase
      · exact .removed hPhase hPath
  · next frame todo hPhase =>
    split
    · exact .notMarked hPhase
    · next db' hResult =>
      split at hResult
      · cases hResult
      · exact .marked hPhase hResult

theorem step_cases (textFilter : TextFilter) (s : RetentionState) (e : RetentionEvent) :
    RetentionStep textFilter s e (s.step textFilter e) := by
  rcases e with ⟨i, raw, now⟩ | ⟨i, fails⟩ | i | ⟨capturedAt, monitor⟩ | f | ⟨frameId, ocr, ctx⟩
  · unfold RetentionState.step
    dsimp only
    split
    · next hIdle =>
      split
      · exact .off hIdle
      · exact .started hIdle
    · exact .unchanged _
  · exact advance_cases textFilter s i fails
  · unfold RetentionState.step
    dsimp only
    split
    · exact .unchanged _
    · exact .unchanged _
    · exact .stopped
  · exact .wrote capturedAt monitor
  · unfold RetentionState.step
    dsimp only
    split
    · exact .unchanged _
    · next id tables hOk => exact .inserted hOk
  · unfold RetentionState.step
    dsimp only
    split
    · exact .unchanged _
    · next db' hOk => exact .filtered hOk

theorem setCall_calls (s : RetentionState) (j : Nat) (call : SweepCall) (i : Nat) :
    (s.setCall j call).calls i = s.calls i ∨ i = j ∧ (s.setCall j call).calls i = call := by
  by_cases hSame : i = j
  · rw [hSame]
    exact .inr ⟨rfl, RetentionState.setCall_self ..⟩
  · exact .inl (Function.update_of_ne hSame _ _)

/-! ## One operation -/

/-- What an operation of a call with this cutoff leaves alone. -/
structure SweepKeeps (cutoff : Option Int) (s s' : RetentionState) : Prop where
  text : TextKept s.tables.db s'.tables.db
  paths : s'.tables.imagePath = s.tables.imagePath
  /-- The row of a frame at or after the cutoff. -/
  recent : ∀ f ∈ s.tables.db.frames, (∀ bound ∈ cutoff, bound ≤ f.capturedAt) →
    f ∈ s'.tables.db.frames
  /-- The file it refers to. -/
  referred : ∀ f ∈ s.tables.db.frames, (∀ bound ∈ cutoff, bound ≤ f.capturedAt) →
    ∀ path, safeFramePath (s.tables.imagePath f.id) = some path → s'.disk path = s.disk path
  /-- The file of a capture whose row is still to come. -/
  images : ∀ capturedAt monitor, (∀ bound ∈ cutoff, bound ≤ capturedAt) →
    s'.disk (imageFile capturedAt monitor) = s.disk (imageFile capturedAt monitor)
  /-- Any file but the one of an older frame. -/
  files : ∀ path, s'.disk path = s.disk path ∨ s'.disk path = false ∧
    ∃ f ∈ s.tables.db.frames, safeFramePath (s.tables.imagePath f.id) = some path ∧
      ∃ bound ∈ cutoff, f.capturedAt < bound

structure RetentionState.Ok (s : RetentionState) : Prop where
  tables : s.tables.Captured
  calls : ∀ i, (s.calls i).Ok s.tables

variable {cutoff : Option Int} {i : Nat}

theorem sweepKeeps_same (hTables : s'.tables = s.tables) (hDisk : s'.disk = s.disk) :
    SweepKeeps cutoff s s' := by
  constructor
  · rw [hTables]
    exact .refl _
  · rw [hTables]
  · intro f hf _
    rwa [hTables]
  · intro f _ _ path _
    rw [hDisk]
  · intro capturedAt monitor _
    rw [hDisk]
  · exact fun path => .inl (congrFun hDisk path)

/-- The file of a candidate is removed. -/
theorem sweepKeeps_remove (hCaptured : s.tables.Captured) {c : FrameMeta}
    (hOf : c.Of s.tables cutoff) {path : DataFile} (hPath : safeFramePath c.imagePath = some path)
    (hTables : s'.tables = s.tables) (hDisk : s'.disk = Function.update s.disk path false) :
    SweepKeeps cutoff s s' := by
  obtain ⟨f, hf, hId, -, hImage, bound, hBound, hOld⟩ := hOf
  have hFile : imageFile f.capturedAt f.monitorIndex = path := by
    rw [hImage, safeFramePath_image] at hPath
    exact Option.some.inj hPath
  have hImages : ∀ capturedAt monitor, (∀ bound ∈ cutoff, bound ≤ capturedAt) →
      s'.disk (imageFile capturedAt monitor) = s.disk (imageFile capturedAt monitor) := by
    intro capturedAt monitor hRecent
    have hOther : imageFile capturedAt monitor ≠ path := by
      rw [← hFile]
      intro hSame
      have := hRecent bound hBound
      rw [(imageFile_injective hSame).1] at this
      exact absurd hOld (Int.not_lt_of_ge this)
    rw [hDisk, Function.update_of_ne hOther]
  constructor
  · rw [hTables]
    exact .refl _
  · rw [hTables]
  · intro f hf _
    rwa [hTables]
  · intro f hf hRecent path' hPath'
    rw [hCaptured.paths f hf, safeFramePath_image] at hPath'
    rw [← Option.some.inj hPath']
    exact hImages _ _ hRecent
  · exact hImages
  · intro path'
    rw [hDisk]
    by_cases hSame : path' = path
    · refine .inr ⟨by rw [hSame, Function.update_self], f, hf, ?_, bound, hBound, hOld⟩
      rw [hCaptured.paths f hf, safeFramePath_image, hFile, hSame]
    · exact .inl (Function.update_of_ne hSame _ _)

/-- A candidate is marked. -/
theorem sweepKeeps_degrade (hCaptured : s.tables.Captured) {c : FrameMeta}
    (hOf : c.Of s.tables cutoff) {db' : SearchTables}
    (hOk : s.tables.db.degradeFrameToText textFilter c.frameId = .ok db')
    (hTables : s'.tables = { s.tables with db := db' }) (hDisk : s'.disk = s.disk) :
    SweepKeeps cutoff s s' := by
  obtain ⟨f, hf, hId, -, -, bound, hBound, hOld⟩ := hOf
  obtain ⟨hKept, hFrames⟩ := degrade_kept hOk
  constructor
  · rw [hTables]
    exact hKept
  · rw [hTables]
  · intro f' hf' hRecent
    have hOther : f'.id ≠ c.frameId := by
      intro hSame
      obtain rfl := hCaptured.unique hf' hf (hSame.trans hId.symm)
      exact absurd hOld (Int.not_lt_of_ge (hRecent bound hBound))
    rw [hTables]
    show f' ∈ db'.frames
    rw [hFrames]
    exact List.mem_map.mpr ⟨f', hf', if_neg hOther⟩
  · intro f _ _ path _
    rw [hDisk]
  · intro capturedAt monitor _
    rw [hDisk]
  · exact fun path => .inl (congrFun hDisk path)

/-- The call has dealt with the candidate that is under way. -/
theorem SweepCall.Ok.next (h : call.Ok t) {c : FrameMeta} {todo : List FrameMeta}
    (hPending : call.phase.pending = c :: todo) (hListed : call.phase.isListed = true)
    {phase : SweepPhase} {degraded : Nat} {faulty : Bool} (hPhase : phase.pending = todo)
    (hNotListing : phase ≠ .listing)
    (hFaulty : faulty = false → call.faulty = false ∧ t.Purged c.frameId ∧
      degraded = call.degraded + 1) :
    { call with phase := phase, degraded := degraded, faulty := faulty }.Ok t := by
  refine ⟨h.known, fun hListing => absurd hListing hNotListing, h.listed, h.distinct,
    fun c' hc' => ?_, fun _ hFine => ?_, fun _ => h.covered hListed⟩
  · refine h.pending c' (hPending ▸ List.mem_cons_of_mem c ?_)
    rw [← hPhase]
    exact hc'
  · obtain ⟨hWas, hPurged, hCount⟩ := hFaulty hFine
    obtain ⟨hEach, hTotal⟩ := h.done hListed hWas
    rw [hPending] at hEach hTotal
    show (∀ c' ∈ call.listed, c' ∈ phase.pending ∨ t.Purged c'.frameId) ∧
      degraded + phase.pending.length = call.listed.length
    rw [hPhase]
    refine ⟨fun c' hc' => ?_, ?_⟩
    · rcases hEach c' hc' with hIn | hDone
      · rcases List.mem_cons.mp hIn with rfl | hIn
        · exact .inr hPurged
        · exact .inl hIn
      · exact .inr hDone
    · rw [List.length_cons] at hTotal
      omega

/-- The call goes on with the candidates it has. -/
theorem SweepCall.Ok.same (h : call.Ok t) {phase : SweepPhase}
    (hPending : phase.pending = call.phase.pending) (hListed : call.phase.isListed = true)
    (hNotListing : phase ≠ .listing) : { call with phase := phase }.Ok t := by
  refine ⟨h.known, fun hListing => absurd hListing hNotListing, h.listed, h.distinct,
    fun c hc => h.pending c (hPending ▸ hc), fun _ hFine => ?_, fun _ => h.covered hListed⟩
  show (∀ c ∈ call.listed, c ∈ phase.pending ∨ _) ∧ call.degraded + phase.pending.length = _
  rw [hPending]
  exact h.done hListed hFine

/-- The call ends before it has its candidates, or is dropped. -/
theorem SweepCall.Ok.ends (h : call.Ok t) {phase : SweepPhase} {faulty : Bool}
    (hPending : phase.pending = []) (hListed : phase.isListed = false)
    (hNotListing : phase ≠ .listing) :
    { call with phase := phase, faulty := faulty }.Ok t := by
  refine ⟨h.known, fun hListing => absurd hListing hNotListing, h.listed, h.distinct, fun c hc => ?_,
    fun hNow => ?_, fun hNow => ?_⟩
  · replace hc : c ∈ phase.pending := hc
    rw [hPending] at hc
    cases hc
  · exact absurd hNow (hListed ▸ Bool.false_ne_true)
  · exact absurd hNow (hListed ▸ Bool.false_ne_true)

theorem setCall_ok (h : s.Ok) (hCall : call.Ok s.tables) : (s.setCall i call).Ok := by
  refine ⟨h.tables, fun j => ?_⟩
  rcases setCall_calls s i call j with hOther | ⟨-, hSelf⟩
  · rw [hOther]
    exact h.calls j
  · rw [hSelf]
    exact hCall

theorem pending_removing {frame : FrameMeta} {todo : List FrameMeta}
    (hPhase : call.phase = .removing (frame :: todo)) :
    call.phase.pending = frame :: todo ∧ call.phase.isListed = true := by
  rw [hPhase]
  exact ⟨rfl, rfl⟩

theorem pending_degrading {frame : FrameMeta} {todo : List FrameMeta}
    (hPhase : call.phase = .degrading frame todo) :
    call.phase.pending = frame :: todo ∧ call.phase.isListed = true := by
  rw [hPhase]
  exact ⟨rfl, rfl⟩

theorem SweepCall.Ok.underWay (h : call.Ok t) {frame : FrameMeta} {todo : List FrameMeta}
    (hPending : call.phase.pending = frame :: todo) : frame.Of t call.cutoff :=
  h.listed frame (h.pending frame (hPending ▸ List.mem_cons_self))

/-- The call has its candidates. -/
theorem SweepCall.Ok.lists (h : call.Ok t) (hCaptured : t.Captured) (hPhase : call.phase = .listing) :
    { call with
      phase := .removing (t.framesWithImageOlderThan (call.cutoff.getD i64Min) retentionBatch)
      listed := t.framesWithImageOlderThan (call.cutoff.getD i64Min) retentionBatch }.Ok t := by
  obtain ⟨hSome, hNone⟩ := h.starting hPhase
  obtain ⟨bound, hBound⟩ := Option.isSome_iff_exists.mp hSome
  rw [hBound, Option.getD_some]
  obtain ⟨hOf, hDistinct⟩ := @listing_of t hCaptured bound retentionBatch
  refine ⟨h.known, nofun, ?_, hDistinct, fun c hc => hc, ?_, ?_⟩
  · exact fun c hc => hBound ▸ hOf c hc
  · intro _ _
    refine ⟨fun c hc => .inl hc, ?_⟩
    rw [hNone, Nat.zero_add]
    rfl
  · intro _ f hf bound' hBound' hOld
    obtain rfl : bound = bound' := Option.some.inj hBound'
    obtain ⟨f', hf', hId, hTime⟩ := h.known f hf
    unfold SweepCall.Covers
    rw [← hId, ← hTime]
    exact listing_covers hf' (hTime ▸ hOld)

/-- The events of a call. -/
def RetentionEvent.call? : RetentionEvent → Option Nat
  | .start i .. | .advance i _ | .stop i => some i
  | .writeImage .. | .insertFrame _ | .insertOcrFiltered .. => none

theorem start_ok (hNew : call.known = s.tables.db.frames ∨ call.known = [])
    (hStarting : call.phase = .listing → call.cutoff.isSome ∧ call.degraded = 0)
    (hListed : call.listed = []) (hPending : call.phase.pending = []) (hDegraded : call.degraded = 0)
    (hKnown : call.phase.isListed = true → call.known = []) : call.Ok s.tables := by
  refine ⟨fun f hf => ?_, hStarting, ?_, ?_, ?_, fun _ _ => ?_, fun hNow f hf => ?_⟩
  · rcases hNew with hSame | hNone
    · exact ⟨f, hSame ▸ hf, rfl, rfl⟩
    · rw [hNone] at hf
      cases hf
  · rw [hListed]
    exact fun c hc => absurd hc List.not_mem_nil
  · rw [hListed]
    exact List.nodup_nil
  · rw [hPending]
    exact fun c hc => absurd hc List.not_mem_nil
  · rw [hListed, hPending, hDegraded]
    exact ⟨fun c hc => absurd hc List.not_mem_nil, rfl⟩
  · rw [hKnown hNow] at hf
    cases hf

theorem grows_ok (h : s.Ok) (hCaptured : s'.tables.Captured) (hGrows : s.tables.Grows s'.tables)
    (hCalls : s'.calls = s.calls) : s'.Ok := by
  refine ⟨hCaptured, fun j => ?_⟩
  rw [hCalls]
  exact (h.calls j).mono hGrows

theorem insertOcrFiltered_frames {db db' : SearchTables} {frameId : Int} {ocr : OcrResult}
    {ctx : TextFilterContext} (hOk : db.insertOcrFiltered textFilter frameId ocr ctx = .ok db') :
    db'.frames = db.frames :=
  (insertOcrFiltered_written hOk).1.frames

theorem step_ok (h : s.Ok) (e : RetentionEvent) : (s.step textFilter e).Ok := by
  have hStep := step_cases textFilter s e
  generalize s.step textFilter e = s' at hStep ⊢
  cases hStep with
  | unchanged | wrote => exact ⟨h.tables, h.calls⟩
  | off => exact setCall_ok h (start_ok (.inr rfl) nofun rfl rfl rfl fun _ => rfl)
  | started => exact setCall_ok h (start_ok (.inl rfl) (fun _ => ⟨rfl, rfl⟩) rfl rfl rfl nofun)
  | notListed | stopped => exact setCall_ok h ((h.calls _).ends rfl rfl nofun)
  | listed hPhase => exact setCall_ok h ((h.calls _).lists h.tables hPhase)
  | finished hPhase =>
    exact setCall_ok h ((h.calls _).same (by rw [hPhase]; rfl) (by rw [hPhase]; rfl) nofun)
  | noFile hPhase =>
    obtain ⟨hPending, hListed⟩ := pending_removing hPhase
    exact setCall_ok h ((h.calls _).same (by rw [hPending]; rfl) hListed nofun)
  | notRemoved hPhase =>
    obtain ⟨hPending, hListed⟩ := pending_removing hPhase
    exact setCall_ok h ((h.calls _).next hPending hListed rfl nofun nofun)
  | notMarked hPhase =>
    obtain ⟨hPending, hListed⟩ := pending_degrading hPhase
    exact setCall_ok h ((h.calls _).next hPending hListed rfl nofun nofun)
  | @removed i _ frame todo _ hPhase hPath =>
    obtain ⟨hPending, hListed⟩ := pending_removing hPhase
    have hNext : ({ s.calls i with phase := .degrading frame todo } : SweepCall).Ok s.tables :=
      (h.calls i).same (by rw [hPending]; rfl) hListed nofun
    exact ⟨h.tables, (setCall_ok h (i := i) hNext).calls⟩
  | @marked i _ frame todo db' hPhase hOk =>
    obtain ⟨hPending, hListed⟩ := pending_degrading hPhase
    obtain ⟨hCaptured, hGrows⟩ := degrade_captured h.tables hOk
    have hPurged : ImageTables.Purged { s.tables with db := db' } frame.frameId := by
      obtain ⟨f, hf, hId, -⟩ := (h.calls i).underWay hPending
      refine ⟨{ f with imagePurged := true }, ?_, hId, rfl⟩
      show _ ∈ db'.frames
      rw [(degrade_kept hOk).2]
      exact List.mem_map.mpr ⟨f, hf, if_pos hId⟩
    have hAll : ({ s with tables := { s.tables with db := db' } } : RetentionState).Ok :=
      grows_ok h hCaptured hGrows rfl
    exact setCall_ok hAll
      ((hAll.calls i).next hPending hListed rfl nofun fun hFine => ⟨hFine, hPurged, rfl⟩)
  | inserted hOk =>
    obtain ⟨hCaptured, hGrows⟩ := insertFrame_captured h.tables hOk rfl
    exact grows_ok h hCaptured hGrows rfl
  | filtered hOk =>
    have hFrames := insertOcrFiltered_frames hOk
    refine grows_ok h ⟨?_, ?_⟩ (fun f hf => ?_) rfl
    · exact (congrArg (List.map StoredFrame.id) hFrames) ▸ h.tables.nodup
    · exact fun f hf => h.tables.paths f (hFrames ▸ hf)
    · exact ⟨f, hFrames.symm ▸ hf, rfl, rfl, rfl, fun hMark => hMark⟩

/-- An operation of a call. -/
theorem sweep_keeps (h : s.Ok) {e : RetentionEvent} (hCall : e.call? = some i) :
    SweepKeeps (s.calls i).cutoff s (s.step textFilter e) := by
  have hStep := step_cases textFilter s e
  generalize s.step textFilter e = s' at hStep ⊢
  cases hStep with
  | unchanged | off | started | notListed | listed | finished | noFile | notRemoved | notMarked
  | stopped => exact sweepKeeps_same rfl rfl
  | removed hPhase hPath =>
    obtain rfl := Option.some.inj hCall
    have hOf := (h.calls _).underWay (pending_removing hPhase).1
    exact sweepKeeps_remove h.tables hOf hPath rfl rfl
  | marked hPhase hOk =>
    obtain rfl := Option.some.inj hCall
    have hOf := (h.calls _).underWay (pending_degrading hPhase).1
    exact sweepKeeps_degrade h.tables hOf hOk rfl rfl
  | wrote | inserted | filtered => cases hCall

theorem run_ok (h : s.Ok) (events : List RetentionEvent) : (s.run textFilter events).Ok := by
  induction events generalizing s with
  | nil => exact h
  | cons e rest ih => exact ih (step_ok h e)

/-! ## Marks -/

/-- A call that comes to mark a frame has found its file gone. -/
theorem degrading_step {e : RetentionEvent} {frame : FrameMeta} {todo : List FrameMeta}
    (h : ((s.step textFilter e).calls i).phase = .degrading frame todo) :
    (s.calls i).phase = .degrading frame todo ∨
      ∀ path, safeFramePath frame.imagePath = some path →
        (s.step textFilter e).disk path = false := by
  have hSet : ∀ {j : Nat} {call : SweepCall},
      ((s.setCall j call).calls i).phase = .degrading frame todo →
        (s.calls i).phase = .degrading frame todo ∨ call.phase = .degrading frame todo := by
    intro j call hPhase
    rcases setCall_calls s j call i with hOther | ⟨-, hSelf⟩
    · rw [hOther] at hPhase
      exact .inl hPhase
    · rw [hSelf] at hPhase
      exact .inr hPhase
  have hStep := step_cases textFilter s e
  generalize s.step textFilter e = s' at hStep h ⊢
  cases hStep with
  | unchanged | wrote | inserted | filtered => exact .inl h
  | off | started | notListed | listed | finished | notRemoved | notMarked | marked | stopped =>
    exact .inl ((hSet h).resolve_right nofun)
  | noFile hPhase hPath =>
    rcases hSet h with hOld | hNew
    · exact .inl hOld
    · cases hNew
      refine .inr fun path hSome => ?_
      rw [hPath] at hSome
      cases hSome
  | removed hPhase hPath =>
    rcases hSet h with hOld | hNew
    · exact .inl hOld
    · cases hNew
      refine .inr fun path hSome => ?_
      obtain rfl := Option.some.inj (hPath.symm.trans hSome)
      exact Function.update_self ..

/-- A row that an event changes is a new one, or the one that a call marks. -/
theorem frames_step {e : RetentionEvent} {f' : StoredFrame}
    (hf' : f' ∈ (s.step textFilter e).tables.db.frames) :
    f' ∈ s.tables.db.frames ∨ f'.imagePurged = false ∨
      ∃ i frame todo, (s.calls i).phase = .degrading frame todo ∧ f'.id = frame.frameId := by
  have hStep := step_cases textFilter s e
  generalize s.step textFilter e = s' at hStep hf'
  cases hStep with
  | unchanged | off | started | notListed | listed | finished | noFile | notRemoved | removed
  | notMarked | stopped | wrote => exact .inl hf'
  | @marked i _ frame todo db' hPhase hOk =>
    replace hf' : f' ∈ db'.frames := hf'
    rw [(degrade_kept hOk).2] at hf'
    obtain ⟨f, hf, rfl⟩ := List.mem_map.mp hf'
    split
    · next hSame => exact .inr (.inr ⟨i, frame, todo, hPhase, hSame⟩)
    · exact .inl hf
  | @inserted _ _ tables hOk =>
    obtain ⟨-, new, hFrames, -, -, -, hMark⟩ := insertFrame_row hOk
    replace hf' : f' ∈ tables.frames := hf'
    rw [hFrames] at hf'
    rcases List.mem_append.mp hf' with hOld | hNew
    · exact .inl hOld
    · rw [List.mem_singleton.mp hNew]
      exact .inr (.inl hMark)
  | filtered hOk => exact .inl (insertOcrFiltered_frames hOk ▸ hf')

variable {start : RetentionState}

theorem run_append (start : RetentionState) (events : List RetentionEvent) (e : RetentionEvent) :
    start.run textFilter (events ++ [e]) = (start.run textFilter events).step textFilter e :=
  List.foldl_concat ..

theorem gone_before (hIdle : ∀ i, start.calls i = SweepCall.idle) (events : List RetentionEvent)
    {frame : FrameMeta} {todo : List FrameMeta}
    (h : ((start.run textFilter events).calls i).phase = .degrading frame todo) :
    ∃ earlier later, events = earlier ++ later ∧ ∀ path,
      safeFramePath frame.imagePath = some path →
        (start.run textFilter earlier).disk path = false := by
  induction events using List.reverseRecOn generalizing todo with
  | nil =>
    replace h : (start.calls i).phase = _ := h
    rw [hIdle i] at h
    cases h
  | append_singleton events e ih =>
    rw [run_append] at h
    rcases degrading_step h with hBefore | hGone
    · obtain ⟨earlier, later, rfl, hGone⟩ := ih hBefore
      exact ⟨earlier, later ++ [e], List.append_assoc .., hGone⟩
    · refine ⟨events ++ [e], [], (List.append_nil _).symm, fun path hPath => ?_⟩
      rw [run_append]
      exact hGone path hPath

/-- A call keeps its cutoff, and what it knows, to its end. -/
theorem call_kept (textFilter : TextFilter) (hBusy : (s.calls i).phase ≠ .idle) (e : RetentionEvent) :
    ((s.step textFilter e).calls i).phase ≠ .idle ∧
      ((s.step textFilter e).calls i).cutoff = (s.calls i).cutoff ∧
      ((s.step textFilter e).calls i).known = (s.calls i).known := by
  have hSet : ∀ {j : Nat} {call : SweepCall}, (i = j → call.phase ≠ .idle ∧
      call.cutoff = (s.calls j).cutoff ∧ call.known = (s.calls j).known) →
      ((s.setCall j call).calls i).phase ≠ .idle ∧
        ((s.setCall j call).calls i).cutoff = (s.calls i).cutoff ∧
        ((s.setCall j call).calls i).known = (s.calls i).known := by
    intro j call hCall
    rcases setCall_calls s j call i with hOther | ⟨hSame, hSelf⟩
    · rw [hOther]
      exact ⟨hBusy, rfl, rfl⟩
    · rw [hSelf, hSame]
      exact hCall hSame
  have hStep := step_cases textFilter s e
  generalize s.step textFilter e = s' at hStep ⊢
  cases hStep with
  | unchanged | wrote | inserted | filtered => exact ⟨hBusy, rfl, rfl⟩
  | off hIdle | started hIdle => exact hSet fun hSame => absurd (hSame ▸ hIdle) hBusy
  | notListed | listed | finished | noFile | notRemoved | removed | notMarked | marked | stopped =>
    exact hSet fun _ => ⟨nofun, rfl, rfl⟩

theorem start_step {raw : Except HistoryReadError (Option String)}
    (hIdle : (s.calls i).phase = .idle) (hDays : loadRetentionDays raw ≠ 0) (now : Int) :
    s.step textFilter (.start i raw now) = s.setCall i { SweepCall.idle with
      phase := .listing
      cutoff := some (retentionCutoff (loadRetentionDays raw) now)
      known := s.tables.db.frames } := by
  unfold RetentionState.step
  dsimp only
  rw [hIdle]
  dsimp only
  rw [if_neg hDays]

theorem calls_kept (textFilter : TextFilter) (hBusy : (s.calls i).phase ≠ .idle) (events : List RetentionEvent) :
    ((s.run textFilter events).calls i).cutoff = (s.calls i).cutoff ∧
      ((s.run textFilter events).calls i).known = (s.calls i).known := by
  induction events generalizing s with
  | nil => exact ⟨rfl, rfl⟩
  | cons e rest ih =>
    obtain ⟨hNow, hCutoff, hKnown⟩ := call_kept textFilter hBusy e
    obtain ⟨hLaterCutoff, hLaterKnown⟩ := ih hNow
    exact ⟨hLaterCutoff.trans hCutoff, hLaterKnown.trans hKnown⟩

/-! ## The law -/

theorem idle_ok (hCaptured : start.tables.Captured) (hIdle : ∀ i, start.calls i = SweepCall.idle) :
    start.Ok := by
  refine ⟨hCaptured, fun i => ?_⟩
  rw [hIdle i]
  exact start_ok (.inr rfl) nofun rfl rfl rfl fun _ => rfl

/-- What the sweep promises about a run, where `start` is the store before the first call. -/
structure Retains (textFilter : TextFilter) (start : RetentionState)
    (events : List RetentionEvent) : Prop where
  /-- A call's cutoff is the retention it read before the time it read, and it knows the frames
  that were there. -/
  started : ∀ earlier later i raw now, events = earlier ++ .start i raw now :: later →
    ((start.run textFilter earlier).calls i).phase = .idle → loadRetentionDays raw ≠ 0 →
    ((start.run textFilter events).calls i).cutoff =
        some (retentionCutoff (loadRetentionDays raw) now) ∧
      ((start.run textFilter events).calls i).known =
        (start.run textFilter earlier).tables.db.frames
  /-- An event marks a frame only after its file was gone. -/
  marked : ∀ e, ∀ f ∈ (start.run textFilter events).tables.db.frames, f.imagePurged = false →
    ∀ f' ∈ ((start.run textFilter events).step textFilter e).tables.db.frames, f'.id = f.id →
      f'.imagePurged = true → ∃ earlier later, events = earlier ++ later ∧ ∀ path,
        safeFramePath ((start.run textFilter events).tables.imagePath f.id) = some path →
          (start.run textFilter earlier).disk path = false
  /-- An operation of a call touches files and flags of frames older than its cutoff only. -/
  spared : ∀ e i, e.call? = some i →
    SweepKeeps ((start.run textFilter events).calls i).cutoff (start.run textFilter events)
      ((start.run textFilter events).step textFilter e)
  /-- A call that returned and in which nothing failed has marked as many frames as it returns,
  and no frame that was there when it started and is older is left, unless it has marked
  `retentionBatch` frames that are no newer. -/
  swept : ∀ i n, ((start.run textFilter events).calls i).phase = .returned (.ok n) →
    ((start.run textFilter events).calls i).faulty = false →
    ∀ f ∈ ((start.run textFilter events).calls i).known,
      ∀ bound ∈ ((start.run textFilter events).calls i).cutoff, f.capturedAt < bound →
      (start.run textFilter events).tables.Purged f.id ∨
        ∃ marked : List FrameMeta, marked.length = retentionBatch ∧
          (marked.map FrameMeta.frameId).Nodup ∧
          ∀ c ∈ marked, (start.run textFilter events).tables.Purged c.frameId ∧
            c.Of (start.run textFilter events).tables (some bound) ∧ c.capturedAt ≤ f.capturedAt

theorem retention_law (textFilter : TextFilter) (start : RetentionState)
    (hCaptured : start.tables.Captured) (hIdle : ∀ i, start.calls i = SweepCall.idle)
    (events : List RetentionEvent) : Retains textFilter start events := by
  have hOk : (start.run textFilter events).Ok := run_ok (idle_ok hCaptured hIdle) events
  constructor
  · intro earlier later i raw now hEvents hPhase hDays
    have hStep : ((start.run textFilter earlier).step textFilter (.start i raw now)).calls i =
        { SweepCall.idle with
          phase := .listing
          cutoff := some (retentionCutoff (loadRetentionDays raw) now)
          known := (start.run textFilter earlier).tables.db.frames } := by
      rw [start_step hPhase hDays now, RetentionState.setCall_self]
    rw [hEvents, show start.run textFilter (earlier ++ .start i raw now :: later) =
      ((start.run textFilter earlier).step textFilter (.start i raw now)).run textFilter later from
        List.foldl_append]
    have hBusy : (((start.run textFilter earlier).step textFilter
        (.start i raw now)).calls i).phase ≠ .idle := by
      rw [hStep]
      nofun
    obtain ⟨hCutoff, hKnown⟩ := calls_kept textFilter hBusy later
    rw [hCutoff, hKnown, hStep]
    exact ⟨rfl, rfl⟩
  · intro e f hf hUnmarked f' hf' hId hMark
    rcases frames_step hf' with hOld | hNew | ⟨i, frame, todo, hPhase, hSame⟩
    · rw [hOk.tables.unique hOld hf hId, hUnmarked] at hMark
      cases hMark
    · rw [hNew] at hMark
      cases hMark
    · obtain ⟨earlier, later, hEvents, hGone⟩ := gone_before hIdle events hPhase
      refine ⟨earlier, later, hEvents, fun path hPath => hGone path ?_⟩
      -- the candidate has the path of the row
      have hPending : frame ∈ ((start.run textFilter events).calls i).phase.pending := by
        rw [hPhase]
        exact List.mem_cons_self
      obtain ⟨row, hRow, hRowId, -, hImage, -⟩ :=
        (hOk.calls i).listed frame ((hOk.calls i).pending frame hPending)
      obtain rfl := hOk.tables.unique hRow hf (hRowId.trans (hSame.symm.trans hId))
      rwa [hImage, ← hOk.tables.paths row hRow]
  · exact fun e i hCall => sweep_keeps hOk hCall
  · intro i n hReturned hFine f hf bound hBound hOld
    have hCall := hOk.calls i
    have hListed : ((start.run textFilter events).calls i).phase.isListed = true := by
      rw [hReturned]
      rfl
    have hEach : ∀ c ∈ ((start.run textFilter events).calls i).listed,
        (start.run textFilter events).tables.Purged c.frameId := by
      intro c hc
      rcases (hCall.done hListed hFine).1 c hc with hPending | hDone
      · rw [hReturned] at hPending
        cases hPending
      · exact hDone
    rcases hCall.covered hListed f hf bound hBound hOld with hDone | hIn | ⟨hFull, hOlder⟩
    · exact .inl hDone
    · obtain ⟨c, hc, hId⟩ := List.mem_map.mp hIn
      exact .inl (hId ▸ hEach c hc)
    · refine .inr ⟨_, hFull, hCall.distinct, fun c hc => ⟨hEach c hc, ?_, hOlder c hc⟩⟩
      have hOf := hCall.listed c hc
      rwa [Option.mem_def.mp hBound] at hOf

/-! ## More frames than one call lists -/

/-- A frame a millisecond, the first at zero. -/
def crowd (count : Nat) : List StoredFrame := (List.range count).map fun n : Nat =>
  { id := (n : Int) + 1
    capturedAt := n
    monitorIndex := 0
    appHint := none
    windowTitle := none
    browserUrl := none
    activityType := none
    sessionId := none
    imagePurged := false }

def crowded (count : Nat) : RetentionState where
  tables :=
    { db := { SearchTables.fresh "id" with frames := crowd count }
      imagePath := fun frameId => imagePaths (frameId - 1) 0 }
  disk := fun _ => true
  calls := fun _ => .idle

theorem crowded_captured (count : Nat) : (crowded count).tables.Captured := by
  constructor
  · show ((crowd count).map StoredFrame.id).Nodup
    unfold crowd
    rw [List.map_map]
    refine List.Nodup.map (fun a b h => ?_) List.nodup_range
    replace h : (a : Int) + 1 = (b : Int) + 1 := h
    omega
  · intro f hf
    obtain ⟨n, -, rfl⟩ := List.mem_map.mp (show f ∈ crowd count from hf)
    show imagePaths ((n : Int) + 1 - 1) 0 = imagePaths n 0
    rw [Int.add_sub_cancel]

/-- Thirty days and a bit after the first frame. -/
def sweepStart : List RetentionEvent := [.start 0 (.ok (some "30")) 2600000000, .advance 0 false]

/-- The law on two frames, of which the first loses its file but fails to be marked. -/
theorem retention_law_crowded : Retains (shipped id) (crowded 2) (sweepStart ++
    [.advance 0 false, .advance 0 true, .advance 0 false, .advance 0 false, .advance 0 false]) :=
  retention_law (shipped id) (crowded 2) (crowded_captured 2) (fun _ => rfl) _

/-- Marking a frame without spans succeeds. -/
theorem degrade_plain {db : SearchTables} (hSpans : db.textSpans = []) (frameId : Int) :
    ∃ db', db.degradeFrameToText textFilter frameId = .ok db' ∧ db'.textSpans = [] := by
  have hRead : db.readTextSpans frameId = [] := by
    unfold SearchTables.readTextSpans
    rw [hSpans]
    rfl
  unfold SearchTables.degradeFrameToText SearchTables.mergeFrameSpans
  dsimp only
  rw [hRead]
  exact ⟨_, rfl, hSpans⟩

/-- A call that is left alone, and in which nothing fails, leaves the rows alone that it has not
listed. -/
theorem sweep_finishes (textFilter : TextFilter) {todo : List FrameMeta}
    (hPhase : (s.calls i).phase = .removing todo) (hSpans : s.tables.db.textSpans = []) :
    ∃ k n, ((s.run textFilter (List.replicate k (.advance i false))).calls i).phase =
        .returned (.ok n) ∧
      ((s.run textFilter (List.replicate k (.advance i false))).calls i).faulty =
        (s.calls i).faulty ∧
      ∀ f ∈ s.tables.db.frames, f.id ∉ todo.map FrameMeta.frameId →
        f ∈ (s.run textFilter (List.replicate k (.advance i false))).tables.db.frames := by
  induction todo generalizing s with
  | nil =>
    have hStep : s.step textFilter (.advance i false) =
        s.setCall i { s.calls i with phase := .returned (.ok (s.calls i).degraded) } := by
      show s.advance textFilter i false = _
      unfold RetentionState.advance
      dsimp only
      rw [hPhase]
    have hSelf : (s.step textFilter (.advance i false)).calls i =
        { s.calls i with phase := .returned (.ok (s.calls i).degraded) } := by
      rw [hStep]
      exact Function.update_self ..
    refine ⟨1, (s.calls i).degraded, ?_, ?_, fun f hf _ => ?_⟩
    · exact congrArg SweepCall.phase hSelf
    · show ((s.step textFilter (.advance i false)).calls i).faulty = _
      rw [hSelf]
    · show f ∈ (s.step textFilter (.advance i false)).tables.db.frames
      rw [hStep]
      exact hf
  | cons frame todo ih =>
    -- the file is removed, if the path is one
    obtain ⟨mid, hMid, hMidTables, hMidCall⟩ : ∃ mid, s.step textFilter (.advance i false) = mid ∧
        mid.tables = s.tables ∧
        mid.calls i = { s.calls i with phase := .degrading frame todo } := by
      refine ⟨_, rfl, ?_⟩
      show (s.advance textFilter i false).tables = _ ∧ (s.advance textFilter i false).calls i = _
      unfold RetentionState.advance
      dsimp only
      rw [hPhase]
      dsimp only
      split
      · exact ⟨rfl, Function.update_self ..⟩
      · exact ⟨rfl, Function.update_self ..⟩
    -- and the frame is marked
    obtain ⟨db', hDegrade, hPlain⟩ := @degrade_plain textFilter mid.tables.db
      (hMidTables ▸ hSpans) frame.frameId
    obtain ⟨next, hNext, hNextTables, hNextCall⟩ : ∃ next,
        mid.step textFilter (.advance i false) = next ∧ next.tables.db = db' ∧
        next.calls i = { s.calls i with
          phase := .removing todo
          degraded := (s.calls i).degraded + 1 } := by
      refine ⟨_, rfl, ?_⟩
      show (mid.advance textFilter i false).tables.db = _ ∧
        (mid.advance textFilter i false).calls i = _
      unfold RetentionState.advance
      dsimp only
      rw [hMidCall]
      dsimp only
      rw [if_neg Bool.false_ne_true, hDegrade]
      exact ⟨rfl, Function.update_self ..⟩
    have hRun : ∀ k, s.run textFilter (List.replicate (k + 2) (.advance i false)) =
        next.run textFilter (List.replicate k (.advance i false)) := by
      intro k
      rw [← hNext, ← hMid]
      rfl
    obtain ⟨k, n, hReturned, hFaulty, hRows⟩ :=
      ih (s := next) (by rw [hNextCall]) (by rw [hNextTables]; exact hPlain)
    refine ⟨k + 2, n, ?_, ?_, fun f hf hOther => ?_⟩
    · rw [hRun]
      exact hReturned
    · rw [hRun, hFaulty, hNextCall]
    · rw [hRun]
      obtain ⟨hNot, hLater⟩ := not_or.mp fun hIn => hOther (List.mem_cons.mpr hIn)
      refine hRows f ?_ hLater
      rw [hNextTables, (degrade_kept hDegrade).2, hMidTables]
      exact List.mem_map.mpr ⟨f, hf, if_neg hNot⟩

theorem advance_listing {bound : Int} (hPhase : (s.calls i).phase = .listing)
    (hCutoff : (s.calls i).cutoff = some bound) :
    s.step textFilter (.advance i false) = s.setCall i { s.calls i with
      phase := .removing (s.tables.framesWithImageOlderThan bound retentionBatch)
      listed := s.tables.framesWithImageOlderThan bound retentionBatch } := by
  show s.advance textFilter i false = _
  unfold RetentionState.advance
  dsimp only
  rw [hPhase]
  dsimp only
  rw [if_neg Bool.false_ne_true, hCutoff, Option.getD_some]

theorem sweepStart_run (count : Nat) :
    ((crowded count).run (shipped id) sweepStart).tables = (crowded count).tables ∧
      ((crowded count).run (shipped id) sweepStart).calls 0 =
        { phase := .removing
            ((crowded count).tables.framesWithImageOlderThan 8000000 retentionBatch)
          cutoff := some 8000000
          degraded := 0
          faulty := false
          known := crowd count
          listed := (crowded count).tables.framesWithImageOlderThan 8000000 retentionBatch } := by
  have hDays : loadRetentionDays (.ok (some "30")) = 30 := by decide +kernel
  have hNow : retentionCutoff 30 2600000000 = 8000000 := by decide
  obtain ⟨started, hStart, hTables, hCall⟩ : ∃ started,
      (crowded count).step (shipped id) (.start 0 (.ok (some "30")) 2600000000) = started ∧
      started.tables = (crowded count).tables ∧ started.calls 0 = { SweepCall.idle with
        phase := .listing
        cutoff := some 8000000
        known := crowd count } := by
    refine ⟨_, start_step rfl (hDays ▸ by decide) _, rfl, ?_⟩
    rw [RetentionState.setCall_self, hDays, hNow]
    rfl
  have hRun : (crowded count).run (shipped id) sweepStart =
      started.step (shipped id) (.advance 0 false) := by
    rw [← hStart]
    rfl
  rw [hRun, advance_listing (by rw [hCall]) (by rw [hCall])]
  refine ⟨hTables, ?_⟩
  rw [RetentionState.setCall_self, hCall, hTables]
  rfl

/-- One call over a crowd of which it does not list the last frame. -/
theorem last_left {count : Nat} (hOld : count < 8000000)
    (hNotListed : ((count : Int) + 1) ∉ ((crowded (count + 1)).tables.framesWithImageOlderThan
      8000000 retentionBatch).map FrameMeta.frameId) :
    ∃ events n, (((crowded (count + 1)).run (shipped id) events).calls 0).phase =
        .returned (.ok n) ∧
      (((crowded (count + 1)).run (shipped id) events).calls 0).faulty = false ∧
      ∃ f ∈ (((crowded (count + 1)).run (shipped id) events).calls 0).known,
        ∃ bound ∈ (((crowded (count + 1)).run (shipped id) events).calls 0).cutoff,
          f.capturedAt < bound ∧
            ¬ ((crowded (count + 1)).run (shipped id) events).tables.Purged f.id := by
  obtain ⟨hTables, hCall⟩ := sweepStart_run (count + 1)
  have hCaptured := crowded_captured (count + 1)
  have hLast : ∃ f ∈ crowd (count + 1), f.id = (count : Int) + 1 ∧ f.capturedAt = count ∧
      f.imagePurged = false :=
    ⟨_, List.mem_map_of_mem (List.mem_range.mpr (Nat.lt_succ_self count)), rfl, rfl, rfl⟩
  obtain ⟨f, hf, hId, hTime, hMark⟩ := hLast
  obtain ⟨k, n, hReturned, hFaulty, hRows⟩ :=
    sweep_finishes (shipped id) (congrArg SweepCall.phase hCall) (by rw [hTables]; rfl)
  have hRun : (crowded (count + 1)).run (shipped id)
      (sweepStart ++ List.replicate k (.advance 0 false)) =
        ((crowded (count + 1)).run (shipped id) sweepStart).run (shipped id)
          (List.replicate k (.advance 0 false)) := List.foldl_append
  have hBusy : (((crowded (count + 1)).run (shipped id) sweepStart).calls 0).phase ≠ .idle := by
    rw [hCall]
    nofun
  obtain ⟨hCutoff, hKnown⟩ := calls_kept (shipped id) hBusy (List.replicate k (.advance 0 false))
  refine ⟨sweepStart ++ List.replicate k (.advance 0 false), n, ?_, ?_, f, ?_, 8000000, ?_, ?_, ?_⟩
  · rw [hRun]
    exact hReturned
  · rw [hRun, hFaulty, hCall]
  · rw [hRun, hKnown, hCall]
    exact hf
  · rw [hRun, hCutoff, hCall]
    rfl
  · rw [hTime]
    omega
  · rw [hRun]
    rintro ⟨marked, hMarked, hSame, hPurged⟩
    have hLeft := hRows f (by rw [hTables]; exact hf) (hId ▸ hNotListed)
    have hOk : ((crowded (count + 1)).run (shipped id)
        (sweepStart ++ List.replicate k (.advance 0 false))).Ok :=
      run_ok (idle_ok hCaptured fun _ => rfl) _
    rw [hRun] at hOk
    rw [hOk.tables.unique hMarked hLeft hSame, hMark] at hPurged
    cases hPurged

/-- A thousand and one frames of a month ago: the call returns, nothing failed, and one is left. -/
theorem backlog_left_over :
    ∃ events n, (((crowded 1001).run (shipped id) events).calls 0).phase = .returned (.ok n) ∧
      (((crowded 1001).run (shipped id) events).calls 0).faulty = false ∧
      ∃ f ∈ (((crowded 1001).run (shipped id) events).calls 0).known,
        ∃ bound ∈ (((crowded 1001).run (shipped id) events).calls 0).cutoff,
          f.capturedAt < bound ∧ ¬ ((crowded 1001).run (shipped id) events).tables.Purged f.id :=
  @last_left 1000 (by decide) (by decide +kernel)

end ScreenSearch.App
