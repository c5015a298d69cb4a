import ScreenSearch.Kernel.EmbedWorkers
import ScreenSearch.Store.SearchEffects
import ScreenSearch.TextFilter.Classify

/-!
# Stale embeddings

A worker holds a text across a slow call and stores its vector without asking whether the
frame still has it. Main results:

* `stale_embedding` — so a drained queue can leave an embedding of a text that is gone;
* `drained_fresh` — in a run that is careful it does not.
-/

namespace ScreenSearch.Kernel

open Store SearchTables

/-! ## Careful steps -/

/-- The worker is at work on this job of this frame. -/
def Worker.On (worker : Worker) (id frameId : Int) : Prop :=
  match worker with
  | .idle => False
  | .claimed job | .holding job _ _ _ | .finishing job _ => job.id = id ∧ job.frameId = some frameId

/-- What the worker has yet to do leaves the frame with the embedding of its text, or its
job undone. -/
def Worker.WillStore (worker : Worker) (text : String) : Prop :=
  match worker with
  | .idle | .claimed _ => True
  | .holding _ _ held _ => held = text
  | .finishing _ outcome => ∀ changedData, outcome ≠ .complete changedData

/-- A job of the frame that is still to embed the text, or was given up. -/
structure DueJob (p : EmbedPool) (frameId : Int) (text : String) (job : Job) : Prop where
  mem : job ∈ p.db.jobs
  kind : job.kind = .embedText
  frame : job.frameId = some frameId
  state : job.state = .pending ∨ job.state = .dead ∨ job.state = .running ∧
    ∀ w, (p.workers w).On job.id frameId → (p.workers w).WillStore text

/-- The text is not blank, and there is a job to embed it. -/
def Due (p : EmbedPool) (frameId : Int) (text : String) : Prop :=
  Text.isBlank text = false ∧ ∃ job, DueJob p frameId text job

/-- What a step must not do: store a text that the frame no longer has, or change a text
that is embedded, with no job that makes up for it, or settle the job of another frame
that has got the number of its own. -/
def EmbedPool.Careful (textFilter : TextFilter) (p : EmbedPool) : EmbedEvent → Prop
  | .upsert w _ broken => broken = false → ∀ job frameId text emb,
      p.workers w = .holding job frameId text (some emb) → p.db.hasFrame frameId = true →
      ∃ current, p.db.contentTextOf frameId = some current ∧ (text = current ∨ Due p frameId current)
  | .insertOcrFiltered frameId ocr ctx =>
      let text := (classified textFilter frameId ocr ctx p.db).contentText
      ∀ row ∈ p.db.embeddings, row.frameId = frameId → row.source = .ocr →
        row.chunkText = text ∨ Due p frameId text
  | .finish w _ _ broken => broken = false → ∀ job outcome, p.workers w = .finishing job outcome →
      ∀ row ∈ p.db.jobs, row.id = job.id → row.state = .running → row.frameId = job.frameId
  | _ => True

/-- Every step of the run is careful in the state it is taken in. -/
def EmbedPool.CarefulRun (textFilter : TextFilter) (p : EmbedPool) : List EmbedEvent → Prop
  | [] => True
  | event :: events =>
    p.Careful textFilter event ∧ (p.step textFilter event).CarefulRun textFilter events

/-! ## The invariant -/

/-- The tables by themselves. -/
structure Sound (db : SearchTables) : Prop where
  mirrored : ∃ latest, Mirrored latest db
  ocrChunks : ∀ row ∈ db.embeddings, row.chunkIndex = 0 ∧ row.source = .ocr
  textFrames : ∀ row ∈ db.frameText, db.hasFrame row.frameId = true
  jobFrames : ∀ job ∈ db.jobs, ∀ frameId ∈ job.frameId, db.hasFrame frameId = true
  jobIds : (db.jobs.map Job.id).Nodup

/-- A worker's job and its frame. -/
structure AtWork (db : SearchTables) (highWater : Nat) (worker : Worker) : Prop where
  held : ∀ job frameId text emb, worker = .holding job frameId text emb →
    job.frameId = some frameId
  given : ∀ id frameId, worker.On id frameId → frameId ≤ highWater
  there : ∀ id frameId, worker.On id frameId → db.hasFrame frameId = true →
    ∃ job ∈ db.jobs, job.id = id ∧ job.frameId = some frameId ∧ job.state ≠ .pending

/-- The embedding is of the frame's text, or a job will make it so. -/
def CurrentRow (p : EmbedPool) (row : EmbeddingRow) : Prop :=
  row.source = .ocr → ∃ text, p.db.contentTextOf row.frameId = some text ∧
    (row.chunkText = text ∨ Due p row.frameId text)

structure EmbedPool.Inv (p : EmbedPool) : Prop where
  sound : Sound p.db
  history : ∃ metadata, p.db.WellFormed metadata ∧
    ∀ w, AtWork p.db metadata.frameIdHighWater (p.workers w)
  alone : ∀ v w id frameId, (p.workers v).On id frameId → (p.workers w).On id frameId → v = w
  current : ∀ row ∈ p.db.embeddings, CurrentRow p row

variable {p : EmbedPool} {textFilter : TextFilter}

/-- A drained queue has no job that makes up for anything. -/
theorem drained_not_due (h : drained p.db = true) (frameId : Int) (text : String) :
    ¬ Due p frameId text := by
  rintro ⟨-, job, hDue⟩
  unfold drained at h
  rw [Bool.not_eq_true', List.any_eq_false] at h
  refine h job hDue.mem ?_
  rw [hDue.kind]
  simp only [decide_true, Bool.true_and, decide_eq_true_eq]
  obtain hState | hState | ⟨hState, -⟩ := hDue.state
  · exact .inl hState
  · exact .inr (.inr hState)
  · exact .inr (.inl hState)

theorem EmbedPool.Inv.fresh (h : p.Inv) (hDrained : drained p.db = true) :
    freshEmbeddings p.db = true := by
  unfold freshEmbeddings
  rw [List.all_eq_true]
  intro row hRow
  rw [Bool.or_eq_true, decide_eq_true_eq, decide_eq_true_eq]
  by_cases hSource : row.source = .ocr
  · obtain ⟨text, hText, hSame | hDue⟩ := h.current row hRow hSource
    · exact .inr (hSame ▸ hText)
    · exact absurd hDue (drained_not_due hDrained _ _)
  · exact .inl hSource

theorem start_inv {uuid : String} (hUuid : validHistoryId uuid = true) :
    (EmbedPool.start uuid).Inv := by
  have hWell : (SearchTables.fresh uuid).WellFormed
      { historyId := uuid, frameIdHighWater := currentMaxFrameId noFrames } :=
    @setupHistoryMetadata_wellFormed noFrames uuid hUuid ⟨rfl, rfl⟩ List.nodup_nil
      (fun _ hFrame => by cases hFrame) (fun _ hFrame => by cases hFrame)
  refine ⟨⟨⟨fun _ => none, fresh_mirrored uuid⟩, fun _ h => (by cases h),
    fun _ h => (by cases h), fun _ h => (by cases h), List.nodup_nil⟩,
    ⟨_, hWell, fun w => ⟨fun _ _ _ _ h => (by cases h), fun _ _ h => h.elim,
      fun _ _ h => h.elim⟩⟩, fun _ _ _ _ h => h.elim, fun _ h => (by cases h)⟩

/-! ## The rest of the program -/

/-- What every change of the tables by the rest of the program keeps. -/
structure Changed (p : EmbedPool) (db : SearchTables) : Prop where
  sound : Sound db
  history : ∀ metadata, p.db.WellFormed metadata →
    ∃ highWater, metadata.frameIdHighWater ≤ highWater ∧
      db.WellFormed { metadata with frameIdHighWater := highWater } ∧
      ∀ frameId : Int, frameId ≤ metadata.frameIdHighWater → db.hasFrame frameId = true →
        p.db.hasFrame frameId = true
  kept : ∀ job ∈ p.db.jobs, ∀ frameId, job.frameId = some frameId →
    db.hasFrame frameId = true → job ∈ db.jobs
  current : ∀ row ∈ db.embeddings, row.source = .ocr → ∃ text,
    db.contentTextOf row.frameId = some text ∧ (row.chunkText = text ∨ Due p row.frameId text)

theorem Changed.inv (h : p.Inv) {db : SearchTables} (hChanged : Changed p db) :
    ({ p with db := db } : EmbedPool).Inv where
  sound := hChanged.sound
  alone := h.alone
  history := by
    obtain ⟨metadata, hWell, hWork⟩ := h.history
    obtain ⟨highWater, hLe, hWell', hOld⟩ := hChanged.history metadata hWell
    refine ⟨_, hWell', fun w => ⟨(hWork w).held, fun id frameId hOn => ?_, fun id frameId hOn hHas => ?_⟩⟩
    · have := (hWork w).given id frameId hOn
      show frameId ≤ (highWater : Int)
      omega
    · have hBefore := hOld frameId ((hWork w).given id frameId hOn) hHas
      obtain ⟨job, hJob, hId, hFrame, hState⟩ := (hWork w).there id frameId hOn hBefore
      exact ⟨job, hChanged.kept job hJob frameId hFrame hHas, hId, hFrame, hState⟩
  current := by
    intro row hRow hSource
    obtain ⟨text, hText, hSame | ⟨hBlank, job, hDue⟩⟩ := hChanged.current row hRow hSource
    · exact ⟨text, hText, .inl hSame⟩
    · obtain ⟨textRow, hTextRow, hId⟩ := contentTextOf_some hText
      have hHas : db.hasFrame row.frameId = true := hId ▸ hChanged.sound.textFrames textRow hTextRow
      exact ⟨text, hText, .inr ⟨hBlank, job, hChanged.kept job hDue.mem _ hDue.frame hHas,
        hDue.kind, hDue.frame, hDue.state⟩⟩

theorem insertOcrFiltered_changed (h : p.Inv) {frameId : Int} {ocr : OcrResult}
    {ctx : TextFilterContext} {db : SearchTables}
    (hOk : p.db.insertOcrFiltered textFilter frameId ocr ctx = .ok db)
    (hCareful : p.Careful textFilter (.insertOcrFiltered frameId ocr ctx)) : Changed p db := by
  obtain ⟨latest, hMirrored⟩ := h.sound.mirrored
  obtain ⟨hWritten, hHas, hEmbeddings, hJobs⟩ := insertOcrFiltered_written hOk
  have hFrames : ∀ other, db.hasFrame other = p.db.hasFrame other := by
    intro other
    rw [hasFrame, hasFrame, hWritten.frames]
  refine ⟨⟨⟨latest, insertOcrFiltered_mirrored textFilter hMirrored hOk⟩, ?_, ?_, ?_, ?_⟩,
    hWritten.history, ?_, ?_⟩
  · rw [hEmbeddings]
    exact h.sound.ocrChunks
  · intro row hRow
    rw [hFrames]
    rcases hWritten.rows row hRow with hNew | ⟨old, hOld, hSame⟩
    · exact hNew ▸ hHas
    · exact hSame ▸ h.sound.textFrames old hOld
  · intro job hJob other hFrame
    rw [hFrames]
    exact h.sound.jobFrames job (hJobs ▸ hJob) other hFrame
  · rw [hJobs]
    exact h.sound.jobIds
  · intro job hJob _ _ _
    rwa [hJobs]
  · intro row hRow hSource
    rw [hEmbeddings] at hRow
    obtain ⟨text, hText, hCurrent⟩ := h.current row hRow hSource
    by_cases hFrame : row.frameId = frameId
    · obtain rfl := hFrame
      exact ⟨_, by rw [hWritten.text, if_pos rfl], hCareful row hRow rfl hSource⟩
    · exact ⟨text, by rw [hWritten.text, if_neg hFrame, hText], hCurrent⟩

theorem insertFrame_changed (h : p.Inv) {f : NewFrame} {db : SearchTables}
    (hOk : p.db.insertFrame f = .ok db) : Changed p db := by
  obtain ⟨latest, hMirrored⟩ := h.sound.mirrored
  have hMirrored' := insertFrame_mirrored hMirrored hOk
  obtain ⟨metadata, hWell, -⟩ := h.history
  unfold SearchTables.insertFrame at hOk
  rw [bind_ok] at hOk
  obtain ⟨⟨id, tables⟩, hInsert, hOk⟩ := hOk
  cases hOk
  obtain ⟨-, -, frame, -, -, hFrames, hText⟩ := insertFrame_fresh hWell hInsert
  have hHas : ∀ other, p.db.hasFrame other = true →
      ({ p.db with toFrameTables := tables } : SearchTables).hasFrame other = true := by
    intro other hBefore
    obtain ⟨before, hMem, hId⟩ := hasFrame_iff.mp hBefore
    refine hasFrame_iff.mpr ⟨before, ?_, hId⟩
    show before ∈ tables.frames
    rw [hFrames]
    exact List.mem_append_left _ hMem
  refine ⟨⟨⟨latest, hMirrored'⟩, h.sound.ocrChunks, fun row hRow => ?_, fun job hJob other hFrame => ?_,
    h.sound.jobIds⟩, fun metadata' hWell' => ?_, fun job hJob _ _ _ => hJob, fun row hRow hSource => ?_⟩
  · change row ∈ tables.frameText at hRow
    rw [hText] at hRow
    exact hHas _ (h.sound.textFrames row hRow)
  · exact hHas _ (h.sound.jobFrames job hJob other hFrame)
  · obtain ⟨hId, hAfter, frame', hFrameId, -, hFrames', -⟩ := insertFrame_fresh hWell' hInsert
    refine ⟨_, Nat.le_succ _, hAfter, fun other hLe hOther => ?_⟩
    obtain ⟨found, hFound, hSame⟩ := hasFrame_iff.mp hOther
    change found ∈ tables.frames at hFound
    rw [hFrames'] at hFound
    rcases List.mem_append.mp hFound with hOld | hNew
    · exact hasFrame_iff.mpr ⟨found, hOld, hSame⟩
    · rw [List.mem_singleton.mp hNew, hFrameId, hId] at hSame
      omega
  · obtain ⟨text, hRowText, hCurrent⟩ := h.current row hRow hSource
    refine ⟨text, ?_, hCurrent⟩
    show (tables.frameText.find? _).map _ = _
    rw [hText]
    exact hRowText

theorem appended_ids {jobs : List Job} (h : (jobs.map Job.id).Nodup) {new : Job}
    (hFresh : new.id ∉ jobs.map Job.id) : ((jobs ++ [new]).map Job.id).Nodup := by
  rw [List.map_append, List.map_singleton]
  refine List.nodup_append.mpr ⟨h, List.nodup_singleton _, fun id hOld id' hNew => ?_⟩
  rw [List.mem_singleton.mp hNew]
  exact fun hEq => hFresh (hEq ▸ hOld)

/-- A job more takes nothing away. -/
theorem insertJob_changed (h : p.Inv) {frameId clock : Int} {db : SearchTables}
    (hOk : p.db.insertJob (embedTextJob frameId) clock = .ok db) : Changed p db := by
  obtain ⟨latest, hMirrored⟩ := h.sound.mirrored
  have hMirrored' := insertJob_mirrored hMirrored hOk
  obtain ⟨new, rfl, -, hFrame, -, hFresh, hHas⟩ := insertJob_ok hOk
  refine ⟨⟨⟨latest, hMirrored'⟩, h.sound.ocrChunks, h.sound.textFrames, fun job hJob other hOther => ?_,
    ?_⟩, fun metadata hWell => ?_, fun job hJob _ _ _ => List.mem_append_left _ hJob, h.current⟩
  · rcases List.mem_append.mp hJob with hOld | hNew
    · exact h.sound.jobFrames job hOld other hOther
    · rw [List.mem_singleton.mp hNew, hFrame] at hOther
      exact hHas other hOther
  · exact appended_ids h.sound.jobIds hFresh
  · exact ⟨_, le_rfl, ⟨hWell.historyId, hWell.valid, hWell.allocator, hWell.ids_nodup,
      hWell.ids_pos, hWell.ids_le⟩, fun _ _ hOther => hOther⟩

theorem deleteFrame_changed (h : p.Inv) (frameId : Int) : Changed p (p.db.deleteFrame frameId) := by
  obtain ⟨latest, hMirrored⟩ := h.sound.mirrored
  have hHas : ∀ other, (p.db.deleteFrame frameId).hasFrame other = true ↔
      p.db.hasFrame other = true ∧ other ≠ frameId := by
    intro other
    rw [hasFrame_iff, hasFrame_iff]
    constructor
    · rintro ⟨frame, hFrame, rfl⟩
      obtain ⟨hMem, hNe⟩ := List.mem_filter.mp hFrame
      exact ⟨⟨frame, hMem, rfl⟩, of_decide_eq_true hNe⟩
    · rintro ⟨⟨frame, hFrame, rfl⟩, hNe⟩
      exact ⟨frame, List.mem_filter.mpr ⟨hFrame, decide_eq_true hNe⟩, rfl⟩
  have hText : ∀ other, other ≠ frameId →
      (p.db.deleteFrame frameId).contentTextOf other = p.db.contentTextOf other := by
    intro other hNe
    show ((p.db.frameText.filter fun row => row.frameId ≠ frameId).find? _).map _ = _
    have hBoth : (fun row : FrameTextRow =>
        decide (decide (row.frameId ≠ frameId) = true ∧ (row.frameId == other) = true)) =
          fun row => row.frameId == other := by
      funext row
      rw [Bool.eq_iff_iff, decide_eq_true_eq, decide_eq_true_eq, beq_iff_eq]
      exact ⟨And.right, fun hEq => ⟨hEq ▸ hNe, hEq⟩⟩
    rw [List.find?_filter, hBoth]
    rfl
  refine ⟨⟨⟨latest, deleteFrame_mirrored hMirrored frameId⟩, fun row hRow => ?_, fun row hRow => ?_,
    fun job hJob other hOther => ?_, ?_⟩, fun metadata hWell => ?_, fun job hJob other hOther hIn => ?_,
    fun row hRow hSource => ?_⟩
  · exact h.sound.ocrChunks row (List.mem_of_mem_filter hRow)
  · obtain ⟨hMem, hNe⟩ := List.mem_filter.mp hRow
    exact (hHas _).mpr ⟨h.sound.textFrames row hMem, of_decide_eq_true hNe⟩
  · obtain ⟨hMem, hNe⟩ := List.mem_filter.mp hJob
    refine (hHas _).mpr ⟨h.sound.jobFrames job hMem other hOther, fun hEq => ?_⟩
    exact of_decide_eq_true hNe (hEq ▸ hOther)
  · exact h.sound.jobIds.sublist (List.filter_sublist.map _)
  · exact ⟨_, le_rfl, deleteFrame_wellFormed hWell frameId, fun other _ hOther => ((hHas other).mp hOther).1⟩
  · refine List.mem_filter.mpr ⟨hJob, decide_eq_true fun hEq => ?_⟩
    rw [hOther] at hEq
    exact ((hHas other).mp hIn).2 (Option.some.inj hEq)
  · obtain ⟨hMem, hKept⟩ := List.mem_filter.mp hRow
    have hNe : row.frameId ≠ frameId := by simpa using hKept
    obtain ⟨text, hRowText, hCurrent⟩ := h.current row hMem hSource
    exact ⟨text, by rw [hText _ hNe, hRowText], hCurrent⟩

theorem backfillFrame_changed (h : p.Inv) {b : Backfill} {frameId : Int} {db : SearchTables}
    (hOk : backfillFrame textFilter b p.db frameId = .ok db) : Changed p db := by
  obtain ⟨latest, hMirrored⟩ := h.sound.mirrored
  have hMirrored' := backfillFrame_mirrored textFilter hMirrored hOk
  obtain ⟨text, hWritten, hThere, hCases⟩ := backfillFrame_written hOk
  have hFrames : ∀ other, db.hasFrame other = p.db.hasFrame other := by
    intro other
    rw [hasFrame, hasFrame, hWritten.frames]
  obtain ⟨old, hOld, hOldId⟩ := hThere
  have hTextFrames : ∀ row ∈ db.frameText, db.hasFrame row.frameId = true := by
    intro row hRow
    rw [hFrames]
    rcases hWritten.rows row hRow with hNew | ⟨before, hBefore, hSame⟩
    · exact hNew ▸ hOldId ▸ h.sound.textFrames old hOld
    · exact hSame ▸ h.sound.textFrames before hBefore
  -- the text is the same and nothing is dropped, or the old embeddings go
  rcases hCases with ⟨hEmbeddings, hJobs, hText⟩ | ⟨hEmbeddings, hJobs⟩
  · refine ⟨⟨⟨latest, hMirrored'⟩, ?_, hTextFrames, ?_, ?_⟩, hWritten.history, ?_, ?_⟩
    · rw [hEmbeddings]
      exact h.sound.ocrChunks
    · intro job hJob other hOther
      rw [hFrames]
      exact h.sound.jobFrames job (hJobs ▸ hJob) other hOther
    · rw [hJobs]
      exact h.sound.jobIds
    · intro job hJob _ _ _
      rwa [hJobs]
    · intro row hRow hSource
      rw [hEmbeddings] at hRow
      obtain ⟨text', hRowText, hCurrent⟩ := h.current row hRow hSource
      refine ⟨text', ?_, hCurrent⟩
      rw [hWritten.text]
      split
      · next hFrame => rw [← hText, ← hFrame, hRowText]
      · exact hRowText
  · refine ⟨⟨⟨latest, hMirrored'⟩, ?_, hTextFrames, ?_, ?_⟩, hWritten.history, ?_, ?_⟩
    · exact fun row hRow => h.sound.ocrChunks row (hEmbeddings row hRow).1
    · intro job hJob other hOther
      rw [hFrames]
      rcases hJobs with hSame | ⟨hHas, new, hNew, hFrame, -⟩
      · exact h.sound.jobFrames job (hSame ▸ hJob) other hOther
      · rw [hNew] at hJob
        rcases List.mem_append.mp hJob with hBefore | hIs
        · exact h.sound.jobFrames job hBefore other hOther
        · rw [List.mem_singleton.mp hIs, hFrame] at hOther
          exact Option.some.inj hOther ▸ hHas
    · rcases hJobs with hSame | ⟨-, new, hNew, -, hFresh⟩
      · rw [hSame]
        exact h.sound.jobIds
      · rw [hNew]
        exact appended_ids h.sound.jobIds hFresh
    · intro job hJob _ _ _
      rcases hJobs with hSame | ⟨-, new, hNew, -, -⟩
      · rwa [hSame]
      · rw [hNew]
        exact List.mem_append_left _ hJob
    · intro row hRow hSource
      obtain ⟨hBefore, hOther⟩ := hEmbeddings row hRow
      obtain ⟨text', hRowText, hCurrent⟩ := h.current row hBefore hSource
      have hNe : row.frameId ≠ frameId := fun hEq => hOther ⟨hEq, hSource⟩
      exact ⟨text', by rw [hWritten.text, if_neg hNe, hRowText], hCurrent⟩

/-- A batch is one frame after another; a batch that fails leaves nothing. -/
theorem backfillBatch_inv (h : p.Inv) {b : Backfill} {batch : List Int} {db : SearchTables}
    (hOk : p.db.backfillBatch textFilter b batch = .ok db) : ({ p with db := db } : EmbedPool).Inv := by
  unfold backfillBatch at hOk
  induction batch generalizing p with
  | nil =>
    cases hOk
    exact h
  | cons frameId rest ih =>
    rw [List.foldlM_cons, bind_ok] at hOk
    obtain ⟨between, hFrame, hOk⟩ := hOk
    exact @ih { p with db := between } ((backfillFrame_changed h hFrame).inv h) hOk

/-! ## The workers -/

theorem set_self (p : EmbedPool) (w : Nat) (worker : Worker) :
    (p.set w worker).workers w = worker := by
  show Function.update p.workers w worker w = worker
  exact Function.update_self ..

theorem set_other (p : EmbedPool) {v w : Nat} (h : v ≠ w) (worker : Worker) :
    (p.set w worker).workers v = p.workers v := by
  show Function.update p.workers w worker v = p.workers v
  exact Function.update_of_ne h ..

/-- A worker moves on with its job, or drops it, and leaves the tables. -/
theorem set_inv (h : p.Inv) {w : Nat} {worker : Worker}
    (hOn : ∀ id frameId, worker.On id frameId → (p.workers w).On id frameId)
    (hHeld : ∀ job frameId text emb, worker = .holding job frameId text emb →
      job.frameId = some frameId)
    (hStores : ∀ job frameId, worker.On job frameId → ∀ text, p.db.contentTextOf frameId = some text →
      Text.isBlank text = false → (p.workers w).WillStore text → worker.WillStore text) :
    (p.set w worker).Inv where
  sound := h.sound
  history := by
    obtain ⟨metadata, hWell, hWork⟩ := h.history
    refine ⟨metadata, hWell, fun v => ?_⟩
    by_cases hv : v = w
    · subst hv
      rw [set_self]
      exact ⟨hHeld, fun id frameId hIs => (hWork v).given id frameId (hOn id frameId hIs),
        fun id frameId hIs => (hWork v).there id frameId (hOn id frameId hIs)⟩
    · rw [set_other p hv]
      exact hWork v
  alone := by
    have hBefore : ∀ v id frameId, ((p.set w worker).workers v).On id frameId →
        (p.workers v).On id frameId := by
      intro v id frameId hIs
      by_cases hv : v = w
      · subst hv
        rw [set_self] at hIs
        exact hOn id frameId hIs
      · rwa [set_other p hv] at hIs
    exact fun u v id frameId hu hv =>
      h.alone u v id frameId (hBefore u id frameId hu) (hBefore v id frameId hv)
  current := by
    intro row hRow hSource
    obtain ⟨text, hText, hSame | ⟨hBlank, job, hDue⟩⟩ := h.current row hRow hSource
    · exact ⟨text, hText, .inl hSame⟩
    refine ⟨text, hText, .inr ⟨hBlank, job, hDue.mem, hDue.kind, hDue.frame, ?_⟩⟩
    obtain hState | hState | ⟨hState, hWorkers⟩ := hDue.state
    · exact .inl hState
    · exact .inr (.inl hState)
    · refine .inr (.inr ⟨hState, fun v hIs => ?_⟩)
      by_cases hv : v = w
      · subst hv
        rw [set_self] at hIs ⊢
        exact hStores _ _ hIs text hText hBlank (hWorkers v (hOn _ _ hIs))
      · rw [set_other p hv] at hIs ⊢
        exact hWorkers v hIs

/-- A worker that reads the frame's text holds the text that it has. -/
theorem read_inv (h : p.Inv) {w : Nat} {job : Job} (hWorker : p.workers w = .claimed job)
    (broken : Bool) : (p.set w (afterRead p.db broken job)).Inv := by
  have hOn : ∀ id frameId, (p.workers w).On id frameId ↔ job.id = id ∧ job.frameId = some frameId := by
    intro id frameId
    rw [hWorker]
    exact Iff.rfl
  unfold afterRead
  split
  · next hNone =>
    refine set_inv h (fun id frameId hIs => (hOn id frameId).mpr hIs) (fun _ _ _ _ hEq => by cases hEq) ?_
    intro _ _ _ _ _ _ _ changedData hEq
    cases hEq
  next frameId hFrame =>
  split
  · refine set_inv h (fun id frameId hIs => (hOn id frameId).mpr hIs) (fun _ _ _ _ hEq => by cases hEq) ?_
    intro _ _ _ _ _ _ _ changedData hEq
    cases hEq
  unfold SearchTables.frameEnrichmentInput
  by_cases hHas : p.db.hasFrame frameId = true
  · rw [if_pos hHas]
    dsimp only
    split
    · next hBlank =>
      refine set_inv h (fun id frameId hIs => (hOn id frameId).mpr hIs) (fun _ _ _ _ hEq => by cases hEq) ?_
      rintro _ other hIs text hText hNotBlank -
      obtain rfl := Option.some.inj (hFrame.symm.trans hIs.2)
      rw [hText, Option.getD_some, hNotBlank] at hBlank
      cases hBlank
    · refine set_inv h (fun id frameId hIs => (hOn id frameId).mpr hIs) ?_ ?_
      · intro _ _ _ _ hEq
        cases hEq
        exact hFrame
      · rintro _ other hIs text hText - -
        obtain rfl := Option.some.inj (hFrame.symm.trans hIs.2)
        show (p.db.contentTextOf frameId).getD "" = text
        rw [hText, Option.getD_some]
  · rw [if_neg hHas]
    refine set_inv h (fun id frameId hIs => (hOn id frameId).mpr hIs) (fun _ _ _ _ hEq => by cases hEq) ?_
    rintro _ other hIs text hText - -
    obtain rfl := Option.some.inj (hFrame.symm.trans hIs.2)
    obtain ⟨row, hRow, hId⟩ := contentTextOf_some hText
    exact absurd (hId ▸ h.sound.textFrames row hRow) hHas

/-- A job that will be tried again, or is given up, is still to be done. -/
theorem retry_inv (h : p.Inv) {w : Nat} {job : Job} {frameId : Int} {text : String}
    {emb : Option Embedding} (hWorker : p.workers w = .holding job frameId text emb) (err : String) :
    (p.set w (.finishing job (.retry err))).Inv := by
  refine set_inv h (fun id other hIs => ?_) (fun _ _ _ _ hEq => by cases hEq) ?_
  · rw [hWorker]
    exact hIs
  · intro _ _ _ _ _ _ _ changedData hEq
    cases hEq

theorem embed_inv (h : p.Inv) {w : Nat} {job : Job} {frameId : Int} {text : String}
    (hWorker : p.workers w = .holding job frameId text none)
    (result : Except String (List Embedding)) :
    (p.set w (afterEmbed job frameId text result)).Inv := by
  obtain ⟨metadata, -, hWork⟩ := h.history
  have hFrame := (hWork w).held job frameId text none hWorker
  unfold afterEmbed
  split
  · split
    · refine set_inv h (fun id other hIs => ?_) (fun _ _ _ _ hEq => ?_) ?_
      · rw [hWorker]
        exact hIs
      · cases hEq
        exact hFrame
      · rintro _ _ - current - - hStores
        rw [hWorker] at hStores
        exact hStores
    · exact retry_inv h hWorker _
  · exact retry_inv h hWorker _

/-- Storing a text that is the frame's, or that another job will replace. -/
theorem upsert_inv (h : p.Inv) {w : Nat} {job : Job} {frameId : Int} {text : String}
    {emb : Embedding} (hWorker : p.workers w = .holding job frameId text (some emb)) (model : String)
    (hCareful : p.Careful textFilter (.upsert w model false)) :
    (p.upsert w job frameId text emb model).Inv := by
  unfold EmbedPool.upsert
  split
  swap
  · exact retry_inv h hWorker _
  next db hOk =>
  obtain ⟨latest, hMirrored⟩ := h.sound.mirrored
  have hMirrored' := upsertTextEmbedding_mirrored hMirrored hOk
  obtain ⟨rows, vectors, rfl, hExists, hRows⟩ := upsertTextEmbedding_ok hMirrored hOk
  obtain ⟨metadata, hWell, hWork⟩ := h.history
  have hFrame := (hWork w).held job frameId text _ hWorker
  have hHas : p.db.hasFrame frameId = true := by
    rcases hExists with hHas | ⟨row, hRow, rfl⟩
    · exact hHas
    · obtain ⟨current, hCurrent, -⟩ := h.current row hRow (h.sound.ocrChunks row hRow).2
      obtain ⟨textRow, hTextRow, hId⟩ := contentTextOf_some hCurrent
      exact hId ▸ h.sound.textFrames textRow hTextRow
  obtain ⟨current, hCurrent, hText⟩ := hCareful rfl job frameId text emb hWorker hHas
  let q : EmbedPool := { p with db := { p.db with embeddings := rows, embeddingVectors := vectors } }
  -- a job that is due stays so, unless it is the worker's own, which has stored its text
  have hDue : ∀ other wanted, (other = frameId → text ≠ wanted) → Due p other wanted →
      Due (q.set w (.finishing job (.complete true))) other wanted := by
    rintro other wanted hOther ⟨hBlank, dueJob, hDue⟩
    refine ⟨hBlank, dueJob, hDue.mem, hDue.kind, hDue.frame, ?_⟩
    obtain hState | hState | ⟨hState, hWorkers⟩ := hDue.state
    · exact .inl hState
    · exact .inr (.inl hState)
    · refine .inr (.inr ⟨hState, fun v hIs => ?_⟩)
      by_cases hv : v = w
      · subst hv
        rw [set_self] at hIs
        have hStores := hWorkers v (by rw [hWorker]; exact hIs)
        rw [hWorker] at hStores
        obtain rfl := Option.some.inj (hIs.2.symm.trans hFrame)
        exact absurd hStores (hOther rfl)
      · rw [set_other q hv] at hIs ⊢
        exact hWorkers v hIs
  refine ⟨⟨⟨_, hMirrored'⟩, fun row hRow => ?_, h.sound.textFrames, h.sound.jobFrames,
    h.sound.jobIds⟩, ⟨metadata, ⟨hWell.historyId, hWell.valid, hWell.allocator, hWell.ids_nodup,
      hWell.ids_pos, hWell.ids_le⟩, fun v => ?_⟩, ?_, fun row hRow hSource => ?_⟩
  · rcases hRows row hRow with ⟨-, hChunk, hSource, -⟩ | ⟨hBefore, -⟩
    · exact ⟨hChunk, hSource⟩
    · exact h.sound.ocrChunks row hBefore
  · by_cases hv : v = w
    · subst hv
      rw [set_self]
      have hBefore := hWork v
      rw [hWorker] at hBefore
      exact ⟨fun _ _ _ _ hEq => (by cases hEq), hBefore.given, hBefore.there⟩
    · rw [set_other q hv]
      exact ⟨(hWork v).held, (hWork v).given, (hWork v).there⟩
  · have hBefore : ∀ v id other, ((q.set w (.finishing job (.complete true))).workers v).On id other →
        (p.workers v).On id other := by
      intro v id other hIs
      by_cases hv : v = w
      · subst hv
        rw [set_self] at hIs
        rw [hWorker]
        exact hIs
      · rwa [set_other q hv] at hIs
    exact fun u v id other hu hv =>
      h.alone u v id other (hBefore u id other hu) (hBefore v id other hv)
  · rcases hRows row hRow with ⟨rfl, -, -, hStored⟩ | ⟨hBefore, hOther⟩
    · refine ⟨current, hCurrent, ?_⟩
      by_cases hSame : text = current
      · exact .inl (hStored.trans hSame)
      · exact .inr (hDue _ _ (fun _ => hSame) (hText.resolve_left hSame))
    · obtain ⟨wanted, hWanted, hCase⟩ := h.current row hBefore hSource
      refine ⟨wanted, hWanted, hCase.imp_right (hDue _ _ fun hSame => ?_)⟩
      have hChunk := (h.sound.ocrChunks row hBefore).1
      exact absurd (Prod.ext hSame hChunk) hOther

/-- Jobs that change their states only. -/
theorem Sound.restated {db : SearchTables} (h : Sound db) {assign : Job → Job}
    (hSame : ∀ job, (assign job).id = job.id ∧ (assign job).frameId = job.frameId) :
    Sound { db with jobs := db.jobs.map assign } := by
  obtain ⟨latest, hMirrored⟩ := h.mirrored
  refine ⟨⟨latest, hMirrored.textKeys, hMirrored.content, hMirrored.raw, hMirrored.ids,
    hMirrored.chunks, hMirrored.vectors, hMirrored.stored⟩, h.ocrChunks, h.textFrames, ?_, ?_⟩
  · intro job hJob frameId hFrame
    obtain ⟨before, hBefore, rfl⟩ := List.mem_map.mp hJob
    rw [(hSame before).2] at hFrame
    exact h.jobFrames before hBefore frameId hFrame
  · show ((db.jobs.map assign).map Job.id).Nodup
    have hIds : (db.jobs.map assign).map Job.id = db.jobs.map Job.id := by
      rw [List.map_map]
      exact List.map_congr_left fun job _ => (hSame job).1
    rw [hIds]
    exact h.jobIds

/-- Whether a job in this state is still to embed the text. -/
def DueState (p : EmbedPool) (frameId : Int) (text : String) (job : Job) : Prop :=
  job.state = .pending ∨ job.state = .dead ∨ job.state = .running ∧
    ∀ w, (p.workers w).On job.id frameId → (p.workers w).WillStore text

/-- A worker takes a step that changes the states of jobs. -/
theorem restate_inv (h : p.Inv) {w : Nat} {worker : Worker} {assign : Job → Job}
    (hSame : ∀ job, (assign job).id = job.id ∧ (assign job).frameId = job.frameId ∧
      (assign job).kind = job.kind)
    (hThere : ∀ v, v ≠ w → ∀ row ∈ p.db.jobs, ∀ frameId, (p.workers v).On row.id frameId →
      row.frameId = some frameId → row.state ≠ .pending → (assign row).state ≠ .pending)
    (hWorker : ∀ metadata, p.db.WellFormed metadata →
      AtWork (p.withJobs (p.db.jobs.map assign)).db metadata.frameIdHighWater worker)
    (hAlone : ∀ v, v ≠ w → ∀ id frameId, worker.On id frameId → ¬ (p.workers v).On id frameId)
    (hDue : ∀ frameId text row, DueJob p frameId text row →
      DueState ((p.withJobs (p.db.jobs.map assign)).set w worker) frameId text (assign row)) :
    ((p.withJobs (p.db.jobs.map assign)).set w worker).Inv where
  sound := h.sound.restated fun job => ⟨(hSame job).1, (hSame job).2.1⟩
  history := by
    obtain ⟨metadata, hWell, hWork⟩ := h.history
    refine ⟨metadata, ⟨hWell.historyId, hWell.valid, hWell.allocator, hWell.ids_nodup, hWell.ids_pos,
      hWell.ids_le⟩, fun v => ?_⟩
    by_cases hv : v = w
    · subst hv
      rw [set_self]
      exact hWorker metadata hWell
    · rw [set_other _ hv]
      refine ⟨(hWork v).held, (hWork v).given, fun id frameId hIs hHas => ?_⟩
      obtain ⟨row, hRow, rfl, hFrame, hState⟩ := (hWork v).there id frameId hIs hHas
      exact ⟨assign row, List.mem_map_of_mem hRow, (hSame row).1, (hSame row).2.1.trans hFrame,
        hThere v hv row hRow frameId hIs hFrame hState⟩
  alone := by
    intro u v id frameId hu hv
    by_cases huw : u = w <;> by_cases hvw : v = w
    · rw [huw, hvw]
    · rw [huw, set_self] at hu
      rw [set_other _ hvw] at hv
      exact absurd hv (hAlone v hvw id frameId hu)
    · rw [hvw, set_self] at hv
      rw [set_other _ huw] at hu
      exact absurd hu (hAlone u huw id frameId hv)
    · rw [set_other _ huw] at hu
      rw [set_other _ hvw] at hv
      exact h.alone u v id frameId hu hv
  current := by
    intro row hRow hSource
    obtain ⟨text, hText, hCase⟩ := h.current row hRow hSource
    refine ⟨text, hText, hCase.imp_right ?_⟩
    rintro ⟨hBlank, job, hJob⟩
    exact ⟨hBlank, assign job, List.mem_map_of_mem hJob.mem, (hSame job).2.2.trans hJob.kind,
      (hSame job).2.1.trans hJob.frame, hDue _ _ job hJob⟩

/-- A pending job that is claimed is nobody else's. -/
theorem claim_inv (h : p.Inv) {w : Nat} (now clock : Int) : (p.claim w now clock).Inv := by
  unfold EmbedPool.claim
  rcases hClaim : claimJobs claimKinds 1 now clock p.db.jobTables with ⟨jobs, t⟩
  dsimp only
  split
  swap
  · exact h
  next job hLast =>
  obtain ⟨old, hOld, hPending, rfl, hJobs⟩ := claimJobs_one h.sound.jobIds hClaim hLast
  rw [hJobs]
  obtain ⟨metadata, hWell, hWork⟩ := h.history
  have hNobody : ∀ v frameId, old.frameId = some frameId → ¬ (p.workers v).On old.id frameId := by
    intro v frameId hFrame hIs
    obtain ⟨row, hRow, hId, -, hState⟩ :=
      (hWork v).there _ _ hIs (h.sound.jobFrames old hOld frameId hFrame)
    obtain rfl := List.inj_on_of_nodup_map h.sound.jobIds hRow hOld hId
    exact hState hPending
  refine restate_inv h (fun other => ?_) ?_ (fun metadata hWell => ⟨?_, ?_, ?_⟩) ?_ ?_
  · split <;> exact ⟨rfl, rfl, rfl⟩
  · intro v _ row _ frameId _ _ hState
    split
    · exact fun hEq => by cases hEq
    · exact hState
  · intro _ _ _ _ hEq
    cases hEq
  · rintro id frameId ⟨-, hFrame⟩
    obtain ⟨frame, hIn, rfl⟩ := hasFrame_iff.mp (h.sound.jobFrames old hOld frameId hFrame)
    exact hWell.ids_le frame hIn
  · rintro id frameId ⟨rfl, hFrame⟩ -
    refine ⟨_, List.mem_map_of_mem hOld, ?_⟩
    rw [if_pos rfl]
    exact ⟨rfl, hFrame, fun hEq => by cases hEq⟩
  · rintro v - id frameId ⟨rfl, hFrame⟩
    exact hNobody v frameId hFrame
  · intro frameId text row hDue
    have hWillStore : ∀ jobs job v, ((p.workers v).On row.id frameId → (p.workers v).WillStore text) →
        (((p.withJobs jobs).set w (.claimed job)).workers v).On row.id frameId →
        (((p.withJobs jobs).set w (.claimed job)).workers v).WillStore text := by
      intro jobs job v hBefore hIs
      by_cases hv : v = w
      · subst hv
        rw [set_self]
        trivial
      · rw [set_other _ hv] at hIs ⊢
        exact hBefore hIs
    split
    · next hId =>
      obtain rfl := List.inj_on_of_nodup_map h.sound.jobIds hDue.mem hOld hId
      refine .inr (.inr ⟨rfl, fun v hIs => hWillStore _ _ v (fun hBefore => ?_) hIs⟩)
      exact absurd hBefore (hNobody v frameId hDue.frame)
    · exact hDue.state.imp_right (Or.imp_right fun hRunning =>
        ⟨hRunning.1, fun v hIs => hWillStore _ _ v (hRunning.2 v) hIs⟩)

/-- Who settles a job of its own was the only one at work on it. -/
theorem finish_inv (h : p.Inv) {w : Nat} {job : Job} {outcome : Outcome}
    (hWorker : p.workers w = .finishing job outcome) (now clock : Int)
    (hCareful : p.Careful textFilter (.finish w now clock false)) :
    (p.finish w job outcome now clock).Inv := by
  have hOwn := hCareful rfl job outcome hWorker
  unfold EmbedPool.finish
  split
  swap
  · exact set_inv h (fun _ _ hIs => hIs.elim) (fun _ _ _ _ hEq => by cases hEq)
      fun _ _ hIs => hIs.elim
  next t hOk =>
  obtain ⟨assign, hJobs, hAssign⟩ := settleJob_ok hOk
  rw [hJobs]
  have hIsOwn : ∀ row ∈ p.db.jobs, runningAt job.id row = true → ∀ frameId,
      row.frameId = some frameId → row.id = job.id ∧ row.state = .running ∧
        (p.workers w).On row.id frameId := by
    intro row hRow hRunning frameId hFrame
    simp only [runningAt, Bool.and_eq_true, decide_eq_true_eq] at hRunning
    refine ⟨hRunning.1, hRunning.2, ?_⟩
    rw [hWorker]
    exact ⟨hRunning.1.symm, (hOwn row hRow hRunning.1 hRunning.2) ▸ hFrame⟩
  refine restate_inv h (fun row => ?_) ?_ (fun _ _ => ?_) (fun _ _ _ _ hIs => hIs.elim) ?_
  · split
    · exact ⟨(hAssign row).1, (hAssign row).2.1, (hAssign row).2.2.1⟩
    · exact ⟨rfl, rfl, rfl⟩
  · intro v hv row hRow frameId hIs hFrame hState
    split
    · next hRunning =>
      obtain ⟨-, -, hMine⟩ := hIsOwn row hRow hRunning frameId hFrame
      exact absurd (h.alone v w row.id frameId hIs hMine) hv
    · exact hState
  · exact ⟨fun _ _ _ _ hEq => (by cases hEq), fun _ _ hIs => hIs.elim, fun _ _ hIs => hIs.elim⟩
  · intro frameId text row hDue
    split
    · next hRunning =>
      obtain ⟨-, hState, hMine⟩ := hIsOwn row hDue.mem hRunning frameId hDue.frame
      have hNotComplete : ∀ changedData, outcome ≠ .complete changedData := by
        obtain hIs | hIs | ⟨-, hWorkers⟩ := hDue.state
        · rw [hState] at hIs
          cases hIs
        · rw [hState] at hIs
          cases hIs
        · have hStores := hWorkers w hMine
          rwa [hWorker] at hStores
      exact ((hAssign row).2.2.2 hNotComplete).imp_right .inl
    · refine hDue.state.imp_right (Or.imp_right fun hRunning => ⟨hRunning.1, fun v hIs => ?_⟩)
      by_cases hv : v = w
      · subst hv
        rw [set_self]
        trivial
      · rw [set_other _ hv] at hIs ⊢
        exact hRunning.2 v hIs

/-! ## Runs -/

theorem store_inv (h : p.Inv) {result : Except HistoryReadError SearchTables}
    (hResult : ∀ db, result = .ok db → ({ p with db := db } : EmbedPool).Inv) :
    (p.store result).Inv := by
  unfold EmbedPool.store
  split
  · next db => exact hResult db rfl
  · exact h

/-- A careful step keeps the invariant. -/
theorem step_inv (h : p.Inv) {event : EmbedEvent} (hCareful : p.Careful textFilter event) :
    (p.step textFilter event).Inv := by
  unfold EmbedPool.step
  cases event with
  | claim w now clock =>
    dsimp only
    split
    · exact claim_inv h now clock
    · exact h
  | read w broken =>
    dsimp only
    split
    · next job hWorker => exact read_inv h hWorker broken
    · exact h
  | embed w result =>
    dsimp only
    split
    · next job frameId text hWorker => exact embed_inv h hWorker result
    · exact h
  | upsert w model broken =>
    dsimp only
    split
    · next job frameId text emb hWorker =>
      cases broken with
      | true => exact retry_inv h hWorker _
      | false => exact upsert_inv h hWorker model hCareful
    · exact h
  | finish w now clock broken =>
    dsimp only
    split
    · next job outcome hWorker =>
      cases broken with
      | true =>
        exact set_inv h (fun _ _ hIs => hIs.elim) (fun _ _ _ _ hEq => by cases hEq)
          fun _ _ hIs => hIs.elim
      | false => exact finish_inv h hWorker now clock hCareful
    · exact h
  | insertFrame f => exact store_inv h fun db hOk => (insertFrame_changed h hOk).inv h
  | insertOcrFiltered frameId ocr ctx =>
    exact store_inv h fun db hOk => (insertOcrFiltered_changed h hOk hCareful).inv h
  | enqueue frameId clock => exact store_inv h fun db hOk => (insertJob_changed h hOk).inv h
  | backfillBatch b batch => exact store_inv h fun db hOk => backfillBatch_inv h hOk
  | deleteFrame frameId =>
    exact store_inv h fun db hOk => by
      cases hOk
      exact (deleteFrame_changed h frameId).inv h

theorem run_inv (h : p.Inv) (events : List EmbedEvent) (hCareful : p.CarefulRun textFilter events) :
    (p.run textFilter events).Inv := by
  unfold EmbedPool.run
  induction events generalizing p with
  | nil => exact h
  | cons event events ih => exact ih (step_inv h hCareful.1) hCareful.2

/-- **A drained queue of a careful run leaves no stale embedding.** -/
theorem drained_fresh {uuid : String} (hUuid : validHistoryId uuid = true) (textFilter : TextFilter)
    (events : List EmbedEvent) (hCareful : (EmbedPool.start uuid).CarefulRun textFilter events)
    (hDrained : drained ((EmbedPool.start uuid).run textFilter events).db = true) :
    freshEmbeddings ((EmbedPool.start uuid).run textFilter events).db = true :=
  (run_inv (start_inv hUuid) events hCareful).fresh hDrained

/-! ## Two runs -/

def sampleUuid : String := "00000000-0000-4000-8000-000000000000"

def sampleFilter : TextFilter := Attention.shipped Text.toAsciiLowercase

def sampleWord (text : String) (lineIndex : Nat) (x y : ℚ) : TextSpan where
  text := text
  normalizedText := Text.toAsciiLowercase text
  source := .ocr
  role := .unknown
  x := x
  y := y
  w := 1 / 10
  h := 1 / 50
  lineIndex := lineIndex
  isSearchable := true
  suppressReason := none

/-- A menu at the edge of the window and a line in its middle. -/
def sampleScreen : OcrResult where
  text := "File\nReport"
  engine := "winrt"
  spans := [sampleWord "File" 0 0 0, sampleWord "Report" 1 (1 / 2) (1 / 2)]

def sampleContext : TextFilterContext where
  targetRect := some (0, 0, 1, 1)
  chromeSuppressMinSeen := 2
  chromeProtectMinChars := 48
  chromeRegionBuckets := 8

/-- A capture of the screen and the job to embed its text. -/
def sampleCapture (frameId : Int) : List EmbedEvent :=
  [.insertFrame
      { capturedAt := frameId, monitorIndex := 0, appHint := some "Code.exe", windowTitle := none,
        browserUrl := none },
    .insertOcrFiltered frameId sampleScreen sampleContext, .enqueue frameId 0]

/-- A worker embeds the text of the next job. -/
def sampleWork (w : Nat) : List EmbedEvent :=
  [.claim w 0 0, .read w false, .embed w (.ok [List.replicate embeddingDim 0]),
    .upsert w "model" false, .finish w 0 0 false]

/-- The catalog is read before the first batch; by then it knows the menu. -/
def sampleBackfill : EmbedEvent :=
  .backfillBatch
    { current := 3
      config := { chromeSuppressMinSeen := 2, chromeProtectMinChars := 48, chromeRegionBuckets := 8 }
      catalogs := ((EmbedPool.start sampleUuid).run sampleFilter
        (sampleCapture 1 ++ sampleCapture 2)).db.loadChromeCatalog
      reembed := true
      clock := 0 } [1, 2]

/-- While a worker embeds the text of the first frame, the backfill takes the menu out of
it, and another worker embeds what is left. -/
def overtakenWorker : List EmbedEvent :=
  sampleCapture 1 ++ sampleCapture 2 ++ [.claim 0 0 0, .read 0 false, sampleBackfill]
    ++ sampleWork 1 ++ sampleWork 1 ++ (sampleWork 0).drop 2

theorem stale_embedding :
    ¬ ∀ (uuid : String) (textFilter : TextFilter) (events : List EmbedEvent),
      validHistoryId uuid = true →
      drained ((EmbedPool.start uuid).run textFilter events).db = true →
      freshEmbeddings ((EmbedPool.start uuid).run textFilter events).db = true := by
  intro h
  obtain ⟨hUuid, hDrained, hStale⟩ : validHistoryId sampleUuid = true ∧
      drained ((EmbedPool.start sampleUuid).run sampleFilter overtakenWorker).db = true ∧
      freshEmbeddings ((EmbedPool.start sampleUuid).run sampleFilter overtakenWorker).db = false := by
    decide +kernel
  exact absurd (h sampleUuid sampleFilter overtakenWorker hUuid hDrained) (by rw [hStale]; decide)

/-- The job of the first capture, once it is claimed. -/
def sampleJob : Job where
  id := 1
  kind := .embedText
  frameId := some 1
  state := .running
  priority := 0
  attempts := 0
  maxAttempts := 3
  notBefore := 0
  lastError := none
  createdAt := 0
  updatedAt := 0

theorem oneWorker_careful :
    (EmbedPool.start sampleUuid).CarefulRun sampleFilter (sampleCapture 1 ++ sampleWork 0) := by
  refine ⟨trivial, ?_, trivial, trivial, trivial, trivial, ?_, ?_, trivial⟩
  · intro row hRow
    have hNone : ((EmbedPool.start sampleUuid).run sampleFilter
        ((sampleCapture 1).take 1)).db.embeddings = [] := rfl
    change row ∈ ((EmbedPool.start sampleUuid).run sampleFilter
      ((sampleCapture 1).take 1)).db.embeddings at hRow
    rw [hNone] at hRow
    cases hRow
  · intro _ job frameId text emb hWorker hHas
    generalize hp : EmbedPool.step _ _ _ = p at hWorker hHas ⊢
    obtain ⟨hHeld, hText⟩ : p.workers 0 = .holding sampleJob 1 "File\nReport"
        (some (List.replicate embeddingDim 0)) ∧
          p.db.contentTextOf 1 = some "File\nReport" := by
      rw [← hp]
      decide +kernel
    rw [hHeld] at hWorker
    cases hWorker
    exact ⟨_, hText, .inl rfl⟩
  · intro _ job outcome hWorker row hRow hId hState
    generalize hp : EmbedPool.step _ _ _ = p at hWorker hRow
    obtain ⟨hHeld, hJobs⟩ : p.workers 0 = .finishing sampleJob (.complete true) ∧
        p.db.jobs = [sampleJob] := by
      rw [← hp]
      decide +kernel
    rw [hHeld] at hWorker
    cases hWorker
    rw [hJobs] at hRow
    rw [List.mem_singleton.mp hRow]

theorem drained_fresh_oneWorker :
    freshEmbeddings ((EmbedPool.start sampleUuid).run sampleFilter
      (sampleCapture 1 ++ sampleWork 0)).db = true :=
  drained_fresh (by decide +kernel) sampleFilter _ oneWorker_careful (by decide +kernel)

end ScreenSearch.Kernel
