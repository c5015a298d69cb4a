import ScreenSearch.Store.SearchTables

/-!
# The workers that embed texts

Each worker claims a job, reads the text of its frame, has it embedded, stores the vector
and then settles the job. Between any two of these steps the other workers and the rest of
the program go on.
-/

namespace ScreenSearch.Kernel

open Store

/-- What to do with a job after its provider ran. -/
inductive Outcome where
  | complete (changedData : Bool)
  | deadLetter (err : String)
  | retry (err : String)
  deriving DecidableEq, Repr

def backoffBaseMs : Int := 1000

def backoffCapMs : Int := 60000

def backoffMs (attempts : Int) : Int :=
  min (backoffBaseMs * 2 ^ (max 0 (min attempts 16)).toNat) backoffCapMs

inductive Worker where
  | idle
  /-- About to read the text of its job's frame. -/
  | claimed (job : Job)
  /-- Holds the text it read, and its vector once there is one. -/
  | holding (job : Job) (frameId : Int) (text : String) (emb : Option Embedding)
  /-- About to settle its job. -/
  | finishing (job : Job) (outcome : Outcome)
  deriving DecidableEq, Repr

structure EmbedPool where
  db : SearchTables
  workers : Nat → Worker

/-- One worker does something, the others do not. -/
def EmbedPool.set (p : EmbedPool) (w : Nat) (worker : Worker) : EmbedPool :=
  { p with workers := Function.update p.workers w worker }

def EmbedPool.withJobs (p : EmbedPool) (jobs : List Job) : EmbedPool :=
  { p with db := { p.db with jobs := jobs } }

def EmbedPool.start (uuid : String) : EmbedPool where
  db := SearchTables.fresh uuid
  workers := fun _ => .idle

/-! ## A worker's steps -/

def claimKinds : List JobKind := [.embedText]

/-- `jobs.pop()` of a claim of one. -/
def EmbedPool.claim (p : EmbedPool) (w : Nat) (now clock : Int) : EmbedPool :=
  let (jobs, t) := claimJobs claimKinds 1 now clock p.db.jobTables
  match jobs.getLast? with
  | some job => (p.withJobs t.jobs).set w (.claimed job)
  | none => p

/-- What a worker does after it has read its job's frame. -/
def afterRead (db : SearchTables) (broken : Bool) (job : Job) : Worker :=
  match job.frameId with
  | none => .finishing job (.deadLetter "embed_text job has no frame_id")
  | some frameId =>
    if broken then .finishing job (.retry "read frame")
    else
      match db.frameEnrichmentInput frameId with
      -- the frame was purged after its job was enqueued
      | none => .finishing job (.complete false)
      | some input =>
        let text := input.getD ""
        if Text.isBlank text then .finishing job (.complete false)
        else .holding job frameId text none

/-- What a worker does with what the embedder returned. -/
def afterEmbed (job : Job) (frameId : Int) (text : String) :
    Except String (List Embedding) → Worker
  | .ok vectors =>
    match vectors.getLast? with
    | some emb => .holding job frameId text (some emb)
    | none => .finishing job (.retry "text embedder returned no vector")
  | .error _ => .finishing job (.retry "embed text")

/-- Nothing asks whether the frame still has the text. -/
def EmbedPool.upsert (p : EmbedPool) (w : Nat) (job : Job) (frameId : Int) (text : String)
    (emb : Embedding) (model : String) : EmbedPool :=
  match p.db.upsertTextEmbedding frameId 0 text .ocr emb model with
  | .ok db => { p with db := db }.set w (.finishing job (.complete true))
  | .error _ => p.set w (.finishing job (.retry "upsert text embedding"))

/-- `complete_job` or `fail_job`. -/
def settleJob (job : Job) (outcome : Outcome) (now clock : Int) (t : JobTables) :
    Except String JobTables :=
  match outcome with
  | .complete _ => completeJob job.id clock t
  | .deadLetter err => failJob job.id err none clock t
  | .retry err => failJob job.id err (some (now + backoffMs job.attempts)) clock t

/-- What settling does to the row of the job. -/
theorem settleJob_ok {job : Job} {outcome : Outcome} {now clock : Int} {t t' : JobTables}
    (hOk : settleJob job outcome now clock t = .ok t') :
    ∃ assign : Job → Job,
      t'.jobs = t.jobs.map (fun row => if runningAt job.id row then assign row else row) ∧
      ∀ row, (assign row).id = row.id ∧ (assign row).frameId = row.frameId ∧
        (assign row).kind = row.kind ∧ ((∀ changedData, outcome ≠ .complete changedData) →
          (assign row).state = .pending ∨ (assign row).state = .dead) := by
  have hFail : ∀ err retryAt, failJob job.id err retryAt clock t = .ok t' →
      t'.jobs = t.jobs.map fun row =>
        if runningAt job.id row then failedJob err retryAt clock row else row := by
    intro err retryAt hFailed
    unfold failJob at hFailed
    dsimp only at hFailed
    split at hFailed
    · cases hFailed
    · cases hFailed
      rfl
  have hFailed : ∀ err retryAt row, (failedJob err retryAt clock row).state = .pending ∨
      (failedJob err retryAt clock row).state = .dead := by
    intro err retryAt row
    unfold failedJob
    dsimp only
    split
    · exact .inl rfl
    · exact .inr rfl
  rcases outcome with changedData | err | err
  · unfold settleJob completeJob at hOk
    dsimp only at hOk
    split at hOk
    · cases hOk
    · cases hOk
      exact ⟨_, rfl, fun row => ⟨rfl, rfl, rfl, fun hNot => absurd rfl (hNot changedData)⟩⟩
  · exact ⟨_, hFail _ _ hOk, fun row => ⟨rfl, rfl, rfl, fun _ => hFailed _ _ row⟩⟩
  · exact ⟨_, hFail _ _ hOk, fun row => ⟨rfl, rfl, rfl, fun _ => hFailed _ _ row⟩⟩

def EmbedPool.finish (p : EmbedPool) (w : Nat) (job : Job) (outcome : Outcome) (now clock : Int) :
    EmbedPool :=
  match settleJob job outcome now clock p.db.jobTables with
  | .ok t => (p.withJobs t.jobs).set w .idle
  | .error _ => p.set w .idle

/-! ## Runs -/

def embedTextJob (frameId : Int) : NewJob where
  kind := .embedText
  frameId := some frameId
  priority := 0
  maxAttempts := 3
  notBefore := 0

/-- A step of a worker, whose call of the store may be `broken`, or of the rest of the
program. -/
inductive EmbedEvent where
  | claim (w : Nat) (now clock : Int)
  | read (w : Nat) (broken : Bool)
  | embed (w : Nat) (result : Except String (List Embedding))
  | upsert (w : Nat) (model : String) (broken : Bool)
  | finish (w : Nat) (now clock : Int) (broken : Bool)
  | insertFrame (f : NewFrame)
  | insertOcrFiltered (frameId : Int) (ocr : OcrResult) (ctx : TextFilterContext)
  | enqueue (frameId : Int) (clock : Int)
  | backfillBatch (b : SearchTables.Backfill) (batch : List Int)
  | deleteFrame (frameId : Int)

/-- A transaction that fails leaves the tables. -/
def EmbedPool.store (p : EmbedPool) (result : Except HistoryReadError SearchTables) : EmbedPool :=
  match result with
  | .ok db => { p with db := db }
  | .error _ => p

/-- A worker that is elsewhere does not take the step. -/
def EmbedPool.step (textFilter : TextFilter) (p : EmbedPool) : EmbedEvent → EmbedPool
  | .claim w now clock =>
    match p.workers w with
    | .idle => p.claim w now clock
    | _ => p
  | .read w broken =>
    match p.workers w with
    | .claimed job => p.set w (afterRead p.db broken job)
    | _ => p
  | .embed w result =>
    match p.workers w with
    | .holding job frameId text none => p.set w (afterEmbed job frameId text result)
    | _ => p
  | .upsert w model broken =>
    match p.workers w with
    | .holding job frameId text (some emb) =>
      if broken then p.set w (.finishing job (.retry "upsert text embedding"))
      else p.upsert w job frameId text emb model
    | _ => p
  | .finish w now clock broken =>
    match p.workers w with
    | .finishing job outcome =>
      if broken then p.set w .idle else p.finish w job outcome now clock
    | _ => p
  | .insertFrame f => p.store (p.db.insertFrame f)
  | .insertOcrFiltered frameId ocr ctx =>
    p.store (p.db.insertOcrFiltered textFilter frameId ocr ctx)
  | .enqueue frameId clock => p.store (p.db.insertJob (embedTextJob frameId) clock)
  | .backfillBatch b batch => p.store (p.db.backfillBatch textFilter b batch)
  | .deleteFrame frameId => p.store (.ok (p.db.deleteFrame frameId))

def EmbedPool.run (textFilter : TextFilter) (p : EmbedPool) (events : List EmbedEvent) :
    EmbedPool := events.foldl (EmbedPool.step textFilter) p

/-- No job is left to embed a text, and none was given up. -/
def drained (db : SearchTables) : Bool :=
  !db.jobs.any fun job => decide (job.kind = .embedText) &&
    decide (job.state = .pending ∨ job.state = .running ∨ job.state = .dead)

/-- A stored embedding is of the text that its frame has. -/
def freshEmbeddings (db : SearchTables) : Bool :=
  db.embeddings.all fun row => decide (row.source ≠ .ocr) ||
    decide (db.contentTextOf row.frameId = some row.chunkText)

end ScreenSearch.Kernel
