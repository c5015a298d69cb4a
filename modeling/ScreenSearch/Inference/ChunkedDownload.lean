import ScreenSearch.Inference.PartsManifest

/-!
# Chunked downloads

The attempts of `chunked_download` over one directory, one file operation a step: opening and
preallocating the part file, loading or initialising the bitmap, the chunks in flight, and
verifying and publishing. Between any two steps an attempt may fail, be aborted, or the
machine crash; between attempts an external tool may touch the part file.

Offsets and lengths are unbounded numbers; the server, when it answers, sends the bytes of the
file it has. A file that is removed or renamed stays so, unless a crash finds a removed one.

Main definitions:

* `step` — one step;
* `runSteps` — a run from an empty directory;
* `Careful` — no attempt of the run is interrupted while it owes the bitmap a fsync.
-/

namespace ScreenSearch.Download

/-! ## State -/

def CHUNK_WRITE_BUFFER : Nat := 256 * 1024

inductive ChunkStage where
  | streaming
  /-- The buffer is being written; `ended` when the body is over. -/
  | flushing (ended : Bool)
  /-- About to fsync the data. -/
  | syncing
  /-- About to write the mark. -/
  | completing
  /-- About to fsync the mark, with the lock of the bitmap. -/
  | marking
  deriving DecidableEq, Repr

/-- A chunk in flight. -/
structure ChunkTask where
  index : Nat
  /-- Position of the next byte to arrive. -/
  received : Nat
  /-- Position of the next byte to write. -/
  written : Nat
  buf : List UInt8
  stage : ChunkStage
  deriving DecidableEq, Repr

inductive Phase where
  /-- About to open or create the part file. -/
  | opening
  /-- About to read its length, and to set it. -/
  | sizing
  | loading
  | truncating
  /-- Writing a fresh bitmap. -/
  | initialising (left : List Char)
  | syncingInit
  | fetching (done : List Bool) (todo : List Nat) (active : List ChunkTask)
  /-- About to fsync the assembled file. -/
  | assembled
  | verifying
  | removingPart
  | removingManifest
  | publishing
  | cleaning
  /-- An error is on its way to the caller. -/
  | failed
  deriving DecidableEq, Repr

structure Attempt where
  chunkSize : Nat
  conns : Nat
  /-- The sha256 the server advertised. -/
  sha256 : Option String
  /-- `part_unbacked`. -/
  unbacked : Bool
  /-- What the code does not keep: it preallocated a part that was not of the length of the
  file while some content of the bitmap that a crash may leave had a mark, and no fsync of the
  bitmap has come since. -/
  leftover : Bool
  phase : Phase
  deriving DecidableEq, Repr

structure World where
  part : DurableFile UInt8
  manifest : DurableFile Char
  /-- The published file. -/
  dest : Option (List UInt8)
  attempt : Option Attempt
  /-- What was published whenever an attempt returned `Ok`. -/
  returned : List (Option (List UInt8))
  deriving DecidableEq, Repr

/-- An empty directory. -/
def World.initial : World := ⟨.absent, .absent, none, none, []⟩

inductive Event where
  | start (chunkSize conns : Nat) (sha256 : Option String)
  | openPart
  | sizePart
  | loadManifest
  | truncateManifest
  /-- So many characters of the fresh bitmap are written. -/
  | writeManifest (n : Nat)
  | syncManifest
  | startChunk
  /-- The next bytes of a body arrive. -/
  | frame (task n : Nat)
  | endBody (task : Nat)
  /-- So many bytes of the buffer are written. -/
  | writeChunk (task n : Nat)
  | syncChunk (task : Nat)
  | mark (task : Nat)
  | syncMark (task : Nat)
  | assemble
  | syncPart
  | verify
  | removePart (ok : Bool)
  | removeManifest (ok : Bool)
  | rename
  | cleanup (ok : Bool)
  /-- An operation fails, and the attempt with it. -/
  | fail
  /-- The caller drops the attempt. -/
  | abort
  /-- The machine stops; what is left of the part and of the bitmap. -/
  | crash (part : Option (List UInt8)) (manifest : Option (List Char))
  /-- Between attempts an external tool deletes, truncates or extends the part. -/
  | tamper (part : Option (List UInt8))
  deriving DecidableEq, Repr

/-! ## Chunks -/

/-- What `fetch_chunk` starts from. -/
def ChunkTask.start (index chunkSize : Nat) : ChunkTask :=
  ⟨index, index * chunkSize, index * chunkSize, [], .streaming⟩

/-- After a flush: on with the body, or done with it when all of the chunk was written. -/
def ChunkTask.flushed (limit : Nat) (ended : Bool) (t : ChunkTask) : Option ChunkTask :=
  if ended then
    if t.written = limit then some { t with stage := .syncing } else none
  else some { t with stage := .streaming }

/-- The next `n` bytes of the file arrive; `none` when they overrun the range. -/
def ChunkTask.receive (upstream : List UInt8) (limit n : Nat) (t : ChunkTask) :
    Option ChunkTask :=
  if t.received + n > limit then none
  else
    let buf := t.buf ++ (upstream.drop t.received).take n
    some { t with
      received := t.received + n
      buf
      stage := if buf.length ≥ CHUNK_WRITE_BUFFER then .flushing false else .streaming }

/-! ## One step -/

def World.setPhase (w : World) (a : Attempt) (phase : Phase) : World :=
  { w with attempt := some { a with phase } }

/-- `open_preallocated`, from the length on. -/
def sizePart (total : Nat) (w : World) (a : Attempt) (content : List UInt8) : World :=
  if content.length = total then
    { w with attempt := some { a with unbacked := false, phase := .loading } }
  else
    { w with
      part := w.part.put (some (setLen 0 total content))
      attempt := some { a with
        unbacked := true
        leftover := w.manifest.survivors.any hasDone
        phase := .loading } }

/-- Where the chunks start from. -/
def fetchFrom (chunkCount : Nat) (done : List Bool) : Phase :=
  .fetching done (pendingIndices chunkCount done) []

/-- `load_or_init`, and whether its marks are trusted. -/
def loadManifest (total : Nat) (w : World) (a : Attempt) : Phase :=
  let count := chunkCount total a.chunkSize
  match w.manifest.now.bind (load total a.chunkSize count) with
  | none => .truncating
  | some done => if a.unbacked && anyComplete done then .truncating else fetchFrom count done

/-- A chunk in flight has changed, or failed and the attempt with it. -/
def setTask (w : World) (a : Attempt) (done : List Bool) (todo : List Nat)
    (active : List ChunkTask) (i : Nat) : Option ChunkTask → World
  | some t => w.setPhase a (.fetching done todo (active.set i t))
  | none => w.setPhase a .failed

/-- The operation of one chunk in flight. -/
def stepTask (upstream : List UInt8) (w : World) (a : Attempt) (done : List Bool)
    (todo : List Nat) (active : List ChunkTask) (i : Nat) (t : ChunkTask) :
    Event → Option World
  | .frame _ n =>
    if t.stage = .streaming then
      some (setTask w a done todo active i
        (t.receive upstream (chunkLimit t.index a.chunkSize upstream.length) n))
    else none
  | .endBody _ =>
    if t.stage = .streaming then
      let limit := chunkLimit t.index a.chunkSize upstream.length
      some (setTask w a done todo active i
        (if t.buf = [] then t.flushed limit true
          else some { t with stage := .flushing true }))
    else none
  | .writeChunk _ n =>
    match t.stage, w.part.now with
    | .flushing ended, some content =>
      if 0 < n ∧ n ≤ t.buf.length then
        let t' := { t with written := t.written + n, buf := t.buf.drop n }
        let limit := chunkLimit t.index a.chunkSize upstream.length
        some (setTask
          { w with part := w.part.put (some (writeAt 0 t.written (t.buf.take n) content)) }
          a done todo active i (if t'.buf = [] then t'.flushed limit ended else some t'))
      else none
    | _, _ => none
  | .syncChunk _ =>
    if t.stage = .syncing then
      some (setTask { w with part := w.part.sync } a done todo active i
        (some { t with stage := .completing }))
    else none
  | .mark _ =>
    -- One task at a time has the lock of the bitmap.
    if t.stage = .completing ∧ ∀ other ∈ active, other.stage ≠ .marking then
      if done[t.index]? = some true then
        some (w.setPhase a (.fetching done todo (active.eraseIdx i)))
      else
        match w.manifest.now with
        | none => some (w.setPhase a .failed)
        | some bytes =>
          some (setTask { w with manifest := w.manifest.put (some
              (withMark upstream.length a.chunkSize (chunkCount upstream.length a.chunkSize)
                t.index bytes)) }
            a done todo active i (some { t with stage := .marking }))
    else none
  | .syncMark _ =>
    if t.stage = .marking then
      some ({ w with manifest := w.manifest.sync }.setPhase { a with leftover := false }
        (.fetching (done.set t.index true) todo (active.eraseIdx i)))
    else none
  | _ => none

/-- The chunk in flight an event is about. -/
def Event.task : Event → Option Nat
  | .frame i _ | .endBody i | .writeChunk i _ | .syncChunk i | .mark i | .syncMark i => some i
  | _ => none

/-- `chunked_download` while the chunks stream. -/
def stepFetching (upstream : List UInt8) (w : World) (a : Attempt) (done : List Bool)
    (todo : List Nat) (active : List ChunkTask) (e : Event) : Option World :=
  match e with
  | .startChunk =>
    match todo with
    | index :: rest =>
      if active.length < a.conns then
        some (w.setPhase a (.fetching done rest (active ++ [.start index a.chunkSize])))
      else none
    | [] => none
  | .assemble =>
    if todo = [] ∧ active = [] then some (w.setPhase a .assembled) else none
  | e =>
    match e.task with
    | some i =>
      match active[i]? with
      | some t => stepTask upstream w a done todo active i t e
      | none => none
    | none => none

/-- `verify_and_publish`: the length, and the sha256 where one was advertised. -/
def verified (digest : List UInt8 → String) (total : Nat) (sha256 : Option String)
    (content : List UInt8) : Bool :=
  content.length == total && sha256.all (digest content == ·)

/-- One operation of the attempt. -/
def stepAttempt (digest : List UInt8 → String) (upstream : List UInt8) (w : World)
    (a : Attempt) (e : Event) : Option World :=
  let total := upstream.length
  let count := chunkCount total a.chunkSize
  match a.phase, e with
  | .opening, .openPart =>
    match w.part.now with
    | none => some ({ w with part := w.part.put (some []) }.setPhase a .sizing)
    | some _ => some (w.setPhase a .sizing)
  | .sizing, .sizePart => w.part.now.map (sizePart total w a)
  | .loading, .loadManifest => some (w.setPhase a (loadManifest total w a))
  | .truncating, .truncateManifest =>
    some ({ w with manifest := w.manifest.put (some []) }.setPhase a
      (.initialising (initContent total a.chunkSize count)))
  | .initialising left, .writeManifest n =>
    match w.manifest.now with
    | some bytes =>
      let rest := left.drop n
      some ({ w with manifest := w.manifest.put (some (bytes ++ left.take n)) }.setPhase a
        (if rest = [] then .syncingInit else .initialising rest))
    | none => none
  | .syncingInit, .syncManifest =>
    some ({ w with manifest := w.manifest.sync }.setPhase { a with leftover := false }
      (fetchFrom count (List.replicate count false)))
  | .fetching done todo active, e => stepFetching upstream w a done todo active e
  | .assembled, .syncPart => some ({ w with part := w.part.sync }.setPhase a .verifying)
  | .verifying, .verify =>
    match w.part.now with
    | some content =>
      some (w.setPhase a
        (if verified digest total a.sha256 content then .publishing else .removingPart))
    | none => none
  | .removingPart, .removePart ok =>
    some ({ w with part := if ok then w.part.put none else w.part }.setPhase a .removingManifest)
  | .removingManifest, .removeManifest ok =>
    some { w with
      manifest := if ok then w.manifest.put none else w.manifest
      attempt := none }
  | .publishing, .rename =>
    some ({ w with dest := w.part.now, part := .absent }.setPhase a .cleaning)
  | .cleaning, .cleanup ok =>
    some { w with
      manifest := if ok then w.manifest.put none else w.manifest
      attempt := none
      returned := w.dest :: w.returned }
  | _, _ => none

/-- An external tool leaves a file of the full length alone. -/
def Tampers (total : Nat) (part : Option (List UInt8)) : Prop :=
  ∀ content ∈ part, content.length ≠ total

instance (total : Nat) (part : Option (List UInt8)) : Decidable (Tampers total part) :=
  inferInstanceAs (Decidable (∀ content ∈ part, content.length ≠ total))

/-- One step; `none` when it cannot happen. -/
def step (digest : List UInt8 → String) (upstream : List UInt8) (w : World) (e : Event) :
    Option World :=
  match w.attempt, e with
  | _, .crash part manifest =>
    if w.part.Blends part ∧ manifest ∈ w.manifest.survivors then
      some { w with part := .stored part, manifest := .stored manifest, attempt := none }
    else none
  | none, .start chunkSize conns sha256 =>
    if 0 < chunkSize then
      some { w with attempt := some ⟨chunkSize, conns, sha256, false, false, .opening⟩ }
    else none
  | none, .tamper part =>
    if Tampers upstream.length part then some { w with part := .stored part } else none
  | none, _ => none
  | some _, .fail | some _, .abort => some { w with attempt := none }
  | some a, e => stepAttempt digest upstream w a e

/-! ## Runs -/

def runSteps (digest : List UInt8 → String) (upstream : List UInt8) :
    World → List Event → Option World
  | w, [] => some w
  | w, e :: rest => (step digest upstream w e).bind fun w' => runSteps digest upstream w' rest

/-- The attempt ends without an answer of its own. -/
def Event.interrupts : Event → Bool
  | .fail | .abort | .crash .. => true
  | _ => false

/-- The running attempt owes the bitmap a fsync. -/
def World.leftover (w : World) : Bool := (w.attempt.map Attempt.leftover).getD false

/-- No step of the run interrupts an attempt that preallocated a part over old marks and has
not yet fsynced the bitmap. -/
def Careful (digest : List UInt8 → String) (upstream : List UInt8) : World → List Event → Prop
  | _, [] => True
  | w, e :: rest => (e.interrupts = true → w.leftover = false) ∧
      ∀ w' ∈ step digest upstream w e, Careful digest upstream w' rest

instance decidableCareful (digest : List UInt8 → String) (upstream : List UInt8) :
    (w : World) → (events : List Event) → Decidable (Careful digest upstream w events)
  | _, [] => isTrue trivial
  | w, e :: rest =>
    have : ∀ w', Decidable (Careful digest upstream w' rest) := fun w' =>
      decidableCareful digest upstream w' rest
    inferInstanceAs (Decidable ((e.interrupts = true → w.leftover = false) ∧
      ∀ w' ∈ step digest upstream w e, Careful digest upstream w' rest))

end ScreenSearch.Download
