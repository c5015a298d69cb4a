import ScreenSearch.Inference.ChunkSafety

/-!
# Published bytes are real

The invariant over the steps of the attempts: while the running attempt owes the bitmap no
fsync, every content of the bitmap that a crash may leave is backed. An attempt that grows a
part over old marks breaks this until the fsync; an interruption in between is what `Careful`
excludes, and what publishes zeros.

Main results:

* `stepTask_inv` — what a chunk in flight does keeps the invariant;
* `step_inv` — every step of a careful run keeps it;
* `published_genuine` — whenever an attempt of a careful run returns `Ok`, the published file
  is the upstream file.
-/

namespace ScreenSearch.Download

open DurableFile

variable {digest : List UInt8 → String} {upstream : List UInt8} {w w' : World} {a : Attempt}
  {e : Event} {done : List Bool} {todo : List Nat} {active : List ChunkTask}

/-! ## While chunks stream -/

/-- The contents of the bitmap are backed when the attempt owes no fsync. -/
def SafeMarks (upstream : List UInt8) (w : World) (leftover : Bool) : Prop :=
  leftover = false → ∀ m ∈ w.manifest.survivors, Backed upstream w.part m

/-- The running attempt comes to a phase. -/
theorem inv_setPhase {phase : Phase} (hReturned : ∀ c ∈ w.returned, c = some upstream)
    (hSize : 0 < a.chunkSize) (hSafe : SafeMarks upstream w a.leftover)
    (hPhase : PhaseOk upstream w a phase) : Inv upstream (w.setPhase a phase) where
  backed := hSafe
  attempt := by
    intro b hb
    obtain rfl := Option.some.inj hb
    refine ⟨hSize, ?_⟩
    cases phase <;> exact hPhase
  returned := hReturned

theorem inv_setTask {i : Nat} {t : ChunkTask} {o : Option ChunkTask}
    (hReturned : ∀ c ∈ w.returned, c = some upstream) (hSize : 0 < a.chunkSize)
    (hSafe : SafeMarks upstream w a.leftover)
    (hOk : FetchOk upstream w.part w.manifest a.chunkSize a.leftover done todo active)
    (hTask : active[i]? = some t)
    (hNew : ∀ t' ∈ o, t'.index = t.index ∧ TaskOk upstream w.part a.chunkSize t') :
    Inv upstream (setTask w a done todo active i o) := by
  rcases o with - | t'
  · exact inv_setPhase hReturned hSize hSafe trivial
  · obtain ⟨hIndex, hTaskOk⟩ := hNew t' rfl
    exact inv_setPhase hReturned hSize hSafe (hOk.setTask hTask hIndex hTaskOk)

theorem safeMarks_keeps {part' : DurableFile UInt8} {leftover : Bool}
    (hFull : Full upstream w.part) (hKeeps : Keeps upstream w.part part')
    (hSafe : SafeMarks upstream w leftover) :
    SafeMarks upstream { w with part := part' } leftover :=
  fun hNone m hm => backed_of_keeps hFull hKeeps (hSafe hNone m hm)

/-- Writing the mark of a chunk that is on disk. -/
theorem mark_inv {i : Nat} {t : ChunkTask} {bytes : List Char}
    (hReturned : ∀ c ∈ w.returned, c = some upstream) (hSize : 0 < a.chunkSize)
    (hSafe : SafeMarks upstream w a.leftover)
    (hOk : FetchOk upstream w.part w.manifest a.chunkSize a.leftover done todo active)
    (hTask : active[i]? = some t) (hStage : t.stage = .completing)
    (hNow : w.manifest.now = some bytes) :
    Inv upstream (setTask { w with manifest := w.manifest.put (some
        (withMark upstream.length a.chunkSize (chunkCount upstream.length a.chunkSize)
          t.index bytes)) }
      a done todo active i (some { t with stage := .marking })) := by
  have hTaskOk := hOk.tasks t (List.mem_of_getElem? hTask)
  obtain ⟨bytes', marks, hNow', hLoad⟩ := hOk.loads
  obtain rfl := Option.some.inj (hNow.symm.trans hNow')
  have hHonest : ∀ x, Marked upstream.length (some (withMark upstream.length a.chunkSize
      (chunkCount upstream.length a.chunkSize) t.index bytes)) x → Honest upstream w.part x := by
    intro x hMarked
    rcases marked_of_withMark hSize hLoad hTaskOk.index hMarked with hOld | hIn
    · exact hOk.marks x (hNow ▸ hOld)
    · exact hTaskOk.durable (by rw [hStage]; rfl) x hIn
  obtain ⟨marks', hLoad'⟩ := load_withMark hLoad hTaskOk.index
  refine inv_setTask hReturned hSize ?_
    ⟨hOk.full, ⟨_, marks', rfl, hLoad'⟩, hHonest, hOk.backs, hOk.length, hOk.covers,
      hOk.pending, hOk.tasks, hOk.fresh⟩ hTask ?_
  · intro hNone m hm
    rw [survivors_put, List.mem_cons] at hm
    rcases hm with rfl | hm
    · exact fun x hMarked => Or.inr (hHonest x hMarked)
    · exact hSafe hNone m hm
  · intro t' hNew
    obtain rfl := Option.some.inj hNew
    exact ⟨rfl, hTaskOk.index, hTaskOk.order, hTaskOk.limit, hTaskOk.buf, hTaskOk.bytes,
      fun _ => hTaskOk.complete (by rw [hStage]; rfl),
      fun _ => hTaskOk.durable (by rw [hStage]; rfl)⟩

/-- The fsync of a mark: what is read is all that a crash leaves. -/
theorem syncMark_inv {i : Nat} {t : ChunkTask}
    (hReturned : ∀ c ∈ w.returned, c = some upstream) (hSize : 0 < a.chunkSize)
    (hOk : FetchOk upstream w.part w.manifest a.chunkSize a.leftover done todo active)
    (hTask : active[i]? = some t) (hStage : t.stage = .marking) :
    Inv upstream ({ w with manifest := w.manifest.sync }.setPhase { a with leftover := false }
      (.fetching (done.set t.index true) todo (active.eraseIdx i))) := by
  refine inv_setPhase hReturned hSize ?_ (hOk.complete hTask (by rw [hStage]; rfl))
  intro _ m hm
  rw [survivors_sync, List.mem_singleton] at hm
  subst hm
  exact fun x hMarked => Or.inr (hOk.marks x hMarked)

/-- A mark that is there already. -/
theorem marked_already_inv {i : Nat} {t : ChunkTask}
    (hReturned : ∀ c ∈ w.returned, c = some upstream) (hSize : 0 < a.chunkSize)
    (hSafe : SafeMarks upstream w a.leftover)
    (hOk : FetchOk upstream w.part w.manifest a.chunkSize a.leftover done todo active)
    (hTask : active[i]? = some t) (hDone : done[t.index]? = some true) :
    Inv upstream (w.setPhase a (.fetching done todo (active.eraseIdx i))) := by
  refine inv_setPhase hReturned hSize hSafe
    ⟨hOk.full, hOk.loads, hOk.marks, hOk.backs, hOk.length, ?_, hOk.pending,
      fun s hs => hOk.tasks s (List.mem_of_mem_eraseIdx hs), hOk.fresh⟩
  intro j hj
  rcases eq_or_ne t.index j with rfl | hNe
  · exact Or.inl hDone
  rcases hOk.covers j hj with hDone' | hTodo | ⟨s, hs, hsIndex⟩
  · exact Or.inl hDone'
  · exact Or.inr (Or.inl hTodo)
  · exact Or.inr (Or.inr ⟨s, mem_eraseIdx_of_index hTask hs (hsIndex ▸ hNe), hsIndex⟩)

/-- Every operation of a chunk in flight. -/
theorem stepTask_inv {i : Nat} {t : ChunkTask}
    (hReturned : ∀ c ∈ w.returned, c = some upstream) (hSize : 0 < a.chunkSize)
    (hSafe : SafeMarks upstream w a.leftover)
    (hOk : FetchOk upstream w.part w.manifest a.chunkSize a.leftover done todo active)
    (hTask : active[i]? = some t)
    (hStep : stepTask upstream w a done todo active i t e = some w') : Inv upstream w' := by
  have hTaskOk := hOk.tasks t (List.mem_of_getElem? hTask)
  cases e
  case frame j n =>
    dsimp only [stepTask] at hStep
    split at hStep
    case isTrue =>
      obtain rfl := Option.some.inj hStep
      exact inv_setTask hReturned hSize hSafe hOk hTask
        fun t' hNew => receive_ok hSize hTaskOk hNew
    case isFalse => cases hStep
  case endBody j =>
    dsimp only [stepTask] at hStep
    split at hStep
    case isTrue =>
      obtain rfl := Option.some.inj hStep
      refine inv_setTask hReturned hSize hSafe hOk hTask fun t' hNew => ?_
      split at hNew
      case isTrue => exact flushed_ok hTaskOk hNew
      case isFalse =>
        obtain rfl := Option.some.inj hNew
        exact ⟨rfl, hTaskOk.index, hTaskOk.order, hTaskOk.limit, hTaskOk.buf, hTaskOk.bytes,
          (fun hComplete => by cases hComplete), (fun hDurable => by cases hDurable)⟩
    case isFalse => cases hStep
  case writeChunk j n =>
    dsimp only [stepTask] at hStep
    split at hStep
    next ended l hStage hNow =>
      split at hStep
      case isTrue hn =>
        obtain rfl := Option.some.inj hStep
        -- a write stays inside its chunk, so every marked chunk is kept
        obtain ⟨hKeeps, hWritten⟩ :=
          write_ok hSize hTaskOk hOk.full hNow hn.2 (by rw [hStage]; rfl)
        refine inv_setTask hReturned hSize (safeMarks_keeps hOk.full hKeeps hSafe)
          (hOk.keeps hKeeps) hTask fun t' hNew => ?_
        split at hNew
        case isTrue =>
          obtain ⟨hIndex, hFlushed⟩ := flushed_ok hWritten hNew
          exact ⟨hIndex, hFlushed⟩
        case isFalse =>
          obtain rfl := Option.some.inj hNew
          exact ⟨rfl, hWritten⟩
      case isFalse => cases hStep
    next => cases hStep
  case syncChunk j =>
    dsimp only [stepTask] at hStep
    split at hStep
    case isTrue hStage =>
      obtain rfl := Option.some.inj hStep
      have hKeeps := keeps_sync hOk.full
      refine inv_setTask hReturned hSize (safeMarks_keeps hOk.full hKeeps hSafe)
        (hOk.keeps hKeeps) hTask fun t' hNew => ?_
      obtain rfl := Option.some.inj hNew
      exact ⟨rfl, sync_ok hTaskOk hStage⟩
    case isFalse => cases hStep
  case mark j =>
    dsimp only [stepTask] at hStep
    split at hStep
    case isTrue hStage =>
      split at hStep
      case isTrue hDone =>
        obtain rfl := Option.some.inj hStep
        -- marked before: the manifest stays as it is
        exact marked_already_inv hReturned hSize hSafe hOk hTask hDone
      case isFalse =>
        split at hStep
        next =>
          obtain rfl := Option.some.inj hStep
          exact inv_setPhase hReturned hSize hSafe trivial
        next bytes hNow =>
          obtain rfl := Option.some.inj hStep
          -- the mark comes only behind the sync of the chunk
          exact mark_inv hReturned hSize hSafe hOk hTask hStage.1 hNow
    case isFalse => cases hStep
  case syncMark j =>
    dsimp only [stepTask] at hStep
    split at hStep
    case isTrue hStage =>
      obtain rfl := Option.some.inj hStep
      exact syncMark_inv hReturned hSize hOk hTask hStage
    case isFalse => cases hStep
  all_goals cases hStep

theorem start_ok {chunkSize index : Nat} {part : DurableFile UInt8}
    (hIndex : index < chunkCount upstream.length chunkSize) :
    TaskOk upstream part chunkSize (.start index chunkSize) where
  index := hIndex
  order := Nat.le_refl _
  limit := Nat.le_add_right _ _
  buf := by
    unfold ChunkTask.start
    rw [Nat.sub_self, List.take_zero]
  bytes := by
    intro l _ x hStart hWritten
    exact absurd hWritten (Nat.not_lt.mpr hStart)
  complete := by
    intro hComplete
    cases hComplete
  durable := by
    intro hDurable
    cases hDurable

theorem start_inv {index : Nat} (hReturned : ∀ c ∈ w.returned, c = some upstream)
    (hSize : 0 < a.chunkSize) (hSafe : SafeMarks upstream w a.leftover)
    (hOk : FetchOk upstream w.part w.manifest a.chunkSize a.leftover done (index :: todo) active) :
    Inv upstream (w.setPhase a (.fetching done todo (active ++ [.start index a.chunkSize]))) := by
  have hIndex := hOk.pending index List.mem_cons_self
  refine inv_setPhase hReturned hSize hSafe
    ⟨hOk.full, hOk.loads, hOk.marks, hOk.backs, hOk.length, ?_,
      fun i hi => hOk.pending i (List.mem_cons_of_mem _ hi), ?_, hOk.fresh⟩
  · intro i hi
    rcases hOk.covers i hi with hDone | hTodo | ⟨t, ht, htIndex⟩
    · exact Or.inl hDone
    · rcases List.mem_cons.mp hTodo with rfl | hRest
      · exact Or.inr (Or.inr ⟨_, List.mem_append_right _ (List.mem_singleton.mpr rfl), rfl⟩)
      · exact Or.inr (Or.inl hRest)
    · exact Or.inr (Or.inr ⟨t, List.mem_append_left _ ht, htIndex⟩)
  · intro t ht
    rcases List.mem_append.mp ht with hOld | hNew
    · exact hOk.tasks t hOld
    · rw [List.mem_singleton.mp hNew]
      exact start_ok hIndex

/-- With every chunk complete the part is the file, and no fsync is owed. -/
theorem assembled_ok {chunkSize : Nat} {leftover : Bool} {part : DurableFile UInt8}
    {manifest : DurableFile Char} (hTotal : 0 < upstream.length) (hSize : 0 < chunkSize)
    (hOk : FetchOk upstream part manifest chunkSize leftover done [] []) :
    leftover = false ∧ part.now = some upstream := by
  have hDone : ∀ i < chunkCount upstream.length chunkSize, done[i]? = some true := by
    intro i hi
    rcases hOk.covers i hi with hDone | hTodo | ⟨t, ht, -⟩
    · exact hDone
    · cases hTodo
    · cases ht
  constructor
  · rcases leftover with - | -
    · rfl
    · obtain ⟨i, hi, -⟩ := exists_inChunk hSize hTotal
      exact absurd (hDone i hi) (hOk.fresh rfl i)
  · obtain ⟨l, hNow, hLength⟩ := hOk.full
    rw [hNow, Option.some.injEq]
    apply List.ext_getElem?
    intro x
    rcases Nat.lt_or_ge x upstream.length with hx | hx
    · obtain ⟨i, hi, hIn⟩ := exists_inChunk hSize hx
      exact hOk.full.byte (hOk.backs i x (hDone i hi) hIn) hx hNow
    · rw [List.getElem?_eq_none hx, List.getElem?_eq_none (by omega)]

theorem stepFetching_inv (hTotal : 0 < upstream.length)
    (hReturned : ∀ c ∈ w.returned, c = some upstream) (hSize : 0 < a.chunkSize)
    (hSafe : SafeMarks upstream w a.leftover)
    (hOk : FetchOk upstream w.part w.manifest a.chunkSize a.leftover done todo active)
    (hStep : stepFetching upstream w a done todo active e = some w') : Inv upstream w' := by
  unfold stepFetching at hStep
  split at hStep
  case h_1 =>
    split at hStep
    next index rest =>
      split at hStep
      case isTrue =>
        obtain rfl := Option.some.inj hStep
        exact start_inv hReturned hSize hSafe hOk
      case isFalse => cases hStep
    next => cases hStep
  case h_2 =>
    split at hStep
    case isTrue hEmpty =>
      obtain rfl := Option.some.inj hStep
      obtain ⟨rfl, rfl⟩ := hEmpty
      exact inv_setPhase hReturned hSize hSafe (assembled_ok hTotal hSize hOk)
    case isFalse => cases hStep
  case h_3 =>
    split at hStep
    next i _ =>
      split at hStep
      next t hTask => exact stepTask_inv hReturned hSize hSafe hOk hTask hStep
      next => cases hStep
    next => cases hStep

/-! ## Before and after -/

/-- Setting the length; over marks it leaves a fsync owed. -/
theorem sizePart_inv {content : List UInt8} (hReturned : ∀ c ∈ w.returned, c = some upstream)
    (hSize : 0 < a.chunkSize) (hSafe : SafeMarks upstream w a.leftover)
    (hLeftover : a.leftover = false) (hNow : w.part.now = some content) :
    Inv upstream (sizePart upstream.length w a content) := by
  unfold sizePart
  split
  case isTrue hLength =>
    exact inv_setPhase (a := { a with unbacked := false }) hReturned hSize hSafe
      ⟨⟨content, hNow, hLength⟩, fun hTrue => absurd (hLeftover.symm.trans hTrue) (by decide)⟩
  case isFalse =>
    refine inv_setPhase
      (w := { w with part := w.part.put (some (setLen 0 upstream.length content)) })
      (a := { a with unbacked := true, leftover := w.manifest.survivors.any hasDone })
      hReturned hSize (fun hNone => backed_of_not_any hNone)
      ⟨⟨_, rfl, length_setLen _ _⟩, fun _ => rfl⟩

/-- The chunks start from marks that are backed, or from none. -/
theorem fetchFrom_ok {chunkSize : Nat} {leftover : Bool} {part : DurableFile UInt8}
    {manifest : DurableFile Char} {bytes : List Char} (hSize : 0 < chunkSize)
    (hFull : Full upstream part) (hNow : manifest.now = some bytes)
    (hLoad : load upstream.length chunkSize (chunkCount upstream.length chunkSize) bytes =
      some done)
    (hMarks : ∀ x, Marked upstream.length manifest.now x → Honest upstream part x)
    (hFresh : leftover = true → ∀ i : Nat, done[i]? ≠ some true) :
    FetchOk upstream part manifest chunkSize leftover done
      (pendingIndices (chunkCount upstream.length chunkSize) done) [] where
  full := hFull
  loads := ⟨bytes, done, hNow, hLoad⟩
  marks := hMarks
  backs := by
    intro i x hDone hIn
    apply hMarks
    rw [hNow]
    exact marked_of_done hSize hLoad hDone hIn
  length := load_length hLoad
  covers := by
    intro i hi
    by_cases hDone : done[i]? = some true
    · exact Or.inl hDone
    · right
      left
      unfold pendingIndices
      rw [List.mem_filter, List.mem_range, bne_iff_ne]
      exact ⟨hi, hDone⟩
  pending := by
    intro i hi
    exact List.mem_range.mp (List.mem_filter.mp hi).1
  tasks := by
    intro t ht
    cases ht
  fresh := hFresh

/-- Trusting the bitmap. -/
theorem loadManifest_inv (hReturned : ∀ c ∈ w.returned, c = some upstream)
    (hSize : 0 < a.chunkSize) (hSafe : SafeMarks upstream w a.leftover)
    (hFull : Full upstream w.part) (hUnbacked : a.leftover = true → a.unbacked = true) :
    Inv upstream (w.setPhase a (loadManifest upstream.length w a)) := by
  refine inv_setPhase hReturned hSize hSafe ?_
  unfold loadManifest
  dsimp only
  split
  case h_1 => exact hFull
  case h_2 done hBind =>
    obtain ⟨bytes, hNow, hLoad⟩ := Option.bind_eq_some_iff.mp hBind
    split
    case isTrue => exact hFull
    case isFalse hTrusted =>
      -- Marks are trusted over a part that had its length, where they are backed; over
      -- another one there are none.
      have hNone : a.unbacked = true → ∀ i : Nat, done[i]? ≠ some true := by
        intro hTrue i hDone
        apply hTrusted
        rw [hTrue, Bool.true_and]
        unfold anyComplete
        rw [List.contains_iff_mem]
        exact List.mem_of_getElem? hDone
      refine fetchFrom_ok hSize hFull hNow hLoad ?_ fun hTrue => hNone (hUnbacked hTrue)
      rcases hAt : a.unbacked with - | -
      · have hLeftover : a.leftover = false := by
          rcases hOwed : a.leftover with - | -
          · rfl
          · rw [hUnbacked hOwed] at hAt
            cases hAt
        intro x hMarked
        exact hFull.honest (hSafe hLeftover _ (now_mem _) x hMarked)
      · intro x hMarked
        rw [hNow] at hMarked
        exact absurd hMarked (not_marked_of_no_done hLoad (hNone hAt))

/-- A fresh bitmap that is on disk. -/
theorem syncInit_inv (hReturned : ∀ c ∈ w.returned, c = some upstream)
    (hSize : 0 < a.chunkSize) (hFull : Full upstream w.part)
    (hNow : w.manifest.now = some (initContent upstream.length a.chunkSize
      (chunkCount upstream.length a.chunkSize))) :
    Inv upstream ({ w with manifest := w.manifest.sync }.setPhase { a with leftover := false }
      (fetchFrom (chunkCount upstream.length a.chunkSize)
        (List.replicate (chunkCount upstream.length a.chunkSize) false))) := by
  have hUnmarked : ∀ x, ¬ Marked upstream.length w.manifest.now x := by
    intro x
    rw [hNow]
    exact not_marked_of_prefix_init List.prefix_rfl
  refine inv_setPhase hReturned hSize ?_ (fetchFrom_ok hSize hFull hNow load_init ?_ ?_)
  · intro _ m hm
    rw [survivors_sync, List.mem_singleton] at hm
    subst hm
    exact backed_of_not_marked hUnmarked
  · intro x hMarked
    exact absurd hMarked (hUnmarked x)
  · intro hTrue
    cases hTrue

theorem survivors_backed_sub {part' : DurableFile UInt8} {leftover : Bool}
    (hTotal : 0 < upstream.length)
    (hSub : ∀ l, some l ∈ part'.survivors → l = [] ∨ some l ∈ w.part.survivors)
    (hSafe : SafeMarks upstream w leftover) :
    SafeMarks upstream { w with part := part' } leftover :=
  fun hNone m hm => backed_of_survivors hTotal hSub (hSafe hNone m hm)

/-- A content of the bitmap without a mark is written. -/
theorem safeMarks_put {content : Option (List Char)} {leftover : Bool}
    (hUnmarked : ∀ x, ¬ Marked upstream.length content x)
    (hSafe : SafeMarks upstream w leftover) :
    SafeMarks upstream { w with manifest := w.manifest.put content } leftover := by
  intro hNone m hm
  rw [survivors_put, List.mem_cons] at hm
  rcases hm with rfl | hm
  · exact backed_of_not_marked hUnmarked
  · exact hSafe hNone m hm

/-- Removing the bitmap, or failing to. -/
theorem safeMarks_remove {leftover ok : Bool} (hSafe : SafeMarks upstream w leftover) :
    SafeMarks upstream
      { w with manifest := if ok = true then w.manifest.put none else w.manifest } leftover := by
  split
  · exact safeMarks_put (fun x => not_marked_none) hSafe
  · exact hSafe

/-- An attempt ends while it owes no fsync. -/
theorem inv_ended (hReturned : ∀ c ∈ w.returned, c = some upstream)
    (hSafe : SafeMarks upstream w false) : Inv upstream { w with attempt := none } where
  backed := hSafe
  attempt := by
    intro a ha
    cases ha
  returned := hReturned

/-- Every operation of an attempt. -/
theorem stepAttempt_inv (hTotal : 0 < upstream.length) (hInv : Inv upstream w)
    (hAttempt : w.attempt = some a) (hStep : stepAttempt digest upstream w a e = some w') :
    Inv upstream w' := by
  obtain ⟨hSize, hPhase⟩ := hInv.attempt a hAttempt
  have hReturned := hInv.returned
  have hSafe : SafeMarks upstream w a.leftover := by
    intro hNone
    apply hInv.backed
    unfold World.leftover
    rw [hAttempt]
    exact hNone
  unfold stepAttempt at hStep
  dsimp only at hStep
  split at hStep
  case h_1 hAt =>
    rw [hAt] at hPhase
    split at hStep
    case h_1 hNow =>
      obtain rfl := Option.some.inj hStep
      refine inv_setPhase hReturned hSize (survivors_backed_sub hTotal ?_ hSafe) hPhase
      -- a part that is made is empty; what survived before still does
      intro l hl
      rw [survivors_put, List.mem_cons, Option.some.injEq] at hl
      exact hl
    case h_2 =>
      obtain rfl := Option.some.inj hStep
      exact inv_setPhase hReturned hSize hSafe hPhase
  case h_2 hAt =>
    rw [hAt] at hPhase
    obtain ⟨content, hNow, rfl⟩ := Option.map_eq_some_iff.mp hStep
    exact sizePart_inv hReturned hSize hSafe hPhase hNow
  case h_3 hAt =>
    rw [hAt] at hPhase
    obtain rfl := Option.some.inj hStep
    exact loadManifest_inv hReturned hSize hSafe hPhase.1 hPhase.2
  case h_4 hAt =>
    rw [hAt] at hPhase
    obtain rfl := Option.some.inj hStep
    -- the manifest is being written: what is there so far is the front of an unmarked one
    refine inv_setPhase hReturned hSize (safeMarks_put ?_ hSafe)
      ⟨hPhase, [], rfl, List.nil_append _⟩
    exact fun x => not_marked_of_prefix_init (List.nil_prefix (l :=
      initContent upstream.length a.chunkSize (chunkCount upstream.length a.chunkSize)))
  case h_5 left n hAt =>
    rw [hAt] at hPhase
    obtain ⟨hFull, bytes, hNow, hInit⟩ := hPhase
    rw [hNow] at hStep
    obtain rfl := Option.some.inj hStep
    have hWritten : bytes ++ left.take n ++ left.drop n = initContent upstream.length a.chunkSize
        (chunkCount upstream.length a.chunkSize) := by
      rw [List.append_assoc, List.take_append_drop, hInit]
    refine inv_setPhase hReturned hSize (safeMarks_put ?_ hSafe) ?_
    · exact fun x => not_marked_of_prefix_init ⟨left.drop n, hWritten⟩
    · split
      case isTrue hEmpty =>
        rw [hEmpty, List.append_nil] at hWritten
        exact ⟨hFull, congrArg some hWritten⟩
      case isFalse => exact ⟨hFull, _, rfl, hWritten⟩
  case h_6 hAt =>
    rw [hAt] at hPhase
    obtain rfl := Option.some.inj hStep
    -- from here on the manifest on the disk is that of this attempt
    exact syncInit_inv hReturned hSize hPhase.1 hPhase.2
  case h_7 done todo active hAt =>
    rw [hAt] at hPhase
    exact stepFetching_inv hTotal hReturned hSize hSafe hPhase hStep
  case h_8 hAt =>
    rw [hAt] at hPhase
    obtain rfl := Option.some.inj hStep
    refine inv_setPhase hReturned hSize (survivors_backed_sub hTotal ?_ hSafe) hPhase
    intro l hl
    rw [survivors_sync, List.mem_singleton] at hl
    exact Or.inr (hl ▸ now_mem w.part)
  case h_9 hAt =>
    rw [hAt] at hPhase
    split at hStep
    case h_1 content hNow =>
      obtain rfl := Option.some.inj hStep
      refine inv_setPhase hReturned hSize hSafe ?_
      split
      · exact hPhase
      · exact hPhase.1
    case h_2 => cases hStep
  case h_10 ok hAt =>
    rw [hAt] at hPhase
    obtain rfl := Option.some.inj hStep
    refine inv_setPhase hReturned hSize (survivors_backed_sub hTotal ?_ hSafe) hPhase
    intro l hl
    split at hl
    · rw [survivors_put, List.mem_cons] at hl
      rcases hl with hNone | hOld
      · cases hNone
      · exact Or.inr hOld
    · exact Or.inr hl
  case h_11 ok hAt =>
    rw [hAt] at hPhase
    -- only an attempt with a manifest of its own removes it
    have hOwed : a.leftover = false := hPhase
    rw [hOwed] at hSafe
    obtain rfl := Option.some.inj hStep
    exact inv_ended
      (w := { w with manifest := if ok = true then w.manifest.put none else w.manifest })
      hReturned (safeMarks_remove hSafe)
  case h_12 hAt =>
    rw [hAt] at hPhase
    obtain rfl := Option.some.inj hStep
    refine inv_setPhase hReturned hSize (survivors_backed_sub hTotal ?_ hSafe) hPhase
    intro l hl
    cases List.mem_singleton.mp hl
  case h_13 ok hAt =>
    rw [hAt] at hPhase
    rw [hPhase.1] at hSafe
    obtain rfl := Option.some.inj hStep
    refine inv_ended (w := { w with
      manifest := if ok = true then w.manifest.put none else w.manifest
      returned := w.dest :: w.returned }) ?_ (safeMarks_remove hSafe)
    -- what is handed out is what the check has let through
    intro c hc
    rcases List.mem_cons.mp hc with rfl | hOld
    · exact hPhase.2
    · exact hReturned c hOld
  case h_14 => cases hStep

/-! ## Runs -/

theorem step_inv (hTotal : 0 < upstream.length) (hInv : Inv upstream w)
    (hCareful : e.interrupts = true → w.leftover = false)
    (hStep : step digest upstream w e = some w') : Inv upstream w' := by
  unfold step at hStep
  split at hStep
  case h_1 left manifest =>
    split at hStep
    case isTrue hLeft =>
      obtain rfl := Option.some.inj hStep
      refine ⟨fun _ m hm => ?_, (fun a ha => by cases ha), hInv.returned⟩
      rw [survivors_stored, List.mem_singleton] at hm
      subst hm
      exact backed_of_blends hLeft.1 (hInv.backed (hCareful rfl) _ hLeft.2)
    case isFalse => cases hStep
  case h_2 chunkSize conns sha256 hIdle =>
    split at hStep
    case isTrue hSize =>
      obtain rfl := Option.some.inj hStep
      have hSafe : SafeMarks upstream w false := by
        intro _
        apply hInv.backed
        unfold World.leftover
        rw [hIdle]
        rfl
      exact inv_setPhase (a := ⟨chunkSize, conns, sha256, false, false, .opening⟩)
        hInv.returned hSize hSafe rfl
    case isFalse => cases hStep
  case h_3 left hIdle =>
    split at hStep
    case isTrue hTampers =>
      obtain rfl := Option.some.inj hStep
      refine ⟨fun _ m _ => backed_of_vacant ?_, fun a ha => ?_, hInv.returned⟩
      · intro l hl
        rw [survivors_stored, List.mem_singleton] at hl
        exact hTampers l hl.symm
      · rw [hIdle] at ha
        cases ha
    case isFalse => cases hStep
  case h_4 => cases hStep
  case h_5 =>
    obtain rfl := Option.some.inj hStep
    exact inv_ended hInv.returned fun _ => hInv.backed (hCareful rfl)
  case h_6 =>
    obtain rfl := Option.some.inj hStep
    exact inv_ended hInv.returned fun _ => hInv.backed (hCareful rfl)
  case h_7 a hAttempt _ _ _ => exact stepAttempt_inv hTotal hInv hAttempt hStep

theorem initial_inv : Inv upstream .initial where
  backed := by
    intro _ m hm
    rw [List.mem_singleton.mp hm]
    exact backed_of_not_marked fun x => not_marked_none
  attempt := by
    intro a ha
    cases ha
  returned := by
    intro c hc
    cases hc

theorem runSteps_inv {events : List Event} (hTotal : 0 < upstream.length)
    (hInv : Inv upstream w) (hCareful : Careful digest upstream w events)
    (hRun : runSteps digest upstream w events = some w') : Inv upstream w' := by
  induction events generalizing w with
  | nil =>
    obtain rfl := Option.some.inj hRun
    exact hInv
  | cons e rest ih =>
    obtain ⟨next, hStep, hRest⟩ := Option.bind_eq_some_iff.mp hRun
    exact ih (step_inv hTotal hInv hCareful.1 hStep) (hCareful.2 next hStep) hRest

/-! ## What is published -/

/-- Whenever an attempt of a careful run returns `Ok`, the published file is the upstream
file, also when no sha256 was advertised. -/
theorem published_genuine (digest : List UInt8 → String) (upstream : List UInt8)
    (events : List Event) (w : World) (hTotal : 0 < upstream.length)
    (hRun : runSteps digest upstream .initial events = some w)
    (hCareful : Careful digest upstream .initial events) :
    ∀ content ∈ w.returned, content = some upstream :=
  (runSteps_inv hTotal initial_inv hCareful hRun).returned

/-- One attempt, with chunks of one byte and one connection, up to the first chunk. -/
def firstSteps : List Event :=
  [.start 1 1 none, .openPart, .sizePart, .loadManifest, .truncateManifest, .writeManifest 99,
    .syncManifest]

/-- A chunk is fetched. -/
def chunkSteps : List Event :=
  [.startChunk, .frame 0 1, .endBody 0, .writeChunk 0 1, .syncChunk 0, .mark 0, .syncMark 0]

/-- The file is published; the bitmap is removed, or not. -/
def lastSteps (ok : Bool) : List Event :=
  [.assemble, .syncPart, .verify, .rename, .cleanup ok]

/-- The machine crashes after the first of two chunks; the next attempt resumes. -/
def resumedRun : List Event :=
  firstSteps ++ chunkSteps ++
    [.crash (some [7, 0]) (some "SSV2CPARTS v1 2 1 2\n10".toList), .start 1 1 none, .openPart,
      .sizePart, .loadManifest] ++ chunkSteps ++ lastSteps true

theorem published_genuine_resumed : ∃ w,
    runSteps (fun _ => "") [7, 8] .initial resumedRun = some w ∧ w.returned = [some [7, 8]] ∧
      ∀ content ∈ w.returned, content = some [7, 8] := by
  have hReturned : (runSteps (fun _ => "") [7, 8] .initial resumedRun).map World.returned =
      some [some [7, 8]] := by decide +kernel
  obtain ⟨w, hRun, hReturned⟩ := Option.map_eq_some_iff.mp hReturned
  refine ⟨w, hRun, hReturned, ?_⟩
  exact published_genuine (fun _ => "") [7, 8] resumedRun w (by decide) hRun (by decide +kernel)

/-- The bitmap outlives the file it published. An attempt is aborted once it has preallocated
a new part, and the next one finds marks over a part of the right length. -/
def staleRun : List Event :=
  firstSteps ++ chunkSteps ++ lastSteps false ++
    [.start 1 1 none, .openPart, .sizePart, .abort, .start 1 1 none, .openPart, .sizePart,
      .loadManifest] ++ lastSteps true

theorem stale_marks_published : ¬ ∀ (digest : List UInt8 → String) (upstream : List UInt8)
    (events : List Event) (w : World), 0 < upstream.length →
      runSteps digest upstream .initial events = some w →
        ∀ content ∈ w.returned, content = some upstream := by
  intro hAlways
  have hReturned : (runSteps (fun _ => "") [7] .initial staleRun).map World.returned =
      some [some [0], some [7]] := by decide +kernel
  obtain ⟨w, hRun, hReturned⟩ := Option.map_eq_some_iff.mp hReturned
  have hZero := hAlways (fun _ => "") [7] staleRun w (by decide) hRun (some [0])
    (hReturned ▸ List.mem_cons_self)
  exact absurd hZero (by decide)

end ScreenSearch.Download
