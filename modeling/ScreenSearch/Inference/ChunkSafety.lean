import ScreenSearch.Inference.ChunkedDownload

/-!
# Backed marks

Every content of the bitmap that a crash may leave is backed by the part: either no content
of the part that may be left has the length of the file, or every one has the file's bytes
where the bitmap has a mark.

Main results:

* `backed_of_blends` — a crash leaves marks backed;
* `write_ok` — a positioned write of a chunk brings the part closer to the file;
* `sync_ok` — a chunk whose data was fsynced is honest in all that a crash may leave.
-/

namespace ScreenSearch.Download

open DurableFile

variable {upstream : List UInt8} {part part' : DurableFile UInt8}
  {content : Option (List Char)} {chunkSize index x : Nat}

/-! ## Chunks of the file -/

theorem lt_chunkCount {total : Nat} (hSize : 0 < chunkSize) :
    index < chunkCount total chunkSize ↔ index * chunkSize < total := by
  unfold chunkCount
  rw [Nat.lt_iff_add_one_le, Nat.le_div_iff_mul_le hSize, Nat.add_mul, Nat.one_mul]
  omega

theorem chunkLimit_le {total : Nat} (hStart : index * chunkSize < total) :
    chunkLimit index chunkSize total ≤ total := by
  unfold chunkLimit chunkByteLen
  dsimp only
  omega

/-- Every position is in a chunk. -/
theorem exists_inChunk {total : Nat} (hSize : 0 < chunkSize) (hx : x < total) :
    ∃ index < chunkCount total chunkSize, InChunk index chunkSize total x := by
  have hLow : x / chunkSize * chunkSize ≤ x := Nat.div_mul_le_self x chunkSize
  have hHigh : x < x / chunkSize * chunkSize + chunkSize := Nat.lt_div_mul_add hSize
  refine ⟨x / chunkSize, (lt_chunkCount hSize).mpr (by omega), hLow, ?_⟩
  unfold chunkLimit chunkByteLen
  dsimp only
  omega

/-! ## Backed marks -/

/-- No content of the part that may be left has another byte than the file. -/
def Honest (upstream : List UInt8) (part : DurableFile UInt8) (x : Nat) : Prop :=
  ∀ l, some l ∈ part.survivors → l[x]? = none ∨ l[x]? = upstream[x]?

/-- None of them can be taken for a part. -/
def Vacant (upstream : List UInt8) (part : DurableFile UInt8) : Prop :=
  ∀ l, some l ∈ part.survivors → l.length ≠ upstream.length

/-- The content of the bitmap does no harm beside the part. -/
def Backed (upstream : List UInt8) (part : DurableFile UInt8) (content : Option (List Char)) :
    Prop :=
  ∀ x, Marked upstream.length content x → Vacant upstream part ∨ Honest upstream part x

/-- What is read now is as long as the file. -/
def Full (upstream : List UInt8) (part : DurableFile UInt8) : Prop :=
  ∃ l, part.now = some l ∧ l.length = upstream.length

theorem Full.honest (hFull : Full upstream part)
    (h : Vacant upstream part ∨ Honest upstream part x) : Honest upstream part x := by
  obtain ⟨l, hNow, hLength⟩ := hFull
  rcases h with hVacant | hHonest
  · exact absurd hLength (hVacant l (hNow ▸ now_mem part))
  · exact hHonest

/-- Where the part is honest, what is read is the file's byte. -/
theorem Full.byte (hFull : Full upstream part) (hHonest : Honest upstream part x)
    (hx : x < upstream.length) {l : List UInt8} (hNow : part.now = some l) :
    l[x]? = upstream[x]? := by
  obtain ⟨l', hNow', hLength⟩ := hFull
  obtain rfl : l' = l := Option.some.inj (hNow'.symm.trans hNow)
  rcases hHonest l' (hNow ▸ now_mem part) with hNone | hEq
  · rw [List.getElem?_eq_none_iff] at hNone
    omega
  · exact hEq

/-- A part whose contents come from those of another, or are empty. -/
theorem backed_of_survivors (hTotal : 0 < upstream.length)
    (hSub : ∀ l, some l ∈ part'.survivors → l = [] ∨ some l ∈ part.survivors)
    (hBacked : Backed upstream part content) : Backed upstream part' content := by
  intro x hMarked
  rcases hBacked x hMarked with hVacant | hHonest
  · left
    intro l hl
    rcases hSub l hl with rfl | hOld
    · rw [List.length_nil]
      omega
    · exact hVacant l hOld
  · right
    intro l hl
    rcases hSub l hl with rfl | hOld
    · exact Or.inl rfl
    · exact hHonest l hOld

theorem backed_of_blends {left : Option (List UInt8)} (hBlends : part.Blends left)
    (hBacked : Backed upstream part content) : Backed upstream (stored left) content := by
  intro x hMarked
  have hLeft : ∀ l, some l ∈ (stored left).survivors → part.Blends (some l) := by
    intro l hl
    rw [survivors_stored, List.mem_singleton] at hl
    rw [hl]
    exact hBlends
  rcases hBacked x hMarked with hVacant | hHonest
  · left
    intro l hl
    obtain ⟨v, hv, hLength⟩ := (hLeft l hl).length_mem
    rw [← hLength]
    exact hVacant v hv
  · right
    intro l hl
    exact (hLeft l hl).eq_of_survivors hHonest

theorem backed_of_vacant (hVacant : Vacant upstream part) : Backed upstream part content :=
  fun _ _ => Or.inl hVacant

theorem backed_of_not_marked (h : ∀ x, ¬ Marked upstream.length content x) :
    Backed upstream part content :=
  fun x hMarked => absurd hMarked (h x)

/-- With no mark in any content of the bitmap there is nothing to back. -/
theorem backed_of_not_any {manifest : DurableFile Char}
    (hNone : manifest.survivors.any hasDone = false) :
    ∀ m ∈ manifest.survivors, Backed upstream part m := by
  intro m hm
  refine backed_of_not_marked fun x hMarked => ?_
  rw [List.any_eq_false] at hNone
  exact hNone m hm (hasDone_of_marked hMarked)

/-! ## What chunk writes keep -/

/-- A part that only came closer to the file. -/
structure Keeps (upstream : List UInt8) (part part' : DurableFile UInt8) : Prop where
  full : Full upstream part'
  honest : ∀ x, Honest upstream part x → Honest upstream part' x
  byte : ∀ (l l' : List UInt8) (x : Nat), part.now = some l → part'.now = some l' → l[x]? = upstream[x]? →
    l'[x]? = upstream[x]?

theorem keeps_refl (hFull : Full upstream part) : Keeps upstream part part where
  full := hFull
  honest := fun _ h => h
  byte := by
    intro l l' x hNow hNow' hByte
    obtain rfl := Option.some.inj (hNow.symm.trans hNow')
    exact hByte

theorem keeps_sync (hFull : Full upstream part) : Keeps upstream part part.sync where
  full := hFull
  honest := by
    intro x hHonest l hl
    rw [survivors_sync, List.mem_singleton] at hl
    exact hHonest l (hl ▸ now_mem part)
  byte := (keeps_refl hFull).byte

/-- After the fsync the part is honest where what is read is right. -/
theorem honest_sync (h : ∀ l, part.now = some l → l[x]? = upstream[x]?) :
    Honest upstream part.sync x := by
  intro l hl
  rw [survivors_sync, List.mem_singleton] at hl
  exact Or.inr (h l hl.symm)

variable {offset : Nat} {data l : List UInt8}

/-- What a chunk writes is the file's. -/
theorem byte_writeAt (hLength : l.length = upstream.length)
    (hFits : offset + data.length ≤ upstream.length)
    (hData : ∀ k < data.length, data[k]? = upstream[offset + k]?) :
    (offset ≤ x ∧ x < offset + data.length) ∨ l[x]? = upstream[x]? →
      (writeAt 0 offset data l)[x]? = upstream[x]? := by
  rw [getElem?_writeAt (by omega)]
  split
  case isTrue hIn =>
    intro _
    rw [hData _ (by omega)]
    congr 1
    omega
  case isFalse hOut =>
    rintro (hIn | hByte)
    · exact absurd hIn hOut
    · exact hByte

theorem keeps_write (hNow : part.now = some l) (hLength : l.length = upstream.length)
    (hFits : offset + data.length ≤ upstream.length)
    (hData : ∀ k < data.length, data[k]? = upstream[offset + k]?) :
    Keeps upstream part (part.put (some (writeAt 0 offset data l))) where
  full := ⟨_, rfl, by rw [length_writeAt (by omega), hLength]⟩
  honest := by
    intro x hHonest m hm
    rw [survivors_put, List.mem_cons, Option.some.injEq] at hm
    rcases hm with rfl | hm
    · rcases Nat.lt_or_ge x upstream.length with hx | hx
      · right
        exact byte_writeAt hLength hFits hData
          (Or.inr (Full.byte ⟨l, hNow, hLength⟩ hHonest hx hNow))
      · left
        rw [List.getElem?_eq_none_iff, length_writeAt (by omega)]
        omega
    · exact hHonest m hm
  byte := by
    intro m m' x hm hm' hByte
    obtain rfl := Option.some.inj (hNow.symm.trans hm)
    obtain rfl := Option.some.inj hm'
    exact byte_writeAt hLength hFits hData (Or.inr hByte)

theorem backed_of_keeps (hFull : Full upstream part) (hKeeps : Keeps upstream part part')
    (hBacked : Backed upstream part content) : Backed upstream part' content :=
  fun x hMarked => Or.inr (hKeeps.honest x (hFull.honest (hBacked x hMarked)))

/-! ## What an attempt knows -/

/-- The data of the chunk is written. -/
def ChunkStage.complete : ChunkStage → Bool
  | .syncing | .completing | .marking => true
  | _ => false

/-- The data of the chunk is on disk. -/
def ChunkStage.durable : ChunkStage → Bool
  | .completing | .marking => true
  | _ => false

theorem complete_of_durable {stage : ChunkStage} (h : stage.durable = true) :
    stage.complete = true := by
  cases stage
  case completing => rfl
  case marking => rfl
  all_goals cases h

structure TaskOk (upstream : List UInt8) (part : DurableFile UInt8) (chunkSize : Nat)
    (t : ChunkTask) : Prop where
  index : t.index < chunkCount upstream.length chunkSize
  order : t.written ≤ t.received
  limit : t.received ≤ chunkLimit t.index chunkSize upstream.length
  buf : t.buf = (upstream.drop t.written).take (t.received - t.written)
  bytes : ∀ l, part.now = some l → ∀ x, t.index * chunkSize ≤ x → x < t.written →
    l[x]? = upstream[x]?
  complete : t.stage.complete = true → t.written = chunkLimit t.index chunkSize upstream.length
  durable : t.stage.durable = true → ∀ x, InChunk t.index chunkSize upstream.length x →
    Honest upstream part x

/-- What holds while chunks stream. -/
structure FetchOk (upstream : List UInt8) (part : DurableFile UInt8)
    (manifest : DurableFile Char) (chunkSize : Nat) (leftover : Bool) (done : List Bool)
    (todo : List Nat) (active : List ChunkTask) : Prop where
  full : Full upstream part
  loads : ∃ bytes marks, manifest.now = some bytes ∧
    load upstream.length chunkSize (chunkCount upstream.length chunkSize) bytes = some marks
  marks : ∀ x, Marked upstream.length manifest.now x → Honest upstream part x
  backs : ∀ i x : Nat, done[i]? = some true → InChunk i chunkSize upstream.length x →
    Honest upstream part x
  length : done.length = chunkCount upstream.length chunkSize
  covers : ∀ i < chunkCount upstream.length chunkSize,
    done[i]? = some true ∨ i ∈ todo ∨ ∃ t ∈ active, t.index = i
  pending : ∀ i ∈ todo, i < chunkCount upstream.length chunkSize
  tasks : ∀ t ∈ active, TaskOk upstream part chunkSize t
  fresh : leftover = true → ∀ i : Nat, done[i]? ≠ some true

/-- What holds in a phase. -/
def PhaseOk (upstream : List UInt8) (w : World) (a : Attempt) : Phase → Prop
  | .opening | .sizing => a.leftover = false
  | .loading => Full upstream w.part ∧ (a.leftover = true → a.unbacked = true)
  | .truncating => Full upstream w.part
  | .initialising left => Full upstream w.part ∧ ∃ bytes, w.manifest.now = some bytes ∧
      bytes ++ left = initContent upstream.length a.chunkSize
        (chunkCount upstream.length a.chunkSize)
  | .syncingInit => Full upstream w.part ∧ w.manifest.now = some (initContent upstream.length
      a.chunkSize (chunkCount upstream.length a.chunkSize))
  | .fetching done todo active =>
      FetchOk upstream w.part w.manifest a.chunkSize a.leftover done todo active
  | .assembled | .verifying | .publishing => a.leftover = false ∧ w.part.now = some upstream
  | .cleaning => a.leftover = false ∧ w.dest = some upstream
  | .removingPart | .removingManifest => a.leftover = false
  | .failed => True

structure Inv (upstream : List UInt8) (w : World) : Prop where
  backed : w.leftover = false → ∀ m ∈ w.manifest.survivors, Backed upstream w.part m
  attempt : ∀ a, w.attempt = some a → 0 < a.chunkSize ∧ PhaseOk upstream w a a.phase
  returned : ∀ c ∈ w.returned, c = some upstream

/-! ## Tasks -/

variable {t t' : ChunkTask} {manifest : DurableFile Char} {leftover : Bool}
  {done : List Bool} {todo : List Nat} {active : List ChunkTask}

theorem TaskOk.keeps (hOk : TaskOk upstream part chunkSize t) (hFull : Full upstream part)
    (hKeeps : Keeps upstream part part') : TaskOk upstream part' chunkSize t where
  index := hOk.index
  order := hOk.order
  limit := hOk.limit
  buf := hOk.buf
  bytes := by
    intro l' hNow' x hStart hWritten
    obtain ⟨l, hNow, -⟩ := hFull
    exact hKeeps.byte l l' x hNow hNow' (hOk.bytes l hNow x hStart hWritten)
  complete := hOk.complete
  durable := fun hDurable x hIn => hKeeps.honest x (hOk.durable hDurable x hIn)

theorem FetchOk.keeps (hOk : FetchOk upstream part manifest chunkSize leftover done todo active)
    (hKeeps : Keeps upstream part part') :
    FetchOk upstream part' manifest chunkSize leftover done todo active where
  full := hKeeps.full
  loads := hOk.loads
  marks := fun x hMarked => hKeeps.honest x (hOk.marks x hMarked)
  backs := fun i x hDone hIn => hKeeps.honest x (hOk.backs i x hDone hIn)
  length := hOk.length
  covers := hOk.covers
  pending := hOk.pending
  tasks := fun t ht => (hOk.tasks t ht).keeps hOk.full hKeeps
  fresh := hOk.fresh

/-- A chunk in flight moves on. -/
theorem FetchOk.setTask {i : Nat}
    (hOk : FetchOk upstream part manifest chunkSize leftover done todo active)
    (hTask : active[i]? = some t) (hIndex : t'.index = t.index)
    (hNew : TaskOk upstream part chunkSize t') :
    FetchOk upstream part manifest chunkSize leftover done todo (active.set i t') where
  full := hOk.full
  loads := hOk.loads
  marks := hOk.marks
  backs := hOk.backs
  length := hOk.length
  covers := by
    intro j hj
    rcases hOk.covers j hj with hDone | hTodo | ⟨s, hs, hsIndex⟩
    · exact Or.inl hDone
    · exact Or.inr (Or.inl hTodo)
    · right
      right
      obtain ⟨k, hk⟩ := List.mem_iff_getElem?.mp hs
      rcases eq_or_ne i k with rfl | hNe
      · obtain rfl := Option.some.inj (hTask.symm.trans hk)
        obtain ⟨hLt, -⟩ := List.getElem?_eq_some_iff.mp hTask
        exact ⟨t', List.mem_set hLt t', hIndex.trans hsIndex⟩
      · refine ⟨s, List.mem_of_getElem? (i := k) ?_, hsIndex⟩
        rw [List.getElem?_set_ne hNe, hk]
  pending := hOk.pending
  tasks := by
    intro s hs
    rcases List.mem_or_eq_of_mem_set hs with hOld | rfl
    · exact hOk.tasks s hOld
    · exact hNew
  fresh := hOk.fresh

theorem mem_eraseIdx_of_index {i : Nat} {s : ChunkTask} (hTask : active[i]? = some t)
    (hs : s ∈ active) (hNe : t.index ≠ s.index) : s ∈ active.eraseIdx i := by
  obtain ⟨k, hk⟩ := List.mem_iff_getElem?.mp hs
  refine List.mem_eraseIdx_iff_getElem?.mpr ⟨k, ?_, hk⟩
  rintro rfl
  rw [hTask] at hk
  exact hNe (by rw [Option.some.inj hk])

/-- A chunk in flight is complete, and the bitmap says so. -/
theorem FetchOk.complete {i : Nat}
    (hOk : FetchOk upstream part manifest chunkSize leftover done todo active)
    (hTask : active[i]? = some t) (hDurable : t.stage.durable = true) :
    FetchOk upstream part manifest.sync chunkSize false (done.set t.index true) todo
      (active.eraseIdx i) where
  full := hOk.full
  loads := hOk.loads
  marks := hOk.marks
  backs := by
    intro j x hDone hIn
    rcases eq_or_ne t.index j with rfl | hNe
    · exact (hOk.tasks t (List.mem_of_getElem? hTask)).durable hDurable x hIn
    · rw [List.getElem?_set_ne hNe] at hDone
      exact hOk.backs j x hDone hIn
  length := by rw [List.length_set, hOk.length]
  covers := by
    intro j hj
    rcases eq_or_ne t.index j with rfl | hNe
    · left
      rw [List.getElem?_set_self (by rw [hOk.length]; exact hj)]
    rw [List.getElem?_set_ne hNe]
    rcases hOk.covers j hj with hDone | hTodo | ⟨s, hs, hsIndex⟩
    · exact Or.inl hDone
    · exact Or.inr (Or.inl hTodo)
    · exact Or.inr (Or.inr ⟨s, mem_eraseIdx_of_index hTask hs (hsIndex ▸ hNe), hsIndex⟩)
  pending := hOk.pending
  tasks := fun s hs => hOk.tasks s (List.mem_of_mem_eraseIdx hs)
  fresh := by
    intro hTrue
    cases hTrue

theorem receive_ok {n : Nat} (hSize : 0 < chunkSize) (hOk : TaskOk upstream part chunkSize t)
    (hNew : t' ∈ t.receive upstream (chunkLimit t.index chunkSize upstream.length) n) :
    t'.index = t.index ∧ TaskOk upstream part chunkSize t' := by
  unfold ChunkTask.receive at hNew
  split at hNew
  case isTrue => cases hNew
  case isFalse hFits =>
    obtain rfl := Option.some.inj hNew
    have hLimit := chunkLimit_le ((lt_chunkCount hSize).mp hOk.index)
    have hOrder := hOk.order
    refine ⟨rfl, hOk.index, by dsimp only; omega, by dsimp only; omega, ?_, hOk.bytes, ?_, ?_⟩
    · dsimp only
      have hStart : t.received = t.written + (t.received - t.written) := by omega
      have hLength : t.received + n - t.written = t.received - t.written + n := by omega
      rw [hOk.buf, hLength, List.take_add, List.drop_drop, ← hStart]
    · dsimp only
      split <;> intro hComplete <;> cases hComplete
    · dsimp only
      split <;> intro hDurable <;> cases hDurable

theorem flushed_ok {ended : Bool} (hOk : TaskOk upstream part chunkSize t)
    (hNew : t' ∈ t.flushed (chunkLimit t.index chunkSize upstream.length) ended) :
    t'.index = t.index ∧ TaskOk upstream part chunkSize t' := by
  unfold ChunkTask.flushed at hNew
  split at hNew
  case isTrue =>
    split at hNew
    case isTrue hAll =>
      obtain rfl := Option.some.inj hNew
      exact ⟨rfl, hOk.index, hOk.order, hOk.limit, hOk.buf, hOk.bytes, fun _ => hAll,
        fun hDurable => by cases hDurable⟩
    case isFalse => cases hNew
  case isFalse =>
    obtain rfl := Option.some.inj hNew
    exact ⟨rfl, hOk.index, hOk.order, hOk.limit, hOk.buf, hOk.bytes,
      (fun hComplete => by cases hComplete), (fun hDurable => by cases hDurable)⟩

/-- What stands in the buffer is the file's. -/
theorem buf_get (hOk : TaskOk upstream part chunkSize t) {k : Nat} (hk : k < t.buf.length) :
    t.buf[k]? = upstream[t.written + k]? := by
  rw [hOk.buf] at hk ⊢
  rw [List.length_take] at hk
  rw [List.getElem?_take_of_lt (by omega), List.getElem?_drop]

theorem buf_length (hSize : 0 < chunkSize) (hOk : TaskOk upstream part chunkSize t) :
    t.buf.length = t.received - t.written := by
  have hLimit := chunkLimit_le ((lt_chunkCount hSize).mp hOk.index)
  have hReceived := hOk.limit
  rw [hOk.buf, List.length_take, List.length_drop]
  omega

/-- A positioned write of the buffer. -/
theorem write_ok {n : Nat} (hSize : 0 < chunkSize) (hOk : TaskOk upstream part chunkSize t)
    (hFull : Full upstream part) (hNow : part.now = some l) (hn : n ≤ t.buf.length)
    (hStage : t.stage.complete = false) :
    Keeps upstream part (part.put (some (writeAt 0 t.written (t.buf.take n) l))) ∧
      TaskOk upstream (part.put (some (writeAt 0 t.written (t.buf.take n) l))) chunkSize
        { t with written := t.written + n, buf := t.buf.drop n } := by
  have hLimit := chunkLimit_le ((lt_chunkCount hSize).mp hOk.index)
  have hReceived := hOk.limit
  have hOrder := hOk.order
  have hBuf := buf_length hSize hOk
  have hTake : (t.buf.take n).length = n := List.length_take_of_le hn
  obtain ⟨l', hNow', hLength⟩ := hFull
  obtain rfl := Option.some.inj (hNow.symm.trans hNow')
  have hFits : t.written + (t.buf.take n).length ≤ upstream.length := by omega
  have hData : ∀ k < (t.buf.take n).length, (t.buf.take n)[k]? = upstream[t.written + k]? := by
    intro k hk
    rw [List.getElem?_take_of_lt (by omega)]
    exact buf_get hOk (by omega)
  refine ⟨keeps_write hNow hLength hFits hData,
    ⟨hOk.index, by dsimp only; omega, hReceived, ?_, ?_, ?_, ?_⟩⟩
  · dsimp only
    rw [hOk.buf, List.drop_take, List.drop_drop]
    congr 1
    omega
  · intro m hm x hStart hWritten
    obtain rfl := Option.some.inj hm
    apply byte_writeAt hLength hFits hData
    rcases Nat.lt_or_ge x t.written with hBefore | hAfter
    · exact Or.inr (hOk.bytes l hNow x hStart hBefore)
    · dsimp only at hWritten
      exact Or.inl ⟨hAfter, by omega⟩
  · dsimp only
    rw [hStage]
    intro hFalse
    cases hFalse
  · dsimp only
    intro hDurable
    rw [complete_of_durable hDurable] at hStage
    cases hStage

/-- After the fsync of the data the chunk is on disk. -/
theorem sync_ok (hOk : TaskOk upstream part chunkSize t) (hStage : t.stage = .syncing) :
    TaskOk upstream part.sync chunkSize { t with stage := .completing } where
  index := hOk.index
  order := hOk.order
  limit := hOk.limit
  buf := hOk.buf
  bytes := hOk.bytes
  complete := fun _ => hOk.complete (by rw [hStage]; rfl)
  durable := by
    intro _ x hIn
    refine honest_sync fun l hNow => hOk.bytes l hNow x hIn.1 ?_
    rw [hOk.complete (by rw [hStage]; rfl)]
    exact hIn.2

end ScreenSearch.Download
