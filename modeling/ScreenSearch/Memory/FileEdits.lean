import ScreenSearch.Memory.Files

/-!
# User edits survive

The writer replaces an existing file only when it is the one an earlier write of
the same source has left there. What it may expect to find is told by the
ownership table, and every row of that table goes back to a write that succeeded
or to the recovery of one, which the history shows. `Faithful` says so of each
moment; `user_edits_kept` says it of every run of any number of deliveries.

Main results:

* `fileDelivery_triple` — one delivery among whatever the others do;
* `user_edits_kept` — every run, and what becomes of a delivery that is refused.
-/

namespace ScreenSearch.Memory.Files

open Process (Moment Always)
open Store Threads

abbrev Past := List (Moment Tables Event)

/-- The disk as the past leaves it. -/
def diskAt (tables : Tables) (past : Past) : Disk :=
  ((past.head?.map Moment.store).getD tables).disk

def Did (who : Nat) (deed : Deed) (past : Past) : Prop :=
  ∃ m ∈ past, m.event = some { who := some who, deed := deed }

/-- The hash stands in the ownership table, or was put there. -/
def Recorded (tables : Tables) (past : Past) (path source hash : String) : Prop :=
  (∃ row ∈ tables.reportFiles, normalizePath row.path = path ∧ row.payload.sourceId = source ∧
      row.payload.hash = hash) ∨
    ∃ who, Did who (.recorded path source hash) past

/-- The delivery has written the file, or found it as its interrupted attempt was about
to write it. -/
def Earned (who : Nat) (path source hash : String) (past : Past) : Prop :=
  Did who (.written path source hash) past ∨
    ∃ item : ReportDelivery, item.hash = some hash ∧ Did who (.adopted path source item) past

/-- The delivery has found a file that is not its own. -/
def Refused (who : Nat) (past : Past) : Prop :=
  (∃ path source expected, Did who (.left path source expected) past) ∨
    ∃ path source, Did who (.foreign path source) past

/-- What each deed leaves behind, and what stands behind it. -/
def Faithful (digest : Bytes → String) (tables : Tables) (m : Moment Tables Event)
    (past : Past) : Prop :=
  match m.event with
  | some ⟨none, .edited path bytes⟩ =>
    m.store.disk = Function.update (diskAt tables past) path bytes
  | some ⟨some _, .replaced path source after⟩ =>
    m.store.disk = Function.update (diskAt tables past) path after ∧
      ∀ bytes, diskAt tables past path = some bytes →
        Recorded tables past path source (digest bytes)
  | some ⟨some _, .written path _ hash⟩ =>
    m.store.disk = diskAt tables past ∧ (m.store.disk path).map digest = some hash
  | some ⟨some _, .left path _ expected⟩ =>
    m.store.disk = diskAt tables past ∧
      ∃ bytes, diskAt tables past path = some bytes ∧ expected ≠ some (digest bytes)
  | some ⟨some _, .foreign _ _⟩ => m.store.disk = diskAt tables past
  | some ⟨some _, .adopted path _ item⟩ =>
    m.store.disk = diskAt tables past ∧ 0 < item.attempt ∧ item.hash.isSome ∧
      (m.store.disk path).map digest = item.hash
  | some ⟨some who, .recorded path source hash⟩ =>
    m.store.disk = diskAt tables past ∧ Earned who path source hash past
  | some ⟨some who, .settled item⟩ =>
    m.store.disk = diskAt tables past ∧ m.store.db.deliveryAt item.id = some item ∧
      (Refused who past → item.state = .conflict)
  | _ => False

/-! ## Facts that last -/

/-- A fact about the past that later moments do not change. -/
def Lasting (F : Past → Prop) : Prop := ∀ moments past, F past → F (moments ++ past)

theorem did_lasting (who : Nat) (deed : Deed) : Lasting (Did who deed) := by
  rintro moments past ⟨m, hm, hEvent⟩
  exact ⟨m, List.mem_append_right _ hm, hEvent⟩

theorem recorded_lasting (tables : Tables) (path source hash : String) :
    Lasting fun past => Recorded tables past path source hash := by
  rintro moments past (hRow | ⟨who, hDid⟩)
  · exact Or.inl hRow
  · exact Or.inr ⟨who, did_lasting _ _ moments past hDid⟩

theorem earned_lasting (who : Nat) (path source hash : String) :
    Lasting (Earned who path source hash) := by
  rintro moments past (hWritten | ⟨item, hHash, hAdopted⟩)
  · exact Or.inl (did_lasting _ _ moments past hWritten)
  · exact Or.inr ⟨item, hHash, did_lasting _ _ moments past hAdopted⟩

theorem Lasting.and {F G : Past → Prop} (hF : Lasting F) (hG : Lasting G) :
    Lasting fun past => F past ∧ G past :=
  fun moments past h => ⟨hF moments past h.1, hG moments past h.2⟩

theorem Lasting.const (p : Prop) : Lasting fun _ => p := fun _ _ h => h

theorem Lasting.imp {p : Prop} {F : Past → Prop} (hF : Lasting F) : Lasting fun past => p → F past :=
  fun moments past h hp => hF moments past (h hp)

/-! ## The discipline -/

variable {digest : Bytes → String} {tables : Tables}

/-- What holds of the world once `n` deliveries were started. -/
structure Sound (digest : Bytes → String) (tables : Tables) (n : Nat) (w : World) : Prop where
  faithful : Always (Faithful digest tables) w.history
  disk : w.disk = diskAt tables w.history
  rows : ∀ row ∈ w.reportFiles, Recorded tables w.history (normalizePath row.path)
    row.payload.sourceId row.payload.hash
  early : ∀ m ∈ w.history, ∀ who deed, m.event = some { who := some who, deed := deed } → who < n

/-- Everyone only adds to the history, and under its own name. -/
def discipline (digest : Bytes → String) (tables : Tables) : Discipline World where
  holds := Sound digest tables
  may mover w w' := ∃ moments, w'.history = moments ++ w.history ∧
    ∀ m ∈ moments, ∃ deed, m.event = some { who := mover, deed := deed }

variable {who n : Nat} {c : Prop} {F : Past → Prop} {w : World}

/-- What a delivery knows between two operations: if it was refused then `c`, and a
fact that lasts. -/
structure Known (who : Nat) (c : Prop) (F : Past → Prop) (w : World) : Prop where
  refused : Refused who w.history → c
  fact : F w.history

/-- The deeds of others do not refuse a delivery. -/
theorem Refused.of_append (moments : Past) {past : Past} (h : Refused who (moments ++ past))
    (hOthers : ∀ m ∈ moments, ∀ deed, m.event = some { who := some who, deed := deed } →
      (∀ path source expected, deed ≠ .left path source expected) ∧
        ∀ path source, deed ≠ .foreign path source) : Refused who past := by
  rcases h with ⟨path, source, expected, m, hm, hEvent⟩ | ⟨path, source, m, hm, hEvent⟩
  · rcases List.mem_append.mp hm with hNew | hOld
    · exact absurd rfl ((hOthers m hNew _ hEvent).1 path source expected)
    · exact Or.inl ⟨path, source, expected, m, hOld, hEvent⟩
  · rcases List.mem_append.mp hm with hNew | hOld
    · exact absurd rfl ((hOthers m hNew _ hEvent).2 path source)
    · exact Or.inr ⟨path, source, m, hOld, hEvent⟩

theorem known_stable (hF : Lasting F) :
    (discipline digest tables).Stable who (Known who c F) := by
  rintro mover hMover w w' ⟨moments, hHistory, hNames⟩ hKnown
  refine ⟨fun hRefused => hKnown.refused ?_, ?_⟩
  · rw [hHistory] at hRefused
    refine Refused.of_append moments hRefused fun m hm deed hEvent => ?_
    obtain ⟨deed', hEvent'⟩ := hNames m hm
    rw [hEvent] at hEvent'
    obtain rfl : some who = mover := congrArg Event.who (Option.some.inj hEvent')
    exact absurd rfl hMover
  · rw [hHistory]
    exact hF moments _ hKnown.fact

/-! ## Operations -/

/-- A deed of a delivery, or of the user: its moment is faithful and the ownership table
holds nothing that is not recorded. -/
theorem Sound.moment (h : Sound digest tables n w) {w' : World} {mover : Option Nat} {deed : Deed}
    (hHistory : w'.history = w.history) (hMover : ∀ who, mover = some who → who < n)
    (hFaithful : Faithful digest tables
      { store := w'.toTables, event := some { who := mover, deed := deed } } w.history)
    (hRows : ∀ row ∈ w'.reportFiles, row ∈ w.reportFiles ∨
      Recorded tables (w'.announce mover deed).history (normalizePath row.path)
        row.payload.sourceId row.payload.hash) :
    Sound digest tables n (w'.announce mover deed) where
  faithful := by
    show Always _ (_ :: w'.history)
    rw [hHistory]
    exact .cons hFaithful h.faithful
  disk := rfl
  rows row hRow := by
    rcases hRows row hRow with hOld | hNew
    · show Recorded tables ([_] ++ w'.history) _ _ _
      rw [hHistory]
      exact recorded_lasting _ _ _ _ [_] _ (h.rows row hOld)
    · exact hNew
  early m hm other deed' hEvent := by
    rcases List.mem_cons.mp hm with rfl | hOld
    · cases hEvent
      exact hMover other rfl
    · rw [hHistory] at hOld
      exact h.early m hOld other deed' hEvent

/-- A deed that leaves the disk and the ownership table alone. -/
theorem Sound.announce (h : Sound digest tables n w) (hWho : who < n) {deed : Deed}
    (hFaithful : Faithful digest tables
      { store := w.toTables, event := some { who := some who, deed := deed } } w.history) :
    Sound digest tables n (w.announce (some who) deed) :=
  h.moment rfl (fun _ hSome => Option.some.inj hSome ▸ hWho) hFaithful fun _ => Or.inl

theorem may_announce {w' : World} (digest : Bytes → String) (tables : Tables) (who : Option Nat)
    (deed : Deed) (h : w'.history = w.history) :
    (discipline digest tables).may who w (w'.announce who deed) :=
  ⟨[_], congrArg _ h, fun m hm => ⟨deed, by rw [List.mem_singleton.mp hm]⟩⟩

/-- A delivery that is updated stands in the table as it was written. -/
theorem updateReportDelivery_at {db db' : MemoryDb} {item : ReportDelivery}
    {expected : ReportDeliveryState} (h : updateReportDelivery item expected db = .ok (true, db')) :
    db'.deliveryAt item.id = some item := by
  rcases updateReportDelivery_cases h with ⟨hFalse, -⟩ | ⟨-, old, hOld, -, -, -, rfl⟩
  · cases hFalse
  · unfold MemoryDb.deliveryAt MemoryDb.setDelivery at *
    clear h
    dsimp only
    generalize db.deliveries = deliveries at hOld ⊢
    induction deliveries with
    | nil => cases hOld
    | cons d deliveries ih =>
      rw [List.map_cons, List.find?_cons]
      by_cases hId : d.id = item.id
      · simp [hId]
      · rw [List.find?_cons] at hOld
        have hNe : (d.id == item.id) = false := by simpa using hId
        rw [hNe] at hOld
        rw [if_neg hId, hNe]
        exact ih hOld

theorem Sound.db (h : Sound digest tables n w) (db : MemoryDb) :
    Sound digest tables n { w with db := db } := ⟨h.faithful, h.disk, h.rows, h.early⟩

/-- A deed of one's own that is no refusal. -/
theorem Known.announce (h : Known who c F w) (hF : Lasting F) (deed : Deed)
    (hLeft : ∀ path source expected, deed ≠ .left path source expected)
    (hForeign : ∀ path source, deed ≠ .foreign path source) :
    Known who c (fun past => F past ∧ Did who deed past) (w.announce (some who) deed) where
  refused hRefused := by
    refine h.refused (Refused.of_append [_] hRefused fun m hm deed' hEvent => ?_)
    rw [List.mem_singleton.mp hm] at hEvent
    cases hEvent
    exact ⟨hLeft, hForeign⟩
  fact := ⟨hF [_] _ h.fact, _, List.mem_cons_self .., rfl⟩

section

variable {α : Type}

abbrev FileTriple (digest : Bytes → String) (tables : Tables) (who : Nat)
    (P : World → Prop) (x : FileThread α) (Q : α → World → Prop) : Prop :=
  Triple (discipline digest tables) who Q P x

/-- An operation that at most changes runs and deliveries. -/
theorem quiet_triple {op : Nat → Input → World → Except ReportError (α × World)} (hF : Lasting F)
    (hOp : ∀ who input w a w', op who input w = .ok (a, w') → ∃ db, w' = { w with db := db }) :
    FileTriple digest tables who (Known who c F) (Thread.atomically op) fun _ => Known who c F := by
  refine Triple.atomically (fun _ => known_stable hF) fun n input w a w' hWho hSound hKnown hRun => ?_
  obtain ⟨db, rfl⟩ := hOp who input w a w' hRun
  exact ⟨hSound.db db, ⟨[], rfl, by simp⟩, hKnown.refused, hKnown.fact⟩

theorem statement_triple {op : MemoryStatement α} (hF : Lasting F) :
    FileTriple digest tables who (Known who c F) (statement op) fun _ => Known who c F := by
  refine quiet_triple hF fun who input w a w' hRun => ?_
  split at hRun
  · rename_i a' db _
    cases hRun
    exact ⟨db, rfl⟩
  · cases hRun

theorem nowMs_triple (hF : Lasting F) :
    FileTriple digest tables who (Known who c F) nowMs fun _ => Known who c F :=
  quiet_triple hF fun _ _ w _ w' hRun => by
    cases hRun
    exact ⟨w.db, rfl⟩

theorem uuid_triple (hF : Lasting F) :
    FileTriple digest tables who (Known who c F) uuid fun _ => Known who c F :=
  quiet_triple hF fun _ _ w _ w' hRun => by
    cases hRun
    exact ⟨w.db, rfl⟩

theorem writeDelivery_triple {item : ReportDelivery} {expected : ReportDeliveryState}
    (hF : Lasting F) (hItem : c → item.state = .conflict) :
    FileTriple digest tables who (Known who c F) (writeDelivery item expected) fun updated =>
      Known who c fun past => F past ∧ (updated = true → Did who (.settled item) past) := by
  refine Triple.atomically (fun updated =>
    known_stable (hF.and (Lasting.imp (did_lasting who _)))) ?_
  intro n input w updated w' hWho hSound hKnown hRun
  split at hRun
  · rename_i db hUpdate
    cases hRun
    have hNow : Known who c F { w with db := db } := ⟨hKnown.refused, hKnown.fact⟩
    have hOwn := hNow.announce hF (.settled item) (by simp) (by simp)
    refine ⟨(hSound.db db).announce hWho ⟨hSound.disk, updateReportDelivery_at hUpdate,
      fun h => hItem (hKnown.refused h)⟩, may_announce digest tables (some who) (.settled item) rfl,
      hOwn.refused, hOwn.fact.1, fun _ => hOwn.fact.2⟩
  · rename_i db _
    cases hRun
    exact ⟨hSound.db db, ⟨[], rfl, by simp⟩, hKnown.refused, hKnown.fact, by simp⟩
  · cases hRun

/-- The owner of a file is one that was recorded; a foreign one refuses the delivery. -/
theorem ownershipOf_triple {path source : String} (hPath : normalizePath path = path) :
    FileTriple digest tables who (Known who False fun _ => True) (ownershipOf path source)
      fun ownership => Known who (isForeign source ownership = true) fun past =>
        ∀ owner, ownership = some owner → owner.sourceId = source →
          Recorded tables past path source owner.hash := by
  have hLasting : ∀ ownership : Option ReportFileOwnership, Lasting fun past =>
      ∀ owner, ownership = some owner → owner.sourceId = source →
        Recorded tables past path source owner.hash := by
    intro ownership moments past h owner hOwner hSource
    exact recorded_lasting _ _ _ _ moments past (h owner hOwner hSource)
  refine Triple.atomically (fun ownership => known_stable (hLasting ownership)) ?_
  intro n input w ownership w' hWho hSound hKnown hRun
  have hRecorded : ∀ owner, getReportFile path w.reportFiles = some owner →
      owner.sourceId = source → Recorded tables w.history path source owner.hash := by
    intro owner hOwner hSource
    obtain ⟨row, hRow, hRowPath, hRowSource, hRowHash⟩ := getReportFile_from hOwner
    have h := hSound.rows row hRow
    rw [hRowPath, hPath, hRowSource, hSource, hRowHash] at h
    exact h
  dsimp only at hRun
  split at hRun
  · rename_i hIsForeign
    cases hRun
    refine ⟨hSound.announce hWho hSound.disk, may_announce digest tables (some who) _ rfl,
      fun _ => hIsForeign, ?_⟩
    exact hLasting _ [_] _ hRecorded
  · cases hRun
    exact ⟨hSound, ⟨[], rfl, by simp⟩, fun h => (hKnown.refused h).elim, hRecorded⟩

/-- A row is only saved for a file that was written or adopted. -/
theorem saveOwnership_triple (ownership : ReportFileOwnership)
    (hPath : normalizePath ownership.path = ownership.path) (hF : Lasting F) :
    FileTriple digest tables who
      (Known who c fun past => F past ∧
        Earned who ownership.path ownership.sourceId ownership.hash past)
      (saveOwnership ownership) fun _ => Known who c F := by
  refine Triple.atomically (fun _ => known_stable hF) ?_
  intro n input w _ w' hWho hSound hKnown hRun
  cases hRun
  rw [hPath]
  have hNow : Known who c (fun past => F past ∧
      Earned who ownership.path ownership.sourceId ownership.hash past)
      { w with reportFiles := saveReportFile ownership w.reportFiles } :=
    ⟨hKnown.refused, hKnown.fact⟩
  have hOwn := hNow.announce (hF.and (earned_lasting _ _ _ _))
    (.recorded ownership.path ownership.sourceId ownership.hash) (by simp) (by simp)
  refine ⟨hSound.moment rfl (fun _ hSome => Option.some.inj hSome ▸ hWho)
    ⟨hSound.disk, hKnown.fact.2⟩ fun row hRow => ?_,
    may_announce digest tables (some who) _ rfl, hOwn.refused, hOwn.fact.1.1⟩
  rcases mem_saveReportFile hRow with hOld | ⟨hRowPath, hPayload⟩
  · exact Or.inl hOld
  · rw [hRowPath, hPayload, normalizePath_idem, hPath]
    exact Or.inr (Or.inr ⟨who, hOwn.fact.2⟩)

/-- Reading what an attempt was about to write adopts it. -/
theorem readOwned_triple {path source : String} {item : ReportDelivery}
    (hAttempt : 0 < item.attempt) (hHash : item.hash.isSome) (hF : Lasting F) :
    FileTriple digest tables who (Known who c F) (readOwned digest path source item) fun read =>
      Known who c fun past => F past ∧ ∀ bytes, read = .ok (some bytes) →
        some (digest bytes) = item.hash → Did who (.adopted path source item) past := by
  have hLasting : ∀ read : Except WriteFailure (Option Bytes), Lasting fun past =>
      ∀ bytes, read = .ok (some bytes) → some (digest bytes) = item.hash →
        Did who (.adopted path source item) past := by
    intro read moments past h bytes hRead hBytes
    exact did_lasting _ _ moments past (h bytes hRead hBytes)
  refine Triple.atomically (fun read => known_stable (hF.and (hLasting read))) ?_
  intro n input w read w' hWho hSound hKnown hRun
  split at hRun
  · cases hRun
    exact ⟨hSound, ⟨[], rfl, by simp⟩, hKnown.refused, hKnown.fact, by simp⟩
  · split at hRun
    · rename_i hMatch
      cases hRun
      have hOwn := hKnown.announce hF (.adopted path source item) (by simp) (by simp)
      refine ⟨hSound.announce hWho ⟨hSound.disk, hAttempt, hHash, ?_⟩,
        may_announce digest tables (some who) _ rfl, hOwn.refused, hOwn.fact.1, fun _ _ _ => hOwn.fact.2⟩
      obtain ⟨bytes, hBytes, hDigest⟩ := Option.any_eq_true _ _ |>.mp hMatch
      show (w.disk path).map digest = item.hash
      rw [hBytes, Option.map_some]
      exact eq_of_beq hDigest
    · rename_i hMatch
      cases hRun
      refine ⟨hSound, ⟨[], rfl, by simp⟩, hKnown.refused, hKnown.fact, fun bytes hRead hBytes => ?_⟩
      refine absurd ?_ hMatch
      rw [Except.ok.inj hRead, Option.any_some, hBytes, beq_self_eq_true]

/-! ## The writer -/

/-- The file at a path is none, or one that was recorded. -/
def Replaceable (digest : Bytes → String) (tables : Tables) (w : World) (path source : String) :
    Prop :=
  ∀ bytes, w.disk path = some bytes → Recorded tables w.history path source (digest bytes)

theorem Sound.put (h : Sound digest tables n w) (hWho : who < n) {path source : String}
    (hFile : Replaceable digest tables w path source) (after : Option Bytes) :
    Sound digest tables n (w.put who path source after) := by
  refine h.moment rfl (fun _ hSome => Option.some.inj hSome ▸ hWho) ⟨?_, ?_⟩ fun _ => Or.inl
  · show Function.update w.disk path after = _
    rw [h.disk]
  · rw [← h.disk]
    exact hFile

theorem may_put (digest : Bytes → String) (tables : Tables) (w : World) (who : Nat)
    (path source : String) (after : Option Bytes) :
    (discipline digest tables).may (some who) w (w.put who path source after) :=
  may_announce digest tables (some who) (.replaced path source after) rfl

/-- What is known after the writer: it has written, or it has failed, as a conflict if
it refused the delivery. -/
def afterWrite (who : Nat) (path source : String) (receipt : Except WriteFailure String) :
    World → Prop :=
  Known who (∃ failure : WriteFailure, receipt = .error failure ∧ failure.conflict = true)
    fun past => ∀ hash, receipt = .ok hash → Did who (.written path source hash) past

theorem afterWrite_stable (who : Nat) (path source : String) (receipt : Except WriteFailure String) :
    (discipline digest tables).Stable who (afterWrite who path source receipt) :=
  known_stable fun moments past h hash hReceipt =>
    did_lasting _ _ moments past (h hash hReceipt)

theorem replaceNote_keeps {path source content : String} {io : Option IoFault}
    (hSound : Sound digest tables n w) (hWho : who < n) (hKnown : Known who False F w)
    (hFile : Replaceable digest tables w path source) :
    Sound digest tables n (replaceNote digest path source content io who w).2 ∧
      (discipline digest tables).may (some who) w
        (replaceNote digest path source content io who w).2 ∧
      afterWrite who path source (replaceNote digest path source content io who w).1
        (replaceNote digest path source content io who w).2 := by
  have hPut : ∀ after, Sound digest tables n (w.put who path source after) :=
    fun after => hSound.put hWho hFile after
  have hNotRefused : ∀ after, ¬Refused who (w.put who path source after).history := by
    intro after hRefused
    refine hKnown.refused (Refused.of_append [_] hRefused fun m hm deed hEvent => ?_)
    rw [List.mem_singleton.mp hm] at hEvent
    cases hEvent
    exact ⟨by simp, by simp⟩
  have hFailed : ∀ after failure, Sound digest tables n (w.put who path source after) ∧
      (discipline digest tables).may (some who) w (w.put who path source after) ∧
      afterWrite who path source (.error failure) (w.put who path source after) :=
    fun after failure => ⟨hPut after, may_put digest tables w who path source after,
      fun h => absurd h (hNotRefused after), fun _ h => by cases h⟩
  unfold replaceNote
  split
  · exact hFailed none _
  · exact hFailed _ _
  · dsimp only
    set hash := digest (asBytes content)
    have hDisk : (w.put who path source (some (asBytes content))).disk path =
        some (asBytes content) := Function.update_self ..
    have hQuiet : Known who False (fun _ => True) (w.put who path source (some (asBytes content))) :=
      ⟨hNotRefused _, trivial⟩
    have hOwn := hQuiet.announce (Lasting.const True) (.written path source hash)
      (by simp) (by simp)
    refine ⟨(hPut _).announce hWho ⟨(hPut _).disk, ?_⟩, ?_, fun h => (hOwn.refused h).elim, ?_⟩
    · show Option.map digest ((w.put who path source (some (asBytes content))).disk path) = _
      rw [hDisk, Option.map_some]
    · exact ⟨[_, _], rfl, by simp⟩
    · intro hash' hReceipt
      cases hReceipt
      exact hOwn.fact.2

/-- The writer replaces nothing but what it may. -/
theorem writeOwned_triple {path source content : String} {expected : Option String} :
    FileTriple digest tables who
      (Known who False fun past =>
        ∀ hash, expected = some hash → Recorded tables past path source hash)
      (writeOwned digest path source content expected) (afterWrite who path source) := by
  refine Triple.atomically (afterWrite_stable who path source) ?_
  intro n input w receipt w' hWho hSound hKnown hRun
  have hRun := Except.ok.inj hRun
  split at hRun
  · cases hRun
    exact ⟨hSound, ⟨[], rfl, by simp⟩, fun h => (hKnown.refused h).elim, fun _ h => by cases h⟩
  · split at hRun
    · rename_i hNone
      rw [show receipt = _ from (congrArg Prod.fst hRun).symm,
        show w' = _ from (congrArg Prod.snd hRun).symm]
      exact replaceNote_keeps hSound hWho hKnown fun bytes hBytes => by rw [hNone] at hBytes; cases hBytes
    · rename_i bytes hBytes
      split at hRun
      · rename_i hMismatch
        cases hRun
        refine ⟨hSound.announce hWho ⟨hSound.disk, bytes, ?_, hMismatch⟩,
          may_announce digest tables (some who) _ rfl, fun _ => ⟨_, rfl, rfl⟩, fun _ h => by cases h⟩
        rw [← hSound.disk]
        exact hBytes
      · rename_i hExpected
        have hRecorded : Recorded tables w.history path source (digest bytes) :=
          hKnown.fact _ (not_not.mp hExpected)
        split at hRun
        · cases hRun
          have hOwn := hKnown.announce (fun moments past h hash hHash =>
            recorded_lasting _ _ _ _ moments past (h hash hHash))
            (.written path source (digest bytes)) (by simp) (by simp)
          refine ⟨hSound.announce hWho ⟨hSound.disk, ?_⟩,
            may_announce digest tables (some who) _ rfl, fun h => (hOwn.refused h).elim, ?_⟩
          · show (w.disk path).map digest = _
            rw [hBytes, Option.map_some]
          · intro hash hReceipt
            cases hReceipt
            exact hOwn.fact.2
        · rw [show receipt = _ from (congrArg Prod.fst hRun).symm,
            show w' = _ from (congrArg Prod.snd hRun).symm]
          refine replaceNote_keeps hSound hWho hKnown fun bytes' hBytes' => ?_
          rw [hBytes] at hBytes'
          obtain rfl := Option.some.inj hBytes'
          exact hRecorded

/-! ## A delivery -/

/-- A delivery that was refused ends as a conflict, and has written that down. -/
def Outcome (who : Nat) (item : ReportDelivery) (w : World) : Prop :=
  Refused who w.history → item.state = .conflict ∧ Did who (.settled item) w.history

theorem Known.mono {c' : Prop} {F' : Past → Prop} (h : Known who c F w) (hc : c → c')
    (hF : ∀ past, F past → F' past) : Known who c' F' w :=
  ⟨fun hRefused => hc (h.refused hRefused), hF _ h.fact⟩

theorem updateDelivery_triple {item : ReportDelivery} {expected : ReportDeliveryState}
    (hF : Lasting F) (hItem : c → item.state = .conflict) :
    FileTriple digest tables who (Known who c F) (updateDelivery item expected) fun item' =>
      Known who c fun past => F past ∧ item'.state = item.state ∧ Did who (.settled item') past := by
  unfold updateDelivery
  refine Triple.bind (nowMs_triple hF) fun now => ?_
  refine Triple.bind (writeDelivery_triple hF hItem) fun updated => ?_
  cases updated with
  | true =>
    refine Triple.pure fun w hKnown => hKnown.mono id fun past hFact => ?_
    exact ⟨hFact.1, rfl, hFact.2 rfl⟩
  | false => exact .fail

/-- The last update of a delivery. -/
theorem settle_triple {item : ReportDelivery} {expected : ReportDeliveryState} (hF : Lasting F)
    (hItem : c → item.state = .conflict) :
    FileTriple digest tables who (Known who c F) (updateDelivery item expected) (Outcome who) := by
  refine (updateDelivery_triple hF hItem).post fun item' w hKnown hRefused => ?_
  obtain ⟨-, hState, hSettled⟩ := hKnown.fact
  exact ⟨hState.trans (hItem (hKnown.refused hRefused)), hSettled⟩

theorem saveFile_triple {run : ReportRun} {path hash : String}
    (hPath : normalizePath path = path) (hF : Lasting F) :
    FileTriple digest tables who
      (Known who c fun past => F past ∧ Earned who path run.sourceId hash past)
      (saveFile run path hash) fun _ => Known who c F := by
  refine Triple.bind (nowMs_triple (hF.and (earned_lasting who path run.sourceId hash))) fun now => ?_
  exact saveOwnership_triple ⟨path, run.sourceId, run.runId, hash, now⟩ hPath hF

theorem failed_conflict {item : ReportDelivery} {failure : WriteFailure}
    (h : failure.conflict = true) : (failed item failure).state = .conflict := by
  unfold failed
  rw [if_pos h]

/-- The owner of a file, if it has one, is recorded. -/
def Owned (tables : Tables) (path source : String) (ownership : Option ReportFileOwnership)
    (past : Past) : Prop :=
  ∀ owner, ownership = some owner → Recorded tables past path source owner.hash

theorem owned_lasting (tables : Tables) (path source : String)
    (ownership : Option ReportFileOwnership) : Lasting (Owned tables path source ownership) :=
  fun moments past h owner hOwner => recorded_lasting _ _ _ _ moments past (h owner hOwner)

theorem writeNote_triple {run : ReportRun} {path content : String}
    {ownership : Option ReportFileOwnership} {item : ReportDelivery}
    (hPath : normalizePath path = path) :
    FileTriple digest tables who
      (Known who False (Owned tables path run.sourceId ownership)) (writeNote digest run path content ownership item)
      (Outcome who) := by
  unfold writeNote
  refine Triple.bind (updateDelivery_triple (owned_lasting tables path run.sourceId ownership)
    False.elim) fun item' => ?_
  refine Triple.bind (writeOwned_triple.pre fun w hKnown => hKnown.mono id ?_) fun receipt => ?_
  · intro past hFact hash hHash
    obtain ⟨owner, hOwner, rfl⟩ := Option.map_eq_some_iff.mp hHash
    exact hFact.1 owner hOwner
  · cases receipt with
    | ok hash =>
      have hWritten : ∀ w, afterWrite who path run.sourceId (.ok hash) w →
          Known who False (fun past => True ∧ Earned who path run.sourceId hash past) w := by
        intro w hKnown
        refine hKnown.mono (fun ⟨_, h, _⟩ => by cases h) fun past hFact => ?_
        exact ⟨trivial, Or.inl (hFact hash rfl)⟩
      refine Triple.bind ((saveFile_triple hPath (Lasting.const True)).pre hWritten) fun _ => ?_
      exact settle_triple (Lasting.const True) False.elim
    | error failure =>
      refine (settle_triple (c := failure.conflict = true) (Lasting.const True)
        fun h => failed_conflict h).pre fun w hKnown => hKnown.mono ?_ fun _ _ => trivial
      rintro ⟨failure', hError, hConflict⟩
      obtain rfl := Except.error.inj hError
      exact hConflict

/-- What recovery makes of an interrupted attempt: it is over, or nothing is known that
was not. -/
theorem recoverIntent_triple {run : ReportRun} {path : String} {item : ReportDelivery}
    (hPath : normalizePath path = path) (hF : Lasting F) :
    FileTriple digest tables who (Known who False F) (recoverIntent digest run path item)
      fun _ => Known who False F := by
  unfold recoverIntent
  split
  · rename_i hIntent
    refine Triple.bind (readOwned_triple hIntent.1 hIntent.2 hF) fun read => ?_
    cases read with
    | error failure =>
      refine Triple.bind ((updateDelivery_triple hF False.elim).pre fun w hKnown =>
        hKnown.mono id fun _ h => h.1) fun item' => ?_
      exact Triple.pure fun w hKnown => hKnown.mono id fun _ h => h.1
    | ok found =>
      cases found with
      | none => exact Triple.pure fun w hKnown => hKnown.mono id fun _ h => h.1
      | some bytes =>
        dsimp only
        split
        · rename_i hMatch
          have hAdopted : ∀ w, Known who False (fun past => F past ∧ ∀ bytes',
              (Except.ok (some bytes) : Except WriteFailure (Option Bytes)) = .ok (some bytes') →
                some (digest bytes') = item.hash →
                  Did who (.adopted path run.sourceId item) past) w →
              Known who False
                (fun past => F past ∧ Earned who path run.sourceId (digest bytes) past) w := by
            intro w hKnown
            refine hKnown.mono id fun past hFact => ⟨hFact.1, Or.inr ⟨item, hMatch.symm, ?_⟩⟩
            exact hFact.2 bytes rfl hMatch
          refine Triple.bind ((saveFile_triple hPath hF).pre hAdopted) fun _ => ?_
          refine Triple.bind (updateDelivery_triple hF False.elim) fun item' => ?_
          exact Triple.pure fun w hKnown => hKnown.mono id fun _ h => h.1
        · exact Triple.pure fun w hKnown => hKnown.mono id fun _ h => h.1
  · exact Triple.pure fun w hKnown => hKnown

theorem workOn_triple {run : ReportRun} {path content : String} {item : ReportDelivery}
    (hPath : normalizePath path = path) :
    FileTriple digest tables who (Known who False fun _ => True)
      (workOn digest run path content item) (Outcome who) := by
  unfold workOn
  refine Triple.bind (ownershipOf_triple hPath) fun ownership => ?_
  split
  · exact settle_triple (fun moments past h owner hOwner hSource =>
      recorded_lasting _ _ _ _ moments past (h owner hOwner hSource)) fun _ => rfl
  · rename_i hOwn
    have hOwned : ∀ w, Known who (isForeign run.sourceId ownership = true) (fun past =>
        ∀ owner, ownership = some owner → owner.sourceId = run.sourceId →
          Recorded tables past path run.sourceId owner.hash) w →
        Known who False (Owned tables path run.sourceId ownership) w := by
      intro w hKnown
      refine hKnown.mono hOwn fun past hFact owner hOwner => hFact owner hOwner ?_
      unfold isForeign at hOwn
      rw [hOwner, Option.any_some] at hOwn
      simpa using hOwn
    refine Triple.bind ((recoverIntent_triple hPath
      (owned_lasting tables path run.sourceId ownership)).pre hOwned) fun finished => ?_
    cases finished with
    | some item' => exact Triple.pure fun w hKnown hRefused => (hKnown.refused hRefused).elim
    | none => exact writeNote_triple hPath

/-- One delivery, whatever the others and the user do meanwhile. -/
theorem fileDelivery_triple {run : ReportRun} {path content : String}
    {destination : ReportDestination} (hPath : normalizePath path = path) :
    FileTriple digest tables who (Known who False fun _ => True)
      (fileDelivery digest run path content destination) (Outcome who) := by
  have hIntent : ∀ previous, FileTriple digest tables who (Known who False fun _ => True)
      (newIntent digest run path content destination previous)
      fun _ => Known who False fun _ => True := by
    intro previous
    unfold newIntent
    exact Triple.bind (nowMs_triple (Lasting.const True)) fun _ =>
      Triple.bind (uuid_triple (Lasting.const True)) fun _ => statement_triple (Lasting.const True)
  unfold fileDelivery
  refine Triple.bind (statement_triple (Lasting.const True)) fun existing => ?_
  split
  · split
    · exact Triple.pure fun w hKnown hRefused => (hKnown.refused hRefused).elim
    · split
      · exact Triple.bind (hIntent _) fun _ => workOn_triple hPath
      · exact workOn_triple hPath
  · exact Triple.bind (hIntent _) fun _ => workOn_triple hPath

end

/-! ## Runs -/

/-- A system within the discipline. -/
abbrev SafeSystem (digest : Bytes → String) (tables : Tables) (system : System) : Prop :=
  Pool.Safe (discipline digest tables) Outcome system

theorem start_safe (digest : Bytes → String) (tables : Tables) :
    SafeSystem digest tables (System.start tables) where
  holds := ⟨.nil, rfl, fun row hRow => Or.inl ⟨row, hRow, rfl, rfl, rfl⟩, by simp [System.start]⟩
  thread := by simp [System.start]

theorem act_safe {system : System} (h : SafeSystem digest tables system) (action : Action) :
    SafeSystem digest tables (act digest system action) := by
  cases action with
  | deliver run destination path content =>
    have hSound := h.holds
    refine h.spawn ⟨hSound.faithful, hSound.disk, hSound.rows, fun m hm who deed hEvent => ?_⟩
      ⟨Known _ False fun _ => True, known_stable (Lasting.const True), ⟨?_, trivial⟩,
        fileDelivery_triple (normalizePath_idem path)⟩
    · have := hSound.early m hm who deed hEvent
      omega
    · -- nobody of that name has done anything yet
      have hFresh : ∀ deed, ¬Did system.threads.length deed system.state.history := by
        rintro deed ⟨m, hm, hEvent⟩
        exact absurd (hSound.early m hm _ deed hEvent) (lt_irrefl _)
      rintro (⟨_, _, _, hDid⟩ | ⟨_, _, hDid⟩)
      · exact hFresh _ hDid
      · exact hFresh _ hDid
  | step who input => exact h.step who input
  | refuse who => exact h.refuse who storage
  | abandon who => exact h.abandon who cancelled
  | crash => exact h.stop cancelled
  | edit path bytes =>
    refine h.change (h.holds.moment rfl (by simp) ?_ fun _ => Or.inl)
      (may_announce digest tables none (.edited path bytes) rfl)
    show Function.update system.state.disk path bytes = _
    rw [h.holds.disk]
  | others change =>
    exact h.change (f := fun w => { w with db := change w.db }) (h.holds.db _) ⟨[], rfl, by simp⟩

theorem runActions_safe {system : System} (h : SafeSystem digest tables system)
    (actions : List Action) : SafeSystem digest tables (runActions digest system actions) := by
  unfold runActions
  induction actions generalizing system with
  | nil => exact h
  | cons action actions ih => exact ih (act_safe h action)

/-- User edits are never overwritten: whatever happens, in whatever order, a file is
replaced only when its hash is recorded for its path and source, by a write that
succeeded or a recovered one; a delivery that finds another file leaves it and ends as a
conflict. -/
theorem user_edits_kept (digest : Bytes → String) (tables : Tables) (actions : List Action) :
    let system := runActions digest (System.start tables) actions
    Always (Faithful digest tables) system.state.history ∧
      system.state.disk = diskAt tables system.state.history ∧
      ∀ who item, system.threads[who]? = some (.done item) →
        Refused who system.state.history →
          item.state = .conflict ∧ Did who (.settled item) system.state.history := by
  intro system
  have hSafe := runActions_safe (start_safe digest tables) actions
  exact ⟨hSafe.holds.faithful, hSafe.holds.disk, fun who item hDone => hSafe.result hDone⟩

end ScreenSearch.Memory.Files
