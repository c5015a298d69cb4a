import Mathlib.Logic.Function.Basic
import ScreenSearch.Store.Frames
import ScreenSearch.Store.Memory

/-!
# Who may touch the history's metadata

The identity of the history and the frame allocator are two rows of the settings table, next to
the rows that anybody may write. Writers take the database's lock before they read, so what a
connection does is done at once or, where a statement of it fails, not at all.

Main results:

* `HistoryOp.apply_reserved` — only an opening and an insertion touch the two rows;
* `frame_ids_increase` — ids only go up, the identity stays, and a broken pair is left alone.
-/

namespace ScreenSearch.Store

def historyIdKey : String := "api.history_id"
def frameIdHighWaterKey : String := "api.frame_id_high_water"

def isHistoryMetadataKey (key : String) : Bool :=
  key == historyIdKey || key == frameIdHighWaterKey

/-- A database file, with its settings by key. -/
structure HistoryFile where
  settings : String → Option String
  frames : List StoredFrame
  frameText : List FrameTextRow
  visionAnalysis : List VisionRow

namespace HistoryFile

def tables (file : HistoryFile) : FrameTables where
  historyId := file.settings historyIdKey
  frameIdHighWater := file.settings frameIdHighWaterKey
  frames := file.frames
  frameText := file.frameText
  visionAnalysis := file.visionAnalysis

/-- The file with the frame tables as they are now. -/
def withTables (file : HistoryFile) (db : FrameTables) : HistoryFile where
  settings key :=
    if key = historyIdKey then db.historyId
    else if key = frameIdHighWaterKey then db.frameIdHighWater
    else file.settings key
  frames := db.frames
  frameText := db.frameText
  visionAnalysis := db.visionAnalysis

/-- Both settings are there, and each says what it should. -/
def ValidPair (file : HistoryFile) : Prop :=
  ∃ id value highWater, file.settings historyIdKey = some id ∧ validHistoryId id = true ∧
    file.settings frameIdHighWaterKey = some value ∧ parseHighWater value = some highWater

/-- At least one of the settings is there. -/
def HasMetadata (file : HistoryFile) : Prop :=
  file.settings historyIdKey ≠ none ∨ file.settings frameIdHighWaterKey ≠ none

end HistoryFile

/-! ## Operations -/

/-- What a connection does; `fails` where a statement of it does. -/
inductive HistoryOp where
  /-- Opening ends with the setup; `uuid` is the text that SQLite's random numbers make. -/
  | openFile (uuid : String) (fails : Bool)
  | insertFrame (f : NewFrame) (fails : Bool)
  | deleteFrame (frameId : Int) (fails : Bool)
  | setSetting (key value : String) (fails : Bool)
  | setSettingsBatch (kvs : List (String × String)) (fails : Bool)
  | deleteSettings (keys : List String) (fails : Bool)

inductive HistoryReturn where
  | done
  | frame (id : Int)
  | deleted (keys : List String)
  deriving DecidableEq, Repr

def statementFailed : HistoryReadError := .storage "statement failed"

/-- Generic callers never own the history's metadata. -/
def rejectHistoryMetadata (keys : List String) : Except HistoryReadError Unit :=
  if keys.any isHistoryMetadataKey then
    .error (.storage "history identity and frame allocator are reserved internal metadata")
  else .ok ()

def upsertSetting (settings : String → Option String) (kv : String × String) :
    String → Option String :=
  Function.update settings kv.1 (some kv.2)

/-- One key after the other; those that had a row are returned. -/
def removeSettings : List String → (String → Option String) →
    List String × (String → Option String)
  | [], settings => ([], settings)
  | key :: keys, settings =>
    let (deleted, after) := removeSettings keys (Function.update settings key none)
    (if (settings key).isSome then key :: deleted else deleted, after)

/-- The value, and the file afterwards; an error leaves it as it is. -/
def HistoryOp.apply (file : HistoryFile) :
    HistoryOp → Except HistoryReadError (HistoryReturn × HistoryFile)
  | .openFile uuid fails =>
    if fails then .error statementFailed
    else .ok (.done, file.withTables (setupHistoryMetadata uuid file.tables))
  | .insertFrame f fails => do
    let (id, db) ← Store.insertFrame f file.tables
    if fails then .error statementFailed else pure (.frame id, file.withTables db)
  | .deleteFrame frameId fails =>
    if fails then .error statementFailed
    else .ok (.done, file.withTables (Store.deleteFrame frameId file.tables))
  | .setSetting key value fails => do
    rejectHistoryMetadata [key]
    if fails then .error statementFailed
    else pure (.done, { file with settings := upsertSetting file.settings (key, value) })
  | .setSettingsBatch kvs fails => do
    rejectHistoryMetadata (kvs.map Prod.fst)
    if fails then .error statementFailed
    else pure (.done, { file with settings := kvs.foldl upsertSetting file.settings })
  | .deleteSettings keys fails => do
    rejectHistoryMetadata keys
    if fails then .error statementFailed
    else
      let (deleted, settings) := removeSettings keys file.settings
      pure (.deleted deleted, { file with settings := settings })

/-- The file, and every id that was returned, newest first. -/
structure HistoryRun where
  file : HistoryFile
  returned : List Int

def HistoryReturn.id : HistoryReturn → List Int
  | .frame id => [id]
  | _ => []

def HistoryRun.step (s : HistoryRun) (op : HistoryOp) : HistoryRun :=
  match op.apply s.file with
  | .ok (value, file) => { file := file, returned := value.id ++ s.returned }
  | .error _ => s

def HistoryRun.run (s : HistoryRun) (ops : List HistoryOp) : HistoryRun := ops.foldl step s

/-! ## Reading the pair -/

namespace HistoryFile

variable {file file' : HistoryFile}

@[simp] theorem withTables_tables (file : HistoryFile) (db : FrameTables) :
    (file.withTables db).tables = db := rfl

@[simp] theorem withTables_historyId (file : HistoryFile) (db : FrameTables) :
    (file.withTables db).settings historyIdKey = db.historyId := rfl

@[simp] theorem withTables_highWater (file : HistoryFile) (db : FrameTables) :
    (file.withTables db).settings frameIdHighWaterKey = db.frameIdHighWater := rfl

/-- The allocator goes up to `n`. -/
def AllocatesTo (file : HistoryFile) (n : Nat) : Prop :=
  ∃ id value, file.settings historyIdKey = some id ∧ validHistoryId id = true ∧
    file.settings frameIdHighWaterKey = some value ∧ parseHighWater value = some n

theorem AllocatesTo.read {n : Nat} (h : file.AllocatesTo n) :
    ∃ metadata, readHistoryMetadata file.tables = .ok metadata ∧
      metadata.frameIdHighWater = n := by
  obtain ⟨id, value, hId, hValid, hValue, hParse⟩ := h
  refine ⟨{ historyId := id, frameIdHighWater := n }, ?_, rfl⟩
  unfold readHistoryMetadata tables
  dsimp only
  rw [hId, hValue]
  simp [hValid, hParse, bind, Except.bind, pure, Except.pure]

/-- A pair that can be read is valid. -/
theorem allocatesTo_of_read {metadata : HistoryMetadata}
    (h : readHistoryMetadata file.tables = .ok metadata) :
    file.AllocatesTo metadata.frameIdHighWater := by
  unfold readHistoryMetadata tables at h
  dsimp only at h
  rcases hId : file.settings historyIdKey with _ | id
  · rw [hId] at h
    cases h
  · rcases hValue : file.settings frameIdHighWaterKey with _ | value
    · rw [hId, hValue] at h
      rcases hValid : validHistoryId id with _ | _ <;>
        simp [hValid, bind, Except.bind, throw, throwThe, MonadExceptOf.throw] at h
    · rw [hId, hValue] at h
      rcases hValid : validHistoryId id with _ | _
      · simp [hValid, bind, Except.bind, throw, throwThe, MonadExceptOf.throw] at h
      · rcases hParse : parseHighWater value with _ | highWater
        · simp [hValid, hParse, bind, Except.bind] at h
        · simp only [hValid, hParse, bind, Except.bind, pure, Except.pure, Option.elim_some,
            Bool.not_true, Bool.false_eq_true, if_false, Except.ok.injEq] at h
          subst h
          exact ⟨id, value, hId, hValid, hValue, hParse⟩

theorem validPair_iff : file.ValidPair ↔ ∃ n, file.AllocatesTo n := by
  constructor
  · rintro ⟨id, value, highWater, hPair⟩
    exact ⟨highWater, id, value, hPair⟩
  · rintro ⟨highWater, id, value, hPair⟩
    exact ⟨id, value, highWater, hPair⟩

/-- The pair is read off the two settings. -/
theorem AllocatesTo.congr {n : Nat} (h : file.AllocatesTo n)
    (hId : file'.settings historyIdKey = file.settings historyIdKey)
    (hValue : file'.settings frameIdHighWaterKey = file.settings frameIdHighWaterKey) :
    file'.AllocatesTo n := by
  obtain ⟨id, value, hPair⟩ := h
  refine ⟨id, value, ?_⟩
  rw [hId, hValue]
  exact hPair

end HistoryFile

/-! ## What each operation does to the pair -/

variable {file file' : HistoryFile} {value : HistoryReturn}

theorem reject_ok {keys : List String} {u : Unit} (h : rejectHistoryMetadata keys = .ok u) :
    ∀ key ∈ keys, key ≠ historyIdKey ∧ key ≠ frameIdHighWaterKey := by
  unfold rejectHistoryMetadata at h
  split at h
  · cases h
  · next hNone =>
    intro key hKey
    have hFree : isHistoryMetadataKey key = false := by
      by_contra hReserved
      exact hNone (List.any_eq_true.mpr ⟨key, hKey, Bool.eq_true_of_not_eq_false hReserved⟩)
    unfold isHistoryMetadataKey at hFree
    simpa using hFree

theorem upsert_other {kvs : List (String × String)} {key : String}
    (hOther : ∀ k ∈ kvs.map Prod.fst, k ≠ key) (settings : String → Option String) :
    kvs.foldl upsertSetting settings key = settings key := by
  induction kvs generalizing settings with
  | nil => rfl
  | cons kv kvs ih =>
    rw [List.foldl_cons, ih (fun k hk => hOther k (List.mem_cons_of_mem _ hk)) _]
    exact Function.update_of_ne (hOther kv.1 (List.mem_cons_self ..)).symm _ _

theorem remove_other {keys : List String} {key : String} (hOther : ∀ k ∈ keys, k ≠ key)
    (settings : String → Option String) : (removeSettings keys settings).2 key = settings key := by
  induction keys generalizing settings with
  | nil => rfl
  | cons k keys ih =>
    rw [removeSettings]
    dsimp only
    rw [ih (fun k' hk' => hOther k' (List.mem_cons_of_mem _ hk')) _]
    exact Function.update_of_ne (hOther k (List.mem_cons_self ..)).symm _ _

/-- Anything but an opening and an insertion. -/
def HistoryOp.general : HistoryOp → Bool
  | .openFile _ _ | .insertFrame _ _ => false
  | _ => true

/-- The writers of the settings leave the reserved ones alone, in whatever batch. -/
theorem HistoryOp.apply_reserved {op : HistoryOp} (hGeneral : op.general = true)
    (h : op.apply file = .ok (value, file')) :
    file'.settings historyIdKey = file.settings historyIdKey ∧
      file'.settings frameIdHighWaterKey = file.settings frameIdHighWaterKey ∧ value.id = [] := by
  cases op with
  | openFile uuid fails => cases hGeneral
  | insertFrame f fails => cases hGeneral
  | deleteFrame frameId fails =>
    unfold apply at h
    dsimp only at h
    split at h
    · cases h
    · cases h
      exact ⟨rfl, rfl, rfl⟩
  | setSetting key v fails =>
    simp only [apply, bind_ok] at h
    obtain ⟨u, hReject, h⟩ := h
    split at h
    · cases h
    · cases h
      obtain ⟨hId, hHighWater⟩ := reject_ok hReject key (List.mem_singleton_self key)
      exact ⟨Function.update_of_ne hId.symm _ _, Function.update_of_ne hHighWater.symm _ _, rfl⟩
  | setSettingsBatch kvs fails =>
    simp only [apply, bind_ok] at h
    obtain ⟨u, hReject, h⟩ := h
    split at h
    · cases h
    · cases h
      have hOther := reject_ok hReject
      exact ⟨upsert_other (fun k hk => (hOther k hk).1) _,
        upsert_other (fun k hk => (hOther k hk).2) _, rfl⟩
  | deleteSettings keys fails =>
    simp only [apply, bind_ok] at h
    obtain ⟨u, hReject, h⟩ := h
    split at h
    · cases h
    · cases h
      have hOther := reject_ok hReject
      exact ⟨remove_other (fun k hk => (hOther k hk).1) _,
        remove_other (fun k hk => (hOther k hk).2) _, rfl⟩

/-- An opening leaves a pair alone of which anything is there. -/
theorem open_present (hPresent : file.HasMetadata) (uuid : String) :
    setupHistoryMetadata uuid file.tables = file.tables := by
  unfold setupHistoryMetadata
  refine if_neg fun hNone => ?_
  obtain ⟨hId, hHighWater⟩ := Bool.and_eq_true_iff.mp hNone
  rcases hPresent with hSome | hSome
  · exact hSome (Option.isNone_iff_eq_none.mp hId)
  · exact hSome (Option.isNone_iff_eq_none.mp hHighWater)

/-- A new id is above the allocator and above every frame, and the allocator follows. -/
theorem insert_ok {f : NewFrame} {fails : Bool}
    (h : (HistoryOp.insertFrame f fails).apply file = .ok (value, file')) :
    ∃ n id, file.AllocatesTo n ∧ value = .frame id ∧ (n : Int) < id ∧
      (∀ frame ∈ file.frames, frame.id < id) ∧
      file'.settings historyIdKey = file.settings historyIdKey ∧
      ∃ n', file'.AllocatesTo n' ∧ (n' : Int) = id := by
  simp only [HistoryOp.apply, bind_ok] at h
  obtain ⟨⟨id, db⟩, hInsert, h⟩ := h
  split at h
  · cases h
  cases h
  unfold Store.insertFrame at hInsert
  rw [bind_ok] at hInsert
  obtain ⟨⟨n', advanced⟩, hAllocate, hInsert⟩ := hInsert
  cases hInsert
  unfold allocateFrameId at hAllocate
  rw [bind_ok] at hAllocate
  obtain ⟨metadata, hRead, hAllocate⟩ := hAllocate
  dsimp only at hAllocate
  split at hAllocate
  · next hFits =>
    cases hAllocate
    obtain ⟨historyId, text, hId, hValid, -, -⟩ := HistoryFile.allocatesTo_of_read hRead
    refine ⟨metadata.frameIdHighWater, _, HistoryFile.allocatesTo_of_read hRead, rfl, ?_, fun frame hFrame => ?_, rfl, _,
      ⟨historyId, _, hId, hValid, rfl, parseHighWater_repr hFits⟩, rfl⟩
    · have := Nat.le_max_left metadata.frameIdHighWater (currentMaxFrameId file.tables)
      omega
    · have hLe : frame.id ≤ currentMaxFrameId file.tables := le_currentMaxFrameId hFrame
      have := Nat.le_max_right metadata.frameIdHighWater (currentMaxFrameId file.tables)
      omega
  · cases hAllocate

/-! ## Runs -/

/-- Where an id has been returned, the allocator is at least there. -/
def HistoryRun.Inv (s : HistoryRun) : Prop :=
  ∀ old ∈ s.returned, ∃ n, s.file.AllocatesTo n ∧ old ≤ n

theorem allocatesTo_unique {n n' : Nat} (h : file.AllocatesTo n) (h' : file.AllocatesTo n') :
    n = n' := by
  obtain ⟨id, text, -, -, hText, hParse⟩ := h
  obtain ⟨id', text', -, -, hText', hParse'⟩ := h'
  rw [hText] at hText'
  cases hText'
  rw [hParse] at hParse'
  exact Option.some.inj hParse'

theorem allocatesTo_present {n : Nat} (h : file.AllocatesTo n) : file.HasMetadata := by
  obtain ⟨id, text, hId, -⟩ := h
  refine Or.inl ?_
  rw [hId]
  nofun

/-- The pair of a file that has one is kept by everything but an insertion. -/
theorem apply_kept {op : HistoryOp} (hPresent : file.HasMetadata)
    (hOp : ∀ f fails, op ≠ .insertFrame f fails) (h : op.apply file = .ok (value, file')) :
    file'.settings historyIdKey = file.settings historyIdKey ∧
      file'.settings frameIdHighWaterKey = file.settings frameIdHighWaterKey ∧ value.id = [] := by
  rcases hGeneral : op.general with _ | _
  · cases op with
    | openFile uuid fails =>
      unfold HistoryOp.apply at h
      dsimp only at h
      split at h
      · cases h
      · cases h
        rw [open_present hPresent uuid]
        exact ⟨rfl, rfl, rfl⟩
    | insertFrame f fails => exact absurd rfl (hOp f fails)
    | deleteFrame _ _ => cases hGeneral
    | setSetting _ _ _ => cases hGeneral
    | setSettingsBatch _ _ => cases hGeneral
    | deleteSettings _ _ => cases hGeneral
  · exact HistoryOp.apply_reserved hGeneral h

theorem apply_returns {op : HistoryOp} (hAbsent : ¬ file.HasMetadata)
    (h : op.apply file = .ok (value, file')) : value.id = [] := by
  rcases hGeneral : op.general with _ | _
  · cases op with
    | openFile uuid fails =>
      unfold HistoryOp.apply at h
      dsimp only at h
      split at h
      · cases h
      · cases h
        rfl
    | insertFrame f fails =>
      obtain ⟨n, -, hAllocates, -⟩ := insert_ok h
      exact absurd (allocatesTo_present hAllocates) hAbsent
    | deleteFrame _ _ => cases hGeneral
    | setSetting _ _ _ => cases hGeneral
    | setSettingsBatch _ _ => cases hGeneral
    | deleteSettings _ _ => cases hGeneral
  · exact (HistoryOp.apply_reserved hGeneral h).2.2

namespace HistoryRun

variable {s : HistoryRun}

theorem step_inv (h : s.Inv) (op : HistoryOp) : (s.step op).Inv := by
  unfold step
  split
  · next value file' hApply =>
    by_cases hPresent : s.file.HasMetadata
    · by_cases hInsert : ∃ f fails, op = .insertFrame f fails
      · obtain ⟨f, fails, rfl⟩ := hInsert
        obtain ⟨n, id, hAllocates, rfl, hLess, -, -, n', hAfter, rfl⟩ := insert_ok hApply
        intro old hOld
        refine ⟨n', hAfter, ?_⟩
        rcases List.mem_cons.mp hOld with rfl | hEarlier
        · exact le_rfl
        · obtain ⟨m, hBefore, hLe⟩ := h old hEarlier
          obtain rfl := allocatesTo_unique hAllocates hBefore
          omega
      · obtain ⟨hId, hHighWater, hNone⟩ := apply_kept hPresent
          (fun f fails hSame => hInsert ⟨f, fails, hSame⟩) hApply
        intro old hOld
        rw [hNone] at hOld
        obtain ⟨n, hAllocates, hLe⟩ := h old hOld
        exact ⟨n, hAllocates.congr hId hHighWater, hLe⟩
    · -- nothing has been returned before a pair was there
      intro old hOld
      rw [apply_returns hPresent hApply] at hOld
      obtain ⟨n, hAllocates, -⟩ := h old hOld
      exact absurd (allocatesTo_present hAllocates) hPresent
  · exact h

theorem run_inv (h : s.Inv) (ops : List HistoryOp) : (s.run ops).Inv := by
  induction ops generalizing s with
  | nil => exact h
  | cons op ops ih => exact ih (step_inv h op)

/-- No operation changes an identity that is there. -/
theorem step_historyId {id : String} (h : s.file.settings historyIdKey = some id)
    (op : HistoryOp) : (s.step op).file.settings historyIdKey = some id := by
  unfold step
  split
  · next value file' hApply =>
    have hPresent : s.file.HasMetadata := Or.inl (by rw [h]; nofun)
    by_cases hInsert : ∃ f fails, op = .insertFrame f fails
    · obtain ⟨f, fails, rfl⟩ := hInsert
      obtain ⟨n, newId, -, -, -, -, hId, -⟩ := insert_ok hApply
      exact hId.trans h
    · exact (apply_kept hPresent (fun f fails hSame => hInsert ⟨f, fails, hSame⟩) hApply).1.trans h
  · exact h

theorem run_historyId {id : String} (h : s.file.settings historyIdKey = some id)
    (ops : List HistoryOp) : (s.run ops).file.settings historyIdKey = some id := by
  induction ops generalizing s with
  | nil => exact h
  | cons op ops ih => exact ih (step_historyId h op)

/-- A pair that is partial or invalid stays as it is. -/
theorem step_broken (hPresent : s.file.HasMetadata) (hBroken : ¬ s.file.ValidPair)
    (op : HistoryOp) :
    (s.step op).file.settings historyIdKey = s.file.settings historyIdKey ∧
      (s.step op).file.settings frameIdHighWaterKey = s.file.settings frameIdHighWaterKey := by
  unfold step
  split
  · next value file' hApply =>
    by_cases hInsert : ∃ f fails, op = .insertFrame f fails
    · obtain ⟨f, fails, rfl⟩ := hInsert
      obtain ⟨n, -, hAllocates, -⟩ := insert_ok hApply
      exact absurd (HistoryFile.validPair_iff.mpr ⟨n, hAllocates⟩) hBroken
    · obtain ⟨hId, hHighWater, -⟩ := apply_kept hPresent
        (fun f fails hSame => hInsert ⟨f, fails, hSame⟩) hApply
      exact ⟨hId, hHighWater⟩
  · exact ⟨rfl, rfl⟩

theorem run_broken (hPresent : s.file.HasMetadata) (hBroken : ¬ s.file.ValidPair)
    (ops : List HistoryOp) :
    (s.run ops).file.settings historyIdKey = s.file.settings historyIdKey ∧
      (s.run ops).file.settings frameIdHighWaterKey = s.file.settings frameIdHighWaterKey := by
  induction ops generalizing s with
  | nil => exact ⟨rfl, rfl⟩
  | cons op ops ih =>
    obtain ⟨hId, hHighWater⟩ := step_broken hPresent hBroken op
    have hPresent' : (s.step op).file.HasMetadata := by
      unfold HistoryFile.HasMetadata
      rw [hId, hHighWater]
      exact hPresent
    have hBroken' : ¬ (s.step op).file.ValidPair := by
      intro hValid
      obtain ⟨n, hAllocates⟩ := HistoryFile.validPair_iff.mp hValid
      exact hBroken (HistoryFile.validPair_iff.mpr ⟨n, hAllocates.congr hId.symm hHighWater.symm⟩)
    obtain ⟨hIdAfter, hHighWaterAfter⟩ := ih hPresent' hBroken'
    exact ⟨hIdAfter.trans hId, hHighWaterAfter.trans hHighWater⟩

end HistoryRun

/-- **Frame ids are never reused, and the history keeps its identity.** From any file, whatever has
been done to it: an id that is returned is above every id returned before and above every frame
there is; an identity that is there stays through whatever follows; and where the pair of settings
is not valid, an insertion fails and leaves the file as it is, and a pair of which anything is
there stays so. -/
theorem frame_ids_increase (file : HistoryFile) (ops later : List HistoryOp) :
    let s := HistoryRun.run { file := file, returned := [] } ops
    (∀ f fails id file', (HistoryOp.insertFrame f fails).apply s.file = .ok (.frame id, file') →
      (∀ old ∈ s.returned, old < id) ∧ ∀ frame ∈ s.file.frames, frame.id < id) ∧
    (∀ id, s.file.settings historyIdKey = some id →
      (s.run later).file.settings historyIdKey = some id) ∧
    (¬ s.file.ValidPair → ∀ f fails,
      (∃ e, (HistoryOp.insertFrame f fails).apply s.file = .error e) ∧
        s.step (.insertFrame f fails) = s) ∧
    (s.file.HasMetadata → ¬ s.file.ValidPair →
      (s.run later).file.settings historyIdKey = s.file.settings historyIdKey ∧
        (s.run later).file.settings frameIdHighWaterKey =
          s.file.settings frameIdHighWaterKey) := by
  intro s
  have hInv : s.Inv := HistoryRun.run_inv (fun old hOld => by cases hOld) ops
  refine ⟨fun f fails id file' hApply => ?_, fun id hId => HistoryRun.run_historyId hId later,
    fun hBroken f fails => ?_, fun hPresent hBroken => HistoryRun.run_broken hPresent hBroken later⟩
  · obtain ⟨n, id', hAllocates, hSame, hLess, hFrames, -⟩ := insert_ok hApply
    cases hSame
    refine ⟨fun old hOld => ?_, hFrames⟩
    obtain ⟨m, hBefore, hLe⟩ := hInv old hOld
    obtain rfl := allocatesTo_unique hAllocates hBefore
    omega
  · rcases hApply : (HistoryOp.insertFrame f fails).apply s.file with e | ⟨value, file'⟩
    · refine ⟨⟨e, rfl⟩, ?_⟩
      unfold HistoryRun.step
      rw [hApply]
    · obtain ⟨n, -, hAllocates, -⟩ := insert_ok hApply
      exact absurd (HistoryFile.validPair_iff.mpr ⟨n, hAllocates⟩) hBroken

end ScreenSearch.Store
