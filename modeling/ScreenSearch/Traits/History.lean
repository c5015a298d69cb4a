import Mathlib.Algebra.Group.Nat.Defs
import Mathlib.Data.Int.Notation
import Mathlib.Order.Basic

/-!
# History contracts

A page request is the time window and the filters, which stay the same from page to
page, and the continuation of the page before it.
-/

namespace ScreenSearch

inductive TextSource where
  | ocr | uia
  deriving DecidableEq, Repr

def i64Max : Nat := 2 ^ 63 - 1

def frameFilterMaxBytes : Nat := 256

def framePageDefaultLimit : Nat := 100

def framePageMaxLimit : Nat := 1000

inductive HistoryUnavailableReason where
  | missingIdentity | missingAllocator | invalidIdentity | invalidAllocator | unsupportedStore
  deriving DecidableEq, Repr

inductive HistoryReadError where
  | unavailable (reason : HistoryUnavailableReason)
  | historyChanged
  | invalidRequest
  | storage (message : String)
  deriving DecidableEq, Repr

structure EvidenceWindow where
  «from» : Int
  «to» : Int
  deriving DecidableEq, Repr

def EvidenceWindow.validate (window : EvidenceWindow) : Except HistoryReadError Unit :=
  if window.from ≥ window.to then .error .invalidRequest else .ok ()

structure FrameFilters where
  app : Option String
  windowTitle : Option String
  deriving DecidableEq, Repr

def FrameFilters.validate (filters : FrameFilters) : Except HistoryReadError Unit :=
  if (filters.app.toList ++ filters.windowTitle.toList).any
      fun text => decide (text.utf8ByteSize > frameFilterMaxBytes)
  then .error .invalidRequest else .ok ()

structure FramePosition where
  capturedAt : Int
  frameId : Int
  deriving DecidableEq, Repr

structure FrameSnapshot where
  historyId : String
  snapshotMaxFrameId : Int
  deriving DecidableEq, Repr

structure FrameContinuation where
  snapshot : FrameSnapshot
  after : FramePosition
  deriving DecidableEq, Repr

structure FramePageRequest where
  window : EvidenceWindow
  filters : FrameFilters
  limit : Nat
  continuation : Option FrameContinuation
  deriving DecidableEq, Repr

def isAsciiHexdigit (c : Char) : Bool :=
  c.isDigit || (('a' ≤ c && c ≤ 'f') || ('A' ≤ c && c ≤ 'F'))

/-- The place of a byte in the text of a UUID decides what it may be. Every byte it
may be is ASCII, so the bytes are the scalars. -/
def historyIdByte (i : Nat) (c : Char) : Bool :=
  if i = 8 ∨ i = 13 ∨ i = 18 ∨ i = 23 then c == '-' else isAsciiHexdigit c

def validHistoryId (value : String) : Bool :=
  decide (value.toList.length = 36) && value.toList.zipIdx.all fun (c, i) => historyIdByte i c

def FrameContinuation.validate (window : EvidenceWindow) (c : FrameContinuation) :
    Except HistoryReadError Unit :=
  if !validHistoryId c.snapshot.historyId
    || decide (c.snapshot.snapshotMaxFrameId ≤ 0)
    || decide (c.after.frameId ≤ 0)
    || decide (c.after.frameId > c.snapshot.snapshotMaxFrameId)
    || decide (c.after.capturedAt < window.from)
    || decide (c.after.capturedAt ≥ window.to)
  then .error .invalidRequest else .ok ()

def FramePageRequest.validate (request : FramePageRequest) : Except HistoryReadError Unit := do
  request.window.validate
  request.filters.validate
  if ¬ (1 ≤ request.limit ∧ request.limit ≤ framePageMaxLimit) then
    throw .invalidRequest
  match request.continuation with
  | none => pure ()
  | some c => c.validate request.window

inductive FrameTextState where
  | available | notAvailable
  deriving DecidableEq, Repr

structure FrameEvidence where
  frameId : Int
  capturedAt : Int
  monitorIndex : Nat
  appHint : Option String
  windowTitle : Option String
  browserUrl : Option String
  rawText : Option String
  contentText : Option String
  textSource : Option TextSource
  filterVersion : Option Int
  textState : FrameTextState
  visionDescription : Option String
  sessionId : Option Int
  imagePurged : Bool
  deriving DecidableEq, Repr

structure StoredFramePage where
  items : List FrameEvidence
  snapshot : FrameSnapshot
  window : EvidenceWindow
  filters : FrameFilters
  nextPosition : Option FramePosition
  observedAt : Int
  deriving DecidableEq, Repr

structure HistoryMetadata where
  historyId : String
  frameIdHighWater : Nat
  deriving DecidableEq, Repr

/-! ## What the checks accept -/

/-- Where a continuation may stand. -/
structure FrameContinuation.Valid (window : EvidenceWindow) (c : FrameContinuation) : Prop where
  historyId : validHistoryId c.snapshot.historyId = true
  id_pos : 0 < c.after.frameId
  id_le : c.after.frameId ≤ c.snapshot.snapshotMaxFrameId
  from_le : window.from ≤ c.after.capturedAt
  lt_to : c.after.capturedAt < window.to

theorem FrameContinuation.validate_ok {window : EvidenceWindow} {c : FrameContinuation} :
    c.validate window = .ok () ↔ c.Valid window := by
  unfold FrameContinuation.validate
  constructor
  · intro hOk
    split at hOk
    · cases hOk
    · next hPass =>
      simp only [Bool.or_eq_true, Bool.not_eq_true', decide_eq_true_eq, not_or, Bool.not_eq_false]
        at hPass
      obtain ⟨⟨⟨⟨⟨hId, hMax⟩, hPos⟩, hLe⟩, hFrom⟩, hTo⟩ := hPass
      exact ⟨hId, by omega, by omega, by omega, by omega⟩
  · rintro ⟨hId, hPos, hLe, hFrom, hTo⟩
    rw [if_neg]
    simp only [Bool.or_eq_true, Bool.not_eq_true', decide_eq_true_eq, not_or, Bool.not_eq_false]
    exact ⟨⟨⟨⟨⟨hId, by omega⟩, by omega⟩, by omega⟩, by omega⟩, by omega⟩

theorem EvidenceWindow.validate_lt {window : EvidenceWindow} (h : window.validate = .ok ()) :
    window.from < window.to := by
  unfold EvidenceWindow.validate at h
  split at h
  · cases h
  · omega

/-- Everything of a request but the continuation. -/
structure FramePageRequest.Plain (window : EvidenceWindow) (filters : FrameFilters)
    (limit : Nat) : Prop where
  window : window.validate = .ok ()
  filters : filters.validate = .ok ()
  limit_pos : 1 ≤ limit
  limit_le : limit ≤ framePageMaxLimit

theorem FramePageRequest.validate_ok {request : FramePageRequest} :
    request.validate = .ok () ↔
      FramePageRequest.Plain request.window request.filters request.limit ∧
        ∀ c ∈ request.continuation, c.Valid request.window := by
  obtain ⟨window, filters, limit, continuation⟩ := request
  unfold FramePageRequest.validate
  dsimp only
  constructor
  · intro hOk
    rcases hWindow : window.validate with e | u
    · rw [hWindow] at hOk; cases hOk
    rcases hFilters : filters.validate with e | u
    · rw [hWindow, hFilters] at hOk; cases hOk
    rw [hWindow, hFilters] at hOk
    by_cases hLimit : 1 ≤ limit ∧ limit ≤ framePageMaxLimit
    · refine ⟨⟨hWindow, hFilters, hLimit.1, hLimit.2⟩, fun c hc => ?_⟩
      rw [Option.mem_def] at hc
      subst hc
      refine FrameContinuation.validate_ok.mp ?_
      rwa [if_neg (not_not.mpr hLimit)] at hOk
    · rw [if_pos hLimit] at hOk; cases hOk
  · rintro ⟨⟨hWindow, hFilters, hPos, hLe⟩, hContinuation⟩
    rw [hWindow, hFilters, if_neg (not_not.mpr ⟨hPos, hLe⟩)]
    rcases continuation with - | c
    · rfl
    · exact FrameContinuation.validate_ok.mpr (hContinuation c rfl)

end ScreenSearch
