import Mathlib.Data.Rat.Defs
import Mathlib.Algebra.Order.Ring.Rat

/-!
# Session-domain types shared by the segmenter, the store and the scheduler

Times are epoch milliseconds and row ids are database keys; both are `i64` in
the source and `Int` here, since no computation on them comes near the word
size. Confidences and densities are `f64` in the source and exact rationals
here.
-/

namespace ScreenSearch

def sessionMergeGapMs : Int := 2700000
def sessionAbsorbMaxMs : Int := 1800000
def sessionMeetingGapMs : Int := 480000
def sessionFocusMinLenMs : Int := 600000
def sessionFocusMinDensityFph : Int := 30
def sessionIdentityQualifyMs : Int := 120000
def sessionFreezeLookbackMs : Int := 21600000

inductive SessionKind where
  | focus | meeting | ai | other
  deriving DecidableEq, Repr

inductive SessionHost where
  | terminal | desktop | browser | ide
  deriving DecidableEq, Repr

structure SegmenterFrame where
  id : Int
  capturedAt : Int
  appHint : Option String
  windowTitle : Option String
  browserUrl : Option String
  deriving DecidableEq, Repr

/-- A row of the session table. -/
structure Session where
  id : Int
  startedAt : Int
  endedAt : Option Int
  kind : SessionKind
  tool : Option String
  host : Option SessionHost
  contextKey : String
  title : Option String
  summary : Option String
  summaryModel : Option String
  confidence : Rat
  frozen : Bool
  createdAt : Int
  updatedAt : Int
  deriving DecidableEq, Repr

structure NewSession where
  startedAt : Int
  endedAt : Option Int
  kind : SessionKind
  tool : Option String
  host : Option SessionHost
  contextKey : String
  confidence : Rat
  frozen : Bool
  deriving DecidableEq, Repr

inductive SessionArtifactKind where
  | exchange | transcript | note
  deriving DecidableEq, Repr

inductive SessionArtifactRole where
  | user | agent
  deriving DecidableEq, Repr

structure SessionArtifact where
  id : Int
  sessionId : Int
  kind : SessionArtifactKind
  role : Option SessionArtifactRole
  frameId : Option Int
  content : String
  createdAt : Int
  deriving DecidableEq, Repr

structure NewSessionArtifact where
  kind : SessionArtifactKind
  role : Option SessionArtifactRole
  frameId : Option Int
  content : String
  deriving DecidableEq, Repr

/-- The filtered text of a frame. -/
structure SessionContent where
  frameId : Int
  capturedAt : Int
  contentText : String
  deriving DecidableEq, Repr

structure ExtractedExchange where
  role : SessionArtifactRole
  content : String
  frameId : Int
  deriving DecidableEq, Repr

structure SessionFilter where
  fromMs : Option Int
  toMs : Option Int
  kind : Option SessionKind
  tool : Option String
  limit : Option Nat
  nowMs : Int
  deriving DecidableEq, Repr

/-- What one segmentation proposes: a span with the frames it owns. `endedAt` is
the last owned frame time also while the draft is `isOpen`. -/
structure SessionDraft where
  startedAt : Int
  endedAt : Int
  kind : SessionKind
  tool : Option String
  host : Option SessionHost
  contextKey : String
  confidence : Rat
  frameIds : List Int
  isOpen : Bool
  deriving DecidableEq, Repr

/-- Persistence maps an open draft to a row without an end. -/
def SessionDraft.asNewSession (draft : SessionDraft) (frozen : Bool) : NewSession where
  startedAt := draft.startedAt
  endedAt := if draft.isOpen then none else some draft.endedAt
  kind := draft.kind
  tool := draft.tool
  host := draft.host
  contextKey := draft.contextKey
  confidence := draft.confidence
  frozen := frozen

structure SegmentationParams where
  nowMs : Int
  gapCloseMs : Int
  minLenMs : Int
  mergeGapMs : Int
  absorbMaxMs : Int
  meetingGapMs : Int
  focusMinLenMs : Int
  focusMinDensityFph : Int
  identityQualifyMs : Int
  freezeLookbackMs : Int
  deriving DecidableEq, Repr

/-- Production parameters: only the two typed settings are supplied by the
caller. -/
def SegmentationParams.shipped (nowMs gapCloseMs minLenMs : Int) : SegmentationParams where
  nowMs := nowMs
  gapCloseMs := gapCloseMs
  minLenMs := minLenMs
  mergeGapMs := sessionMergeGapMs
  absorbMaxMs := sessionAbsorbMaxMs
  meetingGapMs := sessionMeetingGapMs
  focusMinLenMs := sessionFocusMinLenMs
  focusMinDensityFph := sessionFocusMinDensityFph
  identityQualifyMs := sessionIdentityQualifyMs
  freezeLookbackMs := sessionFreezeLookbackMs

end ScreenSearch
