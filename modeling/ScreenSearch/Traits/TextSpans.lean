import ScreenSearch.Lib.Text
import ScreenSearch.Traits.History
import Mathlib.Algebra.Order.Ring.Rat
import Mathlib.Data.Rat.Defs

/-!
# Text spans and their filter

What a recognizer finds in a frame, word by word, and what the attention filter makes of
it.
-/

namespace ScreenSearch

inductive TextRole where
  | content | chrome | background | system | unknown
  deriving DecidableEq, Repr

inductive SuppressReason where
  | staticChrome | systemUi | backgroundWindow
  deriving DecidableEq, Repr

structure TextSpan where
  text : String
  normalizedText : String
  source : TextSource
  role : TextRole
  x : ℚ
  y : ℚ
  w : ℚ
  h : ℚ
  lineIndex : Nat
  isSearchable : Bool
  suppressReason : Option SuppressReason
  deriving DecidableEq, Repr

structure OcrResult where
  text : String
  engine : String
  spans : List TextSpan
  deriving DecidableEq, Repr

structure TextFilterContext where
  targetRect : Option (ℚ × ℚ × ℚ × ℚ)
  chromeSuppressMinSeen : Nat
  chromeProtectMinChars : Nat
  chromeRegionBuckets : Nat
  deriving DecidableEq, Repr

structure VisionAnalysis where
  description : String
  activityType : Option String
  appHint : Option String
  model : String
  deriving DecidableEq, Repr

inductive ChunkSource where
  | ocr | visionDescription
  deriving DecidableEq, Repr

/-- A dense vector; a dimension is the bits of an `f32`. -/
abbrev Embedding := List UInt32

/-! ## The filter -/

structure FilterConfig where
  chromeSuppressMinSeen : Nat
  chromeProtectMinChars : Nat
  chromeRegionBuckets : Nat
  deriving DecidableEq, Repr

/-- How often a signature was seen in earlier frames. -/
abbrev ChromeCatalog := String → Nat

structure ClassifyInput where
  spans : List TextSpan
  targetRect : Option (ℚ × ℚ × ℚ × ℚ)
  targetWindowTitle : Option String
  targetAppHint : Option String
  deriving DecidableEq, Repr

structure ObservedSignature where
  signature : String
  appHint : Option String
  regionBucket : String
  normalizedText : String
  deriving DecidableEq, Repr

structure ClassifyOutput where
  spans : List TextSpan
  contentText : String
  suppressedCount : Nat
  observed : List ObservedSignature
  deriving DecidableEq, Repr

/-- The functions of the filter that the store calls. -/
structure TextFilter where
  classify : ClassifyInput → ChromeCatalog → FilterConfig → ClassifyOutput
  reconcile : List TextSpan → Option String → ChromeCatalog → FilterConfig → ClassifyOutput
  /-- `str::to_lowercase`. -/
  toLowercase : String → String

/-- White space collapsed and trimmed, then lower case. -/
def normalizeText (toLowercase : String → String) (s : String) : String :=
  toLowercase (" ".intercalate (Text.splitWhitespace s))

end ScreenSearch
