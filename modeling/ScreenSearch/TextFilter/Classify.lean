import ScreenSearch.Lib.Sort
import ScreenSearch.Traits.TextSpans
import Mathlib.Algebra.Order.Floor.Defs
import Mathlib.Data.Rat.Floor

/-!
# The attention filter

Lines are kept or suppressed by where they are in the focused window and by how often the
application has shown them before. The filter has no state of its own: the catalog of
earlier appearances is given to it.
-/

namespace ScreenSearch.Attention

open Sorting

/-- `[x, y, w, h]`. -/
abbrev Rect := ℚ × ℚ × ℚ × ℚ

def sep : Char := Char.ofNat 0x1f

def systemBandTop : ℚ := 95 / 100

def contentInset : ℚ := 6 / 100

def insideMinFraction : ℚ := 1 / 2

/-! ## Lines -/

structure LineAcc where
  index : Nat
  words : List String
  normalized : String
  role : TextRole
  x0 : ℚ
  y0 : ℚ
  x1 : ℚ
  y1 : ℚ
  deriving DecidableEq, Repr

def LineAcc.bbox (line : LineAcc) : Rect :=
  (line.x0, line.y0, max (line.x1 - line.x0) 0, max (line.y1 - line.y0) 0)

def LineAcc.centroid (line : LineAcc) : ℚ × ℚ :=
  ((line.x0 + line.x1) / 2, (line.y0 + line.y1) / 2)

def LineAcc.text (line : LineAcc) : String := " ".intercalate line.words

/-- The line of the spans, of which `first` is the first. -/
def lineOf (toLowercase : String → String) (first : TextSpan) (spans : List TextSpan) : LineAcc :=
  let words := spans.map TextSpan.text
  { index := first.lineIndex
    words := words
    normalized := normalizeText toLowercase (" ".intercalate words)
    role := first.role
    x0 := ((spans.map TextSpan.x).min?).getD 0
    y0 := ((spans.map TextSpan.y).min?).getD 0
    x1 := ((spans.map fun s => s.x + s.w).max?).getD 0
    y1 := ((spans.map fun s => s.y + s.h).max?).getD 0 }

/-- In reading order, which is the order of the line index. -/
def groupLines (toLowercase : String → String) (spans : List TextSpan) : List LineAcc :=
  (sortByKey id (spans.map TextSpan.lineIndex).eraseDups).filterMap fun index =>
    let line := spans.filter fun s => s.lineIndex == index
    line.head?.map fun first => lineOf toLowercase first line

/-! ## Geometry -/

def signature (appHint : Option String) (region normalized : String) : String :=
  appHint.getD "" ++ sep.toString ++ region ++ sep.toString ++ normalized

/-- The cell of a coordinate on a grid of `n`. -/
def gridCell (c : ℚ) (n : Nat) : Nat := min ⌊max 0 (min c 1) * n⌋.toNat (n - 1)

def regionBucket (cx cy : ℚ) (n : Nat) : String :=
  (gridCell cy n).repr ++ "," ++ (gridCell cx n).repr

def insideFraction (line rect : Rect) : ℚ :=
  let (x, y, w, h) := line
  let (rx, ry, rw, rh) := rect
  let area := w * h
  if area ≤ 0 then if x ≥ rx ∧ x ≤ rx + rw ∧ y ≥ ry ∧ y ≤ ry + rh then 1 else 0
  else
    let iw := max (min (x + w) (rx + rw) - max x rx) 0
    let ih := max (min (y + h) (ry + rh) - max y ry) 0
    iw * ih / area

def centroidInterior (rect : Rect) (cx cy : ℚ) : Bool :=
  let (x, y, w, h) := rect
  decide (cx ≥ x + contentInset * w) && decide (cx ≤ x + w - contentInset * w)
  && decide (cy ≥ y + contentInset * h) && decide (cy ≤ y + h - contentInset * h)

/-! ## Classification -/

def keptRole (role : TextRole) : Bool := role == .content || role == .unknown

abbrev Decision := TextRole × Option SuppressReason

/-- The signature that a short line at the edge of the window is catalogued under. -/
def candidate (input : ClassifyInput) (config : FilterConfig) (line : LineAcc) :
    Option ObservedSignature :=
  let (cx, cy) := line.centroid
  let region := regionBucket cx cy (max config.chromeRegionBuckets 1)
  input.targetRect.bind fun rect =>
    if decide (line.normalized.length < config.chromeProtectMinChars)
        && !centroidInterior rect cx cy then
      some
        { signature := signature input.targetAppHint region line.normalized
          appHint := input.targetAppHint
          regionBucket := region
          normalizedText := line.normalized }
    else none

/-- What becomes of a line, and what of it is observed. -/
def decideLine (toLowercase : String → String) (input : ClassifyInput) (catalog : ChromeCatalog)
    (config : FilterConfig) (line : LineAcc) : Decision × Option ObservedSignature :=
  let inside := (input.targetRect.map (insideFraction line.bbox)).getD 0
  let outside := input.targetRect.isSome && decide (inside < insideMinFraction)
  let title := (input.targetWindowTitle.map (normalizeText toLowercase)).filter fun t => !t.isEmpty
  if decide (line.normalized.length < config.chromeProtectMinChars)
      && decide (line.y0 ≥ systemBandTop) && outside then
    ((.system, some .systemUi), none)
  else if outside then ((.background, some .backgroundWindow), none)
  else if title = some line.normalized then ((.chrome, some .staticChrome), none)
  else
    let observed := candidate input config line
    -- this appearance counts
    if observed.any fun obs =>
        decide (catalog obs.signature + 1 ≥ max config.chromeSuppressMinSeen 1) then
      ((.chrome, some .staticChrome), observed)
    else ((if input.targetRect.isSome then .content else .unknown, none), observed)

/-- The spans with what was decided about their lines. -/
def applyDecision (decision : Decision) (span : TextSpan) : TextSpan :=
  { span with
    role := decision.1
    isSearchable := keptRole decision.1
    suppressReason := decision.2 }

def dedupSignatures (observed : List ObservedSignature) : List ObservedSignature :=
  observed.foldl (fun seen obs =>
    if seen.any fun other => other.signature == obs.signature then seen else seen ++ [obs]) []

def classify (toLowercase : String → String) (input : ClassifyInput) (catalog : ChromeCatalog)
    (config : FilterConfig) : ClassifyOutput :=
  let lines := groupLines toLowercase input.spans
  let decided := lines.map fun line => (line, decideLine toLowercase input catalog config line)
  let decisionOf (index : Nat) : Decision :=
    ((decided.find? fun d => d.1.index == index).map fun d => d.2.1).getD (.unknown, none)
  let spans := input.spans.map fun span => applyDecision (decisionOf span.lineIndex) span
  { spans := spans
    contentText := "\n".intercalate
      ((decided.filter fun d => keptRole d.2.1.1).map fun d => d.1.text)
    suppressedCount := spans.countP fun span => !span.isSearchable
    observed := dedupSignatures (decided.filterMap fun d => d.2.2) }

/-- Whether a line that was kept is by now known as chrome; its own appearance has been
counted. -/
def newlyChrome (appHint : Option String) (catalog : ChromeCatalog) (config : FilterConfig)
    (line : LineAcc) : Bool :=
  let (cx, cy) := line.centroid
  let region := regionBucket cx cy (max config.chromeRegionBuckets 1)
  keptRole line.role && decide (line.normalized.length < config.chromeProtectMinChars)
  && decide (catalog (signature appHint region line.normalized) ≥
    max config.chromeSuppressMinSeen 1)

def reconcile (toLowercase : String → String) (spans : List TextSpan) (appHint : Option String)
    (catalog : ChromeCatalog) (config : FilterConfig) : ClassifyOutput :=
  let lines := groupLines toLowercase spans
  let demoted := (lines.filter (newlyChrome appHint catalog config)).map LineAcc.index
  let spans := spans.map fun span =>
    if demoted.contains span.lineIndex then applyDecision (.chrome, some .staticChrome) span
    else { span with isSearchable := keptRole span.role }
  { spans := spans
    contentText := "\n".intercalate
      ((lines.filter fun line => keptRole line.role && !demoted.contains line.index).map
        LineAcc.text)
    suppressedCount := spans.countP fun span => !span.isSearchable
    observed := [] }

/-- The filter as it is shipped. -/
def shipped (toLowercase : String → String) : TextFilter where
  classify := classify toLowercase
  reconcile := reconcile toLowercase
  toLowercase := toLowercase

end ScreenSearch.Attention
