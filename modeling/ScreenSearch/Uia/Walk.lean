import ScreenSearch.Capture.UiaClient
import ScreenSearch.Traits.TextSpans

/-!
# The accessibility walk

A recognition reads the foreground window's accessibility tree: a depth-first walk with an
explicit stack, under caps and three flags that end it early. The provider of the tree is another
process. It may answer anything, differently each time, and fail any call; the walk numbers its
checks of the flags, and what is answered after a check may depend on that number.
-/

namespace ScreenSearch.Uia

open Capture (UiaBudget)

/-- `[x, y, w, h]`. -/
abbrev Box := ℚ × ℚ × ℚ × ℚ

/-! ## Elements -/

/-- Screen pixels. -/
structure ScreenRect where
  left : Int
  top : Int
  right : Int
  bottom : Int
  deriving DecidableEq, Repr

/-- What was fetched of an element in one call; a getter that fails gives none. -/
structure CachedElement where
  controlType : Option Int
  isPassword : Option Bool
  isOffscreen : Option Bool
  boundingRectangle : Option ScreenRect
  name : Option String
  deriving DecidableEq, Repr

/-- What an element answers when it is visited. -/
structure Answers where
  /-- `BuildUpdatedCache`. -/
  cached : Option CachedElement
  /-- The visible ranges of its text pattern, each with its text. -/
  visibleRanges : Option (List (Option String))
  /-- The value of its value pattern. -/
  value : Option String
  deriving DecidableEq, Repr

/-- The other process, by the number of the check before the call. -/
structure Provider (Elem : Type) where
  answers : Nat → Elem → Answers
  firstChild : Nat → Elem → Option Elem
  nextSibling : Nat → Elem → Option Elem

/-! ## Decisions -/

/-- Pane, window, group, toolbar, menu bar, tree, list, table, scroll bar, separator, tab and
title bar. -/
def isContainer (controlType : Int) : Bool :=
  [50033, 50032, 50026, 50021, 50010, 50023, 50008, 50036, 50014, 50038, 50018, 50037].contains
    controlType

def shouldEmit (controlType : Int) (isPassword isOffscreen : Bool) : Bool :=
  !isPassword && !isOffscreen && !isContainer controlType

/-- Document, edit and text. -/
def controlTypeWantsTextpattern (controlType : Int) : Bool :=
  [50030, 50004, 50020].contains controlType

def isChromiumWindowClass (className : String) : Bool := "Chrome_WidgetWin_".isPrefixOf className

/-- A line that has words takes a number. -/
def splitLine (acc : List (Nat × String) × Nat) (rawLine : String) : List (Nat × String) × Nat :=
  let (out, line) := acc
  let words := Text.splitWhitespace rawLine
  (out ++ words.map fun word => (line, word), if words.isEmpty then line else line + 1)

/-- The words, each with the number of its line, and the next free number. -/
def splitWords (text : String) (firstLine : Nat) : List (Nat × String) × Nat :=
  (Text.split '\n' text).foldl splitLine ([], firstLine)

def clamp (v lo hi : ℚ) : ℚ := max lo (min v hi)

def normalizeScreenRect (r : ScreenRect) (monitorOrigin : Int × Int) (frameSize : Nat × Nat) : Box :=
  let (monLeft, monTop) := monitorOrigin
  let (frameW, frameH) := frameSize
  if frameW = 0 ∨ frameH = 0 ∨ r.right ≤ r.left ∨ r.bottom ≤ r.top then (0, 0, 0, 0)
  else
    let visLeft := max r.left monLeft
    let visTop := max r.top monTop
    let x := clamp ((visLeft - monLeft : Int) / (frameW : ℚ)) 0 1
    let y := clamp ((visTop - monTop : Int) / (frameH : ℚ)) 0 1
    let w := clamp ((r.right - visLeft : Int) / (frameW : ℚ)) 0 (1 - x)
    let h := clamp ((r.bottom - visTop : Int) / (frameH : ℚ)) 0 (1 - y)
    (x, y, w, h)

/-- By the centre. -/
def withinTarget (target : Box) (x y w h : ℚ) : Bool :=
  let (tx, ty, tw, th) := target
  let (cx, cy) := (x + w / 2, y + h / 2)
  decide (cx ≥ tx) && decide (cx ≤ tx + tw) && decide (cy ≥ ty) && decide (cy ≤ ty + th)

/-! ## One element -/

/-- What a visit reads live. -/
inductive LiveRead where
  | textPattern | value
  deriving DecidableEq, Repr

/-- The texts of the visible ranges that have any, one a line. -/
def visibleText (ranges : List (Option String)) : String :=
  (ranges.filterMap id).foldl (fun acc part =>
    if Text.isBlank part then acc else (if acc.isEmpty then acc else acc ++ "\n") ++ part) ""

/-- Visible text, then value, then name: the first that is not blank, and what was read for it. -/
def extractText (cached : CachedElement) (a : Answers) (allowTextpattern : Bool) :
    List LiveRead × Option String :=
  let probed := if allowTextpattern then [.textPattern] else []
  let visible := if allowTextpattern then a.visibleRanges.map visibleText else none
  match visible.filter fun text => !Text.isBlank text with
  | some text => (probed, some text)
  | none =>
    match a.value.filter fun text => !Text.isBlank text with
    | some text => (probed ++ [.value], some text)
    | none => (probed ++ [.value], cached.name.filter fun text => !Text.isBlank text)

/-- What the walk knows besides the tree. -/
structure WalkContext where
  targetRect : Box
  monOrigin : Int × Int
  frameSize : Nat × Nat
  /-- `str::to_lowercase`. -/
  toLowercase : String → String

/-- What the visible element says of itself, if it may be read. -/
def CachedElement.readable (c : CachedElement) : Bool :=
  shouldEmit (c.controlType.getD 0) (c.isPassword.getD false) (c.isOffscreen.getD false)

def CachedElement.wantsTextpattern (c : CachedElement) : Bool :=
  controlTypeWantsTextpattern (c.controlType.getD 0)

/-- A box of nothing where the rectangle cannot be had. -/
def CachedElement.box (ctx : WalkContext) (c : CachedElement) : Box :=
  match c.boundingRectangle with
  | some r => normalizeScreenRect r ctx.monOrigin ctx.frameSize
  | none => (0, 0, 0, 0)

/-- The text of an element and its box, if it is to be emitted. -/
def emission (ctx : WalkContext) (c : CachedElement) (raw : Option String) : Option (String × Box) :=
  raw.bind fun raw =>
    let trimmed := Text.trim raw
    let (x, y, w, h) := c.box ctx
    if !trimmed.isEmpty && withinTarget ctx.targetRect x y w h then some (trimmed, (x, y, w, h))
    else none

/-- An element whose text was taken, and the lines it was given. -/
structure Emitted (Elem : Type) where
  elem : Elem
  text : String
  firstLine : Nat
  nextLine : Nat
  deriving DecidableEq, Repr

/-- What the walk has gathered. -/
structure Gathered (Elem : Type) where
  spans : List TextSpan
  text : String
  lineIndex : Nat
  textpatternCalls : Nat
  /-- The elements whose text was taken, in the order of the text. -/
  emitted : List (Emitted Elem)
  deriving DecidableEq, Repr

variable {Elem : Type}

namespace Gathered

def empty : Gathered Elem := ⟨[], "", 0, 0, []⟩

def span (ctx : WalkContext) (box : Box) (word : Nat × String) : TextSpan where
  text := word.2
  normalizedText := normalizeText ctx.toLowercase word.2
  source := .uia
  role := .unknown
  x := box.1
  y := box.2.1
  w := box.2.2.1
  h := box.2.2.2
  lineIndex := word.1
  isSearchable := true
  suppressReason := none

/-- The words of a text, and the text itself where it has any. -/
def emit (ctx : WalkContext) (elem : Elem) (trimmed : String) (box : Box) (g : Gathered Elem) :
    Gathered Elem :=
  let (words, next) := splitWords trimmed g.lineIndex
  let g := { g with spans := g.spans ++ words.map (span ctx box) }
  if next > g.lineIndex then
    { g with
      text := g.text ++ trimmed ++ "\n"
      lineIndex := next
      emitted := g.emitted ++ [⟨elem, trimmed, g.lineIndex, next⟩] }
  else g

/-- A probe of the text pattern is allowed, and then counted. -/
def allows (maxTextpatternCalls : Nat) (c : CachedElement) (g : Gathered Elem) : Bool :=
  c.wantsTextpattern && decide (g.textpatternCalls < maxTextpatternCalls)

def probe (allow : Bool) (g : Gathered Elem) : Gathered Elem :=
  if allow then { g with textpatternCalls := g.textpatternCalls + 1 } else g

/-- The element's own text; and what was read live for it. -/
def read (ctx : WalkContext) (maxTextpatternCalls : Nat) (elem : Elem) (a : Answers)
    (g : Gathered Elem) : Gathered Elem × List LiveRead :=
  match a.cached with
  | none => (g, [])
  | some c =>
    if c.readable then
      let allow := g.allows maxTextpatternCalls c
      let g := g.probe allow
      let (reads, raw) := extractText c a allow
      match emission ctx c raw with
      | some (trimmed, box) => (g.emit ctx elem trimmed box, reads)
      | none => (g, reads)
    else (g, [])

@[simp] theorem probe_spans (allow : Bool) (g : Gathered Elem) : (g.probe allow).spans = g.spans := by
  rcases allow <;> rfl

@[simp] theorem probe_text (allow : Bool) (g : Gathered Elem) : (g.probe allow).text = g.text := by
  rcases allow <;> rfl

@[simp] theorem probe_lineIndex (allow : Bool) (g : Gathered Elem) :
    (g.probe allow).lineIndex = g.lineIndex := by
  rcases allow <;> rfl

@[simp] theorem probe_emitted (allow : Bool) (g : Gathered Elem) :
    (g.probe allow).emitted = g.emitted := by
  rcases allow <;> rfl

@[simp] theorem probe_textpatternCalls (allow : Bool) (g : Gathered Elem) :
    (g.probe allow).textpatternCalls = g.textpatternCalls + if allow then 1 else 0 := by
  rcases allow <;> rfl

@[simp] theorem emit_textpatternCalls (ctx : WalkContext) (elem : Elem) (trimmed : String) (box : Box)
    (g : Gathered Elem) : (g.emit ctx elem trimmed box).textpatternCalls = g.textpatternCalls := by
  unfold emit
  dsimp only
  split <;> rfl

/-- An element is skipped, or read without a text to take, or its text is taken. -/
theorem read_cases (ctx : WalkContext) (maxTextpatternCalls : Nat) (elem : Elem) (a : Answers)
    (g : Gathered Elem) :
    (a.cached.any CachedElement.readable = false ∧
      g.read ctx maxTextpatternCalls elem a = (g, [])) ∨
    ∃ c, a.cached = some c ∧ c.readable = true ∧
      ((emission ctx c (extractText c a (g.allows maxTextpatternCalls c)).2 = none ∧
        g.read ctx maxTextpatternCalls elem a = (g.probe (g.allows maxTextpatternCalls c),
          (extractText c a (g.allows maxTextpatternCalls c)).1)) ∨
      ∃ trimmed box,
        emission ctx c (extractText c a (g.allows maxTextpatternCalls c)).2 = some (trimmed, box) ∧
        g.read ctx maxTextpatternCalls elem a =
          ((g.probe (g.allows maxTextpatternCalls c)).emit ctx elem trimmed box,
            (extractText c a (g.allows maxTextpatternCalls c)).1)) := by
  unfold read
  rcases hCached : a.cached with _ | c
  · exact .inl ⟨rfl, rfl⟩
  rcases hReadable : c.readable with _ | _
  · exact .inl ⟨hReadable, by simp [hReadable]⟩
  refine .inr ⟨c, rfl, hReadable, ?_⟩
  dsimp only
  rw [if_pos hReadable]
  rcases hEmission : emission ctx c (extractText c a (g.allows maxTextpatternCalls c)).2 with
    _ | ⟨trimmed, box⟩
  · exact .inl ⟨rfl, rfl⟩
  · exact .inr ⟨trimmed, box, rfl, rfl⟩

end Gathered

/-! ## The walk -/

def maxDepth : Nat := 40
def maxSpans : Nat := 10000
def maxStack : Nat := 16000

/-- The number of the first check that finds a flag raised; none where it stays down. -/
structure Flags where
  deadline : Option Nat
  cancel : Option Nat
  shutdown : Option Nat
  deriving DecidableEq, Repr

def Flags.raised (f : Flags) (check : Nat) : Bool :=
  f.deadline.any (fun t => decide (t ≤ check)) || f.cancel.any (fun t => decide (t ≤ check))
  || f.shutdown.any fun t => decide (t ≤ check)

/-- A visited element. -/
structure Visit (Elem : Type) where
  elem : Elem
  /-- The number of the check before it. -/
  check : Nat
  reads : List LiveRead
  deriving DecidableEq, Repr

structure Walk (Elem : Type) where
  /-- The elements to visit and how deep they are, the next first. -/
  stack : List (Elem × Nat)
  nodes : Nat
  /-- How often the flags were checked. -/
  checks : Nat
  gathered : Gathered Elem
  /-- Latest first. -/
  visits : List (Visit Elem)

/-- Pushes an element and its siblings. -/
def pushSiblings (p : Provider Elem) (flags : Flags) (depth : Nat) (child : Elem)
    (stack : List (Elem × Nat)) (checks : Nat) : List (Elem × Nat) × Nat :=
  if stack.length ≥ maxStack then (stack, checks)
  else if flags.raised checks then (stack, checks + 1)
  else
    match p.nextSibling checks child with
    | some next => pushSiblings p flags depth next ((child, depth) :: stack) (checks + 1)
    | none => ((child, depth) :: stack, checks + 1)
termination_by maxStack - stack.length

/-- Reads an element, and pushes its children. -/
def Walk.visit (p : Provider Elem) (flags : Flags) (ctx : WalkContext) (budget : UiaBudget)
    (elem : Elem) (depth : Nat) (rest : List (Elem × Nat)) (w : Walk Elem) : Walk Elem :=
  let (gathered, reads) :=
    w.gathered.read ctx budget.maxTextpatternCalls elem (p.answers w.checks elem)
  let (stack, checks) :=
    if depth < maxDepth then
      match p.firstChild w.checks elem with
      | some first => pushSiblings p flags (depth + 1) first rest (w.checks + 1)
      | none => (rest, w.checks + 1)
    else (rest, w.checks + 1)
  { stack := stack
    nodes := w.nodes + 1
    checks := checks
    gathered := gathered
    visits := ⟨elem, w.checks, reads⟩ :: w.visits }

def walkLoop (p : Provider Elem) (flags : Flags) (ctx : WalkContext) (budget : UiaBudget)
    (w : Walk Elem) : Walk Elem :=
  match w.stack with
  | [] => w
  | (elem, depth) :: rest =>
    if w.nodes ≥ budget.maxNodes ∨ w.gathered.spans.length ≥ maxSpans ∨
        flags.raised w.checks = true then
      { w with stack := rest }
    else walkLoop p flags ctx budget (w.visit p flags ctx budget elem depth rest)
termination_by budget.maxNodes - w.nodes
decreasing_by
  show budget.maxNodes - (w.nodes + 1) < budget.maxNodes - w.nodes
  omega

def Walk.start (root : Elem) : Walk Elem where
  stack := [(root, 0)]
  nodes := 0
  checks := 0
  gathered := .empty
  visits := []

/-! ## A recognition -/

structure WalkRequest where
  width : Nat
  height : Nat
  targetRect : Option Box
  foregroundHwnd : Option Int

/-- What the desktop and the automation object answer before the walk. -/
structure Foreground (Elem : Type) where
  hwnd : Option Int
  iconic : Bool
  className : Option String
  root : Except String Elem
  /-- The cache request and the walker; the message of what failed. -/
  automation : Except String Unit
  monitorOrigin : Option (Int × Int)

def Foreground.context (fg : Foreground Elem) (toLowercase : String → String) (req : WalkRequest)
    (targetRect : Box) : WalkContext where
  targetRect := targetRect
  monOrigin := fg.monitorOrigin.getD (0, 0)
  frameSize := (req.width, req.height)
  toLowercase := toLowercase

def readForeground (p : Provider Elem) (fg : Foreground Elem) (flags : Flags)
    (toLowercase : String → String) (req : WalkRequest) (budget : UiaBudget) :
    Except String OcrResult := do
  let some targetRect := req.targetRect
    | throw "no target_rect (foreground window not on this monitor) — fall back to OCR"
  let some hwnd := fg.hwnd | throw "no foreground window"
  if fg.iconic then throw "foreground window minimized"
  if req.foregroundHwnd.any fun captured => decide (hwnd ≠ captured) then
    throw "foreground window changed since capture — fall back to OCR"
  if fg.className.any isChromiumWindowClass then
    throw ("chromium/electron window (" ++ fg.className.getD "" ++ ") — fall back to OCR")
  let root ← fg.root
  fg.automation
  let ctx := fg.context toLowercase req targetRect
  let gathered := (walkLoop p flags ctx budget (.start root)).gathered
  let text := Text.trimEnd gathered.text
  if text.length < budget.minTextChars then
    throw ("uia thin yield (" ++ toString text.length ++ " chars < " ++
      toString budget.minTextChars ++ " min)")
  return { text := text, engine := "uia", spans := gathered.spans }

end ScreenSearch.Uia
