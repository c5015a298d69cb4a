import ScreenSearch.Lib.Sort
import ScreenSearch.Lib.Text
import ScreenSearch.Traits.Sessions

/-!
# Exchange extraction

User and agent turns out of the filtered text of a session's frames, by the markers
of the tool. A block whose words are contained in those of an earlier one of its
role, or contain them, is a repeated capture and is left out.
-/

namespace ScreenSearch.Sessions

open Sorting Text

/-- A turn found in a text. -/
abbrev Block := SessionArtifactRole × String

/-! ## Role markers -/

def nonempty (value : String) : Option String := if value.isEmpty then none else some value

/-- The role a heading names, tool by tool. -/
def headingRole (toolId head : String) : Option SessionArtifactRole :=
  let either (users agents : List String) :=
    if head ∈ users then some .user else if head ∈ agents then some .agent else none
  if toolId = "claude-code" then either ["user", "human", "you"] ["assistant", "claude"]
  else if toolId = "codex" then either ["user", "you"] ["assistant", "codex", "chatgpt"]
  else if toolId = "claude-desktop" then either ["user", "you"] ["assistant", "claude"]
  else if toolId = "browser-ai" then
    either ["user", "you"] ["assistant", "claude", "chatgpt", "gemini"]
  else none

/-- A role name with a colon behind it. -/
def headingMarker (toolId line : String) : Option (SessionArtifactRole × Option String) := do
  let (head, tailText) ← splitOnce ":" line
  let role ← headingRole toolId (toAsciiLowercase (trim head))
  some (role, nonempty (trim tailText))

/-- The role a line introduces, and what stands on the line itself. -/
def marker (toolId line : String) : Option (SessionArtifactRole × Option String) :=
  if toolId = "claude-code" then
    match stripPrefix "❯" line with
    | some rest => (nonempty (trim rest)).map fun content => (.user, some content)
    | none =>
      match ["⏺", "●"].findSome? fun glyph => stripPrefix glyph line with
      | some rest => some (.agent, nonempty (trim rest))
      | none => headingMarker toolId line
  else headingMarker toolId line

/-! ## Blocks behind markers -/

/-- The finished blocks, and the lines of the one being read. -/
abbrev Reading := List Block × Option (SessionArtifactRole × List String)

def flush : Reading → List Block
  | (out, none) => out
  | (out, some (role, lines)) =>
    let content := trim ("\n".intercalate lines)
    if content.isEmpty then out else out ++ [(role, content)]

/-- The line belongs to the block being read, if there is one. -/
def continued (reading : Reading) (line : String) : Reading :=
  (reading.1, reading.2.map fun current => (current.1, current.2 ++ [line]))

def readLine (toolId : String) (reading : Reading) (line : String) : Reading :=
  let trimmed := trim line
  if trimmed.isEmpty then continued reading ""
  else
    match marker toolId trimmed with
    | some (role, inline) => (flush reading, some (role, inline.toList))
    | none => continued reading trimmed

def blocks (toolId text : String) : List Block :=
  flush ((lines text).foldl (readLine toolId) ([], none))

/-! ## Codex desktop -/

def isCodexWorkStatus (line : String) : Bool :=
  ["Working for ", "Worked for "].any fun status =>
    (stripPrefix status line).any fun duration =>
      duration.toList.getLast? == some 's' &&
        duration.toList.all fun c => c.isDigit || c ∈ ['h', 'm', 's', ' ']

def isCodexResponseStop (line : String) : Bool :=
  line.toList.head? == some '@' || line.toList.all Char.isDigit ||
    line ∈ ["File", "Codex", "New task", "Scheduled", "Plugins", "Chat", "Projects", "Tasks",
      "Outputs", "Sources", "Web search", "View all", "Ask for follow-up changes", "Full access"]

def codexLines (text : String) : List String :=
  ((lines text).map trim).filter fun line => !line.isEmpty

/-- A block of these lines, unless there is nothing in it. -/
def joinedBlock (role : SessionArtifactRole) (body : List String) : List Block :=
  let content := "\n".intercalate body
  if content.isEmpty then [] else [(role, content)]

/-- What the first of the lines introduces. -/
def codexBlockAt : List String → List Block
  | [] => []
  | line :: rest =>
    if line = "Q" then
      match (rest.take 8).findIdx? fun candidate => candidate = "File" with
      | some fileIndex => joinedBlock .user ((rest.take 8).take fileIndex)
      | none => []
    else if isCodexWorkStatus line then
      joinedBlock .agent ((rest.takeWhile fun candidate => !isCodexResponseStop candidate).take 4)
    else []

def hasNavSignature (lines : List String) : Prop :=
  ∀ needle ∈ ["Codex", "New task", "Projects"], needle ∈ lines

instance (lines : List String) : Decidable (hasNavSignature lines) :=
  inferInstanceAs (Decidable (∀ needle ∈ _, _))

def codexDesktopBlocks (text : String) : List Block :=
  if hasNavSignature (codexLines text) then (codexLines text).tails.flatMap codexBlockAt else []

/-! ## Exchanges -/

def candidates (toolId text : String) : List Block :=
  if toolId = "codex" then codexDesktopBlocks text else blocks toolId text

def normalized (content : String) : String := " ".intercalate (splitWhitespace content)

/-- One of the texts contains the other. -/
def overlapping (a b : String) : Bool := contains a b || contains b a

/-- The roles and words seen, and the exchanges. -/
abbrev Extraction := List (SessionArtifactRole × String) × List ExtractedExchange

def extractBlock (frame : SessionContent) (extraction : Extraction) (block : Block) : Extraction :=
  let words := normalized block.2
  let duplicate := extraction.1.any fun seen => seen.1 = block.1 && overlapping seen.2 words
  if words.isEmpty || duplicate then extraction
  else (extraction.1 ++ [(block.1, words)],
    extraction.2 ++ [{ role := block.1, content := block.2, frameId := frame.frameId }])

def contentKey (content : SessionContent) : Int ×ₗ Int :=
  toLex (content.capturedAt, content.frameId)

def extractExchanges (toolId : String) (contents : List SessionContent) : List ExtractedExchange :=
  ((sortByKey contentKey contents).foldl (fun extraction frame =>
    (candidates toolId frame.contentText).foldl (extractBlock frame) extraction) ([], [])).2

end ScreenSearch.Sessions
