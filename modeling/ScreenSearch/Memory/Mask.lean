import ScreenSearch.Lib.Leftmost
import ScreenSearch.Lib.Text

/-!
# Masking credentials

The credential pattern of the digest, one definition for each of its alternatives.
All repetitions are greedy and end before a scalar they cannot take, so there is
nothing to backtrack to. Matching is case-insensitive by simple folding.
-/

namespace ScreenSearch.Memory.Mask

open Leftmost Text

/-- The Unicode word characters, `\w`. -/
structure Words where
  isWord : Char → Bool
  digit : ∀ c, c.isDigit = true → isWord c = true

inductive Form where
  | bearer | assignment | key | botToken
  deriving DecidableEq, Repr

/-- A match: the value begins at `lead` and ends with the match. -/
structure Hit where
  form : Form
  lead : Nat
  size : Nat
  deriving DecidableEq, Repr

/-- Simple case folding onto ASCII: the long s and the Kelvin sign have letters too. -/
def fold (c : Char) : Char :=
  if c = Char.ofNat 0x17f then 's' else if c = Char.ofNat 0x212a then 'k' else c.toLower

/-- `[a-z0-9_-]` -/
def inClass (c : Char) : Bool := ('a' ≤ c && c ≤ 'z') || c.isDigit || c = '_' || c = '-'

def isToken (c : Char) : Bool := inClass (fold c)

def Opened (word : String) (rest : List Char) : Prop := word.toList <+: rest.map fold

instance (word : String) (rest : List Char) : Decidable (Opened word rest) :=
  inferInstanceAs (Decidable (_ <+: _))

def notSpace (c : Char) : Bool := !isWhitespace c

/-- `bearer\s+\S+` -/
def bearerHit (rest : List Char) : Option Hit :=
  if Opened "bearer" rest then
    let gap := (rest.drop 6).takeWhile isWhitespace
    let value := ((rest.drop 6).dropWhile isWhitespace).takeWhile notSpace
    if gap.isEmpty || value.isEmpty then none
    else some ⟨.bearer, 6 + gap.length, 6 + gap.length + value.length⟩
  else none

/-- `api[_ -]?key|password|token|secret` -/
def assignmentWords : List String :=
  ["apikey", "api_key", "api key", "api-key", "password", "token", "secret"]

/-- `(?:api[_ -]?key|password|token|secret)\s*[:=]\s*\S+` -/
def assignmentHit (rest : List Char) : Option Hit :=
  match assignmentWords.find? fun word => Opened word rest with
  | none => none
  | some word =>
    let behind := rest.drop word.toList.length
    let gap := behind.takeWhile isWhitespace
    match behind.dropWhile isWhitespace with
    | [] => none
    | sign :: assigned =>
      let space := assigned.takeWhile isWhitespace
      let value := (assigned.dropWhile isWhitespace).takeWhile notSpace
      if (sign = ':' ∨ sign = '=') ∧ ¬value.isEmpty then
        let lead := word.toList.length + gap.length + 1 + space.length
        some ⟨.assignment, lead, lead + value.length⟩
      else none

/-- `sk-[a-z0-9_-]{8,}` -/
def keyHit (rest : List Char) : Option Hit :=
  let key := (rest.drop 3).takeWhile isToken
  if Opened "sk-" rest ∧ 8 ≤ key.length then some ⟨.key, 0, 3 + key.length⟩ else none

/-- `\b[0-9]{6,}:[a-z0-9_-]{20,}`; a digit is a word character, so the boundary is there
exactly when there is none before it. -/
def botTokenHit (words : Words) (previous : Option Char) (rest : List Char) : Option Hit :=
  let digits := rest.takeWhile Char.isDigit
  match rest.dropWhile Char.isDigit with
  | [] => none
  | sign :: behind =>
    let key := behind.takeWhile isToken
    if previous.any words.isWord = false ∧ 6 ≤ digits.length ∧ sign = ':' ∧ 20 ≤ key.length then
      some ⟨.botToken, 0, digits.length + 1 + key.length⟩
    else none

/-- The match that begins behind `previous`. -/
def hitHere (words : Words) (previous : Option Char) (rest : List Char) : Option Hit :=
  (bearerHit rest).or <| (assignmentHit rest).or <| (keyHit rest).or <|
    botTokenHit words previous rest

/-- The occurrence of a credential form that begins at a position. -/
def hitAt (words : Words) (text : List Char) (i : Nat) : Option Hit :=
  hitHere words (if i = 0 then none else text[i - 1]?) (text.drop i)

def hitSize (words : Words) (text : List Char) (i : Nat) : Option Nat :=
  (hitAt words text i).map Hit.size

/-- The masked text, and where its characters are copied from. -/
def maskedChars (words : Words) (text : List Char) : List (Char × Option Nat) :=
  replaceFrom text "[credential redacted]".toList 0 (spans (hitSize words text) text.length)

def mask (words : Words) (text : String) : String :=
  String.ofList ((maskedChars words text.toList).map Prod.fst)

end ScreenSearch.Memory.Mask
