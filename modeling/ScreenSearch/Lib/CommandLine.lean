import Mathlib.Data.List.Basic
import Mathlib.Tactic.Common

/-!
# Command lines of Windows

How a program gets its arguments from the one text it is started with, by the rules of
`CommandLineToArgvW`: backslashes stand for themselves unless a quote follows them, two before
a quote are one, and one that is left over makes the quote a literal one. A blank ends an
argument outside of quotes. The program's own name knows no backslashes.

Main results:

* `read_slashes`, `read_literal`, `read_close`, `read_char` — what the reader does with each
  piece of an argument;
* `read_stops` — and with what stands behind it.
-/

namespace CommandLine

def isBlank (c : Char) : Bool := c == ' ' || c == '\t'

/-- Outside of quotes, inside, or right behind a closing one. -/
inductive Mode where
  | outside | inside | closed
  deriving DecidableEq, Repr

/-- Only the very next quote makes a pair. -/
def Mode.passed : Mode → Mode
  | .closed => .outside
  | mode => mode

/-- The argument that has been begun, if one has. -/
def ended (arg : Option (List Char)) (slashes : Nat) : List (List Char) :=
  if arg.isSome || decide (0 < slashes) then [arg.getD [] ++ List.replicate slashes '\\'] else []

/-- The arguments behind the program's name: what has been read of the one that is begun, the
backslashes just before, and where the quotes are. -/
def read : Option (List Char) → Nat → Mode → List Char → List (List Char)
  | arg, slashes, _, [] => ended arg slashes
  | arg, slashes, mode, c :: rest =>
    let half := arg.getD [] ++ List.replicate (slashes / 2) '\\'
    if c = '\\' then read arg (slashes + 1) mode.passed rest
    else if c = '"' then
      if slashes % 2 = 1 then read (some (half ++ ['"'])) 0 mode.passed rest
      else
        match mode with
        | .outside => read (some half) 0 .inside rest
        | .inside => read (some half) 0 .closed rest
        -- a pair is a quote, and opens again
        | .closed => read (some (half ++ ['"'])) 0 .inside rest
    else if isBlank c && decide (mode ≠ .inside) then ended arg slashes ++ read none 0 .outside rest
    else read (some (arg.getD [] ++ List.replicate slashes '\\' ++ [c])) 0 mode.passed rest

/-- The name is in quotes, or ends at a blank. -/
def program : List Char → List Char × List Char
  | '"' :: rest => (rest.takeWhile (· ≠ '"'), (rest.dropWhile (· ≠ '"')).drop 1)
  | line => (line.takeWhile fun c => !isBlank c, line.dropWhile fun c => !isBlank c)

def argv (line : List Char) : List (List Char) :=
  (program line).1 :: read none 0 .outside (program line).2

example : argv "\"a b\" c\\d \"e\\\\\" \"\\\"\"".toList =
    ["a b".toList, "c\\d".toList, "e\\".toList, "\"".toList] := by decide +kernel

variable {arg : Option (List Char)} {slashes : Nat} {mode : Mode} {rest : List Char}

theorem read_slash :
    read arg slashes mode ('\\' :: rest) = read arg (slashes + 1) mode.passed rest := by
  conv_lhs => rw [read.eq_def]
  exact if_pos rfl

theorem read_slashes (hMode : mode.passed = mode) (n : Nat) :
    read arg slashes mode (List.replicate n '\\' ++ rest) = read arg (slashes + n) mode rest := by
  induction n generalizing slashes with
  | zero => rfl
  | succ n ih =>
    rw [List.replicate_succ, List.cons_append, read_slash, hMode, ih]
    congr 1
    omega

/-- An odd number of backslashes before it makes a quote literal. -/
theorem read_literal (n : Nat) :
    read arg (n * 2 + 1) mode ('"' :: rest) =
      read (some (arg.getD [] ++ List.replicate n '\\' ++ ['"'])) 0 mode.passed rest := by
  conv_lhs => rw [read.eq_def]
  dsimp only
  rw [if_neg (by decide), if_pos rfl, if_pos (by omega), show (n * 2 + 1) / 2 = n by omega]

/-- A quote behind an even number closes, or opens. -/
theorem read_close (n : Nat) :
    read arg (n * 2) .inside ('"' :: rest) =
      read (some (arg.getD [] ++ List.replicate n '\\')) 0 .closed rest := by
  conv_lhs => rw [read.eq_def]
  dsimp only
  rw [if_neg (by decide), if_pos rfl, if_neg (by omega), show n * 2 / 2 = n by omega]

theorem read_open : read none 0 .outside ('"' :: rest) = read (some []) 0 .inside rest := by
  conv_lhs => rw [read.eq_def]
  rfl

/-- Any other scalar is itself, and so are the backslashes before it. -/
theorem read_char {c : Char} (hSlash : c ≠ '\\') (hQuote : c ≠ '"')
    (hBlank : isBlank c = true → mode = .inside) :
    read arg slashes mode (c :: rest) =
      read (some (arg.getD [] ++ List.replicate slashes '\\' ++ [c])) 0 mode.passed rest := by
  conv_lhs => rw [read.eq_def]
  dsimp only
  rw [if_neg hSlash, if_neg hQuote, if_neg]
  simpa using hBlank

/-- A blank ends what was begun. -/
theorem read_blank {c : Char} (h : isBlank c = true) (hMode : mode ≠ .inside) :
    read arg slashes mode (c :: rest) = ended arg slashes ++ read none 0 .outside rest := by
  have hSlash : c ≠ '\\' := by
    rintro rfl
    exact absurd h (by decide)
  have hQuote : c ≠ '"' := by
    rintro rfl
    exact absurd h (by decide)
  conv_lhs => rw [read.eq_def]
  dsimp only
  rw [if_neg hSlash, if_neg hQuote, if_pos (by simp [h, hMode])]

/-- What may come behind an argument. -/
def Stops (rest : List Char) : Prop := rest = [] ∨ ∃ c later, rest = c :: later ∧ isBlank c = true

/-- An argument that is begun ends where it stops. -/
theorem read_stops (hStops : Stops rest) (hMode : mode ≠ .inside) :
    read arg slashes mode rest = ended arg slashes ++ read none 0 .outside rest := by
  rcases hStops with rfl | ⟨c, later, rfl, hBlank⟩
  · rw [read, read]
    exact (List.append_nil _).symm
  · have hOutside : Mode.outside ≠ .inside := by decide
    rw [read_blank hBlank hMode, read_blank hBlank hOutside]
    rfl

end CommandLine
