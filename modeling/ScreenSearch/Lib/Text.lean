import Mathlib.Algebra.GroupWithZero.Nat
import Mathlib.Data.List.DropRight
import Mathlib.Data.List.Infix
import Mathlib.Data.List.TakeWhile
import Mathlib.Data.String.Basic

/-!
# Text: the string operations the models share

A Rust `str` is read as a Lean `String`, that is, as its list of Unicode scalar
values. The operations here are the ones of Rust's standard library under its
names; each works on the scalar list and has no notion of a byte offset.

* `isWhitespace` — the Unicode `White_Space` property, the 25 scalars that
  `str::trim` removes;
* `trim`, `trimEnd`, `trimEndMatches`, `toAsciiLowercase` — whole-string maps;
  `trim_isEmpty` says when a trimmed string is empty, `trim_trim` that it stays as it is,
  `toAsciiLowercase_idem` and `toAsciiLowercase_size` what a lowercase string keeps;
* `splitWhitespace`, `lines`, `splitOnce`, `splitFirst`, `stripPrefix`, `stripSuffix`,
  `contains` — search; `splitWhitespace_append` and `splitWhitespace_trimEnd` say what words a
  text has, `splitAtFirst_append` where it is split.
-/

namespace Text

/-- Unicode `White_Space`, the set of `char::is_whitespace`. -/
def isWhitespace (c : Char) : Bool :=
  (9 ≤ c.toNat && c.toNat ≤ 13) || c.toNat == 0x20 || c.toNat == 0x85 ||
  c.toNat == 0xa0 || c.toNat == 0x1680 ||
  (0x2000 ≤ c.toNat && c.toNat ≤ 0x200a) || c.toNat == 0x2028 ||
  c.toNat == 0x2029 || c.toNat == 0x202f || c.toNat == 0x205f ||
  c.toNat == 0x3000

/-- `str::trim`. -/
def trim (s : String) : String :=
  String.ofList ((s.toList.dropWhile isWhitespace).reverse.dropWhile isWhitespace).reverse

/-- Only white space, or nothing at all. -/
def isBlank (s : String) : Bool := s.toList.all isWhitespace

/-- What `trim` leaves is empty exactly for a blank string. -/
theorem trim_isEmpty (s : String) : (trim s).isEmpty = isBlank s := by
  have hdrop : ∀ l : List Char, l.dropWhile isWhitespace = [] ↔ l.all isWhitespace = true := by
    intro l
    rw [List.dropWhile_eq_nil_iff, List.all_eq_true]
  rw [Bool.eq_iff_iff, String.isEmpty_iff, isBlank, trim]
  rw [← hdrop, ← String.toList_inj, String.toList_ofList, String.toList_empty,
    List.reverse_eq_nil_iff, hdrop, List.all_reverse]
  refine ⟨fun h => ?_, fun h => by rw [h]; rfl⟩
  -- a scalar that stops the first scan would still be there for the second one
  by_contra hne
  have hhead := List.head_dropWhile_not isWhitespace hne
  have := List.all_eq_true.mp h _ (List.head_mem hne)
  rw [this] at hhead
  exact absurd hhead (by decide)

/-- A trimmed text has nothing more to trim. -/
theorem trim_trim (s : String) : trim (trim s) = trim s := by
  unfold trim
  rw [String.toList_ofList]
  show String.ofList (((s.toList.dropWhile isWhitespace).rdropWhile isWhitespace).dropWhile
    isWhitespace |>.rdropWhile isWhitespace) = _
  -- the front of what the first scan leaves is no white space, cut behind or not
  have hFront : ((s.toList.dropWhile isWhitespace).rdropWhile isWhitespace).dropWhile isWhitespace =
      (s.toList.dropWhile isWhitespace).rdropWhile isWhitespace := by
    have hPrefix := List.rdropWhile_prefix isWhitespace (s.toList.dropWhile isWhitespace)
    rw [List.dropWhile_eq_self_iff]
    intro hSome
    rw [hPrefix.getElem hSome]
    exact List.dropWhile_eq_self_iff.mp (List.dropWhile_idempotent isWhitespace s.toList) _
  rw [hFront, List.rdropWhile_idempotent]
  rfl

/-- `str::trim_start`. -/
def trimStart (s : String) : String := String.ofList (s.toList.dropWhile isWhitespace)

/-- `str::trim_end`. -/
def trimEnd (s : String) : String :=
  String.ofList (s.toList.reverse.dropWhile isWhitespace).reverse

/-- `str::split_whitespace`. -/
def splitWhitespace (s : String) : List String :=
  ((s.toList.splitOnP isWhitespace).filter fun word => !word.isEmpty).map String.ofList

/-- `str::split` with a `char` pattern. -/
def split (c : Char) (s : String) : List String :=
  (s.toList.splitOnP (· == c)).map String.ofList

/-- `str::lines`: the end of a line is `\n` or `\r\n`, and a last line without one counts
if it is not empty. -/
def lines (s : String) : List String :=
  let pieces := s.toList.splitOnP (· == '\n')
  (pieces.dropLast.map (fun piece =>
      if piece.getLast? = some '\r' then piece.dropLast else piece) ++
    pieces.getLast?.toList.filter fun piece => !piece.isEmpty).map String.ofList

/-- No word spans white space. -/
theorem splitWhitespace_append_cons {c : Char} (hc : isWhitespace c = true) (s t : List Char) :
    splitWhitespace (String.ofList (s ++ c :: t)) =
      splitWhitespace (String.ofList s) ++ splitWhitespace (String.ofList t) := by
  unfold splitWhitespace
  rw [String.toList_ofList, String.toList_ofList, String.toList_ofList,
    List.splitOnP_append_cons _ _ hc, List.filter_append, List.map_append]

theorem splitWhitespace_of_isBlank {s : List Char} (h : s.all isWhitespace = true) :
    splitWhitespace (String.ofList s) = [] := by
  induction s with
  | nil => rfl
  | cons c s ih =>
    rw [List.all_cons, Bool.and_eq_true] at h
    have hSplit := splitWhitespace_append_cons h.1 [] s
    rw [List.nil_append, ih h.2, List.append_nil] at hSplit
    exact hSplit

/-- White space at the end holds no word. -/
theorem splitWhitespace_append_blank {s t : List Char} (h : t.all isWhitespace = true) :
    splitWhitespace (String.ofList (s ++ t)) = splitWhitespace (String.ofList s) := by
  rcases t with _ | ⟨c, t⟩
  · rw [List.append_nil]
  · rw [List.all_cons, Bool.and_eq_true] at h
    rw [splitWhitespace_append_cons h.1, splitWhitespace_of_isBlank h.2, List.append_nil]

/-- A scalar that is no white space is in a word. -/
theorem splitWhitespace_ne_nil {s : List Char} (h : ∃ c ∈ s, isWhitespace c = false) :
    splitWhitespace (String.ofList s) ≠ [] := by
  induction s with
  | nil =>
    obtain ⟨c, hc, -⟩ := h
    cases hc
  | cons d s ih =>
    rcases hd : isWhitespace d with _ | _
    · -- a word begins here
      obtain ⟨word, words, hSplit⟩ :=
        List.exists_cons_of_ne_nil (List.splitOnP_ne_nil isWhitespace s)
      unfold splitWhitespace
      rw [String.toList_ofList, List.splitOnP_cons_eq_if_modifyHead, hd, hSplit]
      simp
    · have hRest : ∃ c ∈ s, isWhitespace c = false := by
        obtain ⟨c, hc, hWord⟩ := h
        rcases List.mem_cons.mp hc with rfl | hc
        · rw [hd] at hWord
          cases hWord
        · exact ⟨c, hc, hWord⟩
      have hSplit := splitWhitespace_append_cons hd [] s
      rw [List.nil_append, show splitWhitespace (String.ofList []) = [] from rfl,
        List.nil_append] at hSplit
      rw [hSplit]
      exact ih hRest

/-- What `trim` leaves has words, if it leaves anything. -/
theorem splitWhitespace_trim {s : String} (h : (trim s).isEmpty = false) :
    splitWhitespace (trim s) ≠ [] := by
  unfold trim at h ⊢
  generalize (s.toList.dropWhile isWhitespace).reverse = l at h ⊢
  refine splitWhitespace_ne_nil ?_
  have hSome : l.dropWhile isWhitespace ≠ [] := by
    intro hNil
    rw [hNil] at h
    exact absurd h (by decide)
  exact ⟨_, List.mem_reverse.mpr (List.head_mem hSome), List.head_dropWhile_not isWhitespace hSome⟩

theorem splitWhitespace_trimEnd (s : String) :
    splitWhitespace (trimEnd s) = splitWhitespace s := by
  have hSplit : s.toList = (s.toList.reverse.dropWhile isWhitespace).reverse ++
      (s.toList.reverse.takeWhile isWhitespace).reverse := by
    rw [← List.reverse_append, List.takeWhile_append_dropWhile, List.reverse_reverse]
  conv_rhs => rw [← String.ofList_toList (s := s), hSplit]
  rw [splitWhitespace_append_blank]
  · rfl
  · rw [List.all_reverse, List.all_eq_true]
    exact fun c hc => List.mem_takeWhile_imp hc

/-- A text that is empty or ends in white space, and one after it. -/
theorem splitWhitespace_append {s : String} (h : s = "" ∨ ∃ t c, s.toList = t ++ [c] ∧
    isWhitespace c = true) (r : String) :
    splitWhitespace (s ++ r) = splitWhitespace s ++ splitWhitespace r := by
  rcases h with rfl | ⟨t, c, hSplit, hc⟩
  · rw [String.empty_append]
    rfl
  · have hAll : s ++ r = String.ofList (t ++ c :: r.toList) := by
      rw [← String.ofList_toList (s := s ++ r), String.toList_append, hSplit, List.append_assoc]
      rfl
    have hFirst : s = String.ofList (t ++ [c]) := by
      rw [← hSplit, String.ofList_toList]
    rw [hAll, splitWhitespace_append_cons hc, String.ofList_toList, hFirst,
      splitWhitespace_append_blank (by simp [hc])]

/-- The words of the lines are the words of the text. -/
theorem splitWhitespace_split {c : Char} (hc : isWhitespace c = true) (s : String) :
    (split c s).flatMap splitWhitespace = splitWhitespace s := by
  have hLines : ∀ n : Nat, ∀ l : List Char, l.length ≤ n →
      ((l.splitOnP (· == c)).map String.ofList).flatMap splitWhitespace =
        splitWhitespace (String.ofList l) := by
    intro n
    induction n with
    | zero =>
      intro l hl
      rw [List.length_eq_zero_iff.mp (Nat.le_zero.mp hl)]
      rfl
    | succ n ih =>
      intro l hl
      by_cases hIn : c ∈ l
      · obtain ⟨before, after, rfl, hBefore⟩ := List.eq_append_cons_of_mem hIn
        rw [List.splitOnP_append_cons (p := (· == c)) _ _ (beq_self_eq_true c), List.map_append,
          List.flatMap_append, splitWhitespace_append_cons hc, ih before, ih after]
        all_goals
          rw [List.length_append, List.length_cons] at hl
          omega
      · have hNone : ∀ d ∈ l, (d == c) = false := by
          intro d hd
          rw [beq_eq_false_iff_ne]
          rintro rfl
          exact hIn hd
        rw [List.splitOnP_eq_singleton hNone]
        exact List.append_nil _
  rw [split, hLines s.toList.length s.toList (Nat.le_refl _), String.ofList_toList]

/-- `str::trim_end_matches` with a `char` pattern. -/
def trimEndMatches (c : Char) (s : String) : String :=
  String.ofList (s.toList.reverse.dropWhile (· == c)).reverse

/-- `str::to_ascii_lowercase`. -/
def toAsciiLowercase (s : String) : String :=
  String.ofList (s.toList.map Char.toLower)

theorem utf8ByteSize_ofList (chars : List Char) :
    (String.ofList chars).utf8ByteSize = (chars.map Char.utf8Size).sum := by
  induction chars with
  | nil => rfl
  | cons c chars ih =>
    rw [String.ofList_cons, String.utf8ByteSize_append, String.utf8ByteSize_singleton, ih,
      List.map_cons, List.sum_cons]

/-- Scalars that take a byte each. -/
theorem utf8ByteSize_eq_length {chars : List Char} (h : ∀ c ∈ chars, c.utf8Size = 1) :
    (String.ofList chars).utf8ByteSize = chars.length := by
  rw [utf8ByteSize_ofList, List.map_congr_left h, List.map_const', List.sum_replicate_nat,
    Nat.mul_one]

/-- Only capital letters change, to small ones. -/
theorem toLower_cases (c : Char) :
    c.toLower = c ∨ c.val ≤ 127 ∧ c.toLower.val ≤ 127 ∧ 'Z'.val < c.toLower.val := by
  unfold Char.toLower
  split
  · next hUpper =>
    refine .inr ?_
    have hA : 'A'.val.toNat = 65 := rfl
    have hZ : 'Z'.val.toNat = 90 := rfl
    have hLow := UInt32.le_iff_toNat_le.mp hUpper.1
    have hHigh := UInt32.le_iff_toNat_le.mp hUpper.2
    have hSum : (c.val + ('a'.val - 'A'.val)).toNat = c.val.toNat + 32 := by
      rw [UInt32.toNat_add]
      show (c.val.toNat + 32) % 2 ^ 32 = _
      omega
    refine ⟨UInt32.le_iff_toNat_le.mpr ?_, UInt32.le_iff_toNat_le.mpr ?_,
      UInt32.lt_iff_toNat_lt.mpr ?_⟩
    · show c.val.toNat ≤ 127
      omega
    · show (c.val + ('a'.val - 'A'.val)).toNat ≤ 127
      omega
    · show _ < (c.val + ('a'.val - 'A'.val)).toNat
      omega
  · exact .inl rfl

theorem toLower_toLower (c : Char) : c.toLower.toLower = c.toLower := by
  rcases toLower_cases c with hSame | ⟨-, -, hAbove⟩
  · rw [hSame, hSame]
  · unfold Char.toLower
    rw [dif_neg]
    exact fun hUpper => absurd hUpper.2 (UInt32.not_le.mpr hAbove)

theorem toAsciiLowercase_idem (s : String) :
    toAsciiLowercase (toAsciiLowercase s) = toAsciiLowercase s := by
  unfold toAsciiLowercase
  rw [String.toList_ofList, List.map_map]
  exact congrArg String.ofList (List.map_congr_left fun c _ => toLower_toLower c)

/-- The first occurrence of `sep`, as what stands before and after it. -/
def splitAtFirst (sep : List Char) : List Char → Option (List Char × List Char)
  | [] => if sep = [] then some ([], []) else none
  | c :: cs =>
    if sep <+: c :: cs then some ([], (c :: cs).drop sep.length)
    else (splitAtFirst sep cs).map fun parts => (c :: parts.1, parts.2)

/-- `str::split_once`. -/
def splitOnce (sep s : String) : Option (String × String) :=
  (splitAtFirst sep.toList s.toList).map fun parts =>
    (String.ofList parts.1, String.ofList parts.2)

/-- The first occurrence is the one before which none begins. -/
theorem splitAtFirst_append {sep : List Char} (hSep : sep ≠ []) (before after : List Char)
    (hFirst : ∀ l r, before = l ++ r → r ≠ [] → ¬sep <+: r ++ (sep ++ after)) :
    splitAtFirst sep (before ++ (sep ++ after)) = some (before, after) := by
  induction before with
  | nil =>
    rcases sep with _ | ⟨c, sep⟩
    · exact absurd rfl hSep
    · rw [List.nil_append, List.cons_append, splitAtFirst,
        if_pos (List.cons_prefix_cons.mpr ⟨rfl, List.prefix_append _ _⟩), ← List.cons_append,
        List.drop_left]
  | cons c before ih =>
    have hHere : ¬sep <+: c :: (before ++ (sep ++ after)) := by
      rw [← List.cons_append]
      exact hFirst [] (c :: before) rfl (by simp)
    rw [List.cons_append, splitAtFirst, if_neg hHere, ih]
    · rfl
    · intro l r hSplit hNonempty
      exact hFirst (c :: l) r (by rw [hSplit, List.cons_append]) hNonempty

/-- `s.split(pattern).next()` for a pattern that is a set of scalars. -/
def splitFirst (pattern : List Char) (s : String) : String :=
  String.ofList (s.toList.takeWhile fun c => c ∉ pattern)

/-- `str::strip_prefix`. -/
def stripPrefix (affix s : String) : Option String :=
  (s.toList.dropPrefix? affix.toList).map fun rest => String.ofList rest

/-- `str::strip_suffix`. -/
def stripSuffix (affix s : String) : Option String :=
  (s.toList.dropSuffix? affix.toList).map fun rest => String.ofList rest

/-- `str::contains` with a string pattern. -/
def contains (s pattern : String) : Bool :=
  decide (pattern.toList <:+: s.toList)

end Text
