import Mathlib.Data.Fintype.Basic
import Mathlib.Tactic.Common

/-!
# Compact JSON

Values with whole numbers, their compact text, and a parser of such texts.

Main results:

* `parseBody_escaped` — an escaped string is read back;
* `parse_render` — so is every value, whatever follows it;
* `decode_render` — the text of a value is a document, and says that value only.
-/

inductive Json where
  | null
  | num (n : Int)
  | str (text : String)
  | arr (items : List Json)
  | obj (fields : List (String × Json))

namespace Json

/-! ## Strings -/

def hexDigit (n : Nat) : Char := "0123456789abcdef".toList.getD n '0'

def hexValue (c : Char) : Option Nat := "0123456789abcdef".toList.findIdx? (· == c)

/-- Quotes, backslashes and control characters are escaped, nothing else. -/
def escape (c : Char) : List Char :=
  if c = '"' then ['\\', '"']
  else if c = '\\' then ['\\', '\\']
  else if c = '\n' then ['\\', 'n']
  else if c = '\r' then ['\\', 'r']
  else if c = '\t' then ['\\', 't']
  else if c = Char.ofNat 8 then ['\\', 'b']
  else if c = Char.ofNat 12 then ['\\', 'f']
  else if c.toNat < 32 then
    ['\\', 'u', '0', '0', hexDigit (c.toNat / 16), hexDigit (c.toNat % 16)]
  else [c]

def unescape (c : Char) : Option Char :=
  if c = '"' then some '"'
  else if c = '\\' then some '\\'
  else if c = '/' then some '/'
  else if c = 'n' then some '\n'
  else if c = 'r' then some '\r'
  else if c = 't' then some '\t'
  else if c = 'b' then some (Char.ofNat 8)
  else if c = 'f' then some (Char.ofNat 12)
  else none

/-- Four hex digits of a code point below the surrogates. -/
def unicode (digits : List Char) : Option Char := do
  let values ← digits.mapM hexValue
  let n := values.foldl (fun n value => n * 16 + value) 0
  if n < 0xd800 then some (Char.ofNat n) else none

/-- What stands for a character behind a backslash. -/
def parseEscape : List Char → Option (Char × List Char)
  | 'u' :: h1 :: h2 :: h3 :: h4 :: rest => (unicode [h1, h2, h3, h4]).map fun c => (c, rest)
  | c :: rest => (unescape c).map fun c => (c, rest)
  | [] => none

/-- One character of a string. -/
def parseChar : List Char → Option (Char × List Char)
  | [] => none
  | c :: rest =>
    if c = '\\' then parseEscape rest
    else if c = '"' ∨ c.toNat < 32 then none
    else some (c, rest)

/-- The rest of a string behind its first quote. -/
def parseBody : Nat → List Char → Option (List Char × List Char)
  | 0, _ => none
  | fuel + 1, text =>
    if text.head? = some '"' then some ([], text.tail)
    else do
      let (c, rest) ← parseChar text
      let (tail, rest) ← parseBody fuel rest
      some (c :: tail, rest)

def renderString (text : String) : List Char := '"' :: text.toList.flatMap escape ++ ['"']

def parseString : List Char → Option (String × List Char)
  | [] => none
  | c :: rest =>
    if c = '"' then
      (parseBody rest.length rest).map fun (text, rest) => (String.ofList text, rest)
    else none

/-! ## Numbers -/

def renderInt : Int → List Char
  | .ofNat n => Nat.toDigits 10 n
  | .negSucc n => '-' :: Nat.toDigits 10 (n + 1)

/-- Digits without a leading zero. -/
def parseNat (text : List Char) : Option (Nat × List Char) :=
  let digits := text.takeWhile Char.isDigit
  if digits.isEmpty ∨ digits.head? = some '0' ∧ digits.length ≠ 1 then none
  else some (Nat.ofDigitChars 10 digits 0, text.dropWhile Char.isDigit)

def parseInt : List Char → Option (Int × List Char)
  | [] => none
  | c :: rest =>
    if c = '-' then (parseNat rest).map fun (n, rest) => (-(n : Int), rest)
    else (parseNat (c :: rest)).map fun (n, rest) => ((n : Int), rest)

/-! ## Values -/

mutual

def render : Json → List Char
  | null => "null".toList
  | num n => renderInt n
  | str text => renderString text
  | arr [] => ['[', ']']
  | arr (item :: items) => '[' :: render item ++ renderRest items ++ [']']
  | obj [] => ['{', '}']
  | obj ((key, value) :: fields) =>
    '{' :: renderString key ++ ':' :: render value ++ renderFields fields ++ ['}']

/-- The items behind the first one. -/
def renderRest : List Json → List Char
  | [] => []
  | item :: items => ',' :: render item ++ renderRest items

/-- The fields behind the first one. -/
def renderFields : List (String × Json) → List Char
  | [] => []
  | (key, value) :: fields =>
    ',' :: renderString key ++ ':' :: render value ++ renderFields fields

end

/-- Items with commas between them. -/
def commaJoined : List Json → List Char
  | [] => []
  | item :: items => render item ++ renderRest items

/-- A string and a colon. -/
def parseKey (text : List Char) : Option (String × List Char) := do
  let (key, rest) ← parseString text
  if rest.head? = some ':' then some (key, rest.tail) else none

mutual

def parse : Nat → List Char → Option (Json × List Char)
  | 0, _ => none
  | _ + 1, [] => none
  | fuel + 1, c :: rest =>
    if c = '"' then (parseString (c :: rest)).map fun (text, rest) => (str text, rest)
    else if c = '[' then
      if rest.head? = some ']' then some (arr [], rest.tail)
      else do
        let (item, rest) ← parse fuel rest
        let (items, rest) ← parseRest fuel rest
        some (arr (item :: items), rest)
    else if c = '{' then
      if rest.head? = some '}' then some (obj [], rest.tail)
      else do
        let (key, rest) ← parseKey rest
        let (value, rest) ← parse fuel rest
        let (fields, rest) ← parseFields fuel rest
        some (obj ((key, value) :: fields), rest)
    else if c = 'n' then
      if rest.take 3 = "ull".toList then some (null, rest.drop 3) else none
    else (parseInt (c :: rest)).map fun (n, rest) => (num n, rest)

def parseRest : Nat → List Char → Option (List Json × List Char)
  | 0, _ => none
  | _ + 1, [] => none
  | fuel + 1, c :: rest =>
    if c = ']' then some ([], rest)
    else if c = ',' then do
      let (item, rest) ← parse fuel rest
      let (items, rest) ← parseRest fuel rest
      some (item :: items, rest)
    else none

def parseFields : Nat → List Char → Option (List (String × Json) × List Char)
  | 0, _ => none
  | _ + 1, [] => none
  | fuel + 1, c :: rest =>
    if c = '}' then some ([], rest)
    else if c = ',' then do
      let (key, rest) ← parseKey rest
      let (value, rest) ← parse fuel rest
      let (fields, rest) ← parseFields fuel rest
      some ((key, value) :: fields, rest)
    else none

end

/-- A document is one value and nothing else. -/
def decode (text : List Char) : Option Json :=
  match parse text.length text with
  | some (value, []) => some value
  | _ => none

theorem render_arr (items : List Json) : render (arr items) = '[' :: commaJoined items ++ [']'] := by
  rcases items with - | ⟨item, items⟩
  · rfl
  · rfl

theorem renderRest_append (items others : List Json) :
    renderRest (items ++ others) = renderRest items ++ renderRest others := by
  induction items with
  | nil => rfl
  | cons item items ih => simp only [List.cons_append, renderRest, ih, List.append_assoc]

/-- Items that follow others, or are the first. -/
theorem commaJoined_append (items others : List Json) :
    commaJoined (items ++ others) =
      commaJoined items ++ (if items.isEmpty then commaJoined others else renderRest others) := by
  rcases items with - | ⟨item, items⟩
  · rfl
  · show render item ++ renderRest (items ++ others) = _ ++ renderRest others
    rw [renderRest_append, commaJoined, List.append_assoc]

/-! ## Strings are read back -/

theorem unicode_control : ∀ n : Fin 32,
    unicode ['0', '0', hexDigit (n.val / 16), hexDigit (n.val % 16)] = some (Char.ofNat n.val) := by
  decide

/-- One character of a string is read back. -/
theorem parseChar_escape (c : Char) (rest : List Char) :
    parseChar (escape c ++ rest) = some (c, rest) := by
  unfold escape
  split_ifs with hQuote hSlash hLine hReturn hTab hBack hFeed hControl
  · rw [hQuote]
    rfl
  · rw [hSlash]
    rfl
  · rw [hLine]
    rfl
  · rw [hReturn]
    rfl
  · rw [hTab]
    rfl
  · rw [hBack]
    rfl
  · rw [hFeed]
    rfl
  · have hCode := unicode_control ⟨c.toNat, hControl⟩
    dsimp only at hCode
    rw [Char.ofNat_toNat] at hCode
    show (unicode _).map _ = _
    rw [hCode]
    rfl
  · rw [List.singleton_append, parseChar, if_neg hSlash, if_neg (not_or.mpr ⟨hQuote, hControl⟩)]

/-- A character never begins with the quote that ends a string. -/
theorem escape_head (c : Char) : ∃ d rest, escape c = d :: rest ∧ d ≠ '"' := by
  unfold escape
  split_ifs with hQuote hSlash hLine hReturn hTab hBack hFeed hControl
  all_goals first
    | exact ⟨_, _, rfl, by decide⟩
    | exact ⟨_, _, rfl, hQuote⟩

theorem parseBody_escaped (text rest : List Char) :
    ∀ {fuel : Nat}, text.length < fuel →
      parseBody fuel (text.flatMap escape ++ '"' :: rest) = some (text, rest) := by
  induction text with
  | nil =>
    intro fuel hFuel
    obtain ⟨fuel, rfl⟩ := Nat.exists_eq_succ_of_ne_zero hFuel.ne'
    rfl
  | cons c text ih =>
    intro fuel hFuel
    obtain ⟨fuel, rfl⟩ := Nat.exists_eq_succ_of_ne_zero (Nat.ne_zero_of_lt hFuel)
    obtain ⟨d, others, hEscape, hPlain⟩ := escape_head c
    have hHead : (escape c ++ (text.flatMap escape ++ '"' :: rest)).head? ≠ some '"' := by
      rw [hEscape]
      exact fun hEq => hPlain (Option.some.inj hEq)
    rw [List.flatMap_cons, List.append_assoc, parseBody, if_neg hHead, parseChar_escape]
    show (parseBody fuel _ >>= fun _ => _) = _
    rw [ih (Nat.lt_of_succ_lt_succ hFuel)]
    rfl

theorem escaped_length (text : List Char) : text.length ≤ (text.flatMap escape).length := by
  induction text with
  | nil => exact le_rfl
  | cons c text ih =>
    obtain ⟨d, others, hEscape, -⟩ := escape_head c
    rw [List.flatMap_cons, List.length_append, hEscape, List.length_cons, List.length_cons]
    omega

theorem parseString_render (text : String) (rest : List Char) :
    parseString (renderString text ++ rest) = some (text, rest) := by
  have hText : renderString text ++ rest =
      '"' :: (text.toList.flatMap escape ++ '"' :: rest) := by simp [renderString]
  have hLength := escaped_length text.toList
  rw [hText, parseString, if_pos rfl, parseBody_escaped _ _ (by
    rw [List.length_append, List.length_cons]
    omega)]
  exact congrArg (fun read => some (read, rest)) String.ofList_toList

/-! ## Numbers are read back -/

/-- Digits end here. -/
def Ends (rest : List Char) : Prop := ∀ c ∈ rest.head?, c.isDigit = false

theorem toDigits_head {n : Nat} (h : 0 < n) : (Nat.toDigits 10 n).head? ≠ some '0' := by
  induction n using Nat.strong_induction_on with
  | h n ih =>
    by_cases hSmall : n < 10
    · have hDigit : ∀ d : Fin 10, 0 < d.val → [Nat.digitChar d.val].head? ≠ some '0' := by decide
      rw [Nat.toDigits_of_lt_base hSmall]
      exact hDigit ⟨n, hSmall⟩ h
    · rw [Nat.toDigits_of_base_le (by decide) (not_lt.mp hSmall)]
      have hLess := ih (n / 10) (Nat.div_lt_self h (by decide)) (by omega)
      rcases hDigits : Nat.toDigits 10 (n / 10) with - | ⟨c, digits⟩
      · exact absurd hDigits Nat.toDigits_ne_nil
      · rw [hDigits] at hLess
        exact hLess

theorem parseNat_digits (n : Nat) {rest : List Char} (hEnds : Ends rest) :
    parseNat (Nat.toDigits 10 n ++ rest) = some (n, rest) := by
  have hAll : ∀ c ∈ Nat.toDigits 10 n, c.isDigit = true :=
    fun c hc => Nat.isDigit_of_mem_toDigits (by decide) (by decide) hc
  have hStop : rest.takeWhile Char.isDigit = [] ∧ rest.dropWhile Char.isDigit = rest := by
    rcases rest with - | ⟨c, rest⟩
    · exact ⟨rfl, rfl⟩
    · have hc : c.isDigit = false := hEnds c rfl
      simp [hc]
  have hDigits : (Nat.toDigits 10 n ++ rest).takeWhile Char.isDigit = Nat.toDigits 10 n := by
    rw [List.takeWhile_append_of_pos hAll, hStop.1, List.append_nil]
  have hRest : (Nat.toDigits 10 n ++ rest).dropWhile Char.isDigit = rest := by
    rw [List.dropWhile_append_of_pos hAll, hStop.2]
  have hHead : ¬ ((Nat.toDigits 10 n).head? = some '0' ∧ (Nat.toDigits 10 n).length ≠ 1) := by
    rcases Nat.eq_zero_or_pos n with rfl | hPos
    · decide
    · exact fun h => toDigits_head hPos h.1
  unfold parseNat
  rw [hDigits, hRest, if_neg, Nat.ofDigitChars_ten_toDigits]
  rintro (hEmpty | hZero)
  · exact Nat.toDigits_ne_nil (List.isEmpty_iff.mp hEmpty)
  · exact hHead hZero

/-- A number begins with its sign or a digit. -/
theorem renderInt_head (n : Int) :
    ∃ c rest, renderInt n = c :: rest ∧ (c = '-' ∨ c.isDigit = true) := by
  rcases n with n | n
  · rcases hDigits : Nat.toDigits 10 n with - | ⟨c, digits⟩
    · exact absurd hDigits Nat.toDigits_ne_nil
    · refine ⟨c, digits, hDigits, Or.inr ?_⟩
      exact Nat.isDigit_of_mem_toDigits (by decide) (by decide) (hDigits ▸ List.mem_cons_self)
  · exact ⟨'-', _, rfl, Or.inl rfl⟩

theorem parseInt_render (n : Int) {rest : List Char} (hEnds : Ends rest) :
    parseInt (renderInt n ++ rest) = some (n, rest) := by
  rcases n with n | n
  · have hRead := parseNat_digits n hEnds
    obtain ⟨c, digits, hDigits, hc⟩ := renderInt_head (.ofNat n)
    change Nat.toDigits 10 n = c :: digits at hDigits
    have hPlain : c ≠ '-' := by
      have hDigit : c.isDigit = true :=
        Nat.isDigit_of_mem_toDigits (by decide) (by decide) (hDigits ▸ List.mem_cons_self)
      rintro rfl
      cases hDigit
    rw [hDigits] at hRead
    show parseInt (Nat.toDigits 10 n ++ rest) = _
    rw [hDigits, List.cons_append, parseInt, if_neg hPlain, ← List.cons_append, hRead]
    rfl
  · show parseInt ('-' :: (Nat.toDigits 10 (n + 1) ++ rest)) = _
    rw [parseInt, if_pos rfl, parseNat_digits (n + 1) hEnds]
    rfl

/-! ## Values are read back -/

theorem ends_items (items : List Json) (rest : List Char) :
    Ends (renderRest items ++ ']' :: rest) := by
  rcases items with - | ⟨item, items⟩
  all_goals
    rintro c ⟨⟩
    rfl

theorem ends_fields (fields : List (String × Json)) (rest : List Char) :
    Ends (renderFields fields ++ '}' :: rest) := by
  rcases fields with - | ⟨⟨key, value⟩, fields⟩
  all_goals
    rintro c ⟨⟩
    rfl

theorem parseKey_render (key : String) (rest : List Char) :
    parseKey (renderString key ++ ':' :: rest) = some (key, rest) := by
  unfold parseKey
  rw [parseString_render]
  rfl

/-- A value begins with none of the closing brackets. -/
theorem render_head (j : Json) : ∃ c rest, render j = c :: rest ∧ c ≠ ']' := by
  rcases j with - | n | text | items | fields
  · exact ⟨'n', _, rfl, by decide⟩
  · obtain ⟨c, rest, hEq, hHead⟩ := renderInt_head n
    refine ⟨c, rest, hEq, ?_⟩
    rintro rfl
    rcases hHead with hSign | hDigit
    · cases hSign
    · cases hDigit
  · exact ⟨'"', _, rfl, by decide⟩
  · rcases items with - | ⟨item, items⟩
    · exact ⟨'[', _, rfl, by decide⟩
    · exact ⟨'[', _, rfl, by decide⟩
  · rcases fields with - | ⟨⟨key, value⟩, fields⟩
    · exact ⟨'{', _, rfl, by decide⟩
    · exact ⟨'{', _, rfl, by decide⟩

theorem parse_num (n : Int) (fuel : Nat) {rest : List Char} (hEnds : Ends rest) :
    parse (fuel + 1) (renderInt n ++ rest) = some (num n, rest) := by
  obtain ⟨c, tail, hEq, hHead⟩ := renderInt_head n
  have hPlain : c ≠ '"' ∧ c ≠ '[' ∧ c ≠ '{' ∧ c ≠ 'n' := by
    refine ⟨?_, ?_, ?_, ?_⟩ <;>
      · rintro rfl
        rcases hHead with hSign | hDigit
        · cases hSign
        · cases hDigit
  have hRead := parseInt_render n hEnds
  rw [hEq] at hRead ⊢
  rw [List.cons_append, parse, if_neg hPlain.1, if_neg hPlain.2.1, if_neg hPlain.2.2.1,
    if_neg hPlain.2.2.2, ← List.cons_append, hRead]
  rfl

mutual

theorem parse_render : ∀ (j : Json) (fuel : Nat) (rest : List Char),
    (render j).length ≤ fuel → Ends rest → parse fuel (render j ++ rest) = some (j, rest)
  | null, fuel, rest, hFuel, _ => by
    obtain ⟨fuel, rfl⟩ := Nat.exists_eq_succ_of_ne_zero (Nat.ne_zero_of_lt hFuel)
    rfl
  | num n, fuel, rest, hFuel, hEnds => by
    obtain ⟨c, tail, hEq, -⟩ := renderInt_head n
    rw [render, hEq] at hFuel
    obtain ⟨fuel, rfl⟩ := Nat.exists_eq_succ_of_ne_zero (Nat.ne_zero_of_lt hFuel)
    rw [render]
    exact parse_num n fuel hEnds
  | str text, fuel, rest, hFuel, _ => by
    obtain ⟨fuel, rfl⟩ := Nat.exists_eq_succ_of_ne_zero (Nat.ne_zero_of_lt hFuel)
    have hRead := parseString_render text rest
    show (parseString (renderString text ++ rest)).map _ = _
    rw [hRead]
    rfl
  | arr [], fuel, rest, hFuel, _ => by
    obtain ⟨fuel, rfl⟩ := Nat.exists_eq_succ_of_ne_zero (Nat.ne_zero_of_lt hFuel)
    rfl
  | arr (item :: items), fuel, rest, hFuel, _ => by
    simp only [render, List.length_append, List.length_cons, List.length_nil] at hFuel
    obtain ⟨fuel, rfl⟩ := Nat.exists_eq_succ_of_ne_zero (Nat.ne_zero_of_lt hFuel)
    have hText : render (arr (item :: items)) ++ rest =
        '[' :: (render item ++ (renderRest items ++ ']' :: rest)) := by simp [render]
    obtain ⟨c, tail, hHead, hOpen⟩ := render_head item
    have hNotEmpty : (render item ++ (renderRest items ++ ']' :: rest)).head? ≠ some ']' := by
      rw [hHead]
      exact fun hEq => hOpen (Option.some.inj hEq)
    rw [hText, parse, if_neg (by decide), if_pos rfl, if_neg hNotEmpty,
      parse_render item fuel _ (by omega) (ends_items items rest)]
    show (parseRest fuel _ >>= fun _ => _) = _
    rw [parseRest_render items fuel rest (by omega)]
    rfl
  | obj [], fuel, rest, hFuel, _ => by
    obtain ⟨fuel, rfl⟩ := Nat.exists_eq_succ_of_ne_zero (Nat.ne_zero_of_lt hFuel)
    rfl
  | obj ((key, value) :: fields), fuel, rest, hFuel, _ => by
    simp only [render, List.length_append, List.length_cons, List.length_nil] at hFuel
    obtain ⟨fuel, rfl⟩ := Nat.exists_eq_succ_of_ne_zero (Nat.ne_zero_of_lt hFuel)
    have hText : render (obj ((key, value) :: fields)) ++ rest =
        '{' :: (renderString key ++ ':' :: (render value ++
          (renderFields fields ++ '}' :: rest))) := by
      simp [render]
    rw [hText, parse, if_neg (by decide), if_neg (by decide), if_pos rfl, if_neg (by
      rw [renderString]
      exact fun hEq => absurd (Option.some.inj hEq) (by decide)), parseKey_render]
    show (parse fuel _ >>= fun _ => _) = _
    rw [parse_render value fuel _ (by omega) (ends_fields fields rest)]
    show (parseFields fuel _ >>= fun _ => _) = _
    rw [parseFields_render fields fuel rest (by omega)]
    rfl

theorem parseRest_render : ∀ (items : List Json) (fuel : Nat) (rest : List Char),
    (renderRest items).length < fuel →
    parseRest fuel (renderRest items ++ ']' :: rest) = some (items, rest)
  | [], fuel, rest, hFuel => by
    obtain ⟨fuel, rfl⟩ := Nat.exists_eq_succ_of_ne_zero (Nat.ne_zero_of_lt hFuel)
    rfl
  | item :: items, fuel, rest, hFuel => by
    rw [renderRest, List.length_append, List.length_cons] at hFuel
    obtain ⟨fuel, rfl⟩ := Nat.exists_eq_succ_of_ne_zero (Nat.ne_zero_of_lt hFuel)
    rw [renderRest, List.cons_append, List.cons_append, List.append_assoc, parseRest,
      if_neg (by decide), if_pos rfl, parse_render item fuel _ (by omega) (ends_items items rest)]
    show (parseRest fuel _ >>= fun _ => _) = _
    rw [parseRest_render items fuel rest (by omega)]
    rfl

theorem parseFields_render : ∀ (fields : List (String × Json)) (fuel : Nat) (rest : List Char),
    (renderFields fields).length < fuel →
    parseFields fuel (renderFields fields ++ '}' :: rest) = some (fields, rest)
  | [], fuel, rest, hFuel => by
    obtain ⟨fuel, rfl⟩ := Nat.exists_eq_succ_of_ne_zero (Nat.ne_zero_of_lt hFuel)
    rfl
  | (key, value) :: fields, fuel, rest, hFuel => by
    rw [renderFields, List.length_append, List.length_append, List.length_cons,
      List.length_cons] at hFuel
    obtain ⟨fuel, rfl⟩ := Nat.exists_eq_succ_of_ne_zero (Nat.ne_zero_of_lt hFuel)
    have hText : renderFields ((key, value) :: fields) ++ '}' :: rest =
        ',' :: (renderString key ++ ':' :: (render value ++
          (renderFields fields ++ '}' :: rest))) := by
      simp [renderFields]
    rw [hText, parseFields, if_neg (by decide), if_pos rfl, parseKey_render]
    show (parse fuel _ >>= fun _ => _) = _
    rw [parse_render value fuel _ (by omega) (ends_fields fields rest)]
    show (parseFields fuel _ >>= fun _ => _) = _
    rw [parseFields_render fields fuel rest (by omega)]
    rfl

end

/-- The text of a value is a document of that value. -/
theorem decode_render (j : Json) : decode (render j) = some j := by
  have hRead := parse_render j (render j).length [] le_rfl (fun _ => nofun)
  rw [List.append_nil] at hRead
  rw [decode, hRead]

end Json
