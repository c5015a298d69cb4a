import ScreenSearch.Memory.Mask

/-!
# What masking leaves

A credential form that begins inside a replaced match may reach behind it, and what
is behind it is searched on its own. Its value begins there, since the match ends in
its keyword or in the gap behind; nothing else can begin in what is left of these, so
the value is removed exactly when a form begins with it and reaches to its end.

Main results:

* `hitAt_shape` — what stands at the positions of a match;
* `Shape.run` — a form inside a match stands in the run of scalars that ends it;
* `Shape.behind` — what of it is behind the match begins no form;
* `complete_iff_wholeBehind` — when masking removes every value.
-/

namespace ScreenSearch.Memory.Mask

open Leftmost Text

/-! ## Stretches of a text -/

/-- The scalars of a stretch all have a property. -/
def All (text : List Char) (low high : Nat) (p : Char → Bool) : Prop :=
  ∀ j, low ≤ j → j < high → ∀ c, text[j]? = some c → p c = true

/-- A stretch goes no further than here. -/
def Stops (text : List Char) (high : Nat) (p : Char → Bool) : Prop :=
  ∀ c, text[high]? = some c → p c = false

variable {text a b : List Char} {i j : Nat}

theorem drop_behind (h : text.drop i = a ++ b) : text.drop (i + a.length) = b := by
  rw [← List.drop_drop, h, List.drop_left]

theorem all_of_drop {p : Char → Bool} (h : text.drop i = a ++ b) (hAll : ∀ c ∈ a, p c = true) :
    All text i (i + a.length) p := by
  intro j hLow hHigh c hGet
  obtain ⟨k, rfl⟩ := Nat.exists_eq_add_of_le hLow
  rw [← List.getElem?_drop, h, List.getElem?_append_left (by omega)] at hGet
  exact hAll c (List.mem_of_getElem? hGet)

theorem stops_of_drop {p : Char → Bool} (h : text.drop i = b.dropWhile p) : Stops text i p := by
  intro c hGet
  rw [← List.head?_drop, h] at hGet
  have hNot := List.head?_dropWhile_not p b
  rw [hGet] at hNot
  exact hNot

theorem getElem?_of_lt (h : j < text.length) : ∃ c, text[j]? = some c :=
  ⟨text[j], List.getElem?_eq_getElem h⟩

/-! ## Scalars -/

/-- What may stand between a keyword and its value. -/
def isGap (c : Char) : Bool := isWhitespace c || c = ':' || c = '='

/-- The beginnings of the forms that do not begin with a digit. -/
def openers : List String := "bearer" :: "sk-" :: assignmentWords

def keywords : List String := "bearer" :: assignmentWords

/-- What a form may begin with. -/
def Opens (c : Char) : Prop := fold c ∈ ['b', 's', 'a', 'p', 't'] ∨ c.isDigit = true

theorem fold_same {c : Char} (hUpper : ¬(65 ≤ c.toNat ∧ c.toNat ≤ 90)) (hLong : c.toNat ≠ 0x17f)
    (hKelvin : c.toNat ≠ 0x212a) : fold c = c := by
  unfold fold
  rw [if_neg (fun h => hLong (by rw [h]; rfl)), if_neg (fun h => hKelvin (by rw [h]; rfl))]
  unfold Char.toLower
  rw [dif_neg]
  rintro ⟨hLow, hHigh⟩
  exact hUpper ⟨UInt32.le_iff_toNat_le.mp hLow, UInt32.le_iff_toNat_le.mp hHigh⟩

theorem isDigit_iff {c : Char} : c.isDigit = true ↔ 48 ≤ c.toNat ∧ c.toNat ≤ 57 :=
  Char.isDigit_iff_toNat

theorem inClass_iff {c : Char} : inClass c = true ↔ (97 ≤ c.toNat ∧ c.toNat ≤ 122) ∨
    (48 ≤ c.toNat ∧ c.toNat ≤ 57) ∨ c.toNat = 95 ∨ c.toNat = 45 := by
  have hCode : ∀ d : Char, c = d ↔ c.toNat = d.toNat := fun d =>
    ⟨fun h => by rw [h], fun h => Char.toNat_inj.mp h⟩
  unfold inClass
  rw [Bool.or_eq_true, Bool.or_eq_true, Bool.or_eq_true, Bool.and_eq_true, isDigit_iff,
    decide_eq_true_eq, decide_eq_true_eq, decide_eq_true_eq, decide_eq_true_eq, hCode '_',
    hCode '-', or_assoc, or_assoc, Char.le_def, Char.le_def, UInt32.le_iff_toNat_le,
    UInt32.le_iff_toNat_le]
  exact Iff.rfl

theorem isGap_code {c : Char} (h : isGap c = true) : c.toNat = 58 ∨ c.toNat = 61 ∨
    c.toNat ≤ 32 ∨ (133 ≤ c.toNat ∧ c.toNat ≠ 0x17f ∧ c.toNat ≠ 0x212a) := by
  unfold isGap isWhitespace at h
  simp only [Bool.or_eq_true, Bool.and_eq_true, decide_eq_true_eq, beq_iff_eq] at h
  rcases h with (h | rfl) | rfl
  · omega
  · exact Or.inl rfl
  · exact Or.inr (Or.inl rfl)

theorem fold_gap {c : Char} (h : isGap c = true) : fold c = c := by
  have := isGap_code h
  exact fold_same (by omega) (by omega) (by omega)

theorem fold_digit {c : Char} (h : c.isDigit = true) : fold c = c := by
  have := isDigit_iff.mp h
  exact fold_same (by omega) (by omega) (by omega)

theorem isGap_not_token {c : Char} (h : isGap c = true) : isToken c = false := by
  have := isGap_code h
  unfold isToken
  rw [fold_gap h, Bool.eq_false_iff, Ne, inClass_iff]
  omega

theorem isWhitespace_gap {c : Char} (h : isWhitespace c = true) : isGap c = true := by
  unfold isGap
  rw [h]
  rfl

theorem isToken_notSpace {c : Char} (h : isToken c = true) : notSpace c = true := by
  unfold notSpace
  rcases hSpace : isWhitespace c with _ | _
  · rfl
  · rw [isGap_not_token (isWhitespace_gap hSpace)] at h
    cases h

theorem isDigit_token {c : Char} (h : c.isDigit = true) : isToken c = true := by
  have := isDigit_iff.mp h
  unfold isToken
  rw [fold_digit h, inClass_iff]
  omega

theorem Opens.token {c : Char} (h : Opens c) : isToken c = true := by
  rcases h with hLetter | hDigit
  · have hClass : ['b', 's', 'a', 'p', 't'].all inClass = true := by decide
    exact List.all_eq_true.mp hClass _ hLetter
  · exact isDigit_token hDigit

/-! ## Keywords -/

/-- A keyword stands at a position, in any case. -/
def Spelled (text : List Char) (i : Nat) (word : String) : Prop :=
  ∀ k d, word.toList[k]? = some d → ∃ c, text[i + k]? = some c ∧ fold c = d

theorem spelled_of_opened {word : String} (h : Opened word (text.drop i)) :
    Spelled text i word := by
  intro k d hGet
  obtain ⟨rest, hSplit⟩ := h
  have hFold : ((text.drop i).map fold)[k]? = some d := by
    rw [← hSplit, List.getElem?_append_left (List.getElem?_eq_some_iff.mp hGet).1]
    exact hGet
  rw [List.getElem?_map, List.getElem?_drop] at hFold
  exact Option.map_eq_some_iff.mp hFold

/-- Whether two words can be told apart from `k` on, when a gap stands behind the first. -/
def Differ (word opener : List Char) (k : Nat) : Prop :=
  ∃ m < opener.length, m + k < word.length ∧ word[m + k]? ≠ opener[m]? ∨
    m + k = word.length ∧ opener[m]?.any isGap = false

instance (word opener : List Char) (k : Nat) : Decidable (Differ word opener k) :=
  inferInstanceAs (Decidable (∃ m < opener.length, _))

/-- What of a keyword begins no form: all but its first scalar, and all from a space on. -/
structure KeywordShape (word : List Char) : Prop where
  first : ∃ d ∈ ['b', 's', 'a', 'p', 't'], word.head? = some d
  inside : ∀ k < word.length, 0 < k → ∀ opener ∈ openers, Differ word opener.toList k
  scalars : ∀ d ∈ word, d.isDigit = false ∧
    (d = ' ' ∨ inClass d = true ∧ isWhitespace d = false)
  behind : ∀ low < word.length, word[low]? = some ' ' →
    ∀ d ∈ word.drop low, d ∉ ['b', 's', 'a', 'p', 't']

theorem keywords_first : ∀ word ∈ keywords,
    ∃ d ∈ ['b', 's', 'a', 'p', 't'], word.toList.head? = some d := by
  have hChecked : keywords.all (fun word =>
      ['b', 's', 'a', 'p', 't'].any (fun d => word.toList.head? == some d)) = true := by
    decide
  simpa only [List.all_eq_true, List.any_eq_true, beq_iff_eq] using hChecked

theorem keywords_inside : ∀ word ∈ keywords, ∀ k < word.toList.length, 0 < k →
    ∀ opener ∈ openers, Differ word.toList opener.toList k := by
  have hChecked : keywords.all (fun word => (List.range word.toList.length).all fun k =>
      k == 0 || openers.all fun opener => decide (Differ word.toList opener.toList k)) = true := by
    decide +kernel
  intro word hWord k hk hPos opener hOpener
  have hHere := List.all_eq_true.mp (List.all_eq_true.mp hChecked word hWord) k
    (List.mem_range.mpr hk)
  rcases Bool.or_eq_true_iff.mp hHere with hZero | hAll
  · exact absurd (beq_iff_eq.mp hZero) (Nat.pos_iff_ne_zero.mp hPos)
  · exact of_decide_eq_true (List.all_eq_true.mp hAll opener hOpener)

theorem keywords_scalars : ∀ word ∈ keywords, ∀ d ∈ word.toList,
    d.isDigit = false ∧ (d = ' ' ∨ inClass d = true ∧ isWhitespace d = false) := by
  have hChecked : keywords.all (fun word => word.toList.all fun d =>
      !d.isDigit && (d == ' ' || inClass d && !isWhitespace d)) = true := by
    decide
  simpa only [List.all_eq_true, Bool.and_eq_true, Bool.or_eq_true, Bool.not_eq_true',
    beq_iff_eq] using hChecked

theorem keywords_behind : ∀ word ∈ keywords, ∀ low < word.toList.length,
    word.toList[low]? = some ' ' → ∀ d ∈ word.toList.drop low, d ∉ ['b', 's', 'a', 'p', 't'] := by
  have hChecked : keywords.all (fun word => (List.range word.toList.length).all fun low =>
      !(word.toList[low]? == some ' ') ||
        (word.toList.drop low).all fun d => !(['b', 's', 'a', 'p', 't'].contains d)) = true := by
    decide +kernel
  intro word hWord low hLow hSpace d hIn hLetter
  have hHere := List.all_eq_true.mp (List.all_eq_true.mp hChecked word hWord) low
    (List.mem_range.mpr hLow)
  rw [hSpace, beq_self_eq_true, Bool.not_true, Bool.false_or] at hHere
  have hNot := List.all_eq_true.mp hHere d hIn
  rw [List.contains_iff_mem.mpr hLetter] at hNot
  cases hNot

theorem keywords_shape : ∀ word ∈ keywords, KeywordShape word.toList :=
  fun word hWord => ⟨keywords_first word hWord, keywords_inside word hWord,
    keywords_scalars word hWord, keywords_behind word hWord⟩

/-! ## Matches -/

/-- A keyword, a gap, and a value up to the next space. -/
structure SpokenAt (text : List Char) (i : Nat) (h : Hit) : Prop where
  keyword : ∃ word ∈ keywords, Spelled text i word ∧ word.toList.length < h.lead ∧
    All text (i + word.toList.length) (i + h.lead) isGap
  filled : h.lead < h.size
  bound : i + h.size ≤ text.length
  value : All text (i + h.lead) (i + h.size) notSpace
  stops : Stops text (i + h.size) notSpace

/-- A key is all value. -/
structure KeyAt (text : List Char) (i : Nat) (h : Hit) : Prop where
  opened : Spelled text i "sk-"
  lead : h.lead = 0
  long : 3 < h.size
  bound : i + h.size ≤ text.length
  body : All text i (i + h.size) isToken
  stops : Stops text (i + h.size) isToken

/-- Digits, a colon and a key, all of it value. -/
structure BotTokenAt (words : Words) (text : List Char) (i : Nat) (h : Hit) : Prop where
  lead : h.lead = 0
  bound : i + h.size ≤ text.length
  boundary : i = 0 ∨ ∀ c, text[i - 1]? = some c → words.isWord c = false
  colon : ∃ mid, i < mid ∧ mid < i + h.size ∧ All text i mid Char.isDigit ∧
    text[mid]? = some ':' ∧ All text (mid + 1) (i + h.size) isToken
  stops : Stops text (i + h.size) isToken

inductive Shape (words : Words) (text : List Char) (i : Nat) (h : Hit) : Prop
  | spoken : SpokenAt text i h → Shape words text i h
  | key : KeyAt text i h → Shape words text i h
  | botToken : BotTokenAt words text i h → Shape words text i h

theorem scan (text : List Char) (i : Nat) {rest : List Char} (p : Char → Bool)
    (h : text.drop i = rest) :
    All text i (i + (rest.takeWhile p).length) p ∧
      text.drop (i + (rest.takeWhile p).length) = rest.dropWhile p ∧
      (rest.takeWhile p).length ≤ text.length - i := by
  have hSplit : text.drop i = rest.takeWhile p ++ rest.dropWhile p := by
    rw [h, List.takeWhile_append_dropWhile]
  refine ⟨all_of_drop hSplit fun c hc => List.mem_takeWhile_imp hc, drop_behind hSplit, ?_⟩
  rw [← List.length_drop, hSplit, List.length_append]
  omega

theorem All.mono {p q : Char → Bool} {low high : Nat} (h : All text low high p)
    (hSub : ∀ c, p c = true → q c = true) : All text low high q :=
  fun j hLow hHigh c hGet => hSub c (h j hLow hHigh c hGet)

theorem All.join {p : Char → Bool} {low mid high : Nat} (h : All text low mid p)
    (h' : All text mid high p) : All text low high p := by
  intro j hLow hHigh
  rcases Nat.lt_or_ge j mid with hBefore | hBehind
  · exact h j hLow hBefore
  · exact h' j hBehind hHigh

theorem bearerHit_spoken {h : Hit} (hHit : bearerHit (text.drop i) = some h) :
    SpokenAt text i h := by
  unfold bearerHit at hHit
  split at hHit
  · rename_i hOpened
    dsimp only at hHit
    split at hHit
    · cases hHit
    · rename_i hParts
      rw [Bool.or_eq_true, not_or, List.isEmpty_iff, List.isEmpty_iff] at hParts
      obtain ⟨hGap, hBehind, -⟩ :=
        scan text (i + 6) isWhitespace List.drop_drop.symm
      obtain ⟨hValue, hRest, hBound⟩ := scan text _ notSpace hBehind
      have hGapLength := List.length_pos_of_ne_nil hParts.1
      have hValueLength := List.length_pos_of_ne_nil hParts.2
      obtain rfl := Option.some.inj hHit
      refine ⟨⟨"bearer", List.mem_cons_self .., spelled_of_opened hOpened, ?_, ?_⟩, ?_, ?_, ?_, ?_⟩
      · show 6 < _
        dsimp only
        omega
      · show All text (i + 6) (i + (6 + _)) isGap
        rw [← Nat.add_assoc]
        exact hGap.mono fun c => isWhitespace_gap
      · dsimp only
        omega
      · dsimp only
        omega
      · dsimp only
        rw [← Nat.add_assoc, ← Nat.add_assoc, ← Nat.add_assoc]
        exact hValue
      · dsimp only
        rw [← Nat.add_assoc, ← Nat.add_assoc]
        exact stops_of_drop hRest
  · cases hHit

theorem assignmentHit_spoken {h : Hit} (hHit : assignmentHit (text.drop i) = some h) :
    SpokenAt text i h := by
  unfold assignmentHit at hHit
  split at hHit
  · cases hHit
  · rename_i word hFind
    have hOpened : Opened word (text.drop i) := by simpa using List.find?_some hFind
    have hWord : word ∈ keywords := List.mem_cons_of_mem _ (List.mem_of_find?_eq_some hFind)
    -- the keyword, blanks, the sign, blanks again, and the value
    set n := word.toList.length with hLength
    obtain ⟨hGap, hBehind, -⟩ :=
      scan text (i + n) isWhitespace List.drop_drop.symm
    dsimp only at hHit
    split at hHit
    · cases hHit
    · rename_i sign assigned hSign
      rw [hSign] at hBehind
      split at hHit
      · rename_i hParts
        obtain ⟨hColon, hFilled⟩ := hParts
        set g := (((text.drop i).drop n).takeWhile isWhitespace).length with hG
        have hAssigned : text.drop (i + n + g + 1) = assigned :=
          drop_behind (a := [sign]) hBehind
        have hSignGap : All text (i + n + g) (i + n + g + 1) isGap := by
          refine all_of_drop (a := [sign]) hBehind fun c hc => ?_
          rw [List.mem_singleton.mp hc]
          rcases hColon with rfl | rfl
          all_goals decide
        obtain ⟨hSpace, hValueAt, -⟩ := scan text _ isWhitespace hAssigned
        obtain ⟨hValue, hRest, hBound⟩ := scan text _ notSpace hValueAt
        have hValueLength := List.length_pos_of_ne_nil (mt List.isEmpty_iff.mpr hFilled)
        obtain rfl := Option.some.inj hHit
        refine ⟨⟨word, hWord, spelled_of_opened hOpened, ?_, ?_⟩, ?_, ?_, ?_, ?_⟩
        · dsimp only
          omega
        · dsimp only
          have hJoined := ((hGap.mono fun c => isWhitespace_gap).join hSignGap).join
            (hSpace.mono fun c => isWhitespace_gap)
          simp only [← Nat.add_assoc]
          exact hJoined
        · dsimp only
          omega
        · dsimp only
          omega
        · dsimp only
          simp only [← Nat.add_assoc]
          exact hValue
        · dsimp only
          simp only [← Nat.add_assoc]
          exact stops_of_drop hRest
      · cases hHit

theorem keyHit_key {h : Hit} (hHit : keyHit (text.drop i) = some h) : KeyAt text i h := by
  unfold keyHit at hHit
  dsimp only at hHit
  split at hHit
  · rename_i hParts
    obtain ⟨hOpened, hLong⟩ := hParts
    have hSpelled := spelled_of_opened hOpened
    obtain ⟨hBody, hRest, hBound⟩ :=
      scan text (i + 3) isToken List.drop_drop.symm
    obtain rfl := Option.some.inj hHit
    refine ⟨hSpelled, rfl, ?_, ?_, ?_, ?_⟩
    · dsimp only
      omega
    · dsimp only
      omega
    · dsimp only
      rw [← Nat.add_assoc]
      refine All.join ?_ hBody
      intro j hLow hHigh c hGet
      have hClass : "sk-".toList.all inClass = true := by decide
      obtain ⟨k, rfl⟩ := Nat.exists_eq_add_of_le hLow
      have hk : k < "sk-".toList.length := by
        show k < 3
        omega
      obtain ⟨c', hGet', hFold⟩ := hSpelled k _ (List.getElem?_eq_getElem hk)
      rw [hGet] at hGet'
      obtain rfl := Option.some.inj hGet'
      unfold isToken
      rw [hFold]
      exact List.all_eq_true.mp hClass _ (List.getElem_mem hk)
    · dsimp only
      rw [← Nat.add_assoc]
      exact stops_of_drop hRest
  · cases hHit

theorem botTokenHit_botToken {words : Words} {h : Hit}
    (hHit : botTokenHit words (if i = 0 then none else text[i - 1]?) (text.drop i) = some h) :
    BotTokenAt words text i h := by
  generalize hPrevious : (if i = 0 then none else text[i - 1]?) = previous at hHit
  unfold botTokenHit at hHit
  dsimp only at hHit
  obtain ⟨hDigits, hBehind, -⟩ := scan text i Char.isDigit rfl
  split at hHit
  · cases hHit
  · rename_i sign behind hSign
    split at hHit
    · rename_i hParts
      obtain ⟨hBoundary, hMany, rfl, hLong⟩ := hParts
      rw [hSign] at hBehind
      set n := ((text.drop i).takeWhile Char.isDigit).length with hN
      have hKeyAt : text.drop (i + n + 1) = behind := drop_behind (a := [':']) hBehind
      obtain ⟨hKey, hRest, hBound⟩ := scan text _ isToken hKeyAt
      obtain rfl := Option.some.inj hHit
      refine ⟨rfl, by dsimp only; omega, ?_, ⟨i + n, by omega, ?_, hDigits, ?_, ?_⟩, ?_⟩
      · rcases Nat.eq_zero_or_pos i with hZero | hPos
        · exact Or.inl hZero
        · refine Or.inr fun c hGet => ?_
          rw [if_neg (by omega), hGet] at hPrevious
          rw [← hPrevious] at hBoundary
          exact hBoundary
      · dsimp only
        omega
      · rw [← List.head?_drop, hBehind]
        rfl
      · dsimp only
        simp only [← Nat.add_assoc]
        exact hKey
      · dsimp only
        simp only [← Nat.add_assoc]
        exact stops_of_drop hRest
    · cases hHit

/-- What stands at the positions of a match. -/
theorem hitAt_shape {words : Words} {h : Hit} (hHit : hitAt words text i = some h) :
    Shape words text i h := by
  unfold hitAt hitHere at hHit
  rcases Option.or_eq_some_iff.mp hHit with hBearer | ⟨-, hHit⟩
  · exact .spoken (bearerHit_spoken hBearer)
  rcases Option.or_eq_some_iff.mp hHit with hAssignment | ⟨-, hHit⟩
  · exact .spoken (assignmentHit_spoken hAssignment)
  rcases Option.or_eq_some_iff.mp hHit with hKey | ⟨-, hBot⟩
  · exact .key (keyHit_key hKey)
  · exact .botToken (botTokenHit_botToken hBot)

variable {words : Words} {h m : Hit} {s e : Nat}

theorem Spelled.first {word : String} {d : Char} (hSpelled : Spelled text i word)
    (hFirst : word.toList.head? = some d) : ∃ c, text[i]? = some c ∧ fold c = d := by
  rw [List.head?_eq_getElem?] at hFirst
  exact hSpelled 0 d hFirst

/-- The word a form begins with, unless it begins with a digit. -/
theorem Shape.opener (hShape : Shape words text i h) :
    (∃ opener ∈ openers, Spelled text i opener ∧
      ∃ d ∈ ['b', 's', 'a', 'p', 't'], opener.toList.head? = some d) ∨
    BotTokenAt words text i h ∧ ∃ c, text[i]? = some c ∧ c.isDigit = true := by
  rcases hShape with hSpoken | hKey | hBot
  · obtain ⟨word, hWord, hSpelled, -⟩ := hSpoken.keyword
    refine Or.inl ⟨word, ?_, hSpelled, (keywords_shape word hWord).first⟩
    rcases List.mem_cons.mp hWord with rfl | hIn
    · exact List.mem_cons_self ..
    · exact List.mem_cons_of_mem _ (List.mem_cons_of_mem _ hIn)
  · exact Or.inl ⟨"sk-", by decide, hKey.opened, 's', by decide, rfl⟩
  · obtain ⟨mid, hLow, hHigh, hDigits, -⟩ := hBot.colon
    have := hBot.bound
    obtain ⟨c, hGet⟩ : ∃ c, text[i]? = some c := getElem?_of_lt (by omega)
    exact Or.inr ⟨hBot, c, hGet, hDigits i (Nat.le_refl _) hLow c hGet⟩

theorem Shape.opens (hShape : Shape words text i h) : ∃ c, text[i]? = some c ∧ Opens c := by
  rcases hShape.opener with ⟨opener, -, hSpelled, d, hLetter, hFirst⟩ | ⟨-, c, hGet, hDigit⟩
  · obtain ⟨c, hGet, rfl⟩ := hSpelled.first hFirst
    exact ⟨c, hGet, Or.inl hLetter⟩
  · exact ⟨c, hGet, Or.inr hDigit⟩

theorem Shape.long (hShape : Shape words text i h) :
    h.lead < h.size ∧ i + h.size ≤ text.length := by
  rcases hShape with hSpoken | hKey | hBot
  · exact ⟨hSpoken.filled, hSpoken.bound⟩
  · have := hKey.lead
    have := hKey.long
    exact ⟨by omega, hKey.bound⟩
  · obtain ⟨mid, hLow, hHigh, -⟩ := hBot.colon
    have := hBot.lead
    exact ⟨by omega, hBot.bound⟩

/-- The value ends where it has to. -/
theorem Shape.stops (hShape : Shape words text i h) :
    Stops text (i + h.size) notSpace ∨ Stops text (i + h.size) isToken := by
  rcases hShape with hSpoken | hKey | hBot
  · exact Or.inl hSpoken.stops
  · exact Or.inr hKey.stops
  · exact Or.inr hBot.stops

/-- No form begins inside the keyword of another. -/
theorem SpokenAt.not_inside {word : String} (hWord : word ∈ keywords)
    (hSpelled : Spelled text s word)
    (hGap : All text (s + word.toList.length) (s + m.lead) isGap)
    (hLead : word.toList.length < m.lead) (hShape : Shape words text i h) (hBehind : s < i) :
    s + word.toList.length ≤ i := by
  by_contra hInside
  obtain ⟨k, rfl⟩ := Nat.exists_eq_add_of_le hBehind.le
  have hk : k < word.toList.length := by omega
  have hKeyword := keywords_shape word hWord
  rcases hShape.opener with ⟨opener, hOpener, hOpened, -⟩ | ⟨-, c, hGet, hDigit⟩
  · obtain ⟨n, hn, hDiffer⟩ := hKeyword.inside k hk (by omega) opener hOpener
    obtain ⟨c, hGet, hFold⟩ := hOpened n _ (List.getElem?_eq_getElem hn)
    rcases hDiffer with ⟨hBefore, hNot⟩ | ⟨hEnd, hNot⟩
    · obtain ⟨c', hGet', hFold'⟩ := hSpelled (n + k) _ (List.getElem?_eq_getElem hBefore)
      rw [show s + (n + k) = s + k + n by omega, hGet] at hGet'
      obtain rfl := Option.some.inj hGet'
      rw [List.getElem?_eq_getElem hBefore, List.getElem?_eq_getElem hn, ← hFold, ← hFold'] at hNot
      exact hNot rfl
    · have hGapHere : isGap c = true := hGap (s + k + n) (by omega) (by omega) c hGet
      rw [List.getElem?_eq_getElem hn, ← hFold, fold_gap hGapHere] at hNot
      rw [Option.any_some, hGapHere] at hNot
      cases hNot
  · obtain ⟨c', hGet', hFold⟩ := hSpelled k _ (List.getElem?_eq_getElem hk)
    rw [hGet] at hGet'
    obtain rfl := Option.some.inj hGet'
    have hNot := (hKeyword.scalars _ (List.getElem_mem hk)).1
    rw [← hFold, fold_digit hDigit, hDigit] at hNot
    cases hNot

theorem Opens.not_gap {c : Char} (hOpens : Opens c) : isGap c = false := by
  rcases hGap : isGap c with _ | _
  · rfl
  · have hToken := hOpens.token
    rw [isGap_not_token hGap] at hToken
    cases hToken

/-- A form that begins inside another stands in the run of scalars that ends the other. -/
theorem Shape.run (hOuter : Shape words text s m) (hInner : Shape words text i h) (hBehind : s < i)
    (hInside : i < s + m.size) : ∃ p, (p = notSpace ∨ p = isToken) ∧
      All text i (s + m.size) p ∧ Stops text (s + m.size) p := by
  have hSub : ∀ {low : Nat} {p : Char → Bool}, All text low (s + m.size) p → low ≤ i →
      All text i (s + m.size) p :=
    fun hAll hLow j hFrom => hAll j (hLow.trans hFrom)
  obtain ⟨c, hGet, hOpens⟩ := hInner.opens
  rcases hOuter with hSpoken | hKey | hBot
  · obtain ⟨word, hWord, hSpelled, hLead, hGap⟩ := hSpoken.keyword
    have hFilled := hSpoken.filled
    have hPast := SpokenAt.not_inside hWord hSpelled hGap hLead hInner hBehind
    by_cases hInGap : i < s + m.lead
    · have hHere := hGap i hPast hInGap c hGet
      rw [hOpens.not_gap] at hHere
      cases hHere
    · exact ⟨notSpace, Or.inl rfl, hSub hSpoken.value (by omega), hSpoken.stops⟩
  · exact ⟨isToken, Or.inr rfl, hSub hKey.body hBehind.le, hKey.stops⟩
  · obtain ⟨mid, hLow, hHigh, hDigits, hColon, hBody⟩ := hBot.colon
    rcases Nat.lt_trichotomy i mid with hBefore | rfl | hAfter
    · -- among the digits only another bot token could begin, but not behind a digit
      have hHere := hDigits i hBehind.le hBefore c hGet
      rcases hInner.opener with ⟨opener, hOpener, hOpened, d, hLetter, hFirst⟩ | ⟨hToken, -⟩
      · obtain ⟨c', hGet', rfl⟩ := hOpened.first hFirst
        rw [hGet] at hGet'
        obtain rfl := Option.some.inj hGet'
        have hNot : ['b', 's', 'a', 'p', 't'].all (fun d => !d.isDigit) = true := by decide
        have hFold := Bool.not_eq_true' _ |>.mp (List.all_eq_true.mp hNot _ hLetter)
        rw [fold_digit hHere, hHere] at hFold
        cases hFold
      · have hBound := hBot.bound
        obtain ⟨c', hGet'⟩ : ∃ c', text[i - 1]? = some c' := getElem?_of_lt (by omega)
        have hDigit := hDigits (i - 1) (by omega) (by omega) c' hGet'
        rcases hToken.boundary with hZero | hBoundary
        · omega
        · have hWord := hBoundary c' hGet'
          rw [words.digit c' hDigit] at hWord
          cases hWord
    · rw [hGet] at hColon
      obtain rfl := Option.some.inj hColon
      exact absurd hOpens.not_gap (by decide)
    · exact ⟨isToken, Or.inr rfl, hSub hBody (by omega), hBot.stops⟩

/-- From where a keyword or its gap is no token, no form begins before the value. -/
theorem SpokenAt.silent (hSpoken : SpokenAt text i h) (hInside : i < e)
    (hNotHere : ∀ c, text[e]? = some c → isToken c ≠ true) :
    ∀ j, e ≤ j → j < i + h.lead → ∀ c, text[j]? = some c → ¬Opens c := by
  obtain ⟨word, hWord, hSpelled, hLead, hGap⟩ := hSpoken.keyword
  have hKeyword := keywords_shape word hWord
  intro j hFrom hTo c hThere hOpens
  by_cases hInGap : i + word.toList.length ≤ j
  · have hHere := hGap j hInGap hTo c hThere
    rw [hOpens.not_gap] at hHere
    cases hHere
  · -- what is no token in a keyword is its space
    obtain ⟨k, rfl⟩ := Nat.exists_eq_add_of_le hInside.le
    obtain ⟨n, rfl⟩ := Nat.exists_eq_add_of_le hFrom
    have hk : k < word.toList.length := by omega
    have hkn : k + n < word.toList.length := by omega
    obtain ⟨first, hGet, hFold⟩ := hSpelled k _ (List.getElem?_eq_getElem hk)
    have hSpace : word.toList[k] = ' ' := by
      rcases (hKeyword.scalars _ (List.getElem_mem hk)).2 with hSpace | ⟨hIn, -⟩
      · exact hSpace
      · rw [← hFold] at hIn
        exact absurd hIn (hNotHere first hGet)
    obtain ⟨c', hThere', hFold'⟩ := hSpelled (k + n) _ (List.getElem?_eq_getElem hkn)
    rw [← Nat.add_assoc, hThere] at hThere'
    obtain rfl := Option.some.inj hThere'
    have hRest : word.toList[k + n] ∈ word.toList.drop k := by
      rw [List.mem_iff_getElem?]
      exact ⟨n, by rw [List.getElem?_drop, List.getElem?_eq_getElem hkn]⟩
    have hAt : word.toList[k]? = some ' ' := by rw [List.getElem?_eq_getElem hk, hSpace]
    rcases hOpens with hLetter | hDigit
    · rw [hFold'] at hLetter
      exact hKeyword.behind k hk hAt _ hRest hLetter
    · have hNot := (hKeyword.scalars _ (List.getElem_mem hkn)).1
      rw [← hFold', fold_digit hDigit, hDigit] at hNot
      cases hNot

/-- Of a form that reaches behind the run it begins in, no other form begins before its value;
only a bot token is cut in its value, at the colon. -/
theorem Shape.behind {p : Char → Bool} (hShape : Shape words text i h)
    (hClass : p = notSpace ∨ p = isToken) (hRun : All text i e p) (hStops : Stops text e p)
    (hInside : i < e) (hReaches : e < i + h.size) :
    h.lead = 0 ∧ text[e]? = some ':' ∨
      e < i + h.lead ∧ All text (i + h.lead) (i + h.size) notSpace ∧
        ∀ j, e ≤ j → j < i + h.lead → ∀ c, text[j]? = some c → ¬Opens c := by
  have hToken : ∀ c, isToken c = true → p c = true := by
    rcases hClass with rfl | rfl
    · exact fun c => isToken_notSpace
    · exact fun c h => h
  have hNotHere : ∀ c, text[e]? = some c → isToken c ≠ true := by
    intro c hGet hTrue
    have hFalse := hStops c hGet
    rw [hToken c hTrue] at hFalse
    cases hFalse
  have hLong := hShape.long
  obtain ⟨c, hGet⟩ : ∃ c, text[e]? = some c := getElem?_of_lt (by omega)
  rcases hShape with hSpoken | hKey | hBot
  · refine Or.inr ⟨?_, hSpoken.value, hSpoken.silent hInside hNotHere⟩
    obtain ⟨word, -, -, hLead, hGap⟩ := hSpoken.keyword
    by_contra hPast
    rcases hClass with rfl | rfl
    · have hFalse := hStops c hGet
      rw [hSpoken.value e (by omega) hReaches c hGet] at hFalse
      cases hFalse
    · -- the gap would be part of a run of tokens
      obtain ⟨g, hGapGet⟩ : ∃ g, text[i + word.toList.length]? = some g :=
        getElem?_of_lt (by omega)
      have hGapHere := hGap _ (Nat.le_refl _) (by omega) g hGapGet
      have hTrue := hRun _ (by omega) (by omega) g hGapGet
      rw [isGap_not_token hGapHere] at hTrue
      cases hTrue
  · exact absurd (hKey.body e hInside.le hReaches c hGet) (hNotHere c hGet)
  · obtain ⟨mid, hLow, hHigh, hDigits, hColon, hBody⟩ := hBot.colon
    rcases Nat.lt_trichotomy e mid with hBefore | rfl | hAfter
    · exact absurd (isDigit_token (hDigits e hInside.le hBefore c hGet)) (hNotHere c hGet)
    · exact Or.inl ⟨hBot.lead, hColon⟩
    · exact absurd (hBody e (by omega) hReaches c hGet) (hNotHere c hGet)

/-! ## Masking -/

theorem hitSize_eq_some {size : Nat} : hitSize words text i = some size ↔
    ∃ h, hitAt words text i = some h ∧ h.size = size := by
  unfold hitSize
  exact Option.map_eq_some_iff

theorem hitSize_pos : ∀ i size, hitSize words text i = some size → 0 < size := by
  intro i size hSize
  obtain ⟨h, hHit, rfl⟩ := hitSize_eq_some.mp hSize
  exact (Nat.zero_le _).trans_lt (hitAt_shape hHit).long.1

theorem hitSize_bound : ∀ i size, hitSize words text i = some size → i < text.length := by
  intro i size hSize
  obtain ⟨h, hHit, rfl⟩ := hitSize_eq_some.mp hSize
  have := (hitAt_shape hHit).long
  omega

/-- No character of the masked text is the one at the position. -/
def Removed (words : Words) (text : List Char) (j : Nat) : Prop :=
  ∀ c, (c, some j) ∉ maskedChars words text

theorem removed_iff (hIn : j < text.length) : Removed words text j ↔
    ∃ x ∈ spans (hitSize words text) text.length, x.1 ≤ j ∧ j < x.2 := by
  have hCopied : ∀ c, (c, some j) ∈ maskedChars words text ↔ text[j]? = some c ∧ 0 ≤ j ∧
      ∀ x ∈ spans (hitSize words text) text.length, ¬(x.1 ≤ j ∧ j < x.2) := by
    intro c
    refine mem_replaceFrom ?_ (spans_pairwise hitSize_pos)
    intro x hx
    have := spansFrom_bounds hitSize_pos x hx
    omega
  unfold Removed
  constructor
  · intro hRemoved
    obtain ⟨c, hGet⟩ := getElem?_of_lt hIn
    by_contra hOutside
    exact hRemoved c ((hCopied c).mpr ⟨hGet, Nat.zero_le _, fun x hx hCovers =>
      hOutside ⟨x, hx, hCovers⟩⟩)
  · rintro ⟨x, hx, hCovers⟩ c hThere
    exact ((hCopied c).mp hThere).2.2 x hx hCovers

/-- Every match that is found begins with an occurrence and ends with it. -/
theorem span_hit {x : Nat × Nat} (hx : x ∈ spans (hitSize words text) text.length) :
    ∃ m, hitAt words text x.1 = some m ∧ x.2 = x.1 + m.size ∧
      IsLeftmost (hitSize words text) x.1 m.size := by
  obtain ⟨size, hEnd, hLeftmost⟩ :=
    (mem_spans_iff hitSize_pos hitSize_bound (s := x.1) (e := x.2)).mp hx
  obtain ⟨r, hResumes, hFirst⟩ := hLeftmost
  obtain ⟨m, hHit, rfl⟩ := hitSize_eq_some.mp hFirst.2.1
  exact ⟨m, hHit, hEnd, r, hResumes, hFirst⟩

/-- Masking removes every value of every occurrence of a credential form. -/
def Complete (words : Words) (text : List Char) : Prop :=
  ∀ i h, hitAt words text i = some h → ∀ j, i + h.lead ≤ j → j < i + h.size →
    Removed words text j

/-- Where one of the successive leftmost matches ends inside an occurrence that begins in it, it
ends before the value, and a form begins with the value and reaches to its end. -/
def WholeBehind (words : Words) (text : List Char) : Prop :=
  ∀ s m i h, IsLeftmost (hitSize words text) s m.size → hitAt words text s = some m →
    hitAt words text i = some h → s < i → i < s + m.size → s + m.size < i + h.size →
      s + m.size ≤ i + h.lead ∧
        ∃ next, hitAt words text (i + h.lead) = some next ∧ h.size ≤ h.lead + next.size

/-- What is removed behind a match is a match of its own, if no form begins between. -/
theorem begins_of_removed {stop j : Nat}
    (hSpan : (s, stop) ∈ spans (hitSize words text) text.length) (hStart : s < stop)
    (hBehind : stop ≤ j) (hIn : j < text.length) (hRemoved : Removed words text j)
    (hNone : ∀ k, stop ≤ k → k < j → ∀ c, text[k]? = some c → ¬Opens c) :
    ∃ next, hitAt words text j = some next ∧
      (j, j + next.size) ∈ spans (hitSize words text) text.length := by
  obtain ⟨x, hx, hFrom, hTo⟩ := (removed_iff hIn).mp hRemoved
  obtain ⟨next, hHit, hEnd, -⟩ := span_hit hx
  have hApart : stop ≤ x.1 := by
    rcases spans_apart hitSize_pos hx hSpan with rfl | hBefore | hAfter
    · dsimp only at hTo
      omega
    · dsimp only at hBefore
      omega
    · exact hAfter
  have hBegins : x.1 = j := by
    by_contra hNot
    obtain ⟨c, hGet, hOpens⟩ := (hitAt_shape hHit).opens
    exact hNone x.1 hApart (by omega) c hGet hOpens
  subst hBegins
  exact ⟨next, hHit, by rwa [← hEnd]⟩

/-- What is removed right behind a match opens a form. -/
theorem opens_of_removed {stop : Nat}
    (hSpan : (s, stop) ∈ spans (hitSize words text) text.length) (hStart : s < stop)
    (hIn : stop < text.length) (hRemoved : Removed words text stop) :
    ∃ c, text[stop]? = some c ∧ Opens c := by
  obtain ⟨next, hHit, -⟩ := begins_of_removed hSpan hStart (Nat.le_refl _) hIn hRemoved
    (fun k hFrom hTo => absurd hFrom (by omega))
  exact (hitAt_shape hHit).opens

theorem removed_of_hit (hHit : hitAt words text i = some h) : Removed words text i := by
  obtain ⟨x, hx, hCovers⟩ := spans_covers hitSize_pos hitSize_bound (i := i)
    (by rw [hitSize_eq_some.mpr ⟨h, hHit, rfl⟩]; rfl)
  have := (hitAt_shape hHit).long
  exact (removed_iff (by omega)).mpr ⟨x, hx, hCovers⟩

/-- Masking is complete exactly when what is cut off from its keyword is a form of its own. -/
theorem complete_iff_wholeBehind (words : Words) (text : List Char) :
    Complete words text ↔ WholeBehind words text := by
  constructor
  · intro hComplete s m i h hLeftmost hOuter hInner hBehind hInside hReaches
    have hInnerShape := hitAt_shape hInner
    have hLong := hInnerShape.long
    have hSpan : (s, s + m.size) ∈ spans (hitSize words text) text.length :=
      (mem_spans_iff hitSize_pos hitSize_bound).mpr ⟨m.size, rfl, hLeftmost⟩
    obtain ⟨p, hClass, hRun, hStops⟩ := (hitAt_shape hOuter).run hInnerShape hBehind hInside
    rcases hInnerShape.behind hClass hRun hStops hInside hReaches with
      ⟨hLead, hColon⟩ | ⟨hBefore, hValue, hNone⟩
    · -- the colon of a bot token is removed by nothing
      obtain ⟨c, hGet, hOpens⟩ := opens_of_removed hSpan (by omega) (by omega)
        (hComplete i h hInner (s + m.size) (by omega) hReaches)
      rw [hColon] at hGet
      obtain rfl := Option.some.inj hGet
      exact absurd hOpens.not_gap (by decide)
    · refine ⟨hBefore.le, ?_⟩
      obtain ⟨next, hHit, hNextSpan⟩ := begins_of_removed hSpan (by omega) hBefore.le (by omega)
        (hComplete i h hInner (i + h.lead) (Nat.le_refl _) (by omega)) hNone
      have hNextShape := hitAt_shape hHit
      refine ⟨next, hHit, ?_⟩
      by_contra hShort
      -- a form would have to begin where the value goes on and the match does not
      obtain ⟨c, hGet, hOpens⟩ := opens_of_removed hNextSpan
        (by have := hNextShape.long.1; omega) (by omega)
        (hComplete i h hInner (i + h.lead + next.size) (by omega) (by omega))
      rcases hNextShape.stops with hStop | hStop
      · have hFalse := hStop c hGet
        rw [hValue (i + h.lead + next.size) (by omega) (by omega) c hGet] at hFalse
        cases hFalse
      · have hFalse := hStop c hGet
        rw [hOpens.token] at hFalse
        cases hFalse
  · intro hWhole i h hInner j hLow hHigh
    have hLong := (hitAt_shape hInner).long
    rw [removed_iff (by omega)]
    obtain ⟨x, hx, hFrom, hTo⟩ := spans_covers hitSize_pos hitSize_bound (i := i)
      (by rw [hitSize_eq_some.mpr ⟨h, hInner, rfl⟩]; rfl)
    obtain ⟨m, hOuter, hEnd, hLeftmost⟩ := span_hit hx
    by_cases hPast : j < x.2
    · exact ⟨x, hx, by omega, hPast⟩
    · have hBehind : x.1 < i := by
        by_contra hNot
        obtain rfl : x.1 = i := by omega
        rw [hInner] at hOuter
        obtain rfl := Option.some.inj hOuter
        omega
      obtain ⟨hBefore, next, hNext, hEnough⟩ :=
        hWhole x.1 m i h hLeftmost hOuter hInner hBehind (by omega) (by omega)
      have hSpan : (x.1, x.1 + m.size) ∈ spans (hitSize words text) text.length := by
        rwa [← hEnd]
      obtain ⟨p, hClass, hRun, hStops⟩ :=
        (hitAt_shape hOuter).run (hitAt_shape hInner) hBehind (by omega)
      have hNone : ∀ k, x.1 + m.size ≤ k → k < i + h.lead → ∀ c, text[k]? = some c →
          ¬Opens c := by
        rcases (hitAt_shape hInner).behind hClass hRun hStops (by omega) (by omega) with
          ⟨hLead, -⟩ | ⟨-, -, hNone⟩
        · omega
        · exact hNone
      -- the match that removes the start of the value begins there
      obtain ⟨again, hAgain, hValueSpan⟩ := begins_of_removed hSpan (by omega) hBefore (by omega)
        (removed_of_hit hNext) hNone
      rw [hNext] at hAgain
      obtain rfl := Option.some.inj hAgain
      exact ⟨_, hValueSpan, hLow, by dsimp only; omega⟩

/-- ASCII words. -/
def asciiWords : Words where
  isWord := fun c => c.isAlphanum || c = '_'
  digit := by
    intro c hDigit
    unfold Char.isAlphanum
    rw [hDigit, Bool.or_true, Bool.true_or]

/-- The match takes the keyword for the value, and leaves the value. -/
theorem mask_leaves_value :
    ¬Complete asciiWords "Bearer token: hunter2".toList ∧
      mask asciiWords "Bearer token: hunter2" = "[credential redacted] hunter2" := by
  have hRun : hitAt asciiWords "Bearer token: hunter2".toList 7 = some ⟨.assignment, 7, 14⟩ ∧
      ('h', some 14) ∈ maskedChars asciiWords "Bearer token: hunter2".toList ∧
      mask asciiWords "Bearer token: hunter2" = "[credential redacted] hunter2" := by
    decide +kernel
  refine ⟨fun hComplete => ?_, hRun.2.2⟩
  exact hComplete 7 _ hRun.1 14 (by decide) (by decide) 'h' hRun.2.1

end ScreenSearch.Memory.Mask
