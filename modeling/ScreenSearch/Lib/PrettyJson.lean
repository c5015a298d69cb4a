import ScreenSearch.Lib.Json

/-!
# Pretty-printed JSON

Values laid out over lines, two spaces deeper for every bracket. Scalars come
rendered.

Main results:

* `render_laid` — a line break stands before an indentation or a closing bracket;
* `renderString_plain`, `renderInt_plain` — scalars have no line breaks.
-/

namespace PrettyJson

inductive Value where
  | scalar (text : List Char)
  | arr (items : List Value)
  | obj (fields : List (String × Value))

def pad (indent : Nat) : List Char := (List.replicate indent [' ', ' ']).flatten

mutual

def render (indent : Nat) : Value → List Char
  | .scalar text => text
  | .arr [] => ['[', ']']
  | .arr (item :: items) =>
    '[' :: '\n' :: pad (indent + 1) ++ render (indent + 1) item ++ renderItems indent items ++
      '\n' :: pad indent ++ [']']
  | .obj [] => ['{', '}']
  | .obj ((key, value) :: fields) =>
    '{' :: '\n' :: pad (indent + 1) ++ Json.renderString key ++ ':' :: ' ' ::
      render (indent + 1) value ++ renderFields indent fields ++ '\n' :: pad indent ++ ['}']

/-- The items behind the first one. -/
def renderItems (indent : Nat) : List Value → List Char
  | [] => []
  | item :: items =>
    ',' :: '\n' :: pad (indent + 1) ++ render (indent + 1) item ++ renderItems indent items

/-- The fields behind the first one. -/
def renderFields (indent : Nat) : List (String × Value) → List Char
  | [] => []
  | (key, value) :: fields =>
    ',' :: '\n' :: pad (indent + 1) ++ Json.renderString key ++ ':' :: ' ' ::
      render (indent + 1) value ++ renderFields indent fields

end

/-! ## Layout -/

/-- What a line may begin with. -/
def LineStart (c : Char) : Prop := c = ' ' ∨ c = ']' ∨ c = '}'

/-- Every line break stands before the start of a line. -/
def Laid : List Char → Prop
  | [] => True
  | c :: rest => (c = '\n' → ∃ d ∈ rest.head?, LineStart d) ∧ Laid rest

/-- A text on one line. -/
def Plain (text : List Char) : Prop := '\n' ∉ text

instance (text : List Char) : Decidable (Plain text) := inferInstanceAs (Decidable (_ ∉ _))

variable {a b text : List Char}

theorem Plain.laid (h : Plain text) : Laid text := by
  induction text with
  | nil => trivial
  | cons c rest ih =>
    obtain ⟨hHead, hRest⟩ := not_or.mp (mt List.mem_cons.mpr h)
    exact ⟨fun hBreak => absurd hBreak.symm hHead, ih hRest⟩

theorem Plain.append (h : Plain a) (h' : Plain b) : Plain (a ++ b) := by
  unfold Plain at *
  rw [List.mem_append, not_or]
  exact ⟨h, h'⟩

theorem Plain.cons {c : Char} (hPlain : c ≠ '\n') (h : Plain text) : Plain (c :: text) := by
  unfold Plain at *
  rw [List.mem_cons, not_or]
  exact ⟨hPlain.symm, h⟩

theorem Laid.append (h : Laid a) (h' : Laid b) : Laid (a ++ b) := by
  induction a with
  | nil => exact h'
  | cons c rest ih =>
    refine ⟨?_, ih h.2⟩
    intro hBreak
    obtain ⟨d, hHead, hStart⟩ := h.1 hBreak
    refine ⟨d, ?_, hStart⟩
    show d ∈ (rest ++ b).head?
    rw [List.head?_append, Option.mem_def, Option.mem_def.mp hHead]
    rfl

theorem Laid.of_append (h : Laid (a ++ b)) : Laid b := by
  induction a with
  | nil => exact h
  | cons c rest ih => exact ih h.2

theorem Laid.cons {c : Char} (hPlain : c ≠ '\n') (h : Laid text) : Laid (c :: text) :=
  ⟨fun hBreak => absurd hBreak hPlain, h⟩

theorem pad_plain (indent : Nat) : Plain (pad indent) := by
  unfold Plain pad
  rw [List.mem_flatten]
  rintro ⟨block, hBlock, hBreak⟩
  rw [List.eq_of_mem_replicate hBlock] at hBreak
  exact absurd hBreak (by decide)

/-- A line that begins at some depth. -/
theorem laid_line (indent : Nat) {c : Char} (hStart : LineStart c) (h : Laid (c :: text)) :
    Laid ('\n' :: (pad indent ++ c :: text)) := by
  refine ⟨fun _ => ?_, (pad_plain indent).laid.append h⟩
  rcases indent with _ | indent
  · exact ⟨c, rfl, hStart⟩
  · exact ⟨' ', rfl, Or.inl rfl⟩

/-- A line that begins deeper than the outermost bracket. -/
theorem laid_deeper (indent : Nat) (h : Laid text) :
    Laid ('\n' :: (pad (indent + 1) ++ text)) :=
  ⟨fun _ => ⟨' ', rfl, Or.inl rfl⟩, (pad_plain (indent + 1)).laid.append h⟩

/-! ## Scalars -/

theorem hexDigit_plain (n : Nat) : Json.hexDigit n ≠ '\n' := by
  have hDigits : "0123456789abcdef".toList.all (· != '\n') = true := by decide
  unfold Json.hexDigit
  rw [List.getD_eq_getElem?_getD]
  rcases hGet : "0123456789abcdef".toList[n]? with _ | c
  · exact by decide
  · exact bne_iff_ne.mp (List.all_eq_true.mp hDigits c (List.mem_of_getElem? hGet))

theorem escape_plain (c : Char) : Plain (Json.escape c) := by
  unfold Json.escape Plain
  split_ifs with hQuote hSlash hLine
  all_goals
    first
      | decide
      | skip
  · simp only [List.mem_cons, List.not_mem_nil, or_false, not_or]
    exact ⟨by decide, by decide, by decide, by decide, (hexDigit_plain _).symm,
      (hexDigit_plain _).symm⟩
  · rw [List.mem_singleton]
    exact fun hBreak => hLine hBreak.symm

/-- A string is on one line, whatever is in it. -/
theorem renderString_plain (text : String) : Plain (Json.renderString text) := by
  unfold Plain Json.renderString
  simp only [List.cons_append, List.mem_cons, List.mem_append, List.not_mem_nil, or_false, not_or]
  refine ⟨by decide, ?_, by decide⟩
  rw [List.mem_flatMap]
  rintro ⟨c, -, hBreak⟩
  exact escape_plain c hBreak

theorem toDigits_plain (n : Nat) : Plain (Nat.toDigits 10 n) := by
  intro hBreak
  have hDigit := Nat.isDigit_of_mem_toDigits (by decide) (by decide) hBreak
  exact absurd hDigit (by decide)

theorem renderInt_plain (n : Int) : Plain (Json.renderInt n) := by
  unfold Plain Json.renderInt
  rcases n with n | n
  · exact toDigits_plain n
  · rw [List.mem_cons, not_or]
    exact ⟨by decide, toDigits_plain (n + 1)⟩

/-! ## Values -/

mutual

/-- All scalars are on one line. -/
def Proper : Value → Prop
  | .scalar text => Plain text
  | .arr items => ProperItems items
  | .obj fields => ProperFields fields

def ProperItems : List Value → Prop
  | [] => True
  | item :: items => Proper item ∧ ProperItems items

def ProperFields : List (String × Value) → Prop
  | [] => True
  | (_, value) :: fields => Proper value ∧ ProperFields fields

end

theorem laid_field (indent : Nat) (key : String) {c : Char} (hPlain : c ≠ '\n') (h : Laid text) :
    Laid (c :: '\n' :: (pad (indent + 1) ++ (Json.renderString key ++ ':' :: ' ' :: text))) := by
  refine Laid.cons hPlain (laid_deeper indent ?_)
  exact (renderString_plain key).laid.append (Laid.cons (by decide) (Laid.cons (by decide) h))

mutual

/-- A line break stands before an indentation or a closing bracket. -/
theorem render_laid (indent : Nat) : ∀ value : Value, Proper value → Laid (render indent value)
  | .scalar text, h => by
    rw [Proper] at h
    rw [render]
    exact h.laid
  | .arr [], _ => by
    rw [render]
    exact Plain.laid (by decide)
  | .arr (item :: items), h => by
    rw [Proper, ProperItems] at h
    rw [render]
    simp only [List.cons_append, List.append_assoc]
    refine Laid.cons (by decide) (laid_deeper indent ?_)
    refine (render_laid (indent + 1) item h.1).append ?_
    refine (renderItems_laid indent items h.2).append ?_
    exact laid_line indent (Or.inr (Or.inl rfl)) (Plain.laid (by decide))
  | .obj [], _ => by
    rw [render]
    exact Plain.laid (by decide)
  | .obj ((key, value) :: fields), h => by
    rw [Proper, ProperFields] at h
    rw [render]
    simp only [List.cons_append, List.append_assoc]
    refine laid_field indent key (by decide) ?_
    refine (render_laid (indent + 1) value h.1).append ?_
    refine (renderFields_laid indent fields h.2).append ?_
    exact laid_line indent (Or.inr (Or.inr rfl)) (Plain.laid (by decide))

theorem renderItems_laid (indent : Nat) :
    ∀ items : List Value, ProperItems items → Laid (renderItems indent items)
  | [], _ => by
    rw [renderItems]
    trivial
  | item :: items, h => by
    rw [ProperItems] at h
    rw [renderItems]
    simp only [List.cons_append, List.append_assoc]
    refine Laid.cons (by decide) (laid_deeper indent ?_)
    exact (render_laid (indent + 1) item h.1).append (renderItems_laid indent items h.2)

theorem renderFields_laid (indent : Nat) :
    ∀ fields : List (String × Value), ProperFields fields → Laid (renderFields indent fields)
  | [], _ => by
    rw [renderFields]
    trivial
  | (key, value) :: fields, h => by
    rw [ProperFields] at h
    rw [renderFields]
    simp only [List.cons_append, List.append_assoc]
    refine laid_field indent key (by decide) ?_
    exact (render_laid (indent + 1) value h.1).append (renderFields_laid indent fields h.2)

end

end PrettyJson
