import ScreenSearch.Lib.Text

/-!
# Feeding a machine in pieces

A machine takes its input in pieces and puts something out for each of them. It is *seamless* if two
pieces do as much as the two together; then it does not matter where the input was cut. What keeps a
scanner for a marker seamless is what it holds back: the longest end of its buffer that the marker
may begin with. Nothing before that end can be part of a marker, whatever follows.

Main results:

* `Seamless.feedAll_eq` — any pieces do what their concatenation does;
* `Seamless.through` — handling each item as it comes out keeps a machine seamless;
* `feedLines_seamless` — cutting into lines is seamless;
* `apart_heldBack` — what is not held back is no part of a marker;
* `splitAtFirst_apart`, `heldBack_apart` — so it can be taken away.
-/

namespace Feeding

/-! ## Pieces -/

section

variable {σ α β : Type} {feed : σ → List α → σ × List β} {Ok : σ → Prop} {s : σ}

/-- The state after all pieces, and everything that was put out. -/
def feedAll (feed : σ → List α → σ × List β) (s : σ) : List (List α) → σ × List β
  | [] => (s, [])
  | piece :: pieces =>
    let (next, out) := feed s piece
    let (last, later) := feedAll feed next pieces
    (last, out ++ later)

theorem feedAll_cons (piece : List α) (pieces : List (List α)) :
    feedAll feed s (piece :: pieces) = ((feedAll feed (feed s piece).1 pieces).1,
      (feed s piece).2 ++ (feedAll feed (feed s piece).1 pieces).2) := rfl

/-- From the states that `Ok` admits, two pieces do what the two together do. -/
structure Seamless (feed : σ → List α → σ × List β) (Ok : σ → Prop) : Prop where
  nil : ∀ s, Ok s → feed s [] = (s, [])
  keeps : ∀ s piece, Ok s → Ok (feed s piece).1
  append : ∀ s a b, Ok s → feed s (a ++ b) =
    ((feed (feed s a).1 b).1, (feed s a).2 ++ (feed (feed s a).1 b).2)

theorem Seamless.feedAll_eq (h : Seamless feed Ok) (hs : Ok s) (pieces : List (List α)) :
    feedAll feed s pieces = feed s pieces.flatten := by
  induction pieces generalizing s with
  | nil => exact (h.nil s hs).symm
  | cons piece pieces ih =>
    rw [List.flatten_cons, h.append s piece _ hs, ← ih (h.keeps s piece hs), feedAll_cons]

/-! ## What comes out, handled -/

section

variable {τ γ : Type} {handle : τ → β → τ × List γ}

/-- Items handled in order, with the state that each leaves. -/
def handleAll (handle : τ → β → τ × List γ) (t : τ) : List β → τ × List γ
  | [] => (t, [])
  | item :: items =>
    let (next, out) := handle t item
    let (last, later) := handleAll handle next items
    (last, out ++ later)

theorem handleAll_cons (t : τ) (item : β) (items : List β) :
    handleAll handle t (item :: items) = ((handleAll handle (handle t item).1 items).1,
      (handle t item).2 ++ (handleAll handle (handle t item).1 items).2) := rfl

theorem handleAll_append (t : τ) (a b : List β) : handleAll handle t (a ++ b) =
    ((handleAll handle (handleAll handle t a).1 b).1,
      (handleAll handle t a).2 ++ (handleAll handle (handleAll handle t a).1 b).2) := by
  induction a generalizing t with
  | nil => rfl
  | cons item a ih =>
    rw [List.cons_append, handleAll_cons, handleAll_cons, ih, List.append_assoc]

/-- A machine whose items are handled as they come out. -/
def through (feed : σ → List α → σ × List β) (handle : τ → β → τ × List γ)
    (s : σ × τ) (piece : List α) : (σ × τ) × List γ :=
  let (next, items) := feed s.1 piece
  let (t, out) := handleAll handle s.2 items
  ((next, t), out)

theorem through_eq (s : σ) (t : τ) (piece : List α) : through feed handle (s, t) piece =
    (((feed s piece).1, (handleAll handle t (feed s piece).2).1),
      (handleAll handle t (feed s piece).2).2) := rfl

theorem Seamless.through (h : Seamless feed Ok) (handle : τ → β → τ × List γ) :
    Seamless (through feed handle) fun s => Ok s.1 where
  nil s hs := by
    unfold Feeding.through
    rw [h.nil s.1 hs]
    rfl
  keeps s piece hs := h.keeps s.1 piece hs
  append s a b hs := by
    obtain ⟨s, t⟩ := s
    rw [through_eq, through_eq, through_eq, h.append s a b hs, handleAll_append]

end

/-! ## Lines -/

section

variable [DecidableEq α] {sep : α} {buf line : List α}

/-- A scalar in front of a text that is cut already. -/
def cutCons (sep c : α) (cut : List α × List (List α)) : List α × List (List α) :=
  if c = sep then (cut.1, [] :: cut.2)
  else match cut.2 with
    | [] => (c :: cut.1, [])
    | line :: lines => (cut.1, (c :: line) :: lines)

/-- What is left behind the last separator, and the lines before it. -/
def cutLines (sep : α) : List α → List α × List (List α)
  | [] => ([], [])
  | c :: cs => cutCons sep c (cutLines sep cs)

def feedLines (sep : α) (buf piece : List α) : List α × List (List α) := cutLines sep (buf ++ piece)

theorem cutLines_none (h : sep ∉ buf) : cutLines sep buf = (buf, []) := by
  induction buf with
  | nil => rfl
  | cons c cs ih =>
    rw [cutLines, ih (List.not_mem_of_not_mem_cons h), cutCons,
      if_neg (List.ne_of_not_mem_cons h).symm]

/-- The first line comes first. -/
theorem cutLines_cons (h : sep ∉ line) (rest : List α) :
    cutLines sep (line ++ sep :: rest) =
      ((cutLines sep rest).1, line :: (cutLines sep rest).2) := by
  induction line with
  | nil => rw [List.nil_append, cutLines, cutCons, if_pos rfl]
  | cons c cs ih =>
    rw [List.cons_append, cutLines, ih (List.not_mem_of_not_mem_cons h), cutCons,
      if_neg (List.ne_of_not_mem_cons h).symm]

/-- What is left has no separator. -/
theorem cutLines_rest (sep : α) (buf : List α) : sep ∉ (cutLines sep buf).1 := by
  induction buf with
  | nil => exact List.not_mem_nil
  | cons c cs ih =>
    rw [cutLines]
    generalize cutLines sep cs = cut at ih ⊢
    obtain ⟨rest, lines⟩ := cut
    unfold cutCons
    split
    · exact ih
    · next hOther =>
      rcases lines with _ | ⟨line, lines⟩
      · exact List.not_mem_cons_of_ne_of_not_mem (Ne.symm hOther) ih
      · exact ih

theorem cutLines_append (sep : α) (a b : List α) : cutLines sep (a ++ b) =
    ((cutLines sep ((cutLines sep a).1 ++ b)).1,
      (cutLines sep a).2 ++ (cutLines sep ((cutLines sep a).1 ++ b)).2) := by
  induction a with
  | nil => rfl
  | cons c cs ih =>
    rw [List.cons_append, cutLines, ih, cutLines]
    obtain ⟨rest, lines⟩ := cutLines sep cs
    by_cases hSep : c = sep
    · simp only [cutCons, if_pos hSep, List.cons_append]
    · rcases lines with _ | ⟨line, lines⟩
      · -- the line goes on behind `a`
        simp only [cutCons, if_neg hSep, List.nil_append, List.cons_append, cutLines]
      · simp only [cutCons, if_neg hSep, List.cons_append]

/-- The first separator: what is before it is a line. -/
theorem first_separator {i : Nat} (h : buf.findIdx? (· == sep) = some i) :
    sep ∉ buf.take i ∧ buf.take (i + 1) = buf.take i ++ [sep] ∧
      buf = buf.take i ++ sep :: buf.drop (i + 1) := by
  obtain ⟨hLt, hHere, hBefore⟩ := List.findIdx?_eq_some_iff_getElem.mp h
  have hSep : buf[i] = sep := beq_iff_eq.mp hHere
  refine ⟨fun hMem => ?_, ?_, ?_⟩
  · obtain ⟨j, hj, hAt⟩ := List.mem_take_iff_getElem.mp hMem
    exact hBefore j (by omega) (beq_iff_eq.mpr hAt)
  · rw [List.take_succ_eq_append_getElem hLt, hSep]
  · rw [← hSep, ← List.drop_eq_getElem_cons hLt, List.take_append_drop]

theorem feedLines_seamless (sep : α) : Seamless (feedLines sep) fun buf => sep ∉ buf where
  nil buf hBuf := by
    unfold feedLines
    rw [List.append_nil, cutLines_none hBuf]
  keeps buf piece _ := cutLines_rest sep (buf ++ piece)
  append buf a b _ := by
    unfold feedLines
    rw [← List.append_assoc, cutLines_append]

end

end

/-! ## Markers -/

variable {marker front tail rest : List Char}

/-- How much of the end of the buffer a marker may begin with: the longest such end. -/
def heldBack (marker : List Char) : List Char → Nat
  | [] => 0
  | c :: cs =>
    if (c :: cs).length < marker.length ∧ c :: cs <+: marker then (c :: cs).length
    else heldBack marker cs

theorem heldBack_le (marker buf : List Char) : heldBack marker buf ≤ buf.length := by
  induction buf with
  | nil => exact Nat.le_refl _
  | cons c cs ih =>
    unfold heldBack
    split
    · exact Nat.le_refl _
    · exact ih.trans (Nat.le_succ _)

/-- The marker begins with what is held back, if anything is. -/
theorem heldBack_prefix (marker buf : List Char) : heldBack marker buf = 0 ∨
    heldBack marker buf < marker.length ∧
      buf.drop (buf.length - heldBack marker buf) <+: marker := by
  induction buf with
  | nil => exact Or.inl rfl
  | cons c cs ih =>
    unfold heldBack
    split
    · next h =>
      rw [Nat.sub_self]
      exact Or.inr h
    · rw [List.length_cons, Nat.succ_sub (heldBack_le marker cs), List.drop_succ_cons]
      exact ih

/-- No longer end would do. -/
theorem le_heldBack {buf : List Char} {k : Nat} (hk : k ≤ buf.length) (hLt : k < marker.length)
    (hEnd : buf.drop (buf.length - k) <+: marker) : k ≤ heldBack marker buf := by
  induction buf with
  | nil => exact hk
  | cons c cs ih =>
    unfold heldBack
    split
    · exact hk
    · next hNot =>
      rcases Nat.eq_or_lt_of_le hk with rfl | hShorter
      · rw [Nat.sub_self] at hEnd
        exact absurd ⟨hLt, hEnd⟩ hNot
      · have hIn : k ≤ cs.length := Nat.le_of_lt_succ hShorter
        rw [List.length_cons, Nat.succ_sub hIn, List.drop_succ_cons] at hEnd
        exact ih hIn hEnd

/-- No marker begins in `front`, whatever follows `tail`. -/
def Apart (marker front tail : List Char) : Prop :=
  ∀ i < front.length, ¬ marker <+: front.drop i ++ tail ∧ ¬ front.drop i ++ tail <+: marker

theorem apart_nil (marker tail : List Char) : Apart marker [] tail := nofun

theorem apart_cons {c : Char} : Apart marker (c :: front) tail ↔
    (¬ marker <+: c :: front ++ tail ∧ ¬ c :: front ++ tail <+: marker) ∧
      Apart marker front tail := by
  constructor
  · intro h
    exact ⟨h 0 (Nat.succ_pos _), fun i hi => h (i + 1) (Nat.succ_lt_succ hi)⟩
  · rintro ⟨hHead, hTail⟩ i hi
    cases i with
    | zero => exact hHead
    | succ i => exact hTail i (Nat.lt_of_succ_lt_succ hi)

/-- More input does not change that. -/
theorem Apart.append (h : Apart marker front tail) (rest : List Char) :
    Apart marker front (tail ++ rest) := by
  intro i hi
  obtain ⟨hNot, hNor⟩ := h i hi
  rw [← List.append_assoc]
  refine ⟨fun hBegins => ?_, fun hBegins => ?_⟩
  · -- two beginnings of one list are comparable
    rcases List.prefix_or_prefix_of_prefix hBegins (List.prefix_append _ rest) with hIn | hOver
    · exact hNot hIn
    · exact hNor hOver
  · exact hNor ((List.prefix_append _ rest).trans hBegins)

theorem splitAtFirst_apart (h : Apart marker front tail) :
    Text.splitAtFirst marker (front ++ tail) =
      (Text.splitAtFirst marker tail).map fun parts => (front ++ parts.1, parts.2) := by
  induction front with
  | nil => exact Option.map_id'.symm
  | cons c front ih =>
    obtain ⟨⟨hNot, -⟩, hTail⟩ := apart_cons.mp h
    rw [List.cons_append] at hNot ⊢
    rw [Text.splitAtFirst, if_neg hNot, ih hTail, Option.map_map]
    rfl

theorem heldBack_apart (h : Apart marker front tail) :
    heldBack marker (front ++ tail) = heldBack marker tail := by
  induction front with
  | nil => rfl
  | cons c front ih =>
    obtain ⟨⟨-, hNot⟩, hTail⟩ := apart_cons.mp h
    rw [List.cons_append] at hNot ⊢
    rw [heldBack, if_neg fun hBoth => hNot hBoth.2, ih hTail]

/-- What is not held back, in a buffer without a marker. -/
theorem apart_heldBack {buf : List Char} (h : Text.splitAtFirst marker buf = none) :
    Apart marker (buf.take (buf.length - heldBack marker buf))
      (buf.drop (buf.length - heldBack marker buf)) := by
  induction buf with
  | nil => exact apart_nil marker []
  | cons c cs ih =>
    rw [Text.splitAtFirst] at h
    split at h
    · cases h
    · next hNot =>
      rw [Option.map_eq_none_iff] at h
      rw [heldBack]
      split
      · rw [Nat.sub_self, List.take_zero]
        exact apart_nil marker _
      · next hHeld =>
        have hLe := heldBack_le marker cs
        rw [List.length_cons, Nat.succ_sub hLe, List.take_succ_cons, List.drop_succ_cons]
        refine apart_cons.mpr ⟨?_, ih h⟩
        rw [List.cons_append, List.take_append_drop]
        refine ⟨hNot, fun hOver => ?_⟩
        -- as long as the marker, it would be one
        have hLength := hOver.length_le
        rcases Nat.lt_or_ge (c :: cs).length marker.length with hShort | hLong
        · exact hHeld ⟨hShort, hOver⟩
        · exact hNot ((hOver.eq_of_length (Nat.le_antisymm hLength hLong)) ▸ List.prefix_rfl)

/-- The text before a marker, the marker and the text after it. -/
theorem splitAtFirst_length {buf before after : List Char}
    (h : Text.splitAtFirst marker buf = some (before, after)) :
    before.length + marker.length + after.length = buf.length := by
  induction buf generalizing before with
  | nil =>
    rw [Text.splitAtFirst] at h
    split at h
    · next hMarker =>
      cases h
      rw [hMarker]
      rfl
    · cases h
  | cons c cs ih =>
    rw [Text.splitAtFirst] at h
    split at h
    · next hHere =>
      cases h
      have := hHere.length_le
      rw [List.length_drop, List.length_nil]
      omega
    · obtain ⟨⟨before', after'⟩, hLater, hParts⟩ := Option.map_eq_some_iff.mp h
      cases hParts
      have hLength : before'.length + marker.length + after'.length = cs.length := ih hLater
      show before'.length + 1 + marker.length + after'.length = cs.length + 1
      omega

/-- The first marker stays the first one. -/
theorem splitAtFirst_append {buf before after : List Char}
    (h : Text.splitAtFirst marker buf = some (before, after)) (hMarker : marker ≠ [])
    (more : List Char) : Text.splitAtFirst marker (buf ++ more) = some (before, after ++ more) := by
  induction buf generalizing before with
  | nil =>
    rw [Text.splitAtFirst, if_neg hMarker] at h
    cases h
  | cons c cs ih =>
    rw [Text.splitAtFirst] at h
    rw [List.cons_append, Text.splitAtFirst]
    split at h
    · next hHere =>
      cases h
      rw [← List.cons_append, if_pos (hHere.trans (List.prefix_append _ _)),
        List.drop_append_of_le_length hHere.length_le]
    · next hNot =>
      obtain ⟨⟨before', after'⟩, hLater, hParts⟩ := Option.map_eq_some_iff.mp h
      cases hParts
      have hNotYet : ¬ marker <+: c :: (cs ++ more) := by
        -- the later one is in `cs`, so one that began here would be in `c :: cs`
        intro hHere
        have hLength := splitAtFirst_length hLater
        refine hNot (List.prefix_of_prefix_length_le hHere (List.prefix_append (c :: cs) more) ?_)
        rw [List.length_cons]
        omega
      rw [if_neg hNotYet, ih hLater]
      rfl

end Feeding
