import Mathlib.Data.List.Basic
import ScreenSearch.Lib.Feeding

/-!
# Splitting thinking from answer

A model writes its reasoning between `<think>` and `</think>`, and the stream cuts its text
anywhere. `ThinkSplitter` looks for the tag that would end the kind of text it is in, gives out what
comes before it, and holds back an end of its buffer that the tag may begin with.

Main results:

* `drain_append` — a buffer that grows gives out the same text, with the same kinds;
* `seamless` — so it does not matter where the deltas were cut;
* `collect_flatten` — nor does it once the rest is flushed.
-/

namespace ScreenSearch.Inference

open Feeding

/-- A piece of text and whether it is thinking. -/
abbrev Segment := Bool × List Char

structure ThinkSplitter where
  inThink : Bool := false
  buf : List Char := []
  deriving DecidableEq, Repr

namespace ThinkSplitter

def openTag : List Char := "<think>".toList
def closeTag : List Char := "</think>".toList

/-- The tag that ends the kind of text the splitter is in. -/
def marker (inThink : Bool) : List Char := if inThink then closeTag else openTag

/-- The first `k`, from the longest down, for which the last `k` of `buf` begin `marker`. -/
def partialMarkerSuffixFrom (buf marker : List Char) : Nat → Nat
  | 0 => 0
  | k + 1 =>
    if buf.drop (buf.length - (k + 1)) = marker.take (k + 1) then k + 1
    else partialMarkerSuffixFrom buf marker k

def partialMarkerSuffix (buf marker : List Char) : Nat :=
  partialMarkerSuffixFrom buf marker (min (marker.length - 1) buf.length)

/-- Nothing is given out for an empty text. -/
def segment (inThink : Bool) (text : List Char) : List Segment :=
  if text.isEmpty then [] else [(inThink, text)]

theorem marker_length (inThink : Bool) : 0 < (marker inThink).length := by
  cases inThink <;> decide

/-- The loop of `push` over the buffer. -/
def drain (inThink : Bool) (buf : List Char) : ThinkSplitter × List Segment :=
  match _hFound : Text.splitAtFirst (marker inThink) buf with
  | some (before, after) =>
    let (last, out) := drain (!inThink) after
    (last, segment inThink before ++ out)
  | none =>
    let keep := partialMarkerSuffix buf (marker inThink)
    let emitLen := buf.length - keep
    ({ inThink, buf := buf.drop emitLen }, segment inThink (buf.take emitLen))
termination_by buf.length
decreasing_by
  have := splitAtFirst_length _hFound
  have := marker_length inThink
  omega

def push (s : ThinkSplitter) (text : List Char) : ThinkSplitter × List Segment :=
  drain s.inThink (s.buf ++ text)

def flush (s : ThinkSplitter) : List Segment := segment s.inThink s.buf

/-- All deltas, and the flush at the end of the stream. -/
def collect (s : ThinkSplitter) : List (List Char) → List Segment
  | [] => s.flush
  | delta :: deltas =>
    let (next, out) := s.push delta
    out ++ next.collect deltas

/-! ## Texts of segments -/

/-- Everything of one kind, concatenated. -/
def textOf (kind : Bool) (segments : List Segment) : List Char :=
  (segments.filter fun segment => segment.1 == kind).flatMap Prod.snd

/-- One segment before merged ones. -/
def mergeCons (segment : Segment) : List Segment → List Segment
  | [] => [segment]
  | next :: rest =>
    if segment.1 = next.1 then (segment.1, segment.2 ++ next.2) :: rest
    else segment :: next :: rest

/-- Adjacent segments of one kind as one. -/
def mergeAdjacent : List Segment → List Segment
  | [] => []
  | segment :: rest => mergeCons segment (mergeAdjacent rest)

/-- Each scalar with its kind. -/
def spread (segments : List Segment) : List (Bool × Char) :=
  segments.flatMap fun segment => segment.2.map fun c => (segment.1, c)

theorem spread_append (a b : List Segment) : spread (a ++ b) = spread a ++ spread b :=
  List.flatMap_append

theorem spread_segment (kind : Bool) (text : List Char) :
    spread (segment kind text) = text.map fun c => (kind, c) := by
  cases text with
  | nil => rfl
  | cons c text => exact List.append_nil _

/-- The texts are those of the scalars. -/
theorem textOf_eq (kind : Bool) (segments : List Segment) :
    textOf kind segments = ((spread segments).filter fun c => c.1 == kind).map Prod.snd := by
  induction segments with
  | nil => rfl
  | cons segment segments ih =>
    obtain ⟨own, text⟩ := segment
    have hOwn : ((text.map fun c => (own, c)).filter fun c => c.1 == kind).map Prod.snd =
        if own == kind then text else [] := by
      split
      · next h => simp [List.filter_map, Function.comp_def, h]
      · next h => simp [List.filter_map, Function.comp_def, h]
    show textOf kind ((own, text) :: segments) =
      (((text.map fun c => (own, c)) ++ spread segments).filter fun c => c.1 == kind).map Prod.snd
    rw [List.filter_append, List.map_append, hOwn, ← ih]
    unfold textOf
    rw [List.filter_cons]
    split
    · rfl
    · rfl

/-- A segment is merged as its parts are. -/
theorem mergeCons_append (kind : Bool) (front back : List Char) (rest : List Segment) :
    mergeCons (kind, front ++ back) rest = mergeCons (kind, front) (mergeCons (kind, back) rest) := by
  rcases rest with _ | ⟨⟨other, text⟩, rest⟩
  · simp [mergeCons]
  · by_cases h : kind = other
    · simp [mergeCons, h]
    · simp [mergeCons, h]

/-- Segments merge as their scalars do. -/
theorem mergeAdjacent_eq {segments : List Segment} (h : ∀ segment ∈ segments, segment.2 ≠ []) :
    mergeAdjacent segments = mergeAdjacent ((spread segments).map fun c => (c.1, [c.2])) := by
  induction segments with
  | nil => rfl
  | cons segment segments ih =>
    obtain ⟨kind, text⟩ := segment
    have hRest := ih fun s hs => h s (List.mem_cons_of_mem _ hs)
    have hText : text ≠ [] := h (kind, text) List.mem_cons_self
    show mergeCons (kind, text) (mergeAdjacent segments) =
      mergeAdjacent (((text.map fun c => (kind, c)) ++ spread segments).map fun c => (c.1, [c.2]))
    rw [hRest]
    generalize spread segments = later
    clear h ih hRest
    induction text with
    | nil => exact absurd rfl hText
    | cons c text ih =>
      rcases text with _ | ⟨d, text⟩
      · rfl
      · rw [show c :: d :: text = [c] ++ d :: text from rfl, mergeCons_append,
          ih (List.cons_ne_nil d text)]
        rfl

/-! ## The buffer -/

/-- The search from the longest candidate down finds the longest end that may be held back. -/
theorem partialMarkerSuffixFrom_eq {buf marker : List Char} {k : Nat}
    (hk : k ≤ buf.length) (hLt : k = 0 ∨ k < marker.length) (hHeld : heldBack marker buf ≤ k) :
    partialMarkerSuffixFrom buf marker k = heldBack marker buf := by
  induction k with
  | zero => exact (Nat.le_zero.mp hHeld).symm
  | succ k ih =>
    have hShort : k + 1 < marker.length := hLt.resolve_left (Nat.succ_ne_zero k)
    unfold partialMarkerSuffixFrom
    split
    · next hEnd =>
      have hBegins : buf.drop (buf.length - (k + 1)) <+: marker := by
        rw [hEnd]
        exact List.take_prefix _ _
      exact Nat.le_antisymm (le_heldBack hk hShort hBegins) hHeld
    · next hEnd =>
      have hOther : heldBack marker buf ≠ k + 1 := by
        intro hSame
        rcases heldBack_prefix marker buf with hNone | ⟨-, hBegins⟩
        · omega
        · rw [hSame, List.prefix_iff_eq_take, List.length_drop] at hBegins
          rw [Nat.sub_sub_self hk] at hBegins
          exact hEnd hBegins
      exact ih (by omega) (by omega) (by omega)

theorem partialMarkerSuffix_eq {buf marker : List Char} :
    partialMarkerSuffix buf marker = heldBack marker buf := by
  have hLe := heldBack_le marker buf
  have hLt : heldBack marker buf ≤ marker.length - 1 := by
    rcases heldBack_prefix marker buf with hNone | ⟨hShort, -⟩
    · omega
    · omega
  exact partialMarkerSuffixFrom_eq (by omega) (by omega) (by omega)

/-- Nothing more comes out of a splitter until it is pushed. -/
def Settled (s : ThinkSplitter) : Prop :=
  Text.splitAtFirst (marker s.inThink) s.buf = none ∧
    heldBack (marker s.inThink) s.buf = s.buf.length

/-- `push` with its segments spread out. -/
def feed (s : ThinkSplitter) (text : List Char) : ThinkSplitter × List (Bool × Char) :=
  ((s.push text).1, spread (s.push text).2)

theorem drain_none {inThink : Bool} {buf : List Char}
    (h : Text.splitAtFirst (marker inThink) buf = none) :
    drain inThink buf =
      ({ inThink, buf := buf.drop (buf.length - heldBack (marker inThink) buf) },
        segment inThink (buf.take (buf.length - heldBack (marker inThink) buf))) := by
  rw [drain]
  split
  · next hFound =>
    rw [h] at hFound
    cases hFound
  · rw [partialMarkerSuffix_eq]

theorem drain_some {inThink : Bool} {buf before after : List Char}
    (h : Text.splitAtFirst (marker inThink) buf = some (before, after)) :
    drain inThink buf =
      ((drain (!inThink) after).1, segment inThink before ++ (drain (!inThink) after).2) := by
  rw [drain]
  split
  · next hFound =>
    rw [h] at hFound
    cases hFound
    rfl
  · next hFound =>
    rw [h] at hFound
    cases hFound

/-- What no tag can begin in is given out first. -/
theorem drain_apart {inThink : Bool} {front tail : List Char}
    (h : Apart (marker inThink) front tail) :
    (drain inThink (front ++ tail)).1 = (drain inThink tail).1 ∧
      spread (drain inThink (front ++ tail)).2 =
        (front.map fun c => (inThink, c)) ++ spread (drain inThink tail).2 := by
  have hSplit := splitAtFirst_apart h
  rcases hTail : Text.splitAtFirst (marker inThink) tail with _ | ⟨before, after⟩
  · rw [hTail] at hSplit
    have hLe := heldBack_le (marker inThink) tail
    have hEmit : (front ++ tail).length - heldBack (marker inThink) tail =
        front.length + (tail.length - heldBack (marker inThink) tail) := by
      rw [List.length_append]
      omega
    rw [drain_none hSplit, drain_none hTail, heldBack_apart h, hEmit]
    constructor
    · rw [List.drop_length_add_append]
    · rw [spread_segment, spread_segment, List.take_length_add_append, List.map_append]
  · rw [hTail] at hSplit
    rw [drain_some hSplit, drain_some hTail]
    refine ⟨rfl, ?_⟩
    rw [spread_append, spread_append, spread_segment, spread_segment, List.map_append,
      List.append_assoc]

/-- A splitter is settled after every push. -/
theorem drain_settled (inThink : Bool) (buf : List Char) : Settled (drain inThink buf).1 := by
  induction h : buf.length using Nat.strongRecOn generalizing inThink buf with
  | ind n ih =>
    rcases hSplit : Text.splitAtFirst (marker inThink) buf with _ | ⟨before, after⟩
    · rw [drain_none hSplit]
      have hApart := apart_heldBack hSplit
      have hLe := heldBack_le (marker inThink) buf
      have hAll := List.take_append_drop (buf.length - heldBack (marker inThink) buf) buf
      constructor
      · have hRest := splitAtFirst_apart hApart
        rw [hAll, hSplit] at hRest
        exact Option.map_eq_none_iff.mp hRest.symm
      · have hRest := heldBack_apart hApart
        rw [hAll] at hRest
        show heldBack _ (buf.drop _) = (buf.drop _).length
        rw [← hRest, List.length_drop]
        omega
    · have hLength := splitAtFirst_length hSplit
      have hMarker := marker_length inThink
      rw [drain_some hSplit]
      exact ih after.length (by omega) _ after rfl

/-- A buffer that grows: the loop may run before or after. -/
theorem drain_append (inThink : Bool) (buf more : List Char) :
    (drain inThink (buf ++ more)).1 = ((drain inThink buf).1.push more).1 ∧
      spread (drain inThink (buf ++ more)).2 =
        spread (drain inThink buf).2 ++ spread ((drain inThink buf).1.push more).2 := by
  induction h : buf.length using Nat.strongRecOn generalizing inThink buf with
  | ind n ih =>
    rcases hSplit : Text.splitAtFirst (marker inThink) buf with _ | ⟨before, after⟩
    · have hApart := (apart_heldBack hSplit).append more
      have hAll := drain_apart hApart
      rw [← List.append_assoc, List.take_append_drop] at hAll
      rw [drain_none hSplit, spread_segment]
      exact hAll
    · have hMarker := marker_length inThink
      have hLength := splitAtFirst_length hSplit
      obtain ⟨hState, hOut⟩ := ih after.length (by omega) (!inThink) after rfl
      rw [drain_some (splitAtFirst_append hSplit (List.ne_nil_of_length_pos hMarker) more),
        drain_some hSplit]
      refine ⟨hState, ?_⟩
      rw [spread_append, spread_append, hOut, List.append_assoc]

theorem seamless : Seamless feed Settled where
  nil s hSettled := by
    obtain ⟨hNone, hHeld⟩ := hSettled
    unfold feed push
    rw [List.append_nil, drain_none hNone, hHeld, Nat.sub_self]
    rfl
  keeps s text _ := drain_settled s.inThink (s.buf ++ text)
  append s a b _ := by
    obtain ⟨hState, hOut⟩ := drain_append s.inThink (s.buf ++ a) b
    unfold feed push
    rw [← List.append_assoc]
    exact Prod.ext hState hOut

/-! ## A whole stream -/

theorem segment_ne_nil (inThink : Bool) (text : List Char) :
    ∀ s ∈ segment inThink text, s.2 ≠ [] := by
  intro s hs
  unfold segment at hs
  split at hs
  · cases hs
  · next hText =>
    cases List.mem_singleton.mp hs
    exact fun hNil => hText (List.isEmpty_iff.mpr hNil)

/-- No segment is empty. -/
theorem drain_ne_nil (inThink : Bool) (buf : List Char) :
    ∀ s ∈ (drain inThink buf).2, s.2 ≠ [] := by
  induction h : buf.length using Nat.strongRecOn generalizing inThink buf with
  | ind n ih =>
    rcases hSplit : Text.splitAtFirst (marker inThink) buf with _ | ⟨before, after⟩
    · rw [drain_none hSplit]
      exact segment_ne_nil _ _
    · have hLength := splitAtFirst_length hSplit
      have hMarker := marker_length inThink
      rw [drain_some hSplit]
      intro s hs
      rcases List.mem_append.mp hs with hBefore | hAfter
      · exact segment_ne_nil _ _ s hBefore
      · exact ih after.length (by omega) _ after rfl s hAfter

theorem collect_ne_nil (s : ThinkSplitter) (deltas : List (List Char)) :
    ∀ out ∈ s.collect deltas, out.2 ≠ [] := by
  induction deltas generalizing s with
  | nil => exact segment_ne_nil _ _
  | cons delta deltas ih =>
    intro out hOut
    rcases List.mem_append.mp hOut with hNow | hLater
    · exact drain_ne_nil _ _ out hNow
    · exact ih _ out hLater

/-- A stream spread out: what the pushes give, and what the flush adds. -/
theorem spread_collect (s : ThinkSplitter) (deltas : List (List Char)) :
    spread (s.collect deltas) =
      (feedAll feed s deltas).2 ++ spread (feedAll feed s deltas).1.flush := by
  induction deltas generalizing s with
  | nil => rfl
  | cons delta deltas ih =>
    show spread ((s.push delta).2 ++ (s.push delta).1.collect deltas) = _
    rw [spread_append, ih]
    exact (List.append_assoc _ _ _).symm

/-- The deltas and their concatenation, spread out. -/
theorem spread_collect_flatten (deltas : List (List Char)) :
    spread (collect {} deltas) = spread (collect {} [deltas.flatten]) := by
  have hStart : Settled {} := ⟨rfl, rfl⟩
  rw [spread_collect, spread_collect, seamless.feedAll_eq hStart, seamless.feedAll_eq hStart,
    List.flatten_singleton]

/-- However a content was cut into deltas, its thinking and its answer are the same texts, in the
same order of alternation. -/
theorem collect_flatten (deltas : List (List Char)) :
    textOf true (collect {} deltas) = textOf true (collect {} [deltas.flatten]) ∧
      textOf false (collect {} deltas) = textOf false (collect {} [deltas.flatten]) ∧
      mergeAdjacent (collect {} deltas) = mergeAdjacent (collect {} [deltas.flatten]) := by
  have hSpread := spread_collect_flatten deltas
  refine ⟨?_, ?_, ?_⟩
  · rw [textOf_eq, textOf_eq, hSpread]
  · rw [textOf_eq, textOf_eq, hSpread]
  · rw [mergeAdjacent_eq (collect_ne_nil _ _), mergeAdjacent_eq (collect_ne_nil _ _), hSpread]

end ThinkSplitter

end ScreenSearch.Inference
