import Mathlib.Data.List.Basic
import ScreenSearch.Lib.DurableFile

/-!
# The bitmap of a chunked download

Beside the part file lies a header that names the download, up to a line break, and then one
character a chunk, `1` for a complete one. The header is read back by comparing it whole, and
no two headers are prefixes of one content.

Main results:

* `header_unique` — one content has one header;
* `marked_of_withMark` — completing a chunk marks its positions and no others;
* `not_marked_of_prefix_init` — a fresh bitmap marks nothing, however far it was written.
-/

namespace ScreenSearch.Download

/-! ## Chunks -/

/-- `total.div_ceil(chunk_size)`. -/
def chunkCount (total chunkSize : Nat) : Nat := (total + chunkSize - 1) / chunkSize

/-- The chunk size, except for the final chunk, which holds the remainder. -/
def chunkByteLen (index chunkSize total : Nat) : Nat :=
  let start := index * chunkSize
  min (start + chunkSize) total - start

/-- The position after the last one of the chunk. -/
def chunkLimit (index chunkSize total : Nat) : Nat :=
  index * chunkSize + chunkByteLen index chunkSize total

/-- The position is one of the chunk. -/
def InChunk (index chunkSize total x : Nat) : Prop :=
  index * chunkSize ≤ x ∧ x < chunkLimit index chunkSize total

/-! ## The bitmap -/

def headerFor (total chunkSize chunkCount : Nat) : List Char :=
  s!"SSV2CPARTS v1 {total} {chunkSize} {chunkCount}\n".toList

/-- The bitmap of a content whose header is the one of this download. -/
def load (total chunkSize chunkCount : Nat) (bytes : List Char) : Option (List Bool) :=
  let header := headerFor total chunkSize chunkCount
  if header.isPrefixOf bytes ∧ bytes.length = header.length + chunkCount then
    some ((bytes.drop header.length).map (· == '1'))
  else none

/-- A fresh bitmap. -/
def initContent (total chunkSize chunkCount : Nat) : List Char :=
  headerFor total chunkSize chunkCount ++ List.replicate chunkCount '0'

def pendingIndices (chunkCount : Nat) (done : List Bool) : List Nat :=
  (List.range chunkCount).filter fun i => done[i]? != some true

def anyComplete (done : List Bool) : Bool := done.contains true

/-- Where the mark of a chunk is. -/
def markOffset (total chunkSize chunkCount index : Nat) : Nat :=
  (headerFor total chunkSize chunkCount).length + index

/-- The mark of a chunk, written. -/
def withMark (total chunkSize chunkCount index : Nat) (bytes : List Char) : List Char :=
  writeAt '0' (markOffset total chunkSize chunkCount index) ['1'] bytes

/-- A bitmap with a mark, whatever it is for. -/
def hasDone (content : Option (List Char)) : Bool :=
  ((content.getD []).dropWhile (· != '\n')).contains '1'

/-- The content of the bitmap says, to a download with some chunk size, that the position is
there. -/
def Marked (total : Nat) (content : Option (List Char)) (x : Nat) : Prop :=
  ∃ bytes chunkSize done index, content = some bytes ∧ 0 < chunkSize ∧
    load total chunkSize (chunkCount total chunkSize) bytes = some done ∧
    done[index]? = some true ∧ InChunk index chunkSize total x

/-! ## Headers -/

variable {total chunkSize count index x : Nat} {bytes : List Char} {done : List Bool}

/-- A header without its line break. -/
def headerLine (total chunkSize chunkCount : Nat) : List Char :=
  "SSV2CPARTS v1 ".toList ++ Nat.toDigits 10 total ++ ' ' :: Nat.toDigits 10 chunkSize ++
    ' ' :: Nat.toDigits 10 chunkCount

theorem headerFor_eq (total chunkSize chunkCount : Nat) :
    headerFor total chunkSize chunkCount = headerLine total chunkSize chunkCount ++ ['\n'] := by
  have hDigits (n : Nat) : (toString n).toList = Nat.toDigits 10 n := by simp
  unfold headerFor headerLine
  simp only [String.toList_append, hDigits, List.append_assoc]
  rfl

theorem not_mem_toDigits {c : Char} (hDigit : c.isDigit = false) (n : Nat) :
    c ∉ Nat.toDigits 10 n := by
  intro hMem
  rw [Nat.isDigit_of_mem_toDigits (by decide) (by decide) hMem] at hDigit
  cases hDigit

theorem toDigits_injective {m n : Nat} (h : Nat.toDigits 10 m = Nat.toDigits 10 n) : m = n := by
  have hValue := congrArg (Nat.ofDigitChars 10 · 0) h
  simpa only [Nat.ofDigitChars_ten_toDigits] using hValue

theorem lineBreak_not_mem_headerLine : '\n' ∉ headerLine total chunkSize count := by
  unfold headerLine
  simp only [List.mem_append, List.mem_cons, not_or]
  refine ⟨⟨⟨by decide, not_mem_toDigits rfl _⟩, by decide, not_mem_toDigits rfl _⟩, by decide,
    not_mem_toDigits rfl _⟩

/-- What stands before the first space. -/
theorem eq_of_append_space {a b r s : List Char} (hA : ' ' ∉ a) (hB : ' ' ∉ b)
    (h : a ++ ' ' :: r = b ++ ' ' :: s) : a = b ∧ r = s := by
  induction a generalizing b with
  | nil =>
    rcases b with - | ⟨c, b⟩
    · exact ⟨rfl, (List.cons.inj h).2⟩
    · exact absurd ((List.cons.inj h).1 ▸ List.mem_cons_self) hB
  | cons c a ih =>
    rcases b with - | ⟨d, b⟩
    · exact absurd ((List.cons.inj h).1 ▸ List.mem_cons_self) hA
    · obtain ⟨rfl, hTail⟩ := List.cons.inj h
      rw [List.mem_cons, not_or] at hA hB
      obtain ⟨rfl, hRest⟩ := ih hA.2 hB.2 hTail
      exact ⟨rfl, hRest⟩

/-- The header names the chunk size. -/
theorem chunkSize_eq_of_headerFor_eq {chunkSize' count' : Nat}
    (h : headerFor total chunkSize count = headerFor total chunkSize' count') :
    chunkSize = chunkSize' := by
  rw [headerFor_eq, headerFor_eq] at h
  unfold headerLine at h
  simp only [List.append_assoc, List.cons_append, List.append_cancel_left_eq,
    List.cons.injEq, true_and] at h
  exact toDigits_injective
    (eq_of_append_space (not_mem_toDigits rfl _) (not_mem_toDigits rfl _) h).1

theorem header_unique {chunkSize' count' : Nat}
    (h : headerFor total chunkSize count <+: bytes)
    (h' : headerFor total chunkSize' count' <+: bytes) :
    headerFor total chunkSize count = headerFor total chunkSize' count' := by
  have hNested : ∀ {m n m' n' : Nat}, headerFor total m n <+: headerFor total m' n' →
      headerFor total m n = headerFor total m' n' := by
    intro m n m' n' hPrefix
    rw [headerFor_eq total m' n', List.prefix_concat_iff] at hPrefix
    rcases hPrefix with hEq | hPrefix
    · rw [hEq, headerFor_eq]
    · have hBreak : '\n' ∈ headerFor total m n := by
        rw [headerFor_eq]
        exact List.mem_append_right _ (List.mem_singleton.mpr rfl)
      exact absurd (hPrefix.subset hBreak) lineBreak_not_mem_headerLine
  rcases List.prefix_or_prefix_of_prefix h h' with hPrefix | hPrefix
  · exact hNested hPrefix
  · exact (hNested hPrefix).symm

/-! ## Marks -/

theorem load_eq_some_iff : load total chunkSize count bytes = some done ↔
    headerFor total chunkSize count <+: bytes ∧
      bytes.length = (headerFor total chunkSize count).length + count ∧
      (bytes.drop (headerFor total chunkSize count).length).map (· == '1') = done := by
  unfold load
  simp only [List.isPrefixOf_iff_prefix]
  split
  case isTrue h => simp [h]
  case isFalse h =>
    constructor
    · intro hNone
      cases hNone
    · rintro ⟨hPrefix, hLength, -⟩
      exact absurd ⟨hPrefix, hLength⟩ h

/-- A chunk is complete where the bitmap has its mark. -/
theorem done_iff (hLoad : load total chunkSize count bytes = some done) :
    done[index]? = some true ↔ bytes[markOffset total chunkSize count index]? = some '1' := by
  obtain ⟨-, -, rfl⟩ := load_eq_some_iff.mp hLoad
  rw [List.getElem?_map, List.getElem?_drop, Option.map_eq_some_iff]
  unfold markOffset
  constructor
  · rintro ⟨c, hGet, hOne⟩
    rw [hGet, beq_iff_eq.mp hOne]
  · intro hGet
    exact ⟨'1', hGet, rfl⟩

theorem load_length (hLoad : load total chunkSize count bytes = some done) :
    done.length = count := by
  obtain ⟨-, hLength, rfl⟩ := load_eq_some_iff.mp hLoad
  rw [List.length_map, List.length_drop]
  omega

/-- A bitmap that could be loaded marks the positions of its complete chunks. -/
theorem marked_of_done (hSize : 0 < chunkSize)
    (hLoad : load total chunkSize (chunkCount total chunkSize) bytes = some done)
    (hDone : done[index]? = some true) (hIn : InChunk index chunkSize total x) :
    Marked total (some bytes) x :=
  ⟨bytes, chunkSize, done, index, rfl, hSize, hLoad, hDone, hIn⟩

/-- A bitmap that could be loaded marks nothing else. -/
theorem not_marked_of_no_done
    (hLoad : load total chunkSize (chunkCount total chunkSize) bytes = some done)
    (hNone : ∀ i : Nat, done[i]? ≠ some true) : ¬ Marked total (some bytes) x := by
  rintro ⟨bytes', chunkSize', done', i, hSome, -, hLoad', hDone', -⟩
  obtain rfl := Option.some.inj hSome
  obtain rfl := chunkSize_eq_of_headerFor_eq (header_unique
    (load_eq_some_iff.mp hLoad').1 (load_eq_some_iff.mp hLoad).1)
  obtain rfl := Option.some.inj (hLoad.symm.trans hLoad')
  exact hNone i hDone'

theorem load_init : load total chunkSize count (initContent total chunkSize count) =
    some (List.replicate count false) := by
  unfold initContent
  refine load_eq_some_iff.mpr ⟨List.prefix_append _ _, ?_, ?_⟩
  · rw [List.length_append, List.length_replicate]
  · rw [List.drop_left, List.map_replicate]
    rfl

theorem not_marked_none : ¬ Marked total none x := by
  rintro ⟨bytes, chunkSize, done, index, hSome, -⟩
  cases hSome

theorem hasDone_of_marked {content : Option (List Char)} (hMarked : Marked total content x) :
    hasDone content = true := by
  obtain ⟨bytes, chunkSize, done, index, rfl, -, hLoad, hDone, -⟩ := hMarked
  have hMark := (done_iff hLoad).mp hDone
  obtain ⟨⟨rest, hBytes⟩, -, -⟩ := load_eq_some_iff.mp hLoad
  unfold hasDone
  rw [Option.getD_some, List.contains_iff_mem]
  have hDrop : bytes.dropWhile (· != '\n') = '\n' :: rest := by
    rw [← hBytes, headerFor_eq, List.append_assoc, List.dropWhile_append_of_pos]
    · rfl
    · intro c hc
      rw [bne_iff_ne]
      rintro rfl
      exact lineBreak_not_mem_headerLine hc
  unfold markOffset at hMark
  rw [← hBytes, List.getElem?_append_right (Nat.le_add_right _ _)] at hMark
  rw [hDrop]
  exact List.mem_cons_of_mem _ (List.mem_of_getElem? hMark)

theorem not_marked_of_prefix_init (hPrefix : bytes <+: initContent total chunkSize count) :
    ¬ Marked total (some bytes) x := by
  rintro ⟨bytes', chunkSize', done, index, hSome, -, hLoad, hDone, -⟩
  obtain rfl : bytes = bytes' := Option.some.inj hSome
  have hMark := (done_iff hLoad).mp hDone
  obtain ⟨hHeader, -, -⟩ := load_eq_some_iff.mp hLoad
  have hSame := header_unique (hHeader.trans hPrefix) (List.prefix_append _ _)
  obtain ⟨hLt, hGet⟩ := List.getElem?_eq_some_iff.mp hMark
  have hInit := List.prefix_iff_getElem?.mp hPrefix _ hLt
  rw [hGet] at hInit
  unfold initContent markOffset at hInit
  rw [hSame, List.getElem?_append_right (Nat.le_add_right _ _)] at hInit
  exact absurd (List.eq_of_mem_replicate (List.mem_of_getElem? hInit)) (by decide)

theorem mark_fits (hLoad : load total chunkSize count bytes = some done) (hIndex : index < count) :
    markOffset total chunkSize count index + ['1'].length ≤ bytes.length := by
  obtain ⟨-, hLength, -⟩ := load_eq_some_iff.mp hLoad
  unfold markOffset
  rw [hLength, List.length_singleton]
  omega

theorem getElem?_withMark (hLoad : load total chunkSize count bytes = some done)
    (hIndex : index < count) : (withMark total chunkSize count index bytes)[x]? =
      if x = markOffset total chunkSize count index then some '1' else bytes[x]? := by
  unfold withMark
  rw [getElem?_writeAt (mark_fits hLoad hIndex), List.length_singleton]
  by_cases hAt : x = markOffset total chunkSize count index
  · rw [if_pos hAt, if_pos (by omega), hAt, Nat.sub_self]
    rfl
  · rw [if_neg hAt, if_neg (by omega)]

theorem header_prefix_withMark (hLoad : load total chunkSize count bytes = some done)
    (hIndex : index < count) :
    headerFor total chunkSize count <+: withMark total chunkSize count index bytes := by
  obtain ⟨hHeader, -, -⟩ := load_eq_some_iff.mp hLoad
  rw [List.prefix_iff_getElem?] at hHeader ⊢
  intro i hi
  rw [getElem?_withMark hLoad hIndex, if_neg (by unfold markOffset; omega)]
  exact hHeader i hi

/-- Writing a mark keeps the header. -/
theorem load_withMark (hLoad : load total chunkSize count bytes = some done)
    (hIndex : index < count) : ∃ done', load total chunkSize count
      (withMark total chunkSize count index bytes) = some done' := by
  refine ⟨_, load_eq_some_iff.mpr ⟨header_prefix_withMark hLoad hIndex, ?_, rfl⟩⟩
  unfold withMark
  rw [length_writeAt (mark_fits hLoad hIndex)]
  exact (load_eq_some_iff.mp hLoad).2.1

/-- Completing a chunk marks its positions and no others. -/
theorem marked_of_withMark (hSize : 0 < chunkSize)
    (hLoad : load total chunkSize (chunkCount total chunkSize) bytes = some done)
    (hIndex : index < chunkCount total chunkSize)
    (hMarked : Marked total (some (withMark total chunkSize (chunkCount total chunkSize) index
      bytes)) x) :
    Marked total (some bytes) x ∨ InChunk index chunkSize total x := by
  obtain ⟨bytes', chunkSize', done', i, hSome, -, hLoad', hDone', hIn⟩ := hMarked
  obtain rfl := Option.some.inj hSome
  -- The header did not change, so the content is one for the same chunk size.
  obtain rfl : chunkSize' = chunkSize :=
    chunkSize_eq_of_headerFor_eq (header_unique (load_eq_some_iff.mp hLoad').1
      (header_prefix_withMark hLoad hIndex))
  have hMark := (done_iff hLoad').mp hDone'
  rw [getElem?_withMark hLoad hIndex] at hMark
  by_cases hSame : i = index
  · subst hSame
    exact Or.inr hIn
  · rw [if_neg (by unfold markOffset; omega)] at hMark
    exact Or.inl (marked_of_done hSize hLoad ((done_iff hLoad).mpr hMark) hIn)

end ScreenSearch.Download
