import ScreenSearch.Lib.Weighted
import ScreenSearch.Memory.MaskLaw
import ScreenSearch.Memory.Notes

/-!
# The Telegram digest

The masked report, shortened and cut into numbered messages. Lengths are those the
service counts, in UTF-16 units.

Main results:

* `unnumbered_numbered` — the number is taken off a message again;
* `digestText_shortened` — when the text carries the notice;
* `digestChunks_lossless` — the messages are the text, within the limit and in order.
-/

namespace ScreenSearch.Memory

open Mask Text Weighted

/-- `char::len_utf16` -/
def lenUtf16 (c : Char) : Nat := if c.toNat < 0x10000 then 1 else 2

def units (text : String) : Nat := total lenUtf16 text.toList

def bounded (text : String) (max : Nat) : String :=
  String.ofList (takeWithin lenUtf16 max 0 text.toList)

def shortenedNotice : String := "\n[Digest shortened; full report saved locally]"

/-- What stands above the report. -/
def digestHead (run : ReportRun) (outcome : ReportOutcome) (result : SavedReport) : String :=
  "ScreenSearch " ++ reportLabel run ++ "\n" ++
    (if outcome = .partialCoverage then "PARTIAL — incomplete coverage"
      else "OK — sampled coverage") ++ "\n" ++
    toString result.framesSummarized ++ " frames summarized; " ++ toString result.periodsCovered ++
    " periods covered\n\n"

section

variable (words : Words)

def digestText (run : ReportRun) (outcome : ReportOutcome) (result : SavedReport) : String :=
  let body := mask words result.markdown
  let shortened := bounded body 10000
  digestHead run outcome result ++ shortened ++
    (if shortened.utf8ByteSize < body.utf8ByteSize then shortenedNotice else "")

/-- The chunk at `index`, counted from one. -/
def numbered (count : Nat) (chunk : String) (index : Nat) : String :=
  "[" ++ toString (index + 1) ++ "/" ++ toString count ++ "]\n" ++ chunk

def digestChunks (run : ReportRun) : Except String (List String) :=
  match run.outcome with
  | none => .error "report has no outcome"
  | some outcome =>
    if outcome ≠ .ok ∧ outcome ≠ .partialCoverage then .ok []
    else
      match run.result with
      | none => .error "report has no saved output"
      | some result =>
        let chunks := (cut lenUtf16 3500 (digestText words run outcome result).toList).map
          String.ofList
        .ok (chunks.mapIdx fun index chunk => numbered chunks.length chunk index)

end

/-- A message without its number. -/
def unnumbered (message : String) : String := ((splitOnce "\n" message).map Prod.snd).getD ""

/-! ## Lengths -/

theorem lenUtf16_bounds (c : Char) : 1 ≤ lenUtf16 c ∧ lenUtf16 c ≤ 2 := by
  unfold lenUtf16
  split
  all_goals omega

theorem units_append (a b : String) : units (a ++ b) = units a + units b := by
  unfold units
  rw [String.toList_append, total_append]

/-- A number has as many units as digits. -/
theorem units_toString (n : Nat) : units (toString n) = (Nat.toDigits 10 n).length := by
  have hDigits : ∀ digits : List Char, (∀ c ∈ digits, c.isDigit = true) →
      total lenUtf16 digits = digits.length := by
    intro digits
    induction digits with
    | nil => exact fun _ => rfl
    | cons c digits ih =>
      intro hAll
      have hCode : 48 ≤ c.toNat ∧ c.toNat ≤ 57 :=
        Char.isDigit_iff_toNat.mp (hAll c (List.mem_cons_self ..))
      rw [total_cons, ih fun d hd => hAll d (List.mem_cons_of_mem _ hd), List.length_cons, lenUtf16,
        if_pos (by omega), Nat.add_comm]
  unfold units
  rw [Nat.toString_eq_repr, Nat.repr_eq_ofList_toDigits, String.toList_ofList]
  exact hDigits _ fun c hc => Nat.isDigit_of_mem_toDigits (by decide) (by decide) hc

theorem units_toString_le {n : Nat} (h : n < 10 ^ 20) : units (toString n) ≤ 20 := by
  rw [units_toString]
  exact (Nat.length_toDigits_le_iff (by decide) (by decide)).mpr h

theorem units_numbered {count index : Nat} {chunk : String} (hIndex : index < count)
    (hCount : count < 10 ^ 20) (hChunk : units chunk ≤ 3500) :
    units (numbered count chunk index) ≤ 4096 := by
  have hLeft : units (toString (index + 1)) ≤ 20 := units_toString_le (by omega)
  have hRight : units (toString count) ≤ 20 := units_toString_le hCount
  have hOpen : units "[" = 1 := by decide
  have hSlash : units "/" = 1 := by decide
  have hClose : units "]\n" = 2 := by decide
  unfold numbered
  repeat rw [units_append]
  omega

/-! ## Numbers -/

/-- Numbers have no line breaks, so the first one ends the number of a message. -/
theorem unnumbered_numbered (count : Nat) (chunk : String) (index : Nat) :
    unnumbered (numbered count chunk index) = chunk := by
  have hDigits : ∀ n : Nat, '\n' ∉ (toString n).toList := by
    intro n
    rw [Nat.toString_eq_repr, Nat.repr_eq_ofList_toDigits, String.toList_ofList]
    exact PrettyJson.toDigits_plain n
  set label := "[" ++ toString (index + 1) ++ "/" ++ toString count ++ "]" with hLabel
  have hPlain : '\n' ∉ label.toList := by
    rw [hLabel]
    simp only [String.toList_append, List.mem_append, not_or]
    exact ⟨⟨⟨⟨by decide, hDigits _⟩, by decide⟩, hDigits _⟩, by decide⟩
  have hMessage : (numbered count chunk index).toList =
      label.toList ++ ("\n".toList ++ chunk.toList) := by
    rw [hLabel]
    unfold numbered
    simp only [String.toList_append, List.append_assoc]
    rfl
  unfold unnumbered splitOnce
  rw [hMessage, splitAtFirst_append (by decide)]
  · exact String.ofList_toList
  · intro l r hSplit hSome hBreak
    rcases r with _ | ⟨c, r⟩
    · exact hSome rfl
    obtain ⟨rfl, -⟩ := List.cons_prefix_cons.mp hBreak
    rw [hSplit] at hPlain
    exact hPlain (List.mem_append_right _ (List.mem_cons_self ..))

/-! ## Messages -/

theorem bounded_begins (text : String) (max : Nat) : (bounded text max).toList <+: text.toList := by
  unfold bounded
  rw [String.toList_ofList]
  exact takeWithin_begins

theorem bounded_eq_self {text : String} {max : Nat} :
    bounded text max = text ↔ units text ≤ max := by
  have h : takeWithin lenUtf16 max 0 text.toList = text.toList ↔
      0 + total lenUtf16 text.toList ≤ max := takeWithin_eq_self (Nat.zero_le max)
  rw [Nat.zero_add] at h
  unfold units
  rw [← h]
  unfold bounded
  constructor
  · intro hSame
    conv_rhs => rw [← hSame]
    rw [String.toList_ofList]
  · intro hSame
    rw [hSame, String.ofList_toList]

/-- The report is there as a whole, or its longest beginning of ten thousand units and the
notice. -/
theorem digestText_shortened (words : Words) (run : ReportRun) (outcome : ReportOutcome)
    (result : SavedReport) :
    digestText words run outcome result = digestHead run outcome result ++
      bounded (mask words result.markdown) 10000 ++
        (if units (mask words result.markdown) ≤ 10000 then "" else shortenedNotice) := by
  set body := mask words result.markdown with hBody
  unfold digestText
  dsimp only
  rw [← hBody]
  refine congrArg _ ?_
  by_cases hFits : units body ≤ 10000
  · rw [bounded_eq_self.mpr hFits, if_neg (Nat.lt_irrefl _), if_pos hFits]
  · rw [if_neg hFits, if_pos]
    -- a beginning that is not everything has fewer bytes
    obtain ⟨rest, hRest⟩ := bounded_begins body 10000
    have hSome : rest ≠ [] := by
      rintro rfl
      rw [List.append_nil, String.toList_inj] at hRest
      exact hFits (bounded_eq_self.mp hRest)
    have hSplit : body = bounded body 10000 ++ String.ofList rest := by
      rw [← String.toList_inj, String.toList_append, String.toList_ofList, hRest]
    obtain ⟨c, others, rfl⟩ := List.exists_cons_of_ne_nil hSome
    have hLength := congrArg String.utf8ByteSize hSplit
    rw [String.utf8ByteSize_append, utf8ByteSize_ofList, List.map_cons, List.sum_cons] at hLength
    have := c.utf8Size_pos
    omega

theorem length_le_size (text : String) : text.toList.length ≤ text.utf8ByteSize := by
  conv_rhs => rw [← String.ofList_toList (s := text), utf8ByteSize_ofList]
  induction text.toList with
  | nil => exact Nat.le_refl _
  | cons c chars ih =>
    have := c.utf8Size_pos
    rw [List.length_cons, List.map_cons, List.sum_cons]
    omega

theorem length_le_flatten {pieces : List (List Char)} (hSome : ∀ piece ∈ pieces, piece ≠ []) :
    pieces.length ≤ pieces.flatten.length := by
  induction pieces with
  | nil => exact Nat.le_refl _
  | cons piece pieces ih =>
    have hPiece := List.length_pos_of_ne_nil (hSome piece (List.mem_cons_self ..))
    have hRest := ih fun other hOther => hSome other (List.mem_cons_of_mem _ hOther)
    rw [List.length_cons, List.flatten_cons, List.length_append]
    omega

theorem unnumbered_messages (count : Nat) (chunks : List String) :
    (chunks.mapIdx fun index chunk => numbered count chunk index).map unnumbered = chunks := by
  refine List.ext_getElem? fun index => ?_
  rw [List.getElem?_map, List.getElem?_mapIdx, Option.map_map]
  rcases chunks[index]? with _ | chunk
  · rfl
  · exact congrArg some (unnumbered_numbered count chunk index)

/-- What the messages of a text have to be. -/
structure Messages (text : String) (messages : List String) : Prop where
  lossless : String.join (messages.map unnumbered) = text
  limit : ∀ message ∈ messages, units message ≤ 4096
  order : ∀ (index : Nat) (message : String), messages[index]? = some message →
    message = numbered messages.length (unnumbered message) index

theorem join_ofList (chunks : List (List Char)) :
    String.join (chunks.map String.ofList) = String.ofList chunks.flatten := by
  rw [← String.toList_inj, String.toList_join, String.toList_ofList, List.flatMap_map]
  simp only [String.toList_ofList]
  exact List.flatMap_id ..

/-- The messages of a digest are its text, each within the limit, numbered in their order; the
text says that it was shortened exactly when it was. A text is a string of the machine. -/
theorem digestChunks_lossless (words : Words) (run : ReportRun) (outcome : ReportOutcome)
    (result : SavedReport) (hOutcome : run.outcome = some outcome)
    (hExported : outcome = .ok ∨ outcome = .partialCoverage) (hResult : run.result = some result)
    (hMachine : (digestText words run outcome result).utf8ByteSize < 2 ^ 63) :
    (∃ messages, digestChunks words run = .ok messages ∧
      Messages (digestText words run outcome result) messages) ∧
    digestText words run outcome result = digestHead run outcome result ++
      bounded (mask words result.markdown) 10000 ++
        (if units (mask words result.markdown) ≤ 10000 then "" else shortenedNotice) := by
  refine ⟨?_, digestText_shortened words run outcome result⟩
  set text := digestText words run outcome result with hText
  have hFits : ∀ c ∈ text.toList, lenUtf16 c ≤ 3500 := by
    intro c _
    have := lenUtf16_bounds c
    omega
  set pieces := cut lenUtf16 3500 text.toList with hPieces
  have hFlatten : pieces.flatten = text.toList := cut_flatten hFits
  have hWeight : ∀ piece ∈ pieces, piece ≠ [] ∧ total lenUtf16 piece ≤ 3500 := cut_weight hFits
  set chunks := pieces.map String.ofList with hChunks
  have hRun : digestChunks words run =
      .ok (chunks.mapIdx fun index chunk => numbered chunks.length chunk index) := by
    unfold digestChunks
    rw [hOutcome]
    dsimp only
    rw [if_neg (by rcases hExported with rfl | rfl <;> decide), hResult]
  have hCount : chunks.length < 10 ^ 20 := by
    have hPiecesLength := length_le_flatten fun piece hPiece => (hWeight piece hPiece).1
    rw [hFlatten] at hPiecesLength
    have := length_le_size text
    rw [hChunks, List.length_map]
    omega
  have hUnits : ∀ chunk ∈ chunks, units chunk ≤ 3500 := by
    intro chunk hChunk
    obtain ⟨piece, hPiece, rfl⟩ := List.mem_map.mp hChunk
    unfold units
    rw [String.toList_ofList]
    exact (hWeight piece hPiece).2
  refine ⟨_, hRun, ?_, ?_, ?_⟩
  · rw [unnumbered_messages, hChunks, join_ofList, hFlatten, String.ofList_toList]
  · intro message hMessage
    obtain ⟨index, hIndex, rfl⟩ := List.mem_mapIdx.mp hMessage
    exact units_numbered hIndex hCount (hUnits _ (List.getElem_mem hIndex))
  · intro index message hGet
    rw [List.getElem?_mapIdx] at hGet
    obtain ⟨chunk, -, rfl⟩ := Option.map_eq_some_iff.mp hGet
    rw [unnumbered_numbered, List.length_mapIdx]

def busyReport : SavedReport where
  markdown := "- wrote a letter"
  model := none
  frameIds := []
  sessionIds := []
  citedFrameIds := []
  framesSampled := 12
  framesSummarized := 12
  periodsTotal := 1
  periodsCovered := 1
  passes := 1
  truncated := false

def busyRun : ReportRun := { quietRun with outcome := some .ok, result := some busyReport }

theorem digestChunks_lossless_busy :
    (∃ messages, digestChunks asciiWords busyRun = .ok messages ∧
      Messages (digestText asciiWords busyRun .ok busyReport) messages) ∧
    digestText asciiWords busyRun .ok busyReport = digestHead busyRun .ok busyReport ++
      bounded (mask asciiWords busyReport.markdown) 10000 ++
        (if units (mask asciiWords busyReport.markdown) ≤ 10000 then "" else shortenedNotice) :=
  digestChunks_lossless asciiWords busyRun .ok busyReport rfl (.inl rfl) rfl (by decide +kernel)

end ScreenSearch.Memory
