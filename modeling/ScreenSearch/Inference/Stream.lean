import ScreenSearch.Lib.Feeding
import ScreenSearch.Lib.Text

/-!
# The completion stream

The sidecar streams a completion as server-sent events. The bytes arrive in chunks that end
anywhere; the client buffers them, reads every complete line and forwards what it says. `[DONE]`
ends the stream at once, the end of the bytes ends it otherwise; an unterminated last line is
dropped.

Main results:

* `stream_flatten` — the chunks do what their concatenation does, whatever comes after them;
* `stream_finished` — a stream that ends well sends `done` once, at its end.
-/

namespace ScreenSearch.Inference

open Feeding

inductive StreamPiece where
  | reasoning (text : String)
  | content (text : String)
  | done
  deriving DecidableEq, Repr

/-- The `delta` of a choice. -/
structure Delta where
  content : Option String
  reasoningContent : Option String
  deriving DecidableEq, Repr

/-- The next of the byte stream: a chunk, or the error that ends the wait for it. -/
abbrev Arrival := Except String (List UInt8)

def newline : UInt8 := 10

section

variable (lossy : List UInt8 → String) (fromStr : String → Option (List Delta))

/-! ## One line -/

def nonEmpty (text : Option String) : Option String := text.filter fun s => !s.isEmpty

def sendDelta (delta : Delta) : List StreamPiece :=
  ((nonEmpty delta.reasoningContent).map StreamPiece.reasoning).toList ++
    ((nonEmpty delta.content).map StreamPiece.content).toList

/-- What a line sends; `some true` once `[DONE]` has ended the stream. -/
def handleSseLine (line : String) : List StreamPiece × Option Bool :=
  match Text.stripPrefix "data:" line with
  | none => ([], none)
  | some data =>
    let data := Text.trim data
    if data.isEmpty then ([], none)
    else if data = "[DONE]" then ([.done], some true)
    else match fromStr data with
      | none => ([], none)
      | some choices => ((choices.head?.map sendDelta).getD [], none)

/-! ## The loop over the chunks -/

/-- The loop over the complete lines of the buffer; no buffer is left once the stream is done. -/
def drainLines (buf : List UInt8) : List StreamPiece × Option (List UInt8) :=
  match _hFound : buf.findIdx? (· == newline) with
  | none => ([], some buf)
  | some nl =>
    let lineBytes := buf.take (nl + 1)
    let (sent, ended) := handleSseLine fromStr (Text.trimEnd (lossy lineBytes))
    if ended = some true then (sent, none)
    else
      let (later, rest) := drainLines (buf.drop (nl + 1))
      (sent ++ later, rest)
termination_by buf.length
decreasing_by
  have hBelow := (List.findIdx?_eq_some_iff_findIdx_eq.mp _hFound).1
  rw [List.length_drop]
  omega

def streamLoop (buf : List UInt8) : List Arrival → List StreamPiece × Except String Unit
  | [] => ([.done], .ok ())
  | .error e :: _ => ([], .error e)
  | .ok chunk :: arrivals =>
    match drainLines lossy fromStr (buf ++ chunk) with
    | (sent, none) => (sent, .ok ())
    | (sent, some rest) =>
      let (later, result) := streamLoop rest arrivals
      (sent ++ later, result)

/-- `SidecarClient::stream`: the pieces sent and what is returned. -/
def stream (arrivals : List Arrival) : List StreamPiece × Except String Unit :=
  streamLoop lossy fromStr [] arrivals

/-! ## Chunks -/

/-- A line without its end; nothing is read once the stream is done. -/
def readLine (done : Bool) (line : List UInt8) : Bool × List StreamPiece :=
  if done then (true, [])
  else
    let (sent, ended) := handleSseLine fromStr (Text.trimEnd (lossy (line ++ [newline])))
    (ended == some true, sent)

theorem handleAll_readLine_done (lines : List (List UInt8)) :
    handleAll (readLine lossy fromStr) true lines = (true, []) := by
  induction lines with
  | nil => rfl
  | cons line lines ih =>
    rw [handleAll_cons, show readLine lossy fromStr true line = (true, []) from rfl, ih]
    rfl

/-- The loop reads the lines of its buffer. -/
theorem drainLines_eq (buf : List UInt8) :
    drainLines lossy fromStr buf =
      ((handleAll (readLine lossy fromStr) false (cutLines newline buf).2).2,
        if (handleAll (readLine lossy fromStr) false (cutLines newline buf).2).1 then none
        else some (cutLines newline buf).1) := by
  induction h : buf.length using Nat.strongRecOn generalizing buf with
  | ind n ih =>
    rw [drainLines]
    split
    · next hNone =>
      have hAbsent : newline ∉ buf := by
        intro hMem
        rw [List.findIdx?_eq_none_iff] at hNone
        simpa using hNone newline hMem
      rw [cutLines_none hAbsent]
      rfl
    · next nl hFound =>
      obtain ⟨hLine, hBytes, hBuf⟩ := first_separator hFound
      have hBelow : nl < buf.length := (List.findIdx?_eq_some_iff_findIdx_eq.mp hFound).1
      have hRest := ih (buf.drop (nl + 1)).length (by rw [List.length_drop]; omega) _ rfl
      have hCut := cutLines_cons hLine (buf.drop (nl + 1))
      rw [← hBuf] at hCut
      rw [hCut, hBytes]
      rw [handleAll_cons, readLine, if_neg Bool.false_ne_true]
      dsimp only
      generalize handleSseLine fromStr (Text.trimEnd (lossy (buf.take nl ++ [newline]))) = answer
      obtain ⟨sent, ended⟩ := answer
      dsimp only
      by_cases hEnded : ended = some true
      · rw [if_pos hEnded, hEnded]
        show _ = (sent ++ (handleAll (readLine lossy fromStr) true _).2,
          if (handleAll (readLine lossy fromStr) true _).1 then none else _)
        rw [handleAll_readLine_done, List.append_nil]
        rfl
      · rw [if_neg hEnded, hRest]
        simp only [beq_eq_false_iff_ne.mpr hEnded]

/-- A stream that is done sends nothing more. -/
theorem through_done (buf : List UInt8) (chunks : List (List UInt8)) :
    ∃ rest, feedAll (through (feedLines newline) (readLine lossy fromStr)) (buf, true) chunks =
      ((rest, true), []) := by
  induction chunks generalizing buf with
  | nil => exact ⟨buf, rfl⟩
  | cons chunk chunks ih =>
    obtain ⟨rest, hRest⟩ := ih (feedLines newline buf chunk).1
    refine ⟨rest, ?_⟩
    rw [feedAll_cons, through_eq, handleAll_readLine_done, hRest]
    rfl

/-- The chunks up to something else, as one machine. -/
theorem streamLoop_chunks (buf : List UInt8) (chunks : List (List UInt8)) (rest : List Arrival) :
    streamLoop lossy fromStr buf (chunks.map .ok ++ rest) =
      let (last, sent) :=
        feedAll (through (feedLines newline) (readLine lossy fromStr)) (buf, false) chunks
      if last.2 then (sent, .ok ())
      else (sent ++ (streamLoop lossy fromStr last.1 rest).1,
        (streamLoop lossy fromStr last.1 rest).2) := by
  induction chunks generalizing buf with
  | nil => rfl
  | cons chunk chunks ih =>
    rw [List.map_cons, List.cons_append, streamLoop, drainLines_eq]
    rw [feedAll_cons, through_eq, feedLines]
    generalize cutLines newline (buf ++ chunk) = cut
    generalize handleAll (readLine lossy fromStr) false cut.2 = handled
    obtain ⟨done, sent⟩ := handled
    cases done with
    | true =>
      -- nothing more is read
      obtain ⟨last, hQuiet⟩ := through_done lossy fromStr cut.1 chunks
      dsimp only
      rw [hQuiet, List.append_nil]
      rfl
    | false =>
      dsimp only
      rw [if_neg Bool.false_ne_true]
      dsimp only
      rw [ih]
      dsimp only
      split
      · rfl
      · rw [List.append_assoc]

/-- However the bytes are cut into chunks, and whatever follows them, the same is sent and
returned. -/
theorem stream_flatten (chunks : List (List UInt8)) (rest : List Arrival) :
    stream lossy fromStr (chunks.map .ok ++ rest) =
      stream lossy fromStr (.ok chunks.flatten :: rest) := by
  have hStart : newline ∉ ([] : List UInt8) := List.not_mem_nil
  have hSeamless := (feedLines_seamless newline).through (readLine lossy fromStr)
  have hOne := streamLoop_chunks lossy fromStr [] [chunks.flatten] rest
  have hMany := streamLoop_chunks lossy fromStr [] chunks rest
  rw [hSeamless.feedAll_eq hStart] at hOne hMany
  rw [List.flatten_singleton] at hOne
  exact hMany.trans hOne.symm

/-! ## The end of a stream -/

/-- `done` is the last piece sent and no other is, if the stream ends well; else none is. -/
def Finished (outcome : List StreamPiece × Except String Unit) : Prop :=
  match outcome.2 with
  | .ok _ => ∃ sent, outcome.1 = sent ++ [.done] ∧ .done ∉ sent
  | .error _ => .done ∉ outcome.1

theorem done_not_mem_sendDelta (delta : Delta) : .done ∉ sendDelta delta := by
  intro hMem
  rcases List.mem_append.mp hMem with h | h
  · obtain ⟨text, -, hText⟩ := Option.map_eq_some_iff.mp (Option.mem_toList.mp h)
    cases hText
  · obtain ⟨text, -, hText⟩ := Option.map_eq_some_iff.mp (Option.mem_toList.mp h)
    cases hText

/-- A line ends the stream with `done`, or sends none. -/
theorem handleSseLine_done (line : String) :
    handleSseLine fromStr line = ([.done], some true) ∨
      (handleSseLine fromStr line).2 = none ∧ .done ∉ (handleSseLine fromStr line).1 := by
  unfold handleSseLine
  split
  · exact Or.inr ⟨rfl, List.not_mem_nil⟩
  · dsimp only
    split
    · exact Or.inr ⟨rfl, List.not_mem_nil⟩
    · split
      · exact Or.inl rfl
      · split
        · exact Or.inr ⟨rfl, List.not_mem_nil⟩
        · next choices _ =>
          refine Or.inr ⟨rfl, ?_⟩
          cases choices with
          | nil => exact List.not_mem_nil
          | cons delta _ => exact done_not_mem_sendDelta delta

theorem drainLines_done (buf : List UInt8) :
    (∃ sent, drainLines lossy fromStr buf = (sent ++ [.done], none) ∧ .done ∉ sent) ∨
      ∃ sent rest, drainLines lossy fromStr buf = (sent, some rest) ∧ .done ∉ sent := by
  induction h : buf.length using Nat.strongRecOn generalizing buf with
  | ind n ih =>
    rw [drainLines]
    split
    · exact Or.inr ⟨[], buf, rfl, List.not_mem_nil⟩
    · next nl hFound =>
      have hBelow : nl < buf.length := (List.findIdx?_eq_some_iff_findIdx_eq.mp hFound).1
      have hRest := ih (buf.drop (nl + 1)).length (by rw [List.length_drop]; omega) _ rfl
      dsimp only
      rcases handleSseLine_done fromStr (Text.trimEnd (lossy (buf.take (nl + 1))))
        with hLine | ⟨hNone, hSent⟩
      · rw [hLine]
        exact Or.inl ⟨[], rfl, List.not_mem_nil⟩
      · rw [hNone, if_neg (by simp)]
        generalize (handleSseLine fromStr _).1 = sent at hSent ⊢
        rcases hRest with ⟨later, hLater, hNot⟩ | ⟨later, rest, hLater, hNot⟩
        · rw [hLater]
          exact Or.inl ⟨sent ++ later, by rw [List.append_assoc],
            fun hMem => (List.mem_append.mp hMem).elim hSent hNot⟩
        · rw [hLater]
          exact Or.inr ⟨sent ++ later, rest, rfl,
            fun hMem => (List.mem_append.mp hMem).elim hSent hNot⟩

theorem Finished.append {sent : List StreamPiece} {outcome : List StreamPiece × Except String Unit}
    (hSent : .done ∉ sent) (h : Finished outcome) : Finished (sent ++ outcome.1, outcome.2) := by
  obtain ⟨later, result⟩ := outcome
  cases result with
  | error e => exact fun hMem => (List.mem_append.mp hMem).elim hSent h
  | ok _ =>
    obtain ⟨before, hBefore, hNot⟩ := h
    refine ⟨sent ++ before, ?_, fun hMem => (List.mem_append.mp hMem).elim hSent hNot⟩
    rw [show later = before ++ [.done] from hBefore, List.append_assoc]

theorem stream_finished (arrivals : List Arrival) : Finished (stream lossy fromStr arrivals) := by
  unfold stream
  generalize ([] : List UInt8) = buf
  induction arrivals generalizing buf with
  | nil => exact ⟨[], rfl, List.not_mem_nil⟩
  | cons arrival arrivals ih =>
    cases arrival with
    | error e => exact List.not_mem_nil
    | ok chunk =>
      rw [streamLoop]
      rcases drainLines_done lossy fromStr (buf ++ chunk)
        with ⟨sent, hDrain, hNot⟩ | ⟨sent, rest, hDrain, hNot⟩
      · rw [hDrain]
        exact ⟨sent, rfl, hNot⟩
      · rw [hDrain]
        exact (ih rest).append hNot

end

end ScreenSearch.Inference
