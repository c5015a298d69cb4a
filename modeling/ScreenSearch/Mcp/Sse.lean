import ScreenSearch.Inference.Stream
import ScreenSearch.Lib.Ranking

/-!
# The answer stream

The answer endpoint streams its deltas as server-sent events. `SseLineBuffer` puts lines together
from chunks that end anywhere, `AskAggregator` folds the lines into an answer with its citations, and
`ask` stops at the first line that says so.

Main results:

* `push_eq` — the scan over the buffer cuts it into lines;
* `lines_flatten` — the lines are those of the whole, the unterminated one included;
* `askLoop_eq` — an answer is what the lines up to the one that ends it say;
* `reassembled` — neither reader of such a stream sees where it was cut.
-/

namespace ScreenSearch.Mcp

open Feeding
open ScreenSearch.Inference (Arrival newline)

def carriageReturn : UInt8 := 13

/-! ## Lines -/

section

variable (lossy : List UInt8 → String)

/-- `SseLineBuffer`: the bytes of an unfinished line. -/
structure SseLineBuffer where
  buf : List UInt8 := []
  deriving DecidableEq, Repr

namespace SseLineBuffer

/-- One position of the scan: a line from `start` ends at a newline. -/
def scan (buf : List UInt8) (found : Nat × List String) (pos : Nat) : Nat × List String :=
  let (start, lines) := found
  if buf[pos]? = some newline then
    let stop := if pos > start ∧ buf[pos - 1]? = some carriageReturn then pos - 1 else pos
    (pos + 1, lines ++ [lossy ((buf.take stop).drop start)])
  else (start, lines)

def push (b : SseLineBuffer) (chunk : List UInt8) : SseLineBuffer × List String :=
  let buf := b.buf ++ chunk
  let (start, lines) := (List.range buf.length).foldl (scan lossy buf) (0, [])
  ({ buf := buf.drop start }, lines)

/-- Without one trailing `\r`. -/
def stripCr (line : List UInt8) : List UInt8 :=
  if line.getLast? = some carriageReturn then line.dropLast else line

def finish (b : SseLineBuffer) : Option String :=
  if b.buf.isEmpty then none else some (lossy (stripCr b.buf))

/-- All pushes, then `finish`. -/
def lines (b : SseLineBuffer) : List (List UInt8) → List String
  | [] => (b.finish lossy).toList
  | chunk :: chunks =>
    let (next, now) := b.push lossy chunk
    now ++ next.lines chunks

/-- The line that ends at a position. -/
theorem scan_line {buf : List UInt8} {start pos : Nat} (hStart : start ≤ pos)
    (hPos : pos ≤ buf.length) :
    (buf.take (if pos > start ∧ buf[pos - 1]? = some carriageReturn then pos - 1 else pos)).drop
      start = stripCr ((buf.take pos).drop start) := by
  rcases Nat.eq_or_lt_of_le hStart with rfl | hLt
  · rw [if_neg (fun h => Nat.lt_irrefl _ h.1), List.drop_eq_nil_of_le (List.length_take_le _ _)]
    rfl
  · obtain ⟨last, rfl⟩ : ∃ last, pos = last + 1 := ⟨pos - 1, by omega⟩
    have hTake := List.take_succ_eq_append_getElem (Nat.lt_of_succ_le hPos)
    have hFront : start ≤ (buf.take last).length := by
      rw [List.length_take]
      omega
    have hSlice : (buf.take (last + 1)).drop start = (buf.take last).drop start ++ [buf[last]] := by
      rw [hTake, List.drop_append_of_le_length hFront]
    rw [hSlice, stripCr, List.getLast?_concat, List.dropLast_concat, Nat.add_sub_cancel,
      List.getElem?_eq_getElem (Nat.lt_of_succ_le hPos)]
    by_cases hCr : some buf[last] = some carriageReturn
    · rw [if_pos ⟨hLt, hCr⟩, if_pos hCr]
    · rw [if_neg fun h => hCr h.2, if_neg hCr, hSlice]

/-- The scan has cut the bytes before its position. -/
theorem scan_eq (buf : List UInt8) {pos : Nat} (hPos : pos ≤ buf.length) :
    let found := (List.range pos).foldl (scan lossy buf) (0, [])
    found.1 ≤ pos ∧ (buf.take pos).drop found.1 = (cutLines newline (buf.take pos)).1 ∧
      found.2 = (cutLines newline (buf.take pos)).2.map fun line => lossy (stripCr line) := by
  induction pos with
  | zero => exact ⟨Nat.le_refl 0, by simp [cutLines], by simp [cutLines]⟩
  | succ pos ih =>
    obtain ⟨hStart, hRest, hLines⟩ := ih (Nat.le_of_succ_le hPos)
    rw [List.range_succ, List.foldl_append, List.foldl_cons, List.foldl_nil]
    generalize (List.range pos).foldl (scan lossy buf) (0, []) = found at hStart hRest hLines ⊢
    obtain ⟨start, lines⟩ := found
    dsimp only at hStart hRest hLines
    have hLt : pos < buf.length := Nat.lt_of_succ_le hPos
    have hTake := List.take_succ_eq_append_getElem hLt
    have hFront : start ≤ (buf.take pos).length := by
      rw [List.length_take]
      omega
    have hNoSep := cutLines_rest newline (buf.take pos)
    rw [hTake, cutLines_append]
    generalize cutLines newline (buf.take pos) = cut at hRest hLines hNoSep ⊢
    unfold scan
    dsimp only
    rw [List.getElem?_eq_getElem hLt]
    by_cases hSep : some buf[pos] = some newline
    · -- a line ends here
      rw [if_pos hSep, Option.some.inj hSep, cutLines_cons hNoSep, scan_line hStart hLt.le, hRest,
        hLines, List.map_append]
      refine ⟨Nat.le_refl _, List.drop_eq_nil_of_le ?_, rfl⟩
      rw [List.length_append, List.length_take, List.length_singleton]
      omega
    · -- the byte belongs to the line that is still open
      have hOther : newline ∉ cut.1 ++ [buf[pos]] := by
        intro hMem
        rcases List.mem_append.mp hMem with hIn | hLast
        · exact hNoSep hIn
        · exact hSep (congrArg some (List.mem_singleton.mp hLast).symm)
      rw [if_neg hSep, cutLines_none hOther, List.append_nil]
      exact ⟨Nat.le_succ_of_le hStart, by rw [List.drop_append_of_le_length hFront, hRest], hLines⟩

/-- The scan over the buffer cuts it into lines. -/
theorem push_eq (b : SseLineBuffer) (chunk : List UInt8) :
    b.push lossy chunk = ({ buf := (feedLines newline b.buf chunk).1 },
      (feedLines newline b.buf chunk).2.map fun line => lossy (stripCr line)) := by
  obtain ⟨-, hRest, hLines⟩ := scan_eq lossy (b.buf ++ chunk) (Nat.le_refl _)
  rw [List.take_length] at hRest hLines
  unfold push feedLines
  dsimp only
  rw [hRest, hLines]

/-- All pushes at once. -/
theorem lines_eq (b : SseLineBuffer) (chunks : List (List UInt8)) :
    b.lines lossy chunks =
      ((feedAll (feedLines newline) b.buf chunks).2.map fun line => lossy (stripCr line)) ++
        (finish lossy { buf := (feedAll (feedLines newline) b.buf chunks).1 }).toList := by
  induction chunks generalizing b with
  | nil => rfl
  | cons chunk chunks ih =>
    rw [lines, push_eq]
    dsimp only
    rw [ih, feedAll_cons, List.map_append, List.append_assoc]

/-- The lines of the chunks are those of their concatenation. -/
theorem lines_flatten (chunks : List (List UInt8)) :
    lines lossy {} chunks = lines lossy {} [chunks.flatten] := by
  have hStart : newline ∉ ([] : List UInt8) := List.not_mem_nil
  rw [lines_eq, lines_eq, (feedLines_seamless newline).feedAll_eq hStart,
    (feedLines_seamless newline).feedAll_eq hStart, List.flatten_singleton]

end SseLineBuffer

end

/-! ## Deltas -/

/-- What is read of a payload: each field, if it is there with its type. -/
structure Payload where
  kind : Option String
  text : Option String
  frameId : Option Int
  message : Option String
  deriving DecidableEq, Repr

inductive Flow where
  | goOn
  | done
  | failed (message : String)
  deriving DecidableEq, Repr

structure AskAggregator where
  answer : String := ""
  citations : List Int := []
  tokensSeen : Bool := false
  deriving DecidableEq, Repr

structure AskOutcome where
  answer : String
  citations : List Int
  done : Bool
  tokensSeen : Bool
  deriving DecidableEq, Repr

/-- The failures of `ask` once its stream is open. -/
inductive ApiFailure where
  | api (code message : String)
  | transport (error : String)
  deriving DecidableEq, Repr

section

variable (lossy : List UInt8 → String) (fromStr : String → Option Payload)

/-- The payload of a `data:` line. -/
def payload (line : String) : Option Payload :=
  let line := Text.trimEnd line
  if line.isEmpty || line.startsWith ':' then none
  else ((Text.stripPrefix "data:" line).map Text.trimStart).bind fromStr

namespace AskAggregator

def addToken (agg : AskAggregator) (text : Option String) : AskAggregator :=
  match text with
  | none => agg
  | some t => { agg with answer := agg.answer ++ t, tokensSeen := true }

def addCitation (agg : AskAggregator) (frameId : Option Int) : AskAggregator :=
  match frameId with
  | none => agg
  | some id => if id ∈ agg.citations then agg else { agg with citations := agg.citations ++ [id] }

def feed (agg : AskAggregator) (line : String) : AskAggregator × Flow :=
  match payload fromStr line with
  | none => (agg, .goOn)
  | some value =>
    match value.kind with
    | some "token" => (agg.addToken value.text, .goOn)
    | some "citation" => (agg.addCitation value.frameId, .goOn)
    | some "thinking" => (agg, .goOn)
    | some "done" => (agg, .done)
    | some "error" =>
      (agg, .failed (value.message.getD "the answer stream reported an error"))
    | _ => (agg, .goOn)

/-- Lines up to the first one that stops the stream. -/
def feedUntil (agg : AskAggregator) : List String → AskAggregator × Flow
  | [] => (agg, .goOn)
  | line :: lines =>
    match agg.feed fromStr line with
    | (agg, .goOn) => agg.feedUntil lines
    | stopped => stopped

end AskAggregator

/-- The loop of `ask`: the aggregator and what stopped it, `goOn` if the stream just ended. -/
def askLoop (buffer : SseLineBuffer) (agg : AskAggregator) :
    List Arrival → Except String (AskAggregator × Flow)
  | [] =>
    match buffer.finish lossy with
    | none => .ok (agg, .goOn)
    | some last => .ok (agg.feed fromStr last)
  | .error e :: _ => .error e
  | .ok chunk :: arrivals =>
    let (buffer, lines) := buffer.push lossy chunk
    match agg.feedUntil fromStr lines with
    | (agg, .goOn) => askLoop buffer agg arrivals
    | stopped => .ok stopped

def ask (arrivals : List Arrival) : Except ApiFailure AskOutcome :=
  match askLoop lossy fromStr {} {} arrivals with
  | .error e => .error (.transport e)
  | .ok (_, .failed message) => .error (.api "answer_error" message)
  | .ok (agg, flow) =>
    .ok { answer := agg.answer, citations := agg.citations, done := flow == .done,
          tokensSeen := agg.tokensSeen }

/-! ## Chunks -/

open AskAggregator SseLineBuffer

theorem feedUntil_append (agg : AskAggregator) (a b : List String) :
    agg.feedUntil fromStr (a ++ b) =
      match agg.feedUntil fromStr a with
      | (agg, .goOn) => agg.feedUntil fromStr b
      | stopped => stopped := by
  induction a generalizing agg with
  | nil => rfl
  | cons line a ih =>
    rw [List.cons_append, feedUntil, feedUntil]
    rcases agg.feed fromStr line with ⟨next, _ | _ | _⟩
    · exact ih next
    · rfl
    · rfl

/-- All chunks, as lines of one buffer. -/
theorem askLoop_chunks (b : SseLineBuffer) (agg : AskAggregator) (chunks : List (List UInt8))
    (rest : List Arrival) :
    askLoop lossy fromStr b agg (chunks.map .ok ++ rest) =
      let (buf, lines) := feedAll (feedLines newline) b.buf chunks
      match agg.feedUntil fromStr (lines.map fun line => lossy (stripCr line)) with
      | (agg, .goOn) => askLoop lossy fromStr { buf } agg rest
      | stopped => .ok stopped := by
  induction chunks generalizing b agg with
  | nil => rfl
  | cons chunk chunks ih =>
    rw [List.map_cons, List.cons_append, askLoop, push_eq, feedAll_cons]
    dsimp only
    rw [List.map_append, feedUntil_append]
    rcases agg.feedUntil fromStr _ with ⟨next, _ | _ | _⟩
    · exact ih _ next
    · rfl
    · rfl

/-- However the bytes are cut into chunks, and whatever follows them, the aggregator and what
stopped it are the same. -/
theorem askLoop_flatten (chunks : List (List UInt8)) (rest : List Arrival) :
    askLoop lossy fromStr {} {} (chunks.map .ok ++ rest) =
      askLoop lossy fromStr {} {} (.ok chunks.flatten :: rest) := by
  have hStart : newline ∉ ([] : List UInt8) := List.not_mem_nil
  have hOne := askLoop_chunks lossy fromStr {} {} [chunks.flatten] rest
  have hMany := askLoop_chunks lossy fromStr {} {} chunks rest
  rw [(feedLines_seamless newline).feedAll_eq hStart] at hOne hMany
  rw [List.flatten_singleton] at hOne
  exact hMany.trans hOne.symm

/-! ## What an answer says -/

/-- What a line tells the reader to do, whatever came before it. -/
def flowOf (line : String) : Flow := (({} : AskAggregator).feed fromStr line).2

def tokenOf (line : String) : Option String :=
  (payload fromStr line).bind fun value => if value.kind = some "token" then value.text else none

def citationOf (line : String) : Option Int :=
  (payload fromStr line).bind fun value =>
    if value.kind = some "citation" then value.frameId else none

/-- The aggregator once it has read lines that go on. -/
def heard (lines : List String) : AskAggregator :=
  { answer := String.join (lines.filterMap (tokenOf fromStr))
    citations := (lines.filterMap (citationOf fromStr)).eraseDups
    tokensSeen := !(lines.filterMap (tokenOf fromStr)).isEmpty }

/-- The lines up to the first one that stops the stream. -/
def kept (lines : List String) : List String :=
  lines.takeWhile fun line => flowOf fromStr line == .goOn

def stoppedBy (lines : List String) : Flow :=
  ((lines.map (flowOf fromStr)).find? fun flow => flow != .goOn).getD .goOn

/-- A line is a token, a citation or neither, and says that to every aggregator. -/
theorem feed_eq (agg : AskAggregator) (line : String) :
    agg.feed fromStr line =
      ((agg.addToken (tokenOf fromStr line)).addCitation (citationOf fromStr line),
        flowOf fromStr line) := by
  unfold flowOf tokenOf citationOf feed
  rcases payload fromStr line with _ | ⟨kind, text, frameId, message⟩
  · rfl
  · dsimp only [Option.bind_some]
    split
    · rfl
    · rfl
    · rfl
    · rfl
    · rfl
    · next hNotToken hNotCitation _ _ _ =>
      rw [if_neg hNotToken, if_neg hNotCitation]
      rfl

/-- One more line that goes on. -/
theorem heard_concat (lines : List String) (line : String) :
    ((heard fromStr lines).addToken (tokenOf fromStr line)).addCitation (citationOf fromStr line) =
      heard fromStr (lines ++ [line]) := by
  have hToken : (lines ++ [line]).filterMap (tokenOf fromStr) =
      lines.filterMap (tokenOf fromStr) ++ (tokenOf fromStr line).toList := by
    rw [List.filterMap_append]
    rcases hLine : tokenOf fromStr line with _ | t <;> simp [hLine]
  have hCitation : (lines ++ [line]).filterMap (citationOf fromStr) =
      lines.filterMap (citationOf fromStr) ++ (citationOf fromStr line).toList := by
    rw [List.filterMap_append]
    rcases hLine : citationOf fromStr line with _ | id <;> simp [hLine]
  unfold heard
  rw [hToken, hCitation]
  generalize lines.filterMap (tokenOf fromStr) = texts
  generalize lines.filterMap (citationOf fromStr) = ids
  have hJoin : ∀ t, String.join (texts ++ [t]) = String.join texts ++ t := fun t => by
    rw [String.join, List.foldl_append]
    rfl
  rcases tokenOf fromStr line with _ | t
  · rcases citationOf fromStr line with _ | id
    · simp [addToken, addCitation]
    · by_cases hKnown : id ∈ ids <;>
        simp [addToken, addCitation, Ranking.eraseDups_concat, List.mem_eraseDups, hKnown]
  · rcases citationOf fromStr line with _ | id
    · simp [addToken, addCitation, hJoin]
    · by_cases hKnown : id ∈ ids <;>
        simp [addToken, addCitation, hJoin, Ranking.eraseDups_concat, List.mem_eraseDups, hKnown]

/-- A line that stops the stream is no token and no citation. -/
theorem quiet_of_stop {line : String} (h : flowOf fromStr line ≠ .goOn) :
    tokenOf fromStr line = none ∧ citationOf fromStr line = none := by
  unfold flowOf feed at h
  unfold tokenOf citationOf
  generalize payload fromStr line = read at h ⊢
  rcases read with _ | ⟨kind, text, frameId, message⟩
  · exact ⟨rfl, rfl⟩
  · simp only [Option.bind_some] at h ⊢
    split at h
    · exact absurd rfl h
    · exact absurd rfl h
    · exact absurd rfl h
    · exact ⟨rfl, rfl⟩
    · exact ⟨rfl, rfl⟩
    · exact absurd rfl h

/-- The aggregator reads exactly the lines up to the one that stops it. -/
theorem feedUntil_eq (lines : List String) :
    feedUntil fromStr {} lines = (heard fromStr (kept fromStr lines), stoppedBy fromStr lines) := by
  -- the induction is behind whatever was heard before
  suffices hAll : ∀ before, (heard fromStr before).feedUntil fromStr lines =
      (heard fromStr (before ++ kept fromStr lines), stoppedBy fromStr lines) from hAll []
  induction lines with
  | nil =>
    intro before
    rw [kept, List.takeWhile_nil, List.append_nil]
    rfl
  | cons line lines ih =>
    intro before
    rw [feedUntil, feed_eq, kept, List.takeWhile_cons, stoppedBy, List.map_cons, List.find?_cons]
    by_cases hFlow : flowOf fromStr line = .goOn
    · rw [hFlow, heard_concat]
      dsimp only
      rw [ih, List.append_assoc]
      rfl
    · -- the line that ends the stream says nothing else
      obtain ⟨hToken, hCitation⟩ := quiet_of_stop fromStr hFlow
      rw [hToken, hCitation]
      rcases hStop : flowOf fromStr line with _ | _ | message
      · exact absurd hStop hFlow
      · exact congrArg (fun lines => (heard fromStr lines, Flow.done)) (List.append_nil before).symm
      · exact congrArg (fun lines => (heard fromStr lines, Flow.failed message))
          (List.append_nil before).symm

/-- An answer is what its lines say, up to the one that ends it. -/
theorem askLoop_eq (chunks : List (List UInt8)) :
    askLoop lossy fromStr {} {} (chunks.map .ok) =
      .ok (heard fromStr (kept fromStr (lines lossy {} chunks)),
        stoppedBy fromStr (lines lossy {} chunks)) := by
  have hChunks := askLoop_chunks lossy fromStr {} {} chunks []
  rw [List.append_nil] at hChunks
  rw [hChunks, ← feedUntil_eq, lines_eq, feedUntil_append]
  generalize feedAll (feedLines newline) (SseLineBuffer.buf {}) chunks = all
  obtain ⟨buf, cut⟩ := all
  dsimp only
  rcases feedUntil fromStr {} _ with ⟨agg, _ | _ | _⟩
  · -- the unterminated line is the last one
    dsimp only
    rw [askLoop]
    rcases finish lossy { buf } with _ | last
    · rfl
    · dsimp only [Option.toList]
      rw [feedUntil]
      rcases agg.feed fromStr last with ⟨next, _ | _ | _⟩ <;> rfl
  · rfl
  · rfl

end

/-! ## Both readers -/

/-- Neither reader sees where the bytes were cut. The completion stream sends the same pieces, and
`done` once and last when it ends well; the answer stream has the same lines, hence the same answer,
citations and end, which are what the lines say. -/
theorem reassembled (lossy : List UInt8 → String)
    (choices : String → Option (List Inference.Delta)) (value : String → Option Payload)
    (chunks : List (List UInt8)) (rest : List Arrival) :
    Inference.stream lossy choices (chunks.map .ok ++ rest) =
        Inference.stream lossy choices (.ok chunks.flatten :: rest) ∧
      Inference.Finished (Inference.stream lossy choices (chunks.map .ok ++ rest)) ∧
      SseLineBuffer.lines lossy {} chunks = SseLineBuffer.lines lossy {} [chunks.flatten] ∧
      askLoop lossy value {} {} (chunks.map .ok ++ rest) =
        askLoop lossy value {} {} (.ok chunks.flatten :: rest) ∧
      askLoop lossy value {} {} (chunks.map .ok) =
        .ok (heard value (kept value (SseLineBuffer.lines lossy {} [chunks.flatten])),
          stoppedBy value (SseLineBuffer.lines lossy {} [chunks.flatten])) ∧
      (heard value (kept value (SseLineBuffer.lines lossy {} [chunks.flatten]))).citations.Nodup := by
  refine ⟨Inference.stream_flatten lossy choices chunks rest,
    Inference.stream_finished lossy choices _, SseLineBuffer.lines_flatten lossy chunks,
    askLoop_flatten lossy value chunks rest, ?_, Sorting.nodup_eraseDups _⟩
  rw [askLoop_eq, SseLineBuffer.lines_flatten]

end ScreenSearch.Mcp
