/-!
# Report-domain types shared by the report planner and the answer provider

A chunk's relevance score is not part of the model: nothing downstream of
retrieval reads it.
-/

namespace ScreenSearch

structure RetrievedChunk where
  frameId : Int
  text : String
  /-- Capture time of the source frame. -/
  capturedAt : Int
  deriving DecidableEq, Repr

inductive ReportRange where
  | daily | memoryDaily | weekly | custom
  deriving DecidableEq, Repr

inductive ReportMode where
  | empty | singlePass | mapReduce
  deriving DecidableEq, Repr

structure ReportConfig where
  dailyTopK : Nat
  weeklyTopK : Nat
  mapReduceMinFrames : Nat
  replyBudget : Nat
  deriving DecidableEq, Repr

structure ReportOutput where
  markdown : String
  citedFrameIds : List Int
  frameIds : List Int
  mode : ReportMode
  periodsTotal : Nat
  periodsCovered : Nat
  framesSampled : Nat
  framesSummarized : Nat
  passes : Nat
  truncated : Bool
  deriving DecidableEq, Repr

end ScreenSearch
