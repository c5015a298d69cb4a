import Mathlib.Data.Int.Notation

/-!
# Job-queue types
-/

namespace ScreenSearch

inductive JobKind where
  | embedText | visionTag
  deriving DecidableEq, Repr

inductive JobState where
  | pending | running | done | failed | dead
  deriving DecidableEq, Repr

/-- A job to enqueue. -/
structure NewJob where
  kind : JobKind
  frameId : Option Int
  priority : Int
  maxAttempts : Int
  notBefore : Int
  deriving DecidableEq, Repr

structure Job where
  id : Int
  kind : JobKind
  frameId : Option Int
  state : JobState
  priority : Int
  attempts : Int
  maxAttempts : Int
  notBefore : Int
  lastError : Option String
  createdAt : Int
  updatedAt : Int
  deriving DecidableEq, Repr

end ScreenSearch
