import Mathlib.Data.Int.Order.Basic
import Mathlib.Data.List.Basic
import Mathlib.Data.List.Induction
import ScreenSearch.Traits.History

/-!
# Capture observations

A bounded buffer of what was observed of capture: when it was started, and when and why it was
interrupted. What the buffer no longer knows, because it is full or the clock went backwards,
it says it does not know.

Main results:

* `recorded_inv` — what every record keeps: past the boundary and outside the gap, the last
  transition at or before an instant is the last observation made of it;
* `intervals_at` — the intervals of a complete snapshot that contain an instant;
* `snapshot_truthful` — a complete snapshot says what was last observed of every instant.
-/

namespace ScreenSearch.Kernel

def transitionCap : Nat := 1000

def intervalCap : Nat := 100

inductive CaptureInterruptionReason where
  | captureStopped
  | workerError
  deriving DecidableEq, Repr

structure CaptureInterruption where
  start : Int
  «end» : Option Int
  reason : CaptureInterruptionReason
  deriving DecidableEq, Repr

structure CaptureObservations where
  observationStartedAt : Int
  unavailableBefore : Int
  intervals : List CaptureInterruption
  truncated : Bool
  deriving DecidableEq, Repr

inductive CaptureObservation where
  | started
  | interrupted (reason : CaptureInterruptionReason)
  deriving DecidableEq, Repr

structure Transition where
  time : Int
  observation : CaptureObservation
  deriving DecidableEq, Repr

/-- The gap that a backwards clock leaves. -/
structure UnknownCondition where
  «from» : Int
  «until» : Option Int
  deriving DecidableEq, Repr

structure CaptureObservationBuffer where
  observationStartedAt : Int
  unavailableBefore : Int
  /-- Oldest first. -/
  transitions : List Transition
  unknownCondition : Option UnknownCondition
  deriving DecidableEq, Repr

namespace CaptureObservationBuffer

/-- What the creation of the buffer counts as. -/
def creation (time : Int) : Transition where
  time := time
  observation := .interrupted .captureStopped

def new (time : Int) : CaptureObservationBuffer where
  observationStartedAt := time
  unavailableBefore := time
  transitions := [creation time]
  unknownCondition := none

def latest (b : CaptureObservationBuffer) : Int :=
  (b.transitions.getLast?.map Transition.time).getD b.unavailableBefore

/-- The clock went backwards. -/
def discard (b : CaptureObservationBuffer) : CaptureObservationBuffer :=
  { b with
    unavailableBefore := max b.unavailableBefore b.latest
    transitions := []
    unknownCondition := some { «from» := max b.unavailableBefore b.latest, «until» := none } }

/-- The oldest transition goes when there are too many. -/
def evict (b : CaptureObservationBuffer) : CaptureObservationBuffer :=
  if b.transitions.length > transitionCap then
    { b with
      transitions := b.transitions.tail
      unavailableBefore :=
        (b.transitions.tail.head?.map Transition.time).getD b.unavailableBefore }
  else b

def push (b : CaptureObservationBuffer) (q : Transition) : CaptureObservationBuffer :=
  let b := evict { b with transitions := b.transitions ++ [q] }
  { b with unknownCondition := b.unknownCondition.map fun unknown =>
      { unknown with «until» := some (unknown.until.getD q.time) } }

def record (b : CaptureObservationBuffer) (q : Transition) : CaptureObservationBuffer :=
  if q.time < b.latest then b.discard
  else if b.transitions.getLast?.any fun last => last.observation = q.observation then b
  else b.push q

def recordAll (b : CaptureObservationBuffer) (records : List Transition) :
    CaptureObservationBuffer :=
  records.foldl record b

def conditionUnknownIn (b : CaptureObservationBuffer) (window : EvidenceWindow) : Bool :=
  b.unknownCondition.any fun unknown =>
    decide (window.from < unknown.until.getD i64Max) && decide (unknown.from < window.to)

end CaptureObservationBuffer

/-- Whether an interval has no instant in the window, or none at all. -/
def CaptureInterruption.excluded (interval : CaptureInterruption) (window : EvidenceWindow) : Bool :=
  decide (interval.start ≥ window.to) ||
    interval.end.any fun last => decide (last ≤ window.from) || decide (last ≤ interval.start)

/-- `include`. -/
def CaptureObservations.add (window : EvidenceWindow) (s : CaptureObservations)
    (interval : CaptureInterruption) : CaptureObservations :=
  if interval.excluded window then s
  else if s.intervals.length = intervalCap then { s with truncated := true }
  else { s with intervals := s.intervals ++ [interval] }

/-- The interval that a transition opens. -/
def Transition.opens (t : Transition) : Option CaptureInterruption :=
  match t.observation with
  | .interrupted reason => some { start := t.time, «end» := none, reason := reason }
  | .started => none

/-- The loop of `snapshot`, with the interval that is open. -/
def CaptureObservations.scan (window : EvidenceWindow) (s : CaptureObservations) :
    List Transition → Option CaptureInterruption → CaptureObservations
  | [], none => s
  | [], some interval => s.add window interval
  | t :: rest, none => scan window s rest t.opens
  | t :: rest, some interval =>
    scan window (s.add window { interval with «end» := some t.time }) rest t.opens

def CaptureObservationBuffer.snapshot (b : CaptureObservationBuffer) (window : EvidenceWindow) :
    CaptureObservations :=
  CaptureObservations.scan window
    { observationStartedAt := b.observationStartedAt
      unavailableBefore := b.unavailableBefore
      intervals := []
      truncated := decide (window.from < b.unavailableBefore) || b.conditionUnknownIn window }
    b.transitions none

/-! ## The property -/

namespace CaptureObservationBuffer

variable {b : CaptureObservationBuffer} {window : EvidenceWindow} {t start : Int} {q : Transition}
variable {records : List Transition}

/-- None of the records makes the buffer discard what it has. -/
def Ordered : CaptureObservationBuffer → List Transition → Prop
  | _, [] => True
  | b, q :: rest => b.latest ≤ q.time ∧ Ordered (b.record q) rest

/-- The last observation made at or before `t`, of which nothing was discarded since. -/
inductive InForce (start t : Int) : List Transition → CaptureObservation → Prop where
  | created {records : List Transition} (hTime : start ≤ t) (hLater : ∀ q ∈ records, t < q.time)
      (hOrdered : (new start).Ordered records) :
      InForce start t records (creation start).observation
  | recorded {earlier later : List Transition} {q : Transition} (hTime : q.time ≤ t)
      (hLater : ∀ r ∈ later, t < r.time)
      (hOrdered : ((new start).recordAll earlier).Ordered (q :: later)) :
      InForce start t (earlier ++ q :: later) q.observation

end CaptureObservationBuffer

def CaptureInterruption.contains (interval : CaptureInterruption) (t : Int) : Bool :=
  decide (interval.start ≤ t) && interval.end.all fun last => decide (t < last)

/-- The reasons of the interruption that an observation is. -/
def CaptureObservation.reasons : CaptureObservation → List CaptureInterruptionReason
  | .started => []
  | .interrupted reason => [reason]

/-! ## The intervals of a snapshot -/

variable {window : EvidenceWindow} {t : Int} {s : CaptureObservations} {q x : Transition}
variable {transitions post : List Transition}

/-- An interval that is open, closed by the next transition. -/
def closed (transitions : List Transition) (interval : Option CaptureInterruption) :
    List CaptureInterruption :=
  (interval.map fun interval =>
    { interval with «end» := transitions.head?.map Transition.time }).toList

/-- The intervals that the transitions are the ends of. -/
def spans : List Transition → List CaptureInterruption
  | [] => []
  | x :: rest => closed rest x.opens ++ spans rest

theorem opens_end {interval : CaptureInterruption} (h : interval ∈ x.opens) :
    interval.start = x.time ∧ interval.end = none := by
  unfold Transition.opens at h
  split at h
  · obtain rfl := Option.some.inj h
    exact ⟨rfl, rfl⟩
  · cases h

theorem mem_closed {interval : CaptureInterruption} (h : interval ∈ closed transitions x.opens) :
    interval.start = x.time ∧ interval.end = transitions.head?.map Transition.time := by
  obtain ⟨opened, hOpened, rfl⟩ := Option.map_eq_some_iff.mp (Option.mem_toList.mp h)
  exact ⟨(opens_end hOpened).1, rfl⟩

theorem scan_eq {interval : Option CaptureInterruption} (h : ∀ i ∈ interval, i.end = none) :
    CaptureObservations.scan window s transitions interval =
      (closed transitions interval ++ spans transitions).foldl (CaptureObservations.add window) s := by
  induction transitions generalizing s interval with
  | nil =>
    rcases interval with - | i
    · rfl
    · obtain ⟨start, last, reason⟩ := i
      obtain rfl : last = none := h _ rfl
      rfl
  | cons x rest ih =>
    have hOpens : ∀ i ∈ x.opens, i.end = none := fun i hi => (opens_end hi).2
    rcases interval with - | i
    · exact ih hOpens
    · exact ih hOpens

/-- A snapshot that stays complete takes every interval that meets the window. -/
theorem foldl_add_complete {l : List CaptureInterruption}
    (h : (l.foldl (CaptureObservations.add window) s).truncated = false) :
    s.truncated = false ∧ (l.foldl (CaptureObservations.add window) s).intervals =
      s.intervals ++ l.filter fun interval => !interval.excluded window := by
  induction l generalizing s with
  | nil => exact ⟨h, (List.append_nil _).symm⟩
  | cons interval rest ih =>
    obtain ⟨hTruncated, hIntervals⟩ := ih h
    rw [List.foldl_cons, hIntervals]
    unfold CaptureObservations.add at hTruncated ⊢
    split at hTruncated
    · next hExcluded =>
      rw [List.filter_cons_of_neg (by simp [hExcluded]), if_pos hExcluded]
      exact ⟨hTruncated, rfl⟩
    · next hMeets =>
      split at hTruncated
      · cases hTruncated
      · next hRoom =>
        rw [List.filter_cons_of_pos (by simp [hMeets]), if_neg hMeets, if_neg hRoom]
        exact ⟨hTruncated, List.append_assoc ..⟩

theorem mem_foldl_add {l : List CaptureInterruption} {interval : CaptureInterruption}
    (h : interval ∈ (l.foldl (CaptureObservations.add window) s).intervals) :
    interval ∈ s.intervals ∨ interval ∈ l ∧ interval.excluded window = false := by
  induction l generalizing s with
  | nil => exact .inl h
  | cons first rest ih =>
    rcases ih h with hBefore | ⟨hRest, hMeets⟩
    · unfold CaptureObservations.add at hBefore
      split at hBefore
      · exact .inl hBefore
      · next hFirst =>
        split at hBefore
        · exact .inl hBefore
        · rcases List.mem_append.mp hBefore with hOld | hNew
          · exact .inl hOld
          · rw [List.mem_singleton.mp hNew]
            exact .inr ⟨List.mem_cons_self, Bool.eq_false_iff.mpr hFirst⟩
    · exact .inr ⟨List.mem_cons_of_mem _ hRest, hMeets⟩

theorem contains_iff {interval : CaptureInterruption} :
    interval.contains t = true ↔ interval.start ≤ t ∧ ∀ last ∈ interval.end, t < last := by
  unfold CaptureInterruption.contains
  rw [Bool.and_eq_true, decide_eq_true_eq, Option.all_eq_true]
  exact and_congr_right fun _ => forall₂_congr fun _ _ => decide_eq_true_iff

/-- An interval that contains an instant of the window meets the window. -/
theorem meets_of_contains {interval : CaptureInterruption} (h : interval.contains t = true)
    (hFrom : window.from ≤ t) (hTo : t < window.to) : interval.excluded window = false := by
  obtain ⟨hStart, hEnd⟩ := contains_iff.mp h
  unfold CaptureInterruption.excluded
  rw [Bool.or_eq_false_iff, decide_eq_false_iff_not]
  refine ⟨by omega, ?_⟩
  rw [Option.any_eq_false]
  intro last hLast
  have := hEnd last hLast
  rw [Bool.or_eq_false_iff, decide_eq_false_iff_not, decide_eq_false_iff_not]
  omega

theorem spans_start {interval : CaptureInterruption} (h : interval ∈ spans transitions) :
    ∃ x ∈ transitions, interval.start = x.time := by
  induction transitions with
  | nil => cases h
  | cons x rest ih =>
    rcases List.mem_append.mp h with hFirst | hRest
    · exact ⟨x, List.mem_cons_self, (mem_closed hFirst).1⟩
    · obtain ⟨y, hMem, hStart⟩ := ih hRest
      exact ⟨y, List.mem_cons_of_mem _ hMem, hStart⟩

theorem spans_end {interval : CaptureInterruption} {last : Int} (h : interval ∈ spans transitions)
    (hLast : last ∈ interval.end) : ∃ x ∈ transitions, last = x.time := by
  induction transitions with
  | nil => cases h
  | cons x rest ih =>
    rcases List.mem_append.mp h with hFirst | hRest
    · rw [(mem_closed hFirst).2] at hLast
      obtain ⟨y, hHead, rfl⟩ := Option.map_eq_some_iff.mp hLast
      exact ⟨y, List.mem_cons_of_mem _ (List.mem_of_mem_head? hHead), rfl⟩
    · obtain ⟨y, hMem, hEq⟩ := ih hRest
      exact ⟨y, List.mem_cons_of_mem _ hMem, hEq⟩

/-- Of the intervals of ordered transitions, an instant is in the one of the last transition
at or before it. -/
theorem spans_at {pre : List Transition}
    (hSorted : (pre ++ x :: post).Pairwise fun a b => a.time ≤ b.time) (hTime : x.time ≤ t)
    (hPost : ∀ y ∈ post, t < y.time) :
    ((spans (pre ++ x :: post)).filter fun interval => interval.contains t).map
      CaptureInterruption.reason = x.observation.reasons := by
  induction pre with
  | nil =>
    have hRest : (spans post).filter (fun interval => interval.contains t) = [] := by
      refine List.filter_eq_nil_iff.mpr fun interval hMem hContains => ?_
      obtain ⟨y, hy, hStart⟩ := spans_start hMem
      have := hPost y hy
      have := (contains_iff.mp hContains).1
      omega
    show ((closed post x.opens ++ spans post).filter _).map _ = _
    rw [List.filter_append, hRest, List.append_nil]
    obtain ⟨time, observation⟩ := x
    cases observation with
    | started => rfl
    | interrupted reason =>
      show ([_].filter _).map _ = [reason]
      rw [List.filter_cons_of_pos]
      · rfl
      · refine contains_iff.mpr ⟨hTime, fun last hLast => ?_⟩
        obtain ⟨y, hHead, rfl⟩ := Option.map_eq_some_iff.mp hLast
        exact hPost y (List.mem_of_mem_head? hHead)
  | cons y rest ih =>
    rw [List.cons_append, List.pairwise_cons] at hSorted
    have hFirst : (closed (rest ++ x :: post) y.opens).filter
        (fun interval => interval.contains t) = [] := by
      refine List.filter_eq_nil_iff.mpr fun interval hMem hContains => ?_
      have hEnd := (mem_closed hMem).2
      -- the next transition is still at or before the instant
      obtain ⟨z, hHead, hLe⟩ : ∃ z, (rest ++ x :: post).head? = some z ∧ z.time ≤ t := by
        cases rest with
        | nil => exact ⟨x, rfl, hTime⟩
        | cons z rest =>
          have hNext := (List.pairwise_cons.mp hSorted.2).1 x
            (List.mem_append_right _ List.mem_cons_self)
          exact ⟨z, rfl, hNext.trans hTime⟩
      have hLast : z.time ∈ interval.end := by
        rw [hEnd, hHead]
        rfl
      have := (contains_iff.mp hContains).2 _ hLast
      omega
    show ((closed (rest ++ x :: post) y.opens ++ spans (rest ++ x :: post)).filter _).map _ = _
    rw [List.filter_append, hFirst, List.nil_append]
    exact ih hSorted.2

/-! ## What every record keeps -/

namespace CaptureObservationBuffer

variable {b : CaptureObservationBuffer} {start : Int} {records : List Transition}

/-- The instants of which the condition is unknown since the clock went backwards. -/
def Gap (b : CaptureObservationBuffer) (t : Int) : Prop :=
  ∃ unknown ∈ b.unknownCondition, ∀ last ∈ unknown.until, t < last

structure Inv (b : CaptureObservationBuffer) (start : Int) (records : List Transition) : Prop where
  sorted : b.transitions.Pairwise fun x y => x.time ≤ y.time
  times : ∀ x ∈ b.transitions, x.time ∈ start :: records.map Transition.time
  bound : ∀ x ∈ b.transitions, b.unavailableBefore ≤ x.time
  gap : ∀ unknown ∈ b.unknownCondition, unknown.from ≤ b.unavailableBefore
  inForce : ∀ t, b.unavailableBefore ≤ t → ¬ b.Gap t → ∃ pre x post,
    b.transitions = pre ++ x :: post ∧ x.time ≤ t ∧ (∀ y ∈ post, t < y.time) ∧
      InForce start t records x.observation

theorem recordAll_concat (b : CaptureObservationBuffer) (records : List Transition)
    (q : Transition) : b.recordAll (records ++ [q]) = (b.recordAll records).record q :=
  List.foldl_concat ..

theorem Ordered.concat (h : b.Ordered records) (hLatest : (b.recordAll records).latest ≤ q.time) :
    b.Ordered (records ++ [q]) := by
  induction records generalizing b with
  | nil => exact ⟨hLatest, trivial⟩
  | cons r rest ih => exact ⟨h.1, ih h.2 hLatest⟩

/-- A later record leaves what is in force before it. -/
theorem InForce.concat {observation : CaptureObservation} (h : InForce start t records observation)
    (hLater : t < q.time) (hLatest : ((new start).recordAll records).latest ≤ q.time) :
    InForce start t (records ++ [q]) observation := by
  have hAll : ∀ {later : List Transition}, (∀ r ∈ later, t < r.time) →
      ∀ r ∈ later ++ [q], t < r.time := by
    intro later hOld r hr
    rcases List.mem_append.mp hr with hr | hr
    · exact hOld r hr
    · exact List.mem_singleton.mp hr ▸ hLater
  cases h with
  | created hTime hLater hOrdered => exact .created hTime (hAll hLater) (hOrdered.concat hLatest)
  | @recorded earlier later r hTime hLater hOrdered =>
    rw [List.append_assoc, List.cons_append]
    refine .recorded hTime (hAll hLater) ?_
    rw [← List.cons_append]
    refine hOrdered.concat ?_
    rw [recordAll, List.foldl_append] at hLatest
    exact hLatest

/-- The latest record is in force from its time on. -/
theorem InForce.latest (hTime : q.time ≤ t)
    (hLatest : ((new start).recordAll records).latest ≤ q.time) :
    InForce start t (records ++ [q]) q.observation :=
  .recorded hTime (fun _ hr => by cases hr) ⟨hLatest, trivial⟩

theorem latest_le_of_back {x : Transition} (h : b.transitions.getLast? = some x) :
    b.latest = x.time := by
  unfold latest
  rw [h]
  rfl

theorem new_inv (start : Int) : (new start).Inv start [] where
  sorted := List.pairwise_singleton ..
  times := fun x hx => by
    rw [List.mem_singleton.mp hx]
    exact List.mem_cons_self
  bound := fun x hx => by
    rw [List.mem_singleton.mp hx]
    exact le_rfl
  gap := fun _ => nofun
  inForce := fun t hTime _ => ⟨[], creation start, [], rfl, hTime, fun _ => nofun,
    .created hTime (fun _ => nofun) trivial⟩

theorem discard_inv (b : CaptureObservationBuffer) (start : Int) (records : List Transition) :
    b.discard.Inv start records where
  sorted := List.Pairwise.nil
  times := fun _ => nofun
  bound := fun _ => nofun
  gap := by
    rintro unknown ⟨⟩
    exact le_rfl
  inForce := by
    intro t _ hGap
    exact absurd ⟨_, rfl, fun _ => nofun⟩ hGap

/-- A repeated condition: the record says what the last transition says. -/
theorem repeated_inv (hBuffer : b = (new start).recordAll records) (h : b.Inv start records)
    (hLatest : b.latest ≤ q.time) {last : Transition} (hLast : b.transitions.getLast? = some last)
    (hSame : last.observation = q.observation) : b.Inv start (records ++ [q]) where
  sorted := h.sorted
  times := by
    intro x hx
    have hOld := h.times x hx
    rw [List.map_append, ← List.cons_append]
    exact List.mem_append_left _ hOld
  bound := h.bound
  gap := h.gap
  inForce := by
    intro t hBound hGap
    obtain ⟨pre, x, post, hSplit, hTime, hPost, hForce⟩ := h.inForce t hBound hGap
    refine ⟨pre, x, post, hSplit, hTime, hPost, ?_⟩
    rcases lt_or_ge t q.time with hBefore | hAfter
    · exact hForce.concat hBefore (hBuffer ▸ hLatest)
    -- the last transition is at or before the instant
    · rw [latest_le_of_back hLast] at hLatest
      have hEmpty : post = [] := by
        by_contra hNonempty
        have hIn : last ∈ post := by
          rw [hSplit, List.getLast?_append_of_ne_nil _ (List.cons_ne_nil _ _),
            List.getLast?_cons_of_ne_nil hNonempty] at hLast
          exact List.mem_of_getLast? hLast
        have := hPost last hIn
        omega
      subst hEmpty
      rw [hSplit, List.getLast?_concat] at hLast
      obtain rfl := Option.some.inj hLast
      rw [hSame]
      exact .latest hAfter (hBuffer ▸ (latest_le_of_back (x := x) (by
        rw [hSplit, List.getLast?_concat])).trans_le hLatest)

/-- What is left after the oldest transition has gone, if it has. -/
theorem evict_eq (b : CaptureObservationBuffer) : b.evict = b ∨ ∃ first second rest,
    b.transitions = first :: second :: rest ∧
      b.evict = { b with transitions := second :: rest, unavailableBefore := second.time } := by
  unfold evict
  split
  · next hMany =>
    right
    rcases hSplit : b.transitions with - | ⟨first, - | ⟨second, rest⟩⟩
    · rw [hSplit] at hMany
      cases hMany
    · rw [hSplit] at hMany
      exact absurd hMany (show ¬ 1 > transitionCap by decide)
    · exact ⟨first, second, rest, rfl, rfl⟩
  · exact .inl rfl

theorem evict_inv (h : b.Inv start records) : b.evict.Inv start records := by
  rcases evict_eq b with hSame | ⟨first, second, rest, hSplit, hEvict⟩
  · rw [hSame]
    exact h
  rw [hEvict]
  have hSorted := h.sorted
  rw [hSplit, List.pairwise_cons] at hSorted
  have hMem : ∀ x ∈ second :: rest, x ∈ b.transitions := fun x hx =>
    hSplit ▸ List.mem_cons_of_mem _ hx
  have hRaised : b.unavailableBefore ≤ second.time := h.bound second (hMem _ List.mem_cons_self)
  refine ⟨hSorted.2, fun x hx => h.times x (hMem x hx), ?_, ?_, ?_⟩
  · intro x hx
    rcases List.mem_cons.mp hx with rfl | hx
    · exact le_rfl
    · exact (List.pairwise_cons.mp hSorted.2).1 x hx
  · exact fun unknown hUnknown => (h.gap unknown hUnknown).trans hRaised
  · intro t hBound hGap
    obtain ⟨pre, x, post, hOld, hTime, hPost, hForce⟩ :=
      h.inForce t (hRaised.trans hBound) hGap
    rw [hSplit] at hOld
    rcases pre with - | ⟨y, pre⟩
    -- the second transition is at or before the instant too
    · obtain ⟨-, rfl⟩ := List.cons.inj hOld
      have hLater := hPost second List.mem_cons_self
      have hSecond : second.time ≤ t := hBound
      omega
    · exact ⟨pre, x, post, (List.cons.inj hOld).2, hTime, hPost, hForce⟩

/-- A new transition is put behind the others, and closes the gap. -/
theorem append_inv (hBuffer : b = (new start).recordAll records) (h : b.Inv start records)
    (hLatest : b.latest ≤ q.time) :
    ({ b with
        transitions := b.transitions ++ [q]
        unknownCondition := b.unknownCondition.map fun unknown =>
          { unknown with «until» := some (unknown.until.getD q.time) } } :
      CaptureObservationBuffer).Inv start (records ++ [q]) where
  sorted := by
    refine List.pairwise_append.mpr ⟨h.sorted, List.pairwise_singleton .., fun x hx y hy => ?_⟩
    rw [List.mem_singleton.mp hy]
    obtain ⟨last, hLast⟩ := Option.isSome_iff_exists.mp
      (List.getLast?_isSome.mpr (List.ne_nil_of_mem hx))
    rw [latest_le_of_back hLast] at hLatest
    obtain ⟨pre, hSplit⟩ := List.getLast?_eq_some_iff.mp hLast
    rw [hSplit] at hx
    rcases List.mem_append.mp hx with hx | hx
    · have hSorted := h.sorted
      rw [hSplit] at hSorted
      exact ((List.pairwise_append.mp hSorted).2.2 x hx last (List.mem_singleton_self _)).trans
        hLatest
    · rw [List.mem_singleton.mp hx]
      exact hLatest
  times := by
    intro x hx
    rw [List.map_append, ← List.cons_append]
    rcases List.mem_append.mp hx with hx | hx
    · exact List.mem_append_left _ (h.times x hx)
    · rw [List.mem_singleton.mp hx]
      exact List.mem_append_right _ (List.mem_singleton_self _)
  bound := by
    intro x hx
    rcases List.mem_append.mp hx with hx | hx
    · exact h.bound x hx
    · rw [List.mem_singleton.mp hx]
      refine le_trans ?_ hLatest
      unfold latest
      rcases hLast : b.transitions.getLast? with - | last
      · exact le_rfl
      · exact h.bound last (List.mem_of_getLast? hLast)
  gap := by
    intro unknown hUnknown
    obtain ⟨old, hOld, rfl⟩ := Option.map_eq_some_iff.mp hUnknown
    exact h.gap old hOld
  inForce := by
    intro t hBound hGap
    -- before the new transition the older ones are in force, and from it on this one
    rcases lt_or_ge t q.time with hBefore | hAfter
    · have hOldGap : ¬ b.Gap t := by
        rintro ⟨unknown, hUnknown, hOpen⟩
        refine hGap ⟨_, Option.map_eq_some_iff.mpr ⟨unknown, hUnknown, rfl⟩, ?_⟩
        rintro last ⟨⟩
        rcases hUntil : unknown.until with - | last
        · exact hBefore
        · exact hOpen last hUntil
      obtain ⟨pre, x, post, hSplit, hTime, hPost, hForce⟩ := h.inForce t hBound hOldGap
      refine ⟨pre, x, post ++ [q], ?_, hTime, ?_, hForce.concat hBefore (hBuffer ▸ hLatest)⟩
      · show b.transitions ++ [q] = _
        rw [hSplit, List.append_assoc, List.cons_append]
      · intro y hy
        rcases List.mem_append.mp hy with hy | hy
        · exact hPost y hy
        · exact List.mem_singleton.mp hy ▸ hBefore
    · exact ⟨b.transitions, q, [], rfl, hAfter, fun _ => nofun, .latest hAfter (hBuffer ▸ hLatest)⟩

theorem push_eq (b : CaptureObservationBuffer) (q : Transition) :
    b.push q = evict { b with
      transitions := b.transitions ++ [q]
      unknownCondition := b.unknownCondition.map fun unknown =>
        { unknown with «until» := some (unknown.until.getD q.time) } } := by
  unfold push evict
  split <;> rfl

theorem recorded_inv (start : Int) (records : List Transition) :
    ((new start).recordAll records).Inv start records := by
  induction records using List.reverseRecOn with
  | nil => exact new_inv start
  | append_singleton records q ih =>
    rw [recordAll_concat]
    unfold record
    split
    · exact discard_inv ..
    · next hLatest =>
      have hLatest := not_lt.mp hLatest
      split
      · next hRepeated =>
        rcases hLast : ((new start).recordAll records).transitions.getLast? with - | last
        · rw [hLast] at hRepeated
          cases hRepeated
        · rw [hLast] at hRepeated
          exact repeated_inv rfl ih hLatest hLast (of_decide_eq_true hRepeated)
      · rw [push_eq]
        exact evict_inv (append_inv rfl ih hLatest)

end CaptureObservationBuffer

/-! ## Snapshots -/

open CaptureObservationBuffer

variable {b : CaptureObservationBuffer}

/-- A window that is not truncated at first begins past the boundary and past the gap. -/
theorem outside_of_complete (hGap : ∀ unknown ∈ b.unknownCondition,
      unknown.from ≤ b.unavailableBefore) (hWindow : window.from < window.to)
    (hTo : window.to ≤ i64Max)
    (h : (decide (window.from < b.unavailableBefore) || b.conditionUnknownIn window) = false)
    (hTime : window.from ≤ t) : b.unavailableBefore ≤ t ∧ ¬ b.Gap t := by
  rw [Bool.or_eq_false_iff, decide_eq_false_iff_not] at h
  obtain ⟨hFrom, hKnown⟩ := h
  refine ⟨by omega, ?_⟩
  rintro ⟨unknown, hUnknown, hOpen⟩
  have hOld := hGap unknown hUnknown
  unfold conditionUnknownIn at hKnown
  rw [Option.any_eq_false] at hKnown
  have hMeets := hKnown unknown hUnknown
  rw [Bool.and_eq_false_iff, decide_eq_false_iff_not, decide_eq_false_iff_not] at hMeets
  rcases hUntil : unknown.until with - | last
  · rw [hUntil, Option.getD_none] at hMeets
    omega
  · rw [hUntil, Option.getD_some] at hMeets
    have := hOpen last hUntil
    omega

/-- The intervals of a complete snapshot that contain an instant of the window. -/
theorem intervals_at (hComplete : (b.snapshot window).truncated = false) (hFrom : window.from ≤ t)
    (hTo : t < window.to) :
    (b.snapshot window).intervals.filter (fun interval => interval.contains t) =
      (spans b.transitions).filter fun interval => interval.contains t := by
  unfold CaptureObservationBuffer.snapshot at hComplete ⊢
  rw [scan_eq (fun _ hNone => by cases hNone)] at hComplete ⊢
  rw [(foldl_add_complete hComplete).2]
  show (([] ++ (spans b.transitions).filter _).filter _) = _
  rw [List.nil_append, List.filter_filter]
  refine List.filter_congr fun interval _ => ?_
  by_cases hContains : interval.contains t = true
  · rw [hContains, meets_of_contains hContains hFrom hTo]
    rfl
  · rw [Bool.eq_false_iff.mpr hContains]
    rfl

theorem snapshot_truthful (start : Int) (records : List Transition) (window : EvidenceWindow)
    (hWindow : window.from < window.to) (hTo : window.to ≤ i64Max) :
    let snapshot := ((new start).recordAll records).snapshot window
    let times := start :: records.map Transition.time
    (snapshot.truncated = false → ∀ t, window.from ≤ t → t < window.to →
      ∃ observation, InForce start t records observation ∧
        (snapshot.intervals.filter fun interval => interval.contains t).map
          CaptureInterruption.reason = observation.reasons) ∧
    ∀ interval ∈ snapshot.intervals, (∀ last ∈ interval.end, interval.start < last) ∧
      interval.start < window.to ∧ (∀ last ∈ interval.end, window.from < last) ∧
      interval.start ∈ times ∧ ∀ last ∈ interval.end, last ∈ times := by
  intro snapshot times
  have hInv := recorded_inv start records
  constructor
  · intro hComplete t hFrom hBefore
    have hFirst : (decide (window.from < ((new start).recordAll records).unavailableBefore) ||
        ((new start).recordAll records).conditionUnknownIn window) = false := by
      have hScan := hComplete
      unfold snapshot CaptureObservationBuffer.snapshot at hScan
      rw [scan_eq (fun _ hNone => by cases hNone)] at hScan
      exact (foldl_add_complete hScan).1
    obtain ⟨hBound, hGap⟩ := outside_of_complete hInv.gap hWindow hTo hFirst hFrom
    obtain ⟨pre, x, post, hSplit, hTime, hPost, hForce⟩ := hInv.inForce t hBound hGap
    refine ⟨x.observation, hForce, ?_⟩
    rw [intervals_at hComplete hFrom hBefore, hSplit]
    exact spans_at (hSplit ▸ hInv.sorted) hTime hPost
  · intro interval hMem
    have hScan := hMem
    unfold snapshot CaptureObservationBuffer.snapshot at hScan
    rw [scan_eq (fun _ hNone => by cases hNone)] at hScan
    rcases mem_foldl_add hScan with hNone | ⟨hSpan, hMeets⟩
    · cases hNone
    have hSpan : interval ∈ spans ((new start).recordAll records).transitions := hSpan
    unfold CaptureInterruption.excluded at hMeets
    rw [Bool.or_eq_false_iff, decide_eq_false_iff_not, Option.any_eq_false] at hMeets
    have hEnd : ∀ last ∈ interval.end, window.from < last ∧ interval.start < last := by
      intro last hLast
      have := hMeets.2 last hLast
      rw [Bool.or_eq_false_iff, decide_eq_false_iff_not, decide_eq_false_iff_not] at this
      omega
    obtain ⟨x, hx, hStart⟩ := spans_start hSpan
    refine ⟨fun last hLast => (hEnd last hLast).2, not_le.mp hMeets.1,
      fun last hLast => (hEnd last hLast).1, hStart ▸ hInv.times x hx, fun last hLast => ?_⟩
    obtain ⟨y, hy, rfl⟩ := spans_end hSpan hLast
    exact hInv.times y hy

/-- The clock goes back from 30 to 20, and the next record is made at 40. -/
theorem snapshot_truthful_reobserved :
    let records := [⟨30, .started⟩, ⟨20, .interrupted .workerError⟩, ⟨40, .started⟩]
    let snapshot := ((new 10).recordAll records).snapshot { «from» := 40, «to» := 50 }
    snapshot.truncated = false ∧ ∃ observation, InForce 10 45 records observation ∧
      (snapshot.intervals.filter fun interval => interval.contains 45).map
        CaptureInterruption.reason = observation.reasons :=
  ⟨by decide, (snapshot_truthful 10 [⟨30, .started⟩, ⟨20, .interrupted .workerError⟩,
    ⟨40, .started⟩] { «from» := 40, «to» := 50 } (by decide) (by decide)).1 (by decide) 45
      (by decide) (by decide)⟩

end ScreenSearch.Kernel
