import Mathlib.Data.List.Basic
import Mathlib.Logic.Function.Iterate
import Mathlib.Tactic.Common

/-!
# Threads over a shared state

A thread is a tree of atomic operations on the state it shares with others. An
operation reads an input from its surroundings and may fail, which changes
nothing. A pool runs its threads one operation at a time, in any order; a thread
can be abandoned while an operation of it is still under way.

A `Discipline` says what always holds and what each thread may do. A thread is
proved against it on its own: what it knows between two operations has to
survive whatever the others may do.

* `Triple D who Q P x` — from `P`, thread `who` runs `x` within `D` and ends in `Q`;
* `Triple.bind`, `Triple.atomically`, `Triple.assume` — one rule for each way to build a thread;
* `Pool.Safe` and its lemmas — what a pool of such threads keeps.
-/

namespace Threads

/-- A program as the tree of its atomic operations. -/
inductive Thread (ι σ ε α : Type) : Type 1 where
  | done (a : α)
  | fail (e : ε)
  | act {β : Type} (op : Nat → ι → σ → Except ε (β × σ)) (next : β → Thread ι σ ε α)

variable {ι σ ε α β : Type}

namespace Thread

protected def bind (x : Thread ι σ ε α) (f : α → Thread ι σ ε β) : Thread ι σ ε β :=
  match x with
  | done a => f a
  | fail e => fail e
  | act op next => act op fun b => (next b).bind f

instance : Monad (Thread ι σ ε) where
  pure := done
  bind := Thread.bind

/-- One operation, told which thread runs it. -/
def atomically (op : Nat → ι → σ → Except ε (α × σ)) : Thread ι σ ε α := act op done

/-- The next operation of thread `who`. -/
def step (who : Nat) (input : ι) (x : Thread ι σ ε α) (s : σ) : Thread ι σ ε α × σ :=
  match x with
  | done a => (done a, s)
  | fail e => (fail e, s)
  | act op next =>
    match op who input s with
    | .ok (b, s') => (next b, s')
    | .error e => (fail e, s)

/-- The next operation fails. -/
def refuse (e : ε) : Thread ι σ ε α → Thread ι σ ε α
  | done a => done a
  | fail e' => fail e'
  | act _ _ => fail e

/-- The next operation may still take place, nothing after it does. -/
def abandon (e : ε) : Thread ι σ ε α → Thread ι σ ε α
  | done a => done a
  | fail e' => fail e'
  | act op _ => act op fun _ => fail e

/-- The thread runs to its end while no other does. -/
def alone (who : Nat) (input : ι) : Thread ι σ ε α → σ → Except ε α × σ
  | done a, s => (.ok a, s)
  | fail e, s => (.error e, s)
  | act op next, s =>
    match op who input s with
    | .ok (b, s') => (next b).alone who input s'
    | .error e => (.error e, s)

theorem alone_bind {who : Nat} {input : ι} {x : Thread ι σ ε α} {f : α → Thread ι σ ε β}
    {s s' : σ} {a : α} (h : x.alone who input s = (.ok a, s')) :
    (x >>= f).alone who input s = (f a).alone who input s' := by
  show (x.bind f).alone who input s = _
  induction x generalizing s with
  | done b =>
    obtain ⟨hResult, rfl⟩ := Prod.mk.inj h
    obtain rfl := Except.ok.inj hResult
    rfl
  | fail e =>
    obtain ⟨hResult, -⟩ := Prod.mk.inj h
    exact absurd hResult (by simp)
  | act op next ih =>
    unfold alone at h
    unfold Thread.bind
    rw [alone]
    split at h
    · exact ih _ h
    · obtain ⟨hResult, -⟩ := Prod.mk.inj h
      exact absurd hResult (by simp)

/-- A thread at its end. -/
def ended : Except ε α → Thread ι σ ε α
  | .ok a => done a
  | .error e => fail e

end Thread

structure Pool (ι σ ε α : Type) : Type 1 where
  state : σ
  threads : List (Thread ι σ ε α)

namespace Pool

def spawn (x : Thread ι σ ε α) (p : Pool ι σ ε α) : Pool ι σ ε α :=
  { p with threads := p.threads ++ [x] }

def step (who : Nat) (input : ι) (p : Pool ι σ ε α) : Pool ι σ ε α :=
  match p.threads[who]? with
  | none => p
  | some x =>
    let (x, state) := x.step who input p.state
    { state := state, threads := p.threads.set who x }

def refuse (who : Nat) (e : ε) (p : Pool ι σ ε α) : Pool ι σ ε α :=
  { p with threads := p.threads.modify who (Thread.refuse e) }

def abandon (who : Nat) (e : ε) (p : Pool ι σ ε α) : Pool ι σ ε α :=
  { p with threads := p.threads.modify who (Thread.abandon e) }

/-- Every thread stops. -/
def stop (e : ε) (p : Pool ι σ ε α) : Pool ι σ ε α :=
  { p with threads := p.threads.map (Thread.refuse e) }

/-- The surroundings change the state. -/
def change (f : σ → σ) (p : Pool ι σ ε α) : Pool ι σ ε α := { p with state := f p.state }

end Pool

/-! ## Threads within a discipline -/

/-- What holds once `n` threads were started, and what a thread, or the
surroundings, may do to the state. -/
structure Discipline (σ : Type) where
  holds : Nat → σ → Prop
  may : Option Nat → σ → σ → Prop

variable {D : Discipline σ} {who : Nat} {P P' : σ → Prop} {Q : α → σ → Prop}

/-- A fact that survives what all but thread `who` may do. -/
def Discipline.Stable (D : Discipline σ) (who : Nat) (P : σ → Prop) : Prop :=
  ∀ mover, mover ≠ some who → ∀ s s', D.may mover s s' → P s → P s'

/-- From `P`, each operation of the thread keeps to the discipline, and what the thread
knows after it is stable, up to the end in `Q`. -/
inductive Triple (D : Discipline σ) (who : Nat) (Q : α → σ → Prop) :
    (σ → Prop) → Thread ι σ ε α → Prop
  | done {P : σ → Prop} {a : α} (h : ∀ s, P s → Q a s) : Triple D who Q P (.done a)
  | fail {P : σ → Prop} {e : ε} : Triple D who Q P (.fail e)
  | act {P : σ → Prop} {β : Type} {op : Nat → ι → σ → Except ε (β × σ)}
      {next : β → Thread ι σ ε α} (R : β → σ → Prop) (stable : ∀ b, D.Stable who (R b))
      (keeps : ∀ n input s b s', who < n → D.holds n s → P s → op who input s = .ok (b, s') →
        D.holds n s' ∧ D.may (some who) s s' ∧ R b s')
      (rest : ∀ b, Triple D who Q (R b) (next b)) : Triple D who Q P (.act op next)

theorem Triple.pre {x : Thread ι σ ε α} (h : Triple D who Q P x) (hP : ∀ s, P' s → P s) :
    Triple D who Q P' x := by
  cases h with
  | done h => exact .done fun s hs => h s (hP s hs)
  | fail => exact .fail
  | act R stable keeps rest =>
    exact .act R stable (fun n input s b s' hWho hHolds hs =>
      keeps n input s b s' hWho hHolds (hP s hs)) rest

theorem Triple.post {x : Thread ι σ ε α} {Q' : α → σ → Prop} (h : Triple D who Q' P x)
    (hQ : ∀ a s, Q' a s → Q a s) : Triple D who Q P x := by
  induction h with
  | done h => exact .done fun s hs => hQ _ s (h s hs)
  | fail => exact .fail
  | act R stable keeps _ ih => exact .act R stable keeps ih

/-- What cannot be the case says anything. -/
theorem Triple.impossible (hP : ∀ s, ¬ P s) (x : Thread ι σ ε α) : Triple D who Q P x := by
  induction x generalizing P with
  | done a => exact .done fun s h => absurd h (hP s)
  | fail e => exact .fail
  | act op next ih =>
    refine .act (fun _ _ => False) (fun _ _ _ _ _ _ h => h) ?_ fun b => ih b fun _ h => h
    intro n input s b s' _ _ h
    exact absurd h (hP s)

/-- What an assertion says apart from the state can be assumed. -/
theorem Triple.knowing {c : Prop} {x : Thread ι σ ε α} (hP : ∀ s, P s → c)
    (h : c → Triple D who Q P x) : Triple D who Q P x := by
  by_cases hc : c
  · exact h hc
  · exact .impossible (fun s hs => hc (hP s hs)) x

theorem Triple.assume {c : Prop} {x : Thread ι σ ε α}
    (h : c → Triple D who Q (fun _ => True) x) : Triple D who Q (fun _ => c) x :=
  .knowing (fun _ hc => hc) fun hc => (h hc).pre fun _ _ => trivial

theorem Triple.pure {a : α} (h : ∀ s, P s → Q a s) :
    Triple D who Q P (pure a : Thread ι σ ε α) := .done h

theorem Triple.bind {x : Thread ι σ ε α} {f : α → Thread ι σ ε β} {R : α → σ → Prop}
    {Q : β → σ → Prop} (hx : Triple D who R P x) (hf : ∀ a, Triple D who Q (R a) (f a)) :
    Triple D who Q P (x >>= f) := by
  show Triple D who Q P (x.bind f)
  induction hx with
  | done h => exact (hf _).pre h
  | fail => exact .fail
  | act S stable keeps _ ih => exact .act S stable keeps ih

/-- A single operation: it keeps to the discipline, and what it shows is stable. -/
theorem Triple.atomically {op : Nat → ι → σ → Except ε (α × σ)}
    (hStable : ∀ a, D.Stable who (Q a))
    (hOp : ∀ n input s a s', who < n → D.holds n s → P s → op who input s = .ok (a, s') →
      D.holds n s' ∧ D.may (some who) s s' ∧ Q a s') :
    Triple D who Q P (Thread.atomically op) :=
  .act Q hStable hOp fun _ => .done fun _ h => h

theorem Triple.refuse {x : Thread ι σ ε α} (e : ε) (h : Triple D who Q P x) :
    Triple D who Q P (x.refuse e) := by
  cases h with
  | done h => exact .done h
  | fail => exact .fail
  | act R stable keeps rest => exact .fail

theorem Triple.abandon {x : Thread ι σ ε α} (e : ε) (h : Triple D who Q P x) :
    Triple D who Q P (x.abandon e) := by
  cases h with
  | done h => exact .done h
  | fail => exact .fail
  | act R stable keeps rest => exact .act R stable keeps fun _ => .fail

/-! ## Pools within a discipline -/

/-- What holds of the state, and every thread has a triple whose assertion holds now. -/
structure Pool.Safe (D : Discipline σ) (Q : Nat → α → σ → Prop) (p : Pool ι σ ε α) : Prop where
  holds : D.holds p.threads.length p.state
  thread : ∀ who x, p.threads[who]? = some x →
    ∃ P, D.Stable who P ∧ P p.state ∧ Triple D who (Q who) P x

variable {Q : Nat → α → σ → Prop} {p : Pool ι σ ε α}

namespace Pool.Safe

theorem spawn (h : Pool.Safe D Q p) {x : Thread ι σ ε α}
    (hHolds : D.holds (p.threads.length + 1) p.state)
    (hThread : ∃ P, D.Stable p.threads.length P ∧ P p.state ∧
      Triple D p.threads.length (Q p.threads.length) P x) : Pool.Safe D Q (p.spawn x) := by
  refine ⟨?_, fun who y hGet => ?_⟩
  · show D.holds (p.threads ++ [x]).length p.state
    rw [List.length_append, List.length_singleton]
    exact hHolds
  · rw [show (p.spawn x).threads = p.threads ++ [x] from rfl, List.getElem?_append] at hGet
    split at hGet
    · exact h.thread who y hGet
    · have hWho : who = p.threads.length := by
        have hBound := (List.getElem?_eq_some_iff.mp hGet).1
        rw [List.length_singleton] at hBound
        omega
      subst hWho
      rw [Nat.sub_self] at hGet
      obtain rfl := Option.some.inj hGet
      exact hThread

/-- One operation of one thread: the others keep what they know. -/
theorem step (h : Pool.Safe D Q p) (who : Nat) (input : ι) : Pool.Safe D Q (p.step who input) := by
  unfold Pool.step
  cases hGet : p.threads[who]? with
  | none => exact h
  | some x =>
    obtain ⟨P, hStable, hP, hTriple⟩ := h.thread who x hGet
    have hBound := (List.getElem?_eq_some_iff.mp hGet).1
    -- what the thread knows after its operation, and that the others may rely on it
    have hStep : D.holds p.threads.length (x.step who input p.state).2 ∧
        ((x.step who input p.state).2 = p.state ∨
          D.may (some who) p.state (x.step who input p.state).2) ∧
        ∃ P, D.Stable who P ∧ P (x.step who input p.state).2 ∧
          Triple D who (Q who) P (x.step who input p.state).1 := by
      cases hTriple with
      | done hQ => exact ⟨h.holds, Or.inl rfl, P, hStable, hP, .done hQ⟩
      | fail => exact ⟨h.holds, Or.inl rfl, P, hStable, hP, .fail⟩
      | act R stable keeps rest =>
        rename_i op next
        unfold Thread.step
        dsimp only
        cases hOp : op who input p.state with
        | error e => exact ⟨h.holds, Or.inl rfl, P, hStable, hP, .fail⟩
        | ok result =>
          obtain ⟨b, s'⟩ := result
          obtain ⟨hHolds, hMay, hR⟩ := keeps _ input p.state b s' hBound h.holds hP hOp
          exact ⟨hHolds, Or.inr hMay, R b, stable b, hR, rest b⟩
    obtain ⟨hHolds, hMoved, hKnown⟩ := hStep
    refine ⟨?_, fun other y hOther => ?_⟩
    · show D.holds (p.threads.set who _).length _
      rw [List.length_set]
      exact hHolds
    · rw [show Pool.threads _ = p.threads.set who _ from rfl, List.getElem?_set] at hOther
      split at hOther
      · rename_i hSame
        subst hSame
        obtain rfl := Option.some.inj hOther
        exact hKnown
      · rename_i hNe
        obtain ⟨P', hStable', hP', hTriple'⟩ := h.thread other y hOther
        refine ⟨P', hStable', ?_, hTriple'⟩
        rcases hMoved with hSame | hMay
        · show P' (x.step who input p.state).2
          rw [hSame]
          exact hP'
        · exact hStable' (some who) (by simpa using hNe) _ _ hMay hP'

/-- What one operation of one thread does to the state is what the thread may do. -/
theorem step_may (h : Pool.Safe D Q p) (who : Nat) (input : ι) :
    (p.step who input).state = p.state ∨ D.may (some who) p.state (p.step who input).state := by
  unfold Pool.step
  cases hGet : p.threads[who]? with
  | none => exact .inl rfl
  | some x =>
    obtain ⟨P, -, hP, hTriple⟩ := h.thread who x hGet
    have hBound := (List.getElem?_eq_some_iff.mp hGet).1
    cases hTriple with
    | done hQ => exact .inl rfl
    | fail => exact .inl rfl
    | act R stable keeps rest =>
      rename_i op next
      unfold Thread.step
      dsimp only
      cases hOp : op who input p.state with
      | error e => exact .inl rfl
      | ok result => exact .inr (keeps _ input p.state _ _ hBound h.holds hP hOp).2.1

/-- A thread may be replaced by one that knows no more. -/
theorem weaken (h : Pool.Safe D Q p) {threads : List (Thread ι σ ε α)}
    (hLength : threads.length = p.threads.length)
    (hThreads : ∀ who x, threads[who]? = some x → ∃ y, p.threads[who]? = some y ∧
      ∀ P, Triple D who (Q who) P y → Triple D who (Q who) P x) :
    Pool.Safe D Q { p with threads := threads } := by
  refine ⟨?_, fun who x hGet => ?_⟩
  · show D.holds threads.length p.state
    rw [hLength]
    exact h.holds
  · obtain ⟨y, hOld, hWeaker⟩ := hThreads who x hGet
    obtain ⟨P, hStable, hP, hTriple⟩ := h.thread who y hOld
    exact ⟨P, hStable, hP, hWeaker P hTriple⟩

theorem modify (h : Pool.Safe D Q p) (who : Nat) {f : Thread ι σ ε α → Thread ι σ ε α}
    (hf : ∀ other P y, Triple D other (Q other) P y → Triple D other (Q other) P (f y)) :
    Pool.Safe D Q { p with threads := p.threads.modify who f } := by
  refine h.weaken (List.length_modify ..) fun other x hGet => ?_
  rw [List.getElem?_modify, Option.map_eq_map, Option.map_eq_some_iff] at hGet
  obtain ⟨y, hOld, rfl⟩ := hGet
  refine ⟨y, hOld, fun P hTriple => ?_⟩
  split
  · exact hf other P y hTriple
  · exact hTriple

theorem refuse (h : Pool.Safe D Q p) (who : Nat) (e : ε) : Pool.Safe D Q (p.refuse who e) :=
  h.modify who fun _ _ _ hTriple => hTriple.refuse e

theorem abandon (h : Pool.Safe D Q p) (who : Nat) (e : ε) : Pool.Safe D Q (p.abandon who e) :=
  h.modify who fun _ _ _ hTriple => hTriple.abandon e

theorem stop (h : Pool.Safe D Q p) (e : ε) : Pool.Safe D Q (p.stop e) := by
  refine h.weaken (List.length_map ..) fun who x hGet => ?_
  rw [List.getElem?_map, Option.map_eq_some_iff] at hGet
  obtain ⟨y, hOld, rfl⟩ := hGet
  exact ⟨y, hOld, fun P hTriple => hTriple.refuse e⟩

theorem change (h : Pool.Safe D Q p) {f : σ → σ} (hHolds : D.holds p.threads.length (f p.state))
    (hMay : D.may none p.state (f p.state)) : Pool.Safe D Q (p.change f) := by
  refine ⟨hHolds, fun who x hGet => ?_⟩
  obtain ⟨P, hStable, hP, hTriple⟩ := h.thread who x hGet
  exact ⟨P, hStable, hStable none (by simp) _ _ hMay hP, hTriple⟩

/-- What a finished thread ended in still holds. -/
theorem result (h : Pool.Safe D Q p) {who : Nat} {a : α} (hDone : p.threads[who]? = some (.done a)) :
    Q who a p.state := by
  obtain ⟨P, -, hP, hTriple⟩ := h.thread who _ hDone
  cases hTriple with
  | done hQ => exact hQ _ hP

end Pool.Safe

end Threads
