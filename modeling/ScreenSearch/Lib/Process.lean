import Mathlib.Data.List.Basic
import Mathlib.Tactic.Common

/-!
# Processes over a store whose calls may fail

A program runs against a store. Every call to the store may fail before it does
anything, and after a crash all of them do: which calls fail is told by a
function from the number of interactions so far, and so is everything else the
program reads from its surroundings. Ghost state keeps the moments the store has
gone through, newest first, with the events the program announces.

* `Triple P x Q E` — from `P`, the program `x` returns in `Q` or fails in `E`;
* `Keeps I x` — `x` keeps an invariant however it ends;
* `Ends x s Q E` — the same as a triple for one start, told by the store alone;
* `Triple.bind`, `Triple.call`, `Triple.each`, … — one rule for each way to build
  a program.
-/

namespace Process

/-- A state the store was in, and what the program announced there. -/
structure Moment (σ η : Type) where
  store : σ
  event : Option η
  deriving DecidableEq, Repr

structure Proc (σ η : Type) where
  store : σ
  /-- How many interactions there were. -/
  clock : Nat
  history : List (Moment σ η)

/-- A store nothing has happened to. -/
def Proc.start {σ η : Type} (store : σ) : Proc σ η :=
  { store := store, clock := 0, history := [] }

def Program (σ η ε α : Type) : Type := Proc σ η → Except ε α × Proc σ η

variable {σ η ε α β : Type}

namespace Program

protected def pure (a : α) : Program σ η ε α := fun p => (.ok a, p)

protected def bind (x : Program σ η ε α) (f : α → Program σ η ε β) : Program σ η ε β := fun p =>
  match x p with
  | (.ok a, p') => f a p'
  | (.error e, p') => (.error e, p')

instance : Monad (Program σ η ε) where
  pure := Program.pure
  bind := Program.bind

def throw (e : ε) : Program σ η ε α := fun p => (.error e, p)

/-- Whatever happens, go on with the outcome. -/
def attempt (x : Program σ η ε α) : Program σ η ε (Except ε α) := fun p =>
  ((.ok (x p).1), (x p).2)

/-- The number under which the surroundings are read. -/
def interact : Program σ η ε Nat := fun p => (.ok p.clock, { p with clock := p.clock + 1 })

/-- A call to the store. -/
def call (fails : Nat → Bool) (fault : ε) (op : σ → Except ε (α × σ)) : Program σ η ε α := fun p =>
  if fails p.clock then (.error fault, { p with clock := p.clock + 1 })
  else
    match op p.store with
    | .ok (a, store) =>
      (.ok a,
        { store := store, clock := p.clock + 1,
          history := { store := store, event := none } :: p.history })
    | .error e => (.error e, { p with clock := p.clock + 1 })

def emit (e : η) : Program σ η ε Unit := fun p =>
  (.ok (), { p with history := { store := p.store, event := some e } :: p.history })

/-- One step for each item, until one fails. -/
def each (items : List α) (body : α → Program σ η ε Unit) : Program σ η ε Unit :=
  match items with
  | [] => pure ()
  | a :: items => do
    body a
    each items body

end Program

/-! ## Triples -/

/-- From `P` the program returns in `Q`, or fails in `E`. -/
def Triple (P : Proc σ η → Prop) (x : Program σ η ε α) (Q : α → Proc σ η → Prop)
    (E : Proc σ η → Prop) : Prop :=
  ∀ p, P p →
    match x p with
    | (.ok a, p') => Q a p'
    | (.error _, p') => E p'

/-- The program keeps an invariant however it ends. -/
def Keeps (I : Proc σ η → Prop) (x : Program σ η ε α) : Prop := Triple I x (fun _ => I) I

variable {P A : Proc σ η → Prop} {Q B : α → Proc σ η → Prop} {E F I : Proc σ η → Prop}
  {x : Program σ η ε α}

theorem Triple.mono (h : Triple A x B F) (hP : ∀ p, P p → A p)
    (hQ : ∀ a p, B a p → Q a p) (hE : ∀ p, F p → E p) : Triple P x Q E := by
  intro p hp
  have hx := h p (hP p hp)
  cases hrun : x p with
  | mk outcome p' =>
    rw [hrun] at hx
    cases outcome with
    | ok a => exact hQ a p' hx
    | error e => exact hE p' hx

theorem Triple.pure {a : α} (h : ∀ p, P p → Q a p) :
    Triple P (pure a : Program σ η ε α) Q E := fun p hp => h p hp

theorem Triple.throw {e : ε} (h : ∀ p, P p → E p) :
    Triple P (Program.throw e : Program σ η ε α) Q E := fun p hp => h p hp

theorem Triple.bind {f : α → Program σ η ε β} {R : α → Proc σ η → Prop}
    {Q : β → Proc σ η → Prop} (hx : Triple P x R E) (hf : ∀ a, Triple (R a) (f a) Q E) :
    Triple P (x >>= f) Q E := by
  intro p hp
  have h := hx p hp
  change match Program.bind x f p with | (.ok b, p') => Q b p' | (.error _, p') => E p'
  rw [Program.bind]
  cases hrun : x p with
  | mk outcome p' =>
    rw [hrun] at h
    cases outcome with
    | ok a => exact hf a p' h
    | error e => exact h

theorem Triple.attempt {Q : Except ε α → Proc σ η → Prop}
    (h : Triple P x (fun a p => Q (.ok a) p) (fun p => ∀ e, Q (.error e) p)) :
    Triple P x.attempt Q E := by
  intro p hp
  have hx := h p hp
  change Q (x p).1 (x p).2
  cases hrun : x p with
  | mk outcome p' =>
    rw [hrun] at hx
    cases outcome with
    | ok a => exact hx
    | error e => exact hx e

theorem Triple.interact {Q : Nat → Proc σ η → Prop}
    (h : ∀ p, P p → Q p.clock { p with clock := p.clock + 1 }) :
    Triple P (Program.interact : Program σ η ε Nat) Q E := fun p hp => h p hp

/-- A call fails and only time passes, or the operation is done. -/
theorem Triple.call {fails : Nat → Bool} {fault : ε} {op : σ → Except ε (α × σ)}
    (hfail : ∀ p, P p → E { p with clock := p.clock + 1 })
    (hdone : ∀ p a store, P p → op p.store = .ok (a, store) →
      Q a { store := store, clock := p.clock + 1,
            history := { store := store, event := none } :: p.history }) :
    Triple P (Program.call fails fault op : Program σ η ε α) Q E := by
  intro p hp
  rw [Program.call]
  by_cases hfails : fails p.clock
  · rw [if_pos hfails]
    exact hfail p hp
  · rw [if_neg hfails]
    cases hop : op p.store with
    | ok result =>
      obtain ⟨a, store⟩ := result
      exact hdone p a store hp hop
    | error e => exact hfail p hp

theorem Triple.emit {e : η} {Q : Unit → Proc σ η → Prop}
    (h : ∀ p, P p →
      Q () { p with history := { store := p.store, event := some e } :: p.history }) :
    Triple P (Program.emit e : Program σ η ε Unit) Q E := fun p hp => h p hp

/-- A loop whose invariant knows what is still to come. -/
theorem Triple.each {items : List α} {body : α → Program σ η ε Unit}
    {R : List α → Proc σ η → Prop}
    (hbody : ∀ a rest, (a :: rest) <:+ items → Triple (R (a :: rest)) (body a) (fun _ => R rest) E) :
    Triple (R items) (Program.each items body) (fun _ => R []) E := by
  induction items with
  | nil => exact Triple.pure fun _ h => h
  | cons a items ih =>
    rw [Program.each]
    exact Triple.bind (hbody a items List.suffix_rfl) fun _ =>
      ih fun b rest hsuffix => hbody b rest (hsuffix.trans (List.suffix_cons a items))

/-! ## Invariants -/

theorem Keeps.pure (a : α) : Keeps I (pure a : Program σ η ε α) := Triple.pure fun _ h => h

theorem Keeps.throw (e : ε) : Keeps I (Program.throw e : Program σ η ε α) :=
  Triple.throw fun _ h => h

theorem Keeps.bind {f : α → Program σ η ε β} (hx : Keeps I x) (hf : ∀ a, Keeps I (f a)) :
    Keeps I (x >>= f) := Triple.bind hx hf

theorem Keeps.attempt (h : Keeps I x) : Keeps I x.attempt :=
  Triple.attempt (h.mono (fun _ h => h) (fun _ _ h => h) (fun _ h _ => h))

theorem Keeps.each {items : List α} {body : α → Program σ η ε Unit}
    (hbody : ∀ a ∈ items, Keeps I (body a)) : Keeps I (Program.each items body) :=
  Triple.each (R := fun _ => I) fun a _ hsuffix =>
    hbody a (hsuffix.subset (List.mem_cons_self ..))

/-- What a program that keeps an invariant leaves behind. -/
theorem Keeps.after (h : Keeps I x) {p : Proc σ η} (hp : I p) : I (x p).2 := by
  have hx := h p hp
  cases hrun : x p with
  | mk outcome p' =>
    rw [hrun] at hx
    cases outcome with
    | ok a => exact hx
    | error e => exact hx

/-! ## History -/

/-- A condition on every moment and what came before it. -/
inductive Always (C : Moment σ η → List (Moment σ η) → Prop) : List (Moment σ η) → Prop where
  | nil : Always C []
  | cons {m : Moment σ η} {past : List (Moment σ η)} (here : C m past) (before : Always C past) :
      Always C (m :: past)

section

variable {C : Moment σ η → List (Moment σ η) → Prop} {m : Moment σ η}
  {past history : List (Moment σ η)}

theorem always_cons : Always C (m :: past) ↔ C m past ∧ Always C past :=
  ⟨fun h => by
    cases h with
    | cons here before => exact ⟨here, before⟩, fun h => .cons h.1 h.2⟩

theorem Always.here (h : Always C (m :: past)) : C m past := (always_cons.mp h).1

theorem Always.before (h : Always C (m :: past)) : Always C past := (always_cons.mp h).2

instance Always.decidable [∀ m past, Decidable (C m past)] :
    (history : List (Moment σ η)) → Decidable (Always C history)
  | [] => isTrue .nil
  | m :: past =>
    have := Always.decidable past
    decidable_of_iff (C m past ∧ Always C past) always_cons.symm

theorem Always.of_mem (h : Always C history) (hm : m ∈ history) : ∃ past, C m past := by
  induction h with
  | nil => cases hm
  | cons here _ ih =>
    rcases List.mem_cons.mp hm with rfl | hin
    · exact ⟨_, here⟩
    · exact ih hin

end

/-! ## From one store -/

/-- Started in the store `s`, whatever happened before, the program returns in
`Q` or fails with an error in `E`. -/
def Ends (x : Program σ η ε α) (s : σ) (Q : α → σ → Prop) (E : ε → Prop) : Prop :=
  ∀ p, p.store = s →
    match x p with
    | (.ok a, p') => Q a p'.store
    | (.error e, _) => E e

section

variable {s : σ} {Q R : α → σ → Prop} {E F : ε → Prop} {x : Program σ η ε α}

theorem Ends.pure {a : α} (h : Q a s) : Ends (pure a : Program σ η ε α) s Q E := by
  intro p hp
  change Q a p.store
  rw [hp]
  exact h

theorem Ends.bind {f : α → Program σ η ε β} {Q : β → σ → Prop} (hx : Ends x s R E)
    (hf : ∀ a s', R a s' → Ends (f a) s' Q E) : Ends (x >>= f) s Q E := by
  intro p hp
  have h := hx p hp
  change match Program.bind x f p with | (.ok b, p') => Q b p'.store | (.error e, _) => E e
  rw [Program.bind]
  cases hrun : x p with
  | mk outcome p' =>
    rw [hrun] at h
    cases outcome with
    | ok a => exact hf a p'.store h p' rfl
    | error e => exact h

theorem Ends.interact {Q : Nat → σ → Prop} (h : ∀ n, Q n s) :
    Ends (Program.interact : Program σ η ε Nat) s Q E := by
  intro p hp
  change Q p.clock p.store
  rw [hp]
  exact h p.clock

theorem Ends.call {fails : Nat → Bool} {fault : ε} {op : σ → Except ε (α × σ)}
    (hfail : ∀ n, fails n = true → E fault) (herror : ∀ e, op s = .error e → E e)
    (hdone : ∀ a s', op s = .ok (a, s') → Q a s') :
    Ends (Program.call fails fault op : Program σ η ε α) s Q E := by
  intro p hp
  rw [Program.call]
  by_cases hfails : fails p.clock = true
  · rw [if_pos hfails]
    exact hfail p.clock hfails
  · rw [if_neg hfails, hp]
    cases hop : op s with
    | ok result =>
      obtain ⟨a, s'⟩ := result
      exact hdone a s' hop
    | error e => exact herror e hop

/-- What an outcome says, read off a run. -/
theorem Ends.ok (h : Ends x s Q E) {p : Proc σ η} (hp : p.store = s) {a : α}
    (hrun : (x p).1 = .ok a) : Q a (x p).2.store := by
  have hx := h p hp
  cases hresult : x p with
  | mk outcome p' =>
    rw [hresult] at hx hrun
    subst hrun
    exact hx

end

end Process
