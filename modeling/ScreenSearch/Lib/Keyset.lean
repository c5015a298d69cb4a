import ScreenSearch.Lib.Sort
import Mathlib.Data.List.Perm.Subperm

/-!
# Keyset pagination

A page holds the first rows behind a position, in the order of their keys; one row
more than fits tells whether another page follows, and the position of that one is
the last key of this one. The table may change between two pages.

Main results:

* `page_items` — a page is what the table holds between two positions;
* `Chain.sorted`, `Chain.covers` — the pages that follow one another hold nothing
  twice, and every key lies on one of them;
* `Chain.length_le` — and they come to an end;
* `Reader.walk_chain`, `Reader.walk_found` — so do the pages that a reader asks for while
  others write;
* `Reader.Simulates.walk` — a reader whose continuations stand for those of another one reads
  the same pages.
-/

namespace Keyset

open Sorting

variable {α κ : Type} [LinearOrder κ] (key : α → κ)

/-- No position is in front of everything. -/
def behind (after : Option κ) (k : κ) : Bool := after.all fun a => decide (a < k)

/-- No position is behind everything, too. -/
def upTo (next : Option κ) (k : κ) : Bool := next.all fun a => decide (k ≤ a)

structure Page (α κ : Type) where
  items : List α
  next : Option κ

def page (after : Option κ) (limit : Nat) (rows : List α) : Page α κ :=
  let found := (sortByKey key (rows.filter fun row => behind after (key row))).take (limit + 1)
  { items := found.take limit
    next := if limit < found.length then (found.take limit).getLast?.map key else none }

/-! ## One page -/

variable {key} {after : Option κ} {limit : Nat} {rows : List α}

/-- With distinct keys the order is strict. -/
theorem sortByKey_strict (h : (rows.map key).Nodup) :
    (sortByKey key rows).Pairwise fun a b => key a < key b := by
  have hDistinct : (sortByKey key rows).Pairwise fun a b => key a ≠ key b := by
    rw [← List.pairwise_map (f := key) (R := fun a b => a ≠ b)]
    exact ((sortByKey_perm key rows).map key).nodup_iff.mpr h
  exact ((sortByKey_pairwise key rows).and hDistinct).imp fun h => lt_of_le_of_ne h.1 h.2

/-- In a strict order, the rows up to the last key of a prefix are the prefix. -/
theorem filter_le_eq_take {l : List α} (h : l.Pairwise fun a b => key a < key b) {n : Nat}
    {last : α} (hLast : (l.take n).getLast? = some last) :
    l.filter (fun row => decide (key row ≤ key last)) = l.take n := by
  obtain ⟨hTake, -, hCross⟩ := List.pairwise_append.mp ((List.take_append_drop n l).symm ▸ h)
  have hMem : last ∈ l.take n := List.mem_of_getLast? hLast
  conv_lhs => rw [← List.take_append_drop n l, List.filter_append]
  have hKept : (l.take n).filter (fun row => decide (key row ≤ key last)) = l.take n := by
    refine List.filter_eq_self.mpr fun row hRow => decide_eq_true ?_
    obtain ⟨front, hFront⟩ := List.getLast?_eq_some_iff.mp hLast
    rw [hFront] at hRow hTake
    rcases List.mem_append.mp hRow with hIn | hIn
    · exact ((List.pairwise_append.mp hTake).2.2 row hIn last (List.mem_singleton_self _)).le
    · rw [List.mem_singleton.mp hIn]
  have hDropped : (l.drop n).filter (fun row => decide (key row ≤ key last)) = [] := by
    refine List.filter_eq_nil_iff.mpr fun row hRow => ?_
    simpa using hCross last hMem row hRow
  rw [hKept, hDropped, List.append_nil]

/-- A page, by the sorted rows behind the position. -/
theorem page_eq (after : Option κ) (limit : Nat) (rows : List α) :
    page key after limit rows =
      let sorted := sortByKey key (rows.filter fun row => behind after (key row))
      { items := sorted.take limit
        next := if limit < sorted.length then (sorted.take limit).getLast?.map key else none } := by
  unfold page
  dsimp only
  rw [List.take_take, List.length_take, show min limit (limit + 1) = limit by omega]
  congr 1
  refine if_congr ?_ rfl rfl
  omega

/-- **A page is what the table holds between two positions.** -/
theorem page_items (hKeys : (rows.map key).Nodup) (hLimit : 0 < limit) :
    (page key after limit rows).items = sortByKey key (rows.filter fun row =>
      upTo (page key after limit rows).next (key row) && behind after (key row)) := by
  have hStrict : (sortByKey key (rows.filter fun row => behind after (key row))).Pairwise
      fun a b => key a < key b :=
    sortByKey_strict (hKeys.sublist (List.filter_sublist.map key))
  rw [page_eq]
  dsimp only
  rw [← List.filter_filter (p := fun row => upTo _ (key row))]
  rw [sortByKey_filter key (fun row => upTo _ (key row))]
  generalize sortByKey key (rows.filter fun row => behind after (key row)) = sorted at hStrict ⊢
  split
  · next hMore =>
    obtain ⟨last, hLast⟩ : ∃ last, (sorted.take limit).getLast? = some last := by
      refine Option.ne_none_iff_exists'.mp fun hNone => ?_
      have := congrArg List.length (List.getLast?_eq_none_iff.mp hNone)
      rw [List.length_take, List.length_nil] at this
      omega
    rw [hLast, Option.map_some]
    exact (filter_le_eq_take hStrict hLast).symm
  · next hAll =>
    rw [List.take_of_length_le (not_lt.mp hAll)]
    exact (List.filter_eq_self.mpr fun _ _ => rfl).symm

/-- The next position is the key of a row of the page. -/
theorem page_next {k : κ} (h : (page key after limit rows).next = some k) :
    ∃ row ∈ (page key after limit rows).items, key row = k := by
  rw [page_eq] at h ⊢
  dsimp only at h ⊢
  split at h
  · obtain ⟨last, hLast, rfl⟩ := Option.map_eq_some_iff.mp h
    exact ⟨last, List.mem_of_getLast? hLast, rfl⟩
  · cases h

/-! ## Pages that follow one another -/

/-- A page that was read from the rows of its moment. -/
structure Read (α κ : Type) where
  after : Option κ
  rows : List α
  items : List α
  next : Option κ

def Read.covers (read : Read α κ) (k : κ) : Bool := upTo read.next k && behind read.after k

/-- What a reader relies on, whatever the limit was. -/
structure Read.Faithful (key : α → κ) (read : Read α κ) : Prop where
  distinct : (read.rows.map key).Nodup
  items : read.items = sortByKey key (read.rows.filter fun row => read.covers (key row))
  next : ∀ k, read.next = some k → ∃ row ∈ read.items, key row = k

/-- Each page begins where the one before it ended. -/
inductive Chain (key : α → κ) : Option κ → List (Read α κ) → Prop where
  | nil (after : Option κ) : Chain key after []
  | last {read : Read α κ} (hRead : read.Faithful key) (hNext : read.next = none) :
      Chain key read.after [read]
  | more {read : Read α κ} {rest : List (Read α κ)} {k : κ} (hRead : read.Faithful key)
      (hNext : read.next = some k) (hRest : Chain key (some k) rest) :
      Chain key read.after (read :: rest)

/-- The pages go on until one has no next position. -/
def Finished (reads : List (Read α κ)) : Prop := ∃ read ∈ reads.getLast?, read.next = none

def returned (reads : List (Read α κ)) : List α := reads.flatMap Read.items

theorem page_faithful (hKeys : (rows.map key).Nodup) (hLimit : 0 < limit) :
    (Read.mk after rows (page key after limit rows).items
      (page key after limit rows).next).Faithful key :=
  ⟨hKeys, page_items hKeys hLimit, fun _ hk => page_next hk⟩

theorem Read.Faithful.mem {read : Read α κ} (h : read.Faithful key) {row : α} :
    row ∈ read.items ↔ row ∈ read.rows ∧ read.covers (key row) = true := by
  rw [h.items, mem_sortByKey, List.mem_filter]

/-- The next page begins behind this one. -/
theorem Read.Faithful.moves {read : Read α κ} (h : read.Faithful key) {k : κ}
    (hNext : read.next = some k) : behind read.after k = true := by
  obtain ⟨row, hRow, rfl⟩ := h.next k hNext
  exact (Bool.and_eq_true_iff.mp (h.mem.mp hRow).2).2

theorem Read.Faithful.sorted {read : Read α κ} (h : read.Faithful key) :
    read.items.Pairwise fun a b => key a < key b := by
  rw [h.items]
  exact sortByKey_strict (h.distinct.sublist (List.filter_sublist.map key))

theorem behind_trans {k k' : κ} (h : behind after k = true) (h' : behind (some k) k' = true) :
    behind after k' = true := by
  cases after with
  | none => rfl
  | some a => exact decide_eq_true ((of_decide_eq_true h).trans (of_decide_eq_true h'))

variable {reads : List (Read α κ)}

/-- Everything a chain reads lies behind its start. -/
theorem Chain.covers_behind (h : Chain key after reads) :
    ∀ read ∈ reads, ∀ k, read.covers k = true → behind after k = true := by
  induction h with
  | nil => simp
  | last hRead hNext =>
    intro read hMem k hk
    rw [List.mem_singleton.mp hMem] at hk
    exact (Bool.and_eq_true_iff.mp hk).2
  | more hRead hNext hRest ih =>
    intro read hMem k hk
    rcases List.mem_cons.mp hMem with rfl | hIn
    · exact (Bool.and_eq_true_iff.mp hk).2
    · exact behind_trans (hRead.moves hNext) (ih read hIn k hk)

theorem Chain.faithful (h : Chain key after reads) : ∀ read ∈ reads, read.Faithful key := by
  induction h with
  | nil => simp
  | last hRead hNext =>
    intro read hMem
    rwa [List.mem_singleton.mp hMem]
  | more hRead hNext hRest ih =>
    intro read hMem
    rcases List.mem_cons.mp hMem with rfl | hIn
    · exact hRead
    · exact ih read hIn

/-- **Nothing comes twice**, and everything comes in order. -/
theorem Chain.sorted (h : Chain key after reads) :
    (returned reads).Pairwise fun a b => key a < key b := by
  induction h with
  | nil => exact List.Pairwise.nil
  | last hRead hNext =>
    rw [returned, List.flatMap_singleton]
    exact hRead.sorted
  | @more read rest k hRead hNext hRest ih =>
    rw [returned, List.flatMap_cons]
    refine List.pairwise_append.mpr ⟨hRead.sorted, ih, fun a ha b hb => ?_⟩
    obtain ⟨other, hOther, hb⟩ := List.mem_flatMap.mp hb
    have hUpTo := (Bool.and_eq_true_iff.mp (hRead.mem.mp ha).2).1
    have hBehind := hRest.covers_behind other hOther (key b)
      ((hRest.faithful other hOther).mem.mp hb).2
    rw [hNext] at hUpTo
    exact lt_of_le_of_lt (of_decide_eq_true hUpTo) (of_decide_eq_true hBehind)

/-- **Every key lies on one page**, once the pages are at their end. -/
theorem Chain.covers (h : Chain key after reads) (hFinished : Finished reads) {k : κ}
    (hBehind : behind after k = true) :
    ∃ read ∈ reads, read.covers k = true ∧ ∀ other ∈ reads, other.covers k = true →
      other = read := by
  induction h with
  | nil => obtain ⟨read, hMem, -⟩ := hFinished; cases hMem
  | @last read hRead hNext =>
    refine ⟨read, List.mem_singleton_self _, ?_, fun other hOther _ => List.mem_singleton.mp hOther⟩
    rw [Read.covers, hNext, hBehind]
    rfl
  | @more read rest next hRead hNext hRest ih =>
    by_cases hHere : k ≤ next
    · refine ⟨read, List.mem_cons_self .., ?_, fun other hOther hCovers => ?_⟩
      · rw [Read.covers, hNext, hBehind, Bool.and_true]
        exact decide_eq_true hHere
      · rcases List.mem_cons.mp hOther with rfl | hIn
        · rfl
        · have hLater := of_decide_eq_true (hRest.covers_behind other hIn k hCovers)
          exact absurd hHere (not_le.mpr hLater)
    · have hLast : Finished rest := by
        obtain ⟨last, hLast, hNone⟩ := hFinished
        cases rest with
        | nil =>
          rw [Option.mem_def, List.getLast?_singleton] at hLast
          rw [← Option.some.inj hLast, hNext] at hNone
          cases hNone
        | cons other rest =>
          rw [List.getLast?_cons_cons] at hLast
          exact ⟨last, hLast, hNone⟩
      obtain ⟨found, hFound, hCovers, hOnly⟩ := ih hLast (decide_eq_true (not_le.mp hHere))
      refine ⟨found, List.mem_cons_of_mem _ hFound, hCovers, fun other hOther hOther' => ?_⟩
      rcases List.mem_cons.mp hOther with rfl | hIn
      · rw [Read.covers, hNext, Bool.and_eq_true] at hOther'
        exact absurd (of_decide_eq_true hOther'.1) hHere
      · exact hOnly other hIn hOther'

/-- Every page that another one follows returned something. -/
theorem Chain.length_le (h : Chain key after reads) (hOpen : ¬ Finished reads) :
    reads.length ≤ (returned reads).length := by
  induction h with
  | nil => exact Nat.le_refl 0
  | @last read hRead hNext => exact absurd ⟨read, rfl, hNext⟩ hOpen
  | @more read rest k hRead hNext hRest ih =>
    have hRestOpen : ¬ Finished rest := by
      rintro ⟨last, hLast, hNone⟩
      refine hOpen ⟨last, ?_, hNone⟩
      rw [Option.mem_def, List.getLast?_cons, Option.mem_def.mp hLast]
      rfl
    obtain ⟨row, hRow, -⟩ := hRead.next k hNext
    have hItems : 0 < read.items.length := List.length_pos_of_mem hRow
    have := ih hRestOpen
    rw [returned, List.flatMap_cons, List.length_append, List.length_cons]
    change rest.length ≤ (rest.flatMap Read.items).length at this
    omega

/-- A row comes exactly when its page finds it. -/
theorem Chain.mem_returned (h : Chain key after reads) {row : α} :
    row ∈ returned reads ↔
      ∃ read ∈ reads, row ∈ read.rows ∧ read.covers (key row) = true := by
  rw [returned, List.mem_flatMap]
  exact exists_congr fun read => and_congr_right fun hRead => (h.faithful read hRead).mem

/-! ## A reader among writers -/

/-- A table with its writes `ω`, and a reader's requests `ε`: the first is made without
a continuation, each later one with that of the page before it. -/
structure Reader (σ ω ε γ ρ : Type) where
  apply : σ → ω → σ
  ask : Option γ → ε → σ → Option ρ
  next : ρ → Option γ

inductive Event (ω ε : Type) where
  | write (write : ω)
  | ask (request : ε)

/-- A page, with the continuation and the table it was read with. -/
structure Answer (σ γ ρ : Type) where
  continuation : Option γ
  table : σ
  page : ρ

variable {σ ω ε γ ρ : Type}

def Event.isAsk : Event ω ε → Bool
  | .write _ => false
  | .ask _ => true

/-- The same events, with requests of another kind. -/
def Event.mapAsk {ε' : Type} (toAsk : ε' → ε) : Event ω ε' → Event ω ε
  | .write w => .write w
  | .ask request => .ask (toAsk request)

namespace Reader

/-- The pages until one has no continuation. A request that fails is made again from
where it was. -/
def walk (r : Reader σ ω ε γ ρ) : Option γ → σ → List (Event ω ε) → List (Answer σ γ ρ)
  | _, _, [] => []
  | c, s, .write write :: events => walk r c (r.apply s write) events
  | c, s, .ask request :: events =>
    match r.ask c request s with
    | none => walk r c s events
    | some page => ⟨c, s, page⟩ ::
      match r.next page with
      | none => []
      | some next => walk r (some next) s events

/-- What a reader's tables and continuations keep, and what it says of a page. -/
structure Keeps (r : Reader σ ω ε γ ρ) (Good : σ → Option γ → Prop) : Prop where
  write : ∀ {s c} write, Good s c → Good (r.apply s write) c
  ask : ∀ {s c request page next}, Good s c → r.ask c request s = some page →
    r.next page = some next → Good s (some next)

/-- How a page is read off the table. -/
structure Pages (r : Reader σ ω ε γ ρ) (key : α → κ) (Good : σ → Option γ → Prop)
    (position : γ → κ) (toRead : Answer σ γ ρ → Read α κ) : Prop where
  faithful : ∀ {s c request page}, Good s c → r.ask c request s = some page →
    (toRead ⟨c, s, page⟩).Faithful key
  after : ∀ answer, (toRead answer).after = answer.continuation.map position
  next : ∀ answer, (toRead answer).next = (r.next answer.page).map position

variable {r : Reader σ ω ε γ ρ} {Good : σ → Option γ → Prop} {position : γ → κ}
  {toRead : Answer σ γ ρ → Read α κ}

section Equations

variable {c : Option γ} {s : σ} {request : ε} {page : ρ} {events : List (Event ω ε)}

theorem walk_refused (h : r.ask c request s = none) :
    r.walk c s (.ask request :: events) = r.walk c s events := by
  rw [walk, h]

theorem walk_last (h : r.ask c request s = some page) (hNext : r.next page = none) :
    r.walk c s (.ask request :: events) = [⟨c, s, page⟩] := by
  rw [walk, h]
  dsimp only
  rw [hNext]

theorem walk_more (h : r.ask c request s = some page) {next : γ} (hNext : r.next page = some next) :
    r.walk c s (.ask request :: events) = ⟨c, s, page⟩ :: r.walk (some next) s events := by
  rw [walk, h]
  dsimp only
  rw [hNext]

end Equations

/-- What the writes of a walk and its pages keep holds wherever a page is read. -/
theorem walk_invariant (events : List (Event ω ε)) :
    (∀ {s c} write, .write write ∈ events → Good s c → Good (r.apply s write) c) →
    (∀ {s c request page next}, Good s c → r.ask c request s = some page →
      r.next page = some next → Good s (some next)) →
    ∀ {s : σ} {c : Option γ}, Good s c → ∀ answer ∈ r.walk c s events,
      Good answer.table answer.continuation ∧
        ∃ request, r.ask answer.continuation request answer.table = some answer.page := by
  induction events with
  | nil => exact fun _ _ _ _ _ _ hAnswer => by cases hAnswer
  | cons event events ih =>
    intro hWrite hNextGood s c hGood
    have hRest : ∀ {s c} write, .write write ∈ events → Good s c → Good (r.apply s write) c :=
      fun write hIn => hWrite write (List.mem_cons_of_mem _ hIn)
    rcases event with write | request
    · exact ih hRest hNextGood (hWrite write (List.mem_cons_self ..) hGood)
    rcases hAsk : r.ask c request s with - | page
    · rw [walk_refused hAsk]
      exact ih hRest hNextGood hGood
    rcases hNext : r.next page with - | next
    · rw [walk_last hAsk hNext]
      intro answer hAnswer
      rw [List.mem_singleton.mp hAnswer]
      exact ⟨hGood, request, hAsk⟩
    · rw [walk_more hAsk hNext]
      intro answer hAnswer
      rcases List.mem_cons.mp hAnswer with rfl | hLater
      · exact ⟨hGood, request, hAsk⟩
      · exact ih hRest hNextGood (hNextGood hGood hAsk hNext) answer hLater

theorem walk_kept (hKeeps : r.Keeps Good) (events : List (Event ω ε)) {s : σ} {c : Option γ}
    (hGood : Good s c) : ∀ answer ∈ r.walk c s events,
      Good answer.table answer.continuation ∧
        ∃ request, r.ask answer.continuation request answer.table = some answer.page :=
  walk_invariant events (fun write _ => hKeeps.write write) hKeeps.ask hGood

/-- **The pages of a walk follow one another**, whatever is written between them. -/
theorem walk_chain (hKeeps : r.Keeps Good) (hPages : r.Pages key Good position toRead)
    (events : List (Event ω ε)) : ∀ {s : σ} {c : Option γ}, Good s c →
      Chain key (c.map position) ((r.walk c s events).map toRead) := by
  induction events with
  | nil => exact fun _ => .nil _
  | cons event events ih =>
    intro s c hGood
    rcases event with write | request
    · exact ih (hKeeps.write write hGood)
    rcases hAsk : r.ask c request s with - | page
    · rw [walk_refused hAsk]
      exact ih hGood
    have hFaithful := hPages.faithful hGood hAsk
    rw [← hPages.after ⟨c, s, page⟩]
    rcases hNext : r.next page with - | next
    · rw [walk_last hAsk hNext]
      refine Chain.last hFaithful ?_
      rw [hPages.next, hNext]
      rfl
    · rw [walk_more hAsk hNext]
      refine Chain.more (k := position next) hFaithful ?_ (ih (hKeeps.ask hGood hAsk hNext))
      rw [hPages.next, hNext]
      rfl

/-- The first page of a walk, and where the others come from. -/
theorem walk_head (hKeeps : r.Keeps Good) (events : List (Event ω ε)) :
    ∀ {s : σ} {c : Option γ}, Good s c → ∀ first ∈ (r.walk c s events).head?,
      (Good first.table c ∧ ∃ request, r.ask c request first.table = some first.page) ∧
      ∀ answer ∈ r.walk c s events, answer = first ∨
        ∃ next rest, r.next first.page = some next ∧
          answer ∈ r.walk (some next) first.table rest := by
  induction events with
  | nil => exact fun _ _ hFirst => by cases hFirst
  | cons event events ih =>
    intro s c hGood
    rcases event with write | request
    · exact ih (hKeeps.write write hGood)
    rcases hAsk : r.ask c request s with - | page
    · rw [walk_refused hAsk]
      exact ih hGood
    rcases hNext : r.next page with - | next
    · rw [walk_last hAsk hNext]
      intro first hFirst
      obtain rfl := Option.some.inj hFirst
      exact ⟨⟨hGood, request, hAsk⟩, fun answer hAnswer => Or.inl (List.mem_singleton.mp hAnswer)⟩
    · rw [walk_more hAsk hNext]
      intro first hFirst
      obtain rfl := Option.some.inj hFirst
      refine ⟨⟨hGood, request, hAsk⟩, fun answer hAnswer => ?_⟩
      rcases List.mem_cons.mp hAnswer with rfl | hLater
      · exact Or.inl rfl
      · exact Or.inr ⟨next, events, hNext, hLater⟩

/-- Where the pages end. -/
def Ended (r : Reader σ ω ε γ ρ) (answers : List (Answer σ γ ρ)) : Prop :=
  ∃ answer ∈ answers.getLast?, r.next answer.page = none

theorem finished_iff (hPages : r.Pages key Good position toRead) {answers : List (Answer σ γ ρ)} :
    Finished (answers.map toRead) ↔ r.Ended answers := by
  unfold Finished Ended
  rw [List.getLast?_map]
  rcases answers.getLast? with - | answer
  · simp
  · simp [hPages.next]

theorem Ended.cons {answer : Answer σ γ ρ} {rest : List (Answer σ γ ρ)} (h : r.Ended rest) :
    r.Ended (answer :: rest) := by
  obtain ⟨last, hLast, hNone⟩ := h
  refine ⟨last, ?_, hNone⟩
  rw [Option.mem_def, List.getLast?_cons, Option.mem_def.mp hLast]
  rfl

theorem walk_returned (hKeeps : r.Keeps Good) (hPages : r.Pages key Good position toRead)
    (events : List (Event ω ε)) {s : σ} {c : Option γ} (hGood : Good s c) {row : α}
    (hRow : row ∈ returned ((r.walk c s events).map toRead)) :
    ∃ answer ∈ r.walk c s events, row ∈ (toRead answer).rows ∧
      (toRead answer).covers (key row) = true := by
  obtain ⟨_, hIn, hFound⟩ := (walk_chain hKeeps hPages events hGood).mem_returned.mp hRow
  obtain ⟨answer, hAnswer, rfl⟩ := List.mem_map.mp hIn
  exact ⟨answer, hAnswer, hFound⟩

/-- An open walk has no more pages than there are keys for its rows. -/
theorem walk_length_le (hKeeps : r.Keeps Good) (hPages : r.Pages key Good position toRead)
    (events : List (Event ω ε)) {s : σ} {c : Option γ} (hGood : Good s c)
    (hOpen : ¬ r.Ended (r.walk c s events)) {keys : List κ}
    (hKeys : ∀ row ∈ returned ((r.walk c s events).map toRead), key row ∈ keys) :
    (r.walk c s events).length ≤ keys.length := by
  have hChain := walk_chain hKeeps hPages events hGood
  have hLength := hChain.length_le fun hFinished => hOpen ((finished_iff hPages).mp hFinished)
  rw [List.length_map] at hLength
  have hNodup : ((returned ((r.walk c s events).map toRead)).map key).Nodup :=
    List.pairwise_map.mpr (hChain.sorted.imp fun hLt => ne_of_lt hLt)
  have hSubset : (returned ((r.walk c s events).map toRead)).map key ⊆ keys := by
    intro k hk
    obtain ⟨row, hRow, rfl⟩ := List.mem_map.mp hk
    exact hKeys row hRow
  have hKeysLe := (List.subperm_of_subset hNodup hSubset).length_le
  rw [List.length_map] at hKeysLe
  exact hLength.trans hKeysLe

/-- **Every key has its page**, once the walk is at its end, and a row comes with this key
exactly when that page finds it. -/
theorem walk_found (hKeeps : r.Keeps Good) (hPages : r.Pages key Good position toRead)
    (events : List (Event ω ε)) {s : σ} {c : Option γ} (hGood : Good s c)
    (hEnded : r.Ended (r.walk c s events)) {k : κ} (hBehind : behind (c.map position) k = true) :
    ∃ answer ∈ r.walk c s events, (toRead answer).covers k = true ∧
      ∀ row, key row = k →
        (row ∈ returned ((r.walk c s events).map toRead) ↔ row ∈ (toRead answer).rows) := by
  have hChain := walk_chain hKeeps hPages events hGood
  obtain ⟨_, hIn, hCovers, hOnly⟩ := hChain.covers ((finished_iff hPages).mpr hEnded) hBehind
  obtain ⟨answer, hAnswer, rfl⟩ := List.mem_map.mp hIn
  refine ⟨answer, hAnswer, hCovers, fun row hKey => ?_⟩
  rw [hChain.mem_returned]
  constructor
  · rintro ⟨other, hOther, hRow, hRowCovers⟩
    rw [hKey] at hRowCovers
    rwa [hOnly other hOther hRowCovers] at hRow
  · intro hRow
    exact ⟨_, hIn, hRow, by rwa [hKey]⟩

/-- A walk none of whose requests fails has as many pages as requests. -/
theorem walk_length (hKeeps : r.Keeps Good) (events : List (Event ω ε)) :
    (∀ {s c request}, Good s c → .ask request ∈ events → (r.ask c request s).isSome) →
    ∀ {s : σ} {c : Option γ}, Good s c → ¬ r.Ended (r.walk c s events) →
      (r.walk c s events).length = events.countP Event.isAsk := by
  induction events with
  | nil => exact fun _ _ _ _ _ => rfl
  | cons event events ih =>
    intro hTotal s c hGood hOpen
    have hRest : ∀ {s c request}, Good s c → .ask request ∈ events →
        (r.ask c request s).isSome := fun hGood hIn => hTotal hGood (List.mem_cons_of_mem _ hIn)
    rcases event with write | request
    · rw [List.countP_cons_of_neg Bool.false_ne_true]
      exact ih hRest (hKeeps.write write hGood) hOpen
    obtain ⟨page, hAsk⟩ := Option.isSome_iff_exists.mp (hTotal hGood (List.mem_cons_self ..))
    rw [List.countP_cons_of_pos rfl]
    rcases hNext : r.next page with - | next
    · rw [walk_last hAsk hNext] at hOpen
      exact absurd ⟨_, rfl, hNext⟩ hOpen
    · rw [walk_more hAsk hNext] at hOpen ⊢
      rw [List.length_cons, ih hRest (hKeeps.ask hGood hAsk hNext) fun hEnded => hOpen hEnded.cons]

section Simulation

variable {ε' γ' ρ' : Type} {r' : Reader σ ω ε' γ' ρ'} {toAsk : ε' → ε}
  {Stands : σ → Option γ' → Option γ → Prop} {Same : ρ' → ρ → Prop}

/-- A reader whose continuations stand for those of another one, page by page. -/
structure Simulates (r' : Reader σ ω ε' γ' ρ') (r : Reader σ ω ε γ ρ) (toAsk : ε' → ε)
    (Stands : σ → Option γ' → Option γ → Prop) (Same : ρ' → ρ → Prop) : Prop where
  apply : ∀ s write, r'.apply s write = r.apply s write
  write : ∀ {s c' c} write, Stands s c' c → Stands (r.apply s write) c' c
  refused : ∀ {s c' c request}, Stands s c' c → r.ask c (toAsk request) s = none →
    r'.ask c' request s = none
  page : ∀ {s c' c request page}, Stands s c' c → r.ask c (toAsk request) s = some page →
    ∃ page', r'.ask c' request s = some page' ∧ Same page' page ∧
      ((r.next page = none ∧ r'.next page' = none) ∨
        ∃ next next', r.next page = some next ∧ r'.next page' = some next' ∧
          Stands s (some next') (some next))

/-- **Both walks read the same pages off the same tables.** -/
theorem Simulates.walk (h : Simulates r' r toAsk Stands Same) (events : List (Event ω ε')) :
    ∀ {s : σ} {c' : Option γ'} {c : Option γ}, Stands s c' c →
      List.Forall₂ (fun a' a => Same a'.page a.page ∧ a'.table = a.table)
        (r'.walk c' s events) (r.walk c s (events.map (Event.mapAsk toAsk))) := by
  induction events with
  | nil => exact fun _ => .nil
  | cons event events ih =>
    intro s c' c hStands
    rcases event with write | request
    · show List.Forall₂ _ (r'.walk c' (r'.apply s write) events) (r.walk c (r.apply s write) _)
      rw [h.apply]
      exact ih (h.write write hStands)
    · show List.Forall₂ _ _ (r.walk c s (.ask (toAsk request) :: events.map (Event.mapAsk toAsk)))
      rcases hAsk : r.ask c (toAsk request) s with - | page
      · rw [walk_refused hAsk, walk_refused (h.refused hStands hAsk)]
        exact ih hStands
      obtain ⟨page', hAsk', hSame, ⟨hNext, hNext'⟩ | ⟨next, next', hNext, hNext', hLater⟩⟩ :=
        h.page hStands hAsk
      · rw [walk_last hAsk hNext, walk_last hAsk' hNext']
        exact .cons ⟨hSame, rfl⟩ .nil
      · rw [walk_more hAsk hNext, walk_more hAsk' hNext']
        exact .cons ⟨hSame, rfl⟩ (ih hLater)

end Simulation

end Reader

end Keyset
