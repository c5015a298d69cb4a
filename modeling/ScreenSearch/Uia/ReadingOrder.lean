import ScreenSearch.Uia.WalkLaw

/-!
# The order of the walk

The children of an element are pushed in their order, first to last, and popped from the end: of
two siblings the later is read first, with all that is under it. On a finite tree within the caps
the walk so reads each element before its descendants and siblings last to first, and the text of
the window is in reading order only where it has no two texts side by side.

Main results:

* `walkLoop_tree` — the walk of a tree reads its elements in the order `walkOrder`;
* `order_before` — which is the document's order with siblings reversed;
* `document_order_iff` — so the text is in document order exactly when of any two elements with
  a text one is inside the other;
* `siblings_reversed` — two labels side by side, read backwards.
-/

namespace ScreenSearch.Uia

open Capture (UiaBudget)

/-! ## Trees -/

/-- An accessibility tree, with what each element answers. -/
inductive AxTree where
  | node (answers : Answers) (children : List AxTree)

/-- An element of a tree: the way to it from the root, deepest step first, what is under it, and
the siblings after it. -/
structure AxElem where
  way : List Nat
  tree : AxTree
  later : List AxTree

/-- The way from the root. -/
def AxElem.path (e : AxElem) : List Nat := e.way.reverse

namespace AxTree

def answers : AxTree → Answers
  | node a _ => a

def children : AxTree → List AxTree
  | node _ cs => cs

def root (t : AxTree) : AxElem := ⟨[], t, []⟩

/-- The siblings from the `i`-th on. -/
def siblings (way : List Nat) (i : Nat) : List AxTree → List AxElem
  | [] => []
  | c :: cs => ⟨i :: way, c, cs⟩ :: siblings way (i + 1) cs

/-- A process that answers the same whenever it is asked. -/
def provider : Provider AxElem where
  answers _ e := e.tree.answers
  firstChild _ e :=
    match e.tree.children with
    | c :: cs => some ⟨0 :: e.way, c, cs⟩
    | [] => none
  nextSibling _ e :=
    match e.later, e.way with
    | c :: cs, i :: way => some ⟨(i + 1) :: way, c, cs⟩
    | _, _ => none

mutual

/-- The elements in the order of the walk: siblings last to first. -/
def walkOrder (way : List Nat) (later : List AxTree) : AxTree → List AxElem
  | node a cs => ⟨way, node a cs, later⟩ :: walkOrderAll way 0 cs

def walkOrderAll (way : List Nat) (i : Nat) : List AxTree → List AxElem
  | [] => []
  | c :: cs => walkOrderAll way (i + 1) cs ++ walkOrder (i :: way) cs c

end

mutual

/-- The tree is at most so deep. -/
def Shallow (depth : Nat) : AxTree → Prop
  | node _ cs => cs = [] ∨ 0 < depth ∧ ShallowAll (depth - 1) cs

def ShallowAll (depth : Nat) : List AxTree → Prop
  | [] => True
  | c :: cs => Shallow depth c ∧ ShallowAll depth cs

end

mutual

/-- Walked with `pending` elements below it on the stack, the tree does not fill the stack. -/
def Fits (pending : Nat) : AxTree → Prop
  | node _ cs => pending + cs.length ≤ maxStack ∧ FitsAll pending cs

def FitsAll (pending : Nat) : List AxTree → Prop
  | [] => True
  | c :: cs => FitsAll (pending + 1) cs ∧ Fits pending c

end

end AxTree

/-- No flag is ever raised. -/
def Flags.down : Flags := ⟨none, none, none⟩

@[simp] theorem Flags.down_raised (check : Nat) : Flags.down.raised check = false := rfl

/-! ## What elements emit -/

section

variable {Elem : Type}

/-- Reads elements one after the other. -/
def Gathered.readAll (ctx : WalkContext) (maxTextpatternCalls : Nat) (answers : Elem → Answers)
    (g : Gathered Elem) (es : List Elem) : Gathered Elem :=
  es.foldl (fun g e => (g.read ctx maxTextpatternCalls e (answers e)).1) g

/-- A probe of the element's text pattern is made, if there were so many before. -/
def Answers.probed (maxTextpatternCalls calls : Nat) (a : Answers) : Bool :=
  a.cached.any fun c => c.readable && c.wantsTextpattern && decide (calls < maxTextpatternCalls)

/-- The element may be read, has a text that is not blank, and is in the window. -/
def Answers.hasText (ctx : WalkContext) (allowTextpattern : Bool) (a : Answers) : Bool :=
  a.cached.any fun c => c.readable &&
    (emission ctx c (extractText c a allowTextpattern).2).isSome

/-- The elements with a text, of those that are read one after the other; how many probes of text
patterns are left decides whether visible text counts. -/
def withText (ctx : WalkContext) (maxTextpatternCalls : Nat) (answers : Elem → Answers) :
    Nat → List Elem → List Elem
  | _, [] => []
  | calls, e :: es =>
    let allow := (answers e).probed maxTextpatternCalls calls
    let rest := withText ctx maxTextpatternCalls answers (calls + if allow then 1 else 0) es
    if (answers e).hasText ctx allow then e :: rest else rest

end

/-- A tree that the walk reads to the end: within the depth, the nodes, the words and the stack. -/
structure AxTree.Within (ctx : WalkContext) (budget : UiaBudget) (t : AxTree) : Prop where
  depth : t.Shallow maxDepth
  nodes : (t.walkOrder [] []).length ≤ budget.maxNodes
  spans : ((Gathered.empty : Gathered AxElem).readAll ctx budget.maxTextpatternCalls
    (fun e => e.tree.answers) (t.walkOrder [] [])).spans.length < maxSpans
  stack : t.Fits 0

/-! ## Document order -/

/-- The text and the words are those of the emitted elements, one after the other, on lines that
are numbered on from element to element. -/
structure Transcript {Elem : Type} (g : Gathered Elem) : Prop where
  text : g.text = String.join (g.emitted.map fun e => e.text ++ "\n")
  words : (g.spans.map fun s => (s.lineIndex, s.text)) =
    g.emitted.flatMap fun e => (splitWords e.text e.firstLine).1
  lines : ∀ e ∈ g.emitted, e.firstLine < e.nextLine ∧ (splitWords e.text e.firstLine).2 = e.nextLine
  numbered : g.emitted.IsChain fun e f => f.firstLine = e.nextLine
  next : g.lineIndex = (g.emitted.getLast?.map Emitted.nextLine).getD 0

/-- The text is that of elements in document order: paths in lexicographic order, an element
before what is inside it. -/
structure InDocumentOrder (g : Gathered AxElem) : Prop where
  transcript : Transcript g
  ordered : (g.emitted.map fun e => e.elem.path).Pairwise (· < ·)

/-- Of any two of the elements one is inside the other. -/
def Nested (es : List AxElem) : Prop :=
  ∀ e ∈ es, ∀ f ∈ es, e.path <+: f.path ∨ f.path <+: e.path

/-! ## Reading elements -/

section

variable {Elem : Type} {ctx : WalkContext} {g : Gathered Elem}

theorem empty_transcript : Transcript (Gathered.empty : Gathered Elem) where
  text := rfl
  words := rfl
  lines := fun _ h => by cases h
  numbered := List.IsChain.nil
  next := rfl

theorem emit_transcript (h : Transcript g) (elem : Elem) (trimmed : String) (box : Box) :
    Transcript (g.emit ctx elem trimmed box) := by
  obtain ⟨hText, hWords, hLines, hNumbered, hNext⟩ := h
  obtain ⟨-, hSplit⟩ := splitWords_spec trimmed g.lineIndex
  have hGt := hSplit.next_gt
  unfold Gathered.emit
  rcases hWordsOf : splitWords trimmed g.lineIndex with ⟨words, next⟩
  rw [hWordsOf] at hGt
  dsimp only at hGt ⊢
  split
  · next hLater =>
    constructor
    · show g.text ++ trimmed ++ "\n" = _
      rw [hText, List.map_append, String.join_append, String.append_assoc]
      rfl
    · show ((g.spans ++ words.map (Gathered.span ctx box)).map _) = _
      rw [List.map_append, hWords, List.flatMap_append, List.map_map]
      congr 1
      rw [List.flatMap_cons, hWordsOf, List.flatMap_nil, List.append_nil]
      exact List.map_id _
    · intro e he
      rcases List.mem_append.mp he with hOld | hNew
      · exact hLines e hOld
      · obtain rfl := List.mem_singleton.mp hNew
        exact ⟨hLater, congrArg Prod.snd hWordsOf⟩
    · rw [List.isChain_append]
      refine ⟨hNumbered, List.IsChain.singleton _, ?_⟩
      intro e he f hf
      obtain rfl := Option.mem_some_iff.mp hf
      rw [Option.mem_def.mp he] at hNext
      exact hNext
    · rw [List.getLast?_concat]
      rfl
  · next hNone =>
    obtain rfl : words = [] := by
      by_contra hSome
      exact hNone (hGt.mpr fun hNil => hSome (List.map_eq_nil_iff.mp hNil))
    rw [List.map_nil, List.append_nil]
    exact ⟨hText, hWords, hLines, hNumbered, hNext⟩

theorem read_transcript (h : Transcript g) (maxTextpatternCalls : Nat) (elem : Elem) (a : Answers) :
    Transcript (g.read ctx maxTextpatternCalls elem a).1 := by
  have hProbe : ∀ allow : Bool, Transcript (g.probe allow) := by
    intro allow
    obtain ⟨hText, hWords, hLines, hNumbered, hNext⟩ := h
    constructor <;> simp only [Gathered.probe_spans, Gathered.probe_text, Gathered.probe_lineIndex,
      Gathered.probe_emitted] <;> assumption
  rcases g.read_cases ctx maxTextpatternCalls elem a with
    ⟨-, hRead⟩ | ⟨c, -, -, ⟨-, hRead⟩ | ⟨trimmed, box, -, hRead⟩⟩ <;> rw [hRead]
  · exact h
  · exact hProbe _
  · exact emit_transcript (hProbe _) elem trimmed box

theorem readAll_transcript (ctx : WalkContext) (h : Transcript g) (maxTextpatternCalls : Nat)
    (answers : Elem → Answers) (es : List Elem) :
    Transcript (g.readAll ctx maxTextpatternCalls answers es) := by
  induction es generalizing g with
  | nil => exact h
  | cons e es ih => exact ih (read_transcript h maxTextpatternCalls e (answers e))

/-- An element with a text is emitted, and its lines are new. -/
theorem emit_emitted (g : Gathered Elem) (elem : Elem) {c : CachedElement} {raw : Option String}
    {trimmed : String} {box : Box} (h : emission ctx c raw = some (trimmed, box)) :
    (g.emit ctx elem trimmed box).emitted.map Emitted.elem = g.emitted.map Emitted.elem ++ [elem] := by
  have hSome : (Text.splitWhitespace trimmed) ≠ [] := by
    unfold emission at h
    obtain ⟨text, -, h⟩ := Option.bind_eq_some_iff.mp h
    dsimp only at h
    split at h
    · next hBoth =>
      obtain ⟨rfl, -⟩ := Prod.mk.inj (Option.some.inj h)
      rw [Bool.and_eq_true, Bool.not_eq_true'] at hBoth
      exact Text.splitWhitespace_trim hBoth.1
    · cases h
  obtain ⟨hTexts, hLines⟩ := splitWords_spec trimmed g.lineIndex
  have hGt := hLines.next_gt
  unfold Gathered.emit
  generalize splitWords trimmed g.lineIndex = split at hTexts hGt ⊢
  obtain ⟨words, next⟩ := split
  dsimp only at hTexts hGt ⊢
  rw [if_pos]
  · exact List.map_append
  · refine hGt.mpr fun hNil => hSome ?_
    rw [← hTexts, List.map_eq_nil_iff.mp hNil]
    rfl

/-- What a visit emits and probes, by the element's answers. -/
theorem read_emitted (ctx : WalkContext) (maxTextpatternCalls : Nat) (g : Gathered Elem) (e : Elem)
    (a : Answers) :
    (g.read ctx maxTextpatternCalls e a).1.emitted.map Emitted.elem = g.emitted.map Emitted.elem ++
      (if a.hasText ctx (a.probed maxTextpatternCalls g.textpatternCalls) then [e] else []) ∧
    (g.read ctx maxTextpatternCalls e a).1.textpatternCalls =
      g.textpatternCalls + if a.probed maxTextpatternCalls g.textpatternCalls then 1 else 0 := by
  rcases g.read_cases ctx maxTextpatternCalls e a with
    ⟨hSkipped, hRead⟩ | ⟨c, hCached, hReadable, hCases⟩
  · have hNot : a.probed maxTextpatternCalls g.textpatternCalls = false ∧
        ∀ allow, a.hasText ctx allow = false := by
      unfold Answers.probed Answers.hasText
      rcases hCached : a.cached with _ | c
      · exact ⟨rfl, fun _ => rfl⟩
      · rw [hCached] at hSkipped
        simp only [Option.any_some] at hSkipped ⊢
        simp [hSkipped]
    rw [hRead, hNot.1, hNot.2]
    exact ⟨(List.append_nil _).symm, rfl⟩
  · have hProbed : a.probed maxTextpatternCalls g.textpatternCalls =
        g.allows maxTextpatternCalls c := by
      unfold Answers.probed Gathered.allows
      rw [hCached]
      simp [hReadable]
    have hText : a.hasText ctx (g.allows maxTextpatternCalls c) =
        (emission ctx c (extractText c a (g.allows maxTextpatternCalls c)).2).isSome := by
      unfold Answers.hasText
      rw [hCached]
      simp [hReadable]
    rw [hProbed, hText]
    rcases hCases with ⟨hEmission, hRead⟩ | ⟨trimmed, box, hEmission, hRead⟩ <;>
      rw [hRead, hEmission]
    · exact ⟨by simp, Gathered.probe_textpatternCalls ..⟩
    · refine ⟨?_, by simp⟩
      rw [emit_emitted _ e hEmission, Gathered.probe_emitted]
      rfl

theorem readAll_emitted (ctx : WalkContext) (maxTextpatternCalls : Nat) (answers : Elem → Answers)
    (g : Gathered Elem) (es : List Elem) :
    (g.readAll ctx maxTextpatternCalls answers es).emitted.map Emitted.elem =
      g.emitted.map Emitted.elem ++
        withText ctx maxTextpatternCalls answers g.textpatternCalls es := by
  induction es generalizing g with
  | nil => exact (List.append_nil _).symm
  | cons e es ih =>
    obtain ⟨hEmitted, hCalls⟩ := read_emitted ctx maxTextpatternCalls g e (answers e)
    rw [Gathered.readAll, List.foldl_cons]
    refine (ih _).trans ?_
    rw [hEmitted, hCalls, List.append_assoc]
    congr 1
    rw [withText]
    split <;> rfl

theorem withText_sublist (ctx : WalkContext) (maxTextpatternCalls : Nat) (answers : Elem → Answers)
    (calls : Nat) (es : List Elem) :
    (withText ctx maxTextpatternCalls answers calls es).Sublist es := by
  induction es generalizing calls with
  | nil => exact List.Sublist.refl _
  | cons e es ih =>
    rw [withText]
    split
    · exact (ih _).cons_cons e
    · exact (ih _).cons e

theorem emit_spans (ctx : WalkContext) (g : Gathered Elem) (e : Elem) (trimmed : String)
    (box : Box) : g.spans.length ≤ (g.emit ctx e trimmed box).spans.length := by
  unfold Gathered.emit
  dsimp only
  split
  · show g.spans.length ≤ (g.spans ++ _).length
    rw [List.length_append]
    exact Nat.le_add_right ..
  · show g.spans.length ≤ (g.spans ++ _).length
    rw [List.length_append]
    exact Nat.le_add_right ..

/-- Reading on only adds words. -/
theorem readAll_spans (ctx : WalkContext) (maxTextpatternCalls : Nat) (answers : Elem → Answers)
    (g : Gathered Elem) (es : List Elem) :
    g.spans.length ≤ (g.readAll ctx maxTextpatternCalls answers es).spans.length := by
  induction es generalizing g with
  | nil => exact Nat.le_refl _
  | cons e es ih =>
    refine Nat.le_trans ?_ (ih _)
    dsimp only
    rcases g.read_cases ctx maxTextpatternCalls e (answers e) with
      ⟨-, hRead⟩ | ⟨c, -, -, ⟨-, hRead⟩ | ⟨trimmed, box, -, hRead⟩⟩ <;> rw [hRead]
    · rw [Gathered.probe_spans]
    · have hMore := emit_spans ctx (g.probe (g.allows maxTextpatternCalls c)) e trimmed box
      rwa [Gathered.probe_spans] at hMore

end

/-! ## The walk of a tree -/

namespace AxTree

variable {ctx : WalkContext} {budget : UiaBudget}

/-- The siblings of an element, the last on top. -/
theorem pushSiblings_tree (way : List Nat) (i depth : Nat) (c : AxTree) (cs : List AxTree)
    (stack : List (AxElem × Nat)) (checks : Nat)
    (hFits : stack.length + (cs.length + 1) ≤ maxStack) :
    ∃ checks', pushSiblings provider .down depth ⟨i :: way, c, cs⟩ stack checks =
      (((siblings way i (c :: cs)).reverse.map fun e => (e, depth)) ++ stack, checks') := by
  induction cs generalizing i c stack checks with
  | nil =>
    refine ⟨checks + 1, ?_⟩
    rw [pushSiblings, if_neg (by omega), if_neg (by simp)]
    rfl
  | cons d cs ih =>
    obtain ⟨checks', hRest⟩ := ih (i + 1) d ((⟨i :: way, c, d :: cs⟩, depth) :: stack) (checks + 1)
      (by simp only [List.length_cons] at hFits ⊢; omega)
    refine ⟨checks', ?_⟩
    rw [pushSiblings, if_neg (by omega), if_neg (by simp)]
    show pushSiblings provider .down depth ⟨(i + 1) :: way, d, cs⟩ _ _ =
      (((⟨i :: way, c, d :: cs⟩ :: siblings way (i + 1) (d :: cs)).reverse.map fun e => (e, depth)) ++
        stack, checks')
    rw [hRest, List.reverse_cons, List.map_append, List.append_assoc]
    rfl

/-- The walk goes on with these elements read. -/
structure Reads (ctx : WalkContext) (budget : UiaBudget) (w w' : Walk AxElem) (es : List AxElem)
    (rest : List (AxElem × Nat)) : Prop where
  loop : walkLoop provider .down ctx budget w = walkLoop provider .down ctx budget w'
  stack : w'.stack = rest
  nodes : w'.nodes = w.nodes + es.length
  gathered : w'.gathered =
    w.gathered.readAll ctx budget.maxTextpatternCalls (fun e => e.tree.answers) es

theorem readAll_append (ctx : WalkContext) (calls : Nat) (g : Gathered AxElem) (es fs : List AxElem) :
    g.readAll ctx calls (fun e => e.tree.answers) (es ++ fs) =
      (g.readAll ctx calls (fun e => e.tree.answers) es).readAll ctx calls
        (fun e => e.tree.answers) fs :=
  List.foldl_append ..

/-- One element is read, and its children are next. -/
theorem visit_reads (ctx : WalkContext) (budget : UiaBudget) {w : Walk AxElem} {way : List Nat}
    {later : List AxTree} {a : Answers} {cs : List AxTree} {depth : Nat} {rest : List (AxElem × Nat)}
    (hStack : w.stack = (⟨way, node a cs, later⟩, depth) :: rest)
    (hDepth : (node a cs).Shallow (maxDepth - depth)) (hNodes : w.nodes < budget.maxNodes)
    (hSpans : w.gathered.spans.length < maxSpans) (hFits : rest.length + cs.length ≤ maxStack) :
    ∃ w', Reads ctx budget w w' [⟨way, node a cs, later⟩]
      (((siblings way 0 cs).reverse.map fun e => (e, depth + 1)) ++ rest) := by
  refine ⟨w.visit provider .down ctx budget ⟨way, node a cs, later⟩ depth rest, ?_, ?_, rfl, rfl⟩
  · rw [walkLoop, hStack]
    dsimp only
    rw [if_neg]
    rintro (hFull | hFull | hRaised)
    · omega
    · omega
    · exact Bool.false_ne_true hRaised
  · unfold Walk.visit
    dsimp only
    rcases cs with _ | ⟨c, cs⟩
    · show (if depth < maxDepth then (rest, w.checks + 1) else (rest, w.checks + 1)).1 = rest
      rw [ite_self]
    · have hShallow : 0 < maxDepth - depth := by
        unfold Shallow at hDepth
        rcases hDepth with hNil | hDeep
        · cases hNil
        · exact hDeep.1
      rw [if_pos (by omega)]
      obtain ⟨checks', hPushed⟩ := pushSiblings_tree way 0 (depth + 1) c cs rest (w.checks + 1) hFits
      show (pushSiblings provider .down (depth + 1) ⟨0 :: way, c, cs⟩ rest (w.checks + 1)).1 = _
      rw [hPushed]

mutual

/-- The tree on top of the stack is read, in the order of the walk. -/
theorem loop_tree (ctx : WalkContext) (budget : UiaBudget) (way : List Nat)
    (later : List AxTree) (depth : Nat) (rest : List (AxElem × Nat)) :
    ∀ (t : AxTree) (w : Walk AxElem),
    w.stack = (⟨way, t, later⟩, depth) :: rest → t.Shallow (maxDepth - depth) →
    w.nodes + (t.walkOrder way later).length ≤ budget.maxNodes →
    (w.gathered.readAll ctx budget.maxTextpatternCalls (fun e => e.tree.answers)
      (t.walkOrder way later)).spans.length < maxSpans →
    t.Fits rest.length → ∃ w', Reads ctx budget w w' (t.walkOrder way later) rest
  | node a cs, w, hStack, hDepth, hNodes, hSpans, hFits => by
    unfold Fits at hFits
    rw [walkOrder] at hNodes hSpans ⊢
    rw [List.length_cons] at hNodes
    have hFirst := readAll_spans ctx budget.maxTextpatternCalls (fun e : AxElem => e.tree.answers)
      w.gathered (⟨way, node a cs, later⟩ :: walkOrderAll way 0 cs)
    obtain ⟨w₁, hRead⟩ := visit_reads ctx budget hStack hDepth (by omega) (by omega) hFits.1
    have hChildren : ShallowAll (maxDepth - (depth + 1)) cs := by
      unfold Shallow at hDepth
      rcases hDepth with rfl | hDeep
      · unfold ShallowAll
        trivial
      · rw [← Nat.sub_sub]
        exact hDeep.2
    have hNodes₁ := hRead.nodes
    rw [List.length_singleton] at hNodes₁
    obtain ⟨w₂, hRest⟩ := loop_trees ctx budget way 0 (depth + 1) rest cs w₁ hRead.stack hChildren
      (by omega)
      (by rw [hRead.gathered]; exact hSpans) hFits.2
    refine ⟨w₂, hRead.loop.trans hRest.loop, hRest.stack, ?_, ?_⟩
    · rw [hRest.nodes, hNodes₁, List.length_cons]
      omega
    · rw [hRest.gathered, hRead.gathered]
      rfl

/-- The siblings on top of the stack are read, last to first. -/
theorem loop_trees (ctx : WalkContext) (budget : UiaBudget) (way : List Nat) (i depth : Nat)
    (rest : List (AxElem × Nat)) :
    ∀ (cs : List AxTree) (w : Walk AxElem),
    w.stack = ((siblings way i cs).reverse.map fun e => (e, depth)) ++ rest →
    ShallowAll (maxDepth - depth) cs →
    w.nodes + (walkOrderAll way i cs).length ≤ budget.maxNodes →
    (w.gathered.readAll ctx budget.maxTextpatternCalls (fun e => e.tree.answers)
      (walkOrderAll way i cs)).spans.length < maxSpans →
    FitsAll rest.length cs → ∃ w', Reads ctx budget w w' (walkOrderAll way i cs) rest
  | [], w, hStack, _, _, _, _ => ⟨w, rfl, hStack, rfl, rfl⟩
  | c :: cs, w, hStack, hDepth, hNodes, hSpans, hFits => by
    unfold ShallowAll at hDepth
    unfold FitsAll at hFits
    rw [walkOrderAll] at hNodes hSpans ⊢
    rw [List.length_append] at hNodes
    rw [readAll_append] at hSpans
    have hMore := readAll_spans ctx budget.maxTextpatternCalls (fun e : AxElem => e.tree.answers)
      (w.gathered.readAll ctx budget.maxTextpatternCalls (fun e => e.tree.answers)
        (walkOrderAll way (i + 1) cs)) (c.walkOrder (i :: way) cs)
    have hStack' : w.stack = ((siblings way (i + 1) cs).reverse.map fun e => (e, depth)) ++
        ((⟨i :: way, c, cs⟩, depth) :: rest) := by
      rw [hStack, siblings, List.reverse_cons, List.map_append, List.append_assoc]
      rfl
    obtain ⟨w₁, hLater⟩ := loop_trees ctx budget way (i + 1) depth
      ((⟨i :: way, c, cs⟩, depth) :: rest) cs w hStack' hDepth.2 (by omega) (by omega) hFits.1
    have hNodes₁ := hLater.nodes
    obtain ⟨w₂, hFirst⟩ := loop_tree ctx budget (i :: way) cs depth rest c w₁ hLater.stack hDepth.1
      (by omega) (by rw [hLater.gathered]; exact hSpans) hFits.2
    refine ⟨w₂, hLater.loop.trans hFirst.loop, hFirst.stack, ?_, ?_⟩
    · rw [hFirst.nodes, hNodes₁, List.length_append, Nat.add_assoc]
    · rw [hFirst.gathered, hLater.gathered, readAll_append]

end

/-- The walk of a tree within the caps reads all of its elements. -/
theorem walkLoop_tree {t : AxTree} (h : t.Within ctx budget) :
    (walkLoop provider .down ctx budget (.start t.root)).gathered =
      Gathered.empty.readAll ctx budget.maxTextpatternCalls (fun e => e.tree.answers)
        (t.walkOrder [] []) := by
  obtain ⟨w, hReads⟩ := loop_tree ctx budget [] [] 0 [] t (.start t.root) rfl
    h.depth (by rw [show (Walk.start t.root).nodes = 0 from rfl, Nat.zero_add]; exact h.nodes)
    h.spans h.stack
  rw [hReads.loop, walkLoop, hReads.stack]
  exact hReads.gathered

end AxTree

/-! ## Document order -/

/-- Where the walk goes first: an element before what is inside it, and a later sibling, with what
is inside it, before an earlier one. -/
def Before (x y : List Nat) : Prop :=
  (x <+: y ∧ x ≠ y) ∨ ∃ p i j s u, j < i ∧ x = p ++ i :: s ∧ y = p ++ j :: u

theorem lt_of_step (p : List Nat) {i j : Nat} (h : i < j) (s u : List Nat) :
    p ++ i :: s < p ++ j :: u :=
  List.append_left_lt (List.Lex.rel h)

theorem lt_of_prefix {x y : List Nat} (h : x <+: y) (hNe : x ≠ y) : x < y := by
  obtain ⟨u, rfl⟩ := h
  rcases u with _ | ⟨k, u⟩
  · exact absurd (List.append_nil x).symm hNe
  · have hLt : x ++ [] < x ++ k :: u := List.append_left_lt List.Lex.nil
    rwa [List.append_nil] at hLt

/-- Two paths in the order of the walk are in document order just where one leads to the other. -/
theorem Before.lt_iff {x y : List Nat} (h : Before x y) : x < y ↔ x <+: y ∨ y <+: x := by
  rcases h with ⟨hUnder, hNe⟩ | ⟨p, i, j, s, u, hLater, rfl, rfl⟩
  · exact ⟨fun _ => .inl hUnder, fun _ => lt_of_prefix hUnder hNe⟩
  · constructor
    · intro hLt
      exact absurd hLt (List.lt_asymm (lt_of_step p hLater u s))
    · intro hUnder
      rw [List.prefix_append_right_inj, List.prefix_append_right_inj, List.cons_prefix_cons,
        List.cons_prefix_cons] at hUnder
      rcases hUnder with hSame | hSame
      · exact absurd hSame.1 (by omega)
      · exact absurd hSame.1 (by omega)

namespace AxTree

mutual

theorem order_under (way : List Nat) (later : List AxTree) : ∀ (t : AxTree),
    ∀ e ∈ t.walkOrder way later, way.reverse <+: e.path
  | node a cs, e, he => by
    rw [walkOrder] at he
    rcases List.mem_cons.mp he with rfl | he
    · exact List.prefix_refl _
    · obtain ⟨j, s, -, hPath⟩ := orderAll_under way 0 cs e he
      exact ⟨j :: s, hPath.symm⟩

theorem orderAll_under (way : List Nat) (i : Nat) : ∀ (cs : List AxTree),
    ∀ e ∈ walkOrderAll way i cs, ∃ j s, i ≤ j ∧ e.path = way.reverse ++ j :: s
  | [], e, he => by cases he
  | c :: cs, e, he => by
    rw [walkOrderAll] at he
    rcases List.mem_append.mp he with he | he
    · obtain ⟨j, s, hj, hPath⟩ := orderAll_under way (i + 1) cs e he
      exact ⟨j, s, by omega, hPath⟩
    · obtain ⟨s, hPath⟩ := order_under (i :: way) cs c e he
      refine ⟨i, s, Nat.le_refl _, ?_⟩
      rw [← hPath, List.reverse_cons, List.append_assoc]
      rfl

end

mutual

theorem order_before (way : List Nat) (later : List AxTree) : ∀ (t : AxTree),
    ((t.walkOrder way later).map AxElem.path).Pairwise Before
  | node a cs => by
    rw [walkOrder, List.map_cons, List.pairwise_cons]
    refine ⟨?_, orderAll_before way 0 cs⟩
    intro y hy
    obtain ⟨e, he, rfl⟩ := List.mem_map.mp hy
    obtain ⟨j, s, -, hPath⟩ := orderAll_under way 0 cs e he
    refine .inl ⟨⟨j :: s, hPath.symm⟩, ?_⟩
    rw [hPath]
    exact fun hSame => List.cons_ne_nil j s (List.append_right_eq_self.mp hSame.symm)

theorem orderAll_before (way : List Nat) (i : Nat) : ∀ (cs : List AxTree),
    ((walkOrderAll way i cs).map AxElem.path).Pairwise Before
  | [] => List.Pairwise.nil
  | c :: cs => by
    rw [walkOrderAll, List.map_append, List.pairwise_append]
    refine ⟨orderAll_before way (i + 1) cs, order_before (i :: way) cs c, ?_⟩
    intro x hx y hy
    obtain ⟨e, he, rfl⟩ := List.mem_map.mp hx
    obtain ⟨f, hf, rfl⟩ := List.mem_map.mp hy
    obtain ⟨j, s, hj, hLater⟩ := orderAll_under way (i + 1) cs e he
    obtain ⟨u, hEarlier⟩ := order_under (i :: way) cs c f hf
    refine .inr ⟨way.reverse, j, i, s, u, by omega, hLater, ?_⟩
    rw [← hEarlier, List.reverse_cons, List.append_assoc]
    rfl

end

end AxTree

/-- Elements in the order of the walk are in document order just where they are nested. -/
theorem ordered_iff_nested {es : List AxElem} (h : (es.map AxElem.path).Pairwise Before) :
    (es.map AxElem.path).Pairwise (· < ·) ↔ Nested es := by
  rw [List.pairwise_map] at h ⊢
  constructor
  · intro hOrdered
    have hComparable : es.Pairwise fun e f => e.path <+: f.path ∨ f.path <+: e.path :=
      (h.and hOrdered).imp fun hPair => hPair.1.lt_iff.mp hPair.2
    exact fun e he f hf => hComparable.forall_of_forall_of_flip
      (fun e _ => .inl (List.prefix_refl _)) (hComparable.imp Or.symm) he hf
  · intro hNested
    exact h.imp_of_mem fun he hf hBefore => hBefore.lt_iff.mpr (hNested _ he _ hf)

/-- On a tree within the caps, walked without a flag, the text is in document order if and only if
of any two elements that have a text one is inside the other. -/
theorem document_order_iff (ctx : WalkContext) (budget : UiaBudget) (t : AxTree)
    (h : t.Within ctx budget) :
    InDocumentOrder (walkLoop AxTree.provider .down ctx budget (.start t.root)).gathered ↔
      Nested (withText ctx budget.maxTextpatternCalls (fun e => e.tree.answers) 0
        (t.walkOrder [] [])) := by
  rw [AxTree.walkLoop_tree h]
  have hTranscript := readAll_transcript ctx empty_transcript budget.maxTextpatternCalls
    (fun e : AxElem => e.tree.answers) (t.walkOrder [] [])
  have hEmitted := readAll_emitted ctx budget.maxTextpatternCalls (fun e : AxElem => e.tree.answers)
    .empty (t.walkOrder [] [])
  have hPaths := congrArg (List.map AxElem.path) hEmitted
  rw [List.map_map] at hPaths
  have hBefore : ((withText ctx budget.maxTextpatternCalls (fun e : AxElem => e.tree.answers) 0
      (t.walkOrder [] [])).map AxElem.path).Pairwise Before :=
    (t.order_before [] []).sublist ((withText_sublist ..).map _)
  rw [← ordered_iff_nested hBefore]
  constructor
  · intro hOrder
    have hOrdered := hOrder.ordered
    exact hPaths ▸ hOrdered
  · intro hOrdered
    exact ⟨hTranscript, hPaths ▸ hOrdered⟩

/-- A label. -/
def label (name : String) : AxTree :=
  .node ⟨some ⟨some 50000, some false, some false, some ⟨10, 10, 20, 20⟩, some name⟩, none, none⟩ []

/-- A window with two labels in it. -/
def twoLabels : AxTree :=
  .node ⟨some ⟨some 50032, some false, some false, some ⟨0, 0, 100, 100⟩, some "window"⟩, none, none⟩
    [label "first", label "second"]

def wholeScreen : WalkContext where
  targetRect := (0, 0, 1, 1)
  monOrigin := (0, 0)
  frameSize := (100, 100)
  toLowercase := id

def smallBudget : UiaBudget where
  latencyMs := 300
  minTextChars := 1
  maxNodes := 100
  maxTextpatternCalls := 4
  controlView := true

theorem twoLabels_within : twoLabels.Within wholeScreen smallBudget where
  depth := by simp [twoLabels, label, AxTree.Shallow, AxTree.ShallowAll, maxDepth]
  nodes := by decide
  spans := by decide +kernel
  stack := by simp [twoLabels, label, AxTree.Fits, AxTree.FitsAll, maxStack]

theorem document_order_iff_twoLabels : twoLabels.Within wholeScreen smallBudget ∧
    (InDocumentOrder
        (walkLoop AxTree.provider .down wholeScreen smallBudget (.start twoLabels.root)).gathered ↔
      Nested (withText wholeScreen 4 (fun e => e.tree.answers) 0 (twoLabels.walkOrder [] []))) :=
  ⟨twoLabels_within, document_order_iff wholeScreen smallBudget twoLabels twoLabels_within⟩

def twoLabelsForeground : Foreground AxElem where
  hwnd := some 1
  iconic := false
  className := none
  root := .ok twoLabels.root
  automation := .ok ()
  monitorOrigin := none

def wholeScreenRequest : WalkRequest where
  width := 100
  height := 100
  targetRect := some (0, 0, 1, 1)
  foregroundHwnd := none

/-- The label that stands first is read last. -/
theorem siblings_reversed : twoLabels.Within wholeScreen smallBudget ∧
    (readForeground AxTree.provider twoLabelsForeground .down id wholeScreenRequest
      smallBudget).map OcrResult.text = .ok "second\nfirst" ∧
    ¬ InDocumentOrder
      (walkLoop AxTree.provider .down wholeScreen smallBudget (.start twoLabels.root)).gathered := by
  have hWalk := AxTree.walkLoop_tree twoLabels_within
  have hText : (walkLoop AxTree.provider .down wholeScreen smallBudget
      (.start twoLabels.root)).gathered.text = "second\nfirst\n" := by
    rw [hWalk]
    decide +kernel
  refine ⟨twoLabels_within, ?_, ?_⟩
  · unfold readForeground
    show Except.map OcrResult.text (if (Text.trimEnd (walkLoop AxTree.provider .down wholeScreen
      smallBudget (.start twoLabels.root)).gathered.text).length < 1 then _ else _) = _
    rw [hText, if_neg (by decide)]
    show Except.ok (Text.trimEnd (walkLoop AxTree.provider .down wholeScreen smallBudget
      (.start twoLabels.root)).gathered.text) = _
    rw [hText]
    decide
  · intro hOrder
    have hOrdered := hOrder.ordered
    rw [hWalk] at hOrdered
    revert hOrdered
    decide +kernel

end ScreenSearch.Uia
