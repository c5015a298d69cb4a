import Mathlib.Data.List.Chain
import ScreenSearch.Uia.Walk

/-!
# The walk is bounded, private and consistent

Whatever the other process answers, and whenever a flag is raised, the walk ends within its caps
and reads nothing live of what is not to be read. The text and the spans of its result are
gathered side by side, and carry the same words.

Main results:

* `splitWords_spec` — the words of a text, on lines without gaps;
* `read_gathered` — one element keeps text and spans together;
* `walkLoop_kept` — the loop keeps what a visit keeps;
* `walk_law` — the walk and its result, for every provider, budget and flags.
-/

namespace ScreenSearch.Uia

open Capture (UiaBudget)

/-! ## Line numbers -/

/-- Line numbers from `first` on, each line with a word, and the next free number. -/
structure Numbered (first : Nat) (lines : List Nat) (next : Nat) : Prop where
  starts : ∀ line ∈ lines.head?, line = first
  steps : lines.IsChain fun a b => b = a ∨ b = a + 1
  ends : next = (lines.getLast?.map (· + 1)).getD first

variable {first next last : Nat} {lines more : List Nat}

theorem numbered_nil (first : Nat) : Numbered first [] first where
  starts := fun _ h => by cases h
  steps := List.isChain_nil
  ends := rfl

theorem Numbered.append (h : Numbered first lines next) (hMore : Numbered next more last) :
    Numbered first (lines ++ more) last := by
  rcases lines with _ | ⟨a, lines⟩
  · obtain rfl : next = first := h.ends
    exact hMore
  rcases more with _ | ⟨b, more⟩
  · obtain rfl : last = next := hMore.ends
    rw [List.append_nil]
    exact h
  refine ⟨h.starts, ?_, ?_⟩
  · rw [List.isChain_append]
    refine ⟨h.steps, hMore.steps, ?_⟩
    intro x hx y hy
    have hNext := h.ends
    rw [Option.mem_def.mp hx] at hNext
    have hFirst := hMore.starts y hy
    exact .inr (hFirst.trans hNext)
  · rw [hMore.ends, List.getLast?_append_cons]
    rfl

/-- One line with some words. -/
theorem numbered_line {words : List String} (hWords : words ≠ []) (line : Nat) :
    Numbered line (words.map fun _ => line) (line + 1) := by
  rw [List.map_const']
  refine ⟨?_, ?_, ?_⟩
  · intro l hl
    exact List.eq_of_mem_replicate (List.mem_of_mem_head? hl)
  · exact List.isChain_replicate_of_rel _ (.inl rfl)
  · have hLength : words.length ≠ 0 := fun hZero => hWords (List.length_eq_zero_iff.mp hZero)
    rw [List.getLast?_replicate, if_neg hLength]
    rfl

/-- The words of a text, each on the line that it stands on. -/
theorem splitWords_spec (text : String) (first : Nat) :
    (splitWords text first).1.map Prod.snd = Text.splitWhitespace text ∧
    Numbered first ((splitWords text first).1.map Prod.fst) (splitWords text first).2 := by
  have hFold : ∀ (rawLines : List String) (acc : List (Nat × String) × Nat),
      Numbered first (acc.1.map Prod.fst) acc.2 →
      (rawLines.foldl splitLine acc).1.map Prod.snd =
        acc.1.map Prod.snd ++ rawLines.flatMap Text.splitWhitespace ∧
      Numbered first ((rawLines.foldl splitLine acc).1.map Prod.fst)
        (rawLines.foldl splitLine acc).2 := by
    intro rawLines
    induction rawLines with
    | nil => exact fun acc h => ⟨(List.append_nil _).symm, h⟩
    | cons rawLine rawLines ih =>
      intro acc h
      have hNext : Numbered first ((splitLine acc rawLine).1.map Prod.fst)
          (splitLine acc rawLine).2 := by
        unfold splitLine
        dsimp only
        rw [List.map_append, List.map_map]
        refine h.append ?_
        rcases Text.splitWhitespace rawLine with _ | ⟨word, words⟩
        · exact numbered_nil acc.2
        · exact numbered_line (List.cons_ne_nil word words) acc.2
      obtain ⟨hTexts, hLines⟩ := ih _ hNext
      refine ⟨?_, hLines⟩
      rw [List.foldl_cons, hTexts, splitLine, List.map_append, List.map_map, List.flatMap_cons,
        List.append_assoc]
      congr 2
      exact List.map_id _
  obtain ⟨hTexts, hLines⟩ := hFold (Text.split '\n' text) ([], first) (numbered_nil first)
  refine ⟨?_, hLines⟩
  rw [← Text.splitWhitespace_split (by decide : Text.isWhitespace '\n' = true)]
  exact hTexts

/-- A line was begun just where there are words. -/
theorem Numbered.next_gt (h : Numbered first lines next) : next > first ↔ lines ≠ [] := by
  constructor
  · rintro hGt rfl
    rw [h.ends] at hGt
    exact Nat.lt_irrefl _ hGt
  · intro hSome
    have hEnds := h.ends
    have hFirst : ∀ l ∈ lines, first ≤ l := by
      have hChain := h.steps
      rcases lines with _ | ⟨a, rest⟩
      · exact absurd rfl hSome
      · obtain rfl := h.starts a rfl
        intro l hl
        have hSorted : (a :: rest).IsChain (· ≤ ·) :=
          hChain.imp fun x y hxy => by rcases hxy with rfl | rfl <;> omega
        rcases List.mem_cons.mp hl with rfl | hl
        · exact Nat.le_refl _
        · exact (List.pairwise_cons.mp hSorted.pairwise).1 l hl
    obtain ⟨l, hl⟩ := Option.ne_none_iff_exists'.mp (mt List.getLast?_eq_none_iff.mp hSome)
    rw [hl] at hEnds
    have := hFirst l (List.mem_of_getLast? hl)
    simp only [Option.map_some, Option.getD_some] at hEnds
    omega

/-! ## What is gathered -/

variable {Elem : Type} {ctx : WalkContext} {g : Gathered Elem}

/-- The text and the spans carry the same words. -/
structure Gathered.Kept (ctx : WalkContext) (g : Gathered Elem) : Prop where
  words : g.spans.map TextSpan.text = Text.splitWhitespace g.text
  ended : g.text = "" ∨ ∃ t c, g.text.toList = t ++ [c] ∧ Text.isWhitespace c = true
  lines : Numbered 0 (g.spans.map TextSpan.lineIndex) g.lineIndex
  inside : ∀ s ∈ g.spans, withinTarget ctx.targetRect s.x s.y s.w s.h = true

theorem empty_gathered (ctx : WalkContext) : (Gathered.empty : Gathered Elem).Kept ctx where
  words := rfl
  ended := .inl rfl
  lines := numbered_nil 0
  inside := fun _ h => by cases h

theorem emit_gathered (h : g.Kept ctx) (elem : Elem) (trimmed : String) {box : Box}
    (hInside : withinTarget ctx.targetRect box.1 box.2.1 box.2.2.1 box.2.2.2 = true) :
    (g.emit ctx elem trimmed box).Kept ctx := by
  obtain ⟨hTexts, hLines⟩ := splitWords_spec trimmed g.lineIndex
  have hGt := hLines.next_gt
  unfold Gathered.emit
  generalize splitWords trimmed g.lineIndex = split at hTexts hLines hGt ⊢
  obtain ⟨words, next⟩ := split
  dsimp only at hTexts hLines hGt ⊢
  have hSpanTexts : (words.map (Gathered.span ctx box)).map TextSpan.text = words.map Prod.snd := by
    rw [List.map_map]
    rfl
  have hSpanLines : (words.map (Gathered.span ctx box)).map TextSpan.lineIndex =
      words.map Prod.fst := by
    rw [List.map_map]
    rfl
  have hAll : ∀ s ∈ g.spans ++ words.map (Gathered.span ctx box),
      withinTarget ctx.targetRect s.x s.y s.w s.h = true := by
    intro s hs
    rcases List.mem_append.mp hs with hOld | hNew
    · exact h.inside s hOld
    · obtain ⟨word, -, rfl⟩ := List.mem_map.mp hNew
      exact hInside
  split
  · refine ⟨?_, .inr ⟨(g.text ++ trimmed).toList, '\n', String.toList_append, by decide⟩, ?_, hAll⟩
    · rw [List.map_append, hSpanTexts, hTexts, h.words, String.append_assoc,
        Text.splitWhitespace_append h.ended]
      congr 1
      rw [show trimmed ++ "\n" = String.ofList (trimmed.toList ++ ['\n']) by
        rw [String.ofList_append, String.ofList_toList],
        Text.splitWhitespace_append_blank (by decide), String.ofList_toList]
    · rw [List.map_append, hSpanLines]
      exact h.lines.append hLines
  · next hNone =>
    -- no line was begun, so there is no word
    obtain rfl : words = [] := by
      have hEmpty : words.map Prod.fst = [] := by
        by_contra hSome
        exact hNone (hGt.mpr hSome)
      exact List.map_eq_nil_iff.mp hEmpty
    rw [List.map_nil, List.append_nil]
    exact h

theorem emission_inside {c : CachedElement} {raw : Option String} {trimmed : String} {box : Box}
    (h : emission ctx c raw = some (trimmed, box)) :
    withinTarget ctx.targetRect box.1 box.2.1 box.2.2.1 box.2.2.2 = true := by
  unfold emission at h
  obtain ⟨text, -, h⟩ := Option.bind_eq_some_iff.mp h
  dsimp only at h
  split at h
  · next hBoth =>
    obtain ⟨-, rfl⟩ := Prod.mk.inj (Option.some.inj h)
    exact (Bool.and_eq_true_iff.mp hBoth).2
  · cases h

/-- One element keeps the text and the spans together. -/
theorem read_gathered (h : g.Kept ctx) (maxTextpatternCalls : Nat) (elem : Elem) (a : Answers) :
    (g.read ctx maxTextpatternCalls elem a).1.Kept ctx := by
  have hProbe : ∀ allow : Bool, (g.probe allow).Kept ctx := by
    intro allow
    obtain ⟨hWords, hEnded, hLines, hInside⟩ := h
    constructor <;> simp only [Gathered.probe_spans, Gathered.probe_text, Gathered.probe_lineIndex] <;>
      assumption
  rcases g.read_cases ctx maxTextpatternCalls elem a with
    ⟨-, hRead⟩ | ⟨c, -, -, ⟨-, hRead⟩ | ⟨trimmed, box, hEmission, hRead⟩⟩ <;> rw [hRead]
  · exact h
  · exact hProbe _
  · exact emit_gathered (hProbe _) elem trimmed (emission_inside hEmission)

/-- The probes of an element are counted, and stay within the cap. -/
theorem read_probes (ctx : WalkContext) (maxTextpatternCalls : Nat) (elem : Elem) (a : Answers)
    (g : Gathered Elem) :
    (g.read ctx maxTextpatternCalls elem a).1.textpatternCalls =
      g.textpatternCalls + (g.read ctx maxTextpatternCalls elem a).2.count .textPattern ∧
    (g.textpatternCalls ≤ maxTextpatternCalls →
      (g.read ctx maxTextpatternCalls elem a).1.textpatternCalls ≤ maxTextpatternCalls) := by
  have hReads : ∀ (c : CachedElement) (allow : Bool),
      (extractText c a allow).1.count .textPattern = if allow then 1 else 0 := by
    intro c allow
    unfold extractText
    dsimp only
    split
    · rcases allow with _ | _ <;> rfl
    · split <;> rcases allow with _ | _ <;> rfl
  have hAllowed : ∀ c : CachedElement, g.textpatternCalls ≤ maxTextpatternCalls →
      g.textpatternCalls + (if g.allows maxTextpatternCalls c then 1 else 0) ≤
        maxTextpatternCalls := by
    intro c hCap
    split
    · next hAllow =>
      unfold Gathered.allows at hAllow
      rw [Bool.and_eq_true, decide_eq_true_eq] at hAllow
      exact hAllow.2
    · exact hCap
  rcases g.read_cases ctx maxTextpatternCalls elem a with
    ⟨-, hRead⟩ | ⟨c, -, -, ⟨-, hRead⟩ | ⟨trimmed, box, -, hRead⟩⟩ <;> rw [hRead]
  · exact ⟨rfl, id⟩
  · rw [hReads, Gathered.probe_textpatternCalls]
    exact ⟨rfl, hAllowed c⟩
  · rw [hReads, Gathered.emit_textpatternCalls, Gathered.probe_textpatternCalls]
    exact ⟨rfl, hAllowed c⟩

/-- Something is read live only of an element that may be read. -/
theorem read_readable {maxTextpatternCalls : Nat} {elem : Elem} {a : Answers}
    (h : (g.read ctx maxTextpatternCalls elem a).2 ≠ []) :
    ∃ c, a.cached = some c ∧ c.readable = true := by
  rcases g.read_cases ctx maxTextpatternCalls elem a with
    ⟨-, hRead⟩ | ⟨c, hCached, hReadable, -⟩
  · rw [hRead] at h
    exact absurd rfl h
  · exact ⟨c, hCached, hReadable⟩

/-! ## The loops -/

variable {p : Provider Elem} {flags : Flags} {budget : UiaBudget} {w : Walk Elem}

/-- The siblings of an element fill the stack at most. -/
theorem pushSiblings_checks (p : Provider Elem) (flags : Flags) (depth : Nat) (child : Elem)
    (stack : List (Elem × Nat)) (checks : Nat) :
    checks ≤ (pushSiblings p flags depth child stack checks).2 ∧
    (pushSiblings p flags depth child stack checks).2 ≤ checks + (maxStack - stack.length) + 1 := by
  induction hRoom : maxStack - stack.length generalizing child stack checks with
  | zero =>
    rw [pushSiblings, if_pos (by omega)]
    exact ⟨Nat.le_refl _, by omega⟩
  | succ room ih =>
    rw [pushSiblings, if_neg (by omega)]
    split
    · exact ⟨by omega, by omega⟩
    · split
      · next sibling _ =>
        have hRest := ih sibling ((child, depth) :: stack) (checks + 1)
          (by rw [List.length_cons]; omega)
        omega
      · exact ⟨by omega, by omega⟩

theorem visit_checks (w : Walk Elem) (elem : Elem) (depth : Nat) (rest : List (Elem × Nat)) :
    w.checks < (w.visit p flags ctx budget elem depth rest).checks ∧
    (w.visit p flags ctx budget elem depth rest).checks ≤ w.checks + (maxStack + 2) := by
  unfold Walk.visit
  dsimp only
  split
  · split
    · next first _ =>
      have hPushed := pushSiblings_checks p flags (depth + 1) first rest (w.checks + 1)
      omega
    · dsimp only
      omega
  · dsimp only
    omega

/-- What the visits so far have kept. -/
structure Walk.Kept (p : Provider Elem) (flags : Flags) (ctx : WalkContext) (budget : UiaBudget)
    (w : Walk Elem) : Prop where
  gathered : w.gathered.Kept ctx
  counted : w.visits.length = w.nodes
  nodes : w.nodes ≤ budget.maxNodes
  checks : w.checks ≤ w.nodes * (maxStack + 2)
  before : ∀ v ∈ w.visits, v.check < w.checks ∧ flags.raised v.check = false
  probes : (w.visits.flatMap Visit.reads).count .textPattern = w.gathered.textpatternCalls
  capped : w.gathered.textpatternCalls ≤ budget.maxTextpatternCalls
  hidden : ∀ v ∈ w.visits, v.reads ≠ [] →
    ∃ c, (p.answers v.check v.elem).cached = some c ∧ c.readable = true

theorem visit_kept (h : w.Kept p flags ctx budget) (hNodes : w.nodes < budget.maxNodes)
    (hDown : flags.raised w.checks = false) (elem : Elem) (depth : Nat)
    (rest : List (Elem × Nat)) : (w.visit p flags ctx budget elem depth rest).Kept p flags ctx budget := by
  obtain ⟨hGathered, hCounted, -, hChecks, hBefore, hProbes, hCapped, hHidden⟩ := h
  obtain ⟨hLater, hFew⟩ := @visit_checks _ ctx p flags budget w elem depth rest
  obtain ⟨hCalls, hCap⟩ := read_probes ctx budget.maxTextpatternCalls elem (p.answers w.checks elem)
    w.gathered
  refine ⟨read_gathered hGathered _ elem _, ?_, hNodes, ?_, ?_, ?_, hCap hCapped, ?_⟩
  · exact congrArg (· + 1) hCounted
  · show (w.visit p flags ctx budget elem depth rest).checks ≤ (w.nodes + 1) * (maxStack + 2)
    rw [Nat.add_mul, Nat.one_mul]
    omega
  · intro v hv
    rcases List.mem_cons.mp hv with rfl | hv
    · exact ⟨hLater, hDown⟩
    · obtain ⟨hOld, hStill⟩ := hBefore v hv
      exact ⟨Nat.lt_trans hOld hLater, hStill⟩
  · show ((Visit.reads _ ++ w.visits.flatMap Visit.reads).count .textPattern) = _
    rw [List.count_append, hProbes, Nat.add_comm]
    exact hCalls.symm
  · intro v hv hReads
    rcases List.mem_cons.mp hv with rfl | hv
    · exact read_readable hReads
    · exact hHidden v hv hReads

theorem stack_kept (h : w.Kept p flags ctx budget) (stack : List (Elem × Nat)) :
    ({ w with stack := stack } : Walk Elem).Kept p flags ctx budget :=
  ⟨h.gathered, h.counted, h.nodes, h.checks, h.before, h.probes, h.capped, h.hidden⟩

theorem walkLoop_kept (h : w.Kept p flags ctx budget) :
    (walkLoop p flags ctx budget w).Kept p flags ctx budget := by
  induction hRoom : budget.maxNodes - w.nodes generalizing w with
  | zero =>
    rw [walkLoop]
    split
    · exact h
    · rw [if_pos (.inl (by omega))]
      exact stack_kept h _
  | succ room ih =>
    rw [walkLoop]
    split
    · exact h
    · next elem depth rest _ =>
      split
      · exact stack_kept h _
      · next hGo =>
        have hDown : flags.raised w.checks = false := by
          by_contra hUp
          exact hGo (.inr (.inr (Bool.eq_true_of_not_eq_false hUp)))
        refine ih (visit_kept h (by omega) hDown elem depth rest) ?_
        show budget.maxNodes - (w.nodes + 1) = room
        omega

theorem start_kept (root : Elem) : (Walk.start root).Kept p flags ctx budget where
  gathered := empty_gathered ctx
  counted := rfl
  nodes := Nat.zero_le _
  checks := Nat.zero_le _
  before := fun _ hv => by cases hv
  probes := rfl
  capped := Nat.zero_le _
  hidden := fun _ hv => by cases hv

/-! ## The law -/

theorem Flags.raised_mono {s t : Nat} (hLe : s ≤ t) (h : flags.raised s = true) :
    flags.raised t = true := by
  have hFlag : ∀ flag : Option Nat, flag.any (fun u => decide (u ≤ s)) = true →
      flag.any (fun u => decide (u ≤ t)) = true := by
    intro flag hSome
    rcases flag with _ | u
    · cases hSome
    · simp only [Option.any_some, decide_eq_true_eq] at hSome ⊢
      omega
  unfold Flags.raised at h ⊢
  simp only [Bool.or_eq_true] at h ⊢
  rcases h with (h | h) | h
  · exact .inl (.inl (hFlag _ h))
  · exact .inl (.inr (hFlag _ h))
  · exact .inr (hFlag _ h)

/-- The walk as it ends. -/
structure WalkLaw (p : Provider Elem) (flags : Flags) (budget : UiaBudget) (w : Walk Elem) :
    Prop where
  /-- It ends, after so many checks. -/
  ends : w.checks ≤ budget.maxNodes * (maxStack + 2)
  nodes : w.visits.length ≤ budget.maxNodes
  /-- No visit after a check at which a flag is raised. -/
  stops : ∀ v ∈ w.visits, ∀ check, flags.raised check = true → v.check < check
  probes : (w.visits.flatMap Visit.reads).count .textPattern ≤ budget.maxTextpatternCalls
  /-- Nothing is read live of what says that it is a password, offscreen or a container. -/
  hidden : ∀ v ∈ w.visits, v.reads ≠ [] → ∃ c, (p.answers v.check v.elem).cached = some c ∧
    c.isPassword ≠ some true ∧ c.isOffscreen ≠ some true ∧ isContainer (c.controlType.getD 0) = false

/-- A result, of a window with this rectangle. -/
structure ResultLaw (targetRect : Box) (result : OcrResult) : Prop where
  words : result.spans.map TextSpan.text = Text.splitWhitespace result.text
  starts : ∀ s ∈ result.spans.head?, s.lineIndex = 0
  /-- Line numbers never decrease, and none is skipped. -/
  steps : (result.spans.map TextSpan.lineIndex).IsChain fun a b => b = a ∨ b = a + 1
  inside : ∀ s ∈ result.spans, withinTarget targetRect s.x s.y s.w s.h = true

theorem law_of_kept (h : w.Kept p flags ctx budget) : WalkLaw p flags budget w where
  ends := Nat.le_trans h.checks (Nat.mul_le_mul_right _ h.nodes)
  nodes := h.counted ▸ h.nodes
  stops := by
    intro v hv check hRaised
    by_contra hLe
    have hUp := Flags.raised_mono (Nat.le_of_not_lt hLe) hRaised
    rw [(h.before v hv).2] at hUp
    exact Bool.false_ne_true hUp
  probes := h.probes ▸ h.capped
  hidden := by
    intro v hv hReads
    obtain ⟨c, hCached, hReadable⟩ := h.hidden v hv hReads
    unfold CachedElement.readable shouldEmit at hReadable
    simp only [Bool.and_eq_true, Bool.not_eq_true'] at hReadable
    obtain ⟨⟨hPassword, hOffscreen⟩, hContainer⟩ := hReadable
    refine ⟨c, hCached, ?_, ?_, hContainer⟩
    · intro hSome
      rw [hSome] at hPassword
      cases hPassword
    · intro hSome
      rw [hSome] at hOffscreen
      cases hOffscreen

theorem result_of_kept (h : g.Kept ctx) :
    ResultLaw ctx.targetRect { text := Text.trimEnd g.text, engine := "uia", spans := g.spans } where
  words := by rw [Text.splitWhitespace_trimEnd]; exact h.words
  starts := by
    intro s hs
    refine h.lines.starts s.lineIndex ?_
    rw [List.head?_map]
    exact Option.mem_map_of_mem _ hs
  steps := h.lines.steps
  inside := h.inside

/-- What a recognition returns is what a walk in the window's rectangle gathered. -/
theorem readForeground_ok {fg : Foreground Elem} {toLowercase : String → String} {req : WalkRequest}
    {result : OcrResult} (h : readForeground p fg flags toLowercase req budget = .ok result) :
    ∃ targetRect root, req.targetRect = some targetRect ∧ fg.root = .ok root ∧
      result =
        let gathered := (walkLoop p flags (fg.context toLowercase req targetRect) budget
          (.start root)).gathered
        { text := Text.trimEnd gathered.text, engine := "uia", spans := gathered.spans } := by
  unfold readForeground at h
  rcases hRect : req.targetRect with _ | targetRect
  · rw [hRect] at h
    cases h
  rcases hHwnd : fg.hwnd with _ | hwnd
  · rw [hRect, hHwnd] at h
    cases h
  rw [hRect, hHwnd] at h
  dsimp only at h
  split at h
  · cases h
  split at h
  · cases h
  split at h
  · cases h
  rcases hRoot : fg.root with message | root
  · rw [hRoot] at h
    cases h
  rcases hAutomation : fg.automation with message | _
  · rw [hRoot, hAutomation] at h
    cases h
  rw [hRoot, hAutomation] at h
  replace h : (if _ then _ else _) = Except.ok result := h
  split at h
  · cases h
  · exact ⟨targetRect, root, rfl, rfl, (Except.ok.inj h).symm⟩

/-- For every provider, budget and moment at which a flag is raised: the walk is bounded and
private, and a result is consistent. -/
theorem walk_law (p : Provider Elem) (fg : Foreground Elem) (flags : Flags)
    (toLowercase : String → String) (req : WalkRequest) (budget : UiaBudget) :
    (∀ ctx root, WalkLaw p flags budget (walkLoop p flags ctx budget (.start root))) ∧
    ∀ result, readForeground p fg flags toLowercase req budget = .ok result →
      ∃ targetRect, req.targetRect = some targetRect ∧ ResultLaw targetRect result := by
  constructor
  · intro ctx root
    exact law_of_kept (walkLoop_kept (@start_kept _ ctx p flags budget root))
  · intro result hOk
    obtain ⟨targetRect, root, hRect, -, rfl⟩ := readForeground_ok hOk
    have hKept := walkLoop_kept
      (@start_kept _ (fg.context toLowercase req targetRect) p flags budget root)
    exact ⟨targetRect, hRect, result_of_kept hKept.gathered⟩

end ScreenSearch.Uia
