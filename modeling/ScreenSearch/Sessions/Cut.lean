import Mathlib.Data.List.Flatten
import ScreenSearch.Sessions.Bands
import ScreenSearch.Sessions.Simulation

/-!
# Segmenting on both sides of a cut

Micro spans that stand apart by more than the meeting gap and at least the merge
gap are segmented independently: what the walk still holds of the first part is
only closed by the second.

Main results:

* `rawDrafts_append` — before sorting, the drafts of the whole are those of the
  parts;
* `arrange_append` — sorting and trimming do not reach across the cut;
* `arrange_rawDrafts_append` — the segmentation of the whole is that of the parts,
  one after the other, but for which drafts are still open.
-/

namespace ScreenSearch.Sessions

open Assoc Sorting

/-! ## The walk across a cut -/

theorem buildBands_atNow (order : HashOrder) (micros : List MicroSpan)
    (params : SegmentationParams) (now : Int) :
    buildBands order micros (atNow params now) = buildBands order micros params := rfl

theorem bandDrafts_facts (params : SegmentationParams) (now : Int) (bands : List Band) :
    (bands.map (bandDraft (atNow params now))).map draftFacts =
      (bands.map (bandDraft params)).map draftFacts := by
  rw [List.map_map, List.map_map]
  rfl

variable {order order₁ order₂ : HashOrder} {params : SegmentationParams} {now now₁ now₂ : Int}

theorem flushPending_of_pending_nil {rampStart : Option Int} {w : Walk} (h : w.pending = []) :
    (flushPending order params rampStart w).2 = w := by
  obtain ⟨t, pending⟩ := w
  subst h
  rfl

/-- A span that comes a merge gap after everything pending finds the pending
spans flushed already. -/
theorem walkSpan_flushed {w : Walk} {span : MicroSpan}
    (h : ∀ last ∈ w.pending, params.mergeGapMs ≤ span.firstTs - last.lastTs) :
    walkSpan order params (flushPending order params none w).2 span =
      walkSpan order params w span := by
  have hflushed : flushStale order params (flushPending order params none w).2 span =
      (flushPending order params none w).2 := by
    rw [flushStale]
    split
    · exact flushPending_of_pending_nil rfl
    · rfl
  have hstale : flushStale order params w span = (flushPending order params none w).2 := by
    rw [flushStale]
    split
    · rfl
    · rename_i hnot
      cases hlast : w.pending.getLast? with
      | none => rw [flushPending_of_pending_nil (List.getLast?_eq_none_iff.mp hlast)]
      | some last =>
        have := h last (List.mem_of_getLast? hlast)
        simp [hlast, this] at hnot
  rw [walkSpan, walkSpan, hflushed, hstale]

theorem finishWalk_flushed (w : Walk) :
    finishWalk order params (flushPending order params none w).2 = finishWalk order params w := by
  rw [finishWalk, finishWalk]
  rw [flushPending_of_pending_nil (w := (flushPending order params none w).2) rfl]

/-- A finished walk may flush before it goes on over later spans. -/
theorem finishWalk_foldl_flushed {w : Walk} {spans : List MicroSpan}
    (h : ∀ last ∈ w.pending, ∀ span ∈ spans, params.mergeGapMs ≤ span.firstTs - last.lastTs) :
    finishWalk order params (spans.foldl (walkSpan order params) w) =
      finishWalk order params
        (spans.foldl (walkSpan order params) (flushPending order params none w).2) := by
  cases spans with
  | nil => exact (finishWalk_flushed w).symm
  | cons span spans =>
    rw [List.foldl_cons, List.foldl_cons,
      walkSpan_flushed fun last hlast => h last hlast span (List.mem_cons_self ..)]

theorem exists_low (micros : List MicroSpan) : ∃ low, ∀ span ∈ micros, low ≤ span.firstTs := by
  induction micros with
  | nil => exact ⟨0, by simp⟩
  | cons span micros ih =>
    obtain ⟨low, hlow⟩ := ih
    refine ⟨min low span.firstTs, fun other hother => ?_⟩
    rcases List.mem_cons.mp hother with rfl | hin
    · exact min_le_right _ _
    · exact (min_le_left _ _).trans (hlow other hin)

/-- The walk over both parts returns the drafts of a walk over the first and of
a fresh walk over the second. -/
theorem finishWalk_append {lo hi : Int} {spans later : List MicroSpan}
    (hmerge : params.mergeGapMs ≤ hi - lo)
    (hspans : ∀ span ∈ spans, span.Proper ∧ span.lastTs ≤ lo)
    (hlater : ∀ span ∈ later, hi ≤ span.firstTs) (out out₁ out₂ : List SessionDraft)
    (hout : ∀ d, (out.map draftFacts).count d =
      (out₁.map draftFacts).count d + (out₂.map draftFacts).count d) (d : SessionDraft) :
    ((finishWalk order (atNow params now) ((spans ++ later).foldl
        (walkSpan order (atNow params now)) { Walk.initial with out := out })).map
          draftFacts).count d =
      ((finishWalk order₁ (atNow params now₁) (spans.foldl
        (walkSpan order₁ (atNow params now₁)) { Walk.initial with out := out₁ })).map
          draftFacts).count d +
      ((finishWalk order₂ (atNow params now₂) (later.foldl
        (walkSpan order₂ (atNow params now₂)) { Walk.initial with out := out₂ })).map
          draftFacts).count d := by
  obtain ⟨low, hlow⟩ := exists_low spans
  -- over the first part, the drafts of the second only wait
  have hfirst : WalkSim params low d ((out₂.map draftFacts).count d)
      (spans.foldl (walkSpan order (atNow params now)) { Walk.initial with out := out })
      (spans.foldl (walkSpan order₁ (atNow params now₁)) { Walk.initial with out := out₁ }) := by
    refine walk_sim hlow ⟨⟨?_, ?_, ?_, ?_, ?_⟩, rfl, by simp [Walk.initial]⟩
    · simp [Walk.initial]
    · simp [Walk.initial]
    · simp [Walk.initial]
    · simp [Walk.initial]
    · simp only [Tracks.facts, Walk.initial, weight_empty, Option.map_none, Option.getD_none,
        hout d]
      omega
  have hkeeps : Walk.Keeps order (atNow params now) (MicroSpan.Within low lo)
      (OpenTrack.Within low lo) out
      (spans.foldl (walkSpan order (atNow params now)) { Walk.initial with out := out }) :=
    walk_keeps (boundedRule low lo) (initial_keeps out) fun span hspan =>
      ⟨hlow span hspan, (hspans span hspan).1.ordered, (hspans span hspan).2,
        (hspans span hspan).1.frames⟩
  rw [List.foldl_append]
  generalize spans.foldl (walkSpan order (atNow params now))
    { Walk.initial with out := out } = s at hfirst hkeeps ⊢
  have hcount := finishWalk_sim order order₁ now now₁ hfirst
  rw [finishWalk_foldl_flushed fun last hlast span hspan => by
    have h1 := (hkeeps.pending last hlast).high
    have h2 := hlater span hspan
    dsimp only
    omega]
  have hflush := (flushPending_keeps (boundedRule low lo) none hkeeps).1.toTracks
  -- over the second part, what the first has left is old
  have hsecond : WalkSim params hi d
      ((finishWalk order₁ (atNow params now₁) (spans.foldl
        (walkSpan order₁ (atNow params now₁)) { Walk.initial with out := out₁ })).map
          draftFacts |>.count d)
      (flushPending order (atNow params now) none s).2 { Walk.initial with out := out₂ } := by
    refine ⟨⟨?_, ?_, ?_, ?_, ?_⟩, rfl, by simp [Walk.initial]⟩
    · simp [Walk.initial]
    · intro id track hlookup _
      have := (hflush.tracks id track hlookup).high
      omega
    · simp [Walk.initial]
    · intro track hfocus _
      have := (hflush.focus track hfocus).high
      omega
    · rw [← finishWalk_facts, hcount]
      simp only [Tracks.facts, Walk.initial, weight_empty, Option.map_none, Option.getD_none]
      omega
  exact finishWalk_sim _ _ _ _ (walk_sim hlater hsecond)

/-- Before sorting, the drafts of the whole are those of the parts. -/
theorem rawDrafts_append (order order₁ order₂ : HashOrder) (now now₁ now₂ : Int) {lo hi : Int}
    {micros later : List MicroSpan}
    (hapart : Apart params lo hi micros later) (hmerge : params.mergeGapMs ≤ hi - lo)
    (hproper : ∀ span ∈ micros, span.Proper) (d : SessionDraft) :
    ((rawDrafts order (micros ++ later) (atNow params now)).map draftFacts).count d =
      ((rawDrafts order₁ micros (atNow params now₁)).map draftFacts).count d +
        ((rawDrafts order₂ later (atNow params now₂)).map draftFacts).count d := by
  rw [rawDrafts, rawDrafts, rawDrafts]
  simp only [buildBands_atNow]
  rw [freeSpans_append hapart, buildBands_append hapart, buildBands_order order order₁ micros,
    buildBands_order order order₂ later]
  refine finishWalk_append hmerge ?_ ?_ _ _ _ (fun d => ?_) d
  · intro span hspan
    have hmem := List.mem_of_mem_filter hspan
    exact ⟨hproper span hmem, (hapart.before span hmem).2⟩
  · exact fun span hspan => (hapart.after span (List.mem_of_mem_filter hspan)).2
  · simp only [List.map_append, List.count_append, bandDrafts_facts]

/-! ## Sorting and trimming -/

def draftKey (draft : SessionDraft) : Int ×ₗ (WithBot Int ×ₗ String) :=
  toLex (draft.startedAt, toLex (firstFrame draft, draft.contextKey))

/-- What the segmenter does with the raw drafts. -/
def arrange (drafts : List SessionDraft) : List SessionDraft :=
  sortDrafts (enforceNonOverlapPerTrack (sortDrafts drafts))

theorem segment_eq_arrange (lowercase : String → String) (order : HashOrder)
    (frames : List SegmenterFrame) (taxonomy : Taxonomy) (params : SegmentationParams) :
    segmentWithTaxonomy lowercase order frames taxonomy params =
      arrange (rawDrafts order (segmentMicro lowercase order frames taxonomy params) params) :=
  rfl

theorem sortDrafts_facts (drafts : List SessionDraft) :
    (sortDrafts drafts).map draftFacts = sortDrafts (drafts.map draftFacts) :=
  map_sortByKey draftKey draftKey draftFacts (fun _ => rfl) drafts

theorem pushBehind_facts (previousEnd : Option Int) (draft : SessionDraft) :
    draftFacts (pushBehind previousEnd draft) = pushBehind previousEnd (draftFacts draft) ∧
      (pushBehind previousEnd (draftFacts draft)).endedAt =
        (pushBehind previousEnd draft).endedAt := by
  cases previousEnd with
  | none => exact ⟨rfl, rfl⟩
  | some e =>
    by_cases hlt : draft.startedAt < e
    · simp [pushBehind, draftFacts, hlt]
    · simp [pushBehind, draftFacts, hlt]

theorem trimOverlap_facts (state : HashMap Int × List SessionDraft) (draft : SessionDraft) :
    ((trimOverlap state draft).1, (trimOverlap state draft).2.map draftFacts) =
      trimOverlap (state.1, state.2.map draftFacts) (draftFacts draft) := by
  obtain ⟨hfacts, hend⟩ := pushBehind_facts (state.1.lookup (trackPartition draft)) draft
  change _ = (state.1.insert (trackPartition draft)
    (pushBehind (state.1.lookup (trackPartition draft)) (draftFacts draft)).endedAt,
    state.2.map draftFacts ++
      [pushBehind (state.1.lookup (trackPartition draft)) (draftFacts draft)])
  rw [hend, ← hfacts]
  simp only [trimOverlap, List.map_append, List.map_cons, List.map_nil]

theorem arrange_facts (drafts : List SessionDraft) :
    (arrange drafts).map draftFacts = arrange (drafts.map draftFacts) := by
  have hfold : ∀ (drafts : List SessionDraft) (state : HashMap Int × List SessionDraft),
      (drafts.foldl trimOverlap state).2.map draftFacts =
        ((drafts.map draftFacts).foldl trimOverlap (state.1, state.2.map draftFacts)).2 := by
    intro drafts
    induction drafts with
    | nil => exact fun _ => rfl
    | cons draft drafts ih =>
      intro state
      rw [List.foldl_cons, List.map_cons, List.foldl_cons, ih, trimOverlap_facts]
  rw [arrange, arrange, sortDrafts_facts, ← sortDrafts_facts drafts]
  exact congrArg sortDrafts (hfold (sortDrafts drafts) (∅, []))

/-- Every draft of the list lies inside the interval. -/
def DraftsWithin (lo hi : Int) (drafts : List SessionDraft) : Prop :=
  ∀ draft ∈ drafts, lo ≤ draft.startedAt ∧ lo ≤ draft.endedAt ∧
    draft.startedAt ≤ hi ∧ draft.endedAt ≤ hi

/-- Trimming stays inside an interval that holds the drafts and the ends so
far. -/
theorem foldl_trimOverlap_within {lo hi : Int} {drafts : List SessionDraft}
    (h : DraftsWithin lo hi drafts) (state : HashMap Int × List SessionDraft)
    (hends : ∀ k e, state.1.lookup k = some e → e ≤ hi) (hout : DraftsWithin lo hi state.2) :
    (∀ k e, (drafts.foldl trimOverlap state).1.lookup k = some e → e ≤ hi) ∧
      DraftsWithin lo hi (drafts.foldl trimOverlap state).2 := by
  induction drafts generalizing state with
  | nil => exact ⟨hends, hout⟩
  | cons draft drafts ih =>
    rw [List.foldl_cons]
    have hdraft := h draft (List.mem_cons_self ..)
    -- the trimmed draft is still inside
    obtain ⟨trimmed, htrimmed, hstep⟩ : ∃ trimmed : SessionDraft,
        (lo ≤ trimmed.startedAt ∧ lo ≤ trimmed.endedAt ∧ trimmed.startedAt ≤ hi ∧
          trimmed.endedAt ≤ hi) ∧
        trimOverlap state draft =
          (state.1.insert (trackPartition draft) trimmed.endedAt, state.2 ++ [trimmed]) := by
      refine ⟨pushBehind (state.1.lookup (trackPartition draft)) draft, ?_, rfl⟩
      cases hlookup : state.1.lookup (trackPartition draft) with
      | none => exact hdraft
      | some previousEnd =>
        have hprev := hends _ _ hlookup
        simp only [pushBehind]
        split
        · refine ⟨?_, ?_, ?_, ?_⟩ <;> dsimp only <;> omega
        · exact hdraft
    rw [hstep]
    refine ih (fun d hd => h d (List.mem_cons_of_mem _ hd)) _ ?_ ?_
    · intro k e hlookup
      by_cases heq : k = trackPartition draft
      · subst heq
        rw [AList.lookup_insert] at hlookup
        cases hlookup
        exact htrimmed.2.2.2
      · rw [AList.lookup_insert_ne heq] at hlookup
        exact hends k e hlookup
    · intro d hd
      rcases List.mem_append.mp hd with hin | hnew
      · exact hout d hin
      · rw [List.mem_singleton.mp hnew]
        exact htrimmed

/-- Ends that are already passed do not trim. -/
theorem foldl_trimOverlap_fresh {hi : Int} {drafts : List SessionDraft}
    (h : ∀ draft ∈ drafts, hi ≤ draft.startedAt) {state fresh : HashMap Int × List SessionDraft}
    {before : List SessionDraft} (hout : state.2 = before ++ fresh.2)
    (hsame : ∀ k e, fresh.1.lookup k = some e → state.1.lookup k = some e)
    (hold : ∀ k e, state.1.lookup k = some e → fresh.1.lookup k = none → e ≤ hi) :
    (drafts.foldl trimOverlap state).2 = before ++ (drafts.foldl trimOverlap fresh).2 := by
  induction drafts generalizing state fresh with
  | nil => exact hout
  | cons draft drafts ih =>
    rw [List.foldl_cons, List.foldl_cons]
    have hdraft := h draft (List.mem_cons_self ..)
    obtain ⟨trimmed, hstate, hfresh⟩ : ∃ trimmed : SessionDraft,
        trimOverlap state draft =
          (state.1.insert (trackPartition draft) trimmed.endedAt, state.2 ++ [trimmed]) ∧
        trimOverlap fresh draft =
          (fresh.1.insert (trackPartition draft) trimmed.endedAt, fresh.2 ++ [trimmed]) := by
      cases hf : fresh.1.lookup (trackPartition draft) with
      | some e =>
        have hs := hsame _ _ hf
        exact ⟨_, rfl, by simp only [trimOverlap, hf, hs]⟩
      | none =>
        refine ⟨draft, ?_, by simp only [trimOverlap, hf, pushBehind]⟩
        cases hs : state.1.lookup (trackPartition draft) with
        | none => simp only [trimOverlap, hs, pushBehind]
        | some e =>
          have := hold _ _ hs hf
          simp only [trimOverlap, hs, pushBehind, if_neg (show ¬draft.startedAt < e by omega)]
    rw [hstate, hfresh]
    refine ih (fun d hd => h d (List.mem_cons_of_mem _ hd)) ?_ ?_ ?_
    · rw [hout, List.append_assoc]
    · intro k e hlookup
      by_cases heq : k = trackPartition draft
      · subst heq
        rw [AList.lookup_insert] at hlookup ⊢
        exact hlookup
      · rw [AList.lookup_insert_ne heq] at hlookup ⊢
        exact hsame k e hlookup
    · intro k e hlookup hnone
      by_cases heq : k = trackPartition draft
      · subst heq
        rw [AList.lookup_insert] at hnone
        cases hnone
      · rw [AList.lookup_insert_ne heq] at hlookup hnone
        exact hold k e hlookup hnone

theorem sortDrafts_append {lo hi : Int} (hlt : lo < hi) {drafts later : List SessionDraft}
    (hdrafts : ∀ draft ∈ drafts, draft.startedAt ≤ lo)
    (hlater : ∀ draft ∈ later, hi ≤ draft.startedAt) :
    sortDrafts (drafts ++ later) = sortDrafts drafts ++ sortDrafts later := by
  refine sortByKey_append draftKey fun a ha b hb => ?_
  have h1 := hdrafts a ha
  have h2 := hlater b hb
  exact (Prod.Lex.lt_iff ..).mpr (Or.inl (show a.startedAt < b.startedAt by omega))

/-- Sorting and trimming do not reach across the cut. -/
theorem arrange_append {low lo hi high : Int} (hlt : lo < hi) {drafts later : List SessionDraft}
    (hdrafts : DraftsWithin low lo drafts) (hlater : DraftsWithin hi high later) :
    arrange (drafts ++ later) = arrange drafts ++ arrange later := by
  have hmem : ∀ {l : List SessionDraft} {d : SessionDraft}, d ∈ sortDrafts l → d ∈ l :=
    fun hd => (mem_sortByKey _).mp hd
  have hempty : ∀ k e, (∅ : HashMap Int).lookup k = some e → e ≤ lo := by simp
  have hsorted : DraftsWithin low lo (sortDrafts drafts) := fun d hd => hdrafts d (hmem hd)
  have hsortedLater : DraftsWithin hi high (sortDrafts later) := fun d hd => hlater d (hmem hd)
  obtain ⟨hends, hleft⟩ := foldl_trimOverlap_within hsorted (∅, []) hempty
    (by simp [DraftsWithin])
  have hright := (foldl_trimOverlap_within hsortedLater (∅, []) (by simp)
    (by simp [DraftsWithin])).2
  have htrim : enforceNonOverlapPerTrack (sortDrafts drafts ++ sortDrafts later) =
      enforceNonOverlapPerTrack (sortDrafts drafts) ++
        enforceNonOverlapPerTrack (sortDrafts later) := by
    rw [enforceNonOverlapPerTrack, List.foldl_append]
    refine foldl_trimOverlap_fresh (fun d hd => (hsortedLater d hd).1)
      (by simp [enforceNonOverlapPerTrack]) (by simp) fun k e hlookup _ => ?_
    have := hends k e hlookup
    omega
  rw [arrange, sortDrafts_append hlt (fun d hd => (hdrafts d hd).2.2.1)
    (fun d hd => (hlater d hd).1), htrim]
  exact sortDrafts_append hlt (fun d hd => (hleft d hd).2.2.1) fun d hd => (hright d hd).1

/-- Drafts that own no frame twice differ in their first frame. -/
theorem filter_draftKey_length_le_one {drafts : List SessionDraft}
    (h : (ownedIds drafts).Nodup) (start x : Int) (contextKey : String) :
    (drafts.filter fun draft =>
      draftKey draft = toLex (start, toLex ((x : WithBot Int), contextKey))).length ≤ 1 := by
  set found := drafts.filter fun draft =>
    draftKey draft = toLex (start, toLex ((x : WithBot Int), contextKey)) with hfound
  have howns : ∀ draft ∈ found, x ∈ draft.frameIds := by
    intro draft hdraft
    have hkey := of_decide_eq_true (List.mem_filter.mp hdraft).2
    simp only [draftKey, EmbeddingLike.apply_eq_iff_eq, Prod.mk.injEq] at hkey
    exact List.mem_of_head? hkey.2.1
  have hnodup : (ownedIds found).Nodup := h.sublist (List.filter_sublist.flatMap _)
  match hshape : found with
  | [] => simp
  | [_] => simp
  | a :: b :: rest =>
    exfalso
    have ha := howns a (by simp)
    have hb := howns b (by simp)
    simp only [ownedIds, List.flatMap_cons, List.nodup_append'] at hnodup
    exact hnodup.2.2 ha (List.mem_append_left _ hb)

/-! ## The whole segmentation -/

/-- Bands may be empty, every other raw draft owns a frame and stays inside the
timeline. -/
theorem rawDrafts_shape (order : HashOrder) (params : SegmentationParams) {low high : Int}
    {micros : List MicroSpan}
    (h : ∀ span ∈ micros, span.Within low high) :
    ∃ extra, rawDrafts order micros params =
        (buildBands order micros params).map (bandDraft params) ++ extra ∧
      (∀ draft ∈ extra, draft.frameIds ≠ []) ∧
      DraftsWithin low high (rawDrafts order micros params) := by
  obtain ⟨extra, hraw, hextra⟩ := rawDrafts_keeps (boundedRule low high) order params h
  have hwithin : ∀ draft ∈ extra, low ≤ draft.startedAt ∧ draft.startedAt ≤ draft.endedAt ∧
      draft.endedAt ≤ high ∧ draft.frameIds ≠ [] := by
    intro draft hdraft
    obtain ⟨track, closedByGap, htrack, hfinal⟩ := hextra draft hdraft
    exact finalizeTrack_within htrack hfinal
  refine ⟨extra, hraw, fun draft hdraft => (hwithin draft hdraft).2.2.2, fun draft hdraft => ?_⟩
  rw [hraw] at hdraft
  rcases List.mem_append.mp hdraft with hband | hin
  · obtain ⟨band, hmem, rfl⟩ := List.mem_map.mp hband
    have hextent : band.extent ∈ (buildBands order micros params).map Band.extent :=
      List.mem_map_of_mem hmem
    rw [buildBands_extent] at hextent
    obtain ⟨original, horiginal, heq⟩ := List.mem_map.mp hextent
    obtain ⟨-, ⟨first, hfirst, hstart⟩, ⟨last, hlast, hend⟩⟩ := emptyBands_from horiginal
    have h1 := h first (List.mem_of_mem_filter hfirst)
    have h2 := h last (List.mem_of_mem_filter hlast)
    have hs : original.startMs = band.startMs := congrArg (fun e => e.1) heq
    have he : original.endMs = band.endMs := congrArg (fun e => e.2.1) heq
    have := h1.low
    have := h1.ordered
    have := h1.high
    have := h2.low
    have := h2.ordered
    have := h2.high
    refine ⟨?_, ?_, ?_, ?_⟩ <;> simp only [bandDraft] <;> omega
  · have := hwithin draft hin
    refine ⟨?_, ?_, ?_, ?_⟩ <;> omega

/-- Without a first frame a raw draft is a band. -/
theorem filter_rawDrafts_bot {low high : Int} {micros : List MicroSpan}
    (h : ∀ span ∈ micros, span.Within low high) (start : Int) (contextKey : String) :
    ((rawDrafts order micros (atNow params now)).map draftFacts).filter (fun draft =>
        draftKey draft = toLex (start, toLex ((⊥ : WithBot Int), contextKey))) =
      (((buildBands order micros params).map (bandDraft params)).map draftFacts).filter
        fun draft => draftKey draft = toLex (start, toLex ((⊥ : WithBot Int), contextKey)) := by
  obtain ⟨extra, hraw, hextra, -⟩ :=
    rawDrafts_shape order (atNow params now) h
  have hnil : (extra.map draftFacts).filter (fun draft =>
      draftKey draft = toLex (start, toLex ((⊥ : WithBot Int), contextKey))) = [] := by
    rw [List.filter_eq_nil_iff]
    intro facts hfacts hkey
    obtain ⟨draft, hdraft, rfl⟩ := List.mem_map.mp hfacts
    simp only [draftKey, decide_eq_true_eq, EmbeddingLike.apply_eq_iff_eq,
      Prod.mk.injEq] at hkey
    exact hextra draft hdraft (List.head?_eq_none_iff.mp hkey.2.1)
  rw [hraw, List.map_append, List.filter_append, hnil, List.append_nil, bandDrafts_facts]
  rfl

theorem ownedIds_facts (drafts : List SessionDraft) :
    ownedIds (drafts.map draftFacts) = ownedIds drafts := by
  rw [ownedIds, List.flatMap_map]
  rfl

theorem rawDrafts_nodup {micros : List MicroSpan}
    (h : (micros.flatMap MicroSpan.frameIds).Nodup) :
    (ownedIds (rawDrafts order micros params)).Nodup :=
  List.nodup_iff_count_le_one.mpr fun x =>
    (rawDrafts_count order micros params x).trans (List.nodup_iff_count_le_one.mp h x)

theorem perm_eq_of_length_le_one {l l' : List SessionDraft} (hperm : l.Perm l')
    (hlen : l.length ≤ 1) : l = l' := by
  cases l with
  | nil => exact hperm.nil_eq
  | cons a rest =>
    have hnil : rest = [] := List.length_eq_zero_iff.mp (by simpa using hlen)
    subst hnil
    exact (List.perm_singleton.mp hperm.symm).symm

/-- Micro spans that stand apart are segmented independently. -/
theorem arrange_rawDrafts_append (order order₁ order₂ : HashOrder) (now now₁ now₂ : Int)
    {low lo hi high : Int} {micros later : List MicroSpan}
    (hapart : Apart params lo hi micros later) (hmerge : params.mergeGapMs ≤ hi - lo)
    (hmicros : ∀ span ∈ micros, span.Within low lo)
    (hlater : ∀ span ∈ later, span.Within hi high)
    (hnodup : ((micros ++ later).flatMap MicroSpan.frameIds).Nodup) :
    (arrange (rawDrafts order (micros ++ later) (atNow params now))).map draftFacts =
      (arrange (rawDrafts order₁ micros (atNow params now₁))).map draftFacts ++
        (arrange (rawDrafts order₂ later (atNow params now₂))).map draftFacts := by
  have hcount := rawDrafts_append order order₁ order₂ now now₁ now₂ hapart hmerge
    fun span hspan => ⟨(hmicros span hspan).ordered, (hmicros span hspan).frames⟩
  set whole := (rawDrafts order (micros ++ later) (atNow params now)).map draftFacts with hwhole
  set left := (rawDrafts order₁ micros (atNow params now₁)).map draftFacts with hleft
  set right := (rawDrafts order₂ later (atNow params now₂)).map draftFacts with hright
  have hperm : whole.Perm (left ++ right) := by
    rw [List.perm_iff_count]
    intro d
    rw [List.count_append]
    exact hcount d
  have hwithin : ∀ {lo hi : Int} {drafts : List SessionDraft}, DraftsWithin lo hi drafts →
      DraftsWithin lo hi (drafts.map draftFacts) := by
    intro lo hi drafts h draft hdraft
    obtain ⟨original, horiginal, rfl⟩ := List.mem_map.mp hdraft
    exact h original horiginal
  obtain ⟨-, -, -, hlw⟩ := rawDrafts_shape order₁ (atNow params now₁) hmicros
  obtain ⟨-, -, -, hrw⟩ := rawDrafts_shape order₂ (atNow params now₂) hlater
  rw [arrange_facts, arrange_facts, arrange_facts,
    ← arrange_append hapart.lt (hwithin hlw) (hwithin hrw)]
  -- the sort sees the same drafts of each key in the same order
  have hsort : sortDrafts whole = sortDrafts (left ++ right) := by
    refine sortByKey_eq_of_filter draftKey fun k => ?_
    obtain ⟨start, first, contextKey⟩ := k
    cases first with
    | bot =>
      have hall : ∀ span ∈ micros ++ later, span.Within (min low hi) (max lo high) := by
        intro span hspan
        rcases List.mem_append.mp hspan with hin | hin
        · have h := hmicros span hin
          exact ⟨(min_le_left _ _).trans h.low, h.ordered, h.high.trans (le_max_left _ _),
            h.frames⟩
        · have h := hlater span hin
          exact ⟨(min_le_right _ _).trans h.low, h.ordered, h.high.trans (le_max_right _ _),
            h.frames⟩
      change whole.filter (fun draft =>
          draftKey draft = toLex (start, toLex ((⊥ : WithBot Int), contextKey))) =
        (left ++ right).filter fun draft =>
          draftKey draft = toLex (start, toLex ((⊥ : WithBot Int), contextKey))
      rw [List.filter_append, hwhole, hleft, hright, filter_rawDrafts_bot hall,
        filter_rawDrafts_bot hmicros, filter_rawDrafts_bot hlater, buildBands_append hapart,
        List.map_append, List.map_append, List.filter_append,
        buildBands_order order order₁ micros, buildBands_order order order₂ later]
    | coe x =>
      have howned : (ownedIds whole).Nodup := by
        rw [hwhole, ownedIds_facts]
        exact rawDrafts_nodup hnodup
      exact perm_eq_of_length_le_one (hperm.filter _)
        (filter_draftKey_length_le_one howned start x contextKey)
  rw [arrange, hsort, ← arrange]

end ScreenSearch.Sessions
