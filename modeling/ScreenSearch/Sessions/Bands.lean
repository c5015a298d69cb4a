import ScreenSearch.Sessions.Ownership
import ScreenSearch.Sessions.Timeline

/-!
# Meeting bands

The bands of a timeline are, meeting by meeting, the bands of that meeting's
spans (`bandsFor`); the hash map only decides in which order they are found, and
the sort undoes that.

Main results:

* `emptyBands_order` — the bands do not depend on the hash order;
* `emptyBands_append`, `buildBands_append`, `freeSpans_append` — bands, what they
  take and what they leave split at a cut wider than the meeting gap.
-/

namespace ScreenSearch.Sessions

open Assoc Sorting

def Band.key (band : Band) : Int ×ₗ (Int ×ₗ String) :=
  toLex (band.startMs, toLex (band.endMs, band.id))

/-- The spans of one meeting. -/
def meetingOf (id : String) (micros : List MicroSpan) : List MicroSpan :=
  micros.filter fun span => identityOf span = .meeting id

/-- The bands of one meeting. -/
def bandsFor (params : SegmentationParams) (id : String) (spans : List MicroSpan) : List Band :=
  bandsOfMeeting params [] ⟨id, spans⟩

@[simp] theorem bandsFor_nil (params : SegmentationParams) (id : String) :
    bandsFor params id [] = [] := rfl

/-! ## One meeting -/

theorem pushBandIfQualified_append (chain : List MicroSpan) (id : String)
    (params : SegmentationParams) (before out : List Band) :
    pushBandIfQualified chain id params (before ++ out) =
      before ++ pushBandIfQualified chain id params out := by
  rw [pushBandIfQualified, pushBandIfQualified]
  split
  · split
    · rfl
    · rw [List.append_assoc]
  · rfl

theorem chainSpan_append (id : String) (params : SegmentationParams) (chain : List MicroSpan)
    (before out : List Band) (span : MicroSpan) :
    chainSpan id params (chain, before ++ out) span =
      ((chainSpan id params (chain, out) span).1,
        before ++ (chainSpan id params (chain, out) span).2) := by
  simp only [chainSpan]
  split
  · split
    · rw [pushBandIfQualified_append]
    · rfl
  · rfl

theorem foldl_chainSpan_append (id : String) (params : SegmentationParams)
    (spans chain : List MicroSpan) (before out : List Band) :
    spans.foldl (chainSpan id params) (chain, before ++ out) =
      ((spans.foldl (chainSpan id params) (chain, out)).1,
        before ++ (spans.foldl (chainSpan id params) (chain, out)).2) := by
  induction spans generalizing chain out with
  | nil => rfl
  | cons span spans ih => rw [List.foldl_cons, List.foldl_cons, chainSpan_append, ih]

theorem bandsOfMeeting_eq (params : SegmentationParams) (bands : List Band)
    (entry : Σ _ : String, List MicroSpan) :
    bandsOfMeeting params bands entry = bands ++ bandsFor params entry.1 entry.2 := by
  have h := foldl_chainSpan_append entry.1 params entry.2 [] bands []
  rw [List.append_nil] at h
  rw [bandsOfMeeting, h, bandsFor, bandsOfMeeting]
  exact pushBandIfQualified_append _ _ _ _ _

/-- A chain in progress holds spans that have been read. -/
theorem foldl_chainSpan_mem {id : String} {params : SegmentationParams} {P : MicroSpan → Prop}
    (spans : List MicroSpan) {state : List MicroSpan × List Band}
    (hspans : ∀ span ∈ spans, P span) (hchain : ∀ span ∈ state.1, P span) :
    ∀ span ∈ (spans.foldl (chainSpan id params) state).1, P span := by
  induction spans generalizing state with
  | nil => exact hchain
  | cons span spans ih =>
    rw [List.foldl_cons]
    refine ih (fun s hs => hspans s (List.mem_cons_of_mem _ hs)) fun s hs => ?_
    have hspan : P span := hspans span (List.mem_cons_self ..)
    rw [chainSpan] at hs
    split at hs
    · split at hs
      · rw [List.mem_singleton.mp hs]
        exact hspan
      · rcases List.mem_append.mp hs with hin | hnew
        · exact hchain s hin
        · rw [List.mem_singleton.mp hnew]
          exact hspan
    · rcases List.mem_append.mp hs with hin | hnew
      · exact hchain s hin
      · rw [List.mem_singleton.mp hnew]
        exact hspan

/-- Where the bounds of a band come from. -/
structure Band.From (id : String) (spans : List MicroSpan) (band : Band) : Prop where
  id : band.id = id
  start : ∃ span ∈ spans, band.startMs = span.firstTs
  ending : ∃ span ∈ spans, band.endMs = span.lastTs

theorem pushBandIfQualified_from {chain spans : List MicroSpan} {id : String}
    {params : SegmentationParams} {out : List Band} (hchain : ∀ span ∈ chain, span ∈ spans)
    (hout : ∀ band ∈ out, band.From id spans) :
    ∀ band ∈ pushBandIfQualified chain id params out, band.From id spans := by
  rw [pushBandIfQualified]
  split
  · rename_i first last hfirst hlast
    split
    · exact hout
    · intro band hband
      rcases List.mem_append.mp hband with hin | hnew
      · exact hout band hin
      · rw [List.mem_singleton.mp hnew]
        exact ⟨rfl, ⟨first, hchain first (List.mem_of_head? hfirst), rfl⟩,
          ⟨last, hchain last (List.mem_of_getLast? hlast), rfl⟩⟩
  · exact hout

theorem bandsFor_from (params : SegmentationParams) (id : String) (spans : List MicroSpan) :
    ∀ band ∈ bandsFor params id spans, band.From id spans := by
  have hfold : ∀ (rest : List MicroSpan) (state : List MicroSpan × List Band),
      (∀ span ∈ rest, span ∈ spans) → (∀ span ∈ state.1, span ∈ spans) →
      (∀ band ∈ state.2, band.From id spans) →
      ∀ band ∈ (rest.foldl (chainSpan id params) state).2, band.From id spans := by
    intro rest
    induction rest with
    | nil => exact fun _ _ _ hout => hout
    | cons span rest ih =>
      intro state hrest hchain hout
      rw [List.foldl_cons]
      refine ih _ (fun s hs => hrest s (List.mem_cons_of_mem _ hs)) ?_ ?_
      · exact foldl_chainSpan_mem [span] (by simpa using hrest span (by simp)) hchain
      · rw [chainSpan]
        split
        · split
          · exact pushBandIfQualified_from hchain hout
          · exact hout
        · exact hout
  refine pushBandIfQualified_from ?_ (hfold spans ([], []) (fun _ h => h) (by simp) (by simp))
  exact foldl_chainSpan_mem _ (fun _ h => h) (by simp)

/-- A pause longer than the meeting gap closes the chain, so the bands on either
side do not know of each other. -/
theorem bandsFor_append {params : SegmentationParams} {id : String} {spans later : List MicroSpan}
    (h : ∀ a ∈ spans, ∀ b ∈ later, params.meetingGapMs < b.firstTs - a.lastTs) :
    bandsFor params id (spans ++ later) =
      bandsFor params id spans ++ bandsFor params id later := by
  cases later with
  | nil => simp
  | cons b later =>
    have hclose : ∀ state : List MicroSpan × List Band, (∀ span ∈ state.1, span ∈ spans) →
        chainSpan id params state b = ([b], pushBandIfQualified state.1 id params state.2) := by
      intro state hstate
      rw [chainSpan]
      cases hlast : state.1.getLast? with
      | none =>
        rw [List.getLast?_eq_none_iff.mp hlast]
        rfl
      | some previous =>
        exact if_pos (h previous (hstate previous (List.mem_of_getLast? hlast)) b (by simp))
    have hleft := hclose (spans.foldl (chainSpan id params) ([], []))
      (foldl_chainSpan_mem _ (fun _ hin => hin) (by simp))
    have hfresh : chainSpan id params ([], []) b = ([b], []) := rfl
    rw [bandsFor, bandsFor, bandsFor, bandsOfMeeting, bandsOfMeeting, bandsOfMeeting]
    dsimp only
    rw [List.foldl_append, List.foldl_cons, hleft, List.foldl_cons, hfresh]
    have hrest := foldl_chainSpan_append id params later [b]
      (pushBandIfQualified (spans.foldl (chainSpan id params) ([], [])).1 id params
        (spans.foldl (chainSpan id params) ([], [])).2) []
    rw [List.append_nil] at hrest
    rw [hrest, pushBandIfQualified_append]

/-! ## All meetings -/

theorem meetingSpans_lookup (micros : List MicroSpan) (id : String) :
    ((meetingSpans micros).lookup id).getD [] = meetingOf id micros := by
  suffices h : ∀ m : HashMap (List MicroSpan),
      ((micros.foldl addMeetingSpan m).lookup id).getD [] =
        (m.lookup id).getD [] ++ meetingOf id micros by
    simpa [meetingSpans] using h ∅
  induction micros with
  | nil => simp [meetingOf]
  | cons span micros ih =>
    intro m
    rw [List.foldl_cons, ih, addMeetingSpan]
    simp only [meetingOf, List.filter_cons]
    cases hidentity : identityOf span with
    | meeting other =>
      by_cases heq : id = other
      · subst heq
        rw [AList.lookup_insert]
        simp
      · rw [AList.lookup_insert_ne heq]
        simp [Ne.symm heq]
    | ai other => simp
    | none => simp

/-- Of the bands of all meetings, those of one key are bands of its meeting. -/
theorem filter_flatMap_bandsFor {params : SegmentationParams} {p : Band → Bool} {id : String}
    (hp : ∀ band, p band = true → band.id = id) {entries : List (Σ _ : String, List MicroSpan)}
    (hnodup : entries.NodupKeys) :
    (entries.flatMap fun entry => bandsFor params entry.1 entry.2).filter p =
      (bandsFor params id ((entries.dlookup id).getD [])).filter p := by
  have hother : ∀ entry : Σ _ : String, List MicroSpan, entry.1 ≠ id →
      (bandsFor params entry.1 entry.2).filter p = [] := by
    intro entry hne
    rw [List.filter_eq_nil_iff]
    intro band hband hpb
    exact hne ((bandsFor_from params entry.1 entry.2 band hband).id.symm.trans (hp band hpb))
  induction entries with
  | nil => simp
  | cons entry entries ih =>
    obtain ⟨hnotin, hrest⟩ := List.nodupKeys_cons.mp hnodup
    rw [List.flatMap_cons, List.filter_append, ih hrest]
    obtain ⟨id', spans⟩ := entry
    by_cases heq : id = id'
    · subst heq
      rw [List.dlookup_cons_eq, List.dlookup_eq_none.mpr hnotin]
      simp
    · rw [List.dlookup_cons_ne _ _ heq, hother ⟨id', spans⟩ (Ne.symm heq), List.nil_append]

theorem emptyBands_eq (order : HashOrder) (micros : List MicroSpan)
    (params : SegmentationParams) :
    emptyBands order micros params = sortByKey Band.key
      ((order.entries (meetingSpans micros)).flatMap fun entry =>
        bandsFor params entry.1 entry.2) := by
  have hfold : ∀ (entries : List (Σ _ : String, List MicroSpan)) (bands : List Band),
      entries.foldl (bandsOfMeeting params) bands =
        bands ++ entries.flatMap fun entry => bandsFor params entry.1 entry.2 := by
    intro entries
    induction entries with
    | nil => simp
    | cons entry entries ih =>
      intro bands
      rw [List.foldl_cons, ih, bandsOfMeeting_eq, List.flatMap_cons, List.append_assoc]
  rw [emptyBands, hfold, List.nil_append]
  rfl

/-- The bands of one key, whatever the hash order. -/
theorem filter_emptyBands (order : HashOrder) (micros : List MicroSpan)
    (params : SegmentationParams) (start ending : Int) (id : String) :
    (emptyBands order micros params).filter (fun band =>
        band.key = toLex (start, toLex (ending, id))) =
      (bandsFor params id (meetingOf id micros)).filter fun band =>
        band.key = toLex (start, toLex (ending, id)) := by
  have hp : ∀ band : Band, decide (band.key = toLex (start, toLex (ending, id))) = true →
      band.id = id := by
    intro band h
    simp only [Band.key, decide_eq_true_eq, EmbeddingLike.apply_eq_iff_eq, Prod.mk.injEq] at h
    exact h.2.2
  have hperm := order.entries_perm (meetingSpans micros)
  have hnodup : (order.entries (meetingSpans micros)).NodupKeys :=
    (List.perm_nodupKeys hperm).mpr (meetingSpans micros).nodupKeys
  rw [emptyBands_eq, filter_sortByKey, filter_flatMap_bandsFor hp hnodup,
    List.perm_dlookup id hnodup hperm]
  change (bandsFor params id (((meetingSpans micros).lookup id).getD [])).filter _ = _
  rw [meetingSpans_lookup]

theorem emptyBands_sorted (order : HashOrder) (micros : List MicroSpan)
    (params : SegmentationParams) :
    (emptyBands order micros params).Pairwise fun a b => a.key ≤ b.key := by
  rw [emptyBands_eq]
  exact sortByKey_pairwise _ _

/-- The bands do not depend on the hash order. -/
theorem emptyBands_order (order order' : HashOrder) (micros : List MicroSpan)
    (params : SegmentationParams) :
    emptyBands order micros params = emptyBands order' micros params :=
  eq_of_sorted_of_filter Band.key (emptyBands_sorted order micros params)
    (emptyBands_sorted order' micros params) fun k => by
      rw [show k = toLex (k.1, toLex (k.2.1, k.2.2)) from rfl, filter_emptyBands,
        filter_emptyBands]

theorem buildBands_order (order order' : HashOrder) (micros : List MicroSpan)
    (params : SegmentationParams) :
    buildBands order micros params = buildBands order' micros params := by
  rw [buildBands, buildBands, emptyBands_order order order']

/-- Every band stands between a first and a last instant of its meeting. -/
theorem emptyBands_from {order : HashOrder} {micros : List MicroSpan}
    {params : SegmentationParams} {band : Band} (h : band ∈ emptyBands order micros params) :
    band.From band.id (meetingOf band.id micros) := by
  have hin : band ∈ (emptyBands order micros params).filter fun b =>
      b.key = toLex (band.startMs, toLex (band.endMs, band.id)) :=
    List.mem_filter.mpr ⟨h, by simp [Band.key]⟩
  rw [filter_emptyBands] at hin
  exact bandsFor_from _ _ _ band (List.mem_of_mem_filter hin)

/-! ## A cut -/

theorem midpoint_bounds {span : MicroSpan} (h : span.firstTs ≤ span.lastTs) :
    span.firstTs ≤ midpoint span ∧ midpoint span ≤ span.lastTs := by
  rw [midpoint, Int.tdiv_eq_ediv_of_nonneg (by omega)]
  omega

theorem meetingOf_append (id : String) (micros later : List MicroSpan) :
    meetingOf id (micros ++ later) = meetingOf id micros ++ meetingOf id later :=
  List.filter_append ..

/-- Micro spans on either side of a pause longer than the meeting gap. -/
structure Apart (params : SegmentationParams) (lo hi : Int) (micros later : List MicroSpan) :
    Prop where
  lt : lo < hi
  gap : params.meetingGapMs < hi - lo
  before : ∀ span ∈ micros, span.firstTs ≤ span.lastTs ∧ span.lastTs ≤ lo
  after : ∀ span ∈ later, span.firstTs ≤ span.lastTs ∧ hi ≤ span.firstTs

variable {order : HashOrder} {params : SegmentationParams} {lo hi : Int}
  {micros later : List MicroSpan}

theorem Apart.band_before (h : Apart params lo hi micros later) {band : Band}
    (hband : band ∈ emptyBands order micros params) : band.startMs ≤ lo ∧ band.endMs ≤ lo := by
  obtain ⟨-, ⟨first, hfirst, hstart⟩, ⟨last, hlast, hend⟩⟩ := emptyBands_from hband
  have h1 := h.before first (List.mem_of_mem_filter hfirst)
  have h2 := h.before last (List.mem_of_mem_filter hlast)
  omega

theorem Apart.band_after (h : Apart params lo hi micros later) {band : Band}
    (hband : band ∈ emptyBands order later params) : hi ≤ band.startMs ∧ hi ≤ band.endMs := by
  obtain ⟨-, ⟨first, hfirst, hstart⟩, ⟨last, hlast, hend⟩⟩ := emptyBands_from hband
  have h1 := h.after first (List.mem_of_mem_filter hfirst)
  have h2 := h.after last (List.mem_of_mem_filter hlast)
  omega

theorem emptyBands_append (h : Apart params lo hi micros later) :
    emptyBands order (micros ++ later) params =
      emptyBands order micros params ++ emptyBands order later params := by
  refine eq_of_sorted_of_filter Band.key (emptyBands_sorted ..) ?_ fun k => ?_
  · rw [List.pairwise_append]
    refine ⟨emptyBands_sorted .., emptyBands_sorted .., fun a ha b hb => ?_⟩
    have h1 := h.band_before ha
    have h2 := h.band_after hb
    have := h.lt
    exact (Prod.Lex.le_iff ..).mpr (Or.inl (show a.startMs < b.startMs by omega))
  · rw [show k = toLex (k.1, toLex (k.2.1, k.2.2)) from rfl, List.filter_append,
      filter_emptyBands, filter_emptyBands, filter_emptyBands, meetingOf_append, bandsFor_append,
      List.filter_append]
    intro a ha b hb
    have h1 := h.before a (List.mem_of_mem_filter ha)
    have h2 := h.after b (List.mem_of_mem_filter hb)
    have := h.gap
    omega

/-- No band of the list contains the instant. -/
def NoneContains (at_ : Int) (bands : List Band) : Prop :=
  ∀ band ∈ bands, ¬(band.startMs ≤ at_ ∧ at_ ≤ band.endMs)

theorem owningBandIndex_append_left {at_ : Int} {bands later : List Band}
    (h : NoneContains at_ later) :
    owningBandIndex at_ (bands ++ later) = owningBandIndex at_ bands := by
  rw [owningBandIndex, owningBandIndex, List.zipIdx_append, List.filter_append]
  have hnil : (later.zipIdx (0 + bands.length)).filter (fun entry =>
      decide (entry.1.startMs ≤ at_) && decide (at_ ≤ entry.1.endMs)) = [] := by
    rw [List.filter_eq_nil_iff]
    intro entry hentry hin
    simp only [Bool.and_eq_true, decide_eq_true_eq] at hin
    exact h entry.1 (List.fst_mem_of_mem_zipIdx hentry) hin
  rw [hnil, List.append_nil]

theorem owningBandIndex_append_right {at_ : Int} {bands later : List Band}
    (h : NoneContains at_ bands) :
    owningBandIndex at_ (bands ++ later) =
      (owningBandIndex at_ later).map (bands.length + ·) := by
  rw [owningBandIndex, owningBandIndex, List.zipIdx_append, List.filter_append]
  have hnil : bands.zipIdx.filter (fun entry =>
      decide (entry.1.startMs ≤ at_) && decide (at_ ≤ entry.1.endMs)) = [] := by
    rw [List.filter_eq_nil_iff]
    intro entry hentry hin
    simp only [Bool.and_eq_true, decide_eq_true_eq] at hin
    exact h entry.1 (List.fst_mem_of_mem_zipIdx hentry) hin
  have hshift : later.zipIdx (0 + bands.length) =
      later.zipIdx.map fun entry => (entry.1, bands.length + entry.2) := by
    rw [List.zipIdx_eq_map_add]
    simp
  rw [hnil, List.nil_append, hshift, List.filter_map, maxByKey_map, Option.map_map, Option.map_map]
  rfl

theorem modify_append_left {f : Band → Band} {bands : List Band} {index : Nat}
    (h : index < bands.length) (later : List Band) :
    (bands ++ later).modify index f = bands.modify index f ++ later := by
  induction bands generalizing index with
  | nil => simp at h
  | cons band bands ih =>
    cases index with
    | zero => rfl
    | succ index =>
      rw [List.cons_append, List.modify_succ_cons, List.modify_succ_cons,
        ih (by simpa using h), List.cons_append]

theorem modify_append_right {f : Band → Band} (bands later : List Band) (index : Nat) :
    (bands ++ later).modify (bands.length + index) f = bands ++ later.modify index f := by
  induction bands with
  | nil => simp
  | cons band bands ih =>
    rw [List.cons_append, List.length_cons, Nat.add_right_comm, List.modify_succ_cons, ih,
      List.cons_append]

theorem absorbSpan_append_left {bands later : List Band} {span : MicroSpan}
    (h : NoneContains (midpoint span) later) :
    absorbSpan (bands ++ later) span = absorbSpan bands span ++ later := by
  rw [absorbSpan, absorbSpan]
  split
  · rfl
  · rw [owningBandIndex_append_left h]
    cases hindex : owningBandIndex (midpoint span) bands with
    | none => rfl
    | some index => exact modify_append_left (owningBandIndex_lt hindex) later

theorem absorbSpan_append_right {bands later : List Band} {span : MicroSpan}
    (h : NoneContains (midpoint span) bands) :
    absorbSpan (bands ++ later) span = bands ++ absorbSpan later span := by
  rw [absorbSpan, absorbSpan]
  split
  · rfl
  · rw [owningBandIndex_append_right h]
    cases owningBandIndex (midpoint span) later with
    | none => rfl
    | some index => exact modify_append_right bands later index

/-- The bands of either part take the spans of that part only. -/
theorem buildBands_append (h : Apart params lo hi micros later) :
    buildBands order (micros ++ later) params =
      buildBands order micros params ++ buildBands order later params := by
  rw [buildBands, buildBands, buildBands, emptyBands_append h, List.foldl_append]
  have hleft : ∀ (spans : List MicroSpan) (bands : List Band),
      (∀ span ∈ spans, NoneContains (midpoint span) (emptyBands order later params)) →
      spans.foldl absorbSpan (bands ++ emptyBands order later params) =
        spans.foldl absorbSpan bands ++ emptyBands order later params := by
    intro spans
    induction spans with
    | nil => exact fun _ _ => rfl
    | cons span spans ih =>
      intro bands hspans
      rw [List.foldl_cons, List.foldl_cons,
        absorbSpan_append_left (hspans span (List.mem_cons_self ..)),
        ih _ fun s hs => hspans s (List.mem_cons_of_mem _ hs)]
  have hright : ∀ (spans : List MicroSpan) (bands after : List Band),
      (∀ span ∈ spans, NoneContains (midpoint span) bands) →
      spans.foldl absorbSpan (bands ++ after) = bands ++ spans.foldl absorbSpan after := by
    intro spans
    induction spans with
    | nil => exact fun _ _ _ => rfl
    | cons span spans ih =>
      intro bands after hspans
      rw [List.foldl_cons, List.foldl_cons,
        absorbSpan_append_right (hspans span (List.mem_cons_self ..)),
        ih _ _ fun s hs => hspans s (List.mem_cons_of_mem _ hs)]
  rw [hleft, hright]
  · intro span hspan band hband
    obtain ⟨original, horiginal, hextent⟩ : ∃ b ∈ emptyBands order micros params,
        b.extent = band.extent := by
      have hmem : band.extent ∈ (buildBands order micros params).map Band.extent :=
        List.mem_map_of_mem hband
      rw [buildBands_extent] at hmem
      exact List.mem_map.mp hmem
    have hb := h.band_before horiginal
    have hs := h.after span hspan
    have hmid := midpoint_bounds hs.1
    have hend : original.endMs = band.endMs := congrArg (fun e => e.2.1) hextent
    have := h.lt
    omega
  · intro span hspan band hband
    have hb := h.band_after hband
    have hs := h.before span hspan
    have hmid := midpoint_bounds hs.1
    have := h.lt
    omega

theorem owningBandIndex_buildBands (at_ : Int) (micros : List MicroSpan) :
    owningBandIndex at_ (buildBands order micros params) =
      owningBandIndex at_ (emptyBands order micros params) :=
  owningBandIndex_congr (buildBands_extent order micros params) at_

/-- What the bands leave free splits as well. -/
theorem freeSpans_append (h : Apart params lo hi micros later) :
    freeSpans (micros ++ later) (buildBands order (micros ++ later) params) =
      freeSpans micros (buildBands order micros params) ++
        freeSpans later (buildBands order later params) := by
  rw [freeSpans, freeSpans, freeSpans, List.filter_append]
  congr 1
  · refine List.filter_congr fun span hspan => ?_
    rw [owningBandIndex_buildBands, owningBandIndex_buildBands, emptyBands_append h,
      owningBandIndex_append_left]
    intro band hband
    have hb := h.band_after hband
    have hs := h.before span hspan
    have hmid := midpoint_bounds hs.1
    have := h.lt
    omega
  · refine List.filter_congr fun span hspan => ?_
    rw [owningBandIndex_buildBands, owningBandIndex_buildBands, emptyBands_append h,
      owningBandIndex_append_right]
    · rw [Option.isNone_map]
    · intro band hband
      have hb := h.band_before hband
      have hs := h.after span hspan
      have hmid := midpoint_bounds hs.1
      have := h.lt
      omega

end ScreenSearch.Sessions
