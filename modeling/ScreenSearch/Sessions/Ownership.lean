import ScreenSearch.Sessions.Segmenter

/-!
# Exclusive frame ownership

A frame moves through the segmenter as an id in one list after another: a
segment, a micro span, then a band, a pending span, a ramp or a track, at last a
draft. `Tracks.held x` counts how often the id `x` stands in the walk; every
step of the walk adds at most what the span it reads brings along, so a frame
that comes in once goes out at most once.

Main results:

* `walkSpan_held`, `walk_held` — one step of the walk, and a whole walk, never
  multiply an id;
* `band_split` — bands and free spans divide the micro spans between them;
* `draft_ownership` — no frame is owned twice, and only keyed frames are owned.
-/

namespace ScreenSearch.Sessions

open Assoc Sorting

/-! ## Frames of a list of drafts -/

/-- All the ids a list of drafts owns, with repetition. -/
def ownedIds (drafts : List SessionDraft) : List Int := drafts.flatMap SessionDraft.frameIds

@[simp] theorem ownedIds_nil : ownedIds [] = [] := rfl

@[simp] theorem ownedIds_append (a b : List SessionDraft) :
    ownedIds (a ++ b) = ownedIds a ++ ownedIds b := List.flatMap_append

theorem count_sortDedup_le (x : Int) (ids : List Int) :
    (sortDedup ids).count x ≤ ids.count x := by
  have hsub : (sortDedup ids).Sublist (ids.insertionSort (· ≤ ·)) :=
    List.destutter_sublist _ _
  calc (sortDedup ids).count x ≤ (ids.insertionSort (· ≤ ·)).count x := hsub.count_le x
    _ = ids.count x := (List.perm_insertionSort _ ids).count_eq x

/-- A track passes on its own frames, or none when it fails its gates. -/
theorem finalizeTrack_count (order : HashOrder) (track : OpenTrack) (closedByGap : Bool)
    (params : SegmentationParams) (x : Int) :
    (ownedIds (finalizeTrack order track closedByGap params).toList).count x ≤
      track.frameIds.count x := by
  rw [finalizeTrack]
  cases track.aiId <;> dsimp only <;> split
  · simpa [ownedIds] using count_sortDedup_le x track.frameIds
  · simp
  · simpa [ownedIds] using count_sortDedup_le x track.frameIds
  · simp

/-! ## Frames of a track -/

@[simp] theorem newAi_frameIds (span : MicroSpan) (id : String) (host : Option SessionHost) :
    (OpenTrack.newAi span id host).frameIds = span.frameIds := rfl

@[simp] theorem newFocus_frameIds (span : MicroSpan) :
    (OpenTrack.newFocus span).frameIds = span.frameIds := rfl

@[simp] theorem absorbAi_frameIds (track : OpenTrack) (span : MicroSpan) :
    (track.absorbAi span).frameIds = track.frameIds ++ span.frameIds := rfl

@[simp] theorem absorbNone_frameIds (track : OpenTrack) (span : MicroSpan) :
    (track.absorbNone span).frameIds = track.frameIds ++ span.frameIds := by
  rw [OpenTrack.absorbNone]
  split <;> rfl

@[simp] theorem prependRamp_frameIds (track : OpenTrack) (ramp : Ramp) :
    (track.prependRamp ramp).frameIds = ramp.frameIds ++ track.frameIds := rfl

/-! ## The walk never multiplies an id -/

def OpenTrack.held (x : Int) (track : OpenTrack) : Nat := track.frameIds.count x

/-- How often `x` stands in the tracks, the focus track and the drafts. -/
def Tracks.held (x : Int) (t : Tracks) : Nat :=
  weight (OpenTrack.held x) t.tracks + (t.focus.map (OpenTrack.held x)).getD 0 +
    (ownedIds t.out).count x

/-- How often `x` stands in the spans. -/
def spansHeld (x : Int) (spans : List MicroSpan) : Nat :=
  (spans.flatMap MicroSpan.frameIds).count x

@[simp] theorem spansHeld_nil (x : Int) : spansHeld x [] = 0 := rfl

@[simp] theorem spansHeld_append (x : Int) (a b : List MicroSpan) :
    spansHeld x (a ++ b) = spansHeld x a + spansHeld x b := by
  simp [spansHeld, List.flatMap_append]

@[simp] theorem spansHeld_cons (x : Int) (span : MicroSpan) (spans : List MicroSpan) :
    spansHeld x (span :: spans) = span.frameIds.count x + spansHeld x spans := by
  simp [spansHeld]

def Walk.held (x : Int) (w : Walk) : Nat := w.toTracks.held x + spansHeld x w.pending

def rampHeld (x : Int) (ramp : Option Ramp) : Nat :=
  (ramp.map fun r => r.frameIds.count x).getD 0

variable (order : HashOrder) (params : SegmentationParams) (x : Int)

theorem extendOrOpenFocus_held (t : Tracks) (span : MicroSpan) :
    (extendOrOpenFocus order params t span).held x ≤ t.held x + span.frameIds.count x := by
  rw [extendOrOpenFocus]
  cases hfocus : t.focus with
  | none =>
    simp [Tracks.held, OpenTrack.held, hfocus]
    omega
  | some track =>
    dsimp only
    split
    · have hdraft := finalizeTrack_count order track true params x
      simp only [Tracks.held, Tracks.finalize, OpenTrack.held, hfocus, newFocus_frameIds,
        ownedIds_append, List.count_append, Option.map_some, Option.getD_some]
      omega
    · simp [Tracks.held, OpenTrack.held, hfocus]
      omega

theorem lastTouched_lookup {tracks : HashMap OpenTrack} {span : MicroSpan} {id : String}
    (h : lastTouched order params tracks span = some id) :
    ∃ track, tracks.lookup id = some track := by
  rw [lastTouched, Option.map_eq_some_iff] at h
  obtain ⟨entry, hmax, rfl⟩ := h
  have hmem := List.mem_of_mem_filter (maxByKey_mem _ hmax)
  exact ⟨entry.2, HashOrder.mem_entries.mp hmem⟩

theorem flushSpan_held (rampStart : Option Int) (state : Option Ramp × Tracks)
    (span : MicroSpan) :
    rampHeld x (flushSpan order params rampStart state span).1 +
        (flushSpan order params rampStart state span).2.held x ≤
      rampHeld x state.1 + state.2.held x + span.frameIds.count x := by
  rw [flushSpan]
  cases htouched : lastTouched order params state.2.tracks span with
  | some id =>
    obtain ⟨track, hlookup⟩ := lastTouched_lookup order params htouched
    have hinsert := weight_insert (OpenTrack.held x) state.2.tracks id (track.absorbNone span)
    rw [weightAt_of_some hlookup] at hinsert
    simp only [hlookup, Tracks.held, OpenTrack.held, absorbNone_frameIds,
      List.count_append] at hinsert ⊢
    omega
  | none =>
    dsimp only
    split
    · cases state.1 with
      | none =>
        simp only [rampHeld, Ramp.add, Option.map_some, Option.map_none, Option.getD_some,
          Option.getD_none, List.nil_append]
        omega
      | some ramp =>
        simp only [rampHeld, Ramp.add, Option.map_some, Option.getD_some, List.count_append]
        omega
    · have := extendOrOpenFocus_held order params x state.2 span
      dsimp only
      omega

theorem flushPending_held (rampStart : Option Int) (w : Walk) :
    rampHeld x (flushPending order params rampStart w).1 +
      (flushPending order params rampStart w).2.held x ≤ w.held x := by
  have hfold : ∀ (spans : List MicroSpan) (state : Option Ramp × Tracks),
      rampHeld x (spans.foldl (flushSpan order params rampStart) state).1 +
          (spans.foldl (flushSpan order params rampStart) state).2.held x ≤
        rampHeld x state.1 + state.2.held x + spansHeld x spans := by
    intro spans
    induction spans with
    | nil => intro state; simp
    | cons span spans ih =>
      intro state
      rw [List.foldl_cons, spansHeld_cons]
      have hstep := flushSpan_held order params x rampStart state span
      have hrest := ih (flushSpan order params rampStart state span)
      omega
  have := hfold w.pending (none, w.toTracks)
  simp only [flushPending, Walk.held, spansHeld_nil, rampHeld, Option.map_none,
    Option.getD_none] at this ⊢
  omega

theorem flushStale_held (w : Walk) (span : MicroSpan) :
    (flushStale order params w span).held x ≤ w.held x := by
  rw [flushStale]
  split
  · have := flushPending_held order params x none w
    omega
  · exact le_rfl

theorem closeGapped_held (w : Walk) (id : String) (span : MicroSpan) :
    (closeGapped order params w id span).held x ≤ w.held x := by
  rw [closeGapped]
  cases hlookup : w.tracks.lookup id with
  | none => exact le_rfl
  | some track =>
    dsimp only
    split
    · have hdraft := finalizeTrack_count order track true params x
      have herase := weight_erase (OpenTrack.held x) w.tracks id
      rw [weightAt_of_some hlookup] at herase
      simp only [Walk.held, Tracks.held, Tracks.finalize, OpenTrack.held, ownedIds_append,
        List.count_append] at herase ⊢
      omega
    · exact le_rfl

theorem walkAi_held (w : Walk) (id : String) (span : MicroSpan) :
    (walkAi order params w id span).held x ≤ w.held x + span.frameIds.count x := by
  rw [walkAi]
  dsimp only
  have hclose := closeGapped_held order params x w id span
  generalize closeGapped order params w id span = w₁ at hclose ⊢
  generalize (if (w₁.tracks.lookup id).isSome then none else some span.firstTs) = rampStart
  have hflush := flushPending_held order params x rampStart w₁
  generalize flushPending order params rampStart w₁ = flushed at hflush ⊢
  obtain ⟨ramp, w₂⟩ := flushed
  have hflush : rampHeld x ramp + w₂.held x ≤ w.held x := hflush.trans hclose
  simp only
  cases hlookup : w₂.tracks.lookup id with
  | some track =>
    have hinsert := weight_insert (OpenTrack.held x) w₂.tracks id (track.absorbAi span)
    rw [weightAt_of_some hlookup] at hinsert
    simp only [Walk.held, Tracks.held, OpenTrack.held, absorbAi_frameIds,
      List.count_append] at hinsert hflush ⊢
    omega
  | none =>
    cases ramp with
    | none =>
      have hinsert := weight_insert (OpenTrack.held x) w₂.tracks id
        (OpenTrack.newAi span id (span.recognition.bind Recognized.host))
      simp only [Walk.held, Tracks.held, OpenTrack.held, newAi_frameIds, rampHeld,
        Option.map_none, Option.getD_none] at hinsert hflush ⊢
      omega
    | some ramp =>
      have hinsert := weight_insert (OpenTrack.held x) w₂.tracks id
        ((OpenTrack.newAi span id (span.recognition.bind Recognized.host)).prependRamp ramp)
      simp only [Walk.held, Tracks.held, OpenTrack.held, prependRamp_frameIds, newAi_frameIds,
        rampHeld, Option.map_some, Option.getD_some, List.count_append] at hinsert hflush ⊢
      omega

theorem walkNone_held (w : Walk) (span : MicroSpan) :
    (walkNone order params w span).held x ≤ w.held x + span.frameIds.count x := by
  rw [walkNone]
  split
  · have hflush := flushPending_held order params x none w
    have hfocus := extendOrOpenFocus_held order params x
      (flushPending order params none w).2.toTracks span
    simp only [Walk.held] at hflush hfocus ⊢
    omega
  · simp only [Walk.held, spansHeld_append, spansHeld_cons, spansHeld_nil]
    omega

/-- One span of the walk brings in its own frames and no others. -/
theorem walkSpan_held (w : Walk) (span : MicroSpan) :
    (walkSpan order params w span).held x ≤ w.held x + span.frameIds.count x := by
  rw [walkSpan]
  have hstale := flushStale_held order params x w span
  split
  · rename_i id _
    have := walkAi_held order params x (flushStale order params w span)
      id span
    omega
  · have := walkNone_held order params x (flushStale order params w span)
      span
    omega

/-- A whole walk: what it holds at the end came in with the spans or was there
before. -/
theorem walk_held (spans : List MicroSpan) (w : Walk) :
    (spans.foldl (walkSpan order params) w).held x ≤ w.held x + spansHeld x spans := by
  induction spans generalizing w with
  | nil => simp
  | cons span spans ih =>
    rw [List.foldl_cons, spansHeld_cons]
    have hstep := walkSpan_held order params x w span
    have hrest := ih (walkSpan order params w span)
    omega

theorem finishWalk_count (w : Walk) :
    (ownedIds (finishWalk order params w)).count x ≤ w.held x := by
  rw [finishWalk]
  have hflush := flushPending_held order params x none w
  generalize (flushPending order params none w).2 = w₁ at hflush ⊢
  -- each open track closes into at most its own frames
  have htracks : ∀ entries : List (Σ _ : String, OpenTrack),
      (ownedIds (entries.filterMap fun entry =>
        finalizeTrack order entry.2 false params)).count x ≤
      (entries.map fun entry => entry.2.held x).sum := by
    intro entries
    induction entries with
    | nil => simp
    | cons entry entries ih =>
      have hdraft := finalizeTrack_count order entry.2 false params x
      cases hfinal : finalizeTrack order entry.2 false params with
      | none =>
        simp only [List.filterMap_cons, hfinal, List.map_cons, List.sum_cons]
        omega
      | some draft =>
        rw [hfinal] at hdraft
        simp only [List.filterMap_cons, hfinal, List.map_cons, List.sum_cons, ownedIds,
          List.flatMap_cons, List.count_append, Option.toList_some, List.flatMap_nil,
          List.append_nil, OpenTrack.held] at hdraft ih ⊢
        omega
  have hentries := htracks (order.entries w₁.tracks)
  rw [weight_entries order (OpenTrack.held x)] at hentries
  have hfocus : (ownedIds (w₁.focus.bind fun track =>
      finalizeTrack order track false params).toList).count x ≤
      (w₁.focus.map (OpenTrack.held x)).getD 0 := by
    cases w₁.focus with
    | none => simp
    | some track => exact finalizeTrack_count order track false params x
  simp only [ownedIds_append, List.count_append, Walk.held, Tracks.held] at hflush ⊢
  omega

/-! ## Bands and free spans divide the micro spans -/

/-- What decides which band owns an instant. -/
def Band.extent (band : Band) : Int × Int × Int := (band.startMs, band.endMs, band.presenceMs)

theorem owningBandIndex_congr {bands bands' : List Band}
    (h : bands.map Band.extent = bands'.map Band.extent) (at_ : Int) :
    owningBandIndex at_ bands = owningBandIndex at_ bands' := by
  have hextent : ∀ bands : List Band, owningBandIndex at_ bands =
      (maxByKey (fun entry : (Int × Int × Int) × Nat =>
          toLex (entry.1.2.2, OrderDual.toDual entry.1.1))
        ((bands.map Band.extent).zipIdx.filter fun entry =>
          decide (entry.1.1 ≤ at_) && decide (at_ ≤ entry.1.2.1))).map Prod.snd := by
    intro bands
    rw [List.zipIdx_map, List.filter_map, maxByKey_map, Option.map_map]
    rfl
  rw [hextent, hextent, h]

theorem absorbSpan_extent (bands : List Band) (span : MicroSpan) :
    (absorbSpan bands span).map Band.extent = bands.map Band.extent := by
  rw [absorbSpan]
  split
  · rfl
  · split
    · rename_i index _
      apply List.ext_getElem?
      intro i
      simp only [List.getElem?_map, List.getElem?_modify]
      split <;> cases bands[i]? <;> rfl
    · rfl

def bandsHeld (x : Int) (bands : List Band) : Nat :=
  (bands.flatMap Band.frameIds).count x

theorem bandsHeld_modify (x : Int) (bands : List Band) (index : Nat) (span : MicroSpan)
    (h : index < bands.length) :
    bandsHeld x (bands.modify index fun band => band.absorb span) =
      bandsHeld x bands + span.frameIds.count x := by
  induction bands generalizing index with
  | nil => simp at h
  | cons band bands ih =>
    cases index with
    | zero =>
      simp [bandsHeld, Band.absorb]
      omega
    | succ index =>
      have := ih index (by simpa using h)
      simp only [bandsHeld, List.modify_succ_cons, List.flatMap_cons, List.count_append] at this ⊢
      omega

theorem owningBandIndex_lt {at_ : Int} {bands : List Band} {index : Nat}
    (h : owningBandIndex at_ bands = some index) : index < bands.length := by
  rw [owningBandIndex, Option.map_eq_some_iff] at h
  obtain ⟨entry, hmax, rfl⟩ := h
  exact List.snd_lt_of_mem_zipIdx (List.mem_of_mem_filter (maxByKey_mem _ hmax))

/-- Every non-AI span goes to the band that owns its midpoint, every other one
stays free: together they hold each id as often as the micro spans do. -/
theorem band_split (x : Int) (micros : List MicroSpan) {bands final : List Band}
    (h : bands.map Band.extent = final.map Band.extent) :
    bandsHeld x (micros.foldl absorbSpan bands) + spansHeld x (freeSpans micros final) =
      bandsHeld x bands + spansHeld x micros := by
  induction micros generalizing bands with
  | nil => simp [freeSpans]
  | cons span micros ih =>
    have hih := ih ((absorbSpan_extent bands span).trans h)
    rw [List.foldl_cons, spansHeld_cons]
    rw [freeSpans, List.filter_cons]
    rw [freeSpans] at hih
    have howner := owningBandIndex_congr h (midpoint span)
    by_cases hai : (identityOf span).isAi = true
    · have habsorb : absorbSpan bands span = bands := by simp [absorbSpan, hai]
      rw [habsorb] at hih ⊢
      rw [if_pos (by simp [hai]), spansHeld_cons]
      omega
    · cases hindex : owningBandIndex (midpoint span) bands with
      | none =>
        have habsorb : absorbSpan bands span = bands := by simp [absorbSpan, hindex]
        rw [habsorb] at hih ⊢
        rw [if_pos (by simp [← howner, hindex]), spansHeld_cons]
        omega
      | some index =>
        have habsorb : absorbSpan bands span =
            bands.modify index fun band => band.absorb span := by
          simp [absorbSpan, hai, hindex]
        have hheld := bandsHeld_modify x bands index span (owningBandIndex_lt hindex)
        rw [habsorb] at hih ⊢
        rw [if_neg (by simp [← howner, hindex, hai])]
        omega

theorem pushBandIfQualified_empty {chain : List MicroSpan} {id : String}
    {params : SegmentationParams} {out : List Band} (h : ∀ band ∈ out, band.frameIds = []) :
    ∀ band ∈ pushBandIfQualified chain id params out, band.frameIds = [] := by
  rw [pushBandIfQualified]
  split
  · split
    · exact h
    · intro band hband
      rcases List.mem_append.mp hband with hin | hnew
      · exact h band hin
      · rw [List.mem_singleton.mp hnew]
  · exact h

theorem bandsOfMeeting_empty {params : SegmentationParams} {bands : List Band}
    (entry : Σ _ : String, List MicroSpan) (h : ∀ band ∈ bands, band.frameIds = []) :
    ∀ band ∈ bandsOfMeeting params bands entry, band.frameIds = [] := by
  have hchain : ∀ (spans : List MicroSpan) (state : List MicroSpan × List Band),
      (∀ band ∈ state.2, band.frameIds = []) →
      ∀ band ∈ (spans.foldl (chainSpan entry.1 params) state).2, band.frameIds = [] := by
    intro spans
    induction spans with
    | nil => exact fun _ hstate => hstate
    | cons span spans ih =>
      intro state hstate
      refine ih _ ?_
      rw [chainSpan]
      split
      · split
        · exact pushBandIfQualified_empty hstate
        · exact hstate
      · exact hstate
  exact pushBandIfQualified_empty (hchain entry.2 ([], bands) h)

theorem emptyBands_held (order : HashOrder) (x : Int) (micros : List MicroSpan)
    (params : SegmentationParams) : bandsHeld x (emptyBands order micros params) = 0 := by
  have hfold : ∀ (entries : List (Σ _ : String, List MicroSpan)) (bands : List Band),
      (∀ band ∈ bands, band.frameIds = []) →
      ∀ band ∈ entries.foldl (bandsOfMeeting params) bands, band.frameIds = [] := by
    intro entries
    induction entries with
    | nil => exact fun _ hbands => hbands
    | cons entry entries ih => exact fun bands hbands => ih _ (bandsOfMeeting_empty entry hbands)
  have hnil : (emptyBands order micros params).flatMap Band.frameIds = [] := by
    rw [List.flatMap_eq_nil_iff]
    intro band hband
    rw [emptyBands, mem_sortByKey] at hband
    exact hfold _ [] (by simp) band hband
  rw [bandsHeld, hnil, List.count_nil]

theorem buildBands_extent (order : HashOrder) (micros : List MicroSpan)
    (params : SegmentationParams) :
    (buildBands order micros params).map Band.extent =
      (emptyBands order micros params).map Band.extent := by
  rw [buildBands]
  generalize emptyBands order micros params = bands
  induction micros generalizing bands with
  | nil => rfl
  | cons span micros ih => rw [List.foldl_cons, ih, absorbSpan_extent]

theorem bandDrafts_count (params : SegmentationParams) (x : Int) (bands : List Band) :
    (ownedIds (bands.map (bandDraft params))).count x ≤ bandsHeld x bands := by
  induction bands with
  | nil => simp
  | cons band bands ih =>
    have hband := count_sortDedup_le x band.frameIds
    simp only [ownedIds, bandsHeld, List.map_cons, List.flatMap_cons, List.count_append,
      bandDraft] at ih ⊢
    omega

/-! ## From micro spans to drafts -/

/-- All stages together: an id stands in the drafts at most as often as in the
micro spans. -/
theorem rawDrafts_count (order : HashOrder) (micros : List MicroSpan)
    (params : SegmentationParams) (x : Int) :
    (ownedIds (rawDrafts order micros params)).count x ≤ spansHeld x micros := by
  set bands := buildBands order micros params with hbands
  have hdrafts := bandDrafts_count params x bands
  have hsplit := band_split x micros (buildBands_extent order micros params).symm
  rw [emptyBands_held] at hsplit
  have hwalk := walk_held order params x (freeSpans micros bands)
    { Walk.initial with out := bands.map (bandDraft params) }
  have hfinish := finishWalk_count order params x
    ((freeSpans micros bands).foldl (walkSpan order params)
      { Walk.initial with out := bands.map (bandDraft params) })
  simp only [Walk.held, Tracks.held, Walk.initial, weight_empty, Option.map_none,
    Option.getD_none, spansHeld_nil] at hwalk hfinish
  rw [rawDrafts]
  rw [← buildBands, ← hbands] at hsplit
  refine hfinish.trans ?_
  omega

theorem pushBehind_frameIds (previousEnd : Option Int) (draft : SessionDraft) :
    (pushBehind previousEnd draft).frameIds = draft.frameIds := by
  cases previousEnd with
  | none => rfl
  | some e =>
    simp only [pushBehind]
    split <;> rfl

/-- Trimming moves bounds and leaves alone what does not depend on them. -/
theorem enforceNonOverlapPerTrack_map {β : Type} {f : SessionDraft → β}
    (hSame : ∀ previousEnd draft, f (pushBehind previousEnd draft) = f draft)
    (drafts : List SessionDraft) :
    (enforceNonOverlapPerTrack drafts).map f = drafts.map f := by
  suffices h : ∀ state : HashMap Int × List SessionDraft,
      (drafts.foldl trimOverlap state).2.map f = state.2.map f ++ drafts.map f by
    simpa [enforceNonOverlapPerTrack] using h (∅, [])
  induction drafts with
  | nil => simp
  | cons draft drafts ih =>
    intro state
    rw [List.foldl_cons, ih]
    simp only [trimOverlap, List.map_append, List.map_cons, List.map_nil, List.append_assoc,
      List.singleton_append, hSame]

theorem enforceNonOverlapPerTrack_frameIds (drafts : List SessionDraft) :
    (enforceNonOverlapPerTrack drafts).map SessionDraft.frameIds =
      drafts.map SessionDraft.frameIds :=
  enforceNonOverlapPerTrack_map pushBehind_frameIds drafts

theorem segment_owned_perm (lowercase : String → String) (order : HashOrder)
    (frames : List SegmenterFrame) (taxonomy : Taxonomy) (params : SegmentationParams) :
    (ownedIds (segmentWithTaxonomy lowercase order frames taxonomy params)).Perm
      (ownedIds (rawDrafts order (segmentMicro lowercase order frames taxonomy params)
        params)) := by
  have hsort : ∀ drafts : List SessionDraft, (ownedIds (sortDrafts drafts)).Perm (ownedIds drafts) :=
    fun drafts => (sortByKey_perm _ drafts).flatMap_right _
  refine (hsort _).trans ?_
  rw [ownedIds, List.flatMap_def, enforceNonOverlapPerTrack_frameIds, ← List.flatMap_def]
  exact hsort _

/-- A keyed frame names its app. -/
theorem contextOf_isSome {lowercase : String → String} {frame : SegmenterFrame}
    {taxonomy : Taxonomy} (h : (contextOf lowercase frame taxonomy).isSome) :
    ∃ app, frame.appHint = some app ∧ Text.isBlank app = false := by
  rw [contextOf] at h
  cases happ : frame.appHint with
  | none => simp [happ] at h
  | some app =>
    refine ⟨app, rfl, ?_⟩
    rw [← Text.trim_isEmpty]
    by_contra hblank
    rw [Bool.not_eq_false, String.isEmpty_iff] at hblank
    simp [happ, hblank] at h

theorem mem_keyedIds {lowercase : String → String} {frames : List SegmenterFrame}
    {taxonomy : Taxonomy} {x : Int} :
    x ∈ keyedIds lowercase frames taxonomy ↔
      ∃ frame ∈ frames, (contextOf lowercase frame taxonomy).isSome ∧ frame.id = x := by
  simp [keyedIds, and_assoc]

theorem keyedIds_nodup {lowercase : String → String} {frames : List SegmenterFrame}
    {taxonomy : Taxonomy} (h : (frames.map SegmenterFrame.id).Nodup) :
    (keyedIds lowercase frames taxonomy).Nodup := by
  have hsub := (List.filter_sublist (p := fun frame =>
    (contextOf lowercase frame taxonomy).isSome) (l := sortByKey timeKey frames)).map
      SegmenterFrame.id
  exact (((sortByKey_perm _ frames).map SegmenterFrame.id).nodup_iff.mpr h).sublist hsub

theorem segment_count_le (lowercase : String → String) (order : HashOrder)
    (frames : List SegmenterFrame) (taxonomy : Taxonomy) (params : SegmentationParams) (x : Int) :
    (ownedIds (segmentWithTaxonomy lowercase order frames taxonomy params)).count x ≤
      (keyedIds lowercase frames taxonomy).count x := by
  rw [(segment_owned_perm lowercase order frames taxonomy params).count_eq x,
    ← (segmentMicro_frameIds_perm lowercase order frames taxonomy params).count_eq x]
  exact rawDrafts_count order _ params x

theorem segment_nodup (lowercase : String → String) (order : HashOrder)
    {frames : List SegmenterFrame} (taxonomy : Taxonomy) (params : SegmentationParams)
    (hids : (frames.map SegmenterFrame.id).Nodup) :
    (ownedIds (segmentWithTaxonomy lowercase order frames taxonomy params)).Nodup := by
  refine List.nodup_iff_count_le_one.mpr fun x => ?_
  have hone := List.nodup_iff_count_le_one.mp
    (keyedIds_nodup hids : (keyedIds lowercase frames taxonomy).Nodup) x
  exact (segment_count_le lowercase order frames taxonomy params x).trans hone

/-- An owned frame is one of the frames, and names an app. -/
theorem segment_owned_mem {lowercase : String → String} {order : HashOrder}
    {frames : List SegmenterFrame} {taxonomy : Taxonomy} {params : SegmentationParams} {x : Int}
    (hx : x ∈ ownedIds (segmentWithTaxonomy lowercase order frames taxonomy params)) :
    ∃ frame ∈ frames, frame.id = x ∧
      ∃ app, frame.appHint = some app ∧ Text.isBlank app = false := by
  have hpos : 0 < (keyedIds lowercase frames taxonomy).count x :=
    lt_of_lt_of_le (List.count_pos_iff.mpr hx) (segment_count_le lowercase order frames taxonomy params x)
  obtain ⟨frame, hframe, hkeyed, rfl⟩ := mem_keyedIds.mp (List.count_pos_iff.mp hpos)
  exact ⟨frame, hframe, rfl, contextOf_isSome hkeyed⟩

/-- **Exclusive ownership.** The drafts of a segmentation own no frame twice, and
only frames that name an app. -/
theorem draft_ownership (lowercase : String → String) (order : HashOrder)
    (frames : List SegmenterFrame) (taxonomy : Taxonomy) (params : SegmentationParams)
    (hids : (frames.map SegmenterFrame.id).Nodup) :
    (ownedIds (segmentWithTaxonomy lowercase order frames taxonomy params)).Nodup ∧
      ∀ x ∈ ownedIds (segmentWithTaxonomy lowercase order frames taxonomy params),
        ∃ frame ∈ frames, frame.id = x ∧
          ∃ app, frame.appHint = some app ∧ Text.isBlank app = false :=
  ⟨segment_nodup lowercase order taxonomy params hids, fun _ hx => segment_owned_mem hx⟩

/-- A blank hint between two sightings of one app. -/
def threeFrames : List SegmenterFrame :=
  [ { id := 1, capturedAt := 0, appHint := some "Code", windowTitle := none, browserUrl := none },
    { id := 2, capturedAt := 1000, appHint := some " ", windowTitle := none, browserUrl := none },
    { id := 3, capturedAt := 2000, appHint := some "code", windowTitle := none,
      browserUrl := none } ]

/-- A segmentation that keeps everything. -/
def keepAll : SegmentationParams :=
  { SegmentationParams.shipped 3000 300000 0 with focusMinLenMs := 0, focusMinDensityFph := 0 }

theorem draft_ownership_threeFrames :
    (ownedIds (segmentWithTaxonomy id .stored threeFrames ⟨3, []⟩ keepAll)).Nodup ∧
      ∀ x ∈ ownedIds (segmentWithTaxonomy id .stored threeFrames ⟨3, []⟩ keepAll),
        ∃ frame ∈ threeFrames, frame.id = x ∧
          ∃ app, frame.appHint = some app ∧ Text.isBlank app = false :=
  draft_ownership id .stored threeFrames ⟨3, []⟩ keepAll (by decide)

example : (segmentWithTaxonomy id .stored threeFrames ⟨3, []⟩ keepAll).map
    (fun draft => (draft.contextKey, draft.startedAt, draft.endedAt, draft.frameIds)) =
    [("focus:code", 0, 2000, [1, 3])] := by decide +kernel

end ScreenSearch.Sessions
