import ScreenSearch.Sessions.Simulation

/-!
# Nothing is lost

When no gate filters anything, a frame that comes in also goes out. The counts of
`Ownership` bound what the drafts own from above; here the same stages are
followed from below: where `x` stood before a step, in a track, a ramp, a pending
span or a draft, it stands somewhere after it.

Main results:

* `walk_holds`, `finishWalk_holds` — a walk keeps what it reads;
* `frame_retained` — every frame that names an app is owned by exactly one draft.
-/

namespace ScreenSearch.Sessions

open Assoc Sorting

/-- Parameters whose gates let everything pass. -/
structure NothingFiltered (params : SegmentationParams) : Prop where
  minLen : params.minLenMs ≤ 0
  identityQualify : params.identityQualifyMs ≤ 0
  focusMinLen : params.focusMinLenMs ≤ 0
  focusMinDensity : params.focusMinDensityFph ≤ 0

/-- The time a track has spent on its identity. -/
def OpenTrack.Counted (track : OpenTrack) : Prop := 0 ≤ track.aiPresenceMs

theorem duration_nonneg (span : MicroSpan) : 0 ≤ duration span := le_max_right _ _

theorem countedRule : TrackRule (fun _ => True) (fun _ => True) OpenTrack.Counted where
  newAi span _ _ _ := duration_nonneg span
  newFocus _ _ := le_rfl
  absorbAi track span h _ := by
    show 0 ≤ track.aiPresenceMs + duration span
    exact add_nonneg h (duration_nonneg span)
  absorbNone track span h _ := by
    unfold OpenTrack.absorbNone
    dsimp only
    split <;> exact h
  prependRamp _ _ h _ := h
  rampNew _ _ := trivial
  rampAdd _ _ _ _ := trivial

/-! ## Closing a track -/

variable (order : HashOrder) {params : SegmentationParams} (x : Int)

/-- A closed track becomes a draft with its frames. -/
theorem finalizeTrack_holds (hParams : NothingFiltered params) {track : OpenTrack}
    (hTrack : track.Counted) (closedByGap : Bool) (h : 0 < track.held x) :
    0 < (ownedIds (finalizeTrack order track closedByGap params).toList).count x := by
  have hMem : x ∈ sortDedup track.frameIds := mem_sortDedup.mpr (List.count_pos_iff.mp h)
  have hMin := hParams.minLen
  have hQualify := hParams.identityQualify
  have hFocus := hParams.focusMinLen
  have hCounted : 0 ≤ track.aiPresenceMs := hTrack
  unfold finalizeTrack
  cases track.aiId with
  | some id =>
    dsimp only
    rw [if_pos ⟨by omega, by omega⟩]
    exact List.count_pos_iff.mpr (by simpa [ownedIds] using hMem)
  | none =>
    dsimp only
    rw [if_pos ⟨by omega, Or.inl hParams.focusMinDensity⟩]
    exact List.count_pos_iff.mpr (by simpa [ownedIds] using hMem)

/-! ## The walk -/

variable {order} {before : List SessionDraft}

theorem extendOrOpenFocus_holds (hParams : NothingFiltered params) {t : Tracks}
    (hKeeps : t.Keeps order params OpenTrack.Counted before) (span : MicroSpan)
    (h : 0 < t.held x + span.frameIds.count x) :
    0 < (extendOrOpenFocus order params t span).held x := by
  unfold extendOrOpenFocus
  cases hFocus : t.focus with
  | none =>
    simp only [Tracks.held, OpenTrack.held, hFocus, newFocus_frameIds, Option.map_some,
      Option.map_none, Option.getD_some, Option.getD_none] at h ⊢
    omega
  | some track =>
    dsimp only
    split
    · have hDraft := finalizeTrack_holds order x hParams
        (hKeeps.focus track hFocus) true
      simp only [Tracks.held, Tracks.finalize, OpenTrack.held, hFocus, newFocus_frameIds,
        ownedIds_append, List.count_append, Option.map_some, Option.getD_some] at h hDraft ⊢
      omega
    · simp only [Tracks.held, OpenTrack.held, hFocus, absorbNone_frameIds, List.count_append,
        Option.map_some, Option.getD_some] at h ⊢
      omega

theorem flushSpan_holds (hParams : NothingFiltered params) (rampStart : Option Int)
    {state : Option Ramp × Tracks} (hKeeps : state.2.Keeps order params OpenTrack.Counted before)
    (span : MicroSpan) (h : 0 < rampHeld x state.1 + state.2.held x + span.frameIds.count x) :
    0 < rampHeld x (flushSpan order params rampStart state span).1 +
      (flushSpan order params rampStart state span).2.held x := by
  unfold flushSpan
  cases hTouched : lastTouched order params state.2.tracks span with
  | some id =>
    obtain ⟨track, hLookup⟩ := lastTouched_lookup order params hTouched
    have hInsert := weight_insert (OpenTrack.held x) state.2.tracks id (track.absorbNone span)
    rw [weightAt_of_some hLookup] at hInsert
    simp only [hLookup, Tracks.held, OpenTrack.held, absorbNone_frameIds,
      List.count_append] at hInsert h ⊢
    omega
  | none =>
    dsimp only
    split
    · cases hRamp : state.1 with
      | none =>
        simp only [hRamp, rampHeld, Ramp.add, Option.map_some, Option.map_none, Option.getD_some,
          Option.getD_none, List.nil_append] at h ⊢
        omega
      | some ramp =>
        simp only [hRamp, rampHeld, Ramp.add, Option.map_some, Option.getD_some,
          List.count_append] at h ⊢
        omega
    · have hFocus := extendOrOpenFocus_holds x hParams hKeeps span
      dsimp only
      omega

theorem flushPending_holds (hParams : NothingFiltered params) (rampStart : Option Int) {w : Walk}
    (hKeeps : w.Keeps order params (fun _ => True) OpenTrack.Counted before) (h : 0 < w.held x) :
    0 < rampHeld x (flushPending order params rampStart w).1 +
      (flushPending order params rampStart w).2.held x := by
  have hFold : ∀ (spans : List MicroSpan) (state : Option Ramp × Tracks),
      state.2.Keeps order params OpenTrack.Counted before →
      0 < rampHeld x state.1 + state.2.held x + spansHeld x spans →
      0 < rampHeld x (spans.foldl (flushSpan order params rampStart) state).1 +
        (spans.foldl (flushSpan order params rampStart) state).2.held x := by
    intro spans
    induction spans with
    | nil => exact fun _ _ hState => hState
    | cons span spans ih =>
      intro state hState hPos
      rw [spansHeld_cons] at hPos
      rw [List.foldl_cons]
      refine ih _ (flushSpan_keeps countedRule rampStart hState (by simp) trivial).1 ?_
      have hStep := flushSpan_holds x hParams rampStart hState span
      omega
  have hEnd := hFold w.pending (none, w.toTracks) hKeeps.toTracks
  unfold Walk.held at h
  simp only [flushPending, Walk.held, spansHeld_nil, rampHeld, Option.map_none,
    Option.getD_none] at hEnd ⊢
  omega

/-- Without a track about to start there is no ramp. -/
theorem flushPending_noRamp (w : Walk) : (flushPending order params none w).1 = none := by
  unfold flushPending
  dsimp only
  generalize w.toTracks = t
  induction w.pending generalizing t with
  | nil => rfl
  | cons p pending ih =>
    rw [List.foldl_cons]
    have hState : (flushSpan order params none (none, t) p).1 = none := by
      unfold flushSpan
      split
      · split <;> rfl
      · rfl
    generalize flushSpan order params none (none, t) p = state at hState ⊢
    obtain ⟨ramp, t'⟩ := state
    obtain rfl : ramp = none := hState
    exact ih t'

theorem flushPending_none_holds (hParams : NothingFiltered params) {w : Walk}
    (hKeeps : w.Keeps order params (fun _ => True) OpenTrack.Counted before) (h : 0 < w.held x) :
    0 < (flushPending order params none w).2.held x := by
  have hFlush := flushPending_holds x hParams none hKeeps h
  rw [flushPending_noRamp] at hFlush
  simpa [rampHeld] using hFlush

theorem flushStale_holds (hParams : NothingFiltered params) {w : Walk}
    (hKeeps : w.Keeps order params (fun _ => True) OpenTrack.Counted before) (span : MicroSpan)
    (h : 0 < w.held x) : 0 < (flushStale order params w span).held x := by
  unfold flushStale
  split
  · exact flushPending_none_holds x hParams hKeeps h
  · exact h

theorem closeGapped_holds (hParams : NothingFiltered params) {w : Walk}
    (hKeeps : w.Keeps order params (fun _ => True) OpenTrack.Counted before) (id : String)
    (span : MicroSpan) (h : 0 < w.held x) : 0 < (closeGapped order params w id span).held x := by
  unfold closeGapped
  cases hLookup : w.tracks.lookup id with
  | none => exact h
  | some track =>
    dsimp only
    split
    · have hDraft := finalizeTrack_holds order x hParams
        (hKeeps.toTracks.tracks id track hLookup) true
      have hErase := weight_erase (OpenTrack.held x) w.tracks id
      rw [weightAt_of_some hLookup] at hErase
      simp only [Walk.held, Tracks.held, Tracks.finalize, OpenTrack.held, ownedIds_append,
        List.count_append] at hErase hDraft h ⊢
      omega
    · exact h

theorem walkAi_holds (hParams : NothingFiltered params) {w : Walk}
    (hKeeps : w.Keeps order params (fun _ => True) OpenTrack.Counted before) (id : String)
    (span : MicroSpan) (h : 0 < w.held x + span.frameIds.count x) :
    0 < (walkAi order params w id span).held x := by
  unfold walkAi
  dsimp only
  have hClose := closeGapped_holds x hParams hKeeps id span
  have hKeepsClose := closeGapped_keeps hKeeps id span
  generalize closeGapped order params w id span = w₁ at hClose hKeepsClose ⊢
  cases hOpen : w₁.tracks.lookup id with
  | some track =>
    have hFlush := flushPending_none_holds x hParams hKeepsClose
    have hSome := flushPending_lookup_isSome order params none w₁ id
    rw [hOpen, Option.isSome_some] at hSome
    simp only [Option.isSome_some, if_true]
    generalize flushPending order params none w₁ = flushed at hFlush hSome ⊢
    obtain ⟨ramp, w₂⟩ := flushed
    obtain ⟨found, hFound⟩ := Option.isSome_iff_exists.mp hSome
    dsimp only at hFlush hFound ⊢
    have hInsert := weight_insert (OpenTrack.held x) w₂.tracks id (found.absorbAi span)
    rw [weightAt_of_some hFound] at hInsert
    simp only [hFound, Walk.held, Tracks.held, OpenTrack.held, absorbAi_frameIds,
      List.count_append] at hInsert hFlush hClose h ⊢
    omega
  | none =>
    have hFlush := flushPending_holds x hParams (some span.firstTs) hKeepsClose
    have hNone := flushPending_lookup_isSome order params (some span.firstTs) w₁ id
    rw [hOpen, Option.isSome_none] at hNone
    simp only [Option.isSome_none, Bool.false_eq_true, if_false]
    generalize flushPending order params (some span.firstTs) w₁ = flushed at hFlush hNone ⊢
    obtain ⟨ramp, w₂⟩ := flushed
    dsimp only at hFlush hNone ⊢
    have hLookup : w₂.tracks.lookup id = none := Option.isNone_iff_eq_none.mp (by
      rw [← Option.not_isSome, hNone]
      rfl)
    -- the ramp goes in front of the new track
    cases ramp with
    | none =>
      have hInsert := weight_insert (OpenTrack.held x) w₂.tracks id
        (OpenTrack.newAi span id (span.recognition.bind Recognized.host))
      rw [weightAt_of_none hLookup] at hInsert
      simp only [hLookup, Walk.held, Tracks.held, OpenTrack.held, newAi_frameIds, rampHeld,
        Option.map_none, Option.getD_none] at hInsert hFlush hClose h ⊢
      omega
    | some ramp =>
      have hInsert := weight_insert (OpenTrack.held x) w₂.tracks id
        ((OpenTrack.newAi span id (span.recognition.bind Recognized.host)).prependRamp ramp)
      rw [weightAt_of_none hLookup] at hInsert
      simp only [hLookup, Walk.held, Tracks.held, OpenTrack.held, prependRamp_frameIds,
        newAi_frameIds, rampHeld, Option.map_some, Option.getD_some,
        List.count_append] at hInsert hFlush hClose h ⊢
      omega

theorem walkNone_holds (hParams : NothingFiltered params) {w : Walk}
    (hKeeps : w.Keeps order params (fun _ => True) OpenTrack.Counted before) (span : MicroSpan)
    (h : 0 < w.held x + span.frameIds.count x) : 0 < (walkNone order params w span).held x := by
  unfold walkNone
  split
  · have hFlush := flushPending_none_holds x hParams hKeeps
    have hFocus := extendOrOpenFocus_holds x hParams
      (flushPending_keeps countedRule none hKeeps).1.toTracks span
    simp only [Walk.held] at hFlush hFocus h ⊢
    omega
  · simp only [Walk.held, spansHeld_append, spansHeld_cons, spansHeld_nil] at h ⊢
    omega

/-- One step keeps what the walk held and what the span brings. -/
theorem walkSpan_holds (hParams : NothingFiltered params) {w : Walk}
    (hKeeps : w.Keeps order params (fun _ => True) OpenTrack.Counted before) (span : MicroSpan)
    (h : 0 < w.held x + span.frameIds.count x) : 0 < (walkSpan order params w span).held x := by
  have hStale := flushStale_holds x hParams hKeeps span
  have hKeepsStale := flushStale_keeps countedRule hKeeps span
  unfold walkSpan
  dsimp only
  split
  · rename_i id _
    exact walkAi_holds x hParams hKeepsStale id span (by omega)
  · exact walkNone_holds x hParams hKeepsStale span (by omega)

/-- A whole walk keeps what it reads. -/
theorem walk_holds (hParams : NothingFiltered params) (spans : List MicroSpan) {w : Walk}
    (hKeeps : w.Keeps order params (fun _ => True) OpenTrack.Counted before)
    (h : 0 < w.held x + spansHeld x spans) :
    0 < (spans.foldl (walkSpan order params) w).held x := by
  induction spans generalizing w with
  | nil => exact h
  | cons span spans ih =>
    rw [spansHeld_cons] at h
    have hStep := walkSpan_holds x hParams hKeeps span
    exact ih (walkSpan_keeps countedRule hKeeps trivial) (by omega)

/-- What the walk holds at its end goes into the drafts. -/
theorem finishWalk_holds (hParams : NothingFiltered params) {w : Walk}
    (hKeeps : w.Keeps order params (fun _ => True) OpenTrack.Counted before) (h : 0 < w.held x) :
    0 < (ownedIds (finishWalk order params w)).count x := by
  have hFlush := flushPending_none_holds x hParams hKeeps h
  have hTracks := (flushPending_keeps countedRule none hKeeps).1.toTracks
  have hPending : (flushPending order params none w).2.pending = [] := rfl
  unfold finishWalk
  generalize (flushPending order params none w).2 = w₁ at hFlush hTracks hPending ⊢
  have hEntries : ∀ entries : List (Σ _ : String, OpenTrack),
      (∀ entry ∈ entries, entry.2.Counted) →
      0 < (entries.map fun entry => entry.2.held x).sum →
      0 < (ownedIds (entries.filterMap fun entry =>
        finalizeTrack order entry.2 false params)).count x := by
    intro entries
    induction entries with
    | nil => exact fun _ hPos => hPos
    | cons entry entries ih =>
      intro hCounted hPos
      have hDraft := finalizeTrack_holds order x hParams
        (hCounted entry (List.mem_cons_self ..)) false
      have hRest := ih fun e he => hCounted e (List.mem_cons_of_mem _ he)
      rw [List.map_cons, List.sum_cons] at hPos
      have hSplit : (ownedIds ((entry :: entries).filterMap fun entry =>
          finalizeTrack order entry.2 false params)).count x =
          (ownedIds (finalizeTrack order entry.2 false params).toList).count x +
            (ownedIds (entries.filterMap fun entry =>
              finalizeTrack order entry.2 false params)).count x := by
        rw [← List.count_append, ← ownedIds_append]
        cases hFinal : finalizeTrack order entry.2 false params <;>
          simp [hFinal]
      rw [hSplit]
      omega
  have hOpen := hEntries (order.entries w₁.tracks) fun entry hEntry =>
    hTracks.tracks entry.1 entry.2 (HashOrder.mem_entries.mp hEntry)
  rw [weight_entries order (OpenTrack.held x)] at hOpen
  have hFocus : 0 < (w₁.focus.map (OpenTrack.held x)).getD 0 →
      0 < (ownedIds (w₁.focus.bind fun track =>
        finalizeTrack order track false params).toList).count x := by
    cases hCase : w₁.focus with
    | none => exact id
    | some track => exact finalizeTrack_holds order x hParams (hTracks.focus track hCase) false
  simp only [ownedIds_append, List.count_append, Walk.held, Tracks.held, hPending,
    spansHeld_nil] at hFlush ⊢
  omega

/-! ## From frames to drafts -/

theorem bandDrafts_holds (params : SegmentationParams) (bands : List Band)
    (h : 0 < bandsHeld x bands) :
    0 < (ownedIds (bands.map (bandDraft params))).count x := by
  obtain ⟨band, hBand, hIn⟩ := List.mem_flatMap.mp (List.count_pos_iff.mp h)
  refine List.count_pos_iff.mpr (List.mem_flatMap.mpr ⟨bandDraft params band, ?_, ?_⟩)
  · exact List.mem_map_of_mem hBand
  · exact mem_sortDedup.mpr hIn

theorem rawDrafts_holds (hParams : NothingFiltered params) (order : HashOrder)
    (micros : List MicroSpan) (h : 0 < spansHeld x micros) :
    0 < (ownedIds (rawDrafts order micros params)).count x := by
  set bands := buildBands order micros params with hBands
  have hSplit := band_split x micros (buildBands_extent order micros params).symm
  rw [emptyBands_held, ← buildBands, ← hBands] at hSplit
  have hDrafts := bandDrafts_holds x params bands
  have hInitial : Walk.Keeps order params (fun _ => True) OpenTrack.Counted
      (bands.map (bandDraft params))
      { Walk.initial with out := bands.map (bandDraft params) } := initial_keeps _
  have hWalk := walk_holds x hParams (freeSpans micros bands) hInitial
  simp only [Walk.held, Tracks.held, Walk.initial, weight_empty, Option.map_none,
    Option.getD_none, spansHeld_nil] at hWalk
  unfold rawDrafts
  refine finishWalk_holds x hParams (walk_keeps countedRule hInitial fun _ _ => trivial) ?_
  unfold Walk.held Tracks.held
  exact hWalk (by omega)

/-- A frame that names an app has a context. -/
theorem isSome_contextOf {lowercase : String → String} {frame : SegmenterFrame}
    (taxonomy : Taxonomy) {app : String} (hApp : frame.appHint = some app)
    (hNamed : Text.isBlank app = false) : (contextOf lowercase frame taxonomy).isSome := by
  rw [← Text.trim_isEmpty] at hNamed
  have hTrim : Text.trim app ≠ "" := by
    intro hBlank
    rw [hBlank] at hNamed
    cases hNamed
  unfold contextOf
  simp [hApp, hTrim]

/-- When nothing is filtered, every frame that names an app is owned by exactly one
draft. -/
theorem frame_retained (lowercase : String → String) (order : HashOrder)
    (frames : List SegmenterFrame) (taxonomy : Taxonomy) (params : SegmentationParams)
    (hIds : (frames.map SegmenterFrame.id).Nodup) (hParams : NothingFiltered params) :
    ∀ frame ∈ frames, ∀ app, frame.appHint = some app → Text.isBlank app = false →
      (ownedIds (segmentWithTaxonomy lowercase order frames taxonomy params)).count frame.id = 1 := by
  intro frame hFrame app hApp hNamed
  set micros := segmentMicro lowercase order frames taxonomy params with hMicros
  have hPerm := segmentMicro_frameIds_perm lowercase order frames taxonomy params
  have hKeyed : frame.id ∈ keyedIds lowercase frames taxonomy :=
    mem_keyedIds.mpr ⟨frame, hFrame, isSome_contextOf taxonomy hApp hNamed, rfl⟩
  have hIn : 0 < spansHeld frame.id micros := List.count_pos_iff.mpr (hPerm.mem_iff.mpr hKeyed)
  have hOut := rawDrafts_holds frame.id hParams order micros hIn
  have hAtMost := rawDrafts_count order micros params frame.id
  have hOnce : spansHeld frame.id micros ≤ 1 :=
    List.nodup_iff_count_le_one.mp (hPerm.nodup_iff.mpr (keyedIds_nodup hIds)) frame.id
  rw [(segment_owned_perm lowercase order frames taxonomy params).count_eq]
  show (ownedIds (rawDrafts order micros params)).count frame.id = 1
  omega

theorem frame_retained_threeFrames :
    (ownedIds (segmentWithTaxonomy id .stored threeFrames ⟨3, []⟩
      { keepAll with identityQualifyMs := 0 })).count 3 = 1 :=
  frame_retained id .stored threeFrames ⟨3, []⟩ { keepAll with identityQualifyMs := 0 }
    (by decide) ⟨by decide, by decide, by decide, by decide⟩
    { id := 3, capturedAt := 2000, appHint := some "code", windowTitle := none,
      browserUrl := none } (by decide) "code" rfl (by decide)

end ScreenSearch.Sessions
