import ScreenSearch.Sessions.Ownership

/-!
# Invariants of the walk

A `TrackRule` is a property of tracks (and one of ramps) that opening, extending
and prepending keep. `Walk.Keeps` says that every track of a walk has it and that
every draft the walk has added comes from a track that has it; `walk_keeps` is
the induction over the walk, done once for every such property.

Main results:

* `walk_keeps`, `finishWalk_keeps` — a track rule holds along a whole walk;
* `boundedRule` — tracks stay inside any interval that holds their spans, and
  own at least one frame.
-/

namespace ScreenSearch.Sessions

open Assoc Sorting

/-- What the operations on tracks keep, given what is known of the spans. -/
structure TrackRule (S : MicroSpan → Prop) (R : Ramp → Prop) (T : OpenTrack → Prop) : Prop where
  newAi : ∀ span id host, S span → T (OpenTrack.newAi span id host)
  newFocus : ∀ span, S span → T (OpenTrack.newFocus span)
  absorbAi : ∀ track span, T track → S span → T (track.absorbAi span)
  absorbNone : ∀ track span, T track → S span → T (track.absorbNone span)
  prependRamp : ∀ track ramp, T track → R ramp → T (track.prependRamp ramp)
  rampNew : ∀ span, S span → R (Ramp.add none span)
  rampAdd : ∀ ramp span, R ramp → S span → R (Ramp.add (some ramp) span)

variable {order : HashOrder} {params : SegmentationParams}
variable {S : MicroSpan → Prop} {R : Ramp → Prop} {T : OpenTrack → Prop}

/-- Every track has the property, and the drafts after `before` come from tracks
that have it. -/
structure Tracks.Keeps (order : HashOrder) (params : SegmentationParams)
    (T : OpenTrack → Prop) (before : List SessionDraft) (t : Tracks) : Prop where
  tracks : ∀ id track, t.tracks.lookup id = some track → T track
  focus : ∀ track, t.focus = some track → T track
  out : ∃ extra, t.out = before ++ extra ∧ ∀ draft ∈ extra, ∃ track closedByGap,
    T track ∧ finalizeTrack order track closedByGap params = some draft

structure Walk.Keeps (order : HashOrder) (params : SegmentationParams) (S : MicroSpan → Prop)
    (T : OpenTrack → Prop) (before : List SessionDraft) (w : Walk) : Prop where
  toTracks : w.toTracks.Keeps order params T before
  pending : ∀ span ∈ w.pending, S span

variable {before : List SessionDraft}

theorem Tracks.Keeps.insert {t : Tracks} (h : t.Keeps order params T before) {track : OpenTrack}
    (htrack : T track) (id : String) :
    Tracks.Keeps order params T before { t with tracks := t.tracks.insert id track } where
  tracks := by
    intro other found hlookup
    by_cases heq : other = id
    · subst heq
      rw [AList.lookup_insert] at hlookup
      cases hlookup
      exact htrack
    · rw [AList.lookup_insert_ne heq] at hlookup
      exact h.tracks other found hlookup
  focus := h.focus
  out := h.out

theorem Tracks.Keeps.finalize {t : Tracks} (h : t.Keeps order params T before)
    {track : OpenTrack} (htrack : T track) (closedByGap : Bool) :
    (t.finalize order params track closedByGap).Keeps order params T before where
  tracks := h.tracks
  focus := h.focus
  out := by
    obtain ⟨extra, hout, hextra⟩ := h.out
    refine ⟨extra ++ (finalizeTrack order track closedByGap params).toList, ?_, ?_⟩
    · rw [Tracks.finalize, hout, List.append_assoc]
    · intro draft hdraft
      rcases List.mem_append.mp hdraft with hin | hnew
      · exact hextra draft hin
      · exact ⟨track, closedByGap, htrack, Option.mem_toList.mp hnew⟩

theorem extendOrOpenFocus_keeps (rule : TrackRule S R T) {t : Tracks}
    (h : t.Keeps order params T before) {span : MicroSpan} (hspan : S span) :
    (extendOrOpenFocus order params t span).Keeps order params T before := by
  have hnew : T (OpenTrack.newFocus span) := rule.newFocus span hspan
  rw [extendOrOpenFocus]
  cases hfocus : t.focus with
  | none =>
    refine ⟨h.tracks, fun track htrack => ?_, h.out⟩
    cases htrack
    exact hnew
  | some track =>
    have htrack : T track := h.focus track hfocus
    dsimp only
    split
    · have hfinal := h.finalize htrack true
      refine ⟨hfinal.tracks, fun other hother => ?_, hfinal.out⟩
      cases hother
      exact hnew
    · refine ⟨h.tracks, fun other hother => ?_, h.out⟩
      cases hother
      exact rule.absorbNone track span htrack hspan

theorem flushSpan_keeps (rule : TrackRule S R T) (rampStart : Option Int)
    {state : Option Ramp × Tracks} (h : state.2.Keeps order params T before)
    (hramp : ∀ ramp, state.1 = some ramp → R ramp) {span : MicroSpan} (hspan : S span) :
    (flushSpan order params rampStart state span).2.Keeps order params T before ∧
      ∀ ramp, (flushSpan order params rampStart state span).1 = some ramp → R ramp := by
  rw [flushSpan]
  split
  · rename_i id _
    split
    · rename_i track hlookup
      exact ⟨h.insert (rule.absorbNone track span (h.tracks id track hlookup) hspan) id, hramp⟩
    · exact ⟨h, hramp⟩
  · split
    · refine ⟨h, fun ramp hsome => ?_⟩
      cases hsome
      cases hstate : state.1 with
      | none => exact rule.rampNew span hspan
      | some ramp => exact rule.rampAdd ramp span (hramp ramp hstate) hspan
    · exact ⟨extendOrOpenFocus_keeps rule h hspan, hramp⟩

theorem flushPending_keeps (rule : TrackRule S R T) (rampStart : Option Int) {w : Walk}
    (h : w.Keeps order params S T before) :
    (flushPending order params rampStart w).2.Keeps order params S T before ∧
      ∀ ramp, (flushPending order params rampStart w).1 = some ramp → R ramp := by
  have hfold : ∀ (spans : List MicroSpan) (state : Option Ramp × Tracks),
      (∀ span ∈ spans, S span) → state.2.Keeps order params T before →
      (∀ ramp, state.1 = some ramp → R ramp) →
      (spans.foldl (flushSpan order params rampStart) state).2.Keeps order params T before ∧
        ∀ ramp, (spans.foldl (flushSpan order params rampStart) state).1 = some ramp →
          R ramp := by
    intro spans
    induction spans with
    | nil => exact fun _ _ hstate hramp => ⟨hstate, hramp⟩
    | cons span spans ih =>
      intro state hspans hstate hramp
      have hstep := flushSpan_keeps rule rampStart hstate hramp
        (hspans span (List.mem_cons_self ..))
      exact ih _ (fun s hs => hspans s (List.mem_cons_of_mem _ hs)) hstep.1 hstep.2
  have hend := hfold w.pending (none, w.toTracks) h.pending h.toTracks (by simp)
  exact ⟨⟨hend.1, by simp [flushPending]⟩, hend.2⟩

theorem flushStale_keeps (rule : TrackRule S R T) {w : Walk}
    (h : w.Keeps order params S T before) (span : MicroSpan) :
    (flushStale order params w span).Keeps order params S T before := by
  rw [flushStale]
  split
  · exact (flushPending_keeps rule none h).1
  · exact h

theorem closeGapped_keeps {w : Walk} (h : w.Keeps order params S T before) (id : String)
    (span : MicroSpan) : (closeGapped order params w id span).Keeps order params S T before := by
  rw [closeGapped]
  split
  · rename_i track hlookup
    split
    · have herase : Tracks.Keeps order params T before
          { w.toTracks with tracks := w.tracks.erase id } := by
        refine ⟨fun other found herased => ?_, h.toTracks.focus, h.toTracks.out⟩
        by_cases heq : other = id
        · subst heq
          rw [AList.lookup_erase] at herased
          cases herased
        · rw [AList.lookup_erase_ne heq] at herased
          exact h.toTracks.tracks other found herased
      exact ⟨herase.finalize (h.toTracks.tracks id track hlookup) true, h.pending⟩
    · exact h
  · exact h

theorem walkAi_keeps (rule : TrackRule S R T) {w : Walk} (h : w.Keeps order params S T before)
    (id : String) {span : MicroSpan} (hspan : S span) :
    (walkAi order params w id span).Keeps order params S T before := by
  rw [walkAi]
  dsimp only
  have hclose := closeGapped_keeps h id span
  generalize closeGapped order params w id span = w₁ at hclose ⊢
  generalize (if (w₁.tracks.lookup id).isSome then none else some span.firstTs) = rampStart
  obtain ⟨hflush, hramp⟩ := flushPending_keeps rule rampStart hclose
  generalize flushPending order params rampStart w₁ = flushed at hflush hramp ⊢
  obtain ⟨ramp, w₂⟩ := flushed
  have hnew := rule.newAi span id (span.recognition.bind Recognized.host) hspan
  dsimp only at hflush hramp ⊢
  cases hlookup : w₂.tracks.lookup id with
  | some track =>
    have htrack := rule.absorbAi track span (hflush.toTracks.tracks id track hlookup) hspan
    exact ⟨hflush.toTracks.insert htrack id, hflush.pending⟩
  | none =>
    cases ramp with
    | none => exact ⟨hflush.toTracks.insert hnew id, hflush.pending⟩
    | some ramp =>
      have htrack := rule.prependRamp _ ramp hnew (hramp ramp rfl)
      exact ⟨hflush.toTracks.insert htrack id, hflush.pending⟩

theorem walkNone_keeps (rule : TrackRule S R T) {w : Walk} (h : w.Keeps order params S T before)
    {span : MicroSpan} (hspan : S span) :
    (walkNone order params w span).Keeps order params S T before := by
  rw [walkNone]
  split
  · have hflush := (flushPending_keeps rule none h).1
    exact ⟨extendOrOpenFocus_keeps rule hflush.toTracks hspan, hflush.pending⟩
  · refine ⟨h.toTracks, fun other hother => ?_⟩
    rcases List.mem_append.mp hother with hin | hnew
    · exact h.pending other hin
    · rw [List.mem_singleton.mp hnew]
      exact hspan

theorem walkSpan_keeps (rule : TrackRule S R T) {w : Walk} (h : w.Keeps order params S T before)
    {span : MicroSpan} (hspan : S span) :
    (walkSpan order params w span).Keeps order params S T before := by
  have hstale := flushStale_keeps rule h span
  rw [walkSpan]
  split
  · exact walkAi_keeps rule hstale _ hspan
  · exact walkNone_keeps rule hstale hspan

/-- A track rule holds along a whole walk. -/
theorem walk_keeps (rule : TrackRule S R T) {w : Walk} (h : w.Keeps order params S T before)
    {spans : List MicroSpan} (hspans : ∀ span ∈ spans, S span) :
    (spans.foldl (walkSpan order params) w).Keeps order params S T before := by
  induction spans generalizing w with
  | nil => exact h
  | cons span spans ih =>
    rw [List.foldl_cons]
    exact ih (walkSpan_keeps rule h (hspans span (List.mem_cons_self ..)))
      fun s hs => hspans s (List.mem_cons_of_mem _ hs)

theorem initial_keeps (out : List SessionDraft) :
    Walk.Keeps order params S T out { Walk.initial with out := out } where
  toTracks := ⟨by simp [Walk.initial], by simp [Walk.initial], [], by simp, by simp⟩
  pending := by simp [Walk.initial]

/-- What a finished walk has added comes from tracks that keep the rule. -/
theorem finishWalk_keeps (rule : TrackRule S R T) {w : Walk}
    (h : w.Keeps order params S T before) :
    ∃ extra, finishWalk order params w = before ++ extra ∧ ∀ draft ∈ extra,
      ∃ track closedByGap, T track ∧ finalizeTrack order track closedByGap params = some draft := by
  have hflush := (flushPending_keeps rule none h).1.toTracks
  obtain ⟨extra, hout, hextra⟩ := hflush.out
  rw [finishWalk, hout]
  refine ⟨_, by rw [List.append_assoc, List.append_assoc], fun draft hdraft => ?_⟩
  rcases List.mem_append.mp hdraft with hin | hopen
  · exact hextra draft hin
  · rcases List.mem_append.mp hopen with htracks | hfocus
    · obtain ⟨entry, hentry, hfinal⟩ := List.mem_filterMap.mp htracks
      exact ⟨entry.2, false, hflush.tracks entry.1 entry.2 (HashOrder.mem_entries.mp hentry),
        hfinal⟩
    · obtain ⟨track, htrack, hfinal⟩ := Option.bind_eq_some_iff.mp (Option.mem_toList.mp hfocus)
      exact ⟨track, false, hflush.focus track htrack, hfinal⟩

/-- The drafts of a segmentation: the bands, then drafts of tracks that keep the
rule. -/
theorem rawDrafts_keeps (rule : TrackRule S R T) (order : HashOrder)
    {micros : List MicroSpan} (params : SegmentationParams)
    (hspans : ∀ span ∈ micros, S span) :
    ∃ extra, rawDrafts order micros params =
        (buildBands order micros params).map (bandDraft params) ++ extra ∧
      ∀ draft ∈ extra, ∃ track closedByGap, T track ∧
        finalizeTrack order track closedByGap params = some draft :=
  finishWalk_keeps rule (walk_keeps rule (initial_keeps _)
    fun span hspan => hspans span (List.mem_of_mem_filter hspan))

/-! ## Bounds -/

/-- A span inside an interval, with frames. -/
structure MicroSpan.Within (lo hi : Int) (span : MicroSpan) : Prop where
  low : lo ≤ span.firstTs
  ordered : span.firstTs ≤ span.lastTs
  high : span.lastTs ≤ hi
  frames : span.frameIds ≠ []

structure OpenTrack.Within (lo hi : Int) (track : OpenTrack) : Prop where
  low : lo ≤ track.startMs
  ordered : track.startMs ≤ track.endMs
  high : track.endMs ≤ hi
  frames : track.frameIds ≠ []

theorem absorbNone_start (track : OpenTrack) (span : MicroSpan) :
    (track.absorbNone span).startMs = track.startMs := by
  rw [OpenTrack.absorbNone]
  split <;> rfl

theorem absorbNone_end (track : OpenTrack) (span : MicroSpan) :
    (track.absorbNone span).endMs = max track.endMs span.lastTs := by
  rw [OpenTrack.absorbNone]
  split <;> rfl

/-- Tracks stay inside every interval that holds the spans, and own a frame. -/
theorem boundedRule (lo hi : Int) :
    TrackRule (MicroSpan.Within lo hi) (fun ramp => lo ≤ ramp.startMs)
      (OpenTrack.Within lo hi) where
  newAi := by
    intro span id host h
    refine ⟨h.low, ?_, ?_, h.frames⟩ <;> simp only [OpenTrack.newAi] <;>
      have := h.ordered <;> have := h.high <;> omega
  newFocus := by
    intro span h
    refine ⟨h.low, ?_, ?_, h.frames⟩ <;> simp only [OpenTrack.newFocus, OpenTrack.accrueStem] <;>
      have := h.ordered <;> have := h.high <;> omega
  absorbAi := by
    intro track span ht h
    refine ⟨ht.low, ?_, ?_, by simp [ht.frames]⟩ <;>
      simp only [OpenTrack.absorbAi, OpenTrack.extend] <;>
      have := ht.ordered <;> have := ht.high <;> have := h.high <;> omega
  absorbNone := by
    intro track span ht h
    have := ht.ordered
    have := ht.high
    have := h.high
    refine ⟨?_, ?_, ?_, by simp [ht.frames]⟩ <;>
      simp only [absorbNone_start, absorbNone_end] <;> first | exact ht.low | omega
  prependRamp := by
    intro track ramp ht hramp
    have := ht.low
    have := ht.ordered
    refine ⟨?_, ?_, ht.high, by simp [ht.frames]⟩ <;> simp only [OpenTrack.prependRamp] <;>
      split <;> omega
  rampNew := by
    intro span h
    simpa [Ramp.add] using h.low
  rampAdd := by
    intro ramp span hramp h
    simpa [Ramp.add] using ⟨hramp, h.low⟩

/-- What `finalizeTrack` copies from the track. -/
theorem finalizeTrack_bounds {track : OpenTrack} {closedByGap : Bool} {draft : SessionDraft}
    (h : finalizeTrack order track closedByGap params = some draft) :
    draft.startedAt = track.startMs ∧ draft.endedAt = max track.endMs track.startMs ∧
      draft.frameIds = sortDedup track.frameIds := by
  rw [finalizeTrack] at h
  split at h
  · split at h
    · rw [← Option.some.inj h]
      exact ⟨rfl, rfl, rfl⟩
    · cases h
  · dsimp only at h
    split at h
    · rw [← Option.some.inj h]
      exact ⟨rfl, rfl, rfl⟩
    · cases h

theorem sortDedup_eq_nil {ids : List Int} : sortDedup ids = [] ↔ ids = [] := by
  rw [sortDedup, List.destutter_eq_nil]
  constructor
  · intro h
    have := List.perm_insertionSort (· ≤ ·) ids
    rw [h] at this
    exact this.nil_eq.symm
  · rintro rfl
    rfl

theorem mem_sortDedup {x : Int} {ids : List Int} : x ∈ sortDedup ids ↔ x ∈ ids := by
  have hSorted : (ids.insertionSort (· ≤ ·)).Pairwise (· ≤ ·) := List.pairwise_insertionSort _ ids
  unfold sortDedup
  rw [hSorted.destutter_eq_dedup, List.mem_dedup, (List.perm_insertionSort _ ids).mem_iff]

/-- A draft of a bounded track is bounded, and owns a frame. -/
theorem finalizeTrack_within {lo hi : Int} {track : OpenTrack} {closedByGap : Bool}
    {draft : SessionDraft} (htrack : track.Within lo hi)
    (h : finalizeTrack order track closedByGap params = some draft) :
    lo ≤ draft.startedAt ∧ draft.startedAt ≤ draft.endedAt ∧ draft.endedAt ≤ hi ∧
      draft.frameIds ≠ [] := by
  obtain ⟨hstart, hend, hids⟩ := finalizeTrack_bounds h
  rw [hstart, hend, hids, Ne, sortDedup_eq_nil]
  have := htrack.ordered
  have := htrack.high
  exact ⟨htrack.low, by omega, by omega, htrack.frames⟩

end ScreenSearch.Sessions
