import ScreenSearch.Sessions.Cut
import ScreenSearch.Sessions.Extent

/-!
# The walk in time

The walk reads its spans in time order, so every track it holds ends before the
spans still to come, and so does every draft it has closed. `Timed` states this
against three instants: drafts of AI tracks end by `base`, tracks and drafts end
by `low`, where the pending spans begin, and drafts are a merge gap older than
`now`, where the spans still to be read begin.

Main results:

* `walkSpan_timed`, `finishWalk_timed` — the invariant along the walk;
* `rawDrafts_timed` — a track's draft has the extent of its frames, and two
  drafts of one partition follow one another.
-/

namespace ScreenSearch.Sessions

open Assoc Sorting

/-- The partition of the tracks of an AI identity, or of the focus tracks. -/
def partitionName : Option String → String
  | some id => "ai:" ++ id
  | none => "focus"

theorem partitionName_inj {a b : Option String} (h : partitionName a = partitionName b) : a = b := by
  have hData := congrArg String.toList h
  cases a with
  | none =>
    cases b with
    | none => rfl
    | some id => simp [partitionName] at hData
  | some id =>
    cases b with
    | none => simp [partitionName] at hData
    | some other =>
      simp only [partitionName, String.toList_append, List.append_cancel_left_eq] at hData
      rw [String.toList_inj.mp hData]

/-- One draft after another, and ending later. -/
structure Precedes (d e : SessionDraft) : Prop where
  start : d.endedAt ≤ e.startedAt
  ending : d.endedAt < e.endedAt

/-- Drafts of one partition follow one another. -/
def TakeTurns (d e : SessionDraft) : Prop :=
  trackPartition d = trackPartition e → Precedes d e ∨ Precedes e d

variable {order : HashOrder} {params : SegmentationParams} {frames : List SegmenterFrame}

theorem finalizeTrack_partition {track : OpenTrack} {closedByGap : Bool} {draft : SessionDraft}
    (h : finalizeTrack order track closedByGap params = some draft) :
    trackPartition draft = partitionName track.aiId := by
  unfold finalizeTrack at h
  split at h
  · rename_i id hId
    dsimp only at h
    split at h
    · rw [← Option.some.inj h, hId]
      rfl
    · cases h
  · rename_i hNone
    dsimp only at h
    split at h
    · rw [← Option.some.inj h, hNone]
      rfl
    · cases h

/-! ## Open and closed tracks -/

/-- The open track of an AI identity, or the focus track. -/
def Tracks.openAt (t : Tracks) : Option String → Option OpenTrack
  | some id => t.tracks.lookup id
  | none => t.focus

structure OpenTrack.Timed (frames : List SegmenterFrame) (low : Int) (name : Option String)
    (track : OpenTrack) : Prop where
  name : track.aiId = name
  extent : Extent frames track.frameIds track.startMs track.endMs
  ending : track.endMs ≤ low

theorem OpenTrack.Timed.mono {low low' : Int} {name : Option String} {track : OpenTrack}
    (h : track.Timed frames low name) (hLow : low ≤ low') : track.Timed frames low' name :=
  ⟨h.name, h.extent, h.ending.trans hLow⟩

structure TimedDraft (params : SegmentationParams) (frames : List SegmenterFrame)
    (base low now : Int) (draft : SessionDraft) : Prop where
  name : ∃ name, trackPartition draft = partitionName name
  extent : Extent frames draft.frameIds draft.startedAt draft.endedAt
  base : trackPartition draft ≠ partitionName none → draft.endedAt ≤ base
  low : draft.endedAt ≤ low
  gap : draft.endedAt + params.mergeGapMs ≤ now

/-- The tracks and the drafts `extra` they have closed, after the drafts `before`. -/
structure Tracks.Timed (params : SegmentationParams) (frames : List SegmenterFrame)
    (before : List SessionDraft) (base low now : Int) (extra : List SessionDraft) (t : Tracks) :
    Prop where
  out : t.out = before ++ extra
  open_ : ∀ name track, t.openAt name = some track → track.Timed frames low name
  closed : ∀ draft ∈ extra, TimedDraft params frames base low now draft
  apart : extra.Pairwise fun d e => trackPartition d = trackPartition e → Precedes d e
  after : ∀ draft ∈ extra, ∀ name track, t.openAt name = some track →
    trackPartition draft = partitionName name →
      draft.endedAt ≤ track.startMs ∧ draft.endedAt < track.endMs
  focus : ∀ draft ∈ extra, trackPartition draft = partitionName none → t.focus.isSome

variable {before extra : List SessionDraft} {base low now base' low' now' : Int} {t t' : Tracks}

theorem Tracks.Timed.mono (h : t.Timed params frames before base low now extra)
    (hBase : base ≤ base') (hLow : low ≤ low') (hNow : now ≤ now') :
    t.Timed params frames before base' low' now' extra where
  out := h.out
  open_ name track hOpen := (h.open_ name track hOpen).mono hLow
  closed draft hDraft :=
    have hTimed := h.closed draft hDraft
    ⟨hTimed.name, hTimed.extent, fun hName => (hTimed.base hName).trans hBase,
      hTimed.low.trans hLow, hTimed.gap.trans hNow⟩
  apart := h.apart
  after := h.after
  focus := h.focus

/-- An open track is put in the place of another, or opened. -/
theorem Tracks.Timed.put (h : t.Timed params frames before base low now extra)
    {name : Option String} {track : OpenTrack} (hOut : t'.out = t.out)
    (hSelf : t'.openAt name = some track)
    (hOthers : ∀ other, other ≠ name → t'.openAt other = t.openAt other)
    (hTrack : track.Timed frames low' name) (hLow : low ≤ low')
    (hAfter : ∀ draft ∈ extra, trackPartition draft = partitionName name →
      draft.endedAt ≤ track.startMs ∧ draft.endedAt < track.endMs) :
    t'.Timed params frames before base low' now extra := by
  have hMono := h.mono le_rfl hLow le_rfl
  refine ⟨hOut.trans h.out, ?_, hMono.closed, h.apart, ?_, ?_⟩
  · intro other found hOpen
    by_cases heq : other = name
    · subst heq
      rw [hSelf] at hOpen
      cases hOpen
      exact hTrack
    · rw [hOthers other heq] at hOpen
      exact hMono.open_ other found hOpen
  · intro draft hDraft other found hOpen hName
    by_cases heq : other = name
    · subst heq
      rw [hSelf] at hOpen
      cases hOpen
      exact hAfter draft hDraft hName
    · rw [hOthers other heq] at hOpen
      exact h.after draft hDraft other found hOpen hName
  · intro draft hDraft hName
    show (t'.openAt none).isSome
    by_cases heq : none = name
    · rw [heq, hSelf]
      rfl
    · rw [hOthers none heq]
      exact h.focus draft hDraft hName

/-- A track that grows by a later span keeps its start. -/
theorem Tracks.Timed.grow (h : t.Timed params frames before base low now extra)
    {name : Option String} {old track : OpenTrack} {span : MicroSpan} (hOut : t'.out = t.out)
    (hOld : t.openAt name = some old) (hSelf : t'.openAt name = some track)
    (hOthers : ∀ other, other ≠ name → t'.openAt other = t.openAt other)
    (hName : track.aiId = old.aiId) (hStart : track.startMs = old.startMs)
    (hEnd : track.endMs = max old.endMs span.lastTs)
    (hFrames : track.frameIds = old.frameIds ++ span.frameIds)
    (hSpan : span.HasExtent frames) (hLow : low ≤ span.firstTs) :
    t'.Timed params frames before base span.lastTs now extra := by
  have hTimed := h.open_ name old hOld
  have hOldEnd := hTimed.ending
  have hSpanLe : span.firstTs ≤ span.lastTs := hSpan.le
  have hEnds : track.endMs = span.lastTs := by omega
  refine h.put hOut hSelf hOthers ⟨hName.trans hTimed.name, ?_, hEnds.le⟩ (by omega) ?_
  · rw [hFrames, hStart, hEnds]
    exact hTimed.extent.followed hSpan (by omega)
  · intro draft hDraft hPartition
    have hAfter := h.after draft hDraft name old hOld hPartition
    omega

/-- The draft of a track, after the drafts of its partition so far. -/
theorem closed_append (h : t.Timed params frames before base low now extra) {name : Option String}
    {track : OpenTrack} (hTrack : t.openAt name = some track)
    (hGap : track.endMs + params.mergeGapMs ≤ now) (hBase : name ≠ none → low ≤ base)
    {closedByGap : Bool} {draft : SessionDraft}
    (hDraft : finalizeTrack order track closedByGap params = some draft) :
    TimedDraft params frames base low now draft ∧ draft.endedAt = track.endMs ∧
      trackPartition draft = partitionName name ∧
      (extra ++ [draft]).Pairwise fun d e => trackPartition d = trackPartition e → Precedes d e := by
  have hTimed := h.open_ name track hTrack
  obtain ⟨hStart, hEnd, hIds⟩ := finalizeTrack_bounds hDraft
  have hLe := hTimed.extent.le
  have hEnd : draft.endedAt = track.endMs := by omega
  have hName : trackPartition draft = partitionName name := by
    rw [finalizeTrack_partition hDraft, hTimed.name]
  have hEnding := hTimed.ending
  refine ⟨⟨⟨name, hName⟩, ?_, ?_, by omega, by omega⟩, hEnd, hName, ?_⟩
  · rw [hIds, hStart, hEnd]
    exact hTimed.extent.congr fun x => mem_sortDedup
  · intro hNotFocus
    have := hBase fun hNone => hNotFocus (by rw [hName, hNone])
    omega
  · refine List.pairwise_append.mpr ⟨h.apart, List.pairwise_singleton _ _, ?_⟩
    intro d hd e he hSame
    rw [List.mem_singleton.mp he] at hSame ⊢
    have hAfter := h.after d hd name track hTrack (hSame.trans hName)
    exact ⟨by omega, by omega⟩

/-- A track is closed, and its place is taken by one that starts later or left empty. -/
theorem Tracks.Timed.close (h : t.Timed params frames before base low now extra)
    {name : Option String} {track : OpenTrack} {closedByGap : Bool}
    (hTrack : t.openAt name = some track) (hGap : track.endMs + params.mergeGapMs ≤ now)
    (hBase : name ≠ none → low ≤ base) (hLow : low ≤ low')
    (hOut : t'.out = t.out ++ (finalizeTrack order track closedByGap params).toList)
    (hOthers : ∀ other, other ≠ name → t'.openAt other = t.openAt other)
    (hNext : ∀ next, t'.openAt name = some next → next.Timed frames low' name ∧
      track.endMs ≤ next.startMs ∧ track.endMs < next.endMs)
    (hFocus : name = none → t'.focus.isSome) :
    ∃ extra', t'.Timed params frames before base low' now extra' := by
  have hMono := h.mono le_rfl hLow le_rfl
  have hLe := (h.open_ name track hTrack).extent.le
  have hOpen : ∀ other found, t'.openAt other = some found → found.Timed frames low' other := by
    intro other found hFound
    by_cases heq : other = name
    · subst heq
      exact (hNext found hFound).1
    · rw [hOthers other heq] at hFound
      exact hMono.open_ other found hFound
  -- the drafts of the partition are older than the track that was closed
  have hOlder : ∀ draft ∈ extra, ∀ other found, t'.openAt other = some found →
      trackPartition draft = partitionName other →
        draft.endedAt ≤ found.startMs ∧ draft.endedAt < found.endMs := by
    intro draft hDraft other found hFound hName
    by_cases heq : other = name
    · subst heq
      have hAfter := h.after draft hDraft other track hTrack hName
      have hStart := (hNext found hFound).2
      omega
    · rw [hOthers other heq] at hFound
      exact h.after draft hDraft other found hFound hName
  have hFocusKept : name ≠ none → t'.focus = t.focus := fun hNone => hOthers none hNone.symm
  have hWaiting : ∀ draft ∈ extra, trackPartition draft = partitionName none → t'.focus.isSome := by
    intro draft hDraft hName
    by_cases hNone : name = none
    · exact hFocus hNone
    · rw [hFocusKept hNone]
      exact h.focus draft hDraft hName
  cases hFinal : finalizeTrack order track closedByGap params with
  | none =>
    rw [hFinal, Option.toList_none, List.append_nil] at hOut
    exact ⟨extra, hOut.trans h.out, hOpen, hMono.closed, h.apart, hOlder, hWaiting⟩
  | some draft =>
    obtain ⟨hTimed, hEnd, hPartition, hApart⟩ := closed_append h hTrack hGap hBase hFinal
    refine ⟨extra ++ [draft], ?_, hOpen, ?_, hApart, ?_, ?_⟩
    · rw [hOut, hFinal, h.out, Option.toList_some, List.append_assoc]
    · intro d hd
      rcases List.mem_append.mp hd with hIn | hNew
      · exact hMono.closed d hIn
      · rw [List.mem_singleton.mp hNew]
        exact ⟨hTimed.name, hTimed.extent, hTimed.base, hTimed.low.trans hLow, hTimed.gap⟩
    · intro d hd other found hFound hName
      rcases List.mem_append.mp hd with hIn | hNew
      · exact hOlder d hIn other found hFound hName
      · rw [List.mem_singleton.mp hNew] at hName ⊢
        obtain rfl : name = other := partitionName_inj (hPartition.symm.trans hName)
        have hStart := (hNext found hFound).2
        omega
    · intro d hd hName
      rcases List.mem_append.mp hd with hIn | hNew
      · exact hWaiting d hIn hName
      · rw [List.mem_singleton.mp hNew] at hName
        exact hFocus (partitionName_inj (hPartition.symm.trans hName))

/-! ## Single spans -/

theorem newAi_timed {span : MicroSpan} (hSpan : span.HasExtent frames) (id : String)
    (host : Option SessionHost) :
    (OpenTrack.newAi span id host).Timed frames span.lastTs (some id) := by
  have hLe : span.firstTs ≤ span.lastTs := hSpan.le
  have hEnd : (OpenTrack.newAi span id host).endMs = span.lastTs := max_eq_left hLe
  refine ⟨rfl, ?_, hEnd.le⟩
  rw [hEnd]
  exact hSpan

theorem newFocus_timed {span : MicroSpan} (hSpan : span.HasExtent frames) :
    (OpenTrack.newFocus span).Timed frames span.lastTs none := by
  have hLe : span.firstTs ≤ span.lastTs := hSpan.le
  have hEnd : (OpenTrack.newFocus span).endMs = span.lastTs := max_eq_left hLe
  refine ⟨rfl, ?_, hEnd.le⟩
  rw [hEnd]
  exact hSpan

theorem absorbNone_aiId (track : OpenTrack) (span : MicroSpan) :
    (track.absorbNone span).aiId = track.aiId := by
  unfold OpenTrack.absorbNone
  dsimp only
  split <;> rfl

theorem openAt_insert_ne {id : String} {track : OpenTrack} {other : Option String}
    (h : other ≠ some id) :
    Tracks.openAt { t with tracks := t.tracks.insert id track } other = t.openAt other := by
  cases other with
  | none => rfl
  | some name => exact AList.lookup_insert_ne fun heq => h (by rw [heq])

theorem openAt_insert (id : String) (track : OpenTrack) :
    Tracks.openAt { t with tracks := t.tracks.insert id track } (some id) = some track :=
  AList.lookup_insert _

theorem openAt_erase {id : String} (hTracks : t'.tracks = t.tracks.erase id) :
    t'.openAt (some id) = none := by
  unfold Tracks.openAt
  rw [hTracks]
  exact AList.lookup_erase id t.tracks

theorem openAt_erase_ne {id : String} (hTracks : t'.tracks = t.tracks.erase id)
    (hFocus : t'.focus = t.focus) {other : Option String} (h : other ≠ some id) :
    t'.openAt other = t.openAt other := by
  cases other with
  | none => exact hFocus
  | some name =>
    unfold Tracks.openAt
    rw [hTracks]
    exact AList.lookup_erase_ne fun heq => h (by rw [heq])

variable (order) (hMerge : 0 < params.mergeGapMs)
include hMerge

theorem extendOrOpenFocus_timed (h : t.Timed params frames before base low now extra)
    {span : MicroSpan} (hSpan : span.HasExtent frames) (hLow : low ≤ span.firstTs)
    (hNow : span.firstTs ≤ now) :
    ∃ extra', (extendOrOpenFocus order params t span).Timed params frames before base span.lastTs now
      extra' := by
  have hNew := newFocus_timed hSpan
  have hSpanLe : span.firstTs ≤ span.lastTs := hSpan.le
  have hNewEnd : (OpenTrack.newFocus span).endMs = span.lastTs := max_eq_left hSpanLe
  have hOthers : ∀ (out : List SessionDraft) (focus : OpenTrack) (other : Option String),
      other ≠ none → Tracks.openAt { t with out := out, focus := some focus } other =
        t.openAt other := by
    intro out focus other hOther
    cases other with
    | none => exact absurd rfl hOther
    | some id => rfl
  unfold extendOrOpenFocus
  cases hFocus : t.focus with
  | none =>
    refine ⟨extra, h.put rfl rfl (hOthers t.out _) hNew (by omega) ?_⟩
    intro draft hDraft hName
    have hSome := h.focus draft hDraft hName
    rw [hFocus] at hSome
    cases hSome
  | some track =>
    have hTrack : t.openAt none = some track := hFocus
    have hEnding := (h.open_ none track hTrack).ending
    dsimp only
    split
    · refine h.close hTrack (by omega) (fun hNone => absurd rfl hNone) (by omega) rfl
        (hOthers _ _) ?_ (fun _ => rfl)
      intro next hNext
      cases hNext
      refine ⟨hNew, ?_, by omega⟩
      show track.endMs ≤ span.firstTs
      omega
    · exact ⟨extra, h.grow rfl hTrack rfl (hOthers t.out _) (absorbNone_aiId track span)
        (absorbNone_start track span) (absorbNone_end track span) (absorbNone_frameIds track span)
        hSpan hLow⟩

/-- A ramp that begins after `base` and ends before `low`. -/
structure Ramp.Timed (frames : List SegmenterFrame) (base low : Int) (ramp : Ramp) : Prop where
  start : base ≤ ramp.startMs
  extent : ∃ ending, Extent frames ramp.frameIds ramp.startMs ending ∧ ending ≤ low

omit hMerge in
theorem rampAdd_timed {ramp : Option Ramp} {span : MicroSpan} (hSpan : span.HasExtent frames)
    (h : ∀ r, ramp = some r → r.Timed frames base low) (hBase : base ≤ low)
    (hLow : low ≤ span.firstTs) : (Ramp.add ramp span).Timed frames base span.lastTs := by
  cases ramp with
  | none =>
    refine ⟨?_, span.lastTs, ?_, le_rfl⟩
    · show base ≤ min span.firstTs span.firstTs
      omega
    · show Extent frames ([] ++ span.frameIds) (min span.firstTs span.firstTs) span.lastTs
      rw [min_self]
      exact hSpan
  | some r =>
    obtain ⟨hStart, ending, hExtent, hEnding⟩ := h r rfl
    have hLe := hExtent.le
    have hMin : min r.startMs span.firstTs = r.startMs := min_eq_left (by omega)
    refine ⟨?_, span.lastTs, ?_, le_rfl⟩
    · show base ≤ min r.startMs span.firstTs
      omega
    · show Extent frames (r.frameIds ++ span.frameIds) (min r.startMs span.firstTs) span.lastTs
      rw [hMin]
      exact hExtent.followed hSpan (by omega)

/-- A pending span goes where it goes, and the time moves to its end. -/
theorem flushSpan_timed {rampStart : Option Int} {state : Option Ramp × Tracks}
    (h : state.2.Timed params frames before base low now extra)
    (hRamp : ∀ r, state.1 = some r → r.Timed frames base low) (hBase : base ≤ low)
    {span : MicroSpan} (hSpan : span.HasExtent frames) (hLow : low ≤ span.firstTs)
    (hNow : span.firstTs ≤ now) :
    ∃ extra', (flushSpan order params rampStart state span).2.Timed params frames before base
        span.lastTs now extra' ∧
      ∀ r, (flushSpan order params rampStart state span).1 = some r →
        r.Timed frames base span.lastTs := by
  have hSpanLe : span.firstTs ≤ span.lastTs := hSpan.le
  have hRampLater : ∀ r, state.1 = some r → r.Timed frames base span.lastTs := by
    intro r hr
    obtain ⟨hStart, ending, hExtent, hEnding⟩ := hRamp r hr
    exact ⟨hStart, ending, hExtent, by omega⟩
  unfold flushSpan
  cases hTouched : lastTouched order params state.2.tracks span with
  | some id =>
    obtain ⟨track, hLookup⟩ := lastTouched_lookup order params hTouched
    have hTrack : state.2.openAt (some id) = some track := hLookup
    simp only [hLookup]
    exact ⟨extra, h.grow rfl hTrack (openAt_insert id _) (fun other => openAt_insert_ne)
      (absorbNone_aiId track span) (absorbNone_start track span) (absorbNone_end track span)
      (absorbNone_frameIds track span) hSpan hLow, hRampLater⟩
  | none =>
    dsimp only
    split
    · refine ⟨extra, h.mono le_rfl (by omega) le_rfl, ?_⟩
      intro r hr
      cases hr
      exact rampAdd_timed hSpan hRamp hBase hLow
    · obtain ⟨extra', hTimed⟩ := extendOrOpenFocus_timed order hMerge h hSpan hLow hNow
      exact ⟨extra', hTimed, hRampLater⟩

/-- The pending spans: in order, between the tracks and what is still to be read. -/
structure Walk.Timed (params : SegmentationParams) (frames : List SegmenterFrame)
    (before : List SessionDraft) (low now : Int) (w : Walk) : Prop where
  tracks : ∃ extra, w.toTracks.Timed params frames before low low now extra
  extent : ∀ span ∈ w.pending, span.HasExtent frames
  first : ∀ span ∈ w.pending, low ≤ span.firstTs
  last : ∀ span ∈ w.pending, span.lastTs ≤ now
  order : w.pending.Pairwise fun a b => a.lastTs ≤ b.firstTs
  le : low ≤ now

variable {w : Walk}

omit hMerge in
theorem Walk.Timed.later (h : w.Timed params frames before low now) (hNow : now ≤ now') :
    w.Timed params frames before low now' where
  tracks := h.tracks.imp fun _ hTimed => hTimed.mono le_rfl le_rfl hNow
  extent := h.extent
  first := h.first
  last span hSpan := (h.last span hSpan).trans hNow
  order := h.order
  le := h.le.trans hNow

theorem flushPending_timed (h : w.Timed params frames before low now) (rampStart : Option Int) :
    (∃ extra, (flushPending order params rampStart w).2.toTracks.Timed params frames before low now
        now extra) ∧
      ∀ r, (flushPending order params rampStart w).1 = some r → r.Timed frames low now := by
  have hFold : ∀ (spans : List MicroSpan) (state : Option Ramp × Tracks) (at_ : Int),
      (∃ extra, state.2.Timed params frames before low at_ now extra) →
      (∀ r, state.1 = some r → r.Timed frames low at_) → low ≤ at_ → at_ ≤ now →
      (∀ span ∈ spans, span.HasExtent frames ∧ at_ ≤ span.firstTs ∧ span.lastTs ≤ now) →
      spans.Pairwise (fun a b => a.lastTs ≤ b.firstTs) →
      (∃ extra, (spans.foldl (flushSpan order params rampStart) state).2.Timed params frames before
          low now now extra) ∧
        ∀ r, (spans.foldl (flushSpan order params rampStart) state).1 = some r →
          r.Timed frames low now := by
    intro spans
    induction spans with
    | nil =>
      intro state at_ hTracks hRamp hLow hNow _ _
      refine ⟨hTracks.imp fun _ hTimed => hTimed.mono le_rfl hNow le_rfl, ?_⟩
      intro r hr
      obtain ⟨hStart, ending, hExtent, hEnding⟩ := hRamp r hr
      exact ⟨hStart, ending, hExtent, hEnding.trans hNow⟩
    | cons span spans ih =>
      intro state at_ hTracks hRamp hLow hNow hSpans hOrder
      obtain ⟨hSpan, hFirst, hLast⟩ := hSpans span (List.mem_cons_self ..)
      have hSpanLe : span.firstTs ≤ span.lastTs := hSpan.le
      obtain ⟨extra, hTimed⟩ := hTracks
      obtain ⟨extra', hTimed', hRamp'⟩ :=
        flushSpan_timed order hMerge hTimed hRamp hLow hSpan hFirst (by omega)
      refine ih _ span.lastTs ⟨extra', hTimed'⟩ hRamp' (by omega) hLast ?_ hOrder.of_cons
      intro other hOther
      have hIn := hSpans other (List.mem_cons_of_mem _ hOther)
      exact ⟨hIn.1, List.rel_of_pairwise_cons hOrder hOther, hIn.2.2⟩
  exact hFold w.pending (none, w.toTracks) low h.tracks (by simp) le_rfl h.le
    (fun span hSpan => ⟨h.extent span hSpan, h.first span hSpan, h.last span hSpan⟩) h.order

omit hMerge in
/-- A walk without pending spans. -/
theorem Walk.Timed.flushed (h : ∃ extra, w.toTracks.Timed params frames before low low now extra)
    (hPending : w.pending = []) (hLe : low ≤ now) : w.Timed params frames before low now where
  tracks := h
  extent := by simp [hPending]
  first := by simp [hPending]
  last := by simp [hPending]
  order := by simp [hPending]
  le := hLe

theorem flushStale_timed (h : w.Timed params frames before low now) (span : MicroSpan) :
    ∃ low', (flushStale order params w span).Timed params frames before low' now := by
  unfold flushStale
  split
  · obtain ⟨⟨extra, hTimed⟩, -⟩ := flushPending_timed order hMerge h none
    exact ⟨now, .flushed ⟨extra, hTimed.mono h.le le_rfl le_rfl⟩ rfl le_rfl⟩
  · exact ⟨low, h⟩

/-! ## The walk -/

omit hMerge in
theorem closeGapped_timed (h : w.Timed params frames before low now) (id : String)
    {span : MicroSpan} (hNow : now ≤ span.firstTs) :
    (closeGapped order params w id span).Timed params frames before low span.firstTs := by
  have hLater := h.later hNow
  unfold closeGapped
  cases hLookup : w.tracks.lookup id with
  | none => exact hLater
  | some track =>
    dsimp only
    split
    · rename_i hGap
      obtain ⟨extra, hTimed⟩ := hLater.tracks
      have hTrack : w.toTracks.openAt (some id) = some track := hLookup
      refine ⟨hTimed.close hTrack (by omega) (fun _ => le_rfl) le_rfl rfl ?_ ?_ (by simp),
        hLater.extent, hLater.first, hLater.last, hLater.order, hLater.le⟩
      · intro other hOther
        refine openAt_erase_ne ?_ ?_ hOther
        · rfl
        · rfl
      · intro next hNext
        rw [openAt_erase (t := w.toTracks) rfl] at hNext
        cases hNext
    · exact hLater

omit hMerge in
theorem prependRamp_timed {span : MicroSpan} (hSpan : span.HasExtent frames) (id : String)
    (host : Option SessionHost) {ramp : Ramp} (hRamp : ramp.Timed frames base span.firstTs) :
    ((OpenTrack.newAi span id host).prependRamp ramp).Timed frames span.lastTs (some id) ∧
      base ≤ ((OpenTrack.newAi span id host).prependRamp ramp).startMs := by
  obtain ⟨hStart, ending, hExtent, hEnding⟩ := hRamp
  have hRampLe := hExtent.le
  have hLe : span.firstTs ≤ span.lastTs := hSpan.le
  have hNewStart : ((OpenTrack.newAi span id host).prependRamp ramp).startMs = ramp.startMs := by
    show (if ramp.startMs < span.firstTs then ramp.startMs else span.firstTs) = ramp.startMs
    split <;> omega
  have hNewEnd : ((OpenTrack.newAi span id host).prependRamp ramp).endMs = span.lastTs :=
    max_eq_left hLe
  refine ⟨⟨rfl, ?_, hNewEnd.le⟩, by omega⟩
  rw [hNewStart, hNewEnd]
  show Extent frames (ramp.frameIds ++ span.frameIds) ramp.startMs span.lastTs
  exact hExtent.followed hSpan hEnding

theorem walkAi_timed (h : w.Timed params frames before low now) (id : String) {span : MicroSpan}
    (hSpan : span.HasExtent frames) (hNow : now ≤ span.firstTs) :
    (walkAi order params w id span).Timed params frames before span.lastTs span.lastTs := by
  have hSpanLe : span.firstTs ≤ span.lastTs := hSpan.le
  have hClosed := closeGapped_timed order h id hNow
  unfold walkAi
  dsimp only
  generalize closeGapped order params w id span = w₁ at hClosed ⊢
  generalize (if (w₁.tracks.lookup id).isSome then none else some span.firstTs) = rampStart
  obtain ⟨⟨extra, hTimed⟩, hRamp⟩ := flushPending_timed order hMerge hClosed rampStart
  have hPending : (flushPending order params rampStart w₁).2.pending = [] := rfl
  generalize flushPending order params rampStart w₁ = flushed at hTimed hRamp hPending ⊢
  obtain ⟨ramp, w₂⟩ := flushed
  dsimp only at hTimed hRamp hPending ⊢
  have hLow := hClosed.le
  -- a draft of the partition is a merge gap older than the span
  have hOlder : ∀ track : OpenTrack, low ≤ track.startMs → track.endMs = span.lastTs →
      ∀ draft ∈ extra, trackPartition draft = partitionName (some id) →
        draft.endedAt ≤ track.startMs ∧ draft.endedAt < track.endMs := by
    intro track hStart hEnd draft hDraft hName
    have hClosedDraft := hTimed.closed draft hDraft
    have hBase := hClosedDraft.base fun hFocus =>
      Option.some_ne_none id (partitionName_inj (hName.symm.trans hFocus))
    have hGap := hClosedDraft.gap
    omega
  -- the track of the span takes its place
  have hPut : ∀ track : OpenTrack, track.Timed frames span.lastTs (some id) →
      low ≤ track.startMs → track.endMs = span.lastTs →
      ({ w₂ with tracks := w₂.tracks.insert id track } : Walk).Timed params frames before
        span.lastTs span.lastTs := by
    intro track hTrack hStart hEnd
    let t' : Tracks := { w₂.toTracks with tracks := w₂.tracks.insert id track }
    have hInserted : t'.Timed params frames before low span.lastTs span.firstTs extra :=
      hTimed.put rfl (openAt_insert id track) (fun _ => openAt_insert_ne) hTrack hSpanLe
        (hOlder track hStart hEnd)
    exact .flushed ⟨extra, hInserted.mono (by omega) le_rfl hSpanLe⟩ hPending le_rfl
  cases hLookup : w₂.tracks.lookup id with
  | some track =>
    have hTrack : w₂.toTracks.openAt (some id) = some track := hLookup
    let t' : Tracks := { w₂.toTracks with tracks := w₂.tracks.insert id (track.absorbAi span) }
    have hGrown : t'.Timed params frames before low span.lastTs span.firstTs extra :=
      hTimed.grow rfl hTrack (openAt_insert id _) (fun _ => openAt_insert_ne) rfl rfl rfl rfl hSpan
        le_rfl
    exact .flushed ⟨extra, hGrown.mono (by omega) le_rfl hSpanLe⟩ hPending le_rfl
  | none =>
    cases ramp with
    | none => exact hPut _ (newAi_timed hSpan id _) hLow (max_eq_left hSpanLe)
    | some ramp =>
      obtain ⟨hNew, hStart⟩ := prependRamp_timed hSpan id (span.recognition.bind Recognized.host)
        (hRamp ramp rfl)
      exact hPut _ hNew hStart (max_eq_left hSpanLe)

theorem walkNone_timed (h : w.Timed params frames before low now) {span : MicroSpan}
    (hSpan : span.HasExtent frames) (hNow : now ≤ span.firstTs) :
    ∃ low', (walkNone order params w span).Timed params frames before low' span.lastTs := by
  have hSpanLe : span.firstTs ≤ span.lastTs := hSpan.le
  have hLater := h.later hNow
  unfold walkNone
  split
  · obtain ⟨⟨extra, hTimed⟩, -⟩ := flushPending_timed order hMerge hLater none
    obtain ⟨extra', hTimed'⟩ :=
      extendOrOpenFocus_timed order hMerge hTimed hSpan le_rfl le_rfl
    have hLow := hLater.le
    exact ⟨span.lastTs, .flushed ⟨extra', hTimed'.mono (by omega) le_rfl hSpanLe⟩ rfl le_rfl⟩
  · refine ⟨low, ⟨(h.later (by omega)).tracks, ?_, ?_, ?_, ?_, by have := h.le; omega⟩⟩
    · intro other hOther
      rcases List.mem_append.mp hOther with hIn | hIn
      · exact h.extent other hIn
      · rw [List.mem_singleton.mp hIn]
        exact hSpan
    · intro other hOther
      rcases List.mem_append.mp hOther with hIn | hIn
      · exact h.first other hIn
      · rw [List.mem_singleton.mp hIn]
        exact hLater.le
    · intro other hOther
      rcases List.mem_append.mp hOther with hIn | hIn
      · have := h.last other hIn
        omega
      · rw [List.mem_singleton.mp hIn]
    · refine List.pairwise_append.mpr ⟨h.order, List.pairwise_singleton _ _, ?_⟩
      intro a ha b hb
      rw [List.mem_singleton.mp hb]
      exact (h.last a ha).trans hNow

/-- One step: the walk has read up to the end of the span. -/
theorem walkSpan_timed (h : w.Timed params frames before low now) {span : MicroSpan}
    (hSpan : span.HasExtent frames) (hNow : now ≤ span.firstTs) :
    ∃ low', (walkSpan order params w span).Timed params frames before low' span.lastTs := by
  obtain ⟨low', hStale⟩ := flushStale_timed order hMerge h span
  unfold walkSpan
  dsimp only
  split
  · exact ⟨span.lastTs, walkAi_timed order hMerge hStale _ hSpan hNow⟩
  · exact walkNone_timed order hMerge hStale hSpan hNow

theorem walk_timed {spans : List MicroSpan} (h : w.Timed params frames before low now)
    (hExtent : ∀ span ∈ spans, span.HasExtent frames)
    (hBefore : spans.Pairwise MicroSpan.Before) (hNow : ∀ span ∈ spans, now ≤ span.firstTs) :
    ∃ low' now', (spans.foldl (walkSpan order params) w).Timed params frames before low' now' := by
  induction spans generalizing w low now with
  | nil => exact ⟨low, now, h⟩
  | cons span spans ih =>
    rw [List.foldl_cons]
    obtain ⟨low', hStep⟩ := walkSpan_timed order hMerge h
      (hExtent span (List.mem_cons_self ..)) (hNow span (List.mem_cons_self ..))
    exact ih hStep (fun s hs => hExtent s (List.mem_cons_of_mem _ hs)) hBefore.of_cons
      fun s hs => (List.rel_of_pairwise_cons hBefore hs).disjoint

/-! ## The drafts -/

/-- The tracks that are open at the end, in the order in which they are closed. -/
def openTracks (order : HashOrder) (t : Tracks) : List (Option String × OpenTrack) :=
  (order.entries t.tracks).map (fun entry => (some entry.1, entry.2)) ++
    t.focus.toList.map fun track => (none, track)

omit hMerge in
theorem openAt_of_mem_openTracks {entry : Option String × OpenTrack}
    (h : entry ∈ openTracks order t) : t.openAt entry.1 = some entry.2 := by
  rcases List.mem_append.mp h with hAi | hFocus
  · obtain ⟨found, hFound, rfl⟩ := List.mem_map.mp hAi
    exact HashOrder.mem_entries.mp hFound
  · obtain ⟨track, hTrack, rfl⟩ := List.mem_map.mp hFocus
    exact Option.mem_toList.mp hTrack

omit hMerge in
theorem openTracks_nodup : ((openTracks order t).map Prod.fst).Nodup := by
  have hKeys : ((order.entries t.tracks).map Sigma.fst).Nodup :=
    ((order.entries_perm t.tracks).map Sigma.fst).nodup_iff.mpr t.tracks.nodupKeys
  unfold openTracks
  rw [List.map_append, List.map_map, List.map_map]
  refine List.nodup_append.mpr ⟨?_, ?_, ?_⟩
  · have hSome := hKeys.map (Option.some_injective String)
    rwa [List.map_map] at hSome
  · cases t.focus <;> simp
  · intro a ha b hb
    obtain ⟨entry, -, rfl⟩ := List.mem_map.mp ha
    obtain ⟨track, -, rfl⟩ := List.mem_map.mp hb
    exact Option.some_ne_none _

omit hMerge in
theorem finishWalk_eq (w : Walk) :
    finishWalk order params w = (flushPending order params none w).2.out ++
      (openTracks order (flushPending order params none w).2.toTracks).filterMap fun entry =>
        finalizeTrack order entry.2 false params := by
  unfold finishWalk openTracks
  generalize (flushPending order params none w).2 = flushed
  rw [List.filterMap_append, List.filterMap_map, List.filterMap_map, List.append_assoc]
  congr 2
  cases flushed.focus with
  | none => rfl
  | some track =>
    show (finalizeTrack order track false params).toList =
      [track].filterMap fun track => finalizeTrack order track false params
    rw [List.filterMap_cons]
    cases finalizeTrack order track false params <;> rfl

theorem finishWalk_timed (h : w.Timed params frames before low now) :
    ∃ extra, finishWalk order params w = before ++ extra ∧
      (∀ draft ∈ extra, Extent frames draft.frameIds draft.startedAt draft.endedAt ∧
        ∃ name, trackPartition draft = partitionName name) ∧
      extra.Pairwise TakeTurns := by
  obtain ⟨⟨extra, hTimed⟩, -⟩ := flushPending_timed order hMerge h none
  rw [finishWalk_eq]
  generalize (flushPending order params none w).2.toTracks = t at hTimed ⊢
  set last := (openTracks order t).filterMap fun entry =>
    finalizeTrack order entry.2 false params with hLast
  -- each of the last drafts comes from the open track of its name
  have hFrom : ∀ draft ∈ last, ∃ name track, t.openAt name = some track ∧
      trackPartition draft = partitionName name ∧ draft.startedAt = track.startMs ∧
      draft.endedAt = track.endMs ∧
      Extent frames draft.frameIds draft.startedAt draft.endedAt := by
    intro draft hDraft
    obtain ⟨entry, hEntry, hFinal⟩ := List.mem_filterMap.mp hDraft
    have hOpen := openAt_of_mem_openTracks order hEntry
    have hTrack := hTimed.open_ entry.1 entry.2 hOpen
    obtain ⟨hStart, hEnd, hIds⟩ := finalizeTrack_bounds hFinal
    have hLe := hTrack.extent.le
    have hEnd : draft.endedAt = entry.2.endMs := by omega
    refine ⟨entry.1, entry.2, hOpen, ?_, hStart, hEnd, ?_⟩
    · rw [finalizeTrack_partition hFinal, hTrack.name]
    · rw [hIds, hStart, hEnd]
      exact hTrack.extent.congr fun x => mem_sortDedup
  refine ⟨extra ++ last, ?_, ?_, List.pairwise_append.mpr ⟨?_, ?_, ?_⟩⟩
  · rw [← List.append_assoc, ← hTimed.out]
  · intro draft hDraft
    rcases List.mem_append.mp hDraft with hIn | hIn
    · exact ⟨(hTimed.closed draft hIn).extent, (hTimed.closed draft hIn).name⟩
    · obtain ⟨name, -, -, hName, -, -, hExtent⟩ := hFrom draft hIn
      exact ⟨hExtent, name, hName⟩
  · exact hTimed.apart.imp fun hApart hSame => Or.inl (hApart hSame)
  · rw [hLast, List.pairwise_filterMap]
    refine (List.pairwise_map.mp (openTracks_nodup order)).imp_of_mem ?_
    intro a b ha hb hNe d hd e he hSame
    have hTrackA := hTimed.open_ a.1 a.2 (openAt_of_mem_openTracks order ha)
    have hTrackB := hTimed.open_ b.1 b.2 (openAt_of_mem_openTracks order hb)
    rw [finalizeTrack_partition hd, finalizeTrack_partition he, hTrackA.name, hTrackB.name] at hSame
    exact absurd (partitionName_inj hSame) hNe
  · intro d hd e he hSame
    obtain ⟨name, track, hOpen, hName, hStart, hEnd, -⟩ := hFrom e he
    have hAfter := hTimed.after d hd name track hOpen (hSame.trans hName)
    exact Or.inl ⟨by omega, by omega⟩

/-- The drafts of the tracks: each has the extent of its frames, and those of one
partition follow one another. -/
theorem rawDrafts_timed {micros : List MicroSpan} (hTimeline : Timeline micros)
    (hExtent : ∀ span ∈ micros, span.HasExtent frames) :
    ∃ extra, rawDrafts order micros params =
        (buildBands order micros params).map (bandDraft params) ++ extra ∧
      (∀ draft ∈ extra, Extent frames draft.frameIds draft.startedAt draft.endedAt ∧
        ∃ name, trackPartition draft = partitionName name) ∧
      extra.Pairwise TakeTurns := by
  set bands := buildBands order micros params
  obtain ⟨low, hLow⟩ := exists_low (freeSpans micros bands)
  have hSub : (freeSpans micros bands).Sublist micros := List.filter_sublist
  have hInitial : Walk.Timed params frames (bands.map (bandDraft params)) low low
      { Walk.initial with out := bands.map (bandDraft params) } := by
    refine .flushed ⟨[], ?_⟩ rfl le_rfl
    refine ⟨(List.append_nil _).symm, ?_, by simp, List.Pairwise.nil, by simp, by simp⟩
    intro name track hOpen
    cases name with
    | none => cases hOpen
    | some id =>
      rw [show Tracks.openAt _ (some id) = (∅ : HashMap OpenTrack).lookup id from rfl,
        AList.lookup_empty] at hOpen
      cases hOpen
  obtain ⟨low', now', hWalk⟩ := walk_timed order hMerge hInitial
    (fun span hSpan => hExtent span (hSub.subset hSpan)) (hTimeline.before.sublist hSub) hLow
  exact finishWalk_timed order hMerge hWalk

end ScreenSearch.Sessions
