import ScreenSearch.Sessions.WalkInvariant

/-!
# Walks that agree

Two walks over the same spans, one of which carries tracks that are too old to be
touched again. From then on they do the same: the old tracks only wait to be
finalized. With nothing old it says that a walk depends neither on the hash
order nor on the clock, apart from the `isOpen` flag.

`draftFacts` is a draft without that flag, and `Tracks.facts d` counts the drafts
with facts `d` that the tracks stand for, closed or not.

Main results:

* `walk_sim` — the relation is kept by a whole walk;
* `finishWalk_facts` — what a finished walk returns is what it stood for.
-/

namespace ScreenSearch.Sessions

open Assoc Sorting

/-- The same parameters at another time. -/
abbrev atNow (params : SegmentationParams) (nowMs : Int) : SegmentationParams :=
  { params with nowMs := nowMs }

/-- A draft but for whether it is still open. -/
def draftFacts (draft : SessionDraft) : SessionDraft := { draft with isOpen := false }

/-! ## What a track stands for -/

theorem dominantStem_order (order order' : HashOrder) (track : OpenTrack) :
    track.dominantStem order = track.dominantStem order' := by
  simp only [OpenTrack.dominantStem]
  congr 3
  refine sortByKey_eq_of_perm _ (((order.entries_perm _).trans
    (order'.entries_perm _).symm).map _) ?_
  intro a _ b _ hkey
  simp only [EmbeddingLike.apply_eq_iff_eq, Prod.mk.injEq] at hkey
  exact Prod.ext hkey.2.2 (Prod.ext hkey.1 hkey.2.1)

/-- The facts of the draft a track closes into. -/
def trackFacts (params : SegmentationParams) (track : OpenTrack) : Option SessionDraft :=
  (finalizeTrack .stored track true params).map draftFacts

theorem finalizeTrack_facts (order : HashOrder) (params : SegmentationParams) (now : Int)
    (track : OpenTrack) (closedByGap : Bool) :
    (finalizeTrack order track closedByGap (atNow params now)).map draftFacts =
      trackFacts params track := by
  rw [trackFacts, finalizeTrack, finalizeTrack, dominantStem_order order .stored]
  cases track.aiId with
  | some id =>
    dsimp only
    split <;> simp [*, draftFacts]
  | none =>
    dsimp only
    split <;> simp [*, draftFacts]

def trackCount (params : SegmentationParams) (d : SessionDraft) (track : OpenTrack) : Nat :=
  if trackFacts params track = some d then 1 else 0

/-- How many drafts with the facts `d` the tracks stand for. -/
def Tracks.facts (params : SegmentationParams) (d : SessionDraft) (t : Tracks) : Nat :=
  (t.out.map draftFacts).count d + weight (trackCount params d) t.tracks +
    (t.focus.map (trackCount params d)).getD 0

theorem count_finalizeTrack (order : HashOrder) (params : SegmentationParams) (now : Int)
    (d : SessionDraft) (track : OpenTrack) (closedByGap : Bool) :
    ((finalizeTrack order track closedByGap (atNow params now)).toList.map draftFacts).count d =
      trackCount params d track := by
  have hfacts := finalizeTrack_facts order params now track closedByGap
  rw [trackCount, ← hfacts]
  cases finalizeTrack order track closedByGap (atNow params now) with
  | none => rfl
  | some draft => simp [List.count_singleton]

/-! ## The relation -/

/-- `s` is `t` with old tracks on top, which end a merge gap before `horizon`,
and stands for `base` more drafts with the facts `d`. -/
structure Sim (params : SegmentationParams) (horizon : Int) (d : SessionDraft) (base : Nat)
    (s t : Tracks) : Prop where
  tracks : ∀ id track, t.tracks.lookup id = some track → s.tracks.lookup id = some track
  stale : ∀ id track, s.tracks.lookup id = some track → t.tracks.lookup id = none →
    track.endMs + params.mergeGapMs ≤ horizon
  focus : ∀ track, t.focus = some track → s.focus = some track
  staleFocus : ∀ track, s.focus = some track → t.focus = none →
    track.endMs + params.mergeGapMs ≤ horizon
  facts : s.facts params d = base + t.facts params d

structure WalkSim (params : SegmentationParams) (horizon : Int) (d : SessionDraft) (base : Nat)
    (s t : Walk) : Prop where
  toTracks : Sim params horizon d base s.toTracks t.toTracks
  pending : s.pending = t.pending
  late : ∀ span ∈ t.pending, horizon ≤ span.firstTs

variable {order order' : HashOrder} {params : SegmentationParams} {now now' horizon : Int}
  {d : SessionDraft} {base : Nat}

theorem Sim.insert {s t : Tracks} (h : Sim params horizon d base s t) {id : String}
    (hid : s.tracks.lookup id = t.tracks.lookup id) (track : OpenTrack) :
    Sim params horizon d base { s with tracks := s.tracks.insert id track }
      { t with tracks := t.tracks.insert id track } where
  tracks := by
    intro other found hlookup
    by_cases heq : other = id
    · subst heq
      rw [AList.lookup_insert] at hlookup ⊢
      exact hlookup
    · rw [AList.lookup_insert_ne heq] at hlookup ⊢
      exact h.tracks other found hlookup
  stale := by
    intro other found hs ht
    by_cases heq : other = id
    · subst heq
      rw [AList.lookup_insert] at ht
      cases ht
    · rw [AList.lookup_insert_ne heq] at hs ht
      exact h.stale other found hs ht
  focus := h.focus
  staleFocus := h.staleFocus
  facts := by
    have hfacts := h.facts
    have hs := weight_insert (trackCount params d) s.tracks id track
    have ht := weight_insert (trackCount params d) t.tracks id track
    have hat : weightAt (trackCount params d) s.tracks id =
        weightAt (trackCount params d) t.tracks id := by rw [weightAt, weightAt, hid]
    simp only [Tracks.facts] at hfacts ⊢
    omega

/-- Finalizing moves what a track stands for into the drafts. -/
theorem facts_finalize (order : HashOrder) (now : Int) (t : Tracks) (track : OpenTrack)
    (closedByGap : Bool) :
    (t.finalize order (atNow params now) track closedByGap).facts params d =
      t.facts params d + trackCount params d track := by
  have hcount := count_finalizeTrack order params now d track closedByGap
  simp only [Tracks.facts, Tracks.finalize, List.map_append, List.count_append, hcount]
  omega

theorem extendOrOpenFocus_sim {s t : Tracks} (h : Sim params horizon d base s t)
    {span : MicroSpan} (hspan : horizon ≤ span.firstTs) :
    Sim params horizon d base (extendOrOpenFocus order (atNow params now) s span)
      (extendOrOpenFocus order' (atNow params now') t span) := by
  have hfacts := h.facts
  rw [extendOrOpenFocus, extendOrOpenFocus]
  cases ht : t.focus with
  | some track =>
    have hs := h.focus track ht
    simp only [hs]
    by_cases hgap : params.mergeGapMs ≤ span.firstTs - track.endMs
    · rw [if_pos hgap, if_pos hgap]
      have hcounts := count_finalizeTrack order params now d track true
      have hcountt := count_finalizeTrack order' params now' d track true
      refine ⟨h.tracks, h.stale, fun _ hf => hf, (by rintro _ _ ⟨⟩), ?_⟩
      simp only [Tracks.facts, Tracks.finalize, List.map_append, List.count_append, hcounts,
        hcountt, hs, ht, Option.map_some, Option.getD_some] at hfacts ⊢
      omega
    · rw [if_neg hgap, if_neg hgap]
      refine ⟨h.tracks, h.stale, fun _ hf => hf, (by rintro _ _ ⟨⟩), ?_⟩
      simp only [Tracks.facts, hs, ht, Option.map_some, Option.getD_some] at hfacts ⊢
      omega
  | none =>
    cases hs : s.focus with
    | none =>
      refine ⟨h.tracks, h.stale, fun _ hf => hf, (by rintro _ _ ⟨⟩), ?_⟩
      simp only [Tracks.facts, hs, ht, Option.map_some, Option.map_none, Option.getD_some,
        Option.getD_none] at hfacts ⊢
      omega
    | some old =>
      -- an old focus track is closed exactly now
      have hold := h.staleFocus old hs ht
      have hgap : (atNow params now).mergeGapMs ≤ span.firstTs - old.endMs := by
        dsimp only
        omega
      have hcount := count_finalizeTrack order params now d old true
      simp only [if_pos hgap]
      refine ⟨h.tracks, h.stale, fun _ hf => hf, (by rintro _ _ ⟨⟩), ?_⟩
      simp only [Tracks.facts, Tracks.finalize, List.map_append, List.count_append, hcount, hs,
        ht, Option.map_some, Option.map_none, Option.getD_some, Option.getD_none] at hfacts ⊢
      omega

/-- Old tracks are never the ones touched last. -/
theorem lastTouched_sim (order order' : HashOrder) (now now' : Int)
    {s t : Tracks} (h : Sim params horizon d base s t)
    {span : MicroSpan} (hspan : horizon ≤ span.firstTs) :
    lastTouched order (atNow params now) s.tracks span =
      lastTouched order' (atNow params now') t.tracks span := by
  simp only [lastTouched]
  congr 1
  refine maxByKey_eq_of_perm _ ?_ ?_
  · rw [List.perm_ext_iff_of_nodup ((order.entries_nodup _).filter _)
      ((order'.entries_nodup _).filter _)]
    intro entry
    simp only [List.mem_filter, HashOrder.mem_entries]
    constructor
    · rintro ⟨hs, hnear⟩
      refine ⟨?_, hnear⟩
      cases ht : t.tracks.lookup entry.1 with
      | none =>
        have := h.stale _ _ hs ht
        have := of_decide_eq_true hnear
        omega
      | some track => rw [← hs, h.tracks _ _ ht]
    · rintro ⟨ht, hnear⟩
      exact ⟨h.tracks _ _ ht, hnear⟩
  · intro a ha b hb hkey
    simp only [EmbeddingLike.apply_eq_iff_eq, Prod.mk.injEq] at hkey
    have ha' := HashOrder.mem_entries.mp (List.mem_of_mem_filter ha)
    have hb' := HashOrder.mem_entries.mp (List.mem_of_mem_filter hb)
    rw [hkey.2, hb'] at ha'
    exact Sigma.ext hkey.2 (heq_of_eq (Option.some.inj ha').symm)

theorem flushSpan_sim (order order' : HashOrder) (now now' : Int)
    {s t : Tracks} (h : Sim params horizon d base s t)
    {span : MicroSpan} (hspan : horizon ≤ span.firstTs) (rampStart : Option Int) (ramp : Option Ramp) :
    (flushSpan order (atNow params now) rampStart (ramp, s) span).1 =
        (flushSpan order' (atNow params now') rampStart (ramp, t) span).1 ∧
      Sim params horizon d base
        (flushSpan order (atNow params now) rampStart (ramp, s) span).2
        (flushSpan order' (atNow params now') rampStart (ramp, t) span).2 := by
  rw [flushSpan, flushSpan]
  dsimp only
  rw [lastTouched_sim order order' now now' h hspan]
  cases htouched : lastTouched order' (atNow params now') t.tracks span with
  | some id =>
    obtain ⟨track, hlookup⟩ := lastTouched_lookup _ _ htouched
    have hs := h.tracks id track hlookup
    simp only [hs, hlookup]
    exact ⟨trivial, h.insert (hs.trans hlookup.symm) _⟩
  | none =>
    dsimp only
    by_cases hramp : rampStart.any fun start => decide (start - span.lastTs < params.mergeGapMs)
    · rw [if_pos hramp, if_pos hramp]
      exact ⟨rfl, h⟩
    · rw [if_neg hramp, if_neg hramp]
      exact ⟨rfl, extendOrOpenFocus_sim h hspan⟩

theorem flushPending_sim (order order' : HashOrder) (now now' : Int)
    {s t : Walk} (h : WalkSim params horizon d base s t) (rampStart : Option Int) :
    (flushPending order (atNow params now) rampStart s).1 =
        (flushPending order' (atNow params now') rampStart t).1 ∧
      WalkSim params horizon d base
        (flushPending order (atNow params now) rampStart s).2
        (flushPending order' (atNow params now') rampStart t).2 := by
  have hfold : ∀ (spans : List MicroSpan) (ramp : Option Ramp) (s t : Tracks),
      (∀ span ∈ spans, horizon ≤ span.firstTs) → Sim params horizon d base s t →
      (spans.foldl (flushSpan order (atNow params now) rampStart) (ramp, s)).1 =
          (spans.foldl (flushSpan order' (atNow params now') rampStart) (ramp, t)).1 ∧
        Sim params horizon d base
          (spans.foldl (flushSpan order (atNow params now) rampStart) (ramp, s)).2
          (spans.foldl (flushSpan order' (atNow params now') rampStart) (ramp, t)).2 := by
    intro spans
    induction spans with
    | nil => exact fun _ _ _ _ hsim => ⟨rfl, hsim⟩
    | cons span spans ih =>
      intro ramp s t hlate hsim
      have hstep := flushSpan_sim order order' now now' hsim
        (hlate span (List.mem_cons_self ..)) rampStart ramp
      rw [List.foldl_cons, List.foldl_cons]
      generalize flushSpan order (atNow params now) rampStart (ramp, s) span = left at hstep ⊢
      generalize flushSpan order' (atNow params now') rampStart (ramp, t) span = right at hstep ⊢
      obtain ⟨ramp₁, s₁⟩ := left
      obtain ⟨ramp₂, t₁⟩ := right
      obtain ⟨hramp, hsim₁⟩ := hstep
      dsimp only at hramp hsim₁
      subst hramp
      exact ih ramp₁ s₁ t₁ (fun x hx => hlate x (List.mem_cons_of_mem _ hx)) hsim₁
  have hend := hfold t.pending none s.toTracks t.toTracks h.late h.toTracks
  simp only [flushPending, h.pending]
  exact ⟨hend.1, hend.2, rfl, by simp⟩

theorem flushStale_sim (order order' : HashOrder) (now now' : Int)
    {s t : Walk} (h : WalkSim params horizon d base s t) (span : MicroSpan) :
    WalkSim params horizon d base (flushStale order (atNow params now) s span)
      (flushStale order' (atNow params now') t span) := by
  rw [flushStale, flushStale, h.pending]
  dsimp only
  by_cases hstale : t.pending.getLast?.any fun last =>
      decide (params.mergeGapMs ≤ span.firstTs - last.lastTs)
  · rw [if_pos hstale, if_pos hstale]
    exact (flushPending_sim order order' now now' h none).2
  · rw [if_neg hstale, if_neg hstale]
    exact h

theorem Sim.erase {s t : Tracks} (h : Sim params horizon d base s t) {id : String}
    {track : OpenTrack} (ht : t.tracks.lookup id = some track) :
    Sim params horizon d base
      (Tracks.finalize order (atNow params now) { s with tracks := s.tracks.erase id } track true)
      (Tracks.finalize order' (atNow params now') { t with tracks := t.tracks.erase id } track
        true) where
  tracks := by
    intro other found hlookup
    by_cases heq : other = id
    · subst heq
      change (t.tracks.erase other).lookup other = _ at hlookup
      rw [AList.lookup_erase] at hlookup
      cases hlookup
    · change (t.tracks.erase id).lookup other = _ at hlookup
      change (s.tracks.erase id).lookup other = _
      rw [AList.lookup_erase_ne heq] at hlookup ⊢
      exact h.tracks other found hlookup
  stale := by
    intro other found hs hnone
    change (s.tracks.erase id).lookup other = _ at hs
    change (t.tracks.erase id).lookup other = _ at hnone
    by_cases heq : other = id
    · subst heq
      rw [AList.lookup_erase] at hs
      cases hs
    · rw [AList.lookup_erase_ne heq] at hs hnone
      exact h.stale other found hs hnone
  focus := h.focus
  staleFocus := h.staleFocus
  facts := by
    have hfacts := h.facts
    have hs := weight_erase (trackCount params d) s.tracks id
    have ht' := weight_erase (trackCount params d) t.tracks id
    rw [weightAt_of_some (h.tracks id track ht)] at hs
    rw [weightAt_of_some ht] at ht'
    rw [facts_finalize, facts_finalize]
    simp only [Tracks.facts] at hfacts ⊢
    omega

/-- An old track of the same identity is closed as well, so that afterwards both
walks know as much about the identity. -/
theorem closeGapped_sim (order order' : HashOrder) (now now' : Int)
    {s t : Walk} (h : WalkSim params horizon d base s t) (id : String)
    {span : MicroSpan} (hspan : horizon ≤ span.firstTs) :
    WalkSim params horizon d base (closeGapped order (atNow params now) s id span)
        (closeGapped order' (atNow params now') t id span) ∧
      (closeGapped order (atNow params now) s id span).tracks.lookup id =
        (closeGapped order' (atNow params now') t id span).tracks.lookup id := by
  rw [closeGapped, closeGapped]
  dsimp only
  cases ht : t.tracks.lookup id with
  | some track =>
    have hs := h.toTracks.tracks id track ht
    simp only [hs]
    by_cases hgap : params.mergeGapMs ≤ span.firstTs - track.endMs
    · rw [if_pos hgap, if_pos hgap]
      refine ⟨⟨h.toTracks.erase ht, h.pending, h.late⟩, ?_⟩
      exact (AList.lookup_erase id s.tracks).trans (AList.lookup_erase id t.tracks).symm
    · rw [if_neg hgap, if_neg hgap]
      exact ⟨h, hs.trans ht.symm⟩
  | none =>
    cases hs : s.tracks.lookup id with
    | none => exact ⟨h, hs.trans ht.symm⟩
    | some old =>
      have hold := h.toTracks.stale id old hs ht
      have hgap : params.mergeGapMs ≤ span.firstTs - old.endMs := by omega
      simp only [if_pos hgap]
      refine ⟨⟨⟨?_, ?_, h.toTracks.focus, h.toTracks.staleFocus, ?_⟩, h.pending, h.late⟩, ?_⟩
      · intro other found hlookup
        have hne : other ≠ id := fun heq => by
          rw [heq, ht] at hlookup
          cases hlookup
        change (s.tracks.erase id).lookup other = _
        rw [AList.lookup_erase_ne hne]
        exact h.toTracks.tracks other found hlookup
      · intro other found hlookup hnone
        change (s.tracks.erase id).lookup other = _ at hlookup
        by_cases heq : other = id
        · subst heq
          rw [AList.lookup_erase] at hlookup
          cases hlookup
        · rw [AList.lookup_erase_ne heq] at hlookup
          exact h.toTracks.stale other found hlookup hnone
      · have hfacts := h.toTracks.facts
        have herase := weight_erase (trackCount params d) s.tracks id
        rw [weightAt_of_some hs] at herase
        rw [facts_finalize]
        simp only [Tracks.facts] at hfacts ⊢
        omega
      · exact (AList.lookup_erase ..).trans ht.symm

/-- Flushing extends tracks and neither opens nor closes one. -/
theorem flushPending_lookup_isSome (order : HashOrder) (params : SegmentationParams)
    (rampStart : Option Int) (w : Walk) (id : String) :
    ((flushPending order params rampStart w).2.tracks.lookup id).isSome =
      (w.tracks.lookup id).isSome := by
  have hstep : ∀ (state : Option Ramp × Tracks) (span : MicroSpan),
      ((flushSpan order params rampStart state span).2.tracks.lookup id).isSome =
        (state.2.tracks.lookup id).isSome := by
    intro state span
    rw [flushSpan]
    split
    · rename_i touched _
      split
      · rename_i track hlookup
        by_cases heq : id = touched
        · subst heq
          rw [AList.lookup_insert, hlookup]
          rfl
        · rw [AList.lookup_insert_ne heq]
      · rfl
    · split
      · rfl
      · rw [extendOrOpenFocus]
        split
        · split <;> rfl
        · rfl
  have hfold : ∀ (spans : List MicroSpan) (state : Option Ramp × Tracks),
      ((spans.foldl (flushSpan order params rampStart) state).2.tracks.lookup id).isSome =
        (state.2.tracks.lookup id).isSome := by
    intro spans
    induction spans with
    | nil => exact fun _ => rfl
    | cons span spans ih =>
      intro state
      rw [List.foldl_cons, ih, hstep]
  exact hfold w.pending (none, w.toTracks)

theorem walkAi_sim {s t : Walk} (h : WalkSim params horizon d base s t) (id : String)
    {span : MicroSpan} (hspan : horizon ≤ span.firstTs) :
    WalkSim params horizon d base (walkAi order (atNow params now) s id span)
      (walkAi order' (atNow params now') t id span) := by
  rw [walkAi, walkAi]
  dsimp only
  obtain ⟨hclose, hid⟩ := closeGapped_sim order order' now now' h id hspan
  generalize closeGapped order (atNow params now) s id span = s₁ at hclose hid ⊢
  generalize closeGapped order' (atNow params now') t id span = t₁ at hclose hid ⊢
  rw [hid]
  generalize (if (t₁.tracks.lookup id).isSome then none else some span.firstTs) = rampStart
  have hs₁ := flushPending_lookup_isSome order (atNow params now)
    rampStart s₁ id
  have ht₁ := flushPending_lookup_isSome order' (atNow params now')
    rampStart t₁ id
  obtain ⟨hramp, hflush⟩ := flushPending_sim order order' now now' hclose rampStart
  generalize flushPending order (atNow params now) rampStart s₁ = left at hramp hflush hs₁ ⊢
  generalize flushPending order' (atNow params now') rampStart t₁ = right at hramp hflush ht₁ ⊢
  obtain ⟨ramp, s₂⟩ := left
  obtain ⟨ramp', t₂⟩ := right
  dsimp only at hramp hflush hs₁ ht₁ ⊢
  subst hramp
  cases ht : t₂.tracks.lookup id with
  | some track =>
    have hs := hflush.toTracks.tracks id track ht
    simp only [hs]
    exact ⟨hflush.toTracks.insert (hs.trans ht.symm) _, hflush.pending, hflush.late⟩
  | none =>
    have hs : s₂.tracks.lookup id = none := by
      rw [ht, ← hid, ← hs₁] at ht₁
      cases hlookup : s₂.tracks.lookup id with
      | none => rfl
      | some track => simp [hlookup] at ht₁
    simp only [hs]
    exact ⟨hflush.toTracks.insert (hs.trans ht.symm) _, hflush.pending, hflush.late⟩

theorem walkNone_sim {s t : Walk} (h : WalkSim params horizon d base s t) {span : MicroSpan}
    (hspan : horizon ≤ span.firstTs) :
    WalkSim params horizon d base (walkNone order (atNow params now) s span)
      (walkNone order' (atNow params now') t span) := by
  rw [walkNone, walkNone]
  dsimp only
  by_cases hlong : params.absorbMaxMs < duration span
  · rw [if_pos hlong, if_pos hlong]
    have hflush := (flushPending_sim order order' now now' h none).2
    exact ⟨extendOrOpenFocus_sim hflush.toTracks hspan, hflush.pending, hflush.late⟩
  · rw [if_neg hlong, if_neg hlong]
    refine ⟨h.toTracks, by rw [h.pending], fun other hother => ?_⟩
    rcases List.mem_append.mp hother with hin | hnew
    · exact h.late other hin
    · rw [List.mem_singleton.mp hnew]
      exact hspan

theorem walkSpan_sim {s t : Walk} (h : WalkSim params horizon d base s t) {span : MicroSpan}
    (hspan : horizon ≤ span.firstTs) :
    WalkSim params horizon d base (walkSpan order (atNow params now) s span)
      (walkSpan order' (atNow params now') t span) := by
  have hstale := flushStale_sim order order' now now'
    h span
  rw [walkSpan, walkSpan]
  split
  · exact walkAi_sim hstale _ hspan
  · exact walkNone_sim hstale hspan

/-- The relation is kept by a whole walk over spans after the horizon. -/
theorem walk_sim {spans : List MicroSpan} (hspans : ∀ span ∈ spans, horizon ≤ span.firstTs)
    {s t : Walk} (h : WalkSim params horizon d base s t) :
    WalkSim params horizon d base (spans.foldl (walkSpan order (atNow params now)) s)
      (spans.foldl (walkSpan order' (atNow params now')) t) := by
  induction spans generalizing s t with
  | nil => exact h
  | cons span spans ih =>
    rw [List.foldl_cons, List.foldl_cons]
    exact ih (fun x hx => hspans x (List.mem_cons_of_mem _ hx))
      (walkSpan_sim h (hspans span (List.mem_cons_self ..)))

/-- What a finished walk returns is what its tracks stood for after the last
flush. -/
theorem finishWalk_facts (order : HashOrder) (now : Int) (w : Walk) :
    ((finishWalk order (atNow params now) w).map draftFacts).count d =
      (flushPending order (atNow params now) none w).2.toTracks.facts params d := by
  rw [finishWalk]
  generalize (flushPending order (atNow params now) none w).2 = w₁
  have htracks : ∀ entries : List (Σ _ : String, OpenTrack),
      ((entries.filterMap fun entry =>
        finalizeTrack order entry.2 false (atNow params now)).map draftFacts).count d =
      (entries.map fun entry => trackCount params d entry.2).sum := by
    intro entries
    induction entries with
    | nil => rfl
    | cons entry entries ih =>
      have hcount := count_finalizeTrack order params now d entry.2 false
      cases hfinal : finalizeTrack order entry.2 false (atNow params now) with
      | none =>
        simp only [hfinal, Option.toList_none, List.map_nil, List.count_nil] at hcount
        simp only [List.filterMap_cons, hfinal, List.map_cons, List.sum_cons]
        omega
      | some draft =>
        simp only [hfinal, Option.toList_some, List.map_cons, List.map_nil] at hcount
        simp only [List.filterMap_cons, hfinal, List.map_cons, List.sum_cons, List.count_cons,
          List.count_nil] at hcount ⊢
        omega
  have hfocus : ((w₁.focus.bind fun track =>
      finalizeTrack order track false (atNow params now)).toList.map draftFacts).count d =
      (w₁.focus.map (trackCount params d)).getD 0 := by
    cases w₁.focus with
    | none => rfl
    | some track => exact count_finalizeTrack order params now d track false
  simp only [List.map_append, List.count_append, htracks, hfocus, Tracks.facts]
  rw [weight_entries]

theorem finishWalk_sim (order order' : HashOrder) (now now' : Int) {s t : Walk}
    (h : WalkSim params horizon d base s t) :
    ((finishWalk order (atNow params now) s).map draftFacts).count d =
      base + ((finishWalk order' (atNow params now') t).map draftFacts).count d := by
  rw [finishWalk_facts, finishWalk_facts]
  exact (flushPending_sim order order' now now' h none).2.toTracks.facts

end ScreenSearch.Sessions
