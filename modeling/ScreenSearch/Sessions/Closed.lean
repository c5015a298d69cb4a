import ScreenSearch.Sessions.Cut
import ScreenSearch.Sessions.Split

/-!
# Drafts in time

Drafts stand among the frames they were made from, and a chunk that ended a merge
gap ago has closed drafts only.

* `segment_within`, `segment_closed`.
-/

namespace ScreenSearch.Sessions

open Assoc Sorting

variable {order : HashOrder} {params : SegmentationParams}

theorem segmentMicro_within (lowercase : String → String) (order : HashOrder)
    {frames : List SegmenterFrame} (taxonomy : Taxonomy) (params : SegmentationParams)
    {low high : Int}
    (h : ∀ frame ∈ frames, low ≤ frame.capturedAt ∧ frame.capturedAt ≤ high) :
    ∀ span ∈ segmentMicro lowercase order frames taxonomy params, span.Within low high := by
  intro span hSpan
  obtain ⟨⟨first, hFirst, -, hStart⟩, ⟨last, hLast, -, hEnd⟩⟩ := segmentMicro_ends hSpan
  have hProper := (segmentMicro_timeline lowercase order frames taxonomy params).proper span hSpan
  exact ⟨hStart ▸ (h first hFirst).1, hProper.ordered, hEnd ▸ (h last hLast).2, hProper.frames⟩

/-- Drafts stay between the first and the last frame. -/
theorem segment_within (lowercase : String → String) (order : HashOrder)
    {frames : List SegmenterFrame} (taxonomy : Taxonomy) (params : SegmentationParams)
    {low high : Int}
    (h : ∀ frame ∈ frames, low ≤ frame.capturedAt ∧ frame.capturedAt ≤ high) :
    DraftsWithin low high (segmentWithTaxonomy lowercase order frames taxonomy params) := by
  obtain ⟨-, -, -, hRaw⟩ := rawDrafts_shape order params
    (segmentMicro_within lowercase order taxonomy params h)
  rw [segment_eq_arrange, arrange]
  have hSorted : DraftsWithin low high (sortDrafts (rawDrafts order
      (segmentMicro lowercase order frames taxonomy params) params)) :=
    fun draft hDraft => hRaw draft ((mem_sortByKey _).mp hDraft)
  have hTrimmed := (foldl_trimOverlap_within hSorted (∅, []) (by simp) (by
    intro draft hDraft
    cases hDraft)).2
  exact fun draft hDraft => hTrimmed draft ((mem_sortByKey _).mp hDraft)

/-! ## Open drafts -/

theorem pushBehind_isOpen (previousEnd : Option Int) (draft : SessionDraft) :
    (pushBehind previousEnd draft).isOpen = draft.isOpen := by
  unfold pushBehind
  split
  · split <;> rfl
  · rfl

theorem enforceNonOverlapPerTrack_isOpen (drafts : List SessionDraft) :
    (enforceNonOverlapPerTrack drafts).map SessionDraft.isOpen =
      drafts.map SessionDraft.isOpen :=
  enforceNonOverlapPerTrack_map pushBehind_isOpen drafts

/-- An open draft ended less than a merge gap ago. -/
theorem rawDraft_open {micros : List MicroSpan} (hMeeting : params.meetingGapMs ≤ params.mergeGapMs)
    {draft : SessionDraft} (hDraft : draft ∈ rawDrafts order micros params)
    (hOpen : draft.isOpen = true) : params.nowMs - draft.endedAt < params.mergeGapMs := by
  have hRule : TrackRule (fun _ => True) (fun _ => True) (fun _ => True) := by
    constructor <;> intros <;> trivial
  obtain ⟨extra, hRaw, hClosed⟩ := rawDrafts_keeps hRule order params
    fun span (_ : span ∈ micros) => trivial
  rw [hRaw] at hDraft
  rcases List.mem_append.mp hDraft with hBand | hTrack
  · obtain ⟨band, -, rfl⟩ := List.mem_map.mp hBand
    have hlt := of_decide_eq_true hOpen
    exact lt_of_lt_of_le hlt hMeeting
  · obtain ⟨track, closedByGap, -, hFinal⟩ := hClosed draft hTrack
    unfold finalizeTrack at hFinal
    dsimp only at hFinal
    split at hFinal
    · split at hFinal
      · cases hFinal
        simp only [Bool.and_eq_true, decide_eq_true_eq] at hOpen
        exact hOpen.2
      · cases hFinal
    · split at hFinal
      · cases hFinal
        simp only [Bool.and_eq_true, decide_eq_true_eq] at hOpen
        exact hOpen.2
      · cases hFinal

/-- Nothing stays open once a merge gap has passed. -/
theorem segment_closed (lowercase : String → String) (order : HashOrder)
    {frames : List SegmenterFrame} (taxonomy : Taxonomy) {params : SegmentationParams}
    (hMeeting : params.meetingGapMs ≤ params.mergeGapMs)
    (h : ∀ frame ∈ frames, frame.capturedAt + params.mergeGapMs ≤ params.nowMs) :
    ∀ draft ∈ segmentWithTaxonomy lowercase order frames taxonomy params,
      draft.isOpen = false := by
  intro draft hDraft
  by_contra hOpen
  rw [Bool.not_eq_false] at hOpen
  rw [segmentWithTaxonomy] at hDraft
  have hArranged : draft.isOpen ∈ (enforceNonOverlapPerTrack (sortDrafts (rawDrafts order
      (segmentMicro lowercase order frames taxonomy params) params))).map SessionDraft.isOpen :=
    List.mem_map_of_mem ((mem_sortByKey _).mp hDraft)
  rw [enforceNonOverlapPerTrack_isOpen] at hArranged
  obtain ⟨raw, hRaw, hSame⟩ := List.mem_map.mp hArranged
  have hMem := (mem_sortByKey _).mp hRaw
  have hNear := rawDraft_open hMeeting hMem (hSame.trans hOpen)
  obtain ⟨low, hLow⟩ := exists_low (segmentMicro lowercase order frames taxonomy params)
  have hMicros : ∀ span ∈ segmentMicro lowercase order frames taxonomy params,
      span.Within low (params.nowMs - params.mergeGapMs) := by
    intro span hSpan
    obtain ⟨-, last, hLast, -, hEnd⟩ := segmentMicro_ends hSpan
    have hProper :=
      (segmentMicro_timeline lowercase order frames taxonomy params).proper span hSpan
    have hPassed := h last hLast
    exact ⟨hLow span hSpan, hProper.ordered, by omega, hProper.frames⟩
  obtain ⟨-, -, -, hWithin⟩ := rawDrafts_shape order params hMicros
  have := (hWithin raw hMem).2.2.2
  omega

end ScreenSearch.Sessions
