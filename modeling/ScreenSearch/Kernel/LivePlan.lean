import ScreenSearch.Kernel.Scheduler

/-!
# What a pass wants to do

The plan of an incremental pass is a function of the tables: the trimmed drafts,
each with the row it is matched with. `Plan` says what the writes rely on.

* `livePlan_plan` — the plan of a pass is one;
* `bestMatch_spec` — the row a draft is matched with.
-/

namespace ScreenSearch.Kernel

open Process Sorting Store Sessions

/-! ## Trimming -/

/-- Retaining changes the frames and the span, nothing else. -/
theorem retainFrames_some {frames : List SegmenterFrame} {keep : Int → Bool}
    {draft trimmed : SessionDraft} (h : retainFrames frames keep draft = some trimmed) :
    trimmed.frameIds = (draft.frameIds.filter fun id => (frameTime frames id).any keep) ∧
      trimmed.frameIds ≠ [] ∧
      trimmed = { draft with
        frameIds := trimmed.frameIds, startedAt := trimmed.startedAt
        endedAt := trimmed.endedAt } ∧
      (trimmed.frameIds.filterMap (frameTime frames)).min? = some trimmed.startedAt ∧
      (trimmed.frameIds.filterMap (frameTime frames)).max? = some trimmed.endedAt := by
  unfold retainFrames at h
  dsimp only at h
  split at h
  · cases h
  · rename_i hne
    obtain ⟨lo, hlo, h⟩ := Option.bind_eq_some_iff.mp h
    obtain ⟨hi, hhi, h⟩ := Option.bind_eq_some_iff.mp h
    cases h
    exact ⟨rfl, by simpa using hne, rfl, hlo, hhi⟩

theorem retainFrames_sublist {frames : List SegmenterFrame} {keep : Int → Bool}
    {draft trimmed : SessionDraft} (h : retainFrames frames keep draft = some trimmed) :
    trimmed.frameIds.Sublist draft.frameIds := by
  rw [(retainFrames_some h).1]
  exact List.filter_sublist

/-- Trimming takes frames away only. -/
theorem ownedIds_trim_sublist (drafts : List SessionDraft) (frozen : List Session)
    (frames : List SegmenterFrame) :
    (ownedIds (trimDraftsAgainstFrozen drafts frozen frames)).Sublist (ownedIds drafts) := by
  induction drafts with
  | nil => exact List.Sublist.refl _
  | cons draft drafts ih =>
    rw [trimDraftsAgainstFrozen, List.filterMap_cons]
    split
    · exact ih.trans (List.sublist_append_right ..)
    · rename_i trimmed htrim
      refine List.Sublist.append ?_ ih
      split at htrim
      · exact retainFrames_sublist htrim
      · cases htrim
        exact List.Sublist.refl _

/-! ## Matching -/

theorem bestMatch_spec {draft : SessionDraft} {existing : List Session} {used : List Int}
    {nowMs id : Int} (h : bestMatch draft existing used nowMs = some id) :
    id ∉ used ∧ ∃ session ∈ existing, session.id = id ∧ session.frozen = false ∧
      session.contextKey = draft.contextKey := by
  obtain ⟨⟨session, overlap⟩, hbest, rfl⟩ := Option.map_eq_some_iff.mp h
  obtain ⟨found, hfound, hoverlap⟩ := List.mem_filterMap.mp (maxByKey_mem _ hbest)
  obtain ⟨overlap', -, heq⟩ := Option.map_eq_some_iff.mp hoverlap
  cases heq
  obtain ⟨hin, hcond⟩ := List.mem_filter.mp hfound
  simp only [Bool.and_eq_true, Bool.not_eq_true', beq_iff_eq, decide_eq_true_eq] at hcond
  exact ⟨hcond.2, session, hin, rfl, hcond.1.1, hcond.1.2⟩

theorem matchUnused_length (existing : List Session) (nowMs : Int) (used : List Int)
    (drafts : List SessionDraft) :
    (matchUnused existing nowMs used drafts).length = drafts.length := by
  induction drafts generalizing used with
  | nil => rfl
  | cons draft drafts ih =>
    rw [matchUnused, List.length_cons, List.length_cons, ih]

/-- Matched rows are taken once, and none of them was taken before. -/
theorem matchUnused_distinct (existing : List Session) (nowMs : Int) {used : List Int}
    (drafts : List SessionDraft) (hUsed : used.Nodup) :
    ((matchUnused existing nowMs used drafts).filterMap id ++ used).Nodup := by
  induction drafts generalizing used with
  | nil => exact hUsed
  | cons draft drafts ih =>
    rw [matchUnused]
    cases hbest : bestMatch draft existing used nowMs with
    | none => exact ih hUsed
    | some id =>
      have hnew : (id :: used).Nodup :=
        List.nodup_cons.mpr ⟨(bestMatch_spec hbest).1, hUsed⟩
      have hrest := ih hnew
      exact List.perm_middle.nodup_iff.mp hrest

theorem matchUnused_mem {existing : List Session} {nowMs : Int} {used : List Int}
    {drafts : List SessionDraft} {entry : SessionDraft × Option Int} {id : Int}
    (h : entry ∈ drafts.zip (matchUnused existing nowMs used drafts))
    (hid : entry.2 = some id) :
    ∃ session ∈ existing, session.id = id ∧ session.frozen = false ∧
      session.contextKey = entry.1.contextKey := by
  induction drafts generalizing used with
  | nil => simp at h
  | cons draft drafts ih =>
    rw [matchUnused, List.zip_cons_cons] at h
    rcases List.mem_cons.mp h with rfl | hin
    · exact (bestMatch_spec hid).2
    · exact ih hin

/-! ## The plan -/

theorem unfrozenSessions_mem {db : Tables} {session : Session} :
    session ∈ unfrozenSessions db ↔ session ∈ db.sessions ∧ session.frozen = false := by
  simp [unfrozenSessions]

theorem framesMetaInRange_nodup {db : Tables} (h : db.WellFormed) (fromMs toMs : Int) :
    ((framesMetaInRange fromMs toMs db).map SegmenterFrame.id).Nodup := by
  unfold framesMetaInRange
  split
  · exact List.nodup_nil
  · refine ((sortByKey_perm _ _).map SegmenterFrame.id).nodup_iff.mpr ?_
    refine List.Nodup.sublist (List.filter_sublist.map _) ?_
    rw [List.map_map]
    exact h.frameIds

def liveStart (nowMs : Int) (current : Settings) (db : Tables) : Int :=
  windowStart (unfrozenSessions db) (nowMs - (paramsFromSettings nowMs current).freezeLookbackMs)

def liveFrames (nowMs : Int) (current : Settings) (db : Tables) : List SegmenterFrame :=
  framesMetaInRange (liveStart nowMs current db) (nowMs + 1) db

/-- The trimmed drafts of the live window. -/
def liveDrafts (segmenter : SessionSegmenter) (nowMs : Int) (current : Settings) (db : Tables) :
    List SessionDraft :=
  trimDraftsAgainstFrozen
    (segmenter.segment (liveFrames nowMs current db) (paramsFromSettings nowMs current))
    ((sessionsInRange (liveFilter (liveStart nowMs current db) nowMs) db).filter Session.frozen)
    (liveFrames nowMs current db)

def livePlan (segmenter : SessionSegmenter) (nowMs : Int) (current : Settings) (db : Tables) :
    List (SessionDraft × Option Int) :=
  (liveDrafts segmenter nowMs current db).zip
    (matchDraftsToExisting (liveDrafts segmenter nowMs current db) (unfrozenSessions db) nowMs)

/-- What the writes rely on: no frame is wanted twice, no row is matched twice,
and a matched row may change. -/
structure Plan (db : Tables) (plan : List (SessionDraft × Option Int)) : Prop where
  once : (ownedIds (plan.map Prod.fst)).Nodup
  distinct : (plan.filterMap Prod.snd).Nodup
  rows : ∀ entry ∈ plan, ∀ id, entry.2 = some id →
    ∃ session ∈ db.sessions, session.id = id ∧ session.frozen = false ∧
      session.contextKey = entry.1.contextKey

variable (segmenter : SessionSegmenter) (nowMs : Int) (current : Settings)

theorem livePlan_drafts (db : Tables) :
    (livePlan segmenter nowMs current db).map Prod.fst = liveDrafts segmenter nowMs current db :=
  List.map_fst_zip (matchUnused_length ..).ge

theorem livePlan_matches (db : Tables) :
    (livePlan segmenter nowMs current db).map Prod.snd =
      matchDraftsToExisting (liveDrafts segmenter nowMs current db) (unfrozenSessions db) nowMs :=
  List.map_snd_zip (matchUnused_length ..).le

theorem livePlan_plan {db : Tables} (h : db.WellFormed) :
    Plan db (livePlan segmenter nowMs current db) where
  once := by
    rw [livePlan_drafts]
    exact (segmenter.once _ _ (framesMetaInRange_nodup h _ _)).sublist
      (ownedIds_trim_sublist ..)
  distinct := by
    have hdistinct := matchUnused_distinct (unfrozenSessions db) nowMs
      (liveDrafts segmenter nowMs current db) List.nodup_nil
    rw [List.append_nil] at hdistinct
    rw [← Function.id_comp Prod.snd, ← List.filterMap_map, livePlan_matches]
    exact hdistinct
  rows := by
    intro entry hentry id hid
    obtain ⟨session, hin, hsession⟩ := matchUnused_mem hentry hid
    exact ⟨session, (unfrozenSessions_mem.mp hin).1, hsession⟩

/-- The reads change nothing: a pass applies the plan of the tables it starts in. -/
theorem runIncrementalPass_ends {env : Surroundings} {start : SchedulerDb}
    {Q : Bool → SchedulerDb → Prop} {E : PassError → Prop}
    (hFail : ∀ n, env.fails n = true → E .unavailable)
    (h : Ends (applyPlan env segmenter (unfrozenSessions start.tables)
      (livePlan segmenter nowMs current start.tables)) start Q E) :
    Ends (runIncrementalPass env segmenter nowMs current) start Q E := by
  rw [runIncrementalPass]
  refine Ends.bind (R := fun existing db => db = start ∧ existing = unfrozenSessions start.tables)
    (query_ends hFail ⟨rfl, rfl⟩) ?_
  rintro existing db ⟨rfl, rfl⟩
  refine Ends.bind (R := fun frames after => after = db ∧
    frames = liveFrames nowMs current db.tables) (query_ends hFail ⟨rfl, rfl⟩) ?_
  rintro frames after ⟨rfl, rfl⟩
  refine Ends.bind (R := fun ranged last => last = after ∧
    ranged = sessionsInRange (liveFilter (liveStart nowMs current after.tables) nowMs) after.tables)
    (query_ends hFail ⟨rfl, rfl⟩) ?_
  rintro ranged last ⟨rfl, rfl⟩
  exact h

end ScreenSearch.Kernel
