import ScreenSearch.Lib.Ranking
import ScreenSearch.Store.KnnEscalation
import ScreenSearch.Store.SearchTables

/-!
# Hybrid search

A search runs two full-text arms and a vector arm, each of which returns a ranking of frames in a
time window and, if it is scoped, in a session. The rankings are fused by the reciprocals of their
places, the best are kept and given the context of their frames. The engines that rank the rows are
parameters, and the scores are exact.

Main results:

* `ftsArm_eq`, `vectorArm_eq` — each arm is the beginning of a ranking of the frames in scope;
* `hydrate_ids` — every frame that was kept is returned;
* `search_law` — scope, order, dominance, and what is missing.
-/

namespace ScreenSearch.Store

open Ranking

/-! ## Requests and hits -/

def rrfK : ℚ := 60
def maxSearchLimit : Nat := 2000
def maxCandidatePool : Nat := 2000

structure SearchQuery where
  text : String
  limit : Nat
  timeRange : Option (Int × Int)
  includeChrome : Bool
  deriving DecidableEq, Repr

structure SearchHit where
  frameId : Int
  capturedAt : Int
  snippet : String
  score : ℚ
  imagePurged : Bool
  appHint : Option String
  deriving DecidableEq, Repr

def normalizedLimit (limit : Nat) : Nat := min (max limit 1) maxSearchLimit

def candidatePool (limit : Nat) : Nat := min (max (limit * 5) 50) maxCandidatePool

/-- The half-open window and the session of a search; without a window it is the whole line. -/
structure Scope where
  start : Int
  stop : Int
  sessionId : Option Int
  deriving DecidableEq, Repr

def lineStart : Int := -(i64Max : Int) - 1
def lineEnd : Int := i64Max

def scopeOf (q : SearchQuery) (sessionId : Option Int) : Scope :=
  let (start, stop) := q.timeRange.getD (lineStart, lineEnd)
  { start, stop, sessionId }

namespace Scope

def admits (scope : Scope) (frame : StoredFrame) : Bool :=
  decide (scope.start ≤ frame.capturedAt) && decide (frame.capturedAt < scope.stop) &&
    scope.sessionId.all fun id => frame.sessionId == some id

/-- Whether the vector arm has to filter what it fetches. -/
def bounded (scope : Scope) : Bool :=
  scope.start != lineStart || scope.stop != lineEnd || scope.sessionId.isSome

end Scope

/-! ## The engines -/

/-- What ranks rows: the full-text index, which gives the rows that match an expression with their
snippets, best first; and the vector table, which gives its rows by their distance from a text. -/
structure Engine where
  fts : List FtsEntry → String → List (Int × String)
  knn : List VectorRow → String → List VectorRow
  fts_rows : ∀ index expr, ((fts index expr).map Prod.fst).Subperm (index.map Prod.fst)
  knn_perm : ∀ vectors text, (knn vectors text).Perm vectors

/-- Each word quoted, with its quotes doubled; `none` for a blank text. -/
def ftsMatchQuery (text : String) : Option String :=
  let terms := (Text.splitWhitespace text).map fun term =>
    "\"" ++ String.ofList (term.toList.flatMap fun c => if c = '"' then ['"', '"'] else [c]) ++ "\""
  if terms.isEmpty then none else some (" ".intercalate terms)

def truncateSnippet (text : String) : String :=
  if text.toList.length ≤ 160 then text
  else String.ofList (text.toList.take 160) ++ "…"

namespace SearchTables

def frameOf (db : SearchTables) (id : Int) : Option StoredFrame :=
  db.frames.find? fun frame => frame.id == id

/-- The frame of a vector, by the joins on its embedding and on the frame of that. -/
def vectorFrame (db : SearchTables) (vector : VectorRow) : Option StoredFrame :=
  (db.embeddings.find? fun row => row.id == vector.embeddingId).bind fun row => db.frameOf row.frameId

end SearchTables

variable (engine : Engine) (db : SearchTables)

/-! ## The arms -/

/-- `WHERE {table} MATCH ?1 AND ..`, in the order of the rank and without the limit. -/
def ftsMatches (index : List FtsEntry) (expr : String) (scope : Scope) : List (Int × String) :=
  (engine.fts index expr).filter fun row => (db.frameOf row.1).any scope.admits

def ftsArm (index : List FtsEntry) (text : String) (scope : Scope) (pool : Nat) :
    List (Int × String) :=
  match ftsMatchQuery text with
  | none => []
  | some expr => (ftsMatches engine db index expr scope).take pool

/-- One fetch of the vector arm: how many rows the joins gave, and the frames in scope. -/
def fetchInScope (nearest : List VectorRow) (scope : Scope) (k : Nat) : Nat × List Int :=
  let rows := (nearest.take (min k sqliteVecMaxK)).filterMap db.vectorFrame
  (rows.length, (rows.filter scope.admits).map StoredFrame.id)

/-- The rounds an escalation gets; they are more than it needs. -/
def knnRounds : Nat := 5

def textKnnInRange (nearest : List VectorRow) (pool : Nat) (scope : Scope) : List Int :=
  if scope.bounded then
    let window := (db.frames.filter scope.admits).map StoredFrame.id
    let embedded := fun id => db.embeddings.any fun row => row.frameId == id
    match countEmbeddedFramesInRange window embedded pool countScanCap with
    | none => []
    | some target =>
      (escalateInRangeKnn (fetchInScope db nearest scope) pool target knnRounds
        (min pool maxTimeRangeKnn)).getD []
  else (dedupKeepOrder (fetchInScope db nearest scope pool).2).take pool

/-- The vector arm, if there is an embedder and something to embed. -/
def vectorArm (embedder : Bool) (q : SearchQuery) (scope : Scope) (pool : Nat) : List Int :=
  if embedder && !(Text.trim q.text).isEmpty then
    textKnnInRange db (engine.knn db.embeddingVectors q.text) pool scope
  else []

/-! ## The search -/

/-- Highest score first, then the larger id. -/
def fusedKey (e : Int × ℚ) : ℚ ×ₗ Int := toLex (-e.2, -e.1)

/-- Each id with its score; the sort leaves nothing to the order of the map they are kept in. -/
def rrfFuse (arms : List (List Int)) (limit : Nat) : List (Int × ℚ) :=
  best fusedKey limit (arms.flatten.eraseDups.map fun id => (id, fusedScore rrfK arms id))

def hydrateOne (snippets : Int → Option String) (e : Int × ℚ) : Option SearchHit :=
  (db.frameOf e.1).map fun frame =>
    { frameId := e.1
      capturedAt := frame.capturedAt
      snippet := (snippets e.1).getD (((db.contentTextOf e.1).map truncateSnippet).getD "")
      score := e.2
      imagePurged := frame.imagePurged
      appHint := frame.appHint }

def hydrate (fused : List (Int × ℚ)) (snippets : Int → Option String) : List SearchHit :=
  fused.filterMap (hydrateOne db snippets)

def contentArm (q : SearchQuery) (sessionId : Option Int) : List (Int × String) :=
  ftsArm engine db db.contentFts q.text (scopeOf q sessionId) (candidatePool (normalizedLimit q.limit))

def rawArm (q : SearchQuery) (sessionId : Option Int) : List (Int × String) :=
  if q.includeChrome then
    ftsArm engine db db.rawFts q.text (scopeOf q sessionId) (candidatePool (normalizedLimit q.limit))
  else []

/-- The rankings that are fused. -/
def searchArms (embedder : Bool) (q : SearchQuery) (sessionId : Option Int) : List (List Int) :=
  let vec := vectorArm engine db embedder q (scopeOf q sessionId)
    (candidatePool (normalizedLimit q.limit))
  let content := (contentArm engine db q sessionId).map Prod.fst
  if q.includeChrome then [content, (rawArm engine db q sessionId).map Prod.fst, vec]
  else [content, vec]

/-- The snippet of the content arm wins over the one of the raw arm. -/
def searchSnippets (q : SearchQuery) (sessionId : Option Int) (id : Int) : Option String :=
  ((contentArm engine db q sessionId).lookup id).or ((rawArm engine db q sessionId).lookup id)

def hybridSearchScoped (embedder : Bool) (q : SearchQuery) (sessionId : Option Int) :
    List SearchHit :=
  hydrate db (rrfFuse (searchArms engine db embedder q sessionId) (normalizedLimit q.limit))
    (searchSnippets engine db q sessionId)

/-! ## Each arm -/

/-- The keys of the tables. -/
structure Searchable (db : SearchTables) : Prop where
  frames : (db.frames.map StoredFrame.id).Nodup
  content : (db.contentFts.map Prod.fst).Nodup
  raw : (db.rawFts.map Prod.fst).Nodup
  vectors : ∀ vector ∈ db.embeddingVectors, (db.vectorFrame vector).isSome

variable {engine db} {scope : Scope} {pool limit : Nat} {arms : List (List Int)} {id : Int}

theorem frameOf_spec {frame : StoredFrame} (h : db.frameOf id = some frame) :
    frame ∈ db.frames ∧ frame.id = id :=
  ⟨List.mem_of_find?_eq_some h, by simpa using List.find?_some h⟩

theorem frameOf_id (hDb : Searchable db) {frame : StoredFrame} (h : frame ∈ db.frames) :
    db.frameOf frame.id = some frame := by
  rcases hFound : db.frameOf frame.id with _ | other
  · exact absurd (beq_self_eq_true frame.id) (by simpa using List.find?_eq_none.mp hFound frame h)
  · obtain ⟨hOther, hSame⟩ := frameOf_spec hFound
    rw [List.inj_on_of_nodup_map hDb.frames hOther h hSame]

/-- Whether a frame is in scope, by its id. -/
def inScope (db : SearchTables) (scope : Scope) (id : Int) : Bool :=
  (db.frameOf id).any scope.admits

/-- An arm that ranks frames in scope. -/
structure Ranks (db : SearchTables) (scope : Scope) (arm : List Int) : Prop where
  nodup : arm.Nodup
  admitted : ∀ id ∈ arm, inScope db scope id = true

theorem Ranks.nil : Ranks db scope [] := ⟨List.nodup_nil, fun _ h => absurd h List.not_mem_nil⟩

theorem Ranks.take {full : List Int} (h : Ranks db scope full) (n : Nat) :
    Ranks db scope (full.take n) :=
  ⟨h.nodup.sublist (List.take_sublist n full), fun id hid => h.admitted id (List.mem_of_mem_take hid)⟩

theorem ftsMatches_ranks {index : List FtsEntry} (hIndex : (index.map Prod.fst).Nodup)
    (expr : String) : Ranks db scope ((ftsMatches engine db index expr scope).map Prod.fst) := by
  refine ⟨?_, fun id hid => ?_⟩
  · obtain ⟨rows, hPerm, hRows⟩ := engine.fts_rows index expr
    have hAll := hPerm.nodup_iff.mp (hIndex.sublist hRows)
    exact hAll.sublist ((List.filter_sublist).map _)
  · obtain ⟨row, hRow, rfl⟩ := List.mem_map.mp hid
    exact (List.mem_filter.mp hRow).2

/-- The frames an expression matches, best first. -/
def ftsRanking (engine : Engine) (db : SearchTables) (index : List FtsEntry) (text : String)
    (scope : Scope) : List Int :=
  (ftsMatchQuery text).elim [] fun expr => (ftsMatches engine db index expr scope).map Prod.fst

theorem ftsRanking_ranks {index : List FtsEntry} (hIndex : (index.map Prod.fst).Nodup)
    (text : String) : Ranks db scope (ftsRanking engine db index text scope) := by
  unfold ftsRanking
  cases ftsMatchQuery text with
  | none => exact Ranks.nil
  | some expr => exact ftsMatches_ranks hIndex expr

/-- A full-text arm is the beginning of the ranking. -/
theorem ftsArm_eq (index : List FtsEntry) (text : String) (scope : Scope) (pool : Nat) :
    (ftsArm engine db index text scope pool).map Prod.fst =
      (ftsRanking engine db index text scope).take pool := by
  unfold ftsArm ftsRanking
  cases ftsMatchQuery text with
  | none => exact List.take_nil.symm
  | some expr => exact List.map_take

/-! ## The vector arm -/

/-- The frames of the rows by their distance, a frame as often as it has vectors. -/
def vectorRows (db : SearchTables) (nearest : List VectorRow) : List Int :=
  (nearest.filterMap db.vectorFrame).map StoredFrame.id

/-- How many rows the vector arm looks at. -/
def vectorCeiling (scope : Scope) (pool : Nat) : Nat :=
  if scope.bounded then maxTimeRangeKnn else pool

theorem vectorFrame_spec {vector : VectorRow} {frame : StoredFrame}
    (h : db.vectorFrame vector = some frame) :
    frame ∈ db.frames ∧ db.embeddings.any (fun row => row.frameId == frame.id) = true := by
  obtain ⟨row, hRow, hFrame⟩ := Option.bind_eq_some_iff.mp h
  obtain ⟨hMem, hId⟩ := frameOf_spec hFrame
  exact ⟨hMem, List.any_eq_true.mpr ⟨row, List.mem_of_find?_eq_some hRow, by simp [hId]⟩⟩

/-- The joins lose no row. -/
theorem filterMap_take {nearest : List VectorRow}
    (hNearest : ∀ vector ∈ nearest, (db.vectorFrame vector).isSome) (n : Nat) :
    (nearest.take n).filterMap db.vectorFrame = (nearest.filterMap db.vectorFrame).take n := by
  induction nearest generalizing n with
  | nil => rw [List.take_nil, List.filterMap_nil, List.take_nil]
  | cons vector nearest ih =>
    obtain ⟨frame, hFrame⟩ := Option.isSome_iff_exists.mp (hNearest vector List.mem_cons_self)
    have hRest := ih fun v hv => hNearest v (List.mem_cons_of_mem _ hv)
    cases n with
    | zero => rfl
    | succ n =>
      rw [List.take_succ_cons, List.filterMap_cons_some hFrame, List.filterMap_cons_some hFrame,
        List.take_succ_cons, hRest]

/-- A fetch, in terms of the rows alone. -/
theorem fetchInScope_eq (hDb : Searchable db) {nearest : List VectorRow}
    (hNearest : ∀ vector ∈ nearest, (db.vectorFrame vector).isSome) :
    fetchInScope db nearest scope = fetchKnn (vectorRows db nearest) (inScope db scope) := by
  funext k
  unfold fetchInScope fetchKnn vectorRows
  dsimp only
  rw [filterMap_take hNearest, ← List.map_take, List.length_map, List.filter_map]
  refine Prod.ext rfl (congrArg (List.map StoredFrame.id) (List.filter_congr fun frame hFrame => ?_))
  obtain ⟨vector, -, hVector⟩ := List.mem_filterMap.mp (List.mem_of_mem_take hFrame)
  unfold inScope
  rw [Function.comp_apply, frameOf_id hDb (vectorFrame_spec hVector).1]
  rfl

theorem vectorRows_covered (nearest : List VectorRow) :
    Covers ((db.frames.filter scope.admits).map StoredFrame.id)
      (fun id => db.embeddings.any fun row => row.frameId == id) (inScope db scope)
      (vectorRows db nearest) := by
  intro id hid hScope
  obtain ⟨frame, hFrame, rfl⟩ := List.mem_map.mp hid
  obtain ⟨vector, -, hVector⟩ := List.mem_filterMap.mp hFrame
  refine ⟨?_, (vectorFrame_spec hVector).2⟩
  obtain ⟨found, hFound, hAdmits⟩ := (Option.any_eq_true _ _).mp hScope
  obtain ⟨hMem, hId⟩ := frameOf_spec hFound
  exact List.mem_map.mpr ⟨found, List.mem_filter.mpr ⟨hMem, hAdmits⟩, hId⟩

/-- The vector arm is the beginning of a ranking of the rows it looks at. -/
theorem textKnnInRange_eq (hDb : Searchable db) {nearest : List VectorRow}
    (hNearest : ∀ vector ∈ nearest, (db.vectorFrame vector).isSome)
    (hPool : pool ≤ maxTimeRangeKnn) :
    textKnnInRange db nearest pool scope =
      (ranked ((vectorRows db nearest).take (vectorCeiling scope pool)) (inScope db scope)).take
        pool := by
  unfold textKnnInRange vectorCeiling
  rw [fetchInScope_eq hDb hNearest]
  split
  · have hBounded := @boundedKnn_eq _ _ _ _ pool 0 (@vectorRows_covered db scope nearest)
    unfold boundedKnn at hBounded
    dsimp only
    split
    · next hNone =>
      rw [hNone] at hBounded
      exact Option.some.inj hBounded
    · next target hSome =>
      rw [hSome] at hBounded
      exact congrArg (fun found => found.getD []) hBounded
  · rw [fetchKnn, show min pool sqliteVecMaxK = pool from Nat.min_eq_left hPool]
    rfl

theorem knn_known (hDb : Searchable db) (engine : Engine) (text : String) :
    ∀ vector ∈ engine.knn db.embeddingVectors text, (db.vectorFrame vector).isSome :=
  fun vector hVector => hDb.vectors vector ((engine.knn_perm _ text).mem_iff.mp hVector)

/-- What the vector arm ranks: nothing without an embedder or a text. -/
def vectorRanking (engine : Engine) (db : SearchTables) (embedder : Bool) (q : SearchQuery)
    (scope : Scope) (pool : Nat) : List Int :=
  if embedder && !(Text.trim q.text).isEmpty then
    ranked ((vectorRows db (engine.knn db.embeddingVectors q.text)).take (vectorCeiling scope pool))
      (inScope db scope)
  else []

theorem vectorRanking_ranks (engine : Engine) (db : SearchTables) (embedder : Bool)
    (q : SearchQuery) (scope : Scope) (pool : Nat) :
    Ranks db scope (vectorRanking engine db embedder q scope pool) := by
  unfold vectorRanking
  split
  · refine ⟨Sorting.nodup_eraseDups _, fun id hid => ?_⟩
    exact (List.mem_filter.mp (List.mem_eraseDups.mp hid)).2
  · exact Ranks.nil

theorem vectorArm_eq (hDb : Searchable db) {embedder : Bool} {q : SearchQuery}
    (hPool : pool ≤ maxTimeRangeKnn) : vectorArm engine db embedder q scope pool =
      (vectorRanking engine db embedder q scope pool).take pool := by
  unfold vectorArm vectorRanking
  split
  · exact textKnnInRange_eq hDb (knn_known hDb engine q.text) hPool
  · exact List.take_nil.symm

/-! ## Fusion -/

theorem limit_le_pool (limit : Nat) :
    normalizedLimit limit ≤ candidatePool (normalizedLimit limit) := by
  unfold candidatePool normalizedLimit maxSearchLimit maxCandidatePool
  omega

theorem pool_le_ceiling (limit : Nat) : candidatePool limit ≤ maxTimeRangeKnn := by
  unfold candidatePool maxCandidatePool maxTimeRangeKnn sqliteVecMaxK
  omega

/-- Higher score, or as high and the larger id. -/
def Before (a b : Int × ℚ) : Prop := b.2 < a.2 ∨ a.2 = b.2 ∧ b.1 < a.1

theorem fusedKey_le {a b : Int × ℚ} (h : fusedKey a ≤ fusedKey b) (hOther : a.1 ≠ b.1) :
    Before a b := by
  rcases Prod.Lex.le_iff.mp h with hScore | ⟨hScore, hId⟩
  · exact Or.inl (neg_lt_neg_iff.mp hScore)
  · refine Or.inr ⟨neg_injective hScore, lt_of_le_of_ne (neg_le_neg_iff.mp hId) (Ne.symm hOther)⟩

/-- An id with its score. -/
def scored (arms : List (List Int)) (id : Int) : Int × ℚ := (id, fusedScore rrfK arms id)

theorem rrfFuse_scored {e : Int × ℚ} (h : e ∈ rrfFuse arms limit) :
    e = scored arms e.1 ∧ ∃ arm ∈ arms, e.1 ∈ arm := by
  obtain ⟨id, hid, rfl⟩ := List.mem_map.mp (best_subset fusedKey h)
  exact ⟨rfl, List.mem_flatten.mp (List.mem_eraseDups.mp hid)⟩

theorem rrfFuse_ids (arms : List (List Int)) (limit : Nat) :
    ((rrfFuse arms limit).map Prod.fst).Nodup := by
  have hPairs : (rrfFuse arms limit).Nodup := by
    refine best_nodup fusedKey ((Sorting.nodup_eraseDups arms.flatten).map ?_)
    exact fun a b hSame => (Prod.mk.inj hSame).1
  refine List.Nodup.map_on (fun a ha b hb hSame => ?_) hPairs
  rw [(rrfFuse_scored ha).1, (rrfFuse_scored hb).1, hSame]

theorem rrfFuse_pairwise (arms : List (List Int)) (limit : Nat) :
    (rrfFuse arms limit).Pairwise Before := by
  have hKeys := best_pairwise fusedKey (n := limit)
    (l := arms.flatten.eraseDups.map fun id => (id, fusedScore rrfK arms id))
  have hIds := List.pairwise_map.mp (rrfFuse_ids arms limit)
  exact (hKeys.and hIds).imp fun h => fusedKey_le h.1 h.2

theorem rrfK_nonneg : (0 : ℚ) ≤ rrfK := by
  unfold rrfK
  norm_num

/-- An entry of a ranking that is not among the hits, unless it lies behind the part of the ranking
that was fused: the hits are as many as asked for, and come before it. -/
theorem rrfFuse_missing {full : List Int} (hArms : ∀ arm ∈ arms, arm.Nodup) (hFull : full.Nodup)
    (hArm : full.take pool ∈ arms) (hLimit : limit ≤ pool) (hid : id ∈ full)
    (hMissing : id ∉ (rrfFuse arms limit).map Prod.fst) :
    (rrfFuse arms limit).length = limit ∧ ∀ e ∈ rrfFuse arms limit, Before e (scored arms id) := by
  by_cases hListed : ∃ arm ∈ arms, id ∈ arm
  · have hEntry : scored arms id ∈ arms.flatten.eraseDups.map
        fun id => (id, fusedScore rrfK arms id) :=
      List.mem_map_of_mem (List.mem_eraseDups.mpr (List.mem_flatten.mpr hListed))
    have hNot : scored arms id ∉ rrfFuse arms limit :=
      fun h => hMissing (List.mem_map_of_mem (f := Prod.fst) h)
    obtain ⟨hLength, hBefore⟩ := best_complete fusedKey hEntry hNot
    refine ⟨hLength, fun e he => fusedKey_le (hBefore e he) fun hSame => ?_⟩
    have hId : e.1 = id := hSame
    exact hMissing (hId ▸ List.mem_map_of_mem he)
  · -- it was cut off, so its arm has `pool` others
    have hCut : id ∉ full.take pool := fun h => hListed ⟨_, hArm, h⟩
    have hLong : (full.take pool).length = pool := by
      rw [List.length_take, Nat.min_eq_left]
      by_contra hShort
      rw [List.take_of_length_le (by omega)] at hCut
      exact hCut hid
    have hEntries : (full.take pool).length ≤ arms.flatten.eraseDups.length := by
      have hSome : full.take pool ⊆ arms.flatten.eraseDups := fun x hx =>
        List.mem_eraseDups.mpr (List.mem_flatten.mpr ⟨_, hArm, hx⟩)
      exact (List.subperm_of_subset (hFull.sublist (List.take_sublist _ _)) hSome).length_le
    constructor
    · rw [rrfFuse, best_length, List.length_map]
      omega
    · intro e he
      obtain ⟨hScored, hSome⟩ := rrfFuse_scored he
      have hNone : (scored arms id).2 = 0 :=
        fusedScore_of_not_mem fun arm hArm hIn => hListed ⟨arm, hArm, hIn⟩
      refine Or.inl ?_
      rw [hNone, hScored]
      exact fusedScore_pos rrfK_nonneg hArms hSome

/-! ## The hits -/

/-- Every frame that was kept is returned, with its score. -/
theorem hydrate_ids {fused : List (Int × ℚ)} {snippets : Int → Option String}
    (h : ∀ e ∈ fused, inScope db scope e.1 = true) :
    (hydrate db fused snippets).map (fun hit => (hit.frameId, hit.score)) = fused := by
  induction fused with
  | nil => rfl
  | cons e fused ih =>
    obtain ⟨frame, hFrame, -⟩ := (Option.any_eq_true _ _).mp (h e List.mem_cons_self)
    have hRest := ih fun e he => h e (List.mem_cons_of_mem _ he)
    unfold hydrate at hRest ⊢
    rw [List.filterMap_cons, hydrateOne, hFrame]
    exact congrArg (e :: ·) hRest

theorem hydrate_frame {fused : List (Int × ℚ)} {snippets : Int → Option String} {hit : SearchHit}
    (h : hit ∈ hydrate db fused snippets) :
    ∃ frame, db.frameOf hit.frameId = some frame ∧ frame.capturedAt = hit.capturedAt := by
  obtain ⟨e, -, hHit⟩ := List.mem_filterMap.mp h
  obtain ⟨frame, hFrame, rfl⟩ := Option.map_eq_some_iff.mp hHit
  exact ⟨frame, hFrame, rfl⟩

/-- The rankings behind the arms that take part in a search. -/
def searchRankings (engine : Engine) (db : SearchTables) (embedder : Bool) (q : SearchQuery)
    (sessionId : Option Int) : List (List Int) :=
  let scope := scopeOf q sessionId
  let content := ftsRanking engine db db.contentFts q.text scope
  let vec := vectorRanking engine db embedder q scope (candidatePool (normalizedLimit q.limit))
  if q.includeChrome then [content, ftsRanking engine db db.rawFts q.text scope, vec]
  else [content, vec]

variable {embedder : Bool} {q : SearchQuery} {sessionId : Option Int} {full : List Int}

theorem mem_searchRankings : full ∈ searchRankings engine db embedder q sessionId ↔
    full = ftsRanking engine db db.contentFts q.text (scopeOf q sessionId) ∨
      (q.includeChrome = true ∧
        full = ftsRanking engine db db.rawFts q.text (scopeOf q sessionId)) ∨
      full = vectorRanking engine db embedder q (scopeOf q sessionId)
        (candidatePool (normalizedLimit q.limit)) := by
  unfold searchRankings
  dsimp only
  split
  · next hChrome => simp [hChrome]
  · next hChrome => simp [hChrome]

theorem searchRankings_ranks (hDb : Searchable db)
    (h : full ∈ searchRankings engine db embedder q sessionId) :
    Ranks db (scopeOf q sessionId) full := by
  rcases mem_searchRankings.mp h with rfl | ⟨-, rfl⟩ | rfl
  · exact ftsRanking_ranks hDb.content q.text
  · exact ftsRanking_ranks hDb.raw q.text
  · exact vectorRanking_ranks engine db embedder q _ _

/-- An arm is the beginning of its ranking. -/
theorem searchArms_eq (hDb : Searchable db) : searchArms engine db embedder q sessionId =
    (searchRankings engine db embedder q sessionId).map
      fun full => full.take (candidatePool (normalizedLimit q.limit)) := by
  unfold searchArms searchRankings contentArm rawArm
  rw [vectorArm_eq hDb (pool_le_ceiling _), ftsArm_eq]
  dsimp only
  split
  · rw [ftsArm_eq]
    rfl
  · rfl

theorem searchArms_ranks (hDb : Searchable db) :
    ∀ arm ∈ searchArms engine db embedder q sessionId, Ranks db (scopeOf q sessionId) arm := by
  intro arm hArm
  rw [searchArms_eq hDb] at hArm
  obtain ⟨full, hFull, rfl⟩ := List.mem_map.mp hArm
  exact (searchRankings_ranks hDb hFull).take _

/-- The hits are the fused entries. -/
theorem hits_eq (hDb : Searchable db) (engine : Engine) (embedder : Bool) (q : SearchQuery)
    (sessionId : Option Int) :
    (hybridSearchScoped engine db embedder q sessionId).map (fun hit => (hit.frameId, hit.score)) =
      rrfFuse (searchArms engine db embedder q sessionId) (normalizedLimit q.limit) := by
  refine @hydrate_ids db (scopeOf q sessionId) _ _ fun e he => ?_
  obtain ⟨-, arm, hArm, hIn⟩ := rrfFuse_scored he
  exact (searchArms_ranks hDb arm hArm).admitted e.1 hIn

theorem hits_ids (hDb : Searchable db) (engine : Engine) (embedder : Bool) (q : SearchQuery)
    (sessionId : Option Int) :
    (hybridSearchScoped engine db embedder q sessionId).map SearchHit.frameId =
      (rrfFuse (searchArms engine db embedder q sessionId) (normalizedLimit q.limit)).map
        Prod.fst := by
  rw [← hits_eq hDb, List.map_map]
  rfl

/-- There are as many hits as were asked for, and they come before an entry. -/
def Crowded (limit : Nat) (hits : List SearchHit) (e : Int × ℚ) : Prop :=
  hits.length = normalizedLimit limit ∧ ∀ hit ∈ hits, Before (hit.frameId, hit.score) e

theorem crowded_of_ranking (hDb : Searchable db)
    (hFull : full ∈ searchRankings engine db embedder q sessionId) (hid : id ∈ full)
    (hMissing : id ∉ (hybridSearchScoped engine db embedder q sessionId).map SearchHit.frameId) :
    Crowded q.limit (hybridSearchScoped engine db embedder q sessionId)
      (scored (searchArms engine db embedder q sessionId) id) := by
  have hHits := hits_eq hDb engine embedder q sessionId
  have hIds := hits_ids hDb engine embedder q sessionId
  generalize hybridSearchScoped engine db embedder q sessionId = hits at hHits hIds hMissing ⊢
  rw [hIds] at hMissing
  have hArm : full.take (candidatePool (normalizedLimit q.limit)) ∈
      searchArms engine db embedder q sessionId := by
    rw [searchArms_eq hDb]
    exact List.mem_map_of_mem hFull
  obtain ⟨hLength, hBefore⟩ := rrfFuse_missing (fun arm h => (searchArms_ranks hDb arm h).nodup)
    (searchRankings_ranks hDb hFull).nodup hArm (limit_le_pool q.limit) hid hMissing
  rw [← hHits] at hLength hBefore
  rw [List.length_map] at hLength
  exact ⟨hLength, fun hit h => hBefore _ (List.mem_map_of_mem h)⟩

/-- A hit is a frame in scope, with the score of its id. -/
theorem hit_spec (hDb : Searchable db) {hit : SearchHit}
    (h : hit ∈ hybridSearchScoped engine db embedder q sessionId) :
    ∃ frame, db.frameOf hit.frameId = some frame ∧ frame.capturedAt = hit.capturedAt ∧
      (scopeOf q sessionId).admits frame = true ∧
      hit.score = fusedScore rrfK (searchArms engine db embedder q sessionId) hit.frameId := by
  obtain ⟨frame, hFrame, hTime⟩ := hydrate_frame h
  have hEntry : (hit.frameId, hit.score) ∈
      rrfFuse (searchArms engine db embedder q sessionId) (normalizedLimit q.limit) := by
    rw [← hits_eq hDb]
    exact List.mem_map_of_mem h
  obtain ⟨hScored, arm, hArm, hIn⟩ := rrfFuse_scored hEntry
  have hScope := (searchArms_ranks hDb arm hArm).admitted _ hIn
  unfold inScope at hScope
  rw [hFrame] at hScope
  exact ⟨frame, hFrame, hTime, hScope, (Prod.mk.inj hScored).2⟩

theorem hits_pairwise (hDb : Searchable db) :
    (hybridSearchScoped engine db embedder q sessionId).Pairwise
      fun a b => Before (a.frameId, a.score) (b.frameId, b.score) := by
  have hPairs := rrfFuse_pairwise (searchArms engine db embedder q sessionId) (normalizedLimit q.limit)
  rw [← hits_eq hDb] at hPairs
  exact List.pairwise_map.mp hPairs

/-- A row among those the vector arm looks at is in its ranking. -/
theorem mem_vectorRanking {scope : Scope} (hActive : embedder = true)
    (hText : (Text.trim q.text).isEmpty = false) (hScope : inScope db scope id = true)
    (hRow : id ∈ vectorRows db (engine.knn db.embeddingVectors q.text))
    (hNear : (vectorRows db (engine.knn db.embeddingVectors q.text)).idxOf id <
      vectorCeiling scope pool) : id ∈ vectorRanking engine db embedder q scope pool := by
  unfold vectorRanking
  rw [hActive, hText]
  exact List.mem_eraseDups.mpr
    (List.mem_filter.mpr ⟨(List.mem_take_iff_idxOf_lt hRow).mpr hNear, hScope⟩)

/-- In every search of a store: the hits are different frames, as many as asked for at most, in the
window and the session. They come by their score, then by the larger id, and a frame that every arm
places as high as another one is not behind it with a lower score. A frame that matches is missing
only behind as many hits as were asked for, or, if the vector arm alone knows it, because that arm
looked at all its rows before it: the engine's ceiling of rows in a window or a session, the
candidate pool of rows otherwise. -/
theorem search_law (engine : Engine) (db : SearchTables) (embedder : Bool) (q : SearchQuery)
    (sessionId : Option Int) (hDb : Searchable db) :
    let hits := hybridSearchScoped engine db embedder q sessionId
    let arms := searchArms engine db embedder q sessionId
    let scope := scopeOf q sessionId
    (hits.map SearchHit.frameId).Nodup ∧
    hits.length ≤ normalizedLimit q.limit ∧
    (∀ hit ∈ hits, ∃ frame ∈ db.frames, frame.id = hit.frameId ∧
      frame.capturedAt = hit.capturedAt ∧ scope.start ≤ hit.capturedAt ∧
      hit.capturedAt < scope.stop ∧ ∀ session ∈ sessionId, frame.sessionId = some session) ∧
    hits.Pairwise (fun a b => Before (a.frameId, a.score) (b.frameId, b.score)) ∧
    (∀ first later, [first, later].Sublist hits →
      (∀ arm ∈ arms, first.frameId ∈ arm →
        later.frameId ∈ arm ∧ arm.idxOf later.frameId ≤ arm.idxOf first.frameId) →
      later.score = first.score) ∧
    (∀ id, id ∉ hits.map SearchHit.frameId →
      (id ∈ ftsRanking engine db db.contentFts q.text scope ∨
        q.includeChrome = true ∧ id ∈ ftsRanking engine db db.rawFts q.text scope →
        Crowded q.limit hits (scored arms id)) ∧
      (embedder = true → (Text.trim q.text).isEmpty = false → inScope db scope id = true →
        id ∈ vectorRows db (engine.knn db.embeddingVectors q.text) →
        Crowded q.limit hits (scored arms id) ∨
          vectorCeiling scope (candidatePool (normalizedLimit q.limit)) ≤
            (vectorRows db (engine.knn db.embeddingVectors q.text)).idxOf id)) := by
  intro hits arms scope
  have hPairs : hits.Pairwise _ := hits_pairwise hDb
  refine ⟨?_, ?_, ?_, hPairs, ?_, ?_⟩
  · rw [hits_ids hDb]
    exact rrfFuse_ids _ _
  · have hLength := congrArg List.length (hits_eq hDb engine embedder q sessionId)
    rw [List.length_map, rrfFuse, best_length] at hLength
    exact hLength ▸ Nat.min_le_left _ _
  · intro hit hHit
    obtain ⟨frame, hFrame, hTime, hAdmits, -⟩ := hit_spec hDb hHit
    obtain ⟨hMem, hId⟩ := frameOf_spec hFrame
    unfold Scope.admits at hAdmits
    rw [Bool.and_eq_true, Bool.and_eq_true, decide_eq_true_eq, decide_eq_true_eq, hTime] at hAdmits
    obtain ⟨⟨hStart, hStop⟩, hSession⟩ := hAdmits
    refine ⟨frame, hMem, hId, hTime, hStart, hStop, fun session hWanted => ?_⟩
    have hOwner : scope.sessionId = some session := hWanted
    rw [show (scopeOf q sessionId).sessionId = some session from hOwner, Option.all_some] at hSession
    exact beq_iff_eq.mp hSession
  · intro first later hOrder hPlaces
    obtain ⟨-, -, -, -, hFirst⟩ := hit_spec hDb (hOrder.subset List.mem_cons_self)
    obtain ⟨-, -, -, -, hLater⟩ :=
      hit_spec hDb (hOrder.subset (List.mem_cons_of_mem _ List.mem_cons_self))
    -- no arm places the later one behind, so its score is no lower
    have hScores : first.score ≤ later.score := by
      rw [hFirst, hLater]
      exact fusedScore_mono rrfK_nonneg (fun arm h => (searchArms_ranks hDb arm h).nodup) hPlaces
    have hBefore := List.rel_of_pairwise_cons (hPairs.sublist hOrder) List.mem_cons_self
    rcases hBefore with hLess | ⟨hSame, -⟩
    · exact absurd hScores (not_le_of_gt hLess)
    · exact hSame.symm
  · intro id hMissing
    refine ⟨fun hMatch => ?_, fun hActive hText hScope hRow => ?_⟩
    · rcases hMatch with hContent | ⟨hChrome, hRaw⟩
      · exact crowded_of_ranking hDb (mem_searchRankings.mpr (Or.inl rfl)) hContent hMissing
      · exact crowded_of_ranking hDb (mem_searchRankings.mpr (Or.inr (Or.inl ⟨hChrome, rfl⟩))) hRaw
          hMissing
    · -- the vector arm looks at so many rows only
      rcases Nat.lt_or_ge ((vectorRows db (engine.knn db.embeddingVectors q.text)).idxOf id)
        (vectorCeiling scope (candidatePool (normalizedLimit q.limit))) with hNear | hFar
      · exact Or.inl (crowded_of_ranking hDb (mem_searchRankings.mpr (Or.inr (Or.inr rfl)))
          (mem_vectorRanking hActive hText hScope hRow hNear) hMissing)
      · exact Or.inr hFar

/-- Every entry matches, and the rows are ranked in the order they were stored in. -/
def Engine.stored : Engine where
  fts index _ := index
  knn vectors _ := vectors
  fts_rows index _ := List.Subperm.refl (index.map Prod.fst)
  knn_perm vectors _ := List.Perm.refl vectors

/-- Two frames without a text, the first one with so many chunks and the second with one. -/
def chunkedStore (chunks : Nat) : SearchTables where
  toFrameTables :=
    { SearchTables.noFrames with
      frames := [1, 2].map fun id =>
        { id, capturedAt := 1000 * id, monitorIndex := 0, appHint := none, windowTitle := none
          browserUrl := none, activityType := none, sessionId := none, imagePurged := false } }
  textSpans := []
  chromeTextCatalog := []
  contentFts := []
  rawFts := []
  embeddings := (List.range (chunks + 1)).map fun i =>
    { id := i, frameId := if i < chunks then 1 else 2, chunkIndex := if i < chunks then i else 0
      chunkText := "invoice", source := .ocr, model := "m" }
  embeddingVectors := (List.range (chunks + 1)).map fun i => { embeddingId := i, embedding := [] }
  jobs := []

/-- With one chunk each, both frames are found. -/
theorem search_law_chunked :
    let q : SearchQuery := ⟨"invoice", 2, none, false⟩
    (hybridSearchScoped Engine.stored (chunkedStore 1) true q none).length ≤ normalizedLimit 2 ∧
      (hybridSearchScoped Engine.stored (chunkedStore 1) true q none).map SearchHit.frameId =
        [1, 2] := by
  intro q
  have hDb : Searchable (chunkedStore 1) :=
    ⟨by decide, by decide, by decide, by decide⟩
  exact ⟨(search_law Engine.stored (chunkedStore 1) true q none hDb).2.1, by decide +kernel⟩

/-- Fifty chunks of one frame fill the pool of a search without a window, and a frame that matches
is missing from an answer that is not full, with fifty rows before it. -/
theorem search_chunks_fill_pool :
    let db := chunkedStore 50
    let q : SearchQuery := ⟨"invoice", 2, none, false⟩
    let hits := hybridSearchScoped Engine.stored db true q none
    let rows := vectorRows db (Engine.stored.knn db.embeddingVectors q.text)
    Searchable db ∧ inScope db (scopeOf q none) 2 = true ∧ 2 ∈ rows ∧
      2 ∉ hits.map SearchHit.frameId ∧ hits.length < normalizedLimit q.limit ∧
      rows.idxOf 2 < maxTimeRangeKnn := by
  intro db q hits rows
  refine ⟨⟨by decide, by decide, by decide, by decide +kernel⟩, ?_⟩
  decide +kernel

end ScreenSearch.Store
