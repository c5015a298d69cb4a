import ScreenSearch.Memory.Leaving

/-!
# Dispatch order

A round reads the attempts of a run once and goes through them in the order of their
chunks. What it relies on is that an attempt it has not come to is as it was read, and
that one it has passed is settled: `Round`.

Main results:

* `dispatchLoop_rule` — what a round keeps, from what sending one chunk keeps;
* `deliverTelegram_inOrder` — chunks are dispatched in order, and none while a delivery
  of the run is unknown;
* `deliverTelegram_spares` — an attempt whose delivery is unknown is not dispatched.
-/

namespace ScreenSearch.Memory

open Process Store

variable {α : Type} {env : Environment} {S : ReportDelivery → Prop} {I E : MemoryProc → Prop}

/-! ## Invariants -/

/-- A condition on every dispatch. -/
def OnDispatch (P : MemoryDb → ReportDelivery → Prop) (m : Moment MemoryDb Event) : Prop :=
  ∀ attempt, m.event = some (.dispatch attempt) → P m.store attempt

/-- Since `past` every dispatch met `P`; attempts have distinct identifiers, and `F` holds of
the store. -/
structure Since (P : MemoryDb → ReportDelivery → Prop) (past : List (Moment MemoryDb Event))
    (F : MemoryDb → Prop) (p : MemoryProc) : Prop where
  ids : (p.store.deliveries.map ReportDelivery.id).Nodup
  recent : ∃ recent, p.history = recent ++ past ∧ ∀ m ∈ recent, OnDispatch P m
  store : F p.store

variable {P : MemoryDb → ReportDelivery → Prop} {past : List (Moment MemoryDb Event)}
  {F G : MemoryDb → Prop} {p : MemoryProc}

theorem Since.mono (h : Since P past F p) (hFG : F p.store → G p.store) : Since P past G p :=
  ⟨h.ids, h.recent, hFG h.store⟩

/-- One more moment. -/
theorem Since.moment (h : Since P past F p) {m : Moment MemoryDb Event} {db : MemoryDb} {c : Nat}
    (hIds : (db.deliveries.map ReportDelivery.id).Nodup) (hF : G db) (hm : OnDispatch P m) :
    Since P past G { store := db, clock := c, history := m :: p.history } := by
  obtain ⟨recent, hHistory, hRecent⟩ := h.recent
  refine ⟨hIds, ⟨m :: recent, ?_, ?_⟩, hF⟩
  · dsimp only
    rw [hHistory, List.cons_append]
  · intro m' hm'
    rcases List.mem_cons.mp hm' with rfl | hIn
    · exact hm
    · exact hRecent m' hIn

theorem onDispatch_none (db : MemoryDb) : OnDispatch P { store := db, event := none } :=
  fun _ h => nomatch h

theorem since_quiet : Quiet (Since P past F) where
  clock _ _ h := ⟨h.ids, h.recent, h.store⟩
  moment p h := h.moment h.ids h.store (onDispatch_none p.store)

/-- What is known of the store has to survive statements that leave `S` alone. -/
theorem since_tolerant (hF : ∀ db db', (db.deliveries.map ReportDelivery.id).Nodup →
    Leaves S db db' → F db → F db') : Tolerant S (Since P past F) where
  clock := since_quiet.clock
  moment := since_quiet.moment
  leaves p db' _ hLeaves h :=
    h.moment (hLeaves.ids h.ids) (hF p.store db' h.ids hLeaves h.store) (onDispatch_none db')
  announce _ _ hEvent h :=
    h.moment h.ids h.store fun attempt hDispatch =>
      absurd (Option.some.inj hDispatch) (hEvent attempt)

/-! ## The loop -/

/-- A state that is final. -/
def Settled (d : ReportDelivery) : Prop :=
  d.state = .succeeded ∨ d.state = .skipped ∨ d.state = .reviewed

theorem Reads.triple {x : MemoryProgram α} (h : Reads x) (hI : Quiet I) (hE : ∀ p, I p → E p) :
    Triple I x (fun _ => I) E := (h I hI).mono (fun _ h => h) (fun _ _ h => h) hE

/-- What goes on after an attempt. -/
def Onward (R E : MemoryProc → Prop) (onward : Bool) (p : MemoryProc) : Prop :=
  if onward then R p else E p

section

variable {R : List ReportDelivery → MemoryProc → Prop} (hQuiet : ∀ rest, Quiet (R rest))
  (hEnd : ∀ rest p, R rest p → E p)
  (hSend : ∀ item rest, Triple (R (item :: rest)) (sendChunk env item) (Onward (R rest) E) E)
  (hGiveUp : ∀ item rest error, Triple (R (item :: rest))
    (updateDelivery env { item with state := .failed, nextAttemptAt := none, error := error }
      item.state) (fun _ => E) E)
include hQuiet hEnd hSend hGiveUp

theorem dispatchOne_rule (run : ReportRun) (item : ReportDelivery) (rest : List ReportDelivery) :
    Triple (R (item :: rest)) (dispatchOne env run item) (Onward (R rest) E) E := by
  have hStop : Triple (R (item :: rest)) (pure false : MemoryProgram Bool) (Onward (R rest) E) E :=
    Triple.pure fun p hp => hEnd _ p hp
  have hReads : ∀ {β : Type} {x : MemoryProgram β}, Reads x →
      Triple (R (item :: rest)) x (fun _ => R (item :: rest)) E := fun h =>
    h.triple (hQuiet _) (hEnd _)
  unfold dispatchOne
  split
  · exact Triple.throw (hEnd _)
  refine Triple.bind (hReads (mayDispatch_reads _)) fun may => ?_
  split
  · refine Triple.bind (hReads (dispatchBlock_reads run item)) fun blocked => ?_
    split
    · exact hStop
    refine Triple.bind (hReads interact_reads) fun t => ?_
    split
    · refine Triple.bind (hReads (mayDispatch_reads _)) fun still => ?_
      split
      · exact hSend item rest
      · exact hStop
    · exact Triple.bind (hGiveUp item rest _) fun _ => Triple.pure fun _ hp => hp
  · exact hStop

/-- A round keeps what sending one chunk keeps. -/
theorem dispatchLoop_rule (hSkip : ∀ item rest p, Settled item → R (item :: rest) p → R rest p)
    (run : ReportRun) (items : List ReportDelivery) :
    Triple (R items) (dispatchLoop env run items) (fun _ => E) E := by
  induction items with
  | nil => exact Triple.pure (hEnd _)
  | cons item rest ih =>
    unfold dispatchLoop
    split
    · rename_i hSettled
      exact ih.mono (fun p hp => hSkip item rest p hSettled hp) (fun _ _ h => h) fun _ h => h
    split
    · exact Triple.pure (hEnd _)
    refine Triple.bind (nowMs_reads.triple (hQuiet _) (hEnd _)) fun now => ?_
    split
    · exact Triple.pure (hEnd _)
    refine Triple.bind (dispatchOne_rule hQuiet hEnd hSend hGiveUp run item rest) fun onward => ?_
    rcases onward with _ | _
    · exact Triple.pure fun _ hp => hp
    · exact ih

end

/-! ## One chunk -/

theorem settle_identity (item : ReportDelivery) (now : Int) (outcome : SendOutcome) :
    SameIdentity item (settle item now outcome) := by
  unfold settle SameIdentity
  split
  all_goals exact ⟨rfl, rfl, rfl, rfl, rfl, rfl, rfl, rfl⟩

theorem mem_setDelivery {db : MemoryDb} {d e : ReportDelivery}
    (h : e ∈ (db.setDelivery d).deliveries) :
    e = d ∨ e ∈ db.deliveries ∧ e.id ≠ d.id := by
  obtain ⟨old, hOld, rfl⟩ := List.mem_map.mp h
  split
  · exact Or.inl rfl
  · rename_i hNe
    exact Or.inr ⟨hOld, hNe⟩

theorem setDelivery_ids {db : MemoryDb} {old item written : ReportDelivery}
    (hOld : db.deliveryAt item.id = some old) (hSame : SameIdentity old item)
    (hWritten : SameIdentity item written)
    (hIds : (db.deliveries.map ReportDelivery.id).Nodup) :
    ((db.setDelivery written).deliveries.map ReportDelivery.id).Nodup := by
  rw [hWritten.1] at hOld
  exact (Leaves.of_set (S := fun _ => False) hOld (hSame.1.trans hWritten.1) id).ids hIds

/-- What is still to come in a round. -/
structure Turns (runId : String) (rest : List ReportDelivery) : Prop where
  mine : ∀ d ∈ rest, d.runId = runId
  known : ∀ d ∈ rest, d.state ≠ .unknownDelivery
  sorted : rest.Pairwise fun a b => chunkOrder a ≤ chunkOrder b

/-- Every attempt of the run is settled or still to come, and is then as it was read. -/
structure Round (runId : String) (rest : List ReportDelivery) (db : MemoryDb) : Prop
    extends Turns runId rest where
  covered : ∀ d ∈ db.deliveries, d.runId = runId → d.destination = .telegram →
    Settled d ∨ d ∈ rest

/-- An attempt of the round is being sent, and the others are as they were. -/
structure Marked (runId : String) (item : ReportDelivery) (rest : List ReportDelivery)
    (db : MemoryDb) : Prop extends Turns runId rest where
  others : ∀ d ∈ db.deliveries, d.id ≠ item.id → d.runId = runId → d.destination = .telegram →
    Settled d ∨ d ∈ rest

/-- The dispatch overtakes no attempt of its run. -/
def InOrder (db : MemoryDb) (attempt : ReportDelivery) : Prop :=
  ∀ d ∈ db.deliveries, d.runId = attempt.runId → d.destination = .telegram →
    d.state ≠ .unknownDelivery ∧ (chunkOrder d < chunkOrder attempt → Settled d)

variable {runId : String} {item sent : ReportDelivery} {rest : List ReportDelivery} {db : MemoryDb}

theorem Turns.tail (h : Turns runId (item :: rest)) : Turns runId rest where
  mine d hd := h.mine d (List.mem_cons_of_mem _ hd)
  known d hd := h.known d (List.mem_cons_of_mem _ hd)
  sorted := h.sorted.of_cons

/-- A settled attempt is passed. -/
theorem Round.skip (h : Round runId (item :: rest) db) (hSettled : Settled item) :
    Round runId rest db := by
  refine ⟨h.toTurns.tail, fun d hd hRun hTelegram => ?_⟩
  rcases h.covered d hd hRun hTelegram with hDone | hIn
  · exact Or.inl hDone
  · rcases List.mem_cons.mp hIn with rfl | hRest
    · exact Or.inl hSettled
    · exact Or.inr hRest

theorem Round.others (h : Round runId (item :: rest) db) : Marked runId item rest db := by
  refine ⟨h.toTurns.tail, fun d hd hNe hRun hTelegram => ?_⟩
  rcases h.covered d hd hRun hTelegram with hDone | hIn
  · exact Or.inl hDone
  · rcases List.mem_cons.mp hIn with rfl | hRest
    · exact absurd rfl hNe
    · exact Or.inr hRest

/-- What is written of the attempt itself does not matter to the others. -/
theorem Marked.set (h : Marked runId item rest db) (hSame : SameIdentity item sent) :
    Marked runId item rest (db.setDelivery sent) := by
  refine ⟨h.toTurns, fun d hd hNe hRun hTelegram => ?_⟩
  rcases mem_setDelivery hd with rfl | ⟨hIn, -⟩
  · exact absurd hSame.1.symm hNe
  · exact h.others d hIn hNe hRun hTelegram

/-- The first attempt of a round overtakes none. -/
theorem Round.inOrder (h : Round runId (item :: rest) db) (hSame : SameIdentity item sent)
    (hState : sent.state = .sending) : InOrder (db.setDelivery sent) sent := by
  intro d hd hRun hTelegram
  rcases mem_setDelivery hd with rfl | ⟨hIn, hNe⟩
  · refine ⟨?_, fun hLess => absurd hLess (lt_irrefl _)⟩
    rw [hState]
    decide
  · have hMine : d.runId = runId :=
      (hRun.trans hSame.2.1.symm).trans (h.mine item (List.mem_cons_self ..))
    have hOther : d.id ≠ item.id := fun hId => hNe (hId.trans hSame.1)
    rcases h.others.others d hIn hOther hMine hTelegram with hDone | hRest
    · refine ⟨?_, fun _ => hDone⟩
      rcases hDone with hState | hState | hState
      all_goals
        rw [hState]
        decide
    · refine ⟨h.known d (List.mem_cons_of_mem _ hRest), fun hLess => absurd hLess ?_⟩
      have hIndex : item.chunkIndex = sent.chunkIndex := hSame.2.2.2.2.2.2.1
      have hSame : chunkOrder item = chunkOrder sent := hIndex
      rw [← hSame]
      exact not_lt_of_ge (List.rel_of_pairwise_cons h.sorted hRest)

/-- The attempt that was sent is confirmed. -/
theorem Marked.confirm (h : Marked runId item rest db) (hSame : SameIdentity item sent)
    (hState : sent.state = .succeeded) : Round runId rest (db.setDelivery sent) := by
  refine ⟨h.toTurns, fun d hd hRun hTelegram => ?_⟩
  rcases mem_setDelivery hd with rfl | ⟨hIn, hNe⟩
  · exact Or.inl (Or.inl hState)
  · exact h.others d hIn (fun hId => hNe (hId.trans hSame.1)) hRun hTelegram

theorem sameIdentity_trans {a b c : ReportDelivery} (h : SameIdentity a b)
    (h' : SameIdentity b c) : SameIdentity a c := by
  obtain ⟨hId, hRun, hDestination, hSnapshot, hRevision, hCreated, hIndex, hCount⟩ := h
  obtain ⟨hId', hRun', hDestination', hSnapshot', hRevision', hCreated', hIndex', hCount'⟩ := h'
  exact ⟨hId.trans hId', hRun.trans hRun', hDestination.trans hDestination',
    hSnapshot.trans hSnapshot', hRevision.trans hRevision', hCreated.trans hCreated',
    hIndex.trans hIndex', hCount.trans hCount'⟩

/-- The attempt as it is written. -/
theorem sameIdentity_written (item : ReportDelivery) (now : Int) :
    SameIdentity item { normalizeDeliveryPaths item with updatedAt := now } :=
  ⟨rfl, rfl, rfl, rfl, rfl, rfl, rfl, rfl⟩

theorem since_forget (h : Since P past F p) : Since P past (fun _ => True) p :=
  h.mono fun _ => trivial

/-- One attempt is sent in its turn, and only if it is confirmed the round goes on. -/
theorem sendChunk_inOrder (item : ReportDelivery) (rest : List ReportDelivery) :
    Triple (Since InOrder past (Round runId (item :: rest))) (sendChunk env item)
      (Onward (Since InOrder past (Round runId rest)) (Since InOrder past fun _ => True))
      (Since InOrder past fun _ => True) := by
  unfold sendChunk
  refine Triple.bind (R := fun sent p => Since InOrder past (Marked runId item rest) p ∧
    InOrder p.store sent ∧ SameIdentity item sent) ?_ fun sent => ?_
  · refine (updateDelivery_triple _ item.state since_quiet ?_).mono (fun _ h => h)
      (fun _ _ h => h) fun _ h => since_forget h
    intro p now old c hp hOld hSame _ _
    have hWritten : SameIdentity item { normalizeDeliveryPaths { item with
        state := .sending, attempt := item.attempt + 1, nextAttemptAt := none, error := none }
        with updatedAt := now } := ⟨rfl, rfl, rfl, rfl, rfl, rfl, rfl, rfl⟩
    have hIds := setDelivery_ids hOld hSame (sameIdentity_written _ now) hp.ids
    exact ⟨hp.moment hIds (hp.store.others.set hWritten) (onDispatch_none _),
      hp.store.inOrder hWritten rfl, hWritten⟩
  refine Triple.bind (R := fun _ p => Since InOrder past (Marked runId item rest) p ∧
    SameIdentity item sent) (Triple.emit fun p hp => ⟨?_, hp.2.2⟩) fun _ => ?_
  · refine hp.1.moment hp.1.ids hp.1.store fun attempt hDispatch => ?_
    obtain rfl : sent = attempt := Event.dispatch.inj (Option.some.inj hDispatch)
    exact hp.2.1
  refine Triple.bind (R := fun _ p => Since InOrder past (Marked runId item rest) p ∧
    SameIdentity item sent)
    (Triple.interact fun p hp => ⟨since_quiet.clock _ _ hp.1, hp.2⟩) fun t => ?_
  dsimp only
  set settled := settle sent (env.now t) (env.outcome t) with hSettled
  by_cases hIdentity : SameIdentity item sent
  · have hSettledSame : SameIdentity item settled :=
      sameIdentity_trans hIdentity (settle_identity _ _ _)
    refine Triple.mono (A := Since InOrder past (Marked runId item rest)) ?_ (fun _ hp => hp.1)
      (fun _ _ h => h) fun _ h => h
    refine Triple.bind (R := fun _ p => Since InOrder past (fun db => settled.state = .succeeded →
      Round runId rest db) p) ?_ fun _ => Triple.pure fun p hp => ?_
    · refine (updateDelivery_triple settled .sending since_quiet ?_).mono (fun _ h => h)
        (fun _ _ h => h) fun _ h => since_forget h
      intro p now old c hp hOld hSame _ _
      have hIds := setDelivery_ids hOld hSame (sameIdentity_written _ now) hp.ids
      refine hp.moment hIds (fun hState => ?_) (onDispatch_none _)
      exact hp.store.confirm (sameIdentity_trans hSettledSame (sameIdentity_written _ now)) hState
    · unfold Onward
      split
      · rename_i hState
        exact hp.mono fun hRound => hRound (of_decide_eq_true hState)
      · exact since_forget hp
  · exact fun p hp => absurd hp.2 hIdentity

/-! ## Rounds -/

theorem anyStore_tolerant : Tolerant S (Since P past fun _ => True) :=
  since_tolerant fun _ _ _ _ _ => trivial

theorem roundOrder_mem {receipts : List ReportDelivery} {d : ReportDelivery} :
    d ∈ roundOrder receipts ↔ d ∈ receipts ∧ d.destination = .telegram := by
  unfold roundOrder
  rw [(Sorting.sortByKey_perm _ _).mem_iff, List.mem_filter, decide_eq_true_eq]

theorem roundOrder_sorted (receipts : List ReportDelivery) :
    (roundOrder receipts).Pairwise fun a b => chunkOrder a ≤ chunkOrder b := by
  refine (Sorting.sortByKey_pairwise _ _).imp fun hLe => ?_
  rcases (Prod.Lex.le_iff ..).mp hLe with hLt | ⟨hEq, -⟩
  · exact le_of_lt hLt
  · exact le_of_eq hEq

/-- A round as it begins. -/
theorem round_of_receipts {receipts : List ReportDelivery} (h : Receipts runId receipts db)
    (hKnown : ¬(roundOrder receipts).any (fun d => decide (d.state = .unknownDelivery)) = true) :
    Round runId (roundOrder receipts) db where
  mine d hd := ((h d).mp (roundOrder_mem.mp hd).1).2
  known d hd hUnknown := hKnown (List.any_eq_true.mpr ⟨d, hd, decide_eq_true hUnknown⟩)
  sorted := roundOrder_sorted receipts
  covered d hd hRun hTelegram := Or.inr (roundOrder_mem.mpr ⟨(h d).mpr ⟨hd, hRun⟩, hTelegram⟩)

/-- Delivery, from what the loop keeps. -/
theorem deliverTelegram_rule (hI : Tolerant S I) (run : ReportRun)
    (hLoop : ∀ receipts, ¬(roundOrder receipts).any
        (fun d => decide (d.state = .unknownDelivery)) = true →
      Triple (fun p => I p ∧ Receipts run.runId receipts p.store)
        (dispatchLoop env run (roundOrder receipts)) (fun _ => I) I) :
    Keeps I (deliverTelegram env run) := by
  refine Triple.bind (prepareTelegram_triple hI run) fun prepared => ?_
  rcases prepared with _ | receipts
  · exact Triple.pure fun _ hp => hp.1
  refine Triple.mono (A := fun p => I p ∧ Receipts run.runId receipts p.store) ?_
    (fun _ hp => ⟨hp.1, hp.2 receipts rfl⟩) (fun _ _ h => h) fun _ h => h
  have hQuiet : Quiet fun p => I p ∧ Receipts run.runId receipts p.store := hI.toQuiet.and_store _
  refine Triple.bind (readSettings_reads.triple hQuiet fun _ hp => hp.1) fun current => ?_
  refine Triple.bind (isStopping_reads.triple hQuiet fun _ hp => hp.1) fun stopping => ?_
  split
  · exact Triple.pure fun _ hp => hp.1
  dsimp only
  split
  · exact Triple.pure fun _ hp => hp.1
  · rename_i hKnown
    exact hLoop receipts hKnown

/-- Chunks are dispatched in their order, and none while a delivery of the run is unknown. -/
theorem deliverTelegram_inOrder (run : ReportRun) :
    Keeps (Since InOrder past fun _ => True) (deliverTelegram env run) := by
  refine deliverTelegram_rule (S := fun _ => False) anyStore_tolerant run fun receipts hKnown => ?_
  refine (dispatchLoop_rule (R := fun rest => Since InOrder past (Round run.runId rest))
    (fun _ => since_quiet) (fun _ _ => since_forget) sendChunk_inOrder ?_ ?_ run _).mono
    (fun p hp => hp.1.mono fun _ => round_of_receipts hp.2 hKnown) (fun _ _ h => h) fun _ h => h
  · intro item rest error
    refine (updateDelivery_leaves (S := fun _ => False) (fun _ h => h.elim) _
      anyStore_tolerant).mono (fun _ => since_forget) (fun _ _ h => h) fun _ h => h
  · exact fun item rest p hSettled hp => hp.mono fun hRound => hRound.skip hSettled

/-- The dispatch is of another attempt. -/
def NotOf (id : String) (_ : MemoryDb) (attempt : ReportDelivery) : Prop := attempt.id ≠ id

/-- The attempt is there, and its delivery is unknown. -/
def UnknownAt (id : String) (db : MemoryDb) : Prop :=
  ∃ d ∈ db.deliveries, d.id = id ∧ d.state = .unknownDelivery

theorem unknownAt_tolerant (id : String) :
    Tolerant (fun d => d.id = id ∧ d.state = .unknownDelivery) (Since P past (UnknownAt id)) :=
  since_tolerant fun _ _ hIds hLeaves hAt => by
    obtain ⟨d, hd, hId⟩ := hAt
    exact ⟨d, hLeaves.kept hIds d hd hId, hId⟩

/-- An open attempt is not one whose delivery is unknown. -/
theorem open_ne_unknown {id : String} {old : ReportDelivery}
    (hIds : (db.deliveries.map ReportDelivery.id).Nodup) (hAt : UnknownAt id db)
    (hOld : db.deliveryAt item.id = some old) (hOpen : Open old) : item.id ≠ id := by
  rintro rfl
  obtain ⟨d, hd, hId, hState⟩ := hAt
  obtain ⟨hIn, hOldId⟩ := deliveryAt_some hOld
  obtain rfl : d = old := List.inj_on_of_nodup_map hIds hd hIn (hId.trans hOldId.symm)
  exact hOpen.2.2.2 hState

/-- An attempt whose delivery is unknown is not sent. -/
theorem sendChunk_spares (id : String) (item : ReportDelivery) :
    Keeps (Since (NotOf id) past (UnknownAt id)) (sendChunk env item) := by
  have hTolerant : Tolerant _ (Since (NotOf id) past (UnknownAt id)) := unknownAt_tolerant id
  have hUpdate : ∀ (item : ReportDelivery) (expected : ReportDeliveryState),
      Keeps (Since (NotOf id) past (UnknownAt id))
        (updateDelivery env item expected) := fun item expected =>
    updateDelivery_leaves (fun _ hUnknown _ => hUnknown.2) _ hTolerant
  unfold sendChunk
  refine Triple.bind (R := fun sent p =>
    Since (NotOf id) past (UnknownAt id) p ∧ sent.id ≠ id) ?_ fun sent => ?_
  · refine updateDelivery_triple _ item.state since_quiet ?_
    intro p now old c hp hOld hSame _ hOpen
    have hOther : item.id ≠ id := open_ne_unknown hp.ids hp.store hOld hOpen
    refine ⟨hTolerant.leaves p _ c (Leaves.of_set hOld hSame.1 fun hUnknown => ?_) hp, hOther⟩
    exact hOpen.2.2.2 hUnknown.2
  refine Triple.bind (R := fun _ => Since (NotOf id) past (UnknownAt id))
    (Triple.emit fun p hp => ?_) fun _ => ?_
  · refine hp.1.moment hp.1.ids hp.1.store fun attempt hDispatch => ?_
    obtain rfl : sent = attempt := Event.dispatch.inj (Option.some.inj hDispatch)
    exact hp.2
  · refine Keeps.bind (interact_reads _ since_quiet) fun t => ?_
    exact Keeps.bind (hUpdate _ _) fun _ => Keeps.pure _

theorem deliverTelegram_spares (id : String) (run : ReportRun) :
    Keeps (Since (NotOf id) past (UnknownAt id))
      (deliverTelegram env run) := by
  have hTolerant : Tolerant _ (Since (NotOf id) past (UnknownAt id)) := unknownAt_tolerant id
  refine deliverTelegram_rule hTolerant run fun receipts _ => ?_
  refine (dispatchLoop_rule (R := fun _ => Since (NotOf id) past (UnknownAt id))
    (fun _ => since_quiet) (fun _ _ h => h) ?_ ?_ (fun _ _ _ _ h => h) run _).mono
    (fun _ hp => hp.1) (fun _ _ h => h) fun _ h => h
  · intro item rest
    refine (sendChunk_spares id item).mono (fun _ h => h) (fun onward _ hp => ?_) fun _ h => h
    unfold Onward
    split
    · exact hp
    · exact hp
  · exact fun item rest error => updateDelivery_leaves (fun _ hUnknown _ => hUnknown.2) _ hTolerant

end ScreenSearch.Memory
