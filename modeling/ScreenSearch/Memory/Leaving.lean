import ScreenSearch.Memory.Reading

/-!
# What the delivery programs leave alone

Attempts that a process left behind are not to be touched until they are recovered,
and those whose delivery is unknown not until they are resolved. `Leaves S` says of a
statement, and `LeavesAlone S` of a program, that the attempts in `S` stay as they are.

Main results:

* `Leaves.of_set`, `pruneReportRuns_leaves`, … — one lemma for each statement;
* `retryMemoryReport_leaves`, `resolve_leaves` — a retry touches no attempt that is being sent or
  unknown, a resolution only its own;
* `prepareTelegram_triple` — nor does a round before it sends anything.
-/

namespace ScreenSearch.Memory

open Process Store

variable {α β : Type} {env : Environment} {S T : ReportDelivery → Prop} {I : MemoryProc → Prop}
  {db db' db'' : MemoryDb}

/-- The attempts in `S` stay as they are, and attempts keep distinct identifiers. -/
structure Leaves (S : ReportDelivery → Prop) (db db' : MemoryDb) : Prop where
  ids : (db.deliveries.map ReportDelivery.id).Nodup → (db'.deliveries.map ReportDelivery.id).Nodup
  kept : (db.deliveries.map ReportDelivery.id).Nodup → ∀ d ∈ db.deliveries, S d →
    d ∈ db'.deliveries

/-! ## Statements -/

theorem Leaves.of_deliveries (h : db'.deliveries = db.deliveries) : Leaves S db db' := by
  constructor
  · rw [h]
    exact id
  · rw [h]
    exact fun _ d hd _ => hd

theorem Leaves.trans (h : Leaves S db db') (h' : Leaves S db' db'') : Leaves S db db'' :=
  ⟨fun hIds => h'.ids (h.ids hIds), fun hIds d hd hS =>
    h'.kept (h.ids hIds) d (h.kept hIds d hd hS) hS⟩

/-- A row outside of `S` is overwritten. -/
theorem Leaves.of_set {old d : ReportDelivery} (hOld : db.deliveryAt d.id = some old)
    (hSame : old.id = d.id) (hOther : ¬S old) : Leaves S db (db.setDelivery d) := by
  have hMap : (db.setDelivery d).deliveries.map ReportDelivery.id =
      db.deliveries.map ReportDelivery.id := by
    show (db.deliveries.map _).map ReportDelivery.id = _
    rw [List.map_map]
    refine List.map_congr_left fun e _ => ?_
    show (if e.id = d.id then d else e).id = e.id
    split
    · rename_i hId
      exact hId.symm
    · rfl
  refine ⟨fun hIds => hMap ▸ hIds, fun hIds e he hS => ?_⟩
  have hNe : e.id ≠ d.id := by
    intro hId
    obtain rfl : e = old :=
      List.inj_on_of_nodup_map hIds he (deliveryAt_some hOld).1 (hId.trans hSame.symm)
    exact hOther hS
  exact List.mem_map.mpr ⟨e, he, if_neg hNe⟩

theorem createReportDelivery_leaves {d a : ReportDelivery}
    (h : createReportDelivery d db = .ok (a, db')) : Leaves S db db' := by
  rcases createReportDelivery_cases h with rfl | ⟨-, hNew, rfl⟩
  · exact Leaves.of_deliveries rfl
  · refine ⟨fun hIds => ?_, fun _ e he _ => List.mem_append_left _ he⟩
    rw [List.map_append, List.map_singleton, List.nodup_append]
    refine ⟨hIds, List.nodup_singleton _, fun x hx y hy => ?_⟩
    rw [List.mem_singleton.mp hy]
    exact fun heq => deliveryAt_none hNew (heq ▸ hx)

theorem createReportDeliveries_leaves {ds as : List ReportDelivery}
    (h : createReportDeliveries ds db = .ok (as, db')) : Leaves S db db' := by
  obtain ⟨added, -, hDb, hIds⟩ := createReportDeliveries_cases h
  refine ⟨hIds, fun _ e he _ => ?_⟩
  rw [hDb]
  exact List.mem_append_left _ he

/-- Retention deletes no run with an unsettled attempt. -/
theorem pruneReportRuns_leaves {visit : List String} {before : Int} {u : Unit}
    (hS : ∀ d, S d → Unsettled d = true) (h : pruneReportRuns visit before db = .ok (u, db')) :
    Leaves S db db' := by
  cases h
  induction visit generalizing db with
  | nil => exact Leaves.of_deliveries rfl
  | cons runId visit ih =>
    rw [List.foldl_cons]
    refine Leaves.trans ?_ ih
    unfold pruneOne
    split
    · rename_i run hRun
      split
      · rename_i hPrunable
        refine ⟨fun hIds => hIds.sublist (List.filter_sublist.map _), fun _ d hd hIn => ?_⟩
        refine List.mem_filter.mpr ⟨hd, ?_⟩
        rw [bne_iff_ne]
        intro hOwner
        unfold prunable at hPrunable
        simp only [Bool.and_eq_true, Bool.not_eq_true', List.any_eq_false] at hPrunable
        refine hPrunable.2 d hd ⟨?_, hS d hIn⟩
        rw [beq_iff_eq, hOwner, (runAt_some hRun).2]
      · exact Leaves.of_deliveries rfl
    · exact Leaves.of_deliveries rfl

/-- Recovery changes only attempts that were being sent. -/
theorem recoverReportWork_leaves {now : Int} {u : Unit} (hS : ∀ d, S d → d.state ≠ .sending)
    (h : recoverReportWork now db = .ok (u, db')) : Leaves S db db' := by
  rw [recoverReportWork_cases h]
  refine ⟨fun hIds => ?_, fun _ d hd hIn => ?_⟩
  · show ((db.deliveries.map (recoverDelivery now)).map ReportDelivery.id).Nodup
    rw [List.map_map]
    have hSame : (ReportDelivery.id ∘ recoverDelivery now) = ReportDelivery.id := by
      funext d
      show (recoverDelivery now d).id = d.id
      unfold recoverDelivery interrupted
      split
      · split
        · rfl
        · rfl
      · rfl
    rw [hSame]
    exact hIds
  · refine List.mem_map.mpr ⟨d, hd, ?_⟩
    unfold recoverDelivery
    rw [if_neg (hS d hIn)]

/-- A resolution changes the attempt it is about. -/
theorem resolveReportDelivery_leaves {previous : ReportDelivery}
    {replacement : Option ReportDelivery} {resolved : Bool} (hS : ∀ d, S d → d.id ≠ previous.id)
    (h : resolveReportDelivery previous replacement db = .ok (resolved, db')) :
    Leaves S db db' := by
  rcases resolveReportDelivery_cases h with rfl | ⟨old, db₁, hOld, -, hSame, -, hNew, rfl⟩
  · exact Leaves.of_deliveries rfl
  · have hOther : ¬S old := fun hIn => hS old hIn hSame.1
    rcases replacement with _ | new
    · obtain rfl : db₁ = db := hNew
      exact Leaves.of_set hOld hSame.1 hOther
    · obtain ⟨-, -, -, hInsert⟩ := hNew
      obtain ⟨-, hFresh, rfl⟩ := insertDelivery_cases hInsert
      have hAdded : Leaves S db { db with deliveries := db.deliveries ++ [new] } := by
        refine createReportDelivery_leaves (d := new) (a := new) ?_
        rw [createReportDelivery, hFresh]
        dsimp only
        rw [hInsert]
        rfl
      have hStill : MemoryDb.deliveryAt { db with deliveries := db.deliveries ++ [new] }
          previous.id = some old := by
        unfold MemoryDb.deliveryAt
        dsimp only
        rw [List.find?_append]
        have hFound : db.deliveries.find? (fun d => d.id == previous.id) = some old := hOld
        rw [hFound]
        rfl
      exact hAdded.trans (Leaves.of_set hStill hSame.1 hOther)

/-! ## Programs -/

/-- An assertion that statements keep which leave the attempts in `S` alone. -/
structure Tolerant (S : ReportDelivery → Prop) (I : MemoryProc → Prop) : Prop extends Quiet I where
  leaves : ∀ p db' c, Leaves S p.store db' → I p → I (advance p db' c)
  announce : ∀ p e, (∀ attempt, e ≠ .dispatch attempt) → I p →
    I { p with history := { store := p.store, event := some e } :: p.history }

/-- A program that leaves the attempts in `S` alone and dispatches nothing. -/
def LeavesAlone (S : ReportDelivery → Prop) (x : MemoryProgram α) : Prop :=
  ∀ I, Tolerant S I → Keeps I x

theorem Reads.leaves {x : MemoryProgram α} (h : Reads x) : LeavesAlone S x :=
  fun I hI => h I hI.toQuiet

theorem LeavesAlone.bind {x : MemoryProgram α} {f : α → MemoryProgram β} (hx : LeavesAlone S x)
    (hf : ∀ a, LeavesAlone S (f a)) : LeavesAlone S (x >>= f) :=
  fun I hI => Keeps.bind (hx I hI) fun a => hf a I hI

theorem LeavesAlone.pure (a : α) : LeavesAlone S (pure a : MemoryProgram α) := (Reads.pure a).leaves

theorem LeavesAlone.throw (e : ReportError) :
    LeavesAlone S (Program.throw e : MemoryProgram α) := (Reads.throw e).leaves

theorem LeavesAlone.each {items : List β} {body : β → MemoryProgram Unit}
    (h : ∀ item ∈ items, LeavesAlone S (body item)) : LeavesAlone S (Program.each items body) :=
  fun I hI => Keeps.each fun item hItem => h item hItem I hI

theorem emit_leaves {e : Event} (h : ∀ attempt, e ≠ .dispatch attempt) :
    LeavesAlone S (Program.emit e : MemoryProgram Unit) :=
  fun _ hI => Triple.emit fun p hp => hI.announce p e h hp

theorem store_leaves {op : MemoryStatement α}
    (h : ∀ db a db', op db = .ok (a, db') → Leaves S db db') : LeavesAlone S (store env op) :=
  fun _ hI => store_step hI.toQuiet fun p a db' c hp hop =>
    hI.leaves p db' c (h p.store a db' hop) hp

/-- An update is of an attempt in the expected state, which is not unknown. -/
theorem updateDelivery_leaves {item : ReportDelivery} {expected : ReportDeliveryState}
    (h : ∀ old, S old → old.state = expected → old.state = .unknownDelivery) :
    LeavesAlone S (updateDelivery env item expected) := by
  intro I hI
  refine updateDelivery_triple item expected hI.toQuiet ?_
  intro p now old c hp hOld hSame hState hOpen
  refine hI.leaves p _ c (Leaves.of_set hOld hSame.1 fun hIn => ?_) hp
  exact hOpen.2.2.2 (h old hIn hState)

/-! ## Commands -/

section

variable (hS : ∀ d, S d → d.state = .sending ∨ d.state = .unknownDelivery)
include hS

/-- What is expected in a state that is neither sending nor unknown is in no such state. -/
theorem update_leaves {item : ReportDelivery} {expected : ReportDeliveryState}
    (hExpected : expected ≠ .sending) : LeavesAlone S (updateDelivery env item expected) :=
  updateDelivery_leaves fun old hIn hState =>
    (hS old hIn).resolve_left fun hSending => hExpected (hState.symm.trans hSending)

theorem redirectOne_leaves {target : String} {receipts : List ReportDelivery}
    {item : ReportDelivery} (hItem : redirectable item = true) :
    LeavesAlone S (redirectOne env target receipts item) := by
  have hState : item.state ≠ .sending := by
    intro hSending
    unfold redirectable at hItem
    rw [hSending] at hItem
    simp at hItem
  unfold redirectOne
  split
  · exact .pure _
  split
  · exact .pure _
  refine .bind ?_ fun _ => ?_
  · unfold linkReplacement
    split
    · refine .bind uuid_reads.leaves fun _ => .bind nowMs_reads.leaves fun _ => .bind ?_ fun _ =>
        .pure _
      exact store_leaves fun _ _ _ => createReportDelivery_leaves
    · exact .pure _
  · unfold reviewStale
    split
    · exact .bind (update_leaves hS hState) fun _ => .pure _
    · exact .pure _

theorem redirect_leaves (runId : String) (chat : Option String) :
    LeavesAlone S (redirectStaleTelegramDeliveries env runId chat) := by
  unfold redirectStaleTelegramDeliveries
  split
  · exact .pure _
  · refine .bind (emit_leaves fun _ => Event.noConfusion) fun _ => ?_
    refine .bind (listReportDeliveries_reads runId).leaves fun receipts => ?_
    refine .bind (.each fun item hItem => redirectOne_leaves hS (List.mem_filter.mp hItem).2)
      fun _ => ?_
    exact emit_leaves fun _ => Event.noConfusion

theorem retryOne_leaves (item : ReportDelivery) : LeavesAlone S (retryOne env item) := by
  have hFailed : LeavesAlone S (if item.destination = .telegram ∧ item.state = .failed then do
      let _ ← updateDelivery env
        { item with state := .pending, nextAttemptAt := none, error := none } .failed
      pure ()
    else pure () : MemoryProgram Unit) := by
    split
    · exact .bind (update_leaves hS (by decide)) fun _ => .pure _
    · exact .pure _
  unfold retryOne
  dsimp only
  split
  · exact .bind (update_leaves hS (by decide)) fun _ => hFailed
  · exact hFailed

theorem retryMemoryReport_leaves (runId : String) :
    LeavesAlone S (retryMemoryReport env runId) := by
  refine .bind (lookup_reads runId).leaves fun run => ?_
  split
  · exact .throw _
  refine .bind readSettings_reads.leaves fun current => ?_
  refine .bind (redirect_leaves hS runId _) fun _ => ?_
  refine .bind (listReportDeliveries_reads runId).leaves fun receipts => ?_
  refine .bind (.each fun item _ => retryOne_leaves hS item) fun _ => ?_
  refine .bind nowMs_reads.leaves fun now => store_leaves fun db u db' hop => ?_
  obtain ⟨old, -, -, rfl⟩ := updateReportRun_cases hop
  exact Leaves.of_deliveries rfl

end

theorem createReportRun_leaves (run : ReportRun) :
    LeavesAlone S (store env (createReportRun run)) :=
  store_leaves fun db a db' hop => by
    rcases createReportRun_cases hop with ⟨rfl, -⟩ | ⟨-, -, -, rfl⟩
    · exact Leaves.of_deliveries rfl
    · exact Leaves.of_deliveries rfl

theorem enqueue_leaves (run : ReportRun) (prior : Option String) :
    LeavesAlone S (enqueue env run prior) := by
  unfold enqueue
  rcases prior with _ | id
  · exact .bind uuid_reads.leaves fun _ => .bind (createReportRun_leaves _) fun _ => .pure _
  · refine .bind (lookup_reads id).leaves fun previous => ?_
    split
    · exact .throw _
    · exact .bind uuid_reads.leaves fun _ => .bind (createReportRun_leaves _) fun _ => .pure _

theorem resolve_leaves {attemptId : String} (hS : ∀ d, S d → d.id ≠ attemptId)
    (resolution : TelegramDeliveryResolution) :
    LeavesAlone S (resolveTelegramDelivery env attemptId resolution) := by
  intro I hI
  -- the attempt that is found is the one asked for
  refine Triple.bind (store_look (f := fun db => db.deliveryAt attemptId) (fun _ => rfl) hI.toQuiet)
    fun found => ?_
  rcases found with _ | old
  · exact Triple.throw fun _ hp => hp.1
  by_cases hId : old.id = attemptId
  · refine Triple.mono (A := I) ?_ (fun _ hp => hp.1) (fun _ _ h => h) fun _ h => h
    refine Keeps.bind ((lookup_reads _).leaves I hI) fun _ => ?_
    split
    · exact Keeps.throw _
    refine Keeps.bind (uuid_reads.leaves I hI) fun id => ?_
    refine Keeps.bind (nowMs_reads.leaves I hI) fun now => ?_
    refine Keeps.bind (store_leaves (fun db a db' hop => ?_) I hI) fun _ => ?_
    · exact resolveReportDelivery_leaves (fun d hd => hId.symm ▸ hS d hd) hop
    · split
      · exact Keeps.pure _
      · exact Keeps.throw _
  · refine fun p hp => absurd ?_ hId
    exact (deliveryAt_some hp.2.symm).2

/-! ## The worker -/

theorem updateReportRun_leaves (run : ReportRun) :
    LeavesAlone S (store env (updateReportRun run)) :=
  store_leaves fun db u db' hop => by
    obtain ⟨old, -, -, rfl⟩ := updateReportRun_cases hop
    exact Leaves.of_deliveries rfl

theorem recordFile_leaves (d : ReportDelivery) : LeavesAlone S (recordFile env d) := by
  unfold recordFile
  split
  · exact .pure _
  · refine .bind uuid_reads.leaves fun _ => .bind ?_ fun _ => .pure _
    exact store_leaves fun _ _ _ => createReportDelivery_leaves

theorem delivery_leaves (run : ReportRun) (destination : ReportDestination)
    (snapshot : DestinationSnapshot) : LeavesAlone S (delivery env run destination snapshot) :=
  .bind nowMs_reads.leaves fun _ => .bind uuid_reads.leaves fun _ => .pure _

theorem digestIntents_leaves (run : ReportRun) (chatId : String) (count index : Nat)
    (chunks : List String) : LeavesAlone S (digestIntents env run chatId count index chunks) := by
  induction chunks generalizing index with
  | nil => exact .pure _
  | cons text chunks ih =>
    exact .bind (delivery_leaves _ _ _) fun _ => .bind (ih (index + 1)) fun _ => .pure _

theorem recordSkip_leaves (run : ReportRun) (reason : String) :
    LeavesAlone S (recordSkip env run reason) :=
  .bind (delivery_leaves _ _ _) fun _ =>
    .bind (store_leaves fun _ _ _ => createReportDelivery_leaves) fun _ => .pure _

/-- The attempts of a run, and no others. -/
def Receipts (runId : String) (receipts : List ReportDelivery) (db : MemoryDb) : Prop :=
  ∀ d, d ∈ receipts ↔ d ∈ db.deliveries ∧ d.runId = runId

theorem receipts_look (hI : Quiet I) (runId : String) :
    Triple I (store env (listReportDeliveries runId))
      (fun receipts p => I p ∧ Receipts runId receipts p.store) I := by
  refine (store_look (fun _ => rfl) hI).mono (fun _ h => h)
    (fun receipts p hp => ⟨hp.1, fun d => ?_⟩) fun _ h => h
  rw [hp.2, (Sorting.sortByKey_perm _ _).mem_iff, List.mem_filter, beq_iff_eq]

/-- The round begins with the attempts the store has then. -/
theorem prepareTelegram_triple (hI : Tolerant S I) (run : ReportRun) :
    Triple I (prepareTelegram env run) (fun prepared p => I p ∧
      ∀ receipts, prepared = some receipts → Receipts run.runId receipts p.store) I := by
  have hDigest : Triple I (persistDigest env run)
      (fun receipts p => I p ∧ Receipts run.runId receipts p.store) I := by
    unfold persistDigest
    split
    · exact Triple.throw fun _ hp => hp
    split
    · exact Triple.throw fun _ hp => hp
    refine Triple.bind (digestIntents_leaves run _ _ 0 _ I hI) fun intents => ?_
    refine Triple.bind (store_leaves (fun _ _ _ => createReportDeliveries_leaves) I hI) fun _ => ?_
    exact receipts_look hI.toQuiet run.runId
  unfold prepareTelegram
  refine Triple.bind (receipts_look hI.toQuiet run.runId) fun receipts => ?_
  dsimp only
  split
  · refine Triple.mono (A := I) ?_ (fun _ hp => hp.1) (fun _ _ h => h) fun _ h => h
    refine Triple.bind (digestSkip_reads run I hI.toQuiet) fun skip => ?_
    rcases skip with _ | reason
    · refine Triple.bind hDigest fun receipts => Triple.pure fun p hp => ⟨hp.1, ?_⟩
      rintro receipts ⟨rfl⟩
      exact hp.2
    · refine Triple.bind (recordSkip_leaves run reason I hI) fun _ => Triple.pure fun p hp => ?_
      exact ⟨hp, fun _ hNone => nomatch hNone⟩
  · refine Triple.pure fun p hp => ⟨hp.1, ?_⟩
    rintro receipts ⟨rfl⟩
    exact hp.2

end ScreenSearch.Memory
