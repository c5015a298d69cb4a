import ScreenSearch.Memory.Delivery

/-!
# What the delivery programs do to the store

An assertion is `Quiet` if neither time nor a look at the store changes it. A
program that only `Reads` keeps every quiet assertion, so also what is known of
the store; a program that writes is described by what one statement can do.

Main results:

* `ancestorDeliveryBlock_reads` — the guard only reads;
* `digestIntents_spec` — a digest is numbered from its first chunk on;
* `updateDelivery_triple` — the compare-and-set of one attempt.
-/

namespace ScreenSearch.Memory

open Process Store

structure Quiet (I : MemoryProc → Prop) : Prop where
  clock : ∀ p c, I p → I { p with clock := c }
  moment : ∀ p, I p → I { p with history := { store := p.store, event := none } :: p.history }

/-- A program that leaves the store alone. -/
def Reads {α : Type} (x : MemoryProgram α) : Prop := ∀ I, Quiet I → Keeps I x

variable {α β : Type} {env : Environment} {I : MemoryProc → Prop}

theorem Quiet.and_store (h : Quiet I) (F : MemoryDb → Prop) : Quiet fun p => I p ∧ F p.store :=
  ⟨fun p c hp => ⟨h.clock p c hp.1, hp.2⟩, fun p hp => ⟨h.moment p hp.1, hp.2⟩⟩

/-- After a statement that led to `db`. -/
def advance (p : MemoryProc) (db : MemoryDb) (clock : Nat) : MemoryProc :=
  { store := db, clock := clock, history := { store := db, event := none } :: p.history }

theorem Quiet.advance (h : Quiet I) {p : MemoryProc} {c : Nat} (hp : I p) :
    I (advance p p.store c) := h.clock _ c (h.moment p hp)

/-! ## Reading -/

theorem Reads.pure (a : α) : Reads (pure a : MemoryProgram α) := fun _ _ => Keeps.pure a

theorem Reads.throw (e : ReportError) : Reads (Program.throw e : MemoryProgram α) :=
  fun _ _ => Keeps.throw e

theorem Reads.bind {x : MemoryProgram α} {f : α → MemoryProgram β} (hx : Reads x)
    (hf : ∀ a, Reads (f a)) : Reads (x >>= f) :=
  fun I hI => Keeps.bind (hx I hI) fun a => hf a I hI

theorem interact_reads : Reads (Program.interact : MemoryProgram Nat) :=
  fun _ hI => Triple.interact fun p hp => hI.clock p _ hp

/-- One statement: it fails and only time passes, or it is done. -/
theorem store_step {op : MemoryStatement α} {J : α → MemoryProc → Prop} (hI : Quiet I)
    (h : ∀ p a db' c, I p → op p.store = .ok (a, db') → J a (advance p db' c)) :
    Triple I (store env op) J I := by
  refine Triple.call (fun p hp => hI.clock p _ hp) fun p a db' hp hop => ?_
  cases hrun : op p.store with
  | error e => simp [hrun, Except.mapError] at hop
  | ok result =>
    simp only [hrun, Except.mapError, Except.ok.injEq] at hop
    subst hop
    exact h p a db' _ hp hrun

/-- A statement that returns a value and the same tables. -/
theorem store_reads {op : MemoryStatement α}
    (h : ∀ db a db', op db = .ok (a, db') → db' = db) : Reads (store env op) := by
  intro I hI
  refine store_step hI fun p a db' c hp hop => ?_
  obtain rfl := h p.store a db' hop
  exact hI.advance hp

/-- A look at the store, and what it shows. -/
theorem store_look {op : MemoryStatement α} {f : MemoryDb → α}
    (h : ∀ db, op db = .ok (f db, db)) (hI : Quiet I) :
    Triple I (store env op) (fun a p => I p ∧ a = f p.store) I := by
  refine store_step hI fun p a db' c hp hop => ?_
  rw [h] at hop
  cases hop
  exact ⟨hI.advance hp, rfl⟩

theorem listReportDeliveries_reads (runId : String) :
    Reads (store env (listReportDeliveries runId)) :=
  store_reads fun db a db' h => by
    cases h
    rfl

theorem getReportRun_reads (id : String) : Reads (store env (getReportRun id)) :=
  store_reads fun db a db' h => by
    cases h
    rfl

theorem getReportDelivery_reads (id : String) : Reads (store env (getReportDelivery id)) :=
  store_reads fun db a db' h => by
    cases h
    rfl

theorem listReportFamilyDeliveries_reads (runId : String) :
    Reads (store env (listReportFamilyDeliveries runId)) :=
  store_reads fun db a db' h => by
    rw [listReportFamilyDeliveries] at h
    split at h
    · cases h
    · simp only [bind_ok] at h
      obtain ⟨root, -, h⟩ := h
      cases h
      rfl

theorem readSettings_reads : Reads (readSettings env) :=
  Reads.bind interact_reads fun t => by
    split
    · exact Reads.throw _
    · exact Reads.pure _

theorem nowMs_reads : Reads (nowMs env) := Reads.bind interact_reads fun _ => Reads.pure _

theorem uuid_reads : Reads (uuid env) := Reads.bind interact_reads fun _ => Reads.pure _

theorem isStopping_reads : Reads (isStopping env) :=
  Reads.bind interact_reads fun _ => Reads.pure _

theorem lookup_reads (runId : String) : Reads (lookup env runId) := by
  refine Reads.bind (getReportRun_reads runId) fun found => ?_
  cases found with
  | none => exact Reads.throw _
  | some run => exact Reads.pure run

theorem mayDispatch_reads (chatId : String) : Reads (mayDispatch env chatId) :=
  Reads.bind readSettings_reads fun _ => Reads.bind isStopping_reads fun _ => Reads.pure _

theorem ancestorWalk_reads (visited : List String) (fuel : Nat) (ancestor : Option String) :
    Reads (ancestorWalk env visited fuel ancestor) := by
  induction fuel generalizing visited ancestor with
  | zero => cases ancestor <;> exact Reads.pure _
  | succ fuel ih =>
    cases ancestor with
    | none => exact Reads.pure _
    | some id =>
      rw [ancestorWalk]
      split
      · exact Reads.pure _
      · refine Reads.bind (getReportRun_reads id) fun found => ?_
        cases found with
        | none => exact Reads.pure _
        | some previous =>
          refine Reads.bind (listReportDeliveries_reads id) fun receipts => ?_
          split
          · exact Reads.pure _
          split
          · exact Reads.pure _
          split
          · exact Reads.pure _
          · exact ih _ _

theorem walkFuel_reads : Reads walkFuel := fun _ _ _ hp => hp

theorem ancestorDeliveryBlock_reads (run : ReportRun) :
    Reads (ancestorDeliveryBlock env run) := by
  refine Reads.bind (listReportFamilyDeliveries_reads _) fun family => ?_
  split
  · exact Reads.pure _
  · exact Reads.bind walkFuel_reads fun fuel => ancestorWalk_reads _ _ _

theorem dispatchBlock_reads (run : ReportRun) (item : ReportDelivery) :
    Reads (dispatchBlock env run item) := by
  rw [dispatchBlock]
  split
  · exact ancestorDeliveryBlock_reads run
  · exact Reads.pure _

theorem digestSkip_reads (run : ReportRun) : Reads (digestSkip env run) := by
  rw [digestSkip]
  split
  · exact Reads.pure _
  split
  · exact Reads.pure _
  · exact ancestorDeliveryBlock_reads run

/-! ## New deliveries -/

theorem delivery_spec (run : ReportRun) (destination : ReportDestination)
    (snapshot : DestinationSnapshot) (hI : Quiet I) :
    Triple I (delivery env run destination snapshot)
      (fun d p => I p ∧ d.runId = run.runId ∧ d.destination = destination ∧
        d.chunkIndex = none ∧ d.revisionOf = none) I :=
  Triple.bind (nowMs_reads I hI) fun _ => Triple.bind (uuid_reads I hI) fun _ =>
    Triple.pure fun _ hp => ⟨hp, rfl, rfl, rfl, rfl⟩

/-- The intents of a digest belong to the run and are numbered in turn. -/
theorem digestIntents_spec (run : ReportRun) (chatId : String) (count index : Nat)
    (chunks : List String) (hI : Quiet I) :
    Triple I (digestIntents env run chatId count index chunks)
      (fun items p => I p ∧
        items.map ReportDelivery.chunkIndex = (List.range' index chunks.length).map some ∧
        ∀ d ∈ items, d.runId = run.runId ∧ d.revisionOf = none) I := by
  induction chunks generalizing index I with
  | nil => exact Triple.pure fun _ hp => ⟨hp, rfl, by simp⟩
  | cons text chunks ih =>
    rw [digestIntents]
    refine Triple.bind (delivery_spec run .telegram _ hI) fun item => ?_
    -- what is known of the first intent survives the others
    have hquiet : Quiet fun p => I p ∧ item.runId = run.runId ∧ item.revisionOf = none :=
      ⟨fun p c hp => ⟨hI.clock p c hp.1, hp.2⟩, fun p hp => ⟨hI.moment p hp.1, hp.2⟩⟩
    refine Triple.bind ((ih (index + 1) hquiet).mono
      (fun p hp => ⟨hp.1, hp.2.1, hp.2.2.2.2⟩) (fun _ _ h => h) fun p hp => hp.1) fun others => ?_
    refine Triple.pure fun p hp => ?_
    obtain ⟨⟨hp, hrun, hrevision⟩, hindexes, hothers⟩ := hp
    refine ⟨hp, ?_, ?_⟩
    · simp only [List.map_cons, hindexes, List.length_cons, List.range'_succ]
    · intro d hd
      rcases List.mem_cons.mp hd with rfl | hin
      · exact ⟨hrun, hrevision⟩
      · exact hothers d hin

/-- The compare-and-set of one attempt: it fails and only time passes, or the row
of the attempt, which was in the expected state, is overwritten. -/
theorem updateDelivery_triple {J : ReportDelivery → MemoryProc → Prop} (item : ReportDelivery)
    (expected : ReportDeliveryState) (hI : Quiet I)
    (hset : ∀ p now old c, I p → p.store.deliveryAt item.id = some old →
      SameIdentity old item → old.state = expected → Open old →
      J { normalizeDeliveryPaths item with updatedAt := now }
        (advance p (p.store.setDelivery { normalizeDeliveryPaths item with updatedAt := now }) c)) :
    Triple I (updateDelivery env item expected) J I := by
  refine Triple.bind (nowMs_reads I hI) fun now => ?_
  let item' := { normalizeDeliveryPaths item with updatedAt := now }
  refine Triple.bind (R := fun updated p => if updated then J item' p else I p) ?_ ?_
  · refine store_step hI fun p updated db' c hp hop => ?_
    rcases updateReportDelivery_cases hop with ⟨rfl, rfl⟩ | ⟨rfl, old, hold, hsame, hstate, hopen, rfl⟩
    · exact hI.advance hp
    · exact hset p now old c hp hold hsame hstate hopen
  · intro updated
    cases updated with
    | true => exact Triple.pure fun p hp => hp
    | false => exact Triple.throw fun p hp => hp

end ScreenSearch.Memory
