import ScreenSearch.Memory.Reading

/-!
# At most one attempt of a chunk in a chat

An attempt *stands* in a chat if it may still be confirmed there or was. Digests
are created with one attempt to a chunk, and no statement lets an attempt stand
that did not; only a redirect adds attempts, one for each stale attempt that is
neither confirmed in the target nor replaced already. Several stale attempts of
one chunk are therefore replaced several times.

Main results:

* `redirectOne_room` — one step of a redirect uses up the room it was given;
* `retarget_safe` — chunks are not repeated in a chat in any history whose
  redirects had room.
-/

namespace ScreenSearch.Memory

open Process Store Sorting

/-! ## Attempts of a chunk in a chat -/

/-- The attempt is one of the chunk, in the chat. -/
def attemptAt (runId : String) (k : Nat) (chat : String) (d : ReportDelivery) : Bool :=
  decide (d.destination = .telegram) && d.runId == runId && d.chunkIndex == some k && atChat chat d

def unfinished (d : ReportDelivery) : Bool :=
  decide (d.state = .pending ∨ d.state = .failed ∨ d.state = .sending)

/-- Neither given up, nor waiting for the user's decision about it. -/
def stands (d : ReportDelivery) : Bool :=
  !decide (d.state = .skipped ∨ d.state = .reviewed ∨ d.state = .unknownDelivery)

def standing (db : MemoryDb) (runId : String) (k : Nat) (chat : String) : Nat :=
  db.deliveries.countP fun d => attemptAt runId k chat d && stands d

/-- What a redirect works on. -/
def receiptsOf (db : MemoryDb) (runId : String) : List ReportDelivery :=
  sortByKey ReportDelivery.id (db.deliveries.filter fun d => d.runId == runId)

/-- A stale attempt of the chunk that a redirect to the target replaces. -/
def replaced (receipts : List ReportDelivery) (target : String) (k : Nat) (d : ReportDelivery) :
    Bool :=
  d.chunkIndex == some k &&
    (match d.destinationSnapshot with
      | .telegram snapshot => snapshot.chatId != target
      | .other _ => false) &&
    !replacementLive receipts d && !targetConfirmed receipts d target

/-- The redirect leaves at most one attempt of each chunk in the target. -/
def RedirectRoom (db : MemoryDb) (runId target : String) : Prop :=
  ∀ k, standing db runId k target +
    ((receiptsOf db runId).filter redirectable).countP
      (replaced (receiptsOf db runId) target k) ≤ 1

/-- Wherever a redirect starts, there is room for it. -/
def RedirectsClean (m : Moment MemoryDb Event) (_ : List (Moment MemoryDb Event)) : Prop :=
  match m.event with
  | some (.redirecting runId target) => RedirectRoom m.store runId target
  | _ => True

/-- No chunk is dispatched to a chat it is confirmed in, and a completed redirect
leaves at most one unfinished attempt of each chunk in the target. -/
def RetargetSafe (m : Moment MemoryDb Event) (_ : List (Moment MemoryDb Event)) : Prop :=
  match m.event with
  | some (.dispatch item) => ∀ k chat, attemptAt item.runId k chat item = true →
      ∀ d ∈ m.store.deliveries, attemptAt item.runId k chat d = true → d.state ≠ .succeeded
  | some (.redirected runId target) => ∀ k,
      m.store.deliveries.countP (fun d => attemptAt runId k target d && unfinished d) ≤ 1
  | _ => True

/-! ## Counting -/

/-- Two that a list holds at most one of are the same. -/
theorem eq_of_countP_le_one {α : Type} {p : α → Bool} {l : List α} (h : l.countP p ≤ 1) {a b : α}
    (ha : a ∈ l) (hpa : p a = true) (hb : b ∈ l) (hpb : p b = true) : a = b := by
  rw [List.countP_eq_length_filter] at h
  have hina : a ∈ l.filter p := List.mem_filter.mpr ⟨ha, hpa⟩
  have hinb : b ∈ l.filter p := List.mem_filter.mpr ⟨hb, hpb⟩
  match hf : l.filter p with
  | [] => simp [hf] at hina
  | [c] =>
    rw [hf, List.mem_singleton] at hina hinb
    rw [hina, hinb]
  | _ :: _ :: _ => simp [hf] at h

theorem countP_map_le {α : Type} {p : α → Bool} {f : α → α} {l : List α}
    (h : ∀ a ∈ l, p (f a) = true → p a = true) : (l.map f).countP p ≤ l.countP p := by
  rw [List.countP_map]
  exact List.countP_mono_left h

theorem countP_append_one {α : Type} (p : α → Bool) (l : List α) (a : α) :
    (l ++ [a]).countP p = l.countP p + if p a then 1 else 0 := by
  rw [List.countP_append, List.countP_singleton]

theorem attemptAt_iff {runId chat : String} {k : Nat} {d : ReportDelivery} :
    attemptAt runId k chat d = true ↔
      d.destination = .telegram ∧ d.runId = runId ∧ d.chunkIndex = some k ∧
        atChat chat d = true := by
  simp [attemptAt, and_assoc]

/-- An attempt keeps its chunk and its chat. -/
theorem attemptAt_congr {old new : ReportDelivery} (h : SameIdentity old new) (runId : String)
    (k : Nat) (chat : String) : attemptAt runId k chat old = attemptAt runId k chat new := by
  obtain ⟨-, hrun, hdest, hsnapshot, -, -, hindex, -⟩ := h
  simp only [attemptAt, atChat, hrun, hdest, hsnapshot, hindex]

theorem stands_of_open {d : ReportDelivery} (h : Open d) : stands d = true := by
  obtain ⟨-, hskipped, hreviewed, hunknown⟩ := h
  simp [stands, hskipped, hreviewed, hunknown]

theorem stands_of_unfinished {d : ReportDelivery} (h : unfinished d = true) :
    stands d = true := by
  simp only [unfinished, decide_eq_true_eq] at h
  rcases h with h | h | h <;> simp [stands, h]

/-! ## What statements do to the attempts that stand -/

/-- Attempts have identifiers of their own, and at most one of them stands for a
chunk in a chat. -/
structure OneStanding (db : MemoryDb) : Prop where
  ids : (db.deliveries.map ReportDelivery.id).Nodup
  one : ∀ runId k chat, standing db runId k chat ≤ 1

/-- No attempt stands that did not. -/
structure NoneRises (db db' : MemoryDb) : Prop where
  ids : (db.deliveries.map ReportDelivery.id).Nodup → (db'.deliveries.map ReportDelivery.id).Nodup
  standing_le : (db.deliveries.map ReportDelivery.id).Nodup →
    ∀ runId k chat, standing db' runId k chat ≤ standing db runId k chat

theorem OneStanding.of_noneRises {db db' : MemoryDb} (h : OneStanding db)
    (hnone : NoneRises db db') : OneStanding db' :=
  ⟨hnone.ids h.ids, fun runId k chat =>
    (hnone.standing_le h.ids runId k chat).trans (h.one runId k chat)⟩

theorem NoneRises.of_deliveries {db db' : MemoryDb} (h : db'.deliveries = db.deliveries) :
    NoneRises db db' :=
  ⟨fun hids => by rwa [h], fun _ _ _ _ => by rw [standing, standing, h]⟩

theorem NoneRises.trans {db db' db'' : MemoryDb} (h : NoneRises db db')
    (h' : NoneRises db' db'') : NoneRises db db'' :=
  ⟨fun hids => h'.ids (h.ids hids), fun hids runId k chat =>
    (h'.standing_le (h.ids hids) runId k chat).trans (h.standing_le hids runId k chat)⟩

/-- Rows rewritten in place, each no more standing than before. -/
theorem NoneRises.of_map {db db' : MemoryDb} {f : ReportDelivery → ReportDelivery}
    (hmap : db'.deliveries = db.deliveries.map f) (hid : ∀ d, (f d).id = d.id)
    (hf : (db.deliveries.map ReportDelivery.id).Nodup → ∀ d ∈ db.deliveries,
      ∀ runId k chat, (attemptAt runId k chat (f d) && stands (f d)) = true →
        (attemptAt runId k chat d && stands d) = true) : NoneRises db db' := by
  constructor
  · intro hids
    rwa [hmap, List.map_map, show ReportDelivery.id ∘ f = ReportDelivery.id from funext hid]
  · intro hids runId k chat
    rw [standing, standing, hmap]
    exact countP_map_le fun d hd => hf hids d hd runId k chat

theorem deliveryAt_unique {db : MemoryDb} (hids : (db.deliveries.map ReportDelivery.id).Nodup)
    {old d : ReportDelivery} (hold : db.deliveryAt d.id = some old) {other : ReportDelivery}
    (hother : other ∈ db.deliveries) (hid : other.id = d.id) : other = old := by
  obtain ⟨hin, hold⟩ := deliveryAt_some hold
  exact List.inj_on_of_nodup_map hids hother hin (by rw [hid, hold])

/-- The row of an attempt overwritten by one that is the same attempt. -/
theorem setDelivery_noneRises {db : MemoryDb} {old d : ReportDelivery}
    (hold : db.deliveryAt d.id = some old) (hsame : SameIdentity old d)
    (hstands : stands d = true → stands old = true) : NoneRises db (db.setDelivery d) := by
  refine NoneRises.of_map rfl (fun other => ?_) fun hids other hother runId k chat h => ?_
  · split
    · rename_i hid
      exact hid.symm
    · rfl
  · by_cases hid : other.id = d.id
    · obtain rfl := deliveryAt_unique hids hold hother hid
      rw [if_pos hid, Bool.and_eq_true, ← attemptAt_congr hsame] at h
      rw [Bool.and_eq_true]
      exact ⟨h.1, hstands h.2⟩
    · rwa [if_neg hid] at h

theorem recoverReportWork_noneRises {db db' : MemoryDb} {now : Int} {u : Unit}
    (h : recoverReportWork now db = .ok (u, db')) : NoneRises db db' := by
  rw [recoverReportWork_cases h]
  refine NoneRises.of_map rfl (fun d => ?_) fun _ d _ runId k chat hd => ?_
  · unfold recoverDelivery interrupted
    split
    · split <;> rfl
    · rfl
  · unfold recoverDelivery interrupted at hd
    split at hd
    · rename_i hsending
      have hstands : stands d = true := by simp [stands, hsending]
      split at hd
      · simp [stands] at hd
      · rw [Bool.and_eq_true] at hd ⊢
        exact ⟨hd.1, hstands⟩
    · exact hd

theorem deleteRun_noneRises (db : MemoryDb) (runId : String) :
    NoneRises db (deleteRun db runId) :=
  ⟨fun hids => hids.sublist (List.filter_sublist.map _), fun _ _ _ _ =>
    List.filter_sublist.countP_le⟩

theorem pruneReportRuns_noneRises {db db' : MemoryDb} {visit : List String} {before : Int}
    {u : Unit} (h : pruneReportRuns visit before db = .ok (u, db')) : NoneRises db db' := by
  cases h
  induction visit generalizing db with
  | nil => exact NoneRises.of_deliveries rfl
  | cons runId visit ih =>
    rw [List.foldl_cons]
    refine NoneRises.trans ?_ ih
    unfold pruneOne
    split
    · split
      · exact deleteRun_noneRises db runId
      · exact NoneRises.of_deliveries rfl
    · exact NoneRises.of_deliveries rfl

/-- A new row that does not stand for any chunk in any chat. -/
theorem NoneRises.of_append {db : MemoryDb} {d : ReportDelivery}
    (hnew : db.deliveryAt d.id = none)
    (hd : ∀ runId k chat, (attemptAt runId k chat d && stands d) = false) :
    NoneRises db { db with deliveries := db.deliveries ++ [d] } := by
  constructor
  · intro hids
    rw [List.map_append, List.map_singleton, List.nodup_append]
    refine ⟨hids, List.nodup_singleton _, fun a ha b hb => ?_⟩
    rw [List.mem_singleton.mp hb]
    exact fun heq => deliveryAt_none hnew (heq ▸ ha)
  · intro _ runId k chat
    rw [standing, standing, countP_append_one, hd]
    simp

theorem createReportDelivery_noneRises {db db' : MemoryDb} {d a : ReportDelivery}
    (h : createReportDelivery d db = .ok (a, db'))
    (hd : ∀ runId k chat, (attemptAt runId k chat d && stands d) = false) :
    NoneRises db db' := by
  rcases createReportDelivery_cases h with rfl | ⟨-, hnew, rfl⟩
  · exact NoneRises.of_deliveries rfl
  · exact NoneRises.of_append hnew hd

/-! ## The invariant -/

/-- If every redirect so far had room: at most one attempt stands for a chunk in
a chat, nothing was repeated, and `F` holds of the store. -/
def RetargetInv (F : MemoryDb → Prop) (p : MemoryProc) : Prop :=
  Always RedirectsClean p.history →
    OneStanding p.store ∧ Always RetargetSafe p.history ∧ F p.store

/-- Nothing more is known of the store. -/
def anyStore : MemoryDb → Prop := fun _ => True

variable {env : Environment} {F G : MemoryDb → Prop}

theorem retargetInv_quiet (F : MemoryDb → Prop) : Quiet (RetargetInv F) where
  clock _ _ hp := hp
  moment _ hp hclean :=
    have ⟨hone, hsafe, hF⟩ := hp hclean.before
    ⟨hone, .cons trivial hsafe, hF⟩

theorem RetargetInv.mono {p : MemoryProc} (h : RetargetInv F p)
    (hFG : OneStanding p.store → F p.store → G p.store) : RetargetInv G p := fun hclean =>
  ⟨(h hclean).1, (h hclean).2.1, hFG (h hclean).1 (h hclean).2.2⟩

theorem RetargetInv.forget {p : MemoryProc} (h : RetargetInv F p) : RetargetInv anyStore p :=
  h.mono fun _ _ => trivial

/-- A statement that leaves at most one attempt standing. -/
theorem RetargetInv.advance {p : MemoryProc} {db : MemoryDb} {c : Nat} (h : RetargetInv F p)
    (hone : OneStanding p.store → F p.store → OneStanding db ∧ G db) :
    RetargetInv G (advance p db c) := fun hclean =>
  have ⟨hp, hsafe, hF⟩ := h hclean.before
  ⟨(hone hp hF).1, .cons trivial hsafe, (hone hp hF).2⟩

/-- What is known of the store does not depend on attempts that do not stand. -/
def Stable (F : MemoryDb → Prop) : Prop :=
  ∀ db db', OneStanding db → NoneRises db db' → F db → F db'

theorem anyStore_stable : Stable anyStore := fun _ _ _ _ _ => trivial

theorem store_noneRises {α : Type} {op : MemoryStatement α} (hF : Stable F)
    (h : ∀ db a db', op db = .ok (a, db') → NoneRises db db') :
    Keeps (RetargetInv F) (store env op) :=
  store_step (retargetInv_quiet F) fun p a db' _ hp hop =>
    have hnone := h p.store a db' hop
    hp.advance fun hone hstore => ⟨hone.of_noneRises hnone, hF _ _ hone hnone hstore⟩

theorem updateDelivery_keeps (hF : Stable F) (item : ReportDelivery)
    (expected : ReportDeliveryState) : Keeps (RetargetInv F) (updateDelivery env item expected) := by
  refine updateDelivery_triple item expected (retargetInv_quiet F)
    fun p now old c hp hold hsame _ hopen => ?_
  have hnone : NoneRises p.store
      (p.store.setDelivery { normalizeDeliveryPaths item with updatedAt := now }) :=
    setDelivery_noneRises hold hsame fun _ => stands_of_open hopen
  exact hp.advance fun hone hstore => ⟨hone.of_noneRises hnone, hF _ _ hone hnone hstore⟩

/-! ## Redirecting -/

/-- Room for what is still to be replaced. -/
def RoomFor (runId target : String) (receipts rest : List ReportDelivery) (db : MemoryDb) : Prop :=
  ∀ k, standing db runId k target + rest.countP (replaced receipts target k) ≤ 1

theorem roomFor_stable (runId target : String) (receipts rest : List ReportDelivery) :
    Stable (RoomFor runId target receipts rest) := fun db db' hone hnone hroom k => by
  have hle := hnone.standing_le hone.ids runId k target
  have hk := hroom k
  omega

theorem RoomFor.tail {runId target : String} {receipts rest : List ReportDelivery}
    {item : ReportDelivery} {db : MemoryDb} (h : RoomFor runId target receipts (item :: rest) db) :
    RoomFor runId target receipts rest db := fun k => by
  have hk := h k
  rw [List.countP_cons] at hk
  omega

/-- The replacement of a stale attempt takes the room it was given. -/
theorem replacement_room {runId target : String} {receipts rest : List ReportDelivery}
    {item : ReportDelivery} {snapshot : TelegramSnapshot} {db : MemoryDb} {id : String} {now : Int}
    (hrun : item.runId = runId) (hsnapshot : item.destinationSnapshot = .telegram snapshot)
    (hstale : snapshot.chatId ≠ target) (hlive : replacementLive receipts item = false)
    (hconfirmed : targetConfirmed receipts item target = false) (hone : OneStanding db)
    (hnew : db.deliveryAt id = none) (hroom : RoomFor runId target receipts (item :: rest) db) :
    OneStanding { db with
      deliveries := db.deliveries ++ [replacementOf item id target snapshot.text now] } ∧
    RoomFor runId target receipts rest { db with
      deliveries := db.deliveries ++ [replacementOf item id target snapshot.text now] } := by
  set new := replacementOf item id target snapshot.text now with hdef
  -- where the replacement stands, the stale attempt was counted
  have hcount : ∀ r k chat, (attemptAt r k chat new && stands new) = true →
      r = runId ∧ chat = target ∧ replaced receipts target k item = true := by
    intro r k chat h
    rw [Bool.and_eq_true, attemptAt_iff] at h
    obtain ⟨⟨-, hr, hindex, hchat⟩, -⟩ := h
    have htarget : target = chat := by simpa [hdef, replacementOf, atChat] using hchat
    refine ⟨hr.symm.trans hrun, htarget.symm, ?_⟩
    have hk : item.chunkIndex = some k := hindex
    simp [replaced, hk, hsnapshot, hstale, hlive, hconfirmed]
  have hstanding : ∀ r k chat,
      standing { db with deliveries := db.deliveries ++ [new] } r k chat =
        standing db r k chat + if attemptAt r k chat new && stands new then 1 else 0 :=
    fun r k chat => countP_append_one _ _ _
  refine ⟨⟨?_, fun r k chat => ?_⟩, fun k => ?_⟩
  · rw [List.map_append, List.map_singleton, List.nodup_append]
    refine ⟨hone.ids, List.nodup_singleton _, fun a ha b hb => ?_⟩
    rw [List.mem_singleton.mp hb]
    rintro rfl
    exact deliveryAt_none hnew ha
  · rw [hstanding]
    split
    · rename_i hnewStands
      obtain ⟨rfl, rfl, hreplaced⟩ := hcount r k chat hnewStands
      have hk := hroom k
      rw [List.countP_cons, if_pos hreplaced] at hk
      omega
    · exact hone.one r k chat
  · have hk := hroom k
    rw [List.countP_cons] at hk
    rw [hstanding]
    split
    · rename_i hnewStands
      rw [if_pos (hcount runId k target hnewStands).2.2] at hk
      omega
    · omega

theorem linkReplacement_room {runId target : String} {receipts rest : List ReportDelivery}
    {item : ReportDelivery} {snapshot : TelegramSnapshot} (hrun : item.runId = runId)
    (hsnapshot : item.destinationSnapshot = .telegram snapshot)
    (hstale : snapshot.chatId ≠ target) :
    Triple (RetargetInv (RoomFor runId target receipts (item :: rest)))
      (linkReplacement env target receipts item snapshot.text)
      (fun _ => RetargetInv (RoomFor runId target receipts rest)) (RetargetInv anyStore) := by
  rw [linkReplacement]
  split
  · rename_i hreplace
    simp only [Bool.and_eq_true, Bool.not_eq_true'] at hreplace
    have hquiet := retargetInv_quiet (RoomFor runId target receipts (item :: rest))
    refine Triple.mono (F := RetargetInv (RoomFor runId target receipts (item :: rest))) ?_
      (fun _ h => h) (fun _ _ h => h) fun _ h => h.forget
    refine Triple.bind (uuid_reads _ hquiet) fun id => ?_
    refine Triple.bind (nowMs_reads _ hquiet) fun now => ?_
    refine Triple.bind (R := fun _ => RetargetInv (RoomFor runId target receipts rest))
      (store_step hquiet fun p a db' c hp hop => ?_) fun _ => Triple.pure fun _ h => h
    rcases createReportDelivery_cases hop with rfl | ⟨-, hnew, rfl⟩
    · exact hp.advance fun hone hroom => ⟨hone, hroom.tail⟩
    · exact hp.advance fun hone hroom =>
        replacement_room hrun hsnapshot hstale hreplace.1 hreplace.2 hone hnew hroom
  · exact Triple.pure fun p hp => hp.mono fun _ => RoomFor.tail

/-- One step of a redirect uses up the room it was given. -/
theorem redirectOne_room {runId target : String} {receipts rest : List ReportDelivery}
    {item : ReportDelivery} (hrun : item.runId = runId) :
    Triple (RetargetInv (RoomFor runId target receipts (item :: rest)))
      (redirectOne env target receipts item)
      (fun _ => RetargetInv (RoomFor runId target receipts rest)) (RetargetInv anyStore) := by
  rw [redirectOne]
  split
  · exact Triple.pure fun p hp => hp.mono fun _ => RoomFor.tail
  · rename_i snapshot hsnapshot
    split
    · exact Triple.pure fun p hp => hp.mono fun _ => RoomFor.tail
    · rename_i hstale
      refine Triple.bind
        (R := fun _ => RetargetInv (RoomFor runId target receipts rest)) ?_ fun _ => ?_
      · exact linkReplacement_room hrun hsnapshot hstale
      · rw [reviewStale]
        split
        · exact Triple.bind ((updateDelivery_keeps (roomFor_stable _ _ _ _) _ _).mono
            (fun _ h => h) (fun _ _ h => h) fun _ h => h.forget) fun _ => Triple.pure fun _ h => h
        · exact Triple.pure fun _ h => h

theorem mem_receiptsOf {db : MemoryDb} {runId : String} {d : ReportDelivery}
    (h : d ∈ receiptsOf db runId) : d ∈ db.deliveries ∧ d.runId = runId := by
  simpa using List.mem_filter.mp ((sortByKey_perm _ _).subset h)

theorem redirect_keeps (runId : String) (chat : Option String) :
    Keeps (RetargetInv anyStore) (redirectStaleTelegramDeliveries env runId chat) := by
  rw [redirectStaleTelegramDeliveries]
  split
  · exact Keeps.pure _
  · rename_i target _
    refine Triple.bind (R := fun _ => RetargetInv fun db => RedirectRoom db runId target)
      (Triple.emit fun p hp hclean => ?_) fun _ => ?_
    · obtain ⟨hone, hsafe, -⟩ := hp hclean.before
      exact ⟨hone, .cons trivial hsafe, hclean.here⟩
    refine Triple.bind ((store_look (f := fun db => receiptsOf db runId) (fun _ => rfl)
      (retargetInv_quiet _)).mono (fun _ h => h) (fun _ _ h => h) fun _ h => h.forget)
      fun receipts => ?_
    refine Triple.bind (R := fun _ => RetargetInv (RoomFor runId target receipts [])) ?_
      fun _ => ?_
    · -- the list still to be redirected is what the room is for
      refine Triple.mono (A := fun p =>
          RetargetInv (RoomFor runId target receipts (receipts.filter redirectable)) p ∧
            ∀ d ∈ receipts, d.runId = runId)
        ?_ (fun p hp => ?_) (fun _ _ h => h) (fun _ h => h)
      · by_cases hown : ∀ d ∈ receipts, d.runId = runId
        · refine Triple.mono (Triple.each (R := fun rest =>
            RetargetInv (RoomFor runId target receipts rest)) fun item rest hsuffix => ?_)
            (fun p hp => hp.1) (fun _ _ h => h) (fun _ h => h)
          have hin : item ∈ receipts.filter redirectable :=
            hsuffix.subset (List.mem_cons_self ..)
          exact redirectOne_room (hown item (List.mem_of_mem_filter hin))
        · exact fun p hp => absurd hp.2 hown
      · obtain ⟨hp, rfl⟩ := hp
        exact ⟨hp.mono fun _ hroom k => hroom k, fun d hd => (mem_receiptsOf hd).2⟩
    · refine Triple.emit fun p hp hclean => ?_
      obtain ⟨hone, hsafe, -⟩ := hp hclean.before
      refine ⟨hone, .cons (fun k => ?_) hsafe, trivial⟩
      refine le_trans (List.countP_mono_left fun d _ h => ?_) (hone.one runId k target)
      rw [Bool.and_eq_true] at h ⊢
      exact ⟨h.1, stands_of_unfinished h.2⟩

/-! ## Retrying -/

abbrev Inv : MemoryProc → Prop := RetargetInv anyStore

theorem inv_quiet : Quiet Inv := retargetInv_quiet anyStore

theorem Reads.keeps {α : Type} {x : MemoryProgram α} (h : Reads x) : Keeps Inv x := h Inv inv_quiet

/-- An update of an attempt whose result is not looked at. -/
theorem update_keeps (item : ReportDelivery) (expected : ReportDeliveryState) :
    Keeps Inv (updateDelivery env item expected) := updateDelivery_keeps anyStore_stable item expected

theorem runs_keep {α : Type} {op : MemoryStatement α}
    (h : ∀ db a db', op db = .ok (a, db') → db'.deliveries = db.deliveries) :
    Keeps Inv (store env op) :=
  store_noneRises anyStore_stable fun db a db' hop => NoneRises.of_deliveries (h db a db' hop)

theorem updateReportRun_keeps (run : ReportRun) : Keeps Inv (store env (updateReportRun run)) :=
  runs_keep fun db a db' hop => by
    obtain ⟨old, -, -, rfl⟩ := updateReportRun_cases hop
    rfl

theorem createReportRun_keeps (run : ReportRun) : Keeps Inv (store env (createReportRun run)) :=
  runs_keep fun db a db' hop => by
    rcases createReportRun_cases hop with ⟨rfl, -⟩ | ⟨-, -, -, rfl⟩ <;> rfl

theorem retryOne_keeps (item : ReportDelivery) : Keeps Inv (retryOne env item) := by
  have hsecond : Keeps Inv (if item.destination = .telegram ∧ item.state = .failed then do
      let _ ← updateDelivery env
        { item with state := .pending, nextAttemptAt := none, error := none } .failed
      pure ()
    else pure () : MemoryProgram Unit) := by
    split
    · exact Keeps.bind (update_keeps _ _) fun _ => Keeps.pure ()
    · exact Keeps.pure ()
  rw [retryOne]
  dsimp only
  split
  · exact Keeps.bind (update_keeps _ _) fun _ => hsecond
  · exact hsecond

theorem retryMemoryReport_keeps (runId : String) : Keeps Inv (retryMemoryReport env runId) := by
  refine Keeps.bind (lookup_reads runId).keeps fun run => ?_
  split
  · exact Keeps.throw _
  · refine Keeps.bind readSettings_reads.keeps fun current => ?_
    refine Keeps.bind (redirect_keeps runId _) fun _ => ?_
    refine Keeps.bind (listReportDeliveries_reads runId).keeps fun receipts => ?_
    refine Keeps.bind (Keeps.each fun item _ => retryOne_keeps item) fun _ => ?_
    exact Keeps.bind nowMs_reads.keeps fun now => updateReportRun_keeps _

/-! ## Dispatching -/

/-- Where at most one attempt stands, an attempt being sent is not confirmed by
another. -/
theorem sending_not_confirmed {db : MemoryDb} (hone : OneStanding db) {item d : ReportDelivery}
    (hitem : item ∈ db.deliveries) (hsending : item.state = .sending) {runId chat : String}
    {k : Nat} (hat : attemptAt runId k chat item = true) (hd : d ∈ db.deliveries)
    (hdat : attemptAt runId k chat d = true) : d.state ≠ .succeeded := by
  intro hsucceeded
  have hsame : d = item := eq_of_countP_le_one (hone.one runId k chat) hd
    (by simp [hdat, stands, hsucceeded]) hitem (by simp [hat, stands, hsending])
  rw [hsame, hsending] at hsucceeded
  cases hsucceeded

theorem sendChunk_keeps (item : ReportDelivery) : Keeps Inv (sendChunk env item) := by
  -- after the update the row is in the store, being sent
  refine Triple.bind (R := fun d p => Inv p ∧ d.state = .sending ∧ d ∈ p.store.deliveries)
    (updateDelivery_triple _ _ inv_quiet fun p now old c hp hold hsame _ hopen => ?_) fun d => ?_
  · refine ⟨hp.advance fun hone _ => ⟨hone.of_noneRises
      (setDelivery_noneRises hold hsame fun _ => stands_of_open hopen), trivial⟩, rfl, ?_⟩
    obtain ⟨hin, hid⟩ := deliveryAt_some hold
    exact List.mem_map.mpr ⟨old, hin, if_pos hid⟩
  refine Triple.bind (R := fun _ => Inv) (Triple.emit fun p hp hclean => ?_) fun _ => ?_
  · obtain ⟨hp, hsending, hin⟩ := hp
    obtain ⟨hone, hsafe, -⟩ := hp hclean.before
    exact ⟨hone, .cons (fun k chat hat d' hd' hdat =>
      sending_not_confirmed hone hin hsending hat hd' hdat) hsafe, trivial⟩
  · refine Keeps.bind interact_reads.keeps fun t => ?_
    exact Keeps.bind (update_keeps _ _) fun _ => Keeps.pure _

theorem dispatchOne_keeps (run : ReportRun) (item : ReportDelivery) :
    Keeps Inv (dispatchOne env run item) := by
  rw [dispatchOne]
  split
  · exact Keeps.throw _
  · rename_i payload _
    refine Keeps.bind (mayDispatch_reads _).keeps fun may => ?_
    split
    · refine Keeps.bind (dispatchBlock_reads run item).keeps fun blocked => ?_
      split
      · exact Keeps.pure _
      refine Keeps.bind interact_reads.keeps fun t => ?_
      split
      · refine Keeps.bind (mayDispatch_reads _).keeps fun may => ?_
        split
        · exact sendChunk_keeps item
        · exact Keeps.pure _
      · exact Keeps.bind (update_keeps _ _) fun _ => Keeps.pure _
    · exact Keeps.pure _

theorem dispatchLoop_keeps (run : ReportRun) (items : List ReportDelivery) :
    Keeps Inv (dispatchLoop env run items) := by
  induction items with
  | nil => exact Keeps.pure _
  | cons item rest ih =>
    rw [dispatchLoop]
    split
    · exact ih
    split
    · exact Keeps.pure _
    refine Keeps.bind nowMs_reads.keeps fun now => ?_
    split
    · exact Keeps.pure _
    refine Keeps.bind (dispatchOne_keeps run item) fun go => ?_
    split
    · exact ih
    · exact Keeps.pure _

/-! ## New digests -/

/-- No chunk of the run has an attempt. -/
def NoChunks (runId : String) (db : MemoryDb) : Prop :=
  ∀ d ∈ db.deliveries, d.runId = runId → d.destination = .telegram → d.chunkIndex = none

/-- A digest of a run without chunks adds one attempt of each chunk. -/
theorem createDigest_one {db db' : MemoryDb} {ds as : List ReportDelivery} {runId : String}
    {index n : Nat} (h : createReportDeliveries ds db = .ok (as, db')) (hone : OneStanding db)
    (hnone : NoChunks runId db)
    (hindexes : ds.map ReportDelivery.chunkIndex = (List.range' index n).map some)
    (hrun : ∀ d ∈ ds, d.runId = runId) : OneStanding db' := by
  obtain ⟨added, hsub, rfl, hids⟩ := createReportDeliveries_cases h
  refine ⟨hids hone.ids, fun r k chat => ?_⟩
  rw [standing, List.countP_append]
  by_cases hr : r = runId
  · have hold : db.deliveries.countP (fun d => attemptAt r k chat d && stands d) = 0 := by
      refine List.countP_eq_zero.mpr fun d hd hat => ?_
      rw [Bool.and_eq_true, attemptAt_iff] at hat
      obtain ⟨⟨htelegram, hdr, hindex, -⟩, -⟩ := hat
      rw [hnone d hd (hdr.trans hr) htelegram] at hindex
      cases hindex
    have hnew : added.countP (fun d => attemptAt r k chat d && stands d) ≤ 1 := by
      have hnodup : (ds.map ReportDelivery.chunkIndex).Nodup := by
        rw [hindexes]
        exact List.Nodup.map (Option.some_injective _) List.nodup_range'
      calc added.countP (fun d => attemptAt r k chat d && stands d)
          ≤ ds.countP (fun d => attemptAt r k chat d && stands d) := hsub.countP_le
        _ ≤ ds.countP (fun d => d.chunkIndex == some k) := by
          refine List.countP_mono_left fun d _ hat => ?_
          rw [Bool.and_eq_true, attemptAt_iff] at hat
          simp [hat.1.2.2.1]
        _ = (ds.map ReportDelivery.chunkIndex).count (some k) := by
          rw [List.count, List.countP_map]
          rfl
        _ ≤ 1 := List.nodup_iff_count_le_one.mp hnodup _
    omega
  · have hnew : added.countP (fun d => attemptAt r k chat d && stands d) = 0 := by
      refine List.countP_eq_zero.mpr fun d hd hat => hr ?_
      rw [Bool.and_eq_true, attemptAt_iff] at hat
      exact hat.1.2.1.symm.trans (hrun d (hsub.subset hd))
    have := hone.one r k chat
    rw [standing] at this
    omega

theorem noChunks_quiet (runId : String) :
    Quiet fun p => Inv p ∧ NoChunks runId p.store := inv_quiet.and_store _

/-- A skipped digest has no chunk. -/
theorem recordSkip_keeps (run : ReportRun) (reason : String) :
    Keeps Inv (recordSkip env run reason) := by
  refine Triple.bind (R := fun d p => Inv p ∧ d.chunkIndex = none)
    ((delivery_spec run _ _ inv_quiet).mono (fun _ h => h) (fun _ _ h => ⟨h.1, h.2.2.2.1⟩)
      fun _ h => h) fun d => ?_
  by_cases hindex : d.chunkIndex = none
  · refine Triple.bind (R := fun _ => Inv) ((store_noneRises anyStore_stable fun db a db' hop =>
      createReportDelivery_noneRises hop fun runId k chat => ?_).mono (fun _ h => h.1)
      (fun _ _ h => h) fun _ h => h) fun _ => Triple.pure fun _ h => h
    simp [stands]
  · exact fun p hp => absurd hp.2 hindex

theorem persistDigest_keeps (run : ReportRun) :
    Triple (fun p => Inv p ∧ NoChunks run.runId p.store) (persistDigest env run) (fun _ => Inv)
      Inv := by
  rw [persistDigest]
  split
  · exact Triple.throw fun p hp => hp.1
  rename_i chatId _
  split
  · exact Triple.throw fun p hp => hp.1
  rename_i chunks _
  have hquiet := noChunks_quiet run.runId
  refine Triple.mono (F := fun p => Inv p ∧ NoChunks run.runId p.store ∨ Inv p) ?_
    (fun _ h => h) (fun _ _ h => h) fun _ h => h.elim And.left id
  refine Triple.bind ((digestIntents_spec run chatId _ 0 chunks hquiet).mono (fun _ h => h)
    (fun _ _ h => h) fun _ h => Or.inl h) fun intents => ?_
  refine Triple.bind (R := fun _ => Inv) ?_ fun _ =>
    ((listReportDeliveries_reads _).keeps).mono (fun _ h => h) (fun _ _ h => h) fun _ h => Or.inr h
  by_cases hintents : intents.map ReportDelivery.chunkIndex =
      (List.range' 0 chunks.length).map some ∧ ∀ d ∈ intents, d.runId = run.runId
  · refine (store_step hquiet fun p a db' c hp hop => ?_).mono (fun _ h => h.1)
      (fun _ _ h => h) fun _ h => Or.inl h
    exact hp.1.advance fun hone _ =>
      ⟨createDigest_one hop hone hp.2 hintents.1 hintents.2, trivial⟩
  · exact fun p hp => absurd ⟨hp.2.1, fun d hd => (hp.2.2 d hd).1⟩ hintents

theorem prepareTelegram_keeps (run : ReportRun) : Keeps Inv (prepareTelegram env run) := by
  rw [prepareTelegram]
  refine Triple.bind (store_look (f := fun db => receiptsOf db run.runId) (fun _ => rfl) inv_quiet)
    fun receipts => ?_
  dsimp only
  split
  · rename_i hcreate
    -- no receipt of the run is a chunk
    refine Triple.mono (A := fun p => Inv p ∧ NoChunks run.runId p.store)
      (F := fun p => Inv p ∧ NoChunks run.runId p.store ∨ Inv p) ?_ (fun p hp => ⟨hp.1, ?_⟩)
      (fun _ _ h => h) fun _ h => h.elim And.left id
    · refine Triple.bind ((digestSkip_reads run _ (noChunks_quiet _)).mono (fun _ h => h)
        (fun _ _ h => h) fun _ h => Or.inl h) fun skip => ?_
      cases skip with
      | some reason =>
        exact Triple.bind ((recordSkip_keeps run reason).mono (fun _ h => h.1) (fun _ _ h => h)
          fun _ h => Or.inr h) fun _ => Triple.pure fun _ h => h
      | none =>
        exact Triple.bind ((persistDigest_keeps run).mono (fun _ h => h) (fun _ _ h => h)
          fun _ h => Or.inr h) fun _ => Triple.pure fun _ h => h
    · obtain ⟨-, rfl⟩ := hp
      intro d hd hrun htelegram
      simp only [Bool.and_eq_true, Bool.not_eq_true', List.any_eq_false] at hcreate
      have hin : d ∈ receiptsOf p.store run.runId :=
        (sortByKey_perm _ _).mem_iff.mpr (List.mem_filter.mpr ⟨hd, by simpa using hrun⟩)
      simpa [htelegram] using hcreate.1 d hin
  · exact Triple.pure fun p hp => hp.1

theorem deliverTelegram_keeps (run : ReportRun) : Keeps Inv (deliverTelegram env run) := by
  refine Keeps.bind (prepareTelegram_keeps run) fun prepared => ?_
  cases prepared with
  | none => exact Keeps.pure _
  | some receipts =>
    refine Keeps.bind readSettings_reads.keeps fun current => ?_
    refine Keeps.bind isStopping_reads.keeps fun stopping => ?_
    split
    · exact Keeps.pure _
    dsimp only
    split
    · exact Keeps.pure _
    · exact dispatchLoop_keeps run _

/-! ## The system -/

theorem resolveReviewed_keeps (attemptId : String) :
    Keeps Inv (resolveTelegramDelivery env attemptId .reviewed) := by
  refine Keeps.bind (getReportDelivery_reads attemptId).keeps fun found => ?_
  cases found with
  | none => exact Keeps.throw _
  | some old =>
    refine Keeps.bind (lookup_reads _).keeps fun _ => ?_
    split
    · exact Keeps.throw _
    refine Keeps.bind uuid_reads.keeps fun id => ?_
    refine Keeps.bind nowMs_reads.keeps fun now => ?_
    refine Keeps.bind (store_noneRises anyStore_stable fun db a db' hop => ?_) fun resolved => ?_
    · rcases resolveReportDelivery_cases hop with rfl | ⟨old, db₁, hold, -, hsame, -, hnone, rfl⟩
      · exact NoneRises.of_deliveries rfl
      · obtain rfl : db₁ = db := hnone
        exact setDelivery_noneRises hold hsame fun h => by simp [stands] at h
    · split
      · exact Keeps.pure _
      · exact Keeps.throw _

theorem enqueue_keeps (run : ReportRun) (prior : Option String) :
    Keeps Inv (enqueue env run prior) := by
  cases prior with
  | none =>
    exact Keeps.bind uuid_reads.keeps fun id =>
      Keeps.bind (createReportRun_keeps _) fun _ => Keeps.pure _
  | some id =>
    refine Keeps.bind (lookup_reads id).keeps fun previous => ?_
    split
    · exact Keeps.throw _
    · exact Keeps.bind uuid_reads.keeps fun id =>
        Keeps.bind (createReportRun_keeps _) fun _ => Keeps.pure _

theorem recordFile_keeps (d : ReportDelivery) : Keeps Inv (recordFile env d) := by
  rw [recordFile]
  split
  · exact Keeps.pure _
  · rename_i hfile
    refine Keeps.bind uuid_reads.keeps fun id =>
      Keeps.bind (store_noneRises anyStore_stable fun db a db' hop => ?_) fun _ => Keeps.pure _
    exact createReportDelivery_noneRises hop fun runId k chat => by simp [attemptAt, hfile]

theorem perform_keeps {action : Action} (h : ∀ id, action ≠ .resolve id .resend) :
    Keeps Inv (perform env action) := by
  cases action with
  | enqueue run prior => exact enqueue_keeps run prior
  | progress run => exact updateReportRun_keeps run
  | recordFile d => exact recordFile_keeps d
  | retry runId => exact retryMemoryReport_keeps runId
  | deliver runId => exact Keeps.bind (lookup_reads runId).keeps fun run => deliverTelegram_keeps run
  | recover =>
    exact Keeps.bind nowMs_reads.keeps fun now =>
      store_noneRises anyStore_stable fun _ _ _ hop => recoverReportWork_noneRises hop
  | prune visit before =>
    exact store_noneRises anyStore_stable fun _ _ _ hop => pruneReportRuns_noneRises hop
  | resolve id resolution =>
    cases resolution with
    | resend => exact absurd rfl (h id)
    | reviewed => exact resolveReviewed_keeps id

/-- In any session without a resend whose redirects had room, no chunk goes to a
chat it is confirmed in, and no completed redirect leaves two unfinished attempts
of a chunk. -/
theorem retarget_safe (env : Environment) (actions : List Action)
    (hresend : ∀ id, Action.resolve id .resend ∉ actions)
    (hclean : Always RedirectsClean (historyOf env actions)) :
    Always RetargetSafe (historyOf env actions) := by
  have hkeeps : Keeps Inv (session env actions) := by
    refine Keeps.each fun action hin => ?_
    refine Keeps.bind (Keeps.attempt (perform_keeps fun id heq => ?_)) fun _ => Keeps.pure _
    exact hresend id (heq ▸ hin)
  refine (hkeeps.after (p := Proc.start MemoryDb.empty) (fun _ => ?_) hclean).2.1
  exact ⟨⟨List.nodup_nil, fun _ _ _ => Nat.zero_le _⟩, .nil, trivial⟩

/-! ## Two sessions -/

/-- Only chunks that some attempt has take room. -/
theorem redirectRoom_iff {db : MemoryDb} {runId target : String} :
    RedirectRoom db runId target ↔ ∀ d ∈ db.deliveries, ∀ k ∈ d.chunkIndex,
      standing db runId k target +
        ((receiptsOf db runId).filter redirectable).countP
          (replaced (receiptsOf db runId) target k) ≤ 1 := by
  refine ⟨fun h d _ k _ => h k, fun h k => ?_⟩
  by_cases hk : ∃ d ∈ db.deliveries, d.chunkIndex = some k
  · obtain ⟨d, hd, hindex⟩ := hk
    exact h d hd k hindex
  · have hstanding : standing db runId k target = 0 :=
      List.countP_eq_zero.mpr fun d hd hat => by
        rw [Bool.and_eq_true, attemptAt_iff] at hat
        exact hk ⟨d, hd, hat.1.2.2.1⟩
    have hreplaced : ((receiptsOf db runId).filter redirectable).countP
        (replaced (receiptsOf db runId) target k) = 0 :=
      List.countP_eq_zero.mpr fun d hd hat => by
        simp only [replaced, Bool.and_eq_true, beq_iff_eq] at hat
        exact hk ⟨d, (mem_receiptsOf (List.mem_of_mem_filter hd)).1, hat.1.1.1⟩
    omega

instance (db : MemoryDb) (runId target : String) : Decidable (RedirectRoom db runId target) :=
  decidable_of_iff _ redirectRoom_iff.symm

instance (m : Moment MemoryDb Event) (past : List (Moment MemoryDb Event)) :
    Decidable (RedirectsClean m past) :=
  match h : m.event with
  | some (.redirecting runId target) =>
    decidable_of_iff (RedirectRoom m.store runId target) (by rw [RedirectsClean, h])
  | some (.redirected _ _) => isTrue (by rw [RedirectsClean, h]; trivial)
  | some (.dispatch _) => isTrue (by rw [RedirectsClean, h]; trivial)
  | none => isTrue (by rw [RedirectsClean, h]; trivial)

/-- The service confirms everything; the selected chat depends on the time. -/
def chatChanges (chat : Nat → String) : Environment where
  fails _ := false
  settings n := ⟨false, none, some "UTC", none, true, some (chat n)⟩
  now n := n
  uuid n := "id" ++ toString n
  token _ := true
  stopping _ := false
  outcome _ := .confirmed 1
  digestChunks _ := some ["hello"]

def savedRun : ReportRun where
  requestedRange := none
  runId := "id0"
  sourceId := "s"
  scheduleId := none
  revisionOf := none
  windowStart := 0
  windowEnd := 1
  timezone := "UTC"
  localDate := "d"
  phase := .finished
  outcome := some .ok
  error := none
  result := some ⟨"x", none, [], [], [], 0, 0, 0, 0, 1, false⟩
  configSnapshot := ⟨false, none, some "UTC", none, true, some "A"⟩
  createdAt := 0
  updatedAt := 0

/-- The report is saved and delivered, and delivered again after each chat of
`retries` more retries. -/
def deliverAfterRetries (retries : Nat) : List Action :=
  [.enqueue savedRun none, .progress savedRun, .deliver "id0"] ++
    (List.replicate retries [.retry "id0", .progress savedRun]).flatten ++ [.deliver "id0"]

theorem retarget_safe_oneChange :
    Always RetargetSafe
      (historyOf (chatChanges fun n => if n < 24 then "A" else "B") (deliverAfterRetries 1)) :=
  retarget_safe _ _ (by simp [deliverAfterRetries]) (by decide +kernel)

/-- The chunk was confirmed in A, redirected to B and from there to C. The next
redirect replaces the confirmed attempt, whose replacement is reviewed, and the
one in C. -/
theorem retarget_unsafe_threeChanges :
    (∀ id, Action.resolve id .resend ∉ deliverAfterRetries 3) ∧
    ¬ Always RetargetSafe (historyOf
      (chatChanges fun n => if n < 24 then "A" else if n < 34 then "B" else if n < 46 then "C" else "D")
      (deliverAfterRetries 3)) := by
  refine ⟨by simp [deliverAfterRetries], fun hsafe => ?_⟩
  have htwo : ∃ m ∈ historyOf (chatChanges fun n =>
        if n < 24 then "A" else if n < 34 then "B" else if n < 46 then "C" else "D")
      (deliverAfterRetries 3), m.event = some (.redirected "id0" "D") ∧
        m.store.deliveries.countP (fun d => attemptAt "id0" 0 "D" d && unfinished d) = 2 := by
    decide +kernel
  obtain ⟨m, hm, hevent, hcount⟩ := htwo
  obtain ⟨past, hm⟩ := hsafe.of_mem hm
  rw [RetargetSafe, hevent] at hm
  have := hm 0
  omega

end ScreenSearch.Memory
