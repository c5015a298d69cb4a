import ScreenSearch.Api.LocalApi

/-!
# Configuration changes are atomic

A call that fails changes nothing, what is persisted comes from the call or from a read that
worked, and a server that runs has the credentials that are persisted. A configuration call
breaks this in two places: it reads the port and the legacy token as if a failed read were
an absent value, and it persists the configuration before the token it may have to persist.

Main results:

* `prepare_ok`, `populateToken_spec` — what the parts of a configuration call do;
* `applyApiConfigLocked_inv`, `step_inv` — a server that runs has what is persisted;
* `step_unchanged`, `step_sourced` — what a careful call does;
* `config_atomic` — runs of careful calls.
-/

namespace ScreenSearch.Api.Config

variable {ip : IpLiterals} {s : LocalApi ip} {faults : Faults} {fresh : GeneratedToken}
  {enabled : Bool} {port : Option UInt16} {bindAddress : Option String} {event : Event}

/-! ## What is persisted -/

theorem parseU16_toString (p : UInt16) : parseU16 (toString p.toNat) = some p := by
  have hDigits : (toString p.toNat).toList = Nat.toDigits 10 p.toNat := by simp
  have hAll : (Nat.toDigits 10 p.toNat).all Char.isDigit = true :=
    List.all_eq_true.mpr fun c hc => Nat.isDigit_of_mem_toDigits (by decide) (by decide) hc
  have hNonempty : (toString p.toNat).isEmpty = false := by
    rw [String.isEmpty_eq_false_iff, ne_eq, ← String.toList_eq_nil_iff, hDigits]
    exact Nat.toDigits_ne_nil
  have hNoSign : Text.stripPrefix "+" (toString p.toNat) = none := by
    unfold Text.stripPrefix
    rw [hDigits]
    rcases hHead : Nat.toDigits 10 p.toNat with - | ⟨c, rest⟩
    · rfl
    · have hDigit : c.isDigit = true := List.all_eq_true.mp hAll c (by rw [hHead]; simp)
      have hNe : (c == '+') = false := by
        rw [beq_eq_false_iff_ne]
        rintro rfl
        cases hDigit
      show ((c :: rest).dropPrefix? ['+']).map _ = none
      simp [List.dropPrefix?, hNe]
  unfold parseU16
  rw [hNoSign]
  simp only [Option.getD_none, hNonempty, hDigits, hAll, Nat.ofDigitChars_ten_toDigits]
  rw [if_neg (by simp), if_pos p.toNat_lt]
  exact congrArg some (UInt16.ofNat_toNat ..)

theorem clampApiPort_idem (p : UInt16) : clampApiPort (clampApiPort p) = clampApiPort p := by
  show (if clampApiPort p ≤ portMin then portMin else clampApiPort p) = clampApiPort p
  by_cases hLow : p ≤ portMin
  · have hClamp : clampApiPort p = portMin := if_pos hLow
    rw [hClamp, if_pos (UInt16.le_refl _)]
  · have hClamp : clampApiPort p = p := if_neg hLow
    rw [hClamp, if_neg hLow]

/-- The port that a persisted value stands for is the one that was persisted. -/
theorem portOf_clamped (p : UInt16) :
    portOf (some (toString (clampApiPort p).toNat)) = clampApiPort p := by
  unfold portOf
  rw [Option.bind_some, parseU16_toString, Option.map_some, Option.getD_some, clampApiPort_idem]

theorem clamp_portOf (value : Option String) : clampApiPort (portOf value) = portOf value := by
  unfold portOf
  rcases value.bind parseU16 with - | p
  · decide
  · exact clampApiPort_idem p

/-- The address that a call is about. -/
def addressText (ip : IpLiterals) (bindAddress : Option String) (settings : ApiSettings) : String :=
  bindAddress.getD (settings.bindAddress.getD (ip.display ip.localhost))

/-- The address that a text stands for, or the text where it is damaged. -/
def addressOf (ip : IpLiterals) (text : String) : Except String ip.Address :=
  match ip.parse (Text.trim text) with
  | some address => .ok address
  | none => .error text

/-- The text that is persisted for a text: its address displayed, or itself. -/
def canonical (ip : IpLiterals) (text : String) : String :=
  ((ip.parse (Text.trim text)).map ip.display).getD text

theorem addressOf_canonical (text : String) :
    addressOf ip (canonical ip text) = addressOf ip text := by
  unfold addressOf canonical
  rcases hParsed : ip.parse (Text.trim text) with - | address
  · dsimp only [Option.map_none, Option.getD_none]
    rw [hParsed]
  · dsimp only [Option.map_some, Option.getD_some]
    rw [ip.trim_display, ip.parse_display]

/-! ## What is accepted -/

theorem storedAddress_ok {settings : ApiSettings} {stored : String}
    (h : storedAddress ip faults bindAddress settings = .ok stored) :
    (bindAddress = none → faults.bindAddress = none) ∧
      stored = addressText ip bindAddress settings := by
  unfold storedAddress at h
  rcases bindAddress with - | value
  · unfold readBindAddress getSetting at h
    rcases hFault : faults.bindAddress with - | e
    · rw [hFault] at h
      cases h
      exact ⟨fun _ => rfl, rfl⟩
    · rw [hFault] at h
      cases h
  · cases h
    exact ⟨nofun, rfl⟩

theorem targetAddress_ok {explicitAddress : Bool} {stored : String}
    {target : { target : Option ip.Address // enabled = true → target.isSome = true }}
    (h : targetAddress ip enabled explicitAddress stored = .ok target) :
    target.1 = ip.parse (Text.trim stored) ∧
      (target.1.isSome = true ∨ enabled = false ∧ explicitAddress = false) := by
  unfold targetAddress parseBindAddress at h
  rcases hParsed : ip.parse (Text.trim stored) with - | address
  · rw [hParsed] at h
    dsimp only at h
    split at h
    · next hOff =>
      cases h
      exact ⟨rfl, Or.inr hOff⟩
    · cases h
  · rw [hParsed] at h
    cases h
    exact ⟨rfl, Or.inl rfl⟩

theorem readReadToken_ok {fault : Option String} {settings : ApiSettings} {value : Option String}
    (h : readReadToken fault settings = .ok value) :
    fault = none ∧ value = filterBlank settings.readToken := by
  unfold readReadToken getSetting at h
  rcases fault with - | e
  · cases h
    exact ⟨rfl, rfl⟩
  · cases h

/-- What is prepared comes from the call and from reads that worked, the port apart. -/
structure PreparedFrom (faults : Faults) (port : Option UInt16) (bindAddress : Option String)
    (settings : ApiSettings) (p : Prepared ip enabled) : Prop where
  address_read : bindAddress = none → faults.bindAddress = none
  address : (ip.parse (Text.trim (addressText ip bindAddress settings))).isSome = true ∨
    enabled = false ∧ bindAddress = none
  persisted : p.persistedAddress = canonical ip (addressText ip bindAddress settings)
  credential_read : enabled = true → faults.readToken = none
  credential : enabled = true → p.readToken = filterBlank settings.readToken
  port : p.targetPort = targetPort faults port settings

theorem prepare_ok {settings : ApiSettings} {p : Prepared ip enabled}
    (h : prepare ip faults enabled port bindAddress settings = .ok p) :
    PreparedFrom faults port bindAddress settings p := by
  unfold prepare at h
  rcases hStored : storedAddress ip faults bindAddress settings with e | stored
  · rw [hStored] at h
    cases h
  rw [hStored] at h
  dsimp only [bind, Except.bind] at h
  rcases hTarget : targetAddress ip enabled bindAddress.isSome stored with e | target
  · rw [hTarget] at h
    cases h
  rw [hTarget] at h
  dsimp only at h
  rcases hRead : configuredRead faults enabled settings with e | readToken
  · rw [hRead] at h
    cases h
  rw [hRead] at h
  cases h
  obtain ⟨hAddressRead, rfl⟩ := storedAddress_ok hStored
  obtain ⟨hParsed, hSome⟩ := targetAddress_ok hTarget
  have hCredential : enabled = true →
      faults.readToken = none ∧ readToken = filterBlank settings.readToken := by
    rintro rfl
    exact readReadToken_ok hRead
  refine ⟨hAddressRead, ?_, ?_, fun hOn => (hCredential hOn).1, fun hOn => (hCredential hOn).2, rfl⟩
  · rw [hParsed] at hSome
    rwa [Option.isSome_eq_false_iff, Option.isNone_iff_eq_none] at hSome
  · show (target.1.map ip.display).getD _ = _
    rw [hParsed]
    rfl

/-! ## A server that runs has what is persisted -/

/-- What a client can use is what is persisted. -/
structure Serving (s : LocalApi ip) (server : ApiServer ip) : Prop where
  enabled : s.settings.enabled = some "true"
  legacy : s.settings.token = some s.runtime.token
  credential : server.readToken = filterBlank s.settings.readToken

structure LocalApi.Inv (s : LocalApi ip) : Prop where
  /-- A live token is the persisted one. -/
  live : s.runtime.token.isEmpty = false → s.settings.token = some s.runtime.token
  populated : s.runtime.server.isSome = true → s.runtime.token.isEmpty = false
  serving : ∀ server ∈ s.runtime.server, Serving s server

theorem boot_inv (settings : ApiSettings) : (LocalApi.boot ip settings).Inv where
  live := fun hToken => by cases hToken
  populated := fun hServer => by cases hServer
  serving := fun _ hServer => by cases hServer

/-- Without a server only the live token matters. -/
theorem LocalApi.Inv.of_stopped (hServer : s.runtime.server = none)
    (hLive : s.runtime.token.isEmpty = false → s.settings.token = some s.runtime.token) : s.Inv where
  live := hLive
  populated := fun hSome => by
    rw [hServer] at hSome
    cases hSome
  serving := fun server hMem => by
    rw [hServer] at hMem
    cases hMem

theorem persistAndStop_inv (h : s.Inv) (p : Prepared ip enabled) : (s.persistAndStop p).Inv :=
  .of_stopped rfl h.live

/-- What is generated: no token is live, none was read, and it is persisted. -/
structure Generates (faults : Faults) (s : LocalApi ip) : Prop where
  dead : s.runtime.token.isEmpty = true
  blank : filterBlank (tolerant (getSetting faults.token s.settings.token)) = none

/-- The token is populated, or nothing happens but an error. -/
theorem populateToken_spec (faults : Faults) (fresh : GeneratedToken) (h : s.Inv) :
    (∃ token stored, populateToken faults fresh s =
        ({ settings := { s.settings with token := stored }
           runtime := { s.runtime with token := token } }, .ok ()) ∧
        token.isEmpty = false ∧ stored = some token ∧
        (stored = s.settings.token ∨ Generates faults s ∧ faults.saveToken = none ∧
          stored = some fresh.text)) ∨
      (∃ e, populateToken faults fresh s = (s, .error e)) ∧ Generates faults s ∧
        faults.saveToken ≠ none := by
  unfold populateToken
  rcases hDead : s.runtime.token.isEmpty with - | -
  · refine Or.inl ⟨s.runtime.token, s.settings.token, rfl, hDead, h.live hDead, Or.inl rfl⟩
  rw [if_pos rfl]
  rcases hFound : filterBlank (tolerant (getSetting faults.token s.settings.token)) with - | t
  · dsimp only
    rcases hSave : faults.saveToken with - | e
    · exact Or.inl ⟨fresh.text, some fresh.text, rfl, fresh.nonempty, rfl,
        Or.inr ⟨⟨hDead, hFound⟩, rfl, rfl⟩⟩
    · exact Or.inr ⟨⟨_, rfl⟩, ⟨hDead, hFound⟩, nofun⟩
  · obtain ⟨hStored, hFilled⟩ := Option.filter_eq_some_iff.mp hFound
    have hSame : s.settings.token = some t := by
      unfold tolerant getSetting at hStored
      split at hStored
      · cases hStored
      · exact hStored
    refine Or.inl ⟨t, s.settings.token, rfl, ?_, hSame, Or.inl rfl⟩
    simpa using hFilled

/-! ## What a configuration call does -/

/-- The tokens after a call: as they were, or read, or generated. -/
structure Populated (faults : Faults) (fresh : GeneratedToken) (enabled : Bool) (s : LocalApi ip)
    (token : String) (stored : Option String) : Prop where
  live : token.isEmpty = false → stored = some token
  populated : enabled = true → token.isEmpty = false
  source : stored = s.settings.token ∨ enabled = true ∧ Generates faults s ∧
    faults.saveToken = none ∧ stored = some fresh.text

/-- What a configuration call leaves, and whether it returned without an error. -/
inductive Applied (faults : Faults) (fresh : GeneratedToken) (enabled : Bool)
    (port : Option UInt16) (bindAddress : Option String) (s : LocalApi ip) :
    LocalApi ip → Bool → Prop
  | rejected : Applied faults fresh enabled port bindAddress s s false
  | tokenUnsaved (p : Prepared ip enabled)
      (prepared : PreparedFrom faults port bindAddress s.settings p)
      (saved : faults.saveConfig = none) (on : enabled = true) (generates : Generates faults s)
      (unsaved : faults.saveToken ≠ none) :
      Applied faults fresh enabled port bindAddress s (s.persistAndStop p) false
  | applied (p : Prepared ip enabled)
      (prepared : PreparedFrom faults port bindAddress s.settings p)
      (saved : faults.saveConfig = none) (token : String) (stored : Option String)
      (populated : Populated faults fresh enabled s token stored) (server : Option (ApiServer ip))
      (served : ∀ x ∈ server, enabled = true ∧ x.readToken = p.readToken)
      (lastError : Option String) :
      Applied faults fresh enabled port bindAddress s
        { settings := { (s.persistAndStop p).settings with token := stored }
          runtime := ⟨server, token, lastError⟩ } true

theorem listen_eq (faults : Faults) (address : ip.Address) (port : UInt16)
    (readToken : Option String) (h : s.runtime.server = none) :
    ∃ server lastError, (∀ x ∈ server, x.readToken = readToken) ∧
      listen faults address port readToken s =
        { settings := s.settings, runtime := ⟨server, s.runtime.token, lastError⟩ } := by
  unfold listen
  rcases faults.bind with - | e
  · refine ⟨some ⟨address, port, readToken⟩, s.runtime.lastError, ?_, rfl⟩
    rintro x ⟨⟩
    rfl
  · exact ⟨none, _, nofun, by rw [← h]⟩

theorem applyApiConfigLocked_applied (faults : Faults) (fresh : GeneratedToken) (enabled : Bool)
    (port : Option UInt16) (bindAddress : Option String) (h : s.Inv) :
    Applied faults fresh enabled port bindAddress s
      (applyApiConfigLocked faults fresh enabled port bindAddress s).1
      (applyApiConfigLocked faults fresh enabled port bindAddress s).2.isOk := by
  unfold applyApiConfigLocked
  rcases hPrepare : prepare ip faults enabled port bindAddress s.settings with e | p
  · exact .rejected
  have hFrom := prepare_ok hPrepare
  dsimp only
  rcases hSave : faults.saveConfig with - | e
  · dsimp only
    split
    · next hOn =>
      rcases populateToken_spec faults fresh (persistAndStop_inv h p) with
        ⟨token, stored, hEq, hToken, hStored, hSource⟩ | ⟨⟨e, hEq⟩, hGenerates, hUnsaved⟩
      · rw [hEq]
        dsimp only
        obtain ⟨server, lastError, hServed, hListen⟩ := listen_eq faults
          (p.targetAddress.get (p.validated hOn)) p.targetPort p.readToken
          (s := { settings := { (s.persistAndStop p).settings with token := stored }
                  runtime := { (s.persistAndStop p).runtime with token := token } }) rfl
        rw [hListen]
        refine .applied p hFrom hSave token stored ⟨fun _ => hStored, fun _ => hToken, ?_⟩ server
          (fun x hx => ⟨hOn, hServed x hx⟩) lastError
        rcases hSource with hSame | ⟨hGenerates, hSaved, hFresh⟩
        · exact Or.inl hSame
        · exact Or.inr ⟨hOn, ⟨hGenerates.dead, hGenerates.blank⟩, hSaved, hFresh⟩
      · rw [hEq]
        exact .tokenUnsaved p hFrom hSave hOn ⟨hGenerates.dead, hGenerates.blank⟩ hUnsaved
    · next hOff =>
      exact .applied p hFrom hSave s.runtime.token s.settings.token
        ⟨h.live, fun hOn => absurd hOn hOff, Or.inl rfl⟩ none nofun none
  · exact .rejected

theorem Applied.inv {s' : LocalApi ip} {ok : Bool} (h : s.Inv)
    (hApplied : Applied faults fresh enabled port bindAddress s s' ok) : s'.Inv := by
  rcases hApplied with - | ⟨p⟩ | ⟨p, hFrom, -, token, stored, hPopulated, server, hServed⟩
  · exact h
  · exact persistAndStop_inv h p
  · refine ⟨hPopulated.live, fun hSome => ?_, fun x hx => ?_⟩
    · obtain ⟨x, hx⟩ := Option.isSome_iff_exists.mp hSome
      exact hPopulated.populated (hServed x hx).1
    · obtain ⟨hOn, hRead⟩ := hServed x hx
      refine ⟨?_, hPopulated.live (hPopulated.populated hOn), ?_⟩
      · show some (toString enabled) = some "true"
        rw [hOn]
        rfl
      · rw [hRead, hFrom.credential hOn]
        rfl

/-! ## What the other calls do -/

theorem LocalApi.Inv.lastError (h : s.Inv) (lastError : Option String) :
    ({ s with runtime.lastError := lastError } : LocalApi ip).Inv where
  live := h.live
  populated := h.populated
  serving := fun x hx => ⟨(h.serving x hx).enabled, (h.serving x hx).legacy,
    (h.serving x hx).credential⟩

/-- A start that reads that the API is on is a configuration call, but for the last error. -/
theorem autostart_spec (faults : Faults) (fresh : GeneratedToken) (h : s.Inv) :
    ∃ inner lastError, (autostart faults fresh s).1 = { inner with runtime.lastError := lastError } ∧
      (inner = s ∨ faults.startup = none ∧ s.settings.enabled = some "true" ∧
        Applied faults fresh true none none s inner (autostart faults fresh s).2.isOk) := by
  have hInner : ∀ inner result, startup faults fresh s = (inner, result) →
      ∃ lastError, autostart faults fresh s =
        ({ inner with runtime.lastError := lastError }, result) := by
    intro inner result hStartup
    unfold autostart
    rw [hStartup]
    rcases result with e | status
    · exact ⟨some e, rfl⟩
    · exact ⟨inner.runtime.lastError, rfl⟩
  rcases hRead : faults.startup with - | e
  · by_cases hOn : s.settings.enabled = some "true"
    · have hStartup : startup faults fresh s =
          applyApiConfigLocked faults fresh true none none s := by
        unfold startup
        rw [hRead, hOn]
        rfl
      obtain ⟨lastError, hEq⟩ := hInner _ _ hStartup
      rw [hEq]
      exact ⟨_, lastError, rfl,
        Or.inr ⟨rfl, hOn, applyApiConfigLocked_applied faults fresh true none none h⟩⟩
    · have hStartup : startup faults fresh s = (s, .ok (currentStatus faults s)) := by
        unfold startup
        rw [hRead]
        show (if (s.settings.enabled == some "true") = true then _ else _) = _
        rw [if_neg (by rwa [beq_iff_eq])]
      obtain ⟨lastError, hEq⟩ := hInner _ _ hStartup
      rw [hEq]
      exact ⟨s, lastError, rfl, Or.inl rfl⟩
  · have hStartup : startup faults fresh s =
        (s, .error ("could not read API startup configuration: " ++ e)) := by
      unfold startup
      rw [hRead]
      rfl
    obtain ⟨lastError, hEq⟩ := hInner _ _ hStartup
    rw [hEq]
    exact ⟨s, lastError, rfl, Or.inl rfl⟩

/-- The read credential is persisted and installed. -/
def LocalApi.withReadToken (s : LocalApi ip) (token : Option String) : LocalApi ip :=
  ({ s with settings.readToken := some (token.getD "") } : LocalApi ip).setReadToken token

/-- What a change of the read credential installs. -/
def installed (change : ReadTokenChange) (fresh : GeneratedToken) : Option String :=
  match change with
  | .create | .rotate => some fresh.text
  | .revoke => none

theorem changeReadToken_spec (faults : Faults) (fresh : GeneratedToken)
    (change : ReadTokenChange) (s : LocalApi ip) :
    (changeReadToken faults fresh change s).1 = s ∧
        (changeReadToken faults fresh change s).2.isOk = false ∨
      (changeReadToken faults fresh change s).1 = s.withReadToken (installed change fresh) ∧
        (changeReadToken faults fresh change s).2.isOk = true := by
  have hPersist : ∀ token,
      (persistThenInstallReadToken faults token s).1 = s ∧
          (persistThenInstallReadToken faults token s).2.isOk = false ∨
        (persistThenInstallReadToken faults token s).1 = s.withReadToken token ∧
          (persistThenInstallReadToken faults token s).2.isOk = true := by
    intro token
    unfold persistThenInstallReadToken
    split
    · exact Or.inl ⟨rfl, rfl⟩
    · exact Or.inr ⟨rfl, rfl⟩
  unfold changeReadToken
  split
  · exact Or.inl ⟨rfl, rfl⟩
  · rcases change with - | - | -
    · dsimp only
      split
      · exact Or.inl ⟨rfl, rfl⟩
      · exact hPersist (some fresh.text)
    · dsimp only
      split
      · exact Or.inl ⟨rfl, rfl⟩
      · exact hPersist (some fresh.text)
    · exact hPersist none

theorem filterBlank_installed (change : ReadTokenChange) (fresh : GeneratedToken) :
    filterBlank (some ((installed change fresh).getD "")) = installed change fresh := by
  rcases change with - | - | -
  · exact Option.filter_eq_some_iff.mpr ⟨rfl, by rw [fresh.nonempty]; rfl⟩
  · exact Option.filter_eq_some_iff.mpr ⟨rfl, by rw [fresh.nonempty]; rfl⟩
  · rfl

theorem withReadToken_inv {token : Option String}
    (hToken : filterBlank (some (token.getD "")) = token) (h : s.Inv) :
    (s.withReadToken token).Inv := by
  refine ⟨h.live, fun hSome => h.populated ?_, fun x hx => ?_⟩
  · change (s.runtime.server.map _).isSome = true at hSome
    rwa [Option.isSome_map] at hSome
  · change s.runtime.server.map _ = some x at hx
    obtain ⟨old, hOld, rfl⟩ := Option.map_eq_some_iff.mp hx
    have hServing := h.serving old hOld
    exact ⟨hServing.enabled, hServing.legacy, hToken.symm⟩

/-- The legacy token is persisted and live. -/
def LocalApi.withToken (s : LocalApi ip) (token : String) : LocalApi ip where
  settings := { s.settings with token := some token }
  runtime := { s.runtime with token := token }

theorem rotateLegacyToken_spec (faults : Faults) (fresh : GeneratedToken) (s : LocalApi ip) :
    (rotateLegacyToken faults fresh s).1 = s ∧
        (rotateLegacyToken faults fresh s).2.isOk = false ∨
      (rotateLegacyToken faults fresh s).1 = s.withToken fresh.text ∧
        (rotateLegacyToken faults fresh s).2.isOk = true := by
  unfold rotateLegacyToken
  split
  · exact Or.inl ⟨rfl, rfl⟩
  · exact Or.inr ⟨rfl, rfl⟩

theorem withToken_inv (fresh : GeneratedToken) (h : s.Inv) : (s.withToken fresh.text).Inv where
  live := fun _ => rfl
  populated := fun _ => fresh.nonempty
  serving := fun x hx => ⟨(h.serving x hx).enabled, rfl, (h.serving x hx).credential⟩

/-- Every call keeps the invariant, whatever of it fails. -/
theorem step_inv (event : Event) (h : s.Inv) : (s.step event).Inv := by
  obtain ⟨call, faults, fresh⟩ := event
  rcases call with ⟨enabled, port, bindAddress⟩ | - | - | change
  · exact (applyApiConfigLocked_applied faults fresh enabled port bindAddress h).inv h
  · obtain ⟨inner, lastError, hEq, hInner⟩ := autostart_spec faults fresh h
    change (autostart faults fresh s).1.Inv
    rw [hEq]
    rcases hInner with rfl | ⟨-, -, hApplied⟩
    · exact h.lastError lastError
    · exact (hApplied.inv h).lastError lastError
  · change (rotateLegacyToken faults fresh s).1.Inv
    rcases rotateLegacyToken_spec faults fresh s with ⟨hEq, -⟩ | ⟨hEq, -⟩
    · rwa [hEq]
    · rw [hEq]
      exact withToken_inv fresh h
  · change (changeReadToken faults fresh change s).1.Inv
    rcases changeReadToken_spec faults fresh change s with ⟨hEq, -⟩ | ⟨hEq, -⟩
    · rwa [hEq]
    · rw [hEq]
      exact withReadToken_inv (filterBlank_installed change fresh) h

theorem run_inv (events : List Event) (h : s.Inv) : (s.run events).Inv := by
  induction events generalizing s with
  | nil => exact h
  | cons event events ih => exact ih (step_inv event h)

/-! ## Careful calls -/

/-- The parts of a configuration call, which a start makes too. -/
def Call.configures : Call → Option (Bool × Option UInt16 × Option String)
  | .apply enabled port bindAddress => some (enabled, port, bindAddress)
  | .autostart => some (true, none, none)
  | _ => none

/-- The call gets as far as persisting a configuration. -/
def Accepted (faults : Faults) (enabled : Bool) (bindAddress : Option String)
    (s : LocalApi ip) : Prop :=
  (bindAddress = none → faults.bindAddress = none) ∧
    ((ip.parse (Text.trim (addressText ip bindAddress s.settings))).isSome = true ∨
      enabled = false ∧ bindAddress = none) ∧
    (enabled = true → faults.readToken = none) ∧ faults.saveConfig = none

instance : Decidable (Accepted faults enabled bindAddress s) :=
  inferInstanceAs (Decidable (_ ∧ _))

/-- What is persisted is what was. -/
def KeepsConfig (faults : Faults) (enabled : Bool) (port : Option UInt16)
    (bindAddress : Option String) (s : LocalApi ip) : Prop :=
  s.settings.withConfig (targetPort faults port s.settings) enabled
    (canonical ip (addressText ip bindAddress s.settings)) = s.settings

instance : Decidable (KeepsConfig faults enabled port bindAddress s) :=
  inferInstanceAs (Decidable (_ = _))

/-- The stored port is read where none is given, or is the default. -/
def PortKnown (faults : Faults) (port : Option UInt16) (s : LocalApi ip) : Prop :=
  port.isSome = true ∨ faults.config.port = none ∨ portOf s.settings.port = defaultPort

/-- A token is generated only after a read, and persisted, or it was read, or nothing was
persisted before. -/
def TokenKnown (faults : Faults) (port : Option UInt16) (bindAddress : Option String)
    (s : LocalApi ip) : Prop :=
  (faults.saveToken = none → faults.token = none) ∧
    (faults.saveToken ≠ none → faults.token = none ∧ filterBlank s.settings.token ≠ none ∨
      KeepsConfig faults true port bindAddress s)

def CarefulConfig (faults : Faults) (enabled : Bool) (port : Option UInt16)
    (bindAddress : Option String) (s : LocalApi ip) : Prop :=
  Accepted faults enabled bindAddress s → PortKnown faults port s ∧
    (enabled = true → s.runtime.token.isEmpty = true → TokenKnown faults port bindAddress s)

instance : Decidable (PortKnown faults port s) := inferInstanceAs (Decidable (_ ∨ _))

instance : Decidable (TokenKnown faults port bindAddress s) :=
  inferInstanceAs (Decidable (_ ∧ _))

instance : Decidable (CarefulConfig faults enabled port bindAddress s) :=
  inferInstanceAs (Decidable (_ → _))

/-- A start counts where it reads that the API is on. -/
def Careful (event : Event) (s : LocalApi ip) : Prop :=
  match event.call with
  | .apply enabled port bindAddress => CarefulConfig event.faults enabled port bindAddress s
  | .autostart => event.faults.startup = none → s.settings.enabled = some "true" →
    CarefulConfig event.faults true none none s
  | .rotateLegacy => True
  | .changeReadToken _ => True

instance : Decidable (Careful event s) := by
  unfold Careful
  split <;> infer_instance

/-! ## What a careful call does -/

/-- What is persisted, what is live and the server that runs are as they were. -/
structure Unchanged (s s' : LocalApi ip) : Prop where
  settings : s'.settings = s.settings
  token : s'.runtime.token = s.runtime.token
  server : s'.runtime.server = s.runtime.server

/-- The address that the settings stand for. -/
def settingsAddress (ip : IpLiterals) (settings : ApiSettings) : Except String ip.Address :=
  addressOf ip (addressText ip none settings)

/-- What is persisted changes to what the call says, or to a token that it generates. A
legacy token is also generated where one was read to be absent. -/
structure Sourced (event : Event) (s s' : LocalApi ip) : Prop where
  port : portOf s'.settings.port = portOf s.settings.port ∨
    ∃ c ∈ event.call.configures, ∃ p ∈ c.2.1, portOf s'.settings.port = clampApiPort p
  address : settingsAddress ip s'.settings = settingsAddress ip s.settings ∨
    ∃ c ∈ event.call.configures, ∃ text ∈ c.2.2,
      settingsAddress ip s'.settings = addressOf ip text
  token : s'.settings.token = s.settings.token ∨ s'.settings.token = some event.fresh.text ∧
    (event.call = .rotateLegacy ∨ (∃ c ∈ event.call.configures, c.1 = true) ∧
      event.faults.token = none ∧ filterBlank s.settings.token = none)
  readToken : s'.settings.readToken = s.settings.readToken ∨
    ∃ change, event.call = .changeReadToken change ∧
      s'.settings.readToken = some ((installed change event.fresh).getD "")

theorem Unchanged.refl (s : LocalApi ip) : Unchanged s s := ⟨rfl, rfl, rfl⟩

theorem Sourced.of_settings {s' : LocalApi ip} (h : s'.settings = s.settings) :
    Sourced event s s' where
  port := Or.inl (by rw [h])
  address := Or.inl (by rw [h])
  token := Or.inl (by rw [h])
  readToken := Or.inl (by rw [h])

theorem PreparedFrom.accepted {p : Prepared ip enabled}
    (h : PreparedFrom faults port bindAddress s.settings p) (hSaved : faults.saveConfig = none) :
    Accepted faults enabled bindAddress s :=
  ⟨h.address_read, h.address, h.credential_read, hSaved⟩

/-- What was generated was read to be absent, if the read worked. -/
theorem Generates.absent (h : Generates faults s) (hRead : faults.token = none) :
    filterBlank s.settings.token = none := by
  have hBlank := h.blank
  rw [hRead] at hBlank
  exact hBlank

/-- A careful configuration call that fails changes nothing. -/
theorem Applied.unchanged {s' : LocalApi ip} (h : s.Inv)
    (hCareful : CarefulConfig faults enabled port bindAddress s)
    (hApplied : Applied faults fresh enabled port bindAddress s s' false) : Unchanged s s' := by
  rcases hApplied with - | ⟨p, hFrom, hSaved, hOn, hGenerates, hUnsaved⟩
  · exact .refl s
  · subst hOn
    obtain ⟨-, hToken⟩ := hCareful (hFrom.accepted hSaved)
    rcases (hToken rfl hGenerates.dead).2 hUnsaved with ⟨hRead, hStored⟩ | hKeeps
    · exact absurd (hGenerates.absent hRead) hStored
    · refine ⟨?_, rfl, ?_⟩
      · show s.settings.withConfig p.targetPort true p.persistedAddress = s.settings
        rw [hFrom.port, hFrom.persisted]
        exact hKeeps
      · -- no token is live, so no server runs
        rcases hServer : s.runtime.server with - | x
        · rfl
        · have hLive := h.populated (by rw [hServer]; rfl)
          rw [hGenerates.dead] at hLive
          cases hLive

theorem targetPort_sourced (h : PortKnown faults port s) :
    portOf (some (toString (targetPort faults port s.settings).toNat)) = portOf s.settings.port ∨
      ∃ p ∈ port, portOf (some (toString (targetPort faults port s.settings).toNat)) =
        clampApiPort p := by
  unfold targetPort
  rw [portOf_clamped]
  rcases port with - | p
  · left
    show clampApiPort (portOf (tolerant (getSetting faults.config.port s.settings.port))) = _
    rw [clamp_portOf]
    rcases hFault : faults.config.port with - | e
    · rfl
    · rcases h with hGiven | hRead | hDefault
      · cases hGiven
      · rw [hFault] at hRead
        cases hRead
      · rw [hDefault]
        rfl
  · exact Or.inr ⟨p, rfl, rfl⟩

/-- The settings that a careful configuration call leaves. -/
theorem withConfig_sourced {p : Prepared ip enabled} {token : Option String}
    (hCall : event.call.configures = some (enabled, port, bindAddress))
    (hFrom : PreparedFrom event.faults port bindAddress s.settings p)
    (hPort : PortKnown event.faults port s)
    (hToken : token = s.settings.token ∨ enabled = true ∧ event.faults.token = none ∧
      filterBlank s.settings.token = none ∧ token = some event.fresh.text) {s' : LocalApi ip}
    (hSettings : s'.settings = { (s.persistAndStop p).settings with token := token }) :
    Sourced event s s' := by
  constructor
  · have hPersisted : portOf s'.settings.port =
        portOf (some (toString (targetPort event.faults port s.settings).toNat)) := by
      rw [hSettings, ← hFrom.port]
      rfl
    rw [hPersisted]
    refine (targetPort_sourced hPort).imp_right ?_
    rintro ⟨given, hGiven, hEq⟩
    exact ⟨(enabled, port, bindAddress), hCall, given, hGiven, hEq⟩
  · have hText : settingsAddress ip s'.settings =
        addressOf ip (addressText ip bindAddress s.settings) := by
      rw [hSettings]
      change addressOf ip p.persistedAddress = _
      rw [hFrom.persisted, addressOf_canonical]
    rcases bindAddress with - | text
    · exact Or.inl hText
    · exact Or.inr ⟨(enabled, port, some text), hCall, text, rfl, hText⟩
  · rw [hSettings]
    rcases hToken with hSame | ⟨hOn, hRead, hAbsent, hFresh⟩
    · exact Or.inl hSame
    · exact Or.inr ⟨hFresh, Or.inr ⟨⟨(enabled, port, bindAddress), hCall, hOn⟩, hRead, hAbsent⟩⟩
  · rw [hSettings]
    exact Or.inl rfl

theorem Applied.sourced (event : Event) {s' : LocalApi ip} {ok : Bool}
    (hCall : event.call.configures = some (enabled, port, bindAddress))
    (hCareful : CarefulConfig event.faults enabled port bindAddress s)
    (hApplied : Applied event.faults event.fresh enabled port bindAddress s s' ok) :
    Sourced event s s' := by
  rcases hApplied with - | ⟨p, hFrom, hSaved⟩ | ⟨p, hFrom, hSaved, token, stored, hPopulated⟩
  · exact .of_settings rfl
  · obtain ⟨hPort, -⟩ := hCareful (hFrom.accepted hSaved)
    exact withConfig_sourced hCall hFrom hPort (Or.inl rfl) rfl
  · obtain ⟨hPort, hToken⟩ := hCareful (hFrom.accepted hSaved)
    refine withConfig_sourced hCall hFrom hPort ?_ rfl
    refine hPopulated.source.imp_right ?_
    rintro ⟨hOn, hGenerates, hUnsaved, hFresh⟩
    have hRead := (hToken hOn hGenerates.dead).1 hUnsaved
    exact ⟨hOn, hRead, hGenerates.absent hRead, hFresh⟩

/-- A careful call that fails changes nothing. -/
theorem step_unchanged (h : s.Inv) (hCareful : Careful event s)
    (hFails : (outcome event s).2 = false) : Unchanged s (s.step event) := by
  obtain ⟨call, faults, fresh⟩ := event
  rcases call with ⟨enabled, port, bindAddress⟩ | - | - | change
  · have hApplied := applyApiConfigLocked_applied faults fresh enabled port bindAddress h
    change (applyApiConfigLocked faults fresh enabled port bindAddress s).2.isOk = false at hFails
    rw [hFails] at hApplied
    exact hApplied.unchanged h hCareful
  · obtain ⟨inner, lastError, hEq, hInner⟩ := autostart_spec faults fresh h
    change (autostart faults fresh s).2.isOk = false at hFails
    change Unchanged s (autostart faults fresh s).1
    rw [hEq]
    rcases hInner with rfl | ⟨hStartup, hOn, hApplied⟩
    · exact ⟨rfl, rfl, rfl⟩
    · rw [hFails] at hApplied
      obtain ⟨hSettings, hToken, hServer⟩ := hApplied.unchanged h (hCareful hStartup hOn)
      exact ⟨hSettings, hToken, hServer⟩
  · change (rotateLegacyToken faults fresh s).2.isOk = false at hFails
    change Unchanged s (rotateLegacyToken faults fresh s).1
    rcases rotateLegacyToken_spec faults fresh s with ⟨hEq, -⟩ | ⟨-, hOk⟩
    · rw [hEq]
      exact .refl s
    · rw [hOk] at hFails
      cases hFails
  · change (changeReadToken faults fresh change s).2.isOk = false at hFails
    change Unchanged s (changeReadToken faults fresh change s).1
    rcases changeReadToken_spec faults fresh change s with ⟨hEq, -⟩ | ⟨-, hOk⟩
    · rw [hEq]
      exact .refl s
    · rw [hOk] at hFails
      cases hFails

/-- What a careful call persists is not made up. -/
theorem step_sourced (h : s.Inv) (hCareful : Careful event s) :
    Sourced event s (s.step event) := by
  obtain ⟨call, faults, fresh⟩ := event
  rcases call with ⟨enabled, port, bindAddress⟩ | - | - | change
  · exact (applyApiConfigLocked_applied faults fresh enabled port bindAddress h).sourced
      ⟨.apply enabled port bindAddress, faults, fresh⟩ rfl hCareful
  · obtain ⟨inner, lastError, hEq, hInner⟩ := autostart_spec faults fresh h
    change Sourced _ s (autostart faults fresh s).1
    rw [hEq]
    rcases hInner with rfl | ⟨hStartup, hOn, hApplied⟩
    · exact .of_settings rfl
    · obtain ⟨hPort, hAddress, hToken, hRead⟩ := hApplied.sourced
        ⟨.autostart, faults, fresh⟩ rfl (hCareful hStartup hOn)
      exact ⟨hPort, hAddress, hToken, hRead⟩
  · change Sourced _ s (rotateLegacyToken faults fresh s).1
    rcases rotateLegacyToken_spec faults fresh s with ⟨hEq, -⟩ | ⟨hEq, -⟩
    · rw [hEq]
      exact .of_settings rfl
    · rw [hEq]
      exact ⟨Or.inl rfl, Or.inl rfl, Or.inr ⟨rfl, Or.inl rfl⟩, Or.inl rfl⟩
  · change Sourced _ s (changeReadToken faults fresh change s).1
    rcases changeReadToken_spec faults fresh change s with ⟨hEq, -⟩ | ⟨hEq, -⟩
    · rw [hEq]
      exact .of_settings rfl
    · rw [hEq]
      exact ⟨Or.inl rfl, Or.inl rfl, Or.inl rfl, Or.inr ⟨change, rfl, rfl⟩⟩

/-! ## Runs -/

/-- A server that runs is on, with the credentials that are persisted. -/
def Credentials (s : LocalApi ip) : Prop := ∀ server ∈ s.runtime.server, Serving s server

/-- Between the calls a server has what is persisted, a call that fails changes nothing,
and nothing that is persisted is made up. -/
def AtomicRun (s : LocalApi ip) : List Event → Prop
  | [] => Credentials s
  | event :: events => Credentials s ∧ ((outcome event s).2 = false → Unchanged s (s.step event)) ∧
    Sourced event s (s.step event) ∧ AtomicRun (s.step event) events

def CarefulRun (s : LocalApi ip) : List Event → Prop
  | [] => True
  | event :: events => Careful event s ∧ CarefulRun (s.step event) events

instance decidableCarefulRun : (events : List Event) → (s : LocalApi ip) →
    Decidable (CarefulRun s events)
  | [], _ => .isTrue trivial
  | event :: events, s =>
    have := decidableCarefulRun events (s.step event)
    inferInstanceAs (Decidable (_ ∧ _))

theorem CarefulRun.atomic {events : List Event} (h : s.Inv) (hCareful : CarefulRun s events) :
    AtomicRun s events := by
  induction events generalizing s with
  | nil => exact h.serving
  | cons event events ih =>
    obtain ⟨hEvent, hRest⟩ := hCareful
    exact ⟨h.serving, step_unchanged h hEvent, step_sourced h hEvent, ih (step_inv event h) hRest⟩

/-- **Configuration changes.** Whatever the calls and whatever of them fails, a server that
runs between them is on with the credentials that are persisted. Where the stored port is
read if none is given, and a legacy token that has to be generated was read to be absent and
is persisted, a call that fails changes nothing, and what is persisted comes from the calls. -/
theorem config_atomic (ip : IpLiterals) (settings : ApiSettings) (events : List Event) :
    Credentials ((LocalApi.boot ip settings).run events) ∧
      (CarefulRun (LocalApi.boot ip settings) events →
        AtomicRun (LocalApi.boot ip settings) events) :=
  ⟨(run_inv events (boot_inv settings)).serving, fun hCareful => hCareful.atomic (boot_inv settings)⟩

/-! ## Where it is careful, and where it is not -/

/-- A decimal number up to 255 without leading zeros. -/
def isOctet (digits : List Char) : Bool :=
  !digits.isEmpty && digits.all Char.isDigit && (digits.length == 1 || digits.head? != some '0')
  && decide (digits.length ≤ 3 ∧ Nat.ofDigitChars 10 digits 0 ≤ 255)

def isIpv4 (text : String) : Bool :=
  Text.trim text == text && (text.toList.splitOn '.').length == 4
  && (text.toList.splitOn '.').all isOctet

/-- The IPv4 literals: each is the only one for its address. -/
def IpLiterals.ipv4 : IpLiterals where
  Address := { text : String // isIpv4 text = true }
  parse := fun text => if h : isIpv4 text = true then some ⟨text, h⟩ else none
  display := Subtype.val
  displaySocket := fun address port => address.val ++ ":" ++ toString port.toNat
  localhost := ⟨"127.0.0.1", by decide +kernel⟩
  parse_display := fun address => dif_pos address.property
  trim_display := fun address => by
    have hText := address.property
    unfold isIpv4 at hText
    simp only [Bool.and_eq_true, beq_iff_eq] at hText
    exact hText.1.1

def noFaults : Faults :=
  ⟨none, none, none, ⟨none, none, none⟩, none, none, none, none, none, ⟨none, none, none⟩, none⟩

def fresh1 : GeneratedToken := ⟨"0123456789abcdef", by decide⟩

def fresh2 : GeneratedToken := ⟨"fedcba9876543210", by decide⟩

/-- A profile that was configured before. -/
def configured : ApiSettings := ⟨some "true", some "40000", some "127.0.0.1", some "secret", none⟩

/-- Calls of which some fail, and a start while the port cannot be bound. -/
def carefulEvents : List Event :=
  [⟨.autostart, { noFaults with bind := some "in use" }, fresh1⟩,
    ⟨.changeReadToken .create, noFaults, fresh1⟩,
    ⟨.apply true (some 40001) (some " 127.0.0.2 "), noFaults, fresh1⟩,
    ⟨.rotateLegacy, { noFaults with saveToken := some "disk full" }, fresh2⟩,
    ⟨.changeReadToken .rotate, noFaults, fresh2⟩,
    ⟨.apply false none (some "localhost"), noFaults, fresh1⟩,
    ⟨.apply false none none, { noFaults with saveConfig := some "disk full" }, fresh1⟩]

theorem config_atomic_careful : AtomicRun (LocalApi.boot .ipv4 configured) carefulEvents :=
  (config_atomic .ipv4 configured carefulEvents).2 (by decide +kernel)

/-- The port is asked for while it cannot be read. -/
def portUnread : Event :=
  ⟨.apply true none none, { noFaults with config := ⟨none, some "locked", none⟩ }, fresh1⟩

/-- The legacy token is asked for while it cannot be read. -/
def tokenUnread : Event := ⟨.autostart, { noFaults with token := some "locked" }, fresh1⟩

/-- The first enabling cannot persist the token it generates. -/
def tokenUnsaved : Event :=
  ⟨.apply true (some 40000) none, { noFaults with saveToken := some "disk full" }, fresh1⟩

/-- A port and a token are made up, and a call that fails has persisted a configuration. -/
theorem config_not_atomic :
    ¬ AtomicRun (LocalApi.boot .ipv4 configured) [portUnread] ∧
      ¬ AtomicRun (LocalApi.boot .ipv4 configured) [tokenUnread] ∧
      ¬ AtomicRun (LocalApi.boot .ipv4 ⟨none, none, none, none, none⟩) [tokenUnsaved] := by
  refine ⟨fun h => ?_, fun h => ?_, fun h => ?_⟩
  · obtain ⟨-, -, hSourced, -⟩ := h
    rcases hSourced.port with hSame | ⟨c, hc, p, hp, -⟩
    · exact absurd hSame (by decide +kernel)
    · obtain rfl := Option.some.inj hc
      cases hp
  · obtain ⟨-, -, hSourced, -⟩ := h
    rcases hSourced.token with hSame | ⟨-, hCall | ⟨-, hRead, -⟩⟩
    · exact absurd hSame (by decide +kernel)
    · cases hCall
    · cases hRead
  · obtain ⟨-, hUnchanged, -⟩ := h
    exact absurd (hUnchanged (by decide +kernel)).settings (by decide +kernel)

end ScreenSearch.Api.Config
