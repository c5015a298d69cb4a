import ScreenSearch.Lib.Text
import Mathlib.Data.String.Basic

/-!
# The local API's configuration

The settings under the API's keys, the server that may run, and the calls that change them,
each under the configuration lock. Every access to the store and the binding of the listener
may fail; a failed access changes nothing.

Status reads and the ports of a configuration are read tolerantly, the other values
strictly; a legacy token is generated where none is stored.
-/

namespace ScreenSearch.Api.Config

/-! ## Values -/

/-- IPv4 and IPv6 literals: what is displayed is read again. -/
structure IpLiterals where
  Address : Type
  parse : String → Option Address
  display : Address → String
  /-- An address with a port. -/
  displaySocket : Address → UInt16 → String
  /-- `Ipv4Addr::LOCALHOST`. -/
  localhost : Address
  parse_display : ∀ a, parse (display a) = some a
  trim_display : ∀ a, Text.trim (display a) = display a

variable {ip : IpLiterals}

/-- 64 hex digits, of which only this is used. -/
structure GeneratedToken where
  text : String
  nonempty : text.isEmpty = false

def portMin : UInt16 := 1024

def defaultPort : UInt16 := 43210

def clampApiPort (port : UInt16) : UInt16 := max port portMin

/-- `str::parse::<u16>`: digits, behind one `+` at most. -/
def parseU16 (value : String) : Option UInt16 :=
  let digits := (Text.stripPrefix "+" value).getD value
  if digits.isEmpty ∨ !digits.toList.all Char.isDigit then none
  else
    let n := Nat.ofDigitChars 10 digits.toList 0
    if n < 2 ^ 16 then some (UInt16.ofNat n) else none

def invalidAddress : String := "API bind address must be an IPv4 or IPv6 literal"

def parseBindAddress (ip : IpLiterals) (value : String) : Except String ip.Address :=
  match ip.parse (Text.trim value) with
  | some address => .ok address
  | none => .error invalidAddress

/-! ## State -/

/-- The rows of the settings under the API's keys. -/
structure ApiSettings where
  enabled : Option String
  port : Option String
  bindAddress : Option String
  token : Option String
  readToken : Option String
  deriving DecidableEq, Repr

/-- A server that listens. It shares the runtime's token, and has a read credential of
its own. -/
structure ApiServer (ip : IpLiterals) where
  address : ip.Address
  port : UInt16
  readToken : Option String

structure ApiRuntime (ip : IpLiterals) where
  server : Option (ApiServer ip)
  token : String
  lastError : Option String

structure LocalApi (ip : IpLiterals) where
  settings : ApiSettings
  runtime : ApiRuntime ip

def ApiRuntime.new (ip : IpLiterals) : ApiRuntime ip where
  server := none
  token := ""
  lastError := none

/-- The accesses of `read_api_config` that fail, and with what. -/
structure ConfigFaults where
  enabled : Option String
  port : Option String
  token : Option String
  deriving DecidableEq, Repr

/-- The accesses of one call that fail, in the order in which they are made. -/
structure Faults where
  startup : Option String
  bindAddress : Option String
  readToken : Option String
  config : ConfigFaults
  saveConfig : Option String
  token : Option String
  saveToken : Option String
  bind : Option String
  saveReadToken : Option String
  status : ConfigFaults
  statusAddress : Option String
  deriving DecidableEq, Repr

def getSetting (fault : Option String) (value : Option String) :
    Except String (Option String) :=
  match fault with
  | some e => .error e
  | none => .ok value

/-- `map_err` with a message before the text of the error. -/
def withContext {α : Type} (message : String) : Except String α → Except String α
  | .ok a => .ok a
  | .error e => .error (message ++ e)

/-- `ok().flatten()`: a failed read is read as nothing. -/
def tolerant (read : Except String (Option String)) : Option String := read.toOption.join

/-! ## Reads -/

def portOf (value : Option String) : UInt16 :=
  ((value.bind parseU16).map clampApiPort).getD defaultPort

def filterBlank (value : Option String) : Option String := value.filter fun t => !t.isEmpty

def readApiConfig (faults : ConfigFaults) (settings : ApiSettings) :
    Bool × UInt16 × Option String :=
  (((tolerant (getSetting faults.enabled settings.enabled)).map (· == "true")).getD false,
    portOf (tolerant (getSetting faults.port settings.port)),
    filterBlank (tolerant (getSetting faults.token settings.token)))

def readBindAddress (ip : IpLiterals) (fault : Option String) (settings : ApiSettings) :
    Except String String :=
  withContext "could not read api.bind_address: "
    ((getSetting fault settings.bindAddress).map (·.getD (ip.display ip.localhost)))

/-- Read errors are not absence. -/
def readReadToken (fault : Option String) (settings : ApiSettings) :
    Except String (Option String) :=
  match getSetting fault settings.readToken with
  | .ok value => .ok (filterBlank value)
  | .error _ => .error "Could not read the API read credential."

structure ApiStatus where
  enabled : Bool
  running : Bool
  port : UInt16
  token : Option String
  lastError : Option String
  bindAddress : String
  deriving DecidableEq, Repr

def statusAddress (faults : Faults) (s : LocalApi ip) : Option String × String :=
  match readBindAddress ip faults.statusAddress s.settings with
  | .ok value =>
    match parseBindAddress ip value with
    | .ok _ => (s.runtime.lastError, value)
    | .error e => (some e, value)
  | .error e => (some e, ip.display ip.localhost)

def currentStatus (faults : Faults) (s : LocalApi ip) : ApiStatus :=
  let (enabled, port, token) := readApiConfig faults.status s.settings
  let (lastError, bindAddress) := statusAddress faults s
  { enabled := enabled
    running := s.runtime.server.isSome
    port := port
    token := token
    lastError := lastError
    bindAddress := bindAddress }

/-! ## Configuration calls -/

/-- What a call is about to persist and to start. An enabled configuration has an address
that was checked. -/
structure Prepared (ip : IpLiterals) (enabled : Bool) where
  targetAddress : Option ip.Address
  persistedAddress : String
  readToken : Option String
  targetPort : UInt16
  validated : enabled = true → targetAddress.isSome = true

/-- A damaged saved address does not prevent turning the API off. -/
def targetAddress (ip : IpLiterals) (enabled explicitAddress : Bool) (storedAddress : String) :
    Except String { target : Option ip.Address // enabled = true → target.isSome = true } :=
  match parseBindAddress ip storedAddress with
  | .ok address => .ok ⟨some address, fun _ => rfl⟩
  | .error e =>
    if h : enabled = false ∧ explicitAddress = false then
      .ok ⟨none, fun hEnabled => by rw [h.1] at hEnabled; cases hEnabled⟩
    else .error e

def storedAddress (ip : IpLiterals) (faults : Faults) (bindAddress : Option String)
    (settings : ApiSettings) : Except String String :=
  match bindAddress with
  | some value => .ok value
  | none => readBindAddress ip faults.bindAddress settings

/-- The port a call is about to persist. -/
def targetPort (faults : Faults) (port : Option UInt16) (settings : ApiSettings) : UInt16 :=
  clampApiPort (port.getD (readApiConfig faults.config settings).2.1)

/-- The credential that a call installs. -/
def configuredRead (faults : Faults) (enabled : Bool) (settings : ApiSettings) :
    Except String (Option String) :=
  if enabled then readReadToken faults.readToken settings else .ok none

def prepare (ip : IpLiterals) (faults : Faults) (enabled : Bool) (port : Option UInt16)
    (bindAddress : Option String) (settings : ApiSettings) :
    Except String (Prepared ip enabled) := do
  let stored ← storedAddress ip faults bindAddress settings
  let target ← targetAddress ip enabled bindAddress.isSome stored
  let readToken ← configuredRead faults enabled settings
  pure
    { targetAddress := target.1
      persistedAddress := (target.1.map ip.display).getD stored
      readToken := readToken
      targetPort := targetPort faults port settings
      validated := target.2 }

def ApiSettings.withConfig (settings : ApiSettings) (port : UInt16) (enabled : Bool)
    (bindAddress : String) : ApiSettings :=
  { settings with
    port := some (toString port.toNat)
    enabled := some (toString enabled)
    bindAddress := some bindAddress }

/-- The configuration is persisted, the server stopped, the last error forgotten. -/
def LocalApi.persistAndStop (s : LocalApi ip) {enabled : Bool} (p : Prepared ip enabled) :
    LocalApi ip where
  settings := s.settings.withConfig p.targetPort enabled p.persistedAddress
  runtime := { s.runtime with server := none, lastError := none }

/-- The live token is authoritative once there is one. -/
def populateToken (faults : Faults) (fresh : GeneratedToken) (s : LocalApi ip) :
    LocalApi ip × Except String Unit :=
  if s.runtime.token.isEmpty then
    match filterBlank (tolerant (getSetting faults.token s.settings.token)) with
    | some t => ({ s with runtime.token := t }, .ok ())
    | none =>
      match faults.saveToken with
      | some e => (s, .error ("could not persist api.token: " ++ e))
      | none =>
        ({ settings := { s.settings with token := some fresh.text }
           runtime := { s.runtime with token := fresh.text } }, .ok ())
  else (s, .ok ())

/-- The read credential is installed before anything is accepted. A failure to bind is kept
as the last error. -/
def listen (faults : Faults) (address : ip.Address) (port : UInt16) (readToken : Option String)
    (s : LocalApi ip) : LocalApi ip :=
  match faults.bind with
  | none => { s with runtime.server := some ⟨address, port, readToken⟩ }
  | some e =>
    { s with
      runtime.lastError := some ("could not listen on " ++ ip.displaySocket address port ++ ": " ++ e) }

def applyApiConfigLocked (faults : Faults) (fresh : GeneratedToken) (enabled : Bool)
    (port : Option UInt16) (bindAddress : Option String) (s : LocalApi ip) :
    LocalApi ip × Except String ApiStatus :=
  match prepare ip faults enabled port bindAddress s.settings with
  | .error e => (s, .error e)
  | .ok p =>
    match faults.saveConfig with
    | some e => (s, .error ("could not persist API configuration: " ++ e))
    | none =>
      let s := s.persistAndStop p
      if h : enabled = true then
        match populateToken faults fresh s with
        | (s, .error e) => (s, .error e)
        | (s, .ok ()) =>
          let s := listen faults (p.targetAddress.get (p.validated h)) p.targetPort p.readToken s
          (s, .ok (currentStatus faults s))
      else (s, .ok (currentStatus faults s))

/-- A failed read is no disabled intent. -/
def startup (faults : Faults) (fresh : GeneratedToken) (s : LocalApi ip) :
    LocalApi ip × Except String ApiStatus :=
  match withContext "could not read API startup configuration: "
    (getSetting faults.startup s.settings.enabled) with
  | .error e => (s, .error e)
  | .ok value =>
    if value == some "true" then applyApiConfigLocked faults fresh true none none s
    else (s, .ok (currentStatus faults s))

def autostart (faults : Faults) (fresh : GeneratedToken) (s : LocalApi ip) :
    LocalApi ip × Except String ApiStatus :=
  match startup faults fresh s with
  | (s, .ok status) => (s, .ok status)
  | (s, .error e) => ({ s with runtime.lastError := some e }, .error e)

/-! ## Credential calls -/

def rotateLegacyToken (faults : Faults) (fresh : GeneratedToken) (s : LocalApi ip) :
    LocalApi ip × Except String ApiStatus :=
  match faults.saveToken with
  | some _ => (s, .error "Could not save the API token; access was not changed.")
  | none =>
    let s : LocalApi ip :=
      { settings := { s.settings with token := some fresh.text }
        runtime := { s.runtime with token := fresh.text } }
    (s, .ok (currentStatus faults s))

inductive ReadTokenChange where
  | create | rotate | revoke
  deriving DecidableEq, Repr

/-- `set_read_token` of the server that runs, if one does. -/
def LocalApi.setReadToken (s : LocalApi ip) (token : Option String) : LocalApi ip :=
  { s with runtime.server := s.runtime.server.map fun server => { server with readToken := token } }

def persistThenInstallReadToken (faults : Faults) (token : Option String) (s : LocalApi ip) :
    LocalApi ip × Except String Bool :=
  match faults.saveReadToken with
  | some _ => (s, .error "Could not save the API read credential; access was not changed.")
  | none =>
    -- an empty saved value is a disabled credential
    let s : LocalApi ip := { s with settings.readToken := some (token.getD "") }
    (s.setReadToken token, .ok token.isSome)

/-- Whether a read credential is configured afterwards. -/
def changeReadToken (faults : Faults) (fresh : GeneratedToken) (change : ReadTokenChange)
    (s : LocalApi ip) : LocalApi ip × Except String Bool :=
  match readReadToken faults.readToken s.settings with
  | .error e => (s, .error e)
  | .ok existing =>
    match change with
    | .create =>
      if existing.isSome then
        (s, .error "A read token already exists. Use Rotate to replace it.")
      else persistThenInstallReadToken faults (some fresh.text) s
    | .rotate =>
      if existing.isNone then (s, .error "No read token is configured. Use Create first.")
      else persistThenInstallReadToken faults (some fresh.text) s
    | .revoke => persistThenInstallReadToken faults none s

/-! ## Runs -/

inductive Call where
  | apply (enabled : Bool) (port : Option UInt16) (bindAddress : Option String)
  | autostart
  | rotateLegacy
  | changeReadToken (change : ReadTokenChange)
  deriving DecidableEq, Repr

/-- A call, what of it fails, and the token it generates if it generates one. -/
structure Event where
  call : Call
  faults : Faults
  fresh : GeneratedToken

/-- What a call leaves, and whether it returned without an error. -/
def outcome (event : Event) (s : LocalApi ip) : LocalApi ip × Bool :=
  match event.call with
  | .apply enabled port bindAddress =>
    let (s, result) := applyApiConfigLocked event.faults event.fresh enabled port bindAddress s
    (s, result.isOk)
  | .autostart => let (s, result) := autostart event.faults event.fresh s; (s, result.isOk)
  | .rotateLegacy =>
    let (s, result) := rotateLegacyToken event.faults event.fresh s; (s, result.isOk)
  | .changeReadToken change =>
    let (s, result) := changeReadToken event.faults event.fresh change s; (s, result.isOk)

def LocalApi.step (s : LocalApi ip) (event : Event) : LocalApi ip := (outcome event s).1

def LocalApi.run (s : LocalApi ip) (events : List Event) : LocalApi ip :=
  events.foldl LocalApi.step s

/-- A start with what is persisted. -/
def LocalApi.boot (ip : IpLiterals) (settings : ApiSettings) : LocalApi ip where
  settings := settings
  runtime := ApiRuntime.new ip

end ScreenSearch.Api.Config
