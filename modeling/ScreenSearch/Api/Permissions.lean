import ScreenSearch.Lib.Bytes
import ScreenSearch.Lib.Text
import Mathlib.Data.List.Pairwise

/-!
# Bearer tokens and classified routes

A route is registered together with the permission it needs, and one layer in front of every
route asks for a token and for that permission. Routes that were added around the registry
have no permission anybody could hold.

Main results:

* `constantTimeEq_iff` — the comparison that never stops early compares;
* `principalOf_read`, `principalOf_legacy` — whom a token stands for;
* `ran_granted` — in every router that can be built, a handler runs for a principal that holds
  the permission it was registered with;
* `runs_iff_granted` — and under a classified route exactly these are served, by the handler
  that was registered.
-/

namespace ScreenSearch.Api.Permissions

open Bytes

inductive Permission where
  | historyRead
  | marksWrite
  | captureRequest
  | answerGenerate
  /-- Reserved: no credential grants it. -/
  | reportsGenerate
  deriving DecidableEq, Repr

/-- What the layer answers in a handler's place. -/
inductive Refusal where
  | unauthorized
  | forbidden
  | notFound (message : String)
  | methodNotAllowed (allow : String)
  deriving DecidableEq, Repr

structure Principal where
  permissions : List Permission
  deriving DecidableEq, Repr

namespace Principal

def legacy : Principal := ⟨[.historyRead, .marksWrite, .captureRequest, .answerGenerate]⟩

def read : Principal := ⟨[.historyRead]⟩

def require (principal : Principal) (permission : Permission) : Except Refusal Unit :=
  if principal.permissions.contains permission then .ok () else .error .forbidden

end Principal

inductive Method where
  | get
  | head
  | post
  | other (name : String)
  deriving DecidableEq, Repr

def Method.asStr : Method → String
  | .get => "GET"
  | .head => "HEAD"
  | .post => "POST"
  | .other name => name

/-! ## The layer -/

structure RoutePolicy where
  path : String
  method : Method
  permission : Permission
  deriving DecidableEq, Repr

/-- `None` lets the request through to the handler of the matched path. -/
def authorize (policies : List RoutePolicy) (path : Option String) (method : Method)
    (principal : Principal) : Option Refusal :=
  match path with
  | none => some (.notFound "no such endpoint")
  | some path =>
    let entries := policies.filter fun p => p.path == path
    if entries.isEmpty then some .forbidden
    else match entries.find? fun p => p.method == method with
      | some policy =>
        match principal.require policy.permission with
        | .ok _ => none
        | .error refusal => some refusal
      | none => some (.methodNotAllowed (",".intercalate (entries.map fun p => p.method.asStr)))

/-- The two live credentials; the second may be missing. -/
structure Tokens where
  token : String
  readToken : Option String
  deriving DecidableEq, Repr

/-- The exclusive ors of all bytes are gathered before anything is decided. -/
def constantTimeEq (a b : List UInt8) : Bool :=
  a.length == b.length && (a.zip b).foldl (fun acc pair => acc ||| (pair.1 ^^^ pair.2)) 0 == 0

/-- `HeaderValue::to_str` gives visible ASCII only. -/
def visibleAscii (byte : UInt8) : Bool := (32 ≤ byte && byte < 127) || byte == 9

/-- The token behind `Bearer `, if the header can be read as text. -/
def presented (authorization : Option (List UInt8)) : Option (List UInt8) :=
  match authorization with
  | none => none
  | some value =>
    if value.all visibleAscii && (utf8 "Bearer ").isPrefixOf value then
      some (value.drop (utf8 "Bearer ").length)
    else none

/-- Where both tokens are the same, the lesser principal is meant. -/
def principalOf (tokens : Tokens) (token : List UInt8) : Option Principal :=
  let legacyMatch := !tokens.token.isEmpty && constantTimeEq token (utf8 tokens.token)
  let readMatch := tokens.readToken.any fun current =>
    !current.isEmpty && constantTimeEq token (utf8 current)
  if readMatch then some .read else if legacyMatch then some .legacy else none

structure Request where
  method : Method
  path : String
  authorization : Option (List UInt8)
  body : List UInt8
  deriving DecidableEq, Repr

def requireBearer (tokens : Tokens) (policies : List RoutePolicy) (path : Option String)
    (request : Request) : Except Refusal Principal :=
  match (presented request.authorization).bind (principalOf tokens) with
  | none => .error .unauthorized
  | some principal =>
    match authorize policies path request.method principal with
    | some refusal => .error refusal
    | none => .ok principal

/-! ## The registry -/

structure Route (H : Type) where
  path : String
  method : Method
  handler : H

structure ClassifiedRouter (H : Type) where
  router : List (Route H)
  policies : List RoutePolicy

/-- The last is a route put into the router around the registry. -/
inductive Registration (H : Type) where
  | get (path : String) (handler : H) (permission : Permission)
  | post (path : String) (handler : H) (permission : Permission)
  | raw (path : String) (method : Method) (handler : H)

variable {H : Type}

/-- `Router::route`: a second handler for one method of one path panics. -/
def route (routes : List (Route H)) (path : String) (method : Method) (handler : H) :
    Option (List (Route H)) :=
  if routes.any fun r => r.path == path && r.method == method then none
  else some (routes ++ [⟨path, method, handler⟩])

namespace ClassifiedRouter

def new : ClassifiedRouter H := ⟨[], []⟩

/-- `GET` classifies `HEAD` with it. -/
def get (r : ClassifiedRouter H) (path : String) (handler : H) (permission : Permission) :
    Option (ClassifiedRouter H) := do
  let router ← route r.router path .get handler
  pure ⟨router, r.policies ++ [⟨path, .get, permission⟩, ⟨path, .head, permission⟩]⟩

def post (r : ClassifiedRouter H) (path : String) (handler : H) (permission : Permission) :
    Option (ClassifiedRouter H) := do
  let router ← route r.router path .post handler
  pure ⟨router, r.policies ++ [⟨path, .post, permission⟩]⟩

def register (r : ClassifiedRouter H) : Registration H → Option (ClassifiedRouter H)
  | .get path handler permission => r.get path handler permission
  | .post path handler permission => r.post path handler permission
  | .raw path method handler => do
    let router ← route r.router path method handler
    pure ⟨router, r.policies⟩

def build (registrations : List (Registration H)) : Option (ClassifiedRouter H) :=
  registrations.foldlM register new

end ClassifiedRouter

/-- The handler of a method of a matched path: `HEAD` falls back on `GET`. -/
def handlerFor (routes : List (Route H)) (path : String) (method : Method) : Option H :=
  let of (method : Method) :=
    (routes.find? fun r => r.path == path && r.method == method).map Route.handler
  match method with
  | .head => (of .head).orElse fun _ => of .get
  | method => of method

inductive Outcome (H : Type) where
  | refused (refusal : Refusal)
  | ran (handler : H) (principal : Principal)
  deriving DecidableEq

/-- `matched` is the path among the registered ones that the server found for the request. -/
def dispatch (r : ClassifiedRouter H) (matched : Option String) (tokens : Tokens)
    (request : Request) : Outcome H :=
  match requireBearer tokens r.policies matched request with
  | .error refusal => .refused refusal
  | .ok principal =>
    match matched.bind fun path => handlerFor r.router path request.method with
    | some handler => .ran handler principal
    | none => .refused (.methodNotAllowed "")

/-! ## Tokens -/

theorem xorFold_eq_zero (pairs : List (UInt8 × UInt8)) (acc : UInt8) :
    pairs.foldl (fun acc pair => acc ||| (pair.1 ^^^ pair.2)) acc = 0 ↔
      acc = 0 ∧ ∀ pair ∈ pairs, pair.1 = pair.2 := by
  induction pairs generalizing acc with
  | nil => simp
  | cons pair pairs ih =>
    rw [List.foldl_cons, ih, UInt8.or_eq_zero_iff, UInt8.xor_eq_zero_iff]
    simp only [List.forall_mem_cons, and_assoc]

theorem zip_equal {a b : List UInt8} (hLength : a.length = b.length) :
    (∀ pair ∈ a.zip b, pair.1 = pair.2) ↔ a = b := by
  induction a generalizing b with
  | nil => simp [List.eq_nil_of_length_eq_zero hLength.symm]
  | cons x a ih =>
    rcases b with - | ⟨y, b⟩
    · simp at hLength
    · rw [List.zip_cons_cons, List.forall_mem_cons, ih (by simpa using hLength)]
      simp

theorem constantTimeEq_iff (a b : List UInt8) : constantTimeEq a b = true ↔ a = b := by
  unfold constantTimeEq
  rw [Bool.and_eq_true, beq_iff_eq, beq_iff_eq, xorFold_eq_zero]
  constructor
  · intro ⟨hLength, _, hEqual⟩
    exact (zip_equal hLength).mp hEqual
  · intro hEq
    have hLength : a.length = b.length := by rw [hEq]
    exact ⟨hLength, rfl, (zip_equal hLength).mpr hEq⟩

/-- The token is the read credential in force. -/
def IsRead (tokens : Tokens) (token : List UInt8) : Prop :=
  ∃ current, tokens.readToken = some current ∧ current ≠ "" ∧ token = utf8 current

/-- The token is the legacy credential in force. -/
def IsLegacy (tokens : Tokens) (token : List UInt8) : Prop :=
  tokens.token ≠ "" ∧ token = utf8 tokens.token

theorem readMatch_iff (tokens : Tokens) (token : List UInt8) :
    (tokens.readToken.any fun current =>
      !current.isEmpty && constantTimeEq token (utf8 current)) = true ↔ IsRead tokens token := by
  unfold IsRead
  rcases tokens.readToken with - | current
  · simp
  · simp [constantTimeEq_iff]

theorem principalOf_read (tokens : Tokens) (token : List UInt8) :
    principalOf tokens token = some .read ↔ IsRead tokens token := by
  rw [← readMatch_iff]
  unfold principalOf
  simp only
  split
  · simp [*]
  · rename_i hNot
    simp only [hNot]
    split <;> simp [Principal.legacy, Principal.read]

/-- Nobody holds the whole grant with the read credential, whatever the other one is. -/
theorem principalOf_legacy (tokens : Tokens) (token : List UInt8) :
    principalOf tokens token = some .legacy ↔ IsLegacy tokens token ∧ ¬ IsRead tokens token := by
  rw [← readMatch_iff]
  unfold principalOf IsLegacy
  simp only
  split
  · simp [*, Principal.legacy, Principal.read]
  · rename_i hNot
    rw [Bool.not_eq_true] at hNot
    simp [hNot, constantTimeEq_iff]

theorem principalOf_cases {tokens : Tokens} {token : List UInt8} {principal : Principal}
    (h : principalOf tokens token = some principal) :
    principal = .read ∨ principal = .legacy := by
  unfold principalOf at h
  simp only at h
  split at h
  · exact .inl (Option.some.inj h).symm
  · split at h
    · exact .inr (Option.some.inj h).symm
    · cases h

/-! ## Routers -/

/-- The route a registration puts into the router. -/
def Registration.route : Registration H → Route H
  | .get path handler _ => ⟨path, .get, handler⟩
  | .post path handler _ => ⟨path, .post, handler⟩
  | .raw path method handler => ⟨path, method, handler⟩

/-- The registration classifies a method of a path. -/
def Registration.Classifies (registration : Registration H) (policy : RoutePolicy) : Prop :=
  match registration with
  | .get path _ permission =>
    policy = ⟨path, .get, permission⟩ ∨ policy = ⟨path, .head, permission⟩
  | .post path _ permission => policy = ⟨path, .post, permission⟩
  | .raw _ _ _ => False

/-- What the registrations have made of a router. -/
structure Built (registrations : List (Registration H)) (r : ClassifiedRouter H) : Prop where
  routes : r.router = registrations.map Registration.route
  policies : ∀ policy, policy ∈ r.policies ↔
    ∃ registration ∈ registrations, registration.Classifies policy
  distinct : r.router.Pairwise fun a b => a.path = b.path → a.method ≠ b.method

theorem route_some {routes routes' : List (Route H)} {path : String} {method : Method}
    {handler : H} (h : route routes path method handler = some routes') :
    routes' = routes ++ [⟨path, method, handler⟩] ∧
      ∀ r ∈ routes, r.path = path → r.method ≠ method := by
  unfold route at h
  split at h
  · cases h
  · rename_i hNone
    refine ⟨(Option.some.inj h).symm, fun r hr hPath hMethod => hNone ?_⟩
    exact List.any_eq_true.mpr ⟨r, hr, by simp [hPath, hMethod]⟩

theorem register_some {r r' : ClassifiedRouter H} {registration : Registration H}
    (h : r.register registration = some r') :
    ∃ classified, r' = ⟨r.router ++ [registration.route], r.policies ++ classified⟩ ∧
      (∀ policy, policy ∈ classified ↔ registration.Classifies policy) ∧
      ∀ a ∈ r.router, a.path = registration.route.path → a.method ≠ registration.route.method := by
  rcases registration with ⟨path, handler, permission⟩ | ⟨path, handler, permission⟩ |
    ⟨path, method, handler⟩ <;>
    simp only [ClassifiedRouter.register, ClassifiedRouter.get, ClassifiedRouter.post,
      Option.bind_eq_bind, Option.bind_eq_some_iff, Option.pure_def, Option.some.injEq] at h <;>
    obtain ⟨routes, hRoute, rfl⟩ := h <;>
    obtain ⟨rfl, hNew⟩ := route_some hRoute
  · exact ⟨_, rfl, by simp [Registration.Classifies], hNew⟩
  · exact ⟨_, rfl, by simp [Registration.Classifies], hNew⟩
  · exact ⟨[], by simp [Registration.route], by simp [Registration.Classifies], hNew⟩

theorem build_built {registrations : List (Registration H)} {r : ClassifiedRouter H}
    (h : ClassifiedRouter.build registrations = some r) : Built registrations r := by
  induction registrations using List.reverseRecOn generalizing r with
  | nil =>
    obtain rfl : ClassifiedRouter.new = r := by simpa [ClassifiedRouter.build] using h
    exact ⟨rfl, by simp [ClassifiedRouter.new], List.Pairwise.nil⟩
  | append_singleton registrations registration ih =>
    simp only [ClassifiedRouter.build, List.foldlM_append, List.foldlM_cons, List.foldlM_nil,
      Option.bind_eq_bind, Option.bind_eq_some_iff] at h
    obtain ⟨before, hBefore, after, hRegister, hAfter⟩ := h
    obtain rfl : after = r := by simpa using hAfter
    obtain ⟨classified, rfl, hClassified, hNew⟩ := register_some hRegister
    have hBuilt := ih hBefore
    refine ⟨by simp [hBuilt.routes], fun policy => ?_, ?_⟩
    · simp only [List.mem_append, hBuilt.policies, hClassified, List.mem_singleton,
        or_and_right, exists_or, exists_eq_left]
    · refine List.pairwise_append.mpr ⟨hBuilt.distinct, List.pairwise_singleton .., ?_⟩
      intro a ha b hb
      rw [List.mem_singleton] at hb
      exact hb ▸ hNew a ha

namespace Built

variable {registrations : List (Registration H)} {r : ClassifiedRouter H}

/-- Under one path and method there is one handler only. -/
theorem find_route (h : Built registrations r) {registration : Registration H}
    (hMem : registration ∈ registrations) :
    r.router.find? (fun x => x.path == registration.route.path &&
      x.method == registration.route.method) = some registration.route := by
  have hIn : registration.route ∈ r.router := h.routes ▸ List.mem_map_of_mem hMem
  obtain ⟨before, after, hSplit⟩ := List.append_of_mem hIn
  have hDistinct := h.distinct
  rw [hSplit, List.pairwise_append] at hDistinct
  have hEarlier : before.find? (fun x => x.path == registration.route.path &&
      x.method == registration.route.method) = none := by
    refine List.find?_eq_none.mpr fun x hx hHit => ?_
    rw [Bool.and_eq_true, beq_iff_eq, beq_iff_eq] at hHit
    exact hDistinct.2.2 x hx _ List.mem_cons_self hHit.1 hHit.2
  rw [hSplit, List.find?_append, hEarlier]
  simp

end Built

theorem require_ok_iff {principal : Principal} {permission : Permission} :
    principal.require permission = .ok () ↔ permission ∈ principal.permissions := by
  unfold Principal.require
  split
  · simp_all
  · simp_all

/-- What `authorize` lets through is classified, and the permission is held. -/
theorem authorize_none {policies : List RoutePolicy} {path : Option String} {method : Method}
    {principal : Principal} (h : authorize policies path method principal = none) :
    ∃ policy ∈ policies, path = some policy.path ∧ policy.method = method ∧
      policy.permission ∈ principal.permissions := by
  rcases path with - | path
  · simp [authorize] at h
  · simp only [authorize] at h
    split at h
    · cases h
    · split at h
      · rename_i policy hFind
        obtain ⟨hMem, hPath⟩ := List.mem_filter.mp (List.mem_of_find?_eq_some hFind)
        have hMethod := List.find?_some hFind
        rw [beq_iff_eq] at hPath hMethod
        refine ⟨policy, hMem, by rw [hPath], hMethod, require_ok_iff.mp ?_⟩
        split at h
        · assumption
        · cases h
      · cases h

/-- The facts behind a handler that ran. -/
theorem dispatch_ran {r : ClassifiedRouter H} {matched : Option String} {tokens : Tokens}
    {request : Request} {handler : H} {principal : Principal}
    (h : dispatch r matched tokens request = .ran handler principal) :
    (∃ token, presented request.authorization = some token ∧
      principalOf tokens token = some principal) ∧
    ∃ policy ∈ r.policies, matched = some policy.path ∧ policy.method = request.method ∧
      policy.permission ∈ principal.permissions ∧
      handlerFor r.router policy.path request.method = some handler := by
  unfold dispatch at h
  split at h
  · cases h
  · rename_i held hBearer
    unfold requireBearer at hBearer
    split at hBearer
    · cases hBearer
    · rename_i held' hPrincipal
      split at hBearer
      · cases hBearer
      · rename_i hAuthorize
        -- the middleware has let the principal through
        obtain ⟨policy, hPolicy, rfl, hMethod, hHeld⟩ := authorize_none hAuthorize
        obtain rfl := Except.ok.inj hBearer
        split at h
        · rename_i hHandler
          obtain ⟨rfl, rfl⟩ := Outcome.ran.inj h
          exact ⟨Option.bind_eq_some_iff.mp hPrincipal, policy, hPolicy, rfl, hMethod, hHeld,
            hHandler⟩
        · cases h

/-- The handler was registered for the method, with a permission that the principal holds. -/
def GrantedTo (registrations : List (Registration H)) (method : Method) (handler : H)
    (principal : Principal) : Prop :=
  ∃ registration ∈ registrations, registration.route.handler = handler ∧
    ∃ policy, registration.Classifies policy ∧ policy.method = method ∧
      policy.permission ∈ principal.permissions

/-- A `HEAD` handler was put around the registry onto a path whose `GET` the principal may
use. -/
def HeadAround (registrations : List (Registration H)) (handler : H) (principal : Principal) :
    Prop :=
  ∃ path getter permission, .raw path .head handler ∈ registrations ∧
    .get path getter permission ∈ registrations ∧ permission ∈ principal.permissions

namespace Built

variable {registrations : List (Registration H)} {r : ClassifiedRouter H}

theorem find_of {path : String} {method : Method} {handler : H} (h : Built registrations r)
    (hFind : (r.router.find? fun x => x.path == path && x.method == method).map Route.handler =
      some handler) :
    ∃ registration ∈ registrations, registration.route = ⟨path, method, handler⟩ := by
  obtain ⟨found, hFound, rfl⟩ := Option.map_eq_some_iff.mp hFind
  have hMem := List.mem_of_find?_eq_some hFound
  have hHit := List.find?_some hFound
  rw [h.routes] at hMem
  obtain ⟨registration, hRegistration, rfl⟩ := List.mem_map.mp hMem
  rw [Bool.and_eq_true, beq_iff_eq, beq_iff_eq] at hHit
  exact ⟨registration, hRegistration, by rw [← hHit.1, ← hHit.2]⟩

/-- A route that was registered with a `get` is found under its path. -/
theorem find_handler (h : Built registrations r) {registration : Registration H}
    (hMem : registration ∈ registrations) {path : String} {method : Method} {handler : H}
    (hRoute : registration.route = ⟨path, method, handler⟩) :
    (r.router.find? fun x => x.path == path && x.method == method).map Route.handler =
      some handler := by
  have := h.find_route hMem
  rw [hRoute] at this
  simp [this]

end Built

/--
**No handler without its permission.** For every router that can be built from any
registrations, every pair of tokens and every request, a handler that runs was registered for
the request's method with a permission that the principal of the presented token holds; the
one exception is a
`HEAD` handler put around the registry onto a path whose `GET` is classified, which takes
the place of that `GET`.
-/
theorem ran_granted {registrations : List (Registration H)} {r : ClassifiedRouter H}
    (hBuild : ClassifiedRouter.build registrations = some r) {matched : Option String}
    {tokens : Tokens} {request : Request} {handler : H} {principal : Principal}
    (h : dispatch r matched tokens request = .ran handler principal) :
    GrantedTo registrations request.method handler principal ∨
      request.method = .head ∧ HeadAround registrations handler principal := by
  have hBuilt := build_built hBuild
  obtain ⟨-, policy, hPolicy, -, hMethod, hHeld, hHandler⟩ := dispatch_ran h
  obtain ⟨registration, hMem, hClassifies⟩ := (hBuilt.policies policy).mp hPolicy
  have hGranted (hSame : registration.route.handler = handler) :
      GrantedTo registrations policy.method handler principal :=
    ⟨registration, hMem, hSame, policy, hClassifies, rfl, hHeld⟩
  rw [← hMethod] at hHandler ⊢
  rcases registration with ⟨path, getter, permission⟩ | ⟨path, poster, permission⟩ | ⟨_, _, _⟩
  · rcases hClassifies with rfl | rfl
    · refine .inl (hGranted ?_)
      exact Option.some.inj ((hBuilt.find_handler hMem rfl).symm.trans hHandler)
    · -- `HEAD`: a handler of its own comes before that of `GET`
      unfold handlerFor at hHandler
      simp only at hHandler
      rcases hHead : (r.router.find? fun x => x.path == path && x.method == Method.head).map
          Route.handler with - | around
      · rw [hHead, Option.orElse_none] at hHandler
        exact .inl (hGranted (Option.some.inj ((hBuilt.find_handler hMem rfl).symm.trans hHandler)))
      · rw [hHead, Option.orElse_some] at hHandler
        obtain rfl := Option.some.inj hHandler
        obtain ⟨other, hOther, hRoute⟩ := hBuilt.find_of hHead
        rcases other with ⟨_, _, _⟩ | ⟨_, _, _⟩ | ⟨otherPath, otherMethod, otherHandler⟩
        · simp [Registration.route] at hRoute
        · simp [Registration.route] at hRoute
        · obtain ⟨rfl, rfl, rfl⟩ : otherPath = path ∧ otherMethod = .head ∧
              otherHandler = around := by simpa [Registration.route] using hRoute
          exact .inr ⟨rfl, otherPath, getter, permission, hOther, hMem, hHeld⟩
  · obtain rfl : policy = ⟨path, .post, permission⟩ := hClassifies
    refine .inl (hGranted ?_)
    exact Option.some.inj ((hBuilt.find_handler hMem rfl).symm.trans hHandler)
  · exact hClassifies.elim

/-- A registration classifies each of its methods once. -/
theorem Built.classified_once {registrations : List (Registration H)} {r : ClassifiedRouter H}
    (hBuilt : Built registrations r) {a b : Registration H} (ha : a ∈ registrations)
    (hb : b ∈ registrations) {p q : RoutePolicy} (hp : a.Classifies p) (hq : b.Classifies q)
    (hPath : p.path = q.path) (hMethod : p.method = q.method) : p.permission = q.permission := by
  have hRoutes : registrations.Pairwise fun a b =>
      a.route.path = b.route.path → a.route.method ≠ b.route.method := by
    have := hBuilt.distinct
    rwa [hBuilt.routes, List.pairwise_map] at this
  have : Std.Symm fun a b : Registration H =>
      a.route.path = b.route.path → a.route.method ≠ b.route.method :=
    ⟨fun _ _ h hPath hMethod => h hPath.symm hMethod.symm⟩
  have hDiffer := hRoutes.forall ha hb
  by_cases hSame : a = b
  · subst hSame
    rcases a with ⟨path, _, permission⟩ | ⟨path, _, permission⟩ | ⟨_, _, _⟩
    · rcases hp with rfl | rfl <;> rcases hq with rfl | rfl <;> rfl
    · obtain rfl : p = _ := hp
      obtain rfl : q = _ := hq
      rfl
    · exact hp.elim
  · -- two registrations never share a path and a method
    have hRoute := hDiffer hSame
    rcases a with ⟨_, _, _⟩ | ⟨_, _, _⟩ | ⟨_, _, _⟩ <;>
      rcases b with ⟨_, _, _⟩ | ⟨_, _, _⟩ | ⟨_, _, _⟩ <;>
      simp only [Registration.Classifies, Registration.route] at hp hq hRoute <;>
      grind

/-- And where the permission is held, the handler of a classified route is reached. -/
theorem granted_runs {registrations : List (Registration H)} {r : ClassifiedRouter H}
    (hBuild : ClassifiedRouter.build registrations = some r) {registration : Registration H}
    (hMem : registration ∈ registrations) {policy : RoutePolicy}
    (hClassifies : registration.Classifies policy) {tokens : Tokens} {request : Request}
    (hMethod : request.method = registration.route.method)
    (hPolicy : policy.method = registration.route.method) {token : List UInt8}
    (hToken : presented request.authorization = some token) {principal : Principal}
    (hPrincipal : principalOf tokens token = some principal)
    (hHeld : policy.permission ∈ principal.permissions) :
    dispatch r (some policy.path) tokens request =
      .ran registration.route.handler principal := by
  have hBuilt := build_built hBuild
  have hPath : policy.path = registration.route.path := by
    rcases registration with ⟨_, _, _⟩ | ⟨_, _, _⟩ | ⟨_, _, _⟩
    · rcases hClassifies with rfl | rfl <;> rfl
    · obtain rfl : policy = _ := hClassifies
      rfl
    · exact hClassifies.elim
  have hIn : policy ∈ r.policies.filter fun p => p.path == policy.path :=
    List.mem_filter.mpr ⟨(hBuilt.policies policy).mpr ⟨_, hMem, hClassifies⟩, beq_self_eq_true _⟩
  -- the policy that is found may be another, but asks for the same permission
  have hAuthorize : authorize r.policies (some policy.path) request.method principal = none := by
    unfold authorize
    simp only
    rw [if_neg (by rw [List.isEmpty_iff]; exact List.ne_nil_of_mem hIn)]
    rcases hFind : (r.policies.filter fun p => p.path == policy.path).find?
        fun p => p.method == request.method with - | found
    · have := List.find?_eq_none.mp hFind policy hIn
      rw [hMethod, ← hPolicy, beq_self_eq_true] at this
      exact absurd rfl this
    · obtain ⟨hFound, hFoundPath⟩ := List.mem_filter.mp (List.mem_of_find?_eq_some hFind)
      have hFoundMethod := List.find?_some hFind
      rw [beq_iff_eq] at hFoundPath hFoundMethod
      obtain ⟨other, hOther, hOtherClassifies⟩ := (hBuilt.policies found).mp hFound
      have hSame := hBuilt.classified_once hOther hMem hOtherClassifies hClassifies hFoundPath
        (by rw [hFoundMethod, hMethod, hPolicy])
      rw [hFind]
      simp only [hSame, require_ok_iff.mpr hHeld]
  have hHandler : handlerFor r.router policy.path request.method =
      some registration.route.handler := by
    have hFound : (r.router.find? fun x => x.path == registration.route.path &&
        x.method == registration.route.method).map Route.handler =
        some registration.route.handler := hBuilt.find_handler hMem rfl
    rw [hPath, hMethod]
    rcases registration with ⟨_, _, _⟩ | ⟨_, _, _⟩ | ⟨_, _, _⟩
    · exact hFound
    · exact hFound
    · exact hClassifies.elim
  have hBearer : requireBearer tokens r.policies (some policy.path) request = .ok principal := by
    unfold requireBearer
    rw [hToken, Option.bind_some, hPrincipal]
    simp only [hAuthorize]
  unfold dispatch
  rw [hBearer]
  simp only [Option.bind_some, hHandler]

/--
**Who is served.** In every router that can be built, a request for a method and path that
were registered together with a permission is served by the registered handler if its token
stands for a principal with that permission, and by no handler otherwise.
-/
theorem runs_iff_granted {registrations : List (Registration H)} {r : ClassifiedRouter H}
    (hBuild : ClassifiedRouter.build registrations = some r) {registration : Registration H}
    (hMem : registration ∈ registrations) {policy : RoutePolicy}
    (hClassifies : registration.Classifies policy) {request : Request}
    (hMethod : request.method = registration.route.method)
    (hPolicy : policy.method = registration.route.method) (tokens : Tokens) (handler : H)
    (principal : Principal) :
    dispatch r (some policy.path) tokens request = .ran handler principal ↔
      handler = registration.route.handler ∧ policy.permission ∈ principal.permissions ∧
      ∃ token, presented request.authorization = some token ∧
        principalOf tokens token = some principal := by
  constructor
  · intro hRan
    obtain ⟨⟨token, hToken, hPrincipal⟩, found, hFound, hPath, hFoundMethod, hHeld, -⟩ :=
      dispatch_ran hRan
    obtain ⟨other, hOther, hOtherClassifies⟩ :=
      ((build_built hBuild).policies found).mp hFound
    have hSame : found.permission = policy.permission :=
      (build_built hBuild).classified_once hOther hMem hOtherClassifies hClassifies
        (Option.some.inj hPath).symm (by rw [hFoundMethod, hMethod, hPolicy])
    rw [hSame] at hHeld
    have hOwn := granted_runs hBuild hMem hClassifies hMethod hPolicy hToken hPrincipal hHeld
    rw [hRan] at hOwn
    exact ⟨(Outcome.ran.inj hOwn).1, hHeld, token, hToken, hPrincipal⟩
  · rintro ⟨rfl, hHeld, token, hToken, hPrincipal⟩
    exact granted_runs hBuild hMem hClassifies hMethod hPolicy hToken hPrincipal hHeld

/-- A frame listing behind the registry, and a probe put around it. -/
theorem runs_iff_granted_frames :
    dispatch ⟨[⟨"/v1/frames", .get, "frames"⟩, ⟨"/health", .get, "health"⟩],
        [⟨"/v1/frames", .get, .historyRead⟩, ⟨"/v1/frames", .head, .historyRead⟩]⟩
        (some "/v1/frames") ⟨"all", some "read"⟩
        ⟨.get, "/v1/frames", some (utf8 "Bearer read"), []⟩ = .ran "frames" .read :=
  (@runs_iff_granted String
    [.get "/v1/frames" "frames" .historyRead, .raw "/health" .get "health"] _ rfl
    (.get "/v1/frames" "frames" .historyRead) List.mem_cons_self ⟨"/v1/frames", .get, .historyRead⟩
    (.inl rfl) ⟨.get, "/v1/frames", some (utf8 "Bearer read"), []⟩ rfl rfl ⟨"all", some "read"⟩
    "frames" .read).mpr ⟨rfl, by decide, utf8 "read", by decide +kernel, by decide +kernel⟩

end ScreenSearch.Api.Permissions
