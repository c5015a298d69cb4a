import ScreenSearch.Api.Reports
import ScreenSearch.Lib.FormUrlencoded
import ScreenSearch.Mcp.Tools

/-!
# Listings over MCP

The parameters of a listing tool go out as a form-encoded query, which the API parses strictly.
What the arguments ask for has to come through both, page by page.

Main results:

* `queryFields_query` — the API reads exactly the parameters that were written;
* `readListing` …
-/

namespace ScreenSearch.Mcp

open Bytes Store Api
open ScreenSearch.Api (decodeBytes decodeComponent hexValue queryField queryFields)

/-! ## The query -/

theorem hexValue_hexDigit {n : UInt8} (h : n < 16) :
    hexValue (FormUrlencoded.hexDigit n) = some n.toNat := by
  have hAll : ∀ n : Fin 16,
      hexValue (FormUrlencoded.hexDigit (UInt8.ofNat n.val)) = some n.val := by decide +kernel
  have hDigit := hAll ⟨n.toNat, UInt8.lt_iff_toNat_lt.mp h⟩
  rwa [UInt8.ofNat_toNat] at hDigit

theorem decodeBytes_plain {b : UInt8} (hPlus : b ≠ 43) (hPercent : b ≠ 37) (rest : List UInt8) :
    decodeBytes (b :: rest) = (decodeBytes rest).map (b :: ·) := by
  conv_lhs => rw [decodeBytes.eq_def]
  dsimp only
  rw [if_neg hPlus, if_neg hPercent]

theorem decodeBytes_plus (rest : List UInt8) :
    decodeBytes (43 :: rest) = (decodeBytes rest).map (32 :: ·) := by
  conv_lhs => rw [decodeBytes.eq_def]
  dsimp only
  rw [if_pos rfl]

/-- What stands for a byte is read as that byte. -/
theorem decodeBytes_standsFor {b : UInt8} {bytes : List UInt8}
    (h : FormUrlencoded.StandsFor b bytes) (rest : List UInt8) :
    decodeBytes (bytes ++ rest) = (decodeBytes rest).map (b :: ·) := by
  rcases h with ⟨-, hPlus, hPercent, -, -⟩ | - | -
  · rw [List.singleton_append, decodeBytes_plain hPlus hPercent]
  · rw [List.singleton_append, decodeBytes_plus]
  · rw [List.cons_append, List.cons_append, List.singleton_append, decodeBytes,
      if_neg (by decide), if_pos rfl]
    rw [hexValue_hexDigit (FormUrlencoded.div_lt b), hexValue_hexDigit (FormUrlencoded.mod_lt b)]
    have hByte : UInt8.ofNat ((b / 16).toNat * 16 + (b % 16).toNat) = b := by
      rw [UInt8.toNat_div, UInt8.toNat_mod]
      show UInt8.ofNat (b.toNat / 16 * 16 + b.toNat % 16) = b
      rw [Nat.div_add_mod', UInt8.ofNat_toNat]
    show (decodeBytes rest >>= fun rest => Except.ok (UInt8.ofNat _ :: rest)) = _
    rw [hByte]
    rcases decodeBytes rest with e | read <;> rfl

theorem decodeBytes_flatMap (form : FormUrlencoded) (bytes : List UInt8) :
    decodeBytes (bytes.flatMap form.byte) = .ok bytes := by
  induction bytes with
  | nil => rfl
  | cons b bytes ih =>
    rw [List.flatMap_cons, decodeBytes_standsFor (form.byte_standsFor b), ih]
    rfl

theorem decodeComponent_component (form : FormUrlencoded) (text : String) :
    decodeComponent (form.component text) = .ok text := by
  rw [decodeComponent, bind_ok]
  refine ⟨utf8 text, ?_, orBadQuery_ok.mpr (ofUtf8_utf8 text)⟩
  rw [form.component_bytes, decodeBytes_flatMap]

/-- A pair with a new key is one more field. -/
theorem queryField_pair (form : FormUrlencoded) {allowed : List String} {fields : Fields}
    {p : String × String} (hAllowed : p.1 ∈ allowed) (hNew : p.1 ∉ fields.map Prod.fst) :
    queryField allowed fields (String.ofList (form.pair p)) = .ok (fields ++ [p]) := by
  have hFresh : (fields.any fun field => field.1 == p.1) = false := by
    rw [List.any_eq_false]
    intro field hField hEq
    exact hNew (List.mem_map.mpr ⟨field, hField, beq_iff_eq.mp hEq⟩)
  simp only [queryField, bind_ok, orBadQuery_ok, require_ok]
  exact ⟨_, form.splitOnce_pair p, p.1, decodeComponent_component form p.1, (),
    List.contains_iff_mem.mpr hAllowed, p.2, decodeComponent_component form p.2, (),
    by rw [hFresh]; rfl, rfl⟩

/-- The API reads exactly the parameters that were written. -/
theorem queryFields_query (form : FormUrlencoded) {allowed : List String} {params : Params}
    (hAllowed : ∀ p ∈ params, p.1 ∈ allowed) (hNodup : (params.map Prod.fst).Nodup) :
    queryFields (some (form.query params)) allowed = .ok params := by
  -- the induction is on the fields still to be read, behind those that were
  have hFold : ∀ (params : Params) (fields : Fields), (∀ p ∈ params, p.1 ∈ allowed) →
      ((fields ++ params).map Prod.fst).Nodup →
      ((params.map form.pair).map String.ofList).foldlM (queryField allowed) fields =
        .ok (fields ++ params) := by
    intro params
    induction params with
    | nil =>
      intro fields _ _
      rw [List.append_nil]
      rfl
    | cons p params ih =>
      intro fields hAllowed hNodup
      have hNew : p.1 ∉ fields.map Prod.fst := by
        rw [List.map_append, List.map_cons] at hNodup
        intro hIn
        exact (List.disjoint_of_nodup_append hNodup) hIn List.mem_cons_self
      rw [List.map_cons, List.map_cons, List.foldlM_cons,
        queryField_pair form (hAllowed p List.mem_cons_self) hNew]
      show ((params.map form.pair).map String.ofList).foldlM (queryField allowed) (fields ++ [p]) = _
      rw [ih (fields ++ [p]) (fun q hq => hAllowed q (List.mem_cons_of_mem _ hq))
        (by rwa [List.append_assoc, List.singleton_append]), List.append_assoc,
        List.singleton_append]
  unfold queryFields
  rw [Option.getD_some]
  rcases params with - | ⟨p, params⟩
  · rfl
  · rw [form.splitOn_query (List.cons_ne_nil p params), List.filter_eq_self.mpr ?_]
    · exact hFold _ [] hAllowed hNodup
    · -- no piece is empty: each has a `=` in it
      intro piece hPiece
      obtain ⟨q, -, rfl⟩ := List.mem_map.mp hPiece
      rcases (form.component q.1).toList with - | ⟨c, rest⟩ <;> simp [FormUrlencoded.pair]

/-! ## Integers -/

theorem repr_isDigit {n : Nat} {c : Char} (h : c ∈ n.repr.toList) : c.isDigit = true := by
  rw [Nat.toList_repr] at h
  exact Nat.isDigit_of_mem_toDigits (by decide) (by decide) h

theorem stripPrefix_repr (n : Nat) : Text.stripPrefix "-" n.repr = none := by
  unfold Text.stripPrefix
  rw [Option.map_eq_none_iff, Option.eq_none_iff_forall_not_mem]
  intro rest hRest
  obtain ⟨sign, hSign, hEq⟩ := List.dropPrefix?_eq_some_iff.mp hRest
  have hMinus : '-' ∈ n.repr.toList := by
    rw [hSign, beq_iff_eq.mp hEq]
    exact List.mem_append_left _ (by decide)
  exact absurd (repr_isDigit hMinus) (by decide)

theorem stripPrefix_minus (text : String) : Text.stripPrefix "-" ("-" ++ text) = some text := by
  unfold Text.stripPrefix
  rw [String.toList_append, List.dropPrefix?_append_of_beq _ (beq_self_eq_true _), Option.map_some,
    String.ofList_toList]

/-- What is left behind the sign, read as a number. -/
theorem parseInteger_digits {value : String} {signed : Bool} {n : Nat} {result : Int}
    (hDigits : (if signed then (Text.stripPrefix "-" value).getD value else value) = n.repr)
    (hResult : (if n.repr = value then (n : Int) else -n) = result) (hRange : IsI64 result) :
    parseInteger value signed = .ok result := by
  have hAll : n.repr.toList.all Char.isDigit = true := List.all_eq_true.mpr fun _ => repr_isDigit
  have hSome : n.repr.isEmpty = false := by
    rw [Bool.eq_false_iff, ne_eq, String.isEmpty_iff, ← String.toList_inj, Nat.toList_repr]
    exact Nat.toDigits_ne_nil
  have hRead : Nat.ofDigitChars 10 n.repr.toList 0 = n := by
    rw [Nat.toList_repr, Nat.ofDigitChars_ten_toDigits]
  simp only [parseInteger, bind_ok, require_ok]
  rw [hDigits, hAll, hSome, hRead, hResult]
  exact ⟨(), rfl, (), decide_eq_true hRange, rfl⟩

theorem parseInteger_toString {n : Int} (h : IsI64 n) : parseInteger (toString n) true = .ok n := by
  rcases n with n | n
  · refine parseInteger_digits (n := n) ?_ (if_pos rfl) h
    show (Text.stripPrefix "-" n.repr).getD n.repr = n.repr
    rw [stripPrefix_repr]
    rfl
  · have hSign : ¬(n + 1).repr = "-" ++ (n + 1).repr := by
      intro hEq
      have hLength := congrArg String.length hEq
      rw [String.length_append] at hLength
      have : "-".length = 1 := rfl
      omega
    refine parseInteger_digits (n := n + 1) ?_ (if_neg hSign) h
    show (Text.stripPrefix "-" ("-" ++ (n + 1).repr)).getD _ = (n + 1).repr
    rw [stripPrefix_minus]
    rfl

theorem parseInteger_unsigned {n : Int} (hLow : 0 ≤ n) (hHigh : n < 2 ^ 63) :
    parseInteger (toString n) false = .ok n := by
  obtain ⟨m, rfl⟩ := Int.eq_ofNat_of_zero_le hLow
  exact parseInteger_digits (n := m) rfl (if_pos rfl) ⟨by omega, hHigh⟩

/-! ## What a listing is asked for -/

/-- The first page of a listing, or a further one. -/
inductive Asked where
  | first (start stop : Int) (one two : Option String)
  | next (cursor : String)

def limitParam (limit : Option Int) : Params := (limit.map fun n => ("limit", toString n)).toList

def Asked.params (listing : Listing) : Asked → Params
  | .first start stop one two =>
    [("from", toString start), ("to", toString stop)] ++
      (one.map fun s => (listing.filters.1, s)).toList ++
      (two.map fun s => (listing.filters.2, s)).toList
  | .next cursor => [("cursor", cursor)]

def limitOf (args : Value) : Option Int := (args.get "limit").bind Value.asI64

/-- What the arguments ask for. -/
def askedOf (listing : Listing) (args : Value) : Asked :=
  let text (key : String) := (args.get key).bind Value.asStr
  let number (key : String) := ((args.get key).bind Value.asI64).getD 0
  match text "cursor" with
  | some cursor => .next cursor
  | none => .first (number "from") (number "to") (text listing.filters.1) (text listing.filters.2)

/-- The numbers of a request are in range. -/
structure Asked.Fits (listing : Listing) (asked : Asked) (limit : Option Int) : Prop where
  limit : ∀ n ∈ limit, 1 ≤ n ∧ n ≤ listing.maxLimit
  numbers : ∀ start stop one two, asked = .first start stop one two →
    IsI64 start ∧ IsI64 stop

theorem asI64_ok {v : Value} {n : Int} (h : v.asI64 = some n) : IsI64 n := by
  unfold Value.asI64 at h
  split at h
  · split at h
    · next hRange =>
      obtain rfl := Option.some.inj h
      exact hRange
    · cases h
  · cases h

theorem requireInteger_ok {args : Value} {key : String} {n : Int}
    (h : requireInteger args key = .ok n) :
    (args.get key).bind Value.asI64 = some n := by
  unfold requireInteger at h
  split at h
  · cases h
  · cases h
  · next v _ hValue =>
    rw [hValue, Option.bind_some]
    split at h
    · next hInt =>
      cases h
      exact hInt
    · cases h

theorem optionalInteger_ok {args : Value} {key : String} {n : Option Int}
    (h : optionalInteger args key = .ok n) : (args.get key).bind Value.asI64 = n := by
  unfold optionalInteger at h
  split at h
  · next hValue =>
    cases h
    rw [hValue]
    rfl
  · next hValue =>
    cases h
    rw [hValue]
    rfl
  · next v _ hValue =>
    rw [hValue, Option.bind_some]
    split at h
    · next hInt =>
      cases h
      exact hInt
    · cases h

theorem optionalString_ok {args : Value} {key : String} {s : Option String}
    (h : optionalString args key = .ok s) : (args.get key).bind Value.asStr = s := by
  unfold optionalString at h
  split at h
  · next hValue =>
    cases h
    rw [hValue]
    rfl
  · next hValue =>
    cases h
    rw [hValue]
    rfl
  · next text hValue =>
    cases h
    rw [hValue]
    rfl
  · cases h

/-- What is built asks for what the arguments say. -/
theorem buildListingQuery_ok {listing : Listing} {args : Value} {params : Params}
    (h : buildListingQuery listing args = .ok params) :
    params = (askedOf listing args).params listing ++ limitParam (limitOf args) ∧
      (askedOf listing args).Fits listing (limitOf args) := by
  simp only [buildListingQuery, bind_ok] at h
  obtain ⟨limit, hLimit, h⟩ := h
  have hLimitOf : limitOf args = limit := optionalInteger_ok hLimit
  split at h
  · cases h
  next hRange =>
  have hFits : ∀ n ∈ limit, 1 ≤ n ∧ n ≤ listing.maxLimit := by
    intro n hn
    rw [Option.mem_def.mp hn, Option.any_some, decide_eq_true_eq] at hRange
    omega
  simp only [bind_ok] at h
  obtain ⟨cursor, hCursor, h⟩ := h
  have hCursorOf := optionalString_ok hCursor
  rw [hLimitOf]
  unfold askedOf
  dsimp only
  rw [hCursorOf]
  rcases cursor with - | cursor
  · -- no cursor: the first page of a window
    simp only [bind_ok] at h
    obtain ⟨start, hStart, stop, hStop, one, hOne, two, hTwo, h⟩ := h
    have hStartOf := requireInteger_ok hStart
    have hStopOf := requireInteger_ok hStop
    cases h
    dsimp only
    rw [hStartOf, hStopOf, optionalString_ok hOne, optionalString_ok hTwo]
    refine ⟨rfl, hFits, ?_⟩
    rintro _ _ _ _ ⟨⟩
    obtain ⟨v, -, hInt⟩ := Option.bind_eq_some_iff.mp hStartOf
    obtain ⟨w, -, hInt'⟩ := Option.bind_eq_some_iff.mp hStopOf
    exact ⟨asI64_ok hInt, asI64_ok hInt'⟩
  · -- a cursor, with nothing but a limit beside it
    dsimp only at h ⊢
    refine ⟨?_, hFits, by rintro _ _ _ _ ⟨⟩⟩
    split at h
    · cases h
    · split at h
      · cases h
      · cases h
        rfl

/-! ## What the API reads -/

/-- The names a listing's query may have. -/
def Listing.names (listing : Listing) : List String :=
  ["from", "to", listing.filters.1, listing.filters.2, "limit", "cursor"]

section

variable {listing : Listing} (hNames : listing.names.Nodup)
include hNames

/-- Every parameter comes through, under its name. -/
theorem queryFields_params (form : FormUrlencoded) (asked : Asked) (limit : Option Int) :
    queryFields (some (form.query (asked.params listing ++ limitParam limit))) listing.names =
      .ok (asked.params listing ++ limitParam limit) := by
  simp only [Listing.names, List.nodup_cons, List.mem_cons, List.not_mem_nil, or_false, not_or,
    List.nodup_nil, not_false_eq_true, and_true] at hNames
  refine queryFields_query form ?_ ?_
  · rcases asked with ⟨start, stop, - | one, - | two⟩ | cursor <;> rcases limit with - | limit <;>
      simp [Asked.params, limitParam, Listing.names]
  · rcases asked with ⟨start, stop, - | one, - | two⟩ | cursor <;> rcases limit with - | limit <;>
      simp [Asked.params, limitParam, hNames]

theorem fieldOf_limit (asked : Asked) (limit : Option Int) :
    fieldOf (asked.params listing ++ limitParam limit) "limit" = limit.map toString := by
  simp only [Listing.names, List.nodup_cons, List.mem_cons, List.not_mem_nil, or_false, not_or,
    List.nodup_nil, not_false_eq_true, and_true] at hNames
  rcases asked with ⟨start, stop, - | one, - | two⟩ | cursor <;> rcases limit with - | limit <;>
    simp [fieldOf, Asked.params, limitParam, hNames]

theorem remove_limit (asked : Asked) (limit : Option Int) :
    remove (asked.params listing ++ limitParam limit) "limit" = asked.params listing := by
  simp only [Listing.names, List.nodup_cons, List.mem_cons, List.not_mem_nil, or_false, not_or,
    List.nodup_nil, not_false_eq_true, and_true] at hNames
  rcases asked with ⟨start, stop, - | one, - | two⟩ | cursor <;> rcases limit with - | limit <;>
    simp [remove, Asked.params, limitParam, hNames]

/-- The fields of a first page. -/
theorem fieldOf_first (start stop : Int) (one two : Option String) :
    fieldOf ((Asked.first start stop one two).params listing) "from" = some (toString start) ∧
      fieldOf ((Asked.first start stop one two).params listing) "to" = some (toString stop) ∧
      fieldOf ((Asked.first start stop one two).params listing) listing.filters.1 = one ∧
      fieldOf ((Asked.first start stop one two).params listing) listing.filters.2 = two ∧
      fieldOf ((Asked.first start stop one two).params listing) "cursor" = none := by
  simp only [Listing.names, List.nodup_cons, List.mem_cons, List.not_mem_nil, or_false, not_or,
    List.nodup_nil, not_false_eq_true, and_true] at hNames
  rcases one with - | one <;> rcases two with - | two <;>
    simp [fieldOf, Asked.params, hNames, Ne.symm hNames.2.2.1.1]

end

def limitOr (default : Nat) (limit : Option Int) : Nat := (limit.map Int.toNat).getD default

/-- A limit in range is read back, by either endpoint. -/
theorem parseLimits {listing : Listing} (hNames : listing.names.Nodup) {asked : Asked}
    {limit : Option Int} (hFits : asked.Fits listing limit) (hMax : listing.maxLimit = 1000) :
    parseLimit (asked.params listing ++ limitParam limit) =
        .ok (limitOr framePageDefaultLimit limit) ∧
      Reports.parseReportLimit (asked.params listing ++ limitParam limit) =
        .ok (limitOr reportPageDefaultLimit limit) := by
  unfold parseLimit Reports.parseReportLimit
  rw [fieldOf_limit hNames]
  rcases limit with - | n
  · exact ⟨rfl, rfl⟩
  · obtain ⟨hLow, hHigh⟩ := hFits.limit n rfl
    rw [hMax] at hHigh
    simp only [Option.map_some, bind_ok, require_ok, decide_eq_true_eq]
    have hRead := parseInteger_unsigned (n := n) (by omega) (by omega)
    exact ⟨⟨n, hRead, (), ⟨hLow, hHigh⟩, rfl⟩, n, hRead, (), ⟨hLow, hHigh⟩, rfl⟩

/-- The request of a page of frames. -/
def framesRequest (base64 : Base64) (limit : Option Int) :
    Asked → Except ApiError FramePageRequest
  | .next cursor => decodeCursor base64 cursor (limitOr framePageDefaultLimit limit)
  | .first start stop app windowTitle => do
    orHistoryError (EvidenceWindow.validate ⟨start, stop⟩)
    orHistoryError (FrameFilters.validate ⟨app, windowTitle⟩)
    pure
      { window := ⟨start, stop⟩
        filters := Api.normalize ⟨app, windowTitle⟩
        limit := limitOr framePageDefaultLimit limit
        continuation := none }

/-- The request of a page of reports. -/
def reportsRequest (base64 : Base64) (limit : Option Int) :
    Asked → Except ApiError ReportPageRequest
  | .next cursor => Reports.decodeReportCursor base64 cursor (limitOr reportPageDefaultLimit limit)
  | .first start stop phase outcome => do
    Reports.orReportError (EvidenceWindow.validate ⟨start, stop⟩)
    let phase ← Reports.parsePhase phase
    let outcome ← Reports.parseOutcome outcome
    pure
      { window := ⟨start, stop⟩
        filters := ⟨phase, outcome⟩
        limit := limitOr reportPageDefaultLimit limit
        continuation := none }

/-- The two ends of a window are read back. -/
theorem parseWindows {fields : Fields} {start stop : Int}
    (hFrom : fieldOf fields "from" = some (toString start)) (hStart : IsI64 start)
    (hTo : fieldOf fields "to" = some (toString stop)) (hStop : IsI64 stop) :
    parseWindow fields =
        (orHistoryError (EvidenceWindow.validate ⟨start, stop⟩) >>= fun _ => .ok ⟨start, stop⟩) ∧
      Reports.parseReportWindow fields =
        (Reports.orReportError (EvidenceWindow.validate ⟨start, stop⟩) >>= fun _ =>
          .ok ⟨start, stop⟩) := by
  unfold parseWindow Reports.parseReportWindow
  rw [hFrom, hTo]
  show (parseInteger (toString start) true >>= _) = _ ∧
    (parseInteger (toString start) true >>= _) = _
  rw [parseInteger_toString hStart]
  show (parseInteger (toString stop) true >>= _) = _ ∧
    (parseInteger (toString stop) true >>= _) = _
  rw [parseInteger_toString hStop]
  exact ⟨rfl, rfl⟩

theorem framesListing_names : framesListing.names.Nodup := by decide

theorem reportsListing_names : reportsListing.names.Nodup := by decide

variable (form : FormUrlencoded) (base64 : Base64) {asked : Asked} {limit : Option Int}

/-- The API reads the request that was asked for. -/
theorem parseFrames_params (hFits : asked.Fits framesListing limit) :
    parseFrames base64 (some (form.query (asked.params framesListing ++ limitParam limit))) =
      framesRequest base64 limit asked := by
  unfold parseFrames
  rw [show (["from", "to", "app", "window_title", "limit", "cursor"] : List String) =
    framesListing.names from rfl, queryFields_params framesListing_names]
  show (parseLimit _ >>= _) = _
  rw [(parseLimits framesListing_names hFits rfl).1]
  show (match fieldOf (remove _ "limit") "cursor" with
    | some cursor => _
    | none => _) = _
  rw [remove_limit framesListing_names]
  rcases asked with ⟨start, stop, app, title⟩ | cursor
  · obtain ⟨hFrom, hTo, hApp, hTitle, hCursor⟩ :=
      fieldOf_first framesListing_names start stop app title
    obtain ⟨hStart, hStop⟩ := hFits.numbers start stop app title rfl
    change fieldOf _ "app" = app at hApp
    change fieldOf _ "window_title" = title at hTitle
    rw [hCursor]
    dsimp only
    rw [(parseWindows hFrom hStart hTo hStop).1, hApp, hTitle, framesRequest]
    rcases orHistoryError (EvidenceWindow.validate ⟨start, stop⟩) with e | u <;> rfl
  · rfl

theorem parseReportPage_params (hFits : asked.Fits reportsListing limit) :
    Reports.parseReportPage base64
        (some (form.query (asked.params reportsListing ++ limitParam limit))) =
      reportsRequest base64 limit asked := by
  unfold Reports.parseReportPage
  rw [show (["from", "to", "phase", "outcome", "limit", "cursor"] : List String) =
    reportsListing.names from rfl, queryFields_params reportsListing_names]
  show (Reports.parseReportLimit _ >>= _) = _
  rw [(parseLimits reportsListing_names hFits rfl).2]
  show (match fieldOf (remove _ "limit") "cursor" with
    | some cursor => _
    | none => _) = _
  rw [remove_limit reportsListing_names]
  rcases asked with ⟨start, stop, phase, outcome⟩ | cursor
  · obtain ⟨hFrom, hTo, hPhase, hOutcome, hCursor⟩ :=
      fieldOf_first reportsListing_names start stop phase outcome
    obtain ⟨hStart, hStop⟩ := hFits.numbers start stop phase outcome rfl
    change fieldOf _ "phase" = phase at hPhase
    change fieldOf _ "outcome" = outcome at hOutcome
    rw [hCursor]
    dsimp only
    rw [(parseWindows hFrom hStart hTo hStop).2, hPhase, hOutcome, reportsRequest]
    rcases Reports.orReportError (EvidenceWindow.validate ⟨start, stop⟩) with e | u <;> rfl
  · rfl

/-- **What the tools send is what they were asked for**: whenever the arguments of a listing
make a query at all, the API reads from it the page that they describe. -/
theorem listing_requests (args : Value) (params : Params) :
    (buildFramesQuery args = .ok params →
      parseFrames base64 (some (form.query params)) =
        framesRequest base64 (limitOf args) (askedOf framesListing args)) ∧
    (buildReportsQuery args = .ok params →
      Reports.parseReportPage base64 (some (form.query params)) =
        reportsRequest base64 (limitOf args) (askedOf reportsListing args)) := by
  constructor
  · intro h
    obtain ⟨rfl, hFits⟩ := buildListingQuery_ok h
    exact parseFrames_params form base64 hFits
  · intro h
    obtain ⟨rfl, hFits⟩ := buildListingQuery_ok h
    exact parseReportPage_params form base64 hFits

/-- Two frame and report windows, with a filter that needs its escapes and with a limit. -/
theorem listing_requests_windows :
    parseFrames Base64.urlSafeNoPad (some (FormUrlencoded.standard.query
        [("from", "0"), ("to", "100"), ("app", "a & b")])) =
      framesRequest Base64.urlSafeNoPad none (.first 0 100 (some "a & b") none) ∧
    Reports.parseReportPage Base64.urlSafeNoPad (some (FormUrlencoded.standard.query
        [("from", "5"), ("to", "9"), ("limit", "7")])) =
      reportsRequest Base64.urlSafeNoPad (some 7) (.first 5 9 none none) :=
  ⟨(listing_requests FormUrlencoded.standard Base64.urlSafeNoPad
      (.obj [("from", .int 0), ("to", .int 100), ("app", .str "a & b")])
      [("from", "0"), ("to", "100"), ("app", "a & b")]).1 (by decide +kernel),
    (listing_requests FormUrlencoded.standard Base64.urlSafeNoPad
      (.obj [("from", .int 5), ("to", .int 9), ("limit", .int 7)])
      [("from", "5"), ("to", "9"), ("limit", "7")]).2 (by decide +kernel)⟩

end ScreenSearch.Mcp
