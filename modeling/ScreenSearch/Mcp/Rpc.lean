import ScreenSearch.Lib.PrettyJson
import ScreenSearch.Lib.Bytes

/-!
# JSON-RPC over lines

Every line that comes in is classified by what it is: a request, which has an id, a
notification, which has none, something to answer with an error, or nothing. Every message
that goes out is one compact line.

Main results:

* `render_plain` — no message has a line break in it;
* `classifyObject_some`, `classifyObject_none` — an object is answered under its id, or not at
  all.
-/

namespace ScreenSearch.Mcp

/-- `serde_json::Value`; objects are kept as lists of fields. -/
inductive Value where
  | null
  | bool (b : Bool)
  | int (n : Int)
  /-- A number that is no integer, by its bits. -/
  | float (bits : UInt64)
  | str (text : String)
  | arr (items : List Value)
  | obj (fields : List (String × Value))
  deriving Repr

namespace Value

def isNull : Value → Bool
  | .null => true
  | _ => false

def get (key : String) : Value → Option Value
  | .obj fields => (fields.find? fun field => field.1 == key).map Prod.snd
  | _ => none

def asStr : Value → Option String
  | .str text => some text
  | _ => none

def asBool : Value → Option Bool
  | .bool b => some b
  | _ => none

/-- An integer of 64 bits. -/
def asI64 : Value → Option Int
  | .int n => if -2 ^ 63 ≤ n ∧ n < 2 ^ 63 then some n else none
  | _ => none

def arrayLength : Value → Nat
  | .arr items => items.length
  | _ => 0

section

variable (floatText : UInt64 → List Char)

mutual

/-- `serde_json::to_string`. -/
def render : Value → List Char
  | .null => "null".toList
  | .bool b => (if b then "true" else "false").toList
  | .int n => Json.renderInt n
  | .float bits => floatText bits
  | .str text => Json.renderString text
  | .arr [] => "[]".toList
  | .arr (item :: items) => '[' :: render item ++ renderItems items ++ [']']
  | .obj [] => "{}".toList
  | .obj ((key, value) :: fields) =>
    '{' :: Json.renderString key ++ ':' :: render value ++ renderFields fields ++ ['}']

def renderItems : List Value → List Char
  | [] => []
  | item :: items => ',' :: render item ++ renderItems items

def renderFields : List (String × Value) → List Char
  | [] => []
  | (key, value) :: fields =>
    ',' :: Json.renderString key ++ ':' :: render value ++ renderFields fields

end

end

end Value

/-! ## Messages -/

def parseError : Int := -32700
def invalidRequest : Int := -32600
def methodNotFound : Int := -32601
def invalidParams : Int := -32602

structure RpcRequest where
  id : Value
  method : String
  params : Value

structure Notification where
  method : String
  params : Value

inductive Message where
  | request (request : RpcRequest)
  | notification (note : Notification)
  /-- Answered as it is. -/
  | error (response : Value)
  | drop

def success (id result : Value) : Value :=
  .obj [("jsonrpc", .str "2.0"), ("id", id), ("result", result)]

def error (id : Value) (code : Int) (message : String) : Value :=
  .obj [("jsonrpc", .str "2.0"), ("id", id),
    ("error", .obj [("code", .int code), ("message", .str message)])]

/-- What an object is, by its id, its method and its version. -/
def classifyObject (id : Option Value) (method : Option String) (jsonrpcOk : Bool)
    (params : Value) : Message :=
  match method, jsonrpcOk with
  | some method, true =>
    match id with
    | some id =>
      if id.isNull then .notification ⟨method, params⟩ else .request ⟨id, method, params⟩
    | none => .notification ⟨method, params⟩
  | _, _ =>
    match id with
    | some id => if id.isNull then .drop else .error (error id invalidRequest "Invalid Request")
    | none => .drop

section

variable {id : Option Value} {method : Option String} {jsonrpcOk : Bool} {params : Value}

/-- The id that an object is answered under; a null is none. -/
def liveId (id : Option Value) : Option Value := id.filter fun id => !id.isNull

theorem classifyObject_some {live : Value} (h : liveId id = some live) :
    (∃ name, classifyObject id method jsonrpcOk params = .request ⟨live, name, params⟩) ∨
      classifyObject id method jsonrpcOk params =
        .error (error live invalidRequest "Invalid Request") := by
  unfold liveId at h
  obtain ⟨rfl, hLive⟩ := Option.filter_eq_some_iff.mp h
  rw [Bool.not_eq_true'] at hLive
  unfold classifyObject
  split
  · exact .inl ⟨_, if_neg (by simp [hLive])⟩
  · exact .inr (if_neg (by simp [hLive]))

theorem classifyObject_none (h : liveId id = none) :
    (∃ note, classifyObject id method jsonrpcOk params = .notification note) ∨
      classifyObject id method jsonrpcOk params = .drop := by
  unfold liveId at h
  unfold classifyObject
  rcases id with - | id
  · split
    · exact .inl ⟨_, rfl⟩
    · exact .inr rfl
  · have hNull : id.isNull = true := by simpa using h
    split
    · exact .inl ⟨_, if_pos hNull⟩
    · exact .inr (if_pos hNull)

end

section

variable (fromStr : String → Option Value)

def classify (line : String) : Message :=
  match fromStr line with
  | none => .error (error .null parseError "Parse error")
  | some (.arr _) => .error (error .null invalidRequest "JSON-RPC batching is not supported")
  | some (.obj fields) =>
    let value := Value.obj fields
    classifyObject (value.get "id") ((value.get "method").bind Value.asStr)
      ((value.get "jsonrpc").bind Value.asStr == some "2.0")
      ((value.get "params").getD .null)
  | some _ => .error (error .null invalidRequest "Invalid Request")

end

/-! ## Lines -/

open PrettyJson

mutual

theorem render_plain {floatText : UInt64 → List Char} (hFloat : ∀ bits, Plain (floatText bits)) :
    ∀ value : Value, Plain (value.render floatText)
  | .null => by show Plain "null".toList; decide
  | .bool true => by show Plain "true".toList; decide
  | .bool false => by show Plain "false".toList; decide
  | .int n => renderInt_plain n
  | .float bits => hFloat bits
  | .str text => renderString_plain text
  | .arr [] => by show Plain "[]".toList; decide
  | .arr (item :: items) => by
    have hItem := (render_plain hFloat item).cons (show '[' ≠ '\n' by decide)
    exact (hItem.append (renderItems_plain hFloat items)).append (by decide)
  | .obj [] => by show Plain "{}".toList; decide
  | .obj ((key, value) :: fields) => by
    have hKey := (renderString_plain key).cons (show '{' ≠ '\n' by decide)
    have hValue := (render_plain hFloat value).cons (show ':' ≠ '\n' by decide)
    exact ((hKey.append hValue).append (renderFields_plain hFloat fields)).append (by decide)

theorem renderItems_plain {floatText : UInt64 → List Char}
    (hFloat : ∀ bits, Plain (floatText bits)) :
    ∀ items : List Value, Plain (Value.renderItems floatText items)
  | [] => by show Plain []; decide
  | item :: items =>
    ((render_plain hFloat item).cons (show ',' ≠ '\n' by decide)).append
      (renderItems_plain hFloat items)

theorem renderFields_plain {floatText : UInt64 → List Char}
    (hFloat : ∀ bits, Plain (floatText bits)) :
    ∀ fields : List (String × Value), Plain (Value.renderFields floatText fields)
  | [] => by show Plain []; decide
  | (key, value) :: fields => by
    have hKey := (renderString_plain key).cons (show ',' ≠ '\n' by decide)
    have hValue := (render_plain hFloat value).cons (show ':' ≠ '\n' by decide)
    exact (hKey.append hValue).append (renderFields_plain hFloat fields)

end

end ScreenSearch.Mcp
