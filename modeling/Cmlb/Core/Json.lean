import Mathlib.Logic.Basic

/-!
# JSON values (`nlohmann::json`)

What the adapters read of a parsed document. Members of an object have distinct keys. `number` is a
signed or unsigned integer; the text of a floating-point number is never looked at.
-/

namespace Cmlb

inductive Json
  | null
  | bool (b : Bool)
  | number (n : Int)
  | float (text : String)
  | string (s : String)
  | array (items : List Json)
  | object (fields : List (String × Json))

namespace Json

/-- `j.contains(key)` and `j[key]`: only objects have members. -/
def member (key : String) : Json → Option Json
  | object fields => fields.lookup key
  | _ => none

def asString : Json → Option String
  | string s => some s
  | _ => none

def asArray : Json → Option (List Json)
  | array items => some items
  | _ => none

def isObject : Json → Bool
  | object _ => true
  | _ => false

def stringMember (key : String) (j : Json) : Option String := (j.member key).bind asString

def arrayMember (key : String) (j : Json) : List Json := ((j.member key).bind asArray).getD []

/-! ### Typed reads: an exception is its `what()` -/

def typeName : Json → String
  | null => "null"
  | bool _ => "boolean"
  | number _ | float _ => "number"
  | string _ => "string"
  | array _ => "array"
  | object _ => "object"

def typeError (expected : String) (j : Json) : String :=
  "[json.exception.type_error.302] type must be " ++ expected ++ ", but is " ++ j.typeName

def getString : Json → Except String String
  | string s => .ok s
  | j => .error (typeError "string" j)

/-- `get<std::int64_t>()`; `trunc` is the cast of a floating-point number. -/
def getInt64 (trunc : String → Int) : Json → Except String Int
  | number n => .ok (n.bmod 18446744073709551616)
  | float text => .ok (trunc text)
  | j => .error (typeError "number" j)

/-- `get<int>()`, which takes a boolean too. -/
def getInt (trunc : String → Int) : Json → Except String Int
  | number n => .ok (n.bmod 4294967296)
  | float text => .ok (trunc text)
  | bool b => .ok (if b then 1 else 0)
  | j => .error (typeError "number" j)

/-- `j.at(key)`. -/
def atKey (key : String) : Json → Except String Json
  | object fields =>
    match fields.lookup key with
    | some v => .ok v
    | none => .error ("[json.exception.out_of_range.403] key '" ++ key ++ "' not found")
  | j => .error ("[json.exception.type_error.304] cannot use at() with " ++ j.typeName)

/-- `j.value(key, fallback)`. -/
def value {α : Type} (get : Json → Except String α) (key : String) (fallback : α) :
    Json → Except String α
  | object fields =>
    match fields.lookup key with
    | some v => get v
    | none => .ok fallback
  | j => .error ("[json.exception.type_error.306] cannot use value() with " ++ j.typeName)

end Json

/-- What the adapters use of `nlohmann::json` besides the values: the parser, with the `what()` of a
`parse_error`, and the cast of a floating-point number to an integer. -/
structure JsonLib where
  parse : String → Except String Json
  trunc : String → Int

end Cmlb
