import Mathlib.Algebra.Ring.Int.Defs
import Mathlib.Data.List.Basic

/-!
# Frames of the app-server

A frame is a JSON value (`serde_json::Value`). Reading a field of a value that is not an
object, or that has no such field, gives null.
-/

namespace Clt

/-- `serde_json::Value`. A number is an integer, or the text of one that is not. -/
inductive Json where
  | null
  | bool (value : Bool)
  | integer (value : Int)
  | decimal (text : String)
  | string (text : String)
  | array (elements : List Json)
  | object (fields : List (String × Json))

namespace Json

/-- `Value::get`. -/
def get (json : Json) (key : String) : Option Json :=
  match json with
  | object fields => fields.lookup key
  | _ => none

/-- `Value::index`. -/
def field (json : Json) (key : String) : Json := (json.get key).getD null

/-- `Value::as_str`. -/
def asStr : Json → Option String
  | string text => some text
  | _ => none

/-- `Value::as_u64`. -/
def asU64 : Json → Option Nat
  | integer value => if 0 ≤ value ∧ value < 2 ^ 64 then some value.toNat else none
  | _ => none

/-- An assignment to a field; null becomes an object. -/
def set (json : Json) (key : String) (value : Json) : Json :=
  match json with
  | object fields => object ((key, value) :: fields.filter fun entry => entry.1 != key)
  | _ => object [(key, value)]

end Json

/-- A text that may end in a value. -/
structure Message where
  text : String
  value : Option Json := none

end Clt
