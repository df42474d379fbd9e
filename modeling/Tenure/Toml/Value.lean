import Tenure.Json.Value

/-!
# `Tenure.Toml.Value`: the values of a TOML document

A value is a text, an integer of 64 bits, a binary64 number, a truth value, a
date or time, an array or a table. `toJson` is the JSON value with the same
content: infinities and NaN become null, and a date or time becomes an object
that holds its text under a reserved name.
-/

set_option autoImplicit false

namespace Tenure.Toml

/-- A value in a TOML document. -/
inductive Value
  | string (s : String)
  | integer (n : Int)
  | decimal (x : Binary64)
  /-- An infinity or NaN. -/
  | nonFinite
  | bool (b : Bool)
  /-- A date, a time, or both, in its standard form. -/
  | datetime (text : String)
  | array (items : List Value)
  | table (members : List (String × Value))
deriving Repr, Inhabited

/-- The name under which the text of a date or time is kept in JSON. -/
def datetimeName : String := "$__toml_private_datetime"

mutual

/-- The JSON value with the same content. -/
def Value.toJson : Value → Json.Value
  | .string s => .string s
  | .integer n => .number (.integer n)
  | .decimal x => .number (.decimal x)
  | .nonFinite => .null
  | .bool b => .bool b
  | .datetime text => .object [(datetimeName, .string text)]
  | .array items => .array (Value.itemsToJson items)
  | .table members => .object (Value.membersToJson members)

def Value.itemsToJson : List Value → List Json.Value
  | [] => []
  | item :: rest => item.toJson :: Value.itemsToJson rest

def Value.membersToJson : List (String × Value) → List (String × Json.Value)
  | [] => []
  | (name, value) :: rest =>
    Json.insertMember name value.toJson (Value.membersToJson rest)

end

end Tenure.Toml
