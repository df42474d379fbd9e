import Tenure.Toml.Value

/-!
# `Tenure.Toml.Decode`: structures and variants in TOML

A structure is written as a table that names its fields, or as an array that
lists them from the first one on. A field that is not there takes a value of its
own; what a structure does not know is skipped. A variant is written as its
name, or as a table whose only member has that name and is empty.
-/

set_option autoImplicit false

namespace Tenure.Toml

/-- The fields of a structure, by name or by position. -/
inductive Fields
  | named (members : List (String × Value))
  | positional (items : List Value)
deriving Inhabited

namespace Fields

/-- One field, by its position and name. -/
def find? (f : Fields) (index : Nat) (name : String) : Option Value :=
  match f with
  | named members => Json.lookup name members
  | positional items => items[index]?

/-- Decodes a field; one that is not there has a given value. -/
def decode {α : Type} (f : Fields) (index : Nat) (name : String) (read : Value → Option α)
    (absent : α) : Option α :=
  match f.find? index name with
  | some value => read value
  | none => some absent

end Fields

namespace Value

/-- The fields of a structure. A date is a table with a member that no structure
knows. -/
def fields? : Value → Option Fields
  | table members => some (.named members)
  | array items => some (.positional items)
  | datetime text => some (.named [(datetimeName, .string text)])
  | _ => none

/-- A text. -/
def text? : Value → Option String
  | string s => some s
  | _ => none

/-- A truth value. -/
def bool? : Value → Option Bool
  | bool b => some b
  | _ => none

/-- A natural number. -/
def nat? : Value → Option Nat
  | integer (.ofNat n) => some n
  | _ => none

/-- The items of an array, each decoded. -/
def list? {α : Type} (read : Value → Option α) : Value → Option (List α)
  | array items => items.mapM read
  | _ => none

/-- The name of a variant without content. -/
def variant? : Value → Option String
  | string s => some s
  | table [(name, .table [])] => some name
  | table [(name, .array [])] => some name
  | _ => none

end Value

end Tenure.Toml
