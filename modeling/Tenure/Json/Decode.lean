import Tenure.Json.Value

/-!
# `Tenure.Json.Decode`: structures and variants in JSON

A structure is written as an object that names its fields, in any order, or as
an array that lists them. An object may have members that the structure does
not know; a known one must not be named twice. A variant is written as its name,
or as an object whose only member has that name and no content.

* `Fields.field?_append_other`: members with other names do not matter.
-/

set_option autoImplicit false

namespace Tenure.Json

/-- The fields of a structure, by name or by position. -/
inductive Fields
  | named (members : List (String × Tree))
  | positional (items : List Tree)
deriving Inhabited

/-- The names of the members as texts. -/
def namedMembers? : List (List UInt8 × Tree) → Option (List (String × Tree))
  | [] => some []
  | (raw, tree) :: rest =>
    match textOf? raw, namedMembers? rest with
    | some name, some members => some ((name, tree) :: members)
    | _, _ => none

/-- The fields of a structure that has `count` of them. -/
def Tree.fields? (count : Nat) : Tree → Option Fields
  | .object members => (namedMembers? members).map .named
  | .array items => if items.length ≤ count then some (.positional items) else none
  | _ => none

namespace Fields

/-- One field, by its position and name: `none` when it is named twice, and
`some none` when it is missing. -/
def field? (f : Fields) (index : Nat) (name : String) : Option (Option Tree) :=
  match f with
  | .positional items => some items[index]?
  | .named members =>
    match members.filter (·.1 == name) with
    | [] => some none
    | [(_, tree)] => some (some tree)
    | _ => none

/-- Decodes a field that has to be there. -/
def required? {α : Type} (f : Fields) (index : Nat) (name : String) (decode : Tree → Option α) :
    Option α :=
  match f.field? index name with
  | some (some tree) => decode tree
  | _ => none

/-- Decodes a field that may be missing. -/
def optional? {α : Type} (f : Fields) (index : Nat) (name : String) (decode : Tree → Option α)
    (missing : α) : Option α :=
  match f.field? index name with
  | some (some tree) => decode tree
  | some none => some missing
  | none => none

/-- A member does not bear on the field of another name, wherever among the members it stands. -/
theorem field?_append_other (before after : List (String × Tree)) (other : String × Tree)
    (index : Nat) (name : String) (h : other.1 ≠ name) :
    (Fields.named (before ++ other :: after)).field? index name
      = (Fields.named (before ++ after)).field? index name := by
  unfold field?
  simp [List.filter_append, h]

end Fields

/-- A text. -/
def Tree.text? : Tree → Option String
  | .string raw => textOf? raw
  | _ => none

/-- A natural number below a bound. -/
def Tree.nat? (bound : Nat) : Tree → Option Nat
  | .number n =>
    match n.toInteger? with
    | some (.ofNat m) => if m < bound then some m else none
    | _ => none
  | _ => none

/-- The items of an array, each decoded. -/
def Tree.list? {α : Type} (decode : Tree → Option α) : Tree → Option (List α)
  | .array items => items.mapM decode
  | _ => none

/-- The name of a variant without content. -/
def Tree.variant? : Tree → Option String
  | .string raw => textOf? raw
  | .object [(raw, .null)] => textOf? raw
  | _ => none

end Tenure.Json
