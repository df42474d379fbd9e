import Tenure.Toml.Scalar

/-!
# `Tenure.Toml.Document`: TOML documents

A document is a list of lines: keys with values, and headers that open a table
or add one to an array of tables. A table may be opened by a header once, also
after the headers of tables below it; tables made by dotted keys and inline
tables are closed for headers, and dotted keys only reach into tables that dotted
keys have made. `parse` answers `none` for every malformed document.
-/

set_option autoImplicit false

namespace Tenure.Toml

/-- What a key of a table under construction stands for. -/
inductive Item
  | value (v : Value)
  /-- A table. It is implicit until a header opens it, and dotted when a dotted
  key made it. -/
  | table (implicit dotted : Bool) (entries : List (String × Item))
  /-- An array of tables; the last one is open. -/
  | tables (earlier : List (List (String × Item))) (last : List (String × Item))
deriving Inhabited

/-- The entries of a table, in the order in which they were made. -/
abbrev Entries := List (String × Item)

/-- Replaces the entry of a name, or adds one at the end. -/
def put (name : String) (item : Item) : Entries → Entries
  | [] => [(name, item)]
  | (n, i) :: rest => if n == name then (n, item) :: rest else (n, i) :: put name item rest

/-- Applies a change to the table at a path of headers, making the tables on the
way. -/
def changeAt (change : Entries → Option Entries) : List String → Entries → Option Entries
  | [], entries => change entries
  | name :: path, entries =>
    match Json.lookup name entries with
    | none => (changeAt change path []).map fun es => put name (.table true false es) entries
    | some (.table implicit dotted es) =>
      (changeAt change path es).map fun es => put name (.table implicit dotted es) entries
    | some (.tables earlier last) =>
      (changeAt change path last).map fun es => put name (.tables earlier es) entries
    | some (.value _) => none

/-- Opens the table of a name. -/
def openTable (name : String) (entries : Entries) : Option Entries :=
  match Json.lookup name entries with
  | none => some (put name (.table false false []) entries)
  | some (.table true false es) => some (put name (.table false false es) entries)
  | some _ => none

/-- Adds a table to the array of tables of a name. -/
def addTable (name : String) (entries : Entries) : Option Entries :=
  match Json.lookup name entries with
  | none => some (put name (.tables [] []) entries)
  | some (.tables earlier last) => some (put name (.tables (earlier ++ [last]) []) entries)
  | some _ => none

/-- Sets a key that is not there yet. -/
def setNew (name : String) (v : Value) (entries : Entries) : Option Entries :=
  match Json.lookup name entries with
  | none => some (put name (.value v) entries)
  | some _ => none

/-- Sets a key below a dotted path, making the tables on the way. -/
def setDotted (name : String) (v : Value) : List String → Entries → Option Entries
  | [], entries => setNew name v entries
  | part :: path, entries =>
    match Json.lookup part entries with
    | none =>
      (setDotted name v path []).map fun es => put part (.table true true es) entries
    | some (.table implicit dotted es) =>
      if implicit && (dotted || !path.isEmpty) then
        (setDotted name v path es).map fun es => put part (.table implicit dotted es) entries
      else none
    | some (.tables earlier last) =>
      if path.isEmpty then none
      else (setDotted name v path last).map fun es => put part (.tables earlier es) entries
    | some (.value _) => none

mutual

/-- The value of a finished item. -/
def Item.toValue : Item → Value
  | .value v => v
  | .table _ _ entries => .table (toMembers entries)
  | .tables earlier last => .array (toTables earlier ++ [.table (toMembers last)])

def toMembers : List (String × Item) → List (String × Value)
  | [] => []
  | (name, item) :: rest => (name, item.toValue) :: toMembers rest

def toTables : List (List (String × Item)) → List Value
  | [] => []
  | entries :: rest => .table (toMembers entries) :: toTables rest

end

/-! ### Keys -/

/-- The characters of a key without quotes. -/
def isBare (c : Char) : Bool := c.isAlphanum || c == '_' || c == '-'

/-- One part of a key. -/
def scanKeyPart (s : List Char) : Option (String × List Char) :=
  match s with
  | '"' :: rest =>
    (scanBasic (rest.length + 1) rest).map fun (cs, rest) => (String.ofList cs, rest)
  | '\'' :: rest => (scanLiteral rest).map fun (cs, rest) => (String.ofList cs, rest)
  | _ =>
    let cs := s.takeWhile isBare
    if cs.isEmpty then none else some (String.ofList cs, s.dropWhile isBare)

/-- The parts of a dotted key, with the spaces around each. -/
def scanKeyParts : Nat → List Char → Option (List String × List Char)
  | 0, _ => none
  | fuel + 1, s => do
    let (part, s) ← scanKeyPart (skipSpaces s)
    match skipSpaces s with
    | '.' :: rest =>
      let (parts, rest) ← scanKeyParts fuel rest
      return (part :: parts, rest)
    | rest => return ([part], rest)

/-- How deep keys and values may be nested. -/
def depthLimit : Nat := 80

/-- A key: the path to its table, and its name there. -/
def scanKey (s : List Char) : Option (List String × String × List Char) := do
  let (parts, s) ← scanKeyParts (s.length + 1) s
  if parts.length < depthLimit then
    return (parts.dropLast, ← parts.getLast?, s)
  else none

/-! ### Values -/

/-- A comment, if there is one. A control character in it is no part of it. -/
def skipComment : List Char → List Char
  | '#' :: rest => rest.dropWhile isPlain
  | s => s

/-- Spaces, line ends and comments between the items of an array. -/
def skipFiller : Nat → List Char → Option (List Char)
  | 0, _ => none
  | fuel + 1, s =>
    match skipSpaces s with
    | '#' :: rest =>
      match newline? (rest.dropWhile isPlain) with
      | some rest => skipFiller fuel rest
      | none => none
    | s =>
      match newline? s with
      | some rest => skipFiller fuel rest
      | none => some s

mutual

/-- A value nested inside `depth` others; the fuel bounds the calls. -/
def scanValue : Nat → Nat → List Char → Option (Value × List Char)
  | 0, _, _ => none
  | fuel + 1, depth, s =>
    match s with
    | '[' :: rest =>
      if depth + 1 < depthLimit then
        (scanItems fuel (depth + 1) rest).map fun (items, rest) => (.array items, rest)
      else none
    | '{' :: rest =>
      if depth + 1 < depthLimit then
        match skipSpaces rest with
        | '}' :: rest => some (.table [], rest)
        | rest =>
          (scanMembers fuel (depth + 1) rest []).map fun (entries, rest) =>
            (.table (toMembers entries), rest)
      else none
    | 't' :: 'r' :: 'u' :: 'e' :: rest => some (.bool true, rest)
    | 'f' :: 'a' :: 'l' :: 's' :: 'e' :: rest => some (.bool false, rest)
    | 'i' :: 'n' :: 'f' :: rest => some (.nonFinite, rest)
    | 'n' :: 'a' :: 'n' :: rest => some (.nonFinite, rest)
    | '"' :: _ => (scanText s).map fun (text, rest) => (.string text, rest)
    | '\'' :: _ => (scanText s).map fun (text, rest) => (.string text, rest)
    | _ => scanNumeric s

/-- The items of an array up to its bracket; a comma may follow the last one. -/
def scanItems : Nat → Nat → List Char → Option (List Value × List Char)
  | 0, _, _ => none
  | fuel + 1, depth, s =>
    match skipFiller (s.length + 1) s with
    | none => none
    | some (']' :: rest) => some ([], rest)
    | some s =>
      match scanValue fuel depth s with
      | none => none
      | some (item, rest) =>
        match skipFiller (rest.length + 1) rest with
        | some (',' :: rest) =>
          (scanItems fuel depth rest).map fun (items, rest) => (item :: items, rest)
        | some (']' :: rest) => some ([item], rest)
        | _ => none

/-- The members of an inline table up to its brace. -/
def scanMembers : Nat → Nat → List Char → Entries → Option (Entries × List Char)
  | 0, _, _, _ => none
  | fuel + 1, depth, s, entries =>
    match scanKey s with
    | some (path, name, '=' :: rest) =>
      match scanValue fuel depth (skipSpaces rest) with
      | none => none
      | some (value, rest) =>
        match setDotted name value path entries, skipSpaces rest with
        | some entries, ',' :: rest => scanMembers fuel depth rest entries
        | some entries, '}' :: rest => some (entries, rest)
        | _, _ => none
    | _ => none

end

/-! ### Lines -/

/-- The end of a line: spaces, a comment, and a line end or the end of the
document. -/
def endLine (s : List Char) : Option (List Char) :=
  match skipComment (skipSpaces s) with
  | [] => some []
  | s => newline? s

/-- A document under construction: its root table, and the path of the table
that the last header has opened. -/
structure Draft where
  root : Entries
  path : List String

/-- One line with something on it. -/
def scanLine (d : Draft) (s : List Char) : Option (Draft × List Char) :=
  match s with
  | '[' :: '[' :: rest => do
    let (path, name, rest) ← scanKey rest
    match rest with
    | ']' :: ']' :: rest =>
      let root ← changeAt (addTable name) path d.root
      return (⟨root, path ++ [name]⟩, ← endLine rest)
    | _ => none
  | '[' :: rest => do
    let (path, name, rest) ← scanKey rest
    match rest with
    | ']' :: rest =>
      let root ← changeAt (openTable name) path d.root
      return (⟨root, path ++ [name]⟩, ← endLine rest)
    | _ => none
  | s => do
    let (path, name, rest) ← scanKey s
    match rest with
    | '=' :: rest =>
      let (value, rest) ← scanValue (rest.length + 1) 0 (skipSpaces rest)
      let root ← changeAt (setDotted name value path) d.path d.root
      return ({ d with root }, ← endLine rest)
    | _ => none

/-- All lines of a document. -/
def scanLines : Nat → Draft → List Char → Option Draft
  | 0, _, _ => none
  | fuel + 1, d, s =>
    match skipSpaces s with
    | [] => some d
    | '#' :: rest =>
      match endLine ('#' :: rest) with
      | some rest => scanLines fuel d rest
      | none => none
    | s =>
      match newline? s with
      | some rest => scanLines fuel d rest
      | none =>
        match scanLine d s with
        | some (d, rest) => scanLines fuel d rest
        | none => none

/-- The table that a document stands for. A byte order mark at the start is
skipped. -/
def parse (text : String) : Option (List (String × Value)) :=
  let s := match text.toList with
    | '\ufeff' :: rest => rest
    | s => s
  (scanLines (s.length + 2) ⟨[], []⟩ s).map fun d => toMembers d.root

end Tenure.Toml
