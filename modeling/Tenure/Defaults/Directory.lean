import Tenure.Defaults.Basic
import Tenure.FileTree.Basic
import Tenure.Task
import Tenure.Text.Quoted
import Tenure.Toml.Document

/-!
# `Tenure.Defaults.Directory`: definitions in files

Each file of a directory whose extension is `json` or `toml` defines the value
named by the rest of its file name. Other files and directories do not count.
The files are read in ascending order of their names, and the first one that
cannot be read, that does not parse, or whose name is defined already is the
error. A process without a directory of defaults has none. All of this is the same
whatever parser reads the two languages (`populateBy`); `populate` reads them with
those of the project.

An episode has its defaults read by a task of their own, which may break down
(`Reading`).
-/

set_option autoImplicit false

namespace Tenure

/-- Why there are no defaults. -/
inductive DefaultsError
  | missing (directory : String)
  | unreadable (path : String) (detail : String)
  | malformed (path : String) (detail : String)
  | duplicate (name : String)
  /-- Whoever was to read the defaults broke down. -/
  | interrupted (detail : String)
deriving Repr, DecidableEq, Inhabited

/-- The kind of an error, in one word. -/
def DefaultsError.kind : DefaultsError → String
  | missing _ => "Missing"
  | unreadable .. => "Read"
  | malformed .. => "Parse"
  | duplicate _ => "Duplicate"
  | interrupted _ => "Task"

def DefaultsError.message : DefaultsError → String
  | missing directory => s!"defaults directory {directory} does not exist"
  | unreadable path detail => s!"failed to read {path}: {detail}"
  | malformed path detail => s!"failed to parse {path}: {detail}"
  | duplicate name =>
    s!"default definition {Text.quoted name} is defined more than once"
  | interrupted detail => s!"defaults task failed: {detail}"

namespace Defaults

/-- How a task that reads defaults has ended. -/
inductive Reading
  | returned (result : Except DefaultsError Defaults)
  | panicked (panic : Panic)

/-- What the task has read, for whoever waits for it. -/
def Reading.result : Reading → Except DefaultsError Defaults
  | returned result => result
  | panicked panic => .error (.interrupted panic.text)

/-- The language that a definition is written in. -/
inductive Format
  | json
  | toml
deriving Repr, DecidableEq

namespace Format

/-- The language of the files with an extension. -/
def ofExtension? : String → Option Format
  | "json" => some json
  | "toml" => some toml
  | _ => none

/-- The value of a definition, or what is said of a text that is none. -/
def parse (format : Format) (text : String) : Except String Json.Value :=
  let value := match format with
    | json => Json.Value.parse? (Text.utf8 text)
    | toml => (Toml.parse text).map fun members => (Toml.Value.table members).toJson
  match value with
  | none => .error "not a definition"
  | some value => .ok value

end Format

/-- Reads a definition in a language. -/
abbrev Parser := Format → String → Except String Json.Value

/-- The language of a file, if it is a definition. -/
def formatOf? (name : String) : Option Format := do
  Format.ofExtension? (← Path.extension? name)

/-! ### What is done with any parser -/

section

variable (parse : Parser) (directory : String)

/-- The value in a file. -/
def load (path : String) (format : Format) (content : List UInt8) :
    Except DefaultsError Json.Value :=
  match Text.ofUtf8? content with
  | none => .error (.unreadable path "stream did not contain valid UTF-8")
  | some text =>
    match parse format text with
    | .error detail => .error (.malformed path detail)
    | .ok value => .ok value

/-- Adds the definition in a file, if it is one. -/
def addFile (d : Defaults) (name : String) (content : List UInt8) :
    Except DefaultsError Defaults :=
  match formatOf? name with
  | none => .ok d
  | some format =>
    match load parse (Path.join directory name) format content with
    | .error e => .error e
    | .ok value =>
      let stem := Path.stem name
      if (d.get? stem).isSome then .error (.duplicate stem) else .ok (d.insert stem value)

/-- Adds the definitions in files, in their order. -/
def addFiles : Defaults → List (String × List UInt8) → Except DefaultsError Defaults
  | d, [] => .ok d
  | d, (name, content) :: rest =>
    match addFile parse directory d name content with
    | .error e => .error e
    | .ok d => addFiles d rest

/-- The files among the entries of a directory, in ascending order of their
names. -/
def filesOf (entries : List (String × Node)) : List (String × List UInt8) :=
  (entries.filterMap fun (name, node) =>
    match node with
    | .file content => some (name, content)
    | .directory => none).mergeSort fun a b => decide (a.1 ≤ b.1)

/-- The definitions in a directory with these entries. -/
def ofEntries (entries : List (String × Node)) : Except DefaultsError Defaults :=
  addFiles parse directory empty (filesOf entries)

/-- Reads the definitions in a directory with a parser, if there is a directory to read. -/
def populateBy (files : FileTree) (directory : Option String) : Except DefaultsError Defaults :=
  match directory with
  | none => .ok empty
  | some path =>
    if files.isDirectory path then
      match files.list path with
      | .error e => .error (.unreadable path e.message)
      | .ok entries => ofEntries parse path entries
    else .error (.missing path)

end

/-- Reads the definitions in a directory, if there is one to read. -/
def populate : FileTree → Option String → Except DefaultsError Defaults := populateBy Format.parse

end Defaults

end Tenure
