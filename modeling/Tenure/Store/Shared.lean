import Tenure.Store.Directory
import Tenure.Store.Memory

/-!
# `Tenure.Store.Shared`: the store that candidates share

Candidates that compete for a lock share a store: one in the memory of their
process, or one in a directory of their files. `answer` passes a request on to
it, `overwrite` is a write by someone who asks for no version.
-/

set_option autoImplicit false

namespace Tenure.Store

/-- Where a shared store keeps its records. -/
inductive Backing
  | memory (records : Memory)
  | directory (directory : Directory)
deriving Repr, DecidableEq, Inhabited

/-- A store that candidates share, and the files around it. -/
structure Shared where
  backing : Backing
  files : FileTree
deriving Repr, Inhabited

namespace Shared

/-- An empty store in memory, among no files. -/
def inMemory : Shared := ⟨.memory .empty, .empty⟩

/-- Opens a store among files: in a directory, or in memory. -/
def openAt (directory : Option String) (files : FileTree) : Except Error Shared :=
  match directory with
  | none => .ok ⟨.memory .empty, files⟩
  | some root =>
    match Directory.openAt root files with
    | (_, .error e) => .error e
    | (files, .ok d) => .ok ⟨.directory d, files⟩

/-- What kind of store it is. -/
def kind (s : Shared) : String :=
  match s.backing with
  | .memory _ => "memory"
  | .directory _ => "file"

/-- Answers a request about a key. -/
def answer (s : Shared) (key : Key) (request : Request) : Shared × Reply :=
  match s.backing with
  | .memory records =>
    let (records, reply) := records.answer key request
    ({ s with backing := .memory records }, reply)
  | .directory directory =>
    let (files, reply) := directory.answer s.files key request
    ({ s with files := files }, reply)

/-- Someone else writes a record over whatever is there. -/
def overwrite (s : Shared) (key : Key) (record : Record) : Shared × Reply :=
  match s.answer key .get with
  | (s, .found none) => s.answer key (.create record)
  | (s, .found (some current)) => s.answer key (.update record current.version)
  | (s, reply) => (s, reply)

end Shared

end Tenure.Store
