import Tenure.CommandLine.Basic
import Tenure.Store.Directory

/-!
# `Tenure.CommandLine.Inspector`: looking at a lock

The inspector reads the record of a lock from its directory. It shows the record
with its version, or names the holder. A lock without a record has an exit code
of its own.
-/

set_option autoImplicit false

namespace Tenure.CommandLine

/-- What a program that has ended leaves behind: its exit code, what it has
printed, and what it has complained about. -/
structure Printed where
  exit : Nat
  output : String
  complaint : String
deriving Repr, DecidableEq, Inhabited

/-- The exit code when a command line is not taken, or help was asked for. -/
def UsageError.exit : UsageError → Nat
  | .help => 0
  | _ => 2

namespace Inspector

def usage : Usage where
  commands := ["show", "holder"]
  flags := [
    ⟨"lock-dir", some 'd', .path⟩,
    ⟨"namespace", some 'n', .text⟩,
    ⟨"name", some 'l', .text⟩]

/-- What the inspector is to do. -/
inductive Task
  /-- Show the whole record. -/
  | record
  /-- Name the holder. -/
  | holder
deriving Repr, DecidableEq

/-- A lock, and what the inspector is to do with it. -/
structure Order where
  directory : String
  key : Key
  task : Task
deriving Repr, DecidableEq

/-- Reads the command line. -/
def read (words : List String) : Except UsageError Order := do
  let parsed ← usage.read words
  let value (flag standard : String) : String := (parsed.given.lookup flag).getD standard
  return {
    directory := value "lock-dir" "/var/run/operator-manager/locks"
    key := ⟨value "namespace" "default", value "name" "operator-manager-lock"⟩
    task := if parsed.command = some "holder" then .holder else .record }

/-- The record as a document, with the names in ascending order. -/
def document (key : Key) (stored : Versioned Record) : Json.Tree := .ofMembers [
  ("key", .ofText key.text),
  ("record", stored.value.toSortedTree),
  ("version", .ofNat stored.version)]

/-- What is printed about a record. -/
def textOf (order : Order) (stored : Versioned Record) : String :=
  match order.task with
  | .record => (Text.ofUtf8? (Json.pretty 0 (document order.key stored))).getD ""
  | .holder => if stored.value.isHeld then stored.value.holder else "<none>"

/-- What follows from the reply of the store. -/
def answer (order : Order) : Store.Reply → Printed
  | .found none => ⟨2, "", s!"No lock record for {order.key.text}\n"⟩
  | .found (some stored) => ⟨0, textOf order stored ++ "\n", ""⟩
  | .written _ => ⟨0, "", ""⟩
  | .failed e => ⟨1, "", s!"Error: {e.message}\n"⟩

/-- Looks at a lock. -/
def inspect (files : FileTree) (order : Order) : FileTree × Printed :=
  match Store.Directory.openAt order.directory files with
  | (files, .error e) => (files, answer order (.failed e))
  | (files, .ok directory) =>
    let (files, reply) := directory.answer files order.key .get
    (files, answer order reply)

end Inspector

end Tenure.CommandLine
