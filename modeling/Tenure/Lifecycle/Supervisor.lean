import Tenure.Lifecycle.Shutdown
import Tenure.Task

/-!
# `Tenure.Lifecycle.Supervisor`: background tasks of a process

A supervisor keeps the background tasks of a process. A task that fails ends the
process at once, for a fatal reason that names it. A task that panics is noticed
when the supervisor waits for its tasks. Waiting is over when all tasks have
ended.
-/

set_option autoImplicit false

namespace Tenure

/-- The background tasks of a process. -/
structure Supervisor where
  /-- How many tasks have not ended yet. -/
  running : Nat
  /-- The panics that were not noticed yet, in their order. -/
  panics : List Panic
  /-- Whether the supervisor waits for its tasks. -/
  waiting : Bool
deriving Repr, DecidableEq, Inhabited

namespace Supervisor

/-- A supervisor with some tasks, all of which are running. -/
def start (count : Nat) : Supervisor := ⟨count, [], false⟩

/-- A task has ended; the number tells which one. -/
def finish (s : Supervisor) (shutdown : Shutdown) (task : Nat) (name : String) :
    Ending String → Supervisor × Shutdown
  | .done => ({ s with running := s.running - 1 }, shutdown)
  | .failed message => ({ s with running := s.running - 1 }, shutdown.fail s!"{name}: {message}")
  | .panicked message =>
    ({ s with running := s.running - 1, panics := s.panics ++ [⟨task, message⟩] }, shutdown)

/-- Begins to wait for the tasks. -/
def wait (s : Supervisor) : Supervisor := { s with waiting := true }

/-- Notices a panic, if the supervisor waits and there is one. -/
def notice (s : Supervisor) (shutdown : Shutdown) : Option (Supervisor × Shutdown) :=
  match s.waiting, s.panics with
  | true, panic :: rest =>
    some ({ s with panics := rest }, shutdown.fail s!"supervised task panicked: {panic.text}")
  | _, _ => none

/-- Whether the wait for the tasks is over. -/
def isOver (s : Supervisor) : Bool := s.waiting && s.running == 0 && s.panics.isEmpty

end Supervisor

end Tenure
