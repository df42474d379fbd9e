import Tenure.Lifecycle.Supervisor
import Tenure.Simulation.Surroundings

/-!
# `Tenure.Simulation.Background`: background tasks at work

The background tasks of a process follow plans. What they wait for is that the
process shuts down.
-/

set_option autoImplicit false

namespace Tenure.Simulation

/-- A background task under its name. -/
structure Chore where
  name : String
  task : Task String
deriving Inhabited

namespace Chore

/-- A background task that has done nothing yet. -/
def new (name : String) (plan : Plan String) : Chore := ⟨name, .new plan⟩

/-- What others see a background task do, in the log. -/
def sign (name : String) (now : Nat) (s : Surroundings) : Task.Sign → Surroundings
  | .ended _ => s.write now name "end"
  | _ => s

/-- The first of some tasks that can take a step takes it; the number tells which
one. -/
def stepFirst (s : Surroundings) (now : Nat) (stops : Bool) (index : Nat) :
    List Chore → Option (Nat × Chore × Surroundings)
  | [] => none
  | c :: rest =>
    match c.task.advance now stops with
    | some (task, signs) => some (index, { c with task := task }, signs.foldl (sign c.name now) s)
    | none => stepFirst s now stops (index + 1) rest

end Chore

/-- Background tasks by themselves. -/
structure Watch where
  shutdown : Shutdown
  supervisor : Supervisor
  chores : List Chore
  surroundings : Surroundings
  now : Nat
deriving Inhabited

namespace Watch

/-- Background tasks that are awaited from the start. -/
def start (chores : List Chore) : Watch :=
  ⟨.new, (Supervisor.start chores.length).wait, chores, .empty, 0⟩

/-- Shuts down. -/
def trigger (w : Watch) : Watch := { w with shutdown := w.shutdown.trigger }

/-- Whether all tasks have ended. -/
def isOver (w : Watch) : Bool := w.supervisor.isOver

/-- A task takes a step, or a panic is noticed. -/
def step (w : Watch) : Option Watch :=
  match Chore.stepFirst w.surroundings w.now w.shutdown.triggered 0 w.chores with
  | some (index, c, s) =>
    let (supervisor, shutdown) :=
      if c.task.isEnded then w.supervisor.finish w.shutdown index c.name c.task.plan.ending
      else (w.supervisor, w.shutdown)
    some ⟨shutdown, supervisor, w.chores.set index c, s, w.now⟩
  | none =>
    (w.supervisor.notice w.shutdown).map fun (supervisor, shutdown) =>
      { w with supervisor := supervisor, shutdown := shutdown }

instance : World Watch where
  now w := w.now
  moveTo w t := { w with now := t }
  now_moveTo _ _ := rfl
  step := step
  due w := earliest (w.chores.map (·.task.due))

end Watch

end Tenure.Simulation
