import Tenure.Control.Manager
import Tenure.Simulation.Surroundings

/-!
# `Tenure.Simulation.Workforce`: controllers at work

The controllers of an episode are tasks that follow a plan, and drift
controllers, each with a source of its own. They run side by side until the run
that they belong to is over.
-/

set_option autoImplicit false

namespace Tenure.Simulation

open Control (Drift)

/-- A controller. -/
inductive Worker
  | scripted (name : String) (task : Task Control.Error)
  | drift (controller : Drift) (source : Nat)

namespace Worker

def name : Worker → String
  | scripted name _ => name
  | drift _ _ => Drift.name

/-- Builds a scripted controller, unless it is refused or needs a definition that
is not there. -/
def factory (name : String) (plan : Plan Control.Error) (refusal needed : Option String) :
    Control.Factory Worker := fun defaults =>
  match refusal, needed with
  | some message, _ => .error (.registration message)
  | none, some definition =>
    if defaults.names.contains definition then .ok (scripted name (.new plan))
    else .error (.registration s!"{name} needs {definition}")
  | none, none => .ok (scripted name (.new plan))

/-- What a scripted controller shows, in the log. -/
def sign (name : String) (now : Nat) (s : Surroundings) : Task.Sign → Surroundings
  | .begun => s.write now name "run"
  | .noticed => s.write now name "cancelled"
  | .ended false => s.write now name "end"
  | .ended true => s.write now name "end-cancelled"

/-- How a controller has ended, if it has; the number tells its task. -/
def result? (task : Nat) : Worker → Option (Except Control.Error Unit)
  | scripted _ t => if t.isEnded then some (Control.resultOf task t.plan.ending) else none
  | drift d _ => d.ending.map fun ending => match ending with
    | .done => .ok ()
    | .failed () => .ok ()
    | .panicked message => .error (.panicked (Panic.text ⟨task, message⟩))

/-- The next step of a controller, if it can take one now. -/
def step (w : Worker) (s : Surroundings) (now : Nat) (cancelled : Bool) :
    Option (Worker × Surroundings) :=
  match w with
  | scripted name task =>
    (task.advance now cancelled).map fun (task, signs) =>
      (scripted name task, signs.foldl (sign name now) s)
  | drift d source =>
    if d.isReading then
      let (s, result) := s.read source
      let (d, events) := d.answer result
      some (drift d source, { s with events := s.events ++ events })
    else (d.advance now cancelled).map fun d => (drift d source, s)

/-- The instant for which the next timer is set. -/
def due : Worker → Option Nat
  | scripted _ task => task.due
  | drift d _ => d.due

end Worker

/-- Controllers and the run that they belong to. -/
structure Workforce where
  run : Control.Run
  workers : List Worker

instance : Inhabited Workforce := ⟨⟨.start 0, []⟩⟩

namespace Workforce

/-- The controllers of a manager, as it starts them. -/
def start (manager : Control.Manager Worker) (cancelled : Bool) : Workforce :=
  let (run, workers) := manager.start cancelled
  ⟨run, workers⟩

/-- The first controller that can take a step takes it; the number tells which
one. -/
def stepFirst (s : Surroundings) (now : Nat) (stops : Bool) (index : Nat) :
    List Worker → Option (Nat × Worker × Surroundings)
  | [] => none
  | w :: rest =>
    match w.step s now stops with
    | some (w, s) => some (index, w, s)
    | none => stepFirst s now stops (index + 1) rest

/-- The next step of a controller, if one can be taken now. -/
def step (f : Workforce) (s : Surroundings) (now : Nat) : Option (Workforce × Surroundings) :=
  (stepFirst s now f.run.stops 0 f.workers).map fun (index, w, s) =>
    let run := match w.result? index with
      | some result => f.run.finish index result
      | none => f.run
    (⟨run, f.workers.set index w⟩, s)

/-- Cancels the token of the run. -/
def cancel (f : Workforce) : Workforce := { f with run := f.run.cancel }

/-- The instants for which timers are set. -/
def timers (f : Workforce) : List (Option Nat) := f.workers.map Worker.due

end Workforce

/-- Controllers by themselves. -/
structure ControllerRun where
  force : Workforce
  surroundings : Surroundings
  now : Nat
deriving Inhabited

namespace ControllerRun

/-- Has a manager start its controllers. -/
def start (w : ControllerRun) (manager : Control.Manager Worker) : ControllerRun :=
  { w with force := .start manager false }

/-- Whether the run of the controllers is over. -/
def isOver (w : ControllerRun) : Bool := w.force.run.result?.isSome

/-- Cancels the token of the controllers. -/
def cancel (w : ControllerRun) : ControllerRun := { w with force := w.force.cancel }

end ControllerRun

instance : World ControllerRun where
  now w := w.now
  moveTo w t := { w with now := t }
  now_moveTo _ _ := rfl
  step w :=
    (w.force.step w.surroundings w.now).map fun (force, surroundings) =>
      { w with force := force, surroundings := surroundings }
  due w := earliest w.force.timers

end Tenure.Simulation
