import Tenure.Control.Manager
import Tenure.Defaults.Directory

/-!
# `Tenure.Episode.Sequence`: the course of an episode

While a process leads it runs an episode: a reporter is started, the defaults
are read, the controllers are registered with them and run, and at the end the
reporter is stopped and awaited. Defaults that cannot be read and controllers
that cannot be registered are fatal; a control loop that fails only ends the
episode. Whatever happens, the episode ends when the reporter has completed.

The sequence is told what happens: the defaults were read (`populated`), the
control loop has ended (`loopEnded`), the reporter has completed (`completed`),
the token of the episode is cancelled (`cancel`).

* `reporterStops_cancel`: the reporter's token hangs below the episode's, so it
  is cancelled with it.
-/

set_option autoImplicit false

namespace Tenure.Episode

/-- How an episode ends when nothing is fatal. -/
inductive Outcome
  | cancelled
  | loopFailed (message : String)
deriving Repr, DecidableEq, Inhabited

/-- What ends not only the episode but the process. -/
inductive FatalError
  | defaults (error : DefaultsError)
  | registration (error : Control.Error)
deriving Repr, DecidableEq, Inhabited

/-- The kind of an error, in one word. -/
def FatalError.kind : FatalError → String
  | defaults _ => "Defaults"
  | registration _ => "Registration"

def FatalError.message : FatalError → String
  | defaults e => s!"failed to populate defaults: {e.message}"
  | registration e => s!"failed to register control loop: {e.message}"

/-- How an episode has ended. -/
abbrev Result := Except FatalError Outcome

/-- Where an episode stands. -/
inductive Stage
  /-- The defaults are being read. -/
  | populating
  /-- The controllers run. -/
  | controlling
  /-- The reporter is stopped and awaited. -/
  | stopping (result : Result)
  | ended (result : Result)
deriving Inhabited

/-- The course of an episode. -/
structure Sequence where
  /-- Whether the token of the episode is cancelled. -/
  cancelled : Bool
  stage : Stage
deriving Inhabited

namespace Sequence

/-- An episode at its start. -/
def start (cancelled : Bool) : Sequence := ⟨cancelled, .populating⟩

/-- The token of the episode is cancelled. -/
def cancel (s : Sequence) : Sequence := { s with cancelled := true }

/-- Whether the token of the reporter is cancelled. -/
def reporterStops (s : Sequence) : Bool :=
  s.cancelled || match s.stage with
    | .populating | .controlling => false
    | .stopping _ | .ended _ => true

/-- The defaults were read, and the controllers are registered with them. -/
def populated {γ : Type} (s : Sequence) (manager : Control.Manager γ)
    (result : Except DefaultsError Defaults) : Sequence × Control.Manager γ :=
  match result with
  | .error e => ({ s with stage := .stopping (.error (.defaults e)) }, manager)
  | .ok defaults =>
    match manager.register defaults with
    | (manager, .error e) => ({ s with stage := .stopping (.error (.registration e)) }, manager)
    | (manager, .ok ()) => ({ s with stage := .controlling }, manager)

/-- What the end of the control loop means for the episode. -/
def outcomeOf : Except Control.Error Unit → Outcome
  | .ok () => .cancelled
  | .error e => .loopFailed e.message

/-- The control loop has ended. -/
def loopEnded (s : Sequence) (result : Except Control.Error Unit) : Sequence :=
  { s with stage := .stopping (.ok (outcomeOf result)) }

/-- The reporter has completed. -/
def completed (s : Sequence) : Sequence :=
  match s.stage with
  | .stopping result => { s with stage := .ended result }
  | _ => s

/-- How the episode has ended, if it has. -/
def result? (s : Sequence) : Option Result :=
  match s.stage with
  | .ended result => some result
  | _ => none

/-- When the token of an episode is cancelled its reporter has to stop, at whatever stage the
sequence is. -/
theorem reporterStops_cancel (s : Sequence) : s.cancel.reporterStops = true := by
  simp [cancel, reporterStops]

end Sequence

end Tenure.Episode
