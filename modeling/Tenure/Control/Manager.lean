import Tenure.Control.Error
import Tenure.Defaults.Basic

/-!
# `Tenure.Control.Manager`: the controllers of an episode

A manager builds controllers from the defaults of an episode, each by its own
factory: either all of them are built and take the place of the old ones, or the
first factory that fails is the error and nothing changes. It starts those that it
has built last, as often as it is asked to.

A run of the controllers (`Run`) is told how each of them ends. The first one
that fails makes all of them stop; the run is over when all have ended and,
unless one has failed, its token is cancelled.

* `register_ok` and `register_error`: registration is all or nothing.
-/

set_option autoImplicit false

namespace Tenure.Control

/-- A run of controllers. -/
structure Run where
  /-- Whether the token of the run is cancelled. -/
  cancelled : Bool
  /-- For each controller, whether it has ended. -/
  ended : List Bool
  /-- The first failure. -/
  failure : Option Error
deriving Repr, DecidableEq, Inhabited

namespace Run

/-- A run of some controllers, all of which are running. -/
def start (count : Nat) : Run := ⟨false, List.replicate count false, none⟩

/-- Cancels the token of the run. -/
def cancel (r : Run) : Run := { r with cancelled := true }

/-- Whether the tokens of the controllers are cancelled. -/
def stops (r : Run) : Bool := r.cancelled || r.failure.isSome

/-- A controller has ended. -/
def finish (r : Run) (index : Nat) (result : Except Error Unit) : Run :=
  { r with
    ended := r.ended.set index true
    failure := match r.failure, result with
      | some e, _ => some e
      | none, .error e => some e
      | none, .ok () => none }

/-- How the run has ended, if it has. -/
def result? (r : Run) : Option (Except Error Unit) :=
  if r.ended.all id then
    match r.failure with
    | some e => some (.error e)
    | none => if r.cancelled then some (.ok ()) else none
  else none

end Run

/-- Builds a controller from the defaults of an episode. -/
abbrev Factory (γ : Type) := Defaults → Except Error γ

/-- Factories, and the controllers that they built last. -/
structure Manager (γ : Type) where
  factories : List (Factory γ)
  registered : List γ

namespace Manager

variable {γ : Type}

/-- A manager that has built nothing yet. -/
def new (factories : List (Factory γ)) : Manager γ := ⟨factories, []⟩

/-- The controllers built by factories, or the error of the first that fails. -/
def buildAll (defaults : Defaults) : List (Factory γ) → Except Error (List γ)
  | [] => .ok []
  | factory :: rest =>
    match factory defaults with
    | .error e => .error e
    | .ok controller => (buildAll defaults rest).map (controller :: ·)

/-- Builds the controllers of an episode. -/
def register (m : Manager γ) (defaults : Defaults) : Manager γ × Except Error Unit :=
  match buildAll defaults m.factories with
  | .error e => (m, .error e)
  | .ok controllers => ({ m with registered := controllers }, .ok ())

/-- Starts the controllers that were built last. Each of them belongs to the run, which ends with
the token that is passed in. The manager stays what it is. -/
def start (m : Manager γ) (cancelled : Bool) : Run × List γ :=
  ({ Run.start m.registered.length with cancelled := cancelled }, m.registered)

/-- A registration that fails changes nothing. -/
theorem register_error (m : Manager γ) (defaults : Defaults) (e : Error)
    (h : buildAll defaults m.factories = .error e) :
    m.register defaults = (m, .error e) := by
  unfold register; rw [h]

/-- One that succeeds replaces all controllers. -/
theorem register_ok (m : Manager γ) (defaults : Defaults) (controllers : List γ)
    (h : buildAll defaults m.factories = .ok controllers) :
    m.register defaults = ({ m with registered := controllers }, .ok ()) := by
  unfold register; rw [h]

end Manager

end Tenure.Control
