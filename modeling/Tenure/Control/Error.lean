import Tenure.Task

/-!
# `Tenure.Control.Error`: why a control loop fails
-/

set_option autoImplicit false

namespace Tenure.Control

/-- Why a control loop fails. -/
inductive Error
  | controller (name message : String)
  | registration (message : String)
  | panicked (detail : String)
deriving Repr, DecidableEq, Inhabited

/-- The kind of an error, in one word. -/
def Error.kind : Error → String
  | controller .. => "Controller"
  | registration _ => "Registration"
  | panicked _ => "Panicked"

def Error.message : Error → String
  | controller name message => s!"controller {name} failed: {message}"
  | registration message => s!"failed to register controllers: {message}"
  | panicked detail => s!"controller task panicked: {detail}"

/-- The result of a controller that ended this way; the number tells its task. -/
def resultOf (task : Nat) : Ending Error → Except Error Unit
  | .done => .ok ()
  | .failed error => .error error
  | .panicked message => .error (.panicked (Panic.text ⟨task, message⟩))

end Tenure.Control
