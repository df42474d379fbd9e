import Tenure.Text.Blank

/-!
# `Tenure.Lifecycle.Identity`: the name of a process

The name under which a process competes for the lease, without blank characters
at its ends and never empty. A process that was given no name takes the host's.
-/

set_option autoImplicit false

namespace Tenure

/-- The name of a process. -/
structure Identity where
  name : String
deriving Repr, DecidableEq, Inhabited

/-- Why there is no identity: the name is blank, or none was given and the host
has none either. -/
inductive IdentityError
  | empty
  | unresolvable
deriving Repr, DecidableEq

/-- The kind of an error, in one word. -/
def IdentityError.kind : IdentityError → String
  | empty => "Empty"
  | unresolvable => "Unresolvable"

def IdentityError.message : IdentityError → String
  | empty => "identity must not be empty"
  | unresolvable => "POD_NAME is unset and the host name could not be determined"

namespace Identity

/-- An identity from a name, trimmed. -/
def ofName (name : String) : Except IdentityError Identity :=
  let trimmed := Text.trim name
  if trimmed.isEmpty then .error .empty else .ok ⟨trimmed⟩

/-- Where an identity is taken from. -/
inductive Origin
  | podName (name : String)
  | hostName
deriving Repr, DecidableEq

/-- A pod name that is not blank is used, otherwise the host's name. -/
def origin (podName : Option String) : Origin :=
  match podName with
  | some name => if Text.isBlankText name then .hostName else .podName name
  | none => .hostName

/-- The identity of a process with this pod name on this host. -/
def resolve (podName host : Option String) : Except IdentityError Identity :=
  match origin podName with
  | .podName name => ofName name
  | .hostName =>
    match host with
    | some name => ofName name
    | none => .error .unresolvable

end Identity

end Tenure
