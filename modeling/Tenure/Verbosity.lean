import Tenure.Text.Blank
import Tenure.Text.Quoted

/-!
# `Tenure.Verbosity`: how much a process logs

A verbosity is named by a word in any case, with blank characters around it.
Three words are other names of a verbosity: `warning`, `fatal` and `panic`.
-/

set_option autoImplicit false

namespace Tenure

/-- The least severe events that are logged. -/
inductive Verbosity
  | off
  | error
  | warn
  | info
  | debug
  | trace
deriving Repr, DecidableEq, Inhabited

/-- A text that names no verbosity. -/
structure VerbosityError where
  text : String
deriving Repr, DecidableEq

def VerbosityError.message (e : VerbosityError) : String :=
  "not a valid logging level: " ++ Text.quoted e.text

namespace Verbosity

def name : Verbosity → String
  | off => "off"
  | error => "error"
  | warn => "warn"
  | info => "info"
  | debug => "debug"
  | trace => "trace"

/-- The verbosity of a word in lower case. -/
def ofWord? : String → Option Verbosity
  | "trace" => some trace
  | "debug" => some debug
  | "info" => some info
  | "warn" | "warning" => some warn
  | "error" | "fatal" | "panic" => some error
  | "off" => some off
  | _ => none

/-- The verbosity that a text names. -/
def ofText (text : String) : Except VerbosityError Verbosity :=
  match ofWord? (Text.trim text).toLower with
  | some v => .ok v
  | none => .error ⟨text⟩

end Verbosity

end Tenure
