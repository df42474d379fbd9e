import Tenure.Defaults.Directory
import Tenure.Task
import Tenure.Ticker

/-!
# `Tenure.Control.Drift`: watching the defaults

The drift controller reads the defaults again at every tick but the first, and
compares them with those that the episode was started with. It tells when the
names of the definitions that differ are other names than before, or when there
are none any more; a reading that fails is told every time and changes nothing.
A controller without a period breaks down.
-/

set_option autoImplicit false

namespace Tenure.Control

namespace Drift

/-- What the controller tells. -/
inductive Event
  | backInSync
  | changed (names : List String)
  | unreadable (error : DefaultsError)
deriving Repr, DecidableEq, Inhabited

def Event.message : Event → String
  | backInSync => "Defaults back in sync"
  | changed _ => "Defaults changed since this episode started"
  | unreadable _ => "Failed to re-read defaults"

/-- Where the controller stands. -/
inductive Stage
  | fresh
  | waiting (ticker : Ticker)
  /-- The defaults are being read. -/
  | reading (ticker : Ticker)
  | ended
  | brokenDown
deriving Repr, DecidableEq, Inhabited

end Drift

/-- A drift controller. -/
structure Drift where
  applied : Defaults
  resync : Duration
  stage : Drift.Stage
  /-- The names that it told last. -/
  reported : List String

namespace Drift

/-- A controller that has done nothing yet. -/
def new (applied : Defaults) (resync : Duration) : Drift := ⟨applied, resync, .fresh, []⟩

/-- Its name. -/
def name : String := "defaults-drift"

/-- Starts the ticker and takes its first tick. -/
def start (d : Drift) (now : Nat) : Drift :=
  match Ticker.start d.resync now with
  | none => { d with stage := .brokenDown }
  | some ticker => { d with stage := .waiting (ticker.take now) }

/-- What the controller does by itself now, if anything. -/
def advance (d : Drift) (now : Nat) (cancelled : Bool) : Option Drift :=
  match d.stage with
  | .fresh => some (d.start now)
  | .waiting ticker =>
    if cancelled then some { d with stage := .ended }
    else if ticker.isDue now then some { d with stage := .reading (ticker.take now) }
    else none
  | _ => none

/-- Whether the defaults are being read. -/
def isReading (d : Drift) : Bool :=
  match d.stage with
  | .reading _ => true
  | _ => false

/-- Compares what was read with the applied defaults, and tells what is new. -/
def compare (d : Drift) (result : Except DefaultsError Defaults) : Drift × List Event :=
  match result with
  | .error e => (d, [.unreadable e])
  | .ok current =>
    let names := d.applied.diff current
    if names = d.reported then (d, [])
    else ({ d with reported := names }, [if names.isEmpty then .backInSync else .changed names])

/-- Takes what was read. -/
def answer (d : Drift) (result : Except DefaultsError Defaults) : Drift × List Event :=
  match d.stage with
  | .reading ticker => { d with stage := .waiting ticker }.compare result
  | _ => (d, [])

/-- How the controller has ended, if it has. -/
def ending (d : Drift) : Option (Ending Unit) :=
  match d.stage with
  | .ended => some .done
  | .brokenDown => some (.panicked Ticker.refusal)
  | _ => none

/-- The instant for which the next timer is set. -/
def due (d : Drift) : Option Nat :=
  match d.stage with
  | .waiting ticker => some ticker.next
  | _ => none

end Drift

end Tenure.Control
