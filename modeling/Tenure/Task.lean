import Tenure.Duration
import Tenure.Text.Quoted

/-!
# `Tenure.Task`: tasks that are known in advance

A plan says what a task waits for, how long it then works, and how it ends. A
task that follows a plan can stand for whatever runs beside the machinery of a
process: the body of an episode, a controller, a background task. It is told the
time and whether its token is cancelled, and takes one step after another.

* `advance_ended`: a task that has ended does nothing more.
-/

set_option autoImplicit false

namespace Tenure

/-- What a task waits for before it works. -/
inductive Wait
  | nothing
  /-- Its token is cancelled. -/
  | cancellation
  /-- Its token is cancelled, or a span of time has passed. -/
  | atMost (limit : Duration)
deriving Repr, DecidableEq, Inhabited

/-- How a task ends. -/
inductive Ending (ε : Type)
  | done
  | failed (error : ε)
  | panicked (message : String)
deriving Repr, DecidableEq, Inhabited

/-- What a task does. -/
structure Plan (ε : Type) where
  wait : Wait
  work : Duration
  ending : Ending ε
deriving Repr, DecidableEq, Inhabited

/-- Where a task stands. -/
inductive Task.Stage
  | fresh
  | waiting (limit : Option Nat)
  | working (wake : Nat)
  | ended
deriving Repr, DecidableEq, Inhabited

/-- A task that follows a plan. -/
structure Task (ε : Type) where
  plan : Plan ε
  stage : Task.Stage
deriving Repr, DecidableEq, Inhabited

/-- What others see a task do. -/
inductive Task.Sign
  | begun
  /-- It has seen its token cancelled. -/
  | noticed
  /-- Its work is done; its token may be cancelled by then. -/
  | ended (cancelled : Bool)
deriving Repr, DecidableEq, Inhabited

namespace Task

variable {ε : Type}

/-- A task that has done nothing yet. -/
def new (plan : Plan ε) : Task ε := ⟨plan, .fresh⟩

/-- Whether a task has ended. -/
def isEnded (t : Task ε) : Bool :=
  match t.stage with
  | .ended => true
  | _ => false

/-- Starts the work. -/
def work (t : Task ε) (now : Nat) : Task ε :=
  { t with stage := .working (Clock.after now t.plan.work) }

/-- Begins: the wait first, if there is one. -/
def start (t : Task ε) (now : Nat) : Task ε :=
  match t.plan.wait with
  | .nothing => t.work now
  | .cancellation => { t with stage := .waiting none }
  | .atMost limit => { t with stage := .waiting (some (Clock.after now limit)) }

/-- The next step of a task, if it can take one now. -/
def advance (t : Task ε) (now : Nat) (cancelled : Bool) : Option (Task ε × List Sign) :=
  match t.stage with
  | .fresh => some (t.start now, [.begun])
  | .waiting limit =>
    if cancelled then some (t.work now, [.noticed])
    else if limit.any (Clock.reached · now) then some (t.work now, [])
    else none
  | .working wake =>
    if Clock.reached wake now then some ({ t with stage := .ended }, [.ended cancelled])
    else none
  | .ended => none

/-- A task that has ended takes no step. -/
theorem advance_ended (t : Task ε) (now : Nat) (cancelled : Bool) (h : t.isEnded = true) :
    t.advance now cancelled = none := by
  obtain ⟨plan, stage⟩ := t
  cases stage <;> simp_all [isEnded, advance]

/-- The instant for which the next timer of a task is set. -/
def due (t : Task ε) : Option Nat :=
  match t.stage with
  | .waiting limit => limit
  | .working wake => some wake
  | _ => none

end Task

/-- How a task that broke down is reported. -/
structure Panic where
  /-- The number of the task. -/
  task : Nat
  message : String
deriving Repr, DecidableEq, Inhabited

def Panic.text (p : Panic) : String :=
  s!"task {p.task} panicked with message {Text.quoted p.message}"

end Tenure
