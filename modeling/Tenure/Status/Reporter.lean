import Tenure.Status.Session
import Tenure.Task

/-!
# `Tenure.Status.Reporter`: who reports during an episode

There are three kinds of reporters. A silent one reports nothing and is
completed from the start. A witness follows its token, takes its time, and
completes; one that drops its notifier does not wait for its token. A cluster
reporter publishes documents in a session. The completion signal of a reporter
resolves when it completes and also when it goes away without completing.
-/

set_option autoImplicit false

namespace Tenure.Status

namespace Reporter

/-- The kinds of reporters. -/
inductive Kind
  | silent
  | witness (delay : Duration) (drops : Bool)
  | cluster (profile : Profile)
deriving Repr, DecidableEq, Inhabited

end Reporter

/-- A reporter that was started. -/
inductive Reporter
  | silent
  | witness (task : Task Unit)
  | cluster (session : Session)
deriving Repr, DecidableEq, Inhabited

namespace Reporter

/-- What a witness does. -/
def witnessPlan (delay : Duration) (drops : Bool) : Plan Unit :=
  ⟨if drops then .nothing else .cancellation, delay, .done⟩

/-- Starts a reporter. -/
def start : Kind → Reporter
  | .silent => silent
  | .witness delay drops => witness (.new (witnessPlan delay drops))
  | .cluster profile => cluster (.new profile)

/-- What a reporter does by itself now, if anything, and what a witness shows. -/
def advance (r : Reporter) (now : Moment) (cancelled : Bool) :
    Option (Reporter × List Task.Sign) :=
  match r with
  | silent => none
  | witness task =>
    (task.advance now.instant cancelled).map fun (task, signs) => (witness task, signs)
  | cluster session => (session.advance now cancelled).map fun session => (cluster session, [])

/-- The document that is being published. -/
def pending : Reporter → Option Document
  | cluster session => session.pending
  | _ => none

/-- The publication of a document has returned. -/
def published (r : Reporter) (now : Nat) : Reporter :=
  match r with
  | cluster session => cluster (session.published now)
  | r => r

/-- Whether the completion signal has resolved. -/
def isResolved : Reporter → Bool
  | silent => true
  | witness task => task.isEnded
  | cluster session => session.isResolved

/-- The instant for which the next timer of a reporter is set. -/
def due : Reporter → Option Nat
  | silent => none
  | witness task => task.due
  | cluster session => session.due

end Reporter

end Tenure.Status
