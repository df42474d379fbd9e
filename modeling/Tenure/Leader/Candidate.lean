import Tenure.Leader.Elector
import Tenure.Store.Link

/-!
# `Tenure.Leader.Candidate`: an elector at its link

A candidate is an elector together with its link to the store and the call that
is on its way there. A call takes effect at the instant at which it is answered;
when the elector turns to something else before, the call is dropped and has no
effect.

At each instant an elector does first what is urgent, then a call that has
arrived is answered, and only then a timer that has rung is obeyed. So a reply
that comes at the last moment still counts.
-/

set_option autoImplicit false

namespace Tenure.Leader

open Store

/-- An elector, its link to the store, and the call that is on its way. -/
structure Candidate where
  elector : Elector
  link : Link
  transit : Option Transit
deriving Repr, Inhabited

namespace Candidate

/-- Whether a call on its way is answered by now. A call takes its time by a timer, so it is
answered at a whole millisecond, which the clock does not go past before. -/
def hasArrived (transit : Transit) (now : Nat) : Bool := transit.due.any (Clock.reached · now)

/-- A call that has arrived reaches the store, unless it was turned back. -/
def deliver (c : Candidate) (request : Request) (transit : Transit) (store : Shared) :
    Link × Shared × Reply :=
  match transit with
  | .refused _ => (c.link, store, Link.refusal)
  | _ => c.link.deliver store c.elector.client.key request

/-- The call of the elector is answered. -/
def receive (c : Candidate) (request : Request) (transit : Transit) (store : Shared)
    (now : Moment) (delay : Duration) : Candidate × Shared × List Note :=
  let (link, store, reply) := c.deliver request transit store
  let (elector, notes) := c.elector.answer now delay reply
  (⟨elector, link, none⟩, store, notes)

/-- The elector does something by itself, and drops the call that is on its
way. -/
def act (c : Candidate) (store : Shared) (now : Moment) (delay : Duration) :
    Option (Candidate × Shared × List Note) :=
  (c.elector.advance now delay).map fun (elector, notes) =>
    (⟨elector, c.link, none⟩, store, notes)

/-- The next step of a candidate, if it can take one now. -/
def advance (c : Candidate) (store : Shared) (now : Moment) (delay : Duration) :
    Option (Candidate × Shared × List Note) :=
  match c.elector.request?, c.transit with
  | some _, none => some ({ c with transit := some (c.link.send now.instant) }, store, [])
  | some request, some transit =>
    if hasArrived transit now.instant then some (c.receive request transit store now delay)
    else c.act store now delay
  | none, _ => c.act store now delay

/-- The instants for which timers of a candidate are set. -/
def timers (c : Candidate) : List (Option Nat) := [c.elector.due, c.transit.bind Transit.due]

end Candidate

end Tenure.Leader
