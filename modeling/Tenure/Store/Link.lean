import Tenure.Store.Shared

/-!
# `Tenure.Store.Link`: the way from a client to the store

A call does not always reach the store at once. A link lets calls through, lets
them through after a while, refuses them, or leaves them without an answer. On
top of that single calls can be harmed: the next call of a kind fails with an
error, or comes just after someone else has written a record.

* `deliver_healthy`: a link without harm passes a call on as it is.
-/

set_option autoImplicit false

namespace Tenure.Store

/-- What happens to a single call. -/
inductive Harm
  | fails (error : Error)
  /-- Someone else writes a record just before the call. -/
  | overtaken (record : Record)
deriving Repr, DecidableEq, Inhabited

/-- A harm that waits for the next call of its kind. -/
structure Fault where
  call : Call
  harm : Harm
deriving Repr, DecidableEq, Inhabited

/-- How a link treats calls. -/
inductive Traffic
  | flowing
  | slow (delay : Duration)
  /-- Calls fail at once. -/
  | cut
  /-- Calls never return. -/
  | stuck
deriving Repr, DecidableEq, Inhabited

/-- The way from one client to the store. -/
structure Link where
  traffic : Traffic
  /-- The harms that are waiting, the first one first. -/
  faults : List Fault
deriving Repr, DecidableEq, Inhabited

/-- A call that is on its way. -/
inductive Transit
  /-- It reaches the store at an instant. -/
  | arriving (instant : Nat)
  /-- It was turned back at an instant. -/
  | refused (instant : Nat)
  | lost
deriving Repr, DecidableEq, Inhabited

namespace Link

/-- A link that lets every call through. -/
def healthy : Link := ⟨.flowing, []⟩

/-- From now on calls are treated in another way. -/
def route (l : Link) (traffic : Traffic) : Link := { l with traffic := traffic }

/-- A further harm waits for a call. -/
def expect (l : Link) (fault : Fault) : Link := { l with faults := l.faults ++ [fault] }

/-- Sends a call off. -/
def send (l : Link) (now : Nat) : Transit :=
  match l.traffic with
  | .flowing => .arriving now
  | .slow delay => .arriving (Clock.after now delay)
  | .cut => .refused now
  | .stuck => .lost

/-- Removes the first fault that waits for a kind of call. -/
def takeFault (call : Call) : List Fault → Option (Harm × List Fault)
  | [] => none
  | fault :: rest =>
    if fault.call = call then some (fault.harm, rest)
    else (takeFault call rest).map fun (harm, rest) => (harm, fault :: rest)

/-- A call reaches the store, where it may be harmed. -/
def deliver (l : Link) (s : Shared) (key : Key) (request : Request) : Link × Shared × Reply :=
  match takeFault request.call l.faults with
  | none => (l, s.answer key request)
  | some (.fails error, rest) => ({ l with faults := rest }, s, .failed error)
  | some (.overtaken record, rest) =>
    ({ l with faults := rest }, (s.overwrite key record).1.answer key request)

/-- The reply to a call that was refused. -/
def refusal : Reply := .failed (.unavailable "the store cannot be reached")

/-- A link without harm passes a call on as it is. -/
theorem deliver_healthy (s : Shared) (key : Key) (request : Request) :
    healthy.deliver s key request = (healthy, s.answer key request) := rfl

end Link

/-- The instant at which a call on its way is answered, `none` if it never is. -/
def Transit.due : Transit → Option Nat
  | arriving instant => some instant
  | refused instant => some instant
  | lost => none

end Tenure.Store
