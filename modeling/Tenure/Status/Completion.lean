/-!
# `Tenure.Status.Completion`: a signal that a reporter has finished

A completion signal resolves when its notifier completes it or is dropped, so a
reporter that ends early never leaves anyone waiting. Between the two stands a
channel for one value; looking whether it is there takes the value out, so the
signal remembers what it has seen. The channel gives up what it has only once: to
wait on it after a look has found something breaks down, and only what the signal
remembers keeps it from doing so.
-/

set_option autoImplicit false

namespace Tenure.Status

/-- The channel between a notifier and its signal. -/
inductive Channel
  /-- Nothing happened yet. -/
  | pending
  | sent
  /-- The notifier is gone, and nothing was sent. -/
  | closed
  /-- A look has taken out what there was. -/
  | spent
deriving Repr, DecidableEq, Inhabited

/-- How a wait stands. -/
inductive Wait
  | returned
  | waiting
  | brokenDown
deriving Repr, DecidableEq, Inhabited

namespace Channel

/-- Looks, without waiting, whether anything happened, and takes out what there
is. A channel that has been emptied has nothing more to wait for. -/
def look : Channel → Channel × Bool
  | pending => (pending, false)
  | sent | closed | spent => (spent, true)

/-- Waits for what the notifier does. -/
def wait : Channel → Wait
  | pending => .waiting
  | sent | closed => .returned
  | spent => .brokenDown

end Channel

/-- The end of the channel that is waited on. -/
structure Completion where
  channel : Channel
  /-- Whether a look has already found it resolved. -/
  seen : Bool
deriving Repr, DecidableEq, Inhabited

namespace Completion

/-- A signal whose notifier has done nothing yet. -/
def opened : Completion := ⟨.pending, false⟩

/-- The notifier sends the value. -/
def complete (s : Completion) : Completion := { s with channel := .sent }

/-- The notifier goes away without sending. -/
def abandon (s : Completion) : Completion := { s with channel := .closed }

/-- A signal that is resolved from the start. -/
def completed : Completion := opened.complete

/-- Looks, without waiting, whether the signal has resolved. Once it has, the
channel is not asked again. -/
def isComplete (s : Completion) : Completion × Bool :=
  if s.seen then (s, true)
  else (⟨s.channel.look.1, s.channel.look.2⟩, s.channel.look.2)

/-- Waits for the signal. A wait that goes on takes nothing out, and looks again when
the notifier has acted. -/
def wait (s : Completion) : Wait := if s.seen then .returned else s.channel.wait

end Completion

/-- Where the notifier of a pair is. -/
inductive Notifier
  /-- It has completed or gone away, and exists no more. -/
  | gone
  /-- It belongs to the signal. -/
  | own
  /-- It belongs to a signal that was replaced. -/
  | stray
deriving Repr, DecidableEq, Inhabited

/-- A signal, while it exists, and its notifier. -/
structure CompletionPair where
  signal : Option Completion
  notifier : Notifier
deriving Repr, DecidableEq, Inhabited

namespace CompletionPair

/-- Neither signal nor notifier. -/
def empty : CompletionPair := ⟨none, .gone⟩

/-- A fresh signal and its notifier. -/
def opened : CompletionPair := ⟨some .opened, .own⟩

/-- A resolved signal in place of the old one, whose notifier stays. -/
def replace (p : CompletionPair) : CompletionPair where
  signal := some .completed
  notifier := if p.notifier = .gone then .gone else .stray

/-- The notifier, if there is one, does its last thing, to its own signal only. -/
def notify (p : CompletionPair) (change : Completion → Completion) : Option CompletionPair :=
  match p.notifier with
  | .gone => none
  | .own => some ⟨p.signal.map change, .gone⟩
  | .stray => some { p with notifier := .gone }

/-- Gives up the signal, if there is one. -/
def dropSignal (p : CompletionPair) : Option CompletionPair :=
  p.signal.map fun _ => { p with signal := none }

/-- Looks whether the signal, if there is one, has resolved. -/
def isComplete (p : CompletionPair) : Option (CompletionPair × Bool) :=
  p.signal.map fun s => ({ p with signal := some s.isComplete.1 }, s.isComplete.2)

/-- Waits for the signal, if there is one, which is used up by it. The answer
says whether the wait has returned. -/
def wait (p : CompletionPair) : Option (CompletionPair × Bool) :=
  p.signal.map fun s => ({ p with signal := none }, s.wait = .returned)

end CompletionPair

end Tenure.Status
