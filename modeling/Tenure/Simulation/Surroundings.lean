import Tenure.Control.Drift
import Tenure.Simulation.Clock
import Tenure.Status.Reporter
import Tenure.Status.Sink

/-!
# `Tenure.Simulation.Surroundings`: what the parts of a process touch

The parts of a simulated process share files, sources of defaults, an outlet for
status documents, and a log of what they do.
-/

set_option autoImplicit false

namespace Tenure.Simulation

/-- Where defaults are read from: a list of answers, the last of which repeats,
or a directory. -/
inductive Source
  | rounds (answers : List (Except DefaultsError Defaults))
  | directory (path : Option String)

/-- Reads defaults from a source. -/
def Source.read (s : Source) (files : FileTree) : Source × Except DefaultsError Defaults :=
  match s with
  | rounds [] => (s, .ok .empty)
  | rounds [answer] => (s, answer)
  | rounds (answer :: rest) => (rounds rest, answer)
  | directory path => (s, Defaults.populate files path)

/-- An outlet that takes its time and keeps every document. -/
structure Recorder where
  delay : Duration
  /-- How long single publications take instead, by their number. -/
  slow : List (Nat × Duration)
  published : List Status.Document
deriving Repr, Inhabited

/-- Where status documents are published. -/
inductive Outlet
  | recorder (recorder : Recorder)
  | directory (sink : Status.Sink)
deriving Repr, Inhabited

namespace Outlet

/-- When a publication that begins now takes effect. -/
def arrival (o : Outlet) (now : Nat) : Nat :=
  match o with
  | recorder r => Clock.after now ((r.slow.lookup r.published.length).getD r.delay)
  | directory _ => now

end Outlet

/-- One thing that was done, by whom and when. -/
structure Deed where
  instant : Nat
  actor : String
  what : String
deriving Repr, DecidableEq, Inhabited

/-- What the parts of a process share. -/
structure Surroundings where
  files : FileTree
  outlet : Outlet
  /-- The defaults of episodes come from the first source. -/
  sources : List Source
  log : List Deed
  events : List Control.Drift.Event

namespace Surroundings

/-- Surroundings without anything in them. -/
def empty : Surroundings := ⟨.empty, .recorder ⟨.zero, [], []⟩, [], [], []⟩

instance : Inhabited Surroundings := ⟨empty⟩

/-- Writes something down. -/
def write (s : Surroundings) (now : Nat) (actor what : String) : Surroundings :=
  { s with log := s.log ++ [⟨now, actor, what⟩] }

/-- Reads defaults from a source; where there is none, there are no defaults. -/
def read (s : Surroundings) (source : Nat) : Surroundings × Except DefaultsError Defaults :=
  match s.sources[source]? with
  | none => (s, .ok .empty)
  | some src =>
    let (src, result) := src.read s.files
    ({ s with sources := s.sources.set source src }, result)

/-- What each actor did, by name. -/
def deedsByActor (s : Surroundings) : List (String × List Deed) :=
  (s.log.map Deed.actor).eraseDups.map fun actor => (actor, s.log.filter (·.actor == actor))

/-- The documents that were published into a recorder. -/
def published (s : Surroundings) : List Status.Document :=
  match s.outlet with
  | .recorder r => r.published
  | .directory _ => []

/-- Takes the events out that were told since the last time. -/
def forgetEvents (s : Surroundings) : Surroundings := { s with events := [] }

/-- Publishes a document. -/
def publish (s : Surroundings) (now : Nat) (d : Status.Document) : Surroundings :=
  match s.outlet with
  | .recorder r =>
    { s with outlet := .recorder { r with published := r.published ++ [d] } }.write now
      "publish" d.phase.title
  | .directory sink => { s with files := (sink.publish (.ofTree s.files) d).1.tree }

end Surroundings

/-! ### Reporters at work -/

/-- A reporter, and when the publication that is under way takes effect. -/
structure Reporting where
  reporter : Status.Reporter
  arrival : Option Nat
deriving Inhabited

namespace Reporting

def start (kind : Status.Reporter.Kind) : Reporting := ⟨.start kind, none⟩

/-- What a witness shows, in the log. -/
def sign (now : Nat) (s : Surroundings) : Task.Sign → Surroundings
  | .begun => s.write now "reporter" "started"
  | .noticed => s.write now "reporter" "cancelled"
  | .ended _ => s.write now "reporter" "completed"

/-- The next step of a reporter, if it can take one now. -/
def step (r : Reporting) (s : Surroundings) (now : Moment) (cancelled : Bool) :
    Option (Reporting × Surroundings) :=
  match r.reporter.pending, r.arrival with
  | some _, none => some ({ r with arrival := some (s.outlet.arrival now.instant) }, s)
  | some document, some arrival =>
    if Clock.reached arrival now.instant then
      some (⟨r.reporter.published now.instant, none⟩, s.publish now.instant document)
    else none
  | none, _ =>
    (r.reporter.advance now cancelled).map fun (reporter, signs) =>
      (⟨reporter, none⟩, signs.foldl (sign now.instant) s)

/-- The instants for which timers are set. -/
def timers (r : Reporting) : List (Option Nat) := [r.reporter.due, r.arrival]

end Reporting

/-- A reporter by itself. -/
structure ReporterRun where
  reporting : Reporting
  surroundings : Surroundings
  cancelled : Bool
  now : Nat
  epoch : Nat
deriving Inhabited

namespace ReporterRun

/-- Whether the completion signal of the reporter has resolved. -/
def isOver (w : ReporterRun) : Bool := w.reporting.reporter.isResolved

/-- Cancels the token of the reporter. -/
def cancel (w : ReporterRun) : ReporterRun := { w with cancelled := true }

end ReporterRun

instance : World ReporterRun where
  now w := w.now
  moveTo w t := { w with now := t }
  now_moveTo _ _ := rfl
  step w :=
    (w.reporting.step w.surroundings ⟨w.now, w.epoch + w.now / 1000000⟩ w.cancelled).map
      fun (reporting, surroundings) =>
        { w with reporting := reporting, surroundings := surroundings }
  due w := earliest w.reporting.timers

end Tenure.Simulation
