import Tenure.Episode.Sequence
import Tenure.Simulation.Workforce

/-!
# `Tenure.Simulation.Episode`: an episode with all its parts

An episode brings together a sequence, a reporter and controllers. At each
instant the reporter goes first, then the controllers in their order, then the
sequence.
-/

set_option autoImplicit false

namespace Tenure.Simulation

/-- What outlives an episode: the kind of its reporter and the manager of its
controllers. -/
structure Crew where
  kind : Status.Reporter.Kind
  manager : Control.Manager Worker

instance : Inhabited Crew := ⟨⟨.silent, .new []⟩⟩

/-- The parts of an episode. -/
structure Episode where
  sequence : Tenure.Episode.Sequence
  reporting : Reporting
  force : Workforce
deriving Inhabited

namespace Episode

/-- Starts an episode. -/
def start (crew : Crew) (cancelled : Bool) : Episode :=
  ⟨.start cancelled, .start crew.kind, default⟩

/-- Cancels the token of the episode. -/
def cancel (e : Episode) : Episode :=
  { e with sequence := e.sequence.cancel, force := e.force.cancel }

/-- The defaults are read, and the controllers start if nothing is wrong. -/
def populate (e : Episode) (crew : Crew) (s : Surroundings) : Episode × Crew × Surroundings :=
  let (s, result) := s.read 0
  let (sequence, manager) := e.sequence.populated crew.manager result
  let force := match sequence.stage with
    | .controlling => Workforce.start manager sequence.cancelled
    | _ => e.force
  ({ e with sequence := sequence, force := force }, { crew with manager := manager }, s)

/-- The next step of the sequence, if it can take one now. -/
def stepSequence (e : Episode) (crew : Crew) (s : Surroundings) :
    Option (Episode × Crew × Surroundings) :=
  match e.sequence.stage with
  | .populating => some (e.populate crew s)
  | .controlling =>
    e.force.run.result?.map fun result =>
      ({ e with sequence := e.sequence.loopEnded result }, crew, s)
  | .stopping _ =>
    if e.reporting.reporter.isResolved then
      some ({ e with sequence := e.sequence.completed }, crew, s)
    else none
  | .ended _ => none

/-- The next step of an episode, if it can take one now. -/
def step (e : Episode) (crew : Crew) (s : Surroundings) (now : Moment) :
    Option (Episode × Crew × Surroundings) :=
  match e.reporting.step s now e.sequence.reporterStops with
  | some (reporting, s) => some ({ e with reporting := reporting }, crew, s)
  | none =>
    match e.force.step s now.instant with
    | some (force, s) => some ({ e with force := force }, crew, s)
    | none => e.stepSequence crew s

/-- The instants for which timers are set. -/
def timers (e : Episode) : List (Option Nat) := e.reporting.timers ++ e.force.timers

end Episode

/-- An episode by itself. -/
structure EpisodeRun where
  episode : Episode
  crew : Crew
  surroundings : Surroundings
  now : Nat
  epoch : Nat
deriving Inhabited

namespace EpisodeRun

/-- Starts another episode. -/
def start (w : EpisodeRun) : EpisodeRun := { w with episode := .start w.crew false }

/-- How the episode has ended, if it has. -/
def result? (w : EpisodeRun) : Option Tenure.Episode.Result := w.episode.sequence.result?

/-- Whether the episode has ended. -/
def isOver (w : EpisodeRun) : Bool := w.result?.isSome

/-- Cancels the token of the episode. -/
def cancel (w : EpisodeRun) : EpisodeRun := { w with episode := w.episode.cancel }

end EpisodeRun

instance : World EpisodeRun where
  now w := w.now
  moveTo w t := { w with now := t }
  now_moveTo _ _ := rfl
  step w :=
    (w.episode.step w.crew w.surroundings ⟨w.now, w.epoch + w.now / 1000000⟩).map
      fun (episode, crew, surroundings) =>
        { w with episode := episode, crew := crew, surroundings := surroundings }
  due w := earliest w.episode.timers

end Tenure.Simulation
