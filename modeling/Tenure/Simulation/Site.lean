import Tenure.Lifecycle.Startup
import Tenure.Simulation.Background
import Tenure.Simulation.Episode

/-!
# `Tenure.Simulation.Site`: a whole process

A process with everything around it: the store that its candidate talks to, the
episode that it runs while it leads, and its background tasks. At each instant
the candidate goes first, then the episode, then the background tasks.
-/

set_option autoImplicit false

namespace Tenure.Simulation

/-- A process, what it runs, and what is around it. -/
structure Site where
  process : Process
  backing : Store.Backing
  crew : Crew
  episode : Option Episode
  chores : List Chore
  surroundings : Surroundings
  metrics : Metrics
  /-- When the process has ended. -/
  ended : Option Nat
  now : Nat
  epoch : Nat

namespace Site

/-- Whether the process has ended. -/
def isOver (w : Site) : Bool := w.process.summary?.isSome

/-- The key of the lock. -/
def key (w : Site) : Key := w.process.candidate.elector.client.key

/-- The store with the files around it. -/
def store (w : Site) : Store.Shared := ⟨w.backing, w.surroundings.files⟩

/-- Takes over what a call has changed in the store. -/
def withStore (w : Site) (s : Store.Shared) : Site :=
  { w with backing := s.backing, surroundings := { w.surroundings with files := s.files } }

/-- What both clocks show. -/
def moment (w : Site) : Moment := ⟨w.now, w.epoch + w.now / 1000000⟩

/-- Follows what the elector says: episodes are started and cancelled. -/
def follow (w : Site) : Leader.Note → Site
  | .started =>
    let cancelled := w.process.candidate.elector.episode.any Leader.Episode.cancelled
    { w with episode := some (.start w.crew cancelled) }
  | .cancelled => { w with episode := w.episode.map Episode.cancel }
  | .measured m => { w with metrics := w.metrics.record m }
  | .newLeader _ | .stopped => w

/-- Takes over a new state of the process and follows its notes. -/
def withProcess (w : Site) (answer : Process × List Leader.Note) : Site :=
  answer.2.foldl follow { w with process := answer.1 }

/-- Tells the process to end in order. -/
def trigger (w : Site) : Site := w.withProcess w.process.trigger

/-- Tells the process to end for a fatal reason. -/
def fail (w : Site) (reason : String) : Site := w.withProcess (w.process.fail reason)

/-- The next step of the candidate, if it can take one now. -/
def stepCandidate (w : Site) : Option Site :=
  let delay := w.process.candidate.elector.timing.retryPeriod
  (w.process.advance w.store w.moment delay).map fun (process, store, notes) =>
    (w.withStore store).withProcess (process, notes)

/-- The next step of the episode, if there is one and it can take one now. -/
def stepEpisode (w : Site) : Option Site := do
  let episode ← w.episode
  match episode.sequence.result? with
  | some result => return { w.withProcess (w.process.endEpisode result) with episode := none }
  | none =>
    let (episode, crew, s) ← episode.step w.crew w.surroundings w.moment
    return { w with episode := some episode, crew := crew, surroundings := s }

/-- The next step of a background task, if one can be taken now. -/
def stepChore (w : Site) : Option Site := do
  let stops := w.process.shutdown.triggered
  let (index, c, s) ← Chore.stepFirst w.surroundings w.now stops 0 w.chores
  let w := { w with chores := w.chores.set index c, surroundings := s }
  if c.task.isEnded then
    return w.withProcess (w.process.endTask index c.name c.task.plan.ending)
  else return w

/-- The next step of the process itself, if it can take one now. -/
def stepProcess (w : Site) : Option Site :=
  (w.process.conclude <|> w.process.notice).map w.withProcess

/-- Writes down when the process has ended. -/
def markEnd (w : Site) : Site :=
  if w.ended.isNone && w.isOver then { w with ended := some w.now } else w

/-- The next step of all of this. -/
def step (w : Site) : Option Site :=
  (w.stepCandidate <|> w.stepEpisode <|> w.stepChore <|> w.stepProcess).map markEnd

/-- The instants for which timers are set. -/
def timers (w : Site) : List (Option Nat) :=
  w.process.candidate.timers ++ (w.episode.map Episode.timers).getD []
    ++ w.chores.map (·.task.due)

instance : World Site where
  now w := w.now
  moveTo w t := { w with now := t }
  now_moveTo _ _ := rfl
  step := step
  due w := earliest w.timers

/-! ### From outside -/

/-- The record of the lock. -/
def stored (w : Site) : Store.Reply := (w.store.answer w.key .get).2

/-- Someone else writes the record of the lock. -/
def overwrite (w : Site) (record : Record) : Site :=
  w.withStore (w.store.overwrite w.key record).1

/-- Changes the link between the candidate and the store. -/
def changeLink (w : Site) (f : Store.Link → Store.Link) : Site :=
  let candidate := w.process.candidate
  { w with process :=
    { w.process with candidate := { candidate with link := f candidate.link } } }

/-- Changes the files. -/
def withFiles (w : Site) (files : FileTree) : Site :=
  { w with surroundings := { w.surroundings with files := files } }

/-- Reads the record of the lock from a directory, if there is such a
directory. -/
def inspect (w : Site) (key : Key) (directory : Option String) : Site × Option Store.Reply :=
  match directory.filter w.surroundings.files.isDirectory with
  | none => (w, none)
  | some path =>
    let (files, reply) := (Store.Directory.mk path).answer w.surroundings.files key .get
    (w.withFiles files, some reply)

/-- Lets the process live until it leads, or has ended. -/
def runToLead (limit : Nat) (w : Site) : Site :=
  runUntil (fun w => 0 < w.process.candidate.elector.episodes || w.isOver) limit w

/-- Lets the process end in order. -/
def close (limit : Nat) (w : Site) : Site := runUntil isOver (w.now + limit) w.trigger

/-! ### Starting -/

/-- A process with a candidate, among surroundings. -/
def start (config : Config) (candidate : Leader.Candidate) (backing : Store.Backing) (crew : Crew)
    (chores : List Chore) (s : Surroundings) (epoch : Nat) : Site where
  process := .start candidate config.election.rejoinAfterLoss chores.length
  backing := backing
  crew := crew
  episode := none
  chores := chores
  surroundings := s
  metrics := .empty
  ended := none
  now := 0
  epoch := epoch

/-- Files among which no process runs. -/
def vacant (files : FileTree) (epoch : Nat) : Site :=
  let elector := { (default : Leader.Elector) with stage := .finished none }
  (start .standard ⟨elector, .healthy, none⟩ (.memory .empty) default [] .empty epoch).withFiles
    files

/-- The crew that settings ask for: the reporter, and the controller that watches
the defaults. -/
def crewOf (config : Config) (identity : Identity) : Crew :=
  ⟨config.reporterKind identity,
    .new [fun applied => (config.driftFactory applied).map fun d => .drift d 0]⟩

/-- A server waits until the process shuts down. -/
def server (name : String) : Chore := .new name ⟨.cancellation, .zero, .done⟩

/-- Starts a process with everything that its settings ask for, and gives the
files as they are then. -/
def launch (config : Config) (identity : Identity) (files : FileTree) (epoch : Nat) :
    FileTree × Except StartupError Site :=
  match config.openStore files with
  | (files, .error e) => (files, .error e)
  | (files, .ok backing) =>
    (files, do
      let candidate ← config.candidate identity 0
      let servers ← config.servers files
      let s : Surroundings := { Surroundings.empty with
        files := files
        outlet := .directory ⟨config.reporting.directory⟩
        sources := [.directory config.defaultsDirectory] }
      return start config candidate backing (crewOf config identity) (servers.map server) s epoch)

end Site

end Tenure.Simulation
