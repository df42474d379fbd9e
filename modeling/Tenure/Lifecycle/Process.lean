import Tenure.Episode.Sequence
import Tenure.Leader.Candidate
import Tenure.Lifecycle.Supervisor

/-!
# `Tenure.Lifecycle.Process`: a process from its start to its end

A process competes for leadership, runs an episode whenever it leads, and keeps
background tasks. It ends when it is told to, when leadership ends unless it
competes again after that, and for fatal reasons: an episode that cannot begin,
and a background task that fails. The end is in order: the elector returns, which
it does only after its episode, then the background tasks are awaited.

A process is told that it has to shut down (`trigger`, `fail`), that its episode
has ended (`endEpisode`), and that a background task has ended (`endTask`).
Everything else it does by itself (`advance`, `conclude`, `notice`). What the
elector says on the way is passed on in notes.
-/

set_option autoImplicit false

namespace Tenure

open Leader (Candidate Note)

/-- A process that competes for leadership. -/
structure Process where
  candidate : Candidate
  /-- Whether it competes again after it has lost leadership. -/
  rejoins : Bool
  shutdown : Shutdown
  supervisor : Supervisor
deriving Repr, Inhabited

namespace Process

/-- A process at its start, with a number of background tasks. -/
def start (candidate : Candidate) (rejoins : Bool) (tasks : Nat) : Process :=
  ⟨candidate, rejoins, .new, .start tasks⟩

/-- Takes a new state of the shutdown over. Once it is triggered the elector is
told. -/
def withShutdown (p : Process) (s : Shutdown) : Process × List Note :=
  if s.triggered then
    let (elector, notes) := p.candidate.elector.cancel
    ({ p with shutdown := s, candidate := { p.candidate with elector := elector } }, notes)
  else ({ p with shutdown := s }, [])

/-- Tells the process to end in order. -/
def trigger (p : Process) : Process × List Note := p.withShutdown p.shutdown.trigger

/-- Tells the process to end for a fatal reason. -/
def fail (p : Process) (reason : String) : Process × List Note :=
  p.withShutdown (p.shutdown.fail reason)

/-- The end of an episode was announced: unless the process competes again, it
shuts down. -/
def react (p : Process) (notes : List Note) : Process × List Note :=
  if notes.contains .stopped && !p.rejoins then
    let (p, more) := p.trigger
    (p, notes ++ more)
  else (p, notes)

/-- The next step of the elector, if there is one now. -/
def advance (p : Process) (store : Store.Shared) (now : Moment) (delay : Duration) :
    Option (Process × Store.Shared × List Note) :=
  (p.candidate.advance store now delay).map fun (candidate, store, notes) =>
    let (p, notes) := { p with candidate := candidate }.react notes
    (p, store, notes)

/-- The episode has ended, as the body that the elector is waiting for. -/
def endEpisode (p : Process) (result : Episode.Result) : Process × List Note :=
  let (p, notes) := match result with
    | .error e => p.fail e.message
    | .ok _ => (p, [])
  ({ p with candidate := { p.candidate with elector := p.candidate.elector.endBody } }, notes)

/-- A background task has ended; the number tells which one. -/
def endTask (p : Process) (task : Nat) (name : String) (ending : Ending String) :
    Process × List Note :=
  let (supervisor, shutdown) := p.supervisor.finish p.shutdown task name ending
  { p with supervisor := supervisor }.withShutdown shutdown

/-- Once the elector has returned, the background tasks are told to end and are
awaited. -/
def conclude (p : Process) : Option (Process × List Note) :=
  match p.candidate.elector.stage, p.supervisor.waiting with
  | .finished error, false =>
    let (p, notes) := match error with
      | some e => p.fail e.message
      | none => p.trigger
    some ({ p with supervisor := p.supervisor.wait }, notes)
  | _, _ => none

/-- Notices the panic of a background task, if there is one to notice. -/
def notice (p : Process) : Option (Process × List Note) :=
  (p.supervisor.notice p.shutdown).map fun (supervisor, shutdown) =>
    { p with supervisor := supervisor }.withShutdown shutdown

/-- How the process has ended, if it has. -/
def summary? (p : Process) : Option Summary :=
  if p.candidate.elector.isDone && p.supervisor.isOver then
    some ⟨p.candidate.elector.episodes, p.shutdown.fatal⟩
  else none

end Process

end Tenure
