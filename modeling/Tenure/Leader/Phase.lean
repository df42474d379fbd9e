/-!
# `Tenure.Leader.Phase`: the leadership state machine

A candidate that acquires the lease leads. Leadership ends by losing the lease
(`lost`) or by giving it up (`released`), and after the end has been announced
the process is a candidate again. A candidate that is cancelled stops for good.
`transition` decides the next phase and what has to be done on the way, in
order; it does nothing itself. The statements:

* `Machine.handle_refused`: a refused event leaves the machine as it was.
* `transition_stopped`: nothing leads out of `stopped`.
-/

set_option autoImplicit false

namespace Tenure.Leader

/-- Where a process stands with respect to leadership. -/
inductive Phase
  | candidate
  | leading
  | lost
  | released
  | stopped
deriving Repr, DecidableEq, Inhabited

/-- What happens to a process with respect to leadership. -/
inductive Event
  | acquired
  | renewed
  | renewFailed
  | episodeFinished
  | cancelled
  | stoppedNotified
deriving Repr, DecidableEq, Inhabited

/-- What has to be done on a transition. -/
inductive Effect
  | startEpisode
  | cancelEpisode
  | releaseLock
  | notifyStopped
  | exit
deriving Repr, DecidableEq, Inhabited

namespace Phase

/-- The name of a phase in messages. -/
def name : Phase → String
  | candidate => "candidate"
  | leading => "leading"
  | lost => "lost"
  | released => "released"
  | stopped => "stopped"

def all : List Phase := [candidate, leading, lost, released, stopped]

/-- The phase of a name. -/
def ofName? (text : String) : Option Phase := all.find? (·.name == text)

/-- A phase is read back from its name, so different phases have different names. -/
theorem ofName?_name (p : Phase) : ofName? p.name = some p := by cases p <;> decide

end Phase

namespace Event

/-- The name of an event in messages. -/
def name : Event → String
  | acquired => "Acquired"
  | renewed => "Renewed"
  | renewFailed => "RenewFailed"
  | episodeFinished => "EpisodeFinished"
  | cancelled => "Cancelled"
  | stoppedNotified => "StoppedNotified"

def all : List Event :=
  [acquired, renewed, renewFailed, episodeFinished, cancelled, stoppedNotified]

/-- The event of a name. -/
def ofName? (text : String) : Option Event := all.find? (·.name == text)

/-- An event is read back from its name. -/
theorem ofName?_name (e : Event) : ofName? e.name = some e := by cases e <;> decide

end Event

/-- The name of an effect. -/
def Effect.name : Effect → String
  | startEpisode => "StartEpisode"
  | cancelEpisode => "CancelEpisode"
  | releaseLock => "ReleaseLock"
  | notifyStopped => "NotifyStopped"
  | exit => "Exit"

/-- An event that does not fit the phase it meets. -/
structure InvalidTransition where
  phase : Phase
  event : Event
deriving Repr, DecidableEq, Inhabited

def InvalidTransition.message (e : InvalidTransition) : String :=
  s!"invalid leadership transition: {e.event.name} while {e.phase.name}"

/-- The end of an episode that was not lost: the lock is released on request. -/
def relinquish (releaseOnCancel : Bool) : List Effect :=
  .cancelEpisode :: (if releaseOnCancel then [.releaseLock] else []) ++ [.notifyStopped]

/-- The next phase and what has to be done to get there, in order. -/
def transition (phase : Phase) (event : Event) (releaseOnCancel : Bool) :
    Except InvalidTransition (Phase × List Effect) :=
  match phase, event with
  | .candidate, .acquired => .ok (.leading, [.startEpisode])
  | .candidate, .cancelled => .ok (.stopped, [.exit])
  | .leading, .renewed => .ok (.leading, [])
  | .leading, .renewFailed => .ok (.lost, [.cancelEpisode, .notifyStopped])
  | .leading, .cancelled => .ok (.released, relinquish releaseOnCancel)
  | .leading, .episodeFinished => .ok (.released, relinquish releaseOnCancel)
  | .lost, .stoppedNotified => .ok (.candidate, [])
  | .released, .stoppedNotified => .ok (.candidate, [])
  | phase, event => .error ⟨phase, event⟩

/-- No event leads out of the last phase: each of them is refused. -/
theorem transition_stopped (event : Event) (releaseOnCancel : Bool) :
    transition .stopped event releaseOnCancel = .error ⟨.stopped, event⟩ := by
  cases event <;> rfl

/-- A leadership state machine: its phase and whether the lock is released when
an episode ends without being lost. -/
structure Machine where
  phase : Phase
  releaseOnCancel : Bool
deriving Repr, DecidableEq, Inhabited

namespace Machine

/-- A machine at its start. -/
def new (releaseOnCancel : Bool) : Machine := ⟨.candidate, releaseOnCancel⟩

/-- Takes an event in. A refused event leaves the machine as it was. -/
def handle (m : Machine) (event : Event) : Machine × Except InvalidTransition (List Effect) :=
  match transition m.phase event m.releaseOnCancel with
  | .ok (next, effects) => ({ m with phase := next }, .ok effects)
  | .error e => (m, .error e)

/-- Takes a list of events in, one after another. -/
def run (m : Machine) : List Event → List (Machine × Except InvalidTransition (List Effect))
  | [] => []
  | event :: rest =>
    let answer := m.handle event
    answer :: answer.1.run rest

/-- An event that is refused leaves the machine alone. -/
theorem handle_refused (m : Machine) (event : Event) (e : InvalidTransition)
    (h : (m.handle event).2 = .error e) : (m.handle event).1 = m := by
  unfold handle at h ⊢
  split
  · rename_i next effects heq
    rw [heq] at h
    cases h
  · rfl

end Machine

end Tenure.Leader
