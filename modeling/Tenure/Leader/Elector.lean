import Tenure.Lease.Client
import Tenure.Leader.Phase
import Tenure.Leader.Timing
import Tenure.Metrics

/-!
# `Tenure.Leader.Elector`: competing for leadership and keeping it

An elector drives a lease client through the leadership state machine. As a
candidate it tries to take the lease, a retry period apart. As a leader it runs
an episode and renews the lease; when a renewal has not landed by the renew
deadline, counted from the start of the last write that landed, leadership is
lost. At the end of an episode its body is awaited before the lock is released
and the end is announced.

An elector is a reactive machine. What happens to it from outside is that it is
told to shut down (`cancel`), that the body of its episode ends (`endBody`) and
that the store replies to the call it has out (`answer`). What it does by itself
are single steps (`advance`): a step that is due at once is `urgent` and comes
before any reply, a step that waits for a timer comes after it. A reply is taken
as long as the elector has not turned to something else; being told to shut down
comes first, the end of the episode's body second, the store third.
-/

set_option autoImplicit false

namespace Tenure.Leader

open Lease

/-- An episode of leadership in flight: whether its token is cancelled, and
whether its body has ended. -/
structure Episode where
  cancelled : Bool
  ended : Bool
deriving Repr, DecidableEq, Inhabited

/-- What an elector is doing. -/
inductive Stage
  /-- About to do what its phase asks for. -/
  | ready
  /-- Doing what a transition asks for, one effect after another. -/
  | performing (cause : Event) (effects : List Effect)
  /-- Waiting, after an episode, before it competes again. -/
  | backingOff (wake : Nat)
  /-- An attempt to take the lease is under way. -/
  | competing (started : Nat) (attempt : Attempt)
  /-- Waiting between two attempts. -/
  | retrying (wake : Nat)
  /-- Leading, and waiting before the next renewal. -/
  | resting (wake deadline : Nat)
  /-- Leading, and a renewal is under way. -/
  | renewing (deadline started : Nat) (attempt : Attempt)
  /-- Leading, and waiting after a renewal that failed. -/
  | pausing (wake deadline : Nat)
  /-- Waiting for the body of the episode. -/
  | stopping (cause : Event) (effects : List Effect)
  /-- Giving the lock up, until a limit. -/
  | releasing (cause : Event) (effects : List Effect) (limit : Nat) (surrender : Surrender)
  /-- Waiting for the body of the episode after a refused event. -/
  | aborting (error : InvalidTransition)
  /-- Returned. -/
  | finished (error : Option InvalidTransition)
deriving Repr, DecidableEq, Inhabited

/-- One candidate for leadership. -/
structure Elector where
  client : Client
  timing : Timing
  machine : Machine
  stage : Stage
  /-- Start of the last attempt that took or renewed the lease. -/
  lastRenewal : Nat
  /-- Whether to wait before competing again. -/
  backoff : Bool
  /-- Whether it was told to shut down. -/
  shutdown : Bool
  episode : Option Episode
  /-- Whether it says that it leads. -/
  leading : Bool
  /-- How many episodes it has started. -/
  episodes : Nat
  /-- The holder that it has last seen in the store. -/
  holder : Option String
deriving Repr, DecidableEq, Inhabited

/-- What others see an elector do. -/
inductive Note
  /-- The holder seen in the store has changed. -/
  | newLeader (holder : String)
  /-- An episode starts, and its body with it. -/
  | started
  /-- The token of the episode is cancelled. -/
  | cancelled
  /-- The end of an episode is announced. -/
  | stopped
  | measured (measurement : Measurement)
deriving Repr, DecidableEq, Inhabited

namespace Elector

/-- A candidate that has done nothing yet. -/
def new (client : Client) (timing : Timing) (releaseOnCancel : Bool) (now : Nat) : Elector where
  client := client
  timing := timing
  machine := .new releaseOnCancel
  stage := .ready
  lastRenewal := now
  backoff := false
  shutdown := false
  episode := none
  leading := false
  episodes := 0
  holder := none

/-- Whether the body of the episode has ended. -/
def bodyEnded (e : Elector) : Bool := e.episode.any Episode.ended

/-! ### What happens to an elector -/

/-- Tells the elector to shut down. The token of its episode is cancelled with
it. -/
def cancel (e : Elector) : Elector × List Note :=
  match e.episode with
  | none => ({ e with shutdown := true }, [])
  | some episode =>
    ({ e with shutdown := true, episode := some { episode with cancelled := true } },
      if episode.cancelled then [] else [.cancelled])

/-- The body of the episode ends. -/
def endBody (e : Elector) : Elector :=
  { e with episode := e.episode.map fun episode => { episode with ended := true } }

/-! ### What an elector does -/

/-- Puts an event to the state machine and turns to what it asks for. -/
def handle (e : Elector) (event : Event) : Elector :=
  match e.machine.handle event with
  | (machine, .ok effects) => { e with machine := machine, stage := .performing event effects }
  | (_, .error error) => { e with stage := .aborting error }

/-- Begins an attempt to take the lease. -/
def compete (e : Elector) (now : Moment) : Elector :=
  { e with stage := .competing now.instant (.looking now.wall) }

/-- Begins an attempt to renew the lease. -/
def renew (e : Elector) (deadline : Nat) (now : Moment) : Elector :=
  { e with stage := .renewing deadline now.instant (.looking now.wall) }

/-- Takes notice of the holder that an attempt has seen. -/
def observe (e : Elector) (outcome : Outcome) : Elector × List Note :=
  match outcome.holder with
  | none => (e, [])
  | some holder =>
    if e.holder = some holder then (e, [])
    else ({ e with holder := some holder }, [.newLeader holder])

/-- Does what the phase asks for. -/
def turn (e : Elector) (now : Moment) (delay : Duration) : Elector :=
  match e.machine.phase with
  | .candidate =>
    if e.shutdown then { e with backoff := false }.handle .cancelled
    else if e.backoff then
      { e with backoff := false, stage := .backingOff (Clock.after now.instant delay) }
    else e.compete now
  | .leading =>
    if e.shutdown then e.handle .cancelled
    else if e.episode.isNone || e.bodyEnded then e.handle .episodeFinished
    else
      { e with stage := .resting (Clock.after now.instant e.timing.retryPeriod)
                                 (Clock.after e.lastRenewal e.timing.renewDeadline) }
  | .lost => e.handle .stoppedNotified
  | .released => e.handle .stoppedNotified
  | .stopped => { e with stage := .finished none }

/-- Starts an episode. -/
def startEpisode (e : Elector) : Elector × List Note :=
  ({ e with
      episode := some ⟨e.shutdown, false⟩
      leading := true
      episodes := e.episodes + 1 },
    [.measured (.leading e.client.identity true), .measured .transition, .started])

/-- What an episode that ended for this cause is counted as. -/
def endOf : Event → EpisodeEnd
  | .renewFailed => .lost
  | .cancelled => .cancelled
  | _ => .finished

/-- Announces the end of an episode. An episode that ended by itself is followed
by a wait. -/
def notifyStopped (e : Elector) (cause : Event) : Elector × List Note :=
  ({ e with backoff := cause != .cancelled, leading := false },
    [.measured (.leading e.client.identity false), .measured (.episode (endOf cause).name),
     .stopped])

/-- Cancels the token of the episode, and goes on when its body has ended. -/
def cancelEpisode (e : Elector) (cause : Event) (rest : List Effect) : Elector × List Note :=
  match e.episode with
  | none => ({ e with stage := .performing cause rest }, [])
  | some episode =>
    ({ e with
        episode := if episode.ended then none else some { episode with cancelled := true }
        stage := if episode.ended then .performing cause rest else .stopping cause rest },
      if episode.cancelled || episode.ended then [] else [.cancelled])

/-- Does one effect of a transition. -/
def perform (e : Elector) (cause : Event) (effect : Effect) (rest : List Effect) (now : Moment) :
    Elector × List Note :=
  match effect with
  | .startEpisode =>
    let (e, notes) := e.startEpisode
    ({ e with stage := .performing cause rest }, notes)
  | .cancelEpisode => e.cancelEpisode cause rest
  | .releaseLock =>
    ({ e with
        stage := .releasing cause rest (Clock.after now.instant e.timing.retryPeriod) .looking },
      [])
  | .notifyStopped =>
    let (e, notes) := e.notifyStopped cause
    ({ e with stage := .performing cause rest }, notes)
  | .exit => ({ e with stage := .performing cause rest }, [])

/-- Counts a renewal that has failed for good, and gives leadership up. -/
def loseLease (e : Elector) : Elector × List Note :=
  (e.handle .renewFailed, [.measured .renewFailure])

/-- Whether the elector has something to do that comes before any reply. -/
def urgent (e : Elector) : Bool :=
  match e.stage with
  | .ready | .performing .. => true
  | .backingOff _ | .competing .. | .retrying _ => e.shutdown
  | .resting .. | .renewing .. | .pausing .. => e.shutdown || e.bodyEnded
  | .stopping .. | .aborting _ => e.episode.isNone || e.bodyEnded
  | .releasing .. | .finished _ => false

/-- Does what comes before any reply. -/
def advanceUrgent (e : Elector) (now : Moment) (delay : Duration) : Elector × List Note :=
  match e.stage with
  | .ready => (e.turn now delay, [])
  | .performing _ [] => ({ e with stage := .ready }, [])
  | .performing cause (effect :: rest) => e.perform cause effect rest now
  | .backingOff _ | .competing .. | .retrying _ => (e.handle .cancelled, [])
  | .resting .. | .renewing .. | .pausing .. =>
    (e.handle (if e.shutdown then .cancelled else .episodeFinished), [])
  | .stopping cause rest => ({ e with episode := none, stage := .performing cause rest }, [])
  | .aborting error => ({ e with episode := none, stage := .finished (some error) }, [])
  | .releasing .. | .finished _ => (e, [])

/-- Does what a timer has called for, if one has rung. -/
def advanceTimer (e : Elector) (now : Moment) (delay : Duration) : Option (Elector × List Note) :=
  match e.stage with
  | .backingOff wake | .retrying wake =>
    if Clock.reached wake now.instant then some (e.compete now, []) else none
  | .competing started _ =>
    if Clock.reached (Clock.after started e.timing.renewDeadline) now.instant then
      some ({ e with stage := .retrying (Clock.after now.instant delay) },
        [.measured (.acquireAttempt "timeout")])
    else none
  | .resting wake deadline =>
    if Clock.reached wake now.instant then some (e.renew deadline now, []) else none
  | .renewing deadline _ _ =>
    if Clock.reached deadline now.instant then some e.loseLease else none
  | .pausing wake deadline =>
    if Clock.reached wake now.instant then some (e.renew deadline now, [])
    else if Clock.reached deadline now.instant then some e.loseLease
    else none
  | .releasing cause rest limit _ =>
    if Clock.reached limit now.instant then some ({ e with stage := .performing cause rest }, [])
    else none
  | _ => none

/-- The next step that the elector takes by itself, if there is one now. The
delay is the stretched retry period to wait for if the step asks for one. -/
def advance (e : Elector) (now : Moment) (delay : Duration) : Option (Elector × List Note) :=
  if e.urgent then some (e.advanceUrgent now delay) else e.advanceTimer now delay

/-- The instant for which the next timer is set. -/
def due (e : Elector) : Option Nat :=
  match e.stage with
  | .backingOff wake | .retrying wake => some wake
  | .competing started _ => some (Clock.after started e.timing.renewDeadline)
  | .resting wake _ => some wake
  | .renewing deadline _ _ => some deadline
  | .pausing wake deadline => some (min wake deadline)
  | .releasing _ _ limit _ => some limit
  | _ => none

/-! ### Talking to the store -/

/-- The store call that is out, if the elector is waiting for its reply. -/
def request? (e : Elector) : Option Store.Request :=
  if e.urgent then none
  else match e.stage with
    | .competing _ attempt => some attempt.request
    | .renewing _ _ attempt => some attempt.request
    | .releasing _ _ _ surrender => some surrender.request
    | _ => none

/-- Takes the end of an attempt to take the lease. -/
def acquired (e : Elector) (started : Nat) (result : Except Store.Error Outcome) (now : Moment)
    (delay : Duration) : Elector × List Note :=
  match result with
  | .ok outcome =>
    let (e, notes) := e.observe outcome
    if outcome.granted then
      ({ e with lastRenewal := started }.handle .acquired,
        notes ++ [.measured (.acquireAttempt "granted")])
    else
      ({ e with stage := .retrying (Clock.after now.instant delay) },
        notes ++ [.measured (.acquireAttempt "held")])
  | .error error =>
    ({ e with stage := .retrying (Clock.after now.instant delay) },
      [.measured (.acquireAttempt error.reason)])

/-- Takes the end of an attempt to renew the lease. -/
def renewed (e : Elector) (deadline started : Nat) (result : Except Store.Error Outcome)
    (now : Moment) : Elector × List Note :=
  match result with
  | .ok outcome =>
    let (e, notes) := e.observe outcome
    if outcome.granted then ({ e with lastRenewal := started }.handle .renewed, notes)
    else
      let (e, lost) := e.loseLease
      (e, notes ++ lost)
  | .error _ =>
    ({ e with stage := .pausing (Clock.after now.instant e.timing.retryPeriod) deadline }, [])

/-- Takes the reply to the call that is out. -/
def answer (e : Elector) (now : Moment) (delay : Duration) (reply : Store.Reply) :
    Elector × List Note :=
  match e.stage with
  | .competing started attempt =>
    match e.client.answer attempt now.instant reply with
    | (client, .ask attempt) =>
      ({ e with client := client, stage := .competing started attempt }, [])
    | (client, .finished result) => { e with client := client }.acquired started result now delay
  | .renewing deadline started attempt =>
    match e.client.answer attempt now.instant reply with
    | (client, .ask attempt) =>
      ({ e with client := client, stage := .renewing deadline started attempt }, [])
    | (client, .finished result) => { e with client := client }.renewed deadline started result now
  | .releasing cause rest limit surrender =>
    match e.client.answerRelease surrender now reply with
    | (client, .ask surrender) =>
      ({ e with client := client, stage := .releasing cause rest limit surrender }, [])
    | (client, .finished _) => ({ e with client := client, stage := .performing cause rest }, [])
  | _ => (e, [])

/-- Whether the elector has returned. -/
def isDone (e : Elector) : Bool :=
  match e.stage with
  | .finished _ => true
  | _ => false

end Elector

end Tenure.Leader
