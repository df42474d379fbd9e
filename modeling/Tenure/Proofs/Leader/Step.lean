import Tenure.Leader.Elector

/-!
# `Tenure.Proofs.Leader.Step`: what an elector can do next

`Elector.advance` and `Elector.answer` are tables of cases. This module reads
them once, for electors whose parts agree (`Elector.Coherent`): `Step` lists what
an elector does by itself and `Taken` what it does with a reply, each with the
state that follows. Later proofs are by cases on these two. The theorems:

* `Coherent.step`: whatever a coherent elector does by itself is a `Step`.
* `Coherent.taken`: whatever it does with a reply is `Taken`.
* `Step.coherent` and `Taken.coherent`: both lead to a coherent elector again, so
  a refused event never comes up.
-/

set_option autoImplicit false

namespace Tenure.Leader

open Lease Store

namespace Elector

/-- The elector runs no episode and does not say that it leads. -/
def IsIdle (e : Elector) : Prop := e.episode = none ∧ e.leading = false

/-- The elector runs an episode and says that it leads. -/
def InOffice (e : Elector) : Prop := (∃ episode, e.episode = some episode) ∧ e.leading = true

/-- The episode is over, and its end is not announced yet. -/
def IsLeaving (e : Elector) : Prop := e.episode = none ∧ e.leading = true

/-- Leadership has ended, and the elector is no candidate yet. -/
def IsOut (e : Elector) : Prop := e.machine.phase = .lost ∨ e.machine.phase = .released

/-- An elector whose leadership has ended does not lead. -/
theorem IsOut.ne_leading {e : Elector} (h : e.IsOut) : e.machine.phase ≠ .leading := by
  rcases h with hphase | hphase <;> simp [hphase]

/-- The parts agree when nothing is left to be done. -/
def IsSettled (e : Elector) : Prop :=
  match e.machine.phase with
  | .leading => e.InOffice
  | .stopped => e.IsIdle ∧ e.shutdown = true
  | _ => e.IsIdle

/-- What is left to be done at the end of an episode whose body has ended. -/
inductive Closing : List Effect → Prop
  | announce : Closing [.notifyStopped]
  | release : Closing [.releaseLock, .notifyStopped]

/-- The parts agree while effects are left to be performed. -/
inductive Pending (e : Elector) : List Effect → Prop
  | nothing : e.IsSettled → Pending e []
  | start : e.machine.phase = .leading → e.IsIdle → Pending e [.startEpisode]
  | exit : e.machine.phase = .stopped → e.IsIdle → e.shutdown = true → Pending e [.exit]
  | cancel {rest : List Effect} :
      e.IsOut → e.InOffice → Closing rest → Pending e (.cancelEpisode :: rest)
  | close {effects : List Effect} : e.IsOut → e.IsLeaving → Closing effects → Pending e effects

/-- The stage, the phase, the episode and what the elector says of itself agree. -/
def Coherent (e : Elector) : Prop :=
  match e.stage with
  | .ready => e.IsSettled
  | .performing _ effects => e.Pending effects
  | .backingOff _ | .competing .. | .retrying _ => e.machine.phase = .candidate ∧ e.IsIdle
  | .resting .. | .renewing .. | .pausing .. => e.machine.phase = .leading ∧ e.InOffice
  | .stopping _ rest =>
    e.IsOut ∧ Closing rest ∧ (∃ episode, e.episode = some episode ∧ episode.cancelled = true)
      ∧ e.leading = true
  | .releasing _ rest _ _ => e.IsOut ∧ rest = [.notifyStopped] ∧ e.IsLeaving
  | .aborting _ => False
  | .finished error => error = none ∧ e.machine.phase = .stopped ∧ e.IsIdle ∧ e.shutdown = true

/-- An accepted event moves the machine and turns to its effects. -/
theorem handle_eq {e : Elector} {event : Event} {next : Phase} {effects : List Effect}
    (h : transition e.machine.phase event e.machine.releaseOnCancel = .ok (next, effects)) :
    e.handle event = { e with
      machine := { e.machine with phase := next }
      stage := .performing event effects } := by
  unfold handle Machine.handle
  rw [h]

/-- What an elector does by itself, from a state `e`. -/
inductive Step (now : Moment) (delay : Duration) (e : Elector) : Elector → List Note → Prop
  /-- A candidate that is told to shut down stops for good. -/
  | withdraw (backoff : Bool) (hphase : e.machine.phase = .candidate)
      (hshutdown : e.shutdown = true) (hidle : e.IsIdle) :
      Step now delay e { e with
        backoff := backoff
        machine := { e.machine with phase := .stopped }
        stage := .performing .cancelled [.exit] } []
  /-- A candidate whose last episode ended by itself waits first. -/
  | backOff (hstage : e.stage = .ready) (hphase : e.machine.phase = .candidate)
      (hidle : e.IsIdle) :
      Step now delay e { e with
        backoff := false
        stage := .backingOff (Clock.after now.instant delay) } []
  /-- An attempt to take the lease begins. -/
  | compete (hstage : e.stage = .ready ∨ (∃ wake, e.stage = .backingOff wake)
        ∨ ∃ wake, e.stage = .retrying wake)
      (hphase : e.machine.phase = .candidate) (hidle : e.IsIdle) :
      Step now delay e (e.compete now) []
  /-- An attempt to take the lease has taken too long. -/
  | giveUp {started : Nat} {attempt : Attempt} (hstage : e.stage = .competing started attempt)
      (hphase : e.machine.phase = .candidate) (hidle : e.IsIdle) :
      Step now delay e { e with stage := .retrying (Clock.after now.instant delay) }
        [.measured (.acquireAttempt "timeout")]
  /-- A leader waits before the next renewal. -/
  | rest (hstage : e.stage = .ready) (hphase : e.machine.phase = .leading)
      (hoffice : e.InOffice) :
      Step now delay e { e with
        stage := .resting (Clock.after now.instant e.timing.retryPeriod)
                          (Clock.after e.lastRenewal e.timing.renewDeadline) } []
  /-- A renewal begins. -/
  | renew {wake deadline : Nat}
      (hstage : e.stage = .resting wake deadline ∨ e.stage = .pausing wake deadline)
      (hrung : Clock.ring wake ≤ now.instant)
      (hphase : e.machine.phase = .leading) (hoffice : e.InOffice) :
      Step now delay e (e.renew deadline now) []
  /-- A renewal has missed its deadline. -/
  | lose {deadline : Nat}
      (hstage : (∃ started attempt, e.stage = .renewing deadline started attempt)
        ∨ ∃ wake, e.stage = .pausing wake deadline)
      (hrung : Clock.ring deadline ≤ now.instant)
      (hphase : e.machine.phase = .leading) (hoffice : e.InOffice) :
      Step now delay e { e with
        machine := { e.machine with phase := .lost }
        stage := .performing .renewFailed [.cancelEpisode, .notifyStopped] }
        [.measured .renewFailure]
  /-- A leader gives leadership up, told to shut down or left by its episode. -/
  | relinquish (event : Event)
      (hevent : event = .cancelled ∧ e.shutdown = true
        ∨ event = .episodeFinished ∧ e.bodyEnded = true)
      (hphase : e.machine.phase = .leading) (hoffice : e.InOffice) :
      Step now delay e { e with
        machine := { e.machine with phase := .released }
        stage := .performing event (Leader.relinquish e.machine.releaseOnCancel) } []
  /-- The end was announced, and the elector is a candidate again. -/
  | resume (hstage : e.stage = .ready) (hout : e.IsOut) (hidle : e.IsIdle) :
      Step now delay e { e with
        machine := { e.machine with phase := .candidate }
        stage := .performing .stoppedNotified [] } []
  /-- The elector returns. -/
  | finish (hstage : e.stage = .ready) (hphase : e.machine.phase = .stopped) (hidle : e.IsIdle)
      (hshutdown : e.shutdown = true) :
      Step now delay e { e with stage := .finished none } []
  /-- All effects are performed. -/
  | settle {cause : Event} (hstage : e.stage = .performing cause []) (hsettled : e.IsSettled) :
      Step now delay e { e with stage := .ready } []
  /-- An episode starts. -/
  | start {cause : Event} (hstage : e.stage = .performing cause [.startEpisode])
      (hphase : e.machine.phase = .leading) (hidle : e.IsIdle) :
      Step now delay e { e.startEpisode.1 with stage := .performing cause [] } e.startEpisode.2
  /-- The elector is on its way out. -/
  | exit {cause : Event} (hstage : e.stage = .performing cause [.exit])
      (hphase : e.machine.phase = .stopped) (hidle : e.IsIdle) (hshutdown : e.shutdown = true) :
      Step now delay e { e with stage := .performing cause [] } []
  /-- The token of the episode is cancelled, and its body has to be awaited. -/
  | revoke {cause : Event} {rest : List Effect} {episode : Episode}
      (hstage : e.stage = .performing cause (.cancelEpisode :: rest))
      (hepisode : e.episode = some episode) (hended : episode.ended = false)
      (hout : e.IsOut) (hleading : e.leading = true) (hrest : Closing rest) :
      Step now delay e { e with
        episode := some { episode with cancelled := true }
        stage := .stopping cause rest } (if episode.cancelled then [] else [.cancelled])
  /-- The body of the episode has ended, and the episode is over. -/
  | dismiss {cause : Event} {rest : List Effect} {episode : Episode}
      (hstage : e.stage = .performing cause (.cancelEpisode :: rest)
        ∨ e.stage = .stopping cause rest)
      (hepisode : e.episode = some episode) (hended : episode.ended = true)
      (hout : e.IsOut) (hleading : e.leading = true) (hrest : Closing rest) :
      Step now delay e { e with episode := none, stage := .performing cause rest } []
  /-- The elector begins to give the lock up. -/
  | release {cause : Event} (hstage : e.stage = .performing cause [.releaseLock, .notifyStopped])
      (hout : e.IsOut) (hleaving : e.IsLeaving) :
      Step now delay e { e with
        stage := .releasing cause [.notifyStopped]
          (Clock.after now.instant e.timing.retryPeriod) .looking } []
  /-- Giving the lock up has taken too long. -/
  | abandon {cause : Event} {limit : Nat} {surrender : Surrender}
      (hstage : e.stage = .releasing cause [.notifyStopped] limit surrender)
      (hout : e.IsOut) (hleaving : e.IsLeaving) :
      Step now delay e { e with stage := .performing cause [.notifyStopped] } []
  /-- The end of the episode is announced. -/
  | announce {cause : Event} (hstage : e.stage = .performing cause [.notifyStopped])
      (hout : e.IsOut) (hleaving : e.IsLeaving) :
      Step now delay e { (e.notifyStopped cause).1 with stage := .performing cause [] }
        (e.notifyStopped cause).2

/-- The notes say nothing about an episode. -/
def Quiet (notes : List Note) : Prop :=
  ∀ note ∈ notes, (∃ holder, note = .newLeader holder) ∨ ∃ m, note = .measured m

/-- What an elector does with a reply, from a state `e`. -/
inductive Taken (now : Moment) (delay : Duration) (reply : Reply) (e : Elector) :
    Elector → List Note → Prop
  /-- The attempt to take the lease goes on with another call. -/
  | ask {started : Nat} {attempt next : Attempt} {client : Client}
      (hstage : e.stage = .competing started attempt)
      (hreply : e.client.answer attempt now.instant reply = (client, .ask next))
      (hphase : e.machine.phase = .candidate) (hidle : e.IsIdle) :
      Taken now delay reply e { e with client := client, stage := .competing started next } []
  /-- The lease is taken. -/
  | win {started : Nat} {attempt : Attempt} {client : Client} {outcome : Outcome}
      {holder : Option String} {notes : List Note}
      (hstage : e.stage = .competing started attempt)
      (hreply : e.client.answer attempt now.instant reply = (client, .finished (.ok outcome)))
      (hgranted : outcome.granted = true)
      (hphase : e.machine.phase = .candidate) (hidle : e.IsIdle) (hquiet : Quiet notes) :
      Taken now delay reply e { e with
        client := client
        holder := holder
        lastRenewal := started
        machine := { e.machine with phase := .leading }
        stage := .performing .acquired [.startEpisode] } notes
  /-- The attempt to take the lease has ended without it. -/
  | miss {started : Nat} {attempt : Attempt} {client : Client} {result : Except Error Outcome}
      {holder : Option String} {notes : List Note}
      (hstage : e.stage = .competing started attempt)
      (hreply : e.client.answer attempt now.instant reply = (client, .finished result))
      (hdenied : ∀ outcome, result = .ok outcome → outcome.granted = false)
      (hphase : e.machine.phase = .candidate) (hidle : e.IsIdle) (hquiet : Quiet notes) :
      Taken now delay reply e { e with
        client := client
        holder := holder
        stage := .retrying (Clock.after now.instant delay) } notes
  /-- The renewal goes on with another call. -/
  | askAgain {deadline started : Nat} {attempt next : Attempt} {client : Client}
      (hstage : e.stage = .renewing deadline started attempt)
      (hreply : e.client.answer attempt now.instant reply = (client, .ask next))
      (hphase : e.machine.phase = .leading) (hoffice : e.InOffice) :
      Taken now delay reply e
        { e with client := client, stage := .renewing deadline started next } []
  /-- The lease is renewed. -/
  | keep {deadline started : Nat} {attempt : Attempt} {client : Client} {outcome : Outcome}
      {holder : Option String} {notes : List Note}
      (hstage : e.stage = .renewing deadline started attempt)
      (hreply : e.client.answer attempt now.instant reply = (client, .finished (.ok outcome)))
      (hgranted : outcome.granted = true)
      (hphase : e.machine.phase = .leading) (hoffice : e.InOffice) (hquiet : Quiet notes) :
      Taken now delay reply e { e with
        client := client
        holder := holder
        lastRenewal := started
        stage := .performing .renewed [] } notes
  /-- Someone else has the lease. -/
  | lose {deadline started : Nat} {attempt : Attempt} {client : Client} {outcome : Outcome}
      {holder : Option String} {notes : List Note}
      (hstage : e.stage = .renewing deadline started attempt)
      (hreply : e.client.answer attempt now.instant reply = (client, .finished (.ok outcome)))
      (hdenied : outcome.granted = false)
      (hphase : e.machine.phase = .leading) (hoffice : e.InOffice) (hquiet : Quiet notes) :
      Taken now delay reply e { e with
        client := client
        holder := holder
        machine := { e.machine with phase := .lost }
        stage := .performing .renewFailed [.cancelEpisode, .notifyStopped] } notes
  /-- The renewal has failed, and will be tried again. -/
  | fail {deadline started : Nat} {attempt : Attempt} {client : Client} {error : Error}
      (hstage : e.stage = .renewing deadline started attempt)
      (hreply : e.client.answer attempt now.instant reply = (client, .finished (.error error)))
      (hphase : e.machine.phase = .leading) (hoffice : e.InOffice) :
      Taken now delay reply e { e with
        client := client
        stage := .pausing (Clock.after now.instant e.timing.retryPeriod) deadline } []
  /-- Giving the lock up goes on with another call. -/
  | vacate {cause : Event} {limit : Nat} {surrender next : Surrender} {client : Client}
      (hstage : e.stage = .releasing cause [.notifyStopped] limit surrender)
      (hreply : e.client.answerRelease surrender now reply = (client, .ask next))
      (hout : e.IsOut) (hleaving : e.IsLeaving) :
      Taken now delay reply e { e with
        client := client
        stage := .releasing cause [.notifyStopped] limit next } []
  /-- Giving the lock up has ended, with the lock or without it. -/
  | leave {cause : Event} {limit : Nat} {surrender : Surrender} {client : Client}
      {result : Except Error Bool}
      (hstage : e.stage = .releasing cause [.notifyStopped] limit surrender)
      (hreply : e.client.answerRelease surrender now reply = (client, .finished result))
      (hout : e.IsOut) (hleaving : e.IsLeaving) :
      Taken now delay reply e { e with
        client := client
        stage := .performing cause [.notifyStopped] } []

variable {e e' : Elector} {now : Moment} {delay : Duration} {reply : Reply} {notes : List Note}

/-! ### Every step is one of these -/

/-- A coherent elector that is ready takes one of the steps. -/
theorem Coherent.turn (h : e.Coherent) (hstage : e.stage = .ready) :
    Step now delay e (e.turn now delay) [] := by
  have hs : e.IsSettled := by simpa [Coherent, hstage] using h
  -- the phase decides what is next; the flag and the body can change it in the two phases that go
  -- on
  cases hphase : e.machine.phase with
  | candidate =>
    have hidle : e.IsIdle := by simpa [IsSettled, hphase] using hs
    simp only [Elector.turn, hphase]
    split
    · rename_i hshutdown
      rw [handle_eq (by simp only [hphase]; rfl)]
      exact .withdraw false hphase hshutdown hidle
    · split
      · exact .backOff hstage hphase hidle
      · exact .compete (.inl hstage) hphase hidle
  | leading =>
    have hoffice : e.InOffice := by simpa [IsSettled, hphase] using hs
    obtain ⟨episode, hepisode⟩ := hoffice.1
    simp only [Elector.turn, hphase]
    split
    · rename_i hshutdown
      rw [handle_eq (by rw [hphase]; rfl)]
      exact .relinquish .cancelled (.inl ⟨rfl, hshutdown⟩) hphase hoffice
    · split
      · rename_i hended
        have hbody : e.bodyEnded = true := by simpa [hepisode] using hended
        rw [handle_eq (by rw [hphase]; rfl)]
        exact .relinquish .episodeFinished (.inr ⟨rfl, hbody⟩) hphase hoffice
      · exact .rest hstage hphase hoffice
  | lost =>
    have hidle : e.IsIdle := by simpa [IsSettled, hphase] using hs
    simp only [Elector.turn, hphase]
    rw [handle_eq (by rw [hphase]; rfl)]
    exact .resume hstage (.inl hphase) hidle
  | released =>
    have hidle : e.IsIdle := by simpa [IsSettled, hphase] using hs
    simp only [Elector.turn, hphase]
    rw [handle_eq (by rw [hphase]; rfl)]
    exact .resume hstage (.inr hphase) hidle
  | stopped =>
    have hdone : e.IsIdle ∧ e.shutdown = true := by simpa [IsSettled, hphase] using hs
    simp only [Elector.turn, hphase]
    exact .finish hstage hphase hdone.1 hdone.2

/-- A coherent elector performs the next effect in one of the steps. -/
theorem Coherent.perform {cause : Event} {effect : Effect} {rest : List Effect}
    (h : e.Coherent) (hstage : e.stage = .performing cause (effect :: rest)) :
    Step now delay e (e.perform cause effect rest now).1 (e.perform cause effect rest now).2 := by
  have hp : e.Pending (effect :: rest) := by simpa [Coherent, hstage] using h
  cases hp with
  | start hphase hidle => exact .start hstage hphase hidle
  | exit hphase hidle hshutdown => exact .exit hstage hphase hidle hshutdown
  | cancel hout hoffice hrest =>
    obtain ⟨⟨episode, hepisode⟩, hleading⟩ := hoffice
    -- a body that has ended needs no cancelled token
    cases hended : episode.ended with
    | true =>
      have hstep : Step now delay e _ _ :=
        .dismiss (.inl hstage) hepisode hended hout hleading hrest
      simpa [Elector.perform, cancelEpisode, hepisode, hended] using hstep
    | false =>
      have hstep : Step now delay e _ _ := .revoke hstage hepisode hended hout hleading hrest
      simpa [Elector.perform, cancelEpisode, hepisode, hended] using hstep
  | close hout hleaving hrest =>
    cases hrest with
    | announce => exact .announce hstage hout hleaving
    | release => exact .release hstage hout hleaving

/-- A candidate that is told to shut down withdraws. -/
theorem withdraw_of_shutdown (hc : e.machine.phase = .candidate ∧ e.IsIdle)
    (hshutdown : e.shutdown = true) : Step now delay e (e.handle .cancelled) [] := by
  rw [handle_eq (by rw [hc.1]; rfl)]
  exact .withdraw e.backoff hc.1 hshutdown hc.2

/-- A leader that is told to shut down or left by its episode gives up. -/
theorem relinquish_of_urgent (hc : e.machine.phase = .leading ∧ e.InOffice)
    (hurgent : e.shutdown = true ∨ e.bodyEnded = true) :
    Step now delay e (e.handle (if e.shutdown then .cancelled else .episodeFinished)) [] := by
  cases hshutdown : e.shutdown with
  | true =>
    rw [if_pos rfl, handle_eq (by rw [hc.1]; rfl)]
    exact .relinquish .cancelled (.inl ⟨rfl, hshutdown⟩) hc.1 hc.2
  | false =>
    have hended : e.bodyEnded = true := by simpa [hshutdown] using hurgent
    rw [if_neg (by simp), handle_eq (by rw [hc.1]; rfl)]
    exact .relinquish .episodeFinished (.inr ⟨rfl, hended⟩) hc.1 hc.2

/-- A leader whose deadline has passed loses the lease. -/
theorem lose_of_rung {deadline : Nat}
    (hstage : (∃ started attempt, e.stage = .renewing deadline started attempt)
      ∨ ∃ wake, e.stage = .pausing wake deadline)
    (hrung : Clock.reached deadline now.instant = true)
    (hc : e.machine.phase = .leading ∧ e.InOffice) :
    Step now delay e e.loseLease.1 e.loseLease.2 := by
  unfold loseLease
  rw [handle_eq (by rw [hc.1]; rfl)]
  exact .lose hstage (by simpa [Clock.reached] using hrung) hc.1 hc.2

/-- What is urgent is one of the steps. -/
theorem Coherent.step_urgent (h : e.Coherent) (hurgent : e.urgent = true) :
    Step now delay e (e.advanceUrgent now delay).1 (e.advanceUrgent now delay).2 := by
  unfold Elector.advanceUrgent
  cases hstage : e.stage with
  | ready => exact h.turn hstage
  | performing cause effects =>
    cases effects with
    | nil =>
      have hp : e.Pending [] := by simpa [Coherent, hstage] using h
      -- an episode that is over has its end announced last, so nothing is left only when settled
      cases hp with
      | nothing hsettled => exact .settle hstage hsettled
      | close hout hleaving hrest => cases hrest
    | cons effect rest => exact h.perform hstage
  | backingOff wake =>
    have hc : e.machine.phase = .candidate ∧ e.IsIdle := by simpa [Coherent, hstage] using h
    exact withdraw_of_shutdown hc (by simpa [Elector.urgent, hstage] using hurgent)
  | competing started attempt =>
    have hc : e.machine.phase = .candidate ∧ e.IsIdle := by simpa [Coherent, hstage] using h
    exact withdraw_of_shutdown hc (by simpa [Elector.urgent, hstage] using hurgent)
  | retrying wake =>
    have hc : e.machine.phase = .candidate ∧ e.IsIdle := by simpa [Coherent, hstage] using h
    exact withdraw_of_shutdown hc (by simpa [Elector.urgent, hstage] using hurgent)
  | resting wake deadline =>
    have hc : e.machine.phase = .leading ∧ e.InOffice := by simpa [Coherent, hstage] using h
    exact relinquish_of_urgent hc (by simpa [Elector.urgent, hstage] using hurgent)
  | renewing deadline started attempt =>
    have hc : e.machine.phase = .leading ∧ e.InOffice := by simpa [Coherent, hstage] using h
    exact relinquish_of_urgent hc (by simpa [Elector.urgent, hstage] using hurgent)
  | pausing wake deadline =>
    have hc : e.machine.phase = .leading ∧ e.InOffice := by simpa [Coherent, hstage] using h
    exact relinquish_of_urgent hc (by simpa [Elector.urgent, hstage] using hurgent)
  | stopping cause rest =>
    obtain ⟨hout, hrest, ⟨episode, hepisode, -⟩, hleading⟩ : e.IsOut ∧ Closing rest ∧
        (∃ episode, e.episode = some episode ∧ episode.cancelled = true) ∧ e.leading = true := by
      simpa [Coherent, hstage] using h
    have hended : episode.ended = true := by
      simpa [Elector.urgent, hstage, hepisode, bodyEnded] using hurgent
    exact .dismiss (.inr hstage) hepisode hended hout hleading hrest
  | releasing cause rest limit surrender => simp [Elector.urgent, hstage] at hurgent
  | aborting error => simp [Coherent, hstage] at h
  | finished error => simp [Elector.urgent, hstage] at hurgent

/-- A timer that has rung leads to one of the steps. -/
theorem Coherent.step_timer (h : e.Coherent)
    (hadvance : e.advanceTimer now delay = some (e', notes)) : Step now delay e e' notes := by
  unfold Elector.advanceTimer at hadvance
  cases hstage : e.stage with
  | backingOff wake =>
    have hc : e.machine.phase = .candidate ∧ e.IsIdle := by simpa [Coherent, hstage] using h
    simp only [hstage] at hadvance
    split at hadvance <;> cases hadvance
    exact .compete (.inr (.inl ⟨wake, hstage⟩)) hc.1 hc.2
  | competing started attempt =>
    have hc : e.machine.phase = .candidate ∧ e.IsIdle := by simpa [Coherent, hstage] using h
    simp only [hstage] at hadvance
    split at hadvance <;> cases hadvance
    exact .giveUp hstage hc.1 hc.2
  | retrying wake =>
    have hc : e.machine.phase = .candidate ∧ e.IsIdle := by simpa [Coherent, hstage] using h
    simp only [hstage] at hadvance
    split at hadvance <;> cases hadvance
    exact .compete (.inr (.inr ⟨wake, hstage⟩)) hc.1 hc.2
  | resting wake deadline =>
    -- the deadline is kept in this stage, but no timer is set for it
    have hc : e.machine.phase = .leading ∧ e.InOffice := by simpa [Coherent, hstage] using h
    simp only [hstage] at hadvance
    split at hadvance <;> cases hadvance
    rename_i hrung
    exact .renew (.inl hstage) (by simpa [Clock.reached] using hrung) hc.1 hc.2
  | renewing deadline started attempt =>
    have hc : e.machine.phase = .leading ∧ e.InOffice := by simpa [Coherent, hstage] using h
    simp only [hstage] at hadvance
    split at hadvance <;> cases hadvance
    rename_i hrung
    exact lose_of_rung (.inl ⟨started, attempt, hstage⟩) hrung hc
  | pausing wake deadline =>
    have hc : e.machine.phase = .leading ∧ e.InOffice := by simpa [Coherent, hstage] using h
    simp only [hstage] at hadvance
    split at hadvance
    · rename_i hrung
      cases hadvance
      -- the wake is looked at before the deadline, also when both have rung
      exact .renew (.inr hstage) (by simpa [Clock.reached] using hrung) hc.1 hc.2
    · split at hadvance <;> cases hadvance
      rename_i hrung
      exact lose_of_rung (.inr ⟨wake, hstage⟩) hrung hc
  | releasing cause rest limit surrender =>
    obtain ⟨hout, rfl, hleaving⟩ : e.IsOut ∧ rest = [.notifyStopped] ∧ e.IsLeaving := by
      simpa [Coherent, hstage] using h
    simp only [hstage] at hadvance
    split at hadvance <;> cases hadvance
    exact .abandon hstage hout hleaving
  | ready | performing _ _ | stopping _ _ | aborting _ | finished _ => simp [hstage] at hadvance

/-- Whatever a coherent elector does by itself is one of the steps. -/
theorem Coherent.step (h : e.Coherent) (hadvance : e.advance now delay = some (e', notes)) :
    Step now delay e e' notes := by
  unfold Elector.advance at hadvance
  split at hadvance
  · rename_i hurgent
    obtain ⟨rfl, rfl⟩ :
        (e.advanceUrgent now delay).1 = e' ∧ (e.advanceUrgent now delay).2 = notes := by
      rw [Option.some.inj hadvance]
      exact ⟨rfl, rfl⟩
    exact h.step_urgent hurgent
  · exact h.step_timer hadvance

/-! ### Every reply is taken in one of these ways -/

/-- Noticing the holder changes nothing else, and all that is said is who holds the lock. -/
theorem exists_observe (e : Elector) (outcome : Outcome) : ∃ holder notes,
    e.observe outcome = ({ e with holder := holder }, notes)
      ∧ ∀ note ∈ notes, ∃ seen, note = .newLeader seen := by
  have hnothing : ∀ note ∈ ([] : List Note), ∃ seen, note = .newLeader seen :=
    fun note hnote => by cases hnote
  unfold Elector.observe
  split
  · exact ⟨e.holder, [], rfl, hnothing⟩
  · rename_i seen _
    split
    · exact ⟨e.holder, [], rfl, hnothing⟩
    · exact ⟨some seen, [.newLeader seen], rfl, fun note hnote => ⟨seen, by simpa using hnote⟩⟩

/-- Two lists of notes that say nothing about an episode make one. -/
theorem Quiet.append {before after : List Note} (hbefore : Quiet before) (hafter : Quiet after) :
    Quiet (before ++ after) := by
  intro note hnote
  rcases List.mem_append.mp hnote with h | h
  · exact hbefore note h
  · exact hafter note h

/-- A measurement says nothing about an episode. -/
theorem quiet_measured (m : Measurement) : Quiet [.measured m] := by
  intro note hnote
  exact .inr ⟨m, by simpa using hnote⟩

/-- Saying nothing says nothing about an episode. -/
theorem quiet_nil : Quiet [] := by
  intro note hnote
  cases hnote

/-- The end of an attempt to take the lease is taken in one of the ways. -/
theorem taken_acquired {started : Nat} {attempt : Attempt} {client : Client}
    {result : Except Error Outcome} (hstage : e.stage = .competing started attempt)
    (hreply : e.client.answer attempt now.instant reply = (client, .finished result))
    (hphase : e.machine.phase = .candidate) (hidle : e.IsIdle) :
    Taken now delay reply e
      ({ e with client := client }.acquired started result now delay).1
      ({ e with client := client }.acquired started result now delay).2 := by
  cases result with
  | error error =>
    exact .miss hstage hreply (fun _ h => by cases h) hphase hidle (quiet_measured _)
  | ok outcome =>
    obtain ⟨holder, notes, hobserve, hnotes⟩ := exists_observe { e with client := client } outcome
    have hquiet : Quiet notes := fun note hnote => .inl (hnotes note hnote)
    simp only [Elector.acquired, hobserve]
    cases hgranted : outcome.granted with
    | true =>
      simp only [if_true]
      rw [handle_eq (by simp only [hphase]; rfl)]
      exact .win hstage hreply hgranted hphase hidle (hquiet.append (quiet_measured _))
    | false =>
      simp only [Bool.false_eq_true, if_false]
      exact .miss hstage hreply (fun o h => by cases h; exact hgranted) hphase hidle
        (hquiet.append (quiet_measured _))

/-- The end of an attempt to renew the lease is taken in one of the ways. -/
theorem taken_renewed {deadline started : Nat} {attempt : Attempt} {client : Client}
    {result : Except Error Outcome} (hstage : e.stage = .renewing deadline started attempt)
    (hreply : e.client.answer attempt now.instant reply = (client, .finished result))
    (hphase : e.machine.phase = .leading) (hoffice : e.InOffice) :
    Taken now delay reply e
      ({ e with client := client }.renewed deadline started result now).1
      ({ e with client := client }.renewed deadline started result now).2 := by
  cases result with
  | error error => exact .fail hstage hreply hphase hoffice
  | ok outcome =>
    obtain ⟨holder, notes, hobserve, hnotes⟩ := exists_observe { e with client := client } outcome
    have hquiet : Quiet notes := fun note hnote => .inl (hnotes note hnote)
    simp only [Elector.renewed, hobserve]
    cases hgranted : outcome.granted with
    | true =>
      simp only [if_true]
      rw [handle_eq (by simp only [hphase]; rfl)]
      -- a renewal leaves the phase as it was
      have hsame : e.machine = { e.machine with phase := .leading } := by rw [← hphase]
      rw [← hsame]
      exact .keep hstage hreply hgranted hphase hoffice hquiet
    | false =>
      simp only [Bool.false_eq_true, if_false, loseLease]
      rw [handle_eq (by simp only [hphase]; rfl)]
      exact .lose hstage hreply hgranted hphase hoffice (hquiet.append (quiet_measured _))

/-- Whatever a coherent elector does with a reply to a call that is out is one
of these. -/
theorem Coherent.taken (h : e.Coherent) {request : Request} (hrequest : e.request? = some request) :
    Taken now delay reply e (e.answer now delay reply).1 (e.answer now delay reply).2 := by
  -- a call is out in three stages only
  cases hstage : e.stage with
  | competing started attempt =>
    have hc : e.machine.phase = .candidate ∧ e.IsIdle := by simpa [Coherent, hstage] using h
    simp only [Elector.answer, hstage]
    split
    · rename_i client next hreply
      exact .ask hstage hreply hc.1 hc.2
    · rename_i client result hreply
      have htaken : Taken now delay reply e _ _ := taken_acquired hstage hreply hc.1 hc.2
      simpa only [hstage] using htaken
  | renewing deadline started attempt =>
    have hc : e.machine.phase = .leading ∧ e.InOffice := by simpa [Coherent, hstage] using h
    simp only [Elector.answer, hstage]
    split
    · rename_i client next hreply
      exact .askAgain hstage hreply hc.1 hc.2
    · rename_i client result hreply
      have htaken : Taken now delay reply e _ _ := taken_renewed hstage hreply hc.1 hc.2
      simpa only [hstage] using htaken
  | releasing cause rest limit surrender =>
    obtain ⟨hout, rfl, hleaving⟩ : e.IsOut ∧ rest = [.notifyStopped] ∧ e.IsLeaving := by
      simpa [Coherent, hstage] using h
    simp only [Elector.answer, hstage]
    split
    · rename_i client next hreply
      exact .vacate hstage hreply hout hleaving
    · rename_i client result hreply
      exact .leave hstage hreply hout hleaving
  | ready | performing _ _ | backingOff _ | retrying _ | resting _ _ | pausing _ _
  | stopping _ _ | aborting _ | finished _ =>
    simp [Elector.request?, hstage] at hrequest

/-! ### What follows is coherent again -/

/-- After what an elector does by itself its parts agree. -/
theorem Step.coherent (h : Step now delay e e' notes) : e'.Coherent := by
  -- each step names what it leaves behind, and the parts agree about that
  cases h with
  | withdraw backoff hphase hshutdown hidle => exact .exit rfl hidle hshutdown
  | backOff hstage hphase hidle => exact ⟨hphase, hidle⟩
  | compete hstage hphase hidle => exact ⟨hphase, hidle⟩
  | giveUp hstage hphase hidle => exact ⟨hphase, hidle⟩
  | rest hstage hphase hoffice => exact ⟨hphase, hoffice⟩
  | renew hstage hrung hphase hoffice => exact ⟨hphase, hoffice⟩
  | lose hstage hrung hphase hoffice => exact .cancel (.inl rfl) hoffice .announce
  | relinquish event hevent hphase hoffice =>
    refine .cancel (.inr rfl) hoffice ?_
    cases e.machine.releaseOnCancel with
    | true => exact .release
    | false => exact .announce
  | resume hstage hout hidle => exact .nothing hidle
  | finish hstage hphase hidle hshutdown => exact ⟨rfl, hphase, hidle, hshutdown⟩
  | settle hstage hsettled => exact hsettled
  | start hstage hphase hidle =>
    refine .nothing ?_
    simp only [IsSettled, startEpisode, hphase]
    exact ⟨⟨_, rfl⟩, rfl⟩
  | exit hstage hphase hidle hshutdown =>
    refine .nothing ?_
    simp only [IsSettled, hphase]
    exact ⟨hidle, hshutdown⟩
  | revoke hstage hepisode hended hout hleading hrest =>
    exact ⟨hout, hrest, ⟨_, rfl, rfl⟩, hleading⟩
  | dismiss hstage hepisode hended hout hleading hrest => exact .close hout ⟨rfl, hleading⟩ hrest
  | release hstage hout hleaving => exact ⟨hout, rfl, hleaving⟩
  | abandon hstage hout hleaving => exact .close hout hleaving .announce
  | announce hstage hout hleaving =>
    refine .nothing ?_
    rcases hout with hphase | hphase <;> simp only [IsSettled, notifyStopped, hphase]
    · exact ⟨hleaving.1, rfl⟩
    · exact ⟨hleaving.1, rfl⟩

/-- After what an elector does with a reply its parts agree. -/
theorem Taken.coherent (h : Taken now delay reply e e' notes) : e'.Coherent := by
  cases h with
  | ask hstage hreply hphase hidle => exact ⟨hphase, hidle⟩
  | win hstage hreply hgranted hphase hidle hquiet => exact .start rfl hidle
  | miss hstage hreply hdenied hphase hidle hquiet => exact ⟨hphase, hidle⟩
  | askAgain hstage hreply hphase hoffice => exact ⟨hphase, hoffice⟩
  | keep hstage hreply hgranted hphase hoffice hquiet =>
    refine .nothing ?_
    simp only [IsSettled, hphase]
    exact hoffice
  | lose hstage hreply hdenied hphase hoffice hquiet => exact .cancel (.inl rfl) hoffice .announce
  | fail hstage hreply hphase hoffice => exact ⟨hphase, hoffice⟩
  | vacate hstage hreply hout hleaving => exact ⟨hout, rfl, hleaving⟩
  | leave hstage hreply hout hleaving => exact .close hout hleaving .announce

/-! ### What happens from outside keeps it coherent -/

/-- What happens from outside: the elector may be told to shut down, and the
episode may be changed, but not begun and not ended. -/
def outside (e : Elector) (shutdown : Bool) (f : Episode → Episode) : Elector :=
  { e with shutdown := shutdown, episode := e.episode.map f }

/-- Being told to shut down happens from outside: it sets the flag and cancels the token of the
episode. -/
theorem cancel_eq (e : Elector) :
    e.cancel.1 = e.outside true fun episode => { episode with cancelled := true } := by
  unfold cancel outside
  cases e.episode <;> rfl

/-- The end of a body happens from outside: it marks the episode. -/
theorem endBody_eq (e : Elector) :
    e.endBody = e.outside e.shutdown fun episode => { episode with ended := true } := rfl

section Outside

variable {shutdown : Bool} {f : Episode → Episode}

/-- An idle elector stays idle, whatever happens from outside. -/
theorem isIdle_outside (h : e.IsIdle) : (e.outside shutdown f).IsIdle :=
  ⟨by simp [outside, h.1], h.2⟩

/-- An elector in office stays in office, whatever happens from outside. -/
theorem inOffice_outside (h : e.InOffice) : (e.outside shutdown f).InOffice := by
  obtain ⟨⟨episode, hepisode⟩, hleading⟩ := h
  exact ⟨⟨f episode, by simp [outside, hepisode]⟩, hleading⟩

/-- An elector that is leaving stays so, whatever happens from outside. -/
theorem isLeaving_outside (h : e.IsLeaving) : (e.outside shutdown f).IsLeaving :=
  ⟨by simp [outside, h.1], h.2⟩

/-- The parts of an elector with nothing left to do agree, whatever happens from outside. -/
theorem isSettled_outside (hs : e.shutdown = true → shutdown = true) (h : e.IsSettled) :
    (e.outside shutdown f).IsSettled := by
  have hmachine : (e.outside shutdown f).machine = e.machine := rfl
  unfold IsSettled at h ⊢
  rw [hmachine]
  split at h
  · exact inOffice_outside h
  · exact ⟨isIdle_outside h.1, hs h.2⟩
  · exact isIdle_outside h

/-- The parts of an elector with effects left to perform agree, whatever happens from outside. -/
theorem Pending.outside {effects : List Effect} (hs : e.shutdown = true → shutdown = true)
    (h : e.Pending effects) : (e.outside shutdown f).Pending effects := by
  cases h with
  | nothing hsettled => exact .nothing (isSettled_outside hs hsettled)
  | start hphase hidle => exact .start hphase (isIdle_outside hidle)
  | exit hphase hidle hshutdown => exact .exit hphase (isIdle_outside hidle) (hs hshutdown)
  | cancel hout hoffice hrest => exact .cancel hout (inOffice_outside hoffice) hrest
  | close hout hleaving hrest => exact .close hout (isLeaving_outside hleaving) hrest

/-- What happens from outside leaves the parts in agreement. -/
theorem Coherent.outside (hs : e.shutdown = true → shutdown = true)
    (hf : ∀ episode, episode.cancelled = true → (f episode).cancelled = true)
    (h : e.Coherent) : (e.outside shutdown f).Coherent := by
  have hstage : (e.outside shutdown f).stage = e.stage := rfl
  unfold Coherent at h ⊢
  rw [hstage]
  generalize e.stage = stage at h ⊢
  cases stage with
  | ready => exact isSettled_outside hs h
  | performing cause effects => exact Pending.outside hs h
  | backingOff _ | competing _ _ | retrying _ => exact ⟨h.1, isIdle_outside h.2⟩
  | resting _ _ | renewing _ _ _ | pausing _ _ => exact ⟨h.1, inOffice_outside h.2⟩
  | stopping cause rest =>
    obtain ⟨hout, hrest, ⟨episode, hepisode, hcancelled⟩, hleading⟩ := h
    exact ⟨hout, hrest, ⟨f episode, by simp [Elector.outside, hepisode], hf episode hcancelled⟩,
      hleading⟩
  | releasing cause rest limit surrender => exact ⟨h.1, h.2.1, isLeaving_outside h.2.2⟩
  | aborting error => exact h
  | finished error => exact ⟨h.1, h.2.1, isIdle_outside h.2.2.1, hs h.2.2.2⟩

end Outside

/-- The parts of an elector agree once it is told to shut down. -/
theorem Coherent.cancel (h : e.Coherent) : e.cancel.1.Coherent := by
  rw [cancel_eq]
  exact h.outside (fun _ => rfl) (fun _ _ => rfl)

/-- The parts of an elector agree once its body has ended. -/
theorem Coherent.endBody (h : e.Coherent) : e.endBody.Coherent := by
  rw [endBody_eq]
  exact h.outside id (fun _ hcancelled => hcancelled)

/-- An elector at its start, told to shut down before or not, is coherent. -/
theorem coherent_new (client : Client) (timing : Timing) (release : Bool) (born : Nat)
    (shutdown : Bool) :
    { Elector.new client timing release born with shutdown := shutdown }.Coherent := by
  simp only [Coherent, Elector.new, IsSettled, Machine.new]
  exact ⟨rfl, rfl⟩

/-! ### What never changes -/

/-- By itself an elector does not change its timing. -/
theorem Step.timing_eq (h : Step now delay e e' notes) : e'.timing = e.timing := by
  cases h <;> rfl

/-- A reply does not change the timing. -/
theorem Taken.timing_eq (h : Taken now delay reply e e' notes) : e'.timing = e.timing := by
  cases h <;> rfl

/-- By itself an elector leaves its client alone: only replies tell it anything. -/
theorem Step.client_eq (h : Step now delay e e' notes) : e'.client = e.client := by
  cases h <;> rfl

end Elector

end Tenure.Leader
