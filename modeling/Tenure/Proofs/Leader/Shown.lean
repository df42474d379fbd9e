import Tenure.Proofs.Leader.Step

/-!
# `Tenure.Proofs.Leader.Shown`: what others see of an elector

Who runs an elector does not care for the stages that it goes through, only for its
episode: that one starts, that its token is cancelled, that it is over, that its end
is announced. `Shows` lists these with the notes that go with them, for whatever an
elector does by itself or with a reply; `Goes` adds what holds of all of them.

* `Step.goes` and `Taken.goes`: whatever an elector does is seen in one of these ways.
  It does not forget that it was told to shut down, and once it was told so it does
  not become the leader.
-/

set_option autoImplicit false

namespace Tenure.Leader.Elector

open Lease Store

/-- What others see of an elector on its way from `e` to `e'`. -/
inductive Shows (e e' : Elector) : List Note → Prop
  /-- An episode starts. -/
  | start (hidle : e.IsIdle) (hphase : e.machine.phase = .leading)
      (hstarted : e'.episode = some ⟨e.shutdown, false⟩) (hleading : e'.leading = true)
      (hepisodes : e'.episodes = e.episodes + 1) : Shows e e' e.startEpisode.2
  /-- The token of the episode is cancelled while its body runs. -/
  | revoke {episode : Episode} (hepisode : e.episode = some episode)
      (hended : episode.ended = false)
      (hrevoked : e'.episode = some { episode with cancelled := true })
      (hleading : e'.leading = e.leading) (hepisodes : e'.episodes = e.episodes) :
      Shows e e' (if episode.cancelled then [] else [.cancelled])
  /-- The episode is over, after its body. -/
  | dismiss {episode : Episode} (hepisode : e.episode = some episode)
      (hended : episode.ended = true) (hdismissed : e'.episode = none)
      (hleading : e'.leading = e.leading) (hepisodes : e'.episodes = e.episodes) : Shows e e' []
  /-- The end of the episode is announced. -/
  | announce (cause : Event) (hout : e'.IsOut) (hepisode : e'.episode = e.episode)
      (hleading : e'.leading = false) (hepisodes : e'.episodes = e.episodes) :
      Shows e e' (e.notifyStopped cause).2
  /-- Nothing that concerns an episode. -/
  | nothing {notes : List Note} (hquiet : Quiet notes) (hepisode : e'.episode = e.episode)
      (hleading : e'.leading = e.leading) (hepisodes : e'.episodes = e.episodes) :
      Shows e e' notes

/-- How an elector goes on from `e` to `e'`. -/
structure Goes (e e' : Elector) (notes : List Note) : Prop where
  /-- Who has returned does nothing more. -/
  going : e.isDone = false
  shows : Shows e e' notes
  coherent : e'.Coherent
  shutdown_eq : e'.shutdown = e.shutdown
  /-- Who was told to shut down does not become the leader. -/
  leading : e'.machine.phase = .leading → e.machine.phase = .leading ∨ e.shutdown = false

variable {e e' : Elector} {now : Moment} {delay : Duration} {reply : Reply} {notes : List Note}

/-- What an elector does by itself is shown as it should be. -/
theorem Step.shows (h : Step now delay e e' notes) : Shows e e' notes := by
  cases h with
  | start hstage hphase hidle => exact .start hidle hphase rfl rfl rfl
  | revoke hstage hepisode hended hout hleading hrest =>
    exact .revoke hepisode hended rfl rfl rfl
  | dismiss hstage hepisode hended hout hleading hrest =>
    exact .dismiss hepisode hended rfl rfl rfl
  | announce hstage hout hleaving => exact .announce _ hout rfl rfl rfl
  | giveUp _ _ _ | lose _ _ _ _ => exact .nothing (quiet_measured _) rfl rfl rfl
  | withdraw _ _ _ _ | backOff _ _ _ | compete _ _ _ | rest _ _ _ | renew _ _ _ _
  | relinquish _ _ _ _ | resume _ _ _ | finish _ _ _ _ | settle _ _ | exit _ _ _ _
  | release _ _ _ | abandon _ _ _ => exact .nothing quiet_nil rfl rfl rfl

/-- What an elector does with a reply is shown as it should be. -/
theorem Taken.shows (h : Taken now delay reply e e' notes) : Shows e e' notes := by
  cases h with
  | win _ _ _ _ _ hquiet => exact .nothing hquiet rfl rfl rfl
  | miss _ _ _ _ _ hquiet => exact .nothing hquiet rfl rfl rfl
  | keep _ _ _ _ _ hquiet => exact .nothing hquiet rfl rfl rfl
  | lose _ _ _ _ _ hquiet => exact .nothing hquiet rfl rfl rfl
  | ask _ _ _ _ | askAgain _ _ _ _ | fail _ _ _ _ | vacate _ _ _ _ | leave _ _ _ _ =>
    exact .nothing quiet_nil rfl rfl rfl

/-- Nobody becomes the leader without a reply. -/
theorem Step.leading_of (h : Step now delay e e' notes) (hleads : e'.machine.phase = .leading) :
    e.machine.phase = .leading := by
  cases h with
  | withdraw _ _ _ _ | lose _ _ _ _ | relinquish _ _ _ _ | resume _ _ _ => cases hleads
  | _ => exact hleads

/-- Who takes a reply at all was not told to shut down while competing. -/
theorem Taken.leading_of (h : Taken now delay reply e e' notes) (hcalm : e.urgent = false)
    (hleads : e'.machine.phase = .leading) : e.machine.phase = .leading ∨ e.shutdown = false := by
  cases h with
  | win hstage hreply hgranted hphase hidle hquiet =>
    exact .inr (by simpa [urgent, hstage] using hcalm)
  | lose _ _ _ _ _ _ => cases hleads
  | _ => exact .inl hleads

/-- An elector that has not returned goes on by itself as it should. -/
theorem Step.goes (h : Step now delay e e' notes) (hgoing : e.isDone = false) :
    Goes e e' notes where
  going := hgoing
  shows := h.shows
  coherent := h.coherent
  shutdown_eq := by cases h <;> rfl
  leading hleads := .inl (h.leading_of hleads)

/-- An elector that has not returned goes on with a reply as it should. -/
theorem Taken.goes (h : Taken now delay reply e e' notes) (hcalm : e.urgent = false)
    (hgoing : e.isDone = false) : Goes e e' notes where
  going := hgoing
  shows := h.shows
  coherent := h.coherent
  shutdown_eq := by cases h <;> rfl
  leading := h.leading_of hcalm

/-- Who waits for a reply has not returned. -/
theorem going_of_request {request : Request} (hrequest : e.request? = some request) :
    e.urgent = false ∧ e.isDone = false := by
  unfold request? at hrequest
  split at hrequest
  · cases hrequest
  · rename_i hcalm
    refine ⟨by simpa using hcalm, ?_⟩
    split at hrequest <;> simp_all [isDone]

/-- Who does something has not returned. -/
theorem going_of_advance (hadvance : e.advance now delay = some (e', notes)) :
    e.isDone = false := by
  cases hstage : e.stage with
  | finished error => simp [advance, urgent, advanceTimer, hstage] at hadvance
  | _ => simp [isDone, hstage]

/-- Whatever a coherent elector does by itself is seen in one of the ways. -/
theorem Coherent.goes (h : e.Coherent) (hadvance : e.advance now delay = some (e', notes)) :
    Goes e e' notes := (h.step hadvance).goes (going_of_advance hadvance)

/-- Whatever it does with a reply is seen in one of the ways. -/
theorem Coherent.goes_answer (h : e.Coherent) {request : Request}
    (hrequest : e.request? = some request) (now : Moment) (delay : Duration) (reply : Reply) :
    Goes e (e.answer now delay reply).1 (e.answer now delay reply).2 := by
  obtain ⟨hcalm, hgoing⟩ := going_of_request hrequest
  exact (h.taken hrequest).goes hcalm hgoing

/-- Who has sent a call off has done nothing that others see. -/
theorem Coherent.goes_send (h : e.Coherent) {request : Request}
    (hrequest : e.request? = some request) : Goes e e [] where
  going := (going_of_request hrequest).2
  shows := .nothing quiet_nil rfl rfl rfl
  coherent := h
  shutdown_eq := rfl
  leading := .inl

/-- A coherent elector that has returned runs no episode, and was told to shut down. -/
theorem Coherent.of_isDone (h : e.Coherent) (hdone : e.isDone = true) :
    e.IsIdle ∧ e.shutdown = true := by
  cases hstage : e.stage with
  | finished error =>
    rw [Coherent, hstage] at h
    exact ⟨h.2.2.1, h.2.2.2⟩
  | _ => simp [isDone, hstage] at hdone

end Tenure.Leader.Elector
