import Tenure.Proofs.Leader.Blocks
import Tenure.Proofs.Leader.Deadline
import Tenure.Proofs.Leader.Deed

/-!
# `Tenure.Proofs.Leader.Withdrawal`: told to shut down, an elector returns

Beside the course of an elector stands a notice: when it was first told to shut down, and
when the body of its last episode has ended. From the later of the two on there is
nothing that it has to wait for but giving the lock up, and for that it has set a timer.
The store plays no part: it may reply late or never.

`NoticeInvariant` is what every deed preserves. As long as the lock may still be given up no time
has passed since the later of the two instants; afterwards at most a retry period, rounded
up to the millisecond in which its timer rings. An elector performs the effects of a
transition without a break, so it is not told anything in the middle of them and no body
ends there (`Watched`).

* `isAtWork_advance`: who was told does not compete, renew or wait any more.
* `Step.rank_lt`: every step that it takes brings it closer to its end.
* `Watched.returns_in_time`: it has returned by then, it comes to its end without any
  reply, and it neither begins an attempt nor starts an episode.
-/

set_option autoImplicit false

namespace Tenure.Leader

open Lease Store

/-- What is known of an elector that is to return. -/
structure Notice where
  /-- When it was first told to shut down. -/
  told : Option Nat
  /-- When the body of its last episode has ended. -/
  left : Nat
deriving Repr, DecidableEq

namespace Elector

variable {e e' : Elector} {now : Moment} {delay : Duration} {reply : Reply} {notes : List Note}

/-! ### Nothing is begun any more -/

/-- Whether the elector performs the effects of a transition. -/
def isBusy (e : Elector) : Bool :=
  match e.stage with
  | .performing .. => true
  | _ => false

/-- Whether the elector competes for the lease, renews it, or waits to do so. -/
def isAtWork (e : Elector) : Bool :=
  match e.stage with
  | .backingOff _ | .competing .. | .retrying _ | .resting .. | .renewing .. | .pausing .. => true
  | _ => false

/-- No episode is about to start. -/
def IsClear (e : Elector) : Prop :=
  ∀ cause rest, e.stage ≠ .performing cause (.startEpisode :: rest)

/-- An elector that attempts to take or renew the lease is at work. -/
theorem isAtWork_of_attempting (h : e.isAttempting = true) : e.isAtWork = true := by
  unfold isAttempting at h
  split at h
  · rename_i hstage
    simp [isAtWork, hstage]
  · rename_i hstage
    simp [isAtWork, hstage]
  · cases h

/-- An event leads to effects first, so nobody is at work right after it. -/
theorem isAtWork_handle (e : Elector) (event : Event) : (e.handle event).isAtWork = false := by
  unfold handle
  split <;> rfl

/-- Right after an effect nobody is at work. -/
theorem isAtWork_perform (e : Elector) (cause : Event) (effect : Effect) (rest : List Effect)
    (now : Moment) : (e.perform cause effect rest now).1.isAtWork = false := by
  cases effect with
  | cancelEpisode =>
    unfold perform cancelEpisode
    cases e.episode with
    | none => rfl
    | some episode => cases hended : episode.ended <;> simp [isAtWork, hended]
  | startEpisode | releaseLock | notifyStopped | exit => rfl

/-- Who was told to shut down turns to its end whatever its phase is. -/
theorem isAtWork_turn (hshutdown : e.shutdown = true) : (e.turn now delay).isAtWork = false := by
  unfold turn
  cases e.machine.phase with
  | candidate | leading => simp only [hshutdown, if_true, isAtWork_handle]
  | lost | released => exact isAtWork_handle e _
  | stopped => rfl

/-- Who was told to shut down does not go on competing, renewing or waiting. -/
theorem isAtWork_advance (hshutdown : e.shutdown = true)
    (hadvance : e.advance now delay = some (e', notes)) : e'.isAtWork = false := by
  unfold advance at hadvance
  split at hadvance
  · have hnext : e' = (e.advanceUrgent now delay).1 := by rw [Option.some.inj hadvance]
    rw [hnext]
    unfold advanceUrgent
    cases hstage : e.stage with
    | ready => exact isAtWork_turn hshutdown
    | performing cause effects =>
      cases effects with
      | nil => rfl
      | cons effect rest => exact isAtWork_perform e cause effect rest now
    | releasing cause rest limit surrender => simp [isAtWork, hstage]
    | finished error => simp [isAtWork, hstage]
    | stopping cause rest | aborting error => rfl
    | _ => exact isAtWork_handle e _
  · rename_i hcalm
    -- the only timer that it still waits for is the one for giving the lock up
    unfold advanceTimer at hadvance
    cases hstage : e.stage with
    | releasing cause rest limit surrender =>
      simp only [hstage] at hadvance
      split at hadvance <;> cases hadvance
      rfl
    | ready | performing _ _ | stopping _ _ | aborting _ | finished _ => simp [hstage] at hadvance
    | _ => exact absurd (by simp [urgent, hstage, hshutdown]) hcalm

/-- A step by itself never leads to the start of an episode: a reply has to come before. -/
theorem Step.isClear (h : Step now delay e e' notes) : e'.IsClear := by
  intro cause rest hstage
  cases h with
  | relinquish event hevent hphase hoffice =>
    cases hrelease : e.machine.releaseOnCancel <;> simp [hrelease, Leader.relinquish] at hstage
  | dismiss hstage' hepisode hended hout hleading hrest => cases hrest <;> cases hstage
  | _ => cases hstage

/-- No episode is started but by its own effect. -/
theorem Step.episodes_eq (h : Step now delay e e' notes) (hclear : e.IsClear) :
    e'.episodes = e.episodes := by
  cases h with
  | start hstage hphase hidle => exact absurd hstage (hclear _ _)
  | _ => rfl

/-- A reply starts no episode by itself. -/
theorem Taken.episodes_eq (h : Taken now delay reply e e' notes) : e'.episodes = e.episodes := by
  cases h <;> rfl

/-- Who was told to shut down waits for a reply only while it gives the lock up. -/
theorem releasing_of_request {request : Request} (hshutdown : e.shutdown = true)
    (hrequest : e.request? = some request) :
    ∃ cause rest limit surrender, e.stage = .releasing cause rest limit surrender := by
  unfold request? at hrequest
  split at hrequest
  · cases hrequest
  · rename_i hcalm
    split at hrequest
    · rename_i hstage
      exact absurd (by simp [urgent, hstage, hshutdown]) hcalm
    · rename_i hstage
      exact absurd (by simp [urgent, hstage, hshutdown]) hcalm
    · rename_i hstage
      exact ⟨_, _, _, _, hstage⟩
    · cases hrequest

/-- What an elector that gives the lock up does with a reply. -/
theorem Taken.of_releasing (h : Taken now delay reply e e' notes) {cause : Event}
    {rest : List Effect} {limit : Nat} {surrender : Surrender}
    (hstage : e.stage = .releasing cause rest limit surrender) :
    e.IsOut ∧ ∃ client stage, e' = { e with client := client, stage := stage }
      ∧ ((∃ next, stage = .releasing cause [.notifyStopped] limit next)
        ∨ stage = .performing cause [.notifyStopped]) := by
  cases h with
  | vacate hstage' hreply hout hleaving =>
    obtain ⟨rfl, -, rfl, -⟩ : _ = cause ∧ _ ∧ _ = limit ∧ _ := by
      simpa [hstage] using hstage'.symm
    exact ⟨hout, _, _, rfl, .inl ⟨_, rfl⟩⟩
  | leave hstage' hreply hout hleaving =>
    obtain ⟨rfl, -⟩ : _ = cause ∧ _ := by simpa [hstage] using hstage'.symm
    exact ⟨hout, _, _, rfl, .inr rfl⟩
  | ask hstage' | win hstage' | miss hstage' | askAgain hstage' | keep hstage' | lose hstage'
  | fail hstage' => rw [hstage] at hstage'; cases hstage'

/-! ### What stands before the end -/

/-- Whether the lock may still be given up: its end is not announced, and it was not given up
yet. -/
def isEarly (e : Elector) : Bool :=
  e.machine.phase == .leading || match e.stage with
    | .performing _ effects => effects.contains .cancelEpisode || effects.contains .releaseLock
    | .stopping .. => true
    | _ => false

/-- Whether the lock is given up, or is going to be. -/
def mayRelease (e : Elector) : Bool :=
  match e.stage with
  | .releasing .. => true
  | .performing _ effects | .stopping _ effects => effects.contains .releaseLock
  | _ => false

/-- How long the lock is given up at most, while it is. -/
def limit? (e : Elector) : Option Nat :=
  match e.stage with
  | .releasing _ _ limit _ => some limit
  | _ => none

/-- By itself an elector does not change whether it gives the lock up. -/
theorem Step.releaseOnCancel_eq (h : Step now delay e e' notes) :
    e'.machine.releaseOnCancel = e.machine.releaseOnCancel := by
  cases h <;> rfl

/-- A reply does not change whether the lock is given up. -/
theorem Taken.releaseOnCancel_eq (h : Taken now delay reply e e' notes) :
    e'.machine.releaseOnCancel = e.machine.releaseOnCancel := by
  cases h <;> rfl

/-- What is early was early before. -/
theorem Step.isEarly (h : Step now delay e e' notes) (hearly : e'.isEarly = true) :
    e.isEarly = true := by
  cases h with
  | rest hstage hphase hoffice | renew hstage hrung hphase hoffice
  | lose hstage hrung hphase hoffice | relinquish event hevent hphase hoffice
  | start hstage hphase hidle => simp [Elector.isEarly, hphase]
  | settle hstage hsettled => simpa [Elector.isEarly, hstage] using hearly
  | revoke hstage hepisode hended hout hleading hrest => simp [Elector.isEarly, hstage]
  | dismiss hstage hepisode hended hout hleading hrest =>
    rcases hstage with hstage | hstage <;> simp [Elector.isEarly, hstage]
  | backOff hstage hphase hidle | compete hstage hphase hidle | giveUp hstage hphase hidle
  | finish hstage hphase hidle hshutdown | exit hstage hphase hidle hshutdown =>
    simp [Elector.isEarly, Elector.compete, hphase] at hearly
  | withdraw backoff hphase hshutdown hidle | resume hstage hout hidle =>
    simp [Elector.isEarly] at hearly
  | release hstage hout hleaving | abandon hstage hout hleaving | announce hstage hout hleaving =>
    simp [Elector.isEarly, notifyStopped, hout.ne_leading] at hearly

/-- The lock is given up only by an elector that was made to do so. -/
theorem Step.mayRelease (h : Step now delay e e' notes)
    (hpledged : e.mayRelease = true → e.machine.releaseOnCancel = true)
    (hmay : e'.mayRelease = true) : e.machine.releaseOnCancel = true := by
  cases h with
  | relinquish event hevent hphase hoffice =>
    cases hrelease : e.machine.releaseOnCancel with
    | true => rfl
    | false => simp [Elector.mayRelease, hrelease, Leader.relinquish] at hmay
  | revoke hstage hepisode hended hout hleading hrest =>
    refine hpledged ?_
    simpa [Elector.mayRelease, hstage] using hmay
  | dismiss hstage hepisode hended hout hleading hrest =>
    refine hpledged ?_
    rcases hstage with hstage | hstage <;> simpa [Elector.mayRelease, hstage] using hmay
  | release hstage hout hleaving => exact hpledged (by simp [Elector.mayRelease, hstage])
  | _ => cases hmay

/-- A body that runs goes on running, whatever the elector does. -/
theorem Step.body?_eq (h : Step now delay e e' notes) (hbody : e.body? = some false) :
    e'.body? = some false := by
  cases h with
  | start hstage hphase hidle => simp [body?, hidle.1] at hbody
  | revoke hstage hepisode hended hout hleading hrest => simp [body?, hended]
  | dismiss hstage hepisode hended hout hleading hrest =>
    simp [body?, hepisode, hended] at hbody
  | _ => exact hbody

/-- No body begins to run but with an episode. -/
theorem Step.body?_ne (h : Step now delay e e' notes) (hclear : e.IsClear)
    (hbody : e.body? ≠ some false) : e'.body? ≠ some false := by
  cases h with
  | start hstage hphase hidle => exact absurd hstage (hclear _ _)
  | revoke hstage hepisode hended hout hleading hrest => simp [body?, hepisode, hended] at hbody
  | dismiss hstage hepisode hended hout hleading hrest => simp [body?]
  | _ => exact hbody

/-- Who has a limit has begun to give the lock up just now. -/
theorem Step.limit?_eq (h : Step now delay e e' notes) {limit : Nat} (hlimit : limit ∈ e'.limit?) :
    limit = Clock.after now.instant e.timing.retryPeriod ∧ e.isEarly = true
      ∧ e.body? = none := by
  cases h with
  | release hstage hout hleaving =>
    cases hlimit
    exact ⟨rfl, by simp [Elector.isEarly, hstage], hleaving.body?_eq⟩
  | _ => cases hlimit

/-- An elector that can go on has not returned. -/
theorem isDone_of_advance (hadvance : e.advance now delay = some (e', notes)) :
    e.isDone = false := by
  cases hstage : e.stage with
  | finished error => simp [advance, urgent, advanceTimer, hstage] at hadvance
  | _ => simp [isDone, hstage]

/-! ### How far it is to the end -/

/-- What an effect counts for: the episode and the lock take a stage of their own. -/
def toll : Effect → Nat
  | .cancelEpisode | .releaseLock => 2
  | _ => 1

/-- How many steps an elector that was told has left at most once no body runs. -/
def rank (e : Elector) : Nat :=
  (match e.machine.phase with
    | .stopped => 0
    | .candidate => 4
    | .lost | .released => 6
    | .leading => 14)
  + match e.stage with
    | .finished _ => 0
    | .performing _ effects => 2 + (effects.map toll).sum
    | .stopping _ rest | .releasing _ rest _ _ => 3 + (rest.map toll).sum
    | _ => 1

/-- Every step of an elector that was told brings it closer to its end. -/
theorem Step.rank_lt (h : Step now delay e e' notes) (hwork : e'.isAtWork = false)
    (hclear : e.IsClear) (hbody : e.body? ≠ some false) : e'.rank < e.rank := by
  cases h with
  | withdraw backoff hphase hshutdown hidle =>
    simp only [rank, hphase, List.map_cons, List.map_nil, List.sum_cons, List.sum_nil, toll]
    omega
  | backOff hstage hphase hidle | compete hstage hphase hidle | giveUp hstage hphase hidle
  | rest hstage hphase hoffice | renew hstage hrung hphase hoffice => cases hwork
  | lose hstage hrung hphase hoffice =>
    simp only [rank, hphase, List.map_cons, List.map_nil, List.sum_cons, List.sum_nil, toll]
    omega
  | relinquish event hevent hphase hoffice =>
    -- leaving office costs the effects that it asks for, and they count for five at most
    have hcost : ((Leader.relinquish e.machine.releaseOnCancel).map toll).sum ≤ 5 := by
      cases e.machine.releaseOnCancel <;> decide
    simp only [rank, hphase]
    omega
  | resume hstage hout hidle =>
    rcases hout with hphase | hphase <;> simp [rank, hstage, hphase]
  | finish hstage hphase hidle hshutdown => simp [rank, hstage]
  | settle hstage hsettled => simp [rank, hstage]
  -- an episode does not start any more, and a body that still ran would hold the rank up
  | start hstage hphase hidle => exact absurd hstage (hclear _ _)
  | exit hstage hphase hidle hshutdown => simp [rank, hstage, toll]
  | revoke hstage hepisode hended hout hleading hrest => simp [body?, hepisode, hended] at hbody
  | dismiss hstage hepisode hended hout hleading hrest =>
    rcases hstage with hstage | hstage <;> simp [rank, hstage, toll]
  | release hstage hout hleaving => simp [rank, hstage, toll]
  | abandon hstage hout hleaving => simp [rank, hstage, toll]
  | announce hstage hout hleaving => simp [rank, hstage, toll, notifyStopped]

/-- Who was told, runs no body and has not returned goes on at once, or when the time to give
the lock up has run out. -/
theorem Coherent.urgent_or_releasing (hc : e.Coherent) (hshutdown : e.shutdown = true)
    (hbody : e.body? ≠ some false) (hdone : e.isDone = false) :
    e.urgent = true
      ∨ ∃ cause rest limit surrender, e.stage = .releasing cause rest limit surrender := by
  cases hstage : e.stage with
  | stopping cause rest =>
    obtain ⟨-, -, ⟨episode, hepisode, -⟩, -⟩ : e.IsOut ∧ Closing rest ∧
        (∃ episode, e.episode = some episode ∧ episode.cancelled = true) ∧ e.leading = true := by
      simpa [Coherent, hstage] using hc
    have hended : episode.ended = true := by simpa [body?, hepisode] using hbody
    exact .inl (by simp [urgent, hstage, hepisode, bodyEnded, hended])
  | releasing cause rest limit surrender => exact .inr ⟨cause, rest, limit, surrender, rfl⟩
  | aborting error => simp [Coherent, hstage] at hc
  | finished error => simp [isDone, hstage] at hdone
  | _ => exact .inl (by simp [urgent, hstage, hshutdown])

end Elector

/-- By when an elector has returned that was told at an instant, if no body runs any more. -/
def Notice.deadline (n : Notice) (e : Elector) (told : Nat) : Nat :=
  if e.machine.releaseOnCancel then
    Clock.ring (max told n.left + e.timing.retryPeriod.nanos)
  else max told n.left

/-- The deadline is no earlier than the notice and the end of the body. -/
theorem Notice.le_deadline (n : Notice) (e : Elector) (told : Nat) :
    max told n.left ≤ n.deadline e told := by
  unfold deadline
  split
  · exact (Nat.le_add_right _ _).trans (Clock.le_ring _)
  · exact Nat.le_refl _

/-- The deadline depends on the timing and on whether the lock is given up, and on nothing else of
the elector. -/
theorem Notice.deadline_congr (n : Notice) {e e' : Elector}
    (hrelease : e'.machine.releaseOnCancel = e.machine.releaseOnCancel)
    (htiming : e'.timing = e.timing) (told : Nat) : n.deadline e' told = n.deadline e told := by
  simp only [deadline, hrelease, htiming]

/-- Where the timer rings on a whole millisecond, a retry period is enough. -/
theorem Notice.deadline_le_of_dvd (n : Notice) {e : Elector} {told : Nat}
    (h : 1000000 ∣ max told n.left + e.timing.retryPeriod.nanos) :
    n.deadline e told ≤ max told n.left + e.timing.retryPeriod.nanos := by
  unfold deadline
  split
  · exact Nat.le_of_eq (Clock.ring_of_dvd _ h)
  · exact Nat.le_add_right _ _

/-- What every deed preserves. -/
structure NoticeInvariant (e : Elector) (now : Nat) (n : Notice) : Prop where
  shutdown : e.shutdown = n.told.isSome
  left : n.left ≤ now
  pledged : e.mayRelease = true → e.machine.releaseOnCancel = true
  clear : e.shutdown = true → e.IsClear
  /-- The timer was set a retry period before, or less long ago than the elector was told or
  its body has ended. -/
  limit : ∀ limit ∈ e.limit?,
    limit ≤ max (n.told.getD now) n.left + e.timing.retryPeriod.nanos
  timely : ∀ told ∈ n.told, e.body? ≠ some false → e.isDone = false →
    now ≤ if e.isEarly then max told n.left else n.deadline e told

namespace NoticeInvariant

open Elector

variable {e e' : Elector} {n : Notice} {now : Moment} {instant : Nat} {delay : Duration}
  {reply : Reply} {notes : List Note}

/-- An elector that was told at some instant has its flag set. -/
theorem shutdown_of_told (h : NoticeInvariant e instant n) {told : Nat} (htold : told ∈ n.told) :
    e.shutdown = true := by
  rw [h.shutdown, Option.mem_def.mp htold]
  rfl

/-- Whether it is early or not, the deadline holds. -/
theorem le_deadline (h : NoticeInvariant e instant n) {told : Nat} (htold : told ∈ n.told)
    (hbody : e.body? ≠ some false) (hdone : e.isDone = false) : instant ≤ n.deadline e told := by
  have htimely := h.timely told htold hbody hdone
  split at htimely
  · exact htimely.trans (n.le_deadline e told)
  · exact htimely

/-- What the elector does by itself. -/
theorem advance (h : NoticeInvariant e now.instant n) (hc : e.Coherent)
    (hadvance : e.advance now delay = some (e', notes)) : NoticeInvariant e' now.instant n := by
  have hstep := hc.step hadvance
  have hshutdown : e'.shutdown = e.shutdown := by cases hstep <;> rfl
  refine ⟨hshutdown.trans h.shutdown, h.left, fun hmay => ?_, fun _ => hstep.isClear,
    fun limit hlimit => ?_, fun told htold hbody hdone => ?_⟩
  · rw [hstep.releaseOnCancel_eq]
    exact hstep.mayRelease h.pledged hmay
  · obtain ⟨rfl, hearly, hbody⟩ := hstep.limit?_eq hlimit
    rw [hstep.timing_eq]
    refine Nat.add_le_add_right ?_ _
    -- who was told has let no time pass
    cases htold : n.told with
    | none => exact Nat.le_max_left _ _
    | some told =>
      have htimely := h.timely told htold (by simp [hbody]) (isDone_of_advance hadvance)
      rwa [if_pos hearly] at htimely
  · have hbefore : e.body? ≠ some false := fun hruns => hbody (hstep.body?_eq hruns)
    have htimely := h.timely told htold hbefore (isDone_of_advance hadvance)
    rw [n.deadline_congr hstep.releaseOnCancel_eq hstep.timing_eq]
    cases hearly : e'.isEarly with
    | true => rwa [if_pos (hstep.isEarly hearly)] at htimely
    | false => exact h.le_deadline htold hbefore (isDone_of_advance hadvance)

/-- What it does with a reply. Who was told waits for one only while it gives the lock up. -/
theorem hear (h : NoticeInvariant e now.instant n) (hc : e.Coherent) {request : Request}
    (hrequest : e.request? = some request) :
    NoticeInvariant (e.answer now delay reply).1 now.instant n := by
  -- a reply is heard by an elector that was told only while it gives the lock up
  have htaken : Taken now delay reply e _ _ := hc.taken hrequest
  generalize e.answer now delay reply = answered at htaken ⊢
  obtain ⟨e', notes⟩ := answered
  simp only at htaken ⊢
  have hshutdown : e'.shutdown = e.shutdown := by cases htaken <;> rfl
  have hdeadline := n.deadline_congr htaken.releaseOnCancel_eq htaken.timing_eq
  refine ⟨hshutdown.trans h.shutdown, h.left, fun hmay => ?_, fun htold => ?_,
    fun limit hlimit => ?_, fun told htold hbody hdone => ?_⟩
  · rw [htaken.releaseOnCancel_eq]
    cases htaken with
    | vacate hstage hreply hout hleaving => exact h.pledged (by simp [mayRelease, hstage])
    | _ => cases hmay
  · rw [hshutdown] at htold
    obtain ⟨cause, rest, limit, surrender, hstage⟩ := releasing_of_request htold hrequest
    obtain ⟨-, client, stage, rfl, ⟨next, rfl⟩ | rfl⟩ := htaken.of_releasing hstage
    · exact fun _ _ heq => by cases heq
    · exact fun _ _ heq => by cases heq
  · rw [htaken.timing_eq]
    cases htaken with
    | vacate hstage hreply hout hleaving =>
      cases hlimit
      exact h.limit _ (by simp [limit?, hstage])
    | _ => cases hlimit
  · obtain ⟨cause, rest, limit, surrender, hstage⟩ :=
      releasing_of_request (h.shutdown_of_told htold) hrequest
    obtain ⟨hout, client, stage, rfl, hnext⟩ := htaken.of_releasing hstage
    have htimely := h.le_deadline htold hbody (by simp [isDone, hstage])
    have hearly : Elector.isEarly { e with client := client, stage := stage } = false := by
      rcases hnext with ⟨next, rfl⟩ | rfl
      · simp [isEarly, hout.ne_leading]
      · simp [isEarly, hout.ne_leading]
    rw [hearly, hdeadline]
    exact htimely

/-- Time passes for an elector that was told only while it waits for a body, or gives the
lock up, or when it has returned. -/
theorem pass (h : NoticeInvariant e instant n) (hc : e.Coherent) {later : Nat}
    (hle : instant ≤ later)
    (hcalm : e.urgent = false) (hdue : ∀ due ∈ e.due, later ≤ Clock.ring due) :
    NoticeInvariant e later n := by
  refine ⟨h.shutdown, h.left.trans hle, h.pledged, h.clear, fun limit hlimit => ?_,
    fun told htold hbody hdone => ?_⟩
  · refine (h.limit limit hlimit).trans (Nat.add_le_add_right ?_ _)
    cases n.told with
    | none => exact max_le_max hle (Nat.le_refl _)
    | some told => exact Nat.le_refl _
  · -- time passes for an elector without a body only while the lock is given up
    rcases hc.urgent_or_releasing (h.shutdown_of_told htold) hbody hdone with
      hurgent | ⟨cause, rest, limit, surrender, hstage⟩
    · rw [hcalm] at hurgent
      cases hurgent
    · -- the timer rings a retry period after it was set
      have hout : e.IsOut ∧ rest = [.notifyStopped] ∧ e.IsLeaving := by
        simpa [Coherent, hstage] using hc
      have hearly : e.isEarly = false := by simp [isEarly, hstage, hout.1.ne_leading]
      have hrelease := h.pledged (by simp [mayRelease, hstage])
      have hlimit := h.limit limit (by simp [limit?, hstage])
      rw [Option.mem_def.mp htold] at hlimit
      rw [hearly, Notice.deadline, hrelease]
      exact (hdue limit (by simp [due, hstage])).trans (Clock.ring_mono hlimit)

/-- What happens from outside does not come between the effects of a transition. -/
theorem outside (h : NoticeInvariant e instant n) (hbusy : e.isBusy = false) {shutdown : Bool}
    {f : Episode → Episode} {n' : Notice} (hshutdown : shutdown = n'.told.isSome)
    (htold : n'.told.getD instant = n.told.getD instant) (hleft : n.left ≤ n'.left)
    (hpast : n'.left ≤ instant)
    (htimely : ∀ told ∈ n'.told, instant ≤ max told n'.left
      ∨ told ∈ n.told ∧ n'.left = n.left ∧ (e.outside shutdown f).body? = e.body?) :
    NoticeInvariant (e.outside shutdown f) instant n' := by
  refine ⟨hshutdown, hpast, h.pledged, fun _ cause rest hstage => ?_, fun limit hlimit => ?_,
    fun told hmem hbody hdone => ?_⟩
  · have hstage : e.stage = .performing cause (.startEpisode :: rest) := hstage
    simp [isBusy, hstage] at hbusy
  · refine (h.limit limit hlimit).trans (Nat.add_le_add_right ?_ _)
    rw [htold]
    exact max_le_max (Nat.le_refl _) hleft
  · rcases htimely told hmem with hnow | ⟨hbefore, hsame, hepisode⟩
    · split
      · exact hnow
      · exact hnow.trans (n'.le_deadline _ told)
    · have hkept := h.timely told hbefore (hepisode ▸ hbody) hdone
      show instant ≤ if e.isEarly then max told n'.left else n'.deadline e told
      rw [Notice.deadline, hsame]
      exact hkept

/-- It is told to shut down, or told again. -/
theorem cancel (h : NoticeInvariant e instant n) (hbusy : e.isBusy = false) :
    NoticeInvariant e.cancel.1 instant { n with told := some (n.told.getD instant) } := by
  rw [cancel_eq]
  refine h.outside hbusy rfl rfl (Nat.le_refl _) h.left fun told hmem => ?_
  cases hmem
  cases htold : n.told with
  | none => exact .inl (Nat.le_max_left _ _)
  | some told =>
    refine .inr ⟨rfl, rfl, ?_⟩
    unfold body? Elector.outside
    cases e.episode <;> rfl

/-- The body of its episode ends. -/
theorem endBody (h : NoticeInvariant e instant n) (hbusy : e.isBusy = false) :
    NoticeInvariant e.endBody instant { n with left := instant } := by
  rw [endBody_eq]
  exact h.outside hbusy h.shutdown rfl h.left (Nat.le_refl _) fun told _ =>
    .inl (Nat.le_max_right _ _)

end NoticeInvariant

namespace Course

variable {c c' : Course} {n : Notice} {deed : Deed} {notes : List Note}

/-- Takes down when an elector is told to shut down and when a body ends. -/
def heed (c : Course) (n : Notice) : Deed → Notice
  | .cancel => { n with told := some (n.told.getD c.now) }
  | .endBody => { n with left := c.now }
  | _ => n

/-- Whether a deed is one of the elector's own, or of the clock. -/
def Deed.isOwn : Deed → Bool
  | .advance .. | .pass _ => true
  | _ => false

/-- A run in which nothing comes between the effects of a transition, and what is taken down
of it. -/
inductive Watched : Course → Notice → Prop
  | start (client : Client) (timing : Timing) (release : Bool) (born now : Nat) (shutdown : Bool)
      (hborn : born ≤ now) :
      Watched (start client timing release born now shutdown)
        ⟨if shutdown then some now else none, now⟩
  | act {c c' : Course} {n : Notice} (h : Watched c n) (deed : Deed)
      (hturn : c.elector.isBusy = true → deed.isOwn = true) (hact : c.act deed = some c') :
      Watched c' (c.heed n deed)

/-- What a watched run comes to is reachable. -/
theorem Watched.reachable (h : Watched c n) : Reachable c := by
  induction h with
  | start client timing release born now shutdown hborn => exact .start _ _ _ _ _ _ hborn
  | act _ deed hturn hact ih => exact .move ih (move_of_act hact)

/-- The invariant holds at every point of a watched run. -/
theorem Watched.noticeInvariant (h : Watched c n) : NoticeInvariant c.elector c.now n := by
  induction h with
  | start client timing release born now shutdown hborn =>
    refine ⟨?_, Nat.le_refl _, fun hmay => ?_, fun _ cause rest hstage => ?_,
      fun limit hlimit => ?_, fun told htold hbody hdone => ?_⟩
    · cases shutdown <;> rfl
    · cases hmay
    · cases hstage
    · cases hlimit
    · have hnow : now ≤ max told now := Nat.le_max_right _ _
      split
      · exact hnow
      · exact hnow.trans (Notice.le_deadline ⟨_, now⟩ _ told)
  | @act c c' n h deed hturn hact ih =>
    have hc := h.reachable.coherent
    -- nothing from outside comes between the effects of a transition
    have hbusy : deed.isOwn = false → c.elector.isBusy = false := by
      intro hother
      by_contra hbusy
      rw [hturn (by simpa using hbusy)] at hother
      cases hother
    cases does_of_act hact with
    | cancel => exact ih.cancel (hbusy rfl)
    | endBody hbody => exact ih.endBody (hbusy rfl)
    | @advance wall _ _ _ hadvance =>
      exact @NoticeInvariant.advance _ _ n ⟨c.now, wall⟩ _ _ ih hc hadvance
    | @hear wall _ _ _ hrequest =>
      exact @NoticeInvariant.hear _ n ⟨c.now, wall⟩ _ _ ih hc _ hrequest
    | pass hle hcalm hdue => exact ih.pass hc hle hcalm hdue

/-- Who was told and runs no body goes on by itself, if need be after some time. -/
theorem Watched.exists_advance (h : Watched c n) (hshutdown : c.elector.shutdown = true)
    (hbody : c.elector.body? ≠ some false) (hdone : c.elector.isDone = false) :
    ∃ c' e' notes, Under (fun _ deed => deed.isOwn = true) c c' ∧ c'.elector = c.elector
      ∧ Watched c' n ∧ c'.elector.advance ⟨c'.now, 0⟩ ⟨0⟩ = some (e', notes) := by
  -- an elector that was told has something urgent to do, or waits for the lock to be given up
  rcases h.reachable.coherent.urgent_or_releasing hshutdown hbody hdone with
    hurgent | ⟨cause, rest, limit, surrender, hstage⟩
  · have hadvance : c.elector.advance ⟨c.now, 0⟩ ⟨0⟩
        = some (c.elector.advanceUrgent ⟨c.now, 0⟩ ⟨0⟩) := if_pos hurgent
    exact ⟨c, _, _, .refl, rfl, h, hadvance⟩
  · have hcalm : c.elector.urgent = false := by simp [Elector.urgent, hstage]
    have hadvance : ∀ now : Moment, Clock.ring limit ≤ now.instant →
        c.elector.advance now ⟨0⟩
          = some ({ c.elector with stage := .performing cause rest }, []) := by
      intro now hrung
      simp [Elector.advance, hcalm, Elector.advanceTimer, hstage, Clock.reached, hrung]
    by_cases hrung : Clock.ring limit ≤ c.now
    · exact ⟨c, _, _, .refl, rfl, h, hadvance ⟨c.now, 0⟩ hrung⟩
    · -- the store does not reply until the timer rings
      have hact : c.act (.pass (Clock.ring limit)) = some { c with now := Clock.ring limit } := by
        refine if_pos ⟨Nat.le_of_not_le hrung, hcalm, fun due hdue => ?_⟩
        simp only [Elector.due, hstage, Option.mem_def, Option.some.injEq] at hdue
        rw [hdue]
      exact ⟨{ c with now := Clock.ring limit }, _, _, .act .refl _ rfl hact, rfl,
        h.act _ (fun _ => rfl) hact, hadvance ⟨Clock.ring limit, 0⟩ (Nat.le_refl _)⟩

/-- Who was told and runs no body comes to its end by itself, in time. -/
theorem Watched.exists_return (h : Watched c n) {told : Nat} (htold : n.told = some told)
    (hbody : c.elector.body? ≠ some false) (hdone : c.elector.isDone = false) :
    ∃ c', Under (fun _ deed => deed.isOwn = true) c c' ∧ c'.elector.isDone = true
      ∧ c'.now ≤ n.deadline c.elector told := by
  -- every step lowers the rank, and none of them starts a body that would have to be awaited
  induction hrank : c.elector.rank using Nat.strongRecOn generalizing c with
  | ind rank ih =>
    have hshutdown := h.noticeInvariant.shutdown_of_told htold
    obtain ⟨c₁, e', notes, hunder, helector, h₁, hadvance⟩ :=
      h.exists_advance hshutdown hbody hdone
    rw [← helector] at hshutdown hbody hdone hrank
    have hstep := h₁.reachable.coherent.step hadvance
    have hact : c₁.act (.advance 0 ⟨0⟩) = some (c₁.follow e' notes) := by
      simp [Course.act, hadvance]
    have h₂ : Watched (c₁.follow e' notes) n := h₁.act (.advance 0 ⟨0⟩) (fun _ => rfl) hact
    have hunder₂ : Under (fun _ deed => deed.isOwn = true) c (c₁.follow e' notes) :=
      .act hunder _ rfl hact
    have hdeadline : n.deadline e' told = n.deadline c.elector told := by
      rw [n.deadline_congr hstep.releaseOnCancel_eq hstep.timing_eq, helector]
    cases hlast : e'.isDone with
    | true =>
      refine ⟨_, hunder₂, hlast, ?_⟩
      rw [← helector]
      exact h₁.noticeInvariant.le_deadline htold hbody hdone
    | false =>
      have hrank₂ : e'.rank < rank := by
        rw [← hrank]
        exact hstep.rank_lt (Elector.isAtWork_advance hshutdown hadvance)
          (h₁.noticeInvariant.clear hshutdown) hbody
      have hbody₂ := hstep.body?_ne (h₁.noticeInvariant.clear hshutdown) hbody
      obtain ⟨c', hunder', hdone', hle⟩ := ih e'.rank hrank₂ h₂ hbody₂ hlast rfl
      refine ⟨c', hunder₂.trans hunder', hdone', ?_⟩
      rw [← hdeadline]
      exact hle

/-- Whatever the store does: an elector that was told to shut down, and of whose episodes no
body runs, has returned by the later of the two instants, or a retry period after it when
it gives the lock up. It comes to its end by then without any reply. From when it was told
on no attempt is begun and no episode started. -/
theorem Watched.returns_in_time (h : Watched c n) {told : Nat} (htold : n.told = some told) :
    (c.chronicle.isBodyRunning = false → c.elector.isDone = false →
      c.now ≤ n.deadline c.elector told
        ∧ ∃ c', Under (fun _ deed => deed.isOwn = true) c c' ∧ c'.elector.isDone = true
          ∧ c'.now ≤ n.deadline c.elector told)
    ∧ (1000000 ∣ max told n.left + c.elector.timing.retryPeriod.nanos →
      n.deadline c.elector told ≤ max told n.left + c.elector.timing.retryPeriod.nanos)
    ∧ ∀ deed c', c.act deed = some c' →
      (c'.elector.isAttempting = true → c'.elector.stage = c.elector.stage)
        ∧ c'.elector.episodes = c.elector.episodes := by
  have hkept := h.noticeInvariant
  have hshutdown := hkept.shutdown_of_told htold
  have hc := h.reachable.coherent
  refine ⟨fun hbody hdone => ?_, n.deadline_le_of_dvd, fun deed c' hact => ?_⟩
  · -- that no body runs shows in the marks of the chronicle
    obtain ⟨blocks, last, hserial⟩ := h.reachable.serial
    have hbody : c.elector.body? ≠ some false := by
      rw [Ne, ← hserial.isBodyRunning_iff, hbody]
      exact Bool.false_ne_true
    exact ⟨hkept.le_deadline htold hbody hdone, h.exists_return htold hbody hdone⟩
  · cases does_of_act hact with
    | cancel =>
      rw [follow, Elector.cancel_eq]
      exact ⟨fun _ => rfl, rfl⟩
    | endBody hbody => exact ⟨fun _ => rfl, rfl⟩
    | @advance wall delay after _ hadvance =>
      refine ⟨fun hattempting => ?_, (hc.step hadvance).episodes_eq (hkept.clear hshutdown)⟩
      -- an elector that was told goes on to nothing that would be an attempt
      have hwork : after.isAtWork = true := Elector.isAtWork_of_attempting hattempting
      rw [Elector.isAtWork_advance hshutdown hadvance] at hwork
      cases hwork
    | @hear wall delay request reply hrequest =>
      have htaken : Elector.Taken ⟨c.now, wall⟩ delay reply c.elector
          (c.hear wall delay reply).elector _ := hc.taken hrequest
      refine ⟨fun hattempting => ?_, htaken.episodes_eq⟩
      obtain ⟨cause, rest, limit, surrender, hstage⟩ :=
        Elector.releasing_of_request hshutdown hrequest
      obtain ⟨-, client, stage, helector, ⟨next, rfl⟩ | rfl⟩ := htaken.of_releasing hstage
      · rw [helector] at hattempting
        cases hattempting
      · rw [helector] at hattempting
        cases hattempting
    | pass hle hcalm hdue => exact ⟨fun _ => rfl, rfl⟩

/-- Lets one thing happen after another, and takes it down, as long as nothing comes between
the effects of a transition. -/
def watch (c : Course) (n : Notice) : List Deed → Option (Course × Notice)
  | [] => some (c, n)
  | deed :: rest =>
    if c.elector.isBusy && !deed.isOwn then none
    else (c.act deed).bind fun next => next.watch (c.heed n deed) rest

/-- Taking down deeds one after the other goes on with a watched run. -/
theorem Watched.watch {c' : Course} {n' : Notice} {deeds : List Deed} (h : Watched c n)
    (hplay : c.watch n deeds = some (c', n')) : Watched c' n' := by
  induction deeds generalizing c n with
  | nil =>
    cases hplay
    exact h
  | cons deed rest ih =>
    simp only [Course.watch] at hplay
    split at hplay
    · cases hplay
    · rename_i hturn
      obtain ⟨next, hact, hrest⟩ := Option.bind_eq_some_iff.mp hplay
      exact ih (h.act deed (by simpa using hturn) hact) hrest

/-- The elector used as an example is at the start of a watched run. -/
theorem watched_novice (timing : Timing) : Watched (novice timing) ⟨none, 0⟩ :=
  .start _ _ _ 0 0 false (Nat.le_refl 0)

/-- A leader is told to shut down at twenty milliseconds, its body ends at some later instant,
and the store does not reply when the lock is given up. -/
def farewell (left : Nat) : List Deed :=
  quickWin ++ [.pass 20000000, .cancel] ++ alone 2 ++ [.pass left, .endBody] ++ alone 2

/-- The body takes ten more milliseconds. A retry period later the elector is about to return. -/
theorem returns_in_time_farewell :
    ∃ c n, (novice brisk).watch ⟨none, 0⟩ (farewell 30000000 ++ [.pass 5030000000]) = some (c, n)
      ∧ Watched c n ∧ n = ⟨some 20000000, 30000000⟩ ∧ n.told = some 20000000
      ∧ c.chronicle.isBodyRunning = false ∧ c.elector.isDone = false
      ∧ c.now = 5030000000 ∧ n.deadline c.elector 20000000 = 5030000000
      ∧ ∃ c', Under (fun _ deed => deed.isOwn = true) c c' ∧ c'.elector.isDone = true
          ∧ c'.now ≤ n.deadline c.elector 20000000 := by
  obtain ⟨c, n, hplay, hn, hbody, hdone, hnow, hdeadline⟩ : ∃ c n,
      (novice brisk).watch ⟨none, 0⟩ (farewell 30000000 ++ [.pass 5030000000]) = some (c, n)
        ∧ n = ⟨some 20000000, 30000000⟩
        ∧ c.chronicle.isBodyRunning = false ∧ c.elector.isDone = false
        ∧ c.now = 5030000000 ∧ n.deadline c.elector 20000000 = 5030000000 :=
    ⟨_, _, rfl, rfl, rfl, rfl, rfl, rfl⟩
  have hwatched : Watched c n := (watched_novice brisk).watch hplay
  have htold : n.told = some 20000000 := by rw [hn]
  obtain ⟨hreturns, -, -⟩ := hwatched.returns_in_time htold
  exact ⟨c, n, hplay, hwatched, hn, htold, hbody, hdone, hnow, hdeadline, (hreturns hbody hdone).2⟩

/-- A retry period that is no whole number of milliseconds. -/
def uneven : Timing := ⟨.ofSecs 15, .ofSecs 10, ⟨2000500000⟩⟩

/-- A retry period after it was told an elector may still give the lock up: its timer rings
at the next millisecond. -/
theorem not_returned_uneven :
    ¬ ∀ (c : Course) (n : Notice) (told : Nat) (lease renew retry : Duration), Watched c n →
      Timing.check lease renew retry = .ok c.elector.timing → n.told = some told →
      c.chronicle.isBodyRunning = false → c.elector.isDone = false →
      c.now ≤ max told n.left + retry.nanos := by
  intro hall
  have hcheck : Timing.check (.ofSecs 15) (.ofSecs 10) ⟨2000500000⟩ = .ok uneven := by
    have hscale : (⟨2000500000⟩ : Duration).scale Timing.jitterFactor = some ⟨2400600000⟩ := by
      decide +kernel
    exact Timing.check_of_lt (by decide) (by decide) (by decide) hscale (by decide)
  obtain ⟨c, n, hplay, htold, htiming, hbody, hdone, hlate⟩ : ∃ c n,
      (novice uneven).watch ⟨none, 0⟩ (farewell 20000000 ++ [.pass 2021000000]) = some (c, n)
        ∧ n.told = some 20000000 ∧ c.elector.timing = uneven
        ∧ c.chronicle.isBodyRunning = false ∧ c.elector.isDone = false
        ∧ max 20000000 n.left + 2000500000 < c.now :=
    ⟨_, _, rfl, rfl, rfl, rfl, rfl, by decide⟩
  rw [← htiming] at hcheck
  have hle := hall c n _ _ _ _ ((watched_novice uneven).watch hplay) hcheck htold hbody hdone
  exact absurd hle (Nat.not_le_of_lt hlate)

end Course

end Tenure.Leader
