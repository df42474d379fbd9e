import Tenure.Leader.Candidate
import Tenure.Proofs.Leader.Deadline
import Tenure.Proofs.Leader.Deed

/-!
# `Tenure.Proofs.Leader.Trouble`: errors of the store end no episode

A leader whose renewals fail with errors, or are not answered, tries again until its
deadline: one renew deadline after the start of the last attempt that was granted. The
deadline is computed when the leader begins to wait, and handed on from one attempt to
the next; `Reachable.deadline_eq` says that it is always counted from what is kept as
the last renewal.

So there are two ways to lose the lease: the deadline rings, or an attempt comes back
without a grant (`Does.lost_of`). Errors are neither. `Persists` is what is kept as long
as every attempt that ends fails with an error, whatever else happens; `Holds` is what a
leader keeps that is left alone besides.

* `Reachable.outlasts`: no lease is lost before the deadline by errors, a grant that
  comes by the deadline is taken however many errors came before it, and who loses the
  lease has missed its deadline or was denied.
* `outlasts_failures`: four renewals fail, and one that begins at the deadline is granted.
-/

set_option autoImplicit false

namespace Tenure.Leader

open Lease Store

namespace Elector

/-- The deadline that a leader goes by. -/
def deadline? (e : Elector) : Option Nat :=
  match e.stage with
  | .resting _ deadline | .renewing deadline .. | .pausing _ deadline => some deadline
  | _ => none

/-- How a renewal ends with a reply, if it does. -/
def ending? (e : Elector) (now : Nat) (reply : Reply) : Option (Except Error Outcome) :=
  match e.stage with
  | .renewing _ _ attempt =>
    match (e.client.answer attempt now reply).2 with
    | .finished result => some result
    | .ask _ => none
  | _ => none

/-- The elector has not lost the lease, and does not go back behind an instant. -/
structure Persists (since : Nat) (e : Elector) : Prop where
  ne_lost : e.machine.phase ≠ .lost
  last : e.machine.phase = .leading → since ≤ e.lastRenewal
  attempt : match e.stage with
    | .competing started _ | .renewing _ started _ => since ≤ started
    | _ => True

/-- The elector leads by the attempt that began at some instant, and its token is not
cancelled. -/
def LeadsSince (e : Elector) (began : Nat) : Prop :=
  e.machine.phase = .leading ∧ e.holdsToken = true ∧ e.lastRenewal = began

/-- The elector leads, and has no reason to give leadership up. -/
structure Holds (began : Nat) (e : Elector) : Prop where
  leads : e.LeadsSince began
  going : e.shutdown = false
  busy : e.bodyEnded = false

variable {e e' : Elector} {now : Moment} {delay : Duration} {reply : Reply} {notes : List Note}
  {since began : Nat}

/-- A renewal ends with what its client makes of the reply. -/
theorem ending?_eq {deadline started : Nat} {attempt : Attempt} {client : Client}
    {result : Except Error Outcome} {instant : Nat}
    (hstage : e.stage = .renewing deadline started attempt)
    (hreply : e.client.answer attempt instant reply = (client, .finished result)) :
    e.ending? instant reply = some result := by
  simp only [ending?, hstage, hreply]

/-- A leader goes by the deadline of its stage, renewing or waiting to renew. -/
theorem deadline?_of_stage {deadline : Nat}
    (hstage : (∃ started attempt, e.stage = .renewing deadline started attempt)
      ∨ ∃ wake, e.stage = .pausing wake deadline) : e.deadline? = some deadline := by
  rcases hstage with ⟨started, attempt, hstage⟩ | ⟨wake, hstage⟩
  · simp [deadline?, hstage]
  · simp [deadline?, hstage]

/-- Only a leader goes by a deadline. -/
theorem Coherent.leading_of_deadline (h : e.Coherent) {deadline : Nat}
    (hdeadline : e.deadline? = some deadline) : e.machine.phase = .leading := by
  cases hstage : e.stage with
  | resting _ _ | renewing _ _ _ | pausing _ _ =>
    simp only [Coherent, hstage] at h
    exact h.1
  | _ => simp [deadline?, hstage] at hdeadline

/-- An elector whose deadline has not rung does not lose the lease by itself. -/
theorem Step.persists (h : Step now delay e e' notes) (hp : e.Persists since)
    (hsince : since ≤ now.instant)
    (hearly : ∀ deadline ∈ e.deadline?, now.instant < Clock.ring deadline) :
    e'.Persists since := by
  obtain ⟨hne, hlast, hattempt⟩ := hp
  cases h with
  | withdraw _ _ _ _ | resume _ _ _ | relinquish _ _ _ _ =>
    exact ⟨by simp, fun hphase => (by cases hphase), trivial⟩
  | @lose deadline hstage hrung _ _ =>
    exact absurd hrung (Nat.not_le_of_lt (hearly deadline (deadline?_of_stage hstage)))
  | compete _ _ _ => exact ⟨hne, hlast, hsince⟩
  | renew _ _ _ _ => exact ⟨hne, hlast, hsince⟩
  | backOff _ _ _ | giveUp _ _ _ | rest _ _ _ | finish _ _ _ _ | settle _ _ | start _ _ _
  | exit _ _ _ _ | revoke _ _ _ _ _ _ | dismiss _ _ _ _ _ _ | release _ _ _ | abandon _ _ _
  | announce _ _ _ => exact ⟨hne, hlast, trivial⟩

/-- An elector that is not denied the lease does not lose it by a reply. -/
theorem Taken.persists (h : Taken now delay reply e e' notes) (hp : e.Persists since)
    (herror : ∀ result ∈ e.ending? now.instant reply, ∃ error, result = .error error) :
    e'.Persists since := by
  obtain ⟨hne, hlast, hattempt⟩ := hp
  cases h with
  | ask hstage hreply hphase hidle =>
    rw [hstage] at hattempt
    exact ⟨hne, hlast, hattempt⟩
  | askAgain hstage hreply hphase hoffice =>
    rw [hstage] at hattempt
    exact ⟨hne, hlast, hattempt⟩
  | win hstage hreply hgranted hphase hidle hquiet =>
    rw [hstage] at hattempt
    exact ⟨by simp, fun _ => hattempt, trivial⟩
  | keep hstage hreply hgranted hphase hoffice hquiet =>
    rw [hstage] at hattempt
    exact ⟨hne, fun _ => hattempt, trivial⟩
  -- a denial would be no error of the store
  | lose hstage hreply hdenied hphase hoffice hquiet =>
    obtain ⟨error, hresult⟩ := herror _ (ending?_eq hstage hreply)
    cases hresult
  | miss _ _ _ _ _ _ | fail _ _ _ _ | leave _ _ _ _ => exact ⟨hne, hlast, trivial⟩
  | vacate _ _ _ _ => exact ⟨hne, hlast, trivial⟩

/-- A leader whose deadline has not rung, and who has no reason to give leadership up,
leads on by itself. -/
theorem Step.holds (h : Step now delay e e' notes) (hh : e.Holds began)
    (hearly : ∀ deadline ∈ e.deadline?, now.instant < Clock.ring deadline) : e'.Holds began := by
  obtain ⟨⟨hleads, htoken, hlast⟩, hgoing, hbusy⟩ := hh
  have hepisode : e.episode ≠ none := fun hnone => by simp [holdsToken, hnone] at htoken
  cases h with
  | rest _ _ _ => exact ⟨⟨hleads, htoken, hlast⟩, hgoing, hbusy⟩
  | renew _ _ _ _ => exact ⟨⟨hleads, htoken, hlast⟩, hgoing, hbusy⟩
  | settle _ _ => exact ⟨⟨hleads, htoken, hlast⟩, hgoing, hbusy⟩
  -- the deadline has not rung, the elector was not told to shut down, and its body runs on
  | @lose deadline hstage hrung _ _ =>
    exact absurd hrung (Nat.not_le_of_lt (hearly deadline (deadline?_of_stage hstage)))
  | relinquish event hevent _ _ =>
    rcases hevent with ⟨-, hshutdown⟩ | ⟨-, hended⟩
    · simp [hgoing] at hshutdown
    · simp [hbusy] at hended
  | start _ _ hidle => exact absurd hidle.1 hepisode
  | withdraw _ hphase _ _ | backOff _ hphase _ | compete _ hphase _ | giveUp _ hphase _
  | finish _ hphase _ _ | exit _ hphase _ _ =>
    rw [hleads] at hphase
    cases hphase
  | resume _ hout _ | revoke _ _ _ hout _ _ | dismiss _ _ _ hout _ _ | release _ hout _
  | abandon _ hout _ | announce _ hout _ => exact absurd hleads hout.ne_leading

/-- A leader leads on when a renewal goes on or fails with an error. -/
theorem Taken.holds (h : Taken now delay reply e e' notes) (hh : e.Holds began)
    (herror : ∀ result ∈ e.ending? now.instant reply, ∃ error, result = .error error) :
    e'.Holds began := by
  obtain ⟨⟨hleads, htoken, hlast⟩, hgoing, hbusy⟩ := hh
  cases h with
  | askAgain _ _ _ _ => exact ⟨⟨hleads, htoken, hlast⟩, hgoing, hbusy⟩
  | fail _ _ _ _ => exact ⟨⟨hleads, htoken, hlast⟩, hgoing, hbusy⟩
  | keep hstage hreply _ _ _ _ | lose hstage hreply _ _ _ _ =>
    obtain ⟨error, hresult⟩ := herror _ (ending?_eq hstage hreply)
    cases hresult
  | ask _ _ hphase _ | win _ _ _ hphase _ _ | miss _ _ _ hphase _ _ =>
    rw [hleads] at hphase
    cases hphase
  | vacate _ _ hout _ | leave _ _ hout _ => exact absurd hleads hout.ne_leading

/-- By itself an elector loses the lease only when its deadline has rung. -/
theorem Step.lost_of (h : Step now delay e e' notes) (hbefore : e.machine.phase ≠ .lost)
    (hlost : e'.machine.phase = .lost) :
    ∃ deadline ∈ e.deadline?, Clock.ring deadline ≤ now.instant := by
  cases h with
  | @lose deadline hstage hrung _ _ => exact ⟨deadline, deadline?_of_stage hstage, hrung⟩
  | withdraw _ _ _ _ | relinquish _ _ _ _ | resume _ _ _ => cases hlost
  | _ => exact absurd hlost hbefore

/-- By a reply an elector loses the lease only when a renewal was not granted. -/
theorem Taken.lost_of (h : Taken now delay reply e e' notes) (hbefore : e.machine.phase ≠ .lost)
    (hlost : e'.machine.phase = .lost) :
    ∃ outcome, e.ending? now.instant reply = some (.ok outcome) ∧ outcome.granted = false := by
  cases h with
  | @lose deadline started attempt client outcome _ _ hstage hreply hdenied _ _ _ =>
    exact ⟨outcome, ending?_eq hstage hreply, hdenied⟩
  | win _ _ _ _ _ _ => cases hlost
  | _ => exact absurd hlost hbefore

/-- Leadership goes on with the episode that it has, by an attempt that began at some
instant. -/
def LeadsOnFrom (e e' : Elector) (began : Nat) : Prop :=
  e'.machine.phase = .leading ∧ e'.episode = e.episode ∧ e'.lastRenewal = began

/-- A renewal that is granted is taken. -/
theorem Taken.leadsOnFrom (h : Taken now delay reply e e' notes) {deadline started : Nat}
    {attempt : Attempt} (hstage : e.stage = .renewing deadline started attempt)
    {outcome : Outcome} (hending : e.ending? now.instant reply = some (.ok outcome))
    (hgranted : outcome.granted = true) : LeadsOnFrom e e' started := by
  cases h with
  | keep hkept _ _ hphase _ _ =>
    rw [hstage] at hkept
    cases hkept
    exact ⟨hphase, rfl, rfl⟩
  | lose hlost hreply hdenied _ _ _ =>
    cases (ending?_eq hlost hreply).symm.trans hending
    rw [hgranted] at hdenied
    cases hdenied
  | fail hfailed hreply _ _ => cases (ending?_eq hfailed hreply).symm.trans hending
  | askAgain hasked hreply _ _ => simp [ending?, hasked, hreply] at hending
  | ask hother _ _ _ | win hother _ _ _ _ _ | miss hother _ _ _ _ _ | vacate hother _ _ _
  | leave hother _ _ _ =>
    rw [hstage] at hother
    cases hother

end Elector

namespace Candidate

variable {k : Candidate} {request : Request} {store : Shared} {now : Moment} {delay : Duration}

/-- A call is sent before a timer is obeyed, and the elector stays as it is. -/
theorem next_of_waiting (hrequest : k.elector.request? = some request)
    (htransit : k.transit = none) :
    (k.advance store now delay).map (fun next => next.1.elector) = some k.elector := by
  simp only [advance, hrequest, htransit, Option.map_some]

/-- A reply that has arrived is taken before a timer is obeyed. -/
theorem next_of_arrived {transit : Transit} (hrequest : k.elector.request? = some request)
    (htransit : k.transit = some transit) (harrived : hasArrived transit now.instant = true) :
    (k.advance store now delay).map (fun next => next.1.elector)
      = some (k.elector.answer now delay (k.deliver request transit store).2.2).1 := by
  simp only [advance, hrequest, htransit, harrived, if_true, Option.map_some, receive]

end Candidate

namespace Course

variable {c c' : Course} {deed : Deed} {notes : List Note}

/-- How a deed ends a renewal, if it does. -/
def ending? (c : Course) : Deed → Option (Except Error Outcome)
  | .hear _ _ reply => c.elector.ending? c.now reply
  | _ => none

/-- Before an instant, a renewal that ends fails with an error of the store. -/
def Troubled (limit : Nat) (c : Course) (deed : Deed) : Prop :=
  c.now < limit → ∀ result ∈ c.ending? deed, ∃ error, result = .error error

/-- The elector is not told to shut down, and the body of its episode does not end. -/
def Undisturbed (deed : Deed) : Prop := deed ≠ .cancel ∧ deed ≠ .endBody

/-- What is kept as the deadline is counted from the grant. -/
theorem OnTime.deadline_eq {g : Grant} (h : c.OnTime g) {deadline : Nat}
    (hdeadline : c.elector.deadline? = some deadline) :
    deadline = Clock.after g.began c.elector.timing.renewDeadline := by
  have hontime := h.stage
  cases hstage : c.elector.stage with
  | resting wake other =>
    obtain rfl : other = deadline := by simpa [Elector.deadline?, hstage] using hdeadline
    simp only [StageOnTime, hstage] at hontime
    exact hontime.2.1
  | renewing other started attempt =>
    obtain rfl : other = deadline := by simpa [Elector.deadline?, hstage] using hdeadline
    simp only [StageOnTime, hstage] at hontime
    exact hontime.1
  | pausing wake other =>
    obtain rfl : other = deadline := by simpa [Elector.deadline?, hstage] using hdeadline
    simp only [StageOnTime, hstage] at hontime
    exact hontime.1
  | _ => simp [Elector.deadline?, hstage] at hdeadline

/-- A leader goes by the deadline that is counted from the start of its last renewal. -/
theorem Reachable.deadline_eq (h : Reachable c) {deadline : Nat}
    (hdeadline : c.elector.deadline? = some deadline) :
    c.elector.machine.phase = .leading
      ∧ deadline = Clock.after c.elector.lastRenewal c.elector.timing.renewDeadline := by
  have hphase := h.coherent.leading_of_deadline hdeadline
  obtain ⟨g, -, hg⟩ := h.timely.claim (.inl hphase)
  rw [hg.last_eq hphase]
  exact ⟨hphase, hg.deadline_eq hdeadline⟩

/-- A leader has not gone back behind its last renewal. -/
theorem Reachable.persists (h : Reachable c) (hphase : c.elector.machine.phase = .leading) :
    c.elector.Persists c.elector.lastRenewal ∧ c.elector.lastRenewal ≤ c.now := by
  obtain ⟨g, -, hg⟩ := h.timely.claim (.inl hphase)
  have hbegan := hg.began_le
  have hlanded := hg.landed_le
  have hlast := hg.last_eq hphase
  refine ⟨⟨by simp [hphase], fun _ => Nat.le_refl _, ?_⟩, by omega⟩
  have hc := h.coherent
  cases hstage : c.elector.stage with
  | competing started attempt =>
    simp [Elector.Coherent, hstage, hphase] at hc
  | renewing deadline started attempt =>
    have hontime := hg.stage
    simp only [StageOnTime, hstage] at hontime
    -- a renewal starts a retry period after the last grant has landed, which is after it began
    have hring := Clock.le_ring (Clock.after g.landed c.elector.timing.retryPeriod)
    simp only [Clock.after] at hring hontime
    show c.elector.lastRenewal ≤ started
    omega
  | _ => trivial

/-- Before the deadline that is counted from `since`, a deed that ends no renewal but with
an error does not lose the lease. -/
theorem Does.persists {since : Nat} (h : Does c deed c' notes) (hc : Reachable c)
    (hp : c.elector.Persists since) (hsince : since ≤ c.now)
    (hearly : c.now < Clock.ring (Clock.after since c.elector.timing.renewDeadline))
    (herror : ∀ result ∈ c.ending? deed, ∃ error, result = .error error) :
    c'.elector.Persists since := by
  cases h with
  | cancel =>
    show c.elector.cancel.1.Persists since
    rw [Elector.cancel_eq]
    exact ⟨hp.ne_lost, hp.last, hp.attempt⟩
  | endBody hbody => exact ⟨hp.ne_lost, hp.last, hp.attempt⟩
  | advance hadvance =>
    refine (hc.coherent.step hadvance).persists hp hsince fun deadline hdeadline => ?_
    obtain ⟨hphase, rfl⟩ := hc.deadline_eq hdeadline
    have hlater : Clock.after since c.elector.timing.renewDeadline
        ≤ Clock.after c.elector.lastRenewal c.elector.timing.renewDeadline :=
      Nat.add_le_add_right (hp.last hphase) _
    exact hearly.trans_le (Clock.ring_mono hlater)
  | hear hrequest => exact (hc.coherent.taken hrequest).persists hp herror
  | pass hle hcalm hdue => exact ⟨hp.ne_lost, hp.last, hp.attempt⟩

/-- Errors alone do not lose the lease before the deadline, whatever else happens. -/
theorem Under.persists {limit since : Nat} (h : Under (Troubled limit) c c') (hc : Reachable c)
    (hp : c.elector.Persists since) (hsince : since ≤ c.now)
    (hlimit : limit ≤ Clock.ring (Clock.after since c.elector.timing.renewDeadline))
    (hnow : c'.now < limit) : c'.elector.Persists since ∧ since ≤ c'.now := by
  induction h with
  | refl => exact ⟨hp, hsince⟩
  | @act c' c'' hrun deed htroubled hact ih =>
    have hdoes := does_of_act hact
    have hbefore : c'.now < limit := hdoes.now_le.trans_lt hnow
    obtain ⟨hp', hsince'⟩ := ih hbefore
    have hreach := hrun.later.reachable hc
    rw [← hrun.later.timing_eq hc] at hlimit
    exact ⟨hdoes.persists hreach hp' hsince' (hbefore.trans_le hlimit) (htroubled hbefore),
      hsince'.trans hdoes.now_le⟩

/-- Before its deadline, an undisturbed leader leads on through a deed that ends no renewal
but with an error. -/
theorem Does.holds {began : Nat} (h : Does c deed c' notes) (hc : Reachable c)
    (hh : c.elector.Holds began)
    (hearly : c.now < Clock.ring (Clock.after began c.elector.timing.renewDeadline))
    (herror : ∀ result ∈ c.ending? deed, ∃ error, result = .error error)
    (halone : Undisturbed deed) : c'.elector.Holds began := by
  cases h with
  | cancel => exact absurd rfl halone.1
  | endBody hbody => exact absurd rfl halone.2
  | advance hadvance =>
    refine (hc.coherent.step hadvance).holds hh fun deadline hdeadline => ?_
    obtain ⟨-, rfl⟩ := hc.deadline_eq hdeadline
    rw [hh.leads.2.2]
    exact hearly
  | hear hrequest => exact (hc.coherent.taken hrequest).holds hh herror
  | pass hle hcalm hdue => exact hh

/-- An undisturbed leader leads on through errors up to its deadline. -/
theorem Under.holds {limit began : Nat}
    (h : Under (fun c deed => Troubled limit c deed ∧ Undisturbed deed) c c') (hc : Reachable c)
    (hh : c.elector.Holds began)
    (hlimit : limit ≤ Clock.ring (Clock.after began c.elector.timing.renewDeadline))
    (hnow : c'.now < limit) : c'.elector.Holds began := by
  induction h with
  | refl => exact hh
  | @act c' c'' hrun deed htroubled hact ih =>
    have hdoes := does_of_act hact
    have hbefore : c'.now < limit := hdoes.now_le.trans_lt hnow
    have hreach := hrun.later.reachable hc
    rw [← hrun.later.timing_eq hc] at hlimit
    exact hdoes.holds hreach (ih hbefore) (hbefore.trans_le hlimit) (htroubled.1 hbefore)
      htroubled.2

/-- The lease is lost when its deadline has rung, or by an attempt that was not granted. -/
theorem Does.lost_of (h : Does c deed c' notes) (hc : c.elector.Coherent)
    (hbefore : c.elector.machine.phase ≠ .lost) (hlost : c'.elector.machine.phase = .lost) :
    (∃ deadline ∈ c.elector.deadline?, Clock.ring deadline ≤ c.now)
      ∨ ∃ outcome, c.ending? deed = some (.ok outcome) ∧ outcome.granted = false := by
  cases h with
  | cancel =>
    refine absurd ?_ hbefore
    have hcancel : c.elector.cancel.1.machine.phase = .lost := hlost
    rw [Elector.cancel_eq] at hcancel
    exact hcancel
  | endBody hbody => exact absurd hlost hbefore
  | advance hadvance => exact .inl ((hc.step hadvance).lost_of hbefore hlost)
  | @hear wall delay request reply hrequest =>
    have htaken : Elector.Taken ⟨c.now, wall⟩ delay reply c.elector _ _ := hc.taken hrequest
    exact .inr (htaken.lost_of hbefore hlost)
  | pass hle hcalm hdue => exact absurd hlost hbefore

/-- An elector at a renewal that has nothing urgent to do waits for a reply. -/
theorem request_of_renewing {deadline started : Nat} {attempt : Attempt}
    (hstage : c.elector.stage = .renewing deadline started attempt)
    (hcalm : c.elector.urgent = false) : c.elector.request? = some attempt.request := by
  simp [Elector.request?, hcalm, hstage]

/-- A leader whose renewals fail with errors, or are not answered, does not lose the lease
before its deadline, and leads on when it is left alone besides. While a renewal is under
way the elector does nothing by itself before the deadline has rung, and even then a call
is sent first, and a reply that has arrived is taken first. When that grants the lease,
leadership goes on and counts from the start of the renewal. Whoever loses the lease has
missed the deadline or was denied the lease. -/
theorem Reachable.outlasts (h : Reachable c) :
    (c.elector.machine.phase = .leading →
      ∀ limit ≤ Clock.ring (Clock.after c.elector.lastRenewal c.elector.timing.renewDeadline),
        (∀ c', Under (Troubled limit) c c' → c'.now < limit → c'.elector.machine.phase ≠ .lost)
        ∧ (c.elector.Holds c.elector.lastRenewal → ∀ c',
          Under (fun c deed => Troubled limit c deed ∧ Undisturbed deed) c c' → c'.now < limit →
            c'.elector.Holds c.elector.lastRenewal))
    ∧ (∀ deadline started attempt, c.elector.stage = .renewing deadline started attempt →
      c.elector.urgent = false →
        deadline = Clock.after c.elector.lastRenewal c.elector.timing.renewDeadline
        ∧ started = c.chronicle.began
        ∧ (∀ wall delay, c.now < Clock.ring deadline → c.elector.advance ⟨c.now, wall⟩ delay = none)
        ∧ (∀ (k : Candidate) store wall delay, k.elector = c.elector →
          (k.transit = none → (k.advance store ⟨c.now, wall⟩ delay).map (fun next => next.1.elector)
            = some c.elector)
          ∧ ∀ transit, k.transit = some transit → Candidate.hasArrived transit c.now = true →
            (k.advance store ⟨c.now, wall⟩ delay).map (fun next => next.1.elector)
              = some (c.hear wall delay (k.deliver attempt.request transit store).2.2).elector)
        ∧ ∀ wall delay reply outcome, c.elector.ending? c.now reply = some (.ok outcome) →
          outcome.granted = true →
            Elector.LeadsOnFrom c.elector (c.hear wall delay reply).elector started)
    ∧ ∀ deed c', c.act deed = some c' → c.elector.machine.phase ≠ .lost →
      c'.elector.machine.phase = .lost →
        (∃ deadline ∈ c.elector.deadline?, Clock.ring deadline ≤ c.now
          ∧ deadline = Clock.after c.elector.lastRenewal c.elector.timing.renewDeadline)
        ∨ ∃ outcome, c.ending? deed = some (.ok outcome) ∧ outcome.granted = false := by
  refine ⟨fun hphase limit hlimit => ⟨fun c' hrun hnow => ?_, fun hholds c' hrun hnow => ?_⟩,
    fun deadline started attempt hstage hcalm => ?_, fun deed c' hact hbefore hlost => ?_⟩
  · obtain ⟨hpersists, hlast⟩ := h.persists hphase
    exact (hrun.persists h hpersists hlast hlimit hnow).1.ne_lost
  · exact hrun.holds h hholds hlimit hnow
  · have hrequest := request_of_renewing hstage hcalm
    have hdeadline : c.elector.deadline? = some deadline := by simp [Elector.deadline?, hstage]
    have hattempt := h.timely.attempt
    simp only [AttemptOnTime, hstage] at hattempt
    refine ⟨(h.deadline_eq hdeadline).2, hattempt.1.symm, fun wall delay hnow => ?_,
      fun k store wall delay hk => ⟨fun htransit => ?_, fun transit htransit harrived => ?_⟩,
      fun wall delay reply outcome hending hgranted => ?_⟩
    · -- until the deadline rings the elector waits for its call, however long that takes
      have hnot : ¬ Clock.ring deadline ≤ c.now := Nat.not_le_of_lt hnow
      simp [Elector.advance, hcalm, Elector.advanceTimer, hstage, Clock.reached, hnot]
    · rw [← hk] at hrequest ⊢
      exact Candidate.next_of_waiting hrequest htransit
    · rw [← hk] at hrequest
      rw [Candidate.next_of_arrived hrequest htransit harrived, hk]
      rfl
    · have htaken : Elector.Taken ⟨c.now, wall⟩ delay reply c.elector _ _ :=
        h.coherent.taken hrequest
      exact htaken.leadsOnFrom hstage hending hgranted
  · rcases (does_of_act hact).lost_of h.coherent hbefore hlost with
      ⟨deadline, hmem, hrung⟩ | hdenied
    · exact .inl ⟨deadline, hmem, hrung, (h.deadline_eq hmem).2⟩
    · exact .inr hdenied

/-- Fifteen seconds of lease, ten of renew deadline and a retry every two. -/
def swift : Timing := ⟨.ofSecs 15, .ofSecs 10, .ofSecs 2⟩

/-- Four renewals fail, each with another error, and the leader waits for the last one. -/
def failures : List Deed :=
  [.pass 2000000000, .advance 0 ⟨0⟩, .hear 0 ⟨0⟩ (.failed (.unavailable "out of reach")),
    .pass 4000000000, .advance 0 ⟨0⟩, .hear 0 ⟨0⟩ (.failed (.notFound ⟨"test", "lock"⟩)),
    .pass 6000000000, .advance 0 ⟨0⟩, .hear 0 ⟨0⟩ (.failed .corrupt),
    .pass 8000000000, .advance 0 ⟨0⟩, .hear 0 ⟨0⟩ (.failed (.unavailable "out of reach"))]

/-- A renewal begins at the deadline, and the store has the last call of it written. -/
def atTheDeadline : List Deed :=
  [.pass 10000000000, .advance 0 ⟨0⟩, .hear 0 ⟨0⟩ (.found none)]

/-- Whether a deed ends no renewal but with an error, and leaves the elector alone. -/
def isTrouble (c : Course) (deed : Deed) : Bool :=
  match deed with
  | .cancel | .endBody => false
  | _ => match c.ending? deed with
    | some (.ok _) => false
    | _ => true

/-- The test for trouble means what it says: no renewal ends without an error, and the elector is
left alone. -/
theorem troubled_of_isTrouble {limit : Nat} (h : c.isTrouble deed = true) :
    Troubled limit c deed ∧ Undisturbed deed := by
  unfold isTrouble at h
  split at h
  · cases h
  · cases h
  · rename_i hcancel hbody
    refine ⟨fun _ result hresult => ?_, fun heq => hcancel heq, fun heq => hbody heq⟩
    cases result with
    | ok outcome =>
      rw [Option.mem_def.mp hresult] at h
      cases h
    | error error => exact ⟨error, rfl⟩

/-- Four renewals fail, and after each the leader leads on. The next one begins at the
deadline itself and is granted at once, and leadership counts from there. -/
theorem outlasts_failures : ∃ c c' c'' outcome, (novice swift).play quickWin = some c ∧ Reachable c
    ∧ c.playUnder isTrouble failures = some c' ∧ c'.now = 8000000000 ∧ c'.elector.Holds 0
    ∧ c'.play atTheDeadline = some c'' ∧ c''.now = Clock.ring (Clock.after 0 swift.renewDeadline)
    ∧ c''.elector.ending? c''.now (.written 2) = some (.ok outcome)
    ∧ Elector.LeadsOnFrom c''.elector (c''.hear 0 ⟨0⟩ (.written 2)).elector 10000000000 := by
  obtain ⟨c, c', c'', outcome, attempt, hwin, hfail, hlate, hphase, hlast, htiming, hholds, hnow',
      hstage, hcalm, hnow'', hending, hgranted⟩ : ∃ c c' c'' outcome attempt,
      (novice swift).play quickWin = some c ∧ c.playUnder isTrouble failures = some c'
        ∧ c'.play atTheDeadline = some c'' ∧ c.elector.machine.phase = .leading
        ∧ c.elector.lastRenewal = 0 ∧ c.elector.timing = swift
        ∧ (c.elector.holdsToken = true ∧ c.elector.shutdown = false ∧ c.elector.bodyEnded = false)
        ∧ c'.now = 8000000000
        ∧ c''.elector.stage = .renewing 10000000000 10000000000 attempt
        ∧ c''.elector.urgent = false ∧ c''.now = 10000000000
        ∧ c''.elector.ending? c''.now (.written 2) = some (.ok outcome)
        ∧ outcome.granted = true :=
    ⟨_, _, _, _, _, rfl, rfl, rfl, rfl, rfl, rfl, ⟨rfl, rfl, rfl⟩, rfl, rfl, rfl, rfl, rfl, rfl⟩
  -- the points were computed; from here on the theorem speaks about them
  have hreach : Reachable c := (reachable_novice swift).play hwin
  have hrun : Under (fun c deed => Troubled 10000000000 c deed ∧ Undisturbed deed) c c' :=
    Under.refl.play (fun _ _ => troubled_of_isTrouble) hfail
  have hreach' : Reachable c' := hrun.later.reachable hreach
  have hreach'' : Reachable c'' := hreach'.play hlate
  have hlimit : 10000000000
      ≤ Clock.ring (Clock.after c.elector.lastRenewal c.elector.timing.renewDeadline) := by
    rw [hlast, htiming]
    decide
  have hholds : c.elector.Holds c.elector.lastRenewal :=
    ⟨⟨hphase, hholds.1, rfl⟩, hholds.2.1, hholds.2.2⟩
  obtain ⟨-, hkept⟩ := hreach.outlasts.1 hphase _ hlimit
  obtain ⟨-, -, -, -, hgrants⟩ := hreach''.outlasts.2.1 _ _ _ hstage hcalm
  have hheld : c'.elector.Holds 0 := by
    rw [← hlast]
    exact hkept hholds c' hrun (by rw [hnow']; decide)
  exact ⟨c, c', c'', outcome, hwin, hreach, hfail, hnow', hheld, hlate, hnow''.trans (by decide),
    hending, hgrants 0 ⟨0⟩ _ outcome hending hgranted⟩

end Course

end Tenure.Leader
