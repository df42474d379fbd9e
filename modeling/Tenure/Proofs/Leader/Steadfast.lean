import Tenure.Proofs.Leader.Exclusion
import Tenure.Proofs.Store.Decided

/-!
# `Tenure.Proofs.Leader.Steadfast`: a leader whose store answers in time

A renewal begins a retry period after the last grant, and takes two calls, as does
the attempt before it. When each call is answered within `d`, and four calls and a
retry period are less than the renew deadline, then every renewal ends before its
deadline. That is before the lease has run out, so nobody else has touched the
record: the lookup finds the record of the last grant, and the update replaces it.

`Attended` is a run in which the store itself answers every call of a candidate in
time; everything else in it is free. `Seat.Steady` is what such a run preserves.

* `Seat.Steady.renewal_in_time`: a renewal is never late.
* `Arena.Attended.never_lost`: the candidate never loses the lease; it gives up only
  when it is told to shut down or the body of its episode has ended.
-/

set_option autoImplicit false

namespace Tenure.Lease

open Store

/-- How many calls of an attempt were answered. -/
def Attempt.answered : Attempt → Nat
  | looking _ => 0
  | founding _ | claiming .. => 1

/-- An attempt that looks the record up, or replaces the one that is there. -/
def Attempt.Renews (current : Option (Versioned Record)) : Attempt → Prop
  | looking _ => True
  | founding _ => False
  | claiming base _ => current = some base

/-- Of the two calls of an attempt, one was answered at most. -/
theorem Attempt.answered_le (attempt : Attempt) : attempt.answered ≤ 1 := by
  cases attempt <;> simp [answered]

namespace Client

variable {c c' : Client} {now : Nat} {key : Key} {reply : Reply} {attempt next : Attempt}
  {current' : Option (Versioned Record)} {latest : Versioned Record}
  {result : Next Attempt Outcome}

/-- A lookup is what is followed by another call. -/
theorem Answered.answered_eq (h : Answered c now reply attempt c' (.ask next))
    (hfits : reply.fits attempt.request = true) : attempt.answered = 0 ∧ next.answered = 1 := by
  cases h with
  | vacant hreply => exact ⟨rfl, rfl⟩
  | free hreply hfree => exact ⟨rfl, rfl⟩
  | stray hreply =>
    rw [hreply] at hfits
    cases hfits

/-- A client whose own record is in the store finds it, and replaces it. -/
theorem Answered.renews (h : Answered c now reply attempt c' result)
    (hd : Decided key (some latest) attempt.request current' reply)
    (hown : latest.value.isHeldBy c.identity = true) (hrenews : attempt.Renews (some latest)) :
    (∃ next, result = .ask next ∧ next.Renews current')
      ∨ ∃ outcome, result = .finished (.ok outcome) ∧ outcome.granted = true := by
  cases attempt with
  | looking wall =>
    cases hd
    cases h with
    | vacant hreply => cases hreply
    | barred hreply hbarred =>
      -- nobody is barred from a record that is its own
      cases hreply
      have hidentity := (isSame_observeIfChanged c latest now).identity_eq
      simp [isBarred, hidentity, hown] at hbarred
    | free hreply hfree =>
      cases hreply
      exact .inl ⟨_, rfl, rfl⟩
    | written hreply hdesired => cases hreply
    | failed hreply hdenied => cases hreply
    | stray hreply => cases hreply
  | founding desired => exact absurd hrenews id
  | claiming base desired =>
    obtain rfl : latest = base := Option.some.inj hrenews
    cases hd with
    | updated hcurrent hversion =>
      cases h with
      | written hreply hdesired => exact .inr ⟨_, rfl, rfl⟩
      | failed hreply hdenied => cases hreply
      | stray hreply => cases hreply
    | moved hcurrent hne =>
      cases hcurrent
      exact absurd rfl hne
    | missing habsent => cases habsent

end Client

end Tenure.Lease

namespace Tenure.Leader

open Lease Store

/-- Four calls and a retry period are less than the renew deadline, which is less
than the lease that others are told. -/
structure ElectionConfig.HasRoom {ι : Type} (config : ElectionConfig ι) (d : Duration) : Prop where
  retry_dvd : 1000000 ∣ config.timing.retryPeriod.nanos
  renew : 4 * d.nanos + config.timing.retryPeriod.nanos < config.timing.renewDeadline.nanos
  lease : config.timing.renewDeadline < config.advertised

/-- Timing that passes the check, in whole milliseconds, has room for four calls and a retry period
when they fit into the renew deadline. -/
theorem ElectionConfig.hasRoom {ι : Type} {config : ElectionConfig ι}
    {lease renew retry d : Duration}
    (ht : Timing.check lease renew retry = .ok config.timing) (hlease : 1000000 ∣ lease.nanos)
    (hretry : 1000000 ∣ retry.nanos) (hfits : lease.millis < 2 ^ 64)
    (hd : 4 * d.nanos + retry.nanos < renew.nanos) : config.HasRoom d := by
  obtain ⟨htiming, hlt, -⟩ := Timing.check_ok ht
  have hadvertised : config.advertised = config.timing.lease :=
    ElectionConfig.advertised_eq (by rwa [htiming]) (by rwa [htiming])
  refine ⟨by rwa [htiming], by rwa [htiming], ?_⟩
  rw [hadvertised, htiming]
  exact hlt

namespace Candidate

/-- A call that has arrived reaches the store as it is, and the store replies. -/
def IsServed (c : Candidate) (store : Shared) (now : Nat) : Prop :=
  ∀ request ∈ c.elector.request?, ∀ transit ∈ c.transit, hasArrived transit now = true →
    c.deliver request transit store = (c.link, store.answer c.elector.client.key request)

/-- No harm waits for a call, and the one that is out was not turned back. -/
def isPlain (c : Candidate) : Bool :=
  c.link.faults.isEmpty && match c.transit with
    | some (.refused _) => false
    | _ => true

/-- A call that meets no harm is served by any store. -/
theorem isServed_of_isPlain {c : Candidate} (h : c.isPlain = true) (store : Shared) (now : Nat) :
    c.IsServed store now := by
  intro request hrequest transit htransit harrived
  simp only [isPlain, Bool.and_eq_true, List.isEmpty_iff] at h
  obtain ⟨hfaults, hrefused⟩ := h
  unfold deliver
  split
  · rw [Option.mem_def.mp htransit] at hrefused
    cases hrefused
  · simp [Link.deliver, hfaults, Link.takeFault]

/-- A candidate that can do nothing waits for a reply if it is at an attempt. -/
theorem transit_of_advance_none {c : Candidate} {store : Shared} {now : Moment} {delay : Duration}
    (h : c.advance store now delay = none) (hattempt : c.elector.isAttempting = true) :
    c.transit ≠ none := by
  intro hnone
  have hcalm := urgent_of_advance_none h
  unfold Elector.isAttempting at hattempt
  split at hattempt
  · rename_i hstage
    simp [advance, Elector.request?, hcalm, hstage, hnone] at h
  · rename_i hstage
    simp [advance, Elector.request?, hcalm, hstage, hnone] at h
  · cases hattempt

end Candidate

namespace Seat

variable {ι : Type} {config : ElectionConfig ι} {i : ι} {d : Duration}
  {current current' : Option (Versioned Record)} {written now since : Nat} {s : Seat}

/-- At an attempt no call has been out for too long, and a renewal replaces the
record of the last grant. The call that is out was sent `since` then. -/
def StageSteady (config : ElectionConfig ι) (d : Duration) (current : Option (Versioned Record))
    (since : Nat) (s : Seat) : Prop :=
  match s.candidate.elector.stage with
  | .competing started attempt => since ≤ started + attempt.answered * d.nanos
  | .renewing _ started attempt =>
    since ≤ started + attempt.answered * d.nanos ∧ attempt.Renews current
      ∧ ∀ g ∈ s.chronicle.grant, started = Clock.after g.landed config.timing.retryPeriod
  | .pausing .. => False
  | _ => True

/-- A candidate whose calls were answered in time has not lost the lease. -/
structure Steady (config : ElectionConfig ι) (d : Duration) (current : Option (Versioned Record))
    (since : Nat) (s : Seat) : Prop where
  ne_lost : s.candidate.elector.machine.phase ≠ .lost
  granted : s.candidate.elector.machine.phase = .leading → ∀ g ∈ s.chronicle.grant,
    g.landed ≤ g.began + 2 * d.nanos
  stage : s.StageSteady config d current since

/-- Leadership goes on, or it is given up because the candidate was told to shut
down or the body of its episode has ended. -/
def LeadsOn (e e' : Elector) : Prop :=
  e.machine.phase = .leading → e'.machine.phase = .leading
    ∨ e'.machine.phase = .released ∧ (e.shutdown = true ∨ e.bodyEnded = true)

/-- A renewal is never late: it ends before its deadline, and so before the lease
has run out. -/
theorem Steady.renewal_in_time (h : s.Steady config d current since) (hroom : config.HasRoom d)
    (hcustody : Custody config i current written now s) {g : Grant}
    (hgrant : s.chronicle.grant = some g) (hg : (s.course now).OnTime g)
    (hprompt : now ≤ Clock.after since d) {deadline started : Nat} {attempt : Attempt}
    (hphase : s.candidate.elector.machine.phase = .leading)
    (hstage : s.candidate.elector.stage = .renewing deadline started attempt) :
    now < deadline ∧ now < Clock.after g.landed config.advertised := by
  have hsteady := h.stage
  have hontime := hg.stage
  simp only [StageSteady, hstage] at hsteady
  simp only [Course.StageOnTime, course, hstage, hcustody.timing_eq] at hontime
  obtain ⟨hsince, -, hstarted⟩ := hsteady
  obtain ⟨hdeadline, -, -⟩ := hontime
  have hstarted := hstarted g hgrant
  have hlanded := h.granted hphase g hgrant
  have hbegan := hg.began_le
  -- an attempt has one call behind it at most, so what it has taken so far is bounded by one more
  have hcalls : attempt.answered * d.nanos ≤ d.nanos := by
    have hle := Nat.mul_le_mul_right d.nanos attempt.answered_le
    rwa [Nat.one_mul] at hle
  have hrenew := hroom.renew
  have hlease : config.timing.renewDeadline.nanos < config.advertised.nanos := hroom.lease
  simp only [Clock.after] at hprompt hstarted hdeadline ⊢
  omega

/-- A leader at a renewal finds its own record in the store. -/
theorem Steady.own_record (h : s.Steady config d current since) (hroom : config.HasRoom d)
    (hcustody : Custody config i current written now s) {g : Grant}
    (hgrant : s.chronicle.grant = some g) (hg : (s.course now).OnTime g)
    (hprompt : now ≤ Clock.after since d) {deadline started : Nat} {attempt : Attempt}
    (hphase : s.candidate.elector.machine.phase = .leading)
    (hstage : s.candidate.elector.stage = .renewing deadline started attempt) :
    ∃ latest, current = some latest
      ∧ latest.value.isHeldBy s.candidate.elector.client.identity = true := by
  obtain ⟨-, hnow⟩ := h.renewal_in_time hroom hcustody hgrant hg hprompt hphase hstage
  obtain ⟨latest, hlatest, hholder, -⟩ := hcustody.hold (.inl hphase) g hgrant hnow
  refine ⟨latest, hlatest, ?_⟩
  rw [hcustody.identity_eq]
  simpa [Record.isHeldBy] using hholder

/-- The store has the next call of a renewal go ahead, or grants the lease. -/
theorem Steady.renewed (h : s.Steady config d current since) (hroom : config.HasRoom d)
    (hcustody : Custody config i current written now s) (htimely : (s.course now).Timely)
    (hprompt : now ≤ Clock.after since d) {deadline started : Nat} {attempt : Attempt}
    {reply : Reply} (hphase : s.candidate.elector.machine.phase = .leading)
    (hstage : s.candidate.elector.stage = .renewing deadline started attempt)
    (hd : Decided config.key current attempt.request current' reply) :
    (∃ next, (s.candidate.elector.client.answer attempt now reply).2 = .ask next
        ∧ next.Renews current' ∧ next.answered = 1 ∧ attempt.answered = 0)
      ∨ ∃ outcome, (s.candidate.elector.client.answer attempt now reply).2
          = .finished (.ok outcome) ∧ outcome.granted = true := by
  obtain ⟨g, hgrant, hg⟩ := htimely.claim (.inl hphase)
  obtain ⟨latest, rfl, hown⟩ := h.own_record hroom hcustody hgrant hg hprompt hphase hstage
  have hsteady := h.stage
  simp only [StageSteady, hstage] at hsteady
  obtain ⟨-, hrenews, -⟩ := hsteady
  have hanswered := s.candidate.elector.client.answered attempt now reply
  rcases hanswered.renews hd hown hrenews with ⟨next, hask, hnext⟩ | hend
  · rw [hask] at hanswered
    obtain ⟨hzero, hone⟩ := hanswered.answered_eq hd.fits
    exact .inl ⟨next, hask, hnext, hone, hzero⟩
  · exact .inr hend

/-- A renewal that comes to its end is granted. -/
theorem Steady.renewed_granted (h : s.Steady config d current since) (hroom : config.HasRoom d)
    (hcustody : Custody config i current written now s) (htimely : (s.course now).Timely)
    (hprompt : now ≤ Clock.after since d) {deadline started : Nat} {attempt : Attempt}
    {reply : Reply} (hphase : s.candidate.elector.machine.phase = .leading)
    (hstage : s.candidate.elector.stage = .renewing deadline started attempt)
    (hd : Decided config.key current attempt.request current' reply) {client : Client}
    {result : Except Error Outcome}
    (hreply : s.candidate.elector.client.answer attempt now reply = (client, .finished result)) :
    ∃ outcome, result = .ok outcome ∧ outcome.granted = true := by
  have hrenewed := h.renewed hroom hcustody htimely hprompt hphase hstage hd
  rw [hreply] at hrenewed
  obtain ⟨next, hask, -⟩ | ⟨outcome, hend, hgranted⟩ := hrenewed
  · cases hask
  · cases hend
    exact ⟨outcome, rfl, hgranted⟩

/-- What a candidate does by itself keeps it steady. -/
theorem Steady.step (h : s.Steady config d current since) (hroom : config.HasRoom d)
    (hcustody : Custody config i current written now s) (htimely : (s.course now).Timely)
    (hprompt : now ≤ Clock.after since d) {wall : Nat} {delay : Duration} {elector : Elector}
    {notes : List Note} (hstep : s.candidate.elector.Step ⟨now, wall⟩ delay elector notes) :
    (s.follow now ⟨elector, s.candidate.link, none⟩ notes none).Steady config d current now
      ∧ LeadsOn s.candidate.elector elector := by
  -- a leader that stays one keeps its grant
  have keep (hphase : elector.machine.phase = s.candidate.elector.machine.phase)
      (hstage : (s.follow now ⟨elector, s.candidate.link, none⟩ notes none).StageSteady config d
        current now) :
      (s.follow now ⟨elector, s.candidate.link, none⟩ notes none).Steady config d current now
        ∧ LeadsOn s.candidate.elector elector := by
    refine ⟨⟨?_, fun hleading => ?_, hstage⟩, fun hleading => .inl (hphase.trans hleading)⟩
    · exact fun hlost => h.ne_lost (hphase.symm.trans hlost)
    · exact h.granted (hphase.symm.trans hleading)
  -- one that is no leader has nothing to keep
  have leave (hphase : s.candidate.elector.machine.phase ≠ .leading)
      (hlost : elector.machine.phase ≠ .lost) (hleading : elector.machine.phase ≠ .leading)
      (hstage : (s.follow now ⟨elector, s.candidate.link, none⟩ notes none).StageSteady config d
        current now) :
      (s.follow now ⟨elector, s.candidate.link, none⟩ notes none).Steady config d current now
        ∧ LeadsOn s.candidate.elector elector :=
    ⟨⟨hlost, fun hphase' => absurd hphase' hleading, hstage⟩,
      fun hphase' => absurd hphase' hphase⟩
  cases hstep with
  | withdraw backoff hphase hshutdown hidle =>
    exact leave (by simp [hphase]) (by simp) (by simp) trivial
  | compete hstage hphase hidle => exact keep rfl (Nat.le_add_right _ _)
  | resume hstage hout hidle => exact leave hout.ne_leading (by simp) (by simp) trivial
  | backOff hstage hphase hidle | giveUp hstage hphase hidle | rest hstage hphase hoffice
  | finish hstage hphase hidle hshutdown | settle hstage hsettled | start hstage hphase hidle
  | exit hstage hphase hidle hshutdown | revoke hstage hepisode hended hout hleading hrest
  | dismiss hstage hepisode hended hout hleading hrest | release hstage hout hleaving
  | abandon hstage hout hleaving | announce hstage hout hleaving => exact keep rfl trivial
  | relinquish event hevent hphase hoffice =>
    refine ⟨⟨by simp [follow], fun hleading => (by cases hleading), trivial⟩,
      fun _ => .inr ⟨rfl, ?_⟩⟩
    rcases hevent with ⟨-, hshutdown⟩ | ⟨-, hended⟩
    · exact .inl hshutdown
    · exact .inr hended
  | @renew wake deadline hstage hrung hphase hoffice =>
    obtain ⟨g, hgrant, hg⟩ := htimely.claim (.inl hphase)
    have hgrant : s.chronicle.grant = some g := hgrant
    refine keep rfl ⟨Nat.le_add_right _ _, trivial, fun g' hg' => ?_⟩
    obtain rfl : g = g' := Option.some.inj (hgrant.symm.trans hg')
    have hsteady := h.stage
    have hontime := hg.stage
    rcases hstage with hs | hs
    · -- the grant landed at the end of a millisecond, so the timer rings right after the period
      simp only [Course.StageOnTime, course, hs, hcustody.timing_eq] at hontime
      obtain ⟨hwake, -, hnow⟩ := hontime
      have hring : Clock.ring wake = Clock.after g.landed config.timing.retryPeriod := by
        rw [hwake]
        exact Clock.ring_of_dvd _ (Nat.dvd_add (hcustody.landed g hgrant) hroom.retry_dvd)
      show now = _
      rw [← hring]
      exact Nat.le_antisymm hnow hrung
    · simp only [StageSteady, hs] at hsteady
  | @lose deadline hstage hrung hphase hoffice =>
    exfalso
    obtain ⟨g, hgrant, hg⟩ := htimely.claim (.inl hphase)
    rcases hstage with ⟨started, attempt, hs⟩ | ⟨wake, hs⟩
    · obtain ⟨hnow, -⟩ := h.renewal_in_time hroom hcustody hgrant hg hprompt hphase hs
      have hring := Clock.le_ring deadline
      have hrung : Clock.ring deadline ≤ now := hrung
      omega
    · have hsteady := h.stage
      simp only [StageSteady, hs] at hsteady

/-- A reply that grants nothing leaves the grant as it was. -/
theorem grant_follow_of_denied {after : Candidate} {notes : List Note} {reply : Reply}
    (hdenied : s.candidate.elector.isGrantedBy now reply = false) :
    (s.follow now after notes (some reply)).chronicle.grant = s.chronicle.grant := by
  simp [follow, Chronicle.hear, Chronicle.follow, hdenied]

/-- A reply to an attempt that grants the lease within two calls is a good grant. -/
theorem landed_of_granted {after : Candidate} {notes : List Note} {reply : Reply} {started : Nat}
    {attempt : Attempt} (hgranted : s.candidate.elector.isGrantedBy now reply = true)
    (hbegan : s.chronicle.began = started)
    (hsince : since ≤ started + attempt.answered * d.nanos) (hprompt : now ≤ Clock.after since d) :
    ∀ g ∈ (s.follow now after notes (some reply)).chronicle.grant,
      g.landed ≤ g.began + 2 * d.nanos := by
  intro g hg
  have hcalls : attempt.answered * d.nanos ≤ d.nanos := by
    have hle := Nat.mul_le_mul_right d.nanos attempt.answered_le
    rwa [Nat.one_mul] at hle
  simp only [follow, Chronicle.hear, Chronicle.follow, hgranted, if_true] at hg
  cases hg
  simp only [Clock.after] at hprompt
  show now ≤ s.chronicle.began + 2 * d.nanos
  omega

/-- A renewal whose next call goes out stays in time. -/
theorem Steady.asked_again (h : s.Steady config d current since) (hroom : config.HasRoom d)
    (hcustody : Custody config i current written now s) (htimely : (s.course now).Timely)
    (hprompt : now ≤ Clock.after since d) {deadline started : Nat} {attempt next : Attempt}
    {reply : Reply} (hphase : s.candidate.elector.machine.phase = .leading)
    (hstage : s.candidate.elector.stage = .renewing deadline started attempt)
    (hd : Decided config.key current attempt.request current' reply) {client : Client}
    (hreply : s.candidate.elector.client.answer attempt now reply = (client, .ask next))
    {elector : Elector} {link : Link} {notes : List Note}
    (hmachine : elector.machine = s.candidate.elector.machine)
    (hnext : elector.stage = .renewing deadline started next) :
    (s.follow now ⟨elector, link, none⟩ notes (some reply)).Steady config d current' now := by
  have hrenewed := h.renewed hroom hcustody htimely hprompt hphase hstage hd
  rw [hreply] at hrenewed
  -- the first call has found the own record, so the second one is to replace it
  obtain ⟨next', hask, hrenews, hone, hzero⟩ | ⟨outcome, hend, -⟩ := hrenewed
  · cases hask
    have hsteady := h.stage
    simp only [StageSteady, hstage, hzero] at hsteady
    obtain ⟨hsince, -, hstarted⟩ := hsteady
    have hdenied : s.candidate.elector.isGrantedBy now reply = false := by
      simp [Elector.isGrantedBy, hstage, hreply]
    have hgrant : (s.follow now ⟨elector, link, none⟩ notes (some reply)).chronicle.grant
        = s.chronicle.grant := grant_follow_of_denied hdenied
    refine ⟨?_, fun _ => ?_, ?_⟩
    · show elector.machine.phase ≠ .lost
      rw [hmachine]
      exact h.ne_lost
    · rw [hgrant]
      exact h.granted hphase
    · have hstage' :
          (s.follow now ⟨elector, link, none⟩ notes (some reply)).candidate.elector.stage
            = .renewing deadline started next := hnext
      simp only [StageSteady, hstage', hgrant]
      simp only [Clock.after] at hprompt
      rw [hone]
      exact ⟨by omega, hrenews, hstarted⟩
  · cases hend

/-- What a candidate does with the reply of the store keeps it steady. -/
theorem Steady.taken (h : s.Steady config d current since) (hroom : config.HasRoom d)
    (hcustody : Custody config i current written now s) (htimely : (s.course now).Timely)
    (hprompt : now ≤ Clock.after since d) {wall : Nat} {delay : Duration} {link : Link}
    {elector : Elector} {notes : List Note} {request : Request} {reply : Reply}
    (hrequest : s.candidate.elector.request? = some request)
    (hd : Decided config.key current request current' reply)
    (htaken : s.candidate.elector.Taken ⟨now, wall⟩ delay reply elector notes) :
    (s.follow now ⟨elector, link, none⟩ notes (some reply)).Steady config d current' now
      ∧ LeadsOn s.candidate.elector elector := by
  have hsteady := h.stage
  have hattempt := htimely.attempt
  have hcall {attempt : Attempt} (hattempt : s.candidate.elector.attempt? = some attempt) :
      Decided config.key current attempt.request current' reply :=
    Elector.request_of_attempt hrequest hattempt ▸ hd
  -- a candidate that does not lead before and after has no lease to lose
  have idle (hphase : s.candidate.elector.machine.phase ≠ .leading)
      (hsame : elector.machine.phase = s.candidate.elector.machine.phase)
      (hstage : (s.follow now ⟨elector, link, none⟩ notes (some reply)).StageSteady config d
        current' now) :
      (s.follow now ⟨elector, link, none⟩ notes (some reply)).Steady config d current' now
        ∧ LeadsOn s.candidate.elector elector := by
    refine ⟨⟨?_, fun hleading => ?_, hstage⟩, fun hleading => absurd hleading hphase⟩
    · exact fun hlost => h.ne_lost (hsame.symm.trans hlost)
    · exact absurd (hsame.symm.trans hleading) hphase
  cases htaken with
  | @ask started attempt next client hstage hreply hphase hidle =>
    have hanswered := s.candidate.elector.client.answered attempt now reply
    rw [hreply] at hanswered
    obtain ⟨hzero, hone⟩ :=
      hanswered.answered_eq (hcall (by simp [Elector.attempt?, hstage])).fits
    simp only [StageSteady, hstage, hzero] at hsteady
    simp only [Clock.after] at hprompt
    refine idle (by simp [hphase]) rfl ?_
    show now ≤ started + next.answered * d.nanos
    rw [hone]
    omega
  | @win started attempt client outcome holder _ hstage hreply hgranted hphase hidle hquiet =>
    simp only [Course.AttemptOnTime, course, hstage] at hattempt
    simp only [StageSteady, hstage] at hsteady
    refine ⟨⟨by simp [follow], fun _ => ?_, trivial⟩, fun hleading => ?_⟩
    · exact landed_of_granted (by simp [Elector.isGrantedBy, hstage, hreply, hgranted])
        hattempt.1 hsteady hprompt
    · exact .inl rfl
  | miss hstage hreply hdenied hphase hidle hquiet =>
    exact idle (by simp [hphase]) rfl trivial
  | vacate hstage hreply hout hleaving => exact idle hout.ne_leading rfl trivial
  | leave hstage hreply hout hleaving => exact idle hout.ne_leading rfl trivial
  | @askAgain deadline started attempt next client hstage hreply hphase hoffice =>
    exact ⟨h.asked_again hroom hcustody htimely hprompt hphase hstage
      (hcall (by simp [Elector.attempt?, hstage])) hreply rfl rfl, fun _ => .inl hphase⟩
  | @keep deadline started attempt client outcome holder _ hstage hreply hgranted hphase =>
    simp only [Course.AttemptOnTime, course, hstage] at hattempt
    simp only [StageSteady, hstage] at hsteady
    refine ⟨⟨h.ne_lost, fun _ => ?_, trivial⟩, fun hleading => .inl hphase⟩
    exact landed_of_granted (by simp [Elector.isGrantedBy, hstage, hreply, hgranted])
      hattempt.1 hsteady.1 hprompt
  | @lose deadline started attempt client outcome holder _ hstage hreply hdenied hphase =>
    obtain ⟨outcome', hend, hgranted⟩ := h.renewed_granted hroom hcustody htimely hprompt hphase
      hstage (hcall (by simp [Elector.attempt?, hstage])) hreply
    cases hend
    rw [hdenied] at hgranted
    cases hgranted
  | @fail deadline started attempt client error hstage hreply hphase hoffice =>
    obtain ⟨outcome, hend, -⟩ := h.renewed_granted hroom hcustody htimely hprompt hphase hstage
      (hcall (by simp [Elector.attempt?, hstage])) hreply
    cases hend

/-- A candidate that stays at its stage, with the same grant, stays steady. -/
theorem Steady.stay (h : s.Steady config d current since) {s' : Seat}
    (hstage : s'.candidate.elector.stage = s.candidate.elector.stage)
    (hmachine : s'.candidate.elector.machine = s.candidate.elector.machine)
    (hgrant : s'.chronicle.grant = s.chronicle.grant) :
    s'.Steady config d current since ∧ LeadsOn s.candidate.elector s'.candidate.elector := by
  refine ⟨⟨?_, ?_, ?_⟩, fun hleading => .inl (by rwa [hmachine])⟩
  · rw [hmachine]
    exact h.ne_lost
  · rw [hmachine, hgrant]
    exact h.granted
  · have hsteady := h.stage
    simpa only [StageSteady, hstage, hgrant] using hsteady

/-- A candidate that is at no attempt has no call that matters, and replaces no
record. -/
theorem Steady.idle (h : s.Steady config d current since)
    (hidle : s.candidate.elector.isAttempting = false) (since' : Nat) :
    s.Steady config d current' since' := by
  refine ⟨h.ne_lost, h.granted, ?_⟩
  have hsteady := h.stage
  unfold StageSteady at hsteady ⊢
  unfold Elector.isAttempting at hidle
  split at hsteady
  · rename_i hstage
    simp [hstage] at hidle
  · rename_i hstage
    simp [hstage] at hidle
  · exact hsteady
  · trivial

/-- A write of someone else does not concern a candidate that is at no renewal. -/
theorem Steady.overwritten (h : s.Steady config d current since)
    (hfree : s.candidate.elector.isRenewing = false) : s.Steady config d current' since := by
  refine ⟨h.ne_lost, h.granted, ?_⟩
  have hsteady := h.stage
  unfold StageSteady at hsteady ⊢
  split at hsteady
  · exact hsteady
  · rename_i hstage
    simp [Elector.isRenewing, hstage] at hfree
  · exact hsteady
  · trivial

end Seat

namespace Arena

variable {ι : Type} {config : ElectionConfig ι} {i : ι} {d : Duration} {a b b' : Arena ι}
  {since : Nat}

/-- Since when a call of a candidate is out: since when it was before, if it was
out before, and since now if not. -/
def outSince (i : ι) (since : Nat) (a a' : Arena ι) : Nat :=
  if (a.seats i).candidate.transit ≠ none ∧ (a'.seats i).candidate.transit ≠ none then since
  else a'.now

/-- While nothing is sent or answered, a call stays out since when it was. -/
theorem outSince_eq (hwait : (b.seats i).candidate.transit = none → since = b.now)
    (htransit : (b'.seats i).candidate.transit = (b.seats i).candidate.transit)
    (hnow : b'.now = b.now) : outSince i since b b' = since := by
  unfold outSince
  rw [htransit, hnow]
  by_cases hnone : (b.seats i).candidate.transit = none
  · rw [if_neg fun hboth => hboth.1 hnone, hwait hnone]
  · rw [if_pos ⟨hnone, hnone⟩]

/-- A candidate that is at an attempt was started. -/
theorem running_of_attempting (h : (b.seats i).Fits config i b.now)
    (hattempt : (b.seats i).candidate.elector.isAttempting = true) :
    (b.seats i).running = true := by
  cases hrunning : (b.seats i).running with
  | true => rfl
  | false =>
    obtain ⟨born, shutdown, -, helector, -⟩ := h.fresh hrunning
    rw [helector] at hattempt
    cases hattempt

/-- What happens next leaves a candidate steady, and leading as long as it wants
to. -/
def GoesOn (config : ElectionConfig ι) (i : ι) (d : Duration) (since : Nat)
    (b b' : Arena ι) : Prop :=
  (b'.seats i).Steady config d (b'.store.record? config.key) (outSince i since b b')
    ∧ Seat.LeadsOn (b.seats i).candidate.elector (b'.seats i).candidate.elector

/-- Time that passes leaves a candidate steady: at an attempt its call is out. -/
theorem goesOn_pass
    (hsteady : (b.seats i).Steady config d (b.store.record? config.key) since)
    (hfits : (b.seats i).Fits config i b.now) {t wall : Nat} {delay : Duration}
    (hcalm : (b.seats i).running = true →
      (b.seats i).candidate.advance b.store ⟨b.now, wall⟩ delay = none) :
    GoesOn config i d since b { b with now := t } := by
  refine ⟨?_, fun hleading => .inl hleading⟩
  cases hattempt : (b.seats i).candidate.elector.isAttempting with
  | false => exact hsteady.idle hattempt _
  | true =>
    have hout := Candidate.transit_of_advance_none (hcalm (running_of_attempting hfits hattempt))
      hattempt
    have hsince : outSince i since b { b with now := t } = since := if_pos ⟨hout, hout⟩
    rw [hsince]
    exact hsteady

variable [DecidableEq ι]

/-- Something happens, and the calls of a candidate are attended to: the store
itself answers the one that is answered, and the one that is out is not out for
longer than a span. -/
structure Attends (i : ι) (d : Duration) (since : Nat) (b b' : Arena ι) : Prop where
  move : Move b b'
  served : (b'.seats i).candidate.transit = none → (b.seats i).candidate.IsServed b.store b.now
  prompt : b'.now ≤ Clock.after (outSince i since b b') d

/-- A run from a point on in which all calls of a candidate are attended to. A call
that is out at its end is out `since` then. -/
inductive Attended (i : ι) (d : Duration) (a : Arena ι) : Arena ι → Nat → Prop
  | refl : Attended i d a a a.now
  | move {b b' : Arena ι} {since : Nat} (h : Attended i d a b since)
      (hmove : Attends i d since b b') : Attended i d a b' (outSince i since b b')

/-- What an attended run comes to is reachable. -/
theorem Attended.reachable (h : Attended i d a b since) (ha : Reachable config a) :
    Reachable config b := by
  induction h with
  | refl => exact ha
  | move _ hmove ih => exact .move ih hmove.move

/-- At no point of an attended run has a call been out for longer than the span. -/
theorem Attended.prompt (h : Attended i d a b since) : b.now ≤ Clock.after since d := by
  cases h with
  | refl => exact Nat.le_add_right _ _
  | move _ hmove => exact hmove.prompt

/-- A candidate that has no call out would send one now. -/
theorem Attended.since_eq (h : Attended i d a b since)
    (hnone : (b.seats i).candidate.transit = none) : since = b.now := by
  cases h with
  | refl => rfl
  | move _ _ => exact if_neg fun hboth => hboth.2 hnone

section Move

variable {written : Nat}
  (hsteady : (b.seats i).Steady config d (b.store.record? config.key) since)
  (hwait : (b.seats i).candidate.transit = none → since = b.now)

include hsteady hwait

/-- A seat that changes, but not its stage, its phase, its grant and its call,
leaves a candidate steady. -/
theorem goesOn_put {j : ι} {seat : Seat}
    (hstage : seat.candidate.elector.stage = (b.seats j).candidate.elector.stage)
    (hmachine : seat.candidate.elector.machine = (b.seats j).candidate.elector.machine)
    (hgrant : seat.chronicle.grant = (b.seats j).chronicle.grant)
    (htransit : seat.candidate.transit = (b.seats j).candidate.transit) :
    GoesOn config i d since b (b.put j seat) := by
  unfold GoesOn
  by_cases hj : i = j
  · subst hj
    have hsince : outSince i since b (b.put i seat) = since :=
      outSince_eq hwait (by rwa [put_self]) rfl
    rw [hsince, put_self]
    exact hsteady.stay hstage hmachine hgrant
  · have hsince : outSince i since b (b.put j seat) = since :=
      outSince_eq hwait (by rw [put_other b seat hj]) rfl
    rw [hsince, put_other b seat hj]
    exact hsteady.stay rfl rfl rfl

variable (hcustody : b.InCustody config written) (hprompt : b.now ≤ Clock.after since d)
  (hroom : config.HasRoom d)

include hcustody hprompt hroom

/-- A step of the candidate keeps it steady when its call is served. -/
theorem goesOn_advance (hcourse : Course.Reachable ((b.seats i).course b.now)) {wall : Nat}
    {delay : Duration} {after : Candidate} {store : Shared} {notes : List Note}
    {reply : Option Reply}
    (hadvance : (b.seats i).candidate.Advance b.store ⟨b.now, wall⟩ delay after store notes reply)
    (hserved : after.transit = none → (b.seats i).candidate.IsServed b.store b.now) :
    GoesOn config i d since b
      { b.put i ((b.seats i).follow b.now after notes reply) with store := store } := by
  have hcoherent : (b.seats i).candidate.elector.Coherent := hcourse.coherent
  unfold GoesOn
  simp only [put_self]
  cases hadvance with
  | send hrequest htransit =>
    have hsince : outSince i since b { b.put i ((b.seats i).follow b.now
        { (b.seats i).candidate with transit := some ((b.seats i).candidate.link.send b.now) }
        [] none) with store := b.store } = since := by
      rw [hwait htransit]
      exact if_neg fun hboth => hboth.1 htransit
    rw [hsince]
    exact hsteady.stay rfl rfl rfl
  | @act elector notes hstep =>
    have hsince : outSince i since b { b.put i ((b.seats i).follow b.now
        ⟨elector, (b.seats i).candidate.link, none⟩ notes none) with store := b.store } = b.now :=
      if_neg fun hboth => hboth.2 (by simp [Seat.follow])
    rw [hsince]
    exact hsteady.step hroom (hcustody.custody i) hcourse.timely hprompt (hcoherent.step hstep)
  | @receive request transit link _ reply hrequest htransit harrived hdeliver =>
    have hsince : outSince i since b { b.put i ((b.seats i).follow b.now
        ⟨((b.seats i).candidate.elector.answer ⟨b.now, wall⟩ delay reply).1, link, none⟩
        ((b.seats i).candidate.elector.answer ⟨b.now, wall⟩ delay reply).2 (some reply))
        with store := store } = b.now := if_neg fun hboth => hboth.2 (by simp [Seat.follow])
    rw [hsince]
    -- the reply is that of the store, and so is what has become of the record
    have hself := hserved rfl request hrequest transit htransit harrived
    rw [hdeliver, (hcustody.custody i).key_eq] at hself
    have hd := Shared.answer_decided hcustody.memory config.key request
    simp only [Prod.mk.injEq] at hself
    rw [← hself.2] at hd
    exact hsteady.taken hroom (hcustody.custody i) hcourse.timely hprompt hrequest hd
      (hcoherent.taken hrequest)

/-- A step of another candidate leaves this one steady: while this one renews, the
other one cannot write. -/
theorem goesOn_other (hinjective : Function.Injective config.identity)
    (hnonempty : ∀ i, config.identity i ≠ "") (hfits : (b.seats i).Fits config i b.now) {j : ι}
    (hj : i ≠ j) (hother : (b.seats j).candidate.elector.Coherent) {wall : Nat} {delay : Duration}
    {after : Candidate} {store : Shared} {notes : List Note} {reply : Option Reply}
    (hadvance : (b.seats j).candidate.Advance b.store ⟨b.now, wall⟩ delay after store notes
      reply) :
    GoesOn config i d since b
      { b.put j ((b.seats j).follow b.now after notes reply) with store := store } := by
  unfold GoesOn
  have hseat : (b.put j ((b.seats j).follow b.now after notes reply)).seats i = b.seats i :=
    put_other b _ hj
  -- what the other candidate does leaves the call that is out where it is
  have hsince : outSince i since b { b.put j ((b.seats j).follow b.now after notes reply) with
      store := store } = since := by
    refine outSince_eq hwait ?_ rfl
    rw [hseat]
  rw [hsince]
  simp only [hseat]
  refine ⟨?_, fun hleading => .inl hleading⟩
  obtain ⟨-, ⟨hsame, -⟩ | ⟨-, -, htake⟩⟩ := (hcustody.custody j).advance hcustody.memory rfl
    hcustody.written_le hother hadvance
  · rw [hsame]
    exact hsteady
  · -- a renewal could be hurt by the write of another, but the lease is still running for that one
    by_cases hrenewing : (b.seats i).candidate.elector.isRenewing = true
    · exfalso
      unfold Elector.isRenewing at hrenewing
      split at hrenewing
      · rename_i deadline started attempt hstage
        have hcourse := hfits.course (running_of_attempting hfits (by
          simp [Elector.isAttempting, hstage]))
        have hcoherent : (b.seats i).candidate.elector.Coherent := hcourse.coherent
        simp only [Elector.Coherent, hstage] at hcoherent
        obtain ⟨g, hgrant, hg⟩ := hcourse.timely.claim (.inl hcoherent.1)
        obtain ⟨-, hnow⟩ := hsteady.renewal_in_time hroom (hcustody.custody i) hgrant hg hprompt
          hcoherent.1 hstage
        exact hcustody.not_held hinjective hnonempty hj htake (.inl hcoherent.1) g hgrant hnow
      · cases hrenewing
    · exact hsteady.overwritten (by simpa using hrenewing)

/-- Whatever happens next leaves the candidate steady when its calls are attended
to. -/
theorem goesOn_move (hinjective : Function.Injective config.identity)
    (hnonempty : ∀ i, config.identity i ≠ "") (hreach : Reachable config b)
    (hmove : Attends i d since b b') : GoesOn config i d since b b' := by
  obtain ⟨hmove, hserved, -⟩ := hmove
  have hfits := hreach.fits i
  cases hmove with
  | start j => exact goesOn_put hsteady hwait rfl rfl rfl rfl
  | cancel j =>
    have hcancel := Elector.cancel_eq (b.seats j).candidate.elector
    refine goesOn_put hsteady hwait ?_ ?_ rfl rfl
    · simp only [Seat.cancel, Seat.follow, hcancel]
      rfl
    · simp only [Seat.cancel, Seat.follow, hcancel]
      rfl
  | endBody j hbody => exact goesOn_put hsteady hwait rfl rfl rfl rfl
  | route j traffic => exact goesOn_put hsteady hwait rfl rfl rfl rfl
  | fault j call error => exact goesOn_put hsteady hwait rfl rfl rfl rfl
  | pass t wall delay hle hcalm hdue => exact goesOn_pass hsteady hfits (hcalm i)
  | advance j wall delay after store notes hrunning hadvance =>
    have hcourse := hreach.course hrunning
    have hadvance := Candidate.advance_cases hadvance
    -- what the candidate does itself and what another one does are different matters
    by_cases hj : i = j
    · subst hj
      refine goesOn_advance hsteady hwait hcustody hprompt hroom hcourse hadvance fun hnone => ?_
      exact hserved (by simpa [Seat.follow] using hnone)
    · exact goesOn_other hsteady hwait hcustody hprompt hroom hinjective hnonempty hfits hj
        hcourse.coherent hadvance

end Move

/-- A candidate whose calls are attended to from the beginning of an attempt on
stays steady. -/
theorem Attended.steady (h : Attended i d a b since) (ha : Reachable config a)
    (hinjective : Function.Injective config.identity) (hnonempty : ∀ i, config.identity i ≠ "")
    (hroom : config.HasRoom d) {wall : Nat}
    (hstage : (a.seats i).candidate.elector.stage = .competing a.now (.looking wall)) :
    (b.seats i).Steady config d (b.store.record? config.key) since := by
  induction h with
  | refl =>
    have hrunning := running_of_attempting (ha.fits i) (by simp [Elector.isAttempting, hstage])
    have hcoherent : (a.seats i).candidate.elector.Coherent := (ha.course hrunning).coherent
    simp only [Elector.Coherent, hstage] at hcoherent
    refine ⟨by simp [hcoherent.1], fun hleading => ?_, ?_⟩
    · simp [hcoherent.1] at hleading
    · simp [Seat.StageSteady, hstage]
  | move h hmove ih =>
    obtain ⟨written, hcustody⟩ := (h.reachable ha).inCustody hinjective hnonempty
    exact (goesOn_move ih h.since_eq hcustody h.prompt hroom hinjective hnonempty
      (h.reachable ha) hmove).1

/-- A candidate whose calls are answered by the store itself within a span, from the
beginning of an attempt on, never loses the lease, when four calls and a retry
period are less than the renew deadline. Whatever the others do, it stops leading
only because it was told to shut down, or because its body has ended. -/
theorem Attended.never_lost (h : Attended i d a b since) (ha : Reachable config a)
    (hinjective : Function.Injective config.identity) (hnonempty : ∀ i, config.identity i ≠ "")
    {lease renew retry : Duration} (ht : Timing.check lease renew retry = .ok config.timing)
    (hlease : 1000000 ∣ lease.nanos) (hretry : 1000000 ∣ retry.nanos)
    (hfits : lease.millis < 2 ^ 64) (hd : 4 * d.nanos + retry.nanos < renew.nanos) {wall : Nat}
    (hstage : (a.seats i).candidate.elector.stage = .competing a.now (.looking wall)) :
    (b.seats i).candidate.elector.machine.phase ≠ .lost
      ∧ ∀ b', Attends i d since b b' → (b.seats i).candidate.elector.machine.phase = .leading →
        (b'.seats i).candidate.elector.machine.phase ≠ .leading →
          (b'.seats i).candidate.elector.machine.phase = .released
            ∧ ((b.seats i).candidate.elector.shutdown = true
              ∨ (b.seats i).candidate.elector.bodyEnded = true) := by
  have hroom := ElectionConfig.hasRoom ht hlease hretry hfits hd
  have hsteady := h.steady ha hinjective hnonempty hroom hstage
  refine ⟨hsteady.ne_lost, fun b' hmove hleading hleft => ?_⟩
  obtain ⟨written, hcustody⟩ := (h.reachable ha).inCustody hinjective hnonempty
  obtain ⟨-, hon⟩ := goesOn_move hsteady h.since_eq hcustody h.prompt hroom hinjective hnonempty
    (h.reachable ha) hmove
  exact (hon hleading).resolve_left hleft

/-! ### A run that can be computed -/

/-- Lets one thing happen, if the calls of a candidate are attended to. -/
def actFor (everyone : List ι) (i : ι) (d : Duration) (since : Nat) (b : Arena ι) (deed : Deed ι) :
    Option (Arena ι) :=
  (b.act everyone deed).bind fun b' =>
    if ((b'.seats i).candidate.transit = none → (b.seats i).candidate.isPlain = true)
        ∧ b'.now ≤ Clock.after (outSince i since b b') d then some b' else none

/-- Lets one thing happen after another in this way. -/
def playFor (everyone : List ι) (i : ι) (d : Duration) (since : Nat) (b : Arena ι) :
    List (Deed ι) → Option (Arena ι × Nat)
  | [] => some (b, since)
  | deed :: rest => (b.actFor everyone i d since deed).bind fun b' =>
    playFor everyone i d (outSince i since b b') b' rest

/-- A deed that passes the test attends to the calls, when the list names every candidate. -/
theorem attends_of_actFor {everyone : List ι} (hall : ∀ i, i ∈ everyone) {deed : Deed ι}
    (hact : b.actFor everyone i d since deed = some b') : Attends i d since b b' := by
  obtain ⟨next, hact, hnext⟩ := Option.bind_eq_some_iff.mp hact
  split at hnext <;> cases hnext
  rename_i hattended
  obtain ⟨hplain, hprompt⟩ := hattended
  refine ⟨move_of_act hall hact, fun hnone => ?_, hprompt⟩
  exact Candidate.isServed_of_isPlain (hplain hnone) _ _

/-- Deeds that pass the test go on with an attended run. -/
theorem Attended.play {everyone : List ι} (hall : ∀ i, i ∈ everyone)
    (h : Attended i d a b since) {deeds : List (Deed ι)} {since' : Nat}
    (hplay : b.playFor everyone i d since deeds = some (b', since')) :
    Attended i d a b' since' := by
  induction deeds generalizing b since with
  | nil =>
    cases hplay
    exact h
  | cons deed rest ih =>
    obtain ⟨next, hact, hrest⟩ := Option.bind_eq_some_iff.mp hplay
    exact ih (.move h (attends_of_actFor hall hact)) hrest

/-- A candidate begins its first attempt, and each of its calls will take a second. -/
def opening : List (Deed Bool) :=
  [.route true (.slow (.ofSecs 1)), .start true, .advance true 0 (.ofSecs 5)]

/-- It is elected and renews the lease. The other candidate has started in between,
and looks at the record while it is being renewed. Then the body returns. -/
def renewal : List (Deed Bool) :=
  turns true 1 ++ .pass 1000000000 0 ⟨0⟩ :: turns true 2 ++ .pass 2000000000 0 ⟨0⟩ :: turns true 4
    ++ .start false :: turns false 3 ++ .pass 7000000000 0 ⟨0⟩ :: turns true 2 ++ turns false 3
    ++ .pass 8000000000 0 ⟨0⟩ :: turns true 2 ++ .pass 9000000000 0 ⟨0⟩ :: turns true 1
    ++ [.endBody true] ++ turns true 1

/-- In the run that this shows, the leader renews its grant while the other candidate looks on, and
gives the lead up only once its body has returned. -/
theorem never_lost_renewal :
    ∃ a b b' since, Reachable duel a ∧ Attended true (.ofSecs 1) a b since
      ∧ Attends true (.ofSecs 1) since b b'
      ∧ (b.seats true).chronicle.grant = some ⟨7000000000, 9000000000, true⟩
      ∧ (b.seats true).candidate.elector.machine.phase = .leading
      ∧ (b'.seats true).candidate.elector.machine.phase = .released
      ∧ ((b.seats true).candidate.elector.shutdown = true
        ∨ (b.seats true).candidate.elector.bodyEnded = true) := by
  have hall : ∀ i, i ∈ [true, false] := by decide
  have hinjective : Function.Injective duel.identity := by
    intro i j h
    revert i j
    decide
  -- the run is computed up to the step by which the lead is given up
  have hrun : ((initial duel (fun _ => 0) .empty .empty 0).play [true, false] opening).any
      (fun a => decide ((a.seats true).candidate.elector.stage = .competing a.now (.looking 0))
        && (a.playFor [true, false] true (.ofSecs 1) a.now renewal).any fun (b, since) =>
          decide ((b.seats true).chronicle.grant = some ⟨7000000000, 9000000000, true⟩)
            && decide ((b.seats true).candidate.elector.machine.phase = .leading)
            && (b.actFor [true, false] true (.ofSecs 1) since (.advance true 0 ⟨0⟩)).any fun b' =>
              decide ((b'.seats true).candidate.elector.machine.phase ≠ .leading)) = true := by
    decide +kernel
  obtain ⟨a, hopening, ha⟩ := (Option.any_eq_true _ _).mp hrun
  simp only [Bool.and_eq_true, decide_eq_true_eq] at ha
  obtain ⟨hstage, hrest⟩ := ha
  obtain ⟨⟨b, since⟩, hrenewal, hb⟩ := (Option.any_eq_true _ _).mp hrest
  simp only [Bool.and_eq_true, decide_eq_true_eq] at hb
  obtain ⟨⟨hgrant, hleading⟩, hend⟩ := hb
  obtain ⟨b', hact, hleft⟩ := (Option.any_eq_true _ _).mp hend
  have hreach : Reachable duel a :=
    (Reachable.start _ _ _ _ fun _ => Nat.le_refl 0).play hall hopening
  have hattended : Attended true (.ofSecs 1) a b since := Attended.refl.play hall hrenewal
  have hattends : Attends true (.ofSecs 1) since b b' := attends_of_actFor hall hact
  obtain ⟨-, hstops⟩ := hattended.never_lost hreach hinjective (by decide) Course.check_brisk
    (by decide) (by decide) (by decide) (by decide) hstage
  obtain ⟨hreleased, hcause⟩ := hstops b' hattends hleading (by simpa using hleft)
  exact ⟨a, b, b', since, hreach, hattended, hattends, hgrant, hleading, hreleased, hcause⟩

end Arena

end Tenure.Leader
