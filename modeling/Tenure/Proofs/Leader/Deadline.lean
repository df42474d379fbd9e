import Tenure.Proofs.Leader.Course
import Tenure.Proofs.Number.Rounding

/-!
# `Tenure.Proofs.Leader.Deadline`: how long a token outlives the last renewal

The deadline of a leader is counted from the start of the last attempt that was
granted. A leader looks at it only after it has waited for a retry period,
counted from the grant. So the token of an episode that is not renewed is
cancelled when both have rung (`Grant.limit`): at the deadline when the attempt
was answered in time, and a retry period after the grant when it was slow. A
renewal is always answered in time; the attempt that takes the lease may not be.

`Timely` is the invariant: for each stage what is known of the instants that the
elector keeps, against the grant that the chronicle tells of.

* `Reachable.deadline_exact`: while a token is not cancelled the limit has not
  passed, and for a renewal the limit is the deadline. A leader that waits keeps
  the deadline whatever comes exactly when the limit is not beyond it.
* `deadline_missed`: a leader that took the lease in a slow attempt and still
  holds its token three seconds after its deadline.
-/

set_option autoImplicit false

namespace Tenure.Leader

open Lease Store

/-- The last instant at which the token that goes with a grant may be held. -/
def Grant.limit (t : Timing) (g : Grant) : Nat :=
  max (Clock.ring (Clock.after g.began t.renewDeadline))
    (Clock.ring (Clock.after g.landed t.retryPeriod))

/-- The renew deadline and the retry period are whole milliseconds, and the
retry period is not the longer one. -/
structure Timing.IsEven (t : Timing) : Prop where
  renew_dvd : 1000000 ∣ t.renewDeadline.nanos
  retry_dvd : 1000000 ∣ t.retryPeriod.nanos
  retry_le : t.retryPeriod.nanos ≤ t.renewDeadline.nanos

/-- The renew deadline of a grant is within its limit. -/
theorem Grant.deadline_le_limit (t : Timing) (g : Grant) :
    Clock.ring (Clock.after g.began t.renewDeadline) ≤ g.limit t := Nat.le_max_left _ _

/-- The first wake-up after a grant is within its limit. -/
theorem Grant.wake_le_limit (t : Timing) (g : Grant) :
    Clock.ring (Clock.after g.landed t.retryPeriod) ≤ g.limit t := Nat.le_max_right _ _

/-- A grant lands within its limit. -/
theorem Grant.landed_le_limit (t : Timing) (g : Grant) : g.landed ≤ g.limit t := by
  have hwake := g.wake_le_limit t
  have hring := Clock.le_ring (Clock.after g.landed t.retryPeriod)
  simp only [Clock.after] at hring hwake
  omega

/-- A renewal that was answered in time of the one before has its limit at the
deadline. -/
theorem Grant.limit_eq_deadline {t : Timing} (ht : t.IsEven) {g g' : Grant}
    (hbegan : g.began ≤ g.landed)
    (hnext : Clock.ring (Clock.after g.landed t.retryPeriod) ≤ g'.began)
    (hlanded : g'.landed ≤ max (Clock.ring (Clock.after g.began t.renewDeadline)) g'.began) :
    g'.limit t = Clock.ring (Clock.after g'.began t.renewDeadline) := by
  refine Nat.max_eq_left ?_
  obtain ⟨hrenew, hretry, hle⟩ := ht
  have hwake : Clock.ring g.began + t.retryPeriod.nanos ≤ g'.began := by
    rw [← Clock.ring_add_of_dvd g.began hretry]
    exact (Clock.ring_mono (Nat.add_le_add_right hbegan _)).trans hnext
  have hdeadline : Clock.ring (Clock.after g.began t.renewDeadline)
      = Clock.ring g.began + t.renewDeadline.nanos := Clock.ring_add_of_dvd g.began hrenew
  have hlater : Clock.after g'.landed t.retryPeriod ≤ Clock.after g'.began t.renewDeadline := by
    simp only [Clock.after]
    omega
  exact Clock.ring_mono hlater

namespace Elector

/-- The elector leads, or has an episode in flight. -/
def IsClaiming (e : Elector) : Prop := e.machine.phase = .leading ∨ e.episode ≠ none

/-- An elector that neither leads nor runs an episode claims nothing. -/
theorem not_isClaiming {e : Elector} (hphase : e.machine.phase ≠ .leading)
    (hepisode : e.episode = none) : ¬ e.IsClaiming := by
  rintro (hclaim | hclaim)
  · exact hphase hclaim
  · exact hclaim hepisode

end Elector

namespace Course

/-- What is known of the instants that an elector keeps, stage by stage. -/
def StageOnTime (c : Course) (g : Grant) : Prop :=
  match c.elector.stage with
  | .ready | .performing .. => c.elector.machine.phase = .leading → c.now = g.landed
  | .resting wake deadline =>
    wake = Clock.after g.landed c.elector.timing.retryPeriod
      ∧ deadline = Clock.after g.began c.elector.timing.renewDeadline
      ∧ c.now ≤ Clock.ring wake
  | .renewing deadline started _ =>
    deadline = Clock.after g.began c.elector.timing.renewDeadline
      ∧ Clock.ring (Clock.after g.landed c.elector.timing.retryPeriod) ≤ started
      ∧ c.now ≤ max (Clock.ring deadline) started
  | .pausing _ deadline =>
    deadline = Clock.after g.began c.elector.timing.renewDeadline
      ∧ Clock.ring (Clock.after g.landed c.elector.timing.retryPeriod) ≤ c.now
  | _ => True

/-- The chronicle has the start of the attempt that is under way. -/
def AttemptOnTime (c : Course) : Prop :=
  match c.elector.stage with
  | .competing started _ | .renewing _ started _ => c.chronicle.began = started ∧ started ≤ c.now
  | _ => True

/-- What is known of the instants of an elector that leads by a grant. -/
structure OnTime (c : Course) (g : Grant) : Prop where
  began_le : g.began ≤ g.landed
  landed_le : g.landed ≤ c.now
  last_eq : c.elector.machine.phase = .leading → c.elector.lastRenewal = g.began
  stage : c.StageOnTime g
  /-- A renewal was answered in time. -/
  renewal : g.renewal = true → c.elector.timing.IsEven →
    g.limit c.elector.timing = Clock.ring (Clock.after g.began c.elector.timing.renewDeadline)
  held : c.elector.isRevoked = false → c.now ≤ g.limit c.elector.timing
  revoked : c.elector.isRevoked = true → c.chronicle.revoked ≤ g.limit c.elector.timing

/-- The instants of an elector agree with its chronicle. -/
structure Timely (c : Course) : Prop where
  revoked_le : c.chronicle.revoked ≤ c.now
  attempt : c.AttemptOnTime
  claim : c.elector.IsClaiming → ∃ g, c.chronicle.grant = some g ∧ c.OnTime g

variable {c : Course} {g : Grant} {after : Elector} {notes : List Note}

/-- A revocation is taken down no later than it happens. -/
theorem revoked_follow_le (h : c.chronicle.revoked ≤ c.now) :
    (c.follow after notes).chronicle.revoked ≤ c.now := by
  simp only [follow, Chronicle.follow]
  split
  · exact Nat.le_refl _
  · exact h

/-- An attempt that begins now is written down. -/
theorem began_follow (hbefore : c.elector.isAttempting = false)
    (hafter : after.isAttempting = true) : (c.follow after notes).chronicle.began = c.now := by
  simp [follow, Chronicle.follow, hbefore, hafter]

/-- An elector that leads on by the same grant stays on time when its stage
does. -/
theorem OnTime.follow (h : c.OnTime g) (htiming : after.timing = c.elector.timing)
    (hlast : after.machine.phase = .leading →
      c.elector.machine.phase = .leading ∧ after.lastRenewal = c.elector.lastRenewal)
    (hrevoked : c.elector.isRevoked = true → after.isRevoked = true)
    (hstage : (c.follow after notes).StageOnTime g) : (c.follow after notes).OnTime g where
  began_le := h.began_le
  landed_le := h.landed_le
  last_eq hphase := by
    obtain ⟨hleading, hsame⟩ := hlast hphase
    exact hsame.trans (h.last_eq hleading)
  stage := hstage
  renewal := by
    show g.renewal = true → after.timing.IsEven → _
    simpa only [Course.follow, htiming] using h.renewal
  held hheld := by
    have hbefore : c.elector.isRevoked = false := by
      cases hcase : c.elector.isRevoked with
      | false => rfl
      | true => exact absurd (hrevoked hcase) (by simpa [Course.follow] using hheld)
    simpa only [Course.follow, htiming] using h.held hbefore
  revoked hafter := by
    have hafter : after.isRevoked = true := hafter
    cases hbefore : c.elector.isRevoked with
    | false =>
      -- the token is cancelled now, while it may still be held
      simpa [Course.follow, Chronicle.follow, htiming, hafter, hbefore] using h.held hbefore
    | true => simpa [Course.follow, Chronicle.follow, htiming, hbefore] using h.revoked hbefore

/-- An elector that neither leads nor has an episode is timely when its attempt
is. -/
theorem Timely.rest (h : c.Timely) (hphase : after.machine.phase ≠ .leading)
    (hepisode : after.episode = none) (hattempt : (c.follow after notes).AttemptOnTime) :
    (c.follow after notes).Timely := by
  exact ⟨revoked_follow_le h.revoked_le, hattempt, fun hclaim =>
    absurd hclaim (Elector.not_isClaiming hphase hepisode)⟩

/-- An elector that leads on by the same grant is timely when its stage is on
time. -/
theorem Timely.lead (h : c.Timely) (hclaim : c.elector.IsClaiming)
    (htiming : after.timing = c.elector.timing)
    (hlast : after.machine.phase = .leading →
      c.elector.machine.phase = .leading ∧ after.lastRenewal = c.elector.lastRenewal)
    (hrevoked : c.elector.isRevoked = true → after.isRevoked = true)
    (hattempt : (c.follow after notes).AttemptOnTime)
    (hstage : ∀ g, c.OnTime g → (c.follow after notes).StageOnTime g) :
    (c.follow after notes).Timely := by
  obtain ⟨g, hgrant, hg⟩ := h.claim hclaim
  exact ⟨revoked_follow_le h.revoked_le, hattempt, fun _ =>
    ⟨g, hgrant, hg.follow htiming hlast hrevoked (hstage g hg)⟩⟩

/-- Whatever an elector does by itself keeps it timely. -/
theorem Timely.step {wall : Nat} {delay : Duration} (h : c.Timely)
    (hstep : c.elector.Step ⟨c.now, wall⟩ delay after notes) : (c.follow after notes).Timely := by
  cases hstep with
  | withdraw backoff hphase hshutdown hidle => exact h.rest (by simp) hidle.1 trivial
  | backOff hstage hphase hidle => exact h.rest (by simp [hphase]) hidle.1 trivial
  | compete hstage hphase hidle =>
    refine h.rest (by simp [Elector.compete, hphase]) hidle.1 ?_
    have hbefore : c.elector.isAttempting = false := by
      rcases hstage with hs | ⟨wake, hs⟩ | ⟨wake, hs⟩ <;> simp [Elector.isAttempting, hs]
    exact ⟨began_follow hbefore rfl, Nat.le_refl _⟩
  | giveUp hstage hphase hidle => exact h.rest (by simp [hphase]) hidle.1 trivial
  | rest hstage hphase hoffice =>
    -- the leader has not waited since the grant landed, so the wake counts from there
    refine h.lead (.inl hphase) rfl (fun _ => ⟨hphase, rfl⟩) id trivial fun g hg => ?_
    have hnow : c.now = g.landed := by simpa [StageOnTime, hstage, hphase] using hg.stage
    have hring := Clock.le_ring (Clock.after g.landed c.elector.timing.retryPeriod)
    simp only [StageOnTime, follow, hg.last_eq hphase, hnow, true_and]
    simp only [Clock.after] at hring ⊢
    omega
  | @renew wake deadline hstage hrung hphase hoffice =>
    have hbefore : c.elector.isAttempting = false := by
      rcases hstage with hs | hs <;> simp [Elector.isAttempting, hs]
    refine h.lead (.inl hphase) rfl (fun _ => ⟨hphase, rfl⟩) id ?_ fun g hg => ?_
    · exact ⟨began_follow hbefore rfl, Nat.le_refl _⟩
    · -- after a failed renewal the retry period has passed before already
      have hstage' := hg.stage
      simp only [StageOnTime, follow, Elector.renew]
      rcases hstage with hs | hs
      · simp only [StageOnTime, hs] at hstage'
        obtain ⟨hwake, hdeadline, -⟩ := hstage'
        exact ⟨hdeadline, hwake ▸ hrung, Nat.le_max_right _ _⟩
      · simp only [StageOnTime, hs] at hstage'
        exact ⟨hstage'.1, hstage'.2, Nat.le_max_right _ _⟩
  | lose hstage hrung hphase hoffice =>
    refine h.lead (.inl hphase) rfl ?_ id trivial fun g hg => ?_
    · intro hleading
      cases hleading
    · simp [StageOnTime, follow]
  | relinquish event hevent hphase hoffice =>
    refine h.lead (.inl hphase) rfl ?_ id trivial fun g hg => ?_
    · intro hleading
      cases hleading
    · simp [StageOnTime, follow]
  | resume hstage hout hidle => exact h.rest (by simp) hidle.1 trivial
  | finish hstage hphase hidle hshutdown => exact h.rest (by simp [hphase]) hidle.1 trivial
  | settle hstage hsettled =>
    -- effects come to an end both for a leader and at the end of an episode
    by_cases hclaim : c.elector.IsClaiming
    · refine h.lead hclaim rfl (fun hphase => ⟨hphase, rfl⟩) id trivial fun g hg => ?_
      have hstage' := hg.stage
      simpa only [StageOnTime, hstage, follow] using hstage'
    · refine h.rest (fun hphase => hclaim (.inl hphase)) ?_ trivial
      exact Classical.not_not.mp fun hepisode => hclaim (.inr hepisode)
  | start hstage hphase hidle =>
    -- no token was cancelled, as there was no episode
    refine h.lead (.inl hphase) rfl (fun _ => ⟨hphase, rfl⟩) ?_ trivial fun g hg => ?_
    · simp [Elector.isRevoked, hidle.1]
    · have hstage' := hg.stage
      simp only [StageOnTime, hstage] at hstage'
      exact hstage'
  | exit hstage hphase hidle hshutdown => exact h.rest (by simp [hphase]) hidle.1 trivial
  | revoke hstage hepisode hended hout hleading hrest =>
    refine h.lead (.inr (by simp [hepisode])) rfl (fun hphase => ⟨hphase, rfl⟩) ?_ trivial
      fun g hg => trivial
    simp [Elector.isRevoked]
  | dismiss hstage hepisode hended hout hleading hrest =>
    exact h.rest hout.ne_leading rfl trivial
  | release hstage hout hleaving =>
    exact h.rest hout.ne_leading hleaving.1 trivial
  | abandon hstage hout hleaving =>
    exact h.rest hout.ne_leading hleaving.1 trivial
  | announce hstage hout hleaving =>
    exact h.rest hout.ne_leading hleaving.1 trivial

/-- While an attempt goes on, its start stays written down. -/
theorem began_follow_of_attempting (hbefore : c.elector.isAttempting = true) :
    (c.follow after notes).chronicle.began = c.chronicle.began := by
  simp [follow, Chronicle.follow, hbefore]

/-- An elector that takes a reply first has the grant written down, if it is one. -/
theorem hear_eq {wall : Nat} {delay : Duration} {reply : Reply}
    (hanswer : c.elector.answer ⟨c.now, wall⟩ delay reply = (after, notes)) :
    c.hear wall delay reply
      = { c with chronicle := c.chronicle.hear c.now c.elector reply }.follow after notes := by
  simp only [Course.hear, Course.follow, hanswer]

/-- A reply that grants nothing leaves the grant as it was. -/
theorem hear_of_denied {wall : Nat} {delay : Duration} {reply : Reply}
    (hanswer : c.elector.answer ⟨c.now, wall⟩ delay reply = (after, notes))
    (hdenied : c.elector.isGrantedBy c.now reply = false) :
    c.hear wall delay reply = c.follow after notes := by
  rw [hear_eq hanswer]
  simp [Chronicle.hear, hdenied]

/-- An elector that was granted the lease is on time by the new grant. -/
theorem Timely.grant {wall : Nat} {delay : Duration} {reply : Reply} {started : Nat}
    (h : c.Timely) (hanswer : c.elector.answer ⟨c.now, wall⟩ delay reply = (after, notes))
    (hgranted : c.elector.isGrantedBy c.now reply = true)
    (hattempt : c.chronicle.began = started ∧ started ≤ c.now)
    (hafter : ∃ cause effects, after.stage = .performing cause effects)
    (hlast : after.lastRenewal = started) (hrevoked : after.isRevoked = c.elector.isRevoked)
    (hrenewal : c.elector.isRenewing = true → after.timing.IsEven →
      Grant.limit after.timing ⟨started, c.now, true⟩
        = Clock.ring (Clock.after started after.timing.renewDeadline)) :
    (c.hear wall delay reply).Timely := by
  obtain ⟨cause, effects, hstage⟩ := hafter
  -- the reply that grants is what the chronicle takes down, with the start of the attempt
  have hchronicle : c.chronicle.hear c.now c.elector reply
      = { c.chronicle with grant := some ⟨started, c.now, c.elector.isRenewing⟩ } := by
    simp [Chronicle.hear, hgranted, hattempt.1]
  have hrev : (c.chronicle.follow c.now c.elector after notes).revoked = c.chronicle.revoked := by
    simp [Chronicle.follow, hrevoked]
  rw [hear_eq hanswer, hchronicle]
  refine ⟨revoked_follow_le h.revoked_le, by simp [AttemptOnTime, follow, hstage], fun _ =>
    ⟨⟨started, c.now, c.elector.isRenewing⟩, rfl, ?_⟩⟩
  have hnow := Grant.landed_le_limit after.timing ⟨started, c.now, c.elector.isRenewing⟩
  constructor
  · exact hattempt.2
  · exact Nat.le_refl _
  · exact fun _ => hlast
  · simp [StageOnTime, follow, hstage]
  · intro hrenewing heven
    have hrenewing : c.elector.isRenewing = true := hrenewing
    simp only [hrenewing]
    exact hrenewal hrenewing heven
  · exact fun _ => hnow
  · intro _
    exact (hrev.trans_le h.revoked_le).trans hnow

/-- Whatever an elector does with a reply keeps it timely. -/
theorem Timely.taken {wall : Nat} {delay : Duration} {reply : Reply} (h : c.Timely)
    (hanswer : c.elector.answer ⟨c.now, wall⟩ delay reply = (after, notes))
    (htaken : c.elector.Taken ⟨c.now, wall⟩ delay reply after notes) :
    (c.hear wall delay reply).Timely := by
  have hattempt := h.attempt
  cases htaken with
  | ask hstage hreply hphase hidle =>
    simp only [AttemptOnTime, hstage] at hattempt
    rw [hear_of_denied hanswer (by simp [Elector.isGrantedBy, hstage, hreply])]
    refine h.rest (by simp [hphase]) hidle.1 ⟨?_, hattempt.2⟩
    exact (began_follow_of_attempting (by simp [Elector.isAttempting, hstage])).trans hattempt.1
  | win hstage hreply hgranted hphase hidle hquiet =>
    simp only [AttemptOnTime, hstage] at hattempt
    exact h.grant hanswer (by simp [Elector.isGrantedBy, hstage, hreply, hgranted]) hattempt
      ⟨_, _, rfl⟩ rfl rfl (by simp [Elector.isRenewing, hstage])
  | @miss started attempt client result _ _ hstage hreply hdenied hphase hidle hquiet =>
    have hgranted : c.elector.isGrantedBy c.now reply = false := by
      cases result with
      | error error => simp [Elector.isGrantedBy, hstage, hreply]
      | ok outcome => simp [Elector.isGrantedBy, hstage, hreply, hdenied outcome rfl]
    rw [hear_of_denied hanswer hgranted]
    exact h.rest (by simp [hphase]) hidle.1 trivial
  | askAgain hstage hreply hphase hoffice =>
    simp only [AttemptOnTime, hstage] at hattempt
    rw [hear_of_denied hanswer (by simp [Elector.isGrantedBy, hstage, hreply])]
    refine h.lead (.inl hphase) rfl (fun _ => ⟨hphase, rfl⟩) id ⟨?_, hattempt.2⟩ fun g hg => ?_
    · exact (began_follow_of_attempting (by simp [Elector.isAttempting, hstage])).trans hattempt.1
    · have hstage' := hg.stage
      simpa only [StageOnTime, hstage, follow] using hstage'
  | keep hstage hreply hgranted hphase hoffice hquiet =>
    simp only [AttemptOnTime, hstage] at hattempt
    obtain ⟨g, -, hg⟩ := h.claim (.inl hphase)
    refine h.grant hanswer (by simp [Elector.isGrantedBy, hstage, hreply, hgranted]) hattempt
      ⟨_, _, rfl⟩ rfl rfl fun _ heven => ?_
    have hstage' := hg.stage
    simp only [StageOnTime, hstage] at hstage'
    obtain ⟨rfl, hnext, hnow⟩ := hstage'
    -- the deadline by which this renewal was answered is that of the grant before
    exact Grant.limit_eq_deadline heven hg.began_le hnext hnow
  | lose hstage hreply hdenied hphase hoffice hquiet =>
    rw [hear_of_denied hanswer (by simp [Elector.isGrantedBy, hstage, hreply, hdenied])]
    refine h.lead (.inl hphase) rfl ?_ id trivial fun g hg => ?_
    · intro hleading
      cases hleading
    · simp [StageOnTime, follow]
  | fail hstage hreply hphase hoffice =>
    simp only [AttemptOnTime, hstage] at hattempt
    rw [hear_of_denied hanswer (by simp [Elector.isGrantedBy, hstage, hreply])]
    refine h.lead (.inl hphase) rfl (fun _ => ⟨hphase, rfl⟩) id trivial fun g hg => ?_
    have hstage' := hg.stage
    simp only [StageOnTime, hstage] at hstage'
    exact ⟨hstage'.1, hstage'.2.1.trans hattempt.2⟩
  | vacate hstage hreply hout hleaving =>
    rw [hear_of_denied hanswer (by simp [Elector.isGrantedBy, hstage])]
    exact h.rest hout.ne_leading hleaving.1 trivial
  | leave hstage hreply hout hleaving =>
    rw [hear_of_denied hanswer (by simp [Elector.isGrantedBy, hstage])]
    exact h.rest hout.ne_leading hleaving.1 trivial

/-- An elector that stays at its stage stays timely. -/
theorem Timely.stay (h : c.Timely) (hstage : after.stage = c.elector.stage)
    (hmachine : after.machine = c.elector.machine) (htiming : after.timing = c.elector.timing)
    (hlast : after.lastRenewal = c.elector.lastRenewal)
    (hepisode : c.elector.episode = none → after.episode = none)
    (hrevoked : c.elector.isRevoked = true → after.isRevoked = true) :
    (c.follow after notes).Timely := by
  -- no attempt begins on the way, so the start that was taken down still counts
  have hattempting : after.isAttempting = c.elector.isAttempting := by
    simp only [Elector.isAttempting, hstage]
  have hattempt : (c.follow after notes).AttemptOnTime := by
    have hbegan : (c.follow after notes).chronicle.began = c.chronicle.began := by
      simp [follow, Chronicle.follow, hattempting]
    simp only [AttemptOnTime, hbegan]
    show match after.stage with
      | .competing started _ | .renewing _ started _ =>
        c.chronicle.began = started ∧ started ≤ c.now
      | _ => True
    rw [hstage]
    exact h.attempt
  -- an elector that claims does so by the grant that it had; without a claim only attempts have
  -- instants
  by_cases hclaim : c.elector.IsClaiming
  · refine h.lead hclaim htiming (fun hphase => ⟨hmachine ▸ hphase, hlast⟩) hrevoked hattempt ?_
    intro g hg
    have hbefore := hg.stage
    simpa only [StageOnTime, follow, hstage, hmachine, htiming] using hbefore
  · refine h.rest (fun hphase => hclaim (.inl (hmachine ▸ hphase))) (hepisode ?_) hattempt
    exact Classical.not_not.mp fun hsome => hclaim (.inr hsome)

/-- The marks do not tell of instants. -/
theorem Timely.mark (h : c.Timely) (marks : List Mark) :
    Timely { c with chronicle := { c.chronicle with marks := marks } } := by
  refine ⟨h.revoked_le, h.attempt, fun hclaim => ?_⟩
  obtain ⟨g, hgrant, hg⟩ := h.claim hclaim
  exact ⟨g, hgrant, hg.began_le, hg.landed_le, hg.last_eq, hg.stage, hg.renewal, hg.held,
    hg.revoked⟩

/-- The instants of an elector agree with its chronicle also once it is told to shut down. -/
theorem Timely.cancel (h : c.Timely) :
    (c.follow c.elector.cancel.1 c.elector.cancel.2).Timely := by
  rw [Elector.cancel_eq]
  refine h.stay rfl rfl rfl rfl ?_ ?_
  · intro hnone
    simp [Elector.outside, hnone]
  · intro hrevoked
    cases hepisode : c.elector.episode with
    | none => simp [Elector.isRevoked, hepisode] at hrevoked
    | some episode => simp [Elector.isRevoked, Elector.outside, hepisode]

/-- The instants of an elector agree with its chronicle also once its body has ended. -/
theorem Timely.endBody (h : c.Timely) :
    Timely { c with elector := c.elector.endBody, chronicle := c.chronicle.endBody } := by
  have hrevoked : c.elector.endBody.isRevoked = c.elector.isRevoked := by
    cases hepisode : c.elector.episode <;> simp [Elector.isRevoked, Elector.endBody, hepisode]
  have hattempting : c.elector.endBody.isAttempting = c.elector.isAttempting := rfl
  have hstay : (c.follow c.elector.endBody []).Timely := by
    refine h.stay rfl rfl rfl rfl ?_ ?_
    · intro hnone
      simp [Elector.endBody, hnone]
    · intro hbefore
      rw [hrevoked, hbefore]
  have hmark := hstay.mark c.chronicle.endBody.marks
  simpa [Course.follow, Chronicle.follow, Chronicle.endBody, hrevoked, hattempting] using hmark

/-- Time that passes up to the next timer leaves a leader within its limit. -/
theorem OnTime.pass {t : Nat} (h : c.OnTime g) (hc : c.elector.Coherent) (hle : c.now ≤ t)
    (hclaim : c.elector.IsClaiming) (hcalm : c.elector.urgent = false)
    (hdue : ∀ due ∈ c.elector.due, t ≤ Clock.ring due) : OnTime { c with now := t } g := by
  have hstage := h.stage
  have hlimit := g.deadline_le_limit c.elector.timing
  have hwake := g.wake_le_limit c.elector.timing
  suffices hgoal : StageOnTime { c with now := t } g
      ∧ (c.elector.isRevoked = false → t ≤ g.limit c.elector.timing) from
    ⟨h.began_le, h.landed_le.trans hle, h.last_eq, hgoal.1, h.renewal, hgoal.2, h.revoked⟩
  -- a leader always has a timer set, and each of them rings within the limit
  cases hs : c.elector.stage with
  | resting wake deadline =>
    have ht : t ≤ Clock.ring wake := hdue wake (by simp [Elector.due, hs])
    simp only [StageOnTime, hs] at hstage ⊢
    obtain ⟨rfl, rfl, -⟩ := hstage
    exact ⟨⟨rfl, rfl, ht⟩, fun _ => ht.trans hwake⟩
  | renewing deadline started attempt =>
    have ht : t ≤ Clock.ring deadline := hdue deadline (by simp [Elector.due, hs])
    simp only [StageOnTime, hs] at hstage ⊢
    obtain ⟨rfl, hnext, -⟩ := hstage
    exact ⟨⟨rfl, hnext, ht.trans (Nat.le_max_left _ _)⟩, fun _ => ht.trans hlimit⟩
  | pausing wake deadline =>
    have ht : t ≤ Clock.ring (min wake deadline) := hdue _ (by simp [Elector.due, hs])
    have ht : t ≤ Clock.ring deadline := ht.trans (Clock.ring_mono (Nat.min_le_right _ _))
    simp only [StageOnTime, hs] at hstage ⊢
    obtain ⟨rfl, hnext⟩ := hstage
    exact ⟨⟨rfl, hnext.trans hle⟩, fun _ => ht.trans hlimit⟩
  | stopping cause rest =>
    obtain ⟨-, -, ⟨episode, hepisode, hcancelled⟩, -⟩ : c.elector.IsOut ∧ Elector.Closing rest ∧
        (∃ episode, c.elector.episode = some episode ∧ episode.cancelled = true)
          ∧ c.elector.leading = true := by
      simpa [Elector.Coherent, hs] using hc
    simp [StageOnTime, hs, Elector.isRevoked, hepisode, hcancelled]
  | ready => simp [Elector.urgent, hs] at hcalm
  | performing cause effects => simp [Elector.urgent, hs] at hcalm
  | backingOff _ | competing _ _ | retrying _ =>
    have hidle : c.elector.machine.phase = .candidate ∧ c.elector.IsIdle := by
      simpa [Elector.Coherent, hs] using hc
    exact absurd hclaim (Elector.not_isClaiming (by simp [hidle.1]) hidle.2.1)
  | releasing cause rest limit surrender =>
    obtain ⟨hout, -, hleaving⟩ :
        c.elector.IsOut ∧ rest = [.notifyStopped] ∧ c.elector.IsLeaving := by
      simpa [Elector.Coherent, hs] using hc
    exact absurd hclaim
      (Elector.not_isClaiming hout.ne_leading hleaving.1)
  | aborting error => simp [Elector.Coherent, hs] at hc
  | finished error =>
    have hdone : error = none ∧ c.elector.machine.phase = .stopped ∧ c.elector.IsIdle
        ∧ c.elector.shutdown = true := by
      simpa [Elector.Coherent, hs] using hc
    exact absurd hclaim (Elector.not_isClaiming (by simp [hdone.2.1]) hdone.2.2.1.1)

/-- One thing that happens keeps an elector timely. -/
theorem Timely.move {c' : Course} (h : c.Timely) (hc : c.elector.Coherent) (hmove : Move c c') :
    c'.Timely := by
  cases hmove with
  | cancel => exact h.cancel
  | endBody hbody => exact h.endBody
  | advance wall delay after notes hadvance => exact h.step (hc.step hadvance)
  | hear wall delay request reply hrequest => exact h.taken rfl (hc.taken hrequest)
  | pass t hle hcalm hdue =>
    refine ⟨h.revoked_le.trans hle, ?_, fun hclaim => ?_⟩
    · have hattempt := h.attempt
      simp only [AttemptOnTime] at hattempt ⊢
      split at hattempt
      · exact ⟨hattempt.1, hattempt.2.trans hle⟩
      · exact ⟨hattempt.1, hattempt.2.trans hle⟩
      · trivial
    · obtain ⟨g, hgrant, hg⟩ := h.claim hclaim
      exact ⟨g, hgrant, hg.pass hc hle hclaim hcalm hdue⟩

/-- At every point of a course the instants of the elector agree with its chronicle. -/
theorem Reachable.timely (h : Reachable c) : c.Timely := by
  induction h with
  | start client timing release born now shutdown hborn =>
    refine ⟨Nat.zero_le _, trivial, fun hclaim => ?_⟩
    have hphase : (Course.start client timing release born now shutdown).elector.machine.phase
        ≠ .leading := by
      simp [Course.start, Elector.new, Machine.new]
    exact absurd hclaim (Elector.not_isClaiming hphase rfl)
  | move hreach hmove ih => exact ih.move hreach.coherent hmove

/-- A token that is not cancelled goes with a grant whose limit has not passed. -/
theorem Reachable.le_limit (h : Reachable c) (htoken : c.elector.holdsToken = true) :
    ∃ g, c.chronicle.grant = some g ∧ c.OnTime g ∧ c.now ≤ g.limit c.elector.timing := by
  obtain ⟨episode, hepisode, hcancelled⟩ : ∃ episode, c.elector.episode = some episode
      ∧ episode.cancelled = false := by
    cases hepisode : c.elector.episode with
    | none => simp [Elector.holdsToken, hepisode] at htoken
    | some episode => exact ⟨episode, rfl, by simpa [Elector.holdsToken, hepisode] using htoken⟩
  obtain ⟨g, hgrant, hg⟩ := h.timely.claim (.inr (by simp [hepisode]))
  exact ⟨g, hgrant, hg, hg.held (by simp [Elector.isRevoked, hepisode, hcancelled])⟩

/-- A leader that waits and is left alone may hold its token up to the limit:
the store does not answer, and time passes. -/
theorem exists_later_limit (hg : c.OnTime g) {wake deadline : Nat}
    (hstage : c.elector.stage = .resting wake deadline) (hcalm : c.elector.urgent = false) :
    ∃ c', Later c c' ∧ c'.chronicle.grant = c.chronicle.grant
      ∧ c'.elector.episode = c.elector.episode ∧ c'.now = g.limit c.elector.timing := by
  have hstage' := hg.stage
  simp only [StageOnTime, hstage] at hstage'
  obtain ⟨rfl, rfl, hnow⟩ := hstage'
  have hlimit : g.limit c.elector.timing
      = max (Clock.ring (Clock.after g.began c.elector.timing.renewDeadline))
        (Clock.ring (Clock.after g.landed c.elector.timing.retryPeriod)) := rfl
  -- the limit is the later of two instants, and the run depends on which
  generalize Clock.after g.landed c.elector.timing.retryPeriod = wake at hstage hnow hlimit
  generalize Clock.after g.began c.elector.timing.renewDeadline = deadline at hstage hlimit
  have hrest : Later c { c with now := Clock.ring wake } :=
    .move .refl (.pass c _ hnow hcalm (by simp [Elector.due, hstage]))
  by_cases hlate : Clock.ring deadline ≤ Clock.ring wake
  · exact ⟨_, hrest, rfl, rfl, (hlimit.trans (Nat.max_eq_right hlate)).symm⟩
  · -- the renewal begins, and no reply comes before the deadline rings
    have hadvance : c.elector.advance ⟨Clock.ring wake, 0⟩ ⟨0⟩
        = some (c.elector.renew deadline ⟨Clock.ring wake, 0⟩, []) := by
      simp [Elector.advance, hcalm, Elector.advanceTimer, hstage, Clock.reached]
    have hrenew := hrest.move (.advance _ 0 ⟨0⟩ _ _ hadvance)
    have hcalm' : (c.elector.renew deadline ⟨Clock.ring wake, 0⟩).urgent = false := by
      simpa [Elector.urgent, Elector.renew, Elector.bodyEnded, hstage] using hcalm
    have hhang := hrenew.move (.pass _ (Clock.ring deadline) (Nat.le_of_not_le hlate) hcalm'
      (by simp [follow, Elector.due, Elector.renew]))
    exact ⟨_, hhang, rfl, rfl, (hlimit.trans (Nat.max_eq_left (Nat.le_of_not_le hlate))).symm⟩

/-- While a token is not cancelled, the limit of the last grant has not passed;
for a renewal the limit is the renew deadline, counted from its start. A leader
that waits for its next renewal keeps that deadline in every run, as long as it
is not renewed, exactly when the limit is not beyond it. -/
theorem Reachable.deadline_exact (h : Reachable c) {lease renew retry : Duration}
    (ht : Timing.check lease renew retry = .ok c.elector.timing) :
    (c.elector.holdsToken = true → ∃ g, c.chronicle.grant = some g
        ∧ c.now ≤ g.limit c.elector.timing
        ∧ (g.renewal = true → 1000000 ∣ renew.nanos → 1000000 ∣ retry.nanos →
          c.now ≤ Clock.ring (Clock.after g.began renew)))
      ∧ (∀ wake deadline, c.elector.stage = .resting wake deadline → c.elector.urgent = false →
        c.elector.holdsToken = true → ∃ g, c.chronicle.grant = some g
          ∧ ((∀ c', Later c c' → c'.chronicle.grant = some g → c'.elector.holdsToken = true →
              c'.now ≤ Clock.after g.began renew)
            ↔ g.limit c.elector.timing ≤ Clock.after g.began renew)) := by
  obtain ⟨htiming, -⟩ := Timing.check_ok ht
  have hretry : retry < renew := by
    have hlt := Timing.retry_lt_renew_of_check ht
    rwa [htiming] at hlt
  constructor
  · intro htoken
    obtain ⟨g, hgrant, hg, hnow⟩ := h.le_limit htoken
    refine ⟨g, hgrant, hnow, fun hrenewal hrenew_dvd hretry_dvd => ?_⟩
    -- between even instants the wake-up comes before the deadline, so that is the limit
    have heven : c.elector.timing.IsEven := by
      rw [htiming]
      exact ⟨hrenew_dvd, hretry_dvd, Nat.le_of_lt hretry⟩
    rw [hg.renewal hrenewal heven, htiming] at hnow
    exact hnow
  · intro wake deadline hstage hcalm htoken
    obtain ⟨g, hgrant, hg, -⟩ := h.le_limit htoken
    refine ⟨g, hgrant, fun hkept => ?_, fun hlimit c' hlater hgrant' htoken' => ?_⟩
    · -- a store that does not reply lets the token live until the limit
      obtain ⟨c', hlater, hgrant', hepisode, hnow⟩ := exists_later_limit hg hstage hcalm
      have htoken' : c'.elector.holdsToken = true := by
        rw [Elector.holdsToken, hepisode]
        exact htoken
      rw [← hnow]
      exact hkept c' hlater (hgrant'.trans hgrant) htoken'
    · obtain ⟨g', hg', -, hnow⟩ := (hlater.reachable h).le_limit htoken'
      obtain rfl : g = g' := Option.some.inj (hgrant'.symm.trans hg')
      rw [hlater.timing_eq h] at hnow
      exact hnow.trans hlimit

/-- Fifteen seconds of lease, ten of renew deadline and a retry every five. -/
def brisk : Timing := ⟨.ofSecs 15, .ofSecs 10, .ofSecs 5⟩

/-- The timing used as an example is accepted. -/
theorem check_brisk : Timing.check (.ofSecs 15) (.ofSecs 10) (.ofSecs 5) = .ok brisk := by
  have hscale : (Duration.ofSecs 5).scale Timing.jitterFactor = some (.ofSecs 6) := by
    decide +kernel
  exact Timing.check_of_lt (by decide) (by decide) (by decide) hscale (by decide)

/-- The store takes four seconds for each call of the attempt that takes the
lease. Then the leader waits for its first renewal. -/
def slowWin : List Deed :=
  [.advance 0 ⟨0⟩, .pass 4000000000, .hear 0 ⟨0⟩ (.found none), .pass 8000000000,
    .hear 0 ⟨0⟩ (.written 1), .advance 0 ⟨0⟩, .advance 0 ⟨0⟩, .advance 0 ⟨0⟩]

/-- After the slow attempt the limit is three seconds beyond the deadline. -/
theorem deadline_exact_slowWin :
    ∃ c, (novice brisk).play slowWin = some c ∧ Reachable c
      ∧ Timing.check (.ofSecs 15) (.ofSecs 10) (.ofSecs 5) = .ok c.elector.timing
      ∧ c.elector.stage = .resting 13000000000 10000000000
      ∧ (c.elector.holdsToken = true → ∃ g, c.chronicle.grant = some g
        ∧ c.now ≤ g.limit c.elector.timing
        ∧ (g.renewal = true → 1000000 ∣ (Duration.ofSecs 10).nanos →
          1000000 ∣ (Duration.ofSecs 5).nanos →
          c.now ≤ Clock.ring (Clock.after g.began (.ofSecs 10))))
      ∧ (∀ wake deadline, c.elector.stage = .resting wake deadline → c.elector.urgent = false →
        c.elector.holdsToken = true → ∃ g, c.chronicle.grant = some g
          ∧ ((∀ c', Later c c' → c'.chronicle.grant = some g → c'.elector.holdsToken = true →
              c'.now ≤ Clock.after g.began (.ofSecs 10))
            ↔ g.limit c.elector.timing ≤ Clock.after g.began (.ofSecs 10))) := by
  obtain ⟨c, hplay, htiming, hstage⟩ : ∃ c, (novice brisk).play slowWin = some c
      ∧ c.elector.timing = brisk ∧ c.elector.stage = .resting 13000000000 10000000000 :=
    ⟨_, rfl, rfl, rfl⟩
  have hreach : Reachable c := (reachable_novice brisk).play hplay
  have hcheck : Timing.check (.ofSecs 15) (.ofSecs 10) (.ofSecs 5) = .ok c.elector.timing := by
    rw [htiming]
    exact check_brisk
  exact ⟨c, hplay, hreach, hcheck, hstage, hreach.deadline_exact hcheck⟩

/-- Three seconds after the renew deadline of an episode that was not renewed its
token is not cancelled. -/
theorem deadline_missed :
    Timing.check (.ofSecs 15) (.ofSecs 10) (.ofSecs 5) = .ok brisk
      ∧ ∃ c, Reachable c ∧ c.elector.timing = brisk ∧ c.elector.holdsToken = true
        ∧ ∃ g, c.chronicle.grant = some g
          ∧ Clock.after g.began brisk.renewDeadline + 3000000000 = c.now := by
  refine ⟨check_brisk, ?_⟩
  obtain ⟨c, hplay, hmissed⟩ : ∃ c, (novice brisk).play (slowWin ++ [.pass 13000000000]) = some c
      ∧ c.elector.timing = brisk ∧ c.elector.holdsToken = true ∧ ∃ g, c.chronicle.grant = some g
        ∧ Clock.after g.began brisk.renewDeadline + 3000000000 = c.now :=
    ⟨_, rfl, rfl, rfl, _, rfl, rfl⟩
  exact ⟨c, (reachable_novice brisk).play hplay, hmissed⟩

end Course

end Tenure.Leader
