import Tenure.Proofs.Leader.Gauge
import Tenure.Proofs.Leader.Retention

/-!
# `Tenure.Proofs.Leader.Flag`: how long a candidate says that it leads

The flag of a candidate goes down when the end of its episode is announced. Before
that the body of the episode is awaited, for as long as it takes, and the lock may be
given up, within a retry period. So the flag can outlive the lease, and another
candidate can take the lock while it is still up (`Arena.both_claim`).

A flag that has outlived its lease is the only way: of two candidates that say that
they lead, one holds no token any more, and the lease of its last grant has run out.
When every body returns soon after its token was cancelled this does not come up.

* `Course.StepsDown.move`: when bodies return within a span, the flag is down that
  long after the limit of the last grant, or a retry period later.
* `Arena.Run.claimed_once`: the gauges sum up to one at most exactly when at most one
  candidate says that it leads; of two that say so, one has outlived its lease; and
  there are no two when bodies return in time.
-/

set_option autoImplicit false

namespace Tenure.Leader

open Lease Store

namespace Elector

variable {e e' : Elector} {now : Moment} {delay : Duration} {reply : Reply} {notes : List Note}

/-- The elector says that it leads, and is neither giving the lock up nor about to
announce the end. -/
structure IsFlagged (e : Elector) : Prop where
  leading : e.leading = true
  silent : e.isAnnouncing = false
  stays : ∀ cause rest limit surrender, e.stage ≠ .releasing cause rest limit surrender

/-- Whether an elector is flagged shows in its flag and its stage alone. -/
theorem isFlagged_congr (hleading : e'.leading = e.leading) (hstage : e'.stage = e.stage)
    (h : e'.IsFlagged) : e.IsFlagged := by
  obtain ⟨hl, hs, hr⟩ := h
  refine ⟨hleading ▸ hl, ?_, hstage ▸ hr⟩
  simpa only [isAnnouncing, hstage] using hs

/-- As long as leadership has not ended, nobody gives the lock up. -/
theorem Coherent.isFlagged (h : e.Coherent) (hphase : e.machine.phase = .leading)
    (hoffice : e.InOffice) : e.IsFlagged := by
  have hin : ¬ e.IsOut := fun hout => hout.ne_leading hphase
  refine ⟨hoffice.2, ?_, fun cause rest limit surrender hstage => ?_⟩
  · unfold isAnnouncing
    split
    · rename_i cause hstage
      have hp : e.Pending [.notifyStopped] := by simpa [Coherent, hstage] using h
      cases hp with
      | close hout _ _ => exact absurd hout hin
    · rfl
  · have hc : e.IsOut ∧ rest = [.notifyStopped] ∧ e.IsLeaving := by
      simpa [Coherent, hstage] using h
    exact hin hc.1

/-- The flag goes up when a leader starts an episode. -/
theorem Step.leading_or (h : Step now delay e e' notes) (hleading : e'.leading = true) :
    e.leading = true ∨ e.machine.phase = .leading := by
  cases h with
  | start _ hphase _ => exact .inr hphase
  | announce _ _ _ => cases hleading
  | _ => exact .inl hleading

/-- A flag does not go up but at the start of an episode. -/
theorem Step.isFlagged (h : Step now delay e e' notes) (hc : e.Coherent) (hflag : e'.IsFlagged) :
    e.IsFlagged ∨ e.machine.phase = .leading ∧ e.episode = none := by
  obtain ⟨hleading, hsilent, hstays⟩ := hflag
  have hidle : e.IsIdle → e'.leading = e.leading → False := by
    intro hidle hsame
    rw [hsame, hidle.2] at hleading
    cases hleading
  cases h with
  -- a flag goes up at the start of an episode, and at no other step
  | start _ hphase hnone => exact .inr ⟨hphase, hnone.1⟩
  | withdraw _ _ _ hnone | backOff _ _ hnone | compete _ _ hnone | giveUp _ _ hnone
  | resume _ _ hnone | finish _ _ hnone _ | exit _ _ hnone _ => exact (hidle hnone rfl).elim
  | rest _ hphase hoffice | renew _ _ hphase hoffice | lose _ _ hphase hoffice
  | relinquish _ _ hphase hoffice => exact .inl (hc.isFlagged hphase hoffice)
  | settle hstage _ | revoke hstage _ _ _ _ _ =>
    refine .inl ⟨hleading, by simp [isAnnouncing, hstage], fun _ _ _ _ heq => ?_⟩
    simp [hstage] at heq
  | dismiss hstage _ _ _ _ _ =>
    refine .inl ⟨hleading, ?_, fun _ _ _ _ heq => ?_⟩
    · rcases hstage with hs | hs <;> simp [isAnnouncing, hs]
    · rcases hstage with hs | hs <;> simp [hs] at heq
  | release _ _ _ => exact absurd rfl (hstays _ _ _ _)
  | abandon _ _ _ => cases hsilent
  | announce _ _ _ => cases hleading

/-- A reply puts no flag up. -/
theorem Taken.isFlagged (h : Taken now delay reply e e' notes) (hc : e.Coherent)
    (hflag : e'.IsFlagged) : e.IsFlagged := by
  obtain ⟨hleading, hsilent, hstays⟩ := hflag
  have hidle : e.IsIdle → False := by
    intro hidle
    rw [h.leading_eq, hidle.2] at hleading
    cases hleading
  cases h with
  | ask _ _ _ hnone | win _ _ _ _ hnone _ | miss _ _ _ _ hnone _ => exact (hidle hnone).elim
  | askAgain _ _ hphase hoffice | keep _ _ _ hphase hoffice _ | lose _ _ _ hphase hoffice _
  | fail _ _ hphase hoffice => exact hc.isFlagged hphase hoffice
  | vacate _ _ _ _ => exact absurd rfl (hstays _ _ _ _)
  | leave _ _ _ _ => cases hsilent

/-- A reply does not begin to give the lock up, and leaves the limit of that alone. -/
theorem Taken.releasing (h : Taken now delay reply e e' notes) {cause : Event}
    {rest : List Effect} {limit : Nat} {surrender : Surrender}
    (hstage : e'.stage = .releasing cause rest limit surrender) :
    ∃ before, e.stage = .releasing cause rest limit before := by
  cases h with
  | vacate hbefore _ _ _ =>
    cases hstage
    exact ⟨_, hbefore⟩
  | _ => cases hstage

/-- A leader that has nothing urgent to do waits for the body of its episode. -/
theorem Coherent.body?_of_calm (h : e.Coherent) (hflag : e.IsFlagged) (hcalm : e.urgent = false) :
    e.body? = some false := by
  have hidle : e.IsIdle → False := fun hnone => by simpa [hnone.2] using hflag.leading
  have hoffice : e.InOffice → e.bodyEnded = false → e.body? = some false := by
    rintro ⟨⟨episode, hepisode⟩, -⟩ hruns
    simpa [body?, bodyEnded, hepisode] using hruns
  cases hstage : e.stage with
  -- with a flag up and nothing urgent, the stages that are left have an episode whose body runs
  | ready | performing _ _ => simp [urgent, hstage] at hcalm
  | backingOff _ | competing _ _ | retrying _ =>
    have hc : e.machine.phase = .candidate ∧ e.IsIdle := by simpa [Coherent, hstage] using h
    exact (hidle hc.2).elim
  | resting _ _ | renewing _ _ _ | pausing _ _ =>
    have hc : e.machine.phase = .leading ∧ e.InOffice := by simpa [Coherent, hstage] using h
    have hruns : e.shutdown = false ∧ e.bodyEnded = false := by
      simpa [urgent, hstage] using hcalm
    exact hoffice hc.2 hruns.2
  | stopping cause rest =>
    obtain ⟨-, -, ⟨episode, hepisode, -⟩, -⟩ : e.IsOut ∧ Closing rest ∧
        (∃ episode, e.episode = some episode ∧ episode.cancelled = true) ∧ e.leading = true := by
      simpa [Coherent, hstage] using h
    simpa [urgent, hstage, body?, bodyEnded, hepisode] using hcalm
  | releasing cause rest limit surrender => exact absurd hstage (hflag.stays _ _ _ _)
  | aborting error => simp [Coherent, hstage] at h
  | finished error =>
    have hdone : error = none ∧ e.machine.phase = .stopped ∧ e.IsIdle ∧ e.shutdown = true := by
      simpa [Coherent, hstage] using h
    exact (hidle hdone.2.2.1).elim

end Elector

/-- Timers ring on whole milliseconds, and so does the limit of a grant. -/
theorem Grant.dvd_limit (g : Grant) (t : Timing) : 1000000 ∣ g.limit t := by
  unfold limit
  rcases Nat.le_total (Clock.ring (Clock.after g.began t.renewDeadline))
    (Clock.ring (Clock.after g.landed t.retryPeriod)) with hle | hle
  · rw [Nat.max_eq_right hle]
    exact Nat.dvd_mul_left _ _
  · rw [Nat.max_eq_left hle]
    exact Nat.dvd_mul_left _ _

namespace Course

variable {c c' : Course} {d : Duration}

/-- What a reply grants is written down. -/
theorem grant_hear (c : Course) (wall : Nat) (delay : Duration) (reply : Reply) :
    (c.hear wall delay reply).chronicle.grant = if c.elector.isGrantedBy c.now reply then
      some ⟨c.chronicle.began, c.now, c.elector.isRenewing⟩ else c.chronicle.grant := by
  simp only [Course.hear, Chronicle.hear, Chronicle.follow]
  split <;> rfl

/-- An attempt that is granted has begun before. -/
theorem Timely.began_le_of_granted (h : c.Timely) {reply : Reply}
    (hgranted : c.elector.isGrantedBy c.now reply = true) : c.chronicle.began ≤ c.now := by
  have hattempt := h.attempt
  unfold Elector.isGrantedBy at hgranted
  unfold AttemptOnTime at hattempt
  split at hgranted
  · rename_i hstage
    rw [hstage] at hattempt
    exact hattempt.1.trans_le hattempt.2
  · rename_i hstage
    rw [hstage] at hattempt
    exact hattempt.1.trans_le hattempt.2
  · cases hgranted

/-- Who says that it leads does so by a grant. -/
theorem Reachable.exists_grant (h : Reachable c) (hleading : c.elector.leading = true) :
    ∃ g, c.chronicle.grant = some g ∧ g.began ≤ g.landed := by
  induction h with
  | start client timing release born now shutdown hborn => cases hleading
  | @move c c' hreach hmove ih =>
    cases hmove with
    | cancel =>
      refine ih ?_
      have hcancel : c.elector.cancel.1.leading = true := hleading
      rwa [Elector.cancel_eq] at hcancel
    | endBody hbody => exact ih hleading
    | advance wall delay after notes hadvance =>
      have hstep := hreach.coherent.step hadvance
      -- the episode of a leader starts with a grant behind it
      rcases hstep.leading_or hleading with hbefore | hphase
      · exact ih hbefore
      · obtain ⟨g, hgrant, hg⟩ := hreach.timely.claim (.inl hphase)
        exact ⟨g, hgrant, hg.began_le⟩
    | hear wall delay request reply hrequest =>
      rw [grant_hear]
      split
      · rename_i hgranted
        exact ⟨_, rfl, hreach.timely.began_le_of_granted hgranted⟩
      · refine ih ?_
        have htaken : Elector.Taken ⟨c.now, wall⟩ delay reply _ _ _ :=
          hreach.coherent.taken hrequest
        rw [← htaken.leading_eq]
        exact hleading
    | pass t hle hcalm hdue => exact ih hleading

/-- The body of an episode whose token is cancelled runs for a span at most. -/
def IsPrompt (d : Duration) (c : Course) : Prop :=
  c.chronicle.isBodyRunning = true → c.elector.isRevoked = true →
    c.now ≤ Clock.after c.chronicle.revoked d

/-- A flag is up until a span after the limit of the last grant, and while the lock is
given up for a retry period more. -/
structure StepsDown (d : Duration) (c : Course) : Prop where
  flagged : c.elector.IsFlagged → ∀ g ∈ c.chronicle.grant,
    c.now ≤ Clock.after (g.limit c.elector.timing) d
  releasing : ∀ cause rest limit surrender,
    c.elector.stage = .releasing cause rest limit surrender →
      c.now ≤ Clock.ring limit ∧ ∀ g ∈ c.chronicle.grant, limit
        ≤ Clock.after (Clock.after (g.limit c.elector.timing) d) c.elector.timing.retryPeriod

/-- As long as a body runs that returns in time, the limit of the grant has not passed
by more than that. -/
theorem Reachable.le_of_running (h : Reachable c) (hprompt : c.IsPrompt d)
    (hbody : c.elector.body? = some false) :
    ∀ g ∈ c.chronicle.grant, c.now ≤ Clock.after (g.limit c.elector.timing) d := by
  intro g hg
  obtain ⟨blocks, last, hserial⟩ := h.serial
  have hruns := hserial.isBodyRunning_iff.mpr hbody
  obtain ⟨g', hgrant, hon⟩ := h.timely.claim (h.isClaiming_of_isBodyRunning hruns)
  obtain rfl : g' = g := Option.some.inj (hgrant.symm.trans hg)
  cases hrevoked : c.elector.isRevoked with
  | true => exact (hprompt hruns hrevoked).trans (Nat.add_le_add_right (hon.revoked hrevoked) _)
  | false => exact (hon.held hrevoked).trans (Nat.le_add_right _ _)

/-- What happens from outside changes nothing about when a flag goes down. -/
theorem StepsDown.stay (h : c.StepsDown d) (hnow : c'.now = c.now)
    (hleading : c'.elector.leading = c.elector.leading)
    (hstage : c'.elector.stage = c.elector.stage) (htiming : c'.elector.timing = c.elector.timing)
    (hgrant : c'.chronicle.grant = c.chronicle.grant) : c'.StepsDown d := by
  constructor
  · rw [hnow, htiming, hgrant]
    exact fun hflag => h.flagged (Elector.isFlagged_congr hleading hstage hflag)
  · rw [hnow, htiming, hgrant, hstage]
    exact h.releasing

/-- Giving the lock up begins in time when the body has ended in time. -/
theorem StepsDown.step {wall : Nat} {delay : Duration} {after : Elector} {notes : List Note}
    (h : c.StepsDown d) (hc : Reachable c)
    (hstep : c.elector.Step ⟨c.now, wall⟩ delay after notes) :
    (c.follow after notes).StepsDown d := by
  have htiming : after.timing = c.elector.timing := hstep.timing_eq
  constructor
  · intro hflag g hg
    show c.now ≤ Clock.after (g.limit after.timing) d
    rw [htiming]
    rcases hstep.isFlagged hc.coherent hflag with hbefore | ⟨hphase, hnone⟩
    · exact h.flagged hbefore g hg
    · -- the episode starts now, and the grant has just landed
      obtain ⟨g', hgrant, hon⟩ := hc.timely.claim (.inl hphase)
      obtain rfl : g' = g := Option.some.inj (hgrant.symm.trans hg)
      exact (hon.held (by simp [Elector.isRevoked, hnone])).trans (Nat.le_add_right _ _)
  · intro cause rest limit surrender hstage
    have hstage : after.stage = .releasing cause rest limit surrender := hstage
    have hflagged := h.flagged
    cases hstep with
    -- the release begins here, and its limit is a retry period from now
    | release hdue hout hleaving =>
      cases hstage
      refine ⟨?_, fun g hg => Nat.add_le_add_right (hflagged ?_ g hg) _⟩
      · exact (Nat.le_add_right _ _).trans (Clock.le_ring _)
      · exact ⟨hleaving.2, by simp [Elector.isAnnouncing, hdue], fun _ _ _ _ heq => by
          simp [hdue] at heq⟩
    | _ => cases hstage

/-- A reply leaves a candidate that gives the lock up its limit. -/
theorem StepsDown.taken {wall : Nat} {delay : Duration} {reply : Reply} {request : Request}
    (h : c.StepsDown d) (hc : Reachable c) (hrequest : c.elector.request? = some request) :
    (c.hear wall delay reply).StepsDown d := by
  have htaken : Elector.Taken ⟨c.now, wall⟩ delay reply c.elector
    (c.hear wall delay reply).elector _ := hc.coherent.taken hrequest
  have htiming := htaken.timing_eq
  constructor
  · intro hflag g hg
    show c.now ≤ _
    rw [grant_hear] at hg
    rw [htiming]
    split at hg
    · -- a grant that has just landed
      cases hg
      exact (Grant.landed_le_limit c.elector.timing ⟨_, c.now, _⟩).trans (Nat.le_add_right _ _)
    · exact h.flagged (htaken.isFlagged hc.coherent hflag) g hg
  · intro cause rest limit surrender hstage
    -- giving up was under way before the reply, and nothing was granted by it
    obtain ⟨before, hbefore⟩ := htaken.releasing hstage
    have hresigning : c.elector.IsResigning := .underway hbefore
    rw [grant_hear, htiming, hresigning.denied c.now reply]
    exact h.releasing cause rest limit before hbefore

/-- When bodies return in time, flags go down in time. -/
theorem StepsDown.move (h : c.StepsDown d) (hc : Reachable c) (hmove : Move c c')
    (hprompt : c'.IsPrompt d) : c'.StepsDown d := by
  have hc' : Reachable c' := hc.move hmove
  cases hmove with
  | cancel =>
    -- what comes from outside lets no time pass and moves no stage
    have hcancel := Elector.cancel_eq c.elector
    refine h.stay rfl ?_ ?_ ?_ rfl
    · simp only [Course.follow, hcancel]
      rfl
    · simp only [Course.follow, hcancel]
      rfl
    · simp only [Course.follow, hcancel]
      rfl
  | endBody hbody => exact h.stay rfl rfl rfl rfl rfl
  | advance wall delay after notes hadvance => exact h.step hc (hc.coherent.step hadvance)
  | hear wall delay request reply hrequest => exact h.taken hc hrequest
  | pass t hle hcalm hdue =>
    refine ⟨fun hflag => ?_, fun cause rest limit surrender hstage => ?_⟩
    · -- time passes for a leader only while its body runs
      exact hc'.le_of_running hprompt (hc.coherent.body?_of_calm hflag hcalm)
    · have hstage : c.elector.stage = .releasing cause rest limit surrender := hstage
      refine ⟨hdue limit ?_, (h.releasing cause rest limit surrender hstage).2⟩
      simp [Elector.due, hstage]

end Course

namespace Seat

variable {ι : Type} {config : ElectionConfig ι} {now : Nat} {s : Seat}

/-- The flag of the candidate is up, and does not come down next. -/
def IsUp (s : Seat) : Prop :=
  s.candidate.elector.leading = true ∧ s.candidate.elector.isAnnouncing = false

/-- The flag of who has nothing urgent to do does not come down next. -/
theorem isUp_of_calm (hleading : s.candidate.elector.leading = true)
    (hcalm : s.candidate.elector.urgent = false) : s.IsUp :=
  ⟨hleading, Elector.isAnnouncing_of_calm hcalm⟩

/-- The lease of the last grant is still running for everybody else. -/
def IsCovered (config : ElectionConfig ι) (now : Nat) (s : Seat) : Prop :=
  ∃ g, s.chronicle.grant = some g ∧ now < Clock.after g.landed config.advertised

/-- The candidate holds no token any more, and the lease of its last grant has run
out. -/
def IsOverdue (config : ElectionConfig ι) (now : Nat) (s : Seat) : Prop :=
  s.candidate.elector.holdsToken = false
    ∧ ∃ g, s.chronicle.grant = some g ∧ Clock.after g.landed config.timing.lease ≤ now

end Seat

namespace Arena

variable {ι : Type} [DecidableEq ι] {config : ElectionConfig ι} {p : Arena ι → Prop}
  {a a' : Arena ι} {metrics : Metrics} {d : Duration} {i : ι}

/-- No body has run for more than a span after its token was cancelled. -/
def IsPrompt (d : Duration) (a : Arena ι) : Prop :=
  ∀ i, (a.seats i).chronicle.isBodyRunning = true →
    (a.seats i).candidate.elector.isRevoked = true →
      a.now ≤ Clock.after (a.seats i).chronicle.revoked d

omit [DecidableEq ι] in
/-- A candidate that was not started has no flag. -/
theorem stepsDown_of_fresh {now : Nat} {s : Seat} (h : s.IsFresh config i now) :
    (s.course now).StepsDown d := by
  obtain ⟨born, shutdown, -, helector, -⟩ := h
  constructor
  · intro hflag
    have hleading := hflag.leading
    simp only [Seat.course, helector] at hleading
    cases hleading
  · intro cause rest limit surrender hstage
    simp only [Seat.course, helector] at hstage
    cases hstage

/-- When bodies return in time all along a run, flags go down in time. -/
theorem Run.stepsDown (h : Run config p a metrics) (hprompt : ∀ b, p b → b.IsPrompt d) (i : ι) :
    ((a.seats i).course a.now).StepsDown d := by
  have hmove : ∀ {a a' : Arena ι}, Reachable config a → Move a a' → a'.IsPrompt d →
      ((a.seats i).course a.now).StepsDown d → ((a'.seats i).course a'.now).StepsDown d := by
    intro a a' hreach hmove hprompt ih
    rcases hmove.course i with hsame | hcourse | ⟨hidle, hsame⟩
    · rwa [hsame]
    · exact ih.move (hreach.fits i).reachable hcourse (hprompt i)
    · have hfits := (hreach.move hmove).fits i
      rw [hsame] at hfits ⊢
      exact stepsDown_of_fresh (hfits.fresh hidle)
  induction h with
  | start born records files now hborn hp =>
    exact stepsDown_of_fresh ((Reachable.start born records files now hborn).fits i |>.fresh rfl)
  | advance hrun i wall delay after store notes hrunning hadvance hp ih =>
    exact hmove hrun.reachable (.advance _ i wall delay after store notes hrunning hadvance)
      (hprompt _ hp) ih
  | outside hrun hm houtside hp ih => exact hmove hrun.reachable hm (hprompt _ hp) ih

/-- The lease of who says that it leads is running, or it holds no token any more. -/
theorem Reachable.isOverdue_or_isCovered (h : Reachable config a) {written : Nat}
    (hcustody : a.InCustody config written) {lease renew retry : Duration}
    (ht : Timing.check lease renew retry = .ok config.timing) (hlease : 1000000 ∣ lease.nanos)
    (hrenew : 1000000 ∣ renew.nanos) (hfits : lease.millis < 2 ^ 64)
    (hleading : (a.seats i).candidate.elector.leading = true) :
    (a.seats i).IsOverdue config a.now ∨ (a.seats i).IsCovered config a.now := by
  obtain ⟨htiming, -⟩ := Timing.check_ok ht
  have hcourse := (h.fits i).reachable
  obtain ⟨g, hgrant, hbegan⟩ := hcourse.exists_grant hleading
  by_cases hnow : a.now < Clock.after g.landed config.advertised
  · exact .inr ⟨g, hgrant, hnow⟩
  · have hadvertised : config.advertised = config.timing.lease :=
      ElectionConfig.advertised_eq (by rwa [htiming]) (by rwa [htiming])
    refine .inl ⟨?_, g, hgrant, by rw [← hadvertised]; exact Nat.le_of_not_lt hnow⟩
    cases htoken : (a.seats i).candidate.elector.holdsToken with
    | false => rfl
    | true =>
      -- a token is held up to the limit of the grant, which is within its lease
      obtain ⟨g', hgrant', -, hlimit⟩ := hcourse.le_limit htoken
      obtain rfl : g' = g := Option.some.inj (hgrant'.symm.trans hgrant)
      rw [show ((a.seats i).course a.now).elector.timing = config.timing from
        (hcustody.custody i).timing_eq] at hlimit
      have hwithin := ElectionConfig.after_limit_lt (d := .zero) ht hlease hrenew hfits
        (Timing.check_ok ht).2.1 hbegan ((hcustody.custody i).landed g' hgrant)
      exact absurd (hlimit.trans_lt (Nat.lt_of_le_of_lt (Nat.le_add_right _ _) hwithin)) hnow

/-- When bodies return in time, the lease of a flag whose candidate does not give the lock
up yet is running. -/
theorem Run.isCovered_of_isFlagged (h : Run config p a metrics) (hprompt : ∀ b, p b → b.IsPrompt d)
    {written : Nat} (hcustody : a.InCustody config written) {lease renew retry : Duration}
    (ht : Timing.check lease renew retry = .ok config.timing) (hlease : 1000000 ∣ lease.nanos)
    (hrenew : 1000000 ∣ renew.nanos) (hfits : lease.millis < 2 ^ 64) (hd : renew + d < lease)
    (hflag : (a.seats i).candidate.elector.IsFlagged) : (a.seats i).IsCovered config a.now := by
  obtain ⟨g, hgrant, hbegan⟩ := (h.reachable.fits i).reachable.exists_grant hflag.leading
  have hnow := (h.stepsDown hprompt i).flagged hflag g hgrant
  rw [show ((a.seats i).course a.now).elector.timing = config.timing from
    (hcustody.custody i).timing_eq] at hnow
  have hwithin := ElectionConfig.after_limit_lt ht hlease hrenew hfits hd hbegan
    ((hcustody.custody i).landed g hgrant)
  exact ⟨g, hgrant, Nat.lt_of_le_of_lt hnow hwithin⟩

/-- When bodies return in time, the lease of a flag that is up is running, as long as it
leaves a retry period for giving the lock up. -/
theorem Run.isCovered (h : Run config p a metrics) (hprompt : ∀ b, p b → b.IsPrompt d)
    {written : Nat} (hcustody : a.InCustody config written) {lease renew retry : Duration}
    (ht : Timing.check lease renew retry = .ok config.timing) (hlease : 1000000 ∣ lease.nanos)
    (hrenew : 1000000 ∣ renew.nanos) (hretry : 1000000 ∣ retry.nanos) (hspan : 1000000 ∣ d.nanos)
    (hfits : lease.millis < 2 ^ 64) (hd : renew + retry + d < lease)
    (hup : (a.seats i).IsUp) : (a.seats i).IsCovered config a.now := by
  obtain ⟨hleading, hsilent⟩ := hup
  obtain ⟨htiming, -⟩ := Timing.check_ok ht
  have hd : renew.nanos + retry.nanos + d.nanos < lease.nanos := hd
  by_cases hstays : ∀ cause rest limit surrender,
      (a.seats i).candidate.elector.stage ≠ .releasing cause rest limit surrender
  · refine h.isCovered_of_isFlagged hprompt hcustody ht hlease hrenew hfits ?_
      ⟨hleading, hsilent, hstays⟩
    show renew.nanos + d.nanos < lease.nanos
    omega
  · simp only [ne_eq, not_forall, not_not] at hstays
    obtain ⟨cause, rest, limit, surrender, hstage⟩ := hstays
    obtain ⟨g, hgrant, hbegan⟩ := (h.reachable.fits i).reachable.exists_grant hleading
    obtain ⟨hnow, hlimit⟩ := (h.stepsDown hprompt i).releasing cause rest limit surrender hstage
    have hlimit := hlimit g hgrant
    rw [show ((a.seats i).course a.now).elector.timing = config.timing from
      (hcustody.custody i).timing_eq, htiming] at hlimit
    have hlimit : limit ≤ g.limit config.timing + (d.nanos + retry.nanos) := by
      rw [htiming, ← Nat.add_assoc]
      exact hlimit
    -- all of these are whole milliseconds, so no timer rings later
    have hring := Clock.ring_mono hlimit
    rw [Clock.ring_of_dvd _ (Nat.dvd_add (g.dvd_limit _) (Nat.dvd_add hspan hretry))] at hring
    have hwithin : Clock.after (g.limit config.timing) (d + retry)
        < Clock.after g.landed config.advertised := by
      refine ElectionConfig.after_limit_lt ht hlease hrenew hfits ?_ hbegan
        ((hcustody.custody i).landed g hgrant)
      show renew.nanos + (d.nanos + retry.nanos) < lease.nanos
      omega
    exact ⟨g, hgrant, Nat.lt_of_le_of_lt (hnow.trans hring) hwithin⟩

/-- The gauges sum up to one at most exactly when at most one candidate says that it
leads. Of two candidates whose flags are up, one holds no token any more, and its lease
has run out since its last grant. As long as bodies return within a span after their
token was cancelled that fits between the renew deadline and the lease, there are no two
that do not give the lock up yet. When a retry period for giving it up fits in as well,
there are no two at all, and the gauges sum up to one at most whenever nobody has
anything urgent to do. -/
theorem Run.claimed_once (h : Run config p a metrics)
    (hinjective : Function.Injective config.identity) (hnonempty : ∀ i, config.identity i ≠ "")
    {lease renew retry : Duration} (ht : Timing.check lease renew retry = .ok config.timing)
    (hlease : 1000000 ∣ lease.nanos) (hrenew : 1000000 ∣ renew.nanos)
    (hfits : lease.millis < 2 ^ 64) :
    (metrics.leaderSum ≤ 1 ↔ ∀ i j, (a.seats i).candidate.elector.leading = true →
        (a.seats j).candidate.elector.leading = true → i = j)
      ∧ (∀ i j, (a.seats i).IsUp → (a.seats j).IsUp →
        i = j ∨ (a.seats i).IsOverdue config a.now ∨ (a.seats j).IsOverdue config a.now)
      ∧ ∀ d, (∀ b, p b → b.IsPrompt d) →
        (renew + d < lease → ∀ i j, (a.seats i).candidate.elector.IsFlagged →
          (a.seats j).candidate.elector.IsFlagged → i = j)
        ∧ (1000000 ∣ retry.nanos → 1000000 ∣ d.nanos → renew + retry + d < lease →
          (∀ i j, (a.seats i).IsUp → (a.seats j).IsUp → i = j)
          ∧ ((∀ i, (a.seats i).candidate.elector.urgent = false) → metrics.leaderSum ≤ 1)) := by
  obtain ⟨written, hkept⟩ := h.reachable.kept hinjective hnonempty
  have hsum := (h.gauged hinjective hnonempty).leaderSum_le_one hinjective
  -- the record in the store is that of whoever says that it leads within its lease
  have hone : ∀ i j, (a.seats i).IsUp → (a.seats j).IsUp → (a.seats i).IsCovered config a.now →
      (a.seats j).IsCovered config a.now → i = j := by
    rintro i j hi hj ⟨g, hgrant, hnow⟩ ⟨g', hgrant', hnow'⟩
    have hretains : ∀ k, (a.seats k).IsUp → (a.seats k).candidate.elector.Retains := fun k hk =>
      (h.reachable.fits k).reachable.coherent.retains hk.1 hk.2
    exact hkept.eq_of_retains hinjective (hretains i hi) (hretains j hj) hgrant hgrant' hnow hnow'
  refine ⟨hsum, fun i j hi hj => ?_, fun d hprompt => ⟨fun hd i j hi hj => ?_, ?_⟩⟩
  · have hover : ∀ k, (a.seats k).IsUp →
        (a.seats k).IsOverdue config a.now ∨ (a.seats k).IsCovered config a.now := fun k hk =>
      h.reachable.isOverdue_or_isCovered hkept.custody ht hlease hrenew hfits hk.1
    rcases hover i hi with hoverdue | hcovered
    · exact .inr (.inl hoverdue)
    · rcases hover j hj with hoverdue | hcovered'
      · exact .inr (.inr hoverdue)
      · exact .inl (hone i j hi hj hcovered hcovered')
  · have hcovered : ∀ k, (a.seats k).candidate.elector.IsFlagged →
        (a.seats k).IsCovered config a.now := fun k hk =>
      h.isCovered_of_isFlagged hprompt hkept.custody ht hlease hrenew hfits hd hk
    exact hone i j ⟨hi.leading, hi.silent⟩ ⟨hj.leading, hj.silent⟩ (hcovered i hi) (hcovered j hj)
  · intro hretry hspan hd
    have hcovered : ∀ k, (a.seats k).IsUp → (a.seats k).IsCovered config a.now := fun k hk =>
      h.isCovered hprompt hkept.custody ht hlease hrenew hretry hspan hfits hd hk
    have hup : ∀ i j, (a.seats i).IsUp → (a.seats j).IsUp → i = j := fun i j hi hj =>
      hone i j hi hj (hcovered i hi) (hcovered j hj)
    refine ⟨hup, fun hcalm => hsum.mpr fun i j hi hj => ?_⟩
    exact hup i j (Seat.isUp_of_calm hi (hcalm i)) (Seat.isUp_of_calm hj (hcalm j))

/-- Whether no body has run for more than a span after its token was cancelled. -/
def isPrompt (everyone : List ι) (d : Duration) (a : Arena ι) : Bool :=
  everyone.all fun i => !(a.seats i).chronicle.isBodyRunning
    || !(a.seats i).candidate.elector.isRevoked
    || decide (a.now ≤ Clock.after (a.seats i).chronicle.revoked d)

omit [DecidableEq ι] in
/-- The test that no body is late means what it says, when the list names every candidate. -/
theorem isPrompt_sound {everyone : List ι} (hall : ∀ i, i ∈ everyone)
    (h : a.isPrompt everyone d = true) : a.IsPrompt d := by
  intro i hruns hrevoked
  have htest := List.all_eq_true.mp h i (hall i)
  simpa [hruns, hrevoked] using htest

/-- What is played from the beginning, while bodies return within a span, is a run. -/
theorem Run.ofPlay {everyone : List ι} (hall : ∀ i, i ∈ everyone) {deeds : List (Deed ι)}
    (hplay : (initial config (fun _ => 0) .empty .empty 0).playWhile everyone (isPrompt everyone d)
      deeds = some a) : ∃ metrics, Run config (IsPrompt d) a metrics := by
  have hstart : IsPrompt d (initial config (fun _ => 0) .empty .empty 0) := by
    intro i hruns
    cases hruns
  exact Run.playWhile hall (fun b => isPrompt_sound hall)
    (.start _ _ _ _ (fun _ => Nat.le_refl 0) hstart) hplay

/-- The two candidates of `duel` with a lease that is longer than the renew deadline by
ten seconds. -/
def roomy : ElectionConfig Bool := { duel with timing := ⟨.ofSecs 20, .ofSecs 10, .ofSecs 5⟩ }

/-- The body returns four seconds after its token was cancelled, and the other candidate
takes the lock over six seconds later. -/
def relief : List (Deed Bool) :=
  lingering ++ .endBody true :: turns true 6 ++ .pass 15000000000 0 ⟨0⟩ :: turns false 3
    ++ .pass 19000000000 0 ⟨0⟩ :: turns true 2 ++ .pass 20000000000 0 ⟨0⟩ :: turns false 8

/-- In the run that this shows, the second flag goes up six seconds after the first has come down,
and the gauges never sum up to more than one. -/
theorem claimed_once_relief :
    ∃ a metrics, (initial roomy (fun _ => 0) .empty .empty 0).playWhile [true, false]
        (isPrompt [true, false] (.ofSecs 4)) relief = some a
      ∧ Run roomy (IsPrompt (.ofSecs 4)) a metrics
      ∧ (a.seats false).IsUp ∧ (∀ i, (a.seats i).IsUp → i = false) ∧ metrics.leaderSum ≤ 1 := by
  have hall : ∀ i, i ∈ [true, false] := by decide
  have hinjective : Function.Injective roomy.identity := by
    intro i j h
    revert i j
    decide
  have hscale : (Duration.ofSecs 5).scale Timing.jitterFactor = some (.ofSecs 6) := by
    decide +kernel
  have hcheck : Timing.check (.ofSecs 20) (.ofSecs 10) (.ofSecs 5) = .ok roomy.timing :=
    Timing.check_of_lt (by decide) (by decide) (by decide) hscale (by decide)
  -- the run is computed up to its end, where one flag is up and nothing is urgent
  have hrun : ((initial roomy (fun _ => 0) .empty .empty 0).playWhile [true, false]
      (isPrompt [true, false] (.ofSecs 4)) relief).any (fun a =>
        (a.seats false).candidate.elector.leading && [true, false].all fun i =>
          !(a.seats i).candidate.elector.urgent) = true := by decide +kernel
  obtain ⟨a, hplay, htest⟩ := (Option.any_eq_true _ _).mp hrun
  obtain ⟨hleads, htest⟩ := (Bool.and_eq_true _ _).mp htest
  have hcalm : ∀ i, (a.seats i).candidate.elector.urgent = false := fun i => by
    simpa using List.all_eq_true.mp htest i (hall i)
  have hup : (a.seats false).IsUp := Seat.isUp_of_calm hleads (hcalm false)
  obtain ⟨metrics, hrun⟩ := Run.ofPlay hall hplay
  obtain ⟨-, -, hprompt⟩ := hrun.claimed_once hinjective (by decide) hcheck (by decide) (by decide)
    (by decide)
  obtain ⟨hone, hsum⟩ :=
    (hprompt (.ofSecs 4) fun _ hb => hb).2 (by decide) (by decide) (by decide)
  exact ⟨a, metrics, hplay, hrun, hup, fun i hi => hone i false hi hup, hsum hcalm⟩

/-- The body of one candidate runs on until its lease has run out, and the other one
takes the lock over. -/
def overrun : List (Deed Bool) := lingering ++ .pass 15000000000 0 ⟨0⟩ :: turns false 8

/-- Two candidates say that they lead, and nobody has anything urgent to do. The body of
the first one has run on for as long as the lease is longer than the renew deadline. -/
theorem both_claim :
    Timing.check (.ofSecs 15) (.ofSecs 10) (.ofSecs 5) = .ok duel.timing
      ∧ Function.Injective duel.identity ∧ (∀ i, duel.identity i ≠ "")
      ∧ ∃ a metrics, Run duel (IsPrompt (.ofSecs 5)) a metrics
        ∧ (∀ i, (a.seats i).candidate.elector.urgent = false)
        ∧ (∀ i, (a.seats i).candidate.elector.leading = true) ∧ 1 < metrics.leaderSum := by
  have hall : ∀ i, i ∈ [true, false] := by decide
  have hinjective : Function.Injective duel.identity := by
    intro i j h
    revert i j
    decide
  have hnonempty : ∀ i, duel.identity i ≠ "" := by decide
  refine ⟨Course.check_brisk, hinjective, hnonempty, ?_⟩
  have hrun : ((initial duel (fun _ => 0) .empty .empty 0).playWhile [true, false]
      (isPrompt [true, false] (.ofSecs 5)) overrun).any (fun a => [true, false].all fun i =>
        !(a.seats i).candidate.elector.urgent && (a.seats i).candidate.elector.leading) = true := by
    decide +kernel
  obtain ⟨a, hplay, htest⟩ := (Option.any_eq_true _ _).mp hrun
  have hboth : ∀ i, (a.seats i).candidate.elector.urgent = false
      ∧ (a.seats i).candidate.elector.leading = true := fun i => by
    simpa using List.all_eq_true.mp htest i (hall i)
  obtain ⟨metrics, hrun⟩ := Run.ofPlay hall hplay
  refine ⟨a, metrics, hrun, fun i => (hboth i).1, fun i => (hboth i).2, ?_⟩
  -- a sum of one at most would leave one flag, and both are up
  refine Nat.lt_of_not_le fun hsum => ?_
  have hone := ((hrun.gauged hinjective hnonempty).leaderSum_le_one hinjective).mp hsum
  have hsame := hone true false (hboth true).2 (hboth false).2
  cases hsame

end Arena

end Tenure.Leader
