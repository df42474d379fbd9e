import Tenure.Proofs.Lease.Custody
import Tenure.Proofs.Leader.Arena
import Tenure.Proofs.Leader.Deadline

/-!
# `Tenure.Proofs.Leader.Custody`: who holds the record in the store

For a lease after its last grant a candidate that leads, or still has an episode,
is the holder of the record in the store, and that record was written when the
grant landed. `Custody` says this together with what every candidate knows of the
record; it is kept by whatever a candidate does, and by a write of another one as
long as that one could take the record.

* `Custody.advance`: a step of a candidate keeps its custody; when it writes, it
  could take what was there.
* `Arena.Reachable.inCustody`: among candidates with different identities every one
  is in custody at every time.
-/

set_option autoImplicit false

namespace Tenure.Leader

open Lease Store

namespace Elector

/-- The attempt to take or renew the lease that is under way. -/
def attempt? (e : Elector) : Option Attempt :=
  match e.stage with
  | .competing _ attempt | .renewing _ _ attempt => some attempt
  | _ => none

/-- The attempt to give the lock up that is under way. -/
def surrender? (e : Elector) : Option Surrender :=
  match e.stage with
  | .releasing _ _ _ surrender => some surrender
  | _ => none

variable {e e' : Elector} {now : Moment} {delay : Duration} {reply : Reply} {notes : List Note}

/-- What happens from outside gives no elector a claim that it did not have. -/
theorem isClaiming_of_outside {shutdown : Bool} {f : Episode → Episode}
    (h : (e.outside shutdown f).IsClaiming) : e.IsClaiming := by
  rcases h with hphase | hepisode
  · exact .inl hphase
  · refine .inr fun hnone => hepisode ?_
    simp [outside, hnone]

/-- What an elector does by itself begins attempts, but goes on with none. -/
structure Alone (e e' : Elector) : Prop where
  client_eq : e'.client = e.client
  timing_eq : e'.timing = e.timing
  looking : ∀ attempt ∈ e'.attempt?, ∃ wall, attempt = .looking wall
  leaving : ∀ surrender ∈ e'.surrender?, surrender = .looking
  claiming : e'.IsClaiming → e.IsClaiming

/-- An elector by itself goes on with no attempt: what is under way afterwards has just begun. -/
theorem Step.alone (h : Step now delay e e' notes) : Alone e e' := by
  refine ⟨h.client_eq, h.timing_eq, ?_, ?_, ?_⟩
  · intro attempt hattempt
    -- only competing and renewing begin an attempt, and both begin by looking
    cases h with
    | compete _ _ _ | renew _ _ _ _ =>
      cases hattempt
      exact ⟨_, rfl⟩
    | withdraw _ _ _ _ | backOff _ _ _ | giveUp _ _ _ | rest _ _ _ | lose _ _ _ _
    | relinquish _ _ _ _ | resume _ _ _ | finish _ _ _ _ | settle _ _ | start _ _ _ | exit _ _ _ _
    | revoke _ _ _ _ _ _ | dismiss _ _ _ _ _ _ | release _ _ _ | abandon _ _ _
    | announce _ _ _ => cases hattempt
  · intro surrender hsurrender
    -- only the release begins to give the lock up
    cases h with
    | release _ _ _ =>
      cases hsurrender
      rfl
    | withdraw _ _ _ _ | backOff _ _ _ | giveUp _ _ _ | rest _ _ _ | lose _ _ _ _
    | relinquish _ _ _ _ | resume _ _ _ | finish _ _ _ _ | settle _ _ | start _ _ _ | exit _ _ _ _
    | revoke _ _ _ _ _ _ | dismiss _ _ _ _ _ _ | compete _ _ _ | renew _ _ _ _ | abandon _ _ _
    | announce _ _ _ => cases hsurrender
  · -- leadership begins with a reply only, so what claims now has claimed before
    intro hclaim
    cases h with
    | lose _ _ hphase _ => exact .inl hphase
    | relinquish _ _ hphase _ => exact .inl hphase
    | start _ hphase _ => exact .inl hphase
    | revoke _ hepisode _ _ _ _ => exact .inr (by simp [hepisode])
    | dismiss _ hepisode _ _ _ _ => exact .inr (by simp [hepisode])
    | withdraw _ _ _ hidle => exact absurd hclaim (not_isClaiming (by simp) hidle.1)
    | resume _ _ hidle => exact absurd hclaim (not_isClaiming (by simp) hidle.1)
    | backOff _ _ _ | compete _ _ _ | giveUp _ _ _ | rest _ _ _ | renew _ _ _ _ | finish _ _ _ _
    | settle _ _ | exit _ _ _ _ | release _ _ _ | abandon _ _ _ | announce _ _ _ => exact hclaim

/-- What an elector does with the reply to the call of an attempt. -/
structure Heard (e e' : Elector) (now : Nat) (reply : Reply) (attempt : Attempt)
    (next : Next Attempt Outcome) : Prop where
  attempt_eq : e.attempt? = some attempt
  answer_eq : e.client.answer attempt now reply = (e'.client, next)
  timing_eq : e'.timing = e.timing
  asks : ∀ attempt' ∈ e'.attempt?, next = .ask attempt'
  surrender_eq : e'.surrender? = none
  /-- The elector has the lease, or goes on claiming what it claimed before. -/
  claiming : e'.IsClaiming → e.isGrantedBy now reply = true ∨ e.IsClaiming

/-- What an elector does with the reply to the call that giving up has out. -/
structure HeardOut (e e' : Elector) (now : Moment) (reply : Reply) (surrender : Surrender)
    (next : Next Surrender Bool) : Prop where
  surrender_eq : e.surrender? = some surrender
  answer_eq : e.client.answerRelease surrender now reply = (e'.client, next)
  timing_eq : e'.timing = e.timing
  asks : ∀ surrender' ∈ e'.surrender?, next = .ask surrender'
  attempt_eq : e'.attempt? = none
  denied : e.isGrantedBy now.instant reply = false
  idle : ¬ e'.IsClaiming

/-- Whatever an elector does with a reply is one of the two. -/
theorem Taken.heard (h : Taken now delay reply e e' notes) :
    (∃ attempt next, Heard e e' now.instant reply attempt next)
      ∨ ∃ surrender next, HeardOut e e' now reply surrender next := by
  -- the first seven replies are to an attempt, the last two to giving up
  cases h with
  | @ask started attempt next client hstage hreply hphase hidle =>
    refine .inl ⟨attempt, _, by simp [attempt?, hstage], hreply, rfl, ?_, rfl, .inr⟩
    intro attempt' hattempt
    cases hattempt
    rfl
  | @win started attempt client outcome holder _ hstage hreply hgranted hphase hidle hquiet =>
    refine .inl ⟨attempt, _, by simp [attempt?, hstage], hreply, rfl, ?_, rfl, fun _ => .inl ?_⟩
    · intro attempt' hattempt
      cases hattempt
    · simp [isGrantedBy, hstage, hreply, hgranted]
  | @miss started attempt client result holder _ hstage hreply hdenied hphase hidle hquiet =>
    refine .inl ⟨attempt, _, by simp [attempt?, hstage], hreply, rfl, ?_, rfl, .inr⟩
    intro attempt' hattempt
    cases hattempt
  | @askAgain deadline started attempt next client hstage hreply hphase hoffice =>
    refine .inl ⟨attempt, _, by simp [attempt?, hstage], hreply, rfl, ?_, rfl, .inr⟩
    intro attempt' hattempt
    cases hattempt
    rfl
  | @keep deadline started attempt client outcome holder _ hstage hreply hgranted hphase =>
    refine .inl ⟨attempt, _, by simp [attempt?, hstage], hreply, rfl, ?_, rfl, .inr⟩
    intro attempt' hattempt
    cases hattempt
  | @lose deadline started attempt client outcome holder _ hstage hreply hdenied hphase =>
    refine .inl ⟨attempt, _, by simp [attempt?, hstage], hreply, rfl, ?_, rfl, fun _ => .inr ?_⟩
    · intro attempt' hattempt
      cases hattempt
    · exact .inl hphase
  | @fail deadline started attempt client error hstage hreply hphase hoffice =>
    refine .inl ⟨attempt, _, by simp [attempt?, hstage], hreply, rfl, ?_, rfl, .inr⟩
    intro attempt' hattempt
    cases hattempt
  | @vacate cause limit surrender next client hstage hreply hout hleaving =>
    refine .inr ⟨surrender, _, by simp [surrender?, hstage], hreply, rfl, ?_, rfl, ?_, ?_⟩
    · intro surrender' hsurrender
      cases hsurrender
      rfl
    · simp [isGrantedBy, hstage]
    · exact not_isClaiming hout.ne_leading hleaving.1
  | @leave cause limit surrender client result hstage hreply hout hleaving =>
    refine .inr ⟨surrender, _, by simp [surrender?, hstage], hreply, rfl, ?_, rfl, ?_, ?_⟩
    · intro surrender' hsurrender
      cases hsurrender
    · simp [isGrantedBy, hstage]
    · exact not_isClaiming hout.ne_leading hleaving.1

/-- A call that is out is that of an attempt. -/
theorem request_of_attempt {attempt : Attempt} {request : Request}
    (hrequest : e.request? = some request) (h : e.attempt? = some attempt) :
    request = attempt.request := by
  unfold request? at hrequest
  unfold attempt? at h
  split at hrequest
  · cases hrequest
  · split at h
    · rename_i hstage
      cases h
      simp only [hstage, Option.some.injEq] at hrequest
      exact hrequest.symm
    · rename_i hstage
      cases h
      simp only [hstage, Option.some.injEq] at hrequest
      exact hrequest.symm
    · cases h

/-- While the lock is given up, the call that is out is the one of giving it up. -/
theorem request_of_surrender {surrender : Surrender} {request : Request}
    (hrequest : e.request? = some request) (h : e.surrender? = some surrender) :
    request = surrender.request := by
  unfold request? at hrequest
  unfold surrender? at h
  split at hrequest
  · cases hrequest
  · split at h
    · rename_i hstage
      cases h
      simp only [hstage, Option.some.injEq] at hrequest
      exact hrequest.symm
    · cases h

/-- A reply is a grant if it is one to the attempt that is waiting for it. -/
theorem isGrantedBy_eq {now : Nat} {attempt : Attempt} (h : e.attempt? = some attempt) :
    e.isGrantedBy now reply = isGrant (e.client.answer attempt now reply).2 := by
  unfold attempt? at h
  unfold isGrantedBy
  cases hstage : e.stage with
  | competing since waiting | renewing since due waiting =>
    rw [hstage] at h
    cases h
    rfl
  | _ =>
    rw [hstage] at h
    cases h

end Elector

/-- The lease that the records of candidates tell others. -/
def ElectionConfig.advertised {ι : Type} (config : ElectionConfig ι) : Duration :=
  .ofMillis (config.timing.lease.millis % 2 ^ 64)

/-- The record in the store, written at an instant, is that of a candidate's grant. -/
def ElectionConfig.Owns {ι : Type} (config : ElectionConfig ι) (i : ι)
    (current : Option (Versioned Record)) (written : Nat) (g : Grant) : Prop :=
  ∃ latest, current = some latest ∧ latest.value.holder = config.identity i
    ∧ latest.value.lease = config.advertised ∧ written = g.landed

/-- What a candidate has to do with the record in the store, which was written at
an instant. -/
structure Custody {ι : Type} (config : ElectionConfig ι) (i : ι)
    (current : Option (Versioned Record)) (written now : Nat) (s : Seat) : Prop where
  key_eq : s.candidate.elector.client.key = config.key
  identity_eq : s.candidate.elector.client.identity = config.identity i
  lease_eq : s.candidate.elector.client.lease = config.timing.lease
  timing_eq : s.candidate.elector.timing = config.timing
  faults : s.candidate.link.OnlyFails
  /-- No call on its way is late. -/
  transit : ∀ transit ∈ s.candidate.transit, ∀ due ∈ transit.due, now ≤ Clock.ring due
  aware : s.candidate.elector.client.Aware current written
  claim : ∀ attempt ∈ s.candidate.elector.attempt?,
    s.candidate.elector.client.MayClaim current written now attempt
  vacate : ∀ surrender ∈ s.candidate.elector.surrender?,
    s.candidate.elector.client.MayVacate current surrender
  /-- Calls are answered at the end of a millisecond. -/
  landed : ∀ g ∈ s.chronicle.grant, 1000000 ∣ g.landed
  /-- For a lease after the last grant the record is the candidate's. -/
  hold : s.candidate.elector.IsClaiming → ∀ g ∈ s.chronicle.grant,
    now < Clock.after g.landed config.advertised →
      ∃ latest, current = some latest ∧ latest.value.holder = config.identity i
        ∧ latest.value.lease = config.advertised ∧ written = g.landed

namespace Custody

variable {ι : Type} {config : ElectionConfig ι} {i : ι}
  {current current' : Option (Versioned Record)} {written now : Nat} {s s' : Seat}

/-- What happens from outside leaves a candidate in custody. -/
theorem stay (h : Custody config i current written now s)
    (hclient : s'.candidate.elector.client = s.candidate.elector.client)
    (htiming : s'.candidate.elector.timing = s.candidate.elector.timing)
    (hstage : s'.candidate.elector.stage = s.candidate.elector.stage)
    (hclaiming : s'.candidate.elector.IsClaiming → s.candidate.elector.IsClaiming)
    (hfaults : s'.candidate.link.OnlyFails)
    (htransit : s'.candidate.transit = s.candidate.transit)
    (hgrant : s'.chronicle.grant = s.chronicle.grant) :
    Custody config i current written now s' where
  key_eq := by rw [hclient, h.key_eq]
  identity_eq := by rw [hclient, h.identity_eq]
  lease_eq := by rw [hclient, h.lease_eq]
  timing_eq := by rw [htiming, h.timing_eq]
  faults := hfaults
  transit := by
    rw [htransit]
    exact h.transit
  aware := by
    rw [hclient]
    exact h.aware
  -- what is under way shows in the stage, and that is the same
  claim := by
    rw [hclient, show s'.candidate.elector.attempt? = s.candidate.elector.attempt? by
      simp only [Elector.attempt?, hstage]]
    exact h.claim
  vacate := by
    rw [hclient, show s'.candidate.elector.surrender? = s.candidate.elector.surrender? by
      simp only [Elector.surrender?, hstage]]
    exact h.vacate
  landed := by
    rw [hgrant]
    exact h.landed
  hold hclaim := by
    rw [hgrant]
    exact h.hold (hclaiming hclaim)

/-- A candidate that starts is in the custody that it was in. -/
theorem start (h : Custody config i current written now s) :
    Custody config i current written now { s with running := true } :=
  h.stay rfl rfl rfl id h.faults rfl rfl

/-- Being told to shut down changes nothing about custody. -/
theorem cancel (h : Custody config i current written now s) :
    Custody config i current written now (s.cancel now) := by
  have hcancel := Elector.cancel_eq s.candidate.elector
  refine h.stay ?_ ?_ ?_ ?_ h.faults rfl rfl
  · simp only [Seat.cancel, Seat.follow, hcancel]
    rfl
  · simp only [Seat.cancel, Seat.follow, hcancel]
    rfl
  · simp only [Seat.cancel, Seat.follow, hcancel]
    rfl
  · simp only [Seat.cancel, Seat.follow, hcancel]
    exact Elector.isClaiming_of_outside

/-- The end of a body changes nothing about custody. -/
theorem endBody (h : Custody config i current written now s) :
    Custody config i current written now s.endBody :=
  h.stay rfl rfl rfl Elector.isClaiming_of_outside h.faults rfl rfl

/-- A link that only fails changes nothing about custody. -/
theorem relink (h : Custody config i current written now s) {f : Link → Link}
    (hf : (f s.candidate.link).OnlyFails) : Custody config i current written now (s.relink f) :=
  h.stay rfl rfl rfl id hf rfl rfl

/-- Time that passes leaves a candidate in custody. -/
theorem pass (h : Custody config i current written now s) {t : Nat} (hle : now ≤ t)
    (hdue : ∀ transit ∈ s.candidate.transit, ∀ due ∈ transit.due, t ≤ Clock.ring due) :
    Custody config i current written t s :=
  { h with
    transit := hdue
    claim := fun attempt hattempt => (h.claim attempt hattempt).mono hle
    hold := fun hclaim g hg hnow => h.hold hclaim g hg (Nat.lt_of_le_of_lt hle hnow) }

/-- Someone else's write leaves a candidate in custody that does not hold the
record. -/
theorem succeeds (h : Custody config i current written now s) (hs : Succeeds current current')
    (hfree : s.candidate.elector.IsClaiming → ∀ g ∈ s.chronicle.grant,
      ¬ now < Clock.after g.landed config.advertised) :
    Custody config i current' now now s :=
  { h with
    aware := h.aware.succeeds hs now
    claim := fun attempt hattempt => (h.claim attempt hattempt).succeeds hs now
    vacate := fun surrender hsurrender => (h.vacate surrender hsurrender).succeeds hs
    hold := fun hclaim g hg hnow => absurd hnow (hfree hclaim g hg) }

/-- A call that is sent off is not late. -/
theorem le_ring_send (l : Link) (now : Nat) : ∀ due ∈ (l.send now).due, now ≤ Clock.ring due := by
  intro due hdue
  unfold Link.send at hdue
  split at hdue
  · cases hdue
    exact Clock.le_ring now
  · rename_i delay _
    cases hdue
    exact Nat.le_trans (Nat.le_add_right now delay.nanos) (Clock.le_ring _)
  · cases hdue
    exact Clock.le_ring now
  · cases hdue

/-- A call that has arrived and is not late is answered at the end of a
millisecond. -/
theorem dvd_of_arrived {transit : Transit} (h : ∀ due ∈ transit.due, now ≤ Clock.ring due)
    (harrived : Candidate.hasArrived transit now = true) : 1000000 ∣ now := by
  obtain ⟨due, hdue, hreached⟩ : ∃ due ∈ transit.due, Clock.reached due now = true := by
    simpa [Candidate.hasArrived, Option.any_eq_true] using harrived
  have hring : Clock.ring due ≤ now := by simpa [Clock.reached] using hreached
  have hnow : now = Clock.ring due := Nat.le_antisymm (h due hdue) hring
  -- timers ring on whole milliseconds
  rw [hnow]
  exact Nat.dvd_mul_left _ _

/-- An attempt that looks the record up claims nothing yet. -/
theorem mayClaim_looking {c : Client} (wall : Nat) :
    c.MayClaim current written now (.looking wall) := by
  refine ⟨fun desired hdesired => ?_, fun base desired heq => ?_⟩
  · cases hdesired
  · cases heq

/-- What a candidate does by itself leaves it in custody. -/
theorem act (h : Custody config i current written now s) {elector : Elector} {notes : List Note}
    (halone : s.candidate.elector.Alone elector) :
    Custody config i current written now
      (s.follow now ⟨elector, s.candidate.link, none⟩ notes none) where
  key_eq := halone.client_eq ▸ h.key_eq
  identity_eq := halone.client_eq ▸ h.identity_eq
  lease_eq := halone.client_eq ▸ h.lease_eq
  timing_eq := halone.timing_eq.trans h.timing_eq
  faults := h.faults
  -- a step of its own drops the call that was out
  transit := fun transit htransit => by cases htransit
  aware := by
    simp only [Seat.follow, halone.client_eq]
    exact h.aware
  claim attempt hattempt := by
    obtain ⟨wall, rfl⟩ := halone.looking attempt hattempt
    exact mayClaim_looking wall
  vacate surrender hsurrender := by
    intro base released heq
    have hlooking := halone.leaving surrender hsurrender
    rw [heq] at hlooking
    cases hlooking
  landed := h.landed
  hold hclaim := h.hold (halone.claiming hclaim)

section Hear

variable {e' : Elector} {link : Link} {notes : List Note} {reply : Reply}

/-- A reply that writes nothing leaves a candidate in custody. -/
theorem hear_unwritten (h : Custody config i current written now s) {attempt : Attempt}
    {next : Next Attempt Outcome} (hheard : s.candidate.elector.Heard e' now reply attempt next)
    (hlink : link.OnlyFails) (hsame : s.candidate.elector.client.IsSame e'.client)
    (hu : Client.Unwritten current current' written now e'.client next) :
    Custody config i current written now (s.follow now ⟨e', link, none⟩ notes (some reply)) := by
  -- without a write there is no grant, so the chronicle keeps the last one
  have hdenied : s.candidate.elector.isGrantedBy now reply = false := by
    rw [Elector.isGrantedBy_eq hheard.attempt_eq, hheard.answer_eq]
    unfold Elector.isGrant
    split
    · rename_i outcome heq
      exact hu.denied outcome heq
    · rfl
  have hgrant : (s.follow now ⟨e', link, none⟩ notes (some reply)).chronicle.grant
      = s.chronicle.grant := by
    simp [Seat.follow, Chronicle.hear, Chronicle.follow, hdenied]
  constructor
  · exact hsame.key_eq.trans h.key_eq
  · exact hsame.identity_eq.trans h.identity_eq
  · exact hsame.lease_eq.trans h.lease_eq
  · exact hheard.timing_eq.trans h.timing_eq
  · exact hlink
  · intro transit htransit
    cases htransit
  · exact hu.aware
  · intro attempt' hattempt
    exact hu.asks attempt' (hheard.asks attempt' hattempt)
  · intro surrender hsurrender
    have hsurrender : e'.surrender? = some surrender := hsurrender
    rw [hheard.surrender_eq] at hsurrender
    cases hsurrender
  · rw [hgrant]
    exact h.landed
  · intro hclaim
    rw [hgrant]
    refine h.hold ((hheard.claiming hclaim).resolve_left ?_)
    simp [hdenied]

/-- A candidate whose record was written now holds it. -/
theorem hear_overwritten (h : Custody config i current written now s) {attempt : Attempt}
    {next : Next Attempt Outcome} (hheard : s.candidate.elector.Heard e' now reply attempt next)
    (hlink : link.OnlyFails) (hsame : s.candidate.elector.client.IsSame e'.client)
    (hnow : 1000000 ∣ now)
    (ho : Client.Overwritten current current' written now s.candidate.elector.client e'.client
      next) :
    Custody config i current' now now (s.follow now ⟨e', link, none⟩ notes (some reply)) := by
  obtain ⟨outcome, hnext, hgranted⟩ := ho.granted
  obtain ⟨latest, hlatest, hholder, hlease⟩ := ho.own
  -- the write has landed, so this reply grants the lease, and the grant is of now
  have hgrantedBy : s.candidate.elector.isGrantedBy now reply = true := by
    rw [Elector.isGrantedBy_eq hheard.attempt_eq, hheard.answer_eq, hnext]
    exact hgranted
  have hgrant : ∀ g ∈ (s.follow now ⟨e', link, none⟩ notes (some reply)).chronicle.grant,
      g.landed = now := by
    intro g hg
    simp only [Seat.follow, Chronicle.hear, Chronicle.follow, hgrantedBy, if_true] at hg
    cases hg
    rfl
  constructor
  · exact hsame.key_eq.trans h.key_eq
  · exact hsame.identity_eq.trans h.identity_eq
  · exact hsame.lease_eq.trans h.lease_eq
  · exact hheard.timing_eq.trans h.timing_eq
  · exact hlink
  · intro transit htransit
    cases htransit
  · exact ho.aware
  · -- an attempt that was granted asks for nothing else
    intro attempt' hattempt
    have hasks := hheard.asks attempt' hattempt
    rw [hnext] at hasks
    cases hasks
  · intro surrender hsurrender
    have hsurrender : e'.surrender? = some surrender := hsurrender
    rw [hheard.surrender_eq] at hsurrender
    cases hsurrender
  · intro g hg
    rw [hgrant g hg]
    exact hnow
  · -- the record that was written is the candidate's own, and was written now
    intro _ g hg _
    refine ⟨latest, hlatest, hholder.trans h.identity_eq, ?_, (hgrant g hg).symm⟩
    rw [lease_of_leaseMillis hlease, h.lease_eq]
    rfl

/-- A candidate that gives the lock up, or has tried to, claims nothing. -/
theorem hear_out (h : Custody config i current written now s) {wall : Nat} {surrender : Surrender}
    {next : Next Surrender Bool} {written' : Nat}
    (hheard : s.candidate.elector.HeardOut e' ⟨now, wall⟩ reply surrender next)
    (hlink : link.OnlyFails) (hsame : s.candidate.elector.client.IsSame e'.client)
    (haware : e'.client.Aware current' written')
    (hasks : ∀ surrender', next = .ask surrender' → e'.client.MayVacate current' surrender') :
    Custody config i current' written' now (s.follow now ⟨e', link, none⟩ notes (some reply)) := by
  constructor
  · exact hsame.key_eq.trans h.key_eq
  · exact hsame.identity_eq.trans h.identity_eq
  · exact hsame.lease_eq.trans h.lease_eq
  · exact hheard.timing_eq.trans h.timing_eq
  · exact hlink
  · intro transit htransit
    cases htransit
  · exact haware
  · intro attempt hattempt
    have hattempt : e'.attempt? = some attempt := hattempt
    rw [hheard.attempt_eq] at hattempt
    cases hattempt
  · intro surrender' hsurrender
    exact hasks surrender' (hheard.asks surrender' hsurrender)
  · -- giving up grants nothing, so the last grant is the one that it was
    have hdenied : s.candidate.elector.isGrantedBy now reply = false := hheard.denied
    simpa [Seat.follow, Chronicle.hear, Chronicle.follow, hdenied] using h.landed
  · intro hclaim
    exact absurd hclaim hheard.idle

end Hear

/-- A call of a candidate is served like any other. -/
theorem deliver_served {c : Candidate} {store : Shared} (hl : c.link.OnlyFails)
    (hs : store.IsMemory) (request : Request) (transit : Transit) :
    (c.deliver request transit store).1.OnlyFails
      ∧ (c.deliver request transit store).2.1.IsMemory
      ∧ Served (store.record? c.elector.client.key) request
        ((c.deliver request transit store).2.1.record? c.elector.client.key)
        (c.deliver request transit store).2.2 := by
  unfold Candidate.deliver
  split
  · exact ⟨hl, hs, .failed _⟩
  · exact Link.deliver_served hl hs _ request

/-- A step of a candidate leaves it in custody. When it writes, it could take
what was there. -/
theorem advance (h : Custody config i current written now s) {store store' : Shared} {wall : Nat}
    {delay : Duration} {after : Candidate} {notes : List Note} {reply : Option Reply}
    (hmemory : store.IsMemory) (hcurrent : store.record? config.key = current)
    (hwritten : written ≤ now) (hcoherent : s.candidate.elector.Coherent)
    (hadvance : s.candidate.Advance store ⟨now, wall⟩ delay after store' notes reply) :
    store'.IsMemory ∧ (store'.record? config.key = current
        ∧ Custody config i current written now (s.follow now after notes reply)
      ∨ Succeeds current (store'.record? config.key)
        ∧ Custody config i (store'.record? config.key) now now (s.follow now after notes reply)
        ∧ ∀ base, current = some base →
          s.candidate.elector.client.CanTake written now base.value) := by
  cases hadvance with
  | send hrequest htransit =>
    -- a call that is sent off has no effect yet
    have hsame : Custody config i current written now (s.follow now s.candidate [] none) :=
      h.stay rfl rfl rfl id h.faults rfl rfl
    refine ⟨hmemory, .inl ⟨hcurrent, { hsame with transit := ?_ }⟩⟩
    intro transit hsent
    cases hsent
    exact le_ring_send s.candidate.link now
  | act hadvance => exact ⟨hmemory, .inl ⟨hcurrent, h.act (hcoherent.step hadvance).alone⟩⟩
  | @receive request transit link _ reply hrequest htransit harrived hdeliver =>
    have hserved := deliver_served h.faults hmemory request transit
    rw [hdeliver, h.key_eq, hcurrent] at hserved
    obtain ⟨hlink, hmemory', hserved⟩ := hserved
    refine ⟨hmemory', ?_⟩
    have hnow : 1000000 ∣ now := dvd_of_arrived (h.transit transit htransit) harrived
    have htaken : s.candidate.elector.Taken ⟨now, wall⟩ delay reply _ _ := hcoherent.taken hrequest
    rcases htaken.heard with ⟨attempt, next, hheard⟩ | ⟨surrender, next, hheard⟩
    · -- the candidate tries to take or to renew the lease
      have hanswered := s.candidate.elector.client.answered attempt now reply
      rw [hheard.answer_eq] at hanswered
      obtain rfl := Elector.request_of_attempt hrequest hheard.attempt_eq
      have hclaim := h.claim attempt hheard.attempt_eq
      rcases hanswered.served hserved h.aware hclaim hwritten with hu | ho
      · exact .inl ⟨hu.same, h.hear_unwritten hheard hlink hanswered.isSame hu⟩
      · exact .inr ⟨ho.succeeds, h.hear_overwritten hheard hlink hanswered.isSame hnow ho,
          ho.canTake⟩
    · -- the candidate gives the lock up, which it does only with its own record
      have hanswered := s.candidate.elector.client.answeredRelease surrender ⟨now, wall⟩ reply
      rw [hheard.answer_eq] at hanswered
      obtain rfl := Elector.request_of_surrender hrequest hheard.surrender_eq
      have hvacate := h.vacate surrender hheard.surrender_eq
      rcases hanswered.served hserved hvacate with
        ⟨hsame, hclient, hasks⟩ | ⟨hsucceeds, haware, hend, base, hbase, hown⟩
      · have hclient : (s.candidate.elector.answer ⟨now, wall⟩ delay reply).1.client
            = s.candidate.elector.client := hclient
        refine .inl ⟨hsame, h.hear_out hheard hlink hanswered.isSame ?_ ?_⟩
        · rw [hclient]
          exact h.aware
        · rw [hclient]
          exact hasks
      · refine .inr ⟨hsucceeds, ?_, ?_⟩
        · exact h.hear_out hheard hlink hanswered.isSame haware
            (fun surrender' hask => absurd hask (hend surrender'))
        · intro base' hbase' _
          obtain rfl : base = base' := Option.some.inj (hbase.symm.trans hbase')
          exact .inl hown

end Custody

namespace Arena

variable {ι : Type} {config : ElectionConfig ι} {a : Arena ι}

/-- Every candidate is in custody of the record in the store. -/
structure InCustody (config : ElectionConfig ι) (a : Arena ι) (written : Nat) : Prop where
  memory : a.store.IsMemory
  written_le : written ≤ a.now
  custody : ∀ i, Custody config i (a.store.record? config.key) written a.now (a.seats i)

/-- Candidates that have not started are in custody of whatever record there is. -/
theorem custody_initial (config : ElectionConfig ι) (born : ι → Nat) (records : Memory)
    (files : FileTree) (now : Nat) :
    (initial config born records files now).InCustody config now := by
  -- nothing is out, observed or granted, so there is nothing to be in custody of
  refine ⟨⟨records, rfl⟩, Nat.le_refl now, fun i => ?_⟩
  constructor
  · rfl
  · rfl
  · rfl
  · rfl
  · intro fault hmem
    cases hmem
  · intro transit htransit
    cases htransit
  · intro o ho
    cases ho
  · intro attempt hattempt
    cases hattempt
  · intro surrender hsurrender
    cases hsurrender
  · intro g hg
    cases hg
  · intro _ g hg
    cases hg

/-- A candidate changes without a write. -/
theorem InCustody.put [DecidableEq ι] {written : Nat} (h : a.InCustody config written) {i : ι}
    {seat : Seat} (hseat : Custody config i (a.store.record? config.key) written a.now seat) :
    (a.put i seat).InCustody config written :=
  ⟨h.memory, h.written_le, put_forall hseat fun j _ => h.custody j⟩

/-- A candidate that could take the record finds no other one's lease running. -/
theorem InCustody.not_owned {written : Nat} (h : a.InCustody config written)
    (hinjective : Function.Injective config.identity) (hnonempty : ∀ i, config.identity i ≠ "")
    {i j : ι} (hne : j ≠ i)
    (htake : ∀ base, a.store.record? config.key = some base →
      (a.seats i).candidate.elector.client.CanTake written a.now base.value)
    {g : Grant} (howns : config.Owns j (a.store.record? config.key) written g) :
    ¬ a.now < Clock.after g.landed config.advertised := by
  intro hnow
  obtain ⟨latest, hlatest, hholder, hlease, hwritten⟩ := howns
  have hheld : latest.value.isHeld = true := by
    simp [Record.isHeld, hholder, hnonempty j]
  rcases htake latest hlatest hheld with hown | hexpired
  · -- the record names one of them only
    have hown : latest.value.holder = config.identity i := by
      simpa [Record.isHeldBy, (h.custody i).identity_eq] using hown
    exact hne (hinjective (hholder.symm.trans hown))
  · rw [hlease, hwritten] at hexpired
    exact absurd hexpired (Nat.not_le_of_lt hnow)

/-- A candidate that could take the record is not the one that holds it, unless it
is the same. -/
theorem InCustody.not_held {written : Nat} (h : a.InCustody config written)
    (hinjective : Function.Injective config.identity) (hnonempty : ∀ i, config.identity i ≠ "")
    {i j : ι} (hne : j ≠ i)
    (htake : ∀ base, a.store.record? config.key = some base →
      (a.seats i).candidate.elector.client.CanTake written a.now base.value)
    (hclaim : (a.seats j).candidate.elector.IsClaiming) :
    ∀ g ∈ (a.seats j).chronicle.grant, ¬ a.now < Clock.after g.landed config.advertised :=
  fun g hg hnow =>
    h.not_owned hinjective hnonempty hne htake ((h.custody j).hold hclaim g hg hnow) hnow

/-- Whatever one candidate does keeps all of them in custody: the record it leaves is its own or
the one that was there. -/
theorem InCustody.advance [DecidableEq ι] {written wall : Nat} (h : a.InCustody config written)
    (hinjective : Function.Injective config.identity) (hnonempty : ∀ i, config.identity i ≠ "")
    {i : ι} {delay : Duration} {after : Candidate} {store : Shared} {notes : List Note}
    {reply : Option Reply} (hcoherent : (a.seats i).candidate.elector.Coherent)
    (hadvance : (a.seats i).candidate.Advance a.store ⟨a.now, wall⟩ delay after store notes reply) :
    ∃ written', Arena.InCustody config
      { a.put i ((a.seats i).follow a.now after notes reply) with store := store } written' := by
  obtain ⟨hmemory, hwrite⟩ :=
    (h.custody i).advance h.memory rfl h.written_le hcoherent hadvance
  rcases hwrite with ⟨hsame, hseat⟩ | ⟨hsucceeds, hseat, htake⟩
  · -- nothing was written
    refine ⟨written, hmemory, h.written_le, put_forall ?_ fun j _ => ?_⟩
    · rw [hsame]
      exact hseat
    · rw [hsame]
      exact h.custody j
  · -- everyone else has to put up with the record of this candidate
    refine ⟨a.now, hmemory, Nat.le_refl _, put_forall hseat fun j hj => ?_⟩
    exact (h.custody j).succeeds hsucceeds (h.not_held hinjective hnonempty hj htake)

/-- Time that passes leaves every candidate in custody. -/
theorem InCustody.pass {written t : Nat} (h : a.InCustody config written)
    (hfits : ∀ i, (a.seats i).Fits config i a.now) (hle : a.now ≤ t)
    (hdue : ∀ i, (a.seats i).running = true → ∀ timer ∈ (a.seats i).candidate.timers,
      ∀ due ∈ timer, t ≤ Clock.ring due) :
    ({ a with now := t } : Arena ι).InCustody config written := by
  refine ⟨h.memory, h.written_le.trans hle, fun i => ?_⟩
  refine (h.custody i).pass hle fun transit htransit due hdue' => ?_
  cases hrunning : (a.seats i).running with
  | true =>
    refine hdue i hrunning (some due) ?_ due rfl
    simp [Candidate.timers, Option.mem_def.mp htransit, Option.mem_def.mp hdue']
  | false =>
    -- a candidate that was not started has sent nothing
    obtain ⟨-, -, -, -, hnone, -⟩ := (hfits i).fresh hrunning
    rw [hnone] at htransit
    cases htransit

/-- Among candidates with different identities everyone is in custody of the
record at every time. -/
theorem Reachable.inCustody [DecidableEq ι] (h : Reachable config a)
    (hinjective : Function.Injective config.identity) (hnonempty : ∀ i, config.identity i ≠ "") :
    ∃ written, a.InCustody config written := by
  induction h with
  | start born records files now hborn => exact ⟨now, custody_initial config born records files now⟩
  | @move a a' hreach hmove ih =>
    obtain ⟨written, ih⟩ := ih
    cases hmove with
    | start i => exact ⟨written, ih.put (ih.custody i).start⟩
    | cancel i => exact ⟨written, ih.put (ih.custody i).cancel⟩
    | endBody i hbody => exact ⟨written, ih.put (ih.custody i).endBody⟩
    | route i traffic => exact ⟨written, ih.put ((ih.custody i).relink (ih.custody i).faults)⟩
    | fault i call error =>
      refine ⟨written, ih.put ((ih.custody i).relink ?_)⟩
      exact Link.onlyFails_expect (ih.custody i).faults call error
    | advance i wall delay after store notes hrunning hadvance =>
      have hcoherent := (hreach.course hrunning).coherent
      exact ih.advance hinjective hnonempty hcoherent (Candidate.advance_cases hadvance)
    | pass t wall delay hle hcalm hdue => exact ⟨written, ih.pass hreach.fits hle hdue⟩

end Arena

end Tenure.Leader
