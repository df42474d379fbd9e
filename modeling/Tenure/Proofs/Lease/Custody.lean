import Tenure.Proofs.Lease.Attempt
import Tenure.Proofs.Store.Served

/-!
# `Tenure.Proofs.Lease.Custody`: what a client knows of the record in the store

A client counts a lease from the instant at which it first saw the record. That
is never before the record was written, so a lease that has run out for a client
has run out for the writer too. `Aware` says this of what a client has observed
and `MayClaim` of a call that is out; both are kept by every call that is served,
of the client (`Answered.served`, `AnsweredRelease.served`) or of another one
(`Aware.succeeds`, `MayClaim.succeeds`).

* `Answered.served`: a client that writes its record puts it in place of one that
  nobody held, that it held itself, or whose lease had run out.
-/

set_option autoImplicit false

namespace Tenure.Lease

open Store

namespace Client

variable {current current' : Option (Versioned Record)} {written now : Nat} {c c' : Client}

/-- What a client has observed is older than the record in the store, or it is
that record, seen no earlier than it was written. -/
def Aware (current : Option (Versioned Record)) (written : Nat) (c : Client) : Prop :=
  ∀ o ∈ c.observed, Seen current o.record ∧ (current = some o.record → written ≤ o.since)

/-- Nobody holds the record, the client does, or its lease has run out since it
was written. -/
def CanTake (written now : Nat) (c : Client) (record : Record) : Prop :=
  record.isHeld = true →
    record.isHeldBy c.identity = true ∨ Clock.after written record.lease ≤ now

/-- An attempt wants to write a record of the client, and in place of the current
one only if the client can take that. -/
structure MayClaim (current : Option (Versioned Record)) (written now : Nat) (c : Client)
    (attempt : Attempt) : Prop where
  proposes : c.Proposes attempt
  base : ∀ base desired, attempt = .claiming base desired →
    Seen current base ∧ (current = some base → c.CanTake written now base.value)

/-- A client gives up only what it holds. -/
def MayVacate (current : Option (Versioned Record)) (c : Client) (surrender : Surrender) : Prop :=
  ∀ base released, surrender = .vacating base released →
    Seen current base ∧ base.value.isHeldBy c.identity = true

/-- A client that has just seen the record in the store knows of it. -/
theorem aware_observe (h : written ≤ now) (c : Client) (record : Versioned Record) :
    (c.observe record now).Aware (some record) written := by
  intro o ho
  obtain rfl : (⟨record, now⟩ : Observation) = o := Option.some.inj ho
  exact ⟨seen_self record, fun _ => h⟩

/-- The record that a client looks at is the one it has observed, seen no earlier
than it was written. -/
theorem observeIfChanged_observed {record : Versioned Record} (h : c.Aware (some record) written)
    (hnow : written ≤ now) :
    ∃ since, (c.observeIfChanged record now).observed = some ⟨record, since⟩
      ∧ written ≤ since := by
  unfold observeIfChanged
  split
  · rename_i o hobserved
    split
    · rename_i hsame
      have hsince := (h o hobserved).2 (congrArg some hsame.symm)
      exact ⟨o.since, by rw [hobserved, ← hsame], hsince⟩
    · exact ⟨now, rfl, hnow⟩
  · exact ⟨now, rfl, hnow⟩

/-- A client that looks at the current record knows it from then on, or has known it since it was
written. -/
theorem Aware.observeIfChanged {record : Versioned Record} (h : c.Aware (some record) written)
    (hnow : written ≤ now) : (c.observeIfChanged record now).Aware (some record) written := by
  obtain ⟨since, hobserved, hsince⟩ := observeIfChanged_observed h hnow
  intro o ho
  rw [hobserved] at ho
  obtain rfl : (⟨record, since⟩ : Observation) = o := Option.some.inj ho
  exact ⟨seen_self record, fun _ => hsince⟩

/-- A client that is not barred can take the record. -/
theorem canTake_of_not_barred {record : Versioned Record} (h : c.Aware (some record) written)
    (hnow : written ≤ now)
    (hfree : (c.observeIfChanged record now).isBarred record.value now = false) :
    (c.observeIfChanged record now).CanTake written now record.value := by
  intro hheld
  obtain ⟨since, hobserved, hsince⟩ := observeIfChanged_observed h hnow
  have hidentity := (isSame_observeIfChanged c record now).identity_eq
  rw [hidentity]
  cases hown : record.value.isHeldBy c.identity with
  | true => exact .inl rfl
  | false =>
    -- the lease has run out since the client has seen the record, and it was written before
    have hexpired : Clock.after since record.value.lease ≤ now := by
      simpa [isBarred, leaseExpired, hheld, hidentity, hown, hobserved] using hfree
    refine .inr (Nat.le_trans ?_ hexpired)
    exact Nat.add_le_add_right hsince _

/-- A record that can be taken can be taken later. -/
theorem CanTake.mono {record : Record} {later : Nat} (h : c.CanTake written now record)
    (hle : now ≤ later) : c.CanTake written later record := by
  intro hheld
  rcases h hheld with hown | hexpired
  · exact .inl hown
  · exact .inr (Nat.le_trans hexpired hle)

/-- An attempt that may go on may go on later. -/
theorem MayClaim.mono {attempt : Attempt} {later : Nat} (h : c.MayClaim current written now attempt)
    (hle : now ≤ later) : c.MayClaim current written later attempt := by
  refine ⟨h.proposes, fun base desired heq => ?_⟩
  obtain ⟨hseen, htake⟩ := h.base base desired heq
  exact ⟨hseen, fun hcurrent => (htake hcurrent).mono hle⟩

/-! ### Someone else writes -/

/-- Once a record has been succeeded, whatever a client has observed is older than the new one. -/
theorem Aware.succeeds (h : c.Aware current written) (hs : Succeeds current current')
    (now : Nat) : c.Aware current' now := by
  intro o ho
  obtain ⟨hseen, hold⟩ := (h o ho).1.succeeds hs
  exact ⟨hseen, fun hsame => absurd hsame hold⟩

/-- An attempt may go on whoever has written meanwhile: what it wants to replace is the current
record no more. -/
theorem MayClaim.succeeds {attempt : Attempt} (h : c.MayClaim current written now attempt)
    (hs : Succeeds current current') (written' : Nat) :
    c.MayClaim current' written' now attempt := by
  refine ⟨h.proposes, fun base desired heq => ?_⟩
  obtain ⟨hseen, hold⟩ := (h.base base desired heq).1.succeeds hs
  exact ⟨hseen, fun hsame => absurd hsame hold⟩

/-- Giving up may go on whoever has written meanwhile: what it wants to replace was the client's
own. -/
theorem MayVacate.succeeds {surrender : Surrender} (h : c.MayVacate current surrender)
    (hs : Succeeds current current') : c.MayVacate current' surrender := by
  intro base released heq
  obtain ⟨hseen, hown⟩ := h base released heq
  exact ⟨(hseen.succeeds hs).1, hown⟩

/-! ### The client's own call is served -/

/-- A call of an attempt that was served without a write. -/
structure Unwritten (current current' : Option (Versioned Record)) (written now : Nat) (c : Client)
    (next : Next Attempt Outcome) : Prop where
  same : current' = current
  aware : c.Aware current written
  asks : ∀ attempt, next = .ask attempt → c.MayClaim current written now attempt
  denied : ∀ outcome, next = .finished (.ok outcome) → outcome.granted = false

/-- A call of an attempt that has written the record of the client. -/
structure Overwritten (current current' : Option (Versioned Record)) (written now : Nat)
    (c c' : Client) (next : Next Attempt Outcome) : Prop where
  succeeds : Succeeds current current'
  aware : c'.Aware current' now
  granted : ∃ outcome, next = .finished (.ok outcome) ∧ outcome.granted = true
  own : ∃ latest, current' = some latest ∧ latest.value.holder = c.identity
    ∧ latest.value.leaseMillis = UInt64.ofNat c.lease.millis
  canTake : ∀ base, current = some base → c.CanTake written now base.value

/-- An attempt that has found no record may create the first one. -/
theorem mayClaim_founding (wall : Nat) :
    c.MayClaim current written now (.founding (c.founded wall)) := by
  refine ⟨fun desired hdesired => ?_, fun base desired heq => by cases heq⟩
  cases hdesired
  exact ⟨rfl, rfl⟩

/-- An attempt that has looked at the current record and is not barred may replace it. -/
theorem mayClaim_claiming {record : Versioned Record} (h : c.Aware (some record) written)
    (hnow : written ≤ now)
    (hfree : (c.observeIfChanged record now).isBarred record.value now = false) (wall : Nat) :
    (c.observeIfChanged record now).MayClaim (some record) written now
      (.claiming record ((c.observeIfChanged record now).succeeding wall record.value)) := by
  refine ⟨fun desired hdesired => ?_, fun base desired heq => ?_⟩
  · cases hdesired
    exact ⟨succeeding_holder _ _ _, succeeding_leaseMillis _ _ _⟩
  · cases heq
    exact ⟨seen_self record, fun _ => canTake_of_not_barred h hnow hfree⟩

/-- A write that got through has created the first record or replaced the one that was seen, with
the client's own. -/
theorem MayClaim.overwritten {attempt : Attempt} {desired : Record} {version : Nat}
    (h : c.MayClaim current written now attempt)
    (hserved : Served current attempt.request current' (.written version))
    (hdesired : attempt.desired? = some desired) :
    Overwritten current current' written now c (c.observe ⟨version, desired⟩ now)
      (.finished (.ok ⟨true, some desired⟩)) := by
  obtain ⟨hholder, hlease⟩ := h.proposes desired hdesired
  -- a write creates the record or replaces the one that the attempt was based on
  cases attempt with
  | looking wall => cases hdesired
  | founding desired' =>
    cases hdesired
    obtain ⟨habsent, rfl, rfl⟩ := hserved.created_of_written
    refine ⟨.first habsent, aware_observe (Nat.le_refl _) _ _, ⟨_, rfl, rfl⟩,
      ⟨_, rfl, hholder, hlease⟩, fun base hbase => ?_⟩
    rw [habsent] at hbase
    cases hbase
  | claiming base desired' =>
    cases hdesired
    obtain ⟨hseen, htake⟩ := h.base base desired rfl
    obtain ⟨hcurrent, rfl, rfl⟩ := hserved.replaced_of_written hseen
    refine ⟨.next hcurrent, aware_observe (Nat.le_refl _) _ _, ⟨_, rfl, rfl⟩,
      ⟨_, rfl, hholder, hlease⟩, fun base' hbase => ?_⟩
    rw [hcurrent] at hbase
    cases hbase
    exact htake hcurrent

/-- A call of an attempt that the store has served has written the client's record in place of one
that could be taken, or has left the record alone. -/
theorem Answered.served {attempt : Attempt} {next : Next Attempt Outcome} {reply : Reply}
    (h : Answered c now reply attempt c' next)
    (hserved : Served current attempt.request current' reply)
    (haware : c.Aware current written) (hclaim : c.MayClaim current written now attempt)
    (hnow : written ≤ now) :
    Unwritten current current' written now c' next
      ∨ Overwritten current current' written now c c' next := by
  cases h with
  | vacant hreply =>
    subst hreply
    cases hserved
    refine .inl ⟨rfl, haware, fun next heq => ?_, fun outcome h => by cases h⟩
    cases heq
    exact mayClaim_founding _
  | @barred wall base hreply hbarred =>
    subst hreply
    cases hserved
    refine .inl ⟨rfl, haware.observeIfChanged hnow, nofun, ?_⟩
    intro outcome heq
    cases heq
    rfl
  | @free wall base hreply hfree =>
    subst hreply
    cases hserved
    refine .inl ⟨rfl, haware.observeIfChanged hnow, fun next heq => ?_, fun outcome h => by cases h⟩
    cases heq
    exact mayClaim_claiming haware hnow hfree wall
  | written hreply hdesired =>
    subst hreply
    exact .inr (hclaim.overwritten hserved hdesired)
  | failed hreply hdenied =>
    refine .inl ⟨hserved.same_of_failed hreply, haware, nofun, ?_⟩
    intro outcome heq
    cases heq
    exact hdenied outcome rfl
  | stray hreply =>
    -- the store replies with what was asked for
    have hfits := hserved.fits
    rw [hreply] at hfits
    cases hfits

/-- A call of giving up that the store has served has written in place of a record of the client,
or has left the record alone. -/
theorem AnsweredRelease.served {surrender : Surrender} {next : Next Surrender Bool} {now : Moment}
    {reply : Reply} (h : AnsweredRelease c now reply surrender c' next)
    (hserved : Served current surrender.request current' reply)
    (hvacate : c.MayVacate current surrender) :
    (current' = current ∧ c' = c
        ∧ ∀ surrender, next = .ask surrender → c.MayVacate current surrender)
      ∨ (Succeeds current current' ∧ c'.Aware current' now.instant
        ∧ (∀ surrender, next ≠ .ask surrender)
        ∧ ∃ base, current = some base ∧ base.value.isHeldBy c.identity = true) := by
  cases h with
  | keep hreply =>
    have hsame : current' = current := by
      rcases hreply with hreply | ⟨found, hreply, -⟩
      · exact (hserved.found hreply).1
      · exact (hserved.found hreply).1
    refine .inl ⟨hsame, rfl, fun surrender heq => ?_⟩
    cases heq
  | @own base hreply hheld =>
    obtain ⟨hsame, hbase⟩ := hserved.found hreply
    refine .inl ⟨hsame, rfl, fun surrender heq => ?_⟩
    cases heq
    intro base' released heq
    cases heq
    rw [← hbase]
    exact ⟨seen_self base, hheld⟩
  | @vacated base released version hreply =>
    -- a write that got through has replaced just what was seen, and that was the client's own
    obtain ⟨hseen, hown⟩ := hvacate base released rfl
    subst hreply
    obtain ⟨hcurrent, rfl, rfl⟩ := hserved.replaced_of_written hseen
    refine .inr ⟨.next hcurrent, aware_observe (Nat.le_refl _) _ _, fun surrender heq => ?_,
      base, hcurrent, hown⟩
    cases heq
  | failed hreply hkept =>
    refine .inl ⟨hserved.same_of_failed hreply, rfl, fun surrender heq => ?_⟩
    cases heq
  | stray hreply =>
    have hfits := hserved.fits
    rw [hreply] at hfits
    cases hfits

end Client

end Tenure.Lease
