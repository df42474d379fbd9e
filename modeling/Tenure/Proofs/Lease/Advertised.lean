import Tenure.Leader.Timing
import Tenure.Proofs.Lease.Attempt

/-!
# `Tenure.Proofs.Lease.Advertised`: the lease that a record tells others

A timing is checked on exact durations, but a record tells the lease in whole
milliseconds that fit into 64 bits. Others wait for what the record says. So a
leader stops before they take over only when the truncated lease is still above
the renew deadline.

* `advertised_above_iff`: the lease in a record that was granted is above the
  renew deadline exactly when it has more whole milliseconds, counted modulo
  `2 ^ 64`. For a lease of whole milliseconds that fit it always is.
* `advertised_not_above`: fractions of a millisecond that pass the check and are
  cut off.
-/

set_option autoImplicit false

namespace Tenure

/-- A duration lies below whole milliseconds when its own whole milliseconds do. -/
theorem Duration.lt_ofMillis_iff (d : Duration) (n : Nat) :
    d < Duration.ofMillis n ↔ d.millis < n := by
  show d.nanos < n * 1000000 ↔ d.nanos / 1000000 < n
  omega

namespace Lease

open Store Leader

/-- Whatever the store replies, the lease in a record that was granted is that of
the timing in whole milliseconds modulo `2 ^ 64`. It is above the renew deadline
exactly when it has more whole milliseconds than that. -/
theorem advertised_above_iff {lease renew retry : Duration} {t : Timing}
    (ht : Timing.check lease renew retry = .ok t) {c c' after : Client} {wall now : Nat}
    {attempt : Attempt} {reply : Reply} {outcome : Outcome} (hlease : c.lease = t.lease)
    (hpursues : c.Pursues wall c' attempt)
    (hanswer : c'.answer attempt now reply = (after, .finished (.ok outcome)))
    (hgranted : outcome.granted = true) :
    ∃ record, outcome.record = some record
      ∧ (attempt.request = .create record ∨ ∃ version, attempt.request = .update record version)
      ∧ record.lease = Duration.ofMillis (t.lease.millis % 2 ^ 64)
      ∧ (t.renewDeadline < record.lease ↔ t.renewDeadline.millis < t.lease.millis % 2 ^ 64)
      ∧ (1000000 ∣ t.lease.nanos → t.lease.millis < 2 ^ 64 → t.renewDeadline < record.lease) := by
  obtain ⟨-, hclient, hproposes⟩ := hpursues.proposes
  have hanswered := c'.answered attempt now reply
  rw [hanswer] at hanswered
  obtain ⟨record, hdesired, hrecord⟩ := hanswered.granted hgranted
  have hrequest : attempt.request = .create record ∨
      ∃ version, attempt.request = .update record version := by
    cases attempt with
    | looking wall => cases hdesired
    | founding desired =>
      cases hdesired
      exact .inl rfl
    | claiming current desired =>
      cases hdesired
      exact .inr ⟨current.version, rfl⟩
  have hmillis : record.lease = Duration.ofMillis (t.lease.millis % 2 ^ 64) := by
    rw [← hlease, ← hclient]
    exact lease_of_leaseMillis (hproposes record hdesired).2
  have hiff : t.renewDeadline < record.lease ↔
      t.renewDeadline.millis < t.lease.millis % 2 ^ 64 := by
    rw [hmillis]
    exact t.renewDeadline.lt_ofMillis_iff _
  refine ⟨record, hrecord, hrequest, hmillis, hiff, fun hwhole hfits => ?_⟩
  -- the check has compared the exact durations, and nothing is cut off
  obtain ⟨rfl, hlt, -⟩ := Timing.check_ok ht
  rw [hiff, Nat.mod_eq_of_lt hfits]
  simp only [Duration.millis] at *
  have hlt : renew.nanos < lease.nanos := hlt
  omega

/-- A lease that has run out is taken over: the others wait for ninety seconds
again, the new leader for sixty. -/
theorem advertised_above_takeover :
    ∃ (c c' after : Client) (attempt : Attempt) (outcome : Outcome),
      Timing.check (.ofSecs 90) (.ofSecs 60) (.ofSecs 30) = .ok .standard
      ∧ c.lease = Timing.standard.lease ∧ c.Pursues 5 c' attempt
      ∧ c'.answer attempt 90000000000 (.written 8) = (after, .finished (.ok outcome))
      ∧ outcome.granted = true
      ∧ ∃ record, outcome.record = some record
        ∧ (attempt.request = .create record ∨ ∃ version, attempt.request = .update record version)
        ∧ record.lease = Duration.ofMillis (Timing.standard.lease.millis % 2 ^ 64)
        ∧ (Timing.standard.renewDeadline < record.lease ↔
          Timing.standard.renewDeadline.millis < Timing.standard.lease.millis % 2 ^ 64)
        ∧ (1000000 ∣ Timing.standard.lease.nanos → Timing.standard.lease.millis < 2 ^ 64 →
          Timing.standard.renewDeadline < record.lease) := by
  let other : Versioned Record := ⟨7, ⟨"a", 90000, 0, 0, 3⟩⟩
  let c : Client := ⟨⟨"test", "lock"⟩, "b", .ofSecs 90, some ⟨other, 0⟩⟩
  have hscale : (Duration.ofSecs 30).scale Timing.jitterFactor = some (.ofSecs 36) := by
    decide +kernel
  have hcheck : Timing.check (.ofSecs 90) (.ofSecs 60) (.ofSecs 30) = .ok .standard :=
    Timing.check_of_lt (by decide) (by decide) (by decide) hscale (by decide)
  have hseen : c.observeIfChanged other 90000000000 = c := by simp [Client.observeIfChanged, c]
  have hfree : c.isBarred other.value 90000000000 = false := by decide +kernel
  have hpursues : c.Pursues 5 c (.claiming other (c.succeeding 5 other.value)) :=
    .ask 90000000000 (.found (some other)) .begin (by simp [Client.answer, hseen, hfree])
  have hanswer : c.answer (.claiming other (c.succeeding 5 other.value)) 90000000000 (.written 8)
      = (c.observe ⟨8, c.succeeding 5 other.value⟩ 90000000000,
        .finished (.ok ⟨true, some (c.succeeding 5 other.value)⟩)) := rfl
  exact ⟨c, c, _, _, _, hcheck, rfl, hpursues, hanswer, rfl,
    advertised_above_iff hcheck rfl hpursues hanswer rfl⟩

/-- With this timing a client comes to store a record whose lease is not above
the renew deadline. -/
def IsOutlived (t : Timing) : Prop :=
  ∃ (c after : Client) (attempt : Attempt) (outcome : Outcome) (record : Record),
    c.lease = t.lease ∧ c.Pursues 0 c attempt
    ∧ c.answer attempt 0 (.written 1) = (after, .finished (.ok outcome))
    ∧ outcome.granted = true ∧ outcome.record = some record
    ∧ record.lease ≤ t.renewDeadline

/-- A founder stores what is left of its lease. -/
theorem isOutlived_of_le {t : Timing}
    (h : Duration.ofMillis (t.lease.millis % 2 ^ 64) ≤ t.renewDeadline) : IsOutlived t := by
  let c : Client := .new ⟨"test", "lock"⟩ "a" t.lease
  have hpursues : c.Pursues 0 c (.founding (c.founded 0)) := .ask 0 (.found none) .begin rfl
  refine ⟨c, _, _, _, c.founded 0, rfl, hpursues, rfl, rfl, rfl, ?_⟩
  have hlease : (c.founded 0).lease = _ := lease_of_leaseMillis rfl
  rw [hlease]
  exact h

/-- Half a millisecond of renew deadline and nine tenths of lease are both cut
off, and what is left is no longer above. -/
theorem advertised_not_above :
    ∃ t, Timing.check ⟨1500900000⟩ ⟨1500500000⟩ (.ofMillis 1000) = .ok t ∧ IsOutlived t := by
  have hscale : (Duration.ofMillis 1000).scale Timing.jitterFactor = some (.ofMillis 1200) := by
    decide +kernel
  refine ⟨_, Timing.check_of_lt (by decide) (by decide) (by decide) hscale (by decide),
    isOutlived_of_le ?_⟩
  decide

end Lease

end Tenure
