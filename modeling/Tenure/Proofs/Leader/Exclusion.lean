import Tenure.Proofs.Leader.Blocks
import Tenure.Proofs.Leader.Custody

/-!
# `Tenure.Proofs.Leader.Exclusion`: at most one candidate leads

A token is held up to the renew deadline of the last grant at most, counted from
when the grant landed. The record in the store was written then, and names the
candidate for the whole lease, which is longer. So of two candidates that hold
their tokens each would be the holder of the one record.

* `Arena.Reachable.exclusive`: no two candidates hold a token that is not
  cancelled. When bodies return within a span that fits between the renew deadline
  and the lease, no two bodies run at the same time.
-/

set_option autoImplicit false

namespace Tenure.Leader

open Lease Store

/-- Whole milliseconds that fit into 64 bits are advertised as they are. -/
theorem ElectionConfig.advertised_eq {ι : Type} {config : ElectionConfig ι}
    (hdvd : 1000000 ∣ config.timing.lease.nanos)
    (hfits : config.timing.lease.millis < 2 ^ 64) : config.advertised = config.timing.lease := by
  have hmillis : config.timing.lease.millis * 1000000 = config.timing.lease.nanos :=
    Nat.div_mul_cancel hdvd
  rw [advertised, Nat.mod_eq_of_lt hfits, Duration.ofMillis, hmillis]

/-- A grant that landed at the end of a millisecond is good for the renew deadline
from then on, and no longer. -/
theorem Grant.limit_le {t : Timing} {g : Grant} (hbegan : g.began ≤ g.landed)
    (hlanded : 1000000 ∣ g.landed) (hrenew : 1000000 ∣ t.renewDeadline.nanos)
    (hretry : t.retryPeriod < t.renewDeadline) :
    g.limit t ≤ Clock.after g.landed t.renewDeadline := by
  have hretry : t.retryPeriod.nanos < t.renewDeadline.nanos := hretry
  have hring : Clock.ring (Clock.after g.landed t.renewDeadline)
      = Clock.after g.landed t.renewDeadline := Clock.ring_of_dvd _ (Nat.dvd_add hlanded hrenew)
  rw [← hring]
  refine Nat.max_le.mpr ⟨Clock.ring_mono ?_, Clock.ring_mono ?_⟩
  · exact Nat.add_le_add_right hbegan _
  · exact Nat.add_le_add_left (Nat.le_of_lt hretry) _

/-- A span that fits between the renew deadline and the lease may follow the limit of a
grant within its lease. -/
theorem ElectionConfig.after_limit_lt {ι : Type} {config : ElectionConfig ι}
    {lease renew retry d : Duration}
    (ht : Timing.check lease renew retry = .ok config.timing) (hlease : 1000000 ∣ lease.nanos)
    (hrenew : 1000000 ∣ renew.nanos) (hfits : lease.millis < 2 ^ 64) (hd : renew + d < lease)
    {g : Grant} (hbegan : g.began ≤ g.landed) (hlanded : 1000000 ∣ g.landed) :
    Clock.after (g.limit config.timing) d < Clock.after g.landed config.advertised := by
  obtain ⟨htiming, -⟩ := Timing.check_ok ht
  have hretry := Timing.retry_lt_renew_of_check ht
  rw [htiming] at hretry ⊢
  have hadvertised : config.advertised = lease := by
    rw [ElectionConfig.advertised_eq (by rwa [htiming]) (by rwa [htiming]), htiming]
  have hlimit : g.limit ⟨lease, renew, retry⟩ ≤ Clock.after g.landed renew :=
    Grant.limit_le hbegan hlanded hrenew hretry
  have hd : renew.nanos + d.nanos < lease.nanos := hd
  rw [hadvertised]
  simp only [Clock.after] at hlimit ⊢
  omega

/-- A body that runs belongs to an episode. -/
theorem Course.Reachable.isClaiming_of_isBodyRunning {c : Course} (h : c.Reachable)
    (hbody : c.chronicle.isBodyRunning = true) : c.elector.IsClaiming := by
  obtain ⟨blocks, last, hserial⟩ := h.serial
  have hsome := hserial.isBodyRunning_iff.mp hbody
  refine .inr fun hnone => ?_
  simp [Elector.body?, hnone] at hsome

namespace Seat

variable {ι : Type} {config : ElectionConfig ι} {i : ι} {now : Nat} {s : Seat}

/-- The candidate claims the lock by a grant whose lease has not run out. -/
def IsHolder (config : ElectionConfig ι) (now : Nat) (s : Seat) : Prop :=
  s.candidate.elector.IsClaiming
    ∧ ∃ g, s.chronicle.grant = some g ∧ now < Clock.after g.landed config.advertised

/-- A candidate that was not started has no episode. -/
theorem Fits.running (h : s.Fits config i now)
    (hclaim : s.candidate.elector.holdsToken = true ∨ s.chronicle.isBodyRunning = true) :
    s.running = true := by
  cases hrunning : s.running with
  | true => rfl
  | false =>
    obtain ⟨born, shutdown, -, helector, -, hchronicle⟩ := h.fresh hrunning
    rw [helector, hchronicle] at hclaim
    rcases hclaim with htoken | hbody
    · cases htoken
    · cases hbody

/-- A candidate is the holder as long as the limit of its grant has passed by less
than the lease is longer than the renew deadline. -/
theorem isHolder_of_le {current : Option (Versioned Record)} {written : Nat}
    (h : Custody config i current written now s) {lease renew retry d : Duration}
    (ht : Timing.check lease renew retry = .ok config.timing) (hlease : 1000000 ∣ lease.nanos)
    (hrenew : 1000000 ∣ renew.nanos) (hfits : lease.millis < 2 ^ 64) (hd : renew + d < lease)
    (hclaim : s.candidate.elector.IsClaiming) {g : Grant} (hgrant : s.chronicle.grant = some g)
    (hbegan : g.began ≤ g.landed) (hnow : now ≤ Clock.after (g.limit config.timing) d) :
    s.IsHolder config now :=
  ⟨hclaim, g, hgrant,
    hnow.trans_lt
      (ElectionConfig.after_limit_lt ht hlease hrenew hfits hd hbegan (h.landed g hgrant))⟩

end Seat

namespace Arena

variable {ι : Type} {config : ElectionConfig ι} {a : Arena ι}

/-- There is one record, and it names one candidate. -/
theorem InCustody.eq_of_isHolder {written : Nat} (h : a.InCustody config written)
    (hinjective : Function.Injective config.identity) {i j : ι}
    (hi : (a.seats i).IsHolder config a.now) (hj : (a.seats j).IsHolder config a.now) : i = j := by
  obtain ⟨hclaim, g, hgrant, hnow⟩ := hi
  obtain ⟨hclaim', g', hgrant', hnow'⟩ := hj
  obtain ⟨latest, hlatest, hholder, -⟩ := (h.custody i).hold hclaim g hgrant hnow
  obtain ⟨latest', hlatest', hholder', -⟩ := (h.custody j).hold hclaim' g' hgrant' hnow'
  obtain rfl : latest = latest' := Option.some.inj (hlatest.symm.trans hlatest')
  exact hinjective (hholder.symm.trans hholder')

/-- No two candidates hold a token that is not cancelled. As long as no body has
run for more than `d` after its token was cancelled, where `d` fits between the
renew deadline and the lease, no two bodies run. -/
theorem Reachable.exclusive [DecidableEq ι] (h : Reachable config a)
    (hinjective : Function.Injective config.identity) (hnonempty : ∀ i, config.identity i ≠ "")
    {lease renew retry : Duration} (ht : Timing.check lease renew retry = .ok config.timing)
    (hlease : 1000000 ∣ lease.nanos) (hrenew : 1000000 ∣ renew.nanos)
    (hfits : lease.millis < 2 ^ 64) :
    (∀ i j, (a.seats i).candidate.elector.holdsToken = true →
        (a.seats j).candidate.elector.holdsToken = true → i = j)
      ∧ ∀ d, renew + d < lease →
        (∀ i, (a.seats i).chronicle.isBodyRunning = true →
          (a.seats i).candidate.elector.isRevoked = true →
            a.now ≤ Clock.after (a.seats i).chronicle.revoked d) →
        ∀ i j, (a.seats i).chronicle.isBodyRunning = true →
          (a.seats j).chronicle.isBodyRunning = true → i = j := by
  obtain ⟨written, hcustody⟩ := h.inCustody hinjective hnonempty
  have hd : renew + .zero < lease := (Timing.check_ok ht).2.1
  constructor
  · -- a token is held within the limit of a grant, and that is before the lease runs out for others
    have holder : ∀ i, (a.seats i).candidate.elector.holdsToken = true →
        (a.seats i).IsHolder config a.now := by
      intro i htoken
      have hcourse := h.course ((h.fits i).running (.inl htoken))
      obtain ⟨g, hgrant, hg, hnow⟩ := hcourse.le_limit htoken
      have hclaim : (a.seats i).candidate.elector.IsClaiming := by
        refine .inr fun hnone => ?_
        simp [Elector.holdsToken, hnone] at htoken
      rw [show ((a.seats i).course a.now).elector.timing = config.timing from
        (hcustody.custody i).timing_eq] at hnow
      refine Seat.isHolder_of_le (hcustody.custody i) ht hlease hrenew hfits hd hclaim hgrant
        hg.began_le ?_
      exact hnow.trans (Nat.le_add_right _ _)
    intro i j hi hj
    exact hcustody.eq_of_isHolder hinjective (holder i hi) (holder j hj)
  · intro d hd hprompt
    -- a body runs for the span longer at most, and there is room for that before the lease runs out
    have holder : ∀ i, (a.seats i).chronicle.isBodyRunning = true →
        (a.seats i).IsHolder config a.now := by
      intro i hbody
      have hcourse := h.course ((h.fits i).running (.inr hbody))
      have hclaim := hcourse.isClaiming_of_isBodyRunning hbody
      obtain ⟨g, hgrant, hg⟩ := hcourse.timely.claim hclaim
      have htiming : ((a.seats i).course a.now).elector.timing = config.timing :=
        (hcustody.custody i).timing_eq
      refine Seat.isHolder_of_le (hcustody.custody i) ht hlease hrenew hfits hd hclaim hgrant
        hg.began_le ?_
      rw [← htiming]
      cases hrevoked : (a.seats i).candidate.elector.isRevoked with
      | true =>
        exact (hprompt i hbody hrevoked).trans (Nat.add_le_add_right (hg.revoked hrevoked) _)
      | false => exact (hg.held hrevoked).trans (Nat.le_add_right _ _)
    intro i j hi hj
    exact hcustody.eq_of_isHolder hinjective (holder i hi) (holder j hj)

/-- Two candidates for a lock, timed as `Course.brisk`. -/
def duel : ElectionConfig Bool where
  key := ⟨"test", "lock"⟩
  timing := Course.brisk
  identity i := if i then "a" else "b"
  releases _ := true

/-- A candidate does what it can, for a number of steps. -/
def turns (i : Bool) (n : Nat) : List (Deed Bool) := List.replicate n (.advance i 0 (.ofSecs 5))

/-- One candidate is elected, and its calls get stuck from then on. It gives up at
the renew deadline, but the body of its episode runs on for four seconds. -/
def lingering : List (Deed Bool) :=
  .start true :: turns true 8 ++ [.route true .stuck, .start false] ++ turns false 3
    ++ .pass 5000000000 0 ⟨0⟩ :: turns true 2 ++ turns false 3
    ++ .pass 10000000000 0 ⟨0⟩ :: turns true 2 ++ turns false 3 ++ [.pass 14000000000 0 ⟨0⟩]

/-- The body returns, and the other candidate takes the lock over when the lease
has run out. -/
def takeover : List (Deed Bool) :=
  lingering ++ .endBody true :: turns true 6 ++ .pass 15000000000 0 ⟨0⟩ :: turns false 8

/-- In the run of two candidates that this shows, a body outlasts its token by four seconds and is
still the only one; after that the other candidate holds the only token. -/
theorem exclusive_takeover :
    (∃ a, (initial duel (fun _ => 0) .empty .empty 0).play [true, false] lingering = some a
        ∧ (a.seats true).chronicle.isBodyRunning = true
        ∧ a.now = Clock.after (a.seats true).chronicle.revoked (.ofSecs 4)
        ∧ ∀ i, (a.seats i).chronicle.isBodyRunning = true → i = true)
      ∧ ∃ a, (initial duel (fun _ => 0) .empty .empty 0).play [true, false] takeover = some a
        ∧ (a.seats false).candidate.elector.holdsToken = true
        ∧ ∀ i, (a.seats i).candidate.elector.holdsToken = true → i = false := by
  have hall : ∀ i, i ∈ [true, false] := by decide
  have hinjective : Function.Injective duel.identity := by
    intro i j h
    revert i j
    decide
  have hnonempty : ∀ i, duel.identity i ≠ "" := by decide
  have hreach : ∀ {deeds a}, (initial duel (fun _ => 0) .empty .empty 0).play [true, false] deeds
      = some a → Reachable duel a := fun hplay =>
    (Reachable.start _ _ _ _ fun _ => Nat.le_refl 0).play hall hplay
  constructor
  · -- the run is computed up to its end, and the theorem speaks about that point
    have hrun : ((initial duel (fun _ => 0) .empty .empty 0).play [true, false] lingering).any
        (fun a => (a.seats true).chronicle.isBodyRunning
          && a.now == Clock.after (a.seats true).chronicle.revoked (.ofSecs 4)
          && !(a.seats false).candidate.elector.isRevoked) = true := by decide +kernel
    obtain ⟨a, hplay, hlingers⟩ := (Option.any_eq_true _ _).mp hrun
    simp only [Bool.and_eq_true, beq_iff_eq, Bool.not_eq_true'] at hlingers
    obtain ⟨⟨hbody, hnow⟩, hother⟩ := hlingers
    refine ⟨a, hplay, hbody, hnow, fun i hi => ?_⟩
    refine ((hreach hplay).exclusive hinjective hnonempty Course.check_brisk (by decide) (by decide)
      (by decide)).2 (.ofSecs 4) (by decide) ?_ i true hi hbody
    intro j _ hrevoked
    cases j with
    | true => exact Nat.le_of_eq hnow
    | false => simp [hother] at hrevoked
  · have hrun : ((initial duel (fun _ => 0) .empty .empty 0).play [true, false] takeover).any
        (fun a => (a.seats false).candidate.elector.holdsToken) = true := by decide +kernel
    obtain ⟨a, hplay, htoken⟩ := (Option.any_eq_true _ _).mp hrun
    refine ⟨a, hplay, htoken, fun i hi => ?_⟩
    exact ((hreach hplay).exclusive hinjective hnonempty Course.check_brisk (by decide) (by decide)
      (by decide)).1 i false hi htoken

end Arena

end Tenure.Leader
