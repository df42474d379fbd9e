import Tenure.Duration

/-!
# `Tenure.Leader.Timing`: lease duration, renew deadline and retry period

The three durations that leadership is timed by. A leader that has not renewed
its lease by the renew deadline stops; the others take the lease over only when
the longer lease duration has run out; attempts are a retry period apart. A
retry may be stretched by up to a fifth, so the renew deadline has to lie above
1.2 times the retry period. The statements:

* `Timing.check_ok`: durations that pass the check are in order, so leaders stop
  before others take over.
* `Timing.check_of_lt`: durations that are in order pass the check.
-/

set_option autoImplicit false

namespace Tenure.Leader

/-- The three durations that leadership is timed by. -/
structure Timing where
  lease : Duration
  renewDeadline : Duration
  retryPeriod : Duration
deriving Repr, DecidableEq, Inhabited

/-- Why three durations are no timing. `retryOutOfRange` is the retry period
that cannot be multiplied by 1.2. -/
inductive TimingError
  | zeroLease
  | zeroRenewDeadline
  | zeroRetryPeriod
  | leaseNotAboveRenew (lease renew : Duration)
  | renewNotAboveRetry (renew retry : Duration)
  | retryOutOfRange (retry : Duration)
deriving Repr, DecidableEq, Inhabited

/-- The kind of a refusal, in one word. -/
def TimingError.kind : TimingError → String
  | zeroLease | zeroRenewDeadline | zeroRetryPeriod => "Zero"
  | leaseNotAboveRenew .. => "LeaseNotAboveRenew"
  | renewNotAboveRetry .. => "RenewNotAboveRetry"
  | retryOutOfRange _ => "Overflow"

def TimingError.message : TimingError → String
  | zeroLease => "lease duration must be greater than zero"
  | zeroRenewDeadline => "renew deadline must be greater than zero"
  | zeroRetryPeriod => "retry period must be greater than zero"
  | leaseNotAboveRenew lease renew =>
    s!"lease duration ({lease.text}) must be greater than renew deadline ({renew.text})"
  | renewNotAboveRetry renew retry =>
    s!"renew deadline ({renew.text}) must be greater than 1.2 x retry period ({retry.text})"
  | retryOutOfRange _ => "overflow in Duration"

namespace Timing

/-- The factor by which a retry may be stretched: the binary64 number nearest
to 1.2. -/
def jitterFactor : Binary64 := ⟨false, 0x13333333333333, -52⟩

/-- The timing used when nothing else is configured. -/
def standard : Timing := ⟨.ofSecs 90, .ofSecs 60, .ofSecs 30⟩

/-- Checks three durations: none is zero, the lease is longer than the renew
deadline, and that is longer than 1.2 retry periods. -/
def check (lease renew retry : Duration) : Except TimingError Timing :=
  if lease.nanos = 0 then .error .zeroLease
  else if renew.nanos = 0 then .error .zeroRenewDeadline
  else if retry.nanos = 0 then .error .zeroRetryPeriod
  else if lease ≤ renew then .error (.leaseNotAboveRenew lease renew)
  else match retry.scale jitterFactor with
    | none => .error (.retryOutOfRange retry)
    | some stretched =>
      if renew ≤ stretched then .error (.renewNotAboveRetry renew retry)
      else .ok ⟨lease, renew, retry⟩

/-- What is known of durations that pass: they are the timing, they are ordered and positive, and
the retry period stays below the renew deadline when it is stretched by the jitter factor. -/
theorem check_ok {lease renew retry : Duration} {t : Timing}
    (h : check lease renew retry = .ok t) :
    t = ⟨lease, renew, retry⟩ ∧ renew < lease ∧ 0 < renew.nanos ∧ 0 < retry.nanos
      ∧ ∃ stretched, retry.scale jitterFactor = some stretched ∧ stretched < renew := by
  unfold check at h
  split at h; · cases h
  split at h; · cases h
  split at h; · cases h
  split at h; · cases h
  rename_i h1 h2 h3 h4
  split at h; · cases h
  rename_i stretched hs
  split at h; · cases h
  rename_i h5
  injection h with h
  refine ⟨h.symm, ?_, Nat.pos_of_ne_zero h2, Nat.pos_of_ne_zero h3, stretched, hs, ?_⟩
  · exact Nat.lt_of_not_le h4
  · exact Nat.lt_of_not_le h5

/-- Durations that are so ordered pass. -/
theorem check_of_lt {lease renew retry stretched : Duration} (hrenew : 0 < renew.nanos)
    (hretry : 0 < retry.nanos) (hlease : renew < lease)
    (hscale : retry.scale jitterFactor = some stretched) (hstretched : stretched < renew) :
    check lease renew retry = .ok ⟨lease, renew, retry⟩ := by
  have hlease : renew.nanos < lease.nanos := hlease
  have hnle : ¬ lease ≤ renew := Nat.not_le_of_lt hlease
  have hnle' : ¬ renew ≤ stretched := Nat.not_le_of_lt hstretched
  unfold check
  rw [if_neg (by omega), if_neg (by omega), if_neg (by omega), if_neg hnle, hscale]
  simp only [if_neg hnle']

/-- Whether a delay is a retry period, stretched by at most the jitter factor. -/
def isRetryDelay (t : Timing) (d : Duration) : Bool :=
  match t.retryPeriod.scale jitterFactor with
  | none => false
  | some most => decide (t.retryPeriod ≤ d) && decide (d ≤ most)

end Timing

end Tenure.Leader
