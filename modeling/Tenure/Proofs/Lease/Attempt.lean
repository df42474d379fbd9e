import Mathlib.Algebra.Group.Nat.Defs
import Tenure.Lease.Client
import Tenure.Proofs.Store.Served

/-!
# `Tenure.Proofs.Lease.Attempt`: what a client does with a reply

`Client.answer` and `Client.answerRelease` are read once: `Answered` and
`AnsweredRelease` list what a client can do with a reply to the call that it has
out. An attempt goes through a few calls (`Pursues`); whatever the store replies,
the record that it wants to write names the client and the client's lease.

* `answered` and `answeredRelease`: every reply is taken in one of these ways.
* `Pursues.proposes`: the record that an attempt wants to write is the client's.
* `Answered.granted`: what is granted is the record that the attempt has sent.
-/

set_option autoImplicit false

namespace Tenure.Lease

open Store

/-- What others read back from a record that carries a lease. -/
theorem lease_of_leaseMillis {r : Record} {lease : Duration}
    (h : r.leaseMillis = UInt64.ofNat lease.millis) :
    r.lease = Duration.ofMillis (lease.millis % 2 ^ 64) := by
  simp only [Record.lease, h, UInt64.toNat_ofNat']

/-- The record that an attempt wants to write, once it has found out. -/
def Attempt.desired? : Attempt → Option Record
  | looking _ => none
  | founding desired => some desired
  | claiming _ desired => some desired

namespace Client

/-- What a client does with the reply to the call that an attempt has out. -/
inductive Answered (c : Client) (now : Nat) (reply : Reply) :
    Attempt → Client → Next Attempt Outcome → Prop
  /-- There is no record, so the first one is created. -/
  | vacant {wall : Nat} (hreply : reply = .found none) :
      Answered c now reply (.looking wall) c (.ask (.founding (c.founded wall)))
  /-- Someone else has the lock, and the lease has not run out. -/
  | barred {wall : Nat} {current : Versioned Record} (hreply : reply = .found (some current))
      (hbarred : (c.observeIfChanged current now).isBarred current.value now = true) :
      Answered c now reply (.looking wall) (c.observeIfChanged current now)
        (.finished (.ok ⟨false, some current.value⟩))
  /-- The lock is free, the client's own, or its lease has run out. -/
  | free {wall : Nat} {current : Versioned Record} (hreply : reply = .found (some current))
      (hfree : (c.observeIfChanged current now).isBarred current.value now = false) :
      Answered c now reply (.looking wall) (c.observeIfChanged current now)
        (.ask (.claiming current
          ((c.observeIfChanged current now).succeeding wall current.value)))
  /-- The record that was sent has been written. -/
  | written {attempt : Attempt} {desired : Record} {version : Nat}
      (hreply : reply = .written version) (hdesired : attempt.desired? = some desired) :
      Answered c now reply attempt (c.observe ⟨version, desired⟩ now)
        (.finished (.ok ⟨true, some desired⟩))
  /-- The call has failed, or was lost against someone else's. -/
  | failed {attempt : Attempt} {error : Error} {result : Except Error Outcome}
      (hreply : reply = .failed error)
      (hdenied : ∀ outcome, result = .ok outcome → outcome.granted = false) :
      Answered c now reply attempt c (.finished result)
  /-- A reply to some other call is not listened to. -/
  | stray {attempt : Attempt} (hreply : reply.fits attempt.request = false) :
      Answered c now reply attempt c (.ask attempt)

/-- What a client does with the reply to the call that giving up has out. -/
inductive AnsweredRelease (c : Client) (now : Moment) (reply : Reply) :
    Surrender → Client → Next Surrender Bool → Prop
  /-- There is nothing to give up. -/
  | keep (hreply : reply = .found none ∨ ∃ current : Versioned Record,
        reply = .found (some current) ∧ current.value.isHeldBy c.identity = false) :
      AnsweredRelease c now reply .looking c (.finished (.ok false))
  /-- The lock is the client's own and will be given up. -/
  | own {current : Versioned Record} (hreply : reply = .found (some current))
      (hheld : current.value.isHeldBy c.identity = true) :
      AnsweredRelease c now reply .looking c
        (.ask (.vacating current (released now.wall current.value)))
  /-- The lock was given up. -/
  | vacated {current : Versioned Record} {released : Record} {version : Nat}
      (hreply : reply = .written version) :
      AnsweredRelease c now reply (.vacating current released)
        (c.observe ⟨version, released⟩ now.instant) (.finished (.ok true))
  /-- The call has failed, or was lost against someone else's. -/
  | failed {surrender : Surrender} {error : Error} {result : Except Error Bool}
      (hreply : reply = .failed error) (hkept : result ≠ .ok true) :
      AnsweredRelease c now reply surrender c (.finished result)
  /-- A reply to some other call is not listened to. -/
  | stray {surrender : Surrender} (hreply : reply.fits surrender.request = false) :
      AnsweredRelease c now reply surrender c (.ask surrender)

variable {c c' : Client} {now wall : Nat} {reply : Reply} {attempt next : Attempt}
  {outcome : Outcome}

/-- Whatever a client does with a reply is one of these. -/
theorem answered (c : Client) (attempt : Attempt) (now : Nat) (reply : Reply) :
    Answered c now reply attempt (c.answer attempt now reply).1 (c.answer attempt now reply).2 := by
  -- one case for each stage of an attempt and each kind of reply to it
  cases attempt with
  | looking wall =>
    cases reply with
    | found current =>
      cases current with
      | none => exact .vacant rfl
      | some current =>
        cases hbarred : (c.observeIfChanged current now).isBarred current.value now with
        | true => simpa [answer, hbarred] using .barred rfl hbarred
        | false => simpa [answer, hbarred] using .free rfl hbarred
    | written version => exact .stray rfl
    | failed error => exact .failed rfl (fun outcome h => by cases h)
  | founding desired =>
    cases reply with
    | found current => exact .stray rfl
    | written version => exact .written rfl rfl
    | failed error =>
      simp only [answer]
      split
      · exact .failed rfl (fun outcome h => by cases h; rfl)
      · exact .failed rfl (fun outcome h => by cases h)
  | claiming current desired =>
    cases reply with
    | found current => exact .stray rfl
    | written version => exact .written rfl rfl
    | failed error =>
      simp only [answer]
      split
      · exact .failed rfl (fun outcome h => by cases h; rfl)
      · exact .failed rfl (fun outcome h => by cases h)

/-- Whatever a client that gives up does with a reply is one of these. -/
theorem answeredRelease (c : Client) (surrender : Surrender) (now : Moment) (reply : Reply) :
    AnsweredRelease c now reply surrender (c.answerRelease surrender now reply).1
      (c.answerRelease surrender now reply).2 := by
  -- one case for each stage of giving up and each kind of reply to it
  cases surrender with
  | looking =>
    cases reply with
    | found current =>
      cases current with
      | none => exact .keep (.inl rfl)
      | some current =>
        cases hheld : current.value.isHeldBy c.identity with
        | true => simpa [answerRelease, hheld] using .own rfl hheld
        | false => simpa [answerRelease, hheld] using .keep (.inr ⟨current, rfl, hheld⟩)
    | written version => exact .stray rfl
    | failed error => exact .failed rfl (by intro h; cases h)
  | vacating current released =>
    cases reply with
    | found current => exact .stray rfl
    | written version => exact .vacated rfl
    | failed error =>
      simp only [answerRelease]
      split
      · exact .failed rfl (by intro h; cases h)
      · exact .failed rfl (by intro h; cases h)

/-! ### The record of an attempt -/

/-- A client names itself the holder of what it writes. -/
@[simp] theorem succeeding_holder (c : Client) (wall : Nat) (current : Record) :
    (c.succeeding wall current).holder = c.identity := by
  unfold succeeding
  split <;> rfl

/-- A client writes its own lease, in whole milliseconds of sixty-four bits. -/
@[simp] theorem succeeding_leaseMillis (c : Client) (wall : Nat) (current : Record) :
    (c.succeeding wall current).leaseMillis = UInt64.ofNat c.lease.millis := by
  unfold succeeding
  split <;> rfl

/-- The record that an attempt wants to write names the client and its lease. -/
def Proposes (c : Client) (attempt : Attempt) : Prop :=
  ∀ desired ∈ attempt.desired?,
    desired.holder = c.identity ∧ desired.leaseMillis = UInt64.ofNat c.lease.millis

/-- Two states of one client: the key, the identity and the lease are the same. -/
structure IsSame (c c' : Client) : Prop where
  key_eq : c'.key = c.key
  identity_eq : c'.identity = c.identity
  lease_eq : c'.lease = c.lease

/-- Observing a record changes neither the key nor the identity nor the lease of a client. -/
theorem isSame_observeIfChanged (c : Client) (record : Versioned Record) (now : Nat) :
    c.IsSame (c.observeIfChanged record now) := by
  unfold observeIfChanged
  split
  · split <;> exact ⟨rfl, rfl, rfl⟩
  · exact ⟨rfl, rfl, rfl⟩

/-- A reply to an attempt leaves a client the one that it was. -/
theorem Answered.isSame {n : Next Attempt Outcome} (h : Answered c now reply attempt c' n) :
    c.IsSame c' := by
  cases h with
  | barred hreply hbarred => exact isSame_observeIfChanged c _ now
  | free hreply hfree => exact isSame_observeIfChanged c _ now
  | vacant hreply | written hreply hdesired | failed hreply hdenied | stray hreply =>
    exact ⟨rfl, rfl, rfl⟩

/-- A reply to giving up leaves a client the one that it was. -/
theorem AnsweredRelease.isSame {moment : Moment} {surrender : Surrender} {n : Next Surrender Bool}
    (h : AnsweredRelease c moment reply surrender c' n) : c.IsSame c' := by
  cases h <;> exact ⟨rfl, rfl, rfl⟩

/-- An attempt that goes on still wants a record of the client. -/
theorem Answered.proposes (h : Answered c now reply attempt c' (.ask next))
    (hp : c.Proposes attempt) : c'.Proposes next := by
  cases h with
  | vacant hreply =>
    intro desired hdesired
    cases hdesired
    exact ⟨rfl, rfl⟩
  | free hreply hfree =>
    intro desired hdesired
    cases hdesired
    exact ⟨succeeding_holder _ _ _, succeeding_leaseMillis _ _ _⟩
  | stray hreply => exact hp

/-- What is granted is the record that was sent. -/
theorem Answered.granted (h : Answered c now reply attempt c' (.finished (.ok outcome)))
    (hgranted : outcome.granted = true) :
    ∃ desired, attempt.desired? = some desired ∧ outcome.record = some desired := by
  cases h with
  | barred hreply hbarred => cases hgranted
  | written hreply hdesired => exact ⟨_, hdesired, rfl⟩
  | failed hreply hdenied => simp [hdenied outcome rfl] at hgranted

/-- An attempt of a client, after any number of replies of any kind. -/
inductive Pursues (c : Client) (wall : Nat) : Client → Attempt → Prop
  | begin : Pursues c wall c (.looking wall)
  | ask {c' c'' : Client} {attempt next : Attempt} (now : Nat) (reply : Reply)
      (h : Pursues c wall c' attempt) (hask : c'.answer attempt now reply = (c'', .ask next)) :
      Pursues c wall c'' next

/-- Whatever the store replies, an attempt goes on under the identity and the
lease with which it began, and wants to write a record of these. -/
theorem Pursues.proposes (h : Pursues c wall c' attempt) :
    c'.identity = c.identity ∧ c'.lease = c.lease ∧ c'.Proposes attempt := by
  induction h with
  | begin =>
    refine ⟨rfl, rfl, fun desired hdesired => ?_⟩
    cases hdesired
  | @ask c' _ attempt _ now reply _ hask ih =>
    have hanswered := answered c' attempt now reply
    rw [hask] at hanswered
    obtain ⟨hidentity, hlease, hproposes⟩ := ih
    exact ⟨hanswered.isSame.identity_eq.trans hidentity, hanswered.isSame.lease_eq.trans hlease,
      hanswered.proposes hproposes⟩

end Client

end Tenure.Lease
