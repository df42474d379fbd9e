import Tenure.Lease.Script
import Tenure.Proofs.Lease.Attempt
import Tenure.Proofs.Store.Unstamped

/-!
# `Tenure.Proofs.Lease.WallClock`: nothing is decided by the wall clock

A client reads the wall clock for the two times that it writes into a record. This
module shows that these times are for reading only: any number of clients at a
store in memory decide the same, whatever their wall clocks show. Clocks may be
skewed, may jump and may go backwards, and so may those of others who write
records in between.

## Two runs and a third one

What a store holds and replies has a form without times, and here clients, attempts
and scripts get one too; a step loses the reading of the clock. Two runs of one
script that differ in the readings only are not compared with each other but with
the run without any times: each of them, unstamped, is that run (`run_unstamped`).

## Why unstamping commutes with a step

All functions but one look at the holder, the lease, the count of changes and the
version of a record, and for them it is a computation. The exception is
`Client.observeIfChanged`: a client compares the record that it finds with the one
that it has observed, times included, and if they differ its count of the lease
starts again. There the times could matter: a record that was replaced by one of the
same version with other times would count as new in one run and as old in the
other. It does not come to that, because a store in memory gives every write a
version of its own. So what a client has observed under a version is what the store
holds under that version (`Client.Grounded`), and records of one version are equal.

* `Client.answer_unstamped`: what a client does with a reply.
* `Seat.acquire_unstamped` and `Seat.release_unstamped`: an attempt with all its
  calls, some of which may fail or come late.
* `Table.run_unstamped`: a script.
* `Table.run_clockless`: two runs of a script differ in the times only.
-/

set_option autoImplicit false

namespace Tenure.Lease

open Store

/-! ### Without the times -/

def Observation.unstamped (o : Observation) : Observation := ⟨o.record.unstamped, o.since⟩

/-- A client without the times of the record that it has observed. -/
def Client.unstamped (c : Client) : Client :=
  { c with observed := c.observed.map Observation.unstamped }

def Outcome.unstamped (o : Outcome) : Outcome := ⟨o.granted, o.record.map Record.unstamped⟩

/-- An attempt without the times that it has read or wants to write. -/
def Attempt.unstamped : Attempt → Attempt
  | looking _ => looking 0
  | founding desired => founding desired.unstamped
  | claiming current desired => claiming current.unstamped desired.unstamped

def Surrender.unstamped : Surrender → Surrender
  | looking => looking
  | vacating current released => vacating current.unstamped released.unstamped

/-- Changes what is asked next, or the result. -/
def Next.map {σ τ α β : Type} (f : σ → τ) (g : α → β) : Next σ α → Next τ β
  | ask attempt => ask (f attempt)
  | finished result => finished (result.map g)

def Seat.unstamped (seat : Seat) : Seat := ⟨seat.client.unstamped, seat.link.unstamped⟩

def Table.unstamped (t : Table) : Table :=
  { t with seats := t.seats.map Seat.unstamped, store := t.store.unstamped }

/-- A step without what the wall clock shows, and without the times that others
write. -/
def Step.unstamped : Step → Step
  | acquire who _ => acquire who 0
  | release who _ => release who 0
  | advance span => advance span
  | put record => put record.unstamped
  | fault who f => fault who f.unstamped

def Answer.unstamped : Answer → Answer
  | acquired outcome => acquired outcome.unstamped
  | released given => released given
  | written version => written version
  | failed error => failed error
  | done => done

/-- An attempt without its times asks the same, without the times. -/
@[simp] theorem Attempt.request_unstamped (attempt : Attempt) :
    attempt.unstamped.request = attempt.request.unstamped := by
  cases attempt <;> rfl

/-- Giving up without its times asks the same, without the times. -/
@[simp] theorem Surrender.request_unstamped (surrender : Surrender) :
    surrender.unstamped.request = surrender.request.unstamped := by
  cases surrender <;> rfl

namespace Client

/-! ### A client does not read the times -/

/-- What a client has observed under the version of a record is that record. -/
def AgreesOn (c : Client) (record : Versioned Record) : Prop :=
  ∀ o ∈ c.observed, o.record.version = record.version → o.record = record

/-- What a client has observed was once in the store under its key. -/
def Grounded (s : Shared) (c : Client) : Prop :=
  ∀ o ∈ c.observed, Seen (s.record? c.key) o.record

/-- What a grounded client has observed under the version of a stored record is that record. -/
theorem Grounded.agreesOn {s : Shared} {c : Client} (h : c.Grounded s) {record : Versioned Record}
    (hrecord : s.record? c.key = some record) : c.AgreesOn record := by
  intro o ho hversion
  obtain ⟨latest, hlatest, -, hsame⟩ := h o ho
  obtain rfl : record = latest := Option.some.inj (hrecord.symm.trans hlatest)
  exact hsame hversion

/-- Records of one version are equal, so it does not matter that they are compared
with their times. -/
theorem observeIfChanged_unstamped {c : Client} {record : Versioned Record}
    (h : c.AgreesOn record) (now : Nat) :
    c.unstamped.observeIfChanged record.unstamped now
      = (c.observeIfChanged record now).unstamped := by
  obtain ⟨key, identity, lease, observed⟩ := c
  cases observed with
  | none => rfl
  | some o =>
    show (if o.record.unstamped = record.unstamped then _ else _)
      = Client.unstamped (if o.record = record then _ else _)
    -- records that differ, be it in their times only, have different versions
    by_cases hsame : o.record = record
    · rw [if_pos hsame, if_pos (congrArg Versioned.unstamped hsame)]
    · have hne : o.record.unstamped ≠ record.unstamped := by
        intro heq
        have hversion : o.record.unstamped.version = record.unstamped.version := by rw [heq]
        exact hsame (h o rfl hversion)
      rw [if_neg hsame, if_neg hne]
      rfl

/-- Whether a lease has run out does not depend on the wall times of records. -/
@[simp] theorem leaseExpired_unstamped (c : Client) (now : Nat) :
    c.unstamped.leaseExpired now = c.leaseExpired now := by
  obtain ⟨key, identity, lease, observed⟩ := c
  cases observed <;> rfl

/-- Whether a client is barred does not depend on the wall times of records. -/
@[simp] theorem isBarred_unstamped (c : Client) (current : Record) (now : Nat) :
    c.unstamped.isBarred current.unstamped now = c.isBarred current now := by
  show (current.isHeld && !current.isHeldBy c.identity && !c.unstamped.leaseExpired now) = _
  rw [leaseExpired_unstamped]
  rfl

/-- Without its times the record that a client would write is the one it would write without times.
-/
theorem succeeding_unstamped (c : Client) (wall : Nat) (current : Record) :
    c.unstamped.succeeding 0 current.unstamped = (c.succeeding wall current).unstamped := by
  unfold succeeding
  show (if current.isHeldBy c.identity then _ else _) = _
  cases current.isHeldBy c.identity <;> rfl

/-- What a client does with a reply does not depend on the times in it, nor on those
that its attempt has read. -/
theorem answer_unstamped {c : Client} {reply : Reply}
    (h : ∀ current, reply = .found (some current) → c.AgreesOn current) (attempt : Attempt)
    (now : Nat) :
    c.unstamped.answer attempt.unstamped now reply.unstamped
      = ((c.answer attempt now reply).1.unstamped,
        (c.answer attempt now reply).2.map Attempt.unstamped Outcome.unstamped) := by
  cases attempt with
  | looking wall =>
    cases reply with
    | found current =>
      cases current with
      | none => rfl
      | some current =>
        -- the client compares records, and the versions tell as much as the times would
        have hobserve := observeIfChanged_unstamped (h current rfl) now
        simp only [answer, Attempt.unstamped, Reply.unstamped, Option.map_some, hobserve]
        show (if (c.observeIfChanged current now).unstamped.isBarred current.value.unstamped now
          then _ else _) = _
        rw [isBarred_unstamped]
        cases (c.observeIfChanged current now).isBarred current.value now with
        | true => rfl
        | false =>
          simp only [Bool.false_eq_true, if_false]
          show (_, Next.ask (Attempt.claiming current.unstamped
            ((c.observeIfChanged current now).unstamped.succeeding 0 current.value.unstamped))) = _
          rw [succeeding_unstamped _ wall]
          rfl
    | written version => rfl
    | failed error => rfl
  | founding desired =>
    cases reply with
    | found current => rfl
    | written version => rfl
    | failed error =>
      simp only [answer, Attempt.unstamped, Reply.unstamped]
      cases error.isConflict <;> rfl
  | claiming current desired =>
    cases reply with
    | found current => rfl
    | written version => rfl
    | failed error =>
      simp only [answer, Attempt.unstamped, Reply.unstamped]
      cases error.isConflict <;> rfl

/-- The same for giving the lock up. -/
theorem answerRelease_unstamped (c : Client) (surrender : Surrender) (now : Moment)
    (reply : Reply) :
    c.unstamped.answerRelease surrender.unstamped ⟨now.instant, 0⟩ reply.unstamped
      = ((c.answerRelease surrender now reply).1.unstamped,
        (c.answerRelease surrender now reply).2.map Surrender.unstamped id) := by
  cases surrender with
  | looking =>
    cases reply with
    | found current =>
      cases current with
      | none => rfl
      | some current =>
        simp only [answerRelease, Surrender.unstamped, Reply.unstamped, Option.map_some]
        -- whose record it is does not depend on its times
        show (if current.value.isHeldBy c.identity then _ else _) = _
        cases current.value.isHeldBy c.identity <;> rfl
    | written version => rfl
    | failed error => rfl
  | vacating current released =>
    cases reply with
    | found current => rfl
    | written version => rfl
    | failed error =>
      simp only [answerRelease, Surrender.unstamped, Reply.unstamped]
      cases error.isConflict <;> rfl

/-! ### What a client has observed was once in the store -/

section

variable {s s' : Shared} {c c' : Client} {reply : Reply} {now : Nat}

/-- A client stays grounded in a store that has forgotten nothing. -/
theorem Grounded.grows (h : c.Grounded s) (hs : s.Grows s') : c.Grounded s' :=
  fun o ho => hs c.key o.record (h o ho)

/-- A client that observes what is stored is grounded. -/
theorem grounded_observe {record : Versioned Record} (h : s.record? c.key = some record)
    (now : Nat) : (c.observe record now).Grounded s := by
  intro o ho
  obtain rfl : (⟨record, now⟩ : Observation) = o := Option.some.inj ho
  show Seen (s.record? c.key) record
  rw [h]
  exact seen_self record

/-- A grounded client that looks at what is stored stays grounded. -/
theorem Grounded.observeIfChanged {record : Versioned Record} (hc : c.Grounded s)
    (h : s.record? c.key = some record) (now : Nat) :
    (c.observeIfChanged record now).Grounded s := by
  unfold Client.observeIfChanged
  split
  · split
    · exact hc
    · exact grounded_observe h now
  · exact grounded_observe h now

/-- A client stays grounded over a reply to its attempt, when the reply tells of the store. -/
theorem Answered.grounded {attempt : Attempt} {next : Next Attempt Outcome}
    (h : Answered c now reply attempt c' next) (htold : Told c.key attempt.request s s' reply)
    (hc : c.Grounded s) : c'.Grounded s' := by
  have hkept : c.Grounded s' := hc.grows htold.grows
  cases h with
  | vacant hreply | failed hreply hdenied | stray hreply => exact hkept
  | barred hreply hbarred => exact hkept.observeIfChanged (htold.found _ hreply) now
  | free hreply hfree => exact hkept.observeIfChanged (htold.found _ hreply) now
  | @written attempt desired version hreply hdesired =>
    -- what was written is in the store under the version that the reply tells
    have hstamp : reply.stamp? attempt.request = some ⟨version, desired⟩ := by
      subst hreply
      cases attempt with
      | looking wall => cases hdesired
      | founding desired | claiming current desired =>
        cases hdesired
        rfl
    exact grounded_observe (htold.stamped _ hstamp) now

/-- A client stays grounded over a reply to its giving up, when the reply tells of the store. -/
theorem AnsweredRelease.grounded {moment : Moment} {surrender : Surrender}
    {next : Next Surrender Bool} (h : AnsweredRelease c moment reply surrender c' next)
    (htold : Told c.key surrender.request s s' reply) (hc : c.Grounded s) : c'.Grounded s' := by
  have hkept : c.Grounded s' := hc.grows htold.grows
  cases h with
  | keep hreply | own hreply hheld | failed hreply hkept' | stray hreply => exact hkept
  | @vacated base released version hreply =>
    have hstamp : reply.stamp? (Surrender.vacating base released).request
        = some ⟨version, released⟩ := by
      rw [hreply]
      rfl
    exact grounded_observe (htold.stamped _ hstamp) moment.instant

end

end Client

/-! ### An attempt with all its calls -/

/-- What holds when a client has made its calls: the store has forgotten nothing,
and the client has observed only what was in it. -/
structure Attempted (s s' : Shared) (seat : Seat) : Prop where
  memory : s'.IsMemory
  grows : s.Grows s'
  grounded : seat.client.Grounded s'

namespace Seat

section

variable {seat : Seat} {s s' : Shared} {link : Link} {client : Client} {reply : Reply}

/-- An attempt that asks again goes on from where its first call has led. -/
theorem acquireFrom_ask {now : Nat} {attempt next : Attempt}
    (hdeliver : seat.link.deliver s seat.client.key attempt.request = (link, s', reply))
    (hanswer : seat.client.answer attempt now reply = (client, .ask next)) (fuel : Nat) :
    seat.acquireFrom s now (fuel + 1) attempt = acquireFrom ⟨client, link⟩ s' now fuel next := by
  simp only [acquireFrom, hdeliver, hanswer]

/-- An attempt that is finished by a reply ends with it. -/
theorem acquireFrom_finished {now : Nat} {attempt : Attempt} {result : Except Error Outcome}
    (hdeliver : seat.link.deliver s seat.client.key attempt.request = (link, s', reply))
    (hanswer : seat.client.answer attempt now reply = (client, .finished result)) (fuel : Nat) :
    seat.acquireFrom s now (fuel + 1) attempt = (⟨client, link⟩, s', result) := by
  simp only [acquireFrom, hdeliver, hanswer]

/-- Giving up that asks again goes on from where its first call has led. -/
theorem releaseFrom_ask {now : Moment} {surrender next : Surrender}
    (hdeliver : seat.link.deliver s seat.client.key surrender.request = (link, s', reply))
    (hanswer : seat.client.answerRelease surrender now reply = (client, .ask next)) (fuel : Nat) :
    seat.releaseFrom s now (fuel + 1) surrender = releaseFrom ⟨client, link⟩ s' now fuel next := by
  simp only [releaseFrom, hdeliver, hanswer]

/-- Giving up that is finished by a reply ends with it. -/
theorem releaseFrom_finished {now : Moment} {surrender : Surrender} {result : Except Error Bool}
    (hdeliver : seat.link.deliver s seat.client.key surrender.request = (link, s', reply))
    (hanswer : seat.client.answerRelease surrender now reply = (client, .finished result))
    (fuel : Nat) :
    seat.releaseFrom s now (fuel + 1) surrender = (⟨client, link⟩, s', result) := by
  simp only [releaseFrom, hdeliver, hanswer]

end

/-- The calls of an attempt, by the number of those that may still follow. -/
theorem acquireFrom_attempted {seat : Seat} {s : Shared} (hs : s.IsMemory)
    (hseat : seat.client.Grounded s) (now fuel : Nat) (attempt : Attempt) :
    Attempted s (seat.acquireFrom s now fuel attempt).2.1
      (seat.acquireFrom s now fuel attempt).1 := by
  -- on the calls that an attempt has left; each goes on from a store that has forgotten nothing
  induction fuel generalizing seat s attempt with
  | zero => exact ⟨hs, .refl s, hseat⟩
  | succ fuel ih =>
    have htold := seat.link.told_deliver hs seat.client.key attempt.request
    rcases hdeliver : seat.link.deliver s seat.client.key attempt.request with ⟨link, s', reply⟩
    rw [hdeliver] at htold
    have hgrounded := (seat.client.answered attempt now reply).grounded htold hseat
    rcases hanswer : seat.client.answer attempt now reply with ⟨client, next⟩
    rw [hanswer] at hgrounded
    cases next with
    | ask next =>
      have hseat' : (⟨client, link⟩ : Seat).client.Grounded s' := hgrounded
      have hrest := ih htold.memory hseat' next
      rw [acquireFrom_ask hdeliver hanswer]
      exact ⟨hrest.memory, htold.grows.trans hrest.grows, hrest.grounded⟩
    | finished result =>
      rw [acquireFrom_finished hdeliver hanswer]
      exact ⟨htold.memory, htold.grows, hgrounded⟩

/-- Giving up leaves a store that has forgotten nothing and a grounded client. -/
theorem releaseFrom_attempted {seat : Seat} {s : Shared} (hs : s.IsMemory)
    (hseat : seat.client.Grounded s) (now : Moment) (fuel : Nat) (surrender : Surrender) :
    Attempted s (seat.releaseFrom s now fuel surrender).2.1
      (seat.releaseFrom s now fuel surrender).1 := by
  -- on the calls that are left: each keeps the versions growing, and the client's memory below them
  induction fuel generalizing seat s surrender with
  | zero => exact ⟨hs, .refl s, hseat⟩
  | succ fuel ih =>
    have htold := seat.link.told_deliver hs seat.client.key surrender.request
    rcases hdeliver : seat.link.deliver s seat.client.key surrender.request with ⟨link, s', reply⟩
    rw [hdeliver] at htold
    have hgrounded := (seat.client.answeredRelease surrender now reply).grounded htold hseat
    rcases hanswer : seat.client.answerRelease surrender now reply with ⟨client, next⟩
    rw [hanswer] at hgrounded
    cases next with
    | ask next =>
      have hseat' : (⟨client, link⟩ : Seat).client.Grounded s' := hgrounded
      have hrest := ih htold.memory hseat' next
      rw [releaseFrom_ask hdeliver hanswer]
      exact ⟨hrest.memory, htold.grows.trans hrest.grows, hrest.grounded⟩
    | finished result =>
      rw [releaseFrom_finished hdeliver hanswer]
      exact ⟨htold.memory, htold.grows, hgrounded⟩

/-- What a client was told of its record agrees with what it has observed. -/
theorem agreesOn_told {c : Client} {request : Request} {s s' : Shared} {reply : Reply}
    (htold : Told c.key request s s' reply) (hc : c.Grounded s) (current : Versioned Record)
    (hreply : reply = .found (some current)) : c.AgreesOn current :=
  (hc.grows htold.grows).agreesOn (htold.found _ hreply)

/-- An attempt commutes with taking all wall times away: no call and no outcome depends on them. -/
theorem acquireFrom_unstamped {seat : Seat} {s : Shared} (hs : s.IsMemory)
    (hseat : seat.client.Grounded s) (now fuel : Nat) (attempt : Attempt) :
    seat.unstamped.acquireFrom s.unstamped now fuel attempt.unstamped
      = ((seat.acquireFrom s now fuel attempt).1.unstamped,
        (seat.acquireFrom s now fuel attempt).2.1.unstamped,
        (seat.acquireFrom s now fuel attempt).2.2.map Outcome.unstamped) := by
  -- the first call goes to a store without times, and leaves such a store to the rest
  induction fuel generalizing seat s attempt with
  | zero => rfl
  | succ fuel ih =>
    have htold := seat.link.told_deliver hs seat.client.key attempt.request
    have hdeliver' := seat.link.deliver_unstamped hs seat.client.key attempt.request
    rcases hdeliver : seat.link.deliver s seat.client.key attempt.request with ⟨link, s', reply⟩
    rw [hdeliver] at htold
    rw [hdeliver, ← attempt.request_unstamped] at hdeliver'
    have hgrounded := (seat.client.answered attempt now reply).grounded htold hseat
    have hanswer' := Client.answer_unstamped (agreesOn_told htold hseat) attempt now
    rcases hanswer : seat.client.answer attempt now reply with ⟨client, next⟩
    rw [hanswer] at hgrounded hanswer'
    cases next with
    | ask next =>
      rw [acquireFrom_ask hdeliver hanswer, acquireFrom_ask hdeliver' hanswer']
      have hseat' : (⟨client, link⟩ : Seat).client.Grounded s' := hgrounded
      exact ih htold.memory hseat' next
    | finished result =>
      rw [acquireFrom_finished hdeliver hanswer, acquireFrom_finished hdeliver' hanswer']
      rfl

/-- Giving up commutes with taking all wall times away. -/
theorem releaseFrom_unstamped {seat : Seat} {s : Shared} (hs : s.IsMemory)
    (hseat : seat.client.Grounded s) (now : Moment) (fuel : Nat) (surrender : Surrender) :
    seat.unstamped.releaseFrom s.unstamped ⟨now.instant, 0⟩ fuel surrender.unstamped
      = ((seat.releaseFrom s now fuel surrender).1.unstamped,
        (seat.releaseFrom s now fuel surrender).2.1.unstamped,
        (seat.releaseFrom s now fuel surrender).2.2) := by
  -- on the calls that are left: store, link and client commute with the times, one after the other
  induction fuel generalizing seat s surrender with
  | zero => rfl
  | succ fuel ih =>
    have htold := seat.link.told_deliver hs seat.client.key surrender.request
    have hdeliver' := seat.link.deliver_unstamped hs seat.client.key surrender.request
    rcases hdeliver : seat.link.deliver s seat.client.key surrender.request with ⟨link, s', reply⟩
    rw [hdeliver] at htold
    rw [hdeliver, ← surrender.request_unstamped] at hdeliver'
    have hgrounded := (seat.client.answeredRelease surrender now reply).grounded htold hseat
    have hanswer' := seat.client.answerRelease_unstamped surrender now reply
    rcases hanswer : seat.client.answerRelease surrender now reply with ⟨client, next⟩
    rw [hanswer] at hgrounded hanswer'
    cases next with
    | ask next =>
      rw [releaseFrom_ask hdeliver hanswer, releaseFrom_ask hdeliver' hanswer']
      have hseat' : (⟨client, link⟩ : Seat).client.Grounded s' := hgrounded
      exact ih htold.memory hseat' next
    | finished result =>
      rw [releaseFrom_finished hdeliver hanswer, releaseFrom_finished hdeliver' hanswer']
      cases result <;> rfl

/-- An attempt to take the lock ends in the same way whatever the wall clock shows. -/
theorem acquire_unstamped {seat : Seat} {s : Shared} (hs : s.IsMemory)
    (hseat : seat.client.Grounded s) (now wall : Nat) :
    seat.unstamped.acquire s.unstamped ⟨now, 0⟩
      = ((seat.acquire s ⟨now, wall⟩).1.unstamped, (seat.acquire s ⟨now, wall⟩).2.1.unstamped,
        (seat.acquire s ⟨now, wall⟩).2.2.map Outcome.unstamped) :=
  acquireFrom_unstamped hs hseat now 2 (.looking wall)

/-- Giving the lock up ends in the same way whatever the wall clock shows. -/
theorem release_unstamped {seat : Seat} {s : Shared} (hs : s.IsMemory)
    (hseat : seat.client.Grounded s) (now wall : Nat) :
    seat.unstamped.release s.unstamped ⟨now, 0⟩
      = ((seat.release s ⟨now, wall⟩).1.unstamped, (seat.release s ⟨now, wall⟩).2.1.unstamped,
        (seat.release s ⟨now, wall⟩).2.2) :=
  releaseFrom_unstamped hs hseat ⟨now, wall⟩ 2 .looking

end Seat

/-! ### A script -/

namespace Table

/-- The store is in memory, and every client has observed only what was in it. -/
structure Grounded (t : Table) : Prop where
  memory : t.store.IsMemory
  seats : ∀ seat ∈ t.seats, seat.client.Grounded t.store

/-- One client has made its calls, and the others have observed what they had. -/
theorem Grounded.attempted {t : Table} (h : t.Grounded) {seat : Seat} {s : Shared} (who : Nat)
    (hattempted : Attempted t.store s seat) :
    Grounded { t with seats := t.seats.set who seat, store := s } := by
  refine ⟨hattempted.memory, fun other hmem => ?_⟩
  rcases List.mem_or_eq_of_mem_set hmem with hmem | rfl
  · exact (h.seats other hmem).grows hattempted.grows
  · exact hattempted.grounded

/-- The clients stay grounded when somebody else writes. -/
theorem Grounded.overwritten {t : Table} (h : t.Grounded) (record : Record) :
    Grounded { t with store := (t.store.overwrite t.key record).1 } := by
  have hgrows : t.store.Grows (t.store.overwrite t.key record).1 := by
    rw [t.store.overwrite_eq h.memory]
    exact Shared.grows_answer h.memory t.key _
  exact ⟨t.store.isMemory_overwrite h.memory t.key record,
    fun seat hmem => (h.seats seat hmem).grows hgrows⟩

/-- The clients stay grounded over every step of a script. -/
theorem Grounded.step {t : Table} (h : t.Grounded) (step : Step) : (t.step step).1.Grounded := by
  cases step with
  | acquire who wall =>
    simp only [Table.step]
    cases hseat : t.seats[who]? with
    | none => exact h
    | some seat =>
      have hattempted : Attempted t.store (seat.acquire t.store ⟨t.now, wall⟩).2.1
          (seat.acquire t.store ⟨t.now, wall⟩).1 :=
        Seat.acquireFrom_attempted h.memory (h.seats seat (List.mem_of_getElem? hseat)) _ _ _
      dsimp only
      generalize seat.acquire t.store ⟨t.now, wall⟩ = attempt at hattempted ⊢
      obtain ⟨seat', s', result⟩ := attempt
      cases result <;> exact h.attempted who hattempted
  | release who wall =>
    simp only [Table.step]
    cases hseat : t.seats[who]? with
    | none => exact h
    | some seat =>
      have hattempted : Attempted t.store (seat.release t.store ⟨t.now, wall⟩).2.1
          (seat.release t.store ⟨t.now, wall⟩).1 :=
        Seat.releaseFrom_attempted h.memory (h.seats seat (List.mem_of_getElem? hseat)) _ _ _
      dsimp only
      generalize seat.release t.store ⟨t.now, wall⟩ = attempt at hattempted ⊢
      obtain ⟨seat', s', result⟩ := attempt
      cases result <;> exact h.attempted who hattempted
  | advance span => exact ⟨h.memory, h.seats⟩
  | put record =>
    have hoverwritten := h.overwritten record
    simp only [Table.step]
    generalize t.store.overwrite t.key record = written at hoverwritten ⊢
    obtain ⟨s', reply⟩ := written
    cases reply <;> exact hoverwritten
  | fault who fault =>
    simp only [Table.step]
    cases hseat : t.seats[who]? with
    | none => exact h
    | some seat =>
      -- the store is as it was, and so is the client behind the link
      exact h.attempted who ⟨h.memory, .refl _, h.seats seat (List.mem_of_getElem? hseat)⟩

/-- Each client of a table without times is the one of the table, without times. -/
theorem seat?_unstamped (t : Table) (who : Nat) :
    t.unstamped.seats[who]? = (t.seats[who]?).map Seat.unstamped :=
  List.getElem?_map

/-- A table in which one seat was taken anew, without the times. -/
theorem set_unstamped (t : Table) (who : Nat) (seat : Seat) (s : Shared) :
    Table.unstamped { t with seats := t.seats.set who seat, store := s }
      = { t.unstamped with
          seats := t.unstamped.seats.set who seat.unstamped
          store := s.unstamped } := by
  simp only [Table.unstamped, List.map_set]

/-- A step does the same whatever times there are. -/
theorem step_unstamped {t : Table} (h : t.Grounded) (step : Step) :
    t.unstamped.step step.unstamped = ((t.step step).1.unstamped, (t.step step).2.unstamped) := by
  cases step with
  | acquire who wall =>
    simp only [Table.step, Step.unstamped, seat?_unstamped]
    cases hseat : t.seats[who]? with
    | none => rfl
    | some seat =>
      have hacquire : seat.unstamped.acquire t.unstamped.store ⟨t.unstamped.now, 0⟩ = _ :=
        Seat.acquire_unstamped h.memory (h.seats seat (List.mem_of_getElem? hseat)) t.now wall
      simp only [Option.map_some, hacquire]
      rcases seat.acquire t.store ⟨t.now, wall⟩ with ⟨seat', s', result⟩
      cases result with
      | ok outcome =>
        simp only [Except.map, set_unstamped]
        rfl
      | error error =>
        simp only [Except.map, set_unstamped]
        rfl
  | release who wall =>
    simp only [Table.step, Step.unstamped, seat?_unstamped]
    cases hseat : t.seats[who]? with
    | none => rfl
    | some seat =>
      have hrelease : seat.unstamped.release t.unstamped.store ⟨t.unstamped.now, 0⟩ = _ :=
        Seat.release_unstamped h.memory (h.seats seat (List.mem_of_getElem? hseat)) t.now wall
      simp only [Option.map_some, hrelease]
      rcases seat.release t.store ⟨t.now, wall⟩ with ⟨seat', s', result⟩
      cases result with
      | ok given =>
        simp only [set_unstamped]
        rfl
      | error error =>
        simp only [set_unstamped]
        rfl
  | advance span => rfl
  | put record =>
    -- what others write loses its times, and is written over what has lost them
    have hoverwrite : t.unstamped.store.overwrite t.unstamped.key record.unstamped = _ :=
      Shared.overwrite_unstamped h.memory t.key record
    simp only [Table.step, Step.unstamped, hoverwrite]
    rcases t.store.overwrite t.key record with ⟨s', reply⟩
    cases reply <;> rfl
  | fault who fault =>
    simp only [Table.step, Step.unstamped, seat?_unstamped]
    cases hseat : t.seats[who]? with
    | none => rfl
    | some seat =>
      have hlink :
          seat.unstamped.link.expect fault.unstamped = (seat.link.expect fault).unstamped := by
        simp only [Link.expect, Link.unstamped, Seat.unstamped, List.map_append, List.map_cons,
          List.map_nil]
      simp only [Option.map_some, hlink, set_unstamped t who ⟨_, _⟩ t.store]
      rfl

/-- A run without its times is the run without any times. -/
theorem run_unstamped {t : Table} (h : t.Grounded) (script : List Step) :
    (t.run script).map (Prod.map Table.unstamped Answer.unstamped)
      = t.unstamped.run (script.map Step.unstamped) := by
  induction script generalizing t with
  | nil => rfl
  | cons step rest ih =>
    simp only [run, List.map_cons, step_unstamped h]
    rw [ih (h.step step)]
    rfl

/-- Clients that have seen nothing yet have observed nothing that was not there. -/
theorem grounded_of_fresh {t : Table} (hstore : t.store.IsMemory)
    (hfresh : ∀ seat ∈ t.seats, seat.client.observed = none) : t.Grounded := by
  refine ⟨hstore, fun seat hmem o ho => ?_⟩
  rw [hfresh seat hmem] at ho
  cases ho

/-- Two runs of one script that differ in what the wall clocks show, and in the times
that others write, are the same but for the times: at every step the answers and the
errors, what is in the store, what every client has observed, and since when. -/
theorem run_clockless {t : Table} (hstore : t.store.IsMemory)
    (hfresh : ∀ seat ∈ t.seats, seat.client.observed = none) {script script' : List Step}
    (hsame : script.map Step.unstamped = script'.map Step.unstamped) :
    (t.run script).map (Prod.map Table.unstamped Answer.unstamped)
      = (t.run script').map (Prod.map Table.unstamped Answer.unstamped) := by
  have hgrounded : t.Grounded := grounded_of_fresh hstore hfresh
  calc (t.run script).map (Prod.map Table.unstamped Answer.unstamped)
      = t.unstamped.run (script.map Step.unstamped) := run_unstamped hgrounded script
    _ = t.unstamped.run (script'.map Step.unstamped) := by rw [hsame]
    _ = (t.run script').map (Prod.map Table.unstamped Answer.unstamped) :=
      (run_unstamped hgrounded script').symm

/-- The second client takes the lock over when the lease of the first one has run
out, and the first one fails to give it up. In one run the clocks agree; in the
other one the clock of the second client is behind and goes back further. -/
theorem run_clockless_takeover :
    let key : Key := ⟨"test", "lock"⟩
    let seat (identity : String) : Seat := ⟨.new key identity (.ofSecs 15), .healthy⟩
    let t : Table := ⟨key, [seat "a", seat "b"], .inMemory, 0⟩
    let script (first second third last : Nat) : List Step :=
      [.acquire 0 first, .acquire 1 second, .advance (.ofSecs 15), .acquire 1 third,
        .release 0 last]
    let answers (script : List Step) : List Answer :=
      (t.run script).map fun done => done.2.unstamped
    t.store.IsMemory ∧ (∀ seat ∈ t.seats, seat.client.observed = none)
      ∧ (script 5 5 20 20).map Step.unstamped = (script 5 1 0 20).map Step.unstamped
      ∧ answers (script 5 5 20 20) = answers (script 5 1 0 20) := by
  intro key seat t script answers
  have hstore : t.store.IsMemory := ⟨.empty, rfl⟩
  have hfresh : ∀ seat ∈ t.seats, seat.client.observed = none := by
    intro seat hmem
    simp only [t, List.mem_cons, List.not_mem_nil, or_false] at hmem
    rcases hmem with rfl | rfl <;> rfl
  have hsame : (script 5 5 20 20).map Step.unstamped = (script 5 1 0 20).map Step.unstamped := rfl
  -- both scripts lead through the same states without times, and so to the same answers
  have hruns := congrArg (List.map Prod.snd) (run_clockless hstore hfresh hsame)
  refine ⟨hstore, hfresh, hsame, ?_⟩
  rw [List.map_map, List.map_map] at hruns
  exact hruns

end Table

end Tenure.Lease
