import Tenure.Store.Basic

/-!
# `Tenure.Lease.Client`: taking, renewing and giving up a lease

A client competes for the lock of one key under one identity. It takes the lock
when there is no record, when the record names no holder, when it holds the lock
itself, or when the holder's lease has run out. A lease runs from the instant at
which this client first saw the record at its version, on its own monotonic
clock; what the writer's wall clock said does not matter.

An attempt is a sequence of store calls. `Client.answer` takes the reply to the
call that is out and says which call comes next or how the attempt has ended, so
that any number of clients can be interleaved call by call. A write that loses
against another one ends an attempt without the lock, and is no error.
-/

set_option autoImplicit false

namespace Tenure.Lease

open Store

/-- The record as a client has last seen it change, and when. -/
structure Observation where
  record : Versioned Record
  since : Nat
deriving Repr, DecidableEq, Inhabited

/-- A client of the lock of one key. -/
structure Client where
  key : Key
  identity : String
  lease : Duration
  observed : Option Observation
deriving Repr, DecidableEq, Inhabited

/-- How an attempt to take or renew the lock has ended: whether the client holds
it, and the record as it was last seen. -/
structure Outcome where
  granted : Bool
  record : Option Record
deriving Repr, DecidableEq, Inhabited

/-- The holder that an outcome names. -/
def Outcome.holder (o : Outcome) : Option String :=
  (o.record.filter Record.isHeld).map Record.holder

/-- An attempt to take or renew the lock, by the call that is out. -/
inductive Attempt
  /-- The record is looked up; the wall clock was read before. -/
  | looking (wall : Nat)
  /-- The first record of the key is created. -/
  | founding (desired : Record)
  /-- The record that was found is replaced. -/
  | claiming (current : Versioned Record) (desired : Record)
deriving Repr, DecidableEq, Inhabited

/-- An attempt to give the lock up, by the call that is out. -/
inductive Surrender
  | looking
  | vacating (current : Versioned Record) (released : Record)
deriving Repr, DecidableEq, Inhabited

/-- What follows a reply: another call, or the end. -/
inductive Next (σ α : Type)
  | ask (attempt : σ)
  | finished (result : Except Error α)

/-- The call that is out. -/
def Attempt.request : Attempt → Request
  | looking _ => .get
  | founding desired => .create desired
  | claiming current desired => .update desired current.version

/-- The call that is out. -/
def Surrender.request : Surrender → Request
  | looking => .get
  | vacating current released => .update released current.version

namespace Client

/-- A client that has seen nothing yet. -/
def new (key : Key) (identity : String) (lease : Duration) : Client :=
  ⟨key, identity, lease, none⟩

/-- Remembers a record as seen now. -/
def observe (c : Client) (record : Versioned Record) (now : Nat) : Client :=
  { c with observed := some ⟨record, now⟩ }

/-- Remembers a record as seen now, unless it was seen before. -/
def observeIfChanged (c : Client) (record : Versioned Record) (now : Nat) : Client :=
  match c.observed with
  | some o => if o.record = record then c else c.observe record now
  | none => c.observe record now

/-- Whether the lease of the record that was observed has run out. -/
def leaseExpired (c : Client) (now : Nat) : Bool :=
  match c.observed with
  | some o => decide (Clock.after o.since o.record.value.lease ≤ now)
  | none => true

/-- The record that a client wants to be there, as the founder of the key. -/
def founded (c : Client) (wall : Nat) : Record where
  holder := c.identity
  leaseMillis := UInt64.ofNat c.lease.millis
  acquireTime := UInt64.ofNat wall
  renewTime := UInt64.ofNat wall
  transitions := 0

/-- One more change of hands; the count stops at its largest value. -/
def countTransition (n : UInt32) : UInt32 := if n = 0xffffffff then n else n + 1

/-- The record that a client wants in place of another one. A renewal keeps the
time of acquisition and the count of changes, a takeover adds to the count. -/
def succeeding (c : Client) (wall : Nat) (current : Record) : Record :=
  if current.isHeldBy c.identity then
    { c.founded wall with
      acquireTime := current.acquireTime
      transitions := current.transitions }
  else { c.founded wall with transitions := countTransition current.transitions }

/-- Whether the lock is someone else's and its lease has not run out. -/
def isBarred (c : Client) (current : Record) (now : Nat) : Bool :=
  current.isHeld && !current.isHeldBy c.identity && !c.leaseExpired now

/-- Takes the reply to the call that an attempt has out. -/
def answer (c : Client) (attempt : Attempt) (now : Nat) (reply : Reply) :
    Client × Next Attempt Outcome :=
  match attempt, reply with
  | .looking wall, .found none => (c, .ask (.founding (c.founded wall)))
  | .looking wall, .found (some current) =>
    let c := c.observeIfChanged current now
    if c.isBarred current.value now then (c, .finished (.ok ⟨false, some current.value⟩))
    else (c, .ask (.claiming current (c.succeeding wall current.value)))
  | .founding desired, .written version =>
    (c.observe ⟨version, desired⟩ now, .finished (.ok ⟨true, some desired⟩))
  | .claiming _ desired, .written version =>
    (c.observe ⟨version, desired⟩ now, .finished (.ok ⟨true, some desired⟩))
  | .founding _, .failed e =>
    (c, if e.isConflict then .finished (.ok ⟨false, none⟩) else .finished (.error e))
  | .claiming current _, .failed e =>
    (c, if e.isConflict then .finished (.ok ⟨false, some current.value⟩)
        else .finished (.error e))
  | .looking _, .failed e => (c, .finished (.error e))
  | attempt, _ => (c, .ask attempt)

/-- How long the record of a lock that was given up claims to be valid. -/
def releasedLease : Duration := .ofMillis 1000

/-- The record of a lock that was given up. -/
def released (wall : Nat) (current : Record) : Record where
  holder := ""
  leaseMillis := UInt64.ofNat releasedLease.millis
  acquireTime := UInt64.ofNat wall
  renewTime := UInt64.ofNat wall
  transitions := current.transitions

/-- Takes the reply to the call that giving up has out. The result says whether
the lock was given up by this. -/
def answerRelease (c : Client) (surrender : Surrender) (now : Moment) (reply : Reply) :
    Client × Next Surrender Bool :=
  match surrender, reply with
  | .looking, .found none => (c, .finished (.ok false))
  | .looking, .found (some current) =>
    if current.value.isHeldBy c.identity then
      (c, .ask (.vacating current (released now.wall current.value)))
    else (c, .finished (.ok false))
  | .looking, .failed e => (c, .finished (.error e))
  | .vacating _ released, .written version =>
    (c.observe ⟨version, released⟩ now.instant, .finished (.ok true))
  | .vacating _ _, .failed e =>
    (c, if e.isConflict then .finished (.ok false) else .finished (.error e))
  | surrender, _ => (c, .ask surrender)

end Client

end Tenure.Lease
