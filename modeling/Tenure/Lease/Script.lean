import Tenure.Lease.Client
import Tenure.Store.Link

/-!
# `Tenure.Lease.Script`: clients that take turns

Several clients, each with its own link to the store, do one thing after another:
a client tries to take its lock or gives it up, time passes, someone else writes
the record of a key. An attempt makes its calls one after another with nothing in
between, but for what its link does to them.
-/

set_option autoImplicit false

namespace Tenure.Lease

open Store

/-- A client and its link to the store. -/
structure Seat where
  client : Client
  link : Link
deriving Repr, Inhabited

/-- Clients, the store that they share, and what the clocks show. -/
structure Table where
  /-- The key that is watched, and that someone else writes to. -/
  key : Key
  seats : List Seat
  store : Shared
  /-- The instant on the monotonic clock. -/
  now : Nat
deriving Repr, Inhabited

/-- What is done in a step. -/
inductive Step
  /-- A client tries to take or renew the lock; the wall clock shows a time. -/
  | acquire (who : Nat) (wall : Nat)
  | release (who : Nat) (wall : Nat)
  | advance (span : Duration)
  /-- Someone else writes a record over whatever is there. -/
  | put (record : Record)
  /-- The next call of a kind by a client will be harmed. -/
  | fault (who : Nat) (fault : Fault)
deriving Repr, Inhabited

/-- How a step has ended. -/
inductive Answer
  | acquired (outcome : Outcome)
  | released (done : Bool)
  | written (version : Nat)
  | failed (error : Error)
  | done
deriving Repr, Inhabited

namespace Seat

/-- The call that an attempt has out is answered, and so are those that follow
it; no attempt makes more than two. -/
def acquireFrom (seat : Seat) (store : Shared) (now : Nat) :
    Nat → Attempt → Seat × Shared × Except Error Outcome
  | 0, _ => (seat, store, .ok ⟨false, none⟩)
  | fuel + 1, attempt =>
    match seat.link.deliver store seat.client.key attempt.request with
    | (link, store, reply) =>
      match seat.client.answer attempt now reply with
      | (client, .ask attempt) => acquireFrom ⟨client, link⟩ store now fuel attempt
      | (client, .finished result) => (⟨client, link⟩, store, result)

/-- Tries to take or renew the lock. -/
def acquire (seat : Seat) (store : Shared) (now : Moment) :
    Seat × Shared × Except Error Outcome :=
  seat.acquireFrom store now.instant 2 (.looking now.wall)

/-- The call that giving up has out is answered, and so are those that follow
it; no attempt makes more than two. -/
def releaseFrom (seat : Seat) (store : Shared) (now : Moment) :
    Nat → Surrender → Seat × Shared × Except Error Bool
  | 0, _ => (seat, store, .ok false)
  | fuel + 1, surrender =>
    match seat.link.deliver store seat.client.key surrender.request with
    | (link, store, reply) =>
      match seat.client.answerRelease surrender now reply with
      | (client, .ask surrender) => releaseFrom ⟨client, link⟩ store now fuel surrender
      | (client, .finished result) => (⟨client, link⟩, store, result)

/-- Gives the lock up. -/
def release (seat : Seat) (store : Shared) (now : Moment) :
    Seat × Shared × Except Error Bool :=
  seat.releaseFrom store now 2 .looking

end Seat

namespace Table

/-- Does one step. A step of a client that is not there does nothing. -/
def step (t : Table) : Step → Table × Answer
  | .acquire who wall =>
    match t.seats[who]? with
    | none => (t, .done)
    | some seat =>
      match seat.acquire t.store ⟨t.now, wall⟩ with
      | (seat, store, .ok outcome) =>
        ({ t with seats := t.seats.set who seat, store := store }, .acquired outcome)
      | (seat, store, .error e) =>
        ({ t with seats := t.seats.set who seat, store := store }, .failed e)
  | .release who wall =>
    match t.seats[who]? with
    | none => (t, .done)
    | some seat =>
      match seat.release t.store ⟨t.now, wall⟩ with
      | (seat, store, .ok done) =>
        ({ t with seats := t.seats.set who seat, store := store }, .released done)
      | (seat, store, .error e) =>
        ({ t with seats := t.seats.set who seat, store := store }, .failed e)
  | .advance span => ({ t with now := Clock.after t.now span }, .done)
  | .put record =>
    match t.store.overwrite t.key record with
    | (store, .written version) => ({ t with store := store }, .written version)
    | (store, .failed e) => ({ t with store := store }, .failed e)
    | (store, .found _) => ({ t with store := store }, .done)
  | .fault who fault =>
    match t.seats[who]? with
    | none => (t, .done)
    | some seat =>
      ({ t with seats := t.seats.set who { seat with link := seat.link.expect fault } }, .done)

/-- Does the steps of a script one after another. -/
def run (t : Table) : List Step → List (Table × Answer)
  | [] => []
  | step :: rest =>
    let next := t.step step
    next :: next.1.run rest

/-- The record in the store. -/
def stored (t : Table) : Reply := (t.store.answer t.key .get).2

end Table

end Tenure.Lease
