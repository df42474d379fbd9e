import Tenure.Leader.Candidate
import Tenure.Simulation.Clock
import Tenure.Task

/-!
# `Tenure.Simulation.Election`: candidates for one lock

Several candidates share a store and compete for a lock. The episodes of each
have a body that follows a plan. Every candidate keeps a log of what happens to
its episodes, and what all of them measure is counted together.
-/

set_option autoImplicit false

namespace Tenure.Simulation

open Leader

/-- What is written down about a candidate. -/
inductive Entry
  | newLeader (holder : String)
  | started
  /-- The body of the episode has seen its token cancelled. -/
  | cancelled
  /-- The body of the episode has returned. -/
  | returned
  | stopped
deriving Repr, DecidableEq

def Entry.text : Entry → String
  | newLeader holder => "new_leader:" ++ holder
  | started => "started"
  | cancelled => "cancelled"
  | returned => "returned"
  | stopped => "stopped"

/-- A candidate, what the bodies of its episodes do, and its log. -/
structure Entrant where
  candidate : Candidate
  plan : Plan Unit
  /-- Whether the candidate has been started. -/
  running : Bool
  body : Option (Task Unit)
  /-- What happened, and when. -/
  log : List (Nat × Entry)
deriving Inhabited

/-- Candidates and the store that they share. -/
structure Election where
  store : Store.Shared
  entrants : List Entrant
  metrics : Metrics
  now : Nat
  /-- What the wall clock shows when the other one shows zero. -/
  epoch : Nat
deriving Inhabited

namespace Entrant

/-- A candidate that was not started. -/
def new (client : Lease.Client) (timing : Timing) (releaseOnCancel : Bool) (plan : Plan Unit) :
    Entrant :=
  ⟨⟨.new client timing releaseOnCancel 0, .healthy, none⟩, plan, false, none, []⟩

/-- Adds to the log of a candidate. -/
def write (e : Entrant) (now : Nat) (entry : Entry) : Entrant :=
  { e with log := e.log ++ [(now, entry)] }

/-- Takes down what the elector says; an episode that starts has a new body. -/
def note (now : Nat) (state : Entrant × Metrics) (n : Note) : Entrant × Metrics :=
  let (e, metrics) := state
  match n with
  | .newLeader holder => (e.write now (.newLeader holder), metrics)
  | .started => ({ e.write now .started with body := some (.new e.plan) }, metrics)
  | .cancelled => (e, metrics)
  | .stopped => (e.write now .stopped, metrics)
  | .measured m => (e, metrics.record m)

/-- Whether the token of the episode is cancelled. -/
def isCancelled (e : Entrant) : Bool := e.candidate.elector.episode.any Episode.cancelled

/-- Takes down what the body shows. A body that panics does not return. -/
def sign (now : Nat) (e : Entrant) : Task.Sign → Entrant
  | .begun => e
  | .noticed => e.write now .cancelled
  | .ended _ =>
    let e := match e.plan.ending with
      | .panicked _ => e
      | _ => e.write now .returned
    { e with candidate := { e.candidate with elector := e.candidate.elector.endBody } }

/-- The next step of the body, if it can take one now. -/
def stepBody (e : Entrant) (now : Nat) : Option Entrant := do
  let body ← e.body
  let (body, signs) ← body.advance now e.isCancelled
  return signs.foldl (sign now) { e with body := some body }

/-- The next step of the candidate or of its body. -/
def step (e : Entrant) (store : Store.Shared) (metrics : Metrics) (now : Moment) :
    Option (Entrant × Store.Shared × Metrics) :=
  if !e.running then none
  else
    match e.candidate.advance store now e.candidate.elector.timing.retryPeriod with
    | some (candidate, store, notes) =>
      let (e, metrics) :=
        notes.foldl (note now.instant) ({ e with candidate := candidate }, metrics)
      some (e, store, metrics)
    | none => (e.stepBody now.instant).map fun e => (e, store, metrics)

/-- The instants for which timers are set. -/
def timers (e : Entrant) : List (Option Nat) :=
  if e.running then e.candidate.timers ++ [e.body.bind Task.due] else []

end Entrant

namespace Election

/-- The first entrant that can take a step takes it. -/
def stepFirst (store : Store.Shared) (metrics : Metrics) (now : Moment) :
    List Entrant → Option (List Entrant × Store.Shared × Metrics)
  | [] => none
  | e :: rest =>
    match e.step store metrics now with
    | some (e, store, metrics) => some (e :: rest, store, metrics)
    | none =>
      (stepFirst store metrics now rest).map fun (rest, store, metrics) =>
        (e :: rest, store, metrics)

/-- What both clocks show. -/
def moment (w : Election) : Moment := ⟨w.now, w.epoch + w.now / 1000000⟩

instance : World Election where
  now w := w.now
  moveTo w t := { w with now := t }
  now_moveTo _ _ := rfl
  step w :=
    (stepFirst w.store w.metrics w.moment w.entrants).map fun (entrants, store, metrics) =>
      { w with entrants := entrants, store := store, metrics := metrics }
  due w := earliest (w.entrants.flatMap Entrant.timers)

/-- Does something to one entrant. -/
def change (w : Election) (who : Nat) (f : Entrant → Entrant) : Election :=
  { w with entrants := w.entrants.modify who f }

/-- Starts a candidate. -/
def start (w : Election) (who : Nat) : Election := w.change who fun e => { e with running := true }

/-- Tells a candidate to shut down. -/
def cancel (w : Election) (who : Nat) : Election :=
  w.change who fun e =>
    { e with candidate := { e.candidate with elector := e.candidate.elector.cancel.1 } }

/-- Tells every candidate to shut down. -/
def cancelAll (w : Election) : Election :=
  { w with entrants := w.entrants.map fun e =>
    { e with candidate := { e.candidate with elector := e.candidate.elector.cancel.1 } } }

/-- Someone else writes a record. -/
def overwrite (w : Election) (key : Key) (record : Record) : Election :=
  { w with store := (w.store.overwrite key record).1 }

/-- Changes the link of a candidate. -/
def changeLink (w : Election) (who : Nat) (f : Store.Link → Store.Link) : Election :=
  w.change who fun e => { e with candidate := { e.candidate with link := f e.candidate.link } }

end Election

end Tenure.Simulation
