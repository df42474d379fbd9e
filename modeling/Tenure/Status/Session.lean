import Tenure.Status.Document
import Tenure.Ticker

/-!
# `Tenure.Status.Session`: reporting while an operator leads

A session publishes that the operator starts, then at every tick that it runs,
and when its token is cancelled that it has stopped; then it is completed. Each
publication is awaited, and a failed one counts as any other. Documents of the
running operator all give the time of the first of them. A session without an
interval breaks down after its first publication.

A session is told when a publication has returned (`published`); everything else
it does by itself (`advance`).

* `resolved_iff`: a session is over when it has completed or broken down.
-/

set_option autoImplicit false

namespace Tenure.Status

/-- Who reports what, and how often. -/
structure Profile where
  name : String
  version : String
  reporter : String
  relatedObjects : List RelatedObject
  interval : Duration
deriving Repr, DecidableEq, Inhabited

namespace Session

/-- Where a session stands. -/
inductive Stage
  | fresh
  /-- A document is being published. -/
  | publishing (document : Document)
  /-- Waiting for a tick, or for the end. -/
  | waiting
  | completed
  | brokenDown
deriving Repr, DecidableEq, Inhabited

end Session

/-- A session of reporting. -/
structure Session where
  profile : Profile
  stage : Session.Stage
  ticker : Option Ticker
  /-- The wall-clock time of the first document of the running operator. -/
  runningSince : Option UInt64
deriving Repr, DecidableEq, Inhabited

/-- The document of a profile in a phase, at a wall-clock time. -/
def Profile.document (p : Profile) (phase : Phase) (since updated : UInt64) : Document where
  name := p.name
  version := p.version
  reporter := p.reporter
  phase := phase
  conditions := phase.conditions since
  relatedObjects := p.relatedObjects
  updated := updated

namespace Session

/-- A session that has done nothing yet. -/
def new (profile : Profile) : Session := ⟨profile, .fresh, none, none⟩

/-- The wall clock as a document gives it. -/
def wallTime (now : Moment) : UInt64 := UInt64.ofNat now.wall

/-- Publishes that the operator starts. -/
def start (s : Session) (now : Moment) : Session :=
  { s with stage := .publishing (s.profile.document .starting (wallTime now) (wallTime now)) }

/-- Takes a tick and publishes that the operator runs. -/
def tick (s : Session) (ticker : Ticker) (now : Moment) : Session :=
  let since := s.runningSince.getD (wallTime now)
  { s with
    ticker := some (ticker.take now.instant)
    runningSince := some since
    stage := .publishing (s.profile.document .running since (wallTime now)) }

/-- Publishes that the operator has stopped. -/
def stop (s : Session) (now : Moment) : Session :=
  { s with stage := .publishing (s.profile.document .stopped (wallTime now) (wallTime now)) }

/-- What a session does by itself now, if anything. -/
def advance (s : Session) (now : Moment) (cancelled : Bool) : Option Session :=
  match s.stage, s.ticker with
  | .fresh, _ => some (s.start now)
  | .waiting, some ticker =>
    if cancelled then some (s.stop now)
    else if ticker.isDue now.instant then some (s.tick ticker now)
    else none
  | _, _ => none

/-- The document that is being published. -/
def pending (s : Session) : Option Document :=
  match s.stage with
  | .publishing document => some document
  | _ => none

/-- The publication of a document has returned. -/
def published (s : Session) (now : Nat) : Session :=
  match s.stage with
  | .publishing document =>
    match document.phase with
    | .starting =>
      match Ticker.start s.profile.interval now with
      | none => { s with stage := .brokenDown }
      | some ticker => { s with stage := .waiting, ticker := some ticker }
    | .running => { s with stage := .waiting }
    | .stopped => { s with stage := .completed }
  | _ => s

/-- Whether the completion signal of a session has resolved. -/
def isResolved (s : Session) : Bool :=
  match s.stage with
  | .completed | .brokenDown => true
  | _ => false

/-- The instant for which the next timer of a session is set. -/
def due (s : Session) : Option Nat :=
  match s.stage with
  | .waiting => s.ticker.map Ticker.next
  | _ => none

/-- Nothing more comes of a session exactly when it has completed or broken down. -/
theorem resolved_iff (s : Session) :
    s.isResolved = true ↔ s.stage = .completed ∨ s.stage = .brokenDown := by
  unfold isResolved
  cases s.stage <;> simp

end Session

end Tenure.Status
