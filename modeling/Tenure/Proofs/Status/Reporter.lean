import Tenure.Status.Reporter

/-!
# `Tenure.Proofs.Status.Reporter`: reporters that follow their token

A witness that keeps its notifier, and a cluster reporter with an interval, report
until their token is cancelled. Then they come to their final observation: the
witness completes, the cluster reporter publishes that the operator has stopped.

`Reporter.Following` lists the states of such a reporter. It is kept by whatever
the reporter does, and by the cancellation of its token.

* `Following.isFinal_eq`: while its token is not cancelled, a reporter does not come
  to its final observation.
* `Following.final_of_resolved`: its signal resolves with the final observation or
  after it.
-/

set_option autoImplicit false

namespace Tenure.Status

/-- Whether a session has come to its last document: that the operator has stopped
is being published, or was published. -/
def Session.isFinal (s : Session) : Bool :=
  match s.stage with
  | .publishing document => document.phase == .stopped
  | .completed => true
  | _ => false

namespace Reporter

/-- Whether a reporter has come to its final observation. A silent one observes
nothing. -/
def isFinal : Reporter → Bool
  | silent => false
  | witness task => task.isEnded
  | cluster session => session.isFinal

/-- Whether reporters of a kind report until their token is cancelled. -/
def Kind.follows : Kind → Bool
  | silent => false
  | witness _ drops => !drops
  | cluster profile => profile.interval.nanos != 0

/-- The states of a reporter that follows its token; `stops` tells whether that is
cancelled. -/
inductive Following (stops : Bool) : Reporter → Prop
  | fresh {plan : Plan Unit} (hwait : plan.wait = .cancellation) :
      Following stops (witness ⟨plan, .fresh⟩)
  | waiting {plan : Plan Unit} : Following stops (witness ⟨plan, .waiting none⟩)
  | working {plan : Plan Unit} {wake : Nat} (hstops : stops = true) :
      Following stops (witness ⟨plan, .working wake⟩)
  | ended {plan : Plan Unit} (hstops : stops = true) : Following stops (witness ⟨plan, .ended⟩)
  | opening {session : Session} (hstage : session.stage = .fresh)
      (hinterval : session.profile.interval.nanos ≠ 0) : Following stops (cluster session)
  | starting {session : Session} {document : Document}
      (hstage : session.stage = .publishing document) (hphase : document.phase = .starting)
      (hinterval : session.profile.interval.nanos ≠ 0) : Following stops (cluster session)
  | running {session : Session} {document : Document} {ticker : Ticker}
      (hstage : session.stage = .publishing document) (hphase : document.phase = .running)
      (hticker : session.ticker = some ticker) : Following stops (cluster session)
  | between {session : Session} {ticker : Ticker} (hstage : session.stage = .waiting)
      (hticker : session.ticker = some ticker) : Following stops (cluster session)
  | stopping {session : Session} {document : Document}
      (hstage : session.stage = .publishing document) (hphase : document.phase = .stopped)
      (hstops : stops = true) : Following stops (cluster session)
  | completed {session : Session} (hstage : session.stage = .completed) (hstops : stops = true) :
      Following stops (cluster session)

variable {stops : Bool} {r r' : Reporter}

/-- A reporter of a kind that follows its token does so from its start. -/
theorem following_start {kind : Kind} (h : kind.follows = true) : Following stops (start kind) := by
  cases kind with
  | silent => cases h
  | witness delay drops =>
    have hdrops : drops = false := by simpa [Kind.follows] using h
    subst hdrops
    exact .fresh rfl
  | cluster profile =>
    have hinterval : profile.interval.nanos ≠ 0 := by simpa [Kind.follows] using h
    exact .opening rfl hinterval

/-- The token of a reporter is cancelled. -/
theorem Following.cancel (h : Following stops r) : Following true r := by
  cases h with
  | fresh hwait => exact .fresh hwait
  | waiting => exact .waiting
  | working _ => exact .working rfl
  | ended _ => exact .ended rfl
  | opening hstage hinterval => exact .opening hstage hinterval
  | starting hstage hphase hinterval => exact .starting hstage hphase hinterval
  | running hstage hphase hticker => exact .running hstage hphase hticker
  | between hstage hticker => exact .between hstage hticker
  | stopping hstage hphase _ => exact .stopping hstage hphase rfl
  | completed hstage _ => exact .completed hstage rfl

/-- A token that is cancelled stays so. -/
theorem Following.mono (h : Following stops r) {stops' : Bool}
    (hstops : stops = true → stops' = true) : Following stops' r := by
  cases stops' with
  | true => exact h.cancel
  | false =>
    have hfalse : stops = false := by simpa using hstops
    rwa [hfalse] at h

/-- Whatever a reporter does by itself, it goes on following its token. -/
theorem Following.advance (h : Following stops r) {now : Moment} {signs : List Task.Sign}
    (hadvance : r.advance now stops = some (r', signs)) : Following stops r' := by
  cases h with
  | @fresh plan hwait =>
    simp only [Reporter.advance, Task.advance, Task.start, hwait, Option.map_some] at hadvance
    cases hadvance
    exact .waiting
  | waiting =>
    -- it goes to work when it notices that its token is cancelled
    cases stops with
    | true =>
      cases hadvance
      exact .working rfl
    | false => cases hadvance
  | @working plan wake hstops =>
    simp only [Reporter.advance, Task.advance] at hadvance
    split at hadvance
    · cases hadvance
      exact .ended hstops
    · cases hadvance
  | ended hstops => cases hadvance
  | @opening session hstage hinterval =>
    simp only [Reporter.advance, Session.advance, hstage, Option.map_some] at hadvance
    cases hadvance
    exact .starting rfl rfl hinterval
  | starting hstage hphase hinterval =>
    simp [Reporter.advance, Session.advance, hstage] at hadvance
  | running hstage hphase hticker => simp [Reporter.advance, Session.advance, hstage] at hadvance
  | @between session ticker hstage hticker =>
    simp only [Reporter.advance, Session.advance, hstage, hticker] at hadvance
    split at hadvance
    · rename_i hstops
      cases hadvance
      exact .stopping rfl rfl hstops
    · split at hadvance
      · cases hadvance
        exact .running rfl rfl rfl
      · cases hadvance
  | stopping hstage hphase hstops => simp [Reporter.advance, Session.advance, hstage] at hadvance
  | completed hstage hstops => simp [Reporter.advance, Session.advance, hstage] at hadvance

/-- A publication that has returned leaves a reporter following its token. -/
theorem Following.published (h : Following stops r) (now : Nat) :
    Following stops (r.published now) := by
  cases h with
  | fresh hwait => exact .fresh hwait
  | waiting => exact .waiting
  | working hstops => exact .working hstops
  | ended hstops => exact .ended hstops
  | @opening session hstage hinterval =>
    simp only [Reporter.published, Session.published, hstage]
    exact .opening hstage hinterval
  -- the ticker starts when the first document has been published
  | @starting session document hstage hphase hinterval =>
    simp only [Reporter.published, Session.published, hstage, hphase, Ticker.start,
      if_neg hinterval]
    exact .between rfl rfl
  | @running session document ticker hstage hphase hticker =>
    simp only [Reporter.published, Session.published, hstage, hphase]
    exact .between rfl hticker
  | @between session ticker hstage hticker =>
    simp only [Reporter.published, Session.published, hstage]
    exact .between hstage hticker
  | @stopping session document hstage hphase hstops =>
    simp only [Reporter.published, Session.published, hstage, hphase]
    exact .completed rfl hstops
  | @completed session hstage hstops =>
    simp only [Reporter.published, Session.published, hstage]
    exact .completed hstage hstops

/-- While its token is not cancelled, a reporter does not come to its final
observation. -/
theorem Following.isFinal_eq (h : Following false r) : r.isFinal = false := by
  cases h with
  | fresh hwait => rfl
  | waiting => rfl
  | working hstops => cases hstops
  | ended hstops => cases hstops
  | opening hstage hinterval => simp [isFinal, Session.isFinal, hstage]
  | starting hstage hphase hinterval => simp [isFinal, Session.isFinal, hstage, hphase]
  | running hstage hphase hticker => simp [isFinal, Session.isFinal, hstage, hphase]
  | between hstage hticker => simp [isFinal, Session.isFinal, hstage]
  | stopping hstage hphase hstops => cases hstops
  | completed hstage hstops => cases hstops

/-- The signal of a reporter resolves with its final observation or after it. -/
theorem Following.final_of_resolved (h : Following stops r) (hresolved : r.isResolved = true) :
    r.isFinal = true := by
  cases h with
  | fresh hwait => exact hresolved
  | waiting => exact hresolved
  | working hstops => exact hresolved
  | ended hstops => rfl
  | opening hstage hinterval => simp [isResolved, Session.isResolved, hstage] at hresolved
  | starting hstage hphase hinterval =>
    simp [isResolved, Session.isResolved, hstage] at hresolved
  | running hstage hphase hticker => simp [isResolved, Session.isResolved, hstage] at hresolved
  | between hstage hticker => simp [isResolved, Session.isResolved, hstage] at hresolved
  | stopping hstage hphase hstops => simp [isFinal, Session.isFinal, hstage, hphase]
  | completed hstage hstops => simp [isFinal, Session.isFinal, hstage]

/-- A reporter whose signal has resolved does nothing more. -/
theorem advance_of_resolved (hresolved : r.isResolved = true) (now : Moment) (stops : Bool) :
    r.advance now stops = none := by
  cases r with
  | silent => rfl
  | witness task =>
    have hended : task.isEnded = true := hresolved
    simp [Reporter.advance, task.advance_ended now.instant stops hended]
  | cluster session =>
    rcases session.resolved_iff.mp hresolved with hstage | hstage <;>
      simp [Reporter.advance, Session.advance, hstage]

/-- A reporter that has completed publishes nothing any more. -/
theorem pending_of_resolved (hresolved : r.isResolved = true) : r.pending = none := by
  cases r with
  | silent => rfl
  | witness task => rfl
  | cluster session =>
    rcases session.resolved_iff.mp hresolved with hstage | hstage <;>
      simp [pending, Session.pending, hstage]

end Reporter

end Tenure.Status
