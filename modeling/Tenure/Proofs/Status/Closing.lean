import Tenure.Proofs.Status.Reporter

/-!
# `Tenure.Proofs.Status.Closing`: reporters come to an end

Once its token is cancelled a reporter has only a few steps left, of whatever kind it
is: silent, a witness that keeps or drops its notifier, a session with an interval or
without one. `Reporter.remaining` counts them. Each step that the reporter takes by
itself, and each publication that returns, makes the count smaller; at zero its signal
has resolved.

* `remaining_advance` and `remaining_published`: the count goes down.
* `IsTimed.busy`: before the signal has resolved there is always something to come, a
  publication that is out or a step once its timer has rung.
-/

set_option autoImplicit false

namespace Tenure.Status

namespace Session

/-- How many steps a session has left at most once its token is cancelled. The last
document comes after the one that is being published, unless it is that one. -/
def remaining (s : Session) : Nat :=
  match s.stage with
  | .fresh => 4
  | .publishing document => if document.phase = .stopped then 1 else 3
  | .waiting => 2
  | .completed | .brokenDown => 0

/-- A session that waits, or that publishes because of a tick, has a ticker. -/
def IsTimed (s : Session) : Prop :=
  match s.stage with
  | .waiting => s.ticker.isSome = true
  | .publishing document => document.phase = .running → s.ticker.isSome = true
  | _ => True

variable {s s' : Session} {document : Document} {now : Moment} {stops : Bool}

/-- A session that has gone on has a ticker if it needs one. -/
theorem isTimed_of_advance (hadvance : s.advance now stops = some s') : s'.IsTimed := by
  unfold Session.advance at hadvance
  split at hadvance
  · cases hadvance
    exact fun hphase => (by cases hphase)
  · split at hadvance
    · cases hadvance
      exact fun hphase => (by cases hphase)
    · split at hadvance
      · cases hadvance
        exact fun _ => rfl
      · cases hadvance
  · cases hadvance

/-- A publication leaves a session its ticker. -/
theorem IsTimed.published (h : s.IsTimed) (instant : Nat) : (s.published instant).IsTimed := by
  unfold Session.published
  split
  · rename_i document hstage
    simp only [IsTimed, hstage] at h
    split
    · -- without an interval the session breaks down, else it has a ticker
      cases hticker : Ticker.start s.profile.interval instant with
      | none => trivial
      | some ticker => exact rfl
    · rename_i hphase
      exact h hphase
    · trivial
  · exact h

/-- Once its token is cancelled, every step of a session brings it closer to its end. -/
theorem remaining_advance (hadvance : s.advance now true = some s') :
    s'.remaining < s.remaining := by
  unfold Session.advance at hadvance
  split at hadvance
  · rename_i hstage
    cases hadvance
    simp [remaining, hstage, Session.start, Profile.document]
  · rename_i hstage _
    cases hadvance
    simp [remaining, hstage, Session.stop, Profile.document]
  · cases hadvance

/-- Every publication that returns brings a session closer to its end. -/
theorem remaining_published (hpending : s.pending = some document) (instant : Nat) :
    (s.published instant).remaining < s.remaining := by
  have hstage : s.stage = .publishing document := by
    unfold Session.pending at hpending
    split at hpending
    · rename_i hstage
      rw [hstage, Option.some.inj hpending]
    · cases hpending
  cases hphase : document.phase with
  | starting =>
    cases hticker : Ticker.start s.profile.interval instant <;>
      simp [Session.published, remaining, hstage, hphase, hticker]
  | running | stopped => simp [Session.published, remaining, hstage, hphase]

end Session

namespace Reporter

/-- How many steps a reporter has left at most once its token is cancelled. -/
def remaining : Reporter → Nat
  | silent => 0
  | witness task =>
    match task.stage with
    | .fresh => 3
    | .waiting _ => 2
    | .working _ => 1
    | .ended => 0
  | cluster session => session.remaining

/-- A reporter that waits for a tick has a ticker. -/
def IsTimed : Reporter → Prop
  | cluster session => session.IsTimed
  | _ => True

variable {r r' : Reporter} {document : Document} {now : Moment} {stops : Bool}
  {signs : List Task.Sign}

/-- A reporter at its start waits for nothing. -/
theorem isTimed_start (kind : Kind) : (start kind).IsTimed := by
  cases kind <;> trivial

/-- A reporter that has gone on has a ticker if it needs one. -/
theorem isTimed_of_advance (hadvance : r.advance now stops = some (r', signs)) :
    r'.IsTimed := by
  cases r with
  | silent => cases hadvance
  | witness task =>
    obtain ⟨⟨task', signs'⟩, -, heq⟩ := Option.map_eq_some_iff.mp hadvance
    cases heq
    trivial
  | cluster session =>
    obtain ⟨session', hsession, heq⟩ := Option.map_eq_some_iff.mp hadvance
    cases heq
    exact Session.isTimed_of_advance hsession

/-- A publication leaves a reporter its ticker. -/
theorem IsTimed.published (h : r.IsTimed) (instant : Nat) : (r.published instant).IsTimed := by
  cases r with
  | silent | witness task => exact h
  | cluster session => exact Session.IsTimed.published h instant

/-- With its token cancelled, a reporter that takes a step has fewer left. -/
theorem remaining_advance (hadvance : r.advance now true = some (r', signs)) :
    r'.remaining < r.remaining := by
  cases r with
  | silent => cases hadvance
  | witness task =>
    obtain ⟨⟨task', signs'⟩, htask, heq⟩ := Option.map_eq_some_iff.mp hadvance
    cases heq
    obtain ⟨plan, stage⟩ := task
    -- a witness waits, works and ends, each stage once
    cases stage with
    | fresh =>
      cases htask
      cases hwait : plan.wait <;> simp [remaining, Task.start, Task.work, hwait]
    | waiting limit =>
      cases htask
      simp [remaining, Task.work]
    | working wake =>
      simp only [Task.advance] at htask
      split at htask <;> cases htask
      simp [remaining]
    | ended => cases htask
  | cluster session =>
    obtain ⟨session', hsession, heq⟩ := Option.map_eq_some_iff.mp hadvance
    cases heq
    exact Session.remaining_advance hsession

/-- A reporter whose publication has returned has fewer steps left. -/
theorem remaining_published (hpending : r.pending = some document) (instant : Nat) :
    (r.published instant).remaining < r.remaining := by
  cases r with
  | silent | witness task => cases hpending
  | cluster session => exact Session.remaining_published hpending instant

/-- Before its signal has resolved, a reporter with a cancelled token has a publication
out, or takes a step as soon as an instant has come. -/
theorem IsTimed.busy (h : r.IsTimed) (hresolved : r.isResolved = false) :
    (∃ document, r.pending = some document)
      ∨ ∃ due, ∀ now : Moment, due ≤ now.instant → (r.advance now true).isSome = true := by
  cases r with
  | silent => cases hresolved
  | witness task =>
    obtain ⟨plan, stage⟩ := task
    refine .inr ?_
    cases stage with
    | fresh | waiting limit => exact ⟨0, fun now _ => rfl⟩
    | working wake =>
      refine ⟨Clock.ring wake, fun now hle => ?_⟩
      have hreached : Clock.reached wake now.instant = true := decide_eq_true hle
      simp [Reporter.advance, Task.advance, hreached]
    | ended => cases hresolved
  | cluster session =>
    -- while it waits, a session whose token is cancelled goes on at once, as the ticker is not
    -- waited for
    cases hstage : session.stage with
    | fresh => exact .inr ⟨0, fun now _ => by simp [Reporter.advance, Session.advance, hstage]⟩
    | publishing document => exact .inl ⟨document, by simp [pending, Session.pending, hstage]⟩
    | waiting =>
      have hticker : session.ticker.isSome = true := by
        simpa only [IsTimed, Session.IsTimed, hstage] using h
      obtain ⟨ticker, hticker⟩ := Option.isSome_iff_exists.mp hticker
      exact .inr ⟨0, fun now _ => by simp [Reporter.advance, Session.advance, hstage, hticker]⟩
    | completed | brokenDown => simp [isResolved, Session.isResolved, hstage] at hresolved

end Reporter

end Tenure.Status
