import Tenure.Episode.Sequence
import Tenure.Proofs.Status.Reporter

/-!
# `Tenure.Proofs.Episode.Course`: the course of an episode with all its parts

An episode with its reporter and its controllers, in any order of steps. The
controllers end when and how they like, the sink takes its time, and the token of
the episode may be cancelled at any time, or never.

The token of the reporter hangs below the token of the episode. So as soon as the
episode is cancelled the reporter comes to its final observation, and the
controllers may still be at work; when the control loop ends by itself, the
reporter is stopped after it.

* `Course.Reachable.teardown_exact`: an episode ends after its control loop and its
  reporter; while the control loop runs, the final observation waits for its end
  exactly when the token of the episode is not cancelled.
-/

set_option autoImplicit false

namespace Tenure.Episode

open Control Status

/-- An episode at work, and what the clock shows. -/
structure Course where
  sequence : Sequence
  /-- The run of the controllers, once it has started. -/
  run : Option Run
  reporter : Reporter
  now : Nat

namespace Course

/-- An episode at its start, whose token may be cancelled already. -/
def start (kind : Reporter.Kind) (cancelled : Bool) (now : Nat) : Course :=
  ⟨.start cancelled, none, .start kind, now⟩

/-- The token of the episode is cancelled. -/
def cancel (c : Course) : Course :=
  { c with sequence := c.sequence.cancel, run := c.run.map Run.cancel }

/-- The defaults were read, and the controllers that are built with them start. -/
def populate {γ : Type} (c : Course) (manager : Manager γ)
    (result : Except DefaultsError Defaults) : Course :=
  match c.sequence.populated manager result with
  | (sequence, manager) =>
    { c with
      sequence := sequence
      run := match sequence.stage with
        | .controlling => some (manager.start sequence.cancelled).1
        | _ => none }

/-- One thing that happens in an episode, other than its cancellation. -/
inductive Move : Course → Course → Prop
  /-- The defaults were read. -/
  | populate (c : Course) {γ : Type} (manager : Manager γ)
      (result : Except DefaultsError Defaults) (hstage : c.sequence.stage = .populating) :
      Move c (c.populate manager result)
  /-- A controller ends. -/
  | finish (c : Course) (run : Run) (index : Nat) (result : Except Error Unit)
      (hrun : c.run = some run) (hrunning : run.ended[index]? = some false) :
      Move c { c with run := some (run.finish index result) }
  /-- The control loop ends. -/
  | loopEnded (c : Course) (run : Run) (result : Except Error Unit)
      (hstage : c.sequence.stage = .controlling) (hrun : c.run = some run)
      (hresult : run.result? = some result) :
      Move c { c with sequence := c.sequence.loopEnded result }
  /-- The reporter does something by itself. -/
  | report (c : Course) (wall : Nat) (reporter : Reporter) (signs : List Task.Sign)
      (hadvance : c.reporter.advance ⟨c.now, wall⟩ c.sequence.reporterStops
        = some (reporter, signs)) :
      Move c { c with reporter := reporter }
  /-- A document was published. -/
  | publish (c : Course) (document : Document) (hpending : c.reporter.pending = some document) :
      Move c { c with reporter := c.reporter.published c.now }
  /-- The reporter was awaited. -/
  | complete (c : Course) (result : Result) (hstage : c.sequence.stage = .stopping result)
      (hresolved : c.reporter.isResolved = true) :
      Move c { c with sequence := c.sequence.completed }
  /-- Time passes. -/
  | pass (c : Course) (t : Nat) (hle : c.now ≤ t) : Move c { c with now := t }

/-- What an episode with a reporter of a kind may come to. -/
inductive Reachable (kind : Reporter.Kind) : Course → Prop
  | start (cancelled : Bool) (now : Nat) : Reachable kind (start kind cancelled now)
  | cancel {c : Course} (h : Reachable kind c) : Reachable kind c.cancel
  | move {c c' : Course} (h : Reachable kind c) (hmove : Move c c') : Reachable kind c'

/-- What an episode may come to from a point on when its token is not cancelled
from there on. -/
inductive Later (c : Course) : Course → Prop
  | refl : Later c c
  | move {c' c'' : Course} (h : Later c c') (hmove : Move c' c'') : Later c c''

/-- The parts of an episode agree: the control loop runs once the sequence has come
to it, it has ended when the sequence has gone on, and the reporter has completed
when the episode has ended. -/
def Coherent (c : Course) : Prop :=
  match c.sequence.stage with
  | .populating => c.run = none
  | .controlling => ∃ run, c.run = some run ∧ run.cancelled = c.sequence.cancelled
  | .stopping _ => ∀ run ∈ c.run, run.result?.isSome = true
  | .ended _ => (∀ run ∈ c.run, run.result?.isSome = true) ∧ c.reporter.isResolved = true

variable {kind : Reporter.Kind} {c c' c'' : Course}

/-! ### The parts agree -/

/-- A run that is over stays so when its token is cancelled. -/
theorem isSome_result_cancel {run : Run} (h : run.result?.isSome = true) :
    run.cancel.result?.isSome = true := by
  unfold Run.result? at h ⊢
  have hended : run.cancel.ended = run.ended := rfl
  have hfailure : run.cancel.failure = run.failure := rfl
  rw [hended, hfailure]
  split at h
  · rename_i hall
    rw [if_pos hall]
    cases run.failure with
    | some error => rfl
    | none => rfl
  · cases h

/-- In a run that is over no controller is left. -/
theorem ended_of_result {run : Run} (h : run.result?.isSome = true) (index : Nat) :
    run.ended[index]? ≠ some false := by
  intro hrunning
  unfold Run.result? at h
  split at h
  · rename_i hall
    have hended := List.all_eq_true.mp hall false (List.mem_of_getElem? hrunning)
    cases hended
  · cases h

/-- The controllers start when nothing is wrong, and not otherwise. -/
theorem coherent_populate {γ : Type} (manager : Manager γ)
    (result : Except DefaultsError Defaults) : (c.populate manager result).Coherent := by
  unfold populate Sequence.populated
  cases result with
  | error e =>
    intro run hrun
    cases hrun
  | ok defaults =>
    rcases hregister : manager.register defaults with ⟨manager', e | _⟩
    · simp only [hregister]
      intro run hrun
      cases hrun
    · simp only [hregister]
      exact ⟨_, rfl, rfl⟩

/-- A cancellation keeps the session and its reporter in step. -/
theorem Coherent.cancel (h : c.Coherent) : c.cancel.Coherent := by
  unfold Coherent at h ⊢
  have hstage : c.cancel.sequence.stage = c.sequence.stage := rfl
  rw [hstage]
  split at h
  · simp [Course.cancel, h]
  · obtain ⟨run, hrun, hcancelled⟩ := h
    exact ⟨run.cancel, by simp [Course.cancel, hrun], rfl⟩
  · intro run hrun
    obtain ⟨run', hrun', rfl⟩ := Option.map_eq_some_iff.mp hrun
    exact isSome_result_cancel (h run' hrun')
  · refine ⟨fun run hrun => ?_, h.2⟩
    obtain ⟨run', hrun', rfl⟩ := Option.map_eq_some_iff.mp hrun
    exact isSome_result_cancel (h.1 run' hrun')

/-- A reporter that goes on leaves the parts in agreement unless the episode has
ended. -/
theorem Coherent.report (h : c.Coherent) {reporter : Reporter}
    (hrunning : c.reporter.isResolved = false) :
    Coherent { c with reporter := reporter } := by
  unfold Coherent at h ⊢
  simp only
  split at h
  · exact h
  · exact h
  · exact h
  · simp [hrunning] at h

/-- Every move keeps the session and its reporter in step. -/
theorem Coherent.move (h : c.Coherent) (hmove : Move c c') : c'.Coherent := by
  cases hmove with
  | populate manager result hstage => exact coherent_populate manager result
  | finish run index result hrun hrunning =>
    unfold Coherent at h ⊢
    simp only
    split at h
    · simp [hrun] at h
    · obtain ⟨run', hrun', hcancelled⟩ := h
      obtain rfl : run' = run := Option.some.inj (hrun'.symm.trans hrun)
      exact ⟨_, rfl, hcancelled⟩
    · -- a run with a result has no controller left that could finish
      exact absurd hrunning (ended_of_result (h run hrun) index)
    · exact absurd hrunning (ended_of_result (h.1 run hrun) index)
  | loopEnded run result hstage hrun hresult =>
    intro run' hrun'
    obtain rfl : run = run' := Option.some.inj (hrun.symm.trans hrun')
    rw [hresult]
    rfl
  | report wall reporter signs hadvance =>
    -- a reporter that has completed does not move, so it had not
    refine h.report ?_
    cases hresolved : c.reporter.isResolved with
    | false => rfl
    | true => simp [Reporter.advance_of_resolved hresolved] at hadvance
  | publish document hpending =>
    refine h.report ?_
    cases hresolved : c.reporter.isResolved with
    | false => rfl
    | true => simp [Reporter.pending_of_resolved hresolved] at hpending
  | complete result hstage hresolved =>
    simp only [Coherent, hstage] at h
    simp only [Coherent, Sequence.completed, hstage]
    exact ⟨h, hresolved⟩
  | pass t hle => exact h

/-- The session and its reporter are in step in every state of a course. -/
theorem Reachable.coherent (h : Reachable kind c) : c.Coherent := by
  induction h with
  | start cancelled now => rfl
  | cancel _ ih => exact ih.cancel
  | move _ hmove ih => exact ih.move hmove

/-! ### The reporter follows its token -/

/-- Reading the defaults does not cancel the token of the episode. -/
theorem populated_cancelled {γ : Type} (s : Sequence) (manager : Manager γ)
    (result : Except DefaultsError Defaults) :
    (s.populated manager result).1.cancelled = s.cancelled := by
  unfold Sequence.populated
  split
  · rfl
  · split <;> rfl

/-- The token of the reporter stays cancelled. -/
theorem Move.reporterStops (h : Move c c') (hstops : c.sequence.reporterStops = true) :
    c'.sequence.reporterStops = true := by
  -- before the defaults are read only a cancelled token stops the reporter, and it stays cancelled
  cases h with
  | populate manager result hstage =>
    have hcancelled : c.sequence.cancelled = true := by
      simpa [Sequence.reporterStops, hstage] using hstops
    show (c.sequence.populated manager result).1.reporterStops = true
    simp [Sequence.reporterStops, populated_cancelled, hcancelled]
  | loopEnded run result hstage hrun hresult =>
    simp [Sequence.reporterStops, Sequence.loopEnded]
  | complete result hstage hresolved =>
    simp [Sequence.reporterStops, Sequence.completed, hstage]
  | finish run index result hrun hrunning => exact hstops
  | report wall reporter signs hadvance => exact hstops
  | publish document hpending => exact hstops
  | pass t hle => exact hstops

/-- A reporter that follows its token goes on following it over every move. -/
theorem Move.following (h : Move c c')
    (hfollowing : c.reporter.Following c.sequence.reporterStops) :
    c'.reporter.Following c'.sequence.reporterStops := by
  have hstops := h.reporterStops
  cases h with
  | report wall reporter signs hadvance => exact hfollowing.advance hadvance
  | publish document hpending => exact hfollowing.published _
  | populate manager result hstage => exact hfollowing.mono hstops
  | loopEnded run result hstage hrun hresult => exact hfollowing.mono hstops
  | complete result hstage hresolved => exact hfollowing.mono hstops
  | finish run index result hrun hrunning => exact hfollowing
  | pass t hle => exact hfollowing

/-- A reporter of a kind that follows its token does so in every state of a course. -/
theorem Reachable.following (h : Reachable kind c) (hfollows : kind.follows = true) :
    c.reporter.Following c.sequence.reporterStops := by
  induction h with
  | start cancelled now => exact Reporter.following_start hfollows
  | @cancel c _ ih =>
    rw [show c.cancel.sequence.reporterStops = true from c.sequence.reporterStops_cancel]
    exact ih.cancel
  | move _ hmove ih => exact hmove.following ih

/-- While the control loop runs, the token of the reporter is cancelled with that
of the episode only. -/
theorem reporterStops_of_controlling {s : Sequence} (hstage : s.stage = .controlling) :
    s.reporterStops = s.cancelled := by
  simp [Sequence.reporterStops, hstage]

/-- An episode that has a result has ended. -/
theorem stage_of_result {s : Sequence} {result : Result} (h : s.result? = some result) :
    s.stage = .ended result := by
  unfold Sequence.result? at h
  split at h
  · rename_i hstage
    rw [hstage, Option.some.inj h]
  · cases h

/-! ### What may follow -/

/-- What comes later than something later is later. -/
theorem Later.trans (h : Later c c') (h' : Later c' c'') : Later c c'' := by
  induction h' with
  | refl => exact h
  | move _ hmove ih => exact .move ih hmove

/-- Without a cancellation the token of the episode stays as it is. -/
theorem Move.cancelled_eq (h : Move c c') : c'.sequence.cancelled = c.sequence.cancelled := by
  cases h with
  | populate manager result hstage => exact populated_cancelled _ manager result
  | complete result hstage hresolved => simp [Sequence.completed, hstage]
  | finish _ _ _ _ _ | loopEnded _ _ _ _ _ | report _ _ _ _ | publish _ _ | pass _ _ => rfl

/-- Without a cancellation among the moves, the token keeps its state. -/
theorem Later.cancelled_eq (h : Later c c') : c'.sequence.cancelled = c.sequence.cancelled := by
  induction h with
  | refl => rfl
  | move _ hmove ih => exact hmove.cancelled_eq.trans ih

/-- A state later than a reachable one is itself reachable. -/
theorem Later.reachable (h : Later c c') (hc : Reachable kind c) : Reachable kind c' := by
  induction h with
  | refl => exact hc
  | move _ hmove ih => exact .move ih hmove

/-- The reporter may come to its final observation before anything else happens. -/
def MayFinish (c : Course) : Prop :=
  ∃ c', Later c c' ∧ c'.reporter.isFinal = true ∧ c'.sequence = c.sequence

/-- A move that leaves the session where it was gives its return no new way. -/
theorem MayFinish.of_move (hmove : Move c c') (hsame : c'.sequence = c.sequence)
    (h : c'.MayFinish) : c.MayFinish := by
  obtain ⟨c'', hlater, hfinal, hsequence⟩ := h
  exact ⟨c'', (Later.move .refl hmove).trans hlater, hfinal, hsequence.trans hsame⟩

/-- A step of the reporter comes first. -/
theorem MayFinish.of_report {reporter : Reporter} {signs : List Task.Sign}
    (hadvance : c.reporter.advance ⟨c.now, 0⟩ c.sequence.reporterStops = some (reporter, signs))
    (h : MayFinish { c with reporter := reporter }) : c.MayFinish :=
  .of_move (.report c 0 reporter signs hadvance) rfl h

/-- A publication returns first. -/
theorem MayFinish.of_publish {document : Document}
    (hpending : c.reporter.pending = some document)
    (h : MayFinish { c with reporter := c.reporter.published c.now }) : c.MayFinish :=
  .of_move (.publish c document hpending) rfl h

/-- A witness that works may complete. -/
theorem mayFinish_working {plan : Plan Unit} {wake : Nat}
    (hreporter : c.reporter = .witness ⟨plan, .working wake⟩) : c.MayFinish := by
  have hle : c.now ≤ max c.now (Clock.ring wake) := Nat.le_max_left _ _
  have hadvance : c.reporter.advance ⟨max c.now (Clock.ring wake), 0⟩ c.sequence.reporterStops
      = some (.witness ⟨plan, .ended⟩, [.ended c.sequence.reporterStops]) := by
    have hrung : Clock.reached wake (max c.now (Clock.ring wake)) = true :=
      decide_eq_true (Nat.le_max_right _ _)
    simp [hreporter, Reporter.advance, Task.advance, hrung]
  exact .of_move (.pass c _ hle) rfl (.of_report hadvance ⟨_, .refl, rfl, rfl⟩)

/-- A witness that waits may notice that its token is cancelled, and complete. -/
theorem mayFinish_waiting {plan : Plan Unit}
    (hreporter : c.reporter = .witness ⟨plan, .waiting none⟩)
    (hstops : c.sequence.reporterStops = true) : c.MayFinish := by
  have hadvance : c.reporter.advance ⟨c.now, 0⟩ c.sequence.reporterStops
      = some (.witness ⟨plan, .working (Clock.after c.now plan.work)⟩, [.noticed]) := by
    simp [hreporter, Reporter.advance, Task.advance, Task.work, hstops]
  exact .of_report hadvance (mayFinish_working rfl)

/-- A session that waits may publish that the operator has stopped. -/
theorem mayFinish_between {session : Session} {ticker : Ticker}
    (hreporter : c.reporter = .cluster session) (hstage : session.stage = .waiting)
    (hticker : session.ticker = some ticker) (hstops : c.sequence.reporterStops = true) :
    c.MayFinish := by
  have hadvance : c.reporter.advance ⟨c.now, 0⟩ c.sequence.reporterStops
      = some (.cluster (session.stop ⟨c.now, 0⟩), []) := by
    simp [hreporter, Reporter.advance, Session.advance, hstage, hticker, hstops]
  exact .of_report hadvance ⟨_, .refl, rfl, rfl⟩

/-- A session that publishes a document of the running operator may go on to the
last one. -/
theorem mayFinish_publishing {session session' : Session} {document : Document}
    {ticker : Ticker} (hreporter : c.reporter = .cluster session)
    (hstage : session.stage = .publishing document)
    (hpublished : session.published c.now = session') (hwaits : session'.stage = .waiting)
    (hticker : session'.ticker = some ticker) (hstops : c.sequence.reporterStops = true) :
    c.MayFinish := by
  have hpending : c.reporter.pending = some document := by
    simp [hreporter, Reporter.pending, Session.pending, hstage]
  have hreporter' : c.reporter.published c.now = .cluster session' := by
    rw [hreporter, ← hpublished]
    rfl
  exact .of_publish hpending (mayFinish_between hreporter' hwaits hticker hstops)

/-- A session whose first document is being published may go on to the last one. -/
theorem mayFinish_starting {session : Session} {document : Document}
    (hreporter : c.reporter = .cluster session) (hstage : session.stage = .publishing document)
    (hphase : document.phase = .starting) (hinterval : session.profile.interval.nanos ≠ 0)
    (hstops : c.sequence.reporterStops = true) : c.MayFinish := by
  have hpublished : session.published c.now
      = { session with stage := .waiting, ticker := some ⟨session.profile.interval, c.now⟩ } := by
    simp [Session.published, hstage, hphase, Ticker.start, hinterval]
  exact mayFinish_publishing hreporter hstage hpublished rfl rfl hstops

/-- When its token is cancelled a reporter may come to its final observation before
anything else happens. -/
theorem mayFinish_of_stops (h : c.reporter.Following c.sequence.reporterStops)
    (hstops : c.sequence.reporterStops = true) : c.MayFinish := by
  generalize hreporter : c.reporter = r at h
  -- one case for each state of a reporter that follows its token; from each, a few more moves lead
  -- to the final one
  cases h with
  | @fresh plan hwait =>
    have hadvance : c.reporter.advance ⟨c.now, 0⟩ c.sequence.reporterStops
        = some (.witness ⟨plan, .waiting none⟩, [.begun]) := by
      simp [hreporter, Reporter.advance, Task.advance, Task.start, hwait]
    exact .of_report hadvance (mayFinish_waiting rfl hstops)
  | waiting => exact mayFinish_waiting hreporter hstops
  | working _ => exact mayFinish_working hreporter
  | ended _ => exact ⟨c, .refl, by simp [hreporter, Reporter.isFinal, Task.isEnded], rfl⟩
  | @opening session hstage hinterval =>
    have hadvance : c.reporter.advance ⟨c.now, 0⟩ c.sequence.reporterStops
        = some (.cluster (session.start ⟨c.now, 0⟩), []) := by
      simp [hreporter, Reporter.advance, Session.advance, hstage]
    exact .of_report hadvance (mayFinish_starting rfl rfl rfl hinterval hstops)
  | starting hstage hphase hinterval =>
    exact mayFinish_starting hreporter hstage hphase hinterval hstops
  | @running session document ticker hstage hphase hticker =>
    have hpublished : session.published c.now = { session with stage := .waiting } := by
      simp [Session.published, hstage, hphase]
    exact mayFinish_publishing hreporter hstage hpublished rfl hticker hstops
  | between hstage hticker => exact mayFinish_between hreporter hstage hticker hstops
  | stopping hstage hphase _ =>
    exact ⟨c, .refl, by simp [hreporter, Reporter.isFinal, Session.isFinal, hstage, hphase], rfl⟩
  | completed hstage _ =>
    exact ⟨c, .refl, by simp [hreporter, Reporter.isFinal, Session.isFinal, hstage], rfl⟩

/-- An episode ends when its control loop has returned and its reporter has
completed. While the control loop runs, a reporter that follows its token comes to
its final observation only if the token of the episode is cancelled; and that it
waits for the control loop in whatever follows, unless the token is cancelled then,
is the case exactly when the token is not cancelled yet. -/
theorem Reachable.teardown_exact (h : Reachable kind c) (hfollows : kind.follows = true) :
    (∀ result, c.sequence.stage = .ended result →
        c.reporter.isFinal = true ∧ ∀ run ∈ c.run, run.result?.isSome = true)
      ∧ (c.sequence.stage = .controlling → c.reporter.isFinal = true →
        c.sequence.cancelled = true)
      ∧ (c.sequence.stage = .controlling →
        ((∀ c', Later c c' → c'.reporter.isFinal = true → c'.sequence.stage ≠ .controlling)
          ↔ c.sequence.cancelled = false)) := by
  -- a reporter that follows its token is final only when that is cancelled
  have final {c : Course} (h : Reachable kind c) (hstage : c.sequence.stage = .controlling)
      (hfinal : c.reporter.isFinal = true) : c.sequence.cancelled = true := by
    have hfollowing := h.following hfollows
    rw [reporterStops_of_controlling hstage] at hfollowing
    cases hcancelled : c.sequence.cancelled with
    | true => rfl
    | false =>
      rw [hcancelled] at hfollowing
      rw [hfollowing.isFinal_eq] at hfinal
      cases hfinal
  refine ⟨fun result hstage => ?_, final h, fun hstage => ⟨fun hwaits => ?_, ?_⟩⟩
  · have hcoherent := h.coherent
    simp only [Coherent, hstage] at hcoherent
    exact ⟨(h.following hfollows).final_of_resolved hcoherent.2, hcoherent.1⟩
  · -- with a cancelled token the reporter may be faster than the controllers
    cases hcancelled : c.sequence.cancelled with
    | false => rfl
    | true =>
      have hstops : c.sequence.reporterStops = true := by
        rw [reporterStops_of_controlling hstage, hcancelled]
      obtain ⟨c', hlater, hfinal, hsame⟩ := mayFinish_of_stops (h.following hfollows) hstops
      refine absurd ?_ (hwaits c' hlater hfinal)
      rw [hsame, hstage]
  · -- without a cancellation the loop stays ahead of the reporter in every later state
    intro hcancelled c' hlater hfinal hstage'
    have hcancelled' := final (hlater.reachable h) hstage' hfinal
    rw [hlater.cancelled_eq, hcancelled] at hcancelled'
    cases hcancelled'

/-- An episode with one controller and a witness that takes its time; the control
loop has just started. -/
def onstage : Course where
  sequence := ⟨false, .controlling⟩
  run := some (.start 1)
  reporter := .witness ⟨⟨.cancellation, .ofMillis 50, .done⟩, .waiting none⟩
  now := 0

/-- The session used as an example is one that a run arrives at. -/
theorem reachable_onstage : Reachable (.witness (.ofMillis 50) false) onstage := by
  have hstart : Reachable (.witness (.ofMillis 50) false)
      (start (.witness (.ofMillis 50) false) false 0) := .start false 0
  have hreport := hstart.move (.report _ 0 _ [.begun] rfl)
  have hpopulate := hreport.move
    (.populate _ ⟨[fun _ => Except.ok ()], []⟩ (.ok .empty) rfl)
  exact hpopulate

/-- The reporter waits for the control loop as long as nobody cancels the episode.
Afterwards it may be faster than the controller. -/
theorem teardown_exact_onstage :
    onstage.sequence.stage = .controlling
      ∧ (∀ c', Later onstage c' → c'.reporter.isFinal = true →
        c'.sequence.stage ≠ .controlling)
      ∧ ∃ c', Later onstage.cancel c' ∧ c'.reporter.isFinal = true
        ∧ c'.sequence.stage = .controlling := by
  obtain ⟨-, -, hbefore⟩ := reachable_onstage.teardown_exact rfl
  obtain ⟨-, -, hafter⟩ := reachable_onstage.cancel.teardown_exact rfl
  refine ⟨rfl, (hbefore rfl).mpr rfl, Classical.byContradiction fun hnone => ?_⟩
  have hwaits : onstage.cancel.sequence.cancelled = false := by
    refine (hafter rfl).mp fun c' hlater hfinal hstage => ?_
    exact hnone ⟨c', hlater, hfinal, hstage⟩
  cases hwaits

end Course

end Tenure.Episode
