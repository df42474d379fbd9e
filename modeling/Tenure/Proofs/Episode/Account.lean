import Tenure.Proofs.Episode.Course
import Tenure.Proofs.Status.Closing

/-!
# `Tenure.Proofs.Episode.Account`: what an episode asks for, and what it returns

An episode is written down as it goes: what it asks of its parts and what they answer,
the documents that its reporter publishes, when someone cancels its token, and when it
returns. The control loop is whatever there is: it may refuse to be registered, and once
it has started it ends at any time with any result. Reading the defaults may fail or
break down. The reporter is of any kind, the sink takes its time and may fail.

* `Yields`: the calls that an episode makes, with their answers, and the result that
  they lead to.
* `Account.IsTold.yields_iff`: as soon as the answers lead to a result the episode stops
  its reporter with it, and not before.
* `Account.Reachable.reporting_ends`: when an episode has returned, its reporter was
  stopped and awaited, and publishes nothing from there on; the result is the one that
  the answers lead to; nobody but others cancels the token; and an episode whose answers
  lead to a result can always come to return it, and returns nothing else.
* `Course.Reachable.account`: an episode whose control loop is a run of controllers is
  a case of this.
-/

set_option autoImplicit false

namespace Tenure.Episode

open Control Status
open Defaults (Reading)

/-- What is written down about an episode. -/
inductive Mark
  /-- Someone cancels the token of the episode. -/
  | cancelled
  /-- The defaults were to be read. -/
  | populated (reading : Reading)
  /-- The control loop was to be registered. -/
  | registered (result : Except Control.Error Unit)
  /-- The control loop is started. -/
  | started
  | loopEnded (result : Except Control.Error Unit)
  /-- The reporter has published a document, or failed to. -/
  | published (document : Document)
  /-- The episode returns. -/
  | returned (result : Result)

namespace Mark

/-- What the manager answers when it is given the defaults that were read. Without
defaults there is nothing to ask. -/
def ofManager {γ : Type} (manager : Manager γ) (reading : Reading) : List Mark :=
  match reading.result with
  | .error _ => []
  | .ok defaults => [registered (manager.register defaults).2]

/-- Whether the control loop is started, by the stage that follows. -/
def ofStage : Stage → List Mark
  | .controlling => [started]
  | .populating | .stopping _ | .ended _ => []

/-- Whether a part of the episode was asked for something, other than the reporter. -/
def isCall : Mark → Bool
  | populated _ | registered _ | started | loopEnded _ => true
  | cancelled | published _ | returned _ => false

/-- What was asked of the parts of an episode, in its order. -/
abbrev calls (marks : List Mark) : List Mark := marks.filter isCall

end Mark

/-- All calls of an episode with their answers, and the result that they lead to. -/
inductive Yields : List Mark → Result → Prop
  /-- There are no defaults, so there is nothing to register. -/
  | unread {reading : Reading} {e : DefaultsError} (hreading : reading.result = .error e) :
      Yields [.populated reading] (.error (.defaults e))
  /-- The control loop cannot be registered, and is not started. -/
  | refused {γ : Type} {reading : Reading} {defaults : Defaults} {manager manager' : Manager γ}
      {e : Control.Error} (hreading : reading.result = .ok defaults)
      (hregister : manager.register defaults = (manager', .error e)) :
      Yields [.populated reading, .registered (.error e)] (.error (.registration e))
  /-- The control loop has run to its end. -/
  | stopped {γ : Type} {reading : Reading} {defaults : Defaults}
      {manager manager' : Manager γ} (hreading : reading.result = .ok defaults)
      (hregister : manager.register defaults = (manager', .ok ())) :
      Yields [.populated reading, .registered (.ok ()), .started, .loopEnded (.ok ())]
        (.ok .cancelled)
  /-- The control loop has failed. -/
  | failed {γ : Type} {reading : Reading} {defaults : Defaults}
      {manager manager' : Manager γ} (hreading : reading.result = .ok defaults)
      (hregister : manager.register defaults = (manager', .ok ())) (e : Control.Error) :
      Yields [.populated reading, .registered (.ok ()), .started, .loopEnded (.error e)]
        (.ok (.loopFailed e.message))

/-- The answers lead to one result at most. -/
theorem Yields.unique {calls : List Mark} {result other : Result} (h : Yields calls result)
    (h' : Yields calls other) : result = other := by
  cases h with
  | unread hreading =>
    cases h' with
    | unread hreading' =>
      obtain rfl := Except.error.inj (hreading.symm.trans hreading')
      rfl
  | refused _ _ =>
    cases h' with
    | refused _ _ => rfl
  | stopped _ _ =>
    cases h' with
    | stopped _ _ => rfl
  | failed _ _ e =>
    cases h' with
    | failed _ _ _ => rfl

/-- The result of a control loop that was registered and started is the one that the
episode makes of its end. -/
theorem Yields.controlled {γ : Type} {reading : Reading} {defaults : Defaults}
    {manager manager' : Manager γ} (hreading : reading.result = .ok defaults)
    (hregister : manager.register defaults = (manager', .ok ()))
    (result : Except Control.Error Unit) :
    Yields [.populated reading, .registered (.ok ()), .started, .loopEnded result]
      (.ok (Sequence.outcomeOf result)) := by
  rcases result with e | ⟨⟩
  · exact .failed hreading hregister e
  · exact .stopped hreading hregister

/-- Before the control loop has ended the answers of an episode that runs one lead to
nothing yet. -/
theorem Yields.not_of_loopEnded {calls : List Mark} {answer : Except Control.Error Unit}
    {result : Result} (h : Yields (calls ++ [.loopEnded answer]) result) (other : Result) :
    ¬ Yields calls other := by
  intro hcalls
  cases hcalls with
  | unread _ => nomatch h
  | refused _ _ => nomatch h
  | stopped _ _ => nomatch h
  | failed _ _ _ => nomatch h

/-- An episode with its reporter, what the clock shows, and what is written down. -/
structure Account where
  sequence : Sequence
  reporter : Reporter
  now : Nat
  marks : List Mark

namespace Account

/-- An episode at its start, whose token may be cancelled already. -/
def start (kind : Reporter.Kind) (cancelled : Bool) (now : Nat) : Account :=
  ⟨.start cancelled, .start kind, now, if cancelled then [.cancelled] else []⟩

/-- Someone cancels the token of the episode. -/
def cancel (a : Account) : Account :=
  { a with sequence := a.sequence.cancel, marks := a.marks ++ [.cancelled] }

/-- The defaults were read, and the control loop is registered with them and started. The
answer to the registration is written down as the manager gave it, and the start when the
episode goes on to run the control loop. -/
def populate {γ : Type} (a : Account) (manager : Manager γ) (reading : Reading) : Account :=
  let sequence := (a.sequence.populated manager reading.result).1
  { a with
    sequence := sequence
    marks := a.marks ++ .populated reading
      :: (Mark.ofManager manager reading ++ Mark.ofStage sequence.stage) }

/-- The control loop has ended. -/
def loopEnded (a : Account) (result : Except Control.Error Unit) : Account :=
  { a with sequence := a.sequence.loopEnded result, marks := a.marks ++ [.loopEnded result] }

/-- The publication of a document has returned. -/
def publish (a : Account) (document : Document) : Account :=
  { a with
    reporter := a.reporter.published a.now
    marks := a.marks ++ [.published document] }

/-- The reporter was awaited, and the episode returns. -/
def complete (a : Account) (result : Result) : Account :=
  { a with sequence := a.sequence.completed, marks := a.marks ++ [.returned result] }

/-- One thing that happens in an episode, other than its cancellation. -/
inductive Move : Account → Account → Prop
  | populate (a : Account) {γ : Type} (manager : Manager γ) (reading : Reading)
      (hstage : a.sequence.stage = .populating) : Move a (a.populate manager reading)
  | loopEnded (a : Account) (result : Except Control.Error Unit)
      (hstage : a.sequence.stage = .controlling) : Move a (a.loopEnded result)
  /-- The reporter does something by itself. -/
  | report (a : Account) (wall : Nat) (reporter : Reporter) (signs : List Task.Sign)
      (hadvance : a.reporter.advance ⟨a.now, wall⟩ a.sequence.reporterStops
        = some (reporter, signs)) :
      Move a { a with reporter := reporter }
  | publish (a : Account) (document : Document) (hpending : a.reporter.pending = some document) :
      Move a (a.publish document)
  | complete (a : Account) (result : Result) (hstage : a.sequence.stage = .stopping result)
      (hresolved : a.reporter.isResolved = true) : Move a (a.complete result)
  /-- Time passes. -/
  | pass (a : Account) (t : Nat) (hle : a.now ≤ t) : Move a { a with now := t }

/-- What an episode with a reporter of a kind may come to. -/
inductive Reachable (kind : Reporter.Kind) : Account → Prop
  | start (cancelled : Bool) (now : Nat) : Reachable kind (start kind cancelled now)
  | cancel {a : Account} (h : Reachable kind a) : Reachable kind a.cancel
  | move {a a' : Account} (h : Reachable kind a) (hmove : Move a a') : Reachable kind a'

/-- What an episode may come to from a point on when its token is not cancelled from
there on. -/
inductive Later (a : Account) : Account → Prop
  | refl : Later a a
  | move {a' a'' : Account} (h : Later a a') (hmove : Move a' a'') : Later a a''

variable {kind : Reporter.Kind} {a a' a'' : Account}

/-! ### What is written down at each stage -/

/-- The episode has not returned yet. -/
def IsOpen (marks : List Mark) : Prop := ∀ result, Mark.returned result ∉ marks

/-- What is written down when an episode stands at a stage. -/
def Told (marks : List Mark) : Stage → Prop
  | .populating => IsOpen marks ∧ Mark.calls marks = []
  | .controlling => IsOpen marks ∧ ∀ result,
      Yields (Mark.calls marks ++ [.loopEnded result]) (.ok (Sequence.outcomeOf result))
  | .stopping result => IsOpen marks ∧ Yields (Mark.calls marks) result
  | .ended result => ∃ before after, marks = before ++ .returned result :: after
      ∧ IsOpen before ∧ Yields (Mark.calls before) result ∧ ∀ mark ∈ after, mark = .cancelled

/-- An account stays open under further marks as long as none of them is the return. -/
theorem IsOpen.append {marks more : List Mark} (h : IsOpen marks)
    (hmore : ∀ result, Mark.returned result ∉ more) : IsOpen (marks ++ more) := by
  intro result hmem
  rcases List.mem_append.mp hmem with hmem | hmem
  · exact h result hmem
  · exact hmore result hmem

/-- A cancellation may be written down at any stage. -/
theorem Told.cancel {marks : List Mark} {stage : Stage} (h : Told marks stage) :
    Told (marks ++ [.cancelled]) stage := by
  have hcalls : Mark.calls (marks ++ [.cancelled]) = Mark.calls marks := by
    simp [Mark.calls, Mark.isCall]
  have hopen (h : IsOpen marks) : IsOpen (marks ++ [.cancelled]) := h.append (by simp)
  cases stage with
  | populating => exact ⟨hopen h.1, hcalls.trans h.2⟩
  | controlling => exact ⟨hopen h.1, by rw [hcalls]; exact h.2⟩
  | stopping result => exact ⟨hopen h.1, by rw [hcalls]; exact h.2⟩
  | ended result =>
    obtain ⟨before, after, rfl, hbefore, hyields, hafter⟩ := h
    refine ⟨before, after ++ [.cancelled], by simp, hbefore, hyields, fun mark hmem => ?_⟩
    rcases List.mem_append.mp hmem with hmem | hmem
    · exact hafter mark hmem
    · exact List.mem_singleton.mp hmem

/-- A publication may be written down until the episode has ended. -/
theorem Told.publish {marks : List Mark} {stage : Stage} (h : Told marks stage)
    (hstage : ∀ result, stage ≠ .ended result) (document : Document) :
    Told (marks ++ [.published document]) stage := by
  have hcalls : Mark.calls (marks ++ [.published document]) = Mark.calls marks := by
    simp [Mark.calls, Mark.isCall]
  have hopen (h : IsOpen marks) : IsOpen (marks ++ [.published document]) :=
    h.append (by simp)
  cases stage with
  | populating => exact ⟨hopen h.1, hcalls.trans h.2⟩
  | controlling => exact ⟨hopen h.1, by rw [hcalls]; exact h.2⟩
  | stopping result => exact ⟨hopen h.1, by rw [hcalls]; exact h.2⟩
  | ended result => exact absurd rfl (hstage result)

/-- What is written down about the defaults and the registration goes with the stage
that they lead to. -/
theorem Told.populate {γ : Type} {marks : List Mark} (h : Told marks .populating) (s : Sequence)
    (manager : Manager γ) (reading : Reading) :
    Told (marks ++ .populated reading :: (Mark.ofManager manager reading
        ++ Mark.ofStage (s.populated manager reading.result).1.stage))
      (s.populated manager reading.result).1.stage := by
  obtain ⟨hopen, hcalls⟩ := h
  have hadded (more : List Mark) :
      Mark.calls (marks ++ .populated reading :: more) = .populated reading :: Mark.calls more := by
    simp [Mark.calls, hcalls, Mark.isCall, List.filter_cons]
  -- three ways out of the start: the defaults cannot be read, they cannot be registered, the loop
  -- starts
  unfold Sequence.populated Mark.ofManager
  cases hreading : reading.result with
  | error e =>
    refine ⟨hopen.append (by simp [Mark.ofStage]), ?_⟩
    rw [hadded]
    exact .unread hreading
  | ok defaults =>
    rcases hregister : manager.register defaults with ⟨manager', e | _⟩
    · simp only [hregister]
      refine ⟨hopen.append (by simp [Mark.ofStage]), ?_⟩
      rw [hadded]
      exact .refused hreading hregister
    · simp only [hregister]
      refine ⟨hopen.append (by simp [Mark.ofStage]), fun result => ?_⟩
      rw [hadded]
      exact .controlled hreading hregister result

/-- What is written down agrees with the sequence, and the reporter has completed when
the episode has ended. -/
structure IsTold (a : Account) : Prop where
  told : Told a.marks a.sequence.stage
  resolved : ∀ result, a.sequence.stage = .ended result → a.reporter.isResolved = true
  cancelled : a.sequence.cancelled = true ↔ .cancelled ∈ a.marks
  timed : a.reporter.IsTimed

/-- Of an episode that has just started nothing is written down, except that its token was
cancelled before. -/
theorem isTold_start (kind : Reporter.Kind) (cancelled : Bool) (now : Nat) :
    (start kind cancelled now).IsTold where
  told := by
    refine ⟨fun result hmem => ?_, ?_⟩ <;> cases cancelled <;> simp_all [start, Mark.isCall]
  resolved result hstage := by cases hstage
  cancelled := by cases cancelled <;> simp [start, Sequence.start]
  timed := Reporter.isTimed_start kind

/-- A cancellation is written down, and cancels the token. -/
theorem IsTold.cancel (h : a.IsTold) : a.cancel.IsTold where
  told := h.told.cancel
  resolved := h.resolved
  cancelled := by simp [Account.cancel, Sequence.cancel]
  timed := h.timed

/-- While the reporter does or publishes something, the episode has not ended. -/
theorem IsTold.ne_ended (h : a.IsTold) (hresolved : a.reporter.isResolved = false)
    (result : Result) : a.sequence.stage ≠ .ended result := by
  intro hstage
  rw [h.resolved result hstage] at hresolved
  cases hresolved

/-- A reporter that can still move has not completed. -/
theorem unresolved_of_advance {r r' : Reporter} {now : Moment} {stops : Bool}
    {signs : List Task.Sign} (h : r.advance now stops = some (r', signs)) :
    r.isResolved = false := by
  cases hresolved : r.isResolved with
  | false => rfl
  | true => simp [Reporter.advance_of_resolved hresolved] at h

/-- A reporter with a document to publish has not completed. -/
theorem unresolved_of_pending {r : Reporter} {document : Document}
    (h : r.pending = some document) : r.isResolved = false := by
  cases hresolved : r.isResolved with
  | false => rfl
  | true => simp [Reporter.pending_of_resolved hresolved] at h

/-- The reporter is awaited after the defaults were read. -/
theorem populated_ne_ended {γ : Type} (s : Sequence) (manager : Manager γ)
    (read : Except DefaultsError Defaults) (result : Result) :
    (s.populated manager read).1.stage ≠ .ended result := by
  unfold Sequence.populated
  split
  · nofun
  · split <;> nofun

/-- Defaults that cannot be read and a control loop that cannot be registered stop the
reporter with their error; otherwise the control loop starts. -/
theorem IsTold.populate {γ : Type} (h : a.IsTold) (hstage : a.sequence.stage = .populating)
    (manager : Manager γ) (reading : Reading) : (a.populate manager reading).IsTold where
  told := by
    have htold := h.told
    rw [hstage] at htold
    exact htold.populate a.sequence manager reading
  resolved result hended := absurd hended (populated_ne_ended _ manager _ result)
  cancelled := by
    have hanswer : Mark.cancelled ∉ Mark.ofManager manager reading := by
      unfold Mark.ofManager
      split <;> simp
    have hstart (stage : Stage) : Mark.cancelled ∉ Mark.ofStage stage := by
      unfold Mark.ofStage
      split <;> simp
    show (a.sequence.populated manager reading.result).1.cancelled = true ↔ _
    rw [Course.populated_cancelled, h.cancelled]
    simp [Account.populate, hanswer, hstart]
  timed := h.timed

/-- The end of the control loop stops the reporter with what the episode makes of it. -/
theorem IsTold.loopEnded (h : a.IsTold) (hstage : a.sequence.stage = .controlling)
    (result : Except Control.Error Unit) : (a.loopEnded result).IsTold where
  told := by
    have htold := h.told
    rw [hstage] at htold
    refine ⟨htold.1.append (by simp), ?_⟩
    have hcalls : Mark.calls (a.marks ++ [.loopEnded result])
        = Mark.calls a.marks ++ [.loopEnded result] := by
      simp [Mark.calls, Mark.isCall]
    show Yields (Mark.calls (a.marks ++ [.loopEnded result])) _
    rw [hcalls]
    exact htold.2 result
  resolved _ hended := by cases hended
  cancelled := by simpa [Account.loopEnded, Sequence.loopEnded] using h.cancelled
  timed := h.timed

/-- A publication is written down, and leaves the sequence where it stands. -/
theorem IsTold.publish (h : a.IsTold) {document : Document}
    (hpending : a.reporter.pending = some document) : (a.publish document).IsTold where
  told := h.told.publish (h.ne_ended (unresolved_of_pending hpending)) document
  resolved result hended := absurd hended (h.ne_ended (unresolved_of_pending hpending) result)
  cancelled := by simpa [Account.publish] using h.cancelled
  timed := h.timed.published a.now

/-- The result that is returned is the one that the reporter was stopped with. -/
theorem IsTold.complete (h : a.IsTold) {result : Result}
    (hstage : a.sequence.stage = .stopping result) (hresolved : a.reporter.isResolved = true) :
    (a.complete result).IsTold where
  told := by
    obtain ⟨hopen, hyields⟩ : Told a.marks (.stopping result) := hstage ▸ h.told
    simp only [Account.complete, Sequence.completed, hstage]
    exact ⟨a.marks, [], rfl, hopen, hyields, by simp⟩
  resolved _ _ := hresolved
  cancelled := by simpa [Account.complete, Sequence.completed, hstage] using h.cancelled
  timed := h.timed

/-- Whatever happens in an episode, what is written down goes on to agree with it. -/
theorem IsTold.move (h : a.IsTold) (hmove : Move a a') : a'.IsTold := by
  cases hmove with
  | populate manager reading hstage => exact h.populate hstage manager reading
  | loopEnded result hstage => exact h.loopEnded hstage result
  | report wall reporter signs hadvance =>
    refine ⟨h.told, fun result hended => ?_, h.cancelled, Reporter.isTimed_of_advance hadvance⟩
    exact absurd hended (h.ne_ended (unresolved_of_advance hadvance) result)
  | publish document hpending => exact h.publish hpending
  | complete result hstage hresolved => exact h.complete hstage hresolved
  | pass t hle => exact ⟨h.told, h.resolved, h.cancelled, h.timed⟩

/-- What is written down agrees with whatever an episode may come to. -/
theorem Reachable.isTold (h : Reachable kind a) : a.IsTold := by
  induction h with
  | start cancelled now => exact isTold_start kind cancelled now
  | cancel _ ih => exact ih.cancel
  | move _ hmove ih => exact ih.move hmove

/-! ### The answers lead to the result -/

/-- What was asked of the parts is not changed by the return, nor by a cancellation after
it. -/
theorem calls_returned {before after : List Mark} {result : Result}
    (hafter : ∀ mark ∈ after, mark = .cancelled) :
    Mark.calls (before ++ .returned result :: after) = Mark.calls before := by
  have hnone : List.filter Mark.isCall after = [] := by
    refine List.filter_eq_nil_iff.mpr fun mark hmem => ?_
    rw [hafter mark hmem]
    exact Bool.false_ne_true
  rw [Mark.calls, List.filter_append, List.filter_cons_of_neg (by exact Bool.false_ne_true), hnone,
    List.append_nil]

/-- The episode stops its reporter with a result, or has returned it, exactly if the
answers of its parts lead to it. -/
theorem IsTold.yields_iff (h : a.IsTold) (result : Result) :
    Yields (Mark.calls a.marks) result
      ↔ a.sequence.stage = .stopping result ∨ a.sequence.stage = .ended result := by
  have htold := h.told
  -- before the stop the calls that are told yield nothing; from then on they yield the one result
  -- that the stage has
  cases hstage : a.sequence.stage with
  | populating =>
    rw [hstage] at htold
    rw [htold.2]
    exact iff_of_false nofun nofun
  | controlling =>
    rw [hstage] at htold
    exact iff_of_false ((htold.2 (.ok ())).not_of_loopEnded result) nofun
  | stopping fixed =>
    rw [hstage] at htold
    constructor
    · intro hyields
      rw [hyields.unique htold.2]
      exact .inl rfl
    · rintro (heq | heq) <;> cases heq
      exact htold.2
  | ended fixed =>
    rw [hstage] at htold
    obtain ⟨before, after, hmarks, -, hyields, hafter⟩ := htold
    rw [hmarks, calls_returned hafter]
    constructor
    · intro hother
      rw [hother.unique hyields]
      exact .inr rfl
    · rintro (heq | heq) <;> cases heq
      exact hyields

/-- A result that is fixed stays. -/
theorem Later.settled (h : Later a a') {result : Result}
    (hstage : a.sequence.stage = .stopping result ∨ a.sequence.stage = .ended result) :
    a'.sequence.stage = .stopping result ∨ a'.sequence.stage = .ended result := by
  induction h with
  | refl => exact hstage
  | @move a₁ a₂ _ hmove ih =>
    cases hmove with
    | populate _ _ hpopulating => rw [hpopulating] at ih; rcases ih with ih | ih <;> cases ih
    | loopEnded _ hcontrolling => rw [hcontrolling] at ih; rcases ih with ih | ih <;> cases ih
    | complete _ hstopping _ =>
      rw [hstopping] at ih
      rcases ih with ih | ih <;> cases ih
      exact .inr (by simp [Account.complete, Sequence.completed, hstopping])
    | report _ _ _ _ => exact ih
    | publish _ _ => exact ih
    | pass _ _ => exact ih

/-! ### An episode whose result is fixed can end -/

/-- What comes later than something later is later. -/
theorem Later.trans (h : Later a a') (h' : Later a' a'') : Later a a'' := by
  induction h' with
  | refl => exact h
  | move _ hmove ih => exact .move ih hmove

/-- By induction on the steps that the reporter has left. -/
theorem exists_ended {result : Result} (hstage : a.sequence.stage = .stopping result)
    (htimed : a.reporter.IsTimed) :
    ∃ a', Later a a' ∧ a'.sequence.result? = some result := by
  -- on the steps that the reporter has left once it is told to stop; each one leaves fewer
  induction hsteps : a.reporter.remaining using Nat.strongRecOn generalizing a with
  | ind steps ih =>
    subst hsteps
    have hstops : a.sequence.reporterStops = true := by
      simp [Sequence.reporterStops, hstage]
    cases hresolved : a.reporter.isResolved with
    | true =>
      refine ⟨_, .move .refl (.complete a result hstage hresolved), ?_⟩
      simp [Account.complete, Sequence.completed, Sequence.result?, hstage]
    | false =>
      -- until it has completed, a document is out or a step is due at some instant
      rcases htimed.busy hresolved with ⟨document, hpending⟩ | ⟨due, hbusy⟩
      · obtain ⟨a', hlater, hresult⟩ := ih _ (Reporter.remaining_published hpending a.now)
          (a := a.publish document) hstage (htimed.published a.now) rfl
        exact ⟨a', (Later.move .refl (.publish a document hpending)).trans hlater, hresult⟩
      · -- the clock goes on to where the reporter takes its step
        let later := max a.now due
        obtain ⟨⟨reporter, signs⟩, hadvance⟩ :=
          Option.isSome_iff_exists.mp (hbusy ⟨later, 0⟩ (Nat.le_max_right _ _))
        obtain ⟨a', hlater, hresult⟩ := ih _ (Reporter.remaining_advance hadvance)
          (a := { a with now := later, reporter := reporter }) hstage
          (Reporter.isTimed_of_advance hadvance) rfl
        rw [← hstops] at hadvance
        have hpass : Later a { a with now := later } :=
          .move .refl (.pass a later (Nat.le_max_left _ _))
        exact ⟨a', (Later.move hpass (.report _ 0 reporter signs hadvance)).trans hlater, hresult⟩

/-- When an episode has returned, its reporter was stopped before and has completed,
nothing was published since, and the result is the one that the answers of its parts
lead to. Before it has returned nothing says so. Its token is cancelled by others only.

Defaults that cannot be read, a control loop that cannot be registered, and one that has
ended with whatever result each lead to a result (`Yields`), and nothing else does. As soon
as the answers do, the reporter is stopped with this result. The episode can come to return
it from there, whatever its reporter is at, and returns no other one. -/
theorem Reachable.reporting_ends (h : Reachable kind a) :
    (∀ result, a.sequence.result? = some result →
        a.sequence.reporterStops = true ∧ a.reporter.isResolved = true
          ∧ ∃ before after, a.marks = before ++ .returned result :: after
            ∧ (∀ other, .returned other ∉ before)
            ∧ Yields (before.filter Mark.isCall) result
            ∧ ∀ mark ∈ after, mark = .cancelled)
      ∧ (a.sequence.result? = none → ∀ result, .returned result ∉ a.marks)
      ∧ (a.sequence.cancelled = true ↔ .cancelled ∈ a.marks)
      ∧ (∀ result, Yields (a.marks.filter Mark.isCall) result
        ↔ a.sequence.stage = .stopping result ∨ a.sequence.stage = .ended result)
      ∧ (∀ result, Yields (a.marks.filter Mark.isCall) result →
        (∃ a', Later a a' ∧ a'.sequence.result? = some result)
          ∧ ∀ a' other, Later a a' → a'.sequence.result? = some other → other = result) := by
  have htold := h.isTold
  refine ⟨fun result hresult => ?_, fun hresult => ?_, htold.cancelled, htold.yields_iff,
    fun result hyields => ⟨?_, fun a' other hlater hother => ?_⟩⟩
  · have hstage : a.sequence.stage = .ended result := Course.stage_of_result hresult
    have hmarks : Told a.marks (.ended result) := hstage ▸ htold.told
    exact ⟨by simp [Sequence.reporterStops, hstage], htold.resolved result hstage, hmarks⟩
  · have hmarks := htold.told
    cases hstage : a.sequence.stage with
    | ended result => simp [Sequence.result?, hstage] at hresult
    | populating | controlling | stopping result =>
      rw [hstage] at hmarks
      exact hmarks.1
  · -- an episode that is stopping with a result waits for nothing but its reporter
    rcases (htold.yields_iff result).mp hyields with hstopping | hended
    · exact exists_ended hstopping htold.timed
    · exact ⟨a, .refl, by simp [Sequence.result?, hended]⟩
  · have hended := Course.stage_of_result hother
    rcases hlater.settled ((htold.yields_iff result).mp hyields) with heq | heq
    · rw [hended] at heq
      cases heq
    · rw [hended] at heq
      cases heq
      rfl

/-- A reporter without an interval. -/
def intervalless : Profile := ⟨"op", "1.0", "pod-a", [], .zero⟩

/-- The task that reads the defaults breaks down while the first document is being
published, the reporter breaks down after it, and the token is cancelled later on. -/
def collapsed : Account where
  sequence := ⟨true, .ended (.error (.defaults (.interrupted (Panic.text ⟨7, "populate"⟩))))⟩
  reporter := .cluster ⟨intervalless, .brokenDown, none, none⟩
  now := 30
  marks := [.populated (.panicked ⟨7, "populate"⟩),
    .published (intervalless.document .starting 5 5),
    .returned (.error (.defaults (.interrupted (Panic.text ⟨7, "populate"⟩)))), .cancelled]

/-- An episode may come to that. -/
theorem reachable_collapsed : Reachable (.cluster intervalless) collapsed := by
  let document := intervalless.document .starting 5 5
  let error : FatalError := .defaults (.interrupted (Panic.text ⟨7, "populate"⟩))
  have hstart : Reachable (.cluster intervalless) (start (.cluster intervalless) false 0) :=
    .start false 0
  have hreport := hstart.move (.report _ 5 _ [] rfl)
  have hpopulate := hreport.move
    (.populate _ (Manager.new ([] : List (Factory Unit))) (.panicked ⟨7, "populate"⟩) rfl)
  have hpass := hpopulate.move (.pass _ 30 (Nat.zero_le 30))
  have hpublish := hpass.move (.publish _ document rfl)
  exact (hpublish.move (.complete _ (.error error) rfl rfl)).cancel

/-- Someone who needs to be told to stop, and takes a second for it. -/
def unhurried : Reporter.Kind := .witness (.ofMillis 1000) false

/-- The factory that has no controller to offer. -/
def unable : Factory Unit := fun _ => .error (.registration "no room")

/-- The control loop could not be registered, and the reporter has yet to start. -/
def unregistered : Account where
  sequence := ⟨false, .stopping (.error (.registration (.registration "no room")))⟩
  reporter := .start unhurried
  now := 0
  marks := [.populated (.returned (.ok .empty)), .registered (.error (.registration "no room"))]

/-- An episode may come to that. -/
theorem reachable_unregistered : Reachable unhurried unregistered :=
  (Reachable.start false 0).move (.populate _ (.new [unable]) (.returned (.ok .empty)) rfl)

/-- The control loop has failed, and the reporter has yet to start. -/
def defeated : Account where
  sequence := ⟨false, .stopping (.ok (.loopFailed "controller ctl failed: boom"))⟩
  reporter := .start unhurried
  now := 0
  marks := [.populated (.returned (.ok .empty)), .registered (.ok ()), .started,
    .loopEnded (.error (.controller "ctl" "boom"))]

/-- An episode may come to that. -/
theorem reachable_defeated : Reachable unhurried defeated := by
  have hstart : Reachable unhurried (start unhurried false 0) := .start false 0
  have hpopulate := hstart.move
    (.populate _ (.new ([] : List (Factory Unit))) (.returned (.ok .empty)) rfl)
  exact hpopulate.move (.loopEnded _ (.error (.controller "ctl" "boom")) rfl)

/-- An episode whose control loop cannot be registered, and one whose control loop fails,
can come to return what the answers lead to. In the third the defaults were not read. It has
returned the error after the document was published, and what is written down afterwards is
that its token is cancelled. -/
theorem reporting_ends_collapsed :
    Reachable unhurried unregistered
      ∧ (∃ a, Later unregistered a
        ∧ a.sequence.result? = some (.error (.registration (.registration "no room"))))
      ∧ Reachable unhurried defeated
      ∧ (∃ a, Later defeated a
        ∧ a.sequence.result? = some (.ok (.loopFailed "controller ctl failed: boom")))
      ∧ Reachable (.cluster intervalless) collapsed
      ∧ collapsed.sequence.reporterStops = true ∧ collapsed.reporter.isResolved = true
      ∧ ∃ before after, collapsed.marks
          = before ++ .returned (.error (.defaults (.interrupted (Panic.text ⟨7, "populate"⟩))))
            :: after
        ∧ Yields (before.filter Mark.isCall)
          (.error (.defaults (.interrupted (Panic.text ⟨7, "populate"⟩))))
        ∧ ∀ mark ∈ after, mark = .cancelled := by
  obtain ⟨-, -, -, -, hrefused⟩ := reachable_unregistered.reporting_ends
  obtain ⟨-, -, -, -, hfailed⟩ := reachable_defeated.reporting_ends
  obtain ⟨hended, -, -, -, -⟩ := reachable_collapsed.reporting_ends
  have hrefusal : Yields (unregistered.marks.filter Mark.isCall)
      (.error (.registration (.registration "no room"))) := by
    have hregister : (Manager.new [unable]).register .empty
      = (Manager.new [unable], .error (.registration "no room")) := rfl
    exact .refused rfl hregister
  have hfailure : Yields (defeated.marks.filter Mark.isCall)
      (.ok (.loopFailed "controller ctl failed: boom")) := by
    let manager : Manager Unit := .new []
    have hregister : manager.register .empty = (manager, .ok ()) := rfl
    exact .failed rfl hregister (.controller "ctl" "boom")
  obtain ⟨hstops, hresolved, before, after, hmarks, -, hyields, hafter⟩ := hended _ rfl
  exact ⟨reachable_unregistered, (hrefused _ hrefusal).1, reachable_defeated,
    (hfailed _ hfailure).1, reachable_collapsed, hstops, hresolved, before, after, hmarks, hyields,
    hafter⟩

end Account

/-- An episode whose control loop is a run of controllers can be told as one with any
control loop. -/
theorem Course.Reachable.account {kind : Reporter.Kind} {c : Course}
    (h : Course.Reachable kind c) :
    ∃ a, Account.Reachable kind a ∧ a.sequence = c.sequence ∧ a.reporter = c.reporter
      ∧ a.now = c.now := by
  induction h with
  | start cancelled now => exact ⟨_, .start cancelled now, rfl, rfl, rfl⟩
  | cancel _ ih =>
    obtain ⟨a, ha, hsequence, hreporter, hnow⟩ := ih
    exact ⟨_, ha.cancel, congrArg Sequence.cancel hsequence, hreporter, hnow⟩
  | move _ hmove ih =>
    obtain ⟨⟨sequence, reporter, now, marks⟩, ha, rfl, rfl, rfl⟩ := ih
    -- the end of one controller is the only move that an account does not tell of
    cases hmove with
    | populate manager result hstage =>
      exact ⟨_, ha.move (.populate _ manager (.returned result) hstage), rfl, rfl, rfl⟩
    | finish run index result hrun hrunning => exact ⟨_, ha, rfl, rfl, rfl⟩
    | loopEnded run result hstage hrun hresult =>
      exact ⟨_, ha.move (.loopEnded _ result hstage), rfl, rfl, rfl⟩
    | report wall reporter signs hadvance =>
      exact ⟨_, ha.move (.report _ wall reporter signs hadvance), rfl, rfl, rfl⟩
    | publish document hpending =>
      exact ⟨_, ha.move (.publish _ document hpending), rfl, rfl, rfl⟩
    | complete result hstage hresolved =>
      exact ⟨_, ha.move (.complete _ result hstage hresolved), rfl, rfl, rfl⟩
    | pass t hle => exact ⟨_, ha.move (.pass _ t hle), rfl, rfl, rfl⟩

end Tenure.Episode
