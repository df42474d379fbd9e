import Tenure.Lifecycle.Supervisor

/-!
# `Tenure.Proofs.Lifecycle.Watch`: how the failures of tasks become known

A supervisor at its work, in any order of what can happen: the tasks end when and
how they like, the wait for them begins at some time or never, and the process may
be told to end, or to end for a reason of its own, from elsewhere. `Mark` is what an
observer writes down on the way. It tells apart that a task has panicked and that
the supervisor has noticed it.

A task that fails can be known in two ways. An error that a task returns is reported
by the task itself, at once. A panic is reported only when the supervisor notices it,
and the supervisor notices nothing before it waits. `IsTakenDown` is what one would
expect of every moment after a failure: the process was told to end, for the reason
of the task that failed first.

* `Reachable.isFaithful`: the fatal reason is the first that was reported, the panics
  that are not noticed yet are kept in their order, and none is noticed before the
  supervisor waits.
* `Reachable.ended_of_isOver`: when the wait is over all tasks have ended, and every
  panic was noticed.
* `IsFaithful.isTakenDown_iff`: the expectation is met exactly when the first failure
  is also the first report. So a panic that nobody waits for does not meet it.
-/

set_option autoImplicit false

namespace Tenure.Supervisor

/-- What happens to the tasks of a supervisor and becomes known of them. -/
inductive Mark
  /-- A task has returned an error. -/
  | returned (name message : String)
  /-- A task has panicked. -/
  | panicked (panic : Panic)
  /-- The supervisor has noticed that a task has panicked. -/
  | noticed (panic : Panic)
  /-- The process is told from elsewhere to end for a reason. -/
  | elsewhere (reason : String)
deriving Repr, DecidableEq

namespace Mark

/-- The reason that a task gives by failing. -/
def failure? : Mark → Option String
  | returned name message => some s!"{name}: {message}"
  | panicked panic => some s!"supervised task panicked: {panic.text}"
  | noticed _ | elsewhere _ => none

/-- The reason that is reported. -/
def report? : Mark → Option String
  | returned name message => some s!"{name}: {message}"
  | noticed panic => some s!"supervised task panicked: {panic.text}"
  | elsewhere reason => some reason
  | panicked _ => none

/-- The panic that happens. -/
def panicked? : Mark → Option Panic
  | panicked panic => some panic
  | _ => none

/-- The panic that is noticed. -/
def noticed? : Mark → Option Panic
  | noticed panic => some panic
  | _ => none

/-- A panic is among those that happened just where its mark is. -/
theorem mem_panicked {marks : List Mark} {panic : Panic} :
    panic ∈ marks.filterMap panicked? ↔ panicked panic ∈ marks := by
  refine List.mem_filterMap.trans ⟨?_, fun hmark => ⟨_, hmark, rfl⟩⟩
  rintro ⟨mark, hmark, hpanic⟩
  unfold panicked? at hpanic
  split at hpanic <;> cases hpanic
  exact hmark

/-- A panic is among those noticed just where its mark is. -/
theorem mem_noticed {marks : List Mark} {panic : Panic} :
    panic ∈ marks.filterMap noticed? ↔ noticed panic ∈ marks := by
  refine List.mem_filterMap.trans ⟨?_, fun hmark => ⟨_, hmark, rfl⟩⟩
  rintro ⟨mark, hmark, hpanic⟩
  unfold noticed? at hpanic
  split at hpanic <;> cases hpanic
  exact hmark

/-- What is to be written down when a task ends. -/
def ofEnding (task : Nat) (name : String) : Ending String → List Mark
  | .done => []
  | .failed message => [returned name message]
  | .panicked message => [panicked ⟨task, message⟩]

end Mark

/-- A supervisor with its tasks, and what is written down about them. -/
structure Watch where
  supervisor : Supervisor
  shutdown : Shutdown
  /-- For each task, whether it has ended. -/
  ended : List Bool
  marks : List Mark
deriving Repr, DecidableEq

namespace Watch

/-- A supervisor with some tasks, all of which are running. -/
def start (count : Nat) : Watch := ⟨.start count, .new, List.replicate count false, []⟩

/-- A task ends. -/
def finish (w : Watch) (task : Nat) (name : String) (ending : Ending String) : Watch :=
  let (supervisor, shutdown) := w.supervisor.finish w.shutdown task name ending
  ⟨supervisor, shutdown, w.ended.set task true, w.marks ++ Mark.ofEnding task name ending⟩

/-- One thing that happens to a supervisor. -/
inductive Move : Watch → Watch → Prop
  /-- A task ends. -/
  | finish (w : Watch) (task : Nat) (name : String) (ending : Ending String)
      (hrunning : w.ended[task]? = some false) : Move w (w.finish task name ending)
  /-- The wait for the tasks begins. -/
  | wait (w : Watch) : Move w { w with supervisor := w.supervisor.wait }
  /-- The supervisor notices a panic. -/
  | notice (w : Watch) (panic : Panic) (rest : List Panic) (supervisor : Supervisor)
      (shutdown : Shutdown) (hpanics : w.supervisor.panics = panic :: rest)
      (hnotice : w.supervisor.notice w.shutdown = some (supervisor, shutdown)) :
      Move w ⟨supervisor, shutdown, w.ended, w.marks ++ [.noticed panic]⟩
  /-- The process is told to end in order. -/
  | trigger (w : Watch) : Move w { w with shutdown := w.shutdown.trigger }
  /-- The process is told from elsewhere to end for a reason. -/
  | fail (w : Watch) (reason : String) :
      Move w { w with shutdown := w.shutdown.fail reason, marks := w.marks ++ [.elsewhere reason] }

/-- What a supervisor with a number of tasks may come to. -/
inductive Reachable (count : Nat) : Watch → Prop
  | start : Reachable count (start count)
  | move {w w' : Watch} (h : Reachable count w) (hmove : Move w w') : Reachable count w'

/-- The reason of the task that failed first, if one has failed. -/
def firstFailure? (w : Watch) : Option String := w.marks.findSome? Mark.failure?

/-- The reason that was reported first, if one was. -/
def firstReport? (w : Watch) : Option String := w.marks.findSome? Mark.report?

/-- Once a task has failed the process was told to end, for the reason of the task
that failed first. -/
def IsTakenDown (w : Watch) : Prop :=
  ∀ reason, w.firstFailure? = some reason →
    w.shutdown.triggered = true ∧ w.shutdown.fatal = some reason

/-- What a supervisor keeps agrees with what was written down about it. -/
structure IsFaithful (w : Watch) : Prop where
  /-- The fatal reason is the first that was reported. -/
  fatal_eq : w.shutdown.fatal = w.firstReport?
  /-- A fatal reason ends the process. -/
  triggered : w.shutdown.fatal.isSome = true → w.shutdown.triggered = true
  /-- Panics are noticed in their order, and those that are not noticed yet are kept. -/
  panics_eq : w.marks.filterMap Mark.noticed? ++ w.supervisor.panics
    = w.marks.filterMap Mark.panicked?
  /-- Nothing is noticed before the supervisor waits. -/
  unnoticed : w.supervisor.waiting = false → w.marks.filterMap Mark.noticed? = []
  /-- The tasks that run are counted. -/
  running_eq : w.supervisor.running = w.ended.count false

variable {w w' : Watch} {count : Nat}

/-- A supervisor with all tasks running agrees with the empty record of them. -/
theorem isFaithful_start (count : Nat) : (start count).IsFaithful where
  fatal_eq := rfl
  triggered h := by cases h
  panics_eq := rfl
  unnoticed _ := rfl
  running_eq := by simp [start, Supervisor.start]

/-! ### What each thing that happens keeps -/

/-- A reason that is reported is kept if it is the first one. -/
theorem fatal_fail (h : w.IsFaithful) {mark : Mark} {reason : String}
    (hreport : mark.report? = some reason) :
    (w.shutdown.fail reason).fatal = (w.marks ++ [mark]).findSome? Mark.report? := by
  rw [Shutdown.fail_fatal, h.fatal_eq, List.findSome?_append]
  show some ((w.marks.findSome? Mark.report?).getD reason) = _
  cases w.marks.findSome? Mark.report? with
  | none => simp [List.findSome?, hreport]
  | some first => simp

/-- When a task that was running ends there is one less. -/
theorem count_set_ended {ended : List Bool} {task : Nat} (h : ended[task]? = some false) :
    (ended.set task true).count false = ended.count false - 1 := by
  obtain ⟨hlt, hget⟩ := List.getElem?_eq_some_iff.mp h
  rw [List.count_set hlt, hget]
  simp

/-- The end of a running task is taken down as it happens. -/
theorem IsFaithful.finish (h : w.IsFaithful) {task : Nat} (name : String)
    (ending : Ending String) (hrunning : w.ended[task]? = some false) :
    (w.finish task name ending).IsFaithful := by
  have hcount : w.supervisor.running - 1 = (w.ended.set task true).count false := by
    rw [h.running_eq, count_set_ended hrunning]
  -- what is written down and what is reported depend on how the task has ended
  cases ending with
  | done =>
    have hmarks : w.marks ++ Mark.ofEnding task name .done = w.marks := List.append_nil _
    refine ⟨?_, h.triggered, ?_, ?_, hcount⟩
    all_goals simp only [Watch.finish, Supervisor.finish, firstReport?, hmarks]
    · exact h.fatal_eq
    · exact h.panics_eq
    · exact h.unnoticed
  | failed message =>
    -- the task reports its error itself, and no panic comes or goes
    refine ⟨fatal_fail h rfl, fun _ => rfl, ?_, ?_, hcount⟩
    all_goals simp only [Watch.finish, Supervisor.finish, Mark.ofEnding, List.filterMap_append]
    · simpa [List.filterMap_cons, Mark.noticed?, Mark.panicked?] using h.panics_eq
    · simpa [List.filterMap_cons, Mark.noticed?] using h.unnoticed
  | panicked message =>
    -- the panic is kept for the wait, and nothing is reported
    refine ⟨?_, h.triggered, ?_, ?_, hcount⟩
    all_goals simp only [Watch.finish, Supervisor.finish, Mark.ofEnding, List.filterMap_append]
    · rw [h.fatal_eq]
      simp [firstReport?, List.findSome?_append, Mark.report?]
    · rw [← h.panics_eq]
      simp [List.filterMap_cons, Mark.noticed?, Mark.panicked?]
    · simpa [List.filterMap_cons, Mark.noticed?] using h.unnoticed

/-- Noticing a panic takes it down, and tells the process to end at the first failure. -/
theorem IsFaithful.notice (h : w.IsFaithful) {panic : Panic} {rest : List Panic}
    {supervisor : Supervisor} {shutdown : Shutdown}
    (hpanics : w.supervisor.panics = panic :: rest)
    (hnotice : w.supervisor.notice w.shutdown = some (supervisor, shutdown)) :
    IsFaithful ⟨supervisor, shutdown, w.ended, w.marks ++ [.noticed panic]⟩ := by
  cases hwaiting : w.supervisor.waiting with
  | false => simp [Supervisor.notice, hwaiting] at hnotice
  | true =>
    simp only [Supervisor.notice, hwaiting, hpanics, Option.some.injEq, Prod.mk.injEq] at hnotice
    obtain ⟨rfl, rfl⟩ := hnotice
    refine ⟨fatal_fail h rfl, fun _ => rfl, ?_, ?_, h.running_eq⟩
    · -- the first of the panics that were kept is now the last of those that are noticed
      have hkept := h.panics_eq
      rw [hpanics] at hkept
      simpa [List.filterMap_cons, Mark.noticed?, Mark.panicked?] using hkept
    · intro hidle
      cases hidle

/-- A failure that is reported from elsewhere is taken down as it happens. -/
theorem IsFaithful.fail (h : w.IsFaithful) (reason : String) :
    IsFaithful { w with
      shutdown := w.shutdown.fail reason
      marks := w.marks ++ [.elsewhere reason] } where
  fatal_eq := fatal_fail h rfl
  triggered _ := rfl
  panics_eq := by simpa [List.filterMap_cons, Mark.noticed?, Mark.panicked?] using h.panics_eq
  unnoticed := by simpa [List.filterMap_cons, Mark.noticed?] using h.unnoticed
  running_eq := h.running_eq

/-- Every move is taken down as it happens. -/
theorem IsFaithful.move (h : w.IsFaithful) (hmove : Move w w') : w'.IsFaithful := by
  cases hmove with
  | finish task name ending hrunning => exact h.finish name ending hrunning
  | wait => exact ⟨h.fatal_eq, h.triggered, h.panics_eq, (fun hidle => nomatch hidle), h.running_eq⟩
  | notice panic rest supervisor shutdown hpanics hnotice => exact h.notice hpanics hnotice
  | trigger => exact ⟨h.fatal_eq, fun _ => rfl, h.panics_eq, h.unnoticed, h.running_eq⟩
  | fail reason => exact h.fail reason

/-- At every point the supervisor agrees with what was written down. -/
theorem Reachable.isFaithful (h : Reachable count w) : w.IsFaithful := by
  induction h with
  | start => exact isFaithful_start count
  | move _ hmove ih => exact ih.move hmove

/-- The number of tasks stays what it was at the start. -/
theorem Reachable.length_ended (h : Reachable count w) : w.ended.length = count := by
  induction h with
  | start => exact List.length_replicate
  | move _ hmove ih =>
    rw [← ih]
    cases hmove with
    | finish task name ending hrunning => exact List.length_set
    | wait | notice _ _ _ _ _ _ | trigger | fail _ => rfl

/-! ### What becomes of failures -/

/-- When the wait is over all tasks have ended, and every panic was noticed. -/
theorem Reachable.ended_of_isOver (h : Reachable count w) (hover : w.supervisor.isOver = true) :
    w.ended = List.replicate count true
      ∧ w.marks.filterMap Mark.noticed? = w.marks.filterMap Mark.panicked? := by
  have hfaithful := h.isFaithful
  obtain ⟨⟨-, hrunning⟩, hpanics⟩ :
      (w.supervisor.waiting = true ∧ w.supervisor.running = 0) ∧ w.supervisor.panics = [] := by
    simpa [isOver] using hover
  refine ⟨List.eq_replicate_iff.mpr ⟨h.length_ended, fun ended hmem => ?_⟩, ?_⟩
  · cases ended with
    | true => rfl
    | false =>
      -- a task that runs would be counted
      have hnone : w.ended.count false = 0 := hfaithful.running_eq.symm.trans hrunning
      exact absurd hmem (List.count_eq_zero.mp hnone)
  · have hkept := hfaithful.panics_eq
    rwa [hpanics, List.append_nil] at hkept

/-- Whatever was reported has ended the process. -/
theorem IsFaithful.triggered_of_report (h : w.IsFaithful) {mark : Mark} {reason : String}
    (hmark : mark ∈ w.marks) (hreport : mark.report? = some reason) :
    w.shutdown.triggered = true := by
  refine h.triggered ?_
  rw [h.fatal_eq]
  exact List.findSome?_isSome_iff.mpr ⟨mark, hmark, by rw [hreport]; rfl⟩

/-- The process was taken down for the first failure exactly when nothing was reported
before it. -/
theorem IsFaithful.isTakenDown_iff (h : w.IsFaithful) :
    w.IsTakenDown ↔ ∀ reason, w.firstFailure? = some reason → w.firstReport? = some reason := by
  refine ⟨fun htaken reason hfirst => ?_, fun hreported reason hfirst => ?_⟩
  · rw [← h.fatal_eq]
    exact (htaken reason hfirst).2
  · have hfatal : w.shutdown.fatal = some reason := h.fatal_eq.trans (hreported reason hfirst)
    exact ⟨h.triggered (by rw [hfatal]; rfl), hfatal⟩

end Watch

end Tenure.Supervisor
