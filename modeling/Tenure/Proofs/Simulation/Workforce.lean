import Tenure.Proofs.Control.Supervision
import Tenure.Proofs.Simulation.Episode

/-!
# `Tenure.Proofs.Simulation.Workforce`: controllers at work have a history

Controllers that follow plans, and drift controllers, take their steps in their order at
each instant. Whenever one of them ends its run is told, and so is the cancellation of
the token that was passed in; nothing else is. `Workforce.Tells` ties a history to what
the controllers have come to.

* `Workforce.Tells.step`: a step of the controllers adds the end of one of them to the
  history, or nothing.
* `ControllerRun.Reached.overseen`: when a run of controllers by themselves is over, all of
  them have ended, and the result follows from how they have.
-/

set_option autoImplicit false

namespace Tenure.Simulation

open Control (Run)
open Control.Run (Event IsHistory)

namespace Worker

/-- How a controller has ended, if it has. -/
def ending? : Worker → Option (Ending Control.Error)
  | scripted _ task => if task.isEnded then some task.plan.ending else none
  | drift d _ => d.ending.map fun ending => match ending with
    | .done => .done
    | .failed () => .done
    | .panicked message => .panicked message

/-- What a run learns of a controller that has ended is how it has ended. -/
theorem result?_eq (w : Worker) (task : Nat) :
    w.result? task = w.ending?.map (Control.resultOf task) := by
  cases w with
  | scripted name t =>
    simp only [result?, ending?]
    split <;> rfl
  | drift d source =>
    simp only [result?, ending?]
    cases d.ending with
    | none => rfl
    | some ending => cases ending <;> rfl

/-- A controller that takes a step has not ended. -/
theorem ending?_of_step {w w' : Worker} {s s' : Surroundings} {now : Nat} {cancelled : Bool}
    (h : w.step s now cancelled = some (w', s')) : w.ending? = none := by
  cases hending : w.ending? with
  | none => rfl
  | some ending =>
    have hresult : (w.result? 0).isSome = true := by rw [result?_eq, hending]; rfl
    rw [step_of_result hresult s now cancelled] at h
    cases h

end Worker

namespace Workforce

/-- A history tells what a run has learned: which controllers have ended, and how. -/
structure Tells (f : Workforce) (history : List Event) : Prop where
  run_eq : f.run = Run.after f.workers.length history
  isHistory : IsHistory f.workers.length history
  ended_iff : ∀ index ending, .ended index ending ∈ history
    ↔ ∃ worker, f.workers[index]? = some worker ∧ worker.ending? = some ending

variable {f f' : Workforce} {history : List Event}

/-- An empty history tells all of a run in which nothing has ended. -/
theorem tells_start {manager : Control.Manager Worker}
    (hfresh : ∀ worker ∈ manager.registered, worker.ending? = none) :
    (start manager false).Tells [] where
  run_eq := rfl
  isHistory := ⟨by simp, List.nodup_nil⟩
  ended_iff index ending := by
    constructor
    · intro hmem
      cases hmem
    · rintro ⟨worker, hworker, hending⟩
      rw [hfresh worker (List.mem_of_getElem? hworker)] at hending
      cases hending

/-- A cancellation is one more thing to tell. -/
theorem Tells.cancel (h : f.Tells history) : f.cancel.Tells (history ++ [.cancelled]) where
  run_eq := by
    rw [Run.after, List.foldl_append]
    exact congrArg Run.cancel h.run_eq
  isHistory := by
    refine ⟨fun index ending hmem => h.isHistory.index_lt index ending (by simpa using hmem), ?_⟩
    have hnone : List.filterMap Event.index? [.cancelled] = [] := rfl
    rw [List.filterMap_append, hnone, List.append_nil]
    exact h.isHistory.once
  ended_iff index ending := by
    show _ ↔ ∃ worker, f.workers[index]? = some worker ∧ _
    simpa using h.ended_iff index ending

/-- A controller ends, and the run is told. -/
theorem Tells.finish (h : f.Tells history) {index : Nat} {worker worker' : Worker}
    {ending : Ending Control.Error} (hworker : f.workers[index]? = some worker)
    (hrunning : worker.ending? = none) (hended : worker'.ending? = some ending) :
    Tells ⟨f.run.finish index (Control.resultOf index ending), f.workers.set index worker'⟩
      (history ++ [.ended index ending]) where
  run_eq := by
    rw [List.length_set, Run.after, List.foldl_append]
    exact congrArg (fun run => run.finish index (Control.resultOf index ending)) h.run_eq
  isHistory := by
    have hlt : index < f.workers.length := (List.getElem?_eq_some_iff.mp hworker).1
    refine ⟨fun other e hmem => ?_, ?_⟩
    · rw [List.length_set]
      rcases List.mem_append.mp hmem with hmem | hmem
      · exact h.isHistory.index_lt other e hmem
      · cases List.mem_singleton.mp hmem
        exact hlt
    · rw [List.filterMap_append, List.nodup_append]
      refine ⟨h.isHistory.once, by simp [Event.index?], ?_⟩
      rintro other hother _ hsame rfl
      obtain rfl : other = index := List.mem_singleton.mp hsame
      -- no end of this controller is in the history yet
      obtain ⟨event, hmem, hindex⟩ := List.mem_filterMap.mp hother
      cases event with
      | cancelled => cases hindex
      | ended _ earlier =>
        cases hindex
        obtain ⟨w, hw, hearlier⟩ := (h.ended_iff _ _).mp hmem
        obtain rfl : worker = w := Option.some.inj (hworker.symm.trans hw)
        rw [hrunning] at hearlier
        cases hearlier
  ended_iff other e := by
    rw [List.mem_append, h.ended_iff]
    by_cases hother : index = other
    · subst hother
      have hlt : index < f.workers.length := (List.getElem?_eq_some_iff.mp hworker).1
      rw [List.getElem?_set_self hlt]
      simp [hworker, hrunning, hended, eq_comm]
    · rw [List.getElem?_set_ne hother]
      simp [Ne.symm hother]

/-- A controller does something other than to end. -/
theorem Tells.keep (h : f.Tells history) {index : Nat} {worker worker' : Worker}
    (hworker : f.workers[index]? = some worker) (hrunning : worker.ending? = none)
    (hrunning' : worker'.ending? = none) :
    Tells ⟨f.run, f.workers.set index worker'⟩ history where
  run_eq := by
    rw [List.length_set]
    exact h.run_eq
  isHistory := by
    rw [List.length_set]
    exact h.isHistory
  ended_iff other e := by
    rw [h.ended_iff]
    by_cases hother : index = other
    · subst hother
      have hlt : index < f.workers.length := (List.getElem?_eq_some_iff.mp hworker).1
      rw [List.getElem?_set_self hlt]
      simp [hworker, hrunning, hrunning']
    · rw [List.getElem?_set_ne hother]

/-- What a step of the controllers adds can be told after the history so far. -/
theorem Tells.step (h : f.Tells history) {s s' : Surroundings} {now : Nat}
    (hstep : f.step s now = some (f', s')) : ∃ more, f'.Tells (history ++ more) := by
  obtain ⟨⟨index, worker', s''⟩, hfirst, heq⟩ := Option.map_eq_some_iff.mp hstep
  obtain ⟨k, worker, hindex, hworker, hstepped⟩ := stepFirst_eq hfirst
  obtain rfl : index = k := by omega
  have hrunning := Worker.ending?_of_step hstepped
  cases heq
  rw [Worker.result?_eq]
  cases hending : worker'.ending? with
  | none => exact ⟨[], by simpa using h.keep hworker hrunning hending⟩
  | some ending => exact ⟨_, h.finish hworker hrunning hending⟩

end Workforce

namespace ControllerRun

/-- What a run of controllers by themselves comes to. -/
inductive Reached : ControllerRun → Prop
  | start (w : ControllerRun) (manager : Control.Manager Worker)
      (hfresh : ∀ worker ∈ manager.registered, worker.ending? = none) :
      Reached (w.start manager)
  | cancel {w : ControllerRun} (h : Reached w) : Reached w.cancel
  | step {w w' : ControllerRun} (h : Reached w) (hstep : World.step w = some w') : Reached w'
  | pass {w : ControllerRun} (h : Reached w) (t : Nat) (hle : w.now ≤ t) :
      Reached (World.moveTo w t)

/-- Whatever a run comes to, a history tells it. -/
theorem Reached.tells {w : ControllerRun} (h : Reached w) : ∃ history, w.force.Tells history := by
  induction h with
  | start w manager hfresh => exact ⟨[], Workforce.tells_start hfresh⟩
  | cancel _ ih =>
    obtain ⟨history, htells⟩ := ih
    exact ⟨_, htells.cancel⟩
  | step _ hstep ih =>
    obtain ⟨history, htells⟩ := ih
    obtain ⟨⟨force, surroundings⟩, hforce, heq⟩ := Option.map_eq_some_iff.mp hstep
    cases heq
    obtain ⟨more, htells'⟩ := htells.step hforce
    exact ⟨_, htells'⟩
  | pass _ t hle ih => exact ih

/-- When a run of controllers by themselves is over, all of them have ended. The result is an
error if one of them has not ended well, and otherwise the token that was passed in is
cancelled. -/
theorem Reached.overseen {w : ControllerRun} (h : Reached w) {result : Except Control.Error Unit}
    (hresult : w.force.run.result? = some result) :
    (∀ worker ∈ w.force.workers, worker.ending?.isSome = true)
      ∧ ((∃ error, result = .error error)
        ↔ ∃ worker ∈ w.force.workers, worker.ending? ≠ some .done)
      ∧ (result = .ok () → w.force.run.cancelled = true) := by
  obtain ⟨history, htells⟩ := h.tells
  have hrun := htells.run_eq
  rw [hrun] at hresult
  obtain ⟨hall, herror, hok, -, hcancelled, -⟩ :=
    Run.supervised w.force.workers.length history
  -- a run with a result has heard of the end of every controller
  have hended (worker : Worker) (hmem : worker ∈ w.force.workers) :
      ∃ index ending, .ended index ending ∈ history ∧ worker.ending? = some ending := by
    obtain ⟨index, hlt, rfl⟩ := List.mem_iff_getElem.mp hmem
    obtain ⟨ending, hending⟩ := hall result hresult index hlt
    obtain ⟨worker, hworker, hresult⟩ := (htells.ended_iff index ending).mp hending
    obtain rfl : w.force.workers[index] = worker :=
      Option.some.inj ((List.getElem?_eq_getElem hlt).symm.trans hworker)
    exact ⟨index, ending, hending, hresult⟩
  refine ⟨fun worker hmem => ?_, ?_, fun heq => ?_⟩
  · obtain ⟨-, ending, -, hending⟩ := hended worker hmem
    rw [hending]
    rfl
  · cases result with
    | error error =>
      refine iff_of_true ⟨error, rfl⟩ ?_
      obtain ⟨-, hfirst⟩ := (herror error).mp hresult
      -- the error is that of the first controller that failed
      obtain ⟨event, hmem, hfailure⟩ := List.exists_of_findSome?_eq_some hfirst
      cases event with
      | cancelled => cases hfailure
      | ended index ending =>
        obtain ⟨worker, hworker, hending⟩ := (htells.ended_iff index ending).mp hmem
        refine ⟨worker, List.mem_of_getElem? hworker, fun hdone => ?_⟩
        cases hending.symm.trans hdone
        cases hfailure
    | ok _ =>
      refine iff_of_false (by rintro ⟨error, ⟨⟩⟩) ?_
      rintro ⟨worker, hmem, hbad⟩
      obtain ⟨index, ending, hevent, hending⟩ := hended worker hmem
      obtain ⟨-, hnone, -⟩ := hok.mp hresult
      have hfailure : Control.failureOf index ending = none := hnone _ hevent
      cases ending with
      | done => exact hbad hending
      | failed error => cases hfailure
      | panicked message => cases hfailure
  · subst heq
    rw [hrun]
    exact hcancelled.mpr (hok.mp hresult).2.2

end ControllerRun

end Tenure.Simulation
