import Tenure.Proofs.Episode.Course
import Tenure.Simulation.Episode

/-!
# `Tenure.Proofs.Simulation.Episode`: simulated episodes are courses

A run of an episode by itself has controllers and a reporter that follow plans, the
reporter before the controllers and these before the sequence.
`EpisodeRun.Reached` holds of what such a run comes to. Each of its steps is one of
a course of the episode, or only adds to a log.

* `EpisodeRun.Reached.course`: whatever a run comes to, a course comes to with
  the same sequence, the same reporter and the same run of the controllers.
* `EpisodeRun.Reached.step_of_over`: when the episode has ended nothing is done any more.
* `EpisodeRun.completed_first`: a run in which the reporter completes while a
  controller is still at work.
-/

set_option autoImplicit false

namespace Tenure.Simulation

open Control Status

/-! ### What a world comes to -/

section World

variable {σ : Type} [World σ] {p : σ → Prop}
  (hstep : ∀ w w', p w → World.step w = some w' → p w' ∧ World.now w' = World.now w)
  (hmove : ∀ w t, p w → World.now w ≤ t → p (World.moveTo w t))

include hstep

/-- What every step keeps, settling keeps, and no time passes meanwhile. -/
theorem settle_induction (fuel : Nat) {w : σ} (hp : p w) :
    p (settle fuel w) ∧ World.now (settle fuel w) = World.now w := by
  induction fuel generalizing w with
  | zero => exact ⟨hp, rfl⟩
  | succ fuel ih =>
    unfold settle
    split
    · exact ⟨hp, rfl⟩
    · rename_i next hnext
      obtain ⟨hp', hnow⟩ := hstep w next hp hnext
      obtain ⟨hp'', hnow'⟩ := ih hp'
      exact ⟨hp'', hnow'.trans hnow⟩

include hmove

/-- What steps and the passing of time preserve holds of what a world comes to. -/
theorem live_induction (stop : σ → Bool) (fuel limit : Nat) {w : σ} (hp : p w)
    (hle : World.now w ≤ limit) : p (live stop fuel limit w) := by
  -- on the wake-ups that are left; between two of them only steps are taken
  induction fuel generalizing w with
  | zero => exact hmove w limit hp hle
  | succ fuel ih =>
    unfold live
    obtain ⟨hp', hnow⟩ := settle_induction hstep stepLimit hp
    simp only
    split
    · exact hp'
    · split
      · exact hmove _ limit hp' (by omega)
      · rename_i wake _
        split
        · rename_i hnext
          simp only [Bool.and_eq_true, decide_eq_true_eq] at hnext
          refine ih (hmove _ _ hp' (by omega)) ?_
          rw [World.now_moveTo]
          exact hnext.2
        · exact hmove _ limit hp' (by omega)

/-- What every step and every wait keep, running up to a limit keeps. -/
theorem runUntil_induction (stop : σ → Bool) {limit : Nat} {w : σ} (hp : p w)
    (hle : World.now w ≤ limit) : p (runUntil stop limit w) :=
  live_induction hstep hmove stop _ limit hp hle

end World

/-! ### Controllers -/

namespace Worker

/-- A controller that has ended does nothing more. -/
theorem step_of_result {w : Worker} {task : Nat} (h : (w.result? task).isSome = true)
    (s : Surroundings) (now : Nat) (cancelled : Bool) : w.step s now cancelled = none := by
  cases w with
  | scripted name t =>
    have hended : t.isEnded = true := by
      cases hcase : t.isEnded with
      | true => rfl
      | false => simp [result?, hcase] at h
    simp [step, t.advance_ended now cancelled hended]
  | drift d source =>
    -- a drift controller ends or breaks down, and neither reads nor waits then
    cases hstage : d.stage with
    | ended => simp [step, Drift.isReading, Drift.advance, hstage]
    | brokenDown => simp [step, Drift.isReading, Drift.advance, hstage]
    | fresh | waiting _ | reading _ => simp [result?, Drift.ending, hstage] at h

end Worker

namespace Workforce

/-- A run knows which of its controllers have ended. -/
structure IsSound (f : Workforce) : Prop where
  length_eq : f.run.ended.length = f.workers.length
  ended : ∀ index, f.run.ended[index]? = some true → ∀ worker : Worker,
    f.workers[index]? = some worker → (worker.result? index).isSome = true

/-- A run that was just started knows that none of its controllers has ended. -/
theorem isSound_start (manager : Manager Worker) (cancelled : Bool) :
    (start manager cancelled).IsSound := by
  refine ⟨by simp [start, Manager.start, Run.start], fun index hended => ?_⟩
  simp [start, Manager.start, Run.start, List.getElem?_replicate] at hended

/-- A cancellation ends no controller. -/
theorem IsSound.cancel {f : Workforce} (h : f.IsSound) : f.cancel.IsSound := ⟨h.length_eq, h.ended⟩

/-- The controller that takes the next step is one of those in the list. -/
theorem stepFirst_eq {s s' : Surroundings} {now : Nat} {stops : Bool} {first index : Nat}
    {workers : List Worker} {worker' : Worker}
    (h : stepFirst s now stops first workers = some (index, worker', s')) :
    ∃ k worker, index = first + k ∧ workers[k]? = some worker
      ∧ worker.step s now stops = some (worker', s') := by
  induction workers generalizing first with
  | nil => cases h
  | cons head rest ih =>
    unfold stepFirst at h
    split at h
    · rename_i w' s'' hstep
      cases h
      exact ⟨0, head, rfl, rfl, hstep⟩
    · obtain ⟨k, worker, hindex, hget, hstep⟩ := ih h
      exact ⟨k + 1, worker, by omega, hget, hstep⟩

/-- What a step of the controllers does to their run. -/
inductive Stepped (f : Workforce) : Workforce → Prop
  | went {f' : Workforce} (hrun : f'.run = f.run) (hsound : f'.IsSound) : Stepped f f'
  | finished {f' : Workforce} {index : Nat} {result : Except Error Unit}
      (hrunning : f.run.ended[index]? = some false) (hrun : f'.run = f.run.finish index result)
      (hsound : f'.IsSound) : Stepped f f'

/-- A step of the controllers that does something does one of the things listed. -/
theorem IsSound.stepped {f f' : Workforce} (h : f.IsSound) {s s' : Surroundings} {now : Nat}
    (hstep : f.step s now = some (f', s')) : Stepped f f' := by
  obtain ⟨⟨index, worker', s''⟩, hfirst, heq⟩ := Option.map_eq_some_iff.mp hstep
  obtain ⟨k, worker, hindex, hget, hworker⟩ := stepFirst_eq hfirst
  obtain rfl : index = k := by omega
  -- the controller was running, or else it could not have taken a step
  have hrunning : f.run.ended[index]? = some false := by
    have hlt : index < f.run.ended.length := by
      rw [h.length_eq]
      exact (List.getElem?_eq_some_iff.mp hget).1
    cases hended : f.run.ended[index] with
    | false => rw [List.getElem?_eq_getElem hlt, hended]
    | true =>
      have hresult := h.ended index (by rw [List.getElem?_eq_getElem hlt, hended]) worker hget
      simp [Worker.step_of_result hresult] at hworker
  cases heq
  cases hresult : worker'.result? index with
  | none =>
    refine .went rfl ⟨by simp [h.length_eq], fun j hended w hw => ?_⟩
    simp only at hended
    have hne : index ≠ j := by
      rintro rfl
      rw [hrunning] at hended
      cases hended
    rw [List.getElem?_set_ne hne] at hw
    exact h.ended j hended w hw
  | some result =>
    refine .finished hrunning (show _ = f.run.finish index result from rfl)
      ⟨by simp [Run.finish, h.length_eq], fun j hended w hw => ?_⟩
    simp only [Run.finish] at hended
    by_cases hj : index = j
    · subst hj
      have hlt : index < f.workers.length := (List.getElem?_eq_some_iff.mp hget).1
      rw [List.getElem?_set_self hlt] at hw
      cases hw
      rw [hresult]
      rfl
    · rw [List.getElem?_set_ne hj] at hended hw
      exact h.ended j hended w hw

/-- The first step is none just where no controller has one. -/
theorem stepFirst_eq_none_iff {s : Surroundings} {now : Nat} {stops : Bool} {first : Nat}
    {workers : List Worker} :
    stepFirst s now stops first workers = none
      ↔ ∀ worker ∈ workers, worker.step s now stops = none := by
  induction workers generalizing first with
  | nil => exact iff_of_true rfl nofun
  | cons head rest ih =>
    rw [stepFirst]
    cases hhead : head.step s now stops with
    | some stepped => simp [hhead]
    | none => simp [hhead, ih]

/-- When the run of the controllers is over, none of them does anything more. -/
theorem IsSound.step_of_over {f : Workforce} (h : f.IsSound)
    (hover : f.run.result?.isSome = true) (s : Surroundings) (now : Nat) :
    f.step s now = none := by
  refine Option.map_eq_none_iff.mpr (stepFirst_eq_none_iff.mpr fun worker hmem => ?_)
  obtain ⟨index, hlt, rfl⟩ := List.mem_iff_getElem.mp hmem
  have hlt' : index < f.run.ended.length := by rwa [h.length_eq]
  have hended : f.run.ended[index]? = some true := by
    cases hcase : f.run.ended[index] with
    | true => rw [List.getElem?_eq_getElem hlt', hcase]
    | false =>
      refine absurd ?_ (Tenure.Episode.Course.ended_of_result hover index)
      rw [List.getElem?_eq_getElem hlt', hcase]
  exact Worker.step_of_result (h.ended index hended _ (List.getElem?_eq_getElem hlt)) s now _

end Workforce

/-! ### Episodes -/

namespace Episode

open Tenure.Episode (Course)

/-- A course of an episode fits a simulated one: it is the same sequence and the
same reporter, and the same run of controllers once there is one. -/
structure Stages (e : Episode) (c : Course) : Prop where
  sequence_eq : c.sequence = e.sequence
  reporter_eq : c.reporter = e.reporting.reporter
  run_eq : c.run = some e.force.run ∨ c.run = none ∧ e.force.workers = []
  sound : e.force.IsSound

variable {e e' : Episode} {c : Course} {crew crew' : Crew} {s s' : Surroundings} {now : Moment}

/-- An episode at its start is staged by a course at its start. -/
theorem stages_start (crew : Crew) (cancelled : Bool) (now : Nat) :
    (start crew cancelled).Stages (.start crew.kind cancelled now) :=
  ⟨rfl, rfl, .inr ⟨rfl, rfl⟩,
    ⟨rfl, fun index hended => by simp [start, default, Run.start] at hended⟩⟩

/-- An episode is staged also when both are cancelled. -/
theorem Stages.cancel (h : e.Stages c) : e.cancel.Stages c.cancel := by
  refine ⟨congrArg Tenure.Episode.Sequence.cancel h.sequence_eq, h.reporter_eq, ?_,
    h.sound.cancel⟩
  rcases h.run_eq with hrun | ⟨hrun, hworkers⟩
  · exact .inl (by simp [Course.cancel, hrun, Episode.cancel, Workforce.cancel])
  · exact .inr ⟨by simp [Course.cancel, hrun], hworkers⟩

/-- While the controllers run, the course has their run. -/
theorem Stages.run_of_controlling (h : e.Stages c) (hc : c.Coherent)
    (hstage : e.sequence.stage = .controlling) : c.run = some e.force.run := by
  rcases h.run_eq with hrun | ⟨hrun, -⟩
  · exact hrun
  · rw [← h.sequence_eq] at hstage
    simp [Course.Coherent, hstage, hrun] at hc

/-- A step of the reporter is one of the course, or only a publication that is on
its way. -/
theorem Stages.report (h : e.Stages c) (hnow : c.now = now.instant) {reporting : Reporting}
    (hstep : e.reporting.step s now e.sequence.reporterStops = some (reporting, s')) :
    Stages { e with reporting := reporting } c
      ∨ ∃ c', Course.Move c c' ∧ Stages { e with reporting := reporting } c' ∧ c'.now = c.now := by
  unfold Reporting.step at hstep
  split at hstep
  · cases hstep
    exact .inl ⟨h.sequence_eq, h.reporter_eq, h.run_eq, h.sound⟩
  · rename_i document arrival hpending _
    split at hstep <;> cases hstep
    rw [← h.reporter_eq] at hpending
    refine .inr ⟨_, .publish c document hpending, ⟨h.sequence_eq, ?_, h.run_eq, h.sound⟩, rfl⟩
    simp only [h.reporter_eq, hnow]
  · obtain ⟨⟨reporter, signs⟩, hadvance, heq⟩ := Option.map_eq_some_iff.mp hstep
    cases heq
    rw [← h.reporter_eq, ← h.sequence_eq] at hadvance
    refine .inr ⟨_, .report c now.wall reporter signs ?_, ⟨h.sequence_eq, rfl, h.run_eq, h.sound⟩,
      rfl⟩
    rw [hnow]
    exact hadvance

/-- A step of the controllers is one of the course, or nothing that it tells of. -/
theorem Stages.work (h : e.Stages c) {force : Workforce}
    (hstep : e.force.step s now.instant = some (force, s')) :
    Stages { e with force := force } c
      ∨ ∃ c', Course.Move c c' ∧ Stages { e with force := force } c' ∧ c'.now = c.now := by
  have hrun : c.run = some e.force.run := by
    rcases h.run_eq with hrun | ⟨-, hworkers⟩
    · exact hrun
    · simp [Workforce.step, hworkers, Workforce.stepFirst] at hstep
  cases h.sound.stepped hstep with
  | went hsame hsound =>
    exact .inl ⟨h.sequence_eq, h.reporter_eq, .inl (by rw [hrun, hsame]), hsound⟩
  | @finished index result hrunning hfinish hsound =>
    refine .inr ⟨_, .finish c e.force.run index result hrun hrunning,
      ⟨h.sequence_eq, h.reporter_eq, ?_,
      hsound⟩, rfl⟩
    exact .inl (by rw [hfinish])

/-- The controllers of a course start when those of the simulation do. -/
theorem Stages.populate (h : e.Stages c) (hc : c.Coherent)
    (hstage : c.sequence.stage = .populating) (crew : Crew) (s : Surroundings) :
    (e.populate crew s).1.Stages (c.populate crew.manager (s.read 0).2) := by
  have hworkers : e.force.workers = [] := by
    rcases h.run_eq with hrun | ⟨-, hworkers⟩
    · simp [Course.Coherent, hstage, hrun] at hc
    · exact hworkers
  unfold Episode.populate Course.populate
  rw [h.sequence_eq]
  rcases hread : s.read 0 with ⟨s', result⟩
  rcases hnext : e.sequence.populated crew.manager result with ⟨sequence, manager⟩
  simp only [hnext]
  cases hstage' : sequence.stage with
  | controlling => exact ⟨rfl, h.reporter_eq, .inl rfl, Workforce.isSound_start _ _⟩
  | populating | stopping result | ended result =>
    exact ⟨rfl, h.reporter_eq, .inr ⟨rfl, hworkers⟩, h.sound⟩

/-- A step of the sequence is one of the course. -/
theorem Stages.sequence (h : e.Stages c) (hc : c.Coherent)
    (hstep : e.stepSequence crew s = some (e', crew', s')) :
    crew'.kind = crew.kind ∧ ∃ c', Course.Move c c' ∧ e'.Stages c' ∧ c'.now = c.now := by
  unfold stepSequence at hstep
  have hsequence := h.sequence_eq
  split at hstep
  · -- the three steps of a sequence: the start phase, the end of the loop, the return
    rename_i hstage
    rw [← hsequence] at hstage
    have hpopulate := h.populate hc hstage crew s
    have hkind : (e.populate crew s).2.1.kind = crew.kind := rfl
    rw [Option.some.inj hstep] at hpopulate hkind
    exact ⟨hkind, _, .populate c crew.manager (s.read 0).2 hstage, hpopulate, rfl⟩
  · rename_i hstage
    obtain ⟨result, hresult, heq⟩ := Option.map_eq_some_iff.mp hstep
    cases heq
    have hrun := h.run_of_controlling hc hstage
    rw [← hsequence] at hstage
    refine ⟨rfl, _, .loopEnded c e.force.run result hstage hrun hresult, ?_, rfl⟩
    exact ⟨congrArg (·.loopEnded result) hsequence, h.reporter_eq, h.run_eq, h.sound⟩
  · rename_i result hstage
    split at hstep <;> cases hstep
    rename_i hresolved
    rw [← hsequence] at hstage
    rw [← h.reporter_eq] at hresolved
    refine ⟨rfl, _, .complete c result hstage hresolved, ?_, rfl⟩
    exact ⟨congrArg (·.completed) hsequence, h.reporter_eq, h.run_eq, h.sound⟩
  · cases hstep

/-- A step of a simulated episode is one of the course, or nothing that it tells
of. -/
theorem Stages.step (h : e.Stages c) (hc : c.Coherent) (hnow : c.now = now.instant)
    (hstep : e.step crew s now = some (e', crew', s')) :
    crew'.kind = crew.kind
      ∧ (e'.Stages c ∨ ∃ c', Course.Move c c' ∧ e'.Stages c' ∧ c'.now = c.now) := by
  unfold Episode.step at hstep
  split at hstep
  · rename_i hreport
    cases hstep
    exact ⟨rfl, h.report hnow hreport⟩
  · split at hstep
    · rename_i hwork
      cases hstep
      exact ⟨rfl, h.work hwork⟩
    · obtain ⟨hkind, hmove⟩ := h.sequence hc hstep
      exact ⟨hkind, .inr hmove⟩

end Episode

namespace EpisodeRun

open Tenure.Episode (Course)

/-- What a run of an episode by itself comes to. -/
inductive Reached : EpisodeRun → Prop
  | start (w : EpisodeRun) : Reached w.start
  | cancel {w : EpisodeRun} (h : Reached w) : Reached w.cancel
  | step {w w' : EpisodeRun} (h : Reached w) (hstep : World.step w = some w') : Reached w'
  | pass {w : EpisodeRun} (h : Reached w) (t : Nat) (hle : w.now ≤ t) :
      Reached (World.moveTo w t)

/-- Whatever such a run comes to, a course of its episode comes to. -/
theorem Reached.course {w : EpisodeRun} (h : Reached w) :
    ∃ c, Course.Reachable w.crew.kind c ∧ w.episode.Stages c ∧ c.now = w.now := by
  induction h with
  | start w => exact ⟨_, .start false w.now, Episode.stages_start w.crew false w.now, rfl⟩
  | cancel _ ih =>
    obtain ⟨c, hreach, hstages, hnow⟩ := ih
    exact ⟨c.cancel, hreach.cancel, hstages.cancel, hnow⟩
  | @step w w' _ hstep ih =>
    obtain ⟨c, hreach, hstages, hnow⟩ := ih
    obtain ⟨⟨episode, crew, surroundings⟩, hepisode, heq⟩ := Option.map_eq_some_iff.mp hstep
    cases heq
    -- a step that only concerns the surroundings is no move of the course
    obtain ⟨hkind, hsame | ⟨c', hmove, hstages', hnow'⟩⟩ :=
      hstages.step hreach.coherent hnow hepisode
    · exact ⟨c, by rwa [hkind], hsame, hnow⟩
    · refine ⟨c', ?_, hstages', hnow'.trans hnow⟩
      rw [hkind]
      exact hreach.move hmove
  | @pass w _ t hle ih =>
    obtain ⟨c, hreach, hstages, hnow⟩ := ih
    refine ⟨{ c with now := t }, hreach.move (.pass c t (hnow ▸ hle)), ?_, rfl⟩
    exact ⟨hstages.sequence_eq, hstages.reporter_eq, hstages.run_eq, hstages.sound⟩

/-- A run that goes on up to an instant is one that was reached. -/
theorem Reached.runTo {w : EpisodeRun} (h : Reached w) {limit : Nat} (hle : w.now ≤ limit) :
    Reached (runTo limit w) := by
  refine runUntil_induction ?_ (fun w t h hle => h.pass t hle) _ h hle
  intro w w' h hstep
  refine ⟨h.step hstep, ?_⟩
  obtain ⟨⟨episode, crew, surroundings⟩, -, heq⟩ := Option.map_eq_some_iff.mp hstep
  cases heq
  rfl

/-- When the episode has ended nothing more is done in a run, so nothing is
published or written down either. -/
theorem Reached.step_of_over {w : EpisodeRun} (h : Reached w) (hover : w.isOver = true) :
    World.step w = none := by
  obtain ⟨c, hreach, hstages, -⟩ := h.course
  obtain ⟨result, hresult⟩ := Option.isSome_iff_exists.mp hover
  have hstage : w.episode.sequence.stage = .ended result := Course.stage_of_result hresult
  have hcoherent := hreach.coherent
  simp only [Course.Coherent, hstages.sequence_eq, hstage, hstages.reporter_eq] at hcoherent
  obtain ⟨hrun, hresolved⟩ := hcoherent
  let now : Moment := ⟨w.now, w.epoch + w.now / 1000000⟩
  -- a run that is over has a reporter that has completed, controllers that have ended, and nothing
  -- more in its sequence
  have hreport : w.episode.reporting.step w.surroundings now w.episode.sequence.reporterStops
      = none := by
    simp only [Reporting.step, Reporter.pending_of_resolved hresolved,
      Reporter.advance_of_resolved hresolved, Option.map_none]
  have hwork : w.episode.force.step w.surroundings w.now = none := by
    rcases hstages.run_eq with hsame | ⟨-, hworkers⟩
    · exact hstages.sound.step_of_over (hrun _ hsame) _ _
    · simp [Workforce.step, hworkers, Workforce.stepFirst]
  have hsequence : w.episode.stepSequence w.crew w.surroundings = none := by
    simp only [Episode.stepSequence, hstage]
  exact Option.map_eq_none_iff.mpr (by simp only [Episode.step, now, hreport, hwork, hsequence])

/-- Whether the controllers of a run are at work, as a value that can be computed. -/
def controls (w : EpisodeRun) : Bool :=
  match w.episode.sequence.stage with
  | .controlling => true
  | _ => false

/-- The computed test for the controllers to be at work is about the stage of the session. -/
theorem stage_of_controls {w : EpisodeRun} (h : w.controls = true) :
    w.episode.sequence.stage = .controlling := by
  unfold controls at h
  split at h
  · assumption
  · cases h

/-- A controller that needs five seconds to stop, and a witness that needs fifty
milliseconds. -/
def slowStop : EpisodeRun where
  episode := default
  crew := ⟨.witness (.ofMillis 50) false,
    .new [Worker.factory "ctl" ⟨.cancellation, .ofSecs 5, .done⟩ none none]⟩
  surroundings := .empty
  now := 0
  epoch := 0

/-- The episode is cancelled after a second; this is what it has come to a second
later. -/
def slowStopping : EpisodeRun := runTo 2000000000 (runTo 1000000000 slowStop.start).cancel

/-- The token of the episode is cancelled, the reporter has completed, and the
control loop has not returned: its controller is still at work. -/
theorem completed_first :
    slowStopping.Reached ∧ slowStopping.episode.sequence.stage = .controlling
      ∧ slowStopping.episode.force.run.result? = none
      ∧ slowStopping.episode.reporting.reporter.isFinal = true
      ∧ slowStopping.surroundings.log = [⟨0, "reporter", "started"⟩, ⟨0, "ctl", "run"⟩,
        ⟨1000000000, "reporter", "cancelled"⟩, ⟨1000000000, "ctl", "cancelled"⟩,
        ⟨1050000000, "reporter", "completed"⟩] := by
  have hnow : World.now (runTo 1000000000 slowStop.start) = 1000000000 := runTo_now _ _
  have hsecond : (runTo 1000000000 slowStop.start).Reached :=
    (Reached.start slowStop).runTo (by decide)
  have hreached : slowStopping.Reached := by
    refine hsecond.cancel.runTo ?_
    show World.now (runTo 1000000000 slowStop.start) ≤ 2000000000
    rw [hnow]
    decide
  -- the run is short enough to be computed, and every part of the statement is read off its end
  have hrun : (slowStopping.controls
    && slowStopping.episode.force.run.result?.isNone
    && slowStopping.episode.reporting.reporter.isFinal
    && decide (slowStopping.surroundings.log = [⟨0, "reporter", "started"⟩, ⟨0, "ctl", "run"⟩,
        ⟨1000000000, "reporter", "cancelled"⟩, ⟨1000000000, "ctl", "cancelled"⟩,
        ⟨1050000000, "reporter", "completed"⟩])) = true := by decide +kernel
  simp only [Bool.and_eq_true, decide_eq_true_eq, Option.isNone_iff_eq_none] at hrun
  obtain ⟨⟨⟨hstage, hresult⟩, hfinal⟩, hlog⟩ := hrun
  exact ⟨hreached, stage_of_controls hstage, hresult, hfinal, hlog⟩

end EpisodeRun

end Tenure.Simulation
