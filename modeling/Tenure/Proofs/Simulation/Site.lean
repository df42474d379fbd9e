import Tenure.Proofs.Lifecycle.Ending
import Tenure.Simulation.Site

/-!
# `Tenure.Proofs.Simulation.Site`: simulated processes are courses

A site plays a process with a store in memory or in files, an episode whose parts
follow plans, and background tasks. `Site.Reached` holds of what a site comes to when
it is told to end, when the store and the link change, and as it takes its steps. Each
step is one thing that happens in the course of its process, or nothing that the
course tells of.

* `Site.Reached.course`: whatever a site comes to, a course comes to with the same
  process, the same sequence of its episode and the same tasks that have ended.
* `Site.Reached.over`: so a site that is over has ended in order.
-/

set_option autoImplicit false

namespace Tenure.Simulation

open Process (Course)

/-! ### Background tasks -/

namespace Chore

/-- The task that takes the next step is one of those in the list. -/
theorem stepFirst_eq {s s' : Surroundings} {now : Nat} {stops : Bool} {first index : Nat}
    {chores : List Chore} {chore' : Chore}
    (h : stepFirst s now stops first chores = some (index, chore', s')) :
    ∃ k chore signs, index = first + k ∧ chores[k]? = some chore
      ∧ chore.task.advance now stops = some (chore'.task, signs) := by
  induction chores generalizing first with
  | nil => cases h
  | cons head rest ih =>
    unfold stepFirst at h
    split at h
    · rename_i task signs hadvance
      cases h
      exact ⟨0, head, signs, rfl, rfl, hadvance⟩
    · obtain ⟨k, chore, signs, hindex, hget, hadvance⟩ := ih h
      exact ⟨k + 1, chore, signs, by omega, hget, hadvance⟩

/-- A task that takes a step has not ended before. -/
theorem running_of_advance {ε : Type} {task task' : Task ε} {now : Nat} {stops : Bool}
    {signs : List Task.Sign} (h : task.advance now stops = some (task', signs)) :
    task.isEnded = false := by
  cases hended : task.isEnded with
  | false => rfl
  | true =>
    rw [task.advance_ended now stops hended] at h
    cases h

end Chore

namespace Site

/-- A course of a process fits a site: it is the same process, the same sequence of its
episode, and the same tasks have ended. -/
structure Hosts (w : Site) (c : Course) : Prop where
  process_eq : c.process = w.process
  body_eq : c.body = w.episode.map Episode.sequence
  tasks_eq : c.tasks = w.chores.map (·.task.isEnded)

variable {w w' : Site} {c c' : Course}

/-! ### Each step -/

/-- Notes are followed in the same way. -/
theorem foldl_follow (notes : List Leader.Note) (hprocess : c.process = w.process)
    (hbody : c.body = w.episode.map Episode.sequence) :
    (notes.foldl Course.follow c).body
        = (notes.foldl Site.follow w).episode.map Episode.sequence
      ∧ (notes.foldl Site.follow w).process = w.process
      ∧ (notes.foldl Site.follow w).chores = w.chores := by
  induction notes generalizing w c with
  | nil => exact ⟨hbody, rfl, rfl⟩
  | cons note rest ih =>
    cases note with
    | started =>
      refine ih hprocess ?_
      show some _ = some _
      rw [Course.elector, hprocess]
      rfl
    | cancelled =>
      refine ih hprocess ?_
      show c.body.map _ = (w.episode.map Episode.cancel).map Episode.sequence
      rw [hbody, Option.map_map, Option.map_map]
      rfl
    | newLeader _ | stopped | measured _ => exact ih hprocess hbody

/-- A new state of the process is taken over in the same way. -/
theorem settle_eq (hbody : c.body = w.episode.map Episode.sequence)
    (answer : Process × List Leader.Note) :
    (c.settle answer).body = (w.withProcess answer).episode.map Episode.sequence
      ∧ (w.withProcess answer).process = answer.1
      ∧ (w.withProcess answer).chores = w.chores :=
  foldl_follow answer.2 (c := { c with process := answer.1 })
    (w := { w with process := answer.1 }) rfl hbody

/-- A site is followed by its course also when both take over an answer of the process. -/
theorem Hosts.settle (h : w.Hosts c) (answer : Process × List Leader.Note) :
    (w.withProcess answer).Hosts (c.settle answer) := by
  obtain ⟨hbody, hprocess, hchores⟩ := settle_eq h.body_eq answer
  refine ⟨(c.settle_process answer).trans hprocess.symm, hbody, ?_⟩
  rw [c.settle_tasks, hchores, h.tasks_eq]

/-- A step of the candidate is one of the course. -/
theorem Hosts.stepCandidate (h : w.Hosts c) (hstep : w.stepCandidate = some w') :
    ∃ c', Course.Move c c' ∧ w'.Hosts c' := by
  obtain ⟨⟨process, store, notes⟩, hadvance, rfl⟩ := Option.map_eq_some_iff.mp hstep
  rw [← h.process_eq] at hadvance
  -- a course does not tell of the store, whose replies may be any
  have hstored : (w.withStore store).Hosts c := ⟨h.process_eq, h.body_eq, h.tasks_eq⟩
  exact ⟨_, .advance c w.store store w.moment _ process notes hadvance,
    hstored.settle (process, notes)⟩

/-- A step of the sequence of an episode is one of the course. -/
theorem Hosts.stepSequence (h : w.Hosts c) {episode episode' : Episode} {crew : Crew}
    {s : Surroundings} (hepisode : w.episode = some episode)
    (hstep : episode.stepSequence w.crew w.surroundings = some (episode', crew, s)) :
    ∃ c', Course.Move c c'
      ∧ Hosts { w with episode := some episode', crew := crew, surroundings := s } c' := by
  have hbody : c.body = some episode.sequence := by rw [h.body_eq, hepisode]; rfl
  -- the stages in which a sequence goes on by itself
  unfold Episode.stepSequence at hstep
  split at hstep
  · rename_i hstage
    have hsequence : (episode.populate w.crew w.surroundings).1.sequence
        = (episode.sequence.populated w.crew.manager (w.surroundings.read 0).2).1 := rfl
    rw [Option.some.inj hstep] at hsequence
    refine ⟨_, .populate c _ w.crew.manager (w.surroundings.read 0).2 hbody hstage,
      h.process_eq, ?_, h.tasks_eq⟩
    exact congrArg some hsequence.symm
  · rename_i hstage
    obtain ⟨result, -, heq⟩ := Option.map_eq_some_iff.mp hstep
    cases heq
    exact ⟨_, .loopEnded c _ result hbody hstage, h.process_eq, rfl, h.tasks_eq⟩
  · rename_i result hstage
    split at hstep <;> cases hstep
    exact ⟨_, .complete c _ result hbody hstage, h.process_eq, rfl, h.tasks_eq⟩
  · cases hstep

/-- A step of the episode is one of the course, or nothing that it tells of. -/
theorem Hosts.stepEpisode (h : w.Hosts c) (hstep : w.stepEpisode = some w') :
    w'.Hosts c ∨ ∃ c', Course.Move c c' ∧ w'.Hosts c' := by
  obtain ⟨episode, hepisode, hstep⟩ := Option.bind_eq_some_iff.mp hstep
  have hbody : c.body = some episode.sequence := by rw [h.body_eq, hepisode]; rfl
  split at hstep
  · rename_i result hresult
    cases hstep
    obtain ⟨-, hprocess, hchores⟩ := settle_eq h.body_eq (w.process.endEpisode result)
    refine .inr ⟨_, .endBody c _ result hbody hresult, ?_, rfl, ?_⟩
    · show (c.process.endEpisode result).1 = (w.withProcess _).process
      rw [hprocess, h.process_eq]
    · show c.tasks = (w.withProcess _).chores.map (·.task.isEnded)
      rw [hchores, h.tasks_eq]
  · obtain ⟨⟨episode', crew, s⟩, hnext, hstep⟩ := Option.bind_eq_some_iff.mp hstep
    cases hstep
    -- the reporter and the controllers come before the sequence
    unfold Episode.step at hnext
    split at hnext
    · cases hnext
      exact .inl ⟨h.process_eq, hbody, h.tasks_eq⟩
    · split at hnext
      · cases hnext
        exact .inl ⟨h.process_eq, hbody, h.tasks_eq⟩
      · exact .inr (h.stepSequence hepisode hnext)

/-- A step of a background task is one of the course, or nothing that it tells of. -/
theorem Hosts.stepChore (h : w.Hosts c) (hstep : w.stepChore = some w') :
    w'.Hosts c ∨ ∃ c', Course.Move c c' ∧ w'.Hosts c' := by
  obtain ⟨⟨index, chore', s⟩, hfirst, hstep⟩ := Option.bind_eq_some_iff.mp hstep
  obtain ⟨k, chore, signs, hindex, hget, hadvance⟩ := Chore.stepFirst_eq hfirst
  obtain rfl : index = k := by omega
  have hrunning : c.tasks[index]? = some false := by
    rw [h.tasks_eq, List.getElem?_map, hget]
    exact congrArg some (Chore.running_of_advance hadvance)
  have htasks : (w.chores.set index chore').map (·.task.isEnded)
      = c.tasks.set index chore'.task.isEnded := by
    rw [List.map_set, h.tasks_eq]
  cases hended : chore'.task.isEnded with
  | true =>
    let site : Site := { w with chores := w.chores.set index chore', surroundings := s }
    let answer := w.process.endTask index chore'.name chore'.task.plan.ending
    obtain rfl : site.withProcess answer = w' := by simpa [hended] using hstep
    obtain ⟨hbody, hprocess, hchores⟩ := settle_eq (w := site) h.body_eq answer
    refine .inr ⟨_, .endTask c index chore'.name chore'.task.plan.ending hrunning, ?_, ?_, ?_⟩
    · show (c.settle (c.process.endTask _ _ _)).process = _
      rw [hprocess, c.settle_process, h.process_eq]
    · show (c.settle (c.process.endTask _ _ _)).body = _
      rw [← hbody, h.process_eq]
    · show c.tasks.set index true = _
      rw [hchores, ← hended]
      exact htasks.symm
  | false =>
    obtain rfl : { w with chores := w.chores.set index chore', surroundings := s } = w' := by
      simpa [hended] using hstep
    refine .inl ⟨h.process_eq, h.body_eq, ?_⟩
    -- the task was running before, so nothing changes in the list
    rw [htasks, hended]
    obtain ⟨hlt, hbefore⟩ := List.getElem?_eq_some_iff.mp hrunning
    rw [← hbefore, List.set_getElem_self]

/-- What the process does by itself is one step of the course. -/
theorem Hosts.stepProcess (h : w.Hosts c) (hstep : w.stepProcess = some w') :
    ∃ c', Course.Move c c' ∧ w'.Hosts c' := by
  obtain ⟨⟨process, notes⟩, hprocess, rfl⟩ := Option.map_eq_some_iff.mp hstep
  rw [← h.process_eq] at hprocess
  have hsettled := h.settle (process, notes)
  cases hconclude : c.process.conclude with
  | some answer =>
    obtain rfl : answer = (process, notes) := by simpa [hconclude] using hprocess
    exact ⟨_, .conclude c process notes hconclude, hsettled⟩
  | none =>
    have hnotice : c.process.notice = some (process, notes) := by simpa [hconclude] using hprocess
    cases hpanics : c.process.supervisor.panics with
    | nil => simp [Process.notice, Supervisor.notice, hpanics] at hnotice
    | cons panic rest =>
      -- a site does not write down what its process has noticed
      exact ⟨_, .notice c panic rest process notes hpanics hnotice,
        hsettled.process_eq, hsettled.body_eq, hsettled.tasks_eq⟩

/-- A step of a site is one of the course, or nothing that it tells of. -/
theorem Hosts.step (h : w.Hosts c) (hstep : World.step w = some w') :
    w'.Hosts c ∨ ∃ c', Course.Move c c' ∧ w'.Hosts c' := by
  obtain ⟨next, hnext, rfl⟩ := Option.map_eq_some_iff.mp hstep
  -- when the process has ended is only written down
  have hmarked {c : Course} (h : next.Hosts c) : next.markEnd.Hosts c := by
    unfold markEnd
    split
    · exact ⟨h.process_eq, h.body_eq, h.tasks_eq⟩
    · exact h
  -- the first part that can take a step takes it
  have hcases : next.Hosts c ∨ ∃ c', Course.Move c c' ∧ next.Hosts c' := by
    cases hcandidate : w.stepCandidate with
    | some site =>
      obtain rfl : site = next := by simpa [hcandidate] using hnext
      exact .inr (h.stepCandidate hcandidate)
    | none =>
      cases hepisode : w.stepEpisode with
      | some site =>
        obtain rfl : site = next := by simpa [hcandidate, hepisode] using hnext
        exact h.stepEpisode hepisode
      | none =>
        cases hchore : w.stepChore with
        | some site =>
          obtain rfl : site = next := by simpa [hcandidate, hepisode, hchore] using hnext
          exact h.stepChore hchore
        | none =>
          have hprocess : w.stepProcess = some next := by
            simpa [hcandidate, hepisode, hchore] using hnext
          exact .inr (h.stepProcess hprocess)
  rcases hcases with hsame | ⟨c', hmove, hnext'⟩
  · exact .inl (hmarked hsame)
  · exact .inr ⟨c', hmove, hmarked hnext'⟩

/-! ### Whole runs -/

/-- What a site comes to whose process competes again or not, and has a number of
background tasks. -/
inductive Reached (rejoins : Bool) (count : Nat) : Site → Prop
  | start (config : Config) (identity : Identity) (candidate : Leader.Candidate)
      (backing : Store.Backing) (crew : Crew) (plans : List (String × Plan String))
      (s : Surroundings) (epoch : Nat)
      (hcandidate : config.candidate identity 0 = .ok candidate)
      (hrejoins : config.election.rejoinAfterLoss = rejoins) (hcount : plans.length = count) :
      Reached rejoins count (start config candidate backing crew
        (plans.map fun (name, plan) => .new name plan) s epoch)
  | trigger {w : Site} (h : Reached rejoins count w) : Reached rejoins count w.trigger
  | overwrite {w : Site} (h : Reached rejoins count w) (record : Record) :
      Reached rejoins count (w.overwrite record)
  | changeLink {w : Site} (h : Reached rejoins count w) (f : Store.Link → Store.Link) :
      Reached rejoins count (w.changeLink f)
  | withFiles {w : Site} (h : Reached rejoins count w) (files : FileTree) :
      Reached rejoins count (w.withFiles files)
  | step {w w' : Site} (h : Reached rejoins count w) (hstep : World.step w = some w') :
      Reached rejoins count w'
  | pass {w : Site} (h : Reached rejoins count w) (t : Nat) (hle : w.now ≤ t) :
      Reached rejoins count (World.moveTo w t)

variable {rejoins : Bool} {count : Nat}

/-- A candidate that is made has a timing that was checked. -/
theorem candidate_cases {config : Config} {identity : Identity} {now : Nat}
    {candidate : Leader.Candidate} (h : config.candidate identity now = .ok candidate) :
    ∃ timing, candidate = config.candidateWith identity now timing := by
  unfold Config.candidate at h
  cases htiming : config.election.timing with
  | error e =>
    rw [htiming] at h
    cases h
  | ok timing =>
    rw [htiming] at h
    exact ⟨timing, (Except.ok.inj h).symm⟩

/-- A site at its start hosts a course at its start. -/
theorem exists_start {config : Config} {identity : Identity} {candidate : Leader.Candidate}
    (hcandidate : config.candidate identity 0 = .ok candidate) (backing : Store.Backing)
    (crew : Crew) (plans : List (String × Plan String)) (s : Surroundings) (epoch : Nat) :
    ∃ c, Course.Reachable config.election.rejoinAfterLoss plans.length c
      ∧ (start config candidate backing crew (plans.map fun (name, plan) => .new name plan) s
        epoch).Hosts c := by
  obtain ⟨timing, rfl⟩ := candidate_cases hcandidate
  let client := Lease.Client.new config.election.lock identity.name timing.lease
  refine ⟨_, .start client timing config.election.releaseOnCancel 0 .healthy, ?_, rfl, ?_⟩
  · show Process.start _ _ plans.length = Process.start _ _ (plans.map _).length
    rw [List.length_map]
    rfl
  · have hfresh : (fun chore : Chore => chore.task.isEnded)
        ∘ (fun plan : String × Plan String => Chore.new plan.1 plan.2) = fun _ => false := rfl
    show List.replicate plans.length false = (plans.map _).map _
    rw [List.map_map, hfresh, List.map_const']

/-- Whatever a site comes to, a course of its process comes to. -/
theorem Reached.course (h : Reached rejoins count w) :
    ∃ c, Course.Reachable rejoins count c ∧ w.Hosts c := by
  induction h with
  | start config identity candidate backing crew plans s epoch hcandidate hrejoins hcount =>
    rw [← hrejoins, ← hcount]
    exact exists_start hcandidate backing crew plans s epoch
  | @trigger w _ ih =>
    obtain ⟨c, hreach, hhosts⟩ := ih
    refine ⟨_, hreach.move (.trigger c), ?_⟩
    rw [hhosts.process_eq]
    exact hhosts.settle w.process.trigger
  -- what happens to the store or to the files is no move of the process
  | overwrite _ record ih =>
    obtain ⟨c, hreach, hhosts⟩ := ih
    exact ⟨c, hreach, hhosts.process_eq, hhosts.body_eq, hhosts.tasks_eq⟩
  | @changeLink w _ f ih =>
    obtain ⟨c, hreach, hhosts⟩ := ih
    let candidate := w.process.candidate
    refine ⟨_, hreach.move (.relink c (f candidate.link) candidate.transit), ?_, hhosts.body_eq,
      hhosts.tasks_eq⟩
    show (c.place _).process = _
    rw [Course.place, Course.elector, hhosts.process_eq]
    rfl
  | withFiles _ files ih =>
    obtain ⟨c, hreach, hhosts⟩ := ih
    exact ⟨c, hreach, hhosts.process_eq, hhosts.body_eq, hhosts.tasks_eq⟩
  | step _ hstep ih =>
    obtain ⟨c, hreach, hhosts⟩ := ih
    rcases hhosts.step hstep with hsame | ⟨c', hmove, hhosts'⟩
    · exact ⟨c, hreach, hsame⟩
    · exact ⟨c', hreach.move hmove, hhosts'⟩
  | pass _ t hle ih =>
    obtain ⟨c, hreach, hhosts⟩ := ih
    exact ⟨c, hreach, hhosts.process_eq, hhosts.body_eq, hhosts.tasks_eq⟩

/-- When a site is over its process was told to end, no episode is left, all tasks
have ended, and there was one episode at most unless the process competes again. -/
theorem Reached.over (h : Reached rejoins count w) (hover : w.isOver = true) :
    w.process.shutdown.triggered = true ∧ w.episode = none
      ∧ (∀ chore ∈ w.chores, chore.task.isEnded = true)
      ∧ (rejoins = false → w.process.candidate.elector.episodes ≤ 1) := by
  obtain ⟨c, hreach, hhosts⟩ := h.course
  obtain ⟨summary, hsummary⟩ := Option.isSome_iff_exists.mp hover
  obtain ⟨hdone, hawaited, -⟩ := Course.summary_cases hsummary
  rw [← hhosts.process_eq] at hdone hawaited ⊢
  obtain ⟨htriggered, hbody, htasks, -⟩ := hreach.ended hdone hawaited
  refine ⟨htriggered, ?_, fun chore hchore => ?_, ?_⟩
  · rw [hhosts.body_eq] at hbody
    exact Option.map_eq_none_iff.mp hbody
  · have hmem : chore.task.isEnded ∈ c.tasks := by
      rw [hhosts.tasks_eq]
      exact List.mem_map_of_mem hchore
    rw [htasks] at hmem
    exact (List.mem_replicate.mp hmem).2
  · rintro rfl
    exact hreach.episodes_le_one

end Site

end Tenure.Simulation
