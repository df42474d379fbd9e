import Tenure.Proofs.Lifecycle.Course

/-!
# `Tenure.Proofs.Lifecycle.Ending`: how a process comes to its end

A process is told to end by whatever fails in it, and it is over when its elector has
returned and its tasks were awaited. This module says what its end tells of its course,
and what the course tells of failures before the end.

What becomes of the elector in one move is read off once (`Led`), and so is what becomes
of the supervisor (`Watched`). From these two follow the invariants that reach over the
parts: an elector that does not compete again is through with its one episode, what the
supervisor of a process goes through is one of its own courses, and it does not wait
before the elector has returned.

The bound on the episodes rests on the order of two things. When an elector announces
the end of its episode it is out already, and it is told to shut down before it does
anything else. From then on it cannot become the leader, since it takes no reply while
it competes (`IsOnce`). Up to then it counts as the leader, and nobody who does starts
an episode.

* `Reachable.ends_in_order`: when a process is over, it was told to end, every body and
  every task has ended, and the exit code tells exactly whether an episode could not
  begin or a task has failed. It has started one episode at most if it does not compete
  again.
* `Reachable.failures_exact`: an error that a task returns takes the process down at
  once. A panic is fatal too, but it is noticed only while the supervisor waits, and it
  does not wait before the elector has returned.
* `leads_after_panic`: so a process goes on leading after one of its tasks has panicked.
-/

set_option autoImplicit false

namespace Tenure.Process

open Leader (Candidate Elector Note)
open Episode (Sequence)

namespace Course

variable {c c' : Course} {rejoins : Bool} {count : Nat}

/-! ### One episode at most -/

/-- At most one episode was started; when it is over the elector cannot become the
leader any more. -/
def IsOnce (e : Elector) : Prop :=
  e.episodes = 0 ∨ e.episodes = 1
    ∧ (e.leading = true ∨ e.shutdown = true ∧ e.machine.phase ≠ .leading)

/-- What happens to the elector when one thing happens to the process. -/
inductive Led (rejoins : Bool) (e : Elector) : Elector → Prop
  /-- Nothing. -/
  | stay : Led rejoins e e
  /-- It is told to shut down. -/
  | cancel : Led rejoins e e.cancel.1
  /-- The body of its episode ends. -/
  | endBody : Led rejoins e e.endBody
  /-- The body ends for a fatal reason. -/
  | fail : Led rejoins e e.cancel.1.endBody
  /-- It goes on, and may compete again. -/
  | goes {e' : Elector} {notes : List Note} (hgoes : e.Goes e' notes)
      (hon : rejoins = true ∨ Note.stopped ∉ notes) : Led rejoins e e'
  /-- It goes on, and is told to shut down as its episode is over. -/
  | retire {e' : Elector} {notes : List Note} (hgoes : e.Goes e' notes) (hout : e'.IsOut)
      (hepisodes : e'.episodes = e.episodes) : Led rejoins e e'.cancel.1

/-- A shutdown leads the elector at most to its notice. -/
theorem led_withShutdown (p : Process) (shutdown : Shutdown) :
    Led p.rejoins p.candidate.elector (p.withShutdown shutdown).1.candidate.elector
      ∧ (p.withShutdown shutdown).1.rejoins = p.rejoins := by
  rw [withShutdown_eq]
  split
  · exact ⟨.cancel, rfl⟩
  · exact ⟨.stay, rfl⟩

/-- The reaction to the elector's notes leads it nowhere but where it has gone. -/
theorem led_react {candidate : Candidate} {notes : List Note}
    (hgoes : c.elector.Goes candidate.elector notes) :
    Led c.process.rejoins c.elector
        (c.settle ((c.place candidate).process.react notes)).elector
      ∧ (c.settle ((c.place candidate).process.react notes)).process.rejoins
        = c.process.rejoins := by
  rcases settle_react hgoes with ⟨hsame, hon⟩ | ⟨hout, hepisodes, hends⟩
  · rw [hsame, settle_elector, settle_process]
    exact ⟨.goes hgoes hon, rfl⟩
  · rw [hends, settle_elector, settle_process]
    exact ⟨.retire hgoes hout hepisodes, (led_withShutdown (c.place candidate).process _).2⟩

/-- Whatever happens to the process, this is what happens to its elector; and whether
the process competes again stays as it is. -/
theorem Move.led (h : Move c c') (hc : c.IsTended) :
    Led c.process.rejoins c.elector c'.elector
      ∧ c'.process.rejoins = c.process.rejoins := by
  cases h with
  | advance store store' now delay process notes hadvance =>
    obtain ⟨candidate, seen, hgoes, heq⟩ := goes_of_advance hc hadvance
    rw [heq]
    exact led_react hgoes
  | hear now delay request reply hrequest =>
    exact led_react (hc.coherent.goes_answer hrequest now delay reply)
  | trigger =>
    rw [settle_elector, settle_process]
    exact led_withShutdown c.process _
  | endBody s result hbody hresult =>
    cases result with
    | ok outcome => exact ⟨.endBody, rfl⟩
    | error e => exact ⟨.fail, rfl⟩
  | breakDown s outcome hbody hstage => exact ⟨.endBody, rfl⟩
  | endTask task name ending hrunning =>
    -- a task that fails triggers the shutdown, and the elector is told of it
    let answer := c.process.supervisor.finish c.process.shutdown task name ending
    show Led _ _ (c.settle (c.process.endTask task name ending)).elector
      ∧ (c.settle (c.process.endTask task name ending)).process.rejoins = _
    rw [settle_elector, settle_process]
    exact led_withShutdown { c.process with supervisor := answer.1 } answer.2
  | conclude process notes hconclude =>
    obtain ⟨-, heq⟩ := conclude_cases hc hconclude
    rw [heq, settle_elector, settle_process]
    exact led_withShutdown { c.process with supervisor := c.process.supervisor.wait }
      c.process.shutdown.trigger
  | notice panic rest process notes hpanics hnotice =>
    obtain ⟨supervisor, shutdown, -, -, -, heq⟩ := notice_cases hnotice
    rw [heq]
    show Led _ _ (c.settle _).elector ∧ (c.settle _).process.rejoins = _
    rw [settle_elector, settle_process]
    exact led_withShutdown { c.process with supervisor := supervisor } shutdown
  | relink _ _ | populate _ _ _ _ _ | loopEnded _ _ _ _ | complete _ _ _ _ => exact ⟨.stay, rfl⟩

/-- What an elector that does not compete again does keeps its episodes to one. -/
theorem Led.isOnce {e e' : Elector} (h : Led false e e') (he : IsOnce e) : IsOnce e' := by
  have hcancel {e : Elector} (he : IsOnce e) : IsOnce e.cancel.1 := by
    rw [Elector.cancel_eq]
    rcases he with hnone | ⟨hone, hleading | ⟨-, hphase⟩⟩
    · exact .inl hnone
    · exact .inr ⟨hone, .inl hleading⟩
    · exact .inr ⟨hone, .inr ⟨rfl, hphase⟩⟩
  cases h with
  | stay => exact he
  | cancel => exact hcancel he
  | endBody => exact he
  | fail => exact hcancel he
  | goes hgoes hon =>
    have hsilent : Note.stopped ∉ _ := hon.resolve_left nofun
    -- as long as no episode starts and no end is announced
    have hlater (hleading : e'.leading = e.leading) (hepisodes : e'.episodes = e.episodes) :
        IsOnce e' := by
      rcases he with hnone | ⟨hone, hleads | ⟨hshutdown, hphase⟩⟩
      · exact .inl (hepisodes.trans hnone)
      · exact .inr ⟨hepisodes.trans hone, .inl (hleading.trans hleads)⟩
      · refine .inr ⟨hepisodes.trans hone, .inr ⟨hgoes.shutdown_eq.trans hshutdown, ?_⟩⟩
        intro hleads
        rcases hgoes.leading hleads with hbefore | hcalm
        · exact hphase hbefore
        · rw [hshutdown] at hcalm
          cases hcalm
    cases hgoes.shows with
    | start hidle hphase hstarted hleading hepisodes =>
      -- an episode that was there before would have to be over, with no way back
      rcases he with hnone | ⟨-, hleads | ⟨-, hout⟩⟩
      · exact .inr ⟨by rw [hepisodes, hnone], .inl hleading⟩
      · rw [hidle.2] at hleads
        cases hleads
      · exact absurd hphase hout
    | announce cause hout hepisode hleading hepisodes =>
      -- who does not compete again is told to end with the announcement
      exact absurd (by simp [Elector.notifyStopped]) hsilent
    | revoke _ _ _ hleading hepisodes => exact hlater hleading hepisodes
    | dismiss _ _ _ hleading hepisodes => exact hlater hleading hepisodes
    | nothing _ _ hleading hepisodes => exact hlater hleading hepisodes
  | @retire e' notes hgoes hout hepisodes =>
    -- it is out and was told to shut down: there is no way back to being the leader
    rw [Elector.cancel_eq]
    rcases he with hnone | ⟨hone, -⟩
    · exact .inl (hepisodes.trans hnone)
    · exact .inr ⟨hepisodes.trans hone, .inr ⟨rfl, hout.ne_leading⟩⟩

/-! ### What the supervisor goes through -/

/-- What the elector says does not concern the tasks. -/
theorem task?_ofNote {note : Note} {mark : Mark} (h : Mark.ofNote? note = some mark) :
    mark.task? = none := by
  cases note with
  | started =>
    cases h
    rfl
  | newLeader _ | cancelled | stopped | measured _ => cases h

/-- Settling takes over the supervisor and the shutdown, and marks nothing of the tasks. -/
theorem settle_watch (c : Course) (answer : Process × List Note) :
    (c.settle answer).watch
      = ⟨answer.1.supervisor, answer.1.shutdown, c.tasks, c.watch.marks⟩ := by
  have hsilent : (answer.2.filterMap Mark.ofNote?).filterMap Mark.task? = [] := by
    refine List.filterMap_eq_nil_iff.mpr fun mark hmark => ?_
    obtain ⟨note, -, hnote⟩ := List.mem_filterMap.mp hmark
    exact task?_ofNote hnote
  unfold watch
  rw [settle_process, settle_tasks, settle_marks, List.filterMap_append, hsilent, List.append_nil]

/-- What is written down shows in the watch as far as it concerns the tasks. -/
theorem write_watch (c : Course) (marks : List Mark) :
    (c.write marks).watch
      = { c.watch with marks := c.watch.marks ++ marks.filterMap Mark.task? } := by
  simp [watch, Course.write]

/-- A shutdown leaves the supervisor, and is taken over as it is. -/
theorem withShutdown_kept (p : Process) (shutdown : Shutdown) :
    (p.withShutdown shutdown).1.supervisor = p.supervisor
      ∧ (p.withShutdown shutdown).1.shutdown = shutdown := by
  rw [withShutdown_eq]
  split <;> exact ⟨rfl, rfl⟩

/-- What happens to the supervisor when one thing happens to the process, whose elector
has returned or not. -/
inductive Watched (returned : Bool) (w : Supervisor.Watch) : Supervisor.Watch → Prop
  /-- Nothing. -/
  | stay : Watched returned w w
  /-- One of the things that may happen to it while it waits or while it does not. -/
  | step {w' : Supervisor.Watch} (hmove : Supervisor.Watch.Move w w')
      (hsame : w'.supervisor.waiting = w.supervisor.waiting) : Watched returned w w'
  /-- The process is told to end, and the wait begins. -/
  | conclude (hreturned : returned = true) :
      Watched returned w
        { w with supervisor := w.supervisor.wait, shutdown := w.shutdown.trigger }

/-- The reaction to what the elector has done tells the process to end at most. -/
theorem watched_react (candidate : Candidate) (notes : List Note) (returned : Bool) :
    Watched returned c.watch (c.settle ((c.place candidate).process.react notes)).watch := by
  rw [settle_watch]
  unfold Process.react
  split
  · obtain ⟨hsupervisor, hshutdown⟩ := withShutdown_kept (c.place candidate).process
      (c.place candidate).process.shutdown.trigger
    show Watched returned c.watch
      ⟨(c.place candidate).process.trigger.1.supervisor,
        (c.place candidate).process.trigger.1.shutdown, _, _⟩
    unfold Process.trigger
    rw [hsupervisor, hshutdown]
    exact .step (.trigger c.watch) rfl
  · exact .stay

/-- A shutdown that is taken over together with a supervisor. -/
theorem settle_withShutdown_watch (c : Course) (supervisor : Supervisor) (shutdown : Shutdown) :
    (c.settle ({ c.process with supervisor := supervisor }.withShutdown shutdown)).watch
      = ⟨supervisor, shutdown, c.tasks, c.watch.marks⟩ := by
  obtain ⟨hsupervisor, hshutdown⟩ :=
    withShutdown_kept { c.process with supervisor := supervisor } shutdown
  rw [settle_watch, hsupervisor, hshutdown]

/-- The end of a body concerns the supervisor when it is fatal. -/
theorem watched_endBody (c : Course) (result : Episode.Result) (returned : Bool) :
    Watched returned c.watch (c.endBody result).watch := by
  cases result with
  | ok outcome =>
    have hwatch : (c.endBody (.ok outcome)).watch = c.watch := by
      simp [watch, Course.endBody, Process.endEpisode, Mark.ofResult, List.filterMap_cons,
        Mark.task?]
    rw [hwatch]
    exact .stay
  | error e =>
    obtain ⟨hsupervisor, hshutdown⟩ :=
      withShutdown_kept c.process (c.process.shutdown.fail e.message)
    -- the fatal error of an episode is a failure that is reported from elsewhere
    have hwatch : (c.endBody (.error e)).watch
        = ⟨(c.process.fail e.message).1.supervisor, (c.process.fail e.message).1.shutdown,
          c.tasks, c.watch.marks ++ [.elsewhere e.message]⟩ := by
      simp [watch, Course.endBody, Process.endEpisode, Mark.ofResult, List.filterMap_cons,
        Mark.task?]
    rw [hwatch]
    unfold Process.fail
    rw [hsupervisor, hshutdown]
    exact .step (.fail c.watch e.message) rfl

/-- The end of a task is, for the watch, just that. -/
theorem endTask_watch (c : Course) (task : Nat) (name : String) (ending : Ending String) :
    (c.endTask task name ending).watch = c.watch.finish task name ending := by
  let answer := c.process.supervisor.finish c.process.shutdown task name ending
  have hsettled := c.settle_withShutdown_watch answer.1 answer.2
  have hmarks : ((Supervisor.Mark.ofEnding task name ending).map Mark.task).filterMap Mark.task?
      = Supervisor.Mark.ofEnding task name ending := by
    simp [List.filterMap_map, Function.comp_def, Mark.task?]
  show Supervisor.Watch.mk
      (c.settle (c.process.endTask task name ending)).watch.supervisor
      (c.settle (c.process.endTask task name ending)).watch.shutdown (c.tasks.set task true)
      (((c.settle (c.process.endTask task name ending)).marks ++ _).filterMap Mark.task?) = _
  rw [List.filterMap_append, hmarks]
  show Supervisor.Watch.mk _ _ _ ((c.settle (c.process.endTask task name ending)).watch.marks ++ _)
    = _
  have hwatch : (c.settle (c.process.endTask task name ending)).watch
      = ⟨answer.1, answer.2, c.tasks, c.watch.marks⟩ := hsettled
  rw [hwatch]
  rfl

/-- Every move of a tended process is one of its supervisor, or leaves that alone. -/
theorem Move.watched (h : Move c c') (hc : c.IsTended) :
    Watched c.elector.isDone c.watch c'.watch := by
  cases h with
  | advance store store' now delay process notes hadvance =>
    obtain ⟨candidate, seen, hgoes, heq⟩ := goes_of_advance hc hadvance
    rw [heq]
    exact watched_react candidate seen _
  | hear now delay request reply hrequest => exact watched_react _ _ _
  | trigger =>
    have hwatch := c.settle_withShutdown_watch c.process.supervisor c.process.shutdown.trigger
    show Watched _ _ (c.settle (c.process.withShutdown c.process.shutdown.trigger)).watch
    rw [hwatch]
    exact .step (.trigger c.watch) rfl
  | populate s manager result hbody hstage =>
    obtain ⟨-, -, hunready⟩ := populated_eq s manager result
    -- an episode that cannot begin is written down, but not among what concerns the tasks
    have hsilent : (Mark.ofPopulate manager result).filterMap Mark.task? = [] := by
      refine List.filterMap_eq_nil_iff.mpr fun mark hmark => ?_
      obtain ⟨e, rfl⟩ := hunready mark hmark
      rfl
    rw [write_watch, hsilent, List.append_nil]
    exact .stay
  | endBody s result hbody hresult => exact watched_endBody c result _
  | breakDown s outcome hbody hstage => exact watched_endBody c (.ok outcome) _
  | endTask task name ending hrunning =>
    rw [endTask_watch]
    refine .step (.finish c.watch task name ending hrunning) ?_
    cases ending <;> rfl
  | conclude process notes hconclude =>
    obtain ⟨hdone, heq⟩ := conclude_cases hc hconclude
    have hwatch :=
      c.settle_withShutdown_watch c.process.supervisor.wait c.process.shutdown.trigger
    rw [heq]
    show Watched _ _ (c.settle ({ c.process with
      supervisor := c.process.supervisor.wait }.withShutdown c.process.shutdown.trigger)).watch
    rw [hwatch]
    exact .conclude hdone
  | notice panic rest process notes hpanics hnotice =>
    obtain ⟨supervisor, shutdown, hsupervisor, hsame, -, heq⟩ := notice_cases hnotice
    rw [heq, write_watch, settle_withShutdown_watch]
    exact .step (.notice c.watch panic rest supervisor shutdown hpanics hsupervisor) hsame
  | relink _ _ | loopEnded _ _ _ _ | complete _ _ _ _ => exact .stay

/-- An elector that has returned stays so. -/
theorem Led.isDone {e e' : Elector} (h : Led rejoins e e') (hdone : e.isDone = true) :
    e'.isDone = true := by
  have hcancel : e.cancel.1.isDone = true := by
    rw [Elector.cancel_eq]
    exact hdone
  cases h with
  | stay | endBody => exact hdone
  | cancel | fail => exact hcancel
  | goes hgoes hon => simp [hgoes.going] at hdone
  | retire hgoes hout hepisodes => simp [hgoes.going] at hdone

/-- What the supervisor of a process goes through is one of its courses. -/
theorem Reachable.watch (h : Reachable rejoins count c) :
    Supervisor.Watch.Reachable count c.watch := by
  induction h with
  | start client timing release born link => exact .start
  | @move c c' hbefore hmove ih =>
    have hwatched := hmove.watched hbefore.isTended
    generalize c'.watch = w' at hwatched ⊢
    cases hwatched with
    | stay => exact ih
    | step hstep hsame => exact .move ih hstep
    | conclude hreturned =>
      -- for the supervisor these are two things, one after the other
      exact .move (.move ih (.trigger c.watch)) (.wait _)

/-- The wait for the tasks begins when the elector has returned. -/
theorem Reachable.isDone_of_waiting (h : Reachable rejoins count c)
    (hwaiting : c.process.supervisor.waiting = true) : c.elector.isDone = true := by
  induction h with
  | start client timing release born link => cases hwaiting
  | @move c c' hbefore hmove ih =>
    have hled := (hmove.led hbefore.isTended).1
    have hwatched := hmove.watched hbefore.isTended
    refine hled.isDone ?_
    have hwaiting' : c'.watch.supervisor.waiting = true := hwaiting
    generalize c'.watch = w' at hwatched hwaiting'
    cases hwatched with
    | stay => exact ih hwaiting'
    | step hstep hsame => exact ih (hsame.symm.trans hwaiting')
    | conclude hreturned => exact hreturned

/-- Whether a process competes again is settled at its start. -/
theorem Reachable.rejoins_eq (h : Reachable rejoins count c) : c.process.rejoins = rejoins := by
  induction h with
  | start client timing release born link => rfl
  | move hbefore hmove ih => exact (hmove.led hbefore.isTended).2.trans ih

/-- A process that does not compete again starts one episode at most. -/
theorem Reachable.isOnce (h : Reachable false count c) : IsOnce c.elector := by
  induction h with
  | start client timing release born link => exact .inl rfl
  | move hbefore hmove ih =>
    have hled := (hmove.led hbefore.isTended).1
    rw [hbefore.rejoins_eq] at hled
    exact hled.isOnce ih

/-! ### Runs that can be computed -/

/-- One thing that happens to a process, as data. The candidate takes its steps at the
start of time, and the store replies as one likes. -/
inductive Deed
  | advance
  | hear (reply : Store.Reply)
  | trigger
  | populate (result : Except DefaultsError Defaults)
  | loopEnded (result : Except Control.Error Unit)
  | complete
  | endBody
  | endTask (task : Nat) (name : String) (ending : Ending String)
  | conclude
  | notice

/-- Lets one thing happen, if it can happen now. -/
def act (c : Course) : Deed → Option Course
  | .advance =>
    (c.process.advance .inMemory ⟨0, 0⟩ ⟨0⟩).map fun (process, _, notes) =>
      c.settle (process, notes)
  | .hear reply => c.elector.request?.map fun _ => c.hear ⟨0, 0⟩ ⟨0⟩ reply
  | .trigger => some (c.settle c.process.trigger)
  | .populate result =>
    match c.body with
    | some ⟨cancelled, .populating⟩ =>
      let manager : Control.Manager Unit := .new []
      let s : Sequence := ⟨cancelled, .populating⟩
      some ({ c with body := some (s.populated manager result).1 }.write
        (Mark.ofPopulate manager result))
    | _ => none
  | .loopEnded result =>
    match c.body with
    | some ⟨cancelled, .controlling⟩ =>
      some { c with body := some (Sequence.loopEnded ⟨cancelled, .controlling⟩ result) }
    | _ => none
  | .complete =>
    match c.body with
    | some ⟨cancelled, .stopping result⟩ =>
      some { c with body := some (Sequence.completed ⟨cancelled, .stopping result⟩) }
    | _ => none
  | .endBody => (c.body.bind Sequence.result?).map c.endBody
  | .endTask task name ending =>
    if c.tasks[task]? = some false then some (c.endTask task name ending) else none
  | .conclude => c.process.conclude.map c.settle
  | .notice =>
    match c.process.supervisor.panics with
    | panic :: _ =>
      c.process.notice.map fun answer => (c.settle answer).write [.task (.noticed panic)]
    | [] => none

/-- Lets one thing happen after another. -/
def play (c : Course) : List Deed → Option Course
  | [] => some c
  | deed :: rest => (c.act deed).bind (play · rest)

/-- A deed that can be done is a move. -/
theorem move_of_act {deed : Deed} (h : c.act deed = some c') : Move c c' := by
  cases deed with
  | advance =>
    obtain ⟨⟨process, store, notes⟩, hadvance, rfl⟩ := Option.map_eq_some_iff.mp h
    exact .advance c _ store _ _ process notes hadvance
  | hear reply =>
    obtain ⟨request, hrequest, rfl⟩ := Option.map_eq_some_iff.mp h
    exact .hear c _ _ request reply hrequest
  | trigger =>
    cases h
    exact .trigger c
  | populate result =>
    simp only [act] at h
    split at h <;> cases h
    rename_i hbody
    exact .populate c _ _ result hbody rfl
  | loopEnded result =>
    simp only [act] at h
    split at h <;> cases h
    rename_i hbody
    exact .loopEnded c _ result hbody rfl
  | complete =>
    simp only [act] at h
    split at h <;> cases h
    rename_i result hbody
    exact .complete c _ result hbody rfl
  | endBody =>
    obtain ⟨result, hresult, rfl⟩ := Option.map_eq_some_iff.mp h
    obtain ⟨s, hbody, hresult⟩ := Option.bind_eq_some_iff.mp hresult
    exact .endBody c s result hbody hresult
  | endTask task name ending =>
    simp only [act] at h
    split at h <;> cases h
    rename_i hrunning
    exact .endTask c task name ending hrunning
  | conclude =>
    obtain ⟨⟨process, notes⟩, hconclude, rfl⟩ := Option.map_eq_some_iff.mp h
    exact .conclude c process notes hconclude
  -- a panic is noticed in the order in which the tasks have panicked
  | notice =>
    simp only [act] at h
    split at h
    · rename_i panic rest hpanics
      obtain ⟨⟨process, notes⟩, hnotice, rfl⟩ := Option.map_eq_some_iff.mp h
      exact .notice c panic rest process notes hpanics hnotice
    · cases h

/-- What can be played is a run. -/
theorem Reachable.play (h : Reachable rejoins count c) {deeds : List Deed}
    (hplay : c.play deeds = some c') : Reachable rejoins count c' := by
  induction deeds generalizing c with
  | nil =>
    cases hplay
    exact h
  | cons deed rest ih =>
    obtain ⟨next, hact, hrest⟩ := Option.bind_eq_some_iff.mp hplay
    exact ih (.move h (move_of_act hact)) hrest

/-- A process that was just started, for a lock that nobody else competes for, and that
keeps the lock when it ends. -/
def novice (rejoins : Bool) (count : Nat) : Course :=
  start ⟨.new (.new ⟨"test", "lock"⟩ "a" Leader.Timing.standard.lease) .standard false 0,
    .healthy, none⟩ rejoins count

/-- The process used as an example is one at its start. -/
theorem reachable_novice (rejoins : Bool) (count : Nat) :
    Reachable rejoins count (novice rejoins count) := .start _ _ _ _ _

/-- The lock is taken, and an episode starts. -/
def accession : List Deed :=
  [.advance, .hear (.found none), .hear (.written 1), .advance, .advance, .advance]

/-! ### What the end tells of the course -/

/-- Whether a mark is of something that decides on the exit code: an episode that cannot
begin, or a task that fails. -/
def isFatal : Mark → Bool
  | .unready _ | .task (.returned _ _) | .task (.panicked _) => true
  | _ => false

/-- Once the process was told to end, no body holds a token that is not cancelled. -/
theorem IsTended.cancelled (h : c.IsTended) (htriggered : c.process.shutdown.triggered = true)
    {s : Sequence} (hbody : c.body = some s) : s.cancelled = true := by
  have htoken : token? c.elector = some s.cancelled := by
    rw [← h.body_eq, hbody]
    rfl
  unfold token? at htoken
  split at htoken
  · rename_i episode hepisode
    split at htoken
    · cases htoken
    · rw [← Option.some.inj htoken]
      exact h.revoked (h.told.trans htriggered) episode hepisode
  · cases htoken

/-- The watch has just the marks that concern the tasks. -/
theorem mem_watch {mark : Supervisor.Mark} : mark ∈ c.watch.marks ↔ .task mark ∈ c.marks := by
  refine List.mem_filterMap.trans ⟨?_, fun hmark => ⟨_, hmark, rfl⟩⟩
  rintro ⟨written, hwritten, htask⟩
  cases written with
  | task m =>
    cases htask
    exact hwritten
  | started | ended | unready _ => cases htask

/-- When every episode has reported what kept it from beginning, the reasons reported
from elsewhere are these. -/
theorem IsTended.elsewhere_iff (h : c.IsTended) (hbody : c.body = none) (reason : String) :
    Mark.task (.elsewhere reason) ∈ c.marks
      ↔ ∃ e : Episode.FatalError, .unready e ∈ c.marks ∧ e.message = reason := by
  -- no body is under way, so every error that a body met has been handed on
  have hreported : c.marks.filterMap Mark.unready? = c.marks.filterMap Mark.elsewhere? := by
    simpa [stage?, hbody] using h.reported
  have helsewhere : reason ∈ c.marks.filterMap Mark.elsewhere?
      ↔ Mark.task (.elsewhere reason) ∈ c.marks := by
    refine List.mem_filterMap.trans ⟨?_, fun hmark => ⟨_, hmark, rfl⟩⟩
    rintro ⟨mark, hmark, hreason⟩
    unfold Mark.elsewhere? at hreason
    split at hreason <;> cases hreason
    exact hmark
  rw [← helsewhere, ← hreported, List.mem_filterMap]
  constructor
  · rintro ⟨mark, hmark, hreason⟩
    cases mark with
    | unready e => exact ⟨e, hmark, Option.some.inj hreason⟩
    | started | ended | task _ => cases hreason
  · rintro ⟨e, hmark, rfl⟩
    exact ⟨_, hmark, rfl⟩

/-- When nothing is left to be noticed or reported, there is a fatal reason exactly
if something has failed. -/
theorem fatal_iff (htended : c.IsTended) (hfaithful : c.watch.IsFaithful)
    (hnoticed : c.watch.marks.filterMap Supervisor.Mark.noticed?
      = c.watch.marks.filterMap Supervisor.Mark.panicked?) (hbody : c.body = none) :
    c.process.shutdown.fatal.isSome = true ↔ ∃ mark ∈ c.marks, isFatal mark = true := by
  have hfatal : c.process.shutdown.fatal = c.watch.firstReport? := hfaithful.fatal_eq
  -- nothing is left to be noticed, so a panic is as good as its report
  have hpanics (panic : Panic) : Supervisor.Mark.noticed panic ∈ c.watch.marks
      ↔ Supervisor.Mark.panicked panic ∈ c.watch.marks := by
    rw [← Supervisor.Mark.mem_noticed, hnoticed, Supervisor.Mark.mem_panicked]
  rw [hfatal]
  refine List.findSome?_isSome_iff.trans ⟨?_, ?_⟩
  · rintro ⟨mark, hmark, hreport⟩
    cases mark with
    | returned name message => exact ⟨_, mem_watch.mp hmark, rfl⟩
    | noticed panic => exact ⟨_, mem_watch.mp ((hpanics panic).mp hmark), rfl⟩
    | elsewhere reason =>
      obtain ⟨e, he, -⟩ := (htended.elsewhere_iff hbody reason).mp (mem_watch.mp hmark)
      exact ⟨_, he, rfl⟩
    | panicked panic => cases hreport
  · rintro ⟨mark, hmark, hfails⟩
    unfold isFatal at hfails
    split at hfails
    · rename_i e
      have hreported := (htended.elsewhere_iff hbody e.message).mpr ⟨e, hmark, rfl⟩
      exact ⟨_, mem_watch.mpr hreported, rfl⟩
    · exact ⟨_, mem_watch.mpr hmark, rfl⟩
    · rename_i panic
      exact ⟨_, (hpanics panic).mpr (mem_watch.mpr hmark), rfl⟩
    · cases hfails

/-- What holds of a process when its elector has returned and the wait for its tasks is
over. -/
theorem Reachable.ended (h : Reachable rejoins count c) (hdone : c.elector.isDone = true)
    (hover : c.process.supervisor.isOver = true) :
    c.process.shutdown.triggered = true ∧ c.body = none ∧ c.tasks = List.replicate count true
      ∧ (c.process.shutdown.fatal.isSome = true ↔ ∃ mark ∈ c.marks, isFatal mark = true) := by
  have htended := h.isTended
  -- an elector that has returned has no episode, and does not return unless it is told to
  obtain ⟨hidle, hshutdown⟩ := htended.coherent.of_isDone hdone
  have hbody : c.body = none := by simpa [token?, hidle.1] using htended.body_eq
  obtain ⟨htasks, hnoticed⟩ := h.watch.ended_of_isOver hover
  exact ⟨htended.told.symm.trans hshutdown, hbody, htasks,
    fatal_iff htended h.watch.isFaithful hnoticed hbody⟩

/-- A process that does not compete again has had one episode at most. -/
theorem Reachable.episodes_le_one (h : Reachable false count c) : c.elector.episodes ≤ 1 := by
  rcases h.isOnce with hnone | ⟨hone, -⟩
  · exact Nat.le_trans (Nat.le_of_eq hnone) (Nat.zero_le 1)
  · exact Nat.le_of_eq hone

/-- How a process has ended is known when its elector has returned and its tasks were
awaited. -/
theorem summary_cases {p : Process} {summary : Summary} (h : p.summary? = some summary) :
    p.candidate.elector.isDone = true ∧ p.supervisor.isOver = true
      ∧ summary = ⟨p.candidate.elector.episodes, p.shutdown.fatal⟩ := by
  unfold Process.summary? at h
  split at h
  · rename_i hover
    obtain ⟨hdone, hawaited⟩ := Bool.and_eq_true_iff.mp hover
    exact ⟨hdone, hawaited, (Option.some.inj h).symm⟩
  · cases h

/-- A process that is over was told to end; its bodies and its tasks have ended; its
exit code tells exactly whether an episode could not begin or a task has failed; and it
has started one episode at most unless it competes again. -/
theorem Reachable.ends_in_order (h : Reachable rejoins count c) {summary : Summary}
    (hsummary : c.process.summary? = some summary) :
    c.process.shutdown.triggered = true
      ∧ c.body = none ∧ c.marks.count .ended = c.marks.count .started
      ∧ c.tasks = List.replicate count true
      ∧ (summary.exitCode = 1 ↔ ∃ mark ∈ c.marks, isFatal mark = true)
      ∧ summary.episodes = c.marks.count .started
      ∧ (rejoins = false → summary.episodes ≤ 1) := by
  obtain ⟨hdone, hover, rfl⟩ := summary_cases hsummary
  obtain ⟨htriggered, hbody, htasks, hfatal⟩ := h.ended hdone hover
  have hcounted : c.marks.count .started = c.marks.count .ended := by
    simpa [hbody] using h.isTended.counted
  refine ⟨htriggered, hbody, hcounted.symm, htasks, ?_, h.isTended.episodes_eq, ?_⟩
  · rw [← hfatal]
    unfold Summary.exitCode
    split <;> simp_all
  · rintro rfl
    exact h.episodes_le_one

/-- The defaults of an episode cannot be read, and a task panics on the way; the
process ends, the panic is noticed, and the other task ends well. -/
def misfortune : List Deed :=
  accession
    ++ [.populate (.error (.interrupted "boom")), .endTask 0 "health" (.panicked "boom"),
      .complete, .endBody]
    ++ List.replicate 10 .advance
    ++ [.conclude, .notice, .endTask 1 "metrics" .done]

/-- A process that ends with an exit code of 1, for the reason of its episode. -/
theorem ends_in_order_misfortune :
    ∃ c summary, (novice false 2).play misfortune = some c ∧ c.process.summary? = some summary
      ∧ summary.fatal = some "failed to populate defaults: defaults task failed: boom"
      ∧ c.process.shutdown.triggered = true
      ∧ c.body = none ∧ c.tasks = [true, true]
      ∧ (∃ mark ∈ c.marks, isFatal mark = true)
      ∧ summary.episodes = 1 ∧ c.marks.count .ended = 1 := by
  have hplay : ∃ c summary, (novice false 2).play misfortune = some c
      ∧ c.process.summary? = some summary ∧ summary.episodes = 1
      ∧ summary.fatal = some "failed to populate defaults: defaults task failed: boom" :=
    ⟨_, _, rfl, rfl, rfl, rfl⟩
  obtain ⟨c, summary, hc, hsummary, hone, hfatal⟩ := hplay
  have hreach : Reachable false 2 c := (reachable_novice false 2).play hc
  obtain ⟨htriggered, hbody, hended, htasks, hexit, hepisodes, -⟩ :=
    hreach.ends_in_order hsummary
  have hcode : summary.exitCode = 1 := by simp [Summary.exitCode, hfatal]
  exact ⟨c, summary, hc, hsummary, hfatal, htriggered, hbody, htasks, hexit.mp hcode, hone,
    hended.trans (hepisodes.symm.trans hone)⟩

/-! ### What becomes of failures before the end -/

/-- How failures of tasks become known, to any supervisor and in any process. What is
expected of a failure is met exactly when it is also the first that was reported. What
is reported ends the process at once; a panic is reported when it is noticed, in its
turn, and not before the supervisor waits. So in a process an error that a task returns
cancels the token of the body that runs, but no panic is noticed before the elector has
returned. -/
theorem Reachable.failures_exact {tasks : Nat} {w : Supervisor.Watch}
    (hw : Supervisor.Watch.Reachable tasks w) (hc : Reachable rejoins count c) :
    (w.IsTakenDown ↔ ∀ reason, w.firstFailure? = some reason → w.firstReport? = some reason)
      ∧ w.shutdown.fatal = w.firstReport?
      ∧ (∀ mark ∈ w.marks, mark.report?.isSome = true → w.shutdown.triggered = true)
      ∧ w.marks.filterMap Supervisor.Mark.noticed? ++ w.supervisor.panics
        = w.marks.filterMap Supervisor.Mark.panicked?
      ∧ (w.supervisor.waiting = false → ∀ panic, .noticed panic ∉ w.marks)
      ∧ Supervisor.Watch.Reachable count c.watch
      ∧ (∀ name message, .task (.returned name message) ∈ c.marks →
        c.process.shutdown.triggered = true ∧ c.elector.shutdown = true
          ∧ ∀ s ∈ c.body, s.cancelled = true)
      ∧ (c.elector.isDone = false → ∀ panic, .task (.noticed panic) ∉ c.marks) := by
  have hfaithful := hw.isFaithful
  -- as long as nobody waits for the tasks, no panic has been noticed
  have unnoticed {w : Supervisor.Watch} (h : w.IsFaithful)
      (hidle : w.supervisor.waiting = false) (panic : Panic) : .noticed panic ∉ w.marks := by
    intro hmark
    have hmem := Supervisor.Mark.mem_noticed.mpr hmark
    rw [h.unnoticed hidle] at hmem
    cases hmem
  refine ⟨hfaithful.isTakenDown_iff, hfaithful.fatal_eq, ?_, hfaithful.panics_eq,
    unnoticed hfaithful, hc.watch, ?_, ?_⟩
  · intro mark hmark hreport
    obtain ⟨reason, hreason⟩ := Option.isSome_iff_exists.mp hreport
    exact hfaithful.triggered_of_report hmark hreason
  · intro name message hmark
    have htriggered : c.process.shutdown.triggered = true :=
      hc.watch.isFaithful.triggered_of_report (mem_watch.mpr hmark) rfl
    exact ⟨htriggered, hc.isTended.told.trans htriggered,
      fun s hbody => hc.isTended.cancelled htriggered hbody⟩
  · intro hgoing panic hmark
    -- the supervisor waits only once the elector has returned
    have hidle : c.watch.supervisor.waiting = false := by
      cases hwaiting : c.process.supervisor.waiting with
      | false => exact hwaiting
      | true =>
        rw [hc.isDone_of_waiting hwaiting] at hgoing
        cases hgoing
    exact unnoticed hc.watch.isFaithful hidle panic (mem_watch.mpr hmark)

/-- Of two tasks the first one panics, and the second one returns an error: what is
known is the error. -/
def overlooked : Supervisor.Watch :=
  ((Supervisor.Watch.start 2).finish 0 "health" (.panicked "boom")).finish 1 "metrics"
    (.failed "refused")

/-- The supervisor used as an example is one that is reached. -/
theorem reachable_overlooked : Supervisor.Watch.Reachable 2 overlooked :=
  .move (.move .start (.finish _ 0 "health" _ rfl)) (.finish _ 1 "metrics" _ rfl)

/-- A task of a process that leads panics. -/
def mishap : List Deed := accession ++ [.endTask 0 "health" (.panicked "boom")]

/-- A supervisor that knows of the second failure only, and a process whose task has
returned an error. -/
theorem failures_exact_overlooked :
    ∃ c, (novice true 1).play (accession ++ [.endTask 0 "health" (.failed "refused")]) = some c
      ∧ overlooked.shutdown = ⟨true, some "metrics: refused"⟩
      ∧ ¬ overlooked.IsTakenDown
      ∧ c.process.shutdown = ⟨true, some "health: refused"⟩
      ∧ c.elector.shutdown = true ∧ (∀ s ∈ c.body, s.cancelled = true) := by
  have hplay : ∃ c, (novice true 1).play
      (accession ++ [.endTask 0 "health" (.failed "refused")]) = some c
        ∧ c.process.shutdown = ⟨true, some "health: refused"⟩
        ∧ c.marks = [.started, .task (.returned "health" "refused")] := ⟨_, rfl, rfl, rfl⟩
  obtain ⟨c, hc, hshutdown, hmarks⟩ := hplay
  have hreach : Reachable true 1 c := (reachable_novice true 1).play hc
  obtain ⟨htaken, -, -, -, -, -, hreturned, -⟩ := hreach.failures_exact reachable_overlooked
  obtain ⟨-, htold, hcancelled⟩ := hreturned "health" "refused" (by simp [hmarks])
  refine ⟨c, hc, rfl, ?_, hshutdown, htold, hcancelled⟩
  intro htakenDown
  have hfirst := htaken.mp htakenDown _ rfl
  revert hfirst
  decide

/-- A process goes on leading, with a token that is not cancelled, after one of its tasks
has panicked. -/
theorem leads_after_panic :
    ∃ c, (novice true 1).play mishap = some c ∧ Reachable true 1 c
      ∧ Mark.task (.panicked ⟨0, "boom"⟩) ∈ c.marks
      ∧ c.process.shutdown = .new ∧ c.elector.leading = true
      ∧ c.body = some ⟨false, .populating⟩ ∧ ¬ c.watch.IsTakenDown := by
  have hplay : ∃ c, (novice true 1).play mishap = some c
      ∧ c.marks = [.started, .task (.panicked ⟨0, "boom"⟩)] ∧ c.process.shutdown = .new
      ∧ c.elector.leading = true ∧ c.body = some ⟨false, .populating⟩ :=
    ⟨_, rfl, rfl, rfl, rfl, rfl⟩
  obtain ⟨c, hc, hmarks, hshutdown, hleading, hbody⟩ := hplay
  have hreach : Reachable true 1 c := (reachable_novice true 1).play hc
  refine ⟨c, hc, hreach, by simp [hmarks], hshutdown, hleading, hbody, fun htaken => ?_⟩
  have hfirst : c.watch.firstFailure? = Supervisor.Mark.failure? (.panicked ⟨0, "boom"⟩) := by
    show (c.marks.filterMap Mark.task?).findSome? Supervisor.Mark.failure? = _
    rw [hmarks]
    rfl
  have htriggered : c.process.shutdown.triggered = true := (htaken _ hfirst).1
  rw [hshutdown] at htriggered
  cases htriggered

end Course

end Tenure.Process
