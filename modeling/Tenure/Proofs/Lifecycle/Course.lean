import Tenure.Lifecycle.Process
import Tenure.Proofs.Leader.Arena
import Tenure.Proofs.Leader.Shown
import Tenure.Proofs.Lifecycle.Watch

/-!
# `Tenure.Proofs.Lifecycle.Course`: the course of a process

A process with the body of its episode and its background tasks, in any order of what
can happen. The store replies whatever it likes, the process may be told to end at any
time, the defaults are read and the controllers registered with any result, the control
loop and the tasks end when and how they like, and the body of an episode may break
down. `Mark` is what an observer writes down: which bodies have started and ended,
which episodes could not begin, and what became of the tasks.

The elector and whoever runs the bodies talk in notes, so what one of them believes of
the other has to be shown: `IsTended` says that they agree.

* `Reachable.isTended`: the elector knows of the body that runs, its token is cancelled
  once the process was told to end, and every fatal error of an episode is reported
  when its body ends.

## What is left open

A `Move` asks for no more than the stage that it happens in. What the store replies,
when calls get lost, what the defaults and the controllers come to, how and when the
loop and the tasks end, and in which order all this happens is left open. So a process
that runs has one of these courses, and what holds of all of them holds of it.

What is not left open is who reports a fatal reason: the tasks and their supervisor, and
the body of an episode when it ends. Whoever else ends the process ends it in order
(`Move.trigger`).
-/

set_option autoImplicit false

namespace Tenure.Process

open Leader (Candidate Elector Note)
open Episode (Sequence)

/-- What happens in a process. -/
inductive Mark
  /-- An episode starts, and its body with it. -/
  | started
  /-- The body of an episode has returned or broken down. -/
  | ended
  /-- An episode cannot begin: its defaults cannot be read, or its controllers cannot
  be registered. -/
  | unready (error : Episode.FatalError)
  /-- What concerns the background tasks. -/
  | task (mark : Supervisor.Mark)
deriving Repr, DecidableEq

namespace Mark

/-- The mark that a note leaves, if any. -/
def ofNote? : Note → Option Mark
  | .started => some started
  | _ => none

/-- What is to be written down when the defaults were read and the controllers are
registered with them. -/
def ofPopulate {γ : Type} (manager : Control.Manager γ) :
    Except DefaultsError Defaults → List Mark
  | .error e => [unready (.defaults e)]
  | .ok defaults =>
    match (manager.register defaults).2 with
    | .error e => [unready (.registration e)]
    | .ok () => []

/-- What is to be written down when the body of an episode ends. -/
def ofResult : Episode.Result → List Mark
  | .error e => [ended, task (.elsewhere e.message)]
  | .ok _ => [ended]

/-- What concerns the background tasks. -/
def task? : Mark → Option Supervisor.Mark
  | task mark => some mark
  | _ => none

/-- The reason why an episode cannot begin. -/
def unready? : Mark → Option String
  | unready e => some e.message
  | _ => none

/-- The reason that is reported from elsewhere than the background tasks. -/
def elsewhere? : Mark → Option String
  | task (.elsewhere reason) => some reason
  | _ => none

end Mark

/-- A process at work, and what is written down about it. -/
structure Course where
  process : Process
  /-- The body of the episode, while it runs. -/
  body : Option Sequence
  /-- For each background task, whether it has ended. -/
  tasks : List Bool
  marks : List Mark

namespace Course

/-- A process at its start, with a number of background tasks. -/
def start (candidate : Candidate) (rejoins : Bool) (count : Nat) : Course :=
  ⟨.start candidate rejoins count, none, List.replicate count false, []⟩

/-- The elector of the process. -/
def elector (c : Course) : Elector := c.process.candidate.elector

/-- The supervisor of the process, and what is written down about its tasks. -/
def watch (c : Course) : Supervisor.Watch :=
  ⟨c.process.supervisor, c.process.shutdown, c.tasks, c.marks.filterMap Mark.task?⟩

/-! ### What happens to a process -/

/-- Follows what the elector says: bodies are started, and their tokens cancelled. -/
def follow (c : Course) : Note → Course
  | .started =>
    { c with
      body := some (.start (c.elector.episode.any Leader.Episode.cancelled))
      marks := c.marks ++ [.started] }
  | .cancelled => { c with body := c.body.map Sequence.cancel }
  | .newLeader _ | .stopped | .measured _ => c

/-- Takes over a new state of the process and follows its notes. -/
def settle (c : Course) (answer : Process × List Note) : Course :=
  answer.2.foldl follow { c with process := answer.1 }

/-- The candidate has come to another state. -/
def place (c : Course) (candidate : Candidate) : Course :=
  { c with process := { c.process with candidate := candidate } }

/-- Something is written down. -/
def write (c : Course) (marks : List Mark) : Course := { c with marks := c.marks ++ marks }

/-- The elector takes a reply. -/
def hear (c : Course) (now : Moment) (delay : Duration) (reply : Store.Reply) : Course :=
  let (elector, notes) := c.elector.answer now delay reply
  c.settle ((c.place { c.process.candidate with elector := elector }).process.react notes)

/-- The body of the episode ends. The notes that go with it concern a token that
nobody holds any more. -/
def endBody (c : Course) (result : Episode.Result) : Course :=
  ⟨(c.process.endEpisode result).1, none, c.tasks, c.marks ++ Mark.ofResult result⟩

/-- A background task ends. -/
def endTask (c : Course) (task : Nat) (name : String) (ending : Ending String) : Course :=
  let c' := c.settle (c.process.endTask task name ending)
  { c' with tasks := c.tasks.set task true }.write
    ((Supervisor.Mark.ofEnding task name ending).map .task)

/-- One thing that happens in the course of a process. -/
inductive Move : Course → Course → Prop
  /-- The candidate does something by itself, with the store as it is then. -/
  | advance (c : Course) (store store' : Store.Shared) (now : Moment) (delay : Duration)
      (process : Process) (notes : List Note)
      (hadvance : c.process.advance store now delay = some (process, store', notes)) :
      Move c (c.settle (process, notes))
  /-- The store replies to the call that is out, whatever it likes. -/
  | hear (c : Course) (now : Moment) (delay : Duration) (request : Store.Request)
      (reply : Store.Reply) (hrequest : c.elector.request? = some request) :
      Move c (c.hear now delay reply)
  /-- The link to the store changes, and calls may get lost. -/
  | relink (c : Course) (link : Store.Link) (transit : Option Store.Transit) :
      Move c (c.place ⟨c.elector, link, transit⟩)
  /-- The process is told to end in order. -/
  | trigger (c : Course) : Move c (c.settle c.process.trigger)
  /-- The defaults were read, and the controllers are registered with them. -/
  | populate (c : Course) (s : Sequence) {γ : Type} (manager : Control.Manager γ)
      (result : Except DefaultsError Defaults) (hbody : c.body = some s)
      (hstage : s.stage = .populating) :
      Move c ({ c with body := some (s.populated manager result).1 }.write
        (Mark.ofPopulate manager result))
  /-- The control loop ends. -/
  | loopEnded (c : Course) (s : Sequence) (result : Except Control.Error Unit)
      (hbody : c.body = some s) (hstage : s.stage = .controlling) :
      Move c { c with body := some (s.loopEnded result) }
  /-- The reporter was awaited. -/
  | complete (c : Course) (s : Sequence) (result : Episode.Result) (hbody : c.body = some s)
      (hstage : s.stage = .stopping result) : Move c { c with body := some s.completed }
  /-- The body of the episode returns. -/
  | endBody (c : Course) (s : Sequence) (result : Episode.Result) (hbody : c.body = some s)
      (hresult : s.result? = some result) : Move c (c.endBody result)
  /-- The body breaks down before the reporter is stopped, which is fatal to nothing
  but the episode. -/
  | breakDown (c : Course) (s : Sequence) (outcome : Episode.Outcome) (hbody : c.body = some s)
      (hstage : s.stage = .populating ∨ s.stage = .controlling) :
      Move c (c.endBody (.ok outcome))
  /-- A background task ends. -/
  | endTask (c : Course) (task : Nat) (name : String) (ending : Ending String)
      (hrunning : c.tasks[task]? = some false) : Move c (c.endTask task name ending)
  /-- The elector has returned, and the wait for the tasks begins. -/
  | conclude (c : Course) (process : Process) (notes : List Note)
      (hconclude : c.process.conclude = some (process, notes)) :
      Move c (c.settle (process, notes))
  /-- The panic of a task is noticed. -/
  | notice (c : Course) (panic : Panic) (rest : List Panic) (process : Process)
      (notes : List Note) (hpanics : c.process.supervisor.panics = panic :: rest)
      (hnotice : c.process.notice = some (process, notes)) :
      Move c ((c.settle (process, notes)).write [.task (.noticed panic)])

/-- What a process may come to that competes again or not, and has a number of
background tasks. -/
inductive Reachable (rejoins : Bool) (count : Nat) : Course → Prop
  | start (client : Lease.Client) (timing : Leader.Timing) (release : Bool) (born : Nat)
      (link : Store.Link) :
      Reachable rejoins count (start ⟨.new client timing release born, link, none⟩ rejoins count)
  | move {c c' : Course} (h : Reachable rejoins count c) (hmove : Move c c') :
      Reachable rejoins count c'

variable {c c' : Course} {rejoins : Bool} {count : Nat}

/-! ### What following notes changes -/

/-- Following notes starts and cancels bodies and adds marks; the process and the tasks are left. -/
theorem foldl_follow (notes : List Note) (c : Course) :
    (notes.foldl follow c).process = c.process ∧ (notes.foldl follow c).tasks = c.tasks
      ∧ (notes.foldl follow c).marks = c.marks ++ notes.filterMap Mark.ofNote? := by
  induction notes generalizing c with
  | nil => exact ⟨rfl, rfl, (List.append_nil _).symm⟩
  | cons note rest ih =>
    -- one note at a time: it may change the body, and only a start is written down
    obtain ⟨hprocess, htasks, hmarks⟩ := ih (c.follow note)
    have hnote : (c.follow note).process = c.process ∧ (c.follow note).tasks = c.tasks
        ∧ (c.follow note).marks = c.marks ++ (Mark.ofNote? note).toList := by
      cases note <;> simp [follow, Mark.ofNote?]
    refine ⟨hprocess.trans hnote.1, htasks.trans hnote.2.1, ?_⟩
    rw [List.foldl_cons, hmarks, hnote.2.2, List.filterMap_cons]
    cases Mark.ofNote? note with
    | none => simp
    | some mark => simp

/-- Settling takes over the state of the process. -/
theorem settle_process (c : Course) (answer : Process × List Note) :
    (c.settle answer).process = answer.1 := (foldl_follow answer.2 _).1

/-- Settling leaves the tasks. -/
theorem settle_tasks (c : Course) (answer : Process × List Note) :
    (c.settle answer).tasks = c.tasks := (foldl_follow answer.2 _).2.1

/-- Settling adds the marks that the notes leave. -/
theorem settle_marks (c : Course) (answer : Process × List Note) :
    (c.settle answer).marks = c.marks ++ answer.2.filterMap Mark.ofNote? :=
  (foldl_follow answer.2 _).2.2

/-- Notes that say nothing about an episode change nothing. -/
theorem foldl_follow_quiet {notes : List Note} (h : Leader.Elector.Quiet notes) (c : Course) :
    notes.foldl follow c = c := by
  induction notes generalizing c with
  | nil => rfl
  | cons note rest ih =>
    have hsame : c.follow note = c := by
      rcases h note List.mem_cons_self with ⟨holder, rfl⟩ | ⟨m, rfl⟩ <;> rfl
    rw [List.foldl_cons, hsame]
    exact ih (fun note hnote => h note (List.mem_cons_of_mem _ hnote)) c

/-! ### Elector, body and shutdown agree -/

/-- Where the body of the episode stands, while it runs. -/
def stage? (c : Course) : Option Episode.Stage := c.body.map Sequence.stage

/-- Whether the token of the body that runs is cancelled, as the elector has it. -/
def token? (e : Elector) : Option Bool :=
  match e.episode with
  | some episode => if episode.ended then none else some episode.cancelled
  | none => none

/-- The fatal error of an episode whose body has not ended yet. -/
def unreported? : Episode.Stage → Option String
  | .stopping (.error e) | .ended (.error e) => some e.message
  | _ => none

/-- The elector, the body of its episode and the shutdown agree. -/
structure IsTended (c : Course) : Prop where
  coherent : c.elector.Coherent
  /-- The elector is told when the process is told to end. -/
  told : c.elector.shutdown = c.process.shutdown.triggered
  /-- The token of an episode hangs below that of the process. -/
  revoked : c.elector.shutdown = true → ∀ episode ∈ c.elector.episode, episode.cancelled = true
  /-- The elector knows whether a body runs, and the body knows its token. -/
  body_eq : c.body.map Sequence.cancelled = token? c.elector
  /-- The body that runs is the one that has started and not ended. -/
  counted : c.marks.count .started = c.marks.count .ended + c.body.isSome.toNat
  episodes_eq : c.elector.episodes = c.marks.count .started
  /-- What keeps an episode from beginning is reported, at the end of its body. -/
  reported : c.marks.filterMap Mark.unready?
    = c.marks.filterMap Mark.elsewhere? ++ (c.stage?.bind unreported?).toList

/-- Nothing has to be shown again for what is written down when only the tokens
change. -/
theorem IsTended.same (h : c.IsTended) (hcoherent : c'.elector.Coherent)
    (htold : c'.elector.shutdown = c'.process.shutdown.triggered)
    (hrevoked : c'.elector.shutdown = true →
      ∀ episode ∈ c'.elector.episode, episode.cancelled = true)
    (hbody : c'.body.map Sequence.cancelled = token? c'.elector)
    (hepisodes : c'.elector.episodes = c.elector.episodes)
    (hstage : c'.stage? = c.stage?) (hmarks : c'.marks = c.marks) : c'.IsTended where
  coherent := hcoherent
  told := htold
  revoked := hrevoked
  body_eq := hbody
  counted := by
    have hsome : c'.body.isSome = c.body.isSome := by
      simpa [stage?] using congrArg Option.isSome hstage
    rw [hmarks, hsome, h.counted]
  episodes_eq := by rw [hepisodes, h.episodes_eq, hmarks]
  reported := by rw [hmarks, hstage, h.reported]

/-- The body follows when the token of the episode is cancelled. -/
theorem settle_revoke {episode : Leader.Episode} (hepisode : c.elector.episode = some episode)
    (hbody : c.body.map Sequence.cancelled = token? c.elector) (process : Process) :
    (c.settle (process, if episode.cancelled then [] else [.cancelled])).body.map
        Sequence.cancelled = (if episode.ended then none else some true)
      ∧ (c.settle (process, if episode.cancelled then [] else [.cancelled])).stage? = c.stage?
      ∧ (c.settle (process, if episode.cancelled then [] else [.cancelled])).marks = c.marks := by
  cases hcancelled : episode.cancelled with
  | true =>
    -- nobody has to be told again
    refine ⟨?_, rfl, rfl⟩
    show c.body.map Sequence.cancelled = _
    rw [hbody]
    simp [token?, hepisode, hcancelled]
  | false =>
    refine ⟨?_, ?_, rfl⟩
    · show (c.body.map Sequence.cancel).map Sequence.cancelled = _
      simp only [token?, hepisode] at hbody
      -- the body runs exactly when the elector believes so
      cases hended : episode.ended with
      | true =>
        rw [hended] at hbody
        simp [Option.map_eq_none_iff.mp hbody]
      | false =>
        rw [hended] at hbody
        obtain ⟨s, hs, -⟩ := Option.map_eq_some_iff.mp hbody
        simp [hs, Sequence.cancel]
    · show (c.body.map Sequence.cancel).map Sequence.stage = c.body.map Sequence.stage
      cases c.body <;> rfl

/-- An elector that keeps its episode as it is changes nothing that the others look at. -/
theorem IsTended.place (h : c.IsTended) {candidate : Candidate}
    (hcoherent : candidate.elector.Coherent)
    (hshutdown : candidate.elector.shutdown = c.elector.shutdown)
    (hepisode : candidate.elector.episode = c.elector.episode)
    (hepisodes : candidate.elector.episodes = c.elector.episodes) :
    (c.place candidate).IsTended := by
  refine h.same hcoherent (hshutdown.trans h.told) ?_ ?_ hepisodes rfl rfl
  · show candidate.elector.shutdown = true → ∀ episode ∈ candidate.elector.episode, _
    rw [hshutdown, hepisode]
    exact h.revoked
  · show c.body.map Sequence.cancelled = token? candidate.elector
    rw [h.body_eq, token?, token?, hepisode]

/-- What the elector does by itself or with a reply leaves the parts in agreement. -/
theorem IsTended.goes (h : c.IsTended) {candidate : Candidate} {notes : List Note}
    (hgoes : c.elector.Goes candidate.elector notes) :
    (c.settle ((c.place candidate).process, notes)).IsTended := by
  have htold : candidate.elector.shutdown = c.process.shutdown.triggered :=
    hgoes.shutdown_eq.trans h.told
  cases hgoes.shows with
  | start hidle hphase hstarted hleading hepisodes =>
    -- no body runs, since the elector knows of none; the new one takes over the token
    -- of the process, which may be cancelled already
    have hbody : c.body = none := by simpa [token?, hidle.1] using h.body_eq
    have hcounted : c.marks.count .started = c.marks.count .ended := by
      simpa [hbody] using h.counted
    have hreported := h.reported
    rw [stage?, hbody] at hreported
    refine ⟨hgoes.coherent, htold, ?_, ?_, ?_, ?_, ?_⟩
    · show candidate.elector.shutdown = true → ∀ episode ∈ candidate.elector.episode, _
      rw [hgoes.shutdown_eq, hstarted]
      intro hshutdown episode hepisode
      cases hepisode
      exact hshutdown
    · show some (candidate.elector.episode.any Leader.Episode.cancelled) = token? candidate.elector
      simp [token?, hstarted]
    · show (c.marks ++ [Mark.started]).count .started = (c.marks ++ [Mark.started]).count .ended + 1
      simp [hcounted]
    · show candidate.elector.episodes = (c.marks ++ [Mark.started]).count .started
      simp [hepisodes, h.episodes_eq]
    · show (c.marks ++ [Mark.started]).filterMap Mark.unready?
        = (c.marks ++ [Mark.started]).filterMap Mark.elsewhere? ++ []
      simpa [List.filterMap_cons, Mark.unready?, Mark.elsewhere?] using hreported
  | @revoke episode hepisode hended hrevoked hleading hepisodes =>
    -- the body runs, and its token is cancelled along with the one that the elector has
    obtain ⟨hbody, hstage, hmarks⟩ :=
      settle_revoke hepisode h.body_eq (c.place candidate).process
    have helector : (c.settle ((c.place candidate).process,
        if episode.cancelled then [] else [.cancelled])).elector = candidate.elector := by
      rw [elector, settle_process]
      rfl
    refine h.same ?_ ?_ ?_ ?_ ?_ hstage hmarks
    · rw [helector]
      exact hgoes.coherent
    · rw [helector, settle_process]
      exact htold
    · rw [helector, hrevoked]
      intro _ episode' hepisode'
      cases hepisode'
      rfl
    · rw [hbody, helector]
      simp [token?, hrevoked, hended]
    · rw [helector]
      exact hepisodes
  | dismiss hepisode hended hdismissed hleading hepisodes =>
    -- the body has ended before, so no token is missed
    refine h.same hgoes.coherent htold ?_ ?_ hepisodes rfl rfl
    · show _ → ∀ episode ∈ candidate.elector.episode, _
      rw [hdismissed]
      intro _ episode hnone
      cases hnone
    · show c.body.map Sequence.cancelled = token? candidate.elector
      rw [h.body_eq]
      simp [token?, hepisode, hended, hdismissed]
  | announce cause hout hepisode hleading hepisodes =>
    exact h.place hgoes.coherent hgoes.shutdown_eq hepisode hepisodes
  | nothing hquiet hepisode hleading hepisodes =>
    show IsTended (notes.foldl follow (c.place candidate))
    rw [foldl_follow_quiet hquiet]
    exact h.place hgoes.coherent hgoes.shutdown_eq hepisode hepisodes

/-- The shutdown is taken over, and the elector told once it is triggered. -/
theorem withShutdown_eq (p : Process) (shutdown : Shutdown) :
    p.withShutdown shutdown
      = if shutdown.triggered then
          ({ p with
              shutdown := shutdown
              candidate := { p.candidate with elector := p.candidate.elector.cancel.1 } },
            p.candidate.elector.cancel.2)
        else ({ p with shutdown := shutdown }, []) := rfl

/-- Settling takes over the elector of the process. -/
theorem settle_elector (c : Course) (answer : Process × List Note) :
    (c.settle answer).elector = answer.1.candidate.elector := by
  rw [elector, settle_process]

/-- When the process is told to end, the parts stay in agreement. -/
theorem IsTended.cancel (h : c.IsTended) {shutdown : Shutdown}
    (htriggered : shutdown.triggered = true) :
    (c.settle (c.process.withShutdown shutdown)).IsTended := by
  have hcoherent : c.elector.cancel.1.Coherent := h.coherent.cancel
  have htold : c.elector.cancel.1.shutdown = shutdown.triggered := by
    rw [Elector.cancel_eq, htriggered]
    rfl
  have hepisodes : c.elector.cancel.1.episodes = c.elector.episodes := by
    rw [Elector.cancel_eq]
    rfl
  have hrevoked : ∀ episode ∈ c.elector.cancel.1.episode, episode.cancelled = true := by
    rw [Elector.cancel_eq]
    intro episode hepisode
    obtain ⟨before, -, rfl⟩ := Option.map_eq_some_iff.mp hepisode
    rfl
  rw [withShutdown_eq, if_pos htriggered]
  -- whether a token is to be cancelled depends on whether there is an episode
  cases hepisode : c.elector.episode with
  | none =>
    have hnotes : c.elector.cancel.2 = [] := by simp [Elector.cancel, hepisode]
    show (c.settle (_, c.elector.cancel.2)).IsTended
    rw [hnotes]
    refine h.same hcoherent htold (fun _ => hrevoked) ?_ hepisodes rfl rfl
    show c.body.map Sequence.cancelled = token? c.elector.cancel.1
    rw [h.body_eq, Elector.cancel_eq]
    simp [token?, Elector.outside, hepisode]
  | some episode =>
    have hnotes : c.elector.cancel.2 = if episode.cancelled then [] else [.cancelled] := by
      simp [Elector.cancel, hepisode]
    obtain ⟨hbody, hstage, hmarks⟩ := settle_revoke hepisode h.body_eq
      { c.process with
        shutdown := shutdown
        candidate := { c.process.candidate with elector := c.elector.cancel.1 } }
    show (c.settle (_, c.elector.cancel.2)).IsTended
    rw [hnotes]
    refine h.same ?_ ?_ ?_ ?_ ?_ hstage hmarks
    · rw [settle_elector]
      exact hcoherent
    · rw [settle_elector, settle_process]
      exact htold
    · rw [settle_elector]
      exact fun _ => hrevoked
    · rw [settle_elector]
      refine hbody.trans ?_
      show _ = token? c.elector.cancel.1
      rw [Elector.cancel_eq]
      simp [token?, Elector.outside, hepisode]
    · rw [settle_elector]
      exact hepisodes

/-- Triggering the shutdown keeps elector, body and shutdown in agreement. -/
theorem IsTended.trigger (h : c.IsTended) : (c.settle c.process.trigger).IsTended :=
  h.cancel (rfl : c.process.shutdown.trigger.triggered = true)

/-- A shutdown that is taken over leaves the parts in agreement. -/
theorem IsTended.withShutdown (h : c.IsTended) {shutdown : Shutdown}
    (hkept : c.process.shutdown.triggered = true → shutdown.triggered = true) :
    (c.settle (c.process.withShutdown shutdown)).IsTended := by
  cases htriggered : shutdown.triggered with
  | true => exact h.cancel htriggered
  | false =>
    -- it was not triggered before either, so the elector is not told
    have hcalm : c.process.shutdown.triggered = false := by
      cases hbefore : c.process.shutdown.triggered with
      | false => rfl
      | true => rw [hkept hbefore] at htriggered; cases htriggered
    rw [withShutdown_eq, htriggered]
    refine h.same h.coherent ?_ h.revoked h.body_eq rfl rfl rfl
    show c.elector.shutdown = shutdown.triggered
    rw [h.told, hcalm, htriggered]

/-- An elector that goes on may have announced the end of its episode. Unless the
process competes again it is told to end then. -/
theorem settle_react {candidate : Candidate} {notes : List Note}
    (hgoes : c.elector.Goes candidate.elector notes) :
    (c.settle ((c.place candidate).process.react notes)
        = c.settle ((c.place candidate).process, notes)
      ∧ (c.process.rejoins = true ∨ Note.stopped ∉ notes))
    ∨ (candidate.elector.IsOut ∧ candidate.elector.episodes = c.elector.episodes
      ∧ c.settle ((c.place candidate).process.react notes)
        = (c.settle ((c.place candidate).process, notes)).settle
          (c.place candidate).process.trigger) := by
  -- the process reacts to the announced end of an episode and to nothing else
  have hrest (hsilent : Note.stopped ∉ notes) :
      (c.place candidate).process.react notes = ((c.place candidate).process, notes) := by
    simp [react, hsilent]
  cases hgoes.shows with
  | announce cause hout hepisode hleading hepisodes =>
    cases hrejoins : c.process.rejoins with
    | true =>
      refine .inl ⟨?_, .inl rfl⟩
      simp [react, place, hrejoins]
    | false =>
      refine .inr ⟨hout, hepisodes, ?_⟩
      simp only [react, place, hrejoins]
      rfl
  | start hidle hphase hstarted hleading hepisodes =>
    have hsilent : Note.stopped ∉ c.elector.startEpisode.2 := by simp [Elector.startEpisode]
    exact .inl ⟨by rw [hrest hsilent], .inr hsilent⟩
  | @revoke episode hepisode hended hrevoked hleading hepisodes =>
    have hsilent : Note.stopped ∉ (if episode.cancelled then [] else [Note.cancelled]) := by
      cases episode.cancelled <;> simp
    exact .inl ⟨by rw [hrest hsilent], .inr hsilent⟩
  | dismiss hepisode hended hdismissed hleading hepisodes =>
    exact .inl ⟨by rw [hrest (by simp)], .inr (by simp)⟩
  | nothing hquiet hepisode hleading hepisodes =>
    have hsilent : Note.stopped ∉ notes := by
      intro hstopped
      rcases hquiet _ hstopped with ⟨holder, hnote⟩ | ⟨m, hnote⟩ <;> cases hnote
    exact .inl ⟨by rw [hrest hsilent], .inr hsilent⟩

/-- A move of the elector, and the reaction of the process to it, keep elector, body and shutdown
in agreement. -/
theorem IsTended.react (h : c.IsTended) {candidate : Candidate} {notes : List Note}
    (hgoes : c.elector.Goes candidate.elector notes) :
    (c.settle ((c.place candidate).process.react notes)).IsTended := by
  have hon : (c.settle ((c.place candidate).process, notes)).IsTended := h.goes hgoes
  rcases settle_react hgoes with ⟨hsame, -⟩ | ⟨-, -, hends⟩
  · rw [hsame]
    exact hon
  · rw [hends]
    have htrigger := hon.trigger
    rw [settle_process] at htrigger
    exact htrigger

/-- The body works on, with its token as it is, and something is written down that
concerns neither its start nor its end. -/
theorem IsTended.write (h : c.IsTended) {body : Option Sequence} {marks : List Mark}
    (hmarks : ∀ mark ∈ marks, mark ≠ .started ∧ mark ≠ .ended ∧ mark.elsewhere? = none)
    (hbody : body.map Sequence.cancelled = c.body.map Sequence.cancelled)
    (hreported : (c.stage?.bind unreported?).toList ++ marks.filterMap Mark.unready?
      = ((body.map Sequence.stage).bind unreported?).toList) :
    (Course.write { c with body := body } marks).IsTended := by
  have hstarted : marks.count .started = 0 :=
    List.count_eq_zero.mpr fun hmark => (hmarks _ hmark).1 rfl
  have hended : marks.count .ended = 0 :=
    List.count_eq_zero.mpr fun hmark => (hmarks _ hmark).2.1 rfl
  have helsewhere : marks.filterMap Mark.elsewhere? = [] :=
    List.filterMap_eq_nil_iff.mpr fun mark hmark => (hmarks mark hmark).2.2
  have hsome : body.isSome = c.body.isSome := by
    simpa using congrArg Option.isSome hbody
  refine ⟨h.coherent, h.told, h.revoked, hbody.trans h.body_eq, ?_, ?_, ?_⟩
  · simpa [Course.write, hstarted, hended, hsome] using h.counted
  · simpa [Course.write, elector, hstarted] using h.episodes_eq
  · show (c.marks ++ marks).filterMap Mark.unready?
      = (c.marks ++ marks).filterMap Mark.elsewhere? ++ _
    rw [List.filterMap_append, List.filterMap_append, helsewhere, List.append_nil, h.reported,
      List.append_assoc, hreported]
    rfl

/-- The body ends, and its fatal error is reported then. -/
theorem IsTended.endBody (h : c.IsTended) {s : Sequence} {result : Episode.Result}
    (hbody : c.body = some s) (hresult : unreported? s.stage = unreported? (.ended result)) :
    (c.endBody result).IsTended := by
  have hcounted : c.marks.count .started = c.marks.count .ended + 1 := by
    simpa [hbody] using h.counted
  have hreported := h.reported
  rw [stage?, hbody] at hreported
  -- the elector is told of the end, so it believes that no body runs
  have hidle (e : Elector) : token? e.endBody = none := by
    cases hepisode : e.episode <;> simp [token?, Elector.endBody, hepisode]
  cases result with
  | ok outcome =>
    refine ⟨h.coherent.endBody, h.told, ?_, (hidle c.elector).symm, ?_, ?_, ?_⟩
    · intro hshutdown episode hepisode
      obtain ⟨before, hbefore, rfl⟩ := Option.map_eq_some_iff.mp hepisode
      exact h.revoked hshutdown before hbefore
    · simpa [Course.endBody, Mark.ofResult] using hcounted
    · show c.elector.episodes = _
      simpa [Course.endBody, Mark.ofResult] using h.episodes_eq
    · have hnone : unreported? s.stage = none := hresult
      simpa [Course.endBody, Mark.ofResult, stage?, hnone, List.filterMap_cons, Mark.unready?,
        Mark.elsewhere?] using hreported
  | error e =>
    -- the error is reported, which tells the elector to shut down before the body ends
    have hcancelled : c.elector.cancel.1.shutdown = true := by
      rw [Elector.cancel_eq]
      rfl
    refine ⟨h.coherent.cancel.endBody, hcancelled, ?_, (hidle c.elector.cancel.1).symm, ?_, ?_, ?_⟩
    · show _ → ∀ episode ∈ c.elector.cancel.1.endBody.episode, episode.cancelled = true
      rw [Elector.cancel_eq]
      intro _ episode hepisode
      obtain ⟨before, hbefore, rfl⟩ := Option.map_eq_some_iff.mp hepisode
      obtain ⟨first, -, rfl⟩ := Option.map_eq_some_iff.mp hbefore
      rfl
    · simpa [Course.endBody, Mark.ofResult] using hcounted
    · show c.elector.cancel.1.episodes = _
      rw [Elector.cancel_eq]
      show c.elector.episodes = _
      simpa [Course.endBody, Mark.ofResult] using h.episodes_eq
    · have hsome : unreported? s.stage = some e.message := hresult
      simpa [Course.endBody, Mark.ofResult, stage?, hsome, List.filterMap_cons, Mark.unready?,
        Mark.elsewhere?] using hreported

/-- The supervisor and its tasks are not what the others agree about. -/
theorem IsTended.supervise (h : c.IsTended) (supervisor : Supervisor) :
    IsTended { c with process := { c.process with supervisor := supervisor } } :=
  ⟨h.coherent, h.told, h.revoked, h.body_eq, h.counted, h.episodes_eq, h.reported⟩

/-- The tasks have no part in the agreement. -/
theorem IsTended.retask (h : c.IsTended) (tasks : List Bool) : IsTended { c with tasks := tasks } :=
  ⟨h.coherent, h.told, h.revoked, h.body_eq, h.counted, h.episodes_eq, h.reported⟩

/-- The body works on, with its token as it is, and with no other fatal error. -/
theorem IsTended.work (h : c.IsTended) {s s' : Sequence} (hbody : c.body = some s)
    (hcancelled : s'.cancelled = s.cancelled)
    (hsame : unreported? s'.stage = unreported? s.stage) :
    IsTended { c with body := some s' } where
  coherent := h.coherent
  told := h.told
  revoked := h.revoked
  body_eq := by
    show some s'.cancelled = token? c.elector
    rw [hcancelled, ← h.body_eq, hbody]
    rfl
  counted := by simpa [hbody] using h.counted
  episodes_eq := h.episodes_eq
  reported := by simpa [stage?, hbody, hsame] using h.reported

/-! ### What the process does by itself -/

/-- The step of a candidate is a step of its elector, or nothing that others see. -/
theorem goes_of_advance (h : c.IsTended) {store store' : Store.Shared} {now : Moment}
    {delay : Duration} {process : Process} {notes : List Note}
    (hadvance : c.process.advance store now delay = some (process, store', notes)) :
    ∃ candidate seen, c.elector.Goes candidate.elector seen
      ∧ (process, notes) = (c.place candidate).process.react seen := by
  obtain ⟨⟨candidate, after, seen⟩, hcandidate, heq⟩ := Option.map_eq_some_iff.mp hadvance
  cases heq
  refine ⟨candidate, seen, ?_, rfl⟩
  -- a call may be sent, its reply may come in, or the elector does something itself
  have hcases := Leader.Candidate.advance_cases hcandidate
  generalize c.process.candidate.reply? store now.instant = reply at hcases
  cases hcases with
  | send hrequest htransit => exact h.coherent.goes_send hrequest
  | receive hrequest htransit harrived hdeliver =>
    exact h.coherent.goes_answer hrequest now delay _
  | act hstep => exact h.coherent.goes hstep

/-- The wait for the tasks begins when the elector has returned, and the process is
told to end then. -/
theorem conclude_cases (h : c.IsTended) {process : Process} {notes : List Note}
    (hconclude : c.process.conclude = some (process, notes)) :
    c.elector.isDone = true
      ∧ (process, notes)
        = { c.process with supervisor := c.process.supervisor.wait }.trigger := by
  unfold Process.conclude at hconclude
  split at hconclude
  · rename_i error hstage hwaiting
    -- an elector that has returned has no error to report
    have hcoherent := h.coherent
    rw [elector, Elector.Coherent, hstage] at hcoherent
    obtain ⟨rfl, -⟩ := hcoherent
    refine ⟨by simp [elector, Elector.isDone, hstage], ?_⟩
    exact (Option.some.inj hconclude).symm
  · cases hconclude

/-- A panic is noticed by a supervisor that waits, and goes on to wait, as a fatal
reason. -/
theorem notice_cases {p process : Process} {notes : List Note}
    (hnotice : p.notice = some (process, notes)) :
    ∃ supervisor shutdown, p.supervisor.notice p.shutdown = some (supervisor, shutdown)
      ∧ supervisor.waiting = p.supervisor.waiting ∧ shutdown.triggered = true
      ∧ (process, notes) = { p with supervisor := supervisor }.withShutdown shutdown := by
  obtain ⟨⟨supervisor, shutdown⟩, hsupervisor, heq⟩ := Option.map_eq_some_iff.mp hnotice
  refine ⟨supervisor, shutdown, hsupervisor, ?_⟩
  unfold Supervisor.notice at hsupervisor
  split at hsupervisor
  · cases hsupervisor
    exact ⟨rfl, rfl, heq.symm⟩
  · cases hsupervisor

/-! ### The parts stay in agreement -/

/-- A process at its start is tended. -/
theorem isTended_start (client : Lease.Client) (timing : Leader.Timing) (release : Bool)
    (born : Nat) (link : Store.Link) (rejoins : Bool) (count : Nat) :
    (start ⟨.new client timing release born, link, none⟩ rejoins count).IsTended where
  coherent := Elector.coherent_new client timing release born false
  told := rfl
  revoked hshutdown := by cases hshutdown
  body_eq := rfl
  counted := rfl
  episodes_eq := rfl
  reported := rfl

/-- Reading the defaults and registering the controllers leave the token as it is, and
what keeps the episode from beginning is written down. -/
theorem populated_eq {γ : Type} (s : Sequence) (manager : Control.Manager γ)
    (result : Except DefaultsError Defaults) :
    (s.populated manager result).1.cancelled = s.cancelled
      ∧ (Mark.ofPopulate manager result).filterMap Mark.unready?
        = (unreported? (s.populated manager result).1.stage).toList
      ∧ ∀ mark ∈ Mark.ofPopulate manager result, ∃ e, mark = .unready e := by
  unfold Sequence.populated Mark.ofPopulate
  cases result with
  | error e => exact ⟨rfl, rfl, by simp⟩
  | ok defaults =>
    rcases hregister : manager.register defaults with ⟨manager', e | _⟩
    · simp [hregister, Mark.unready?, unreported?]
    · simp [hregister, unreported?]

/-- Whether the process was told to end does not change back when a task ends. -/
theorem finish_triggered (supervisor : Supervisor) (shutdown : Shutdown) (task : Nat)
    (name : String) (ending : Ending String) (h : shutdown.triggered = true) :
    (supervisor.finish shutdown task name ending).2.triggered = true := by
  cases ending with
  | failed message => rfl
  | done | panicked _ => exact h

/-- What becomes of the tasks does not concern the episodes. -/
theorem IsTended.note (h : c.IsTended) {marks : List Supervisor.Mark}
    (hmarks : ∀ mark ∈ marks, ∀ reason, mark ≠ .elsewhere reason) :
    (Course.write c (marks.map .task)).IsTended := by
  refine h.write ?_ rfl ?_
  · intro mark hmark
    obtain ⟨task, htask, rfl⟩ := List.mem_map.mp hmark
    refine ⟨nofun, nofun, ?_⟩
    cases task with
    | elsewhere reason => exact absurd rfl (hmarks _ htask reason)
    | returned _ _ | panicked _ | noticed _ => rfl
  · have hunready : (marks.map Mark.task).filterMap Mark.unready? = [] := by
      refine List.filterMap_eq_nil_iff.mpr fun mark hmark => ?_
      obtain ⟨task, -, rfl⟩ := List.mem_map.mp hmark
      rfl
    rw [hunready, List.append_nil]
    rfl

/-- The end of a background task keeps elector, body and shutdown in agreement. -/
theorem IsTended.endTask (h : c.IsTended) (task : Nat) (name : String)
    (ending : Ending String) : (c.endTask task name ending).IsTended := by
  let answer := c.process.supervisor.finish c.process.shutdown task name ending
  have hsettled := (h.supervise answer.1).withShutdown
    (finish_triggered c.process.supervisor c.process.shutdown task name ending)
  refine (hsettled.retask (c.tasks.set task true)).note ?_
  intro mark hmark reason
  cases ending <;> simp_all [Supervisor.Mark.ofEnding]

/-- Whatever happens to a process leaves its parts in agreement. -/
theorem Move.isTended (h : Move c c') (hc : c.IsTended) : c'.IsTended := by
  -- the elector does something, the body works on or ends, or the shutdown is taken over
  cases h with
  | advance store store' now delay process notes hadvance =>
    obtain ⟨candidate, seen, hgoes, heq⟩ := goes_of_advance hc hadvance
    rw [heq]
    exact hc.react hgoes
  | hear now delay request reply hrequest =>
    exact hc.react (hc.coherent.goes_answer hrequest now delay reply)
  | relink link transit => exact hc.place hc.coherent rfl rfl rfl
  | trigger => exact hc.trigger
  | populate s manager result hbody hstage =>
    obtain ⟨hcancelled, hmarks, hunready⟩ := populated_eq s manager result
    refine hc.write ?_ ?_ ?_
    · intro mark hmark
      obtain ⟨e, rfl⟩ := hunready mark hmark
      exact ⟨nofun, nofun, rfl⟩
    · simp [hbody, hcancelled]
    · simp [stage?, hbody, hstage, unreported?, hmarks]
  | loopEnded s result hbody hstage => exact hc.work hbody rfl (by rw [hstage]; rfl)
  | complete s result hbody hstage =>
    have hended : s.completed = { s with stage := .ended result } := by
      simp [Sequence.completed, hstage]
    rw [hended]
    exact hc.work hbody rfl (by rw [hstage]; cases result <;> rfl)
  | endBody s result hbody hresult =>
    refine hc.endBody hbody ?_
    unfold Sequence.result? at hresult
    split at hresult
    · rename_i hstage
      cases hresult
      rw [hstage]
    · cases hresult
  | breakDown s outcome hbody hstage =>
    refine hc.endBody hbody ?_
    rcases hstage with hstage | hstage <;> simp [unreported?, hstage]
  | endTask task name ending hrunning => exact hc.endTask task name ending
  | conclude process notes hconclude =>
    obtain ⟨-, heq⟩ := conclude_cases hc hconclude
    rw [heq]
    exact (hc.supervise c.process.supervisor.wait).trigger
  | notice panic rest process notes hpanics hnotice =>
    obtain ⟨supervisor, shutdown, -, -, htriggered, heq⟩ := notice_cases hnotice
    rw [heq]
    have hnoticed := (hc.supervise supervisor).cancel htriggered
    have hmarks : ∀ mark ∈ [Supervisor.Mark.noticed panic], ∀ reason, mark ≠ .elsewhere reason := by
      simp
    exact hnoticed.note hmarks

/-- At every point elector, body and shutdown agree. -/
theorem Reachable.isTended (h : Reachable rejoins count c) : c.IsTended := by
  induction h with
  | start client timing release born link =>
    exact isTended_start client timing release born link rejoins count
  | move _ hmove ih => exact hmove.isTended ih

end Course

end Tenure.Process
