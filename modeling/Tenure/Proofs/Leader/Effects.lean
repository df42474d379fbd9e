import Tenure.Leader.Phase

/-!
# `Tenure.Proofs.Leader.Effects`: what a machine asks for, episode by episode

A machine is told of events in any order, takes some and refuses the others. What it asks for,
put together, is a list of blocks. There is one for each event that has ended an episode, and
after the last of them comes the start of the episode in flight or the exit, if there is one.

* `effects_handle`: an event takes what is unfinished on to whole blocks and what is then
  unfinished.
* `effects_eq`: so does a list of events, whatever the machine refuses of it.
* `effects_by_episode`: a machine at its start asks for blocks, cut between two events. The
  lock is released in those that were ended by a cancellation or by the body itself, if it is
  to be released at all. Every episode that has started is announced to have stopped but the
  one in flight, and after the exit every event is refused.
-/

set_option autoImplicit false

namespace Tenure.Leader

/-- What has to be done for an answer. A refused event asks for nothing. -/
def effectsOf : Except InvalidTransition (List Effect) → List Effect
  | .ok effects => effects
  | .error _ => []

/-- What has to be done for an episode that an event has ended. -/
def Event.block (releaseOnCancel : Bool) (ending : Event) : List Effect :=
  if releaseOnCancel = true ∧ (ending = .cancelled ∨ ending = .episodeFinished) then
    [.startEpisode, .cancelEpisode, .releaseLock, .notifyStopped]
  else [.startEpisode, .cancelEpisode, .notifyStopped]

/-- What a machine in a phase has asked for since the last whole block. -/
def Phase.unfinished : Phase → List Effect
  | .leading => [.startEpisode]
  | .stopped => [.exit]
  | .candidate | .lost | .released => []

/-- Whole blocks for the given endings, and the exit if there is one. -/
inductive IsWhole (releaseOnCancel : Bool) (endings : List Event) : List Effect → Prop
  | blocks : IsWhole releaseOnCancel endings (endings.flatMap (Event.block releaseOnCancel))
  | exited :
      IsWhole releaseOnCancel endings (endings.flatMap (Event.block releaseOnCancel) ++ [.exit])

namespace Machine

/-- The machine after a list of events. -/
def after (m : Machine) : List Event → Machine
  | [] => m
  | event :: rest => (m.handle event).1.after rest

/-- All that a machine asks for when it is told of a list of events. -/
def effects (m : Machine) (events : List Event) : List Effect :=
  (m.run events).flatMap fun answer => effectsOf answer.2

/-- The event, if it leads away from leading. -/
def ending (m : Machine) (event : Event) : List Event :=
  if m.phase = .leading ∧ (m.handle event).1.phase ≠ .leading then [event] else []

/-- The events that end an episode, in their order. -/
def endings (m : Machine) : List Event → List Event
  | [] => []
  | event :: rest => m.ending event ++ (m.handle event).1.endings rest

variable {m : Machine} {event : Event} {events : List Event}

/-- A first event asks for its own effects, before those of the rest. -/
theorem effects_cons (m : Machine) (event : Event) (rest : List Event) :
    m.effects (event :: rest)
      = effectsOf (m.handle event).2 ++ (m.handle event).1.effects rest := rfl

/-- Two lists of events ask for the effects of the one, and then of the other from where the first
has led. -/
theorem effects_append (m : Machine) (events more : List Event) :
    m.effects (events ++ more) = m.effects events ++ (m.after events).effects more := by
  induction events generalizing m with
  | nil => rfl
  | cons event rest ih =>
    rw [List.cons_append, effects_cons, effects_cons, ih, List.append_assoc]
    rfl

/-- Two lists of events lead where the second leads from the end of the first. -/
theorem after_append (m : Machine) (events more : List Event) :
    m.after (events ++ more) = (m.after events).after more := by
  induction events generalizing m with
  | nil => rfl
  | cons event rest ih => exact ih _

/-- No event changes whether the lock is released. -/
theorem releaseOnCancel_handle (m : Machine) (event : Event) :
    (m.handle event).1.releaseOnCancel = m.releaseOnCancel := by
  unfold handle
  split <;> rfl

/-- An event takes what is unfinished on to whole blocks and what is then unfinished. -/
theorem effects_handle (m : Machine) (event : Event) :
    m.phase.unfinished ++ effectsOf (m.handle event).2
      = (m.ending event).flatMap (Event.block m.releaseOnCancel)
        ++ (m.handle event).1.phase.unfinished := by
  obtain ⟨phase, release⟩ := m
  -- a block is complete only when leading ends, and whether the lock is released matters there
  cases phase with
  | candidate => cases event <;> rfl
  | leading => cases event <;> cases release <;> rfl
  | lost => cases event <;> rfl
  | released => cases event <;> rfl
  | stopped => cases event <;> rfl

/-- What ends an episode is the loss of the lease, a cancellation or the end of the body. -/
theorem eq_of_mem_ending {e : Event} (h : e ∈ m.ending event) :
    e = .renewFailed ∨ e = .cancelled ∨ e = .episodeFinished := by
  obtain ⟨phase, release⟩ := m
  unfold ending at h
  split at h
  · rename_i hleads
    obtain rfl := List.mem_singleton.mp h
    obtain ⟨hleading, haway⟩ := hleads
    cases hleading
    -- the other events are refused by a machine that leads, or leave it leading
    cases e with
    | renewFailed => exact .inl rfl
    | cancelled => exact .inr (.inl rfl)
    | episodeFinished => exact .inr (.inr rfl)
    | acquired => exact absurd rfl haway
    | renewed => exact absurd rfl haway
    | stoppedNotified => exact absurd rfl haway
  · cases h

/-- An episode ends by a failed renewal, by a cancellation or by itself. -/
theorem eq_of_mem_endings {e : Event} (h : e ∈ m.endings events) :
    e = .renewFailed ∨ e = .cancelled ∨ e = .episodeFinished := by
  induction events generalizing m with
  | nil => cases h
  | cons event rest ih =>
    rcases List.mem_append.mp h with h | h
    · exact eq_of_mem_ending h
    · exact ih h

/-- Events take what is unfinished on to whole blocks and what is then unfinished. -/
theorem effects_eq (m : Machine) (events : List Event) :
    m.phase.unfinished ++ m.effects events
      = (m.endings events).flatMap (Event.block m.releaseOnCancel)
        ++ (m.after events).phase.unfinished := by
  -- by induction on the events: the first one finishes its block, the others go on from there
  induction events generalizing m with
  | nil => exact List.append_nil _
  | cons event rest ih =>
    have hrest := ih (m.handle event).1
    rw [releaseOnCancel_handle] at hrest
    calc m.phase.unfinished ++ m.effects (event :: rest)
        = m.phase.unfinished ++ effectsOf (m.handle event).2
            ++ (m.handle event).1.effects rest := by
          rw [effects_cons, List.append_assoc]
      _ = (m.ending event).flatMap (Event.block m.releaseOnCancel)
            ++ ((m.handle event).1.phase.unfinished ++ (m.handle event).1.effects rest) := by
          rw [effects_handle, List.append_assoc]
      _ = (m.endings (event :: rest)).flatMap (Event.block m.releaseOnCancel)
            ++ (m.after (event :: rest)).phase.unfinished := by
          rw [hrest, ← List.append_assoc, ← List.flatMap_append]
          rfl

/-- A machine at its start has nothing unfinished behind it. -/
theorem effects_new (releaseOnCancel : Bool) (events : List Event) :
    (new releaseOnCancel).effects events
      = ((new releaseOnCancel).endings events).flatMap (Event.block releaseOnCancel)
        ++ ((new releaseOnCancel).after events).phase.unfinished :=
  effects_eq (new releaseOnCancel) events

/-- While a machine does not lead, all that it has asked for is whole. -/
theorem isWhole_of_ne_leading {releaseOnCancel : Bool}
    (h : ((new releaseOnCancel).after events).phase ≠ .leading) :
    IsWhole releaseOnCancel ((new releaseOnCancel).endings events)
      ((new releaseOnCancel).effects events) := by
  rw [effects_new]
  cases hphase : ((new releaseOnCancel).after events).phase with
  | leading => exact absurd hphase h
  | stopped => exact .exited
  | candidate => simpa only [Phase.unfinished, List.append_nil] using .blocks
  | lost => simpa only [Phase.unfinished, List.append_nil] using .blocks
  | released => simpa only [Phase.unfinished, List.append_nil] using .blocks

/-- A machine that leads can be told of one more event that makes what it has asked for
whole. -/
theorem exists_isWhole (releaseOnCancel : Bool) (events : List Event) :
    ∃ more, IsWhole releaseOnCancel ((new releaseOnCancel).endings (events ++ more))
      ((new releaseOnCancel).effects (events ++ more)) := by
  by_cases hleading : ((new releaseOnCancel).after events).phase = .leading
  · refine ⟨[.renewFailed], isWhole_of_ne_leading ?_⟩
    rw [after_append]
    simp [after, handle, transition, hleading]
  · exact ⟨[], by simpa using isWhole_of_ne_leading hleading⟩

/-- An episode starts once and is announced to have stopped once, however it ends. -/
theorem count_block (releaseOnCancel : Bool) (ending : Event) {effect : Effect}
    (h : effect = .startEpisode ∨ effect = .notifyStopped) :
    (ending.block releaseOnCancel).count effect = 1 := by
  unfold Event.block
  rcases h with rfl | rfl
  · split <;> rfl
  · split <;> rfl

/-- Every block starts one episode and announces one end. -/
theorem count_blocks (releaseOnCancel : Bool) (endings : List Event) {effect : Effect}
    (h : effect = .startEpisode ∨ effect = .notifyStopped) :
    (endings.flatMap (Event.block releaseOnCancel)).count effect = endings.length := by
  induction endings with
  | nil => rfl
  | cons ending rest ih =>
    rw [List.flatMap_cons, List.count_append, count_block _ _ h, ih, List.length_cons,
      Nat.add_comm]

/-- One announcement is outstanding while the machine leads, and none otherwise. -/
theorem count_unfinished (phase : Phase) :
    phase.unfinished.count .startEpisode
      = phase.unfinished.count .notifyStopped + if phase = .leading then 1 else 0 := by
  cases phase <;> rfl

/-- A block gives the lock up just where it may be and the lease was not lost. -/
theorem releaseLock_mem_block_iff {releaseOnCancel : Bool} {ending : Event} :
    .releaseLock ∈ ending.block releaseOnCancel
      ↔ releaseOnCancel = true ∧ (ending = .cancelled ∨ ending = .episodeFinished) := by
  unfold Event.block
  split <;> simp [*]

/-- The exit is no part of any block. -/
theorem exit_notMem_block (releaseOnCancel : Bool) (ending : Event) :
    .exit ∉ ending.block releaseOnCancel := by
  unfold Event.block
  split <;> simp

/-- Only a machine that has stopped has asked for the exit. -/
theorem phase_of_exit_mem {releaseOnCancel : Bool}
    (h : .exit ∈ (new releaseOnCancel).effects events) :
    ((new releaseOnCancel).after events).phase = .stopped := by
  rw [effects_new, List.mem_append, List.mem_flatMap] at h
  rcases h with ⟨ending, -, hblock⟩ | hlast
  · exact absurd hblock (exit_notMem_block releaseOnCancel ending)
  · -- of what can be unfinished only the exit itself is one
    cases hphase : ((new releaseOnCancel).after events).phase with
    | stopped => rfl
    | candidate => simp [hphase, Phase.unfinished] at hlast
    | leading => simp [hphase, Phase.unfinished] at hlast
    | lost => simp [hphase, Phase.unfinished] at hlast
    | released => simp [hphase, Phase.unfinished] at hlast

/-- What a machine at its start asks for, told of events in any order, is a block for each
event that has ended an episode and then what is unfinished. It is cut between two events, so
more events make it whole. The lock is released in the blocks that were ended by a cancellation
or by the body, if it is to be released. As many episodes are announced to have stopped as have
started, less the one in flight. After the exit every event is refused, and a refused event
leaves the machine as it is. -/
theorem effects_by_episode (releaseOnCancel : Bool) (events : List Event) :
    let m := new releaseOnCancel
    m.effects events
        = (m.endings events).flatMap (Event.block releaseOnCancel)
          ++ (m.after events).phase.unfinished
      ∧ (∃ more, m.effects events <+: m.effects (events ++ more)
          ∧ IsWhole releaseOnCancel (m.endings (events ++ more)) (m.effects (events ++ more)))
      ∧ (∀ ending ∈ m.endings events,
          (ending = .renewFailed ∨ ending = .cancelled ∨ ending = .episodeFinished)
          ∧ (.releaseLock ∈ ending.block releaseOnCancel
            ↔ releaseOnCancel = true ∧ (ending = .cancelled ∨ ending = .episodeFinished)))
      ∧ (m.effects events).count .startEpisode
          = (m.effects events).count .notifyStopped
            + (if (m.after events).phase = .leading then 1 else 0)
      ∧ (.exit ∈ m.effects events →
          ∀ event, (m.after events).handle event = (m.after events, .error ⟨.stopped, event⟩))
      ∧ ∀ event error, ((m.after events).handle event).2 = .error error →
          ((m.after events).handle event).1 = m.after events := by
  intro m
  refine ⟨effects_new releaseOnCancel events, ?_, ?_, ?_, ?_, ?_⟩
  · obtain ⟨more, hwhole⟩ := exists_isWhole releaseOnCancel events
    refine ⟨more, ?_, hwhole⟩
    rw [effects_append]
    exact List.prefix_append _ _
  · intro ending hending
    exact ⟨eq_of_mem_endings hending, releaseLock_mem_block_iff⟩
  · have hstarts := count_blocks releaseOnCancel (m.endings events) (.inl rfl)
    have hstops := count_blocks releaseOnCancel (m.endings events) (.inr rfl)
    rw [effects_new, List.count_append, List.count_append, hstarts, hstops, count_unfinished,
      Nat.add_assoc]
  · intro hexit event
    rw [handle, phase_of_exit_mem hexit, transition_stopped]
  · intro event error hrefused
    exact handle_refused _ event error hrefused

/-- An episode that is lost, one that is cancelled, events that are refused on the way, and the
exit. -/
theorem effects_by_episode_exit :
    (new true).effects [.acquired, .renewFailed, .acquired, .stoppedNotified, .acquired, .renewed,
        .cancelled, .stoppedNotified, .cancelled]
      = [.startEpisode, .cancelEpisode, .notifyStopped,
        .startEpisode, .cancelEpisode, .releaseLock, .notifyStopped, .exit]
    ∧ ((new true).after [.acquired, .renewFailed, .acquired, .stoppedNotified, .acquired, .renewed,
        .cancelled, .stoppedNotified, .cancelled]).handle .acquired
      = (⟨.stopped, true⟩, .error ⟨.stopped, .acquired⟩) := by
  obtain ⟨heq, -, -, -, hexit, -⟩ := effects_by_episode true [.acquired, .renewFailed, .acquired,
    .stoppedNotified, .acquired, .renewed, .cancelled, .stoppedNotified, .cancelled]
  exact ⟨heq, hexit (by decide) .acquired⟩

end Machine

end Tenure.Leader
