import Tenure.Proofs.Leader.Course

/-!
# `Tenure.Proofs.Leader.Blocks`: episodes come one after another

What is written down about the episodes of an elector is a list of complete
blocks and at most one that is unfinished. In a block the episode starts, its
body ends, the lock may be given up, and only then the end is announced. A block
is unfinished exactly as long as the elector says that it leads.

`Unfinished` ties what is written down of the episode in flight to the state of
the elector. `Step.extends` and `Taken.extends` say that whatever an elector does
goes on with the unfinished block or completes it; `Serial.move` carries this
through a run.

* `Reachable.episodes_serialized`: at every point of a run the marks are blocks,
  `leading` says whether one is unfinished, `episodes` counts them, and the elector
  returns only when it was told to shut down and every block is complete.
-/

set_option autoImplicit false

namespace Tenure.Leader

open Lease Store

/-- What is written down of an episode that is over. -/
inductive Mark.IsBlock : List Mark → Prop
  /-- The lock was kept, or giving it up did not come to a write. -/
  | kept : IsBlock [.started, .ended, .stopped]
  /-- The lock was given up after the body had ended. -/
  | vacated : IsBlock [.started, .ended, .vacating, .stopped]

namespace Elector

/-- Whether the body of the episode in flight has ended, if there is an episode. -/
def body? (e : Elector) : Option Bool := e.episode.map Episode.ended

/-- What is written down of the episode in flight. -/
inductive Unfinished (e : Elector) : List Mark → Prop
  | idle : e.leading = false → e.body? = none → Unfinished e []
  | running : e.leading = true → e.body? = some false → Unfinished e [.started]
  | ended : e.leading = true → e.body? = some true →
      Unfinished e [.started, .ended]
  | leaving : e.leading = true → e.body? = none → e.isVacating = false →
      Unfinished e [.started, .ended]
  | vacating : e.leading = true → e.body? = none →
      (e.isVacating = true ∨ ∃ cause, e.stage = .performing cause [.notifyStopped]) →
      Unfinished e [.started, .ended, .vacating]

/-- New marks go on with the unfinished block or complete it, and the elector
counts the episodes that start with them. -/
def Extends (e e' : Elector) (new : List Mark) : Prop :=
  e'.episodes = e.episodes + new.count .started ∧
    ∀ last, e.Unfinished last →
      e'.Unfinished (last ++ new) ∨ Mark.IsBlock (last ++ new) ∧ e'.Unfinished []

variable {e e' : Elector} {now : Moment} {delay : Duration} {reply : Reply} {notes : List Note}
  {last : List Mark}

/-- While the elector says that it leads, a block is unfinished. -/
theorem Unfinished.leading_iff (h : e.Unfinished last) : e.leading = true ↔ last ≠ [] := by
  cases h <;> simp_all

/-- An unfinished block is the beginning of a complete one. -/
theorem Unfinished.isPrefix (h : e.Unfinished last) :
    ∃ rest, rest ≠ [] ∧ Mark.IsBlock (last ++ rest) := by
  cases h with
  | idle hleading hbody => exact ⟨_, List.cons_ne_nil _ _, .kept⟩
  | running hleading hbody => exact ⟨[.ended, .stopped], List.cons_ne_nil _ _, .kept⟩
  | ended hleading hbody => exact ⟨[.stopped], List.cons_ne_nil _ _, .kept⟩
  | leaving hleading hbody hvacating => exact ⟨[.stopped], List.cons_ne_nil _ _, .kept⟩
  | vacating hleading hbody hvacating => exact ⟨[.stopped], List.cons_ne_nil _ _, .vacated⟩

/-- The body of the episode in flight runs until its end is written down. -/
theorem Unfinished.isRunning_iff (h : e.Unfinished last) :
    last.count .ended < last.count .started ↔ e.body? = some false := by
  cases h <;> simp_all

/-- What says nothing about an episode leaves no mark. -/
theorem Quiet.marks_eq_nil (h : Quiet notes) : notes.filterMap Mark.ofNote? = [] := by
  refine List.filterMap_eq_nil_iff.mpr fun note hnote => ?_
  rcases h note hnote with ⟨holder, rfl⟩ | ⟨m, rfl⟩ <;> rfl

/-- An elector that keeps the body of its episode, or stays without an episode,
goes on with the same block. -/
theorem Unfinished.keep (h : e.Unfinished last) (hleading : e'.leading = e.leading)
    (hbody : e'.body? = e.body?)
    (hstays : e.IsIdle ∨ e.InOffice) : e'.Unfinished last := by
  have hnone : e.leading = true → e.body? ≠ none := by
    rcases hstays with h | ⟨⟨episode, hepisode⟩, -⟩
    · simp [h.2]
    · simp [body?, hepisode]
  cases h with
  | idle hl hb => exact .idle (by rw [hleading, hl]) (by rw [hbody, hb])
  | running hl hb => exact .running (by rw [hleading, hl]) (by rw [hbody, hb])
  | ended hl hb => exact .ended (by rw [hleading, hl]) (by rw [hbody, hb])
  | leaving hl hb hv => exact absurd hb (hnone hl)
  | vacating hl hb hv => exact absurd hb (hnone hl)

/-- When the notes say nothing about an episode and no record of a lock that is
given up goes out, an elector that keeps its episode writes nothing down. -/
theorem extends_quiet (hquiet : Quiet notes) (hvacating : e'.isVacating = false)
    (hepisodes : e'.episodes = e.episodes) (hleading : e'.leading = e.leading)
    (hbody : e'.body? = e.body?)
    (hstays : e.IsIdle ∨ e.InOffice) : e.Extends e' (Chronicle.marksOf e e' notes) := by
  have hnone : Chronicle.marksOf e e' notes = [] := by
    simp [Chronicle.marksOf, hquiet.marks_eq_nil, hvacating]
  rw [hnone]
  refine ⟨hepisodes, fun last h => .inl ?_⟩
  rw [List.append_nil]
  exact h.keep hleading hbody hstays

/-- Nothing is left to be done, so there is an episode or no leadership at all. -/
theorem idle_or_inOffice_of_settled (h : e.IsSettled) : e.IsIdle ∨ e.InOffice := by
  unfold IsSettled at h
  split at h
  · exact .inr h
  · exact .inl h.1
  · exact .inl h

/-- An elector that is leaving has no body any more. -/
theorem IsLeaving.body?_eq (h : e.IsLeaving) : e.body? = none := by simp [body?, h.1]

/-- An elector that goes on leaving writes down at most that the record of a
lock that is given up goes out. -/
theorem extends_leaving (hepisodes : e'.episodes = e.episodes) (hleaving : e.IsLeaving)
    (hleaving' : e'.IsLeaving) (hbefore : ∀ cause, e.stage ≠ .performing cause [.notifyStopped])
    (hkeep : e.isVacating = true →
      e'.isVacating = true ∨ ∃ cause, e'.stage = .performing cause [.notifyStopped]) :
    e.Extends e' (Chronicle.marksOf e e' []) := by
  have hbody := hleaving'.body?_eq
  simp only [Chronicle.marksOf, List.filterMap_nil, List.nil_append]
  refine ⟨by rw [hepisodes]; split <;> rfl, fun last h => .inl ?_⟩
  cases h with
  | idle hl hb => simp [hleaving.2] at hl
  | running hl hb => simp [hleaving.body?_eq] at hb
  | ended hl hb => simp [hleaving.body?_eq] at hb
  | leaving hl hb hv =>
    cases hv' : e'.isVacating with
    | true => simpa [hv] using .vacating hleaving'.2 hbody (.inl hv')
    | false => simpa [hv] using .leaving hleaving'.2 hbody hv'
  | vacating hl hb hv =>
    -- the record of the lock is out already, so nothing is added
    have hv : e.isVacating = true := hv.resolve_right fun ⟨cause, hstage⟩ => hbefore cause hstage
    simpa [hv] using .vacating hleaving'.2 hbody (hkeep hv)

/-- Announcing the end completes the block. -/
theorem extends_announce (hepisodes : e'.episodes = e.episodes) (hleaving : e.IsLeaving)
    (hidle' : e'.IsIdle) : e.Extends e' [.stopped] := by
  have hbody : e'.body? = none := by simp [body?, hidle'.1]
  refine ⟨by rw [hepisodes]; rfl, fun last h => .inr ⟨?_, .idle hidle'.2 hbody⟩⟩
  cases h with
  | idle hl hb => simp [hleaving.2] at hl
  | running hl hb => simp [hleaving.body?_eq] at hb
  | ended hl hb => simp [hleaving.body?_eq] at hb
  | leaving hl hb hv => exact .kept
  | vacating hl hb hv => exact .vacated

/-- Whatever an elector does by itself goes on with the unfinished block or
completes it. -/
theorem Step.extends (h : Step now delay e e' notes) :
    e.Extends e' (Chronicle.marksOf e e' notes) := by
  cases h with
  | withdraw backoff hphase hshutdown hidle =>
    exact extends_quiet quiet_nil rfl rfl rfl rfl (.inl hidle)
  | backOff hstage hphase hidle => exact extends_quiet quiet_nil rfl rfl rfl rfl (.inl hidle)
  | compete hstage hphase hidle => exact extends_quiet quiet_nil rfl rfl rfl rfl (.inl hidle)
  | giveUp hstage hphase hidle =>
    exact extends_quiet (quiet_measured _) rfl rfl rfl rfl (.inl hidle)
  | rest hstage hphase hoffice => exact extends_quiet quiet_nil rfl rfl rfl rfl (.inr hoffice)
  | renew hstage hrung hphase hoffice =>
    exact extends_quiet quiet_nil rfl rfl rfl rfl (.inr hoffice)
  | lose hstage hrung hphase hoffice =>
    exact extends_quiet (quiet_measured _) rfl rfl rfl rfl (.inr hoffice)
  | relinquish event hevent hphase hoffice =>
    exact extends_quiet quiet_nil rfl rfl rfl rfl (.inr hoffice)
  | resume hstage hout hidle => exact extends_quiet quiet_nil rfl rfl rfl rfl (.inl hidle)
  | finish hstage hphase hidle hshutdown =>
    exact extends_quiet quiet_nil rfl rfl rfl rfl (.inl hidle)
  | settle hstage hsettled =>
    exact extends_quiet quiet_nil rfl rfl rfl rfl (idle_or_inOffice_of_settled hsettled)
  | exit hstage hphase hidle hshutdown =>
    exact extends_quiet quiet_nil rfl rfl rfl rfl (.inl hidle)
  | start hstage hphase hidle =>
    refine ⟨rfl, fun last h => .inl ?_⟩
    obtain rfl : last = [] := by simpa [hidle.2] using h.leading_iff
    exact .running rfl rfl
  | @revoke cause rest episode hstage hepisode hended hout hleading hrest =>
    have hmarks (after : Elector) (hvacating : after.isVacating = false) :
        Chronicle.marksOf e after (if episode.cancelled then [] else [.cancelled]) = [] := by
      cases episode.cancelled <;> simp [Chronicle.marksOf, Mark.ofNote?, hvacating]
    -- the token is cancelled, but the block waits for the body
    rw [hmarks _ rfl]
    refine ⟨rfl, fun last h => .inl ?_⟩
    rw [List.append_nil]
    exact h.keep rfl (by simp [body?, hepisode]) (.inr ⟨⟨episode, hepisode⟩, hleading⟩)
  | dismiss hstage hepisode hended hout hleading hrest =>
    refine ⟨rfl, fun last h => .inl ?_⟩
    have hbody : e.body? = some true := by simp [body?, hepisode, hended]
    -- only a body that has ended is dismissed
    obtain rfl : last = [.started, .ended] := by cases h <;> simp_all
    exact .leaving hleading rfl rfl
  | release hstage hout hleaving =>
    refine extends_leaving rfl hleaving hleaving (fun cause h => by simp [hstage] at h) ?_
    intro hvacating
    simp [isVacating, hstage] at hvacating
  | abandon hstage hout hleaving =>
    refine extends_leaving rfl hleaving hleaving (fun cause h => by simp [hstage] at h) ?_
    intro _
    exact .inr ⟨_, rfl⟩
  | announce hstage hout hleaving => exact extends_announce rfl hleaving ⟨hleaving.1, rfl⟩

/-- Whatever an elector does with a reply goes on with the unfinished block. -/
theorem Taken.extends (h : Taken now delay reply e e' notes) :
    e.Extends e' (Chronicle.marksOf e e' notes) := by
  cases h with
  | ask hstage hreply hphase hidle => exact extends_quiet quiet_nil rfl rfl rfl rfl (.inl hidle)
  | win hstage hreply hgranted hphase hidle hquiet =>
    exact extends_quiet hquiet rfl rfl rfl rfl (.inl hidle)
  | miss hstage hreply hdenied hphase hidle hquiet =>
    exact extends_quiet hquiet rfl rfl rfl rfl (.inl hidle)
  | askAgain hstage hreply hphase hoffice =>
    exact extends_quiet quiet_nil rfl rfl rfl rfl (.inr hoffice)
  | keep hstage hreply hgranted hphase hoffice hquiet =>
    exact extends_quiet hquiet rfl rfl rfl rfl (.inr hoffice)
  | lose hstage hreply hdenied hphase hoffice hquiet =>
    exact extends_quiet hquiet rfl rfl rfl rfl (.inr hoffice)
  | fail hstage hreply hphase hoffice =>
    exact extends_quiet quiet_nil rfl rfl rfl rfl (.inr hoffice)
  | @vacate cause limit surrender next client hstage hreply hout hleaving =>
    refine extends_leaving rfl hleaving hleaving (fun cause h => by simp [hstage] at h) ?_
    intro hvacating
    refine .inl ?_
    -- an attempt to give the lock up whose record is out asks for nothing else
    cases surrender with
    | looking => simp [isVacating, hstage] at hvacating
    | vacating current released =>
      cases reply with
      | found current => cases hreply; rfl
      | written version => cases hreply
      | failed error =>
        simp only [Client.answerRelease] at hreply
        split at hreply <;> cases hreply
  | leave hstage hreply hout hleaving =>
    refine extends_leaving rfl hleaving hleaving (fun cause h => by simp [hstage] at h) ?_
    intro _
    exact .inr ⟨_, rfl⟩

/-- Being told to shut down does not move an elector from its stage. -/
theorem stage_cancel (e : Elector) : e.cancel.1.stage = e.stage := by rw [cancel_eq]; rfl

/-- Whether the lock is being given up shows in the stage alone. -/
theorem isVacating_congr (h : e'.stage = e.stage) : e'.isVacating = e.isVacating := by
  unfold isVacating
  rw [h]

/-- Being told to shut down writes nothing down. -/
theorem extends_cancel (e : Elector) :
    e.Extends e.cancel.1 (Chronicle.marksOf e e.cancel.1 e.cancel.2) := by
  have hvacating := isVacating_congr (stage_cancel e)
  -- a cancelled token leaves no mark, and the body is as it was
  have hnone : Chronicle.marksOf e e.cancel.1 e.cancel.2 = [] := by
    have hnotes : e.cancel.2.filterMap Mark.ofNote? = [] := by
      unfold cancel
      cases e.episode with
      | none => rfl
      | some episode => cases hc : episode.cancelled <;> simp [hc, Mark.ofNote?]
    simp [Chronicle.marksOf, hnotes, hvacating]
  rw [hnone, cancel_eq]
  refine ⟨rfl, fun last h => .inl ?_⟩
  rw [List.append_nil]
  have hbody :
      (e.outside true fun episode => { episode with cancelled := true }).body? = e.body? := by
    cases hepisode : e.episode <;> simp [body?, outside, hepisode]
  rw [cancel_eq] at hvacating
  cases h with
  | idle hl hb => exact .idle hl (hbody.trans hb)
  | running hl hb => exact .running hl (hbody.trans hb)
  | ended hl hb => exact .ended hl (hbody.trans hb)
  | leaving hl hb hv => exact .leaving hl (hbody.trans hb) (hvacating.trans hv)
  | vacating hl hb hv => exact .vacating hl (hbody.trans hb) hv

/-- The end of a body that runs is written down. -/
theorem extends_endBody (hbody : e.body? = some false) : e.Extends e.endBody [.ended] := by
  have hended : e.endBody.body? = some true := by
    obtain ⟨episode, hepisode, -⟩ := Option.map_eq_some_iff.mp hbody
    simp [body?, endBody, hepisode]
  refine ⟨rfl, fun last h => .inl ?_⟩
  -- in every other state no body runs
  cases h with
  | running hl hb => exact .ended hl hended
  | idle hl hb => simp [hbody] at hb
  | ended hl hb => simp [hbody] at hb
  | leaving hl hb hv => simp [hbody] at hb
  | vacating hl hb hv => simp [hbody] at hb

end Elector

namespace Course

/-- What is written down in a course are complete blocks and the unfinished one
of the episode in flight. -/
structure Serial (c : Course) (blocks : List (List Mark)) (last : List Mark) : Prop where
  marks_eq : c.chronicle.marks = blocks.flatten ++ last
  complete : ∀ block ∈ blocks, Mark.IsBlock block
  unfinished : c.elector.Unfinished last
  episodes_eq : c.elector.episodes = c.chronicle.marks.count .started

/-- New marks are taken into the unfinished block or complete it. -/
theorem Serial.extend {c c' : Course} {blocks : List (List Mark)} {last new : List Mark}
    (h : c.Serial blocks last) (hmarks : c'.chronicle.marks = c.chronicle.marks ++ new)
    (hnew : c.elector.Extends c'.elector new) : ∃ blocks last, c'.Serial blocks last := by
  have hcount : c'.elector.episodes = c'.chronicle.marks.count .started := by
    rw [hnew.1, h.episodes_eq, hmarks, List.count_append]
  rcases hnew.2 last h.unfinished with hlast | ⟨hblock, hidle⟩
  · refine ⟨blocks, last ++ new, ?_, h.complete, hlast, hcount⟩
    rw [hmarks, h.marks_eq, List.append_assoc]
  · refine ⟨blocks ++ [last ++ new], [], ?_, ?_, hidle, hcount⟩
    · rw [hmarks, h.marks_eq]
      simp
    · intro block hmem
      rcases List.mem_append.mp hmem with hmem | hmem
      · exact h.complete block hmem
      · rw [List.mem_singleton.mp hmem]
        exact hblock

/-- In complete blocks as many bodies end as start. -/
theorem count_flatten_blocks {blocks : List (List Mark)}
    (h : ∀ block ∈ blocks, Mark.IsBlock block) :
    blocks.flatten.count .ended = blocks.flatten.count .started := by
  induction blocks with
  | nil => rfl
  | cons block rest ih =>
    have hblock : block.count .ended = block.count .started := by
      cases h block List.mem_cons_self <;> rfl
    have hrest := ih fun other hmem => h other (List.mem_cons_of_mem _ hmem)
    simp only [List.flatten_cons, List.count_append]
    omega

/-- A body runs as long as the elector waits for it. -/
theorem Serial.isBodyRunning_iff {c : Course} {blocks : List (List Mark)} {last : List Mark}
    (h : c.Serial blocks last) :
    c.chronicle.isBodyRunning = true ↔ c.elector.body? = some false := by
  rw [← h.unfinished.isRunning_iff]
  have hcount := count_flatten_blocks h.complete
  simp only [Chronicle.isBodyRunning, h.marks_eq, List.count_append, decide_eq_true_eq]
  omega

/-- One thing that happens goes on with the blocks. -/
theorem Serial.move {c c' : Course} {blocks : List (List Mark)} {last : List Mark}
    (h : c.Serial blocks last) (hc : c.elector.Coherent) (hmove : Move c c') :
    ∃ blocks last, c'.Serial blocks last := by
  cases hmove with
  | cancel => exact h.extend rfl (Elector.extends_cancel c.elector)
  | endBody hbody => exact h.extend rfl (Elector.extends_endBody (h.isBodyRunning_iff.mp hbody))
  | advance wall delay after notes hadvance => exact h.extend rfl (hc.step hadvance).extends
  | hear wall delay request reply hrequest =>
    have hmarks : (c.chronicle.hear c.now c.elector reply).marks = c.chronicle.marks := by
      unfold Chronicle.hear
      split <;> rfl
    refine h.extend ?_ (hc.taken hrequest).extends
    simp only [Course.hear, Chronicle.follow, hmarks]
  | pass t hle hcalm hdue =>
    exact ⟨blocks, last, h.marks_eq, h.complete, h.unfinished, h.episodes_eq⟩

/-- In every course the marks are complete blocks and the one of the episode in flight. -/
theorem Reachable.serial {c : Course} (h : Reachable c) : ∃ blocks last, c.Serial blocks last := by
  induction h with
  | start client timing release born now shutdown hborn =>
    refine ⟨[], [], rfl, ?_, .idle rfl rfl, rfl⟩
    intro block hmem
    cases hmem
  | move hreach hmove ih =>
    obtain ⟨blocks, last, hserial⟩ := ih
    exact hserial.move hreach.coherent hmove

/-- At every point of a run the marks are complete blocks, one for each episode,
and at most the beginning of another one. Exactly as long as there is such a
beginning, the elector says that it leads. It never refuses an event, and returns
only after it was told to shut down and the last block is complete. -/
theorem Reachable.episodes_serialized {c : Course} (h : Reachable c) :
    ∃ (blocks : List (List Mark)) (last : List Mark),
      c.chronicle.marks = blocks.flatten ++ last
      ∧ (∀ block ∈ blocks, Mark.IsBlock block)
      ∧ (∃ rest, rest ≠ [] ∧ Mark.IsBlock (last ++ rest))
      ∧ (c.elector.leading = true ↔ last ≠ [])
      ∧ c.elector.episodes = c.chronicle.marks.count .started
      ∧ (∀ error, c.elector.stage ≠ .aborting error ∧ c.elector.stage ≠ .finished (some error))
      ∧ (c.elector.stage = .finished none → c.elector.shutdown = true ∧ last = []) := by
  obtain ⟨blocks, last, hserial⟩ := h.serial
  have hc := h.coherent
  have hleading := hserial.unfinished.leading_iff
  refine ⟨blocks, last, hserial.marks_eq, hserial.complete, hserial.unfinished.isPrefix, hleading,
    hserial.episodes_eq, ?_, ?_⟩
  · -- a coherent elector has refused no event
    intro error
    constructor
    · intro hstage
      simp [Elector.Coherent, hstage] at hc
    · intro hstage
      simp [Elector.Coherent, hstage] at hc
  · intro hstage
    obtain ⟨hphase, hidle, hshutdown⟩ : c.elector.machine.phase = .stopped
        ∧ c.elector.IsIdle ∧ c.elector.shutdown = true := by
      simpa [Elector.Coherent, hstage] using hc
    exact ⟨hshutdown, by simpa [hidle.2] using hleading⟩

/-- An episode ends by itself and the lock is given up; after the wait the lock
is free, another episode starts, and it is told to shut down. -/
def handover : List Deed :=
  -- the lock is taken, and the first episode starts
  [.advance 0 ⟨0⟩, .hear 0 ⟨0⟩ (.found none), .hear 0 ⟨0⟩ (.written 1), .advance 0 ⟨0⟩,
    .advance 0 ⟨0⟩, .advance 0 ⟨0⟩, .endBody,
    -- the lock is given up, and the end is announced
    .advance 0 ⟨0⟩, .advance 0 ⟨0⟩, .advance 0 ⟨0⟩,
    .hear 0 ⟨0⟩ (.found (some ⟨1, ⟨"a", 90000, 0, 0, 0⟩⟩)), .hear 0 ⟨0⟩ (.written 2),
    .advance 0 ⟨0⟩, .advance 0 ⟨0⟩, .advance 0 ⟨0⟩, .advance 0 ⟨0⟩,
    -- the lock is taken again after the wait
    .advance 0 (.ofSecs 30), .pass 30000000000, .advance 0 ⟨0⟩,
    .hear 0 ⟨0⟩ (.found (some ⟨2, ⟨"", 1000, 0, 0, 0⟩⟩)), .hear 0 ⟨0⟩ (.written 3),
    .advance 0 ⟨0⟩, .advance 0 ⟨0⟩, .advance 0 ⟨0⟩, .cancel, .advance 0 ⟨0⟩, .advance 0 ⟨0⟩]

/-- A block that is complete, and one whose body lingers after its token was
cancelled. -/
theorem episodes_serialized_handover :
    ∃ c, (novice .standard).play handover = some c ∧ Reachable c
      ∧ c.chronicle.marks = [.started, .ended, .vacating, .stopped] ++ [.started]
      ∧ c.elector.isRevoked = true
      ∧ ∃ (blocks : List (List Mark)) (last : List Mark),
        c.chronicle.marks = blocks.flatten ++ last
        ∧ (∀ block ∈ blocks, Mark.IsBlock block)
        ∧ (∃ rest, rest ≠ [] ∧ Mark.IsBlock (last ++ rest))
        ∧ (c.elector.leading = true ↔ last ≠ [])
        ∧ c.elector.episodes = c.chronicle.marks.count .started
        ∧ (∀ error, c.elector.stage ≠ .aborting error ∧ c.elector.stage ≠ .finished (some error))
        ∧ (c.elector.stage = .finished none → c.elector.shutdown = true ∧ last = []) := by
  have hplay : ∃ c, (novice .standard).play handover = some c
      ∧ c.chronicle.marks = [.started, .ended, .vacating, .stopped] ++ [.started]
      ∧ c.elector.isRevoked = true := ⟨_, rfl, rfl, rfl⟩
  obtain ⟨c, hc, hmarks, hrevoked⟩ := hplay
  have hreach : Reachable c := (reachable_novice .standard).play hc
  exact ⟨c, hc, hreach, hmarks, hrevoked, hreach.episodes_serialized⟩

end Course

end Tenure.Leader
