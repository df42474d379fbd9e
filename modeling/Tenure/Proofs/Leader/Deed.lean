import Tenure.Proofs.Leader.Course

/-!
# `Tenure.Proofs.Leader.Deed`: runs of an elector as data

A `Deed` is one thing that happens to an elector, written down. Whatever can happen is
a deed (`Move.exists_act`), so a property of all deeds is one of all runs. Beside the
course that follows, a deed has what the elector says about it (`Course.noted`).

`Does` reads `Course.act` once: later proofs are by cases on it, and on `Step` and
`Taken` for what the elector does. `Under` is a run all of whose deeds have a property.

* `Reachable.causeFits`: what an elector performs at the end of an episode tells how
  the episode has ended, and only who was told to shut down acts on that cause.
-/

set_option autoImplicit false

namespace Tenure.Leader

open Lease Store

namespace Course

variable {c c' c'' : Course} {deed : Deed} {notes : List Note}

/-- What an elector says about a deed. -/
def noted (c : Course) : Deed → List Note
  | .cancel => c.elector.cancel.2
  | .advance wall delay =>
    match c.elector.advance ⟨c.now, wall⟩ delay with
    | some (_, notes) => notes
    | none => []
  | .hear wall delay reply => (c.elector.answer ⟨c.now, wall⟩ delay reply).2
  | .endBody | .pass _ => []

/-- What a deed does, and what the elector says about it. -/
inductive Does (c : Course) : Deed → Course → List Note → Prop
  /-- The elector is told to shut down. -/
  | cancel : Does c .cancel (c.follow c.elector.cancel.1 c.elector.cancel.2) c.elector.cancel.2
  /-- The body of an episode returns or breaks down. -/
  | endBody (hbody : c.chronicle.isBodyRunning = true) :
      Does c .endBody { c with elector := c.elector.endBody, chronicle := c.chronicle.endBody } []
  /-- The elector does something by itself. -/
  | advance {wall : Nat} {delay : Duration} {after : Elector} {notes : List Note}
      (hadvance : c.elector.advance ⟨c.now, wall⟩ delay = some (after, notes)) :
      Does c (.advance wall delay) (c.follow after notes) notes
  /-- The store replies to the call that is out. -/
  | hear {wall : Nat} {delay : Duration} {request : Request} {reply : Reply}
      (hrequest : c.elector.request? = some request) :
      Does c (.hear wall delay reply) (c.hear wall delay reply)
        (c.elector.answer ⟨c.now, wall⟩ delay reply).2
  /-- Time passes. -/
  | pass {t : Nat} (hle : c.now ≤ t) (hcalm : c.elector.urgent = false)
      (hdue : ∀ due ∈ c.elector.due, t ≤ Clock.ring due) :
      Does c (.pass t) { c with now := t } []

/-- A deed that can be done does what it says, and the elector says what is noted. -/
theorem does_of_act (h : c.act deed = some c') : Does c deed c' (c.noted deed) := by
  cases deed with
  | cancel =>
    cases h
    exact .cancel
  | endBody =>
    simp only [act] at h
    split at h <;> cases h
    rename_i hbody
    exact .endBody hbody
  | advance wall delay =>
    obtain ⟨⟨after, notes⟩, hadvance, rfl⟩ := Option.map_eq_some_iff.mp h
    have hdoes : Does c (.advance wall delay) (c.follow after notes) notes := .advance hadvance
    simpa only [noted, hadvance] using hdoes
  | hear wall delay reply =>
    obtain ⟨request, hrequest, rfl⟩ := Option.map_eq_some_iff.mp h
    exact .hear hrequest
  -- what the deed has tested is what it says it does
  | pass t =>
    simp only [act] at h
    split at h <;> cases h
    rename_i hpass
    exact .pass hpass.1 hpass.2.1 hpass.2.2

/-- Whatever can happen is a deed. -/
theorem Move.exists_act (h : Move c c') : ∃ deed, c.act deed = some c' := by
  cases h with
  | cancel => exact ⟨.cancel, rfl⟩
  | endBody hbody => exact ⟨.endBody, by simp [act, hbody]⟩
  | advance wall delay after notes hadvance => exact ⟨.advance wall delay, by simp [act, hadvance]⟩
  | hear wall delay request reply hrequest =>
    exact ⟨.hear wall delay reply, by simp [act, hrequest]⟩
  | pass t hle hcalm hdue => exact ⟨.pass t, if_pos ⟨hle, hcalm, hdue⟩⟩

/-- What a deed does is a move of the course. -/
theorem Does.move (h : Does c deed c' notes) : Move c c' := by
  cases h with
  | cancel => exact .cancel c
  | endBody hbody => exact .endBody c hbody
  | advance hadvance => exact .advance c _ _ _ _ hadvance
  | hear hrequest => exact .hear c _ _ _ _ hrequest
  | pass hle hcalm hdue => exact .pass c _ hle hcalm hdue

/-- Time does not run backwards. -/
theorem Does.now_le (h : Does c deed c' notes) : c.now ≤ c'.now := by
  cases h with
  | pass hle hcalm hdue => exact hle
  | _ => exact Nat.le_refl _

/-- The points that a run comes to from a point when each of its deeds has a property
at the point where it is done. -/
inductive Under (p : Course → Deed → Prop) (c : Course) : Course → Prop
  | refl : Under p c c
  | act {c' c'' : Course} (h : Under p c c') (deed : Deed) (hp : p c' deed)
      (hact : c'.act deed = some c'') : Under p c c''

variable {p : Course → Deed → Prop}

/-- Deeds that each have a property lead to a later point. -/
theorem Under.later (h : Under p c c') : Later c c' := by
  induction h with
  | refl => exact .refl
  | act _ deed hp hact ih => exact .move ih (move_of_act hact)

/-- Two runs of deeds with a property make one. -/
theorem Under.trans (h : Under p c c') (h' : Under p c' c'') : Under p c c'' := by
  induction h' with
  | refl => exact h
  | act _ deed hp hact ih => exact .act ih deed hp hact

/-- Lets one thing happen after another, as long as each passes a test. -/
def playUnder (test : Course → Deed → Bool) (c : Course) : List Deed → Option Course
  | [] => some c
  | deed :: rest => if test c deed then (c.act deed).bind (playUnder test · rest) else none

/-- A run whose deeds pass a test is one of deeds with the property that the test stands for. -/
theorem Under.play {test : Course → Deed → Bool} (htest : ∀ c deed, test c deed = true → p c deed)
    (h : Under p c c') {deeds : List Deed} (hplay : c'.playUnder test deeds = some c'') :
    Under p c c'' := by
  induction deeds generalizing c' with
  | nil =>
    cases hplay
    exact h
  | cons deed rest ih =>
    simp only [playUnder] at hplay
    split at hplay
    · rename_i hpass
      obtain ⟨next, hact, hrest⟩ := Option.bind_eq_some_iff.mp hplay
      exact ih (.act h deed (htest _ _ hpass) hact) hrest
    · cases hplay

/-- One thing after another that an elector does by itself. -/
def alone (n : Nat) : List Deed := .replicate n (.advance 0 ⟨0⟩)

/-- An attempt takes the lease at once, and the leader waits for its first renewal. -/
def quickWin : List Deed :=
  .advance 0 ⟨0⟩ :: .hear 0 ⟨0⟩ (.found none) :: .hear 0 ⟨0⟩ (.written 1) :: alone 3

end Course

/-! ### Why an episode ends -/

namespace Elector

variable {e e' : Elector} {now : Moment} {delay : Duration} {reply : Reply} {notes : List Note}

/-- Being told to shut down is seen by the token of an episode at most. -/
theorem eq_cancelled_of_mem_cancel {note : Note} (h : note ∈ e.cancel.2) : note = .cancelled := by
  unfold cancel at h
  split at h
  · cases h
  · split at h
    · cases h
    · exact List.mem_singleton.mp h

/-- What is performed is due to an event that fits the phase: leadership is lost by a
failed renewal only, and the elector was told to shut down when that is the cause. -/
def CauseFits (e : Elector) : Prop :=
  match e.stage with
  | .performing cause _ | .stopping cause _ | .releasing cause _ _ _ =>
    (e.machine.phase = .lost ↔ cause = .renewFailed) ∧ (cause = .cancelled → e.shutdown = true)
  | _ => True

/-- By itself an elector performs nothing but what the phase calls for. -/
theorem Step.causeFits (h : Step now delay e e' notes) (hfits : e.CauseFits) : e'.CauseFits := by
  cases h with
  | withdraw backoff hphase hshutdown hidle => exact ⟨by simp, fun _ => hshutdown⟩
  | lose hstage hrung hphase hoffice => exact ⟨by simp, fun hcause => by cases hcause⟩
  | relinquish event hevent hphase hoffice =>
    rcases hevent with ⟨rfl, hshutdown⟩ | ⟨rfl, hended⟩
    · exact ⟨by simp, fun _ => hshutdown⟩
    · exact ⟨by simp, fun hcause => by cases hcause⟩
  | resume hstage hout hidle => exact ⟨by simp, fun hcause => by cases hcause⟩
  | start hstage => simpa only [CauseFits, hstage, startEpisode] using hfits
  | announce hstage => simpa only [CauseFits, hstage, notifyStopped] using hfits
  | exit hstage | revoke hstage | release hstage | abandon hstage =>
    simpa only [CauseFits, hstage] using hfits
  | dismiss hstage =>
    rcases hstage with hstage | hstage
    · simpa only [CauseFits, hstage] using hfits
    · simpa only [CauseFits, hstage] using hfits
  | backOff _ | compete _ | giveUp _ | rest _ | renew _ | finish _ | settle _ => trivial

/-- With a reply an elector performs nothing but what the phase calls for. -/
theorem Taken.causeFits (h : Taken now delay reply e e' notes) (hfits : e.CauseFits) :
    e'.CauseFits := by
  cases h with
  | win hstage hreply hgranted hphase hidle hquiet => exact ⟨by simp, fun hcause => by cases hcause⟩
  | keep hstage hreply hgranted hphase hoffice hquiet =>
    exact ⟨by simp [hphase], fun hcause => by cases hcause⟩
  | lose hstage hreply hdenied hphase hoffice hquiet =>
    exact ⟨by simp, fun hcause => by cases hcause⟩
  | vacate hstage | leave hstage => simpa only [CauseFits, hstage] using hfits
  | ask _ | miss _ | askAgain _ | fail _ => trivial

/-- What happens from outside does not change what is being performed, nor why. -/
theorem causeFits_outside {shutdown : Bool} {f : Episode → Episode}
    (hs : e.shutdown = true → shutdown = true) (hfits : e.CauseFits) :
    (e.outside shutdown f).CauseFits := by
  unfold CauseFits at hfits ⊢
  show match e.stage with
    | .performing cause _ | .stopping cause _ | .releasing cause _ _ _ =>
      (e.machine.phase = .lost ↔ cause = .renewFailed) ∧ (cause = .cancelled → shutdown = true)
    | _ => True
  split <;> simp_all

end Elector

namespace Course

variable {c c' : Course} {deed : Deed} {notes : List Note}

/-- Every deed keeps the cause of what is performed in step with the phase. -/
theorem Does.causeFits (h : Does c deed c' notes) (hc : c.elector.Coherent)
    (hfits : c.elector.CauseFits) : c'.elector.CauseFits := by
  cases h with
  | cancel =>
    show c.elector.cancel.1.CauseFits
    rw [Elector.cancel_eq]
    exact Elector.causeFits_outside (fun _ => rfl) hfits
  | endBody hbody =>
    show c.elector.endBody.CauseFits
    rw [Elector.endBody_eq]
    exact Elector.causeFits_outside id hfits
  | advance hadvance => exact (hc.step hadvance).causeFits hfits
  | hear hrequest => exact (hc.taken hrequest).causeFits hfits
  | pass hle hcalm hdue => exact hfits

/-- At every point of a course the cause of what is performed fits the phase. -/
theorem Reachable.causeFits (h : Reachable c) : c.elector.CauseFits := by
  induction h with
  | start client timing release born now shutdown hborn => trivial
  | move hreach hmove ih =>
    obtain ⟨deed, hact⟩ := hmove.exists_act
    exact (does_of_act hact).causeFits hreach.coherent ih

end Course

end Tenure.Leader
