import Tenure.Proofs.Leader.Step

/-!
# `Tenure.Proofs.Leader.Course`: the course of an elector

An elector at work, and what an observer writes down about it. The store may
reply whatever it likes whenever it likes, or never; the elector may be told to
shut down and the body of an episode may end at any time. Only time is bound to
the elector: it does not pass while something is urgent, nor beyond the ring of a
timer that is set. `Move` is one thing that happens, and `Course.Reachable` holds
of every point that a run comes to.

The chronicle of a course does not rely on what the elector keeps: when an
attempt begins is read off the clock, when it was granted is told by the lease
client's outcome, and whether a body runs is told by the marks.

* `Reachable.coherent`: at every point of a run the parts of the elector agree.
-/

set_option autoImplicit false

namespace Tenure.Leader

open Lease Store

/-- What happens to the episodes of an elector, in the order in which it happens. -/
inductive Mark
  /-- An episode starts, and its body with it. -/
  | started
  /-- The body has returned or broken down. -/
  | ended
  /-- The record of a lock that is given up is sent to the store. -/
  | vacating
  /-- The end of the episode is announced. -/
  | stopped
deriving Repr, DecidableEq

/-- The mark that a note leaves, if any. -/
def Mark.ofNote? : Note → Option Mark
  | .started => some started
  | .stopped => some stopped
  | _ => none

/-- An attempt at the lease that was granted. -/
structure Grant where
  /-- When the attempt began. -/
  began : Nat
  /-- When it was granted. -/
  landed : Nat
  /-- Whether it renewed a lease that was held. -/
  renewal : Bool
deriving Repr, DecidableEq

/-- What an observer writes down about an elector. -/
structure Chronicle where
  marks : List Mark
  /-- When the last attempt at the lease began. -/
  began : Nat
  /-- The last attempt that was granted. -/
  grant : Option Grant
  /-- When the token of an episode was last cancelled. -/
  revoked : Nat
deriving Repr, DecidableEq

namespace Elector

/-- Whether an attempt to take or renew the lease is under way. -/
def isAttempting (e : Elector) : Bool :=
  match e.stage with
  | .competing .. | .renewing .. => true
  | _ => false

/-- Whether an attempt to renew the lease is under way. -/
def isRenewing (e : Elector) : Bool :=
  match e.stage with
  | .renewing .. => true
  | _ => false

/-- Whether the record of a lock that is given up is on its way to the store. -/
def isVacating (e : Elector) : Bool :=
  match e.stage with
  | .releasing _ _ _ (.vacating ..) => true
  | _ => false

/-- Whether the token of an episode in flight is cancelled. -/
def isRevoked (e : Elector) : Bool := e.episode.any Episode.cancelled

/-- Whether there is an episode whose token is not cancelled. -/
def holdsToken (e : Elector) : Bool := e.episode.any fun episode => !episode.cancelled

/-- Whether an attempt has ended with the lease. -/
@[simp] def isGrant : Next Attempt Outcome → Bool
  | .finished (.ok outcome) => outcome.granted
  | _ => false

/-- Whether a reply grants the lease to the attempt that is under way. -/
def isGrantedBy (e : Elector) (now : Nat) (reply : Reply) : Bool :=
  match e.stage with
  | .competing _ attempt | .renewing _ _ attempt => isGrant (e.client.answer attempt now reply).2
  | _ => false

end Elector

namespace Chronicle

/-- Nothing is written down yet. -/
def blank : Chronicle := ⟨[], 0, none, 0⟩

/-- Whether the body of an episode runs: it has started and has not ended. -/
def isBodyRunning (c : Chronicle) : Bool := c.marks.count .ended < c.marks.count .started

/-- The marks that an elector leaves on its way from one state to the next. -/
def marksOf (before after : Elector) (notes : List Note) : List Mark :=
  notes.filterMap Mark.ofNote?
    ++ (if after.isVacating && !before.isVacating then [.vacating] else [])

/-- Takes down what an elector has done. -/
def follow (c : Chronicle) (now : Nat) (before after : Elector) (notes : List Note) :
    Chronicle where
  marks := c.marks ++ marksOf before after notes
  began := if after.isAttempting && !before.isAttempting then now else c.began
  grant := c.grant
  revoked := if after.isRevoked && !before.isRevoked then now else c.revoked

/-- Takes down whether a reply has granted the lease. -/
def hear (c : Chronicle) (now : Nat) (before : Elector) (reply : Reply) : Chronicle :=
  if before.isGrantedBy now reply then
    { c with grant := some ⟨c.began, now, before.isRenewing⟩ }
  else c

/-- Takes down that the body of the episode has ended. -/
def endBody (c : Chronicle) : Chronicle := { c with marks := c.marks ++ [.ended] }

end Chronicle

/-- An elector at work: what the clock shows, and what is written down about it. -/
structure Course where
  elector : Elector
  now : Nat
  chronicle : Chronicle
deriving Repr

namespace Course

/-- An elector that was made at some instant and told to shut down before it
starts, or not. -/
def start (client : Client) (timing : Timing) (release : Bool) (born now : Nat)
    (shutdown : Bool) : Course :=
  ⟨{ Elector.new client timing release born with shutdown := shutdown }, now, .blank⟩

/-- The elector has come to another state. -/
def follow (c : Course) (after : Elector) (notes : List Note) : Course :=
  { c with elector := after, chronicle := c.chronicle.follow c.now c.elector after notes }

/-- The elector has taken a reply. -/
def hear (c : Course) (wall : Nat) (delay : Duration) (reply : Reply) : Course :=
  let (after, notes) := c.elector.answer ⟨c.now, wall⟩ delay reply
  { c with
    elector := after
    chronicle := (c.chronicle.hear c.now c.elector reply).follow c.now c.elector after notes }

/-- One thing that happens in the course of an elector. -/
inductive Move : Course → Course → Prop
  /-- The elector is told to shut down. -/
  | cancel (c : Course) : Move c (c.follow c.elector.cancel.1 c.elector.cancel.2)
  /-- The body of an episode returns or breaks down. -/
  | endBody (c : Course) (hbody : c.chronicle.isBodyRunning = true) :
      Move c { c with elector := c.elector.endBody, chronicle := c.chronicle.endBody }
  /-- The elector does something by itself. -/
  | advance (c : Course) (wall : Nat) (delay : Duration) (after : Elector) (notes : List Note)
      (hadvance : c.elector.advance ⟨c.now, wall⟩ delay = some (after, notes)) :
      Move c (c.follow after notes)
  /-- The store replies to the call that is out. -/
  | hear (c : Course) (wall : Nat) (delay : Duration) (request : Request) (reply : Reply)
      (hrequest : c.elector.request? = some request) : Move c (c.hear wall delay reply)
  /-- Time passes, as long as nothing is urgent and no timer is missed. -/
  | pass (c : Course) (t : Nat) (hle : c.now ≤ t) (hcalm : c.elector.urgent = false)
      (hdue : ∀ due ∈ c.elector.due, t ≤ Clock.ring due) : Move c { c with now := t }

/-- The points that a run comes to. -/
inductive Reachable : Course → Prop
  | start (client : Client) (timing : Timing) (release : Bool) (born now : Nat) (shutdown : Bool)
      (hborn : born ≤ now) : Reachable (start client timing release born now shutdown)
  | move {c c' : Course} (h : Reachable c) (hmove : Move c c') : Reachable c'

/-- What happens next leaves the parts of the elector in agreement. -/
theorem Move.coherent {c c' : Course} (h : Move c c') (hc : c.elector.Coherent) :
    c'.elector.Coherent := by
  cases h with
  | cancel => exact hc.cancel
  | endBody hbody => exact hc.endBody
  | advance wall delay after notes hadvance => exact (hc.step hadvance).coherent
  | hear wall delay request reply hrequest => exact (hc.taken hrequest).coherent
  | pass t hle hcalm hdue => exact hc

/-- At every point of a course the parts of the elector agree. -/
theorem Reachable.coherent {c : Course} (h : Reachable c) : c.elector.Coherent := by
  induction h with
  | start client timing release born now shutdown hborn =>
    exact Elector.coherent_new client timing release born shutdown
  | move _ hmove ih => exact hmove.coherent ih

/-- No move changes the timing. -/
theorem Move.timing_eq {c c' : Course} (h : Move c c') (hc : c.elector.Coherent) :
    c'.elector.timing = c.elector.timing := by
  cases h with
  | cancel =>
    show c.elector.cancel.1.timing = _
    rw [Elector.cancel_eq]
    rfl
  | endBody hbody => rfl
  | advance wall delay after notes hadvance => exact (hc.step hadvance).timing_eq
  | hear wall delay request reply hrequest => exact (hc.taken hrequest).timing_eq
  | pass t hle hcalm hdue => rfl

/-- The points that a run comes to from a point. -/
inductive Later (c : Course) : Course → Prop
  | refl : Later c c
  | move {c' c'' : Course} (h : Later c c') (hmove : Move c' c'') : Later c c''

/-- A point later than a reachable one is itself reachable. -/
theorem Later.reachable {c c' : Course} (h : Later c c') (hc : Reachable c) : Reachable c' := by
  induction h with
  | refl => exact hc
  | move _ hmove ih => exact .move ih hmove

/-- The timing is the same throughout a course. -/
theorem Later.timing_eq {c c' : Course} (h : Later c c') (hc : Reachable c) :
    c'.elector.timing = c.elector.timing := by
  induction h with
  | refl => rfl
  | move hlater hmove ih => exact (hmove.timing_eq (hlater.reachable hc).coherent).trans ih

/-! ### Runs that can be computed -/

/-- One thing that happens, as data. -/
inductive Deed
  | cancel
  | endBody
  | advance (wall : Nat) (delay : Duration)
  | hear (wall : Nat) (delay : Duration) (reply : Reply)
  | pass (t : Nat)

/-- Lets one thing happen, if it can happen now. -/
def act (c : Course) : Deed → Option Course
  | .cancel => some (c.follow c.elector.cancel.1 c.elector.cancel.2)
  | .endBody =>
    if c.chronicle.isBodyRunning then
      some { c with elector := c.elector.endBody, chronicle := c.chronicle.endBody }
    else none
  | .advance wall delay =>
    (c.elector.advance ⟨c.now, wall⟩ delay).map fun (after, notes) => c.follow after notes
  | .hear wall delay reply => c.elector.request?.map fun _ => c.hear wall delay reply
  | .pass t =>
    if c.now ≤ t ∧ c.elector.urgent = false ∧ ∀ due ∈ c.elector.due, t ≤ Clock.ring due then
      some { c with now := t }
    else none

/-- Lets one thing happen after another. -/
def play (c : Course) : List Deed → Option Course
  | [] => some c
  | deed :: rest => (c.act deed).bind (play · rest)

/-- A deed that can be done is a move. -/
theorem move_of_act {c c' : Course} {deed : Deed} (h : c.act deed = some c') : Move c c' := by
  cases deed with
  | cancel =>
    cases h
    exact .cancel c
  | endBody =>
    simp only [act] at h
    split at h <;> cases h
    rename_i hbody
    exact .endBody c hbody
  | advance wall delay =>
    obtain ⟨⟨after, notes⟩, hadvance, rfl⟩ := Option.map_eq_some_iff.mp h
    exact .advance c wall delay after notes hadvance
  | hear wall delay reply =>
    obtain ⟨request, hrequest, rfl⟩ := Option.map_eq_some_iff.mp h
    exact .hear c wall delay request reply hrequest
  -- what the deed has tested is what the move asks for
  | pass t =>
    simp only [act] at h
    split at h <;> cases h
    rename_i hpass
    exact .pass c t hpass.1 hpass.2.1 hpass.2.2

/-- What can be played is a run. -/
theorem Reachable.play {c c' : Course} (h : Reachable c) {deeds : List Deed}
    (hplay : c.play deeds = some c') : Reachable c' := by
  induction deeds generalizing c with
  | nil =>
    cases hplay
    exact h
  | cons deed rest ih =>
    obtain ⟨next, hact, hrest⟩ := Option.bind_eq_some_iff.mp hplay
    exact ih (.move h (move_of_act hact)) hrest

/-- An elector that was just made, for a lock that nobody else competes for. -/
def novice (timing : Timing) : Course :=
  start (.new ⟨"test", "lock"⟩ "a" timing.lease) timing true 0 0 false

/-- The elector used as an example is at the start of a course. -/
theorem reachable_novice (timing : Timing) : Reachable (novice timing) :=
  .start _ _ _ _ _ _ (Nat.le_refl 0)

end Course

end Tenure.Leader
