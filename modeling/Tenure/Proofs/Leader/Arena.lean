import Tenure.Leader.Candidate
import Tenure.Proofs.Leader.Course

/-!
# `Tenure.Proofs.Leader.Arena`: candidates that share a store

Any number of candidates at one store in memory, each at its own link, in any
order of steps. From outside a candidate is started, told to shut down and left
by the body of its episode, and its link is cut, slowed, blocked, mended and made
to fail; otherwise every candidate does what `Candidate.advance` says. Time does
not pass while a candidate can do something, nor beyond the ring of a timer.

* `Candidate.advance_cases`: a candidate sends a call, takes the reply to one that
  has arrived, or does something by itself.
* `Arena.Reachable.course`: what a candidate that was started goes through is a
  course of its elector.
-/

set_option autoImplicit false

namespace Tenure.Leader

open Lease Store

namespace Candidate

/-- The reply that the next step of a candidate brings, if it brings one. -/
def reply? (c : Candidate) (store : Shared) (now : Nat) : Option Reply :=
  match c.elector.request?, c.transit with
  | some request, some transit =>
    if hasArrived transit now then some (c.deliver request transit store).2.2 else none
  | _, _ => none

/-- What a candidate can do next, and the reply that it takes. -/
inductive Advance (c : Candidate) (store : Shared) (now : Moment) (delay : Duration) :
    Candidate → Shared → List Note → Option Reply → Prop
  /-- It sends a call off. -/
  | send {request : Request} (hrequest : c.elector.request? = some request)
      (htransit : c.transit = none) :
      Advance c store now delay { c with transit := some (c.link.send now.instant) } store [] none
  /-- It takes the reply to a call that has arrived. -/
  | receive {request : Request} {transit : Transit} {link : Link} {store' : Shared} {reply : Reply}
      (hrequest : c.elector.request? = some request) (htransit : c.transit = some transit)
      (harrived : hasArrived transit now.instant = true)
      (hdeliver : c.deliver request transit store = (link, store', reply)) :
      Advance c store now delay ⟨(c.elector.answer now delay reply).1, link, none⟩ store'
        (c.elector.answer now delay reply).2 (some reply)
  /-- It does something by itself, and a call on its way is dropped. -/
  | act {elector : Elector} {notes : List Note}
      (hadvance : c.elector.advance now delay = some (elector, notes)) :
      Advance c store now delay ⟨elector, c.link, none⟩ store notes none

variable {c c' : Candidate} {store store' : Shared} {now : Moment} {delay : Duration}
  {notes : List Note}

/-- What a candidate does on its own is one of the two things it can do: its elector goes on, or
its call arrives. -/
theorem act_cases (h : c.act store now delay = some (c', store', notes)) :
    Advance c store now delay c' store' notes none := by
  obtain ⟨⟨elector, notes'⟩, hadvance, heq⟩ := Option.map_eq_some_iff.mp h
  cases heq
  exact .act hadvance

/-- Whatever a candidate does next is one of these. -/
theorem advance_cases (h : c.advance store now delay = some (c', store', notes)) :
    Advance c store now delay c' store' notes (c.reply? store now.instant) := by
  unfold advance at h
  unfold reply?
  cases hrequest : c.elector.request? with
  | none =>
    simp only [hrequest] at h ⊢
    exact act_cases h
  | some request =>
    -- a call that is not out yet is sent, and one that is out is answered once it has arrived
    cases htransit : c.transit with
    | none =>
      simp only [hrequest, htransit] at h ⊢
      cases h
      exact .send hrequest htransit
    | some transit =>
      simp only [hrequest, htransit] at h ⊢
      split at h
      · rename_i harrived
        rw [if_pos harrived]
        cases h
        exact .receive hrequest htransit harrived rfl
      · rename_i harrived
        rw [if_neg harrived]
        exact act_cases h

/-- A candidate that can do nothing has nothing urgent to do. -/
theorem urgent_of_advance_none (h : c.advance store now delay = none) :
    c.elector.urgent = false := by
  have hact (hnone : c.act store now delay = none) : c.elector.urgent = false := by
    have hadvance : c.elector.advance now delay = none := Option.map_eq_none_iff.mp hnone
    unfold Elector.advance at hadvance
    split at hadvance
    · cases hadvance
    · rename_i hurgent
      simpa using hurgent
  unfold advance at h
  split at h
  · cases h
  · split at h
    · cases h
    · exact hact h
  · exact hact h

end Candidate

/-- A candidate, whether it was started, and what is written down about it. -/
structure Seat where
  candidate : Candidate
  running : Bool
  chronicle : Chronicle

namespace Seat

/-- What the elector of a candidate goes through. -/
def course (s : Seat) (now : Nat) : Course := ⟨s.candidate.elector, now, s.chronicle⟩

/-- The candidate has come to another state, with a reply or without one. -/
def follow (s : Seat) (now : Nat) (after : Candidate) (notes : List Note) (reply : Option Reply) :
    Seat :=
  let heard := match reply with
    | some reply => s.chronicle.hear now s.candidate.elector reply
    | none => s.chronicle
  { s with
    candidate := after
    chronicle := heard.follow now s.candidate.elector after.elector notes }

/-- The candidate is told to shut down. -/
def cancel (s : Seat) (now : Nat) : Seat :=
  s.follow now { s.candidate with elector := s.candidate.elector.cancel.1 }
    s.candidate.elector.cancel.2 none

/-- The body of the episode returns or breaks down. -/
def endBody (s : Seat) : Seat :=
  { s with
    candidate := { s.candidate with elector := s.candidate.elector.endBody }
    chronicle := s.chronicle.endBody }

/-- The link of the candidate changes. -/
def relink (s : Seat) (f : Link → Link) : Seat :=
  { s with candidate := { s.candidate with link := f s.candidate.link } }

end Seat

/-- What candidates for one lock have in common, and who they are. -/
structure ElectionConfig (ι : Type) where
  key : Key
  timing : Timing
  identity : ι → String
  releases : ι → Bool

namespace Seat

/-- A candidate that was made but not started, told to shut down or not. -/
def IsFresh {ι : Type} (config : ElectionConfig ι) (i : ι) (now : Nat) (s : Seat) : Prop :=
  ∃ (born : Nat) (shutdown : Bool), born ≤ now
    ∧ s.candidate.elector = { Elector.new (.new config.key (config.identity i) config.timing.lease)
        config.timing (config.releases i) born with shutdown := shutdown }
    ∧ s.candidate.transit = none ∧ s.chronicle = .blank

/-- A candidate is on a course of its elector once it was started, and fresh
before. -/
structure Fits {ι : Type} (config : ElectionConfig ι) (i : ι) (now : Nat) (s : Seat) : Prop where
  course : s.running = true → Course.Reachable (s.course now)
  fresh : s.running = false → s.IsFresh config i now

variable {ι : Type} {config : ElectionConfig ι} {i : ι} {now : Nat} {s : Seat}

/-- A fresh candidate that starts is at the beginning of a course. -/
theorem Fits.start (h : s.Fits config i now) : Fits config i now { s with running := true } := by
  refine ⟨fun _ => ?_, fun hfresh => by cases hfresh⟩
  cases hrunning : s.running with
  | true => exact h.course hrunning
  | false =>
    -- told to shut down or not, this is where a course starts
    obtain ⟨born, shutdown, hborn, helector, -, hchronicle⟩ := h.fresh hrunning
    show Course.Reachable ⟨s.candidate.elector, now, s.chronicle⟩
    rw [helector, hchronicle]
    exact .start _ _ _ born now shutdown hborn

/-- A candidate that was not started is at the beginning of a course. -/
theorem Fits.reachable (h : s.Fits config i now) : Course.Reachable (s.course now) :=
  h.start.course rfl

/-- A candidate fits what is written down about it also when it is told to shut down. -/
theorem Fits.cancel (h : s.Fits config i now) : (s.cancel now).Fits config i now := by
  refine ⟨fun hrunning => (h.course hrunning).move (.cancel _), fun hidle => ?_⟩
  obtain ⟨born, shutdown, hborn, helector, htransit, hchronicle⟩ := h.fresh hidle
  refine ⟨born, true, hborn, ?_, htransit, ?_⟩
  · simp only [Seat.cancel, Seat.follow, helector]
    rfl
  · simp only [Seat.cancel, Seat.follow, helector, hchronicle]
    rfl

/-- A candidate fits what is written down about it also when the body of its episode ends. -/
theorem Fits.endBody (h : s.Fits config i now) (hbody : s.chronicle.isBodyRunning = true) :
    s.endBody.Fits config i now := by
  refine ⟨fun hrunning => (h.course hrunning).move (.endBody _ hbody), fun hidle => ?_⟩
  obtain ⟨-, -, -, -, -, hchronicle⟩ := h.fresh hidle
  rw [hchronicle] at hbody
  cases hbody

/-- The link of a candidate is no part of its course. -/
theorem Fits.relink (h : s.Fits config i now) (f : Link → Link) : (s.relink f).Fits config i now :=
  ⟨h.course, h.fresh⟩

/-- Whatever a started candidate does is a move of its course. -/
theorem Fits.advance {wall : Nat} {delay : Duration} {after : Candidate} {store store' : Shared}
    {notes : List Note} {reply : Option Reply} (h : s.Fits config i now)
    (hrunning : s.running = true)
    (hadvance : s.candidate.Advance store ⟨now, wall⟩ delay after store' notes reply) :
    (s.follow now after notes reply).Fits config i now := by
  refine ⟨fun _ => ?_, fun hidle => absurd (hrunning.symm.trans hidle) (by simp)⟩
  have hreach := h.course hrunning
  cases hadvance with
  | send hrequest htransit =>
    -- the elector does not notice that its call is sent off
    have hsame :
        s.chronicle.follow now s.candidate.elector s.candidate.elector [] = s.chronicle := by
      simp [Chronicle.follow, Chronicle.marksOf]
    simp only [Seat.course, Seat.follow, hsame]
    exact hreach
  | receive hrequest htransit harrived hdeliver =>
    exact hreach.move (.hear _ wall delay _ _ hrequest)
  | act hadvance => exact hreach.move (.advance _ wall delay _ _ hadvance)

/-- Time that passes while a candidate has nothing to do passes in its course as well. -/
theorem Fits.pass {store : Shared} {t wall : Nat} {delay : Duration} (h : s.Fits config i now)
    (hle : now ≤ t)
    (hcalm : s.running = true → s.candidate.advance store ⟨now, wall⟩ delay = none)
    (hdue : s.running = true → ∀ timer ∈ s.candidate.timers, ∀ due ∈ timer, t ≤ Clock.ring due) :
    s.Fits config i t := by
  refine ⟨fun hrunning => (h.course hrunning).move (.pass _ t hle ?_ ?_), fun hidle => ?_⟩
  · exact Candidate.urgent_of_advance_none (hcalm hrunning)
  · exact hdue hrunning _ List.mem_cons_self
  · obtain ⟨born, shutdown, hborn, hfresh⟩ := h.fresh hidle
    exact ⟨born, shutdown, Nat.le_trans hborn hle, hfresh⟩

end Seat

/-- Candidates and the store that they share. -/
structure Arena (ι : Type) where
  store : Shared
  seats : ι → Seat
  now : Nat

namespace Arena

variable {ι : Type} [DecidableEq ι]

/-- Changes one seat. -/
def put (a : Arena ι) (i : ι) (seat : Seat) : Arena ι :=
  { a with seats := fun j => if j = i then seat else a.seats j }

/-- The seat that was changed is the new one. -/
@[simp] theorem put_self (a : Arena ι) (i : ι) (seat : Seat) : (a.put i seat).seats i = seat := by
  simp [put]

/-- Changing one seat leaves the others. -/
theorem put_other (a : Arena ι) {i j : ι} (seat : Seat) (h : j ≠ i) :
    (a.put i seat).seats j = a.seats j := by
  simp [put, h]

/-- A seat that is put back where it was changes nothing. -/
theorem put_seats (a : Arena ι) (i : ι) : a.put i (a.seats i) = a := by
  have hseats : (fun j => if j = i then a.seats i else a.seats j) = a.seats := by
    funext j
    by_cases hj : j = i
    · rw [if_pos hj, hj]
    · rw [if_neg hj]
  rw [put, hseats]

/-- Candidates that were made, each at some instant, but not started, at a store
in memory with any records. -/
def initial (config : ElectionConfig ι) (born : ι → Nat) (records : Memory) (files : FileTree)
    (now : Nat) :
    Arena ι where
  store := ⟨.memory records, files⟩
  seats i :=
    { candidate :=
        { elector := .new (.new config.key (config.identity i) config.timing.lease) config.timing
            (config.releases i) (born i)
          link := .healthy
          transit := none }
      running := false
      chronicle := .blank }
  now := now

/-- One thing that happens among candidates. -/
inductive Move : Arena ι → Arena ι → Prop
  /-- A candidate is started. -/
  | start (a : Arena ι) (i : ι) : Move a (a.put i { a.seats i with running := true })
  /-- A candidate is told to shut down. -/
  | cancel (a : Arena ι) (i : ι) : Move a (a.put i ((a.seats i).cancel a.now))
  /-- The body of an episode returns or breaks down. -/
  | endBody (a : Arena ι) (i : ι) (hbody : (a.seats i).chronicle.isBodyRunning = true) :
      Move a (a.put i (a.seats i).endBody)
  /-- The calls of a candidate are let through, slowed, refused or lost from now on. -/
  | route (a : Arena ι) (i : ι) (traffic : Traffic) :
      Move a (a.put i ((a.seats i).relink (·.route traffic)))
  /-- The next call of a kind will fail. -/
  | fault (a : Arena ι) (i : ι) (call : Call) (error : Error) :
      Move a (a.put i ((a.seats i).relink (·.expect ⟨call, .fails error⟩)))
  /-- A candidate takes its next step. -/
  | advance (a : Arena ι) (i : ι) (wall : Nat) (delay : Duration) (after : Candidate)
      (store : Shared) (notes : List Note) (hrunning : (a.seats i).running = true)
      (hadvance : (a.seats i).candidate.advance a.store ⟨a.now, wall⟩ delay
        = some (after, store, notes)) :
      Move a { a.put i ((a.seats i).follow a.now after notes
        ((a.seats i).candidate.reply? a.store a.now)) with store := store }
  /-- Time passes, as long as no candidate can do anything and no timer is missed. -/
  | pass (a : Arena ι) (t wall : Nat) (delay : ι → Duration) (hle : a.now ≤ t)
      (hcalm : ∀ i, (a.seats i).running = true →
        (a.seats i).candidate.advance a.store ⟨a.now, wall⟩ (delay i) = none)
      (hdue : ∀ i, (a.seats i).running = true → ∀ timer ∈ (a.seats i).candidate.timers,
        ∀ due ∈ timer, t ≤ Clock.ring due) : Move a { a with now := t }

/-- What candidates may come to. -/
inductive Reachable (config : ElectionConfig ι) : Arena ι → Prop
  | start (born : ι → Nat) (records : Memory) (files : FileTree) (now : Nat)
      (hborn : ∀ i, born i ≤ now) : Reachable config (initial config born records files now)
  | move {a a' : Arena ι} (h : Reachable config a) (hmove : Move a a') : Reachable config a'

/-! ### Each candidate goes through a course -/

variable {config : ElectionConfig ι} {i : ι}

/-- What holds of the seat that is changed, and of every other one, holds of all. -/
theorem put_forall {p : ι → Seat → Prop} {a : Arena ι} {seat : Seat} (hseat : p i seat)
    (hothers : ∀ j, j ≠ i → p j (a.seats j)) (j : ι) : p j ((a.put i seat).seats j) := by
  by_cases hj : j = i
  · subst hj
    rwa [put_self]
  · rw [put_other a seat hj]
    exact hothers j hj

/-- A seat that fits may take the place of another one. -/
theorem fits_put {a : Arena ι} {seat : Seat} (h : ∀ j, (a.seats j).Fits config j a.now)
    (hseat : seat.Fits config i a.now) (j : ι) : ((a.put i seat).seats j).Fits config j a.now :=
  put_forall (p := fun j s => s.Fits config j a.now) hseat (fun j _ => h j) j

/-- Every candidate that is reached fits what is written down about it. -/
theorem Reachable.fits {a : Arena ι} (h : Reachable config a) (i : ι) :
    (a.seats i).Fits config i a.now := by
  -- on the run: whoever moves fits by the lemma on its move, and the others did so before
  induction h generalizing i with
  | start born records files now hborn =>
    refine ⟨fun hrunning => ?_, fun _ => ⟨born i, false, hborn i, rfl, rfl, rfl⟩⟩
    simp [initial] at hrunning
  | move _ hmove ih =>
    cases hmove with
    | start j => exact fits_put ih (ih j).start i
    | cancel j => exact fits_put ih (ih j).cancel i
    | endBody j hbody => exact fits_put ih ((ih j).endBody hbody) i
    | route j traffic => exact fits_put ih ((ih j).relink _) i
    | fault j call error => exact fits_put ih ((ih j).relink _) i
    | advance j wall delay after store notes hrunning hadvance =>
      exact fits_put ih ((ih j).advance hrunning (Candidate.advance_cases hadvance)) i
    | pass t wall delay hle hcalm hdue => exact (ih i).pass hle (hcalm i) (hdue i)

/-- What a candidate that was started goes through is a course of its elector. -/
theorem Reachable.course {a : Arena ι} (h : Reachable config a) {i : ι}
    (hrunning : (a.seats i).running = true) : Course.Reachable ((a.seats i).course a.now) :=
  (h.fits i).course hrunning

/-- One thing that happens among candidates is one in the course of each, or nothing;
time passes also for those that were not started. -/
theorem Move.course {a a' : Arena ι} (h : Move a a') (i : ι) :
    (a'.seats i).course a'.now = (a.seats i).course a.now
      ∨ Course.Move ((a.seats i).course a.now) ((a'.seats i).course a'.now)
      ∨ (a.seats i).running = false ∧ a'.seats i = a.seats i := by
  have hother : ∀ (j : ι) (seat : Seat), i ≠ j →
      ((a.put j seat).seats i).course a.now = (a.seats i).course a.now := by
    intro j seat hij
    rw [put_other a seat hij]
  cases h with
  | start j | route j _ | fault j _ _ =>
    by_cases hij : i = j
    · subst hij
      refine .inl ?_
      show ((a.put i _).seats i).course a.now = _
      rw [put_self]
      rfl
    · exact .inl (hother j _ hij)
  | cancel j =>
    by_cases hij : i = j
    · subst hij
      refine .inr (.inl ?_)
      show Course.Move _ (((a.put i _).seats i).course a.now)
      rw [put_self]
      exact .cancel _
    · exact .inl (hother j _ hij)
  | endBody j hbody =>
    by_cases hij : i = j
    · subst hij
      refine .inr (.inl ?_)
      show Course.Move _ (((a.put i _).seats i).course a.now)
      rw [put_self]
      exact .endBody _ hbody
    · exact .inl (hother j _ hij)
  | advance j wall delay after store notes hrunning hadvance =>
    by_cases hij : i = j
    · subst hij
      show ((a.put i _).seats i).course a.now = _
        ∨ Course.Move _ (((a.put i _).seats i).course a.now) ∨ _
      rw [put_self]
      have hcases := Candidate.advance_cases hadvance
      simp only at hcases
      generalize (a.seats i).candidate.reply? a.store a.now = reply at hcases
      cases hcases with
      | send hrequest htransit =>
        -- the elector does not notice that its call is sent off
        refine .inl ?_
        simp [Seat.course, Seat.follow, Chronicle.follow, Chronicle.marksOf]
      | receive hrequest htransit harrived hdeliver =>
        exact .inr (.inl (.hear _ wall delay _ _ hrequest))
      | act hadvance => exact .inr (.inl (.advance _ wall delay _ _ hadvance))
    · exact .inl (hother j _ hij)
  | pass t wall delay hle hcalm hdue =>
    cases hrunning : (a.seats i).running with
    | false => exact .inr (.inr ⟨rfl, rfl⟩)
    | true =>
      refine .inr (.inl (.pass _ t hle ?_ ?_))
      · exact Candidate.urgent_of_advance_none (hcalm i hrunning)
      · exact hdue i hrunning _ List.mem_cons_self

/-! ### Runs that can be computed -/

/-- One thing that happens among candidates, as data. -/
inductive Deed (ι : Type)
  | start (i : ι)
  | cancel (i : ι)
  | endBody (i : ι)
  | route (i : ι) (traffic : Traffic)
  | fault (i : ι) (call : Call) (error : Error)
  | advance (i : ι) (wall : Nat) (delay : Duration)
  | pass (t wall : Nat) (delay : Duration)

/-- Lets one thing happen among candidates, if it can happen now. -/
def act (everyone : List ι) (a : Arena ι) : Deed ι → Option (Arena ι)
  | .start i => some (a.put i { a.seats i with running := true })
  | .cancel i => some (a.put i ((a.seats i).cancel a.now))
  | .endBody i =>
    if (a.seats i).chronicle.isBodyRunning then some (a.put i (a.seats i).endBody) else none
  | .route i traffic => some (a.put i ((a.seats i).relink (·.route traffic)))
  | .fault i call error => some (a.put i ((a.seats i).relink (·.expect ⟨call, .fails error⟩)))
  | .advance i wall delay =>
    if (a.seats i).running then
      ((a.seats i).candidate.advance a.store ⟨a.now, wall⟩ delay).map fun (after, store, notes) =>
        { a.put i ((a.seats i).follow a.now after notes
          ((a.seats i).candidate.reply? a.store a.now)) with store := store }
    else none
  | .pass t wall delay =>
    if a.now ≤ t ∧ ∀ i ∈ everyone, (a.seats i).running = true →
        (a.seats i).candidate.advance a.store ⟨a.now, wall⟩ delay = none
          ∧ ∀ timer ∈ (a.seats i).candidate.timers, ∀ due ∈ timer, t ≤ Clock.ring due then
      some { a with now := t }
    else none

/-- Lets one thing happen after another. -/
def play (everyone : List ι) (a : Arena ι) : List (Deed ι) → Option (Arena ι)
  | [] => some a
  | deed :: rest => (a.act everyone deed).bind (play everyone · rest)

/-- A deed that can be done is a move, when the list names every candidate. -/
theorem move_of_act {everyone : List ι} (hall : ∀ i, i ∈ everyone) {a a' : Arena ι}
    {deed : Deed ι} (h : a.act everyone deed = some a') : Move a a' := by
  cases deed with
  | start i =>
    cases h
    exact .start a i
  | cancel i =>
    cases h
    exact .cancel a i
  | endBody i =>
    simp only [act] at h
    split at h <;> cases h
    rename_i hbody
    exact .endBody a i hbody
  | route i traffic =>
    cases h
    exact .route a i traffic
  | fault i call error =>
    cases h
    exact .fault a i call error
  | advance i wall delay =>
    simp only [act] at h
    split at h
    · rename_i hrunning
      obtain ⟨⟨after, store, notes⟩, hadvance, rfl⟩ := Option.map_eq_some_iff.mp h
      exact .advance a i wall delay after store notes hrunning hadvance
    · cases h
  -- time passes for everybody, so everybody has to be asked
  | pass t wall delay =>
    simp only [act] at h
    split at h <;> cases h
    rename_i hpass
    obtain ⟨hle, hcalm⟩ := hpass
    exact .pass a t wall (fun _ => delay) hle (fun i hrunning => (hcalm i (hall i) hrunning).1)
      (fun i hrunning => (hcalm i (hall i) hrunning).2)

/-- What can be played is a run. -/
theorem Reachable.play {everyone : List ι} (hall : ∀ i, i ∈ everyone) {a a' : Arena ι}
    (h : Reachable config a) {deeds : List (Deed ι)} (hplay : a.play everyone deeds = some a') :
    Reachable config a' := by
  induction deeds generalizing a with
  | nil =>
    cases hplay
    exact h
  | cons deed rest ih =>
    obtain ⟨next, hact, hrest⟩ := Option.bind_eq_some_iff.mp hplay
    exact ih (.move h (move_of_act hall hact)) hrest

end Arena

end Tenure.Leader
