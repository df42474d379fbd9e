import Mathlib.Algebra.BigOperators.Group.Finset.Basic
import Mathlib.Data.Fintype.BigOperators
import Tenure.Proofs.Leader.Deed
import Tenure.Proofs.Leader.Gauge
import Tenure.Proofs.Leader.Shown

/-!
# `Tenure.Proofs.Leader.Balance`: what a process counts adds up

Electors of different identities in one process measure into one registry. Each of
them is on a course of its own, with any store behind it, and the deeds of all come in
any order. Their clocks are not compared, so that they run together is not assumed.

The totals are tied to each other by what is on its way between two of them. A lease
that was granted is on its way to its episode while the elector turns to it
(`Elector.isTaking`). An episode is on its way to its end while the elector says that it
leads. A renewal that has failed is on its way to a lost episode until the end of that
is announced (`Elector.isLosing`). `Accounts` says of a change of one elector that what
is counted on either side makes up for what has come to be on its way or has arrived;
it holds of whatever an elector does, so the sums over all electors balance.

* `Step.accounts` and `Coherent.accounts_answer`: whatever an elector does is accounted
  for.
* `Ensemble.Reachable.balanced`: at every point of a run the totals balance.
* `Ensemble.Reachable.conserved`: what follows for what is exposed, when nobody is in the
  middle of a transition, and when everybody has returned.
-/

set_option autoImplicit false

namespace Tenure.Metrics

/-- The count of a label, nothing if it was never counted. -/
def tally (label : String) (entries : List (String × Nat)) : Nat := (entries.lookup label).getD 0

/-- How many episodes have ended, over all outcomes. -/
def ended (m : Metrics) : Nat := (m.episodes.map Prod.snd).sum

variable {label other : String}

/-- A lookup stops at the first entry of its label. -/
theorem lookup_entry {α : Type} (first : String) (seen : α) (rest : List (String × α)) :
    ((first, seen) :: rest).lookup other
      = if other = first then some seen else rest.lookup other := by
  by_cases h : other = first
  · simp [h]
  · have hne : (other == first) = false := by simpa using h
    simp only [List.lookup_cons, hne, if_neg h]

/-- A value that was set is the one found under its label, and the other labels keep theirs. -/
theorem lookup_set {α : Type} (value : α) (entries : List (String × α)) :
    (set label value entries).lookup other
      = if other = label then some value else entries.lookup other := by
  induction entries with
  | nil => exact lookup_entry label value []
  | cons entry rest ih =>
    obtain ⟨first, seen⟩ := entry
    by_cases hfirst : first = label
    · subst hfirst
      rw [set_cons_self, lookup_entry, lookup_entry]
      split <;> rfl
    · rw [set_cons_other hfirst, lookup_entry, lookup_entry, ih]
      by_cases h : other = first
      · subst h
        rw [if_pos rfl, if_neg hfirst, if_pos rfl]
      · rw [if_neg h, if_neg h]

/-- Counting a label adds one to its first entry. -/
theorem count_cons (first : String) (n : Nat) (rest : List (String × Nat)) :
    count label ((first, n) :: rest)
      = if first = label then (first, n + 1) :: rest else (first, n) :: count label rest := by
  simp [count]

/-- Counting a label adds one to its tally, and nothing to any other. -/
theorem tally_count (entries : List (String × Nat)) :
    tally other (count label entries) = tally other entries + if other = label then 1 else 0 := by
  unfold tally
  induction entries with
  | nil =>
    show (List.lookup other [(label, 1)]).getD 0 = 0 + _
    rw [lookup_entry]
    split <;> rfl
  | cons entry rest ih =>
    obtain ⟨first, n⟩ := entry
    by_cases hfirst : first = label
    · subst hfirst
      rw [count_cons, if_pos rfl, lookup_entry, lookup_entry]
      split <;> rfl
    · rw [count_cons, if_neg hfirst, lookup_entry, lookup_entry]
      -- the first entry is another one: the count goes on behind it, and so does the lookup
      by_cases h : other = first
      · subst h
        rw [if_pos rfl, if_pos rfl, if_neg hfirst]
        rfl
      · rw [if_neg h, if_neg h, ih]

/-- Counting any label adds one to the sum over all labels. -/
theorem sum_count (entries : List (String × Nat)) :
    ((count label entries).map Prod.snd).sum = (entries.map Prod.snd).sum + 1 := by
  induction entries with
  | nil => rfl
  | cons entry rest ih =>
    obtain ⟨first, n⟩ := entry
    rw [count_cons]
    split
    · simp only [List.map_cons, List.sum_cons]
      omega
    · simp only [List.map_cons, List.sum_cons, ih]
      omega

end Tenure.Metrics

namespace Tenure.Leader

open Lease Store

/-! ### What the registry makes of what is said -/

namespace Note

/-- The end of an episode, of whatever outcome. -/
def isEnd : Note → Bool
  | .measured (.episode _) => true
  | _ => false

/-- A total that grows with certain notes counts them. -/
theorem total_foldl {f : Metrics → Nat} {p : Note → Bool}
    (h : ∀ m note, f (measure m note) = f m + (p note).toNat) (notes : List Note) (m : Metrics) :
    f (notes.foldl measure m) = f m + notes.countP p := by
  induction notes generalizing m with
  | nil => rfl
  | cons note rest ih =>
    rw [List.foldl_cons, ih, h, List.countP_cons]
    cases p note with
    | false => rfl
    | true =>
      simp only [Bool.toNat_true, if_true]
      omega

/-- The counter of transitions goes up once for each note of one. -/
theorem transitions_foldl (notes : List Note) (m : Metrics) :
    (notes.foldl measure m).transitions
      = m.transitions + notes.count (.measured .transition) := by
  refine total_foldl (f := Metrics.transitions) (fun m note => ?_) notes m
  cases note with
  | measured measurement => cases measurement <;> rfl
  | _ => rfl

/-- The counter of failed renewals goes up once for each note of one. -/
theorem renewFailures_foldl (notes : List Note) (m : Metrics) :
    (notes.foldl measure m).renewFailures
      = m.renewFailures + notes.count (.measured .renewFailure) := by
  refine total_foldl (f := Metrics.renewFailures) (fun m note => ?_) notes m
  cases note with
  | measured measurement => cases measurement <;> rfl
  | _ => rfl

/-- The ended episodes, over all outcomes, go up once for each note of an end. -/
theorem ended_foldl (notes : List Note) (m : Metrics) :
    (notes.foldl measure m).ended = m.ended + notes.countP isEnd := by
  refine total_foldl (f := Metrics.ended) (fun m note => ?_) notes m
  cases note with
  | measured measurement =>
    cases measurement with
    | episode outcome => exact Metrics.sum_count m.episodes
    | _ => rfl
  | _ => rfl

/-- The counter of an outcome goes up once for each note of an end with it. -/
theorem episodes_foldl (label : String) (notes : List Note) (m : Metrics) :
    Metrics.tally label (notes.foldl measure m).episodes
      = Metrics.tally label m.episodes + notes.count (.measured (.episode label)) := by
  refine total_foldl (f := fun m => Metrics.tally label m.episodes) (fun m note => ?_) notes m
  cases note with
  | measured measurement =>
    cases measurement with
    | episode outcome =>
      refine (Metrics.tally_count m.episodes).trans ?_
      by_cases h : label = outcome
      · simp [h]
      · simp [h, Ne.symm h]
    | _ => rfl
  | _ => rfl

/-- The counter of a result goes up once for each note of an attempt with it. -/
theorem attempts_foldl (label : String) (notes : List Note) (m : Metrics) :
    Metrics.tally label (notes.foldl measure m).attempts
      = Metrics.tally label m.attempts + notes.count (.measured (.acquireAttempt label)) := by
  refine total_foldl (f := fun m => Metrics.tally label m.attempts) (fun m note => ?_) notes m
  cases note with
  | measured measurement =>
    cases measurement with
    | acquireAttempt result =>
      refine (Metrics.tally_count m.attempts).trans ?_
      by_cases h : label = result
      · simp [h]
      · simp [h, Ne.symm h]
    | _ => rfl
  | _ => rfl

end Note

/-! ### What an elector says of a change -/

/-- An error is not counted as a granted attempt. -/
theorem reason_ne_granted (error : Error) : error.reason ≠ "granted" := by
  cases error <;> simp [Error.reason]

namespace Elector

/-- Whether the elector was granted the lease and has not started the episode yet. -/
def isTaking (e : Elector) : Bool :=
  match e.stage with
  | .performing _ (.startEpisode :: _) => true
  | _ => false

/-- Whether a renewal has failed for good and the end of the episode is not announced. -/
def isLosing (e : Elector) : Bool := decide (e.machine.phase = .lost) && e.leading

/-- Whether the elector is in the middle of what a transition asks for. -/
def isPerforming (e : Elector) : Bool :=
  match e.stage with
  | .performing .. => true
  | _ => false

/-- What is said of a change makes up for what the change puts on its way. -/
structure Accounts (e e' : Elector) (notes : List Note) : Prop where
  /-- An episode has started, and goes on or has ended. -/
  started : notes.count (.measured .transition) + e.leading.toNat
    = notes.countP Note.isEnd + e'.leading.toNat
  /-- A lease was granted, and its episode is about to start or has started. -/
  granted : notes.count (.measured (.acquireAttempt "granted")) + e.isTaking.toNat
    = notes.count (.measured .transition) + e'.isTaking.toNat
  /-- A renewal has failed, and its episode is about to end or has ended. -/
  lost : notes.count (.measured .renewFailure) + e.isLosing.toNat
    = notes.count (.measured (.episode "lost")) + e'.isLosing.toNat

variable {e e' : Elector} {now : Moment} {delay : Duration} {reply : Reply} {notes : List Note}

/-- Who was granted the lease leads and runs no episode. -/
theorem Coherent.of_isTaking (h : e.Coherent) (htaking : e.isTaking = true) :
    e.machine.phase = .leading ∧ e.leading = false := by
  unfold isTaking at htaking
  split at htaking
  · rename_i cause rest hstage
    have hp : e.Pending (.startEpisode :: rest) := by simpa [Coherent, hstage] using h
    cases hp with
    | start hphase hidle => exact ⟨hphase, hidle.2⟩
    | close hout hleaving hrest => cases hrest
  · cases htaking

/-- An elector that does not lead, or already says so, is not on the way from a grant to its
episode. -/
theorem Coherent.isTaking_eq_false (h : e.Coherent)
    (hother : e.machine.phase ≠ .leading ∨ e.leading = true) : e.isTaking = false := by
  refine Bool.eq_false_iff.mpr fun htaking => ?_
  obtain ⟨hphase, hleading⟩ := h.of_isTaking htaking
  rcases hother with hne | htrue
  · exact hne hphase
  · rw [hleading] at htrue
    cases htrue

/-- What an elector may say of a change that puts nothing on its way. -/
def IsAside (note : Note) : Prop :=
  (∀ measurement, note ≠ .measured measurement)
    ∨ ∃ result, note = .measured (.acquireAttempt result) ∧ result ≠ "granted"

/-- Saying nothing puts nothing on its way. -/
theorem aside_nil : ∀ note ∈ ([] : List Note), IsAside note := fun note hnote => by cases hnote

/-- The cancellation of a token puts nothing on its way. -/
theorem isAside_cancelled : IsAside .cancelled := .inl (by simp)

/-- Who holds the lock is said aside. -/
theorem aside_of_newLeader {seen : List Note}
    (h : ∀ note ∈ seen, ∃ holder, note = .newLeader holder) : ∀ note ∈ seen, IsAside note := by
  intro note hnote
  obtain ⟨holder, rfl⟩ := h note hnote
  exact .inl (by simp)

/-- What is said aside does not count. -/
theorem Accounts.after {seen : List Note} (h : e.Accounts e' notes)
    (hseen : ∀ note ∈ seen, IsAside note) : e.Accounts e' (seen ++ notes) := by
  have hcount (note : Note) (hnote : ¬ IsAside note) :
      (seen ++ notes).count note = notes.count note := by
    rw [List.count_append, List.count_eq_zero.mpr fun hmem => hnote (hseen note hmem), Nat.zero_add]
  -- the end of an episode is measured, and nothing of the kind is said aside
  have hends : (seen ++ notes).countP Note.isEnd = notes.countP Note.isEnd := by
    have hnone : seen.countP Note.isEnd = 0 := by
      refine List.countP_eq_zero.mpr fun note hmem hend => ?_
      rcases hseen note hmem with hno | ⟨result, rfl, -⟩
      · cases note with
        | measured measurement => exact hno measurement rfl
        | _ => cases hend
      · cases hend
    rw [List.countP_append, hnone, Nat.zero_add]
  refine ⟨?_, ?_, ?_⟩
  · rw [hcount _ (by simp [IsAside]), hends]
    exact h.started
  · rw [hcount _ (by simp [IsAside]), hcount _ (by simp [IsAside])]
    exact h.granted
  · rw [hcount _ (by simp [IsAside]), hcount _ (by simp [IsAside])]
    exact h.lost

/-- Nothing has to be said of a change that puts nothing on its way. -/
theorem accounts_of_same (hleading : e'.leading = e.leading) (htaking : e'.isTaking = e.isTaking)
    (hlosing : e'.isLosing = e.isLosing) (hnotes : ∀ note ∈ notes, IsAside note) :
    e.Accounts e' notes := by
  have hnothing : e.Accounts e' [] := by
    refine ⟨?_, ?_, ?_⟩
    · simp [hleading]
    · simp [htaking]
    · simp [hlosing]
  simpa using hnothing.after hnotes

/-- What a failed renewal has ended is counted as lost, and nothing else is. -/
theorem endOf_name_eq_lost {cause : Event} :
    (endOf cause).name = "lost" ↔ cause = .renewFailed := by
  cases cause <;> simp [endOf, EpisodeEnd.name]

/-- Whatever an elector does by itself is accounted for. -/
theorem Step.accounts (h : Step now delay e e' notes) (hc : e.Coherent) (hfits : e.CauseFits) :
    e.Accounts e' notes := by
  cases h with
  | withdraw backoff hphase hshutdown hidle =>
    have htaking : e.isTaking = false := hc.isTaking_eq_false (.inl (by simp [hphase]))
    exact accounts_of_same rfl htaking.symm (by simp [isLosing, hphase]) aside_nil
  | compete hstage hphase hidle =>
    have htaking : e.isTaking = false := hc.isTaking_eq_false (.inl (by simp [hphase]))
    exact accounts_of_same rfl htaking.symm rfl aside_nil
  | giveUp hstage hphase hidle =>
    refine accounts_of_same rfl (by simp [isTaking, hstage]) rfl fun note hnote => ?_
    exact .inr ⟨"timeout", List.mem_singleton.mp hnote, by decide⟩
  | renew hstage hrung hphase hoffice =>
    have htaking : e.isTaking = false := hc.isTaking_eq_false (.inr hoffice.2)
    exact accounts_of_same rfl htaking.symm rfl aside_nil
  | lose hstage hrung hphase hoffice =>
    have htaking : e.isTaking = false := hc.isTaking_eq_false (.inr hoffice.2)
    refine ⟨by simp [Note.isEnd], ?_, ?_⟩
    · rw [htaking]
      rfl
    · simp [isLosing, hphase, hoffice.2]
  | relinquish event hevent hphase hoffice =>
    have htaking : e.isTaking = false := hc.isTaking_eq_false (.inr hoffice.2)
    refine accounts_of_same rfl ?_ (by simp [isLosing, hphase]) aside_nil
    rw [htaking]
    rfl
  | resume hstage hout hidle =>
    refine accounts_of_same rfl (by simp [isTaking, hstage]) ?_ aside_nil
    simp [isLosing, hidle.2]
  | start hstage hphase hidle =>
    refine ⟨?_, ?_, ?_⟩
    · simp [startEpisode, hidle.2, Note.isEnd]
    · simp [startEpisode, isTaking, hstage]
    · simp [startEpisode, isLosing, hphase]
  | revoke hstage hepisode hended hout hleading hrest =>
    refine accounts_of_same rfl (by simp [isTaking, hstage]) rfl fun note hnote => ?_
    split at hnote
    · cases hnote
    · rw [List.mem_singleton.mp hnote]
      exact isAside_cancelled
  | dismiss hstage hepisode hended hout hleading hrest =>
    have htaking : e.isTaking = false := hc.isTaking_eq_false (.inr hleading)
    refine accounts_of_same rfl ?_ rfl aside_nil
    rw [htaking]
    cases hrest <;> rfl
  | announce hstage hout hleaving =>
    -- the episode is counted as lost exactly when the phase says so
    simp only [CauseFits, hstage] at hfits
    have hcount := endOf_name_eq_lost.trans hfits.1.symm
    refine ⟨?_, ?_, ?_⟩
    · simp [notifyStopped, hleaving.2, List.countP_cons, Note.isEnd]
    · simp [notifyStopped, isTaking, hstage]
    · by_cases hlost : e.machine.phase = .lost
      · simp [notifyStopped, isLosing, hlost, hleaving.2, hcount.mpr hlost]
      · simp [notifyStopped, isLosing, hlost, mt hcount.mp hlost]
  | backOff hstage _ _ | rest hstage _ _ | finish hstage _ _ _ | settle hstage _
  | exit hstage _ _ _ | release hstage _ _ | abandon hstage _ _ =>
    exact accounts_of_same rfl (by simp [isTaking, hstage]) rfl aside_nil

/-- The end of an attempt to take the lease is accounted for. -/
theorem accounts_acquired {started : Nat} {attempt : Attempt}
    (hstage : e.stage = .competing started attempt) (hphase : e.machine.phase = .candidate)
    (client : Client) (result : Except Error Outcome) :
    e.Accounts ({ e with client := client }.acquired started result now delay).1
      ({ e with client := client }.acquired started result now delay).2 := by
  cases result with
  | error error =>
    refine accounts_of_same rfl (by simp [acquired, isTaking, hstage]) rfl fun note hnote => ?_
    exact .inr ⟨error.reason, List.mem_singleton.mp hnote, reason_ne_granted error⟩
  | ok outcome =>
    obtain ⟨holder, notes, hobserve, hnotes⟩ := exists_observe { e with client := client } outcome
    have haside := aside_of_newLeader hnotes
    simp only [acquired, hobserve]
    split
    · rw [handle_eq (by simp only [hphase]; rfl)]
      refine Accounts.after ?_ haside
      exact ⟨by simp [Note.isEnd], by simp [isTaking, hstage], by simp [isLosing, hphase]⟩
    · refine Accounts.after (accounts_of_same rfl (by simp [isTaking, hstage]) rfl ?_) haside
      exact fun note hnote => .inr ⟨"held", List.mem_singleton.mp hnote, by decide⟩

/-- The end of an attempt to renew the lease is accounted for. -/
theorem accounts_renewed {deadline started : Nat} {attempt : Attempt}
    (hstage : e.stage = .renewing deadline started attempt) (hphase : e.machine.phase = .leading)
    (hoffice : e.InOffice) (client : Client) (result : Except Error Outcome) :
    e.Accounts ({ e with client := client }.renewed deadline started result now).1
      ({ e with client := client }.renewed deadline started result now).2 := by
  cases result with
  | error error =>
    exact accounts_of_same rfl (by simp [renewed, isTaking, hstage]) rfl aside_nil
  | ok outcome =>
    obtain ⟨holder, notes, hobserve, hnotes⟩ := exists_observe { e with client := client } outcome
    have haside := aside_of_newLeader hnotes
    simp only [renewed, hobserve]
    split
    · rw [handle_eq (by simp only [hphase]; rfl)]
      exact accounts_of_same rfl (by simp [isTaking, hstage]) (by simp [isLosing, hphase]) haside
    · simp only [loseLease]
      rw [handle_eq (by simp only [hphase]; rfl)]
      refine Accounts.after ⟨?_, ?_, ?_⟩ haside
      · simp [Note.isEnd]
      · simp [isTaking, hstage]
      · simp [isLosing, hphase, hoffice.2]

/-- Whatever an elector does with a reply is accounted for. -/
theorem Coherent.accounts_answer (h : e.Coherent) {request : Request}
    (hrequest : e.request? = some request) (now : Moment) (delay : Duration) (reply : Reply) :
    e.Accounts (e.answer now delay reply).1 (e.answer now delay reply).2 := by
  cases hstage : e.stage with
  -- a call that leads to another one accounts for nothing, and the last one is either won or not
  | competing started attempt =>
    have hc : e.machine.phase = .candidate ∧ e.IsIdle := by simpa [Coherent, hstage] using h
    simp only [answer, hstage]
    split
    · exact accounts_of_same rfl (by simp [isTaking, hstage]) rfl aside_nil
    · simpa only [hstage] using accounts_acquired hstage hc.1 _ _
  | renewing deadline started attempt =>
    have hc : e.machine.phase = .leading ∧ e.InOffice := by simpa [Coherent, hstage] using h
    simp only [answer, hstage]
    split
    · exact accounts_of_same rfl (by simp [isTaking, hstage]) rfl aside_nil
    · simpa only [hstage] using accounts_renewed hstage hc.1 hc.2 _ _
  | releasing cause rest limit surrender =>
    obtain ⟨hout, rfl, hleaving⟩ : e.IsOut ∧ rest = [.notifyStopped] ∧ e.IsLeaving := by
      simpa [Coherent, hstage] using h
    simp only [answer, hstage]
    split
    · exact accounts_of_same rfl (by simp [isTaking, hstage]) rfl aside_nil
    · exact accounts_of_same rfl (by simp [isTaking, hstage]) rfl aside_nil
  | ready | performing _ _ | backingOff _ | retrying _ | resting _ _ | pausing _ _
  | stopping _ _ | aborting _ | finished _ =>
    -- at the other stages nothing is out, so no reply is waited for
    simp [request?, hstage] at hrequest

/-- A reply leaves the elector its identity. -/
theorem Taken.identity_eq (h : Taken now delay reply e e' notes) :
    e'.client.identity = e.client.identity := by
  cases h with
  | @ask started attempt next client hstage hreply
  | @win started attempt client _ _ _ hstage hreply
  | @miss started attempt client _ _ _ hstage hreply
  | @askAgain _ started attempt _ client hstage hreply
  | @keep _ started attempt client _ _ _ hstage hreply
  | @lose _ started attempt client _ _ _ hstage hreply
  | @fail _ started attempt client _ hstage hreply =>
    have hanswered := e.client.answered attempt now.instant reply
    rw [hreply] at hanswered
    exact hanswered.isSame.identity_eq
  | @vacate cause limit surrender _ client hstage hreply
  | @leave cause limit surrender client _ hstage hreply =>
    have hanswered := e.client.answeredRelease surrender now reply
    rw [hreply] at hanswered
    exact hanswered.isSame.identity_eq

/-- Only an elector that has started an episode has had its flag up. -/
theorem Shows.flag (h : Shows e e' notes) (hbefore : e.leading = true → e.episodes ≠ 0) :
    (e'.leading = true → e'.episodes ≠ 0)
      ∧ (e'.leading = e.leading ∧ e'.episodes = e.episodes
        ∨ e'.leading ≠ e.leading ∧ e'.episodes ≠ 0) := by
  cases h with
  | start hidle hphase hstarted hleading hepisodes =>
    have hne : e'.episodes ≠ 0 := by
      rw [hepisodes]
      exact Nat.succ_ne_zero _
    exact ⟨fun _ => hne, .inr ⟨by simp [hleading, hidle.2], hne⟩⟩
  -- the flag may have been up or not, as a loss is announced to the gauge before
  | announce cause hout hepisode hleading hepisodes =>
    refine ⟨fun htrue => by simp [hleading] at htrue, ?_⟩
    cases hflag : e.leading with
    | false => exact .inl ⟨hleading, hepisodes⟩
    | true =>
      refine .inr ⟨by simp [hleading], ?_⟩
      rw [hepisodes]
      exact hbefore hflag
  | revoke hepisode hended hrevoked hleading hepisodes
  | dismiss hepisode hended hdismissed hleading hepisodes
  | nothing hquiet hepisode hleading hepisodes =>
    rw [hleading, hepisodes]
    exact ⟨hbefore, .inl ⟨rfl, rfl⟩⟩

/-- What happens from outside is accounted for. -/
theorem accounts_outside {shutdown : Bool} {f : Episode → Episode}
    (hnotes : ∀ note ∈ notes, IsAside note) : e.Accounts (e.outside shutdown f) notes :=
  accounts_of_same rfl rfl rfl hnotes

end Elector

namespace Course

variable {c c' : Course} {deed : Deed} {notes : List Note}

/-- Whatever happens to an elector is accounted for. -/
theorem Does.accounts (h : Does c deed c' notes) (hc : c.elector.Coherent)
    (hfits : c.elector.CauseFits) : c.elector.Accounts c'.elector notes := by
  cases h with
  | cancel =>
    show c.elector.Accounts c.elector.cancel.1 _
    rw [Elector.cancel_eq]
    refine Elector.accounts_outside fun note hnote => ?_
    rw [Elector.eq_cancelled_of_mem_cancel hnote]
    exact Elector.isAside_cancelled
  | endBody hbody => exact Elector.accounts_outside Elector.aside_nil
  | advance hadvance => exact (hc.step hadvance).accounts hc hfits
  | hear hrequest => exact hc.accounts_answer hrequest _ _ _
  | pass hle hcalm hdue =>
    exact Elector.accounts_of_same rfl rfl rfl Elector.aside_nil

/-- Whatever happens to an elector shows in its gauge. -/
theorem Does.gaugeFollows (h : Does c deed c' notes) (hc : c.elector.Coherent) :
    c.elector.GaugeFollows c'.elector notes := by
  have hsilent : ∀ note ∈ ([] : List Note), ∀ m : Metrics, (note.measure m).leaders = m.leaders :=
    fun note hnote => by cases hnote
  cases h with
  | cancel =>
    refine Elector.gaugeFollows_of_same ?_ fun note hnote m => ?_
    · show c.elector.cancel.1.leading = _
      rw [Elector.cancel_eq]
      rfl
    · rw [Elector.eq_cancelled_of_mem_cancel hnote]
      rfl
  | endBody hbody => exact Elector.gaugeFollows_of_same rfl hsilent
  | advance hadvance => exact (hc.step hadvance).gaugeFollows
  | hear hrequest => exact hc.gaugeFollows_answer hrequest _ _ _
  | pass hle hcalm hdue => exact Elector.gaugeFollows_of_same rfl hsilent

/-- No deed changes the identity of an elector. -/
theorem Does.identity_eq (h : Does c deed c' notes) (hc : c.elector.Coherent) :
    c'.elector.client.identity = c.elector.client.identity := by
  cases h with
  | cancel =>
    show c.elector.cancel.1.client.identity = _
    rw [Elector.cancel_eq]
    rfl
  | endBody hbody => rfl
  | advance hadvance => exact congrArg Client.identity (hc.step hadvance).client_eq
  | hear hrequest => exact (hc.taken hrequest).identity_eq
  | pass hle hcalm hdue => rfl

/-- A flag that changes is that of an elector that has started an episode, and the
episodes are counted when the flag goes up. -/
theorem Does.flag (h : Does c deed c' notes) (hc : c.elector.Coherent)
    (hbefore : c.elector.leading = true → c.elector.episodes ≠ 0) :
    (c'.elector.leading = true → c'.elector.episodes ≠ 0)
      ∧ (c'.elector.leading = c.elector.leading ∧ c'.elector.episodes = c.elector.episodes
        ∨ c'.elector.leading ≠ c.elector.leading ∧ c'.elector.episodes ≠ 0) := by
  cases h with
  | cancel =>
    show (c.elector.cancel.1.leading = true → _) ∧ _
    rw [Elector.cancel_eq]
    exact ⟨hbefore, .inl ⟨rfl, rfl⟩⟩
  | endBody hbody => exact ⟨hbefore, .inl ⟨rfl, rfl⟩⟩
  | advance hadvance => exact (hc.goes hadvance).shows.flag hbefore
  | hear hrequest => exact (hc.goes_answer hrequest _ _ _).shows.flag hbefore
  | pass hle hcalm hdue => exact ⟨hbefore, .inl ⟨rfl, rfl⟩⟩

/-- An elector at the start of its course. -/
def IsFresh (c : Course) : Prop :=
  ∃ client timing release born now shutdown, born ≤ now
    ∧ c = start client timing release born now shutdown

/-- An elector at the start of its course is reachable. -/
theorem IsFresh.reachable (h : c.IsFresh) : Reachable c := by
  obtain ⟨client, timing, release, born, now, shutdown, hborn, rfl⟩ := h
  exact .start client timing release born now shutdown hborn

end Course

/-- Electors in one process, each on a course of its own, and what they have measured. -/
structure Ensemble (ι : Type) where
  courses : ι → Course
  metrics : Metrics

namespace Ensemble

variable {ι : Type} [DecidableEq ι] {p p' : Ensemble ι} {i : ι} {deed : Course.Deed}

/-- Lets one thing happen to one elector, if it can happen now. -/
def act (p : Ensemble ι) (i : ι) (deed : Course.Deed) : Option (Ensemble ι) :=
  ((p.courses i).act deed).map fun next =>
    ⟨Function.update p.courses i next, ((p.courses i).noted deed).foldl Note.measure p.metrics⟩

/-- Lets one thing happen after another. -/
def play (p : Ensemble ι) : List (ι × Course.Deed) → Option (Ensemble ι)
  | [] => some p
  | (i, deed) :: rest => (p.act i deed).bind (play · rest)

/-- The points that a run comes to. -/
inductive Reachable : Ensemble ι → Prop
  | start (courses : ι → Course) (hfresh : ∀ i, (courses i).IsFresh)
      (hdistinct : Function.Injective fun i => (courses i).elector.client.identity) :
      Reachable ⟨courses, .empty⟩
  | act {p p' : Ensemble ι} (h : Reachable p) (i : ι) (deed : Course.Deed)
      (hact : p.act i deed = some p') : Reachable p'

/-- Deeds one after the other lead from reachable points to reachable points. -/
theorem Reachable.play {deeds : List (ι × Course.Deed)} (h : Reachable p)
    (hplay : p.play deeds = some p') : Reachable p' := by
  induction deeds generalizing p with
  | nil =>
    cases hplay
    exact h
  | cons deed rest ih =>
    obtain ⟨next, hact, hrest⟩ := Option.bind_eq_some_iff.mp hplay
    exact ih (.act h _ _ hact) hrest

/-- How many electors pass a test. -/
def number [Fintype ι] (p : Ensemble ι) (test : Elector → Bool) : Nat :=
  (Finset.univ.filter fun i => test (p.courses i).elector = true).card

/-- The gauge of an elector shows its flag as soon as it has started an episode. -/
def Shows (p : Ensemble ι) (i : ι) : Prop :=
  p.metrics.leaders.lookup (p.courses i).elector.client.identity
    = if (p.courses i).elector.episodes = 0 then none else some (p.courses i).elector.leading

/-- One elector does something and says something about it, and the others do nothing. -/
structure Acts (p : Ensemble ι) (i : ι) (deed : Course.Deed) (p' : Ensemble ι)
    (notes : List Note) : Prop where
  does : (p.courses i).Does deed (p'.courses i) notes
  other : ∀ j, j ≠ i → p'.courses j = p.courses j
  metrics : p'.metrics = notes.foldl Note.measure p.metrics

/-- A deed of one elector leaves the others where they are. -/
theorem acts_of_act (h : p.act i deed = some p') :
    p.Acts i deed p' ((p.courses i).noted deed) := by
  obtain ⟨next, hact, rfl⟩ := Option.map_eq_some_iff.mp h
  refine ⟨?_, fun j hj => Function.update_of_ne hj _ _, rfl⟩
  show (p.courses i).Does deed (Function.update p.courses i next i) _
  rw [Function.update_self]
  exact Course.does_of_act hact

/-- What holds of an elector holds on if it does after a deed of that elector. -/
theorem Acts.forall {notes : List Note} (h : p.Acts i deed p' notes) {q : Course → Prop}
    (hq : ∀ j, q (p.courses j)) (hnext : q (p'.courses i)) (j : ι) : q (p'.courses j) := by
  by_cases hj : j = i
  · subst hj
    exact hnext
  · rw [h.other j hj]
    exact hq j

/-! ### The gauges -/

/-- What is known of each elector, whatever the others do. -/
structure Sound (p : Ensemble ι) : Prop where
  reachable : ∀ i, (p.courses i).Reachable
  distinct : Function.Injective fun i => (p.courses i).elector.client.identity
  flagged : ∀ i, (p.courses i).elector.leading = true → (p.courses i).elector.episodes ≠ 0
  shows : ∀ i, p.Shows i

/-- No elector changes its identity, whichever of them acts. -/
theorem Acts.identity_eq {notes : List Note} (h : p.Acts i deed p' notes) (hp : p.Sound) (j : ι) :
    (p'.courses j).elector.client.identity = (p.courses j).elector.client.identity := by
  by_cases hj : j = i
  · subst hj
    exact h.does.identity_eq (hp.reachable j).coherent
  · rw [h.other j hj]

/-- The gauge of each elector goes on to show its flag: it is the only one who sets it. -/
theorem Acts.shows {notes : List Note} (h : p.Acts i deed p' notes) (hp : p.Sound) (j : ι) :
    p'.Shows j := by
  have hcoherent := (hp.reachable i).coherent
  have hgauge := h.does.gaugeFollows hcoherent p.metrics
  rw [← h.metrics] at hgauge
  obtain ⟨-, hflag⟩ := h.does.flag hcoherent (hp.flagged i)
  have hshown := hp.shows j
  unfold Shows at hshown ⊢
  rw [h.identity_eq hp j, hgauge]
  by_cases hj : j = i
  · subst hj
    rcases hflag with ⟨hleading, hepisodes⟩ | ⟨hleading, hepisodes⟩
    · rw [if_pos hleading, hleading, hepisodes]
      exact hshown
    · rw [if_neg hleading, if_neg hepisodes, Metrics.lookup_set, if_pos rfl]
  · rw [h.other j hj]
    split
    · exact hshown
    · -- the gauge that moved is that of another identity
      have hne : (p.courses j).elector.client.identity ≠ (p.courses i).elector.client.identity :=
        fun heq => hj (hp.distinct heq)
      rw [Metrics.lookup_set, if_neg hne]
      exact hshown

/-- What is known of each elector stays true whichever of them acts. -/
theorem Sound.act {notes : List Note} (hp : p.Sound) (h : p.Acts i deed p' notes) :
    p'.Sound := by
  refine ⟨?_, fun j k hjk => ?_, ?_, h.shows hp⟩
  · exact h.forall hp.reachable (.move (hp.reachable i) h.does.move)
  · simp only [h.identity_eq hp] at hjk
    exact hp.distinct hjk
  · exact h.forall (q := fun c => c.elector.leading = true → c.elector.episodes ≠ 0) hp.flagged
      (h.does.flag (hp.reachable i).coherent (hp.flagged i)).1

/-- At every point of a run each elector is as it would be alone. -/
theorem Reachable.sound (h : Reachable p) : p.Sound := by
  induction h with
  | start courses hfresh hdistinct =>
    refine ⟨fun i => (hfresh i).reachable, hdistinct, fun i hleading => ?_, fun i => ?_⟩
    · obtain ⟨client, timing, release, born, now, shutdown, -, heq⟩ := hfresh i
      simp [heq, Course.start, Elector.new] at hleading
    · obtain ⟨client, timing, release, born, now, shutdown, -, heq⟩ := hfresh i
      simp [Shows, heq, Course.start, Elector.new, Metrics.empty]
  | act hreach i deed hact ih => exact ih.act (acts_of_act hact)

/-! ### The totals -/

section Totals

variable [Fintype ι]

omit [DecidableEq ι] in
/-- The number of electors that pass a test is a sum over them, so that one elector's part can be
split off. -/
theorem number_eq_sum (p : Ensemble ι) (test : Elector → Bool) :
    p.number test = ∑ i, (test (p.courses i).elector).toNat := by
  unfold number
  rw [Finset.card_filter]
  refine Finset.sum_congr rfl fun i _ => ?_
  cases test (p.courses i).elector <;> rfl

/-- A number changes by the one elector that does something. -/
theorem Acts.number_add {notes : List Note} (h : p.Acts i deed p' notes) (test : Elector → Bool) :
    p'.number test + (test (p.courses i).elector).toNat
      = p.number test + (test (p'.courses i).elector).toNat := by
  have hrest : ∑ j ∈ Finset.univ.erase i, (test (p'.courses j).elector).toNat
      = ∑ j ∈ Finset.univ.erase i, (test (p.courses j).elector).toNat := by
    refine Finset.sum_congr rfl fun j hj => ?_
    rw [h.other j (Finset.ne_of_mem_erase hj)]
  rw [number_eq_sum, number_eq_sum, ← Finset.add_sum_erase _ _ (Finset.mem_univ i),
    ← Finset.add_sum_erase _ _ (Finset.mem_univ i), hrest]
  omega

omit [DecidableEq ι] in
/-- When no elector passes a test, their number is zero. -/
theorem number_eq_zero {test : Elector → Bool}
    (h : ∀ i, test (p.courses i).elector = false) : p.number test = 0 := by
  rw [number_eq_sum]
  exact Finset.sum_eq_zero fun i _ => by rw [h i]; rfl

/-- Each total is made up by the next one and by what is on its way between the two. -/
structure Balanced (p : Ensemble ι) : Prop where
  started : p.metrics.transitions = p.metrics.ended + p.number Elector.leading
  granted : Metrics.tally "granted" p.metrics.attempts
    = p.metrics.transitions + p.number Elector.isTaking
  lost : p.metrics.renewFailures
    = Metrics.tally "lost" p.metrics.episodes + p.number Elector.isLosing

/-- A deed of an elector that is accounted for keeps the balance. -/
theorem Balanced.act {notes : List Note} (hp : p.Balanced) (h : p.Acts i deed p' notes)
    (haccounts : (p.courses i).elector.Accounts (p'.courses i).elector notes) : p'.Balanced := by
  have hleading := h.number_add Elector.leading
  have htaking := h.number_add Elector.isTaking
  have hlosing := h.number_add Elector.isLosing
  obtain ⟨hstarted, hgranted, hlost⟩ := haccounts
  obtain ⟨hpstarted, hpgranted, hplost⟩ := hp
  refine ⟨?_, ?_, ?_⟩
  · rw [h.metrics, Note.transitions_foldl, Note.ended_foldl]
    omega
  · rw [h.metrics, Note.transitions_foldl, Note.attempts_foldl]
    omega
  · rw [h.metrics, Note.renewFailures_foldl, Note.episodes_foldl]
    omega

/-- The totals balance at every point of a run. -/
theorem Reachable.balanced (h : Reachable p) : p.Balanced := by
  induction h with
  | start courses hfresh hdistinct =>
    -- at the start nobody leads, and nothing is on its way
    have hnone (test : Elector → Bool)
        (htest : ∀ client timing release born shutdown,
          test { Elector.new client timing release born with shutdown := shutdown } = false) :
        number ⟨courses, .empty⟩ test = 0 := by
      refine number_eq_zero fun i => ?_
      obtain ⟨client, timing, release, born, now, shutdown, -, heq⟩ := hfresh i
      show test (courses i).elector = false
      rw [heq]
      exact htest client timing release born shutdown
    refine ⟨?_, ?_, ?_⟩
    · rw [hnone Elector.leading fun _ _ _ _ _ => rfl]
      rfl
    · rw [hnone Elector.isTaking fun _ _ _ _ _ => rfl]
      rfl
    · rw [hnone Elector.isLosing fun _ _ _ _ _ => rfl]
      rfl
  | act hreach i deed hact ih =>
    have hacts := acts_of_act hact
    have hcourse := hreach.sound.reachable i
    exact ih.act hacts (hacts.does.accounts hcourse.coherent hcourse.causeFits)

/-- At every point of a run the episodes that were started are those that have ended and
those of electors that say that they lead, the renewals that have failed are the
episodes that were lost and those of electors that lose theirs, and each gauge shows its
flag as soon as it was set. When nobody is in the middle of a transition, as many
attempts were granted as episodes were started. When everybody has returned, nothing is
on its way and no gauge shows a leader. -/
theorem Reachable.conserved (h : Reachable p) :
    p.metrics.transitions = p.metrics.ended + p.number Elector.leading
      ∧ p.metrics.renewFailures
        = Metrics.tally "lost" p.metrics.episodes + p.number Elector.isLosing
      ∧ (∀ i, p.Shows i)
      ∧ ((∀ i, (p.courses i).elector.isPerforming = false) →
        Metrics.tally "granted" p.metrics.attempts = p.metrics.transitions)
      ∧ ((∀ i, (p.courses i).elector.isDone = true) →
        p.metrics.transitions = p.metrics.ended
          ∧ p.metrics.renewFailures = Metrics.tally "lost" p.metrics.episodes
          ∧ ∀ i shown, p.metrics.leaders.lookup (p.courses i).elector.client.identity = some shown →
            shown = false) := by
  obtain ⟨hstarted, hgranted, hlost⟩ := h.balanced
  refine ⟨hstarted, hlost, h.sound.shows, fun hcalm => ?_, fun hdone => ?_⟩
  · -- a grant is on its way only while effects are performed
    have hnone : p.number Elector.isTaking = 0 := by
      refine number_eq_zero fun i => ?_
      have hi := hcalm i
      unfold Elector.isPerforming at hi
      unfold Elector.isTaking
      split at hi
      · cases hi
      · split
        · rename_i hother _ cause rest hstage
          exact absurd hstage (hother _ _)
        · rfl
    rw [hgranted, hnone, Nat.add_zero]
  · -- an elector that has returned has lowered its flag before
    have hidle (i : ι) : (p.courses i).elector.leading = false := by
      have hi := hdone i
      unfold Elector.isDone at hi
      split at hi
      · rename_i error hstage
        have hc := (h.sound.reachable i).coherent
        simp only [Elector.Coherent, hstage] at hc
        exact hc.2.2.1.2
      · cases hi
    rw [number_eq_zero hidle, Nat.add_zero] at hstarted
    rw [number_eq_zero (fun i => by simp [Elector.isLosing, hidle i]), Nat.add_zero] at hlost
    refine ⟨hstarted, hlost, fun i shown hshown => ?_⟩
    have hshows : p.Shows i := h.sound.shows i
    unfold Shows at hshows
    rw [hshown, hidle i] at hshows
    split at hshows
    · cases hshows
    · exact Option.some.inj hshows

end Totals

/-- Two electors that were just made, for one lock. -/
def pair : Ensemble Bool where
  courses i := .start (.new ⟨"test", "lock"⟩ (if i then "a" else "b") Course.brisk.lease)
    Course.brisk false 0 0 false
  metrics := .empty

/-- A renewal finds that someone else was faster, and the elector waits for the body. -/
def losing : List Course.Deed :=
  [.pass 5000000000, .advance 0 ⟨0⟩, .hear 0 ⟨0⟩ (.found none),
    .hear 0 ⟨0⟩ (.failed (.conflict ⟨"test", "lock"⟩)), .advance 0 ⟨0⟩]

/-- Both electors win in turn, as their stores have it, and one of them loses the lease. -/
def divided : List (Bool × Course.Deed) :=
  Course.quickWin.map (true, ·) ++ (Course.quickWin ++ losing).map (false, ·)

/-- Both electors are told to shut down, the bodies of their episodes end, and they
return. -/
def closing : List (Bool × Course.Deed) :=
  (.cancel :: Course.alone 2 ++ .endBody :: Course.alone 9).map (true, ·)
    ++ (.endBody :: Course.alone 5 ++ .cancel :: Course.alone 4).map (false, ·)

/-- While one elector leads and the other one waits for the body of an episode that it
has lost, both episodes and the renewal are on their way; when both have returned, they
have arrived. -/
theorem conserved_divided : ∃ p q, pair.play divided = some p ∧ p.play closing = some q
    ∧ Reachable p ∧ Reachable q
    ∧ p.number Elector.leading = 2 ∧ p.number Elector.isLosing = 1
    ∧ (∀ i, (p.courses i).elector.isPerforming = false)
    ∧ Metrics.tally "granted" p.metrics.attempts = p.metrics.transitions
    ∧ (∀ i, (q.courses i).elector.isDone = true)
    ∧ q.metrics.transitions = q.metrics.ended
    ∧ q.metrics.renewFailures = Metrics.tally "lost" q.metrics.episodes := by
  have hall : ∀ i, i ∈ [true, false] := by decide
  have hdistinct : Function.Injective fun i => (pair.courses i).elector.client.identity := by
    intro i j h
    revert i j
    decide
  have hpair : Reachable pair :=
    .start _ (fun i => ⟨_, _, _, 0, 0, _, Nat.le_refl 0, rfl⟩) hdistinct
  -- the run is computed, and the totals follow from the theorem
  have hrun : (pair.play divided).any (fun p =>
      p.metrics == ⟨[("a", true), ("b", true)], 2, [], [("granted", 2)], 1⟩
        && ([true, false].all fun i => !(p.courses i).elector.isPerforming)
        && (p.play closing).any fun q =>
          [true, false].all fun i => (q.courses i).elector.isDone) = true := by
    decide +kernel
  obtain ⟨p, hp, htest⟩ := (Option.any_eq_true _ _).mp hrun
  obtain ⟨htest, hrest⟩ := (Bool.and_eq_true _ _).mp htest
  obtain ⟨hmetrics, hcalm⟩ := (Bool.and_eq_true _ _).mp htest
  obtain ⟨q, hq, hdone⟩ := (Option.any_eq_true _ _).mp hrest
  have hmetrics := eq_of_beq hmetrics
  have hcalm : ∀ i, (p.courses i).elector.isPerforming = false := fun i => by
    simpa using List.all_eq_true.mp hcalm i (hall i)
  have hdone : ∀ i, (q.courses i).elector.isDone = true := fun i =>
    List.all_eq_true.mp hdone i (hall i)
  have hreach : Reachable p := hpair.play hp
  have hend : Reachable q := hreach.play hq
  obtain ⟨hstarted, hlost, -, hgranted, -⟩ := hreach.conserved
  obtain ⟨hbalance, hfailed, -⟩ := hend.conserved.2.2.2.2 hdone
  refine ⟨p, q, hp, hq, hreach, hend, ?_, ?_, hcalm, hgranted hcalm, hdone, hbalance, hfailed⟩
  · rw [hmetrics] at hstarted
    simpa [Metrics.ended] using hstarted.symm
  · rw [hmetrics] at hlost
    simpa [Metrics.tally] using hlost.symm

end Ensemble

end Tenure.Leader
