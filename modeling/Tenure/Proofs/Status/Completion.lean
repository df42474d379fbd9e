import Tenure.Status.Completion

/-!
# `Tenure.Proofs.Status.Completion`: a signal says what its notifier has done

A look takes out of the channel whatever the notifier has left there, and a wait on an emptied
channel breaks down. What a signal answers after that rests on what it remembers. `Faithful`
ties a signal and its notifier to the one thing that counts, whether the signal has resolved.

* `Faithful.act`, `Faithful.after`: a deed of the notifier resolves the signal, a look does
  not, and neither makes it forget.
* `answers_iff_settled`: after any deeds, a look and a wait both say whether the signal was
  resolved from the start or its notifier has completed or gone away.
-/

set_option autoImplicit false

namespace Tenure.Status

/-- What is done with a signal and its notifier before the signal is waited for. -/
inductive Deed
  | look
  | complete
  | abandon
deriving Repr, DecidableEq

/-- Whether a deed is the last one of a notifier. -/
def Deed.settles : Deed → Bool
  | look => false
  | complete | abandon => true

namespace CompletionPair

/-- What a deed leaves behind. A notifier that is gone does nothing. -/
def act (p : CompletionPair) : Deed → CompletionPair
  | .look => (p.isComplete.map Prod.fst).getD p
  | .complete => (p.notify .complete).getD p
  | .abandon => (p.notify .abandon).getD p

/-- What deeds leave behind, one after another. -/
def after (p : CompletionPair) (deeds : List Deed) : CompletionPair := deeds.foldl act p

/-- A signal that is resolved from the start and has no notifier, or a fresh one with its
notifier. -/
def created (resolved : Bool) : CompletionPair := if resolved then empty.replace else opened

/-- The signal was resolved from the start, or its notifier has completed or gone away. -/
def IsSettled (resolved : Bool) (deeds : List Deed) : Prop :=
  resolved = true ∨ .complete ∈ deeds ∨ .abandon ∈ deeds

/-- A signal and its notifier, by whether the signal has resolved. -/
inductive Faithful : Bool → CompletionPair → Prop
  /-- The notifier has done nothing yet, and nothing was taken out of the channel. -/
  | pending : Faithful false ⟨some ⟨.pending, false⟩, .own⟩
  /-- The notifier is gone, and nobody has looked since. -/
  | told {channel : Channel} (hleft : channel = .sent ∨ channel = .closed) :
      Faithful true ⟨some ⟨channel, false⟩, .gone⟩
  /-- A look has emptied the channel, and the signal remembers it. -/
  | seen : Faithful true ⟨some ⟨.spent, true⟩, .gone⟩

variable {resolved : Bool} {p : CompletionPair}

/-- A signal that was just created is resolved as it was created. -/
theorem faithful_created (resolved : Bool) : Faithful resolved (created resolved) := by
  cases resolved with
  | false => exact .pending
  | true => exact .told (.inl rfl)

/-- A deed of the notifier resolves the signal, and nothing takes that back. -/
theorem Faithful.act (h : Faithful resolved p) (deed : Deed) :
    Faithful (resolved || deed.settles) (p.act deed) := by
  cases h with
  | pending =>
    cases deed with
    | look => exact .pending
    | complete => exact .told (.inl rfl)
    | abandon => exact .told (.inr rfl)
  | told hleft =>
    cases deed with
    | look =>
      -- whatever was left, the look takes it out
      rcases hleft with rfl | rfl
      · exact .seen
      · exact .seen
    | complete => exact .told hleft
    | abandon => exact .told hleft
  | seen =>
    -- the channel is empty, so only the memory of the signal can answer
    cases deed with
    | look => exact .seen
    | complete => exact .seen
    | abandon => exact .seen

/-- Deeds resolve a signal just where one of them settles it. -/
theorem Faithful.after (h : Faithful resolved p) (deeds : List Deed) :
    Faithful (resolved || deeds.any Deed.settles) (p.after deeds) := by
  induction deeds generalizing resolved p with
  | nil =>
    rw [List.any_nil, Bool.or_false]
    exact h
  | cons deed rest ih =>
    rw [List.any_cons, ← Bool.or_assoc]
    exact ih (h.act deed)

/-- A signal is settled by its creation, or by a notifier that has completed or gone. -/
theorem settled_iff (resolved : Bool) (deeds : List Deed) :
    (resolved || deeds.any Deed.settles) = true ↔ IsSettled resolved deeds := by
  have hany : deeds.any Deed.settles = true ↔ .complete ∈ deeds ∨ .abandon ∈ deeds := by
    rw [List.any_eq_true]
    constructor
    · rintro ⟨deed, hmem, hsettles⟩
      cases deed with
      | look => cases hsettles
      | complete => exact .inl hmem
      | abandon => exact .inr hmem
    · rintro (hmem | hmem)
      · exact ⟨_, hmem, rfl⟩
      · exact ⟨_, hmem, rfl⟩
  rw [Bool.or_eq_true, hany, IsSettled]

/-- What has settled a signal is not undone. -/
theorem IsSettled.append {deeds : List Deed} (h : IsSettled resolved deeds) (more : List Deed) :
    IsSettled resolved (deeds ++ more) := by
  rcases h with h | h | h
  · exact .inl h
  · exact .inr (.inl (List.mem_append_left more h))
  · exact .inr (.inr (List.mem_append_left more h))

/-- A look says whether the signal has resolved. -/
theorem Faithful.isComplete (h : Faithful resolved p) :
    ∃ next, p.isComplete = some (next, resolved) := by
  cases h with
  | pending => exact ⟨_, rfl⟩
  | told hleft => rcases hleft with rfl | rfl <;> exact ⟨_, rfl⟩
  | seen => exact ⟨_, rfl⟩

/-- A wait returns when the signal has resolved and goes on otherwise. It never breaks down,
since a signal whose channel is empty does not ask it. -/
theorem Faithful.wait (h : Faithful resolved p) :
    ∃ s, p.signal = some s ∧ s.wait = if resolved then .returned else .waiting := by
  cases h with
  | pending => exact ⟨_, rfl, rfl⟩
  | told hleft => rcases hleft with rfl | rfl <;> exact ⟨_, rfl, rfl⟩
  | seen => exact ⟨_, rfl, rfl⟩

/-- Waiting uses the signal up, and returns at once if that is resolved. -/
theorem wait_eq {s : Completion} (h : p.signal = some s) :
    p.wait = some ({ p with signal := none }, decide (s.wait = .returned)) := by
  rw [CompletionPair.wait, h]
  rfl

/-- After any deeds, in any order, a look says whether the signal was resolved from the start
or its notifier has completed or gone away, and says so ever after. A wait, which uses the
signal up, returns under exactly the same condition. Otherwise it goes on waiting. -/
theorem answers_iff_settled (resolved : Bool) (deeds : List Deed) :
    (∃ next answer, ((created resolved).after deeds).isComplete = some (next, answer)
      ∧ (answer = true ↔ IsSettled resolved deeds)
      ∧ (answer = true → ∀ more, ∃ later,
        ((created resolved).after (deeds ++ more)).isComplete = some (later, true)))
    ∧ (∃ next returned, ((created resolved).after deeds).wait = some (next, returned)
      ∧ (returned = true ↔ IsSettled resolved deeds)
      ∧ next.signal = none)
    ∧ ∃ s, ((created resolved).after deeds).signal = some s
      ∧ (s.wait = .returned ↔ IsSettled resolved deeds)
      ∧ (s.wait = .waiting ↔ ¬ IsSettled resolved deeds) := by
  have hfaithful := fun deeds => (faithful_created resolved).after deeds
  have hsettled := settled_iff resolved
  obtain ⟨next, hlook⟩ := (hfaithful deeds).isComplete
  obtain ⟨s, hsignal, hwait⟩ := (hfaithful deeds).wait
  -- what a wait says is read off the condition, whichever way that goes
  have hreturned : s.wait = .returned ↔ IsSettled resolved deeds := by
    rw [hwait, ← hsettled]
    cases resolved || deeds.any Deed.settles <;> simp
  have hwaiting : s.wait = .waiting ↔ ¬ IsSettled resolved deeds := by
    rw [hwait, ← hsettled]
    cases resolved || deeds.any Deed.settles <;> simp
  refine ⟨⟨next, _, hlook, hsettled deeds, ?_⟩,
    ⟨_, _, wait_eq hsignal, decide_eq_true_iff.trans hreturned, rfl⟩,
    s, hsignal, hreturned, hwaiting⟩
  intro hanswer more
  have hmore := (hsettled (deeds ++ more)).mpr (((hsettled deeds).mp hanswer).append more)
  obtain ⟨later, hlater⟩ := (hfaithful (deeds ++ more)).isComplete
  exact ⟨later, by rw [hlater, hmore]⟩

/-- A signal that was looked at before and after its notifier has completed. The looks have
emptied the channel, and the wait returns all the same. -/
theorem answers_iff_settled_looked :
    (∃ next, (opened.after [.look, .complete, .look, .look]).wait = some (next, true))
      ∧ ∃ later,
        (opened.after ([.look, .complete] ++ [.look])).isComplete = some (later, true) := by
  obtain ⟨-, ⟨next, returned, hwait, hreturned, -⟩, -⟩ :=
    answers_iff_settled false [.look, .complete, .look, .look]
  obtain ⟨⟨_, answer, -, hanswer, hlater⟩, -, -⟩ := answers_iff_settled false [.look, .complete]
  obtain rfl := hreturned.mpr (.inr (.inl (by decide)))
  exact ⟨⟨next, hwait⟩, hlater (hanswer.mpr (.inr (.inl (by decide)))) [.look]⟩

end CompletionPair

end Tenure.Status
