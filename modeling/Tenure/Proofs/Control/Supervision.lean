import Tenure.Control.Manager

/-!
# `Tenure.Proofs.Control.Supervision`: a run supervises its controllers

A run of controllers learns of two kinds of things (`Run.Event`): a controller has
ended, in whatever way, or the token that was passed in is cancelled. They come in any
order, and a history lists them as they come; each controller ends once at most.

A history says all there is to know about a run. So what holds of every history holds at
every moment of a run, and a run that is over stays as it is.

* `Run.stops_after`, `Run.cancelled_after`: when the tokens are cancelled.
* `Run.supervised`: when a run is over, and how.
-/

set_option autoImplicit false

namespace Tenure.Control

/-- The error that a controller leaves when it ends, if it fails or breaks down. The
number tells its task. -/
def failureOf (task : Nat) : Ending Error → Option Error
  | .done => none
  | .failed error => some error
  | .panicked message => some (.panicked (Panic.text ⟨task, message⟩))

namespace Run

/-- What a run learns of. -/
inductive Event
  | ended (index : Nat) (ending : Ending Error)
  /-- The token that was passed in is cancelled. -/
  | cancelled
deriving Repr, DecidableEq

namespace Event

/-- The error that an event brings. -/
def failure? : Event → Option Error
  | ended index ending => failureOf index ending
  | cancelled => none

/-- The controller that ends. -/
def index? : Event → Option Nat
  | ended index _ => some index
  | cancelled => none

end Event

/-- A run learns of something. -/
def tell (r : Run) : Event → Run
  | .ended index ending => r.finish index (resultOf index ending)
  | .cancelled => r.cancel

/-- What a run of some controllers has come to after a history. -/
def after (count : Nat) (history : List Event) : Run := history.foldl tell (start count)

/-- What a run of some controllers may learn of: each of them ends once at most. -/
structure IsHistory (count : Nat) (history : List Event) : Prop where
  index_lt : ∀ index ending, .ended index ending ∈ history → index < count
  once : (history.filterMap Event.index?).Nodup

/-- Every controller has ended. -/
def AllEnded (count : Nat) (history : List Event) : Prop :=
  ∀ index < count, ∃ ending, .ended index ending ∈ history

variable {count : Nat} {history : List Event}

/-! ### What each event changes -/

/-- The failure of a run is the first one, so an end does not replace an earlier failure. -/
theorem finish_failure (r : Run) (index : Nat) (ending : Ending Error) :
    (r.finish index (resultOf index ending)).failure = r.failure.or (failureOf index ending) := by
  cases hfailure : r.failure <;> cases ending <;> simp [finish, resultOf, failureOf, hfailure]

/-- The token of a run is cancelled if it was before, or if the history says so. -/
theorem foldl_tell_cancelled (r : Run) (history : List Event) :
    (history.foldl tell r).cancelled = true ↔ r.cancelled = true ∨ .cancelled ∈ history := by
  induction history generalizing r with
  | nil => simp
  | cons event rest ih =>
    rw [List.foldl_cons, ih]
    cases event with
    | ended index ending => simp [tell, finish]
    | cancelled => simp [tell, cancel]

/-- The failure of a run is the one that it had, or else the first one in its history. -/
theorem foldl_tell_failure (r : Run) (history : List Event) :
    (history.foldl tell r).failure = r.failure.or (history.findSome? Event.failure?) := by
  induction history generalizing r with
  | nil => simp
  | cons event rest ih =>
    rw [List.foldl_cons, ih, List.findSome?_cons]
    cases event with
    | ended index ending =>
      rw [tell, finish_failure, Event.failure?]
      cases r.failure <;> cases failureOf index ending <;> rfl
    | cancelled => rfl

/-- A run has as many controllers at its end as at its start. -/
theorem foldl_tell_length (r : Run) (history : List Event) :
    (history.foldl tell r).ended.length = r.ended.length := by
  induction history generalizing r with
  | nil => rfl
  | cons event rest ih =>
    rw [List.foldl_cons, ih]
    cases event with
    | ended index ending => simp [tell, finish]
    | cancelled => rfl

/-- A controller has ended if it had before, or if its end is in the history. -/
theorem foldl_tell_ended (r : Run) (history : List Event) {index : Nat}
    (hlt : index < r.ended.length) :
    (history.foldl tell r).ended[index]? = some true
      ↔ r.ended[index]? = some true ∨ ∃ ending, .ended index ending ∈ history := by
  induction history generalizing r with
  | nil => simp
  | cons event rest ih =>
    rw [List.foldl_cons]
    cases event with
    | ended other ending =>
      rw [ih _ (by simpa [tell, finish] using hlt)]
      by_cases hother : other = index
      · subst hother
        simp [tell, finish, hlt]
      · simp [tell, finish, List.getElem?_set_ne hother, Ne.symm hother]
    | cancelled =>
      rw [ih (r.tell .cancelled) hlt]
      simp [tell, cancel]

/-! ### What a history tells -/

/-- A run does not cancel the token that was passed in. -/
theorem cancelled_after : (after count history).cancelled = true ↔ .cancelled ∈ history := by
  simp [after, foldl_tell_cancelled, start]

/-- The error of a run is that of the first controller that failed or broke down. -/
theorem failure_after : (after count history).failure = history.findSome? Event.failure? := by
  simp [after, foldl_tell_failure, start]

/-- The tokens of the controllers are cancelled from the first failure on, or from the
cancellation of the token that was passed in if that comes first. -/
theorem stops_after : (after count history).stops = true
    ↔ .cancelled ∈ history ∨ ∃ event ∈ history, event.failure?.isSome = true := by
  rw [stops, Bool.or_eq_true, cancelled_after, failure_after, List.findSome?_isSome_iff]

/-- All controllers have ended exactly if the history has the end of each. -/
theorem all_ended_after : (after count history).ended.all id = true ↔ AllEnded count history := by
  have hlength : (after count history).ended.length = count := by
    simp [after, foldl_tell_length, start]
  -- each flag was set by the event that tells of its controller
  have hended {index : Nat} (hlt : index < count) :
      (after count history).ended[index]? = some true
        ↔ ∃ ending, .ended index ending ∈ history := by
    rw [after, foldl_tell_ended _ _ (by simpa [start] using hlt)]
    simp [start, hlt]
  constructor
  · intro hall index hlt
    refine (hended hlt).mp ?_
    rw [← hlength] at hlt
    rw [List.getElem?_eq_getElem hlt]
    exact congrArg some (List.all_eq_true.mp hall _ (List.getElem_mem hlt))
  · intro hall
    refine List.all_eq_true.mpr fun flag hmem => ?_
    obtain ⟨index, hlt, rfl⟩ := List.mem_iff_getElem.mp hmem
    have hflag := (hended (hlength ▸ hlt)).mpr (hall index (hlength ▸ hlt))
    rw [List.getElem?_eq_getElem hlt] at hflag
    exact Option.some.inj hflag

/-- A run ends with an error exactly if all have ended, and the error is the first failure. -/
theorem result_error_iff (error : Error) : (after count history).result? = some (.error error)
    ↔ AllEnded count history ∧ history.findSome? Event.failure? = some error := by
  rw [← all_ended_after, ← @failure_after count, result?]
  split
  · rename_i hall
    cases hfailure : (after count history).failure with
    | some e => simp [hall]
    | none => cases (after count history).cancelled <;> simp
  · rename_i hall
    simp [hall]

/-- It ends well exactly if all have ended, none of them has failed and the token is cancelled. -/
theorem result_ok_iff : (after count history).result? = some (.ok ())
    ↔ AllEnded count history ∧ (∀ event ∈ history, event.failure? = none)
      ∧ .cancelled ∈ history := by
  rw [← all_ended_after, ← @cancelled_after count, ← List.findSome?_eq_none_iff,
    ← @failure_after count, result?]
  split
  · rename_i hall
    cases hfailure : (after count history).failure with
    | some e => simp
    | none => cases (after count history).cancelled <;> simp [hall]
  · rename_i hall
    simp [hall]

/-! ### A run that is over -/

/-- When all controllers have ended, only a cancellation may still come. -/
theorem IsHistory.eq_cancelled {more : List Event} (h : IsHistory count (history ++ more))
    (hall : AllEnded count history) : ∀ event ∈ more, event = .cancelled := by
  intro event hmem
  cases event with
  | cancelled => rfl
  | ended index ending =>
    obtain ⟨earlier, hearlier⟩ :=
      hall index (h.index_lt index ending (List.mem_append_right _ hmem))
    have hnodup := h.once
    rw [List.filterMap_append] at hnodup
    have hbefore : index ∈ history.filterMap Event.index? :=
      List.mem_filterMap.mpr ⟨_, hearlier, rfl⟩
    have hafter : index ∈ more.filterMap Event.index? := List.mem_filterMap.mpr ⟨_, hmem, rfl⟩
    exact absurd rfl ((List.nodup_append.mp hnodup).2.2 index hbefore index hafter)

/-- A result stays what it is: after it a history can only tell of a cancellation. -/
theorem IsHistory.result_append {more : List Event} (h : IsHistory count (history ++ more))
    {result : Except Error Unit} (hresult : (after count history).result? = some result) :
    (after count (history ++ more)).result? = some result := by
  -- nothing can end after everything has ended, so the first failure stays the first
  have hmono (hall : AllEnded count history) : AllEnded count (history ++ more) := by
    intro index hlt
    obtain ⟨ending, hmem⟩ := hall index hlt
    exact ⟨ending, List.mem_append_left _ hmem⟩
  cases result with
  | error error =>
    obtain ⟨hall, hfirst⟩ := (result_error_iff error).mp hresult
    refine (result_error_iff error).mpr ⟨hmono hall, ?_⟩
    rw [List.findSome?_append, hfirst]
    rfl
  | ok _ =>
    obtain ⟨hall, hnone, hcancelled⟩ := result_ok_iff.mp hresult
    refine result_ok_iff.mpr ⟨hmono hall, fun event hmem => ?_, List.mem_append_left _ hcancelled⟩
    rcases List.mem_append.mp hmem with hmem | hmem
    · exact hnone event hmem
    · rw [h.eq_cancelled hall event hmem]
      rfl

/-- A run is over only when all its controllers have ended. It is over with an error as
soon as that is so, if any of them failed or broke down, and then the error is that of
the first one. Otherwise it is over without an error as soon as the token that was
passed in is cancelled too. The tokens of the controllers are cancelled from then or
from the first failure on, whichever comes first, and nobody but others cancels the
token that was passed in. A run that is over stays as it is. -/
theorem supervised (count : Nat) (history : List Event) :
    (∀ result, (after count history).result? = some result → AllEnded count history)
      ∧ (∀ error, (after count history).result? = some (.error error)
        ↔ AllEnded count history ∧ history.findSome? Event.failure? = some error)
      ∧ ((after count history).result? = some (.ok ())
        ↔ AllEnded count history ∧ (∀ event ∈ history, event.failure? = none)
          ∧ .cancelled ∈ history)
      ∧ ((after count history).stops = true
        ↔ .cancelled ∈ history ∨ ∃ event ∈ history, event.failure?.isSome = true)
      ∧ ((after count history).cancelled = true ↔ .cancelled ∈ history)
      ∧ ∀ more, IsHistory count (history ++ more) → ∀ result,
        (after count history).result? = some result →
          (after count (history ++ more)).result? = some result := by
  refine ⟨fun result hresult => ?_, result_error_iff, result_ok_iff, stops_after, cancelled_after,
    fun more hmore result hresult => hmore.result_append hresult⟩
  cases result with
  | error error => exact ((result_error_iff error).mp hresult).1
  | ok _ => exact (result_ok_iff.mp hresult).1

/-- Three controllers. One returns early, another one breaks down, and the last one fails
when it is told to stop; only then the token that was passed in is cancelled. -/
def setback : List Event :=
  [.ended 1 .done, .ended 2 (.panicked "boom"), .ended 0 (.failed (.controller "ctl" "late"))]

/-- The run is over with the panic, and stays so when the token is cancelled afterwards. -/
theorem supervised_setback :
    (after 3 setback).result? = some (.error (.panicked (Panic.text ⟨2, "boom"⟩)))
      ∧ AllEnded 3 setback ∧ (after 3 setback).cancelled ≠ true
      ∧ (after 3 (setback.take 1)).stops ≠ true ∧ (after 3 (setback.take 2)).stops = true
      ∧ IsHistory 3 (setback ++ [.cancelled])
      ∧ (after 3 (setback ++ [.cancelled])).result?
        = some (.error (.panicked (Panic.text ⟨2, "boom"⟩))) := by
  have hresult : (after 3 setback).result?
      = some (.error (.panicked (Panic.text ⟨2, "boom"⟩))) := rfl
  have hhistory : IsHistory 3 (setback ++ [.cancelled]) := by
    refine ⟨fun index ending hmem => ?_, by decide⟩
    simp only [setback, List.cons_append, List.nil_append, List.mem_cons, Event.ended.injEq,
      reduceCtorEq, List.not_mem_nil, or_false] at hmem
    omega
  obtain ⟨hended, -, -, -, hcancelled, hstays⟩ := supervised 3 setback
  obtain ⟨-, -, -, hbefore, -, -⟩ := supervised 3 (setback.take 1)
  obtain ⟨-, -, -, hafter, -, -⟩ := supervised 3 (setback.take 2)
  refine ⟨hresult, hended _ hresult, fun h => ?_, fun h => ?_, ?_, hhistory,
    hstays _ hhistory _ hresult⟩
  · exact absurd (hcancelled.mp h) (by decide)
  · exact absurd (hbefore.mp h) (by decide)
  · exact hafter.mpr (.inr ⟨_, List.mem_cons_of_mem _ List.mem_cons_self, rfl⟩)

end Run

end Tenure.Control
