import Tenure.Proofs.Store.Served

/-!
# `Tenure.Proofs.Store.Decided`: what a store decides about a call

A store to which nothing happens leaves nothing open: the record of the key decides
what a call does to it and what is replied. `Decided` lists the cases. A lookup
tells the record; a creation needs that there is none; an update needs one of the
version that it expects; every other write is a conflict, or finds nothing to
update, and changes nothing.

* `Memory.answer_decided` and `Shared.answer_decided`: this is how a store in memory
  answers.
* `Decided.unique`: there is one way only, so two stores that hold the same record
  answer alike.
* `Decided.written`: a call changes the record exactly when it is replied that it
  has written, and then the version goes up by one.
-/

set_option autoImplicit false

namespace Tenure.Store

/-- The version of what is stored under a key, zero when nothing is. -/
def versionOf : Option (Versioned Record) → Nat
  | none => 0
  | some stored => stored.version

namespace Reply

/-- What a lookup has found. -/
def found? : Reply → Option (Option (Versioned Record))
  | found current => some current
  | _ => none

/-- What a call has written, by the reply and what was asked. -/
def stamp? : Reply → Request → Option (Versioned Record)
  | written version, .create record => some ⟨version, record⟩
  | written version, .update record _ => some ⟨version, record⟩
  | _, _ => none

end Reply

/-- How a call is decided: the record of its key before and after, and the reply. -/
inductive Decided (key : Key) (before : Option (Versioned Record)) :
    Request → Option (Versioned Record) → Reply → Prop
  | read : Decided key before .get before (.found before)
  | created {record : Record} (habsent : before = none) :
      Decided key before (.create record) (some ⟨Versioned.initial, record⟩)
        (.written Versioned.initial)
  /-- There is a record already. -/
  | taken {record : Record} {current : Versioned Record} (hcurrent : before = some current) :
      Decided key before (.create record) before (.failed (.conflict key))
  | updated {record : Record} {expected : Nat} {current : Versioned Record}
      (hcurrent : before = some current) (hversion : current.version = expected) :
      Decided key before (.update record expected) (some ⟨expected + 1, record⟩)
        (.written (expected + 1))
  /-- The version is not the one that is expected. -/
  | moved {record : Record} {expected : Nat} {current : Versioned Record}
      (hcurrent : before = some current) (hne : current.version ≠ expected) :
      Decided key before (.update record expected) before (.failed (.conflict key))
  /-- There is nothing to update. -/
  | missing {record : Record} {expected : Nat} (habsent : before = none) :
      Decided key before (.update record expected) before (.failed (.notFound key))

/-- A store in memory decides every call. -/
theorem Memory.answer_decided (m : Memory) (key : Key) (request : Request) :
    Decided key (m.get key) request ((m.answer key request).1.get key)
      (m.answer key request).2 := by
  cases request with
  | get => exact .read
  | create record =>
    simp only [answer]
    cases hget : m.get key with
    | none =>
      rw [get_put_self]
      exact .created rfl
    | some current =>
      simp only [hget]
      exact .taken rfl
  | update record expected =>
    simp only [answer]
    cases hget : m.get key with
    | none =>
      simp only [hget]
      exact .missing rfl
    | some current =>
      simp only
      -- an update gets through just where the version is the one that was expected
      by_cases hversion : current.version = expected
      · rw [if_pos hversion, get_put_self, hversion]
        exact .updated rfl hversion
      · rw [if_neg hversion, hget]
        exact .moved rfl hversion

/-- A store that is shared, in memory, decides every call. -/
theorem Shared.answer_decided {s : Shared} (h : s.IsMemory) (key : Key) (request : Request) :
    Decided key (s.record? key) request ((s.answer key request).1.record? key)
      (s.answer key request).2 := by
  obtain ⟨backing, files⟩ := s
  obtain ⟨records, rfl⟩ : ∃ records, backing = .memory records := h
  exact records.answer_decided key request

variable {key : Key} {before after after' : Option (Versioned Record)} {request : Request}
  {reply reply' : Reply}

/-- The record of the key leaves one way to decide a call. -/
theorem Decided.unique (h : Decided key before request after reply)
    (h' : Decided key before request after' reply') : after = after' ∧ reply = reply' := by
  -- two ways to decide one call would contradict each other about what is there or about its
  -- version
  cases h with
  | read =>
    cases h'
    exact ⟨rfl, rfl⟩
  | created habsent =>
    cases h' with
    | created _ => exact ⟨rfl, rfl⟩
    | taken hcurrent => simp [habsent] at hcurrent
  | taken hcurrent =>
    cases h' with
    | created habsent => simp [hcurrent] at habsent
    | taken _ => exact ⟨rfl, rfl⟩
  | updated hcurrent hversion =>
    cases h' with
    | updated _ _ => exact ⟨rfl, rfl⟩
    | moved hcurrent' hne =>
      obtain rfl := Option.some.inj (hcurrent.symm.trans hcurrent')
      exact absurd hversion hne
    | missing habsent => simp [hcurrent] at habsent
  | moved hcurrent hne =>
    cases h' with
    | updated hcurrent' hversion =>
      obtain rfl := Option.some.inj (hcurrent.symm.trans hcurrent')
      exact absurd hversion hne
    | moved _ _ => exact ⟨rfl, rfl⟩
    | missing habsent => simp [hcurrent] at habsent
  | missing habsent =>
    cases h' with
    | updated hcurrent _ => simp [habsent] at hcurrent
    | moved hcurrent _ => simp [habsent] at hcurrent
    | missing _ => exact ⟨rfl, rfl⟩

/-- However a call is decided, the reply is of the kind that was asked for. -/
theorem Decided.fits (h : Decided key before request after reply) : reply.fits request = true := by
  cases h <;> rfl

/-- A call that is not replied to have written has changed nothing. A write puts the
record that was sent under the next version. -/
theorem Decided.written (h : Decided key before request after reply) :
    (reply.stamp? request = none ∧ after = before)
      ∨ ∃ w, reply.stamp? request = some w ∧ after = some w
        ∧ w.version = versionOf before + 1 ∧ Succeeds before after := by
  cases h with
  | read | taken _ | moved _ _ | missing _ => exact .inl ⟨rfl, rfl⟩
  | created habsent =>
    refine .inr ⟨_, rfl, rfl, ?_, .first habsent⟩
    rw [habsent]
    rfl
  | updated hcurrent hversion =>
    subst hversion
    refine .inr ⟨_, rfl, rfl, ?_, .next hcurrent⟩
    rw [hcurrent]
    rfl

end Tenure.Store
