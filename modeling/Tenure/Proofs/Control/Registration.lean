import Mathlib.Data.List.Forall2
import Mathlib.Data.List.Induction
import Tenure.Control.Manager

/-!
# `Tenure.Proofs.Control.Registration`: what is registered

Factories build controllers from defaults, each of them its own (`Builds`), or the first one
that fails is the error (`Fails`). A manager is asked to register controllers and
to start them, any number of times and in any order. What it has registered then was built by
the last registration that succeeded (`LastBuilt`), so a failed one leaves no trace.

* `buildAll_spec`: all controllers are built, or the first failure is the error.
* `register_spec`: what one registration does.
* `lastBuilt_after`: what any number of calls leaves registered.
-/

set_option autoImplicit false

namespace Tenure.Control.Manager

variable {γ : Type}

/-- Each factory builds a controller from the defaults, in order. -/
def Builds (factories : List (Factory γ)) (defaults : Defaults) (controllers : List γ) : Prop :=
  List.Forall₂ (fun factory controller => factory defaults = .ok controller) factories controllers

/-- A factory fails with the error, and none before it fails. -/
def Fails (factories : List (Factory γ)) (defaults : Defaults) (e : Error) : Prop :=
  ∃ before factory after, factories = before ++ factory :: after
    ∧ (∀ earlier ∈ before, ∃ controller, earlier defaults = .ok controller)
    ∧ factory defaults = .error e

/-- What is asked of a manager. -/
inductive Call
  | register (defaults : Defaults)
  /-- The token that is passed in may be cancelled already. -/
  | start (cancelled : Bool)

/-- What comes of a call: how a registration has ended, or controllers at work. -/
inductive Outcome (γ : Type)
  | registered (result : Except Error Unit)
  | started (run : Run) (controllers : List γ)

/-- The manager after a call, and what comes of it. -/
def answer (m : Manager γ) : Call → Manager γ × Outcome γ
  | .register defaults =>
    let (m, result) := m.register defaults
    (m, .registered result)
  | .start cancelled =>
    let (run, controllers) := m.start cancelled
    (m, .started run controllers)

/-- A manager with these factories after some calls. -/
def after (factories : List (Factory γ)) (calls : List Call) : Manager γ :=
  calls.foldl (fun m call => (m.answer call).1) (new factories)

/-- The controllers were built by the last registration among some calls that succeeded; there
are none if none succeeded. -/
inductive LastBuilt (factories : List (Factory γ)) : List Call → List γ → Prop
  | never {calls : List Call}
      (hfails : ∀ defaults, .register defaults ∈ calls → ∃ e, Fails factories defaults e) :
      LastBuilt factories calls []
  | last {before later : List Call} {defaults : Defaults} {controllers : List γ}
      (hbuilds : Builds factories defaults controllers)
      (hfails : ∀ other, .register other ∈ later → ∃ e, Fails factories other e) :
      LastBuilt factories (before ++ .register defaults :: later) controllers

variable {factories : List (Factory γ)} {defaults : Defaults} {calls : List Call}
  {controllers : List γ} {m m' : Manager γ} {e : Error}

/-- All controllers are built, in the order of their factories, or the first factory that fails is
the error. -/
theorem buildAll_spec (defaults : Defaults) (factories : List (Factory γ)) :
    match buildAll defaults factories with
    | .ok controllers => Builds factories defaults controllers
    | .error e => Fails factories defaults e := by
  induction factories with
  | nil => exact .nil
  | cons factory rest ih =>
    rw [buildAll]
    cases hfactory : factory defaults with
    | error e => exact ⟨[], factory, rest, rfl, nofun, hfactory⟩
    | ok controller =>
      cases hrest : buildAll defaults rest with
      | ok controllers =>
        rw [hrest] at ih
        exact .cons hfactory ih
      | error e =>
        rw [hrest] at ih
        -- this factory has not failed, so the first that fails among the rest is the first of all
        obtain ⟨before, failing, after, rfl, hbefore, hfailed⟩ := ih
        refine ⟨factory :: before, failing, after, rfl, fun earlier hmem => ?_, hfailed⟩
        rcases List.mem_cons.mp hmem with rfl | hmem
        · exact ⟨controller, hfactory⟩
        · exact hbefore earlier hmem

/-- A registration that succeeds puts the controllers that all factories have built in the place
of the old ones. One that fails has the error of the first factory that fails, and changes
nothing. -/
theorem register_spec (m : Manager γ) (defaults : Defaults) :
    match m.register defaults with
    | (m', .ok ()) => m'.factories = m.factories ∧ Builds m.factories defaults m'.registered
    | (m', .error e) => m' = m ∧ Fails m.factories defaults e := by
  have hbuild := buildAll_spec defaults m.factories
  cases hresult : buildAll defaults m.factories with
  | ok controllers =>
    rw [hresult] at hbuild
    rw [register_ok m defaults controllers hresult]
    exact ⟨rfl, hbuild⟩
  | error e =>
    rw [hresult] at hbuild
    rw [register_error m defaults e hresult]
    exact ⟨rfl, hbuild⟩

/-- Calls are answered one after another. -/
theorem after_concat (factories : List (Factory γ)) (calls : List Call) (call : Call) :
    after factories (calls ++ [call]) = ((after factories calls).answer call).1 := by
  rw [after, List.foldl_append]
  rfl

/-- No call changes the factories. -/
theorem factories_answer (m : Manager γ) (call : Call) :
    (m.answer call).1.factories = m.factories := by
  cases call with
  | start cancelled => rfl
  | register defaults =>
    have hspec := register_spec m defaults
    rw [answer]
    rcases hregister : m.register defaults with ⟨m', e | _⟩ <;> rw [hregister] at hspec
    · rw [hspec.1]
    · exact hspec.1

/-- So the factories are always those that the manager was made with. -/
theorem factories_after (factories : List (Factory γ)) (calls : List Call) :
    (after factories calls).factories = factories := by
  induction calls using List.reverseRecOn with
  | nil => rfl
  | append_singleton calls call ih => rw [after_concat, factories_answer, ih]

/-- What holds of all controllers that the factories can build holds of those that they have
built. -/
theorem Builds.forall_mem (h : Builds factories defaults controllers) {p : γ → Prop}
    (hp : ∀ factory ∈ factories, ∀ defaults controller,
      factory defaults = .ok controller → p controller) :
    ∀ controller ∈ controllers, p controller := by
  unfold Builds at h
  induction h with
  | nil => exact nofun
  | cons hhead _ ih =>
    intro controller hmem
    rcases List.mem_cons.mp hmem with rfl | hmem
    · exact hp _ List.mem_cons_self _ _ hhead
    · exact ih (fun factory hfactory => hp factory (List.mem_cons_of_mem _ hfactory)) controller
        hmem

/-- What holds of whatever the factories build holds of the controllers that were built last. -/
theorem LastBuilt.forall_mem (h : LastBuilt factories calls controllers) {p : γ → Prop}
    (hp : ∀ factory ∈ factories, ∀ defaults controller,
      factory defaults = .ok controller → p controller) :
    ∀ controller ∈ controllers, p controller := by
  cases h with
  | never _ => exact nofun
  | last hbuilds _ => exact hbuilds.forall_mem hp

/-- A call that registers nothing leaves the last registration what it was. -/
theorem LastBuilt.concat (h : LastBuilt factories calls controllers) {call : Call}
    (hcall : ∀ defaults, call = .register defaults → ∃ e, Fails factories defaults e) :
    LastBuilt factories (calls ++ [call]) controllers := by
  have hconcat {some : List Call}
      (hfails : ∀ defaults, .register defaults ∈ some → ∃ e, Fails factories defaults e)
      (defaults : Defaults) (hmem : .register defaults ∈ some ++ [call]) :
      ∃ e, Fails factories defaults e := by
    rcases List.mem_append.mp hmem with hmem | hmem
    · exact hfails defaults hmem
    · exact hcall defaults (List.mem_singleton.mp hmem).symm
  cases h with
  | never hfails => exact .never (hconcat hfails)
  | last hbuilds hfails =>
    rw [List.append_assoc, List.cons_append]
    exact .last hbuilds (hconcat hfails)

/-- After any calls those controllers are registered that the last successful registration has
built. -/
theorem lastBuilt_after (factories : List (Factory γ)) (calls : List Call) :
    LastBuilt factories calls (after factories calls).registered := by
  -- the last call comes last, and only a registration matters
  induction calls using List.reverseRecOn with
  | nil => exact .never nofun
  | append_singleton calls call ih =>
    rw [after_concat]
    cases call with
    | start cancelled => exact ih.concat nofun
    | register defaults =>
      have hspec := register_spec (after factories calls) defaults
      rw [answer]
      rcases hregister : (after factories calls).register defaults with ⟨m', e | _⟩ <;>
        rw [hregister, factories_after] at hspec
      · -- nothing is registered anew, and what was built last still is
        obtain ⟨rfl, hfails⟩ := hspec
        refine ih.concat fun other heq => ?_
        cases heq
        exact ⟨e, hfails⟩
      · exact .last hspec.2 nofun

end Tenure.Control.Manager
