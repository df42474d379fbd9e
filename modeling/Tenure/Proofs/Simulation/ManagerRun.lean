import Tenure.Proofs.Control.Drift
import Tenure.Proofs.Control.Registration
import Tenure.Proofs.Simulation.Workforce

/-!
# `Tenure.Proofs.Simulation.ManagerRun`: who works

When controllers are started, each of them begins by its first step. A `ManagerRun` is a
run of the controllers of a manager in any surroundings, whatever the time, together with the
numbers of those that have begun, in the order in which they did.

* `ManagerRun.attended`: the controllers at work are those that were started, and none begins twice.
* `Attended.perm_of_idle`: as soon as no controller has anything to do at an instant, each has
  begun once.
* `registered_begin_once`: a registration is all or nothing, and whenever a manager starts
  controllers they are those of the last registration that succeeded, each once.
-/

set_option autoImplicit false

namespace Tenure

/-- By a step a task goes on with its plan, and has begun. -/
theorem Task.advance_spec {ε : Type} {task task' : Task ε} {signs : List Task.Sign} {now : Nat}
    {cancelled : Bool} (h : task.advance now cancelled = some (task', signs)) :
    task'.plan = task.plan ∧ task'.stage ≠ .fresh := by
  unfold advance at h
  split at h
  · cases h
    unfold start
    split <;> exact ⟨rfl, nofun⟩
  · split at h
    · cases h
      exact ⟨rfl, nofun⟩
    · split at h <;> cases h
      exact ⟨rfl, nofun⟩
  · split at h <;> cases h
    exact ⟨rfl, nofun⟩
  · cases h

namespace Simulation

open Control (Factory Drift Manager)

namespace Worker

/-- Whether a controller has yet to begin. -/
def isFresh : Worker → Bool
  | scripted _ task => task.stage == .fresh
  | drift d _ => d.stage == .fresh

/-- The second controller is the first one, further on with its work. -/
inductive Continues : Worker → Worker → Prop
  | scripted {name : String} {task task' : Task Control.Error} (hplan : task'.plan = task.plan) :
      Continues (.scripted name task) (.scripted name task')
  | drift {d d' : Drift} {source : Nat} (happlied : d'.applied = d.applied)
      (hresync : d'.resync = d.resync) : Continues (.drift d source) (.drift d' source)

variable {w w' w'' : Worker} {s s' : Surroundings} {now : Nat} {cancelled : Bool}

/-- A controller continues itself. -/
theorem Continues.refl (w : Worker) : w.Continues w := by
  cases w with
  | scripted name task => exact .scripted rfl
  | drift d source => exact .drift rfl rfl

/-- What continues a continuation continues the first one. -/
theorem Continues.trans (h : w.Continues w') (h' : w'.Continues w'') : w.Continues w'' := by
  cases h with
  | scripted hplan =>
    cases h' with
    | scripted hplan' => exact .scripted (hplan'.trans hplan)
  | drift happlied hresync =>
    cases h' with
    | drift happlied' hresync' =>
      exact .drift (happlied'.trans happlied) (hresync'.trans hresync)

/-- By a step a controller goes on with its work, and has begun. -/
theorem step_spec (h : w.step s now cancelled = some (w', s')) :
    w.Continues w' ∧ w'.isFresh = false := by
  cases w with
  | scripted name task =>
    obtain ⟨⟨task', signs⟩, hadvance, heq⟩ := Option.map_eq_some_iff.mp h
    cases heq
    obtain ⟨hplan, hstage⟩ := Task.advance_spec hadvance
    exact ⟨.scripted hplan, beq_false_of_ne hstage⟩
  -- a drift watch either hears what was read, or goes on by itself
  | drift d source =>
    simp only [step] at h
    split at h
    · rename_i hreading
      obtain ⟨ticker, reported, told, hanswer, -⟩ :=
        Drift.exists_answer hreading (s.read source).2
      simp only [hanswer] at h
      cases h
      exact ⟨.drift rfl rfl, rfl⟩
    · obtain ⟨d', hadvance, heq⟩ := Option.map_eq_some_iff.mp h
      cases heq
      obtain ⟨stage, rfl, hstage, -⟩ := Drift.exists_advance hadvance
      exact ⟨.drift rfl rfl, beq_false_of_ne hstage⟩

/-- A factory makes controllers that have yet to begin. -/
theorem isFresh_of_factory {name : String} {plan : Plan Control.Error}
    {refusal needed : Option String} {defaults : Defaults} {worker : Worker}
    (h : factory name plan refusal needed defaults = .ok worker) : worker.isFresh = true := by
  unfold factory at h
  split at h
  · cases h
  · split at h <;> cases h
    rfl
  · cases h
    rfl

/-- A controller that has yet to begin can do so at once. -/
theorem step_of_isFresh (h : w.isFresh = true) (s : Surroundings) (now : Nat) (cancelled : Bool) :
    w.step s now cancelled ≠ none := by
  cases w with
  | scripted name task =>
    have hstage : task.stage = .fresh := eq_of_beq h
    simp [step, Task.advance, hstage]
  | drift d source =>
    have hstage : d.stage = .fresh := eq_of_beq h
    simp [step, Drift.isReading, Drift.advance, hstage]

end Worker

namespace Workforce

/-- The controllers that begin between one state and the next, by their numbers. -/
def begins (f f' : Workforce) : List Nat :=
  (List.range f.workers.length).filter fun index =>
    f.workers[index]?.any Worker.isFresh && f'.workers[index]?.any (!·.isFresh)

end Workforce

/-- A run of the controllers that a manager starts, and the numbers of those that have begun. -/
inductive ManagerRun (manager : Manager Worker) : Workforce → List Nat → Prop
  | start (cancelled : Bool) : ManagerRun manager (.start manager cancelled) []
  | cancel {f : Workforce} {begun : List Nat} (h : ManagerRun manager f begun) :
      ManagerRun manager f.cancel begun
  | step {f f' : Workforce} {begun : List Nat} {s s' : Surroundings} {now : Nat}
      (h : ManagerRun manager f begun) (hstep : f.step s now = some (f', s')) :
      ManagerRun manager f' (begun ++ f.begins f')

/-- The controllers at work are those that were started; a controller is listed once if it has
begun, and otherwise it is not. -/
structure Attended (workers : List Worker) (f : Workforce) (begun : List Nat) : Prop where
  staff : List.Forall₂ Worker.Continues workers f.workers
  sound : f.IsSound
  once : begun.Nodup
  begun_iff : ∀ index,
    index ∈ begun ↔ ∃ worker, f.workers[index]? = some worker ∧ worker.isFresh = false

variable {manager : Manager Worker} {workers : List Worker} {f f' : Workforce} {begun : List Nat}
  {s s' : Surroundings} {now : Nat}

namespace Workforce

/-- A controller begins between two states when it had yet to begin in the first and has begun in
the second. -/
theorem mem_begins {index : Nat} :
    index ∈ f.begins f' ↔ (∃ worker, f.workers[index]? = some worker ∧ worker.isFresh = true)
      ∧ ∃ worker, f'.workers[index]? = some worker ∧ worker.isFresh = false := by
  have hlt (h : ∃ worker, f.workers[index]? = some worker ∧ worker.isFresh = true) :
      index < f.workers.length := by
    obtain ⟨worker, hworker, -⟩ := h
    exact (List.getElem?_eq_some_iff.mp hworker).1
  simp only [begins, List.mem_filter, List.mem_range, Bool.and_eq_true, Option.any_eq_true,
    Bool.not_eq_true']
  exact ⟨And.right, fun h => ⟨hlt h.1, h⟩⟩

/-- A step is that of one controller, which goes on with its work and has begun then. -/
theorem step_eq (h : f.step s now = some (f', s')) :
    ∃ index worker worker', f.workers[index]? = some worker
      ∧ f'.workers = f.workers.set index worker'
      ∧ worker.Continues worker' ∧ worker'.isFresh = false := by
  obtain ⟨⟨index, worker', s''⟩, hfirst, heq⟩ := Option.map_eq_some_iff.mp h
  obtain ⟨k, worker, hindex, hworker, hstep⟩ := stepFirst_eq hfirst
  obtain rfl : index = k := by omega
  cases heq
  obtain ⟨hcontinues, hbegun⟩ := Worker.step_spec hstep
  exact ⟨index, worker, worker', hworker, rfl, hcontinues, hbegun⟩

end Workforce

/-- What is related to each item of a list is related to the items of the list with one of them
replaced, if it takes the place of what it goes back to. -/
theorem forall₂_set {α β : Type} {R : α → β → Prop} {xs : List α} {ys : List β} {index : Nat}
    {y y' : β} (h : List.Forall₂ R xs ys) (hy : ys[index]? = some y)
    (hR : ∀ x, R x y → R x y') : List.Forall₂ R xs (ys.set index y') := by
  induction h generalizing index with
  | nil => exact .nil
  | cons hhead htail ih =>
    cases index with
    | zero =>
      cases hy
      exact .cons (hR _ hhead) htail
    | succ index => exact .cons hhead (ih hy)

namespace Attended

/-- At the start nothing has begun, when no registered controller has. -/
theorem start (hfresh : ∀ worker ∈ manager.registered, worker.isFresh = true)
    (cancelled : Bool) : Attended manager.registered (.start manager cancelled) [] where
  staff := List.forall₂_same.mpr fun worker _ => .refl worker
  sound := Workforce.isSound_start manager cancelled
  once := List.nodup_nil
  begun_iff index := by
    constructor
    · intro hmem
      cases hmem
    · rintro ⟨worker, hworker, hbegun⟩
      rw [hfresh worker (List.mem_of_getElem? hworker)] at hbegun
      cases hbegun

/-- A cancellation begins no controller. -/
theorem cancel (h : Attended workers f begun) : Attended workers f.cancel begun where
  staff := h.staff
  sound := h.sound.cancel
  once := h.once
  begun_iff := h.begun_iff

/-- A step lists what begins with it, and lists nothing again. -/
theorem step (h : Attended workers f begun) (hstep : f.step s now = some (f', s')) :
    Attended workers f' (begun ++ f.begins f') := by
  obtain ⟨at_, worker, worker', hworker, hset, hcontinues, hbegun⟩ := Workforce.step_eq hstep
  have hlt : at_ < f.workers.length := (List.getElem?_eq_some_iff.mp hworker).1
  refine ⟨?_, ?_, ?_, fun index => ?_⟩
  · rw [hset]
    exact forall₂_set h.staff hworker fun _ hfirst => hfirst.trans hcontinues
  · cases h.sound.stepped hstep with
    | went _ hsound => exact hsound
    | finished _ _ hsound => exact hsound
  · refine List.nodup_append.mpr ⟨h.once, List.nodup_range.filter _, ?_⟩
    rintro index hold _ hnew rfl
    -- a controller that has begun does not begin
    obtain ⟨earlier, hearlier, hnot⟩ := (h.begun_iff index).mp hold
    obtain ⟨⟨fresh, hfresh, hyet⟩, -⟩ := Workforce.mem_begins.mp hnew
    cases hearlier.symm.trans hfresh
    rw [hnot] at hyet
    cases hyet
  · rw [List.mem_append, h.begun_iff, Workforce.mem_begins, hset]
    by_cases heq : at_ = index
    · subst heq
      rw [List.getElem?_set_self hlt]
      cases hcase : worker.isFresh <;> simp [hworker, hcase, hbegun]
    · rw [List.getElem?_set_ne heq]
      constructor
      · rintro (hold | ⟨-, hnew⟩)
        · exact hold
        · exact hnew
      · exact .inl

/-- Only controllers that were started are listed. -/
theorem lt_of_mem (h : Attended workers f begun) {index : Nat} (hmem : index ∈ begun) :
    index < workers.length := by
  obtain ⟨worker, hworker, -⟩ := (h.begun_iff index).mp hmem
  rw [h.staff.length_eq]
  exact (List.getElem?_eq_some_iff.mp hworker).1

/-- When no controller has anything to do, each of them has begun, once. -/
theorem perm_of_idle (h : Attended workers f begun) (hidle : f.step s now = none) :
    begun.Perm (List.range workers.length) := by
  refine (List.perm_ext_iff_of_nodup h.once List.nodup_range).mpr fun index => ?_
  rw [List.mem_range]
  constructor
  · exact h.lt_of_mem
  · intro hlt
    rw [h.staff.length_eq] at hlt
    rw [h.begun_iff]
    refine ⟨f.workers[index], List.getElem?_eq_getElem hlt, ?_⟩
    have hnone := Workforce.stepFirst_eq_none_iff.mp (Option.map_eq_none_iff.mp hidle)
      f.workers[index] (List.getElem_mem hlt)
    -- one that has yet to begin could do so now
    cases hcase : f.workers[index].isFresh with
    | false => rfl
    | true => exact absurd hnone (Worker.step_of_isFresh hcase s now _)

end Attended

/-- In every run of a manager's controllers each is listed once if it has begun, and otherwise not.
-/
theorem ManagerRun.attended (hfresh : ∀ worker ∈ manager.registered, worker.isFresh = true)
    (h : ManagerRun manager f begun) : Attended manager.registered f begun := by
  induction h with
  | start cancelled => exact .start hfresh cancelled
  | cancel _ ih => exact ih.cancel
  | step _ hstep ih => exact ih.step hstep

/-- A registration puts the controllers that all factories build from its defaults, in the order
of the factories, in the place of the old ones, or it has the error of the first factory that
fails and changes nothing. Whatever was asked of a manager before, the controllers that are
started are those of the last registration that succeeded. They go on with their own work, in
any surroundings, and begin at most once; each of them has begun as soon as none has anything
to do, and so when the run is over. -/
theorem registered_begin_once (factories : List (Factory Worker))
    (hfresh : ∀ factory ∈ factories, ∀ defaults worker,
      factory defaults = .ok worker → worker.isFresh = true)
    (calls : List Manager.Call) :
    let m := Manager.after factories calls
    (∀ defaults m', m.register defaults = (m', .ok ()) →
        m'.factories = factories ∧ Manager.Builds factories defaults m'.registered)
      ∧ (∀ defaults m' e, m.register defaults = (m', .error e) →
        m' = m ∧ Manager.Fails factories defaults e)
      ∧ Manager.LastBuilt factories calls m.registered
      ∧ ∀ f begun, ManagerRun m f begun →
        List.Forall₂ Worker.Continues m.registered f.workers
          ∧ begun.Nodup
          ∧ (∀ index ∈ begun, index < m.registered.length)
          ∧ (∀ s now, f.step s now = none → begun.Perm (List.range m.registered.length))
          ∧ (f.run.result?.isSome = true → begun.Perm (List.range m.registered.length)) := by
  intro m
  have hfactories : m.factories = factories := Manager.factories_after factories calls
  have hlast : Manager.LastBuilt factories calls m.registered :=
    Manager.lastBuilt_after factories calls
  have hspec (defaults : Defaults) := Manager.register_spec m defaults
  rw [hfactories] at hspec
  refine ⟨fun defaults m' hregister => ?_, fun defaults m' e hregister => ?_, hlast,
    fun f begun hrun => ?_⟩
  · have hresult := hspec defaults
    rw [hregister] at hresult
    exact hresult
  · have hresult := hspec defaults
    rw [hregister] at hresult
    exact hresult
  · have hattended := hrun.attended (hlast.forall_mem hfresh)
    refine ⟨hattended.staff, hattended.once, fun index hmem => hattended.lt_of_mem hmem,
      fun s now hidle => hattended.perm_of_idle hidle, fun hover => ?_⟩
    -- when the run is over nobody does anything any more, whatever the time is
    exact hattended.perm_of_idle (hattended.sound.step_of_over hover .empty 0)

/-! ### Two controllers, one of which needs a definition -/

/-- A task that waits for its token. -/
def attentive : Plan Control.Error := ⟨.cancellation, .zero, .done⟩

def choosyFactories : List (Factory Worker) :=
  [Worker.factory "sync" attentive none none, Worker.factory "audit" attentive none (some "limits")]

/-- Only at first there is what the second controller needs. -/
def choosyCalls : List Manager.Call :=
  [.register (.ofList [("limits", .null)]), .start true, .register .empty]

/-- The two controllers, both at the same stage. -/
def pair (first second : Task.Stage) : List Worker :=
  [.scripted "sync" ⟨attentive, first⟩, .scripted "audit" ⟨attentive, second⟩]

/-- The second registration fails. The controllers of the first one stay, and both begin when
they are started. -/
theorem registered_begin_once_choosy :
    let m := Manager.after choosyFactories choosyCalls
    m.registered = pair .fresh .fresh
      ∧ Manager.LastBuilt choosyFactories choosyCalls (pair .fresh .fresh)
      ∧ Manager.Fails choosyFactories .empty (.registration "audit needs limits")
      ∧ ManagerRun m ⟨.start 2, pair (.waiting none) (.waiting none)⟩ [0, 1]
      ∧ [0, 1].Perm (List.range (pair .fresh .fresh).length) := by
  intro m
  have hfresh : ∀ factory ∈ choosyFactories, ∀ defaults worker,
      factory defaults = .ok worker → worker.isFresh = true := by
    intro factory hmem defaults worker hbuilt
    rcases List.mem_cons.mp hmem with rfl | hmem
    · exact Worker.isFresh_of_factory hbuilt
    · cases List.mem_singleton.mp hmem
      exact Worker.isFresh_of_factory hbuilt
  have hregistered : m.registered = pair .fresh .fresh := rfl
  -- the two controllers begin one after the other, each at its first step
  have hfirst : (Workforce.start m false).step .empty 0
    = some (⟨.start 2, pair (.waiting none) .fresh⟩,
      Surroundings.empty.write 0 "sync" "run") := rfl
  have hsecond : Workforce.step ⟨.start 2, pair (.waiting none) .fresh⟩ .empty 0
    = some (⟨.start 2, pair (.waiting none) (.waiting none)⟩,
      Surroundings.empty.write 0 "audit" "run") := rfl
  have hrun : ManagerRun m ⟨.start 2, pair (.waiting none) (.waiting none)⟩ [0, 1] :=
    ((ManagerRun.start false).step hfirst).step hsecond
  obtain ⟨-, herror, hlast, hbegin⟩ := registered_begin_once choosyFactories hfresh choosyCalls
  obtain ⟨-, -, -, hidle, -⟩ := hbegin _ _ hrun
  exact ⟨hregistered, hlast, (herror .empty _ _ rfl).2, hrun, hidle .empty 0 rfl⟩

end Simulation

end Tenure
