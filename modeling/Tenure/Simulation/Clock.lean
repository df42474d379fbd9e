import Tenure.Duration

/-!
# `Tenure.Simulation.Clock`: time that passes when nothing else can

A world takes steps without delay as long as it can take any. When it cannot,
its clock jumps to the next instant for which a timer is set. `runTo` lets a
world live up to an instant, `runUntil` also stops when a condition holds.

* `runTo_now`: afterwards its clock shows that instant.
-/

set_option autoImplicit false

namespace Tenure.Simulation

/-- A world whose clock can be moved. -/
class World (σ : Type) where
  /-- What the clock shows. -/
  now : σ → Nat
  /-- Moves the clock. -/
  moveTo : σ → Nat → σ
  now_moveTo : ∀ w t, now (moveTo w t) = t
  /-- A step that can be taken without delay. -/
  step : σ → Option σ
  /-- The earliest instant for which a timer is set. -/
  due : σ → Option Nat

variable {σ : Type} [World σ]

/-- Takes steps until none is left, at most a number of them. -/
def settle : Nat → σ → σ
  | 0, w => w
  | fuel + 1, w =>
    match World.step w with
    | none => w
    | some next => settle fuel next

/-- How many steps a world may take without delay. -/
def stepLimit : Nat := 100000

/-- Lets a world live up to an instant, or until a condition holds, with a bound
on how often the clock may jump. -/
def live (stop : σ → Bool) : Nat → Nat → σ → σ
  | 0, limit, w => World.moveTo w limit
  | fuel + 1, limit, w =>
    let w := settle stepLimit w
    if stop w then w
    else match World.due w with
      | none => World.moveTo w limit
      | some wake =>
        let next := Clock.ring wake
        if World.now w < next && next ≤ limit then live stop fuel limit (World.moveTo w next)
        else World.moveTo w limit

/-- Lets a world live up to an instant, or until a condition holds. Every jump of
its clock takes a millisecond at least, which bounds their number. -/
def runUntil (stop : σ → Bool) (limit : Nat) (w : σ) : σ :=
  live stop ((limit - World.now w) / 1000000 + 2) limit w

/-- Lets a world live up to an instant. -/
def runTo (limit : Nat) (w : σ) : σ := runUntil (fun _ => false) limit w

/-- Lets a world live until a condition holds or up to a limit, and interrupts it
at an instant, if there is one. An interruption at once comes before anything
else. -/
def runInterrupted (stop : σ → Bool) (interruption : Option Nat) (interrupt : σ → σ) (limit : Nat)
    (w : σ) : σ :=
  match interruption with
  | none => runUntil stop limit w
  | some instant =>
    let w := if World.now w < instant then runUntil stop (min instant limit) w else w
    if stop w then w else runUntil stop limit (interrupt w)

/-- Lets a world live up to an instant, unless it has come. -/
def reach (instant : Nat) (w : σ) : σ := if World.now w < instant then runTo instant w else w

/-- Lets a world live for one more millisecond. -/
def linger (w : σ) : σ := runTo (World.now w + 1000000) w

/-- A world that was run up to an instant is at that instant, however many steps it could take. -/
theorem live_now (fuel limit : Nat) (w : σ) :
    World.now (live (fun _ => false) fuel limit w) = limit := by
  induction fuel generalizing w with
  | zero => exact World.now_moveTo _ _
  | succ fuel ih =>
    unfold live
    simp only [Bool.false_eq_true, if_false]
    split
    · exact World.now_moveTo _ _
    · split
      · exact ih _
      · exact World.now_moveTo _ _

/-- A world that was run up to an instant is there. -/
theorem runTo_now (limit : Nat) (w : σ) : World.now (runTo limit w) = limit := live_now _ _ _

/-- The earlier of two instants, if there are any. -/
def earlier : Option Nat → Option Nat → Option Nat
  | none, b => b
  | a, none => a
  | some a, some b => some (min a b)

/-- The earliest of some instants, if there are any. -/
def earliest (instants : List (Option Nat)) : Option Nat := instants.foldl earlier none

end Tenure.Simulation
