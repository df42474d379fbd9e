import Tenure.Number.Binary64

/-!
# `Tenure.Duration`: spans of time and instants

A duration is a whole number of nanoseconds. Its text names the largest unit
that leaves a whole part, with the fraction written without trailing zeros:
`90s`, `1.5s`, `100ms`, `1.2µs`, `1ns`. An instant is the duration since the
clock started; timers are kept in whole milliseconds, so one that is due within
a millisecond rings at its end (`Clock.ring`).

* `le_ring` and `ring_lt`: a timer rings at its instant or less than a
  millisecond later, never early.
* `ring_mono` and `ring_add_of_dvd`: a later timer rings no earlier, and one that
  is whole milliseconds later rings as much later.
-/

set_option autoImplicit false

namespace Tenure

/-- A span of time, in nanoseconds. -/
structure Duration where
  nanos : Nat
deriving Repr, DecidableEq, Inhabited, Ord

namespace Duration

instance : LT Duration := ⟨fun a b => a.nanos < b.nanos⟩
instance : LE Duration := ⟨fun a b => a.nanos ≤ b.nanos⟩
instance (a b : Duration) : Decidable (a < b) := inferInstanceAs (Decidable (a.nanos < b.nanos))
instance (a b : Duration) : Decidable (a ≤ b) := inferInstanceAs (Decidable (a.nanos ≤ b.nanos))
instance : Add Duration := ⟨fun a b => ⟨a.nanos + b.nanos⟩⟩

def zero : Duration := ⟨0⟩

def ofSecs (n : Nat) : Duration := ⟨n * 1000000000⟩

def ofMillis (n : Nat) : Duration := ⟨n * 1000000⟩

/-- The whole seconds of a duration. -/
def secs (d : Duration) : Nat := d.nanos / 1000000000

/-- The nanoseconds beyond the whole seconds. -/
def subsecNanos (d : Duration) : Nat := d.nanos % 1000000000

/-- The whole milliseconds of a duration. -/
def millis (d : Duration) : Nat := d.nanos / 1000000

/-- The digits of a fraction `part / 10 ^ width`, without trailing zeros. -/
def fractionDigits (part width : Nat) : List Char :=
  let digits := (Nat.toDigits 10 part)
  let padded := List.replicate (width - digits.length) '0' ++ digits
  (padded.reverse.dropWhile (· == '0')).reverse

/-- A whole part and a fraction of `width` decimal digits, in a unit. -/
def decimalText (whole part width : Nat) (unit : String) : String :=
  let fraction := if part = 0 then [] else fractionDigits part width
  let point := if fraction.isEmpty then "" else "." ++ String.ofList fraction
  toString whole ++ point ++ unit

/-- The text of a duration, in the largest unit that leaves a whole part. -/
def text (d : Duration) : String :=
  if 0 < d.secs then decimalText d.secs d.subsecNanos 9 "s"
  else if 1000000 ≤ d.nanos then decimalText (d.nanos / 1000000) (d.nanos % 1000000) 6 "ms"
  else if 1000 ≤ d.nanos then decimalText (d.nanos / 1000) (d.nanos % 1000) 3 "µs"
  else decimalText d.nanos 0 0 "ns"

/-- Seconds as a binary64 number: whole seconds and fraction are rounded each,
and so is their sum. -/
def asSecs (d : Duration) : Option Binary64 := do
  let whole ← Binary64.ofNat d.secs
  let nanos ← Binary64.ofNat d.subsecNanos
  let billion ← Binary64.ofNat 1000000000
  whole.addMagnitudes (← nanos.div billion)

/-- The duration nearest to a number of seconds, `none` when the whole seconds
need more than 64 bits. -/
def ofSecsNearest (x : Binary64) : Option Duration :=
  let (num, den) := x.magnitude
  let nanos := Binary64.roundHalfEven (num * 1000000000) den
  if nanos < UInt64.size * 1000000000 then some ⟨nanos⟩ else none

/-- A duration times a factor, computed in binary64 seconds and rounded to the
nearest nanosecond. -/
def scale (d : Duration) (factor : Binary64) : Option Duration := do
  ofSecsNearest (← factor.mul (← d.asSecs))

end Duration

/-! ### Instants

An instant is a natural number: the nanoseconds since the clock started. The clock of a system
ends at 2 ^ 63 seconds, and a program that asks for a later instant panics. Here there is no such
end, so what is shown of courses in which a duration leads that far is not what happens there.

Time is that of a clock which stands still while anything can be done without waiting. When
nothing can, it goes on to the next millisecond at which a timer rings, so it only ever shows whole
milliseconds after one at which it started. -/

namespace Clock

/-- The instant a duration later. There is always one, also where it lies behind the end of the
clock of a system. -/
def after (start : Nat) (d : Duration) : Nat := start + d.nanos

/-- When a timer set for an instant rings: at the end of its millisecond. It rings exactly then
because the clock shows every millisecond at which a timer rings; one that also moved by parts
of a millisecond, or that went on by itself, would be read later than that. -/
def ring (due : Nat) : Nat := (due + 999999) / 1000000 * 1000000

/-- Whether a timer set for `due` has rung by `now`. -/
def reached (due now : Nat) : Bool := decide (ring due ≤ now)

/-- A timer does not ring before its instant. -/
theorem le_ring (due : Nat) : due ≤ ring due := by unfold ring; omega

/-- It rings less than a millisecond after it. -/
theorem ring_lt (due : Nat) : ring due < due + 1000000 := by unfold ring; omega

/-- A timer set for a whole millisecond rings there. -/
theorem ring_of_dvd (due : Nat) (h : 1000000 ∣ due) : ring due = due := by
  obtain ⟨k, rfl⟩ := h; unfold ring; omega

/-- Of two timers the one that is set for later does not ring first. -/
theorem ring_mono {a b : Nat} (h : a ≤ b) : ring a ≤ ring b := by unfold ring; omega

/-- Whole milliseconds shift a timer by themselves. -/
theorem ring_add_of_dvd (a : Nat) {b : Nat} (h : 1000000 ∣ b) : ring (a + b) = ring a + b := by
  obtain ⟨k, rfl⟩ := h; unfold ring; omega

end Clock

/-- What the two clocks of a process show: the monotonic one, which measures
spans, and the wall clock, in milliseconds since its epoch, which only stamps
records and documents. -/
structure Moment where
  instant : Nat
  wall : Nat
deriving Repr, DecidableEq, Inhabited

end Tenure
