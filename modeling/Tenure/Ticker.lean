import Tenure.Duration

/-!
# `Tenure.Ticker`: ticks at regular intervals

A ticker ticks at once and then once every period. Whoever takes a tick late, by
more than five milliseconds, shifts the ticks that follow: the next one comes a
period after the late one.
-/

set_option autoImplicit false

namespace Tenure

/-- A ticker, and the instant of its next tick. -/
structure Ticker where
  period : Duration
  next : Nat
deriving Repr, DecidableEq, Inhabited

namespace Ticker

/-- A ticker that starts now. There is none without a period. -/
def start (period : Duration) (now : Nat) : Option Ticker :=
  if period.nanos = 0 then none else some ⟨period, now⟩

/-- Whether a tick can be taken. -/
def isDue (t : Ticker) (now : Nat) : Bool := Clock.reached t.next now

/-- How late a tick may be taken without a shift. -/
def tolerance : Duration := .ofMillis 5

/-- Takes a tick. -/
def take (t : Ticker) (now : Nat) : Ticker :=
  if Clock.after t.next tolerance < now then { t with next := Clock.after now t.period }
  else { t with next := Clock.after t.next t.period }

end Ticker

/-- What a ticker without a period breaks down with. -/
def Ticker.refusal : String := "`period` must be non-zero."

end Tenure
