/-!
# `Tenure.Number.Binary64`: finite double-precision numbers, exactly

A finite binary64 number is a sign, a significand below `2 ^ 53` and an
exponent of at least `-1074`. Sums, products and quotients are taken as ratios
of natural numbers and rounded once, to the nearest number of the format; of
two equally near ones the one with the even significand is taken. A result too
large for the format is `none`.

* `two_mul_roundHalfEven`: the rounded quotient is within half a unit.
-/

set_option autoImplicit false

namespace Tenure

/-- A finite number of the binary64 format: `significand * 2 ^ exponent` with a
sign. The significand has 53 bits, fewer only at the smallest exponent. -/
structure Binary64 where
  negative : Bool
  significand : Nat
  exponent : Int
deriving Repr, DecidableEq, Inhabited

namespace Binary64

/-- The quotient of two natural numbers, rounded to the nearest whole number; a
half goes to the even neighbour. -/
def roundHalfEven (num den : Nat) : Nat :=
  let q := num / den
  let r := num % den
  if 2 * r < den then q
  else if den < 2 * r then q + 1
  else if q % 2 = 0 then q else q + 1

/-- The rounded quotient is at most half a unit away from the exact one, on either side. -/
theorem two_mul_roundHalfEven (num den : Nat) (h : 0 < den) :
    2 * num ≤ 2 * (roundHalfEven num den * den) + den
      ∧ 2 * (roundHalfEven num den * den) ≤ 2 * num + den := by
  have hd := Nat.div_add_mod num den
  have hm := Nat.mod_lt num h
  have hc : num / den * den = den * (num / den) := Nat.mul_comm _ _
  have hs : (num / den + 1) * den = den * (num / den) + den := by
    rw [Nat.add_mul, Nat.one_mul, hc]
  unfold roundHalfEven
  dsimp only
  split
  · rw [hc]; omega
  · split
    · rw [hs]; omega
    · split
      · rw [hc]; omega
      · rw [hs]; omega

/-- Zero, with either sign. -/
def zero (negative : Bool) : Binary64 := ⟨negative, 0, -1074⟩

/-- The ratio `num / den` scaled by `2 ^ (-e)`, as a ratio again. -/
def scaled (num den : Nat) (e : Int) : Nat × Nat :=
  if 0 ≤ e then (num, den <<< e.toNat) else (num <<< (-e).toNat, den)

/-- The least exponent, at least `-1074`, at which the ratio needs at most 53
bits before the point. -/
def exponentFor (num den : Nat) : Int :=
  let guess : Int := (num.log2 : Int) - (den.log2 : Int) - 53
  let (n, d) := scaled num den guess
  let e := if n / d < 1 <<< 53 then guess else guess + 1
  max e (-1074)

/-- The number of the format nearest to a ratio. -/
def ofRatio (negative : Bool) (num den : Nat) : Option Binary64 :=
  if num = 0 then some (zero negative)
  else
    let e := exponentFor num den
    let (n, d) := scaled num den e
    let q := roundHalfEven n d
    let (m, e) := if q = 1 <<< 53 then (1 <<< 52, e + 1) else (q, e)
    if 971 < e then none else some ⟨negative, m, e⟩

/-- The number nearest to a whole number. -/
def ofNat (n : Nat) : Option Binary64 := ofRatio false n 1

/-- The exact value without its sign, as a ratio. -/
def magnitude (x : Binary64) : Nat × Nat :=
  if 0 ≤ x.exponent then (x.significand <<< x.exponent.toNat, 1)
  else (x.significand, 1 <<< (-x.exponent).toNat)

/-- Whether the number is zero, of either sign. -/
def isZero (x : Binary64) : Bool := x.significand == 0

def neg (x : Binary64) : Binary64 := { x with negative := !x.negative }

def mul (x y : Binary64) : Option Binary64 :=
  let (a, b) := x.magnitude
  let (c, d) := y.magnitude
  ofRatio (x.negative != y.negative) (a * c) (b * d)

/-- The quotient of two numbers, the second of which is not zero. -/
def div (x y : Binary64) : Option Binary64 :=
  let (a, b) := x.magnitude
  let (c, d) := y.magnitude
  ofRatio (x.negative != y.negative) (a * d) (b * c)

/-- The sum of two numbers of positive sign. -/
def addMagnitudes (x y : Binary64) : Option Binary64 :=
  let (a, b) := x.magnitude
  let (c, d) := y.magnitude
  ofRatio false (a * d + c * b) (b * d)

/-- Equality of values: the two zeros are equal. -/
def sameValue (x y : Binary64) : Bool := (x.isZero && y.isZero) || x == y

/-- The 64 bits that stand for the number: sign, biased exponent, significand
without its leading bit. -/
def bits (x : Binary64) : Nat :=
  let sign := if x.negative then 1 <<< 63 else 0
  if x.significand < 1 <<< 52 then sign + x.significand
  else sign + ((x.exponent + 1075).toNat <<< 52) + (x.significand - 1 <<< 52)

end Binary64

end Tenure
