import Mathlib.Algebra.Order.Field.Power
import Mathlib.Data.Rat.Cast.Order
import Mathlib.Tactic.FieldSimp
import Mathlib.Tactic.Linarith
import Mathlib.Tactic.Positivity
import Mathlib.Tactic.Ring
import Tenure.Leader.Timing

/-!
# `Tenure.Proofs.Number.Rounding`: what rounding can take away

A sum, product or quotient of binary64 numbers is rounded once. Unless it is tiny
the result has at least six bits, so rounding takes away less than a hundredth
and twenty-eighth of it. That is a crude bound, and enough to see that a retry
period stretched by the jitter factor is not shorter than before: an accepted
timing has its retry period below the renew deadline.

* `Binary64.ofRatio_value_ge`: a rounded ratio is at least `127 / 128` of it.
* `Duration.le_scale_jitterFactor`: stretching does not make a duration shorter.
* `Timing.retry_lt_renew_of_check`: an accepted retry period is below the renew
  deadline.
-/

set_option autoImplicit false

namespace Tenure

namespace Binary64

/-- The exact value without its sign. -/
def value (x : Binary64) : ℚ := x.magnitude.1 / x.magnitude.2

/-- The magnitude of a number has a denominator. -/
theorem magnitude_pos (x : Binary64) : 0 < x.magnitude.2 := by
  unfold magnitude
  split
  · exact Nat.one_pos
  · rw [Nat.one_shiftLeft]
    exact Nat.two_pow_pos _

/-- The value of a number is its significand scaled by its exponent. -/
theorem value_eq (x : Binary64) : x.value = x.significand * (2 : ℚ) ^ x.exponent := by
  unfold value magnitude
  simp only [Nat.shiftLeft_eq, Nat.one_mul]
  split
  · rename_i he
    have hpow : (2 : ℚ) ^ x.exponent = 2 ^ x.exponent.toNat := by
      rw [← zpow_natCast, Int.toNat_of_nonneg he]
    rw [hpow]
    push_cast
    ring
  · rename_i he
    have hneg : x.exponent = -((-x.exponent).toNat : ℤ) := by omega
    generalize (-x.exponent).toNat = k at hneg ⊢
    rw [hneg, zpow_neg, zpow_natCast]
    push_cast
    rw [div_eq_mul_inv]

variable {num den : Nat}

/-- Scaling keeps a denominator. -/
theorem scaled_pos (e : ℤ) (hden : 0 < den) : 0 < (scaled num den e).2 := by
  unfold scaled
  split
  · rw [Nat.shiftLeft_eq]
    exact Nat.mul_pos hden (Nat.two_pow_pos _)
  · exact hden

/-- Scaling a ratio divides it by the power of two. -/
theorem scaled_eq (num den : Nat) (e : ℤ) :
    ((scaled num den e).1 : ℚ) / (scaled num den e).2 = num / den * (2 : ℚ) ^ (-e) := by
  unfold scaled
  simp only [Nat.shiftLeft_eq]
  split
  · rename_i he
    have hpow : (2 : ℚ) ^ (-e) = (2 ^ e.toNat)⁻¹ := by
      rw [zpow_neg, ← zpow_natCast, Int.toNat_of_nonneg he]
    rw [hpow]
    push_cast
    rw [div_mul_eq_div_div, div_eq_mul_inv]
  · rename_i he
    have hpow : (2 : ℚ) ^ (-e) = 2 ^ (-e).toNat := by
      rw [← zpow_natCast, Int.toNat_of_nonneg (by omega)]
    rw [hpow]
    push_cast
    ring

/-- The exponent is the least one of the format, or leaves 52 bits at least. -/
theorem exponentFor_le (num den : Nat) :
    exponentFor num den = -1074 ∨ exponentFor num den ≤ (num.log2 : ℤ) - den.log2 - 52 := by
  unfold exponentFor
  dsimp only
  split
  · omega
  · omega

/-- A ratio that is not tiny keeps six bits before the point. -/
theorem le_scaled_exponentFor (hnum : 0 < num) (hden : 0 < den) (htiny : den ≤ num * 2 ^ 100) :
    (64 : ℚ) ≤ num / den * (2 : ℚ) ^ (-exponentFor num den) := by
  have hden' : (0 : ℚ) < den := by exact_mod_cast hden
  -- the exponent is the least one, or it leaves a significand of more than fifty bits
  rcases exponentFor_le num den with he | he
  · rw [he]
    have hle : (den : ℚ) ≤ num * 2 ^ 100 := by exact_mod_cast htiny
    -- the ratio is not tiny, so the least exponent leaves bits enough
    have hone : 1 ≤ num / den * (2 : ℚ) ^ (100 : ℤ) := by
      rw [div_mul_eq_mul_div, le_div_iff₀ hden']
      simpa using hle
    have hpow : (2 : ℚ) ^ (100 : ℤ) * 64 ≤ (2 : ℚ) ^ (-(-1074) : ℤ) := by
      calc (2 : ℚ) ^ (100 : ℤ) * 64 = (2 : ℚ) ^ (106 : ℤ) := by norm_num
        _ ≤ _ := zpow_le_zpow_right₀ (by norm_num) (by norm_num)
    calc (64 : ℚ) ≤ num / den * (2 : ℚ) ^ (100 : ℤ) * 64 := by linarith
      _ = num / den * ((2 : ℚ) ^ (100 : ℤ) * 64) := by ring
      _ ≤ num / den * (2 : ℚ) ^ (-(-1074) : ℤ) := by gcongr
  · have hn : (2 : ℚ) ^ num.log2 ≤ num := by exact_mod_cast Nat.log2_self_le hnum.ne'
    have hd : (den : ℚ) ≤ 2 ^ (den.log2 + 1) := by exact_mod_cast Nat.lt_log2_self.le
    -- the ratio is at least the quotient of the powers of two around its parts
    have hratio : (2 : ℚ) ^ ((num.log2 : ℤ) - den.log2 - 1) ≤ num / den := by
      rw [le_div_iff₀ hden']
      calc (2 : ℚ) ^ ((num.log2 : ℤ) - den.log2 - 1) * den
          ≤ (2 : ℚ) ^ ((num.log2 : ℤ) - den.log2 - 1) * 2 ^ (den.log2 + 1) := by gcongr
        _ = (2 : ℚ) ^ num.log2 := by
            rw [← zpow_natCast, ← zpow_natCast, ← zpow_add₀ (by norm_num)]
            congr 1
            push_cast
            ring
        _ ≤ num := hn
    calc (64 : ℚ) ≤ (2 : ℚ) ^ (51 : ℤ) := by norm_num
      _ ≤ (2 : ℚ) ^ ((num.log2 : ℤ) - den.log2 - 1 + -exponentFor num den) :=
          zpow_le_zpow_right₀ (by norm_num) (by omega)
      _ = (2 : ℚ) ^ ((num.log2 : ℤ) - den.log2 - 1) * (2 : ℚ) ^ (-exponentFor num den) :=
          zpow_add₀ (by norm_num) _ _
      _ ≤ num / den * (2 : ℚ) ^ (-exponentFor num den) := by gcongr

/-- Rounding a quotient takes away half a unit at most. -/
theorem le_roundHalfEven (n d : Nat) (hd : 0 < d) : (n : ℚ) / d - 1 / 2 ≤ roundHalfEven n d := by
  have h := (two_mul_roundHalfEven n d hd).1
  have hd' : (0 : ℚ) < d := by exact_mod_cast hd
  have h' : (2 : ℚ) * n ≤ 2 * (roundHalfEven n d * d) + d := by exact_mod_cast h
  have hle : (n : ℚ) / d ≤ roundHalfEven n d + 1 / 2 := by
    rw [div_le_iff₀ hd']
    linarith
  linarith

/-- The significand to which a ratio is rounded at an exponent. -/
def significandAt (num den : Nat) (e : ℤ) : Nat :=
  roundHalfEven (scaled num den e).1 (scaled num den e).2

/-- Rounding to the nearest significand loses half a unit at most. -/
theorem le_significandAt (num : Nat) (e : ℤ) (hden : 0 < den) :
    num / den * (2 : ℚ) ^ (-e) - 1 / 2 ≤ significandAt num den e := by
  rw [← scaled_eq]
  exact le_roundHalfEven _ _ (scaled_pos e hden)

/-- A ratio that is not zero is rounded at its exponent. A significand that has
become too long is halved, with the same value. -/
theorem ofRatio_value_eq {negative : Bool} {x : Binary64} (hnum : num ≠ 0)
    (h : ofRatio negative num den = some x) :
    x.value = significandAt num den (exponentFor num den) * (2 : ℚ) ^ exponentFor num den := by
  rw [significandAt]
  simp only [ofRatio, if_neg hnum] at h
  generalize scaled num den (exponentFor num den) = ratio at h ⊢
  obtain ⟨n, d⟩ := ratio
  generalize exponentFor num den = e at h ⊢
  simp only at h ⊢
  generalize roundHalfEven n d = q at h ⊢
  rw [value_eq]
  by_cases hq : q = 1 <<< 53
  · -- the significand is a power of two, so halving it is exact
    simp only [if_pos hq] at h
    split at h <;> cases h
    rw [zpow_add₀ (by norm_num), hq, Nat.one_shiftLeft, Nat.one_shiftLeft]
    push_cast
    ring
  · simp only [if_neg hq] at h
    split at h <;> cases h
    rfl

/-- A ratio is zero or not tiny. -/
def IsPlain (r : ℚ) : Prop := r = 0 ∨ 1 / 2 ^ 100 ≤ r

/-- A rounded ratio is at least `127 / 128` of it, unless the ratio is tiny. -/
theorem ofRatio_value_ge {negative : Bool} {x : Binary64} (hden : 0 < den)
    (hplain : IsPlain (num / den)) (h : ofRatio negative num den = some x) :
    127 / 128 * ((num : ℚ) / den) ≤ x.value := by
  have hden' : (0 : ℚ) < den := by exact_mod_cast hden
  by_cases hnum : num = 0
  · simp only [ofRatio, if_pos hnum, Option.some.injEq] at h
    rw [value_eq, ← h, hnum]
    simp [zero]
  · have hratio : (num : ℚ) / den ≠ 0 := div_ne_zero (by exact_mod_cast hnum) hden'.ne'
    have htiny : den ≤ num * 2 ^ 100 := by
      have hle := hplain.resolve_left hratio
      rw [div_le_div_iff₀ (by positivity) hden'] at hle
      have hle : (den : ℚ) ≤ num * 2 ^ 100 := by linarith
      exact_mod_cast hle
    -- half a unit of a significand of six bits or more is less than a part in 128
    have hbits := le_scaled_exponentFor (Nat.pos_of_ne_zero hnum) hden htiny
    have hround := le_significandAt num (exponentFor num den) hden
    rw [ofRatio_value_eq hnum h]
    generalize exponentFor num den = e at hround hbits ⊢
    have hq : 127 / 128 * (num / den * (2 : ℚ) ^ (-e)) ≤ significandAt num den e := by linarith
    calc 127 / 128 * ((num : ℚ) / den)
        = 127 / 128 * (num / den * (2 : ℚ) ^ (-e)) * (2 : ℚ) ^ e := by
          rw [mul_assoc, mul_assoc, ← zpow_add₀ (by norm_num)]
          simp
      _ ≤ significandAt num den e * (2 : ℚ) ^ e := by gcongr

variable {x y z : Binary64}

/-- A value without its sign is not negative. -/
theorem value_nonneg (x : Binary64) : 0 ≤ x.value := by
  unfold value
  positivity

/-- A natural number loses less than a part in 128 by becoming a number of the format. -/
theorem ofNat_value_ge {n : Nat} (h : ofNat n = some x) : 127 / 128 * (n : ℚ) ≤ x.value := by
  have hplain : IsPlain ((n : ℚ) / (1 : Nat)) := by
    rcases Nat.eq_zero_or_pos n with rfl | hn
    · exact .inl (by simp)
    · have hone : (1 : ℚ) ≤ n := by exact_mod_cast hn
      refine .inr ?_
      simp only [Nat.cast_one, div_one]
      linarith
  simpa using ofRatio_value_ge Nat.one_pos hplain h

/-- A product that is not tiny loses less than a part in 128. -/
theorem mul_value_ge (hplain : IsPlain (x.value * y.value)) (h : x.mul y = some z) :
    127 / 128 * (x.value * y.value) ≤ z.value := by
  have hratio : ((x.magnitude.1 * y.magnitude.1 : Nat) : ℚ) / (x.magnitude.2 * y.magnitude.2 : Nat)
      = x.value * y.value := by
    unfold value
    push_cast
    rw [div_mul_div_comm]
  rw [← hratio] at hplain ⊢
  exact ofRatio_value_ge (Nat.mul_pos x.magnitude_pos y.magnitude_pos) hplain h

/-- A quotient that is not tiny loses less than a part in 128. -/
theorem div_value_ge (hy : 0 < y.magnitude.1) (hplain : IsPlain (x.value / y.value))
    (h : x.div y = some z) : 127 / 128 * (x.value / y.value) ≤ z.value := by
  have hratio : ((x.magnitude.1 * y.magnitude.2 : Nat) : ℚ) / (x.magnitude.2 * y.magnitude.1 : Nat)
      = x.value / y.value := by
    unfold value
    push_cast
    rw [div_div_div_eq]
  rw [← hratio] at hplain ⊢
  exact ofRatio_value_ge (Nat.mul_pos x.magnitude_pos hy) hplain h

/-- A sum that is not tiny loses less than a part in 128. -/
theorem addMagnitudes_value_ge (hplain : IsPlain (x.value + y.value))
    (h : x.addMagnitudes y = some z) : 127 / 128 * (x.value + y.value) ≤ z.value := by
  have hx : (x.magnitude.2 : ℚ) ≠ 0 := by exact_mod_cast x.magnitude_pos.ne'
  have hy : (y.magnitude.2 : ℚ) ≠ 0 := by exact_mod_cast y.magnitude_pos.ne'
  have hratio : ((x.magnitude.1 * y.magnitude.2 + y.magnitude.1 * x.magnitude.2 : Nat) : ℚ)
      / (x.magnitude.2 * y.magnitude.2 : Nat) = x.value + y.value := by
    unfold value
    push_cast
    rw [div_add_div _ _ hx hy]
    ring
  rw [← hratio] at hplain ⊢
  exact ofRatio_value_ge (Nat.mul_pos x.magnitude_pos y.magnitude_pos) hplain h

end Binary64

namespace Duration

open Binary64 Leader

/-- A billion, as a number of the format. -/
def billion : Binary64 := ⟨false, 8388608000000000, -23⟩

/-- A billion is a number of the format. -/
theorem ofNat_billion : Binary64.ofNat 1000000000 = some billion := by decide +kernel

/-- A billion is represented exactly. -/
theorem billion_value : billion.value = 1000000000 := by
  simp only [value_eq, billion]
  norm_num

/-- The seconds of a part of a second that is not zero, or zero. -/
theorem isPlain_part {n : Nat} {x : Binary64} (h : Binary64.ofNat n = some x) :
    IsPlain (x.value / billion.value) := by
  rw [billion_value]
  rcases Nat.eq_zero_or_pos n with rfl | hn
  · obtain rfl : Binary64.zero false = x := by simpa [Binary64.ofNat, ofRatio] using h
    exact .inl (by simp [value_eq, Binary64.zero])
  · have hone : (1 : ℚ) ≤ n := by exact_mod_cast hn
    have hx := ofNat_value_ge h
    refine .inr ?_
    rw [div_le_div_iff₀ (by norm_num) (by norm_num)]
    norm_num
    linarith

/-- Seconds as a binary64 number lose a small part at most. -/
theorem asSecs_value_ge {d : Duration} {x : Binary64} (hd : 0 < d.nanos)
    (h : d.asSecs = some x) : (127 / 128) ^ 3 * ((d.nanos : ℚ) / 1000000000) ≤ x.value := by
  simp only [asSecs, ofNat_billion, Option.bind_eq_bind, Option.bind_eq_some_iff,
    Option.some.injEq, exists_eq_left'] at h
  obtain ⟨whole, hwhole, part, hpart, quotient, hquotient, hsum⟩ := h
  have hsecs := ofNat_value_ge hwhole
  have hnanos := ofNat_value_ge hpart
  have hdiv := div_value_ge (by decide) (isPlain_part hpart) hquotient
  rw [billion_value] at hdiv
  have hsplit : (d.nanos : ℚ) = d.secs * 1000000000 + d.subsecNanos := by
    unfold secs subsecNanos
    exact_mod_cast (Nat.div_add_mod' d.nanos 1000000000).symm
  -- the whole seconds lose once, the fraction twice, and their sum once more
  have hlow : (127 / 128) ^ 2 * ((d.nanos : ℚ) / 1000000000) ≤ whole.value + quotient.value := by
    have hwhole0 : (0 : ℚ) ≤ d.secs := Nat.cast_nonneg _
    rw [hsplit]
    linarith
  have hone : (1 : ℚ) ≤ d.nanos := by exact_mod_cast hd
  have hplain : IsPlain (whole.value + quotient.value) := by
    refine .inr (le_trans ?_ hlow)
    norm_num
    linarith
  have hadd := addMagnitudes_value_ge hplain hsum
  linarith

/-- Stretching a duration by the jitter factor does not make it shorter. -/
theorem le_scale_jitterFactor {d s : Duration} (h : d.scale Timing.jitterFactor = some s) :
    d ≤ s := by
  show d.nanos ≤ s.nanos
  rcases Nat.eq_zero_or_pos d.nanos with hzero | hd
  · omega
  simp only [scale, Option.bind_eq_bind, Option.bind_eq_some_iff] at h
  obtain ⟨secs, hsecs, product, hproduct, hnearest⟩ := h
  have hlow := asSecs_value_ge hd hsecs
  have hone : (1 : ℚ) ≤ d.nanos := by exact_mod_cast hd
  have hfactor : (119 / 100 : ℚ) ≤ Timing.jitterFactor.value := by
    simp only [value_eq, Timing.jitterFactor]
    norm_num
  have hfactored : 119 / 100 * secs.value ≤ Timing.jitterFactor.value * secs.value :=
    mul_le_mul_of_nonneg_right hfactor secs.value_nonneg
  have hplain : IsPlain (Timing.jitterFactor.value * secs.value) := by
    refine .inr (le_trans ?_ hfactored)
    norm_num
    linarith
  have hmul := mul_value_ge hplain hproduct
  have hstretched : (d.nanos : ℚ) / 1000000000 ≤ product.value := by linarith
  -- rounding to nanoseconds takes away half of one, and both are whole
  have hround := le_roundHalfEven (product.magnitude.1 * 1000000000) _ product.magnitude_pos
  have hnanos : s.nanos = roundHalfEven (product.magnitude.1 * 1000000000) product.magnitude.2 := by
    simp only [ofSecsNearest] at hnearest
    split at hnearest <;> cases hnearest
    rfl
  rw [← hnanos] at hround
  have hvalue : ((product.magnitude.1 * 1000000000 : Nat) : ℚ) / product.magnitude.2
      = product.value * 1000000000 := by
    unfold value
    push_cast
    ring
  rw [hvalue] at hround
  have hlt : (d.nanos : ℚ) < s.nanos + 1 := by linarith
  exact Nat.lt_succ_iff.mp (by exact_mod_cast hlt)

end Duration

/-- The retry period of an accepted timing is below its renew deadline. -/
theorem Leader.Timing.retry_lt_renew_of_check {lease renew retry : Duration} {t : Leader.Timing}
    (h : Leader.Timing.check lease renew retry = .ok t) : t.retryPeriod < t.renewDeadline := by
  obtain ⟨rfl, -, -, -, stretched, hscale, hlt⟩ := Leader.Timing.check_ok h
  have hle : retry.nanos ≤ stretched.nanos := Duration.le_scale_jitterFactor hscale
  exact Nat.lt_of_le_of_lt hle hlt

end Tenure
