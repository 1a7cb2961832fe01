import Mathlib.Algebra.Field.ZMod
import Mathlib.Tactic.IntervalCases
import Mathlib.Tactic.LinearCombination

/-!
# Points of an Edwards curve

A point of a twisted Edwards curve is determined by its second coordinate and by which of two
opposite numbers its first coordinate is.  In a prime field the two numbers differ in their parity,
so the second coordinate and one bit determine the point.
-/

namespace SunriseEdgeLedger.Foundation

section Field

variable {F : Type*} [Field F] {c e x x' y : F}

/-- The curve `y ^ 2 - x ^ 2 = 1 - (e / c) * (x ^ 2 * y ^ 2)`, multiplied by the denominator. -/
def OnEdwardsCurve (c e x y : F) : Prop := c * y ^ 2 + e * (x ^ 2 * y ^ 2) = c + c * x ^ 2

/-- The second coordinate never makes the factor of the square of the first one vanish. -/
theorem OnEdwardsCurve.factor_ne_zero (hc : c ≠ 0) (hce : e ≠ c) (hpoint : OnEdwardsCurve c e x y) :
    e * y ^ 2 - c ≠ 0 := by
  intro hfactor
  unfold OnEdwardsCurve at hpoint
  have hproduct : c * (y ^ 2 - 1) = 0 := by linear_combination hpoint - x ^ 2 * hfactor
  have hy : y ^ 2 - 1 = 0 := (mul_eq_zero.mp hproduct).resolve_left hc
  apply hce
  linear_combination hfactor - e * hy

/-- Points with the same second coordinate have the same first coordinate up to its sign. -/
theorem OnEdwardsCurve.eq_or_eq_neg (hc : c ≠ 0) (hce : e ≠ c) (hpoint : OnEdwardsCurve c e x y)
    (hpoint' : OnEdwardsCurve c e x' y) : x = x' ∨ x = -x' := by
  have hfactor := hpoint.factor_ne_zero hc hce
  unfold OnEdwardsCurve at hpoint hpoint'
  have hproduct : (x ^ 2 - x' ^ 2) * (e * y ^ 2 - c) = 0 := by
    linear_combination hpoint - hpoint'
  have hsquares : x ^ 2 - x' ^ 2 = 0 := (mul_eq_zero.mp hproduct).resolve_right hfactor
  exact sq_eq_sq_iff_eq_or_eq_neg.mp (sub_eq_zero.mp hsquares)

end Field

/-! ## Over a prime field -/

/-- Opposite numbers below an odd modulus have different parities, unless they are zero. -/
theorem eq_of_natCast_eq_or_eq_neg {modulus x x' : ℕ} (hodd : modulus % 2 = 1) (hx : x < modulus)
    (hx' : x' < modulus) (hparity : x % 2 = x' % 2)
    (hcases : (x : ZMod modulus) = x' ∨ (x : ZMod modulus) = -x') : x = x' := by
  rcases hcases with hequal | hopposite
  · rw [ZMod.natCast_eq_natCast_iff', Nat.mod_eq_of_lt hx, Nat.mod_eq_of_lt hx'] at hequal
    exact hequal
  · have hsum : ((x + x' : ℕ) : ZMod modulus) = 0 := by
      rw [Nat.cast_add, hopposite, neg_add_cancel]
    obtain ⟨quotient, hquotient⟩ := (ZMod.natCast_eq_zero_iff _ _).mp hsum
    have hbelow : modulus * quotient < modulus * 2 := by omega
    have hsmall : quotient < 2 := Nat.lt_of_mul_lt_mul_left hbelow
    interval_cases quotient <;> omega

end SunriseEdgeLedger.Foundation
