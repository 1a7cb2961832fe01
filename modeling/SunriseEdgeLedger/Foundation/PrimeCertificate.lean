import Mathlib.NumberTheory.LucasPrimality
import Mathlib.Tactic.NormNum.Prime
import Mathlib.Tactic.LinearCombination

/-!
# Certified primes

A number is prime if some base has the largest possible order modulo the number.  A certificate
holds such a base and the primes that make up the number before it.  Its powers are computed by
repeated squaring, so that the certificate of a number with hundreds of bits is checked by
evaluation.
-/

namespace SunriseEdgeLedger.Foundation

/-- Multiply a product by a power, one binary digit of the exponent in each round. -/
def mulPowMod (modulus : ℕ) : ℕ → ℕ → ℕ → ℕ → ℕ
  | 0, product, _, _ => product
  | rounds + 1, product, base, exponent =>
    mulPowMod modulus rounds (if exponent % 2 = 1 then product * base % modulus else product)
      (base * base % modulus) (exponent / 2)

/-- A power modulo a number. -/
def powMod (modulus base exponent : ℕ) : ℕ :=
  mulPowMod modulus (exponent.log2 + 1) 1 base exponent % modulus

theorem cast_mulPowMod (modulus : ℕ) {rounds exponent : ℕ} (hrounds : exponent < 2 ^ rounds)
    (product base : ℕ) :
    (mulPowMod modulus rounds product base exponent : ZMod modulus) = product * base ^ exponent := by
  induction rounds generalizing product base exponent with
  | zero =>
    have hexponent : exponent = 0 := by omega
    rw [hexponent, mulPowMod, pow_zero, mul_one]
  | succ rounds ih =>
    have hhalf : exponent / 2 < 2 ^ rounds := by
      rw [pow_succ] at hrounds
      omega
    have hsquares : (base : ZMod modulus) ^ exponent =
        base ^ (exponent % 2) * (base * base) ^ (exponent / 2) := by
      rw [← sq, ← pow_mul, ← pow_add, Nat.mod_add_div]
    have hproduct : ((if exponent % 2 = 1 then product * base % modulus else product : ℕ) :
        ZMod modulus) = product * base ^ (exponent % 2) := by
      rcases Nat.mod_two_eq_zero_or_one exponent with heven | hodd
      · rw [heven, if_neg zero_ne_one, pow_zero, mul_one]
      · rw [hodd, if_pos rfl, ZMod.natCast_mod, Nat.cast_mul, pow_one]
    calc
      (mulPowMod modulus (rounds + 1) product base exponent : ZMod modulus) =
          ((if exponent % 2 = 1 then product * base % modulus else product : ℕ) : ZMod modulus) *
            ((base * base % modulus : ℕ) : ZMod modulus) ^ (exponent / 2) := ih hhalf _ _
      _ = product * base ^ (exponent % 2) * (base * base) ^ (exponent / 2) := by
        rw [hproduct, ZMod.natCast_mod, Nat.cast_mul]
      _ = product * base ^ exponent := by rw [hsquares, mul_assoc]

theorem cast_powMod (modulus base exponent : ℕ) :
    (powMod modulus base exponent : ZMod modulus) = (base : ZMod modulus) ^ exponent := by
  rw [powMod, ZMod.natCast_mod, cast_mulPowMod modulus Nat.lt_log2_self, Nat.cast_one, one_mul]

/-- Whether a power is one can be read off the computed power. -/
theorem pow_eq_one_iff_powMod {modulus : ℕ} (hmodulus : 2 ≤ modulus) (base exponent : ℕ) :
    (base : ZMod modulus) ^ exponent = 1 ↔ powMod modulus base exponent = 1 := by
  have hone : 1 % modulus = 1 := Nat.mod_eq_of_lt hmodulus
  rw [← cast_powMod, ← Nat.cast_one, ZMod.natCast_eq_natCast_iff', hone, powMod, Nat.mod_mod]

/-- A base with the largest possible order, and the primes that make up the number before. -/
structure PrimeCertificate (number : ℕ) where
  base : ℕ
  factors : List Nat.Primes
  prod_eq : (factors.map Subtype.val).prod + 1 = number
  power_eq : powMod number base (number - 1) = 1
  powers_ne : ∀ factor ∈ factors, powMod number base ((number - 1) / factor.1) ≠ 1

theorem PrimeCertificate.prime {number : ℕ} (certificate : PrimeCertificate number) :
    number.Prime := by
  obtain ⟨base, factors, hprod, hpower, hpowers⟩ := certificate
  have hprime : ∀ factor ∈ factors.map Subtype.val, factor.Prime := by
    intro factor hfactor
    obtain ⟨certified, -, rfl⟩ := List.mem_map.mp hfactor
    exact certified.2
  have hnumber : 2 ≤ number := by
    have hpos : 0 < (factors.map Subtype.val).prod :=
      List.prod_pos fun factor hfactor ↦ (hprime factor hfactor).pos
    omega
  apply lucas_primality number base
  · exact (pow_eq_one_iff_powMod hnumber _ _).mpr hpower
  · intro divisor hdivisor hdvd
    -- A prime divisor is one of the factors.
    have hmem : divisor ∈ factors.map Subtype.val := by
      rw [← hprod, Nat.add_sub_cancel] at hdvd
      exact mem_list_primes_of_dvd_prod hdivisor.prime
        (fun factor hfactor ↦ (hprime factor hfactor).prime) hdvd
    obtain ⟨factor, hfactor, rfl⟩ := List.mem_map.mp hmem
    exact (pow_eq_one_iff_powMod hnumber _ _).not.mpr (hpowers factor hfactor)

end SunriseEdgeLedger.Foundation
