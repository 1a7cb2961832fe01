import Mathlib

/-!
# Fixed-width byte encodings of naturals

Little-endian and big-endian encodings of a natural number in a fixed number of bytes, with the
numeric value of a byte string given by `Nat.ofDigits` in base 256.  The two encodings are mirror
images, so every law of the big-endian one is the little-endian law after a reversal.
-/

namespace SunriseEdgeLedger.Foundation

/-- The number whose base-256 digits, least significant first, are the given bytes. -/
def ofLittleEndian (bytes : List UInt8) : ℕ :=
  Nat.ofDigits 256 (bytes.map UInt8.toNat)

/-- The `width` low bytes of a number, least significant first. -/
def toLittleEndian : ℕ → ℕ → List UInt8
  | 0, _ => []
  | width + 1, number => UInt8.ofNat number :: toLittleEndian width (number / 256)

/-- The number whose base-256 digits, most significant first, are the given bytes. -/
def ofBigEndian (bytes : List UInt8) : ℕ :=
  ofLittleEndian bytes.reverse

/-- The `width` low bytes of a number, most significant first. -/
def toBigEndian (width number : ℕ) : List UInt8 :=
  (toLittleEndian width number).reverse

@[simp]
theorem length_toLittleEndian (width number : ℕ) :
    (toLittleEndian width number).length = width := by
  induction width generalizing number with
  | zero => rfl
  | succ width ih => simp [toLittleEndian, ih]

@[simp]
theorem length_toBigEndian (width number : ℕ) : (toBigEndian width number).length = width := by
  simp [toBigEndian]

theorem ofLittleEndian_cons (byte : UInt8) (bytes : List UInt8) :
    ofLittleEndian (byte :: bytes) = byte.toNat + 256 * ofLittleEndian bytes := by
  simp [ofLittleEndian, Nat.ofDigits_cons]

@[simp]
theorem ofLittleEndian_singleton (byte : UInt8) : ofLittleEndian [byte] = byte.toNat := by
  simp [ofLittleEndian]

theorem ofLittleEndian_append (first second : List UInt8) :
    ofLittleEndian (first ++ second) =
      ofLittleEndian first + 256 ^ first.length * ofLittleEndian second := by
  rw [ofLittleEndian, List.map_append, Nat.ofDigits_append, List.length_map]
  rfl

theorem ofBigEndian_append_singleton (bytes : List UInt8) (last : UInt8) :
    ofBigEndian (bytes ++ [last]) = last.toNat + 256 * ofBigEndian bytes := by
  rw [ofBigEndian, List.reverse_append, List.reverse_singleton, List.singleton_append,
    ofLittleEndian_cons, ofBigEndian]

/-- Reading back the bytes of a number loses exactly the part above the width. -/
theorem ofLittleEndian_toLittleEndian (width number : ℕ) :
    ofLittleEndian (toLittleEndian width number) = number % 256 ^ width := by
  induction width generalizing number with
  | zero => simp [toLittleEndian, ofLittleEndian, Nat.mod_one]
  | succ width ih =>
    have hpow : 256 ^ (width + 1) = 256 * 256 ^ width := pow_succ' 256 width
    rw [toLittleEndian, ofLittleEndian_cons, ih, UInt8.toNat_ofNat', hpow, Nat.mod_mul]

theorem ofBigEndian_toBigEndian (width number : ℕ) :
    ofBigEndian (toBigEndian width number) = number % 256 ^ width := by
  rw [ofBigEndian, toBigEndian, List.reverse_reverse, ofLittleEndian_toLittleEndian]

/-- A byte string denotes a number below 256 to its length. -/
theorem ofLittleEndian_lt (bytes : List UInt8) : ofLittleEndian bytes < 256 ^ bytes.length := by
  have hdigits : ∀ digit ∈ bytes.map UInt8.toNat, digit < 256 := by
    intro digit hdigit
    obtain ⟨byte, -, rfl⟩ := List.mem_map.mp hdigit
    exact byte.toNat_lt
  simpa [ofLittleEndian] using Nat.ofDigits_lt_base_pow_length (by norm_num) hdigits

theorem ofBigEndian_lt (bytes : List UInt8) : ofBigEndian bytes < 256 ^ bytes.length := by
  simpa [ofBigEndian] using ofLittleEndian_lt bytes.reverse

/-- The largest number of its width is denoted by the byte string without a zero bit. -/
theorem ofLittleEndian_add_one_eq_iff (bytes : List UInt8) :
    ofLittleEndian bytes + 1 = 256 ^ bytes.length ↔ ∀ byte ∈ bytes, byte = 0xFF := by
  induction bytes with
  | nil => simp [ofLittleEndian]
  | cons byte bytes ih =>
    have hbyte : byte.toNat < 256 := byte.toNat_lt
    have hrest := ofLittleEndian_lt bytes
    have hfull : byte = 0xFF ↔ byte.toNat = 255 := UInt8.toNat_inj.symm
    rw [List.forall_mem_cons, ← ih, hfull, ofLittleEndian_cons, List.length_cons, pow_succ']
    omega

/-- Writing back the number a byte string denotes gives the byte string. -/
theorem toLittleEndian_ofLittleEndian (bytes : List UInt8) :
    toLittleEndian bytes.length (ofLittleEndian bytes) = bytes := by
  induction bytes with
  | nil => rfl
  | cons byte bytes ih =>
    have hbyte : byte.toNat < 256 := byte.toNat_lt
    rw [List.length_cons, toLittleEndian, ofLittleEndian_cons]
    congr 1
    · apply UInt8.toNat_inj.mp
      rw [UInt8.toNat_ofNat']
      omega
    · rw [show (byte.toNat + 256 * ofLittleEndian bytes) / 256 = ofLittleEndian bytes by omega]
      exact ih

theorem toBigEndian_ofBigEndian (bytes : List UInt8) :
    toBigEndian bytes.length (ofBigEndian bytes) = bytes := by
  have hreverse := toLittleEndian_ofLittleEndian bytes.reverse
  rw [List.length_reverse] at hreverse
  rw [toBigEndian, ofBigEndian, hreverse, List.reverse_reverse]

/-- Byte strings of one length are told apart by the numbers that they denote. -/
theorem ofLittleEndian_inj {first second : List UInt8} (hlength : first.length = second.length) :
    ofLittleEndian first = ofLittleEndian second ↔ first = second := by
  constructor
  · intro hnumbers
    calc
      first = toLittleEndian first.length (ofLittleEndian first) :=
        (toLittleEndian_ofLittleEndian first).symm
      _ = toLittleEndian second.length (ofLittleEndian second) := by rw [hlength, hnumbers]
      _ = second := toLittleEndian_ofLittleEndian second
  · rintro rfl
    rfl

theorem ofBigEndian_inj {first second : List UInt8} (hlength : first.length = second.length) :
    ofBigEndian first = ofBigEndian second ↔ first = second := by
  have hreverse : first.reverse.length = second.reverse.length := by
    rw [List.length_reverse, List.length_reverse, hlength]
  rw [ofBigEndian, ofBigEndian, ofLittleEndian_inj hreverse, List.reverse_inj]

/-- A byte string denotes a number of its width exactly when it is that number's encoding. -/
theorem ofLittleEndian_eq_iff (bytes : List UInt8) (number : ℕ)
    (hnumber : number < 256 ^ bytes.length) :
    ofLittleEndian bytes = number ↔ bytes = toLittleEndian bytes.length number := by
  constructor
  · rintro rfl
    exact (toLittleEndian_ofLittleEndian bytes).symm
  · intro hbytes
    rw [hbytes, ofLittleEndian_toLittleEndian, Nat.mod_eq_of_lt hnumber]

theorem ofBigEndian_eq_iff (bytes : List UInt8) (number : ℕ)
    (hnumber : number < 256 ^ bytes.length) :
    ofBigEndian bytes = number ↔ bytes = toBigEndian bytes.length number := by
  constructor
  · rintro rfl
    exact (toBigEndian_ofBigEndian bytes).symm
  · intro hbytes
    rw [hbytes, ofBigEndian_toBigEndian, Nat.mod_eq_of_lt hnumber]

/-- The highest bit of a word is clear exactly when the number is in the lower half. -/
theorem and_highest_eq_zero_iff {width number : ℕ} (hnumber : number < 2 ^ (width + 1)) :
    number &&& 2 ^ width = 0 ↔ number < 2 ^ width := by
  have hpow : 0 < 2 ^ width := by positivity
  rw [Nat.and_two_pow, mul_eq_zero, or_iff_left hpow.ne']
  constructor
  · intro hbit
    by_contra hlarge
    rw [Nat.testBit_of_two_pow_le_and_two_pow_add_one_gt (not_lt.mp hlarge) hnumber] at hbit
    exact one_ne_zero hbit
  · intro hsmall
    rw [Nat.testBit_lt_two_pow hsmall]
    rfl

/-- Setting the highest bit of a number in the lower half adds its weight. -/
theorem or_highest {width number : ℕ} (hnumber : number < 2 ^ width) :
    number ||| 2 ^ width = 2 ^ width + number := by
  have hor := Nat.two_pow_add_eq_or_of_lt hnumber 1
  rw [mul_one] at hor
  rw [hor, Nat.lor_comm]

end SunriseEdgeLedger.Foundation
