import Mathlib

/-!
# Decimal and hexadecimal text

Numbers in decimal digits and byte strings in pairs of hexadecimal digits, both as ASCII text.  A
decimal text has no leading zero, and a byte always takes two characters, so in both notations a
text is read back to the only value that is written as it.
-/

namespace SunriseEdgeLedger.Foundation

/-- The ASCII character of a decimal digit. -/
def decimalDigit (digit : ℕ) : UInt8 := UInt8.ofNat (48 + digit)

/-- The decimal digits of a number, the least significant first; no digits for zero. -/
def decimalDigits (number : ℕ) : List UInt8 := (Nat.digits 10 number).map decimalDigit

/-- A number in decimal notation. -/
def decimalText (number : ℕ) : List UInt8 :=
  if number = 0 then [decimalDigit 0] else (decimalDigits number).reverse

/-- The number that a decimal text denotes. -/
def decimalValue (text : List UInt8) : ℕ :=
  Nat.ofDigits 10 (text.reverse.map fun character ↦ character.toNat - 48)

theorem toNat_decimalDigit {digit : ℕ} (hdigit : digit < 10) :
    (decimalDigit digit).toNat = 48 + digit := by
  rw [decimalDigit, UInt8.toNat_ofNat', Nat.mod_eq_of_lt (by omega)]

theorem decimalDigits_zero : decimalDigits 0 = [] := by simp [decimalDigits]

/-- The digits of a positive number are its last digit and the digits of the rest. -/
theorem decimalDigits_of_pos {number : ℕ} (hpos : 0 < number) :
    decimalDigits number = decimalDigit (number % 10) :: decimalDigits (number / 10) := by
  rw [decimalDigits, Nat.digits_def' (by norm_num) hpos, List.map_cons]
  rfl

theorem length_decimalDigits_le {number width : ℕ} (hnumber : number < 10 ^ width) :
    (decimalDigits number).length ≤ width := by
  rw [decimalDigits, List.length_map]
  exact (Nat.digits_length_le_iff (by norm_num) _).mpr hnumber

/-- The digits denote the number that they were taken from. -/
theorem ofDigits_decimalDigits (number : ℕ) :
    Nat.ofDigits 10 ((decimalDigits number).map fun character ↦ character.toNat - 48) = number := by
  have hread : ((Nat.digits 10 number).map decimalDigit).map
      (fun character ↦ character.toNat - 48) = Nat.digits 10 number := by
    rw [List.map_map]
    refine (List.map_congr_left ?_).trans (List.map_id _)
    intro digit hdigit
    have hvalue := toNat_decimalDigit (Nat.digits_lt_base (by norm_num) hdigit)
    change (decimalDigit digit).toNat - 48 = digit
    rw [hvalue, Nat.add_sub_cancel_left]
  rw [decimalDigits, hread, Nat.ofDigits_digits]

/-- Reading undoes writing. -/
theorem decimalValue_decimalText (number : ℕ) : decimalValue (decimalText number) = number := by
  unfold decimalText decimalValue
  split_ifs with hzero
  · rw [hzero]
    rfl
  · rw [List.reverse_reverse, ofDigits_decimalDigits]

theorem decimalText_injective : Function.Injective decimalText :=
  Function.LeftInverse.injective decimalValue_decimalText

theorem length_decimalText_le {number width : ℕ} (hwidth : 0 < width)
    (hnumber : number < 10 ^ width) : (decimalText number).length ≤ width := by
  unfold decimalText
  split_ifs
  · exact hwidth
  · rw [List.length_reverse]
    exact length_decimalDigits_le hnumber

/-- Every character of a decimal text is a decimal digit. -/
theorem exists_decimalDigit_of_mem {number : ℕ} {character : UInt8}
    (hcharacter : character ∈ decimalText number) :
    ∃ digit, digit < 10 ∧ character = decimalDigit digit := by
  unfold decimalText at hcharacter
  split_ifs at hcharacter
  · exact ⟨0, by norm_num, List.mem_singleton.mp hcharacter⟩
  · obtain ⟨digit, hdigit, rfl⟩ := List.mem_map.mp (List.mem_reverse.mp hcharacter)
    exact ⟨digit, Nat.digits_lt_base (by norm_num) hdigit, rfl⟩

/-- A one-digit number is written as its digit. -/
theorem decimalText_of_lt {number : ℕ} (hnumber : number < 10) :
    decimalText number = [decimalDigit number] := by
  unfold decimalText
  split_ifs with hzero
  · rw [hzero]
  · rw [decimalDigits_of_pos (Nat.pos_of_ne_zero hzero), Nat.mod_eq_of_lt hnumber,
      Nat.div_eq_of_lt hnumber, decimalDigits_zero, List.reverse_singleton]

/-- The last digit of a longer number stands behind the other digits. -/
theorem decimalText_of_le {number : ℕ} (hnumber : 10 ≤ number) :
    decimalText number = decimalText (number / 10) ++ [decimalDigit (number % 10)] := by
  have hpos : 0 < number := by omega
  have hquotient : number / 10 ≠ 0 := by omega
  rw [decimalText, decimalText, if_neg hpos.ne', if_neg hquotient, decimalDigits_of_pos hpos,
    List.reverse_cons]

theorem ofNat_decimalDigit {digit : ℕ} (hdigit : digit < 10) :
    Char.ofNat (decimalDigit digit).toNat = Nat.digitChar digit := by
  interval_cases digit <;> rfl

/-- Decimal text is the decimal representation of the number. -/
theorem map_decimalText (number : ℕ) :
    (decimalText number).map (fun character ↦ Char.ofNat character.toNat) =
      Nat.toDigits 10 number := by
  induction number using Nat.strong_induction_on with
  | _ number ih =>
    by_cases hnumber : number < 10
    · rw [decimalText_of_lt hnumber, Nat.toDigits_of_lt_base hnumber, List.map_singleton,
        ofNat_decimalDigit hnumber]
    · have hlarge : 10 ≤ number := not_lt.mp hnumber
      rw [decimalText_of_le hlarge, Nat.toDigits_of_base_le (by norm_num) hlarge, List.map_append,
        ih (number / 10) (by omega), List.map_singleton,
        ofNat_decimalDigit (Nat.mod_lt number (by norm_num))]

/-- Only the representation of zero starts with the digit zero. -/
theorem eq_zero_of_head?_toDigits {number : ℕ}
    (hhead : (Nat.toDigits 10 number).head? = some '0') : number = 0 := by
  induction number using Nat.strong_induction_on with
  | _ number ih =>
    by_cases hnumber : number < 10
    · rw [Nat.toDigits_of_lt_base hnumber] at hhead
      interval_cases number <;> first | rfl | exact absurd hhead (by decide)
    · have hlarge : 10 ≤ number := not_lt.mp hnumber
      rw [Nat.toDigits_of_base_le (by norm_num) hlarge,
        List.head?_append_of_ne_nil _ Nat.toDigits_ne_nil] at hhead
      have hquotient := ih (number / 10) (by omega) hhead
      omega

/-! ## Hexadecimal text -/

theorem toNat_shiftRight_four (byte : UInt8) : (byte >>> 4).toNat = byte.toNat / 16 := by
  rw [UInt8.toNat_shiftRight]
  exact Nat.shiftRight_eq_div_pow byte.toNat 4

theorem toNat_and_fifteen (byte : UInt8) : (byte &&& 0x0F).toNat = byte.toNat % 16 := by
  rw [UInt8.toNat_and]
  exact Nat.and_two_pow_sub_one_eq_mod byte.toNat 4

/-- The upper half of a byte. -/
def highNibble (byte : UInt8) : Fin 16 := ⟨(byte >>> 4).toNat, by
  have hbyte := byte.toNat_lt
  rw [toNat_shiftRight_four]
  omega⟩

/-- The lower half of a byte. -/
def lowNibble (byte : UInt8) : Fin 16 := ⟨(byte &&& 0x0F).toNat, by
  rw [toNat_and_fifteen]
  omega⟩

/-- A byte is the sum of its halves. -/
theorem toNat_eq_nibbles (byte : UInt8) :
    byte.toNat = 16 * (highNibble byte).val + (lowNibble byte).val := by
  change byte.toNat = 16 * (byte >>> 4).toNat + (byte &&& 0x0F).toNat
  rw [toNat_shiftRight_four, toNat_and_fifteen]
  omega

variable {α : Type*} (alphabet : Fin 16 → α)

/-- The two characters of a byte over an alphabet of digits. -/
def hexPair (byte : UInt8) : List α := [alphabet (highNibble byte), alphabet (lowNibble byte)]

/-- A byte string in hexadecimal notation. -/
def hexText (bytes : List UInt8) : List α := bytes.flatMap (hexPair alphabet)

@[simp]
theorem length_hexText (bytes : List UInt8) :
    (hexText alphabet bytes).length = 2 * bytes.length := by
  induction bytes with
  | nil => rfl
  | cons byte bytes ih =>
    rw [hexText, List.flatMap_cons, List.length_append, ← hexText, ih, List.length_cons]
    change 2 + _ = _
    omega

/-- Another spelling of the digits. -/
theorem map_hexText {β : Type*} (convert : α → β) (bytes : List UInt8) :
    (hexText alphabet bytes).map convert = hexText (convert ∘ alphabet) bytes := by
  rw [hexText, List.map_flatMap]
  rfl

variable {alphabet}

/-- Every character of a hexadecimal text is a digit of the alphabet. -/
theorem exists_digit_of_mem_hexText {bytes : List UInt8} {character : α}
    (hcharacter : character ∈ hexText alphabet bytes) : ∃ digit, character = alphabet digit := by
  obtain ⟨byte, -, hbyte⟩ := List.mem_flatMap.mp hcharacter
  rcases List.mem_cons.mp hbyte with rfl | hlow
  · exact ⟨highNibble byte, rfl⟩
  · exact ⟨lowNibble byte, List.mem_singleton.mp hlow⟩

theorem hexPair_injective (halphabet : Function.Injective alphabet) :
    Function.Injective (hexPair alphabet) := by
  intro first second hpair
  obtain ⟨hhigh, hlow⟩ : alphabet (highNibble first) = alphabet (highNibble second) ∧
      alphabet (lowNibble first) = alphabet (lowNibble second) := by
    simpa [hexPair] using hpair
  apply UInt8.toNat_inj.mp
  rw [toNat_eq_nibbles first, toNat_eq_nibbles second, halphabet hhigh, halphabet hlow]

/-- Over distinct digits, a text is the notation of only one byte string. -/
theorem hexText_injective (halphabet : Function.Injective alphabet) :
    Function.Injective (hexText alphabet) := by
  intro first
  induction first with
  | nil =>
    intro second htext
    cases second with
    | nil => rfl
    | cons byte second => simp [hexText, hexPair] at htext
  | cons byte first ih =>
    intro second htext
    cases second with
    | nil => simp [hexText, hexPair] at htext
    | cons byte' second =>
      have hsplit := List.append_inj htext rfl
      rw [hexPair_injective halphabet hsplit.1, ih hsplit.2]

/-- Read a byte string from pairs of digits, given the reading of one digit. -/
def readHex (digitValue : α → Option (Fin 16)) : List α → Option (List UInt8)
  | [] => some []
  | [_] => none
  | high :: low :: rest => do
    let high ← digitValue high
    let low ← digitValue low
    let bytes ← readHex digitValue rest
    some (UInt8.ofNat (16 * high.val + low.val) :: bytes)

/-- Where every digit is read as itself, the notation of a byte string is read as that string. -/
theorem readHex_hexText {digitValue : α → Option (Fin 16)}
    (hdigit : ∀ digit, digitValue (alphabet digit) = some digit) (bytes : List UInt8) :
    readHex digitValue (hexText alphabet bytes) = some bytes := by
  induction bytes with
  | nil => rfl
  | cons byte bytes ih =>
    have hsplit : hexText alphabet (byte :: bytes) = alphabet (highNibble byte) ::
        alphabet (lowNibble byte) :: hexText alphabet bytes := rfl
    rw [hsplit, readHex, hdigit, hdigit, ih]
    change some (UInt8.ofNat (16 * (highNibble byte).val + (lowNibble byte).val) :: bytes) = _
    rw [← toNat_eq_nibbles, UInt8.ofNat_toNat]

/-- The two digits of a byte are the representation of the byte, padded with a zero. -/
theorem leftpad_toDigits (byte : UInt8) :
    (Nat.toDigits 16 byte.toNat).leftpad 2 '0' =
      hexPair (fun digit ↦ Nat.digitChar digit.val) byte := by
  have hlow := (lowNibble byte).isLt
  have hhigh := (highNibble byte).isLt
  rw [toNat_eq_nibbles, hexPair]
  by_cases hzero : (highNibble byte).val = 0
  · rw [hzero, Nat.mul_zero, Nat.zero_add, Nat.toDigits_of_lt_base hlow]
    rfl
  · rw [← Nat.toDigits_append_toDigits (by norm_num) (Nat.pos_of_ne_zero hzero) hlow,
      Nat.toDigits_of_lt_base hhigh, Nat.toDigits_of_lt_base hlow]
    rfl

end SunriseEdgeLedger.Foundation
