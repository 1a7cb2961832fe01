import SunriseEdgeLedger.Device.ReviewRendering

/-!
# The displayed texts can be read back

What the formatters for numbers, bytes and digests store: an ASCII text within the buffer, from
which the formatted value is read back.  The readers are independent of the formatters, and each of
them is a left inverse of the notation that its formatter uses.
-/

namespace SunriseEdgeLedger.Device

open SunriseEdgeLedger.Foundation SunriseEdgeLedger.Core

/-- The value of a lowercase hexadecimal digit. -/
def hexDigitValue (character : Char) : Option (Fin 16) :=
  (List.finRange 16).find? fun digit ↦ Nat.digitChar digit.val = character

/-- Read pairs of hexadecimal digits. -/
def parseHex (text : String) : Option Bytes := readHex hexDigitValue text.toList

/-- The algorithm with the label. -/
def algorithmOfLabel (label : List Char) : Option HashAlgorithmId :=
  [.sha2_256, .sha3_256, .blake3_256].find? fun algorithm ↦ algorithm.label.toList = label

/-- Read `{algorithm}:{hex}`. -/
def parseDigest (text : String) : Option Digest32 := do
  let label := text.toList.takeWhile (· ≠ ':')
  let algorithm ← algorithmOfLabel label
  let slice ← readHex hexDigitValue (text.toList.drop (label.length + 1))
  let bytes ← arrayOf? 32 slice
  some { algorithm, bytes }

theorem hexDigitValue_digitChar (digit : Fin 16) :
    hexDigitValue (Nat.digitChar digit.val) = some digit := by
  revert digit
  decide

theorem readHex_lowerHex (bytes : Bytes) :
    readHex hexDigitValue (hexText (fun digit ↦ Nat.digitChar digit.val) bytes) = some bytes :=
  readHex_hexText hexDigitValue_digitChar bytes

theorem parseHex_writeHex (bytes : Bytes) : parseHex (writeHex "" bytes) = some bytes := by
  rw [parseHex, writeHex_eq, String.empty_append, String.toList_ofList, readHex_lowerHex]

theorem takeWhile_label (algorithm : HashAlgorithmId) (rest : List Char) :
    (algorithm.label.toList ++ ':' :: rest).takeWhile (· ≠ ':') = algorithm.label.toList := by
  have hlabel : ∀ character ∈ algorithm.label.toList, decide (character ≠ ':') = true := by
    cases algorithm <;> simp [HashAlgorithmId.label]
  rw [List.takeWhile_append_of_pos hlabel, List.takeWhile_cons_of_neg (by simp), List.append_nil]

theorem algorithmOfLabel_label (algorithm : HashAlgorithmId) :
    algorithmOfLabel algorithm.label.toList = some algorithm := by
  cases algorithm <;> decide

/-- A displayed digest is read back, algorithm and bytes. -/
theorem parseDigest_display (digest : Digest32) : parseDigest digest.display = some digest := by
  have htext : digest.display.toList = digest.algorithm.label.toList ++
      ':' :: hexText (fun digit ↦ Nat.digitChar digit.val) digest.bytes.toList := by
    rw [Digest32.display, writeHex_eq, String.toList_append, String.toList_ofList,
      HashAlgorithmId.display, String.toList_append, List.append_assoc]
    rfl
  have hrest : digest.display.toList.drop (digest.algorithm.label.toList.length + 1) =
      hexText (fun digit ↦ Nat.digitChar digit.val) digest.bytes.toList := by
    rw [htext, ← List.drop_drop, List.drop_left]
    rfl
  have hlabel := takeWhile_label digest.algorithm
    (hexText (fun digit ↦ Nat.digitChar digit.val) digest.bytes.toList)
  rw [← htext] at hlabel
  rw [parseDigest, hlabel]
  simp only [algorithmOfLabel_label, hrest, readHex_lowerHex, arrayOf?_toList, Option.bind_eq_bind,
    Option.bind_some]

/-! ## What the formatters store -/

namespace BoundedFactStr

/-- The fact holds an ASCII text within its buffer, and this is the text that it is read as. -/
structure Stores (fact : BoundedFactStr) (text : String) : Prop where
  len_le : fact.len ≤ maxFactLen
  ascii : ∀ index < fact.len, ∃ byte, fact.buf.toList[index]? = some byte ∧ byte < 128
  asStr_eq : fact.asStr = .ok text

theorem Readable.stores {fact : BoundedFactStr} {text : String} (hreadable : fact.Readable)
    (htext : fact.asStr = .ok text) : fact.Stores text where
  len_le := by
    obtain ⟨content, hfits, -, rfl⟩ := hreadable
    exact hfits
  ascii := by
    obtain ⟨content, hfits, hascii, rfl⟩ := hreadable
    intro index hindex
    refine ⟨content[index], ?_, hascii _ (List.getElem_mem hindex)⟩
    change (padTo maxFactLen 0 content).toList[index]? = _
    rw [toList_padTo (0 : UInt8) content hfits, List.getElem?_append_left hindex,
      List.getElem?_eq_getElem hindex]
  asStr_eq := htext

/-- What a sound formatter returns stores the text that the formatter shows. -/
theorem Sound.stores {computation : Except FormatFault BoundedFactStr} {text : String}
    {fact : BoundedFactStr} (hsound : Sound computation) (hshows : ShowsText computation text)
    (hfact : computation = .ok fact) : fact.Stores text :=
  (hsound.readable fact hfact).stores (hshows fact hfact)

/-- A number is written in digits, the first one not zero unless the number is. -/
theorem repr_digits (number : ℕ) :
    (∀ character ∈ number.repr.toList, character.isDigit) ∧
      (number.repr.toList.head? = some '0' → number.repr = "0") := by
  rw [Nat.toList_repr]
  constructor
  · intro character hcharacter
    exact Nat.isDigit_of_mem_toDigits (by norm_num) (by norm_num) hcharacter
  · intro hhead
    rw [eq_zero_of_head?_toDigits hhead]
    rfl

theorem length_decimalText_u64_pos (val : UInt64) : 0 < (decimalText val.toNat).length := by
  unfold decimalText
  split_ifs with hzero
  · exact Nat.one_pos
  · rw [List.length_reverse, decimalDigits_of_pos (Nat.pos_of_ne_zero hzero)]
    exact Nat.succ_pos _

/-- The formatters for numbers, bytes and digests never index out of bounds and lose nothing.  A
number is written with 1 to 20 digits, and without a leading zero but for zero itself; bytes are
written exactly when their notation fits; a digest is always written.  The stored text is ASCII, and
the value is read back from it. -/
theorem formatters_lossless [Target] :
    (∀ val, ∃ fact text, fromU64 val = .ok fact ∧ fact.Stores text ∧
        1 ≤ fact.len ∧ fact.len ≤ 20 ∧ (∀ character ∈ text.toList, character.isDigit) ∧
        (text.toList.head? = some '0' → text = "0") ∧ text.toNat? = some val.toNat) ∧
      (∀ bytes, ((∃ fact, tryFromHex bytes = .ok fact) ↔ 2 * bytes.length ≤ 96) ∧
        (∀ failure, tryFromHex bytes = .error failure → failure = .refused .valueTooLong) ∧
        ∀ fact, tryFromHex bytes = .ok fact →
          ∃ text, fact.Stores text ∧ parseHex text = some bytes) ∧
      ∀ digest, ∃ fact text, tryFromDigest digest = .ok fact ∧ fact.Stores text ∧
        parseDigest text = some digest := by
  refine ⟨?_, ?_, ?_⟩
  · intro val
    obtain ⟨hdigits, hhead⟩ := repr_digits val.toNat
    have hlength : (decimalText val.toNat).length ≤ 20 :=
      length_decimalText_le (by norm_num) (val.toNat_lt.trans (by norm_num))
    have hformat := fromU64_eq val
    exact ⟨_, _, hformat, (sound_fromU64 val).stores (shows_fromU64 rfl) hformat,
      length_decimalText_u64_pos val, hlength, hdigits, hhead, Nat.toNat?_repr _⟩
  · intro bytes
    refine ⟨?_, ?_, ?_⟩
    · simp only [tryFromHex_eq_ok_iff, exists_and_left, exists_eq, and_true]
      rfl
    · intro failure hfailure
      rw [tryFromHex_eq] at hfailure
      split_ifs at hfailure
      exact (Except.error.inj hfailure).symm
    · intro fact hfact
      exact ⟨_, (sound_tryFromHex bytes).stores (shows_tryFromHex bytes) hfact,
        parseHex_writeHex bytes⟩
  · intro digest
    have hformat := tryFromDigest_eq digest
    exact ⟨_, _, hformat, (sound_tryFromDigest digest).stores (shows_tryFromDigest digest) hformat,
      parseDigest_display digest⟩

end BoundedFactStr

end SunriseEdgeLedger.Device
