import SunriseEdgeLedger.Device.ReviewUi

/-!
# The texts of the displayed facts

Every formatter that succeeds returns the whole text of its value: decimal notation for numbers,
hexadecimal notation for bytes, the text itself for texts.  The notations are injective, so a fact
determines the value that it shows, and all facts together determine the review.
-/

namespace SunriseEdgeLedger.Device

open SunriseEdgeLedger.Foundation SunriseEdgeLedger.Core

theorem hexChars_injective : Function.Injective hexChars.get := by
  intro first second
  revert first second
  decide

theorem hexChars_lt : ∀ digit, hexChars.get digit < 128 := by decide

/-- Writing behind the content extends the content, as long as it fits. -/
theorem writeBytes_padTo {capacity : ℕ} (content bytes : Bytes)
    (hfits : content.length + bytes.length ≤ capacity) :
    writeBytes (padTo capacity 0 content) content.length bytes =
      .ok (padTo capacity 0 (content ++ bytes)) := by
  induction bytes generalizing content with
  | nil => rw [writeBytes, List.append_nil]
  | cons byte bytes ih =>
    rw [List.length_cons] at hfits
    have hset := setAt_padTo (0 : UInt8) byte content (show _ < capacity by omega)
    have hrest := ih (content ++ [byte]) (show (content ++ [byte]).length + bytes.length ≤ capacity by
      rw [List.length_append, List.length_singleton]; omega)
    rw [List.length_append, List.length_singleton, List.append_assoc] at hrest
    rw [writeBytes, hset, okOr_some, ok_bind, hrest, List.singleton_append]

/-- Writing at most the capacity into an empty buffer writes everything. -/
theorem writeBytes_empty {capacity : ℕ} {bytes : Bytes} (hfits : bytes.length ≤ capacity) :
    writeBytes (padTo capacity 0 []) 0 bytes = .ok (padTo capacity 0 bytes) :=
  writeBytes_padTo [] bytes (show ([] : Bytes).length + bytes.length ≤ capacity by
    rw [List.length_nil, Nat.zero_add]; exact hfits)

namespace BoundedFactStr

/-- The bounded text that holds given bytes. -/
def ofBytes (content : Bytes) : BoundedFactStr where
  buf := padTo maxFactLen 0 content
  len := content.length

theorem ofBytes_injOn {first second : Bytes} (hfirst : first.length ≤ maxFactLen)
    (hequal : ofBytes first = ofBytes second) : first = second :=
  padTo_injective 0 hfirst (congrArg len hequal) (congrArg buf hequal)

/-- The text is read back from the buffer. -/
theorem asStr_ofBytes {content : Bytes} (hfits : content.length ≤ maxFactLen)
    (hascii : ∀ byte ∈ content, byte < 128) :
    (ofBytes content).asStr = .ok (asciiText content) := by
  have hread : getRange (ofBytes content).buf.toList 0 (ofBytes content).len = some content :=
    getRange_padTo 0 content hfits
  have htext : fromUtf8 content = some (asciiText content) :=
    fromUtf8_eq_some_iff.mpr (asBytes_asciiText hascii).symm
  rw [asStr, hread, okOr_some, ok_bind, htext, okOr_some]

theorem tryFromStr_eq (text : String) :
    tryFromStr text = if isAscii text then
      if (asBytes text).length ≤ maxFactLen then .ok (ofBytes (asBytes text))
      else .error (.refused .valueTooLong)
    else .error (.refused .nonAscii) := by
  unfold tryFromStr
  split_ifs with hascii hfits
  · rw [ensure_of_true hascii, ok_bind, ensure_of_true hfits, ok_bind]
    rw [show writeBytes empty.buf 0 (asBytes text) = _ from writeBytes_empty hfits, ok_bind]
    rfl
  · rw [ensure_of_true hascii, ok_bind, ensure_of_false hfits, error_bind]
  · rw [ensure_of_false hascii, error_bind]

theorem tryFromStr_eq_ok_iff {text : String} {fact : BoundedFactStr} :
    tryFromStr text = .ok fact ↔
      isAscii text ∧ (asBytes text).length ≤ maxFactLen ∧ fact = ofBytes (asBytes text) := by
  rw [tryFromStr_eq]
  split_ifs with hascii hfits
  · simp [hascii, hfits, eq_comm]
  · simp [hfits]
  · simp [hascii]

/-! ## Numbers, bytes and digests -/

theorem lastDigit_eq (num : UInt64) :
    48 + (num % 10).toUInt8 = decimalDigit (num.toNat % 10) := by
  have hten : (10 : UInt64).toNat = 10 := rfl
  have hdigit : num.toNat % 10 < 10 := Nat.mod_lt _ (by norm_num)
  apply UInt8.toNat_inj.mp
  rw [toNat_decimalDigit hdigit, UInt8.toNat_add, UInt64.toNat_toUInt8, UInt64.toNat_mod, hten]
  change (48 + num.toNat % 10 % 256) % 256 = _
  omega

/-- The rounds write all digits of the number behind the ones already written. -/
theorem writeDigits_padTo (content : Bytes) {free : ℕ} (hslots : content.length + free = 20)
    {num : UInt64} (hnum : num.toNat < 10 ^ free) :
    writeDigits free (padTo 20 0 content) content.length num =
      .ok (padTo 20 0 (content ++ decimalDigits num.toNat),
        (content ++ decimalDigits num.toNat).length) := by
  induction free generalizing content num with
  | zero =>
    have hzero : num = 0 := UInt64.toNat_inj.mp (Nat.lt_one_iff.mp hnum)
    rw [writeDigits, if_pos hzero, hzero, UInt64.toNat_zero, decimalDigits_zero, List.append_nil]
  | succ free ih =>
    rw [writeDigits]
    split_ifs with hzero
    · rw [hzero, UInt64.toNat_zero, decimalDigits_zero, List.append_nil]
    · have hpos : 0 < num.toNat :=
        Nat.pos_of_ne_zero fun hnat ↦ hzero (UInt64.toNat_inj.mp hnat)
      have hset := setAt_padTo (0 : UInt8) (48 + (num % 10).toUInt8) content
        (show content.length < 20 by omega)
      have hquotient : (num / 10).toNat = num.toNat / 10 := UInt64.toNat_div num 10
      have hrest := ih (content ++ [48 + (num % 10).toUInt8])
        (show (content ++ [48 + (num % 10).toUInt8]).length + free = 20 by
          rw [List.length_append, List.length_singleton]; omega)
        (show (num / 10).toNat < 10 ^ free by
          rw [hquotient, Nat.div_lt_iff_lt_mul (by norm_num), ← Nat.pow_succ]
          exact hnum)
      rw [List.length_append, List.length_singleton, List.append_assoc, List.singleton_append,
        hquotient, lastDigit_eq, ← decimalDigits_of_pos hpos] at hrest
      rw [hset, okOr_some, ok_bind, lastDigit_eq, hrest]

/-- The reverse copy reads the digits from the last one back to the first one, and nothing else. -/
theorem reversedDigit_padTo {content : Bytes} (hfits : content.length ≤ 20) {i : ℕ}
    (hi : i < content.reverse.length) :
    reversedDigit (padTo 20 0 content) content.length i = some content.reverse[i] := by
  rw [List.length_reverse] at hi
  have hlast : indexSub content.length 1 = some (content.length - 1) := if_pos (by omega)
  have hindex : indexSub (content.length - 1) i = some (content.length - 1 - i) :=
    if_pos (by omega)
  have hread : (padTo 20 0 content).toList[content.length - 1 - i]? =
      content[content.length - 1 - i]? := by
    rw [toList_padTo (0 : UInt8) content hfits, List.getElem?_append_left (by omega)]
  rw [reversedDigit, hlast, Option.bind_eq_bind, Option.bind_some, hindex, Option.bind_some, hread,
    List.getElem_reverse, List.getElem?_eq_getElem]

/-- Every number is formatted in decimal notation. -/
theorem fromU64_eq (val : UInt64) : fromU64 val = .ok (ofBytes (decimalText val.toNat)) := by
  have hval : val.toNat < 10 ^ 20 := val.toNat_lt.trans (by norm_num)
  unfold fromU64 decimalText
  split_ifs with hzero hnat hnat
  · rfl
  · exact absurd (congrArg UInt64.toNat hzero) hnat
  · exact absurd (UInt64.toNat_inj.mp hnat) hzero
  · have hlength := length_decimalDigits_le hval
    have hdigits := writeDigits_padTo [] rfl hval
    have hreverse : (decimalDigits val.toNat).reverse.length ≤ maxFactLen := by
      rw [List.length_reverse]
      exact hlength.trans (by norm_num [maxFactLen])
    have hcopy := @fillFrom_padTo _ maxFactLen 0
      (reversedDigit (padTo 20 0 (decimalDigits val.toNat)) (decimalDigits val.toNat).length)
      [] (decimalDigits val.toNat).reverse (by rwa [List.length_nil, Nat.zero_add]) (by
        intro i hi
        rw [List.length_nil, Nat.zero_add]
        exact reversedDigit_padTo hlength hi)
    rw [List.length_nil, List.length_reverse, List.nil_append] at hcopy
    rw [List.nil_append] at hdigits
    rw [show writeDigits 20 (padTo 20 0 []) 0 val = _ from hdigits, ok_bind]
    change okOr _ (fillFrom _ _ 0 (padTo maxFactLen 0 [])) >>= _ = _
    rw [hcopy, okOr_some, ok_bind, ofBytes, List.length_reverse]

theorem hexChars_toList (digit : Fin 16) :
    hexChars.toList[digit.val]? = some (hexChars.get digit) := by
  revert digit
  decide

/-- One round writes the two digits of its byte behind the content. -/
theorem writeHexByte_padTo (content : Bytes) (byte : UInt8)
    (hfits : content.length + 2 ≤ maxFactLen) :
    writeHexByte (padTo maxFactLen 0 content) content.length byte =
      .ok (padTo maxFactLen 0 (content ++ hexPair hexChars.get byte)) := by
  have hhigh := hexChars_toList (highNibble byte)
  have hlow := hexChars_toList (lowNibble byte)
  have hfirst := setAt_padTo (0 : UInt8) (hexChars.get (highNibble byte)) content
    (show content.length < maxFactLen by omega)
  have hlength : (content ++ [hexChars.get (highNibble byte)]).length = content.length + 1 :=
    List.length_append
  have hsecond := setAt_padTo (0 : UInt8) (hexChars.get (lowNibble byte))
    (content ++ [hexChars.get (highNibble byte)])
    (show _ < maxFactLen by rw [hlength]; omega)
  rw [hlength, List.append_assoc, List.singleton_append] at hsecond
  rw [writeHexByte, show hexChars.toList[(byte >>> 4).toNat]? = _ from hhigh, okOr_some, ok_bind,
    hfirst, okOr_some, ok_bind, show hexChars.toList[(byte &&& 0x0F).toNat]? = _ from hlow,
    okOr_some, ok_bind, hsecond, okOr_some, hexPair]

/-- The rounds write the digits of all bytes behind the content, and count the cells in use. -/
theorem writeDigestRounds_padTo (content bytes : Bytes)
    (hfits : content.length + 2 * bytes.length ≤ maxFactLen) :
    writeDigestRounds (padTo maxFactLen 0 content) content.length bytes =
      .ok (padTo maxFactLen 0 (content ++ hexText hexChars.get bytes),
        content.length + 2 * bytes.length) := by
  induction bytes generalizing content with
  | nil => rw [writeDigestRounds, hexText, List.flatMap_nil, List.append_nil]; rfl
  | cons byte bytes ih =>
    rw [List.length_cons] at hfits
    have hround := writeHexByte_padTo content byte (by omega)
    have hlength : (content ++ hexPair hexChars.get byte).length = content.length + 2 :=
      List.length_append
    have hrest := ih (content ++ hexPair hexChars.get byte) (by rw [hlength]; omega)
    rw [hlength, List.append_assoc] at hrest
    rw [writeDigestRounds, hround, ok_bind, hrest, List.length_cons]
    congr 2
    omega

/-- The formatter of bytes runs the same rounds, with the index in place of the cell count. -/
theorem writeHexRounds_eq (buf : ByteArrayN maxFactLen) (i : ℕ) (bytes : Bytes) :
    writeHexRounds buf i bytes = (writeDigestRounds buf (i * 2) bytes).map Prod.fst := by
  induction bytes generalizing buf i with
  | nil => rfl
  | cons byte bytes ih =>
    rw [writeHexRounds, writeDigestRounds]
    cases writeHexByte buf (i * 2) byte with
    | error failure => rfl
    | ok buf =>
      rw [ok_bind, ok_bind, ih, Nat.succ_mul]

theorem writeHexRounds_empty {bytes : Bytes} (hfits : 2 * bytes.length ≤ maxFactLen) :
    writeHexRounds empty.buf 0 bytes = .ok (padTo maxFactLen 0 (hexText hexChars.get bytes)) := by
  have hrounds := writeDigestRounds_padTo [] bytes (by rwa [List.length_nil, Nat.zero_add])
  rw [writeHexRounds_eq, Nat.zero_mul]
  change (writeDigestRounds (padTo maxFactLen 0 []) 0 bytes).map Prod.fst = _
  rw [show writeDigestRounds (padTo maxFactLen 0 []) 0 bytes = _ from hrounds]
  rfl

variable [Target]

theorem tryFromHex_eq (bytes : Bytes) :
    tryFromHex bytes = if 2 * bytes.length ≤ maxFactLen then
        .ok (ofBytes (hexText hexChars.get bytes))
      else .error (.refused .valueTooLong) := by
  have hlength := length_hexText hexChars.get bytes
  unfold tryFromHex
  split_ifs with hfits
  · have husize : 2 * bytes.length < 2 ^ Target.usizeBits :=
      (hfits.trans_lt (show maxFactLen < 2 ^ 32 by norm_num [maxFactLen])).trans_le
        Target.two_pow_le
    have hmul : checkedMul bytes.length 2 = some (2 * bytes.length) :=
      checkedMul_eq_some_iff.mpr ⟨Nat.mul_comm _ _, husize⟩
    rw [hmul, okOr_some, ok_bind, ensure_of_true hfits, ok_bind, writeHexRounds_empty hfits, ok_bind,
      ofBytes, hlength]
  · cases hmul : checkedMul bytes.length 2 with
    | none => rfl
    | some encodedLen =>
      obtain ⟨rfl, -⟩ := checkedMul_eq_some_iff.mp hmul
      rw [Nat.mul_comm] at hfits
      rw [okOr_some, ok_bind, ensure_of_false hfits, error_bind]

theorem tryFromHex_eq_ok_iff {bytes : Bytes} {fact : BoundedFactStr} :
    tryFromHex bytes = .ok fact ↔
      2 * bytes.length ≤ maxFactLen ∧ fact = ofBytes (hexText hexChars.get bytes) := by
  rw [tryFromHex_eq]
  split_ifs with hfits
  · simp [hfits, eq_comm]
  · simp [hfits]

omit [Target] in
/-- A digest as its algorithm and its bytes in hexadecimal notation. -/
def digestText (digest : Digest32) : Bytes :=
  asBytes digest.algorithm.label ++ [58] ++ hexText hexChars.get digest.bytes.toList

omit [Target] in
theorem length_label_le (algorithm : HashAlgorithmId) : (asBytes algorithm.label).length ≤ 10 := by
  cases algorithm <;> decide

omit [Target] in
theorem isAscii_label (algorithm : HashAlgorithmId) : isAscii algorithm.label := by
  cases algorithm <;> decide

omit [Target] in
theorem length_digestText (digest : Digest32) :
    (digestText digest).length = (asBytes digest.algorithm.label).length + 65 := by
  rw [digestText, List.length_append, List.length_append, length_hexText, List.length_singleton,
    List.Vector.toList_length]

omit [Target] in
theorem digestText_injective : Function.Injective digestText := by
  intro first second htext
  have hhex : (hexText hexChars.get first.bytes.toList).length =
      (hexText hexChars.get second.bytes.toList).length := by
    rw [length_hexText, length_hexText, List.Vector.toList_length, List.Vector.toList_length]
  obtain ⟨hlabels, hbytes⟩ := List.append_inj' htext hhex
  have hlabel := asBytes_injective (List.append_cancel_right hlabels)
  have halgorithm := HashAlgorithmId.label_injective hlabel
  have hdigest := List.Vector.toList_injective (hexText_injective hexChars_injective hbytes)
  cases first
  cases second
  exact congrArg₂ Digest32.mk halgorithm hdigest

/-- Every digest fits, and is formatted as a whole. -/
theorem tryFromDigest_eq (digest : Digest32) :
    tryFromDigest digest = .ok (ofBytes (digestText digest)) := by
  have hlabel := length_label_le digest.algorithm
  have hbytes : digest.bytes.toList.length = 32 := digest.bytes.toList_length
  have husize : 2 ^ 32 ≤ 2 ^ Target.usizeBits := Target.two_pow_le
  have hmul : checkedMul digest.bytes.toList.length 2 = some 64 :=
    checkedMul_eq_some_iff.mpr ⟨by rw [hbytes], by omega⟩
  have hcolon : checkedAdd (asBytes digest.algorithm.label).length 1 =
      some ((asBytes digest.algorithm.label).length + 1) :=
    checkedAdd_eq_some_iff.mpr ⟨rfl, by omega⟩
  have hadd : checkedAdd ((asBytes digest.algorithm.label).length + 1) 64 =
      some ((asBytes digest.algorithm.label).length + 65) :=
    checkedAdd_eq_some_iff.mpr ⟨by omega, by omega⟩
  have hfits : (asBytes digest.algorithm.label).length + 65 ≤ maxFactLen := by
    change _ ≤ 96
    omega
  have hleading := writeBytes_empty
    (show (asBytes digest.algorithm.label).length ≤ maxFactLen by omega)
  have hseparated := setAt_padTo (0 : UInt8) 58 (asBytes digest.algorithm.label)
    (show _ < maxFactLen by omega)
  have hlength : (asBytes digest.algorithm.label ++ [58]).length =
      (asBytes digest.algorithm.label).length + 1 := List.length_append
  have hwhole := writeDigestRounds_padTo (asBytes digest.algorithm.label ++ [58])
    digest.bytes.toList (by rw [hlength, hbytes]; omega)
  rw [hlength] at hwhole
  simp only [tryFromDigest, hmul, hcolon, hadd, okOr_some, ok_bind, Option.bind_some]
  rw [ensure_of_true hfits, ok_bind,
    show writeBytes empty.buf 0 (asBytes digest.algorithm.label) = _ from hleading, ok_bind,
    hseparated, okOr_some, ok_bind, hwhole, ok_bind, ofBytes, ← digestText, length_digestText,
    hbytes]

/-- A bounded text that holds ASCII characters within its capacity. -/
def Readable (fact : BoundedFactStr) : Prop :=
  ∃ content : Bytes, content.length ≤ maxFactLen ∧ (∀ byte ∈ content, byte < 128) ∧
    fact = ofBytes content

/-- A formatter that never indexes out of bounds and only returns readable texts. -/
structure Sound (computation : Except FormatFault BoundedFactStr) : Prop where
  fails : FailsOnlyWith (· ≠ .panicked) computation
  readable : ∀ fact, computation = .ok fact → fact.Readable

omit [Target] in
theorem sound_ok {content : Bytes} (hfits : content.length ≤ maxFactLen)
    (hascii : ∀ byte ∈ content, byte < 128) : Sound (.ok (ofBytes content)) where
  fails := failsOnlyWith_ok _
  readable _ hfact := ⟨content, hfits, hascii, (Except.ok.inj hfact).symm⟩

omit [Target] in
theorem sound_refused (error : ReviewFormatError) : Sound (.error (.refused error)) where
  fails := failsOnlyWith_error (by simp)
  readable _ hfact := by cases hfact

omit [Target] in
theorem sound_tryFromStr (text : String) : Sound (tryFromStr text) := by
  rw [tryFromStr_eq]
  split_ifs with hascii hfits
  · exact sound_ok hfits (by simpa [isAscii] using hascii)
  · exact sound_refused _
  · exact sound_refused _

omit [Target] in
theorem length_decimalText_u64_le (val : UInt64) :
    (decimalText val.toNat).length ≤ maxFactLen := by
  have hdigits : (decimalText val.toNat).length ≤ 20 :=
    length_decimalText_le (by norm_num) (val.toNat_lt.trans (by norm_num))
  exact hdigits.trans (by decide)

omit [Target] in
theorem decimalText_lt {number : ℕ} : ∀ byte ∈ decimalText number, byte < 128 := by
  intro byte hbyte
  obtain ⟨digit, hdigit, rfl⟩ := exists_decimalDigit_of_mem hbyte
  rw [UInt8.lt_iff_toNat_lt, toNat_decimalDigit hdigit]
  change 48 + digit < 128
  omega

omit [Target] in
theorem sound_fromU64 (val : UInt64) : Sound (fromU64 val) := by
  rw [fromU64_eq]
  exact sound_ok (length_decimalText_u64_le val) decimalText_lt

omit [Target] in
theorem hexText_lt {bytes : Bytes} : ∀ byte ∈ hexText hexChars.get bytes, byte < 128 := by
  intro byte hbyte
  obtain ⟨digit, rfl⟩ := exists_digit_of_mem_hexText hbyte
  exact hexChars_lt digit

theorem sound_tryFromHex (bytes : Bytes) : Sound (tryFromHex bytes) := by
  have hlength := length_hexText hexChars.get bytes
  rw [tryFromHex_eq]
  split_ifs with hfits
  · exact sound_ok (hlength.trans_le hfits) hexText_lt
  · exact sound_refused _

omit [Target] in
theorem length_digestText_le (digest : Digest32) :
    (digestText digest).length ≤ maxFactLen := by
  have hlabel := length_label_le digest.algorithm
  rw [length_digestText]
  change _ ≤ 96
  omega

omit [Target] in
theorem digestText_lt (digest : Digest32) : ∀ byte ∈ digestText digest, byte < 128 := by
  have hlabel : ∀ byte ∈ asBytes digest.algorithm.label, byte < 128 := by
    simpa [isAscii] using isAscii_label digest.algorithm
  intro byte hbyte
  rw [digestText, List.mem_append, List.mem_append, List.mem_singleton] at hbyte
  rcases hbyte with (hbyte | rfl) | hbyte
  · exact hlabel byte hbyte
  · decide
  · exact hexText_lt byte hbyte

theorem sound_tryFromDigest (digest : Digest32) : Sound (tryFromDigest digest) := by
  rw [tryFromDigest_eq]
  exact sound_ok (length_digestText_le digest) (digestText_lt digest)

omit [Target] in
/-- A readable fact is displayed. -/
theorem Readable.exists_asStr {fact : BoundedFactStr} (hreadable : fact.Readable) :
    ∃ text, fact.asStr = .ok text := by
  obtain ⟨content, hfits, hascii, rfl⟩ := hreadable
  exact ⟨_, asStr_ofBytes hfits hascii⟩

end BoundedFactStr

/-! ## All facts of a review -/

/-- Evaluating a list fails only as its computations do. -/
theorem failsOnlyWith_collectFacts {Allowed : FormatFault → Prop}
    {computations : List (String × Except FormatFault BoundedFactStr)}
    (hfails : ∀ line ∈ computations, FailsOnlyWith Allowed line.2) :
    FailsOnlyWith Allowed (collectFacts computations) := by
  induction computations with
  | nil => exact failsOnlyWith_ok _
  | cons line computations ih =>
    obtain ⟨hhead, htail⟩ := List.forall_mem_cons.mp hfails
    apply failsOnlyWith_bind hhead
    intro _ _
    apply failsOnlyWith_bind (ih htail)
    intro _ _
    exact failsOnlyWith_ok _

/-- Sound computations evaluate to readable facts, one for each of them. -/
theorem readable_of_collectFacts
    {computations : List (String × Except FormatFault BoundedFactStr)} {facts : List ReviewFact}
    (hsound : ∀ line ∈ computations, BoundedFactStr.Sound line.2)
    (hfacts : collectFacts computations = .ok facts) :
    facts.length = computations.length ∧ ∀ fact ∈ facts, fact.value.Readable := by
  induction computations generalizing facts with
  | nil =>
    obtain rfl := Except.ok.inj hfacts
    exact ⟨rfl, by simp⟩
  | cons line computations ih =>
    obtain ⟨name, computation⟩ := line
    obtain ⟨hhead, htail⟩ := List.forall_mem_cons.mp hsound
    simp only [collectFacts, bind_eq_ok_iff, Except.ok.injEq] at hfacts
    obtain ⟨value, hvalue, rest, hrest, rfl⟩ := hfacts
    obtain ⟨hlength, hreadable⟩ := ih htail hrest
    exact ⟨congrArg (· + 1) hlength,
      List.forall_mem_cons.mpr ⟨hhead.readable value hvalue, hreadable⟩⟩

/-- Formatting a review fails for the number of accesses, for a missing fee, or as a fact does. -/
theorem failsOnlyWith_formatReviewFacts [Target] {Allowed : FormatFault → Prop}
    {review : ClearSigningReview} (hcount : Allowed (.refused .wrongAccessCount))
    (hmissing : Allowed (.refused .missingFee))
    (hfails : ∀ access0 access1 access2 fee,
      ∀ line ∈ factList review access0 access1 access2 fee, FailsOnlyWith Allowed line.2) :
    FailsOnlyWith Allowed (formatReviewFacts review) := by
  apply failsOnlyWith_ensure_bind hcount
  intro _
  apply failsOnlyWith_okOr_bind hcount
  intro access0 _
  apply failsOnlyWith_okOr_bind hcount
  intro access1 _
  apply failsOnlyWith_okOr_bind hcount
  intro access2 _
  apply failsOnlyWith_ensure_bind hcount
  intro _
  apply failsOnlyWith_okOr_bind hmissing
  intro fee _
  exact failsOnlyWith_collectFacts (hfails access0 access1 access2 fee)

/-- The computations of all facts are sound. -/
theorem sound_factList [Target] (review : ClearSigningReview)
    (access0 access1 access2 : AccessLine) (fee : FeeLine) :
    ∀ line ∈ factList review access0 access1 access2 fee, BoundedFactStr.Sound line.2 := by
  simp only [factList, accessFacts, List.cons_append, List.nil_append, List.forall_mem_cons,
    BoundedFactStr.sound_tryFromStr, BoundedFactStr.sound_fromU64,
    BoundedFactStr.sound_tryFromHex, BoundedFactStr.sound_tryFromDigest, true_and]
  simp

/-- Formatting a review never indexes out of bounds, and returns 32 readable facts. -/
theorem sound_formatReviewFacts [Target] (review : ClearSigningReview) :
    FailsOnlyWith (· ≠ .panicked) (formatReviewFacts review) ∧
      ∀ facts, formatReviewFacts review = .ok facts →
        facts.length = 32 ∧ ∀ fact ∈ facts, fact.value.Readable := by
  constructor
  · refine failsOnlyWith_formatReviewFacts (by simp) (by simp) ?_
    intro access0 access1 access2 fee line hline
    exact (sound_factList review access0 access1 access2 fee line hline).fails
  · intro facts hfacts
    simp only [formatReviewFacts, bind_eq_ok_iff] at hfacts
    obtain ⟨_, -, access0, -, access1, -, access2, -, _, -, fee, -, hcollect⟩ := hfacts
    exact readable_of_collectFacts (sound_factList review access0 access1 access2 fee) hcollect

end SunriseEdgeLedger.Device
