import SunriseEdgeLedger.Foundation.ExactDecoder
import SunriseEdgeLedger.Core.Primitives

/-!
# Compressed public keys

The conversion of an uncompressed point, `04 || X || Y` with big-endian coordinates, to a compressed
Ed25519 public key: the little-endian bytes of `Y`, with the parity of `X` in the highest bit.  The
code compares `Y` with the field prime byte by byte.  Here the comparison is shown to be the one of
the numbers, and the compressed key to determine `Y` and the parity and nothing else.
-/

namespace SunriseEdgeLedger.Device

open SunriseEdgeLedger.Foundation SunriseEdgeLedger.Core

/-- Why a point could not be compressed. -/
inductive CompressionError where
  | invalidPointHeader (header : UInt8)
  | fieldOverflow
deriving DecidableEq, Repr

/-- How the compression stops: with an error, or by an index out of bounds. -/
inductive CompressionFault where
  | refused (error : CompressionError)
  | panicked
deriving DecidableEq, Repr

/-- The rounds that copy `y_bytes` in reverse order, from index `i` on. -/
def copyReversed (yBytes : Bytes) :
    ℕ → ℕ → ByteArrayN 32 → Except CompressionFault (ByteArrayN 32)
  | 0, _, compressed => .ok compressed
  | rounds + 1, i, compressed => do
    let byte ← okOr .panicked yBytes[31 - i]?
    let compressed ← okOr .panicked (setAt compressed i byte)
    copyReversed yBytes rounds (i + 1) compressed

/-- The rounds that look for a byte other than `0xFF`, from index `b` down to index 1: the final
value of `overflow`. -/
def scanOverflow (compressed : ByteArrayN 32) : ℕ → Except CompressionFault Bool
  | 0 => .ok true
  | b + 1 => do
    let byte ← okOr .panicked compressed.toList[b + 1]?
    if byte ≠ 0xFF then .ok false
    else if b + 1 = 1 then .ok true
    else scanOverflow compressed b

/-- The two checks of the coordinate against the field prime. -/
def checkField (compressed : ByteArrayN 32) : Except CompressionFault Unit := do
  ensure (compressed.get 31 &&& 0x80 = 0) (.refused .fieldOverflow)
  if compressed.get 31 = 0x7F then do
    let overflow ← scanOverflow compressed 30
    ensure (¬(overflow ∧ 0xED ≤ compressed.get 0)) (.refused .fieldOverflow)
  else .ok ()

/-- `compress_ed25519_point` -/
def compressEd25519Point (raw : ByteArrayN 65) : Except CompressionFault (ByteArrayN 32) := do
  ensure (raw.get 0 = 0x04) (.refused (.invalidPointHeader (raw.get 0)))
  let xBytes ← okOr .panicked (getRange raw.toList 1 33)
  let yBytes ← okOr .panicked (getRange raw.toList 33 65)
  let compressed ← copyReversed yBytes 32 0 (padTo 32 0 [])
  checkField compressed
  let xLast ← okOr .panicked xBytes[31]?
  if xLast &&& 1 ≠ 0 then okOr .panicked (setAt compressed 31 (compressed.get 31 ||| 0x80))
  else .ok compressed

theorem copyReversed_eq_fillFrom (yBytes : Bytes) (rounds i : ℕ) (compressed : ByteArrayN 32) :
    copyReversed yBytes rounds i compressed =
      okOr .panicked (fillFrom (fun i ↦ yBytes[31 - i]?) rounds i compressed) := by
  induction rounds generalizing i compressed with
  | zero => rfl
  | succ rounds ih =>
    rw [copyReversed, fillFrom]
    cases yBytes[31 - i]? with
    | none => rfl
    | some byte =>
      rw [okOr_some, ok_bind, Option.bind_eq_bind, Option.bind_some]
      cases setAt compressed i byte with
      | none => rfl
      | some compressed => exact ih (i + 1) compressed

/-- The copied array holds the bytes in reverse order. -/
theorem copyReversed_eq {yBytes : Bytes} (hlength : yBytes.length = 32) :
    copyReversed yBytes 32 0 (padTo 32 0 []) = .ok (padTo 32 0 yBytes.reverse) := by
  have hreverse : yBytes.reverse.length = 32 := by rw [List.length_reverse, hlength]
  have hcopy := @fillFrom_padTo _ 32 0 (fun i ↦ yBytes[31 - i]?) [] yBytes.reverse
    (by rw [List.length_nil, Nat.zero_add, hreverse]) (by
      intro i hi
      rw [List.length_nil, Nat.zero_add, List.getElem_reverse, ← List.getElem?_eq_getElem, hlength])
  rw [hreverse, List.length_nil, List.nil_append] at hcopy
  rw [copyReversed_eq_fillFrom, hcopy, okOr_some]

/-- The scan is positive exactly when all the bytes are `0xFF`. -/
theorem scanOverflow_eq {compressed : ByteArrayN 32} {low : UInt8} {middle tail : Bytes}
    (hcompressed : compressed.toList = low :: (middle ++ tail)) :
    scanOverflow compressed middle.length = .ok (decide (∀ byte ∈ middle, byte = 0xFF)) := by
  induction middle using List.reverseRecOn generalizing tail with
  | nil => simp [scanOverflow]
  | append_singleton middle byte ih =>
    have hread : compressed.toList[middle.length + 1]? = some byte := by
      rw [hcompressed]
      simp
    rw [List.append_assoc] at hcompressed
    simp only [List.forall_mem_append, List.forall_mem_singleton]
    rw [List.length_append, List.length_singleton, scanOverflow, hread, okOr_some, ok_bind]
    by_cases hbyte : byte = 0xFF
    · by_cases hlast : middle.length + 1 = 1
      · obtain rfl := List.length_eq_zero_iff.mp (Nat.succ.inj hlast)
        simp [hbyte]
      · rw [if_neg (not_not.mpr hbyte), if_neg hlast, ih hcompressed]
        simp only [hbyte, and_true]
    · rw [if_pos hbyte]
      simp only [hbyte, and_false, decide_false]

theorem and_highBit_eq_zero_iff {byte : UInt8} : byte &&& 0x80 = 0 ↔ byte.toNat < 2 ^ 7 := by
  rw [← UInt8.toNat_inj, UInt8.toNat_and]
  exact and_highest_eq_zero_iff byte.toNat_lt

theorem toNat_or_highBit {byte : UInt8} (hbyte : byte.toNat < 2 ^ 7) :
    (byte ||| 0x80).toNat = 2 ^ 7 + byte.toNat := by
  rw [UInt8.toNat_or]
  exact or_highest hbyte

theorem and_one_ne_zero_iff {byte : UInt8} : byte &&& 1 ≠ 0 ↔ byte.toNat % 2 = 1 := by
  rw [ne_eq, ← UInt8.toNat_inj, UInt8.toNat_and]
  change ¬byte.toNat &&& 1 = 0 ↔ _
  rw [Nat.and_one_is_mod, ← ne_eq, Nat.mod_two_ne_zero]

/-- The lowest byte, the bytes of the scan, and the highest byte. -/
theorem exists_cells (compressed : ByteArrayN 32) :
    ∃ low middle high, compressed.toList = low :: (middle ++ [high]) ∧ middle.length = 30 ∧
      compressed.get 0 = low ∧ compressed.get 31 = high := by
  obtain ⟨cells, hcells⟩ := compressed
  obtain ⟨low, rest, rfl⟩ := cells.exists_cons_of_length_eq_add_one hcells
  have hrest : rest.length = 31 := Nat.succ.inj hcells
  have hhigh : 30 < rest.length := by omega
  refine ⟨low, rest.take 30, rest[30], ?_, by simp [hrest], rfl, rfl⟩
  rw [List.take_append_getElem hhigh, List.take_of_length_le (by omega)]
  rfl

/-- The checks of single bytes decide the comparison of the numbers. -/
theorem checkField_eq (compressed : ByteArrayN 32) :
    checkField compressed =
      ensure (ofLittleEndian compressed.toList < 2 ^ 255 - 19) (.refused .fieldOverflow) := by
  obtain ⟨low, middle, high, hcompressed, hmiddle, hlow, hhigh⟩ := exists_cells compressed
  have hlowByte : low.toNat < 256 := low.toNat_lt
  have hmiddleBound := ofLittleEndian_lt middle
  have hscan := scanOverflow_eq hcompressed
  have hfull := ofLittleEndian_add_one_eq_iff middle
  have hvalue : ofLittleEndian compressed.toList =
      low.toNat + 256 * (ofLittleEndian middle + 256 ^ 30 * high.toNat) := by
    calc
      ofLittleEndian compressed.toList = low.toNat + 256 * ofLittleEndian (middle ++ [high]) := by
        rw [hcompressed, ofLittleEndian_cons]
      _ = low.toNat + 256 * (ofLittleEndian middle + 256 ^ 30 * high.toNat) := by
        rw [ofLittleEndian_append, hmiddle, ofLittleEndian_singleton]
  rw [hmiddle] at hmiddleBound hscan hfull
  rw [checkField, hlow, hhigh, hvalue]
  by_cases hbit : high &&& 0x80 = 0
  · rw [ensure_of_true hbit, ok_bind]
    rw [and_highBit_eq_zero_iff] at hbit
    by_cases htop : high = 0x7F
    · have htopByte : high.toNat = 127 := congrArg UInt8.toNat htop
      rw [if_pos htop, hscan, ok_bind]
      apply ensure_congr
      rw [decide_eq_true_eq, ← hfull, UInt8.le_iff_toNat_le, htopByte]
      change ¬(_ ∧ 237 ≤ low.toNat) ↔ _
      omega
    · have htopByte : high.toNat ≠ 127 := fun heq ↦ htop (UInt8.toNat_inj.mp heq)
      rw [if_neg htop, ensure_of_true]
      omega
  · rw [ensure_of_false hbit, ensure_of_false]
    · rfl
    · rw [and_highBit_eq_zero_iff] at hbit
      omega

/-- The parity of a big-endian number is the parity of its last byte. -/
theorem ofBigEndian_mod_two {bytes : Bytes} (hlength : bytes.length = 32) {last : UInt8}
    (hlast : bytes[31]? = some last) : ofBigEndian bytes % 2 = last.toNat % 2 := by
  have hbytes : bytes = bytes.take 31 ++ [last] := by
    obtain ⟨hindex, rfl⟩ := List.getElem?_eq_some_iff.mp hlast
    rw [List.take_append_getElem hindex, List.take_of_length_le (by omega)]
  rw [hbytes, ofBigEndian_append_singleton]
  omega

/-- Packing the sign bit adds its weight. -/
theorem setAt_highBit {compressed : ByteArrayN 32}
    (hsmall : ofLittleEndian compressed.toList < 2 ^ 255) :
    ∃ packed, setAt compressed 31 (compressed.get 31 ||| 0x80) = some packed ∧
      ofLittleEndian packed.toList = ofLittleEndian compressed.toList + 2 ^ 255 := by
  obtain ⟨low, middle, high, hcompressed, hmiddle, -, hhigh⟩ := exists_cells compressed
  have hbelow : (low :: middle).length = 31 := by rw [List.length_cons, hmiddle]
  rw [← List.cons_append] at hcompressed
  obtain ⟨packed, hwrite, hpacked⟩ := setAt_of_toList_eq hcompressed (high ||| 0x80)
  have hvalue : ∀ byte : UInt8, ofLittleEndian ((low :: middle) ++ [byte]) =
      ofLittleEndian (low :: middle) + 256 ^ 31 * byte.toNat := by
    intro byte
    rw [ofLittleEndian_append, hbelow, ofLittleEndian_singleton]
  rw [hcompressed, hvalue] at hsmall ⊢
  have hbit : high.toNat < 2 ^ 7 := by omega
  rw [hbelow] at hwrite
  refine ⟨packed, hhigh ▸ hwrite, ?_⟩
  rw [hpacked, hvalue, toNat_or_highBit hbit]
  omega

/-! ## The compressed key -/

/-- The big-endian integer in bytes 1 to 32. -/
def xCoordinate (raw : ByteArrayN 65) : ℕ := ofBigEndian ((raw.toList.take 33).drop 1)

/-- The big-endian integer in bytes 33 to 64. -/
def yCoordinate (raw : ByteArrayN 65) : ℕ := ofBigEndian (raw.toList.drop 33)

/-- The little-endian array that the coordinate is copied into. -/
def reversedY (raw : ByteArrayN 65) : ByteArrayN 32 := padTo 32 0 (raw.toList.drop 33).reverse

theorem ofLittleEndian_reversedY (raw : ByteArrayN 65) :
    ofLittleEndian (reversedY raw).toList = yCoordinate raw := by
  have hlength : (raw.toList.drop 33).reverse.length = 32 := by simp
  rw [reversedY, toList_padTo 0 _ hlength.le, hlength]
  simp [yCoordinate, ofBigEndian]

/-- Behind the header, the outcome depends on the copied coordinate and on the lowest byte of the
other one. -/
theorem compressEd25519Point_of_header {raw : ByteArrayN 65} (hheader : raw.get 0 = 0x04) :
    ∃ xLast : UInt8, xCoordinate raw % 2 = xLast.toNat % 2 ∧
      compressEd25519Point raw =
        (ensure (yCoordinate raw < 2 ^ 255 - 19) (.refused .fieldOverflow) >>= fun _ ↦
          if xLast &&& 1 ≠ 0 then
            okOr .panicked (setAt (reversedY raw) 31 ((reversedY raw).get 31 ||| 0x80))
          else .ok (reversedY raw)) := by
  have hx : getRange raw.toList 1 33 = some ((raw.toList.take 33).drop 1) :=
    getRange_eq_some_iff.mpr (by simp)
  have hy : getRange raw.toList 33 65 = some (raw.toList.drop 33) := by
    rw [getRange_eq_some_iff, List.take_of_length_le (by simp)]
    simp
  have hxLength : ((raw.toList.take 33).drop 1).length = 32 := by simp
  have hyLength : (raw.toList.drop 33).length = 32 := by simp
  have hxLast : 31 < ((raw.toList.take 33).drop 1).length := by omega
  have hcopy := copyReversed_eq hyLength
  refine ⟨((raw.toList.take 33).drop 1)[31],
    ofBigEndian_mod_two hxLength (List.getElem?_eq_getElem hxLast), ?_⟩
  rw [compressEd25519Point, ensure_of_true hheader, ok_bind, hx, okOr_some, ok_bind, hy, okOr_some,
    ok_bind, hcopy, ok_bind, List.getElem?_eq_getElem hxLast, okOr_some]
  change (checkField (reversedY raw) >>= _) = _
  rw [checkField_eq, ofLittleEndian_reversedY]
  rfl

/-- A coordinate outside the field is refused, and this is the only refusal behind the header. -/
theorem compressEd25519Point_eq_fieldOverflow_iff {raw : ByteArrayN 65}
    (hheader : raw.get 0 = 0x04) :
    compressEd25519Point raw = .error (.refused .fieldOverflow) ↔
      2 ^ 255 - 19 ≤ yCoordinate raw := by
  obtain ⟨xLast, -, hcompress⟩ := compressEd25519Point_of_header hheader
  rw [hcompress, bind_eq_error_iff, ensure_eq_error_iff, not_lt]
  constructor
  · rintro (⟨hfield, -⟩ | ⟨_, -, hsign⟩)
    · exact hfield
    · split_ifs at hsign with hodd
      simp [okOr_eq_error_iff] at hsign
  · intro hfield
    exact Or.inl ⟨hfield, rfl⟩

/-- A coordinate in the field is kept, with the parity of the other one in the highest bit. -/
theorem exists_compressEd25519Point_eq_ok {raw : ByteArrayN 65} (hheader : raw.get 0 = 0x04)
    (hfield : yCoordinate raw < 2 ^ 255 - 19) :
    ∃ compressed, compressEd25519Point raw = .ok compressed ∧
      ofLittleEndian compressed.toList = yCoordinate raw + 2 ^ 255 * (xCoordinate raw % 2) := by
  obtain ⟨xLast, hparity, hcompress⟩ := compressEd25519Point_of_header hheader
  rw [hcompress, hparity, ensure_of_true hfield, ok_bind]
  split_ifs with hodd
  · have hsmall : ofLittleEndian (reversedY raw).toList < 2 ^ 255 := by
      rw [ofLittleEndian_reversedY]
      omega
    obtain ⟨packed, hwrite, hpacked⟩ := setAt_highBit hsmall
    refine ⟨packed, by rw [hwrite, okOr_some], ?_⟩
    rw [hpacked, ofLittleEndian_reversedY, and_one_ne_zero_iff.mp hodd, mul_one]
  · refine ⟨reversedY raw, rfl, ?_⟩
    rw [and_one_ne_zero_iff] at hodd
    rw [ofLittleEndian_reversedY, Nat.mod_two_ne_one.mp hodd, mul_zero, add_zero]

/-- What a compressed key says about the point. -/
theorem coordinates_of_compressEd25519Point {raw : ByteArrayN 65} {compressed : ByteArrayN 32}
    (hcompress : compressEd25519Point raw = .ok compressed) :
    yCoordinate raw = ofLittleEndian compressed.toList % 2 ^ 255 ∧
      xCoordinate raw % 2 = ofLittleEndian compressed.toList / 2 ^ 255 := by
  have hheader : raw.get 0 = 0x04 := by
    by_contra hheader
    rw [compressEd25519Point, ensure_of_false hheader] at hcompress
    cases hcompress
  have hfield : yCoordinate raw < 2 ^ 255 - 19 := by
    by_contra hfield
    rw [(compressEd25519Point_eq_fieldOverflow_iff hheader).mpr (not_lt.mp hfield)] at hcompress
    cases hcompress
  obtain ⟨_, hok, hvalue⟩ := exists_compressEd25519Point_eq_ok hheader hfield
  rw [hcompress] at hok
  obtain rfl := Except.ok.inj hok
  rw [hvalue]
  omega

/-- The compression of every uncompressed point.  The header is checked first, then the second
coordinate against the field prime.  The little-endian number of a compressed key is that coordinate
plus 2^255 for an odd first coordinate, so the key determines the coordinate and the parity, and is
determined by them. -/
theorem compressEd25519Point_exact :
    (∀ raw, raw.get 0 ≠ 0x04 →
        compressEd25519Point raw = .error (.refused (.invalidPointHeader (raw.get 0)))) ∧
      (∀ raw, raw.get 0 = 0x04 →
        (compressEd25519Point raw = .error (.refused .fieldOverflow) ↔
            2 ^ 255 - 19 ≤ yCoordinate raw) ∧
          (yCoordinate raw < 2 ^ 255 - 19 → ∃ compressed,
            compressEd25519Point raw = .ok compressed ∧
              ofLittleEndian compressed.toList =
                yCoordinate raw + 2 ^ 255 * (xCoordinate raw % 2))) ∧
      (∀ raw raw' compressed compressed', compressEd25519Point raw = .ok compressed →
        compressEd25519Point raw' = .ok compressed' →
        (compressed = compressed' ↔
          yCoordinate raw = yCoordinate raw' ∧ xCoordinate raw % 2 = xCoordinate raw' % 2)) ∧
      ∀ raw compressed, compressEd25519Point raw = .ok compressed →
        yCoordinate raw = ofLittleEndian compressed.toList % 2 ^ 255 ∧
          xCoordinate raw % 2 = ofLittleEndian compressed.toList / 2 ^ 255 := by
  refine ⟨?_, ?_, ?_, ?_⟩
  · intro raw hheader
    rw [compressEd25519Point, ensure_of_false hheader, error_bind]
  · intro raw hheader
    exact ⟨compressEd25519Point_eq_fieldOverflow_iff hheader,
      exists_compressEd25519Point_eq_ok hheader⟩
  · intro raw raw' compressed compressed' hcompress hcompress'
    have hcoordinates := coordinates_of_compressEd25519Point hcompress
    have hcoordinates' := coordinates_of_compressEd25519Point hcompress'
    constructor
    · rintro rfl
      exact ⟨hcoordinates.1.trans hcoordinates'.1.symm,
        hcoordinates.2.trans hcoordinates'.2.symm⟩
    · rintro ⟨hy, hx⟩
      have hnumbers : ofLittleEndian compressed.toList = ofLittleEndian compressed'.toList := by
        omega
      apply List.Vector.toList_injective
      exact (ofLittleEndian_inj (by simp)).mp hnumbers
  · intro raw compressed hcompress
    exact coordinates_of_compressEd25519Point hcompress

/-- The field prime is the least refused coordinate. -/
example :
    let point (low : UInt8) : ByteArrayN 65 :=
      ⟨0x04 :: List.replicate 32 0 ++ [0x7F] ++ List.replicate 30 0xFF ++ [low], by simp⟩
    compressEd25519Point (point 0xED) = .error (.refused .fieldOverflow) ∧
      compressEd25519Point (point 0xEC) =
        .ok ⟨0xEC :: List.replicate 30 0xFF ++ [0x7F], by simp⟩ := by
  decide +kernel

end SunriseEdgeLedger.Device
