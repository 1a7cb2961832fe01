import SunriseEdgeLedger.Foundation.Endian
import SunriseEdgeLedger.Foundation.FixedBuffer

/-!
# Primitive values of the wallet code

Byte slices, fixed-size byte arrays, machine integers in wire order, and `str`, as the decoders and
the signing session use them.  A byte slice is a list of bytes and `usize` is a natural number; the
width of `usize` enters only through the checked operations, which consult the build `Target`.  A
`str` is a Lean `String`, whose byte representation is valid UTF-8 by construction.
-/

namespace SunriseEdgeLedger.Core

open Foundation

/-- A byte slice. -/
abbrev Bytes := List UInt8

/-- A byte array of fixed size, `[u8; N]`. -/
abbrev ByteArrayN (size : ℕ) := List.Vector UInt8 size

/-- The two kinds of build: the devices, with 32-bit `usize`, and the 64-bit hosts that run the
conformance tests. -/
class inductive Target where
  | device
  | host

/-- The number of bits of `usize`. -/
def Target.usizeBits : [Target] → ℕ
  | .device => 32
  | .host => 64

/-- No object spans more than `isize::MAX` bytes. -/
def Target.isizeMax [Target] : ℕ := 2 ^ (Target.usizeBits - 1) - 1

theorem Target.le_usizeBits [Target] : 32 ≤ Target.usizeBits := by
  rename_i target
  cases target <;> decide

theorem Target.two_pow_le [Target] : 2 ^ 32 ≤ 2 ^ Target.usizeBits :=
  Nat.pow_le_pow_right (by norm_num) Target.le_usizeBits

theorem Target.isizeMax_lt [Target] : Target.isizeMax < 2 ^ Target.usizeBits := by
  have hpow : 2 ^ (Target.usizeBits - 1) ≤ 2 ^ Target.usizeBits :=
    Nat.pow_le_pow_right (by norm_num) (by omega)
  have hpos : 0 < 2 ^ (Target.usizeBits - 1) := by positivity
  unfold Target.isizeMax
  omega

/-- A byte slice that can exist on the target. -/
def Slice [Target] := { bytes : Bytes // bytes.length ≤ Target.isizeMax }

/-- `usize::checked_add`. -/
def checkedAdd [Target] (left right : ℕ) : Option ℕ :=
  if left + right < 2 ^ Target.usizeBits then some (left + right) else none

/-- `usize::checked_mul`. -/
def checkedMul [Target] (left right : ℕ) : Option ℕ :=
  if left * right < 2 ^ Target.usizeBits then some (left * right) else none

/-- `usize::try_from` on a `u32`. -/
def usizeTryFrom [Target] (value : UInt32) : Option ℕ :=
  if value.toNat < 2 ^ Target.usizeBits then some value.toNat else none

/-- `u16::try_from` on a `usize`. -/
def u16TryFrom (value : ℕ) : Option UInt16 :=
  if value < 2 ^ 16 then some (UInt16.ofNat value) else none

/-- `u32::try_from` on a `usize`. -/
def u32TryFrom (value : ℕ) : Option UInt32 :=
  if value < 2 ^ 32 then some (UInt32.ofNat value) else none

/-- `u32::checked_add`. -/
def u32CheckedAdd (left right : UInt32) : Option UInt32 :=
  if left.toNat + right.toNat < 2 ^ 32 then some (left + right) else none

/-- `u32::checked_sub`. -/
def u32CheckedSub (left right : UInt32) : Option UInt32 :=
  if right ≤ left then some (left - right) else none

@[simp]
theorem usizeTryFrom_eq [Target] (value : UInt32) : usizeTryFrom value = some value.toNat :=
  if_pos (value.toNat_lt.trans_le Target.two_pow_le)

theorem checkedAdd_eq_some_iff [Target] {left right sum : ℕ} :
    checkedAdd left right = some sum ↔ left + right = sum ∧ sum < 2 ^ Target.usizeBits := by
  unfold checkedAdd
  split_ifs with hfits
  · simp only [Option.some.injEq]
    constructor
    · rintro rfl
      exact ⟨rfl, hfits⟩
    · exact And.left
  · simp only [false_iff]
    rintro ⟨rfl, hsum⟩
    exact hfits hsum

theorem checkedMul_eq_some_iff [Target] {left right product : ℕ} :
    checkedMul left right = some product ↔
      left * right = product ∧ product < 2 ^ Target.usizeBits := by
  unfold checkedMul
  split_ifs with hfits
  · simp only [Option.some.injEq]
    constructor
    · rintro rfl
      exact ⟨rfl, hfits⟩
    · exact And.left
  · simp only [false_iff]
    rintro ⟨rfl, hproduct⟩
    exact hfits hproduct

/-- The numeric order on `u16`, with the comparison that the language provides. -/
instance instLinearOrderU16 : LinearOrder UInt16 where
  le := (· ≤ ·)
  lt := (· < ·)
  le_refl value := by simp only [UInt16.le_iff_toNat_le]; exact le_rfl
  le_trans first second third := by simp only [UInt16.le_iff_toNat_le]; exact le_trans
  lt_iff_le_not_ge first second := by
    simp only [UInt16.lt_iff_toNat_lt, UInt16.le_iff_toNat_le]; exact lt_iff_le_not_ge
  le_antisymm first second hle hge := by
    rw [UInt16.le_iff_toNat_le] at hle hge
    exact UInt16.toNat_inj.mp (le_antisymm hle hge)
  le_total first second := by simp only [UInt16.le_iff_toNat_le]; exact le_total _ _
  min first second := if first ≤ second then first else second
  max first second := if first ≤ second then second else first
  toDecidableLE := inferInstance
  toDecidableLT := inferInstance
  toDecidableEq := inferInstance

/-- `<[u8; N]>::try_from` on a slice. -/
def arrayOf? (size : ℕ) (slice : Bytes) : Option (ByteArrayN size) :=
  if hsize : slice.length = size then some ⟨slice, hsize⟩ else none

@[simp]
theorem arrayOf?_eq_some_iff {size : ℕ} {slice : Bytes} {array : ByteArrayN size} :
    arrayOf? size slice = some array ↔ slice = array.toList := by
  unfold arrayOf?
  split_ifs with hsize
  · constructor
    · intro harray
      obtain rfl := Option.some.inj harray
      rfl
    · rintro rfl
      rfl
  · simp only [false_iff]
    rintro rfl
    exact hsize array.toList_length

@[simp]
theorem arrayOf?_toList {size : ℕ} (array : ByteArrayN size) :
    arrayOf? size array.toList = some array :=
  arrayOf?_eq_some_iff.mpr rfl

/-- `u16::from_le_bytes`. -/
def u16FromLeBytes (array : ByteArrayN 2) : UInt16 := UInt16.ofNat (ofLittleEndian array.toList)

/-- `u32::from_le_bytes`. -/
def u32FromLeBytes (array : ByteArrayN 4) : UInt32 := UInt32.ofNat (ofLittleEndian array.toList)

/-- `u64::from_le_bytes`. -/
def u64FromLeBytes (array : ByteArrayN 8) : UInt64 := UInt64.ofNat (ofLittleEndian array.toList)

/-- `u32::from_be_bytes`. -/
def u32FromBeBytes (array : ByteArrayN 4) : UInt32 := UInt32.ofNat (ofBigEndian array.toList)

/-- `u16::to_le_bytes`. -/
def u16ToLeBytes (value : UInt16) : Bytes := toLittleEndian 2 value.toNat

/-- `u32::to_le_bytes`. -/
def u32ToLeBytes (value : UInt32) : Bytes := toLittleEndian 4 value.toNat

/-- `u64::to_le_bytes`. -/
def u64ToLeBytes (value : UInt64) : Bytes := toLittleEndian 8 value.toNat

/-- `u16::to_be_bytes`. -/
def u16ToBeBytes (value : UInt16) : Bytes := toBigEndian 2 value.toNat

/-- `u32::to_be_bytes`. -/
def u32ToBeBytes (value : UInt32) : Bytes := toBigEndian 4 value.toNat

@[simp]
theorem length_u16ToLeBytes (value : UInt16) : (u16ToLeBytes value).length = 2 :=
  length_toLittleEndian _ _

@[simp]
theorem length_u32ToLeBytes (value : UInt32) : (u32ToLeBytes value).length = 4 :=
  length_toLittleEndian _ _

@[simp]
theorem length_u64ToLeBytes (value : UInt64) : (u64ToLeBytes value).length = 8 :=
  length_toLittleEndian _ _

@[simp]
theorem length_u32ToBeBytes (value : UInt32) : (u32ToBeBytes value).length = 4 :=
  length_toBigEndian _ _

theorem ofLittleEndian_u16ToLeBytes (value : UInt16) :
    ofLittleEndian (u16ToLeBytes value) = value.toNat := by
  rw [u16ToLeBytes, ofLittleEndian_toLittleEndian]
  exact Nat.mod_eq_of_lt value.toNat_lt

theorem ofLittleEndian_u32ToLeBytes (value : UInt32) :
    ofLittleEndian (u32ToLeBytes value) = value.toNat := by
  rw [u32ToLeBytes, ofLittleEndian_toLittleEndian]
  exact Nat.mod_eq_of_lt value.toNat_lt

theorem ofLittleEndian_u64ToLeBytes (value : UInt64) :
    ofLittleEndian (u64ToLeBytes value) = value.toNat := by
  rw [u64ToLeBytes, ofLittleEndian_toLittleEndian]
  exact Nat.mod_eq_of_lt value.toNat_lt

/-- An array reads as an integer exactly when it holds the bytes of that integer. -/
theorem u16FromLeBytes_eq_iff {array : ByteArrayN 2} {value : UInt16} :
    u16FromLeBytes array = value ↔ array.toList = u16ToLeBytes value := by
  have hbytes := ofLittleEndian_eq_iff array.toList value.toNat
    (by simpa using value.toNat_lt)
  have hnumber := ofLittleEndian_lt array.toList
  rw [array.toList_length] at hbytes hnumber
  rw [u16ToLeBytes, ← hbytes, u16FromLeBytes, ← UInt16.toNat_inj,
    UInt16.toNat_ofNat_of_lt' (by simpa using hnumber)]

theorem u32FromLeBytes_eq_iff {array : ByteArrayN 4} {value : UInt32} :
    u32FromLeBytes array = value ↔ array.toList = u32ToLeBytes value := by
  have hbytes := ofLittleEndian_eq_iff array.toList value.toNat
    (by simpa using value.toNat_lt)
  have hnumber := ofLittleEndian_lt array.toList
  rw [array.toList_length] at hbytes hnumber
  rw [u32ToLeBytes, ← hbytes, u32FromLeBytes, ← UInt32.toNat_inj,
    UInt32.toNat_ofNat_of_lt' (by simpa using hnumber)]

theorem u64FromLeBytes_eq_iff {array : ByteArrayN 8} {value : UInt64} :
    u64FromLeBytes array = value ↔ array.toList = u64ToLeBytes value := by
  have hbytes := ofLittleEndian_eq_iff array.toList value.toNat
    (by simpa using value.toNat_lt)
  have hnumber := ofLittleEndian_lt array.toList
  rw [array.toList_length] at hbytes hnumber
  rw [u64ToLeBytes, ← hbytes, u64FromLeBytes, ← UInt64.toNat_inj,
    UInt64.toNat_ofNat_of_lt' (by simpa using hnumber)]

theorem u32FromBeBytes_eq_iff {array : ByteArrayN 4} {value : UInt32} :
    u32FromBeBytes array = value ↔ array.toList = u32ToBeBytes value := by
  have hbytes := ofBigEndian_eq_iff array.toList value.toNat
    (by simpa using value.toNat_lt)
  have hnumber := ofBigEndian_lt array.toList
  rw [array.toList_length] at hbytes hnumber
  rw [u32ToBeBytes, ← hbytes, u32FromBeBytes, ← UInt32.toNat_inj,
    UInt32.toNat_ofNat_of_lt' (by simpa using hnumber)]

theorem toNat_u32FromBeBytes (array : ByteArrayN 4) :
    (u32FromBeBytes array).toNat = ofBigEndian array.toList := by
  have hnumber := ofBigEndian_lt array.toList
  rw [array.toList_length] at hnumber
  rw [u32FromBeBytes, UInt32.toNat_ofNat_of_lt' (by simpa using hnumber)]

/-! ## Text -/

/-- `str::as_bytes`. -/
def asBytes (text : String) : Bytes := text.toByteArray.data.toList

/-- `core::str::from_utf8`. -/
def fromUtf8 (bytes : Bytes) : Option String := String.fromUTF8? bytes.toByteArray

/-- Exactly the byte representations of strings are valid UTF-8. -/
theorem fromUtf8_eq_some_iff {bytes : Bytes} {text : String} :
    fromUtf8 bytes = some text ↔ bytes = asBytes text := by
  unfold fromUtf8 String.fromUTF8? asBytes
  constructor
  · intro htext
    split_ifs at htext with hvalid
    obtain rfl := Option.some.inj htext
    change bytes = bytes.toByteArray.data.toList
    rw [List.toList_data_toByteArray]
  · rintro rfl
    have hbytes : text.toByteArray.data.toList.toByteArray = text.toByteArray := by
      apply ByteArray.ext
      apply Array.toList_inj.mp
      rw [List.toList_data_toByteArray]
    rw [hbytes, dif_pos text.isValidUTF8]
    rfl

@[simp]
theorem fromUtf8_asBytes (text : String) : fromUtf8 (asBytes text) = some text :=
  fromUtf8_eq_some_iff.mpr rfl

theorem asBytes_injective : Function.Injective asBytes := by
  intro first second hbytes
  have hfirst := fromUtf8_asBytes first
  rw [hbytes, fromUtf8_asBytes] at hfirst
  exact (Option.some.inj hfirst).symm

/-- The code points with the Unicode property `White_Space`. -/
def isWhiteSpace (character : Char) : Bool :=
  let code := character.toNat
  (0x9 ≤ code && code ≤ 0xD) || code == 0x20 || code == 0x85 || code == 0xA0 || code == 0x1680 ||
    (0x2000 ≤ code && code ≤ 0x200A) || code == 0x2028 || code == 0x2029 || code == 0x202F ||
    code == 0x205F || code == 0x3000

/-- `str::trim`: the text without the white space at either end. -/
def trim (text : String) : String :=
  String.ofList
    ((text.toList.dropWhile isWhiteSpace).reverse.dropWhile isWhiteSpace).reverse

/-- `str::is_ascii`. -/
def isAscii (text : String) : Bool := (asBytes text).all (· < 128)

/-- The text with given ASCII bytes. -/
def asciiText (bytes : Bytes) : String :=
  String.ofList (bytes.map fun byte ↦ Char.ofNat byte.toNat)

theorem utf8EncodeChar_ascii {byte : UInt8} (hascii : byte < 128) :
    String.utf8EncodeChar (Char.ofNat byte.toNat) = [byte] := by
  have hbyte : byte.toNat < 128 := UInt8.lt_iff_toNat_lt.mp hascii
  have hvalid : byte.toNat.isValidChar := Or.inl (by omega)
  have hcode : (Char.ofNat byte.toNat).val.toNat = byte.toNat := by
    rw [Char.ofNat, dif_pos hvalid]
    rfl
  have hsize : (Char.ofNat byte.toNat).utf8Size = 1 := by
    rw [Char.utf8Size_eq_one_iff, UInt32.le_iff_toNat_le, hcode]
    exact Nat.le_of_lt_succ hbyte
  rw [String.utf8EncodeChar_eq_singleton hsize]
  congr 1
  apply UInt8.toNat_inj.mp
  rw [UInt32.toNat_toUInt8, hcode]
  exact Nat.mod_eq_of_lt (by omega)

/-- ASCII bytes are the bytes of a text. -/
theorem asBytes_asciiText {bytes : Bytes} (hascii : ∀ byte ∈ bytes, byte < 128) :
    asBytes (asciiText bytes) = bytes := by
  have hflat : (bytes.map fun byte ↦ Char.ofNat byte.toNat).flatMap String.utf8EncodeChar =
      bytes := by
    induction bytes with
    | nil => rfl
    | cons byte bytes ih =>
      rw [List.map_cons, List.flatMap_cons, utf8EncodeChar_ascii (hascii byte (by simp)),
        ih fun other hother ↦ hascii other (List.mem_cons_of_mem _ hother)]
      rfl
  rw [asBytes, asciiText, String.toByteArray_ofList, List.utf8Encode, hflat,
    List.toList_data_toByteArray]

end SunriseEdgeLedger.Core
