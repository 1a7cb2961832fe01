import SunriseEdgeLedger.Core.Types

/-!
# The canonical field-framed wire format

The strict decoder of `CanonicalStruct` frames.  A frame is a magic, a little-endian type
identifier, version and field count, and then that many fields of an identifier, a length and the
bytes.  The decoder validates the field section without storing a field table; a decoded frame is a
view that holds the input and scans the field section again on every access.
-/

namespace SunriseEdgeLedger.Core

open Foundation

/-- `PROTOCOL_MAGIC`, the bytes of "SNRE" -/
def protocolMagic : Bytes := [0x53, 0x4E, 0x52, 0x45]

/-- Why a canonical frame or one of its fields was rejected. -/
inductive CanonicalError where
  | truncated
  | invalidMagic
  | nonCanonicalFieldOrder
  | trailingBytes
  | missingField (fieldId : UInt16)
  | unexpectedField (fieldId : UInt16)
  | invalidFieldLength (fieldId : UInt16) (expected actual : ℕ)
  | invalidUtf8 (fieldId : UInt16)
  | unexpectedTypeId (expected actual : UInt16)
  | unexpectedVersion (expected actual : UInt16)
deriving DecidableEq, Repr

/-- A validated view over one canonical frame.  The accessor `field_count` of the code is
`fieldCount.toNat`. -/
structure CanonicalFrame where
  typeId : UInt16
  version : UInt16
  fieldCount : UInt16
  fieldsStart : ℕ
  input : Bytes
deriving DecidableEq

variable [Target]

/-- The next `length` bytes, and the offset behind them. -/
def take (input : Bytes) (offset length : ℕ) : Except CanonicalError (Bytes × ℕ) := do
  let stop ← okOr .truncated (checkedAdd offset length)
  let bytes ← okOr .truncated (getRange input offset stop)
  .ok (bytes, stop)

def readU16 (input : Bytes) (offset : ℕ) : Except CanonicalError (UInt16 × ℕ) := do
  let (bytes, offset) ← take input offset 2
  let array ← okOr .truncated (arrayOf? 2 bytes)
  .ok (u16FromLeBytes array, offset)

def readU32 (input : Bytes) (offset : ℕ) : Except CanonicalError (UInt32 × ℕ) := do
  let (bytes, offset) ← take input offset 4
  let array ← okOr .truncated (arrayOf? 4 bytes)
  .ok (u32FromLeBytes array, offset)

/-- The validating pass over the remaining fields; it returns the offset behind the last one. -/
def decodeFields (input : Bytes) : ℕ → Option UInt16 → ℕ → Except CanonicalError ℕ
  | 0, _, offset => .ok offset
  | remaining + 1, previous, offset => do
    let (fieldId, offset) ← readU16 input offset
    if previous.any (fun previousId ↦ fieldId ≤ previousId) then .error .nonCanonicalFieldOrder
    else
      let (fieldLen, offset) ← readU32 input offset
      let fieldLen ← okOr .truncated (usizeTryFrom fieldLen)
      let (_, offset) ← take input offset fieldLen
      decodeFields input remaining (some fieldId) offset

/-- Decode and validate one complete canonical frame. -/
def decodeCanonicalFrame (input : Bytes) : Except CanonicalError CanonicalFrame := do
  let (magic, offset) ← take input 0 protocolMagic.length
  if magic ≠ protocolMagic then .error .invalidMagic
  else
    let (typeId, offset) ← readU16 input offset
    let (version, offset) ← readU16 input offset
    let (fieldCount, offset) ← readU16 input offset
    let stop ← decodeFields input fieldCount.toNat none offset
    if stop ≠ input.length then .error .trailingBytes
    else .ok { typeId, version, fieldCount, fieldsStart := offset, input }

namespace CanonicalFrame

omit [Target] in
def requireType (frame : CanonicalFrame) (expected : UInt16) : Except CanonicalError Unit :=
  ensure (frame.typeId = expected) (.unexpectedTypeId expected frame.typeId)

omit [Target] in
def requireVersion (frame : CanonicalFrame) (expected : UInt16) : Except CanonicalError Unit :=
  ensure (frame.version = expected) (.unexpectedVersion expected frame.version)

/-! ## Access by scanning again -/

/-- One field at an offset and the offset behind it: the reads that each round of `field` and
`require_only_fields` starts with. -/
def readField (input : Bytes) (offset : ℕ) : Except CanonicalError ((UInt16 × Bytes) × ℕ) := do
  let (id, offset) ← readU16 input offset
  let (len, offset) ← readU32 input offset
  let len ← okOr .truncated (usizeTryFrom len)
  let (bytes, offset) ← take input offset len
  .ok ((id, bytes), offset)

/-- The rounds of `field`: a failing read ends the scan without a result. -/
def scanField (input : Bytes) (fieldId : UInt16) : ℕ → ℕ → Option Bytes
  | 0, _ => none
  | remaining + 1, offset => do
    let ((id, bytes), offset) ← (readField input offset).toOption
    if id = fieldId then some bytes else scanField input fieldId remaining offset

/-- An optional raw field. -/
def field (frame : CanonicalFrame) (fieldId : UInt16) : Option Bytes :=
  scanField frame.input fieldId frame.fieldCount.toNat frame.fieldsStart

/-- A required raw field. -/
def requiredField (frame : CanonicalFrame) (fieldId : UInt16) : Except CanonicalError Bytes :=
  okOr (.missingField fieldId) (frame.field fieldId)

/-- The rounds of `require_only_fields`. -/
def scanAllowed (input : Bytes) (allowed : List UInt16) : ℕ → ℕ → Except CanonicalError Unit
  | 0, _ => .ok ()
  | remaining + 1, offset => do
    let ((id, _), offset) ← readField input offset
    if id ∈ allowed then scanAllowed input allowed remaining offset
    else .error (.unexpectedField id)

/-- Reject any field outside an allow-list. -/
def requireOnlyFields (frame : CanonicalFrame) (allowed : List UInt16) :
    Except CanonicalError Unit :=
  scanAllowed frame.input allowed frame.fieldCount.toNat frame.fieldsStart

/-- A required byte array of fixed size. -/
def requiredArray (frame : CanonicalFrame) (size : ℕ) (fieldId : UInt16) :
    Except CanonicalError (ByteArrayN size) := do
  let bytes ← frame.requiredField fieldId
  okOr (.invalidFieldLength fieldId size bytes.length) (arrayOf? size bytes)

/-- A required little-endian `u16`. -/
def requiredU16 (frame : CanonicalFrame) (fieldId : UInt16) : Except CanonicalError UInt16 :=
  (frame.requiredArray 2 fieldId).map u16FromLeBytes

/-- A required little-endian `u32`. -/
def requiredU32 (frame : CanonicalFrame) (fieldId : UInt16) : Except CanonicalError UInt32 :=
  (frame.requiredArray 4 fieldId).map u32FromLeBytes

/-- A required little-endian `u64`. -/
def requiredU64 (frame : CanonicalFrame) (fieldId : UInt16) : Except CanonicalError UInt64 :=
  (frame.requiredArray 8 fieldId).map u64FromLeBytes

end CanonicalFrame

/-- The four checks that every schema decoder but the one of the access manifest starts with: a
canonical frame, its type, its version, and no field outside the allow-list. -/
def decodeCanonicalStruct (typeId version : UInt16) (allowed : List UInt16) (input : Bytes) :
    Except CanonicalError CanonicalFrame := do
  let frame ← decodeCanonicalFrame input
  frame.requireType typeId
  frame.requireVersion version
  frame.requireOnlyFields allowed
  .ok frame

namespace CanonicalFrame

/-! ## What the typed accessors return -/

theorem requiredField_eq_ok_iff {frame : CanonicalFrame} {fieldId : UInt16} {bytes : Bytes} :
    frame.requiredField fieldId = .ok bytes ↔ frame.field fieldId = some bytes :=
  okOr_eq_ok_iff

theorem requiredArray_eq_ok_iff {frame : CanonicalFrame} {size : ℕ} {fieldId : UInt16}
    {array : ByteArrayN size} :
    frame.requiredArray size fieldId = .ok array ↔ frame.field fieldId = some array.toList := by
  simp [requiredArray, bind_eq_ok_iff, requiredField_eq_ok_iff]

theorem requiredU16_eq_ok_iff {frame : CanonicalFrame} {fieldId value : UInt16} :
    frame.requiredU16 fieldId = .ok value ↔ frame.field fieldId = some (u16ToLeBytes value) := by
  simp only [requiredU16, map_eq_ok_iff, requiredArray_eq_ok_iff, u16FromLeBytes_eq_iff]
  constructor
  · rintro ⟨array, hfield, hvalue⟩
    rw [hfield, hvalue]
  · intro hfield
    exact ⟨⟨u16ToLeBytes value, by simp⟩, hfield, rfl⟩

theorem requiredU32_eq_ok_iff {frame : CanonicalFrame} {fieldId : UInt16} {value : UInt32} :
    frame.requiredU32 fieldId = .ok value ↔ frame.field fieldId = some (u32ToLeBytes value) := by
  simp only [requiredU32, map_eq_ok_iff, requiredArray_eq_ok_iff, u32FromLeBytes_eq_iff]
  constructor
  · rintro ⟨array, hfield, hvalue⟩
    rw [hfield, hvalue]
  · intro hfield
    exact ⟨⟨u32ToLeBytes value, by simp⟩, hfield, rfl⟩

theorem requiredU64_eq_ok_iff {frame : CanonicalFrame} {fieldId : UInt16} {value : UInt64} :
    frame.requiredU64 fieldId = .ok value ↔ frame.field fieldId = some (u64ToLeBytes value) := by
  simp only [requiredU64, map_eq_ok_iff, requiredArray_eq_ok_iff, u64FromLeBytes_eq_iff]
  constructor
  · rintro ⟨array, hfield, hvalue⟩
    rw [hfield, hvalue]
  · intro hfield
    exact ⟨⟨u64ToLeBytes value, by simp⟩, hfield, rfl⟩

omit [Target] in
@[simp]
theorem requireType_eq_ok_iff {frame : CanonicalFrame} {expected : UInt16} {result : Unit} :
    frame.requireType expected = .ok result ↔ frame.typeId = expected :=
  ensure_eq_ok_iff

omit [Target] in
@[simp]
theorem requireVersion_eq_ok_iff {frame : CanonicalFrame} {expected : UInt16} {result : Unit} :
    frame.requireVersion expected = .ok result ↔ frame.version = expected :=
  ensure_eq_ok_iff

end CanonicalFrame

end SunriseEdgeLedger.Core
