import SunriseEdgeLedger.Core.Review
import SunriseEdgeLedger.Foundation.Numerals

/-!
# The displayed facts

The formatting of a review as the facts that the device displays.  The formatters write into buffers
of fixed size and index them without a check; an index out of bounds would end the application, and
this is the fault `panicked` here.  No formatter runs into it: each one either refuses its value or
returns a buffer that starts with the whole text of the value, so values are never truncated.
-/

namespace SunriseEdgeLedger.Device

open SunriseEdgeLedger.Foundation SunriseEdgeLedger.Core

/-- `MAX_FACT_LEN` -/
def maxFactLen : ℕ := 96

/-- `HEX_CHARS` -/
def hexChars : ByteArrayN 16 :=
  ⟨[48, 49, 50, 51, 52, 53, 54, 55, 56, 57, 97, 98, 99, 100, 101, 102], rfl⟩

/-- Why a fact could not be represented. -/
inductive ReviewFormatError where
  | nonAscii
  | valueTooLong
  | wrongAccessCount
  | missingFee
  | invalidInternalText
deriving DecidableEq, Repr

/-- How a formatter stops: with an error, or by an index out of bounds. -/
inductive FormatFault where
  | refused (error : ReviewFormatError)
  | panicked
deriving DecidableEq, Repr

/-- A text in a buffer of fixed size. -/
structure BoundedFactStr where
  buf : ByteArrayN maxFactLen
  len : ℕ
deriving DecidableEq

/-- Write bytes one behind the other, the first one at `start`. -/
def writeBytes {capacity : ℕ} (buf : ByteArrayN capacity) (start : ℕ) :
    Bytes → Except FormatFault (ByteArrayN capacity)
  | [] => .ok buf
  | byte :: bytes => do
    let buf ← okOr .panicked (setAt buf start byte)
    writeBytes buf (start + 1) bytes

namespace BoundedFactStr

def empty : BoundedFactStr where
  buf := padTo maxFactLen 0 []
  len := 0

/-- Copy an ASCII text. -/
def tryFromStr (text : String) : Except FormatFault BoundedFactStr := do
  ensure (isAscii text) (.refused .nonAscii)
  ensure ((asBytes text).length ≤ maxFactLen) (.refused .valueTooLong)
  let buf ← writeBytes empty.buf 0 (asBytes text)
  .ok { buf, len := (asBytes text).length }

/-- The rounds that write the digits of a number into the scratch array, the least significant
first; `free` of its slots are still free. -/
def writeDigits : ℕ → ByteArrayN 20 → ℕ → UInt64 → Except FormatFault (ByteArrayN 20 × ℕ)
  | 0, temp, digits, num => if num = 0 then .ok (temp, digits) else .error .panicked
  | free + 1, temp, digits, num =>
    if num = 0 then .ok (temp, digits)
    else do
      let temp ← okOr .panicked (setAt temp digits (48 + (num % 10).toUInt8))
      writeDigits free temp (digits + 1) (num / 10)

/-- A difference of indices.  Where it is negative, the build panics or wraps around to an index
that is out of the bounds of every buffer here. -/
def indexSub (left right : ℕ) : Option ℕ := if right ≤ left then some (left - right) else none

/-- The digit that round `i` of the reverse copy reads, `temp[digits - 1 - i]`. -/
def reversedDigit (temp : ByteArrayN 20) (digits i : ℕ) : Option UInt8 := do
  let last ← indexSub digits 1
  let index ← indexSub last i
  temp.toList[index]?

/-- Format a number in decimal. -/
def fromU64 (val : UInt64) : Except FormatFault BoundedFactStr :=
  if val = 0 then do
    let buf ← okOr .panicked (setAt empty.buf 0 48)
    .ok { buf, len := 1 }
  else do
    let (temp, digits) ← writeDigits 20 (padTo 20 0 []) 0 val
    let buf ← okOr .panicked (fillFrom (reversedDigit temp digits) digits 0 empty.buf)
    .ok { buf, len := digits }

/-- Write the digits of one byte, each looked up in `HEX_CHARS`, to the cells `start` and
`start + 1`. -/
def writeHexByte (buf : ByteArrayN maxFactLen) (start : ℕ) (byte : UInt8) :
    Except FormatFault (ByteArrayN maxFactLen) := do
  let high ← okOr .panicked hexChars.toList[(byte >>> 4).toNat]?
  let buf ← okOr .panicked (setAt buf start high)
  let low ← okOr .panicked hexChars.toList[(byte &&& 0x0F).toNat]?
  okOr .panicked (setAt buf (start + 1) low)

/-- The rounds of the hexadecimal formatter from index `i` on: byte `i` is written to the cells
`i * 2` and `i * 2 + 1`. -/
def writeHexRounds (buf : ByteArrayN maxFactLen) (i : ℕ) :
    Bytes → Except FormatFault (ByteArrayN maxFactLen)
  | [] => .ok buf
  | byte :: bytes => do
    let buf ← writeHexByte buf (i * 2) byte
    writeHexRounds buf (i + 1) bytes

/-- Format bytes in lowercase hexadecimal. -/
def tryFromHex [Target] (bytes : Bytes) : Except FormatFault BoundedFactStr := do
  let encodedLen ← okOr (.refused .valueTooLong) (checkedMul bytes.length 2)
  ensure (encodedLen ≤ maxFactLen) (.refused .valueTooLong)
  let buf ← writeHexRounds empty.buf 0 bytes
  .ok { buf, len := encodedLen }

/-- The rounds of the digest formatter: every byte is written behind the `len` cells in use. -/
def writeDigestRounds (buf : ByteArrayN maxFactLen) (len : ℕ) :
    Bytes → Except FormatFault (ByteArrayN maxFactLen × ℕ)
  | [] => .ok (buf, len)
  | byte :: bytes => do
    let buf ← writeHexByte buf len byte
    writeDigestRounds buf (len + 2) bytes

/-- Format a digest as its algorithm and its bytes in hexadecimal, with a colon between them. -/
def tryFromDigest [Target] (digest : Digest32) : Except FormatFault BoundedFactStr := do
  let prefixBytes := asBytes digest.algorithm.label
  let digestBytes := digest.bytes.toList
  let digestHexLen ← okOr (.refused .valueTooLong) (checkedMul digestBytes.length 2)
  let requiredLen ← okOr (.refused .valueTooLong)
    ((checkedAdd prefixBytes.length 1).bind fun len ↦ checkedAdd len digestHexLen)
  ensure (requiredLen ≤ maxFactLen) (.refused .valueTooLong)
  let buf ← writeBytes empty.buf 0 prefixBytes
  let buf ← okOr .panicked (setAt buf prefixBytes.length 58)
  let (buf, len) ← writeDigestRounds buf (prefixBytes.length + 1) digestBytes
  .ok { buf, len }

/-- The text itself. -/
def asStr (fact : BoundedFactStr) : Except FormatFault String := do
  let bytes ← okOr .panicked (getRange fact.buf.toList 0 fact.len)
  okOr (.refused .invalidInternalText) (fromUtf8 bytes)

end BoundedFactStr

/-- One displayed fact. -/
structure ReviewFact where
  name : String
  value : BoundedFactStr
deriving DecidableEq

/-- The facts of one access line, under their names. -/
def accessFacts [Target] (modeName objectIdName versionName digestName : String)
    (line : AccessLine) : List (String × Except FormatFault BoundedFactStr) :=
  [(modeName, BoundedFactStr.tryFromStr line.mode.label),
    (objectIdName, BoundedFactStr.tryFromHex line.objectId.bytes.toList),
    (versionName, BoundedFactStr.fromU64 line.version),
    (digestName, BoundedFactStr.tryFromDigest line.digest)]

/-- The formatted facts of a review with three access lines and a fee, in the order of display. -/
def factList [Target] (review : ClearSigningReview) (access0 access1 access2 : AccessLine)
    (fee : FeeLine) : List (String × Except FormatFault BoundedFactStr) :=
  [("chain_id", BoundedFactStr.tryFromStr review.chainId.asStr),
    ("protocol_version", BoundedFactStr.fromU64 review.protocolVersion.toUInt64),
    ("epoch", BoundedFactStr.fromU64 review.epoch),
    ("message_type", BoundedFactStr.tryFromStr review.messageType.asStr),
    ("scheme", BoundedFactStr.tryFromStr review.scheme.label),
    ("sender", BoundedFactStr.tryFromHex review.sender.bytes.toList),
    ("nonce", BoundedFactStr.fromU64 review.nonce),
    ("module_id", BoundedFactStr.tryFromHex review.moduleId.bytes.toList),
    ("module_version", BoundedFactStr.fromU64 review.moduleVersion),
    ("module_digest", BoundedFactStr.tryFromDigest review.moduleDigest),
    ("entrypoint", BoundedFactStr.tryFromStr review.entrypoint.asStr),
    (review.amountLabel, BoundedFactStr.fromU64 review.amount),
    ("gas_limit", BoundedFactStr.fromU64 review.gasLimit),
    ("manifest_count", BoundedFactStr.fromU64 (UInt64.ofNat review.accessEntries.len))] ++
  accessFacts "access[0].mode" "access[0].object_id" "access[0].version" "access[0].digest"
    access0 ++
  accessFacts "access[1].mode" "access[1].object_id" "access[1].version" "access[1].digest"
    access1 ++
  accessFacts "access[2].mode" "access[2].object_id" "access[2].version" "access[2].digest"
    access2 ++
  [("fee_payment", BoundedFactStr.tryFromStr "present"),
    ("fee_asset", BoundedFactStr.tryFromHex fee.assetId.bytes.toList),
    ("fee_max", BoundedFactStr.fromU64 fee.maxFee),
    ("fee_object_id", BoundedFactStr.tryFromHex fee.feeObjectId.bytes.toList),
    ("fee_object_version", BoundedFactStr.fromU64 fee.feeObjectVersion),
    ("fee_object_digest", BoundedFactStr.tryFromDigest fee.feeObjectDigest)]

/-- Evaluate the facts of a list in order. -/
def collectFacts : List (String × Except FormatFault BoundedFactStr) →
    Except FormatFault (List ReviewFact)
  | [] => .ok []
  | (name, computation) :: rest => do
    let value ← computation
    let facts ← collectFacts rest
    .ok ({ name, value } :: facts)

/-- Format all facts of a review. -/
def formatReviewFacts [Target] (review : ClearSigningReview) :
    Except FormatFault (List ReviewFact) := do
  ensure (review.accessEntries.len = 3) (.refused .wrongAccessCount)
  let accessLines := review.accessLines
  let access0 ← okOr (.refused .wrongAccessCount) accessLines[0]?
  let access1 ← okOr (.refused .wrongAccessCount) accessLines[1]?
  let access2 ← okOr (.refused .wrongAccessCount) accessLines[2]?
  ensure (accessLines[3]? = none) (.refused .wrongAccessCount)
  let fee ← okOr (.refused .missingFee) review.fee
  collectFacts (factList review access0 access1 access2 fee)

end SunriseEdgeLedger.Device
