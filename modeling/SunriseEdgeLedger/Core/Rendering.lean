import SunriseEdgeLedger.Core.Review
import SunriseEdgeLedger.Foundation.Numerals

/-!
# The reference rendering of a review

The displayed form of the identifiers and digests, and the renderer that writes a review as lines
`name=value` from these forms and the labels.  The renderer is the reference for the display of the
device: the conformance tests of both crates pin its lines.
-/

namespace SunriseEdgeLedger.Core

open Foundation

/-- `{byte:02x}` -/
def lowerHex (byte : UInt8) : String :=
  String.ofList ((Nat.toDigits 16 byte.toNat).leftpad 2 '0')

example : lowerHex 0x0A = "0a" := by decide

/-- Append every byte in hexadecimal. -/
def writeHex (text : String) (bytes : Bytes) : String :=
  bytes.foldl (fun text byte ↦ text ++ lowerHex byte) text

def ObjectId.display (id : ObjectId) : String := writeHex "" id.bytes.toList

def Address.display (address : Address) : String := writeHex "" address.bytes.toList

def AssetId.display (asset : AssetId) : String := writeHex "" asset.bytes.toList

def HashAlgorithmId.display (algorithm : HashAlgorithmId) : String := algorithm.label

def Digest32.display (digest : Digest32) : String :=
  writeHex (digest.algorithm.display ++ ":") digest.bytes.toList

/-- The lines of one access-manifest entry. -/
def renderAccessLine (index : ℕ) (line : AccessLine) : List String :=
  ["access[" ++ index.repr ++ "].mode=" ++ line.mode.label,
    "access[" ++ index.repr ++ "].object_id=" ++ line.objectId.display,
    "access[" ++ index.repr ++ "].version=" ++ line.version.toNat.repr,
    "access[" ++ index.repr ++ "].digest=" ++ line.digest.display]

/-- The lines of the signed context, the call, and the number of manifest entries. -/
def renderCallLines (review : ClearSigningReview) : List String :=
  ["chain_id=" ++ review.chainId.asStr,
    "protocol_version=" ++ review.protocolVersion.toNat.repr,
    "epoch=" ++ review.epoch.toNat.repr,
    "message_type=" ++ review.messageType.asStr,
    "scheme=" ++ review.scheme.label,
    "sender=" ++ review.sender.display,
    "nonce=" ++ review.nonce.toNat.repr,
    "module_id=" ++ review.moduleId.display,
    "module_version=" ++ review.moduleVersion.toNat.repr,
    "module_digest=" ++ review.moduleDigest.display,
    "entrypoint=" ++ review.entrypoint.asStr,
    review.amountLabel ++ "=" ++ review.amount.toNat.repr,
    "gas_limit=" ++ review.gasLimit.toNat.repr,
    "manifest_count=" ++ review.accessEntries.len.repr]

/-- The lines of the fee. -/
def renderFeeLines (fee : FeeLine) : List String :=
  ["fee_payment=present",
    "fee_asset=" ++ fee.assetId.display,
    "fee_max=" ++ fee.maxFee.toNat.repr,
    "fee_object_id=" ++ fee.feeObjectId.display,
    "fee_object_version=" ++ fee.feeObjectVersion.toNat.repr,
    "fee_object_digest=" ++ fee.feeObjectDigest.display]

/-- `render_review_lines`, which expects a fee. -/
def renderReviewLines (review : ClearSigningReview) : Option (List String) := do
  let fee ← review.fee
  some (renderCallLines review ++
    review.accessLines.zipIdx.flatMap (fun (line, index) ↦ renderAccessLine index line) ++
    renderFeeLines fee)

theorem asciiText_append (first second : Bytes) :
    asciiText (first ++ second) = asciiText first ++ asciiText second := by
  rw [asciiText, List.map_append, String.ofList_append]
  rfl

/-- An ASCII text is read back from its bytes. -/
theorem asciiText_asBytes {text : String} (hascii : isAscii text) :
    asciiText (asBytes text) = text := by
  have hbytes : ∀ byte ∈ asBytes text, byte < 128 := by simpa [isAscii] using hascii
  exact asBytes_injective (asBytes_asciiText hbytes)

theorem asciiText_decimalText (number : ℕ) : asciiText (decimalText number) = number.repr := by
  rw [asciiText, map_decimalText]
  rfl

theorem writeHex_eq (text : String) (bytes : Bytes) :
    writeHex text bytes =
      text ++ String.ofList (hexText (fun digit ↦ Nat.digitChar digit.val) bytes) := by
  induction bytes generalizing text with
  | nil => exact (String.append_empty).symm
  | cons byte bytes ih =>
    have hstep : writeHex text (byte :: bytes) = writeHex (text ++ lowerHex byte) bytes := rfl
    rw [hstep, ih, lowerHex, leftpad_toDigits, String.append_assoc, ← String.ofList_append]
    rfl

end SunriseEdgeLedger.Core
