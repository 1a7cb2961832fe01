import SunriseEdgeLedger.Core.Canonical

/-!
# The outer signature frame

The strict decoder of the frame that is signed: the signed context (chain, protocol version and
epoch), the message type, the signature scheme, and the framed payload.
-/

namespace SunriseEdgeLedger.Core

open Foundation

/-- `SIGNATURE_FRAME_TYPE_ID` -/
def signatureFrameTypeId : UInt16 := 0x2001

/-- `SIGNATURE_FRAME_VERSION` -/
def signatureFrameVersion : UInt16 := 1

/-- `ALLOWED_FIELDS` of the signature frame. -/
def signatureFrameFieldIds : List UInt16 := [1, 2, 3, 4, 5, 6]

/-- `MAX_CHAIN_ID_BYTES`, shared by the signature frame and the transaction. -/
def maxChainIdBytes : ℕ := 64

/-- `MAX_MESSAGE_TYPE_BYTES` -/
def maxMessageTypeBytes : ℕ := 32

/-- Why a signature frame was rejected. -/
inductive FrameError where
  | canonical (error : CanonicalError)
  | chainId (error : BoundedStrError)
  | messageType (error : BoundedStrError)
  | unknownSignatureScheme (value : UInt16)
  | emptyChainId
  | emptyMessageType
deriving DecidableEq, Repr

/-- A decoded signature frame.  The payload is the content of field 6 exactly as signed. -/
@[ext]
structure SignatureFrame where
  chainId : BoundedStr maxChainIdBytes
  protocolVersion : UInt32
  epoch : UInt64
  messageType : BoundedStr maxMessageTypeBytes
  signatureSchemeId : SignatureSchemeId
  payload : Bytes
deriving DecidableEq

/-- `text.trim().is_empty()`. -/
def isBlank (text : String) : Bool := (trim text).isEmpty

/-- Decode one complete signature frame. -/
def decodeSignatureFrame [Target] (input : Bytes) : Except FrameError SignatureFrame := do
  let frame ← (decodeCanonicalStruct signatureFrameTypeId signatureFrameVersion
    signatureFrameFieldIds input).mapError .canonical
  let chainIdBytes ← (frame.requiredField 1).mapError .canonical
  let chainId ← (BoundedStr.fromUtf8Slice maxChainIdBytes chainIdBytes).mapError .chainId
  ensure (¬ isBlank chainId.asStr) .emptyChainId
  let protocolVersion ← (frame.requiredU32 2).mapError .canonical
  let epoch ← (frame.requiredU64 3).mapError .canonical
  let messageTypeBytes ← (frame.requiredField 4).mapError .canonical
  let messageType ←
    (BoundedStr.fromUtf8Slice maxMessageTypeBytes messageTypeBytes).mapError .messageType
  ensure (¬ isBlank messageType.asStr) .emptyMessageType
  let schemeId ← (frame.requiredU16 5).mapError .canonical
  let signatureSchemeId ←
    okOr (.unknownSignatureScheme schemeId) (SignatureSchemeId.tryFromU16 schemeId)
  let payload ← (frame.requiredField 6).mapError .canonical
  .ok { chainId, protocolVersion, epoch, messageType, signatureSchemeId, payload }

end SunriseEdgeLedger.Core
