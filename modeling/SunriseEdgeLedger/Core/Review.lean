import SunriseEdgeLedger.Core.FrameEncoding
import SunriseEdgeLedger.Core.Policy

/-!
# The clear-signing review

The data that is put before the user, as a function of the decoded frame, the decoded transaction
and the policy.  A review exists only for a transfer message under the one supported signature
scheme whose two copies of the signed context agree and whose transaction the policy recognizes.
-/

namespace SunriseEdgeLedger.Core

open Foundation

/-- `TRANSACTION_V1_MESSAGE_TYPE` -/
def transactionV1MessageType : String := "transaction-v1"

/-- Why a review was not built. -/
inductive ReviewError where
  | unsupportedMessageType
  | unsupportedSignatureScheme
  | signedContextMismatch
  | policy (error : PolicyError)
deriving DecidableEq, Repr

/-- The fields of one access-manifest line. -/
@[ext]
structure AccessLine where
  mode : AccessMode
  objectId : ObjectId
  version : UInt64
  digest : Digest32
deriving DecidableEq

/-- The signed fee fields. -/
@[ext]
structure FeeLine where
  assetId : AssetId
  maxFee : UInt64
  feeObjectId : ObjectId
  feeObjectVersion : UInt64
  feeObjectDigest : Digest32
deriving DecidableEq

/-- The signed fields that the device displays. -/
@[ext]
structure ClearSigningReview where
  chainId : BoundedStr maxChainIdBytes
  protocolVersion : UInt32
  epoch : UInt64
  messageType : BoundedStr maxMessageTypeBytes
  scheme : SignatureSchemeId
  sender : Address
  nonce : UInt64
  moduleId : ObjectId
  moduleVersion : UInt64
  moduleDigest : Digest32
  entrypoint : BoundedStr maxEntrypointBytes
  amount : UInt64
  amountLabel : String
  gasLimit : UInt64
  accessEntries : AccessManifest
  fee : Option FeeLine
deriving DecidableEq

/-- The ordered access-manifest lines. -/
def ClearSigningReview.accessLines (review : ClearSigningReview) : List AccessLine :=
  review.accessEntries.iter.map fun entry ↦ {
    mode := entry.mode
    objectId := entry.objectRef.id
    version := entry.objectRef.version
    digest := entry.objectRef.digest
  }

/-- The fee line of a fee payment. -/
def FeePayment.toFeeLine (feePayment : FeePayment) : FeeLine where
  assetId := feePayment.assetId
  maxFee := feePayment.maxFee
  feeObjectId := feePayment.feeObject.id
  feeObjectVersion := feePayment.feeObject.version
  feeObjectDigest := feePayment.feeObject.digest

/-- The review of a frame and a transaction that transfers a given amount. -/
def reviewOf (frame : SignatureFrame) (transaction : TransactionSignable)
    (policy : ClearSigningPolicy) (amount : UInt64) : ClearSigningReview where
  chainId := frame.chainId
  protocolVersion := frame.protocolVersion
  epoch := frame.epoch
  messageType := frame.messageType
  scheme := frame.signatureSchemeId
  sender := transaction.sender
  nonce := transaction.nonce
  moduleId := transaction.moduleRef.id
  moduleVersion := transaction.moduleRef.version
  moduleDigest := transaction.moduleRef.digest
  entrypoint := transaction.entrypoint
  amount := amount
  amountLabel := policy.argsLabel
  gasLimit := transaction.gasLimit
  accessEntries := transaction.accessManifest
  fee := transaction.feePayment.map FeePayment.toFeeLine

/-- Build the review of a decoded frame and its decoded transaction. -/
def buildReview [Target] (frame : SignatureFrame) (transaction : TransactionSignable)
    (policy : ClearSigningPolicy) : Except ReviewError ClearSigningReview := do
  ensure (frame.messageType.asStr = transactionV1MessageType) .unsupportedMessageType
  ensure (frame.signatureSchemeId = .ed25519) .unsupportedSignatureScheme
  ensure (transaction.chainId.asStr = frame.chainId.asStr ∧
    transaction.protocolVersion = frame.protocolVersion ∧
    transaction.epoch = frame.epoch) .signedContextMismatch
  let amount ← (policy.recognize transaction).mapError .policy
  .ok (reviewOf frame transaction policy amount)

/-- The outer frame announces the inner transaction: its message type and scheme are the supported
ones, and both copies of the signed context agree. -/
structure SignatureFrame.Announces (frame : SignatureFrame) (transaction : TransactionSignable) :
    Prop where
  messageType_eq : frame.messageType.asStr = transactionV1MessageType
  scheme_eq : frame.signatureSchemeId = .ed25519
  chainId_eq : transaction.chainId = frame.chainId
  protocolVersion_eq : transaction.protocolVersion = frame.protocolVersion
  epoch_eq : transaction.epoch = frame.epoch

/-- A review is built exactly for an announced and recognized transaction. -/
theorem buildReview_eq_ok_iff [Target] {frame : SignatureFrame}
    {transaction : TransactionSignable} {policy : ClearSigningPolicy}
    {review : ClearSigningReview} :
    buildReview frame transaction policy = .ok review ↔
      frame.Announces transaction ∧ ∃ amount, policy.recognize transaction = .ok amount ∧
        review = reviewOf frame transaction policy amount := by
  simp only [buildReview, bind_eq_ok_iff, ensure_eq_ok_iff, mapError_eq_ok_iff, Except.ok.injEq]
  constructor
  · rintro ⟨-, hmessage, -, hscheme, -, ⟨hchain, hversion, hepoch⟩, amount, hamount, rfl⟩
    exact ⟨⟨hmessage, hscheme, BoundedStr.asStr_injective hchain, hversion, hepoch⟩, amount,
      hamount, rfl⟩
  · rintro ⟨hannounces, amount, hamount, rfl⟩
    exact ⟨⟨⟩, hannounces.messageType_eq, ⟨⟩, hannounces.scheme_eq, ⟨⟩,
      ⟨by rw [hannounces.chainId_eq], hannounces.protocolVersion_eq, hannounces.epoch_eq⟩, amount,
      hamount, rfl⟩

end SunriseEdgeLedger.Core
