import SunriseEdgeLedger.Core.Frame

/-!
# The signable transaction

The strict decoder of the transaction that a signature frame carries, and of every frame nested in
it: digests, object identifiers and references, access modes, entries and manifests, asset
identifiers and fee payments.
-/

namespace SunriseEdgeLedger.Core

open Foundation

/-- `DIGEST_TYPE_ID` -/
def digestTypeId : UInt16 := 0x0103

/-- `OBJECT_ID_TYPE_ID` -/
def objectIdTypeId : UInt16 := 0x4001

/-- `OBJECT_REF_TYPE_ID` -/
def objectRefTypeId : UInt16 := 0x4004

/-- `ACCESS_MODE_TYPE_ID` -/
def accessModeTypeId : UInt16 := 0x4006

/-- `ACCESS_ENTRY_TYPE_ID` -/
def accessEntryTypeId : UInt16 := 0x5001

/-- `ACCESS_MANIFEST_TYPE_ID` -/
def accessManifestTypeId : UInt16 := 0x5002

/-- `ASSET_ID_TYPE_ID` -/
def assetIdTypeId : UInt16 := 0x7001

/-- `FEE_PAYMENT_TYPE_ID` -/
def feePaymentTypeId : UInt16 := 0x7002

/-- `TRANSACTION_TYPE_ID` -/
def transactionTypeId : UInt16 := 0x6001

/-- `ENCODING_VERSION` -/
def encodingVersion : UInt16 := 1

/-- `ALLOWED_FIELDS` of the transaction. -/
def transactionFieldIds : List UInt16 := [1, 2, 3, 4, 5, 6, 7, 8, 9, 10, 11]

/-- `MAX_ENTRYPOINT_BYTES` -/
def maxEntrypointBytes : ℕ := 64

/-- `MAX_ARGS_BYTES` -/
def maxArgsBytes : ℕ := 40

/-- Why a transaction, or a frame nested in it, was rejected. -/
inductive TransactionError where
  | canonical (error : CanonicalError)
  | chainId (error : BoundedStrError)
  | sender
  | entrypoint (error : BoundedStrError)
  | emptyEntrypoint
  | args (error : CapacityError)
  | objectId
  | unknownAccessMode (value : UInt8)
  | accessManifestShape
  | duplicateObjectId (objectId : ObjectId)
  | unknownHashAlgorithm (value : UInt16)
deriving DecidableEq

/-- The signable fields of a transaction.  The arguments are the content of field 9 exactly as
signed. -/
@[ext]
structure TransactionSignable where
  chainId : BoundedStr maxChainIdBytes
  protocolVersion : UInt32
  epoch : UInt64
  sender : Address
  nonce : UInt64
  accessManifest : AccessManifest
  moduleRef : ObjectRef
  entrypoint : BoundedStr maxEntrypointBytes
  args : Bytes
  gasLimit : UInt64
  feePayment : Option FeePayment
deriving DecidableEq

variable [Target]

def decodeDigest32 (input : Bytes) : Except TransactionError Digest32 := do
  let frame ← (decodeCanonicalStruct digestTypeId 1 [1, 2] input).mapError .canonical
  let algorithmId ← (frame.requiredU16 1).mapError .canonical
  let algorithm ←
    okOr (.unknownHashAlgorithm algorithmId) (HashAlgorithmId.tryFromU16 algorithmId)
  let bytes ← (frame.requiredArray 32 2).mapError .canonical
  .ok { algorithm, bytes }

def decodeObjectId (input : Bytes) : Except TransactionError ObjectId := do
  let frame ← (decodeCanonicalStruct objectIdTypeId 1 [1] input).mapError .canonical
  let bytes ← (frame.requiredArray 32 1).mapError fun _ ↦ .objectId
  .ok ⟨bytes⟩

def decodeObjectRef (input : Bytes) : Except TransactionError ObjectRef := do
  let frame ← (decodeCanonicalStruct objectRefTypeId 1 [1, 2, 3] input).mapError .canonical
  let idBytes ← (frame.requiredField 1).mapError .canonical
  let objectId ← decodeObjectId idBytes
  let version ← (frame.requiredU64 2).mapError .canonical
  let digestBytes ← (frame.requiredField 3).mapError .canonical
  let digest ← decodeDigest32 digestBytes
  .ok { id := objectId, version, digest }

def decodeAccessMode (input : Bytes) : Except TransactionError AccessMode := do
  let frame ← (decodeCanonicalStruct accessModeTypeId 1 [1] input).mapError .canonical
  let bytes ← (frame.requiredField 1).mapError .canonical
  let array ← okOr (.canonical (.invalidFieldLength 1 1 bytes.length)) (arrayOf? 1 bytes)
  okOr (.unknownAccessMode array.head) (AccessMode.tryFromU8 array.head)

def decodeAccessEntry (input : Bytes) : Except TransactionError AccessEntry := do
  let frame ← (decodeCanonicalStruct accessEntryTypeId 1 [1, 2] input).mapError .canonical
  let refBytes ← (frame.requiredField 1).mapError .canonical
  let objectRef ← decodeObjectRef refBytes
  let modeBytes ← (frame.requiredField 2).mapError .canonical
  let mode ← decodeAccessMode modeBytes
  .ok { objectRef, mode }

/-- The rounds that decode the entries of a manifest: `remaining` more, the next one being entry
`index`. -/
def decodeEntries (frame : CanonicalFrame) :
    ℕ → ℕ → AccessManifest → Except TransactionError AccessManifest
  | 0, _, manifest => .ok manifest
  | remaining + 1, index, manifest => do
    let position ← okOr .accessManifestShape (checkedAdd index 2)
    let fieldId ← okOr .accessManifestShape (u16TryFrom position)
    let entryBytes ← (frame.requiredField fieldId).mapError .canonical
    let entry ← decodeAccessEntry entryBytes
    let manifest ← (manifest.push entry).mapError fun _ ↦ .accessManifestShape
    decodeEntries frame remaining (index + 1) manifest

omit [Target] in
/-- The pairwise scan for an object that the manifest names more than once. -/
def duplicateObjectId (entries : List AccessEntry) : Option ObjectId :=
  entries.zipIdx.findSome? fun (left, index) ↦
    if (entries.drop (index + 1)).any (fun right ↦ left.objectRef.id = right.objectRef.id) then
      some left.objectRef.id
    else none

/-- Decode a bounded access manifest.  It has no allow-list: its field count must be one more than
the number of entries it declares. -/
def decodeAccessManifest (input : Bytes) (maxEntries : ℕ) :
    Except TransactionError AccessManifest := do
  let frame ← (decodeCanonicalFrame input).mapError .canonical
  (frame.requireType accessManifestTypeId).mapError .canonical
  (frame.requireVersion 1).mapError .canonical
  let declaredCount ← (frame.requiredU32 1).mapError .canonical
  let declaredCount ← okOr .accessManifestShape (usizeTryFrom declaredCount)
  ensure (declaredCount ≤ maxEntries) .accessManifestShape
  let expectedFieldCount ← okOr .accessManifestShape (checkedAdd declaredCount 1)
  ensure (frame.fieldCount.toNat = expectedFieldCount) .accessManifestShape
  let manifest ← decodeEntries frame declaredCount 0 .new
  match duplicateObjectId manifest.iter with
  | some objectId => .error (.duplicateObjectId objectId)
  | none => .ok manifest

def decodeAssetId (input : Bytes) : Except TransactionError AssetId := do
  let frame ← (decodeCanonicalStruct assetIdTypeId 1 [1] input).mapError .canonical
  let bytes ← (frame.requiredArray 32 1).mapError fun _ ↦ .objectId
  .ok ⟨bytes⟩

def decodeFeePayment (input : Bytes) : Except TransactionError FeePayment := do
  let frame ← (decodeCanonicalStruct feePaymentTypeId 1 [1, 2, 3] input).mapError .canonical
  let assetBytes ← (frame.requiredField 1).mapError .canonical
  let assetId ← decodeAssetId assetBytes
  let maxFee ← (frame.requiredU64 2).mapError .canonical
  let objectBytes ← (frame.requiredField 3).mapError .canonical
  let feeObject ← decodeObjectRef objectBytes
  .ok { assetId, maxFee, feeObject }

/-! ## The transaction -/

/-- The fee payment is the one optional field. -/
def decodeFeeField : Option Bytes → Except TransactionError (Option FeePayment)
  | some feeBytes => (decodeFeePayment feeBytes).map some
  | none => .ok none

/-- Strictly decode a signable transaction. -/
def decodeTransactionSignable (input : Bytes) : Except TransactionError TransactionSignable := do
  let frame ← (decodeCanonicalStruct transactionTypeId encodingVersion transactionFieldIds
    input).mapError .canonical
  let chainIdBytes ← (frame.requiredField 1).mapError .canonical
  let chainId ← (BoundedStr.fromUtf8Slice maxChainIdBytes chainIdBytes).mapError .chainId
  let protocolVersion ← (frame.requiredU32 2).mapError .canonical
  let epoch ← (frame.requiredU64 3).mapError .canonical
  let senderBytes ← (frame.requiredArray 32 4).mapError fun _ ↦ .sender
  let nonce ← (frame.requiredU64 5).mapError .canonical
  let manifestBytes ← (frame.requiredField 6).mapError .canonical
  let accessManifest ← decodeAccessManifest manifestBytes maxAccessEntries
  let moduleBytes ← (frame.requiredField 7).mapError .canonical
  let moduleRef ← decodeObjectRef moduleBytes
  let entrypointBytes ← (frame.requiredField 8).mapError .canonical
  let entrypoint ←
    (BoundedStr.fromUtf8Slice maxEntrypointBytes entrypointBytes).mapError .entrypoint
  ensure (¬ entrypoint.isEmpty) .emptyEntrypoint
  let args ← (frame.requiredField 9).mapError .canonical
  ensure (args.length ≤ maxArgsBytes) (.args ⟨args.length, maxArgsBytes⟩)
  let gasLimit ← (frame.requiredU64 10).mapError .canonical
  let feePayment ← decodeFeeField (frame.field 11)
  .ok {
    chainId, protocolVersion, epoch, sender := ⟨senderBytes⟩, nonce, accessManifest, moduleRef,
    entrypoint, args, gasLimit, feePayment
  }

end SunriseEdgeLedger.Core
