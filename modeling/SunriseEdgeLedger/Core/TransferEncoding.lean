import SunriseEdgeLedger.Core.OneShot

/-!
# The language of the transfer policy

A transfer is what the user of the development network can sign: the sender, three objects, an
amount and the fee terms, and nothing else.  Every transfer has one encoding, in which the policy
fills all other slots of the outer frame and of the transaction.  The frames that can be put before
the user under the policy are exactly these encodings.
-/

namespace SunriseEdgeLedger.Core

open Foundation

/-- An asset transfer: three written objects with distinct identifiers, the first of which also pays
the fee. -/
structure Transfer where
  sender : Address
  nonce : UInt64
  gasLimit : UInt64
  maxFee : UInt64
  amount : UInt64
  source : ObjectRef
  second : ObjectRef
  third : ObjectRef
  amount_ne : amount ≠ 0
  source_ne_second : source.id ≠ second.id
  source_ne_third : source.id ≠ third.id
  second_ne_third : second.id ≠ third.id

namespace Transfer

/-- The chain of the policy as a bounded text. -/
def chainId : BoundedStr maxChainIdBytes :=
  .ofString devnetAssetTransferPolicy.chainId (by decide)

/-- The entrypoint of the policy as a bounded text. -/
def entrypoint : BoundedStr maxEntrypointBytes :=
  .ofString devnetAssetTransferPolicy.entrypoint (by decide)

/-- The supported message type as a bounded text. -/
def messageType : BoundedStr maxMessageTypeBytes := .ofString transactionV1MessageType (by decide)

/-- The module of the policy. -/
def moduleRef : ObjectRef where
  id := ⟨devnetAssetTransferPolicy.moduleId⟩
  version := devnetAssetTransferPolicy.moduleVersion
  digest := {
    algorithm := devnetAssetTransferPolicy.codeDigestAlgorithm
    bytes := devnetAssetTransferPolicy.codeDigestBytes
  }

theorem length_chainId : (asBytes chainId.asStr).length = 20 := by decide

theorem length_entrypoint : (asBytes entrypoint.asStr).length = 8 := by decide

theorem length_messageType : (asBytes messageType.asStr).length = 14 := by decide

theorem entrypoint_ne : entrypoint.asStr ≠ "" := by decide

theorem chainId_not_blank : ¬ isBlank chainId.asStr := by decide

theorem messageType_not_blank : ¬ isBlank messageType.asStr := by decide

variable (transfer : Transfer)

/-- The three write accesses in order. -/
def entries : List AccessEntry :=
  [⟨transfer.source, .write⟩, ⟨transfer.second, .write⟩, ⟨transfer.third, .write⟩]

def accessManifest : AccessManifest := .ofList transfer.entries (show 3 ≤ 8 by decide)

/-- The fee terms, paid from the first object in the asset of the policy. -/
def feePayment : FeePayment where
  assetId := ⟨devnetAssetTransferPolicy.feeAssetId⟩
  maxFee := transfer.maxFee
  feeObject := transfer.source

/-- The transaction of a transfer. -/
def transaction : TransactionSignable where
  chainId := chainId
  protocolVersion := devnetAssetTransferPolicy.protocolVersion
  epoch := devnetAssetTransferPolicy.epoch
  sender := transfer.sender
  nonce := transfer.nonce
  accessManifest := transfer.accessManifest
  moduleRef := moduleRef
  entrypoint := entrypoint
  args := devnetAssetTransferPolicy.amountArgsBytes transfer.amount
  gasLimit := transfer.gasLimit
  feePayment := some transfer.feePayment

/-- The signature frame of a transfer. -/
def signatureFrame : SignatureFrame where
  chainId := chainId
  protocolVersion := devnetAssetTransferPolicy.protocolVersion
  epoch := devnetAssetTransferPolicy.epoch
  messageType := messageType
  signatureSchemeId := .ed25519
  payload := transactionBytes transfer.transaction

/-- The one encoding of a transfer. -/
def bytes : Bytes := signatureFrameBytes transfer.signatureFrame

/-- The review of a transfer. -/
def review : ClearSigningReview where
  chainId := chainId
  protocolVersion := devnetAssetTransferPolicy.protocolVersion
  epoch := devnetAssetTransferPolicy.epoch
  messageType := messageType
  scheme := .ed25519
  sender := transfer.sender
  nonce := transfer.nonce
  moduleId := moduleRef.id
  moduleVersion := moduleRef.version
  moduleDigest := moduleRef.digest
  entrypoint := entrypoint
  amount := transfer.amount
  amountLabel := devnetAssetTransferPolicy.argsLabel
  gasLimit := transfer.gasLimit
  accessEntries := transfer.accessManifest
  fee := some {
    assetId := ⟨devnetAssetTransferPolicy.feeAssetId⟩
    maxFee := transfer.maxFee
    feeObjectId := transfer.source.id
    feeObjectVersion := transfer.source.version
    feeObjectDigest := transfer.source.digest
  }

@[simp]
theorem iter_accessManifest : transfer.accessManifest.iter = transfer.entries :=
  AccessManifest.iter_ofList _ _

@[simp]
theorem length_payload : (transactionBytes transfer.transaction).length = 1127 := by
  have hchain : (asBytes transfer.transaction.chainId.asStr).length = 20 := length_chainId
  have hentrypoint : (asBytes transfer.transaction.entrypoint.asStr).length = 8 :=
    length_entrypoint
  have hargs : transfer.transaction.args.length = 24 :=
    devnetAssetTransferPolicy.length_amountArgsBytes transfer.amount
  have hmanifest : transfer.transaction.accessManifest.len = 3 := rfl
  have hfee : transfer.transaction.feePayment.toList.length = 1 := rfl
  rw [length_transactionBytes, hchain, hentrypoint, hargs, hmanifest, hfee]

@[simp]
theorem length_bytes : transfer.bytes.length = 1221 := by
  have hchain : (asBytes transfer.signatureFrame.chainId.asStr).length = 20 := length_chainId
  have hmessage : (asBytes transfer.signatureFrame.messageType.asStr).length = 14 :=
    length_messageType
  have hpayload : transfer.signatureFrame.payload.length = 1127 := transfer.length_payload
  rw [bytes, length_signatureFrameBytes, hchain, hmessage, hpayload]

theorem wellFormed_transaction : transfer.transaction.WellFormed where
  entrypoint_ne := Transfer.entrypoint_ne
  args_le := by
    change (devnetAssetTransferPolicy.amountArgsBytes transfer.amount).length ≤ 40
    rw [ClearSigningPolicy.length_amountArgsBytes]
    decide
  distinct := by
    change DistinctObjects transfer.accessManifest.iter
    rw [iter_accessManifest]
    simp [DistinctObjects, entries, transfer.source_ne_second, transfer.source_ne_third,
      transfer.second_ne_third]

theorem allowsCall_transaction : devnetAssetTransferPolicy.AllowsCall transfer.transaction where
  chainId_eq := BoundedStr.asStr_ofString _ _
  protocolVersion_eq := rfl
  epoch_eq := rfl
  moduleRef_eq := rfl
  entrypoint_eq := BoundedStr.asStr_ofString _ _

theorem allowsTransfer_transaction :
    devnetAssetTransferPolicy.AllowsTransfer transfer.transaction transfer.amount where
  len_eq := rfl
  write := by
    change ∀ entry ∈ transfer.accessManifest.iter, entry.mode = .write
    simp [entries]
  fee := by
    refine ⟨transfer.feePayment, ⟨transfer.source, .write⟩, rfl, ?_, rfl, rfl⟩
    change transfer.accessManifest.iter[0]? = _
    rw [iter_accessManifest]
    rfl
  args_eq := rfl
  amount_ne := transfer.amount_ne

theorem announces_signatureFrame :
    transfer.signatureFrame.Announces transfer.transaction where
  messageType_eq := BoundedStr.asStr_ofString _ _
  scheme_eq := rfl
  chainId_eq := rfl
  protocolVersion_eq := rfl
  epoch_eq := rfl

/-- The review of a transfer is the review of its frame and its transaction. -/
theorem reviewOf_signatureFrame :
    reviewOf transfer.signatureFrame transfer.transaction devnetAssetTransferPolicy
      transfer.amount = transfer.review := rfl

variable [Target]

theorem decodeSignatureFrame_bytes :
    decodeSignatureFrame transfer.bytes = .ok transfer.signatureFrame := by
  have hformed : transfer.signatureFrame.WellFormed :=
    ⟨chainId_not_blank, messageType_not_blank⟩
  have hfits : (canonicalFrame signatureFrameTypeId signatureFrameVersion
      (signatureFrameFields transfer.signatureFrame)).length < 2 ^ 32 :=
    transfer.length_bytes.trans_lt (by norm_num)
  exact decodeSignatureFrame_exact.decode_encode ⟨hformed, representable_of_length_lt _ _ hfits⟩

theorem decodeTransactionSignable_payload :
    decodeTransactionSignable transfer.signatureFrame.payload = .ok transfer.transaction :=
  decodeTransactionSignable_exact.decode_encode transfer.wellFormed_transaction

/-- The encoding of a transfer can be put before the user. -/
theorem approvable_bytes : Approvable devnetAssetTransferPolicy transfer.bytes transfer.review := by
  refine ⟨transfer.signatureFrame, transfer.transaction, transfer.decodeSignatureFrame_bytes, ?_,
    transfer.decodeTransactionSignable_payload, ?_⟩
  · exact transfer.length_payload.trans_le (by decide)
  · refine buildReview_eq_ok_iff.mpr ⟨transfer.announces_signatureFrame, transfer.amount, ?_, ?_⟩
    · exact ClearSigningPolicy.recognize_eq_ok_iff.mpr
        ⟨transfer.allowsCall_transaction, transfer.allowsTransfer_transaction⟩
    · exact transfer.reviewOf_signatureFrame.symm

end Transfer

/-! ## Nothing but transfers -/

theorem exists_three_of_length {α : Type} {items : List α} (hlength : items.length = 3) :
    ∃ first second third, items = [first, second, third] := by
  match items, hlength with
  | [first, second, third], _ => exact ⟨first, second, third, rfl⟩

/-- A well-formed transaction that the policy recognizes is the transaction of a transfer. -/
theorem exists_transfer {transaction : TransactionSignable} {amount : UInt64}
    (hformed : transaction.WellFormed)
    (hcall : devnetAssetTransferPolicy.AllowsCall transaction)
    (htransfer : devnetAssetTransferPolicy.AllowsTransfer transaction amount) :
    ∃ transfer : Transfer, transaction = transfer.transaction ∧ amount = transfer.amount := by
  obtain ⟨first, second, third, hentries⟩ : ∃ first second third,
      transaction.accessManifest.iter = [first, second, third] :=
    exists_three_of_length ((AccessManifest.length_iter _).trans htransfer.len_eq)
  obtain ⟨hfirst, hsecond, hthird⟩ : first.mode = .write ∧ second.mode = .write ∧
      third.mode = .write := by
    simpa [hentries] using htransfer.write
  obtain ⟨⟨hfirstSecond, hfirstThird⟩, hsecondThird⟩ :
      (first.objectRef.id ≠ second.objectRef.id ∧ first.objectRef.id ≠ third.objectRef.id) ∧
        second.objectRef.id ≠ third.objectRef.id := by
    simpa [hentries, DistinctObjects] using hformed.distinct
  obtain ⟨fee, source, hfee, hsource, hobject, hasset⟩ := htransfer.fee
  obtain rfl : first = source := by simpa [hentries] using hsource
  let transfer : Transfer := {
    sender := transaction.sender
    nonce := transaction.nonce
    gasLimit := transaction.gasLimit
    maxFee := fee.maxFee
    amount := amount
    source := first.objectRef
    second := second.objectRef
    third := third.objectRef
    amount_ne := htransfer.amount_ne
    source_ne_second := hfirstSecond
    source_ne_third := hfirstThird
    second_ne_third := hsecondThird
  }
  have hchain : transaction.chainId = Transfer.chainId :=
    BoundedStr.asStr_injective (hcall.chainId_eq.trans (BoundedStr.asStr_ofString _ _).symm)
  have hentrypoint : transaction.entrypoint = Transfer.entrypoint :=
    BoundedStr.asStr_injective (hcall.entrypoint_eq.trans (BoundedStr.asStr_ofString _ _).symm)
  have hmanifest : transaction.accessManifest = transfer.accessManifest := by
    have hlisting : [first, second, third] = transfer.entries := by
      simp [Transfer.entries, transfer, AccessEntry.ext_iff, hfirst, hsecond, hthird]
    refine AccessManifest.iter_injective ?_
    rw [hentries, hlisting, Transfer.iter_accessManifest]
  have hpayment : transaction.feePayment = some transfer.feePayment := by
    rw [hfee]
    exact congrArg some (FeePayment.ext hasset rfl hobject)
  exact ⟨transfer, TransactionSignable.ext hchain hcall.protocolVersion_eq hcall.epoch_eq rfl rfl
    hmanifest hcall.moduleRef_eq hentrypoint htransfer.args_eq rfl hpayment, rfl⟩

/-- A frame that announces a transfer is the frame of that transfer. -/
theorem eq_signatureFrame_of_announces {frame : SignatureFrame} {transfer : Transfer}
    (hannounces : frame.Announces transfer.transaction)
    (hpayload : frame.payload = transactionBytes transfer.transaction) :
    frame = transfer.signatureFrame := by
  have hmessage : frame.messageType = Transfer.messageType :=
    BoundedStr.asStr_injective
      (hannounces.messageType_eq.trans (BoundedStr.asStr_ofString _ _).symm)
  exact SignatureFrame.ext hannounces.chainId_eq.symm hannounces.protocolVersion_eq.symm
    hannounces.epoch_eq.symm hmessage hannounces.scheme_eq hpayload

/-- Whatever can be put before the user under the transfer policy is the encoding of a transfer. -/
theorem exists_transfer_of_approvable [Target] {framed : Bytes} {review : ClearSigningReview}
    (happrovable : Approvable devnetAssetTransferPolicy framed review) :
    ∃ transfer : Transfer, framed = transfer.bytes ∧ review = transfer.review := by
  obtain ⟨frame, transaction, hframe, -, htransaction, hreview⟩ := happrovable
  obtain ⟨hannounces, amount, hrecognize, rfl⟩ := buildReview_eq_ok_iff.mp hreview
  obtain ⟨hcall, htransfer⟩ := ClearSigningPolicy.recognize_eq_ok_iff.mp hrecognize
  obtain ⟨hformed, hpayload⟩ := (decodeTransactionSignable_exact.ok_iff _ _).mp htransaction
  obtain ⟨transfer, rfl, rfl⟩ := exists_transfer hformed hcall htransfer
  obtain rfl := eq_signatureFrame_of_announces hannounces hpayload
  exact ⟨transfer, decodeSignatureFrame_exact.encode_of_ok hframe,
    transfer.reviewOf_signatureFrame⟩

/-- Under the transfer policy, the frames that can be put before the user are exactly the encodings
of transfers, the review shows the transfer, and all encodings have the same length. -/
theorem approvable_devnet_iff [Target] :
    (∀ framed review, Approvable devnetAssetTransferPolicy framed review ↔
        ∃ transfer : Transfer, framed = transfer.bytes ∧ review = transfer.review) ∧
      ∀ transfer : Transfer, transfer.bytes.length = 1221 ∧
        transfer.signatureFrame.payload = transactionBytes transfer.transaction ∧
        transfer.signatureFrame.payload.length = 1127 := by
  refine ⟨fun framed review ↦ ⟨?_, ?_⟩, fun transfer ↦ ?_⟩
  · exact exists_transfer_of_approvable
  · rintro ⟨transfer, rfl, rfl⟩
    exact transfer.approvable_bytes
  · exact ⟨transfer.length_bytes, rfl, transfer.length_payload⟩

/-- The encoding of a transfer decodes to a transaction of its sender, with the review of the
transfer. -/
theorem exists_decodeBounded_bytes [Target] (transfer : Transfer) :
    ∃ frame transaction, decodeBounded transfer.bytes = .ok (frame, transaction) ∧
      transaction.sender = transfer.sender ∧
      buildReview frame transaction devnetAssetTransferPolicy = .ok transfer.review := by
  obtain ⟨frame, transaction, hframe, hpayload, htransaction, hreview⟩ := transfer.approvable_bytes
  refine ⟨frame, transaction, decodeBounded_eq_ok_iff.mpr ⟨hframe, hpayload, htransaction⟩, ?_,
    hreview⟩
  obtain ⟨-, amount, -, htransfer⟩ := buildReview_eq_ok_iff.mp hreview
  exact (congrArg ClearSigningReview.sender htransfer).symm

section Checks

variable [Target] (transfer : Transfer) {path : DerivationPath} {deriver : PublicKeyDeriver}

theorem oneShotDerivations_bytes :
    oneShotDerivations path transfer.bytes deriver = [⟨path, deriver path⟩] := by
  obtain ⟨frame, transaction, hdecode, -, -⟩ := exists_decodeBounded_bytes transfer
  rw [oneShotDerivations, hdecode]

theorem oneShotCheck_of_underivable (hkey : deriver path = none) :
    oneShotCheck path transfer.bytes deriver devnetAssetTransferPolicy =
      .error .internalFailure :=
  oneShotCheck_of_derivations_none (by rw [oneShotDerivations_bytes, hkey])

theorem oneShotCheck_of_stranger {publicKey : ByteArrayN 32} (hkey : deriver path = some publicKey)
    (hstranger : publicKey ≠ transfer.sender.bytes) :
    oneShotCheck path transfer.bytes deriver devnetAssetTransferPolicy = .error .invalidData := by
  obtain ⟨frame, transaction, hdecode, hsender, -⟩ := exists_decodeBounded_bytes transfer
  rw [← hsender] at hstranger
  simp only [oneShotCheck, hdecode, hkey, ok_bind, okOr_some, ensure_of_false hstranger.symm,
    error_bind]

theorem oneShotCheck_of_sender (hkey : deriver path = some transfer.sender.bytes) :
    oneShotCheck path transfer.bytes deriver devnetAssetTransferPolicy = .ok transfer.review := by
  obtain ⟨frame, transaction, hdecode, hsender, hreview⟩ := exists_decodeBounded_bytes transfer
  rw [← hsender] at hkey
  exact oneShotCheck_eq_ok_iff.mpr ⟨frame, transaction, hdecode, hkey, hreview⟩

end Checks

/-- A transfer of one unit between three objects. -/
def unitTransfer : Transfer where
  sender := ⟨List.Vector.replicate 32 0⟩
  nonce := 0
  gasLimit := 0
  maxFee := 0
  amount := 1
  source := ⟨⟨List.Vector.replicate 32 1⟩, 1, ⟨.sha2_256, List.Vector.replicate 32 0⟩⟩
  second := ⟨⟨List.Vector.replicate 32 2⟩, 1, ⟨.sha2_256, List.Vector.replicate 32 0⟩⟩
  third := ⟨⟨List.Vector.replicate 32 3⟩, 1, ⟨.sha2_256, List.Vector.replicate 32 0⟩⟩
  amount_ne := by decide
  source_ne_second := by decide
  source_ne_third := by decide
  second_ne_third := by decide

end SunriseEdgeLedger.Core
