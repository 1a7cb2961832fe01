import SunriseEdgeLedger.Core.OneShot

/-!
# The profile bounds

The wallet bounds the length of a frame by 4096 bytes and that of a transaction by 3072.  The bounds
on the single fields already keep every frame that decodes well below both, so the profile bounds
limit what is buffered, and never reject a transaction that could have been decoded.
-/

namespace SunriseEdgeLedger.Core

open Foundation

/-- A text as long as a chain identifier and an entrypoint may be. -/
def longestText : String := asciiText (List.replicate 64 0x61)

theorem length_longestText : (asBytes longestText).length ≤ 64 := by decide +kernel

/-- An object with all bytes of its identifier equal. -/
def uniformObject (byte : UInt8) : ObjectRef :=
  ⟨⟨List.Vector.replicate 32 byte⟩, 0, ⟨.sha2_256, List.Vector.replicate 32 0⟩⟩

/-- Eight entries with distinct objects. -/
def eightEntries : List AccessEntry :=
  [⟨uniformObject 0, .read⟩, ⟨uniformObject 1, .read⟩, ⟨uniformObject 2, .read⟩,
    ⟨uniformObject 3, .read⟩, ⟨uniformObject 4, .read⟩, ⟨uniformObject 5, .read⟩,
    ⟨uniformObject 6, .read⟩, ⟨uniformObject 7, .read⟩]

theorem length_eightEntries : eightEntries.length ≤ maxAccessEntries := by decide

/-- A transaction with everything that can be in it. -/
def largestTransaction : TransactionSignable where
  chainId := .ofString longestText length_longestText
  protocolVersion := 0
  epoch := 0
  sender := ⟨List.Vector.replicate 32 0⟩
  nonce := 0
  accessManifest := .ofList eightEntries length_eightEntries
  moduleRef := uniformObject 0
  entrypoint := .ofString longestText length_longestText
  args := List.replicate 40 0
  gasLimit := 0
  feePayment := some ⟨⟨List.Vector.replicate 32 0⟩, 0, uniformObject 0⟩

/-- The frame of the largest transaction, with the longest message type. -/
def largestFrame : SignatureFrame where
  chainId := .ofString longestText length_longestText
  protocolVersion := 0
  epoch := 0
  messageType := .ofString (asciiText (List.replicate 32 0x61)) (by decide +kernel)
  signatureSchemeId := .ed25519
  payload := transactionBytes largestTransaction

theorem wellFormed_largestTransaction : largestTransaction.WellFormed where
  entrypoint_ne := by decide +kernel
  args_le := by decide
  distinct := by
    change DistinctObjects (AccessManifest.ofList eightEntries length_eightEntries).iter
    rw [AccessManifest.iter_ofList]
    unfold DistinctObjects
    decide +kernel

theorem length_largestTransaction : (transactionBytes largestTransaction).length = 2168 := by
  have hchain : (asBytes largestTransaction.chainId.asStr).length = 64 := by decide +kernel
  have hentrypoint : (asBytes largestTransaction.entrypoint.asStr).length = 64 := by decide +kernel
  rw [length_transactionBytes, hchain, hentrypoint]
  rfl

theorem wellFormed_largestFrame : largestFrame.WellFormed := by
  constructor <;> decide +kernel

theorem length_largestFrame : (signatureFrameBytes largestFrame).length = 2324 := by
  have hchain : (asBytes largestFrame.chainId.asStr).length = 64 := by decide +kernel
  have hmessage : (asBytes largestFrame.messageType.asStr).length = 32 := by decide +kernel
  have hpayload : largestFrame.payload.length = 2168 := length_largestTransaction
  rw [length_signatureFrameBytes, hchain, hmessage, hpayload]

/-! ## Bounds -/

theorem length_transactionBytes_le {transaction : TransactionSignable}
    (hformed : transaction.WellFormed) : (transactionBytes transaction).length ≤ 2168 := by
  have hchain : (asBytes transaction.chainId.asStr).length ≤ 64 :=
    transaction.chainId.length_asBytes_le
  have hentrypoint : (asBytes transaction.entrypoint.asStr).length ≤ 64 :=
    transaction.entrypoint.length_asBytes_le
  have hargs : transaction.args.length ≤ 40 := hformed.args_le
  have hmanifest : transaction.accessManifest.len ≤ 8 := transaction.accessManifest.len_le
  have hfee : transaction.feePayment.toList.length ≤ 1 := Option.length_toList_le
  rw [length_transactionBytes]
  omega

theorem length_signatureFrameBytes_le (frame : SignatureFrame) :
    (signatureFrameBytes frame).length ≤ 156 + frame.payload.length := by
  have hchain : (asBytes frame.chainId.asStr).length ≤ 64 := frame.chainId.length_asBytes_le
  have hmessage : (asBytes frame.messageType.asStr).length ≤ 32 :=
    frame.messageType.length_asBytes_le
  rw [length_signatureFrameBytes]
  omega

variable [Target]

/-- A byte string decodes in full: to a frame, and the payload of the frame to a transaction. -/
def Decodes (framed : Bytes) (frame : SignatureFrame) (transaction : TransactionSignable) : Prop :=
  decodeSignatureFrame framed = .ok frame ∧ decodeTransactionSignable frame.payload = .ok transaction

theorem Decodes.length_le {framed : Bytes} {frame : SignatureFrame}
    {transaction : TransactionSignable} (hdecodes : Decodes framed frame transaction) :
    frame.payload.length ≤ 2168 ∧ framed.length ≤ 2324 := by
  obtain ⟨hframe, htransaction⟩ := hdecodes
  obtain ⟨hformed, hpayload⟩ := (decodeTransactionSignable_exact.ok_iff _ _).mp htransaction
  have hpayloadLength : frame.payload.length ≤ 2168 :=
    hpayload ▸ length_transactionBytes_le hformed
  have hframeLength := length_signatureFrameBytes_le frame
  rw [← decodeSignatureFrame_exact.encode_of_ok hframe] at hframeLength
  exact ⟨hpayloadLength, by omega⟩

theorem decodes_largestFrame :
    Decodes (signatureFrameBytes largestFrame) largestFrame largestTransaction := by
  have hfits : (signatureFrameBytes largestFrame).length < 2 ^ 32 :=
    length_largestFrame.trans_lt (by norm_num)
  exact ⟨decodeSignatureFrame_exact.decode_encode
      ⟨wellFormed_largestFrame, representable_of_length_lt _ _ hfits⟩,
    decodeTransactionSignable_exact.decode_encode wellFormed_largestTransaction⟩

/-- The longest byte string that decodes in full has 2324 bytes, and the longest payload 2168.
Hence the bound on frames keeps none of them from being delivered, and without the bound on payloads
the same byte strings would be put before the user, with the same reviews, under every policy. -/
theorem profileBounds_never_reject :
    IsGreatest {length | ∃ framed frame transaction, Decodes framed frame transaction ∧
        framed.length = length} 2324 ∧
      IsGreatest {length | ∃ framed frame transaction, Decodes framed frame transaction ∧
        frame.payload.length = length} 2168 ∧
      (∀ framed frame transaction, Decodes framed frame transaction →
        framed.length ≤ maxFrameLen) ∧
      ∀ policy framed review, Approvable policy framed review ↔
        ∃ frame transaction, Decodes framed frame transaction ∧
          buildReview frame transaction policy = .ok review := by
  refine ⟨⟨?_, ?_⟩, ⟨?_, ?_⟩, ?_, ?_⟩
  · exact ⟨_, _, _, decodes_largestFrame, length_largestFrame⟩
  · rintro length ⟨framed, frame, transaction, hdecodes, rfl⟩
    exact hdecodes.length_le.2
  · exact ⟨_, _, _, decodes_largestFrame, length_largestTransaction⟩
  · rintro length ⟨framed, frame, transaction, hdecodes, rfl⟩
    exact hdecodes.length_le.1
  · intro framed frame transaction hdecodes
    exact hdecodes.length_le.2.trans (by decide)
  · intro policy framed review
    constructor
    · rintro ⟨frame, transaction, hframe, -, htransaction, hreview⟩
      exact ⟨frame, transaction, ⟨hframe, htransaction⟩, hreview⟩
    · rintro ⟨frame, transaction, hdecodes, hreview⟩
      exact ⟨frame, transaction, hdecodes.1, hdecodes.length_le.1.trans (by decide), hdecodes.2,
        hreview⟩

end SunriseEdgeLedger.Core
