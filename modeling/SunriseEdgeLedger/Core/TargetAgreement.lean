import SunriseEdgeLedger.Core.CanonicalStream
import SunriseEdgeLedger.Core.SessionRun
import SunriseEdgeLedger.Core.TransferEncoding
import SunriseEdgeLedger.Foundation.Simulation

/-!
# The host runs what the device runs

The conformance tests run on a 64-bit host, the application on a 32-bit device.  Every decoder and
every operation of a session does the same on both builds: the same value or the same error, the
same next session, the same calls.  What the tests of the session establish therefore holds on the
device.
-/

namespace SunriseEdgeLedger.Core

open Foundation

/-- A view whose fields are the same, and short, on every target. -/
structure CanonicalFrame.Portable (frame : CanonicalFrame) : Prop where
  field_eq : ∀ target target' : Target, ∀ fieldId,
    @CanonicalFrame.field target frame fieldId = @CanonicalFrame.field target' frame fieldId
  length_lt : ∀ (target : Target) fieldId bytes,
    @CanonicalFrame.field target frame fieldId = some bytes → bytes.length < 2 ^ 31
  requireOnlyFields_eq : ∀ target target' : Target, ∀ allowed,
    @CanonicalFrame.requireOnlyFields target frame allowed =
      @CanonicalFrame.requireOnlyFields target' frame allowed

variable {target : Target} (target' : Target) {input : Bytes} {frame : CanonicalFrame}

theorem lt_two_pow_usizeBits (target : Target) (hlength : input.length < 2 ^ 31) :
    input.length < 2 ^ @Target.usizeBits target :=
  calc
    input.length < 2 ^ 31 := hlength
    _ < 2 ^ 32 := by norm_num
    _ ≤ 2 ^ @Target.usizeBits target := @Target.two_pow_le target

theorem decodeCanonicalFrame_agrees (hlength : input.length < 2 ^ 31) :
    @decodeCanonicalFrame target input = @decodeCanonicalFrame target' input := by
  rw [@decodeCanonicalFrame_eq_parseWholeFrame target input (lt_two_pow_usizeBits target hlength),
    @decodeCanonicalFrame_eq_parseWholeFrame target' input (lt_two_pow_usizeBits target' hlength)]

/-- What a short input decodes to is read alike on every target. -/
theorem portable_of_decodeCanonicalFrame (hlength : input.length < 2 ^ 31)
    (hdecode : @decodeCanonicalFrame target input = .ok frame) : frame.Portable := by
  obtain ⟨typeId, version, fields, hfields, rfl, -, rfl⟩ :=
    (@decodeCanonicalFrame_eq_ok_iff target _ _).mp hdecode
  have hfits : ∀ target : Target, _ < 2 ^ @Target.usizeBits target :=
    fun target ↦ lt_two_pow_usizeBits target hlength
  have hfield : ∀ (target : Target) fieldId,
      @CanonicalFrame.field target (viewOf typeId version fields) fieldId =
        fields.lookup fieldId :=
    fun target ↦ @CanonicalFrame.field_viewOf target _ _ _ hfields (hfits target)
  refine ⟨?_, ?_, ?_⟩
  · intro target target' fieldId
    rw [hfield target, hfield target']
  · intro target fieldId bytes hbytes
    rw [hfield target, hfields.ascending.lookup_eq_some_iff] at hbytes
    have hpart : bytes.length ≤ _ := length_le_length_canonicalFields hbytes
    rw [length_canonicalFrame] at hlength
    omega
  · intro target target' allowed
    rw [@CanonicalFrame.requireOnlyFields_viewOf target _ _ _ hfields (hfits target),
      @CanonicalFrame.requireOnlyFields_viewOf target' _ _ _ hfields (hfits target')]

theorem decodeCanonicalStruct_agrees (typeId version : UInt16) (allowed : List UInt16)
    (hlength : input.length < 2 ^ 31) :
    @decodeCanonicalStruct target typeId version allowed input =
      @decodeCanonicalStruct target' typeId version allowed input := by
  refine bind_congr_of_ok (decodeCanonicalFrame_agrees target' hlength) fun frame hframe ↦ ?_
  have hportable := portable_of_decodeCanonicalFrame hlength hframe
  rw [hportable.requireOnlyFields_eq target target']

theorem portable_of_decodeCanonicalStruct {typeId version : UInt16} {allowed : List UInt16}
    (hlength : input.length < 2 ^ 31)
    (hdecode : @decodeCanonicalStruct target typeId version allowed input = .ok frame) :
    frame.Portable := by
  simp only [decodeCanonicalStruct, bind_eq_ok_iff, Except.ok.injEq] at hdecode
  obtain ⟨_, hframe, -, -, -, -, -, -, rfl⟩ := hdecode
  exact portable_of_decodeCanonicalFrame hlength hframe

namespace CanonicalFrame.Portable

variable (hportable : frame.Portable) (fieldId : UInt16)

include hportable

theorem requiredField_eq : @CanonicalFrame.requiredField target frame fieldId =
    @CanonicalFrame.requiredField target' frame fieldId := by
  unfold CanonicalFrame.requiredField
  rw [hportable.field_eq target target']

theorem requiredArray_eq (size : ℕ) : @CanonicalFrame.requiredArray target frame size fieldId =
    @CanonicalFrame.requiredArray target' frame size fieldId := by
  unfold CanonicalFrame.requiredArray
  rw [hportable.requiredField_eq target']

theorem requiredU16_eq : @CanonicalFrame.requiredU16 target frame fieldId =
    @CanonicalFrame.requiredU16 target' frame fieldId := by
  unfold CanonicalFrame.requiredU16
  rw [hportable.requiredArray_eq target']

theorem requiredU32_eq : @CanonicalFrame.requiredU32 target frame fieldId =
    @CanonicalFrame.requiredU32 target' frame fieldId := by
  unfold CanonicalFrame.requiredU32
  rw [hportable.requiredArray_eq target']

theorem requiredU64_eq : @CanonicalFrame.requiredU64 target frame fieldId =
    @CanonicalFrame.requiredU64 target' frame fieldId := by
  unfold CanonicalFrame.requiredU64
  rw [hportable.requiredArray_eq target']

/-- A required field is short. -/
theorem length_of_requiredField {bytes : Bytes} {Error : Type} {rename : CanonicalError → Error}
    (hfield : (@CanonicalFrame.requiredField target frame fieldId).mapError rename = .ok bytes) :
    bytes.length < 2 ^ 31 :=
  hportable.length_lt target fieldId bytes
    (@CanonicalFrame.requiredField_eq_ok_iff target _ _ _ |>.mp (mapError_eq_ok_iff.mp hfield))

end CanonicalFrame.Portable

/-! ## Nested frames -/

theorem decodeDigest32_agrees (hlength : input.length < 2 ^ 31) :
    @decodeDigest32 target input = @decodeDigest32 target' input := by
  refine bind_congr_of_ok (by rw [decodeCanonicalStruct_agrees target' _ _ _ hlength])
    fun frame hframe ↦ ?_
  have hportable := portable_of_decodeCanonicalStruct hlength (mapError_eq_ok_iff.mp hframe)
  rw [hportable.requiredU16_eq target', hportable.requiredArray_eq target']

theorem decodeObjectId_agrees (hlength : input.length < 2 ^ 31) :
    @decodeObjectId target input = @decodeObjectId target' input := by
  refine bind_congr_of_ok (by rw [decodeCanonicalStruct_agrees target' _ _ _ hlength])
    fun frame hframe ↦ ?_
  have hportable := portable_of_decodeCanonicalStruct hlength (mapError_eq_ok_iff.mp hframe)
  rw [hportable.requiredArray_eq target']

theorem decodeObjectRef_agrees (hlength : input.length < 2 ^ 31) :
    @decodeObjectRef target input = @decodeObjectRef target' input := by
  refine bind_congr_of_ok (by rw [decodeCanonicalStruct_agrees target' _ _ _ hlength])
    fun frame hframe ↦ ?_
  have hportable := portable_of_decodeCanonicalStruct hlength (mapError_eq_ok_iff.mp hframe)
  refine bind_congr_of_ok (by rw [hportable.requiredField_eq target']) fun idBytes hid ↦ ?_
  have hidLength := hportable.length_of_requiredField 1 hid
  refine bind_congr_of_ok (decodeObjectId_agrees target' hidLength) fun objectId _ ↦ ?_
  refine bind_congr_of_ok (by rw [hportable.requiredU64_eq target']) fun version _ ↦ ?_
  refine bind_congr_of_ok (by rw [hportable.requiredField_eq target']) fun digestBytes hdigest ↦ ?_
  have hdigestLength := hportable.length_of_requiredField 3 hdigest
  rw [decodeDigest32_agrees target' hdigestLength]

theorem decodeAccessMode_agrees (hlength : input.length < 2 ^ 31) :
    @decodeAccessMode target input = @decodeAccessMode target' input := by
  refine bind_congr_of_ok (by rw [decodeCanonicalStruct_agrees target' _ _ _ hlength])
    fun frame hframe ↦ ?_
  have hportable := portable_of_decodeCanonicalStruct hlength (mapError_eq_ok_iff.mp hframe)
  rw [hportable.requiredField_eq target']

theorem decodeAccessEntry_agrees (hlength : input.length < 2 ^ 31) :
    @decodeAccessEntry target input = @decodeAccessEntry target' input := by
  refine bind_congr_of_ok (by rw [decodeCanonicalStruct_agrees target' _ _ _ hlength])
    fun frame hframe ↦ ?_
  have hportable := portable_of_decodeCanonicalStruct hlength (mapError_eq_ok_iff.mp hframe)
  refine bind_congr_of_ok (by rw [hportable.requiredField_eq target']) fun refBytes href ↦ ?_
  have hrefLength := hportable.length_of_requiredField 1 href
  refine bind_congr_of_ok (decodeObjectRef_agrees target' hrefLength) fun objectRef _ ↦ ?_
  refine bind_congr_of_ok (by rw [hportable.requiredField_eq target']) fun modeBytes hmode ↦ ?_
  have hmodeLength := hportable.length_of_requiredField 2 hmode
  rw [decodeAccessMode_agrees target' hmodeLength]

/-- An addition that cannot overflow 32 bits. -/
theorem checkedAdd_eq_some (target : Target) {left right : ℕ} (hsum : left + right < 2 ^ 32) :
    @checkedAdd target left right = some (left + right) :=
  if_pos (hsum.trans_le (@Target.two_pow_le target))

theorem decodeEntries_agrees (hportable : frame.Portable) {remaining index : ℕ}
    (hindex : index + remaining ≤ 2 ^ 31) (manifest : AccessManifest) :
    @decodeEntries target frame remaining index manifest =
      @decodeEntries target' frame remaining index manifest := by
  induction remaining generalizing index manifest with
  | zero => rfl
  | succ remaining ih =>
    refine bind_congr_of_ok ?_ fun position _ ↦ ?_
    · rw [checkedAdd_eq_some target (by omega), checkedAdd_eq_some target' (by omega)]
    refine bind_congr_of_ok rfl fun fieldId _ ↦ ?_
    refine bind_congr_of_ok (by rw [hportable.requiredField_eq target']) fun entryBytes hentry ↦ ?_
    have hentryLength := hportable.length_of_requiredField fieldId hentry
    refine bind_congr_of_ok (decodeAccessEntry_agrees target' hentryLength) fun entry _ ↦ ?_
    exact bind_congr_of_ok rfl fun manifest _ ↦ ih (by omega) manifest

/-- A field count can be compared with a number of entries on every target: it has 16 bits, and a
sum that overflows is refused with the same error as any other sum that is not the field count. -/
theorem expectFieldCount_eq (target : Target) {Error Value : Type} (failure : Error)
    (fieldCount : UInt16) (count : ℕ) (next : Except Error Value) :
    (okOr failure (@checkedAdd target count 1) >>= fun expectedFieldCount ↦
        ensure (fieldCount.toNat = expectedFieldCount) failure >>= fun _ ↦ next) =
      (ensure (fieldCount.toNat = count + 1) failure >>= fun _ ↦ next) := by
  by_cases hsum : count + 1 < 2 ^ 32
  · rw [checkedAdd_eq_some target hsum, okOr_some, ok_bind]
  · have hcount : fieldCount.toNat ≠ count + 1 := by
      have hbound := fieldCount.toNat_lt
      omega
    rw [ensure_of_false hcount, error_bind]
    cases hadd : @checkedAdd target count 1 with
    | none => rfl
    | some expectedFieldCount =>
      obtain rfl : expectedFieldCount = count + 1 := by
        unfold checkedAdd at hadd
        split_ifs at hadd
        exact (Option.some.inj hadd).symm
      rw [okOr_some, ok_bind, ensure_of_false hcount, error_bind]

theorem decodeAccessManifest_agrees (hlength : input.length < 2 ^ 31) (maxEntries : ℕ) :
    @decodeAccessManifest target input maxEntries =
      @decodeAccessManifest target' input maxEntries := by
  refine bind_congr_of_ok (by rw [decodeCanonicalFrame_agrees target' hlength])
    fun frame hframe ↦ ?_
  have hportable := portable_of_decodeCanonicalFrame hlength (mapError_eq_ok_iff.mp hframe)
  refine bind_congr_of_ok rfl fun _ _ ↦ bind_congr_of_ok rfl fun _ _ ↦ ?_
  refine bind_congr_of_ok (by rw [hportable.requiredU32_eq target']) fun declaredCount _ ↦ ?_
  simp only [usizeTryFrom_eq, okOr_some, ok_bind]
  refine bind_congr_of_ok rfl fun _ _ ↦ ?_
  rw [expectFieldCount_eq target, expectFieldCount_eq target']
  refine bind_congr_of_ok rfl fun _ hcount ↦ ?_
  have hfields : frame.fieldCount.toNat = declaredCount.toNat + 1 := ensure_eq_ok_iff.mp hcount
  have hbound := frame.fieldCount.toNat_lt
  rw [decodeEntries_agrees target' hportable (by omega)]

theorem decodeAssetId_agrees (hlength : input.length < 2 ^ 31) :
    @decodeAssetId target input = @decodeAssetId target' input := by
  refine bind_congr_of_ok (by rw [decodeCanonicalStruct_agrees target' _ _ _ hlength])
    fun frame hframe ↦ ?_
  have hportable := portable_of_decodeCanonicalStruct hlength (mapError_eq_ok_iff.mp hframe)
  rw [hportable.requiredArray_eq target']

theorem decodeFeePayment_agrees (hlength : input.length < 2 ^ 31) :
    @decodeFeePayment target input = @decodeFeePayment target' input := by
  refine bind_congr_of_ok (by rw [decodeCanonicalStruct_agrees target' _ _ _ hlength])
    fun frame hframe ↦ ?_
  have hportable := portable_of_decodeCanonicalStruct hlength (mapError_eq_ok_iff.mp hframe)
  refine bind_congr_of_ok (by rw [hportable.requiredField_eq target']) fun assetBytes hasset ↦ ?_
  have hassetLength := hportable.length_of_requiredField 1 hasset
  refine bind_congr_of_ok (decodeAssetId_agrees target' hassetLength) fun assetId _ ↦ ?_
  refine bind_congr_of_ok (by rw [hportable.requiredU64_eq target']) fun maxFee _ ↦ ?_
  refine bind_congr_of_ok (by rw [hportable.requiredField_eq target']) fun objectBytes hobject ↦ ?_
  have hobjectLength := hportable.length_of_requiredField 3 hobject
  rw [decodeObjectRef_agrees target' hobjectLength]

theorem decodeFeeField_agrees {field : Option Bytes}
    (hlength : ∀ bytes, field = some bytes → bytes.length < 2 ^ 31) :
    @decodeFeeField target field = @decodeFeeField target' field := by
  cases field with
  | none => rfl
  | some feeBytes =>
    change Except.map some _ = Except.map some _
    rw [decodeFeePayment_agrees target' (hlength feeBytes rfl)]

theorem decodeTransactionSignable_agrees (hlength : input.length < 2 ^ 31) :
    @decodeTransactionSignable target input = @decodeTransactionSignable target' input := by
  refine bind_congr_of_ok (by rw [decodeCanonicalStruct_agrees target' _ _ _ hlength])
    fun frame hframe ↦ ?_
  have hportable := portable_of_decodeCanonicalStruct hlength (mapError_eq_ok_iff.mp hframe)
  refine bind_congr_of_ok (by rw [hportable.requiredField_eq target']) fun chainIdBytes _ ↦ ?_
  refine bind_congr_of_ok rfl fun chainId _ ↦ ?_
  refine bind_congr_of_ok (by rw [hportable.requiredU32_eq target']) fun protocolVersion _ ↦ ?_
  refine bind_congr_of_ok (by rw [hportable.requiredU64_eq target']) fun epoch _ ↦ ?_
  refine bind_congr_of_ok (by rw [hportable.requiredArray_eq target']) fun senderBytes _ ↦ ?_
  refine bind_congr_of_ok (by rw [hportable.requiredU64_eq target']) fun nonce _ ↦ ?_
  refine bind_congr_of_ok (by rw [hportable.requiredField_eq target'])
    fun manifestBytes hmanifest ↦ ?_
  have hmanifestLength := hportable.length_of_requiredField 6 hmanifest
  refine bind_congr_of_ok (decodeAccessManifest_agrees target' hmanifestLength _)
    fun accessManifest _ ↦ ?_
  refine bind_congr_of_ok (by rw [hportable.requiredField_eq target']) fun moduleBytes hmodule ↦ ?_
  have hmoduleLength := hportable.length_of_requiredField 7 hmodule
  refine bind_congr_of_ok (decodeObjectRef_agrees target' hmoduleLength) fun moduleRef _ ↦ ?_
  refine bind_congr_of_ok (by rw [hportable.requiredField_eq target']) fun entrypointBytes _ ↦ ?_
  refine bind_congr_of_ok rfl fun entrypoint _ ↦ bind_congr_of_ok rfl fun _ _ ↦ ?_
  refine bind_congr_of_ok (by rw [hportable.requiredField_eq target']) fun args _ ↦ ?_
  refine bind_congr_of_ok rfl fun _ _ ↦ ?_
  refine bind_congr_of_ok (by rw [hportable.requiredU64_eq target']) fun gasLimit _ ↦ ?_
  have hfee := @decodeFeeField_agrees target target' (@CanonicalFrame.field target frame 11)
    (hportable.length_lt target 11)
  rw [hfee, hportable.field_eq target target']

theorem decodeSignatureFrame_agrees (hlength : input.length < 2 ^ 31) :
    @decodeSignatureFrame target input = @decodeSignatureFrame target' input := by
  refine bind_congr_of_ok (by rw [decodeCanonicalStruct_agrees target' _ _ _ hlength])
    fun frame hframe ↦ ?_
  have hportable := portable_of_decodeCanonicalStruct hlength (mapError_eq_ok_iff.mp hframe)
  simp only [hportable.requiredField_eq target', hportable.requiredU32_eq target',
    hportable.requiredU64_eq target', hportable.requiredU16_eq target']

theorem recognize_agrees (policy : ClearSigningPolicy) {transaction : TransactionSignable}
    (hargs : transaction.args.length < 2 ^ 31) :
    @ClearSigningPolicy.recognize target policy transaction =
      @ClearSigningPolicy.recognize target' policy transaction := by
  unfold ClearSigningPolicy.recognize
  rw [decodeCanonicalFrame_agrees target' hargs]
  cases hdecode : @decodeCanonicalFrame target' transaction.args with
  | error failure => rfl
  | ok frame =>
    have hportable := portable_of_decodeCanonicalFrame hargs hdecode
    simp only [mapError_ok, ok_bind, hportable.requireOnlyFields_eq target target',
      hportable.requiredU64_eq target']

theorem buildReview_agrees (frame : SignatureFrame) (policy : ClearSigningPolicy)
    {transaction : TransactionSignable} (hargs : transaction.args.length < 2 ^ 31) :
    @buildReview target frame transaction policy =
      @buildReview target' frame transaction policy := by
  unfold buildReview
  rw [recognize_agrees target' policy hargs]

/-- The arguments of a decoded transaction are short. -/
theorem length_args_of_decodeTransactionSignable {transaction : TransactionSignable}
    (hdecode : @decodeTransactionSignable target input = .ok transaction) :
    transaction.args.length ≤ maxArgsBytes :=
  ((@decodeTransactionSignable_exact target).ok_iff _ _ |>.mp hdecode).1.args_le

/-! ## The session -/

section Session

variable {session : SigningSession} {data : Bytes} {deriver : PublicKeyDeriver}
  {policy : ClearSigningPolicy}

theorem appendChunk_agrees {chunk : Bytes} (hfits : session.bufferedLen + chunk.length < 2 ^ 32) :
    @SigningSession.appendChunk target session chunk =
      @SigningSession.appendChunk target' session chunk := by
  unfold SigningSession.appendChunk
  rw [checkedAdd_eq_some target hfits, checkedAdd_eq_some target' hfits]

theorem handleFirst_agrees (hbuffered : session.bufferedLen ≤ maxFrameLen) :
    @handleFirst target session data = @handleFirst target' session data := by
  refine bind_congr_of_ok rfl fun _ _ ↦ bind_congr_of_ok rfl fun _ _ ↦ ?_
  refine bind_congr_of_ok rfl fun _ hmax ↦ ?_
  have hdata : data.length ≤ 255 := ensure_eq_ok_iff.mp hmax
  refine bind_congr_of_ok rfl fun _ _ ↦ bind_congr_of_ok rfl fun _ _ ↦ ?_
  simp only [usizeTryFrom_eq, okOr_some, ok_bind]
  refine bind_congr_of_ok rfl fun _ _ ↦ bind_congr_of_ok rfl fun _ _ ↦ ?_
  refine bind_congr_of_ok rfl fun path _ ↦ bind_congr_of_ok rfl fun chunk hchunk ↦ ?_
  obtain ⟨-, -, rfl⟩ := getRange_eq_some_iff.mp (okOr_eq_ok_iff.mp hchunk)
  refine bind_congr_of_ok rfl fun _ _ ↦
    bind_congr_of_ok (appendChunk_agrees target' ?_) fun _ _ ↦ rfl
  have hframe : session.bufferedLen ≤ 4096 := hbuffered
  rw [List.length_drop, List.length_take]
  change session.bufferedLen + _ < _
  omega

theorem handleContinue_agrees (hbuffered : session.bufferedLen ≤ maxFrameLen) :
    @handleContinue target session data = @handleContinue target' session data := by
  refine bind_congr_of_ok rfl fun _ _ ↦ bind_congr_of_ok rfl fun _ _ ↦ ?_
  refine bind_congr_of_ok rfl fun _ hmax ↦ ?_
  have hdata : data.length ≤ 230 := ensure_eq_ok_iff.mp hmax
  have hframe : session.bufferedLen ≤ 4096 := hbuffered
  refine bind_congr_of_ok rfl fun remaining _ ↦ ?_
  simp only [usizeTryFrom_eq]
  refine bind_congr_of_ok rfl fun _ _ ↦ ?_
  rw [appendChunk_agrees target' (by omega)]

theorem handleLast_agrees (hbuffered : session.bufferedLen ≤ maxFrameLen) :
    @handleLast target session data deriver policy =
      @handleLast target' session data deriver policy := by
  refine bind_congr_of_ok rfl fun _ _ ↦ bind_congr_of_ok rfl fun _ _ ↦ ?_
  refine bind_congr_of_ok rfl fun _ hmax ↦ ?_
  have hdata : data.length ≤ 230 := ensure_eq_ok_iff.mp hmax
  have hframe : session.bufferedLen ≤ 4096 := hbuffered
  refine bind_congr_of_ok (appendChunk_agrees target' (by omega)) fun appended _ ↦ ?_
  refine bind_congr_of_ok rfl fun _ _ ↦ bind_congr_of_ok rfl fun framed hframed ↦ ?_
  have hlength : framed.length < 2 ^ 31 := by
    obtain ⟨-, -, rfl⟩ := getRange_eq_some_iff.mp (okOr_eq_ok_iff.mp hframed)
    rw [List.length_drop, List.length_take, List.Vector.toList_length]
    change min _ 4096 - 0 < 2 ^ 31
    omega
  refine bind_congr_of_ok (by rw [decodeSignatureFrame_agrees target' hlength]) fun frame _ ↦ ?_
  refine bind_congr_of_ok rfl fun _ hpayload ↦ ?_
  have hpayloadLength : frame.payload.length ≤ 3072 := ensure_eq_ok_iff.mp hpayload
  have hshort : frame.payload.length < 2 ^ 31 := by omega
  refine bind_congr_of_ok (by rw [decodeTransactionSignable_agrees target' hshort])
    fun transaction htransaction ↦ ?_
  have hargs : transaction.args.length ≤ 40 :=
    length_args_of_decodeTransactionSignable (mapError_eq_ok_iff.mp htransaction)
  refine bind_congr_of_ok rfl fun path _ ↦ bind_congr_of_ok rfl fun _ _ ↦
    bind_congr_of_ok rfl fun _ _ ↦ ?_
  rw [buildReview_agrees target' frame policy (by omega)]

theorem dispatch_agrees (command : ApduCommand) (hbuffered : session.bufferedLen ≤ maxFrameLen) :
    @dispatch target session command deriver policy =
      @dispatch target' session command deriver policy := by
  unfold dispatch handle handleSignTransaction
  rw [handleFirst_agrees target' hbuffered, handleContinue_agrees target' hbuffered,
    handleLast_agrees target' hbuffered]

end Session

/-- Everything that the wallet decodes is decoded alike on two targets: each of the eleven kinds of
frames to the same value or with the same error, and a decoded transaction with the same review, or
none with the same error, under every policy. -/
structure DecodesAlike (target target' : Target) (input : Bytes) : Prop where
  signatureFrame : @decodeSignatureFrame target input = @decodeSignatureFrame target' input
  transaction : @decodeTransactionSignable target input = @decodeTransactionSignable target' input
  digest : @decodeDigest32 target input = @decodeDigest32 target' input
  objectId : @decodeObjectId target input = @decodeObjectId target' input
  objectRef : @decodeObjectRef target input = @decodeObjectRef target' input
  accessMode : @decodeAccessMode target input = @decodeAccessMode target' input
  accessEntry : @decodeAccessEntry target input = @decodeAccessEntry target' input
  accessManifest : ∀ maxEntries, @decodeAccessManifest target input maxEntries =
    @decodeAccessManifest target' input maxEntries
  assetId : @decodeAssetId target input = @decodeAssetId target' input
  feePayment : @decodeFeePayment target input = @decodeFeePayment target' input
  amountArgs : ∀ (policy : ClearSigningPolicy) (transaction : TransactionSignable),
    transaction.args = input → @ClearSigningPolicy.recognize target policy transaction =
      @ClearSigningPolicy.recognize target' policy transaction
  review : ∀ transaction, @decodeTransactionSignable target input = .ok transaction →
    ∀ frame policy, @buildReview target frame transaction policy =
      @buildReview target' frame transaction policy

/-- Every input that fits 31 bits is decoded alike by the device and the host, by every decoder. -/
theorem decoders_target_independent (hlength : input.length < 2 ^ 31) :
    DecodesAlike .device .host input where
  signatureFrame := decodeSignatureFrame_agrees .host hlength
  transaction := decodeTransactionSignable_agrees .host hlength
  digest := decodeDigest32_agrees .host hlength
  objectId := decodeObjectId_agrees .host hlength
  objectRef := decodeObjectRef_agrees .host hlength
  accessMode := decodeAccessMode_agrees .host hlength
  accessEntry := decodeAccessEntry_agrees .host hlength
  accessManifest := decodeAccessManifest_agrees .host hlength
  assetId := decodeAssetId_agrees .host hlength
  feePayment := decodeFeePayment_agrees .host hlength
  amountArgs := by
    rintro policy transaction rfl
    exact recognize_agrees .host policy hlength
  review := by
    intro transaction hdecode frame policy
    have hargs := length_args_of_decodeTransactionSignable hdecode
    exact buildReview_agrees .host frame policy (hargs.trans_lt (by decide))

/-- A transaction whose first field declares 2 ^ 32 - 1 bytes, and ends there. -/
def overflowingTransaction : Bytes :=
  canonicalHeader transactionTypeId encodingVersion 1 ++ [1, 0, 0xFF, 0xFF, 0xFF, 0xFF]

/-- What the host decodes from the transfer of one unit and from a field that ends beyond 32 bits is
what the device decodes. -/
theorem decoders_target_independent_of_unitTransfer :
    @decodeSignatureFrame .device unitTransfer.bytes = .ok unitTransfer.signatureFrame ∧
      @decodeTransactionSignable .device unitTransfer.signatureFrame.payload =
        .ok unitTransfer.transaction ∧
      @decodeTransactionSignable .device overflowingTransaction =
        .error (.canonical .truncated) := by
  have hbytes : unitTransfer.bytes.length < 2 ^ 31 :=
    unitTransfer.length_bytes.trans_lt (by norm_num)
  have hpayload : unitTransfer.signatureFrame.payload.length < 2 ^ 31 :=
    unitTransfer.length_payload.trans_lt (by norm_num)
  have hoverflow : overflowingTransaction.length < 2 ^ 31 := by decide
  rw [(decoders_target_independent hbytes).signatureFrame,
    (decoders_target_independent hpayload).transaction,
    (decoders_target_independent hoverflow).transaction]
  refine ⟨@Transfer.decodeSignatureFrame_bytes unitTransfer .host,
    @Transfer.decodeTransactionSignable_payload unitTransfer .host, by decide +kernel⟩

/-- In a session that represents a phase the buffer is not overfull. -/
theorem bufferedLen_le_of_representsPhase {session : SigningSession}
    (hrepresents : @RepresentsPhase target session) : session.bufferedLen ≤ maxFrameLen := by
  obtain ⟨phase, rfl⟩ := hrepresents
  rw [@Phase.bufferedLen_represent target]
  exact @Phase.content_length_le target phase

theorem perform_agrees {session : SigningSession} (operation : Operation)
    (hbuffered : session.bufferedLen ≤ maxFrameLen) :
    @perform target session operation = @perform target' session operation := by
  cases operation with
  | dispatch command deriver policy =>
    change (_, Observation.dispatched _ _) = (_, Observation.dispatched _ _)
    rw [dispatch_agrees target' command hbuffered]
  | _ => rfl

/-- Every run of operations leaves the same session on both builds, with the same outcomes and the
same calls of the key derivation and of the signer on the way. -/
theorem sessionMachine_target_independent (operations : List Operation) :
    (@sessionMachine .device).run .new operations = (@sessionMachine .host).run .new operations ∧
      (@sessionMachine .device).history .new operations =
        (@sessionMachine .host).history .new operations := by
  have hagree : ∀ session operation, @RepresentsPhase .device session →
      (@sessionMachine .device).step session operation =
        (@sessionMachine .host).step session operation :=
    fun _ operation hrepresents ↦
      perform_agrees .host operation (bufferedLen_le_of_representsPhase hrepresents)
  exact Machine.run_eq_of_agree (@RepresentsPhase .device) (@representsPhase_step .device) hagree
    (@representsPhase_run .device []) operations

end SunriseEdgeLedger.Core
