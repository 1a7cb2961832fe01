import SunriseEdgeLedger.Core.Transaction
import SunriseEdgeLedger.Core.CanonicalEncoding

/-!
# The decoders of the nested frames are exact

The documented encodings of the frames of fixed shape that are nested in a transaction, and the
exactness of each decoder for its encoding, from the innermost frames outwards.  A decoder that
opens with the shared schema checks is exact as soon as it reads off the fields of the value it
returns.
-/

namespace SunriseEdgeLedger.Core

open Foundation

def digest32Fields (digest : Digest32) : List (UInt16 × Bytes) :=
  [(1, u16ToLeBytes digest.algorithm.asU16), (2, digest.bytes.toList)]

def digest32Bytes (digest : Digest32) : Bytes :=
  canonicalFrame digestTypeId 1 (digest32Fields digest)

def objectIdBytes (objectId : ObjectId) : Bytes :=
  canonicalFrame objectIdTypeId 1 [(1, objectId.bytes.toList)]

def objectRefFields (objectRef : ObjectRef) : List (UInt16 × Bytes) :=
  [(1, objectIdBytes objectRef.id), (2, u64ToLeBytes objectRef.version),
    (3, digest32Bytes objectRef.digest)]

def objectRefBytes (objectRef : ObjectRef) : Bytes :=
  canonicalFrame objectRefTypeId 1 (objectRefFields objectRef)

def accessModeBytes (mode : AccessMode) : Bytes :=
  canonicalFrame accessModeTypeId 1 [(1, [mode.asU8])]

def accessEntryFields (entry : AccessEntry) : List (UInt16 × Bytes) :=
  [(1, objectRefBytes entry.objectRef), (2, accessModeBytes entry.mode)]

def accessEntryBytes (entry : AccessEntry) : Bytes :=
  canonicalFrame accessEntryTypeId 1 (accessEntryFields entry)

def assetIdBytes (assetId : AssetId) : Bytes :=
  canonicalFrame assetIdTypeId 1 [(1, assetId.bytes.toList)]

def feePaymentFields (fee : FeePayment) : List (UInt16 × Bytes) :=
  [(1, assetIdBytes fee.assetId), (2, u64ToLeBytes fee.maxFee), (3, objectRefBytes fee.feeObject)]

def feePaymentBytes (fee : FeePayment) : Bytes :=
  canonicalFrame feePaymentTypeId 1 (feePaymentFields fee)

@[simp]
theorem length_digest32Bytes (digest : Digest32) : (digest32Bytes digest).length = 56 := by
  simp [digest32Bytes, digest32Fields]

@[simp]
theorem length_objectIdBytes (objectId : ObjectId) : (objectIdBytes objectId).length = 48 := by
  simp [objectIdBytes]

@[simp]
theorem length_objectRefBytes (objectRef : ObjectRef) :
    (objectRefBytes objectRef).length = 140 := by
  simp [objectRefBytes, objectRefFields]

@[simp]
theorem length_accessModeBytes (mode : AccessMode) : (accessModeBytes mode).length = 17 := by
  simp [accessModeBytes]

@[simp]
theorem length_accessEntryBytes (entry : AccessEntry) : (accessEntryBytes entry).length = 179 := by
  simp [accessEntryBytes, accessEntryFields]

@[simp]
theorem length_assetIdBytes (assetId : AssetId) : (assetIdBytes assetId).length = 48 := by
  simp [assetIdBytes]

@[simp]
theorem length_feePaymentBytes (fee : FeePayment) : (feePaymentBytes fee).length = 224 := by
  simp [feePaymentBytes, feePaymentFields]

variable [Target]

/-! ## Exactness -/

theorem decodeDigest32_exact : Exact decodeDigest32 (fun _ ↦ True) digest32Bytes := by
  refine exact_of_lookups_of_length_lt digestTypeId 1 [1, 2] ?_ (by simp [digest32Fields]) ?_
  · intro input digest
    simp only [decodeDigest32, bind_eq_ok_iff, mapError_eq_ok_iff, okOr_eq_ok_iff,
      CanonicalFrame.requiredU16_eq_ok_iff, CanonicalFrame.requiredArray_eq_ok_iff,
      HashAlgorithmId.tryFromU16_eq_some_iff, Except.ok.injEq, true_and]
    constructor
    · rintro ⟨frame, hdecode, _, halgorithm, algorithm, rfl, bytes, hbytes, rfl⟩
      exact ⟨frame, hdecode, by simp [digest32Fields, List.lookup, halgorithm, hbytes]⟩
    · rintro ⟨frame, hdecode, hlookup⟩
      simp only [digest32Fields, List.forall_mem_cons] at hlookup
      obtain ⟨halgorithm, hbytes, -⟩ := hlookup
      exact ⟨frame, hdecode, _, halgorithm, _, rfl, _, hbytes, rfl⟩
  · intro digest _
    exact (length_digest32Bytes digest).trans_lt (by norm_num)

/-- The two 32-byte identifiers share one decoder shape: a single field of 32 bytes. -/
theorem decodeArrayStruct_exact {Value : Type} (typeId : UInt16) (failure : TransactionError)
    (wrap : ByteArrayN 32 → Value) (unwrap : Value → ByteArrayN 32)
    (hwrap : ∀ bytes value, wrap bytes = value ↔ bytes = unwrap value) :
    Exact (fun input ↦ do
        let frame ← (decodeCanonicalStruct typeId 1 [1] input).mapError .canonical
        let bytes ← (frame.requiredArray 32 1).mapError fun _ ↦ failure
        .ok (wrap bytes))
      (fun _ ↦ True) fun value ↦ canonicalFrame typeId 1 [(1, (unwrap value).toList)] := by
  refine exact_of_lookups_of_length_lt typeId 1 [1] ?_ (by simp) (by simp)
  intro input value
  simp only [bind_eq_ok_iff, mapError_eq_ok_iff, CanonicalFrame.requiredArray_eq_ok_iff,
    Except.ok.injEq, true_and, List.forall_mem_singleton]
  constructor
  · rintro ⟨frame, hdecode, bytes, hbytes, hvalue⟩
    obtain rfl := (hwrap bytes value).mp hvalue
    exact ⟨frame, hdecode, by simp [List.lookup, hbytes]⟩
  · rintro ⟨frame, hdecode, hlookup⟩
    exact ⟨frame, hdecode, unwrap value, hlookup, (hwrap _ _).mpr rfl⟩

theorem decodeObjectId_exact : Exact decodeObjectId (fun _ ↦ True) objectIdBytes := by
  refine decodeArrayStruct_exact objectIdTypeId .objectId ObjectId.mk ObjectId.bytes ?_
  intro bytes objectId
  rw [ObjectId.ext_iff]

theorem decodeAssetId_exact : Exact decodeAssetId (fun _ ↦ True) assetIdBytes := by
  refine decodeArrayStruct_exact assetIdTypeId .objectId AssetId.mk AssetId.bytes ?_
  intro bytes assetId
  rw [AssetId.ext_iff]

theorem decodeObjectRef_exact : Exact decodeObjectRef (fun _ ↦ True) objectRefBytes := by
  refine exact_of_lookups_of_length_lt objectRefTypeId 1 [1, 2, 3] ?_ (by simp [objectRefFields]) ?_
  · intro input objectRef
    simp only [decodeObjectRef, bind_eq_ok_iff, mapError_eq_ok_iff,
      CanonicalFrame.requiredField_eq_ok_iff, CanonicalFrame.requiredU64_eq_ok_iff,
      decodeObjectId_exact.ok_iff, decodeDigest32_exact.ok_iff, Except.ok.injEq, true_and]
    constructor
    · rintro ⟨frame, hdecode, _, hid, objectId, rfl, version, hversion, _, hdigest, digest, rfl,
        rfl⟩
      exact ⟨frame, hdecode, by simp [objectRefFields, List.lookup, hid, hversion, hdigest]⟩
    · rintro ⟨frame, hdecode, hlookup⟩
      simp only [objectRefFields, List.forall_mem_cons] at hlookup
      obtain ⟨hid, hversion, hdigest, -⟩ := hlookup
      exact ⟨frame, hdecode, _, hid, _, rfl, _, hversion, _, hdigest, _, rfl, rfl⟩
  · intro objectRef _
    exact (length_objectRefBytes objectRef).trans_lt (by norm_num)

theorem decodeAccessMode_exact : Exact decodeAccessMode (fun _ ↦ True) accessModeBytes := by
  refine exact_of_lookups_of_length_lt accessModeTypeId 1 [1] ?_ (by simp) (by simp)
  intro input mode
  simp only [decodeAccessMode, bind_eq_ok_iff, mapError_eq_ok_iff, okOr_eq_ok_iff,
    CanonicalFrame.requiredField_eq_ok_iff, arrayOf?_eq_some_iff,
    AccessMode.tryFromU8_eq_some_iff, true_and, List.forall_mem_singleton]
  constructor
  · rintro ⟨frame, hdecode, _, hbytes, array, rfl, htag⟩
    have harray : array.toList = [mode.asU8] := by
      rw [← htag, ← List.Vector.cons_head_tail array]
      simp
    exact ⟨frame, hdecode, by rw [hbytes, harray]; rfl⟩
  · rintro ⟨frame, hdecode, hlookup⟩
    exact ⟨frame, hdecode, _, hlookup, ⟨[mode.asU8], rfl⟩, rfl, rfl⟩

theorem decodeAccessEntry_exact : Exact decodeAccessEntry (fun _ ↦ True) accessEntryBytes := by
  refine exact_of_lookups_of_length_lt accessEntryTypeId 1 [1, 2] ?_ (by simp [accessEntryFields]) ?_
  · intro input entry
    simp only [decodeAccessEntry, bind_eq_ok_iff, mapError_eq_ok_iff,
      CanonicalFrame.requiredField_eq_ok_iff, decodeObjectRef_exact.ok_iff,
      decodeAccessMode_exact.ok_iff, Except.ok.injEq, true_and]
    constructor
    · rintro ⟨frame, hdecode, _, hobject, objectRef, rfl, _, hmode, mode, rfl, rfl⟩
      exact ⟨frame, hdecode, by simp [accessEntryFields, List.lookup, hobject, hmode]⟩
    · rintro ⟨frame, hdecode, hlookup⟩
      simp only [accessEntryFields, List.forall_mem_cons] at hlookup
      obtain ⟨hobject, hmode, -⟩ := hlookup
      exact ⟨frame, hdecode, _, hobject, _, rfl, _, hmode, _, rfl, rfl⟩
  · intro entry _
    exact (length_accessEntryBytes entry).trans_lt (by norm_num)

theorem decodeFeePayment_exact : Exact decodeFeePayment (fun _ ↦ True) feePaymentBytes := by
  refine exact_of_lookups_of_length_lt feePaymentTypeId 1 [1, 2, 3] ?_ (by simp [feePaymentFields]) ?_
  · intro input fee
    simp only [decodeFeePayment, bind_eq_ok_iff, mapError_eq_ok_iff,
      CanonicalFrame.requiredField_eq_ok_iff, CanonicalFrame.requiredU64_eq_ok_iff,
      decodeAssetId_exact.ok_iff, decodeObjectRef_exact.ok_iff, Except.ok.injEq, true_and]
    constructor
    · rintro ⟨frame, hdecode, _, hasset, assetId, rfl, maxFee, hfee, _, hobject, feeObject, rfl,
        rfl⟩
      exact ⟨frame, hdecode, by simp [feePaymentFields, List.lookup, hasset, hfee, hobject]⟩
    · rintro ⟨frame, hdecode, hlookup⟩
      simp only [feePaymentFields, List.forall_mem_cons] at hlookup
      obtain ⟨hasset, hfee, hobject, -⟩ := hlookup
      exact ⟨frame, hdecode, _, hasset, _, rfl, _, hfee, _, hobject, _, rfl, rfl⟩
  · intro fee _
    exact (length_feePaymentBytes fee).trans_lt (by norm_num)

end SunriseEdgeLedger.Core
