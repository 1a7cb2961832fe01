import SunriseEdgeLedger.Core.ManifestEncoding

/-!
# The transaction decoder is exact

The documented encoding of a signable transaction, around the encodings of the frames nested in it,
and the exactness of its decoder.
-/

namespace SunriseEdgeLedger.Core

open Foundation

def transactionFields (transaction : TransactionSignable) : List (UInt16 × Bytes) :=
  [(1, asBytes transaction.chainId.asStr),
    (2, u32ToLeBytes transaction.protocolVersion),
    (3, u64ToLeBytes transaction.epoch),
    (4, transaction.sender.bytes.toList),
    (5, u64ToLeBytes transaction.nonce),
    (6, accessManifestBytes transaction.accessManifest),
    (7, objectRefBytes transaction.moduleRef),
    (8, asBytes transaction.entrypoint.asStr),
    (9, transaction.args),
    (10, u64ToLeBytes transaction.gasLimit)] ++
  transaction.feePayment.toList.map fun fee ↦ (11, feePaymentBytes fee)

/-- The documented encoding of a signable transaction. -/
def transactionBytes (transaction : TransactionSignable) : Bytes :=
  canonicalFrame transactionTypeId encodingVersion (transactionFields transaction)

theorem length_transactionBytes (transaction : TransactionSignable) :
    (transactionBytes transaction).length = 290 + (asBytes transaction.chainId.asStr).length +
      185 * transaction.accessManifest.len + (asBytes transaction.entrypoint.asStr).length +
      transaction.args.length + 230 * transaction.feePayment.toList.length := by
  cases hfee : transaction.feePayment with
  | none =>
    simp [transactionBytes, transactionFields, hfee]
    omega
  | some fee =>
    simp [transactionBytes, transactionFields, hfee]
    omega

variable [Target]

/-! ## Exactness -/

omit [Target] in
/-- The transactions that a signable payload can carry.  The bounds on texts, digests, modes and
the number of entries are part of the types of the components. -/
structure TransactionSignable.WellFormed (transaction : TransactionSignable) : Prop where
  entrypoint_ne : transaction.entrypoint.asStr ≠ ""
  args_le : transaction.args.length ≤ maxArgsBytes
  distinct : DistinctObjects transaction.accessManifest.iter

omit [Target] in
/-- What it means to look up every field of a transaction. -/
theorem forall_lookup_transactionFields_iff {read : UInt16 → Option Bytes}
    {transaction : TransactionSignable} :
    (∀ fieldId ∈ transactionFieldIds,
        read fieldId = (transactionFields transaction).lookup fieldId) ↔
      read 1 = some (asBytes transaction.chainId.asStr) ∧
      read 2 = some (u32ToLeBytes transaction.protocolVersion) ∧
      read 3 = some (u64ToLeBytes transaction.epoch) ∧
      read 4 = some transaction.sender.bytes.toList ∧
      read 5 = some (u64ToLeBytes transaction.nonce) ∧
      read 6 = some (accessManifestBytes transaction.accessManifest) ∧
      read 7 = some (objectRefBytes transaction.moduleRef) ∧
      read 8 = some (asBytes transaction.entrypoint.asStr) ∧
      read 9 = some transaction.args ∧
      read 10 = some (u64ToLeBytes transaction.gasLimit) ∧
      read 11 = transaction.feePayment.map feePaymentBytes := by
  cases hfee : transaction.feePayment <;>
    simp [transactionFieldIds, transactionFields, hfee, List.lookup]

theorem decodeFeeField_eq_ok_iff {feeBytes : Option Bytes} {fee : Option FeePayment} :
    decodeFeeField feeBytes = .ok fee ↔ feeBytes = fee.map feePaymentBytes := by
  cases feeBytes with
  | none => cases fee <;> simp [decodeFeeField]
  | some bytes => cases fee <;> simp [decodeFeeField, decodeFeePayment_exact.ok_iff]

omit [Target] in
theorem length_transactionBytes_lt {transaction : TransactionSignable}
    (hformed : transaction.WellFormed) : (transactionBytes transaction).length < 2 ^ 32 := by
  have hchain : (asBytes transaction.chainId.asStr).length ≤ 64 :=
    transaction.chainId.length_asBytes_le
  have hentrypoint : (asBytes transaction.entrypoint.asStr).length ≤ 64 :=
    transaction.entrypoint.length_asBytes_le
  have hargs : transaction.args.length ≤ 40 := hformed.args_le
  have hmanifest : transaction.accessManifest.len ≤ 8 := transaction.accessManifest.len_le
  have hfee : transaction.feePayment.toList.length ≤ 1 := Option.length_toList_le
  rw [length_transactionBytes]
  omega

/-- The transaction decoder accepts exactly the encodings of well-formed transactions. -/
theorem decodeTransactionSignable_exact :
    Exact decodeTransactionSignable TransactionSignable.WellFormed transactionBytes := by
  refine exact_of_lookups_of_length_lt transactionTypeId encodingVersion transactionFieldIds ?_ ?_ ?_
  · intro input transaction
    simp only [decodeTransactionSignable, bind_eq_ok_iff, mapError_eq_ok_iff,
      CanonicalFrame.requiredField_eq_ok_iff, CanonicalFrame.requiredU32_eq_ok_iff,
      CanonicalFrame.requiredU64_eq_ok_iff, CanonicalFrame.requiredArray_eq_ok_iff,
      BoundedStr.fromUtf8Slice_eq_ok_iff, decodeAccessManifest_eq_ok_iff,
      decodeObjectRef_exact.ok_iff, decodeFeeField_eq_ok_iff, BoundedStr.isEmpty_iff,
      forall_lookup_transactionFields_iff, ensure_eq_ok_iff, Except.ok.injEq, true_and]
    constructor
    · rintro ⟨frame, hdecode, _, hchain, chainId, rfl, protocolVersion, hversion, epoch, hepoch,
        sender, hsender, nonce, hnonce, _, hmanifest, manifest, ⟨-, hdistinct, rfl⟩, _, hmodule,
        moduleRef, rfl, _, hentrypoint, entrypoint, rfl, -, hempty, args, hargs, -, hlength,
        gasLimit, hgas, fee, hfee, rfl⟩
      exact ⟨⟨hempty, hlength, hdistinct⟩, frame, hdecode, hchain, hversion, hepoch, hsender,
        hnonce, hmanifest, hmodule, hentrypoint, hargs, hgas, hfee⟩
    · rintro ⟨hformed, frame, hdecode, hchain, hversion, hepoch, hsender, hnonce, hmanifest,
        hmodule, hentrypoint, hargs, hgas, hfee⟩
      exact ⟨frame, hdecode, _, hchain, _, rfl, _, hversion, _, hepoch, _, hsender, _, hnonce, _,
        hmanifest, _, ⟨transaction.accessManifest.len_le, hformed.distinct, rfl⟩, _, hmodule, _,
        rfl, _, hentrypoint, _, rfl, ⟨⟩, hformed.entrypoint_ne, _, hargs, ⟨⟩, hformed.args_le, _,
        hgas, _, hfee, rfl⟩
  · intro transaction
    cases hfee : transaction.feePayment <;> simp [transactionFields, transactionFieldIds, hfee]
  · intro transaction hformed
    exact length_transactionBytes_lt hformed

/-- The accepted payloads are exactly the documented encodings of well-formed transactions, and
decoding and encoding undo each other on them. -/
theorem decodeTransactionSignable_canonical :
    (∀ input, (∃ transaction, decodeTransactionSignable input = .ok transaction) ↔
        ∃ transaction : TransactionSignable,
          transaction.WellFormed ∧ input = transactionBytes transaction) ∧
      (∀ transaction : TransactionSignable, transaction.WellFormed →
        decodeTransactionSignable (transactionBytes transaction) = .ok transaction) ∧
      (∀ input transaction, decodeTransactionSignable input = .ok transaction →
        transaction.WellFormed ∧ transactionBytes transaction = input) := by
  refine ⟨decodeTransactionSignable_exact.accepts_iff, ?_, ?_⟩
  · intro transaction hformed
    exact decodeTransactionSignable_exact.decode_encode hformed
  · intro input transaction hdecode
    exact ⟨decodeTransactionSignable_exact.valid_of_ok hdecode,
      (decodeTransactionSignable_exact.encode_of_ok hdecode).symm⟩

end SunriseEdgeLedger.Core
