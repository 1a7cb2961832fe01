import SunriseEdgeLedger.Core.TransactionEncoding

/-!
# Clear-signing policies

A policy recognizes one module, entrypoint and argument shape, and turns a recognized transaction
into the amount it transfers.  There is no fallback: a transaction that does not match in every
field is rejected.
-/

namespace SunriseEdgeLedger.Core

open Foundation

/-- The exact reason why a transaction did not match a policy. -/
inductive PolicyError where
  | chainId
  | protocolVersion
  | epoch
  | moduleId
  | moduleVersion
  | moduleDigestAlgorithm
  | moduleDigest
  | entrypoint
  | accessShape
  | feeRequired
  | feeObjectMismatch
  | feeAsset
  | argumentsEncoding
  | argumentsTypeId (actual : UInt16)
  | argumentsVersion (actual : UInt16)
  | argumentsShape
  | zeroAmount
deriving DecidableEq, Repr

/-- An exact-match clear-signing policy. -/
structure ClearSigningPolicy where
  chainId : String
  protocolVersion : UInt32
  epoch : UInt64
  moduleId : ByteArrayN 32
  moduleVersion : UInt64
  codeDigestAlgorithm : HashAlgorithmId
  codeDigestBytes : ByteArrayN 32
  entrypoint : String
  argsTypeId : UInt16
  argsVersion : UInt16
  argsFieldId : UInt16
  argsLabel : String
  feeAssetId : ByteArrayN 32
deriving DecidableEq

namespace ClearSigningPolicy

/-- Recognize one transaction in full and return its non-zero amount. -/
def recognize [Target] (policy : ClearSigningPolicy) (transaction : TransactionSignable) :
    Except PolicyError UInt64 := do
  ensure (transaction.chainId.asStr = policy.chainId) .chainId
  ensure (transaction.protocolVersion = policy.protocolVersion) .protocolVersion
  ensure (transaction.epoch = policy.epoch) .epoch
  let moduleRef := transaction.moduleRef
  ensure (moduleRef.id = ⟨policy.moduleId⟩) .moduleId
  ensure (moduleRef.version = policy.moduleVersion) .moduleVersion
  ensure (moduleRef.digest.algorithm = policy.codeDigestAlgorithm) .moduleDigestAlgorithm
  ensure (moduleRef.digest.bytes = policy.codeDigestBytes) .moduleDigest
  ensure (transaction.entrypoint.asStr = policy.entrypoint) .entrypoint
  ensure (transaction.accessManifest.len = 3 ∧
    ∀ entry ∈ transaction.accessManifest.iter, entry.mode = .write) .accessShape
  let feePayment ← okOr .feeRequired transaction.feePayment
  let sourceEntry ← okOr .accessShape (transaction.accessManifest.get 0)
  ensure (feePayment.feeObject = sourceEntry.objectRef) .feeObjectMismatch
  ensure (feePayment.assetId = ⟨policy.feeAssetId⟩) .feeAsset
  let frame ← (decodeCanonicalFrame transaction.args).mapError fun _ ↦ .argumentsEncoding
  ensure (frame.typeId = policy.argsTypeId) (.argumentsTypeId frame.typeId)
  ensure (frame.version = policy.argsVersion) (.argumentsVersion frame.version)
  (frame.requireOnlyFields [policy.argsFieldId]).mapError fun _ ↦ .argumentsShape
  let value ← (frame.requiredU64 policy.argsFieldId).mapError fun _ ↦ .argumentsShape
  ensure (value ≠ 0) .zeroAmount
  .ok value

/-- The only argument bytes that carry a given amount. -/
def amountArgsBytes (policy : ClearSigningPolicy) (amount : UInt64) : Bytes :=
  canonicalFrame policy.argsTypeId policy.argsVersion [(policy.argsFieldId, u64ToLeBytes amount)]

@[simp]
theorem length_amountArgsBytes (policy : ClearSigningPolicy) (amount : UInt64) :
    (policy.amountArgsBytes amount).length = 24 := by
  simp [amountArgsBytes]

/-- A transaction calls the entrypoint that the policy allows, in the policy's context. -/
structure AllowsCall (policy : ClearSigningPolicy) (transaction : TransactionSignable) : Prop where
  chainId_eq : transaction.chainId.asStr = policy.chainId
  protocolVersion_eq : transaction.protocolVersion = policy.protocolVersion
  epoch_eq : transaction.epoch = policy.epoch
  moduleRef_eq : transaction.moduleRef = {
    id := ⟨policy.moduleId⟩
    version := policy.moduleVersion
    digest := { algorithm := policy.codeDigestAlgorithm, bytes := policy.codeDigestBytes }
  }
  entrypoint_eq : transaction.entrypoint.asStr = policy.entrypoint

/-- A transaction has the transfer shape with a given amount: three written objects, the first of
which pays the fee in the policy's asset, and the amount as the only argument. -/
structure AllowsTransfer (policy : ClearSigningPolicy) (transaction : TransactionSignable)
    (amount : UInt64) : Prop where
  len_eq : transaction.accessManifest.len = 3
  write : ∀ entry ∈ transaction.accessManifest.iter, entry.mode = .write
  fee : ∃ fee source, transaction.feePayment = some fee ∧
    transaction.accessManifest.iter[0]? = some source ∧ fee.feeObject = source.objectRef ∧
    fee.assetId = ⟨policy.feeAssetId⟩
  args_eq : transaction.args = policy.amountArgsBytes amount
  amount_ne : amount ≠ 0

variable [Target]

/-- The argument checks accept exactly the bytes of one amount. -/
theorem arguments_eq_ok_iff (policy : ClearSigningPolicy) {input : Bytes} {amount : UInt64} :
    (∃ frame, decodeCanonicalStruct policy.argsTypeId policy.argsVersion [policy.argsFieldId]
        input = .ok frame ∧ frame.field policy.argsFieldId = some (u64ToLeBytes amount)) ↔
      input = policy.amountArgsBytes amount := by
  have hlookup : ∀ frame : CanonicalFrame,
      frame.field policy.argsFieldId = some (u64ToLeBytes amount) ↔
        ∀ fieldId ∈ [policy.argsFieldId],
          frame.field fieldId = [(policy.argsFieldId, u64ToLeBytes amount)].lookup fieldId := by
    simp [List.lookup]
  simp only [hlookup]
  rw [decodeCanonicalStruct_lookup_iff (by simp) (by simp) (by simp)]
  exact and_iff_right (representable_of_length_lt _ _
    ((policy.length_amountArgsBytes amount).trans_lt (by norm_num)))

/-- Recognition is exactly an allowed call of the transfer shape. -/
theorem recognize_eq_ok_iff {policy : ClearSigningPolicy} {transaction : TransactionSignable}
    {amount : UInt64} :
    policy.recognize transaction = .ok amount ↔
      policy.AllowsCall transaction ∧ policy.AllowsTransfer transaction amount := by
  simp only [recognize, bind_eq_ok_iff, ensure_eq_ok_iff, okOr_eq_ok_iff, mapError_eq_ok_iff,
    CanonicalFrame.requiredU64_eq_ok_iff, AccessManifest.get_eq_getElem?, Except.ok.injEq]
  constructor
  · rintro ⟨-, hchain, -, hversion, -, hepoch, -, hid, -, hmoduleVersion, -, halgorithm, -, hdigest,
      -, hentrypoint, -, ⟨hlen, hwrite⟩, fee, hfee, source, hsource, -, hobject, -, hasset, frame,
      hframe, -, htype, -, hframeVersion, _, honly, value, hvalue, -, hnonzero, rfl⟩
    refine ⟨⟨hchain, hversion, hepoch, ?_, hentrypoint⟩,
      ⟨hlen, hwrite, ⟨fee, source, hfee, hsource, hobject, hasset⟩, ?_, hnonzero⟩⟩
    · rw [← hid, ← hmoduleVersion, ← halgorithm, ← hdigest]
    · refine policy.arguments_eq_ok_iff.mp ⟨frame, ?_, hvalue⟩
      simp only [decodeCanonicalStruct, bind_eq_ok_iff, CanonicalFrame.requireType_eq_ok_iff,
        CanonicalFrame.requireVersion_eq_ok_iff]
      exact ⟨frame, hframe, ⟨⟩, htype, ⟨⟩, hframeVersion, _, honly, rfl⟩
  · rintro ⟨hcall, htransfer⟩
    obtain ⟨fee, source, hfee, hsource, hobject, hasset⟩ := htransfer.fee
    obtain ⟨frame, hframe, hvalue⟩ := policy.arguments_eq_ok_iff.mpr htransfer.args_eq
    simp only [decodeCanonicalStruct, bind_eq_ok_iff, CanonicalFrame.requireType_eq_ok_iff,
      CanonicalFrame.requireVersion_eq_ok_iff, Except.ok.injEq] at hframe
    obtain ⟨_, hframe, -, htype, -, hframeVersion, _, honly, rfl⟩ := hframe
    have hmodule := hcall.moduleRef_eq
    exact ⟨⟨⟩, hcall.chainId_eq, ⟨⟩, hcall.protocolVersion_eq, ⟨⟩, hcall.epoch_eq, ⟨⟩,
      by rw [hmodule], ⟨⟩, by rw [hmodule], ⟨⟩, by rw [hmodule], ⟨⟩, by rw [hmodule], ⟨⟩,
      hcall.entrypoint_eq, ⟨⟩, ⟨htransfer.len_eq, htransfer.write⟩, fee, hfee, source, hsource, ⟨⟩,
      hobject, ⟨⟩, hasset, _, hframe, ⟨⟩, htype, ⟨⟩, hframeVersion, _, honly, amount, hvalue, ⟨⟩,
      htransfer.amount_ne, rfl⟩

omit [Target] in
/-- A manifest of the transfer shape has three written entries. -/
theorem exists_entries_iff {manifest : AccessManifest} :
    (manifest.len = 3 ∧ ∀ entry ∈ manifest.iter, entry.mode = .write) ↔
      ∃ source second third, manifest.iter = [source, second, third] ∧
        source.mode = .write ∧ second.mode = .write ∧ third.mode = .write := by
  rw [← AccessManifest.length_iter, List.length_eq_three]
  constructor
  · rintro ⟨⟨source, second, third, hiter⟩, hwrite⟩
    rw [hiter] at hwrite
    simp only [List.forall_mem_cons] at hwrite
    exact ⟨source, second, third, hiter, hwrite.1, hwrite.2.1, hwrite.2.2.1⟩
  · rintro ⟨source, second, third, hiter, hsource, hsecond, hthird⟩
    refine ⟨⟨source, second, third, hiter⟩, ?_⟩
    rw [hiter]
    simp [hsource, hsecond, hthird]

omit [Target] in
/-- An allowed call, with the module reference compared part by part. -/
theorem allowsCall_iff {policy : ClearSigningPolicy} {transaction : TransactionSignable} :
    policy.AllowsCall transaction ↔
      transaction.chainId.asStr = policy.chainId ∧
      transaction.protocolVersion = policy.protocolVersion ∧
      transaction.epoch = policy.epoch ∧
      transaction.moduleRef.id.bytes = policy.moduleId ∧
      transaction.moduleRef.version = policy.moduleVersion ∧
      transaction.moduleRef.digest.algorithm = policy.codeDigestAlgorithm ∧
      transaction.moduleRef.digest.bytes = policy.codeDigestBytes ∧
      transaction.entrypoint.asStr = policy.entrypoint := by
  constructor
  · rintro ⟨hchain, hversion, hepoch, hmodule, hentrypoint⟩
    simp only [hmodule, hchain, hversion, hepoch, hentrypoint, and_self]
  · rintro ⟨hchain, hversion, hepoch, hid, hmoduleVersion, halgorithm, hdigest, hentrypoint⟩
    refine ⟨hchain, hversion, hepoch, ?_, hentrypoint⟩
    rw [← hid, ← hmoduleVersion, ← halgorithm, ← hdigest]

omit [Target] in
/-- A transfer, with the fee object compared part by part with the first of the three entries. -/
theorem allowsTransfer_iff {policy : ClearSigningPolicy} {transaction : TransactionSignable}
    {amount : UInt64} :
    policy.AllowsTransfer transaction amount ↔
      (∃ source second third, transaction.accessManifest.iter = [source, second, third] ∧
        (source.mode = .write ∧ second.mode = .write ∧ third.mode = .write) ∧
        ∃ fee, transaction.feePayment = some fee ∧
          fee.feeObject.id = source.objectRef.id ∧
          fee.feeObject.version = source.objectRef.version ∧
          fee.feeObject.digest.algorithm = source.objectRef.digest.algorithm ∧
          fee.feeObject.digest.bytes = source.objectRef.digest.bytes ∧
          fee.assetId.bytes = policy.feeAssetId) ∧
      transaction.args = policy.amountArgsBytes amount ∧ amount ≠ 0 := by
  constructor
  · rintro ⟨hlen, hwrite, ⟨fee, first, hfee, hfirst, hobject, hasset⟩, hargs, hamount⟩
    obtain ⟨source, second, third, hiter, hmodes⟩ := exists_entries_iff.mp ⟨hlen, hwrite⟩
    obtain rfl : source = first := by simpa [hiter] using hfirst
    refine ⟨⟨source, second, third, hiter, hmodes, fee, hfee, ?_⟩, hargs, hamount⟩
    simp only [hobject, hasset, and_self]
  · rintro ⟨⟨source, second, third, hiter, hmodes, fee, hfee, hid, hversion, halgorithm, hdigest,
      hasset⟩, hargs, hamount⟩
    obtain ⟨hlen, hwrite⟩ := exists_entries_iff.mpr ⟨source, second, third, hiter, hmodes⟩
    exact ⟨hlen, hwrite, ⟨fee, source, hfee, by rw [hiter]; rfl,
      ObjectRef.ext hid hversion (Digest32.ext halgorithm hdigest), AssetId.ext hasset⟩, hargs,
      hamount⟩

/-- Every condition of a recognition: the context, the module and the entrypoint are the policy's;
the manifest has three entries, all written; a fee is paid with the object of the first entry in the
policy's asset; and the arguments are the 24 bytes of the frame whose one field holds the non-zero
amount.  Hence no other argument bytes are recognized with the same amount. -/
theorem recognize_exact (policy : ClearSigningPolicy) (transaction : TransactionSignable)
    (amount : UInt64) :
    (policy.recognize transaction = .ok amount ↔
        transaction.chainId.asStr = policy.chainId ∧
        transaction.protocolVersion = policy.protocolVersion ∧
        transaction.epoch = policy.epoch ∧
        transaction.moduleRef.id.bytes = policy.moduleId ∧
        transaction.moduleRef.version = policy.moduleVersion ∧
        transaction.moduleRef.digest.algorithm = policy.codeDigestAlgorithm ∧
        transaction.moduleRef.digest.bytes = policy.codeDigestBytes ∧
        transaction.entrypoint.asStr = policy.entrypoint ∧
        (∃ source second third, transaction.accessManifest.iter = [source, second, third] ∧
          (source.mode = .write ∧ second.mode = .write ∧ third.mode = .write) ∧
          ∃ fee, transaction.feePayment = some fee ∧
            fee.feeObject.id = source.objectRef.id ∧
            fee.feeObject.version = source.objectRef.version ∧
            fee.feeObject.digest.algorithm = source.objectRef.digest.algorithm ∧
            fee.feeObject.digest.bytes = source.objectRef.digest.bytes ∧
            fee.assetId.bytes = policy.feeAssetId) ∧
        transaction.args = canonicalFrame policy.argsTypeId policy.argsVersion
          [(policy.argsFieldId, u64ToLeBytes amount)] ∧
        transaction.args.length = 24 ∧ amount ≠ 0) ∧
      (policy.recognize transaction = .ok amount → ∀ args,
        policy.recognize { transaction with args } = .ok amount ↔ args = transaction.args) := by
  constructor
  · rw [recognize_eq_ok_iff, allowsCall_iff, allowsTransfer_iff]
    constructor
    · rintro ⟨⟨hchain, hversion, hepoch, hid, hmoduleVersion, halgorithm, hdigest, hentrypoint⟩,
        haccess, hargs, hamount⟩
      have hlength : transaction.args.length = 24 := by rw [hargs, length_amountArgsBytes]
      exact ⟨hchain, hversion, hepoch, hid, hmoduleVersion, halgorithm, hdigest, hentrypoint,
        haccess, hargs, hlength, hamount⟩
    · rintro ⟨hchain, hversion, hepoch, hid, hmoduleVersion, halgorithm, hdigest, hentrypoint,
        haccess, hargs, -, hamount⟩
      exact ⟨⟨hchain, hversion, hepoch, hid, hmoduleVersion, halgorithm, hdigest, hentrypoint⟩,
        haccess, hargs, hamount⟩
  · intro hrecognize args
    rw [recognize_eq_ok_iff, allowsCall_iff, allowsTransfer_iff] at hrecognize ⊢
    obtain ⟨hcall, haccess, hargs, hamount⟩ := hrecognize
    rw [hargs]
    constructor
    · rintro ⟨-, -, hother, -⟩
      exact hother
    · intro hother
      exact ⟨hcall, haccess, hother, hamount⟩

end ClearSigningPolicy

/-- The transfer module of the local development network. -/
def devnetAssetTransferPolicy : ClearSigningPolicy where
  chainId := "sunrise-local-devnet"
  protocolVersion := 3
  epoch := 0
  moduleId := ⟨[
    0x0D, 0x5D, 0xD1, 0x0A, 0xEC, 0x2C, 0x31, 0x5B, 0x1D, 0xC5, 0x64, 0xC6, 0x94, 0x43, 0x9E, 0x46,
    0xBA, 0xC4, 0xB6, 0x14, 0x26, 0xD2, 0x2E, 0x0D, 0x7D, 0xDB, 0x76, 0x4C, 0x49, 0x19, 0x7F, 0xE7], rfl⟩
  moduleVersion := 3
  codeDigestAlgorithm := .sha2_256
  codeDigestBytes := ⟨[
    0x01, 0x53, 0x41, 0x28, 0xF1, 0x2E, 0xB4, 0xCF, 0x46, 0x9B, 0xFA, 0x29, 0x67, 0x7B, 0xBC, 0xED,
    0x13, 0x44, 0x87, 0x9D, 0xE2, 0x87, 0x03, 0x15, 0x84, 0x7C, 0xBB, 0x7F, 0xAE, 0xC2, 0x16, 0x19], rfl⟩
  entrypoint := "transfer"
  argsTypeId := 0xF002
  argsVersion := 1
  argsFieldId := 1
  argsLabel := "amount"
  feeAssetId := ⟨[
    0xCC, 0xAD, 0x27, 0xF6, 0x87, 0x33, 0x8B, 0x99, 0x95, 0x31, 0x83, 0x72, 0x86, 0x47, 0xBC, 0x11,
    0x77, 0x38, 0x8E, 0xB4, 0x5A, 0x37, 0xAF, 0xD9, 0x81, 0x2C, 0x0D, 0x28, 0x6B, 0x43, 0x3E, 0xA8], rfl⟩

end SunriseEdgeLedger.Core
