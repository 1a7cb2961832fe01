import SunriseEdgeLedger.Core.CanonicalStream
import SunriseEdgeLedger.Core.Policy

/-!
# All frames together

The wallet decodes eleven kinds of frames, most of them nested in each other.  Together their
accepted byte strings form one prefix code: no accepted byte string is a part at the front of
another one, be it of the same or of another kind.  So no bytes can be taken for two kinds of
frames, and frames that follow each other can be told apart.
-/

namespace SunriseEdgeLedger.Core

open Foundation

/-- The kinds of frames that the wallet decodes. -/
inductive WireKind where
  | signatureFrame
  | transaction
  | digest
  | objectId
  | objectRef
  | accessMode
  | accessEntry
  | accessManifest
  | assetId
  | feePayment
  | amountArgs
deriving DecidableEq, Repr

def WireKind.typeId : WireKind → UInt16
  | .signatureFrame => signatureFrameTypeId
  | .transaction => transactionTypeId
  | .digest => digestTypeId
  | .objectId => objectIdTypeId
  | .objectRef => objectRefTypeId
  | .accessMode => accessModeTypeId
  | .accessEntry => accessEntryTypeId
  | .accessManifest => accessManifestTypeId
  | .assetId => assetIdTypeId
  | .feePayment => feePaymentTypeId
  | .amountArgs => devnetAssetTransferPolicy.argsTypeId

theorem WireKind.typeId_injective : Function.Injective WireKind.typeId := by
  intro first second htypeId
  cases first <;> cases second <;> first | rfl | exact absurd htypeId (by decide)

variable [Target]

/-- The byte strings that the decoder of a kind accepts. -/
def WireKind.Accepts : WireKind → Bytes → Prop
  | .signatureFrame, input => ∃ frame, decodeSignatureFrame input = .ok frame
  | .transaction, input => ∃ transaction, decodeTransactionSignable input = .ok transaction
  | .digest, input => ∃ digest, decodeDigest32 input = .ok digest
  | .objectId, input => ∃ objectId, decodeObjectId input = .ok objectId
  | .objectRef, input => ∃ objectRef, decodeObjectRef input = .ok objectRef
  | .accessMode, input => ∃ mode, decodeAccessMode input = .ok mode
  | .accessEntry, input => ∃ entry, decodeAccessEntry input = .ok entry
  | .accessManifest, input =>
    ∃ maxEntries manifest, decodeAccessManifest input maxEntries = .ok manifest
  | .assetId, input => ∃ assetId, decodeAssetId input = .ok assetId
  | .feePayment, input => ∃ feePayment, decodeFeePayment input = .ok feePayment
  | .amountArgs, input => ∃ transaction amount,
      devnetAssetTransferPolicy.recognize transaction = .ok amount ∧ transaction.args = input

/-- The input is a canonical frame of a type. -/
def HasType (typeId : UInt16) (input : Bytes) : Prop :=
  ∃ frame, decodeCanonicalFrame input = .ok frame ∧ frame.typeId = typeId

theorem hasType_of_struct {Error Value : Type} {typeId version : UInt16} {allowed : List UInt16}
    {input : Bytes} {rename : CanonicalError → Error} {next : CanonicalFrame → Except Error Value}
    {value : Value}
    (hdecode : ((decodeCanonicalStruct typeId version allowed input).mapError rename >>= next) =
      .ok value) : HasType typeId input := by
  obtain ⟨frame, hstruct, -⟩ := bind_eq_ok_iff.mp hdecode
  simp only [mapError_eq_ok_iff, decodeCanonicalStruct, bind_eq_ok_iff,
    CanonicalFrame.requireType_eq_ok_iff] at hstruct
  obtain ⟨frame, hframe, -, htype, -⟩ := hstruct
  exact ⟨frame, hframe, htype⟩

/-- What the decoder of a kind accepts is a canonical frame of its type. -/
theorem WireKind.hasType {kind : WireKind} {input : Bytes} (haccepts : kind.Accepts input) :
    HasType kind.typeId input := by
  cases kind with
  | signatureFrame => exact haccepts.elim fun _ hdecode ↦ hasType_of_struct hdecode
  | transaction => exact haccepts.elim fun _ hdecode ↦ hasType_of_struct hdecode
  | digest => exact haccepts.elim fun _ hdecode ↦ hasType_of_struct hdecode
  | objectId => exact haccepts.elim fun _ hdecode ↦ hasType_of_struct hdecode
  | objectRef => exact haccepts.elim fun _ hdecode ↦ hasType_of_struct hdecode
  | accessMode => exact haccepts.elim fun _ hdecode ↦ hasType_of_struct hdecode
  | accessEntry => exact haccepts.elim fun _ hdecode ↦ hasType_of_struct hdecode
  | assetId => exact haccepts.elim fun _ hdecode ↦ hasType_of_struct hdecode
  | feePayment => exact haccepts.elim fun _ hdecode ↦ hasType_of_struct hdecode
  | accessManifest =>
    obtain ⟨maxEntries, manifest, hdecode⟩ := haccepts
    obtain ⟨frame, hframe, hrest⟩ := bind_eq_ok_iff.mp hdecode
    obtain ⟨_, htype, -⟩ := bind_eq_ok_iff.mp hrest
    exact ⟨frame, mapError_eq_ok_iff.mp hframe,
      CanonicalFrame.requireType_eq_ok_iff.mp (mapError_eq_ok_iff.mp htype)⟩
  | amountArgs =>
    obtain ⟨transaction, amount, hrecognize, rfl⟩ := haccepts
    have hargs := (ClearSigningPolicy.recognize_eq_ok_iff.mp hrecognize).2.args_eq
    obtain ⟨frame, hstruct, -⟩ :=
      (ClearSigningPolicy.arguments_eq_ok_iff devnetAssetTransferPolicy).mpr hargs
    simp only [decodeCanonicalStruct, bind_eq_ok_iff, CanonicalFrame.requireType_eq_ok_iff]
      at hstruct
    obtain ⟨frame, hframe, -, htype, -⟩ := hstruct
    exact ⟨frame, hframe, htype⟩

/-- No canonical frame is a proper part at the front of another one. -/
theorem eq_of_prefix_of_hasType {typeId typeId' : UInt16} {input input' : Bytes}
    (htype : HasType typeId input) (htype' : HasType typeId' input') (hleading : input <+: input') :
    typeId = typeId' ∧ input = input' := by
  obtain ⟨frame, hframe, rfl⟩ := htype
  obtain ⟨frame', hframe', rfl⟩ := htype'
  obtain ⟨typeId, version, fields, hfields, rfl, -, -⟩ := decodeCanonicalFrame_eq_ok_iff.mp hframe
  obtain ⟨typeId', version', fields', hfields', rfl, -, -⟩ :=
    decodeCanonicalFrame_eq_ok_iff.mp hframe'
  have hconsumes := consumes_parseFrame typeId version hfields
  have hconsumes' := consumes_parseFrame typeId' version' hfields'
  have hsame : canonicalFrame typeId version fields = canonicalFrame typeId' version' fields' := by
    by_contra hne
    have hcut := hconsumes'.run_of_prefix _ hleading hne
    rw [hconsumes.run_self] at hcut
    cases hcut
  rw [hsame, hframe'] at hframe
  obtain rfl := Except.ok.inj hframe
  exact ⟨rfl, hsame⟩

/-- The accepted byte strings of all kinds form one prefix code: if one of them starts another one,
they are the same, and of the same kind.  A sequence of them is determined by the bytes that it
makes up. -/
theorem wireLanguage_prefix_free :
    (∀ (kind kind' : WireKind) input input', kind.Accepts input → kind'.Accepts input' →
        input <+: input' → kind = kind' ∧ input = input') ∧
      InformationTheory.UniquelyDecodable {input | ∃ kind : WireKind, kind.Accepts input} := by
  have hfree : ∀ (kind kind' : WireKind) input input', kind.Accepts input →
      kind'.Accepts input' → input <+: input' → kind = kind' ∧ input = input' := by
    intro kind kind' input input' haccepts haccepts' hleading
    obtain ⟨htypeId, hinput⟩ :=
      eq_of_prefix_of_hasType (WireKind.hasType haccepts) (WireKind.hasType haccepts') hleading
    exact ⟨WireKind.typeId_injective htypeId, hinput⟩
  refine ⟨hfree, uniquelyDecodable_of_prefix_free ?_ ?_⟩
  · rintro ⟨kind, haccepts⟩
    obtain ⟨frame, hframe, -⟩ := WireKind.hasType haccepts
    obtain ⟨typeId, version, fields, -, hinput, -, -⟩ := decodeCanonicalFrame_eq_ok_iff.mp hframe
    have hlength := congrArg List.length hinput
    rw [length_canonicalFrame] at hlength
    rw [List.length_nil] at hlength
    omega
  · rintro input ⟨kind, haccepts⟩ input' ⟨kind', haccepts'⟩ hleading
    exact (hfree kind kind' input input' haccepts haccepts' hleading).2

end SunriseEdgeLedger.Core
