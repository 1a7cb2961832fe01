import SunriseEdgeLedger.Core.FrameEncoding
import SunriseEdgeLedger.Core.TransactionEncoding

/-!
# The admissible chain identifiers

The chain identifier is signed twice, in the signature frame and in the transaction, and each of the
two decoders checks it on its own.  Both demand UTF-8 within one bound, but only the frame decoder
looks for a character other than white space.  So the two decoders agree on every chain identifier
but the blank ones within the bound.
-/

namespace SunriseEdgeLedger.Core

open Foundation

/-- Valid UTF-8 within the capacity. -/
def IsText (capacity : ℕ) (bytes : Bytes) : Prop :=
  bytes.length ≤ capacity ∧ ∃ text, fromUtf8 bytes = some text

/-- Valid UTF-8 within the capacity that is empty or all white space. -/
def IsBlankText (capacity : ℕ) (bytes : Bytes) : Prop :=
  bytes.length ≤ capacity ∧ ∃ text, fromUtf8 bytes = some text ∧
    ∀ character ∈ text.toList, isWhiteSpace character

/-- The two checks of a text differ on the blank texts. -/
theorem isVisibleText_iff_isText_iff {capacity : ℕ} {bytes : Bytes} :
    (IsVisibleText capacity bytes ↔ IsText capacity bytes) ↔ ¬ IsBlankText capacity bytes := by
  constructor
  · rintro hagree ⟨hlength, text, htext, hblank⟩
    obtain ⟨-, text', htext', character, hcharacter, hvisible⟩ :=
      hagree.mpr ⟨hlength, text, htext⟩
    obtain rfl := Option.some.inj (htext.symm.trans htext')
    exact hvisible (hblank character hcharacter)
  · intro hblank
    constructor
    · rintro ⟨hlength, text, htext, -⟩
      exact ⟨hlength, text, htext⟩
    · rintro ⟨hlength, text, htext⟩
      refine ⟨hlength, text, htext, ?_⟩
      by_contra hvisible
      push Not at hvisible
      exact hblank ⟨hlength, text, htext, hvisible⟩

/-- The input is the canonical frame of the chain identifier, in field 1, and the other fields. -/
structure CarriesChainId (typeId version : UInt16) (chainId : Bytes)
    (rest : List (UInt16 × Bytes)) (input : Bytes) : Prop where
  canonical : IsCanonical ((1, chainId) :: rest)
  input_eq : input = canonicalFrame typeId version ((1, chainId) :: rest)

/-- The input carries the chain identifier, and nothing else in it is wrong: with some chain
identifier in the same place, the decoder accepts it. -/
def OtherwiseWellFormed {Error Value : Type} (decode : Bytes → Except Error Value)
    (typeId version : UInt16) (chainId input : Bytes) : Prop :=
  ∃ rest, CarriesChainId typeId version chainId rest input ∧
    ∃ otherId other value, CarriesChainId typeId version otherId rest other ∧
      decode other = .ok value

section Decoders

variable [Target]

/-- Around an exact decoder, such an input is accepted exactly when the chain identifier completes
the other fields to those of a valid value. -/
theorem OtherwiseWellFormed.exists_fields {Error Value : Type}
    {decode : Bytes → Except Error Value} {typeId version : UInt16} {valid : Value → Prop}
    {fieldsOf : Value → List (UInt16 × Bytes)} {chainId input : Bytes}
    (hexact : Exact decode valid fun value ↦ canonicalFrame typeId version (fieldsOf value))
    (hcanonical : ∀ value, valid value → IsCanonical (fieldsOf value) ∧
      (canonicalFrame typeId version (fieldsOf value)).length < 2 ^ Target.usizeBits)
    (hwell : OtherwiseWellFormed decode typeId version chainId input) :
    ∃ rest otherId model, CarriesChainId typeId version chainId rest input ∧
      valid model ∧ fieldsOf model = (1, otherId) :: rest ∧
      ((∃ value, decode input = .ok value) ↔
        ∃ value, valid value ∧ fieldsOf value = (1, chainId) :: rest) := by
  obtain ⟨rest, hcarries, otherId, other, model, hother, hdecode⟩ := hwell
  have hfields : ∀ {chainId input value}, CarriesChainId typeId version chainId rest input →
      decode input = .ok value → valid value ∧ fieldsOf value = (1, chainId) :: rest := by
    intro chainId input value hcarries hdecode
    obtain ⟨hvalid, hinput⟩ := (hexact.ok_iff _ _).mp hdecode
    obtain ⟨hfields, hfits⟩ := hcanonical value hvalid
    refine ⟨hvalid, ?_⟩
    exact (canonicalFrame_injective hfields hcarries.canonical hfits
      (hinput.symm.trans hcarries.input_eq)).2.2
  obtain ⟨hmodel, hmodelFields⟩ := hfields hother hdecode
  refine ⟨rest, otherId, model, hcarries, hmodel, hmodelFields, ?_, ?_⟩
  · rintro ⟨value, hvalue⟩
    exact ⟨value, hfields hcarries hvalue⟩
  · rintro ⟨value, hvalid, hvalue⟩
    refine ⟨value, (hexact.ok_iff _ _).mpr ⟨hvalid, ?_⟩⟩
    rw [hcarries.input_eq, hvalue]

/-- The frame decoder admits the texts that are not blank. -/
theorem decodeSignatureFrame_chainId_iff {chainId : Bytes} {input : Slice}
    (hwell : OtherwiseWellFormed decodeSignatureFrame signatureFrameTypeId signatureFrameVersion
      chainId input.1) :
    (∃ frame, decodeSignatureFrame input.1 = .ok frame) ↔ IsVisibleText 64 chainId := by
  obtain ⟨rest, otherId, model, hcarries, ⟨hmodel, -⟩, hfields, haccepted⟩ :=
    hwell.exists_fields decodeSignatureFrame_exact fun frame hframe ↦
      ⟨(frame.representable_iff.mp hframe.2).1, hframe.2.2⟩
  obtain ⟨-, rfl⟩ := List.cons_eq_cons.mp hfields
  rw [haccepted]
  constructor
  · rintro ⟨frame, ⟨hformed, -⟩, hframe⟩
    obtain ⟨hhead, -⟩ := List.cons_eq_cons.mp hframe
    obtain rfl := (Prod.mk.inj hhead).2
    exact isVisibleText_asBytes frame.chainId hformed.chainId_not_blank
  · intro hvisible
    obtain ⟨bounded, rfl, hnotBlank⟩ := hvisible.exists_bounded
    refine ⟨{ model with chainId := bounded },
      ⟨⟨hnotBlank, hmodel.messageType_not_blank⟩, hcarries.canonical.length_lt, ?_⟩, rfl⟩
    exact (hcarries.input_eq ▸ input.2).trans_lt Target.isizeMax_lt

theorem isCanonical_transactionFields {transaction : TransactionSignable}
    (hformed : transaction.WellFormed) : IsCanonical (transactionFields transaction) := by
  have hlengths := representable_of_length_lt transactionTypeId encodingVersion
    (length_transactionBytes_lt hformed)
  refine ⟨?_, ?_, hlengths.1⟩
  · cases hfee : transaction.feePayment <;> simp [transactionFields, hfee]
  · cases hfee : transaction.feePayment <;> simp [transactionFields, hfee]

/-- The transaction decoder admits every text, the blank ones included. -/
theorem decodeTransactionSignable_chainId_iff {chainId input : Bytes}
    (hwell : OtherwiseWellFormed decodeTransactionSignable transactionTypeId encodingVersion
      chainId input) :
    (∃ transaction, decodeTransactionSignable input = .ok transaction) ↔ IsText 64 chainId := by
  obtain ⟨rest, otherId, model, -, hmodel, hfields, haccepted⟩ :=
    hwell.exists_fields decodeTransactionSignable_exact fun transaction hformed ↦
      ⟨isCanonical_transactionFields hformed,
        (length_transactionBytes_lt hformed).trans_le Target.two_pow_le⟩
  obtain ⟨-, rfl⟩ := List.cons_eq_cons.mp hfields
  rw [haccepted]
  constructor
  · rintro ⟨transaction, -, htransaction⟩
    obtain ⟨hhead, -⟩ := List.cons_eq_cons.mp htransaction
    obtain rfl := (Prod.mk.inj hhead).2
    exact ⟨transaction.chainId.length_asBytes_le, _, fromUtf8_asBytes _⟩
  · rintro ⟨hlength, text, htext⟩
    obtain rfl := fromUtf8_eq_some_iff.mp htext
    refine ⟨{ model with chainId := BoundedStr.ofString text hlength },
      ⟨hmodel.entrypoint_ne, hmodel.args_le, hmodel.distinct⟩, ?_⟩
    change (1, asBytes (BoundedStr.ofString text hlength).asStr) :: _ = _
    rw [BoundedStr.asStr_ofString]

end Decoders

/-- A call without arguments and fee, on the chain of the given identifier. -/
def plainTransaction (chainId : BoundedStr maxChainIdBytes) : TransactionSignable where
  chainId := chainId
  protocolVersion := 3
  epoch := 0
  sender := ⟨List.Vector.replicate 32 0x01⟩
  nonce := 1
  accessManifest := .new
  moduleRef :=
    ⟨⟨List.Vector.replicate 32 0x0d⟩, 3, ⟨.sha2_256, List.Vector.replicate 32 0x01⟩⟩
  entrypoint := BoundedStr.ofString "transfer" (by decide)
  args := []
  gasLimit := 1000
  feePayment := none

/-- A frame without a payload, on the chain of the given identifier. -/
def plainFrame (chainId : BoundedStr maxChainIdBytes) : SignatureFrame where
  chainId := chainId
  protocolVersion := 3
  epoch := 0
  messageType := BoundedStr.ofString "transaction-v1" (by decide)
  signatureSchemeId := .ed25519
  payload := []

def letterChainId : BoundedStr maxChainIdBytes := BoundedStr.ofString "a" (by decide)

def emptyChainId : BoundedStr maxChainIdBytes := BoundedStr.ofString "" (by decide)

theorem wellFormed_plainTransaction (chainId : BoundedStr maxChainIdBytes) :
    (plainTransaction chainId).WellFormed where
  entrypoint_ne := by
    rw [plainTransaction, BoundedStr.asStr_ofString]
    decide
  args_le := Nat.zero_le _
  distinct := .nil

theorem wellFormed_plainFrame : (plainFrame letterChainId).WellFormed where
  chainId_not_blank := by
    rw [plainFrame, letterChainId, BoundedStr.asStr_ofString]
    decide
  messageType_not_blank := by
    rw [plainFrame, BoundedStr.asStr_ofString]
    decide

theorem length_plainFrame_le (chainId : BoundedStr maxChainIdBytes) :
    (signatureFrameBytes (plainFrame chainId)).length ≤ 156 := by
  have hchainId : (asBytes chainId.asStr).length ≤ 64 := chainId.length_asBytes_le
  have hmessageType : (asBytes (plainFrame chainId).messageType.asStr).length ≤ 32 :=
    (plainFrame chainId).messageType.length_asBytes_le
  rw [length_signatureFrameBytes]
  change 60 + (asBytes chainId.asStr).length + _ + 0 ≤ _
  omega

/-- The frame as an input of the device. -/
def plainFrameInput (chainId : BoundedStr maxChainIdBytes) : @Slice .device :=
  ⟨signatureFrameBytes (plainFrame chainId), (length_plainFrame_le chainId).trans (by decide)⟩

theorem representable_plainFrame [Target] (chainId : BoundedStr maxChainIdBytes) :
    Representable signatureFrameTypeId signatureFrameVersion
      (signatureFrameFields (plainFrame chainId)) :=
  representable_of_length_lt _ _ ((length_plainFrame_le chainId).trans_lt (by norm_num))

theorem otherwiseWellFormed_plainTransaction (chainId : BoundedStr maxChainIdBytes) :
    OtherwiseWellFormed (@decodeTransactionSignable .device) transactionTypeId encodingVersion
      (asBytes chainId.asStr) (transactionBytes (plainTransaction chainId)) := by
  have hformed := wellFormed_plainTransaction chainId
  have hcarries : CarriesChainId transactionTypeId encodingVersion (asBytes chainId.asStr)
      (transactionFields (plainTransaction chainId)).tail
      (transactionBytes (plainTransaction chainId)) :=
    ⟨@isCanonical_transactionFields .device _ hformed, rfl⟩
  exact ⟨_, hcarries, _, _, _, hcarries,
    (@decodeTransactionSignable_exact .device).decode_encode hformed⟩

theorem otherwiseWellFormed_plainFrame (chainId : BoundedStr maxChainIdBytes) :
    OtherwiseWellFormed (@decodeSignatureFrame .device) signatureFrameTypeId
      signatureFrameVersion (asBytes chainId.asStr) (signatureFrameBytes (plainFrame chainId)) := by
  have hcanonical : ∀ chainId, IsCanonical (signatureFrameFields (plainFrame chainId)) :=
    fun chainId ↦ ((@SignatureFrame.representable_iff .device _).mp
      (@representable_plainFrame .device chainId)).1
  exact ⟨_, ⟨hcanonical chainId, rfl⟩, _, _, _, ⟨hcanonical letterChainId, rfl⟩,
    (@decodeSignatureFrame_exact .device).decode_encode
      ⟨wellFormed_plainFrame, @representable_plainFrame .device letterChainId⟩⟩

/-! ## Agreement -/

/-- Around any other fields that are well formed, the two decoders agree on a chain identifier
exactly if it is not a blank text within the bound. -/
theorem chainId_agreement_iff [Target] (chainId : Bytes) (frameInput : Slice) (transactionInput : Bytes)
    (hframe : OtherwiseWellFormed decodeSignatureFrame signatureFrameTypeId signatureFrameVersion
      chainId frameInput.1)
    (htransaction : OtherwiseWellFormed decodeTransactionSignable transactionTypeId
      encodingVersion chainId transactionInput) :
    ((∃ frame, decodeSignatureFrame frameInput.1 = .ok frame) ↔
        ∃ transaction, decodeTransactionSignable transactionInput = .ok transaction) ↔
      ¬ IsBlankText 64 chainId := by
  rw [decodeSignatureFrame_chainId_iff hframe, decodeTransactionSignable_chainId_iff htransaction,
    isVisibleText_iff_isText_iff]

/-- On the empty chain identifier the decoders disagree: the transaction is accepted, the frame is
not. -/
theorem chainId_disagreement_of_empty :
    OtherwiseWellFormed (@decodeSignatureFrame .device) signatureFrameTypeId
        signatureFrameVersion [] (signatureFrameBytes (plainFrame emptyChainId)) ∧
      OtherwiseWellFormed (@decodeTransactionSignable .device) transactionTypeId encodingVersion
        [] (transactionBytes (plainTransaction emptyChainId)) ∧
      ¬ ((∃ frame, @decodeSignatureFrame .device (signatureFrameBytes (plainFrame emptyChainId)) =
          .ok frame) ↔
        ∃ transaction, @decodeTransactionSignable .device
          (transactionBytes (plainTransaction emptyChainId)) = .ok transaction) := by
  have hframe := otherwiseWellFormed_plainFrame emptyChainId
  have htransaction := otherwiseWellFormed_plainTransaction emptyChainId
  refine ⟨hframe, htransaction, ?_⟩
  intro hagree
  have haccepted := (@decodeTransactionSignable_chainId_iff .device [] _ htransaction).mpr
    ⟨by decide, "", rfl⟩
  have hvisible := (@decodeSignatureFrame_chainId_iff .device [] (plainFrameInput emptyChainId)
    hframe).mp (hagree.mpr haccepted)
  obtain ⟨-, text, htext, character, hcharacter, -⟩ := hvisible
  obtain rfl : "" = text := Option.some.inj htext
  cases hcharacter

/-- On a chain named by a letter they agree. -/
theorem chainId_agreement_iff_of_letter :
    (∃ frame, @decodeSignatureFrame .device (signatureFrameBytes (plainFrame letterChainId)) =
        .ok frame) ↔
      ∃ transaction, @decodeTransactionSignable .device
        (transactionBytes (plainTransaction letterChainId)) = .ok transaction := by
  refine (@chainId_agreement_iff .device [0x61] (plainFrameInput letterChainId) _
    (otherwiseWellFormed_plainFrame letterChainId)
    (otherwiseWellFormed_plainTransaction letterChainId)).mpr ?_
  rintro ⟨-, text, htext, hblank⟩
  obtain rfl : "a" = text := Option.some.inj htext
  exact absurd (hblank 'a' (by decide)) (by decide)

end SunriseEdgeLedger.Core
