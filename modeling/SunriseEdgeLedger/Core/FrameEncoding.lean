import SunriseEdgeLedger.Core.Frame
import SunriseEdgeLedger.Core.CanonicalEncoding

/-!
# The signature frame decoder is exact

The documented encoding of the outer frame, and the exactness of its decoder.  The payload is the
only part of a signature frame without a bound of its own; it is limited by the address space.
-/

namespace SunriseEdgeLedger.Core

open Foundation

def signatureFrameFields (frame : SignatureFrame) : List (UInt16 × Bytes) :=
  [(1, asBytes frame.chainId.asStr),
    (2, u32ToLeBytes frame.protocolVersion),
    (3, u64ToLeBytes frame.epoch),
    (4, asBytes frame.messageType.asStr),
    (5, u16ToLeBytes frame.signatureSchemeId.asU16),
    (6, frame.payload)]

/-- The documented encoding of a signature frame. -/
def signatureFrameBytes (frame : SignatureFrame) : Bytes :=
  canonicalFrame signatureFrameTypeId signatureFrameVersion (signatureFrameFields frame)

theorem length_signatureFrameBytes (frame : SignatureFrame) :
    (signatureFrameBytes frame).length = 60 + (asBytes frame.chainId.asStr).length +
      (asBytes frame.messageType.asStr).length + frame.payload.length := by
  simp [signatureFrameBytes, signatureFrameFields]
  omega

/-- The signature frames that can be signed: neither text is blank. -/
structure SignatureFrame.WellFormed (frame : SignatureFrame) : Prop where
  chainId_not_blank : ¬ isBlank frame.chainId.asStr
  messageType_not_blank : ¬ isBlank frame.messageType.asStr

variable [Target]

/-- The signature frame decoder accepts exactly the encodings of well-formed frames whose encoding
is representable. -/
theorem decodeSignatureFrame_exact : Exact decodeSignatureFrame
    (fun frame ↦ frame.WellFormed ∧
      Representable signatureFrameTypeId signatureFrameVersion (signatureFrameFields frame))
    signatureFrameBytes := by
  refine exact_of_lookups signatureFrameTypeId signatureFrameVersion signatureFrameFieldIds ?_
    (by simp [signatureFrameFields, signatureFrameFieldIds])
  intro input frame
  simp only [decodeSignatureFrame, bind_eq_ok_iff, mapError_eq_ok_iff, ensure_eq_ok_iff,
    okOr_eq_ok_iff, CanonicalFrame.requiredField_eq_ok_iff, CanonicalFrame.requiredU16_eq_ok_iff,
    CanonicalFrame.requiredU32_eq_ok_iff, CanonicalFrame.requiredU64_eq_ok_iff,
    BoundedStr.fromUtf8Slice_eq_ok_iff, SignatureSchemeId.tryFromU16_eq_some_iff, Except.ok.injEq]
  constructor
  · rintro ⟨view, hdecode, _, hchain, chainId, rfl, -, hchainText, protocolVersion, hversion, epoch,
      hepoch, _, hmessage, messageType, rfl, -, hmessageText, _, hscheme, scheme, rfl, payload,
      hpayload, rfl⟩
    refine ⟨⟨hchainText, hmessageText⟩, view, hdecode, ?_⟩
    simp [signatureFrameFieldIds, signatureFrameFields, List.lookup, hchain, hversion, hepoch,
      hmessage, hscheme, hpayload]
  · rintro ⟨hformed, view, hdecode, hlookup⟩
    simp only [signatureFrameFieldIds, signatureFrameFields, List.forall_mem_cons] at hlookup
    obtain ⟨hchain, hversion, hepoch, hmessage, hscheme, hpayload, -⟩ := hlookup
    exact ⟨view, hdecode, _, hchain, _, rfl, ⟨⟩, hformed.chainId_not_blank, _, hversion, _, hepoch,
      _, hmessage, _, rfl, ⟨⟩, hformed.messageType_not_blank, _, hscheme, _, rfl, _, hpayload, rfl⟩

omit [Target] in
/-- A text is blank if it is empty or all white space. -/
theorem isBlank_iff {text : String} :
    isBlank text ↔ ∀ character ∈ text.toList, isWhiteSpace character := by
  rw [isBlank, trim, String.isEmpty_iff, String.ofList_eq_empty_iff, List.reverse_eq_nil_iff,
    List.dropWhile_eq_nil_iff]
  simp only [List.mem_reverse]
  rw [← List.dropWhile_eq_nil_iff, List.dropWhile_idempotent, List.dropWhile_eq_nil_iff]

/-- Valid UTF-8 within the capacity that is not all white space. -/
def IsVisibleText (capacity : ℕ) (bytes : Bytes) : Prop :=
  bytes.length ≤ capacity ∧ ∃ text, fromUtf8 bytes = some text ∧
    ∃ character ∈ text.toList, ¬ isWhiteSpace character

/-- The contents of the six fields of a signature frame. -/
@[ext]
structure RawSignatureFrame where
  chainId : Bytes
  protocolVersion : Bytes
  epoch : Bytes
  messageType : Bytes
  signatureSchemeId : Bytes
  payload : Bytes

def RawSignatureFrame.fields (raw : RawSignatureFrame) : List (UInt16 × Bytes) :=
  [(1, raw.chainId), (2, raw.protocolVersion), (3, raw.epoch), (4, raw.messageType),
    (5, raw.signatureSchemeId), (6, raw.payload)]

/-- What the contents of the fields have to be. -/
structure RawSignatureFrame.Acceptable (raw : RawSignatureFrame) : Prop where
  chainId_text : IsVisibleText 64 raw.chainId
  protocolVersion_length : raw.protocolVersion.length = 4
  epoch_length : raw.epoch.length = 8
  messageType_text : IsVisibleText 32 raw.messageType
  signatureSchemeId_length : raw.signatureSchemeId.length = 2
  signatureSchemeId_known : ∃ scheme : SignatureSchemeId,
    ofLittleEndian raw.signatureSchemeId = scheme.asU16.toNat

/-- The record holds the values that the contents of the fields denote. -/
structure RawSignatureFrame.Denotes (raw : RawSignatureFrame) (frame : SignatureFrame) : Prop where
  chainId_eq : fromUtf8 raw.chainId = some frame.chainId.asStr
  protocolVersion_eq : ofLittleEndian raw.protocolVersion = frame.protocolVersion.toNat
  epoch_eq : ofLittleEndian raw.epoch = frame.epoch.toNat
  messageType_eq : fromUtf8 raw.messageType = some frame.messageType.asStr
  signatureSchemeId_eq :
    ofLittleEndian raw.signatureSchemeId = frame.signatureSchemeId.asU16.toNat
  payload_eq : raw.payload = frame.payload

/-- The contents of the fields that encode a record. -/
def SignatureFrame.raw (frame : SignatureFrame) : RawSignatureFrame where
  chainId := asBytes frame.chainId.asStr
  protocolVersion := u32ToLeBytes frame.protocolVersion
  epoch := u64ToLeBytes frame.epoch
  messageType := asBytes frame.messageType.asStr
  signatureSchemeId := u16ToLeBytes frame.signatureSchemeId.asU16
  payload := frame.payload

omit [Target] in
theorem isVisibleText_asBytes {capacity : ℕ} (bounded : BoundedStr capacity)
    (hvisible : ¬ isBlank bounded.asStr) : IsVisibleText capacity (asBytes bounded.asStr) := by
  rw [isBlank_iff] at hvisible
  push Not at hvisible
  exact ⟨bounded.length_asBytes_le, bounded.asStr, fromUtf8_asBytes _, hvisible⟩

omit [Target] in
theorem IsVisibleText.exists_bounded {capacity : ℕ} {bytes : Bytes}
    (hvisible : IsVisibleText capacity bytes) :
    ∃ bounded : BoundedStr capacity, bytes = asBytes bounded.asStr ∧ ¬ isBlank bounded.asStr := by
  obtain ⟨hlength, text, htext, hcharacter⟩ := hvisible
  obtain rfl := fromUtf8_eq_some_iff.mp htext
  refine ⟨BoundedStr.ofString text hlength, ?_, ?_⟩
  · rw [BoundedStr.asStr_ofString]
  · rw [BoundedStr.asStr_ofString, isBlank_iff]
    push Not
    exact hcharacter

omit [Target] in
theorem SignatureFrame.raw_acceptable {frame : SignatureFrame} (hformed : frame.WellFormed) :
    frame.raw.Acceptable where
  chainId_text := isVisibleText_asBytes frame.chainId hformed.chainId_not_blank
  protocolVersion_length := length_u32ToLeBytes _
  epoch_length := length_u64ToLeBytes _
  messageType_text := isVisibleText_asBytes frame.messageType hformed.messageType_not_blank
  signatureSchemeId_length := length_u16ToLeBytes _
  signatureSchemeId_known := ⟨frame.signatureSchemeId, ofLittleEndian_u16ToLeBytes _⟩

omit [Target] in
theorem SignatureFrame.raw_denotes (frame : SignatureFrame) : frame.raw.Denotes frame where
  chainId_eq := fromUtf8_asBytes _
  protocolVersion_eq := ofLittleEndian_u32ToLeBytes _
  epoch_eq := ofLittleEndian_u64ToLeBytes _
  messageType_eq := fromUtf8_asBytes _
  signatureSchemeId_eq := ofLittleEndian_u16ToLeBytes _
  payload_eq := rfl

omit [Target] in
/-- Acceptable contents are those of a well-formed record. -/
theorem RawSignatureFrame.Acceptable.exists_frame {raw : RawSignatureFrame}
    (hraw : raw.Acceptable) : ∃ frame : SignatureFrame, frame.WellFormed ∧ raw = frame.raw := by
  obtain ⟨chainId, hchainId, hchainIdVisible⟩ := hraw.chainId_text.exists_bounded
  obtain ⟨messageType, hmessageType, hmessageTypeVisible⟩ := hraw.messageType_text.exists_bounded
  obtain ⟨scheme, hscheme⟩ := hraw.signatureSchemeId_known
  let protocolVersion : ByteArrayN 4 := ⟨raw.protocolVersion, hraw.protocolVersion_length⟩
  let epoch : ByteArrayN 8 := ⟨raw.epoch, hraw.epoch_length⟩
  let schemeBytes : ByteArrayN 2 := ⟨raw.signatureSchemeId, hraw.signatureSchemeId_length⟩
  have hschemeValue : u16FromLeBytes schemeBytes = scheme.asU16 := by
    rw [u16FromLeBytes, ← @UInt16.ofNat_toNat scheme.asU16, ← hscheme]
    rfl
  refine ⟨⟨chainId, u32FromLeBytes protocolVersion, u64FromLeBytes epoch, messageType, scheme,
    raw.payload⟩, ⟨hchainIdVisible, hmessageTypeVisible⟩, ?_⟩
  apply RawSignatureFrame.ext
  · exact hchainId
  · exact (@u32FromLeBytes_eq_iff protocolVersion _).mp rfl
  · exact (@u64FromLeBytes_eq_iff epoch _).mp rfl
  · exact hmessageType
  · exact (@u16FromLeBytes_eq_iff schemeBytes _).mp hschemeValue
  · rfl

omit [Target] in
theorem RawSignatureFrame.fields_injective : Function.Injective RawSignatureFrame.fields := by
  intro raw raw' hfields
  simpa [RawSignatureFrame.fields, RawSignatureFrame.ext_iff] using hfields

/-- Apart from the lengths of its fields, the encoding of every record is canonical. -/
theorem SignatureFrame.representable_iff (frame : SignatureFrame) :
    Representable signatureFrameTypeId signatureFrameVersion (signatureFrameFields frame) ↔
      IsCanonical frame.raw.fields ∧
        (canonicalFrame 0x2001 1 frame.raw.fields).length < 2 ^ Target.usizeBits := by
  constructor
  · rintro ⟨hlengths, hfits⟩
    exact ⟨⟨by simp [RawSignatureFrame.fields], by simp [RawSignatureFrame.fields], hlengths⟩, hfits⟩
  · rintro ⟨hfields, hfits⟩
    exact ⟨hfields.length_lt, hfits⟩

/-- A byte string is an acceptable signature frame exactly when it is the canonical encoding of
acceptable contents of the fields 1 to 6.  The decoded record then holds the values that these
contents denote, whichever way they are given, and different byte strings have different records. -/
theorem decodeSignatureFrame_accepts (input : Slice) :
    ((∃ frame, decodeSignatureFrame input.1 = .ok frame) ↔
        ∃ raw : RawSignatureFrame, raw.Acceptable ∧ IsCanonical raw.fields ∧
          input.1 = canonicalFrame 0x2001 1 raw.fields) ∧
      (∀ frame (raw : RawSignatureFrame), decodeSignatureFrame input.1 = .ok frame →
        IsCanonical raw.fields → input.1 = canonicalFrame 0x2001 1 raw.fields →
        raw.Denotes frame) ∧
      ∀ (other : Slice) (frame frame' : SignatureFrame), input ≠ other →
        decodeSignatureFrame input.1 = .ok frame → decodeSignatureFrame other.1 = .ok frame' →
        frame ≠ frame' := by
  have hfits : input.1.length < 2 ^ Target.usizeBits := input.2.trans_lt Target.isizeMax_lt
  refine ⟨⟨?_, ?_⟩, ?_, ?_⟩
  · rintro ⟨frame, hdecode⟩
    obtain ⟨⟨hformed, hrepresentable⟩, hinput⟩ := (decodeSignatureFrame_exact.ok_iff _ _).mp hdecode
    exact ⟨frame.raw, frame.raw_acceptable hformed,
      (frame.representable_iff.mp hrepresentable).1, hinput⟩
  · rintro ⟨raw, hraw, hfields, hinput⟩
    obtain ⟨frame, hformed, rfl⟩ := hraw.exists_frame
    refine ⟨frame, (decodeSignatureFrame_exact.ok_iff _ _).mpr ⟨⟨hformed, ?_⟩, hinput⟩⟩
    exact frame.representable_iff.mpr ⟨hfields, by rwa [← hinput]⟩
  · intro frame raw hdecode hfields hinput
    obtain ⟨⟨hformed, hrepresentable⟩, hframe⟩ := (decodeSignatureFrame_exact.ok_iff _ _).mp hdecode
    have hraw : raw = frame.raw := by
      obtain ⟨-, -, hequal⟩ := canonicalFrame_injective hfields
        (frame.representable_iff.mp hrepresentable).1 (by rwa [← hinput]) (hinput.symm.trans hframe)
      exact RawSignatureFrame.fields_injective hequal
    exact hraw ▸ frame.raw_denotes
  · rintro other frame _ hne hdecode hdecode' rfl
    exact hne (Subtype.ext (decodeSignatureFrame_exact.input_unique hdecode hdecode'))

end SunriseEdgeLedger.Core
