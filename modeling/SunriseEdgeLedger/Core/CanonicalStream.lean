import SunriseEdgeLedger.Core.CanonicalEncoding
import SunriseEdgeLedger.Foundation.StreamParser

/-!
# The strict decode is a stream parser

The wire format without any offsets: a parser that reads a frame off the front of a byte string.
The decoder of the code, which computes offsets into the whole input with checked additions, does
exactly what this parser does, errors included, on every input that fits the address space.
Therefore its verdict does not depend on the width of `usize`, and as the parser consumes whole
frames, a frame that is cut short is always truncated and a frame with something behind it always
has trailing bytes.
-/

namespace SunriseEdgeLedger.Core

open Foundation

/-- A parser of a part of a frame. -/
abbrev FrameParser := StreamParser UInt8 CanonicalError

def parseU16 : FrameParser UInt16 :=
  (fun bytes ↦ UInt16.ofNat (ofLittleEndian bytes)) <$> takeExactly .truncated 2

def parseU32 : FrameParser UInt32 :=
  (fun bytes ↦ UInt32.ofNat (ofLittleEndian bytes)) <$> takeExactly .truncated 4

/-- So many fields with increasing identifiers, the first of them above the previous one. -/
def parseFields : ℕ → Option UInt16 → FrameParser (List (UInt16 × Bytes))
  | 0, _ => pure []
  | remaining + 1, previous => do
    let fieldId ← parseU16
    if previous.any (fun previousId ↦ fieldId ≤ previousId) then throw .nonCanonicalFieldOrder
    else do
      let fieldLen ← parseU32
      let payload ← takeExactly .truncated fieldLen.toNat
      let fields ← parseFields remaining (some fieldId)
      pure ((fieldId, payload) :: fields)

/-- The magic, and then the type identifier, the version and the field count. -/
def parseHeader : FrameParser (UInt16 × UInt16 × UInt16) := do
  let magic ← takeExactly .truncated protocolMagic.length
  if magic ≠ protocolMagic then throw .invalidMagic
  else do
    let typeId ← parseU16
    let version ← parseU16
    let fieldCount ← parseU16
    pure (typeId, version, fieldCount)

/-- What a frame says. -/
structure FrameContent where
  typeId : UInt16
  version : UInt16
  fieldCount : UInt16
  fields : List (UInt16 × Bytes)
deriving DecidableEq

/-- A frame at the front of a byte string. -/
def parseFrame : FrameParser FrameContent := do
  let (typeId, version, fieldCount) ← parseHeader
  let fields ← parseFields fieldCount.toNat none
  pure { typeId, version, fieldCount, fields }

/-- A frame with nothing behind it. -/
def parseWholeFrame (input : Bytes) : Except CanonicalError FrameContent := do
  let (content, rest) ← parseFrame.run input
  if rest ≠ [] then .error .trailingBytes else .ok content

theorem consumes_parseU16 (value : UInt16) :
    Consumes .truncated parseU16 value (u16ToLeBytes value) := by
  have hlength := length_u16ToLeBytes value
  have hvalue : u16FromLeBytes ⟨u16ToLeBytes value, hlength⟩ = value :=
    u16FromLeBytes_eq_iff.mpr rfl
  have hconsumes : Consumes .truncated parseU16 (u16FromLeBytes ⟨u16ToLeBytes value, hlength⟩)
      (u16ToLeBytes value) :=
    consumes_map _ (consumes_takeExactly _ hlength)
  rwa [hvalue] at hconsumes

theorem consumes_parseU32 (value : UInt32) :
    Consumes .truncated parseU32 value (u32ToLeBytes value) := by
  have hlength := length_u32ToLeBytes value
  have hvalue : u32FromLeBytes ⟨u32ToLeBytes value, hlength⟩ = value :=
    u32FromLeBytes_eq_iff.mpr rfl
  have hconsumes : Consumes .truncated parseU32 (u32FromLeBytes ⟨u32ToLeBytes value, hlength⟩)
      (u32ToLeBytes value) :=
    consumes_map _ (consumes_takeExactly _ hlength)
  rwa [hvalue] at hconsumes

/-- The encoding of ascending fields above the previous identifier is consumed. -/
theorem consumes_parseFields {fields : List (UInt16 × Bytes)} {previous : Option UInt16}
    (hascending : Ascending fields) (hlength : ∀ field ∈ fields, field.2.length < 2 ^ 32)
    (habove : ∀ previousId ∈ previous, ∀ field ∈ fields, previousId < field.1) :
    Consumes .truncated (parseFields fields.length previous) fields (canonicalFields fields) := by
  induction fields generalizing previous with
  | nil => exact consumes_pure _ _
  | cons field fields ih =>
    obtain ⟨fieldId, payload⟩ := field
    obtain ⟨hhead, htail⟩ := ascending_cons.mp hascending
    rw [List.forall_mem_cons] at hlength
    have hfree : ¬ previous.any (fun previousId ↦ fieldId ≤ previousId) := by
      cases previous with
      | none => simp
      | some previousId => simpa using habove previousId rfl (fieldId, payload) (by simp)
    have hlen : payload.length = (UInt32.ofNat payload.length).toNat :=
      (UInt32.toNat_ofNat_of_lt' hlength.1).symm
    have hrest := @ih (some fieldId) htail hlength.2 (by simpa using hhead)
    rw [canonicalFields_cons, canonicalField, List.append_assoc, List.append_assoc,
      List.length_cons, parseFields]
    apply consumes_bind (consumes_parseU16 fieldId)
    rw [if_neg hfree]
    apply consumes_bind (consumes_parseU32 (UInt32.ofNat payload.length))
    apply consumes_bind (consumes_takeExactly _ hlen)
    rw [← List.append_nil (canonicalFields fields)]
    exact consumes_bind hrest (consumes_pure _ _)

theorem consumes_parseHeader (typeId version fieldCount : UInt16) :
    Consumes .truncated parseHeader (typeId, version, fieldCount)
      (protocolMagic ++ (u16ToLeBytes typeId ++ (u16ToLeBytes version ++
        (u16ToLeBytes fieldCount ++ [])))) := by
  apply consumes_bind (consumes_takeExactly _ rfl)
  rw [if_neg (not_not.mpr rfl)]
  apply consumes_bind (consumes_parseU16 typeId)
  apply consumes_bind (consumes_parseU16 version)
  apply consumes_bind (consumes_parseU16 fieldCount)
  exact consumes_pure _ _

/-- Every canonical frame is consumed. -/
theorem consumes_parseFrame (typeId version : UInt16) {fields : List (UInt16 × Bytes)}
    (hfields : IsCanonical fields) :
    Consumes .truncated parseFrame ⟨typeId, version, UInt16.ofNat fields.length, fields⟩
      (canonicalFrame typeId version fields) := by
  have hrest : Consumes .truncated (parseFields (UInt16.ofNat fields.length).toNat none) fields
      (canonicalFields fields) := by
    rw [hfields.count_toNat]
    exact consumes_parseFields hfields.ascending hfields.length_lt (by simp)
  have hheader := consumes_parseHeader typeId version (UInt16.ofNat fields.length)
  rw [List.append_nil, ← List.append_assoc, ← List.append_assoc] at hheader
  rw [canonicalFrame, canonicalHeader, ← List.append_nil (canonicalFields fields)]
  apply consumes_bind hheader
  exact consumes_bind hrest (consumes_pure _ _)

/-! ## The decoder reads what the parser reads -/

variable [Target]

/-- Reading an input at an offset does what a parser does on the part behind the offset: it fails
with the same error, or returns a result of the same value and the offset behind the word that was
read. -/
def ReadsAs {α β : Type} (input : Bytes) (read : ℕ → Except CanonicalError β)
    (result : α → ℕ → β) (parse : FrameParser α) : Prop :=
  ∀ before after, input = before ++ after →
    (∀ failure, parse.run after = .error failure → read before.length = .error failure) ∧
      ∀ value rest, parse.run after = .ok (value, rest) → ∃ word, after = word ++ rest ∧
        read before.length = .ok (result value (before ++ word).length)

section Reads

variable {α β γ : Type} {input : Bytes}

omit [Target] in
theorem readsAs_pure (result : α → ℕ → β) (value : α) :
    ReadsAs input (fun offset ↦ .ok (result value offset)) result (pure value) := by
  rintro before after rfl
  constructor
  · rintro failure ⟨⟩
  · rintro _ rest ⟨⟩
    exact ⟨[], rfl, by rw [List.append_nil]⟩

omit [Target] in
theorem readsAs_throw (result : α → ℕ → β) (failure : CanonicalError) :
    ReadsAs input (fun _ ↦ .error failure) result (throw failure) := by
  rintro before after rfl
  constructor
  · rintro _ ⟨⟩
    rfl
  · rintro _ rest ⟨⟩

omit [Target] in
/-- Reading in sequence does what parsing in sequence does. -/
theorem readsAs_bind {read : ℕ → Except CanonicalError (α × ℕ)} {parse : FrameParser α}
    {readNext : α → ℕ → Except CanonicalError γ} {result : β → ℕ → γ}
    {parseNext : α → FrameParser β} (hread : ReadsAs input read Prod.mk parse)
    (hnext : ∀ value, ReadsAs input (readNext value) result (parseNext value)) :
    ReadsAs input (fun offset ↦ read offset >>= fun part ↦ readNext part.1 part.2) result
      (parse >>= parseNext) := by
  intro before after hinput
  obtain ⟨herror, hok⟩ := hread before after hinput
  rw [StateT.run_bind]
  cases hparse : parse.run after with
  | error failure =>
    simp only [error_bind, herror failure hparse]
    constructor
    · rintro _ ⟨⟩
      rfl
    · rintro _ _ ⟨⟩
  | ok parsed =>
    obtain ⟨value, rest⟩ := parsed
    obtain ⟨word, rfl, hvalue⟩ := hok value rest hparse
    simp only [ok_bind, hvalue]
    rw [← List.append_assoc] at hinput
    obtain ⟨hnextError, hnextOk⟩ := hnext value (before ++ word) rest hinput
    refine ⟨hnextError, ?_⟩
    intro last tail hlast
    obtain ⟨word', rfl, hresult⟩ := hnextOk last tail hlast
    refine ⟨word ++ word', (List.append_assoc _ _ _).symm, ?_⟩
    rw [hresult, List.append_assoc]

omit [Target] in
/-- Converting what is parsed does not matter where the value is not used. -/
theorem readsAs_map {read : ℕ → Except CanonicalError γ} {result : β → ℕ → γ}
    {parse : FrameParser α} (convert : α → β)
    (hread : ReadsAs input read (fun value ↦ result (convert value)) parse) :
    ReadsAs input read result (parse >>= fun value ↦ pure (convert value)) := by
  intro before after hinput
  obtain ⟨herror, hok⟩ := hread before after hinput
  rw [bind_pure_comp, StateT.run_map]
  cases hparse : parse.run after with
  | error failure =>
    constructor
    · rintro _ ⟨⟩
      exact herror failure hparse
    · rintro _ _ ⟨⟩
  | ok parsed =>
    constructor
    · rintro _ ⟨⟩
    · rintro _ _ ⟨⟩
      exact hok _ _ hparse

/-- Reading at an offset is reading in unbounded arithmetic: no sum of an offset and a length is
ever taken modulo the address space. -/
theorem take_eq_ite (hfits : input.length < 2 ^ Target.usizeBits) (offset length : ℕ) :
    take input offset length =
      if offset + length ≤ input.length then
        .ok ((input.drop offset).take length, offset + length)
      else .error .truncated := by
  unfold take checkedAdd getRange
  by_cases hrange : offset + length ≤ input.length
  · rw [if_pos (hrange.trans_lt hfits), if_pos hrange, okOr_some, ok_bind,
      if_pos ⟨Nat.le_add_right _ _, hrange⟩, okOr_some, ok_bind, List.drop_take,
      Nat.add_sub_cancel_left]
  · have hbounds : ¬ (offset ≤ offset + length ∧ offset + length ≤ input.length) :=
      fun hbounds ↦ hrange hbounds.2
    rw [if_neg hrange]
    -- A sum beyond the address space is also beyond the end of the input.
    split_ifs
    · rw [okOr_some, ok_bind, if_neg hbounds, okOr_none, error_bind]
    · rfl

theorem readsAs_take (hfits : input.length < 2 ^ Target.usizeBits) (length : ℕ) :
    ReadsAs input (fun offset ↦ take input offset length) Prod.mk
      (takeExactly .truncated length) := by
  rintro before after rfl
  have hread := take_eq_ite hfits before.length length
  simp only [List.length_append, Nat.add_le_add_iff_left, List.drop_left] at hread
  have hparse : (takeExactly CanonicalError.truncated length).run after =
      if length ≤ after.length then .ok (after.take length, after.drop length)
      else .error .truncated := rfl
  simp only [hread, hparse]
  split_ifs with hlength
  · constructor
    · rintro failure ⟨⟩
    · rintro _ _ ⟨⟩
      refine ⟨after.take length, (List.take_append_drop length after).symm, ?_⟩
      rw [List.length_append, List.length_take_of_le hlength]
  · constructor
    · rintro _ ⟨⟩
      rfl
    · rintro _ _ ⟨⟩

/-- Reading an array of fixed size and converting it. -/
theorem readsAs_array (hfits : input.length < 2 ^ Target.usizeBits) (size : ℕ)
    (convert : Bytes → α) :
    ReadsAs input (fun offset ↦ do
        let (bytes, offset) ← take input offset size
        let array ← okOr .truncated (arrayOf? size bytes)
        .ok (convert array.toList, offset))
      Prod.mk (convert <$> takeExactly .truncated size) := by
  intro before after hinput
  obtain ⟨herror, hok⟩ := readsAs_take hfits size before after hinput
  subst hinput
  rw [StateT.run_map]
  cases hparse : (takeExactly CanonicalError.truncated size).run after with
  | error failure =>
    simp only [herror failure hparse, error_bind]
    constructor
    · rintro _ ⟨⟩
      rfl
    · rintro _ _ ⟨⟩
  | ok parsed =>
    obtain ⟨bytes, rest⟩ := parsed
    obtain ⟨word, hsplit, hbytes⟩ := hok bytes rest hparse
    obtain ⟨-, -, hlength, -, -⟩ := (take_eq_ok_iff before).mp hbytes
    simp only [hbytes, ok_bind, arrayOf?, dif_pos hlength]
    constructor
    · rintro _ ⟨⟩
    · rintro _ _ ⟨⟩
      exact ⟨word, hsplit, rfl⟩

theorem readsAs_readU16 (hfits : input.length < 2 ^ Target.usizeBits) :
    ReadsAs input (readU16 input) Prod.mk parseU16 :=
  readsAs_array hfits 2 fun bytes ↦ UInt16.ofNat (ofLittleEndian bytes)

theorem readsAs_readU32 (hfits : input.length < 2 ^ Target.usizeBits) :
    ReadsAs input (readU32 input) Prod.mk parseU32 :=
  readsAs_array hfits 4 fun bytes ↦ UInt32.ofNat (ofLittleEndian bytes)

/-- The validating pass reads the field section. -/
theorem readsAs_decodeFields (hfits : input.length < 2 ^ Target.usizeBits) (remaining : ℕ)
    (previous : Option UInt16) :
    ReadsAs input (decodeFields input remaining previous) (fun _ stop ↦ stop)
      (parseFields remaining previous) := by
  induction remaining generalizing previous with
  | zero => exact readsAs_pure (fun _ stop ↦ stop) []
  | succ remaining ih =>
    have hpayload : ∀ fieldId length, ReadsAs input
        (fun offset ↦ take input offset length >>= fun part ↦
          decodeFields input remaining (some fieldId) part.2)
        (fun _ stop ↦ stop)
        (do
          let payload ← takeExactly .truncated length
          let fields ← parseFields remaining (some fieldId)
          pure ((fieldId, payload) :: fields)) := by
      intro fieldId length
      have hnext : ∀ payload, ReadsAs input (decodeFields input remaining (some fieldId))
          (fun _ stop ↦ stop) (do
            let fields ← parseFields remaining (some fieldId)
            pure ((fieldId, payload) :: fields)) :=
        fun payload ↦ readsAs_map (fun fields ↦ (fieldId, payload) :: fields) (ih (some fieldId))
      exact readsAs_bind (readsAs_take hfits length) hnext
    have hround : ∀ fieldId, ReadsAs input
        (fun offset ↦
          if previous.any (fun previousId ↦ fieldId ≤ previousId) then
            .error .nonCanonicalFieldOrder
          else readU32 input offset >>= fun part ↦
            okOr .truncated (usizeTryFrom part.1) >>= fun fieldLen ↦
              take input part.2 fieldLen >>= fun part ↦
                decodeFields input remaining (some fieldId) part.2)
        (fun _ stop ↦ stop)
        (if previous.any (fun previousId ↦ fieldId ≤ previousId) then
            throw .nonCanonicalFieldOrder
          else do
            let fieldLen ← parseU32
            let payload ← takeExactly .truncated fieldLen.toNat
            let fields ← parseFields remaining (some fieldId)
            pure ((fieldId, payload) :: fields)) := by
      intro fieldId
      split_ifs
      · exact readsAs_throw _ _
      · simp only [usizeTryFrom_eq, okOr_some, ok_bind]
        exact readsAs_bind (readsAs_readU32 hfits) fun fieldLen ↦
          hpayload fieldId fieldLen.toNat
    exact readsAs_bind (readsAs_readU16 hfits) hround

theorem readsAs_readHeader (hfits : input.length < 2 ^ Target.usizeBits) :
    ReadsAs input (readHeader input) Prod.mk parseHeader := by
  have hcount : ∀ typeId version : UInt16, ReadsAs input
      (fun offset ↦ readU16 input offset >>= fun part ↦
        .ok ((typeId, version, part.1), part.2))
      Prod.mk
      (do
        let fieldCount ← parseU16
        pure (typeId, version, fieldCount)) := by
    intro typeId version
    exact readsAs_bind (readsAs_readU16 hfits) fun fieldCount ↦
      readsAs_pure Prod.mk (typeId, version, fieldCount)
  have hversion : ∀ typeId : UInt16, ReadsAs input
      (fun offset ↦ readU16 input offset >>= fun version ↦
        readU16 input version.2 >>= fun part ↦
          .ok ((typeId, version.1, part.1), part.2))
      Prod.mk
      (do
        let version ← parseU16
        let fieldCount ← parseU16
        pure (typeId, version, fieldCount)) :=
    fun typeId ↦ readsAs_bind (readsAs_readU16 hfits) (hcount typeId)
  have hmagic : ∀ magic, ReadsAs input
      (fun offset ↦
        if magic ≠ protocolMagic then .error .invalidMagic
        else readU16 input offset >>= fun typeId ↦
          readU16 input typeId.2 >>= fun version ↦
            readU16 input version.2 >>= fun part ↦
              .ok ((typeId.1, version.1, part.1), part.2))
      Prod.mk
      (if magic ≠ protocolMagic then throw .invalidMagic
        else do
          let typeId ← parseU16
          let version ← parseU16
          let fieldCount ← parseU16
          pure (typeId, version, fieldCount)) := by
    intro magic
    split_ifs
    · exact readsAs_throw _ _
    · exact readsAs_bind (readsAs_readU16 hfits) hversion
  exact readsAs_bind (readsAs_take hfits protocolMagic.length) hmagic

/-- The decoder accepts what the parser accepts as a whole, and rejects the rest with the errors of
the parser.  The address space plays no part in this. -/
theorem decodeCanonicalFrame_eq_parseWholeFrame (hfits : input.length < 2 ^ Target.usizeBits) :
    decodeCanonicalFrame input = (parseWholeFrame input).map fun content ↦
      ⟨content.typeId, content.version, content.fieldCount, 10, input⟩ := by
  obtain ⟨herror, hok⟩ := readsAs_readHeader hfits [] input rfl
  rw [List.length_nil] at herror hok
  have hdecode := decodeCanonicalFrame_eq_readHeader input
  unfold parseWholeFrame parseFrame
  rw [StateT.run_bind]
  cases hheader : parseHeader.run input with
  | error failure =>
    rw [hdecode, herror failure hheader]
    rfl
  | ok parsed =>
    obtain ⟨⟨typeId, version, fieldCount⟩, afterHeader⟩ := parsed
    obtain ⟨header, hinput, hread⟩ := hok _ _ hheader
    obtain ⟨hfieldsError, hfieldsOk⟩ :=
      readsAs_decodeFields hfits fieldCount.toNat none header afterHeader hinput
    rw [hread, List.nil_append] at hdecode
    simp only [ok_bind] at hdecode ⊢
    rw [StateT.run_bind]
    cases hfields : (parseFields fieldCount.toNat none).run afterHeader with
    | error failure =>
      rw [hdecode, hfieldsError failure hfields]
      rfl
    | ok parsed =>
      obtain ⟨fields, rest⟩ := parsed
      obtain ⟨word, rfl, hstop⟩ := hfieldsOk fields rest hfields
      have hend : (header ++ word).length = input.length ↔ rest = [] := by
        rw [hinput, ← List.append_assoc, @List.length_append _ _ rest, Nat.left_eq_add,
          List.length_eq_zero_iff]
      rw [hstop, ok_bind] at hdecode
      simp only [ne_eq, hend] at hdecode
      simp only [ok_bind]
      change _ = Except.map _ (if rest ≠ [] then _ else _)
      by_cases hrest : rest = []
      · rw [if_neg (not_not.mpr hrest)] at hdecode ⊢
        -- The field section starts at the same offset in every accepted input.
        obtain ⟨_, _, _, _, _, _, hview⟩ := decodeCanonicalFrame_eq_ok_iff.mp hdecode
        have hstart : header.length = 10 := congrArg CanonicalFrame.fieldsStart hview
        rw [hdecode, hstart]
        rfl
      · rw [if_pos hrest] at hdecode ⊢
        exact hdecode

end Reads

/-! ## Cut and padded frames -/

/-- The accepted byte strings are prefix-free, with one error for everything too short and one for
everything too long: a proper prefix of an accepted input is truncated, and an accepted input with
something behind it has trailing bytes. -/
theorem decodeCanonicalFrame_prefix_free (input : Slice) (frame : CanonicalFrame)
    (haccepted : decodeCanonicalFrame input.1 = .ok frame) :
    (∀ start, start <+: input.1 → start ≠ input.1 →
        decodeCanonicalFrame start = .error .truncated) ∧
      ∀ suffix, suffix ≠ [] → ∀ padded : Slice, padded.1 = input.1 ++ suffix →
        decodeCanonicalFrame padded.1 = .error .trailingBytes := by
  obtain ⟨typeId, version, fields, hfields, hinput, hfits, -⟩ :=
    decodeCanonicalFrame_eq_ok_iff.mp haccepted
  have hconsumes := consumes_parseFrame typeId version hfields
  rw [← hinput] at hconsumes
  constructor
  · intro start hleading hproper
    have hstart : start.length < 2 ^ Target.usizeBits := hleading.length_le.trans_lt hfits
    rw [decodeCanonicalFrame_eq_parseWholeFrame hstart, parseWholeFrame,
      hconsumes.run_of_prefix start hleading hproper]
    rfl
  · intro suffix hsuffix padded hpadded
    have hlength : padded.1.length < 2 ^ Target.usizeBits := padded.2.trans_lt Target.isizeMax_lt
    have hwhole : parseWholeFrame (input.1 ++ suffix) = .error .trailingBytes := by
      rw [parseWholeFrame, hconsumes.run_append]
      exact if_pos hsuffix
    rw [decodeCanonicalFrame_eq_parseWholeFrame hlength, hpadded, hwhole]
    rfl

omit [Target] in
/-- A frame with one field, cut in the payload of the field and padded by one byte. -/
theorem decodeCanonicalFrame_prefix_free_of_one_field :
    @decodeCanonicalFrame .device (canonicalFrame 7 1 [(1, [0xAB])]).dropLast =
        .error .truncated ∧
      @decodeCanonicalFrame .device (canonicalFrame 7 1 [(1, [0xAB])] ++ [0]) =
        .error .trailingBytes := by
  have hfree := @decodeCanonicalFrame_prefix_free .device
    ⟨canonicalFrame 7 1 [(1, [0xAB])], by decide⟩ (viewOf 7 1 [(1, [0xAB])]) (by decide)
  constructor
  · exact hfree.1 _ (List.dropLast_prefix _) (by decide)
  · exact hfree.2 [0] (by decide) ⟨_, by decide⟩ rfl

omit [Target] in
/-- The 32-bit and the 64-bit build decode alike.  The outcome of decoding, the fields of a decoded
frame and the outcome of every allow-list check are the same, and neither build ever reads at an
offset that was computed with an overflow. -/
theorem decodeCanonicalFrame_target_independent (input : Bytes) (hlength : input.length < 2 ^ 31) :
    @decodeCanonicalFrame .device input = @decodeCanonicalFrame .host input ∧
      (∀ frame, @decodeCanonicalFrame .device input = .ok frame →
        (∀ fieldId, @CanonicalFrame.field .device frame fieldId =
          @CanonicalFrame.field .host frame fieldId) ∧
        ∀ allowed, @CanonicalFrame.requireOnlyFields .device frame allowed =
          @CanonicalFrame.requireOnlyFields .host frame allowed) ∧
      ∀ (target : Target) (offset length : ℕ), @take target input offset length =
        if offset + length ≤ input.length then
          .ok ((input.drop offset).take length, offset + length)
        else .error .truncated := by
  have hfits : ∀ target : Target, input.length < 2 ^ @Target.usizeBits target :=
    fun target ↦ (hlength.trans (by norm_num)).trans_le (@Target.two_pow_le target)
  refine ⟨?_, ?_, fun target ↦ @take_eq_ite target input (hfits target)⟩
  · rw [@decodeCanonicalFrame_eq_parseWholeFrame .device input (hfits .device),
      @decodeCanonicalFrame_eq_parseWholeFrame .host input (hfits .host)]
  · intro frame hdecode
    obtain ⟨typeId, version, fields, hfields, rfl, -, rfl⟩ :=
      (@decodeCanonicalFrame_eq_ok_iff .device _ _).mp hdecode
    constructor
    · intro fieldId
      rw [@CanonicalFrame.field_viewOf .device _ _ _ hfields (hfits .device),
        @CanonicalFrame.field_viewOf .host _ _ _ hfields (hfits .host)]
    · intro allowed
      rw [@CanonicalFrame.requireOnlyFields_viewOf .device _ _ _ hfields (hfits .device),
        @CanonicalFrame.requireOnlyFields_viewOf .host _ _ _ hfields (hfits .host)]

omit [Target] in
/-- A field that declares 2 ^ 32 - 1 bytes, where the end of the payload does not fit 32 bits. -/
theorem decodeCanonicalFrame_target_independent_of_overflow :
    @decodeCanonicalFrame .device (canonicalHeader 7 1 1 ++ [1, 0, 0xFF, 0xFF, 0xFF, 0xFF]) =
      @decodeCanonicalFrame .host (canonicalHeader 7 1 1 ++ [1, 0, 0xFF, 0xFF, 0xFF, 0xFF]) :=
  (decodeCanonicalFrame_target_independent _ (by decide)).1

end SunriseEdgeLedger.Core
