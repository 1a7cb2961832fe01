import SunriseEdgeLedger.Core.Canonical
import SunriseEdgeLedger.Foundation.AscendingFields

/-!
# The strict decode is the canonicality check

The encoder of the documented wire shape, and the law on which the wallet rests the absence of any
re-encode check: the decoder accepts exactly the encodings of a type, a version and a list of
fields with strictly increasing identifiers, and the scanning accessors of the decoded view agree
with that list.

The decoder works on offsets into the whole input.  Its reads are therefore described on inputs
split at the offset: the part before the offset is arbitrary, and a read succeeds exactly when the
part behind it starts with the encoding of the value read.
-/

namespace SunriseEdgeLedger.Core

open Foundation

/-- One field on the wire. -/
def canonicalField (fieldId : UInt16) (payload : Bytes) : Bytes :=
  u16ToLeBytes fieldId ++ u32ToLeBytes (UInt32.ofNat payload.length) ++ payload

/-- The field section of a frame. -/
def canonicalFields (fields : List (UInt16 × Bytes)) : Bytes :=
  fields.flatMap fun field ↦ canonicalField field.1 field.2

/-- The header of a frame. -/
def canonicalHeader (typeId version : UInt16) (count : ℕ) : Bytes :=
  protocolMagic ++ u16ToLeBytes typeId ++ u16ToLeBytes version ++ u16ToLeBytes (UInt16.ofNat count)

/-- A whole frame. -/
def canonicalFrame (typeId version : UInt16) (fields : List (UInt16 × Bytes)) : Bytes :=
  canonicalHeader typeId version fields.length ++ canonicalFields fields

/-- The field lists that have a canonical encoding. -/
structure IsCanonical (fields : List (UInt16 × Bytes)) : Prop where
  ascending : Ascending fields
  count_lt : fields.length < 2 ^ 16
  length_lt : ∀ field ∈ fields, field.2.length < 2 ^ 32

/-- The view that decoding the encoding of a field list returns. -/
def viewOf (typeId version : UInt16) (fields : List (UInt16 × Bytes)) : CanonicalFrame where
  typeId := typeId
  version := version
  fieldCount := UInt16.ofNat fields.length
  fieldsStart := 10
  input := canonicalFrame typeId version fields

@[simp]
theorem length_canonicalField (fieldId : UInt16) (payload : Bytes) :
    (canonicalField fieldId payload).length = 6 + payload.length := by
  simp only [canonicalField, List.length_append, length_u16ToLeBytes, length_u32ToLeBytes]

@[simp]
theorem canonicalFields_nil : canonicalFields [] = [] := rfl

@[simp]
theorem canonicalFields_cons (fieldId : UInt16) (payload : Bytes)
    (fields : List (UInt16 × Bytes)) :
    canonicalFields ((fieldId, payload) :: fields) =
      canonicalField fieldId payload ++ canonicalFields fields :=
  rfl

@[simp]
theorem length_canonicalHeader (typeId version : UInt16) (count : ℕ) :
    (canonicalHeader typeId version count).length = 10 := by
  simp [canonicalHeader, protocolMagic]

@[simp]
theorem length_canonicalFrame (typeId version : UInt16) (fields : List (UInt16 × Bytes)) :
    (canonicalFrame typeId version fields).length = 10 + (canonicalFields fields).length := by
  simp [canonicalFrame]

/-- No field is longer than the whole section. -/
theorem length_le_length_canonicalFields {field : UInt16 × Bytes}
    {fields : List (UInt16 × Bytes)} (hfield : field ∈ fields) :
    field.2.length ≤ (canonicalFields fields).length := by
  induction fields with
  | nil => simp at hfield
  | cons head fields ih =>
    obtain ⟨fieldId, payload⟩ := head
    rw [canonicalFields_cons, List.length_append, length_canonicalField]
    rcases List.mem_cons.mp hfield with rfl | htail
    · exact (Nat.le_add_left _ _).trans (Nat.le_add_right _ _)
    · exact (ih htail).trans (Nat.le_add_left _ _)

theorem IsCanonical.count_toNat {fields : List (UInt16 × Bytes)} (hfields : IsCanonical fields) :
    (UInt16.ofNat fields.length).toNat = fields.length := by
  rw [UInt16.toNat_ofNat_of_lt' hfields.count_lt]

variable [Target]

section Reads

variable (before : Bytes) {after : Bytes} {stop : ℕ}

theorem take_eq_ok_iff {length : ℕ} {bytes : Bytes} :
    take (before ++ after) before.length length = .ok (bytes, stop) ↔
      ∃ rest, after = bytes ++ rest ∧ bytes.length = length ∧ stop = before.length + length ∧
        stop < 2 ^ Target.usizeBits := by
  simp only [take, bind_eq_ok_iff, okOr_eq_ok_iff, checkedAdd_eq_some_iff, Except.ok.injEq,
    Prod.mk.injEq]
  constructor
  · rintro ⟨_, ⟨rfl, hfits⟩, part, hpart, rfl, rfl⟩
    obtain ⟨rest, hafter, hlength⟩ := getRange_append_eq_some_iff.mp hpart
    exact ⟨rest, hafter, by omega, rfl, hfits⟩
  · rintro ⟨rest, hafter, rfl, rfl, hfits⟩
    exact ⟨_, ⟨rfl, hfits⟩, bytes, getRange_append_eq_some_iff.mpr ⟨rest, hafter, rfl⟩, rfl, rfl⟩

theorem readU16_eq_ok_iff {value : UInt16} :
    readU16 (before ++ after) before.length = .ok (value, stop) ↔
      ∃ rest, after = u16ToLeBytes value ++ rest ∧ stop = before.length + 2 ∧
        stop < 2 ^ Target.usizeBits := by
  simp only [readU16, bind_eq_ok_iff, okOr_eq_ok_iff, Prod.exists, take_eq_ok_iff,
    arrayOf?_eq_some_iff, Except.ok.injEq, Prod.mk.injEq, u16FromLeBytes_eq_iff]
  constructor
  · rintro ⟨bytes, _, ⟨rest, rfl, -, hstop, hfits⟩, array, rfl, hvalue, rfl⟩
    exact ⟨rest, by rw [hvalue], hstop, hfits⟩
  · rintro ⟨rest, rfl, hstop, hfits⟩
    exact ⟨_, stop, ⟨rest, rfl, by simp, hstop, hfits⟩, ⟨u16ToLeBytes value, by simp⟩, rfl, rfl, rfl⟩

theorem readU32_eq_ok_iff {value : UInt32} :
    readU32 (before ++ after) before.length = .ok (value, stop) ↔
      ∃ rest, after = u32ToLeBytes value ++ rest ∧ stop = before.length + 4 ∧
        stop < 2 ^ Target.usizeBits := by
  simp only [readU32, bind_eq_ok_iff, okOr_eq_ok_iff, Prod.exists, take_eq_ok_iff,
    arrayOf?_eq_some_iff, Except.ok.injEq, Prod.mk.injEq, u32FromLeBytes_eq_iff]
  constructor
  · rintro ⟨bytes, _, ⟨rest, rfl, -, hstop, hfits⟩, array, rfl, hvalue, rfl⟩
    exact ⟨rest, by rw [hvalue], hstop, hfits⟩
  · rintro ⟨rest, rfl, hstop, hfits⟩
    exact ⟨_, stop, ⟨rest, rfl, by simp, hstop, hfits⟩, ⟨u32ToLeBytes value, by simp⟩, rfl, rfl, rfl⟩

/-- A field is read exactly where the encoding of a field below the length limit stands. -/
theorem readField_eq_ok_iff {fieldId : UInt16} {payload : Bytes} :
    CanonicalFrame.readField (before ++ after) before.length = .ok ((fieldId, payload), stop) ↔
      ∃ rest, after = canonicalField fieldId payload ++ rest ∧ payload.length < 2 ^ 32 ∧
        stop = before.length + (canonicalField fieldId payload).length ∧
        stop < 2 ^ Target.usizeBits := by
  simp only [CanonicalFrame.readField, bind_eq_ok_iff, okOr_eq_ok_iff, Prod.exists,
    usizeTryFrom_eq, Option.some.injEq, Except.ok.injEq, Prod.mk.injEq, length_canonicalField]
  constructor
  · rintro ⟨id, _, hid, len, _, hlen, _, rfl, bytes, _, hbytes, ⟨rfl, rfl⟩, rfl⟩
    obtain ⟨afterId, rfl, rfl, hfitsId⟩ := (readU16_eq_ok_iff _).mp hid
    rw [← List.append_assoc, ← length_u16ToLeBytes id, ← List.length_append] at hlen
    obtain ⟨afterLen, rfl, rfl, hfitsLen⟩ := (readU32_eq_ok_iff _).mp hlen
    rw [← List.append_assoc, ← List.append_assoc, ← length_u32ToLeBytes len, ← List.length_append]
      at hbytes
    obtain ⟨rest, rfl, hlength, rfl, hfits⟩ := (take_eq_ok_iff _).mp hbytes
    refine ⟨rest, ?_, hlength ▸ len.toNat_lt, ?_, hfits⟩
    · rw [canonicalField, hlength, UInt32.ofNat_toNat, List.append_assoc, List.append_assoc]
    · simp only [List.length_append, length_u16ToLeBytes, length_u32ToLeBytes]
      omega
  · rintro ⟨rest, rfl, hlength, hstop, hfits⟩
    have hlen : (UInt32.ofNat payload.length).toNat = payload.length := by
      rw [UInt32.toNat_ofNat_of_lt' hlength]
    refine ⟨fieldId, before.length + 2, ?_, UInt32.ofNat payload.length, before.length + 6, ?_,
      payload.length, hlen, payload, stop, ?_, ⟨rfl, rfl⟩, rfl⟩
    · refine (readU16_eq_ok_iff _).mpr
        ⟨u32ToLeBytes (UInt32.ofNat payload.length) ++ (payload ++ rest), ?_, rfl, by omega⟩
      rw [canonicalField, List.append_assoc, List.append_assoc]
    · rw [show before.length + 2 = (before ++ u16ToLeBytes fieldId).length by simp,
        canonicalField, List.append_assoc, List.append_assoc, ← List.append_assoc before]
      exact (readU32_eq_ok_iff _).mpr ⟨_, rfl, by simp, by omega⟩
    · rw [show before.length + 6 = (before ++ u16ToLeBytes fieldId ++
          u32ToLeBytes (UInt32.ofNat payload.length)).length by simp,
        canonicalField, List.append_assoc, List.append_assoc, ← List.append_assoc before,
        ← List.append_assoc (before ++ _)]
      exact (take_eq_ok_iff _).mpr ⟨_, rfl, rfl, by simp; omega, hfits⟩

end Reads

/-! ## The validating pass -/

/-- One round of the validating pass reads a field whose identifier is above the previous one. -/
theorem decodeFields_succ_eq_ok_iff {input : Bytes} {remaining offset stop : ℕ}
    {previous : Option UInt16} :
    decodeFields input (remaining + 1) previous offset = .ok stop ↔
      ∃ fieldId payload next, CanonicalFrame.readField input offset = .ok ((fieldId, payload), next) ∧
        (∀ previousId ∈ previous, previousId < fieldId) ∧
        decodeFields input remaining (some fieldId) next = .ok stop := by
  simp only [decodeFields, CanonicalFrame.readField, bind_eq_ok_iff, okOr_eq_ok_iff, Prod.exists,
    usizeTryFrom_eq, Option.some.injEq, Except.ok.injEq, Prod.mk.injEq]
  constructor
  · rintro ⟨fieldId, offsetId, hid, hrest⟩
    split_ifs at hrest with horder
    simp only [bind_eq_ok_iff, Prod.exists, okOr_eq_ok_iff, Option.some.injEq] at hrest
    obtain ⟨len, offsetLen, hlen, _, rfl, bytes, next, hbytes, hnext⟩ := hrest
    refine ⟨fieldId, bytes, next,
      ⟨fieldId, offsetId, hid, len, offsetLen, hlen, _, rfl, bytes, next, hbytes, ⟨rfl, rfl⟩, rfl⟩,
      ?_, hnext⟩
    rintro previousId hprevious
    obtain rfl := Option.mem_def.mp hprevious
    simpa using horder
  · rintro ⟨_, _, _, ⟨fieldId, offsetId, hid, len, offsetLen, hlen, _, rfl, bytes, next, hbytes,
      ⟨rfl, rfl⟩, rfl⟩, horder, hnext⟩
    refine ⟨fieldId, offsetId, hid, ?_⟩
    have hfree : ¬ (previous.any fun previousId ↦ decide (fieldId ≤ previousId)) = true := by
      cases previous with
      | none => simp
      | some previousId => simpa using horder previousId rfl
    rw [if_neg hfree]
    simp only [bind_eq_ok_iff, Prod.exists, okOr_eq_ok_iff, Option.some.injEq]
    exact ⟨len, offsetLen, hlen, _, rfl, bytes, next, hbytes, hnext⟩

/-- The validating pass accepts exactly the encodings of ascending fields above the previous
identifier, and stops right behind them. -/
theorem decodeFields_eq_ok_iff (before : Bytes) {after : Bytes} {remaining stop : ℕ}
    {previous : Option UInt16} (hbefore : before.length < 2 ^ Target.usizeBits) :
    decodeFields (before ++ after) remaining previous before.length = .ok stop ↔
      ∃ fields rest, after = canonicalFields fields ++ rest ∧ fields.length = remaining ∧
        Ascending fields ∧ (∀ previousId ∈ previous, ∀ field ∈ fields, previousId < field.1) ∧
        (∀ field ∈ fields, field.2.length < 2 ^ 32) ∧
        stop = before.length + (canonicalFields fields).length ∧
        stop < 2 ^ Target.usizeBits := by
  induction remaining generalizing before after previous with
  | zero =>
    simp only [decodeFields, Except.ok.injEq, List.length_eq_zero_iff]
    constructor
    · rintro rfl
      exact ⟨[], after, rfl, rfl, ascending_nil, by simp, by simp, rfl, hbefore⟩
    · rintro ⟨fields, rest, -, rfl, -, -, -, hstop, -⟩
      exact hstop.symm
  | succ remaining ih =>
    rw [decodeFields_succ_eq_ok_iff]
    constructor
    · rintro ⟨id, payload, next, hread, horder, hnext⟩
      obtain ⟨afterField, rfl, hpayload, rfl, hfits⟩ := (readField_eq_ok_iff _).mp hread
      rw [← List.append_assoc, ← List.length_append] at hnext
      rw [← List.length_append] at hfits
      obtain ⟨fields, rest, rfl, hcount, hascending, habove, hlengths, hstop, hstopFits⟩ :=
        (ih _ hfits).mp hnext
      have hhead : ∀ field ∈ fields, id < field.1 := habove id rfl
      refine ⟨(id, payload) :: fields, rest, by simp, by simp [hcount],
        ascending_cons.mpr ⟨hhead, hascending⟩, ?_, List.forall_mem_cons.mpr ⟨hpayload, hlengths⟩,
        ?_, hstopFits⟩
      · intro previousId hprevious
        have hid : previousId < id := horder previousId hprevious
        exact List.forall_mem_cons.mpr ⟨hid, fun field hfield ↦ hid.trans (hhead field hfield)⟩
      · rw [hstop, List.length_append, canonicalFields_cons, List.length_append]
        omega
    · rintro ⟨fields, rest, rfl, hcount, hascending, habove, hlengths, hstop, hstopFits⟩
      cases fields with
      | nil => simp at hcount
      | cons field fields =>
        obtain ⟨id, payload⟩ := field
        obtain ⟨hhead, htail⟩ := ascending_cons.mp hascending
        obtain ⟨hpayload, hlengths⟩ := List.forall_mem_cons.mp hlengths
        rw [canonicalFields_cons, List.length_append] at hstop
        have hfits : (before ++ canonicalField id payload).length < 2 ^ Target.usizeBits := by
          rw [List.length_append]
          omega
        refine ⟨id, payload, (before ++ canonicalField id payload).length, ?_, ?_, ?_⟩
        · rw [canonicalFields_cons, List.append_assoc]
          exact (readField_eq_ok_iff _).mpr
            ⟨_, rfl, hpayload, List.length_append, hfits⟩
        · intro previousId hprevious
          exact habove previousId hprevious (id, payload) (by simp)
        · rw [canonicalFields_cons, List.append_assoc, ← List.append_assoc]
          refine (ih _ hfits).mpr ⟨fields, rest, rfl, by simpa using hcount, htail, ?_, hlengths, ?_,
            hstopFits⟩
          · intro previousId hprevious
            obtain rfl := Option.mem_some.mp hprevious
            exact hhead
          · rw [List.length_append]
            omega

/-- The reads of the decoder up to the field section. -/
def readHeader (input : Bytes) (offset : ℕ) :
    Except CanonicalError ((UInt16 × UInt16 × UInt16) × ℕ) := do
  let (magic, offset) ← take input offset protocolMagic.length
  if magic ≠ protocolMagic then .error .invalidMagic
  else do
    let (typeId, offset) ← readU16 input offset
    let (version, offset) ← readU16 input offset
    let (fieldCount, offset) ← readU16 input offset
    .ok ((typeId, version, fieldCount), offset)

theorem decodeCanonicalFrame_eq_readHeader (input : Bytes) :
    decodeCanonicalFrame input = readHeader input 0 >>= fun part ↦
      decodeFields input part.1.2.2.toNat none part.2 >>= fun stop ↦
        if stop ≠ input.length then .error .trailingBytes
        else .ok ⟨part.1.1, part.1.2.1, part.1.2.2, part.2, input⟩ := by
  simp only [decodeCanonicalFrame, readHeader, bind_assoc]
  apply bind_congr
  intro part
  split_ifs
  · rfl
  · simp only [bind_assoc]
    rfl

/-- The header is read exactly where the encoding of a header stands. -/
theorem readHeader_eq_ok_iff {input : Bytes} {typeId version fieldCount : UInt16} {stop : ℕ} :
    readHeader input 0 = .ok ((typeId, version, fieldCount), stop) ↔
      ∃ rest, input = canonicalHeader typeId version fieldCount.toNat ++ rest ∧ stop = 10 := by
  have hspace : 2 ^ 32 ≤ 2 ^ Target.usizeBits := Target.two_pow_le
  constructor
  · intro hread
    simp only [readHeader, bind_eq_ok_iff, Prod.exists] at hread
    obtain ⟨magic, offset, hmagic, hrest⟩ := hread
    split_ifs at hrest with hvalid
    obtain rfl : magic = protocolMagic := not_not.mp hvalid
    simp only [bind_eq_ok_iff, Prod.exists, Except.ok.injEq, Prod.mk.injEq] at hrest
    obtain ⟨_, _, htype, _, _, hversion, _, _, hcount, ⟨rfl, rfl, rfl⟩, rfl⟩ := hrest
    obtain ⟨afterMagic, rfl, -, rfl, -⟩ := (take_eq_ok_iff []).mp hmagic
    obtain ⟨afterType, rfl, rfl, -⟩ := (readU16_eq_ok_iff _).mp htype
    rw [← List.append_assoc] at hversion hcount ⊢
    obtain ⟨afterVersion, rfl, rfl, -⟩ := (readU16_eq_ok_iff (protocolMagic ++ _)).mp hversion
    rw [← List.append_assoc] at hcount ⊢
    obtain ⟨rest, rfl, rfl, -⟩ := (readU16_eq_ok_iff (protocolMagic ++ _ ++ _)).mp hcount
    refine ⟨rest, ?_, rfl⟩
    rw [canonicalHeader, UInt16.ofNat_toNat, ← List.append_assoc]
  · rintro ⟨rest, hinput, rfl⟩
    have hwords : input = protocolMagic ++ (u16ToLeBytes typeId ++ (u16ToLeBytes version ++
        (u16ToLeBytes fieldCount ++ rest))) := by
      rw [hinput, canonicalHeader, UInt16.ofNat_toNat]
      simp only [List.append_assoc]
    have hmagic : take input 0 protocolMagic.length = .ok (protocolMagic, 4) := by
      rw [hwords]
      exact (take_eq_ok_iff []).mpr ⟨_, rfl, rfl, rfl, by omega⟩
    have htype : readU16 input 4 = .ok (typeId, 6) := by
      rw [hwords]
      exact (readU16_eq_ok_iff protocolMagic).mpr ⟨_, rfl, rfl, by omega⟩
    have hversion : readU16 input 6 = .ok (version, 8) := by
      rw [hwords, ← List.append_assoc]
      exact (readU16_eq_ok_iff (protocolMagic ++ u16ToLeBytes typeId)).mpr ⟨_, rfl, rfl, by omega⟩
    have hcount : readU16 input 8 = .ok (fieldCount, 10) := by
      rw [hwords, ← List.append_assoc, ← List.append_assoc]
      exact (readU16_eq_ok_iff
        (protocolMagic ++ u16ToLeBytes typeId ++ u16ToLeBytes version)).mpr ⟨_, rfl, rfl, by omega⟩
    simp only [readHeader, hmagic, htype, hversion, hcount, ok_bind, ne_eq, not_true_eq_false,
      if_false]

/-- Decoding accepts exactly the encodings that fit the address space, and returns their view. -/
theorem decodeCanonicalFrame_eq_ok_iff {input : Bytes} {frame : CanonicalFrame} :
    decodeCanonicalFrame input = .ok frame ↔
      ∃ typeId version fields, IsCanonical fields ∧
        input = canonicalFrame typeId version fields ∧ input.length < 2 ^ Target.usizeBits ∧
        frame = viewOf typeId version fields := by
  have hspace : 10 < 2 ^ Target.usizeBits := lt_of_lt_of_le (by norm_num) Target.two_pow_le
  simp only [decodeCanonicalFrame_eq_readHeader, bind_eq_ok_iff, Prod.exists, readHeader_eq_ok_iff]
  constructor
  · rintro ⟨typeId, version, fieldCount, _, ⟨after, rfl, rfl⟩, stop, hread, hend⟩
    split_ifs at hend with htrailing
    obtain rfl := Except.ok.inj hend
    rw [← length_canonicalHeader typeId version fieldCount.toNat] at hread hspace
    obtain ⟨fields, rest, rfl, hlength, hascending, -, hlengths, rfl, hfits⟩ :=
      (decodeFields_eq_ok_iff _ hspace).mp hread
    -- What stands behind the last field would be trailing bytes.
    have hnothing : rest = [] := by
      apply List.length_eq_zero_iff.mp
      have htotal := not_not.mp htrailing
      simp only [List.length_append] at htotal
      omega
    subst hnothing
    have hinput : canonicalHeader typeId version fieldCount.toNat ++ (canonicalFields fields ++ []) =
        canonicalFrame typeId version fields := by
      rw [canonicalFrame, hlength, List.append_nil]
    rw [hinput]
    refine ⟨typeId, version, fields, ⟨hascending, ?_, hlengths⟩, rfl, ?_, ?_⟩
    · exact hlength ▸ fieldCount.toNat_lt
    · rwa [canonicalFrame, hlength, List.length_append]
    · rw [viewOf, hlength, UInt16.ofNat_toNat]
  · rintro ⟨typeId, version, fields, hfields, rfl, hfits, rfl⟩
    have hcount := hfields.count_toNat
    have hread : decodeFields (canonicalFrame typeId version fields) fields.length none 10 =
        .ok (canonicalFrame typeId version fields).length :=
      (decodeFields_eq_ok_iff (canonicalHeader typeId version fields.length) hspace).mpr
        ⟨fields, [], by rw [List.append_nil], rfl, hfields.ascending, by simp, hfields.length_lt,
          List.length_append, hfits⟩
    refine ⟨typeId, version, UInt16.ofNat fields.length, 10, ⟨canonicalFields fields, ?_, rfl⟩,
      (canonicalFrame typeId version fields).length, ?_, ?_⟩
    · rw [hcount, canonicalFrame]
    · rw [hcount, hread]
    · rw [if_neg (not_not.mpr rfl)]
      rfl

/-! ## The scanning accessors -/

namespace CanonicalFrame

/-- Every entry that the scans of a frame go through. -/
def scanFields (input : Bytes) : ℕ → ℕ → Except CanonicalError (List (UInt16 × Bytes))
  | 0, _ => .ok []
  | remaining + 1, offset => do
    let (field, offset) ← readField input offset
    let fields ← scanFields input remaining offset
    .ok (field :: fields)

section Scans

variable (before : Bytes) {fields : List (UInt16 × Bytes)}

/-- Scanning a written field section finds its first field and goes on behind it. -/
theorem readField_canonicalFields {fieldId : UInt16} {payload : Bytes}
    (hlength : payload.length < 2 ^ 32)
    (hfits : (before ++ canonicalFields ((fieldId, payload) :: fields)).length <
      2 ^ Target.usizeBits) :
    readField (before ++ canonicalFields ((fieldId, payload) :: fields)) before.length =
      .ok ((fieldId, payload), (before ++ canonicalField fieldId payload).length) := by
  rw [canonicalFields_cons] at hfits ⊢
  simp only [List.length_append] at hfits
  refine (readField_eq_ok_iff _).mpr ⟨_, rfl, hlength, List.length_append, ?_⟩
  rw [List.length_append]
  omega

/-- The whole scan of a written field section lists its fields. -/
theorem scanFields_canonicalFields (hlengths : ∀ field ∈ fields, field.2.length < 2 ^ 32)
    (hfits : (before ++ canonicalFields fields).length < 2 ^ Target.usizeBits) :
    scanFields (before ++ canonicalFields fields) fields.length before.length = .ok fields := by
  induction fields generalizing before with
  | nil => rfl
  | cons field fields ih =>
    obtain ⟨fieldId, payload⟩ := field
    have hread := readField_canonicalFields before (hlengths (fieldId, payload) (by simp)) hfits
    rw [canonicalFields_cons, ← List.append_assoc] at hfits
    have htail := ih _ (fun other hother ↦ hlengths other (by simp [hother])) hfits
    rw [List.append_assoc, ← canonicalFields_cons] at htail
    simp only [List.length_cons, scanFields, hread, ok_bind, htail]

/-- A scan for one field is a lookup in the scanned entries. -/
theorem scanField_eq_lookup {input : Bytes} {remaining offset : ℕ}
    (hscan : scanFields input remaining offset = .ok fields) (fieldId : UInt16) :
    scanField input fieldId remaining offset = fields.lookup fieldId := by
  induction remaining generalizing offset fields with
  | zero =>
    obtain rfl := Except.ok.inj hscan
    rfl
  | succ remaining ih =>
    simp only [scanFields, bind_eq_ok_iff, Prod.exists, Except.ok.injEq] at hscan
    obtain ⟨other, payload, next, hread, rest, hrest, rfl⟩ := hscan
    rw [scanField, toOption_eq_some_iff.mpr hread]
    change (if other = fieldId then some payload else scanField input fieldId remaining next) = _
    by_cases hid : other = fieldId
    · subst hid
      simp [List.lookup]
    · have hdiffer : (fieldId == other) = false := by simpa using Ne.symm hid
      rw [if_neg hid, ih hrest, List.lookup, hdiffer]

/-- The allow-list check fails on the first scanned entry outside the list. -/
theorem scanAllowed_eq_find {input : Bytes} {remaining offset : ℕ}
    (hscan : scanFields input remaining offset = .ok fields) (allowed : List UInt16) :
    scanAllowed input allowed remaining offset =
      match fields.find? (fun field ↦ field.1 ∉ allowed) with
      | none => .ok ()
      | some field => .error (.unexpectedField field.1) := by
  induction remaining generalizing offset fields with
  | zero =>
    obtain rfl := Except.ok.inj hscan
    rfl
  | succ remaining ih =>
    simp only [scanFields, bind_eq_ok_iff, Prod.exists, Except.ok.injEq] at hscan
    obtain ⟨other, payload, next, hread, rest, hrest, rfl⟩ := hscan
    simp only [scanAllowed, hread, ok_bind]
    by_cases hallowed : other ∈ allowed
    · rw [if_pos hallowed, ih hrest, List.find?_cons_of_neg (by simpa using hallowed)]
    · rw [if_neg hallowed, List.find?_cons_of_pos (by simpa using hallowed)]

end Scans

section Views

variable {typeId version : UInt16} {fields : List (UInt16 × Bytes)}

/-- Scanning the view of a canonical encoding lists the encoded fields. -/
theorem scanFields_viewOf (hfields : IsCanonical fields)
    (hfits : (canonicalFrame typeId version fields).length < 2 ^ Target.usizeBits) :
    scanFields (viewOf typeId version fields).input
      (viewOf typeId version fields).fieldCount.toNat
      (viewOf typeId version fields).fieldsStart = .ok fields := by
  have hscan := scanFields_canonicalFields
    (canonicalHeader typeId version fields.length) hfields.length_lt hfits
  rw [length_canonicalHeader] at hscan
  change scanFields (canonicalFrame typeId version fields) (UInt16.ofNat fields.length).toNat 10 = _
  rw [hfields.count_toNat]
  exact hscan

theorem field_viewOf (hfields : IsCanonical fields)
    (hfits : (canonicalFrame typeId version fields).length < 2 ^ Target.usizeBits)
    (fieldId : UInt16) :
    (viewOf typeId version fields).field fieldId = fields.lookup fieldId :=
  scanField_eq_lookup (scanFields_viewOf hfields hfits) fieldId

theorem requireOnlyFields_viewOf (hfields : IsCanonical fields)
    (hfits : (canonicalFrame typeId version fields).length < 2 ^ Target.usizeBits)
    (allowed : List UInt16) :
    (viewOf typeId version fields).requireOnlyFields allowed =
      match fields.find? (fun field ↦ field.1 ∉ allowed) with
      | none => .ok ()
      | some field => .error (.unexpectedField field.1) :=
  scanAllowed_eq_find (scanFields_viewOf hfields hfits) allowed

theorem requireOnlyFields_viewOf_eq_ok_iff (hfields : IsCanonical fields)
    (hfits : (canonicalFrame typeId version fields).length < 2 ^ Target.usizeBits)
    {allowed : List UInt16} {result : Unit} :
    (viewOf typeId version fields).requireOnlyFields allowed = .ok result ↔
      ∀ field ∈ fields, field.1 ∈ allowed := by
  rw [requireOnlyFields_viewOf hfields hfits]
  cases hfind : fields.find? (fun field ↦ field.1 ∉ allowed) with
  | none => simpa using hfind
  | some field =>
    have hmem := List.mem_of_find?_eq_some hfind
    have houtside : field.1 ∉ allowed := by simpa using List.find?_some hfind
    constructor
    · rintro ⟨⟩
    · intro hall
      exact absurd (hall field hmem) houtside

/-- The reported field is the smallest one outside the allow-list. -/
theorem requireOnlyFields_viewOf_eq_error_iff (hfields : IsCanonical fields)
    (hfits : (canonicalFrame typeId version fields).length < 2 ^ Target.usizeBits)
    {allowed : List UInt16} {failure : CanonicalError} :
    (viewOf typeId version fields).requireOnlyFields allowed = .error failure ↔
      ∃ fieldId, failure = .unexpectedField fieldId ∧
        IsLeast {id | id ∈ fields.map Prod.fst ∧ id ∉ allowed} fieldId := by
  rw [requireOnlyFields_viewOf hfields hfits]
  cases hfind : fields.find? (fun field ↦ field.1 ∉ allowed) with
  | none =>
    have hall : ∀ field ∈ fields, field.1 ∈ allowed := by simpa using hfind
    constructor
    · rintro ⟨⟩
    · rintro ⟨fieldId, -, ⟨hmem, houtside⟩, -⟩
      obtain ⟨field, hfield, rfl⟩ := List.mem_map.mp hmem
      exact absurd (hall field hfield) houtside
  | some field =>
    -- The entries before the found one are allowed, and those behind it are larger.
    obtain ⟨hfound, front, back, rfl, hfront⟩ := List.find?_eq_some_iff_append.mp hfind
    have houtside : field.1 ∉ allowed := by simpa using hfound
    have hleast : IsLeast {id | id ∈ (front ++ field :: back).map Prod.fst ∧ id ∉ allowed}
        field.1 := by
      refine ⟨⟨List.mem_map_of_mem (by simp), houtside⟩, ?_⟩
      rintro id ⟨hmem, hid⟩
      obtain ⟨other, hother, rfl⟩ := List.mem_map.mp hmem
      rcases List.mem_append.mp hother with hother | hother
      · exact absurd (by simpa using hfront other hother) hid
      · rcases List.mem_cons.mp hother with rfl | hother
        · exact le_rfl
        · have hsuffix := (List.pairwise_append.mp hfields.ascending).2.1
          exact ((ascending_cons.mp hsuffix).1 other hother).le
    constructor
    · intro herror
      exact ⟨field.1, (Except.error.inj herror).symm, hleast⟩
    · rintro ⟨fieldId, rfl, hfieldId⟩
      obtain rfl := hleast.unique hfieldId
      rfl

end Views

end CanonicalFrame

/-! ## Frames of a schema -/

section Schema

variable {typeId version : UInt16} {allowed : List UInt16} {input : Bytes}
  {fields : List (UInt16 × Bytes)}

/-- The opening checks of a schema decoder accept exactly the encodings of its type and version
that have no field outside the allow-list. -/
theorem decodeCanonicalStruct_eq_ok_iff {frame : CanonicalFrame} :
    decodeCanonicalStruct typeId version allowed input = .ok frame ↔
      ∃ fields, IsCanonical fields ∧ (∀ field ∈ fields, field.1 ∈ allowed) ∧
        input = canonicalFrame typeId version fields ∧ input.length < 2 ^ Target.usizeBits ∧
        frame = viewOf typeId version fields := by
  simp only [decodeCanonicalStruct, bind_eq_ok_iff, CanonicalFrame.requireType_eq_ok_iff,
    CanonicalFrame.requireVersion_eq_ok_iff, Except.ok.injEq]
  constructor
  · rintro ⟨_, hdecode, -, rfl, -, rfl, _, honly, rfl⟩
    obtain ⟨typeId, version, fields, hfields, rfl, hfits, rfl⟩ :=
      decodeCanonicalFrame_eq_ok_iff.mp hdecode
    exact ⟨fields, hfields,
      (CanonicalFrame.requireOnlyFields_viewOf_eq_ok_iff hfields hfits).mp honly, rfl, hfits, rfl⟩
  · rintro ⟨fields, hfields, hallowed, rfl, hfits, rfl⟩
    exact ⟨viewOf typeId version fields,
      decodeCanonicalFrame_eq_ok_iff.mpr ⟨typeId, version, fields, hfields, rfl, hfits, rfl⟩,
      (), rfl, (), rfl, (),
      (CanonicalFrame.requireOnlyFields_viewOf_eq_ok_iff hfields hfits).mpr hallowed, rfl⟩

variable (typeId version fields) in
/-- The encoding of the fields is representable, field by field and as a whole. -/
def Representable : Prop :=
  (∀ field ∈ fields, field.2.length < 2 ^ 32) ∧
    (canonicalFrame typeId version fields).length < 2 ^ Target.usizeBits

variable (typeId version) in
theorem representable_of_length_lt
    (hlength : (canonicalFrame typeId version fields).length < 2 ^ 32) :
    Representable typeId version fields := by
  refine ⟨?_, hlength.trans_le Target.two_pow_le⟩
  intro field hfield
  have hpart := length_le_length_canonicalFields hfield
  rw [length_canonicalFrame] at hlength
  omega

/-- The frames of a schema whose lookups are those of a given field list are the views of the
encoding of that list. -/
theorem decodeCanonicalStruct_lookup_iff (hascending : Ascending fields)
    (hallowed : ∀ field ∈ fields, field.1 ∈ allowed) (hcount : fields.length < 2 ^ 16) :
    (∃ frame, decodeCanonicalStruct typeId version allowed input = .ok frame ∧
        ∀ fieldId ∈ allowed, frame.field fieldId = fields.lookup fieldId) ↔
      Representable typeId version fields ∧ input = canonicalFrame typeId version fields := by
  constructor
  · rintro ⟨frame, hdecode, hlookup⟩
    obtain ⟨others, hothers, hcover, rfl, hfits, rfl⟩ := decodeCanonicalStruct_eq_ok_iff.mp hdecode
    obtain rfl : others = fields :=
      hothers.ascending.eq_of_lookup_eq_on hascending hcover hallowed
        fun fieldId hfieldId ↦ by
          rw [← hlookup fieldId hfieldId, CanonicalFrame.field_viewOf hothers hfits]
    exact ⟨⟨hothers.length_lt, hfits⟩, rfl⟩
  · rintro ⟨⟨hlengths, hfits⟩, rfl⟩
    have hfields : IsCanonical fields := ⟨hascending, hcount, hlengths⟩
    refine ⟨viewOf typeId version fields,
      decodeCanonicalStruct_eq_ok_iff.mpr ⟨fields, hfields, hallowed, rfl, hfits, rfl⟩, ?_⟩
    intro fieldId _
    exact CanonicalFrame.field_viewOf hfields hfits fieldId

variable (typeId version allowed) in
/-- A schema decoder that accepts the frames with the lookups of a valid value's fields, and
returns that value, is exact. -/
theorem exact_of_lookups {Error Value : Type} {decode : Bytes → Except Error Value}
    {valid : Value → Prop} {fieldsOf : Value → List (UInt16 × Bytes)}
    (hread : ∀ input value, decode input = .ok value ↔ valid value ∧
      ∃ frame, decodeCanonicalStruct typeId version allowed input = .ok frame ∧
        ∀ fieldId ∈ allowed, frame.field fieldId = (fieldsOf value).lookup fieldId)
    (hshape : ∀ value, Ascending (fieldsOf value) ∧
      (∀ field ∈ fieldsOf value, field.1 ∈ allowed) ∧ (fieldsOf value).length < 2 ^ 16) :
    Exact decode (fun value ↦ valid value ∧ Representable typeId version (fieldsOf value))
      fun value ↦ canonicalFrame typeId version (fieldsOf value) where
  ok_iff input value := by
    obtain ⟨hascending, hallowed, hcount⟩ := hshape value
    rw [hread, decodeCanonicalStruct_lookup_iff hascending hallowed hcount, and_assoc]

variable (typeId version allowed) in
/-- Where the encodings are short, representability goes without saying. -/
theorem exact_of_lookups_of_length_lt {Error Value : Type} {decode : Bytes → Except Error Value}
    {valid : Value → Prop} {fieldsOf : Value → List (UInt16 × Bytes)}
    (hread : ∀ input value, decode input = .ok value ↔ valid value ∧
      ∃ frame, decodeCanonicalStruct typeId version allowed input = .ok frame ∧
        ∀ fieldId ∈ allowed, frame.field fieldId = (fieldsOf value).lookup fieldId)
    (hshape : ∀ value, Ascending (fieldsOf value) ∧
      (∀ field ∈ fieldsOf value, field.1 ∈ allowed) ∧ (fieldsOf value).length < 2 ^ 16)
    (hlength : ∀ value, valid value →
      (canonicalFrame typeId version (fieldsOf value)).length < 2 ^ 32) :
    Exact decode valid fun value ↦ canonicalFrame typeId version (fieldsOf value) where
  ok_iff input value := by
    rw [(exact_of_lookups typeId version allowed hread hshape).ok_iff, and_assoc]
    apply and_congr_right
    intro hvalid
    exact and_iff_right (representable_of_length_lt typeId version (hlength value hvalid))

end Schema

/-- The accessors of a decoded frame agree with a type, a version and a list of fields.  The last
component covers every entry that a scan reads, whatever the scan is looking for. -/
structure CanonicalFrame.Agrees (frame : CanonicalFrame) (typeId version : UInt16)
    (fields : List (UInt16 × Bytes)) : Prop where
  typeId_eq : frame.typeId = typeId
  version_eq : frame.version = version
  fieldCount_eq : frame.fieldCount.toNat = fields.length
  field_eq_some_iff : ∀ fieldId bytes,
    frame.field fieldId = some bytes ↔ (fieldId, bytes) ∈ fields
  requireOnlyFields_eq_ok_iff : ∀ allowed,
    frame.requireOnlyFields allowed = .ok () ↔ ∀ field ∈ fields, field.1 ∈ allowed
  requireOnlyFields_eq_error_iff : ∀ allowed failure,
    frame.requireOnlyFields allowed = .error failure ↔
      ∃ fieldId, failure = .unexpectedField fieldId ∧
        IsLeast {id | id ∈ fields.map Prod.fst ∧ id ∉ allowed} fieldId
  scanFields_eq_ok :
    CanonicalFrame.scanFields frame.input frame.fieldCount.toNat frame.fieldsStart = .ok fields

theorem CanonicalFrame.agrees_viewOf {typeId version : UInt16} {fields : List (UInt16 × Bytes)}
    (hfields : IsCanonical fields)
    (hfits : (canonicalFrame typeId version fields).length < 2 ^ Target.usizeBits) :
    (viewOf typeId version fields).Agrees typeId version fields where
  typeId_eq := rfl
  version_eq := rfl
  fieldCount_eq := hfields.count_toNat
  field_eq_some_iff fieldId bytes := by
    rw [field_viewOf hfields hfits, hfields.ascending.lookup_eq_some_iff]
  requireOnlyFields_eq_ok_iff allowed := requireOnlyFields_viewOf_eq_ok_iff hfields hfits
  requireOnlyFields_eq_error_iff allowed failure :=
    requireOnlyFields_viewOf_eq_error_iff hfields hfits
  scanFields_eq_ok := scanFields_viewOf hfields hfits

/-- The encoder is injective on canonical field lists. -/
theorem canonicalFrame_injective {typeId version typeId' version' : UInt16}
    {fields fields' : List (UInt16 × Bytes)} (hfields : IsCanonical fields)
    (hfields' : IsCanonical fields')
    (hfits : (canonicalFrame typeId version fields).length < 2 ^ Target.usizeBits)
    (hframes : canonicalFrame typeId version fields = canonicalFrame typeId' version' fields') :
    typeId = typeId' ∧ version = version' ∧ fields = fields' := by
  have hview : viewOf typeId version fields = viewOf typeId' version' fields' := by
    have hfirst := decodeCanonicalFrame_eq_ok_iff.mpr
      ⟨typeId, version, fields, hfields, rfl, hfits, rfl⟩
    have hsecond := decodeCanonicalFrame_eq_ok_iff.mpr
      ⟨typeId', version', fields', hfields', rfl, hframes ▸ hfits, rfl⟩
    rw [← hframes, hfirst] at hsecond
    exact Except.ok.inj hsecond
  have hscan := CanonicalFrame.scanFields_viewOf hfields hfits
  rw [hview, CanonicalFrame.scanFields_viewOf hfields' (hframes ▸ hfits)] at hscan
  exact ⟨congrArg CanonicalFrame.typeId hview, congrArg CanonicalFrame.version hview,
    (Except.ok.inj hscan).symm⟩

/-- The strict decode is the canonicality check.  An input is accepted exactly when it is the
encoding of a type, a version and a canonical list of fields; these are unique, and the decoded
frame agrees with them; and accepted inputs whose frames agree with the same content are equal. -/
theorem decodeCanonicalFrame_exact (input : Slice) :
    ((∃ frame, decodeCanonicalFrame input.1 = .ok frame) ↔
        ∃ typeId version fields, IsCanonical fields ∧
          input.1 = canonicalFrame typeId version fields) ∧
      (∀ frame, decodeCanonicalFrame input.1 = .ok frame →
        ∃ typeId version fields, IsCanonical fields ∧
          input.1 = canonicalFrame typeId version fields ∧
          frame.Agrees typeId version fields ∧
          ∀ typeId' version' fields', IsCanonical fields' →
            input.1 = canonicalFrame typeId' version' fields' →
            typeId' = typeId ∧ version' = version ∧ fields' = fields) ∧
      (∀ (other : Slice) (frame frame' : CanonicalFrame) (typeId version : UInt16)
        (fields : List (UInt16 × Bytes)),
        decodeCanonicalFrame input.1 = .ok frame → decodeCanonicalFrame other.1 = .ok frame' →
        frame.Agrees typeId version fields → frame'.Agrees typeId version fields →
        input = other) := by
  have hfits : ∀ slice : Slice, slice.1.length < 2 ^ Target.usizeBits :=
    fun slice ↦ slice.2.trans_lt Target.isizeMax_lt
  refine ⟨⟨?_, ?_⟩, ?_, ?_⟩
  · rintro ⟨frame, hdecode⟩
    obtain ⟨typeId, version, fields, hfields, hinput, -, -⟩ :=
      decodeCanonicalFrame_eq_ok_iff.mp hdecode
    exact ⟨typeId, version, fields, hfields, hinput⟩
  · rintro ⟨typeId, version, fields, hfields, hinput⟩
    exact ⟨_, decodeCanonicalFrame_eq_ok_iff.mpr
      ⟨typeId, version, fields, hfields, hinput, hfits input, rfl⟩⟩
  · intro frame hdecode
    obtain ⟨typeId, version, fields, hfields, hinput, hlength, rfl⟩ :=
      decodeCanonicalFrame_eq_ok_iff.mp hdecode
    rw [hinput] at hlength
    refine ⟨typeId, version, fields, hfields, hinput,
      CanonicalFrame.agrees_viewOf hfields hlength, ?_⟩
    intro typeId' version' fields' hfields' hinput'
    exact canonicalFrame_injective hfields' hfields (by rw [← hinput']; exact hfits input)
      (hinput'.symm.trans hinput)
  · intro other frame frame' typeId version fields hframe hframe' hagrees hagrees'
    -- Each input is the encoding of what its own frame scans.
    have hencoding : ∀ (slice : Slice) (view : CanonicalFrame),
        decodeCanonicalFrame slice.1 = .ok view → view.Agrees typeId version fields →
        slice.1 = canonicalFrame typeId version fields := by
      intro slice view hdecode hview
      obtain ⟨typeId', version', fields', hfields', hslice, hlength, rfl⟩ :=
        decodeCanonicalFrame_eq_ok_iff.mp hdecode
      rw [hslice] at hlength
      have hscan := CanonicalFrame.scanFields_viewOf hfields' hlength
      rw [hview.scanFields_eq_ok] at hscan
      obtain rfl := Except.ok.inj hscan
      obtain rfl : typeId' = typeId := hview.typeId_eq
      obtain rfl : version' = version := hview.version_eq
      exact hslice
    apply Subtype.ext
    rw [hencoding input frame hframe hagrees, hencoding other frame' hframe' hagrees']

end SunriseEdgeLedger.Core
