import SunriseEdgeLedger.Core.Primitives
import SunriseEdgeLedger.Foundation.ExactDecoder

/-!
# Fixed-capacity containers and protocol identifiers

The value types that the decoders produce.  A bounded byte string, a bounded text and an access
manifest carry the invariant that their constructors establish, so a value that the code cannot
build does not exist here either.  The access manifest keeps the eight optional slots and the
separate length of the code, and its invariant says that exactly the first slots are filled.
-/

namespace SunriseEdgeLedger.Core

open Foundation

/-- A slice did not fit a fixed-capacity destination. -/
structure CapacityError where
  actual : ℕ
  maximum : ℕ
deriving DecidableEq, Repr

/-- A byte buffer holding at most `capacity` bytes. -/
structure BoundedBytes (capacity : ℕ) where
  bytes : Bytes
  length_le : bytes.length ≤ capacity
deriving DecidableEq

/-- Copy a slice, rejecting one that is longer than the capacity. -/
def BoundedBytes.fromSlice (capacity : ℕ) (slice : Bytes) :
    Except CapacityError (BoundedBytes capacity) :=
  if hlength : slice.length > capacity then .error ⟨slice.length, capacity⟩
  else .ok ⟨slice, Nat.le_of_not_gt hlength⟩

theorem BoundedBytes.fromSlice_eq_ok_iff {capacity : ℕ} {slice : Bytes}
    {bounded : BoundedBytes capacity} :
    BoundedBytes.fromSlice capacity slice = .ok bounded ↔ slice = bounded.bytes := by
  unfold BoundedBytes.fromSlice
  split_ifs with hlength
  · simp only [false_iff]
    rintro rfl
    exact absurd bounded.length_le (Nat.not_le_of_gt hlength)
  · constructor
    · intro hbounded
      obtain rfl := Except.ok.inj hbounded
      rfl
    · rintro rfl
      rfl

/-- A text holding at most `capacity` bytes of valid UTF-8. -/
structure BoundedStr (capacity : ℕ) where
  bytes : BoundedBytes capacity
  valid : (fromUtf8 bytes.bytes).isSome
deriving DecidableEq

/-- Why a bounded text was not built. -/
inductive BoundedStrError where
  | capacity (error : CapacityError)
  | invalidUtf8
deriving DecidableEq, Repr

namespace BoundedStr

variable {capacity : ℕ}

/-- Copy a slice into a bounded text, requiring valid UTF-8. -/
def fromUtf8Slice (capacity : ℕ) (slice : Bytes) : Except BoundedStrError (BoundedStr capacity) :=
  match (BoundedBytes.fromSlice capacity slice).mapError .capacity with
  | .error failure => .error failure
  | .ok bytes =>
    if hvalid : (fromUtf8 bytes.bytes).isSome then .ok ⟨bytes, hvalid⟩ else .error .invalidUtf8

/-- The text itself. -/
def asStr (bounded : BoundedStr capacity) : String := (fromUtf8 bounded.bytes.bytes).getD ""

def len (bounded : BoundedStr capacity) : ℕ := bounded.bytes.bytes.length

def isEmpty (bounded : BoundedStr capacity) : Bool := bounded.len == 0

/-- The bounded text with a given content. -/
def ofString (text : String) (hlength : (asBytes text).length ≤ capacity) : BoundedStr capacity :=
  ⟨⟨asBytes text, hlength⟩, by simp⟩

/-- The stored bytes are the bytes of the text. -/
theorem asBytes_asStr (bounded : BoundedStr capacity) :
    asBytes bounded.asStr = bounded.bytes.bytes := by
  obtain ⟨text, htext⟩ := Option.isSome_iff_exists.mp bounded.valid
  rw [asStr, htext]
  exact (fromUtf8_eq_some_iff.mp htext).symm

theorem length_asBytes_le (bounded : BoundedStr capacity) :
    (asBytes bounded.asStr).length ≤ capacity := by
  rw [asBytes_asStr]
  exact bounded.bytes.length_le

theorem asStr_injective : Function.Injective (asStr : BoundedStr capacity → String) := by
  rintro ⟨⟨first, _⟩, hfirst⟩ ⟨⟨second, _⟩, hsecond⟩ htext
  have hbytes := congrArg asBytes htext
  rw [asBytes_asStr, asBytes_asStr] at hbytes
  obtain rfl : first = second := hbytes
  rfl

@[simp]
theorem asStr_ofString (text : String) (hlength : (asBytes text).length ≤ capacity) :
    (ofString text hlength).asStr = text := by
  simp [asStr, ofString]

theorem isEmpty_iff (bounded : BoundedStr capacity) : bounded.isEmpty ↔ bounded.asStr = "" := by
  have hempty : asBytes "" = [] := rfl
  rw [isEmpty, len, beq_iff_eq, List.length_eq_zero_iff, ← asBytes_asStr, ← hempty,
    asBytes_injective.eq_iff]

/-- A slice becomes a bounded text exactly when it is the bytes of that text. -/
theorem fromUtf8Slice_eq_ok_iff {slice : Bytes} {bounded : BoundedStr capacity} :
    fromUtf8Slice capacity slice = .ok bounded ↔ slice = asBytes bounded.asStr := by
  rw [asBytes_asStr]
  unfold fromUtf8Slice
  constructor
  · intro hbounded
    split at hbounded
    · cases hbounded
    · rename_i bytes hbytes
      rw [mapError_eq_ok_iff, BoundedBytes.fromSlice_eq_ok_iff] at hbytes
      split_ifs at hbounded with hvalid
      obtain rfl := Except.ok.inj hbounded
      exact hbytes
  · rintro rfl
    have hbytes : BoundedBytes.fromSlice capacity bounded.bytes.bytes = .ok bounded.bytes :=
      BoundedBytes.fromSlice_eq_ok_iff.mpr rfl
    simp only [hbytes, mapError_ok, dif_pos bounded.valid]

end BoundedStr

/-! ## Protocol identifiers -/

/-- Consensus-supported hash algorithms. -/
inductive HashAlgorithmId where
  | sha2_256
  | sha3_256
  | blake3_256
deriving DecidableEq, Repr

/-- The wire identifier. -/
def HashAlgorithmId.asU16 : HashAlgorithmId → UInt16
  | .sha2_256 => 0x0001
  | .sha3_256 => 0x0002
  | .blake3_256 => 0x0003

/-- The display label. -/
def HashAlgorithmId.label : HashAlgorithmId → String
  | .sha2_256 => "sha2-256"
  | .sha3_256 => "sha3-256"
  | .blake3_256 => "blake3-256"

/-- Parse a wire identifier, rejecting anything unknown. -/
def HashAlgorithmId.tryFromU16 (value : UInt16) : Option HashAlgorithmId :=
  if value = 0x0001 then some .sha2_256
  else if value = 0x0002 then some .sha3_256
  else if value = 0x0003 then some .blake3_256
  else none

theorem HashAlgorithmId.tryFromU16_eq_some_iff {value : UInt16} {algorithm : HashAlgorithmId} :
    HashAlgorithmId.tryFromU16 value = some algorithm ↔ value = algorithm.asU16 := by
  unfold HashAlgorithmId.tryFromU16 HashAlgorithmId.asU16
  cases algorithm <;> split_ifs <;> simp_all

theorem HashAlgorithmId.label_injective : Function.Injective HashAlgorithmId.label := by
  intro first second hlabel
  cases first <;> cases second <;> first | rfl | exact absurd hlabel (by decide)

/-- A self-describing 32-byte digest. -/
@[ext]
structure Digest32 where
  algorithm : HashAlgorithmId
  bytes : ByteArrayN 32
deriving DecidableEq

/-- Signature schemes that the outer signature frame can name. -/
inductive SignatureSchemeId where
  | ed25519
  | secp256k1
deriving DecidableEq, Repr

/-- The wire identifier. -/
def SignatureSchemeId.asU16 : SignatureSchemeId → UInt16
  | .ed25519 => 0x0001
  | .secp256k1 => 0x0002

/-- The display label. -/
def SignatureSchemeId.label : SignatureSchemeId → String
  | .ed25519 => "ed25519"
  | .secp256k1 => "secp256k1"

theorem SignatureSchemeId.label_injective : Function.Injective SignatureSchemeId.label := by
  intro first second hlabel
  cases first <;> cases second <;> first | rfl | exact absurd hlabel (by decide)

/-- Parse a wire identifier, rejecting anything unknown. -/
def SignatureSchemeId.tryFromU16 (value : UInt16) : Option SignatureSchemeId :=
  if value = 0x0001 then some .ed25519
  else if value = 0x0002 then some .secp256k1
  else none

theorem SignatureSchemeId.tryFromU16_eq_some_iff {value : UInt16} {scheme : SignatureSchemeId} :
    SignatureSchemeId.tryFromU16 value = some scheme ↔ value = scheme.asU16 := by
  unfold SignatureSchemeId.tryFromU16 SignatureSchemeId.asU16
  cases scheme <;> split_ifs <;> simp_all

/-- A 32-byte object identifier. -/
@[ext]
structure ObjectId where
  bytes : ByteArrayN 32
deriving DecidableEq

/-- A 32-byte account address, which is also the Ed25519 public key of the account. -/
@[ext]
structure Address where
  bytes : ByteArrayN 32
deriving DecidableEq

/-- A 32-byte asset identifier. -/
@[ext]
structure AssetId where
  bytes : ByteArrayN 32
deriving DecidableEq

/-- A versioned, digest-authenticated reference to an object. -/
@[ext]
structure ObjectRef where
  id : ObjectId
  version : UInt64
  digest : Digest32
deriving DecidableEq

/-- The access that a transaction requests for an object. -/
inductive AccessMode where
  | read
  | write
  | consume
deriving DecidableEq, Repr

/-- The wire identifier. -/
def AccessMode.asU8 : AccessMode → UInt8
  | .read => 1
  | .write => 2
  | .consume => 3

/-- The display label. -/
def AccessMode.label : AccessMode → String
  | .read => "read"
  | .write => "write"
  | .consume => "consume"

/-- Parse a wire identifier, rejecting anything unknown. -/
def AccessMode.tryFromU8 (value : UInt8) : Option AccessMode :=
  if value = 1 then some .read
  else if value = 2 then some .write
  else if value = 3 then some .consume
  else none

theorem AccessMode.tryFromU8_eq_some_iff {value : UInt8} {mode : AccessMode} :
    AccessMode.tryFromU8 value = some mode ↔ value = mode.asU8 := by
  unfold AccessMode.tryFromU8 AccessMode.asU8
  cases mode <;> split_ifs <;> simp_all

theorem AccessMode.label_injective : Function.Injective AccessMode.label := by
  intro first second hlabel
  cases first <;> cases second <;> first | rfl | exact absurd hlabel (by decide)

/-- One entry of an access manifest. -/
@[ext]
structure AccessEntry where
  objectRef : ObjectRef
  mode : AccessMode
deriving DecidableEq

/-- A user-authorized fee payment. -/
@[ext]
structure FeePayment where
  assetId : AssetId
  maxFee : UInt64
  feeObject : ObjectRef
deriving DecidableEq

/-! ## Access manifests -/

/-- `MAX_ACCESS_ENTRIES` -/
def maxAccessEntries : ℕ := 8

/-- The bounded set of object accesses of a transaction: eight slots of which the first `len` are
filled. -/
structure AccessManifest where
  entries : List.Vector (Option AccessEntry) maxAccessEntries
  len : ℕ
  filled : ∃ content : List AccessEntry, content.length = len ∧ len ≤ maxAccessEntries ∧
    entries = padTo maxAccessEntries none (content.map some)
deriving DecidableEq

namespace AccessManifest

/-- The empty manifest. -/
def new : AccessManifest where
  entries := padTo maxAccessEntries none []
  len := 0
  filled := ⟨[], rfl, Nat.zero_le _, rfl⟩

/-- The entries in wire order. -/
def iter (manifest : AccessManifest) : List AccessEntry :=
  ((getRange manifest.entries.toList 0 manifest.len).getD []).filterMap id

/-- One entry by its index in wire order. -/
def get (manifest : AccessManifest) (index : ℕ) : Option AccessEntry :=
  if index ≥ manifest.len then none else manifest.entries.toList[index]?.bind id

def isEmpty (manifest : AccessManifest) : Bool := manifest.len == 0

/-- The manifest with given entries in wire order. -/
def ofList (content : List AccessEntry) (hcapacity : content.length ≤ maxAccessEntries) :
    AccessManifest where
  entries := padTo maxAccessEntries none (content.map some)
  len := content.length
  filled := ⟨content, rfl, hcapacity, rfl⟩

theorem exists_eq_ofList (manifest : AccessManifest) :
    ∃ content, ∃ hcapacity : content.length ≤ maxAccessEntries,
      manifest = ofList content hcapacity := by
  obtain ⟨entries, len, content, rfl, hcapacity, rfl⟩ := manifest
  exact ⟨content, hcapacity, rfl⟩

@[simp]
theorem iter_ofList (content : List AccessEntry) (hcapacity : content.length ≤ maxAccessEntries) :
    (ofList content hcapacity).iter = content := by
  have hread := getRange_padTo (none : Option AccessEntry)
    (content.map some) (by simpa using hcapacity)
  rw [List.length_map] at hread
  simp only [iter, ofList, hread, Option.getD_some, List.filterMap_map]
  exact List.filterMap_some

@[simp]
theorem length_iter (manifest : AccessManifest) : manifest.iter.length = manifest.len := by
  obtain ⟨content, hcapacity, rfl⟩ := manifest.exists_eq_ofList
  rw [iter_ofList, ofList]

theorem len_le (manifest : AccessManifest) : manifest.len ≤ maxAccessEntries := by
  obtain ⟨content, hcapacity, rfl⟩ := manifest.exists_eq_ofList
  exact hcapacity

/-- A manifest is determined by its entries in wire order. -/
theorem iter_injective : Function.Injective iter := by
  intro first second hiter
  obtain ⟨content, hfirst, rfl⟩ := first.exists_eq_ofList
  obtain ⟨content', hsecond, rfl⟩ := second.exists_eq_ofList
  rw [iter_ofList, iter_ofList] at hiter
  subst hiter
  rfl

/-- Access by index agrees with the listing. -/
theorem get_eq_getElem? (manifest : AccessManifest) (index : ℕ) :
    manifest.get index = manifest.iter[index]? := by
  obtain ⟨content, hcapacity, rfl⟩ := manifest.exists_eq_ofList
  have hfits : (content.map some).length ≤ maxAccessEntries := by simpa using hcapacity
  rw [iter_ofList]
  unfold get
  split_ifs with hindex
  · exact (List.getElem?_eq_none hindex).symm
  · have hslot : (ofList content hcapacity).entries.toList[index]? =
        (content.map some)[index]? := by
      have hindex' : index < (content.map some).length := by
        simpa [ofList] using Nat.lt_of_not_ge hindex
      rw [ofList, toList_padTo none _ hfits, List.getElem?_append_left hindex']
    rw [hslot, List.getElem?_map]
    cases content[index]? <;> rfl

theorem filled_push {entries pushed : List.Vector (Option AccessEntry) maxAccessEntries} {len : ℕ}
    (hfilled : ∃ content : List AccessEntry, content.length = len ∧ len ≤ maxAccessEntries ∧
      entries = padTo maxAccessEntries none (content.map some))
    {entry : AccessEntry} (hpushed : setAt entries len (some entry) = some pushed) :
    ∃ content : List AccessEntry, content.length = len + 1 ∧ len + 1 ≤ maxAccessEntries ∧
      pushed = padTo maxAccessEntries none (content.map some) := by
  obtain ⟨content, rfl, hcapacity, rfl⟩ := hfilled
  have hroom : content.length < maxAccessEntries := by
    by_contra hfull
    have hnone : setAt (padTo maxAccessEntries none (content.map some)) content.length
        (some entry) = none := by
      rw [setAt, overwrite_eq_none_iff, List.length_singleton]
      omega
    rw [hnone] at hpushed
    cases hpushed
  have hset := setAt_padTo (none : Option AccessEntry) (some entry) (content.map some)
    (show _ < maxAccessEntries by simpa using hroom)
  rw [List.length_map, hpushed] at hset
  refine ⟨content ++ [entry], by simp, hroom, ?_⟩
  simpa using Option.some.inj hset

/-- Append an entry, rejecting anything past the last slot. -/
def push (manifest : AccessManifest) (entry : AccessEntry) : Except CapacityError AccessManifest :=
  match hslot : setAt manifest.entries manifest.len (some entry) with
  | none => .error ⟨manifest.len + 1, maxAccessEntries⟩
  | some entries => .ok ⟨entries, manifest.len + 1, filled_push manifest.filled hslot⟩

@[simp]
theorem iter_new : new.iter = [] := iter_ofList [] (Nat.zero_le _)

/-- A push succeeds exactly while a slot is free, and then appends to the listing. -/
theorem push_eq_ok_iff {manifest pushed : AccessManifest} {entry : AccessEntry} :
    manifest.push entry = .ok pushed ↔
      manifest.len < maxAccessEntries ∧ pushed.iter = manifest.iter ++ [entry] := by
  obtain ⟨content, hcapacity, rfl⟩ := manifest.exists_eq_ofList
  by_cases hroom : content.length < maxAccessEntries
  · have hlength : (content ++ [entry]).length ≤ maxAccessEntries := by simpa using hroom
    have hset := setAt_padTo (none : Option AccessEntry) (some entry) (content.map some)
      (show _ < maxAccessEntries by simpa using hroom)
    rw [List.length_map] at hset
    have hpush : (ofList content hcapacity).push entry = .ok (ofList (content ++ [entry]) hlength) := by
      unfold push
      split
      · rename_i hnone
        exact absurd (hset.symm.trans hnone) (by simp)
      · rename_i entries hslot
        have hentries := Option.some.inj (hslot.symm.trans hset)
        congr 1
        subst hentries
        simp [ofList]
    rw [hpush, iter_ofList, Except.ok.injEq]
    constructor
    · rintro rfl
      exact ⟨hroom, iter_ofList _ _⟩
    · rintro ⟨-, hpushed⟩
      exact iter_injective (by rw [hpushed, iter_ofList])
  · have hpush : (ofList content hcapacity).push entry =
        .error ⟨content.length + 1, maxAccessEntries⟩ := by
      unfold push
      split
      · rfl
      · rename_i entries hslot
        obtain ⟨-, -, hfits, -⟩ := filled_push (ofList content hcapacity).filled hslot
        exact absurd hfits hroom
    rw [hpush]
    constructor
    · rintro ⟨⟩
    · rintro ⟨hfits, -⟩
      exact absurd hfits hroom

end AccessManifest

end SunriseEdgeLedger.Core
