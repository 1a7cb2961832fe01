import SunriseEdgeLedger.Core.NestedEncoding

/-!
# The access manifest decoder is exact

The documented encoding of an access manifest and the exactness of its decoder.  The manifest is the
one frame without an allow-list; there the field count takes its place.
-/

namespace SunriseEdgeLedger.Core

open Foundation

/-- The fields of the entries from a given index on. -/
def entryFields (index : ℕ) (entries : List AccessEntry) : List (UInt16 × Bytes) :=
  (entries.zipIdx index).map fun (entry, position) ↦
    (UInt16.ofNat (position + 2), accessEntryBytes entry)

def accessManifestFields (entries : List AccessEntry) : List (UInt16 × Bytes) :=
  (1, u32ToLeBytes (UInt32.ofNat entries.length)) :: entryFields 0 entries

def accessManifestBytes (manifest : AccessManifest) : Bytes :=
  canonicalFrame accessManifestTypeId 1 (accessManifestFields manifest.iter)

theorem length_entryFields (index : ℕ) (entries : List AccessEntry) :
    (canonicalFields (entryFields index entries)).length = 185 * entries.length := by
  induction entries generalizing index with
  | nil => rfl
  | cons entry entries ih =>
    have htail := ih (index + 1)
    simp only [entryFields, List.zipIdx_cons, List.map_cons, canonicalFields_cons,
      List.length_append, length_canonicalField, length_accessEntryBytes,
      List.length_cons] at htail ⊢
    omega

@[simp]
theorem length_accessManifestBytes (manifest : AccessManifest) :
    (accessManifestBytes manifest).length = 20 + 185 * manifest.len := by
  simp [accessManifestBytes, accessManifestFields, length_entryFields]
  omega

variable [Target]

section Duplicates

omit [Target]

/-- No two entries name the same object. -/
def DistinctObjects (entries : List AccessEntry) : Prop :=
  entries.Pairwise fun left right ↦ left.objectRef.id ≠ right.objectRef.id

/-- The object of the entry at this index is named again by a later entry. -/
def RecursLater (entries : List AccessEntry) (index : ℕ) : Prop :=
  ∃ left later right, entries[index]? = some left ∧ index < later ∧
    entries[later]? = some right ∧ left.objectRef.id = right.objectRef.id

variable {entry : AccessEntry} {entries : List AccessEntry}

/-- The scan looks behind the first entry, and then goes on with the others. -/
theorem duplicateObjectId_cons :
    duplicateObjectId (entry :: entries) =
      if ∃ right ∈ entries, entry.objectRef.id = right.objectRef.id then some entry.objectRef.id
      else duplicateObjectId entries := by
  have hany : (entries.any fun right ↦ entry.objectRef.id = right.objectRef.id) ↔
      ∃ right ∈ entries, entry.objectRef.id = right.objectRef.id := by
    simp
  rw [duplicateObjectId, List.zipIdx_cons, List.findSome?_cons, Nat.zero_add, List.zipIdx_succ,
    List.findSome?_map]
  simp only [Nat.zero_add, List.drop_succ_cons, List.drop_zero, hany]
  split_ifs
  · rfl
  · rfl

theorem recursLater_zero_cons : RecursLater (entry :: entries) 0 ↔
    ∃ right ∈ entries, entry.objectRef.id = right.objectRef.id := by
  constructor
  · rintro ⟨_, later, right, hleft, hlater, hright, hsame⟩
    obtain rfl := Option.some.inj hleft
    obtain ⟨position, rfl⟩ := Nat.exists_eq_succ_of_ne_zero hlater.ne'
    exact ⟨right, List.mem_of_getElem? hright, hsame⟩
  · rintro ⟨right, hright, hsame⟩
    obtain ⟨position, hposition⟩ := List.mem_iff_getElem?.mp hright
    exact ⟨entry, position + 1, right, rfl, Nat.succ_pos _, hposition, hsame⟩

theorem recursLater_succ_cons {index : ℕ} :
    RecursLater (entry :: entries) (index + 1) ↔ RecursLater entries index := by
  constructor
  · rintro ⟨left, later, right, hleft, hlater, hright, hsame⟩
    obtain ⟨position, rfl⟩ := Nat.exists_eq_succ_of_ne_zero (Nat.ne_zero_of_lt hlater)
    exact ⟨left, position, right, hleft, Nat.lt_of_succ_lt_succ hlater, hright, hsame⟩
  · rintro ⟨left, later, right, hleft, hlater, hright, hsame⟩
    exact ⟨left, later + 1, right, hleft, Nat.succ_lt_succ hlater, hright, hsame⟩

/-- The pairwise scan passes exactly the manifests without a repeated object. -/
theorem duplicateObjectId_eq_none_iff :
    duplicateObjectId entries = none ↔ DistinctObjects entries := by
  induction entries with
  | nil => simp [duplicateObjectId, DistinctObjects]
  | cons entry entries ih =>
    rw [duplicateObjectId_cons, DistinctObjects, List.pairwise_cons]
    split_ifs with hrepeated
    · obtain ⟨right, hright, hsame⟩ := hrepeated
      simp only [false_iff, not_and]
      intro hfirst
      exact absurd hsame (hfirst right hright)
    · push Not at hrepeated
      rw [ih, and_iff_right hrepeated]
      rfl

/-- The pairwise scan finds the object of the first entry that recurs. -/
theorem duplicateObjectId_eq_some_iff {objectId : ObjectId} :
    duplicateObjectId entries = some objectId ↔
      ∃ index left, IsLeast {index | RecursLater entries index} index ∧
        entries[index]? = some left ∧ left.objectRef.id = objectId := by
  induction entries with
  | nil => simp [duplicateObjectId, RecursLater, IsLeast]
  | cons entry entries ih =>
    rw [duplicateObjectId_cons]
    split_ifs with hrepeated
    · rw [← recursLater_zero_cons] at hrepeated
      have hleast : IsLeast {index | RecursLater (entry :: entries) index} 0 :=
        ⟨hrepeated, fun _ _ ↦ Nat.zero_le _⟩
      constructor
      · intro hobject
        exact ⟨0, entry, hleast, rfl, Option.some.inj hobject⟩
      · rintro ⟨index, left, hindex, hleft, rfl⟩
        obtain rfl := hindex.unique hleast
        rw [Option.some.inj hleft]
    · rw [← recursLater_zero_cons] at hrepeated
      -- The first entry does not recur, so the indices are those of the others, moved by one.
      have hshift : ∀ index, IsLeast {index | RecursLater (entry :: entries) index} (index + 1) ↔
          IsLeast {index | RecursLater entries index} index := by
        intro index
        constructor
        · rintro ⟨hmem, hleast⟩
          refine ⟨recursLater_succ_cons.mp hmem, fun other hother ↦ ?_⟩
          exact Nat.le_of_succ_le_succ (hleast (recursLater_succ_cons.mpr hother))
        · rintro ⟨hmem, hleast⟩
          refine ⟨recursLater_succ_cons.mpr hmem, fun other hother ↦ ?_⟩
          cases other with
          | zero => exact absurd hother hrepeated
          | succ other => exact Nat.succ_le_succ (hleast (recursLater_succ_cons.mp hother))
      rw [ih]
      constructor
      · rintro ⟨index, left, hindex, hleft, hobject⟩
        exact ⟨index + 1, left, (hshift index).mpr hindex, hleft, hobject⟩
      · rintro ⟨index, left, hindex, hleft, hobject⟩
        cases index with
        | zero => exact absurd hindex.1 hrepeated
        | succ index => exact ⟨index, left, (hshift index).mp hindex, hleft, hobject⟩

end Duplicates

/-! ## The decoder -/

omit [Target] in
theorem u16TryFrom_eq_some {value : ℕ} (hvalue : value < 2 ^ 16) :
    u16TryFrom value = some (UInt16.ofNat value) :=
  if_pos hvalue

omit [Target] in
theorem AccessManifest.len_of_iter_eq_append {manifest pushed : AccessManifest}
    {entry : AccessEntry} (hpushed : pushed.iter = manifest.iter ++ [entry]) :
    pushed.len = manifest.len + 1 := by
  rw [← length_iter, hpushed, List.length_append, length_iter, List.length_singleton]

omit [Target] in
/-- While a slot is free, there is a manifest with one more entry. -/
theorem AccessManifest.exists_iter_eq_append (manifest : AccessManifest)
    (hroom : manifest.len < maxAccessEntries) (entry : AccessEntry) :
    ∃ pushed : AccessManifest, pushed.iter = manifest.iter ++ [entry] := by
  refine ⟨.ofList (manifest.iter ++ [entry]) ?_, iter_ofList _ _⟩
  rwa [List.length_append, length_iter, List.length_singleton]

/-- The entry rounds append exactly the entries whose encodings stand in the fields of their
positions, as long as the slots last. -/
theorem decodeEntries_eq_ok_iff {frame : CanonicalFrame} {remaining : ℕ}
    {manifest result : AccessManifest} :
    decodeEntries frame remaining manifest.len manifest = .ok result ↔
      ∃ entries : List AccessEntry, entries.length = remaining ∧
        manifest.len + remaining ≤ maxAccessEntries ∧ result.iter = manifest.iter ++ entries ∧
        ∀ pair ∈ entries.zipIdx manifest.len,
          frame.field (UInt16.ofNat (pair.2 + 2)) = some (accessEntryBytes pair.1) := by
  induction remaining generalizing manifest with
  | zero =>
    simp only [decodeEntries, Except.ok.injEq, List.length_eq_zero_iff]
    constructor
    · rintro rfl
      exact ⟨[], rfl, manifest.len_le, by simp, by simp⟩
    · rintro ⟨_, rfl, -, hresult, -⟩
      exact AccessManifest.iter_injective (by simpa using hresult.symm)
  | succ remaining ih =>
    have hsmall : manifest.len + 2 < 2 ^ 16 :=
      (Nat.add_le_add_right manifest.len_le 2).trans_lt (by decide)
    have hposition : checkedAdd manifest.len 2 = some (manifest.len + 2) :=
      checkedAdd_eq_some_iff.mpr
        ⟨rfl, (hsmall.trans (by norm_num)).trans_le Target.two_pow_le⟩
    simp only [decodeEntries, hposition, u16TryFrom_eq_some hsmall, okOr_some, ok_bind,
      bind_eq_ok_iff, mapError_eq_ok_iff, CanonicalFrame.requiredField_eq_ok_iff,
      decodeAccessEntry_exact.ok_iff, true_and]
    constructor
    · rintro ⟨_, hfield, entry, rfl, pushed, hpush, hrest⟩
      obtain ⟨hroom, hpushed⟩ := AccessManifest.push_eq_ok_iff.mp hpush
      have hlen := AccessManifest.len_of_iter_eq_append hpushed
      rw [← hlen] at hrest
      obtain ⟨entries, rfl, hfits, hresult, hfields⟩ := ih.mp hrest
      rw [hlen] at hfits hfields
      refine ⟨entry :: entries, rfl, by omega, by simp [hresult, hpushed], ?_⟩
      rw [List.zipIdx_cons, List.forall_mem_cons]
      exact ⟨hfield, hfields⟩
    · rintro ⟨entries, hcount, hfits, hresult, hfields⟩
      cases entries with
      | nil => simp at hcount
      | cons entry entries =>
        rw [List.zipIdx_cons, List.forall_mem_cons] at hfields
        have hroom : manifest.len < maxAccessEntries := by omega
        obtain ⟨pushed, hpushed⟩ := manifest.exists_iter_eq_append hroom entry
        have hlen := AccessManifest.len_of_iter_eq_append hpushed
        refine ⟨_, hfields.1, entry, rfl, pushed,
          AccessManifest.push_eq_ok_iff.mpr ⟨hroom, hpushed⟩, ?_⟩
        rw [← hlen]
        refine ih.mpr ⟨entries, by simpa using hcount, ?_, by simp [hresult, hpushed], ?_⟩
        · rw [hlen]
          omega
        · rw [hlen]
          exact hfields.2

section ManifestFields

omit [Target]

variable {index : ℕ} {entries : List AccessEntry}

/-- The field of an entry carries an identifier at or above the one of the first entry. -/
theorem le_of_mem_entryFields {field : UInt16 × Bytes} (hfits : index + entries.length + 2 ≤ 2 ^ 16)
    (hfield : field ∈ entryFields index entries) : index + 2 ≤ field.1.toNat := by
  obtain ⟨⟨entry, position⟩, hmem, rfl⟩ := List.mem_map.mp hfield
  obtain ⟨hle, hlt, -⟩ := List.mem_zipIdx hmem
  change index + 2 ≤ (UInt16.ofNat (position + 2)).toNat
  rw [UInt16.toNat_ofNat', Nat.mod_eq_of_lt (by omega)]
  omega

theorem ascending_entryFields (hfits : index + entries.length + 2 ≤ 2 ^ 16) :
    Ascending (entryFields index entries) := by
  induction entries generalizing index with
  | nil => exact ascending_nil
  | cons entry entries ih =>
    rw [List.length_cons] at hfits
    rw [entryFields, List.zipIdx_cons, List.map_cons, ascending_cons]
    refine ⟨?_, ih (by omega)⟩
    intro other hother
    have hle := le_of_mem_entryFields (by omega) hother
    change UInt16.ofNat (index + 2) < other.1
    rw [UInt16.lt_iff_toNat_lt, UInt16.toNat_ofNat', Nat.mod_eq_of_lt (by omega)]
    omega

theorem ascending_accessManifestFields (hfits : entries.length ≤ maxAccessEntries) :
    Ascending (accessManifestFields entries) := by
  have hsmall : 0 + entries.length + 2 ≤ 2 ^ 16 :=
    (Nat.add_le_add_right ((Nat.zero_add _).trans_le hfits) 2).trans (by decide)
  refine ascending_cons.mpr ⟨?_, ascending_entryFields hsmall⟩
  intro other hother
  have hle := le_of_mem_entryFields hsmall hother
  change 1 < other.1
  rw [UInt16.lt_iff_toNat_lt, UInt16.toNat_one]
  omega

@[simp]
theorem length_accessManifestFields :
    (accessManifestFields entries).length = entries.length + 1 := by
  simp [accessManifestFields, entryFields]

/-- A list of fields looks up the count and every entry exactly when it contains their fields. -/
theorem accessManifestFields_subset_iff {fields : List (UInt16 × Bytes)}
    (hfields : Ascending fields) :
    accessManifestFields entries ⊆ fields ↔
      fields.lookup 1 = some (u32ToLeBytes (UInt32.ofNat entries.length)) ∧
        ∀ pair ∈ entries.zipIdx,
          fields.lookup (UInt16.ofNat (pair.2 + 2)) = some (accessEntryBytes pair.1) := by
  rw [accessManifestFields, List.cons_subset, hfields.lookup_eq_some_iff]
  apply and_congr_right
  intro _
  constructor
  · intro hsubset pair hpair
    exact hfields.lookup_eq_some_iff.mpr (hsubset (List.mem_map_of_mem hpair))
  · intro hlookup field hfield
    obtain ⟨pair, hpair, rfl⟩ := List.mem_map.mp hfield
    exact hfields.lookup_eq_some_iff.mp (hlookup pair hpair)

/-- As many fields as a manifest has, with the same lookups, are the fields of the manifest. -/
theorem accessManifestFields_eq_of_lookups {fields : List (UInt16 × Bytes)}
    (hfields : Ascending fields) (hfits : entries.length ≤ maxAccessEntries)
    (hlength : fields.length = entries.length + 1)
    (hlookups : fields.lookup 1 = some (u32ToLeBytes (UInt32.ofNat entries.length)) ∧
      ∀ pair ∈ entries.zipIdx,
        fields.lookup (UInt16.ofNat (pair.2 + 2)) = some (accessEntryBytes pair.1)) :
    accessManifestFields entries = fields := by
  apply (ascending_accessManifestFields hfits).eq_of_subset_of_length_le hfields
  · exact (accessManifestFields_subset_iff hfields).mpr hlookups
  · rw [hlength, length_accessManifestFields]

theorem isCanonical_accessManifestFields (hfits : entries.length ≤ maxAccessEntries) :
    IsCanonical (accessManifestFields entries) := by
  have hsmall : entries.length ≤ 8 := hfits
  refine ⟨ascending_accessManifestFields hfits, by simp; omega, ?_⟩
  intro field hfield
  refine (length_le_length_canonicalFields hfield).trans_lt ?_
  simp [accessManifestFields, length_entryFields]
  omega

theorem AccessManifest.isCanonical_fields (manifest : AccessManifest) :
    IsCanonical (accessManifestFields manifest.iter) :=
  isCanonical_accessManifestFields (manifest.length_iter.trans_le manifest.len_le)

end ManifestFields

/-- The decoder up to the scan for a repeated object. -/
def decodeManifestEntries (input : Bytes) (maxEntries : ℕ) :
    Except TransactionError AccessManifest := do
  let frame ← (decodeCanonicalFrame input).mapError .canonical
  (frame.requireType accessManifestTypeId).mapError .canonical
  (frame.requireVersion 1).mapError .canonical
  let declaredCount ← (frame.requiredU32 1).mapError .canonical
  let declaredCount ← okOr .accessManifestShape (usizeTryFrom declaredCount)
  ensure (declaredCount ≤ maxEntries) .accessManifestShape
  let expectedFieldCount ← okOr .accessManifestShape (checkedAdd declaredCount 1)
  ensure (frame.fieldCount.toNat = expectedFieldCount) .accessManifestShape
  decodeEntries frame declaredCount 0 .new

/-- The scan for a repeated object, as the last step of the decoder. -/
def rejectRepeated (manifest : AccessManifest) : Except TransactionError AccessManifest :=
  match duplicateObjectId manifest.iter with
  | some objectId => .error (.duplicateObjectId objectId)
  | none => .ok manifest

omit [Target] in
theorem rejectRepeated_eq_ok_iff {manifest result : AccessManifest} :
    rejectRepeated manifest = .ok result ↔
      DistinctObjects manifest.iter ∧ manifest = result := by
  rw [rejectRepeated, ← duplicateObjectId_eq_none_iff]
  cases hscan : duplicateObjectId manifest.iter with
  | none => simp
  | some objectId => simp

omit [Target] in
theorem rejectRepeated_eq_error_iff {manifest : AccessManifest} {objectId : ObjectId} :
    rejectRepeated manifest = .error (.duplicateObjectId objectId) ↔
      duplicateObjectId manifest.iter = some objectId := by
  rw [rejectRepeated]
  cases hscan : duplicateObjectId manifest.iter with
  | none => simp
  | some objectId => simp

theorem decodeAccessManifest_eq_bind (input : Bytes) (maxEntries : ℕ) :
    decodeAccessManifest input maxEntries =
      decodeManifestEntries input maxEntries >>= rejectRepeated := by
  simp only [decodeAccessManifest, decodeManifestEntries, bind_assoc]
  rfl

theorem length_accessManifestBytes_lt_usize (manifest : AccessManifest) :
    (accessManifestBytes manifest).length < 2 ^ Target.usizeBits := by
  have hlen : manifest.len ≤ 8 := manifest.len_le
  refine lt_of_lt_of_le ?_ Target.two_pow_le
  rw [length_accessManifestBytes]
  omega

/-- The fields of a manifest are decoded to its entries. -/
theorem decodeEntries_viewOf (manifest : AccessManifest) :
    decodeEntries (viewOf accessManifestTypeId 1 (accessManifestFields manifest.iter)) manifest.len
      0 .new = .ok manifest := by
  have hfields := manifest.isCanonical_fields
  have hlookups := (accessManifestFields_subset_iff hfields.ascending).mp (List.Subset.refl _)
  apply (@decodeEntries_eq_ok_iff _ _ _ .new manifest).mpr
  refine ⟨manifest.iter, manifest.length_iter, ?_, by simp, ?_⟩
  · exact (Nat.zero_add _).trans_le manifest.len_le
  · simp only [CanonicalFrame.field_viewOf hfields (length_accessManifestBytes_lt_usize manifest)]
    exact hlookups.2

/-- Up to the scan, the decoder accepts exactly the encodings of the manifests within its bound. -/
theorem decodeManifestEntries_eq_ok_iff {input : Bytes} {maxEntries : ℕ}
    {manifest : AccessManifest} :
    decodeManifestEntries input maxEntries = .ok manifest ↔
      manifest.len ≤ maxEntries ∧ input = accessManifestBytes manifest := by
  simp only [decodeManifestEntries, bind_eq_ok_iff, mapError_eq_ok_iff, okOr_eq_ok_iff,
    ensure_eq_ok_iff, CanonicalFrame.requireType_eq_ok_iff,
    CanonicalFrame.requireVersion_eq_ok_iff, CanonicalFrame.requiredU32_eq_ok_iff,
    usizeTryFrom_eq, checkedAdd_eq_some_iff, Option.some.injEq]
  constructor
  · rintro ⟨frame, hdecode, -, htype, -, hversion, count, hcount, _, rfl, -, hmax, _, ⟨rfl, -⟩, -,
      hfieldCount, hentries⟩
    obtain ⟨entries, hlength, hfits, hiter, hlookup⟩ :=
      decodeEntries_eq_ok_iff.mp (show decodeEntries frame count.toNat AccessManifest.new.len
        AccessManifest.new = .ok manifest from hentries)
    rw [AccessManifest.iter_new, List.nil_append] at hiter
    obtain ⟨typeId, version, fields, hfields, rfl, hinput, rfl⟩ :=
      decodeCanonicalFrame_eq_ok_iff.mp hdecode
    obtain rfl : typeId = accessManifestTypeId := htype
    obtain rfl : version = 1 := hversion
    simp only [CanonicalFrame.field_viewOf hfields hinput] at hcount hlookup
    have hsmall : entries.length ≤ maxAccessEntries :=
      hlength.trans_le ((Nat.le_add_left _ _).trans hfits)
    have htotal : fields.length = entries.length + 1 := by
      rw [hlength, ← hfields.count_toNat]
      exact hfieldCount
    have hcountBytes : UInt32.ofNat entries.length = count := by rw [hlength, UInt32.ofNat_toNat]
    have hsame := accessManifestFields_eq_of_lookups hfields.ascending hsmall htotal
      ⟨hcountBytes ▸ hcount, hlookup⟩
    constructor
    · rwa [← AccessManifest.length_iter, hiter, hlength]
    · rw [accessManifestBytes, hiter, hsame]
  · rintro ⟨hmax, rfl⟩
    have hlen : manifest.len ≤ 8 := manifest.len_le
    have hfields := manifest.isCanonical_fields
    have hfits := length_accessManifestBytes_lt_usize manifest
    have hlookups := (accessManifestFields_subset_iff hfields.ascending).mp (List.Subset.refl _)
    have hcount : (UInt32.ofNat manifest.iter.length).toNat = manifest.len := by
      rw [AccessManifest.length_iter, UInt32.toNat_ofNat', Nat.mod_eq_of_lt (by omega)]
    refine ⟨viewOf accessManifestTypeId 1 (accessManifestFields manifest.iter),
      decodeCanonicalFrame_eq_ok_iff.mpr ⟨_, _, _, hfields, rfl, hfits, rfl⟩, (), rfl, (), rfl,
      UInt32.ofNat manifest.iter.length, ?_, manifest.len, hcount, ⟨⟩, hmax, manifest.len + 1,
      ⟨rfl, lt_of_lt_of_le (by omega) Target.two_pow_le⟩, ⟨⟩, ?_, decodeEntries_viewOf manifest⟩
    · rw [CanonicalFrame.field_viewOf hfields hfits]
      exact hlookups.1
    · calc
        (UInt16.ofNat (accessManifestFields manifest.iter).length).toNat =
            (accessManifestFields manifest.iter).length := hfields.count_toNat
        _ = manifest.len + 1 := by
          rw [length_accessManifestFields, AccessManifest.length_iter]

/-- The manifest decoder accepts exactly the encodings of the manifests within its bound that name
no object twice. -/
theorem decodeAccessManifest_eq_ok_iff {input : Bytes} {maxEntries : ℕ}
    {manifest : AccessManifest} :
    decodeAccessManifest input maxEntries = .ok manifest ↔
      manifest.len ≤ maxEntries ∧ DistinctObjects manifest.iter ∧
        input = accessManifestBytes manifest := by
  simp only [decodeAccessManifest_eq_bind, bind_eq_ok_iff, decodeManifestEntries_eq_ok_iff,
    rejectRepeated_eq_ok_iff]
  constructor
  · rintro ⟨decoded, ⟨hmax, rfl⟩, hdistinct, rfl⟩
    exact ⟨hmax, hdistinct, rfl⟩
  · rintro ⟨hmax, hdistinct, rfl⟩
    exact ⟨manifest, ⟨hmax, rfl⟩, hdistinct, rfl⟩

section Failures

omit [Target] in
/-- The failure is not the report of a repeated object. -/
def ReportsNoDuplicate : TransactionError → Prop
  | .duplicateObjectId _ => False
  | _ => True

omit [Target] in
theorem failsOnlyWith_canonical_bind {α β : Type} {computation : Except CanonicalError α}
    {next : α → Except TransactionError β}
    (hnext : ∀ value, FailsOnlyWith ReportsNoDuplicate (next value)) :
    FailsOnlyWith ReportsNoDuplicate (computation.mapError .canonical >>= next) :=
  failsOnlyWith_mapError_bind (fun _ ↦ trivial) hnext

theorem failsOnlyWith_decodeObjectId (input : Bytes) :
    FailsOnlyWith ReportsNoDuplicate (decodeObjectId input) := by
  unfold decodeObjectId
  apply failsOnlyWith_canonical_bind
  intro frame
  refine failsOnlyWith_mapError_bind (fun _ ↦ trivial) ?_
  intro bytes
  exact failsOnlyWith_ok _

theorem failsOnlyWith_decodeDigest32 (input : Bytes) :
    FailsOnlyWith ReportsNoDuplicate (decodeDigest32 input) := by
  unfold decodeDigest32
  apply failsOnlyWith_canonical_bind
  intro frame
  apply failsOnlyWith_canonical_bind
  intro algorithmId
  refine failsOnlyWith_okOr_bind trivial ?_
  intro algorithm _
  apply failsOnlyWith_canonical_bind
  intro bytes
  exact failsOnlyWith_ok _

theorem failsOnlyWith_decodeObjectRef (input : Bytes) :
    FailsOnlyWith ReportsNoDuplicate (decodeObjectRef input) := by
  unfold decodeObjectRef
  apply failsOnlyWith_canonical_bind
  intro frame
  apply failsOnlyWith_canonical_bind
  intro idBytes
  apply failsOnlyWith_bind (failsOnlyWith_decodeObjectId idBytes)
  intro objectId _
  apply failsOnlyWith_canonical_bind
  intro version
  apply failsOnlyWith_canonical_bind
  intro digestBytes
  apply failsOnlyWith_bind (failsOnlyWith_decodeDigest32 digestBytes)
  intro digest _
  exact failsOnlyWith_ok _

theorem failsOnlyWith_decodeAccessMode (input : Bytes) :
    FailsOnlyWith ReportsNoDuplicate (decodeAccessMode input) := by
  unfold decodeAccessMode
  apply failsOnlyWith_canonical_bind
  intro frame
  apply failsOnlyWith_canonical_bind
  intro bytes
  refine failsOnlyWith_okOr_bind trivial ?_
  intro array _
  exact failsOnlyWith_okOr trivial

theorem failsOnlyWith_decodeAccessEntry (input : Bytes) :
    FailsOnlyWith ReportsNoDuplicate (decodeAccessEntry input) := by
  unfold decodeAccessEntry
  apply failsOnlyWith_canonical_bind
  intro frame
  apply failsOnlyWith_canonical_bind
  intro refBytes
  apply failsOnlyWith_bind (failsOnlyWith_decodeObjectRef refBytes)
  intro objectRef _
  apply failsOnlyWith_canonical_bind
  intro modeBytes
  apply failsOnlyWith_bind (failsOnlyWith_decodeAccessMode modeBytes)
  intro mode _
  exact failsOnlyWith_ok _

theorem failsOnlyWith_decodeEntries (frame : CanonicalFrame) (remaining index : ℕ)
    (manifest : AccessManifest) :
    FailsOnlyWith ReportsNoDuplicate (decodeEntries frame remaining index manifest) := by
  induction remaining generalizing index manifest with
  | zero => exact failsOnlyWith_ok _
  | succ remaining ih =>
    rw [decodeEntries]
    refine failsOnlyWith_okOr_bind trivial ?_
    intro position _
    refine failsOnlyWith_okOr_bind trivial ?_
    intro fieldId _
    apply failsOnlyWith_canonical_bind
    intro entryBytes
    apply failsOnlyWith_bind (failsOnlyWith_decodeAccessEntry entryBytes)
    intro entry _
    refine failsOnlyWith_mapError_bind (fun _ ↦ trivial) ?_
    intro pushed
    exact ih (index + 1) pushed

theorem failsOnlyWith_decodeManifestEntries (input : Bytes) (maxEntries : ℕ) :
    FailsOnlyWith ReportsNoDuplicate (decodeManifestEntries input maxEntries) := by
  unfold decodeManifestEntries
  apply failsOnlyWith_canonical_bind
  intro frame
  apply failsOnlyWith_canonical_bind
  intro _
  apply failsOnlyWith_canonical_bind
  intro _
  apply failsOnlyWith_canonical_bind
  intro declaredCount
  refine failsOnlyWith_okOr_bind trivial ?_
  intro declaredCount _
  refine failsOnlyWith_ensure_bind trivial ?_
  intro _
  refine failsOnlyWith_okOr_bind trivial ?_
  intro expectedFieldCount _
  refine failsOnlyWith_ensure_bind trivial ?_
  intro _
  exact failsOnlyWith_decodeEntries frame declaredCount 0 .new

end Failures

/-- A repeated object is reported exactly for the encodings of manifests within the bound, and is
then the object that the scan finds. -/
theorem decodeAccessManifest_eq_duplicate_iff {input : Bytes} {maxEntries : ℕ}
    {objectId : ObjectId} :
    decodeAccessManifest input maxEntries = .error (.duplicateObjectId objectId) ↔
      ∃ manifest : AccessManifest, manifest.len ≤ maxEntries ∧
        input = accessManifestBytes manifest ∧
        duplicateObjectId manifest.iter = some objectId := by
  rw [decodeAccessManifest_eq_bind, bind_eq_error_iff]
  simp only [decodeManifestEntries_eq_ok_iff, rejectRepeated_eq_error_iff]
  constructor
  · rintro (hfailed | ⟨manifest, ⟨hmax, hinput⟩, hscan⟩)
    · exact absurd (failsOnlyWith_decodeManifestEntries input maxEntries _ hfailed) id
    · exact ⟨manifest, hmax, hinput, hscan⟩
  · rintro ⟨manifest, hmax, hinput, hscan⟩
    exact Or.inr ⟨manifest, ⟨hmax, hinput⟩, hscan⟩

/-! ## Acceptance in terms of the fields -/

/-- The byte string is a canonical manifest frame of these entries: its fields are the consecutive
identifiers from 1 on, the first with the number of entries, and each of the others with the entry
of its position. -/
def EncodesEntries (input : Bytes) (entries : List AccessEntry) : Prop :=
  ∃ fields, IsCanonical fields ∧ input = canonicalFrame 0x5002 1 fields ∧
    fields.map Prod.fst = (List.range (entries.length + 1)).map (fun i ↦ UInt16.ofNat (i + 1)) ∧
    fields.lookup 1 = some (toLittleEndian 4 entries.length) ∧
    ∀ index entry, entries[index]? = some entry → ∃ entryBytes,
      fields.lookup (UInt16.ofNat (index + 2)) = some entryBytes ∧
        decodeAccessEntry entryBytes = .ok entry

omit [Target] in
theorem map_fst_accessManifestFields (entries : List AccessEntry) :
    (accessManifestFields entries).map Prod.fst =
      (List.range (entries.length + 1)).map fun i ↦ UInt16.ofNat (i + 1) := by
  have hpositions : (entryFields 0 entries).map Prod.fst =
      (entries.zipIdx.map Prod.snd).map fun i ↦ UInt16.ofNat (i + 2) := by
    rw [entryFields, List.map_map, List.map_map]
    rfl
  rw [accessManifestFields, List.map_cons, hpositions, List.zipIdx_map_snd, List.range_succ_eq_map,
    List.map_cons, List.map_map, List.range_eq_range']
  rfl

/-- Within the slots of a manifest, such a frame is the encoding of the entries. -/
theorem encodesEntries_iff {input : Bytes} {entries : List AccessEntry}
    (hfits : entries.length ≤ maxAccessEntries) :
    EncodesEntries input entries ↔
      input = canonicalFrame accessManifestTypeId 1 (accessManifestFields entries) := by
  have hsmall : entries.length ≤ 8 := hfits
  have hcount : u32ToLeBytes (UInt32.ofNat entries.length) = toLittleEndian 4 entries.length := by
    rw [u32ToLeBytes, UInt32.toNat_ofNat_of_lt' (hsmall.trans_lt (by decide))]
  constructor
  · rintro ⟨fields, hfields, rfl, hids, hfirst, hentries⟩
    have hlength : fields.length = entries.length + 1 := by
      simpa using congrArg List.length hids
    have hsubset : accessManifestFields entries ⊆ fields := by
      refine (accessManifestFields_subset_iff hfields.ascending).mpr ⟨?_, ?_⟩
      · rw [hcount, hfirst]
      · rintro ⟨entry, index⟩ hpair
        obtain ⟨entryBytes, hlookup, hdecode⟩ :=
          hentries index entry (List.mem_zipIdx_iff_getElem?.mp hpair)
        rw [hlookup, decodeAccessEntry_exact.encode_of_ok hdecode]
    rw [(ascending_accessManifestFields hfits).eq_of_subset_of_length_le hfields.ascending hsubset
      (by rw [hlength, length_accessManifestFields])]
    rfl
  · rintro rfl
    have hfields := isCanonical_accessManifestFields hfits
    obtain ⟨hfirst, hentries⟩ :=
      (accessManifestFields_subset_iff hfields.ascending).mp (List.Subset.refl _)
    refine ⟨_, hfields, rfl, map_fst_accessManifestFields entries, ?_, ?_⟩
    · rw [hfirst, hcount]
    · intro index entry hentry
      exact ⟨_, hentries (entry, index) (List.mem_zipIdx_iff_getElem?.mpr hentry),
        decodeAccessEntry_exact.decode_encode trivial⟩

/-- A byte string is accepted as a manifest exactly when it encodes distinct entries within the
bound and the eight slots; the manifest then holds these entries in wire order, however it is read.
It is rejected for a repeated object exactly when all but distinctness holds, and the object
reported is the one of the first entry that recurs later. -/
theorem decodeAccessManifest_accepts (input : Bytes) (maxEntries : ℕ) :
    (∀ manifest, decodeAccessManifest input maxEntries = .ok manifest ↔
        ∃ entries, entries.length ≤ min maxEntries 8 ∧ EncodesEntries input entries ∧
          DistinctObjects entries ∧ manifest.iter = entries ∧ manifest.len = entries.length ∧
          ∀ index, manifest.get index = entries[index]?) ∧
      ((∃ objectId, decodeAccessManifest input maxEntries = .error (.duplicateObjectId objectId)) ↔
        ∃ entries, entries.length ≤ min maxEntries 8 ∧ EncodesEntries input entries ∧
          ¬ DistinctObjects entries) ∧
      ∀ objectId, decodeAccessManifest input maxEntries = .error (.duplicateObjectId objectId) ↔
        ∃ entries, entries.length ≤ min maxEntries 8 ∧ EncodesEntries input entries ∧
          ∃ index left, IsLeast {index | RecursLater entries index} index ∧
            entries[index]? = some left ∧ left.objectRef.id = objectId := by
  -- The manifests within the bound stand for the lists of entries within the bound.
  have hmanifest : ∀ manifest : AccessManifest,
      (manifest.len ≤ maxEntries ∧ input = accessManifestBytes manifest) ↔
        manifest.iter.length ≤ min maxEntries 8 ∧ EncodesEntries input manifest.iter := by
    intro manifest
    have hfits : manifest.iter.length ≤ 8 := manifest.length_iter.trans_le manifest.len_le
    rw [encodesEntries_iff hfits, accessManifestBytes, le_min_iff, and_iff_left hfits,
      AccessManifest.length_iter]
  have hentries : ∀ entries : List AccessEntry, entries.length ≤ min maxEntries 8 →
      ∃ manifest : AccessManifest, manifest.iter = entries :=
    fun entries hlength ↦
      ⟨.ofList entries (hlength.trans (min_le_right _ _)), AccessManifest.iter_ofList _ _⟩
  have hduplicate : ∀ objectId,
      decodeAccessManifest input maxEntries = .error (.duplicateObjectId objectId) ↔
        ∃ entries, entries.length ≤ min maxEntries 8 ∧ EncodesEntries input entries ∧
          duplicateObjectId entries = some objectId := by
    intro objectId
    rw [decodeAccessManifest_eq_duplicate_iff]
    constructor
    · rintro ⟨manifest, hmax, hinput, hscan⟩
      obtain ⟨hlength, hencodes⟩ := (hmanifest manifest).mp ⟨hmax, hinput⟩
      exact ⟨manifest.iter, hlength, hencodes, hscan⟩
    · rintro ⟨entries, hlength, hencodes, hscan⟩
      obtain ⟨manifest, rfl⟩ := hentries entries hlength
      obtain ⟨hmax, hinput⟩ := (hmanifest manifest).mpr ⟨hlength, hencodes⟩
      exact ⟨manifest, hmax, hinput, hscan⟩
  refine ⟨?_, ?_, ?_⟩
  · intro manifest
    rw [decodeAccessManifest_eq_ok_iff]
    constructor
    · rintro ⟨hmax, hdistinct, hinput⟩
      obtain ⟨hlength, hencodes⟩ := (hmanifest manifest).mp ⟨hmax, hinput⟩
      exact ⟨manifest.iter, hlength, hencodes, hdistinct, rfl, manifest.length_iter.symm,
        manifest.get_eq_getElem?⟩
    · rintro ⟨_, hlength, hencodes, hdistinct, rfl, -, -⟩
      obtain ⟨hmax, hinput⟩ := (hmanifest manifest).mpr ⟨hlength, hencodes⟩
      exact ⟨hmax, hdistinct, hinput⟩
  · simp only [hduplicate]
    constructor
    · rintro ⟨objectId, entries, hlength, hencodes, hscan⟩
      refine ⟨entries, hlength, hencodes, ?_⟩
      rw [← duplicateObjectId_eq_none_iff, hscan]
      exact Option.some_ne_none objectId
    · rintro ⟨entries, hlength, hencodes, hrepeated⟩
      rw [← duplicateObjectId_eq_none_iff, ← ne_eq, Option.ne_none_iff_exists'] at hrepeated
      obtain ⟨objectId, hscan⟩ := hrepeated
      exact ⟨objectId, entries, hlength, hencodes, hscan⟩
  · simp only [hduplicate, duplicateObjectId_eq_some_iff]
    exact fun _ ↦ trivial

end SunriseEdgeLedger.Core
