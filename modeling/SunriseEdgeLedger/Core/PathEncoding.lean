import SunriseEdgeLedger.Core.Path

/-!
# The path decoder is exact

The documented encoding of the one path shape: a depth byte and five big-endian components with
their hardened bits.  The decoder accepts exactly these encodings, one for each account below 2^31,
and the components handed to key derivation are the encoded ones.
-/

namespace SunriseEdgeLedger.Core

open Foundation

/-- The encoding of `44'/21333'/account'/0'/0'`, where a prime adds 2^31. -/
def pathBytes (account : ℕ) : Bytes :=
  5 :: [2 ^ 31 + 44, 2 ^ 31 + 21333, 2 ^ 31 + account, 2 ^ 31, 2 ^ 31].flatMap (toBigEndian 4)

theorem and_hardenedBit_eq_zero_iff {raw : UInt32} :
    raw &&& hardenedBit = 0 ↔ raw.toNat < 2 ^ 31 := by
  rw [← UInt32.toNat_inj, UInt32.toNat_and]
  exact and_highest_eq_zero_iff raw.toNat_lt

theorem toNat_and_not_hardenedBit (raw : UInt32) :
    (raw &&& ~~~hardenedBit).toNat = raw.toNat % 2 ^ 31 := by
  rw [UInt32.toNat_and]
  exact Nat.and_two_pow_sub_one_eq_mod raw.toNat 31

theorem toNat_or_hardenedBit {value : UInt32} (hvalue : value &&& hardenedBit = 0) :
    (value ||| hardenedBit).toNat = 2 ^ 31 + value.toNat := by
  rw [UInt32.toNat_or]
  exact or_highest (and_hardenedBit_eq_zero_iff.mp hvalue)

/-- The bit that is masked off a hardened component is the one that hardening adds. -/
theorem eq_or_hardenedBit_iff {raw value : UInt32} (hvalue : value &&& hardenedBit = 0) :
    raw = value ||| hardenedBit ↔ raw &&& hardenedBit ≠ 0 ∧ raw &&& ~~~hardenedBit = value := by
  have hraw := raw.toNat_lt
  have hsmall := and_hardenedBit_eq_zero_iff.mp hvalue
  rw [← UInt32.toNat_inj, ← UInt32.toNat_inj, toNat_or_hardenedBit hvalue,
    toNat_and_not_hardenedBit, ne_eq, and_hardenedBit_eq_zero_iff]
  omega

/-- A component is read where its big-endian bytes stand. -/
theorem pathComponent_eq_ok_iff {before after : Bytes} {index : ℕ} {raw : UInt32}
    (hbefore : before.length = 1 + index * 4) :
    pathComponent (before ++ after) index = .ok raw ↔ ∃ rest, after = u32ToBeBytes raw ++ rest := by
  simp only [pathComponent, bind_eq_ok_iff, okOr_eq_ok_iff, arrayOf?_eq_some_iff, Except.ok.injEq,
    u32FromBeBytes_eq_iff, ← hbefore, getRange_append_eq_some_iff]
  constructor
  · rintro ⟨_, ⟨rest, rfl, -⟩, array, rfl, hraw⟩
    exact ⟨rest, by rw [hraw]⟩
  · rintro ⟨rest, rfl⟩
    exact ⟨_, ⟨rest, rfl, by simp⟩, ⟨u32ToBeBytes raw, by simp⟩, rfl, rfl⟩

/-- Consecutive components are read where their bytes stand one behind the other. -/
theorem pathComponents_eq_ok_iff {before after : Bytes} {start : ℕ} {raws : List UInt32}
    (hbefore : before.length = 1 + start * 4) :
    (∀ component ∈ raws.zipIdx start,
        pathComponent (before ++ after) component.2 = .ok component.1) ↔
      ∃ rest, after = raws.flatMap u32ToBeBytes ++ rest := by
  induction raws generalizing before after start with
  | nil => simp
  | cons raw raws ih =>
    have hnext : (before ++ u32ToBeBytes raw).length = 1 + (start + 1) * 4 := by
      rw [List.length_append, hbefore, length_u32ToBeBytes]
      omega
    rw [List.zipIdx_cons, List.forall_mem_cons, pathComponent_eq_ok_iff hbefore]
    constructor
    · rintro ⟨⟨rest, rfl⟩, hraws⟩
      rw [← List.append_assoc, ih hnext] at hraws
      obtain ⟨rest, rfl⟩ := hraws
      exact ⟨rest, by rw [List.flatMap_cons, List.append_assoc]⟩
    · rintro ⟨rest, rfl⟩
      rw [List.flatMap_cons, List.append_assoc]
      refine ⟨⟨_, rfl⟩, ?_⟩
      rw [← List.append_assoc, ih hnext]
      exact ⟨rest, rfl⟩

theorem requireHardened_eq_ok_iff {components : List (UInt32 × ℕ)} {result : Unit} :
    requireHardened components = .ok result ↔
      ∀ component ∈ components, component.1 &&& hardenedBit ≠ 0 := by
  induction components with
  | nil => simp [requireHardened]
  | cons component components ih =>
    obtain ⟨raw, index⟩ := component
    rw [requireHardened, List.forall_mem_cons]
    split_ifs with hraw
    · simp [hraw]
    · simp [hraw, ih]

theorem length_flatMap_u32ToBeBytes (raws : List UInt32) :
    (raws.flatMap u32ToBeBytes).length = raws.length * 4 := by
  simp [List.length_flatMap]

/-- The five components are read where their bytes stand behind the depth byte. -/
theorem pathReads_iff {tail : Bytes}
    {purposeRaw coinTypeRaw accountRaw change addressIndex : UInt32} :
    (∃ rest, tail =
        [purposeRaw, coinTypeRaw, accountRaw, change, addressIndex].flatMap u32ToBeBytes ++ rest) ↔
      pathComponent (pathDepth :: tail) 0 = .ok purposeRaw ∧
        pathComponent (pathDepth :: tail) 1 = .ok coinTypeRaw ∧
        pathComponent (pathDepth :: tail) 2 = .ok accountRaw ∧
        pathComponent (pathDepth :: tail) 3 = .ok change ∧
        pathComponent (pathDepth :: tail) 4 = .ok addressIndex := by
  rw [← @pathComponents_eq_ok_iff [pathDepth] tail 0 _ rfl]
  simp

/-- The decoder, with its reads and its masks described by the raw components. -/
theorem decodePath_eq_ok_iff_components {bytes : Bytes} {path : DerivationPath} :
    decodePath bytes = .ok path ↔
      bytes.length = pathEncodedLen ∧ ∃ purposeRaw coinTypeRaw accountRaw change addressIndex rest,
        bytes = pathDepth ::
          ([purposeRaw, coinTypeRaw, accountRaw, change, addressIndex].flatMap u32ToBeBytes ++
            rest) ∧
        purposeRaw = purpose ||| hardenedBit ∧ coinTypeRaw = coinType ||| hardenedBit ∧
        accountRaw = path.account ||| hardenedBit ∧ change = 0 ||| hardenedBit ∧
        addressIndex = 0 ||| hardenedBit := by
  have hpurpose : purpose &&& hardenedBit = 0 := by decide
  have hcoinType : coinType &&& hardenedBit = 0 := by decide
  have hzero : (0 : UInt32) &&& hardenedBit = 0 := by decide
  simp only [eq_or_hardenedBit_iff hpurpose, eq_or_hardenedBit_iff hcoinType,
    eq_or_hardenedBit_iff hzero, eq_or_hardenedBit_iff path.unhardened]
  simp only [decodePath, bind_eq_ok_iff, ensure_eq_ok_iff, okOr_eq_ok_iff, Except.ok.injEq,
    requireHardened_eq_ok_iff]
  constructor
  · rintro ⟨_, hlength, depth, hdepth, _, rfl, purposeRaw, hpurposeRaw, coinTypeRaw, hcoinTypeRaw,
      accountRaw, haccountRaw, change, hchange, addressIndex, haddressIndex, _, hhardened, _,
      hpurposeMasked, _, hcoinTypeMasked, _, hchangeMasked, _, haddressIndexMasked, rfl⟩
    obtain ⟨tail, rfl⟩ := List.head?_eq_some_iff.mp hdepth
    obtain ⟨rest, rfl⟩ := pathReads_iff.mpr
      ⟨hpurposeRaw, hcoinTypeRaw, haccountRaw, hchange, haddressIndex⟩
    simp only [List.zipIdx_cons, List.zipIdx_nil, List.forall_mem_cons] at hhardened
    obtain ⟨hpurposeBit, hcoinTypeBit, haccountBit, hchangeBit, haddressIndexBit, -⟩ := hhardened
    exact ⟨hlength, _, _, _, _, _, rest, rfl, ⟨hpurposeBit, hpurposeMasked⟩,
      ⟨hcoinTypeBit, hcoinTypeMasked⟩, ⟨haccountBit, rfl⟩, ⟨hchangeBit, hchangeMasked⟩,
      ⟨haddressIndexBit, haddressIndexMasked⟩⟩
  · rintro ⟨hlength, purposeRaw, coinTypeRaw, accountRaw, change, addressIndex, rest, rfl,
      hpurposeRaw, hcoinTypeRaw, haccountRaw, hchange, haddressIndex⟩
    obtain ⟨hreadPurpose, hreadCoinType, hreadAccount, hreadChange, hreadAddressIndex⟩ :=
      pathReads_iff.mp ⟨rest, rfl⟩
    refine ⟨⟨⟩, hlength, pathDepth, rfl, ⟨⟩, rfl, _, hreadPurpose, _, hreadCoinType, _,
      hreadAccount, _, hreadChange, _, hreadAddressIndex, (), ?_, ⟨⟩, hpurposeRaw.2, ⟨⟩,
      hcoinTypeRaw.2, ⟨⟩, hchange.2, ⟨⟩, haddressIndex.2, ?_⟩
    · simp only [List.zipIdx_cons, List.zipIdx_nil, List.forall_mem_cons]
      exact ⟨hpurposeRaw.1, hcoinTypeRaw.1, haccountRaw.1, hchange.1, haddressIndex.1, by simp⟩
    · cases path
      congr
      exact haccountRaw.2

/-- Decoding accepts exactly the depth byte followed by the components of the decoded path. -/
theorem decodePath_eq_ok_iff {bytes : Bytes} {path : DerivationPath} :
    decodePath bytes = .ok path ↔
      bytes = pathDepth :: path.toBip32Components.flatMap u32ToBeBytes := by
  rw [decodePath_eq_ok_iff_components]
  constructor
  · rintro ⟨hlength, _, _, _, _, _, rest, rfl, rfl, rfl, rfl, rfl, rfl⟩
    have hrest : rest = [] := by
      rw [List.length_cons, List.length_append, length_flatMap_u32ToBeBytes] at hlength
      apply List.length_eq_zero_iff.mp
      change 5 * 4 + rest.length + 1 = 1 + 5 * 4 at hlength
      omega
    rw [hrest, List.append_nil]
    rfl
  · rintro rfl
    refine ⟨?_, _, _, _, _, _, [], ?_, rfl, rfl, rfl, rfl, rfl⟩
    · rw [List.length_cons, length_flatMap_u32ToBeBytes]
      rfl
    · rw [List.append_nil]
      rfl

/-! ## One encoding for each account -/

/-- The encoding of a path is the depth byte followed by its components. -/
theorem pathBytes_account (path : DerivationPath) :
    pathBytes path.account.toNat =
      pathDepth :: path.toBip32Components.flatMap u32ToBeBytes := by
  have haccount : toBigEndian 4 (2 ^ 31 + path.account.toNat) =
      u32ToBeBytes (path.account ||| hardenedBit) := by
    rw [u32ToBeBytes, toNat_or_hardenedBit path.unhardened]
  simp only [pathBytes, DerivationPath.toBip32Components, List.flatMap_cons, haccount]
  rfl

/-- Every account below 2^31 has a path. -/
theorem exists_path_of_account {account : ℕ} (haccount : account < 2 ^ 31) :
    ∃ path : DerivationPath, path.account.toNat = account := by
  have hnumber : (UInt32.ofNat account).toNat = account :=
    UInt32.toNat_ofNat_of_lt' (haccount.trans (by norm_num))
  exact ⟨⟨UInt32.ofNat account, and_hardenedBit_eq_zero_iff.mpr (hnumber.symm ▸ haccount)⟩, hnumber⟩

theorem DerivationPath.toBip32Components_injective :
    Function.Injective DerivationPath.toBip32Components := by
  intro path path' hcomponents
  have hbytes : pathBytes path.account.toNat = pathBytes path'.account.toNat := by
    rw [pathBytes_account, pathBytes_account, hcomponents]
  have hfirst := decodePath_eq_ok_iff.mpr (pathBytes_account path)
  rw [hbytes, decodePath_eq_ok_iff.mpr (pathBytes_account path')] at hfirst
  exact (Except.ok.inj hfirst).symm

/-- The accepted encodings are those of the accounts below 2^31.  The decoded account is the encoded
one, and the depth byte followed by the components handed to key derivation is the encoding again.
Encodings, accounts and components determine each other. -/
theorem decodePath_one_to_one :
    (∀ bytes, (∃ path, decodePath bytes = .ok path) ↔
        ∃ account < 2 ^ 31, bytes = pathBytes account) ∧
      (∀ bytes path, decodePath bytes = .ok path →
        path.account.toNat < 2 ^ 31 ∧ bytes = pathBytes path.account.toNat ∧
          pathDepth :: path.toBip32Components.flatMap u32ToBeBytes = bytes) ∧
      ∀ bytes path bytes' path', decodePath bytes = .ok path → decodePath bytes' = .ok path' →
        (bytes = bytes' ↔ path.account = path'.account) ∧
          (bytes = bytes' ↔ path.toBip32Components = path'.toBip32Components) := by
  have hdecoded : ∀ {bytes path}, decodePath bytes = .ok path →
      bytes = pathBytes path.account.toNat :=
    fun hdecode ↦ (decodePath_eq_ok_iff.mp hdecode).trans (pathBytes_account _).symm
  have hsmall : ∀ path : DerivationPath, path.account.toNat < 2 ^ 31 :=
    fun path ↦ and_hardenedBit_eq_zero_iff.mp path.unhardened
  refine ⟨?_, ?_, ?_⟩
  · intro bytes
    constructor
    · rintro ⟨path, hdecode⟩
      exact ⟨path.account.toNat, hsmall path, hdecoded hdecode⟩
    · rintro ⟨account, haccount, rfl⟩
      obtain ⟨path, rfl⟩ := exists_path_of_account haccount
      exact ⟨path, decodePath_eq_ok_iff.mpr (pathBytes_account path)⟩
  · intro bytes path hdecode
    exact ⟨hsmall path, hdecoded hdecode, (decodePath_eq_ok_iff.mp hdecode).symm⟩
  · intro bytes path bytes' path' hdecode hdecode'
    have hpaths : bytes = bytes' ↔ path = path' := by
      constructor
      · rintro rfl
        rw [hdecode] at hdecode'
        exact Except.ok.inj hdecode'
      · rintro rfl
        rw [hdecoded hdecode, hdecoded hdecode']
    rw [hpaths, DerivationPath.toBip32Components_injective.eq_iff]
    refine ⟨?_, Iff.rfl⟩
    cases path
    cases path'
    simp

end SunriseEdgeLedger.Core
