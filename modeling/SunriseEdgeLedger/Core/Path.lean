import SunriseEdgeLedger.Core.Primitives
import SunriseEdgeLedger.Foundation.ExactDecoder

/-!
# Derivation paths

The strict decoder of the only derivation path shape of the wallet, `44'/21333'/account'/0'/0'`.
The host chooses the account and nothing else.
-/

namespace SunriseEdgeLedger.Core

open Foundation

/-- `PATH_DEPTH` -/
def pathDepth : UInt8 := 5

/-- `PATH_ENCODED_LEN` -/
def pathEncodedLen : ℕ := 1 + pathDepth.toNat * 4

/-- `HARDENED_BIT` -/
def hardenedBit : UInt32 := 0x80000000

/-- `PURPOSE` -/
def purpose : UInt32 := 44

/-- `COIN_TYPE` -/
def coinType : UInt32 := 21333

/-- Why an encoded path was rejected. -/
inductive PathError where
  | wrongLength (actual : ℕ)
  | wrongDepth (actual : UInt8)
  | notHardened (index : ℕ)
  | wrongPurpose
  | wrongCoinType
  | wrongChange
  | wrongAddressIndex
deriving DecidableEq, Repr

/-- A validated path.  The account is stored without its hardened bit. -/
structure DerivationPath where
  account : UInt32
  unhardened : account &&& hardenedBit = 0
deriving DecidableEq

/-- The five hardened components. -/
def DerivationPath.toBip32Components (path : DerivationPath) : List UInt32 :=
  [purpose ||| hardenedBit, coinType ||| hardenedBit, path.account ||| hardenedBit, hardenedBit,
    hardenedBit]

/-- One big-endian component of an encoded path. -/
def pathComponent (bytes : Bytes) (index : ℕ) : Except PathError UInt32 := do
  let start := 1 + index * 4
  let stop := start + 4
  let slice ← okOr (.wrongLength bytes.length) (getRange bytes start stop)
  let array ← okOr (.wrongLength bytes.length) (arrayOf? 4 slice)
  .ok (u32FromBeBytes array)

/-- The first component without the hardened bit is an error. -/
def requireHardened : List (UInt32 × ℕ) → Except PathError Unit
  | [] => .ok ()
  | (raw, index) :: components =>
    if raw &&& hardenedBit = 0 then .error (.notHardened index) else requireHardened components

theorem and_not_hardenedBit_unhardened (raw : UInt32) :
    (raw &&& ~~~hardenedBit) &&& hardenedBit = 0 := by
  rw [UInt32.and_assoc, UInt32.not_and_self, UInt32.and_zero]

/-- Decode one encoded path. -/
def decodePath (bytes : Bytes) : Except PathError DerivationPath := do
  ensure (bytes.length = pathEncodedLen) (.wrongLength bytes.length)
  let depth ← okOr (.wrongLength 0) bytes.head?
  ensure (depth = pathDepth) (.wrongDepth depth)
  let purposeRaw ← pathComponent bytes 0
  let coinTypeRaw ← pathComponent bytes 1
  let accountRaw ← pathComponent bytes 2
  let change ← pathComponent bytes 3
  let addressIndex ← pathComponent bytes 4
  requireHardened [purposeRaw, coinTypeRaw, accountRaw, change, addressIndex].zipIdx
  ensure (purposeRaw &&& ~~~hardenedBit = purpose) .wrongPurpose
  ensure (coinTypeRaw &&& ~~~hardenedBit = coinType) .wrongCoinType
  ensure (change &&& ~~~hardenedBit = 0) .wrongChange
  ensure (addressIndex &&& ~~~hardenedBit = 0) .wrongAddressIndex
  .ok {
    account := accountRaw &&& ~~~hardenedBit
    unhardened := and_not_hardenedBit_unhardened accountRaw
  }

/-- Only byte strings of the one encoded length decode. -/
theorem length_of_decodePath {bytes : Bytes} {path : DerivationPath}
    (hdecode : decodePath bytes = .ok path) : bytes.length = pathEncodedLen := by
  obtain ⟨_, hlength, _⟩ := bind_eq_ok_iff.mp hdecode
  exact ensure_eq_ok_iff.mp hlength

end SunriseEdgeLedger.Core
