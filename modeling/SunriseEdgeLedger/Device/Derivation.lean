import SunriseEdgeLedger.Device.Compression
import SunriseEdgeLedger.Device.HostExchange
import SunriseEdgeLedger.Device.LoopHistory

/-!
# The keys of the device

The derivation and the signer of the application call the firmware: the private key of a path, its
public point, and a signature.  The firmware is a parameter, and what is assumed of it is that a
path always has the same key, and that a signature of full length is valid under the encoded public
point.  Every address that the application shows, and every sender that it lets sign, is then the
encoded point of the key of the path, and every signature that it sends is valid for the frame on
the screen.
-/

namespace SunriseEdgeLedger.Device

open SunriseEdgeLedger.Foundation SunriseEdgeLedger.Core

/-- The calls of the firmware on Ed25519 keys.  The calls that can fail may give no answer. -/
structure Ed25519 (PrivateKey : Type) where
  deriveFromPathSlip10 : List UInt32 → PrivateKey
  publicKey : PrivateKey → Option (ByteArrayN 65)
  sign : PrivateKey → Bytes → Option (ByteArrayN 64 × UInt32)

variable {PrivateKey : Type}

/-- `DeviceDeriver::derive`; the compression has errors only, it never ends the application. -/
def deviceDeriver (firmware : Ed25519 PrivateKey) : PublicKeyDeriver := fun path ↦ do
  let sk := firmware.deriveFromPathSlip10 path.toBip32Components
  let pk ← firmware.publicKey sk
  (compressEd25519Point pk).toOption

/-- `DeviceSigner::sign` -/
def deviceSigner (firmware : Ed25519 PrivateKey) : FrameSigner := fun path frame ↦ do
  let sk := firmware.deriveFromPathSlip10 path.toBip32Components
  let signed ← firmware.sign sk frame
  if signed.2 ≠ 64 then none else some signed.1

/-- The encoding of a point: the second coordinate and the parity of the first as one little-endian
number. -/
def encodePoint (point : ByteArrayN 65) : ByteArrayN 32 :=
  ⟨toLittleEndian 32 (yCoordinate point + 2 ^ 255 * (xCoordinate point % 2)),
    length_toLittleEndian _ _⟩

/-- A compressed point is the encoded point. -/
theorem encodePoint_of_compressEd25519Point {point : ByteArrayN 65} {compressed : ByteArrayN 32}
    (hcompress : compressEd25519Point point = .ok compressed) : compressed = encodePoint point := by
  obtain ⟨hy, hx⟩ := coordinates_of_compressEd25519Point hcompress
  have hnumber : yCoordinate point + 2 ^ 255 * (xCoordinate point % 2) =
      ofLittleEndian compressed.toList := by
    rw [hy, hx]
    exact Nat.mod_add_div _ _
  apply List.Vector.toList_injective
  have hbytes := toLittleEndian_ofLittleEndian compressed.toList
  rw [compressed.toList_length, ← hnumber] at hbytes
  exact hbytes.symm

/-- The compression never ends the application. -/
theorem compressEd25519Point_ne_panicked (point : ByteArrayN 65) :
    compressEd25519Point point ≠ .error .panicked := by
  by_cases hheader : point.get 0 = 0x04
  · by_cases hfield : yCoordinate point < 2 ^ 255 - 19
    · obtain ⟨compressed, hcompress, -⟩ := exists_compressEd25519Point_eq_ok hheader hfield
      rw [hcompress]
      simp
    · rw [(compressEd25519Point_eq_fieldOverflow_iff hheader).mpr (not_lt.mp hfield)]
      simp
  · rw [compressEd25519Point, ensure_of_false hheader, error_bind]
    simp

/-! ## What is assumed of the firmware -/

/-- The keys of a device: the private key of a path, the public point of a private key, and which
signatures are valid for a frame under an encoded point. -/
structure DeviceKeys (PrivateKey : Type) where
  privateKey : List UInt32 → PrivateKey
  point : PrivateKey → ByteArrayN 65
  Verifies : ByteArrayN 32 → Bytes → ByteArrayN 64 → Prop

/-- The encoded point of the key of a path. -/
def DeviceKeys.address (keys : DeviceKeys PrivateKey) (path : DerivationPath) : ByteArrayN 32 :=
  encodePoint (keys.point (keys.privateKey path.toBip32Components))

/-- The firmware computes with the keys of the device whenever it answers. -/
structure Ed25519.Computes (firmware : Ed25519 PrivateKey) (keys : DeviceKeys PrivateKey) :
    Prop where
  derive_eq : firmware.deriveFromPathSlip10 = keys.privateKey
  publicKey_eq : ∀ sk point, firmware.publicKey sk = some point → point = keys.point sk
  sign_verifies : ∀ sk frame signature, firmware.sign sk frame = some (signature, 64) →
    keys.Verifies (encodePoint (keys.point sk)) frame signature

variable {keys : DeviceKeys PrivateKey} {firmware : Ed25519 PrivateKey} {path : DerivationPath}

theorem address_of_deviceDeriver (hcomputes : firmware.Computes keys) {publicKey : ByteArrayN 32}
    (hkey : deviceDeriver firmware path = some publicKey) : publicKey = keys.address path := by
  simp only [deviceDeriver, Option.bind_eq_bind, Option.bind_eq_some_iff] at hkey
  obtain ⟨point, hpoint, hcompress⟩ := hkey
  rw [hcomputes.derive_eq] at hpoint
  obtain rfl := hcomputes.publicKey_eq _ _ hpoint
  cases hcompressed : compressEd25519Point
      (keys.point (keys.privateKey path.toBip32Components)) with
  | error fault => simp [hcompressed, Except.toOption] at hcompress
  | ok compressed =>
    rw [hcompressed] at hcompress
    obtain rfl : compressed = publicKey := Option.some.inj hcompress
    exact encodePoint_of_compressEd25519Point hcompressed

theorem verifies_of_deviceSigner (hcomputes : firmware.Computes keys) {frame : Bytes}
    {signature : ByteArrayN 64} (hsigner : deviceSigner firmware path frame = some signature) :
    keys.Verifies (keys.address path) frame signature := by
  simp only [deviceSigner, Option.bind_eq_bind, Option.bind_eq_some_iff] at hsigner
  obtain ⟨⟨signed, length⟩, hsign, hlength⟩ := hsigner
  split_ifs at hlength with hwidth
  obtain rfl : length = 64 := not_not.mp hwidth
  obtain rfl : signed = signature := Option.some.inj hlength
  rw [hcomputes.derive_eq] at hsign
  exact hcomputes.sign_verifies _ _ _ hsign

/-! ## Runs on the device -/

/-- A command is received on the device. -/
structure Received.OnDevice (received : Received) (keys : DeviceKeys PrivateKey) : Prop where
  exists_firmware : ∃ firmware : Ed25519 PrivateKey, firmware.Computes keys ∧
    received.deriver = deviceDeriver firmware ∧ received.signer = deviceSigner firmware

variable [Target]

/-- What an iteration derives is the answer to its path. -/
theorem Iterates.of_derived {received : Received} {phase next : Phase} {events : List DeviceEvent}
    (hiterates : Iterates received phase next events) {derivation : Derivation}
    (hderived : .derived derivation ∈ events) :
    derivation.publicKey = received.deriver derivation.path := by
  cases hiterates with
  | underivable hheader hverifies hkey =>
    obtain rfl : derivation = _ := by simpa using hderived
    exact hkey.symm
  | keyDeclined hheader hverifies hkey happroves =>
    obtain rfl : derivation = _ := by simpa using hderived
    exact hkey.symm
  | keyApproved hheader hverifies hkey happroves =>
    obtain rfl : derivation = _ := by simpa using hderived
    exact hkey.symm
  | unchecked hheader hsign hcompletes hcheck =>
    simp only [List.mem_append, List.mem_map, DeviceEvent.derived.injEq, exists_eq_right,
      List.mem_singleton, reduceCtorEq, or_false] at hderived
    rw [(mem_oneShotDerivations_iff.mp hderived).1]
  | declined hheader hsign hcompletes hframed hkey happroves =>
    obtain rfl : derivation = _ := by simpa using hderived
    exact hkey.symm
  | unsigned hheader hsign hcompletes hframed hkey happroves hsigner =>
    obtain rfl : derivation = _ := by simpa using hderived
    exact hkey.symm
  | signed hheader hsign hcompletes hframed hkey happroves hsigner =>
    obtain rfl : derivation = _ := by simpa using hderived
    exact hkey.symm
  | _ => simp at hderived

/-- What is sent with the length of a key is one, made after it was shown. -/
theorem Iterates.of_sent_publicKey {received : Received} {phase next : Phase}
    {events : List DeviceEvent} (hiterates : Iterates received phase next events) {data : Bytes}
    {status : UInt16} {succeeded : Bool} (hsent : .sent data status succeeded ∈ events)
    (hlength : data.length = 32) :
    ∃ path publicKey, decodePath received.data = .ok path ∧
      .derived ⟨path, some publicKey⟩ ∈ events ∧
      .showedAddress (addressText publicKey) true ∈ events ∧ data = publicKey.toList := by
  have hnonempty : data ≠ [] := by
    rintro rfl
    cases hlength
  cases hiterates with
  | configured hheader hins =>
    obtain ⟨rfl, -⟩ : data = configurationResponse.toList ∧ _ := by simpa using hsent
    cases hlength
  | @keyApproved _ path publicKey hheader hverifies hkey happroves =>
    obtain ⟨rfl, -⟩ : data = publicKey.toList ∧ _ := by simpa using hsent
    exact ⟨path, publicKey, hverifies.path_eq, by simp, by simp, rfl⟩
  | @signed _ _ _ signature hheader hsign hcompletes hframed hkey happroves hsigner =>
    obtain ⟨rfl, -⟩ : data = signature.toList ∧ _ := by simpa using hsent
    rw [signature.toList_length] at hlength
    cases hlength
  | _ => simp [hnonempty] at hsent

/-- On the device, after every run and whatever is received next: every key that is derived is the
address of its path; every key that is sent is the address of the path that was asked for, and was
shown; and every signature that is sent is valid, under the address of the path, for the frame whose
lines were shown, and this address is the sender on these lines. -/
theorem normalMain_binds_addresses (keys : DeviceKeys PrivateKey) (inputs : List Received)
    {received : Received} (hdevice : received.OnDevice keys) :
    (∀ path publicKey, .derived ⟨path, some publicKey⟩ ∈
        (normalMain.step (normalMain.run (.running .new) inputs) received).2 →
      publicKey = keys.address path) ∧
    (∀ data status succeeded, .sent data status succeeded ∈
        (normalMain.step (normalMain.run (.running .new) inputs) received).2 →
      data.length = 32 → ∃ path, decodePath received.data = .ok path ∧
        data = (keys.address path).toList ∧ .showedAddress (addressText (keys.address path)) true ∈
          (normalMain.step (normalMain.run (.running .new) inputs) received).2) ∧
    ∀ data status succeeded, .sent data status succeeded ∈
        (normalMain.step (normalMain.run (.running .new) inputs) received).2 →
      data.length = 64 → ∃ path transfer signature, data = signature.toList ∧
        .showedTransaction (transferLines transfer) true ∈
          (normalMain.step (normalMain.run (.running .new) inputs) received).2 ∧
        transfer.sender.bytes = keys.address path ∧
        keys.Verifies transfer.sender.bytes transfer.bytes signature := by
  obtain ⟨phase, hphase, hhead⟩ := runsAtHead_run inputs
  obtain ⟨next, events, hstep, -, hiterates⟩ := step_normalMain hhead received
  obtain ⟨firmware, hcomputes, hderiver, hsigner⟩ := hdevice.exists_firmware
  rw [hphase, hstep]
  have haddress : ∀ path publicKey, .derived ⟨path, some publicKey⟩ ∈ events →
      publicKey = keys.address path := by
    intro path publicKey hderived
    have hkey := hiterates.of_derived hderived
    rw [hderiver] at hkey
    exact address_of_deviceDeriver hcomputes hkey.symm
  refine ⟨haddress, ?_, ?_⟩
  · intro data status succeeded hsent hlength
    obtain ⟨path, publicKey, hpath, hderived, hshowed, rfl⟩ :=
      hiterates.of_sent_publicKey hsent hlength
    obtain rfl := haddress path publicKey hderived
    exact ⟨path, hpath, rfl, hshowed⟩
  · intro data status succeeded hsent hlength
    obtain ⟨path, transfer, signature, hshowed, hsigned, hkey, hsignature, rfl⟩ :=
      hiterates.of_sent_signature hsent hlength
    rw [hderiver] at hkey
    rw [hsigner] at hsignature
    have hsender := address_of_deviceDeriver hcomputes hkey
    refine ⟨path, transfer, signature, rfl, hshowed, hsender, ?_⟩
    rw [hsender]
    exact verifies_of_deviceSigner hcomputes hsignature

section Recorded

omit [Target]

/-- The point of the key that the tests of the device derive. -/
def recordedPoint : ByteArrayN 65 :=
  ⟨[0x04, 0x4C, 0xF6, 0x85, 0x09, 0x90, 0x6E, 0xE5, 0x1B, 0x2B, 0x34, 0x83, 0x0E, 0x6B, 0x4D,
    0x09, 0x2A, 0x49, 0x20, 0x11, 0x98, 0x8D, 0x2E, 0x25, 0x0A, 0x2A, 0xC9, 0xBA, 0xAD, 0x3B,
    0x27, 0x44, 0xA5, 0x7B, 0x88, 0xFD, 0xE0, 0x0C, 0x75, 0x21, 0x7B, 0xC9, 0x62, 0x69, 0xEE,
    0x4E, 0xC2, 0x33, 0xD0, 0x9F, 0x61, 0x78, 0x43, 0x2D, 0xEB, 0xE6, 0x3A, 0x5D, 0x74, 0x39,
    0x1A, 0x65, 0x08, 0x86, 0xDF], rfl⟩

/-- `EXPECTED_PUBLIC_KEY` -/
def expectedPublicKey : ByteArrayN 32 :=
  ⟨[0xDF, 0x86, 0x08, 0x65, 0x1A, 0x39, 0x74, 0x5D, 0x3A, 0xE6, 0xEB, 0x2D, 0x43, 0x78, 0x61,
    0x9F, 0xD0, 0x33, 0xC2, 0x4E, 0xEE, 0x69, 0x62, 0xC9, 0x7B, 0x21, 0x75, 0x0C, 0xE0, 0xFD,
    0x88, 0xFB], rfl⟩

/-- `EXPECTED_SIGNATURE` -/
def expectedSignature : ByteArrayN 64 :=
  ⟨[0x94, 0x41, 0x73, 0x35, 0xEE, 0x3F, 0x6D, 0xC3, 0x3A, 0x9E, 0x0E, 0xB9, 0x67, 0x85, 0xC1,
    0x59, 0xB6, 0xFE, 0x57, 0x49, 0xAA, 0x21, 0xF5, 0x5A, 0x51, 0xD1, 0xC4, 0x06, 0x41, 0x3F,
    0x16, 0xA9, 0x07, 0x22, 0xA8, 0xCB, 0xE0, 0x4A, 0x90, 0x69, 0xF3, 0xC4, 0xD9, 0x4D, 0x24,
    0xB1, 0x87, 0xEC, 0x77, 0xAE, 0xA4, 0xA2, 0x70, 0xAD, 0xC3, 0xEB, 0x11, 0x42, 0x4E, 0x5B,
    0xDC, 0xEE, 0x8B, 0x01], rfl⟩

/-- The transfer of the tests of the device. -/
def deviceFixture : Transfer where
  sender := ⟨expectedPublicKey⟩
  nonce := 1
  gasLimit := 1000
  maxFee := 1001
  amount := 1000000
  source :=
    ⟨⟨List.Vector.replicate 32 0x11⟩, 1, ⟨.sha2_256, List.Vector.replicate 32 0x12⟩⟩
  second :=
    ⟨⟨List.Vector.replicate 32 0x21⟩, 2, ⟨.sha2_256, List.Vector.replicate 32 0x22⟩⟩
  third :=
    ⟨⟨List.Vector.replicate 32 0x31⟩, 3, ⟨.sha2_256, List.Vector.replicate 32 0x32⟩⟩
  amount_ne := by decide
  source_ne_second := by decide
  source_ne_third := by decide
  second_ne_third := by decide

/-- The firmware with the key and the signature of the tests. -/
def recordedFirmware : Ed25519 Unit where
  deriveFromPathSlip10 _ := ()
  publicKey _ := some recordedPoint
  sign _ frame := if frame = deviceFixture.bytes then some (expectedSignature, 64) else none

/-- The key of the tests, and the one signature that they expect. -/
def recordedKeys : DeviceKeys Unit where
  privateKey _ := ()
  point _ := recordedPoint
  Verifies publicKey frame signature := publicKey = expectedPublicKey ∧
    frame = deviceFixture.bytes ∧ signature = expectedSignature

theorem address_recordedKeys (path : DerivationPath) :
    recordedKeys.address path = expectedPublicKey := by
  change encodePoint recordedPoint = expectedPublicKey
  decide +kernel

theorem computes_recordedFirmware : recordedFirmware.Computes recordedKeys where
  derive_eq := rfl
  publicKey_eq _ _ hpoint := (Option.some.inj hpoint).symm
  sign_verifies sk frame signature hsign := by
    change (if frame = deviceFixture.bytes then some (expectedSignature, (64 : UInt32)) else none) =
      some (signature, 64) at hsign
    split_ifs at hsign with hframe
    obtain rfl : expectedSignature = signature := congrArg Prod.fst (Option.some.inj hsign)
    exact ⟨address_recordedKeys originPath, hframe, rfl⟩

/-- A command that is received on the device of the tests, whose user approves. -/
def recorded (command : ApduCommand) : Received where
  header := .ok ⟨command.cla, command.ins, command.p1, command.p2⟩
  data := command.data
  deriver := deviceDeriver recordedFirmware
  signer := deviceSigner recordedFirmware
  approves := true
  sends := true

theorem carries_recorded (command : ApduCommand) : Carries (recorded command) command :=
  ⟨rfl, rfl, rfl⟩

theorem onDevice_recorded (command : ApduCommand) : (recorded command).OnDevice recordedKeys :=
  ⟨_, computes_recordedFirmware, rfl, rfl⟩

theorem deviceSigner_recordedFirmware (path : DerivationPath) :
    deviceSigner recordedFirmware path deviceFixture.bytes = some expectedSignature := by
  simp [deviceSigner, recordedFirmware]

/-- In the exchange of the tests, the expected signature is sent, and is valid under the address. -/
theorem normalMain_binds_addresses_recorded :
    let _ : Target := .device
    ∃ inputs command transfer, .sent expectedSignature.toList 0x9000 true ∈
        (normalMain.step (normalMain.run (.running .new) inputs) (recorded command)).2 ∧
      .showedTransaction (transferLines transfer) true ∈
        (normalMain.step (normalMain.run (.running .new) inputs) (recorded command)).2 ∧
      recordedKeys.Verifies expectedPublicKey transfer.bytes expectedSignature := by
  intro target
  obtain ⟨inputs, command, hstep⟩ := exists_step_of_exchange carries_recorded deviceFixture
  have hkey : deviceDeriver recordedFirmware originPath = some deviceFixture.sender.bytes := by
    decide +kernel
  have hsent : .sent expectedSignature.toList 0x9000 true ∈
      (normalMain.step (normalMain.run (.running .new) inputs) (recorded command)).2 := by
    rw [hstep]
    exact sent_signature_mem_transferAnswer hkey rfl (deviceSigner_recordedFirmware originPath)
  obtain ⟨path, transfer, signature, hsignature, hshowed, hsender, hverifies⟩ :=
    (normalMain_binds_addresses recordedKeys _ (onDevice_recorded _)).2.2 _ _ _ hsent rfl
  rw [hsender, address_recordedKeys] at hverifies
  obtain rfl : expectedSignature = signature := List.Vector.toList_injective hsignature
  exact ⟨_, _, transfer, hsent, hshowed, hverifies⟩

end Recorded

end SunriseEdgeLedger.Device
