import SunriseEdgeLedger.Foundation.EdwardsCurve
import SunriseEdgeLedger.Foundation.PrimeCertificate
import SunriseEdgeLedger.Device.Derivation

/-!
# Addresses identify keys

The compressed key keeps one coordinate of a point and the parity of the other one.  On the curve
that is enough: the field has an odd number of elements, and at most two opposite numbers belong to
a second coordinate.  So the compression refuses no point of the curve and maps no two of them to
the same key, and an address that was verified on the screen is the sender of a transfer on the
screen if and only if the transfer is signed with the verified key.
-/

namespace SunriseEdgeLedger.Device

open SunriseEdgeLedger.Foundation SunriseEdgeLedger.Core

/-- The Ed25519 field prime. -/
def fieldPrime : ℕ := 2 ^ 255 - 19

section Certificates

theorem prime_2773320623 : Nat.Prime 2773320623 :=
  PrimeCertificate.prime {
    base := 5
    factors := [⟨2, Nat.prime_two⟩, ⟨2437, by norm_num⟩, ⟨569003, by norm_num⟩]
    prod_eq := by decide +kernel
    power_eq := by decide +kernel
    powers_ne := by decide +kernel }

theorem prime_72106336199 : Nat.Prime 72106336199 :=
  PrimeCertificate.prime {
    base := 7
    factors := [⟨2, Nat.prime_two⟩, ⟨13, by norm_num⟩, ⟨2773320623, prime_2773320623⟩]
    prod_eq := by decide +kernel
    power_eq := by decide +kernel
    powers_ne := by decide +kernel }

theorem prime_8574133 : Nat.Prime 8574133 :=
  PrimeCertificate.prime {
    base := 2
    factors := [⟨2, Nat.prime_two⟩, ⟨2, Nat.prime_two⟩, ⟨3, Nat.prime_three⟩, ⟨7, by norm_num⟩,
      ⟨103, by norm_num⟩, ⟨991, by norm_num⟩]
    prod_eq := by decide +kernel
    power_eq := by decide +kernel
    powers_ne := by decide +kernel }

theorem prime_31757755568855353 : Nat.Prime 31757755568855353 :=
  PrimeCertificate.prime {
    base := 10
    factors := [⟨2, Nat.prime_two⟩, ⟨2, Nat.prime_two⟩, ⟨2, Nat.prime_two⟩, ⟨3, Nat.prime_three⟩,
      ⟨31, by norm_num⟩, ⟨107, by norm_num⟩, ⟨223, by norm_num⟩, ⟨4153, by norm_num⟩,
      ⟨430751, by norm_num⟩]
    prod_eq := by decide +kernel
    power_eq := by decide +kernel
    powers_ne := by decide +kernel }

theorem prime_1919519569386763 : Nat.Prime 1919519569386763 :=
  PrimeCertificate.prime {
    base := 2
    factors := [⟨2, Nat.prime_two⟩, ⟨3, Nat.prime_three⟩, ⟨7, by norm_num⟩, ⟨19, by norm_num⟩,
      ⟨47, by norm_num⟩, ⟨47, by norm_num⟩, ⟨127, by norm_num⟩, ⟨8574133, prime_8574133⟩]
    prod_eq := by decide +kernel
    power_eq := by decide +kernel
    powers_ne := by decide +kernel }

theorem prime_75445702479781427272750846543864801 :
    Nat.Prime 75445702479781427272750846543864801 :=
  PrimeCertificate.prime {
    base := 7
    factors := [⟨2, Nat.prime_two⟩, ⟨2, Nat.prime_two⟩, ⟨2, Nat.prime_two⟩, ⟨2, Nat.prime_two⟩,
      ⟨2, Nat.prime_two⟩, ⟨3, Nat.prime_three⟩, ⟨3, Nat.prime_three⟩, ⟨5, Nat.prime_five⟩,
      ⟨5, Nat.prime_five⟩, ⟨75707, by norm_num⟩, ⟨72106336199, prime_72106336199⟩,
      ⟨1919519569386763, prime_1919519569386763⟩]
    prod_eq := by decide +kernel
    power_eq := by decide +kernel
    powers_ne := by decide +kernel }

/-- The largest prime factor of the number before the field prime. -/
theorem prime_fieldPrime_factor :
    Nat.Prime 74058212732561358302231226437062788676166966415465897661863160754340907 :=
  PrimeCertificate.prime {
    base := 2
    factors := [⟨2, Nat.prime_two⟩, ⟨3, Nat.prime_three⟩, ⟨353, by norm_num⟩,
      ⟨57467, by norm_num⟩, ⟨132049, by norm_num⟩, ⟨1923133, by norm_num⟩,
      ⟨31757755568855353, prime_31757755568855353⟩,
      ⟨75445702479781427272750846543864801, prime_75445702479781427272750846543864801⟩]
    prod_eq := by decide +kernel
    power_eq := by decide +kernel
    powers_ne := by decide +kernel }

theorem prime_fieldPrime : fieldPrime.Prime :=
  PrimeCertificate.prime {
    base := 2
    factors := [⟨2, Nat.prime_two⟩, ⟨2, Nat.prime_two⟩, ⟨3, Nat.prime_three⟩,
      ⟨65147, by norm_num⟩, ⟨_, prime_fieldPrime_factor⟩]
    prod_eq := by decide +kernel
    power_eq := by decide +kernel
    powers_ne := by decide +kernel }

end Certificates

instance : Fact fieldPrime.Prime := ⟨prime_fieldPrime⟩

/-! ## Points of the curve -/

/-- The coordinates of `04 || X || Y` are those of a point of the curve, below the field prime. -/
structure IsCurvePoint (point : ByteArrayN 65) : Prop where
  header_eq : point.get 0 = 0x04
  x_lt : xCoordinate point < fieldPrime
  y_lt : yCoordinate point < fieldPrime
  equation : 121666 * yCoordinate point ^ 2 +
      121665 * (xCoordinate point ^ 2 * yCoordinate point ^ 2) ≡
    121666 + 121666 * xCoordinate point ^ 2 [MOD fieldPrime]

variable {point point' : ByteArrayN 65}

theorem IsCurvePoint.onEdwardsCurve (hpoint : IsCurvePoint point) :
    OnEdwardsCurve (121666 : ZMod fieldPrime) 121665 (xCoordinate point) (yCoordinate point) := by
  have hequation := (ZMod.natCast_eq_natCast_iff _ _ _).mpr hpoint.equation
  push_cast at hequation
  exact hequation

theorem numerator_ne_denominator :
    (121666 : ZMod fieldPrime) ≠ 0 ∧ (121665 : ZMod fieldPrime) ≠ 121666 := by
  have hzero : ((121666 : ℕ) : ZMod fieldPrime) ≠ (0 : ℕ) := by
    rw [ne_eq, ZMod.natCast_eq_natCast_iff']
    decide +kernel
  have hequal : ((121665 : ℕ) : ZMod fieldPrime) ≠ (121666 : ℕ) := by
    rw [ne_eq, ZMod.natCast_eq_natCast_iff']
    decide +kernel
  exact_mod_cast And.intro hzero hequal

/-- A point of the curve is determined by its second coordinate and the parity of the first one. -/
theorem IsCurvePoint.xCoordinate_eq (hpoint : IsCurvePoint point) (hpoint' : IsCurvePoint point')
    (hy : yCoordinate point = yCoordinate point')
    (hparity : xCoordinate point % 2 = xCoordinate point' % 2) :
    xCoordinate point = xCoordinate point' := by
  have hcurve := hpoint.onEdwardsCurve
  have hcurve' := hpoint'.onEdwardsCurve
  rw [← hy] at hcurve'
  have hodd : fieldPrime % 2 = 1 := by decide +kernel
  apply eq_of_natCast_eq_or_eq_neg hodd hpoint.x_lt hpoint'.x_lt hparity
  exact hcurve.eq_or_eq_neg numerator_ne_denominator.1 numerator_ne_denominator.2 hcurve'

theorem compressEd25519Point_of_isCurvePoint (hpoint : IsCurvePoint point) :
    compressEd25519Point point = .ok (encodePoint point) := by
  obtain ⟨compressed, hcompress, -⟩ :=
    exists_compressEd25519Point_eq_ok hpoint.header_eq hpoint.y_lt
  rw [hcompress, encodePoint_of_compressEd25519Point hcompress]

/-- An uncompressed point consists of its header and its coordinates. -/
theorem toList_eq_header_append (point : ByteArrayN 65) :
    point.toList = point.get 0 :: ((point.toList.take 33).drop 1 ++ point.toList.drop 33) := by
  obtain ⟨cells, hcells⟩ := point
  obtain ⟨header, rest, rfl⟩ := cells.exists_cons_of_length_eq_add_one hcells
  have hrest : rest.take 32 ++ rest.drop 32 = rest := List.take_append_drop 32 rest
  exact congrArg (List.cons header) hrest.symm

theorem eq_of_coordinates (hheader : point.get 0 = point'.get 0)
    (hx : xCoordinate point = xCoordinate point') (hy : yCoordinate point = yCoordinate point') :
    point = point' := by
  have hxBytes : (point.toList.take 33).drop 1 = (point'.toList.take 33).drop 1 :=
    (ofBigEndian_inj (by simp)).mp hx
  have hyBytes : point.toList.drop 33 = point'.toList.drop 33 :=
    (ofBigEndian_inj (by simp)).mp hy
  apply List.Vector.toList_injective
  rw [toList_eq_header_append point, toList_eq_header_append point', hheader, hxBytes, hyBytes]

/-- Distinct points of the curve have distinct encodings. -/
theorem encodePoint_injOn_curve : Set.InjOn encodePoint {point | IsCurvePoint point} := by
  intro point hpoint point' hpoint' hequal
  have hcoordinates :=
    coordinates_of_compressEd25519Point (compressEd25519Point_of_isCurvePoint hpoint)
  have hcoordinates' :=
    coordinates_of_compressEd25519Point (compressEd25519Point_of_isCurvePoint hpoint')
  rw [← hequal] at hcoordinates'
  have hy := hcoordinates.1.trans hcoordinates'.1.symm
  have hparity := hcoordinates.2.trans hcoordinates'.2.symm
  apply eq_of_coordinates
  · rw [hpoint.header_eq, hpoint'.header_eq]
  · exact hpoint.xCoordinate_eq hpoint' hy hparity
  · exact hy

/-- On the curve the compression fails for no point and is injective: a point is compressed to its
encoding, and two points with the same compressed key are the same. -/
theorem compressEd25519Point_identifies_points :
    (∀ point, IsCurvePoint point → compressEd25519Point point = .ok (encodePoint point)) ∧
      ∀ point point', IsCurvePoint point → IsCurvePoint point' →
        (compressEd25519Point point = compressEd25519Point point' ↔ point = point') := by
  constructor
  · intro point hpoint
    exact compressEd25519Point_of_isCurvePoint hpoint
  · intro point point' hpoint hpoint'
    rw [compressEd25519Point_of_isCurvePoint hpoint, compressEd25519Point_of_isCurvePoint hpoint',
      Except.ok.injEq]
    exact encodePoint_injOn_curve.eq_iff hpoint hpoint'

/-- The base point and its opposite share their second coordinate. -/
example :
    let point (x : Bytes) : ByteArrayN 65 :=
      padTo 65 0 (0x04 :: x ++ List.replicate 31 0x66 ++ [0x58])
    IsCurvePoint (point [0x21, 0x69, 0x36, 0xD3, 0xCD, 0x6E, 0x53, 0xFE, 0xC0, 0xA4, 0xE2, 0x31,
        0xFD, 0xD6, 0xDC, 0x5C, 0x69, 0x2C, 0xC7, 0x60, 0x95, 0x25, 0xA7, 0xB2, 0xC9, 0x56, 0x2D,
        0x60, 0x8F, 0x25, 0xD5, 0x1A]) ∧
      IsCurvePoint (point [0x5E, 0x96, 0xC9, 0x2C, 0x32, 0x91, 0xAC, 0x01, 0x3F, 0x5B, 0x1D, 0xCE,
        0x02, 0x29, 0x23, 0xA3, 0x96, 0xD3, 0x38, 0x9F, 0x6A, 0xDA, 0x58, 0x4D, 0x36, 0xA9, 0xD2,
        0x9F, 0x70, 0xDA, 0x2A, 0xD3]) := by
  refine ⟨⟨?_, ?_, ?_, ?_⟩, ⟨?_, ?_, ?_, ?_⟩⟩ <;> decide +kernel

/-! ## Addresses on the screen -/

theorem addressText_eq_display (publicKey : ByteArrayN 32) :
    addressText publicKey = Address.display ⟨publicKey⟩ := by
  rw [addressText, asciiText_hexText, Address.display, writeHex_eq, String.empty_append]

/-- The text of an address is read back. -/
theorem parseBytes32_addressText (publicKey : ByteArrayN 32) :
    parseBytes32 (addressText publicKey) = some publicKey := by
  rw [addressText_eq_display]
  exact parseBytes32_writeHex publicKey

theorem addressText_injective : Function.Injective addressText := by
  intro publicKey publicKey' htext
  have hparse := congrArg parseBytes32 htext
  rw [parseBytes32_addressText, parseBytes32_addressText] at hparse
  exact Option.some.inj hparse

variable {PrivateKey : Type} {keys : DeviceKeys PrivateKey} {path path' : DerivationPath}

/-- The public point of the key of a path. -/
def DeviceKeys.pointAt (keys : DeviceKeys PrivateKey) (path : DerivationPath) : ByteArrayN 65 :=
  keys.point (keys.privateKey path.toBip32Components)

theorem address_eq_iff (hcurve : ∀ path, IsCurvePoint (keys.pointAt path)) :
    keys.address path = keys.address path' ↔ keys.pointAt path = keys.pointAt path' :=
  encodePoint_injOn_curve.eq_iff (hcurve path) (hcurve path')

variable [Target]

/-- An iteration shows an address only for the path that was asked for. -/
theorem Iterates.of_showedAddress {received : Received} {phase next : Phase}
    {events : List DeviceEvent} (hiterates : Iterates received phase next events) {text : String}
    {approved : Bool} (hshowed : .showedAddress text approved ∈ events) :
    ∃ path publicKey, decodePath received.data = .ok path ∧
      received.deriver path = some publicKey ∧ text = addressText publicKey := by
  cases hiterates with
  | keyDeclined hheader hverifies hkey happroves =>
    obtain ⟨rfl, -⟩ : text = _ ∧ approved = _ := by simpa using hshowed
    exact ⟨_, _, hverifies.path_eq, hkey, rfl⟩
  | keyApproved hheader hverifies hkey happroves =>
    obtain ⟨rfl, -⟩ : text = _ ∧ approved = _ := by simpa using hshowed
    exact ⟨_, _, hverifies.path_eq, hkey, rfl⟩
  | _ => simp at hshowed

/-- On a device whose keys are points of the curve: an address that one iteration shows is the
sender on the lines of a transfer that another iteration signs, in the same run or in another one,
if and only if the path that was asked for and the path that is signed with have the same public
point. -/
theorem normalMain_addresses_identify_keys (keys : DeviceKeys PrivateKey)
    (hcurve : ∀ path, IsCurvePoint (keys.pointAt path)) (inputs inputs' : List Received)
    {received received' : Received} (hdevice : received.OnDevice keys)
    (hdevice' : received'.OnDevice keys) {text : String} {approved : Bool}
    (hshowed : .showedAddress text approved ∈
      (normalMain.step (normalMain.run (.running .new) inputs) received).2) {signing : Signing}
    (hsigned : .signed signing ∈
      (normalMain.step (normalMain.run (.running .new) inputs') received').2) :
    ∃ path transfer, decodePath received.data = .ok path ∧ signing.frame = transfer.bytes ∧
      .showedTransaction (transferLines transfer) true ∈
        (normalMain.step (normalMain.run (.running .new) inputs') received').2 ∧
      (lineValue (transferLines transfer) "sender" = some text ↔
        keys.pointAt path = keys.pointAt signing.path) := by
  obtain ⟨phase, hphase, hhead⟩ := runsAtHead_run inputs
  obtain ⟨phase', hphase', hhead'⟩ := runsAtHead_run inputs'
  obtain ⟨next, events, hstep, -, hiterates⟩ := step_normalMain hhead received
  obtain ⟨next', events', hstep', -, hiterates'⟩ := step_normalMain hhead' received'
  obtain ⟨firmware, hcomputes, hderiver, -⟩ := hdevice.exists_firmware
  obtain ⟨firmware', hcomputes', hderiver', -⟩ := hdevice'.exists_firmware
  rw [hphase, hstep] at hshowed
  rw [hphase', hstep'] at hsigned ⊢
  obtain ⟨path, publicKey, hpath, hkey, rfl⟩ := hiterates.of_showedAddress hshowed
  obtain ⟨collection, header, transfer, -, -, -, -, -, hsender, rfl, hlines⟩ :=
    hiterates'.of_signed hsigned
  rw [hderiver] at hkey
  rw [hderiver'] at hsender
  have hpublicKey : publicKey = keys.address path := address_of_deviceDeriver hcomputes hkey
  have haddress : transfer.sender.bytes = keys.address collection.path :=
    address_of_deviceDeriver hcomputes' hsender
  refine ⟨path, transfer, hpath, rfl, hlines, ?_⟩
  calc
    lineValue (transferLines transfer) "sender" = some (addressText publicKey) ↔
        addressText transfer.sender.bytes = addressText publicKey := by
      rw [(lineValue_transferLines transfer).1, Option.some.injEq,
        addressText_eq_display transfer.sender.bytes]
    _ ↔ keys.address collection.path = keys.address path := by
      rw [addressText_injective.eq_iff, haddress, hpublicKey]
    _ ↔ keys.pointAt path = keys.pointAt collection.path := by
      rw [eq_comm, address_eq_iff hcurve]

section Recorded

omit [Target]

theorem isCurvePoint_recordedPoint : IsCurvePoint recordedPoint where
  header_eq := rfl
  x_lt := by decide +kernel
  y_lt := by decide +kernel
  equation := by decide +kernel

/-- The address that is shown for the request is the sender in the exchange of the tests. -/
theorem normalMain_addresses_identify_keys_recorded :
    let _ : Target := .device
    .showedAddress (addressText expectedPublicKey) true ∈
        (normalMain.step (normalMain.run (.running .new) []) (recorded verifyCommand)).2 ∧
      ∃ inputs command transfer, .showedTransaction (transferLines transfer) true ∈
          (normalMain.step (normalMain.run (.running .new) inputs) (recorded command)).2 ∧
        lineValue (transferLines transfer) "sender" = some (addressText expectedPublicKey) := by
  intro target
  have hshowed : .showedAddress (addressText expectedPublicKey) true ∈
      (normalMain.step (normalMain.run (.running .new) []) (recorded verifyCommand)).2 := by
    decide +kernel
  obtain ⟨inputs, command, hstep⟩ := exists_step_of_exchange carries_recorded deviceFixture
  have hkey : deviceDeriver recordedFirmware originPath = some deviceFixture.sender.bytes := by
    decide +kernel
  have hsigned : .signed ⟨originPath, deviceFixture.bytes, some expectedSignature⟩ ∈
      (normalMain.step (normalMain.run (.running .new) inputs) (recorded command)).2 := by
    rw [hstep, ← deviceSigner_recordedFirmware originPath]
    exact signed_mem_transferAnswer hkey rfl
  obtain ⟨path, transfer, -, -, hlines, hidentify⟩ :=
    normalMain_addresses_identify_keys recordedKeys (fun _ ↦ isCurvePoint_recordedPoint) [] inputs
      (onDevice_recorded verifyCommand) (onDevice_recorded command) hshowed hsigned
  exact ⟨hshowed, inputs, command, transfer, hlines, hidentify.mpr rfl⟩

end Recorded

end SunriseEdgeLedger.Device
