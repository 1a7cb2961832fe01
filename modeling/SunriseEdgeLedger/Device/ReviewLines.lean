import SunriseEdgeLedger.Device.EventLoopSafety
import SunriseEdgeLedger.Device.ReviewReading
import SunriseEdgeLedger.Device.ReviewRendering

/-!
# The lines of a transfer

What stands on the screen for a transfer: 32 lines, of which some are the same for every transfer
and the others spell its parts.  A reader of the lines gets back the transfer, and with it every
byte of the frame that is signed, without any look at the frame.
-/

namespace SunriseEdgeLedger.Device

open SunriseEdgeLedger.Foundation SunriseEdgeLedger.Core

/-- The lines of a written object under their names. -/
def writtenLines (modeName objectIdName versionName digestName : String) (object : ObjectRef) :
    List Field :=
  [⟨modeName, "write"⟩, ⟨objectIdName, object.id.display⟩,
    ⟨versionName, object.version.toNat.repr⟩, ⟨digestName, object.digest.display⟩]

/-- The lines of a transfer. -/
def transferLines (transfer : Transfer) : List Field :=
  [⟨"chain_id", "sunrise-local-devnet"⟩,
    ⟨"protocol_version", "3"⟩,
    ⟨"epoch", "0"⟩,
    ⟨"message_type", "transaction-v1"⟩,
    ⟨"scheme", "ed25519"⟩,
    ⟨"sender", transfer.sender.display⟩,
    ⟨"nonce", transfer.nonce.toNat.repr⟩,
    ⟨"module_id", "0d5dd10aec2c315b1dc564c694439e46bac4b61426d22e0d7ddb764c49197fe7"⟩,
    ⟨"module_version", "3"⟩,
    ⟨"module_digest",
      "sha2-256:01534128f12eb4cf469bfa29677bbced1344879de2870315847cbb7faec21619"⟩,
    ⟨"entrypoint", "transfer"⟩,
    ⟨"amount", transfer.amount.toNat.repr⟩,
    ⟨"gas_limit", transfer.gasLimit.toNat.repr⟩,
    ⟨"manifest_count", "3"⟩] ++
  writtenLines "access[0].mode" "access[0].object_id" "access[0].version" "access[0].digest"
    transfer.source ++
  writtenLines "access[1].mode" "access[1].object_id" "access[1].version" "access[1].digest"
    transfer.second ++
  writtenLines "access[2].mode" "access[2].object_id" "access[2].version" "access[2].digest"
    transfer.third ++
  [⟨"fee_payment", "present"⟩,
    ⟨"fee_asset", "ccad27f687338b99953183728647bc1177388eb45a37afd9812c0d286b433ea8"⟩,
    ⟨"fee_max", transfer.maxFee.toNat.repr⟩,
    ⟨"fee_object_id", transfer.source.id.display⟩,
    ⟨"fee_object_version", transfer.source.version.toNat.repr⟩,
    ⟨"fee_object_digest", transfer.source.digest.display⟩]

theorem length_transferLines (transfer : Transfer) : (transferLines transfer).length = 32 := rfl

/-- A computed fact whose field can only be the given one. -/
def ShowsField (computed : String × Except FormatFault BoundedFactStr) (field : Field) : Prop :=
  field.name = computed.1 ∧ ShowsText computed.2 field.value

/-- Facts that are collected show the lines of their computations. -/
theorem shows_of_collectFacts {computations : List (String × Except FormatFault BoundedFactStr)}
    {lines : List Field} {facts : List ReviewFact}
    (hlines : List.Forall₂ ShowsField computations lines)
    (hfacts : collectFacts computations = .ok facts) : List.Forall₂ Shows facts lines := by
  induction hlines generalizing facts with
  | nil =>
    obtain rfl := Except.ok.inj hfacts
    exact .nil
  | @cons computed line computations lines hline hlines ih =>
    obtain ⟨name, computation⟩ := computed
    obtain ⟨hname, hshows⟩ := hline
    simp only [collectFacts, bind_eq_ok_iff, Except.ok.injEq] at hfacts
    obtain ⟨value, hvalue, rest, hrest, rfl⟩ := hfacts
    exact .cons ⟨hname, hshows value hvalue⟩ (ih hrest)

/-- Facts are pushed as the lines that they show. -/
theorem pushFields_eq {facts : List ReviewFact} {lines : List Field} (fields : List Field)
    (hroom : fields.length + facts.length ≤ 32) (hlines : List.Forall₂ Shows facts lines) :
    pushFields fields facts = .ok (fields ++ lines) := by
  induction hlines generalizing fields with
  | nil => rw [pushFields, List.append_nil]
  | @cons fact line facts lines hline hlines ih =>
    rw [List.length_cons] at hroom
    have hlt : fields.length < 32 := by omega
    have hfield : Field.mk fact.name line.value = line := by
      rw [← hline.name_eq]
    have hrest : (fields ++ [line]).length + facts.length ≤ 32 := by
      rw [List.length_append, List.length_singleton]
      omega
    rw [pushFields, hline.text_eq, mapError_ok, ok_bind, ensure_of_true hlt, ok_bind, hfield,
      ih _ hrest, List.append_assoc, List.singleton_append]

section Screen

theorem showsField_text {name text value : String} (hvalue : text = value) :
    ShowsField (name, BoundedFactStr.tryFromStr text) ⟨name, value⟩ :=
  ⟨rfl, hvalue ▸ shows_tryFromStr text⟩

theorem showsField_number {name text : String} {value : UInt64} {number : ℕ}
    (hnumber : value.toNat = number) (htext : number.repr = text) :
    ShowsField (name, BoundedFactStr.fromU64 value) ⟨name, text⟩ :=
  ⟨rfl, htext ▸ shows_fromU64 hnumber⟩

variable [Target]

theorem showsField_hex {name text : String} {bytes : Bytes} (htext : writeHex "" bytes = text) :
    ShowsField (name, BoundedFactStr.tryFromHex bytes) ⟨name, text⟩ :=
  ⟨rfl, htext ▸ shows_tryFromHex bytes⟩

theorem showsField_digest {name text : String} {digest : Digest32}
    (htext : digest.display = text) :
    ShowsField (name, BoundedFactStr.tryFromDigest digest) ⟨name, text⟩ :=
  ⟨rfl, htext ▸ shows_tryFromDigest digest⟩

/-- The access line of a written object. -/
def writtenAccess (object : ObjectRef) : AccessLine where
  mode := .write
  objectId := object.id
  version := object.version
  digest := object.digest

theorem showsField_writtenLines (modeName objectIdName versionName digestName : String)
    (object : ObjectRef) :
    List.Forall₂ ShowsField
      (accessFacts modeName objectIdName versionName digestName (writtenAccess object))
      (writtenLines modeName objectIdName versionName digestName object) :=
  .cons (showsField_text rfl) <| .cons (showsField_hex rfl) <|
    .cons (showsField_number rfl rfl) <| .cons (showsField_digest rfl) .nil

/-- The facts of a transfer show its lines. -/
theorem showsField_transferLines (transfer : Transfer) :
    List.Forall₂ ShowsField
      (factList transfer.review (writtenAccess transfer.source) (writtenAccess transfer.second)
        (writtenAccess transfer.third) transfer.feePayment.toFeeLine)
      (transferLines transfer) := by
  have hmodule : Transfer.moduleRef.id.display =
      "0d5dd10aec2c315b1dc564c694439e46bac4b61426d22e0d7ddb764c49197fe7" := by decide +kernel
  have hdigest : Transfer.moduleRef.digest.display =
      "sha2-256:01534128f12eb4cf469bfa29677bbced1344879de2870315847cbb7faec21619" := by
    decide +kernel
  have hasset : (AssetId.mk devnetAssetTransferPolicy.feeAssetId).display =
      "ccad27f687338b99953183728647bc1177388eb45a37afd9812c0d286b433ea8" := by decide +kernel
  have hzero : (0 : ℕ).repr = "0" := rfl
  have hthree : (3 : ℕ).repr = "3" := rfl
  unfold factList transferLines
  refine List.rel_append (List.rel_append (List.rel_append (List.rel_append ?_ ?_) ?_) ?_) ?_
  · exact .cons (showsField_text (BoundedStr.asStr_ofString _ _)) <|
      .cons (showsField_number rfl hthree) <|
      .cons (showsField_number rfl hzero) <|
      .cons (showsField_text (BoundedStr.asStr_ofString _ _)) <|
      .cons (showsField_text rfl) <|
      .cons (showsField_hex rfl) <|
      .cons (showsField_number rfl rfl) <|
      .cons (showsField_hex hmodule) <|
      .cons (showsField_number rfl hthree) <|
      .cons (showsField_digest hdigest) <|
      .cons (showsField_text (BoundedStr.asStr_ofString _ _)) <|
      .cons (showsField_number rfl rfl) <|
      .cons (showsField_number rfl rfl) <|
      .cons (showsField_number rfl hthree) .nil
  · exact showsField_writtenLines _ _ _ _ transfer.source
  · exact showsField_writtenLines _ _ _ _ transfer.second
  · exact showsField_writtenLines _ _ _ _ transfer.third
  · exact .cons (showsField_text rfl) <|
      .cons (showsField_hex hasset) <|
      .cons (showsField_number rfl rfl) <|
      .cons (showsField_hex rfl) <|
      .cons (showsField_number rfl rfl) <|
      .cons (showsField_digest rfl) .nil

/-- The screen shows a transfer as its lines. -/
theorem uiDisplayTransaction_transfer (transfer : Transfer) :
    uiDisplayTransaction transfer.review = .ok (transferLines transfer) := by
  obtain ⟨facts, hformat⟩ := exists_formatReviewFacts_transfer transfer
  obtain ⟨access0, access1, access2, fee, haccess, hfee, hcollect⟩ :=
    formatReviewFacts_eq_ok_iff.mp hformat
  have hlines : transfer.review.accessLines = [writtenAccess transfer.source,
      writtenAccess transfer.second, writtenAccess transfer.third] := by
    change transfer.accessManifest.iter.map _ = _
    rw [Transfer.iter_accessManifest]
    rfl
  simp only [hlines, List.cons.injEq, and_true] at haccess
  obtain ⟨rfl, rfl, rfl⟩ := haccess
  obtain rfl : transfer.feePayment.toFeeLine = fee := Option.some.inj hfee
  have hshows := shows_of_collectFacts (showsField_transferLines transfer) hcollect
  have hcount : facts.length = 32 := hshows.length_eq
  rw [uiDisplayTransaction, hformat, mapError_ok, ok_bind,
    pushFields_eq [] (by rw [hcount]; decide) hshows, List.nil_append]

end Screen

/-! ## Reading the lines -/

/-- The value of the first line with a name. -/
def lineValue (lines : List Field) (name : String) : Option String :=
  (lines.find? fun line ↦ line.name = name).map Field.value

/-- Read a number below 2^64. -/
def parseU64 (text : String) : Option UInt64 := do
  let number ← text.toNat?
  if number < 2 ^ 64 then some (UInt64.ofNat number) else none

/-- Read 32 bytes in hexadecimal. -/
def parseBytes32 (text : String) : Option (ByteArrayN 32) := (parseHex text).bind (arrayOf? 32)

def readU64 (lines : List Field) (name : String) : Option UInt64 :=
  (lineValue lines name).bind parseU64

def readBytes32 (lines : List Field) (name : String) : Option (ByteArrayN 32) :=
  (lineValue lines name).bind parseBytes32

/-- Read an object from the lines with its names. -/
def readObject (lines : List Field) (objectIdName versionName digestName : String) :
    Option ObjectRef := do
  let id ← readBytes32 lines objectIdName
  let version ← readU64 lines versionName
  let digest ← (lineValue lines digestName).bind parseDigest
  some { id := ⟨id⟩, version, digest }

/-- Read the parts of a transfer. -/
def readTransfer (lines : List Field) : Option Transfer := do
  let sender ← readBytes32 lines "sender"
  let nonce ← readU64 lines "nonce"
  let amount ← readU64 lines "amount"
  let gasLimit ← readU64 lines "gas_limit"
  let source ← readObject lines "access[0].object_id" "access[0].version" "access[0].digest"
  let second ← readObject lines "access[1].object_id" "access[1].version" "access[1].digest"
  let third ← readObject lines "access[2].object_id" "access[2].version" "access[2].digest"
  let maxFee ← readU64 lines "fee_max"
  if hvalid : amount ≠ 0 ∧ source.id ≠ second.id ∧ source.id ≠ third.id ∧ second.id ≠ third.id then
    some {
      sender := ⟨sender⟩
      nonce, gasLimit, maxFee, amount, source, second, third
      amount_ne := hvalid.1
      source_ne_second := hvalid.2.1
      source_ne_third := hvalid.2.2.1
      second_ne_third := hvalid.2.2.2
    }
  else none

/-- The frame that the lines stand for. -/
def bytesOfLines (lines : List Field) : Option Bytes := (readTransfer lines).map Transfer.bytes

theorem parseU64_repr (value : UInt64) : parseU64 value.toNat.repr = some value := by
  rw [parseU64, Nat.toNat?_repr, Option.bind_eq_bind, Option.bind_some, if_pos value.toNat_lt,
    UInt64.ofNat_toNat]

theorem parseBytes32_writeHex (bytes : ByteArrayN 32) :
    parseBytes32 (writeHex "" bytes.toList) = some bytes := by
  rw [parseBytes32, parseHex_writeHex, Option.bind_some, arrayOf?_toList]

section Read

variable {lines : List Field} {name : String}

theorem readU64_eq {value : UInt64} (hvalue : lineValue lines name = some value.toNat.repr) :
    readU64 lines name = some value := by
  rw [readU64, hvalue, Option.bind_some, parseU64_repr]

theorem readBytes32_eq {bytes : ByteArrayN 32}
    (hvalue : lineValue lines name = some (writeHex "" bytes.toList)) :
    readBytes32 lines name = some bytes := by
  rw [readBytes32, hvalue, Option.bind_some, parseBytes32_writeHex]

theorem readObject_eq {objectIdName versionName digestName : String} {object : ObjectRef}
    (hid : lineValue lines objectIdName = some object.id.display)
    (hversion : lineValue lines versionName = some object.version.toNat.repr)
    (hdigest : lineValue lines digestName = some object.digest.display) :
    readObject lines objectIdName versionName digestName = some object := by
  simp only [readObject, readBytes32_eq hid, readU64_eq hversion, hdigest, parseDigest_display,
    Option.bind_eq_bind, Option.bind_some]

end Read

/-- The values of the lines that the reader looks up. -/
theorem lineValue_transferLines (transfer : Transfer) :
    lineValue (transferLines transfer) "sender" = some transfer.sender.display ∧
      lineValue (transferLines transfer) "nonce" = some transfer.nonce.toNat.repr ∧
      lineValue (transferLines transfer) "amount" = some transfer.amount.toNat.repr ∧
      lineValue (transferLines transfer) "gas_limit" = some transfer.gasLimit.toNat.repr ∧
      lineValue (transferLines transfer) "fee_max" = some transfer.maxFee.toNat.repr := by
  simp [lineValue, transferLines, writtenLines]

/-- The values of the lines of the objects. -/
theorem lineValue_transferLines_objects (transfer : Transfer) :
    readObject (transferLines transfer) "access[0].object_id" "access[0].version"
        "access[0].digest" = some transfer.source ∧
      readObject (transferLines transfer) "access[1].object_id" "access[1].version"
        "access[1].digest" = some transfer.second ∧
      readObject (transferLines transfer) "access[2].object_id" "access[2].version"
        "access[2].digest" = some transfer.third := by
  refine ⟨readObject_eq ?_ ?_ ?_, readObject_eq ?_ ?_ ?_, readObject_eq ?_ ?_ ?_⟩ <;>
    simp [lineValue, transferLines, writtenLines]

/-- The lines of a transfer are read as the transfer. -/
theorem readTransfer_transferLines (transfer : Transfer) :
    readTransfer (transferLines transfer) = some transfer := by
  obtain ⟨hsender, hnonce, hamount, hgas, hfee⟩ := lineValue_transferLines transfer
  obtain ⟨hsource, hsecond, hthird⟩ := lineValue_transferLines_objects transfer
  have hvalid : transfer.amount ≠ 0 ∧ transfer.source.id ≠ transfer.second.id ∧
      transfer.source.id ≠ transfer.third.id ∧ transfer.second.id ≠ transfer.third.id :=
    ⟨transfer.amount_ne, transfer.source_ne_second, transfer.source_ne_third,
      transfer.second_ne_third⟩
  simp only [readTransfer, readBytes32_eq hsender, readU64_eq hnonce, readU64_eq hamount,
    readU64_eq hgas, readU64_eq hfee, hsource, hsecond, hthird, Option.bind_eq_bind,
    Option.bind_some, dif_pos hvalid]

/-- The lines of a transfer stand for its encoding. -/
theorem bytesOfLines_transferLines (transfer : Transfer) :
    bytesOfLines (transferLines transfer) = some transfer.bytes := by
  rw [bytesOfLines, readTransfer_transferLines, Option.map_some]

end SunriseEdgeLedger.Device
