import SunriseEdgeLedger.Core.KeyDerivation
import SunriseEdgeLedger.Core.Rendering
import SunriseEdgeLedger.Device.ReviewBinding

/-!
# The displayed facts are the reference rendering

The formatters of the device and the reference renderer are independent of each other.  Here every
formatter is shown to write what the renderer writes for the same value, and hence all facts of a
review, in their order, to be the rendered lines.  Formatting can only fail for the wrong number of
accesses, a missing fee, or a text that is not ASCII.
-/

namespace SunriseEdgeLedger.Device

open SunriseEdgeLedger.Foundation SunriseEdgeLedger.Core

/-- A fact as a line of the rendering. -/
def ReviewFact.line (fact : ReviewFact) : Except FormatFault String := do
  let text ← fact.value.asStr
  .ok (fact.name ++ "=" ++ text)

/-- Whatever a formatter returns is read back as the given text. -/
def ShowsText (computation : Except FormatFault BoundedFactStr) (text : String) : Prop :=
  ∀ fact, computation = .ok fact → fact.asStr = .ok text

theorem shows_ok {content : Bytes} {text : String} (hfits : content.length ≤ maxFactLen)
    (hascii : ∀ byte ∈ content, byte < 128) (htext : asciiText content = text) :
    ShowsText (.ok (BoundedFactStr.ofBytes content)) text := by
  intro fact hfact
  obtain rfl := Except.ok.inj hfact
  rw [BoundedFactStr.asStr_ofBytes hfits hascii, htext]

theorem shows_tryFromStr (text : String) : ShowsText (BoundedFactStr.tryFromStr text) text := by
  intro fact hfact
  obtain ⟨hascii, hfits, rfl⟩ := BoundedFactStr.tryFromStr_eq_ok_iff.mp hfact
  have hbytes : ∀ byte ∈ asBytes text, byte < 128 := by simpa [isAscii] using hascii
  rw [BoundedFactStr.asStr_ofBytes hfits hbytes, asciiText_asBytes hascii]

theorem shows_fromU64 {val : UInt64} {number : ℕ} (hnumber : val.toNat = number) :
    ShowsText (BoundedFactStr.fromU64 val) number.repr := by
  rw [BoundedFactStr.fromU64_eq, ← hnumber]
  exact shows_ok (BoundedFactStr.length_decimalText_u64_le val) BoundedFactStr.decimalText_lt
    (asciiText_decimalText val.toNat)

/-- The two spellings of hexadecimal digits agree. -/
theorem asciiText_hexText (bytes : Bytes) :
    asciiText (hexText hexChars.get bytes) =
      String.ofList (hexText (fun digit ↦ Nat.digitChar digit.val) bytes) := by
  have hdigits : (fun byte : UInt8 ↦ Char.ofNat byte.toNat) ∘ hexChars.get =
      fun digit ↦ Nat.digitChar digit.val := by
    funext digit
    revert digit
    decide
  rw [asciiText, map_hexText, hdigits]

variable [Target]

theorem shows_tryFromHex (bytes : Bytes) :
    ShowsText (BoundedFactStr.tryFromHex bytes) (writeHex "" bytes) := by
  intro fact hfact
  obtain ⟨hfits, rfl⟩ := BoundedFactStr.tryFromHex_eq_ok_iff.mp hfact
  rw [← length_hexText hexChars.get] at hfits
  rw [BoundedFactStr.asStr_ofBytes hfits BoundedFactStr.hexText_lt, asciiText_hexText, writeHex_eq,
    String.empty_append]

theorem shows_tryFromDigest (digest : Digest32) :
    ShowsText (BoundedFactStr.tryFromDigest digest) digest.display := by
  have htext : asciiText (BoundedFactStr.digestText digest) = digest.display := by
    rw [BoundedFactStr.digestText, asciiText_append, asciiText_append, asciiText_hexText,
      asciiText_asBytes (BoundedFactStr.isAscii_label digest.algorithm), Digest32.display,
      writeHex_eq]
    rfl
  rw [BoundedFactStr.tryFromDigest_eq]
  exact shows_ok (BoundedFactStr.length_digestText_le digest)
    (BoundedFactStr.digestText_lt digest) htext

/-! ## All facts of a review -/

omit [Target] in
/-- A computed fact whose line can only be the given one. -/
def ShowsLine (computed : String × Except FormatFault BoundedFactStr) (line : String) : Prop :=
  ∃ text, ShowsText computed.2 text ∧ computed.1 ++ "=" ++ text = line

omit [Target] in
theorem showsLine_of {name heading text : String}
    {computation : Except FormatFault BoundedFactStr} (hheading : name ++ "=" = heading)
    (hshows : ShowsText computation text) : ShowsLine (name, computation) (heading ++ text) :=
  ⟨text, hshows, by rw [hheading]⟩

omit [Target] in
/-- Facts that are collected are the rendered lines. -/
theorem lines_of_collectFacts {computations : List (String × Except FormatFault BoundedFactStr)}
    {lines : List String} {facts : List ReviewFact}
    (hlines : List.Forall₂ ShowsLine computations lines)
    (hfacts : collectFacts computations = .ok facts) :
    facts.map ReviewFact.line = lines.map .ok := by
  induction hlines generalizing facts with
  | nil =>
    obtain rfl := Except.ok.inj hfacts
    rfl
  | @cons computed line computations lines hline hlines ih =>
    obtain ⟨name, computation⟩ := computed
    obtain ⟨text, hshows, rfl⟩ := hline
    simp only [collectFacts, bind_eq_ok_iff, Except.ok.injEq] at hfacts
    obtain ⟨value, hvalue, rest, hrest, rfl⟩ := hfacts
    rw [List.map_cons, List.map_cons, ih hrest, ReviewFact.line, hshows value hvalue, ok_bind]

/-- The four facts of an access entry are the lines of that entry. -/
theorem showsLine_accessFacts {modeName objectIdName versionName digestName : String} {index : ℕ}
    (line : AccessLine) (hmode : modeName ++ "=" = "access[" ++ index.repr ++ "].mode=")
    (hobjectId : objectIdName ++ "=" = "access[" ++ index.repr ++ "].object_id=")
    (hversion : versionName ++ "=" = "access[" ++ index.repr ++ "].version=")
    (hdigest : digestName ++ "=" = "access[" ++ index.repr ++ "].digest=") :
    List.Forall₂ ShowsLine (accessFacts modeName objectIdName versionName digestName line)
      (renderAccessLine index line) :=
  .cons (showsLine_of hmode (shows_tryFromStr _)) <|
    .cons (showsLine_of hobjectId (shows_tryFromHex _)) <|
    .cons (showsLine_of hversion (shows_fromU64 rfl)) <|
    .cons (showsLine_of hdigest (shows_tryFromDigest _)) .nil

omit [Target] in
theorem len_of_accessLines_eq {review : ClearSigningReview}
    {access0 access1 access2 : AccessLine}
    (hlines : review.accessLines = [access0, access1, access2]) :
    review.accessEntries.len = 3 := by
  have hcount := congrArg List.length hlines
  rwa [ClearSigningReview.accessLines, List.length_map, AccessManifest.length_iter] at hcount

/-- The facts of a review with three access lines are its rendered lines, in the same order. -/
theorem showsLine_factList {review : ClearSigningReview} {access0 access1 access2 : AccessLine}
    {fee : FeeLine} (hlines : review.accessLines = [access0, access1, access2])
    (hfee : review.fee = some fee) :
    ∃ lines, renderReviewLines review = some lines ∧ lines.length = 32 ∧
      List.Forall₂ ShowsLine (factList review access0 access1 access2 fee) lines := by
  have hlen := len_of_accessLines_eq hlines
  have hcount : (UInt64.ofNat review.accessEntries.len).toNat = review.accessEntries.len := by
    rw [hlen]
    rfl
  have hprotocol : review.protocolVersion.toUInt64.toNat = review.protocolVersion.toNat :=
    UInt32.toNat_toUInt64 _
  refine ⟨renderCallLines review ++ renderAccessLine 0 access0 ++ renderAccessLine 1 access1 ++
    renderAccessLine 2 access2 ++ renderFeeLines fee, ?_, rfl, ?_⟩
  · rw [renderReviewLines, hfee, hlines]
    simp
  · unfold factList
    refine List.rel_append (List.rel_append (List.rel_append (List.rel_append ?_ ?_) ?_) ?_) ?_
    · exact .cons (showsLine_of rfl (shows_tryFromStr _)) <|
        .cons (showsLine_of rfl (shows_fromU64 hprotocol)) <|
        .cons (showsLine_of rfl (shows_fromU64 rfl)) <|
        .cons (showsLine_of rfl (shows_tryFromStr _)) <|
        .cons (showsLine_of rfl (shows_tryFromStr _)) <|
        .cons (showsLine_of rfl (shows_tryFromHex _)) <|
        .cons (showsLine_of rfl (shows_fromU64 rfl)) <|
        .cons (showsLine_of rfl (shows_tryFromHex _)) <|
        .cons (showsLine_of rfl (shows_fromU64 rfl)) <|
        .cons (showsLine_of rfl (shows_tryFromDigest _)) <|
        .cons (showsLine_of rfl (shows_tryFromStr _)) <|
        .cons (showsLine_of rfl (shows_fromU64 rfl)) <|
        .cons (showsLine_of rfl (shows_fromU64 rfl)) <|
        .cons (showsLine_of rfl (shows_fromU64 hcount)) .nil
    · exact showsLine_accessFacts access0 rfl rfl rfl rfl
    · exact showsLine_accessFacts access1 rfl rfl rfl rfl
    · exact showsLine_accessFacts access2 rfl rfl rfl rfl
    · exact .cons ⟨"present", shows_tryFromStr _, rfl⟩ <|
        .cons (showsLine_of rfl (shows_tryFromHex _)) <|
        .cons (showsLine_of rfl (shows_fromU64 rfl)) <|
        .cons (showsLine_of rfl (shows_tryFromHex _)) <|
        .cons (showsLine_of rfl (shows_fromU64 rfl)) <|
        .cons (showsLine_of rfl (shows_tryFromDigest _)) .nil

/-- The errors that are left for a review. -/
def ReviewRefusal (fault : FormatFault) : Prop :=
  fault ∈ [.refused .wrongAccessCount, .refused .missingFee, .refused .nonAscii]

omit [Target] in
/-- Facts that are collected were all computed. -/
theorem exists_ok_of_collectFacts
    {computations : List (String × Except FormatFault BoundedFactStr)} {facts : List ReviewFact}
    (hfacts : collectFacts computations = .ok facts) :
    ∀ computed ∈ computations, ∃ fact, computed.2 = .ok fact := by
  induction computations generalizing facts with
  | nil => simp
  | cons computed computations ih =>
    obtain ⟨name, computation⟩ := computed
    simp only [collectFacts, bind_eq_ok_iff] at hfacts
    obtain ⟨value, hvalue, rest, hrest, -⟩ := hfacts
    exact List.forall_mem_cons.mpr ⟨⟨value, hvalue⟩, ih hrest⟩

omit [Target] in
/-- A text within the capacity is refused only for its characters. -/
theorem failsOnlyWith_tryFromStr {text : String} (hfits : (asBytes text).length ≤ maxFactLen) :
    FailsOnlyWith ReviewRefusal (BoundedFactStr.tryFromStr text) := by
  rw [BoundedFactStr.tryFromStr_eq, if_pos hfits]
  split_ifs
  · exact failsOnlyWith_ok _
  · exact failsOnlyWith_error (by simp [ReviewRefusal])

/-- No value of a review is too long. -/
theorem failsOnlyWith_factList (review : ClearSigningReview)
    (access0 access1 access2 : AccessLine) (fee : FeeLine) :
    ∀ computed ∈ factList review access0 access1 access2 fee,
      FailsOnlyWith ReviewRefusal computed.2 := by
  have hnumber : ∀ value, FailsOnlyWith ReviewRefusal (BoundedFactStr.fromU64 value) := by
    intro value
    rw [BoundedFactStr.fromU64_eq]
    exact failsOnlyWith_ok _
  have hdigest : ∀ digest, FailsOnlyWith ReviewRefusal (BoundedFactStr.tryFromDigest digest) := by
    intro digest
    rw [BoundedFactStr.tryFromDigest_eq]
    exact failsOnlyWith_ok _
  have harray : ∀ array : ByteArrayN 32,
      FailsOnlyWith ReviewRefusal (BoundedFactStr.tryFromHex array.toList) := by
    intro array
    obtain ⟨fact, hfact⟩ := exists_tryFromHex (by decide) array
    rw [hfact]
    exact failsOnlyWith_ok _
  have hmode : ∀ mode : AccessMode,
      FailsOnlyWith ReviewRefusal (BoundedFactStr.tryFromStr mode.label) := by
    intro mode
    cases mode <;> exact failsOnlyWith_tryFromStr (by decide)
  have hscheme : ∀ scheme : SignatureSchemeId,
      FailsOnlyWith ReviewRefusal (BoundedFactStr.tryFromStr scheme.label) := by
    intro scheme
    cases scheme <;> exact failsOnlyWith_tryFromStr (by decide)
  have hpresent : FailsOnlyWith ReviewRefusal (BoundedFactStr.tryFromStr "present") :=
    failsOnlyWith_tryFromStr (by decide)
  have hchain := failsOnlyWith_tryFromStr (review.chainId.length_asBytes_le.trans (by decide))
  have hmessage := failsOnlyWith_tryFromStr
    (review.messageType.length_asBytes_le.trans (by decide))
  have hentrypoint := failsOnlyWith_tryFromStr
    (review.entrypoint.length_asBytes_le.trans (by decide))
  simp only [factList, accessFacts, List.cons_append, List.nil_append, List.forall_mem_cons,
    hnumber, hdigest, harray, hmode, hscheme, hpresent, hchain, hmessage, hentrypoint, true_and]
  simp

/-- A review is refused for its accesses, its fee or its characters, and never for a length. -/
theorem reviewRefusal_of_formatReviewFacts (review : ClearSigningReview) :
    FailsOnlyWith ReviewRefusal (formatReviewFacts review) := by
  apply failsOnlyWith_formatReviewFacts
  · simp [ReviewRefusal]
  · simp [ReviewRefusal]
  · exact failsOnlyWith_factList review

/-- Exactly the reviews with three accesses, a fee and ASCII texts are formatted. -/
theorem exists_formatReviewFacts_iff {review : ClearSigningReview} :
    (∃ facts, formatReviewFacts review = .ok facts) ↔
      review.accessEntries.len = 3 ∧ review.fee.isSome ∧ isAscii review.chainId.asStr ∧
        isAscii review.messageType.asStr ∧ isAscii review.entrypoint.asStr := by
  constructor
  · rintro ⟨facts, hfacts⟩
    obtain ⟨access0, access1, access2, fee, hlines, hfee, hcollect⟩ :=
      formatReviewFacts_eq_ok_iff.mp hfacts
    have hlen : review.accessEntries.len = 3 := len_of_accessLines_eq hlines
    have hascii : ∀ {name text}, (name, BoundedFactStr.tryFromStr text) ∈
        factList review access0 access1 access2 fee → isAscii text := by
      intro name text hmem
      obtain ⟨fact, hfact⟩ := exists_ok_of_collectFacts hcollect _ hmem
      exact (BoundedFactStr.tryFromStr_eq_ok_iff.mp hfact).1
    refine ⟨hlen, by rw [hfee]; rfl, ?_, ?_, ?_⟩
    · exact @hascii "chain_id" _ (by simp [factList])
    · exact @hascii "message_type" _ (by simp [factList])
    · exact @hascii "entrypoint" _ (by simp [factList])
  · rintro ⟨hlen, hfee, hchain, hmessage, hentrypoint⟩
    obtain ⟨fee, hfee⟩ := Option.isSome_iff_exists.mp hfee
    exact exists_formatReviewFacts hlen hfee hchain hmessage hentrypoint

/-! ## Emitted reviews -/

/-- A review that a session puts before the user under the transfer policy is one of a transfer. -/
theorem exists_transfer_of_reviewTransaction {deriver : PublicKeyDeriver} {command : ApduCommand}
    {phase next : Phase} {review : ClearSigningReview} {derivations : List Derivation}
    (hdispatches : Dispatches deriver devnetAssetTransferPolicy command phase next
      (.reviewTransaction review) derivations) :
    ∃ transfer : Transfer, review = transfer.review := by
  generalize houtcome : DispatchOutcome.reviewTransaction review = outcome at hdispatches
  cases hdispatches with
  | @reviewed collection _ hsign hcompletes hcheck =>
    cases houtcome
    obtain ⟨transfer, -, htransfer⟩ :=
      exists_transfer_of_approvable (approvable_of_oneShotCheck hcheck)
    exact ⟨transfer, htransfer⟩
  | _ => cases houtcome

/-- The facts that the device displays are the reference rendering.  Formatting succeeds exactly for
three accesses, a fee and ASCII texts, and is never refused for a length.  The 32 facts that it
returns are the rendered lines in their order.  Every review that a session emits under the transfer
policy, after any run, is formatted. -/
theorem formatReviewFacts_renders :
    (∀ review, (∃ facts, formatReviewFacts review = .ok facts) ↔
        review.accessEntries.len = 3 ∧ review.fee.isSome ∧ isAscii review.chainId.asStr ∧
          isAscii review.messageType.asStr ∧ isAscii review.entrypoint.asStr) ∧
      (∀ review fault, formatReviewFacts review = .error fault →
        fault ∈ [.refused .wrongAccessCount, .refused .missingFee, .refused .nonAscii]) ∧
      (∀ review facts, formatReviewFacts review = .ok facts →
        ∃ lines, renderReviewLines review = some lines ∧ lines.length = 32 ∧
          facts.map ReviewFact.line = lines.map .ok) ∧
      ∀ operations command deriver review,
        (dispatch (sessionMachine.run .new operations) command deriver
          devnetAssetTransferPolicy).outcome = .reviewTransaction review →
        ∃ facts, formatReviewFacts review = .ok facts := by
  refine ⟨fun review ↦ exists_formatReviewFacts_iff, reviewRefusal_of_formatReviewFacts, ?_, ?_⟩
  · intro review facts hfacts
    obtain ⟨access0, access1, access2, fee, hlines, hfee, hcollect⟩ :=
      formatReviewFacts_eq_ok_iff.mp hfacts
    obtain ⟨lines, hrender, hlength, hshows⟩ := showsLine_factList hlines hfee
    exact ⟨lines, hrender, hlength, lines_of_collectFacts hshows hcollect⟩
  · intro operations command deriver review houtcome
    obtain ⟨phase, hphase⟩ := representsPhase_run operations
    obtain ⟨next, -, hdispatches⟩ :=
      dispatch_represent phase command deriver devnetAssetTransferPolicy
    rw [← hphase, houtcome] at hdispatches
    obtain ⟨transfer, rfl⟩ := exists_transfer_of_reviewTransaction hdispatches
    exact exists_formatReviewFacts_transfer transfer

end SunriseEdgeLedger.Device
