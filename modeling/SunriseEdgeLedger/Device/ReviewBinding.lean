import SunriseEdgeLedger.Core.TransferEncoding
import SunriseEdgeLedger.Device.ReviewText

/-!
# What the user sees determines what is signed

The displayed facts determine the review, and the review determines the signed bytes: no byte of a
frame that can be signed is left out of the display or collapsed by it.
-/

namespace SunriseEdgeLedger.Device

open SunriseEdgeLedger.Foundation SunriseEdgeLedger.Core

variable [Target]

/-- A byte string decodes to a frame and a transaction that have a given review. -/
def Reviewable (policy : ClearSigningPolicy) (framed : Bytes) (review : ClearSigningReview) :
    Prop :=
  ∃ frame transaction, decodeSignatureFrame framed = .ok frame ∧
    decodeTransactionSignable frame.payload = .ok transaction ∧
    buildReview frame transaction policy = .ok review

omit [Target] in
theorem toFeeLine_injective : Function.Injective FeePayment.toFeeLine := by
  intro first second hline
  obtain ⟨hasset, hfee, hid, hversion, hdigest⟩ : first.assetId = second.assetId ∧
      first.maxFee = second.maxFee ∧ first.feeObject.id = second.feeObject.id ∧
      first.feeObject.version = second.feeObject.version ∧
      first.feeObject.digest = second.feeObject.digest := by
    simpa [FeePayment.toFeeLine] using hline
  exact FeePayment.ext hasset hfee (ObjectRef.ext hid hversion hdigest)

/-- Two transactions that a policy recognizes and that have the same review are the same. -/
theorem transaction_eq_of_reviewOf_eq {policy : ClearSigningPolicy} {frame frame' : SignatureFrame}
    {transaction transaction' : TransactionSignable} {amount amount' : UInt64}
    (hannounces : frame.Announces transaction) (hannounces' : frame'.Announces transaction')
    (hrecognize : policy.recognize transaction = .ok amount)
    (hrecognize' : policy.recognize transaction' = .ok amount')
    (hreview : reviewOf frame transaction policy amount =
      reviewOf frame' transaction' policy amount') : transaction = transaction' := by
  obtain ⟨hcall, htransfer⟩ := ClearSigningPolicy.recognize_eq_ok_iff.mp hrecognize
  obtain ⟨hcall', htransfer'⟩ := ClearSigningPolicy.recognize_eq_ok_iff.mp hrecognize'
  have hamount : amount = amount' := congrArg ClearSigningReview.amount hreview
  have hfee : transaction.feePayment = transaction'.feePayment :=
    Option.map_injective toFeeLine_injective (congrArg ClearSigningReview.fee hreview)
  refine TransactionSignable.ext ?_ ?_ ?_ ?_ ?_ ?_ ?_ ?_ ?_ ?_ hfee
  · rw [hannounces.chainId_eq, hannounces'.chainId_eq]
    exact congrArg ClearSigningReview.chainId hreview
  · rw [hcall.protocolVersion_eq, hcall'.protocolVersion_eq]
  · rw [hcall.epoch_eq, hcall'.epoch_eq]
  · exact congrArg ClearSigningReview.sender hreview
  · exact congrArg ClearSigningReview.nonce hreview
  · exact congrArg ClearSigningReview.accessEntries hreview
  · rw [hcall.moduleRef_eq, hcall'.moduleRef_eq]
  · exact congrArg ClearSigningReview.entrypoint hreview
  · rw [htransfer.args_eq, htransfer'.args_eq, hamount]
  · exact congrArg ClearSigningReview.gasLimit hreview

/-- Only one byte string has a given review. -/
theorem Reviewable.framed_unique {policy : ClearSigningPolicy} {framed framed' : Bytes}
    {review : ClearSigningReview} (hfirst : Reviewable policy framed review)
    (hsecond : Reviewable policy framed' review) : framed = framed' := by
  obtain ⟨frame, transaction, hframe, htransaction, hbuild⟩ := hfirst
  obtain ⟨frame', transaction', hframe', htransaction', hbuild'⟩ := hsecond
  obtain ⟨hannounces, amount, hrecognize, rfl⟩ := buildReview_eq_ok_iff.mp hbuild
  obtain ⟨hannounces', amount', hrecognize', hreview⟩ := buildReview_eq_ok_iff.mp hbuild'
  obtain rfl := transaction_eq_of_reviewOf_eq hannounces hannounces' hrecognize hrecognize' hreview
  have hpayload : frame.payload = frame'.payload :=
    decodeTransactionSignable_exact.input_unique htransaction htransaction'
  obtain rfl : frame = frame' :=
    SignatureFrame.ext (congrArg ClearSigningReview.chainId hreview)
      (congrArg ClearSigningReview.protocolVersion hreview)
      (congrArg ClearSigningReview.epoch hreview)
      (congrArg ClearSigningReview.messageType hreview)
      (congrArg ClearSigningReview.scheme hreview) hpayload
  exact decodeSignatureFrame_exact.input_unique hframe hframe'

/-! ## From the facts to the review -/

omit [Target] in
/-- Two computations that succeed with the same result. -/
def SameResult (first second : Except FormatFault BoundedFactStr) : Prop :=
  ∃ fact, first = .ok fact ∧ second = .ok fact

omit [Target] in
theorem text_eq_of_sameResult {first second : String}
    (hsame : SameResult (BoundedFactStr.tryFromStr first) (BoundedFactStr.tryFromStr second)) :
    first = second := by
  obtain ⟨fact, hfirst, hsecond⟩ := hsame
  obtain ⟨-, hfits, rfl⟩ := BoundedFactStr.tryFromStr_eq_ok_iff.mp hfirst
  obtain ⟨-, -, hequal⟩ := BoundedFactStr.tryFromStr_eq_ok_iff.mp hsecond
  exact asBytes_injective (BoundedFactStr.ofBytes_injOn hfits hequal)

omit [Target] in
theorem number_eq_of_sameResult {first second : UInt64}
    (hsame : SameResult (BoundedFactStr.fromU64 first) (BoundedFactStr.fromU64 second)) :
    first = second := by
  obtain ⟨fact, hfirst, hsecond⟩ := hsame
  rw [BoundedFactStr.fromU64_eq] at hfirst hsecond
  have htext := BoundedFactStr.ofBytes_injOn (BoundedFactStr.length_decimalText_u64_le first)
    (Except.ok.inj (hfirst.trans hsecond.symm))
  exact UInt64.toNat_inj.mp (decimalText_injective htext)

theorem bytes_eq_of_sameResult {first second : Bytes}
    (hsame : SameResult (BoundedFactStr.tryFromHex first) (BoundedFactStr.tryFromHex second)) :
    first = second := by
  obtain ⟨fact, hfirst, hsecond⟩ := hsame
  obtain ⟨hfits, rfl⟩ := BoundedFactStr.tryFromHex_eq_ok_iff.mp hfirst
  obtain ⟨-, hequal⟩ := BoundedFactStr.tryFromHex_eq_ok_iff.mp hsecond
  rw [← length_hexText hexChars.get] at hfits
  exact hexText_injective hexChars_injective (BoundedFactStr.ofBytes_injOn hfits hequal)

theorem array_eq_of_sameResult {size : ℕ} {first second : ByteArrayN size}
    (hsame : SameResult (BoundedFactStr.tryFromHex first.toList)
      (BoundedFactStr.tryFromHex second.toList)) : first = second :=
  List.Vector.toList_injective (bytes_eq_of_sameResult hsame)

theorem digest_eq_of_sameResult {first second : Digest32}
    (hsame : SameResult (BoundedFactStr.tryFromDigest first)
      (BoundedFactStr.tryFromDigest second)) : first = second := by
  obtain ⟨fact, hfirst, hsecond⟩ := hsame
  rw [BoundedFactStr.tryFromDigest_eq] at hfirst hsecond
  exact BoundedFactStr.digestText_injective (BoundedFactStr.ofBytes_injOn
    (BoundedFactStr.length_digestText_le first) (Except.ok.inj (hfirst.trans hsecond.symm)))

omit [Target] in
/-- Lists of computations that evaluate to the same facts agree in every name and result. -/
theorem forall₂_of_collectFacts {first second : List (String × Except FormatFault BoundedFactStr)}
    {facts : List ReviewFact} (hfirst : collectFacts first = .ok facts)
    (hsecond : collectFacts second = .ok facts) :
    List.Forall₂ (fun left right ↦ left.1 = right.1 ∧ SameResult left.2 right.2) first second := by
  induction first generalizing second facts with
  | nil =>
    obtain rfl := Except.ok.inj hfirst
    cases second with
    | nil => exact .nil
    | cons head second =>
      obtain ⟨name, computation⟩ := head
      simp [collectFacts, bind_eq_ok_iff] at hsecond
  | cons head first ih =>
    obtain ⟨name, computation⟩ := head
    simp only [collectFacts, bind_eq_ok_iff, Except.ok.injEq] at hfirst
    obtain ⟨value, hvalue, rest, hrest, rfl⟩ := hfirst
    cases second with
    | nil => simp [collectFacts] at hsecond
    | cons head' second =>
      obtain ⟨name', computation'⟩ := head'
      simp only [collectFacts, bind_eq_ok_iff, Except.ok.injEq, List.cons.injEq,
        ReviewFact.mk.injEq] at hsecond
      obtain ⟨_, hvalue', _, hrest', ⟨rfl, rfl⟩, rfl⟩ := hsecond
      exact .cons ⟨rfl, _, hvalue, hvalue'⟩ (ih hrest hrest')

/-- Formatting succeeds exactly if there are three access lines and a fee, and every fact of the
list can be represented. -/
theorem formatReviewFacts_eq_ok_iff {review : ClearSigningReview} {facts : List ReviewFact} :
    formatReviewFacts review = .ok facts ↔
      ∃ access0 access1 access2 fee, review.accessLines = [access0, access1, access2] ∧
        review.fee = some fee ∧
        collectFacts (factList review access0 access1 access2 fee) = .ok facts := by
  have hcount : review.accessLines.length = review.accessEntries.len := by
    rw [ClearSigningReview.accessLines, List.length_map, AccessManifest.length_iter]
  simp only [formatReviewFacts, bind_eq_ok_iff, ensure_eq_ok_iff, okOr_eq_ok_iff]
  constructor
  · rintro ⟨-, hlen, access0, haccess0, access1, haccess1, access2, haccess2, -, -, fee, hfee,
      hfacts⟩
    obtain ⟨first, second, third, hlines⟩ := exists_three_of_length (hcount.trans hlen)
    rw [hlines] at haccess0 haccess1 haccess2
    obtain rfl : first = access0 := Option.some.inj haccess0
    obtain rfl : second = access1 := Option.some.inj haccess1
    obtain rfl : third = access2 := Option.some.inj haccess2
    exact ⟨first, second, third, fee, hlines, hfee, hfacts⟩
  · rintro ⟨access0, access1, access2, fee, hlines, hfee, hfacts⟩
    have hlen : review.accessEntries.len = 3 := by rw [← hcount, hlines]; rfl
    refine ⟨⟨⟩, hlen, access0, ?_, access1, ?_, access2, ?_, ⟨⟩, ?_, fee, hfee, hfacts⟩ <;>
      rw [hlines] <;> rfl

theorem accessLine_eq_of_sameResult {first second : AccessLine}
    (hmode : SameResult (BoundedFactStr.tryFromStr first.mode.label)
      (BoundedFactStr.tryFromStr second.mode.label))
    (hid : SameResult (BoundedFactStr.tryFromHex first.objectId.bytes.toList)
      (BoundedFactStr.tryFromHex second.objectId.bytes.toList))
    (hversion : SameResult (BoundedFactStr.fromU64 first.version)
      (BoundedFactStr.fromU64 second.version))
    (hdigest : SameResult (BoundedFactStr.tryFromDigest first.digest)
      (BoundedFactStr.tryFromDigest second.digest)) : first = second :=
  AccessLine.ext (AccessMode.label_injective (text_eq_of_sameResult hmode))
    (ObjectId.ext (array_eq_of_sameResult hid)) (number_eq_of_sameResult hversion)
    (digest_eq_of_sameResult hdigest)

omit [Target] in
/-- The access lines determine the manifest. -/
theorem accessEntries_eq_of_accessLines_eq {first second : ClearSigningReview}
    (hlines : first.accessLines = second.accessLines) :
    first.accessEntries = second.accessEntries := by
  refine AccessManifest.iter_injective (List.map_injective_iff.mpr ?_ hlines)
  intro left right hline
  obtain ⟨hmode, hid, hversion, hdigest⟩ : left.mode = right.mode ∧
      left.objectRef.id = right.objectRef.id ∧ left.objectRef.version = right.objectRef.version ∧
      left.objectRef.digest = right.objectRef.digest := by
    simpa using hline
  exact AccessEntry.ext (ObjectRef.ext hid hversion hdigest) hmode

/-- Two reviews with the same displayed facts are the same review. -/
theorem review_eq_of_facts_eq {first second : ClearSigningReview} {facts : List ReviewFact}
    (hfirst : formatReviewFacts first = .ok facts)
    (hsecond : formatReviewFacts second = .ok facts) : first = second := by
  obtain ⟨access0, access1, access2, fee, hlines, hfee, hcollect⟩ :=
    formatReviewFacts_eq_ok_iff.mp hfirst
  obtain ⟨access0', access1', access2', fee', hlines', hfee', hcollect'⟩ :=
    formatReviewFacts_eq_ok_iff.mp hsecond
  have hagree := forall₂_of_collectFacts hcollect hcollect'
  simp only [factList, accessFacts, List.cons_append, List.nil_append, List.forall₂_cons, true_and]
    at hagree
  obtain ⟨hchain, hprotocol, hepoch, hmessage, hscheme, hsender, hnonce, hmodule, hmoduleVersion,
    hmoduleDigest, hentrypoint, ⟨hlabel, hamount⟩, hgas, -, hmode0, hid0, hversion0, hdigest0,
    hmode1, hid1, hversion1, hdigest1, hmode2, hid2, hversion2, hdigest2, -, hasset, hmax, hfeeId,
    hfeeVersion, hfeeDigest, -⟩ := hagree
  have haccess0 := accessLine_eq_of_sameResult hmode0 hid0 hversion0 hdigest0
  have haccess1 := accessLine_eq_of_sameResult hmode1 hid1 hversion1 hdigest1
  have haccess2 := accessLine_eq_of_sameResult hmode2 hid2 hversion2 hdigest2
  have hentries : first.accessEntries = second.accessEntries :=
    accessEntries_eq_of_accessLines_eq (by rw [hlines, hlines', haccess0, haccess1, haccess2])
  have hfeeLine : fee = fee' :=
    FeeLine.ext (AssetId.ext (array_eq_of_sameResult hasset)) (number_eq_of_sameResult hmax)
      (ObjectId.ext (array_eq_of_sameResult hfeeId)) (number_eq_of_sameResult hfeeVersion)
      (digest_eq_of_sameResult hfeeDigest)
  exact ClearSigningReview.ext
    (BoundedStr.asStr_injective (text_eq_of_sameResult hchain))
    (UInt32.toUInt64_inj.mp (number_eq_of_sameResult hprotocol))
    (number_eq_of_sameResult hepoch)
    (BoundedStr.asStr_injective (text_eq_of_sameResult hmessage))
    (SignatureSchemeId.label_injective (text_eq_of_sameResult hscheme))
    (Address.ext (array_eq_of_sameResult hsender))
    (number_eq_of_sameResult hnonce)
    (ObjectId.ext (array_eq_of_sameResult hmodule))
    (number_eq_of_sameResult hmoduleVersion)
    (digest_eq_of_sameResult hmoduleDigest)
    (BoundedStr.asStr_injective (text_eq_of_sameResult hentrypoint))
    (number_eq_of_sameResult hamount)
    hlabel
    (number_eq_of_sameResult hgas)
    hentries
    (by rw [hfee, hfee', hfeeLine])

omit [Target] in
theorem exists_collectFacts {computations : List (String × Except FormatFault BoundedFactStr)}
    (hfacts : ∀ line ∈ computations, ∃ fact, line.2 = .ok fact) :
    ∃ facts, collectFacts computations = .ok facts := by
  induction computations with
  | nil => exact ⟨[], rfl⟩
  | cons line computations ih =>
    obtain ⟨name, computation⟩ := line
    rw [List.forall_mem_cons] at hfacts
    obtain ⟨⟨fact, rfl⟩, hrest⟩ := hfacts
    obtain ⟨facts, hfacts⟩ := ih hrest
    exact ⟨⟨name, fact⟩ :: facts, by rw [collectFacts, ok_bind, hfacts, ok_bind]⟩

omit [Target] in
theorem exists_tryFromStr {capacity : ℕ} {text : BoundedStr capacity}
    (hcapacity : capacity ≤ maxFactLen) (hascii : isAscii text.asStr) :
    ∃ fact, BoundedFactStr.tryFromStr text.asStr = .ok fact :=
  ⟨_, BoundedFactStr.tryFromStr_eq_ok_iff.mpr
    ⟨hascii, text.length_asBytes_le.trans hcapacity, rfl⟩⟩

theorem exists_tryFromHex {size : ℕ} (hsize : 2 * size ≤ maxFactLen) (array : ByteArrayN size) :
    ∃ fact, BoundedFactStr.tryFromHex array.toList = .ok fact :=
  ⟨_, BoundedFactStr.tryFromHex_eq_ok_iff.mpr ⟨by rwa [array.toList_length], rfl⟩⟩

/-- Every review with three accesses, a fee and ASCII texts is displayed. -/
theorem exists_formatReviewFacts {review : ClearSigningReview} {fee : FeeLine}
    (hlen : review.accessEntries.len = 3) (hfee : review.fee = some fee)
    (hchain : isAscii review.chainId.asStr) (hmessage : isAscii review.messageType.asStr)
    (hentrypoint : isAscii review.entrypoint.asStr) :
    ∃ facts, formatReviewFacts review = .ok facts := by
  have hcount : review.accessLines.length = 3 := by
    rw [ClearSigningReview.accessLines, List.length_map, AccessManifest.length_iter, hlen]
  obtain ⟨access0, access1, access2, hlines⟩ := exists_three_of_length hcount
  have hnumber : ∀ value, ∃ fact, BoundedFactStr.fromU64 value = .ok fact :=
    fun value ↦ ⟨_, BoundedFactStr.fromU64_eq value⟩
  have hdigest : ∀ digest, ∃ fact, BoundedFactStr.tryFromDigest digest = .ok fact :=
    fun digest ↦ ⟨_, BoundedFactStr.tryFromDigest_eq digest⟩
  have harray : ∀ array : ByteArrayN 32, ∃ fact,
      BoundedFactStr.tryFromHex array.toList = .ok fact := exists_tryFromHex (by decide)
  have hmode : ∀ mode : AccessMode, ∃ fact,
      BoundedFactStr.tryFromStr mode.label = .ok fact := by
    intro mode
    cases mode <;> exact ⟨_, BoundedFactStr.tryFromStr_eq_ok_iff.mpr ⟨by decide, by decide, rfl⟩⟩
  have hscheme : ∀ scheme : SignatureSchemeId, ∃ fact,
      BoundedFactStr.tryFromStr scheme.label = .ok fact := by
    intro scheme
    cases scheme <;>
      exact ⟨_, BoundedFactStr.tryFromStr_eq_ok_iff.mpr ⟨by decide, by decide, rfl⟩⟩
  have hpresent : ∃ fact, BoundedFactStr.tryFromStr "present" = .ok fact :=
    ⟨_, BoundedFactStr.tryFromStr_eq_ok_iff.mpr ⟨by decide, by decide, rfl⟩⟩
  have hchainFact := exists_tryFromStr (show maxChainIdBytes ≤ maxFactLen by decide) hchain
  have hmessageFact := exists_tryFromStr (show maxMessageTypeBytes ≤ maxFactLen by decide) hmessage
  have hentrypointFact := exists_tryFromStr (show maxEntrypointBytes ≤ maxFactLen by decide) hentrypoint
  obtain ⟨facts, hfacts⟩ := exists_collectFacts
    (show ∀ line ∈ factList review access0 access1 access2 fee, ∃ fact, line.2 = .ok fact by
      simp only [factList, accessFacts, List.cons_append, List.nil_append, List.forall_mem_cons]
      simp only [hnumber, hdigest, harray, hmode, hscheme, hpresent, hchainFact, hmessageFact,
        hentrypointFact, true_and]
      simp)
  exact ⟨facts, formatReviewFacts_eq_ok_iff.mpr
    ⟨access0, access1, access2, fee, hlines, hfee, hfacts⟩⟩

/-- Every transfer is displayed. -/
theorem exists_formatReviewFacts_transfer (transfer : Transfer) :
    ∃ facts, formatReviewFacts transfer.review = .ok facts := by
  have hchain : isAscii Transfer.chainId.asStr := by decide
  have hmessage : isAscii Transfer.messageType.asStr := by decide
  have hentrypoint : isAscii Transfer.entrypoint.asStr := by decide
  exact exists_formatReviewFacts rfl rfl hchain hmessage hentrypoint

/-- The encoding of a transfer has the review of the transfer. -/
theorem reviewable_bytes (transfer : Transfer) :
    Reviewable devnetAssetTransferPolicy transfer.bytes transfer.review := by
  obtain ⟨frame, transaction, hframe, -, htransaction, hreview⟩ := transfer.approvable_bytes
  exact ⟨frame, transaction, hframe, htransaction, hreview⟩

/-- Under every policy, two byte strings that decode to a review, and whose reviews are displayed as
the same facts, are the same byte string. -/
theorem framed_eq_of_facts_eq {policy : ClearSigningPolicy} {framed framed' : Bytes}
    {review review' : ClearSigningReview} {facts : List ReviewFact}
    (hreview : Reviewable policy framed review) (hreview' : Reviewable policy framed' review')
    (hfacts : formatReviewFacts review = .ok facts)
    (hfacts' : formatReviewFacts review' = .ok facts) : framed = framed' := by
  obtain rfl := review_eq_of_facts_eq hfacts hfacts'
  exact hreview.framed_unique hreview'

omit [Target] in
/-- The facts of the transfer of one unit are displayed for its encoding only. -/
theorem framed_eq_of_facts_eq_unitTransfer :
    let _ : Target := .device
    (∃ facts, formatReviewFacts unitTransfer.review = .ok facts) ∧
      unitTransfer.bytes = signatureFrameBytes unitTransfer.signatureFrame := by
  intro target
  obtain ⟨facts, hfacts⟩ := exists_formatReviewFacts_transfer unitTransfer
  exact ⟨⟨facts, hfacts⟩, framed_eq_of_facts_eq (reviewable_bytes unitTransfer)
    (reviewable_bytes unitTransfer) hfacts hfacts⟩

end SunriseEdgeLedger.Device
