import SunriseEdgeLedger.Device.EventLoop
import SunriseEdgeLedger.Device.ReviewText

/-!
# The event loop is safe

At the head of the loop a session is never waiting for an approval, and every iteration sends
exactly one reply.  A signature or a public key is sent only after it was put before the user and
approved, and whatever the outside answers, a session that must not go on is a new one.
-/

namespace SunriseEdgeLedger.Device

open SunriseEdgeLedger.Foundation SunriseEdgeLedger.Core

section Screens

variable [Target]

/-- Every public key is shown in hexadecimal notation. -/
theorem uiDisplayPublicKey_eq (publicKey : ByteArrayN 32) :
    uiDisplayPublicKey publicKey = .ok (asciiText (hexText hexChars.get publicKey.toList)) := by
  have hfits : 2 * publicKey.toList.length ≤ maxFactLen := by
    rw [publicKey.toList_length]
    decide
  have hhex := length_hexText hexChars.get publicKey.toList
  have htext := BoundedFactStr.asStr_ofBytes (hhex.trans_le hfits) BoundedFactStr.hexText_lt
  rw [uiDisplayPublicKey, BoundedFactStr.tryFromHex_eq, if_pos hfits, mapError_ok, ok_bind, htext,
    mapError_ok]

omit [Target] in
/-- A line shows a fact: its name and its whole text. -/
structure Shows (fact : ReviewFact) (field : Field) : Prop where
  name_eq : field.name = fact.name
  text_eq : fact.value.asStr = .ok field.value

omit [Target] in
/-- Readable facts are pushed as long as there is room for them. -/
theorem exists_pushFields {facts : List ReviewFact} (fields : List Field)
    (hroom : fields.length + facts.length ≤ 32) (hreadable : ∀ fact ∈ facts, fact.value.Readable) :
    ∃ shown, pushFields fields facts = .ok (fields ++ shown) ∧ List.Forall₂ Shows facts shown := by
  induction facts generalizing fields with
  | nil => exact ⟨[], by rw [pushFields, List.append_nil], .nil⟩
  | cons fact facts ih =>
    rw [List.forall_mem_cons] at hreadable
    rw [List.length_cons] at hroom
    obtain ⟨text, htext⟩ := hreadable.1.exists_asStr
    have hlt : fields.length < 32 := by omega
    have hrest : (fields ++ [Field.mk fact.name text]).length + facts.length ≤ 32 := by
      rw [List.length_append, List.length_singleton]
      omega
    obtain ⟨shown, hshown, hlines⟩ := ih _ hrest hreadable.2
    refine ⟨⟨fact.name, text⟩ :: shown, ?_, .cons ⟨rfl, htext⟩ hlines⟩
    rw [pushFields, htext, mapError_ok, ok_bind, ensure_of_true hlt, ok_bind, hshown,
      List.append_assoc, List.singleton_append]

/-- A review is shown as the lines of its 32 facts, or it is not shown and reported as an internal
failure. -/
theorem uiDisplayTransaction_cases (review : ClearSigningReview) :
    (∃ facts fields, formatReviewFacts review = .ok facts ∧ facts.length = 32 ∧
      List.Forall₂ Shows facts fields ∧ uiDisplayTransaction review = .ok fields) ∨
    uiDisplayTransaction review = .error (.status .internalFailure) := by
  obtain ⟨hfails, hreadable⟩ := sound_formatReviewFacts review
  cases hformat : formatReviewFacts review with
  | ok facts =>
    obtain ⟨hlength, hfacts⟩ := hreadable facts hformat
    obtain ⟨fields, hfields, hlines⟩ := exists_pushFields []
      (show ([] : List Field).length + facts.length ≤ 32 by rw [hlength]; decide) hfacts
    refine .inl ⟨facts, fields, rfl, hlength, hlines, ?_⟩
    rw [uiDisplayTransaction, hformat, mapError_ok, ok_bind, hfields, List.nil_append]
  | error fault =>
    cases fault with
    | refused error => exact .inr (by rw [uiDisplayTransaction, hformat]; rfl)
    | panicked => exact absurd rfl (hfails _ hformat)

end Screens

/-- The events contain exactly one reply, which has given data and status. -/
def Answers (events : List DeviceEvent) (data : Bytes) (status : UInt16) (succeeded : Bool) : Prop :=
  ∃ before after, events = before ++ .sent data status succeeded :: after ∧
    ∀ event ∈ before ++ after, event.isSent = false

namespace Answers

variable {events : List DeviceEvent} {data : Bytes} {status : UInt16} {succeeded : Bool}

theorem countP_isSent (hanswers : Answers events data status succeeded) :
    events.countP DeviceEvent.isSent = 1 := by
  obtain ⟨before, after, rfl, hothers⟩ := hanswers
  have hnone : (before ++ after).countP DeviceEvent.isSent = 0 :=
    List.countP_eq_zero.mpr fun event hevent ↦ by simp [hothers event hevent]
  rw [List.countP_append] at hnone
  rw [List.countP_append, List.countP_cons_of_pos rfl]
  omega

/-- Any reply among the events is that reply. -/
theorem eq_of_mem (hanswers : Answers events data status succeeded) {data' : Bytes}
    {status' : UInt16} {succeeded' : Bool} (hsent : .sent data' status' succeeded' ∈ events) :
    data' = data ∧ status' = status ∧ succeeded' = succeeded := by
  obtain ⟨before, after, rfl, hothers⟩ := hanswers
  rw [List.mem_append, List.mem_cons] at hsent
  have helsewhere : DeviceEvent.sent data' status' succeeded' ∉ before ++ after :=
    fun hmem ↦ absurd (hothers _ hmem) (by simp [DeviceEvent.isSent])
  rw [List.mem_append] at helsewhere
  rcases hsent with hbefore | hequal | hafter
  · exact absurd (.inl hbefore) helsewhere
  · simpa using hequal
  · exact absurd (.inr hafter) helsewhere

end Answers

theorem answers_reply (derivations : List Derivation) (data : Bytes) (status : UInt16)
    (succeeded : Bool) :
    Answers (derivations.map .derived ++ [.sent data status succeeded]) data status succeeded := by
  refine ⟨_, [], rfl, ?_⟩
  intro event hevent
  rw [List.append_nil] at hevent
  obtain ⟨derivation, -, rfl⟩ := List.mem_map.mp hevent
  rfl

variable [Target]

/-- The events sent a signature that is the signer's answer for the captured path and the collected
frame, after the 32 facts of the review of that frame were shown and approved. -/
def SendsSignature (session : SigningSession) (received : Received) (events : List DeviceEvent)
    (data : Bytes) : Prop :=
  ∃ header path content review facts fields signature, received.header = .ok header ∧
    IsSign (received.apduCommand header) signP1Last ∧ session.path = some path ∧
    getRange session.buffer.toList 0 session.bufferedLen = some content ∧
    (dispatch session (received.apduCommand header) received.deriver
      devnetAssetTransferPolicy).outcome = .reviewTransaction review ∧
    (dispatch session (received.apduCommand header) received.deriver
      devnetAssetTransferPolicy).session.pendingFrame = some (content ++ received.data) ∧
    Approvable devnetAssetTransferPolicy (content ++ received.data) review ∧
    formatReviewFacts review = .ok facts ∧ facts.length = 32 ∧ List.Forall₂ Shows facts fields ∧
    received.approves = true ∧ received.signer path (content ++ received.data) = some signature ∧
    data = signature.toList ∧
    events = [.derived ⟨path, received.deriver path⟩, .showedTransaction fields true,
      .signed ⟨path, content ++ received.data, some signature⟩, .sent data 0x9000 received.sends,
      .showedStatus .transaction true, .showedHome]

omit [Target] in
/-- The events sent a public key that is the deriver's answer for the path in the command, after it
was shown in hexadecimal notation and approved. -/
def SendsPublicKey (received : Received) (events : List DeviceEvent) (data : Bytes) : Prop :=
  ∃ header path publicKey, received.header = .ok header ∧
    VerifiesKey (received.apduCommand header) path ∧ received.deriver path = some publicKey ∧
    received.approves = true ∧ data = publicKey.toList ∧
    events = [.derived ⟨path, some publicKey⟩,
      .showedAddress (asciiText (hexText hexChars.get publicKey.toList)) true,
      .sent data 0x9000 received.sends, .showedStatus .address true, .showedHome]

/-- What holds of every iteration from a session to a next one. -/
structure IterationSafe (session : SigningSession) (received : Received) (next : SigningSession)
    (events : List DeviceEvent) : Prop where
  answered_once : events.countP DeviceEvent.isSent = 1
  next_state : next.state = .idle ∨ next.state = .collecting
  wiped : ∀ data status succeeded, .sent data status succeeded ∈ events →
    status ≠ 0x9000 ∨ data.length = 64 ∨ data.length = 32 ∨ succeeded = false → next = .new
  signature : ∀ data status succeeded, .sent data status succeeded ∈ events → data.length = 64 →
    SendsSignature session received events data
  publicKey : ∀ data status succeeded, .sent data status succeeded ∈ events → data.length = 32 →
    SendsPublicKey received events data

/-- Safety of an iteration whose only reply is known. -/
theorem iterationSafe_of_answers {session next : SigningSession} {received : Received}
    {events : List DeviceEvent} (data : Bytes) (status : UInt16)
    (hanswers : Answers events data status received.sends)
    (hstate : next.state = .idle ∨ next.state = .collecting)
    (hwiped : status ≠ 0x9000 ∨ data.length = 64 ∨ data.length = 32 ∨ received.sends = false →
      next = .new)
    (hsignature : data.length = 64 → SendsSignature session received events data)
    (hpublicKey : data.length = 32 → SendsPublicKey received events data) :
    IterationSafe session received next events where
  answered_once := hanswers.countP_isSent
  next_state := hstate
  wiped data' status' succeeded' hsent := by
    obtain ⟨rfl, rfl, rfl⟩ := hanswers.eq_of_mem hsent
    exact hwiped
  signature data' status' succeeded' hsent := by
    obtain ⟨rfl, rfl, rfl⟩ := hanswers.eq_of_mem hsent
    exact hsignature
  publicKey data' status' succeeded' hsent := by
    obtain ⟨rfl, rfl, rfl⟩ := hanswers.eq_of_mem hsent
    exact hpublicKey

/-! ## Iterations -/

/-- A phase at the head of the loop. -/
def AtHead (phase : Phase) : Prop := ∀ pending, phase ≠ .awaiting pending

theorem AtHead.state {phase : Phase} (hhead : AtHead phase) :
    phase.represent.state = .idle ∨ phase.represent.state = .collecting := by
  cases phase with
  | idle => exact .inl rfl
  | collecting collection => exact .inr rfl
  | awaiting pending => exact absurd rfl (hhead pending)

theorem atHead_idle : AtHead .idle := by simp [AtHead]

/-- The application does not end in an iteration from a phase, the iteration is safe, and it returns
to the head of the loop. -/
def IteratesSafely (phase : Phase) (received : Received) : Prop :=
  ∃ next iteration, iterate phase.represent received = some iteration ∧
    iteration.session = Phase.represent next ∧ AtHead next ∧
    IterationSafe phase.represent received next.represent iteration.events

/-- A reset after a failed reply leaves the idle phase. -/
theorem resetUnlessSent_represent (received : Received) (next : Phase) :
    resetUnlessSent received next.represent =
      (if received.sends then next else .idle).represent := by
  unfold resetUnlessSent
  split_ifs
  · rfl
  · exact next.wipe_represent

omit [Target] in
/-- An immediate reply sends nothing of the length of a signature or a public key. -/
theorem answerReply_eq (received : Received) (session : SigningSession) (answer : ApduReply) :
    ∃ data status, data.length ≠ 64 ∧ data.length ≠ 32 ∧
      (status ≠ 0x9000 → answer.status ≠ .success) ∧
      answerReply received session answer =
        ⟨resetUnlessSent received session, [.sent data status received.sends]⟩ := by
  unfold answerReply
  split_ifs with hsuccess
  · cases hresponse : answer.response with
    | empty => exact ⟨[], _, by decide, by decide, fun hstatus ↦ absurd rfl hstatus, rfl⟩
    | configuration bytes =>
      have hlength := bytes.toList_length
      exact ⟨bytes.toList, _, by omega, by omega, fun hstatus ↦ absurd rfl hstatus, rfl⟩
  · exact ⟨[], _, by decide, by decide, fun _ ↦ hsuccess, rfl⟩

/-- An iteration that replies without data and leaves a new session is safe. -/
theorem iteratesSafely_wiped {phase : Phase} {received : Received} {session : SigningSession}
    (before after : List DeviceEvent) (status : UInt16) (hsession : session = .new)
    (hiterate : iterate phase.represent received = some
      ⟨session, before ++ .sent [] status received.sends :: after⟩)
    (hothers : ∀ event ∈ before ++ after, event.isSent = false) :
    IteratesSafely phase received := by
  refine ⟨.idle, _, hiterate, hsession, atHead_idle, ?_⟩
  exact iterationSafe_of_answers [] status ⟨before, after, rfl, hothers⟩ (.inl rfl) (fun _ ↦ rfl)
    (fun hsignature ↦ by cases hsignature) fun hpublicKey ↦ by cases hpublicKey

/-- A command without a decodable header is safe. -/
theorem iteratesSafely_undecoded {phase : Phase} {received : Received} {reply : UInt16}
    (hheader : received.header = .error reply) : IteratesSafely phase received := by
  refine iteratesSafely_wiped [] [] reply phase.wipe_represent ?_ (by simp)
  simp only [iterate, hheader]
  rfl

section Commands

variable {phase next : Phase} {received : Received} {header : DeviceApduHeader}
  (hheader : received.header = .ok header)

include hheader

/-- An immediate reply is safe if only successful commands leave the idle phase. -/
theorem iteratesSafely_reply {answer : ApduReply}
    (hsession : (dispatch phase.represent (received.apduCommand header) received.deriver
      devnetAssetTransferPolicy).session = next.represent)
    (houtcome : (dispatch phase.represent (received.apduCommand header) received.deriver
      devnetAssetTransferPolicy).outcome = .reply answer)
    (hfailure : answer.status ≠ .success → next = .idle) (hhead : AtHead next) :
    IteratesSafely phase received := by
  obtain ⟨data, status, hsignature, hpublicKey, hstatus, hanswer⟩ :=
    answerReply_eq received next.represent answer
  have hnext : AtHead (if received.sends then next else .idle) := by
    split_ifs
    · exact hhead
    · exact atHead_idle
  have hiterate : iterate phase.represent received = some {
      session := resetUnlessSent received next.represent
      events := (dispatch phase.represent (received.apduCommand header) received.deriver
        devnetAssetTransferPolicy).derivations.map .derived ++ [.sent data status received.sends]
    } := by
    simp only [iterate, hheader, houtcome, hsession, hanswer, Option.map_some]
  refine ⟨_, _, hiterate, resetUnlessSent_represent received next, hnext, ?_⟩
  · refine iterationSafe_of_answers data status (answers_reply _ data status received.sends)
      hnext.state ?_ (fun hlength ↦ absurd hlength hsignature)
      (fun hlength ↦ absurd hlength hpublicKey)
    rintro (hfailed | hlength | hlength | hunsent)
    · rw [hfailure (hstatus hfailed)]
      split_ifs <;> rfl
    · exact absurd hlength hsignature
    · exact absurd hlength hpublicKey
    · rw [if_neg (by simp [hunsent])]
      rfl

/-- Putting a public key before the user is safe. -/
theorem iteratesSafely_publicKey {path : DerivationPath} {publicKey : ByteArrayN 32}
    (hsession : (dispatch phase.represent (received.apduCommand header) received.deriver
      devnetAssetTransferPolicy).session = Phase.idle.represent)
    (houtcome : (dispatch phase.represent (received.apduCommand header) received.deriver
      devnetAssetTransferPolicy).outcome = .reviewPublicKey path publicKey)
    (hderivations : (dispatch phase.represent (received.apduCommand header) received.deriver
      devnetAssetTransferPolicy).derivations = [⟨path, some publicKey⟩])
    (hverify : VerifiesKey (received.apduCommand header) path)
    (hkey : received.deriver path = some publicKey) : IteratesSafely phase received := by
  have hlength := publicKey.toList_length
  have hreset : resetUnlessSent received Phase.idle.represent = Phase.idle.represent := by
    rw [resetUnlessSent_represent, ite_self]
  cases happroves : received.approves with
  | true =>
    have hiterate : iterate phase.represent received = some {
        session := resetUnlessSent received Phase.idle.represent
        events := [.derived ⟨path, some publicKey⟩,
          .showedAddress (asciiText (hexText hexChars.get publicKey.toList)) true,
          .sent publicKey.toList 0x9000 received.sends, .showedStatus .address true, .showedHome]
      } := by
      simp only [iterate, hheader, houtcome, hsession, hderivations, answerPublicKey,
        uiDisplayPublicKey_eq, happroves, if_true, Option.map_some]
      rfl
    refine ⟨.idle, _, hiterate, hreset, atHead_idle, ?_⟩
    refine iterationSafe_of_answers publicKey.toList 0x9000 ⟨[_, _], [_, _], rfl, ?_⟩ (.inl rfl)
      (fun _ ↦ rfl) (fun hsignature ↦ by omega) fun _ ↦ ?_
    · simp [DeviceEvent.isSent]
    · exact ⟨header, path, publicKey, hheader, hverify, hkey, happroves, rfl, rfl⟩
  | false =>
    refine iteratesSafely_wiped [.derived ⟨path, some publicKey⟩,
        .showedAddress (asciiText (hexText hexChars.get publicKey.toList)) false]
      (statusPopup .address false) AppSW.deny.code Phase.idle.wipe_represent ?_
      (by simp [DeviceEvent.isSent, statusPopup])
    simp only [iterate, hheader, houtcome, hsession, hderivations, answerPublicKey,
      uiDisplayPublicKey_eq, happroves, Bool.false_eq_true, if_false, Option.map_some]
    rfl

omit hheader in
/-- A pending review is answered without data, and leaves a new session, unless all its facts are
shown, the user approves and the signer signs its frame. -/
theorem answerTransaction_awaiting (received : Received) (pending : PendingReview)
    (review : ClearSigningReview) :
    (∃ before after status,
      answerTransaction received (Phase.awaiting pending).represent review =
        some ⟨.new, before ++ .sent [] status received.sends :: after⟩ ∧
        ∀ event ∈ before ++ after, event.isSent = false) ∨
      ∃ facts fields signature, formatReviewFacts review = .ok facts ∧ facts.length = 32 ∧
        List.Forall₂ Shows facts fields ∧ received.approves = true ∧
        received.signer pending.path pending.framed = some signature ∧
        answerTransaction received (Phase.awaiting pending).represent review = some {
          session := resetUnlessSent received .new
          events := [.showedTransaction fields true,
            .signed ⟨pending.path, pending.framed, some signature⟩,
            .sent signature.toList 0x9000 received.sends, .showedStatus .transaction true,
            .showedHome]
        } := by
  have hwipe := (Phase.awaiting pending).wipe_represent
  have happroval := approveAndSign_awaiting pending received.signer
  rcases uiDisplayTransaction_cases review with
    ⟨facts, fields, hformat, hcount, hlines, hshown⟩ | hrefused
  case inr =>
    refine .inl ⟨[], statusPopup .transaction false, AppSW.internalFailure.code, ?_,
      by simp [DeviceEvent.isSent, statusPopup]⟩
    simp only [answerTransaction, hrefused, SigningSession.rejectReview, hwipe]
    rfl
  case inl =>
    cases happroves : received.approves with
    | false =>
      refine .inl ⟨[.showedTransaction fields false], statusPopup .transaction false,
        AppSW.deny.code, ?_, by simp [DeviceEvent.isSent, statusPopup]⟩
      simp only [answerTransaction, hshown, happroves, SigningSession.rejectReview, hwipe,
        Bool.false_eq_true, if_false]
      rfl
    | true =>
      cases hsigner : received.signer pending.path pending.framed with
      | none =>
        rw [hsigner, okOr_none] at happroval
        refine .inl ⟨[.showedTransaction fields true, .signed ⟨pending.path, pending.framed, none⟩],
          statusPopup .transaction false, AppSW.internalFailure.code, ?_,
          by simp [DeviceEvent.isSent, statusPopup]⟩
        simp only [answerTransaction, hshown, happroves, if_true, happroval]
        rfl
      | some signature =>
        rw [hsigner, okOr_some] at happroval
        refine .inr ⟨facts, fields, signature, hformat, hcount, hlines, rfl, rfl, ?_⟩
        simp only [answerTransaction, hshown, happroves, if_true, happroval]
        rfl

/-- Putting a completed collection before the user is safe. -/
theorem iteratesSafely_transaction {collection : Collection} {review : ClearSigningReview}
    (hsign : IsSign (received.apduCommand header) signP1Last)
    (hcompletes : CompletesCollection collection received.data)
    (hcheck : oneShotCheck collection.path (collection.content ++ received.data) received.deriver
      devnetAssetTransferPolicy = .ok review)
    (hsession : (dispatch (Phase.collecting collection).represent (received.apduCommand header)
      received.deriver devnetAssetTransferPolicy).session =
        (Phase.awaiting (.completed hcompletes hcheck)).represent)
    (houtcome : (dispatch (Phase.collecting collection).represent (received.apduCommand header)
      received.deriver devnetAssetTransferPolicy).outcome = .reviewTransaction review)
    (hderivations : (dispatch (Phase.collecting collection).represent
      (received.apduCommand header) received.deriver devnetAssetTransferPolicy).derivations =
        [⟨collection.path, received.deriver collection.path⟩]) :
    IteratesSafely (.collecting collection) received := by
  let pending : PendingReview := .completed hcompletes hcheck
  have hanswered : iterate (Phase.collecting collection).represent received =
      (answerTransaction received (Phase.awaiting pending).represent review).map fun iteration ↦
        { iteration with
          events := .derived ⟨collection.path, received.deriver collection.path⟩ ::
            iteration.events } := by
    simp only [iterate, hheader, houtcome, hsession, hderivations]
    rfl
  rcases answerTransaction_awaiting received pending review with
    ⟨before, after, status, hanswer, hothers⟩ |
      ⟨facts, fields, signature, hformat, hcount, hlines, happroves, hsigner, hanswer⟩
  case inl =>
    refine iteratesSafely_wiped
      (.derived ⟨collection.path, received.deriver collection.path⟩ :: before) after status rfl ?_
      (List.forall_mem_cons.mpr ⟨rfl, hothers⟩)
    rw [hanswered, hanswer]
    rfl
  case inr =>
    have hlength := signature.toList_length
    have hreset : resetUnlessSent received .new = Phase.idle.represent :=
      (resetUnlessSent_represent received .idle).trans (by rw [ite_self])
    rw [hanswer, Option.map_some] at hanswered
    refine ⟨.idle, _, hanswered, hreset, atHead_idle, ?_⟩
    refine iterationSafe_of_answers signature.toList 0x9000 ⟨[_, _, _], [_, _], rfl, ?_⟩
      (.inl rfl) (fun _ ↦ rfl) (fun _ ↦ ?_) fun hpublicKey ↦ by omega
    · simp [DeviceEvent.isSent]
    · refine ⟨header, collection.path, collection.content, review, facts, fields, signature,
        hheader, hsign, rfl, (Phase.collecting collection).getRange_represent, houtcome, ?_,
        pending.approvable, hformat, hcount, hlines, happroves, hsigner, rfl, rfl⟩
      rw [hsession]
      exact (Phase.awaiting pending).pendingFrame_represent

/-- Every command with a decodable header is safe at the head of the loop. -/
theorem iteratesSafely_decoded (hhead : AtHead phase) : IteratesSafely phase received := by
  obtain ⟨next, hsession, hdispatches⟩ := dispatch_represent phase (received.apduCommand header)
    received.deriver devnetAssetTransferPolicy
  generalize houtcome : (dispatch phase.represent (received.apduCommand header) received.deriver
    devnetAssetTransferPolicy).outcome = outcome at hdispatches
  generalize hderivations : (dispatch phase.represent (received.apduCommand header)
    received.deriver devnetAssetTransferPolicy).derivations = derivations at hdispatches
  cases hdispatches with
  | refused hstatus hunfit =>
    exact iteratesSafely_reply hheader hsession houtcome (fun _ ↦ rfl) atHead_idle
  | configured hins =>
    exact iteratesSafely_reply hheader hsession houtcome (fun _ ↦ rfl) atHead_idle
  | reset hins => exact iteratesSafely_reply hheader hsession houtcome (fun _ ↦ rfl) atHead_idle
  | underivable hverify hkey =>
    exact iteratesSafely_reply hheader hsession houtcome (fun _ ↦ rfl) atHead_idle
  | derived hverify hkey =>
    exact iteratesSafely_publicKey hheader hsession houtcome hderivations hverify hkey
  | opened hsign hopens =>
    exact iteratesSafely_reply hheader hsession houtcome (fun hstatus ↦ absurd rfl hstatus)
      (by simp [AtHead])
  | extended hsign hextends =>
    exact iteratesSafely_reply hheader hsession houtcome (fun hstatus ↦ absurd rfl hstatus)
      (by simp [AtHead])
  | unchecked hsign hcompletes hcheck =>
    exact iteratesSafely_reply hheader hsession houtcome (fun _ ↦ rfl) atHead_idle
  | reviewed hsign hcompletes hcheck =>
    exact iteratesSafely_transaction hheader hsign hcompletes hcheck hsession houtcome
      (hderivations.trans (oneShotDerivations_of_ok hcheck))

end Commands

/-- Every iteration from the head of the loop is safe. -/
theorem iteratesSafely {phase : Phase} (hhead : AtHead phase) (received : Received) :
    IteratesSafely phase received := by
  cases hheader : received.header with
  | error reply => exact iteratesSafely_undecoded hheader
  | ok header => exact iteratesSafely_decoded hheader hhead

/-! ## Runs of the loop -/

/-- The application runs, and its session stands for a phase at the head of the loop. -/
def RunsAtHead (state : LoopState) : Prop :=
  ∃ phase : Phase, state = .running phase.represent ∧ AtHead phase

/-- After every sequence of received commands, whatever the outside answered, the application is at
the head of its loop with an idle or a collecting session, and the next iteration is safe. -/
theorem normalMain_safe :
    ∀ (inputs : List Received) (received : Received), ∃ session next events,
      normalMain.run (.running .new) inputs = .running session ∧
      (session.state = .idle ∨ session.state = .collecting) ∧
      normalMain.step (.running session) received = (.running next, events) ∧
      IterationSafe session received next events := by
  intro inputs received
  have hstep : ∀ state received, RunsAtHead state →
      RunsAtHead (normalMain.step state received).1 := by
    rintro _ received ⟨phase, rfl, hhead⟩
    obtain ⟨next, iteration, hiterate, hsession, hnext, -⟩ := iteratesSafely hhead received
    refine ⟨next, ?_, hnext⟩
    simp only [normalMain, hiterate, hsession]
  obtain ⟨phase, hphase, hhead⟩ : RunsAtHead (normalMain.run (.running .new) inputs) :=
    Machine.run_invariant RunsAtHead hstep ⟨.idle, rfl, atHead_idle⟩ inputs
  obtain ⟨next, iteration, hiterate, hsession, hnext, hsafe⟩ := iteratesSafely hhead received
  refine ⟨phase.represent, next.represent, iteration.events, hphase, hhead.state, ?_, hsafe⟩
  simp only [normalMain, hiterate, hsession]

end SunriseEdgeLedger.Device
