import SunriseEdgeLedger.Device.ReviewLines

/-!
# What an iteration of the event loop can do

Every iteration from the head of the loop is one of a dozen cases: which phase it leaves, and
precisely which events it makes, in their order.  In particular the user is only ever asked about
the key of a request or about the lines of a transfer, and every transfer that is asked about is
shown.  All results about runs of the loop are read off these cases.
-/

namespace SunriseEdgeLedger.Device

open SunriseEdgeLedger.Foundation SunriseEdgeLedger.Core

/-- The text that is shown for a public key. -/
def addressText (publicKey : ByteArrayN 32) : String :=
  asciiText (hexText hexChars.get publicKey.toList)

variable [Target]

/-- A phase is kept only if the reply could be sent. -/
def Received.kept (received : Received) (next : Phase) : Phase :=
  if received.sends then next else .idle

/-- Everything that an iteration can do on a phase: the next phase, and the events. -/
inductive Iterates (received : Received) : Phase → Phase → List DeviceEvent → Prop where
  | undecoded {phase : Phase} {reply : UInt16} (hheader : received.header = .error reply) :
      Iterates received phase .idle [.sent [] reply received.sends]
  | refused {phase : Phase} {header : DeviceApduHeader} {status : StatusWord}
      (hheader : received.header = .ok header) (hstatus : status.IsRefusal)
      (hunfit : Unfit (received.apduCommand header) phase) :
      Iterates received phase .idle [.sent [] status.code received.sends]
  | configured {header : DeviceApduHeader} (hheader : received.header = .ok header)
      (hins : header.ins = insGetConfiguration) :
      Iterates received .idle .idle [.sent configurationResponse.toList 0x9000 received.sends]
  | reset {phase : Phase} {header : DeviceApduHeader} (hheader : received.header = .ok header)
      (hins : header.ins = insResetSigning) :
      Iterates received phase .idle [.sent [] 0x9000 received.sends]
  | underivable {header : DeviceApduHeader} {path : DerivationPath}
      (hheader : received.header = .ok header)
      (hverifies : VerifiesKey (received.apduCommand header) path)
      (hkey : received.deriver path = none) :
      Iterates received .idle .idle [.derived ⟨path, none⟩, .sent [] 0x6F00 received.sends]
  | keyDeclined {header : DeviceApduHeader} {path : DerivationPath} {publicKey : ByteArrayN 32}
      (hheader : received.header = .ok header)
      (hverifies : VerifiesKey (received.apduCommand header) path)
      (hkey : received.deriver path = some publicKey) (happroves : received.approves = false) :
      Iterates received .idle .idle [.derived ⟨path, some publicKey⟩,
        .showedAddress (addressText publicKey) false, .sent [] 0x6985 received.sends,
        .showedStatus .address false, .showedHome]
  | keyApproved {header : DeviceApduHeader} {path : DerivationPath} {publicKey : ByteArrayN 32}
      (hheader : received.header = .ok header)
      (hverifies : VerifiesKey (received.apduCommand header) path)
      (hkey : received.deriver path = some publicKey) (happroves : received.approves = true) :
      Iterates received .idle .idle [.derived ⟨path, some publicKey⟩,
        .showedAddress (addressText publicKey) true, .sent publicKey.toList 0x9000 received.sends,
        .showedStatus .address true, .showedHome]
  | opened {header : DeviceApduHeader} {path : DerivationPath}
      (hheader : received.header = .ok header)
      (hsign : IsSign (received.apduCommand header) signP1First)
      (hopens : OpensCollection received.data path) :
      Iterates received .idle (received.kept (.collecting (.opened hopens)))
        [.sent [] 0x9000 received.sends]
  | extended {collection : Collection} {header : DeviceApduHeader}
      (hheader : received.header = .ok header)
      (hsign : IsSign (received.apduCommand header) signP1Continue)
      (hextends : ExtendsCollection collection received.data) :
      Iterates received (.collecting collection) (received.kept (.collecting (.extended hextends)))
        [.sent [] 0x9000 received.sends]
  | unchecked {collection : Collection} {header : DeviceApduHeader} {status : StatusWord}
      (hheader : received.header = .ok header)
      (hsign : IsSign (received.apduCommand header) signP1Last)
      (hcompletes : CompletesCollection collection received.data)
      (hcheck : oneShotCheck collection.path (collection.content ++ received.data) received.deriver
        devnetAssetTransferPolicy = .error status) :
      Iterates received (.collecting collection) .idle
        ((oneShotDerivations collection.path (collection.content ++ received.data)
          received.deriver).map .derived ++ [.sent [] status.code received.sends])
  | declined {collection : Collection} {header : DeviceApduHeader} {transfer : Transfer}
      (hheader : received.header = .ok header)
      (hsign : IsSign (received.apduCommand header) signP1Last)
      (hcompletes : CompletesCollection collection received.data)
      (hframed : collection.content ++ received.data = transfer.bytes)
      (hkey : received.deriver collection.path = some transfer.sender.bytes)
      (happroves : received.approves = false) :
      Iterates received (.collecting collection) .idle
        [.derived ⟨collection.path, some transfer.sender.bytes⟩,
          .showedTransaction (transferLines transfer) false, .sent [] 0x6985 received.sends,
          .showedStatus .transaction false, .showedHome]
  | unsigned {collection : Collection} {header : DeviceApduHeader} {transfer : Transfer}
      (hheader : received.header = .ok header)
      (hsign : IsSign (received.apduCommand header) signP1Last)
      (hcompletes : CompletesCollection collection received.data)
      (hframed : collection.content ++ received.data = transfer.bytes)
      (hkey : received.deriver collection.path = some transfer.sender.bytes)
      (happroves : received.approves = true)
      (hsigner : received.signer collection.path transfer.bytes = none) :
      Iterates received (.collecting collection) .idle
        [.derived ⟨collection.path, some transfer.sender.bytes⟩,
          .showedTransaction (transferLines transfer) true,
          .signed ⟨collection.path, transfer.bytes, none⟩, .sent [] 0x6F00 received.sends,
          .showedStatus .transaction false, .showedHome]
  | signed {collection : Collection} {header : DeviceApduHeader} {transfer : Transfer}
      {signature : ByteArrayN 64} (hheader : received.header = .ok header)
      (hsign : IsSign (received.apduCommand header) signP1Last)
      (hcompletes : CompletesCollection collection received.data)
      (hframed : collection.content ++ received.data = transfer.bytes)
      (hkey : received.deriver collection.path = some transfer.sender.bytes)
      (happroves : received.approves = true)
      (hsigner : received.signer collection.path transfer.bytes = some signature) :
      Iterates received (.collecting collection) .idle
        [.derived ⟨collection.path, some transfer.sender.bytes⟩,
          .showedTransaction (transferLines transfer) true,
          .signed ⟨collection.path, transfer.bytes, some signature⟩,
          .sent signature.toList 0x9000 received.sends, .showedStatus .transaction true,
          .showedHome]

@[simp]
theorem kept_idle (received : Received) : received.kept .idle = .idle := ite_self _

theorem atHead_kept {received : Received} {next : Phase} (hnext : AtHead next) :
    AtHead (received.kept next) := by
  unfold Received.kept
  split_ifs
  · exact hnext
  · exact atHead_idle

theorem resetUnlessSent_idle (received : Received) :
    resetUnlessSent received Phase.idle.represent = Phase.idle.represent :=
  (resetUnlessSent_represent received .idle).trans (by rw [ite_self])

/-- An empty reply of success. -/
theorem answerReply_empty (received : Received) (next : Phase) :
    answerReply received next.represent ⟨.success, .empty⟩ =
      ⟨(received.kept next).represent, [.sent [] 0x9000 received.sends]⟩ := by
  rw [Received.kept, ← resetUnlessSent_represent]
  rfl

/-- A reply with the configuration. -/
theorem answerReply_configuration (received : Received) (bytes : ByteArrayN 6) :
    answerReply received Phase.idle.represent ⟨.success, .configuration bytes⟩ =
      ⟨Phase.idle.represent, [.sent bytes.toList 0x9000 received.sends]⟩ := by
  simp only [answerReply, if_true, resetUnlessSent_idle]
  rfl

/-- A reply of failure. -/
theorem answerReply_failure (received : Received) {status : StatusWord}
    (hstatus : status ≠ .success) :
    answerReply received Phase.idle.represent ⟨status, .empty⟩ =
      ⟨Phase.idle.represent, [.sent [] status.code received.sends]⟩ := by
  rw [answerReply, if_neg hstatus, resetUnlessSent_idle, code_ofStatusWord]

/-! ## The cases are complete -/

/-- An iteration of the loop on the session of a phase is one of the cases. -/
def IteratesFrom (phase : Phase) (received : Received) : Prop :=
  ∃ next events, iterate phase.represent received = some ⟨Phase.represent next, events⟩ ∧
    AtHead next ∧ Iterates received phase next events

section Commands

variable {phase next : Phase} {received : Received} {header : DeviceApduHeader}
  {outcome : DispatchOutcome} {derivations : List Derivation}
  (hheader : received.header = .ok header)
  (hsession : (dispatch phase.represent (received.apduCommand header) received.deriver
    devnetAssetTransferPolicy).session = next.represent)
  (houtcome : (dispatch phase.represent (received.apduCommand header) received.deriver
    devnetAssetTransferPolicy).outcome = outcome)
  (hderivations : (dispatch phase.represent (received.apduCommand header) received.deriver
    devnetAssetTransferPolicy).derivations = derivations)

include hheader hsession houtcome hderivations

/-- An iteration that replies without data or with the configuration. -/
theorem iterate_of_reply {answer : ApduReply} (hanswer : outcome = .reply answer) :
    iterate phase.represent received = some {
      session := (answerReply received next.represent answer).session
      events := derivations.map .derived ++ (answerReply received next.represent answer).events
    } := by
  simp only [iterate, hheader, hsession, houtcome, hderivations, hanswer, Option.map_some]

/-- An iteration that puts a key before the user. -/
theorem iterate_of_reviewPublicKey {path : DerivationPath} {publicKey : ByteArrayN 32}
    (hreview : outcome = .reviewPublicKey path publicKey) :
    iterate phase.represent received =
      (answerPublicKey received next.represent publicKey).map fun iteration ↦
        { iteration with events := derivations.map .derived ++ iteration.events } := by
  simp only [iterate, hheader, hsession, houtcome, hderivations, hreview]

/-- An iteration that puts a transaction before the user. -/
theorem iterate_of_reviewTransaction {review : ClearSigningReview}
    (hreview : outcome = .reviewTransaction review) :
    iterate phase.represent received =
      (answerTransaction received next.represent review).map fun iteration ↦
        { iteration with events := derivations.map .derived ++ iteration.events } := by
  simp only [iterate, hheader, hsession, houtcome, hderivations, hreview]

end Commands

/-- A key is shown, and sent if the user approves. -/
theorem answerPublicKey_idle (received : Received) (publicKey : ByteArrayN 32) :
    answerPublicKey received Phase.idle.represent publicKey = some {
      session := Phase.idle.represent
      events := if received.approves then
          [.showedAddress (addressText publicKey) true,
            .sent publicKey.toList 0x9000 received.sends, .showedStatus .address true, .showedHome]
        else
          [.showedAddress (addressText publicKey) false, .sent [] 0x6985 received.sends,
            .showedStatus .address false, .showedHome]
    } := by
  have hreset := resetUnlessSent_idle received
  have hwipe : SigningSession.reset Phase.idle.represent = Phase.idle.represent := wipe_new
  cases happroves : received.approves with
  | true =>
    simp only [answerPublicKey, uiDisplayPublicKey_eq, happroves, if_true, hreset]
    rfl
  | false =>
    simp only [answerPublicKey, uiDisplayPublicKey_eq, happroves, Bool.false_eq_true, if_false,
      hwipe]
    rfl

/-- A pending transfer is shown, and signed if the user approves. -/
theorem answerTransaction_transfer (received : Received) (pending : PendingReview)
    (transfer : Transfer) :
    answerTransaction received (Phase.awaiting pending).represent transfer.review = some {
      session := Phase.idle.represent
      events :=
        if received.approves then
          [.showedTransaction (transferLines transfer) true,
            .signed ⟨pending.path, pending.framed, received.signer pending.path pending.framed⟩] ++
          ((received.signer pending.path pending.framed).elim
            [.sent [] 0x6F00 received.sends, .showedStatus .transaction false, .showedHome]
            fun signature ↦ [.sent signature.toList 0x9000 received.sends,
              .showedStatus .transaction true, .showedHome])
        else
          [.showedTransaction (transferLines transfer) false, .sent [] 0x6985 received.sends,
            .showedStatus .transaction false, .showedHome]
    } := by
  have hreset : resetUnlessSent received .new = Phase.idle.represent :=
    resetUnlessSent_idle received
  have hreject : (Phase.awaiting pending).represent.rejectReview = Phase.idle.represent :=
    (Phase.awaiting pending).wipe_represent
  have happroval := approveAndSign_awaiting pending received.signer
  cases happroves : received.approves with
  | false =>
    simp only [answerTransaction, uiDisplayTransaction_transfer, happroves, hreject,
      Bool.false_eq_true, if_false]
    rfl
  | true =>
    cases hsigner : received.signer pending.path pending.framed with
    | none =>
      rw [hsigner, okOr_none] at happroval
      simp only [answerTransaction, uiDisplayTransaction_transfer, happroves, happroval, if_true]
      rfl
    | some signature =>
      rw [hsigner, okOr_some] at happroval
      simp only [answerTransaction, uiDisplayTransaction_transfer, happroves, happroval, if_true,
        hreset]
      rfl

/-- A completed collection that passes the check is one of a transfer, and is put before the
user. -/
theorem iteratesFrom_reviewed {collection : Collection} {received : Received}
    {header : DeviceApduHeader} {review : ClearSigningReview}
    (hheader : received.header = .ok header)
    (hsign : IsSign (received.apduCommand header) signP1Last)
    (hcompletes : CompletesCollection collection received.data)
    (hcheck : oneShotCheck collection.path (collection.content ++ received.data) received.deriver
      devnetAssetTransferPolicy = .ok review)
    (hsession : (dispatch (Phase.collecting collection).represent (received.apduCommand header)
      received.deriver devnetAssetTransferPolicy).session =
        (Phase.awaiting (.completed hcompletes hcheck)).represent)
    (houtcome : (dispatch (Phase.collecting collection).represent (received.apduCommand header)
      received.deriver devnetAssetTransferPolicy).outcome = .reviewTransaction review)
    (hderivations : (dispatch (Phase.collecting collection).represent
      (received.apduCommand header) received.deriver devnetAssetTransferPolicy).derivations =
        oneShotDerivations collection.path (collection.content ++ received.data)
          received.deriver) :
    IteratesFrom (.collecting collection) received := by
  obtain ⟨frame, transaction, hdecode, hkey, hreview⟩ := oneShotCheck_eq_ok_iff.mp hcheck
  obtain ⟨transfer, hframed, rfl⟩ :=
    exists_transfer_of_approvable (approvable_of_oneShotCheck hcheck)
  have hsender : transaction.sender = transfer.sender := by
    obtain ⟨-, amount, -, htransfer⟩ := buildReview_eq_ok_iff.mp hreview
    exact (congrArg ClearSigningReview.sender htransfer).symm
  rw [hsender] at hkey
  rw [oneShotDerivations_of_ok hcheck, hkey] at hderivations
  have hiterate := iterate_of_reviewTransaction hheader hsession houtcome hderivations rfl
  rw [answerTransaction_transfer, Option.map_some] at hiterate
  refine ⟨.idle, _, hiterate, atHead_idle, ?_⟩
  change Iterates received _ _ (_ :: ite _ ([_, .signed ⟨collection.path,
    collection.content ++ received.data, received.signer collection.path
      (collection.content ++ received.data)⟩] ++ (received.signer collection.path
        (collection.content ++ received.data)).elim _ _) _)
  rw [hframed]
  cases happroves : received.approves with
  | false => exact .declined hheader hsign hcompletes hframed hkey happroves
  | true =>
    cases hsigner : received.signer collection.path transfer.bytes with
    | none => exact .unsigned hheader hsign hcompletes hframed hkey happroves hsigner
    | some signature => exact .signed hheader hsign hcompletes hframed hkey happroves hsigner

/-- A check does not fail with the status word of success. -/
theorem ne_success_of_oneShotCheck {path : DerivationPath} {framed : Bytes}
    {deriver : PublicKeyDeriver} {policy : ClearSigningPolicy} {status : StatusWord}
    (hcheck : oneShotCheck path framed deriver policy = .error status) : status ≠ .success := by
  rcases oneShotCheck_eq_error hcheck with rfl | rfl | ⟨rfl, -⟩ <;> decide

/-- Every iteration from the head of the loop is one of the cases. -/
theorem iteratesFrom {phase : Phase} (hhead : AtHead phase) (received : Received) :
    IteratesFrom phase received := by
  cases hheader : received.header with
  | error reply =>
    refine ⟨.idle, [.sent [] reply received.sends], ?_, atHead_idle, .undecoded hheader⟩
    have hreset : phase.represent.reset = Phase.idle.represent := phase.wipe_represent
    simp only [iterate, hheader, hreset]
  | ok header =>
    obtain ⟨next, hsession, hdispatches⟩ := dispatch_represent phase (received.apduCommand header)
      received.deriver devnetAssetTransferPolicy
    generalize houtcome : (dispatch phase.represent (received.apduCommand header)
      received.deriver devnetAssetTransferPolicy).outcome = outcome at hdispatches
    generalize hderivations : (dispatch phase.represent (received.apduCommand header)
      received.deriver devnetAssetTransferPolicy).derivations = derivations at hdispatches
    have hreply : ∀ {answer : ApduReply}, outcome = .reply answer →
        iterate phase.represent received = some {
          session := (answerReply received next.represent answer).session
          events := derivations.map .derived ++
            (answerReply received next.represent answer).events } :=
      iterate_of_reply hheader hsession houtcome hderivations
    cases hdispatches with
    | refused hstatus hunfit =>
      have hiterate := hreply rfl
      rw [answerReply_failure received hstatus.1] at hiterate
      exact ⟨.idle, _, hiterate, atHead_idle, .refused hheader hstatus hunfit⟩
    | configured hins =>
      have hiterate := hreply rfl
      rw [answerReply_configuration] at hiterate
      exact ⟨.idle, _, hiterate, atHead_idle, .configured hheader hins⟩
    | reset hins =>
      have hiterate := hreply rfl
      rw [answerReply_empty, kept_idle] at hiterate
      exact ⟨.idle, _, hiterate, atHead_idle, .reset hheader hins⟩
    | underivable hverify hkey =>
      have hiterate := hreply rfl
      rw [answerReply_failure received (by decide)] at hiterate
      exact ⟨.idle, _, hiterate, atHead_idle, .underivable hheader hverify hkey⟩
    | derived hverify hkey =>
      have hiterate := iterate_of_reviewPublicKey hheader hsession houtcome hderivations rfl
      rw [answerPublicKey_idle, Option.map_some] at hiterate
      refine ⟨.idle, _, hiterate, atHead_idle, ?_⟩
      cases happroves : received.approves with
      | false => exact .keyDeclined hheader hverify hkey happroves
      | true => exact .keyApproved hheader hverify hkey happroves
    | opened hsign hopens =>
      have hiterate := hreply rfl
      rw [answerReply_empty] at hiterate
      exact ⟨_, _, hiterate, atHead_kept (by simp [AtHead]), .opened hheader hsign hopens⟩
    | extended hsign hextends =>
      have hiterate := hreply rfl
      rw [answerReply_empty] at hiterate
      exact ⟨_, _, hiterate, atHead_kept (by simp [AtHead]), .extended hheader hsign hextends⟩
    | unchecked hsign hcompletes hcheck =>
      have hiterate := hreply rfl
      rw [answerReply_failure received (ne_success_of_oneShotCheck hcheck)] at hiterate
      exact ⟨.idle, _, hiterate, atHead_idle, .unchecked hheader hsign hcompletes hcheck⟩
    | reviewed hsign hcompletes hcheck =>
      exact iteratesFrom_reviewed hheader hsign hcompletes hcheck hsession houtcome hderivations

/-- A step of the loop from its head. -/
theorem step_normalMain {phase : Phase} (hhead : AtHead phase) (received : Received) :
    ∃ next events, normalMain.step (.running phase.represent) received =
        (.running (Phase.represent next), events) ∧
      AtHead next ∧ Iterates received phase next events := by
  obtain ⟨next, events, hiterate, hnext, hiterates⟩ := iteratesFrom hhead received
  exact ⟨next, events, by simp only [normalMain, hiterate], hnext, hiterates⟩

theorem runsAtHead_step (state : LoopState) (received : Received) (hruns : RunsAtHead state) :
    RunsAtHead (normalMain.step state received).1 := by
  obtain ⟨phase, rfl, hhead⟩ := hruns
  obtain ⟨next, events, hstep, hnext, -⟩ := step_normalMain hhead received
  exact ⟨next, by rw [hstep], hnext⟩

/-- After every run the application is at the head of its loop. -/
theorem runsAtHead_run (inputs : List Received) :
    RunsAtHead (normalMain.run (.running .new) inputs) :=
  Machine.run_invariant RunsAtHead runsAtHead_step ⟨.idle, rfl, atHead_idle⟩ inputs

end SunriseEdgeLedger.Device
