import SunriseEdgeLedger.Core.CollectionPhase
import SunriseEdgeLedger.Core.WireLanguage
import SunriseEdgeLedger.Device.HostExchange
import SunriseEdgeLedger.Foundation.Simulation

/-!
# What the host learns about keys

Two devices with different keys are compared on the same commands, with the same choices of their
users.  The host can tell them apart only by a key that is disclosed after an approval, by whether a
key can be derived at all, and by whether a completed frame is sent by the key of its path.
-/

namespace SunriseEdgeLedger.Device

open SunriseEdgeLedger.Foundation SunriseEdgeLedger.Core

/-- What the host sees of an iteration. -/
def sentEvents (events : List DeviceEvent) : List DeviceEvent := events.filter DeviceEvent.isSent

theorem sentEvents_derived (derivations : List Derivation) (events : List DeviceEvent) :
    sentEvents (derivations.map .derived ++ events) = sentEvents events := by
  have hderived : (derivations.map DeviceEvent.derived).filter DeviceEvent.isSent = [] := by
    simp [DeviceEvent.isSent]
  rw [sentEvents, List.filter_append, hderived, List.nil_append]
  rfl

variable [Target]

/-- Two devices receive the same in a session, up to their keys: the same keys can be derived, a key
that is disclosed is the same, and a frame that is completed has the sender of both or of
neither. -/
structure KeysLookAlike (session : SigningSession) (received received' : Received) : Prop where
  rest_eq : received' = { received with deriver := received'.deriver }
  answered_iff : ∀ path, received'.deriver path = none ↔ received.deriver path = none
  disclosed_eq : ∀ header path, received.approves = true → received.header = .ok header →
    VerifiesKey (received.apduCommand header) path →
    received'.deriver path = received.deriver path
  sender_iff : ∀ path content contents, session.path = some path →
    session.collected = some content → decodeBounded (content ++ received.data) = .ok contents →
    (received'.deriver path = some contents.2.sender.bytes ↔
      received.deriver path = some contents.2.sender.bytes)

section Handlers

variable {phase : Phase} {command : ApduCommand} {deriver deriver' : PublicKeyDeriver}
  {policy : ClearSigningPolicy}

/-- The check of a frame learns of the key of its path whether there is one, and whether it is the
sender. -/
theorem oneShotCheck_congr_deriver {path : DerivationPath} {framed : Bytes}
    (hanswered : deriver' path = none ↔ deriver path = none)
    (hsender : ∀ contents, decodeBounded framed = .ok contents →
      (deriver' path = some contents.2.sender.bytes ↔
        deriver path = some contents.2.sender.bytes)) :
    oneShotCheck path framed deriver' policy = oneShotCheck path framed deriver policy := by
  refine bind_congr_of_ok rfl fun contents hdecode ↦ ?_
  have hsender := hsender contents hdecode
  cases hkey : deriver path with
  | none => rw [hanswered.mpr hkey]
  | some publicKey =>
    cases hkey' : deriver' path with
    | none =>
      rw [hanswered.mp hkey'] at hkey
      cases hkey
    | some publicKey' =>
      rw [hkey, hkey', Option.some.injEq, Option.some.injEq] at hsender
      simp only [okOr_some, ok_bind]
      rw [ensure_congr (eq_comm.trans (hsender.trans eq_comm))]

/-- Two results differ at most in the derivations, and in the key that is put before the user. -/
structure LooksLike (first second : Dispatched) : Prop where
  session_eq : second.session = first.session
  outcome_eq : second.outcome = first.outcome ∨ ∃ path publicKey publicKey',
    first.outcome = .reviewPublicKey path publicKey ∧
      second.outcome = .reviewPublicKey path publicKey'

omit [Target] in
theorem LooksLike.of_eq {first second : Dispatched} (heq : second = first) :
    LooksLike first second :=
  ⟨congrArg Dispatched.session heq, .inl (congrArg Dispatched.outcome heq)⟩

omit [Target] in
theorem handleVerifyPublicKey_looksLike {session : SigningSession} {p1 p2 : UInt8} {data : Bytes}
    (hanswered : ∀ path, deriver' path = none ↔ deriver path = none) :
    LooksLike
      { session
        outcome := (handleVerifyPublicKey p1 p2 data deriver).1
        derivations := (handleVerifyPublicKey p1 p2 data deriver).2 }
      { session
        outcome := (handleVerifyPublicKey p1 p2 data deriver').1
        derivations := (handleVerifyPublicKey p1 p2 data deriver').2 } := by
  refine ⟨rfl, ?_⟩
  unfold handleVerifyPublicKey
  split_ifs with hparameters
  · exact .inl rfl
  cases decodePath data with
  | error failure => exact .inl rfl
  | ok path =>
    cases hkey : deriver path with
    | none =>
      simp only [(hanswered path).mpr hkey, hkey, true_or]
    | some publicKey =>
      cases hkey' : deriver' path with
      | none =>
        rw [(hanswered path).mp hkey'] at hkey
        cases hkey
      | some publicKey' =>
        simp only [hkey, hkey']
        exact .inr ⟨path, publicKey, publicKey', rfl, rfl⟩

/-- A `LAST` that does not complete its collection never derives a key. -/
theorem handleLast_congr_of_not_completes {collection : Collection} {data : Bytes}
    (hcompletes : ¬ CompletesCollection collection data) :
    handleLast (Phase.collecting collection).represent data deriver' policy =
      handleLast (Phase.collecting collection).represent data deriver policy := by
  refine bind_congr_of_ok rfl fun _ _ ↦ bind_congr_of_ok rfl fun _ hne ↦ ?_
  refine bind_congr_of_ok rfl fun _ hmax ↦ bind_congr_of_ok rfl fun appended happend ↦ ?_
  refine bind_congr_of_ok rfl fun _ hfull ↦ absurd ?_ hcompletes
  rw [ensure_eq_ok_iff] at hne hmax hfull
  rw [appendChunk_collection hmax] at happend
  split_ifs at happend with hfits
  obtain rfl := Except.ok.inj happend
  refine ⟨hne, hmax, ?_⟩
  have hlength : (collection.content ++ data).length ≤ maxFrameLen := by
    rw [List.length_append]
    exact hfits.trans collection.total_le
  rw [← List.length_append, ← toNat_receivedLen_stored hlength]
  exact congrArg UInt32.toNat hfull

theorem handleLast_looksLike {collection : Collection} {data : Bytes}
    (hanswered : ∀ path, deriver' path = none ↔ deriver path = none)
    (hsender : ∀ contents, decodeBounded (collection.content ++ data) = .ok contents →
      (deriver' collection.path = some contents.2.sender.bytes ↔
        deriver collection.path = some contents.2.sender.bytes)) :
    LooksLike (settle (handleLast (Phase.collecting collection).represent data deriver policy))
      (settle (handleLast (Phase.collecting collection).represent data deriver' policy)) := by
  by_cases hcompletes : CompletesCollection collection data
  case neg => exact .of_eq (by rw [handleLast_congr_of_not_completes hcompletes])
  rw [handleLast_of_completes hcompletes, handleLast_of_completes hcompletes,
    oneShotCheck_congr_deriver (hanswered collection.path) hsender]
  cases oneShotCheck collection.path (collection.content ++ data) deriver policy with
  | error status => exact ⟨rfl, .inl rfl⟩
  | ok review => exact ⟨rfl, .inl rfl⟩

theorem dispatch_looksLike (hhead : AtHead phase)
    (hanswered : ∀ path, deriver' path = none ↔ deriver path = none)
    (hsender : ∀ collection, phase = .collecting collection → ∀ contents,
      decodeBounded (collection.content ++ command.data) = .ok contents →
      (deriver' collection.path = some contents.2.sender.bytes ↔
        deriver collection.path = some contents.2.sender.bytes)) :
    LooksLike (dispatch phase.represent command deriver policy)
      (dispatch phase.represent command deriver' policy) := by
  have hhandle : LooksLike (handle phase.represent command deriver policy)
      (handle phase.represent command deriver' policy) := by
    unfold handle
    split_ifs with hconfiguration hverify hsign hreset
    · exact .of_eq rfl
    · exact handleVerifyPublicKey_looksLike hanswered
    · unfold handleSignTransaction
      split_ifs with hp2 hfirst hcontinue hlast
      · exact .of_eq rfl
      · exact .of_eq rfl
      · exact .of_eq rfl
      · cases phase with
        | idle => exact .of_eq rfl
        | collecting collection => exact handleLast_looksLike hanswered (hsender collection rfl)
        | awaiting pending => exact absurd rfl (hhead pending)
      · exact .of_eq rfl
    · exact .of_eq rfl
    · exact .of_eq rfl
  unfold dispatch
  split_ifs with hcla hconflict
  · exact .of_eq rfl
  · exact .of_eq rfl
  obtain ⟨hsession, houtcome | ⟨path, publicKey, publicKey', hfirst, hsecond⟩⟩ := hhandle
  · simp only [houtcome]
    split_ifs
    · exact ⟨congrArg SigningSession.wipe hsession, .inl rfl⟩
    · exact ⟨hsession, .inl houtcome⟩
  · simp only [hfirst, hsecond, DispatchOutcome.isFailure, Bool.false_eq_true, if_false]
    exact ⟨hsession, .inr ⟨path, publicKey, publicKey', hfirst, hsecond⟩⟩

/-- A key is put before the user only for a request to verify it. -/
theorem verifies_of_reviewPublicKey {next : Phase} {path : DerivationPath}
    {publicKey : ByteArrayN 32} {derivations : List Derivation}
    (hdispatches : Dispatches deriver policy command phase next (.reviewPublicKey path publicKey)
      derivations) : VerifiesKey command path ∧ deriver path = some publicKey := by
  generalize houtcome : DispatchOutcome.reviewPublicKey path publicKey = outcome at hdispatches
  cases hdispatches with
  | derived hverifies hkey =>
    cases houtcome
    exact ⟨hverifies, hkey⟩
  | _ => cases houtcome

end Handlers

omit [Target] in
/-- What an iteration leaves, as far as the host can see it. -/
def Iteration.hostView (iteration : Iteration) : SigningSession × List DeviceEvent :=
  (iteration.session, sentEvents iteration.events)

omit [Target] in
theorem hostView_derived (derivations : List Derivation) (answered : Option Iteration) :
    (answered.map fun iteration ↦ { iteration with
      events := derivations.map .derived ++ iteration.events }).map Iteration.hostView =
      answered.map Iteration.hostView := by
  cases answered with
  | none => rfl
  | some iteration => simp only [Option.map_some, Iteration.hostView, sentEvents_derived]

/-- The replies about two keys are the same if the user declines. -/
theorem hostView_answerPublicKey {received : Received} {publicKey publicKey' : ByteArrayN 32}
    (hkeys : received.approves = true → publicKey' = publicKey) (session : SigningSession) :
    (answerPublicKey received session publicKey').map Iteration.hostView =
      (answerPublicKey received session publicKey).map Iteration.hostView := by
  cases happroves : received.approves with
  | true => rw [hkeys happroves]
  | false =>
    simp only [answerPublicKey, uiDisplayPublicKey_eq, happroves, Bool.false_eq_true, if_false]
    rfl

/-- The part of an iteration behind the dispatch. -/
def answerOutcome (received : Received) (session : SigningSession) :
    DispatchOutcome → Option Iteration
  | .reply answer => some (answerReply received session answer)
  | .reviewPublicKey _ publicKey => answerPublicKey received session publicKey
  | .reviewTransaction review => answerTransaction received session review

theorem hostView_iterate (session : SigningSession) {received : Received}
    {header : DeviceApduHeader} (hheader : received.header = .ok header) :
    (iterate session received).map Iteration.hostView =
      (answerOutcome received
        (dispatch session (received.apduCommand header) received.deriver
          devnetAssetTransferPolicy).session
        (dispatch session (received.apduCommand header) received.deriver
          devnetAssetTransferPolicy).outcome).map Iteration.hostView := by
  simp only [iterate, hheader]
  rw [hostView_derived]
  cases (dispatch session (received.apduCommand header) received.deriver
    devnetAssetTransferPolicy).outcome <;> rfl

/-- The key derivation plays no part behind the dispatch. -/
theorem answerOutcome_deriver (received : Received) (deriver : PublicKeyDeriver)
    (session : SigningSession) (outcome : DispatchOutcome) :
    answerOutcome { received with deriver } session outcome =
      answerOutcome received session outcome := by
  cases outcome <;> rfl

/-- Two devices that look alike answer alike. -/
theorem iterate_hostView {phase : Phase} {received received' : Received} (hhead : AtHead phase)
    (halike : KeysLookAlike phase.represent received received') :
    (iterate phase.represent received').map Iteration.hostView =
      (iterate phase.represent received).map Iteration.hostView := by
  obtain ⟨hrest, hanswered, hdisclosed, hsender⟩ := halike
  generalize received'.deriver = deriver' at hrest hanswered hdisclosed hsender
  subst hrest
  cases hheader : received.header with
  | error reply => simp only [iterate, hheader]
  | ok header =>
    obtain ⟨hsession, houtcome⟩ : LooksLike
        (dispatch phase.represent (received.apduCommand header) received.deriver
          devnetAssetTransferPolicy)
        (dispatch phase.represent (received.apduCommand header) deriver'
          devnetAssetTransferPolicy) := by
      refine dispatch_looksLike hhead hanswered ?_
      rintro collection rfl contents hdecode
      exact hsender _ _ _ rfl (Phase.collected_represent _) hdecode
    have hiterate' : (iterate phase.represent { received with deriver := deriver' }).map
        Iteration.hostView =
      (answerOutcome { received with deriver := deriver' }
        (dispatch phase.represent (received.apduCommand header) deriver'
          devnetAssetTransferPolicy).session
        (dispatch phase.represent (received.apduCommand header) deriver'
          devnetAssetTransferPolicy).outcome).map Iteration.hostView :=
      hostView_iterate phase.represent hheader
    rw [answerOutcome_deriver, hheader] at hiterate'
    rw [hiterate', hostView_iterate phase.represent hheader, hsession]
    rcases houtcome with houtcome | ⟨path, publicKey, publicKey', hfirst, hsecond⟩
    · rw [houtcome]
    · obtain ⟨_, -, hdispatches⟩ := dispatch_represent phase (received.apduCommand header)
        received.deriver devnetAssetTransferPolicy
      obtain ⟨_, -, hdispatches'⟩ := dispatch_represent phase (received.apduCommand header)
        deriver' devnetAssetTransferPolicy
      rw [hfirst] at hdispatches
      rw [hsecond] at hdispatches'
      rw [hfirst, hsecond]
      obtain ⟨hverifies, hkey⟩ := verifies_of_reviewPublicKey hdispatches
      obtain ⟨-, hkey'⟩ := verifies_of_reviewPublicKey hdispatches'
      refine hostView_answerPublicKey (fun happroves ↦ ?_) _
      have hdisclosed := hdisclosed header path happroves hheader hverifies
      rw [hkey, hkey'] at hdisclosed
      exact Option.some.inj hdisclosed

/-! ## Runs -/

/-- Between two iterations the devices receive the same up to keys that look alike. -/
def ReceiveAlike : LoopState → Received → Received → Prop
  | .running session, received, received' => KeysLookAlike session received received'
  | .ended, _, _ => True

theorem inLockStep_normalMain :
    normalMain.InLockStep normalMain (fun state state' ↦ state' = state ∧ RunsAtHead state)
      ReceiveAlike (fun events events' ↦ sentEvents events' = sentEvents events) where
  step := by
    rintro state _ received received' ⟨rfl, hruns⟩ halike
    have hnext := runsAtHead_step _ received hruns
    obtain ⟨phase, rfl, hhead⟩ := hruns
    obtain ⟨next, events, hiterate, -⟩ := iteratesFrom hhead received
    obtain ⟨next', events', hiterate', -⟩ := iteratesFrom hhead received'
    have hview := iterate_hostView hhead halike
    rw [hiterate, hiterate', Option.map_some, Option.map_some, Option.some.injEq,
      Iteration.hostView, Iteration.hostView, Prod.mk.injEq] at hview
    obtain ⟨hsession, hsent⟩ := hview
    have hstep : normalMain.step (.running phase.represent) received =
        (.running next.represent, events) := by
      simp only [normalMain, hiterate]
    have hstep' : normalMain.step (.running phase.represent) received' =
        (.running next'.represent, events') := by
      simp only [normalMain, hiterate']
    rw [hstep] at hnext ⊢
    rw [hstep']
    exact ⟨⟨congrArg LoopState.running hsession, hnext⟩, hsent⟩

/-- What a leading part of a transfer decodes to, if anything, is sent by the sender of the
transfer. -/
theorem sender_of_decodeBounded_leading {transfer : Transfer} {framed : Bytes}
    {contents : SignatureFrame × TransactionSignable} (hleading : framed <+: transfer.bytes)
    (hdecode : decodeBounded framed = .ok contents) : contents.2.sender = transfer.sender := by
  obtain ⟨frame, transaction, hbytes, hsender, -⟩ := exists_decodeBounded_bytes transfer
  obtain ⟨-, rfl⟩ := eq_of_prefix_of_hasType
    (hasType_of_struct (decodeBounded_eq_ok_iff.mp hdecode).1)
    (hasType_of_struct (decodeBounded_eq_ok_iff.mp hbytes).1) hleading
  rw [hdecode] at hbytes
  rw [Except.ok.inj hbytes, hsender]

omit [Target] in
/-- A command that is received by a device with one key for all paths, whose user declines. -/
def declining (publicKey : ByteArrayN 32) (command : ApduCommand) : Received where
  header := .ok ⟨command.cla, command.ins, command.p1, command.p2⟩
  data := command.data
  deriver _ := some publicKey
  signer _ _ := none
  approves := false
  sends := true

omit [Target] in
theorem carries_declining (publicKey : ByteArrayN 32) (command : ApduCommand) :
    Carries (declining publicKey command) command :=
  ⟨rfl, rfl, rfl⟩

section Strangers

variable {transfer : Transfer} {publicKey publicKey' : ByteArrayN 32}
  (hstranger : publicKey ≠ transfer.sender.bytes) (hstranger' : publicKey' ≠ transfer.sender.bytes)

include hstranger hstranger'

/-- Two devices without the key of the sender look alike while a transfer is delivered to them. -/
theorem keysLookAlike_declining {collection : Collection} {command : ApduCommand}
    (hleading : collection.content ++ command.data <+: transfer.bytes) :
    KeysLookAlike (Phase.collecting collection).represent (declining publicKey command)
      (declining publicKey' command) := by
  refine ⟨rfl, fun path ↦ by simp [declining], ?_, ?_⟩
  · intro header path happroves
    cases happroves
  · intro path content contents hpath hcontent hdecode
    rw [Phase.collected_represent] at hcontent
    obtain rfl : collection.content = content := Option.some.inj hcontent
    rw [sender_of_decodeBounded_leading hleading hdecode]
    simp [declining, hstranger, hstranger']

/-- The pieces behind `FIRST` are received alike, and so is what follows on a new session. -/
theorem relatedThroughout_pieces {middles : List Bytes} {last : Bytes}
    {inputs inputs' : List Received}
    (hlength : ∀ piece ∈ middles ++ [last], 1 ≤ piece.length ∧ piece.length ≤ maxChunkLen)
    (hlater : normalMain.RelatedThroughout ReceiveAlike (.running .new) inputs inputs')
    (collection : Collection)
    (hframed : collection.content ++ (middles.flatten ++ last) = transfer.bytes)
    (htotal : collection.total.toNat = transfer.bytes.length) :
    normalMain.RelatedThroughout ReceiveAlike (.running (Phase.collecting collection).represent)
      ((middles.map (signCommand signP1Continue) ++ [signCommand signP1Last last]).map
        (declining publicKey) ++ inputs)
      ((middles.map (signCommand signP1Continue) ++ [signCommand signP1Last last]).map
        (declining publicKey') ++ inputs') := by
  induction middles generalizing collection with
  | nil =>
    have hlast := hlength last (List.mem_singleton_self _)
    have hcompletes : CompletesCollection collection last := by
      refine ⟨List.length_pos_iff.mp hlast.1, hlast.2, ?_⟩
      rw [htotal, ← hframed, List.length_append]
      rfl
    have hiterate := iterate_of_transfer
      (carries_declining publicKey (signCommand signP1Last last)).header_eq
      (isSign_signCommand signP1Last last) hcompletes hframed
    refine .cons (keysLookAlike_declining hstranger hstranger' ?_) ?_
    · rw [← hframed]
      exact List.prefix_rfl
    · rw [step_of_iterate hiterate]
      exact hlater
  | cons middle middles ih =>
    have hmiddle := hlength middle (List.mem_cons_self ..)
    have hlast := hlength last (by simp)
    have hsplit : (collection.content ++ middle) ++ (middles.flatten ++ last) = transfer.bytes := by
      rw [← hframed, List.flatten_cons, List.append_assoc, List.append_assoc]
    have hextends : ExtendsCollection collection middle := by
      refine ⟨List.length_pos_iff.mp hmiddle.1, hmiddle.2, ?_⟩
      rw [htotal, ← hsplit, List.length_append, List.length_append, List.length_append]
      omega
    refine .cons (keysLookAlike_declining hstranger hstranger' ⟨_, hsplit⟩) ?_
    rw [step_of_extends (carries_declining publicKey _) hextends]
    exact ih (fun piece hpiece ↦ hlength piece (List.mem_cons_of_mem _ hpiece)) (.extended hextends)
      hsplit htotal

/-- The delivery of a transfer to a new session is received alike. -/
theorem relatedThroughout_delivery {pathBytes : Bytes} {path : DerivationPath}
    {inputs inputs' : List Received} (cut : Cut transfer.bytes)
    (hpath : decodePath pathBytes = .ok path)
    (hlater : normalMain.RelatedThroughout ReceiveAlike (.running .new) inputs inputs') :
    normalMain.RelatedThroughout ReceiveAlike (.running .new)
      ((cut.earlierCommands pathBytes ++ [cut.lastCommand]).map (declining publicKey) ++ inputs)
      ((cut.earlierCommands pathBytes ++ [cut.lastCommand]).map (declining publicKey') ++
        inputs') := by
  have hlength : transfer.bytes.length ≤ maxFrameLen :=
    transfer.length_bytes.trans_le (by decide)
  have hopens := cut.opensCollection hpath hlength
  have hcontent : (Collection.opened hopens).content = cut.first :=
    cut.firstChunk_firstData (length_of_decodePath hpath)
  refine .cons ⟨rfl, fun path ↦ by simp [declining], ?_, ?_⟩ ?_
  · intro header path happroves
    cases happroves
  · intro path content contents hnone
    cases hnone
  · have hstep := step_of_opens (carries_declining publicKey _) hopens
    change normalMain.RelatedThroughout ReceiveAlike
      (normalMain.step (.running Phase.idle.represent) _).1 _ _
    rw [hstep]
    refine relatedThroughout_pieces hstranger hstranger' ?_ hlater _ ?_ ?_
    · intro piece hpiece
      exact cut.piece_length piece (List.mem_cons_of_mem _ hpiece)
    · rw [hcontent, ← List.append_assoc, cut.pieces_eq]
    · exact hopens.toNat_total.trans (cut.firstTotal_firstData hlength)

end Strangers

omit [Target] in
/-- The transfer of one unit is delivered, and then a key is asked for, on a device with another
key. -/
def strangerInputs (publicKey : ByteArrayN 32) : List Received :=
  (unitTransferCut.earlierCommands originPathBytes ++ [unitTransferCut.lastCommand]).map
    (declining publicKey) ++ [declining publicKey verifyCommand]

/-- Two runs that receive the same up to keys that look alike end in the same state and send the
host the same replies all along.  The screens may show different keys.  Hence the host learns of a
key that the user has not approved to disclose only whether it can be derived, and whether it is the
sender of a frame that the host has delivered. -/
theorem normalMain_confides_keys {inputs inputs' : List Received}
    (halike : normalMain.RelatedThroughout ReceiveAlike (.running .new) inputs inputs') :
    normalMain.run (.running .new) inputs' = normalMain.run (.running .new) inputs ∧
      List.Forall₂ (fun event event' ↦ sentEvents event'.2 = sentEvents event.2)
        (normalMain.history (.running .new) inputs)
        (normalMain.history (.running .new) inputs') := by
  obtain ⟨⟨hrun, -⟩, hhistory⟩ :=
    inLockStep_normalMain.run ⟨rfl, .idle, rfl, atHead_idle⟩ halike
  exact ⟨hrun, hhistory⟩

omit [Target] in
/-- The replies to the delivery of a transfer of someone else, and to a request that is declined, do
not depend on the key. -/
theorem normalMain_confides_keys_strangers :
    let _ : Target := .device
    List.Forall₂ (fun event event' ↦ sentEvents event'.2 = sentEvents event.2)
      (normalMain.history (.running .new) (strangerInputs (List.Vector.replicate 32 1)))
      (normalMain.history (.running .new) (strangerInputs (List.Vector.replicate 32 2))) := by
  intro target
  have halike : KeysLookAlike .new (declining (List.Vector.replicate 32 1) verifyCommand)
      (declining (List.Vector.replicate 32 2) verifyCommand) := by
    refine ⟨rfl, fun path ↦ by simp [declining], ?_, ?_⟩
    · intro header path happroves
      cases happroves
    · intro path content contents hpath
      cases hpath
  have hpath : decodePath originPathBytes = .ok originPath := by decide
  have hdelivery := @relatedThroughout_delivery _ unitTransfer (List.Vector.replicate 32 1)
    (List.Vector.replicate 32 2) (by decide) (by decide) _ _ _ _ unitTransferCut hpath
    (.cons halike (.nil _))
  exact (normalMain_confides_keys hdelivery).2

end SunriseEdgeLedger.Device
