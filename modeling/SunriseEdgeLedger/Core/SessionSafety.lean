import SunriseEdgeLedger.Core.SessionHistory

/-!
# What failures of a session mean

A session fails closed: after everything that is not progress of `sign transaction` it is exactly a
new session, so that no earlier sequence can influence a later one.  The status word of a device
failure is reported for a key derivation or a signature without an answer, and for nothing else;
all other exits with that status are unreachable.
-/

namespace SunriseEdgeLedger.Core

open Foundation

variable [Target]

/-- A command made progress if it was a successful `sign transaction` or returned a review. -/
def MakesProgress (command : ApduCommand) (outcome : DispatchOutcome) : Prop :=
  (command.ins = insSignTransaction ∧ ∃ response, outcome = .success response) ∨
    ∃ review, outcome = .reviewTransaction review

/-- A command that made no progress leaves the idle phase. -/
theorem Dispatches.next_of_not_makesProgress {deriver : PublicKeyDeriver}
    {policy : ClearSigningPolicy} {command : ApduCommand} {phase next : Phase}
    {outcome : DispatchOutcome} {derivations : List Derivation}
    (hdispatches : Dispatches deriver policy command phase next outcome derivations)
    (hprogress : ¬ MakesProgress command outcome) : next = .idle := by
  cases hdispatches with
  | opened hsign hopens => exact absurd (.inl ⟨hsign.ins_eq, _, rfl⟩) hprogress
  | extended hsign hextends => exact absurd (.inl ⟨hsign.ins_eq, _, rfl⟩) hprogress
  | reviewed hsign hcompletes hcheck => exact absurd (.inr ⟨_, rfl⟩) hprogress
  | _ => rfl

/-- An idle session at the end of a run is a new session. -/
theorem run_eq_new_of_isIdle {operations : List Operation}
    (hidle : (sessionMachine.run .new operations).isIdle) :
    sessionMachine.run .new operations = .new := by
  obtain ⟨phase, hphase⟩ := representsPhase_run operations
  rw [hphase] at hidle ⊢
  rw [Phase.isIdle_represent.mp hidle]
  rfl

/-- After every run, a command that makes no progress, an approval, a rejection and a reset each
leave exactly a new session.  Two runs that end idle are therefore indistinguishable: whatever is
performed later has the same results and leads to the same session. -/
theorem session_fails_closed :
    (∀ operations command deriver policy,
      ¬ MakesProgress command
          (dispatch (sessionMachine.run .new operations) command deriver policy).outcome →
        (dispatch (sessionMachine.run .new operations) command deriver policy).session = .new) ∧
      (∀ operations signer,
        ((sessionMachine.run .new operations).approveAndSign signer).session = .new) ∧
      (∀ operations, (sessionMachine.run .new operations).rejectReview = .new) ∧
      (∀ operations, (sessionMachine.run .new operations).reset = .new) ∧
      (∀ first second later,
        (sessionMachine.run .new first).isIdle → (sessionMachine.run .new second).isIdle →
          sessionMachine.history (sessionMachine.run .new first) later =
              sessionMachine.history (sessionMachine.run .new second) later ∧
            sessionMachine.run (sessionMachine.run .new first) later =
              sessionMachine.run (sessionMachine.run .new second) later) := by
  refine ⟨?_, ?_, ?_, ?_, ?_⟩
  · intro operations command deriver policy hprogress
    obtain ⟨phase, hphase⟩ := representsPhase_run operations
    rw [hphase] at hprogress ⊢
    obtain ⟨next, hnext, hdispatches⟩ := dispatch_represent phase command deriver policy
    rw [hnext, hdispatches.next_of_not_makesProgress hprogress]
    rfl
  · intro operations signer
    obtain ⟨phase, hphase⟩ := representsPhase_run operations
    rw [hphase]
    exact (approveAndSign_represent phase signer).1
  · intro operations
    obtain ⟨phase, hphase⟩ := representsPhase_run operations
    rw [hphase]
    exact phase.wipe_represent
  · intro operations
    obtain ⟨phase, hphase⟩ := representsPhase_run operations
    rw [hphase]
    exact phase.wipe_represent
  · intro first second later hfirst hsecond
    rw [run_eq_new_of_isIdle hfirst, run_eq_new_of_isIdle hsecond]
    exact ⟨rfl, rfl⟩

/-! ## Device failures -/

/-- A command that is answered by a status word. -/
def DispatchOutcome.Replies (outcome : DispatchOutcome) (status : StatusWord) : Prop :=
  ∃ answer, outcome = .reply answer ∧ answer.status = status

omit [Target] in
@[simp]
theorem replies_failure {status reported : StatusWord} :
    (DispatchOutcome.failure reported).Replies status ↔ reported = status := by
  simp [DispatchOutcome.Replies, DispatchOutcome.failure]

omit [Target] in
@[simp]
theorem replies_success {status : StatusWord} {response : ImmediateResponse} :
    (DispatchOutcome.success response).Replies status ↔ .success = status := by
  simp [DispatchOutcome.Replies, DispatchOutcome.success]

omit [Target] in
@[simp]
theorem not_replies_reviewPublicKey {status : StatusWord} {path : DerivationPath}
    {publicKey : ByteArrayN 32} :
    ¬ (DispatchOutcome.reviewPublicKey path publicKey).Replies status := by
  simp [DispatchOutcome.Replies]

omit [Target] in
@[simp]
theorem not_replies_reviewTransaction {status : StatusWord} {review : ClearSigningReview} :
    ¬ (DispatchOutcome.reviewTransaction review).Replies status := by
  simp [DispatchOutcome.Replies]

/-- A check fails as a device failure exactly if its derivation got no answer. -/
theorem oneShotCheck_internalFailure_iff {path : DerivationPath} {framed : Bytes}
    {deriver : PublicKeyDeriver} (policy : ClearSigningPolicy) :
    oneShotCheck path framed deriver policy = .error .internalFailure ↔
      ∃ derivation ∈ oneShotDerivations path framed deriver, derivation.publicKey = none := by
  constructor
  · intro herror
    rcases oneShotCheck_eq_error herror with hstatus | hstatus | ⟨-, hderivations⟩
    · cases hstatus
    · cases hstatus
    · rw [hderivations]
      exact ⟨_, List.mem_singleton_self _, rfl⟩
  · rintro ⟨derivation, hderivation, hnone⟩
    refine oneShotCheck_of_derivations_none ?_
    unfold oneShotDerivations at hderivation ⊢
    split at hderivation
    · obtain rfl := List.mem_singleton.mp hderivation
      change deriver path = none at hnone
      rw [hnone]
    · cases hderivation

/-- A command is answered by a device failure exactly if it derived a key without an answer, and
never by a rejection of the user. -/
theorem Dispatches.replies_iff {deriver : PublicKeyDeriver} {policy : ClearSigningPolicy}
    {command : ApduCommand} {phase next : Phase} {outcome : DispatchOutcome}
    {derivations : List Derivation}
    (hdispatches : Dispatches deriver policy command phase next outcome derivations) :
    (outcome.Replies .internalFailure ↔
        ∃ derivation ∈ derivations, derivation.publicKey = none) ∧
      ¬ outcome.Replies .userRejected := by
  cases hdispatches with
  | refused hstatus hunfit => simp [hstatus.2.1, hstatus.2.2]
  | unchecked hsign hcompletes hcheck =>
    rename_i collection status
    constructor
    · rw [replies_failure, ← oneShotCheck_internalFailure_iff policy, hcheck,
        Except.error.injEq]
    · rcases oneShotCheck_eq_error hcheck with rfl | rfl | ⟨rfl, -⟩ <;> simp
  | @reviewed collection review hsign hcompletes hcheck =>
    constructor
    · rw [← oneShotCheck_internalFailure_iff policy, hcheck]
      simp
    · simp
  | _ => simp

/-- The recorded derivations are answers of the deriver. -/
theorem Dispatches.derivation_eq {deriver : PublicKeyDeriver} {policy : ClearSigningPolicy}
    {command : ApduCommand} {phase next : Phase} {outcome : DispatchOutcome}
    {derivations : List Derivation}
    (hdispatches : Dispatches deriver policy command phase next outcome derivations) :
    ∀ derivation ∈ derivations, derivation.publicKey = deriver derivation.path := by
  have hcheck : ∀ path framed, ∀ derivation ∈ oneShotDerivations path framed deriver,
      derivation.publicKey = deriver derivation.path := by
    intro path framed derivation hderivation
    unfold oneShotDerivations at hderivation
    split at hderivation
    · obtain rfl := List.mem_singleton.mp hderivation
      rfl
    · cases hderivation
  cases hdispatches with
  | underivable hverify hkey => simp [hkey]
  | derived hverify hkey => simp [hkey]
  | unchecked => exact hcheck _ _
  | reviewed => exact hcheck _ _
  | _ => simp

omit [Target] in
/-- An approval in any other state than that of a pending review never reaches the signer. -/
theorem approveAndSign_of_ne_awaitingApproval {session : SigningSession}
    (hstate : session.state ≠ .awaitingApproval) (signer : FrameSigner) :
    session.approveAndSign signer = ⟨session.wipe, .error .invalidState, []⟩ :=
  if_pos hstate

/-- An approval of a pending review calls the signer once, for the captured path and the pending
frame, and returns its answer. -/
theorem approveAndSign_of_awaitingApproval {session : SigningSession}
    (hrepresents : RepresentsPhase session) (hstate : session.state = .awaitingApproval)
    (signer : FrameSigner) :
    ∃ path frame, session.path = some path ∧ session.pendingFrame = some frame ∧
      session.approveAndSign signer =
        ⟨.new, okOr .internalFailure (signer path frame), [⟨path, frame, signer path frame⟩]⟩ := by
  obtain ⟨phase, rfl⟩ := hrepresents
  cases phase with
  | idle => cases hstate
  | collecting collection => cases hstate
  | awaiting pending =>
    have hframe := (Phase.awaiting pending).pendingFrame_represent
    rw [if_pos hstate] at hframe
    exact ⟨pending.path, pending.framed, rfl, hframe, approveAndSign_awaiting pending signer⟩

/-- After every run, a command reports a device failure exactly if the key derivation that it called
gave no answer, and never a rejection of the user.  An approval of a pending review calls the signer
exactly once, for the captured path and the pending frame, and returns its answer.  It reports a
device failure exactly if there is none.  An approval without a pending review reports the state and
does not call the signer. -/
theorem internalFailure_iff_callback_failed :
    (∀ operations command deriver policy,
      ((dispatch (sessionMachine.run .new operations) command deriver policy).outcome.Replies
          .internalFailure ↔
        ∃ derivation ∈
            (dispatch (sessionMachine.run .new operations) command deriver policy).derivations,
          derivation.publicKey = none) ∧
      (∀ derivation ∈
          (dispatch (sessionMachine.run .new operations) command deriver policy).derivations,
        derivation.publicKey = deriver derivation.path) ∧
      ¬ (dispatch (sessionMachine.run .new operations) command deriver policy).outcome.Replies
        .userRejected) ∧
    ∀ operations signer,
      let session := sessionMachine.run .new operations
      let approval := session.approveAndSign signer
      (session.state = .awaitingApproval → ∃ path frame,
        session.path = some path ∧ session.pendingFrame = some frame ∧
          approval.signings = [⟨path, frame, signer path frame⟩] ∧
          approval.result = okOr .internalFailure (signer path frame)) ∧
      (approval.result = .error .internalFailure ↔
        session.state = .awaitingApproval ∧ ∃ path frame,
          session.path = some path ∧ session.pendingFrame = some frame ∧
            signer path frame = none) ∧
      (approval.result = .error .invalidState ↔ session.state ≠ .awaitingApproval) ∧
      (session.state ≠ .awaitingApproval → approval.signings = []) := by
  constructor
  · intro operations command deriver policy
    obtain ⟨phase, hphase⟩ := representsPhase_run operations
    rw [hphase]
    obtain ⟨next, -, hdispatches⟩ := dispatch_represent phase command deriver policy
    exact ⟨hdispatches.replies_iff.1, hdispatches.derivation_eq, hdispatches.replies_iff.2⟩
  · intro operations signer session approval
    by_cases hstate : session.state = .awaitingApproval
    · obtain ⟨path, frame, hpath, hframe, happroval⟩ :=
        approveAndSign_of_awaitingApproval (representsPhase_run operations) hstate signer
      have hsignings : approval.signings = [⟨path, frame, signer path frame⟩] :=
        congrArg SigningSession.Approval.signings happroval
      have hresult : approval.result = okOr .internalFailure (signer path frame) :=
        congrArg SigningSession.Approval.result happroval
      refine ⟨fun _ ↦ ⟨path, frame, hpath, hframe, hsignings, hresult⟩, ?_, ?_, ?_⟩
      · rw [hresult, okOr_eq_error_iff]
        constructor
        · intro hnone
          exact ⟨hstate, path, frame, hpath, hframe, hnone.1⟩
        · rintro ⟨-, path', frame', hpath', hframe', hnone⟩
          obtain rfl : path = path' := Option.some.inj (hpath.symm.trans hpath')
          obtain rfl : frame = frame' := Option.some.inj (hframe.symm.trans hframe')
          exact ⟨hnone, rfl⟩
      · rw [hresult, okOr_eq_error_iff]
        simp [hstate]
      · exact fun hother ↦ absurd hstate hother
    · have happroval : approval = ⟨session.wipe, .error .invalidState, []⟩ :=
        approveAndSign_of_ne_awaitingApproval hstate signer
      rw [happroval]
      simp [hstate]

end SunriseEdgeLedger.Core
