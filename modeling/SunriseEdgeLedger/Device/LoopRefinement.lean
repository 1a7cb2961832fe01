import SunriseEdgeLedger.Device.LoopSteps
import SunriseEdgeLedger.Foundation.Simulation

/-!
# The event loop performs session operations

The event loop touches its session only through the operations of the session machine.  Every run of
the loop is therefore matched by a run of the session machine that dispatches the same commands
under the transfer policy and makes the same calls of the key derivation and of the signer, in the
same order, and that ends in the same session.  What holds of all runs of a session holds of the
device.
-/

namespace SunriseEdgeLedger.Device

open SunriseEdgeLedger.Foundation SunriseEdgeLedger.Core

/-- A command that was dispatched under a policy, or a call that was made to the outside. -/
inductive SessionCall where
  | commanded (command : ApduCommand) (policy : ClearSigningPolicy)
  | derived (derivation : Derivation)
  | signed (signing : Signing)
deriving DecidableEq

/-- The commands and calls of an operation on a session. -/
def sessionTrace : Event → List SessionCall
  | (.dispatch command _ policy, .dispatched _ derivations) =>
    .commanded command policy :: derivations.map .derived
  | (_, .approved _ signings) => signings.map .signed
  | _ => []

/-- The call that an event of the application is. -/
def DeviceEvent.call? : DeviceEvent → Option SessionCall
  | .derived derivation => some (.derived derivation)
  | .signed signing => some (.signed signing)
  | _ => none

/-- The commands and calls of an iteration of the loop. -/
def loopTrace (iteration : Received × List DeviceEvent) : List SessionCall :=
  match iteration.1.header with
  | .error _ => iteration.2.filterMap DeviceEvent.call?
  | .ok header =>
    .commanded (iteration.1.apduCommand header) devnetAssetTransferPolicy ::
      iteration.2.filterMap DeviceEvent.call?

theorem filterMap_call?_derived (derivations : List Derivation) :
    (derivations.map DeviceEvent.derived).filterMap DeviceEvent.call? =
      derivations.map .derived := by
  have hcall : DeviceEvent.call? ∘ DeviceEvent.derived = some ∘ SessionCall.derived := rfl
  rw [List.filterMap_map, hcall, List.filterMap_eq_map]

theorem filterMap_call?_signed (signings : List Signing) :
    (signings.map DeviceEvent.signed).filterMap DeviceEvent.call? = signings.map .signed := by
  have hcall : DeviceEvent.call? ∘ DeviceEvent.signed = some ∘ SessionCall.signed := rfl
  rw [List.filterMap_map, hcall, List.filterMap_eq_map]

/-- Around the signer, an approved review makes no calls. -/
theorem filterMap_call?_approved (lines : List Field) (signings : List Signing)
    (reply popup : List DeviceEvent) (hreply : reply.filterMap DeviceEvent.call? = [])
    (hpopup : popup.filterMap DeviceEvent.call? = []) :
    (DeviceEvent.showedTransaction lines true :: signings.map .signed ++ reply ++ popup).filterMap
      DeviceEvent.call? = signings.map .signed := by
  rw [List.filterMap_append, List.filterMap_append, List.filterMap_cons_none rfl,
    filterMap_call?_signed, hreply, hpopup, List.append_nil, List.append_nil]

variable [Target]

/-- The operations lead to the session that an answer leaves, with the calls of its events. -/
structure MatchedBy (session : SigningSession) (iteration : Iteration)
    (operations : List Operation) : Prop where
  session_eq : iteration.session = sessionMachine.run session operations
  calls_eq : iteration.events.filterMap DeviceEvent.call? =
    (sessionMachine.history session operations).flatMap sessionTrace

/-- The reset that follows a reply that could not be sent. -/
def resetOperations (received : Received) : List Operation :=
  if received.sends then [] else [.reset]

theorem run_resetOperations (received : Received) (session : SigningSession) :
    sessionMachine.run session (resetOperations received) = resetUnlessSent received session := by
  unfold resetOperations resetUnlessSent
  split_ifs <;> rfl

theorem trace_resetOperations (received : Received) (session : SigningSession) :
    (sessionMachine.history session (resetOperations received)).flatMap sessionTrace = [] := by
  unfold resetOperations
  split_ifs <;> rfl

section Answers

variable (received : Received) (session : SigningSession)

/-- A reply at most resets the session. -/
theorem matchedBy_answerReply (answer : ApduReply) :
    MatchedBy session (answerReply received session answer) (resetOperations received) := by
  have hreset := run_resetOperations received session
  have htrace := trace_resetOperations received session
  unfold answerReply
  split_ifs
  · cases answer.response <;> exact ⟨hreset.symm, htrace.symm⟩
  · exact ⟨hreset.symm, htrace.symm⟩

/-- A review of a key at most resets the session. -/
theorem exists_matchedBy_answerPublicKey {publicKey : ByteArrayN 32} {iteration : Iteration}
    (hanswer : answerPublicKey received session publicKey = some iteration) :
    ∃ operations, MatchedBy session iteration operations := by
  have hreset := run_resetOperations received session
  have htrace := trace_resetOperations received session
  unfold answerPublicKey at hanswer
  split at hanswer
  · split_ifs at hanswer
    · obtain rfl := Option.some.inj hanswer
      exact ⟨resetOperations received, hreset.symm, htrace.symm⟩
    · obtain rfl := Option.some.inj hanswer
      exact ⟨[.reset], rfl, rfl⟩
  · obtain rfl := Option.some.inj hanswer
    exact ⟨[.reset], rfl, rfl⟩
  · cases hanswer

/-- A review of a transaction approves and signs, or rejects the review. -/
theorem exists_matchedBy_answerTransaction {review : ClearSigningReview} {iteration : Iteration}
    (hanswer : answerTransaction received session review = some iteration) :
    ∃ operations, MatchedBy session iteration operations := by
  unfold answerTransaction at hanswer
  split at hanswer
  · split_ifs at hanswer
    · let approval := session.approveAndSign received.signer
      have hreset := run_resetOperations received approval.session
      have htrace := trace_resetOperations received approval.session
      dsimp only at hanswer
      split at hanswer
      · obtain rfl := Option.some.inj hanswer
        refine ⟨.approveAndSign received.signer :: resetOperations received, hreset.symm, ?_⟩
        rw [Machine.history_cons, List.flatMap_cons]
        change _ = approval.signings.map SessionCall.signed ++ (sessionMachine.history approval.session
          (resetOperations received)).flatMap sessionTrace
        rw [htrace, List.append_nil]
        exact filterMap_call?_approved _ approval.signings [_] _ rfl rfl
      · obtain rfl := Option.some.inj hanswer
        refine ⟨[.approveAndSign received.signer], rfl, ?_⟩
        rw [Machine.history_cons, List.flatMap_cons]
        change _ = approval.signings.map SessionCall.signed ++ []
        rw [List.append_nil]
        exact filterMap_call?_approved _ approval.signings [_] _ rfl rfl
    · obtain rfl := Option.some.inj hanswer
      exact ⟨[.rejectReview], rfl, rfl⟩
  · obtain rfl := Option.some.inj hanswer
    exact ⟨[.rejectReview], rfl, rfl⟩
  · cases hanswer

end Answers

/-- An iteration is a reset, or a dispatch with the operations of its answer. -/
theorem exists_operations_of_iterate {session : SigningSession} {received : Received}
    {iteration : Iteration} (hiterate : iterate session received = some iteration) :
    ∃ operations, iteration.session = sessionMachine.run session operations ∧
      loopTrace (received, iteration.events) =
        (sessionMachine.history session operations).flatMap sessionTrace := by
  cases hheader : received.header with
  | error reply =>
    simp only [iterate, hheader, Option.some.injEq] at hiterate
    subst hiterate
    refine ⟨[.reset], rfl, ?_⟩
    simp only [loopTrace, hheader]
    rfl
  | ok header =>
    let command := received.apduCommand header
    let dispatched := dispatch session command received.deriver devnetAssetTransferPolicy
    have hanswered : ∃ answer operations, MatchedBy dispatched.session answer operations ∧
        iteration = { answer with
          events := dispatched.derivations.map .derived ++ answer.events } := by
      simp only [iterate, hheader, Option.map_eq_some_iff] at hiterate
      obtain ⟨answer, hanswer, rfl⟩ := hiterate
      refine ⟨answer, ?_⟩
      split at hanswer
      · obtain rfl := Option.some.inj hanswer
        exact ⟨_, matchedBy_answerReply received dispatched.session _, rfl⟩
      · obtain ⟨operations, hmatched⟩ :=
          exists_matchedBy_answerPublicKey received dispatched.session hanswer
        exact ⟨operations, hmatched, rfl⟩
      · obtain ⟨operations, hmatched⟩ :=
          exists_matchedBy_answerTransaction received dispatched.session hanswer
        exact ⟨operations, hmatched, rfl⟩
    obtain ⟨answer, operations, hmatched, rfl⟩ := hanswered
    refine ⟨.dispatch command received.deriver devnetAssetTransferPolicy :: operations,
      hmatched.session_eq, ?_⟩
    simp only [loopTrace, hheader, List.filterMap_append, filterMap_call?_derived,
      hmatched.calls_eq, Machine.history_cons, List.flatMap_cons]
    rfl

/-- The session machine simulates the event loop. -/
theorem simulates_normalMain :
    sessionMachine.Simulates normalMain
      (fun state session ↦ state = .running session ∧ RunsAtHead state) loopTrace sessionTrace where
  matched := by
    rintro _ session received ⟨rfl, phase, hphase, hhead⟩
    obtain rfl : session = phase.represent := LoopState.running.inj hphase
    obtain ⟨next, events, hiterate, hnext, -⟩ := iteratesFrom hhead received
    have hstep : normalMain.step (.running phase.represent) received =
        (.running next.represent, events) := by
      simp only [normalMain, hiterate]
    obtain ⟨operations, hsession, htrace⟩ := exists_operations_of_iterate hiterate
    rw [hstep]
    exact ⟨operations, ⟨congrArg LoopState.running hsession, next, rfl, hnext⟩, htrace⟩

/-! ## Counting signatures -/

section Counting

omit [Target]

def SessionCall.isSigned : SessionCall → Bool
  | .signed _ => true
  | _ => false

/-- Whether a call is the dispatch of a `FIRST`. -/
def SessionCall.isFirst : SessionCall → Bool
  | .commanded command _ => command.ins == insSignTransaction && command.p1 == signP1First
  | _ => false

theorem countP_isSigned_sessionTrace (event : Event) :
    (sessionTrace event).countP SessionCall.isSigned = signerCalls event := by
  have hsigned : ∀ signings : List Signing,
      (signings.map SessionCall.signed).countP SessionCall.isSigned = signings.length := by
    intro signings
    rw [List.countP_map]
    exact List.countP_eq_length.mpr fun _ _ ↦ rfl
  have hderived : ∀ derivations : List Derivation,
      (derivations.map SessionCall.derived).countP SessionCall.isSigned = 0 := by
    intro derivations
    rw [List.countP_map]
    exact List.countP_eq_zero.mpr fun _ _ ↦ Bool.false_ne_true
  obtain ⟨operation, observation⟩ := event
  cases observation with
  | dispatched outcome derivations =>
    cases operation with
    | dispatch command deriver policy =>
      exact (List.countP_cons_of_neg Bool.false_ne_true).trans (hderived derivations)
    | _ => rfl
  | approved result signings => cases operation <;> exact hsigned signings
  | wiped => cases operation <;> rfl

theorem isAcceptedFirst_le_countP_isFirst (event : Event) :
    (if isAcceptedFirst event then 1 else 0) ≤ (sessionTrace event).countP SessionCall.isFirst := by
  split_ifs with hfirst
  · obtain ⟨operation, observation⟩ := event
    cases operation with
    | dispatch command deriver policy =>
      cases observation with
      | dispatched outcome derivations =>
        simp only [isAcceptedFirst, Bool.and_eq_true, beq_iff_eq] at hfirst
        have hcommand : (SessionCall.commanded command policy).isFirst = true := by
          simp [SessionCall.isFirst, hfirst.1.1.1.2, hfirst.1.1.2]
        exact List.countP_pos_iff.mpr ⟨_, List.mem_cons_self .., hcommand⟩
      | _ => cases hfirst
    | _ => cases hfirst
  · exact Nat.zero_le _

/-- The signer calls of a history are those of its trace, and there is a `FIRST` in the trace for
every accepted one. -/
theorem trace_counts (history : List Event) :
    (history.flatMap sessionTrace).countP SessionCall.isSigned = (history.map signerCalls).sum ∧
      history.countP isAcceptedFirst ≤
        (history.flatMap sessionTrace).countP SessionCall.isFirst := by
  induction history with
  | nil => exact ⟨rfl, le_rfl⟩
  | cons event history ih =>
    have hfirst := isAcceptedFirst_le_countP_isFirst event
    simp only [List.flatMap_cons, List.countP_append, List.map_cons, List.sum_cons,
      List.countP_cons, countP_isSigned_sessionTrace]
    exact ⟨by rw [ih.1], by omega⟩

end Counting

/-- Every run of the event loop is a run of the session machine.  Whatever is received, there are
operations on a session that dispatch the received commands under the transfer policy, derive the
same keys and make the same signatures, all in the same order, and that end in the session of the
application, which never ends by itself.  Hence the loop calls the signer at most as often as it
receives a `FIRST`. -/
theorem normalMain_refines_session (inputs : List Received) :
    ∃ operations,
      normalMain.run (.running .new) inputs = .running (sessionMachine.run .new operations) ∧
      (normalMain.history (.running .new) inputs).flatMap loopTrace =
        (sessionMachine.history .new operations).flatMap sessionTrace ∧
      ((normalMain.history (.running .new) inputs).flatMap loopTrace).countP SessionCall.isSigned ≤
        ((normalMain.history (.running .new) inputs).flatMap loopTrace).countP
          SessionCall.isFirst := by
  have hinitial : LoopState.running SigningSession.new = .running .new ∧
      RunsAtHead (.running .new) := ⟨rfl, .idle, rfl, atHead_idle⟩
  obtain ⟨operations, ⟨hrun, -⟩, htrace⟩ := simulates_normalMain.exists_run hinitial inputs
  obtain ⟨hsigned, hfirst⟩ := trace_counts (sessionMachine.history .new operations)
  have hbudget := sum_signerCalls_le [] operations
  refine ⟨operations, hrun, htrace, ?_⟩
  rw [htrace]
  calc
    _ = ((sessionMachine.history .new operations).map signerCalls).sum := hsigned
    _ ≤ (sessionMachine.history .new operations).countP isAcceptedFirst := hbudget
    _ ≤ _ := hfirst

end SunriseEdgeLedger.Device
