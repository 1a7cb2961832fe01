import SunriseEdgeLedger.Core.SessionRefinement
import SunriseEdgeLedger.Foundation.Machine

/-!
# Runs of a signing session

A session as a machine: its operations are the commands, the approval and the rejection of a pending
review, and the reset; what can be observed of an operation is its result and the calls it made.
The session at the end of every run represents a phase, and every operation is one of the cases of
`Performs`.
-/

namespace SunriseEdgeLedger.Core

open Foundation

/-- An operation on a session, with the answers that its callback would give. -/
inductive Operation where
  | dispatch (command : ApduCommand) (deriver : PublicKeyDeriver) (policy : ClearSigningPolicy)
  | approveAndSign (signer : FrameSigner)
  | rejectReview
  | reset

/-- What an operation returns, and the calls it made. -/
inductive Observation where
  | dispatched (outcome : DispatchOutcome) (derivations : List Derivation)
  | approved (result : Except StatusWord (ByteArrayN 64)) (signings : List Signing)
  | wiped

/-- An operation with what was observed of it. -/
abbrev Event := Operation × Observation

variable [Target]

/-- Perform one operation. -/
def perform (session : SigningSession) : Operation → SigningSession × Observation
  | .dispatch command deriver policy =>
    let dispatched := dispatch session command deriver policy
    (dispatched.session, .dispatched dispatched.outcome dispatched.derivations)
  | .approveAndSign signer =>
    let approval := session.approveAndSign signer
    (approval.session, .approved approval.result approval.signings)
  | .rejectReview => (session.rejectReview, .wiped)
  | .reset => (session.reset, .wiped)

/-- The machine that performs operations on a session. -/
def sessionMachine : Machine SigningSession Operation Observation := ⟨perform⟩

/-- Everything that an operation can do on a phase. -/
inductive Performs (phase : Phase) : Operation → Phase → Observation → Prop where
  | dispatched {command : ApduCommand} {deriver : PublicKeyDeriver} {policy : ClearSigningPolicy}
      {next : Phase} {outcome : DispatchOutcome} {derivations : List Derivation}
      (hdispatches : Dispatches deriver policy command phase next outcome derivations) :
      Performs phase (.dispatch command deriver policy) next (.dispatched outcome derivations)
  | signed {pending : PendingReview} {signer : FrameSigner} (hphase : phase = .awaiting pending) :
      Performs phase (.approveAndSign signer) .idle
        (.approved (okOr .internalFailure (signer pending.path pending.framed))
          [⟨pending.path, pending.framed, signer pending.path pending.framed⟩])
  | unsigned {signer : FrameSigner} (hphase : ∀ pending, phase ≠ .awaiting pending) :
      Performs phase (.approveAndSign signer) .idle (.approved (.error .invalidState) [])
  | rejected : Performs phase .rejectReview .idle .wiped
  | reset : Performs phase .reset .idle .wiped

/-- Approving a pending review signs its frame with its path and leaves a new session. -/
theorem approveAndSign_awaiting (pending : PendingReview) (signer : FrameSigner) :
    (Phase.awaiting pending).represent.approveAndSign signer = {
      session := .new
      result := okOr .internalFailure (signer pending.path pending.framed)
      signings := [⟨pending.path, pending.framed, signer pending.path pending.framed⟩]
    } := by
  have hframe : getRange (Phase.awaiting pending).represent.buffer.toList 0
      (Phase.awaiting pending).represent.bufferedLen = some pending.framed :=
    (Phase.awaiting pending).getRange_represent
  rw [SigningSession.approveAndSign, if_neg (by simp), (Phase.awaiting pending).wipe_represent]
  simp only [hframe]
  rfl

/-- Approving signs the frame of a pending review, and nothing in any other phase. -/
theorem approveAndSign_represent (phase : Phase) (signer : FrameSigner) :
    (phase.represent.approveAndSign signer).session = .new ∧
      Performs phase (.approveAndSign signer) .idle
        (.approved (phase.represent.approveAndSign signer).result
          (phase.represent.approveAndSign signer).signings) := by
  cases phase with
  | idle => exact ⟨wipe_new, .unsigned (by simp)⟩
  | collecting collection =>
    exact ⟨(Phase.collecting collection).wipe_represent, .unsigned (by simp)⟩
  | awaiting pending =>
    rw [approveAndSign_awaiting]
    exact ⟨rfl, .signed rfl⟩

/-- Performing an operation on the session of a phase leaves the session of a phase. -/
theorem perform_represent (phase : Phase) (operation : Operation) :
    ∃ next : Phase, (perform phase.represent operation).1 = next.represent ∧
      Performs phase operation next (perform phase.represent operation).2 := by
  cases operation with
  | dispatch command deriver policy =>
    obtain ⟨next, hnext, hdispatches⟩ := dispatch_represent phase command deriver policy
    exact ⟨next, hnext, .dispatched hdispatches⟩
  | approveAndSign signer =>
    obtain ⟨hsession, hperforms⟩ := approveAndSign_represent phase signer
    exact ⟨.idle, hsession, hperforms⟩
  | rejectReview => exact ⟨.idle, phase.wipe_represent, .rejected⟩
  | reset => exact ⟨.idle, phase.wipe_represent, .reset⟩

/-- A session in the normal form of some phase. -/
def RepresentsPhase (session : SigningSession) : Prop :=
  ∃ phase : Phase, session = phase.represent

theorem representsPhase_step (session : SigningSession) (operation : Operation)
    (hrepresents : RepresentsPhase session) :
    RepresentsPhase (sessionMachine.step session operation).1 := by
  obtain ⟨phase, rfl⟩ := hrepresents
  obtain ⟨next, hnext, -⟩ := perform_represent phase operation
  exact ⟨next, hnext⟩

/-- The session at the end of a run represents a phase. -/
theorem representsPhase_run (operations : List Operation) :
    RepresentsPhase (sessionMachine.run .new operations) :=
  Machine.run_invariant RepresentsPhase representsPhase_step ⟨.idle, rfl⟩ operations

end SunriseEdgeLedger.Core
