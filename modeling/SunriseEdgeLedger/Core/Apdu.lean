import SunriseEdgeLedger.Core.Path
import SunriseEdgeLedger.Core.Review

/-!
# The command dispatcher

The signing session and the functions that change it: `dispatch` with its handlers, the approval
and the rejection of a pending review, and the reset.  Key derivation and signing are callbacks; a
callback is a function here, and every function that may call one also returns the calls it made.

A handler of the code leaves early by wiping the session and replying with a status word.  Such a
`Refusal` is the error of an `Except` computation here; it records the session to be wiped, which
may already have changed when the handler gives up.
-/

namespace SunriseEdgeLedger.Core

open Foundation

/-- `CLA` -/
def cla : UInt8 := 0xE0

/-- `ins::GET_CONFIGURATION` -/
def insGetConfiguration : UInt8 := 0x00

/-- `ins::VERIFY_PUBLIC_KEY` -/
def insVerifyPublicKey : UInt8 := 0x02

/-- `ins::SIGN_TRANSACTION` -/
def insSignTransaction : UInt8 := 0x04

/-- `ins::RESET_SIGNING` -/
def insResetSigning : UInt8 := 0x06

/-- `sign_p1::FIRST` -/
def signP1First : UInt8 := 0x00

/-- `sign_p1::CONTINUE` -/
def signP1Continue : UInt8 := 0x01

/-- `sign_p1::LAST` -/
def signP1Last : UInt8 := 0x02

/-- `MAX_FRAME_LEN` -/
def maxFrameLen : ℕ := 4096

/-- `MAX_TRANSACTION_PAYLOAD_LEN` -/
def maxTransactionPayloadLen : ℕ := 3072

/-- `MAX_CHUNK_LEN` -/
def maxChunkLen : ℕ := 230

/-- `FIRST_MIN_DATA_LEN` -/
def firstMinDataLen : ℕ := 4 + pathEncodedLen + 1

/-- `FIRST_MAX_DATA_LEN` -/
def firstMaxDataLen : ℕ := 4 + pathEncodedLen + maxChunkLen

/-- The status words of the application. -/
inductive StatusWord where
  | success
  | userRejected
  | invalidState
  | invalidData
  | profileBoundExceeded
  | invalidP1P2
  | unsupportedIns
  | unsupportedCla
  | internalFailure
deriving DecidableEq, Repr

/-- The two-byte value. -/
def StatusWord.code : StatusWord → UInt16
  | .success => 0x9000
  | .userRejected => 0x6985
  | .invalidState => 0x6986
  | .invalidData => 0x6A80
  | .profileBoundExceeded => 0x6A84
  | .invalidP1P2 => 0x6A86
  | .unsupportedIns => 0x6D00
  | .unsupportedCla => 0x6E00
  | .internalFailure => 0x6F00

/-- One inbound command. -/
structure ApduCommand where
  cla : UInt8
  ins : UInt8
  p1 : UInt8
  p2 : UInt8
  data : Bytes
deriving DecidableEq

/-- The response data of an immediate reply. -/
inductive ImmediateResponse where
  | empty
  | configuration (bytes : ByteArrayN 6)
deriving DecidableEq

/-- An immediate reply. -/
structure ApduReply where
  status : StatusWord
  response : ImmediateResponse
deriving DecidableEq

/-- The result of dispatching one command. -/
inductive DispatchOutcome where
  | reply (reply : ApduReply)
  | reviewPublicKey (path : DerivationPath) (publicKey : ByteArrayN 32)
  | reviewTransaction (review : ClearSigningReview)
deriving DecidableEq

/-- `Reply(ApduReply::success(..))` -/
def DispatchOutcome.success (response : ImmediateResponse) : DispatchOutcome :=
  .reply { status := .success, response }

/-- `Reply(ApduReply::failure(..))` -/
def DispatchOutcome.failure (status : StatusWord) : DispatchOutcome :=
  .reply { status, response := .empty }

/-- The answers of the key derivation during one command. -/
abbrev PublicKeyDeriver := DerivationPath → Option (ByteArrayN 32)

/-- The answers of the signer during one approval. -/
abbrev FrameSigner := DerivationPath → Bytes → Option (ByteArrayN 64)

/-- A call of the key derivation with its answer. -/
structure Derivation where
  path : DerivationPath
  publicKey : Option (ByteArrayN 32)
deriving DecidableEq

/-- A call of the signer with its answer. -/
structure Signing where
  path : DerivationPath
  frame : Bytes
  signature : Option (ByteArrayN 64)
deriving DecidableEq

/-! ## The session -/

inductive SessionState where
  | idle
  | collecting
  | awaitingApproval
deriving DecidableEq, Repr

/-- The state of `sign transaction`: a bounded frame buffer and the path of the first command. -/
structure SigningSession where
  state : SessionState
  buffer : ByteArrayN maxFrameLen
  bufferedLen : ℕ
  declaredTotal : UInt32
  receivedLen : UInt32
  path : Option DerivationPath
deriving DecidableEq

/-- An early return of a handler: the session at that point, the status to reply with, and the
derivations made before. -/
structure Refusal where
  session : SigningSession
  status : StatusWord
  derivations : List Derivation := []

namespace SigningSession

/-- A new, idle session. -/
def new : SigningSession where
  state := .idle
  buffer := padTo maxFrameLen 0 []
  bufferedLen := 0
  declaredTotal := 0
  receivedLen := 0
  path := none

def isIdle (session : SigningSession) : Bool := session.state == .idle

/-- The collected frame, while a review is pending. -/
def pendingFrame (session : SigningSession) : Option Bytes :=
  if session.state ≠ .awaitingApproval then none
  else getRange session.buffer.toList 0 session.bufferedLen

/-- Zero the used part of the buffer and clear everything else. -/
def wipe (session : SigningSession) : SigningSession where
  state := .idle
  buffer :=
    (overwrite session.buffer 0 (List.replicate session.bufferedLen 0)).getD session.buffer
  bufferedLen := 0
  declaredTotal := 0
  receivedLen := 0
  path := none

/-- `reset signing`. -/
def reset (session : SigningSession) : SigningSession := session.wipe

/-- Reject a pending review. -/
def rejectReview (session : SigningSession) : SigningSession := session.wipe

/-- Append a chunk behind what is buffered. -/
def appendChunk [Target] (session : SigningSession) (chunk : Bytes) :
    Except Refusal SigningSession := do
  let chunkLen ← okOr ⟨session, .internalFailure, []⟩ (u32TryFrom chunk.length)
  let newReceived ← okOr ⟨session, .internalFailure, []⟩
    (u32CheckedAdd session.receivedLen chunkLen)
  ensure (newReceived ≤ session.declaredTotal) ⟨session, .profileBoundExceeded, []⟩
  let newLen ← okOr ⟨session, .internalFailure, []⟩ (checkedAdd session.bufferedLen chunk.length)
  let buffer ← okOr ⟨session, .internalFailure, []⟩
    (overwrite session.buffer session.bufferedLen chunk)
  .ok { session with buffer, bufferedLen := newLen, receivedLen := newReceived }

/-- What an approval leaves behind. -/
structure Approval where
  session : SigningSession
  result : Except StatusWord (ByteArrayN 64)
  signings : List Signing

/-- Sign the pending frame with the captured path, and wipe the session in any case. -/
def approveAndSign (session : SigningSession) (signer : FrameSigner) : Approval :=
  if session.state ≠ .awaitingApproval then ⟨session.wipe, .error .invalidState, []⟩
  else
    match session.path with
    | none => ⟨session.wipe, .error .internalFailure, []⟩
    | some path =>
      match getRange session.buffer.toList 0 session.bufferedLen with
      | none => ⟨session.wipe, .error .internalFailure, []⟩
      | some frame =>
        let signature := signer path frame
        ⟨session.wipe, okOr .internalFailure signature, [⟨path, frame, signature⟩]⟩

end SigningSession

/-! ## Handlers -/

/-- What a handler leaves behind. -/
structure Dispatched where
  session : SigningSession
  outcome : DispatchOutcome
  derivations : List Derivation := []

/-- An early return wipes the session. -/
def Refusal.dispatched (refusal : Refusal) : Dispatched where
  session := refusal.session.wipe
  outcome := .failure refusal.status
  derivations := refusal.derivations

def settle : Except Refusal Dispatched → Dispatched
  | .ok dispatched => dispatched
  | .error refusal => refusal.dispatched

/-- `CONFIGURATION_PROFILE` -/
def configurationProfile : UInt16 := 1

/-- `CONFIGURATION_MAJOR` -/
def configurationMajor : UInt8 := 0

/-- `CONFIGURATION_MINOR` -/
def configurationMinor : UInt8 := 1

/-- `CONFIGURATION_PATCH` -/
def configurationPatch : UInt8 := 0

/-- `CONFIGURATION_FLAGS` -/
def configurationFlags : UInt8 := 0

def configurationResponse : ByteArrayN 6 :=
  ⟨u16ToBeBytes configurationProfile ++
    [configurationMajor, configurationMinor, configurationPatch, configurationFlags], rfl⟩

def handleGetConfiguration (p1 p2 : UInt8) (data : Bytes) : DispatchOutcome :=
  if p1 ≠ 0x00 ∨ p2 ≠ 0x00 then .failure .invalidP1P2
  else if data ≠ [] then .failure .invalidData
  else .success (.configuration configurationResponse)

def handleVerifyPublicKey (p1 p2 : UInt8) (data : Bytes) (deriver : PublicKeyDeriver) :
    DispatchOutcome × List Derivation :=
  if p1 ≠ 0x01 ∨ p2 ≠ 0x00 then (.failure .invalidP1P2, [])
  else
    match decodePath data with
    | .error _ => (.failure .invalidData, [])
    | .ok path =>
      match deriver path with
      | none => (.failure .internalFailure, [⟨path, none⟩])
      | some publicKey => (.reviewPublicKey path publicKey, [⟨path, some publicKey⟩])

def handleResetSigning (session : SigningSession) (p1 p2 : UInt8) (data : Bytes) : Dispatched :=
  if p1 ≠ 0x00 ∨ p2 ≠ 0x00 then { session, outcome := .failure .invalidP1P2 }
  else if data ≠ [] then { session, outcome := .failure .invalidData }
  else { session := session.reset, outcome := .success .empty }

variable [Target]

def handleFirst (session : SigningSession) (data : Bytes) : Except Refusal Dispatched := do
  ensure session.isIdle ⟨session, .invalidState, []⟩
  ensure (firstMinDataLen ≤ data.length) ⟨session, .invalidData, []⟩
  ensure (data.length ≤ firstMaxDataLen) ⟨session, .profileBoundExceeded, []⟩
  let totalLengthBytes ← okOr ⟨session, .invalidData, []⟩ (getRange data 0 4)
  let totalLengthArray ← okOr ⟨session, .invalidData, []⟩ (arrayOf? 4 totalLengthBytes)
  let totalLength := u32FromBeBytes totalLengthArray
  let totalLengthUsize ← okOr ⟨session, .profileBoundExceeded, []⟩ (usizeTryFrom totalLength)
  ensure (totalLength ≠ 0 ∧ totalLengthUsize ≤ maxFrameLen) ⟨session, .profileBoundExceeded, []⟩
  let pathBytes ← okOr ⟨session, .invalidData, []⟩ (getRange data 4 (4 + pathEncodedLen))
  let path ← (decodePath pathBytes).mapError fun _ ↦ ⟨session, .invalidData, []⟩
  let chunk ← okOr ⟨session, .invalidData, []⟩ (getRange data (4 + pathEncodedLen) data.length)
  -- Only `LAST` may complete the declared total.
  ensure (totalLengthUsize ≠ chunk.length) ⟨session, .invalidData, []⟩
  let collecting :=
    { session with declaredTotal := totalLength, path := some path, state := .collecting }
  let session ← collecting.appendChunk chunk
  .ok { session, outcome := .success .empty }

def handleContinue (session : SigningSession) (data : Bytes) : Except Refusal Dispatched := do
  ensure (session.state = .collecting) ⟨session, .invalidState, []⟩
  ensure (data ≠ []) ⟨session, .invalidData, []⟩
  ensure (data.length ≤ maxChunkLen) ⟨session, .profileBoundExceeded, []⟩
  let remaining ← okOr ⟨session, .internalFailure, []⟩
    (u32CheckedSub session.declaredTotal session.receivedLen)
  ensure (usizeTryFrom remaining ≠ some data.length) ⟨session, .invalidData, []⟩
  let session ← session.appendChunk data
  .ok { session, outcome := .success .empty }

def handleLast (session : SigningSession) (data : Bytes) (deriver : PublicKeyDeriver)
    (policy : ClearSigningPolicy) : Except Refusal Dispatched := do
  ensure (session.state = .collecting) ⟨session, .invalidState, []⟩
  ensure (data ≠ []) ⟨session, .invalidData, []⟩
  ensure (data.length ≤ maxChunkLen) ⟨session, .profileBoundExceeded, []⟩
  let session ← session.appendChunk data
  ensure (session.receivedLen = session.declaredTotal) ⟨session, .invalidData, []⟩
  let framed ← okOr ⟨session, .internalFailure, []⟩
    (getRange session.buffer.toList 0 session.bufferedLen)
  let frame ← (decodeSignatureFrame framed).mapError fun _ ↦ ⟨session, .invalidData, []⟩
  ensure (frame.payload.length ≤ maxTransactionPayloadLen) ⟨session, .profileBoundExceeded, []⟩
  let transaction ←
    (decodeTransactionSignable frame.payload).mapError fun _ ↦ ⟨session, .invalidData, []⟩
  let path ← okOr ⟨session, .internalFailure, []⟩ session.path
  let derivations := [⟨path, deriver path⟩]
  let derivedPublicKey ← okOr ⟨session, .internalFailure, derivations⟩ (deriver path)
  ensure (transaction.sender.bytes = derivedPublicKey) ⟨session, .invalidData, derivations⟩
  let review ← (buildReview frame transaction policy).mapError
    fun _ ↦ ⟨session, .invalidData, derivations⟩
  .ok {
    session := { session with state := .awaitingApproval }
    outcome := .reviewTransaction review
    derivations
  }

def handleSignTransaction (session : SigningSession) (p1 p2 : UInt8) (data : Bytes)
    (deriver : PublicKeyDeriver) (policy : ClearSigningPolicy) : Dispatched :=
  settle <|
    if p2 ≠ 0x00 then .error ⟨session, .invalidP1P2, []⟩
    else if p1 = signP1First then handleFirst session data
    else if p1 = signP1Continue then handleContinue session data
    else if p1 = signP1Last then handleLast session data deriver policy
    else .error ⟨session, .invalidP1P2, []⟩

omit [Target] in
/-- A known command that the session does not allow now. -/
def conflictsWithSession (session : SigningSession) (ins : UInt8) : Bool :=
  if ins = insGetConfiguration ∨ ins = insVerifyPublicKey then !session.isIdle
  else if ins = insSignTransaction then session.state == .awaitingApproval
  else false

omit [Target] in
/-- The outcomes after which `dispatch` wipes the session once more. -/
def DispatchOutcome.isFailure : DispatchOutcome → Bool
  | .reply answer => answer.status ∈ [.userRejected, .invalidState, .invalidData,
      .profileBoundExceeded, .invalidP1P2, .unsupportedIns, .unsupportedCla, .internalFailure]
  | _ => false

/-- The handler of a command that is not refused outright. -/
def handle (session : SigningSession) (command : ApduCommand) (deriver : PublicKeyDeriver)
    (policy : ClearSigningPolicy) : Dispatched :=
  if command.ins = insGetConfiguration then
    { session, outcome := handleGetConfiguration command.p1 command.p2 command.data }
  else if command.ins = insVerifyPublicKey then
    let (outcome, derivations) :=
      handleVerifyPublicKey command.p1 command.p2 command.data deriver
    { session, outcome, derivations }
  else if command.ins = insSignTransaction then
    handleSignTransaction session command.p1 command.p2 command.data deriver policy
  else if command.ins = insResetSigning then
    handleResetSigning session command.p1 command.p2 command.data
  else { session, outcome := .failure .unsupportedIns }

/-- Dispatch one command against the session. -/
def dispatch (session : SigningSession) (command : ApduCommand) (deriver : PublicKeyDeriver)
    (policy : ClearSigningPolicy) : Dispatched :=
  if command.cla ≠ cla then Refusal.dispatched ⟨session, .unsupportedCla, []⟩
  else if conflictsWithSession session command.ins then
    Refusal.dispatched ⟨session, .invalidState, []⟩
  else
    let handled := handle session command deriver policy
    if handled.outcome.isFailure then { handled with session := handled.session.wipe }
    else handled

end SunriseEdgeLedger.Core
