import SunriseEdgeLedger.Core.SessionRun
import SunriseEdgeLedger.Device.ReviewUi

/-!
# The event loop of the device

One iteration of the loop receives a command, dispatches it, puts a review before the user where the
outcome asks for one, and replies.  Everything outside of the application is an input of the
iteration: whether the header decodes, the answers of the key derivation and of the signer, the
choice of the user, and whether the reply could be sent.  What the application does to the outside
is its list of events.  An index out of bounds ends the application.
-/

namespace SunriseEdgeLedger.Device

open SunriseEdgeLedger.Foundation SunriseEdgeLedger.Core

/-- The status words that the application sends. -/
inductive AppSW where
  | ok
  | deny
  | invalidState
  | invalidData
  | profileBoundExceeded
  | wrongP1P2
  | insNotSupported
  | claNotSupported
  | internalFailure
deriving DecidableEq, Repr

/-- The two-byte value. -/
def AppSW.code : AppSW → UInt16
  | .ok => 0x9000
  | .deny => 0x6985
  | .invalidState => 0x6986
  | .invalidData => 0x6A80
  | .profileBoundExceeded => 0x6A84
  | .wrongP1P2 => 0x6A86
  | .insNotSupported => 0x6D00
  | .claNotSupported => 0x6E00
  | .internalFailure => 0x6F00

/-- `AppSW::from` on a status word of the dispatcher. -/
def AppSW.ofStatusWord : StatusWord → AppSW
  | .success => .ok
  | .userRejected => .deny
  | .invalidState => .invalidState
  | .invalidData => .invalidData
  | .profileBoundExceeded => .profileBoundExceeded
  | .invalidP1P2 => .wrongP1P2
  | .unsupportedIns => .insNotSupported
  | .unsupportedCla => .claNotSupported
  | .internalFailure => .internalFailure

/-- The wire value of a status word survives the conversion. -/
theorem code_ofStatusWord (status : StatusWord) : (AppSW.ofStatusWord status).code = status.code := by
  cases status <;> rfl

/-- How a screen is not shown: with a status word to reply, or by an index out of bounds. -/
inductive UiFault where
  | status (status : AppSW)
  | panicked
deriving DecidableEq, Repr

/-- Every error of a formatter is reported as an internal failure. -/
def FormatFault.toUiFault : FormatFault → UiFault
  | .refused _ => .status .internalFailure
  | .panicked => .panicked

/-- One displayed line. -/
structure Field where
  name : String
  value : String
deriving DecidableEq, Repr

/-- The address that is shown for a public key. -/
def uiDisplayPublicKey [Target] (publicKey : ByteArrayN 32) : Except UiFault String := do
  let hexAddr ← (BoundedFactStr.tryFromHex publicKey.toList).mapError FormatFault.toUiFault
  hexAddr.asStr.mapError FormatFault.toUiFault

/-- The rounds that append the lines of the facts to those already pushed, of which there may be at
most 32. -/
def pushFields (fields : List Field) : List ReviewFact → Except UiFault (List Field)
  | [] => .ok fields
  | fact :: facts => do
    let value ← fact.value.asStr.mapError FormatFault.toUiFault
    ensure (fields.length < 32) (.status .internalFailure)
    pushFields (fields ++ [{ name := fact.name, value }]) facts

/-- The lines that are shown for a review. -/
def uiDisplayTransaction [Target] (review : ClearSigningReview) : Except UiFault (List Field) := do
  let facts ← (formatReviewFacts review).mapError FormatFault.toUiFault
  pushFields [] facts

/-! ## Inputs and events -/

/-- A decoded command header. -/
structure DeviceApduHeader where
  cla : UInt8
  ins : UInt8
  p1 : UInt8
  p2 : UInt8
deriving DecidableEq

/-- A received command, together with what the outside answers while it is handled: the status word
with which the decoding of the header fails, if it does, the derivation and the signer, the choice
of the user on a screen, and whether the reply is sent. -/
structure Received where
  header : Except UInt16 DeviceApduHeader
  data : Bytes
  deriver : PublicKeyDeriver
  signer : FrameSigner
  approves : Bool
  sends : Bool

/-- The command with a decoded header. -/
def Received.apduCommand (received : Received) (header : DeviceApduHeader) : ApduCommand where
  cla := header.cla
  ins := header.ins
  p1 := header.p1
  p2 := header.p2
  data := received.data

/-- What a review was about. -/
inductive StatusType where
  | address
  | transaction
deriving DecidableEq, Repr

/-- What the application does to the outside. -/
inductive DeviceEvent where
  | derived (derivation : Derivation)
  | showedAddress (address : String) (approved : Bool)
  | showedTransaction (fields : List Field) (approved : Bool)
  | signed (signing : Signing)
  | sent (data : Bytes) (status : UInt16) (succeeded : Bool)
  | showedStatus (statusType : StatusType) (success : Bool)
  | showedHome
deriving DecidableEq

def DeviceEvent.isSent : DeviceEvent → Bool
  | .sent _ _ _ => true
  | _ => false

/-! ## One iteration -/

/-- What an iteration leaves behind. -/
structure Iteration where
  session : SigningSession
  events : List DeviceEvent

/-- The popup after a review, and the home screen behind it. -/
def statusPopup (statusType : StatusType) (success : Bool) : List DeviceEvent :=
  [.showedStatus statusType success, .showedHome]

/-- Reset the session if the reply could not be sent. -/
def resetUnlessSent (received : Received) (session : SigningSession) : SigningSession :=
  if received.sends then session else session.reset

/-- `DispatchOutcome::Reply` -/
def answerReply (received : Received) (session : SigningSession) (answer : ApduReply) : Iteration :=
  if answer.status = .success then
    match answer.response with
    | .empty => {
        session := resetUnlessSent received session
        events := [.sent [] AppSW.ok.code received.sends]
      }
    | .configuration bytes => {
        session := resetUnlessSent received session
        events := [.sent bytes.toList AppSW.ok.code received.sends]
      }
  else {
    session := resetUnlessSent received session
    events := [.sent [] (AppSW.ofStatusWord answer.status).code received.sends]
  }

variable [Target]

/-- `DispatchOutcome::ReviewPublicKey`.  There is no iteration if the application ends. -/
def answerPublicKey (received : Received) (session : SigningSession) (publicKey : ByteArrayN 32) :
    Option Iteration :=
  match uiDisplayPublicKey publicKey with
  | .ok address =>
    if received.approves then some {
      session := resetUnlessSent received session
      events := [.showedAddress address true, .sent publicKey.toList AppSW.ok.code received.sends] ++
        statusPopup .address true
    }
    else some {
      session := session.reset
      events := [.showedAddress address false, .sent [] AppSW.deny.code received.sends] ++
        statusPopup .address false
    }
  | .error (.status status) => some {
      session := session.reset
      events := [.sent [] status.code received.sends] ++ statusPopup .address false
    }
  | .error .panicked => none

/-- `DispatchOutcome::ReviewTransaction`.  There is no iteration if the application ends. -/
def answerTransaction (received : Received) (session : SigningSession)
    (review : ClearSigningReview) : Option Iteration :=
  match uiDisplayTransaction review with
  | .ok fields =>
    if received.approves then
      let approval := session.approveAndSign received.signer
      let signed := .showedTransaction fields true :: approval.signings.map .signed
      match approval.result with
      | .ok signature => some {
          session := resetUnlessSent received approval.session
          events := signed ++ [.sent signature.toList AppSW.ok.code received.sends] ++
            statusPopup .transaction true
        }
      | .error status => some {
          session := approval.session
          events := signed ++ [.sent [] (AppSW.ofStatusWord status).code received.sends] ++
            statusPopup .transaction false
        }
    else some {
      session := session.rejectReview
      events := [.showedTransaction fields false, .sent [] AppSW.deny.code received.sends] ++
        statusPopup .transaction false
    }
  | .error (.status status) => some {
      session := session.rejectReview
      events := [.sent [] status.code received.sends] ++ statusPopup .transaction false
    }
  | .error .panicked => none

/-- One iteration of the loop, if the application does not end in it. -/
def iterate (session : SigningSession) (received : Received) : Option Iteration :=
  match received.header with
  | .error reply => some {
      session := session.reset
      events := [.sent [] reply received.sends]
    }
  | .ok header =>
    let dispatched := dispatch session (received.apduCommand header) received.deriver
      devnetAssetTransferPolicy
    let answered :=
      match dispatched.outcome with
      | .reply answer => some (answerReply received dispatched.session answer)
      | .reviewPublicKey _ publicKey => answerPublicKey received dispatched.session publicKey
      | .reviewTransaction review => answerTransaction received dispatched.session review
    answered.map fun iteration ↦
      { iteration with events := dispatched.derivations.map .derived ++ iteration.events }

omit [Target] in
/-- The application between two iterations. -/
inductive LoopState where
  | running (session : SigningSession)
  | ended
deriving DecidableEq

/-- The event loop as a machine. -/
def normalMain : Machine LoopState Received (List DeviceEvent) where
  step state received :=
    match state with
    | .ended => (.ended, [])
    | .running session =>
      match iterate session received with
      | some iteration => (.running iteration.session, iteration.events)
      | none => (.ended, [])

end SunriseEdgeLedger.Device
