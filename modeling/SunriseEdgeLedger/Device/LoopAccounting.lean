import SunriseEdgeLedger.Device.LoopSteps

/-!
# What is signed, against what was received

Over a whole run, the frames that are signed are accounted for by the data that was received.  No
byte is signed that was not received, none is signed for two signatures, and the order is kept.
Every signature is paid for with six commands of its own.
-/

namespace SunriseEdgeLedger.Device

open SunriseEdgeLedger.Foundation SunriseEdgeLedger.Core

/-- The frame that an event signs. -/
def DeviceEvent.signedFrame? : DeviceEvent → Option Bytes
  | .signed signing => some signing.frame
  | _ => none

/-- The frames that are signed among some events. -/
def signedFrames (events : List DeviceEvent) : List Bytes :=
  events.filterMap DeviceEvent.signedFrame?

theorem signedFrames_derived (derivations : List Derivation) (data : Bytes) (status : UInt16)
    (succeeded : Bool) :
    signedFrames (derivations.map .derived ++ [.sent data status succeeded]) = [] := by
  simp [signedFrames, DeviceEvent.signedFrame?]

/-- The bytes in the buffer between two iterations. -/
def LoopState.buffered : LoopState → Bytes
  | .running session => (getRange session.buffer.toList 0 session.bufferedLen).getD []
  | .ended => []

/-- At least so many commands have filled the buffer. -/
def LoopState.saved (state : LoopState) : ℕ := (state.buffered.length + 229) / 230

variable [Target]

theorem buffered_represent (phase : Phase) :
    LoopState.buffered (.running phase.represent) = phase.content := by
  rw [LoopState.buffered, phase.getRange_represent, Option.getD_some]

/-- An iteration signs nothing and keeps a part of what it has, or signs all that it has. -/
inductive Accounts (received : Received) (phase next : Phase) (events : List DeviceEvent) :
    Prop where
  | kept (hsigned : signedFrames events = [])
      (hcontent : next.content.Sublist (phase.content ++ received.data))
      (hlength : next.content.length ≤ phase.content.length + maxChunkLen)
  | spent (hsigned : signedFrames events = [phase.content ++ received.data]) (hnext : next = .idle)
      (hlength : 991 ≤ phase.content.length)

theorem accounts_idle {received : Received} {phase : Phase} {events : List DeviceEvent}
    (hsigned : signedFrames events = []) : Accounts received phase .idle events :=
  .kept hsigned (List.nil_sublist _) (Nat.zero_le _)

theorem accounts_kept {received : Received} {phase next : Phase} {events : List DeviceEvent}
    (hsigned : signedFrames events = [])
    (hcontent : next.content.Sublist (phase.content ++ received.data))
    (hlength : next.content.length ≤ phase.content.length + maxChunkLen) :
    Accounts received phase (received.kept next) events := by
  unfold Received.kept
  split_ifs
  · exact .kept hsigned hcontent hlength
  · exact accounts_idle hsigned

/-- A signature is paid for with all that was collected. -/
theorem accounts_spent {received : Received} {collection : Collection} {transfer : Transfer}
    {events : List DeviceEvent} (hsigned : signedFrames events = [transfer.bytes])
    (hcompletes : CompletesCollection collection received.data)
    (hframed : collection.content ++ received.data = transfer.bytes) :
    Accounts received (.collecting collection) .idle events := by
  rw [← hframed] at hsigned
  apply Accounts.spent hsigned rfl
  have hlast : received.data.length ≤ 230 := hcompletes.length_le
  have hlength := congrArg List.length hframed
  rw [List.length_append, transfer.length_bytes] at hlength
  change 991 ≤ collection.content.length
  omega

theorem Iterates.accounts {received : Received} {phase next : Phase} {events : List DeviceEvent}
    (hiterates : Iterates received phase next events) : Accounts received phase next events := by
  cases hiterates with
  | opened hheader hsign hopens =>
    apply accounts_kept rfl
    · exact List.drop_sublist _ _
    · calc
        (Collection.opened hopens).content.length ≤ maxChunkLen :=
          length_firstChunk_le hopens.length_le
        _ ≤ Phase.idle.content.length + maxChunkLen := Nat.le_add_left _ _
  | @extended collection _ hheader hsign hextends =>
    apply accounts_kept rfl
    · exact List.Sublist.refl _
    · calc
        (collection.content ++ received.data).length =
            collection.content.length + received.data.length := List.length_append
        _ ≤ collection.content.length + maxChunkLen := Nat.add_le_add_left hextends.length_le _
  | unchecked hheader hsign hcompletes hcheck =>
    exact accounts_idle (signedFrames_derived _ _ _ _)
  | unsigned hheader hsign hcompletes hframed hkey happroves hsigner =>
    exact accounts_spent rfl hcompletes hframed
  | signed hheader hsign hcompletes hframed hkey happroves hsigner =>
    exact accounts_spent rfl hcompletes hframed
  | _ => exact accounts_idle rfl

section Account

variable {received : Received} {phase next : Phase} {events : List DeviceEvent}
  (haccounts : Accounts received phase next events)

include haccounts

/-- An iteration signs and keeps nothing but what was in the buffer and what it received. -/
theorem Accounts.sublist :
    ((signedFrames events).flatten ++ next.content).Sublist (phase.content ++ received.data) := by
  cases haccounts with
  | kept hsigned hcontent hlength =>
    rw [hsigned]
    exact hcontent
  | spent hsigned hnext hlength =>
    have hempty : next.content = [] := congrArg Phase.content hnext
    rw [hsigned, hempty, List.flatten_singleton, List.append_nil]

/-- An iteration saves up at most one command, and spends six for a signature. -/
theorem Accounts.length_le :
    6 * (signedFrames events).length + (next.content.length + 229) / 230 ≤
      1 + (phase.content.length + 229) / 230 := by
  cases haccounts with
  | kept hsigned hcontent hlength =>
    change _ ≤ _ + 230 at hlength
    rw [hsigned, List.length_nil]
    omega
  | spent hsigned hnext hlength =>
    have hempty : next.content = [] := congrArg Phase.content hnext
    rw [hsigned, hempty, List.length_singleton, List.length_nil]
    omega

end Account

/-! ## Runs -/

/-- The frames that a run signs, in their order. -/
def framesSigned (inputs : List Received) : List Bytes :=
  (normalMain.history (.running .new) inputs).flatMap fun event ↦ signedFrames event.2

/-- Over every run, the signed frames one behind the other make up a part of the received data in
its order: no byte is signed that was not received, and none is signed twice.  At least six commands
are received for every signature. -/
theorem normalMain_signs_received_bytes_once (inputs : List Received) :
    (framesSigned inputs).flatten.Sublist (inputs.flatMap Received.data) ∧
      6 * (framesSigned inputs).length ≤ inputs.length := by
  have hinitial : RunsAtHead (.running .new) := ⟨.idle, rfl, atHead_idle⟩
  constructor
  · have hstep : ∀ state received, RunsAtHead state →
        ((signedFrames (normalMain.step state received).2).flatten ++
          (normalMain.step state received).1.buffered).Sublist
            (state.buffered ++ received.data) := by
      rintro _ received ⟨phase, rfl, hhead⟩
      obtain ⟨next, events, hstep, -, hiterates⟩ := step_normalMain hhead received
      rw [hstep, buffered_represent, buffered_represent]
      exact hiterates.accounts.sublist
    have hrun := Machine.emitted_sublist RunsAtHead LoopState.buffered Received.data
      (fun events ↦ (signedFrames events).flatten) runsAtHead_step hstep hinitial inputs
    have hempty : LoopState.buffered (.running .new) = [] := buffered_represent .idle
    rw [hempty, List.nil_append] at hrun
    rw [framesSigned, List.flatMap_def, List.flatten_flatten, List.map_map]
    exact (List.sublist_append_left _ _).trans hrun
  · have hstep : ∀ state received, RunsAtHead state →
        6 * (signedFrames (normalMain.step state received).2).length +
            (normalMain.step state received).1.saved ≤ true.toNat + state.saved := by
      rintro _ received ⟨phase, rfl, hhead⟩
      obtain ⟨next, events, hstep, -, hiterates⟩ := step_normalMain hhead received
      rw [hstep, LoopState.saved, LoopState.saved, buffered_represent, buffered_represent]
      exact hiterates.accounts.length_le
    have hrun := Machine.spent_le_countP RunsAtHead LoopState.saved
      (fun event ↦ 6 * (signedFrames event.2).length) (fun _ ↦ true) runsAtHead_step hstep hinitial
      inputs
    have hsaved : LoopState.saved (.running .new) = 0 := by
      rw [LoopState.saved, show LoopState.buffered (.running .new) = [] from
        buffered_represent .idle]
      rfl
    rw [hsaved, List.countP_true, Machine.length_history, List.sum_map_mul_left] at hrun
    rw [framesSigned, List.length_flatMap]
    omega

end SunriseEdgeLedger.Device
