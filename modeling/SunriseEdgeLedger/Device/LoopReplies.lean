import SunriseEdgeLedger.Device.LoopSteps

/-!
# What the replies of the loop say

The host learns the choice of the user and the failures of the device from the status word alone.
Here the status words are shown to mean what they say, and data to be sent only with success: the
configuration, a key that was approved, or a signature that was approved.  The popup in front of the
user tells the same as the status word that the host is sent.
-/

namespace SunriseEdgeLedger.Device

open SunriseEdgeLedger.Foundation SunriseEdgeLedger.Core

/-- The user was asked and declined. -/
def Declined (events : List DeviceEvent) : Prop :=
  (∃ address, .showedAddress address false ∈ events) ∨
    ∃ lines, .showedTransaction lines false ∈ events

/-- A call of the key derivation or of the signer gave no answer. -/
def CallFailed (events : List DeviceEvent) : Prop :=
  (∃ path, .derived ⟨path, none⟩ ∈ events) ∨ ∃ path frame, .signed ⟨path, frame, none⟩ ∈ events

/-- The data that may be sent: the configuration, a key that was derived, shown and approved, or a
signature on the transfer that was shown and approved. -/
inductive MayDisclose (events : List DeviceEvent) : Bytes → Prop where
  | configuration : MayDisclose events configurationResponse.toList
  | publicKey {path : DerivationPath} {publicKey : ByteArrayN 32}
      (hderived : .derived ⟨path, some publicKey⟩ ∈ events)
      (hshowed : .showedAddress (addressText publicKey) true ∈ events) :
      MayDisclose events publicKey.toList
  | signature {path : DerivationPath} {transfer : Transfer} {signature : ByteArrayN 64}
      (hderived : .derived ⟨path, some transfer.sender.bytes⟩ ∈ events)
      (hshowed : .showedTransaction (transferLines transfer) true ∈ events)
      (hsigned : .signed ⟨path, transfer.bytes, some signature⟩ ∈ events) :
      MayDisclose events signature.toList

/-- A reply means what it says. -/
structure RepliesTruthfully (events : List DeviceEvent) (data : Bytes) (status : UInt16) : Prop where
  declined_iff : status = 0x6985 ↔ Declined events
  failed_iff : status = 0x6F00 ↔ CallFailed events
  data_of_success : data ≠ [] → status = 0x9000 ∧ MayDisclose events data
  address_iff : ∀ success, .showedStatus .address success ∈ events ↔
    (∃ address approved, .showedAddress address approved ∈ events) ∧
      (success = true ↔ status = 0x9000)
  transaction_iff : ∀ success, .showedStatus .transaction success ∈ events ↔
    (∃ lines approved, .showedTransaction lines approved ∈ events) ∧
      (success = true ↔ status = 0x9000)

/-- A reply without a screen. -/
theorem repliesTruthfully_plain {derivations : List Derivation} {data : Bytes} {status : UInt16}
    {succeeded : Bool} (hdeclined : status ≠ 0x6985)
    (hfailed : status = 0x6F00 ↔ ∃ derivation ∈ derivations, derivation.publicKey = none)
    (hdata : data ≠ [] → status = 0x9000 ∧ data = configurationResponse.toList) :
    RepliesTruthfully (derivations.map .derived ++ [.sent data status succeeded]) data status where
  declined_iff := by simp [Declined, hdeclined]
  failed_iff := by
    rw [hfailed]
    constructor
    · rintro ⟨⟨path, publicKey⟩, hmem, rfl⟩
      exact .inl ⟨path, List.mem_append_left _ (List.mem_map_of_mem hmem)⟩
    · simp only [CallFailed, List.mem_append, List.mem_map, DeviceEvent.derived.injEq,
        exists_eq_right, List.mem_singleton, reduceCtorEq, or_false, and_false, exists_false]
      rintro ⟨path, hmem⟩
      exact ⟨_, hmem, rfl⟩
  data_of_success hne := by
    obtain ⟨hstatus, rfl⟩ := hdata hne
    exact ⟨hstatus, .configuration⟩
  address_iff := by simp
  transaction_iff := by simp

theorem code_eq_iff {status status' : StatusWord} : status.code = status'.code ↔ status = status' := by
  constructor
  · cases status <;> cases status' <;> first | exact fun _ ↦ rfl | exact fun h ↦ absurd h (by decide)
  · exact congrArg StatusWord.code

variable [Target]

/-- Every iteration after a decoded header replies once, and means it. -/
theorem Iterates.repliesTruthfully {received : Received} {phase next : Phase}
    {events : List DeviceEvent} (hiterates : Iterates received phase next events)
    {header : DeviceApduHeader} (hheader : received.header = .ok header) :
    ∃ data status, Answers events data status received.sends ∧
      RepliesTruthfully events data status := by
  have hplain : ∀ {data status}, status ≠ 0x6985 → status ≠ 0x6F00 →
      (data ≠ [] → status = 0x9000 ∧ data = configurationResponse.toList) →
      ∃ data' status', Answers [.sent data status received.sends] data' status' received.sends ∧
        RepliesTruthfully [.sent data status received.sends] data' status' :=
    fun hdeclined hfailed hdata ↦ ⟨_, _, answers_reply [] _ _ _,
      @repliesTruthfully_plain [] _ _ _ hdeclined (by simp [hfailed]) hdata⟩
  cases hiterates with
  | undecoded herror =>
    rw [herror] at hheader
    cases hheader
  | @refused _ _ status _ hstatus hunfit =>
    refine hplain ?_ ?_ fun hne ↦ absurd rfl hne
    · exact fun hcode ↦ hstatus.2.1 (code_eq_iff.mp hcode)
    · exact fun hcode ↦ hstatus.2.2 (code_eq_iff.mp hcode)
  | configured _ hins => exact hplain (by decide) (by decide) fun _ ↦ ⟨rfl, rfl⟩
  | reset _ hins => exact hplain (by decide) (by decide) fun hne ↦ absurd rfl hne
  | opened _ hsign hopens => exact hplain (by decide) (by decide) fun hne ↦ absurd rfl hne
  | extended _ hsign hextends => exact hplain (by decide) (by decide) fun hne ↦ absurd rfl hne
  | underivable _ hverifies hkey =>
    exact ⟨_, _, answers_reply [_] _ _ _, @repliesTruthfully_plain [_] _ _ _ (by decide)
      (by simp) fun hne ↦ absurd rfl hne⟩
  | unchecked _ hsign hcompletes hcheck =>
    refine ⟨_, _, answers_reply _ _ _ _, repliesTruthfully_plain ?_ ?_ fun hne ↦ absurd rfl hne⟩
    · rcases oneShotCheck_eq_error hcheck with rfl | rfl | ⟨rfl, -⟩ <;> decide
    · rw [← oneShotCheck_internalFailure_iff devnetAssetTransferPolicy, hcheck, Except.error.injEq]
      exact @code_eq_iff _ .internalFailure
  | keyDeclined _ hverifies hkey happroves =>
    refine ⟨[], 0x6985, ⟨[_, _], [_, _], rfl, by simp [DeviceEvent.isSent]⟩, ?_⟩
    constructor <;> simp [Declined, CallFailed]
  | @keyApproved _ path publicKey _ hverifies hkey happroves =>
    refine ⟨publicKey.toList, 0x9000, ⟨[_, _], [_, _], rfl, by simp [DeviceEvent.isSent]⟩, ?_⟩
    constructor
    · simp [Declined]
    · simp [CallFailed]
    · exact fun _ ↦ ⟨rfl, @MayDisclose.publicKey _ path _ (by simp) (by simp)⟩
    · simp
    · simp
  | declined _ hsign hcompletes hframed hkey happroves =>
    refine ⟨[], 0x6985, ⟨[_, _], [_, _], rfl, by simp [DeviceEvent.isSent]⟩, ?_⟩
    constructor <;> simp [Declined, CallFailed]
  | unsigned _ hsign hcompletes hframed hkey happroves hsigner =>
    refine ⟨[], 0x6F00, ⟨[_, _, _], [_, _], rfl, by simp [DeviceEvent.isSent]⟩, ?_⟩
    constructor <;> simp [Declined, CallFailed]
  | @signed collection _ transfer signature _ hsign hcompletes hframed hkey happroves hsigner =>
    refine ⟨signature.toList, 0x9000, ⟨[_, _, _], [_, _], rfl, by simp [DeviceEvent.isSent]⟩, ?_⟩
    constructor
    · simp [Declined]
    · simp [CallFailed]
    · exact fun _ ↦ ⟨rfl,
        @MayDisclose.signature _ collection.path transfer _ (by simp) (by simp) (by simp)⟩
    · simp
    · simp

/-- After every run, whatever is received next: a command without a decodable header is answered
with the status word of the decoder and nothing else happens, and every other command is answered by
exactly one reply that means what it says.  The reply is `0x6985` exactly if the user was asked and
declined, and `0x6F00` exactly if the key derivation or the signer gave no answer.  Data is sent
with `0x9000` only: the configuration, an approved key, or a signature on the transfer that was
shown and approved.  A popup is shown exactly after a review, and tells success exactly if `0x9000`
is sent. -/
theorem normalMain_replies (inputs : List Received) (received : Received) :
    (∃ reply, received.header = .error reply ∧
        (normalMain.step (normalMain.run (.running .new) inputs) received).2 =
          [.sent [] reply received.sends]) ∨
      ∃ header data status, received.header = .ok header ∧
        Answers (normalMain.step (normalMain.run (.running .new) inputs) received).2 data status
          received.sends ∧
        RepliesTruthfully (normalMain.step (normalMain.run (.running .new) inputs) received).2 data
          status := by
  obtain ⟨phase, hphase, hhead⟩ := runsAtHead_run inputs
  obtain ⟨next, events, hstep, -, hiterates⟩ := step_normalMain hhead received
  rw [hphase, hstep]
  cases hheader : received.header with
  | error reply =>
    refine .inl ⟨reply, rfl, ?_⟩
    cases hiterates with
    | undecoded herror =>
      rw [hheader] at herror
      rw [Except.error.inj herror]
    | _ => simp_all
  | ok header =>
    obtain ⟨data, status, hanswers, htruthful⟩ := hiterates.repliesTruthfully hheader
    exact .inr ⟨header, data, status, rfl, hanswers, htruthful⟩

end SunriseEdgeLedger.Device
