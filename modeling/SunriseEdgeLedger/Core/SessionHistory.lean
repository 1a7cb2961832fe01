import SunriseEdgeLedger.Core.SessionRun

/-!
# What a session state says about its history

The phase of a session is explained by the operations that led to it: a collection by an accepted
`FIRST` and the accepted `CONTINUE`s behind it, a pending review by these and the `LAST` that
returned it, with nothing in between.  Every signature is therefore made over a frame that was
delivered, checked and put before the user immediately before.
-/

namespace SunriseEdgeLedger.Core

open Foundation

/-- A `sign transaction` command with given data that was answered by `Success` and derived
nothing. -/
def Accepted (p1 : UInt8) (event : Event) (data : Bytes) : Prop :=
  ∃ command deriver policy, IsSign command p1 ∧ command.data = data ∧
    event = (.dispatch command deriver policy, .dispatched (.success .empty) [])

variable [Target]

/-- A `LAST` with given data that returned a review of a frame, having derived the sender of the
frame's transaction from the path. -/
def Reviewed (path : DerivationPath) (framed : Bytes) (policy : ClearSigningPolicy)
    (review : ClearSigningReview) (event : Event) (data : Bytes) : Prop :=
  ∃ command deriver frame transaction, IsSign command signP1Last ∧ command.data = data ∧
    decodeSignatureFrame framed = .ok frame ∧
    decodeTransactionSignable frame.payload = .ok transaction ∧
    event = (.dispatch command deriver policy,
      .dispatched (.reviewTransaction review) [⟨path, some transaction.sender.bytes⟩])

omit [Target] in
/-- The events that collect a content: an accepted `FIRST`, and accepted `CONTINUE`s. -/
def Collects (events : List Event) (path : DerivationPath) (total : UInt32) (content : Bytes) :
    Prop :=
  ∃ first continues firstData chunks, events = first :: continues ∧
    Accepted signP1First first firstData ∧
    List.Forall₂ (Accepted signP1Continue) continues chunks ∧
    OpensCollection firstData path ∧ total = UInt32.ofNat (firstTotal firstData) ∧
    content = firstChunk firstData ++ chunks.flatten

/-- The events that deliver a frame and have it reviewed: an accepted `FIRST`, accepted `CONTINUE`s,
and a `LAST` that returned the review.  The frame is what the commands carried, and its path and its
length are those that `FIRST` announced. -/
def Delivers (events : List Event) (path : DerivationPath) (framed : Bytes)
    (policy : ClearSigningPolicy) (review : ClearSigningReview) : Prop :=
  ∃ first continues last firstData chunks lastData, events = first :: continues ++ [last] ∧
    Accepted signP1First first firstData ∧
    List.Forall₂ (Accepted signP1Continue) continues chunks ∧
    Reviewed path framed policy review last lastData ∧
    framed = firstChunk firstData ++ chunks.flatten ++ lastData ∧
    framed.length = firstTotal firstData ∧ 2 ≤ framed.length ∧ framed.length ≤ maxFrameLen ∧
    decodePath (firstPathBytes firstData) = .ok path

/-- How the operations so far explain a phase. -/
def Explains (past : List Event) : Phase → Prop
  | .idle => True
  | .collecting collection => ∃ earlier events, past = earlier ++ events ∧
      Collects events collection.path collection.total collection.content
  | .awaiting pending => ∃ earlier events, past = earlier ++ events ∧
      Delivers events pending.path pending.framed pending.policy pending.review

/-- An accepted `LAST` behind a collection delivers the frame. -/
theorem Collects.delivers {events : List Event} {collection : Collection} {command : ApduCommand}
    {deriver : PublicKeyDeriver} {policy : ClearSigningPolicy} {review : ClearSigningReview}
    (hcollects : Collects events collection.path collection.total collection.content)
    (hsign : IsSign command signP1Last)
    (hcompletes : CompletesCollection collection command.data)
    (hcheck : oneShotCheck collection.path (collection.content ++ command.data) deriver policy =
      .ok review) :
    Delivers (events ++ [(.dispatch command deriver policy,
        .dispatched (.reviewTransaction review) (oneShotDerivations collection.path
          (collection.content ++ command.data) deriver))])
      collection.path (collection.content ++ command.data) policy review := by
  obtain ⟨first, continues, firstData, chunks, rfl, hfirst, hcontinues, hopens, htotal, hcontent⟩ :=
    hcollects
  obtain ⟨frame, transaction, hdecode, hkey, -⟩ := oneShotCheck_eq_ok_iff.mp hcheck
  obtain ⟨hframe, -, htransaction⟩ := decodeBounded_eq_ok_iff.mp hdecode
  have hdata : 0 < command.data.length := List.length_pos_iff.mpr hcompletes.data_ne
  have hlength := hcompletes.length_eq
  refine ⟨first, continues, _, firstData, chunks, command.data, rfl, hfirst, hcontinues,
    ⟨command, deriver, frame, transaction, hsign, rfl, hframe, htransaction, ?_⟩, by rw [hcontent],
    ?_, ?_, hlength.trans_le collection.total_le, hopens.path_eq⟩
  · rw [oneShotDerivations_of_ok hcheck, hkey]
  · rw [hlength, htotal, hopens.toNat_total]
  · have hsome := collection.length_pos
    rw [List.length_append]
    omega

/-- Every operation keeps the phase explained. -/
theorem Performs.explains {past : List Event} {phase next : Phase} {operation : Operation}
    {observation : Observation} (hperforms : Performs phase operation next observation)
    (hexplains : Explains past phase) : Explains (past ++ [(operation, observation)]) next := by
  cases hperforms with
  | signed hphase => trivial
  | unsigned hphase => trivial
  | rejected => trivial
  | reset => trivial
  | @dispatched command deriver policy _ _ _ hdispatches =>
    cases hdispatches with
    | refused hstatus hunfit => trivial
    | configured hins => trivial
    | reset hins => trivial
    | underivable hverify hkey => trivial
    | derived hverify hkey => trivial
    | unchecked hsign hcompletes hcheck => trivial
    | @opened path hsign hopens =>
      exact ⟨past, [_], rfl, _, [], _, [], rfl, ⟨_, _, _, hsign, rfl, rfl⟩, .nil, hopens, rfl,
        by simp [Collection.opened]⟩
    | @extended collection hsign hextends =>
      obtain ⟨earlier, _, rfl, first, continues, firstData, chunks, rfl, hfirst, hcontinues,
        hopens, htotal, hcontent⟩ := hexplains
      refine ⟨earlier, first :: (continues ++ [(.dispatch command deriver policy,
        .dispatched (.success .empty) [])]), by simp, first, _, firstData,
        chunks ++ [command.data], rfl, hfirst, ?_, hopens, htotal, ?_⟩
      · exact List.rel_append hcontinues (.cons ⟨_, _, _, hsign, rfl, rfl⟩ .nil)
      · simp [Collection.extended, hcontent]
    | @reviewed collection review hsign hcompletes hcheck =>
      obtain ⟨earlier, events, rfl, hcollects⟩ := hexplains
      exact ⟨earlier, _, List.append_assoc _ _ _, hcollects.delivers hsign hcompletes hcheck⟩

/-- The session represents a phase that the past explains. -/
def Explained (past : List Event) (session : SigningSession) : Prop :=
  ∃ phase : Phase, session = phase.represent ∧ Explains past phase

/-- Every run explains the session that it ends in. -/
theorem explained_run (operations : List Operation) :
    Explained (sessionMachine.history .new operations) (sessionMachine.run .new operations) := by
  have hstep : ∀ past session operation, Explained past session →
      Explained (past ++ [(operation, (sessionMachine.step session operation).2)])
        (sessionMachine.step session operation).1 := by
    rintro past _ operation ⟨phase, rfl, hexplains⟩
    obtain ⟨next, hnext, hperforms⟩ := perform_represent phase operation
    exact ⟨next, hnext, hperforms.explains hexplains⟩
  have hinitial : Explained [] SigningSession.new := ⟨.idle, rfl, trivial⟩
  exact Machine.history_invariant Explained hstep hinitial operations

/-- What holds of the fields of a session, given the events so far. -/
structure RepresentationInvariant (past : List Event) (session : SigningSession) : Prop where
  bufferedLen_eq : session.bufferedLen = session.receivedLen.toNat
  receivedLen_le : session.receivedLen.toNat ≤ session.declaredTotal.toNat
  declaredTotal_le : session.declaredTotal.toNat ≤ maxFrameLen
  zero_beyond : ∀ index value, session.bufferedLen ≤ index →
    session.buffer.toList[index]? = some value → value = 0
  idle_iff : session.state = .idle ↔ session.path = none
  idle : session.state = .idle →
    session.bufferedLen = 0 ∧ session.declaredTotal = 0 ∧ session.receivedLen = 0
  collecting : session.state = .collecting → session.path.isSome ∧
    1 ≤ session.receivedLen.toNat ∧ session.receivedLen.toNat < session.declaredTotal.toNat
  awaiting : session.state = .awaitingApproval → session.receivedLen = session.declaredTotal ∧
    ∃ path framed policy review earlier events, session.path = some path ∧
      getRange session.buffer.toList 0 session.bufferedLen = some framed ∧
      session.pendingFrame = some framed ∧ Approvable policy framed review ∧
      past = earlier ++ events ∧ Delivers events path framed policy review
  pendingFrame_isSome_iff : session.pendingFrame.isSome ↔ session.state = .awaitingApproval

/-- The representation of a phase satisfies the invariant. -/
theorem representationInvariant_represent {past : List Event} {phase : Phase}
    (hexplains : Explains past phase) : RepresentationInvariant past phase.represent where
  bufferedLen_eq := by rw [phase.bufferedLen_represent, phase.toNat_receivedLen_represent]
  receivedLen_le := by
    rw [phase.toNat_receivedLen_represent, phase.toNat_declaredTotal_represent]
    exact phase.content_length_le_total
  declaredTotal_le := by
    rw [phase.toNat_declaredTotal_represent]
    exact phase.total_le
  zero_beyond index value hindex hvalue := by
    rw [phase.bufferedLen_represent] at hindex
    rw [phase.buffer_represent] at hvalue
    exact getElem?_padTo 0 phase.content_length_le hindex hvalue
  idle_iff := by cases phase <;> simp
  idle hidle := by
    cases phase with
    | idle => exact ⟨rfl, rfl, rfl⟩
    | collecting collection => cases hidle
    | awaiting pending => cases hidle
  collecting hcollecting := by
    rw [phase.toNat_receivedLen_represent, phase.toNat_declaredTotal_represent]
    cases phase with
    | idle => cases hcollecting
    | collecting collection => exact ⟨rfl, collection.length_pos, collection.length_lt⟩
    | awaiting pending => cases hcollecting
  awaiting hawaiting := by
    cases phase with
    | idle => cases hawaiting
    | collecting collection => cases hawaiting
    | awaiting pending =>
      obtain ⟨earlier, events, hpast, hdelivers⟩ := hexplains
      exact ⟨rfl, pending.path, pending.framed, pending.policy, pending.review, earlier, events, rfl,
        Phase.getRange_represent (.awaiting pending),
        Phase.pendingFrame_represent (.awaiting pending), pending.approvable, hpast, hdelivers⟩
  pendingFrame_isSome_iff := by
    rw [phase.pendingFrame_represent]
    split_ifs with hawaiting <;> simp [hawaiting]

/-- The representation invariant holds after every run. -/
theorem representationInvariant_run (operations : List Operation) :
    RepresentationInvariant (sessionMachine.history .new operations)
      (sessionMachine.run .new operations) := by
  obtain ⟨phase, hphase, hexplains⟩ := explained_run operations
  rw [hphase]
  exact representationInvariant_represent hexplains

/-! ## Signatures -/

omit [Target] in
/-- Whether an event is an accepted `FIRST`. -/
def isAcceptedFirst : Event → Bool
  | (.dispatch command _ _, .dispatched outcome _) =>
    command.cla == cla && command.ins == insSignTransaction && command.p1 == signP1First &&
      command.p2 == 0x00 && outcome == .success .empty
  | _ => false

omit [Target] in
/-- How often an event called the signer. -/
def signerCalls : Event → ℕ
  | (_, .approved _ signings) => signings.length
  | _ => 0

/-- Only `FIRST` starts a sequence that may end in a call of the signer, and the call ends it. -/
theorem Performs.signerCalls_add_le {phase next : Phase} {operation : Operation}
    {observation : Observation} (hperforms : Performs phase operation next observation) :
    signerCalls (operation, observation) + (if next.represent.isIdle then 0 else 1) ≤
      (isAcceptedFirst (operation, observation)).toNat +
        (if phase.represent.isIdle then 0 else 1) := by
  have hidle : Phase.idle.represent.isIdle = true := rfl
  have hcollecting : ∀ collection, (Phase.collecting collection).represent.isIdle = false :=
    fun _ ↦ rfl
  have hawaiting : ∀ pending, (Phase.awaiting pending).represent.isIdle = false := fun _ ↦ rfl
  cases hperforms with
  | signed hphase => simp [hphase, signerCalls, hidle, hawaiting]
  | unsigned hphase => simp [signerCalls, hidle]
  | rejected => simp [signerCalls, hidle]
  | reset => simp [signerCalls, hidle]
  | @dispatched command _ _ _ _ _ hdispatches =>
    cases hdispatches with
    | opened hsign hopens =>
      simp [signerCalls, isAcceptedFirst, hsign.cla_eq, hsign.ins_eq, hsign.p1_eq, hsign.p2_eq,
        hidle, hcollecting]
    | extended hsign hextends => simp [signerCalls, hcollecting]
    | reviewed hsign hcompletes hcheck => simp [signerCalls, hcollecting, hawaiting]
    | _ => simp [signerCalls, hidle]

/-- A run calls the signer at most as often as it accepts a `FIRST`, and once more if it starts in
the middle of a sequence. -/
theorem sum_signerCalls_le (before after : List Operation) :
    ((sessionMachine.history (sessionMachine.run .new before) after).map signerCalls).sum ≤
      (sessionMachine.history (sessionMachine.run .new before) after).countP isAcceptedFirst +
        (if (sessionMachine.run .new before).isIdle then 0 else 1) := by
  have hstep : ∀ session operation, RepresentsPhase session →
      signerCalls (operation, (sessionMachine.step session operation).2) +
          (if (sessionMachine.step session operation).1.isIdle then 0 else 1) ≤
        (isAcceptedFirst (operation, (sessionMachine.step session operation).2)).toNat +
          (if session.isIdle then 0 else 1) := by
    rintro _ operation ⟨phase, rfl⟩
    obtain ⟨next, hnext, hperforms⟩ := perform_represent phase operation
    change (perform phase.represent operation).1 = next.represent at hnext
    change signerCalls (operation, (perform phase.represent operation).2) +
      (if (perform phase.represent operation).1.isIdle then 0 else 1) ≤ _
    rw [hnext]
    exact hperforms.signerCalls_add_le
  have hbudget := Machine.spent_le_countP RepresentsPhase
    (fun session ↦ if session.isIdle then 0 else 1) signerCalls isAcceptedFirst
    representsPhase_step hstep (representsPhase_run before) after
  exact (Nat.le_add_right _ _).trans hbudget

/-- Whenever the signer is called, the operations directly before are the delivery of the signed
frame under the path that is signed with: an accepted `FIRST`, accepted `CONTINUE`s and the `LAST`
that derived the sender and returned the review.  The signer is called at most as often as a `FIRST`
is accepted, and without another accepted `FIRST` at most once more. -/
theorem signer_called_only_after_delivery :
    (∀ operations signer, ∀ signing ∈
        ((sessionMachine.run .new operations).approveAndSign signer).signings,
      ∃ earlier events policy review,
        sessionMachine.history .new operations = earlier ++ events ∧
          Delivers events signing.path signing.frame policy review) ∧
      (∀ operations,
        ((sessionMachine.history .new operations).map signerCalls).sum ≤
          (sessionMachine.history .new operations).countP isAcceptedFirst) ∧
      (∀ before after,
        (∀ event ∈ sessionMachine.history (sessionMachine.run .new before) after,
          isAcceptedFirst event = false) →
        ((sessionMachine.history (sessionMachine.run .new before) after).map signerCalls).sum ≤
          1) := by
  refine ⟨?_, ?_, ?_⟩
  · intro operations signer signing hsigning
    obtain ⟨phase, hphase, hexplains⟩ := explained_run operations
    rw [hphase] at hsigning
    obtain ⟨-, hperforms⟩ := approveAndSign_represent phase signer
    generalize (phase.represent.approveAndSign signer).signings = signings at hsigning hperforms
    generalize (phase.represent.approveAndSign signer).result = result at hperforms
    cases hperforms with
    | @signed pending _ hawaiting =>
      obtain rfl := List.mem_singleton.mp hsigning
      subst hawaiting
      obtain ⟨earlier, events, hpast, hdelivers⟩ := hexplains
      exact ⟨earlier, events, pending.policy, pending.review, hpast, hdelivers⟩
    | unsigned hphase => cases hsigning
  · intro operations
    exact sum_signerCalls_le [] operations
  · intro before after hnone
    have hbudget := sum_signerCalls_le before after
    have hunpaid : (sessionMachine.history (sessionMachine.run .new before) after).countP
        isAcceptedFirst = 0 :=
      List.countP_eq_zero.mpr fun event hevent ↦ by simp [hnone event hevent]
    rw [hunpaid, Nat.zero_add] at hbudget
    exact hbudget.trans (by split_ifs <;> decide)

end SunriseEdgeLedger.Core
