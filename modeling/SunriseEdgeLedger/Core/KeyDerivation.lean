import SunriseEdgeLedger.Core.CollectionPhase

/-!
# When a key is derived

A command derives at most one key: that of the path which it asks to verify, or that of the path of
the collection which it completes to a frame that decodes.  A review is never returned without the
answer of that one derivation.
-/

namespace SunriseEdgeLedger.Core

open Foundation

variable [Target]

/-- The command completes the frame that the session is collecting, the frame decodes within the
profile bound, and the path is the one of the `FIRST` that began the collection. -/
structure CompletesFrame (past : List Event) (session : SigningSession) (command : ApduCommand)
    (path : DerivationPath) : Prop where
  sign : IsSign command signP1Last
  collecting : session.state = .collecting
  length_ge : 1 ≤ command.data.length
  length_le : command.data.length ≤ 230
  path_eq : session.path = some path
  exists_frame : ∃ content frame transaction, session.collected = some content ∧
    content.length + command.data.length = session.declaredTotal.toNat ∧
    decodeSignatureFrame (content ++ command.data) = .ok frame ∧
    frame.payload.length ≤ 3072 ∧
    decodeTransactionSignable frame.payload = .ok transaction
  captured : ∃ earlier first continues firstData chunks, past = earlier ++ first :: continues ∧
    Accepted signP1First first firstData ∧
    List.Forall₂ (Accepted signP1Continue) continues chunks ∧
    decodePath ((firstData.drop 4).take 21) = .ok path ∧
    ofBigEndian (firstData.take 4) = session.declaredTotal.toNat ∧
    session.collected = some (firstData.drop 25 ++ chunks.flatten)

section Phases

variable {past : List Event} {phase next : Phase} {command : ApduCommand} {path : DerivationPath}
  {deriver : PublicKeyDeriver} {policy : ClearSigningPolicy} {outcome : DispatchOutcome}
  {derivations : List Derivation}

/-- The condition on the phase that a session represents. -/
theorem completesFrame_represent_iff (hexplains : Explains past phase) :
    CompletesFrame past phase.represent command path ↔
      ∃ collection, phase = .collecting collection ∧ path = collection.path ∧
        IsSign command signP1Last ∧ CompletesCollection collection command.data ∧
        ∃ contents, decodeBounded (collection.content ++ command.data) = .ok contents := by
  constructor
  · intro hframe
    obtain ⟨collection, rfl⟩ := Phase.exists_collecting hframe.collecting
    obtain ⟨content, frame, transaction, hcontent, htotal, hdecode, hpayload, htransaction⟩ :=
      hframe.exists_frame
    rw [Phase.collected_represent] at hcontent
    obtain rfl : collection.content = content := Option.some.inj hcontent
    rw [Phase.toNat_declaredTotal_represent] at htotal
    exact ⟨collection, rfl, (Option.some.inj hframe.path_eq).symm, hframe.sign,
      ⟨List.length_pos_iff.mp hframe.length_ge, hframe.length_le, htotal⟩, (frame, transaction),
      decodeBounded_eq_ok_iff.mpr ⟨hdecode, hpayload, htransaction⟩⟩
  · rintro ⟨collection, rfl, rfl, hsign, hcompletes, ⟨frame, transaction⟩, hdecode⟩
    obtain ⟨hframe, hpayload, htransaction⟩ := decodeBounded_eq_ok_iff.mp hdecode
    obtain ⟨earlier, _, hpast, first, continues, firstData, chunks, rfl, hfirst, hcontinues, hopens,
      htotal, hcontent⟩ := hexplains
    refine ⟨hsign, rfl, List.length_pos_iff.mpr hcompletes.data_ne, hcompletes.length_le, rfl,
      ⟨collection.content, frame, transaction, Phase.collected_represent _, ?_, hframe, hpayload,
        htransaction⟩,
      ⟨earlier, first, continues, firstData, chunks, hpast, hfirst, hcontinues, hopens.path_eq, ?_,
        ?_⟩⟩
    · rw [Phase.toNat_declaredTotal_represent]
      exact hcompletes.complete
    · rw [Phase.toNat_declaredTotal_represent]
      change firstTotal firstData = collection.total.toNat
      rw [htotal, hopens.toNat_total]
    · rw [Phase.collected_represent]
      exact congrArg some hcontent

theorem mem_oneShotDerivations_iff {framed : Bytes} {derivation : Derivation} :
    derivation ∈ oneShotDerivations path framed deriver ↔
      derivation = ⟨path, deriver path⟩ ∧ ∃ contents, decodeBounded framed = .ok contents := by
  unfold oneShotDerivations
  cases decodeBounded framed with
  | ok contents => simp
  | error status => simp

theorem length_oneShotDerivations_le (path : DerivationPath) (framed : Bytes)
    (deriver : PublicKeyDeriver) : (oneShotDerivations path framed deriver).length ≤ 1 := by
  unfold oneShotDerivations
  cases decodeBounded framed with
  | ok contents => exact le_rfl
  | error status => exact Nat.zero_le _

/-- A command derives at most one key. -/
theorem Dispatches.length_derivations_le
    (hdispatches : Dispatches deriver policy command phase next outcome derivations) :
    derivations.length ≤ 1 := by
  cases hdispatches with
  | unchecked => exact length_oneShotDerivations_le _ _ _
  | reviewed => exact length_oneShotDerivations_le _ _ _
  | _ => simp

/-- A request to verify a key derives it. -/
theorem Dispatches.of_verifies
    (hdispatches : Dispatches deriver policy command .idle next outcome derivations)
    (hverifies : VerifiesKey command path) : derivations = [⟨path, deriver path⟩] := by
  have hpath : ∀ {path' : DerivationPath}, VerifiesKey command path' → path' = path :=
    fun hverifies' ↦ Except.ok.inj (hverifies'.path_eq.symm.trans hverifies.path_eq)
  cases hdispatches with
  | refused hstatus hunfit => exact absurd hverifies (hunfit.not_verifies rfl path)
  | configured hins => exact absurd (hverifies.ins_eq.symm.trans hins) (by decide)
  | reset hins => exact absurd (hverifies.ins_eq.symm.trans hins) (by decide)
  | underivable hverifies' hkey =>
    obtain rfl := hpath hverifies'
    rw [hkey]
  | derived hverifies' hkey =>
    obtain rfl := hpath hverifies'
    rw [hkey]
  | opened hsign hopens => exact absurd hsign hverifies.not_isSign

/-- The derivations of a command are those of the path that it verifies or whose frame it
completes. -/
theorem Dispatches.mem_derivations_iff
    (hdispatches : Dispatches deriver policy command phase next outcome derivations)
    (hexplains : Explains past phase) (derivation : Derivation) :
    derivation ∈ derivations ↔ derivation.publicKey = deriver derivation.path ∧
      (VerifiesKey command derivation.path ∧ phase.represent.state = .idle ∨
        CompletesFrame past phase.represent command derivation.path) := by
  rw [completesFrame_represent_iff hexplains]
  constructor
  · intro hderivation
    refine ⟨hdispatches.derivation_eq derivation hderivation, ?_⟩
    cases hdispatches with
    | underivable hverifies hkey =>
      obtain rfl := List.mem_singleton.mp hderivation
      exact .inl ⟨hverifies, rfl⟩
    | derived hverifies hkey =>
      obtain rfl := List.mem_singleton.mp hderivation
      exact .inl ⟨hverifies, rfl⟩
    | unchecked hsign hcompletes hcheck =>
      obtain ⟨rfl, hdecode⟩ := mem_oneShotDerivations_iff.mp hderivation
      exact .inr ⟨_, rfl, rfl, hsign, hcompletes, hdecode⟩
    | reviewed hsign hcompletes hcheck =>
      obtain ⟨rfl, hdecode⟩ := mem_oneShotDerivations_iff.mp hderivation
      exact .inr ⟨_, rfl, rfl, hsign, hcompletes, hdecode⟩
    | _ => cases hderivation
  · rintro ⟨hanswer, hcase⟩
    have hderivation : derivation = ⟨derivation.path, deriver derivation.path⟩ := by rw [← hanswer]
    rcases hcase with ⟨hverifies, hidle⟩ | ⟨collection, rfl, hpath, hsign, hcompletes, hdecode⟩
    · obtain rfl : phase = .idle := Phase.isIdle_represent.mp (by
        simpa [SigningSession.isIdle] using hidle)
      rw [hdispatches.of_verifies hverifies]
      exact List.mem_singleton.mpr hderivation
    · obtain ⟨-, -, rfl⟩ := hdispatches.of_completes hsign hcompletes
      rw [hpath] at hderivation
      exact mem_oneShotDerivations_iff.mpr ⟨hderivation, hdecode⟩

/-- A key is put before the user only if it was derived. -/
theorem Dispatches.of_reviewPublicKey {publicKey : ByteArrayN 32}
    (hdispatches : Dispatches deriver policy command phase next (.reviewPublicKey path publicKey)
      derivations) :
    deriver path = some publicKey ∧ derivations = [⟨path, some publicKey⟩] := by
  generalize houtcome : DispatchOutcome.reviewPublicKey path publicKey = outcome at hdispatches
  cases hdispatches with
  | derived hverifies hkey =>
    cases houtcome
    exact ⟨hkey, rfl⟩
  | _ => cases houtcome

/-- A transaction is put before the user only if its sender was derived. -/
theorem Dispatches.of_reviewTransaction {review : ClearSigningReview}
    (hdispatches : Dispatches deriver policy command phase next (.reviewTransaction review)
      derivations) :
    ∃ path frame transaction,
      decodeSignatureFrame (phase.content ++ command.data) = .ok frame ∧
        decodeTransactionSignable frame.payload = .ok transaction ∧
        review.sender = transaction.sender ∧ deriver path = some transaction.sender.bytes ∧
        derivations = [⟨path, some transaction.sender.bytes⟩] := by
  generalize houtcome : DispatchOutcome.reviewTransaction review = outcome at hdispatches
  cases hdispatches with
  | @reviewed collection _ hsign hcompletes hcheck =>
    cases houtcome
    obtain ⟨frame, transaction, hdecode, hkey, hreview⟩ := oneShotCheck_eq_ok_iff.mp hcheck
    obtain ⟨hframe, -, htransaction⟩ := decodeBounded_eq_ok_iff.mp hdecode
    obtain ⟨-, amount, -, rfl⟩ := buildReview_eq_ok_iff.mp hreview
    refine ⟨collection.path, frame, transaction, hframe, htransaction, rfl, hkey, ?_⟩
    rw [oneShotDerivations_of_ok hcheck, hkey]
  | _ => cases houtcome

end Phases

/-- The discipline of key derivation, after every run and for every command.  At most one key is
derived: the derivations are answers of the deriver for the path of a request to verify a key on an
idle session, or for the captured path when `LAST` completes a frame that decodes.  A review of a
key or of a transaction is returned only with the answer of that derivation, which is the returned
key or the decoded sender. -/
theorem derivation_discipline (operations : List Operation) (command : ApduCommand)
    (deriver : PublicKeyDeriver) (policy : ClearSigningPolicy) :
    let past := sessionMachine.history .new operations
    let session := sessionMachine.run .new operations
    let dispatched := dispatch session command deriver policy
    dispatched.derivations.length ≤ 1 ∧
      (∀ derivation, derivation ∈ dispatched.derivations ↔
        derivation.publicKey = deriver derivation.path ∧
          (VerifiesKey command derivation.path ∧ session.state = .idle ∨
            CompletesFrame past session command derivation.path)) ∧
      (∀ path publicKey, dispatched.outcome = .reviewPublicKey path publicKey →
        deriver path = some publicKey ∧ dispatched.derivations = [⟨path, some publicKey⟩]) ∧
      (∀ review, dispatched.outcome = .reviewTransaction review →
        ∃ path content frame transaction, session.collected = some content ∧
          decodeSignatureFrame (content ++ command.data) = .ok frame ∧
          decodeTransactionSignable frame.payload = .ok transaction ∧
          review.sender = transaction.sender ∧
          deriver path = some transaction.sender.bytes ∧
          dispatched.derivations = [⟨path, some transaction.sender.bytes⟩]) := by
  intro past session dispatched
  obtain ⟨phase, hphase, hexplains⟩ := explained_run operations
  obtain ⟨next, -, hdispatches⟩ := dispatch_represent phase command deriver policy
  rw [← hphase] at hdispatches
  refine ⟨hdispatches.length_derivations_le, ?_, ?_, ?_⟩
  · intro derivation
    have hmem := hdispatches.mem_derivations_iff hexplains derivation
    rwa [← hphase] at hmem
  · intro path publicKey houtcome
    rw [houtcome] at hdispatches
    exact hdispatches.of_reviewPublicKey
  · intro review houtcome
    rw [houtcome] at hdispatches
    obtain ⟨path, frame, transaction, hreviewed⟩ := hdispatches.of_reviewTransaction
    refine ⟨path, phase.content, frame, transaction, ?_, hreviewed⟩
    change (sessionMachine.run .new operations).collected = _
    rw [hphase, Phase.collected_represent]

end SunriseEdgeLedger.Core
