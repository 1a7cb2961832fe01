import SunriseEdgeLedger.Core.ChunkedDelivery

/-!
# Acceptance while a frame is collected

Exactly which `FIRST` and `CONTINUE` commands a session accepts, and what they change.  Only `LAST`
may deliver the byte that completes the declared total, so after every accepted command something is
missing, and what is missing can be delivered.
-/

namespace SunriseEdgeLedger.Core

open Foundation

/-- The part of a frame that a session has collected. -/
def SigningSession.collected (session : SigningSession) : Option Bytes :=
  getRange session.buffer.toList 0 session.bufferedLen

/-- When a session accepts `FIRST`. -/
structure AcceptsFirst (session : SigningSession) (p2 : UInt8) (data : Bytes) : Prop where
  idle : session.state = .idle
  p2_eq : p2 = 0x00
  length_ge : 26 ≤ data.length
  length_le : data.length ≤ 255
  total_ge : 1 ≤ ofBigEndian (data.take 4)
  total_le : ofBigEndian (data.take 4) ≤ 4096
  path : ∃ path, decodePath ((data.drop 4).take 21) = .ok path
  short : (data.drop 25).length < ofBigEndian (data.take 4)

/-- When a session accepts `CONTINUE`. -/
structure AcceptsContinue (session : SigningSession) (p2 : UInt8) (data : Bytes) : Prop where
  collecting : session.state = .collecting
  p2_eq : p2 = 0x00
  length_ge : 1 ≤ data.length
  length_le : data.length ≤ 230
  short : data.length < session.declaredTotal.toNat - session.receivedLen.toNat

/-- The next session has collected the chunk behind what was there, and misses something. -/
structure CollectsChunk (session next : SigningSession) (chunk : Bytes) : Prop where
  state_eq : next.state = .collecting
  collected_eq : ∃ content, session.collected = some content ∧
    next.collected = some (content ++ chunk)
  receivedLen_eq : next.receivedLen.toNat = session.receivedLen.toNat + chunk.length
  receivedLen_lt : next.receivedLen.toNat < next.declaredTotal.toNat

variable [Target]

section Phases

variable {phase : Phase} {p2 : UInt8} {data : Bytes}

theorem Phase.collected_represent (phase : Phase) :
    phase.represent.collected = some phase.content := phase.getRange_represent

theorem Phase.exists_collecting (hcollecting : phase.represent.state = .collecting) :
    ∃ collection, phase = .collecting collection := by
  cases phase with
  | idle => cases hcollecting
  | collecting collection => exact ⟨collection, rfl⟩
  | awaiting pending => cases hcollecting

theorem acceptsFirst_represent_iff :
    AcceptsFirst phase.represent p2 data ↔
      phase = .idle ∧ p2 = 0x00 ∧ ∃ path, OpensCollection data path := by
  constructor
  · intro haccepts
    obtain ⟨path, hpath⟩ := haccepts.path
    refine ⟨?_, haccepts.p2_eq, path, haccepts.length_ge, haccepts.length_le, hpath,
      haccepts.short, haccepts.total_le⟩
    cases phase with
    | idle => rfl
    | collecting collection => cases haccepts.idle
    | awaiting pending => cases haccepts.idle
  · rintro ⟨rfl, hp2, path, hopens⟩
    exact ⟨rfl, hp2, hopens.length_ge, hopens.length_le, Nat.one_le_of_lt hopens.chunk_lt,
      hopens.total_le, ⟨path, hopens.path_eq⟩, hopens.chunk_lt⟩

theorem acceptsContinue_represent_iff :
    AcceptsContinue phase.represent p2 data ↔
      ∃ collection, phase = .collecting collection ∧ p2 = 0x00 ∧
        ExtendsCollection collection data := by
  constructor
  · intro haccepts
    obtain ⟨collection, rfl⟩ := Phase.exists_collecting haccepts.collecting
    have hshort := haccepts.short
    rw [Phase.toNat_declaredTotal_represent, Phase.toNat_receivedLen_represent] at hshort
    refine ⟨collection, rfl, haccepts.p2_eq, List.length_pos_iff.mp haccepts.length_ge,
      haccepts.length_le, ?_⟩
    exact Nat.add_lt_of_lt_sub' hshort
  · rintro ⟨collection, rfl, hp2, hextends⟩
    refine ⟨rfl, hp2, List.length_pos_iff.mpr hextends.data_ne, hextends.length_le, ?_⟩
    have hshort := hextends.short
    rw [Phase.toNat_declaredTotal_represent, Phase.toNat_receivedLen_represent]
    change data.length < collection.total.toNat - collection.content.length
    omega

end Phases

/-! ## Accepted commands -/

section Accepted

variable {deriver : PublicKeyDeriver} {policy : ClearSigningPolicy} {command : ApduCommand}
  {phase next : Phase} {outcome : DispatchOutcome} {derivations : List Derivation}

/-- A `FIRST` that succeeds has opened a collection. -/
theorem Dispatches.opens_of_success
    (hdispatches : Dispatches deriver policy command phase next outcome derivations)
    (hins : command.ins = insSignTransaction) (hp1 : command.p1 = signP1First)
    (hsuccess : outcome.Replies .success) :
    phase = .idle ∧ command.p2 = 0x00 ∧ ∃ path, OpensCollection command.data path := by
  have hother : ∀ {p1 : UInt8}, p1 ≠ signP1First → ¬ IsSign command p1 :=
    fun hne hsign ↦ hne (hsign.p1_eq.symm.trans hp1)
  cases hdispatches with
  | refused hstatus hunfit => exact absurd (replies_failure.mp hsuccess) hstatus.1
  | configured hother => exact absurd (hins.symm.trans hother) (by decide)
  | reset hother => exact absurd (hins.symm.trans hother) (by decide)
  | underivable hverifies hkey => exact absurd (replies_failure.mp hsuccess) (by decide)
  | derived hverifies hkey => exact absurd hsuccess not_replies_reviewPublicKey
  | opened hsign hopens => exact ⟨rfl, hsign.p2_eq, _, hopens⟩
  | extended hsign hextends => exact absurd hsign (hother (by decide))
  | unchecked hsign hcompletes hcheck => exact absurd hsign (hother (by decide))
  | reviewed hsign hcompletes hcheck => exact absurd hsign (hother (by decide))

/-- A `CONTINUE` that succeeds has extended a collection. -/
theorem Dispatches.extends_of_success
    (hdispatches : Dispatches deriver policy command phase next outcome derivations)
    (hins : command.ins = insSignTransaction) (hp1 : command.p1 = signP1Continue)
    (hsuccess : outcome.Replies .success) :
    ∃ collection, phase = .collecting collection ∧ command.p2 = 0x00 ∧
      ExtendsCollection collection command.data := by
  have hother : ∀ {p1 : UInt8}, p1 ≠ signP1Continue → ¬ IsSign command p1 :=
    fun hne hsign ↦ hne (hsign.p1_eq.symm.trans hp1)
  cases hdispatches with
  | refused hstatus hunfit => exact absurd (replies_failure.mp hsuccess) hstatus.1
  | configured hother => exact absurd (hins.symm.trans hother) (by decide)
  | reset hother => exact absurd (hins.symm.trans hother) (by decide)
  | underivable hverifies hkey => exact absurd (replies_failure.mp hsuccess) (by decide)
  | derived hverifies hkey => exact absurd hsuccess not_replies_reviewPublicKey
  | opened hsign hopens => exact absurd hsign (hother (by decide))
  | extended hsign hextends => exact ⟨_, rfl, hsign.p2_eq, hextends⟩
  | unchecked hsign hcompletes hcheck => exact absurd hsign (hother (by decide))
  | reviewed hsign hcompletes hcheck => exact absurd hsign (hother (by decide))

/-- The opened collection holds the chunk of `FIRST`. -/
theorem collectsChunk_opened {data : Bytes} {path : DerivationPath}
    (hopens : OpensCollection data path) :
    CollectsChunk Phase.idle.represent (Phase.collecting (.opened hopens)).represent
      (data.drop 25) where
  state_eq := rfl
  collected_eq := ⟨[], Phase.collected_represent _, Phase.collected_represent _⟩
  receivedLen_eq := by
    rw [Phase.toNat_receivedLen_represent, Phase.toNat_receivedLen_represent]
    exact (Nat.zero_add _).symm
  receivedLen_lt := by
    rw [Phase.toNat_receivedLen_represent, Phase.toNat_declaredTotal_represent]
    exact (Collection.opened hopens).length_lt

/-- The extended collection holds the data of `CONTINUE` behind the content. -/
theorem collectsChunk_extended {collection : Collection} {data : Bytes}
    (hextends : ExtendsCollection collection data) :
    CollectsChunk (Phase.collecting collection).represent
      (Phase.collecting (.extended hextends)).represent data where
  state_eq := rfl
  collected_eq := ⟨collection.content, Phase.collected_represent _, Phase.collected_represent _⟩
  receivedLen_eq := by
    rw [Phase.toNat_receivedLen_represent, Phase.toNat_receivedLen_represent]
    exact List.length_append
  receivedLen_lt := by
    rw [Phase.toNat_receivedLen_represent, Phase.toNat_declaredTotal_represent]
    exact (Collection.extended hextends).length_lt

variable (phase) (p2 : UInt8) (data : Bytes) (deriver) (policy)

theorem first_replies_success_iff :
    (dispatch phase.represent ⟨cla, insSignTransaction, signP1First, p2, data⟩ deriver
      policy).outcome.Replies .success ↔ AcceptsFirst phase.represent p2 data := by
  obtain ⟨next, -, hdispatches⟩ := dispatch_represent phase
    ⟨cla, insSignTransaction, signP1First, p2, data⟩ deriver policy
  rw [acceptsFirst_represent_iff]
  constructor
  · exact hdispatches.opens_of_success rfl rfl
  · rintro ⟨rfl, rfl, path, hopens⟩
    obtain ⟨-, houtcome, -⟩ := hdispatches.of_opens ⟨rfl, rfl, rfl, rfl⟩ hopens
    rw [houtcome]
    exact replies_success.mpr rfl

theorem continue_replies_success_iff :
    (dispatch phase.represent ⟨cla, insSignTransaction, signP1Continue, p2, data⟩ deriver
      policy).outcome.Replies .success ↔ AcceptsContinue phase.represent p2 data := by
  obtain ⟨next, -, hdispatches⟩ := dispatch_represent phase
    ⟨cla, insSignTransaction, signP1Continue, p2, data⟩ deriver policy
  rw [acceptsContinue_represent_iff]
  constructor
  · exact hdispatches.extends_of_success rfl rfl
  · rintro ⟨collection, rfl, rfl, hextends⟩
    obtain ⟨-, houtcome, -⟩ := hdispatches.of_extends ⟨rfl, rfl, rfl, rfl⟩ hextends
    rw [houtcome]
    exact replies_success.mpr rfl

variable {phase p2 data}

/-- An accepted `FIRST` opens the collection of its chunk. -/
theorem first_opens (haccepts : AcceptsFirst phase.represent p2 data) :
    ∃ path, ∃ hopens : OpensCollection data path, phase = .idle ∧
      (dispatch phase.represent ⟨cla, insSignTransaction, signP1First, p2, data⟩ deriver
        policy).session = (Phase.collecting (.opened hopens)).represent := by
  obtain ⟨rfl, rfl, path, hopens⟩ := acceptsFirst_represent_iff.mp haccepts
  obtain ⟨next, hnext, hdispatches⟩ := dispatch_represent .idle
    ⟨cla, insSignTransaction, signP1First, 0x00, data⟩ deriver policy
  obtain ⟨rfl, -, -⟩ := hdispatches.of_opens ⟨rfl, rfl, rfl, rfl⟩ hopens
  exact ⟨path, hopens, rfl, hnext⟩

/-- An accepted `CONTINUE` extends the collection by its data. -/
theorem continue_extends (haccepts : AcceptsContinue phase.represent p2 data) :
    ∃ collection, ∃ hextends : ExtendsCollection collection data, phase = .collecting collection ∧
      (dispatch phase.represent ⟨cla, insSignTransaction, signP1Continue, p2, data⟩ deriver
        policy).session = (Phase.collecting (.extended hextends)).represent := by
  obtain ⟨collection, rfl, rfl, hextends⟩ := acceptsContinue_represent_iff.mp haccepts
  obtain ⟨next, hnext, hdispatches⟩ := dispatch_represent (.collecting collection)
    ⟨cla, insSignTransaction, signP1Continue, 0x00, data⟩ deriver policy
  obtain ⟨rfl, -, -⟩ := hdispatches.of_extends ⟨rfl, rfl, rfl, rfl⟩ hextends
  exact ⟨collection, hextends, rfl, hnext⟩

end Accepted

omit [Target] in
/-- Every non-empty byte string can be cut into pieces that fit into a command. -/
theorem exists_pieces {rest : Bytes} (hrest : rest ≠ []) :
    ∃ (middles : List Bytes) (last : Bytes), middles.flatten ++ last = rest ∧
      (∀ middle ∈ middles, 1 ≤ middle.length ∧ middle.length ≤ maxChunkLen) ∧
      1 ≤ last.length ∧ last.length ≤ maxChunkLen := by
  induction hlength : rest.length using Nat.strong_induction_on generalizing rest with
  | _ length ih =>
    subst hlength
    have hpos : 1 ≤ rest.length := List.length_pos_iff.mpr hrest
    by_cases hfits : rest.length ≤ maxChunkLen
    · exact ⟨[], rest, rfl, by simp, hpos, hfits⟩
    · have htake : (rest.take maxChunkLen).length = maxChunkLen :=
        List.length_take_of_le (Nat.le_of_not_le hfits)
      have hdrop : (rest.drop maxChunkLen).length = rest.length - maxChunkLen := List.length_drop
      have hshorter : (rest.drop maxChunkLen).length < rest.length := by
        rw [hdrop]
        exact Nat.sub_lt hpos (by decide)
      have hne : rest.drop maxChunkLen ≠ [] := by
        rw [← List.length_pos_iff, hdrop]
        exact Nat.sub_pos_of_lt (Nat.lt_of_not_le hfits)
      obtain ⟨middles, last, hpieces, hmiddles, hlast⟩ := ih _ hshorter hne rfl
      refine ⟨rest.take maxChunkLen :: middles, last, ?_, ?_, hlast⟩
      · rw [List.flatten_cons, List.append_assoc, hpieces, List.take_append_drop]
      · rw [List.forall_mem_cons, htake]
        exact ⟨by decide, hmiddles⟩

/-- Whatever a collection misses is accepted in some pieces, and the `LAST` that carries the final
piece runs the check of the complete frame. -/
theorem exists_completion (deriver : PublicKeyDeriver) (policy : ClearSigningPolicy)
    (collection : Collection) {rest : Bytes}
    (hrest : collection.content.length + rest.length = collection.total.toNat) :
    ∃ (middles : List Bytes) (last : Bytes), middles.flatten ++ last = rest ∧
      sessionMachine.history (Phase.collecting collection).represent
          ((middles.map (signCommand signP1Continue) ++ [signCommand signP1Last last]).map
            (dispatchOperation deriver policy)) =
        (middles.map (signCommand signP1Continue)).map (acceptedEvent deriver policy) ++
          [(dispatchOperation deriver policy (signCommand signP1Last last),
            .dispatched
              (outcomeOfCheck (oneShotCheck collection.path (collection.content ++ rest) deriver
                policy))
              (oneShotDerivations collection.path (collection.content ++ rest) deriver))] := by
  have hne : rest ≠ [] := by
    rintro rfl
    exact collection.length_lt.ne hrest
  obtain ⟨middles, last, hpieces, hmiddles, hlast⟩ := exists_pieces hne
  have hlength : middles.flatten.length + last.length = rest.length := by
    rw [← List.length_append, hpieces]
  obtain ⟨collected, hpath, htotal, hcontent, hrun, hhistory⟩ :=
    exists_collection_of_middles deriver policy collection middles hmiddles (by omega)
  have hframe : collected.content ++ last = collection.content ++ rest := by
    rw [hcontent, List.append_assoc, hpieces]
  have hcompletes : CompletesCollection collected (signCommand signP1Last last).data := by
    refine ⟨List.length_pos_iff.mp hlast.1, hlast.2, ?_⟩
    change collected.content.length + last.length = _
    rw [← List.length_append, hframe, List.length_append, hrest, htotal]
  obtain ⟨next, outcome, derivations, hstep, hdispatches⟩ :=
    step_dispatchOperation deriver policy (.collecting collected) (signCommand signP1Last last)
  obtain ⟨-, rfl, rfl⟩ := hdispatches.of_completes (isSign_signCommand signP1Last last) hcompletes
  refine ⟨middles, last, hpieces, ?_⟩
  rw [List.map_append, Machine.history_append, hrun, hhistory, List.map_singleton,
    Machine.history_cons_of_step hstep, Machine.history_nil, ← hpath, ← hframe]
  rfl

/-- The session represents a phase, and every event so far is one of the cases of `Performs`. -/
def PerformedThroughout (past : List Event) (session : SigningSession) : Prop :=
  RepresentsPhase session ∧
    ∀ event ∈ past, ∃ phase next : Phase, Performs phase event.1 next event.2

theorem performedThroughout_run (operations : List Operation) :
    PerformedThroughout (sessionMachine.history .new operations)
      (sessionMachine.run .new operations) := by
  have hstep : ∀ past session operation, PerformedThroughout past session →
      PerformedThroughout (past ++ [(operation, (sessionMachine.step session operation).2)])
        (sessionMachine.step session operation).1 := by
    rintro past _ operation ⟨⟨phase, rfl⟩, hpast⟩
    obtain ⟨next, hnext, hperforms⟩ := perform_represent phase operation
    refine ⟨⟨next, hnext⟩, ?_⟩
    intro event hevent
    rcases List.mem_append.mp hevent with hevent | hevent
    · exact hpast event hevent
    · obtain rfl := List.mem_singleton.mp hevent
      exact ⟨phase, next, hperforms⟩
  have hinitial : PerformedThroughout [] SigningSession.new := ⟨⟨.idle, rfl⟩, by simp⟩
  exact Machine.history_invariant PerformedThroughout hstep hinitial operations

/-- An accepted `CONTINUE` of a run carried something. -/
theorem data_ne_of_accepted {operations : List Operation} {event : Event} {data : Bytes}
    (hevent : event ∈ sessionMachine.history .new operations)
    (haccepted : Accepted signP1Continue event data) : data ≠ [] := by
  obtain ⟨command, deriver, policy, hsign, rfl, rfl⟩ := haccepted
  obtain ⟨phase, next, hperforms⟩ := (performedThroughout_run operations).2 _ hevent
  cases hperforms with
  | dispatched hdispatches =>
    obtain ⟨collection, -, -, hextends⟩ :=
      hdispatches.extends_of_success hsign.ins_eq hsign.p1_eq (replies_success.mpr rfl)
    exact hextends.data_ne

omit [Target] in
/-- Commands that each carry something are at most as many as the bytes that they carry together. -/
theorem length_le_length_flatten {events : List Event} {chunks : List Bytes}
    (haccepted : List.Forall₂ (Accepted signP1Continue) events chunks)
    (hcarries : ∀ event ∈ events, ∀ data, Accepted signP1Continue event data → data ≠ []) :
    events.length ≤ chunks.flatten.length := by
  induction haccepted with
  | nil => exact le_rfl
  | cons hevent _ ih =>
    rw [List.forall_mem_cons] at hcarries
    have hchunk := List.length_pos_iff.mpr (hcarries.1 _ hevent)
    have hrest := ih hcarries.2
    rw [List.length_cons, List.flatten_cons, List.length_append]
    omega

/-- The commands that collect a content are at most as many as its bytes. -/
theorem Collects.length_le {operations : List Operation} {earlier events : List Event}
    {path : DerivationPath} {total : UInt32} {content : Bytes}
    (hpast : sessionMachine.history .new operations = earlier ++ events)
    (hcollects : Collects events path total content) : events.length ≤ content.length := by
  obtain ⟨first, continues, firstData, chunks, rfl, -, hcontinues, hopens, -, rfl⟩ := hcollects
  have hfirst : 0 < (firstChunk firstData).length := (Collection.opened hopens).length_pos
  have hlater : continues.length ≤ chunks.flatten.length := by
    apply length_le_length_flatten hcontinues
    intro event hevent data haccepted
    refine @data_ne_of_accepted _ operations event data ?_ haccepted
    rw [hpast]
    exact List.mem_append_right _ (List.mem_cons_of_mem _ hevent)
  rw [List.length_cons, List.length_append]
  omega

/-! ## The discipline of a collection -/

/-- What a session accepts while a frame is collected, given the events so far. -/
structure CollectionDiscipline (past : List Event) (session : SigningSession) : Prop where
  first_iff : ∀ p2 data deriver policy,
    (dispatch session ⟨cla, insSignTransaction, signP1First, p2, data⟩ deriver
      policy).outcome.Replies .success ↔ AcceptsFirst session p2 data
  first_collects : ∀ p2 data deriver policy, AcceptsFirst session p2 data →
    let next := (dispatch session ⟨cla, insSignTransaction, signP1First, p2, data⟩ deriver
      policy).session
    CollectsChunk session next (data.drop 25) ∧
      next.declaredTotal.toNat = ofBigEndian (data.take 4) ∧
      ∃ path, decodePath ((data.drop 4).take 21) = .ok path ∧ next.path = some path
  continue_iff : ∀ p2 data deriver policy,
    (dispatch session ⟨cla, insSignTransaction, signP1Continue, p2, data⟩ deriver
      policy).outcome.Replies .success ↔ AcceptsContinue session p2 data
  continue_collects : ∀ p2 data deriver policy, AcceptsContinue session p2 data →
    let next := (dispatch session ⟨cla, insSignTransaction, signP1Continue, p2, data⟩ deriver
      policy).session
    CollectsChunk session next data ∧ next.declaredTotal = session.declaredTotal ∧
      next.path = session.path
  incomplete : session.state = .collecting →
    session.receivedLen.toNat < session.declaredTotal.toNat
  completable : session.state = .collecting → ∀ (rest : Bytes) deriver policy,
    session.receivedLen.toNat + rest.length = session.declaredTotal.toNat →
    ∃ content path, session.collected = some content ∧ session.path = some path ∧
      ∃ (middles : List Bytes) (last : Bytes), middles.flatten ++ last = rest ∧
        sessionMachine.history session
            ((middles.map (signCommand signP1Continue) ++ [signCommand signP1Last last]).map
              (dispatchOperation deriver policy)) =
          (middles.map (signCommand signP1Continue)).map (acceptedEvent deriver policy) ++
            [(dispatchOperation deriver policy (signCommand signP1Last last),
              .dispatched (outcomeOfCheck (oneShotCheck path (content ++ rest) deriver policy))
                (oneShotDerivations path (content ++ rest) deriver))]
  accepted_le : session.state = .collecting → ∃ earlier first continues firstData chunks,
    past = earlier ++ first :: continues ∧ Accepted signP1First first firstData ∧
      List.Forall₂ (Accepted signP1Continue) continues chunks ∧
      session.collected = some (firstChunk firstData ++ chunks.flatten) ∧
      (first :: continues).length ≤ session.declaredTotal.toNat - 1

/-- Every reachable session keeps the discipline. -/
theorem collectionDiscipline_run (operations : List Operation) :
    CollectionDiscipline (sessionMachine.history .new operations)
      (sessionMachine.run .new operations) := by
  obtain ⟨phase, hphase, hexplains⟩ := explained_run operations
  rw [hphase]
  refine ⟨?_, ?_, ?_, ?_, ?_, ?_, ?_⟩
  · intro p2 data deriver policy
    exact first_replies_success_iff deriver policy phase p2 data
  · intro p2 data deriver policy haccepts
    obtain ⟨path, hopens, rfl, hnext⟩ := first_opens deriver policy haccepts
    rw [hnext]
    exact ⟨collectsChunk_opened hopens, hopens.toNat_total, path, hopens.path_eq, rfl⟩
  · intro p2 data deriver policy
    exact continue_replies_success_iff deriver policy phase p2 data
  · intro p2 data deriver policy haccepts
    obtain ⟨collection, hextends, rfl, hnext⟩ := continue_extends deriver policy haccepts
    rw [hnext]
    exact ⟨collectsChunk_extended hextends, rfl, rfl⟩
  · intro hcollecting
    obtain ⟨collection, rfl⟩ := Phase.exists_collecting hcollecting
    rw [Phase.toNat_receivedLen_represent, Phase.toNat_declaredTotal_represent]
    exact collection.length_lt
  · intro hcollecting rest deriver policy hrest
    obtain ⟨collection, rfl⟩ := Phase.exists_collecting hcollecting
    rw [Phase.toNat_receivedLen_represent, Phase.toNat_declaredTotal_represent] at hrest
    exact ⟨collection.content, collection.path, Phase.collected_represent _, rfl,
      exists_completion deriver policy collection hrest⟩
  · intro hcollecting
    obtain ⟨collection, rfl⟩ := Phase.exists_collecting hcollecting
    obtain ⟨earlier, events, hpast, hcollects⟩ := hexplains
    have hevents := hcollects.length_le hpast
    obtain ⟨first, continues, firstData, chunks, rfl, hfirst, hcontinues, -, -, hcontent⟩ :=
      hcollects
    refine ⟨earlier, first, continues, firstData, chunks, hpast, hfirst, hcontinues, ?_, ?_⟩
    · rw [Phase.collected_represent, ← hcontent]
      rfl
    · rw [Phase.toNat_declaredTotal_represent]
      exact Nat.le_sub_one_of_lt (hevents.trans_lt collection.length_lt)

end SunriseEdgeLedger.Core
