import SunriseEdgeLedger.Core.SessionSafety
import SunriseEdgeLedger.Core.TransferEncoding

/-!
# Chunked delivery

A frame is cut into chunks of bounded size, and the chunks are sent one command after the other.
Whatever the cut, everything before `LAST` succeeds, and the outcome of `LAST` is that of the check
of the complete frame.
-/

namespace SunriseEdgeLedger.Core

open Foundation

/-- A cut of a frame into at least two pieces, each of which fits into a command. -/
structure Cut (framed : Bytes) where
  first : Bytes
  middles : List Bytes
  last : Bytes
  pieces_eq : first ++ middles.flatten ++ last = framed
  piece_length : ∀ piece ∈ first :: (middles ++ [last]),
    1 ≤ piece.length ∧ piece.length ≤ maxChunkLen

/-- The cut into pieces that are as long as they can be, with `count` of them between the first and
the last one. -/
def Cut.longest {framed : Bytes} (count : ℕ) (hlong : (count + 1) * maxChunkLen < framed.length)
    (hshort : framed.length ≤ (count + 2) * maxChunkLen) : Cut framed where
  first := framed.take maxChunkLen
  middles := (List.range count).map fun index ↦
    ((framed.drop maxChunkLen).drop (index * maxChunkLen)).take maxChunkLen
  last := (framed.drop maxChunkLen).drop (count * maxChunkLen)
  pieces_eq := by
    rw [flatten_slices, List.append_assoc, List.take_append_drop, List.take_append_drop]
  piece_length := by
    have hpositive : 0 < maxChunkLen := by decide
    rw [Nat.succ_mul] at hlong
    rw [Nat.succ_mul, Nat.succ_mul] at hshort
    intro piece hpiece
    rcases List.mem_cons.mp hpiece with rfl | hrest
    · rw [List.length_take]
      omega
    rcases List.mem_append.mp hrest with hmiddle | hlast
    · obtain ⟨index, hindex, rfl⟩ := List.mem_map.mp hmiddle
      have hbelow : (index + 1) * maxChunkLen ≤ count * maxChunkLen :=
        Nat.mul_le_mul_right _ (List.mem_range.mp hindex)
      rw [Nat.succ_mul] at hbelow
      rw [List.length_take, List.length_drop, List.length_drop]
      omega
    · rw [List.mem_singleton.mp hlast, List.length_drop, List.length_drop]
      omega

/-- A command of `sign transaction`. -/
def signCommand (p1 : UInt8) (data : Bytes) : ApduCommand where
  cla := cla
  ins := insSignTransaction
  p1 := p1
  p2 := 0x00
  data := data

theorem isSign_signCommand (p1 : UInt8) (data : Bytes) : IsSign (signCommand p1 data) p1 :=
  ⟨rfl, rfl, rfl, rfl⟩

namespace Cut

variable {framed : Bytes} (cut : Cut framed)

theorem first_length : 1 ≤ cut.first.length ∧ cut.first.length ≤ maxChunkLen :=
  cut.piece_length _ (List.mem_cons_self ..)

theorem middle_length : ∀ middle ∈ cut.middles, 1 ≤ middle.length ∧ middle.length ≤ maxChunkLen :=
  fun _ hmiddle ↦
    cut.piece_length _ (List.mem_cons_of_mem _ (List.mem_append_left _ hmiddle))

theorem last_length : 1 ≤ cut.last.length ∧ cut.last.length ≤ maxChunkLen :=
  cut.piece_length _ (List.mem_cons_of_mem _ (List.mem_append_right _ (List.mem_singleton_self _)))

theorem length_eq :
    cut.first.length + cut.middles.flatten.length + cut.last.length = framed.length := by
  simp only [← cut.pieces_eq, List.length_append]

/-- The data of `FIRST`: the length of the frame, the encoded path, and the first piece. -/
def firstData (pathBytes : Bytes) : Bytes :=
  u32ToBeBytes (UInt32.ofNat framed.length) ++ pathBytes ++ cut.first

/-- The commands before `LAST`. -/
def earlierCommands (pathBytes : Bytes) : List ApduCommand :=
  signCommand signP1First (cut.firstData pathBytes) ::
    cut.middles.map (signCommand signP1Continue)

/-- The command that ends the delivery. -/
def lastCommand : ApduCommand := signCommand signP1Last cut.last

section FirstData

variable {pathBytes : Bytes} (hpath : pathBytes.length = pathEncodedLen)

theorem firstTotal_firstData (hlength : framed.length ≤ maxFrameLen) :
    firstTotal (cut.firstData pathBytes) = framed.length := by
  have hwidth := length_u32ToBeBytes (UInt32.ofNat framed.length)
  have hbound : framed.length < 256 ^ 4 := hlength.trans_lt (by decide)
  rw [firstTotal, firstData, List.append_assoc, List.take_left' hwidth, u32ToBeBytes,
    ofBigEndian_toBigEndian, toNat_ofNat_of_le_maxFrameLen hlength, Nat.mod_eq_of_lt hbound]

include hpath

theorem firstPathBytes_firstData : firstPathBytes (cut.firstData pathBytes) = pathBytes := by
  have hwidth := length_u32ToBeBytes (UInt32.ofNat framed.length)
  rw [firstPathBytes, firstData, List.append_assoc, List.drop_left' hwidth, List.take_left' hpath]

theorem firstChunk_firstData : firstChunk (cut.firstData pathBytes) = cut.first := by
  have hwidth : (u32ToBeBytes (UInt32.ofNat framed.length) ++ pathBytes).length =
      4 + pathEncodedLen := by
    rw [List.length_append, length_u32ToBeBytes, hpath]
  rw [firstChunk, firstData, List.drop_left' hwidth]

theorem length_firstData :
    (cut.firstData pathBytes).length = 4 + pathEncodedLen + cut.first.length := by
  rw [firstData, List.length_append, List.length_append, length_u32ToBeBytes, hpath]

end FirstData

/-- The first command of a delivery opens a collection. -/
theorem opensCollection {pathBytes : Bytes} {path : DerivationPath}
    (hpath : decodePath pathBytes = .ok path) (hlength : framed.length ≤ maxFrameLen) :
    OpensCollection (cut.firstData pathBytes) path := by
  have hwidth := length_of_decodePath hpath
  have hdata := cut.length_firstData hwidth
  have hfirst := cut.first_length
  have hlast := cut.last_length
  have htotal := cut.length_eq
  refine ⟨?_, ?_, ?_, ?_, ?_⟩
  · rw [hdata]
    exact Nat.add_le_add_left hfirst.1 _
  · rw [hdata]
    exact Nat.add_le_add_left hfirst.2 _
  · rw [cut.firstPathBytes_firstData hwidth, hpath]
  · rw [cut.firstChunk_firstData hwidth, cut.firstTotal_firstData hlength]
    omega
  · rw [cut.firstTotal_firstData hlength]
    exact hlength

end Cut

variable [Target]

section Steps

variable {deriver : PublicKeyDeriver} {policy : ClearSigningPolicy} {command : ApduCommand}
  {next : Phase} {outcome : DispatchOutcome} {derivations : List Derivation}

/-- A fitting `FIRST` opens the collection. -/
theorem Dispatches.of_opens {path : DerivationPath}
    (hdispatches : Dispatches deriver policy command .idle next outcome derivations)
    (hsign : IsSign command signP1First) (hopens : OpensCollection command.data path) :
    next = .collecting (.opened hopens) ∧ outcome = .success .empty ∧ derivations = [] := by
  cases hdispatches with
  | refused hstatus hunfit => exact absurd ⟨hsign, hopens⟩ (hunfit.not_opens rfl path)
  | configured hins => exact absurd (hsign.ins_eq.symm.trans hins) (by decide)
  | reset hins => exact absurd (hsign.ins_eq.symm.trans hins) (by decide)
  | underivable hverifies hkey => exact absurd hsign hverifies.not_isSign
  | derived hverifies hkey => exact absurd hsign hverifies.not_isSign
  | @opened path' hsign' hopens' =>
    obtain rfl : path' = path := Except.ok.inj (hopens'.path_eq.symm.trans hopens.path_eq)
    exact ⟨rfl, rfl, rfl⟩

/-- A fitting `CONTINUE` extends the collection. -/
theorem Dispatches.of_extends {collection : Collection}
    (hdispatches : Dispatches deriver policy command (.collecting collection) next outcome
      derivations)
    (hsign : IsSign command signP1Continue)
    (hextends : ExtendsCollection collection command.data) :
    next = .collecting (.extended hextends) ∧ outcome = .success .empty ∧ derivations = [] := by
  have hlast : ¬ IsSign command signP1Last := hsign.not_isSign (by decide)
  cases hdispatches with
  | refused hstatus hunfit => exact absurd ⟨hsign, hextends⟩ (hunfit.not_extends _ rfl)
  | reset hins => exact absurd (hsign.ins_eq.symm.trans hins) (by decide)
  | extended hsign' hextends' => exact ⟨rfl, rfl, rfl⟩
  | unchecked hsign' hcompletes hcheck => exact absurd hsign' hlast
  | reviewed hsign' hcompletes hcheck => exact absurd hsign' hlast

/-- The outcome of `LAST` for a result of the check. -/
def outcomeOfCheck : Except StatusWord ClearSigningReview → DispatchOutcome
  | .ok review => .reviewTransaction review
  | .error status => .failure status

/-- The session after `LAST` for a result of the check. -/
def sessionOfCheck (path : DerivationPath) (framed : Bytes) :
    Except StatusWord ClearSigningReview → SigningSession
  | .ok _ => stored .awaitingApproval (some path) (UInt32.ofNat framed.length) framed
  | .error _ => .new

/-- A completing `LAST` does what the check of the complete frame says. -/
theorem Dispatches.of_completes {collection : Collection}
    (hdispatches : Dispatches deriver policy command (.collecting collection) next outcome
      derivations)
    (hsign : IsSign command signP1Last)
    (hcompletes : CompletesCollection collection command.data) :
    next.represent = sessionOfCheck collection.path (collection.content ++ command.data)
        (oneShotCheck collection.path (collection.content ++ command.data) deriver policy) ∧
      outcome = outcomeOfCheck
        (oneShotCheck collection.path (collection.content ++ command.data) deriver policy) ∧
      derivations =
        oneShotDerivations collection.path (collection.content ++ command.data) deriver := by
  cases hdispatches with
  | refused hstatus hunfit => exact absurd ⟨hsign, hcompletes⟩ (hunfit.not_completes _ rfl)
  | reset hins => exact absurd (hsign.ins_eq.symm.trans hins) (by decide)
  | extended hsign' hextends => exact absurd hsign' (hsign.not_isSign (by decide))
  | unchecked hsign' hcompletes' hcheck =>
    rw [hcheck]
    exact ⟨rfl, rfl, rfl⟩
  | reviewed hsign' hcompletes' hcheck =>
    rw [hcheck]
    exact ⟨rfl, rfl, rfl⟩

end Steps

/-! ## Whole deliveries -/

section Deliveries

variable (deriver : PublicKeyDeriver) (policy : ClearSigningPolicy)

omit [Target] in
/-- The dispatch of a command as an operation. -/
def dispatchOperation (command : ApduCommand) : Operation := .dispatch command deriver policy

omit [Target] in
/-- A command that was accepted without a derivation. -/
def acceptedEvent (command : ApduCommand) : Event :=
  (dispatchOperation deriver policy command, .dispatched (.success .empty) [])

/-- The operation of a command and what can be observed of it. -/
theorem step_dispatchOperation (phase : Phase) (command : ApduCommand) :
    ∃ next outcome derivations,
      sessionMachine.step phase.represent (dispatchOperation deriver policy command) =
          (Phase.represent next, .dispatched outcome derivations) ∧
        Dispatches deriver policy command phase next outcome derivations := by
  obtain ⟨next, hnext, hdispatches⟩ := dispatch_represent phase command deriver policy
  exact ⟨next, _, _, Prod.ext hnext rfl, hdispatches⟩

/-- Middle pieces that leave the frame incomplete are collected one after the other. -/
theorem exists_collection_of_middles (collection : Collection) (middles : List Bytes)
    (hlength : ∀ middle ∈ middles, 1 ≤ middle.length ∧ middle.length ≤ maxChunkLen)
    (hshort : collection.content.length + middles.flatten.length < collection.total.toNat) :
    ∃ collected : Collection, collected.path = collection.path ∧
      collected.total = collection.total ∧
      collected.content = collection.content ++ middles.flatten ∧
      sessionMachine.run (Phase.collecting collection).represent
          ((middles.map (signCommand signP1Continue)).map (dispatchOperation deriver policy)) =
        (Phase.collecting collected).represent ∧
      sessionMachine.history (Phase.collecting collection).represent
          ((middles.map (signCommand signP1Continue)).map (dispatchOperation deriver policy)) =
        (middles.map (signCommand signP1Continue)).map (acceptedEvent deriver policy) := by
  induction middles generalizing collection with
  | nil => exact ⟨collection, rfl, rfl, by simp, rfl, rfl⟩
  | cons middle middles ih =>
    rw [List.flatten_cons, List.length_append] at hshort
    have hmiddle := hlength middle (List.mem_cons_self ..)
    have hextends : ExtendsCollection collection (signCommand signP1Continue middle).data :=
      ⟨List.length_pos_iff.mp hmiddle.1, hmiddle.2, by
        change collection.content.length + middle.length < collection.total.toNat
        omega⟩
    obtain ⟨next, outcome, derivations, hstep, hdispatches⟩ :=
      step_dispatchOperation deriver policy (.collecting collection)
        (signCommand signP1Continue middle)
    obtain ⟨rfl, rfl, rfl⟩ :=
      hdispatches.of_extends (isSign_signCommand signP1Continue middle) hextends
    have hrest : (Collection.extended hextends).content.length + middles.flatten.length <
        (Collection.extended hextends).total.toNat := by
      change (collection.content ++ middle).length + middles.flatten.length <
        collection.total.toNat
      rw [List.length_append]
      omega
    obtain ⟨collected, hpath, htotal, hcontent, hrun, hhistory⟩ :=
      ih (.extended hextends) (fun piece hpiece ↦ hlength piece (List.mem_cons_of_mem _ hpiece))
        hrest
    refine ⟨collected, hpath, htotal, ?_, ?_, ?_⟩
    · rw [hcontent]
      exact List.append_assoc _ _ _
    · exact (Machine.run_cons_of_step hstep _).trans hrun
    · exact (Machine.history_cons_of_step hstep _).trans (congrArg (List.cons _) hhistory)

variable {framed : Bytes} (cut : Cut framed) (pathBytes : Bytes)

omit [Target] in
/-- The operations that deliver a frame. -/
def Cut.operations : List Operation :=
  (cut.earlierCommands pathBytes ++ [cut.lastCommand]).map (dispatchOperation deriver policy)

variable {pathBytes} {path : DerivationPath}

/-- The commands before `LAST` collect everything but the last piece. -/
theorem Cut.exists_collection (hpath : decodePath pathBytes = .ok path)
    (hlength : framed.length ≤ maxFrameLen) :
    ∃ collection : Collection, collection.path = path ∧
      collection.total = UInt32.ofNat framed.length ∧
      collection.content = cut.first ++ cut.middles.flatten ∧
      sessionMachine.run .new
          ((cut.earlierCommands pathBytes).map (dispatchOperation deriver policy)) =
        (Phase.collecting collection).represent ∧
      sessionMachine.history .new
          ((cut.earlierCommands pathBytes).map (dispatchOperation deriver policy)) =
        (cut.earlierCommands pathBytes).map (acceptedEvent deriver policy) := by
  have hwidth := length_of_decodePath hpath
  have hopens := cut.opensCollection hpath hlength
  obtain ⟨next, outcome, derivations, hstep, hdispatches⟩ :=
    step_dispatchOperation deriver policy .idle
      (signCommand signP1First (cut.firstData pathBytes))
  obtain ⟨rfl, rfl, rfl⟩ := hdispatches.of_opens (isSign_signCommand signP1First _) hopens
  have htotal : (Collection.opened hopens).total.toNat = framed.length :=
    hopens.toNat_total.trans (cut.firstTotal_firstData hlength)
  have hcontent : (Collection.opened hopens).content = cut.first :=
    cut.firstChunk_firstData hwidth
  have hshort : (Collection.opened hopens).content.length + cut.middles.flatten.length <
      (Collection.opened hopens).total.toNat := by
    have hpieces := cut.length_eq
    have hlast := cut.last_length
    rw [htotal, hcontent]
    omega
  obtain ⟨collection, hcollectionPath, hcollectionTotal, hcollectionContent, hrun, hhistory⟩ :=
    exists_collection_of_middles deriver policy _ cut.middles cut.middle_length hshort
  refine ⟨collection, hcollectionPath, ?_, ?_, ?_, ?_⟩
  · rw [hcollectionTotal]
    exact congrArg UInt32.ofNat (cut.firstTotal_firstData hlength)
  · rw [hcollectionContent, hcontent]
  · exact (Machine.run_cons_of_step hstep _).trans hrun
  · exact (Machine.history_cons_of_step hstep _).trans (congrArg (List.cons _) hhistory)

/-- A delivery to a new session accepts every command before `LAST` and then does what the check of
the complete frame says. -/
theorem Cut.deliver (hpath : decodePath pathBytes = .ok path)
    (hlength : framed.length ≤ maxFrameLen) :
    sessionMachine.history .new (cut.operations deriver policy pathBytes) =
        (cut.earlierCommands pathBytes).map (acceptedEvent deriver policy) ++
          [(dispatchOperation deriver policy cut.lastCommand,
            .dispatched (outcomeOfCheck (oneShotCheck path framed deriver policy))
              (oneShotDerivations path framed deriver))] ∧
      sessionMachine.run .new (cut.operations deriver policy pathBytes) =
        sessionOfCheck path framed (oneShotCheck path framed deriver policy) := by
  obtain ⟨collection, rfl, htotal, hcontent, hrun, hhistory⟩ :=
    cut.exists_collection deriver policy hpath hlength
  have hframed : collection.content ++ cut.last = framed := by
    rw [hcontent, cut.pieces_eq]
  have hcompletes : CompletesCollection collection cut.lastCommand.data := by
    have hlast := cut.last_length
    refine ⟨List.length_pos_iff.mp hlast.1, hlast.2, ?_⟩
    change collection.content.length + cut.last.length = _
    rw [← List.length_append, hframed, htotal, toNat_ofNat_of_le_maxFrameLen hlength]
  obtain ⟨next, outcome, derivations, hstep, hdispatches⟩ :=
    step_dispatchOperation deriver policy (.collecting collection) cut.lastCommand
  obtain ⟨hnext, houtcome, hderivations⟩ :=
    hdispatches.of_completes (isSign_signCommand signP1Last cut.last) hcompletes
  change _ = sessionOfCheck _ (collection.content ++ cut.last)
    (oneShotCheck _ (collection.content ++ cut.last) deriver policy) at hnext
  change _ = outcomeOfCheck (oneShotCheck _ (collection.content ++ cut.last) deriver policy)
    at houtcome
  change _ = oneShotDerivations _ (collection.content ++ cut.last) deriver at hderivations
  rw [hframed] at hnext houtcome hderivations
  constructor
  · rw [Cut.operations, List.map_append, Machine.history_append, hrun, hhistory, List.map_singleton,
      Machine.history_cons_of_step hstep, Machine.history_nil, houtcome, hderivations]
  · rw [Cut.operations, List.map_append, Machine.run_append, hrun, List.map_singleton,
      Machine.run_cons_of_step hstep, Machine.run_nil, hnext]

/-- On every idle session and for every cut, a delivery accepts every command before `LAST`, and
`LAST` does what the check of the complete frame says; a review leaves the frame pending under its
path.  All cuts of a frame end in the same outcome and in the same session. -/
theorem chunked_delivery_refines_check {earlier : List Operation}
    (hidle : (sessionMachine.run .new earlier).isIdle) (hpath : decodePath pathBytes = .ok path)
    (hlength : framed.length ≤ maxFrameLen) :
    (∀ cut : Cut framed,
      sessionMachine.history (sessionMachine.run .new earlier)
          (cut.operations deriver policy pathBytes) =
        (cut.earlierCommands pathBytes).map (acceptedEvent deriver policy) ++
          [(dispatchOperation deriver policy cut.lastCommand,
            .dispatched (outcomeOfCheck (oneShotCheck path framed deriver policy))
              (oneShotDerivations path framed deriver))] ∧
      sessionMachine.run (sessionMachine.run .new earlier)
          (cut.operations deriver policy pathBytes) =
        sessionOfCheck path framed (oneShotCheck path framed deriver policy) ∧
      ∀ review, oneShotCheck path framed deriver policy = .ok review →
        (sessionMachine.run (sessionMachine.run .new earlier)
          (cut.operations deriver policy pathBytes)).pendingFrame = some framed ∧
        (sessionMachine.run (sessionMachine.run .new earlier)
          (cut.operations deriver policy pathBytes)).path = some path) ∧
    ∀ cut other : Cut framed,
      (sessionMachine.history (sessionMachine.run .new earlier)
          (cut.operations deriver policy pathBytes)).getLast?.map Prod.snd =
        (sessionMachine.history (sessionMachine.run .new earlier)
          (other.operations deriver policy pathBytes)).getLast?.map Prod.snd ∧
      sessionMachine.run (sessionMachine.run .new earlier)
          (cut.operations deriver policy pathBytes) =
        sessionMachine.run (sessionMachine.run .new earlier)
          (other.operations deriver policy pathBytes) := by
  rw [run_eq_new_of_isIdle hidle]
  constructor
  · intro cut
    obtain ⟨hhistory, hrun⟩ := cut.deliver deriver policy hpath hlength
    refine ⟨hhistory, hrun, ?_⟩
    intro review hcheck
    rw [hrun, hcheck]
    exact ⟨getRange_stored hlength, rfl⟩
  · intro cut other
    obtain ⟨hhistory, hrun⟩ := cut.deliver deriver policy hpath hlength
    obtain ⟨hotherHistory, hotherRun⟩ := other.deliver deriver policy hpath hlength
    constructor
    · rw [hhistory, hotherHistory, List.getLast?_concat, List.getLast?_concat]
      rfl
    · rw [hrun, hotherRun]

end Deliveries

omit [Target] in
/-- The path of the first account. -/
def originPath : DerivationPath := ⟨0, by decide⟩

omit [Target] in
/-- The encoded path of the first account. -/
def originPathBytes : Bytes :=
  [5, 0x80, 0, 0, 44, 0x80, 0, 0x53, 0x55, 0x80, 0, 0, 0, 0x80, 0, 0, 0, 0x80, 0, 0, 0]

omit [Target] in
/-- The cut of the transfer of one unit into six pieces. -/
def unitTransferCut : Cut unitTransfer.bytes :=
  .longest 4 (by rw [unitTransfer.length_bytes]; decide) (by rw [unitTransfer.length_bytes]; decide)

omit [Target] in
/-- The transfer of one unit is delivered in six commands after a reset, and then pending. -/
theorem chunked_delivery_of_unitTransfer :
    let _ : Target := .device
    let delivered := sessionMachine.run (sessionMachine.run .new [.reset])
      (unitTransferCut.operations (fun _ ↦ some unitTransfer.sender.bytes)
        devnetAssetTransferPolicy originPathBytes)
    unitTransferCut.middles.length = 4 ∧ delivered.state = .awaitingApproval ∧
      delivered.pendingFrame = some unitTransfer.bytes ∧ delivered.path = some originPath := by
  intro target delivered
  have hreset : sessionMachine.run .new [.reset] = .new := wipe_new
  have hidle : (sessionMachine.run .new [.reset]).isIdle := by
    rw [hreset]
    rfl
  have hpath : decodePath originPathBytes = .ok originPath := by decide
  have hlength : unitTransfer.bytes.length ≤ maxFrameLen := by
    rw [unitTransfer.length_bytes]
    decide
  have hcheck : oneShotCheck originPath unitTransfer.bytes
      (fun _ ↦ some unitTransfer.sender.bytes) devnetAssetTransferPolicy = .ok unitTransfer.review :=
    oneShotCheck_of_sender unitTransfer rfl
  obtain ⟨-, hrun, hpending⟩ := (chunked_delivery_refines_check
    (fun _ ↦ some unitTransfer.sender.bytes) devnetAssetTransferPolicy hidle hpath hlength).1
    unitTransferCut
  rw [hcheck, sessionOfCheck] at hrun
  have hdelivered : delivered = stored .awaitingApproval _ _ _ := hrun
  have hstate : delivered.state = .awaitingApproval := by rw [hdelivered, state_stored]
  exact ⟨rfl, hstate, hpending unitTransfer.review hcheck⟩

end SunriseEdgeLedger.Core
