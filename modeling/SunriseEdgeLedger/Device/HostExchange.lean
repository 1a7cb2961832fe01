import SunriseEdgeLedger.Core.ChunkedDelivery
import SunriseEdgeLedger.Device.LoopSteps

/-!
# The exchange of the host

The host cuts a frame into pieces of 230 bytes and sends them one command after the other.  After
any earlier run, a reset followed by this exchange is answered as the transfer, the user, the key of
the path and the signer demand, and by nothing else.
-/

namespace SunriseEdgeLedger.Device

open SunriseEdgeLedger.Foundation SunriseEdgeLedger.Core

/-- `MAX_FRAME_CHUNK` -/
def maxFrameChunk : ℕ := 230

/-- The slices of a frame at the offsets `range(0, len(frame), MAX_FRAME_CHUNK)`. -/
def frameChunks (frame : Bytes) : List Bytes :=
  (List.range ((frame.length + (maxFrameChunk - 1)) / maxFrameChunk)).map fun index ↦
    (frame.drop (index * maxFrameChunk)).take maxFrameChunk

/-- The commands before `LAST` and the data of `LAST`, if no assertion about the data fails. -/
def sendSignPrefix (path frame : Bytes) : Option (List ApduCommand × Bytes) := do
  let chunks := frameChunks frame
  guard (2 ≤ chunks.length)
  let first ← chunks.head?
  -- `to_bytes` refuses a length of more than four bytes.
  guard (frame.length < 2 ^ 32)
  let firstData := u32ToBeBytes (UInt32.ofNat frame.length) ++ path ++ first
  guard (firstData.length = 255)
  let last ← chunks.getLast?
  return (signCommand signP1First firstData ::
    chunks.tail.dropLast.map (signCommand signP1Continue), last)

/-- The command that resets the signing. -/
def resetCommand : ApduCommand where
  cla := cla
  ins := insResetSigning
  p1 := 0x00
  p2 := 0x00
  data := []

/-- The request of the tests to verify the key of the first account. -/
def verifyCommand : ApduCommand where
  cla := cla
  ins := insVerifyPublicKey
  p1 := 0x01
  p2 := 0x00
  data := originPathBytes

/-- A command is received unchanged, and its reply is sent. -/
structure Carries (received : Received) (command : ApduCommand) : Prop where
  header_eq : received.header = .ok ⟨command.cla, command.ins, command.p1, command.p2⟩
  data_eq : received.data = command.data
  sends_eq : received.sends = true

theorem Carries.apduCommand_eq {received : Received} {command : ApduCommand}
    (hcarries : Carries received command) :
    received.apduCommand ⟨command.cla, command.ins, command.p1, command.p2⟩ = command := by
  rw [Received.apduCommand, hcarries.data_eq]

theorem flatten_frameChunks (frame : Bytes) : (frameChunks frame).flatten = frame := by
  rw [frameChunks, flatten_slices, List.take_of_length_le]
  change _ ≤ (frame.length + (230 - 1)) / 230 * 230
  omega

theorem length_frameChunks (frame : Bytes) :
    (frameChunks frame).length = (frame.length + 229) / 230 := by
  rw [frameChunks, List.length_map, List.length_range]
  rfl

/-- Every slice holds at least one byte, and fits into a command. -/
theorem length_of_mem_frameChunks {frame chunk : Bytes} (hchunk : chunk ∈ frameChunks frame) :
    1 ≤ chunk.length ∧ chunk.length ≤ maxChunkLen := by
  obtain ⟨index, hindex, rfl⟩ := List.mem_map.mp hchunk
  have hbound : index < (frame.length + (230 - 1)) / 230 := List.mem_range.mp hindex
  rw [List.length_take, List.length_drop]
  change 1 ≤ min 230 (frame.length - index * 230) ∧ min 230 (frame.length - index * 230) ≤ 230
  omega

theorem head?_frameChunks {frame : Bytes} (hlength : 230 < frame.length) :
    (frameChunks frame).head? = some (frame.take 230) := by
  have hcount : 0 < (frame.length + (230 - 1)) / 230 := by omega
  obtain ⟨count, hcount⟩ := Nat.exists_eq_add_one_of_ne_zero hcount.ne'
  rw [frameChunks, maxFrameChunk, hcount, List.range_succ_eq_map]
  rfl

/-- The exchange is defined for every frame of more than one chunk with a length of four bytes, and
its commands deliver a cut of the frame, whose first piece is as long as it can be. -/
theorem exists_cut_of_sendSignPrefix {pathBytes frame : Bytes}
    (hpath : pathBytes.length = pathEncodedLen) (hlong : 230 < frame.length)
    (hshort : frame.length < 2 ^ 32) :
    ∃ cut : Cut frame,
      sendSignPrefix pathBytes frame = some (cut.earlierCommands pathBytes, cut.last) ∧
        (cut.earlierCommands pathBytes).length = (frame.length + 229) / 230 - 1 := by
  have hcount := length_frameChunks frame
  have hhead := head?_frameChunks hlong
  have hflatten := flatten_frameChunks frame
  have hpieces : ∀ piece ∈ frameChunks frame, 1 ≤ piece.length ∧ piece.length ≤ maxChunkLen :=
    fun _ ↦ length_of_mem_frameChunks
  obtain ⟨middles, last, hchunks⟩ : ∃ middles last,
      frameChunks frame = frame.take 230 :: (middles ++ [last]) := by
    cases hcases : frameChunks frame with
    | nil => simp [hcases] at hhead
    | cons first rest =>
      rw [hcases] at hhead hcount
      obtain rfl : first = frame.take 230 := by simpa using hhead
      have hrest : rest ≠ [] := by
        rintro rfl
        simp at hcount
        omega
      exact ⟨rest.dropLast, rest.getLast hrest, by rw [List.dropLast_append_getLast]⟩
  rw [hchunks] at hcount hflatten hpieces
  have hfirst : (frame.take 230).length = 230 := List.length_take_of_le hlong.le
  have hdata : (u32ToBeBytes (UInt32.ofNat frame.length) ++ pathBytes ++
      frame.take 230).length = 255 := by
    rw [List.length_append, List.length_append, length_u32ToBeBytes, hpath, hfirst]
    rfl
  refine ⟨⟨frame.take 230, middles, last, ?_, hpieces⟩, ?_, ?_⟩
  · simpa using hflatten
  · have htwo : 2 ≤ (frame.take 230 :: (middles ++ [last])).length := by simp
    have hlast : (frame.take 230 :: (middles ++ [last])).getLast? = some last := by
      rw [← List.cons_append, List.getLast?_concat]
    simp only [sendSignPrefix, hchunks, htwo, hshort, hdata, hlast, guard, if_true,
      List.head?_cons, List.tail_cons, List.dropLast_concat, Option.bind_eq_bind,
      Option.bind_some, Option.pure_def]
    rfl
  · rw [← hcount]
    simp [Cut.earlierCommands]

/-! ## The answers -/

variable [Target]

section Iterations

variable {received : Received} {header : DeviceApduHeader}

/-- A reset succeeds in every phase. -/
theorem iterate_of_reset {phase : Phase} (hcarries : Carries received resetCommand) :
    iterate phase.represent received =
      some ⟨Phase.idle.represent, [.sent [] 0x9000 received.sends]⟩ := by
  have hdispatch : dispatch phase.represent resetCommand received.deriver
      devnetAssetTransferPolicy = { session := .new, outcome := .success .empty } := by
    rw [← phase.wipe_represent]
    rfl
  rw [← hcarries.apduCommand_eq] at hdispatch
  have hsession : _ = Phase.idle.represent := congrArg Dispatched.session hdispatch
  have hiterate := iterate_of_reply hcarries.header_eq hsession
    (congrArg Dispatched.outcome hdispatch) (congrArg Dispatched.derivations hdispatch) rfl
  rw [hiterate, answerReply_empty, kept_idle]
  rfl

section Sign

variable (hheader : received.header = .ok header)

include hheader

theorem iterate_of_opens {path : DerivationPath}
    (hsign : IsSign (received.apduCommand header) signP1First)
    (hopens : OpensCollection received.data path) :
    iterate Phase.idle.represent received =
      some ⟨(received.kept (.collecting (.opened hopens))).represent,
        [.sent [] 0x9000 received.sends]⟩ := by
  obtain ⟨next, hsession, hdispatches⟩ := dispatch_represent .idle (received.apduCommand header)
    received.deriver devnetAssetTransferPolicy
  obtain ⟨rfl, houtcome, hderivations⟩ := hdispatches.of_opens hsign hopens
  rw [iterate_of_reply hheader hsession houtcome hderivations rfl, answerReply_empty]
  rfl

theorem iterate_of_extends {collection : Collection}
    (hsign : IsSign (received.apduCommand header) signP1Continue)
    (hextends : ExtendsCollection collection received.data) :
    iterate (Phase.collecting collection).represent received =
      some ⟨(received.kept (.collecting (.extended hextends))).represent,
        [.sent [] 0x9000 received.sends]⟩ := by
  obtain ⟨next, hsession, hdispatches⟩ := dispatch_represent (.collecting collection)
    (received.apduCommand header) received.deriver devnetAssetTransferPolicy
  obtain ⟨rfl, houtcome, hderivations⟩ := hdispatches.of_extends hsign hextends
  rw [iterate_of_reply hheader hsession houtcome hderivations rfl, answerReply_empty]
  rfl

/-- A `LAST` that does not pass the check is answered with the status word of its failure. -/
theorem iterate_of_unchecked {collection : Collection} {status : StatusWord}
    (hsign : IsSign (received.apduCommand header) signP1Last)
    (hcompletes : CompletesCollection collection received.data)
    (hcheck : oneShotCheck collection.path (collection.content ++ received.data) received.deriver
      devnetAssetTransferPolicy = .error status) :
    iterate (Phase.collecting collection).represent received =
      some ⟨Phase.idle.represent,
        (oneShotDerivations collection.path (collection.content ++ received.data)
          received.deriver).map .derived ++ [.sent [] status.code received.sends]⟩ := by
  obtain ⟨next, hsession, hdispatches⟩ := dispatch_represent (.collecting collection)
    (received.apduCommand header) received.deriver devnetAssetTransferPolicy
  obtain ⟨hnext, houtcome, hderivations⟩ := hdispatches.of_completes hsign hcompletes
  change _ = sessionOfCheck _ _ (oneShotCheck _ (collection.content ++ received.data) _ _) at hnext
  change _ = outcomeOfCheck (oneShotCheck _ (collection.content ++ received.data) _ _) at houtcome
  rw [hcheck] at hnext houtcome
  have hidle : _ = Phase.idle.represent := hsession.trans hnext
  rw [iterate_of_reply hheader hidle houtcome hderivations rfl,
    answerReply_failure received (ne_success_of_oneShotCheck hcheck)]
  rfl

/-- A `LAST` that completes a transfer of the key of the path is put before the user. -/
theorem iterate_of_reviewed {collection : Collection} {transfer : Transfer}
    (hsign : IsSign (received.apduCommand header) signP1Last)
    (hcompletes : CompletesCollection collection received.data)
    (hcheck : oneShotCheck collection.path (collection.content ++ received.data) received.deriver
      devnetAssetTransferPolicy = .ok transfer.review) :
    iterate (Phase.collecting collection).represent received =
      (answerTransaction received (Phase.awaiting (.completed hcompletes hcheck)).represent
        transfer.review).map fun iteration ↦ { iteration with
          events := .derived ⟨collection.path, received.deriver collection.path⟩ ::
            iteration.events } := by
  obtain ⟨next, hsession, hdispatches⟩ := dispatch_represent (.collecting collection)
    (received.apduCommand header) received.deriver devnetAssetTransferPolicy
  obtain ⟨hnext, houtcome, hderivations⟩ := hdispatches.of_completes hsign hcompletes
  change _ = sessionOfCheck _ _ (oneShotCheck _ (collection.content ++ received.data) _ _) at hnext
  change _ = outcomeOfCheck (oneShotCheck _ (collection.content ++ received.data) _ _) at houtcome
  change _ = oneShotDerivations _ (collection.content ++ received.data) _ at hderivations
  rw [hcheck] at hnext houtcome
  rw [oneShotDerivations_of_ok hcheck] at hderivations
  have hawaiting : _ = (Phase.awaiting (.completed hcompletes hcheck)).represent :=
    hsession.trans hnext
  exact iterate_of_reviewTransaction hheader hawaiting houtcome hderivations rfl

end Sign

end Iterations

/-- What the `LAST` of a transfer is answered with: a transfer of another key is refused before any
review, and one of the key of the path is signed if the user approves. -/
def transferAnswer (path : DerivationPath) (transfer : Transfer) (received : Received) :
    List DeviceEvent :=
  .derived ⟨path, received.deriver path⟩ ::
    match received.deriver path with
    | none => [.sent [] 0x6F00 received.sends]
    | some publicKey =>
      if publicKey ≠ transfer.sender.bytes then [.sent [] 0x6A80 received.sends]
      else if received.approves then
        [.showedTransaction (transferLines transfer) true,
          .signed ⟨path, transfer.bytes, received.signer path transfer.bytes⟩] ++
        (received.signer path transfer.bytes).elim
          [.sent [] 0x6F00 received.sends, .showedStatus .transaction false, .showedHome]
          fun signature ↦ [.sent signature.toList 0x9000 received.sends,
            .showedStatus .transaction true, .showedHome]
      else [.showedTransaction (transferLines transfer) false, .sent [] 0x6985 received.sends,
        .showedStatus .transaction false, .showedHome]

omit [Target] in
theorem sent_signature_mem_transferAnswer {path : DerivationPath} {transfer : Transfer}
    {received : Received} {signature : ByteArrayN 64}
    (hkey : received.deriver path = some transfer.sender.bytes)
    (happroves : received.approves = true)
    (hsigner : received.signer path transfer.bytes = some signature) :
    .sent signature.toList 0x9000 received.sends ∈ transferAnswer path transfer received := by
  simp [transferAnswer, hkey, happroves, hsigner]

omit [Target] in
theorem signed_mem_transferAnswer {path : DerivationPath} {transfer : Transfer}
    {received : Received} (hkey : received.deriver path = some transfer.sender.bytes)
    (happroves : received.approves = true) :
    .signed ⟨path, transfer.bytes, received.signer path transfer.bytes⟩ ∈
      transferAnswer path transfer received := by
  simp [transferAnswer, hkey, happroves]

/-- The `LAST` of a transfer. -/
theorem iterate_of_transfer {received : Received} {header : DeviceApduHeader}
    {collection : Collection} {transfer : Transfer} (hheader : received.header = .ok header)
    (hsign : IsSign (received.apduCommand header) signP1Last)
    (hcompletes : CompletesCollection collection received.data)
    (hframed : collection.content ++ received.data = transfer.bytes) :
    iterate (Phase.collecting collection).represent received =
      some ⟨Phase.idle.represent, transferAnswer collection.path transfer received⟩ := by
  cases hkey : received.deriver collection.path with
  | none =>
    have hcheck := oneShotCheck_of_underivable transfer hkey
    rw [← hframed] at hcheck
    rw [iterate_of_unchecked hheader hsign hcompletes hcheck, hframed, oneShotDerivations_bytes,
      transferAnswer, hkey]
    rfl
  | some publicKey =>
    by_cases hsender : publicKey = transfer.sender.bytes
    case neg =>
      have hcheck := oneShotCheck_of_stranger transfer hkey hsender
      rw [← hframed] at hcheck
      rw [iterate_of_unchecked hheader hsign hcompletes hcheck, hframed, oneShotDerivations_bytes,
        transferAnswer, hkey]
      simp only [ne_eq, hsender, not_false_eq_true, if_true]
      rfl
    subst hsender
    have hcheck := oneShotCheck_of_sender transfer hkey
    rw [← hframed] at hcheck
    have hpending : (PendingReview.completed hcompletes hcheck).framed = transfer.bytes := hframed
    rw [iterate_of_reviewed hheader hsign hcompletes hcheck, answerTransaction_transfer, hpending,
      transferAnswer, hkey]
    simp only [ne_eq, not_true_eq_false, if_false]
    rfl

/-! ## The whole exchange -/

/-- A reply of success without data. -/
def emptySuccess : List DeviceEvent := [.sent [] 0x9000 true]

theorem step_of_iterate {session : SigningSession} {received : Received} {iteration : Iteration}
    (hiterate : iterate session received = some iteration) :
    normalMain.step (.running session) received = (.running iteration.session, iteration.events) := by
  simp only [normalMain, hiterate]

theorem kept_of_sends {received : Received} (hsends : received.sends = true) (next : Phase) :
    received.kept next = next := by
  rw [Received.kept, if_pos hsends]

/-- A `FIRST` that is carried opens its collection. -/
theorem step_of_opens {received : Received} {data : Bytes} {path : DerivationPath}
    (hcarries : Carries received (signCommand signP1First data)) (hopens : OpensCollection data path) :
    normalMain.step (.running Phase.idle.represent) received =
      (.running (Phase.collecting (.opened hopens)).represent, emptySuccess) := by
  obtain rfl : received.data = data := hcarries.data_eq
  have hsign : IsSign (received.apduCommand _) signP1First :=
    hcarries.apduCommand_eq ▸ isSign_signCommand signP1First _
  have hiterate := iterate_of_opens hcarries.header_eq hsign hopens
  rw [kept_of_sends hcarries.sends_eq, hcarries.sends_eq] at hiterate
  exact step_of_iterate hiterate

/-- A `CONTINUE` that is carried extends the collection. -/
theorem step_of_extends {received : Received} {data : Bytes} {collection : Collection}
    (hcarries : Carries received (signCommand signP1Continue data))
    (hextends : ExtendsCollection collection data) :
    normalMain.step (.running (Phase.collecting collection).represent) received =
      (.running (Phase.collecting (.extended hextends)).represent, emptySuccess) := by
  obtain rfl : received.data = data := hcarries.data_eq
  have hsign : IsSign (received.apduCommand _) signP1Continue :=
    hcarries.apduCommand_eq ▸ isSign_signCommand signP1Continue _
  have hiterate := iterate_of_extends hcarries.header_eq hsign hextends
  rw [kept_of_sends hcarries.sends_eq, hcarries.sends_eq] at hiterate
  exact step_of_iterate hiterate

/-- The middle pieces of a cut are collected one after the other. -/
theorem exists_collection_of_continues {middles : List Bytes} {continues : List Received}
    (hcarries : List.Forall₂ Carries continues (middles.map (signCommand signP1Continue)))
    (collection : Collection)
    (hlength : ∀ middle ∈ middles, 1 ≤ middle.length ∧ middle.length ≤ maxChunkLen)
    (hshort : collection.content.length + middles.flatten.length < collection.total.toNat) :
    ∃ collected : Collection, collected.path = collection.path ∧
      collected.total = collection.total ∧
      collected.content = collection.content ++ middles.flatten ∧
      normalMain.run (.running (Phase.collecting collection).represent) continues =
        .running (Phase.collecting collected).represent ∧
      (normalMain.history (.running (Phase.collecting collection).represent) continues).map
        Prod.snd = List.replicate continues.length emptySuccess := by
  induction middles generalizing collection continues with
  | nil =>
    obtain rfl := List.forall₂_nil_right_iff.mp hcarries
    exact ⟨collection, rfl, rfl, by simp, rfl, rfl⟩
  | cons middle middles ih =>
    obtain ⟨received, continues, hreceived, hrest, rfl⟩ :=
      List.forall₂_cons_right_iff.mp hcarries
    rw [List.flatten_cons, List.length_append] at hshort
    have hmiddle := hlength middle (List.mem_cons_self ..)
    have hextends : ExtendsCollection collection middle :=
      ⟨List.length_pos_iff.mp hmiddle.1, hmiddle.2, by omega⟩
    have hstep := step_of_extends hreceived hextends
    have hleft : (Collection.extended hextends).content.length + middles.flatten.length <
        (Collection.extended hextends).total.toNat := by
      change (collection.content ++ middle).length + _ < collection.total.toNat
      rw [List.length_append]
      omega
    obtain ⟨collected, hpath, htotal, hcollected, hrun, hhistory⟩ :=
      ih hrest (.extended hextends)
        (fun piece hpiece ↦ hlength piece (List.mem_cons_of_mem _ hpiece)) hleft
    refine ⟨collected, hpath, htotal, ?_, ?_, ?_⟩
    · rw [hcollected, List.flatten_cons, ← List.append_assoc]
      rfl
    · exact (Machine.run_cons_of_step hstep _).trans hrun
    · rw [Machine.history_cons_of_step hstep, List.map_cons, hhistory]
      rfl

/-- The commands before `LAST` are all answered with an empty success, and collect everything but
the last piece. -/
theorem exists_collection_of_exchange {frame pathBytes : Bytes} {path : DerivationPath}
    {exchange : List Received} (cut : Cut frame) (hpath : decodePath pathBytes = .ok path)
    (hlength : frame.length ≤ maxFrameLen)
    (hcarries : List.Forall₂ Carries exchange (cut.earlierCommands pathBytes)) :
    ∃ collection : Collection, collection.path = path ∧
      collection.total.toNat = frame.length ∧
      collection.content = cut.first ++ cut.middles.flatten ∧
      normalMain.run (.running Phase.idle.represent) exchange =
        .running (Phase.collecting collection).represent ∧
      (normalMain.history (.running Phase.idle.represent) exchange).map Prod.snd =
        List.replicate exchange.length emptySuccess := by
  obtain ⟨received, continues, hreceived, hrest, rfl⟩ :=
    List.forall₂_cons_right_iff.mp hcarries
  have hopens := cut.opensCollection hpath hlength
  have hstep := step_of_opens hreceived hopens
  have htotal : (Collection.opened hopens).total.toNat = frame.length :=
    hopens.toNat_total.trans (cut.firstTotal_firstData hlength)
  have hcontent : (Collection.opened hopens).content = cut.first :=
    cut.firstChunk_firstData (length_of_decodePath hpath)
  have hshort : (Collection.opened hopens).content.length + cut.middles.flatten.length <
      (Collection.opened hopens).total.toNat := by
    have hpieces := cut.length_eq
    have hlast := cut.last_length
    rw [htotal, hcontent]
    omega
  obtain ⟨collection, hcollectionPath, hcollectionTotal, hcollectionContent, hrun, hhistory⟩ :=
    exists_collection_of_continues hrest _ cut.middle_length hshort
  refine ⟨collection, hcollectionPath, ?_, ?_, ?_, ?_⟩
  · rw [hcollectionTotal, htotal]
  · rw [hcollectionContent, hcontent]
  · exact (Machine.run_cons_of_step hstep _).trans hrun
  · rw [Machine.history_cons_of_step hstep, List.map_cons, hhistory]
    rfl

/-- On an idle session, the commands before `LAST` are accepted, and `LAST` is answered as the key
of the path, the user and the signer demand. -/
theorem step_last_of_exchange {pathBytes : Bytes} {path : DerivationPath} {transfer : Transfer}
    {exchange : List Received} {last : Received} (cut : Cut transfer.bytes)
    (hpath : decodePath pathBytes = .ok path)
    (hexchange : List.Forall₂ Carries exchange (cut.earlierCommands pathBytes))
    (hlast : Carries last (signCommand signP1Last cut.last)) :
    (normalMain.history (.running Phase.idle.represent) exchange).map Prod.snd =
        List.replicate exchange.length emptySuccess ∧
      normalMain.step (normalMain.run (.running Phase.idle.represent) exchange) last =
        (.running Phase.idle.represent, transferAnswer path transfer last) := by
  have hlength : transfer.bytes.length ≤ maxFrameLen :=
    transfer.length_bytes.trans_le (by decide)
  obtain ⟨collection, rfl, htotal, hcontent, hrun, hhistory⟩ :=
    exists_collection_of_exchange cut hpath hlength hexchange
  have hdata : last.data = cut.last := hlast.data_eq
  have hframed : collection.content ++ last.data = transfer.bytes := by
    rw [hcontent, hdata, cut.pieces_eq]
  have hcompletes : CompletesCollection collection last.data := by
    have hchunk := cut.last_length
    rw [← hdata] at hchunk
    refine ⟨List.length_pos_iff.mp hchunk.1, hchunk.2, ?_⟩
    rw [← List.length_append, hframed, htotal]
  have hsign : IsSign (last.apduCommand _) signP1Last :=
    hlast.apduCommand_eq ▸ isSign_signCommand signP1Last _
  have hiterate := iterate_of_transfer hlast.header_eq hsign hcompletes hframed
  exact ⟨hhistory, by rw [hrun, step_of_iterate hiterate]⟩

/-- For every way to receive commands, there is an exchange for a transfer under the first account
that is answered in its last step. -/
theorem exists_step_of_exchange {receive : ApduCommand → Received}
    (hreceive : ∀ command, Carries (receive command) command) (transfer : Transfer) :
    ∃ inputs command, normalMain.step (normalMain.run (.running .new) inputs) (receive command) =
      (.running Phase.idle.represent, transferAnswer originPath transfer (receive command)) := by
  have hpath : decodePath originPathBytes = .ok originPath := by decide
  have hbytes := transfer.length_bytes
  obtain ⟨cut, -, -⟩ := exists_cut_of_sendSignPrefix (length_of_decodePath hpath)
    (by rw [hbytes]; decide : 230 < transfer.bytes.length) (by rw [hbytes]; decide)
  have hexchange : List.Forall₂ Carries ((cut.earlierCommands originPathBytes).map receive)
      (cut.earlierCommands originPathBytes) :=
    List.forall₂_map_left_iff.mpr (List.forall₂_same.mpr fun command _ ↦ hreceive command)
  exact ⟨_, _, (step_last_of_exchange cut hpath hexchange (hreceive _)).2⟩

/-- After every run of the loop, a reset and the exchange of the host for a transfer are answered as
follows: the reset and the five commands before `LAST` with an empty success each, and `LAST` as the
key of the path, the user and the signer demand.  The application then waits for commands again,
with a new session. -/
theorem normalMain_answers_exchange (earlier : List Received) {pathBytes : Bytes}
    {path : DerivationPath} (hpath : decodePath pathBytes = .ok path) (transfer : Transfer) :
    ∃ commands chunk, sendSignPrefix pathBytes transfer.bytes = some (commands, chunk) ∧
      commands.length = 5 ∧
      ∀ reset exchange last, Carries reset resetCommand → List.Forall₂ Carries exchange commands →
        Carries last (signCommand signP1Last chunk) →
        (normalMain.history (normalMain.run (.running .new) earlier)
            (reset :: (exchange ++ [last]))).map Prod.snd =
          List.replicate 6 emptySuccess ++ [transferAnswer path transfer last] ∧
        normalMain.run (.running .new) (earlier ++ reset :: (exchange ++ [last])) =
          .running .new := by
  have hbytes := transfer.length_bytes
  obtain ⟨cut, hsend, hcount⟩ := exists_cut_of_sendSignPrefix (length_of_decodePath hpath)
    (by rw [hbytes]; decide : 230 < transfer.bytes.length) (by rw [hbytes]; decide)
  rw [hbytes] at hcount
  refine ⟨_, _, hsend, hcount, ?_⟩
  intro reset exchange last hreset hexchange hlast
  obtain ⟨phase, hphase, -⟩ := runsAtHead_run earlier
  have hiterate : iterate phase.represent reset = _ := iterate_of_reset hreset
  rw [hreset.sends_eq] at hiterate
  have hresetStep := step_of_iterate hiterate
  obtain ⟨hhistory, hlastStep⟩ := step_last_of_exchange cut hpath hexchange hlast
  rw [hexchange.length_eq, hcount] at hhistory
  constructor
  · rw [hphase, Machine.history_cons_of_step hresetStep, Machine.history_append,
      Machine.history_cons_of_step hlastStep, Machine.history_nil, List.map_cons, List.map_append,
      hhistory]
    rfl
  · rw [Machine.run_append, hphase, Machine.run_cons_of_step hresetStep, Machine.run_append,
      Machine.run_cons_of_step hlastStep]
    rfl

omit [Target] in
/-- A received command, where the key of every path is the sender of the transfer of one unit, the
user approves and the signer answers. -/
def approving (command : ApduCommand) : Received where
  header := .ok ⟨command.cla, command.ins, command.p1, command.p2⟩
  data := command.data
  deriver _ := some unitTransfer.sender.bytes
  signer _ _ := some (List.Vector.replicate 64 0)
  approves := true
  sends := true

omit [Target] in
theorem carries_approving (command : ApduCommand) : Carries (approving command) command :=
  ⟨rfl, rfl, rfl⟩

omit [Target] in
/-- The transfer of one unit is signed. -/
theorem normalMain_answers_exchange_unitTransfer :
    let _ : Target := .device
    ∃ commands chunk, sendSignPrefix originPathBytes unitTransfer.bytes = some (commands, chunk) ∧
      (normalMain.history (.running .new) (approving resetCommand ::
          (commands.map approving ++ [approving (signCommand signP1Last chunk)]))).map Prod.snd =
        List.replicate 6 emptySuccess ++ [transferAnswer originPath unitTransfer
          (approving (signCommand signP1Last chunk))] ∧
      .sent (List.Vector.replicate 64 0).toList 0x9000 true ∈ transferAnswer originPath unitTransfer
        (approving (signCommand signP1Last chunk)) := by
  intro target
  have hpath : decodePath originPathBytes = .ok originPath := by decide
  obtain ⟨commands, chunk, hsend, -, hanswers⟩ :=
    normalMain_answers_exchange [] hpath unitTransfer
  have hexchange : List.Forall₂ Carries (commands.map approving) commands :=
    List.forall₂_map_left_iff.mpr (List.forall₂_same.mpr fun command _ ↦ carries_approving command)
  exact ⟨commands, chunk, hsend, (hanswers _ _ _ (carries_approving _) hexchange
    (carries_approving _)).1, sent_signature_mem_transferAnswer rfl rfl rfl⟩

end SunriseEdgeLedger.Device
