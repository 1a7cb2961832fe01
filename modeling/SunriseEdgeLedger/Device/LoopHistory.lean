import SunriseEdgeLedger.Core.CollectionPhase
import SunriseEdgeLedger.Device.HostExchange

/-!
# What a signature says about the commands before it

While the loop collects a frame, the iterations directly before are the accepted commands that
delivered what is collected, and each of them was told so.  A signer is therefore only called on the
frame that the host has just delivered, in at least as many commands as the frame needs, and on the
frame that the lines on the screen stand for.
-/

namespace SunriseEdgeLedger.Device

open SunriseEdgeLedger.Foundation SunriseEdgeLedger.Core

/-- What was received in an iteration, and its events. -/
abbrev LoopEvent := Received × List DeviceEvent

/-- An iteration that accepted a command of `sign transaction` with given data, and sent its
success. -/
structure AcceptedIteration (p1 : UInt8) (iteration : LoopEvent) (data : Bytes) : Prop where
  exists_header : ∃ header, iteration.1.header = .ok header ∧
    IsSign (iteration.1.apduCommand header) p1
  data_eq : iteration.1.data = data
  sends_eq : iteration.1.sends = true
  events_eq : iteration.2 = [.sent [] 0x9000 true]

/-- The iterations that collect a content: an accepted `FIRST`, and accepted `CONTINUE`s. -/
def CollectingIterations (iterations : List LoopEvent) (path : DerivationPath) (total : ℕ)
    (content : Bytes) : Prop :=
  ∃ first continues firstData chunks, iterations = first :: continues ∧
    AcceptedIteration signP1First first firstData ∧
    List.Forall₂ (AcceptedIteration signP1Continue) continues chunks ∧
    OpensCollection firstData path ∧
    (∀ chunk ∈ chunks, 1 ≤ chunk.length ∧ chunk.length ≤ maxChunkLen) ∧
    total = firstTotal firstData ∧ content = firstChunk firstData ++ chunks.flatten

/-- So many pieces hold at most so many bytes. -/
theorem CollectingIterations.length_content_le {iterations : List LoopEvent}
    {path : DerivationPath} {total : ℕ} {content : Bytes}
    (hcollecting : CollectingIterations iterations path total content) :
    content.length ≤ iterations.length * maxChunkLen := by
  obtain ⟨first, continues, firstData, chunks, rfl, -, hcontinues, hopens, hchunks, -, rfl⟩ :=
    hcollecting
  have hfirst : (firstChunk firstData).length ≤ maxChunkLen :=
    length_firstChunk_le hopens.length_le
  have hrest : chunks.flatten.length ≤ chunks.length * maxChunkLen := by
    have hpieces : ∀ length ∈ chunks.map List.length, length ≤ maxChunkLen := by
      intro length hlength
      obtain ⟨chunk, hchunk, rfl⟩ := List.mem_map.mp hlength
      exact (hchunks chunk hchunk).2
    calc
      chunks.flatten.length = (chunks.map List.length).sum := List.length_flatten
      _ ≤ (chunks.map List.length).length • maxChunkLen := List.sum_le_card_nsmul _ _ hpieces
      _ = chunks.length * maxChunkLen := by rw [List.length_map, smul_eq_mul]
  rw [List.length_append, List.length_cons, hcontinues.length_eq, Nat.succ_mul]
  omega

variable [Target]

/-- How the iterations so far explain a phase. -/
def ExplainsLoop (past : List LoopEvent) : Phase → Prop
  | .idle => True
  | .collecting collection => ∃ earlier iterations, past = earlier ++ iterations ∧
      CollectingIterations iterations collection.path collection.total.toNat collection.content
  | .awaiting _ => False

/-- An iteration that opened or extended a collection is one that was accepted, if the collection is
kept. -/
theorem ExplainsLoop.kept {past : List LoopEvent} {received : Received} {next : Phase}
    (hexplains : received.sends = true → ExplainsLoop past next) :
    ExplainsLoop past (received.kept next) := by
  unfold Received.kept
  split_ifs with hsends
  · exact hexplains hsends
  · trivial

/-- Every iteration keeps the phase explained. -/
theorem Iterates.explainsLoop {past : List LoopEvent} {received : Received} {phase next : Phase}
    {events : List DeviceEvent} (hiterates : Iterates received phase next events)
    (hexplains : ExplainsLoop past phase) : ExplainsLoop (past ++ [(received, events)]) next := by
  cases hiterates with
  | opened hheader hsign hopens =>
    refine ExplainsLoop.kept fun hsends ↦ ⟨past, [_], rfl, ?_⟩
    exact ⟨_, [], _, [], rfl, ⟨⟨_, hheader, hsign⟩, rfl, hsends, by rw [hsends]⟩, .nil, hopens,
      by simp, hopens.toNat_total, by simp [Collection.opened]⟩
  | extended hheader hsign hextends =>
    refine ExplainsLoop.kept fun hsends ↦ ?_
    obtain ⟨earlier, _, rfl, first, continues, firstData, chunks, rfl, hfirst, hcontinues, hopens,
      hchunks, htotal, hcontent⟩ := hexplains
    refine ⟨earlier, first :: (continues ++ [_]), by rw [List.append_assoc]; rfl, first, _,
      firstData, chunks ++ [received.data], rfl, hfirst, ?_, hopens, ?_, htotal, ?_⟩
    · exact List.rel_append hcontinues
        (.cons ⟨⟨_, hheader, hsign⟩, rfl, hsends, by rw [hsends]⟩ .nil)
    · intro chunk hchunk
      rcases List.mem_append.mp hchunk with hold | hnew
      · exact hchunks chunk hold
      · obtain rfl := List.mem_singleton.mp hnew
        exact ⟨List.length_pos_iff.mpr hextends.data_ne, hextends.length_le⟩
    · simp [Collection.extended, hcontent]
  | _ => trivial

/-- The application is at the head of its loop with a session that the past explains. -/
def ExplainedLoop (past : List LoopEvent) (state : LoopState) : Prop :=
  ∃ phase : Phase, state = .running phase.represent ∧ AtHead phase ∧ ExplainsLoop past phase

/-- Every run explains the session that it ends in. -/
theorem explainedLoop_run (inputs : List Received) :
    ExplainedLoop (normalMain.history (.running .new) inputs)
      (normalMain.run (.running .new) inputs) := by
  have hstep : ∀ past state received, ExplainedLoop past state →
      ExplainedLoop (past ++ [(received, (normalMain.step state received).2)])
        (normalMain.step state received).1 := by
    rintro past _ received ⟨phase, rfl, hhead, hexplains⟩
    obtain ⟨next, events, hstep, hnext, hiterates⟩ := step_normalMain hhead received
    rw [hstep]
    exact ⟨next, rfl, hnext, hiterates.explainsLoop hexplains⟩
  have hinitial : ExplainedLoop [] (.running .new) := ⟨.idle, rfl, atHead_idle, trivial⟩
  exact Machine.history_invariant ExplainedLoop hstep hinitial inputs

/-! ## Signatures and screens -/

/-- An iteration calls the signer only to complete a collection. -/
theorem Iterates.of_signed {received : Received} {phase next : Phase} {events : List DeviceEvent}
    (hiterates : Iterates received phase next events) {signing : Signing}
    (hsigned : .signed signing ∈ events) :
    ∃ collection header transfer, phase = .collecting collection ∧
      received.header = .ok header ∧ IsSign (received.apduCommand header) signP1Last ∧
      CompletesCollection collection received.data ∧
      collection.content ++ received.data = transfer.bytes ∧
      received.deriver collection.path = some transfer.sender.bytes ∧
      signing = ⟨collection.path, transfer.bytes, received.signer collection.path transfer.bytes⟩ ∧
      .showedTransaction (transferLines transfer) true ∈ events := by
  cases hiterates with
  | unsigned hheader hsign hcompletes hframed hkey happroves hsigner =>
    refine ⟨_, _, _, rfl, hheader, hsign, hcompletes, hframed, hkey, ?_, by simp⟩
    rw [hsigner]
    simpa using hsigned
  | signed hheader hsign hcompletes hframed hkey happroves hsigner =>
    refine ⟨_, _, _, rfl, hheader, hsign, hcompletes, hframed, hkey, ?_, by simp⟩
    rw [hsigner]
    simpa using hsigned
  | _ => simp at hsigned

/-- Whenever an iteration calls the signer, it received the `LAST` of a delivery whose other
commands are exactly the iterations directly before: an accepted `FIRST` with the path that is
signed with and the length of the frame, and accepted `CONTINUE`s, all of them answered with an
empty success that was sent.  The signed frame is what these commands carried, one chunk behind the
other, it is the encoding of the transfer whose lines the user approved, and its sender is the key
of the path.  At least five commands precede the `LAST`. -/
theorem normalMain_signs_delivered_frame (inputs : List Received) (received : Received) :
    ∀ signing, .signed signing ∈
        (normalMain.step (normalMain.run (.running .new) inputs) received).2 →
      ∃ earlier iterations content header transfer,
        normalMain.history (.running .new) inputs = earlier ++ iterations ∧
        CollectingIterations iterations signing.path signing.frame.length content ∧
        received.header = .ok header ∧ IsSign (received.apduCommand header) signP1Last ∧
        signing.frame = content ++ received.data ∧ signing.frame = transfer.bytes ∧
        .showedTransaction (transferLines transfer) true ∈
          (normalMain.step (normalMain.run (.running .new) inputs) received).2 ∧
        received.deriver signing.path = some transfer.sender.bytes ∧
        signing.signature = received.signer signing.path signing.frame ∧
        5 ≤ iterations.length := by
  intro signing hsigned
  obtain ⟨phase, hphase, hhead, hexplains⟩ := explainedLoop_run inputs
  obtain ⟨next, events, hstep, -, hiterates⟩ := step_normalMain hhead received
  rw [hphase, hstep] at hsigned ⊢
  obtain ⟨collection, header, transfer, rfl, hheader, hsign, hcompletes, hframed, hkey, rfl,
    hshowed⟩ := hiterates.of_signed hsigned
  obtain ⟨earlier, iterations, hpast, hcollecting⟩ := hexplains
  have htotal : collection.total.toNat = transfer.bytes.length := by
    rw [← hcompletes.length_eq, hframed]
  rw [htotal] at hcollecting
  refine ⟨earlier, iterations, collection.content, header, transfer, hpast, hcollecting, hheader,
    hsign, hframed.symm, rfl, hshowed, hkey, rfl, ?_⟩
  -- Five chunks are too few for the whole frame.
  have hcollected := hcollecting.length_content_le
  have hlast : received.data.length ≤ 230 := hcompletes.length_le
  have hlength := congrArg List.length hframed
  rw [List.length_append, transfer.length_bytes] at hlength
  change _ ≤ iterations.length * 230 at hcollected
  omega

omit [Target] in
/-- A transfer of one unit is signed, and its bytes are those that were delivered. -/
theorem normalMain_signs_delivered_frame_unitTransfer :
    let _ : Target := .device
    ∃ inputs command earlier iterations content,
      normalMain.history (.running .new) inputs = earlier ++ iterations ∧
      CollectingIterations iterations originPath unitTransfer.bytes.length content ∧
      unitTransfer.bytes = content ++ (approving command).data ∧ 5 ≤ iterations.length := by
  intro target
  obtain ⟨inputs, command, hstep⟩ := exists_step_of_exchange carries_approving unitTransfer
  have hsigned : .signed ⟨originPath, unitTransfer.bytes, some (List.Vector.replicate 64 0)⟩ ∈
      (normalMain.step (normalMain.run (.running .new) inputs) (approving command)).2 := by
    rw [hstep]
    exact signed_mem_transferAnswer rfl rfl
  obtain ⟨earlier, iterations, content, header, transfer, hhistory, hcollecting, -, -, hframe, -, -,
    -, -, hlength⟩ := normalMain_signs_delivered_frame inputs (approving command) _ hsigned
  exact ⟨inputs, command, earlier, iterations, content, hhistory, hcollecting, hframe, hlength⟩

/-- An iteration shows a transfer only to complete its collection. -/
theorem Iterates.of_showedTransaction {received : Received} {phase next : Phase}
    {events : List DeviceEvent} (hiterates : Iterates received phase next events)
    {lines : List Field} {approved : Bool} (hshowed : .showedTransaction lines approved ∈ events) :
    ∃ collection transfer, phase = .collecting collection ∧ lines = transferLines transfer ∧
      collection.content ++ received.data = transfer.bytes ∧ approved = received.approves := by
  cases hiterates with
  | declined hheader hsign hcompletes hframed hkey happroves =>
    obtain ⟨rfl, rfl⟩ : lines = _ ∧ approved = _ := by simpa using hshowed
    exact ⟨_, _, rfl, rfl, hframed, happroves.symm⟩
  | unsigned hheader hsign hcompletes hframed hkey happroves hsigner =>
    obtain ⟨rfl, rfl⟩ : lines = _ ∧ approved = _ := by simpa using hshowed
    exact ⟨_, _, rfl, rfl, hframed, happroves.symm⟩
  | signed hheader hsign hcompletes hframed hkey happroves hsigner =>
    obtain ⟨rfl, rfl⟩ : lines = _ ∧ approved = _ := by simpa using hshowed
    exact ⟨_, _, rfl, rfl, hframed, happroves.symm⟩
  | _ => simp at hshowed

/-- What is sent with the length of a signature is one, made after the transfer was shown. -/
theorem Iterates.of_sent_signature {received : Received} {phase next : Phase}
    {events : List DeviceEvent} (hiterates : Iterates received phase next events) {data : Bytes}
    {status : UInt16} {succeeded : Bool} (hsent : .sent data status succeeded ∈ events)
    (hlength : data.length = 64) :
    ∃ path transfer signature, .showedTransaction (transferLines transfer) true ∈ events ∧
      .signed ⟨path, transfer.bytes, some signature⟩ ∈ events ∧
      received.deriver path = some transfer.sender.bytes ∧
      received.signer path transfer.bytes = some signature ∧ data = signature.toList := by
  have hnonempty : data ≠ [] := by
    rintro rfl
    cases hlength
  cases hiterates with
  | configured hheader hins =>
    obtain ⟨rfl, -⟩ : data = configurationResponse.toList ∧ _ := by simpa using hsent
    cases hlength
  | @keyApproved _ _ publicKey hheader hverifies hkey happroves =>
    obtain ⟨rfl, -⟩ : data = publicKey.toList ∧ _ := by simpa using hsent
    rw [publicKey.toList_length] at hlength
    cases hlength
  | @signed collection _ transfer signature hheader hsign hcompletes hframed hkey happroves
      hsigner =>
    obtain ⟨rfl, -⟩ : data = signature.toList ∧ _ := by simpa using hsent
    exact ⟨collection.path, transfer, signature, by simp, by simp, hkey, hsigner, rfl⟩
  | _ => simp [hnonempty] at hsent

/-- What is on the screen stands for what is signed, byte by byte.  After every run, whenever a
transaction is shown, a reader of its 32 lines gets the complete frame that the host has delivered,
without any look at the frame.  Whenever the signer is called, the frame that it signs is the one
that the reader gets from the lines that were shown and approved in the same iteration, and every
signature that is sent was made so. -/
theorem normalMain_shows_what_it_signs (inputs : List Received) (received : Received) :
    (∀ lines approved, .showedTransaction lines approved ∈
        (normalMain.step (normalMain.run (.running .new) inputs) received).2 →
      lines.length = 32 ∧ approved = received.approves ∧
      ∃ session content, normalMain.run (.running .new) inputs = .running session ∧
        session.collected = some content ∧ bytesOfLines lines = some (content ++ received.data)) ∧
    (∀ signing, .signed signing ∈
        (normalMain.step (normalMain.run (.running .new) inputs) received).2 →
      ∃ lines, .showedTransaction lines true ∈
          (normalMain.step (normalMain.run (.running .new) inputs) received).2 ∧
        bytesOfLines lines = some signing.frame) ∧
    ∀ data status succeeded, .sent data status succeeded ∈
        (normalMain.step (normalMain.run (.running .new) inputs) received).2 →
      data.length = 64 → ∃ lines path framed signature,
        .showedTransaction lines true ∈
          (normalMain.step (normalMain.run (.running .new) inputs) received).2 ∧
        bytesOfLines lines = some framed ∧
        .signed ⟨path, framed, some signature⟩ ∈
          (normalMain.step (normalMain.run (.running .new) inputs) received).2 ∧
        data = signature.toList := by
  obtain ⟨phase, hphase, hhead⟩ := runsAtHead_run inputs
  obtain ⟨next, events, hstep, -, hiterates⟩ := step_normalMain hhead received
  rw [hphase, hstep]
  refine ⟨?_, ?_, ?_⟩
  · intro lines approved hshowed
    obtain ⟨collection, transfer, rfl, rfl, hframed, happroved⟩ :=
      hiterates.of_showedTransaction hshowed
    refine ⟨length_transferLines transfer, happroved, _, _, rfl, Phase.collected_represent _, ?_⟩
    rw [bytesOfLines_transferLines, ← hframed]
    rfl
  · intro signing hsigned
    obtain ⟨collection, header, transfer, -, -, -, -, -, -, rfl, hshowed⟩ :=
      hiterates.of_signed hsigned
    exact ⟨_, hshowed, bytesOfLines_transferLines transfer⟩
  · intro data status succeeded hsent hlength
    obtain ⟨path, transfer, signature, hshowed, hsigned, -, -, hdata⟩ :=
      hiterates.of_sent_signature hsent hlength
    exact ⟨_, path, _, signature, hshowed, bytesOfLines_transferLines transfer, hsigned, hdata⟩

end SunriseEdgeLedger.Device
