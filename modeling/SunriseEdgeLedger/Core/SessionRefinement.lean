import SunriseEdgeLedger.Core.SessionPhase

/-!
# The dispatcher refines the phases

Each handler is described on the representation of a phase: when it succeeds and what it leaves, and
that an early return always leaves a session which wipes to a new one.  Together the handlers show
that dispatching a command on a represented phase is one of the cases of `Dispatches`.
-/

namespace SunriseEdgeLedger.Core

open Foundation

/-- An early return that is the sender's fault, made before any derivation. -/
structure Refusal.Plain (refusal : Refusal) : Prop where
  wipe_eq : refusal.session.wipe = .new
  status : refusal.status.IsRefusal
  derivations_eq : refusal.derivations = []

theorem Refusal.Plain.dispatched_eq {refusal : Refusal} (hplain : refusal.Plain) :
    refusal.dispatched = { session := .new, outcome := .failure refusal.status } := by
  rw [Refusal.dispatched, hplain.wipe_eq, hplain.derivations_eq]

theorem wipe_new : SigningSession.new.wipe = .new := wipe_stored (Nat.zero_le _)

variable [Target]

section First

variable {data : Bytes}

omit [Target] in
theorem toNat_total_eq_firstTotal {array : ByteArrayN 4}
    (harray : (data.take 4).drop 0 = array.toList) :
    (u32FromBeBytes array).toNat = firstTotal data := by
  rw [toNat_u32FromBeBytes, firstTotal, ← harray, List.drop_zero]

omit [Target] in
theorem drop_take_eq_firstPathBytes :
    (data.take (4 + pathEncodedLen)).drop 4 = firstPathBytes data := by
  rw [List.drop_take, firstPathBytes, Nat.add_sub_cancel_left]

omit [Target] in
theorem drop_take_eq_firstChunk :
    (data.take data.length).drop (4 + pathEncodedLen) = firstChunk data := by
  rw [List.take_length, firstChunk]

omit [Target] in
theorem length_firstChunk_le (hmax : data.length ≤ firstMaxDataLen) :
    (firstChunk data).length ≤ maxChunkLen := by
  have hmax' : data.length ≤ 255 := hmax
  have hlength := length_firstChunk data
  change (firstChunk data).length ≤ 230
  omega

/-- An idle session accepts exactly the data that open a collection. -/
theorem handleFirst_new_eq_ok_iff {dispatched : Dispatched} :
    handleFirst .new data = .ok dispatched ↔
      ∃ path, OpensCollection data path ∧ dispatched = {
        session := stored .collecting (some path) (UInt32.ofNat (firstTotal data)) (firstChunk data)
        outcome := .success .empty
      } := by
  simp only [handleFirst, bind_eq_ok_iff, ensure_eq_ok_iff, okOr_eq_ok_iff, mapError_eq_ok_iff,
    getRange_eq_some_iff, arrayOf?_eq_some_iff, usizeTryFrom_eq, Option.some.injEq,
    Except.ok.injEq, drop_take_eq_firstPathBytes, drop_take_eq_firstChunk]
  constructor
  · rintro ⟨-, -, -, hmin, -, hmax, _, ⟨-, -, rfl⟩, array, harray, _, rfl, -, ⟨-, htotal⟩, _,
      ⟨-, -, rfl⟩, path, hpath, _, ⟨-, -, rfl⟩, -, hne, session, hsession, rfl⟩
    have hfirst := toNat_total_eq_firstTotal harray
    change (stored .collecting (some path) (u32FromBeBytes array) []).appendChunk _ = _ at hsession
    rw [appendChunk_stored (Nat.zero_le _) (length_firstChunk_le hmax) htotal] at hsession
    split_ifs at hsession with hfits
    obtain rfl := Except.ok.inj hsession
    rw [hfirst] at htotal hne
    rw [hfirst, List.length_nil, Nat.zero_add] at hfits
    refine ⟨path, ⟨hmin, hmax, hpath, hfits.lt_of_ne' hne, htotal⟩, ?_⟩
    rw [← hfirst, UInt32.ofNat_toNat, List.nil_append]
  · rintro ⟨path, hopens, rfl⟩
    have hmin : 26 ≤ data.length := hopens.length_ge
    have hpathLen : 4 + pathEncodedLen = 25 := rfl
    have htake : ((data.take 4).drop 0).length = 4 := by simp; omega
    have hfirst : (u32FromBeBytes ⟨_, htake⟩).toNat = firstTotal data :=
      toNat_total_eq_firstTotal rfl
    have hnonzero : u32FromBeBytes ⟨_, htake⟩ ≠ 0 := by
      intro hzero
      rw [hzero] at hfirst
      exact Nat.not_lt_zero _ (hfirst.symm ▸ hopens.chunk_lt)
    have hbounded : (u32FromBeBytes ⟨_, htake⟩).toNat ≤ maxFrameLen := by
      rw [hfirst]
      exact hopens.total_le
    have happend : (stored .collecting (some path) (u32FromBeBytes ⟨_, htake⟩) []).appendChunk
        (firstChunk data) = _ :=
      appendChunk_stored (Nat.zero_le _) (length_firstChunk_le hopens.length_le) hbounded
    rw [hfirst, List.length_nil, Nat.zero_add, if_pos hopens.chunk_lt.le, List.nil_append]
      at happend
    refine ⟨⟨⟩, rfl, ⟨⟩, hopens.length_ge, ⟨⟩, hopens.length_le, _, ⟨by omega, by omega, rfl⟩,
      ⟨_, htake⟩, rfl, _, rfl, ⟨⟩, ⟨hnonzero, hbounded⟩, _, ⟨by omega, by omega, rfl⟩, path,
      hopens.path_eq, _, ⟨by omega, le_rfl, rfl⟩, ⟨⟩, ?_, _, happend, ?_⟩
    · rw [hfirst]
      exact hopens.chunk_lt.ne'
    · rw [← hfirst, UInt32.ofNat_toNat]

/-- What an idle session does not accept it refuses. -/
theorem failsOnlyWith_handleFirst_new :
    FailsOnlyWith Refusal.Plain (handleFirst .new data) := by
  have hnew : ∀ {status : StatusWord}, status.IsRefusal →
      (⟨.new, status, []⟩ : Refusal).Plain := fun hstatus ↦ ⟨wipe_new, hstatus, rfl⟩
  refine failsOnlyWith_ensure_bind (hnew (by decide)) fun _ ↦ ?_
  refine failsOnlyWith_ensure_bind (hnew (by decide)) fun _ ↦ ?_
  refine failsOnlyWith_ensure_bind (hnew (by decide)) fun hmax ↦ ?_
  refine failsOnlyWith_okOr_bind (hnew (by decide)) fun _ _ ↦ ?_
  refine failsOnlyWith_okOr_bind (hnew (by decide)) fun array _ ↦ ?_
  refine failsOnlyWith_okOr_bind (hnew (by decide)) fun _ husize ↦ ?_
  refine failsOnlyWith_ensure_bind (hnew (by decide)) fun htotal ↦ ?_
  refine failsOnlyWith_okOr_bind (hnew (by decide)) fun _ _ ↦ ?_
  refine failsOnlyWith_bind (failsOnlyWith_mapError fun _ ↦ hnew (by decide)) fun path _ ↦ ?_
  refine failsOnlyWith_okOr_bind (hnew (by decide)) fun chunk hchunk ↦ ?_
  refine failsOnlyWith_ensure_bind (hnew (by decide)) fun _ ↦ ?_
  refine failsOnlyWith_bind ?_ fun _ _ ↦ failsOnlyWith_ok _
  -- Only the appended chunk can be too long; the session is opened already, but still empty.
  rw [usizeTryFrom_eq, Option.some.injEq] at husize
  obtain ⟨-, hbounded⟩ := htotal
  rw [← husize] at hbounded
  rw [getRange_eq_some_iff, drop_take_eq_firstChunk] at hchunk
  obtain ⟨-, -, rfl⟩ := hchunk
  change FailsOnlyWith _ ((stored .collecting (some path) (u32FromBeBytes array) []).appendChunk _)
  rw [appendChunk_stored (Nat.zero_le _) (length_firstChunk_le hmax) hbounded]
  split_ifs
  · exact failsOnlyWith_ok _
  · exact failsOnlyWith_error ⟨wipe_stored (Nat.zero_le _),
      (by decide : StatusWord.profileBoundExceeded.IsRefusal), rfl⟩

end First

section Collecting

variable {collection : Collection} {data : Bytes}

omit [Target] in
/-- An early return on a session that has buffered a content. -/
theorem plain_stored {state : SessionState} {path : Option DerivationPath} {total : UInt32}
    {content : Bytes} {status : StatusWord} (hcontent : content.length ≤ maxFrameLen)
    (hstatus : status.IsRefusal) :
    (⟨stored state path total content, status, []⟩ : Refusal).Plain :=
  ⟨wipe_stored hcontent, hstatus, rfl⟩

/-- Appending to a collection. -/
theorem appendChunk_collection (hdata : data.length ≤ maxChunkLen) :
    (Phase.collecting collection).represent.appendChunk data =
      if collection.content.length + data.length ≤ collection.total.toNat then
        .ok (stored .collecting (some collection.path) collection.total
          (collection.content ++ data))
      else .error ⟨(Phase.collecting collection).represent, .profileBoundExceeded, []⟩ :=
  appendChunk_stored collection.length_le hdata collection.total_le

/-- The missing length of a collection, as `CONTINUE` computes it. -/
theorem remaining_collection (collection : Collection) :
    ∃ remaining, u32CheckedSub (Phase.collecting collection).represent.declaredTotal
        (Phase.collecting collection).represent.receivedLen = some remaining ∧
      remaining.toNat = collection.total.toNat - collection.content.length := by
  have hreceived : (Phase.collecting collection).represent.receivedLen.toNat =
      collection.content.length := toNat_receivedLen_stored collection.length_le
  have hle : (Phase.collecting collection).represent.receivedLen ≤ collection.total := by
    rw [UInt32.le_iff_toNat_le, hreceived]
    exact collection.length_lt.le
  refine ⟨collection.total - (Phase.collecting collection).represent.receivedLen, if_pos hle, ?_⟩
  rw [UInt32.toNat_sub_of_le _ _ hle, hreceived]

/-- A collection accepts exactly the data that extend it. -/
theorem handleContinue_collecting_eq_ok_iff {dispatched : Dispatched} :
    handleContinue (Phase.collecting collection).represent data = .ok dispatched ↔
      ∃ hextends : ExtendsCollection collection data, dispatched = {
        session := (Phase.collecting (.extended hextends)).represent
        outcome := .success .empty
      } := by
  obtain ⟨remaining, hremaining, hremainingNat⟩ := remaining_collection collection
  simp only [handleContinue, bind_eq_ok_iff, ensure_eq_ok_iff, okOr_eq_ok_iff, hremaining,
    usizeTryFrom_eq, ne_eq, Option.some.injEq, Except.ok.injEq]
  constructor
  · rintro ⟨-, -, -, hne, -, hlength, _, rfl, -, hshort, session, happend, rfl⟩
    rw [appendChunk_collection hlength] at happend
    split_ifs at happend with hfits
    obtain rfl := Except.ok.inj happend
    have hlt := collection.length_lt
    exact ⟨⟨hne, hlength, by omega⟩, rfl⟩
  · rintro ⟨hextends, rfl⟩
    have hshort := hextends.short
    refine ⟨⟨⟩, rfl, ⟨⟩, hextends.data_ne, ⟨⟩, hextends.length_le, _, rfl, ⟨⟩, by omega, _, ?_, rfl⟩
    rw [appendChunk_collection hextends.length_le, if_pos hshort.le]
    rfl

theorem failsOnlyWith_handleContinue_collecting :
    FailsOnlyWith Refusal.Plain (handleContinue (Phase.collecting collection).represent data) := by
  have hplain : ∀ {status : StatusWord}, status.IsRefusal →
      (⟨(Phase.collecting collection).represent, status, []⟩ : Refusal).Plain :=
    plain_stored collection.length_le
  obtain ⟨remaining, hremaining, -⟩ := remaining_collection collection
  refine failsOnlyWith_ensure_bind (hplain (by decide)) fun _ ↦ ?_
  refine failsOnlyWith_ensure_bind (hplain (by decide)) fun _ ↦ ?_
  refine failsOnlyWith_ensure_bind (hplain (by decide)) fun hlength ↦ ?_
  rw [hremaining, okOr_some, ok_bind]
  refine failsOnlyWith_ensure_bind (hplain (by decide)) fun _ ↦ ?_
  refine failsOnlyWith_bind ?_ fun _ _ ↦ failsOnlyWith_ok _
  rw [appendChunk_collection hlength]
  split_ifs
  · exact failsOnlyWith_ok _
  · exact failsOnlyWith_error (hplain (by decide))

/-- A `LAST` that completes the collection runs the one-shot check on the complete frame. -/
theorem handleLast_of_completes (hcompletes : CompletesCollection collection data)
    (deriver : PublicKeyDeriver) (policy : ClearSigningPolicy) :
    settle (handleLast (Phase.collecting collection).represent data deriver policy) =
      match oneShotCheck collection.path (collection.content ++ data) deriver policy with
      | .ok review => {
          session := stored .awaitingApproval (some collection.path) collection.total
            (collection.content ++ data)
          outcome := .reviewTransaction review
          derivations := oneShotDerivations collection.path (collection.content ++ data) deriver
        }
      | .error status => {
          session := .new
          outcome := .failure status
          derivations := oneShotDerivations collection.path (collection.content ++ data) deriver
        } := by
  have hlength : (collection.content ++ data).length ≤ maxFrameLen :=
    hcompletes.length_eq.trans_le collection.total_le
  have hreceived : (stored .collecting (some collection.path) collection.total
      (collection.content ++ data)).receivedLen = (stored .collecting (some collection.path)
      collection.total (collection.content ++ data)).declaredTotal := by
    rw [← UInt32.toNat_inj, toNat_receivedLen_stored hlength, hcompletes.length_eq]
    rfl
  have happend : (Phase.collecting collection).represent.appendChunk data = .ok (stored .collecting
      (some collection.path) collection.total (collection.content ++ data)) := by
    rw [appendChunk_collection hcompletes.length_le, if_pos hcompletes.complete.le]
  have hwipe : ∀ {state : SessionState}, (stored state (some collection.path) collection.total
      (collection.content ++ data)).wipe = .new := wipe_stored hlength
  have hstate : (Phase.collecting collection).represent.state = .collecting := rfl
  simp only [handleLast, happend, ensure_of_true hstate, ensure_of_true hcompletes.data_ne,
    ensure_of_true hcompletes.length_le, ensure_of_true hreceived, getRange_stored hlength,
    path_stored, okOr_some, ok_bind, oneShotCheck, oneShotDerivations, decodeBounded]
  cases decodeSignatureFrame (collection.content ++ data) with
  | error failure => simp [Except.mapError, settle, Refusal.dispatched, hwipe]
  | ok frame =>
    by_cases hpayload : frame.payload.length ≤ maxTransactionPayloadLen
    case neg =>
      simp [Except.mapError, ensure_of_false hpayload, settle, Refusal.dispatched, hwipe]
    simp only [mapError_ok, ok_bind, ensure_of_true hpayload]
    cases decodeTransactionSignable frame.payload with
    | error failure => simp [Except.mapError, settle, Refusal.dispatched, hwipe]
    | ok transaction =>
      simp only [mapError_ok, ok_bind]
      cases deriver collection.path with
      | none => simp [settle, Refusal.dispatched, hwipe]
      | some publicKey =>
        by_cases hsender : transaction.sender.bytes = publicKey
        case neg => simp [ensure_of_false hsender, settle, Refusal.dispatched, hwipe]
        simp only [okOr_some, ok_bind, ensure_of_true hsender]
        cases buildReview frame transaction policy with
        | error failure => simp [Except.mapError, settle, Refusal.dispatched, hwipe]
        | ok review =>
          simp only [mapError_ok, ok_bind, settle]
          rfl

/-- Any other `LAST` is refused without a derivation. -/
theorem failsOnlyWith_handleLast_of_not_completes
    (hcompletes : ¬ CompletesCollection collection data) (deriver : PublicKeyDeriver)
    (policy : ClearSigningPolicy) :
    ∃ refusal, handleLast (Phase.collecting collection).represent data deriver policy =
      .error refusal ∧ refusal.Plain := by
  have hplain : ∀ {status : StatusWord}, status.IsRefusal →
      (⟨(Phase.collecting collection).represent, status, []⟩ : Refusal).Plain :=
    plain_stored collection.length_le
  have hstate : (Phase.collecting collection).represent.state = .collecting := rfl
  simp only [handleLast, ensure_of_true hstate, ok_bind]
  by_cases hne : data ≠ []
  case neg => exact ⟨_, by rw [ensure_of_false hne, error_bind], hplain (by decide)⟩
  by_cases hlength : data.length ≤ maxChunkLen
  case neg =>
    exact ⟨_, by rw [ensure_of_true hne, ensure_of_false hlength, ok_bind, error_bind],
      hplain (by decide)⟩
  simp only [ensure_of_true hne, ensure_of_true hlength, ok_bind, appendChunk_collection hlength]
  split_ifs with hfits
  case neg => exact ⟨_, rfl, hplain (by decide)⟩
  have hcontent : (collection.content ++ data).length ≤ maxFrameLen := by
    rw [List.length_append]
    exact hfits.trans collection.total_le
  have hshort : (stored .collecting (some collection.path) collection.total
      (collection.content ++ data)).receivedLen ≠ (stored .collecting (some collection.path)
      collection.total (collection.content ++ data)).declaredTotal := by
    intro hequal
    refine hcompletes ⟨hne, hlength, ?_⟩
    rw [← UInt32.toNat_inj, toNat_receivedLen_stored hcontent, List.length_append] at hequal
    exact hequal
  refine ⟨⟨stored .collecting (some collection.path) collection.total (collection.content ++ data),
    .invalidData, []⟩, ?_, plain_stored hcontent (by decide)⟩
  rw [ok_bind, ensure_of_false hshort, error_bind]

end Collecting

/-! ## The handlers together -/

section Handlers

variable {phase : Phase} {command : ApduCommand} {deriver : PublicKeyDeriver}
  {policy : ClearSigningPolicy}

/-- What a handler leaves is a case of `Dispatches`, up to the wipe that follows every failure. -/
def Handles (deriver : PublicKeyDeriver) (policy : ClearSigningPolicy) (command : ApduCommand)
    (phase : Phase) (handled : Dispatched) : Prop :=
  handled.session.wipe = .new ∧ ∃ next : Phase,
    (handled.outcome.isFailure = false → handled.session = next.represent) ∧
      Dispatches deriver policy command phase next handled.outcome handled.derivations

omit [Target] in
theorem isFailure_failure {status : StatusWord} :
    (DispatchOutcome.failure status).isFailure ↔ status ≠ .success := by
  cases status <;> simp [DispatchOutcome.failure, DispatchOutcome.isFailure]

theorem handles_refused (hunfit : Unfit command phase) {session : SigningSession}
    {status : StatusWord} (hwipe : session.wipe = .new) (hstatus : status.IsRefusal) :
    Handles deriver policy command phase { session, outcome := .failure status } := by
  refine ⟨hwipe, .idle, ?_, .refused hstatus hunfit⟩
  intro hfailure
  rw [isFailure_failure.mpr hstatus.1] at hfailure
  cases hfailure

theorem handles_plain (hunfit : Unfit command phase) {refusal : Refusal} (hplain : refusal.Plain) :
    Handles deriver policy command phase refusal.dispatched := by
  rw [hplain.dispatched_eq]
  exact handles_refused hunfit wipe_new hplain.status

/-- The result of a failing computation of a handler. -/
theorem handles_settle_error (hunfit : Unfit command phase) {computation : Except Refusal Dispatched}
    {refusal : Refusal} (herror : computation = .error refusal) (hplain : refusal.Plain) :
    Handles deriver policy command phase (settle computation) := by
  rw [herror]
  exact handles_plain hunfit hplain

theorem handles_first_idle (hsign : IsSign command signP1First) :
    Handles deriver policy command .idle (settle (handleFirst .new command.data)) := by
  cases hresult : handleFirst .new command.data with
  | ok dispatched =>
    obtain ⟨path, hopens, rfl⟩ := handleFirst_new_eq_ok_iff.mp hresult
    exact ⟨wipe_stored (Collection.opened hopens).length_le, _, fun _ ↦ rfl, .opened hsign hopens⟩
  | error refusal =>
    refine handles_plain (.idle ?_ ?_) (failsOnlyWith_handleFirst_new refusal hresult)
    · intro path hverifies
      exact hverifies.not_isSign hsign
    · rintro path ⟨-, hopens⟩
      have hok := handleFirst_new_eq_ok_iff.mpr ⟨path, hopens, rfl⟩
      rw [hok] at hresult
      cases hresult

theorem handles_continue_collecting {collection : Collection}
    (hsign : IsSign command signP1Continue) :
    Handles deriver policy command (.collecting collection)
      (settle (handleContinue (Phase.collecting collection).represent command.data)) := by
  cases hresult : handleContinue (Phase.collecting collection).represent command.data with
  | ok dispatched =>
    obtain ⟨hextends, rfl⟩ := handleContinue_collecting_eq_ok_iff.mp hresult
    exact ⟨Phase.wipe_represent _, _, fun _ ↦ rfl, .extended hsign hextends⟩
  | error refusal =>
    refine handles_plain (.collecting ?_ ?_) (failsOnlyWith_handleContinue_collecting refusal hresult)
    · rintro ⟨-, hextends⟩
      have hok := handleContinue_collecting_eq_ok_iff.mpr ⟨hextends, rfl⟩
      rw [hok] at hresult
      cases hresult
    · rintro ⟨hlast, -⟩
      exact hsign.not_isSign (by decide) hlast

theorem handles_last_collecting {collection : Collection} (hsign : IsSign command signP1Last) :
    Handles deriver policy command (.collecting collection)
      (settle (handleLast (Phase.collecting collection).represent command.data deriver policy)) := by
  by_cases hcompletes : CompletesCollection collection command.data
  case neg =>
    obtain ⟨refusal, herror, hplain⟩ :=
      failsOnlyWith_handleLast_of_not_completes hcompletes deriver policy
    refine handles_settle_error (.collecting ?_ ?_) herror hplain
    · rintro ⟨hcontinue, -⟩
      exact hsign.not_isSign (by decide) hcontinue
    · rintro ⟨-, hcompletes'⟩
      exact hcompletes hcompletes'
  rw [handleLast_of_completes hcompletes]
  cases hcheck : oneShotCheck collection.path (collection.content ++ command.data) deriver policy with
  | ok review =>
    have hrepresent : stored .awaitingApproval (some collection.path) collection.total
        (collection.content ++ command.data) =
          (Phase.awaiting (.completed hcompletes hcheck)).represent := by
      have htotal : UInt32.ofNat (collection.content ++ command.data).length = collection.total := by
        rw [hcompletes.length_eq, UInt32.ofNat_toNat]
      simp only [Phase.represent, PendingReview.completed, htotal]
    refine ⟨?_, _, fun _ ↦ hrepresent, .reviewed hsign hcompletes hcheck⟩
    rw [hrepresent]
    exact Phase.wipe_represent _
  | error status =>
    exact ⟨wipe_new, .idle, fun _ ↦ rfl, .unchecked hsign hcompletes hcheck⟩

/-- `sign transaction` on every phase but a pending one, which `dispatch` has refused before. -/
theorem handles_signTransaction (hcla : command.cla = cla) (hins : command.ins = insSignTransaction)
    (hphase : ∀ pending, phase ≠ .awaiting pending) :
    Handles deriver policy command phase
      (handleSignTransaction phase.represent command.p1 command.p2 command.data deriver policy) := by
  have hverifies : ∀ path, ¬ VerifiesKey command path := fun path hverifies ↦
    absurd (hins.symm.trans hverifies.ins_eq) (by decide)
  -- A command that is neither of the commands its phase waits for is refused.
  have hother : (phase = .idle → ¬ IsSign command signP1First) →
      (phase ≠ .idle → ¬ IsSign command signP1Continue ∧ ¬ IsSign command signP1Last) →
      Unfit command phase := by
    intro hfirst hlater
    cases phase with
    | idle => exact .idle hverifies fun _ hopens ↦ hfirst rfl hopens.1
    | collecting collection =>
      obtain ⟨hcontinue, hlast⟩ := hlater (by simp)
      exact .collecting (fun hextends ↦ hcontinue hextends.1) (fun hcompletes ↦ hlast hcompletes.1)
    | awaiting pending => exact absurd rfl (hphase pending)
  have hrefuse : ∀ status : StatusWord, status.IsRefusal →
      (⟨phase.represent, status, []⟩ : Refusal).Plain := fun status hstatus ↦
    ⟨phase.wipe_represent, hstatus, rfl⟩
  unfold handleSignTransaction
  split_ifs with hp2 hfirst hcontinue hlast
  · refine handles_plain (hother ?_ ?_) (hrefuse _ (by decide))
    · exact fun _ hsign ↦ hp2 hsign.p2_eq
    · exact fun _ ↦ ⟨fun hsign ↦ hp2 hsign.p2_eq, fun hsign ↦ hp2 hsign.p2_eq⟩
  · have hsign : IsSign command signP1First := ⟨hcla, hins, hfirst, not_not.mp hp2⟩
    cases phase with
    | idle => exact handles_first_idle hsign
    | collecting collection =>
      have hunfit := hother (by simp) fun _ ↦
        ⟨hsign.not_isSign (by decide), hsign.not_isSign (by decide)⟩
      exact handles_settle_error hunfit rfl (hrefuse .invalidState (by decide))
    | awaiting pending => exact absurd rfl (hphase pending)
  · have hsign : IsSign command signP1Continue := ⟨hcla, hins, hcontinue, not_not.mp hp2⟩
    cases phase with
    | idle =>
      have hunfit := hother (fun _ ↦ hsign.not_isSign (by decide)) (by simp)
      exact handles_settle_error hunfit rfl (hrefuse .invalidState (by decide))
    | collecting collection => exact handles_continue_collecting hsign
    | awaiting pending => exact absurd rfl (hphase pending)
  · have hsign : IsSign command signP1Last := ⟨hcla, hins, hlast, not_not.mp hp2⟩
    cases phase with
    | idle =>
      have hunfit := hother (fun _ ↦ hsign.not_isSign (by decide)) (by simp)
      exact handles_settle_error hunfit rfl (hrefuse .invalidState (by decide))
    | collecting collection => exact handles_last_collecting hsign
    | awaiting pending => exact absurd rfl (hphase pending)
  · refine handles_plain (hother ?_ ?_) (hrefuse _ (by decide))
    · exact fun _ hsign ↦ hfirst hsign.p1_eq
    · exact fun _ ↦ ⟨fun hsign ↦ hcontinue hsign.p1_eq, fun hsign ↦ hlast hsign.p1_eq⟩

/-- `get configuration` and `verify public key` reach their handlers on an idle session only. -/
theorem handles_getConfiguration (hins : command.ins = insGetConfiguration) :
    Handles deriver policy command .idle
      { session := .new
        outcome := handleGetConfiguration command.p1 command.p2 command.data } := by
  have hunfit : Unfit command .idle := .of_ins (by rw [hins]; decide) (by rw [hins]; decide) _
  unfold handleGetConfiguration
  split_ifs with hparameters hdata
  · exact handles_refused hunfit wipe_new (by decide)
  · exact handles_refused hunfit wipe_new (by decide)
  · exact ⟨wipe_new, .idle, fun _ ↦ rfl, .configured hins⟩

theorem handles_verifyPublicKey (hcla : command.cla = cla) (hins : command.ins = insVerifyPublicKey) :
    Handles deriver policy command .idle
      { session := .new
        outcome := (handleVerifyPublicKey command.p1 command.p2 command.data deriver).1
        derivations := (handleVerifyPublicKey command.p1 command.p2 command.data deriver).2 } := by
  have hunfit : (∀ path, ¬ VerifiesKey command path) → Unfit command .idle := fun hverifies ↦
    .idle hverifies fun path hopens ↦ absurd (hins.symm.trans hopens.1.ins_eq) (by decide)
  unfold handleVerifyPublicKey
  split_ifs with hparameters
  · refine handles_refused (hunfit fun path hverifies ↦ ?_) wipe_new (by decide)
    exact hparameters.elim (fun hp1 ↦ hp1 hverifies.p1_eq) (fun hp2 ↦ hp2 hverifies.p2_eq)
  obtain ⟨hp1, hp2⟩ := not_or.mp hparameters
  cases hpath : decodePath command.data with
  | error failure =>
    refine handles_refused (hunfit fun path hverifies ↦ ?_) wipe_new (by decide)
    rw [hverifies.path_eq] at hpath
    cases hpath
  | ok path =>
    have hverifies : VerifiesKey command path :=
      ⟨hcla, hins, not_not.mp hp1, not_not.mp hp2, hpath⟩
    cases hkey : deriver path with
    | none =>
      simp only [hkey]
      exact ⟨wipe_new, .idle, fun _ ↦ rfl, .underivable hverifies hkey⟩
    | some publicKey =>
      simp only [hkey]
      exact ⟨wipe_new, .idle, fun _ ↦ rfl, .derived hverifies hkey⟩

theorem handles_resetSigning (hins : command.ins = insResetSigning) :
    Handles deriver policy command phase
      (handleResetSigning phase.represent command.p1 command.p2 command.data) := by
  have hunfit : Unfit command phase := .of_ins (by rw [hins]; decide) (by rw [hins]; decide) _
  unfold handleResetSigning
  split_ifs with hparameters hdata
  · exact handles_refused hunfit phase.wipe_represent (by decide)
  · exact handles_refused hunfit phase.wipe_represent (by decide)
  · refine ⟨?_, .idle, fun _ ↦ phase.wipe_represent, .reset hins⟩
    rw [SigningSession.reset, phase.wipe_represent, wipe_new]

/-- A command that does not conflict with the session is handled. -/
theorem handles_handle (hcla : command.cla = cla)
    (hfree : conflictsWithSession phase.represent command.ins = false) :
    Handles deriver policy command phase (handle phase.represent command deriver policy) := by
  unfold conflictsWithSession at hfree
  unfold handle
  split_ifs with hconfiguration hverify hsign hreset
  · rw [if_pos (.inl hconfiguration), Bool.not_eq_false', Phase.isIdle_represent] at hfree
    subst hfree
    exact handles_getConfiguration hconfiguration
  · rw [if_pos (.inr hverify), Bool.not_eq_false', Phase.isIdle_represent] at hfree
    subst hfree
    exact handles_verifyPublicKey hcla hverify
  · refine handles_signTransaction hcla hsign ?_
    rintro pending rfl
    rw [if_neg (by rw [hsign]; decide), if_pos hsign] at hfree
    cases hfree
  · exact handles_resetSigning hreset
  · exact handles_refused (.of_ins hverify hsign _) phase.wipe_represent (by decide)

end Handlers

/-- A failure leaves the idle phase. -/
theorem Dispatches.next_of_isFailure {deriver : PublicKeyDeriver} {policy : ClearSigningPolicy}
    {command : ApduCommand} {phase next : Phase} {outcome : DispatchOutcome}
    {derivations : List Derivation}
    (hdispatches : Dispatches deriver policy command phase next outcome derivations)
    (hfailure : outcome.isFailure) : next = .idle := by
  cases hdispatches <;>
    first | rfl | simp [DispatchOutcome.success, DispatchOutcome.isFailure] at hfailure

/-- Dispatching a command on the session of a phase leaves the session of a phase, and does what one
of the cases of `Dispatches` says. -/
theorem dispatch_represent (phase : Phase) (command : ApduCommand) (deriver : PublicKeyDeriver)
    (policy : ClearSigningPolicy) :
    ∃ next : Phase,
      (dispatch phase.represent command deriver policy).session = next.represent ∧
        Dispatches deriver policy command phase next
          (dispatch phase.represent command deriver policy).outcome
          (dispatch phase.represent command deriver policy).derivations := by
  have hrefuse : ∀ {status : StatusWord}, Unfit command phase → status.IsRefusal →
      ∃ next : Phase,
        (Refusal.dispatched ⟨phase.represent, status, []⟩).session = next.represent ∧
          Dispatches deriver policy command phase next
            (Refusal.dispatched ⟨phase.represent, status, []⟩).outcome
            (Refusal.dispatched ⟨phase.represent, status, []⟩).derivations :=
    fun hunfit hstatus ↦ ⟨.idle, phase.wipe_represent, .refused hstatus hunfit⟩
  by_cases hcla : command.cla = cla
  case neg =>
    rw [dispatch, if_pos hcla]
    exact hrefuse (.of_cla hcla _) (by decide)
  by_cases hconflict : conflictsWithSession phase.represent command.ins
  case pos =>
    rw [dispatch, if_neg (not_not.mpr hcla), if_pos hconflict]
    refine hrefuse ?_ (by decide)
    cases phase with
    | idle =>
      simp [conflictsWithSession, Phase.represent, SigningSession.new, SigningSession.isIdle]
        at hconflict
    | collecting collection =>
      have hins : command.ins ≠ insSignTransaction := by
        intro hins
        rw [hins] at hconflict
        exact absurd hconflict (by simp [conflictsWithSession, Phase.represent, insSignTransaction,
          insGetConfiguration, insVerifyPublicKey])
      exact .collecting (fun hextends ↦ hins hextends.1.ins_eq)
        (fun hcompletes ↦ hins hcompletes.1.ins_eq)
    | awaiting pending => exact .awaiting pending
  rw [dispatch, if_neg (not_not.mpr hcla), if_neg hconflict]
  obtain ⟨hwipe, next, hnext, hdispatches⟩ : Handles deriver policy command phase
    (handle phase.represent command deriver policy) :=
      handles_handle hcla (Bool.not_eq_true _ ▸ hconflict)
  by_cases hfailure : (handle phase.represent command deriver policy).outcome.isFailure
  · have hidle := hdispatches.next_of_isFailure hfailure
    subst hidle
    simp only [hfailure, if_true]
    exact ⟨.idle, hwipe, hdispatches⟩
  · simp only [hfailure]
    exact ⟨next, hnext (Bool.not_eq_true _ ▸ hfailure), hdispatches⟩

end SunriseEdgeLedger.Core
