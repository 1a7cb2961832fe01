import SunriseEdgeLedger.Core.ChunkedDelivery
import SunriseEdgeLedger.Core.PathEncoding

/-!
# The sessions that are reached

The invariant of a session says which sessions a run can lead to.  Here it is shown to say it
exactly.  Every collection that is short of its total is reached, its bytes one after the other, and
every frame that can be approved comes to be pending, after whatever happened before.  So no
stronger invariant of a session holds, and no session is a dead end.
-/

namespace SunriseEdgeLedger.Core

open Foundation

/-- A cut into single bytes, of which only the first one matters. -/
def singleBytes (byte : UInt8) (more : ℕ) : Cut ([byte] ++ List.replicate more 0 ++ [0]) where
  first := [byte]
  middles := List.replicate more [0]
  last := [0]
  pieces_eq := by rw [List.flatten_replicate_singleton]
  piece_length := by
    intro piece hpiece
    have hsingle : piece.length = 1 := by
      rcases List.mem_cons.mp hpiece with rfl | hrest
      · rfl
      rcases List.mem_append.mp hrest with hmiddle | hlast
      · rw [List.eq_of_mem_replicate hmiddle, List.length_singleton]
      · rw [List.mem_singleton.mp hlast, List.length_singleton]
    rw [hsingle]
    decide

theorem length_singleBytes {more total : ℕ} (htotal : more + 2 = total) (byte : UInt8) :
    ([byte] ++ List.replicate more 0 ++ [0] : Bytes).length = total := by
  simp only [List.length_append, List.length_replicate, List.length_singleton]
  omega

/-- A `FIRST` can open a collection of one byte under every path and with every total above that. -/
theorem exists_opensCollection (path : DerivationPath) {total : UInt32} (byte : UInt8)
    (hshort : 2 ≤ total.toNat) (htotal : total.toNat ≤ maxFrameLen) :
    ∃ (data : Bytes) (hopens : OpensCollection data path),
      (Collection.opened hopens).total = total ∧ (Collection.opened hopens).content = [byte] := by
  have hpath := decodePath_eq_ok_iff.mpr (pathBytes_account path)
  have hlength := length_singleBytes (Nat.sub_add_cancel hshort) byte
  have hfits := hlength.trans_le htotal
  let cut := singleBytes byte (total.toNat - 2)
  have hopens := cut.opensCollection hpath hfits
  refine ⟨_, hopens, ?_, cut.firstChunk_firstData (length_of_decodePath hpath)⟩
  apply UInt32.toNat_inj.mp
  calc
    (Collection.opened hopens).total.toNat = firstTotal _ := hopens.toNat_total
    _ = List.length _ := cut.firstTotal_firstData hfits
    _ = total.toNat := hlength

/-- A content can be delivered in pieces of one byte. -/
theorem exists_singlePieces (content : Bytes) :
    ∃ pieces : List Bytes, pieces.flatten = content ∧
      ∀ piece ∈ pieces, 1 ≤ piece.length ∧ piece.length ≤ maxChunkLen := by
  refine ⟨content.map fun byte ↦ [byte], List.flatMap_singleton' content, ?_⟩
  intro piece hpiece
  obtain ⟨byte, -, rfl⟩ := List.mem_map.mp hpiece
  rw [List.length_singleton]
  decide

/-- How every collection can be delivered: a `FIRST` with its first byte, and then its other
bytes. -/
theorem exists_delivery (collection : Collection) :
    ∃ (data : Bytes) (hopens : OpensCollection data collection.path) (middles : List Bytes),
      (Collection.opened hopens).total = collection.total ∧
      (Collection.opened hopens).content ++ middles.flatten = collection.content ∧
      (Collection.opened hopens).content.length + middles.flatten.length <
        (Collection.opened hopens).total.toNat ∧
      ∀ middle ∈ middles, 1 ≤ middle.length ∧ middle.length ≤ maxChunkLen := by
  obtain ⟨path, total, content, hcontent, hshort, htotal⟩ := collection
  obtain ⟨byte, rest, rfl⟩ := List.exists_cons_of_ne_nil hcontent
  rw [List.length_cons] at hshort
  obtain ⟨data, hopens, hopenedTotal, hopenedContent⟩ :=
    exists_opensCollection path byte (by omega) htotal
  obtain ⟨middles, rfl, hmiddles⟩ := exists_singlePieces rest
  have hdelivered : (Collection.opened hopens).content ++ middles.flatten =
      byte :: middles.flatten := by
    rw [hopenedContent]
    rfl
  refine ⟨data, hopens, middles, hopenedTotal, hdelivered, ?_, hmiddles⟩
  rw [← List.length_append, hdelivered, hopenedTotal]
  exact hshort

variable [Target]

/-- Every collection is reached. -/
theorem exists_run_collecting (collection : Collection) :
    ∃ operations, sessionMachine.run .new operations =
      (Phase.collecting collection).represent := by
  obtain ⟨data, hopens, middles, htotal, hcontent, hshort, hmiddles⟩ := exists_delivery collection
  let deriver : PublicKeyDeriver := fun _ ↦ none
  obtain ⟨next, outcome, derivations, hstep, hdispatches⟩ :=
    step_dispatchOperation deriver devnetAssetTransferPolicy .idle (signCommand signP1First data)
  obtain ⟨rfl, -, -⟩ := hdispatches.of_opens (isSign_signCommand signP1First data) hopens
  obtain ⟨collected, hpath, hcollectedTotal, hcollectedContent, hrun, -⟩ :=
    exists_collection_of_middles deriver devnetAssetTransferPolicy (.opened hopens) middles hmiddles
      hshort
  refine ⟨_, (Machine.run_cons_of_step hstep _).trans (hrun.trans ?_)⟩
  rw [Phase.represent, Phase.represent, hpath, hcollectedTotal, hcollectedContent, htotal, hcontent]
  rfl

/-- A frame that can be approved passes the check, if its sender has the key of the path. -/
theorem exists_oneShotCheck_of_approvable {policy : ClearSigningPolicy} {framed : Bytes}
    {review : ClearSigningReview} (happrovable : Approvable policy framed review)
    (path : DerivationPath) :
    ∃ deriver, oneShotCheck path framed deriver policy = .ok review := by
  obtain ⟨frame, transaction, hframe, hpayload, htransaction, hreview⟩ := happrovable
  refine ⟨fun _ ↦ some transaction.sender.bytes, oneShotCheck_eq_ok_iff.mpr ?_⟩
  exact ⟨frame, transaction, decodeBounded_eq_ok_iff.mpr ⟨hframe, hpayload, htransaction⟩, rfl,
    hreview⟩

theorem two_le_length_of_approvable {policy : ClearSigningPolicy} {framed : Bytes}
    {review : ClearSigningReview} (happrovable : Approvable policy framed review) :
    2 ≤ framed.length := by
  obtain ⟨frame, transaction, hframe, -⟩ := happrovable
  rw [decodeSignatureFrame_exact.encode_of_ok hframe, length_signatureFrameBytes]
  omega

/-- Every pending review is reached: all bytes of the frame but one are collected, and `LAST` brings
this one. -/
theorem exists_run_awaiting (pending : PendingReview) :
    ∃ operations, sessionMachine.run .new operations = (Phase.awaiting pending).represent := by
  obtain ⟨path, framed, policy, review, happrovable, hlength⟩ := pending
  have htwo := two_le_length_of_approvable happrovable
  obtain ⟨deriver, hcheck⟩ := exists_oneShotCheck_of_approvable happrovable path
  obtain ⟨content, byte, rfl⟩ : ∃ content byte, framed = content ++ [byte] :=
    ⟨_, _, (List.dropLast_append_getLast (List.length_pos_iff.mp (by omega))).symm⟩
  have htotal := toNat_ofNat_of_le_maxFrameLen hlength
  rw [List.length_append, List.length_singleton] at htwo htotal hlength
  let collection : Collection := {
    path := path
    total := UInt32.ofNat (content.length + 1)
    content := content
    content_ne := List.length_pos_iff.mp (by omega)
    length_lt := by rw [htotal]; exact Nat.lt_succ_self _
    total_le := by rw [htotal]; exact hlength
  }
  obtain ⟨operations, hsession⟩ := exists_run_collecting collection
  have hcompletes : CompletesCollection collection [byte] :=
    ⟨List.cons_ne_nil _ _, (by decide : 1 ≤ maxChunkLen), htotal.symm⟩
  obtain ⟨next, hnext, hdispatches⟩ := dispatch_represent (.collecting collection)
    (signCommand signP1Last [byte]) deriver policy
  obtain ⟨hrepresent, -, -⟩ :=
    hdispatches.of_completes (isSign_signCommand signP1Last [byte]) hcompletes
  refine ⟨operations ++ [.dispatch (signCommand signP1Last [byte]) deriver policy], ?_⟩
  rw [Machine.run_append, hsession]
  calc
    _ = next.represent := hnext
    _ = sessionOfCheck path (content ++ [byte])
          (oneShotCheck path (content ++ [byte]) deriver policy) := hrepresent
    _ = sessionOfCheck path (content ++ [byte]) (.ok review) := by rw [hcheck]
    _ = _ := rfl

/-- After every run of operations, exactly the sessions of phases can still be reached: a session is
reached by some further operations if and only if it is new, collects a part of a frame that is
short of its total, or holds a frame that can be approved. -/
theorem sessionMachine_reaches_exactly (earlier : List Operation) (session : SigningSession) :
    (∃ later, sessionMachine.run .new (earlier ++ later) = session) ↔ RepresentsPhase session := by
  refine Machine.reaches_iff_of_reset RepresentsPhase ⟨.idle, rfl⟩ representsPhase_step ?_ ?_
    earlier session
  · rintro _ ⟨phase, rfl⟩
    exact ⟨.reset, phase.wipe_represent⟩
  · rintro _ ⟨phase, rfl⟩
    cases phase with
    | idle => exact ⟨[], rfl⟩
    | collecting collection => exact exists_run_collecting collection
    | awaiting pending => exact exists_run_awaiting pending

end SunriseEdgeLedger.Core
