import SunriseEdgeLedger.Core.Apdu

/-!
# The check of a complete frame

What the wallet checks about a path and a complete signed frame, stated at once and without any
session: the purpose of the chunked protocol is to run exactly this check.
-/

namespace SunriseEdgeLedger.Core

open Foundation

variable [Target]

/-- A byte string is a frame that can be put before the user, with a given review. -/
def Approvable (policy : ClearSigningPolicy) (framed : Bytes) (review : ClearSigningReview) :
    Prop :=
  ∃ frame transaction, decodeSignatureFrame framed = .ok frame ∧
    frame.payload.length ≤ maxTransactionPayloadLen ∧
    decodeTransactionSignable frame.payload = .ok transaction ∧
    buildReview frame transaction policy = .ok review

/-- The decoded contents of a frame with a payload within the profile bound. -/
def decodeBounded (framed : Bytes) : Except StatusWord (SignatureFrame × TransactionSignable) := do
  let frame ← (decodeSignatureFrame framed).mapError fun _ ↦ .invalidData
  ensure (frame.payload.length ≤ maxTransactionPayloadLen) .profileBoundExceeded
  let transaction ← (decodeTransactionSignable frame.payload).mapError fun _ ↦ .invalidData
  .ok (frame, transaction)

/-- The check of a complete frame under a path. -/
def oneShotCheck (path : DerivationPath) (framed : Bytes) (deriver : PublicKeyDeriver)
    (policy : ClearSigningPolicy) : Except StatusWord ClearSigningReview := do
  let (frame, transaction) ← decodeBounded framed
  let publicKey ← okOr .internalFailure (deriver path)
  ensure (transaction.sender.bytes = publicKey) .invalidData
  (buildReview frame transaction policy).mapError fun _ ↦ .invalidData

/-- The check derives the key of the path once, and only for a frame that decodes. -/
def oneShotDerivations (path : DerivationPath) (framed : Bytes) (deriver : PublicKeyDeriver) :
    List Derivation :=
  match decodeBounded framed with
  | .ok _ => [⟨path, deriver path⟩]
  | .error _ => []

variable {path : DerivationPath} {framed : Bytes} {deriver : PublicKeyDeriver}
  {policy : ClearSigningPolicy} {frame : SignatureFrame} {transaction : TransactionSignable}
  {review : ClearSigningReview} {status : StatusWord}

theorem decodeBounded_eq_ok_iff :
    decodeBounded framed = .ok (frame, transaction) ↔
      decodeSignatureFrame framed = .ok frame ∧
        frame.payload.length ≤ maxTransactionPayloadLen ∧
        decodeTransactionSignable frame.payload = .ok transaction := by
  simp only [decodeBounded, bind_eq_ok_iff, mapError_eq_ok_iff, ensure_eq_ok_iff, Except.ok.injEq,
    Prod.mk.injEq]
  constructor
  · rintro ⟨_, hframe, -, hpayload, _, htransaction, rfl, rfl⟩
    exact ⟨hframe, hpayload, htransaction⟩
  · rintro ⟨hframe, hpayload, htransaction⟩
    exact ⟨frame, hframe, ⟨⟩, hpayload, transaction, htransaction, rfl, rfl⟩

theorem decodeBounded_eq_error (herror : decodeBounded framed = .error status) :
    status = .invalidData ∨ status = .profileBoundExceeded := by
  simp only [decodeBounded, bind_eq_error_iff, mapError_eq_error_iff, ensure_eq_error_iff,
    reduceCtorEq, and_false, exists_false, or_false] at herror
  rcases herror with ⟨_, -, rfl⟩ | ⟨_, -, ⟨-, rfl⟩ | ⟨-, -, _, -, rfl⟩⟩
  · exact .inl rfl
  · exact .inr rfl
  · exact .inl rfl

/-- The check passes exactly for an approvable frame that is sent by the key of the path. -/
theorem oneShotCheck_eq_ok_iff :
    oneShotCheck path framed deriver policy = .ok review ↔
      ∃ frame transaction, decodeBounded framed = .ok (frame, transaction) ∧
        deriver path = some transaction.sender.bytes ∧
        buildReview frame transaction policy = .ok review := by
  simp only [oneShotCheck, bind_eq_ok_iff, Prod.exists, okOr_eq_ok_iff, ensure_eq_ok_iff,
    mapError_eq_ok_iff]
  constructor
  · rintro ⟨frame, transaction, hdecode, publicKey, hkey, -, rfl, hreview⟩
    exact ⟨frame, transaction, hdecode, hkey, hreview⟩
  · rintro ⟨frame, transaction, hdecode, hkey, hreview⟩
    exact ⟨frame, transaction, hdecode, _, hkey, ⟨⟩, rfl, hreview⟩

theorem approvable_of_oneShotCheck
    (hcheck : oneShotCheck path framed deriver policy = .ok review) :
    Approvable policy framed review := by
  obtain ⟨frame, transaction, hdecode, -, hreview⟩ := oneShotCheck_eq_ok_iff.mp hcheck
  obtain ⟨hframe, hpayload, htransaction⟩ := decodeBounded_eq_ok_iff.mp hdecode
  exact ⟨frame, transaction, hframe, hpayload, htransaction, hreview⟩

/-- A failing check reports the data, the profile bound, or the failure of a derivation. -/
theorem oneShotCheck_eq_error (herror : oneShotCheck path framed deriver policy = .error status) :
    status = .invalidData ∨ status = .profileBoundExceeded ∨
      status = .internalFailure ∧ oneShotDerivations path framed deriver = [⟨path, none⟩] := by
  simp only [oneShotCheck, bind_eq_error_iff, Prod.exists, okOr_eq_error_iff, okOr_eq_ok_iff,
    ensure_eq_error_iff, mapError_eq_error_iff] at herror
  rcases herror with herror | ⟨frame, transaction, hdecode, ⟨hnone, rfl⟩ | ⟨publicKey, hkey, hrest⟩⟩
  · exact (decodeBounded_eq_error herror).imp_right .inl
  · refine .inr (.inr ⟨rfl, ?_⟩)
    rw [oneShotDerivations, hdecode, hnone]
  · rcases hrest with ⟨-, rfl⟩ | ⟨-, -, _, -, rfl⟩ <;> exact .inl rfl

/-- A derivation without an answer fails the check as a device failure. -/
theorem oneShotCheck_of_derivations_none
    (hderivations : oneShotDerivations path framed deriver = [⟨path, none⟩]) :
    oneShotCheck path framed deriver policy = .error .internalFailure := by
  unfold oneShotDerivations at hderivations
  split at hderivations
  · rename_i contents hdecode
    have hnone : deriver path = none := by simpa using hderivations
    simp only [oneShotCheck, hdecode, hnone, ok_bind, okOr_none, error_bind]
  · simp at hderivations

theorem oneShotDerivations_of_ok (hcheck : oneShotCheck path framed deriver policy = .ok review) :
    oneShotDerivations path framed deriver = [⟨path, deriver path⟩] := by
  obtain ⟨frame, transaction, hdecode, -, -⟩ := oneShotCheck_eq_ok_iff.mp hcheck
  rw [oneShotDerivations, hdecode]

end SunriseEdgeLedger.Core
