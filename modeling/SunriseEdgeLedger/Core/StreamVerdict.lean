import SunriseEdgeLedger.Core.CanonicalStream

/-!
# Verdicts on a growing input

A frame arrives piece by piece, and the decoder may be asked about every part of it that is there
already.  It answers that the input is truncated for a while, then gives its verdict, and from then
on never changes its mind: an error stays the same error, and an accepted frame is a frame with
trailing bytes as soon as anything follows.
-/

namespace SunriseEdgeLedger.Core

open Foundation

theorem settles_parseU16 : Settles .truncated parseU16 := settles_map _ (settles_takeExactly 2)

theorem settles_parseU32 : Settles .truncated parseU32 := settles_map _ (settles_takeExactly 4)

theorem settles_parseFields (remaining : ℕ) (previous : Option UInt16) :
    Settles .truncated (parseFields remaining previous) := by
  induction remaining generalizing previous with
  | zero => exact settles_pure []
  | succ remaining ih =>
    refine settles_bind settles_parseU16 fun fieldId ↦ ?_
    split_ifs
    · exact settles_throw _
    · refine settles_bind settles_parseU32 fun fieldLen ↦ ?_
      refine settles_bind (settles_takeExactly _) fun payload ↦ ?_
      exact settles_bind (ih (some fieldId)) fun fields ↦ settles_pure _

theorem settles_parseHeader : Settles .truncated parseHeader := by
  refine settles_bind (settles_takeExactly _) fun magic ↦ ?_
  split_ifs
  · exact settles_throw _
  · refine settles_bind settles_parseU16 fun typeId ↦ ?_
    refine settles_bind settles_parseU16 fun version ↦ ?_
    exact settles_bind settles_parseU16 fun fieldCount ↦ settles_pure _

theorem settles_parseFrame : Settles .truncated parseFrame :=
  settles_bind settles_parseHeader fun header ↦
    settles_bind (settles_parseFields header.2.2.toNat none) fun _ ↦ settles_pure _

/-- The verdict on an input that grows beyond an input with a given verdict. -/
def settledVerdict (verdict : Except CanonicalError CanonicalFrame) :
    Except CanonicalError CanonicalFrame :=
  match verdict with
  | .ok _ => .error .trailingBytes
  | .error failure => .error failure

theorem parseWholeFrame_append {input more : Bytes} (hmore : more ≠ []) :
    (∀ content, parseWholeFrame input = .ok content →
        parseWholeFrame (input ++ more) = .error .trailingBytes) ∧
      ∀ failure, parseWholeFrame input = .error failure → failure ≠ .truncated →
        parseWholeFrame (input ++ more) = .error failure := by
  unfold parseWholeFrame
  constructor
  · intro content hwhole
    obtain ⟨⟨parsed, rest⟩, hrun, -⟩ := bind_eq_ok_iff.mp hwhole
    rw [settles_parseFrame.run_append_of_ok input parsed rest hrun more]
    exact if_pos (by simp [hmore])
  · intro failure hwhole hsettled
    rcases bind_eq_error_iff.mp hwhole with herror | ⟨⟨parsed, rest⟩, hrun, htrailing⟩
    · rw [settles_parseFrame.run_append_of_error input failure herror hsettled more]
      rfl
    · rw [settles_parseFrame.run_append_of_ok input parsed rest hrun more]
      dsimp only at htrailing
      split_ifs at htrailing with hrest
      rw [← htrailing]
      exact if_pos (by simp [hmore])

variable [Target]

/-- A verdict on a proper part of an input settles the verdict on the input, unless the part is
truncated. -/
theorem decodeCanonicalFrame_append {input more : Bytes}
    (hfits : (input ++ more).length < 2 ^ Target.usizeBits) (hmore : more ≠ [])
    (hsettled : decodeCanonicalFrame input ≠ .error .truncated) :
    decodeCanonicalFrame (input ++ more) = settledVerdict (decodeCanonicalFrame input) := by
  have hinput : input.length < 2 ^ Target.usizeBits := by
    rw [List.length_append] at hfits
    omega
  obtain ⟨hok, herror⟩ := @parseWholeFrame_append input more hmore
  rw [decodeCanonicalFrame_eq_parseWholeFrame hinput] at hsettled ⊢
  rw [decodeCanonicalFrame_eq_parseWholeFrame hfits]
  cases hwhole : parseWholeFrame input with
  | ok content =>
    rw [hok content hwhole]
    rfl
  | error failure =>
    rw [hwhole] at hsettled
    rw [herror failure hwhole fun htruncated ↦ hsettled (congrArg _ htruncated)]
    rfl

/-- The decoder is asked about every part at the front of a stream.  Either every part is truncated,
or there is a point up to which the parts are truncated, at which the verdict falls, and behind
which it stays: the same error on every longer part, or trailing bytes if the part up to the point
is a frame. -/
theorem decodeCanonicalFrame_verdict_settles (stream : Slice) :
    (∀ length, decodeCanonicalFrame (stream.1.take length) = .error .truncated) ∨
      ∃ point ≤ stream.1.length,
        decodeCanonicalFrame (stream.1.take point) ≠ .error .truncated ∧
        (∀ length < point, decodeCanonicalFrame (stream.1.take length) = .error .truncated) ∧
        ∀ length, point < length → length ≤ stream.1.length →
          decodeCanonicalFrame (stream.1.take length) =
            settledVerdict (decodeCanonicalFrame (stream.1.take point)) := by
  classical
  by_cases hever : ∃ point, decodeCanonicalFrame (stream.1.take point) ≠ .error .truncated
  case neg =>
    exact .inl (by simpa using hever)
  refine .inr ⟨Nat.find hever, ?_, Nat.find_spec hever, ?_, ?_⟩
  · by_contra hlong
    have hwhole : decodeCanonicalFrame (stream.1.take stream.1.length) = .error .truncated :=
      not_not.mp (Nat.find_min hever (not_le.mp hlong))
    refine Nat.find_spec hever ?_
    rwa [List.take_of_length_le (not_le.mp hlong).le, ← stream.1.take_length]
  · intro length hlength
    exact not_not.mp (Nat.find_min hever hlength)
  · intro length hlength hstream
    have hsplit : stream.1.take length =
        stream.1.take (Nat.find hever) ++ (stream.1.take length).drop (Nat.find hever) := by
      conv_lhs => rw [← List.take_append_drop (Nat.find hever) (stream.1.take length)]
      rw [List.take_take, min_eq_left hlength.le]
    rw [hsplit]
    refine decodeCanonicalFrame_append ?_ ?_ (Nat.find_spec hever)
    · rw [← hsplit]
      rw [List.length_take_of_le hstream]
      calc
        length ≤ stream.1.length := hstream
        _ ≤ Target.isizeMax := stream.2
        _ < 2 ^ Target.usizeBits := Target.isizeMax_lt
    · rw [← List.length_pos_iff, List.length_drop, List.length_take]
      omega

end SunriseEdgeLedger.Core
