import SunriseEdgeLedger.Core.OneShot

/-!
# Phases of a signing session

The abstract sessions: idle, collecting a part of a frame, or holding a complete frame whose review
is pending.  A phase carries what holds of it, so that a collection is always non-empty and short of
its total and a pending frame is always approvable.  Every phase has exactly one representation as
a session of the code, with the content in front of a zeroed buffer.

The dispatcher is then described once: on the representation of a phase it leaves the representation
of a phase, and `Dispatches` lists everything that can happen.
-/

namespace SunriseEdgeLedger.Core

open Foundation

/-- The length of a frame survives as a `u32`. -/
theorem toNat_ofNat_of_le_maxFrameLen {length : ℕ} (hlength : length ≤ maxFrameLen) :
    (UInt32.ofNat length).toNat = length :=
  UInt32.toNat_ofNat_of_lt' (hlength.trans_lt (by decide))

/-- The session that has buffered a content and is otherwise as given. -/
def stored (state : SessionState) (path : Option DerivationPath) (total : UInt32)
    (content : Bytes) : SigningSession where
  state := state
  buffer := padTo maxFrameLen 0 content
  bufferedLen := content.length
  declaredTotal := total
  receivedLen := UInt32.ofNat content.length
  path := path

section Stored

variable {state : SessionState} {path : Option DerivationPath} {total : UInt32} {content : Bytes}

@[simp]
theorem state_stored : (stored state path total content).state = state := rfl

@[simp]
theorem buffer_stored :
    (stored state path total content).buffer = padTo maxFrameLen 0 content := rfl

@[simp]
theorem bufferedLen_stored : (stored state path total content).bufferedLen = content.length := rfl

@[simp]
theorem declaredTotal_stored : (stored state path total content).declaredTotal = total := rfl

@[simp]
theorem path_stored : (stored state path total content).path = path := rfl

/-- Wiping a session that has buffered a content leaves exactly a new session. -/
theorem wipe_stored (hcontent : content.length ≤ maxFrameLen) :
    (stored state path total content).wipe = .new := by
  have hbuffer := overwrite_padTo_filler (0 : UInt8) content hcontent
  simp only [SigningSession.wipe, stored, hbuffer, Option.getD_some]
  rfl

theorem getRange_stored (hcontent : content.length ≤ maxFrameLen) :
    getRange (stored state path total content).buffer.toList 0
      (stored state path total content).bufferedLen = some content :=
  getRange_padTo 0 content hcontent

theorem toNat_receivedLen_stored (hcontent : content.length ≤ maxFrameLen) :
    (stored state path total content).receivedLen.toNat = content.length :=
  toNat_ofNat_of_le_maxFrameLen hcontent

/-- Appending succeeds exactly up to the declared total; none of the defensive checks fails. -/
theorem appendChunk_stored [Target] {chunk : Bytes} (hcontent : content.length ≤ maxFrameLen)
    (hchunk : chunk.length ≤ maxChunkLen) (htotal : total.toNat ≤ maxFrameLen) :
    (stored state path total content).appendChunk chunk =
      if content.length + chunk.length ≤ total.toNat then
        .ok (stored state path total (content ++ chunk))
      else .error ⟨stored state path total content, .profileBoundExceeded, []⟩ := by
  have hcontentNat : content.length ≤ 4096 := hcontent
  have hchunkNat : chunk.length ≤ 230 := hchunk
  have htotalNat : total.toNat ≤ 4096 := htotal
  have hchunkLen : u32TryFrom chunk.length = some (UInt32.ofNat chunk.length) :=
    if_pos (by omega)
  have hsum : (UInt32.ofNat content.length + UInt32.ofNat chunk.length).toNat =
      content.length + chunk.length := by
    rw [UInt32.toNat_add, UInt32.toNat_ofNat', UInt32.toNat_ofNat']
    omega
  have hreceived : u32CheckedAdd (stored state path total content).receivedLen
      (UInt32.ofNat chunk.length) = some (UInt32.ofNat (content ++ chunk).length) := by
    rw [u32CheckedAdd, toNat_receivedLen_stored hcontent, UInt32.toNat_ofNat',
      Nat.mod_eq_of_lt (by omega), if_pos (by omega)]
    congr 1
    rw [List.length_append, ← UInt32.toNat_inj]
    refine hsum.trans ?_
    rw [UInt32.toNat_ofNat', Nat.mod_eq_of_lt (by omega)]
  have hbound : UInt32.ofNat (content ++ chunk).length ≤
      (stored state path total content).declaredTotal ↔
        content.length + chunk.length ≤ total.toNat := by
    rw [declaredTotal_stored, UInt32.le_iff_toNat_le, UInt32.toNat_ofNat', List.length_append,
      Nat.mod_eq_of_lt (by omega)]
  simp only [SigningSession.appendChunk, hchunkLen, hreceived, okOr_some, ok_bind]
  split_ifs with hfits
  · have hlen : checkedAdd content.length chunk.length = some (content ++ chunk).length :=
      checkedAdd_eq_some_iff.mpr ⟨List.length_append.symm,
        lt_of_lt_of_le (by rw [List.length_append]; omega) Target.two_pow_le⟩
    have hbuffer : overwrite (padTo maxFrameLen 0 content) content.length chunk =
        some (padTo maxFrameLen 0 (content ++ chunk)) :=
      overwrite_padTo (0 : UInt8) content chunk (hfits.trans htotal)
    simp only [ensure_of_true (hbound.mpr hfits), bufferedLen_stored, buffer_stored, hlen, hbuffer,
      okOr_some, ok_bind]
    rfl
  · rw [ensure_of_false (hbound.not.mpr hfits), error_bind]

end Stored

/-- A frame that is being collected: some of it is there, and some of it is missing. -/
structure Collection where
  path : DerivationPath
  total : UInt32
  content : Bytes
  content_ne : content ≠ []
  length_lt : content.length < total.toNat
  total_le : total.toNat ≤ maxFrameLen

namespace Collection

theorem length_le (collection : Collection) : collection.content.length ≤ maxFrameLen :=
  collection.length_lt.le.trans collection.total_le

theorem length_pos (collection : Collection) : 0 < collection.content.length :=
  List.length_pos_iff.mpr collection.content_ne

end Collection

/-- A command of `sign transaction` with a given first parameter. -/
structure IsSign (command : ApduCommand) (p1 : UInt8) : Prop where
  cla_eq : command.cla = cla
  ins_eq : command.ins = insSignTransaction
  p1_eq : command.p1 = p1
  p2_eq : command.p2 = 0x00

/-- One command is not two kinds of `sign transaction` command. -/
theorem IsSign.not_isSign {command : ApduCommand} {p1 p1' : UInt8} (hsign : IsSign command p1)
    (hne : p1 ≠ p1') : ¬ IsSign command p1' :=
  fun hsign' ↦ hne (hsign.p1_eq.symm.trans hsign'.p1_eq)

/-- The declared total in the data of `FIRST`. -/
def firstTotal (data : Bytes) : ℕ := ofBigEndian (data.take 4)

/-- The encoded path in the data of `FIRST`. -/
def firstPathBytes (data : Bytes) : Bytes := (data.drop 4).take pathEncodedLen

/-- The chunk in the data of `FIRST`. -/
def firstChunk (data : Bytes) : Bytes := data.drop (4 + pathEncodedLen)

/-- The data of a `FIRST` that an idle session accepts. -/
structure OpensCollection (data : Bytes) (path : DerivationPath) : Prop where
  length_ge : firstMinDataLen ≤ data.length
  length_le : data.length ≤ firstMaxDataLen
  path_eq : decodePath (firstPathBytes data) = .ok path
  chunk_lt : (firstChunk data).length < firstTotal data
  total_le : firstTotal data ≤ maxFrameLen

theorem length_firstChunk (data : Bytes) : (firstChunk data).length = data.length - 25 := by
  simp [firstChunk, pathEncodedLen, pathDepth]

theorem OpensCollection.toNat_total {data : Bytes} {path : DerivationPath}
    (hopens : OpensCollection data path) :
    (UInt32.ofNat (firstTotal data)).toNat = firstTotal data :=
  toNat_ofNat_of_le_maxFrameLen hopens.total_le

/-- The collection that `FIRST` opens. -/
def Collection.opened {data : Bytes} {path : DerivationPath} (hopens : OpensCollection data path) :
    Collection where
  path := path
  total := UInt32.ofNat (firstTotal data)
  content := firstChunk data
  content_ne := by
    have hlength : 26 ≤ data.length := hopens.length_ge
    have hchunk := length_firstChunk data
    rw [← List.length_pos_iff]
    omega
  length_lt := by
    rw [hopens.toNat_total]
    exact hopens.chunk_lt
  total_le := by
    rw [hopens.toNat_total]
    exact hopens.total_le

/-- The data of a `CONTINUE` that a collection accepts. -/
structure ExtendsCollection (collection : Collection) (data : Bytes) : Prop where
  data_ne : data ≠ []
  length_le : data.length ≤ maxChunkLen
  short : collection.content.length + data.length < collection.total.toNat

/-- The collection after `CONTINUE`. -/
def Collection.extended {collection : Collection} {data : Bytes}
    (hextends : ExtendsCollection collection data) : Collection where
  path := collection.path
  total := collection.total
  content := collection.content ++ data
  content_ne := by simp [collection.content_ne]
  length_lt := by simpa using hextends.short
  total_le := collection.total_le

/-- The data of a `LAST` that delivers exactly what is missing. -/
structure CompletesCollection (collection : Collection) (data : Bytes) : Prop where
  data_ne : data ≠ []
  length_le : data.length ≤ maxChunkLen
  complete : collection.content.length + data.length = collection.total.toNat

theorem CompletesCollection.length_eq {collection : Collection} {data : Bytes}
    (hcompletes : CompletesCollection collection data) :
    (collection.content ++ data).length = collection.total.toNat :=
  List.length_append.trans hcompletes.complete

/-- A command of `verify public key` with a valid path. -/
structure VerifiesKey (command : ApduCommand) (path : DerivationPath) : Prop where
  cla_eq : command.cla = cla
  ins_eq : command.ins = insVerifyPublicKey
  p1_eq : command.p1 = 0x01
  p2_eq : command.p2 = 0x00
  path_eq : decodePath command.data = .ok path

theorem VerifiesKey.not_isSign {command : ApduCommand} {path : DerivationPath} {p1 : UInt8}
    (hverifies : VerifiesKey command path) : ¬ IsSign command p1 :=
  fun hsign ↦ absurd (hverifies.ins_eq.symm.trans hsign.ins_eq) (by decide)

/-- The status words of a refusal that is the sender's own fault. -/
def StatusWord.IsRefusal (status : StatusWord) : Prop :=
  status ≠ .success ∧ status ≠ .userRejected ∧ status ≠ .internalFailure

instance (status : StatusWord) : Decidable status.IsRefusal :=
  inferInstanceAs (Decidable (_ ∧ _ ∧ _))

/-! ## Phases -/

variable [Target]

/-- A complete frame whose review waits for the user, under the policy that recognized it. -/
structure PendingReview where
  path : DerivationPath
  framed : Bytes
  policy : ClearSigningPolicy
  review : ClearSigningReview
  approvable : Approvable policy framed review
  length_le : framed.length ≤ maxFrameLen

/-- The abstract state of a session. -/
inductive Phase where
  | idle
  | collecting (collection : Collection)
  | awaiting (pending : PendingReview)

namespace Phase

/-- The session of the code that stands for a phase. -/
def represent : Phase → SigningSession
  | idle => .new
  | collecting collection =>
    stored .collecting (some collection.path) collection.total collection.content
  | awaiting pending =>
    stored .awaitingApproval (some pending.path) (UInt32.ofNat pending.framed.length)
      pending.framed

/-- Wiping the session of a phase leaves a new session. -/
theorem wipe_represent (phase : Phase) : phase.represent.wipe = .new := by
  cases phase with
  | idle => exact wipe_stored (Nat.zero_le _)
  | collecting collection => exact wipe_stored collection.length_le
  | awaiting pending => exact wipe_stored pending.length_le

@[simp]
theorem state_idle : idle.represent.state = .idle := rfl

@[simp]
theorem state_collecting (collection : Collection) :
    (collecting collection).represent.state = .collecting := rfl

@[simp]
theorem state_awaiting (pending : PendingReview) :
    (awaiting pending).represent.state = .awaitingApproval := rfl

@[simp]
theorem path_idle : idle.represent.path = none := rfl

@[simp]
theorem path_collecting (collection : Collection) :
    (collecting collection).represent.path = some collection.path := rfl

@[simp]
theorem path_awaiting (pending : PendingReview) :
    (awaiting pending).represent.path = some pending.path := rfl

/-- The bytes that a phase holds. -/
def content : Phase → Bytes
  | idle => []
  | collecting collection => collection.content
  | awaiting pending => pending.framed

/-- The declared length of the frame of a phase. -/
def total : Phase → ℕ
  | idle => 0
  | collecting collection => collection.total.toNat
  | awaiting pending => pending.framed.length

theorem content_length_le_total (phase : Phase) : phase.content.length ≤ phase.total := by
  cases phase with
  | idle => exact le_rfl
  | collecting collection => exact collection.length_lt.le
  | awaiting pending => exact le_rfl

theorem total_le (phase : Phase) : phase.total ≤ maxFrameLen := by
  cases phase with
  | idle => exact Nat.zero_le _
  | collecting collection => exact collection.total_le
  | awaiting pending => exact pending.length_le

theorem content_length_le (phase : Phase) : phase.content.length ≤ maxFrameLen :=
  phase.content_length_le_total.trans phase.total_le

theorem buffer_represent (phase : Phase) :
    phase.represent.buffer = padTo maxFrameLen 0 phase.content := by
  cases phase <;> rfl

theorem bufferedLen_represent (phase : Phase) :
    phase.represent.bufferedLen = phase.content.length := by
  cases phase <;> rfl

theorem receivedLen_represent (phase : Phase) :
    phase.represent.receivedLen = UInt32.ofNat phase.content.length := by
  cases phase <;> rfl

theorem toNat_receivedLen_represent (phase : Phase) :
    phase.represent.receivedLen.toNat = phase.content.length := by
  rw [receivedLen_represent, toNat_ofNat_of_le_maxFrameLen phase.content_length_le]

theorem toNat_declaredTotal_represent (phase : Phase) :
    phase.represent.declaredTotal.toNat = phase.total := by
  cases phase with
  | idle => rfl
  | collecting collection => rfl
  | awaiting pending => exact toNat_ofNat_of_le_maxFrameLen pending.length_le

theorem getRange_represent (phase : Phase) :
    getRange phase.represent.buffer.toList 0 phase.represent.bufferedLen = some phase.content := by
  rw [buffer_represent, bufferedLen_represent]
  exact getRange_padTo 0 phase.content phase.content_length_le

/-- The pending frame is there exactly while a review is pending. -/
theorem pendingFrame_represent (phase : Phase) :
    phase.represent.pendingFrame =
      if phase.represent.state = .awaitingApproval then some phase.content else none := by
  rw [SigningSession.pendingFrame, getRange_represent]
  split_ifs <;> simp_all

/-- Only the idle phase is represented by an idle session. -/
theorem isIdle_represent {phase : Phase} : phase.represent.isIdle ↔ phase = idle := by
  cases phase <;> simp [represent, SigningSession.isIdle, SigningSession.new]

end Phase

/-- The pending review after a `LAST` whose frame passes the check. -/
def PendingReview.completed {collection : Collection} {data : Bytes}
    (hcompletes : CompletesCollection collection data) {deriver : PublicKeyDeriver}
    {policy : ClearSigningPolicy} {review : ClearSigningReview}
    (hcheck : oneShotCheck collection.path (collection.content ++ data) deriver policy =
      .ok review) : PendingReview where
  path := collection.path
  framed := collection.content ++ data
  policy := policy
  review := review
  approvable := approvable_of_oneShotCheck hcheck
  length_le := hcompletes.length_eq.trans_le collection.total_le

/-! ## What a command can do -/

/-- A command with which a phase cannot do anything but refuse it or, if the command asks for that,
report the configuration or reset. -/
structure Unfit (command : ApduCommand) (phase : Phase) : Prop where
  not_verifies : phase = .idle → ∀ path, ¬ VerifiesKey command path
  not_opens : phase = .idle → ∀ path,
    ¬ (IsSign command signP1First ∧ OpensCollection command.data path)
  not_extends : ∀ collection, phase = .collecting collection →
    ¬ (IsSign command signP1Continue ∧ ExtendsCollection collection command.data)
  not_completes : ∀ collection, phase = .collecting collection →
    ¬ (IsSign command signP1Last ∧ CompletesCollection collection command.data)

namespace Unfit

variable {command : ApduCommand}

theorem idle (hverifies : ∀ path, ¬ VerifiesKey command path)
    (hopens : ∀ path, ¬ (IsSign command signP1First ∧ OpensCollection command.data path)) :
    Unfit command .idle where
  not_verifies _ := hverifies
  not_opens _ := hopens
  not_extends _ hphase := by cases hphase
  not_completes _ hphase := by cases hphase

theorem collecting {collection : Collection}
    (hextends : ¬ (IsSign command signP1Continue ∧ ExtendsCollection collection command.data))
    (hcompletes : ¬ (IsSign command signP1Last ∧ CompletesCollection collection command.data)) :
    Unfit command (.collecting collection) where
  not_verifies hphase := by cases hphase
  not_opens hphase := by cases hphase
  not_extends _ hphase := by cases hphase; exact hextends
  not_completes _ hphase := by cases hphase; exact hcompletes

theorem awaiting (pending : PendingReview) : Unfit command (.awaiting pending) where
  not_verifies hphase := by cases hphase
  not_opens hphase := by cases hphase
  not_extends _ hphase := by cases hphase
  not_completes _ hphase := by cases hphase

/-- A command of another instruction fits no phase. -/
theorem of_ins (hverify : command.ins ≠ insVerifyPublicKey) (hsign : command.ins ≠ insSignTransaction)
    (phase : Phase) : Unfit command phase where
  not_verifies _ _ hverifies := hverify hverifies.ins_eq
  not_opens _ _ hopens := hsign hopens.1.ins_eq
  not_extends _ _ hextends := hsign hextends.1.ins_eq
  not_completes _ _ hcompletes := hsign hcompletes.1.ins_eq

theorem of_cla (hcla : command.cla ≠ cla) (phase : Phase) : Unfit command phase where
  not_verifies _ _ hverifies := hcla hverifies.cla_eq
  not_opens _ _ hopens := hcla hopens.1.cla_eq
  not_extends _ _ hextends := hcla hextends.1.cla_eq
  not_completes _ _ hcompletes := hcla hcompletes.1.cla_eq

end Unfit

/-- Everything that dispatching a command on a phase can do: the next phase, the outcome, and the
derivations made on the way. -/
inductive Dispatches (deriver : PublicKeyDeriver) (policy : ClearSigningPolicy)
    (command : ApduCommand) : Phase → Phase → DispatchOutcome → List Derivation → Prop where
  | refused {phase : Phase} {status : StatusWord} (hstatus : status.IsRefusal)
      (hunfit : Unfit command phase) :
      Dispatches deriver policy command phase .idle (.failure status) []
  | configured (hins : command.ins = insGetConfiguration) :
      Dispatches deriver policy command .idle .idle
        (.success (.configuration configurationResponse)) []
  | reset {phase : Phase} (hins : command.ins = insResetSigning) :
      Dispatches deriver policy command phase .idle (.success .empty) []
  | underivable {path : DerivationPath} (hverify : VerifiesKey command path)
      (hkey : deriver path = none) :
      Dispatches deriver policy command .idle .idle (.failure .internalFailure) [⟨path, none⟩]
  | derived {path : DerivationPath} {publicKey : ByteArrayN 32}
      (hverify : VerifiesKey command path) (hkey : deriver path = some publicKey) :
      Dispatches deriver policy command .idle .idle (.reviewPublicKey path publicKey)
        [⟨path, some publicKey⟩]
  | opened {path : DerivationPath} (hsign : IsSign command signP1First)
      (hopens : OpensCollection command.data path) :
      Dispatches deriver policy command .idle (.collecting (.opened hopens)) (.success .empty) []
  | extended {collection : Collection} (hsign : IsSign command signP1Continue)
      (hextends : ExtendsCollection collection command.data) :
      Dispatches deriver policy command (.collecting collection)
        (.collecting (.extended hextends)) (.success .empty) []
  | unchecked {collection : Collection} {status : StatusWord}
      (hsign : IsSign command signP1Last)
      (hcompletes : CompletesCollection collection command.data)
      (hcheck : oneShotCheck collection.path (collection.content ++ command.data) deriver policy =
        .error status) :
      Dispatches deriver policy command (.collecting collection) .idle (.failure status)
        (oneShotDerivations collection.path (collection.content ++ command.data) deriver)
  | reviewed {collection : Collection} {review : ClearSigningReview}
      (hsign : IsSign command signP1Last)
      (hcompletes : CompletesCollection collection command.data)
      (hcheck : oneShotCheck collection.path (collection.content ++ command.data) deriver policy =
        .ok review) :
      Dispatches deriver policy command (.collecting collection)
        (.awaiting (.completed hcompletes hcheck)) (.reviewTransaction review)
        (oneShotDerivations collection.path (collection.content ++ command.data) deriver)

end SunriseEdgeLedger.Core
