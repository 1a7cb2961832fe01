import SunriseEdgeLedger.Device.HostExchange

/-!
# What the loop remembers

Everything that the application remembers between two commands comes from the commands that it has
accepted since it was idle, without any other command in between.  A failure, a review or a reset
cuts off whatever was before.
-/

namespace SunriseEdgeLedger.Device

open SunriseEdgeLedger.Foundation SunriseEdgeLedger.Core

variable [Target]

/-- The recent commands lead from a new session to a phase, which holds a byte for each of them at
least. -/
structure Remembers (inputs : List Received) (phase : Phase) (earlier recent : List Received) :
    Prop where
  inputs_eq : inputs = earlier ++ recent
  earlier_eq : normalMain.run (.running .new) earlier = .running .new
  run_eq : normalMain.run (.running .new) recent = .running phase.represent
  accepted : (normalMain.history (.running .new) recent).map Prod.snd =
    List.replicate recent.length emptySuccess
  length_le : recent.length ≤ phase.content.length

namespace Remembers

variable {inputs earlier recent : List Received} {phase next : Phase} {received : Received}

theorem run_inputs (hremembers : Remembers inputs phase earlier recent) :
    normalMain.run (.running .new) inputs = .running phase.represent := by
  rw [hremembers.inputs_eq, Machine.run_append, hremembers.earlier_eq, hremembers.run_eq]

/-- An iteration that ends idle leaves nothing to remember. -/
theorem forgotten (hremembers : Remembers inputs phase earlier recent) {events : List DeviceEvent}
    (hstep : normalMain.step (.running phase.represent) received =
      (.running Phase.idle.represent, events)) :
    Remembers (inputs ++ [received]) .idle (inputs ++ [received]) [] where
  inputs_eq := (List.append_nil _).symm
  earlier_eq := by
    rw [Machine.run_append, hremembers.run_inputs, Machine.run_cons_of_step hstep]
    rfl
  run_eq := rfl
  accepted := rfl
  length_le := Nat.zero_le _

/-- An accepted command is remembered. -/
theorem accept (hremembers : Remembers inputs phase earlier recent)
    (hstep : normalMain.step (.running phase.represent) received =
      (.running next.represent, emptySuccess))
    (hlonger : phase.content.length < next.content.length) :
    Remembers (inputs ++ [received]) next earlier (recent ++ [received]) where
  inputs_eq := by rw [hremembers.inputs_eq, List.append_assoc]
  earlier_eq := hremembers.earlier_eq
  run_eq := by
    rw [Machine.run_append, hremembers.run_eq, Machine.run_cons_of_step hstep]
    rfl
  accepted := by
    rw [Machine.history_append, hremembers.run_eq, List.map_append, hremembers.accepted,
      Machine.history_cons_of_step hstep, List.length_append, List.replicate_append_replicate.symm]
    rfl
  length_le := by
    have hlength := hremembers.length_le
    rw [List.length_append, List.length_singleton]
    omega

/-- One more command. -/
theorem step (hremembers : Remembers inputs phase earlier recent) (hhead : AtHead phase)
    (received : Received) :
    ∃ next earlier recent, AtHead next ∧ Remembers (inputs ++ [received]) next earlier recent := by
  obtain ⟨next, events, hstep, hnext, hiterates⟩ := step_normalMain hhead received
  cases hiterates with
  | @opened _ path hheader hsign hopens =>
    cases hsends : received.sends with
    | false =>
      rw [Received.kept, if_neg (by simp [hsends])] at hstep
      exact ⟨.idle, _, _, atHead_idle, hremembers.forgotten hstep⟩
    | true =>
      rw [kept_of_sends hsends] at hstep hnext
      rw [hsends] at hstep
      refine ⟨_, _, _, hnext, hremembers.accept hstep ?_⟩
      change 0 < (firstChunk received.data).length
      have hmin : 26 ≤ received.data.length := hopens.length_ge
      have hlength := length_firstChunk received.data
      change _ = _ - 25 at hlength
      omega
  | @extended collection _ hheader hsign hextends =>
    cases hsends : received.sends with
    | false =>
      rw [Received.kept, if_neg (by simp [hsends])] at hstep
      exact ⟨.idle, _, _, atHead_idle, hremembers.forgotten hstep⟩
    | true =>
      rw [kept_of_sends hsends] at hstep hnext
      rw [hsends] at hstep
      refine ⟨_, _, _, hnext, hremembers.accept hstep ?_⟩
      change collection.content.length < (collection.content ++ received.data).length
      have hpos := List.length_pos_iff.mpr hextends.data_ne
      rw [List.length_append]
      omega
  | _ => exact ⟨.idle, _, _, atHead_idle, hremembers.forgotten hstep⟩

end Remembers

theorem exists_remembers (inputs : List Received) :
    ∃ phase earlier recent, AtHead phase ∧ Remembers inputs phase earlier recent := by
  induction inputs using List.reverseRecOn with
  | nil => exact ⟨.idle, [], [], atHead_idle, rfl, rfl, rfl, rfl, Nat.zero_le _⟩
  | append_singleton inputs received ih =>
    obtain ⟨phase, earlier, recent, hhead, hremembers⟩ := ih
    exact hremembers.step hhead received

/-- Every run splits into a part that leaves a new session, and the commands since then, all of
which were answered with an empty success that was sent.  The state depends on the latter only, and
there are fewer of them than a frame has bytes.  So nothing that happened before them has an
influence on what the application does from now on. -/
theorem normalMain_forgets (inputs : List Received) :
    ∃ earlier recent, inputs = earlier ++ recent ∧
      normalMain.run (.running .new) earlier = .running .new ∧
      (normalMain.history (.running .new) recent).map Prod.snd =
        List.replicate recent.length [.sent [] 0x9000 true] ∧
      recent.length < maxFrameLen ∧
      ∀ later, normalMain.run (.running .new) (inputs ++ later) =
          normalMain.run (.running .new) (recent ++ later) ∧
        normalMain.history (.running .new) (inputs ++ later) =
          normalMain.history (.running .new) inputs ++
            (normalMain.history (.running .new) (recent ++ later)).drop recent.length := by
  obtain ⟨phase, earlier, recent, hhead, hremembers⟩ := exists_remembers inputs
  have hrun := hremembers.run_inputs
  refine ⟨earlier, recent, hremembers.inputs_eq, hremembers.earlier_eq, hremembers.accepted, ?_, ?_⟩
  · cases phase with
    | idle =>
      have hnone : recent.length ≤ 0 := hremembers.length_le
      change recent.length < 4096
      omega
    | collecting collection =>
      calc
        recent.length ≤ collection.content.length := hremembers.length_le
        _ < collection.total.toNat := collection.length_lt
        _ ≤ maxFrameLen := collection.total_le
    | awaiting pending => exact absurd rfl (hhead pending)
  · intro later
    have hlength : (normalMain.history (.running .new) recent).length = recent.length := by
      have haccepted := congrArg List.length hremembers.accepted
      rwa [List.length_map, List.length_replicate] at haccepted
    rw [Machine.run_append, Machine.run_append, Machine.history_append, Machine.history_append,
      hrun, hremembers.run_eq, List.drop_left' hlength]
    exact ⟨rfl, rfl⟩

end SunriseEdgeLedger.Device
