import Mathlib

/-!
# Deterministic machines and their histories

A machine consumes one input at a time, moves to a next state and shows an output.  The history of
a run is the list of its inputs paired with their outputs.  The rules below lift what one step
preserves to whole runs: an invariant of the state alone, an invariant that relates the state to
the history that led to it, a budget that bounds how often something happens by how often it was
paid for, and a law of conservation for what is fed, stored and emitted.  With a way to reset, the
states of an invariant are all that is reached, and from everywhere, if they are reached at all.
-/

namespace SunriseEdgeLedger.Foundation

universe u v w

/-- A deterministic machine with an output at every step. -/
structure Machine (State : Type u) (Input : Type v) (Output : Type w) where
  step : State → Input → State × Output

namespace Machine

variable {State : Type u} {Input : Type v} {Output : Type w}

section Runs

variable (machine : Machine State Input Output)

/-- The state after a list of inputs. -/
def run (state : State) (inputs : List Input) : State :=
  inputs.foldl (fun current input ↦ (machine.step current input).1) state

/-- The inputs of a run paired with their outputs. -/
def history : State → List Input → List (Input × Output)
  | _, [] => []
  | state, input :: inputs =>
    (input, (machine.step state input).2) :: history (machine.step state input).1 inputs

@[simp]
theorem run_nil (state : State) : machine.run state [] = state := rfl

@[simp]
theorem run_cons (state : State) (input : Input) (inputs : List Input) :
    machine.run state (input :: inputs) = machine.run (machine.step state input).1 inputs := rfl

theorem run_append (state : State) (first second : List Input) :
    machine.run state (first ++ second) = machine.run (machine.run state first) second :=
  List.foldl_append

@[simp]
theorem history_nil (state : State) : machine.history state [] = [] := rfl

@[simp]
theorem history_cons (state : State) (input : Input) (inputs : List Input) :
    machine.history state (input :: inputs) =
      (input, (machine.step state input).2) ::
        machine.history (machine.step state input).1 inputs := rfl

theorem history_append (state : State) (first second : List Input) :
    machine.history state (first ++ second) =
      machine.history state first ++ machine.history (machine.run state first) second := by
  induction first generalizing state with
  | nil => rfl
  | cons input first ih => simp only [List.cons_append, history_cons, run_cons, ih]

@[simp]
theorem length_history (state : State) (inputs : List Input) :
    (machine.history state inputs).length = inputs.length := by
  induction inputs generalizing state with
  | nil => rfl
  | cons input inputs ih => rw [history_cons, List.length_cons, List.length_cons, ih]

end Runs

section Rules

variable {machine : Machine State Input Output}

theorem run_cons_of_step {state next : State} {input : Input} {output : Output}
    (hstep : machine.step state input = (next, output)) (inputs : List Input) :
    machine.run state (input :: inputs) = machine.run next inputs := by
  rw [run_cons, hstep]

theorem history_cons_of_step {state next : State} {input : Input} {output : Output}
    (hstep : machine.step state input = (next, output)) (inputs : List Input) :
    machine.history state (input :: inputs) = (input, output) :: machine.history next inputs := by
  rw [history_cons, hstep]

/-- An invariant of the steps holds throughout every run. -/
theorem run_invariant (Invariant : State → Prop)
    (hstep : ∀ state input, Invariant state → Invariant (machine.step state input).1)
    {state : State} (hstate : Invariant state) (inputs : List Input) :
    Invariant (machine.run state inputs) := by
  induction inputs generalizing state with
  | nil => exact hstate
  | cons input inputs ih => exact ih (hstep state input hstate)

/-- A relation between history and state that every step preserves holds after every run. -/
theorem history_invariant (Related : List (Input × Output) → State → Prop)
    (hstep : ∀ past state input, Related past state →
      Related (past ++ [(input, (machine.step state input).2)]) (machine.step state input).1)
    {past : List (Input × Output)} {state : State} (hstate : Related past state)
    (inputs : List Input) :
    Related (past ++ machine.history state inputs) (machine.run state inputs) := by
  induction inputs generalizing past state with
  | nil => simpa using hstate
  | cons input inputs ih => simpa using ih (hstep past state input hstate)

/-- If every step spends at most what it is paid and what is saved up in the state, a whole run
spends at most the number of its paying events and what was saved up when it started. -/
theorem spent_le_countP (Invariant : State → Prop) (saved : State → ℕ)
    (spent : Input × Output → ℕ) (pays : Input × Output → Bool)
    (hinvariant : ∀ state input, Invariant state → Invariant (machine.step state input).1)
    (hstep : ∀ state input, Invariant state →
      spent (input, (machine.step state input).2) + saved (machine.step state input).1 ≤
        (pays (input, (machine.step state input).2)).toNat + saved state)
    {state : State} (hstate : Invariant state) (inputs : List Input) :
    ((machine.history state inputs).map spent).sum + saved (machine.run state inputs) ≤
      (machine.history state inputs).countP pays + saved state := by
  induction inputs generalizing state with
  | nil => simp
  | cons input inputs ih =>
    have hhead := hstep state input hstate
    have htail := ih (hinvariant state input hstate)
    simp only [history_cons, run_cons, List.map_cons, List.sum_cons, List.countP_cons]
    cases hpays : pays (input, (machine.step state input).2) with
    | false =>
      rw [hpays, Bool.toNat_false] at hhead
      rw [if_neg Bool.false_ne_true]
      omega
    | true =>
      rw [hpays, Bool.toNat_true] at hhead
      rw [if_pos rfl]
      omega

/-- If every step emits and stores parts of what was stored and what it is fed, in this order, so
does a whole run. -/
theorem emitted_sublist {Item : Type*} (Invariant : State → Prop) (stored : State → List Item)
    (fed : Input → List Item) (emitted : Output → List Item)
    (hinvariant : ∀ state input, Invariant state → Invariant (machine.step state input).1)
    (hstep : ∀ state input, Invariant state →
      (emitted (machine.step state input).2 ++ stored (machine.step state input).1).Sublist
        (stored state ++ fed input))
    {state : State} (hstate : Invariant state) (inputs : List Input) :
    ((machine.history state inputs).flatMap (fun event ↦ emitted event.2) ++
        stored (machine.run state inputs)).Sublist (stored state ++ inputs.flatMap fed) := by
  induction inputs generalizing state with
  | nil => simp
  | cons input inputs ih =>
    have hhead := (hstep state input hstate).append_right (inputs.flatMap fed)
    have htail := (ih (hinvariant state input hstate)).append_left
      (emitted (machine.step state input).2)
    rw [List.append_assoc, List.append_assoc] at hhead
    rw [history_cons, run_cons, List.flatMap_cons, List.flatMap_cons, List.append_assoc]
    -- What the rest emits was stored by the first step, or is fed later.
    exact htail.trans hhead

/-- If every state of an invariant is reached and can be reset, then exactly these states are
reached after every run. -/
theorem reaches_iff_of_reset (Invariant : State → Prop) {initial : State}
    (hinitial : Invariant initial)
    (hinvariant : ∀ state input, Invariant state → Invariant (machine.step state input).1)
    (hreset : ∀ state, Invariant state → ∃ input, (machine.step state input).1 = initial)
    (hreached : ∀ state, Invariant state → ∃ inputs, machine.run initial inputs = state)
    (earlier : List Input) (state : State) :
    (∃ later, machine.run initial (earlier ++ later) = state) ↔ Invariant state := by
  constructor
  · rintro ⟨later, rfl⟩
    exact run_invariant Invariant hinvariant hinitial _
  · intro hstate
    have hearlier := run_invariant Invariant hinvariant hinitial earlier
    obtain ⟨reset, hreset⟩ := hreset _ hearlier
    obtain ⟨inputs, hrun⟩ := hreached state hstate
    exact ⟨reset :: inputs, by rw [run_append, run_cons, hreset, hrun]⟩

end Rules

end Machine

end SunriseEdgeLedger.Foundation
