import SunriseEdgeLedger.Foundation.Machine

/-!
# Relations between machines

Three ways in which the runs of two machines can be related.  Machines that agree on every state of
an invariant have the same runs.  A simulation matches every step of a concrete machine by a run of
an abstract one that leaves related states and the same trace, and then every concrete run is
matched by an abstract run.  In lock step, related inputs lead from related states to related states
and related outputs, and then related runs have related histories.
-/

namespace SunriseEdgeLedger.Foundation

universe u v w u' v' w' x

namespace Machine

variable {State : Type u} {Input : Type v} {Output : Type w}
  {State' : Type u'} {Input' : Type v'} {Output' : Type w'} {Trace : Type x}

/-- Machines that agree on every state of an invariant have the same runs and histories. -/
theorem run_eq_of_agree {first second : Machine State Input Output} (Invariant : State → Prop)
    (hinvariant : ∀ state input, Invariant state → Invariant (first.step state input).1)
    (hagree : ∀ state input, Invariant state → first.step state input = second.step state input)
    {state : State} (hstate : Invariant state) (inputs : List Input) :
    first.run state inputs = second.run state inputs ∧
      first.history state inputs = second.history state inputs := by
  induction inputs generalizing state with
  | nil => exact ⟨rfl, rfl⟩
  | cons input inputs ih =>
    obtain ⟨hrun, hhistory⟩ := ih (hinvariant state input hstate)
    rw [run_cons, run_cons, history_cons, history_cons, hrun, hhistory, hagree state input hstate]
    exact ⟨rfl, rfl⟩

/-- Every step of the concrete machine is matched by a run of the abstract machine. -/
structure Simulates (abstract : Machine State' Input' Output') (concrete : Machine State Input Output)
    (Related : State → State' → Prop) (trace : Input × Output → List Trace)
    (trace' : Input' × Output' → List Trace) : Prop where
  matched : ∀ state state' input, Related state state' → ∃ inputs',
    Related (concrete.step state input).1 (abstract.run state' inputs') ∧
      trace (input, (concrete.step state input).2) =
        (abstract.history state' inputs').flatMap trace'

/-- Every run of the concrete machine is matched by a run of the abstract machine. -/
theorem Simulates.exists_run {abstract : Machine State' Input' Output'}
    {concrete : Machine State Input Output} {Related : State → State' → Prop}
    {trace : Input × Output → List Trace} {trace' : Input' × Output' → List Trace}
    (hsimulates : abstract.Simulates concrete Related trace trace') {state : State} {state' : State'}
    (hrelated : Related state state') (inputs : List Input) :
    ∃ inputs', Related (concrete.run state inputs) (abstract.run state' inputs') ∧
      (concrete.history state inputs).flatMap trace =
        (abstract.history state' inputs').flatMap trace' := by
  induction inputs generalizing state state' with
  | nil => exact ⟨[], hrelated, rfl⟩
  | cons input inputs ih =>
    obtain ⟨first, hfirst, hfirstTrace⟩ := hsimulates.matched state state' input hrelated
    obtain ⟨second, hsecond, hsecondTrace⟩ := ih hfirst
    refine ⟨first ++ second, ?_, ?_⟩
    · rw [run_cons, run_append]
      exact hsecond
    · rw [history_cons, List.flatMap_cons, hfirstTrace, hsecondTrace, history_append,
        List.flatMap_append]

/-- Related inputs lead from related states to related states and related outputs.  Whether two
inputs are related may depend on the states. -/
structure InLockStep (first : Machine State Input Output) (second : Machine State' Input' Output')
    (Related : State → State' → Prop) (Inputs : State → Input → Input' → Prop)
    (Outputs : Output → Output' → Prop) : Prop where
  step : ∀ state state' input input', Related state state' → Inputs state input input' →
    Related (first.step state input).1 (second.step state' input').1 ∧
      Outputs (first.step state input).2 (second.step state' input').2

/-- Two lists of inputs that are related all along the run of the first one. -/
inductive RelatedThroughout (first : Machine State Input Output)
    (Inputs : State → Input → Input' → Prop) : State → List Input → List Input' → Prop where
  | nil (state : State) : RelatedThroughout first Inputs state [] []
  | cons {state : State} {input : Input} {input' : Input'} {inputs : List Input}
      {inputs' : List Input'} (hinput : Inputs state input input')
      (hinputs : RelatedThroughout first Inputs (first.step state input).1 inputs inputs') :
      RelatedThroughout first Inputs state (input :: inputs) (input' :: inputs')

/-- Related runs end in related states and have related outputs all along. -/
theorem InLockStep.run {first : Machine State Input Output}
    {second : Machine State' Input' Output'} {Related : State → State' → Prop}
    {Inputs : State → Input → Input' → Prop} {Outputs : Output → Output' → Prop}
    (hlockStep : first.InLockStep second Related Inputs Outputs) {state : State} {state' : State'}
    {inputs : List Input} {inputs' : List Input'} (hrelated : Related state state')
    (hinputs : first.RelatedThroughout Inputs state inputs inputs') :
    Related (first.run state inputs) (second.run state' inputs') ∧
      List.Forall₂ (fun event event' ↦ Outputs event.2 event'.2) (first.history state inputs)
        (second.history state' inputs') := by
  induction hinputs generalizing state' with
  | nil => exact ⟨hrelated, .nil⟩
  | @cons state input input' inputs inputs' hinput hinputs ih =>
    obtain ⟨hnext, houtput⟩ := hlockStep.step state state' input input' hrelated hinput
    obtain ⟨hrun, hhistory⟩ := ih hnext
    exact ⟨hrun, .cons houtput hhistory⟩

end Machine

end SunriseEdgeLedger.Foundation
