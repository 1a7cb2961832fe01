import SunriseEdgeLedger.Core.SessionReachability
import SunriseEdgeLedger.Device.HostExchange

/-!
# The states of the loop that are reached

At the head of the loop the application has an idle session or that of a collection.  All of these
are reached, after whatever happened before: a collection by the commands that deliver its content,
in between which the loop does not reply but with success.
-/

namespace SunriseEdgeLedger.Device

open SunriseEdgeLedger.Foundation SunriseEdgeLedger.Core

variable [Target]

/-- Every collection is reached by the loop. -/
theorem exists_run_delivery (collection : Collection) :
    ∃ inputs, normalMain.run (.running .new) inputs =
      .running (Phase.collecting collection).represent := by
  obtain ⟨data, hopens, middles, htotal, hcontent, hshort, hmiddles⟩ := exists_delivery collection
  have hstep := step_of_opens (carries_approving (signCommand signP1First data)) hopens
  have hcarries : List.Forall₂ Carries
      ((middles.map (signCommand signP1Continue)).map approving)
      (middles.map (signCommand signP1Continue)) :=
    List.forall₂_map_left_iff.mpr (List.forall₂_same.mpr fun command _ ↦ carries_approving command)
  obtain ⟨collected, hpath, hcollectedTotal, hcollectedContent, hrun, -⟩ :=
    exists_collection_of_continues hcarries (.opened hopens) hmiddles hshort
  refine ⟨_, (Machine.run_cons_of_step hstep _).trans (hrun.trans ?_)⟩
  rw [Phase.represent, Phase.represent, hpath, hcollectedTotal, hcollectedContent, htotal, hcontent]
  rfl

theorem exists_run_atHead {phase : Phase} (hhead : AtHead phase) :
    ∃ inputs, normalMain.run (.running .new) inputs = .running phase.represent := by
  cases phase with
  | idle => exact ⟨[], rfl⟩
  | collecting collection => exact exists_run_delivery collection
  | awaiting pending => exact absurd rfl (hhead pending)

/-- After every run of the loop, exactly the idle session and the sessions of collections can still
be reached: a state is reached by some further commands if and only if it is one of these. -/
theorem normalMain_reaches_exactly (earlier : List Received) (state : LoopState) :
    (∃ later, normalMain.run (.running .new) (earlier ++ later) = state) ↔ RunsAtHead state := by
  refine Machine.reaches_iff_of_reset RunsAtHead ⟨.idle, rfl, atHead_idle⟩ runsAtHead_step ?_ ?_
    earlier state
  · rintro _ ⟨phase, rfl, -⟩
    refine ⟨approving resetCommand, ?_⟩
    rw [step_of_iterate (iterate_of_reset (carries_approving resetCommand))]
  · rintro _ ⟨phase, rfl, hhead⟩
    exact exists_run_atHead hhead

end SunriseEdgeLedger.Device
