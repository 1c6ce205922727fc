/-
Module: Spqr.Lib.Simulation
Purpose: Forward simulations between two labelled systems: a step of the lower one is
  matched by a run of the upper one, possibly an empty one; and representations of states
  with which the steps commute.
Trusted boundary: none
Main exports:
  Simulates, Simulates.run, Simulates.reaches, Commutes, Commutes.run_iff
-/
import Spqr.Lib.Runs

namespace Labelled

variable {State Event Abstract Label : Type*}
  {lower : State → Event → State → Prop} {upper : Abstract → Label → Abstract → Prop}
  {Related : State → Abstract → Prop}

/-- Whatever the lower system does in one step, the upper one can follow. -/
structure Simulates (lower : State → Event → State → Prop)
    (upper : Abstract → Label → Abstract → Prop) (Related : State → Abstract → Prop) :
    Prop where
  follow : ∀ {before event after a}, Related before a → lower before event after →
    ∃ labels a', Run upper a labels a' ∧ Related after a'

namespace Simulates

/-- So it can follow whole runs. -/
theorem run (simulates : Simulates lower upper Related) {first last : State}
    {events : List Event} (taken : Run lower first events last) {a : Abstract}
    (related : Related first a) :
    ∃ labels a', Run upper a labels a' ∧ Related last a' := by
  induction taken with
  | refl => exact ⟨[], a, .refl, related⟩
  | tail _ final inductionHypothesis =>
      obtain ⟨labels, middle, prior, relates⟩ := inductionHypothesis
      obtain ⟨more, a', rest, relates'⟩ := simulates.follow relates final
      exact ⟨labels ++ more, a', prior.trans rest, relates'⟩

/-- A run of the lower system whose start is matched by a run of the upper one is
matched as a whole. -/
theorem reaches (simulates : Simulates lower upper Related) {first last : State}
    {events : List Event} (taken : Run lower first events last) {initial a : Abstract}
    {labels : List Label} (opening : Run upper initial labels a)
    (related : Related first a) :
    ∃ labels a', Run upper initial labels a' ∧ Related last a' := by
  obtain ⟨more, a', rest, relates⟩ := simulates.run taken related
  exact ⟨labels ++ more, a', opening.trans rest, relates⟩

end Simulates

/-! ### Represented states -/

variable {Code : Type*} {step : State → Event → Option State}
  {coded : Code → Event → Option Code} {encode : State → Code} {Holds : State → Prop}

/-- As long as the states are ones that `Holds` admits, a step on their
representations is the representation of the step. -/
structure Commutes (step : State → Event → Option State)
    (coded : Code → Event → Option Code) (encode : State → Code) (Holds : State → Prop) :
    Prop where
  square : ∀ {state} (event : Event), Holds state →
    coded (encode state) event = (step state event).map encode
  preserved : ∀ {before event after}, Holds before → step before event = some after →
    Holds after

/-- So the runs of the representations are the representations of the runs. -/
theorem Commutes.run_iff (commutes : Commutes step coded encode Holds) {first : State}
    (holds : Holds first) {events : List Event} {last : Code} :
    Run (fun before event after => coded before event = some after) (encode first) events
        last ↔
      ∃ state, Run (fun before event after => step before event = some after) first events
        state ∧ last = encode state := by
  constructor
  · intro run
    suffices ∃ state, Run (fun before event after => step before event = some after) first
        events state ∧ last = encode state ∧ Holds state by
      obtain ⟨state, run', same, _⟩ := this
      exact ⟨state, run', same⟩
    induction run with
    | refl => exact ⟨first, .refl, rfl, holds⟩
    | tail _ final inductionHypothesis =>
        obtain ⟨state, run', rfl, held⟩ := inductionHypothesis
        rw [commutes.square _ held] at final
        obtain ⟨after, taken, rfl⟩ := Option.map_eq_some_iff.mp final
        exact ⟨after, .tail run' taken, rfl, commutes.preserved held taken⟩
  · rintro ⟨state, run, rfl⟩
    suffices Run (fun before event after => coded before event = some after) (encode first)
        events (encode state) ∧ Holds state from this.1
    induction run with
    | refl => exact ⟨.refl, holds⟩
    | tail _ final inductionHypothesis =>
        obtain ⟨run', held⟩ := inductionHypothesis
        refine ⟨.tail run' ?_, commutes.preserved held final⟩
        rw [commutes.square _ held, final]
        rfl

end Labelled
