/-
Module: Spqr.Lib.Runs
Purpose: Finite runs of a labelled step relation: composition, restriction to
  allowed events, the invariant rule and the termination rule; and machines fed
  with inputs, whose reactions may be undefined.
Trusted boundary: none
Main exports:
  Run, Within, Stuck, Run.invariant, Run.mono, Run.trans, Throughout,
  throughout_iff, within_iff, stepAll, run_of_stepAll, no_infinite_run, exists_stuck,
  exists_goal, feed, Meets, feed_isSome_iff
-/
import Mathlib.Logic.Relation
import Mathlib.Order.WellFounded

namespace Labelled

variable {State Event : Type*}

/-- A finite run of `step`, with the events that labelled its steps in the
order in which they were taken. -/
inductive Run (step : State → Event → State → Prop) (first : State) :
    List Event → State → Prop where
  | refl : Run step first [] first
  | tail {middle last : State} {events : List Event} {event : Event}
      (prior : Run step first events middle)
      (final : step middle event last) :
      Run step first (events ++ [event]) last

/-- The steps of `step` that `allowed` admits in the state they start from. -/
def Within (step : State → Event → State → Prop)
    (allowed : State → Event → Prop) : State → Event → State → Prop :=
  fun before event after => step before event after ∧ allowed before event

/-- No step leaves this state. -/
def Stuck (step : State → Event → State → Prop) (state : State) : Prop :=
  ∀ event after, ¬ step state event after

namespace Run

variable {step other : State → Event → State → Prop}

theorem single {before after : State} {event : Event}
    (final : step before event after) : Run step before [event] after := by
  simpa using tail .refl final

/-- Runs compose without reordering events. -/
theorem trans {first middle last : State} {left right : List Event}
    (one : Run step first left middle) (two : Run step middle right last) :
    Run step first (left ++ right) last := by
  induction two with
  | refl => simpa using one
  | tail _ final inductionHypothesis =>
      rw [← List.append_assoc]
      exact .tail inductionHypothesis final

/-- A run of a smaller step relation is a run of the larger one. -/
theorem mono {first last : State} {events : List Event}
    (run : Run step first events last)
    (weaken : ∀ {before event after},
      step before event after → other before event after) :
    Run other first events last := by
  induction run with
  | refl => exact .refl
  | tail _ final inductionHypothesis =>
      exact .tail inductionHypothesis (weaken final)

/-- What holds at the start and is kept by every step holds at the end. -/
theorem invariant {Holds : State → Prop} {first last : State}
    {events : List Event} (run : Run step first events last)
    (start : Holds first)
    (preserved : ∀ {before event after},
      Holds before → step before event after → Holds after) :
    Holds last := by
  induction run with
  | refl => exact start
  | tail _ final inductionHypothesis =>
      exact preserved inductionHypothesis final

/-- Where a step relation is a function, so are its runs. -/
theorem deterministic
    (unique : ∀ {before event after after'}, step before event after →
      step before event after' → after = after')
    {first last last' : State} {events : List Event}
    (run : Run step first events last) (run' : Run step first events last') :
    last = last' := by
  induction run generalizing last' with
  | refl =>
      generalize nothing : ([] : List Event) = events at run'
      cases run' with
      | refl => rfl
      | tail => simp at nothing
  | @tail middle last events event prior final inductionHypothesis =>
      generalize same : events ++ [event] = events' at run'
      cases run' with
      | refl => simp at same
      | tail prior' final' =>
          obtain ⟨rfl, rfl⟩ := List.append_singleton_inj.mp same
          obtain rfl := inductionHypothesis prior'
          exact unique final final'

end Run

/-! ### Exact conditions -/

/-- Every state of a run with these events has a property. -/
def Throughout (step : State → Event → State → Prop) (Holds : State → Prop)
    (first : State) (events : List Event) : Prop :=
  ∀ taken state, taken <+: events → Run step first taken state → Holds state

/-- Where a condition on single steps says of each of them, under an invariant,
whether it keeps a property, it says so of whole runs. -/
theorem throughout_iff {step : State → Event → State → Prop}
    {allowed : State → Event → Prop} {Holds Inv : State → Prop}
    (unique : ∀ {before event after after'}, step before event after →
      step before event after' → after = after')
    {first last : State} {events : List Event} (run : Run step first events last)
    (start : Holds first) (invStart : Inv first)
    (preserved : ∀ {before event after},
      Inv before → step before event after → Inv after)
    (decides : ∀ {before event after}, Inv before → Holds before →
      step before event after → (Holds after ↔ allowed before event)) :
    Throughout step Holds first events ↔ Run (Within step allowed) first events last := by
  constructor
  · intro holds
    induction run with
    | refl => exact .refl
    | @tail middle last events event prior final inductionHypothesis =>
        have before := holds events middle (List.prefix_append _ _) prior
        have after := holds _ last List.prefix_rfl (prior.tail final)
        have inv := prior.invariant invStart preserved
        refine .tail (inductionHypothesis fun taken state early => ?_) ⟨final, ?_⟩
        · exact holds taken state (early.trans (List.prefix_append _ _))
        · exact (decides inv before final).mp after
  · intro within
    clear run
    induction within with
    | refl =>
        intro taken state early reached
        obtain rfl := List.prefix_nil.mp early
        obtain rfl := reached.deterministic @unique .refl
        exact start
    | @tail middle last events event prior final inductionHypothesis =>
        have whole : Run step first events middle := prior.mono And.left
        intro taken state early reached
        rcases List.prefix_concat_iff.mp early with rfl | early
        · obtain rfl := reached.deterministic @unique (whole.tail final.1)
          have before := inductionHypothesis events middle List.prefix_rfl whole
          have inv := whole.invariant invStart preserved
          exact (decides inv before final.1).mpr final.2
        · exact inductionHypothesis taken state early reached

/-- Where, under an invariant that the allowed steps keep, a finer step relation
takes exactly the allowed steps, the two have the same runs. -/
theorem within_iff {step finer : State → Event → State → Prop}
    {allowed : State → Event → Prop} {Inv : State → Prop}
    (coarsen : ∀ {before event after}, finer before event after → step before event after)
    {first : State} (start : Inv first)
    (preserved : ∀ {before event after}, Inv before → step before event after →
      allowed before event → Inv after)
    (decides : ∀ {before event after}, Inv before → step before event after →
      (finer before event after ↔ allowed before event))
    {last : State} {events : List Event} :
    Run finer first events last ↔ Run (Within step allowed) first events last := by
  have keeps : ∀ {events last}, Run (Within step allowed) first events last → Inv last :=
    fun run => run.invariant start fun inv taken => preserved inv taken.1 taken.2
  constructor
  · intro run
    induction run with
    | refl => exact .refl
    | tail _ final inductionHypothesis =>
        have taken := coarsen final
        exact inductionHypothesis.tail
          ⟨taken, (decides (keeps inductionHypothesis) taken).mp final⟩
  · intro run
    induction run with
    | refl => exact .refl
    | tail prior final inductionHypothesis =>
        exact inductionHypothesis.tail ((decides (keeps prior) final.1).mpr final.2)

/-! ### Computed runs -/

section Computed

variable (step : State → Event → Option State) (allowed : State → Event → Prop)
  [∀ s event, Decidable (allowed s event)]

/-- The state after these events, provided that each of them is allowed. -/
def stepAll : State → List Event → Option State
  | s, [] => some s
  | s, event :: events =>
      if allowed s event then
        (step s event).bind fun after => stepAll after events
      else none

/-- A computed run is a run. -/
theorem run_of_stepAll {events : List Event} {before after : State}
    (computed : stepAll step allowed before events = some after) :
    Run (Within (fun s event s' => step s event = some s') allowed) before events
      after := by
  induction events generalizing before with
  | nil =>
      obtain rfl := Option.some.inj computed
      exact .refl
  | cons event events inductionHypothesis =>
      rw [stepAll] at computed
      split at computed
      · rename_i admitted
        obtain ⟨middle, taken, rest⟩ := Option.bind_eq_some_iff.mp computed
        exact (Run.single ⟨taken, admitted⟩).trans (inductionHypothesis rest)
      · simp at computed

end Computed

/-! ### Termination -/

section Termination

variable {Measure : Type*} {less : Measure → Measure → Prop}
  {step : State → Event → State → Prop} {Holds : Measure → State → Prop}
  {value : Measure} {first : State}

/-- A value that the state justifies, and that every step lowers in a
well-founded order, rules out infinite runs. The value may depend on more than
the state, as an invariant does. -/
theorem no_infinite_run (wellFounded : WellFounded less)
    (start : Holds value first)
    (decreases : ∀ {value before event after}, Holds value before →
      step before event after →
        ∃ value', less value' value ∧ Holds value' after) :
    ¬ ∃ (states : ℕ → State) (events : ℕ → Event),
      states 0 = first ∧ ∀ n, step (states n) (events n) (states (n + 1)) := by
  rintro ⟨states, events, atStart, steps⟩
  have descent : ∀ value n, ¬ Holds value (states n) := by
    intro value
    induction value using wellFounded.induction with
    | _ value inductionHypothesis =>
        intro n holds
        obtain ⟨value', lower, holds'⟩ := decreases holds (steps n)
        exact inductionHypothesis value' lower (n + 1) holds'
  exact descent value 0 (atStart ▸ start)

/-- Then every state leads to one that no step leaves. -/
theorem exists_stuck (wellFounded : WellFounded less)
    (start : Holds value first)
    (decreases : ∀ {value before event after}, Holds value before →
      step before event after →
        ∃ value', less value' value ∧ Holds value' after) :
    ∃ events last, Run step first events last ∧ Stuck step last := by
  induction value using wellFounded.induction generalizing first with
  | _ value inductionHypothesis =>
      by_cases stuck : Stuck step first
      · exact ⟨[], first, .refl, stuck⟩
      · simp only [Stuck, not_forall, not_not] at stuck
        obtain ⟨event, after, taken⟩ := stuck
        obtain ⟨value', lower, holds'⟩ := decreases start taken
        obtain ⟨events, last, run, stuck⟩ :=
          inductionHypothesis value' lower holds'
        exact ⟨_, last, (Run.single taken).trans run, stuck⟩

/-- Where every state but the goals has some step that lowers the value, some run
ends in a goal. -/
theorem exists_goal {Goal : State → Prop} (wellFounded : WellFounded less)
    (start : Holds value first)
    (advances : ∀ {value before}, Holds value before → ¬ Goal before →
      ∃ event after value', step before event after ∧ less value' value ∧
        Holds value' after) :
    ∃ events last value', Run step first events last ∧ Goal last ∧
      Holds value' last := by
  induction value using wellFounded.induction generalizing first with
  | _ value inductionHypothesis =>
      by_cases goal : Goal first
      · exact ⟨[], first, value, .refl, goal, start⟩
      · obtain ⟨event, after, value', taken, lower, holds'⟩ := advances start goal
        obtain ⟨events, last, value'', run, goal, holds''⟩ :=
          inductionHypothesis value' lower holds'
        exact ⟨_, last, value'', (Run.single taken).trans run, goal, holds''⟩

end Termination

/-! ### Machines fed with inputs -/

section Inputs

variable {Input : Type*} {react : State → Input → Option State}
  {done : State → Bool} {condition : State → Input → Prop}

/-- The machine after these inputs, or `none` once a reaction was undefined. It
takes no more inputs when it is done. -/
def feed (react : State → Input → Option State) (done : State → Bool) :
    State → List Input → Option State
  | s, [] => some s
  | s, input :: inputs =>
      if done s then some s
      else (react s input).bind fun after => feed react done after inputs

/-- Every input that the machine takes meets a condition in the state in which
it takes it. -/
def Meets (react : State → Input → Option State) (done : State → Bool)
    (condition : State → Input → Prop) : State → List Input → Prop
  | _, [] => True
  | s, input :: inputs =>
      done s = true ∨
        condition s input ∧
          ∀ after, react s input = some after →
            Meets react done condition after inputs

/-- Where the condition says of each reaction, under an invariant, whether it is
defined, it says so of whole input sequences. -/
theorem feed_isSome_iff (Holds : State → Prop)
    (keeps : ∀ {s input after}, Holds s → done s = false →
      react s input = some after → Holds after)
    (guarded : ∀ {s input}, Holds s → done s = false →
      ((react s input).isSome ↔ condition s input))
    {s : State} (holds : Holds s) (inputs : List Input) :
    (feed react done s inputs).isSome ↔ Meets react done condition s inputs := by
  induction inputs generalizing s with
  | nil => simp [feed, Meets]
  | cons input inputs inductionHypothesis =>
      rw [feed, Meets]
      cases finished : done s with
      | true => simp
      | false =>
          rw [← guarded holds finished]
          cases reaction : react s input with
          | none => simp
          | some after =>
              simpa using inductionHypothesis (keeps holds finished reaction)

end Inputs

end Labelled
