/-
Module: Spqr.Lib.Unwinding
Purpose: Machines that answer inputs with outputs, and when the inputs of others
  cannot be told from their absence.
Trusted boundary: none
Main exports:
  answers, Admits, answers_filter, answers_all
-/
import Mathlib.Tactic

namespace Unwinding

variable {State Input Output : Type*}

section Machine

variable (react : State → Input → Option (State × List Output))
  (condition : State → Input → Prop)

/-- All outputs, or `none` once a reaction was undefined. -/
def answers : State → List Input → Option (List Output)
  | _, [] => some []
  | s, input :: inputs =>
      match react s input with
      | none => none
      | some (after, outputs) =>
          (answers after inputs).map fun later => outputs ++ later

/-- Every input meets a condition in the state in which it is taken. -/
def Admits : State → List Input → Prop
  | _, [] => True
  | s, input :: inputs =>
      condition s input ∧
        match react s input with
        | none => True
        | some (after, _) => Admits after inputs

instance decidableAdmits [∀ s input, Decidable (condition s input)] :
    ∀ s inputs, Decidable (Admits react condition s inputs)
  | _, [] => .isTrue trivial
  | s, input :: inputs =>
      match reacts : react s input with
      | none => decidable_of_iff (condition s input) (by simp [Admits, reacts])
      | some (after, _) =>
          have := decidableAdmits after inputs
          decidable_of_iff (condition s input ∧ Admits react condition after inputs)
            (by simp [Admits, reacts])

end Machine

variable (react : State → Input → Option (State × List Output))
  (condition : State → Input → Prop) (own : Input → Bool)

/-- The unwinding rule: the states of the machine with all inputs and of the machine
with its own inputs stay related, own inputs are answered alike, and the others are
not answered. -/
theorem answers_filter (Related : State → State → Prop)
    (lockstep : ∀ s t input, Related s t → condition s input → own input = true →
      (react s input = none ∧ react t input = none) ∨
        ∃ s' t' outputs, react s input = some (s', outputs) ∧
          react t input = some (t', outputs) ∧ Related s' t')
    (silent : ∀ s t input, Related s t → condition s input → own input = false →
      ∃ s', react s input = some (s', []) ∧ Related s' t)
    {s t : State} (related : Related s t) {inputs : List Input}
    (admits : Admits react condition s inputs) :
    answers react s inputs = answers react t (inputs.filter own) := by
  induction inputs generalizing s t with
  | nil => rfl
  | cons input inputs inductionHypothesis =>
      obtain ⟨meets, later⟩ := admits
      cases mine : own input with
      | true =>
          rw [List.filter_cons_of_pos mine, answers, answers]
          rcases lockstep s t input related meets mine with
            ⟨stops, stops'⟩ | ⟨s', t', outputs, reacts, reacts', related'⟩
          · rw [stops, stops']
          · rw [reacts] at later
            simp only [reacts, reacts', inductionHypothesis related' later]
      | false =>
          obtain ⟨s', reacts, related'⟩ := silent s t input related meets mine
          rw [reacts] at later
          rw [List.filter_cons_of_neg (by simp [mine]), answers, reacts]
          simp [inductionHypothesis related' later]

/-- What an invariant tells of every output. -/
theorem answers_all (Holds : State → Prop) (Good : Output → Prop)
    (keeps : ∀ s input s' outputs, Holds s → own input = true →
      react s input = some (s', outputs) → Holds s' ∧ ∀ output ∈ outputs, Good output)
    {s : State} (holds : Holds s) {inputs : List Input}
    (all : ∀ input ∈ inputs, own input = true) {outputs : List Output}
    (answered : answers react s inputs = some outputs) :
    ∀ output ∈ outputs, Good output := by
  induction inputs generalizing s outputs with
  | nil =>
      obtain rfl := Option.some.inj answered
      simp
  | cons input inputs inductionHypothesis =>
      rw [answers] at answered
      cases reacts : react s input with
      | none => simp [reacts] at answered
      | some result =>
          obtain ⟨after, first⟩ := result
          simp only [reacts] at answered
          obtain ⟨later, rest, rfl⟩ := Option.map_eq_some_iff.mp answered
          obtain ⟨holds', good⟩ :=
            keeps s input after first holds (all input List.mem_cons_self) reacts
          intro output member
          rcases List.mem_append.mp member with here | there
          · exact good output here
          · exact inductionHypothesis holds'
              (fun i member => all i (List.mem_cons_of_mem _ member)) rest output there

end Unwinding
