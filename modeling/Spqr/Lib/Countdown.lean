/-
Module: Spqr.Lib.Countdown
Purpose: Step relations whose states bound the steps that are left: how long their runs
  are, where they end, and how the members of a family share what is left.
Trusted boundary: none
Main exports:
  Countdown, Countdown.run, Countdown.of_stuck, sum_update_lt
-/
import Mathlib.Algebra.Order.BigOperators.Group.Finset
import Spqr.Lib.Runs

namespace Labelled

/-- `Left n s` says that at most `n` steps are left in `s`: every step spends some of them,
and while some are left there is one that the system makes on its own. -/
structure Countdown {State Event : Type*} (step : State → Event → State → Prop)
    (own : Event → Prop) (Left : ℕ → State → Prop) : Prop where
  spends : ∀ {n before event after}, Left n before → step before event after →
    ∃ m, m < n ∧ Left m after
  goesOn : ∀ {n before}, Left n before → n ≠ 0 →
    ∃ event after, own event ∧ step before event after

namespace Countdown

variable {State Event : Type*} {step : State → Event → State → Prop} {own : Event → Prop}
  {Left : ℕ → State → Prop} {n : ℕ} {first last : State} {events : List Event}

/-- The steps of a run and those that are left are no more than were left at its start. -/
theorem run (countdown : Countdown step own Left) (start : Left n first)
    (run : Run step first events last) : ∃ m, events.length + m ≤ n ∧ Left m last := by
  induction run with
  | refl => exact ⟨n, by simp, start⟩
  | @tail _ _ events event _ final inductionHypothesis =>
      obtain ⟨m, total, left⟩ := inductionHypothesis
      obtain ⟨k, spent, left⟩ := countdown.spends left final
      refine ⟨k, ?_, left⟩
      rw [List.length_append, List.length_singleton]
      omega

/-- Where the system does not go on on its own, nothing is left. -/
theorem of_stuck (countdown : Countdown step own Left) (left : Left n last)
    (stuck : ∀ event after, own event → ¬ step last event after) : Left 0 last := by
  rcases Nat.eq_zero_or_pos n with rfl | some_
  · exact left
  · obtain ⟨event, after, its, taken⟩ := countdown.goesOn left (Nat.ne_of_gt some_)
    exact absurd taken (stuck event after its)

end Countdown

/-- What one member of a family spends, the family spends. -/
theorem sum_update_lt {ι : Type*} [Fintype ι] [DecidableEq ι] (left : ι → ℕ) {i : ι}
    {m : ℕ} (spent : m < left i) : ∑ j, Function.update left i m j < ∑ j, left j := by
  apply Finset.sum_lt_sum
  · intro j _
    rw [Function.update_apply]
    split_ifs with here
    · rw [here]
      exact Nat.le_of_lt spent
    · exact le_rfl
  · exact ⟨i, Finset.mem_univ i, by rw [Function.update_self]; exact spent⟩

end Labelled
