/-
Module: Spqr.Lib.Residues
Purpose: Numbers less than one modulus apart, and the fact that a finite
  sequence of distinct numbers that visits the residue classes in turn and
  increases inside each class is the identity.
Trusted boundary: none
Main exports:
  mod_ne, eq_of_mod_eq, Visits, Visits.le_self, Visits.length_le, Visits.eq_self
-/
import Mathlib.Data.Nat.ModEq

namespace RoundRobin

/-- Two numbers less than one modulus apart lie in different classes. -/
theorem mod_ne {modulus base value : ℕ} (above : base < value)
    (below : value < base + modulus) :
    value % modulus ≠ base % modulus := by
  intro same
  have gap := Nat.ModEq.add_le_of_lt (m := modulus) same.symm above
  omega

/-- So a number is determined by its class within one modulus. -/
theorem eq_of_mod_eq {modulus low value other : ℕ} (lowValue : low ≤ value)
    (lowOther : low ≤ other) (highValue : value < low + modulus)
    (highOther : other < low + modulus)
    (same : value % modulus = other % modulus) : value = other := by
  rcases Nat.lt_trichotomy value other with less | equal | greater
  · exact absurd same.symm (mod_ne less (by omega))
  · exact equal
  · exact absurd same (mod_ne greater (by omega))

/-- The first `length` values of `value` lie below `bound`, the value at
position `m` is congruent to `m`, and values in one residue class increase. -/
structure Visits (modulus bound length : ℕ) (value : ℕ → ℕ) : Prop where
  below : ∀ m < length, value m < bound
  residue : ∀ m < length, value m ≡ m [MOD modulus]
  increasing : ∀ m, m + modulus < length → value m < value (m + modulus)

namespace Visits

variable {modulus bound length : ℕ} {value : ℕ → ℕ}

/-- Each class starts no lower than its residue and climbs by at least the
modulus at each visit. -/
theorem le_self (positive : 0 < modulus)
    (visits : Visits modulus bound length value) :
    ∀ m < length, m ≤ value m := by
  intro m
  induction m using Nat.strong_induction_on with
  | _ m inductionHypothesis =>
      intro inside
      by_cases early : m < modulus
      · have residue := visits.residue m inside
        rw [Nat.ModEq, Nat.mod_eq_of_lt early] at residue
        exact residue.symm.trans_le (Nat.mod_le _ _)
      · obtain ⟨previous, rfl⟩ : ∃ previous, m = previous + modulus :=
          ⟨m - modulus, by omega⟩
        have low := inductionHypothesis previous (by omega) (by omega)
        have congruent :
            value previous ≡ value (previous + modulus) [MOD modulus] :=
          (visits.residue previous (by omega)).trans
            ((Nat.add_modEq_right).symm.trans
              (visits.residue (previous + modulus) inside).symm)
        have gap :=
          congruent.add_le_of_lt (visits.increasing previous inside)
        omega

/-- Distinctness inside the classes leaves room for at most `bound` values. -/
theorem length_le (positive : 0 < modulus)
    (visits : Visits modulus bound length value) : length ≤ bound := by
  by_contra long
  have inside : bound < length := by omega
  have low := visits.le_self positive bound inside
  have high := visits.below bound inside
  omega

/-- Once all `bound` values have been taken, none of them was out of place. -/
theorem eq_self (positive : 0 < modulus)
    (visits : Visits modulus bound bound value) :
    ∀ m < bound, value m = m := by
  have high : ∀ d m, m < bound → bound - m ≤ d → value m ≤ m := by
    intro d
    induction d with
    | zero => intro m inside; omega
    | succ d inductionHypothesis =>
        intro m inside distance
        by_contra above
        have gap :=
          (visits.residue m inside).symm.add_le_of_lt (by omega)
        by_cases final : m + modulus < bound
        · have next := inductionHypothesis (m + modulus) final (by omega)
          have climb := visits.increasing m final
          omega
        · have below := visits.below m inside
          omega
  intro m inside
  exact Nat.le_antisymm (high _ m inside le_rfl)
    (visits.le_self positive m inside)

end Visits

end RoundRobin
