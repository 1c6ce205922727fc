/-
Module: Spqr.Lib.Backoff
Purpose: Waits that grow by a fixed unit up to a cap, and how long they take together.
Trusted boundary: none
Main exports:
  Backoff.wait, Backoff.total, Backoff.wait_succ, Backoff.total_mono, Backoff.total_le
-/
import Mathlib.Algebra.Order.BigOperators.Group.Finset
import Mathlib.Algebra.Order.Ring.Nat
import Mathlib.Tactic.Ring

namespace Backoff

variable {unit cap first : ℕ}

/-- The `k`-th wait of a row that starts with `first`. -/
def wait (unit cap first k : ℕ) : ℕ := min cap (first + unit * k)

/-- The first `n` waits together. -/
def total (unit cap first n : ℕ) : ℕ := ∑ k ∈ Finset.range n, wait unit cap first k

@[simp] theorem wait_zero (below : first ≤ cap) : wait unit cap first 0 = first := by
  rw [wait, Nat.mul_zero, Nat.add_zero, Nat.min_eq_right below]

@[simp] theorem total_zero : total unit cap first 0 = 0 := rfl

theorem total_succ (n : ℕ) :
    total unit cap first (n + 1) = total unit cap first n + wait unit cap first n :=
  Finset.sum_range_succ _ _

theorem wait_le (k : ℕ) : wait unit cap first k ≤ cap := Nat.min_le_left _ _

theorem le_wait (below : first ≤ cap) (k : ℕ) : first ≤ wait unit cap first k :=
  Nat.le_min.mpr ⟨below, Nat.le_add_right _ _⟩

theorem dvd_wait (grid : unit ∣ first) (gridCap : unit ∣ cap) (k : ℕ) :
    unit ∣ wait unit cap first k := by
  rcases Nat.le_total cap (first + unit * k) with high | low
  · rwa [wait, Nat.min_eq_left high]
  · rw [wait, Nat.min_eq_right low]
    exact Nat.dvd_add grid (Nat.dvd_mul_right _ _)

/-- On the grid of the unit, a wait is followed by one that is a unit longer, until the
cap is reached. -/
theorem wait_succ (grid : unit ∣ first) (gridCap : unit ∣ cap) (room : unit ≤ cap)
    (k : ℕ) :
    (if wait unit cap first k ≤ cap - unit then wait unit cap first k + unit
      else wait unit cap first k) = wait unit cap first (k + 1) := by
  obtain ⟨a, rfl⟩ := grid
  obtain ⟨c, rfl⟩ := gridCap
  have here : unit * a + unit * k = unit * (a + k) := by ring
  have next : unit * a + unit * (k + 1) = unit * (a + k + 1) := by ring
  rw [wait, wait, here, next]
  rcases Nat.lt_or_ge (a + k) c with below | reached
  · have low : unit * (a + k + 1) ≤ unit * c := Nat.mul_le_mul_left unit below
    have split : unit * (a + k + 1) = unit * (a + k) + unit := by ring
    rw [Nat.min_eq_right low, Nat.min_eq_right (by omega), if_pos (by omega), split]
  · have high : unit * c ≤ unit * (a + k) := Nat.mul_le_mul_left unit reached
    have split : unit * (a + k + 1) = unit * (a + k) + unit := by ring
    rw [Nat.min_eq_left high, Nat.min_eq_left (by omega)]
    split_ifs <;> omega

theorem total_mono {later : ℕ} (earlier : first ≤ later) (n : ℕ) :
    total unit cap first n ≤ total unit cap later n :=
  Finset.sum_le_sum fun _ _ =>
    min_le_min_left cap (Nat.add_le_add_right earlier _)

theorem total_le (n : ℕ) : total unit cap first n ≤ n * cap := by
  rw [total]
  have bound := Finset.sum_le_card_nsmul (Finset.range n) (wait unit cap first) cap
    fun k _ => wait_le k
  simpa using bound

end Backoff
