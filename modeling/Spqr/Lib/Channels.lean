/-
Module: Spqr.Lib.Channels
Purpose: Channels that lose nothing: lists of datagrams from which any one may be
  taken, by its position.
Trusted boundary: none
Main exports:
  Channels.countP_eraseIdx, Channels.mem_eraseIdx_of_ne, Channels.not_mem_eraseIdx
-/
import Mathlib.Tactic

namespace Channels

variable {α : Type*} {l : List α} {k : ℕ} {a b : α}

/-- Taking the datagram at position `k` away. -/
theorem countP_eraseIdx (found : l[k]? = some a) (p : α → Bool) :
    (l.eraseIdx k).countP p + (if p a then 1 else 0) = l.countP p := by
  obtain ⟨inside, rfl⟩ := List.getElem?_eq_some_iff.mp found
  rw [← (List.getElem_cons_eraseIdx_perm inside).countP_eq p, List.countP_cons]

/-- The other datagrams stay. -/
theorem mem_eraseIdx_of_ne (found : l[k]? = some a) (member : b ∈ l) (other : b ≠ a) :
    b ∈ l.eraseIdx k := by
  obtain ⟨inside, rfl⟩ := List.getElem?_eq_some_iff.mp found
  rw [← (List.getElem_cons_eraseIdx_perm inside).mem_iff] at member
  exact (List.mem_cons.mp member).resolve_left other

/-- The only copy is gone once it is taken. -/
theorem not_mem_eraseIdx [BEq α] [LawfulBEq α] (found : l[k]? = some a)
    (once : l.count a ≤ 1) : a ∉ l.eraseIdx k := by
  have removed := countP_eraseIdx found (· == a)
  rw [if_pos (beq_self_eq_true a)] at removed
  rw [← List.count_eq_zero, List.count]
  rw [List.count] at once
  omega

/-- A channel with one datagram. -/
theorem at_singleton (found : [a][k]? = some b) : k = 0 ∧ b = a := by
  cases k with
  | zero => exact ⟨rfl, (Option.some.inj found).symm⟩
  | succ k => simp at found

end Channels
