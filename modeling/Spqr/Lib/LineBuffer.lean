/-
Module: Spqr.Lib.LineBuffer
Purpose: Lines packed into blocks of bounded length: a block that is reached is
  emitted, with the line that reached it cut, and the next one is begun.
Trusted boundary: none
Main exports:
  packed, Fits, fits_iff, length_flatten_packed, flatten_packed_iff
-/
import Mathlib.Tactic

namespace LineBuffer

variable {α : Type*} {limit : ℕ}

/-- The blocks that lines fill, `buffer` being the block begun. -/
def packed (limit : ℕ) : List α → List (List α) → List (List α)
  | buffer, [] => if buffer.isEmpty then [] else [buffer]
  | buffer, line :: lines =>
      if limit ≤ (buffer ++ line).length then
        (buffer ++ line).take limit :: packed limit [] lines
      else packed limit (buffer ++ line) lines

/-- Laid end to end from position `used` on, no line lies across a multiple of
`limit`. -/
def Fits (limit : ℕ) : ℕ → List (List α) → Prop
  | _, [] => True
  | used, line :: lines =>
      used % limit + line.length ≤ limit ∧ Fits limit (used + line.length) lines

/-- The same, said of every line and the lines before it. -/
theorem fits_iff {used : ℕ} {lines : List (List α)} :
    Fits limit used lines ↔
      ∀ before line after, lines = before ++ line :: after →
        (used + before.flatten.length) % limit + line.length ≤ limit := by
  induction lines generalizing used with
  | nil => simp [Fits]
  | cons first lines ih =>
      rw [Fits, ih]
      constructor
      · rintro ⟨head, tail⟩ before line after split
        cases before with
        | nil =>
            obtain ⟨rfl, -⟩ := List.cons.inj split
            simpa using head
        | cons b before =>
            obtain ⟨rfl, rest⟩ := List.cons.inj split
            have bound := tail before line after rest
            rw [List.flatten_cons, List.length_append, ← Nat.add_assoc]
            exact bound
      · intro all
        constructor
        · simpa using all [] first lines rfl
        · intro before line after split
          have bound := all (first :: before) line after (by rw [split]; rfl)
          rw [List.flatten_cons, List.length_append, ← Nat.add_assoc] at bound
          exact bound

/-- The blocks hold at most what was packed. -/
theorem length_flatten_packed (limit : ℕ) (buffer : List α) (lines : List (List α)) :
    (packed limit buffer lines).flatten.length
      ≤ buffer.length + lines.flatten.length := by
  induction lines generalizing buffer with
  | nil =>
      rw [packed]
      split <;> simp
  | cons line lines ih =>
      rw [packed]
      split
      · have rest := ih []
        simp only [List.flatten_cons, List.length_append, List.length_take,
          List.length_nil] at rest ⊢
        omega
      · have rest := ih (buffer ++ line)
        simp only [List.flatten_cons, List.length_append] at rest ⊢
        omega

/-- Nothing is lost exactly when no line lies across the end of a block. -/
theorem flatten_packed_iff {buffer : List α} {used : ℕ} (lines : List (List α))
    (inside : buffer.length < limit) (position : used % limit = buffer.length) :
    (packed limit buffer lines).flatten = buffer ++ lines.flatten ↔
      Fits limit used lines := by
  induction lines generalizing buffer used with
  | nil =>
      rw [packed]
      cases buffer <;> simp [Fits]
  | cons line lines ih =>
      have total : (buffer ++ line).length = buffer.length + line.length :=
        List.length_append
      have next : (used + line.length) % limit = (buffer ++ line).length % limit := by
        rw [← Nat.mod_add_mod, position, total]
      rw [packed, Fits, position]
      split
      · rename_i reached
        rcases Nat.lt_or_eq_of_le reached with crossed | filled
        · -- the part of the line past the end of the block is gone
          constructor
          · intro same
            have lengths := congrArg List.length same
            have rest := length_flatten_packed limit [] lines
            simp only [List.flatten_cons, List.length_append, List.length_take,
              List.length_nil] at lengths rest total crossed
            omega
          · rintro ⟨short, -⟩
            omega
        · have empty : (used + line.length) % limit = ([] : List α).length := by
            rw [next, ← filled, Nat.mod_self, List.length_nil]
          have begun : ([] : List α).length < limit := Nat.zero_lt_of_lt inside
          have rest := ih begun empty
          rw [List.flatten_cons, List.take_of_length_le filled.ge,
            List.flatten_cons, ← List.append_assoc, List.append_right_inj, ← rest,
            List.nil_append]
          refine (and_iff_right ?_).symm
          omega
      · rename_i below
        rw [Nat.not_le] at below
        have rest := ih below (next.trans (Nat.mod_eq_of_lt below))
        rw [List.flatten_cons, ← List.append_assoc, rest]
        refine (and_iff_right ?_).symm
        omega

end LineBuffer
