/-
Module: Spqr.Lib.LittleEndian
Purpose: Signed integers as little-endian bytes, struct fields in memory, and
  what a read of fewer bytes leaves of the memory it goes into.
Trusted boundary: none
Main exports:
  LittleEndian.ofSigned, LittleEndian.signed, LittleEndian.field,
  LittleEndian.overlay, LittleEndian.lastByte
-/
import Mathlib.Tactic
import Mathlib.Data.Nat.Digits.Defs

namespace LittleEndian

/-! ### Integers -/

/-- The `width` lowest bytes of `n`, least significant first. -/
def bytes : ℕ → ℕ → List UInt8
  | 0, _ => []
  | width + 1, n => UInt8.ofNat (n % 256) :: bytes width (n / 256)

@[simp] theorem length_bytes (width n : ℕ) : (bytes width n).length = width := by
  induction width generalizing n with
  | zero => rfl
  | succ width inductionHypothesis =>
      rw [bytes, List.length_cons, inductionHypothesis]

/-- The number that these bytes spell. -/
def value (data : List UInt8) : ℕ := Nat.ofDigits 256 (data.map UInt8.toNat)

@[simp] theorem value_cons (byte : UInt8) (data : List UInt8) :
    value (byte :: data) = byte.toNat + 256 * value data := by
  rw [value, List.map_cons, Nat.ofDigits_cons, value]

theorem value_bytes (width n : ℕ) : value (bytes width n) = n % 256 ^ width := by
  induction width generalizing n with
  | zero => simp [bytes, value, Nat.mod_one]
  | succ width inductionHypothesis =>
      have byte : (UInt8.ofNat (n % 256)).toNat = n % 256 := by simp
      rw [bytes, value_cons, byte, inductionHypothesis, pow_succ', Nat.mod_mul]

/-- A signed integer in two's complement. -/
def ofSigned (width : ℕ) (z : ℤ) : List UInt8 :=
  bytes width (z % (256 ^ width : ℕ)).toNat

/-- The signed integer that these bytes hold. -/
def signed (data : List UInt8) : ℤ := Int.bmod (value data) (256 ^ data.length)

@[simp] theorem length_ofSigned (width : ℕ) (z : ℤ) :
    (ofSigned width z).length = width :=
  length_bytes _ _

/-- An integer that fits is read back. -/
theorem signed_ofSigned {width : ℕ} {z : ℤ} (low : -(256 ^ width : ℕ) ≤ z * 2)
    (high : z * 2 < (256 ^ width : ℕ)) : signed (ofSigned width z) = z := by
  have positive : (0 : ℤ) < (256 ^ width : ℕ) := by positivity
  have small : (z % (256 ^ width : ℕ)).toNat < 256 ^ width := by
    have := Int.emod_lt_of_pos z positive
    have := Int.emod_nonneg z positive.ne'
    omega
  rw [signed, length_ofSigned, ofSigned, value_bytes, Nat.mod_eq_of_lt small,
    Int.toNat_of_nonneg (Int.emod_nonneg z positive.ne'), Int.emod_bmod]
  exact Int.bmod_eq_of_le_mul_two low high

/-- What is read fits. -/
theorem signed_range (data : List UInt8) :
    -(256 ^ data.length : ℕ) ≤ signed data * 2 ∧
      signed data * 2 < (256 ^ data.length : ℕ) := by
  have positive : 0 < 256 ^ data.length := by positivity
  have := @Int.le_bmod (value data) _ positive
  have := @Int.bmod_lt (value data) _ positive
  rw [signed]
  omega

/-! ### Fields -/

/-- The `width` bytes at `offset`. -/
def field (offset width : ℕ) (memory : List UInt8) : List UInt8 :=
  (memory.drop offset).take width

/-- The first bytes of a struct. -/
theorem field_front {width : ℕ} {first : List UInt8} (rest : List UInt8)
    (length : first.length = width) : field 0 width (first ++ rest) = first := by
  rw [field, List.drop_zero, ← length, List.take_left]

/-- Past the front of a struct, only the rest matters. -/
theorem field_skip {offset width : ℕ} {first : List UInt8}
    (rest : List UInt8) (later : first.length ≤ offset) :
    field offset width (first ++ rest) =
      field (offset - first.length) width rest := by
  rw [field, field, List.drop_append, List.drop_eq_nil_of_le later,
    List.nil_append]

/-! ### Reading into memory -/

/-- A datagram read into memory: it is cut to the size of the memory, and what
it does not reach keeps its bytes. -/
def overlay (datagram memory : List UInt8) : List UInt8 :=
  datagram.take memory.length ++ memory.drop datagram.length

@[simp] theorem length_overlay (datagram memory : List UInt8) :
    (overlay datagram memory).length = memory.length := by
  simp only [overlay, List.length_append, List.length_take, List.length_drop]
  omega

/-- A datagram as long as the memory replaces it. -/
theorem overlay_of_length {datagram memory : List UInt8}
    (whole : datagram.length = memory.length) : overlay datagram memory = datagram := by
  rw [overlay, ← whole, List.take_length, whole, List.drop_length,
    List.append_nil]

/-- A byte that the datagram reaches is its own. -/
theorem getElem?_overlay {datagram memory : List UInt8} {k : ℕ}
    (inside : k < memory.length) :
    (overlay datagram memory)[k]? =
      if k < datagram.length then datagram[k]? else memory[k]? := by
  rw [overlay]
  split_ifs with reached
  · rw [List.getElem?_append_left (by simpa using ⟨inside, reached⟩),
      List.getElem?_take_of_lt inside]
  · have past : datagram.length ≤ k := Nat.le_of_not_lt reached
    have short : datagram.take memory.length = datagram :=
      List.take_of_length_le (past.trans inside.le)
    rw [short, List.getElem?_append_right past, List.getElem?_drop,
      Nat.add_sub_cancel' past]

/-- The byte at `k` of the last of these datagrams that reaches so far; zero when
none does. -/
def lastByte (k : ℕ) (datagrams : List (List UInt8)) : UInt8 :=
  (datagrams.filterMap fun datagram => datagram[k]?).getLastD 0

theorem lastByte_concat (k : ℕ) (datagrams : List (List UInt8))
    (datagram : List UInt8) :
    lastByte k (datagrams ++ [datagram]) =
      (datagram[k]?).getD (lastByte k datagrams) := by
  rw [lastByte, List.filterMap_append]
  cases found : datagram[k]? with
  | none => simp [found, lastByte]
  | some byte => simp [found]

/-- So `lastByte` is what memory that was zero holds after them. -/
theorem lastByte_overlay {datagrams : List (List UInt8)}
    {datagram memory : List UInt8} {k : ℕ} (inside : k < memory.length)
    (holds : memory[k]? = some (lastByte k datagrams)) :
    (overlay datagram memory)[k]? =
      some (lastByte k (datagrams ++ [datagram])) := by
  rw [getElem?_overlay inside, lastByte_concat]
  split_ifs with reached
  · simp [List.getElem?_eq_getElem reached]
  · rw [List.getElem?_eq_none (Nat.le_of_not_lt reached), Option.getD_none, holds]

end LittleEndian
