/-
Module: Spqr.Lib.Bitmask
Purpose: Bits packed into bytes: what setting one of them leaves of all others.
Trusted boundary: none
Main exports:
  Bitmask, Bitmask.get, Bitmask.set, Bitmask.clear, Bitmask.has, Bitmask.has_set,
  Bitmask.has_clear
-/
import Mathlib.Tactic

/-- `size` bytes, eight bits in each. -/
abbrev Bitmask (size : ℕ) := Vector UInt8 size

namespace Bitmask

variable {size : ℕ}

/-- The byte that bit `i` is in; zero past the end. -/
def byteOf (mask : Bitmask size) (i : ℕ) : UInt8 := mask[i / 8]?.getD 0

/-- `(mask[i / 8] >> (i % 8)) & 1` -/
def get (mask : Bitmask size) (i : ℕ) : UInt8 :=
  (mask.byteOf i >>> UInt8.ofNat (i % 8)) &&& 1

/-- `mask[i / 8] |= (1 << (i % 8))` -/
def set (mask : Bitmask size) (i : ℕ) : Bitmask size :=
  mask.setIfInBounds (i / 8) (mask.byteOf i ||| (1 <<< UInt8.ofNat (i % 8)))

/-- `mask[i / 8] &= ~(1 << (i % 8))` -/
def clear (mask : Bitmask size) (i : ℕ) : Bitmask size :=
  mask.setIfInBounds (i / 8) (mask.byteOf i &&& ~~~(1 <<< UInt8.ofNat (i % 8)))

/-! ### One byte -/

/-- A shift by less than the width of a byte is not reduced. -/
theorem toNat_shift {k : ℕ} (small : k < 8) :
    ((UInt8.ofNat k).toBitVec % 8).toNat = k := by
  have byte : (UInt8.ofNat k).toBitVec.toNat = k := by
    rw [UInt8.toNat_toBitVec, UInt8.toNat_ofNat']
    omega
  rw [BitVec.toNat_umod, byte]
  exact Nat.mod_eq_of_lt small

/-- Bit `k` of a byte, as it is read. -/
theorem shiftRight_and_one (byte : UInt8) {k : ℕ} (small : k < 8) :
    (byte >>> UInt8.ofNat k) &&& 1 = if byte.toBitVec.getLsbD k then 1 else 0 := by
  apply UInt8.toBitVec_inj.mp
  have one : UInt8.toBitVec 1 = 1#8 := rfl
  rw [UInt8.toBitVec_and, UInt8.toBitVec_shiftRight, BitVec.ushiftRight_eq',
    toNat_shift small, one, BitVec.and_one_eq_setWidth_ofBool_getLsbD,
    BitVec.getLsbD_ushiftRight, Nat.add_zero]
  cases byte.toBitVec.getLsbD k <;> rfl

theorem getLsbD_one_shiftLeft {a b : ℕ} (small : a < 8) (small' : b < 8) :
    (1 <<< UInt8.ofNat a : UInt8).toBitVec.getLsbD b = decide (a = b) := by
  have one : UInt8.toBitVec 1 = 1#8 := rfl
  rw [UInt8.toBitVec_shiftLeft, BitVec.shiftLeft_eq', toNat_shift small, one,
    BitVec.getLsbD_shiftLeft, BitVec.getLsbD_one]
  simp only [small', decide_true, Bool.true_and]
  rw [Bool.eq_iff_iff]
  simp only [Bool.and_eq_true, Bool.not_eq_true', decide_eq_false_iff_not,
    decide_eq_true_eq]
  omega

theorem getLsbD_or_one (byte : UInt8) {a b : ℕ} (small : a < 8) (small' : b < 8) :
    (byte ||| (1 <<< UInt8.ofNat a)).toBitVec.getLsbD b =
      (decide (a = b) || byte.toBitVec.getLsbD b) := by
  rw [UInt8.toBitVec_or, BitVec.getLsbD_or, getLsbD_one_shiftLeft small small',
    Bool.or_comm]

theorem getLsbD_and_not_one (byte : UInt8) {a b : ℕ} (small : a < 8)
    (small' : b < 8) :
    (byte &&& ~~~(1 <<< UInt8.ofNat a)).toBitVec.getLsbD b =
      (!decide (a = b) && byte.toBitVec.getLsbD b) := by
  rw [UInt8.toBitVec_and, BitVec.getLsbD_and, UInt8.toBitVec_not, BitVec.getLsbD_not,
    getLsbD_one_shiftLeft small small', Bool.and_comm]
  simp [small']

/-! ### All of them -/

/-- Bit `i` of the mask. -/
def has (mask : Bitmask size) (i : ℕ) : Bool :=
  (mask.byteOf i).toBitVec.getLsbD (i % 8)

theorem get_eq (mask : Bitmask size) (i : ℕ) :
    mask.get i = if mask.has i then 1 else 0 :=
  shiftRight_and_one _ (Nat.mod_lt i (by decide))

theorem get_eq_zero_iff (mask : Bitmask size) (i : ℕ) :
    mask.get i = 0 ↔ mask.has i = false := by
  rw [get_eq]
  cases mask.has i <;> simp

theorem get_eq_one_iff (mask : Bitmask size) (i : ℕ) :
    mask.get i = 1 ↔ mask.has i = true := by
  rw [get_eq]
  cases mask.has i <;> simp

/-- The byte of bit `j` after the byte of bit `i` has been written. -/
theorem byteOf_setIfInBounds (mask : Bitmask size) {i : ℕ} (inside : i / 8 < size)
    (byte : UInt8) (j : ℕ) :
    byteOf (mask.setIfInBounds (i / 8) byte) j =
      if i / 8 = j / 8 then byte else mask.byteOf j := by
  rw [byteOf, Vector.getElem?_setIfInBounds, if_pos inside]
  split_ifs
  · rfl
  · rfl

/-- Setting a bit sets that bit and no other. -/
theorem has_set (mask : Bitmask size) {i : ℕ} (inside : i / 8 < size) (j : ℕ) :
    (mask.set i).has j = (decide (i = j) || mask.has j) := by
  have small := Nat.mod_lt i (by decide : 0 < 8)
  have small' := Nat.mod_lt j (by decide : 0 < 8)
  rw [has, set, byteOf_setIfInBounds mask inside]
  split_ifs with same
  · have here : i % 8 = j % 8 ↔ i = j := by omega
    rw [getLsbD_or_one _ small small', byteOf, same, has, byteOf]
    simp only [here]
  · have other : i ≠ j := fun equal => same (by rw [equal])
    rw [has, decide_eq_false other, Bool.false_or]

/-- Clearing a bit clears that bit and no other. -/
theorem has_clear (mask : Bitmask size) {i : ℕ} (inside : i / 8 < size) (j : ℕ) :
    (mask.clear i).has j = (!decide (i = j) && mask.has j) := by
  have small := Nat.mod_lt i (by decide : 0 < 8)
  have small' := Nat.mod_lt j (by decide : 0 < 8)
  rw [has, clear, byteOf_setIfInBounds mask inside]
  split_ifs with same
  · have here : i % 8 = j % 8 ↔ i = j := by omega
    rw [getLsbD_and_not_one _ small small', byteOf, same, has, byteOf]
    simp only [here]
  · have other : i ≠ j := fun equal => same (by rw [equal])
    rw [has, decide_eq_false other, Bool.not_false, Bool.true_and]

end Bitmask
