/-
Module: Spqr.Lib.Numerals
Purpose: Decimal numerals as bytes: their positional value, the bytes that print a
  number, and the first bytes of a text that satisfy a predicate.
Trusted boundary: none
Main exports:
  Numerals.value, Numerals.foldl_eq_value, Numerals.value_digits,
  Numerals.bytes_toString, Numerals.takeWhile_append_stop
-/
import Mathlib.Data.Nat.Digits.Defs
import Mathlib.Data.List.Induction
import Mathlib.Data.List.TakeWhile
import Mathlib.Data.List.Basic

namespace Numerals

/-! ### Prefixes -/

section Prefixes

variable {α : Type*} {p : α → Bool} {front back : List α}

/-- Nothing of this text satisfies `p` at its head. -/
def Stops (p : α → Bool) (back : List α) : Prop := ∀ a ∈ back.head?, p a = false

theorem takeWhile_of_stops (stops : Stops p back) : back.takeWhile p = [] := by
  cases back with
  | nil => rfl
  | cons a rest =>
      have failed : p a = false := stops a rfl
      simp [failed]

theorem dropWhile_of_stops (stops : Stops p back) : back.dropWhile p = back := by
  cases back with
  | nil => rfl
  | cons a rest =>
      have failed : p a = false := stops a rfl
      simp [failed]

theorem takeWhile_append_stop (holds : ∀ a ∈ front, p a) (stops : Stops p back) :
    (front ++ back).takeWhile p = front := by
  rw [List.takeWhile_append_of_pos holds, takeWhile_of_stops stops, List.append_nil]

theorem dropWhile_append_stop (holds : ∀ a ∈ front, p a) (stops : Stops p back) :
    (front ++ back).dropWhile p = back := by
  rw [List.dropWhile_append_of_pos holds, dropWhile_of_stops stops]

end Prefixes

/-! ### Values -/

/-- What an ASCII digit stands for. -/
def digit (byte : UInt8) : ℕ := byte.toNat - 48

/-- The value of a row of digits, the most significant one first. -/
def value (digits : List UInt8) : ℕ := Nat.ofDigits 10 (digits.map digit).reverse

theorem value_append (front : List UInt8) (byte : UInt8) :
    value (front ++ [byte]) = 10 * value front + digit byte := by
  simp [value, Nat.ofDigits_cons]
  omega

/-- Digits read one after the other. -/
theorem foldl_eq_value (digits : List UInt8) :
    digits.foldl (fun n byte => 10 * n + (byte.toNat - 48)) 0 = value digits := by
  induction digits using List.reverseRecOn with
  | nil => rfl
  | append_singleton front byte ih =>
      rw [List.foldl_append, ih, value_append]
      rfl

/-! ### Printing -/

theorem toList_loop (bytes : ByteArray) (i : ℕ) (read : List UInt8) :
    ByteArray.toList.loop bytes i read = read.reverse ++ bytes.data.toList.drop i := by
  fun_induction ByteArray.toList.loop bytes i read with
  | case1 i read inside ih =>
      have next : bytes.data.toList.drop i =
          bytes.get! i :: bytes.data.toList.drop (i + 1) := by
        have there : i < bytes.data.toList.length := inside
        rw [List.drop_eq_getElem_cons there]
        congr 1
        simp [ByteArray.get!, getElem!_pos bytes.data i inside]
      rw [ih, next]
      simp
  | case2 i read outside =>
      have ended : bytes.data.toList.drop i = [] :=
        List.drop_eq_nil_of_le (Nat.le_of_not_lt outside)
      rw [ended, List.append_nil]

theorem toList_toByteArray (bytes : List UInt8) : bytes.toByteArray.toList = bytes := by
  rw [ByteArray.toList, toList_loop]
  simp

/-- The byte of a digit. -/
def ascii (c : Char) : UInt8 := UInt8.ofNat c.toNat

theorem digit_code {c : Char} (isDigit : c.isDigit) : 48 ≤ c.toNat ∧ c.toNat ≤ 57 := by
  simp only [Char.isDigit, Bool.and_eq_true, decide_eq_true_eq] at isDigit
  exact ⟨isDigit.1, isDigit.2⟩

theorem ascii_toNat {c : Char} (isDigit : c.isDigit) : (ascii c).toNat = c.toNat := by
  have code := digit_code isDigit
  rw [ascii, UInt8.toNat_ofNat', Nat.mod_eq_of_lt (by omega)]

/-- A string of digits is encoded byte by byte. -/
theorem bytes_of_digits {chars : List Char} (digits : ∀ c ∈ chars, c.isDigit) :
    (String.ofList chars).toUTF8.toList = chars.map ascii := by
  have encoded : (String.ofList chars).toUTF8 =
      (chars.flatMap String.utf8EncodeChar).toByteArray := by
    simp [String.toUTF8, List.utf8Encode]
  have single : ∀ c ∈ chars, String.utf8EncodeChar c = [ascii c] := by
    intro c member
    have code := digit_code (digits c member)
    have small : c.val.toNat ≤ 127 := by
      have same : c.val.toNat = c.toNat := rfl
      omega
    simp only [String.utf8EncodeChar, if_pos small]
    rfl
  rw [encoded, toList_toByteArray, List.flatMap_congr single]
  exact List.map_eq_flatMap.symm

/-- The digits that print a number. -/
def digits (n : ℕ) : List UInt8 := (Nat.toDigits 10 n).map ascii

theorem bytes_toString (n : ℕ) : (toString n).toUTF8.toList = digits n := by
  rw [Nat.toString_eq_ofList_toDigits]
  apply bytes_of_digits
  intro c member
  exact Nat.isDigit_of_mem_toDigits (by omega) (by omega) member

theorem digits_ne_nil (n : ℕ) : digits n ≠ [] := by
  simp [digits, Nat.toDigits_ne_nil]

theorem digits_code {n : ℕ} {byte : UInt8} (member : byte ∈ digits n) :
    48 ≤ byte.toNat ∧ byte.toNat ≤ 57 := by
  obtain ⟨c, inside, rfl⟩ := List.mem_map.mp member
  have isDigit := Nat.isDigit_of_mem_toDigits (by omega) (by omega) inside
  rw [ascii_toNat isDigit]
  exact digit_code isDigit

/-- What is printed has the value that was printed. -/
theorem value_digits (n : ℕ) : value (digits n) = n := by
  have same : (Nat.toDigits 10 n).foldl
        (fun value c => 10 * value + ((ascii c).toNat - 48)) 0 =
      (Nat.toDigits 10 n).foldl (fun value c => 10 * value + (c.toNat - 48)) 0 := by
    apply List.foldl_ext
    intro value c member
    rw [ascii_toNat (Nat.isDigit_of_mem_toDigits (by omega) (by omega) member)]
  rw [← foldl_eq_value, digits, List.foldl_map, same]
  exact Nat.ofDigitChars_toDigits (by omega) (by omega)

end Numerals
