/-
Module: Spqr.Ports
Purpose: Which texts `to_uint16` takes for a port, and what it makes of them.
Trusted boundary: none
Main exports:
  Sign, Numeral, Numeral.toUint16_text, Numeral.of_toUint16, IsPort, Narrowed,
  toUint16_decimal, port_parsing_exact_iff
-/
import Spqr.Lib.Numerals
import Spqr.Opening

namespace Spqr

open Numerals (Stops)

inductive Sign where
  | none
  | plus
  | minus
deriving DecidableEq

def Sign.text : Sign → Text
  | .none => []
  | .plus => [43]
  | .minus => [45]

/-- A text that `strtoul` reads as a number, ended by its end or by a newline. -/
structure Numeral where
  space : Text
  sign : Sign
  digits : Text
  tail : Text
  spaceOnly : ∀ byte ∈ space, isSpace byte
  digitsOnly : ∀ byte ∈ digits, isDigit byte
  someDigit : digits ≠ []
  ended : tail = [] ∨ tail.head? = some 10

namespace Numeral

def text (n : Numeral) : Text := n.space ++ (n.sign.text ++ (n.digits ++ n.tail))

def value (n : Numeral) : ℕ := Numerals.value n.digits

/-! ### Reading the parts back -/

theorem tail_stops (n : Numeral) : Stops isDigit n.tail := by
  intro byte head
  cases n.ended with
  | inl nothing => simp [nothing] at head
  | inr newline =>
      rw [newline] at head
      obtain rfl := Option.some.inj head
      rfl

/-- The first digit. -/
theorem digits_cons (n : Numeral) :
    ∃ first rest, n.digits = first :: rest ∧ isDigit first := by
  obtain ⟨first, rest, parts⟩ := List.exists_cons_of_ne_nil n.someDigit
  have member : first ∈ n.digits := by simp [parts]
  exact ⟨first, rest, parts, n.digitsOnly first member⟩

theorem isDigit_range {byte : UInt8} (digit : isDigit byte) :
    48 ≤ byte.toNat ∧ byte.toNat ≤ 57 := by
  simp only [isDigit, Bool.and_eq_true, decide_eq_true_eq] at digit
  exact digit

theorem not_space_of_digit {byte : UInt8} (digit : isDigit byte) : isSpace byte = false := by
  have range := isDigit_range digit
  have notBlank : byte ≠ 32 := by
    rintro rfl
    simp at range
  have above : ¬ byte ≤ 13 := by
    intro below
    have code : byte.toNat ≤ 13 := below
    omega
  simp [isSpace, notBlank, above]

theorem sign_stops (n : Numeral) : Stops isSpace (n.sign.text ++ (n.digits ++ n.tail)) := by
  obtain ⟨first, rest, parts, digit⟩ := n.digits_cons
  intro byte head
  cases signed : n.sign with
  | none =>
      simp only [signed, parts, Sign.text, List.nil_append, List.cons_append, List.head?_cons,
        Option.mem_some_iff] at head
      subst head
      exact not_space_of_digit digit
  | plus | minus =>
      simp only [signed, Sign.text, List.cons_append, List.head?_cons,
        Option.mem_some_iff] at head
      subst head
      rfl

/-- The sign, and what stands behind it. -/
theorem sign_text (n : Numeral) :
    Spqr.sign (n.text.dropWhile isSpace) =
      (decide (n.sign = .minus), n.digits ++ n.tail) := by
  have skipped : n.text.dropWhile isSpace = n.sign.text ++ (n.digits ++ n.tail) :=
    Numerals.dropWhile_append_stop n.spaceOnly n.sign_stops
  rw [skipped]
  cases signed : n.sign with
  | none =>
      obtain ⟨first, rest, parts, digit⟩ := n.digits_cons
      have range := isDigit_range digit
      have notMinus : first ≠ 45 := by
        rintro rfl
        simp at range
      have notPlus : first ≠ 43 := by
        rintro rfl
        simp at range
      simp [Sign.text, parts, Spqr.sign, notMinus, notPlus]
  | plus => rfl
  | minus => rfl

theorem digits_text (n : Numeral) : (n.digits ++ n.tail).takeWhile isDigit = n.digits :=
  Numerals.takeWhile_append_stop n.digitsOnly n.tail_stops

theorem tail_text (n : Numeral) : (n.digits ++ n.tail).dropWhile isDigit = n.tail :=
  Numerals.dropWhile_append_stop n.digitsOnly n.tail_stops

/-- Two numerals with one text agree on the sign and on the value. -/
theorem unique {n m : Numeral} (same : n.text = m.text) :
    (n.sign = .minus ↔ m.sign = .minus) ∧ n.value = m.value := by
  have read := n.sign_text
  rw [same, m.sign_text, Prod.mk.injEq, decide_eq_decide] at read
  have digits : m.digits = n.digits := by
    rw [← n.digits_text, ← read.2, m.digits_text]
  constructor
  · exact read.1.symm
  · rw [value, value, digits]

/-! ### `to_uint16` on numerals -/

/-- What `strtoul` returns, before the cast. -/
def unsigned (n : Numeral) : ℕ := if n.sign = .minus then 2 ^ 64 - n.value else n.value

theorem toUint16_text (n : Numeral) :
    toUint16 n.text = if 2 ^ 64 ≤ n.value then none else some (n.unsigned % 2 ^ 16) := by
  have fine : ¬ (n.tail ≠ [] ∧ n.tail.head? ≠ some 10) := by
    rintro ⟨something, other⟩
    exact n.ended.elim something other
  have read : n.digits.foldl (fun n digit => 10 * n + (digit.toNat - 48)) 0 = n.value :=
    Numerals.foldl_eq_value n.digits
  simp only [toUint16, n.sign_text, n.digits_text, n.tail_text, read, n.someDigit, fine,
    false_or, or_false, decide_eq_true_eq]
  rfl

/-- Only numerals are accepted. -/
theorem of_toUint16 {buffer : Text} {port : ℕ} (accepted : toUint16 buffer = some port) :
    ∃ n : Numeral, n.text = buffer := by
  have parts : ∃ signed : Sign,
      buffer.dropWhile isSpace = signed.text ++ (Spqr.sign (buffer.dropWhile isSpace)).2 := by
    cases buffer.dropWhile isSpace with
    | nil => exact ⟨.none, rfl⟩
    | cons byte rest =>
        by_cases minus : byte = 45
        · exact ⟨.minus, by simp [Spqr.sign, minus, Sign.text]⟩
        by_cases plus : byte = 43
        · exact ⟨.plus, by simp [Spqr.sign, plus, Sign.text]⟩
        exact ⟨.none, by simp [Spqr.sign, minus, plus, Sign.text]⟩
  obtain ⟨signed, behind⟩ := parts
  simp only [toUint16] at accepted
  generalize (Spqr.sign (buffer.dropWhile isSpace)).2 = rest at behind accepted
  split at accepted
  · cases accepted
  · rename_i fine
    simp only [not_or, not_and, not_not] at fine
    refine ⟨{
      space := buffer.takeWhile isSpace
      sign := signed
      digits := rest.takeWhile isDigit
      tail := rest.dropWhile isDigit
      spaceOnly := fun byte member => List.mem_takeWhile_imp member
      digitsOnly := fun byte member => List.mem_takeWhile_imp member
      someDigit := fine.1
      ended := or_iff_not_imp_left.mpr fine.2.2 }, ?_⟩
    rw [text, List.takeWhile_append_dropWhile, ← behind, List.takeWhile_append_dropWhile]

end Numeral

/-! ### Ports -/

/-- This text is a port: white space, no minus sign, and a numeral of at most
sixteen bits, ended by the end of the text or by a newline. -/
def IsPort (buffer : Text) (port : ℕ) : Prop :=
  ∃ n : Numeral, n.text = buffer ∧ n.sign ≠ .minus ∧ n.value = port ∧ n.value ≤ 65535

/-- This text is a numeral that fits an `unsigned long` and is negative or has
more than sixteen bits. -/
def Narrowed (buffer : Text) : Prop :=
  ∃ n : Numeral, n.text = buffer ∧ n.value < 2 ^ 64 ∧ (n.sign = .minus ∨ 65535 < n.value)

theorem isPort_text {n : Numeral} {port : ℕ} :
    IsPort n.text port ↔ n.sign ≠ .minus ∧ n.value = port ∧ n.value ≤ 65535 := by
  constructor
  · rintro ⟨m, same, positive, valued, small⟩
    obtain ⟨sign, value⟩ := Numeral.unique same
    rw [value] at valued small
    exact ⟨fun minus => positive (sign.mpr minus), valued, small⟩
  · rintro ⟨positive, valued, small⟩
    exact ⟨n, rfl, positive, valued, small⟩

theorem narrowed_text {n : Numeral} :
    Narrowed n.text ↔ n.value < 2 ^ 64 ∧ (n.sign = .minus ∨ 65535 < n.value) := by
  constructor
  · rintro ⟨m, same, fits, wrong⟩
    obtain ⟨sign, value⟩ := Numeral.unique same
    rw [value, sign] at wrong
    rw [value] at fits
    exact ⟨fits, wrong⟩
  · rintro ⟨fits, wrong⟩
    exact ⟨n, rfl, fits, wrong⟩

theorem toUint16_of_isPort {buffer : Text} {port : ℕ} (isPort : IsPort buffer port) :
    toUint16 buffer = some port := by
  obtain ⟨n, rfl, positive, rfl, small⟩ := isPort
  have fits : ¬ 2 ^ 64 ≤ n.value := by omega
  have kept : n.value % 2 ^ 16 = n.value := Nat.mod_eq_of_lt (by omega)
  rw [n.toUint16_text, if_neg fits, Numeral.unsigned, if_neg positive, kept]

/-- What is accepted is a port, or loses something in the cast. -/
theorem isPort_or_narrowed {buffer : Text} {port : ℕ} (accepted : toUint16 buffer = some port) :
    IsPort buffer port ∨ Narrowed buffer := by
  obtain ⟨n, rfl⟩ := Numeral.of_toUint16 accepted
  rw [n.toUint16_text] at accepted
  split at accepted
  · cases accepted
  · rename_i fits
    rw [isPort_text, narrowed_text]
    by_cases wrong : n.sign = .minus ∨ 65535 < n.value
    · right
      exact ⟨by omega, wrong⟩
    · left
      obtain ⟨positive, small⟩ := not_or.mp wrong
      have kept : n.value % 2 ^ 16 = n.value := Nat.mod_eq_of_lt (by omega)
      rw [Numeral.unsigned, if_neg positive, kept] at accepted
      exact ⟨positive, Option.some.inj accepted, by omega⟩

theorem not_isPort_of_narrowed {buffer : Text} {port : ℕ} (narrowed : Narrowed buffer) :
    ¬ IsPort buffer port := by
  obtain ⟨n, rfl, -, wrong⟩ := narrowed
  rw [isPort_text]
  rintro ⟨positive, -, small⟩
  cases wrong with
  | inl minus => exact positive minus
  | inr large => omega

/-- A narrowed numeral is accepted all the same. -/
theorem toUint16_of_narrowed {buffer : Text} (narrowed : Narrowed buffer) :
    ∃ port, toUint16 buffer = some port := by
  obtain ⟨n, rfl, fits, -⟩ := narrowed
  exact ⟨_, by rw [n.toUint16_text, if_neg (by omega)]⟩

/-! ### The ports that are announced -/

/-- A printed number, as a numeral. -/
def Numeral.ofNat (n : ℕ) : Numeral where
  space := []
  sign := .none
  digits := Numerals.digits n
  tail := []
  spaceOnly := by simp
  digitsOnly := by
    intro byte member
    have range := Numerals.digits_code member
    simp only [isDigit, Bool.and_eq_true, decide_eq_true_eq]
    exact range
  someDigit := Numerals.digits_ne_nil n
  ended := .inl rfl

theorem Numeral.text_ofNat (n : ℕ) : (Numeral.ofNat n).text = decimal n := by
  have printed : decimal n = Numerals.digits n := Numerals.bytes_toString n
  simp [Numeral.text, Numeral.ofNat, Sign.text, printed]

theorem isPort_decimal {n : ℕ} (small : n ≤ 65535) : IsPort (decimal n) n := by
  have valued : (Numeral.ofNat n).value = n := Numerals.value_digits n
  have positive : (Numeral.ofNat n).sign ≠ .minus := nofun
  exact ⟨.ofNat n, Numeral.text_ofNat n, positive, valued, by omega⟩

/-- `to_uint16` undoes `"%d"` on every port. -/
theorem toUint16_decimal {n : ℕ} (small : n ≤ 65535) : toUint16 (decimal n) = some n :=
  toUint16_of_isPort (isPort_decimal small)

/-- `to_uint16` accepts a text exactly when it is a port, and stores it, if and only
if the text is no numeral that the cast narrows. The ports that the server announces
are read back. -/
theorem port_parsing_exact_iff (buffer : Text) :
    ((∀ port, toUint16 buffer = some port ↔ IsPort buffer port) ↔ ¬ Narrowed buffer) ∧
    ∀ slot ≤ MAX_CLIENTS, toUint16 (decimal (PORT + slot)) = some (PORT + slot) := by
  constructor
  · constructor
    · intro agrees narrowed
      obtain ⟨port, accepted⟩ := toUint16_of_narrowed narrowed
      exact not_isPort_of_narrowed narrowed ((agrees port).mp accepted)
    · intro fine port
      constructor
      · intro accepted
        exact (isPort_or_narrowed accepted).resolve_right fine
      · exact toUint16_of_isPort
  · intro slot inside
    have clients : MAX_CLIENTS = 2727 := rfl
    have first : PORT = 6969 := rfl
    exact toUint16_decimal (by omega)

/-- "65536" is accepted as port 0, and "-1" as port 65535. -/
theorem port_parsing_not_exact :
    toUint16 [54, 53, 53, 51, 54] = some 0 ∧ toUint16 [45, 49] = some 65535 ∧
    ¬ ∀ buffer port, toUint16 buffer = some port ↔ IsPort buffer port := by
  refine ⟨by decide, by decide, ?_⟩
  intro agrees
  obtain ⟨n, same, positive, -⟩ := (agrees [45, 49] 65535).mp (by decide)
  have read := n.sign_text
  rw [same] at read
  have minus : true = decide (n.sign = .minus) := congrArg Prod.fst read
  simp [positive] at minus

end Spqr
