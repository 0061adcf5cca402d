import CallCenter.Foundation.Text
import Mathlib.Algebra.GroupWithZero.Nat
import Mathlib.Algebra.Ring.Int.Defs

/-!
# Numerals of several bases

`strtol` reads the longest run of digits behind a sign; with base 0 it takes the base of the number
from its prefix.  A number printed in base 10, 16 or 8 with that prefix is read back.  `atol` is
`strtol` with base 10.
-/

namespace CallCenter.Foundation.Numerals

open CallCenter.Foundation (Text)
open CallCenter.Foundation.Text

/-- The value of a digit; letters are digits from ten on. -/
def digitValue (c : Char) : Option Nat :=
  if c.isDigit then some (c.toNat - '0'.toNat)
  else if c.isLower then some (c.toNat - 'a'.toNat + 10)
  else if c.isUpper then some (c.toNat - 'A'.toNat + 10)
  else none

/-- The value of the longest run of digits, behind digits of the value `init`. -/
def digitsValue (base : Nat) : Text → Nat → Nat
  | [], init => init
  | c :: rest, init =>
    match digitValue c with
    | some digit => if digit < base then digitsValue base rest (base * init + digit) else init
    | none => init

/-- The base of a number and what follows its prefix; the `0` before octal digits is one of them. -/
def detectBase : Text → Nat × Text
  | '0' :: 'x' :: rest => (16, rest)
  | '0' :: 'X' :: rest => (16, rest)
  | '0' :: rest => (8, '0' :: rest)
  | rest => (10, rest)

/-- The base of a number and its digits, for base 0 or 10. -/
def numeral (base : Nat) (unsigned : Text) : Nat × Text :=
  if base = 0 then detectBase unsigned else (base, unsigned)

/-- A sign and what follows it. -/
def splitSign : Text → Bool × Text
  | '-' :: rest => (true, rest)
  | '+' :: rest => (false, rest)
  | rest => (false, rest)

def longMax : Int := 2 ^ 63 - 1

def longMin : Int := -2 ^ 63

/-- The nearest `long` of 64 bits. -/
def clampLong (z : Int) : Int := max longMin (min longMax z)

/-- `strtol(text, NULL, base)`, for base 0 or 10. -/
def strtol (base : Nat) (text : Text) : Int :=
  let (negative, unsigned) := splitSign (text.dropWhile isspace)
  let (base, digits) := numeral base unsigned
  let value : Int := digitsValue base digits 0
  clampLong (if negative then -value else value)

/-- `atol`. -/
def atol (text : Text) : Int := strtol 10 text

/-- `(int) z`. -/
def toInt32 (z : Int) : Int := Int.bmod z (2 ^ 32)

theorem clampLong_of_fits {z : Int} (least : longMin ≤ z) (most : z ≤ longMax) : clampLong z = z := by
  rw [clampLong]
  omega

theorem toInt32_of_fits {z : Int} (least : -2 ^ 31 ≤ z) (most : z < 2 ^ 31) : toInt32 z = z :=
  Int.bmod_eq_of_le (by omega) (by omega)

/-! ## Digits -/

theorem digitValue_digitChar {n : Nat} (digit : n < 16) : digitValue n.digitChar = some n := by
  have all : ∀ m : Fin 16, digitValue (Nat.digitChar m) = some m.val := by decide
  exact all ⟨n, digit⟩

theorem digitsValue_digit {base n : Nat} (small : base ≤ 16) (digit : n < base) (rest : Text) (init : Nat) :
    digitsValue base (n.digitChar :: rest) init = digitsValue base rest (base * init + n) := by
  rw [digitsValue, digitValue_digitChar (by omega)]
  exact if_pos digit

/-- A printed number in front of other digits. -/
theorem digitsValue_toDigits {base : Nat} (large : 1 < base) (small : base ≤ 16) (n : Nat) (rest : Text) :
    digitsValue base (Nat.toDigits base n ++ rest) 0 = digitsValue base rest n := by
  induction n using Nat.strongRecOn generalizing rest with
  | ind n inductionHypothesis =>
    rw [Nat.toDigits_eq_if large]
    split
    · rename_i digit
      rw [List.singleton_append, digitsValue_digit small digit, Nat.mul_zero, Nat.zero_add]
    · -- The last digit is the remainder, and the ones before it are those of the quotient.
      have less : n / base < n := Nat.div_lt_self (by omega) large
      rw [List.append_assoc, inductionHypothesis _ less, List.singleton_append,
        digitsValue_digit small (Nat.mod_lt n (by omega)), Nat.div_add_mod]

theorem digitsValue_printed {base : Nat} (large : 1 < base) (small : base ≤ 16) (n : Nat) :
    digitsValue base (Nat.toDigits base n) 0 = n := by
  have printed := digitsValue_toDigits large small n []
  rwa [List.append_nil] at printed

theorem mem_toDigits {base n : Nat} (large : 1 < base) {c : Char} (mem : c ∈ Nat.toDigits base n) :
    ∃ digit < base, c = Nat.digitChar digit := by
  induction n using Nat.strongRecOn with
  | ind n inductionHypothesis =>
    rw [Nat.toDigits_eq_if large] at mem
    split at mem
    · rename_i digit
      exact ⟨n, digit, List.mem_singleton.mp mem⟩
    · rcases List.mem_append.mp mem with front | last
      · exact inductionHypothesis _ (Nat.div_lt_self (by omega) large) front
      · exact ⟨n % base, Nat.mod_lt n (by omega), List.mem_singleton.mp last⟩

/-- A number starts with a digit, and not with a zero unless it is zero. -/
theorem head_toDigits {base : Nat} (large : 1 < base) (n : Nat) :
    ∃ digit rest, Nat.toDigits base n = Nat.digitChar digit :: rest ∧ digit < base ∧
      (0 < n → 0 < digit) := by
  induction n using Nat.strongRecOn with
  | ind n inductionHypothesis =>
    rw [Nat.toDigits_eq_if large]
    split
    · rename_i digit
      exact ⟨n, [], rfl, digit, id⟩
    · have some : 0 < n / base := Nat.div_pos (by omega) (by omega)
      obtain ⟨digit, rest, shape, less, positive⟩ :=
        inductionHypothesis _ (Nat.div_lt_self (by omega) large)
      exact ⟨digit, rest ++ [(n % base).digitChar], by rw [shape, List.cons_append], less,
        fun _ => positive some⟩

/-! ## Printed numbers are read back -/

theorem digitChar_plain {n : Nat} (digit : n < 10) :
    isspace n.digitChar = false ∧ n.digitChar ≠ '-' ∧ n.digitChar ≠ '+' ∧ n.digitChar ≠ 'x' ∧
      n.digitChar ≠ 'X' ∧ (0 < n → n.digitChar ≠ '0') := by
  have all : ∀ m : Fin 10, isspace (Nat.digitChar m) = false ∧ Nat.digitChar m ≠ '-' ∧
      Nat.digitChar m ≠ '+' ∧ Nat.digitChar m ≠ 'x' ∧ Nat.digitChar m ≠ 'X' ∧
      (0 < m.val → Nat.digitChar m ≠ '0') := by
    decide
  exact all ⟨n, digit⟩

theorem splitSign_unsigned {c : Char} (noMinus : c ≠ '-') (noPlus : c ≠ '+') (rest : Text) :
    splitSign (c :: rest) = (false, c :: rest) := by
  rw [splitSign]
  · rintro rest same
    exact noMinus (List.cons.inj same).1
  · rintro rest same
    exact noPlus (List.cons.inj same).1

theorem detectBase_octal {c : Char} (noX : c ≠ 'x') (noUpper : c ≠ 'X') (rest : Text) :
    detectBase ('0' :: c :: rest) = (8, '0' :: c :: rest) := by
  rw [detectBase]
  · rintro rest same
    exact noX (List.cons.inj same).1
  · rintro rest same
    exact noUpper (List.cons.inj same).1

theorem detectBase_decimal {c : Char} (noZero : c ≠ '0') (rest : Text) :
    detectBase (c :: rest) = (10, c :: rest) := by
  rw [detectBase]
  all_goals
    rintro rest same
    exact noZero (List.cons.inj same).1

/-- `0x%x`. -/
theorem strtol_hex {n : Nat} (fits : (n : Int) ≤ longMax) : strtol 0 ('0' :: 'x' :: Nat.toDigits 16 n) = n := by
  show clampLong ((digitsValue 16 (Nat.toDigits 16 n) 0 : Nat) : Int) = n
  rw [digitsValue_printed (by omega) (by omega)]
  exact clampLong_of_fits (by simp only [longMin]; omega) fits

/-- `0%o`. -/
theorem strtol_octal {n : Nat} (fits : (n : Int) ≤ longMax) : strtol 0 ('0' :: Nat.toDigits 8 n) = n := by
  obtain ⟨digit, rest, shape, less, _⟩ := @head_toDigits 8 (by omega) n
  obtain ⟨_, _, _, noX, noUpper, _⟩ := @digitChar_plain digit (by omega)
  -- Behind the zero comes a digit, not an `x`.
  have base : detectBase ('0' :: Nat.toDigits 8 n) = (8, '0' :: Nat.toDigits 8 n) := by
    rw [shape, detectBase_octal noX noUpper]
  have value : digitsValue 8 ('0' :: Nat.toDigits 8 n) 0 = n :=
    digitsValue_printed (by omega) (by omega) n
  show clampLong ((digitsValue (detectBase ('0' :: Nat.toDigits 8 n)).1
    (detectBase ('0' :: Nat.toDigits 8 n)).2 0 : Nat) : Int) = n
  rw [base, value]
  exact clampLong_of_fits (by simp only [longMin]; omega) fits

/-- The digits of a decimal number without a sign. -/
theorem digitsValue_detected (n : Nat) :
    digitsValue (numeral 0 (Nat.toDigits 10 n)).1 (numeral 0 (Nat.toDigits 10 n)).2 0 = n := by
  rw [numeral, if_pos rfl]
  rcases Nat.eq_zero_or_pos n with rfl | positive
  · rfl
  · obtain ⟨digit, rest, shape, less, some⟩ := @head_toDigits 10 (by omega) n
    have noZero := (digitChar_plain less).2.2.2.2.2 (some positive)
    -- A leading zero would make it octal.
    have base : detectBase (Nat.toDigits 10 n) = (10, Nat.toDigits 10 n) := by
      rw [shape, detectBase_decimal noZero]
    rw [base]
    exact @digitsValue_printed 10 (by omega) (by omega) n

/-- Decimal digits start with no blank and no sign. -/
theorem splitSign_toDigits (n : Nat) :
    splitSign ((Nat.toDigits 10 n).dropWhile isspace) = (false, Nat.toDigits 10 n) := by
  obtain ⟨digit, rest, shape, less, _⟩ := @head_toDigits 10 (by omega) n
  obtain ⟨visible, noMinus, noPlus, _⟩ := digitChar_plain less
  rw [shape, List.dropWhile_cons_of_neg (by simp [visible]), splitSign_unsigned noMinus noPlus]

/-- `%d`, where the base reads the digits of a decimal number. -/
theorem strtol_toString {base : Nat} {z : Int}
    (reads : ∀ n, digitsValue (numeral base (Nat.toDigits 10 n)).1 (numeral base (Nat.toDigits 10 n)).2 0 = n)
    (least : longMin ≤ z) (fits : z ≤ longMax) : strtol base (toString z).toList = z := by
  rw [Int.toString_eq_repr, Int.repr_eq_if]
  split
  · rw [Nat.toList_repr, strtol, splitSign_toDigits]
    show clampLong ((digitsValue (numeral base (Nat.toDigits 10 z.toNat)).1
      (numeral base (Nat.toDigits 10 z.toNat)).2 0 : Nat) : Int) = z
    rw [reads, Int.toNat_of_nonneg (by omega)]
    exact clampLong_of_fits least fits
  · -- The sign stands before the digits of `-z`.
    rw [String.toList_append, Nat.toList_repr]
    show clampLong (-((digitsValue (numeral base (Nat.toDigits 10 (-z).toNat)).1
      (numeral base (Nat.toDigits 10 (-z).toNat)).2 0 : Nat) : Int)) = z
    rw [reads, Int.toNat_of_nonneg (by omega), Int.neg_neg]
    exact clampLong_of_fits least fits

theorem strtol_decimal {z : Int} (least : longMin ≤ z) (fits : z ≤ longMax) :
    strtol 0 (toString z).toList = z :=
  strtol_toString digitsValue_detected least fits

theorem atol_toString {z : Int} (least : longMin ≤ z) (fits : z ≤ longMax) : atol (toString z).toList = z :=
  strtol_toString (fun n => @digitsValue_printed 10 (by omega) (by omega) n) least fits

end CallCenter.Foundation.Numerals
