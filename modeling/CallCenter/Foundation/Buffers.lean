import Mathlib

/-!
# Texts in fixed buffers

What `sprintf` writes into an array of fixed size: the bytes of a text and a terminating zero.  The
bytes of a decimal number are one for each digit and one for the sign.
-/

namespace CallCenter.Foundation

/-- The text and its terminating zero are no longer than a buffer of `size` bytes. -/
def Fits (size : Nat) (text : String) : Prop := text.utf8ByteSize + 1 ≤ size

instance (size : Nat) (text : String) : Decidable (Fits size text) :=
  inferInstanceAs (Decidable (text.utf8ByteSize + 1 ≤ size))

/-- The bytes `%d` writes. -/
def decimalSize (number : Int) : Nat :=
  (if number < 0 then 1 else 0) + (Nat.log 10 number.natAbs + 1)

theorem utf8ByteSize_repr (n : Nat) : n.repr.utf8ByteSize = Nat.log 10 n + 1 := by
  induction n using Nat.strong_induction_on with
  | _ n inductionHypothesis =>
    by_cases short : n < 10
    · interval_cases n <;> decide +kernel
    · have long : 10 ≤ n := by omega
      have small : n % 10 < 10 := Nat.mod_lt _ (by decide)
      have digit : (String.singleton (Nat.digitChar (n % 10))).utf8ByteSize = 1 := by
        interval_cases n % 10 <;> decide +kernel
      -- the last digit comes off the end
      rw [Nat.repr_of_ge long, String.utf8ByteSize_append, digit, inductionHypothesis (n / 10) (by omega),
        Nat.log_of_one_lt_of_le (by decide) long]

theorem utf8ByteSize_toString (number : Int) : (toString number).utf8ByteSize = decimalSize number := by
  rw [Int.toString_eq_repr, Int.repr_eq_if, decimalSize]
  by_cases negative : number < 0
  · have nat : (-number).toNat = number.natAbs := by omega
    have sign : "-".utf8ByteSize = 1 := rfl
    rw [if_neg (by omega), if_pos negative, String.utf8ByteSize_append, sign, nat, utf8ByteSize_repr]
  · have nat : number.toNat = number.natAbs := by omega
    rw [if_pos (by omega), if_neg negative, nat, utf8ByteSize_repr, Nat.zero_add]

end CallCenter.Foundation
