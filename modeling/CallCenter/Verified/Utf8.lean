import CallCenter.Foundation.BitFields
import CallCenter.Model.CodeHelper
import Mathlib.Algebra.GroupWithZero.Nat
import Mathlib.Data.List.TakeWhile

/-!
# UTF-8 there and back

`UTF2Uni` takes from the first byte of a character how many bytes belong to it.  The encoder marks
two bytes as three or more, and the decoder drops the highest bits of four.
-/

namespace CallCenter.Verified.Utf8

open CallCenter.Foundation.BitFields
open CallCenter.Model.CodeHelper

/-! ## One character of the decoder -/

/-- How many bytes a first byte announces. -/
def announced (c : BitVec 8) : Nat :=
  if c.toNat < 0x80 then 1
  else if c.toNat < 0xC0 then 5
  else if c.toNat < 0xE0 then 2
  else if c.toNat < 0xF0 then 3
  else if c.toNat < 0xF8 then 4
  else 5

/-- The low bits of a byte behind the first; the zero byte follows the last. -/
def low6 (rest : List (BitVec 8)) (i : Nat) : Nat := (rest.getD i 0).toNat % 64

/-- The number that is read. -/
def readAs (c : BitVec 8) (rest : List (BitVec 8)) : Nat :=
  if announced c = 1 then c.toNat
  else if announced c = 2 then c.toNat % 64 * 64 + low6 rest 0
  else if announced c = 3 then c.toNat % 32 * 4096 + low6 rest 0 * 64 + low6 rest 1
  else if announced c = 4 then low6 rest 0 * 4096 + low6 rest 1 * 64 + low6 rest 2
  else low6 rest 1 * 4096 + low6 rest 2 * 64 + low6 rest 3

theorem low6_lt (rest : List (BitVec 8)) (i : Nat) : low6 rest i < 64 := Nat.mod_lt _ (by omega)

theorem charAt_eq (rest : List (BitVec 8)) (i : Nat) :
    charAt rest i = if i ≤ rest.length then .ok (rest.getD i 0) else .error .src := by
  rw [charAt, List.getD_eq_getElem?_getD]
  cases place : rest[i]? with
  | some c =>
    have inside := (List.getElem?_eq_some_iff.mp place).1
    exact (if_pos (by omega)).symm
  | none =>
    have behind := List.getElem?_eq_none_iff.mp place
    dsimp only [Option.getD]
    by_cases atEnd : i = rest.length
    · rw [if_pos atEnd, if_pos (by omega)]
    · rw [if_neg atEnd, if_neg (by omega)]

theorem toNat_masked {c mask : BitVec 8} {k : Nat} (isMask : mask.toNat = 2 ^ k - 1) :
    (masked c mask).toNat = c.toNat % 2 ^ k := by
  have less : (c &&& mask).toNat < 2 ^ 32 := Nat.lt_trans (c &&& mask).isLt (by omega)
  rw [masked, BitVec.toNat_setWidth, Nat.mod_eq_of_lt less, toNat_and_mask isMask]

/-- The masks of the loop tell the classes of bytes apart. -/
theorem classes (c : BitVec 8) :
    (c &&& 0x80 = 0 ↔ c.toNat < 0x80) ∧
      (c &&& 0xE0 = 0xC0 ↔ 0xC0 ≤ c.toNat ∧ c.toNat < 0xE0) ∧
      (c &&& 0xF0 = 0xE0 ↔ 0xE0 ≤ c.toNat ∧ c.toNat < 0xF0) ∧
      (c &&& 0xF8 = 0xF0 ↔ 0xF0 ≤ c.toNat ∧ c.toNat < 0xF8) := by
  revert c
  decide +kernel

/-- A field of six bits of a byte, moved up. -/
theorem toNat_masked_shiftLeft {c mask : BitVec 8} {k : Nat} (isMask : mask.toNat = 2 ^ k - 1) {s : Nat}
    (fits : k + s ≤ 32) : (masked c mask <<< s).toNat = c.toNat % 2 ^ k * 2 ^ s := by
  rw [toNat_shiftLeft_of_lt, toNat_masked isMask]
  rw [toNat_masked isMask]
  calc c.toNat % 2 ^ k * 2 ^ s < 2 ^ k * 2 ^ s :=
        Nat.mul_lt_mul_of_pos_right (Nat.mod_lt _ (Nat.two_pow_pos k)) (Nat.two_pow_pos s)
    _ = 2 ^ (k + s) := (Nat.pow_add ..).symm
    _ ≤ 2 ^ 32 := Nat.pow_le_pow_right (by omega) fits

/-- Two fields of six bits, the last one at the end. -/
theorem toNat_two {high : BitVec 32} {c : BitVec 8} (above : 2 ^ 6 ∣ high.toNat) :
    (high ||| masked c 0x3F).toNat = high.toNat + c.toNat % 64 := by
  have low : (masked c 0x3F).toNat = c.toNat % 64 := @toNat_masked c 0x3F 6 rfl
  rw [toNat_or_of_dvd above (by rw [low]; exact Nat.mod_lt _ (by omega)), low]

theorem toNat_three {high : BitVec 32} {c d : BitVec 8} (above : 2 ^ 12 ∣ high.toNat) :
    (high ||| masked c 0x3F <<< 6 ||| masked d 0x3F).toNat =
      high.toNat + c.toNat % 64 * 64 + d.toNat % 64 := by
  have middle : (masked c 0x3F <<< 6).toNat = c.toNat % 64 * 64 :=
    @toNat_masked_shiftLeft c 0x3F 6 rfl 6 (by omega)
  have less := Nat.mod_lt c.toNat (show 0 < 64 by omega)
  have joined := @toNat_or_of_dvd 32 high (masked c 0x3F <<< 6) 12 above (by rw [middle]; omega)
  have dvd : 2 ^ 6 ∣ (high ||| masked c 0x3F <<< 6).toNat := by
    rw [joined, middle]
    omega
  rw [toNat_two dvd, joined, middle]

/-- The classes of first bytes. -/
theorem announced_cases (c : BitVec 8) :
    (c.toNat < 0x80 ∧ announced c = 1) ∨ ((0xC0 ≤ c.toNat ∧ c.toNat < 0xE0) ∧ announced c = 2) ∨
      ((0xE0 ≤ c.toNat ∧ c.toNat < 0xF0) ∧ announced c = 3) ∨
      ((0xF0 ≤ c.toNat ∧ c.toNat < 0xF8) ∧ announced c = 4) ∨
      ((0x80 ≤ c.toNat ∧ c.toNat < 0xC0 ∨ 0xF8 ≤ c.toNat) ∧ announced c = 5) := by
  rw [announced]
  split_ifs <;> omega

theorem announced_pos (c : BitVec 8) : 1 ≤ announced c := by
  have inClass := announced_cases c
  omega

/-- How many bytes a number takes in UTF-8. -/
def size (n : Nat) : Nat := if n ≤ 0x7f then 1 else if n ≤ 0x7ff then 2 else if n ≤ 0xffff then 3 else 4

theorem size_le_four (n : Nat) : size n ≤ 4 := by
  rw [size]
  split_ifs <;> omega

/-- No character is read from fewer bytes than it takes. -/
theorem readAs_bounds (c : BitVec 8) (rest : List (BitVec 8)) :
    readAs c rest < 2 ^ 18 ∧ size (readAs c rest) ≤ announced c := by
  have zeroth := low6_lt rest 0
  have first := low6_lt rest 1
  have second := low6_lt rest 2
  have third := low6_lt rest 3
  rcases announced_cases c with ⟨byte, is⟩ | ⟨byte, is⟩ | ⟨byte, is⟩ | ⟨byte, is⟩ | ⟨byte, is⟩
  · rw [readAs, is, if_pos rfl, size, if_pos (by omega)]
    exact ⟨by omega, Nat.le_refl _⟩
  · rw [readAs, is, if_neg (by omega), if_pos rfl, size]
    refine ⟨by omega, ?_⟩
    split_ifs <;> omega
  · rw [readAs, is, if_neg (by omega), if_neg (by omega), if_pos rfl, size]
    refine ⟨by omega, ?_⟩
    split_ifs <;> omega
  · rw [readAs, is, if_neg (by omega), if_neg (by omega), if_neg (by omega), if_pos rfl]
    exact ⟨by omega, size_le_four _⟩
  · rw [readAs, is, if_neg (by omega), if_neg (by omega), if_neg (by omega), if_neg (by omega)]
    exact ⟨by omega, Nat.le_succ_of_le (size_le_four _)⟩

theorem wideChar_eq {wideChar : BitVec 32} {c : BitVec 8} {rest : List (BitVec 8)}
    (same : wideChar.toNat = readAs c rest) : wideChar = BitVec.ofNat 32 (readAs c rest) := by
  apply BitVec.eq_of_toNat_eq
  rw [BitVec.toNat_ofNat, Nat.mod_eq_of_lt, same]
  exact Nat.lt_trans (readAs_bounds c rest).1 (by omega)

/-- One round of the loop: as many bytes are read as the first one announces, with the zero byte
behind the last as one of them. -/
theorem decode_eq (c : BitVec 8) (rest : List (BitVec 8)) :
    decode c rest =
      if announced c ≤ rest.length + 2 then .ok (BitVec.ofNat 32 (readAs c rest), announced c - 1)
      else .error .src := by
  obtain ⟨one, two, three, four⟩ := classes c
  -- One case for each branch of the loop, in its order.
  rcases announced_cases c with ⟨byte, is⟩ | ⟨byte, is⟩ | ⟨byte, is⟩ | ⟨byte, is⟩ | ⟨byte, is⟩
  · have same : (c.setWidth 32).toNat = readAs c rest := by
      rw [readAs, is, if_pos rfl, BitVec.toNat_setWidth]
      omega
    rw [decode, if_pos (one.mpr byte), is, if_pos (by omega), ← wideChar_eq same]
  · rw [decode, if_neg (mt one.mp (by omega)), if_pos (two.mpr byte), is, if_pos (by omega), charAt_eq,
      if_pos (by omega)]
    have high := @toNat_masked_shiftLeft c 0x3F 6 rfl 6 (by omega)
    have same : (masked c 0x3F <<< 6 ||| masked (rest.getD 0 0) 0x3F).toNat = readAs c rest := by
      rw [toNat_two (by omega), high, readAs, is]
      rfl
    rw [← wideChar_eq same]
    rfl
  · rw [decode, if_neg (mt one.mp (by omega)), if_neg (mt two.mp (by omega)), if_pos (three.mpr byte), is,
      charAt_eq, charAt_eq, if_pos (by omega)]
    have high := @toNat_masked_shiftLeft c 0x1F 5 rfl 12 (by omega)
    have same : (masked c 0x1F <<< 12 ||| masked (rest.getD 0 0) 0x3F <<< 6 |||
        masked (rest.getD 1 0) 0x3F).toNat = readAs c rest := by
      rw [toNat_three (by omega), high, readAs, is]
      rfl
    rw [← wideChar_eq same]
    by_cases enough : 1 ≤ rest.length
    · rw [if_pos enough, if_pos (by omega)]
      rfl
    · rw [if_neg enough, if_neg (by omega)]
      rfl
  · rw [decode, if_neg (mt one.mp (by omega)), if_neg (mt two.mp (by omega)),
      if_neg (mt three.mp (by omega)), if_pos (four.mpr byte), is, charAt_eq, charAt_eq, charAt_eq,
      if_pos (by omega)]
    have high := @toNat_masked_shiftLeft (rest.getD 0 0) 0x3F 6 rfl 12 (by omega)
    have same : (masked (rest.getD 0 0) 0x3F <<< 12 ||| masked (rest.getD 1 0) 0x3F <<< 6 |||
        masked (rest.getD 2 0) 0x3F).toNat = readAs c rest := by
      rw [toNat_three (by omega), high, readAs, is]
      rfl
    rw [← wideChar_eq same]
    by_cases enough : 2 ≤ rest.length
    · rw [if_pos enough, if_pos (show 1 ≤ rest.length by omega), if_pos (by omega)]
      rfl
    · rw [if_neg enough, if_neg (show ¬ 4 ≤ rest.length + 2 by omega)]
      split_ifs <;> rfl
  · rw [decode, if_neg (mt one.mp (by omega)), if_neg (mt two.mp (by omega)),
      if_neg (mt three.mp (by omega)), if_neg (mt four.mp (by omega)), is, charAt_eq, charAt_eq, charAt_eq,
      charAt_eq, if_pos (show 0 ≤ rest.length by omega)]
    have high := @toNat_masked_shiftLeft (rest.getD 1 0) 0x3F 6 rfl 12 (by omega)
    have same : (masked (rest.getD 1 0) 0x3F <<< 12 ||| masked (rest.getD 2 0) 0x3F <<< 6 |||
        masked (rest.getD 3 0) 0x3F).toNat = readAs c rest := by
      rw [toNat_three (by omega), high, readAs, is]
      rfl
    rw [← wideChar_eq same]
    by_cases enough : 3 ≤ rest.length
    · rw [if_pos enough, if_pos (show 2 ≤ rest.length by omega), if_pos (show 1 ≤ rest.length by omega),
        if_pos (show 5 ≤ rest.length + 2 by omega)]
      rfl
    · rw [if_neg enough, if_neg (show ¬ 5 ≤ rest.length + 2 by omega)]
      split_ifs <;> rfl

/-! ## One character of the encoder -/

/-- A field below a mark. -/
theorem toNat_marked {x mark : BitVec 64} {k : Nat} (above : 2 ^ k ∣ mark.toNat) (below : x.toNat < 2 ^ k)
    (fits : mark.toNat + x.toNat < 2 ^ 8) : ((x ||| mark).setWidth 8).toNat = mark.toNat + x.toNat := by
  rw [BitVec.toNat_setWidth, BitVec.or_comm, toNat_or_of_dvd above below, Nat.mod_eq_of_lt fits]

section

variable {n : Nat}

theorem toNat_scalar (scalar : n ≤ 0x10ffff) : (BitVec.ofNat 64 n).toNat = n := by
  rw [BitVec.toNat_ofNat, Nat.mod_eq_of_lt (by omega)]

theorem le_iff (scalar : n ≤ 0x10ffff) (bound : BitVec 64) :
    (BitVec.ofNat 64 n ≤ bound ↔ n ≤ bound.toNat) ∧ (BitVec.ofNat 64 n ≥ bound ↔ bound.toNat ≤ n) := by
  rw [ge_iff_le, BitVec.le_def, BitVec.le_def, toNat_scalar scalar]
  exact ⟨Iff.rfl, Iff.rfl⟩

/-- A byte with a field of the number. -/
theorem toNat_byte (scalar : n ≤ 0x10ffff) {mask mark : BitVec 64} {s k : Nat}
    (isMask : mask.toNat = (2 ^ k - 1) <<< s) (above : 2 ^ k ∣ mark.toNat)
    (fits : mark.toNat + 2 ^ k ≤ 2 ^ 8) :
    ((((BitVec.ofNat 64 n &&& mask) >>> s) ||| mark).setWidth 8).toNat = mark.toNat + n / 2 ^ s % 2 ^ k := by
  have field : ((BitVec.ofNat 64 n &&& mask) >>> s).toNat = n / 2 ^ s % 2 ^ k := by
    rw [toNat_field isMask, toNat_scalar scalar, Nat.mul_div_cancel _ (Nat.two_pow_pos s)]
  have less := Nat.mod_lt (n / 2 ^ s) (Nat.two_pow_pos k)
  rw [toNat_marked above (by rw [field]; exact less) (by rw [field]; omega), field]

/-- The last byte of a character. -/
theorem toNat_last (scalar : n ≤ 0x10ffff) :
    (((BitVec.ofNat 64 n &&& 0x3f) ||| 0x80).setWidth 8).toNat = 0x80 + n % 64 := by
  have low : (BitVec.ofNat 64 n &&& 0x3f).toNat = n % 64 := by
    have field := @toNat_and_mask 64 (BitVec.ofNat 64 n) 0x3f 6 rfl
    rwa [toNat_scalar scalar] at field
  have mark : (0x80 : BitVec 64).toNat = 0x80 := rfl
  have less := Nat.mod_lt n (show 0 < 64 by omega)
  rw [@toNat_marked _ 0x80 7 (by omega) (by omega) (by omega), low, mark]

theorem encode_one (most : n ≤ 0x7f) : ∃ c, encode (BitVec.ofNat 64 n) = [c] ∧ c.toNat = n := by
  have scalar : n ≤ 0x10ffff := by omega
  have small : BitVec.ofNat 64 n ≤ 0x7f := (le_iff scalar 0x7f).1.mpr most
  refine ⟨_, by rw [encode, if_pos small], ?_⟩
  rw [BitVec.toNat_setWidth, @toNat_and_mask 64 _ 0x7f 7 rfl, toNat_scalar scalar]
  omega

theorem encode_two (least : 0x80 ≤ n) (most : n ≤ 0x7ff) :
    ∃ c d, encode (BitVec.ofNat 64 n) = [c, d] ∧ c.toNat = 0xE0 + n / 64 ∧ d.toNat = 0x80 + n % 64 := by
  have scalar : n ≤ 0x10ffff := by omega
  have above : ¬ BitVec.ofNat 64 n ≤ 0x7f := mt (le_iff scalar 0x7f).1.mp (Nat.not_le.mpr least)
  have inClass : BitVec.ofNat 64 n ≥ 0x80 ∧ BitVec.ofNat 64 n ≤ 0x7ff :=
    ⟨(le_iff scalar 0x80).2.mpr least, (le_iff scalar 0x7ff).1.mpr most⟩
  refine ⟨_, _, by rw [encode, if_neg above, if_pos inClass], ?_, toNat_last scalar⟩
  rw [@toNat_byte _ scalar 0x7c0 0xe0 6 5 rfl (by decide) (by decide)]
  have mark : (0xe0 : BitVec 64).toNat = 0xE0 := rfl
  omega

theorem encode_three (least : 0x800 ≤ n) (most : n ≤ 0xffff) :
    ∃ c d e, encode (BitVec.ofNat 64 n) = [c, d, e] ∧ c.toNat = 0xE0 + n / 4096 ∧
      d.toNat = 0x80 + n / 64 % 64 ∧ e.toNat = 0x80 + n % 64 := by
  have scalar : n ≤ 0x10ffff := by omega
  have above : ¬ BitVec.ofNat 64 n ≤ 0x7f := mt (le_iff scalar 0x7f).1.mp (by simp; omega)
  have apart : ¬ (BitVec.ofNat 64 n ≥ 0x80 ∧ BitVec.ofNat 64 n ≤ 0x7ff) :=
    fun both => absurd ((le_iff scalar 0x7ff).1.mp both.2) (Nat.not_le.mpr least)
  have inClass : BitVec.ofNat 64 n ≥ 0x800 ∧ BitVec.ofNat 64 n ≤ 0xffff :=
    ⟨(le_iff scalar 0x800).2.mpr least, (le_iff scalar 0xffff).1.mpr most⟩
  refine ⟨_, _, _, by rw [encode, if_neg above, if_neg apart, if_pos inClass], ?_, ?_, toNat_last scalar⟩
  · rw [@toNat_byte _ scalar 0xf000 0xe0 12 4 rfl (by decide) (by decide)]
    have mark : (0xe0 : BitVec 64).toNat = 0xE0 := rfl
    omega
  · rw [@toNat_byte _ scalar 0xfc0 0x80 6 6 rfl (by decide) (by decide)]
    rfl

/-- The field of the first byte is moved by too few places: two of its bits stay, and the third is
one of the mark. -/
theorem toNat_first_of_four (scalar : n ≤ 0x10ffff) :
    ((((BitVec.ofNat 64 n &&& 0x1c0000) >>> 16) ||| 0xf0).setWidth 8).toNat = 0xF0 + n / 2 ^ 18 % 4 * 4 := by
  have field : ((BitVec.ofNat 64 n &&& 0x1c0000) >>> 16).toNat = n / 2 ^ 18 % 2 ^ 3 * 2 ^ 18 / 2 ^ 16 := by
    rw [@toNat_field 64 _ 0x1c0000 18 3 rfl, toNat_scalar scalar]
  have mark : (0xf0 : BitVec 64).toNat = 0xF0 := rfl
  -- Only the bit of plane 16 meets the mark.
  by_cases lower : n / 2 ^ 18 < 4
  · rw [@toNat_marked _ 0xf0 4 (by omega) (by omega) (by omega), field, mark]
    omega
  · have sixteen : (BitVec.ofNat 64 n &&& 0x1c0000) >>> 16 = 16 := by
      apply BitVec.eq_of_toNat_eq
      rw [field]
      show _ = 16
      omega
    have last : n / 2 ^ 18 % 4 = 0 := by omega
    rw [sixteen, last]
    rfl

theorem encode_four (least : 0x10000 ≤ n) (most : n ≤ 0x10ffff) :
    ∃ c d e f, encode (BitVec.ofNat 64 n) = [c, d, e, f] ∧ c.toNat = 0xF0 + n / 2 ^ 18 % 4 * 4 ∧
      d.toNat = 0x80 + n / 4096 % 64 ∧ e.toNat = 0x80 + n / 64 % 64 ∧ f.toNat = 0x80 + n % 64 := by
  have above : ¬ BitVec.ofNat 64 n ≤ 0x7f := mt (le_iff most 0x7f).1.mp (by simp; omega)
  have apart : ¬ (BitVec.ofNat 64 n ≥ 0x80 ∧ BitVec.ofNat 64 n ≤ 0x7ff) :=
    fun both => absurd ((le_iff most 0x7ff).1.mp both.2) (by simp; omega)
  have apart' : ¬ (BitVec.ofNat 64 n ≥ 0x800 ∧ BitVec.ofNat 64 n ≤ 0xffff) :=
    fun both => absurd ((le_iff most 0xffff).1.mp both.2) (Nat.not_le.mpr least)
  have inClass : BitVec.ofNat 64 n ≥ 0x10000 ∧ BitVec.ofNat 64 n ≤ 0x10ffff :=
    ⟨(le_iff most 0x10000).2.mpr least, (le_iff most 0x10ffff).1.mpr most⟩
  refine ⟨_, _, _, _, by rw [encode, if_neg above, if_neg apart, if_neg apart', if_pos inClass],
    toNat_first_of_four most, ?_, ?_, toNat_last most⟩
  · rw [@toNat_byte _ most 0x3f000 0x80 12 6 rfl (by decide) (by decide)]
    rfl
  · rw [@toNat_byte _ most 0xfc0 0x80 6 6 rfl (by decide) (by decide)]
    rfl

end

/-! ## One character there and back -/

/-- The numbers that are encoded and decoded alike. -/
def ReadsBack (n : Nat) : Prop := n ≤ 0x7f ∨ 0x800 ≤ n ∧ n ≤ 0x3ffff

theorem ne_zero_of_toNat {b : BitVec 8} (positive : 0 < b.toNat) : b ≠ 0 := by
  rintro rfl
  cases positive

/-- The first byte of a character and the bytes behind it. -/
structure Encoded (n : Nat) (c : BitVec 8) (tail : List (BitVec 8)) : Prop where
  is : encode (BitVec.ofNat 64 n) = c :: tail
  length : tail.length + 1 = size n
  noZero : ∀ b ∈ c :: tail, b ≠ 0
  back : ReadsBack n → announced c = size n ∧ ∀ rest, readAs c (tail ++ rest) = n
  lost : ¬ ReadsBack n → size n + 2 ≤ announced c ∨ ∀ rest, readAs c (tail ++ rest) ≠ n

theorem encoded_one {n : Nat} (positive : 0 < n) (most : n ≤ 0x7f) : ∃ c tail, Encoded n c tail := by
  obtain ⟨c, is, first⟩ := encode_one most
  have one : announced c = 1 := by
    have inClass := announced_cases c
    omega
  have length : size n = 1 := if_pos most
  refine ⟨c, [], is, by rw [length]; rfl, ?_, fun _ => ⟨by rw [one, length], fun rest => ?_⟩, ?_⟩
  · intro b mem
    rw [List.mem_singleton.mp mem]
    exact ne_zero_of_toNat (by omega)
  · rw [readAs, one, if_pos rfl, first]
  · exact fun lost => absurd (.inl most) lost

theorem encoded_two {n : Nat} (least : 0x80 ≤ n) (most : n ≤ 0x7ff) : ∃ c tail, Encoded n c tail := by
  obtain ⟨c, d, is, first, second⟩ := encode_two least most
  have length : size n = 2 := by
    rw [size, if_neg (by omega), if_pos most]
  refine ⟨c, [d], is, by rw [length]; rfl, ?_, ?_, fun _ => ?_⟩
  · intro b mem
    simp only [List.mem_cons, List.not_mem_nil, or_false] at mem
    rcases mem with rfl | rfl <;> exact ne_zero_of_toNat (by omega)
  · intro back
    simp only [ReadsBack] at back
    omega
  · -- The mark is that of three bytes, or of four and more where it meets the field.
    by_cases three : c.toNat < 0xF0
    · refine .inr fun rest same => ?_
      have is : announced c = 3 := by
        have inClass := announced_cases c
        omega
      rw [readAs, is, if_neg (by omega), if_neg (by omega), if_pos rfl] at same
      omega
    · left
      have inClass := announced_cases c
      omega

theorem encoded_three {n : Nat} (least : 0x800 ≤ n) (most : n ≤ 0xffff) : ∃ c tail, Encoded n c tail := by
  obtain ⟨c, d, e, is, first, second, third⟩ := encode_three least most
  have three : announced c = 3 := by
    have inClass := announced_cases c
    omega
  have length : size n = 3 := by
    rw [size, if_neg (by omega), if_neg (by omega), if_pos most]
  refine ⟨c, [d, e], is, by rw [length]; rfl, ?_, fun _ => ⟨by rw [three, length], fun rest => ?_⟩, ?_⟩
  · intro b mem
    simp only [List.mem_cons, List.not_mem_nil, or_false] at mem
    rcases mem with rfl | rfl | rfl <;> exact ne_zero_of_toNat (by omega)
  · rw [readAs, three, if_neg (by omega), if_neg (by omega), if_pos rfl]
    show c.toNat % 32 * 4096 + d.toNat % 64 * 64 + e.toNat % 64 = n
    omega
  · exact fun lost => absurd (.inr ⟨least, by omega⟩) lost

theorem encoded_four {n : Nat} (least : 0x10000 ≤ n) (most : n ≤ 0x10ffff) :
    ∃ c tail, Encoded n c tail := by
  obtain ⟨c, d, e, f, is, first, second, third, fourth⟩ := encode_four least most
  have length : size n = 4 := by
    rw [size, if_neg (by omega), if_neg (by omega), if_neg (by omega)]
  refine ⟨c, [d, e, f], is, by rw [length]; rfl, ?_, fun back => ?_, fun lost => .inr fun rest same => ?_⟩
  · intro b mem
    simp only [List.mem_cons, List.not_mem_nil, or_false] at mem
    rcases mem with rfl | rfl | rfl | rfl <;> exact ne_zero_of_toNat (by omega)
  · have low : n ≤ 0x3ffff := by
      simp only [ReadsBack] at back
      omega
    have four : announced c = 4 := by
      have inClass := announced_cases c
      omega
    refine ⟨by rw [four, length], fun rest => ?_⟩
    rw [readAs, four, if_neg (by omega), if_neg (by omega), if_neg (by omega), if_pos rfl]
    show d.toNat % 64 * 4096 + e.toNat % 64 * 64 + f.toNat % 64 = n
    omega
  · -- What is read of four bytes or more has 18 bits.
    have bound := (readAs_bounds c ([d, e, f] ++ rest)).1
    simp only [ReadsBack] at lost
    omega

theorem encoded {n : Nat} (positive : 0 < n) (scalar : n ≤ 0x10ffff) : ∃ c tail, Encoded n c tail := by
  by_cases one : n ≤ 0x7f
  · exact encoded_one positive one
  by_cases two : n ≤ 0x7ff
  · exact encoded_two (by omega) two
  by_cases three : n ≤ 0xffff
  · exact encoded_three (by omega) three
  · exact encoded_four (by omega) scalar

/-! ## A run of the decoder -/

/-- What the loop reads from some byte on. -/
def readAll (unread : List (BitVec 8)) : Except Overread (List (BitVec 32)) :=
  match unread with
  | [] => .ok []
  | c :: rest =>
    if announced c ≤ rest.length + 2 then
      (readAll (rest.drop (announced c - 1))).map (BitVec.ofNat 32 (readAs c rest) :: ·)
    else .error .src
termination_by unread.length
decreasing_by
  simp only [List.length_drop, List.length_cons]
  omega

/-- There is room for every character in `des`. -/
theorem decodeLoop_eq {sizeD : Nat} {unread : List (BitVec 8)} {des : List (BitVec 32)}
    (room : des.length + unread.length ≤ sizeD) :
    decodeLoop sizeD unread des = (readAll unread).map (des ++ ·) := by
  induction total : unread.length using Nat.strongRecOn generalizing unread des with
  | ind total inductionHypothesis =>
    cases unread with
    | nil =>
      rw [decodeLoop, readAll]
      simp [Except.map]
    | cons c rest =>
      simp only [List.length_cons] at room total
      rw [decodeLoop, if_pos (by omega), decode_eq, readAll]
      by_cases enough : announced c ≤ rest.length + 2
      · have shorter : (rest.drop (announced c - 1)).length ≤ rest.length := by simp
        have later := @inductionHypothesis (rest.drop (announced c - 1)).length (by omega)
          (rest.drop (announced c - 1)) (des ++ [BitVec.ofNat 32 (readAs c rest)])
          (by rw [List.length_append, List.length_singleton]; omega) rfl
        rw [if_pos enough, if_pos enough]
        simp only [bind, Except.bind, later]
        cases readAll (rest.drop (announced c - 1)) with
        | error fault => rfl
        | ok out => simp [Except.map]
      · rw [if_neg enough, if_neg enough]
        rfl

/-- A run over a first character that did not fail. -/
theorem readAll_cons {c : BitVec 8} {rest : List (BitVec 8)} {out : List (BitVec 32)}
    (read : readAll (c :: rest) = .ok out) :
    announced c ≤ rest.length + 2 ∧ ∃ later, readAll (rest.drop (announced c - 1)) = .ok later ∧
      out = BitVec.ofNat 32 (readAs c rest) :: later := by
  rw [readAll] at read
  split at read
  · rename_i enough
    cases following : readAll (rest.drop (announced c - 1)) with
    | error fault =>
      rw [following] at read
      cases read
    | ok later =>
      rw [following] at read
      cases read
      exact ⟨enough, later, rfl, rfl⟩
  · cases read

theorem toNat_wide {n : Nat} (scalar : n ≤ 0x10ffff) : (BitVec.ofNat 32 n).toNat = n := by
  rw [BitVec.toNat_ofNat, Nat.mod_eq_of_lt (by omega)]

/-- The characters of a run take at most one byte more than there are: the zero byte may count for
the last one. -/
theorem readAll_sizes {unread : List (BitVec 8)} {out : List (BitVec 32)} (read : readAll unread = .ok out) :
    out.length ≤ unread.length ∧
      (out ≠ [] → (out.map fun wide => size wide.toNat).sum ≤ unread.length + 1) := by
  induction total : unread.length using Nat.strongRecOn generalizing unread out with
  | ind total inductionHypothesis =>
    cases unread with
    | nil =>
      rw [readAll] at read
      cases read
      exact ⟨Nat.zero_le _, fun some => absurd rfl some⟩
    | cons c rest =>
      obtain ⟨enough, later, following, rfl⟩ := readAll_cons read
      have shorter : (rest.drop (announced c - 1)).length = rest.length - (announced c - 1) := List.length_drop
      simp only [List.length_cons] at total
      obtain ⟨few, sizes⟩ := inductionHypothesis _ (by omega) following rfl
      have first := announced_pos c
      obtain ⟨bound, least⟩ := readAs_bounds c rest
      refine ⟨by simp only [List.length_cons]; omega, fun _ => ?_⟩
      rw [List.map_cons, List.sum_cons, toNat_wide (by omega)]
      -- The last character alone may count the zero byte.
      by_cases last : later = []
      · rw [last, List.map_nil, List.sum_nil]
        omega
      · have rest_ := sizes last
        have some := List.length_pos_iff.mpr last
        omega

/-! ## Encoded texts -/

def encodeAll (numbers : List Nat) : List (BitVec 8) := unicodeToUTF_8 (numbers.map (BitVec.ofNat 64))

def Scalars (numbers : List Nat) : Prop := ∀ n ∈ numbers, 0 < n ∧ n ≤ 0x10ffff

theorem encodeAll_cons {n : Nat} {c : BitVec 8} {tail : List (BitVec 8)} (first : Encoded n c tail)
    (numbers : List Nat) : encodeAll (n :: numbers) = c :: (tail ++ encodeAll numbers) := by
  rw [encodeAll, unicodeToUTF_8, List.map_cons, List.flatMap_cons, first.is]
  rfl

theorem Scalars.first {n : Nat} {numbers : List Nat} (scalars : Scalars (n :: numbers)) :
    ∃ c tail, Encoded n c tail :=
  encoded (scalars n List.mem_cons_self).1 (scalars n List.mem_cons_self).2

theorem Scalars.tail {n : Nat} {numbers : List Nat} (scalars : Scalars (n :: numbers)) : Scalars numbers :=
  fun m mem => scalars m (List.mem_cons_of_mem _ mem)

theorem encodeAll_sizes {numbers : List Nat} (scalars : Scalars numbers) :
    (encodeAll numbers).length = (numbers.map size).sum ∧ ∀ b ∈ encodeAll numbers, b ≠ 0 := by
  induction numbers with
  | nil => exact ⟨rfl, by simp [encodeAll, unicodeToUTF_8]⟩
  | cons n numbers inductionHypothesis =>
    obtain ⟨c, tail, first⟩ := scalars.first
    obtain ⟨length, noZero⟩ := inductionHypothesis scalars.tail
    rw [encodeAll_cons first, List.map_cons, List.sum_cons, ← first.length, ← length]
    refine ⟨by simp only [List.length_cons, List.length_append]; omega, ?_⟩
    intro b mem
    rw [← List.cons_append] at mem
    rcases List.mem_append.mp mem with here | later
    · exact first.noZero b here
    · exact noZero b later

/-- Numbers that are encoded and decoded alike are read back one by one. -/
theorem readAll_encodeAll {numbers : List Nat} (scalars : Scalars numbers)
    (back : ∀ n ∈ numbers, ReadsBack n) :
    readAll (encodeAll numbers) = .ok (numbers.map (BitVec.ofNat 32)) := by
  induction numbers with
  | nil =>
    show readAll [] = .ok []
    rw [readAll]
  | cons n numbers inductionHypothesis =>
    obtain ⟨c, tail, first⟩ := scalars.first
    obtain ⟨same, reads⟩ := first.back (back n List.mem_cons_self)
    have later := inductionHypothesis scalars.tail fun m mem => back m (List.mem_cons_of_mem _ mem)
    have length := first.length
    have behind : (tail ++ encodeAll numbers).drop (announced c - 1) = encodeAll numbers := by
      rw [same, ← length, Nat.add_sub_cancel, List.drop_left]
    have enough : announced c ≤ (tail ++ encodeAll numbers).length + 2 := by
      rw [List.length_append]
      omega
    rw [encodeAll_cons first, readAll, if_pos enough, behind, later, reads]
    rfl

/-- A text that is read back begins with numbers that are encoded and decoded alike: one whose mark
announces too many bytes leaves too few for the others. -/
theorem readsBack_of_readAll {numbers : List Nat} (scalars : Scalars numbers) {out : List (BitVec 32)}
    (read : readAll (encodeAll numbers) = .ok out) (same : numbers.map (BitVec.ofNat 32) <+: out) :
    ∀ n ∈ numbers, ReadsBack n := by
  induction numbers generalizing out with
  | nil => simp
  | cons n numbers inductionHypothesis =>
    obtain ⟨c, tail, first⟩ := scalars.first
    have length := first.length
    rw [encodeAll_cons first] at read
    obtain ⟨enough, later, following, rfl⟩ := readAll_cons read
    rw [List.map_cons, List.cons_prefix_cons] at same
    obtain ⟨sameFirst, sameLater⟩ := same
    have bound := (readAs_bounds c (tail ++ encodeAll numbers)).1
    have reads : readAs c (tail ++ encodeAll numbers) = n := by
      have numbers_ := congrArg BitVec.toNat sameFirst
      rw [toNat_wide (scalars n List.mem_cons_self).2, toNat_wide (by omega)] at numbers_
      exact numbers_.symm
    -- If it were lost, its first byte would have to announce two bytes more than it has.
    have back : ReadsBack n := by
      by_contra lost
      have tooMany : size n + 2 ≤ announced c := by
        rcases first.lost lost with tooMany | differs
        · exact tooMany
        · exact absurd reads (differs _)
      obtain ⟨more, shape⟩ := sameLater
      have behind : ((tail ++ encodeAll numbers).drop (announced c - 1)).length =
          tail.length + (encodeAll numbers).length - (announced c - 1) := by
        rw [List.length_drop, List.length_append]
      have taken := (encodeAll_sizes scalars.tail).1
      obtain ⟨few, sizes⟩ := readAll_sizes following
      rw [List.length_append] at enough
      -- The other numbers take all their bytes, and three of them are gone.
      have needed : (numbers.map size).sum ≤ (later.map fun wide => size wide.toNat).sum := by
        have each : numbers.map ((fun wide => size wide.toNat) ∘ BitVec.ofNat 32) = numbers.map size := by
          refine List.map_congr_left fun m mem => ?_
          rw [Function.comp_apply, toNat_wide (scalars.tail m mem).2]
        rw [← shape, List.map_append, List.sum_append, List.map_map, each]
        exact Nat.le_add_right _ _
      by_cases none : later = []
      · rw [none, List.map_nil, List.sum_nil] at needed
        omega
      · have most := sizes none
        have some := List.length_pos_iff.mpr none
        omega
    obtain ⟨announces, _⟩ := first.back back
    have behind : (tail ++ encodeAll numbers).drop (announced c - 1) = encodeAll numbers := by
      rw [announces, ← length, Nat.add_sub_cancel, List.drop_left]
    rw [behind] at following
    intro m mem
    rcases List.mem_cons.mp mem with rfl | mem
    · exact back
    · exact inductionHypothesis scalars.tail following sameLater m mem

/-! ## Strings -/

/-- A string of characters with as many bytes as their first ones announce; the last may lack one. -/
def Complete (bytes : List (BitVec 8)) : Prop :=
  ∃ characters last, bytes = List.flatten characters ++ last ∧
    (∀ character ∈ characters, ∃ c rest, character = c :: rest ∧ rest.length + 1 = announced c) ∧
    (last = [] ∨ ∃ c rest, last = c :: rest ∧ rest.length + 2 = announced c)

theorem readAll_of_complete {bytes : List (BitVec 8)} (complete : Complete bytes) :
    ∃ out, readAll bytes = .ok out := by
  obtain ⟨characters, last, rfl, whole, ends⟩ := complete
  induction characters with
  | nil =>
    rcases ends with rfl | ⟨c, rest, rfl, lacks⟩
    · exact ⟨[], by rw [List.flatten_nil, List.append_nil, readAll]⟩
    · have nothing : rest.drop (announced c - 1) = [] := List.drop_of_length_le (by omega)
      rw [List.flatten_nil, List.nil_append, readAll, if_pos (by omega), nothing, readAll]
      exact ⟨_, rfl⟩
  | cons character characters inductionHypothesis =>
    obtain ⟨c, rest, rfl, enough⟩ := whole character List.mem_cons_self
    obtain ⟨out, read⟩ := inductionHypothesis fun other mem => whole other (List.mem_cons_of_mem _ mem)
    have behind : (rest ++ (characters.flatten ++ last)).drop (announced c - 1) =
        characters.flatten ++ last := by
      rw [← enough, Nat.add_sub_cancel, List.drop_left]
    rw [List.flatten_cons, List.append_assoc, List.cons_append, readAll,
      if_pos (by rw [List.length_append]; omega), behind, read]
    exact ⟨_, rfl⟩

theorem complete_of_readAll {bytes : List (BitVec 8)} {out : List (BitVec 32)}
    (read : readAll bytes = .ok out) : Complete bytes := by
  induction length : bytes.length using Nat.strongRecOn generalizing bytes out with
  | ind total inductionHypothesis =>
    cases bytes with
    | nil => exact ⟨[], [], rfl, by simp, .inl rfl⟩
    | cons c rest =>
      obtain ⟨enough, later, following, _⟩ := readAll_cons read
      have first := announced_pos c
      -- Only the last character can lack a byte: the read of the zero byte ends the string.
      by_cases lacks : announced c = rest.length + 2
      · exact ⟨[], c :: rest, rfl, by simp, .inr ⟨c, rest, rfl, lacks.symm⟩⟩
      · have shorter : (rest.drop (announced c - 1)).length < total := by
          rw [← length, List.length_drop, List.length_cons]
          omega
        obtain ⟨characters, last, shape, whole, ends⟩ := inductionHypothesis _ shorter following rfl
        refine ⟨(c :: rest.take (announced c - 1)) :: characters, last, ?_, ?_, ends⟩
        · rw [List.flatten_cons, List.append_assoc, ← shape, List.cons_append, List.take_append_drop]
        · intro character mem
          rcases List.mem_cons.mp mem with rfl | mem
          · exact ⟨c, _, rfl, by rw [List.length_take]; omega⟩
          · exact whole character mem

theorem readAll_fault {bytes : List (BitVec 8)} {fault : Overread} (read : readAll bytes = .error fault) :
    fault = .src := by
  induction total : bytes.length using Nat.strongRecOn generalizing bytes with
  | ind total inductionHypothesis =>
    cases bytes with
    | nil =>
      rw [readAll] at read
      cases read
    | cons c rest =>
      rw [readAll] at read
      split at read
      · cases following : readAll (rest.drop (announced c - 1)) with
        | ok later =>
          rw [following] at read
          cases read
        | error other =>
          rw [following] at read
          cases read
          refine inductionHypothesis _ ?_ following rfl
          rw [← total, List.length_drop, List.length_cons]
          omega
      · cases read
        rfl

/-- `UTF2Uni` reads the bytes of `src` and copies the characters before the first zero; an empty
string has no element of `des` to copy from. -/
theorem utf2Uni_eq (src : List (BitVec 8)) (t : List (BitVec 32)) :
    utf2Uni (some src) t =
      (readAll (bytesOf src)).bind fun des =>
        if bytesOf src = [] then .error .des else .ok (0, des.takeWhile (· ≠ 0)) := by
  have run := @decodeLoop_eq ((bytesOf src).length * 2) (bytesOf src) [] (by simp; omega)
  simp only [utf2Uni, bind, Except.bind, run]
  cases read : readAll (bytesOf src) with
  | error fault => rfl
  | ok des =>
    have few := (readAll_sizes read).1
    simp only [Except.map, List.nil_append, wstringOf]
    by_cases empty : bytesOf src = []
    · rw [empty] at read few ⊢
      have none : des = [] := List.length_eq_zero_iff.mp (by simpa using few)
      rw [none]
      rfl
    · have some := List.length_pos_iff.mpr empty
      rw [if_neg empty, if_pos (.inl (by omega))]
      rfl

theorem bytesOf_terminated {bytes : List (BitVec 8)} (noZero : ∀ b ∈ bytes, b ≠ 0) :
    bytesOf (bytes ++ [0]) = bytes := by
  have all : ∀ b ∈ bytes, decide (b ≠ 0) = true := fun b mem => decide_eq_true (noZero b mem)
  rw [bytesOf, List.takeWhile_append_of_pos all]
  simp

theorem scalars_of_text {text : List Char} (noZero : ∀ c ∈ text, c ≠ '\x00') :
    Scalars (text.map Char.toNat) := by
  intro n mem
  obtain ⟨c, inText, rfl⟩ := List.mem_map.mp mem
  refine ⟨Nat.pos_of_ne_zero fun zero => noZero c inText (Char.toNat_inj.mp zero), ?_⟩
  rcases c.valid with low | ⟨_, high⟩
  · exact Nat.le_of_lt (Nat.lt_trans low (by omega))
  · exact Nat.le_of_lt_succ high

/-- The text comes back exactly where it is read character by character. -/
theorem reads_iff {numbers : List Nat} (scalars : Scalars numbers) (t : List (BitVec 32)) :
    utf2Uni (some (encodeAll numbers ++ [0])) t = .ok (0, numbers.map (BitVec.ofNat 32)) ↔
      numbers ≠ [] ∧ ∀ n ∈ numbers, ReadsBack n := by
  rw [utf2Uni_eq, bytesOf_terminated (encodeAll_sizes scalars).2]
  constructor
  · intro returns
    cases read : readAll (encodeAll numbers) with
    | error fault =>
      rw [read] at returns
      cases returns
    | ok des =>
      rw [read] at returns
      simp only [Except.bind] at returns
      split at returns
      · cases returns
      · rename_i some
        have same : des.takeWhile (· ≠ 0) = numbers.map (BitVec.ofNat 32) :=
          congrArg Prod.snd (Except.ok.inj returns)
        refine ⟨?_, readsBack_of_readAll scalars read (same ▸ List.takeWhile_prefix _)⟩
        rintro rfl
        exact some rfl
  · rintro ⟨some, back⟩
    -- No number is encoded as nothing, and none is read as zero.
    have bytes : encodeAll numbers ≠ [] := by
      obtain ⟨n, rest, rfl⟩ := List.exists_cons_of_ne_nil some
      obtain ⟨c, tail, first⟩ := scalars.first
      rw [encodeAll_cons first]
      exact List.cons_ne_nil _ _
    have all : ∀ wide ∈ numbers.map (BitVec.ofNat 32), decide (wide ≠ 0) = true := by
      intro wide mem
      obtain ⟨n, inNumbers, rfl⟩ := List.mem_map.mp mem
      refine decide_eq_true fun zero => ?_
      have number := congrArg BitVec.toNat zero
      rw [toNat_wide (scalars n inNumbers).2] at number
      exact absurd number (Nat.ne_of_gt (scalars n inNumbers).1)
    rw [readAll_encodeAll scalars back]
    simp only [Except.bind]
    rw [if_neg bytes, List.takeWhile_eq_self_iff.mpr all]

/-- A text comes back from `UTF2Uni` if and only if it is not empty and has only characters of one
byte, of three bytes, or of the planes 1 to 3; and `UTF2Uni` stays within a string if and only if
its characters have the bytes that are announced. -/
theorem utf2Uni_iff {text : List Char} (noZero : ∀ c ∈ text, c ≠ '\x00') (src : List (BitVec 8))
    (t : List (BitVec 32)) :
    (utf2Uni (some (unicodeToUTF_8 (text.map fun c => BitVec.ofNat 64 c.toNat) ++ [0])) t =
        .ok (0, text.map fun c => BitVec.ofNat 32 c.toNat) ↔
      text ≠ [] ∧ ∀ c ∈ text, ReadsBack c.toNat) ∧
    (utf2Uni (some src) t ≠ .error .src ↔ Complete (bytesOf src)) := by
  constructor
  · have law := reads_iff (scalars_of_text noZero) t
    simpa [encodeAll, List.map_map, Function.comp_def] using law
  · rw [utf2Uni_eq]
    cases read : readAll (bytesOf src) with
    | error fault =>
      refine iff_of_false (fun apart => apart ?_) ?_
      · rw [readAll_fault read]
        rfl
      · intro complete
        obtain ⟨out, read'⟩ := readAll_of_complete complete
        rw [read] at read'
        cases read'
    | ok des =>
      refine iff_of_true ?_ (complete_of_readAll read)
      simp only [Except.bind]
      split_ifs <;> simp

/-- A text of one, three and four bytes a character, and a string that lacks nothing. -/
theorem utf2Uni_mixed :
    utf2Uni (some (unicodeToUTF_8 (['a', '中', '😀'].map fun c => BitVec.ofNat 64 c.toNat) ++ [0])) [] =
        .ok (0, ['a', '中', '😀'].map fun c => BitVec.ofNat 32 c.toNat) ∧
      utf2Uni (some [0x61, 0xC3, 0xA9]) [] ≠ .error .src := by
  have law := @utf2Uni_iff ['a', '中', '😀'] (by simp) [0x61, 0xC3, 0xA9] []
  refine ⟨law.1.mpr ⟨by decide, ?_⟩, law.2.mpr ?_⟩
  · intro c mem
    simp only [List.mem_cons, List.not_mem_nil, or_false] at mem
    rcases mem with rfl | rfl | rfl <;> simp [ReadsBack]
  · refine ⟨[[0x61], [0xC3, 0xA9]], [], by decide, ?_, .inl rfl⟩
    intro character mem
    simp only [List.mem_cons, List.not_mem_nil, or_false] at mem
    rcases mem with rfl | rfl <;> exact ⟨_, _, rfl, by decide⟩

/-- `é` comes back as another character, a character of plane 4 as none, and a string that ends in
the first byte of three is read past its end. -/
theorem characters_lost :
    utf2Uni (some (unicodeToUTF_8 [BitVec.ofNat 64 'é'.toNat] ++ [0])) [] = .ok (0, [0x3A40]) ∧
      utf2Uni (some (unicodeToUTF_8 [BitVec.ofNat 64 0x40000] ++ [0])) [] = .ok (0, []) ∧
      utf2Uni (some [0xE4]) [] = .error .src ∧ utf2Uni (some []) [] = .error .des := by
  decide +kernel

end CallCenter.Verified.Utf8
