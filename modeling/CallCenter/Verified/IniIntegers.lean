import CallCenter.Verified.IniSetGet

/-!
# Integer settings

`iniSetInt` prints an `int` in one of three bases, two of them without its sign, and `iniGetInt`
takes the base from the text it reads.  The cast from `long` gives the sign back.
-/

namespace CallCenter.Verified.IniIntegers

open CallCenter.Foundation (Text)
open CallCenter.Foundation.Text CallCenter.Foundation.Numerals
open CallCenter.Model CallCenter.Model.Inirw
open CallCenter.Verified.IniLines CallCenter.Verified.IniSetGet

theorem toNat_le_longMax (value : BitVec 32) : (value.toNat : Int) ≤ longMax := by
  have less := value.isLt
  simp only [longMax]
  omega

/-- Read as a `long` and cast to `int`, a printed number is the number again. -/
theorem strtol_valstr (value : BitVec 32) (base : Int) :
    BitVec.ofInt 32 (strtol 0 (valstr value base)) = value := by
  rw [valstr]
  split
  · rw [strtol_hex (toNat_le_longMax value), BitVec.ofInt_natCast, BitVec.ofNat_toNat, BitVec.setWidth_eq]
  split
  · rw [strtol_octal (toNat_le_longMax value), BitVec.ofInt_natCast, BitVec.ofNat_toNat, BitVec.setWidth_eq]
  -- In base 10 the sign is printed, and the `long` is the number itself.
  · have least : longMin ≤ value.toInt := by
      have bound := value.le_toInt
      simp only [longMin]
      omega
    have most : value.toInt ≤ longMax := by
      have bound := @BitVec.toInt_lt 32 value
      simp only [longMax]
      omega
    rw [strtol_decimal least most, BitVec.ofInt_toInt]

/-- A text that `iniGetValue` finds is read as a number. -/
theorem iniGetInt_found {self after : Inirw} {sect : Option Text} {key text : Text} {opens : Bool}
    (returns : self.iniGetValue sect key 64 none opens = .ok (1, text, after)) (defvalue : BitVec 32) :
    self.iniGetInt sect key defvalue opens = .ok (BitVec.ofInt 32 (strtol 0 text), after) := by
  rw [iniGetInt, returns]
  simp only [bind, Except.bind, pure, Except.pure]
  exact if_pos (by omega)

/-- Where `iniGetValue` returns the text `iniSetInt` passed on, `iniGetInt` returns the number. -/
theorem iniGetInt_of_valstr {self after : Inirw} {sect : Option Text} {key : Text} {value : BitVec 32}
    {base : Int} {opens : Bool}
    (returns : self.iniGetValue sect key 64 none opens = .ok (1, valstr value base, after))
    (defvalue : BitVec 32) : self.iniGetInt sect key defvalue opens = .ok (value, after) := by
  rw [iniGetInt_found returns, strtol_valstr]

/-- The least `int` in base 16. -/
theorem iniGetInt_of_valstr_least :
    valstr (BitVec.ofInt 32 (-2147483648)) 16 = "0x80000000".toList ∧
      Inirw.iniGetInt ⟨some "[s]\r\nk=0x80000000;\r\n".toList⟩ (some ['s']) ['k'] 7 true =
        .ok (BitVec.ofInt 32 (-2147483648), ⟨some "[s]\r\nk=0x80000000;\r\n".toList⟩) := by
  have printed : valstr (BitVec.ofInt 32 (-2147483648)) 16 = "0x80000000".toList := by decide
  have returns :
      Inirw.iniGetValue ⟨some "[s]\r\nk=0x80000000;\r\n".toList⟩ (some ['s']) ['k'] 64 none true =
        .ok (1, valstr (BitVec.ofInt 32 (-2147483648)) 16, ⟨some "[s]\r\nk=0x80000000;\r\n".toList⟩) := by
    rw [printed]
    decide +kernel
  exact ⟨printed, iniGetInt_of_valstr returns 7⟩

/-! ## In the file -/

/-- A letter, a digit or a minus. -/
def Numeric (c : Char) : Prop := c.isAlphanum = true ∨ c = '-'

theorem Numeric.ne {c d : Char} (numeric : Numeric c) (other : d.isAlphanum = false ∧ d ≠ '-') :
    c ≠ d := by
  rintro rfl
  rcases numeric with alphanumeric | minus
  · rw [other.1] at alphanumeric
    cases alphanumeric
  · exact other.2 minus

theorem Numeric.visible {c : Char} (numeric : Numeric c) : isspace c = false := by
  simp only [isspace, Bool.or_eq_false_iff, beq_eq_false_iff_ne]
  refine ⟨⟨⟨⟨⟨?_, ?_⟩, ?_⟩, ?_⟩, ?_⟩, ?_⟩ <;> exact numeric.ne (by decide)

theorem Numeric.letter {c : Char} (numeric : Numeric c) : Letter c where
  ordinary := by
    simp only [isEnd, Bool.or_eq_false_iff, beq_eq_false_iff_ne]
    exact ⟨⟨numeric.ne (by decide), numeric.ne (by decide)⟩, numeric.ne (by decide)⟩
  noSign := by
    simp only [isSign, Bool.or_eq_false_iff, beq_eq_false_iff_ne]
    exact ⟨numeric.ne (by decide), numeric.ne (by decide)⟩
  noQuote := ⟨numeric.ne (by decide), numeric.ne (by decide)⟩

theorem word_of_numeric {word : Text} (nonempty : word ≠ []) (numeric : ∀ c ∈ word, Numeric c) :
    Word word where
  nonempty := nonempty
  trimmed :=
    { head := fun c first => (numeric c (List.mem_of_mem_head? first)).visible
      last := fun c last => (numeric c (List.mem_of_getLast? last)).visible }
  letters := fun c mem => (numeric c mem).letter
  noEquals := fun mem => (numeric _ mem).ne (by decide) rfl
  noBrackets :=
    ⟨fun mem => (numeric _ mem).ne (by decide) rfl, fun mem => (numeric _ mem).ne (by decide) rfl⟩

theorem numeric_toDigits {base n : Nat} (large : 1 < base) (small : base ≤ 16) :
    ∀ c ∈ Nat.toDigits base n, Numeric c := by
  intro c mem
  obtain ⟨digit, less, rfl⟩ := mem_toDigits large mem
  have all : ∀ m : Fin 16, (Nat.digitChar m).isAlphanum = true := by decide
  exact .inl (all ⟨digit, by omega⟩)

theorem word_valstr (value : BitVec 32) (base : Int) : Word (valstr value base) := by
  have digits := fun base n => @numeric_toDigits base n
  rw [valstr]
  split
  · refine word_of_numeric (by simp) ?_
    intro c mem
    simp only [List.mem_cons] at mem
    rcases mem with rfl | rfl | printed
    · exact .inl (by decide)
    · exact .inl (by decide)
    · exact digits 16 _ (by omega) (by omega) c printed
  split
  · refine word_of_numeric (by simp) ?_
    intro c mem
    rcases List.mem_cons.mp mem with rfl | printed
    · exact .inl (by decide)
    · exact digits 8 _ (by omega) (by omega) c printed
  · rw [Int.toString_eq_repr, Int.repr_eq_if]
    split
    · rw [Nat.toList_repr]
      exact word_of_numeric Nat.toDigits_ne_nil (digits 10 _ (by omega) (by omega))
    · rw [String.toList_append, Nat.toList_repr]
      refine word_of_numeric (by simp) ?_
      intro c mem
      rcases List.mem_append.mp mem with sign | printed
      · exact .inr (List.mem_singleton.mp sign)
      · exact digits 10 _ (by omega) (by omega) c printed

theorem length_valstr (value : BitVec 32) (base : Int) : (valstr value base).length ≤ 13 := by
  have digits : ∀ {base n : Nat}, 8 ≤ base → n ≤ 2 ^ 32 → (Nat.toDigits base n).length ≤ 11 := by
    intro base n large less
    rw [Nat.length_toDigits_le_iff (by omega) (by omega)]
    -- Eleven octal digits hold 33 bits.
    calc n ≤ 2 ^ 32 := less
      _ < 8 ^ 11 := by omega
      _ ≤ base ^ 11 := Nat.pow_le_pow_left large 11
  have less := value.isLt
  rw [valstr]
  split
  · have short := @digits 16 value.toNat (by omega) (by omega)
    simp only [List.length_cons]
    omega
  split
  · have short := @digits 8 value.toNat (by omega) (by omega)
    simp only [List.length_cons]
    omega
  · have least := value.le_toInt
    have most := @BitVec.toInt_lt 32 value
    rw [Int.toString_eq_repr, Int.repr_eq_if]
    split
    · have short := @digits 10 value.toInt.toNat (by omega) (by omega)
      rw [Nat.toList_repr]
      omega
    · have short := @digits 10 (-value.toInt).toNat (by omega) (by omega)
      rw [String.toList_append, Nat.toList_repr, List.length_append]
      have sign : "-".toList.length = 1 := rfl
      omega

/-- A number that was set in the file is read back, when the splice leaves the lines next to it as
they were. -/
theorem iniGetInt_iniSetInt {gBuffer sect key : Text} {value : BitVec 32} {base : Int} (isSect : Word sect)
    (isKey : Word key) (sectFits : sect.length + 2 < sizeLine) (keyFits : key.length + 14 < sizeLine)
    {opens : Bool} {after : Inirw}
    (returns : Inirw.iniSetInt ⟨some gBuffer⟩ (some sect) key value base opens = .ok (1, after))
    (clean : splicesCleanly gBuffer sect key (valstr value base) = true) (defvalue : BitVec 32)
    (opensAgain : Bool) : after.iniGetInt (some sect) key defvalue opensAgain = .ok (value, after) := by
  have short := length_valstr value base
  have fits : (setting key (valstr value base)).length < sizeLine := by
    simp only [setting, List.length_append, List.length_singleton]
    omega
  obtain ⟨text, rfl, found, _⟩ :=
    sees_iniSetString isSect isKey (word_valstr value base) sectFits fits returns clean
  -- `valstr` of `iniGetInt` has room for every number.
  have whole : (valstr value base).take (64 - 1) = valstr value base := List.take_of_length_le (by omega)
  have reads : Inirw.iniGetValue ⟨some text⟩ (some sect) key 64 none opensAgain =
      .ok (1, valstr value base, ⟨some text⟩) := by
    simp only [Inirw.iniGetValue, found, bind, Except.bind, Inirw.copied, whole]
    rfl
  rw [iniGetInt_found reads, strtol_valstr]

end CallCenter.Verified.IniIntegers
