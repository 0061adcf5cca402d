import CallCenter.Foundation.Escapes
import CallCenter.Foundation.Outcomes
import CallCenter.Model.CodeHelper

/-!
# What `UrlDecode` accepts

`UrlDecode` goes through the pieces of its argument: a percent sign takes two characters with it.
`FromHex` gives letters up to Z a value, where hexadecimal digits end at F.
-/

namespace CallCenter.Verified.UrlEncoding

open CallCenter.Foundation.Escapes
open CallCenter.Foundation.Outcomes
open CallCenter.Model.CodeHelper

/-! ## Percent-encoded text -/

/-- The pieces of a text in which a percent sign takes two characters with it. -/
def urlPieces (str : List (BitVec 8)) : List (Piece (BitVec 8)) := pieces 0x25 2 str

/-- The value of a hexadecimal digit. -/
def hexValue (c : BitVec 8) : Option Nat :=
  if 0x30 ≤ c.toNat ∧ c.toNat ≤ 0x39 then some (c.toNat - 0x30)
  else if 0x41 ≤ c.toNat ∧ c.toNat ≤ 0x46 then some (c.toNat - 0x41 + 10)
  else if 0x61 ≤ c.toNat ∧ c.toNat ≤ 0x66 then some (c.toNat - 0x61 + 10)
  else none

def IsHexDigit (c : BitVec 8) : Prop := (hexValue c).isSome = true

/-- Behind every percent sign that starts an escape there are two hexadecimal digits. -/
def PercentEncoded (str : List (BitVec 8)) : Prop :=
  ∀ behind, .escape behind ∈ urlPieces str → behind.length = 2 ∧ ∀ c ∈ behind, IsHexDigit c

/-- What a piece stands for: a plus sign for a blank, an escape for the byte of its digits. -/
def meaning : Piece (BitVec 8) → BitVec 8
  | .plain c => if c = 0x2B then 0x20 else c
  | .escape behind => .ofNat 8 (behind.foldl (fun value digit => 16 * value + (hexValue digit).getD 0) 0)

def decoding (str : List (BitVec 8)) : List (BitVec 8) := (urlPieces str).map meaning

/-- Every byte as a percent sign and its two digits. -/
def percentEncode (bytes : List (BitVec 8)) : List (BitVec 8) :=
  bytes.flatMap fun (byte : BitVec 8) => [0x25, toHex (byte >>> 4), toHex (byte &&& 0x0F)]

/-- `UrlDecode` completes exactly on percent-encoded text, and then decodes it. -/
structure DecodesExactly (str : List (BitVec 8)) : Prop where
  completes : (urlDecode str).isSome = true ↔ PercentEncoded str
  returns : PercentEncoded str → urlDecode str = some (decoding str)

/-! ## The loop -/

/-- What the loop appends for a piece. -/
def decodePiece : Piece (BitVec 8) → Option (BitVec 8)
  | .plain c => some (if c = 0x2B then 0x20 else c)
  | .escape [first, second] => do
    let high ← fromHex first
    let low ← fromHex second
    some (high * 16 + low)
  | .escape _ => none

theorem urlPieces_escape (rest : List (BitVec 8)) :
    urlPieces (0x25 :: rest) = .escape (rest.take 2) :: urlPieces (rest.drop 2) := pieces_mark rest

theorem urlPieces_plain {c : BitVec 8} (notMark : c ≠ 0x25) (rest : List (BitVec 8)) :
    urlPieces (c :: rest) = .plain c :: urlPieces rest := pieces_plain notMark rest

theorem urlDecodeFrom_eq (strTemp str : List (BitVec 8)) :
    urlDecodeFrom strTemp str = ((urlPieces str).mapM decodePiece).map (strTemp ++ ·) := by
  fun_induction urlDecodeFrom strTemp str with
  | case1 strTemp => simp [urlPieces]
  | case2 strTemp rest inductionHypothesis =>
    rw [inductionHypothesis, urlPieces_plain (by decide), List.mapM_cons]
    cases (urlPieces rest).mapM decodePiece <;> simp [decodePiece]
  | case3 strTemp first second rest notPlus inductionHypothesis =>
    -- both digits are there; each of them may still be refused
    rw [urlPieces_escape, List.mapM_cons]
    simp only [List.take_succ_cons, List.take_zero, List.drop_succ_cons, List.drop_zero, decodePiece]
    cases fromHex first with
    | none => rfl
    | some high =>
      cases fromHex second with
      | none => rfl
      | some low =>
        simp only [Option.bind_eq_bind, Option.bind_some, inductionHypothesis]
        cases (urlPieces rest).mapM decodePiece <;> simp
  | case4 strTemp rest short notPlus =>
    -- the text ends within the escape
    rw [urlPieces_escape, List.mapM_cons]
    cases rest with
    | nil => rfl
    | cons first rest =>
      cases rest with
      | nil => rfl
      | cons second rest => exact absurd rfl (short first second rest)
  | case5 strTemp c rest notPlus notMark inductionHypothesis =>
    rw [inductionHypothesis, urlPieces_plain notMark, List.mapM_cons, decodePiece, if_neg notPlus]
    cases (urlPieces rest).mapM decodePiece <;> simp

theorem urlDecode_eq (str : List (BitVec 8)) : urlDecode str = (urlPieces str).mapM decodePiece := by
  rw [urlDecode, urlDecodeFrom_eq]
  exact Option.map_id_apply

/-! ## Digits -/

/-- A character `FromHex` gives a value. -/
def LetterOrDigit (c : BitVec 8) : Prop :=
  0x30 ≤ c.toNat ∧ c.toNat ≤ 0x39 ∨ 0x41 ≤ c.toNat ∧ c.toNat ≤ 0x5A ∨ 0x61 ≤ c.toNat ∧ c.toNat ≤ 0x7A

/-- A letter from G to Z, or from g to z. -/
def BeyondF (c : BitVec 8) : Prop :=
  0x47 ≤ c.toNat ∧ c.toNat ≤ 0x5A ∨ 0x67 ≤ c.toNat ∧ c.toNat ≤ 0x7A

theorem isHexDigit_iff {c : BitVec 8} : IsHexDigit c ↔ LetterOrDigit c ∧ ¬ BeyondF c := by
  rw [IsHexDigit, hexValue, LetterOrDigit, BeyondF]
  grind

theorem isSome_fromHex_iff {c : BitVec 8} : (fromHex c).isSome = true ↔ LetterOrDigit c := by
  rw [fromHex, LetterOrDigit]
  simp only [ge_iff_le, BitVec.le_def]
  grind

theorem hexValue_lt {c : BitVec 8} {value : Nat} (digit : hexValue c = some value) : value < 16 := by
  rw [hexValue] at digit
  grind

/-- On hexadecimal digits `FromHex` is right. -/
theorem fromHex_of_hexValue {c : BitVec 8} {value : Nat} (digit : hexValue c = some value) :
    fromHex c = some (.ofNat 8 value) := by
  rw [hexValue] at digit
  rw [fromHex]
  simp only [ge_iff_le, BitVec.le_def]
  split at digit
  · rename_i between
    cases digit
    rw [if_neg (by simp; omega), if_neg (by simp; omega), if_pos (by simpa using between)]
    congr 1
    bv_omega
  · split at digit
    · rename_i between
      cases digit
      rw [if_pos (by simp; omega)]
      congr 1
      bv_omega
    · split at digit
      · rename_i between
        cases digit
        rw [if_neg (by simp; omega), if_pos (by simp; omega)]
        congr 1
        bv_omega
      · cases digit

theorem hexValue_toHex {x : BitVec 8} (below : x.toNat < 16) : hexValue (toHex x) = some x.toNat := by
  rw [toHex]
  split
  · rename_i letter
    have shifted : (x + 55).toNat = x.toNat + 55 := by bv_omega
    rw [hexValue, shifted, if_neg (by bv_omega), if_pos (by bv_omega)]
    congr 1
    bv_omega
  · rename_i digit
    have shifted : (x + 48).toNat = x.toNat + 48 := by bv_omega
    rw [hexValue, shifted, if_pos (by bv_omega)]
    congr 1

/-! ## Escapes -/

/-- Two letters or digits are behind a percent sign. -/
def Accepted (behind : List (BitVec 8)) : Prop := behind.length = 2 ∧ ∀ c ∈ behind, LetterOrDigit c

theorem isSome_decodePiece_iff {behind : List (BitVec 8)} :
    (decodePiece (.escape behind)).isSome = true ↔ Accepted behind := by
  rw [Accepted]
  match behind with
  | [] | [_] | _ :: _ :: _ :: _ => simp [decodePiece]
  | [first, second] =>
    simp only [decodePiece, List.length_cons, List.length_nil, List.forall_mem_cons, ← isSome_fromHex_iff]
    cases fromHex first with
    | none => simp
    | some high => cases fromHex second <;> simp

theorem decodePiece_of_hex {behind : List (BitVec 8)} (two : behind.length = 2)
    (digits : ∀ c ∈ behind, IsHexDigit c) :
    decodePiece (.escape behind) = some (meaning (.escape behind)) := by
  obtain ⟨first, second, rfl⟩ := List.length_eq_two.mp two
  obtain ⟨high, isHigh⟩ := Option.isSome_iff_exists.mp (digits first (by simp))
  obtain ⟨low, isLow⟩ := Option.isSome_iff_exists.mp (digits second (by simp))
  have below := hexValue_lt isHigh
  have below' := hexValue_lt isLow
  simp only [decodePiece, fromHex_of_hexValue isHigh, fromHex_of_hexValue isLow, meaning, List.foldl_cons,
    List.foldl_nil, isHigh, isLow, Option.getD_some, Option.bind_eq_bind, Option.bind_some]
  congr 1
  bv_omega

theorem isSome_urlDecode_iff {str : List (BitVec 8)} :
    (urlDecode str).isSome = true ↔ ∀ behind, .escape behind ∈ urlPieces str → Accepted behind := by
  rw [urlDecode_eq, isSome_mapM_iff]
  constructor
  · intro each behind member
    exact isSome_decodePiece_iff.mp (each _ member)
  · intro each part member
    cases part with
    | plain c => rfl
    | escape behind => exact isSome_decodePiece_iff.mpr (each behind member)

theorem urlDecode_of_percentEncoded {str : List (BitVec 8)} (encoded : PercentEncoded str) :
    urlDecode str = some (decoding str) := by
  rw [urlDecode_eq]
  refine mapM_eq_map fun part member => ?_
  cases part with
  | plain c => rfl
  | escape behind =>
    obtain ⟨two, digits⟩ := encoded behind member
    exact decodePiece_of_hex two digits

theorem PercentEncoded.accepted {str : List (BitVec 8)} (encoded : PercentEncoded str)
    {behind : List (BitVec 8)} (member : .escape behind ∈ urlPieces str) : Accepted behind := by
  obtain ⟨two, digits⟩ := encoded behind member
  exact ⟨two, fun c here => (isHexDigit_iff.mp (digits c here)).1⟩

/-! ## Encoding -/

/-- The digits of a byte. -/
def digitsOf (byte : BitVec 8) : List (BitVec 8) := [toHex (byte >>> 4), toHex (byte &&& 0x0F)]

theorem urlPieces_percentEncode (bytes : List (BitVec 8)) :
    urlPieces (percentEncode bytes) = bytes.map fun byte => .escape (digitsOf byte) := by
  have whole : ∀ part ∈ bytes.map fun byte => Piece.escape (digitsOf byte), part.Whole 0x25 2 := by
    intro part member
    obtain ⟨byte, _, rfl⟩ := List.mem_map.mp member
    rfl
  have text := pieces_text whole
  rw [List.flatMap_map] at text
  exact text

theorem hexValue_digits (byte : BitVec 8) :
    hexValue (toHex (byte >>> 4)) = some (byte.toNat / 16) ∧
      hexValue (toHex (byte &&& 0x0F)) = some (byte.toNat % 16) := by
  have high : (byte >>> 4).toNat = byte.toNat / 16 := by
    rw [BitVec.toNat_ushiftRight, Nat.shiftRight_eq_div_pow]
  have low : (byte &&& 0x0F).toNat = byte.toNat % 16 := by
    rw [BitVec.toNat_and]
    exact Nat.and_two_pow_sub_one_eq_mod byte.toNat 4
  have bound := byte.isLt
  rw [hexValue_toHex (by omega), hexValue_toHex (by omega), high, low]
  exact ⟨rfl, rfl⟩

theorem percentEncoded_percentEncode (bytes : List (BitVec 8)) : PercentEncoded (percentEncode bytes) := by
  intro behind member
  rw [urlPieces_percentEncode, List.mem_map] at member
  obtain ⟨byte, _, same⟩ := member
  cases same
  obtain ⟨high, low⟩ := hexValue_digits byte
  refine ⟨rfl, fun c here => ?_⟩
  simp only [digitsOf, List.mem_cons, List.not_mem_nil, or_false] at here
  rw [IsHexDigit]
  obtain rfl | rfl := here
  · rw [high, Option.isSome_some]
  · rw [low, Option.isSome_some]

theorem decoding_percentEncode (bytes : List (BitVec 8)) : decoding (percentEncode bytes) = bytes := by
  rw [decoding, urlPieces_percentEncode, List.map_map]
  refine List.map_id'' (fun byte => ?_) bytes
  obtain ⟨high, low⟩ := hexValue_digits byte
  simp only [Function.comp_apply, meaning, digitsOf, List.foldl_cons, List.foldl_nil, high, low,
    Option.getD_some]
  rw [show 16 * (16 * 0 + byte.toNat / 16) + byte.toNat % 16 = byte.toNat by omega, BitVec.ofNat_toNat,
    BitVec.setWidth_eq]

/-! ## What is accepted -/

/-- No letter beyond F stands in an escape, or some escape is refused for another reason. -/
def NoneBeyondF (str : List (BitVec 8)) : Prop :=
  (∀ behind, .escape behind ∈ urlPieces str → ∀ c ∈ behind, ¬ BeyondF c) ∨
    ∃ behind, .escape behind ∈ urlPieces str ∧ ¬ Accepted behind

/-- `UrlDecode` decodes exactly the percent-encoded texts, but for letters beyond F; and whatever is
encoded byte by byte comes back. -/
theorem decodesExactly_iff (str bytes : List (BitVec 8)) :
    (DecodesExactly str ↔ NoneBeyondF str) ∧ urlDecode (percentEncode bytes) = some bytes := by
  refine ⟨⟨fun exactly => ?_, fun none => ?_⟩, ?_⟩
  -- what is accepted must be percent-encoded, so it has no letter beyond F
  · by_cases accepted : ∀ behind, .escape behind ∈ urlPieces str → Accepted behind
    · have encoded := exactly.completes.mp (isSome_urlDecode_iff.mpr accepted)
      exact .inl fun behind member c here => (isHexDigit_iff.mp ((encoded behind member).2 c here)).2
    · simp only [not_forall] at accepted
      obtain ⟨behind, member, refused⟩ := accepted
      exact .inr ⟨behind, member, refused⟩
  · refine ⟨⟨fun completes => ?_, fun encoded => ?_⟩, urlDecode_of_percentEncoded⟩
    -- a letter or digit that is no letter beyond F is a hexadecimal digit
    · have accepted := isSome_urlDecode_iff.mp completes
      obtain noLetter | ⟨behind, member, refused⟩ := none
      · intro behind member
        obtain ⟨two, known⟩ := accepted behind member
        exact ⟨two, fun c here => isHexDigit_iff.mpr ⟨known c here, noLetter behind member c here⟩⟩
      · exact absurd (accepted behind member) refused
    · exact isSome_urlDecode_iff.mpr fun behind member => encoded.accepted member
  · rw [urlDecode_of_percentEncoded (percentEncoded_percentEncode bytes), decoding_percentEncode]

/-- The text %GG. -/
theorem letters_beyond_f_accepted : ¬ DecodesExactly [0x25, 0x47, 0x47] := by
  intro exactly
  have encoded := exactly.completes.mp (by decide)
  have digit : (hexValue 0x47).isSome = true := (encoded [0x47, 0x47] (by decide)).2 0x47 (by decide)
  cases digit

end CallCenter.Verified.UrlEncoding
