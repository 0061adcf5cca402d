import Mathlib.Data.List.Basic

/-!
# Encodings in `codeHelper`

`UnicodeToUTF_8`, `UTF2Uni` and `UrlDecode` of `codeHelper.cpp`.  A C string is the list of the bytes
that its pointer leads to, a `std::string` that of its bytes; a `long` has 64 bits, a `wchar_t` 32.
-/

namespace CallCenter.Model.CodeHelper

/-! ## `UnicodeToUTF_8` -/

/-- The bytes of one character; a number that is none is passed over. -/
def encode (c : BitVec 64) : List (BitVec 8) :=
  if c ≤ 0x0000007f then
    [(c &&& 0x0000007f).setWidth 8]
  else if c ≥ 0x00000080 ∧ c ≤ 0x000007ff then
    [(((c &&& 0x000007c0) >>> 6) ||| 0x000000e0).setWidth 8,
      ((c &&& 0x0000003f) ||| 0x00000080).setWidth 8]
  else if c ≥ 0x00000800 ∧ c ≤ 0x0000ffff then
    [(((c &&& 0x0000f000) >>> 12) ||| 0x000000e0).setWidth 8,
      (((c &&& 0x00000fc0) >>> 6) ||| 0x00000080).setWidth 8,
      ((c &&& 0x0000003f) ||| 0x00000080).setWidth 8]
  else if c ≥ 0x00010000 ∧ c ≤ 0x0010ffff then
    [(((c &&& 0x001c0000) >>> 16) ||| 0x000000f0).setWidth 8,
      (((c &&& 0x0003f000) >>> 12) ||| 0x00000080).setWidth 8,
      (((c &&& 0x00000fc0) >>> 6) ||| 0x00000080).setWidth 8,
      ((c &&& 0x0000003f) ||| 0x00000080).setWidth 8]
  else []

/-- What is written to `OutPutStr`; the length of it is returned. -/
def unicodeToUTF_8 (inPutStr : List (BitVec 64)) : List (BitVec 8) := inPutStr.flatMap encode

/-! ## `UTF2Uni` -/

/-- What `UTF2Uni` may read past: the zero byte at the end of `src`, or the last element of `des`. -/
inductive Overread where
  | src
  | des
  deriving DecidableEq, Repr

/-- The bytes before the zero byte. -/
def bytesOf (src : List (BitVec 8)) : List (BitVec 8) := src.takeWhile (· ≠ 0)

/-- The character at `i` behind a byte of `src`, where the bytes `rest` come before the zero byte. -/
def charAt (rest : List (BitVec 8)) (i : Nat) : Except Overread (BitVec 8) :=
  match rest[i]? with
  | some c => .ok c
  | none => if i = rest.length then .ok 0 else .error .src

/-- `src[s + i] & mask`, as an `int`. -/
def masked (c mask : BitVec 8) : BitVec 32 := (c &&& mask).setWidth 32

/-- One round of the loop, from the byte `c` on: the wide character, and how many of the bytes behind
`c` are passed over. -/
def decode (c : BitVec 8) (rest : List (BitVec 8)) : Except Overread (BitVec 32 × Nat) :=
  if c &&& 0x80 = 0 then .ok (c.setWidth 32, 0)
  else if c &&& 0xE0 = 0xC0 then do
    let mut wideChar := masked c 0x3F <<< 6
    wideChar := wideChar ||| masked (← charAt rest 0) 0x3F
    return (wideChar, 1)
  else if c &&& 0xF0 = 0xE0 then do
    let mut wideChar := masked c 0x1F <<< 12
    wideChar := wideChar ||| masked (← charAt rest 0) 0x3F <<< 6
    wideChar := wideChar ||| masked (← charAt rest 1) 0x3F
    return (wideChar, 2)
  else if c &&& 0xF8 = 0xF0 then do
    -- The second assignment replaces the first.
    let mut wideChar := masked c 0x0F <<< 18
    wideChar := masked (← charAt rest 0) 0x3F <<< 12
    wideChar := wideChar ||| masked (← charAt rest 1) 0x3F <<< 6
    wideChar := wideChar ||| masked (← charAt rest 2) 0x3F
    return (wideChar, 3)
  else do
    let mut wideChar := masked c 0x07 <<< 24
    wideChar := masked (← charAt rest 0) 0x3F <<< 18
    wideChar := masked (← charAt rest 1) 0x3F <<< 12
    wideChar := wideChar ||| masked (← charAt rest 2) 0x3F <<< 6
    wideChar := wideChar ||| masked (← charAt rest 3) 0x3F
    return (wideChar, 4)

/-- `while (s < size_s && d < size_d)`, over the bytes from `s` on; `des` is what is written so far. -/
def decodeLoop (sizeD : Nat) (unread : List (BitVec 8)) (des : List (BitVec 32)) :
    Except Overread (List (BitVec 32)) :=
  match unread with
  | [] => .ok des
  | c :: rest =>
    if des.length < sizeD then do
      let (wideChar, more) ← decode c rest
      decodeLoop sizeD (rest.drop more) (des ++ [wideChar])
    else .ok des
termination_by unread.length
decreasing_by
  simp only [List.length_drop, List.length_cons]
  omega

/-- `t = des`: the characters before the first zero of an array of `sizeD`, which is zero behind
`des`. -/
def wstringOf (sizeD : Nat) (des : List (BitVec 32)) : Except Overread (List (BitVec 32)) :=
  if des.length < sizeD ∨ 0 ∈ des then .ok (des.takeWhile (· ≠ 0)) else .error .des

/-- What `UTF2Uni` returns, and `t` behind it. -/
def utf2Uni (src : Option (List (BitVec 8))) (t : List (BitVec 32)) :
    Except Overread (Int × List (BitVec 32)) :=
  match src with
  | none => .ok (-1, t)
  | some src => do
    let bytes := bytesOf src
    let sizeD := bytes.length * 2
    let des ← decodeLoop sizeD bytes []
    let t ← wstringOf sizeD des
    return (0, t)

/-! ## `UrlDecode` -/

/-- The digit of a number below 16. -/
def toHex (x : BitVec 8) : BitVec 8 := if x > 9 then x + 55 else x + 48

/-- The value of a digit, none where the assertion fails. -/
def fromHex (x : BitVec 8) : Option (BitVec 8) :=
  -- 'A' to 'Z', 'a' to 'z', '0' to '9'
  if x ≥ 0x41 ∧ x ≤ 0x5A then some (x - 0x41 + 10)
  else if x ≥ 0x61 ∧ x ≤ 0x7A then some (x - 0x61 + 10)
  else if x ≥ 0x30 ∧ x ≤ 0x39 then some (x - 0x30)
  else none

/-- The loop of `UrlDecode` over the characters from `i` on; none where an assertion fails. -/
def urlDecodeFrom (strTemp : List (BitVec 8)) : List (BitVec 8) → Option (List (BitVec 8))
  | [] => some strTemp
  | c :: rest =>
    if c = 0x2B then urlDecodeFrom (strTemp ++ [0x20]) rest
    else if c = 0x25 then
      -- assert(i + 2 < length)
      match rest with
      | first :: second :: rest => do
        let high ← fromHex first
        let low ← fromHex second
        urlDecodeFrom (strTemp ++ [high * 16 + low]) rest
      | _ => none
    else urlDecodeFrom (strTemp ++ [c]) rest

def urlDecode (str : List (BitVec 8)) : Option (List (BitVec 8)) := urlDecodeFrom [] str

end CallCenter.Model.CodeHelper
