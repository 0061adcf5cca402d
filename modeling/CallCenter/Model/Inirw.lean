import CallCenter.Foundation.Numerals
import CallCenter.Model.Records

/-!
# Settings in a buffer

`inirw` of `inirw.cpp`: the text of the file is kept in one buffer.  `GetLine` isolates a line with
its content and remark, and `iniSetString` splices new text at the positions `GetLine` gave.
Pointers into the buffer are offsets.
-/

namespace CallCenter.Model

open CallCenter.Foundation (Text)
open CallCenter.Foundation.Text (isspace cString trim)
open CallCenter.Foundation.Numerals (strtol)

namespace Inirw

/-- `SIZE_LINE`. -/
def sizeLine : Nat := 1024

inductive ELineType where
  | lineIdle
  | lineError
  | lineEmpty
  | lineSection
  | lineValue
  deriving DecidableEq, Repr

/-- `StriCmp(first, second) == 0`. -/
def striCmp (first second : Text) : Bool := first.map Char.toLower == second.map Char.toLower

/-! ## `GetLine` -/

/-- The variables of the loop of `GetLine`. -/
structure LineScan where
  cntblank : Nat := 0
  cntCR : Nat := 0
  cntLF : Nat := 0
  isQuot1 : Bool := false
  isQuot2 : Bool := false
  cont1 : Option Nat := none
  rem1 : Option Nat := none
  deriving DecidableEq, Repr

/-- The `switch` on the character `c` at `p`. -/
def LineScan.visit (s : LineScan) (p : Nat) (c : Char) : LineScan :=
  if c = '\r' then { s with cntCR := s.cntCR + 1 }
  else if c = '\n' then { s with cntLF := s.cntLF + 1 }
  else if c = '\x27' then if s.isQuot2 then s else { s with isQuot1 := !s.isQuot1 }
  else if c = '\x22' then if s.isQuot1 then s else { s with isQuot2 := !s.isQuot2 }
  else if c = ';' ∨ c = '#' then
    -- The blanks before the sign belong to the remark; `cntblank` keeps counting them.
    if s.isQuot1 || s.isQuot2 then s
    else if s.rem1 = none then { s with rem1 := some (p - s.cntblank) }
    else s
  else if isspace c then { s with cntblank := s.cntblank + 1 }
  else { s with cntblank := 0, cont1 := if s.rem1 = none ∧ s.cont1 = none then some p else s.cont1 }

/-- The loop of `GetLine`, with the pointer where it stops. -/
def LineScan.loop (s : LineScan) (p : Nat) : Text → LineScan × Nat
  | [] => (s, p)
  | c :: rest =>
    if c = '\x00' then (s, p + 1)
    -- After two equal line ends one of them is left for the next line.
    else if s.cntCR = 2 ∨ s.cntLF = 2 then (s, p - 1)
    else if s.cntCR + s.cntLF ≥ 2 then (s, p)
    else if (s.cntCR ≠ 0 ∨ s.cntLF ≠ 0) ∧ c ≠ '\r' ∧ c ≠ '\n' then (s, p)
    else (s.visit p c).loop (p + 1) rest

/-- What `GetLine` returns, with its output pointers relative to `buf`. -/
structure LineRead where
  type : ELineType
  content : Text
  rem1 : Int
  rem2 : Int
  nextline : Nat
  deriving DecidableEq, Repr

/-- The type of a line with this content. -/
def lineType (content : Text) : ELineType :=
  if content.head? = some '[' ∧ content.getLast? = some ']' then .lineSection
  else if '=' ∈ cString content then .lineValue
  else .lineError

/-- The end of `GetLine`: the content is cut out of `buf` after the loop. -/
def LineScan.finish (s : LineScan) (p : Nat) (buf : Text) : Except Fault LineRead :=
  let nextline := p
  let rem2 : Int := p - s.cntCR - s.cntLF
  let rem1 : Int := match s.rem1 with
    | some rem1 => rem1
    | none => rem2
  let cont2 := rem1 - s.cntblank
  match s.cont1 with
  | none => .ok { type := .lineEmpty, content := [], rem1, rem2, nextline }
  | some cont1 =>
    let i := cont2 - cont1
    if i ≥ sizeLine then .ok { type := .lineError, content := [], rem1, rem2, nextline }
    else if i < 0 then .error .negativeLength
    else
      let content := (buf.drop cont1).take i.toNat
      .ok { type := lineType content, content, rem1, rem2, nextline }

def getLine (buf : Text) : Except Fault LineRead :=
  let (s, p) := LineScan.loop {} 0 buf
  s.finish p buf

/-- The name in the content of a header: without its brackets and the blanks inside them. -/
def sectionName (content : Text) : Text := trim (content.dropLast.drop 1)

/-- `GetKeyValue`. -/
def getKeyValue (content : Text) : Text × Text :=
  let content := cString content
  (trim (content.takeWhile (· ≠ '=')), trim ((content.dropWhile (· ≠ '=')).drop 1))

/-! ## The loops over lines -/

/-- `while (len > 0) { p = ..; GetLine(p, len, ..); .. }`, over the text from the offset `p` on.
`body` is the rest of the loop's body, with `break` and `return` as `done`. -/
def forLines {State : Type} (body : State → Nat → LineRead → Except Fault (ForInStep State)) :
    Nat → Nat → Text → State → Except Fault State
  | 0, _, _, state => .ok state
  | fuel + 1, p, rest, state =>
    if rest = [] then .ok state
    else do
      let line ← getLine rest
      match ← body state p line with
      | .done state => pure state
      | .yield state => forLines body fuel (p + line.nextline) (rest.drop line.nextline) state

/-- Every line takes at least one character, so the length of the text is fuel enough. -/
def scanLines {State : Type} (body : State → Nat → LineRead → Except Fault (ForInStep State)) (p : Nat)
    (rest : Text) (state : State) : Except Fault State :=
  forLines body rest.length p rest state

/-- The variables of `FindSection`; pointers that are not set yet are zero. -/
structure SectionSearch where
  found : Bool := false
  sect1 : Nat := 0
  sect2 : Int := 0
  cont1 : Nat := 0
  empty : Nat := 0
  nextline : Nat := 0
  deriving DecidableEq, Repr

def findSectionBody (sect : Option Text) (state : SectionSearch) (p : Nat) (line : LineRead) :
    Except Fault (ForInStep SectionSearch) :=
  let state := { state with nextline := p + line.nextline }
  match line.type with
  | .lineSection =>
    match sect with
    | none => .ok (.done state)
    | some sect =>
      if state.found then .ok (.done state)
      else
        let state :=
          if striCmp (sectionName line.content) sect then
            { state with found := true, sect1 := p, sect2 := p + line.rem1, cont1 := p + line.nextline }
          else state
        .ok (.yield { state with empty := p + line.nextline })
  | .lineValue =>
    let state :=
      if !state.found && sect.isNone then { state with found := true, sect1 := p, sect2 := p, cont1 := p }
      else state
    .ok (.yield { state with empty := p + line.nextline })
  | _ => .ok (.yield state)

/-- What `FindSection` finds. -/
structure FoundSection where
  sect1 : Nat
  sect2 : Int
  cont1 : Nat
  cont2 : Nat
  nextsect : Nat
  deriving DecidableEq, Repr

def findSection (gBuffer : Text) (sect : Option Text) : Except Fault (Option FoundSection) := do
  let state ← scanLines (findSectionBody sect) 0 gBuffer {}
  if !state.found then pure none
  else
    pure (some
      { sect1 := state.sect1
        sect2 := state.sect2
        cont1 := state.cont1
        cont2 := state.empty
        nextsect := state.nextline })

/-- The variables of the loop of `iniGetValue`; `value` is set where the loop finds the key. -/
structure ValueSearch where
  found : Bool := false
  value : Option Text := none
  deriving DecidableEq, Repr

def getValueBody (sect : Option Text) (key : Text) (state : ValueSearch) (_p : Nat) (line : LineRead) :
    Except Fault (ForInStep ValueSearch) :=
  match line.type with
  | .lineSection =>
    match sect with
    | none => .ok (.done state)
    | some sect =>
      if state.found then .ok (.done state)
      else .ok (.yield { state with found := striCmp (sectionName line.content) sect })
  | .lineValue =>
    let found := state.found || sect.isNone
    if !found then .ok (.yield state)
    else
      let (key0, value0) := getKeyValue line.content
      if striCmp key0 key then
        -- An empty value counts as none.
        .ok (.done { found, value := if value0 = [] then none else some value0 })
      else .ok (.yield { state with found })
  | _ => .ok (.yield state)

/-- The value `iniGetValue` finds in the buffer, before it is copied out. -/
def findValue (gBuffer : Text) (sect : Option Text) (key : Text) : Except Fault (Option Text) := do
  let state ← scanLines (getValueBody sect key) 0 gBuffer {}
  pure state.value

/-- The loop of `iniSetString` over the lines of a section, up to the line of the key. -/
def findKeyBody (key : Text) (state : Option (Nat × LineRead)) (p : Nat) (line : LineRead) :
    Except Fault (ForInStep (Option (Nat × LineRead))) :=
  match line.type with
  | .lineValue =>
    if striCmp (getKeyValue line.content).1 key then .ok (.done (some (p, line)))
    else .ok (.yield state)
  | _ => .ok (.yield state)

def findKey (gBuffer : Text) (sect : FoundSection) (key : Text) : Except Fault (Option (Nat × LineRead)) :=
  scanLines (findKeyBody key) sect.cont1 ((gBuffer.drop sect.cont1).take (sect.cont2 - sect.cont1)) none

end Inirw

/-- `inirw`.  The file holds what the buffer holds: every write is followed by a load. -/
structure Inirw where
  gBuffer : Option Text
  deriving DecidableEq, Repr

namespace Inirw

/-- `iniSetString`; `opens` tells whether `fopen` gives the file. -/
def iniSetString (self : Inirw) (sect : Option Text) (key : Text) (value : Option Text) (opens : Bool) :
    Except Fault (Int × Inirw) :=
  match self.gBuffer with
  | none => .ok (0, self)
  | some gBuffer => do
    let write (text : Text) : Int × Inirw := if opens then (1, { gBuffer := some text }) else (0, self)
    match ← findSection gBuffer sect with
    | none =>
      match value with
      | none => pure (0, self)
      | some value =>
        -- At the end of the file; `fprintf` prints a null section as "(null)".
        let header := "\r\n[".toList ++ sect.getD "(null)".toList ++ "]\r\n".toList
        pure (write (gBuffer ++ (header ++ (key ++ ['='] ++ value ++ ";\r\n".toList))))
    | some found =>
      match ← findKey gBuffer found key with
      | some (p, line) =>
        match value with
        -- The whole line is deleted, with its remark.
        | none => pure (write (gBuffer.take p ++ gBuffer.drop (p + line.nextline)))
        -- The remark at the end stays.
        | some value =>
          pure (write (gBuffer.take p ++ (key ++ ['='] ++ value) ++ gBuffer.drop (p + line.rem1).toNat))
      | none =>
        match value with
        | none => pure (0, self)
        | some value =>
          pure (write
            (gBuffer.take found.cont2 ++ (key ++ ['='] ++ value ++ ";\r\n".toList) ++ gBuffer.drop found.cont2))

/-- What is copied to `value`: `fmin(strlen, maxlen - 1)` characters. -/
def copied (maxlen : Nat) (text : Text) : Except Fault Text :=
  if maxlen = 0 then .error .negativeLength else .ok (text.take (maxlen - 1))

/-- `iniGetValue`, for a `value` that is not null and has room for `maxlen` characters: the return
code, what is copied to `value`, and the state, since a default is written back. -/
def iniGetValue (self : Inirw) (sect : Option Text) (key : Text) (maxlen : Nat) (defvalue : Option Text)
    (opens : Bool) : Except Fault (Int × Text × Inirw) :=
  match self.gBuffer with
  | none => .ok (0, [], self)
  | some gBuffer => do
    match ← findValue gBuffer sect key with
    | some value => do
      let value ← copied maxlen value
      pure (1, value, self)
    | none =>
      match defvalue with
      | none => pure (0, [], self)
      | some defvalue => do
        let value ← copied maxlen defvalue
        let (_, after) ← self.iniSetString sect key (some defvalue) opens
        pure (0, value, after)

/-! ## Integers -/

/-- The text `sprintf` prints an `int` as: `0x%x` and `0%o` print it as an unsigned number. -/
def valstr (value : BitVec 32) (base : Int) : Text :=
  if base = 16 then '0' :: 'x' :: Nat.toDigits 16 value.toNat
  else if base = 8 then '0' :: Nat.toDigits 8 value.toNat
  else (toString value.toInt).toList

def iniSetInt (self : Inirw) (sect : Option Text) (key : Text) (value : BitVec 32) (base : Int) (opens : Bool) :
    Except Fault (Int × Inirw) :=
  self.iniSetString sect key (some (valstr value base)) opens

/-- `iniGetInt`: the `long` that `strtol` returns is cast to `int`. -/
def iniGetInt (self : Inirw) (sect : Option Text) (key : Text) (defvalue : BitVec 32) (opens : Bool) :
    Except Fault (BitVec 32 × Inirw) := do
  let (found, valstr, self) ← self.iniGetValue sect key 64 none opens
  if found ≠ 0 then pure (BitVec.ofInt 32 (strtol 0 valstr), self)
  else do
    let (_, after) ← self.iniSetInt sect key defvalue 10 opens
    pure (defvalue, after)

end Inirw

end CallCenter.Model
