import Std.Data.ExtTreeMap
import CallCenter.Foundation.Text
import CallCenter.Foundation.Decimal
import CallCenter.Model.Records

/-!
# Ini files

`IniFile` of `inifile.cpp`: the sections of an ini text with their items and comments.  `load`
reads the text line by line, `saveas` writes the sections back in the order of the map.
-/

namespace CallCenter.Model

open Std (ExtTreeMap)
open CallCenter.Foundation (Text atoi)
open CallCenter.Foundation.Text (cString trim trimright fgets)

/-- `INI_BUF_SIZE`. -/
def iniBufSize : Nat := 2048

def delim : Text := ['\n']

structure IniItem where
  key : Text
  value : Text
  comment : Text
  deriving DecidableEq, Repr

structure IniSection where
  name : Text := []
  comment : Text := []
  items : List IniItem := []
  deriving DecidableEq, Repr

abbrev IniSections := ExtTreeMap Text IniSection

/-- The comment flags the constructor of `IniFile` sets. -/
def defaultFlags : List Text := [['#'], [';']]

/-- `IniFile`, as its constructor leaves it. -/
structure IniFile where
  sections : IniSections := ∅
  flags : List Text := defaultFlags

/-! ## Lines -/

/-- The loop of `getline`: what it has in `buf` and the rest of the file. -/
def getlineFrom : Nat → Text → Text → Text × Text
  | 0, buf, file => (buf, file)
  | fuel + 1, buf, file =>
    let (p, rest, feof) := fgets (iniBufSize - 1) file
    -- `fgets` returns null when it stores nothing.
    if p = [] then (buf, rest)
    else if cString p ≠ [] ∧ (cString p).getLast? ≠ some '\n' ∧ !feof then
      -- The buffer grows, and the next chunk goes where the text of this one ends.
      getlineFrom fuel (buf ++ cString p) rest
    else (buf ++ cString p, rest)

/-- Every chunk takes at least one character, so `file.length + 1` rounds are enough. -/
def getline (file : Text) : Text × Text := getlineFrom (file.length + 1) [] file

/-- `isComment`: the line starts with one of the flags. -/
def isComment (flags : List Text) (line : Text) : Bool := flags.any fun flag => flag.isPrefixOf line

/-- `line.substr(0, line.find(flag))`. -/
def beforeFlag (flag : Text) : Text → Text
  | [] => []
  | c :: line => if flag.isPrefixOf (c :: line) then [] else c :: beforeFlag flag line

/-- The line without the comment behind it. -/
def beforeFlags (flags : List Text) (line : Text) : Text :=
  flags.foldl (fun line flag => beforeFlag flag line) line

/-- `parse`: the key and the value around the first `c`. -/
def parse (content : Text) (c : Char) : Option (Text × Text) :=
  if c ∈ content then
    some (trim (content.takeWhile (· ≠ c)), trim (content.dropWhile (· ≠ c)).tail)
  else none

/-! ## `load` -/

/-- What the loop of `load` carries along: the sections, the section pointer (none when it is null)
and the comment gathered for the next section or item. -/
structure Loading where
  sections : IniSections
  current : Option Text
  comment : Text

/-- A comment of several lines. -/
def addComment (comment line : Text) : Text := if comment ≠ [] then comment ++ (delim ++ line) else line

/-- `section->items.push_back(item)`. -/
def pushItem (sections : IniSections) (current : Option Text) (item : IniItem) : Except Fault IniSections :=
  match current with
  | none => .error .nullSection
  | some name => .ok (sections.modify name fun sect => { sect with items := sect.items ++ [item] })

/-- The text of a line and the comment behind it; a comment line is all text. -/
def splitComment (flags : List Text) (line : Text) : Text × Text :=
  let cut := if isComment flags line then line else beforeFlags flags line
  (trim cut, line.drop cut.length)

/-- A header, from behind its opening bracket, and the code `load` returns if it leaves there. -/
def loadHeader (state : Loading) (line : Text) : Option Int × Loading :=
  let state := { state with current := none }
  -- No bracket closes the name.
  if ']' ∉ line then (some (-1), state)
  else
    let s := line.takeWhile (· ≠ ']')
    if s = [] then (none, state)
    else if s ∈ state.sections then (some (-1), state)
    else
      (none,
        { sections := state.sections.insert s { name := s, comment := state.comment }
          current := some s
          comment := [] })

/-- A line that is neither a header nor a comment; one without `=` is dropped. -/
def loadItem (state : Loading) (line : Text) : Except Fault Loading :=
  match parse line '=' with
  | some (key, value) => do
    let sections ← pushItem state.sections state.current { key, value, comment := state.comment }
    pure { state with sections, comment := [] }
  | none => .ok { state with comment := [] }

/-- What `load` does with the text of a line. -/
def loadText (flags : List Text) (state : Loading) : Text → Except Fault (Option Int × Loading)
  | [] => .ok (none, state)
  | c :: line =>
    if c = '[' then .ok (loadHeader state line)
    else if isComment flags (c :: line) then
      .ok (none, { state with comment := addComment state.comment (c :: line) })
    else do
      let state ← loadItem state (c :: line)
      pure (none, state)

/-- The body of the loop of `load`. -/
def loadLine (flags : List Text) (state : Loading) (line : Text) : Except Fault (Option Int × Loading) :=
  let (text, behind) := splitComment flags (trim (trimright '\r' (trimright '\n' line)))
  -- A comment behind the text is appended without a delimiter.
  loadText flags { state with comment := state.comment ++ behind } text

/-- The loop of `load` over the lines of the file. -/
def loadFrom (flags : List Text) : Nat → Text → Loading → Except Fault (Int × IniSections)
  | 0, _, state => .ok (0, state.sections)
  | fuel + 1, file, state =>
    let (line, rest) := getline file
    if line = [] then .ok (0, state.sections)
    else do
      let (returned, state) ← loadLine flags state line
      match returned with
      | some code => pure (code, state.sections)
      | none => loadFrom flags fuel rest state

namespace IniFile

/-- `load` of a file with this text, none when it cannot be opened. -/
def load (self : IniFile) (file : Option Text) : Except Fault (Int × IniFile) :=
  -- `release` empties the map first.
  match file with
  | none => .ok (-1, { self with sections := ∅ })
  | some text => do
    -- The default section has no header.
    let start : Loading := { sections := (∅ : IniSections).insert [] {}, current := some [], comment := [] }
    let (code, sections) ← loadFrom self.flags (text.length + 1) text start
    pure (code, { self with sections })

end IniFile

/-! ## `saveas` -/

/-- A comment with the delimiter after it, if there is a comment. -/
def commentText (comment : Text) : Text := if comment ≠ [] then comment ++ delim else []

def itemText (item : IniItem) : Text := commentText item.comment ++ (item.key ++ ['='] ++ item.value ++ delim)

def sectionText (entry : Text × IniSection) : Text :=
  commentText entry.2.comment
    ++ (if entry.1 ≠ [] then ['['] ++ entry.1 ++ [']'] ++ delim else [])
    ++ entry.2.items.flatMap itemText

/-- `saveas`, to a file it can open: the return code and the text it writes. -/
def IniFile.saveas (self : IniFile) : Int × Text := (0, self.sections.toList.flatMap sectionText)

/-! ## Lookups and edits -/

namespace IniFile

/-- `RET_OK`. -/
def retOk : Int := 0

/-- `RET_ERR`. -/
def retErr : Int := -1

def getSection (self : IniFile) (sect : Text) : Option IniSection := self.sections[sect]?

/-- The search every lookup makes. -/
def findItem (key : Text) (sect : IniSection) : Option IniItem := sect.items.find? (·.key == key)

/-- `getValue`: the return code, and what `value` and `comment` hold after it. -/
def getValue (self : IniFile) (sect key value comment : Text) : Int × Text × Text :=
  match (self.getSection sect).bind (findItem key) with
  | some item => (retOk, item.value, item.comment)
  | none => (retErr, value, comment)

/-- `getStringValue`, with the `ret` it sets. -/
def getStringValue (self : IniFile) (sect key : Text) : Text × Int :=
  let (ret, value, _) := self.getValue sect key [] []
  (value, ret)

/-- `getIntValue`, with the `ret` it sets. -/
def getIntValue (self : IniFile) (sect key : Text) : Int × Int :=
  let (ret, value, _) := self.getValue sect key [] []
  (atoi (.ofList value), ret)

def hasKey (self : IniFile) (sect key : Text) : Bool :=
  match self.getSection sect with
  | some found => found.items.any (·.key == key)
  | none => false

/-- The loop of `setValue` and the item it appends when the key is not found. -/
def assignItem (key value comt : Text) : List IniItem → List IniItem
  | [] => [{ key, value, comment := comt }]
  | it :: items =>
    if it.key = key then { it with value, comment := comt } :: items
    else it :: assignItem key value comt items

/-- `setValue`: a section that is missing is made. -/
def setValue (self : IniFile) (sect key value comment : Text) : IniFile :=
  let comt := if comment ≠ [] then self.flags.head?.getD [] ++ comment else comment
  let found := (self.getSection sect).getD { name := sect }
  { self with
    sections := self.sections.insert sect { found with items := assignItem key value comt found.items } }

def deleteSection (self : IniFile) (sect : Text) : IniFile := { self with sections := self.sections.erase sect }

/-- `deleteKey` erases the first item with the key and leaves the loop. -/
def deleteKey (self : IniFile) (sect key : Text) : IniFile :=
  match self.getSection sect with
  | some found =>
    { self with
      sections := self.sections.insert sect { found with items := found.items.eraseP (·.key == key) } }
  | none => self

end IniFile

end CallCenter.Model
