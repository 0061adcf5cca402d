import CallCenter.Model.Records

/-!
# JSON values and the outside libraries

The part of `Json::Value` (jsoncpp 0.10.6) the program uses, with the preconditions of its
accessors: outside them jsoncpp raises `Json::LogicError`.  The parser, the writer and
sqlite are not part of the program's source; they enter as the fields of `Libraries`.
-/

namespace CallCenter.Model

/-- A `Json::Value`.  The members of an object are in key order.  Of a double only what the
accessors show is kept: the int it truncates to, whether it is that int, and its text. -/
inductive Json where
  | null
  | bool (value : Bool)
  | int (value : Int)
  | real (whole : Int) (integral : Bool) (text : String)
  | string (value : String)
  | array (elements : List Json)
  | object (members : List (String × Json))

namespace Json

/-- `minInt ≤ value ≤ maxInt`. -/
def inIntRange (value : Int) : Bool := -2147483648 ≤ value && value ≤ 2147483647

/-- `InRange(real, minInt, maxInt)`: past a bound by less than one is outside, too. -/
def realInIntRange (whole : Int) (integral : Bool) : Bool :=
  inIntRange whole && (integral || whole != -2147483648 && whole != 2147483647)

/-- `value[key]`: only an object or null has members; one that is missing reads as null. -/
def member (key : String) : Json → Except Fault Json
  | null => .ok null
  | object members => .ok ((members.lookup key).getD null)
  | _ => .error .logicError

def asInt : Json → Except Fault Int
  | null => .ok 0
  | bool value => .ok (if value then 1 else 0)
  | int value => if inIntRange value then .ok value else .error .logicError
  | real whole integral _ => if realInIntRange whole integral then .ok whole else .error .logicError
  | _ => .error .logicError

def asString : Json → Except Fault String
  | null => .ok ""
  | bool value => .ok (if value then "true" else "false")
  | int value => .ok (toString value)
  | real _ _ text => .ok text
  | string value => .ok value
  | _ => .error .logicError

def asBool : Json → Except Fault Bool
  | null => .ok false
  | bool value => .ok value
  | int value => .ok (value != 0)
  | real whole integral _ => .ok (whole != 0 || !integral)
  | _ => .error .logicError

def isInt : Json → Bool
  | int value => inIntRange value
  | real whole integral _ => inIntRange whole && integral
  | _ => false

/-- The text of a value that passes `!isNull() && isString()`. -/
def text? : Json → Option String
  | string value => some value
  | _ => none

/-- What iterating from `begin()` to `end()` visits: nothing on a scalar. -/
def children : Json → List Json
  | array elements => elements
  | object members => members.map Prod.snd
  | _ => []

/-- An object's members with one assigned, in key order. -/
def assignMember (key : String) (value : Json) : List (String × Json) → List (String × Json)
  | [] => [(key, value)]
  | (name, old) :: rest =>
    if key = name then (key, value) :: rest
    else if key < name then (key, value) :: (name, old) :: rest
    else (name, old) :: assignMember key value rest

/-- The object made by assigning members to a null value one after another. -/
def ofMembers (members : List (String × Json)) : Json :=
  .object (members.foldl (fun built entry => assignMember entry.1 entry.2 built) [])

end Json

/-- The check of a field the handlers make, together with the text it yields. -/
def stringField (name : String) (jsonparam : Json) : Except Fault (Option String) :=
  (jsonparam.member name).map Json.text?

/-- The same for an int. -/
def intField (name : String) (jsonparam : Json) : Except Fault (Option Int) := do
  let value ← jsonparam.member name
  if value.isInt then
    let number ← value.asInt
    pure (some number)
  else
    pure none

/-- The rows of table `dnuser` in `data.db` (`strdn`, `strserize`); `none` before it is created. -/
abbrev DnuserTable := Option (List (String × String))

/-- The libraries the program links against: `Json::Reader::parse`, `Json::Value::toStyledString`
and `sqlite3_exec`, which answers `none` where it returns an error code and changes nothing.  On
a text nested too deep the reader throws; such a text is not empty, and is not parsed. -/
structure Libraries where
  parse : String → Option Json
  toStyledString : Json → String
  sqlite3Exec : String → DnuserTable → Option DnuserTable
  exceedsStackLimit : String → Bool := fun _ => false
  flat_of_parse : ∀ document root, parse document = some root → exceedsStackLimit document = false := by
    intros; rfl
  flat_empty : exceedsStackLimit "" = false := by rfl

/-- `reader.parse(document, root)`. -/
def Libraries.read (lib : Libraries) (document : String) : Except Fault (Option Json) :=
  if lib.exceedsStackLimit document then .error .stackLimit else .ok (lib.parse document)

theorem Libraries.read_of_parse {lib : Libraries} {document : String} {root : Json}
    (parsed : lib.parse document = some root) : lib.read document = .ok (some root) := by
  rw [read, lib.flat_of_parse document root parsed, parsed]
  rfl

theorem Libraries.read_empty {lib : Libraries} (empty : lib.parse "" = none) : lib.read "" = .ok none := by
  rw [read, lib.flat_empty, empty]
  rfl

/-- The text `%s` prints for `text.c_str()`: a zero character ends it. -/
def cStr (text : String) : String := String.ofList (text.toList.takeWhile (· != '\x00'))

end CallCenter.Model
