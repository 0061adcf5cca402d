import CallCenter.Foundation.Outcomes
import CallCenter.Model.Json

/-!
# Accessors of JSON values

On which values the accessors of jsoncpp raise nothing, and what they read there.
-/

namespace CallCenter.Model.Json

/-- An object or null: what `operator[]` takes a key on. -/
def hasMembers : Json → Bool
  | null => true
  | object _ => true
  | _ => false

/-- The member `operator[]` reads there. -/
def field (key : String) : Json → Json
  | object members => (members.lookup key).getD null
  | _ => null

/-- `isConvertibleTo(intValue)`. -/
def convertsToInt : Json → Bool
  | null => true
  | bool _ => true
  | int value => inIntRange value
  | real whole integral _ => realInIntRange whole integral
  | _ => false

/-- `isConvertibleTo(stringValue)`. -/
def convertsToString : Json → Bool
  | array _ => false
  | object _ => false
  | _ => true

/-- The int of a value that passes `isInt()`. -/
def int? : Json → Option Int
  | int value => if inIntRange value then some value else none
  | real whole integral _ => if inIntRange whole && integral then some whole else none
  | _ => none

theorem member_eq (key : String) (value : Json) :
    value.member key = if value.hasMembers then .ok (value.field key) else .error .logicError := by
  cases value <;> rfl

theorem isOk_asInt (value : Json) : value.asInt.isOk = value.convertsToInt := by
  cases value with
  | int value =>
    simp only [asInt, convertsToInt]
    split <;> simp [*]
  | real whole integral text =>
    simp only [asInt, convertsToInt]
    split <;> simp [*]
  | _ => rfl

theorem isOk_asString (value : Json) : value.asString.isOk = value.convertsToString := by
  cases value <;> rfl

end CallCenter.Model.Json

namespace CallCenter.Verified

open CallCenter.Foundation CallCenter.Foundation.Outcomes CallCenter.Model

theorem stringField_eq (name : String) (value : Json) : stringField name value =
    if value.hasMembers then .ok (value.field name).text? else .error .logicError := by
  rw [stringField, Json.member_eq]
  split <;> rfl

/-- An int that passes `isInt` converts. -/
theorem intField_eq (name : String) (value : Json) : intField name value =
    if value.hasMembers then .ok (value.field name).int? else .error .logicError := by
  rw [intField, Json.member_eq]
  cases value.hasMembers with
  | false => rfl
  | true =>
    show (if (value.field name).isInt then _ else _) = _
    cases value.field name with
    | int number =>
      cases inRange : Json.inIntRange number <;> simp [Json.isInt, Json.int?, Json.asInt, inRange]; rfl
    | real whole integral text =>
      cases inRange : Json.inIntRange whole <;> cases integral <;>
        simp [Json.isInt, Json.int?, Json.asInt, Json.realInIntRange, inRange] <;> rfl
    | _ => rfl

end CallCenter.Verified
