/-!
# Objects that may be uninitialised

A C++ object of a built-in type holds an indeterminate value until something is
assigned to it.  A `Cell` keeps the value a read would find together with whether
that value was ever assigned.
-/

namespace CallCenter.Foundation

/-- A built-in object: the value a read finds, and whether it was assigned. -/
structure Cell (α : Type) where
  value : α
  assigned : Bool
  deriving DecidableEq, Repr

namespace Cell

variable {α : Type}

/-- An object whose constructor left it alone. -/
def indeterminate (found : α) : Cell α := ⟨found, false⟩

/-- `object = value`. -/
def assign (value : α) : Cell α := ⟨value, true⟩

/-- A compound assignment such as `+=`: it reads the old value, so it initialises nothing. -/
def update (change : α → α) (cell : Cell α) : Cell α := { cell with value := change cell.value }

@[simp] theorem value_assign (value : α) : (assign value).value = value := rfl
@[simp] theorem assigned_assign (value : α) : (assign value).assigned = true := rfl
@[simp] theorem assigned_indeterminate (found : α) : (indeterminate found).assigned = false := rfl
@[simp] theorem assigned_update (change : α → α) (cell : Cell α) :
    (cell.update change).assigned = cell.assigned := rfl

end Cell

end CallCenter.Foundation
