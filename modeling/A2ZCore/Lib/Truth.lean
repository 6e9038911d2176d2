import Mathlib

/-!
# Three-valued logic

The conditions of a SQL statement. A comparison with a null is unknown, the connectives are Kleene's,
and a `WHERE` selects the rows whose condition is true.

## Main definitions

* `Truth`, `Truth.or`, `Truth.and` — truth values, `none` being unknown
* `Truth.compare`, `Truth.isNull` — conditions on nullable columns
* `Truth.holds` — the condition of a `WHERE`
-/

namespace Relational

/-- True, false, or unknown. -/
abbrev Truth := Option Bool

namespace Truth

/-- `OR`. -/
def or : Truth → Truth → Truth
  | some true, _ => some true
  | _, some true => some true
  | some false, some false => some false
  | _, _ => none

/-- `AND`. -/
def and : Truth → Truth → Truth
  | some false, _ => some false
  | _, some false => some false
  | some true, some true => some true
  | _, _ => none

/-- A comparison of a nullable column with a value. -/
def compare {α β : Type} (f : α → β → Bool) (column : Option α) (value : β) : Truth :=
  column.map fun a => f a value

/-- `IS NULL`. -/
def isNull {α : Type} (column : Option α) : Truth := some column.isNone

/-- The row is selected. -/
def holds (t : Truth) : Bool := t == some true

@[simp] theorem holds_some (b : Bool) : holds (some b) = b := by cases b <;> rfl

@[simp] theorem holds_or (s t : Truth) : (s.or t).holds = (s.holds || t.holds) := by
  rcases s with _ | _ | _ <;> rcases t with _ | _ | _ <;> rfl

@[simp] theorem holds_and (s t : Truth) : (s.and t).holds = (s.holds && t.holds) := by
  rcases s with _ | _ | _ <;> rcases t with _ | _ | _ <;> rfl

@[simp] theorem holds_isNull {α : Type} (column : Option α) :
    (isNull column).holds = column.isNone := holds_some _

@[simp] theorem holds_compare_none {α β : Type} (f : α → β → Bool) (value : β) :
    (compare f none value).holds = false := rfl

@[simp] theorem holds_compare_some {α β : Type} (f : α → β → Bool) (a : α) (value : β) :
    (compare f (some a) value).holds = f a value := holds_some _

end Truth

end Relational
