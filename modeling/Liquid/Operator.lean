import Liquid.Text.Search
import Liquid.Value.Order

/-!
# Operators

The binary operators of the language, by name. They take values that are
computed already and never fail. Equality holds between any two values, but
only numbers among themselves and texts among themselves are greater or
smaller; any other pair is neither. Containment goes by the text that a value
shows, so a list of numbers contains the text of one of them.

## Main definitions

* `Operator`: An operator.
* `Operator.ofNamed`: Operators given under names.
* `Operator.ordering?`: How two values compare that can be compared.
* `Operator.contains`: Whether one value contains another.
* `Operator.standard`: The operators of the language.
-/

namespace Liquid

/-- A binary operator and its name. -/
structure Operator where
  name : String
  apply : Value → Value → Value

namespace Operator

/-- Operators given under names: an operator goes by its own name, a function by the one given. -/
def ofNamed (entries : Table (Operator ⊕ (Value → Value → Value))) : List Operator :=
  Table.resolved mk entries

/-- How two numbers or two texts compare. -/
def ordering? (lhs rhs : Value) : Option Ordering :=
  match lhs, rhs with
  | .string _, .string _ => some (lhs.compare rhs)
  | _, _ => if lhs.isNumeric && rhs.isNumeric then some (lhs.compare rhs) else none

/-- An operator that holds of the values that compare as required. -/
def comparing (name : String) (accepts : Ordering → Bool) : Operator :=
  ⟨name, fun lhs rhs => .bool ((ordering? lhs rhs).any accepts)⟩

/-- The text by which a value is found inside another, if it is a text or a number. -/
def searchText? : Value → Option String
  | .string s => some s
  | .integer n => some (Value.integer n).display
  | .decimal d => some (Value.decimal d).display
  | _ => none

/-- Whether a text has the other as a part, or a list has it as an item. -/
def contains (lhs rhs : Value) : Bool :=
  match searchText? rhs with
  | none => false
  | some needle =>
    match lhs with
    | .string text => Text.occurs needle.toList text.toList
    | .array items => items.any fun item => searchText? item == some needle
    | _ => false

/-- The operators of the language. -/
def standard : List Operator :=
  [⟨"==", fun lhs rhs => .bool (lhs.equals rhs)⟩,
    ⟨"!=", fun lhs rhs => .bool (!lhs.equals rhs)⟩,
    ⟨"<>", fun lhs rhs => .bool (!lhs.equals rhs)⟩,
    comparing "<" Ordering.isLT,
    comparing ">" Ordering.isGT,
    comparing "<=" Ordering.isLE,
    comparing ">=" Ordering.isGE,
    ⟨"contains", fun lhs rhs => .bool (contains lhs rhs)⟩,
    ⟨"and", fun lhs rhs => .bool (lhs.isTruthy && rhs.isTruthy)⟩,
    ⟨"or", fun lhs rhs => .bool (lhs.isTruthy || rhs.isTruthy)⟩]

end Operator

end Liquid
