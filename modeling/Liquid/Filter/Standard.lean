import Liquid.Filter.Date
import Liquid.Filter.Encoding
import Liquid.Filter.Number
import Liquid.Filter.Sequence
import Liquid.Filter.Text

/-!
# The Filters of the Language

All filters that a template may use without the host adding any. Besides those
of the other modules there is one for missing values: nil, false and whatever
is empty give way to another value.

## Main definitions

* `Filter.isBlank`: Whether a value is nil or empty.
* `Filter.fallback`: A value, or another if it is missing.
* `Filter.standard`: The filters.
-/

namespace Liquid

namespace Filter

/-- Whether a value is nil or empty. -/
def isBlank : Value → Bool
  | .nil => true
  | .string s => s.isEmpty
  | .array items => items.isEmpty
  | .dictionary entries => entries.isEmpty
  | _ => false

/-- The value, or another one if it is nil, empty, or false without leave to be. -/
def fallback (allowFalse : Bool) (other : Value) : Value → Value
  | .bool false => if allowFalse then .bool false else other
  | v => if isBlank v then other else v

/-- Gives another value for a missing one, by default the empty text. -/
def default : Filter :=
  ofFunction "default"
    { signature := { positional := [⟨"fallback", false⟩], options := [⟨"allow_false", false⟩] }
      body := fun v args =>
        .ok (fallback ((args.option? "allow_false").any Value.isTruthy)
          ((args.get? 0).getD (.string "")) v) }

/-- The filters of the language, with the format of dates that is used where none is given. -/
def standard (dateFormat : Option String) : List Filter :=
  numberFilters ++ textFilters ++ sequenceFilters ++ encodingFilters ++ [default, date dateFormat]

end Filter

end Liquid
