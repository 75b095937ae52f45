import Liquid.Decimal.Text
import Liquid.Table
import Liquid.Text.Blank

/-!
# Values

What a template computes with. The kinds are closed: nil, truth values,
integers, decimals, texts, arrays, dictionaries and ranges. A range holds its
two ends, both of them included, and no items; it may be longer than anything
that could be built.

Only nil and false are untrue. A dictionary shows as a pair of braces whatever
it holds; everything else shows its content.

## Main definitions

* `Value`: The values.
* `Value.isTruthy`: Whether a value counts as true.
* `Value.display`: The text that a value shows.
* `Value.number?`: The number that a value is or writes.
* `Value.integer?`: That number without its fraction.
-/

namespace Liquid

/-- What a template computes with. -/
inductive Value
  | nil
  | bool (flag : Bool)
  | integer (number : Int)
  | decimal (number : Decimal)
  | string (text : String)
  | array (items : List Value)
  | dictionary (entries : List (String × Value))
  /-- The integers from `start` to `stop`, both included. -/
  | range (start stop : Int)

namespace Value

/-- Whether the value counts as true in a condition. -/
def isTruthy : Value → Bool
  | nil => false
  | bool flag => flag
  | _ => true

/-- Whether the value is nil. -/
def isNil : Value → Bool
  | nil => true
  | _ => false

/-- Whether the value is an integer or a decimal. -/
def isNumeric : Value → Bool
  | integer _ => true
  | decimal _ => true
  | _ => false

mutual

/-- The text that a value shows. An integer is shown whole, even with more digits than are read. -/
def display : Value → String
  | nil => ""
  | bool flag => if flag then "true" else "false"
  | integer n => toString n
  | decimal d => d.text
  | string s => s
  | array items => "[" ++ ", ".intercalate (displays items) ++ "]"
  | dictionary _ => "\x7b\x7d"
  | range start stop => toString start ++ ".." ++ toString stop

/-- The texts that the items of an array show. -/
def displays : List Value → List String
  | [] => []
  | item :: items => item.display :: displays items

end

/-- The number that a value is, or that its text writes between blanks. -/
def number? : Value → Option Decimal
  | integer n => some (.ofInt n)
  | decimal d => some d
  | string s => Decimal.read? (Text.strip s.toList)
  | _ => none

/-- The number that a value is or writes, without its fraction. -/
def integer? (v : Value) : Option Int :=
  v.number?.bind Decimal.truncated?

end Value

end Liquid
