import Liquid.Decimal.Double
import Liquid.Value

/-!
# Host Data

The data that a host hands to a template, and how they become values. Most
kinds have a value of their own. A binary double becomes the decimal of its
shortest text. A progression of integers becomes a range where it goes by
steps of one, and is written out otherwise. The keys of a mapping become texts;
keys that give the same text share an entry, and the last of them decides it.

Values go back the same way. Reading that again gives an equal value.

## Main definitions

* `Datum`: The data of a host.
* `Datum.Key`: The keys of a mapping.
* `Value.ofDatum`: A datum as a value.
* `Value.toDatum`: A value as a datum.
-/

namespace Liquid

/-- A key of a mapping. -/
inductive Datum.Key
  | text (text : String)
  | integer (number : Int)
  | bool (flag : Bool)
  | double (number : Double)
  | null
deriving DecidableEq

/-- The text of a key. -/
def Datum.Key.display : Datum.Key → String
  | text s => s
  | integer n => toString n
  | bool flag => if flag then "True" else "False"
  | double d => d.text
  | null => "None"

/-- The data of a host. -/
inductive Datum
  | null
  | bool (flag : Bool)
  | integer (number : Int)
  | decimal (number : Decimal)
  | double (number : Double)
  | text (text : String)
  /-- The integers from `start` in steps of `step`, up to `stop` without including it. -/
  | progression (start stop step : Int)
  | list (items : List Datum)
  | mapping (entries : List (Datum.Key × Datum))
  /-- What is a value already. -/
  | value (value : Value)

/-- The number of integers from `start` in steps of `step` before `stop`. -/
def progressionLength (start stop step : Int) : Nat :=
  if 0 < step then ((stop - start + step - 1) / step).toNat
  else if step < 0 then ((start - stop - step - 1) / -step).toNat
  else 0

namespace Value

/-- A progression as a value. -/
def ofProgression (start stop step : Int) : Value :=
  if step == 1 then range start (stop - 1)
  else
    let indices := List.range (progressionLength start stop step)
    array (indices.map fun (i : Nat) => integer (start + i * step))

mutual

/-- A datum as a value. -/
def ofDatum : Datum → Value
  | .null => nil
  | .bool flag => bool flag
  | .integer n => integer n
  | .decimal d => decimal d
  | .double d => decimal d.toDecimal
  | .text s => string s
  | .progression start stop step => ofProgression start stop step
  | .list items => array (ofData items)
  | .mapping entries => dictionary (Table.ofEntries (ofEntries entries))
  | .value v => v

/-- The items of a list as values. -/
def ofData : List Datum → List Value
  | [] => []
  | item :: items => ofDatum item :: ofData items

/-- The entries of a mapping as entries of a dictionary, before equal keys are brought together. -/
def ofEntries : List (Datum.Key × Datum) → List (String × Value)
  | [] => []
  | (key, item) :: entries => (key.display, ofDatum item) :: ofEntries entries

end

mutual

/-- A value as a datum. -/
def toDatum : Value → Datum
  | nil => .null
  | bool flag => .bool flag
  | integer n => .integer n
  | decimal d => .decimal d
  | string s => .text s
  | array items => .list (toData items)
  | dictionary entries => .mapping (toEntries entries)
  | range start stop => .progression start (stop + 1) 1

/-- The items of an array as data. -/
def toData : List Value → List Datum
  | [] => []
  | item :: items => item.toDatum :: toData items

/-- The entries of a dictionary as entries of a mapping. -/
def toEntries : List (String × Value) → List (Datum.Key × Datum)
  | [] => []
  | (key, item) :: entries => (.text key, item.toDatum) :: toEntries entries

end

end Value

end Liquid
