import Liquid.Text.Quoted
import Liquid.Value.Datum

/-!
# Written Data

A datum as its host writes it, which is how a setting of the wrong kind is
shown in a message. A text stands between quotes inside a list or a mapping,
and without them on its own.

## Main definitions

* `Datum.written`: A datum inside a list or a mapping.
* `Datum.shown`: A datum on its own.
-/

namespace Liquid

/-- The text of a key inside a mapping. -/
def Datum.Key.written : Datum.Key → String
  | text s => Text.quoted s
  | key => key.display

mutual

/-- The text of a datum inside a list or a mapping. -/
def Datum.written : Datum → String
  | .null => "None"
  | .bool flag => if flag then "True" else "False"
  | .integer n => toString n
  | .decimal d => d.text
  | .double d => d.text
  | .text s => Text.quoted s
  | .progression start stop step => (Value.ofProgression start stop step).display
  | .list items => "[" ++ ", ".intercalate (writtenItems items) ++ "]"
  | .mapping entries => "\x7b" ++ ", ".intercalate (writtenEntries entries) ++ "\x7d"
  | .value v => v.display

/-- The texts of the items of a list. -/
def writtenItems : List Datum → List String
  | [] => []
  | item :: items => item.written :: writtenItems items

/-- The texts of the entries of a mapping. -/
def writtenEntries : List (Datum.Key × Datum) → List String
  | [] => []
  | (key, item) :: entries => (key.written ++ ": " ++ item.written) :: writtenEntries entries

end

/-- The text of a datum on its own. -/
def Datum.shown : Datum → String
  | .text s => s
  | datum => datum.written

end Liquid
