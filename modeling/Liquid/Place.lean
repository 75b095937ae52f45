/-!
# Places

Where something stands in a source text: its line and column, both counted
from one. Columns count characters, and only the line feed ends a line.

## Main definitions

* `Place`: A line and a column.
* `Place.start`: The place of the first character.
* `Place.next`: The place behind a character.
* `Place.after`: The place behind a text.
* `located`: A message with the place that it is about.

## Theorems

* `Place.after_append`: The place behind two texts is that behind the second
  one, counted from behind the first.
-/

namespace Liquid

/-- A line and a column, both counted from one. -/
structure Place where
  line : Nat
  column : Nat
deriving DecidableEq

namespace Place

/-- The place of the first character. -/
def start : Place := ⟨1, 1⟩

/-- The place behind a character at this place. -/
def next (place : Place) (c : Char) : Place :=
  if c == '\n' then ⟨place.line + 1, 1⟩ else ⟨place.line, place.column + 1⟩

/-- The place behind a text that starts at this place. -/
def after (place : Place) (cs : List Char) : Place :=
  cs.foldl next place

theorem after_append (place : Place) (cs ds : List Char) :
    place.after (cs ++ ds) = (place.after cs).after ds := by
  simp [after]

end Place

/-- The message, with the place that it is about behind it if that is known. -/
def located (message : String) : Option Place → String
  | some place => message ++ " at " ++ toString place.line ++ ":" ++ toString place.column
  | none => message

end Liquid
