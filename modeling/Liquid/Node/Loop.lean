import Liquid.Expr.Eval
import Liquid.Node
import Liquid.Outcome

/-!
# Loops

What both kinds of loop have in common. A selection says which items a loop
visits. Its parts are evaluated in a fixed order: the collection, the offset,
the limit. The offset drops items, the limit keeps some of those left, and the
order is turned round last, so a limit counts from the front in either case.

While an item is visited, a dictionary of the loop tells where it stands among
the others. The dictionaries of nested loops are linked by the one that is
found under the same name when the loop starts.

## Main definitions

* `Selection.behind`, `Selection.upTo`: The items between an offset and a limit.
* `Selection.items`: The items that a loop visits.
* `Position`: The place of an item among those visited.
* `Position.forloop`, `Position.tablerowloop`: The dictionaries.
* `Render.each`: A step for each item, until one of them leaves.
-/

namespace Liquid

namespace Selection

/-- The items behind an offset, where one that is no number drops none. -/
def behind (offset : Option Value) (items : List Value) : List Value :=
  items.drop (((offset.bind Value.integer?).getD 0).toNat)

/-- The items up to a limit, where one that is no number keeps all. -/
def upTo (limit : Option Value) (items : List Value) : List Value :=
  match limit.bind Value.integer? with
  | none => items
  | some count => items.take count.toNat

/-- The value of an expression that may be missing. -/
def evalOption (env : Environment) (scope : Scope) (place : Place) :
    Option Expr → Noted EvalFault (Option Value)
  | none => .ok none
  | some expr => do
    let value ← expr.eval env scope (some place)
    .ok (some value)

/-- The items that a loop visits, in the order in which it does. -/
def items (env : Environment) (scope : Scope) (place : Place) (selection : Selection) :
    Noted EvalFault (List Value) := do
  let collection ← selection.collection.eval env scope (some place)
  let items ← (Noted.ofExcept collection.items).mapFault EvalFault.crash
  let offset ← evalOption env scope place selection.offset
  let limit ← evalOption env scope place selection.limit
  -- Reversing comes last, so a limit keeps items from the front in either order.
  let chosen := upTo limit (behind offset items)
  .ok (if selection.reversed then chosen.reverse else chosen)

end Selection

/-- The place of an item among those that a loop visits. -/
structure Position where
  index : Nat
  length : Nat
deriving DecidableEq

namespace Position

/-- Whether the item is the last one. -/
def isLast (position : Position) : Bool :=
  position.index + 1 == position.length

/-- What both dictionaries say first. -/
def entries (position : Position) : List (String × Value) :=
  [("index", .integer (position.index + 1)),
    ("index0", .integer position.index),
    ("rindex", .integer (position.length - position.index)),
    ("rindex0", .integer (position.length - position.index - 1)),
    ("first", .bool (position.index == 0)),
    ("last", .bool position.isLast),
    ("length", .integer position.length)]

/-- What a loop is nested in: the dictionary of a loop around it, or nil. -/
def parent : Value → Value
  | .dictionary entries => .dictionary entries
  | _ => .nil

/-- The dictionary of a loop, given what its name stood for outside of it. -/
def forloop (position : Position) (outer : Value) : Value :=
  .dictionary (position.entries ++ [("parentloop", parent outer)])

/-- The dictionary of a table with so many columns. -/
def tablerowloop (position : Position) (columns : Nat) : Value :=
  let column := position.index % columns
  .dictionary (position.entries ++
    [("row", .integer (position.index / columns + 1)),
      ("col", .integer (column + 1)),
      ("col0", .integer column),
      ("col_first", .bool (column == 0)),
      ("col_last", .bool (column + 1 == columns || position.isLast))])

end Position

namespace Render

/-- A step for each item, counted from an index, until one of them says that it leaves. -/
def each (visit : Nat → Value → Render Bool) : Nat → List Value → Render Unit
  | _, [] => done ()
  | index, item :: items => do
    let left ← visit index item
    if left then done () else each visit (index + 1) items

end Render

end Liquid
