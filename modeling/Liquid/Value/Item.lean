import Liquid.Fault
import Liquid.Value

/-!
# Items

What is inside a value, one at a time by key or all of them in order. A range
answers like the array of its integers, without being one. Its length, though,
is bounded as that of any collection is, and whatever needs the length of a
longer range fails. A negative index needs no length to be told out of range.

Keys of the wrong kind and places where nothing is give nil, never a failure.

## Main definitions

* `Key`: A key written out or computed.
* `Value.rangeLength`: The number of integers in a range.
* `Value.item`: What stands under a key of a value.
* `Value.items`: The items that a loop over the value visits.
* `Value.elements`: The items that a filter for arrays works on.
-/

namespace Liquid

/-- A key: a name, an index, or a value that is neither. -/
inductive Key
  | name (name : String)
  | index (index : Int)
  | other
deriving DecidableEq

/-- A value as a key. -/
def Key.ofValue : Value → Key
  | .string s => name s
  | .integer n => index n
  | _ => other

namespace Value

/-- The largest length that a collection can have. -/
def maxLength : Nat := 9223372036854775807

/-- The number of integers from `start` to `stop`. -/
def rangeLength (start stop : Int) : Except Crash Nat :=
  let length := (stop - start + 1).toNat
  if maxLength < length then .error .rangeTooLong else .ok length

/-- The integers from `start` on, as many as given. -/
def integersFrom (start : Int) (length : Nat) : List Value :=
  (List.range length).map fun (i : Nat) => integer (start + i)

/-- What stands at an index of an array. -/
def arrayAt (items : List Value) (index : Int) : Value :=
  if index < 0 then nil else items[index.toNat]?.getD nil

/-- What stands at an index of a range. -/
def rangeAt (start stop index : Int) : Except Crash Value :=
  if index < 0 then .ok nil
  else do
    -- The length is asked for although the bounds would do, because it may be too large.
    let length ← rangeLength start stop
    .ok (if index < length then integer (start + index) else nil)

/-- What stands under a key of a value. Arrays and ranges have a size, a first and a last item;
a dictionary has a size unless an entry of that name hides it. -/
def item : Value → Key → Except Crash Value
  | array items, .index index => .ok (arrayAt items index)
  | array items, .name name =>
    .ok <|
      if name == "size" then integer items.length
      else if name == "first" then items.head?.getD nil
      else if name == "last" then items.getLast?.getD nil
      else nil
  | range start stop, .index index => rangeAt start stop index
  | range start stop, .name name =>
    if name == "size" then (rangeLength start stop).map fun length => integer length
    else if name == "first" then rangeAt start stop 0
    else if name == "last" then do
      let length ← rangeLength start stop
      rangeAt start stop (length - 1)
    else .ok nil
  | dictionary entries, .name name =>
    .ok <|
      -- An entry comes before the size, even one that is nil.
      match List.lookup name entries with
      | some value => value
      | none => if name == "size" then integer entries.length else nil
  | _, _ => .ok nil

/-- The items that a loop over the value visits: those of an array or range, the entries of a
dictionary as pairs, nothing of nil, and any other value itself. -/
def items : Value → Except Crash (List Value)
  | array items => .ok items
  | range start stop => (rangeLength start stop).map (integersFrom start)
  | dictionary entries => .ok (entries.map fun (key, value) => array [string key, value])
  | nil => .ok []
  | v => .ok [v]

/-- The items that a filter for arrays works on. A dictionary is one item here. -/
def elements : Value → Except Crash (List Value)
  | dictionary entries => .ok [dictionary entries]
  | v => v.items

end Value

end Liquid
