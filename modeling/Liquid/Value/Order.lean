import Liquid.Value

/-!
# The Order of Values

All values stand in one order, whatever their kinds: nil, then truth values,
numbers, texts, arrays, dictionaries and ranges. Numbers compare by value,
integers and decimals alike. Texts compare character by character, arrays item
by item, and of two of which one continues the other the shorter comes first.

Dictionaries compare by their entries in the order of their keys, so that the
order in which the entries came does not count. Sorting the keys at each
comparison would break up the recursion on the values. Instead, a value is
first brought to a normal form, in which every dictionary inside it is sorted,
and normal forms are compared entry by entry as they stand.

Equality is defined beside the order and not through it: by kind, and within a
kind by content.

## Main definitions

* `Value.normal`: A value with all its dictionaries sorted by key.
* `Value.order`: The order of values in normal form.
* `Value.compare`: The order of all values.
* `Value.same`: Equality of values in normal form.
* `Value.equals`: Equality of all values.
-/

namespace Liquid

namespace Value

/-- The place of a value's kind in the order of kinds. Integers and decimals share one. -/
def rank : Value → Nat
  | nil => 0
  | bool _ => 1
  | integer _ => 2
  | decimal _ => 2
  | string _ => 3
  | array _ => 4
  | dictionary _ => 5
  | range .. => 6

/-- The entries in the order of their keys. -/
def sortedByKey (entries : List (String × Value)) : List (String × Value) :=
  entries.mergeSort fun a b => (Ord.compare a.1 b.1).isLE

mutual

/-- The value with all its dictionaries sorted by key. -/
def normal : Value → Value
  | array items => array (normals items)
  | dictionary entries => dictionary (sortedByKey (normalEntries entries))
  | v => v

/-- The normal forms of the items of an array. -/
def normals : List Value → List Value
  | [] => []
  | item :: items => item.normal :: normals items

/-- The entries of a dictionary with their values in normal form. -/
def normalEntries : List (String × Value) → List (String × Value)
  | [] => []
  | (key, item) :: entries => (key, item.normal) :: normalEntries entries

end

mutual

/-- The order of two values in normal form. -/
def order : Value → Value → Ordering
  | nil, nil => .eq
  | bool a, bool b => Ord.compare a b
  | integer a, integer b => Ord.compare a b
  -- Numbers of both forms are one kind.
  | integer a, decimal b => (Decimal.ofInt a).compare b
  | decimal a, integer b => a.compare (Decimal.ofInt b)
  | decimal a, decimal b => a.compare b
  | string a, string b => Ord.compare a b
  | array a, array b => orderItems a b
  | dictionary a, dictionary b => orderEntries a b
  | range a b, range c d => (Ord.compare a c).then (Ord.compare b d)
  | a, b => Ord.compare a.rank b.rank

/-- The order of two lists of items: that of the first items that differ. -/
def orderItems : List Value → List Value → Ordering
  | [], [] => .eq
  | [], _ :: _ => .lt
  | _ :: _, [] => .gt
  | a :: as, b :: bs => (order a b).then (orderItems as bs)

/-- The order of two lists of entries: that of the first keys or values that differ. -/
def orderEntries : List (String × Value) → List (String × Value) → Ordering
  | [], [] => .eq
  | [], _ :: _ => .lt
  | _ :: _, [] => .gt
  | (k, a) :: as, (l, b) :: bs => (Ord.compare k l).then ((order a b).then (orderEntries as bs))

end

/-- The order of all values. -/
def compare (a b : Value) : Ordering :=
  a.normal.order b.normal

mutual

/-- Whether two values in normal form are equal. -/
def same : Value → Value → Bool
  | nil, nil => true
  | bool a, bool b => a == b
  | integer a, integer b => a == b
  | integer a, decimal b => (Decimal.ofInt a).compare b == .eq
  | decimal a, integer b => a.compare (Decimal.ofInt b) == .eq
  | decimal a, decimal b => a.compare b == .eq
  | string a, string b => a == b
  | array a, array b => sameItems a b
  | dictionary a, dictionary b => sameEntries a b
  | range a b, range c d => a == c && b == d
  | _, _ => false

/-- Whether two lists of items are equal item by item. -/
def sameItems : List Value → List Value → Bool
  | [], [] => true
  | a :: as, b :: bs => same a b && sameItems as bs
  | _, _ => false

/-- Whether two lists of entries are equal entry by entry. -/
def sameEntries : List (String × Value) → List (String × Value) → Bool
  | [], [] => true
  | (k, a) :: as, (l, b) :: bs => k == l && same a b && sameEntries as bs
  | _, _ => false

end

/-- Whether two values are equal: of one kind, save that numbers are of one kind, and with equal
content. -/
def equals (a b : Value) : Bool :=
  a.normal.same b.normal

end Value

end Liquid
