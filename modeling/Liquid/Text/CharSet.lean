/-!
# Sets of Characters

A set of code points, kept as the increasing list of the points where
membership flips. Unicode properties are unions of long runs, so this is a
short list even for a property with a hundred thousand members, and a union
of ranges needs no pairs: the first point opens a run, the second closes it,
the third opens the next.

Membership walks the list up to the first point beyond the one asked for. No
search structure is kept, because templates are short and nearly all of their
characters are answered by the first few points.

## Main definitions

* `CharSet`: A set of code points by its flips.
* `CharSet.inside`: Whether a code point lies in the set of a list of flips.
* `CharSet.has`: Whether a character lies in the set.
-/

namespace Liquid

namespace Text

/-- A set of code points: the points, in increasing order, where membership flips. -/
structure CharSet where
  flips : List Nat

namespace CharSet

/-- Each flip at or below the point reverses the answer, which starts from outside. -/
def inside : List Nat → Nat → Bool
  | [], _ => false
  | flip :: flips, point => if point < flip then false else !inside flips point

/-- Whether the character lies in the set. -/
def has (set : CharSet) (c : Char) : Bool :=
  inside set.flips c.toNat

end CharSet

end Text

end Liquid
