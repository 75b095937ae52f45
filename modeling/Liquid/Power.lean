/-!
# Powers

The powers of the two bases that numbers are written and stored in.

## Main definitions

* `tenTo`, `twoTo`: Powers of ten and of two.
-/

namespace Liquid

/-- A power of ten. -/
def tenTo (exponent : Nat) : Nat :=
  Nat.pow 10 exponent

/-- A power of two. -/
def twoTo (exponent : Nat) : Nat :=
  Nat.pow 2 exponent

end Liquid
