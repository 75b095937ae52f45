import Liquid.Value

/-!
# Expressions

What stands inside outputs and tags: literals, paths to variables, ranges with
computed ends, filters applied in a row, and binary operators. An operator is
kept by its name, since which operators there are is a matter of the
environment.

A path starts at a variable and goes on by steps. Steps whose key is written
out are kept apart from those with a key to be computed, so that a path without
computed keys is plain data.

## Main definitions

* `Expr`: The expressions.
* `Accessor`: One step of a path.
* `FilterCall`: A filter and its arguments.
-/

namespace Liquid

mutual

/-- An expression. -/
inductive Expr
  | literal (value : Value)
  | path (root : String) (steps : List Accessor)
  /-- A range of which one end at least is not an integer literal. -/
  | range (start stop : Expr)
  /-- Filters applied to the base from the first to the last. -/
  | filtered (base : Expr) (chain : List FilterCall)
  | binary (op : String) (lhs rhs : Expr)

/-- One step of a path. -/
inductive Accessor
  | field (name : String)
  | index (index : Int)
  | key (key : Expr)

/-- A filter with its arguments and its options, each in the order in which they are written. -/
inductive FilterCall
  | call (name : String) (args : List Expr) (options : List (String × Expr))

end

namespace Expr

/-- Whether the expression is the application of an operator. -/
def isBinary : Expr → Bool
  | binary .. => true
  | _ => false

end Expr

end Liquid
