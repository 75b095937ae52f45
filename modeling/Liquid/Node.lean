import Liquid.Expr
import Liquid.Place

/-!
# Nodes

A compiled template: a list of nodes, some of which hold lists of nodes. The
nodes of the language have a constructor each. A tag of the host has one node
for all its needs, with the payload that it chose when it was compiled and the
nodes of its body; what to make of them is decided when it is rendered, by
whatever tag has its name then.

A missing branch and an empty one are told apart, though they render alike.

## Main definitions

* `Selection`: Which items of a collection a loop visits.
* `Branch`, `When`: The parts of conditionals.
* `Payload`: What a tag of the host keeps.
* `Node`: The nodes.
-/

namespace Liquid

/-- Which items of a collection a loop visits: those left after an offset, up to a limit, and
whether from the last to the first. -/
structure Selection where
  collection : Expr
  limit : Option Expr
  offset : Option Expr
  reversed : Bool

/-- A body with the condition for rendering it. -/
structure Branch (ν : Type) where
  condition : Expr
  negated : Bool
  body : List ν

/-- A body with the values for which it is rendered. -/
structure When (ν : Type) where
  values : List Expr
  body : List ν

/-- What a tag of the host keeps from its arguments. -/
structure Payload where
  exprs : List Expr
  note : Value

/-- A node of a compiled template. -/
inductive Node
  | text (text : String)
  | output (expr : Expr) (place : Place)
  /-- An output written as a tag. -/
  | echo (expr : Expr) (place : Place)
  | conditional (branches : List (Branch Node)) (otherwise : Option (List Node)) (place : Place)
  | choice (subject : Expr) (whens : List (When Node)) (otherwise : Option (List Node))
    (place : Place)
  /-- A body for each item of a collection, and another if there is none. -/
  | loop (name : String) (selection : Selection) (body : List Node)
    (otherwise : Option (List Node)) (place : Place)
  /-- A body for each item of a collection, as the cells of a table. -/
  | tablerow (name : String) (selection : Selection) (columns : Option Expr)
    (body : List Node) (place : Place)
  /-- Ends the innermost loop. -/
  | breakLoop
  /-- Goes on with the next item of the innermost loop. -/
  | continueLoop
  | cycle (values : List Expr) (group : Option Expr) (place : Place)
  /-- Renders a body into a variable. -/
  | capture (name : String) (body : List Node)
  | assign (name : String) (expr : Expr) (place : Place)
  | increment (name : String)
  | decrement (name : String)
  | custom (tag : String) (payload : Payload) (children : List Node) (place : Place)

end Liquid
