import Liquid.Block
import Liquid.Outcome

/-!
# Tags

A tag is all that the engine knows of a word behind the delimiter of a tag:
whether a body belongs to it and what closes that, which words divide the body,
and how the block becomes a node. The tags of the language are given in the
same form as those of a host, so none of them is known to the engine except by
its definition.

A tag of the host may also say how its node is rendered. It gets its payload
back, a step that renders its children, and the evaluation of expressions at
its place; it decides how often to use either. The tags of the language become
nodes of their own and are never asked.

## Main definitions

* `Tag`: A tag.
* `Tag.unrendered`: The rendering of a tag that has none.
* `Block.readAll`: What a rule reads from all of a source.
* `Parser.separated`: What it reads between separators.
-/

namespace Liquid

/-- The rendering of a tag that has none. -/
def Tag.unrendered (name : String) : Render Unit :=
  Render.fail (.crash (.notRendered name))

/-- A tag: how it is recognised, compiled and rendered. -/
structure Tag where
  name : String
  /-- The tag that closes the body, if there is a body. -/
  endName : Option String := none
  /-- The tags that divide the body. -/
  branchNames : List String := []
  /-- Whether the body may leave or skip, as that of a loop. -/
  isLoop : Bool := false
  /-- The node of a block, given whether the tag stands in a loop. -/
  compile : Bool → Block → Except SyntaxFault Node
  /-- The rendering of the payload, given that of the children and an evaluation. -/
  render : Payload → Render Unit → (Expr → Render Value) → Render Unit :=
    fun _ _ _ => Tag.unrendered name

namespace Block

/-- What a rule reads from all of a source that belongs to the block. -/
def readAll {α : Type} (source : String) (rule : Parser α) : Except SyntaxFault α :=
  readSource source do
    let lexemes ← Lexeme.body source
    let (result, rest) ← rule lexemes
    Parser.finish result rest

end Block

namespace Parser

/-- What a rule reads between separators, in so many rounds at most. -/
def separated {α : Type} (separator? : List Lexeme → Option (List Lexeme)) (rule : Parser α) :
    Nat → Parser (List α)
  | 0, _ => .error .unexpectedEnd
  | rounds + 1, ls => do
    let (first, ls) ← rule ls
    match separator? ls with
    | some ls =>
      let (rest, ls) ← separated separator? rule rounds ls
      .ok (first :: rest, ls)
    | none => .ok ([first], ls)

end Parser

end Liquid
