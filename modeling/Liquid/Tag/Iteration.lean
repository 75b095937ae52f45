import Liquid.Tag

/-!
# Loop Tags

The tags that repeat: `for` and `tablerow`, the two that leave or skip, and
`cycle`, which goes round with them. The header of a loop names its variable
and its collection. Behind that come parameters in any order, with commas or
without, and if one is given twice the last counts.

Errors of the header that are about the tag are placed where the block was
opened. Those that the rules for expressions raise have no place of their own.

## Main definitions

* `Tag.Header`: The header of a loop.
* `Tag.header`: Reading it.
* `Tag.forTag`, `Tag.tablerowTag`, `Tag.breakTag`, `Tag.continueTag`,
  `Tag.cycleTag`: The tags.
-/

namespace Liquid

namespace Tag

/-- The header of a loop. -/
structure Header where
  name : String
  collection : Expr
  parameters : Table Expr
  reversed : Bool

/-- What is read of the arguments of a block. -/
def ofArgs {α : Type} (block : Block) (result : Except Expr.Fault α) : Except SyntaxFault α :=
  readSource block.args result

/-- The parameters behind the collection, in so many rounds at most. -/
def parameters (block : Block) (known : List String) :
    Nat → Header → List Lexeme → Except SyntaxFault Header
  | 0, header, _ => .ok header
  | _, header, [] => .ok header
  | rounds + 1, header, l :: ls =>
    match Parser.symbol? "," (l :: ls), Parser.word? "reversed" (l :: ls) with
    | some rest, _ => parameters block known rounds header rest
    | none, some rest => parameters block known rounds { header with reversed := true } rest
    | none, none => do
      let (name, rest) ←
        ofArgs block (Parser.identifier (.unexpectedIn l.text block.name) (l :: ls))
      -- An unknown name is told before a missing colon is.
      if !known.contains name then block.error (.unknownParameter name block.name)
      else
        match Parser.symbol? ":" rest with
        | none => block.error (.missingColon name block.name)
        | some rest =>
          let (value, rest) ← ofArgs block (Parser.value rest)
          let header := { header with parameters := header.parameters.put name value }
          parameters block known rounds header rest

/-- The header of a loop with the given parameters. -/
def header (block : Block) (known : List String) : Except SyntaxFault Header := do
  let lexemes ← ofArgs block (Lexeme.body block.args)
  if lexemes.isEmpty then block.error (.missingLoopVariable block.name)
  else
    let (name, ls) ← ofArgs block (Parser.identifier (.noLoopVariable block.name) lexemes)
    match Parser.word? "in" ls with
    | none => block.error (.missingIn name block.name)
    | some ls =>
      let (collection, ls) ← ofArgs block (Parser.value ls)
      parameters block known ls.length ⟨name, collection, [], false⟩ ls

/-- The items that a loop with the header visits. -/
def Header.selection (header : Header) : Selection :=
  ⟨header.collection, header.parameters.get? "limit", header.parameters.get? "offset",
    header.reversed⟩

/-- A loop over the items of a collection. -/
def compileFor (block : Block) : Except SyntaxFault Node := do
  let header ← header block ["limit", "offset"]
  let loop (otherwise : Option (List Node)) : Node :=
    .loop header.name header.selection block.body otherwise block.place
  match block.sections with
  | _ :: other :: _ =>
    if other.args.isEmpty then .ok (loop (some other.body)) else block.error .elseWithArguments
  | _ => .ok (loop none)

/-- Renders its body for each item. -/
def forTag : Tag where
  name := "for"
  endName := some "endfor"
  branchNames := ["else"]
  isLoop := true
  compile _ := compileFor

/-- A loop over the items of a collection that fills a table. -/
def compileTablerow (block : Block) : Except SyntaxFault Node := do
  let header ← header block ["cols", "limit", "offset"]
  if header.reversed then block.error .reversedTablerow
  else
    .ok (.tablerow header.name header.selection (header.parameters.get? "cols") block.body
      block.place)

/-- Renders its body for each item, as a cell of a table. -/
def tablerowTag : Tag where
  name := "tablerow"
  endName := some "endtablerow"
  isLoop := true
  compile _ := compileTablerow

/-- A tag without arguments that has to stand in a loop. -/
def compileControl (node : Node) (inLoop : Bool) (block : Block) : Except SyntaxFault Node :=
  if !block.args.isEmpty then block.error (.unwantedArguments block.name)
  else if !inLoop then block.error (.outsideLoop block.name)
  else .ok node

/-- Leaves the innermost loop. -/
def breakTag : Tag where
  name := "break"
  compile := compileControl .breakLoop

/-- Goes on with the next item of the innermost loop. -/
def continueTag : Tag where
  name := "continue"
  compile := compileControl .continueLoop

/-- The values of a cycle, behind its group if it has one. -/
def cycleParts : Parser (Option Expr × List Expr) := fun ls => do
  let (first, rest) ← Parser.value ls
  match Parser.symbol? ":" rest with
  | some rest =>
    let (values, rest) ← Parser.separated (Parser.symbol? ",") Parser.value (rest.length + 1) rest
    .ok ((some first, values), rest)
  | none =>
    -- The first value was no group, so reading starts over with it.
    let (values, rest) ← Parser.separated (Parser.symbol? ",") Parser.value (ls.length + 1) ls
    .ok ((none, values), rest)

/-- A cycle over values. -/
def compileCycle (block : Block) : Except SyntaxFault Node :=
  if block.args.isEmpty then block.error .missingCycleValues
  else do
    let (group, values) ← Block.readAll block.args cycleParts
    .ok (.cycle values group block.place)

/-- Shows the next of its values each time. -/
def cycleTag : Tag where
  name := "cycle"
  compile _ := compileCycle

end Tag

end Liquid
