import Liquid.Tag
import Liquid.Text.Word

/-!
# Variable Tags

The tags that write a variable, and `echo`, which writes to the output. A name
to be written starts with a letter or an underscore, and may hold hyphens. The
tags with no other argument also take the name between quotes.

## Main definitions

* `Tag.isName`: Whether a text is a name that can be written.
* `Tag.assignment?`: The name and the value of an assignment.
* `Tag.assignTag`, `Tag.captureTag`, `Tag.incrementTag`, `Tag.decrementTag`,
  `Tag.echoTag`: The tags.
-/

namespace Liquid

namespace Tag

/-- Whether a text is a name that can be written. -/
def isName : List Char → Bool
  | c :: cs => Lexeme.startsName c && cs.all Lexeme.continuesName
  | [] => false

/-- Whether a character is a quote. -/
def isQuote (c : Char) : Bool :=
  c == '\'' || c == '"'

/-- The text without any quotes at its ends. -/
def unquoted (cs : List Char) : List Char :=
  ((cs.dropWhile isQuote).reverse.dropWhile isQuote).reverse

/-- The name that is all of a block's arguments. -/
def nameOf (block : Block) : Except SyntaxFault String :=
  let name := unquoted block.args.toList
  if isName name then .ok (String.ofList name) else block.error (.missingName block.name)

/-- The name before an equals sign, and the source of the value behind it. -/
def assignment? (cs : List Char) : Option (List Char × List Char) :=
  let name := cs.takeWhile Lexeme.continuesName
  match Text.stripLeft (cs.dropWhile Lexeme.continuesName) with
  | '=' :: value =>
    let value := Text.stripLeft value
    if isName name && !value.isEmpty then some (name, value) else none
  | _ => none

/-- Writing a value into a variable. -/
def compileAssign (block : Block) : Except SyntaxFault Node :=
  match assignment? block.args.toList with
  | none => block.error .missingAssignment
  | some (name, value) => do
    let source := String.ofList value
    let expr ← readSource source (Expr.parseChain source)
    .ok (.assign (String.ofList name) expr block.place)

/-- Writes the value of an expression into a variable. -/
def assignTag : Tag where
  name := "assign"
  compile _ := compileAssign

/-- Writes the output of its body into a variable. -/
def captureTag : Tag where
  name := "capture"
  endName := some "endcapture"
  compile _ block := (nameOf block).map fun name => .capture name block.body

/-- Counts a variable up. -/
def incrementTag : Tag where
  name := "increment"
  compile _ block := (nameOf block).map .increment

/-- Counts a variable down. -/
def decrementTag : Tag where
  name := "decrement"
  compile _ block := (nameOf block).map .decrement

/-- An output written as a tag. -/
def compileEcho (block : Block) : Except SyntaxFault Node :=
  if block.args.isEmpty then block.error .missingEcho
  else do
    let expr ← readSource block.args (Expr.parseChain block.args)
    .ok (.echo expr block.place)

/-- Shows the value of an expression. -/
def echoTag : Tag where
  name := "echo"
  compile _ := compileEcho

end Tag

end Liquid
