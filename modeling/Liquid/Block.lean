import Liquid.Expr.Parse
import Liquid.Node
import Liquid.Token

/-!
# Blocks

What a tag is compiled from: its opening, the sections that its branch tags
divide its body into, and the tokens inside it as they came. A tag that stands
alone is a block without sections. The first section is named after the tag
itself and has its arguments; each later one has those of its branch tag.

An error about a block is placed by what found it. The block itself knows where
it was opened. A fault inside an expression knows only its source, and the
place is given to it later, by whoever was reading a token at the time.

## Main definitions

* `SyntaxCause`: What can be wrong with a template's structure.
* `SyntaxFault`: A cause, and its place if it is known.
* `Section`: A part of a block.
* `Block`: What a tag is compiled from.
-/

namespace Liquid

/-- What can be wrong with the structure of a template. -/
inductive SyntaxCause
  | expression (fault : Expr.Fault) (source : String)
  | emptyOutput
  | namelessTag
  | unknownTag (name : String)
  | endWithoutTag (name tag : String)
  | branchOutside (name tag : String)
  | branchAfterElse (name tag : String)
  | neverClosed (tag closing : String)
  | missingCondition (name : String)
  | elseWithArguments
  | missingSubject
  | missingWhenValue
  | missingLoopVariable (tag : String)
  | missingIn (name tag : String)
  | unknownParameter (name tag : String)
  | missingColon (name tag : String)
  | reversedTablerow
  | unwantedArguments (tag : String)
  | outsideLoop (tag : String)
  | missingCycleValues
  | missingName (tag : String)
  | missingAssignment
  | missingEcho
  /-- A reason of a tag of the host. -/
  | rejected (reason : String)
deriving DecidableEq

/-- The wording of a cause. -/
def SyntaxCause.message : SyntaxCause → String
  | expression fault source => fault.message source
  | emptyOutput => "Empty output"
  | namelessTag => "Malformed tag, missing tag name"
  | unknownTag name => "Unknown tag '" ++ name ++ "'"
  | endWithoutTag name tag => "Unexpected '" ++ name ++ "' without matching '" ++ tag ++ "'"
  | branchOutside name tag => "Unexpected '" ++ name ++ "' outside of a '" ++ tag ++ "' block"
  | branchAfterElse name tag => "Unexpected '" ++ name ++ "' after 'else' in '" ++ tag ++ "' block"
  | neverClosed tag closing => "'" ++ tag ++ "' tag was never closed, expected '" ++ closing ++ "'"
  | missingCondition name => "Missing condition in '" ++ name ++ "' tag"
  | elseWithArguments => "'else' takes no arguments"
  | missingSubject => "Missing subject in 'case' tag"
  | missingWhenValue => "Missing value in 'when' tag"
  | missingLoopVariable tag => "Missing loop variable in '" ++ tag ++ "' tag"
  | missingIn name tag => "Expected 'in' after '" ++ name ++ "' in '" ++ tag ++ "' tag"
  | unknownParameter name tag => "Unknown parameter '" ++ name ++ "' in '" ++ tag ++ "' tag"
  | missingColon name tag => "Expected ':' after '" ++ name ++ "' in '" ++ tag ++ "' tag"
  | reversedTablerow => "'reversed' is not supported by 'tablerow'"
  | unwantedArguments tag => "'" ++ tag ++ "' takes no arguments"
  | outsideLoop tag => "'" ++ tag ++ "' outside of a loop"
  | missingCycleValues => "Missing values in 'cycle' tag"
  | missingName tag => "Expected a variable name in '" ++ tag ++ "' tag"
  | missingAssignment => "Expected 'name = value' in 'assign' tag"
  | missingEcho => "Missing expression in 'echo' tag"
  | rejected reason => reason

/-- A cause, and its place if it is known. -/
structure SyntaxFault where
  cause : SyntaxCause
  place : Option Place
deriving DecidableEq

namespace SyntaxFault

/-- The wording of the fault. -/
def message (fault : SyntaxFault) : String :=
  located fault.cause.message fault.place

/-- The fault with a place, unless it has one. -/
def placedAt (place : Place) (fault : SyntaxFault) : SyntaxFault :=
  { fault with place := fault.place.or (some place) }

end SyntaxFault

/-- A part of a block: the tag that starts it and the nodes up to the next part. -/
structure Section where
  name : String
  args : String
  /-- Where the tag starts in the source. -/
  offset : Nat
  place : Place
  body : List Node

/-- What a tag is compiled from. -/
structure Block where
  name : String
  args : String
  /-- Where the block was opened in the source. -/
  offset : Nat
  place : Place
  /-- None for a tag that stands alone. -/
  sections : List Section
  /-- The tokens between the opening and the closing tag. -/
  tokens : List Token

namespace Block

/-- The body of the first section. -/
def body (block : Block) : List Node :=
  match block.sections with
  | [] => []
  | first :: _ => first.body

/-- An error about the block, placed where it was opened. -/
def error {α : Type} (block : Block) (cause : SyntaxCause) : Except SyntaxFault α :=
  .error ⟨cause, some block.place⟩

end Block

/-- What is read from a source, a fault in it having no place of its own. -/
def readSource {α : Type} (source : String) (result : Except Expr.Fault α) :
    Except SyntaxFault α :=
  result.mapError fun fault => ⟨.expression fault source, none⟩

end Liquid
