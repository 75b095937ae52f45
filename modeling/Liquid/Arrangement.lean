import Liquid.Remark
import Liquid.Tag

/-!
# Arranging Tokens

A list of tokens as a tree of nodes, in one pass from front to back. The blocks
that are open at a point form a stack. A token is either part of the innermost
one or changes the stack. A closing tag closes the innermost block, which then
becomes a node of the one around it; a branch tag of the innermost block starts
its next section; any other tag opens a block or stands alone.

The open blocks also keep all tokens inside them, for a tag of the host may
want its body unread.

Faults without a place are given that of the token at hand. For a block this
is its closing tag, because only then are its arguments read.

## Main definitions

* `OpenBlock`: A block that is not closed yet.
* `Arrangement`: The open blocks and the nodes outside of them.
* `Arrangement.read`: What one token does to them.
* `Node.ofTokens`: The nodes of a list of tokens.
-/

namespace Liquid

/-- A block that is not closed yet: its tag, where it was opened and with what arguments, the
sections before the current one and the start of that, and the nodes and tokens so far. Lists that
grow are kept with their last member first. -/
structure OpenBlock where
  tag : Tag
  args : String
  offset : Nat
  place : Place
  closed : List Section
  name : String
  sectionArgs : String
  sectionOffset : Nat
  sectionPlace : Place
  body : List Node
  tokens : List Token

namespace OpenBlock

/-- A block with nothing in it yet. -/
def start (tag : Tag) (args : String) (offset : Nat) (place : Place) : OpenBlock :=
  ⟨tag, args, offset, place, [], tag.name, args, offset, place, [], []⟩

/-- The sections, the current one closed with them; the last one first. -/
def sections (block : OpenBlock) : List Section :=
  ⟨block.name, block.sectionArgs, block.sectionOffset, block.sectionPlace, block.body.reverse⟩ ::
    block.closed

/-- The block with a section started at a branch tag. -/
def branch (block : OpenBlock) (name args : String) (offset : Nat) (place : Place) : OpenBlock :=
  { block with
    closed := block.sections, name := name, sectionArgs := args, sectionOffset := offset
    sectionPlace := place, body := [] }

/-- The block as its tag compiles it. -/
def close (block : OpenBlock) : Block :=
  ⟨block.tag.name, block.args, block.offset, block.place, block.sections.reverse,
    block.tokens.reverse⟩

/-- Whether what stands here stands in the body of a loop. -/
def isLoopBody (block : OpenBlock) : Bool :=
  block.tag.isLoop && block.name == block.tag.name

end OpenBlock

/-- The open blocks, the innermost first, and the nodes outside of them, the last first. -/
structure Arrangement where
  blocks : List OpenBlock
  nodes : List Node

namespace Arrangement

/-- Before any token. -/
def start : Arrangement := ⟨[], []⟩

/-- Adds a node at the current point. -/
def push (state : Arrangement) (node : Node) : Arrangement :=
  match state.blocks with
  | [] => { state with nodes := node :: state.nodes }
  | block :: blocks => { state with blocks := { block with body := node :: block.body } :: blocks }

/-- Notes a token in all open blocks. -/
def note (state : Arrangement) (token : Token) : Arrangement :=
  { state with
    blocks := state.blocks.map fun block => { block with tokens := token :: block.tokens } }

/-- Whether the current point is in the body of a loop. -/
def inLoop (state : Arrangement) : Bool :=
  state.blocks.any OpenBlock.isLoopBody

/-- A result whose fault is placed at a token, unless it has a place. -/
def placedAt {α : Type} (place : Place) (result : Except SyntaxFault α) : Except SyntaxFault α :=
  result.mapError (SyntaxFault.placedAt place)

/-- What is said of a tag that is not known: that it belongs to the first tag that closes or
branches by it, if there is one. -/
def unknown (tags : List Tag) (name : String) : SyntaxCause :=
  let belongs (tag : Tag) : Option SyntaxCause :=
    if tag.endName == some name then some (.endWithoutTag name tag.name)
    else if tag.branchNames.contains name then some (.branchOutside name tag.name)
    else none
  (tags.findSome? belongs).getD (.unknownTag name)

/-- Opens a block, or adds the node of a tag that stands alone. -/
def openTag (tags : Table Tag) (state : Arrangement) (name args : String) (offset : Nat)
    (place : Place) : Except SyntaxFault Arrangement :=
  match tags.get? name with
  | none => .error ⟨unknown (tags.map Prod.snd) name, some place⟩
  | some tag =>
    if tag.endName.isSome then
      .ok { state with blocks := OpenBlock.start tag args offset place :: state.blocks }
    else
      (placedAt place (tag.compile state.inLoop ⟨name, args, offset, place, [], []⟩)).map state.push

/-- What a tag does. The token has been noted in the open blocks; the one that it closes gives it
back. -/
def readTag (tags : Table Tag) (state : Arrangement) (name args : String) (offset : Nat)
    (place : Place) : Except SyntaxFault Arrangement :=
  if name.isEmpty then .error ⟨.namelessTag, some place⟩
  else
    match state.blocks with
    | [] => openTag tags state name args offset place
    | block :: blocks =>
      if block.tag.endName == some name then
        -- The block is gone before its tag compiles it, so it is no loop around itself.
        let outer := { state with blocks := blocks }
        let inner := { block with tokens := block.tokens.tail }.close
        (placedAt place (block.tag.compile outer.inLoop inner)).map outer.push
      else if block.tag.branchNames.contains name then
        -- Nothing comes behind an `else`, whatever the tag says of its branches.
        if block.name == "else" then
          .error ⟨.branchAfterElse name block.tag.name, some place⟩
        else .ok { state with blocks := block.branch name args offset place :: blocks }
      else openTag tags state name args offset place

/-- What a token does. -/
def read (tags : Table Tag) (state : Arrangement) (token : Token) :
    Except SyntaxFault Arrangement :=
  let state := state.note token
  match token.content with
  | .text text => .ok (state.push (.text text))
  | .output source =>
    if source.isEmpty then .error ⟨.emptyOutput, some token.place⟩
    else
      (placedAt token.place (readSource source (Expr.parse source))).map fun expr =>
        state.push (.output expr token.place)
  | .tag name args => readTag tags state name args token.offset token.place

/-- The nodes, once all tokens are read. -/
def finish (state : Arrangement) : Except SyntaxFault (List Node) :=
  match state.blocks with
  | [] => .ok state.nodes.reverse
  | block :: _ =>
    .error ⟨.neverClosed block.tag.name (block.tag.endName.getD ""), some block.place⟩

end Arrangement

/-- The nodes of a list of tokens, and the remark on how many they are. -/
def Node.ofTokens (tags : Table Tag) (tokens : List Token) :
    Except SyntaxFault (List Node × List Remark) := do
  let state ← tokens.foldlM (Arrangement.read tags) .start
  let nodes ← state.finish
  .ok (nodes, [.arranged tokens.length nodes.length])

end Liquid
