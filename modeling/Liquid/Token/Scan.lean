import Liquid.Remark
import Liquid.Token.Piece

/-!
# Scanning

The second half of scanning: pieces become tokens. Markers are obeyed here. A
marker on the left trims the token just before, if that is a text, and a text
of which nothing is left vanishes, whatever stands before it then. A marker on
the right trims the next text, and every text, even an empty one, uses that up.

A construct that is never closed is the last piece of its source. Strict
scanning refuses it. Lenient scanning remarks on it and keeps the rest of the
source as a text, save that of a comment.

## Main definitions

* `Unterminated`: Why strict scanning refuses a source.
* `Scan.State`: The tokens so far, and whether the next text is trimmed.
* `Scan.State.read`: What one piece does to them.
* `Scan.run`: All pieces, in strict or lenient mode.
* `Token.scan`: The tokens of a source.
-/

namespace Liquid

/-- A construct that strict scanning refuses, and where it was opened. -/
structure Unterminated where
  construct : Unclosed
  place : Place
deriving DecidableEq

namespace Unterminated

/-- The wording of the error. -/
def message (fault : Unterminated) : String :=
  located fault.construct.description (some fault.place)

end Unterminated

namespace Scan

/-- The tokens so far, last one first, and whether the start of the next text is trimmed. -/
structure State where
  tokens : List Token
  trimNext : Bool

namespace State

/-- Before any piece. -/
def start : State := ⟨[], false⟩

/-- Adds a text, unless it is empty. -/
def pushText (tokens : List Token) (text : List Char) (offset : Nat) (place : Place) : List Token :=
  if text.isEmpty then tokens else ⟨.text (String.ofList text), offset, place⟩ :: tokens

/-- Trims the end of the last token, if it is a text and the marker asks for it. -/
def trimLast (trim : Bool) : List Token → List Token
  | ⟨.text text, offset, place⟩ :: tokens =>
    if trim then pushText tokens (Text.stripRight text.toList) offset place
    else ⟨.text text, offset, place⟩ :: tokens
  | tokens => tokens

/-- What a text looks like that is trimmed at the given ends. -/
def trimmed (trimStart trimEnd : Bool) (text : List Char) : List Char :=
  let text := if trimStart then Text.stripLeft text else text
  if trimEnd then Text.stripRight text else text

/-- The state behind a piece other than an open construct. -/
def read (state : State) (piece : Piece) : State :=
  match piece.content with
  | .text text trimEnd =>
    ⟨pushText state.tokens (trimmed state.trimNext trimEnd text) piece.offset piece.place, false⟩
  | .output markers source =>
    ⟨⟨.output (String.ofList source), piece.offset, piece.place⟩ ::
      trimLast markers.left state.tokens, markers.right⟩
  | .tag markers name args =>
    ⟨⟨.tag (String.ofList name) (String.ofList args), piece.offset, piece.place⟩ ::
      trimLast markers.left state.tokens, markers.right⟩
  | .silent markers => ⟨trimLast markers.left state.tokens, markers.right⟩
  | .unclosed .. => state

end State

/-- The tokens of the pieces and the remarks on them, when the state before them is given. -/
def run (strict : Bool) (state : State) :
    List Piece → Except Unterminated (List Token × List Remark)
  | [] => .ok (state.tokens.reverse, [])
  | piece :: pieces =>
    match piece.content with
    | .unclosed construct opened rest =>
      if strict then .error ⟨construct, opened⟩
      else
        let tokens :=
          -- The text of a comment is no output, closed or not.
          match construct with
          | .comment => state.tokens
          | _ => State.pushText state.tokens rest piece.offset piece.place
        .ok (tokens.reverse, [.unclosed construct opened])
    | _ => run strict (state.read piece) pieces

end Scan

/-- The tokens of a source and the remarks on them. -/
def Token.scan (strict : Bool) (source : String) :
    Except Unterminated (List Token × List Remark) :=
  (Scan.run strict .start (Piece.pieces source)).map fun (tokens, remarks) =>
    (tokens, remarks ++ [.tokenized tokens.length])

end Liquid
