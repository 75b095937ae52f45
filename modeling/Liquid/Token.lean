import Liquid.Place

/-!
# Tokens

A template cut into texts, outputs and tags, in the order of the source. Each
token knows where it starts, as an offset and as a place, both in characters.

## Main definitions

* `Token.Content`: What a token holds.
* `Token`: A token and where it starts.
* `Unclosed`: The constructs that a source may leave open.
-/

namespace Liquid

/-- What a token holds. -/
inductive Token.Content
  | text (text : String)
  /-- The expression between the delimiters of an output, as it is written. -/
  | output (source : String)
  /-- The name of a tag and what is written behind it. -/
  | tag (name args : String)
deriving DecidableEq

/-- A token and where it starts. -/
structure Token where
  content : Token.Content
  offset : Nat
  place : Place
deriving DecidableEq

/-- The constructs that a source may leave open. -/
inductive Unclosed
  | output
  | tag
  | raw
  | comment
deriving DecidableEq

namespace Unclosed

/-- What is said of a construct that is left open. -/
def description : Unclosed → String
  | output => "Unterminated '\x7b\x7b' delimiter"
  | tag => "Unterminated '\x7b%' delimiter"
  | raw => "Unterminated 'raw' block"
  | comment => "Unterminated 'comment' block"

/-- What is done about it when it is let pass. -/
def remedy : Unclosed → String
  | comment => "discarding the rest"
  | _ => "keeping it as text"

end Unclosed

end Liquid
