import Liquid.Text.Percent

/-!
# Quoted Scalars

Scalars between quotes. Between single quotes only the quote itself is special,
and is written twice. Between double quotes a backslash starts an escape. In
both a line break is folded: with the blanks around it, it counts as one blank,
and each empty line behind it as a line feed. A double quoted line that ends in
a backslash runs on without any.

## Main definitions

* `Quotation.escape?`: What an escape stands for.
* `Quotation.read?`: A quoted scalar at the start of a text.
-/

namespace Liquid

namespace Quotation

/-- Whether a character is a blank within a line. -/
def isBlank (c : Char) : Bool :=
  c == ' ' || c == '\t'

/-- What a line break counts as, given the number of empty lines behind it. -/
def foldOf (emptyLines : Nat) : List Char :=
  if emptyLines == 0 then [' '] else List.replicate emptyLines '\n'

/-- What a line break counts as, and the text from the next line that is not empty, where so many
empty lines were passed already. -/
def folded (emptyLines : Nat) : List Char → List Char × List Char
  | [] => (foldOf emptyLines, [])
  | c :: cs =>
    if c == '\n' then folded (emptyLines + 1) cs
    else if isBlank c then folded emptyLines cs
    else (foldOf emptyLines, c :: cs)

/-- The character with the number that so many digits of base sixteen write, and what follows
them. -/
def numbered? (digits : Nat) (cs : List Char) : Option (List Char × List Char) := do
  let values ← (cs.take digits).mapM Text.Percent.hexValue?
  let number := values.foldl (fun n digit => 16 * n + digit) 0
  if values.length == digits && number.isValidChar then
    some ([Char.ofNat number], cs.drop digits)
  else none

/-- The characters that a letter behind a backslash stands for. -/
def named? : Char → Option Char
  | '0' => some '\x00'
  | 'a' => some '\x07'
  | 'b' => some '\x08'
  | 't' => some '\t'
  | '\t' => some '\t'
  | 'n' => some '\n'
  | 'v' => some '\x0b'
  | 'f' => some '\x0c'
  | 'r' => some '\r'
  | 'e' => some '\x1b'
  | ' ' => some ' '
  | '"' => some '"'
  | '/' => some '/'
  | '\\' => some '\\'
  | 'N' => some '\u0085'
  | '_' => some '\u00a0'
  | 'L' => some '\u2028'
  | 'P' => some '\u2029'
  | _ => none

/-- What an escape stands for, given what follows the backslash, and what follows the escape. -/
def escape? : List Char → Option (List Char × List Char)
  | 'x' :: cs => numbered? 2 cs
  | 'u' :: cs => numbered? 4 cs
  | 'U' :: cs => numbered? 8 cs
  | '\n' :: cs => some ([], cs.dropWhile isBlank)
  | c :: cs => (named? c).map fun named => ([named], cs)
  | [] => none

/-- The scalar up to its closing quote, and what follows that, where some of it is read already
(last character first), in so many steps at most. -/
def readFrom? (quote : Char) : Nat → List Char → List Char → Option (List Char × List Char)
  | 0, _, _ => none
  | _ + 1, _, [] => none
  | steps + 1, done, c :: cs =>
    if c == quote then
      match cs with
      | d :: ds =>
        if quote == '\'' && d == '\'' then readFrom? quote steps ('\'' :: done) ds
        else some (done.reverse, cs)
      | [] => some (done.reverse, cs)
    else if c == '\\' && quote == '"' then do
      let (text, rest) ← escape? cs
      readFrom? quote steps (text.reverse ++ done) rest
    else if c == '\n' then
      let (text, rest) := folded 0 cs
      readFrom? quote steps (text ++ done.dropWhile isBlank) rest
    else readFrom? quote steps (c :: done) cs

/-- A quoted scalar at the start of a text, and what follows it. -/
def read? : List Char → Option (List Char × List Char)
  | '"' :: cs => readFrom? '"' (cs.length + 1) [] cs
  | '\'' :: cs => readFrom? '\'' (cs.length + 1) [] cs
  | _ => none

end Quotation

end Liquid
