import Liquid.Text.Search
import Liquid.Text.Utf8

/-!
# Percent Encoding

Texts as the query part of an address. Letters, digits and four marks stand
for themselves, a space becomes a plus, and every other character is written
byte by byte as a percent sign and two hexadecimal digits.

Reading is lenient throughout: a percent sign without two digits behind it
stays, and bytes that are no UTF-8 become replacement characters. The bytes of
one character have to stand together, so characters outside ASCII part the
text, and each run of ASCII between them is read on its own.

## Main definitions

* `Percent.encode`: A text in encoded form.
* `Percent.bytes`: The bytes that a run of ASCII stands for.
* `Percent.decode`: The text that an encoded form stands for.
-/

namespace Liquid

namespace Text

namespace Percent

/-- Whether the character stands for itself. -/
def isPlain (c : Char) : Bool :=
  c.isAlphanum || c == '_' || c == '.' || c == '-' || c == '~'

/-- The hexadecimal digit of a number below sixteen, in upper case. -/
def hexDigit (n : Nat) : Char :=
  if n < 10 then Char.ofNat ('0'.toNat + n) else Char.ofNat ('A'.toNat + (n - 10))

/-- A byte as a percent sign and two hexadecimal digits. -/
def encodeByte (byte : Nat) : List Char :=
  ['%', hexDigit (byte / 16), hexDigit (byte % 16)]

/-- The text in encoded form. -/
def encode (cs : List Char) : List Char :=
  cs.flatMap fun c =>
    if isPlain c then [c]
    else if c == ' ' then ['+']
    else (Utf8.encodeChar c).flatMap encodeByte

/-- The value of a hexadecimal digit in either case. -/
def hexValue? (c : Char) : Option Nat :=
  if c.isDigit then some (c.toNat - '0'.toNat)
  else if 'a' ≤ c && c ≤ 'f' then some (c.toNat - 'a'.toNat + 10)
  else if 'A' ≤ c && c ≤ 'F' then some (c.toNat - 'A'.toNat + 10)
  else none

/-- The bytes that a run of ASCII stands for. -/
def bytes : List Char → List Nat
  | '%' :: high :: low :: cs =>
    match hexValue? high, hexValue? low with
    | some h, some l => (16 * h + l) :: bytes cs
    | _, _ => '%'.toNat :: bytes (high :: low :: cs)
  | c :: cs => c.toNat :: bytes cs
  | [] => []
termination_by cs => cs.length

/-- Reads a text in which `run` holds the ASCII characters before it, last one first. -/
def decodeFrom (run : List Char) : List Char → List Char
  | [] => Utf8.decodeLenient (bytes run.reverse)
  | c :: cs =>
    if c.toNat < 0x80 then decodeFrom (c :: run) cs
    else Utf8.decodeLenient (bytes run.reverse) ++ c :: decodeFrom [] cs

/-- The text that an encoded form stands for. -/
def decode (cs : List Char) : List Char :=
  decodeFrom [] (cs.map fun c => if c == '+' then ' ' else c)

end Percent

end Text

end Liquid
