import Liquid.Text.Utf8

/-!
# Base64

Bytes as text over sixty-four characters, three bytes to a group of four, the
last group filled up with equals signs. Two alphabets differ in their last two
characters.

Reading is strict about what stands in the text and where. A sign outside the
alphabet is refused, so is padding at the start, padding with data behind it,
and a last group that is cut short. Two things it does let pass: bits of the
last character that belong to no byte, and equals signs behind a text whose
groups are all full.

## Main definitions

* `Base64.encode`: The text of some bytes in an alphabet.
* `Base64.decode?`: The bytes of a text, if it is well formed.
* `Base64.complaint`: What is said of a text that is not.
* `Base64.padded`: A text with equals signs up to a multiple of four.
-/

namespace Liquid

namespace Text

namespace Base64

/-- The last two characters of the alphabet: `+` and `/`, or `-` and `_` where those would have a
meaning of their own in an address. -/
inductive Alphabet
  | standard
  | urlSafe
deriving DecidableEq

/-- The character that stands for six bits. -/
def Alphabet.char (alphabet : Alphabet) (n : Nat) : Char :=
  if n < 26 then Char.ofNat ('A'.toNat + n)
  else if n < 52 then Char.ofNat ('a'.toNat + (n - 26))
  else if n < 62 then Char.ofNat ('0'.toNat + (n - 52))
  else
    match alphabet with
    | .standard => if n == 62 then '+' else '/'
    | .urlSafe => if n == 62 then '-' else '_'

/-- The six bits that a character of the standard alphabet stands for. -/
def bits? (c : Char) : Option Nat :=
  if 'A' ≤ c && c ≤ 'Z' then some (c.toNat - 'A'.toNat)
  else if 'a' ≤ c && c ≤ 'z' then some (c.toNat - 'a'.toNat + 26)
  else if c.isDigit then some (c.toNat - '0'.toNat + 52)
  else if c == '+' then some 62
  else if c == '/' then some 63
  else none

/-- The text of some bytes. -/
def encode (alphabet : Alphabet) : List Nat → List Char
  | a :: b :: c :: rest =>
    alphabet.char (a / 4) :: alphabet.char (a % 4 * 16 + b / 16)
      :: alphabet.char (b % 16 * 4 + c / 64) :: alphabet.char (c % 64) :: encode alphabet rest
  | [a, b] =>
    [alphabet.char (a / 4), alphabet.char (a % 4 * 16 + b / 16), alphabet.char (b % 16 * 4), '=']
  | [a] => [alphabet.char (a / 4), alphabet.char (a % 4 * 16), '=', '=']
  | [] => []

/-- Reads the rest of a text. `held` is the six-bit value of each character of the open group,
last one first, and `pads` the number of equals signs just before. -/
def decodeFrom? (held : List Nat) (pads : Nat) : List Char → Option (List Nat)
  | [] => if held.isEmpty then some [] else none
  | c :: cs =>
    if c == '=' then
      match held with
      | [b, a] =>
        if pads + 1 < 2 then decodeFrom? held (pads + 1) cs
        else if cs.isEmpty then some [a * 4 + b / 16]
        else none
      | [d, b, a] => if cs.isEmpty then some [a * 4 + b / 16, b % 16 * 16 + d / 4] else none
      | _ => decodeFrom? held (pads + 1) cs
    else
      match bits? c with
      | none => none
      | some n =>
        if 0 < pads then none
        else
          match held with
          | [d, b, a] =>
            (decodeFrom? [] 0 cs).map fun rest =>
              [a * 4 + b / 16, b % 16 * 16 + d / 4, d % 4 * 64 + n] ++ rest
          | _ => decodeFrom? (n :: held) 0 cs

/-- The bytes of a text over the standard alphabet, if it is well formed. -/
def decode? : List Char → Option (List Nat)
  | '=' :: _ => none
  | cs => decodeFrom? [] 0 cs

/-- What is said of the rest of a text that is not well formed. `held` counts the characters of the
open group, `groups` the full ones, and `pads` the equals signs just before. -/
def complaintFrom (held groups pads : Nat) : List Char → String
  | [] =>
    if held == 1 then
      "Invalid base64-encoded string: number of data characters (" ++ toString (4 * groups + 1)
        ++ ") cannot be 1 more than a multiple of 4"
    else "Incorrect padding"
  | c :: cs =>
    if c == '=' then
      if 2 ≤ held && 4 ≤ held + (pads + 1) then "Excess data after padding"
      else complaintFrom held groups (pads + 1) cs
    else if (bits? c).isNone then "Only base64 data is allowed"
    else if 0 < pads then "Discontinuous padding not allowed"
    else if held == 3 then complaintFrom 0 (groups + 1) 0 cs
    else complaintFrom (held + 1) groups 0 cs

/-- What is said of a text that is not well formed. -/
def complaint : List Char → String
  | '=' :: _ => "Leading padding not allowed"
  | cs => complaintFrom 0 0 0 cs

/-- The text with equals signs behind it, up to a length that four divides. -/
def padded (cs : List Char) : List Char :=
  cs ++ List.replicate ((4 - cs.length % 4) % 4) '='

/-- The text with the two signs of the alphabet for addresses as those of the standard one. -/
def toStandard (cs : List Char) : List Char :=
  cs.map fun c => if c == '-' then '+' else if c == '_' then '/' else c

end Base64

end Text

end Liquid
