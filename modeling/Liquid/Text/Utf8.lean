/-!
# UTF-8

Characters as bytes and back. The reader answers one result per character: the
character, or `none` for an ill-formed part. Both uses need only that: strict
reading refuses any `none`, lenient reading shows it as the replacement
character.

An ill-formed part is as long as it could have been the beginning of a
character, and one byte at least. So a broken sequence costs one replacement
and the byte that broke it is read afresh.

## Main definitions

* `Utf8.encodeChar`, `Utf8.encode`: The bytes of characters.
* `Utf8.next`: The first character of some bytes, and the bytes behind it.
* `Utf8.decode`: All characters, with the ill-formed parts among them.
* `Utf8.decode?`: The characters of well-formed bytes.
* `Utf8.decodeLenient`: The characters, each ill-formed part replaced.
* `Utf8.complaint`: What is said of the first ill-formed part.

## Theorems

* `Utf8.length_next_le`: Reading a character never adds bytes.
-/

namespace Liquid

namespace Text

namespace Utf8

/-- The bytes of one character. -/
def encodeChar (c : Char) : List Nat :=
  let n := c.toNat
  if n < 0x80 then [n]
  else if n < 0x800 then [0xC0 + n / 0x40, 0x80 + n % 0x40]
  else if n < 0x10000 then [0xE0 + n / 0x1000, 0x80 + n / 0x40 % 0x40, 0x80 + n % 0x40]
  else [0xF0 + n / 0x40000, 0x80 + n / 0x1000 % 0x40, 0x80 + n / 0x40 % 0x40, 0x80 + n % 0x40]

/-- The bytes of a text. -/
def encode (cs : List Char) : List Nat :=
  cs.flatMap encodeChar

/-- Reads `count` more bytes of a character whose bits so far are `bits`. The first of them lies
between `low` and `high`, each later one is any continuation byte. -/
def continued (low high : Nat) : Nat → Nat → List Nat → Option Char × List Nat
  | 0, bits, rest => (some (Char.ofNat bits), rest)
  | _ + 1, _, [] => (none, [])
  | count + 1, bits, byte :: rest =>
    if low ≤ byte && byte ≤ high then continued 0x80 0xBF count (bits * 0x40 + byte % 0x40) rest
    else (none, byte :: rest)

/-- The character that a first byte begins, `none` if it is ill-formed, and the bytes behind it. -/
def next (lead : Nat) (rest : List Nat) : Option Char × List Nat :=
  if lead < 0x80 then (some (Char.ofNat lead), rest)
  else if lead < 0xC2 then (none, rest)
  else if lead < 0xE0 then continued 0x80 0xBF 1 (lead % 0x20) rest
  else if lead < 0xF0 then
    continued (if lead == 0xE0 then 0xA0 else 0x80) (if lead == 0xED then 0x9F else 0xBF) 2
      (lead % 0x10) rest
  else if lead < 0xF5 then
    continued (if lead == 0xF0 then 0x90 else 0x80) (if lead == 0xF4 then 0x8F else 0xBF) 3
      (lead % 0x08) rest
  else (none, rest)

theorem length_continued_le (low high count bits : Nat) (rest : List Nat) :
    (continued low high count bits rest).2.length ≤ rest.length := by
  fun_induction continued low high count bits rest with
  | case1 => simp
  | case2 => simp
  | case3 low high bits count byte rest h ih => simp; omega
  | case4 => simp

theorem length_next_le (lead : Nat) (rest : List Nat) :
    (next lead rest).2.length ≤ rest.length := by
  unfold next
  repeat' split
  all_goals first | exact Nat.le_refl _ | exact length_continued_le ..

/-- All characters, with `none` for each ill-formed part. -/
def decode : List Nat → List (Option Char)
  | [] => []
  | lead :: rest => (next lead rest).1 :: decode (next lead rest).2
termination_by bytes => bytes.length
decreasing_by
  have := length_next_le lead rest
  simp only [List.length_cons]
  omega

/-- The characters of well-formed bytes; `none` if any part is ill-formed. -/
def decode? (bytes : List Nat) : Option (List Char) :=
  (decode bytes).mapM id

/-- The characters, with the replacement character for each ill-formed part. -/
def decodeLenient (bytes : List Nat) : List Char :=
  (decode bytes).map fun c => c.getD (Char.ofNat 0xFFFD)

/-- Why a first byte and those behind it are ill-formed, where `behind` is left. -/
def flaw (lead : Nat) (behind : List Nat) : String :=
  if lead < 0xC2 || 0xF5 ≤ lead then "invalid start byte"
  else if behind.isEmpty then "unexpected end of data"
  else "invalid continuation byte"

/-- Which bytes are ill-formed: so many from the position on, with the given one first. -/
def extent (lead position width : Nat) : String :=
  if width == 1 then
    "byte 0x" ++ String.ofList (Nat.toDigits 16 lead) ++ " in position " ++ toString position
  else
    "bytes in position " ++ toString position ++ "-" ++ toString (position + width - 1)

/-- What is said of the first ill-formed part of bytes that start at the position. -/
def complaintFrom (position : Nat) : List Nat → String
  | [] => ""
  | lead :: rest =>
    let behind := (next lead rest).2
    let width := rest.length + 1 - behind.length
    if (next lead rest).1.isSome then complaintFrom (position + width) behind
    else "'utf-8' codec can't decode " ++ extent lead position width ++ ": " ++ flaw lead behind
termination_by bytes => bytes.length
decreasing_by
  have := length_next_le lead rest
  simp only [List.length_cons]
  omega

/-- What is said of bytes that are not well formed. -/
def complaint (bytes : List Nat) : String :=
  complaintFrom 0 bytes

end Utf8

end Text

end Liquid
