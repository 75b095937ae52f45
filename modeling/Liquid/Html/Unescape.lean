import Liquid.Html.Entity
import Liquid.Html.Escape

/-!
# Unescaping

Character references replaced by what they stand for, the way browsers read
them. A name may lack its semicolon, and may have other letters behind it: the
longest known name at the start counts and the rest stays. A number may name
no character of use. Those of the old Windows code page are read as that code
page has them, surrogates and numbers out of range become the replacement
character, and controls and points that are no characters vanish.

## Main definitions

* `numbered`: The characters that the number of a reference stands for.
* `longestName`: The known name at the start of a run of letters, replaced.
* `reference?`: What an ampersand begins, and the text behind it.
* `unescape`: A text with its references replaced.

## Theorems

* `length_reference?_le`: A reference leaves no more text than there was.
-/

namespace Liquid

namespace Html

/-- The characters of the old Windows code page from 0x80 on, by their code points. -/
def windowsPoints : List Nat :=
  [0x20AC, 0x81, 0x201A, 0x192, 0x201E, 0x2026, 0x2020, 0x2021, 0x2C6, 0x2030, 0x160, 0x2039,
    0x152, 0x8D, 0x17D, 0x8F, 0x90, 0x2018, 0x2019, 0x201C, 0x201D, 0x2022, 0x2013, 0x2014, 0x2DC,
    0x2122, 0x161, 0x203A, 0x153, 0x9D, 0x17E, 0x178]

/-- Whether the point is a control, or one that is set aside for no character. -/
def isNoCharacter (n : Nat) : Bool :=
  (1 ≤ n && n ≤ 8) || n == 11 || (14 ≤ n && n ≤ 31) || (127 ≤ n && n ≤ 159)
    || (0xFDD0 ≤ n && n ≤ 0xFDEF) || n % 0x10000 == 0xFFFE || n % 0x10000 == 0xFFFF

/-- The characters that the number of a reference stands for. -/
def numbered (n : Nat) : List Char :=
  if n == 0 then [Char.ofNat 0xFFFD]
  else if 128 ≤ n && n ≤ 159 then (windowsPoints[n - 128]?).toList.map Char.ofNat
  else if (0xD800 ≤ n && n ≤ 0xDFFF) || 0x10FFFF < n then [Char.ofNat 0xFFFD]
  else if isNoCharacter n then []
  else [Char.ofNat n]

/-- Whether the character may stand in the name of a reference. -/
def isNameChar (c : Char) : Bool :=
  !(c == '\t' || c == '\n' || c == '\x0c' || c == ' ' || c == '<' || c == '&' || c == '#'
    || c == ';')

/-- The name replaced, if one of its first `n` beginnings of at least two letters is known, by
what the longest of them stands for and the letters behind it. -/
def longestName (name : List Char) : Nat → Option (List Char)
  | n + 2 =>
    match Entity.lookup (name.take (n + 2)) with
    | some found => some (found ++ name.drop (n + 2))
    | none => longestName name (n + 1)
  | _ => none

/-- A name replaced: by what it stands for, or by what its longest known beginning stands for and
the letters behind that. An unknown name keeps its ampersand. -/
def resolveName (name : List Char) : List Char :=
  ((Entity.lookup name).or (longestName name (name.length - 1))).getD ('&' :: name)

/-- The text without the semicolon that it may start with. -/
def skipSemicolon : List Char → List Char
  | ';' :: cs => cs
  | cs => cs

/-- The number that digits of a base write. -/
def numeral (base : Nat) (digits : List Char) : Nat :=
  digits.foldl
    (fun n c =>
      base * n +
        (if c.isDigit then c.toNat - '0'.toNat
          else if 'a' ≤ c then c.toNat - 'a'.toNat + 10
          else c.toNat - 'A'.toNat + 10))
    0

/-- What the text behind an ampersand stands for, if it is a reference, and what follows it. -/
def reference? : List Char → Option (List Char × List Char)
  | '#' :: cs =>
    let digits := cs.takeWhile Char.isDigit
    if !digits.isEmpty then
      some (numbered (numeral 10 digits), skipSemicolon (cs.drop digits.length))
    else
      let hexDigits := (cs.drop 1).takeWhile isHexDigit
      if (cs.head? == some 'x' || cs.head? == some 'X') && !hexDigits.isEmpty then
        some (numbered (numeral 16 hexDigits), skipSemicolon ((cs.drop 1).drop hexDigits.length))
      else none
  | cs =>
    let name := (cs.takeWhile isNameChar).take 32
    if name.isEmpty then none
    else
      -- A semicolon is read with the name, and stays if the name is not known.
      let rest := cs.drop name.length
      some (resolveName (name ++ (rest.takeWhile (· == ';')).take 1), skipSemicolon rest)

theorem length_skipSemicolon_le (cs : List Char) : (skipSemicolon cs).length ≤ cs.length := by
  unfold skipSemicolon
  split <;> simp

theorem length_reference?_le {cs found rest : List Char}
    (h : reference? cs = some (found, rest)) : rest.length ≤ cs.length := by
  have drop_le (n : Nat) (l : List Char) : (skipSemicolon (l.drop n)).length ≤ l.length :=
    Nat.le_trans (length_skipSemicolon_le _) (by simp)
  unfold reference? at h
  split at h
  · dsimp only at h
    split at h
    · simp only [Option.some.injEq, Prod.mk.injEq] at h
      rw [← h.2]
      exact Nat.le_trans (drop_le _ _) (by simp)
    · split at h
      · simp only [Option.some.injEq, Prod.mk.injEq] at h
        rw [← h.2]
        refine Nat.le_trans (drop_le _ _) ?_
        simp only [List.length_drop, List.length_cons]
        omega
      · simp at h
  · dsimp only at h
    split at h
    · simp at h
    · simp only [Option.some.injEq, Prod.mk.injEq] at h
      rw [← h.2]
      exact drop_le _ _

/-- The text with its character references replaced. -/
def unescape : List Char → List Char
  | [] => []
  | c :: cs =>
    if c == '&' then
      match _h : reference? cs with
      | some (found, rest) => found ++ unescape rest
      | none => c :: unescape cs
    else c :: unescape cs
termination_by cs => cs.length
decreasing_by
  · have := length_reference?_le _h
    simp only [List.length_cons]
    omega
  · simp
  · simp

end Html

end Liquid
