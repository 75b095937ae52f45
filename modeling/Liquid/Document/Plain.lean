import Liquid.Decimal.Text
import Liquid.Value.Datum

/-!
# Plain Scalars

What a scalar without quotes stands for. A few words are null or a truth value,
and some spellings are numbers; everything else is a text. Numbers may be
grouped by underscores. Integers may be written in other bases, and a leading
zero does not change the base by itself.

## Main definitions

* `Plain.integer?`: The integer that a scalar writes.
* `Plain.double?`: The double that a scalar writes.
* `Plain.datum`: What a scalar stands for.
* `Datum.key?`: A scalar as the key of a mapping.
-/

namespace Liquid

namespace Plain

/-- Whether a text is a run of the given digits and of underscores, with a digit among them. -/
def isDigits (digit : Char → Bool) (cs : List Char) : Bool :=
  cs.all (fun c => digit c || c == '_') && cs.any digit

/-- The text without its underscores. -/
def ungrouped (cs : List Char) : List Char :=
  cs.filter (· != '_')

/-- Whether a character is a digit of base sixteen. -/
def isHex (c : Char) : Bool :=
  c.isDigit || ('a' ≤ c && c ≤ 'f') || ('A' ≤ c && c ≤ 'F')

/-- The value of a digit in any of the bases. -/
def digitValue (c : Char) : Nat :=
  if c.isDigit then c.toNat - '0'.toNat
  else if 'a' ≤ c then c.toNat - 'a'.toNat + 10
  else c.toNat - 'A'.toNat + 10

/-- The number that grouped digits write in a base. -/
def inBase (base : Nat) (digit : Char → Bool) (cs : List Char) : Option Nat :=
  if isDigits digit cs then
    some ((ungrouped cs).foldl (fun n c => base * n + digitValue c) 0)
  else none

/-- The number that a text without a sign writes. -/
def magnitude? : List Char → Option Nat
  | '0' :: 'b' :: cs => inBase 2 (fun c => c == '0' || c == '1') cs
  | '0' :: 'o' :: cs => inBase 8 (fun c => '0' ≤ c && c ≤ '7') cs
  | '0' :: 'x' :: cs => inBase 16 isHex cs
  | cs => inBase 10 Char.isDigit cs

/-- The integer that a scalar writes. -/
def integer? (cs : List Char) : Option Int :=
  match cs with
  | '-' :: cs => (magnitude? cs).map fun n => -(n : Int)
  | '+' :: cs => (magnitude? cs).map fun n => (n : Int)
  | '_' :: _ => none
  | cs => (magnitude? cs).map fun n => (n : Int)

/-- Whether a text is an exponent, whose sign may be left out if that is allowed. -/
def isExponent (bare : Bool) : List Char → Bool
  | [] => true
  | e :: cs =>
    (e == 'e' || e == 'E') &&
      match cs with
      | sign :: digits =>
        if sign == '+' || sign == '-' then !digits.isEmpty && digits.all Char.isDigit
        else bare && cs.all Char.isDigit
      | [] => false

/-- Whether a text without a sign has the shape of a number with a point or an exponent. -/
def isFractional (cs : List Char) : Bool :=
  let grouped (c : Char) : Bool := c.isDigit || c == '_'
  let whole := cs.takeWhile grouped
  match whole, cs.dropWhile grouped with
  | [], '.' :: rest => isDigits Char.isDigit (rest.takeWhile grouped)
      && isExponent false (rest.dropWhile grouped)
  | first :: _, '.' :: rest => first.isDigit && isExponent true (rest.dropWhile grouped)
  | first :: _, e :: rest => first.isDigit && isExponent true (e :: rest)
  | _, _ => false

/-- The double that a scalar writes. -/
def double? (cs : List Char) : Option Double :=
  let (negative, body) := Decimal.readSign cs
  let word := String.ofList body
  if [".inf", ".Inf", ".INF"].contains word then some (.infinite negative)
  else if [".nan", ".NaN", ".NAN"].contains (String.ofList cs) then some .nan
  else if isFractional body then (Decimal.readAny? (ungrouped cs)).map Double.ofDecimal
  else none

/-- What a scalar without quotes stands for. -/
def datum (cs : List Char) : Datum :=
  let word := String.ofList cs
  if ["", "~", "null", "Null", "NULL"].contains word then .null
  else if ["true", "True", "TRUE"].contains word then .bool true
  else if ["false", "False", "FALSE"].contains word then .bool false
  else
    match integer? cs, double? cs with
    | some n, _ => .integer n
    | none, some d => .double d
    | none, none => .text word

end Plain

/-- A scalar as the key of a mapping. -/
def Datum.key? : Datum → Option Datum.Key
  | .null => some .null
  | .bool flag => some (.bool flag)
  | .integer n => some (.integer n)
  | .double d => some (.double d)
  | .text s => some (.text s)
  | _ => none

end Liquid
