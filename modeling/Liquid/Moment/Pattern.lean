import Liquid.Moment
import Liquid.Power
import Liquid.Text.Blank
import Liquid.Text.Digit

/-!
# Date Patterns

Reading moments in other notations than the standard one, each given by a
pattern: fields, blanks and signs in a row. A field may be read in more than
one way, as one digit or two, and the first way in which the whole pattern
goes through is the one that counts. That it leaves something over does not
make it try another.

## Main definitions

* `Pattern.Item`: What a pattern is made of.
* `Pattern.Field`: The parts of a moment.
* `Pattern.ways`: The ways in which a text starts with an item.
* `Pattern.match?`: The first way in which a text starts with a pattern.
* `Pattern.known`: The notations.
* `Pattern.read?`: The moment that a text writes in one of them.
-/

namespace Liquid

namespace Pattern

/-- The parts of a moment that a pattern may hold. -/
inductive Field
  | year
  | month
  | day
  | hour
  | minute
  | second
  /-- The distance from universal time, in microseconds. -/
  | offset
  /-- What is read and not used. -/
  | weekday
deriving DecidableEq

/-- What a pattern is made of. -/
inductive Item
  | sign (c : Char)
  | blanks
  /-- A field as a number. -/
  | number (field : Field)
  /-- The month by its name, in full or by three letters. -/
  | monthName (short : Bool)
  | weekdayName
  | offset
deriving DecidableEq

/-- The names of the months. -/
def monthNames : List String :=
  ["january", "february", "march", "april", "may", "june", "july", "august", "september",
    "october", "november", "december"]

/-- The names of the weekdays, by three letters. -/
def weekdayNames : List String :=
  ["sun", "mon", "tue", "wed", "thu", "fri", "sat"]

/-- Two digits of which the first is the given one and the second is accepted, as a number. -/
def pair? (first : Char) (accepts : Char → Bool) : List Char → Option (Nat × List Char)
  | a :: b :: cs =>
    if a == first && accepts b then (Text.readNat? [a, b]).map (·, cs) else none
  | _ => none

/-- One digit that is accepted, as a number. -/
def single? (accepts : Char → Bool) : List Char → Option (Nat × List Char)
  | c :: cs => if accepts c then (Text.readNat? [c]).map (·, cs) else none
  | [] => none

/-- Whether a character lies between two others. -/
def isBetween (low high c : Char) : Bool :=
  low ≤ c && c ≤ high

/-- The ways in which a number for a field starts a text, two digits before one. A day may have a
space in the place of its first digit. -/
def numberWays (field : Field) (cs : List Char) : List (Nat × List Char) :=
  let digit := Text.isDigit
  match field with
  | .year =>
    let year := cs.take 4
    if year.length == 4 && year.all digit then
      (Text.readNat? year).toList.map (·, cs.drop 4)
    else []
  | .month =>
    [pair? '1' (isBetween '0' '2') cs, pair? '0' (isBetween '1' '9') cs,
      single? (isBetween '1' '9') cs].filterMap id
  | .day =>
    [pair? '3' (isBetween '0' '1') cs, pair? '1' digit cs, pair? '2' digit cs,
      pair? '0' (isBetween '1' '9') cs, single? (isBetween '1' '9') cs,
      if cs.head? == some ' ' then single? (isBetween '1' '9') (cs.drop 1) else none].filterMap id
  | .hour =>
    [pair? '2' (isBetween '0' '3') cs, pair? '0' digit cs, pair? '1' digit cs,
      single? digit cs].filterMap id
  | .minute =>
    ['0', '1', '2', '3', '4', '5'].filterMap (fun c => pair? c digit cs)
      ++ (single? digit cs).toList
  | .second =>
    (pair? '6' (isBetween '0' '1') cs).toList
      ++ ['0', '1', '2', '3', '4', '5'].filterMap (fun c => pair? c digit cs)
      ++ (single? digit cs).toList
  | .offset => []
  | .weekday => []

/-- What follows a name at the start of a text, in either case. -/
def afterName? : List Char → List Char → Option (List Char)
  | [], cs => some cs
  | n :: name, c :: cs => if c.toLower == n then afterName? name cs else none
  | _ :: _, [] => none

/-- The ways in which one of the names starts a text, with the number of the name from one on. -/
def nameWays (names : List String) (cs : List Char) : List (Nat × List Char) :=
  (names.zip (List.range names.length)).filterMap fun (name, i) =>
    (afterName? name.toList cs).map (i + 1, ·)

/-- Two digits of which the first is less than six. -/
def sixty? : List Char → Option (Nat × List Char)
  | a :: b :: cs =>
    if isBetween '0' '5' a && Text.isDigit b then (Text.readNat? [a, b]).map (·, cs) else none
  | _ => none

/-- The text behind a colon, if the text starts with one. -/
def skipColon : List Char → List Char
  | ':' :: cs => cs
  | cs => cs

/-- The fraction of a second that starts a text, with as many of its digits as there are up to the
sixth, in microseconds. -/
def fraction? : List Char → Option (Nat × List Char)
  | '.' :: cs =>
    let digits := (cs.takeWhile Text.isDigit).take 6
    (Text.readNat? digits).map fun n => (n * tenTo (6 - digits.length), cs.drop digits.length)
  | _ => none

/-- The seconds behind hours and minutes, which need a colon if those have one; without seconds
nothing is read. `none` if the colons do not agree. -/
def offsetSeconds (colon : Bool) (cs : List Char) : Option (Nat × List Char) :=
  match sixty? (skipColon cs) with
  | none => some (0, cs)
  | some (seconds, rest) =>
    if (cs.head? == some ':') != colon then none
    else
      match fraction? rest with
      | some (micros, rest) => some (seconds * Moment.microsPerSecond + micros, rest)
      | none => some (seconds * Moment.microsPerSecond, rest)

/-- The distance from universal time that starts a text, in microseconds. -/
def offset? : List Char → Option (Int × List Char)
  | 'Z' :: cs => some (0, cs)
  | sign :: a :: b :: cs =>
    if (sign == '+' || sign == '-') && Text.isDigit a && Text.isDigit b then do
      let hours ← Text.readNat? [a, b]
      let (minutes, rest) ← sixty? (skipColon cs)
      let (micros, rest) ← offsetSeconds (cs.head? == some ':') rest
      let total : Int := ((3600 * hours + 60 * minutes) * Moment.microsPerSecond + micros : Nat)
      some (if sign == '-' then -total else total, rest)
    else none
  | _ => none

/-- The fields that are read, the last one first. -/
abbrev Fields := List (Field × Int)

/-- The ways in which a text starts with an item. -/
def ways (item : Item) (cs : List Char) : List (Fields × List Char) :=
  match item with
  | .sign c => if cs.head? == some c then [([], cs.drop 1)] else []
  | .blanks =>
    if cs.head?.any Text.isBlank then [([], Text.stripLeft cs)] else []
  | .number field => (numberWays field cs).map fun (n, rest) => ([(field, n)], rest)
  | .monthName short =>
    let names := if short then monthNames.map fun name => (name.take 3).toString else monthNames
    (nameWays names cs).map fun (n, rest) => ([(.month, n)], rest)
  | .weekdayName => (nameWays weekdayNames cs).map fun (n, rest) => ([(.weekday, n)], rest)
  | .offset => (offset? cs).toList.map fun (n, rest) => ([(.offset, n)], rest)

/-- The first way in which a text starts with a pattern. -/
def match? : List Item → List Char → Option (Fields × List Char)
  | [], cs => some ([], cs)
  | item :: items, cs =>
    (ways item cs).findSome? fun (fields, rest) =>
      (match? items rest).map fun (more, rest) => (fields ++ more, rest)

/-- The moment with the given fields, if they are in range. -/
def momentOf? (fields : Fields) : Option Moment :=
  let get (field : Field) (default : Nat) : Nat :=
    ((fields.lookup field).map Int.toNat).getD default
  let moment : Moment :=
    ⟨get .year 1900, get .month 1, get .day 1, get .hour 0, get .minute 0, get .second 0, 0,
      fields.lookup .offset⟩
  if moment.isValid then some moment else none

/-- The date with hyphens. -/
def hyphenDate : List Item :=
  [.number .year, .sign '-', .number .month, .sign '-', .number .day]

/-- The hours and minutes of a time. -/
def hourMinute : List Item :=
  [.number .hour, .sign ':', .number .minute]

/-- The hours, minutes and seconds of a time. -/
def clock : List Item :=
  hourMinute ++ [.sign ':', .number .second]

/-- A month by name, a day and a year. -/
def nameDayYear (short : Bool) : List Item :=
  [.monthName short, .blanks, .number .day, .sign ',', .blanks, .number .year]

/-- The notations, in the order in which they are tried. -/
def known : List (List Item) :=
  [hyphenDate ++ .blanks :: clock,
    hyphenDate ++ .blanks :: hourMinute,
    [.number .year, .sign '/', .number .month, .sign '/', .number .day],
    [.number .month, .sign '/', .number .day, .sign '/', .number .year],
    [.number .day, .blanks, .monthName false, .blanks, .number .year],
    nameDayYear false,
    nameDayYear true,
    [.weekdayName, .sign ',', .blanks, .number .day, .blanks, .monthName true, .blanks,
      .number .year, .blanks] ++ clock ++ [.blanks, .offset]]

/-- The moment that all of a text writes by a pattern. -/
def readBy? (items : List Item) (cs : List Char) : Option Moment := do
  -- The first way through the pattern decides, also where another would leave nothing over.
  let (fields, rest) ← match? items cs
  if rest.isEmpty then momentOf? fields else none

/-- The moment that a text writes in one of the known notations. -/
def read? (cs : List Char) : Option Moment :=
  known.findSome? fun items => readBy? items cs

end Pattern

end Liquid
