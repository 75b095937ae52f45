import Liquid.Moment
import Liquid.Power

/-!
# ISO Dates

Reading the standard notation for moments. A date is a year with a month and a
day, or with a week and maybe a day of it, with hyphens or without. Any single
character may stand between date and time. A time is one to three pairs of
digits, with colons or without, and a fraction behind the third; behind it may
follow a distance from universal time in the same form.

Where the date ends is found first, from its form alone. Only a week date
without hyphens needs a look further. If digits follow, one of them stands
between date and time, and time comes in pairs; so their number tells whether
the date has a day.

## Main definitions

* `Iso.dateLength?`: The length of the date at the start of a text.
* `Iso.date?`: The year, month and day that a text writes.
* `Iso.clock?`: The time of day at the start of a text.
* `Iso.read?`: The moment that a text writes.
-/

namespace Liquid

namespace Iso

/-- The number that so many digits at the start of a text write, and what follows them. -/
def digits? (acc : Nat) : Nat → List Char → Option (Nat × List Char)
  | 0, cs => some (acc, cs)
  | count + 1, c :: cs =>
    if c.isDigit then digits? (10 * acc + (c.toNat - '0'.toNat)) count cs else none
  | _ + 1, [] => none

/-- The length of the date at the start of a text. -/
def dateLength? (cs : List Char) : Option Nat :=
  let at? (index : Nat) : Option Char := cs[index]?
  if cs.length < 7 then none
  else if cs.length == 7 then some 7
  else if at? 4 == some '-' then
    if at? 5 == some 'W' then
      if at? 8 == some '-' then
        -- A hyphen must be followed by the day of the week, unless the time starts there.
        if cs.length == 9 then none
        else if (at? 10).any Char.isDigit then some 8
        else some 10
      else some 8
    else some 10
  else if at? 4 == some 'W' then
    -- One digit may stand between date and time here; what is left of them comes in pairs.
    let stop := 7 + ((cs.drop 7).takeWhile Char.isDigit).length
    some (if stop < 9 then stop else if stop % 2 == 0 then 7 else 8)
  else some 8

/-- The date of a day of a week. -/
def weekDate? (year week day : Nat) : Option (Nat × Nat × Nat) :=
  let isLong := (Moment.firstMonday (year + 1) - Moment.firstMonday year) / 7 == 53
  if year < 1 || 9999 < year || week < 1 || 53 < week || (week == 53 && !isLong) || day < 1
      || 7 < day then none
  else some (dateOf (Moment.firstMonday year + 7 * (week - 1) + (day - 1)))

/-- What follows the hyphen that dates of this form have. -/
def skipHyphen? (hyphens : Bool) : List Char → Option (List Char)
  | '-' :: cs => if hyphens then some cs else some ('-' :: cs)
  | cs => if hyphens then none else some cs

/-- The year, month and day that a text writes. -/
def date? (cs : List Char) : Option (Nat × Nat × Nat) := do
  let (year, cs) ← digits? 0 4 cs
  let hyphens := cs.head? == some '-'
  let cs := if hyphens then cs.drop 1 else cs
  match cs with
  | 'W' :: cs =>
    let (week, cs) ← digits? 0 2 cs
    if cs.isEmpty then weekDate? year week 1
    else
      let cs ← skipHyphen? hyphens cs
      let (day, cs) ← digits? 0 1 cs
      if cs.isEmpty then weekDate? year week day else none
  | cs =>
    let (month, cs) ← digits? 0 2 cs
    let cs ← skipHyphen? hyphens cs
    let (day, cs) ← digits? 0 2 cs
    if cs.isEmpty then some (year, month, day) else none

/-- A time of day, or a distance in time. -/
structure Clock where
  hour : Nat
  minute : Nat
  second : Nat
  micro : Nat

/-- The clock with the parts read so far, the last one first. -/
def Clock.ofParts (parts : List Nat) (micro : Nat) : Clock :=
  let parts := parts.reverse
  ⟨parts[0]?.getD 0, parts[1]?.getD 0, parts[2]?.getD 0, micro⟩

/-- The fraction of a second that a text starts with, in microseconds, and what follows it. Digits
beyond the sixth are passed over. -/
def fraction? (cs : List Char) : Option (Nat × List Char) := do
  let count := min 6 cs.length
  let (number, rest) ← digits? 0 count cs
  some (number * tenTo (6 - count), rest.dropWhile Char.isDigit)

/-- The clock that a text starts with, and what follows it. Of the pairs of digits, `parts` are
read and so many may come; once one is read, it is known whether colons stand between them. An
ASCII sign that is last in the text is left over, whatever it is. -/
def clockFrom? (parts : List Nat) (colons : Option Bool) :
    Nat → List Char → Option (Clock × List Char)
  | 0, cs => do
    let (micro, rest) ← fraction? cs
    some (.ofParts parts micro, rest)
  | count + 1, cs => do
    let (part, cs) ← digits? 0 2 cs
    let parts := part :: parts
    match cs with
    | [] => some (.ofParts parts 0, [])
    | c :: rest =>
      let colons := colons.getD (c == ':')
      if rest.isEmpty && c.toNat < 0x80 then some (.ofParts parts 0, [c])
      else if colons && c == ':' then clockFrom? parts (some colons) count rest
      else if c == '.' || c == ',' then do
        let (micro, rest) ← fraction? rest
        some (.ofParts parts micro, rest)
      else if !colons then clockFrom? parts (some colons) count (c :: rest)
      else none

/-- The clock that a text starts with, and what follows it. -/
def clock? (cs : List Char) : Option (Clock × List Char) :=
  clockFrom? [] none 3 cs

/-- Whether the character starts a distance from universal time. -/
def startsOffset (c : Char) : Bool :=
  c == '+' || c == '-' || c == 'Z'

/-- The distance from universal time that a text writes, in microseconds. Distances of less than a
second are none. -/
def offset? : List Char → Option Int
  | 'Z' :: rest => if rest.isEmpty then some 0 else none
  | sign :: cs => do
    let (clock, rest) ← clock? cs
    if rest.isEmpty then
      let seconds := 3600 * clock.hour + 60 * clock.minute + clock.second
      let micros : Int :=
        if seconds == 0 then 0 else (seconds * Moment.microsPerSecond + clock.micro : Nat)
      some (if sign == '-' then -micros else micros)
    else none
  | [] => none

/-- The time of day that a text writes, and the distance from universal time if it has one. Before
that, something may be left over. -/
def time? (cs : List Char) : Option (Clock × Option Int) := do
  let (clock, rest) ← clock? (cs.takeWhile fun c => !startsOffset c)
  match cs.dropWhile fun c => !startsOffset c with
  | [] => if rest.isEmpty then some (clock, none) else none
  | behind =>
    let offset ← offset? behind
    some (clock, some offset)

/-- The moment that a text writes. -/
def read? (cs : List Char) : Option Moment := do
  let length ← dateLength? cs
  let (year, month, day) ← date? (cs.take length)
  let (clock, offset) ←
    match cs.drop length with
    | [] => some (⟨0, 0, 0, 0⟩, none)
    | _ :: time => time? time
  let moment : Moment :=
    ⟨year, month, day, clock.hour, clock.minute, clock.second, clock.micro, offset⟩
  if moment.isValid then some moment else none

end Iso

end Liquid
