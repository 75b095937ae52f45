import Liquid.Moment
import Liquid.Text.Quoted

/-!
# Date Formats

A moment as text, by a format in which a percent sign and a letter stand for a
part of it. Between the two may stand flags and a width. A flag changes how a
number is filled up, or the case of a name; a width fills up from the left.
What makes no sense as a directive stays as it is.

Names are those of English, and the composed directives those of the plain
locale. Three directives are filled in before all others: the microseconds and
the two about universal time, which show nothing where the distance from
universal time is unknown. They have no flags or width; with these the last two
show nothing, and the first makes no sense.

## Main definitions

* `Format.Flags`: What stands between a percent sign and its letter.
* `Format.directive?`: What a letter stands for.
* `Format.filledIn`, `Format.run`: The two passes over a format.
* `Moment.format`: A moment in a format.
-/

namespace Liquid

namespace Format

/-- How a number is filled up. -/
inductive Fill
  /-- As the directive would have it. -/
  | plain
  | zeros
  | blanks
  | nothing
deriving DecidableEq

/-- What stands between a percent sign and its letter. -/
structure Flags where
  fill : Fill
  upper : Bool
  swap : Bool
  width : Nat

/-- No flags. -/
def Flags.none : Flags := ⟨.plain, false, false, 0⟩

/-- The names of the weekdays from Sunday on. -/
def weekdayNames : List String :=
  ["Sunday", "Monday", "Tuesday", "Wednesday", "Thursday", "Friday", "Saturday"]

/-- The names of the months. -/
def monthNames : List String :=
  ["January", "February", "March", "April", "May", "June", "July", "August", "September",
    "October", "November", "December"]

/-- A text filled up to the width from the left, with zeros if they are asked for. -/
def widened (flags : Flags) (cs : List Char) : List Char :=
  List.replicate (flags.width - cs.length) (if flags.fill == .zeros then '0' else ' ') ++ cs

/-- A number of at least so many digits, or as many as the width asks for, filled up as its flags
say. -/
def number (flags : Flags) (digits n : Nat) : List Char :=
  let cs := Nat.toDigits 10 n
  let missing := max digits flags.width - cs.length
  match flags.fill with
  | .nothing => widened flags cs
  | .blanks => List.replicate missing ' ' ++ cs
  | _ => List.replicate missing '0' ++ cs

/-- A number that blanks fill up unless its flags say otherwise. -/
def blankNumber (flags : Flags) (n : Nat) : List Char :=
  number (if flags.fill == .plain then { flags with fill := .blanks } else flags) 2 n

/-- A name, in capitals if a flag asks for that. -/
def name (flags : Flags) (text : String) : List Char :=
  let cs := text.toList
  widened flags (if flags.upper || flags.swap then cs.map Char.toUpper else cs)

/-- The two halves of a day. -/
def halfDay (flags : Flags) (lower : Bool) (m : Moment) : List Char :=
  let cs := if m.hour < 12 then ['A', 'M'] else ['P', 'M']
  widened flags (if lower || flags.swap then cs.map Char.toLower else cs)

/-- A composed part, in capitals if a flag asks for that. -/
def composed (flags : Flags) (cs : List Char) : List Char :=
  widened flags (if flags.upper then cs.map Char.toUpper else cs)

/-- The hour on a dial of twelve. -/
def dialHour (m : Moment) : Nat :=
  if m.hour % 12 == 0 then 12 else m.hour % 12

/-- A number of two digits without flags. -/
def two (n : Nat) : List Char :=
  number .none 2 n

/-- The month, day and short year between slashes. -/
def slashDate (m : Moment) : List Char :=
  two m.month ++ '/' :: two m.day ++ '/' :: two (m.year % 100)

/-- The hour and minute. -/
def hourMinute (m : Moment) : List Char :=
  two m.hour ++ ':' :: two m.minute

/-- The time of day. -/
def clock (m : Moment) : List Char :=
  hourMinute m ++ ':' :: two m.second

/-- The first three letters of the name of a weekday or month. -/
def short (names : List String) (index : Nat) : String :=
  ((names[index]?.getD "").take 3).toString

/-- The number of the week in its year, weeks beginning with the given day of the week. -/
def weekOfYear (first : Nat) (m : Moment) : Nat :=
  (m.dayOfYear + 7 - (m.weekday + 7 - first) % 7) / 7

/-- What a letter stands for. -/
def directive? (flags : Flags) (m : Moment) : Char → Option (List Char)
  | '%' => some (widened flags ['%'])
  | 'n' => some (widened flags ['\n'])
  | 't' => some (widened flags ['\t'])
  | 'a' => some (name flags (short weekdayNames m.weekday))
  | 'A' => some (name flags (weekdayNames[m.weekday]?.getD ""))
  | 'b' => some (name flags (short monthNames (m.month - 1)))
  | 'h' => some (name flags (short monthNames (m.month - 1)))
  | 'B' => some (name flags (monthNames[m.month - 1]?.getD ""))
  | 'c' => some (composed flags
      ((short weekdayNames m.weekday).toList ++ ' ' :: (short monthNames (m.month - 1)).toList
        ++ ' ' :: blankNumber .none m.day ++ ' ' :: clock m ++ ' ' :: number .none 1 m.year))
  | 'C' => some (number flags 2 (m.year / 100))
  | 'd' => some (number flags 2 m.day)
  | 'D' => some (composed flags (slashDate m))
  | 'e' => some (blankNumber flags m.day)
  | 'F' => some (composed flags
      (number .none 1 m.year ++ '-' :: two m.month ++ '-' :: two m.day))
  | 'g' => some (number flags 2 (m.isoWeek.1 % 100))
  | 'G' => some (number flags 1 m.isoWeek.1)
  | 'H' => some (number flags 2 m.hour)
  | 'I' => some (number flags 2 (dialHour m))
  | 'j' => some (number flags 3 (m.dayOfYear + 1))
  | 'k' => some (blankNumber flags m.hour)
  | 'l' => some (blankNumber flags (dialHour m))
  | 'm' => some (number flags 2 m.month)
  | 'M' => some (number flags 2 m.minute)
  | 'p' => some (halfDay flags false m)
  | 'P' => some (halfDay flags true m)
  | 'r' => some (composed flags
      (two (dialHour m) ++ ':' :: two m.minute ++ ':' :: two m.second
        ++ ' ' :: halfDay .none false m))
  | 'R' => some (composed flags (hourMinute m))
  | 'S' => some (number flags 2 m.second)
  | 'T' => some (composed flags (clock m))
  | 'u' => some (number flags 1 ((m.weekday + 6) % 7 + 1))
  | 'U' => some (number flags 2 (weekOfYear 0 m))
  | 'V' => some (number flags 2 m.isoWeek.2)
  | 'w' => some (number flags 1 m.weekday)
  | 'W' => some (number flags 2 (weekOfYear 1 m))
  | 'x' => some (composed flags (slashDate m))
  | 'X' => some (composed flags (clock m))
  | 'y' => some (number flags 2 (m.year % 100))
  | 'Y' => some (number flags 1 m.year)
  -- What is left of these two has flags, and then they show nothing.
  | 'z' => some []
  | 'Z' => some (if flags.fill == .nothing then [] else widened flags [])
  | _ => none

/-- A distance from universal time, with its hours and minutes, and finer parts if it has any. -/
def distance (separator : List Char) (offset : Int) : List Char :=
  let total := offset.natAbs
  let micros := total % Moment.microsPerSecond
  let seconds := total / Moment.microsPerSecond
  (if offset < 0 then '-' else '+') :: two (seconds / 3600) ++ separator ++ two (seconds / 60 % 60)
    ++ (if total % (60 * Moment.microsPerSecond) == 0 then [] else separator ++ two (seconds % 60))
    ++ (if micros == 0 then [] else '.' :: number .none 6 micros)

/-- The distance from universal time. -/
def offset (m : Moment) : List Char :=
  (m.offset.map (distance [])).getD []

/-- The name of the zone, which goes by its distance from universal time. -/
def zone (m : Moment) : List Char :=
  match m.offset with
  | none => []
  | some micros => "UTC".toList ++ if micros == 0 then [] else distance [':'] micros

/-- The flags that start a text, the later of two that exclude each other being kept, and what
follows them. -/
def readFlags (flags : Flags) : List Char → Flags × List Char
  | [] => (flags, [])
  | c :: cs =>
    if c == '_' then readFlags { flags with fill := .blanks } cs
    else if c == '-' then readFlags { flags with fill := .nothing } cs
    else if c == '0' then readFlags { flags with fill := .zeros } cs
    else if c == '^' then readFlags { flags with upper := true } cs
    else if c == '#' then readFlags { flags with swap := true } cs
    else (flags, c :: cs)

/-- The width that starts a text, and what follows it. -/
def readWidth (width : Nat) : List Char → Nat × List Char
  | [] => (width, [])
  | c :: cs =>
    if c.isDigit then readWidth (10 * width + (c.toNat - '0'.toNat)) cs else (width, c :: cs)

theorem length_readFlags_le (flags : Flags) (cs : List Char) :
    (readFlags flags cs).2.length ≤ cs.length := by
  fun_induction readFlags flags cs <;> simp_all <;> omega

theorem length_readWidth_le (width : Nat) (cs : List Char) :
    (readWidth width cs).2.length ≤ cs.length := by
  fun_induction readWidth width cs <;> simp_all
  omega

/-- The flags and width that start a text, and what follows them. -/
def readModifiers (cs : List Char) : Flags × List Char :=
  let (flags, rest) := readFlags .none cs
  let (width, rest) := readWidth 0 rest
  ({ flags with width := width }, rest)

theorem length_readModifiers_le (cs : List Char) :
    (readModifiers cs).2.length ≤ cs.length := by
  unfold readModifiers
  exact Nat.le_trans (length_readWidth_le _ _) (length_readFlags_le _ _)

/-- The format with the microseconds and what is said of universal time filled in. A percent sign
always goes with the character behind it here, so that a doubled one stays. -/
def filledIn (m : Moment) : List Char → List Char
  | '%' :: 'f' :: cs => number .none 6 m.micro ++ filledIn m cs
  | '%' :: 'z' :: cs => offset m ++ filledIn m cs
  | '%' :: 'Z' :: cs => zone m ++ filledIn m cs
  | '%' :: c :: cs => '%' :: c :: filledIn m cs
  | c :: cs => c :: filledIn m cs
  | [] => []

/-- What the directive behind a percent sign stands for, and what follows it. One that makes no
sense stands for itself. -/
def expanded (m : Moment) (cs : List Char) : List Char × List Char :=
  match (readModifiers cs).2 with
  | [] => ('%' :: cs, [])
  | letter :: rest =>
    -- The flags apply to a directive that makes no sense as to a text.
    let flags := (readModifiers cs).1
    let written := '%' :: cs.take (cs.length - rest.length)
    ((directive? flags m letter).getD (composed flags written), rest)

theorem length_expanded_le (m : Moment) (cs : List Char) :
    (expanded m cs).2.length ≤ cs.length := by
  have h := length_readModifiers_le cs
  unfold expanded
  split
  · simp
  · next hrest =>
    rw [hrest] at h
    simp only [List.length_cons] at h ⊢
    omega

/-- A moment in a format in which nothing is left to be filled in. -/
def run (m : Moment) : List Char → List Char
  | [] => []
  | c :: cs =>
    if c == '%' then (expanded m cs).1 ++ run m (expanded m cs).2
    else c :: run m cs
termination_by cs => cs.length
decreasing_by
  · have := length_expanded_le m cs
    simp only [List.length_cons]
    omega
  · simp

/-- The part of a format before a null character, which ends it. -/
def visible (format : List Char) : List Char :=
  format.takeWhile (·.toNat != 0)

end Format

/-- The moment as a text in the given format. -/
def Moment.format (m : Moment) (format : String) : String :=
  String.ofList (Format.run m (Format.filledIn m (Format.visible format.toList)))

end Liquid
