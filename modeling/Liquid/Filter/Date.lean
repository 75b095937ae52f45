import Liquid.Filter
import Liquid.Moment.Format
import Liquid.Moment.Iso
import Liquid.Moment.Pattern
import Liquid.Moment.Timestamp

/-!
# The Date Filter

Values shown as dates. A number, or a text that writes one, counts seconds; any
other text is tried as a standard date and then in the other notations. What
is no date is shown as it is, and a remark says so. Without a format nothing
is a date.

The filter does not look at a clock, so no text stands for the present.

## Main definitions

* `Filter.momentOf?`: The moment that a value stands for.
* `Filter.date`: The filter, with the format that is used where none is given.
-/

namespace Liquid

namespace Filter

/-- A text with the letter for universal time at its end written as a distance. -/
def spelledOut (cs : List Char) : List Char :=
  if cs.getLast? == some 'Z' then cs.dropLast ++ "+00:00".toList else cs

/-- The moment that a text writes. -/
def momentOfText? (s : String) : Option Moment :=
  match (Value.string s).number? with
  | some number => Moment.ofTimestamp? number
  | none =>
    let text := Text.strip s.toList
    (Iso.read? (spelledOut text)).or (Pattern.read? text)

/-- The moment that a value stands for. -/
def momentOf? : Value → Option Moment
  | .integer n => Moment.ofTimestamp? (.ofInt n)
  | .decimal d => Moment.ofTimestamp? d
  | .string s => momentOfText? s
  | _ => none

/-- The format of a call: its first argument, or the default one. -/
def formatOf (default : Option String) (args : List Value) : String :=
  match args with
  | format :: _ => format.display
  | [] => default.getD ""

/-- Shows dates, by default in the given format. -/
def date (default : Option String) : Filter where
  name := "date"
  apply v args _ :=
    let format := formatOf default args
    if format.isEmpty then .ok v
    else
      match momentOf? v with
      | some moment => .ok (.string (moment.format format))
      | none => ⟨[.noDate v.display], .ok v⟩

end Filter

end Liquid
