import Liquid.Decimal.Arithmetic
import Liquid.Place

/-!
# Faults of Rendering

What can go wrong while a template is rendered. A filter may reject its input.
Such a rejection, or the lack of a filter, an operator or a tag, becomes a
rendering error, which names what failed and where.

Apart from these stand crashes. They are failures of an operation that no rule
of the language speaks of, such as asking for the length of a range longer
than any collection. A crash leaves rendering as it is, unless it happens
inside a tag of the host: then it becomes a rendering error that names the tag.

## Main definitions

* `Crash`: Failures outside the language.
* `FilterFault`: Why a filter rejects its input.
* `FilterFailure`: Either of the two, as a filter meets them.
* `RenderFault`: A rendering error.
* `EvalFault`: A rendering error or a crash.
-/

namespace Liquid

/-- A failure of an operation that no rule of the language speaks of. -/
inductive Crash
  /-- The length of a range is more than a collection can have. -/
  | rangeTooLong
  /-- A text to be decoded has characters outside ASCII. -/
  | notAscii
  /-- An option has the name of an argument that is given by position. -/
  | repeatedArgument (filter option : String)
  /-- Options without which a function cannot be called are missing. -/
  | missingOption (filter option : String)
  /-- The next position is asked of a cycle over no values. -/
  | emptyCycle
  /-- The frame of the globals is to be removed. -/
  | onlyGlobals
  /-- Unknown settings are to be listed, and the key of one is no text. -/
  | unlistedKey
  /-- A tag of the host has no way to be rendered. -/
  | notRendered (tag : String)
  /-- A failure of the host, or of a function that it lends, with its kind and wording. -/
  | host (kind wording : String)
deriving DecidableEq

/-- The wording of a crash. -/
def Crash.message : Crash → String
  | rangeTooLong => "cannot fit 'int' into an index-sized integer"
  | notAscii => "string argument should contain only ASCII characters"
  | repeatedArgument filter option =>
    filter ++ "() got multiple values for argument '" ++ option ++ "'"
  | missingOption filter option =>
    filter ++ "() missing 1 required keyword-only argument: '" ++ option ++ "'"
  | emptyCycle => "integer modulo by zero"
  | onlyGlobals => "Cannot pop the global frame"
  | unlistedKey => "expected a text as the key of a setting"
  | notRendered tag => "Tag '" ++ tag ++ "' does not render custom nodes"
  | host _ wording => wording

/-- Why a filter rejects its input. -/
inductive FilterFault
  | missingArguments (filter : String) (needed given : Nat)
  | divisionByZero
  | arithmetic (signal : Decimal.Signal)
  /-- What is said of the text comes with it. -/
  | invalidBase64 (complaint : String)
  /-- A reason of a filter of the host. -/
  | rejected (reason : String)
deriving DecidableEq

/-- The name of a failure of arithmetic. -/
def Decimal.Signal.name : Decimal.Signal → String
  | invalidOperation => "InvalidOperation"
  | overflow => "Overflow"

/-- The wording of a rejection. What is said of a text that is no base64 is left out. -/
def FilterFault.message : FilterFault → String
  | missingArguments filter needed given =>
    "'" ++ filter ++ "' expects at least " ++ toString needed ++ " argument(s), got "
      ++ toString given
  | divisionByZero => "divided by 0"
  | arithmetic signal => "arithmetic error: " ++ signal.name
  | invalidBase64 _ => "invalid base64 input"
  | rejected reason => reason

/-- The wording of a rejection with all that is said. -/
def FilterFault.fullMessage : FilterFault → String
  | invalidBase64 complaint => (invalidBase64 complaint).message ++ ": " ++ complaint
  | fault => fault.message

/-- How a filter fails. -/
inductive FilterFailure
  | rejected (fault : FilterFault)
  | crashed (crash : Crash)
deriving DecidableEq

/-- What a rendering error is about. -/
inductive RenderFault.Cause
  | unknownFilter (name : String)
  | filterFailed (name : String) (fault : FilterFault)
  | unknownOperator (name : String)
  | unknownTag (name : String)
  | tagFailed (name : String) (crash : Crash)
deriving DecidableEq

/-- A rendering error, with its place where one is known. -/
structure RenderFault where
  cause : RenderFault.Cause
  place : Option Place
deriving DecidableEq

namespace RenderFault

/-- The filter, operator or tag that failed. -/
def identifier (fault : RenderFault) : String :=
  match fault.cause with
  | .unknownFilter name => name
  | .filterFailed name _ => name
  | .unknownOperator name => name
  | .unknownTag name => name
  | .tagFailed name _ => name

/-- The wording of the cause, from that of a rejection. -/
def Cause.messageBy (rejection : FilterFault → String) : Cause → String
  | .unknownFilter name => "Unknown filter '" ++ name ++ "'"
  | .filterFailed name fault => "Filter '" ++ name ++ "' failed: " ++ rejection fault
  | .unknownOperator name => "Unknown operator '" ++ name ++ "'"
  | .unknownTag name => "Unknown tag '" ++ name ++ "'"
  | .tagFailed name crash => "Tag '" ++ name ++ "' failed: " ++ crash.message

/-- The wording of a rendering error. -/
def message (fault : RenderFault) : String :=
  located (fault.cause.messageBy FilterFault.message) fault.place

/-- The wording of a rendering error with all that is said. -/
def fullMessage (fault : RenderFault) : String :=
  located (fault.cause.messageBy FilterFault.fullMessage) fault.place

end RenderFault

/-- How evaluation fails. -/
inductive EvalFault
  | render (fault : RenderFault)
  | crash (crash : Crash)
deriving DecidableEq

end Liquid
