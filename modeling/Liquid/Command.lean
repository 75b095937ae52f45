/-!
# Commands

What the command line can be asked for. A template is rendered or checked. It
is read from a file or, by a hyphen, from the standard input; so are the data
that it is rendered with.

## Main definitions

* `Command.Verb`: What is done with the template.
* `Command.Invocation`: A template, what is done with it, and how.
* `Command.Request`: What some arguments ask for.
-/

namespace Liquid

namespace Command

/-- What is done with the template. -/
inductive Verb
  | render
  /-- The template is compiled only. -/
  | check
deriving DecidableEq

/-- The verb with the given name. -/
def Verb.ofName? : String → Option Verb
  | "render" => some render
  | "check" => some check
  | _ => none

/-- A template, what is done with it, and how. -/
structure Invocation where
  verb : Verb
  template : String
  config : Option String
  data : Option String
  /-- Whether a construct that is left open is an error, whatever the settings say. -/
  strict : Bool
  /-- Whether all remarks are shown. -/
  verbose : Bool
deriving DecidableEq

/-- What some arguments ask for. -/
inductive Request
  | run (invocation : Invocation)
  | help
  | version
  /-- The arguments make no sense. -/
  | misuse
deriving DecidableEq

/-- The line about the version. -/
def versionLine : String :=
  "liquidkit 0.1.0\n"

/-- How the command line is used. -/
def usage : String :=
  "usage: liquidkit [-h] [-v] [--verbose] render TEMPLATE [--config FILE] [--strict]"
    ++ " [--data FILE]\n"
    ++ "       liquidkit [-h] [-v] [--verbose] check TEMPLATE [--config FILE] [--strict]\n"

end Command

end Liquid
