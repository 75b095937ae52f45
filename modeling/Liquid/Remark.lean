import Liquid.Text.Quoted
import Liquid.Token

/-!
# Remarks

What the engine notes for its operator while it works. A remark is kept as the
fact that it states; the component that states it, its level and its wording
are functions of that. So a computation can say what it saw without deciding
whether anyone reads it, and one filter by level decides that at the end.

## Main definitions

* `Level`: How much a remark matters.
* `Remark`: The facts.
* `Remark.level`, `Remark.source`, `Remark.wording`: How a remark is told.
* `Remark.line`: A remark as a line of a log.
-/

namespace Liquid

/-- How much a remark matters. -/
inductive Level
  | debug
  | info
  | warning
  | error
  | critical
deriving DecidableEq

namespace Level

/-- The levels from the lowest to the highest. -/
def all : List Level :=
  [debug, info, warning, error, critical]

/-- The name of a level. -/
def name : Level → String
  | debug => "DEBUG"
  | info => "INFO"
  | warning => "WARNING"
  | error => "ERROR"
  | critical => "CRITICAL"

/-- The number that ranks a level. -/
def number : Level → Nat
  | debug => 10
  | info => 20
  | warning => 30
  | error => 40
  | critical => 50

/-- The level with the given name. -/
def ofName? (name : String) : Option Level :=
  all.find? fun level => level.name == name

end Level

/-- The kinds of registry entries. -/
inductive EntryKind
  | filter
  | tag
  | operator
deriving DecidableEq

/-- The name of a kind of entry. -/
def EntryKind.name : EntryKind → String
  | filter => "filter"
  | tag => "tag"
  | operator => "operator"

/-- A fact noted for the operator. -/
inductive Remark
  /-- A construct was left open and let pass. -/
  | unclosed (construct : Unclosed) (opened : Place)
  /-- An entry took the name of a built-in one. -/
  | overridden (kind : EntryKind) (name : String)
  /-- A text was to be shown as a date and is none. -/
  | noDate (text : String)
  | tokenized (tokens : Nat)
  | arranged (tokens nodes : Nat)
  | compiled (characters : Nat)
  | rendered (nodes chunks : Nat)
deriving DecidableEq

namespace Remark

/-- The level of a remark: what may surprise is a warning, what merely happened is for debugging. -/
def level : Remark → Level
  | unclosed .. => .warning
  | overridden .. => .warning
  | _ => .debug

/-- The component that a remark comes from. -/
def source : Remark → String
  | unclosed .. => "liquidkit.lexer"
  | overridden .. => "liquidkit.environment"
  | noDate _ => "liquidkit.filters.misc"
  | tokenized _ => "liquidkit.lexer"
  | arranged .. => "liquidkit.compiler"
  | compiled _ => "liquidkit.template"
  | rendered .. => "liquidkit.renderer"

/-- The wording of a remark. -/
def wording : Remark → String
  | unclosed construct opened =>
    located construct.description (some opened) ++ ", " ++ construct.remedy
  | overridden kind name => "Overriding built-in " ++ kind.name ++ " '" ++ name ++ "'"
  | noDate text => "date: cannot interpret " ++ Text.quoted text ++ " as a date"
  | tokenized tokens => "Tokenized template into " ++ toString tokens ++ " tokens"
  | arranged tokens nodes =>
    "Compiled " ++ toString tokens ++ " tokens into " ++ toString nodes ++ " root nodes"
  | compiled characters => "Compiled template of " ++ toString characters ++ " characters"
  | rendered nodes chunks =>
    "Rendered " ++ toString nodes ++ " root nodes into " ++ toString chunks ++ " chunks"

/-- The remark under the name of its source. -/
def text (remark : Remark) : String :=
  remark.source ++ ": " ++ remark.wording

/-- The remark as a line of a log. -/
def line (remark : Remark) : String :=
  "[" ++ remark.level.name ++ "] " ++ remark.text ++ "\n"

/-- The remarks of a level at least as high as the given one, as a log. -/
def log (threshold : Level) (remarks : List Remark) : String :=
  String.join
    ((remarks.filter fun remark => threshold.number ≤ remark.level.number).map line)

end Remark

end Liquid
