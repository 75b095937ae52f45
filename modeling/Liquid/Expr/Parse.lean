import Liquid.Expr
import Liquid.Expr.Lexeme
import Liquid.Fault

/-!
# Reading Expressions

From lexemes to expressions:

    logical    = comparison (("and" | "or") comparison)*
    comparison = filtered (COMPARISON filtered)?
    filtered   = primary ("|" NAME (":" argument ("," argument)*)?)*
    argument   = NAME ":" primary | primary
    primary    = literal | "(" primary ".." primary ")" | path
    path       = NAME ("." NAME | "." INTEGER | "[" logical "]")*

The two logical operators share one level and group to the left. A comparison
has one operator at most. An integer has so many digits at most; to read a
longer one is no error of the language, but a crash.

Only a primary can hold other expressions, between brackets or parentheses. So
only reading a primary is recursive: it goes by a bound on the depth of
nesting, and each rule above it takes the reader of primaries as an argument.
A repetition goes by a bound on its rounds. Both bounds are the number of
lexemes, which a round and a level use up one at least of, so they are never
what ends the reading.

## Main definitions

* `Expr.Fault`: Why a source is no expression.
* `Expr.Fault.crash?`: The crash that a fault is, if it is no error of the language.
* `Parser`: From lexemes to a result and the lexemes left.
* `Parser.primary`, `Parser.filtered`, `Parser.logical`: The rules.
* `Expr.parse`: The expression that a source is.
* `Expr.parseChain`: The same for a source without operators.
-/

namespace Liquid

/-- Why a source is no expression. -/
inductive Expr.Fault
  | lexeme (fault : Lexeme.Fault)
  | empty
  | unexpectedEnd
  | unexpected (text : String)
  | noFilterName
  | noRangeDots
  | noRangeEnd
  | noPropertyName
  | noIndexEnd
  | noLoopVariable (tag : String)
  | unexpectedIn (text tag : String)
  /-- An integer has more digits than are read. -/
  | longInteger (digits : Nat)
deriving DecidableEq

namespace Expr.Fault

/-- What is wrong, apart from the source that it is wrong with. -/
def description : Expr.Fault → String
  | lexeme .unterminatedString => "Unterminated string"
  | lexeme (.unexpectedCharacter c) => "Unexpected character '" ++ c.toString ++ "'"
  | empty => "Empty expression"
  | unexpectedEnd => "Unexpected end of expression"
  | unexpected text => "Unexpected token '" ++ text ++ "'"
  | noFilterName => "Expected filter name after '|'"
  | noRangeDots => "Expected '..' in range"
  | noRangeEnd => "Expected ')' after range"
  | noPropertyName => "Expected property name after '.'"
  | noIndexEnd => "Expected ']' after index"
  | noLoopVariable tag => "Expected loop variable in '" ++ tag ++ "' tag"
  | unexpectedIn text tag => "Unexpected token '" ++ text ++ "' in '" ++ tag ++ "' tag"
  | longInteger digits =>
    "Exceeds the limit (4300 digits) for integer string conversion: value has "
      ++ toString digits ++ " digits"

/-- The wording of the error in the given source. -/
def message (fault : Expr.Fault) (source : String) : String :=
  fault.description ++ " in expression '" ++ source ++ "'"

/-- The crash that a fault is, if it is no error of the language. -/
def crash? : Expr.Fault → Option Crash
  | longInteger digits => some (.host "ValueError" (longInteger digits).description)
  | _ => none

end Expr.Fault

/-- From lexemes, without the end, to a result and the lexemes that it leaves. -/
abbrev Parser (α : Type) := List Lexeme → Except Expr.Fault (α × List Lexeme)

namespace Parser

/-- The lexemes behind the given punctuation, if they start with it. -/
def symbol? (symbol : String) : List Lexeme → Option (List Lexeme)
  | l :: ls => if l.kind == .symbol && l.text == symbol then some ls else none
  | [] => none

/-- The lexemes behind the given word, be it a keyword or a name, if they start with it. -/
def word? (word : String) : List Lexeme → Option (List Lexeme)
  | l :: ls =>
    if (l.kind == .keyword || l.kind == .identifier) && l.text == word then some ls else none
  | [] => none

/-- Requires the given punctuation. -/
def require (symbol : String) (fault : Expr.Fault) (ls : List Lexeme) :
    Except Expr.Fault (List Lexeme) :=
  match symbol? symbol ls with
  | some ls => .ok ls
  | none => .error fault

/-- Requires a name. -/
def identifier (fault : Expr.Fault) : Parser String
  | l :: ls => if l.kind == .identifier then .ok (l.text, ls) else .error fault
  | [] => .error fault

/-- Requires the end of the lexemes. -/
def finish {α : Type} (result : α) : List Lexeme → Except Expr.Fault α
  | [] => .ok result
  | l :: _ => .error (.unexpected l.text)

/-- How many digits an integer has at most. -/
def maxDigits : Nat := 4300

/-- The number that digits write, unless there are too many of them. -/
def naturalOf? (digits : List Char) : Option Nat :=
  if digits.length ≤ maxDigits then Text.readNat? digits else none

/-- The integer that a lexeme writes, unless it has too many digits. -/
def integerOf? (text : String) : Option Int :=
  match text.toList with
  | '-' :: digits => (naturalOf? digits).map fun (n : Nat) => -(n : Int)
  | digits => (naturalOf? digits).map fun (n : Nat) => (n : Int)

/-- The fault of an integer with too many digits. -/
def tooLong (l : Lexeme) : Expr.Fault :=
  .longInteger (l.text.toList.countP Text.isDigit)

/-- The value that a keyword stands for. -/
def keywordValue? : String → Option Value
  | "true" => some (.bool true)
  | "false" => some (.bool false)
  | "nil" => some .nil
  | "null" => some .nil
  | _ => none

/-- The value that a lexeme writes, if it is a literal. -/
def literal? (l : Lexeme) : Option Value :=
  match l.kind with
  | .string => some (.string l.text)
  | .integer => (integerOf? l.text).map .integer
  | .decimal => (Decimal.read? l.text.toList).map .decimal
  | .keyword => keywordValue? l.text
  | _ => none

/-- A range: a literal if both its ends are integer literals. -/
def rangeOf : Expr → Expr → Expr
  | .literal (.integer start), .literal (.integer stop) => .literal (.range start stop)
  | start, stop => .range start stop

section Rules

variable (primary : Parser Expr)

/-- An argument of a filter: an option under a name, or a positional argument. -/
def argument : Parser (Option String × Expr)
  | name :: colon :: ls =>
    -- A name alone is a path, so the colon behind it has to be seen first.
    if name.kind == .identifier && colon.kind == .symbol && colon.text == ":" then do
      let (value, ls) ← primary ls
      .ok ((some name.text, value), ls)
    else do
      let (value, ls) ← primary (name :: colon :: ls)
      .ok ((none, value), ls)
  | ls => do
    let (value, ls) ← primary ls
    .ok ((none, value), ls)

/-- The arguments of a filter, separated by commas, in so many rounds at most. -/
def arguments : Nat → Parser (List (Option String × Expr))
  | 0, _ => .error .unexpectedEnd
  | rounds + 1, ls => do
    let (first, ls) ← argument primary ls
    match symbol? "," ls with
    | some ls =>
      let (rest, ls) ← arguments rounds ls
      .ok (first :: rest, ls)
    | none => .ok ([first], ls)

/-- A filter call from its name and its arguments: the positional ones and the options apart. -/
def callOf (name : String) (arguments : List (Option String × Expr)) : FilterCall :=
  .call name
    (arguments.filterMap fun (key, value) => if key.isNone then some value else none)
    (arguments.filterMap fun (key, value) => key.map (·, value))

/-- One filter, behind its bar. -/
def filterCall (ls : List Lexeme) : Except Expr.Fault (FilterCall × List Lexeme) := do
  let (name, ls) ← identifier .noFilterName ls
  match symbol? ":" ls with
  | some ls =>
    let (args, ls) ← arguments primary (ls.length + 1) ls
    .ok (callOf name args, ls)
  | none => .ok (callOf name [], ls)

/-- Filters, each behind a bar, in so many rounds at most. -/
def chain : Nat → Parser (List FilterCall)
  | 0, ls => .ok ([], ls)
  | rounds + 1, ls =>
    match symbol? "|" ls with
    | some ls => do
      let (call, ls) ← filterCall primary ls
      let (rest, ls) ← chain rounds ls
      .ok (call :: rest, ls)
    | none => .ok ([], ls)

/-- A primary with its filters. -/
def filtered : Parser Expr := fun ls => do
  let (base, ls) ← primary ls
  let (calls, ls) ← chain primary ls.length ls
  .ok (if calls.isEmpty then base else .filtered base calls, ls)

/-- The operators of comparison. -/
def comparisons : List String :=
  ["==", "!=", "<>", ">", "<", ">=", "<=", "contains"]

/-- Whether the lexeme is an operator of comparison. -/
def isComparison (l : Lexeme) : Bool :=
  (l.kind == .operator || l.kind == .keyword) && comparisons.contains l.text

/-- The logical operators. -/
def connectives : List String :=
  ["and", "or"]

/-- Whether the lexeme is a logical operator. -/
def isLogical (l : Lexeme) : Bool :=
  l.kind == .keyword && connectives.contains l.text

/-- A comparison, or what could be the side of one. -/
def comparison : Parser Expr := fun ls => do
  let (lhs, ls) ← filtered primary ls
  match ls with
  | op :: rest =>
    if isComparison op then
      let (rhs, ls) ← filtered primary rest
      .ok (.binary op.text lhs rhs, ls)
    else .ok (lhs, ls)
  | [] => .ok (lhs, [])

/-- Logical operators behind a left side, in so many rounds at most. -/
def logicalTail : Nat → Expr → Parser Expr
  | 0, lhs, ls => .ok (lhs, ls)
  | rounds + 1, lhs, ls =>
    match ls with
    | op :: rest =>
      if isLogical op then do
        let (rhs, ls) ← comparison primary rest
        -- What was read so far becomes the left side: the operators group to the left.
        logicalTail rounds (.binary op.text lhs rhs) ls
      else .ok (lhs, ls)
    | [] => .ok (lhs, [])

/-- A whole expression. -/
def logical : Parser Expr := fun ls => do
  let (lhs, ls) ← comparison primary ls
  logicalTail primary ls.length lhs ls

/-- A step in brackets, behind the opening one. A lone integer or string is a key written out. -/
def bracket : Parser Accessor := fun ls =>
  let computed : Except Expr.Fault (Accessor × List Lexeme) := do
    let (key, ls) ← logical primary ls
    let ls ← require "]" .noIndexEnd ls
    .ok (.key key, ls)
  match ls with
  | key :: close :: rest =>
    -- Only a literal that stands alone is written out; with anything behind it, it is computed.
    if close.kind == .symbol && close.text == "]" then
      match literal? key with
      | some (.integer n) => .ok (.index n, rest)
      | some (.string s) => .ok (.field s, rest)
      | _ => computed
    else computed
  | _ => computed

/-- A step behind a point. A keyword serves as a name here. -/
def property : Parser Accessor
  | [] => .error .noPropertyName
  | l :: ls =>
    if l.kind == .identifier || l.kind == .keyword then .ok (.field l.text, ls)
    else
      match l.kind, integerOf? l.text with
      | .integer, some n => .ok (.index n, ls)
      | .integer, none => .error (tooLong l)
      | _, _ => .error .noPropertyName

/-- The steps of a path, in so many rounds at most. -/
def steps : Nat → Parser (List Accessor)
  | 0, ls => .ok ([], ls)
  | rounds + 1, ls =>
    match symbol? "." ls, symbol? "[" ls with
    | some ls, _ => do
      let (step, ls) ← property ls
      let (rest, ls) ← steps rounds ls
      .ok (step :: rest, ls)
    | none, some ls => do
      let (step, ls) ← bracket primary ls
      let (rest, ls) ← steps rounds ls
      .ok (step :: rest, ls)
    | none, none => .ok ([], ls)

/-- A range, behind its opening parenthesis. -/
def range : Parser Expr := fun ls => do
  let (start, ls) ← primary ls
  let ls ← require ".." .noRangeDots ls
  let (stop, ls) ← primary ls
  let ls ← require ")" .noRangeEnd ls
  .ok (rangeOf start stop, ls)

end Rules

/-- The fault of a lexeme that no value starts with. -/
def refusal (l : Lexeme) : Expr.Fault :=
  -- An integer always starts one, so what is wrong with it is its length.
  if l.kind == .integer then tooLong l else .unexpected l.text

/-- A literal, a range or a path, nested no deeper than the bound. -/
def primary : Nat → Parser Expr
  | _, [] => .error .unexpectedEnd
  | 0, l :: _ => .error (.unexpected l.text)
  | depth + 1, l :: ls =>
    match literal? l with
    | some value => .ok (.literal value, ls)
    | none =>
      if l.kind == .identifier then do
        let (path, ls) ← steps (primary depth) ls.length ls
        .ok (.path l.text path, ls)
      else if l.kind == .symbol && l.text == "(" then range (primary depth) ls
      else .error (refusal l)

/-- A primary nested as deep as the lexemes allow. -/
def value : Parser Expr := fun ls => primary ls.length ls

/-- A value with its filters. -/
def filteredValue : Parser Expr := fun ls => filtered (primary ls.length) ls

/-- A whole expression with its operators. -/
def expression : Parser Expr := fun ls => logical (primary ls.length) ls

end Parser

/-- The lexemes of a source without its end. -/
def Lexeme.body (source : String) : Except Expr.Fault (List Lexeme) :=
  match Lexeme.scan source with
  | .ok lexemes => .ok lexemes.dropLast
  | .error fault => .error (.lexeme fault)

namespace Expr

/-- What all of a source is, to the given rule; it must not be empty. -/
def parseWith (rule : Parser Expr) (source : String) : Except Fault Expr := do
  let lexemes ← Lexeme.body source
  if lexemes.isEmpty then .error .empty
  else
    let (result, rest) ← rule lexemes
    Parser.finish result rest

/-- The expression that a source is. -/
def parse (source : String) : Except Fault Expr :=
  parseWith Parser.expression source

/-- The value with its filters that a source is; operators have no place in it. -/
def parseChain (source : String) : Except Fault Expr :=
  parseWith Parser.filteredValue source

end Expr

end Liquid
