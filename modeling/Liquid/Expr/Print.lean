import Liquid.Expr
import Liquid.Text.Quoted

/-!
# Printing Expressions

An expression as text, close to how it may have been written. Strings are
quoted, operators stand between parentheses, and a computed key between
brackets. The text also serves as a name: a cycle without a group of its own
goes by the text of its values.

## Main definitions

* `Expr.text`: The text of an expression.
* `Accessor.text`, `FilterCall.text`: The texts of its parts.
-/

namespace Liquid

/-- The text of a literal. -/
def Value.literalText : Value → String
  | .string s => Text.quoted s
  | .nil => "nil"
  | v => v.display

mutual

/-- The text of an expression. -/
def Expr.text : Expr → String
  | .literal value => value.literalText
  | .path root steps => root ++ stepsText steps
  | .range start stop => "(" ++ start.text ++ ".." ++ stop.text ++ ")"
  | .filtered base chain => base.text ++ chainText chain
  | .binary op lhs rhs => "(" ++ lhs.text ++ " " ++ op ++ " " ++ rhs.text ++ ")"

/-- The text of a step. -/
def Accessor.text : Accessor → String
  | .field name => "." ++ name
  | .index index => "[" ++ toString index ++ "]"
  | .key key => "[" ++ key.text ++ "]"

/-- The text of a filter call. -/
def FilterCall.text : FilterCall → String
  | .call name args options =>
    match argsText args ++ optionsText options with
    | [] => name
    | parts => name ++ ": " ++ ", ".intercalate parts

/-- The text of the steps of a path. -/
def stepsText : List Accessor → String
  | [] => ""
  | step :: steps => step.text ++ stepsText steps

/-- The text of the filters behind a base. -/
def chainText : List FilterCall → String
  | [] => ""
  | call :: calls => " | " ++ call.text ++ chainText calls

/-- The texts of positional arguments. -/
def argsText : List Expr → List String
  | [] => []
  | arg :: args => arg.text :: argsText args

/-- The texts of options. -/
def optionsText : List (String × Expr) → List String
  | [] => []
  | (name, value) :: options => (name ++ ": " ++ value.text) :: optionsText options

end

end Liquid
