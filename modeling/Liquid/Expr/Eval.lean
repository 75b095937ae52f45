import Liquid.Environment
import Liquid.Scope

/-!
# Evaluation

The value of an expression in a scope. The environment says what filters and
operators there are; neither is known to the evaluation by name. An expression
has no place of its own, so errors are placed where the tag or output that it
belongs to was opened.

Whatever is looked up by name is looked up before anything that goes into it
is evaluated. Operators get both operands evaluated, whatever the first one
is.

## Main definitions

* `Value.between`: The range between two values.
* `Expr.eval`: The value of an expression.
-/

namespace Liquid

/-- What becomes of the failure of a filter: a rejection is a rendering error, a crash stays. -/
def FilterFailure.placed (name : String) (place : Option Place) : FilterFailure → EvalFault
  | rejected fault => .render ⟨.filterFailed name fault, place⟩
  | crashed crash => .crash crash

/-- The range between two values. What is no number counts as zero. -/
def Value.between (start stop : Value) : Value :=
  .range (start.integer?.getD 0) (stop.integer?.getD 0)

mutual

/-- The value of an expression in a scope. -/
def Expr.eval (env : Environment) (scope : Scope) (place : Option Place) :
    Expr → Noted EvalFault Value
  | .literal value => .ok value
  | .path root steps => do
    let keys ← keysOf env scope place steps
    (Noted.ofExcept (scope.resolve root keys)).mapFault .crash
  | .range start stop => do
    let start ← start.eval env scope place
    let stop ← stop.eval env scope place
    .ok (start.between stop)
  | .filtered base chain => do
    let value ← base.eval env scope place
    applyChain env scope place value chain
  | .binary op lhs rhs =>
    match env.operators.get? op with
    | none => .error (.render ⟨.unknownOperator op, place⟩)
    | some operator => do
      let lhs ← lhs.eval env scope place
      let rhs ← rhs.eval env scope place
      .ok (operator.apply lhs rhs)

/-- The key of a step. -/
def Accessor.eval (env : Environment) (scope : Scope) (place : Option Place) :
    Accessor → Noted EvalFault Key
  | .field name => .ok (.name name)
  | .index index => .ok (.index index)
  | .key key => do
    let value ← key.eval env scope place
    .ok (.ofValue value)

/-- What a filter call makes of a value. -/
def FilterCall.eval (env : Environment) (scope : Scope) (place : Option Place) (value : Value) :
    FilterCall → Noted EvalFault Value
  | .call name args options =>
    match env.filters.get? name with
    | none => .error (.render ⟨.unknownFilter name, place⟩)
    | some filter => do
      let args ← valuesOf env scope place args
      let options ← optionsOf env scope place options
      (filter.apply value args (Table.ofEntries options)).mapFault (FilterFailure.placed name place)

/-- The keys of the steps of a path. -/
def keysOf (env : Environment) (scope : Scope) (place : Option Place) :
    List Accessor → Noted EvalFault (List Key)
  | [] => .ok []
  | step :: steps => do
    let key ← step.eval env scope place
    let keys ← keysOf env scope place steps
    .ok (key :: keys)

/-- What filter calls, one after the other, make of a value. -/
def applyChain (env : Environment) (scope : Scope) (place : Option Place) (value : Value) :
    List FilterCall → Noted EvalFault Value
  | [] => .ok value
  | call :: calls => do
    let value ← call.eval env scope place value
    applyChain env scope place value calls

/-- The values of positional arguments. -/
def valuesOf (env : Environment) (scope : Scope) (place : Option Place) :
    List Expr → Noted EvalFault (List Value)
  | [] => .ok []
  | arg :: args => do
    let value ← arg.eval env scope place
    let values ← valuesOf env scope place args
    .ok (value :: values)

/-- The values of options, with their names. -/
def optionsOf (env : Environment) (scope : Scope) (place : Option Place) :
    List (String × Expr) → Noted EvalFault (List (String × Value))
  | [] => .ok []
  | (name, option) :: options => do
    let value ← option.eval env scope place
    let values ← optionsOf env scope place options
    .ok ((name, value) :: values)

end

end Liquid
