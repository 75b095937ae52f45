import Liquid.Expr.Eval

/-!
# What an Expression Reads

An expression looks variables up in one way only, at the root of a path. So the
names at the roots of all paths inside it are all that its value can depend on,
and it is the same in two scopes in which these names stand for the same. A
range and a filter call look nothing up themselves, and neither do the written
keys of a path; but a key may be computed, by an expression with roots of its
own.

## Main definitions

* `Expr.roots`: The names at the roots of paths.

## Theorems

* `Expr.eval_congr`: The value depends on these names only.
-/

namespace Liquid

mutual

/-- The names at the roots of the paths in an expression, its own and those inside it. -/
def Expr.roots : Expr → List String
  | .literal _ => []
  | .path root steps => root :: rootsOfSteps steps
  | .range start stop => start.roots ++ stop.roots
  | .filtered base chain => base.roots ++ rootsOfChain chain
  | .binary _ lhs rhs => lhs.roots ++ rhs.roots

/-- The names at the roots of paths in the key of a step. -/
def Accessor.roots : Accessor → List String
  | .field _ => []
  | .index _ => []
  | .key key => key.roots

/-- The names at the roots of paths in the arguments of a filter. -/
def FilterCall.roots : FilterCall → List String
  | .call _ args options => rootsOfArgs args ++ rootsOfOptions options

/-- The names at the roots of paths in the keys of steps. -/
def rootsOfSteps : List Accessor → List String
  | [] => []
  | step :: steps => step.roots ++ rootsOfSteps steps

/-- The names at the roots of paths in filter calls. -/
def rootsOfChain : List FilterCall → List String
  | [] => []
  | call :: calls => call.roots ++ rootsOfChain calls

/-- The names at the roots of paths in positional arguments. -/
def rootsOfArgs : List Expr → List String
  | [] => []
  | arg :: args => arg.roots ++ rootsOfArgs args

/-- The names at the roots of paths in options. -/
def rootsOfOptions : List (String × Expr) → List String
  | [] => []
  | (_, option) :: options => option.roots ++ rootsOfOptions options

end

/-- Whether all the names stand for the same in both scopes. -/
def Scope.SameOn (names : List String) (first second : Scope) : Prop :=
  ∀ name ∈ names, first.lookup name = second.lookup name

section SameOn

variable {first second : Scope} {names others : List String} {name : String}

/-- Scopes agree on names if they agree on each of them. -/
theorem sameOn_cons : first.SameOn (name :: names) second ↔
    first.lookup name = second.lookup name ∧ first.SameOn names second :=
  List.forall_mem_cons

theorem sameOn_append : first.SameOn (names ++ others) second ↔
    first.SameOn names second ∧ first.SameOn others second :=
  List.forall_mem_append

end SameOn

section Eval

variable {env : Environment} {place : Option Place} {first second : Scope}

mutual

/-- The value of an expression depends on the scope only by its roots. -/
theorem Expr.eval_congr (expr : Expr) (h : first.SameOn expr.roots second) :
    expr.eval env first place = expr.eval env second place := by
  -- Each part of the expression has some of the roots.
  match expr with
  | .literal value => rfl
  | .path root steps =>
      rw [Expr.roots, sameOn_cons] at h
      simp only [Expr.eval, Scope.resolve, h.1, keysOf_congr steps h.2]
  | .range start stop =>
      rw [Expr.roots, sameOn_append] at h
      simp only [Expr.eval, Expr.eval_congr start h.1, Expr.eval_congr stop h.2]
  | .filtered base chain =>
      rw [Expr.roots, sameOn_append] at h
      simp only [Expr.eval, Expr.eval_congr base h.1]
      congr 1
      funext value
      exact applyChain_congr chain value h.2
  | .binary op lhs rhs =>
      rw [Expr.roots, sameOn_append] at h
      simp only [Expr.eval, Expr.eval_congr lhs h.1, Expr.eval_congr rhs h.2]

/-- So does that of a step. -/
theorem Accessor.eval_congr (step : Accessor) (h : first.SameOn step.roots second) :
    step.eval env first place = step.eval env second place := by
  match step with
  | .field name => rfl
  | .index index => rfl
  | .key key =>
      simp only [Accessor.eval, Expr.eval_congr key h]

/-- So does that of a filter, by its arguments. -/
theorem FilterCall.eval_congr (call : FilterCall) (value : Value)
    (h : first.SameOn call.roots second) :
    call.eval env first place value = call.eval env second place value := by
  match call with
  | .call name args options =>
      rw [FilterCall.roots, sameOn_append] at h
      simp only [FilterCall.eval, valuesOf_congr args h.1, optionsOf_congr options h.2]

/-- So do the keys of a path. -/
theorem keysOf_congr (steps : List Accessor) (h : first.SameOn (rootsOfSteps steps) second) :
    keysOf env first place steps = keysOf env second place steps := by
  match steps with
  | [] => rfl
  | step :: steps =>
      rw [rootsOfSteps, sameOn_append] at h
      simp only [keysOf, Accessor.eval_congr step h.1, keysOf_congr steps h.2]

/-- So does what filters make of a value. -/
theorem applyChain_congr (calls : List FilterCall) (value : Value)
    (h : first.SameOn (rootsOfChain calls) second) :
    applyChain env first place value calls = applyChain env second place value calls := by
  match calls with
  | [] => rfl
  | call :: calls =>
      rw [rootsOfChain, sameOn_append] at h
      simp only [applyChain, FilterCall.eval_congr call value h.1]
      -- What the calls behind this one are given is not known yet.
      congr 1
      funext value
      exact applyChain_congr calls value h.2

theorem valuesOf_congr (args : List Expr) (h : first.SameOn (rootsOfArgs args) second) :
    valuesOf env first place args = valuesOf env second place args := by
  match args with
  | [] => rfl
  | arg :: args =>
      rw [rootsOfArgs, sameOn_append] at h
      simp only [valuesOf, Expr.eval_congr arg h.1, valuesOf_congr args h.2]

theorem optionsOf_congr (options : List (String × Expr))
    (h : first.SameOn (rootsOfOptions options) second) :
    optionsOf env first place options = optionsOf env second place options := by
  match options with
  | [] => rfl
  | (name, option) :: options =>
      rw [rootsOfOptions, sameOn_append] at h
      simp only [optionsOf, Expr.eval_congr option h.1, optionsOf_congr options h.2]

end

end Eval

end Liquid
