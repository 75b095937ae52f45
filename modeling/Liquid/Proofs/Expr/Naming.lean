import Liquid.Proofs.Decimal.Integer
import Liquid.Proofs.Expr.Roots
import Liquid.Proofs.Scope.Lookup

/-!
# Naming a Literal

A value that an expression writes out can be given a name instead. Wherever it
is written a variable may stand, and in a scope that binds the variable to the
value the expression comes to the same, or fails in the same way.

This is plain of a literal that stands by itself. But reading an expression has
put some literals away: the integer or string between brackets has become a key
that is written out, and the two integers of a range a single literal. A
variable in one of these places brings back the computed form. It is evaluated
by other rules, which make a key of the value and the end of a range of the
number that it is.

Nothing is said of how many occurrences of the value are named. The relation
has a choice at each of them.

## Main definitions

* `Expr.Named`: An expression with a variable in some of the places of a value.

## Theorems

* `Value.integer?_integer`: The number that an integer is.
* `Expr.eval_named`: The same value where the variable is bound.
* `Expr.eval_of_named`: The same value in a scope without the variable.
-/

namespace Liquid

theorem Value.integer?_integer (n : Int) : (Value.integer n).integer? = some n :=
  Decimal.truncated?_ofInt n

section Named

variable (name : String) (value : Value)

mutual

/-- Whether the second expression is the first one with the variable in some places of the value.
The keys and ends that were put away count as the literals that they were. -/
inductive Expr.Named : Expr → Expr → Prop
  | named : Expr.Named (.literal value) (.path name [])
  | kept {v : Value} : Expr.Named (.literal v) (.literal v)
  | ends {start stop : Int} {first last : Expr} :
      Expr.Named (.literal (.integer start)) first → Expr.Named (.literal (.integer stop)) last →
      Expr.Named (.literal (.range start stop)) (.range first last)
  | path {root : String} {steps steps' : List Accessor} :
      NamedSteps steps steps' → Expr.Named (.path root steps) (.path root steps')
  | range {start stop start' stop' : Expr} :
      Expr.Named start start' → Expr.Named stop stop' →
      Expr.Named (.range start stop) (.range start' stop')
  | filtered {base base' : Expr} {chain chain' : List FilterCall} :
      Expr.Named base base' → NamedChain chain chain' →
      Expr.Named (.filtered base chain) (.filtered base' chain')
  | binary {op : String} {lhs rhs lhs' rhs' : Expr} :
      Expr.Named lhs lhs' → Expr.Named rhs rhs' →
      Expr.Named (.binary op lhs rhs) (.binary op lhs' rhs')

/-- The same of a step. -/
inductive Accessor.Named : Accessor → Accessor → Prop
  | keptField {key : String} : Accessor.Named (.field key) (.field key)
  | keptIndex {index : Int} : Accessor.Named (.index index) (.index index)
  | field {key : String} {expr : Expr} :
      Expr.Named (.literal (.string key)) expr → Accessor.Named (.field key) (.key expr)
  | index {index : Int} {expr : Expr} :
      Expr.Named (.literal (.integer index)) expr → Accessor.Named (.index index) (.key expr)
  | key {expr expr' : Expr} : Expr.Named expr expr' → Accessor.Named (.key expr) (.key expr')

/-- The same of a filter call. -/
inductive FilterCall.Named : FilterCall → FilterCall → Prop
  | call {filter : String} {args args' : List Expr} {options options' : List (String × Expr)} :
      NamedArgs args args' → NamedOptions options options' →
      FilterCall.Named (.call filter args options) (.call filter args' options')

/-- The same of the steps of a path. -/
inductive NamedSteps : List Accessor → List Accessor → Prop
  | nil : NamedSteps [] []
  | cons {step step' : Accessor} {steps steps' : List Accessor} :
      Accessor.Named step step' → NamedSteps steps steps' →
      NamedSteps (step :: steps) (step' :: steps')

/-- The same of filter calls. -/
inductive NamedChain : List FilterCall → List FilterCall → Prop
  | nil : NamedChain [] []
  | cons {call call' : FilterCall} {calls calls' : List FilterCall} :
      FilterCall.Named call call' → NamedChain calls calls' →
      NamedChain (call :: calls) (call' :: calls')

/-- The same of positional arguments. -/
inductive NamedArgs : List Expr → List Expr → Prop
  | nil : NamedArgs [] []
  | cons {arg arg' : Expr} {args args' : List Expr} :
      Expr.Named arg arg' → NamedArgs args args' → NamedArgs (arg :: args) (arg' :: args')

/-- The same of options. -/
inductive NamedOptions : List (String × Expr) → List (String × Expr) → Prop
  | nil : NamedOptions [] []
  | cons {key : String} {option option' : Expr} {options options' : List (String × Expr)} :
      Expr.Named option option' → NamedOptions options options' →
      NamedOptions ((key, option) :: options) ((key, option') :: options')

end

end Named

section Eval

variable {env : Environment} {place : Option Place} {scope : Scope} {name : String} {value : Value}

/-- The name of a variable gives the value that it is bound to. -/
theorem Expr.eval_variable (h : scope.lookup name = value) :
    (Expr.path name []).eval env scope place = .ok value := by
  subst h
  rfl

mutual

/-- An expression in which values are named has the same value, by recursion over its forms. -/
theorem Expr.eval_named (hbound : scope.lookup name = value) {expr expr' : Expr}
    (h : Expr.Named name value expr expr') :
    expr'.eval env scope place = expr.eval env scope place := by
  match h with
  | .named => exact Expr.eval_variable hbound
  | .kept => rfl
  | @Expr.Named.ends _ _ start stop _ _ hstart hstop =>
      -- The ends are read off their numbers, which are the integers that were put away.
      have hrange : (Value.integer start).between (.integer stop) = .range start stop := by
        simp only [Value.between, Value.integer?_integer, Option.getD_some]
      simp only [Expr.eval, Expr.eval_named hbound hstart, Expr.eval_named hbound hstop]
      change Noted.ok ((Value.integer start).between (.integer stop)) = _
      rw [hrange]
  | .path hsteps => simp only [Expr.eval, keysOf_named hbound hsteps]
  | .range hstart hstop =>
      simp only [Expr.eval, Expr.eval_named hbound hstart, Expr.eval_named hbound hstop]
  | .filtered hbase hchain =>
      simp only [Expr.eval, Expr.eval_named hbound hbase]
      congr 1
      funext input
      exact applyChain_named hbound input hchain
  | .binary hlhs hrhs =>
      simp only [Expr.eval, Expr.eval_named hbound hlhs, Expr.eval_named hbound hrhs]

/-- A key may be named as well. -/
theorem Accessor.eval_named (hbound : scope.lookup name = value) {step step' : Accessor}
    (h : Accessor.Named name value step step') :
    step'.eval env scope place = step.eval env scope place := by
  match h with
  | .keptField => rfl
  | .keptIndex => rfl
  | .field hkey =>
      simp only [Accessor.eval, Expr.eval_named hbound hkey, Expr.eval]
      rfl
  | .index hkey =>
      simp only [Accessor.eval, Expr.eval_named hbound hkey, Expr.eval]
      rfl
  | .key hkey => simp only [Accessor.eval, Expr.eval_named hbound hkey]

/-- So may the arguments of a filter. -/
theorem FilterCall.eval_named (hbound : scope.lookup name = value) {call call' : FilterCall}
    (input : Value) (h : FilterCall.Named name value call call') :
    call'.eval env scope place input = call.eval env scope place input := by
  match h with
  | .call hargs hoptions =>
      simp only [FilterCall.eval, valuesOf_named hbound hargs, optionsOf_named hbound hoptions]

theorem keysOf_named (hbound : scope.lookup name = value) {steps steps' : List Accessor}
    (h : NamedSteps name value steps steps') :
    keysOf env scope place steps' = keysOf env scope place steps := by
  match h with
  | .nil => rfl
  | .cons hstep hsteps =>
      simp only [keysOf, Accessor.eval_named hbound hstep, keysOf_named hbound hsteps]

theorem applyChain_named (hbound : scope.lookup name = value) {calls calls' : List FilterCall}
    (input : Value) (h : NamedChain name value calls calls') :
    applyChain env scope place input calls' = applyChain env scope place input calls := by
  match h with
  | .nil => rfl
  | .cons hcall hcalls =>
      simp only [applyChain, FilterCall.eval_named hbound input hcall]
      -- What the calls behind this one are given is not known yet.
      congr 1
      funext input
      exact applyChain_named hbound input hcalls

theorem valuesOf_named (hbound : scope.lookup name = value) {args args' : List Expr}
    (h : NamedArgs name value args args') :
    valuesOf env scope place args' = valuesOf env scope place args := by
  match h with
  | .nil => rfl
  | .cons harg hargs =>
      simp only [valuesOf, Expr.eval_named hbound harg, valuesOf_named hbound hargs]

theorem optionsOf_named (hbound : scope.lookup name = value)
    {options options' : List (String × Expr)} (h : NamedOptions name value options options') :
    optionsOf env scope place options' = optionsOf env scope place options := by
  match h with
  | .nil => rfl
  | .cons hoption hoptions =>
      simp only [optionsOf, Expr.eval_named hbound hoption, optionsOf_named hbound hoptions]

end

end Eval

/-- An expression in which a variable stands for some occurrences of a value that it writes out
comes to what the expression itself comes to, be it a value or a fault, with the same remarks. The
variable is one that the expression does not have, and the scope that binds it to the value agrees
with the one at hand on all other names. -/
theorem Expr.eval_of_named (env : Environment) (place : Option Place) (scope bound : Scope)
    (name : String) (value : Value) (expr expr' : Expr) (hnamed : expr.Named name value expr')
    (hfresh : name ∉ expr.roots) (hbound : bound.lookup name = value)
    (hother : ∀ other ≠ name, bound.lookup other = scope.lookup other) :
    expr'.eval env bound place = expr.eval env scope place := by
  have hsame : bound.SameOn expr.roots scope := by
    intro root hroot
    exact hother root fun h => hfresh (h ▸ hroot)
  calc expr'.eval env bound place
      = expr.eval env bound place := Expr.eval_named hbound hnamed
    _ = expr.eval env scope place := Expr.eval_congr expr hsame

/-- In `(1..3) | join: s[1]` the first end of the range and the key of the path are named, and the
second end is not. -/
theorem Expr.eval_of_named_ends :
    let expr : Expr := .filtered (.literal (.range 1 3)) [.call "join" [.path "s" [.index 1]] []]
    let expr' : Expr :=
      .filtered (.range (.path "n" []) (.literal (.integer 3)))
        [.call "join" [.path "s" [.key (.path "n" [])]] []]
    let scope : Scope := .ofData [("s", .array [.string "-", .string "+"])]
    let bound := scope.setLocal "n" (.integer 1)
    expr.Named "n" (.integer 1) expr' ∧ "n" ∉ expr.roots ∧
      bound.lookup "n" = .integer 1 ∧ (∀ other ≠ "n", bound.lookup other = scope.lookup other) ∧
      expr'.eval Environment.standard bound none = expr.eval Environment.standard scope none ∧
      expr'.eval Environment.standard bound none = .ok (.string "1+2+3") := by
  intro expr expr' scope bound
  -- An end of the range and a folded index are named. All else is kept.
  have hnamed : expr.Named "n" (.integer 1) expr' :=
    .filtered (.ends .named .kept)
      (.cons (.call (.cons (.path (.cons (.index .named) .nil)) .nil) .nil) .nil)
  have hfresh : "n" ∉ expr.roots := by decide
  have hother : ∀ other ≠ "n", bound.lookup other = scope.lookup other :=
    fun _ h => Scope.lookup_setLocal_of_ne h _
  exact ⟨hnamed, hfresh, rfl, hother,
    Expr.eval_of_named Environment.standard none scope bound "n" _ expr expr' hnamed hfresh rfl
      hother, rfl⟩

end Liquid
