import Liquid.Expr.Eval
import Liquid.Proofs.Except

/-!
# Where Evaluation Fails

An expression is evaluated part by part in a fixed order, and each filter call
is made once what it takes has been evaluated. If a call fails, nothing behind
it is evaluated, and the failure is that of the whole expression, however deep
the call stands in it: behind other filters, in an argument or an option, at an
end of a range, at a side of an operator, or in the key of a path.

So it is enough to say how evaluation comes to a call. It has to have got
through everything in front of it.

## Main definitions

* `Expr.Reaches`: Evaluation comes to a call.
* `FilterCall.FailsBy`, `Expr.FailsBy`: What a call or an expression is at fault by.
* `Expr.parts`: The expressions that an expression is put together from.

## Theorems

* `FilterCall.eval_of_failsBy`: The ways in which a call fails.
* `Expr.eval_of_reaches`: A call that fails is the failure of the expression.
* `Expr.failsBy_of_eval`: A rendering error of an expression comes from nothing
  else than calls and operators.
-/

namespace Liquid

open Noted (bind_result_eq_ok_iff bind_result_eq_error_iff)

variable {env : Environment} {scope : Scope} {place : Option Place}

/-- Evaluation comes to making a call of a value: everything that is evaluated before has one. -/
inductive Expr.Reaches (env : Environment) (scope : Scope) (place : Option Place) (input : Value)
    (call : FilterCall) : Expr → Prop
  | base {base : Expr} {chain : List FilterCall} :
      Reaches env scope place input call base →
      Reaches env scope place input call (.filtered base chain)
  | call {base : Expr} {before after : List FilterCall} {value : Value} :
      (base.eval env scope place).result = .ok value →
      (applyChain env scope place value before).result = .ok input →
      Reaches env scope place input call (.filtered base (before ++ call :: after))
  | argument {base arg : Expr} {before after : List FilterCall} {name : String}
      {first rest : List Expr} {options : List (String × Expr)} {value piped : Value}
      {filter : Filter} {values : List Value} :
      (base.eval env scope place).result = .ok value →
      (applyChain env scope place value before).result = .ok piped →
      env.filters.get? name = some filter →
      (valuesOf env scope place first).result = .ok values →
      Reaches env scope place input call arg →
      Reaches env scope place input call
        (.filtered base (before ++ .call name (first ++ arg :: rest) options :: after))
  | option {base arg : Expr} {before after : List FilterCall} {name key : String}
      {args : List Expr} {first rest : List (String × Expr)} {value piped : Value}
      {filter : Filter} {values : List Value} {named : List (String × Value)} :
      (base.eval env scope place).result = .ok value →
      (applyChain env scope place value before).result = .ok piped →
      env.filters.get? name = some filter →
      (valuesOf env scope place args).result = .ok values →
      (optionsOf env scope place first).result = .ok named →
      Reaches env scope place input call arg →
      Reaches env scope place input call
        (.filtered base (before ++ .call name args (first ++ (key, arg) :: rest) :: after))
  | start {start stop : Expr} :
      Reaches env scope place input call start →
      Reaches env scope place input call (.range start stop)
  | stop {start stop : Expr} {value : Value} :
      (start.eval env scope place).result = .ok value →
      Reaches env scope place input call stop →
      Reaches env scope place input call (.range start stop)
  | lhs {op : String} {lhs rhs : Expr} {operator : Operator} :
      env.operators.get? op = some operator →
      Reaches env scope place input call lhs →
      Reaches env scope place input call (.binary op lhs rhs)
  | rhs {op : String} {lhs rhs : Expr} {operator : Operator} {value : Value} :
      env.operators.get? op = some operator → (lhs.eval env scope place).result = .ok value →
      Reaches env scope place input call rhs →
      Reaches env scope place input call (.binary op lhs rhs)
  | key {root : String} {before after : List Accessor} {key : Expr} {keys : List Key} :
      (keysOf env scope place before).result = .ok keys →
      Reaches env scope place input call key →
      Reaches env scope place input call (.path root (before ++ .key key :: after))

/-- A call itself is at fault, so that nothing in it is: there is no such filter, or the filter
rejects what it is given. -/
inductive FilterCall.FailsBy (env : Environment) (scope : Scope) (place : Option Place)
    (input : Value) : FilterCall → RenderFault.Cause → Prop
  | unknown {name : String} {args : List Expr} {options : List (String × Expr)} :
      env.filters.get? name = none →
      FailsBy env scope place input (.call name args options) (.unknownFilter name)
  | rejected {name : String} {args : List Expr} {options : List (String × Expr)} {filter : Filter}
      {values : List Value} {named : List (String × Value)} {fault : FilterFault} :
      env.filters.get? name = some filter →
      (valuesOf env scope place args).result = .ok values →
      (optionsOf env scope place options).result = .ok named →
      (filter.apply input values (.ofEntries named)).result = .error (.rejected fault) →
      FailsBy env scope place input (.call name args options) (.filterFailed name fault)

/-- What a call is at fault by is the error that it ends with, placed where it is evaluated. -/
theorem FilterCall.eval_of_failsBy {input : Value} {call : FilterCall} {cause : RenderFault.Cause}
    (h : call.FailsBy env scope place input cause) :
    (call.eval env scope place input).result = .error (.render ⟨cause, place⟩) := by
  cases h with
  | unknown hfilter =>
      rw [FilterCall.eval, hfilter]
      rfl
  | @rejected name _ _ filter values named fault hfilter hargs hoptions happly =>
      -- The fault of the filter is told with its name and where it was called.
      have hrejected : ((filter.apply input values (.ofEntries named)).mapFault
          (FilterFailure.placed name place)).result =
            .error (.render ⟨.filterFailed name fault, place⟩) := by
        rw [Noted.mapFault, happly]
        rfl
      rw [FilterCall.eval, hfilter]
      exact bind_result_eq_error_iff.mpr (.inr ⟨values, hargs,
        bind_result_eq_error_iff.mpr (.inr ⟨named, hoptions, hrejected⟩)⟩)

section Lists

variable {fault : EvalFault}

/-- Calls fail by one of them, behind others that do not. -/
theorem applyChain_eq_error_iff {value : Value} {calls : List FilterCall} :
    (applyChain env scope place value calls).result = .error fault ↔
      ∃ before call after input, calls = before ++ call :: after ∧
        (applyChain env scope place value before).result = .ok input ∧
        (call.eval env scope place input).result = .error fault := by
  constructor
  · intro h
    -- The value that the calls are made on is another one at each of them.
    induction calls generalizing value with
    | nil =>
        rw [applyChain] at h
        cases h
    | cons first calls ih =>
        rw [applyChain] at h
        rcases bind_result_eq_error_iff.mp h with hfirst | ⟨next, hfirst, hrest⟩
        · exact ⟨[], first, calls, value, rfl, by rw [applyChain]; rfl, hfirst⟩
        · rcases ih hrest with ⟨before, call, after, input, rfl, hbefore, hcall⟩
          refine ⟨first :: before, call, after, input, rfl, ?_, hcall⟩
          rw [applyChain]
          exact bind_result_eq_ok_iff.mpr ⟨next, hfirst, hbefore⟩
  · rintro ⟨before, call, after, input, rfl, hbefore, hcall⟩
    induction before generalizing value with
    | nil =>
        rw [applyChain] at hbefore
        cases hbefore
        rw [List.nil_append, applyChain]
        exact bind_result_eq_error_iff.mpr (.inl hcall)
    | cons first before ih =>
        rw [applyChain] at hbefore
        rcases bind_result_eq_ok_iff.mp hbefore with ⟨next, hfirst, hrest⟩
        rw [List.cons_append, applyChain]
        exact bind_result_eq_error_iff.mpr (.inr ⟨next, hfirst, ih hrest⟩)

/-- Where a list is evaluated member by member, it fails by one of them, behind others that do
not. -/
theorem Noted.collected_eq_error_iff {ι α β : Type} {step : ι → Noted EvalFault α}
    (pack : ι → α → β) {collected : List ι → Noted EvalFault (List β)}
    (hnil : collected [] = .ok [])
    (hcons : ∀ item items, collected (item :: items) = step item >>= fun a =>
      collected items >>= fun rest => .ok (pack item a :: rest)) {items : List ι} :
    (collected items).result = .error fault ↔
      ∃ before item after results, items = before ++ item :: after ∧
        (collected before).result = .ok results ∧ (step item).result = .error fault := by
  constructor
  · intro h
    induction items with
    | nil =>
        rw [hnil] at h
        cases h
    | cons first items ih =>
        rw [hcons] at h
        -- Either the first member fails, or one of the others does behind it.
        rcases bind_result_eq_error_iff.mp h with hfirst | ⟨value, hfirst, hrest⟩
        · exact ⟨[], first, items, [], rfl, by rw [hnil]; rfl, hfirst⟩
        · rcases bind_result_eq_error_iff.mp hrest with hrest | ⟨rest, _, hdone⟩
          · rcases ih hrest with ⟨before, item, after, results, rfl, hbefore, hitem⟩
            refine ⟨first :: before, item, after, pack first value :: results, rfl, ?_, hitem⟩
            rw [hcons]
            exact bind_result_eq_ok_iff.mpr ⟨value, hfirst,
              bind_result_eq_ok_iff.mpr ⟨results, hbefore, rfl⟩⟩
          · cases hdone
  · rintro ⟨before, item, after, results, rfl, hbefore, hitem⟩
    induction before generalizing results with
    | nil =>
        rw [List.nil_append, hcons]
        exact bind_result_eq_error_iff.mpr (.inl hitem)
    | cons first before ih =>
        rw [hcons] at hbefore
        rcases bind_result_eq_ok_iff.mp hbefore with ⟨value, hfirst, hrest⟩
        rcases bind_result_eq_ok_iff.mp hrest with ⟨rest, hrest, _⟩
        rw [List.cons_append, hcons]
        exact bind_result_eq_error_iff.mpr (.inr ⟨value, hfirst,
          bind_result_eq_error_iff.mpr (.inl (ih rest hrest))⟩)

/-- Arguments fail by the first of them that fails. -/
theorem valuesOf_eq_error_iff {args : List Expr} :
    (valuesOf env scope place args).result = .error fault ↔
      ∃ before arg after values, args = before ++ arg :: after ∧
        (valuesOf env scope place before).result = .ok values ∧
        (arg.eval env scope place).result = .error fault :=
  Noted.collected_eq_error_iff (fun _ value => value) (by rw [valuesOf])
    fun _ _ => by rw [valuesOf]

/-- Named arguments fail by the first of them that fails. -/
theorem optionsOf_eq_error_iff {options : List (String × Expr)} :
    (optionsOf env scope place options).result = .error fault ↔
      ∃ before option after named, options = before ++ option :: after ∧
        (optionsOf env scope place before).result = .ok named ∧
        (option.2.eval env scope place).result = .error fault :=
  Noted.collected_eq_error_iff (fun option value => (option.1, value)) (by rw [optionsOf])
    fun _ _ => by rw [optionsOf]

/-- The steps of a path fail by the first of them that fails. -/
theorem keysOf_eq_error_iff {steps : List Accessor} :
    (keysOf env scope place steps).result = .error fault ↔
      ∃ before step after keys, steps = before ++ step :: after ∧
        (keysOf env scope place before).result = .ok keys ∧
        (step.eval env scope place).result = .error fault :=
  Noted.collected_eq_error_iff (fun _ key => key) (by rw [keysOf]) fun _ _ => by rw [keysOf]

/-- Only a computed key can fail. -/
theorem Accessor.eval_eq_error_iff {step : Accessor} :
    (step.eval env scope place).result = .error fault ↔
      ∃ key, step = .key key ∧ (key.eval env scope place).result = .error fault := by
  -- Only a computed key is evaluated.
  cases step with
  | key key =>
      rw [Accessor.eval, bind_result_eq_error_iff]
      constructor
      · rintro (h | ⟨_, _, h⟩)
        · exact ⟨key, rfl, h⟩
        · cases h
      · rintro ⟨_, hkey, h⟩
        cases hkey
        exact .inl h
  | _ =>
      rw [Accessor.eval]
      constructor
      · intro h
        cases h
      · rintro ⟨_, hkey, _⟩
        cases hkey

end Lists

/-- A call that evaluation comes to and that fails is the failure of the expression. -/
theorem Expr.eval_of_reaches {input : Value} {call : FilterCall} {expr : Expr} {fault : EvalFault}
    (h : Reaches env scope place input call expr)
    (hcall : (call.eval env scope place input).result = .error fault) :
    (expr.eval env scope place).result = .error fault := by
  -- The induction is on the way to the call. Each case is a place where what fails is evaluated,
  -- with everything in front of it done.
  induction h with
  | base _ ih =>
      rw [Expr.eval]
      exact bind_result_eq_error_iff.mpr (.inl ih)
  | call hbase hbefore =>
      rw [Expr.eval]
      exact bind_result_eq_error_iff.mpr (.inr ⟨_, hbase,
        applyChain_eq_error_iff.mpr ⟨_, _, _, _, rfl, hbefore, hcall⟩⟩)
  | argument hbase hbefore hfilter hfirst _ ih =>
      -- The argument belongs to another call, which fails with it.
      rw [Expr.eval]
      refine bind_result_eq_error_iff.mpr (.inr ⟨_, hbase,
        applyChain_eq_error_iff.mpr ⟨_, _, _, _, rfl, hbefore, ?_⟩⟩)
      rw [FilterCall.eval, hfilter]
      exact bind_result_eq_error_iff.mpr (.inl
        (valuesOf_eq_error_iff.mpr ⟨_, _, _, _, rfl, hfirst, ih⟩))
  | option hbase hbefore hfilter hargs hfirst _ ih =>
      rw [Expr.eval]
      refine bind_result_eq_error_iff.mpr (.inr ⟨_, hbase,
        applyChain_eq_error_iff.mpr ⟨_, _, _, _, rfl, hbefore, ?_⟩⟩)
      rw [FilterCall.eval, hfilter]
      exact bind_result_eq_error_iff.mpr (.inr ⟨_, hargs, bind_result_eq_error_iff.mpr (.inl
        (optionsOf_eq_error_iff.mpr ⟨_, _, _, _, rfl, hfirst, ih⟩))⟩)
  | start _ ih =>
      rw [Expr.eval]
      exact bind_result_eq_error_iff.mpr (.inl ih)
  | stop hstart _ ih =>
      rw [Expr.eval]
      exact bind_result_eq_error_iff.mpr (.inr ⟨_, hstart, bind_result_eq_error_iff.mpr (.inl ih)⟩)
  | lhs hoperator _ ih =>
      rw [Expr.eval, hoperator]
      exact bind_result_eq_error_iff.mpr (.inl ih)
  | rhs hoperator hlhs _ ih =>
      rw [Expr.eval, hoperator]
      exact bind_result_eq_error_iff.mpr (.inr ⟨_, hlhs, bind_result_eq_error_iff.mpr (.inl ih)⟩)
  | key hkeys _ ih =>
      rw [Expr.eval]
      exact bind_result_eq_error_iff.mpr (.inl (keysOf_eq_error_iff.mpr
        ⟨_, _, _, _, rfl, hkeys, Accessor.eval_eq_error_iff.mpr ⟨_, rfl, ih⟩⟩))

section Parts

/-- The expressions in a step. -/
def Accessor.parts : Accessor → List Expr
  | .key expr => [expr]
  | _ => []

/-- The expressions in a call. -/
def FilterCall.parts : FilterCall → List Expr
  | call _ args options => args ++ options.map Prod.snd

/-- The expressions that an expression is put together from. -/
def Expr.parts : Expr → List Expr
  | literal _ => []
  | path _ steps => steps.flatMap Accessor.parts
  | range start stop => [start, stop]
  | filtered base chain => base :: chain.flatMap FilterCall.parts
  | binary _ lhs rhs => [lhs, rhs]

theorem Accessor.sizeOf_lt_of_mem_parts {step : Accessor} {part : Expr} (h : part ∈ step.parts) :
    sizeOf part < sizeOf step := by
  cases step with
  | key key =>
      rw [List.mem_singleton.mp h, Accessor.key.sizeOf_spec]
      omega
  | _ => cases h

theorem FilterCall.sizeOf_lt_of_mem_parts {call : FilterCall} {part : Expr}
    (h : part ∈ call.parts) : sizeOf part < sizeOf call := by
  rcases call with ⟨name, args, options⟩
  rw [FilterCall.call.sizeOf_spec]
  rcases List.mem_append.mp h with harg | hoption
  · have hlt := List.sizeOf_lt_of_mem harg
    omega
  · rcases List.mem_map.mp hoption with ⟨⟨key, _⟩, hmem, rfl⟩
    have hlt := List.sizeOf_lt_of_mem hmem
    rw [Prod.mk.sizeOf_spec] at hlt
    dsimp only
    omega

/-- The parts of an expression are smaller than itself. -/
theorem Expr.sizeOf_lt_of_mem_parts {expr part : Expr} (h : part ∈ expr.parts) :
    sizeOf part < sizeOf expr := by
  -- One case for each way in which an expression has parts.
  cases expr with
  | literal value => cases h
  | path root steps =>
      rcases List.mem_flatMap.mp h with ⟨step, hstep, hpart⟩
      have hlt := List.sizeOf_lt_of_mem hstep
      have hlt' := Accessor.sizeOf_lt_of_mem_parts hpart
      rw [path.sizeOf_spec]
      omega
  | range start stop =>
      rw [range.sizeOf_spec]
      simp only [parts, List.mem_cons, List.not_mem_nil, or_false] at h
      rcases h with rfl | rfl <;> omega
  | filtered base chain =>
      rw [filtered.sizeOf_spec]
      rcases List.mem_cons.mp h with rfl | hchain
      · omega
      · rcases List.mem_flatMap.mp hchain with ⟨call, hcall, hpart⟩
        have hlt := List.sizeOf_lt_of_mem hcall
        have hlt' := FilterCall.sizeOf_lt_of_mem_parts hpart
        omega
  | binary op lhs rhs =>
      rw [binary.sizeOf_spec]
      simp only [parts, List.mem_cons, List.not_mem_nil, or_false] at h
      rcases h with rfl | rfl <;> omega

/-- What holds of an expression if it holds of its parts holds of every expression. -/
theorem Expr.byParts {motive : Expr → Prop}
    (step : ∀ expr, (∀ part ∈ expr.parts, motive part) → motive expr) (expr : Expr) : motive expr :=
  step expr fun part hpart =>
    have := Expr.sizeOf_lt_of_mem_parts hpart
    byParts step part
termination_by sizeOf expr

end Parts

/-- An expression is at fault, by an operator that there is none of or by a call. -/
def Expr.FailsBy (env : Environment) (scope : Scope) (place : Option Place) (expr : Expr)
    (fault : RenderFault) : Prop :=
  fault.place = place ∧ ((∃ op, fault.cause = .unknownOperator op) ∨
    ∃ input call, Reaches env scope place input call expr ∧
      call.FailsBy env scope place input fault.cause)

theorem Expr.FailsBy.of_part {part expr : Expr} {fault : RenderFault}
    (h : part.FailsBy env scope place fault)
    (hexpr : ∀ {input call}, Reaches env scope place input call part →
      Reaches env scope place input call expr) : expr.FailsBy env scope place fault := by
  rcases h with ⟨hplace, hoperator | ⟨input, call, hreaches, hcall⟩⟩
  · exact ⟨hplace, .inl hoperator⟩
  · exact ⟨hplace, .inr ⟨input, call, hexpr hreaches, hcall⟩⟩

/-- A rendering error of a call is its own or that of one of the expressions in it. -/
theorem FilterCall.failsBy_of_eval {name : String} {args : List Expr}
    {options : List (String × Expr)} {input : Value} {fault : RenderFault}
    (h : ((call name args options).eval env scope place input).result = .error (.render fault)) :
    (fault.place = place ∧ (call name args options).FailsBy env scope place input fault.cause) ∨
      ∃ filter, env.filters.get? name = some filter ∧
        ((valuesOf env scope place args).result = .error (.render fault) ∨
          ∃ values, (valuesOf env scope place args).result = .ok values ∧
            (optionsOf env scope place options).result = .error (.render fault)) := by
  rw [FilterCall.eval] at h
  cases hfilter : env.filters.get? name with
  | none =>
      rw [hfilter] at h
      cases h
      exact .inl ⟨rfl, .unknown hfilter⟩
  | some filter =>
      rw [hfilter] at h
      rcases bind_result_eq_error_iff.mp h with hargs | ⟨values, hargs, h⟩
      · exact .inr ⟨filter, rfl, .inl hargs⟩
      rcases bind_result_eq_error_iff.mp h with hoptions | ⟨named, hoptions, h⟩
      · exact .inr ⟨filter, rfl, .inr ⟨values, hargs, hoptions⟩⟩
      -- The filter is called, and a crash of it would not be a rendering error.
      cases happly : (filter.apply input values (.ofEntries named)).result with
      | ok value =>
          rw [Noted.mapFault, happly] at h
          cases h
      | error failure =>
          rw [Noted.mapFault, happly] at h
          cases failure with
          | crashed crash => cases h
          | rejected reason =>
              cases h
              exact .inl ⟨rfl, .rejected hfilter hargs hoptions happly⟩

/-- A rendering error of an expression comes from an operator or a call in it, and has the place
that the expression is given. -/
theorem Expr.failsBy_of_eval (expr : Expr) {fault : RenderFault}
    (h : (expr.eval env scope place).result = .error (.render fault)) :
    expr.FailsBy env scope place fault := by
  induction expr using Expr.byParts with
  | step expr ih =>
      cases expr with
      | literal value =>
          rw [Expr.eval] at h
          cases h
      | path root steps =>
          rw [Expr.eval] at h
          rcases bind_result_eq_error_iff.mp h with hkeys | ⟨keys, _, h⟩
          · rcases keysOf_eq_error_iff.mp hkeys with ⟨before, step, after, _, rfl, hbefore, hstep⟩
            rcases Accessor.eval_eq_error_iff.mp hstep with ⟨key, rfl, hkey⟩
            have hpart : key ∈ (path root (before ++ .key key :: after)).parts :=
              List.mem_flatMap.mpr ⟨.key key, by simp, List.mem_cons_self⟩
            exact (ih key hpart hkey).of_part (.key hbefore)
          · -- What a path does not lead to is a crash at worst.
            cases hresolve : scope.resolve root keys <;> rw [hresolve] at h <;> cases h
      | range start stop =>
          rw [Expr.eval] at h
          rcases bind_result_eq_error_iff.mp h with hstart | ⟨value, hstart, h⟩
          · exact (ih start List.mem_cons_self hstart).of_part .start
          · rcases bind_result_eq_error_iff.mp h with hstop | ⟨_, _, h⟩
            · have hpart : stop ∈ (range start stop).parts :=
                List.mem_cons_of_mem _ List.mem_cons_self
              exact (ih stop hpart hstop).of_part (.stop hstart)
            · cases h
      | filtered base chain =>
          rw [Expr.eval] at h
          rcases bind_result_eq_error_iff.mp h with hbase | ⟨value, hbase, hchain⟩
          · exact (ih base List.mem_cons_self hbase).of_part .base
          rcases applyChain_eq_error_iff.mp hchain with
            ⟨before, call, after, input, rfl, hbefore, hcall⟩
          rcases call with ⟨name, args, options⟩
          -- Whatever fails inside of the call that fails is a part of the expression.
          have hpart (arg : Expr) (harg : arg ∈ args ++ options.map Prod.snd) :
              arg ∈ (filtered base (before ++ .call name args options :: after)).parts :=
            List.mem_cons_of_mem _ (List.mem_flatMap.mpr ⟨.call name args options, by simp, harg⟩)
          rcases FilterCall.failsBy_of_eval hcall with
            ⟨hplace, hown⟩ | ⟨filter, hfilter, hargs | ⟨values, hargs, hoptions⟩⟩
          · exact ⟨hplace, .inr ⟨input, _, .call hbase hbefore, hown⟩⟩
          · rcases valuesOf_eq_error_iff.mp hargs with ⟨first, arg, rest, _, rfl, hfirst, harg⟩
            exact (ih arg (hpart arg (by simp)) harg).of_part
              (.argument hbase hbefore hfilter hfirst)
          · rcases optionsOf_eq_error_iff.mp hoptions with
              ⟨first, ⟨key, arg⟩, rest, _, rfl, hfirst, harg⟩
            exact (ih arg (hpart arg (by simp)) harg).of_part
              (.option hbase hbefore hfilter hargs hfirst)
      | binary op lhs rhs =>
          rw [Expr.eval] at h
          cases hoperator : env.operators.get? op with
          | none =>
              rw [hoperator] at h
              cases h
              exact ⟨rfl, .inl ⟨op, rfl⟩⟩
          | some operator =>
              rw [hoperator] at h
              rcases bind_result_eq_error_iff.mp h with hlhs | ⟨value, hlhs, h⟩
              · exact (ih lhs List.mem_cons_self hlhs).of_part (.lhs hoperator)
              · rcases bind_result_eq_error_iff.mp h with hrhs | ⟨_, _, h⟩
                · have hpart : rhs ∈ (binary op lhs rhs).parts :=
                    List.mem_cons_of_mem _ List.mem_cons_self
                  exact (ih rhs hpart hrhs).of_part (.rhs hoperator hlhs)
                · cases h

end Liquid
