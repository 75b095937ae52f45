import Liquid.Proofs.Expr.Disjunction
import Liquid.Proofs.Render.Conditional
import Liquid.Proofs.Render.Visit
import Liquid.Proofs.Tag.Alternative

/-!
# Choices as Conditionals

The tags that choose among bodies can be said in terms of one another. A chain
of conditions is a conditional whose other body is the rest of the chain. An
`unless` exchanges the two sides: its rest is a chain that is rendered if the
condition holds. And a choice renders what the chain does that compares its
subject with one value after the other.

The last of these is true in one direction only. An operator has both of its
sides evaluated, and so a chain evaluates all values of a part even behind one
that is equal, and the subject again for each. A choice stops at the first value
that is equal, so it may have output where the chain fails. What the two have
noted on the way differs as well, but nothing else does.

A part of a choice lists its values between commas and `or`. The two differ
behind a filter with arguments, where a comma goes on with the arguments.

## Main definitions

* `Outcome.told`: What a step did, as far as a choice and a chain agree.
* `When.AsCondition`, `When.AsValues`: The two ways to write a part of a choice.
* `Choice.picked`: The body that a choice renders.
* `Choice.Written`: A chain and a choice of the same parts.
* `Clause.Nested`: The body that the rest of a chain is.

## Theorems

* `Choice.told_chain`: What a chain of comparisons does that does not fail.
* `Tag.compileCase_of_sections`: What a choice does.
* `Render.conditionals_desugar`: Conditionals in terms of each other.
-/

namespace Liquid

namespace Choice

/-- Whether a part of a choice has a value equal to the subject. -/
def holds (env : Environment) (scope : Scope) (subject : Expr) (part : When Node) : Bool :=
  part.values.any (Expr.equates env scope subject)

/-- The body of the first part that has a value equal to the subject, or else the other body. -/
def picked (env : Environment) (scope : Scope) (subject : Expr) (otherwise : Option (List Node))
    (parts : List (When Node)) : Option (List Node) :=
  match parts.find? (holds env scope subject) with
  | some part => some part.body
  | none => otherwise

/-- All values can be computed up to the first part that has one equal to the subject. -/
def Computes (env : Environment) (scope : Scope) (subject : Expr) : List (When Node) → Prop
  | [] => True
  | part :: parts =>
    (∀ value ∈ part.values, ∃ v, (value.eval env scope none).result = .ok v) ∧
      (holds env scope subject part = false → Computes env scope subject parts)

end Choice

/-- What a step did, but for its remarks and the place of a fault. -/
def Outcome.told {α : Type} (outcome : Outcome α) : List String × Scope × Exit α :=
  (outcome.chunks, outcome.scope, outcome.exit.unplaced)

/-- Leaving out the place of a fault makes none. -/
theorem Exit.unplaced_ne_failed {α : Type} {exit : Exit α} (h : ∀ fault, exit ≠ .failed fault)
    (fault : EvalFault) : exit.unplaced ≠ .failed fault := by
  cases exit with
  | failed other => exact absurd rfl (h other)
  | _ => exact h fault

namespace Render

/-- What is told of a render has no places in it. -/
theorem told_unplaced {α : Type} (x : Render α) (scope : Scope) :
    (x.unplaced scope).told = (x scope).told := by
  simp only [unplaced, Outcome.told, Outcome.unplaced]
  cases (x scope).exit with
  | failed fault => cases fault <;> rfl
  | _ => rfl

end Render

namespace When

/-- A part of a choice as a condition on the subject. -/
def AsCondition (subject : Expr) (part : When Node) (clause : Clause) : Prop :=
  clause.body = part.body ∧
    ∃ ls, Lexeme.body clause.args = .ok ls ∧ Grammar.Disjunction subject ls part.values

/-- A part of a choice as its values. -/
def AsValues (part : When Node) (clause : Clause) : Prop :=
  clause.body = part.body ∧
    ∃ ls, Lexeme.body clause.args = .ok ls ∧ Grammar.Alternatives ls part.values

end When

namespace Choice

section Outcome

variable {env : Environment} {scope : Scope} {subject : Expr} {otherwise : Option (List Node)}
  {parts : List (When Node)} {s : Value}

/-- The first part that holds is picked, or one of those behind it. -/
theorem picked_cons (part : When Node) :
    picked env scope subject otherwise (part :: parts) =
      if holds env scope subject part then some part.body
      else picked env scope subject otherwise parts := by
  unfold picked
  rw [List.find?_cons]
  cases holds env scope subject part <;> rfl

/-- Values that can be computed are compared with the subject, and nothing else is done. -/
theorem isAnyOf_of_computed (hs : (subject.eval env scope none).result = .ok s) {place : Place}
    {values : List Expr} (h : ∀ value ∈ values, ∃ v, (value.eval env scope none).result = .ok v) :
    ∃ remarks, Render.isAnyOf env place s values scope =
      ⟨[], remarks, scope, .done (values.any (Expr.equates env scope subject))⟩ := by
  induction values with
  | nil => exact ⟨[], rfl⟩
  | cons value values ih =>
      rw [List.forall_mem_cons] at h
      rcases h with ⟨⟨v, hv⟩, hvalues⟩
      rcases ih hvalues with ⟨remarks, hrest⟩
      have hequates : Expr.equates env scope subject value = s.equals v := by
        simp only [Expr.equates, hs, hv]
      -- The values behind one that is equal are not asked for, and note nothing.
      refine ⟨(value.eval env scope (some place)).remarks ++
        if s.equals v then [] else remarks, ?_⟩
      rw [Render.isAnyOf, Render.value, Render.evaluated_bind_of_ok (Expr.eval_eq_ok_iff.mpr hv),
        List.any_cons, hequates]
      cases s.equals v with
      | true => rfl
      | false => simp only [Bool.false_eq_true, if_false, hrest, Bool.false_or]

/-- A choice renders the body that is picked, if the values in front of it can be computed. -/
theorem told_renderWhens (hs : (subject.eval env scope none).result = .ok s) {place : Place}
    (h : Computes env scope subject parts) :
    (renderWhens env place s (renderOption env otherwise) parts scope).told =
      (renderOption env (picked env scope subject otherwise parts) scope).told := by
  induction parts with
  | nil => rfl
  | cons part parts ih =>
      rcases part with ⟨values, body⟩
      rcases h with ⟨hvalues, hrest⟩
      rcases @isAnyOf_of_computed _ _ _ _ hs place _ hvalues with ⟨remarks, hfound⟩
      rw [picked_cons, renderWhens, holds]
      change (Render.bind _ _ scope).told = _
      simp only [Render.bind, hfound]
      -- Remarks of the comparisons are not told, so only what they find matters.
      cases hholds : values.any (Expr.equates env scope subject) with
      | true => rfl
      | false => exact ih (hrest hholds)

/-- A chain of comparisons that does not fail renders the body that is picked, and it has computed
the subject and all values in front. -/
theorem told_chain (henv : env.operators = Environment.standard.operators) {clauses : List Clause}
    (h : List.Forall₂ (When.AsCondition subject) parts clauses) :
    ∃ chain, Clause.chain? env otherwise false clauses = some chain ∧
      ∀ scope, (∀ fault, (chain scope).exit ≠ .failed fault) →
        (chain scope).told =
            (renderOption env (picked env scope subject otherwise parts) scope).told ∧
          Computes env scope subject parts ∧
          (parts ≠ [] → ∃ s, (subject.eval env scope none).result = .ok s) := by
  induction h with
  | nil => exact ⟨_, rfl, fun scope _ => ⟨Render.told_unplaced _ scope, trivial, (absurd rfl ·)⟩⟩
  | @cons part clause parts clauses hpart _ ih =>
      rcases hpart with ⟨hbody, ls, hls, hdisjunction⟩
      rcases Grammar.parse_disjunction hls hdisjunction with ⟨first, others, hvalues, hparse⟩
      rcases ih with ⟨rest, hrest, htold⟩
      refine ⟨_, by rw [Clause.chain?, hparse, hrest]; rfl, fun scope hdone => ?_⟩
      cases hresult : ((Grammar.anyOf subject first others).eval env scope none).result with
      | error fault =>
          rw [Render.evaluated_bind_of_error hresult] at hdone
          exact absurd rfl (hdone fault)
      | ok value =>
          -- The condition has a value, so everything in it has one.
          rcases Expr.of_anyOf_eval henv hresult with ⟨hsubject, hcomputed, htruthy⟩
          rw [← hvalues] at hcomputed htruthy
          rw [Render.evaluated_bind_of_ok hresult] at hdone ⊢
          rw [htruthy] at hdone ⊢
          rw [picked_cons, holds]
          cases hholds : part.values.any (Expr.equates env scope subject) with
          | true =>
              refine ⟨?_, ⟨hcomputed, fun hnot => ?_⟩, fun _ => hsubject⟩
              · rw [← hbody]
                exact Render.told_unplaced (renderAll env clause.body) scope
              · rw [holds, hholds] at hnot
                cases hnot
          | false =>
              rw [hholds] at hdone
              rcases htold scope hdone with ⟨hpicked, hcomputes, _⟩
              exact ⟨hpicked, ⟨hcomputed, fun _ => hcomputes⟩, fun _ => hsubject⟩

end Outcome

end Choice

namespace Tag

open Clause (Sections)

section Compile

variable {env : Environment} {block : Block} {subject : Expr} {clauses : List Clause}
  {otherwise : Option (List Node)} {parts : List (When Node)} {sections : List Section}

/-- The values of a part are written with something. -/
theorem not_isEmpty_of_asValues {part : When Node} {clause : Clause} (h : part.AsValues clause) :
    clause.args.isEmpty = false := by
  rcases h with ⟨_, ls, hls, hvalues⟩
  rw [Bool.eq_false_iff]
  intro hempty
  have hnil : Lexeme.body "" = .ok [] := by decide +kernel
  rw [String.isEmpty_iff.mp hempty, hnil] at hls
  cases hls
  exact Grammar.alternatives_ne_nil hvalues rfl

/-- Sections that are written as clauses are read as their whens. -/
theorem whensOf_of_sections {name : String}
    (h : Sections env "when" name clauses otherwise sections) (hname : name = "when")
    (hparts : List.Forall₂ When.AsValues parts clauses) :
    ∃ whens, whensOf block sections = .ok whens ∧
      List.Forall₂ (fun part part' => part.values = part'.values ∧
        (renderAll env part.body).unplaced = (renderAll env part'.body).unplaced) whens parts := by
  induction h generalizing parts with
  | nil =>
      cases hparts
      exact ⟨[], rfl, .nil⟩
  | otherwise =>
      cases hparts
      exact ⟨[], by simp [whensOf], .nil⟩
  | @cons name clause clauses otherwise body offset place sections hbody _ ih =>
      cases hparts with
      | @cons part _ parts _ hpart hparts =>
          rcases ih rfl hparts with ⟨whens, hwhens, hsame⟩
          refine ⟨⟨part.values, body⟩ :: whens, ?_, .cons ⟨rfl, hpart.1 ▸ hbody⟩ hsame⟩
          -- The arguments are read as the values, so the section is not refused.
          have hvalues := values_eq_ok_iff.mpr hpart.2
          rw [whensOf]
          simp only [hname, beq_self_eq_true, if_true, not_isEmpty_of_asValues hpart,
            Bool.false_eq_true, if_false, hvalues, hwhens]
          rfl

/-- A choice renders the body that is picked, if what it computes on the way has a value. -/
theorem compileCase_of_sections {before : Section}
    (hsubject : ∃ ls, Lexeme.body block.args = .ok ls ∧ Grammar.Filtered ls subject)
    (hsections : block.sections = before :: sections) (hne : parts ≠ [])
    (h : Sections env "when" "when" clauses otherwise sections)
    (hparts : List.Forall₂ When.AsValues parts clauses) :
    ∃ node, compileCase block = .ok node ∧
      ∀ scope s, (subject.eval env scope none).result = .ok s →
        Choice.Computes env scope subject parts →
        (node.render env scope).told =
          (renderOption env (Choice.picked env scope subject otherwise parts) scope).told := by
  rcases hsubject with ⟨ls, hls, hfiltered⟩
  have hparse := Grammar.parse_filtered hls hfiltered
  have hargs := not_isEmpty_of_parse hparse
  rcases @whensOf_of_sections _ block _ _ _ _ _ h rfl hparts with ⟨whens, hwhens, hsame⟩
  -- There are parts, so the section that stands in front of them is not the last one.
  have hlast : block.sections.getLast? = sections.getLast? := by
    rw [hsections]
    cases hparts with
    | nil => exact absurd rfl hne
    | cons => cases h with | cons => exact List.getLast?_cons_cons
  rcases elseBody_of_sections h (by decide) (by decide) hlast with ⟨other, helse, hother⟩
  refine ⟨.choice subject whens other block.place, ?_, fun scope s hs hcomputes => ?_⟩
  · unfold compileCase readSource
    simp only [hargs, Bool.false_eq_true, if_false, hparse, hsections, List.drop_one,
      List.tail_cons, hwhens, helse]
    rfl
  · have hvalue := @Expr.eval_eq_ok_iff env scope (some block.place) subject s
    rw [Node.render, Render.value, Render.evaluated_bind_of_ok (hvalue.mpr hs)]
    have hwhens := @Render.unplaced_whens env block.place block.place s _ _ hother _ _ hsame
    change (renderWhens env block.place s (renderOption env other) whens scope).told = _
    rw [← Render.told_unplaced, hwhens, Render.told_unplaced]
    exact Choice.told_renderWhens hs hcomputes

end Compile

end Tag

/-- The body that the rest of a chain is: a conditional of its own, or else the other body. -/
inductive Clause.Nested (env : Environment) (inLoop : Bool) :
    List Clause → Option (List Node) → Except SyntaxFault (List Node) → Prop
  | last {otherwise : Option (List Node)} :
      Nested env inLoop [] otherwise (.ok (otherwise.getD []))
  | chain {clause : Clause} {clauses : List Clause} {otherwise : Option (List Node)}
      {inner : Block} :
      Sections env "elsif" "if" (clause :: clauses) otherwise inner.sections →
      Nested env inLoop (clause :: clauses) otherwise
        ((Tag.ifTag.compile inLoop inner).map fun node => [node])

/-- A chain and a choice that are written from the same parts. -/
structure Choice.Written (env : Environment) (subject : Expr) (otherwise : Option (List Node))
    (parts : List (When Node)) (chain choice : Block) : Prop where
  nonempty : parts ≠ []
  conditions : ∃ clauses, List.Forall₂ (When.AsCondition subject) parts clauses ∧
    Clause.Sections env "elsif" "if" clauses otherwise chain.sections
  subject : ∃ ls, Lexeme.body choice.args = .ok ls ∧ Grammar.Filtered ls subject
  /-- What stands in front of the first part belongs to none. -/
  values : ∃ clauses before sections, List.Forall₂ When.AsValues parts clauses ∧
    choice.sections = before :: sections ∧
    Clause.Sections env "when" "when" clauses otherwise sections

namespace Render

section Desugar

variable {env : Environment} {inLoop : Bool} {clauses : List Clause}
  {otherwise : Option (List Node)} {nested : Except SyntaxFault (List Node)}

/-- A list of one node renders like the node. -/
theorem renderAll_singleton (node : Node) : renderAll env [node] = node.render env := by
  funext scope
  change bind (node.render env) (fun _ => done ()) scope = _
  unfold bind
  generalize node.render env scope = outcome
  rcases outcome with ⟨chunks, remarks, scope, _ | _ | _ | _⟩ <;> simp [done]

/-- The rest of a chain does the same as a body. -/
theorem chain?_of_nested (h : Clause.Nested env inLoop clauses otherwise nested) :
    Clause.chain? env otherwise false clauses =
      nested.toOption.map fun body => (renderAll env body).unplaced := by
  -- The rest of a chain is an else, or a conditional of its own inside of one.
  cases h with
  | last => cases otherwise <;> rfl
  | @chain clause clauses otherwise inner hsections =>
      rw [← Tag.effect?_compileConditional hsections (by decide) false]
      unfold Tag.effect?
      change ((Tag.compileConditional false inner).toOption.map _) =
        ((Tag.compileConditional false inner).map _).toOption.map _
      cases Tag.compileConditional false inner with
      | error fault => rfl
      | ok node => simp only [Except.toOption, Except.map, Option.map_some, renderAll_singleton]

/-- A chain of which some condition is no expression is refused. -/
theorem chain?_eq_none {negated : Bool} {first : Clause}
    (h : Clause.chain? env otherwise false clauses = none) :
    Clause.chain? env otherwise negated (first :: clauses) = none := by
  rw [Clause.chain?, h]
  cases (Expr.parse first.args).toOption <;> rfl

/-- A chain of one clause and a body. -/
theorem chain?_of_body {negated : Bool} {first : Clause} {body : List Node}
    (h : Clause.chain? env otherwise false clauses = some (renderAll env body).unplaced) :
    Clause.chain? env otherwise negated (first :: clauses) =
      Clause.chain? env (some body) negated [first] := by
  rw [Clause.chain?, h]
  rfl

/-- A chain does what its first clause does in front of the body that the rest is. -/
theorem effect?_of_nested {name : String} {first : Clause} {whole : Block}
    (hwhole : Clause.Sections env "elsif" name (first :: clauses) otherwise whole.sections)
    (hname : name ≠ "else") (negated : Bool)
    (hnested : Clause.Nested env inLoop clauses otherwise nested) :
    (∀ fault, nested = .error fault →
      Tag.effect? env (Tag.compileConditional negated whole) = none) ∧
    ∀ body, nested = .ok body →
      Tag.effect? env (Tag.compileConditional negated whole) =
        Clause.chain? env (some body) negated [first] := by
  have hrest := chain?_of_nested hnested
  -- Both sides have the effect of the whole chain of clauses.
  have heffect := Tag.effect?_compileConditional hwhole hname negated
  constructor
  · rintro fault rfl
    exact heffect.trans (chain?_eq_none hrest)
  · rintro body rfl
    exact heffect.trans (chain?_of_body hrest)

/-- A negated condition exchanges the two bodies. -/
theorem chain?_negated (first : Clause) (body : List Node) :
    Clause.chain? env (some body) true [first] =
      Clause.chain? env (some first.body) false [⟨first.args, body⟩] := by
  simp only [Clause.chain?]
  cases (Expr.parse first.args).toOption with
  | none => rfl
  | some condition =>
      refine congrArg some (congrArg (bind _) (funext fun value => ?_))
      cases value.isTruthy <;> rfl

end Desugar

/-- A chain of conditions, its first one negated or not, is a conditional with the rest in one of
its bodies. A choice does what the chain of its comparisons does, unless that fails, and it renders
the body of the first part that has an equal value, or else the other body. -/
theorem conditionals_desugar (env : Environment) (inLoop : Bool) :
    (∀ (first : Clause) (rest : List Clause) (otherwise : Option (List Node)) (whole : Block)
        (nested : Except SyntaxFault (List Node)),
      Clause.Sections env "elsif" "if" (first :: rest) otherwise whole.sections →
      Clause.Nested env inLoop rest otherwise nested →
      (∀ fault, nested = .error fault →
        Tag.effect? env (Tag.ifTag.compile inLoop whole) = none) ∧
      ∀ body outer, nested = .ok body →
        Clause.Sections env "elsif" "if" [first] (some body) outer.sections →
        Tag.effect? env (Tag.ifTag.compile inLoop whole) =
          Tag.effect? env (Tag.ifTag.compile inLoop outer)) ∧
    (∀ (first : Clause) (rest : List Clause) (otherwise : Option (List Node)) (whole : Block)
        (nested : Except SyntaxFault (List Node)),
      Clause.Sections env "elsif" "unless" (first :: rest) otherwise whole.sections →
      Clause.Nested env inLoop rest otherwise nested →
      (∀ fault, nested = .error fault →
        Tag.effect? env (Tag.unlessTag.compile inLoop whole) = none) ∧
      ∀ body outer, nested = .ok body →
        Clause.Sections env "elsif" "if" [⟨first.args, body⟩] (some first.body) outer.sections →
        Tag.effect? env (Tag.unlessTag.compile inLoop whole) =
          Tag.effect? env (Tag.ifTag.compile inLoop outer)) ∧
    (env.operators = Environment.standard.operators →
      ∀ (subject : Expr) (otherwise : Option (List Node)) (parts : List (When Node))
        (chain choice : Block), Choice.Written env subject otherwise parts chain choice →
      ∃ chained chosen, Tag.ifTag.compile inLoop chain = .ok chained ∧
        Tag.caseTag.compile inLoop choice = .ok chosen ∧
        ∀ scope, (∀ fault, (chained.render env scope).exit ≠ .failed fault) →
          (chosen.render env scope).told = (chained.render env scope).told ∧
          (chosen.render env scope).told =
            (renderOption env (Choice.picked env scope subject otherwise parts) scope).told) := by
  refine ⟨?_, ?_, ?_⟩
  -- The first clause keeps its place, and the others are nested behind it.
  · intro first rest otherwise whole nested hwhole hnested
    rcases effect?_of_nested hwhole (by decide) false hnested with ⟨hrefused, hsame⟩
    refine ⟨hrefused, fun body outer hbody houter => ?_⟩
    have hother := Tag.effect?_compileConditional houter (by decide) false
    exact (hsame body hbody).trans hother.symm
  -- The same, with the first body and what is nested exchanged.
  · intro first rest otherwise whole nested hwhole hnested
    rcases effect?_of_nested hwhole (by decide) true hnested with ⟨hrefused, hsame⟩
    refine ⟨hrefused, fun body outer hbody houter => ?_⟩
    have hother := Tag.effect?_compileConditional houter (by decide) false
    exact (hsame body hbody).trans ((chain?_negated first body).trans hother.symm)
  -- The chain is done only if no comparison fails, and then both pick the same part.
  · intro henv subject otherwise parts chain choice hwritten
    rcases hwritten with ⟨hne, ⟨conditions, hconditions, hchain⟩, hsubject,
      ⟨values, before, sections, hvalues, hsections, hchoice⟩⟩
    rcases @Choice.told_chain env _ otherwise _ henv _ hconditions with ⟨step, hstep, htold⟩
    rcases Tag.compileCase_of_sections hsubject hsections hne hchoice hvalues with
      ⟨chosen, hchosen, hpicked⟩
    have heffect := Tag.effect?_compileConditional hchain (by decide) false
    rw [hstep] at heffect
    rcases Option.map_eq_some_iff.mp heffect with ⟨chained, hchained, rfl⟩
    refine ⟨chained, chosen, toOption_eq_some_iff.mp hchained, hchosen, fun scope hdone => ?_⟩
    rcases htold scope (Exit.unplaced_ne_failed hdone) with ⟨hchain, hcomputes, hsome⟩
    rw [told_unplaced] at hchain
    rcases hsome hne with ⟨s, hs⟩
    have hchosen := hpicked scope s hs hcomputes
    exact ⟨hchosen.trans hchain.symm, hchosen⟩

section Numbers

/-- A section that is one text. -/
def textSection (name args text : String) : Section :=
  ⟨name, args, 0, .start, [.text text]⟩

/-- A chain whose condition compares a name with three numbers in a row. -/
def numberChain : Block :=
  ⟨"if", "x == 1 or x == 2 or x == 3", 0, .start,
    [textSection "if" "x == 1 or x == 2 or x == 3" "B", textSection "else" "" "E"], []⟩

/-- A choice that lists the three numbers, with both separators between them. -/
def numberChoice : Block :=
  ⟨"case", "x", 0, .start,
    [textSection "case" "x" " ", textSection "when" "1, 2 or 3" "B",
      textSection "else" "" "E"], []⟩

/-- A chain with another body. -/
def nameChain : Block :=
  ⟨"if", "b", 0, .start, [textSection "if" "b" "B", textSection "else" "" "E"], []⟩

/-- The three numbers. -/
def numbers : List Expr :=
  [.literal (.integer 1), .literal (.integer 2), .literal (.integer 3)]

theorem filtered_name (name : String) (start : Nat) :
    Grammar.Filtered [⟨.identifier, name, start⟩] (.path name []) :=
  .mk (.path rfl .nil) .nil

theorem filtered_number {text : String} {n : Int} (h : Parser.integerOf? text = some n)
    (start : Nat) : Grammar.Filtered [⟨.integer, text, start⟩] (.literal (.integer n)) :=
  .mk (.literal (.integer rfl (Grammar.whole_iff.mp h))) .nil

theorem integerOf?_numbers :
    Parser.integerOf? "1" = some 1 ∧ Parser.integerOf? "2" = some 2 ∧
      Parser.integerOf? "3" = some 3 := by
  decide +kernel

/-- Three comparisons with the same name are a disjunction. -/
theorem disjunction_numbers :
    ∃ ls, Lexeme.body "x == 1 or x == 2 or x == 3" = .ok ls ∧
      Grammar.Disjunction (.path "x" []) ls numbers := by
  rcases integerOf?_numbers with ⟨h1, h2, h3⟩
  refine ⟨[⟨.identifier, "x", 0⟩, ⟨.operator, "==", 2⟩, ⟨.integer, "1", 5⟩, ⟨.keyword, "or", 7⟩,
    ⟨.identifier, "x", 10⟩, ⟨.operator, "==", 12⟩, ⟨.integer, "2", 15⟩, ⟨.keyword, "or", 17⟩,
    ⟨.identifier, "x", 20⟩, ⟨.operator, "==", 22⟩, ⟨.integer, "3", 25⟩], by decide +kernel, ?_⟩
  have hx := filtered_name "x"
  exact .more (.mk (hx _) rfl rfl (filtered_number h1 _)) rfl rfl
    (.more (.mk (hx _) rfl rfl (filtered_number h2 _)) rfl rfl
      (.one (.mk (hx _) rfl rfl (filtered_number h3 _))))

/-- The same three numbers as the values of a when. -/
theorem alternatives_numbers :
    ∃ ls, Lexeme.body "1, 2 or 3" = .ok ls ∧ Grammar.Alternatives ls numbers := by
  rcases integerOf?_numbers with ⟨h1, h2, h3⟩
  refine ⟨[⟨.integer, "1", 0⟩, ⟨.symbol, ",", 1⟩, ⟨.integer, "2", 3⟩, ⟨.keyword, "or", 5⟩,
    ⟨.integer, "3", 8⟩], by decide +kernel, ?_⟩
  exact .more (filtered_number h1 _) (.inr ⟨⟨rfl, rfl⟩, rfl⟩)
    (.more (filtered_number h2 _) (.inl ⟨.inl rfl, rfl⟩) (.one (filtered_number h3 _)))

/-- The chain and the choice are written from the same part. -/
theorem written_numbers :
    Choice.Written Environment.standard (.path "x" []) (some [.text "E"])
      [⟨numbers, [.text "B"]⟩] numberChain numberChoice where
  nonempty := List.cons_ne_nil _ _
  conditions := ⟨[⟨"x == 1 or x == 2 or x == 3", [.text "B"]⟩],
    .cons ⟨rfl, disjunction_numbers⟩ .nil, .cons rfl (.otherwise rfl)⟩
  subject := ⟨[⟨.identifier, "x", 0⟩], by decide +kernel, filtered_name "x" 0⟩
  values := ⟨[⟨"1, 2 or 3", [.text "B"]⟩], _, _,
    .cons ⟨rfl, alternatives_numbers⟩ .nil, rfl, .cons rfl (.otherwise rfl)⟩

/-- The disjunction is compiled as one condition. -/
theorem compile_numberChain :
    Tag.ifTag.compile false numberChain =
      .ok (.conditional [⟨Grammar.anyOf (.path "x" []) (.literal (.integer 1)) numbers.tail, false,
        [.text "B"]⟩] (some [.text "E"]) .start) := by
  rcases disjunction_numbers with ⟨ls, hls, hdisjunction⟩
  rcases Grammar.parse_disjunction hls hdisjunction with ⟨first, others, hnumbers, hparse⟩
  cases hnumbers
  change Tag.compileConditional false numberChain = _
  simp [Tag.compileConditional, Tag.branchesOf, Tag.branchOf, numberChain, textSection, hparse]
  rfl

theorem compile_nameChain :
    Tag.ifTag.compile false nameChain =
      .ok (.conditional [⟨.path "b" [], false, [.text "B"]⟩] (some [.text "E"]) .start) := by
  have hb : Lexeme.body "b" = .ok [⟨.identifier, "b", 0⟩] := by decide +kernel
  change Tag.compileConditional false nameChain = _
  simp [Tag.compileConditional, Tag.branchesOf, Tag.branchOf, nameChain, textSection,
    Grammar.parse_filtered hb (filtered_name "b" 0)]
  rfl

end Numbers

/-- Three values with both separators between them, asked for in a scope where the second one is
equal, and a chain of two conditions. -/
theorem conditionals_desugar_numbers :
    let env := Environment.standard
    let part (name args body : String) : Section := ⟨name, args, 0, .start, [.text body]⟩
    let whole : Block := ⟨"if", "a", 0, .start,
      [part "if" "a" "A", part "elsif" "b" "B", part "else" "" "E"], []⟩
    let opposite : Block := ⟨"unless", "a", 0, .start,
      [part "unless" "a" "A", part "elsif" "b" "B", part "else" "" "E"], []⟩
    let nested : Node :=
      .conditional [⟨.path "b" [], false, [.text "B"]⟩] (some [.text "E"]) .start
    let outer : Block := ⟨"if", "a", 0, .start,
      [part "if" "a" "A", ⟨"else", "", 0, .start, [nested]⟩], []⟩
    let exchanged : Block := ⟨"if", "a", 0, .start,
      [⟨"if", "a", 0, .start, [nested]⟩, part "else" "" "A"], []⟩
    let chain : Block := ⟨"if", "x == 1 or x == 2 or x == 3", 0, .start,
      [part "if" "x == 1 or x == 2 or x == 3" "B", part "else" "" "E"], []⟩
    let choice : Block := ⟨"case", "x", 0, .start,
      [part "case" "x" " ", part "when" "1, 2 or 3" "B", part "else" "" "E"], []⟩
    let numbers : List Expr := [.literal (.integer 2), .literal (.integer 3)]
    let chained : Node :=
      .conditional [⟨Grammar.anyOf (.path "x" []) (.literal (.integer 1)) numbers, false,
        [.text "B"]⟩] (some [.text "E"]) .start
    let scope := Scope.ofData [("x", .integer 2)]
    Tag.effect? env (Tag.ifTag.compile false whole) =
        Tag.effect? env (Tag.ifTag.compile false outer) ∧
      Tag.effect? env (Tag.unlessTag.compile false opposite) =
        Tag.effect? env (Tag.ifTag.compile false exchanged) ∧
      Tag.ifTag.compile false chain = .ok chained ∧
      ∃ chosen, Tag.caseTag.compile false choice = .ok chosen ∧
        (chosen.render env scope).told = (chained.render env scope).told := by
  intro env part whole opposite nested outer exchanged chain choice numbers chained scope
  have hinner : Clause.Nested env false [⟨"b", [.text "B"]⟩] (some [.text "E"])
      ((Tag.ifTag.compile false nameChain).map fun node => [node]) :=
    .chain (.cons rfl (.otherwise rfl))
  rw [compile_nameChain] at hinner
  rcases conditionals_desugar env false with ⟨hif, hunless, hcase⟩
  refine ⟨?_, ?_, compile_numberChain, ?_⟩
  · exact (hif ⟨"a", [.text "A"]⟩ _ _ whole _ (.cons rfl (.cons rfl (.otherwise rfl))) hinner).2
      [nested] outer rfl (.cons rfl (.otherwise rfl))
  · exact (hunless ⟨"a", [.text "A"]⟩ _ _ opposite _ (.cons rfl (.cons rfl (.otherwise rfl)))
      hinner).2 [nested] exchanged rfl (.cons rfl (.otherwise rfl))
  -- The chain and the choice are written as the law asks, so they tell the same.
  · rcases hcase rfl _ _ _ chain choice written_numbers with ⟨node, chosen, hnode, hchosen, htold⟩
    cases hnode.symm.trans compile_numberChain
    have hexit : (chained.render env scope).exit = .done () := rfl
    refine ⟨chosen, hchosen, (htold scope fun fault hfault => ?_).1⟩
    cases hexit.symm.trans hfault

/-- A comma behind arguments goes on with them, and so it is no separator of values: the part lists
one value here, and the chain compares two. -/
theorem comma_behind_arguments :
    let first : Expr := .filtered (.path "x" []) [.call "slice" [.literal (.integer 0)] []]
    let second : Expr := .literal (.integer 1)
    let both : Expr := .filtered (.path "x" []) [.call "slice" [.literal (.integer 0), second] []]
    let chain : Block := ⟨"if", "s == x | slice: 0 or s == 1", 0, .start,
      [⟨"if", "s == x | slice: 0 or s == 1", 0, .start, [.text "B"]⟩], []⟩
    let choice : Block := ⟨"case", "s", 0, .start,
      [⟨"case", "s", 0, .start, []⟩, ⟨"when", "x | slice: 0, 1", 0, .start, [.text "B"]⟩], []⟩
    let chained : Node :=
      .conditional [⟨Grammar.anyOf (.path "s" []) first [second], false, [.text "B"]⟩] none .start
    let chosen : Node := .choice (.path "s" []) [⟨[both], [.text "B"]⟩] none .start
    let scope := Scope.ofData [("s", .integer 1), ("x", .string "ab")]
    Expr.parse "x | slice: 0" = .ok first ∧ Expr.parse "1" = .ok second ∧
      Tag.ifTag.compile false chain = .ok chained ∧ Tag.caseTag.compile false choice = .ok chosen ∧
      (chained.render Environment.standard scope).told = (["B"], scope, .done ()) ∧
      (chosen.render Environment.standard scope).told = ([], scope, .done ()) := by
  intro first second both chain choice chained chosen scope
  have hcondition : Lexeme.body "s == x | slice: 0 or s == 1" = .ok
      [⟨.identifier, "s", 0⟩, ⟨.operator, "==", 2⟩, ⟨.identifier, "x", 5⟩, ⟨.symbol, "|", 7⟩,
        ⟨.identifier, "slice", 9⟩, ⟨.symbol, ":", 14⟩, ⟨.integer, "0", 16⟩, ⟨.keyword, "or", 18⟩,
        ⟨.identifier, "s", 21⟩, ⟨.operator, "==", 23⟩, ⟨.integer, "1", 26⟩] := by decide +kernel
  have hparse : Expr.parse "s == x | slice: 0 or s == 1" =
      .ok (Grammar.anyOf (.path "s" []) first [second]) := by
    rw [Expr.parse, Expr.parseWith, hcondition]
    rfl
  have hcompiled : Tag.ifTag.compile false chain = .ok chained := by
    change Tag.compileConditional false chain = .ok chained
    simp [Tag.compileConditional, Tag.branchesOf, Tag.branchOf, chain, hparse]
    rfl
  have hfirst : Lexeme.body "x | slice: 0" = .ok
      [⟨.identifier, "x", 0⟩, ⟨.symbol, "|", 2⟩, ⟨.identifier, "slice", 4⟩, ⟨.symbol, ":", 9⟩,
        ⟨.integer, "0", 11⟩] := by decide +kernel
  have hsecond : Lexeme.body "1" = .ok [⟨.integer, "1", 0⟩] := by decide +kernel
  -- Behind the argument of a filter, the comma goes on with the arguments.
  have hboth : Lexeme.body "x | slice: 0, 1" = .ok
      [⟨.identifier, "x", 0⟩, ⟨.symbol, "|", 2⟩, ⟨.identifier, "slice", 4⟩, ⟨.symbol, ":", 9⟩,
        ⟨.integer, "0", 11⟩, ⟨.symbol, ",", 12⟩, ⟨.integer, "1", 14⟩] := by decide +kernel
  have hsubject : Lexeme.body "s" = .ok [⟨.identifier, "s", 0⟩] := by decide +kernel
  have hvalues : (Block.readAll "x | slice: 0, 1" fun ls =>
      Parser.separated Tag.alternative? Parser.filteredValue (ls.length + 1) ls) = .ok [both] := by
    rw [Block.readAll, hboth]
    rfl
  have hchosen : Tag.caseTag.compile false choice = .ok chosen := by
    change Tag.compileCase choice = .ok chosen
    simp [Tag.compileCase, Tag.whensOf, choice, hvalues,
      Grammar.parse_filtered hsubject (.mk (.path rfl .nil) .nil)]
    rfl
  refine ⟨?_, ?_, hcompiled, hchosen, rfl, rfl⟩
  · rw [Expr.parse, Expr.parseWith, hfirst]
    rfl
  · rw [Expr.parse, Expr.parseWith, hsecond]
    rfl

end Render

end Liquid
