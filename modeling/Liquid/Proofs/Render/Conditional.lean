import Liquid.Proofs.Arrangement.Step
import Liquid.Proofs.Render.Unplaced

/-!
# Chains of Conditions

A conditional is written as sections, each with the source of its condition, and
compiled to branches. What it does can be said from the sections alone: the
conditions are asked in turn, the first one perhaps negated, and the body of the
first that holds is rendered, or the other body if none does. A condition that
is no expression makes the whole chain one that is refused.

Said in this way a chain is made up of its first clause and the rest, which is a
chain again. Where a section stands, and by which branch tag it was started,
has no part in it.

## Main definitions

* `Clause`: A body and the source of what it is rendered for.
* `Clause.Sections`: Sections that are written from clauses.
* `Tag.effect?`: What a compiled node does, without places.
* `Clause.chain?`: What a chain of clauses does.

## Theorems

* `Tag.effect?_compileConditional`: A conditional does what its clauses say.
-/

namespace Liquid

/-- A body and the source of what it is rendered for, which is a condition or values. -/
structure Clause where
  args : String
  body : List Node

namespace Clause

/-- Sections that are written from clauses and another body: the first is started under a name of
its own, and the others under a later one. Only the places in the bodies may be different. -/
inductive Sections (env : Environment) (later : String) :
    String → List Clause → Option (List Node) → List Section → Prop
  | nil {name : String} : Sections env later name [] none []
  | otherwise {name : String} {body body' : List Node} {offset : Nat} {place : Place} :
      (renderAll env body').unplaced = (renderAll env body).unplaced →
      Sections env later name [] (some body) [⟨"else", "", offset, place, body'⟩]
  | cons {name : String} {clause : Clause} {clauses : List Clause} {otherwise : Option (List Node)}
      {body : List Node} {offset : Nat} {place : Place} {parts : List Section} :
      (renderAll env body).unplaced = (renderAll env clause.body).unplaced →
      Sections env later later clauses otherwise parts →
      Sections env later name (clause :: clauses) otherwise
        (⟨name, clause.args, offset, place, body⟩ :: parts)

/-- What a chain of clauses does, where `negated` is about the first condition: nothing if one of
the conditions is no expression. -/
def chain? (env : Environment) (otherwise : Option (List Node)) :
    Bool → List Clause → Option (Render Unit)
  | _, [] => some (renderOption env otherwise).unplaced
  | negated, clause :: clauses => do
    let condition ← (Expr.parse clause.args).toOption
    let rest ← chain? env otherwise false clauses
    some do
      let value ← Render.evaluated fun scope => condition.eval env scope none
      if value.isTruthy != negated then (renderAll env clause.body).unplaced else rest

end Clause

namespace Tag

open Clause (Sections)

/-- What a compiled node does, without places; nothing if it is refused. -/
def effect? (env : Environment) (result : Except SyntaxFault Node) : Option (Render Unit) :=
  result.toOption.map fun node => (node.render env).unplaced

section Sections

variable {env : Environment} {later name : String} {clauses : List Clause}
  {otherwise : Option (List Node)} {parts : List Section} {block : Block}

/-- The last of the sections is the other body, if there is one. -/
theorem getLast?_of_sections (h : Sections env later name clauses otherwise parts)
    (hname : name ≠ "else") (hlater : later ≠ "else") :
    (otherwise = none → ∀ last ∈ parts.getLast?, last.name ≠ "else") ∧
      ∀ body, otherwise = some body → ∃ last, parts.getLast? = some last ∧ last.name = "else" ∧
        last.args = "" ∧ (renderAll env last.body).unplaced = (renderAll env body).unplaced := by
  induction h with
  | nil => exact ⟨fun _ _ hlast => (nomatch hlast), fun _ hbody => (nomatch hbody)⟩
  | otherwise hbody =>
      refine ⟨fun hnone => (nomatch hnone), fun body hsome => ?_⟩
      cases hsome
      exact ⟨_, rfl, rfl, rfl, hbody⟩
  | @cons name clause clauses otherwise body offset place parts hbody hrest ih =>
      rcases ih hlater with ⟨hnone, hsome⟩
      -- The last section is this one, or that of the sections behind it.
      cases parts with
      | nil =>
          refine ⟨fun _ last hlast => ?_, fun body hbody => ?_⟩
          · cases hlast
            exact hname
          · rcases hsome body hbody with ⟨_, hlast, _⟩
            cases hlast
      | cons part parts =>
          rw [List.getLast?_cons_cons]
          exact ⟨hnone, hsome⟩

/-- The other body is read, whatever stands in front of it. -/
theorem elseBody_of_sections (h : Sections env later name clauses otherwise parts)
    (hname : name ≠ "else") (hlater : later ≠ "else")
    (hlast : block.sections.getLast? = parts.getLast?) :
    ∃ body, elseBody block = .ok body ∧
      (renderOption env body).unplaced = (renderOption env otherwise).unplaced := by
  rcases getLast?_of_sections h hname hlater with ⟨hnone, hsome⟩
  unfold elseBody
  rw [hlast]
  -- Without an else the last section is a clause, and is not taken for one.
  cases otherwise with
  | none =>
      refine ⟨none, ?_, rfl⟩
      cases hparts : parts.getLast? with
      | none => rfl
      | some last =>
          have hne := hnone rfl last hparts
          simp only [beq_iff_eq, if_neg hne]
  | some body =>
      rcases hsome body rfl with ⟨last, hparts, hlastName, hargs, hbody⟩
      refine ⟨some last.body, ?_, hbody⟩
      simp [hparts, hlastName, hargs]

/-- An empty condition is refused. -/
theorem parse_isEmpty {args : String} (h : args.isEmpty = true) :
    (Expr.parse args).toOption = none := by
  rw [String.isEmpty_iff.mp h, Arrangement.parse_empty]
  rfl

/-- What is an expression is written with something. -/
theorem not_isEmpty_of_parse {args : String} {expr : Expr} (h : Expr.parse args = .ok expr) :
    args.isEmpty = false := by
  rw [Bool.eq_false_iff]
  intro hempty
  have hnone := parse_isEmpty hempty
  rw [h] at hnone
  cases hnone

/-- A section with a condition becomes a branch, if the condition is an expression. -/
theorem toOption_branchOf (negated : Bool) (part : Section) :
    (branchOf block negated part).toOption =
      (Expr.parse part.args).toOption.map fun condition => ⟨condition, negated, part.body⟩ := by
  unfold branchOf
  by_cases hargs : part.args.isEmpty = true
  · rw [if_pos hargs, parse_isEmpty hargs]
    rfl
  · rw [if_neg hargs]
    unfold readSource
    cases Expr.parse part.args <;> rfl

/-- The branches of sections do what the clauses say. -/
theorem effect_branchesOf (block : Block) (h : Sections env "elsif" name clauses otherwise parts)
    (hname : name ≠ "else") {other : Option (List Node)}
    (hother : (renderOption env other).unplaced = (renderOption env otherwise).unplaced)
    (place : Place) (negated : Bool) :
    ((branchesOf block negated parts).toOption.map fun branches =>
      (renderBranches env place (renderOption env other) branches).unplaced) =
        Clause.chain? env otherwise negated clauses := by
  induction h generalizing negated with
  | nil => exact congrArg some hother
  | otherwise => exact congrArg some hother
  | @cons name clause clauses otherwise body offset place' parts hbody _ ih =>
      have ih := ih (by decide) hother false
      rw [branchesOf]
      simp only [beq_iff_eq, if_neg hname]
      rw [toOption_bind, toOption_branchOf, Clause.chain?, ← ih]
      -- A condition that is refused makes the whole chain refused, wherever it stands.
      cases (Expr.parse clause.args).toOption with
      | none => rfl
      | some condition =>
          simp only [Option.map_some, Option.bind_some, toOption_bind]
          cases (branchesOf block false parts).toOption with
          | none => rfl
          | some branches =>
              simp only [Option.bind_some, Option.map_some, Except.toOption, renderBranches,
                Render.unplaced_bind, Render.unplaced_value, Render.unplaced_ite, hbody]
              rfl

/-- A conditional does what its clauses say. -/
theorem effect?_compileConditional (h : Sections env "elsif" name clauses otherwise block.sections)
    (hname : name ≠ "else") (negated : Bool) :
    effect? env (compileConditional negated block) =
      Clause.chain? env otherwise negated clauses := by
  rcases elseBody_of_sections h hname (by decide) rfl with ⟨other, helse, hother⟩
  rw [← effect_branchesOf block h hname hother block.place negated]
  unfold effect? compileConditional
  rw [helse]
  cases branchesOf block negated block.sections <;> rfl

end Sections

end Tag

end Liquid
