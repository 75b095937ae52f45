import Liquid.Tag

/-!
# Conditional Tags

The tags that choose among bodies: `if`, its opposite `unless`, and `case`. The
two conditionals differ in one thing, that `unless` negates its first
condition. A `case` compares its subject with the values of each `when`; what
stands before the first of these belongs to no section that is kept.

Only the last section can be an `else`, because blocks are closed to any branch
behind one.

## Main definitions

* `Tag.ifTag`, `Tag.unlessTag`, `Tag.caseTag`: The tags.
-/

namespace Liquid

namespace Tag

/-- The body of the last section, if that is an `else`, which has no arguments. -/
def elseBody (block : Block) : Except SyntaxFault (Option (List Node)) :=
  match block.sections.getLast? with
  | some last =>
    if last.name == "else" then
      if last.args.isEmpty then .ok (some last.body) else block.error .elseWithArguments
    else .ok none
  | none => .ok none

/-- A section with a condition as a branch. -/
def branchOf (block : Block) (negated : Bool) (part : Section) : Except SyntaxFault (Branch Node) :=
  if part.args.isEmpty then block.error (.missingCondition part.name)
  else do
    let condition ← readSource part.args (Expr.parse part.args)
    .ok ⟨condition, negated, part.body⟩

/-- The branches of a conditional, where `negated` is about the first one. -/
def branchesOf (block : Block) : Bool → List Section → Except SyntaxFault (List (Branch Node))
  | _, [] => .ok []
  | negated, part :: parts =>
    if part.name == "else" then branchesOf block false parts
    else do
      let branch ← branchOf block negated part
      let branches ← branchesOf block false parts
      .ok (branch :: branches)

/-- A conditional, its first condition negated or not. -/
def compileConditional (negated : Bool) (block : Block) : Except SyntaxFault Node := do
  let branches ← branchesOf block negated block.sections
  let otherwise ← elseBody block
  .ok (.conditional branches otherwise block.place)

/-- Renders the first body whose condition holds. -/
def ifTag : Tag where
  name := "if"
  endName := some "endif"
  branchNames := ["elsif", "else"]
  compile _ := compileConditional false

/-- Like `if`, with the first condition negated. -/
def unlessTag : Tag where
  name := "unless"
  endName := some "endunless"
  branchNames := ["elsif", "else"]
  compile _ := compileConditional true

/-- What stands between two values of a `when`. -/
def alternative? (ls : List Lexeme) : Option (List Lexeme) :=
  (Parser.symbol? "," ls).or (Parser.word? "or" ls)

/-- The sections of a `case` that hold values. -/
def whensOf (block : Block) : List Section → Except SyntaxFault (List (When Node))
  | [] => .ok []
  | part :: parts =>
    if part.name == "when" then
      if part.args.isEmpty then block.error .missingWhenValue
      else do
        let values ← Block.readAll part.args fun ls =>
          Parser.separated alternative? Parser.filteredValue (ls.length + 1) ls
        let whens ← whensOf block parts
        .ok (⟨values, part.body⟩ :: whens)
    else whensOf block parts

/-- A choice by the value of a subject. -/
def compileCase (block : Block) : Except SyntaxFault Node :=
  if block.args.isEmpty then block.error .missingSubject
  else do
    let subject ← readSource block.args (Expr.parse block.args)
    -- The first section is what stands before any `when`.
    let whens ← whensOf block (block.sections.drop 1)
    let otherwise ← elseBody block
    .ok (.choice subject whens otherwise block.place)

/-- Renders the first body that lists the value of the subject. -/
def caseTag : Tag where
  name := "case"
  endName := some "endcase"
  branchNames := ["when", "else"]
  compile _ := compileCase

end Tag

end Liquid
