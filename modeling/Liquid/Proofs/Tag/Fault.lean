import Liquid.Tag.Standard

/-!
# Where Tags Place Their Faults

A tag of the language that rejects a block does so in one of two ways. What it
finds wrong itself it places where the block was opened. What is wrong inside an
expression has no place, because an expression does not know where it stands;
its text is one of the arguments of the block or of a section. No tag names any
other place, such as that of a section.

Whether a step is of this kind is kept by putting steps together, so that it is
asked of each single rejection and of nothing else.

## Main definitions

* `SyntaxCause.isExpression`, `SyntaxCause.isOrder`: Causes inside an expression,
  and causes that are about no arguments.
* `Block.Argues`: The texts that are read as expressions.
* `Tag.Rejection`: The two ways.
* `Tag.Rejects`: A step on a block that fails in one of them.
* `Tag.Places`: What that says of places.

## Theorems

* `Tag.standard_rejects`: The tags of the language reject in these ways.
* `Tag.standard_places`: The tags of the language place their faults.
-/

namespace Liquid

/-- Whether a cause is inside an expression. -/
def SyntaxCause.isExpression : SyntaxCause → Bool
  | expression .. => true
  | _ => false

/-- Whether a cause is about what stands where and not about any arguments. -/
def SyntaxCause.isOrder : SyntaxCause → Bool
  | emptyOutput | namelessTag | unknownTag _ | endWithoutTag .. | branchOutside ..
  | branchAfterElse .. | neverClosed .. => true
  | _ => false

/-- Whether a text is among the arguments of a block: at the end of its own, or all of those of a
section. -/
def Block.Argues (block : Block) (text : String) : Prop :=
  text.toList <:+ block.args.toList ∨ ∃ part ∈ block.sections, text = part.args

namespace Tag

/-- How a block is rejected: for a reason of the tag, placed where the block was opened, or for one
inside an expression, without a place. -/
inductive Rejection (block : Block) : SyntaxFault → Prop
  | own {cause : SyntaxCause} :
      cause.isExpression = false → cause.isOrder = false → Rejection block ⟨cause, some block.place⟩
  | inside {reason : Expr.Fault} {text : String} :
      block.Argues text → Rejection block ⟨.expression reason text, none⟩

/-- Whether a step on a block fails by rejecting it. -/
def Rejects (block : Block) {α : Type} (result : Except SyntaxFault α) : Prop :=
  ∀ fault, result = .error fault → Rejection block fault

/-- Whether a step on a block fails with no place or with that of the block. -/
def Places (block : Block) {α : Type} (result : Except SyntaxFault α) : Prop :=
  ∀ fault, result = .error fault → fault.place = none ∨ fault.place = some block.place

section Rejects

variable {α β : Type} {block : Block}

/-- What is rejected has the place of the block, or none yet. -/
theorem Rejects.places {result : Except SyntaxFault α} (h : Rejects block result) :
    Places block result := by
  intro fault hfault
  cases h fault hfault with
  | own _ _ => exact .inr rfl
  | inside _ => exact .inl rfl

/-- The arguments of the tag itself are among those of the block. -/
theorem argues_args (block : Block) : block.Argues block.args :=
  .inl List.suffix_rfl

/-- So are the arguments of each of its branches. -/
theorem argues_part {part : Section} (h : part ∈ block.sections) : block.Argues part.args :=
  .inr ⟨part, h, rfl⟩

theorem rejects_ok (a : α) : Rejects block (.ok a) :=
  fun _ h => nomatch h

/-- A tag may refuse a block for any reason that is not that of an expression or of an order. -/
theorem rejects_error {cause : SyntaxCause} (hexpr : cause.isExpression = false)
    (horder : cause.isOrder = false) : Rejects block (block.error cause : Except _ α) := by
  intro fault hfault
  cases hfault
  exact .own hexpr horder

/-- What is wrong with an expression is told with its source, which is written in the block. -/
theorem rejects_readSource {source : String} (h : block.Argues source)
    (result : Except Expr.Fault α) : Rejects block (readSource source result) := by
  intro fault hfault
  cases result with
  | ok a => cases hfault
  | error reason =>
      cases hfault
      exact .inside h

theorem rejects_ofArgs (result : Except Expr.Fault α) : Rejects block (ofArgs block result) :=
  rejects_readSource (argues_args block) result

/-- Steps that only fail by rejecting the block do so one after the other. -/
theorem Rejects.bind {result : Except SyntaxFault α} {next : α → Except SyntaxFault β}
    (h : Rejects block result) (hnext : ∀ a, Rejects block (next a)) :
    Rejects block (result >>= next) := by
  intro fault hfault
  cases result with
  | ok a => exact hnext a fault hfault
  | error cause =>
      cases hfault
      exact h _ rfl

/-- What is made of a result has no part in how it is refused. -/
theorem Rejects.map {result : Except SyntaxFault α} (h : Rejects block result) (f : α → β) :
    Rejects block (result.map f) := by
  intro fault hfault
  cases result with
  | ok a => cases hfault
  | error cause =>
      cases hfault
      exact h _ rfl

/-- Nor has the choice between two ways. -/
theorem Rejects.ite {condition : Prop} [Decidable condition] {yes no : Except SyntaxFault α}
    (hyes : Rejects block yes) (hno : Rejects block no) :
    Rejects block (if condition then yes else no) := by
  split
  · exact hyes
  · exact hno

end Rejects

section Standard

variable (block : Block)

theorem rejects_elseBody : Rejects block (elseBody block) := by
  unfold elseBody
  split
  · exact .ite (.ite (rejects_ok _) (rejects_error rfl rfl)) (rejects_ok _)
  · exact rejects_ok none

theorem rejects_branchesOf (negated : Bool) {parts : List Section} (h : parts ⊆ block.sections) :
    Rejects block (branchesOf block negated parts) := by
  induction parts generalizing negated with
  | nil => exact rejects_ok []
  | cons part parts ih =>
      rcases List.cons_subset.mp h with ⟨hpart, hparts⟩
      refine .ite (ih false hparts)
        (.bind ?_ fun branch => .bind (ih false hparts) fun branches => rejects_ok _)
      exact .ite (rejects_error rfl rfl)
        (.bind (rejects_readSource (argues_part hpart) _) fun condition => rejects_ok _)

theorem rejects_whensOf {parts : List Section} (h : parts ⊆ block.sections) :
    Rejects block (whensOf block parts) := by
  induction parts with
  | nil => exact rejects_ok []
  | cons part parts ih =>
      rcases List.cons_subset.mp h with ⟨hpart, hparts⟩
      refine .ite (.ite (rejects_error rfl rfl) ?_) (ih hparts)
      exact .bind (rejects_readSource (argues_part hpart) _) fun values =>
        .bind (ih hparts) fun whens => rejects_ok _

/-- A step that goes on with the rest of the parameters goes on with the same block. -/
theorem rejects_parameters (known : List String) (rounds : Nat) (header : Header)
    (ls : List Lexeme) : Rejects block (parameters block known rounds header ls) := by
  -- One modifier is read in each round.
  induction rounds generalizing header ls with
  | zero => exact rejects_ok header
  | succ rounds ih =>
      cases ls with
      | nil => exact rejects_ok header
      | cons l ls =>
          unfold parameters
          split
          · exact ih _ _
          · exact ih _ _
          · refine .bind (rejects_ofArgs _) fun name => .ite (rejects_error rfl rfl) ?_
            split
            · exact rejects_error rfl rfl
            · exact .bind (rejects_ofArgs _) fun value => ih _ _

/-- The header of a loop is refused for what is written in it. -/
theorem rejects_header (known : List String) : Rejects block (header block known) := by
  refine .bind (rejects_ofArgs _) fun lexemes => .ite (rejects_error rfl rfl) ?_
  refine .bind (rejects_ofArgs _) fun (name, ls) => ?_
  dsimp only
  split
  · exact rejects_error rfl rfl
  · exact .bind (rejects_ofArgs _) fun collection => rejects_parameters block known _ _ _

theorem rejects_nameOf : Rejects block (nameOf block) :=
  .ite (rejects_ok _) (rejects_error rfl rfl)

theorem rejects_compileConditional (negated : Bool) :
    Rejects block (compileConditional negated block) :=
  .bind (rejects_branchesOf block negated (List.Subset.refl _)) fun _ =>
    .bind (rejects_elseBody block) fun _ => rejects_ok _

theorem rejects_compileCase : Rejects block (compileCase block) := by
  refine .ite (rejects_error rfl rfl)
    (.bind (rejects_readSource (argues_args block) _) fun subject => ?_)
  exact .bind (rejects_whensOf block (List.drop_subset 1 _)) fun _ =>
    .bind (rejects_elseBody block) fun _ => rejects_ok _

theorem rejects_compileFor : Rejects block (compileFor block) := by
  refine .bind (rejects_header block _) fun header => ?_
  split
  · exact .ite (rejects_ok _) (rejects_error rfl rfl)
  · exact rejects_ok _

theorem rejects_compileTablerow : Rejects block (compileTablerow block) :=
  .bind (rejects_header block _) fun _ => .ite (rejects_error rfl rfl) (rejects_ok _)

theorem rejects_compileControl (node : Node) (inLoop : Bool) :
    Rejects block (compileControl node inLoop block) :=
  .ite (rejects_error rfl rfl) (.ite (rejects_error rfl rfl) (rejects_ok _))

theorem rejects_compileCycle : Rejects block (compileCycle block) :=
  .ite (rejects_error rfl rfl)
    (.bind (rejects_readSource (argues_args block) _) fun _ => rejects_ok _)

/-- The value of an assignment is what its text ends with. -/
theorem suffix_of_assignment? {cs name value : List Char}
    (h : assignment? cs = some (name, value)) : value <:+ cs := by
  unfold assignment? at h
  dsimp only at h
  split at h
  · next rest hrest =>
      split at h
      · cases h
        have hbehind : '=' :: rest <:+ cs :=
          hrest ▸ (List.dropWhile_suffix _).trans (List.dropWhile_suffix _)
        exact (List.dropWhile_suffix _).trans ((List.suffix_cons _ _).trans hbehind)
      · cases h
  · cases h

theorem rejects_compileAssign : Rejects block (compileAssign block) := by
  unfold compileAssign
  split
  · exact rejects_error rfl rfl
  · next name value hparts =>
      have hvalue : block.Argues (String.ofList value) := by
        left
        rw [String.toList_ofList]
        exact suffix_of_assignment? hparts
      exact .bind (rejects_readSource hvalue _) fun _ => rejects_ok _

theorem rejects_compileEcho : Rejects block (compileEcho block) :=
  .ite (rejects_error rfl rfl)
    (.bind (rejects_readSource (argues_args block) _) fun _ => rejects_ok _)

/-- A tag of the language that rejects a block does it in one of the two ways. -/
theorem standard_rejects {tag : Tag} (h : tag ∈ standard) (inLoop : Bool) :
    Rejects block (tag.compile inLoop block) := by
  simp only [standard, List.mem_cons, List.not_mem_nil, or_false] at h
  -- A tag after the other, in the order of the table.
  rcases h with rfl | rfl | rfl | rfl | rfl | rfl | rfl | rfl | rfl | rfl | rfl | rfl | rfl
  · exact rejects_compileConditional block false
  · exact rejects_compileConditional block true
  · exact rejects_compileCase block
  · exact rejects_compileFor block
  · exact rejects_compileTablerow block
  · exact rejects_compileControl block .breakLoop inLoop
  · exact rejects_compileControl block .continueLoop inLoop
  · exact rejects_compileCycle block
  · exact rejects_compileAssign block
  · exact (rejects_nameOf block).map _
  · exact (rejects_nameOf block).map _
  · exact (rejects_nameOf block).map _
  · exact rejects_compileEcho block

/-- A tag of the language that rejects a block says where that was opened, or nothing. -/
theorem standard_places {tag : Tag} (h : tag ∈ standard) (inLoop : Bool) :
    Places block (tag.compile inLoop block) :=
  (standard_rejects block h inLoop).places

end Standard

end Tag

end Liquid
