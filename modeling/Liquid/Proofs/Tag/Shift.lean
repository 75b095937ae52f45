import Liquid.Proofs.Node.Shift
import Liquid.Tag.Standard

/-!
# Tags Behind a Text

No tag of the language looks at where its block stands, but to write it into its
node or into a fault. So a block that is compiled to a node is compiled to the
moved node when it is moved itself.

The steps of compiling are compared one with another. Those that read arguments
are the same on both sides, and what remains is asked of the steps that make
bodies.

## Main definitions

* `Tag.Carries`: What one step gives is given by the other too, moved.

## Theorems

* `Tag.standard_carries`: The tags of the language compile moved blocks.
-/

namespace Liquid

namespace Tag

/-- Whether the second step gives what the first one gives, moved. Nothing is said of faults. -/
def Carries {α β : Type} (move : α → β) (result : Except SyntaxFault α)
    (result' : Except SyntaxFault β) : Prop :=
  ∀ a, result = .ok a → result' = .ok (move a)

section Carries

variable {α β γ δ : Type} {move : α → β} {move' : γ → δ}

/-- A result goes with the one that it is moved to. -/
theorem carries_of_eq {a : α} {b : β} (h : move a = b) : Carries move (.ok a) (.ok b) := by
  intro a' ha
  cases ha
  rw [h]

theorem carries_ok (a : α) : Carries move (.ok a) (.ok (move a)) :=
  carries_of_eq rfl

/-- Where the first step is refused, nothing is asked of the second. -/
theorem carries_error (block : Block) (cause : SyntaxCause) (result : Except SyntaxFault β) :
    Carries move (block.error cause) result :=
  fun _ h => nomatch h

/-- Steps that go with a move do so one after the other. -/
theorem Carries.bind {result : Except SyntaxFault α} {result' : Except SyntaxFault β}
    {next : α → Except SyntaxFault γ} {next' : β → Except SyntaxFault δ}
    (h : Carries move result result') (hnext : ∀ a, Carries move' (next a) (next' (move a))) :
    Carries move' (result >>= next) (result' >>= next') := by
  intro c hc
  cases result with
  | error fault => cases hc
  | ok a =>
      rw [h a rfl]
      exact hnext a c hc

/-- Two steps that start alike. -/
theorem carries_bind (result : Except SyntaxFault α) {next : α → Except SyntaxFault γ}
    {next' : α → Except SyntaxFault δ} (hnext : ∀ a, Carries move' (next a) (next' a)) :
    Carries move' (result >>= next) (result >>= next') :=
  Carries.bind (show Carries id result result from fun _ h => h) hnext

theorem Carries.map {result : Except SyntaxFault α} {result' : Except SyntaxFault β} {f : α → γ}
    {f' : β → δ} (h : Carries move result result') (hf : ∀ a, move' (f a) = f' (move a)) :
    Carries move' (result.map f) (result'.map f') := by
  intro c hc
  cases result with
  | error fault => cases hc
  | ok a =>
      cases hc
      rw [h a rfl]
      exact congrArg Except.ok (hf a).symm

/-- A choice that does not depend on places goes with a move. -/
theorem Carries.ite {condition : Prop} [Decidable condition] {yes no : Except SyntaxFault α}
    {yes' no' : Except SyntaxFault β} (hyes : Carries move yes yes') (hno : Carries move no no') :
    Carries move (if condition then yes else no) (if condition then yes' else no') := by
  split
  · exact hyes
  · exact hno

end Carries

section Standard

variable (used : List Char) (block : Block)

theorem carries_elseBody :
    Carries (Option.map (List.map (Node.shifted used))) (elseBody block)
      (elseBody (block.shifted used)) := by
  unfold elseBody
  have hlast : (block.shifted used).sections.getLast? =
      block.sections.getLast?.map (Section.shifted used) :=
    List.getLast?_map
  rw [hlast]
  cases block.sections.getLast? with
  | none => exact carries_ok none
  | some last =>
      exact .ite (.ite (carries_ok (some last.body)) (carries_error _ _ _)) (carries_ok none)

theorem carries_branchOf (negated : Bool) (part : Section) :
    Carries (Branch.shifted used) (branchOf block negated part)
      (branchOf (block.shifted used) negated (part.shifted used)) :=
  .ite (carries_error _ _ _) (carries_bind _ fun _ => carries_ok _)

theorem carries_branchesOf (negated : Bool) (parts : List Section) :
    Carries (List.map (Branch.shifted used)) (branchesOf block negated parts)
      (branchesOf (block.shifted used) negated (parts.map (Section.shifted used))) := by
  induction parts generalizing negated with
  | nil => exact carries_ok []
  | cons part parts ih =>
      refine .ite (ih false) (.bind (carries_branchOf used block negated part) fun branch => ?_)
      exact .bind (ih false) fun branches => carries_ok (branch :: branches)

theorem carries_whensOf (parts : List Section) :
    Carries (List.map (When.shifted used)) (whensOf block parts)
      (whensOf (block.shifted used) (parts.map (Section.shifted used))) := by
  induction parts with
  | nil => exact carries_ok []
  | cons part parts ih =>
      refine .ite (.ite (carries_error _ _ _) (carries_bind _ fun values => ?_)) ih
      exact .bind ih fun whens => carries_ok (⟨values, part.body⟩ :: whens)

/-- The parameters of a loop are told by its arguments. -/
theorem carries_parameters (known : List String) (rounds : Nat) (header : Header)
    (ls : List Lexeme) :
    Carries id (parameters block known rounds header ls)
      (parameters (block.shifted used) known rounds header ls) := by
  -- Lexemes carry no places, so each round reads the same.
  induction rounds generalizing header ls with
  | zero => exact carries_ok header
  | succ rounds ih =>
      cases ls with
      | nil => exact carries_ok header
      | cons l ls =>
          unfold parameters
          split
          · exact ih _ _
          · exact ih _ _
          · refine carries_bind _ fun name => .ite (carries_error _ _ _) ?_
            split
            · exact carries_error _ _ _
            · exact carries_bind _ fun value => ih _ _

/-- The header of a loop says nothing of places. -/
theorem carries_header (known : List String) :
    Carries id (header block known) (header (block.shifted used) known) := by
  refine carries_bind _ fun lexemes => .ite (carries_error _ _ _) ?_
  refine carries_bind _ fun (name, ls) => ?_
  dsimp only
  split
  · exact carries_error _ _ _
  · exact carries_bind _ fun collection => carries_parameters used block known _ _ _

theorem carries_compileConditional (negated : Bool) :
    Carries (Node.shifted used) (compileConditional negated block)
      (compileConditional negated (block.shifted used)) := by
  refine .bind (carries_branchesOf used block negated block.sections) fun branches => ?_
  refine .bind (carries_elseBody used block) fun otherwise => ?_
  exact carries_of_eq (by simp [Node.shifted, Block.shifted])

theorem carries_compileCase :
    Carries (Node.shifted used) (compileCase block) (compileCase (block.shifted used)) := by
  refine .ite (carries_error _ _ _) (carries_bind _ fun subject => ?_)
  have hwhens := carries_whensOf used block (block.sections.drop 1)
  rw [List.map_drop] at hwhens
  refine .bind hwhens fun whens => .bind (carries_elseBody used block) fun otherwise => ?_
  exact carries_of_eq (by simp [Node.shifted, Block.shifted])

theorem carries_compileFor :
    Carries (Node.shifted used) (compileFor block) (compileFor (block.shifted used)) := by
  refine .bind (carries_header used block _) fun header => ?_
  rw [Block.body_shifted]
  rcases block with ⟨name, args, offset, place, sections, tokens⟩
  match sections with
  | [] => exact carries_of_eq (by simp [Node.shifted, Block.shifted])
  | [first] => exact carries_of_eq (by simp [Node.shifted, Block.shifted])
  | first :: other :: rest =>
      refine .ite (carries_of_eq ?_) (carries_error _ _ _)
      simp [Node.shifted, Block.shifted, Section.shifted]

theorem carries_compileTablerow :
    Carries (Node.shifted used) (compileTablerow block)
      (compileTablerow (block.shifted used)) := by
  refine .bind (carries_header used block _) fun header => .ite (carries_error _ _ _) ?_
  rw [Block.body_shifted]
  exact carries_of_eq (by simp [Node.shifted, Block.shifted])

theorem carries_compileControl {node : Node} (h : node.shifted used = node) (inLoop : Bool) :
    Carries (Node.shifted used) (compileControl node inLoop block)
      (compileControl node inLoop (block.shifted used)) :=
  .ite (carries_error _ _ _) (.ite (carries_error _ _ _) (carries_of_eq h))

theorem carries_compileCycle :
    Carries (Node.shifted used) (compileCycle block) (compileCycle (block.shifted used)) :=
  .ite (carries_error _ _ _) (carries_bind _ fun _ => carries_of_eq rfl)

theorem carries_compileAssign :
    Carries (Node.shifted used) (compileAssign block) (compileAssign (block.shifted used)) := by
  unfold compileAssign
  have hargs : (block.shifted used).args = block.args := rfl
  rw [hargs]
  cases assignment? block.args.toList with
  | none => exact carries_error _ _ _
  | some parts => exact carries_bind _ fun _ => carries_of_eq rfl

theorem carries_compileEcho :
    Carries (Node.shifted used) (compileEcho block) (compileEcho (block.shifted used)) :=
  .ite (carries_error _ _ _) (carries_bind _ fun _ => carries_of_eq rfl)

theorem carries_nameOf : Carries id (nameOf block) (nameOf (block.shifted used)) :=
  .ite (carries_ok _) (carries_error _ _ _)

/-- What a tag of the language compiles a block to is moved with the block. -/
theorem standard_carries {tag : Tag} (h : tag ∈ standard) (inLoop : Bool) :
    Carries (Node.shifted used) (tag.compile inLoop block)
      (tag.compile inLoop (block.shifted used)) := by
  simp only [standard, List.mem_cons, List.not_mem_nil, or_false] at h
  -- A tag after the other, in the order of the table.
  rcases h with rfl | rfl | rfl | rfl | rfl | rfl | rfl | rfl | rfl | rfl | rfl | rfl | rfl
  · exact carries_compileConditional used block false
  · exact carries_compileConditional used block true
  · exact carries_compileCase used block
  · exact carries_compileFor used block
  · exact carries_compileTablerow used block
  · exact carries_compileControl used block rfl inLoop
  · exact carries_compileControl used block rfl inLoop
  · exact carries_compileCycle used block
  · exact carries_compileAssign used block
  · exact (carries_nameOf used block).map fun name => by simp [Node.shifted, Block.body_shifted]
  · exact (carries_nameOf used block).map fun _ => rfl
  · exact (carries_nameOf used block).map fun _ => rfl
  · exact carries_compileEcho used block

end Standard

end Tag

end Liquid
