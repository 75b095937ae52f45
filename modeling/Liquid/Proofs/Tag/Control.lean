import Liquid.Proofs.Node.Inside
import Liquid.Proofs.Tag.Section

/-!
# Tags and Control

What the tags of the language have to do with leaving and skipping. Two of them
become a node that does so, and they are accepted in a loop only. The two that
say of themselves that they are loops become one, so that the first section of
such a block is the main body of the node.

## Main definitions

* `Tag.Contains`: The tag keeps control in loops.

## Theorems

* `Tag.standard_contains`: The tags of the language do.
-/

namespace Liquid

namespace Tag

/-- Whether the tag becomes a node that leaves or skips in a loop only, and a loop if it says that
it is one. Its nodes are none of the host. -/
def Contains (tag : Tag) : Prop :=
  ∀ {inLoop : Bool} {block : Block} {node : Node}, tag.compile inLoop block = .ok node →
    node.isCustom = false ∧ (node.isControl = true → inLoop = true) ∧
      (tag.isLoop = true → Node.isMainBody (node, 0) = true)

section Shape

variable {block : Block} {node : Node}

theorem compileConditional_eq_ok {negated : Bool}
    (h : compileConditional negated block = .ok node) :
    ∃ branches otherwise, node = .conditional branches otherwise block.place := by
  rcases bind_eq_ok_iff.mp h with ⟨branches, _, h⟩
  rcases bind_eq_ok_iff.mp h with ⟨otherwise, _, h⟩
  cases h
  exact ⟨branches, otherwise, rfl⟩

theorem compileCase_eq_ok (h : compileCase block = .ok node) :
    ∃ subject whens otherwise, node = .choice subject whens otherwise block.place := by
  unfold compileCase at h
  by_cases hargs : block.args.isEmpty
  · simp [hargs, Block.error] at h
  · simp only [hargs, Bool.false_eq_true, if_false] at h
    rcases bind_eq_ok_iff.mp h with ⟨subject, _, h⟩
    rcases bind_eq_ok_iff.mp h with ⟨whens, _, h⟩
    rcases bind_eq_ok_iff.mp h with ⟨otherwise, _, h⟩
    cases h
    exact ⟨subject, whens, otherwise, rfl⟩

/-- What a loop tag makes is a loop over its first section. -/
theorem compileFor_eq_ok (h : compileFor block = .ok node) :
    ∃ name selection otherwise, node = .loop name selection block.body otherwise block.place := by
  rcases bind_eq_ok_iff.mp h with ⟨header, _, h⟩
  -- A second section can only be the one for an empty collection, and takes no arguments.
  match hsections : block.sections with
  | [] | [_] =>
      rw [hsections] at h
      cases h
      exact ⟨_, _, none, rfl⟩
  | _ :: other :: _ =>
      rw [hsections] at h
      by_cases hargs : other.args.isEmpty
      · simp only [hargs, if_true] at h
        cases h
        exact ⟨_, _, some other.body, rfl⟩
      · simp [hargs, Block.error] at h

/-- What a table tag makes is a table over its first section. -/
theorem compileTablerow_eq_ok (h : compileTablerow block = .ok node) :
    ∃ name selection columns, node = .tablerow name selection columns block.body block.place := by
  rcases bind_eq_ok_iff.mp h with ⟨header, _, h⟩
  by_cases hreversed : header.reversed
  · simp [hreversed, Block.error] at h
  · simp only [hreversed, Bool.false_eq_true, if_false] at h
    cases h
    exact ⟨_, _, _, rfl⟩

end Shape

/-- Each tag of the language keeps control in loops. -/
theorem standard_contains {tag : Tag} (h : tag ∈ standard) : Contains tag := by
  intro inLoop block node hnode
  have hno {p : Prop} (hfalse : false = true) : p := absurd hfalse Bool.false_ne_true
  simp only [standard, List.mem_cons, List.not_mem_nil, or_false] at h
  -- Only break and continue are control nodes, and they ask for a loop.
  rcases h with rfl | rfl | rfl | rfl | rfl | rfl | rfl | rfl | rfl | rfl | rfl | rfl | rfl
  · rcases compileConditional_eq_ok hnode with ⟨_, _, rfl⟩
    exact ⟨rfl, hno, hno⟩
  · rcases compileConditional_eq_ok hnode with ⟨_, _, rfl⟩
    exact ⟨rfl, hno, hno⟩
  · rcases compileCase_eq_ok hnode with ⟨_, _, _, rfl⟩
    exact ⟨rfl, hno, hno⟩
  · rcases compileFor_eq_ok hnode with ⟨_, _, _, rfl⟩
    exact ⟨rfl, hno, fun _ => rfl⟩
  · rcases compileTablerow_eq_ok hnode with ⟨_, _, _, rfl⟩
    exact ⟨rfl, hno, fun _ => rfl⟩
  · rcases compileControl_eq_ok_iff.mp hnode with ⟨_, hloop, rfl⟩
    exact ⟨rfl, fun _ => hloop, hno⟩
  · rcases compileControl_eq_ok_iff.mp hnode with ⟨_, hloop, rfl⟩
    exact ⟨rfl, fun _ => hloop, hno⟩
  · rcases compileCycle_eq_ok hnode with ⟨_, _, rfl⟩
    exact ⟨rfl, hno, hno⟩
  · rcases compileAssign_eq_ok hnode with ⟨_, _, rfl⟩
    exact ⟨rfl, hno, hno⟩
  · rcases map_eq_ok_iff.mp hnode with ⟨_, _, rfl⟩
    exact ⟨rfl, hno, hno⟩
  · rcases map_eq_ok_iff.mp hnode with ⟨_, _, rfl⟩
    exact ⟨rfl, hno, hno⟩
  · rcases map_eq_ok_iff.mp hnode with ⟨_, _, rfl⟩
    exact ⟨rfl, hno, hno⟩
  · rcases compileEcho_eq_ok hnode with ⟨_, rfl⟩
    exact ⟨rfl, hno, hno⟩

end Tag

end Liquid
