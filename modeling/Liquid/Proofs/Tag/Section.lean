import Liquid.Environment
import Liquid.Proofs.Except
import Liquid.Proofs.Node.Leaf

/-!
# Sections and Bodies

What the tags of the language make of the sections of a block. Each section
becomes a body of the node, in the order of the source, and nothing is taken
from one section into another. Only the first section of a `case` is dropped.

That an `else` comes last is a property of the blocks that are compiled, not of
the tags. The conditionals rely on it: they read the `else` from the end of the
sections and pass over it elsewhere.

## Main definitions

* `Tag.Fits`: Sections that a block of the tag can have.
* `Tag.firstPart`: The number of the first section that a tag keeps.
* `Tag.Keeps`: The tag makes its sections the bodies of a node.

## Theorems

* `Tag.standard_keeps`: The tags of the language do.
* `Tag.compile_eq_ok_iff_inLoop`: Only the tags that leave or skip ask for a loop.
-/

namespace Liquid

namespace Tag

/-- Whether a block of the tag can have the sections. The first is called like the tag, the others
like its branches, and none follows an `else`. A tag that stands alone has no sections. -/
def Fits (tag : Tag) : List Section → Prop
  | [] => tag.endName = none
  | first :: rest =>
    tag.endName ≠ none ∧ first.name = tag.name ∧ (∀ part ∈ rest, part.name ∈ tag.branchNames) ∧
      ∀ part ∈ (first :: rest).dropLast, part.name ≠ "else"

/-- The number of the first section that becomes a body. -/
def firstPart (tag : Tag) : Nat :=
  if tag.name = "case" then 1 else 0

/-- Whether the tag makes nodes that show nothing themselves, and whose bodies are those of the
sections, from the first that it keeps. -/
def Keeps (tag : Tag) : Prop :=
  ∀ {inLoop : Bool} {block : Block} {node : Node}, tag.Fits block.sections →
    tag.compile inLoop block = .ok node →
    node.content? = none ∧ node.firstPart = tag.firstPart ∧
      node.bodies = (block.sections.drop tag.firstPart).map Section.body

/-- The sections that are no `else`, and the last one if it is. -/
theorem filter_append_filter_getLast? (parts : List Section)
    (h : ∀ part ∈ parts.dropLast, part.name ≠ "else") :
    parts.filter (·.name != "else") ++ parts.getLast?.toList.filter (·.name == "else") = parts := by
  rcases List.eq_nil_or_concat parts with rfl | ⟨init, last, rfl⟩
  · rfl
  · rw [List.concat_eq_append, List.dropLast_concat] at h
    have hinit : init.filter (·.name != "else") = init := by
      rw [List.filter_eq_self]
      intro part hpart
      simpa using h part hpart
    rw [List.concat_eq_append, List.filter_append, hinit, List.getLast?_concat]
    by_cases hlast : last.name = "else" <;> simp [hlast]

/-- What is taken for the else is the last section, if it is named so. -/
theorem elseBody_eq_ok {block : Block} {otherwise : Option (List Node)}
    (h : elseBody block = .ok otherwise) :
    otherwise.toList =
      (block.sections.getLast?.toList.filter (·.name == "else")).map Section.body := by
  unfold elseBody at h
  cases hlast : block.sections.getLast? with
  | none =>
      rw [hlast] at h
      cases h
      rfl
  | some last =>
      rw [hlast] at h
      -- An else that has arguments is refused.
      by_cases hname : last.name = "else"
      · by_cases hargs : last.args.isEmpty
        · simp only [hname, hargs, beq_self_eq_true, if_true] at h
          cases h
          simp [hname]
        · simp [hname, hargs, Block.error] at h
      · simp only [beq_iff_eq, hname, if_false] at h
        cases h
        simp [hname]

/-- The branches are the sections that are no else, in order. -/
theorem branchesOf_eq_ok {block : Block} {parts : List Section} {negated : Bool}
    {branches : List (Branch Node)} (h : branchesOf block negated parts = .ok branches) :
    branches.map Branch.body = (parts.filter (·.name != "else")).map Section.body := by
  induction parts generalizing negated branches with
  | nil =>
      cases h
      rfl
  | cons part parts ih =>
      unfold branchesOf at h
      by_cases hname : part.name = "else"
      · simp only [hname, beq_self_eq_true, if_true] at h
        simp [hname, ih h]
      · simp only [beq_iff_eq, hname, if_false] at h
        rcases bind_eq_ok_iff.mp h with ⟨branch, hbranch, h⟩
        rcases bind_eq_ok_iff.mp h with ⟨rest, hrest, h⟩
        cases h
        have hbody : branch.body = part.body := by
          unfold branchOf at hbranch
          by_cases hargs : part.args.isEmpty
          · simp [hargs, Block.error] at hbranch
          · simp only [hargs, Bool.false_eq_true, if_false] at hbranch
            rcases bind_eq_ok_iff.mp hbranch with ⟨condition, _, hbranch⟩
            cases hbranch
            rfl
        -- Only the first condition is negated, which the induction is not about.
        simp [hname, hbody, ih hrest]

/-- The whens are the sections of that name, in order. -/
theorem whensOf_eq_ok {block : Block} {parts : List Section} {whens : List (When Node)}
    (h : whensOf block parts = .ok whens) :
    whens.map When.body = (parts.filter (·.name == "when")).map Section.body := by
  -- On the parts; one with another name is passed over.
  induction parts generalizing whens with
  | nil =>
      cases h
      rfl
  | cons part parts ih =>
      unfold whensOf at h
      by_cases hname : part.name = "when"
      · by_cases hargs : part.args.isEmpty
        · simp [hname, hargs, Block.error] at h
        · simp only [hname, hargs, beq_self_eq_true, if_true, Bool.false_eq_true, if_false] at h
          rcases bind_eq_ok_iff.mp h with ⟨values, _, h⟩
          rcases bind_eq_ok_iff.mp h with ⟨rest, hrest, h⟩
          cases h
          simp [hname, ih hrest]
      · simp only [beq_iff_eq, hname, if_false] at h
        simp [hname, ih h]

/-- Both conditionals keep all of their sections: branches first, and the else at the end. -/
theorem keeps_of_conditional {tag : Tag} (negated : Bool)
    (hcompile : ∀ inLoop, tag.compile inLoop = compileConditional negated)
    (hend : tag.endName ≠ none) (hname : tag.name ≠ "case") : Keeps tag := by
  intro inLoop block node hfits h
  rw [hcompile] at h
  unfold compileConditional at h
  rcases bind_eq_ok_iff.mp h with ⟨branches, hbranches, h⟩
  rcases bind_eq_ok_iff.mp h with ⟨otherwise, hotherwise, h⟩
  cases h
  -- Only the last section can be an else, or the block would have been refused at the next branch.
  have hlast : ∀ part ∈ block.sections.dropLast, part.name ≠ "else" := by
    rcases block with ⟨name, args, offset, place, sections, tokens⟩
    cases sections with
    | nil => exact absurd hfits hend
    | cons first rest => exact hfits.2.2.2
  unfold firstPart
  rw [if_neg hname]
  refine ⟨rfl, rfl, ?_⟩
  calc branches.map Branch.body ++ otherwise.toList
      = (block.sections.filter (·.name != "else") ++
          block.sections.getLast?.toList.filter (·.name == "else")).map Section.body := by
        rw [branchesOf_eq_ok hbranches, elseBody_eq_ok hotherwise, List.map_append]
    _ = block.sections.map Section.body := by
        rw [filter_append_filter_getLast? _ hlast]

theorem caseTag_keeps : Keeps caseTag := by
  intro inLoop block node hfits h
  change compileCase block = .ok node at h
  unfold compileCase at h
  rcases block with ⟨name, args, offset, place, sections, tokens⟩
  cases sections with
  | nil => cases hfits
  | cons first rest =>
      rcases hfits with ⟨_, hfirst, hrest, hlast⟩
      by_cases hargs : args.isEmpty
      · simp [hargs, Block.error] at h
      simp only [hargs, Bool.false_eq_true, if_false] at h
      rcases bind_eq_ok_iff.mp h with ⟨subject, _, h⟩
      rcases bind_eq_ok_iff.mp h with ⟨whens, hwhens, h⟩
      rcases bind_eq_ok_iff.mp h with ⟨otherwise, hotherwise, h⟩
      cases h
      refine ⟨rfl, rfl, ?_⟩
      have hwhens := whensOf_eq_ok hwhens
      have hotherwise := elseBody_eq_ok hotherwise
      -- The first section is called `case`, and so the `else` is not that one.
      have hgetLast : (first :: rest).getLast?.toList.filter (·.name == "else") =
          rest.getLast?.toList.filter (·.name == "else") := by
        cases rest with
        | nil => simp [hfirst, caseTag]
        | cons second others => simp
      -- Behind it there are only branches, so what is no `else` is a `when`.
      have hfilter : rest.filter (·.name == "when") = rest.filter (·.name != "else") := by
        apply List.filter_congr
        intro part hpart
        have hname := hrest part hpart
        simp only [caseTag, List.mem_cons, List.not_mem_nil, or_false] at hname
        rcases hname with hname | hname <;> simp [hname]
      have hlast' : ∀ part ∈ rest.dropLast, part.name ≠ "else" := by
        intro part hpart
        cases rest with
        | nil => cases hpart
        | cons second others => exact hlast part (List.mem_cons_of_mem _ hpart)
      calc whens.map When.body ++ otherwise.toList
          = (rest.filter (·.name != "else") ++
              rest.getLast?.toList.filter (·.name == "else")).map Section.body := by
            rw [hwhens, hotherwise, hgetLast, List.drop_one, List.tail_cons, hfilter,
              List.map_append]
        _ = rest.map Section.body := by
            rw [filter_append_filter_getLast? _ hlast']

/-- With no branches there is one section. -/
theorem sections_of_branchNames_eq_nil {tag : Tag} {sections : List Section}
    (hbranches : tag.branchNames = []) (hend : tag.endName ≠ none) (h : tag.Fits sections) :
    ∃ only, sections = [only] := by
  cases sections with
  | nil => exact absurd h hend
  | cons first rest =>
      rcases h with ⟨_, _, hrest, _⟩
      rw [hbranches] at hrest
      rw [List.eq_nil_iff_forall_not_mem.mpr fun part hpart => nomatch hrest part hpart]
      exact ⟨first, rfl⟩

theorem forTag_keeps : Keeps forTag := by
  intro inLoop block node hfits h
  change compileFor block = .ok node at h
  unfold compileFor at h
  rcases bind_eq_ok_iff.mp h with ⟨header, _, h⟩
  rcases block with ⟨name, args, offset, place, sections, tokens⟩
  match sections, hfits with
  | [only], _ =>
      cases h
      exact ⟨rfl, rfl, rfl⟩
  | [first, other], _ =>
      by_cases hargs : other.args.isEmpty
      · simp only [hargs, if_true] at h
        cases h
        exact ⟨rfl, rfl, rfl⟩
      · simp [hargs, Block.error] at h
  | first :: second :: third :: others, ⟨_, _, hrest, hlast⟩ =>
      -- The second section would be an `else` with another behind it.
      have hname : second.name = "else" := by
        simpa [forTag] using hrest second List.mem_cons_self
      exact absurd hname (hlast second (by simp))

theorem tablerowTag_keeps : Keeps tablerowTag := by
  intro inLoop block node hfits h
  rcases sections_of_branchNames_eq_nil rfl (by decide) hfits with ⟨only, honly⟩
  change compileTablerow block = .ok node at h
  unfold compileTablerow at h
  rcases bind_eq_ok_iff.mp h with ⟨header, _, h⟩
  by_cases hreversed : header.reversed
  · simp [hreversed, Block.error] at h
  · simp only [hreversed, Bool.false_eq_true, if_false] at h
    cases h
    refine ⟨rfl, rfl, ?_⟩
    rw [honly]
    simp [Node.bodies, Block.body, honly, firstPart, tablerowTag]

theorem captureTag_keeps : Keeps captureTag := by
  intro inLoop block node hfits h
  rcases sections_of_branchNames_eq_nil rfl (by decide) hfits with ⟨only, honly⟩
  rcases map_eq_ok_iff.mp h with ⟨name, _, rfl⟩
  refine ⟨rfl, rfl, ?_⟩
  rw [honly]
  simp [Node.bodies, Block.body, honly, firstPart, captureTag]

/-- A tag that stands alone has no sections to keep. -/
theorem keeps_of_alone {tag : Tag} (hend : tag.endName = none) (hname : tag.name ≠ "case")
    (h : ∀ {inLoop : Bool} {block : Block} {node : Node}, tag.compile inLoop block = .ok node →
      node.content? = none ∧ node.firstPart = 0 ∧ node.bodies = []) : Keeps tag := by
  intro inLoop block node hfits hnode
  rcases block with ⟨name, args, offset, place, sections, tokens⟩
  cases sections with
  | nil =>
      unfold firstPart
      rw [if_neg hname]
      exact h hnode
  | cons first rest => exact absurd hend hfits.1

/-- A control tag stands in a loop, and has no arguments. -/
theorem compileControl_eq_ok_iff {control node : Node} {inLoop : Bool} {block : Block} :
    compileControl control inLoop block = .ok node ↔
      block.args.isEmpty ∧ inLoop = true ∧ control = node := by
  unfold compileControl
  by_cases hargs : block.args.isEmpty <;> cases inLoop <;> simp [hargs, Block.error]

theorem compileCycle_eq_ok {block : Block} {node : Node} (h : compileCycle block = .ok node) :
    ∃ values group, node = .cycle values group block.place := by
  unfold compileCycle at h
  by_cases hargs : block.args.isEmpty
  · simp [hargs, Block.error] at h
  · simp only [hargs, Bool.false_eq_true, if_false] at h
    rcases bind_eq_ok_iff.mp h with ⟨⟨group, values⟩, _, h⟩
    cases h
    exact ⟨values, group, rfl⟩

theorem compileAssign_eq_ok {block : Block} {node : Node} (h : compileAssign block = .ok node) :
    ∃ name expr, node = .assign name expr block.place := by
  unfold compileAssign at h
  cases hparts : assignment? block.args.toList with
  | none => simp [hparts, Block.error] at h
  | some parts =>
      rcases parts with ⟨name, value⟩
      rw [hparts] at h
      rcases bind_eq_ok_iff.mp h with ⟨expr, _, h⟩
      cases h
      exact ⟨_, expr, rfl⟩

theorem compileEcho_eq_ok {block : Block} {node : Node} (h : compileEcho block = .ok node) :
    ∃ expr, node = .echo expr block.place := by
  unfold compileEcho at h
  by_cases hargs : block.args.isEmpty
  · simp [hargs, Block.error] at h
  · simp only [hargs, Bool.false_eq_true, if_false] at h
    rcases bind_eq_ok_iff.mp h with ⟨expr, _, h⟩
    cases h
    exact ⟨expr, rfl⟩

/-- Each tag of the language makes its sections the bodies of a node. -/
theorem standard_keeps {tag : Tag} (h : tag ∈ standard) : Keeps tag := by
  simp only [standard, List.mem_cons, List.not_mem_nil, or_false] at h
  -- The tags of blocks by their own lemmas. All others make a node without bodies.
  rcases h with rfl | rfl | rfl | rfl | rfl | rfl | rfl | rfl | rfl | rfl | rfl | rfl | rfl
  · exact keeps_of_conditional false (fun _ => rfl) (by decide) (by decide)
  · exact keeps_of_conditional true (fun _ => rfl) (by decide) (by decide)
  · exact caseTag_keeps
  · exact forTag_keeps
  · exact tablerowTag_keeps
  · refine keeps_of_alone rfl (by decide) fun hnode => ?_
    rcases compileControl_eq_ok_iff.mp hnode with ⟨_, _, rfl⟩
    exact ⟨rfl, rfl, rfl⟩
  · refine keeps_of_alone rfl (by decide) fun hnode => ?_
    rcases compileControl_eq_ok_iff.mp hnode with ⟨_, _, rfl⟩
    exact ⟨rfl, rfl, rfl⟩
  · refine keeps_of_alone rfl (by decide) fun hnode => ?_
    rcases compileCycle_eq_ok hnode with ⟨_, _, rfl⟩
    exact ⟨rfl, rfl, rfl⟩
  · refine keeps_of_alone rfl (by decide) fun hnode => ?_
    rcases compileAssign_eq_ok hnode with ⟨_, _, rfl⟩
    exact ⟨rfl, rfl, rfl⟩
  · exact captureTag_keeps
  · refine keeps_of_alone rfl (by decide) fun hnode => ?_
    rcases map_eq_ok_iff.mp hnode with ⟨_, _, rfl⟩
    exact ⟨rfl, rfl, rfl⟩
  · refine keeps_of_alone rfl (by decide) fun hnode => ?_
    rcases map_eq_ok_iff.mp hnode with ⟨_, _, rfl⟩
    exact ⟨rfl, rfl, rfl⟩
  · refine keeps_of_alone rfl (by decide) fun hnode => ?_
    rcases compileEcho_eq_ok hnode with ⟨_, rfl⟩
    exact ⟨rfl, rfl, rfl⟩

/-- The tags that leave or skip are accepted in a loop only, and no other tag asks for one. -/
theorem compile_eq_ok_iff_inLoop {tag : Tag} (h : tag ∈ standard) {inLoop : Bool} {block : Block}
    {node : Node} :
    tag.compile inLoop block = .ok node ↔
      tag.compile true block = .ok node ∧
        (tag.name = "break" ∨ tag.name = "continue" → inLoop = true) := by
  simp only [standard, List.mem_cons, List.not_mem_nil, or_false] at h
  -- All tags but two are given whether they stand in a loop, and do not look at it.
  have hother {tag : Tag} (hcompile : tag.compile inLoop = tag.compile true)
      (hname : tag.name ≠ "break" ∧ tag.name ≠ "continue") :
      tag.compile inLoop block = .ok node ↔ tag.compile true block = .ok node ∧
        (tag.name = "break" ∨ tag.name = "continue" → inLoop = true) := by
    simp [hcompile, hname]
  have hcontrol (control : Node) {name : String} (hname : name = "break" ∨ name = "continue") :
      compileControl control inLoop block = .ok node ↔
        compileControl control true block = .ok node ∧
          (name = "break" ∨ name = "continue" → inLoop = true) := by
    simp only [compileControl_eq_ok_iff]
    constructor
    · rintro ⟨hargs, hloop, hnode⟩
      exact ⟨⟨hargs, trivial, hnode⟩, fun _ => hloop⟩
    · rintro ⟨⟨hargs, _, hnode⟩, hloop⟩
      exact ⟨hargs, hloop hname, hnode⟩
  rcases h with rfl | rfl | rfl | rfl | rfl | rfl | rfl | rfl | rfl | rfl | rfl | rfl | rfl
  any_goals exact hother rfl (by decide)
  · exact hcontrol .breakLoop (.inl rfl)
  · exact hcontrol .continueLoop (.inr rfl)

/-- The loops of the language. -/
theorem isLoop_iff {tag : Tag} (h : tag ∈ standard) :
    tag.isLoop = true ↔ tag.name = "for" ∨ tag.name = "tablerow" := by
  have hall : ∀ tag ∈ standard, tag.isLoop = true ↔ tag.name = "for" ∨ tag.name = "tablerow" := by
    decide
  exact hall tag h

end Tag

end Liquid
