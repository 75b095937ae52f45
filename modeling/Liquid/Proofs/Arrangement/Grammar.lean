import Liquid.Arrangement
import Liquid.Environment
import Liquid.Proofs.Table

/-!
# The Grammar of Blocks

What a list of tokens may be, with the nodes that it becomes:

    body  = item*
    item  = TEXT | OUTPUT | alone | open body (branch body)* end

A block is described from its opening to its end at once, so the grammar knows
no stack. The branch and end tags are those of the directly enclosing block,
and the grammar carries down whether a position is in the body of a loop,
because some tags are only accepted there.

Sections are described with the header of the current one: what started it is
the opening of the block or a branch tag, and stands before the tokens of the
section either way. Nothing follows a section that is called `else`.

The grammar says what the tokens of a block are for any table of tags. Only if
the table gives no tag the name that ends or divides a block is every list of
tokens read in one way. A host may well call a tag like the end or a branch of
another. Then the block that a tag stands in decides what it is, and the grammar
of levels carries that block down too: the directly enclosing one is asked first,
and a tag is one of its own only if it neither ends nor divides that.

## Main definitions

* `Arrangement.Body`, `Arrangement.Item`, `Arrangement.Parts`: The grammar.
* `Arrangement.IsOwn`: Whether a tag inside of a block is one of its own.
* `Arrangement.Level`, `Arrangement.Whole`, `Arrangement.Divided`: The grammar of
  levels.
* `Arrangement.Unambiguous`: Tables in which no tag is called like an end or a
  branch.

## Theorems

* `Arrangement.body_of_level`, `Arrangement.level_of_body`: The two grammars are
  one for such tables.
* `Arrangement.standard_unambiguous`: The table of the language is one.
* `Arrangement.body_append`: Two bodies put together.
* `Arrangement.parts_shape`: The sections of a block, by their names.
-/

namespace Liquid

namespace Arrangement

mutual

/-- Tokens that become a list of nodes, given whether they stand in the body of a loop. -/
inductive Body (tags : Table Tag) : Bool → List Token → List Node → Prop
  | nil {inLoop : Bool} : Body tags inLoop [] []
  | cons {inLoop : Bool} {used rest : List Token} {node : Node} {nodes : List Node} :
      Item tags inLoop used node → Body tags inLoop rest nodes →
      Body tags inLoop (used ++ rest) (node :: nodes)

/-- Tokens that become one node. -/
inductive Item (tags : Table Tag) : Bool → List Token → Node → Prop
  | text {inLoop : Bool} {text : String} {offset : Nat} {place : Place} :
      Item tags inLoop [⟨.text text, offset, place⟩] (.text text)
  | output {inLoop : Bool} {source : String} {expr : Expr} {offset : Nat} {place : Place} :
      Expr.parse source = .ok expr →
      Item tags inLoop [⟨.output source, offset, place⟩] (.output expr place)
  | alone {inLoop : Bool} {tag : Tag} {name args : String} {offset : Nat} {place : Place}
      {node : Node} :
      tags.get? name = some tag → tag.endName = none →
      tag.compile inLoop ⟨name, args, offset, place, [], []⟩ = .ok node →
      Item tags inLoop [⟨.tag name args, offset, place⟩] node
  | block {inLoop : Bool} {tag : Tag} {name close args closeArgs : String}
      {offset closeOffset : Nat} {place closePlace : Place} {inner : List Token}
      {sections : List Section} {node : Node} :
      tags.get? name = some tag → tag.endName = some close →
      Parts tags inLoop tag tag.name args offset place inner sections →
      tag.compile inLoop ⟨tag.name, args, offset, place, sections, inner⟩ = .ok node →
      Item tags inLoop
        (⟨.tag name args, offset, place⟩ ::
          (inner ++ [⟨.tag close closeArgs, closeOffset, closePlace⟩])) node

/-- Tokens that become the sections of a block, from behind what starts the first of them. -/
inductive Parts (tags : Table Tag) :
    Bool → Tag → String → String → Nat → Place → List Token → List Section → Prop
  | last {inLoop : Bool} {tag : Tag} {name args : String} {offset : Nat} {place : Place}
      {tokens : List Token} {nodes : List Node} :
      Body tags (tag.isLoop && name == tag.name || inLoop) tokens nodes →
      Parts tags inLoop tag name args offset place tokens [⟨name, args, offset, place, nodes⟩]
  | branch {inLoop : Bool} {tag : Tag} {name args next nextArgs : String} {offset nextOffset : Nat}
      {place nextPlace : Place} {tokens rest : List Token} {nodes : List Node}
      {sections : List Section} :
      Body tags (tag.isLoop && name == tag.name || inLoop) tokens nodes →
      name ≠ "else" → next ∈ tag.branchNames →
      Parts tags inLoop tag next nextArgs nextOffset nextPlace rest sections →
      Parts tags inLoop tag name args offset place
        (tokens ++ ⟨.tag next nextArgs, nextOffset, nextPlace⟩ :: rest)
        (⟨name, args, offset, place, nodes⟩ :: sections)

end

/-- Whether a tag of the name ends a block. -/
def Ends (tag : Tag) (name : String) : Prop :=
  name ≠ "" ∧ tag.endName = some name

/-- Whether a tag of the name divides a block. One that could do both ends it. -/
def Divides (tag : Tag) (name : String) : Prop :=
  name ≠ "" ∧ tag.endName ≠ some name ∧ name ∈ tag.branchNames

/-- Whether a tag of the name is one of its own, given the tag of the block around it, if there is
one. -/
def IsOwn (around : Option Tag) (name : String) : Prop :=
  name ≠ "" ∧ ∀ tag ∈ around, tag.endName ≠ some name ∧ name ∉ tag.branchNames

mutual

/-- Tokens that become a list of nodes, given the tag of the block around them, if there is one, and
whether they stand in the body of a loop. -/
inductive Level (tags : Table Tag) : Option Tag → Bool → List Token → List Node → Prop
  | nil {around : Option Tag} {inLoop : Bool} : Level tags around inLoop [] []
  | cons {around : Option Tag} {inLoop : Bool} {used rest : List Token} {node : Node}
      {nodes : List Node} :
      Whole tags around inLoop used node → Level tags around inLoop rest nodes →
      Level tags around inLoop (used ++ rest) (node :: nodes)

/-- Tokens that become one node. -/
inductive Whole (tags : Table Tag) : Option Tag → Bool → List Token → Node → Prop
  | text {around : Option Tag} {inLoop : Bool} {text : String} {offset : Nat} {place : Place} :
      Whole tags around inLoop [⟨.text text, offset, place⟩] (.text text)
  | output {around : Option Tag} {inLoop : Bool} {source : String} {expr : Expr} {offset : Nat}
      {place : Place} :
      Expr.parse source = .ok expr →
      Whole tags around inLoop [⟨.output source, offset, place⟩] (.output expr place)
  | alone {around : Option Tag} {inLoop : Bool} {tag : Tag} {name args : String} {offset : Nat}
      {place : Place} {node : Node} :
      IsOwn around name → tags.get? name = some tag → tag.endName = none →
      tag.compile inLoop ⟨name, args, offset, place, [], []⟩ = .ok node →
      Whole tags around inLoop [⟨.tag name args, offset, place⟩] node
  | block {around : Option Tag} {inLoop : Bool} {tag : Tag} {name close args closeArgs : String}
      {offset closeOffset : Nat} {place closePlace : Place} {inner : List Token}
      {sections : List Section} {node : Node} :
      IsOwn around name → tags.get? name = some tag → Ends tag close →
      Divided tags inLoop tag tag.name args offset place inner sections →
      tag.compile inLoop ⟨tag.name, args, offset, place, sections, inner⟩ = .ok node →
      Whole tags around inLoop
        (⟨.tag name args, offset, place⟩ ::
          (inner ++ [⟨.tag close closeArgs, closeOffset, closePlace⟩])) node

/-- Tokens that become the sections of a block, from behind what starts the first of them. -/
inductive Divided (tags : Table Tag) :
    Bool → Tag → String → String → Nat → Place → List Token → List Section → Prop
  | last {inLoop : Bool} {tag : Tag} {name args : String} {offset : Nat} {place : Place}
      {tokens : List Token} {nodes : List Node} :
      Level tags (some tag) (tag.isLoop && name == tag.name || inLoop) tokens nodes →
      Divided tags inLoop tag name args offset place tokens [⟨name, args, offset, place, nodes⟩]
  | branch {inLoop : Bool} {tag : Tag} {name args next nextArgs : String} {offset nextOffset : Nat}
      {place nextPlace : Place} {tokens rest : List Token} {nodes : List Node}
      {sections : List Section} :
      Level tags (some tag) (tag.isLoop && name == tag.name || inLoop) tokens nodes →
      name ≠ "else" → Divides tag next →
      Divided tags inLoop tag next nextArgs nextOffset nextPlace rest sections →
      Divided tags inLoop tag name args offset place
        (tokens ++ ⟨.tag next nextArgs, nextOffset, nextPlace⟩ :: rest)
        (⟨name, args, offset, place, nodes⟩ :: sections)

end

/-- No tag of the table is called like the end or a branch of one in it, or not called at all,
and no end is a branch of its own block. -/
structure Unambiguous (tags : Table Tag) : Prop where
  nonempty : ∀ {name tag}, tags.get? name = some tag → name ≠ ""
  end_nonempty : ∀ {name tag}, tags.get? name = some tag → tag.endName ≠ some ""
  branch_nonempty : ∀ {name tag}, tags.get? name = some tag → "" ∉ tag.branchNames
  apart_end : ∀ {name tag other inner}, tags.get? name = some tag →
    tags.get? other = some inner → tag.endName ≠ some other
  apart_branch : ∀ {name tag other inner}, tags.get? name = some tag →
    tags.get? other = some inner → other ∉ tag.branchNames
  end_not_branch : ∀ {name tag close}, tags.get? name = some tag → tag.endName = some close →
    close ∉ tag.branchNames

/-- The table of the language: each tag under its name. -/
theorem standard_tags :
    Environment.standard.tags = Tag.standard.map fun tag => (tag.name, tag) :=
  rfl

/-- A standard tag is found under its own name. -/
theorem standard_get? {name : String} {tag : Tag}
    (h : Environment.standard.tags.get? name = some tag) :
    tag ∈ Tag.standard ∧ tag.name = name := by
  have hmem := Table.mem_of_get?_eq_some h
  rw [standard_tags, List.mem_map] at hmem
  rcases hmem with ⟨_, hmem, heq⟩
  rcases heq with ⟨rfl, rfl⟩
  exact ⟨hmem, rfl⟩

/-- The names of the language, each against those of every tag. -/
theorem standard_names :
    ∀ tag ∈ Tag.standard,
      tag.name ≠ "" ∧ tag.endName ≠ some "" ∧ "" ∉ tag.branchNames ∧
        (∀ close ∈ tag.endName, close ∉ tag.branchNames) ∧
        ∀ other ∈ Tag.standard, tag.endName ≠ some other.name ∧ other.name ∉ tag.branchNames := by
  decide

/-- No name of a standard tag, of its end or of one of its branches means two things. -/
theorem standard_unambiguous : Unambiguous Environment.standard.tags where
  nonempty h := by
    rcases standard_get? h with ⟨hmem, rfl⟩
    exact (standard_names _ hmem).1
  end_nonempty h := (standard_names _ (standard_get? h).1).2.1
  branch_nonempty h := (standard_names _ (standard_get? h).1).2.2.1
  apart_end h hother := by
    rcases standard_get? hother with ⟨hinner, rfl⟩
    exact ((standard_names _ (standard_get? h).1).2.2.2.2 _ hinner).1
  apart_branch h hother := by
    rcases standard_get? hother with ⟨hinner, rfl⟩
    exact ((standard_names _ (standard_get? h).1).2.2.2.2 _ hinner).2
  end_not_branch h hclose := (standard_names _ (standard_get? h).1).2.2.2.1 _ hclose

mutual

/-- What is read in one way is read in some way. -/
theorem body_of_level {tags : Table Tag} {around : Option Tag} {inLoop : Bool}
    {tokens : List Token} {nodes : List Node} (h : Level tags around inLoop tokens nodes) :
    Body tags inLoop tokens nodes := by
  match h with
  | .nil => exact .nil
  | .cons item rest => exact .cons (item_of_whole item) (body_of_level rest)

/-- What a state may read as one node is an item of the grammar. -/
theorem item_of_whole {tags : Table Tag} {around : Option Tag} {inLoop : Bool}
    {tokens : List Token} {node : Node} (h : Whole tags around inLoop tokens node) :
    Item tags inLoop tokens node := by
  match h with
  | .text => exact .text
  | .output hexpr => exact .output hexpr
  | .alone _ hget hend hnode => exact .alone hget hend hnode
  | .block _ hget hends parts hnode => exact .block hget hends.2 (parts_of_divided parts) hnode

/-- What a state may read as sections are parts of a block of the grammar. -/
theorem parts_of_divided {tags : Table Tag} {inLoop : Bool} {tag : Tag} {name args : String}
    {offset : Nat} {place : Place} {tokens : List Token} {sections : List Section}
    (h : Divided tags inLoop tag name args offset place tokens sections) :
    Parts tags inLoop tag name args offset place tokens sections := by
  match h with
  | .last body => exact .last (body_of_level body)
  | .branch body hname hnext parts =>
      exact .branch (body_of_level body) hname hnext.2.2 (parts_of_divided parts)

end

section Unambiguous

variable {tags : Table Tag}

/-- A tag of the table is one of its own in every block of the table. -/
theorem isOwn_of_get? (hu : Unambiguous tags) {around : Option Tag}
    (hk : ∀ tag ∈ around, ∃ key, tags.get? key = some tag) {name : String} {tag : Tag}
    (hget : tags.get? name = some tag) : IsOwn around name := by
  refine ⟨hu.nonempty hget, fun other hother => ?_⟩
  rcases hk other hother with ⟨key, hkey⟩
  exact ⟨hu.apart_end hkey hget, hu.apart_branch hkey hget⟩

/-- Of an unambiguous table, the name that ends a tag ends it whatever else it may name. -/
theorem ends_of_get? (hu : Unambiguous tags) {key name : String} {tag : Tag}
    (hget : tags.get? key = some tag) (hend : tag.endName = some name) : Ends tag name :=
  ⟨fun hname => hu.end_nonempty hget (hname ▸ hend), hend⟩

/-- Of an unambiguous table, a branch of a tag never ends it. -/
theorem divides_of_get? (hu : Unambiguous tags) {key name : String} {tag : Tag}
    (hget : tags.get? key = some tag) (hbranch : name ∈ tag.branchNames) : Divides tag name :=
  ⟨fun hname => hu.branch_nonempty hget (hname ▸ hbranch),
    fun hend => hu.end_not_branch hget hend hbranch, hbranch⟩

mutual

/-- There is only one way to read the tokens, whatever block of the table they stand in. -/
theorem level_of_body (hu : Unambiguous tags) {around : Option Tag}
    (hk : ∀ tag ∈ around, ∃ key, tags.get? key = some tag) {inLoop : Bool} {tokens : List Token}
    {nodes : List Node} (h : Body tags inLoop tokens nodes) :
    Level tags around inLoop tokens nodes := by
  match h with
  | .nil => exact .nil
  | .cons item rest => exact .cons (whole_of_item hu hk item) (level_of_body hu hk rest)

/-- Since no name means two things, an item may stand inside of any block. -/
theorem whole_of_item (hu : Unambiguous tags) {around : Option Tag}
    (hk : ∀ tag ∈ around, ∃ key, tags.get? key = some tag) {inLoop : Bool} {tokens : List Token}
    {node : Node} (h : Item tags inLoop tokens node) : Whole tags around inLoop tokens node := by
  match h with
  | .text => exact .text
  | .output hexpr => exact .output hexpr
  | .alone hget hend hnode => exact .alone (isOwn_of_get? hu hk hget) hget hend hnode
  | .block hget hend parts hnode =>
      exact .block (isOwn_of_get? hu hk hget) hget (ends_of_get? hu hget hend)
        (divided_of_parts hu hget parts) hnode

/-- Since no name means two things, parts of a block are read as its sections. -/
theorem divided_of_parts (hu : Unambiguous tags) {inLoop : Bool} {tag : Tag}
    {key name args : String} {offset : Nat} {place : Place} {tokens : List Token}
    {sections : List Section} (hget : tags.get? key = some tag)
    (h : Parts tags inLoop tag name args offset place tokens sections) :
    Divided tags inLoop tag name args offset place tokens sections := by
  have hk : ∀ inner ∈ some tag, ∃ key, tags.get? key = some inner := by
    rintro _ ⟨⟩
    exact ⟨key, hget⟩
  match h with
  | .last body => exact .last (level_of_body hu hk body)
  | .branch body hname hnext parts =>
      exact .branch (level_of_body hu hk body) hname (divides_of_get? hu hget hnext)
        (divided_of_parts hu hget parts)

end

end Unambiguous

/-- Levels stand behind one another. -/
theorem level_append {tags : Table Tag} {around : Option Tag} {inLoop : Bool}
    {first second : List Token} {nodes nodes' : List Node}
    (h : Level tags around inLoop first nodes) (h' : Level tags around inLoop second nodes') :
    Level tags around inLoop (first ++ second) (nodes ++ nodes') := by
  induction nodes generalizing first with
  | nil =>
      cases h with
      | nil => exact h'
  | cons node nodes ih =>
      cases h with
      | cons whole level =>
          rw [List.append_assoc]
          exact .cons whole (ih level)

theorem level_of_whole {tags : Table Tag} {around : Option Tag} {inLoop : Bool}
    {tokens : List Token} {node : Node} (h : Whole tags around inLoop tokens node) :
    Level tags around inLoop tokens [node] := by
  simpa using Level.cons h .nil

/-- Bodies stand behind one another. -/
theorem body_append {tags : Table Tag} {inLoop : Bool} {first second : List Token}
    {nodes nodes' : List Node} (h : Body tags inLoop first nodes)
    (h' : Body tags inLoop second nodes') :
    Body tags inLoop (first ++ second) (nodes ++ nodes') := by
  induction nodes generalizing first with
  | nil =>
      cases h with
      | nil => exact h'
  | cons node nodes ih =>
      cases h with
      | cons item body =>
          rw [List.append_assoc]
          exact .cons item (ih body)

theorem body_of_item {tags : Table Tag} {inLoop : Bool} {tokens : List Token} {node : Node}
    (h : Item tags inLoop tokens node) : Body tags inLoop tokens [node] := by
  simpa using Body.cons h .nil

/-- The first section is the one whose header is given; the names of the later ones are those of
branches, and only the last section can be an `else`. -/
theorem parts_shape {tags : Table Tag} {inLoop : Bool} {tag : Tag} {name args : String}
    {offset : Nat} {place : Place} {tokens : List Token} {sections : List Section}
    (h : Parts tags inLoop tag name args offset place tokens sections) :
    ∃ body rest, sections = ⟨name, args, offset, place, body⟩ :: rest ∧
      (∀ part ∈ rest, part.name ∈ tag.branchNames) ∧
      ∀ part ∈ sections.dropLast, part.name ≠ "else" := by
  -- By the last section, or by the one in front of a branch.
  match h with
  | @Parts.last _ _ _ _ _ _ _ _ nodes _ => exact ⟨nodes, [], rfl, by simp, by simp⟩
  | @Parts.branch _ _ _ _ _ _ _ _ _ _ _ _ _ nodes _ _ hname hnext parts =>
      rcases parts_shape parts with ⟨body, rest, rfl, hrest, hlast⟩
      refine ⟨nodes, _, rfl, ?_, ?_⟩
      · rintro part (_ | ⟨_, hpart⟩)
        · exact hnext
        · exact hrest part hpart
      · rintro part (_ | ⟨_, hpart⟩)
        · exact hname
        · exact hlast part hpart

end Arrangement

end Liquid
