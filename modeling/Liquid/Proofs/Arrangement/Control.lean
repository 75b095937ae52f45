import Liquid.Proofs.Arrangement.Tree
import Liquid.Proofs.Render.Control
import Liquid.Proofs.Tag.Control
import Liquid.Template

/-!
# Control in Templates

The grammar of blocks carries down whether a position is in the body of a loop,
and tags that leave or skip ask for it. A position is in the body of a loop if
the block around it is one and the section is the first of it, or if the block
is in the body of a loop itself. In the tree, that is a main body around the
node. So nothing gets out of a template, and what a template does not give as
its output is a fault.

## Theorems

* `Arrangement.contained_body`, `Arrangement.contained_item`,
  `Arrangement.contained_parts`: Control in derived tokens.
* `Template.compile_eq_ok_iff`: What a template comes from.
* `Template.control_contained`: Control in a template.
-/

namespace Liquid

/-- Whether nothing in a tree leaves or skips a loop around it, unless there is one, and whether no
node of it is one of the host. -/
def Node.Contained (inLoop : Bool) (nodes : List Node) : Prop :=
  ∀ node around, Stands node around nodes → node.isCustom = false ∧
    (node.isControl = true → inLoop = true ∨ ∃ outer ∈ around, isMainBody outer = true)

namespace Node.Contained

variable {inLoop : Bool} {node : Node} {nodes : List Node}

/-- What may stand outside a loop may stand in one. -/
theorem mono {inOther : Bool} (h : Contained inLoop nodes)
    (hloop : inLoop = true → inOther = true) : Contained inOther nodes := by
  intro inner around hstands
  rcases h inner around hstands with ⟨hcustom, hcontrol⟩
  exact ⟨hcustom, fun hinner => (hcontrol hinner).imp_left hloop⟩

theorem nil : Contained inLoop [] := by
  rintro inner around (hinner | ⟨houter, _, _⟩)
  · cases hinner
  · cases houter

/-- Bodies are put together node by node. -/
theorem cons (hnode : Contained inLoop [node]) (hnodes : Contained inLoop nodes) :
    Contained inLoop (node :: nodes) := by
  rintro inner around (hinner | ⟨houter, hbody, hinner⟩)
  · rcases List.mem_cons.mp hinner with rfl | hinner
    · exact hnode _ _ (.here List.mem_cons_self)
    · exact hnodes _ _ (.here hinner)
  · rcases List.mem_cons.mp houter with rfl | houter
    · exact hnode _ _ (.inside List.mem_cons_self hbody hinner)
    · exact hnodes _ _ (.inside houter hbody hinner)

/-- What is in the main body of a loop may leave it. -/
theorem singleton (hcustom : node.isCustom = false)
    (hcontrol : node.isControl = true → inLoop = true)
    (hbodies : ∀ part body, node.bodies[part]? = some body →
      Contained (isMainBody (node, part) || inLoop) body) : Contained inLoop [node] := by
  -- The node itself answers for itself, and what is further in has its body around it.
  rintro inner around (hinner | ⟨houter, hbody, hinner⟩)
  · rw [List.mem_singleton.mp hinner]
    exact ⟨hcustom, fun h => .inl (hcontrol h)⟩
  · rw [List.mem_singleton.mp houter] at hbody ⊢
    rcases hbodies _ _ hbody inner _ hinner with ⟨hcustom', hcontrol'⟩
    refine ⟨hcustom', fun h => ?_⟩
    -- The loop is either the node, or one further in, or one around both.
    rcases hcontrol' h with hloop | ⟨main, hmain, hmainBody⟩
    · rcases Bool.or_eq_true _ _ ▸ hloop with hmain | hloop
      · exact .inr ⟨_, List.mem_cons_self, hmain⟩
      · exact .inl hloop
    · exact .inr ⟨main, List.mem_cons_of_mem _ hmain, hmainBody⟩

/-- A node without bodies only has to answer for itself. -/
theorem leaf (hcustom : node.isCustom = false) (hcontrol : node.isControl = true → inLoop = true)
    (hbodies : node.bodies = []) : Contained inLoop [node] := by
  refine singleton hcustom hcontrol fun part body hbody => ?_
  rw [hbodies] at hbody
  cases hbody

/-- Outside of loops, every control node has a main body around it. -/
theorem enclosed (h : Contained false nodes) : Enclosed nodes :=
  fun inner around hstands hcontrol =>
    ((h inner around hstands).2 hcontrol).resolve_left Bool.false_ne_true

theorem builtIn (h : Contained inLoop nodes) : BuiltIn nodes := by
  intro inner hinner
  rcases exists_stands_of_mem_allOf hinner with ⟨around, hstands⟩
  exact (h inner around hstands).1

end Node.Contained

namespace Arrangement

open Node

/-- Of the sections that become bodies of a loop, only the one that becomes the main body is called
like its tag. -/
theorem isMainBody_of_section {tag : Tag} (h : tag ∈ Tag.standard) {inLoop : Bool} {block : Block}
    {node : Node} (hfits : tag.Fits block.sections) (hnode : tag.compile inLoop block = .ok node)
    {index : Nat} {part : Section}
    (hpart : (block.sections.drop tag.firstPart)[index]? = some part) (hloop : tag.isLoop = true)
    (hname : part.name = tag.name) : isMainBody (node, index) = true := by
  rcases block with ⟨name, args, offset, place, sections, tokens⟩
  -- Only the sections of a case lose their first one, and a case is no loop.
  have hfirst : tag.firstPart = 0 := by
    unfold Tag.firstPart
    rw [if_neg]
    rcases (Tag.isLoop_iff h).mp hloop with hfor | htablerow
    · simp [hfor]
    · simp [htablerow]
  rw [hfirst, List.drop_zero] at hpart
  cases sections with
  | nil => cases hpart
  | cons first rest =>
      cases index with
      | zero => exact (Tag.standard_contains h hnode).2.2 hloop
      | succ index =>
          -- Behind the first section every one is named for a branch, and no branch is named for a
          -- tag.
          have hbranch := hfits.2.2.1 part (List.mem_of_getElem? hpart)
          exact absurd (hname ▸ hbranch) ((standard_names tag h).2.2.2.2 tag h).2

mutual

/-- By recursion over the grammar, with its items and its blocks. -/
theorem contained_body {inLoop : Bool} {used : List Token} {nodes : List Node}
    (h : Body Environment.standard.tags inLoop used nodes) : Contained inLoop nodes := by
  match h with
  | .nil => exact .nil
  | .cons item body => exact .cons (contained_item item) (contained_body body)

/-- Of a block, each of its sections is contained in what the tag makes of it. -/
theorem contained_item {inLoop : Bool} {used : List Token} {node : Node}
    (h : Item Environment.standard.tags inLoop used node) : Contained inLoop [node] := by
  match h with
  | .text => exact .leaf rfl nofun rfl
  | .output _ => exact .leaf rfl nofun rfl
  | .alone hget hend hnode =>
      have hmem := (standard_get? hget).1
      rcases Tag.standard_contains hmem hnode with ⟨hcustom, hcontrol, _⟩
      rcases Tag.standard_keeps hmem (show Tag.Fits _ [] from hend) hnode with ⟨_, _, hbodies⟩
      rw [List.drop_nil] at hbodies
      exact .leaf hcustom hcontrol hbodies
  | .block hget hend parts hnode =>
      have hmem := (standard_get? hget).1
      rcases Tag.standard_contains hmem hnode with ⟨hcustom, hcontrol, _⟩
      have hfits := fits_of_parts parts (by simp [hend])
      rcases Tag.standard_keeps hmem hfits hnode with ⟨_, _, hbodies⟩
      refine .singleton hcustom hcontrol fun index body hbody => ?_
      rw [hbodies, List.getElem?_map, Option.map_eq_some_iff] at hbody
      rcases hbody with ⟨part, hpart, rfl⟩
      have hmemPart := List.mem_of_mem_drop (List.mem_of_getElem? hpart)
      -- The section that has the name of its loop tag is the main body of the node.
      refine (contained_parts parts part hmemPart).mono fun hloop => ?_
      rcases Bool.or_eq_true _ _ ▸ hloop with hmain | hloop
      · rcases Bool.and_eq_true _ _ ▸ hmain with ⟨hmain, hname⟩
        rw [isMainBody_of_section hmem hfits hnode hpart hmain (beq_iff_eq.mp hname), Bool.true_or]
      · rw [hloop, Bool.or_true]

/-- Every section of a block is contained, the one with the name of a loop tag as in a loop. -/
theorem contained_parts {inLoop : Bool} {tag : Tag} {name args : String} {offset : Nat}
    {place : Place} {inner : List Token} {sections : List Section}
    (h : Parts Environment.standard.tags inLoop tag name args offset place inner sections) :
    ∀ part ∈ sections, Contained (tag.isLoop && part.name == tag.name || inLoop) part.body := by
  -- The tag is the same for all of its parts, so each is in a loop if its own name says so.
  match h with
  | .last body =>
      intro part hpart
      rw [List.mem_singleton.mp hpart]
      exact contained_body body
  | .branch body _ _ others =>
      intro part hpart
      rcases List.mem_cons.mp hpart with rfl | hpart
      · exact contained_body body
      · exact contained_parts others part hpart

end

end Arrangement

theorem Noted.ofPair_result_eq_ok_iff {ε δ α : Type} {wrap : ε → δ}
    {result : Except ε (α × List Remark)} {a : α} :
    (Noted.ofPair wrap result).result = .ok a ↔ ∃ remarks, result = .ok (a, remarks) := by
  cases result with
  | error e => simp [Noted.ofPair, Noted.error]
  | ok pair => simp [Noted.ofPair, Prod.ext_iff]

namespace Template

/-- A template has the nodes that the tokens of its source are arranged into. -/
theorem compile_eq_ok_iff {environment : Environment} {source : String} {template : Template} :
    (compile environment source).result = .ok template ↔
      template.environment = environment ∧ ∃ tokens,
        (∃ remarks, Token.scan environment.settings.strict source = .ok (tokens, remarks)) ∧
        ∃ remarks, Node.ofTokens environment.tags tokens = .ok (template.nodes, remarks) := by
  unfold compile
  simp only [Noted.bind_result_eq_ok_iff, Noted.ofPair_result_eq_ok_iff]
  constructor
  · rintro ⟨tokens, hscan, nodes, hnodes, _, _, htemplate⟩
    cases htemplate
    exact ⟨rfl, tokens, hscan, hnodes⟩
  · rintro ⟨rfl, tokens, hscan, hnodes⟩
    exact ⟨tokens, hscan, template.nodes, hnodes, (), rfl, rfl⟩

/-- A template has the nodes that its tokens are arranged into. -/
theorem ofTokens_of_compile {environment : Environment} {source : String} {template : Template}
    (h : (compile environment source).result = .ok template) :
    template.environment = environment ∧ ∃ tokens remarks,
      Node.ofTokens environment.tags tokens = .ok (template.nodes, remarks) := by
  rcases compile_eq_ok_iff.mp h with ⟨henv, tokens, _, hnodes⟩
  exact ⟨henv, tokens, hnodes⟩

/-- The settings do not change the tags of the language. -/
theorem contained_of_compile {settings : Settings} {source : String} {template : Template}
    (h : (compile (Environment.create settings {}).1 source).result = .ok template) :
    Node.Contained false template.nodes := by
  rcases ofTokens_of_compile h with ⟨_, tokens, remarks, hnodes⟩
  exact Arrangement.contained_body (Arrangement.body_of_ofTokens hnodes)

end Template

namespace Render

/-- A loop that is left at an item does not look at the items behind it. -/
theorem each_cons_of_left {visit : Nat → Value → Render Bool} {index : Nat} {item : Value}
    {scope : Scope} (h : (visit index item scope).exit = .done true) (items : List Value) :
    each visit index (item :: items) scope = each visit index [item] scope := by
  change Render.bind _ _ scope = Render.bind _ _ scope
  unfold Render.bind
  simp [h]

/-- A round ends its loop if its body is left by a break, and only then. -/
theorem iteration_exit_eq_done_true_iff {body : Render Unit} {scope : Scope} :
    (iteration body scope).exit = .done true ↔ (body scope).exit = .broken := by
  unfold iteration
  cases hexit : (body scope).exit <;> simp [hexit]

/-- A loop without items ends as its other body does. -/
theorem exit_loop_nil {env : Environment} {scope : Scope} {name : String} {selection : Selection}
    {body : List Node} {otherwise : Option (List Node)} {place : Place}
    (h : (selection.items env scope place).result = .ok []) :
    ((Node.loop name selection body otherwise place).render env scope).exit =
      (renderOption env otherwise scope).exit := by
  rw [Node.render]
  change (Render.bind _ _ scope).exit = _
  unfold Render.bind evaluated
  simp [h]

/-- Nodes that end by themselves or by a fault have a text as their output or that fault. -/
theorem output_of_stays {env : Environment} {nodes : List Node} (h : Stays (renderAll env nodes))
    (data : Table Value) :
    (∃ text, (env.output nodes data).result = .ok text) ∨
      ∃ fault, (env.output nodes data).result = .error (.fault fault) := by
  have hstays := h (.ofData data)
  unfold Environment.output
  cases hexit : (renderAll env nodes (.ofData data)).exit with
  | done u =>
      exact .inl ⟨String.join (renderAll env nodes (.ofData data)).chunks, by simp only [hexit]⟩
  | broken => exact absurd hexit hstays.1
  | continued => exact absurd hexit hstays.2
  | failed fault => exact .inr ⟨fault, by simp only [hexit]⟩

end Render

/-- Leaving and skipping stay in the loops of a template. In every template of the language they
stand in the main body of a loop, so that a render of it, with any data and in any environment,
gives a text or a fault. What stands in the other body of a loop acts on the next one around that:
a loop without items ends as its other body does, while one with items does not end by either of
the two, and if its body leaves at an item it is done without the items behind that. -/
theorem Template.control_contained (settings : Settings) (source : String) (template : Template)
    (h : (Template.compile (Environment.create settings {}).1 source).result = .ok template) :
    (∀ node around, Node.Stands node around template.nodes → node.isControl = true →
      ∃ outer ∈ around, Node.isMainBody outer = true) ∧
    (∀ data environment,
      (∃ text, (template.output data environment).result = .ok text) ∨
        ∃ fault, (template.output data environment).result = .error (.fault fault)) ∧
    (∀ env scope name selection body otherwise place,
      (selection.items env scope place).result = .ok [] →
      ((Node.loop name selection body otherwise place).render env scope).exit =
        (renderOption env otherwise scope).exit) ∧
    (∀ name items body, Render.Stays (Render.loop name items body) ∧
      ∀ columns, Render.Stays (Render.table name columns items body)) ∧
    (∀ body scope, (Render.iteration body scope).exit = .done true ↔ (body scope).exit = .broken) ∧
    ∀ visit index item items scope, (visit index item scope).exit = .done true →
      Render.each visit index (item :: items) scope = Render.each visit index [item] scope := by
  -- What is compiled holds no control node outside of a main body; the first two parts need that.
  have hcontained := Template.contained_of_compile h
  refine ⟨hcontained.enclosed, ?_, ?_, ?_, ?_, ?_⟩
  · intro data environment
    refine Render.output_of_stays ?_ data
    exact Render.stays_renderAll hcontained.builtIn hcontained.enclosed
  -- The others hold of every loop, compiled or not.
  · exact fun _ _ _ _ _ _ _ => Render.exit_loop_nil
  · exact fun name items body =>
      ⟨Render.stays_loop items body, fun columns => Render.stays_table columns items body⟩
  · exact fun _ _ => Render.iteration_exit_eq_done_true_iff
  · exact fun _ _ _ items _ hleft => Render.each_cons_of_left hleft items

/-- A `break` in the other body of a loop, within a conditional: it leaves the loop around that. -/
theorem Template.control_contained_else :
    let source := "\x7b% for x in (1..2) %\x7d\x7b% for y in z %\x7d\x7b% else %\x7d" ++
      "\x7b% if x %\x7d\x7b% break %\x7d\x7b% endif %\x7d\x7b% endfor %\x7da" ++
      "\x7b% endfor %\x7db"
    ∃ template, (Template.compile (Environment.create {} {}).1 source).result = .ok template ∧
      Node.Enclosed template.nodes ∧ (template.output []).result = .ok "b" := by
  intro source
  -- The break stands in the else of the inner loop, so it is the outer one that it ends.
  have hoks : ((Template.compile (Environment.create {} {}).1 source).result.toOption.map
      fun template => (template.output []).result.toOption) = some (some "b") := by
    decide +kernel
  rcases Option.map_eq_some_iff.mp hoks with ⟨template, htemplate, houtput⟩
  have hcompile := toOption_eq_some_iff.mp htemplate
  have h := Template.control_contained {} source template hcompile
  exact ⟨template, hcompile, h.1, toOption_eq_some_iff.mp houtput⟩

end Liquid
