import Liquid.Proofs.Arrangement.Control
import Liquid.Proofs.Expr.Failure
import Liquid.Proofs.Render.Law
import Liquid.Proofs.Token.Standing

/-!
# The Error That Leaves a Render

A rendering error is made where something fails. A filter that rejects its input,
or that there is none of, makes one at the place of the node whose expression is
evaluated. A tag of the host that crashes makes one at its own place. From there
it goes out through all that is around, and nothing makes another one of it:
loops and captures let it pass, and of what is around a tag of the host only
crashes are turned into errors. So the error that leaves a render is the one of
the innermost failure.

Tags of the host could swallow the errors of their children. Followers are asked
not to tell of what they have swallowed, and this is all that is asked of them.

Where a node is placed was decided when it was compiled: at the token of the
output, or at that of the tag that opens it.

## Main definitions

* `Event.Raises`: What is told of a render ends with an error.
* `Surfaces`: Followed steps that end with each error that they tell of.

## Theorems

* `law_surfaces`: Built-in steps do.
* `Tag.standard_place`, `Arrangement.place_of_item`: Where nodes are placed.
* `Template.exists_tokens`: What a template is made of stands in its source.
* `Environment.errors_name_innermost`: The error that leaves a render.
-/

namespace Liquid

/-- Whether a node that is told of ends with an error, or the evaluation of an expression does, at
the place of its node. -/
def Event.Raises (env : Environment) (fault : RenderFault) : Event → Prop
  | .execution node scope => (node.render env scope).exit = .failed (.render fault)
  | .evaluation node expr scope =>
    (expr.eval env scope node.place?).result = .error (.render fault)

/-- Whether a followed step ends with each error that what it tells of ends with. -/
def Surfaces (env : Environment) {α : Type} (x : Followed α) : Prop :=
  ∀ scope, ∀ event ∈ x.events scope, ∀ fault, event.Raises env fault →
    (x.step scope).exit = .failed (.render fault)

section Surfaces

variable {env : Environment} {α β : Type}

theorem surfaces_silent (x : Render α) : Surfaces env (.silent x) :=
  fun _ _ hevent => absurd hevent List.not_mem_nil

/-- What is told behind a step is told only if that is done, and what then fails is the failure of
both. -/
theorem surfaces_bind {x : Followed α} {f : α → Followed β} (hx : Surfaces env x)
    (hf : ∀ a, Surfaces env (f a)) : Surfaces env (x >>= f) := by
  intro scope event hevent fault hraises
  rw [Followed.step_bind]
  rcases Followed.mem_events_bind hevent with hfirst | ⟨a, ha, hsecond⟩
  · exact Render.exit_bind_of_failed (hx scope event hfirst fault hraises)
  · -- The first step was done, so how the second one ends is how both do.
    rw [Render.exit_bind_of_done ha]
    exact hf a _ event hsecond fault hraises

/-- A value that fails is the fault of the render, at the place of its node. -/
theorem surfaces_value {node : Node} {place : Place} (hplace : node.place? = some place)
    (expr : Expr) : Surfaces env (Followed.value env node place expr) := by
  intro scope event hevent fault hraises
  rw [List.mem_singleton.mp hevent] at hraises
  have heval : (expr.eval env scope (some place)).result = .error (.render fault) :=
    hplace ▸ hraises
  change (Render.evaluated _ scope).exit = _
  simp only [Render.evaluated, heval]

/-- The error of a node is that of the step that renders it. -/
theorem surfaces_seen {node : Node} {x : Followed Unit} (hstep : x.step = node.render env)
    (hx : Surfaces env x) : Surfaces env (.seen (.execution node) x) := by
  intro scope event hevent fault hraises
  rcases List.mem_cons.mp hevent with rfl | hevent
  · -- The event is the node itself.
    change (x.step scope).exit = _
    rw [hstep]
    exact hraises
  · exact hx scope event hevent fault hraises

theorem surfaces_cycle (values : List Expr) (group : Option Expr) (place : Place) :
    Surfaces env (.seen (.execution (.cycle values group place))
      (.cycle env (.cycle values group place) place values group)) :=
  surfaces_seen (Followed.step_cycle values group) <|
    Followed.cycle_of_steps surfaces_silent surfaces_bind (surfaces_value rfl) values group

/-- Each part of a render brings up what is raised in it. -/
theorem law_surfaces : Followed.Law env fun _ x => Surfaces env x where
  silent _ := surfaces_silent _
  bind := surfaces_bind
  around hframe hx scope event hevent fault hraises :=
    hframe.exit _ scope fault (hx _ event hevent fault hraises)
  value := surfaces_value
  execution _ := surfaces_seen
  cycle := surfaces_cycle

end Surfaces

/-- Each tag of the language places its node where the tag is, unless the node evaluates nothing. -/
theorem Tag.standard_place {tag : Tag} (h : tag ∈ standard) {inLoop : Bool} {block : Block}
    {node : Node} (hnode : tag.compile inLoop block = .ok node) :
    node.exprs = [] ∨ node.place? = some block.place := by
  simp only [standard, List.mem_cons, List.not_mem_nil, or_false] at h
  -- Breaks, continues, captures and counters have no expression. All others are placed at the tag.
  rcases h with rfl | rfl | rfl | rfl | rfl | rfl | rfl | rfl | rfl | rfl | rfl | rfl | rfl
  · rcases compileConditional_eq_ok hnode with ⟨_, _, rfl⟩
    exact .inr rfl
  · rcases compileConditional_eq_ok hnode with ⟨_, _, rfl⟩
    exact .inr rfl
  · rcases compileCase_eq_ok hnode with ⟨_, _, _, rfl⟩
    exact .inr rfl
  · rcases compileFor_eq_ok hnode with ⟨_, _, _, rfl⟩
    exact .inr rfl
  · rcases compileTablerow_eq_ok hnode with ⟨_, _, _, rfl⟩
    exact .inr rfl
  · rcases compileControl_eq_ok_iff.mp hnode with ⟨_, _, rfl⟩
    exact .inl rfl
  · rcases compileControl_eq_ok_iff.mp hnode with ⟨_, _, rfl⟩
    exact .inl rfl
  · rcases compileCycle_eq_ok hnode with ⟨_, _, rfl⟩
    exact .inr rfl
  · rcases compileAssign_eq_ok hnode with ⟨_, _, rfl⟩
    exact .inr rfl
  · rcases map_eq_ok_iff.mp hnode with ⟨_, _, rfl⟩
    exact .inl rfl
  · rcases map_eq_ok_iff.mp hnode with ⟨_, _, rfl⟩
    exact .inl rfl
  · rcases map_eq_ok_iff.mp hnode with ⟨_, _, rfl⟩
    exact .inl rfl
  · rcases compileEcho_eq_ok hnode with ⟨_, rfl⟩
    exact .inr rfl

/-- A node that evaluates something is placed at the output or the tag that its tokens start with,
if the tag is one of the language. -/
theorem Arrangement.place_of_item {tags : Table Tag} {inLoop : Bool} {token : Token}
    {rest : List Token} {node : Node} (h : Item tags inLoop (token :: rest) node)
    (hstandard : ∀ name args tag, token.content = .tag name args → tags.get? name = some tag →
      tag ∈ Tag.standard) : node.exprs = [] ∨ node.place? = some token.place := by
  cases h with
  | text => exact .inl rfl
  | output _ => exact .inr rfl
  | alone hget _ hnode => exact Tag.standard_place (hstandard _ _ _ rfl hget) hnode
  | block hget _ _ hnode => exact Tag.standard_place (hstandard _ _ _ rfl hget) hnode

/-- A template is derived from tokens, and those that are no texts stand in its source. -/
theorem Template.exists_tokens {env : Environment} {source : String} {template : Template}
    (h : (compile env source).result = .ok template) :
    ∃ tokens, Arrangement.Body env.tags false tokens template.nodes ∧
      ∀ token ∈ tokens, token.content.isOutput? ≠ none → token.StandsIn source.toList := by
  rcases compile_eq_ok_iff.mp h with ⟨_, tokens, ⟨_, hscan⟩, _, hnodes⟩
  exact ⟨tokens, Arrangement.body_of_ofTokens hnodes, fun _ => Token.standsIn_of_scan hscan⟩

/-- A custom node runs the hook of its tag, guarded. -/
theorem Node.render_custom {env : Environment} {name : String} {tag : Tag}
    (htag : env.tags.get? name = some tag) (payload : Payload) (children : List Node)
    (place : Place) : (Node.custom name payload children place).render env =
      Render.guarded (fun crash => ⟨.tagFailed name crash, some place⟩)
        (tag.render payload (renderAll env children) (Render.value env place)) := by
  rw [Node.render, htag]

/-- Only crashes are taken up by a guard. -/
theorem Render.guarded_of_not_crashed {α : Type} {x : Render α} {scope : Scope}
    (h : ∀ crash, (x scope).exit ≠ .failed (.crash crash)) (f : Crash → RenderFault) :
    guarded f x scope = x scope := by
  unfold guarded
  dsimp only
  split
  · exact absurd ‹_› (h _)
  · rfl

namespace Environment

variable {env : Environment} {hooks : Hooks env} {nodes : List Node} {data : Table Value}

/-- What an event raises is what the render fails with. -/
theorem output_of_raises (hhooks : hooks.Keep fun _ x => Surfaces env x) {event : Event}
    (hevent : event ∈ (followedAll env hooks nodes).events (.ofData data)) {fault : RenderFault}
    (h : event.Raises env fault) :
    (env.output nodes data).result = .error (.fault (.render fault)) := by
  have hexit := law_surfaces.followedAll hhooks nodes (.ofData data) event hevent fault h
  rw [step_followedAll] at hexit
  simp only [output, hexit]

/-- The error that leaves a render is that of the innermost failure.

If a filter is unknown, or rejects what it is given, while an expression of a node is evaluated, it
names the filter and has the place of the node, with the reason of the filter for its cause; and
while an expression is evaluated, rendering errors arise in no other way, except from operators. If
a tag of the host crashes, it names the tag and has the place of its node, with the crash for its
cause. A tag that does not crash has what its node does: errors go through it as they are, and so
does leaving or skipping. The place of a node that is an output, or that a tag of the language makes
and that evaluates anything, is that of the output or of the tag that opens it; and the tokens that
a template is made of stand in its source. -/
theorem errors_name_innermost (env : Environment) (hooks : Hooks env)
    (hhooks : hooks.Keep fun _ x => Surfaces env x) (nodes : List Node) (data : Table Value) :
    let events := (followedAll env hooks nodes).events (.ofData data)
    let result := (env.output nodes data).result
    (∀ node expr scope, .evaluation node expr scope ∈ events →
      (∀ input name args options cause,
        expr.Reaches env scope node.place? input (.call name args options) →
        (FilterCall.call name args options).FailsBy env scope node.place? input cause →
        result = .error (.fault (.render ⟨cause, node.place?⟩)) ∧
          RenderFault.identifier ⟨cause, node.place?⟩ = name) ∧
      ∀ fault, (expr.eval env scope node.place?).result = .error (.render fault) →
        result = .error (.fault (.render fault)) ∧ expr.FailsBy env scope node.place? fault) ∧
    (∀ name payload children place scope,
      .execution (.custom name payload children place) scope ∈ events →
      ∀ tag crash, env.tags.get? name = some tag →
        (tag.render payload (renderAll env children) (Render.value env place) scope).exit =
          .failed (.crash crash) →
        result = .error (.fault (.render ⟨.tagFailed name crash, some place⟩))) ∧
    (∀ name payload children place scope tag, env.tags.get? name = some tag →
      let hook := tag.render payload (renderAll env children) (Render.value env place)
      (∀ crash, (hook scope).exit ≠ .failed (.crash crash)) →
        (Node.custom name payload children place).render env scope = hook scope) ∧
    (∀ inLoop token rest node, Arrangement.Item env.tags inLoop (token :: rest) node →
      (∀ name args tag, token.content = .tag name args → env.tags.get? name = some tag →
        tag ∈ Tag.standard) → node.exprs = [] ∨ node.place? = some token.place) ∧
    ∀ source template, (Template.compile env source).result = .ok template →
      ∃ tokens, Arrangement.Body env.tags false tokens template.nodes ∧
        ∀ token ∈ tokens, token.content.isOutput? ≠ none → token.StandsIn source.toList := by
  intro events result
  refine ⟨?_, ?_, ?_, fun _ _ _ _ => Arrangement.place_of_item, fun _ _ => Template.exists_tokens⟩
  · intro node expr scope hevent
    refine ⟨?_, ?_⟩
    · -- The call fails, so the expression does, and what an event raises leaves the render.
      intro input name args options cause hreaches hfails
      have heval : (Event.evaluation node expr scope).Raises env ⟨cause, node.place?⟩ :=
        Expr.eval_of_reaches hreaches (FilterCall.eval_of_failsBy hfails)
      refine ⟨output_of_raises hhooks hevent heval, ?_⟩
      cases hfails <;> rfl
    · intro fault heval
      exact ⟨output_of_raises hhooks hevent heval, Expr.failsBy_of_eval expr heval⟩
  · intro name payload children place scope hevent tag crash htag hcrash
    refine output_of_raises hhooks hevent ?_
    change ((Node.custom name payload children place).render env scope).exit = _
    rw [Node.render_custom htag]
    simp only [Render.guarded, hcrash]
  -- A hook that does not crash is left alone, with whatever fault it has.
  · intro name payload children place scope tag htag hook hcrash
    rw [Node.render_custom htag]
    exact Render.guarded_of_not_crashed hcrash _

end Environment

section Host

/-- A tag that shows its body in capitals. -/
def Tag.shout : Tag where
  name := "shout"
  endName := some "endshout"
  compile _ block := .ok (.custom block.name ⟨[], .nil⟩ block.body block.place)
  render _ children _ := do
    let chunks ← Render.captured children
    Render.emit (String.ofList (Text.upper (String.join chunks).toList))

/-- A tag that crashes. -/
def Tag.broken : Tag where
  name := "broken"
  compile _ block := .ok (.custom block.name ⟨[], .nil⟩ [] block.place)
  render _ _ _ := Render.fail (.crash (.host "ValueError" "no luck"))

/-- A filter that rejects everything. -/
def Filter.fussy : Filter :=
  ⟨"fussy", fun _ _ _ => .error (.rejected (.rejected "not this"))⟩

/-- The environment of a host with these. -/
def Environment.host : Environment :=
  (create {} { filters := [.fussy], tags := [.shout, .broken] }).1

theorem Environment.host_tags : host.tags =
    (Tag.standard ++ [Tag.shout, Tag.broken]).map fun tag => (tag.name, tag) :=
  rfl

/-- Followers that tell what the body does that is shown in capitals. -/
def Hooks.host : Hooks Environment.host where
  follow tag payload children eval :=
    if tag.name = "shout" then do
      let chunks ← Followed.around Render.captured id children
      Followed.silent (Render.emit (String.ofList (Text.upper (String.join chunks).toList)))
    else .silent (tag.render payload children.step fun expr => (eval expr).step)
  step_follow name tag htag payload children eval := by
    by_cases hname : tag.name = "shout"
    · have hmem := Table.mem_of_get?_eq_some htag
      rw [Environment.host_tags, List.mem_map] at hmem
      rcases hmem with ⟨_, hmem, heq⟩
      cases heq
      have htag : tag = Tag.shout := by
        simp only [Tag.standard, List.mem_append, List.mem_cons, List.not_mem_nil, or_false] at hmem
        rcases hmem with
          (rfl | rfl | rfl | rfl | rfl | rfl | rfl | rfl | rfl | rfl | rfl | rfl | rfl) | rfl | rfl
        all_goals first | rfl | exact absurd hname (by decide)
      subst htag
      rfl
    · simp only [hname, if_false]
      rfl

theorem Hooks.host_keep : Hooks.host.Keep fun _ x => Surfaces Environment.host x := by
  intro name tag htag payload children eval hchildren heval
  unfold Hooks.host
  dsimp only
  split
  · exact surfaces_bind (law_surfaces.around Followed.frame_captured hchildren) fun _ =>
      surfaces_silent _
  · exact surfaces_silent _

end Host

/-- A filter that rejects its input within two tags of a host in a loop, and a tag that crashes
within another one. -/
theorem Environment.errors_name_innermost_nested :
    let fussy : Expr := .filtered (.path "x" []) [.call "fussy" [] []]
    let shout (children : List Node) (place : Place) : Node :=
      .custom "shout" ⟨[], .nil⟩ children place
    let items : Selection := ⟨.literal (.range 1 2), none, none, false⟩
    let rejected : Node :=
      .loop "x" items [shout [shout [.output fussy ⟨1, 44⟩] ⟨1, 33⟩] ⟨1, 22⟩] none ⟨1, 1⟩
    let crashed : Node := shout [.custom "broken" ⟨[], .nil⟩ [] ⟨1, 12⟩] ⟨1, 1⟩
    (host.output [rejected] []).result =
      .error (.fault (.render ⟨.filterFailed "fussy" (.rejected "not this"), some ⟨1, 44⟩⟩)) ∧
    (host.output [crashed] []).result =
      .error (.fault (.render ⟨.tagFailed "broken" (.host "ValueError" "no luck"),
        some ⟨1, 12⟩⟩)) := by
  intro fussy shout items rejected crashed
  refine ⟨?_, ?_⟩
  · -- The filter is called for the first item, and the body is not rendered for the second.
    let inside : Scope := (((Scope.ofData []).push []).setLocal "x" (.integer 1)).setLocal "forloop"
      (Position.forloop ⟨0, 2⟩ .nil)
    have hevent : .evaluation (.output fussy ⟨1, 44⟩) fussy inside ∈
        (followedAll host .host [rejected]).events (.ofData []) := List.mem_of_getElem? (i := 5) rfl
    have hreaches : fussy.Reaches host inside (some ⟨1, 44⟩) (.integer 1) (.call "fussy" [] []) :=
      @Expr.Reaches.call _ _ _ _ _ _ [] [] _ rfl rfl
    have hfails : (FilterCall.call "fussy" [] []).FailsBy host inside (some ⟨1, 44⟩) (.integer 1)
        (.filterFailed "fussy" (.rejected "not this")) :=
      @FilterCall.FailsBy.rejected _ _ _ _ _ _ _ .fussy [] [] _ rfl rfl rfl rfl
    have h := errors_name_innermost host .host Hooks.host_keep [rejected] []
    exact ((h.1 _ _ _ hevent).1 _ _ _ _ _ hreaches hfails).1
  -- The hook of the inner tag is run while the outer one renders its children.
  · have hevent : .execution (.custom "broken" ⟨[], .nil⟩ [] ⟨1, 12⟩) (.ofData []) ∈
        (followedAll host .host [crashed]).events (.ofData []) := List.mem_of_getElem? (i := 1) rfl
    have h := errors_name_innermost host .host Hooks.host_keep [crashed] []
    exact h.2.1 _ _ _ _ _ hevent .broken _ rfl rfl

end Liquid
