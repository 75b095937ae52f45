import Liquid.Proofs.Render.Inside
import Liquid.Proofs.Scope.Lookup

/-!
# Nested Loops

What the dictionary of a loop says, wherever a template may look at it. Inside
of nested loops each of them is at one of its items. The dictionary of the
innermost one is told by these iterations alone: it says where the innermost
stands, and holds the dictionary of the loop around it, which is told by the
iterations of the outer loops in the same way.

This is an invariant of how a render goes on. A node behind another one finds
the dictionary that was there before, since a loop takes its own one away. A
body of a conditional or a capture finds the one in front of it, and so does
the cell of a table, whose frame has another dictionary. A loop looks for the
one around it before it lays its frame, and gives it to each of its own.

All of this is lost if something else is called by the name of the dictionary.

## Main definitions

* `Iteration.dictionary`: The dictionary of the innermost of nested loops.
* `Iteration.ToldBy`: What a dictionary should say.
* `Node.Spares`: Trees that give a name to nothing.

## Theorems

* `Inside.lookup`: The dictionary that is found.
* `Inside.resolve_parents`: The dictionaries of the loops around.
-/

namespace Liquid

namespace Iteration

/-- The place of the item among those selected. -/
def position (iteration : Iteration) : Position :=
  ⟨iteration.index, iteration.items.length⟩

/-- The dictionary of the innermost of nested loops, which come from the inside to the outside.
Outside of all loops there is none. -/
def dictionary : List Iteration → Value
  | [] => .nil
  | iteration :: outer => iteration.position.forloop (dictionary outer)

/-- Whether fields say where the iteration stands. -/
def ToldBy (iteration : Iteration) (field : String → Except Crash Value) : Prop :=
  ∃ (length index index0 rindex rindex0 : Int) (first last : Bool),
    field "length" = .ok (.integer length) ∧ field "index" = .ok (.integer index) ∧
    field "index0" = .ok (.integer index0) ∧ field "rindex" = .ok (.integer rindex) ∧
    field "rindex0" = .ok (.integer rindex0) ∧ field "first" = .ok (.bool first) ∧
    field "last" = .ok (.bool last) ∧
    length = iteration.items.length ∧ index0 = iteration.index ∧ index = index0 + 1 ∧
    index + rindex = length + 1 ∧ rindex0 = rindex - 1 ∧ (first = true ↔ index0 = 0) ∧
    (last = true ↔ index = length)

end Iteration

namespace Node

/-- The variable that a loop sets. -/
def binds? : Node → Option String
  | .loop name .. => some name
  | .tablerow name .. => some name
  | _ => none

/-- Whether a tree without nodes of the host calls nothing by the name. -/
def Spares (name : String) (nodes : List Node) : Prop :=
  ∀ node ∈ allOf nodes, node.isCustom = false ∧ node.target? ≠ some name ∧
    node.binds? ≠ some name

section Spares

variable {env : Environment} {name : String} {node : Node} {nodes : List Node}

/-- What all nodes spare, those behind the first spare too. -/
theorem Spares.tail (h : Spares name (node :: nodes)) : Spares name nodes :=
  fun inner hinner => h inner (List.mem_append_right _ hinner)

theorem Spares.head (h : Spares name (node :: nodes)) :
    ∀ inner ∈ node.all, inner.isCustom = false ∧ inner.target? ≠ some name ∧
      inner.binds? ≠ some name :=
  fun inner hinner => h inner (List.mem_append_left _ hinner)

/-- What a node spares, its bodies spare too. -/
theorem Spares.body (h : Spares name (node :: nodes)) {body : List Node}
    (hbody : body ∈ node.bodies) : Spares name body :=
  fun inner hinner => h.head inner (mem_all_of_mem_body hbody hinner)

/-- A name that no node writes is found as before. -/
theorem Spares.lookup_of_keeps {scope after : Scope} (h : Spares name nodes)
    (hkeeps : Scope.Keeps (targetsOf nodes) scope after) :
    after.lookup name = scope.lookup name := by
  refine Scope.lookup_congr hkeeps.locals (hkeeps.globals name fun hmem => ?_)
  rcases List.mem_filterMap.mp hmem with ⟨inner, hinner, htarget⟩
  exact (h inner hinner).2.1 htarget

theorem Spares.moves (h : Spares name nodes) (hnode : node ∈ nodes) :
    Render.Moves (Scope.Keeps (targetsOf nodes)) (node.render env) := by
  refine Render.moves_node node (fun inner hinner => ?_) fun inner hinner target htarget => ?_
  · exact (h inner (mem_allOf_of_mem hnode hinner)).1
  · exact List.mem_filterMap.mpr ⟨inner, mem_allOf_of_mem hnode hinner, htarget⟩

/-- A node of a tree that spares a name leaves it standing for what it stood for. -/
theorem Spares.lookup_node (h : Spares name nodes) (hnode : node ∈ nodes) (scope : Scope) :
    (node.render env scope).scope.lookup name = scope.lookup name :=
  h.lookup_of_keeps (h.moves hnode scope)

theorem Spares.lookup_all (h : Spares name nodes) (scope : Scope) :
    (renderAll env nodes scope).scope.lookup name = scope.lookup name :=
  h.lookup_of_keeps
    ((Render.compositional_keeps _).renderAll nodes (fun _ hnode => h.moves hnode) scope)

end Spares

end Node

namespace Inside

open Iteration (dictionary)

variable {env : Environment} {nodes inner : List Node} {scope state : Scope}
  {loops : List Iteration}

/-- A body that is come to finds the dictionary of the loops around it, one more if it is that of a
loop. -/
theorem lookup_of_enters {node : Node} {body : List Node} {entered : Scope}
    {iteration : Option Iteration} {outer : List Iteration}
    (h : node.Enters env scope iteration body entered)
    (hspares : Node.Spares "forloop" (node :: nodes))
    (hscope : scope.lookup "forloop" = dictionary outer) :
    Node.Spares "forloop" body ∧
      entered.lookup "forloop" = dictionary (iteration.toList ++ outer) := by
  cases h with
  | part hbody hmain => exact ⟨hspares.body (List.mem_of_getElem? hbody), hscope⟩
  | item hitems hvisit =>
      rcases Render.mem_visits hvisit with ⟨before, heq⟩
      refine ⟨hspares.body List.mem_cons_self, ?_⟩
      have hentered := congrArg (fun visit : Visit => visit.scope.lookup "forloop") heq
      refine hentered.trans ((Scope.lookup_setLocal_self _ _ _).trans ?_)
      rw [hscope]
      rfl
  | @cell name selection columns body place items count visit hitems hvisit =>
      have hbody : Node.Spares "forloop" body := hspares.body List.mem_cons_self
      have hname : "forloop" ≠ name := fun heq =>
        (hspares.head _ (Node.mem_all_self _)).2.2 (congrArg some heq.symm)
      refine ⟨hbody, ?_⟩
      -- Neither the variables of the table nor its body touch the name.
      refine Render.scope_of_mem_visits (·.lookup "forloop" = dictionary outer) ?_ ?_ ?_ hvisit
      · intro index item before hbefore
        refine (Scope.lookup_setLocal_of_ne (by decide) _).trans ?_
        exact (Scope.lookup_setLocal_of_ne hname _).trans hbefore
      · intro before hbefore
        exact (hbody.lookup_all before).trans hbefore
      · exact Scope.lookup_push_nil.trans hscope

/-- Wherever a render comes to, the name of the dictionary stands for that of the iterations
around. -/
theorem lookup (h : Inside env nodes scope loops inner state)
    (hspares : Node.Spares "forloop" nodes) (outer : List Iteration)
    (hscope : scope.lookup "forloop" = dictionary outer) :
    state.lookup "forloop" = dictionary (loops ++ outer) := by
  -- Nodes that are passed leave the name alone, and a loop that is entered binds it.
  induction h generalizing outer with
  | here => exact hscope
  | past hdone hinside ih =>
      exact ih hspares.tail outer ((hspares.lookup_node List.mem_cons_self _).trans hscope)
  | enter henters hinside ih =>
      rcases lookup_of_enters henters hspares hscope with ⟨hbody, hentered⟩
      rw [List.append_assoc]
      exact ih hbody _ hentered

/-- Every iteration is at an item of its loop. -/
theorem index_lt (h : Inside env nodes scope loops inner state) :
    ∀ iteration ∈ loops, iteration.index < iteration.items.length := by
  induction h with
  | here => exact fun _ hmem => (nomatch hmem)
  | past hdone hinside ih => exact ih
  | enter henters hinside ih =>
      intro iteration hmem
      rcases List.mem_append.mp hmem with hmem | hmem
      · exact ih iteration hmem
      -- Only the loops count as iterations here, and each visit of one has an item.
      · cases henters with
        | part => cases hmem
        | cell => cases hmem
        | @item name selection body otherwise place items visit hitems hvisit =>
            cases List.mem_singleton.mp hmem
            exact (Render.visits_covers items _).index_lt hvisit

end Inside

namespace Iteration

/-- The dictionary of a loop around is what it is told to be nested in. -/
theorem parent_dictionary (outer : List Iteration) :
    Position.parent (dictionary outer) = dictionary outer := by
  cases outer <;> rfl

/-- What is found under the link of a dictionary; nil has nothing. -/
theorem item_parentloop (loops : List Iteration) :
    (dictionary loops).item (.name "parentloop") = .ok (dictionary loops.tail) := by
  cases loops with
  | nil => rfl
  | cons iteration outer =>
      simp [dictionary, Position.forloop, Position.entries, Value.item, List.lookup_cons,
        parent_dictionary]

/-- The parent of a loop is found one dictionary further out. -/
theorem foldlM_parentloop (k : Nat) (loops : List Iteration) :
    (List.replicate k (Key.name "parentloop")).foldlM Value.item (dictionary loops) =
      .ok (dictionary (loops.drop k)) := by
  induction k generalizing loops with
  | zero => rfl
  | succ k ih =>
      rw [List.replicate_succ, List.foldlM_cons, item_parentloop]
      refine (ih loops.tail).trans ?_
      rw [List.drop_tail]

/-- What the dictionary of a loop says of its iteration. -/
theorem toldBy_dictionary (iteration : Iteration) (outer : List Iteration) :
    iteration.ToldBy fun field => (dictionary (iteration :: outer)).item (.name field) := by
  refine ⟨iteration.items.length, iteration.index + 1, iteration.index,
    iteration.items.length - iteration.index, iteration.items.length - iteration.index - 1,
    iteration.index == 0, iteration.position.isLast, ?_⟩
  simp [dictionary, Position.forloop, Position.entries, Value.item, List.lookup_cons, position,
    Position.isLast]
  omega

end Iteration

namespace Inside

open Iteration (dictionary)

variable {env : Environment} {nodes inner : List Node} {scope state : Scope}
  {loops : List Iteration}

/-- The dictionary found by following so many links from that of the innermost loop. -/
theorem resolve_parents (h : Inside env nodes scope loops inner state)
    (hspares : Node.Spares "forloop" nodes) (hscope : scope.lookup "forloop" = .nil) (k : Nat) :
    state.resolve "forloop" (List.replicate k (.name "parentloop")) =
      .ok (dictionary (loops.drop k)) := by
  have hlookup := h.lookup hspares [] hscope
  rw [List.append_nil] at hlookup
  rw [Scope.resolve, hlookup]
  exact Iteration.foldlM_parentloop k loops

/-- What the template reads of a loop around is what that loop told. -/
theorem toldBy_resolve (h : Inside env nodes scope loops inner state)
    (hspares : Node.Spares "forloop" nodes) (hscope : scope.lookup "forloop" = .nil) {k : Nat}
    {iteration : Iteration} (hk : loops[k]? = some iteration) :
    iteration.ToldBy fun field =>
      state.resolve "forloop" (List.replicate k (.name "parentloop") ++ [.name field]) := by
  have hdrop : loops.drop k = iteration :: loops.drop (k + 1) := by
    rcases List.getElem?_eq_some_iff.mp hk with ⟨hlt, rfl⟩
    exact List.drop_eq_getElem_cons hlt
  -- Behind the parents the field is asked of the loop that they lead to.
  have hfield (field : String) :
      state.resolve "forloop" (List.replicate k (.name "parentloop") ++ [.name field]) =
        (dictionary (iteration :: loops.drop (k + 1))).item (.name field) := by
    have hparents := h.resolve_parents hspares hscope k
    rw [hdrop] at hparents
    unfold Scope.resolve at hparents ⊢
    rw [List.foldlM_append, hparents]
    change ((dictionary (iteration :: loops.drop (k + 1))).item (.name field) >>= pure) = _
    cases (dictionary (iteration :: loops.drop (k + 1))).item (.name field) <;> rfl
  simp only [hfield]
  exact Iteration.toldBy_dictionary iteration _

/-- Loops in loops, whatever stands between them, in a template without nodes of the host that calls
nothing else by the name of the dictionary. Every node is executed inside of the iterations around
it. There the dictionary tells of the innermost of these, each link leads to the next one further
out, and behind the outermost there is nothing. The visits of a loop are numbered through, and
whether a body is done or continues, the next item is visited under the next number. -/
theorem forloop_nested (env : Environment) (hooks : Hooks env) (nodes : List Node)
    (data : Table Value) (hspares : Node.Spares "forloop" nodes)
    (hdata : ∀ entry ∈ data, entry.1 ≠ "forloop") :
    let start := Scope.ofData data
    (∀ inner state, .execution inner state ∈ (followedAll env hooks nodes).events start →
      ∃ loops rest, Inside env nodes start loops (inner :: rest) state) ∧
    (∀ loops inner state, Inside env nodes start loops inner state →
      (∀ k, state.resolve "forloop" (List.replicate k (.name "parentloop")) =
        .ok (dictionary (loops.drop k))) ∧
      ∀ (k : Nat) (iteration : Iteration), loops[k]? = some iteration →
        iteration.index < iteration.items.length ∧ iteration.ToldBy fun field =>
          state.resolve "forloop" (List.replicate k (.name "parentloop") ++ [.name field])) ∧
    ∀ (name : String) (items : List Value) (body : Render Unit) (scope : Scope),
      let visits := Render.loopVisits name items body scope
      ∀ i visit, visits[i]? = some visit → visit.index = i ∧ items[i]? = some visit.item ∧
        (visit.outcome.exit = .done () ∨ visit.outcome.exit = .continued → i + 1 < items.length →
          ∃ next, visits[i + 1]? = some next ∧ next.index = visit.index + 1) := by
  intro start
  -- The data has no such name, so the outermost loop has no parent.
  have hstart : start.lookup "forloop" = .nil := by
    rw [Scope.lookup_eq]
    have hnone : data.get? "forloop" = none := by
      refine List.lookup_eq_none_iff.mpr fun entry hentry => ?_
      simpa using (hdata entry hentry).symm
    simp [start, Scope.ofData, hnone]
  refine ⟨fun inner state h => of_execution (fun node hnode => (hspares node hnode).1) h, ?_, ?_⟩
  · intro loops inner state h
    refine ⟨h.resolve_parents hspares hstart, fun k iteration hk => ?_⟩
    exact ⟨h.index_lt iteration (List.mem_of_getElem? hk), h.toldBy_resolve hspares hstart hk⟩
  · intro name items body scope visits i visit hvisit
    have hcovers : Visit.Covers items visits := Render.visits_covers items _
    rcases hcovers.getElem? hvisit with ⟨hindex, hitem⟩
    refine ⟨hindex, hitem, fun hexit hmore => hcovers.next hvisit ?_ hmore⟩
    unfold Visit.goesOn
    rcases hexit with hexit | hexit <;> simp only [hexit]

/-- The last round of a loop in a table in the second round of another loop. -/
theorem forloop_nested_table :
    let looped (name : String) (last : Int) (body : List Node) : Node :=
      .loop name ⟨.literal (.range 1 last), none, none, false⟩ body none ⟨1, 1⟩
    let table (body : List Node) : Node :=
      .tablerow "t" ⟨.literal (.range 1 1), none, none, false⟩ none body ⟨1, 1⟩
    let body : List Node := [.continueLoop]
    let nodes : List Node := [looped "a" 2 [table [looped "b" 3 body]]]
    let loops : List Iteration := [⟨Value.integersFrom 1 3, 2⟩, ⟨Value.integersFrom 1 2, 1⟩]
    ∃ state, Inside Environment.standard nodes (Scope.ofData []) loops body state ∧
      state.resolve "forloop" [.name "parentloop", .name "index"] = .ok (.integer 2) ∧
      state.resolve "forloop" [.name "parentloop", .name "parentloop"] = .ok .nil := by
  intro looped table body nodes loops
  have hspares : Node.Spares "forloop" nodes := by
    have hall : Node.allOf nodes =
        nodes ++ [table [looped "b" 3 body], looped "b" 3 body] ++ body := by
      simp [Node.allOf, Node.all_eq, Node.bodies, nodes, table, looped, body]
    unfold Node.Spares
    rw [hall]
    simp [nodes, table, looped, body, Node.isCustom, Node.target?, Node.binds?]
  let env := Environment.standard
  -- The visits are named by their numbers, so that none of them has to be written down.
  have houter : ∃ visit, (Render.loopVisits "a" (Value.integersFrom 1 2)
      (renderAll env [table [looped "b" 3 body]]) (Scope.ofData []))[1]? = some visit := ⟨_, rfl⟩
  rcases houter with ⟨outer, houter⟩
  have hcell : ∃ visit, (Render.tableVisits "t" 1 (Value.integersFrom 1 1)
      (renderAll env [looped "b" 3 body]) outer.scope)[0]? = some visit := ⟨_, rfl⟩
  rcases hcell with ⟨cell, hcell⟩
  have hround : ∃ visit, (Render.loopVisits "b" (Value.integersFrom 1 3) (renderAll env body)
      cell.scope)[2]? = some visit := ⟨_, rfl⟩
  rcases hround with ⟨round, hround⟩
  have hinside : Inside env nodes (Scope.ofData []) loops body round.scope := by
    have hindex : outer.index = 1 ∧ round.index = 2 :=
      ⟨((Render.visits_covers _ _).getElem? houter).1,
        ((Render.visits_covers _ _).getElem? hround).1⟩
    have hlast : Inside env [looped "b" 3 body] cell.scope [⟨Value.integersFrom 1 3, round.index⟩]
        body round.scope := .enter (.item rfl (List.mem_of_getElem? hround)) .here
    have htable : Inside env [table [looped "b" 3 body]] outer.scope
        [⟨Value.integersFrom 1 3, round.index⟩] body round.scope :=
      .enter (.cell rfl (List.mem_of_getElem? hcell)) hlast
    have hall : Inside env nodes (Scope.ofData [])
        [⟨Value.integersFrom 1 3, round.index⟩, ⟨Value.integersFrom 1 2, outer.index⟩] body
        round.scope := .enter (.item rfl (List.mem_of_getElem? houter)) htable
    rwa [hindex.1, hindex.2] at hall
  rcases forloop_nested env (.silent env) nodes [] hspares
    (fun _ hentry => absurd hentry List.not_mem_nil) with ⟨_, hplaces, _⟩
  rcases hplaces loops body round.scope hinside with ⟨hparents, htold⟩
  refine ⟨round.scope, hinside, ?_, hparents 2⟩
  rcases (htold 1 _ rfl).2 with ⟨_, index, index0, _, _, _, _, _, hindex, _, _, _, _, _, _, hindex0,
    hsucc, _⟩
  exact hindex.trans (by rw [hsucc, hindex0]; rfl)

end Inside

end Liquid
