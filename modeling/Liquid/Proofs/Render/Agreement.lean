import Liquid.Proofs.Render.Compositional
import Liquid.Template
import Mathlib.Data.List.Forall2

/-!
# What Output Depends On

Two renders of one tree, with data that agree on the names that the tree reads.
The scopes of the two runs need not be equal at any point, for the data are in
them, and a loop hands on what it found under its dictionary's name. But they
agree on the names that are read, frame by frame, and have counted alike. Every
step keeps that, and shows the same.

The one step that looks a name up without being asked to is the start of a loop.
What it finds there may differ between the runs. It goes into the dictionary of
the loop, though, and so into a variable of the same name: if that is read, it
has been the same, and if not, what is written under it makes no difference.

## Main definitions

* `Table.Agree`, `Scope.Agree`, `Outcome.Agree`: Agreement on some names.
* `Render.Alike`: Two steps that do the same in scopes that agree.

## Theorems

* `Render.alike_loop`: The loops of the two runs.
* `Render.alike_node`: The nodes of the two runs.
* `Environment.output_eq_of_agree`: The outputs of the two runs.
-/

namespace Liquid

/-- Whether both tables have the same under each of the names, or both have nothing. -/
def Table.Agree (names : List String) (first second : Table Value) : Prop :=
  ∀ name ∈ names, first.get? name = second.get? name

/-- Whether the frames agree, one by one, and the counters and cycles are the same. -/
structure Scope.Agree (names : List String) (first second : Scope) : Prop where
  globals : Table.Agree names first.globals second.globals
  locals : List.Forall₂ (Table.Agree names) first.locals second.locals
  counters : first.counters = second.counters
  cycles : first.cycles = second.cycles

/-- Whether both steps have shown and noted the same, have ended in the same way, and have left
scopes that agree. -/
structure Outcome.Agree (names : List String) {α : Type} (first second : Outcome α) : Prop where
  chunks : first.chunks = second.chunks
  remarks : first.remarks = second.remarks
  exit : first.exit = second.exit
  scope : Scope.Agree names first.scope second.scope

section Agree

variable {names : List String} {first second : Scope}

/-- Writing an entry keeps two tables in agreement, if they agree on what is written. -/
theorem agree_put {table table' : Table Value} (h : Table.Agree names table table') {name : String}
    {entry entry' : Value} (hentry : name ∈ names → entry = entry') :
    Table.Agree names (table.put name entry) (table'.put name entry') := by
  intro other hother
  by_cases hname : other = name
  · subst hname
    rw [Table.get?_put_self, Table.get?_put_self, hentry hother]
  · rw [Table.get?_put_of_ne _ _ hname, Table.get?_put_of_ne _ _ hname, h other hother]

/-- The innermost frame that has a name is the same one in both scopes. -/
theorem findSome?_of_agree {frames frames' : List (Table Value)}
    (h : List.Forall₂ (Table.Agree names) frames frames') {name : String} (hname : name ∈ names) :
    frames.findSome? (Table.get? · name) = frames'.findSome? (Table.get? · name) := by
  induction h with
  | nil => rfl
  | cons hframe _ ih => rw [List.findSome?_cons, List.findSome?_cons, hframe name hname, ih]

/-- A name that is read stands for the same in both scopes. -/
theorem Scope.Agree.sameOn (h : Scope.Agree names first second) : first.SameOn names second := by
  intro name hname
  have hframes : List.Forall₂ (Table.Agree names) first.frames second.frames :=
    List.rel_append h.locals (.cons h.globals .nil)
  unfold Scope.lookup
  rw [findSome?_of_agree hframes hname]

/-- Assigning the same value keeps scopes in agreement. -/
theorem Scope.Agree.assign (h : Scope.Agree names first second) (name : String) (value : Value) :
    Scope.Agree names (first.assign name value) (second.assign name value) :=
  { h with globals := agree_put h.globals fun _ => rfl }

/-- A variable of the innermost frame. What is written may differ if the name is never read. -/
theorem Scope.Agree.setLocal (h : Scope.Agree names first second) {name : String}
    {value value' : Value} (hvalue : name ∈ names → value = value') :
    Scope.Agree names (first.setLocal name value) (second.setLocal name value') := by
  rcases first with ⟨globals, locals, counters, cycles⟩
  rcases second with ⟨globals', locals', counters', cycles'⟩
  rcases h with ⟨hglobals, hlocals, hcounters, hcycles⟩
  cases hlocals with
  | nil => exact ⟨agree_put hglobals hvalue, .nil, hcounters, hcycles⟩
  | cons hframe houter =>
      exact ⟨hglobals, .cons (agree_put hframe hvalue) houter, hcounters, hcycles⟩

/-- Counters do not depend on the names, so they move alike. -/
theorem Scope.Agree.count (h : Scope.Agree names first second) (name : String) (step : Int) :
    Scope.Agree names (first.count name step).2 (second.count name step).2 := by
  have hcounter : first.counter name = second.counter name := by
    unfold Scope.counter
    rw [h.counters]
  have hassign := h.assign name (.integer (second.counter name + step))
  unfold Scope.count
  rw [hcounter, h.counters]
  exact ⟨hassign.globals, hassign.locals, rfl, hassign.cycles⟩

theorem Scope.Agree.push (h : Scope.Agree names first second) (frame : Table Value) :
    Scope.Agree names (first.push frame) (second.push frame) :=
  { h with locals := .cons (fun _ _ => rfl) h.locals }

theorem Scope.Agree.drop (h : Scope.Agree names first second) :
    Scope.Agree names first.drop second.drop := by
  rcases first with ⟨globals, locals, counters, cycles⟩
  rcases second with ⟨globals', locals', counters', cycles'⟩
  rcases h with ⟨hglobals, hlocals, hcounters, hcycles⟩
  cases hlocals with
  | nil => exact ⟨hglobals, .nil, hcounters, hcycles⟩
  | cons _ houter => exact ⟨hglobals, houter, hcounters, hcycles⟩

end Agree

namespace Render

/-- Whether the two steps do the same in scopes that agree on the names. -/
def Alike (names : List String) {α : Type} (x y : Render α) : Prop :=
  ∀ first second, Scope.Agree names first second → Outcome.Agree names (x first) (y second)

section Alike

variable {α β : Type} {names : List String} {x y : Render α} {body : Render Unit} {name : String}
  {env : Environment}

theorem alike_done (a : α) : Alike names (done a) (done a) :=
  fun _ _ h => ⟨rfl, rfl, rfl, h⟩

/-- Steps that are alike one after the other are alike. -/
theorem alike_bind {f g : α → Render β} (hx : Alike names x y)
    (hf : ∀ a, Alike names (f a) (g a)) : Alike names (x >>= f) (y >>= g) := by
  intro first second h
  rcases hx first second h with ⟨hchunks, hremarks, hexit, hscope⟩
  change Outcome.Agree names (Render.bind x f first) (Render.bind y g second)
  unfold Render.bind
  -- The second step follows only where the first is done, and then in scopes that agree.
  cases hdone : (y second).exit with
  | done a =>
      rcases hf a _ _ hscope with ⟨hchunks', hremarks', hexit', hscope'⟩
      simp only [hexit, hdone, hchunks, hremarks]
      exact ⟨by rw [hchunks'], by rw [hremarks'], hexit', hscope'⟩
  | broken => simpa only [hexit, hdone] using ⟨hchunks, hremarks, rfl, hscope⟩
  | continued => simpa only [hexit, hdone] using ⟨hchunks, hremarks, rfl, hscope⟩
  | failed fault => simpa only [hexit, hdone] using ⟨hchunks, hremarks, rfl, hscope⟩

theorem compositional_alike (names : List String) : Compositional fun _ x => Alike names x x where
  done := alike_done
  emit _ := fun _ _ h => ⟨rfl, rfl, rfl, h⟩
  bind := alike_bind

/-- An evaluation that depends on the names only. -/
theorem alike_evaluated {eval : Scope → Noted EvalFault α}
    (h : ∀ {first second}, Scope.Agree names first second → eval first = eval second) :
    Alike names (evaluated eval) (evaluated eval) := by
  intro first second hagree
  unfold evaluated
  rw [h hagree]
  exact ⟨rfl, rfl, rfl, hagree⟩

/-- An expression has one value in both scopes if they agree on its roots. -/
theorem alike_value {place : Place} {expr : Expr} (h : ∀ root ∈ expr.roots, root ∈ names) :
    Alike names (value env place expr) (value env place expr) :=
  alike_evaluated fun hagree => Expr.eval_congr expr fun root hroot =>
    hagree.sameOn root (h root hroot)

theorem evalOption_congr {first second : Scope} (h : Scope.Agree names first second) {place : Place}
    {option : Option Expr} (hroots : ∀ expr ∈ option.toList, ∀ root ∈ expr.roots, root ∈ names) :
    Selection.evalOption env first place option = Selection.evalOption env second place option := by
  cases option with
  | none => rfl
  | some expr =>
      have heval : expr.eval env first (some place) = expr.eval env second (some place) :=
        Expr.eval_congr expr fun root hroot =>
          h.sameOn root (hroots expr List.mem_cons_self root hroot)
      simp only [Selection.evalOption, heval]

/-- The items of a loop depend on the roots of its three expressions. -/
theorem alike_items {place : Place} {selection : Selection}
    (h : ∀ expr ∈ selection.exprs, ∀ root ∈ expr.roots, root ∈ names) :
    Alike names (evaluated fun scope => selection.items env scope place)
      (evaluated fun scope => selection.items env scope place) := by
  refine alike_evaluated fun {first second} hagree => ?_
  unfold Selection.exprs at h
  rw [List.forall_mem_cons, List.forall_mem_append] at h
  -- The collection, the offset and the limit, in this order.
  rcases h with ⟨hcollection, hoffset, hlimit⟩
  unfold Selection.items
  rw [Expr.eval_congr selection.collection fun root hroot =>
    hagree.sameOn root (hcollection root hroot), evalOption_congr hagree hoffset,
    evalOption_congr hagree hlimit]

/-- The turns of a cycle are counted alike. -/
theorem alike_changed_cycle (key : String) (size : Int) :
    Alike names (changed (·.cycle key size)) (changed (·.cycle key size)) := by
  intro first second h
  -- Both scopes have taken the same number of turns.
  have hturns : first.turns key = second.turns key := by
    unfold Scope.turns
    rw [h.cycles]
  have hscope : Scope.Agree names
      { first with cycles := second.cycles.put key (second.turns key + 1) }
      { second with cycles := second.cycles.put key (second.turns key + 1) } :=
    { h with cycles := rfl }
  unfold changed Scope.cycle
  simp only [hturns, h.cycles]
  cases size == 0 with
  | true => exact ⟨rfl, rfl, rfl, hscope⟩
  | false => exact ⟨rfl, rfl, rfl, hscope⟩

theorem alike_update {f g : Scope → Scope}
    (h : ∀ {first second}, Scope.Agree names first second →
      Scope.Agree names (f first) (g second)) : Alike names (update f) (update g) :=
  fun _ _ hagree => ⟨rfl, rfl, rfl, h hagree⟩

theorem alike_captured (h : Alike names body body) :
    Alike names (captured body) (captured body) := by
  intro first second hagree
  rcases h first second hagree with ⟨hchunks, hremarks, hexit, hscope⟩
  unfold captured
  exact ⟨rfl, hremarks, by simp only [hchunks, hexit], hscope⟩

theorem alike_iteration (h : Alike names body body) :
    Alike names (iteration body) (iteration body) := by
  intro first second hagree
  rcases h first second hagree with ⟨hchunks, hremarks, hexit, hscope⟩
  unfold iteration
  exact ⟨hchunks, hremarks, by simp only [hexit], hscope⟩

theorem alike_framed (frame : Table Value) (h : Alike names x y) :
    Alike names (framed frame x) (framed frame y) := by
  intro first second hagree
  rcases h _ _ (hagree.push frame) with ⟨hchunks, hremarks, hexit, hscope⟩
  exact ⟨hchunks, hremarks, hexit, hscope.drop⟩

/-- A step for each item, where the steps of the two runs may differ. -/
theorem alike_each {visit visit' : Nat → Value → Render Bool}
    (h : ∀ index item, Alike names (visit index item) (visit' index item)) (index : Nat)
    (items : List Value) : Alike names (each visit index items) (each visit' index items) := by
  induction items generalizing index with
  | nil => exact alike_done ()
  | cons item items ih =>
      refine alike_bind (h index item) fun left => ?_
      cases left with
      | true => exact alike_done ()
      | false => exact ih (index + 1)

/-- A loop, which looks up the dictionary of the loop around it. -/
theorem alike_loop {items : List Value} (h : Alike names body body) :
    Alike names (loop name items body) (loop name items body) := by
  intro first second hagree
  have houter : "forloop" ∈ names → first.lookup "forloop" = second.lookup "forloop" :=
    hagree.sameOn "forloop"
  unfold loop
  -- What was found in either run is now in the step for an item.
  refine alike_framed [] (alike_each (fun index item => ?_) 0 items) first second hagree
  refine alike_bind (alike_update fun hagree => hagree.setLocal fun _ => rfl) fun _ => ?_
  refine alike_bind (alike_update fun hagree => hagree.setLocal fun hname => ?_) fun _ =>
    alike_iteration h
  rw [houter hname]

theorem alike_table {columns : Nat} {items : List Value} (h : Alike names body body) :
    Alike names (table name columns items body) (table name columns items body) := by
  refine alike_framed [] (alike_each (fun index item => ?_) 0 items)
  exact (compositional_alike names).cell
    (fun _ _ => alike_update fun hagree => hagree.setLocal fun _ => rfl) (alike_iteration h)

/-- A node without nodes of the host in it depends on the names that are read in it only. -/
theorem alike_node (node : Node) (hbuiltIn : ∀ inner ∈ node.all, inner.isCustom = false)
    (hroots : ∀ inner ∈ node.all, ∀ expr ∈ inner.exprs, ∀ root ∈ expr.roots, root ∈ names) :
    Alike names (node.render env) (node.render env) := by
  have h := compositional_alike names
  have hassign (name : String) (value : Value) :
      Alike names (update (·.assign name value)) (update (·.assign name value)) :=
    alike_update fun hagree => hagree.assign name value
  -- By the bodies of the node, so that each of them is known to be alike.
  induction node using Node.byBodies with
  | step node ih =>
      -- What is inside of a body is inside of the node.
      have hchild : ∀ body ∈ node.bodies, ∀ child ∈ body,
          Alike names (child.render env) (child.render env) := by
        intro body hbody child hmem
        have hinner : ∀ inner ∈ child.all, inner ∈ node.all := fun inner hinner =>
          Node.mem_all_of_mem_body hbody (Node.mem_allOf_of_mem hmem hinner)
        exact ih body hbody child hmem (fun inner hmem => hbuiltIn inner (hinner inner hmem))
          fun inner hmem => hroots inner (hinner inner hmem)
      have hexprs := hroots node node.mem_all_self
      -- A kind of node after the other: its expressions by the roots, its bodies by the hypothesis,
      -- and what it writes by the agreement.
      cases node with
      | text text => exact h.emit text
      | output expr place => exact h.display (alike_value (hexprs expr List.mem_cons_self))
      | echo expr place => exact h.display (alike_value (hexprs expr List.mem_cons_self))
      | conditional branches otherwise place =>
          exact h.conditional (fun expr hexpr => alike_value (hexprs expr hexpr)) hchild
      | choice subject whens otherwise place =>
          exact h.choice (fun expr hexpr => alike_value (hexprs expr hexpr)) hchild
      | loop name selection body otherwise place =>
          refine h.loop (alike_items hexprs) ?_ fun items => alike_loop ?_
          · exact fun nodes hnodes =>
              hchild nodes (List.mem_cons_of_mem _ (Option.mem_toList.mpr hnodes))
          · exact h.renderAll body (hchild body List.mem_cons_self)
      | tablerow name selection columns body place =>
          rw [Node.exprs, List.forall_mem_append] at hexprs
          refine h.tablerow (alike_items hexprs.1) ?_ fun _ _ => alike_table ?_
          · exact alike_evaluated fun hagree => evalOption_congr hagree hexprs.2
          · exact h.renderAll body (hchild body List.mem_cons_self)
      | breakLoop => exact fun _ _ hagree => ⟨rfl, rfl, rfl, hagree⟩
      | continueLoop => exact fun _ _ hagree => ⟨rfl, rfl, rfl, hagree⟩
      | cycle values group place =>
          rw [Node.exprs, List.forall_mem_append] at hexprs
          refine h.cycle ?_ (fun index => alike_value ?_) fun key => alike_changed_cycle key _
          · exact fun expr hexpr => alike_value (hexprs.2 expr (Option.mem_toList.mpr hexpr))
          · -- There is a value at the index, or nothing that reads a name.
            cases hvalue : values[index]? with
            | none => exact fun _ hroot => nomatch hroot
            | some expr => exact hexprs.1 expr (List.mem_of_getElem? hvalue)
      | capture name body =>
          refine h.capture (alike_captured ?_) (hassign name)
          exact h.renderAll body (hchild body List.mem_cons_self)
      | assign name expr place =>
          exact h.assign (alike_value (hexprs expr List.mem_cons_self)) (hassign name)
      | increment name => exact alike_update fun hagree => hagree.count name 1
      | decrement name => exact alike_update fun hagree => hagree.count name (-1)
      | custom tag payload children place => exact nomatch hbuiltIn _ (Node.mem_all_self _)

end Alike

end Render

/-- The output of a tree without nodes of the host, or the fault in its place, depends on the data
under the names that the tree reads and on nothing else in them. -/
theorem Environment.output_eq_of_agree (env : Environment) (nodes : List Node)
    (hbuiltIn : Node.BuiltIn nodes) (first second : Table Value)
    (hagree : ∀ name ∈ Node.rootsOf nodes, first.get? name = second.get? name) :
    env.output nodes first = env.output nodes second := by
  have halike : Render.Alike (Node.rootsOf nodes) (renderAll env nodes) (renderAll env nodes) := by
    refine (Render.compositional_alike _).renderAll nodes fun node hnode => ?_
    have hinner : ∀ inner ∈ node.all, inner ∈ Node.allOf nodes := fun inner hinner =>
      Node.mem_allOf_of_mem hnode hinner
    refine Render.alike_node node (fun inner hmem => hbuiltIn inner (hinner inner hmem)) ?_
    exact fun inner hmem expr hexpr root hroot => List.mem_flatMap.mpr
      ⟨inner, hinner inner hmem, List.mem_flatMap.mpr ⟨expr, hexpr, hroot⟩⟩
  -- The two renders start without frames, counters and cycles, so their scopes agree.
  rcases halike (.ofData first) (.ofData second) ⟨hagree, .nil, rfl, rfl⟩ with
    ⟨hchunks, hremarks, hexit, _⟩
  unfold Environment.output
  simp only [hchunks, hremarks, hexit]

/-- The data differ under the name of a loop's dictionary and under that of a counter, and neither
is read. -/
theorem Environment.output_eq_of_agree_loop :
    let nodes : List Node :=
      [.increment "n", .loop "x" ⟨.path "items" [], none, none, false⟩
        [.output (.path "x" []) ⟨1, 1⟩] none ⟨1, 1⟩]
    let first : Table Value := [("items", .range 1 2), ("forloop", .string "a")]
    let second : Table Value :=
      [("forloop", .dictionary []), ("n", .nil), ("items", .range 1 2), ("y", .bool true)]
    Node.BuiltIn nodes ∧ (∀ name ∈ Node.rootsOf nodes, first.get? name = second.get? name) ∧
      Environment.standard.output nodes first = Environment.standard.output nodes second ∧
      (Environment.standard.output nodes second).result = .ok "12" := by
  intro nodes first second
  have hall : Node.allOf nodes = nodes ++ [.output (.path "x" []) ⟨1, 1⟩] := by
    simp [Node.allOf, Node.all_eq, Node.bodies, nodes]
  have hbuiltIn : Node.BuiltIn nodes := by
    unfold Node.BuiltIn
    rw [hall]
    simp [nodes, Node.isCustom]
  -- The loop writes its own dictionary and the counter its own variable, so neither is read from
  -- the data.
  have hroots : Node.rootsOf nodes = ["items", "x"] := by
    unfold Node.rootsOf
    rw [hall]
    rfl
  have hagree : ∀ name ∈ Node.rootsOf nodes, first.get? name = second.get? name := by
    rw [hroots, List.forall_mem_cons, List.forall_mem_singleton]
    exact ⟨rfl, rfl⟩
  exact ⟨hbuiltIn, hagree,
    Environment.output_eq_of_agree Environment.standard nodes hbuiltIn first second hagree, rfl⟩

end Liquid
