import Liquid.Node.Render

/-!
# The Visits of a Loop

A loop goes to one item after the other, and what it does for an item is decided
by its body: it starts in a scope with the variables of the loop in it, does
what it does, and the next item is looked at from the scope that it leaves. A
visit keeps all of this together. So a loop is the list of its visits, and how
it ends and what it writes can be read off that list.

Both kinds of loop are of this form. They differ in the variables that they set
and in what they write around the body.

Not all items are visited. The list of visits is cut short by the first one that
leaves the loop or fails, which is its last member then.

## Main definitions

* `Visit`: What a body does for one item.
* `Render.visits`: The visits of a loop.
* `Render.loopVisits`, `Render.tableVisits`: Those of the two kinds of loop.
* `Visit.Covers`: Visits that are those of some items, up to where they stop.

## Theorems

* `Render.each_eq_visits`: A loop is its visits.
* `Render.visits_covers`: The items that are visited.
* `Render.loop_eq_visits`, `Render.table_eq_visits`: The two kinds of loop.
-/

namespace Liquid

/-- What a body does for one item of a loop: the item and its number, the scope in which the body
starts, and what comes of it. -/
structure Visit where
  index : Nat
  item : Value
  scope : Scope
  outcome : Outcome Unit

namespace Visit

/-- Whether the loop looks at the next item afterwards. -/
def goesOn (visit : Visit) : Bool :=
  match visit.outcome.exit with
  | .done () => true
  | .continued => true
  | _ => false

/-- Whether the loop is left, unless the body fails. -/
def left (visit : Visit) : Exit Bool :=
  match visit.outcome.exit with
  | .done () => .done false
  | .continued => .done false
  | .broken => .done true
  | .failed fault => .failed fault

/-- How a loop with the visits ends: as the last of them fails, or else by itself. -/
def ending (visits : List Visit) : Exit Unit :=
  match visits.getLast? with
  | none => .done ()
  | some last =>
    match last.outcome.exit with
    | .failed fault => .failed fault
    | _ => .done ()

/-- The scope behind visits that start from a scope. -/
def behind (start : Scope) (visits : List Visit) : Scope :=
  (visits.getLast?.map (·.outcome.scope)).getD start

/-- Whether visits are those of the items from the first one on: one after the other, each behind
one that lets the loop go on, and none left out unless the last of them stops the loop. -/
structure Covers (items : List Value) (visits : List Visit) : Prop where
  visited : visits.map Visit.item = items.take visits.length
  index : visits.map Visit.index = List.range visits.length
  goesOn : ∀ visit ∈ visits.dropLast, visit.goesOn = true
  stops : visits.length < items.length →
    ∃ last, visits.getLast? = some last ∧ last.goesOn = false

/-- There are no more visits than items. -/
theorem Covers.length_le {items : List Value} {visits : List Visit} (h : Covers items visits) :
    visits.length ≤ items.length := by
  have hlength := congrArg List.length h.visited
  rw [List.length_map, List.length_take] at hlength
  omega

/-- A visit is to the item with its number. -/
theorem Covers.getElem? {items : List Value} {visits : List Visit} (h : Covers items visits)
    {i : Nat} {visit : Visit} (hvisit : visits[i]? = some visit) :
    visit.index = i ∧ items[i]? = some visit.item := by
  have hlt : i < visits.length := (List.getElem?_eq_some_iff.mp hvisit).1
  have hindex := congrArg (·[i]?) h.index
  have hitem := congrArg (·[i]?) h.visited
  simp only [List.getElem?_map, hvisit, Option.map_some, List.getElem?_range hlt,
    List.getElem?_take_of_lt hlt] at hindex hitem
  exact ⟨Option.some.inj hindex, hitem.symm⟩

/-- Each visit has an item. -/
theorem Covers.index_lt {items : List Value} {visits : List Visit} (h : Covers items visits)
    {visit : Visit} (hvisit : visit ∈ visits) : visit.index < items.length := by
  rcases List.mem_iff_getElem?.mp hvisit with ⟨i, hi⟩
  rcases h.getElem? hi with ⟨rfl, hitem⟩
  exact (List.getElem?_eq_some_iff.mp hitem).1

/-- Behind a visit that lets the loop go on comes the next one, if there are more items. -/
theorem Covers.next {items : List Value} {visits : List Visit} (h : Covers items visits) {i : Nat}
    {visit : Visit} (hvisit : visits[i]? = some visit) (hgoes : visit.goesOn = true)
    (hmore : i + 1 < items.length) :
    ∃ next, visits[i + 1]? = some next ∧ next.index = visit.index + 1 := by
  have hlt : i < visits.length := (List.getElem?_eq_some_iff.mp hvisit).1
  -- The visits do not end with one that goes on, unless the items end.
  have hnext : i + 1 < visits.length := by
    refine Nat.lt_of_not_le fun hle => ?_
    have hlength : visits.length = i + 1 := Nat.le_antisymm hle hlt
    rcases h.stops (hlength ▸ hmore) with ⟨last, hlast, hstops⟩
    rw [List.getLast?_eq_getElem?, hlength, Nat.add_sub_cancel, hvisit] at hlast
    cases hlast
    rw [hgoes] at hstops
    cases hstops
  have hsome : visits[i + 1]? = some visits[i + 1] := List.getElem?_eq_getElem hnext
  exact ⟨_, hsome, by rw [(h.getElem? hsome).1, (h.getElem? hvisit).1]⟩

/-- A body that stops the loop and does not fail leaves it. -/
theorem broken_of_stops {visit : Visit} (hstops : visit.goesOn = false)
    (hdone : ∀ fault, visit.outcome.exit ≠ .failed fault) : visit.outcome.exit = .broken := by
  unfold goesOn at hstops
  cases hexit : visit.outcome.exit with
  | broken => rfl
  | failed fault => exact absurd hexit (hdone fault)
  | _ => simp [hexit] at hstops

/-- If no visit fails, the loop is done. -/
theorem ending_of_done {visits : List Visit}
    (h : ∀ visit ∈ visits, ∀ fault, visit.outcome.exit ≠ .failed fault) :
    ending visits = .done () := by
  unfold ending
  cases hlast : visits.getLast? with
  | none => rfl
  | some last =>
      cases hexit : last.outcome.exit with
      | failed fault => exact absurd hexit (h last (List.mem_of_getLast? hlast) fault)
      | _ => simp only [hexit]

end Visit

namespace Render

/-- The visit to an item, given how the variables of the loop are set. -/
def visitTo (enter : Nat → Value → Scope → Scope) (body : Render Unit) (index : Nat)
    (item : Value) (scope : Scope) : Visit :=
  ⟨index, item, enter index item scope, body (enter index item scope)⟩

/-- The visits of a loop over items, counted from an index. -/
def visits (enter : Nat → Value → Scope → Scope) (body : Render Unit) :
    Nat → List Value → Scope → List Visit
  | _, [], _ => []
  | index, item :: items, scope =>
    let visit := visitTo enter body index item scope
    visit ::
      if visit.goesOn then visits enter body (index + 1) items visit.outcome.scope else []

/-- The variables of a loop over so many items: its own one and its dictionary. -/
def enterLoop (name : String) (length : Nat) (outer : Value) (index : Nat) (item : Value)
    (scope : Scope) : Scope :=
  (scope.setLocal name item).setLocal "forloop" (Position.forloop ⟨index, length⟩ outer)

/-- The variables of a table with so many items. -/
def enterCell (name : String) (columns length : Nat) (index : Nat) (item : Value)
    (scope : Scope) : Scope :=
  (scope.setLocal name item).setLocal "tablerowloop" (Position.tablerowloop ⟨index, length⟩ columns)

/-- The visits of a loop that starts in a scope. -/
def loopVisits (name : String) (items : List Value) (body : Render Unit) (scope : Scope) :
    List Visit :=
  visits (enterLoop name items.length (scope.lookup "forloop")) body 0 items (scope.push [])

/-- The visits of a table that starts in a scope. -/
def tableVisits (name : String) (columns : Nat) (items : List Value) (body : Render Unit)
    (scope : Scope) : List Visit :=
  visits (enterCell name columns items.length) body 0 items (scope.push [])

/-- What is written behind the body of a cell: its end, and that of the row where one ends. A cell
whose body fails is not closed. -/
def cellEnd (columns length : Nat) (visit : Visit) : List String :=
  match visit.left with
  | .done left =>
    "</td>" ::
      if left || visit.index % columns + 1 == columns || Position.isLast ⟨visit.index, length⟩ then
        ["</tr>"]
      else []
  | _ => []

/-- What is written of a cell: the output of its body with what stands around it. -/
def cellChunks (columns length : Nat) (visit : Visit) : List String :=
  (if visit.index % columns == 0 then
    ["<tr class=\"row" ++ toString (visit.index / columns + 1) ++ "\">"] else []) ++
  ("<td class=\"col" ++ toString (visit.index % columns + 1) ++ "\">") ::
    (visit.outcome.chunks ++ cellEnd columns length visit)

section Visits

variable {enter : Nat → Value → Scope → Scope} {body : Render Unit}

/-- The first item is visited, and the others if that visit goes on. -/
theorem visits_cons (index : Nat) (item : Value) (items : List Value) (scope : Scope) :
    visits enter body index (item :: items) scope =
      visitTo enter body index item scope ::
        if (visitTo enter body index item scope).goesOn then
          visits enter body (index + 1) items (visitTo enter body index item scope).outcome.scope
        else [] :=
  rfl

/-- Where the visits of the later items end is where those of all items do. -/
theorem ending_cons {visit : Visit} (h : visit.goesOn = true) (visits : List Visit) :
    Visit.ending (visit :: visits) = Visit.ending visits := by
  cases visits with
  | nil =>
      unfold Visit.goesOn at h
      unfold Visit.ending
      cases hexit : visit.outcome.exit <;> simp_all
  | cons next rest => rfl

theorem behind_cons (start : Scope) (visit : Visit) (visits : List Visit) :
    Visit.behind start (visit :: visits) = Visit.behind visit.outcome.scope visits := by
  cases visits with
  | nil => rfl
  | cons next rest =>
      unfold Visit.behind
      rw [List.getLast?_cons_cons]
      cases hlast : (next :: rest).getLast? with
      | none => simp at hlast
      | some last => rfl

/-- A loop does what its visits do, one after the other, if what it does for an item is a visit to
it with something written around. -/
theorem each_eq_visits {visit : Nat → Value → Render Bool} (shown : Visit → List String)
    (hvisit : ∀ index item scope, visit index item scope =
      let done := visitTo enter body index item scope
      ⟨shown done, done.outcome.remarks, done.outcome.scope, done.left⟩)
    (index : Nat) (items : List Value) (scope : Scope) :
    each visit index items scope =
      let all := visits enter body index items scope
      ⟨all.flatMap shown, all.flatMap (·.outcome.remarks), Visit.behind scope all,
        Visit.ending all⟩ := by
  induction items generalizing index scope with
  | nil => rfl
  | cons item items ih =>
      change Render.bind (visit index item) _ scope = _
      have hrest := ih (index + 1) (visitTo enter body index item scope).outcome.scope
      simp only [Render.bind, hvisit, visits_cons, List.flatMap_cons, behind_cons]
      generalize visitTo enter body index item scope = first at hrest ⊢
      -- Behind a body that is done or continues come the visits of the rest, else there are none.
      cases hexit : first.outcome.exit with
      | done u =>
          have hgoes : first.goesOn = true := by simp only [Visit.goesOn, hexit]
          simp only [Visit.left, hexit, hgoes, if_true, Bool.false_eq_true, if_false, ending_cons,
            hrest]
      | continued =>
          have hgoes : first.goesOn = true := by simp only [Visit.goesOn, hexit]
          simp only [Visit.left, hexit, hgoes, if_true, Bool.false_eq_true, if_false, ending_cons,
            hrest]
      | broken =>
          have hstops : first.goesOn = false := by simp only [Visit.goesOn, hexit]
          simp [Visit.left, hexit, hstops, Visit.ending, Visit.behind, done]
      | failed fault =>
          have hstops : first.goesOn = false := by simp only [Visit.goesOn, hexit]
          simp [Visit.left, hexit, hstops, Visit.ending, Visit.behind]

/-- The visits from an index on: to the items from the first one, each behind one that lets the
loop go on. -/
theorem visits_from (index : Nat) (items : List Value) (scope : Scope) :
    let all := visits enter body index items scope
    all.map Visit.item = items.take all.length ∧
      all.map Visit.index = List.range' index all.length ∧
      (∀ visit ∈ all.dropLast, visit.goesOn = true) ∧
      (all.length < items.length → ∃ last, all.getLast? = some last ∧ last.goesOn = false) := by
  induction items generalizing index scope with
  | nil => exact ⟨rfl, rfl, fun _ h => (nomatch h), fun h => (nomatch h)⟩
  | cons item items ih =>
      rcases ih (index + 1) (visitTo enter body index item scope).outcome.scope with
        ⟨hitems, hindex, hgoes, hstops⟩
      rw [visits_cons]
      -- Either the first visit is the last one, or the others are those of the remaining items.
      cases hfirst : (visitTo enter body index item scope).goesOn with
      | false =>
          exact ⟨rfl, rfl, fun _ h => (nomatch h), fun _ => ⟨_, rfl, hfirst⟩⟩
      | true =>
          simp only [if_true, List.map_cons, List.length_cons, List.take_succ_cons,
            List.range'_succ, hitems, hindex]
          refine ⟨rfl, rfl, ?_, ?_⟩
          · -- The first visit is in front of another one only if there are more.
            intro visit hvisit
            cases hrest : visits enter body (index + 1) items
                (visitTo enter body index item scope).outcome.scope with
            | nil =>
                rw [hrest] at hvisit
                cases hvisit
            | cons next rest =>
                rw [hrest, List.dropLast_cons_cons] at hvisit
                rcases List.mem_cons.mp hvisit with rfl | hvisit
                · exact hfirst
                · exact hgoes visit (hrest ▸ hvisit)
          · intro hlength
            rcases hstops (Nat.lt_of_succ_lt_succ hlength) with ⟨last, hlast, hleft⟩
            exact ⟨last, by rw [List.getLast?_cons, hlast]; rfl, hleft⟩

/-- The items that are visited are those from the first one on, up to one that stops the loop. -/
theorem visits_covers (items : List Value) (scope : Scope) :
    Visit.Covers items (visits enter body 0 items scope) := by
  rcases visits_from 0 items scope with ⟨hitems, hindex, hgoes, hstops⟩
  exact ⟨hitems, hindex.trans List.range_eq_range'.symm, hgoes, hstops⟩

/-- In a visit the body starts with the variables of the loop set, and does what it does there. -/
theorem mem_visits {index : Nat} {items : List Value} {scope : Scope} {visit : Visit}
    (h : visit ∈ visits enter body index items scope) :
    ∃ before, visit = visitTo enter body visit.index visit.item before := by
  -- Only the first visit is known to start in the scope of the loop.
  induction items generalizing index scope with
  | nil => cases h
  | cons item items ih =>
      rw [visits_cons] at h
      rcases List.mem_cons.mp h with rfl | h
      · exact ⟨scope, rfl⟩
      · split at h
        · exact ih h
        · cases h

/-- What holds of the scope in front of a loop and is kept by setting the variables and by the body
holds wherever the body starts. -/
theorem scope_of_mem_visits (kept : Scope → Prop)
    (henter : ∀ index item scope, kept scope → kept (enter index item scope))
    (hbody : ∀ scope, kept scope → kept (body scope).scope) {index : Nat} {items : List Value}
    {scope : Scope} (hstart : kept scope) {visit : Visit}
    (h : visit ∈ visits enter body index items scope) : kept visit.scope := by
  -- The scope is handed on from visit to visit, so what is kept is kept for the next one.
  induction items generalizing index scope with
  | nil => cases h
  | cons item items ih =>
      rw [visits_cons] at h
      rcases List.mem_cons.mp h with rfl | h
      · exact henter index item scope hstart
      · split at h
        · exact ih (hbody _ (henter index item scope hstart)) h
        · cases h

end Visits

section Evaluated

variable {α β : Type} {eval : Scope → Noted EvalFault α} {f : α → Render β} {scope : Scope}

/-- What comes behind an evaluation is done with its value, in the same scope. -/
theorem evaluated_bind_of_ok {a : α} (h : (eval scope).result = .ok a) :
    (evaluated eval >>= f) scope =
      { f a scope with remarks := (eval scope).remarks ++ (f a scope).remarks } := by
  change bind (evaluated eval) f scope = _
  simp only [bind, evaluated, h, List.nil_append]

theorem evaluated_bind_of_error {fault : EvalFault} (h : (eval scope).result = .error fault) :
    (evaluated eval >>= f) scope = ⟨[], (eval scope).remarks, scope, .failed fault⟩ := by
  change bind (evaluated eval) f scope = _
  simp only [bind, evaluated, h]

end Evaluated

section Loops

variable {α : Type} {name : String} {items : List Value} {body : Render Unit} {scope : Scope}

theorem update_bind (f : Scope → Scope) (x : Render α) (scope : Scope) :
    (update f >>= fun _ => x) scope = x (f scope) :=
  rfl

theorem emit_bind (chunk : String) (x : Render α) (scope : Scope) :
    (emit chunk >>= fun _ => x) scope =
      { x scope with chunks := chunk :: (x scope).chunks } :=
  rfl

/-- What a loop does once the variables are set is a visit. -/
theorem iteration_eq_visitTo (enter : Nat → Value → Scope → Scope) (index : Nat) (item : Value)
    (before : Scope) :
    iteration body (enter index item before) =
      let done := visitTo enter body index item before
      ⟨done.outcome.chunks, done.outcome.remarks, done.outcome.scope, done.left⟩ := by
  unfold iteration visitTo Visit.left
  cases hexit : (body (enter index item before)).exit <;> simp only [hexit]

/-- A loop is its visits, one after the other, in a frame of its own. -/
theorem loop_eq_visits :
    loop name items body scope =
      let all := loopVisits name items body scope
      ⟨all.flatMap (·.outcome.chunks), all.flatMap (·.outcome.remarks),
        (Visit.behind (scope.push []) all).drop, Visit.ending all⟩ := by
  let position (index : Nat) : Value :=
    Position.forloop ⟨index, items.length⟩ (scope.lookup "forloop")
  let visit (index : Nat) (item : Value) : Render Bool := do
    update (·.setLocal name item)
    update (·.setLocal "forloop" (position index))
    iteration body
  let enter := enterLoop name items.length (scope.lookup "forloop")
  -- Binding the item and rendering the body is one visit.
  have hvisit : ∀ index item before, visit index item before =
      let done := visitTo enter body index item before
      ⟨done.outcome.chunks, done.outcome.remarks, done.outcome.scope, done.left⟩ :=
    iteration_eq_visitTo enter
  change (framed [] (each visit 0 items) scope : Outcome Unit) = _
  unfold framed
  rw [each_eq_visits (·.outcome.chunks) hvisit]
  rfl

/-- A chunk that is written in front or not. -/
theorem emit_if_bind (condition : Bool) (chunk : String) (x : Render α) (scope : Scope) :
    (if condition then emit chunk >>= fun _ => x else x) scope =
      { x scope with chunks := (if condition then [chunk] else []) ++ (x scope).chunks } := by
  cases condition <;> rfl

/-- A body with the end of its cell. -/
theorem iteration_bind_cellEnd (columns length index : Nat) (item : Value) (before : Scope) :
    (iteration body >>= fun left => do
      emit "</td>"
      if left || index % columns + 1 == columns || Position.isLast ⟨index, length⟩ then emit "</tr>"
      done left) (enterCell name columns length index item before) =
      let visit := visitTo (enterCell name columns length) body index item before
      ⟨visit.outcome.chunks ++ cellEnd columns length visit, visit.outcome.remarks,
        visit.outcome.scope, visit.left⟩ := by
  have hbody := @iteration_eq_visitTo body (enterCell name columns length) index item before
  change Render.bind _ _ _ = _
  unfold Render.bind cellEnd
  rw [hbody]
  have hindex : (visitTo (enterCell name columns length) body index item before).index = index :=
    rfl
  generalize visitTo (enterCell name columns length) body index item before = visit at hindex ⊢
  subst hindex
  -- A body that fails leaves the cell open. Otherwise it is closed, and maybe its row.
  cases hleft : visit.left with
  | done left =>
      simp only [hleft, emit_bind]
      cases left || visit.index % columns + 1 == columns ||
        Position.isLast ⟨visit.index, length⟩ with
      | true => simp [emit_bind, done]
      | false => simp [done]
  | broken => simp only [hleft, List.append_nil]
  | continued => simp only [hleft, List.append_nil]
  | failed fault => simp only [hleft, List.append_nil]

/-- A cell is a visit with its part of the table around it. -/
theorem cell_eq_visitTo (columns length index : Nat) (item : Value) (before : Scope) :
    cell name columns ⟨index, length⟩ item body before =
      let done := visitTo (enterCell name columns length) body index item before
      ⟨cellChunks columns length done, done.outcome.remarks, done.outcome.scope, done.left⟩ := by
  unfold cell
  dsimp only
  rw [emit_if_bind, emit_bind, update_bind, update_bind]
  have hrest := @iteration_bind_cellEnd name body columns length index item before
  rw [enterCell] at hrest
  rw [hrest]
  rfl

/-- A table is its visits, each with its cell around it. -/
theorem table_eq_visits (columns : Nat) :
    table name columns items body scope =
      let all := tableVisits name columns items body scope
      ⟨all.flatMap (cellChunks columns items.length), all.flatMap (·.outcome.remarks),
        (Visit.behind (scope.push []) all).drop, Visit.ending all⟩ := by
  unfold table framed
  dsimp only
  rw [each_eq_visits (cellChunks columns items.length) (cell_eq_visitTo columns items.length)]
  rfl

end Loops

end Render

end Liquid
