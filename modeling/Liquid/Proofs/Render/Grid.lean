import Mathlib.Data.List.Basic
import Mathlib.Data.List.Induction
import Liquid.Proofs.Render.Visit

/-!
# Tables as Grids

What a table writes, as rows of cells. A cell writes the start of a row if it is
the first one of it, and the end if the row is full, if there are no more items
or if its body leaves the loop. So where a row ends is decided in three ways,
and each cell decides for itself. A grid has no such decisions: its rows are as
many as are needed, each row has its start, its cells and its end.

The cells up to some item make full rows and one that may have been started. The
next cell goes into the started row, or starts it. This is what induction on the
cells shows, before it is looked at which of them is the last.

## Main definitions

* `Grid.width`: The number of columns.
* `Grid.row`: The cells of a row, with its start and end.
* `Grid.chunks`: The rows of a grid.

## Theorems

* `Grid.begun_snoc`: The next cell of a table.
* `Grid.written_eq`: The cells up to some item.
* `Render.tablerow_eq_grid`: A table is a grid.
-/

namespace Liquid

namespace Grid

/-- The number of columns for so many items: the one asked for without its fraction, if that is
positive, and otherwise one for each item. -/
def width (length : Nat) (asked : Option Value) : Nat :=
  match asked.bind Value.integer? with
  | some number => if 0 < number then number.toNat else length
  | none => length

/-- The start of a row. -/
def opening (row : Nat) : String :=
  "<tr class=\"row" ++ toString (row + 1) ++ "\">"

/-- A cell: the output of its body between its start and its end. -/
def cell (columns : Nat) (visit : Visit) : List String :=
  ("<td class=\"col" ++ toString (visit.index % columns + 1) ++ "\">") ::
    (visit.outcome.chunks ++ ["</td>"])

/-- The cells of a row. -/
def cells (columns : Nat) (visits : List Visit) (row : Nat) : List String :=
  (visits.filter (·.index / columns == row)).flatMap (cell columns)

/-- A row. -/
def row (columns : Nat) (visits : List Visit) (row : Nat) : List String :=
  opening row :: (cells columns visits row ++ ["</tr>"])

/-- So many rows. -/
def rows (columns : Nat) (visits : List Visit) (count : Nat) : List String :=
  (List.range count).flatMap (row columns visits)

/-- As many rows as are needed for all cells. -/
def chunks (columns : Nat) (visits : List Visit) : List String :=
  rows columns visits ((visits.length + columns - 1) / columns)

/-- The row that has been started and is not full, if there is one. -/
def begun (columns : Nat) (visits : List Visit) : List String :=
  if visits.length % columns = 0 then []
  else
    let row := visits.length / columns
    opening row :: cells columns visits row

/-- What a cell writes up to its end. -/
def upToEnd (columns : Nat) (visit : Visit) : List String :=
  (if visit.index % columns = 0 then [opening (visit.index / columns)] else []) ++
    cell columns visit

/-- What a cell writes that is not the last one. -/
def written (columns : Nat) (visit : Visit) : List String :=
  upToEnd columns visit ++ if visit.index % columns + 1 = columns then ["</tr>"] else []

section Snoc

variable {columns : Nat} {visits : List Visit} {visit : Visit}

/-- A cell goes to the row with the number that it asks for. -/
theorem cells_snoc (row : Nat) :
    cells columns (visits ++ [visit]) row =
      cells columns visits row ++
        if visit.index / columns = row then cell columns visit else [] := by
  by_cases hrow : visit.index / columns = row <;> simp [cells, hrow]

/-- The rows in front of that of the next cell stay as they are. -/
theorem rows_snoc (hvisit : visit.index = visits.length) :
    rows columns (visits ++ [visit]) (visits.length / columns) =
      rows columns visits (visits.length / columns) := by
  rw [← hvisit]
  refine List.flatMap_congr fun number hnumber => ?_
  have hne : visit.index / columns ≠ number := Nat.ne_of_gt (List.mem_range.mp hnumber)
  simp [row, cells_snoc, hne]

/-- A row that no cell has started has none. -/
theorem cells_eq_nil (hindex : visits.map Visit.index = List.range visits.length)
    (hfull : visits.length % columns = 0) (hcolumns : 0 < columns) :
    cells columns visits (visits.length / columns) = [] := by
  have hnone : visits.filter (·.index / columns == visits.length / columns) = [] := by
    refine List.filter_eq_nil_iff.mpr fun visit hvisit => ?_
    have hlt : visit.index < visits.length :=
      List.mem_range.mp (hindex ▸ List.mem_map_of_mem hvisit)
    have hlength : visits.length = visits.length / columns * columns :=
      (Nat.div_mul_cancel (Nat.dvd_of_mod_eq_zero hfull)).symm
    -- Each visit is in a row that is full.
    have hless : visit.index / columns < visits.length / columns := by
      rw [Nat.div_lt_iff_lt_mul hcolumns]
      exact hlength ▸ hlt
    simpa using Nat.ne_of_lt hless
  simp [cells, hnone]

/-- The next cell goes into the row that has been started, or starts one. -/
theorem begun_snoc (hindex : visits.map Visit.index = List.range visits.length)
    (hvisit : visit.index = visits.length) (hcolumns : 0 < columns) :
    begun columns visits ++ upToEnd columns visit =
      opening (visits.length / columns) ::
        cells columns (visits ++ [visit]) (visits.length / columns) := by
  unfold begun upToEnd
  rw [cells_snoc, hvisit, if_pos rfl]
  by_cases hfull : visits.length % columns = 0
  · simp [hfull, cells_eq_nil hindex hfull hcolumns]
  · simp [hfull]

/-- With its end the row of the next cell is one more row. -/
theorem rows_succ (hindex : visits.map Visit.index = List.range visits.length)
    (hvisit : visit.index = visits.length) (hcolumns : 0 < columns) :
    rows columns visits (visits.length / columns) ++ begun columns visits ++
        (upToEnd columns visit ++ ["</tr>"]) =
      rows columns (visits ++ [visit]) (visits.length / columns + 1) := by
  -- The last row is begun, ended, and then one of the rows.
  calc rows columns visits (visits.length / columns) ++ begun columns visits ++
        (upToEnd columns visit ++ ["</tr>"])
    _ = rows columns visits (visits.length / columns) ++
        ((begun columns visits ++ upToEnd columns visit) ++ ["</tr>"]) := by
      simp only [List.append_assoc]
    _ = rows columns (visits ++ [visit]) (visits.length / columns) ++
        row columns (visits ++ [visit]) (visits.length / columns) := by
      rw [begun_snoc hindex hvisit hcolumns, rows_snoc hvisit]
      rfl
    _ = rows columns (visits ++ [visit]) (visits.length / columns + 1) := by
      simp [rows, List.range_succ]

end Snoc

/-- The indices in front of the last one. -/
theorem index_snoc {visits : List Visit} {visit : Visit}
    (h : (visits ++ [visit]).map Visit.index = List.range (visits ++ [visit]).length) :
    visits.map Visit.index = List.range visits.length ∧ visit.index = visits.length := by
  rw [List.length_append, List.length_singleton, List.range_succ, List.map_append] at h
  rcases List.append_inj' h rfl with ⟨hindex, hvisit⟩
  exact ⟨hindex, List.head_eq_of_cons_eq hvisit⟩

/-- Behind the last cell of a row, the next one stands at the start of a row. -/
theorem succ_of_full {count columns : Nat} (hcolumns : 0 < columns)
    (hfull : count % columns + 1 = columns) :
    (count + 1) % columns = 0 ∧ (count + 1) / columns = count / columns + 1 := by
  have hsplit := Nat.div_add_mod count columns
  have hcount : count + 1 = columns * (count / columns + 1) := by
    rw [Nat.mul_succ]
    omega
  rw [hcount]
  exact ⟨Nat.mul_mod_right _ _, Nat.mul_div_cancel_left _ hcolumns⟩

/-- A cell that does not fill its row leaves the number of rows. -/
theorem succ_of_not_full {count columns : Nat} (hcolumns : 0 < columns)
    (hfull : count % columns + 1 ≠ columns) :
    (count + 1) % columns ≠ 0 ∧ (count + 1) / columns = count / columns := by
  have hlt : count % columns + 1 < columns :=
    Nat.lt_of_le_of_ne (Nat.mod_lt count hcolumns) hfull
  have hcount : count + 1 = columns * (count / columns) + (count % columns + 1) := by
    rw [← Nat.add_assoc, Nat.div_add_mod]
  rw [hcount, Nat.mul_add_mod, Nat.mod_eq_of_lt hlt, Nat.mul_add_div hcolumns,
    Nat.div_eq_of_lt hlt]
  exact ⟨Nat.succ_ne_zero _, rfl⟩

/-- The cells up to some item make full rows, and one that has been started. -/
theorem written_eq {columns : Nat} (hcolumns : 0 < columns) (visits : List Visit)
    (hindex : visits.map Visit.index = List.range visits.length) :
    visits.flatMap (written columns) =
      rows columns visits (visits.length / columns) ++ begun columns visits := by
  induction visits using List.reverseRecOn with
  | nil => simp [rows, begun]
  | append_singleton visits visit ih =>
      -- By the last visit: those before it have written their rows.
      rcases index_snoc hindex with ⟨hbefore, hvisit⟩
      rw [List.flatMap_append, List.flatMap_singleton, ih hbefore, written]
      have hlength : (visits ++ [visit]).length = visits.length + 1 := List.length_append
      by_cases hfull : visits.length % columns + 1 = columns
      · -- The row is full, so none has been started behind the cell.
        rcases succ_of_full hcolumns hfull with ⟨hmod, hdiv⟩
        rw [hvisit, if_pos hfull, rows_succ hbefore hvisit hcolumns, begun, hlength, hmod, hdiv,
          if_pos rfl, List.append_nil]
      · rcases succ_of_not_full hcolumns hfull with ⟨hmod, hdiv⟩
        rw [hvisit, if_neg hfull, List.append_nil, List.append_assoc,
          begun_snoc hbefore hvisit hcolumns, begun, hlength, if_neg hmod, hdiv,
          rows_snoc hvisit]

section Cells

variable {columns length : Nat} {visit : Visit}

/-- What a cell writes, if it ends in so many chunks with and behind its end. -/
theorem cellChunks_of_cellEnd {closing : List String}
    (h : Render.cellEnd columns length visit = "</td>" :: closing) :
    Render.cellChunks columns length visit = upToEnd columns visit ++ closing := by
  -- Unfolded as one equation, since chunks are not to be compared character by character.
  have hunfold : Render.cellChunks columns length visit =
      (if visit.index % columns == 0 then [opening (visit.index / columns)] else []) ++
        ("<td class=\"col" ++ toString (visit.index % columns + 1) ++ "\">") ::
          (visit.outcome.chunks ++ Render.cellEnd columns length visit) := rfl
  rw [hunfold, h]
  simp only [upToEnd, cell, beq_iff_eq, List.cons_append, List.append_assoc, List.nil_append]

/-- A cell in front of the last one is closed with its row if that is full. -/
theorem cellChunks_of_goesOn (hgoes : visit.goesOn = true) (hlast : visit.index + 1 ≠ length) :
    Render.cellChunks columns length visit = written columns visit := by
  have hleft : visit.left = .done false := by
    unfold Visit.goesOn at hgoes
    unfold Visit.left
    cases hexit : visit.outcome.exit <;> simp_all
  have hend : Render.cellEnd columns length visit =
      "</td>" :: if visit.index % columns + 1 = columns then ["</tr>"] else [] := by
    simp [Render.cellEnd, hleft, Position.isLast, hlast]
  exact cellChunks_of_cellEnd hend

/-- The last cell is closed with its row, whether it is for want of items or because it leaves. -/
theorem cellChunks_of_last (hdone : ∀ fault, visit.outcome.exit ≠ .failed fault)
    (hlast : visit.goesOn = false ∨ visit.index + 1 = length) :
    Render.cellChunks columns length visit = upToEnd columns visit ++ ["</tr>"] := by
  -- Whether it was left or was the last item, the row is ended.
  have hleft : ∃ left, visit.left = .done left ∧
      (left || Position.isLast ⟨visit.index, length⟩) = true := by
    unfold Visit.goesOn at hlast
    unfold Visit.left Position.isLast
    cases hexit : visit.outcome.exit <;> simp_all
  rcases hleft with ⟨left, hleft, hends⟩
  have hclosed : (left || visit.index % columns + 1 == columns ||
      Position.isLast ⟨visit.index, length⟩) = true := by
    rw [Bool.or_right_comm, hends, Bool.true_or]
  refine cellChunks_of_cellEnd ?_
  simp only [Render.cellEnd, hleft, hclosed, if_true]

end Cells

/-- The cells of a table that does not fail are a grid. -/
theorem flatMap_cellChunks {columns : Nat} {items : List Value} {visits : List Visit}
    (hcolumns : 0 < columns) (hitems : items ≠ []) (hcovers : Visit.Covers items visits)
    (hdone : ∀ visit ∈ visits, ∀ fault, visit.outcome.exit ≠ .failed fault) :
    visits.flatMap (Render.cellChunks columns items.length) = chunks columns visits := by
  have hlength := hcovers.length_le
  rcases List.eq_nil_or_concat' visits with rfl | ⟨before, last, rfl⟩
  · rcases hcovers.stops (List.length_pos_iff.mpr hitems) with ⟨_, hlast, _⟩
    cases hlast
  · rcases index_snoc hcovers.index with ⟨hindex, hlast⟩
    rw [List.length_append, List.length_singleton] at hlength
    -- A visit before the last one goes on, so it ends its row only if that is full.
    have hbefore : before.flatMap (Render.cellChunks columns items.length) =
        before.flatMap (written columns) := by
      refine List.flatMap_congr fun visit hvisit => ?_
      have hlt : visit.index < before.length :=
        List.mem_range.mp (hindex ▸ List.mem_map_of_mem hvisit)
      refine cellChunks_of_goesOn (hcovers.goesOn visit ?_) (by omega)
      rwa [List.dropLast_concat]
    -- The visits end because the items do, or because a body was left.
    have hend : last.goesOn = false ∨ last.index + 1 = items.length := by
      by_cases hall : before.length + 1 = items.length
      · exact .inr (hlast ▸ hall)
      · have hless : (before ++ [last]).length < items.length := by
          rw [List.length_append, List.length_singleton]
          omega
        rcases hcovers.stops hless with ⟨visit, hvisit, hstops⟩
        rw [List.getLast?_concat] at hvisit
        cases hvisit
        exact .inl hstops
    have hrows : (before.length + 1 + columns - 1) / columns = before.length / columns + 1 := by
      rw [show before.length + 1 + columns - 1 = before.length + columns by omega,
        Nat.add_div_right _ hcolumns]
    rw [List.flatMap_append, List.flatMap_singleton, hbefore, written_eq hcolumns before hindex,
      cellChunks_of_last (hdone last (by simp)) hend, rows_succ hindex hlast hcolumns, chunks,
      List.length_append, List.length_singleton, hrows]

end Grid

namespace Render

/-- The columns are the width that was asked for, or all in one row. -/
theorem columns_eq_width (length : Nat) (asked : Option Value) :
    columns length asked = Grid.width length asked := by
  unfold columns Grid.width
  cases asked.bind Value.integer? with
  | none => simp
  | some number =>
      by_cases hpos : 0 < number
      · have hne : number.toNat ≠ 0 := by omega
        simp [hpos, hne]
      · have hzero : number.toNat = 0 := by omega
        simp [hpos, hzero]

/-- There are columns wherever there are items. -/
theorem width_pos {length : Nat} (h : 0 < length) (asked : Option Value) :
    0 < Grid.width length asked := by
  unfold Grid.width
  split
  · split
    · omega
    · exact h
  · exact h

/-- What the node of a table with items in it does. -/
theorem render_tablerow {env : Environment} {name : String} {selection : Selection}
    {columns : Option Expr} (body : List Node) {place : Place} {scope : Scope} {items : List Value}
    {asked : Option Value} (hitems : (selection.items env scope place).result = .ok items)
    (hne : items ≠ [])
    (hasked : (Selection.evalOption env scope place columns).result = .ok asked) :
    ∃ remarks, (Node.tablerow name selection columns body place).render env scope =
      { table name (Grid.width items.length asked) items (renderAll env body) scope with
        remarks := remarks } := by
  have hfull : items.isEmpty = false := List.isEmpty_eq_false_iff.mpr hne
  rw [Node.render, evaluated_bind_of_ok hitems, hfull, if_neg Bool.false_ne_true,
    evaluated_bind_of_ok hasked, columns_eq_width]
  exact ⟨_, rfl⟩

/-- A table writes a grid: its rows, as many as the visited items need, with their cells, each of
them with what its body has written, whichever way that has ended. Of no items nothing is written.
All items are visited, unless a body leaves the table; then it is the last one that was. -/
theorem tablerow_eq_grid (env : Environment) (name : String) (selection : Selection)
    (columns : Option Expr) (body : List Node) (place : Place) (scope : Scope) {items : List Value}
    {asked : Option Value} (hitems : (selection.items env scope place).result = .ok items)
    (hasked : items ≠ [] → (Selection.evalOption env scope place columns).result = .ok asked)
    (hbody : ∀ visit ∈ tableVisits name (Grid.width items.length asked) items
      (renderAll env body) scope, ∀ fault, visit.outcome.exit ≠ .failed fault) :
    let outcome := (Node.tablerow name selection columns body place).render env scope
    let width := Grid.width items.length asked
    let visits := tableVisits name width items (renderAll env body) scope
    outcome.exit = .done () ∧ (items = [] → outcome.chunks = []) ∧
      (items ≠ [] → outcome.chunks = Grid.chunks width visits) ∧ Visit.Covers items visits ∧
      (visits.length = items.length ∨
        ∃ last, visits.getLast? = some last ∧ last.outcome.exit = .broken) := by
  intro outcome width visits
  have hcovers : Visit.Covers items visits := visits_covers items (scope.push [])
  -- Since no body fails, the table ends early only by a break.
  have hvisited : visits.length = items.length ∨
      ∃ last, visits.getLast? = some last ∧ last.outcome.exit = .broken := by
    by_cases hall : visits.length = items.length
    · exact .inl hall
    · rcases hcovers.stops (Nat.lt_of_le_of_ne hcovers.length_le hall) with ⟨last, hlast, hstops⟩
      have hdone := hbody last (List.mem_of_getLast? hlast)
      exact .inr ⟨last, hlast, Visit.broken_of_stops hstops hdone⟩
  -- Without items, nothing is written, not even a row.
  by_cases hne : items = []
  · have hrender : outcome = ⟨[], ((selection.items env scope place).remarks ++ []), scope,
        .done ()⟩ := by
      change (Node.tablerow name selection columns body place).render env scope = _
      rw [Node.render, evaluated_bind_of_ok hitems, hne]
      rfl
    exact ⟨by rw [hrender], fun _ => by rw [hrender], fun h => absurd hne h, hcovers, hvisited⟩
  · rcases render_tablerow body hitems hne (hasked hne) with ⟨remarks, hrender⟩
    rw [table_eq_visits] at hrender
    have hwidth : 0 < width := width_pos (List.length_pos_iff.mpr hne) asked
    have hgrid : outcome.chunks = Grid.chunks width visits := by
      rw [← Grid.flatMap_cellChunks hwidth hne hcovers hbody]
      exact congrArg Outcome.chunks hrender
    have hexit : outcome.exit = .done () :=
      (congrArg Outcome.exit hrender).trans (Visit.ending_of_done hbody)
    exact ⟨hexit, fun h => absurd h hne, fun _ => hgrid, hcovers, hvisited⟩

/-- A table that is left in its second row, with a number of columns that has a fraction. -/
theorem tablerow_eq_grid_left :
    let collection : Expr := .literal (.array [.bool false, .bool false, .bool true, .bool false])
    let count : Expr := .literal (.decimal (.finite false 29 (-1)))
    let stop : Node := .conditional [⟨.path "x" [], false, [.breakLoop]⟩] none ⟨1, 1⟩
    let table : Node := .tablerow "x" ⟨collection, none, none, false⟩ (some count)
      [.output (.path "x" []) ⟨1, 1⟩, stop] ⟨1, 1⟩
    let outcome := table.render Environment.standard (Scope.ofData [])
    outcome.exit = .done () ∧ String.join outcome.chunks =
      "<tr class=\"row1\"><td class=\"col1\">false</td><td class=\"col2\">false</td></tr>" ++
        "<tr class=\"row2\"><td class=\"col1\">true</td></tr>" := by
  intro collection count stop table outcome
  let items : List Value := [.bool false, .bool false, .bool true, .bool false]
  let asked : Value := .decimal (.finite false 29 (-1))
  let body : List Node := [.output (.path "x" []) ⟨1, 1⟩, stop]
  let visits := tableVisits "x" (Grid.width items.length (some asked)) items
    (renderAll Environment.standard body) (Scope.ofData [])
  have hbody : ∀ visit ∈ visits, ∀ fault, visit.outcome.exit ≠ .failed fault := by
    -- A cell whose body fails is the only one that is not closed.
    have hall : visits.all (fun visit => !(cellEnd 2 items.length visit).isEmpty) = true := by
      decide +kernel
    intro visit hvisit fault hfault
    have hend := List.all_eq_true.mp hall visit hvisit
    simp [cellEnd, Visit.left, hfault] at hend
  rcases @tablerow_eq_grid Environment.standard "x" ⟨collection, none, none, false⟩ (some count)
    body ⟨1, 1⟩ (Scope.ofData []) items (some asked) rfl (fun _ => rfl) hbody with
    ⟨hexit, _, hchunks, _⟩
  have houtcome : outcome = (Node.tablerow "x" ⟨collection, none, none, false⟩ (some count) body
      ⟨1, 1⟩).render Environment.standard (Scope.ofData []) := rfl
  rw [houtcome, hexit, hchunks (List.cons_ne_nil _ _)]
  exact ⟨rfl, by decide +kernel⟩

end Render

end Liquid
