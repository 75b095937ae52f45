import Liquid.Proofs.Expr.Parse
import Liquid.Proofs.Render.Visit
import Liquid.Proofs.Scope.Lookup
import Liquid.Proofs.Tag.Header

/-!
# What a Loop Selects

Which items a loop visits, from the values of its collection and its modifiers.
An offset and a limit count items if they are finite numbers, be it written as
text, and then without their fraction and from zero up. Anything else selects
nothing by itself: nil, other values and the infinite numbers are no offset and
no limit.

A loop then visits the items that are left, one after the other, and those are
all that it writes; or there are none, and it does what its other body does.

One number as a limit of one loop and as the offset of another splits a
collection in two. It has to be finite for this, since an infinite one keeps all
items in the one loop and drops none in the other.

## Main definitions

* `Selection.between`, `Selection.chosen`: The items that are left.
* `Render.Selects`: What a loop does with the items chosen.

## Theorems

* `Selection.items_eq_chosen`: Which items a selection is.
* `Selection.between_append_between`: A limit and an offset split a collection.
* `Render.loop_selects`: What a loop does, whatever its header looks like.
-/

namespace Liquid

namespace Selection

/-- The items behind an offset, as many as a limit says, where what is no finite number says
nothing. -/
def between (offset limit : Option Value) (items : List Value) : List Value :=
  let behind :=
    match offset.bind Value.integer? with
    | some number => items.drop (max number 0).toNat
    | none => items
  match limit.bind Value.integer? with
  | some number => behind.take (max number 0).toNat
  | none => behind

/-- The items that a selection leaves of a collection, in the order in which they are visited. -/
def chosen (selection : Selection) (offset limit : Option Value) (items : List Value) :
    List Value :=
  if selection.reversed then (between offset limit items).reverse else between offset limit items

/-- To cut behind an offset and then to a limit is to take what is between. -/
theorem upTo_behind (offset limit : Option Value) (items : List Value) :
    upTo limit (behind offset items) = between offset limit items := by
  have htoNat (number : Int) : (max number 0).toNat = number.toNat := by omega
  unfold upTo behind between
  cases offset.bind Value.integer? <;> cases limit.bind Value.integer? <;> simp [htoNat]

section Evaluated

variable {env : Environment} {scope : Scope} {place : Place} {selection : Selection}
  {collection : Value} {offset limit : Option Value}

/-- Which items a selection is, given its values: those that are chosen of the items of the
collection, unless the collection is too long to have any. -/
theorem items_eq_chosen
    (hcollection : (selection.collection.eval env scope (some place)).result = .ok collection)
    (hoffset : (evalOption env scope place selection.offset).result = .ok offset)
    (hlimit : (evalOption env scope place selection.limit).result = .ok limit) :
    (selection.items env scope place).result =
      (collection.items.mapError EvalFault.crash).map (selection.chosen offset limit) := by
  -- A collection that cannot be walked through fails before offset and limit are asked for.
  cases hitems : collection.items with
  | error crash =>
      refine Noted.bind_result_eq_error_iff.mpr (.inr ⟨collection, hcollection, ?_⟩)
      refine Noted.bind_result_eq_error_iff.mpr (.inl ?_)
      rw [hitems]
      rfl
  | ok items =>
      refine Noted.bind_result_eq_ok_iff.mpr ⟨collection, hcollection, ?_⟩
      refine Noted.bind_result_eq_ok_iff.mpr ⟨items, by rw [hitems]; rfl, ?_⟩
      refine Noted.bind_result_eq_ok_iff.mpr ⟨offset, hoffset, ?_⟩
      refine Noted.bind_result_eq_ok_iff.mpr ⟨limit, hlimit, ?_⟩
      dsimp only
      rw [upTo_behind]
      rfl

end Evaluated

/-- A finite number has an integer part. -/
theorem integer?_of_isFinite {value : Value} {number : Decimal}
    (hnumber : value.number? = some number) (hfinite : number.isFinite = true) :
    ∃ n, value.integer? = some n := by
  -- Every finite number has an integer part.
  cases number with
  | finite negative coefficient exponent =>
      unfold Value.integer?
      rw [hnumber]
      refine Option.isSome_iff_exists.mp ?_
      simp only [Option.bind_some, Decimal.truncated?]
      split
      · rfl
      · split <;> rfl
  | infinite negative => cases hfinite
  | nan => cases hfinite

/-- The items up to a finite number and those from it on are all items. -/
theorem between_append_between {value : Value} {number : Decimal}
    (hnumber : value.number? = some number) (hfinite : number.isFinite = true)
    (items : List Value) :
    between none (some value) items ++ between (some value) none items = items := by
  rcases integer?_of_isFinite hnumber hfinite with ⟨n, hn⟩
  simp [between, hn, List.take_append_drop]

end Selection

namespace Visit

/-- A loop that no body stops visits all items. -/
theorem Covers.visited_all {items : List Value} {visits : List Visit} (h : Covers items visits)
    (hgoes : ∀ visit ∈ visits, visit.goesOn = true) : visits.map Visit.item = items := by
  have hlength : visits.length = items.length := by
    refine Nat.le_antisymm h.length_le (Nat.le_of_not_lt fun hlt => ?_)
    rcases h.stops hlt with ⟨last, hlast, hstops⟩
    rw [hgoes last (List.mem_of_getLast? hlast)] at hstops
    cases hstops
  rw [h.visited, hlength, List.take_length]

end Visit

namespace Render

open Tag (Modifier)
open Grammar (LoopHeader)

/-- What a loop with a variable and two bodies does in a scope with the items that are chosen: it
visits them from the first one on, with its variable set to each, and what it writes and how it
ends is told by these visits; or it does what its other body does, if there are no items. -/
structure Selects (env : Environment) (name : String) (body : List Node)
    (otherwise : Option (List Node)) (start : Scope) (chosen : List Value)
    (outcome : Outcome Unit) : Prop where
  chunks : outcome.chunks =
    if chosen = [] then (renderOption env otherwise start).chunks
    else (loopVisits name chosen (renderAll env body) start).flatMap (·.outcome.chunks)
  exit : outcome.exit =
    if chosen = [] then (renderOption env otherwise start).exit
    else Visit.ending (loopVisits name chosen (renderAll env body) start)
  scope : outcome.scope =
    if chosen = [] then (renderOption env otherwise start).scope
    else (Visit.behind (start.push []) (loopVisits name chosen (renderAll env body) start)).drop
  covers : Visit.Covers chosen (loopVisits name chosen (renderAll env body) start)
  bound : ∀ visit ∈ loopVisits name chosen (renderAll env body) start,
    visit.outcome = renderAll env body visit.scope ∧
      (name ≠ "forloop" → visit.scope.lookup name = visit.item)

section Selects

variable {env : Environment} {name : String} {selection : Selection} {body : List Node}
  {otherwise : Option (List Node)} {place : Place} {scope : Scope}

/-- A node of a loop visits the items of its selection. -/
theorem selects_of_items {chosen : List Value}
    (h : (selection.items env scope place).result = .ok chosen) :
    Selects env name body otherwise scope chosen
      ((Node.loop name selection body otherwise place).render env scope) := by
  have hrender : (Node.loop name selection body otherwise place).render env scope =
      let rest := (if chosen.isEmpty then renderOption env otherwise
        else loop name chosen (renderAll env body)) scope
      { rest with remarks := (selection.items env scope place).remarks ++ rest.remarks } := by
    rw [Node.render]
    exact evaluated_bind_of_ok h
  -- Each visit binds the item, and then the dictionary, which may hide it.
  have hbound : ∀ visit ∈ loopVisits name chosen (renderAll env body) scope,
      visit.outcome = renderAll env body visit.scope ∧
        (name ≠ "forloop" → visit.scope.lookup name = visit.item) := by
    intro visit hvisit
    rcases mem_visits hvisit with ⟨before, heq⟩
    refine ⟨by rw [heq]; rfl, fun hname => ?_⟩
    rw [heq]
    exact (Scope.lookup_setLocal_of_ne hname _).trans (Scope.lookup_setLocal_self _ _ _)
  -- Nothing chosen is what the else is for.
  cases chosen with
  | nil => exact ⟨by rw [hrender]; rfl, by rw [hrender]; rfl, by rw [hrender]; rfl,
      visits_covers _ _, hbound⟩
  | cons item items =>
      rw [List.isEmpty_cons, if_neg Bool.false_ne_true, loop_eq_visits] at hrender
      exact ⟨by rw [hrender]; rfl, by rw [hrender]; rfl, by rw [hrender]; rfl,
        visits_covers _ _, hbound⟩

end Selects

/-- What a loop does depends on the values of its collection, offset and limit as follows. If the
collection has items, those are visited that are chosen of them, and the other body is rendered
just if there are none. The order of the modifiers in the tag says nothing. A finite number that is
the limit of one loop and the offset of another splits the items of a collection between them. -/
theorem loop_selects (env : Environment) :
    (∀ (name : String) (selection : Selection) (body : List Node) (otherwise : Option (List Node))
      (place : Place) (scope : Scope) (collection : Value) (offset limit : Option Value),
      (selection.collection.eval env scope (some place)).result = .ok collection →
      (Selection.evalOption env scope place selection.offset).result = .ok offset →
      (Selection.evalOption env scope place selection.limit).result = .ok limit →
      let outcome := (Node.loop name selection body otherwise place).render env scope
      (∀ crash, collection.items = .error crash → outcome.exit = .failed (.crash crash)) ∧
        ∀ items, collection.items = .ok items →
          Selects env name body otherwise scope (selection.chosen offset limit items) outcome) ∧
    (∀ (inLoop : Bool) (block : Block) (node : Node),
      Tag.forTag.compile inLoop block = .ok node →
      (∃ ls name collection modifiers, Lexeme.body block.args = .ok ls ∧
        LoopHeader ["limit", "offset"] ls name collection modifiers) ∧
      ∀ (args : String) (offset : Nat) (place : Place) (ls ls' : List Lexeme) (name : String)
        (collection : Expr) (modifiers modifiers' : List Modifier),
        Lexeme.body block.args = .ok ls →
        LoopHeader ["limit", "offset"] ls name collection modifiers →
        Lexeme.body args = .ok ls' →
        LoopHeader ["limit", "offset"] ls' name collection modifiers' →
        modifiers.Perm modifiers' → (modifiers.map Modifier.key).Nodup →
        ∃ selection otherwise,
          node = .loop name selection block.body otherwise block.place ∧
          Tag.forTag.compile inLoop
              { block with args := args, offset := offset, place := place } =
            .ok (.loop name selection block.body otherwise place)) ∧
    (∀ (collection count : Expr) (value : Value) (number : Decimal) (items : List Value),
      value.number? = some number → number.isFinite = true →
      let first := Selection.chosen ⟨collection, some count, none, false⟩ none (some value) items
      let rest := Selection.chosen ⟨collection, none, some count, false⟩ (some value) none items
      first ++ rest = items ∧
        ∀ (name : String) (body : Render Unit) (scope scope' : Scope),
          let visits := loopVisits name first body scope
          let visits' := loopVisits name rest body scope'
          (∀ visit ∈ visits ++ visits', visit.goesOn = true) →
            (visits ++ visits').map Visit.item = items) := by
  refine ⟨?_, ?_, ?_⟩
  · intro name selection body otherwise place scope collection offset limit hcollection hoffset
      hlimit
    have hitems := Selection.items_eq_chosen hcollection hoffset hlimit
    refine ⟨fun crash hcrash => ?_, fun items hok => selects_of_items ?_⟩
    · rw [hcrash] at hitems
      rw [Node.render, evaluated_bind_of_error hitems]
    · rw [hitems, hok]
      rfl
  · intro inLoop block node hnode
    refine ⟨?_, ?_⟩
    · rcases Tag.compileFor_eq_ok_iff.mp hnode with ⟨header, _, hheader, _⟩
      rcases Tag.header_eq_ok_iff.mp hheader with
        ⟨ls, name, collection, modifiers, hls, hloop, _⟩
      exact ⟨ls, name, collection, modifiers, hls, hloop⟩
    · intro args offset place ls ls' name collection modifiers modifiers' hls hloop hls' hloop'
        hperm hnodup
      exact Tag.compileFor_of_perm hls hloop hls' hloop' hperm hnodup hnode
  · intro collection count value number items hnumber hfinite first rest
    -- A finite count is one integer, both as a limit and as an offset.
    have hall : first ++ rest = items :=
      Selection.between_append_between hnumber hfinite items
    refine ⟨hall, ?_⟩
    intro name body scope scope' visits visits' hgoes
    have hfirst : visits.map Visit.item = first :=
      (visits_covers first (scope.push [])).visited_all fun visit hvisit =>
        hgoes visit (List.mem_append_left _ hvisit)
    have hrest : visits'.map Visit.item = rest :=
      (visits_covers rest (scope'.push [])).visited_all fun visit hvisit =>
        hgoes visit (List.mem_append_right _ hvisit)
    rw [List.map_append, hfirst, hrest, hall]

/-- A limit that is a text and an offset with a fraction, modifiers in another order, and a number
that splits a range. -/
theorem loop_selects_reversed :
    let range : Expr := .literal (.range 1 5)
    let loop : Node := .loop "x" ⟨range, some (.literal (.string "2")),
      some (.literal (.decimal (.finite false 19 (-1)))), true⟩ [.output (.path "x" []) ⟨1, 1⟩] none
      ⟨1, 1⟩
    let block : Block := ⟨"for", "x in y limit:2 reversed", 0, ⟨1, 1⟩, [], []⟩
    let other : Block :=
      { block with args := "x in y reversed, limit:2", offset := 34, place := ⟨2, 1⟩ }
    let items := Value.integersFrom 1 5
    (loop.render Environment.standard (Scope.ofData [])).chunks = ["3", "2"] ∧
      Tag.forTag.compile false other =
        .ok (.loop "x" ⟨.path "y" [], some (.literal (.integer 2)), none, true⟩ [] none ⟨2, 1⟩) ∧
      Selection.chosen ⟨range, some range, none, false⟩ none (some (.integer 2)) items ++
        Selection.chosen ⟨range, none, some range, false⟩ (some (.integer 2)) none items =
          items := by
  intro range loop block other items
  rcases loop_selects Environment.standard with ⟨hselects, horder, hsplit⟩
  refine ⟨?_, ?_, (hsplit range range (.integer 2) _ items rfl rfl).1⟩
  · have hloop := (hselects "x" ⟨range, some (.literal (.string "2")),
      some (.literal (.decimal (.finite false 19 (-1)))), true⟩ [.output (.path "x" []) ⟨1, 1⟩] none
      ⟨1, 1⟩ (Scope.ofData []) (.range 1 5) _ _ rfl rfl rfl).2 items rfl
    exact hloop.chunks.trans rfl
  · let ls : List Lexeme := [⟨.identifier, "x", 0⟩, ⟨.identifier, "in", 2⟩, ⟨.identifier, "y", 5⟩,
      ⟨.identifier, "limit", 7⟩, ⟨.symbol, ":", 12⟩, ⟨.integer, "2", 13⟩,
      ⟨.identifier, "reversed", 15⟩]
    let ls' : List Lexeme := [⟨.identifier, "x", 0⟩, ⟨.identifier, "in", 2⟩, ⟨.identifier, "y", 5⟩,
      ⟨.identifier, "reversed", 7⟩, ⟨.symbol, ",", 15⟩, ⟨.identifier, "limit", 17⟩,
      ⟨.symbol, ":", 22⟩, ⟨.integer, "2", 23⟩]
    have hls : Lexeme.body "x in y limit:2 reversed" = .ok ls := by decide +kernel
    have hls' : Lexeme.body "x in y reversed, limit:2" = .ok ls' := by decide +kernel
    let limit : Modifier := .parameter "limit" (.literal (.integer 2))
    have hname : "limit" ≠ "reversed" ∧ "limit" ∈ ["limit", "offset"] := by decide
    have htwo : Grammar.Whole "2" 2 := Grammar.whole_iff.mp (by decide)
    have hlimit {rest : List Lexeme} {modifiers : List Modifier} (n : Nat)
        (hrest : Grammar.Modifiers ["limit", "offset"] rest modifiers) :
        Grammar.Modifiers ["limit", "offset"] (⟨.identifier, "limit", n⟩ ::
          ⟨.symbol, ":", n + 5⟩ :: ([⟨.integer, "2", n + 6⟩] ++ rest)) (limit :: modifiers) :=
      .parameter rfl hname.1 hname.2 ⟨rfl, rfl⟩ (.literal (.integer rfl htwo)) hrest
    have hheaderOf {rest : List Lexeme} {modifiers : List Modifier}
        (hrest : Grammar.Modifiers ["limit", "offset"] rest modifiers) :
        LoopHeader ["limit", "offset"] (⟨.identifier, "x", 0⟩ :: ⟨.identifier, "in", 2⟩ ::
          ([⟨.identifier, "y", 5⟩] ++ rest)) "x" (.path "y" []) modifiers :=
      .mk rfl ⟨.inr rfl, rfl⟩ (.path rfl .nil) hrest
    -- The same modifiers, in the other order and with a comma between them.
    have hheader : LoopHeader ["limit", "offset"] ls "x" (.path "y" []) [limit, .reversed] :=
      hheaderOf (hlimit 7 (.reversed ⟨.inr rfl, rfl⟩ .nil))
    have hheader' : LoopHeader ["limit", "offset"] ls' "x" (.path "y" []) [.reversed, limit] :=
      hheaderOf (.reversed ⟨.inr rfl, rfl⟩ (.comma ⟨rfl, rfl⟩ (hlimit 17 .nil)))
    have hblock : Tag.forTag.compile false block =
        .ok (.loop "x" ⟨.path "y" [], some (.literal (.integer 2)), none, true⟩ [] none ⟨1, 1⟩) :=
      Tag.compileFor_eq_ok_iff.mpr ⟨_, none,
        Tag.header_eq_ok_iff.mpr ⟨ls, _, _, _, hls, hheader, rfl⟩, rfl, rfl⟩
    rcases (horder false block _ hblock).2 _ 34 ⟨2, 1⟩ ls ls' "x" _ _ _ hls hheader hls' hheader'
      (.swap _ _ _) (by decide) with ⟨selection, otherwise, heq, hother⟩
    cases heq
    exact hother

/-- An infinite number keeps all items as a limit and drops none as an offset, so two loops with it
together visit each item twice. -/
theorem infinite_splits_nothing :
    let infinite : Value := .decimal (.infinite false)
    let scope := Scope.ofData [("k", infinite)]
    let first : Selection := ⟨.literal (.range 1 2), some (.path "k" []), none, false⟩
    let rest : Selection := ⟨.literal (.range 1 2), none, some (.path "k" []), false⟩
    let items := Value.integersFrom 1 2
    let body : List Node := [.output (.path "x" []) ⟨1, 1⟩]
    let nodes : List Node := [.loop "x" first body none ⟨1, 1⟩, .loop "x" rest body none ⟨1, 1⟩]
    infinite.isNumeric = true ∧
      (first.items Environment.standard scope ⟨1, 1⟩).result = .ok items ∧
      (rest.items Environment.standard scope ⟨1, 1⟩).result = .ok items ∧ items ++ items ≠ items ∧
      (renderAll Environment.standard nodes scope).chunks = ["1", "2", "1", "2"] := by
  refine ⟨rfl, rfl, rfl, fun h => ?_, rfl⟩
  -- Each half has all of the items.
  have hlength := congrArg List.length h
  simp [Value.integersFrom] at hlength

end Render

end Liquid
