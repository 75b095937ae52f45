import Liquid.Proofs.Except
import Liquid.Proofs.Expr.Roots
import Liquid.Proofs.Render.Law
import Liquid.Template

/-!
# Cycles Taking Turns

A cycle shows one of its values each time it is rendered, and the next one the
next time. Cycles of one group take turns: where two of them stand in a
template, each goes on from where the other was. What a group is, a cycle says
by a name that it shows, or else its values are the group.

All groups have their positions in one table, under a text. For a named group it
is the name, and otherwise it is the values as they are printed. So the cycles
that take turns are those with one key, wherever they stand and whatever is
rendered between them. These are the cycles of one group only if no two groups
of a render have one key. Texts do not see to it: a path through `a["b.c"]` and
one through `a.b.c` are printed alike, and a group may have a name that is what
some values look like.

How often a key was taken is told by the render up to there. Tags of the host
could move positions too, so followers are asked to account for what happens to
them.

## Main definitions

* `CycleGroup`, `CycleGroup.key`: The groups, and what the table knows of them.
* `Accounts`: Followed steps that tell of all positions that they move.
* `SameKey`, `SameGroup`: Cycles that take turns, and those that should.
* `InTurn`: A render in which cycles take turns.

## Theorems

* `Render.cycle_shows`: What a cycle shows.
* `law_accounts`: Built-in steps account for the positions that they move.
* `Environment.cycles_in_turn`: Cycles take turns.
-/

namespace Liquid

/-- What a cycle takes turns with: others that show the same name, or others over the same
values. -/
inductive CycleGroup
  | named (shown : String)
  | unnamed (values : List Expr)

/-- The key of the positions of a group. -/
def CycleGroup.key : CycleGroup → String
  | named shown => shown
  | unnamed values => ", ".intercalate (values.map Expr.text)

namespace Event

/-- The group of a cycle where it is rendered, unless the name of the group has no value. -/
def group? (env : Environment) : Event → Option CycleGroup
  | .execution (.cycle values none _) _ => some (.unnamed values)
  | .execution (.cycle _ (some group) place) scope =>
    (group.eval env scope (some place)).result.toOption.map fun value => .named value.display
  | _ => none

/-- The key of that group. -/
def key? (env : Environment) (event : Event) : Option String :=
  (event.group? env).map CycleGroup.key

end Event

/-- How often the position under a key was taken. -/
def taken (env : Environment) (key : String) (events : List Event) : Nat :=
  events.countP fun event => event.key? env == some key

/-- Whether a followed step tells of all positions that it moves: of each cycle, the ones taken
before it are those that it finds taken. -/
structure Accounts (env : Environment) {α : Type} (x : Followed α) : Prop where
  moved : ∀ scope key,
    (x.step scope).scope.turns key = scope.turns key + taken env key (x.events scope)
  found : ∀ scope (i : Nat) event key, (x.events scope)[i]? = some event →
    event.key? env = some key →
    event.scope.turns key = scope.turns key + taken env key ((x.events scope).take i)

section Accounts

variable {env : Environment} {α β : Type}

theorem turns_congr {first second : Scope} (h : first.cycles = second.cycles) (key : String) :
    first.turns key = second.turns key := by
  unfold Scope.turns
  rw [h]

/-- Turns are counted piece by piece. -/
theorem taken_append (key : String) (first second : List Event) :
    taken env key (first ++ second) = taken env key first + taken env key second :=
  List.countP_append

theorem taken_cons_of_none {event : Event} (h : event.key? env = none) (key : String)
    (events : List Event) : taken env key (event :: events) = taken env key events := by
  rw [taken, List.countP_cons, h]
  rfl

/-- Without cycles no turns are taken. -/
theorem taken_of_none {events : List Event} (h : ∀ event ∈ events, event.key? env = none)
    (key : String) : taken env key events = 0 := by
  refine List.countP_eq_zero.mpr fun event hevent => ?_
  rw [h event hevent]
  exact Bool.false_ne_true

/-- A step that tells of no cycle moves no position. -/
theorem accounts_of_none {x : Followed α} (hquiet : Followed.Quiet x.step)
    (hnone : ∀ scope, ∀ event ∈ x.events scope, event.key? env = none) : Accounts env x where
  moved scope key := by
    rw [taken_of_none (hnone scope), turns_congr (hquiet scope), Nat.add_zero]
  found scope i event key hevent hkey := by
    rw [hnone scope event (List.mem_of_getElem? hevent)] at hkey
    cases hkey

theorem accounts_silent {x : Render α} (h : Followed.Quiet x) : Accounts env (.silent x) :=
  accounts_of_none h fun _ _ hevent => absurd hevent List.not_mem_nil

/-- What is told behind a step is counted from where the step has left the positions. -/
theorem accounts_bind {x : Followed α} {f : α → Followed β} (hx : Accounts env x)
    (hf : ∀ a, Accounts env (f a)) : Accounts env (x >>= f) where
  moved scope key := by
    change ((x.step >>= fun a => (f a).step) scope).scope.turns key =
      scope.turns key + taken env key (x.events scope ++ Followed.after f (x.step scope))
    rw [taken_append, ← Nat.add_assoc, ← hx.moved]
    by_cases hdone : ∃ a, (x.step scope).exit = .done a
    · rcases hdone with ⟨a, ha⟩
      rw [Render.scope_bind_of_done ha, (hf a).moved, Followed.after_of_done ha]
    · have hnone := not_exists.mp hdone
      rw [Render.scope_bind_of_not_done hnone, Followed.after_of_not_done hnone]
      rfl
  found scope i event key hevent hkey := by
    change (x.events scope ++ Followed.after f (x.step scope))[i]? = some event at hevent
    change _ = scope.turns key +
      taken env key ((x.events scope ++ Followed.after f (x.step scope)).take i)
    -- The event is one of the first step, or it is so many events behind them.
    rcases Nat.lt_or_ge i (x.events scope).length with hi | hi
    · rw [List.getElem?_append_left hi] at hevent
      rw [List.take_append_of_le_length (Nat.le_of_lt hi)]
      exact hx.found scope i event key hevent hkey
    · rw [List.getElem?_append_right hi] at hevent
      rw [List.take_append, List.take_of_length_le hi, taken_append, ← Nat.add_assoc, ← hx.moved]
      by_cases hdone : ∃ a, (x.step scope).exit = .done a
      · rcases hdone with ⟨a, ha⟩
        rw [Followed.after_of_done ha] at hevent ⊢
        exact (hf a).found _ _ event key hevent hkey
      · rw [Followed.after_of_not_done (not_exists.mp hdone)] at hevent
        cases hevent

/-- What a frame does around a step moves no cycle. -/
theorem accounts_around {wrap : Render α → Render β} {enter : Scope → Scope} {x : Followed α}
    (hframe : Followed.Frame wrap enter) (hx : Accounts env x) :
    Accounts env (.around wrap enter x) where
  moved scope key := by
    rw [← turns_congr (hframe.enter_cycles scope)]
    exact (turns_congr (hframe.cycles x.step scope) key).trans (hx.moved (enter scope) key)
  found scope i event key hevent hkey := by
    rw [← turns_congr (hframe.enter_cycles scope)]
    exact hx.found (enter scope) i event key hevent hkey

end Accounts

section Cycle

variable {env : Environment} {values : List Expr} {group : Option Expr} {place : Place}
  {scope : Scope}

/-- The key of a cycle is found without output, and nothing is done to the scope. -/
theorem cycleKey_of_key? {key : String}
    (h : (Event.execution (.cycle values group place) scope).key? env = some key) :
    ∃ remarks, Render.cycleKey env place values group scope = ⟨[], remarks, scope, .done key⟩ := by
  -- Without a group there is nothing to evaluate.
  cases group with
  | none =>
      cases h
      exact ⟨[], rfl⟩
  | some group =>
      rcases Option.map_eq_some_iff.mp h with ⟨own, hown, rfl⟩
      rcases Option.map_eq_some_iff.mp hown with ⟨value, hvalue, rfl⟩
      have hdone : Render.value env place group scope =
          ⟨[], (group.eval env scope (some place)).remarks, scope, .done value⟩ := by
        simp only [Render.value, Render.evaluated, toOption_eq_some_iff.mp hvalue]
      refine ⟨(group.eval env scope (some place)).remarks ++ [], ?_⟩
      change Render.bind (Render.value env place group) _ scope = _
      rw [Render.bind, hdone]
      rfl

/-- A group that cannot be evaluated makes the cycle fail. -/
theorem cycleKey_of_none
    (h : (Event.execution (.cycle values group place) scope).key? env = none) :
    ∃ remarks fault,
      Render.cycleKey env place values group scope = ⟨[], remarks, scope, .failed fault⟩ := by
  cases group with
  | none => cases h
  | some group =>
      have hnone := Option.map_eq_none_iff.mp (Option.map_eq_none_iff.mp h)
      -- There is no key only where the group failed to evaluate.
      cases hresult : (group.eval env scope (some place)).result with
      | ok value =>
          rw [hresult] at hnone
          cases hnone
      | error fault =>
          have hfailed : Render.value env place group scope =
              ⟨[], (group.eval env scope (some place)).remarks, scope, .failed fault⟩ := by
            simp only [Render.value, Render.evaluated, hresult]
          refine ⟨(group.eval env scope (some place)).remarks, fault, ?_⟩
          change Render.bind (Render.value env place group) _ scope = _
          rw [Render.bind, hfailed]

theorem scope_changed (f : Scope → Except Crash Int × Scope) :
    (Render.changed f scope).scope = (f scope).2 := by
  unfold Render.changed
  dsimp only
  split <;> rfl

/-- A cycle moves its own position by one, even if it has no value to show, and no other one. -/
theorem turns_cycle (key : String) :
    ((Node.cycle values group place).render env scope).scope.turns key =
      scope.turns key + taken env key [.execution (.cycle values group place) scope] := by
  rw [Node.render]
  -- Without a key the cycle fails before it takes a turn.
  cases hkey : (Event.execution (.cycle values group place) scope).key? env with
  | none =>
      rcases cycleKey_of_none hkey with ⟨remarks, fault, hfailed⟩
      rw [Render.scope_bind_of_not_done (by rw [hfailed]; exact nofun), hfailed,
        taken_cons_of_none hkey]
      rfl
  | some own =>
      rcases cycleKey_of_key? hkey with ⟨remarks, hdone⟩
      have hcycle := scope.turns_step (.cycle own values.length) key
      rw [Render.scope_bind_of_done (by rw [hdone]), hdone,
        turns_congr (Followed.cycles_bind _ (fun _ => Followed.quiet_display env place _) scope),
        scope_changed, taken, List.countP_singleton, hkey]
      refine hcycle.trans ?_
      simp [Scope.Act.asks]

/-- A cycle shows the value whose number is that of the positions taken, counted round. -/
theorem Render.cycle_shows {key : String} {expr : Expr} {value : Value}
    (hkey : (Event.execution (.cycle values group place) scope).key? env = some key)
    (hexpr : values[scope.turns key % values.length]? = some expr)
    (hvalue : (expr.eval env scope (some place)).result = .ok value) :
    ((Node.cycle values group place).render env scope).chunks = [value.display] ∧
      ((Node.cycle values group place).render env scope).exit = .done () := by
  -- A cycle over nothing would crash, but then it has no value with any number.
  have hlength : values.length ≠ 0 := by
    intro hzero
    rw [List.length_eq_zero_iff.mp hzero] at hexpr
    cases hexpr
  have hindex : (Int.fmod (scope.turns key) values.length).toNat =
      scope.turns key % values.length := by
    rw [Int.fmod_eq_emod_of_nonneg _ (Int.natCast_nonneg _), ← Int.natCast_mod, Int.toNat_natCast]
  have hchanged : Render.changed (·.cycle key values.length) scope =
      ⟨[], [], (scope.cycle key values.length).2,
        .done (Int.fmod (scope.turns key) values.length)⟩ := by
    simp [Render.changed, Scope.cycle, hlength]
  -- Where the positions of cycles are has no influence on a value.
  have heval : expr.eval env (scope.cycle key values.length).2 (some place) =
      expr.eval env scope (some place) := Expr.eval_congr expr fun _ _ => rfl
  have hdisplay : Render.display env place expr (scope.cycle key values.length).2 =
      ⟨[value.display], (expr.eval env scope (some place)).remarks ++ [],
        (scope.cycle key values.length).2, .done ()⟩ := by
    change Render.bind (Render.value env place expr) _ _ = _
    simp only [Render.bind, Render.value, Render.evaluated, heval, hvalue]
    rfl
  rcases cycleKey_of_key? hkey with ⟨remarks, hdone⟩
  rw [Node.render, Render.chunks_bind_of_done (by rw [hdone]),
    Render.exit_bind_of_done (by rw [hdone]), hdone,
    Render.chunks_bind_of_done (by rw [hchanged]), Render.exit_bind_of_done (by rw [hchanged]),
    hchanged, hindex, hexpr, Option.getD_some, hdisplay]
  exact ⟨rfl, rfl⟩

/-- Whether no cycle is told of. -/
def Uncycled (env : Environment) {α : Type} (x : Followed α) : Prop :=
  ∀ scope, ∀ event ∈ x.events scope, event.key? env = none

theorem uncycled_bind {α β : Type} {x : Followed α} {f : α → Followed β} (hx : Uncycled env x)
    (hf : ∀ a, Uncycled env (f a)) : Uncycled env (x >>= f) := by
  intro scope event hevent
  rcases Followed.mem_events_bind hevent with hfirst | ⟨a, _, hsecond⟩
  · exact hx scope event hfirst
  · exact hf a _ event hsecond

theorem uncycled_silent {α : Type} (x : Render α) : Uncycled env (.silent x) :=
  fun _ _ hevent => absurd hevent List.not_mem_nil

theorem uncycled_value {node : Node} (expr : Expr) :
    Uncycled env (Followed.value env node place expr) := by
  intro scope event hevent
  rw [List.mem_singleton.mp hevent]
  rfl

/-- What a cycle does is to evaluate: it does not render a cycle. -/
theorem uncycled_cycle {node : Node} :
    Uncycled env (Followed.cycle env node place values group) :=
  Followed.cycle_of_steps (@uncycled_silent env) uncycled_bind uncycled_value values group

end Cycle

section Accounts

variable {env : Environment}

/-- A cycle tells of the position that it moves, before it moves it. -/
theorem accounts_cycle (values : List Expr) (group : Option Expr) (place : Place) :
    Accounts env (.seen (.execution (.cycle values group place))
      (.cycle env (.cycle values group place) place values group)) where
  moved scope key := by
    change ((Followed.cycle env _ place values group).step scope).scope.turns key =
      scope.turns key +
        taken env key ([_] ++ (Followed.cycle env _ place values group).events scope)
    rw [Followed.step_cycle, turns_cycle, taken_append, taken_of_none (uncycled_cycle scope),
      Nat.add_zero]
  found scope i event key hevent hkey := by
    cases i with
    | zero =>
        cases hevent
        rfl
    | succ i =>
        -- Behind the cycle itself there is none.
        rw [uncycled_cycle scope event (List.mem_of_getElem? hevent)] at hkey
        cases hkey

/-- Each part of a render accounts for the turns that it takes. -/
theorem law_accounts : Followed.Law env fun _ x => Accounts env x where
  silent := accounts_silent
  bind := accounts_bind
  around := accounts_around
  value hplace expr := accounts_of_none (fun _ => rfl) (uncycled_value expr)
  execution {node x} hcycle hstep hx := by
    -- Only the execution of a cycle has a key.
    have hnone (scope : Scope) : (Event.execution node scope).key? env = none := by
      cases node with
      | cycle values group place => exact absurd rfl (hcycle values group place)
      | _ => rfl
    constructor
    · intro scope key
      exact (hx.moved scope key).trans
        (congrArg _ (taken_cons_of_none (hnone scope) key (x.events scope)).symm)
    · intro scope i event key hevent hkey
      cases i with
      | zero =>
          cases hevent
          rw [hnone] at hkey
          cases hkey
      | succ i =>
          refine (hx.found scope i event key hevent hkey).trans ?_
          exact congrArg _ (taken_cons_of_none (hnone scope) key _).symm
  cycle := accounts_cycle

end Accounts

/-- Cycles whose positions are under one key. -/
def SameKey (env : Environment) (first second : Event) : Prop :=
  first.key? env = second.key? env

/-- Cycles of one group: of groups that show the same, or without a group over the same values. -/
def SameGroup (env : Environment) (first second : Event) : Prop :=
  first.group? env = second.group? env

open Classical in
/-- How many of the events go together with the one given. -/
noncomputable def together (same : Event → Event → Prop) (event : Event) (events : List Event) :
    Nat :=
  events.countP fun other => same other event

/-- Whether each cycle that is told of shows the value whose number is that of the cycles told of
before it that go together with it, counted round. -/
def InTurn (env : Environment) (same : Event → Event → Prop) (events : List Event) : Prop :=
  ∀ (i : Nat) values group place scope,
    events[i]? = some (.execution (.cycle values group place) scope) →
    ((Event.execution (.cycle values group place) scope).group? env).isSome →
    ∀ expr value,
      values[together same (.execution (.cycle values group place) scope) (events.take i) %
        values.length]? = some expr →
      (expr.eval env scope (some place)).result = .ok value →
      ((Node.cycle values group place).render env scope).chunks = [value.display] ∧
        ((Node.cycle values group place).render env scope).exit = .done ()

theorem together_sameKey {env : Environment} {event : Event} {key : String}
    (hkey : event.key? env = some key) (events : List Event) :
    together (SameKey env) event events = taken env key events := by
  refine List.countP_congr fun other _ => ?_
  simp [SameKey, hkey]

/-- Where keys tell groups apart, the cycles of one key are those of one group. -/
theorem together_sameGroup {env : Environment} {event : Event} {events : List Event}
    (h : ∀ other ∈ events, SameKey env other event → SameGroup env other event) :
    together (SameGroup env) event events = together (SameKey env) event events := by
  refine List.countP_congr fun other hother => ?_
  simp only [decide_eq_true_eq]
  exact ⟨fun hgroup => congrArg (Option.map CycleGroup.key) hgroup, h other hother⟩

/-- In every render, cycles of one key take turns: the one that is rendered k-th among them shows
its value number k - 1, counted round, whatever is rendered between them. If the keys tell the
groups of the render apart, it is the cycles of one group that do. -/
theorem Environment.cycles_in_turn (env : Environment) (hooks : Hooks env)
    (hhooks : hooks.Keep fun _ x => Accounts env x) (nodes : List Node) (data : Table Value) :
    let events := (followedAll env hooks nodes).events (.ofData data)
    InTurn env (SameKey env) events ∧
      ((∀ first ∈ events, ∀ second ∈ events, (second.group? env).isSome →
        SameKey env first second → SameGroup env first second) →
        InTurn env (SameGroup env) events) := by
  intro events
  have haccounts : Accounts env (followedAll env hooks nodes) :=
    law_accounts.followedAll hhooks nodes
  have hkeys : InTurn env (SameKey env) events := by
    intro i values group place scope hevent hgroup expr value hexpr hvalue
    rcases Option.isSome_iff_exists.mp hgroup with ⟨own, hown⟩
    have hkey : (Event.execution (.cycle values group place) scope).key? env = some own.key := by
      rw [Event.key?, hown, Option.map_some]
    have hfound := haccounts.found (.ofData data) i _ own.key hevent hkey
    -- The render starts without turns, so those of the key are the ones before the event.
    have hturns : scope.turns own.key = taken env own.key (events.take i) :=
      hfound.trans (Nat.zero_add _)
    rw [together_sameKey hkey, ← hturns] at hexpr
    exact Render.cycle_shows hkey hexpr hvalue
  refine ⟨hkeys, fun hapart => ?_⟩
  intro i values group place scope hevent hgroup expr value hexpr hvalue
  -- Within the events, to share the key is to share the group.
  have hsame (other : Event) (hother : other ∈ events.take i)
      (hkey : SameKey env other (.execution (.cycle values group place) scope)) :
      SameGroup env other (.execution (.cycle values group place) scope) :=
    hapart other (List.mem_of_mem_take hother) _ (List.mem_of_getElem? hevent) hgroup hkey
  rw [together_sameGroup hsame] at hexpr
  exact hkeys i values group place scope hevent hgroup expr value hexpr hvalue

/-- Two cycles of one group with one of another group between them. -/
theorem Environment.cycles_in_turn_interleaved :
    let group (name : String) : Node :=
      .cycle [.literal (.string "a"), .literal (.string "b")] (some (.literal (.string name)))
        ⟨1, 1⟩
    let events := (followedAll standard (.silent standard) [group "g", group "h", group "g"]).events
      (.ofData [])
    InTurn standard (SameGroup standard) events ∧
      (standard.output [group "g", group "h", group "g"] []).result = .ok "aab" := by
  intro group events
  refine ⟨(cycles_in_turn standard (.silent standard) (Hooks.keep_standard law_accounts)
    [group "g", group "h", group "g"] []).2 ?_, rfl⟩
  -- Of the events of the three cycles, each first one has a group.
  have hgroups : events.map (Event.group? standard) =
      [some (.named "g"), none, none, some (.named "h"), none, none,
        some (.named "g"), none, none] :=
    rfl
  have hnamed (event : Event) (hevent : event ∈ events) : event.group? standard = none ∨
      ∃ name, event.group? standard = some (.named name) := by
    have hmem : event.group? standard ∈ events.map (Event.group? standard) :=
      List.mem_map_of_mem hevent
    rw [hgroups] at hmem
    simp only [List.mem_cons, List.not_mem_nil, or_false] at hmem
    rcases hmem with h | h | h | h | h | h | h | h | h <;> simp [h]
  intro first hfirst second hsecond hsome hkey
  unfold SameKey Event.key? at hkey
  unfold SameGroup
  rcases hnamed first hfirst with h | ⟨name, h⟩ <;>
    rcases hnamed second hsecond with h' | ⟨name', h'⟩ <;>
    simp_all [CycleGroup.key]

/-- Two cycles over different values whose values are printed alike: the second of them shows the
second of its values when it is rendered for the first time. -/
theorem Environment.cycles_not_in_turn :
    let first : Node := .cycle [.path "a" [.field "b.c"], .literal (.string "y")] none ⟨1, 1⟩
    let second : Node :=
      .cycle [.path "a" [.field "b", .field "c"], .literal (.string "y")] none ⟨1, 28⟩
    let data : Table Value :=
      [("a", .dictionary [("b.c", .string "1"), ("b", .dictionary [("c", .string "2")])])]
    ¬InTurn standard (SameGroup standard)
        ((followedAll standard (.silent standard) [first, second]).events (.ofData data)) ∧
      (standard.output [first, second] data).result = .ok "1y" := by
  intro first second data
  refine ⟨fun h => ?_, rfl⟩
  let reached (turns : Nat) : Scope := { Scope.ofData data with cycles := [("a.b.c, 'y'", turns)] }
  have hevents : (followedAll standard (.silent standard) [first, second]).events (.ofData data) =
      [.execution first (.ofData data), .evaluation first (.path "a" [.field "b.c"]) (reached 1),
        .execution second (reached 1),
        .evaluation second (.literal (.string "y")) (reached 2)] :=
    rfl
  -- The other cycle is of another group, and what it evaluates is no cycle.
  have hnone : together (SameGroup standard) (.execution second (reached 1))
      [.execution first (.ofData data),
        .evaluation first (.path "a" [.field "b.c"]) (reached 1)] = 0 := by
    simp [together, SameGroup, Event.group?, first, second]
  have hexpr := congrArg (fun number => ([.path "a" [.field "b", .field "c"],
    .literal (.string "y")] : List Expr)[number % 2]?) hnone
  rw [hevents] at h
  have hshown := (h 2 _ none ⟨1, 28⟩ (reached 1) rfl rfl _ (.string "2") hexpr rfl).1
  have hchunks : (second.render standard (reached 1)).chunks = ["y"] := rfl
  rw [hchunks] at hshown
  exact absurd hshown (by decide)

end Liquid
