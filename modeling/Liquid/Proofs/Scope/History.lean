import Liquid.Scope
import Mathlib.Data.List.Forall2
import Mathlib.Data.Nat.Cast.Basic

/-!
# What a Scope Owes to Its History

A scope is reached from the data of the caller by acts: frames are laid and
removed, variables written, counters moved, cycles asked. This module tells
everything that can be seen of the scope from the list of these acts alone,
without tables, counters or cycles.

For each frame the list tells a log, the newest entry first. Laying a frame
starts a log with what the frame holds, removing it drops the log, and writing
adds an entry in front. A name then stands for the newest entry under it in the
innermost log that has one. The number that moving a counter gives is no
business of the logs: it is how often the counter went up, less how often it
went down, and neither frames nor the global of the same name have a say in it.

Acts that lay and remove frames in pairs leave the frames around them alone.
What they leave is written to the globals by name, which goes through all
frames; a variable of the innermost frame goes with that frame.

A history lists the newest act first, so that a scope is reached by recursion on
its history, and what holds of it is an induction whose step is one act.

## Main definitions

* `Scope.Act`, `Scope.Act.step`: What can be done to a scope, and what it gives.
* `Scope.reached`: The scope that a history leads to.
* `Scope.net`, `Scope.asked`: What a history tells of a counter and of a cycle.
* `Scope.localLogs`, `Scope.globalLog`, `Scope.logs`: What a history tells of the
  frames.
* `Scope.Balanced`: Acts that remove each frame that they lay, and no other.
* `Scope.named`: The globals that acts write by name.

## Theorems

* `Scope.counter_reached`, `Scope.turns_reached`: Counters and cycles.
* `Scope.told_globals`, `Scope.told_locals`: The frames.
* `Scope.leavesOuter_of_balanced`: What balanced acts leave.
* `Scope.reached_eq_history`: All of it for every history.
-/

namespace Liquid

namespace Scope

/-- What can be done to a scope. -/
inductive Act
  | push (frame : Table Value)
  | pop
  | assign (name : String) (value : Value)
  | setLocal (name : String) (value : Value)
  | increment (name : String)
  | decrement (name : String)
  | cycle (key : String) (size : Int)

/-- What an act gives back. -/
inductive Answer
  | done
  | frame (values : Table Value)
  | number (n : Int)

namespace Act

/-- What an act gives back, and the scope behind it. An act that fails may still have changed the
scope, as a cycle over no values does. -/
def step : Act → Scope → Except Crash Answer × Scope
  | push frame, scope => (.ok .done, scope.push frame)
  | pop, scope =>
    match scope.pop? with
    | some (frame, outer) => (.ok (.frame frame), outer)
    | none => (.error .onlyGlobals, scope)
  | assign name value, scope => (.ok .done, scope.assign name value)
  | setLocal name value, scope => (.ok .done, scope.setLocal name value)
  | increment name, scope => ((.ok (.number (scope.count name 1).1)), (scope.count name 1).2)
  | decrement name, scope => ((.ok (.number (scope.count name (-1)).1)), (scope.count name (-1)).2)
  | cycle key size, scope => ((scope.cycle key size).1.map .number, (scope.cycle key size).2)

/-- Whether the act moves the counter up. -/
def raises (name : String) : Act → Bool
  | increment counter => counter == name
  | _ => false

/-- Whether the act moves the counter down. -/
def lowers (name : String) : Act → Bool
  | decrement counter => counter == name
  | _ => false

/-- Whether the act asks the cycle for a position. -/
def asks (key : String) : Act → Bool
  | cycle key' _ => key' == key
  | _ => false

/-- Whether the act lays or removes a frame. -/
def movesFrame : Act → Bool
  | push _ => true
  | pop => true
  | _ => false

end Act

/-- The scope that a history leads to, whose newest act is in front. -/
def reached (data : Table Value) : List Act → Scope
  | [] => ofData data
  | act :: past => (act.step (reached data past)).2

/-- How often a counter went up, less how often it went down. -/
def net (name : String) (past : List Act) : Int :=
  past.countP (·.raises name) - past.countP (·.lowers name)

/-- How often a cycle was asked for a position. -/
def asked (key : String) (past : List Act) : Nat :=
  past.countP (·.asks key)

/-- The global that an act writes by its name, wherever it happens, once the history is behind
it. -/
def Act.global? (past : List Act) : Act → Option (String × Value)
  | assign name value => some (name, value)
  | increment name => some (name, .integer (net name (increment name :: past)))
  | decrement name => some (name, .integer (net name (decrement name :: past)))
  | _ => none

/-- What was written to each frame of a loop, the innermost frame and the newest entry first. -/
def localLogs : List Act → List (List (String × Value))
  | [] => []
  | .push frame :: past => frame :: localLogs past
  | .pop :: past => (localLogs past).tail
  | .setLocal name value :: past => (localLogs past).modifyHead ((name, value) :: ·)
  | _ :: past => localLogs past

/-- What was written to the globals, the newest entry first. A variable of the innermost frame is a
global where no frame is open. -/
def globalLog (data : Table Value) : List Act → List (String × Value)
  | [] => data
  | .setLocal name value :: past =>
    if (localLogs past).isEmpty then (name, value) :: globalLog data past else globalLog data past
  | act :: past => (act.global? past).toList ++ globalLog data past

/-- What was written to each frame, the innermost frame and the newest entry first. -/
def logs (data : Table Value) (past : List Act) : List (List (String × Value)) :=
  localLogs past ++ [globalLog data past]

/-- Acts that remove each frame that they lay, and no other. -/
inductive Balanced : List Act → Prop
  | nil : Balanced []
  | act {act : Act} {past : List Act} (stays : act.movesFrame = false) (before : Balanced past) :
      Balanced (act :: past)
  | stretch (frame : Table Value) {inner past : List Act} (inside : Balanced inner)
      (before : Balanced past) : Balanced (.pop :: inner ++ .push frame :: past)

/-- The globals that some acts write by name once a history is behind them, the newest first. -/
def named (past : List Act) : List Act → List (String × Value)
  | [] => []
  | act :: inner => (act.global? (inner ++ past)).toList ++ named past inner

/-- Whether a table holds what a log tells, the newest entry of each name. -/
def Told (table : Table Value) (log : List (String × Value)) : Prop :=
  ∀ name, table.get? name = log.lookup name

section Step

variable (scope : Scope)

/-- Removing a frame leaves all but the frames, whether or not there is one to remove. -/
theorem step_pop : (Act.pop.step scope).2 = scope.drop := by
  rcases scope with ⟨globals, locals, counters, cycles⟩
  cases locals with
  | nil => rfl
  | cons frame outer => rfl

/-- The globals are not removed. -/
theorem pop_of_length (h : scope.frames.length = 1) :
    Act.pop.step scope = (.error .onlyGlobals, scope) := by
  have hlocals : scope.locals = [] := by simpa [Scope.frames] using h
  simp [Act.step, Scope.pop?, hlocals]

/-- Any other frame is. -/
theorem pop_of_cons {frame : Table Value} {outer : List (Table Value)}
    (h : scope.frames = frame :: outer) (hne : outer ≠ []) :
    (Act.pop.step scope).1 = .ok (.frame frame) ∧ (Act.pop.step scope).2.frames = outer := by
  unfold Scope.frames at h
  -- Without a local frame there would be none but the global one.
  cases hlocals : scope.locals with
  | nil =>
      rw [hlocals] at h
      cases h
      exact absurd rfl hne
  | cons inner rest =>
      rw [hlocals] at h
      cases h
      simp [Act.step, Scope.pop?, hlocals, Scope.frames]

theorem setLocal_locals (name : String) (value : Value) :
    (scope.setLocal name value).locals = scope.locals.modifyHead (·.put name value) := by
  rcases scope with ⟨globals, locals, counters, cycles⟩
  cases locals with
  | nil => rfl
  | cons frame outer => rfl

theorem setLocal_globals (name : String) (value : Value) :
    (scope.setLocal name value).globals =
      if scope.locals.isEmpty then scope.globals.put name value else scope.globals := by
  rcases scope with ⟨globals, locals, counters, cycles⟩
  cases locals with
  | nil => rfl
  | cons frame outer => rfl

theorem setLocal_counters (name : String) (value : Value) :
    (scope.setLocal name value).counters = scope.counters := by
  unfold setLocal
  split
  · rfl
  · rfl

theorem setLocal_cycles (name : String) (value : Value) :
    (scope.setLocal name value).cycles = scope.cycles := by
  unfold setLocal
  split
  · rfl
  · rfl

/-- Counting moves the one counter that is named. -/
theorem counter_count (moved name : String) (step : Int) :
    (scope.count moved step).2.counter name =
      scope.counter name + if moved = name then step else 0 := by
  simp only [Scope.counter, Scope.count]
  by_cases h : moved = name
  · subst h
    simp only [Table.get?_put_self, Option.getD_some, if_true]
  · simp only [Table.get?_put_of_ne _ _ (Ne.symm h), if_neg h, Int.add_zero]

/-- Only the two acts on a counter move it. -/
theorem counter_step (act : Act) (name : String) :
    (act.step scope).2.counter name =
      scope.counter name +
        ((if act.raises name then 1 else 0) - if act.lowers name then 1 else 0) := by
  -- Only the two acts that count move a counter, and each only its own.
  cases act with
  | increment moved =>
      refine (counter_count scope moved name 1).trans ?_
      simp only [Act.raises, Act.lowers, beq_iff_eq]
      simp
  | decrement moved =>
      refine (counter_count scope moved name (-1)).trans ?_
      simp only [Act.raises, Act.lowers, beq_iff_eq]
      by_cases h : moved = name
      · simp [h]
      · simp [h]
  | pop =>
      rw [step_pop]
      exact (Int.add_zero _).symm
  | setLocal other value =>
      simp only [Act.step, Scope.counter, setLocal_counters]
      exact (Int.add_zero _).symm
  | push frame => exact (Int.add_zero _).symm
  | assign other value => exact (Int.add_zero _).symm
  | cycle key size => exact (Int.add_zero _).symm

/-- Only asking a cycle moves it, even where it has no position to give. -/
theorem turns_step (act : Act) (key : String) :
    (act.step scope).2.turns key = scope.turns key + if act.asks key then 1 else 0 := by
  -- Only asking for a turn of the key takes one.
  cases act with
  | cycle asked size =>
      simp only [Act.step, Scope.cycle, Scope.turns, Act.asks, beq_iff_eq]
      by_cases h : asked = key
      · subst h
        simp only [Table.get?_put_self, Option.getD_some, if_true]
      · simp only [Table.get?_put_of_ne _ _ (Ne.symm h), if_neg h, Nat.add_zero]
  | pop =>
      rw [step_pop]
      rfl
  | setLocal name value =>
      simp only [Act.step, Scope.turns, setLocal_cycles]
      rfl
  | push frame => rfl
  | assign name value => rfl
  | increment name => rfl
  | decrement name => rfl

end Step

section Reached

variable (data : Table Value)

/-- A counter is where the acts on it have brought it. -/
theorem counter_reached (past : List Act) (name : String) :
    (reached data past).counter name = net name past := by
  -- Act by act, from the oldest one on.
  induction past with
  | nil => rfl
  | cons act past ih =>
      have hstep := counter_step (reached data past) act name
      unfold net at ih ⊢
      rw [reached, hstep, ih, List.countP_cons, List.countP_cons]
      split
      · split
        · omega
        · omega
      · split
        · omega
        · omega

/-- A cycle knows how often it was asked. -/
theorem turns_reached (past : List Act) (key : String) :
    (reached data past).turns key = asked key past := by
  induction past with
  | nil => rfl
  | cons act past ih =>
      have hstep := turns_step (reached data past) act key
      unfold asked at ih ⊢
      rw [reached, hstep, ih, List.countP_cons]

/-- Moving a counter up gives how often it went up, this time included, less how often it went
down. -/
theorem count_increment (past : List Act) (name : String) :
    ((reached data past).count name 1).1 = net name (.increment name :: past) := by
  rw [← counter_reached data, reached, counter_step]
  simp [Scope.count, Act.raises, Act.lowers]

theorem count_decrement (past : List Act) (name : String) :
    ((reached data past).count name (-1)).1 = net name (.decrement name :: past) := by
  rw [← counter_reached data, reached, counter_step]
  simp [Scope.count, Act.raises, Act.lowers]

/-- Asking a cycle gives how often it was asked before, counted round by its number of values. -/
theorem number_cycle (past : List Act) (key : String) {size : Int} (hsize : size ≠ 0) :
    ((Act.cycle key size).step (reached data past)).1 =
      .ok (.number (Int.fmod ((asked key (.cycle key size :: past) : Int) - 1) size)) := by
  have hasked : (asked key (.cycle key size :: past) : Int) - 1 =
      (reached data past).turns key := by
    rw [turns_reached, asked, asked, List.countP_cons]
    simp [Act.asks]
  have hsize : (size == 0) = false := by simpa using hsize
  rw [hasked]
  simp [Act.step, Scope.cycle, hsize, Except.map]

/-- Writing to a table adds an entry in front of its log. -/
theorem Told.put {table : Table Value} {log : List (String × Value)} (h : Told table log)
    (name : String) (value : Value) : Told (table.put name value) ((name, value) :: log) := by
  intro other
  by_cases hother : other = name
  · subst hother
    simp [Table.get?_put_self]
  · have hne : (other == name) = false := by simpa using hother
    rw [Table.get?_put_of_ne _ _ hother, h other, List.lookup_cons, hne]

section Frames

variable {frames : List (Table Value)} {written : List (List (String × Value))}

/-- Dropping the innermost frame drops what was written there. -/
theorem told_tail (h : List.Forall₂ Told frames written) :
    List.Forall₂ Told frames.tail written.tail := by
  cases h with
  | nil => exact .nil
  | cons _ houter => exact houter

/-- Writing to the innermost frame is the newest entry there. -/
theorem told_modifyHead (h : List.Forall₂ Told frames written) (name : String) (value : Value) :
    List.Forall₂ Told (frames.modifyHead (·.put name value))
      (written.modifyHead ((name, value) :: ·)) := by
  cases h with
  | nil => exact .nil
  | cons hinner houter => exact .cons (hinner.put name value) houter

/-- A frame is open if one was laid and not dropped. -/
theorem isEmpty_told (h : List.Forall₂ Told frames written) :
    frames.isEmpty = written.isEmpty := by
  cases h with
  | nil => rfl
  | cons _ _ => rfl

/-- The innermost frame that has a name is told by the innermost log that has it. -/
theorem findSome?_told (h : List.Forall₂ Told frames written) (name : String) :
    frames.findSome? (Table.get? · name) = written.findSome? (List.lookup name) := by
  induction h with
  | nil => rfl
  | cons hinner _ ih => rw [List.findSome?_cons, List.findSome?_cons, hinner name, ih]

end Frames

/-- What a history tells of the frames of the loops. -/
theorem told_locals (past : List Act) :
    List.Forall₂ Told (reached data past).locals (localLogs past) := by
  induction past with
  | nil => exact .nil
  | cons act past ih =>
      unfold reached
      -- Frames are laid, dropped, and written to. All other acts leave them alone.
      cases act with
      | push frame => exact .cons (fun _ => rfl) ih
      | pop =>
          rw [step_pop]
          exact told_tail ih
      | setLocal name value =>
          simp only [Act.step, setLocal_locals, localLogs]
          exact told_modifyHead ih name value
      | assign name value => exact ih
      | increment name => exact ih
      | decrement name => exact ih
      | cycle key size => exact ih

/-- What a history tells of the globals. -/
theorem told_globals (past : List Act) :
    Told (reached data past).globals (globalLog data past) := by
  induction past with
  | nil => exact fun _ => rfl
  | cons act past ih =>
      unfold reached
      -- Written to by assigning, by counting, and by locals where no frame is open.
      cases act with
      | push frame => exact ih
      | pop =>
          rw [step_pop]
          exact ih
      | setLocal name value =>
          -- Whether a frame is open is told by the acts as well.
          have hopen := isEmpty_told (told_locals data past)
          simp only [Act.step, setLocal_globals, globalLog, hopen]
          split
          · exact ih.put name value
          · exact ih
      | assign name value => exact ih.put name value
      | increment name =>
          simp only [globalLog, Act.global?, ← count_increment data]
          exact ih.put name _
      | decrement name =>
          simp only [globalLog, Act.global?, ← count_decrement data]
          exact ih.put name _
      | cycle key size => exact ih

theorem told_frames (past : List Act) :
    List.Forall₂ Told (reached data past).frames (logs data past) :=
  List.rel_append (told_locals data past) (.cons (told_globals data past) .nil)

/-- An act writes a global by its name, a variable of the innermost frame, or neither. -/
theorem globals_step (past : List Act) (act : Act) (hopen : (reached data past).locals ≠ []) :
    (act.step (reached data past)).2.globals =
      (act.global? past).elim (reached data past).globals
        fun entry => (reached data past).globals.put entry.1 entry.2 := by
  -- With a frame open, a local is not written to the globals.
  cases act with
  | pop =>
      rw [step_pop]
      rfl
  | setLocal name value =>
      simp only [Act.step, setLocal_globals]
      rw [if_neg (by simpa using hopen)]
      rfl
  | increment name =>
      rw [Act.global?, ← count_increment data]
      rfl
  | decrement name =>
      rw [Act.global?, ← count_decrement data]
      rfl
  | push frame => rfl
  | assign name value => rfl
  | cycle key size => rfl

/-- An act that moves no frame leaves the outer ones alone. -/
theorem locals_step (act : Act) (stays : act.movesFrame = false) (scope : Scope)
    (frame : Table Value) (outer : List (Table Value)) (hlocals : scope.locals = frame :: outer) :
    ∃ frame', (act.step scope).2.locals = frame' :: outer := by
  -- Only the innermost frame is written to, and none is laid or dropped.
  cases act with
  | push frame' => exact nomatch stays
  | pop => exact nomatch stays
  | setLocal name value =>
      refine ⟨frame.put name value, ?_⟩
      simp only [Act.step, setLocal_locals, hlocals]
      rfl
  | assign name value => exact ⟨frame, hlocals⟩
  | increment name => exact ⟨frame, hlocals⟩
  | decrement name => exact ⟨frame, hlocals⟩
  | cycle key size => exact ⟨frame, hlocals⟩

/-- What is written is told piece by piece. -/
theorem named_append (past newer older : List Act) :
    named past (newer ++ older) = named (older ++ past) newer ++ named past older := by
  induction newer with
  | nil => rfl
  | cons act newer ih =>
      simp only [List.cons_append, named]
      rw [ih, List.append_assoc, List.append_assoc]

/-- Whether the acts, where a frame is open, change no frame but that one, and write globals by
name only. -/
def LeavesOuter (inner : List Act) : Prop :=
  ∀ past frame outer, (reached data past).locals = frame :: outer →
    (∃ frame', (reached data (inner ++ past)).locals = frame' :: outer) ∧
      (reached data (inner ++ past)).globals =
        (named past inner).foldr (fun entry table => table.put entry.1 entry.2)
          (reached data past).globals

/-- The frame that such acts may change is laid before them and removed after them. -/
theorem LeavesOuter.stretch {inner : List Act} (h : LeavesOuter data inner) (laid : Table Value)
    (past : List Act) :
    let back := reached data (.pop :: inner ++ .push laid :: past)
    back.locals = (reached data past).locals ∧
      back.globals = (named (.push laid :: past) inner).foldr
        (fun entry table => table.put entry.1 entry.2) (reached data past).globals := by
  intro back
  -- Inside of the stretch the frame that was laid is the innermost one, and dropping it leaves the
  -- others.
  rcases h (.push laid :: past) laid (reached data past).locals rfl with
    ⟨⟨last, hlocals⟩, hglobals⟩
  have hback : back = (reached data (inner ++ .push laid :: past)).drop := step_pop _
  rw [hback]
  exact ⟨congrArg List.tail hlocals, hglobals⟩

/-- A balanced stretch leaves the frames below alone, and writes what its acts name. -/
theorem leavesOuter_of_balanced {inner : List Act} (h : Balanced inner) :
    LeavesOuter data inner := by
  -- By how the stretch is balanced: nothing, an act more, or a stretch inside of it.
  induction h with
  | nil => exact fun past frame outer hlocals => ⟨⟨frame, hlocals⟩, rfl⟩
  | @act act inner stays _ ih =>
      intro past frame outer hlocals
      rcases ih past frame outer hlocals with ⟨⟨frame', hbefore⟩, hglobals⟩
      refine ⟨locals_step act stays _ frame' outer hbefore, ?_⟩
      have hstep := globals_step data (inner ++ past) act (by simp [hbefore])
      rw [named, List.foldr_append, ← hglobals]
      refine hstep.trans ?_
      cases act.global? (inner ++ past) with
      | none => rfl
      | some entry => rfl
  | @stretch laid inner before _ _ ihinner ihbefore =>
      intro past frame outer hlocals
      rcases ihbefore past frame outer hlocals with ⟨⟨frame', hbefore⟩, hglobals⟩
      rcases ihinner.stretch data laid (before ++ past) with ⟨hstretch, hwritten⟩
      rw [hglobals, ← List.foldr_append] at hwritten
      have happend : .pop :: inner ++ .push laid :: before ++ past =
          .pop :: inner ++ .push laid :: (before ++ past) := by
        rw [List.append_assoc, List.cons_append]
        rfl
      have hnamed : named past (.pop :: inner ++ .push laid :: before) =
          named (.push laid :: (before ++ past)) inner ++ named past before := by
        rw [named_append]
        rfl
      rw [happend, hnamed]
      exact ⟨⟨frame', hstretch.trans hbefore⟩, hwritten⟩

/-- What can be seen of a scope is what its history tells, for every history. There is always a
frame, and the last one is not removed: the attempt fails and leaves all as it was. A name stands
for the newest entry under it in the innermost log that has one. Balanced acts between laying a
frame and removing it leave the frames as they were and the globals with what was written to them
by name. A counter gives how often it went up less how often it went down, and a cycle goes through
its positions in turn, whatever came between. -/
theorem reached_eq_history (past : List Act) :
    let scope := reached data past
    (scope.frames ≠ [] ∧ scope.frames.length = (logs data past).length) ∧
      (scope.frames.length = 1 → Act.pop.step scope = (.error .onlyGlobals, scope)) ∧
      (∀ frame outer, scope.frames = frame :: outer → outer ≠ [] →
        (Act.pop.step scope).1 = .ok (.frame frame) ∧ (Act.pop.step scope).2.frames = outer) ∧
      (∀ name, scope.lookup name = ((logs data past).findSome? (List.lookup name)).getD .nil) ∧
      (∀ frame inner, Balanced inner →
        let back := reached data (.pop :: inner ++ .push frame :: past)
        back.locals = scope.locals ∧
          back.globals = (named (.push frame :: past) inner).foldr
            (fun entry table => table.put entry.1 entry.2) scope.globals) ∧
      (∀ name,
        ((Act.increment name).step scope).1 = .ok (.number (net name (.increment name :: past))) ∧
        ((Act.decrement name).step scope).1 = .ok (.number (net name (.decrement name :: past)))) ∧
      ∀ key size, size ≠ 0 →
        ((Act.cycle key size).step scope).1 =
          .ok (.number (Int.fmod ((asked key (.cycle key size :: past) : Int) - 1) size)) := by
  intro scope
  -- Every frame is what the log of its level tells.
  have hframes : List.Forall₂ Told scope.frames (logs data past) := told_frames data past
  refine ⟨⟨?_, hframes.length_eq⟩, ?_, ?_, ?_, ?_, ?_, ?_⟩
  · exact List.concat_ne_nil _ _
  · exact pop_of_length scope
  · exact fun _ _ => pop_of_cons scope
  · intro name
    unfold Scope.lookup
    rw [findSome?_told hframes name]
  · intro frame inner hinner
    exact (leavesOuter_of_balanced data hinner).stretch data frame past
  · intro name
    rw [← count_increment data, ← count_decrement data]
    exact ⟨rfl, rfl⟩
  · exact fun key _ => number_cycle data past key

/-- A counter goes on from where it was although its global was overwritten, and is hidden meanwhile
by a variable of the frame. A cycle goes on although it was asked over another number of values. -/
theorem reached_eq_history_hidden :
    let past : List Act :=
      [.cycle "row" 5, .assign "n" (.string "over"), .cycle "row" 2, .increment "n"]
    let inner : List Act := [.increment "n", .setLocal "n" .nil]
    let back := reached [] (.pop :: inner ++ .push [("n", .bool true)] :: past)
    (reached [] past).frames.length = 1 ∧ Balanced inner ∧ (3 : Int) ≠ 0 ∧
      (reached [] past).lookup "n" = .string "over" ∧
      (Act.pop.step (reached [] past)) = (.error .onlyGlobals, reached [] past) ∧
      back.locals = [] ∧ back.globals = [("n", .integer 2)] ∧
      ((Act.cycle "row" 3).step (reached [] past)).1 = .ok (.number 2) := by
  intro past inner back
  rcases reached_eq_history [] past with ⟨_, hpop, _, hlookup, hstretch, _, hcycle⟩
  -- Counting inside of the stretch writes to the globals, though the name is hidden there.
  have hinner : Balanced inner := .act rfl (.act rfl .nil)
  rcases hstretch [("n", .bool true)] inner hinner with ⟨hlocals, hglobals⟩
  refine ⟨rfl, hinner, by decide, hlookup "n", hpop rfl, hlocals, hglobals, ?_⟩
  exact hcycle "row" 3 (by decide)

end Reached

end Scope

end Liquid
