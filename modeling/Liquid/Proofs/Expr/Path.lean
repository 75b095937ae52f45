import Liquid.Proofs.Expr.Word

/-!
# Ways to Write a Path

A step of a path whose key is a name or an index can be written behind a point
or between brackets. Each step of a path is written in the one way or the other,
and the expression that the source is does not tell in which.

There is one exception. Two indices in a row that both stand behind a point have
digits, a point and digits at their seam, which is a decimal number, and that is
no step. So such a source is refused. A name between the indices keeps them
apart, and so does a bracket. No other source is refused, except for an index
with too many digits to be read, which is a crash in both ways.

## Main definitions

* `Lexeme.Name`: A name of the expression language.
* `Path.Step`: A step and the way in which it is written.
* `Path.Apart`: Steps that can stand next to each other.
* `Path.Step.IsShort`: Steps whose index can be read.
* `Path.Reading`: What steps are read as, or why they are not.
* `Path.source`: The text of a path.

## Theorems

* `Path.scans_steps`: The lexemes of steps, and what is read of them.
* `Path.parse_source`: A path in any of its ways is the path, or is refused.
-/

namespace Liquid

/-- A name of the expression language. -/
structure Lexeme.Name where
  chars : List Char
  isName : Lexeme.IsName chars

/-- The text of the name. -/
def Lexeme.Name.text (name : Lexeme.Name) : String :=
  String.ofList name.chars

namespace Path

open Grammar (Property Written)
open Lexeme (Starts)

/-- The two ways in which a step is written. -/
inductive Style
  | point
  | bracket
deriving DecidableEq

/-- A step with a key that is written out, and the way in which it is written. -/
inductive Step
  | field (style : Style) (name : Lexeme.Name)
  | index (style : Style) (n : Nat)

namespace Step

/-- The step without the way in which it is written. -/
def accessor : Step → Accessor
  | field _ name => .field name.text
  | index _ n => .index n

/-- The text of the step. -/
def chars : Step → List Char
  | field .point name => '.' :: name.chars
  | field .bracket name => '[' :: ('"' :: (name.chars ++ ['"']) ++ [']'])
  | index .point n => '.' :: (toString n).toList
  | index .bracket n => '[' :: ((toString n).toList ++ [']'])

/-- Whether the step is an index behind a point. -/
def isPointedIndex : Step → Bool
  | index .point _ => true
  | _ => false

/-- Whether an index of the step has no more digits than are read. -/
def IsShort : Step → Prop
  | field _ _ => True
  | index _ n => Decimal.digitCount n ≤ 4300

instance : DecidablePred IsShort
  | field _ _ => inferInstanceAs (Decidable True)
  | index _ _ => inferInstanceAs (Decidable (_ ≤ _))

end Step

/-- Two steps that are not both an index behind a point. -/
def Apart (step next : Step) : Prop :=
  ¬(step.isPointedIndex = true ∧ next.isPointedIndex = true)

instance : DecidableRel Apart :=
  fun _ _ => inferInstanceAs (Decidable (¬(_ ∧ _)))

/-- The text of the steps. -/
def stepsText (steps : List Step) : List Char :=
  steps.flatMap Step.chars

/-- The text of a path. -/
def source (root : Lexeme.Name) (steps : List Step) : String :=
  String.ofList (root.chars ++ stepsText steps)

/-- The reading of steps behind another one. -/
def behind (step : Accessor) (outcome : Except Expr.Fault (List Accessor × List Lexeme)) :
    Except Expr.Fault (List Accessor × List Lexeme) :=
  outcome.map fun (steps, rest) => (step :: steps, rest)

/-- What steps are read as, or the fault of the first of them that is none. -/
inductive Reading : List Step → Except Expr.Fault (List Accessor × List Lexeme) → Prop
  | nil : Reading [] (.ok ([], []))
  | cons {step : Step} {steps : List Step}
      {outcome : Except Expr.Fault (List Accessor × List Lexeme)} :
      (∀ next ∈ steps.head?, Apart step next) → step.IsShort → Reading steps outcome →
      Reading (step :: steps) (behind step.accessor outcome)
  | long {style : Style} {n : Nat} {steps : List Step} :
      (∀ next ∈ steps.head?, Apart (.index style n) next) → 4300 < Decimal.digitCount n →
      Reading (.index style n :: steps) (.error (.longInteger (Decimal.digitCount n)))
  | decimal {step next : Step} {steps : List Step} :
      ¬Apart step next → Reading (step :: next :: steps) (.error .noPropertyName)

/-- Whether the lexemes are read as the steps, where they may be so deep and long at least. -/
def Reads (outcome : Except Expr.Fault (List Accessor × List Lexeme)) (ls : List Lexeme) : Prop :=
  ∀ depth rounds, ls.length ≤ depth → ls.length ≤ rounds →
    Parser.steps (Parser.primary depth) rounds ls = outcome

/-- Whether the text has lexemes of which the given holds, wherever it stands. -/
def Scans (holds : List Lexeme → Prop) (cs : List Char) : Prop :=
  ∀ offset, ∃ ls stop, Lexeme.scanFrom offset cs = .ok (ls ++ [stop]) ∧ holds ls

section Reading

variable {step : Step} {steps : List Step}

/-- Steps that can all stand where they do are read as themselves. -/
theorem Reading.eq_ok {outcome : Except Expr.Fault (List Accessor × List Lexeme)}
    (h : Reading steps outcome) (hchain : steps.IsChain Apart)
    (hshort : ∀ step ∈ steps, step.IsShort) : outcome = .ok (steps.map Step.accessor, []) := by
  induction h with
  | nil => rfl
  | cons _ _ _ ih =>
      rw [ih hchain.tail fun step hstep => hshort step (List.mem_cons_of_mem _ hstep)]
      rfl
  | long _ hlong => exact absurd (hshort _ List.mem_cons_self) (Nat.not_le.mpr hlong)
  | decimal hdecimal => exact absurd (List.isChain_cons_cons.mp hchain).1 hdecimal

/-- Steps of which two are a decimal are refused, if no index that stands before them is long. -/
theorem Reading.eq_error {outcome : Except Expr.Fault (List Accessor × List Lexeme)}
    (h : Reading steps outcome) (hchain : ¬steps.IsChain Apart)
    (hshort : ∀ step ∈ steps, step.IsShort) : outcome = .error .noPropertyName := by
  induction h with
  | nil => exact absurd List.isChain_nil hchain
  | cons hapart _ _ ih =>
      have hsteps := fun htail => hchain (List.isChain_cons.mpr ⟨hapart, htail⟩)
      rw [ih hsteps fun step hstep => hshort step (List.mem_cons_of_mem _ hstep)]
      rfl
  | long _ hlong => exact absurd (hshort _ List.mem_cons_self) (Nat.not_le.mpr hlong)
  | decimal => rfl

/-- No steps with a long index are read. Either the index is a crash, or a decimal is refused. -/
theorem Reading.exists_error {outcome : Except Expr.Fault (List Accessor × List Lexeme)}
    (h : Reading steps outcome) (hlong : ∃ step ∈ steps, ¬step.IsShort) :
    ∃ fault, outcome = .error fault ∧ (fault = .noPropertyName ∨ fault.crash?.isSome) := by
  -- The first step that cannot be read decides, and the ones before it can.
  induction h with
  | nil =>
      rcases hlong with ⟨_, hstep, _⟩
      cases hstep
  | cons _ hshort _ ih =>
      rcases hlong with ⟨step, hstep, hlong⟩
      rcases List.mem_cons.mp hstep with rfl | hstep
      · exact absurd hshort hlong
      · rcases ih ⟨step, hstep, hlong⟩ with ⟨fault, rfl, hfault⟩
        exact ⟨fault, rfl, hfault⟩
  | long => exact ⟨_, rfl, .inr rfl⟩
  | decimal => exact ⟨_, rfl, .inl rfl⟩

variable {point opening key closing : Lexeme} {accessor : Accessor} {ls : List Lexeme}
  {outcome : Except Expr.Fault (List Accessor × List Lexeme)}

/-- Without steps nothing is read. -/
theorem reads_nil : Reads (.ok ([], [])) [] :=
  fun _ _ _ _ => Grammar.steps_nil Grammar.free_nil _

/-- A point and a key are one step in front of the others. -/
theorem reads_point (hpoint : point.IsSymbol ".") (hkey : Property key accessor)
    (h : Reads outcome ls) : Reads (behind accessor outcome) (point :: key :: ls) := by
  intro depth rounds hdepth hrounds
  cases rounds with
  | zero => cases hrounds
  | succ rounds =>
      simp only [List.length_cons] at hdepth hrounds
      have hread := h depth rounds (by omega) (by omega)
      rw [Parser.steps, Grammar.symbol?_of_isSymbol hpoint]
      simp only [Grammar.property_of_derived hkey]
      change (Parser.steps _ rounds ls >>= _) = _
      rw [hread]
      cases outcome <;> rfl

/-- Brackets and a key are one step in front of the others. -/
theorem reads_bracket (hopening : opening.IsSymbol "[") (hkey : Written [key] accessor)
    (hclosing : closing.IsSymbol "]") (h : Reads outcome ls) :
    Reads (behind accessor outcome) (opening :: key :: closing :: ls) := by
  intro depth rounds hdepth hrounds
  cases rounds with
  | zero => cases hrounds
  | succ rounds =>
      simp only [List.length_cons] at hdepth hrounds
      have hread := h depth rounds (by omega) (by omega)
      -- A bracket is no point, so the parser looks for the second kind of step.
      have hfree : Grammar.Free ["."] (opening :: key :: closing :: ls) :=
        Grammar.free_of_isSymbol hopening (by decide)
      rw [Parser.steps, hfree "." (by decide), Grammar.symbol?_of_isSymbol hopening]
      simp only [Grammar.bracket_written hkey hclosing]
      change (Parser.steps _ rounds ls >>= _) = _
      rw [hread]
      cases outcome <;> rfl

/-- What is no property is none whatever stands behind it. -/
theorem reads_point_error {fault : Expr.Fault} (hpoint : point.IsSymbol ".")
    (hkey : Parser.property (key :: ls) = .error fault) :
    Reads (.error fault) (point :: key :: ls) := by
  intro depth rounds _ hrounds
  cases rounds with
  | zero => cases hrounds
  | succ rounds =>
      rw [Parser.steps, Grammar.symbol?_of_isSymbol hpoint]
      simp only [hkey]
      rfl

/-- A decimal is no key. -/
theorem property_decimal (hkey : key.kind = .decimal) :
    Parser.property (key :: ls) = .error .noPropertyName := by
  simp [Parser.property, hkey]

section Long

variable (hkey : key.kind = .integer) (hlong : Parser.integerOf? key.text = none)

include hkey hlong

/-- An index with too many digits stops the reading. -/
theorem property_long : Parser.property (key :: ls) = .error (Parser.tooLong key) := by
  simp [Parser.property, hkey, hlong]

/-- Between brackets a long index is not written out, and it is no expression either. -/
theorem reads_bracket_long (hopening : opening.IsSymbol "[") :
    Reads (.error (Parser.tooLong key)) (opening :: key :: closing :: ls) := by
  intro depth rounds hdepth hrounds
  rcases depth with _ | depth
  · cases hdepth
  rcases rounds with _ | rounds
  · cases hrounds
  have hnone : Parser.literal? key = none := by
    simp [Parser.literal?, hkey, hlong]
  -- Since the index is no literal, the parser goes on to compute it, and is refused there.
  have hprimary : Parser.primary (depth + 1) (key :: closing :: ls) =
      .error (Parser.tooLong key) := by
    simp [Parser.primary, hnone, Parser.refusal, hkey]
  have hbracket : Parser.bracket (Parser.primary (depth + 1)) (key :: closing :: ls) =
      .error (Parser.tooLong key) := by
    simp only [Parser.bracket, hnone, Parser.logical, Parser.comparison, Parser.filtered, hprimary]
    split <;> rfl
  have hfree : Grammar.Free ["."] (opening :: key :: closing :: ls) :=
    Grammar.free_of_isSymbol hopening (by decide)
  rw [Parser.steps, hfree "." (by decide), Grammar.symbol?_of_isSymbol hopening]
  simp only [hbracket]
  rfl

end Long

end Reading

section Scanning

variable {holds holds' : List Lexeme → Prop}

theorem scans_nil (h : holds []) : Scans holds [] :=
  fun offset => ⟨[], _, by rw [Lexeme.scanFrom]; rfl, h⟩

/-- What holds of all that is scanned may be weakened. -/
theorem Scans.mono {cs : List Char} (hscans : Scans holds cs) (h : ∀ ls, holds ls → holds' ls) :
    Scans holds' cs := by
  intro offset
  rcases hscans offset with ⟨ls, stop, hls, hholds⟩
  exact ⟨ls, stop, hls, h ls hholds⟩

/-- A word at the start of a text gives one lexeme. -/
theorem Scans.cons {word rest : List Char} {kind : Lexeme.Kind} {text : String}
    (hword : Starts word rest kind text)
    (hrest : Scans (fun ls => ∀ offset, holds (⟨kind, text, offset⟩ :: ls)) rest) :
    Scans holds (word ++ rest) := by
  intro offset
  rcases hword offset with ⟨next, hnext⟩
  rcases hrest next with ⟨ls, stop, hls, hholds⟩
  refine ⟨⟨kind, text, offset⟩ :: ls, stop, ?_, hholds offset⟩
  rw [hnext, hls]
  rfl

end Scanning

section Steps

variable {steps : List Step}

theorem stepsText_cons (step : Step) (steps : List Step) :
    stepsText (step :: steps) = step.chars ++ stepsText steps :=
  List.flatMap_cons

/-- The digits of an index are as the grammar writes them. -/
theorem written_toString (n : Nat) : Text.Written (toString n).toList := by
  rw [show (toString n).toList = Nat.toDigits 10 n from Nat.toList_repr]
  exact Text.Written.toDigits n

theorem whole_toString {n : Nat} (h : Decimal.digitCount n ≤ 4300) :
    Grammar.Whole (String.ofList (toString n).toList) n := by
  rw [String.ofList_toList]
  exact Value.whole_toString (n := n) h

/-- An index with too many digits is no integer. -/
theorem integerOf?_of_long {n : Nat} (h : 4300 < Decimal.digitCount n) :
    Parser.integerOf? (String.ofList (toString n).toList) = none := by
  rw [String.ofList_toList]
  exact Grammar.integerOf?_of_long ((Value.countP_toString n).symm ▸ h)

/-- The fault of a long index tells how many digits it has. -/
theorem tooLong_toString (n offset : Nat) :
    Parser.tooLong ⟨.integer, String.ofList (toString n).toList, offset⟩ =
      .longInteger (Decimal.digitCount n) := by
  rw [Parser.tooLong, String.ofList_toList]
  exact congrArg _ (Value.countP_toString n)

/-- A name has no quote in it. -/
theorem quote_notMem (name : Lexeme.Name) : '"' ∉ name.chars := by
  have hname := name.isName
  intro hquote
  generalize name.chars = cs at hname hquote
  cases hname with
  | @mk first inside mark hfirst hinside hmark =>
      rcases List.mem_cons.mp hquote with rfl | hquote
      · exact absurd hfirst (by decide)
      rcases List.mem_append.mp hquote with hquote | hquote
      · exact absurd (hinside _ hquote) (by decide)
      · rcases hmark with rfl | rfl
        · cases hquote
        · exact absurd hquote (by decide)

/-- A point or a bracket ends what stands in front of it. -/
theorem mem_closers_stepsText (steps : List Step) :
    ∀ c ∈ (stepsText steps).head?, c ∈ Lexeme.closers := by
  cases steps with
  | nil => intro c hc; cases hc
  | cons step steps =>
      intro c hc
      rcases step with ⟨_ | _, name⟩ | ⟨_ | _, n⟩ <;> cases hc <;> decide

/-- Behind a point there is a name or a digit, but no other point. -/
theorem starts_point_index (n : Nat) (rest : List Char) :
    Starts ['.'] ((toString n).toList ++ rest) .symbol "." := by
  refine Lexeme.starts_point ?_
  have hwritten := written_toString n
  generalize (toString n).toList = cs at hwritten
  cases cs with
  | nil => exact absurd rfl hwritten.ne_nil
  | cons c cs =>
      intro hhead
      cases hhead
      exact absurd (hwritten.digit _ List.mem_cons_self) (by decide)

/-- Only an index behind a point would go on with a number. -/
theorem closes_stepsText (h : ∀ next ∈ steps.head?, next.isPointedIndex = false) :
    Lexeme.Closes (stepsText steps) := by
  cases steps with
  | nil => exact Lexeme.closes_nil
  | cons step steps =>
      rcases step with ⟨_ | _, name⟩ | ⟨_ | _, n⟩
      · exact Lexeme.closes_point_name name.isName _
      · exact Lexeme.closes_cons (by decide) (by decide) _
      · cases h _ rfl
      · exact Lexeme.closes_cons (by decide) (by decide) _

section Index

variable {n : Nat} {holds : List Lexeme → Prop}

/-- The lexemes of an index behind a point. -/
theorem scans_point_index (hpoint : ∀ next ∈ steps.head?, next.isPointedIndex = false)
    (hsteps : Scans (fun ls => ∀ offset offset', holds (⟨.symbol, ".", offset⟩ ::
      ⟨.integer, String.ofList (toString n).toList, offset'⟩ :: ls)) (stepsText steps)) :
    Scans holds (stepsText (.index .point n :: steps)) := by
  have hnumber := Lexeme.starts_number
    (Lexeme.Shown.integer false (written_toString n)).number ((closes_stepsText hpoint).stops _)
  change Scans _ (['.'] ++ ((toString n).toList ++ stepsText steps))
  exact Scans.cons (starts_point_index n _)
    (Scans.cons hnumber (hsteps.mono fun _ h offset' offset => h offset offset'))

/-- The lexemes of an index between brackets. -/
theorem scans_bracket_index
    (hsteps : Scans (fun ls => ∀ offset offset' offset'', holds (⟨.symbol, "[", offset⟩ ::
      ⟨.integer, String.ofList (toString n).toList, offset'⟩ :: ⟨.symbol, "]", offset''⟩ :: ls))
      (stepsText steps)) :
    Scans holds (stepsText (.index .bracket n :: steps)) := by
  have hcloses : Lexeme.Closes (']' :: stepsText steps) :=
    Lexeme.closes_cons (by decide) (by decide) _
  have hnumber := Lexeme.starts_number
    (Lexeme.Shown.integer false (written_toString n)).number (hcloses.stops _)
  rw [stepsText_cons, Step.chars, List.cons_append, List.append_assoc]
  exact Scans.cons (Lexeme.starts_symbol ['['] _ (by decide) (by decide)) (Scans.cons hnumber
    (Scans.cons (Lexeme.starts_symbol [']'] _ (by decide) (by decide))
      (hsteps.mono fun _ h offset'' offset' offset => h offset offset' offset'')))

end Index

/-- Only an index behind a point makes a decimal of one. -/
theorem not_isPointedIndex_of_apart {n : Nat}
    (hapart : ∀ next ∈ steps.head?, Apart (.index .point n) next) :
    ∀ next ∈ steps.head?, next.isPointedIndex = false := by
  intro next hnext
  rw [← Bool.not_eq_true]
  exact fun h => hapart next hnext ⟨rfl, h⟩

/-- What a step is read as that no index behind a point makes a decimal of. -/
theorem scans_step {step : Step} (hapart : ∀ next ∈ steps.head?, Apart step next)
    (hshort : step.IsShort) {outcome : Except Expr.Fault (List Accessor × List Lexeme)}
    (hsteps : Scans (Reads outcome) (stepsText steps)) :
    Scans (Reads (behind step.accessor outcome)) (stepsText (step :: steps)) := by
  have hends := Lexeme.ends_of_mem_closers (mem_closers_stepsText steps)
  -- By the style of the step, and by whether it is a name or an index.
  rcases step with ⟨_ | _, name⟩ | ⟨_ | _, n⟩
  · have hname := Lexeme.starts_name name.isName hends
    change Scans _ (['.'] ++ (name.chars ++ stepsText steps))
    refine Scans.cons (Lexeme.starts_point_name name.isName _) (Scans.cons hname ?_)
    exact hsteps.mono fun ls h _ _ => reads_point ⟨rfl, rfl⟩ (.name (Lexeme.nameKind_cases _)) h
  · rw [stepsText_cons, Step.chars, List.cons_append, List.append_assoc]
    refine Scans.cons (Lexeme.starts_symbol ['['] _ (by decide) (by decide))
      (Scans.cons (Lexeme.starts_quoted (.inl rfl) (quote_notMem name) _)
        (Scans.cons (Lexeme.starts_symbol [']'] _ (by decide) (by decide)) ?_))
    exact hsteps.mono fun ls h _ _ _ => reads_bracket ⟨rfl, rfl⟩ (.field rfl) ⟨rfl, rfl⟩ h
  · exact scans_point_index (not_isPointedIndex_of_apart hapart) (hsteps.mono fun ls h _ _ =>
      reads_point ⟨rfl, rfl⟩ (.index rfl (whole_toString hshort)) h)
  · exact scans_bracket_index (hsteps.mono fun ls h _ _ _ =>
      reads_bracket ⟨rfl, rfl⟩ (.index rfl (whole_toString hshort)) ⟨rfl, rfl⟩ h)

/-- A long index is a crash in both ways, whatever stands behind it. -/
theorem scans_long {style : Style} {n : Nat}
    (hapart : ∀ next ∈ steps.head?, Apart (.index style n) next)
    (hlong : 4300 < Decimal.digitCount n) (hsteps : Scans (fun _ => True) (stepsText steps)) :
    Scans (Reads (.error (.longInteger (Decimal.digitCount n))))
      (stepsText (.index style n :: steps)) := by
  -- The lexeme is the same as that of a short index, but it is no integer.
  have hnone := integerOf?_of_long hlong
  cases style with
  | point =>
      refine scans_point_index (not_isPointedIndex_of_apart hapart) ?_
      refine hsteps.mono fun ls _ _ offset => ?_
      rw [← tooLong_toString n offset]
      exact reads_point_error ⟨rfl, rfl⟩ (property_long rfl hnone)
  | bracket =>
      refine scans_bracket_index (hsteps.mono fun ls _ _ offset _ => ?_)
      rw [← tooLong_toString n offset]
      exact reads_bracket_long rfl hnone ⟨rfl, rfl⟩

/-- Two indices behind points are a decimal behind a point, whatever stands behind them. -/
theorem scans_decimal {n m : Nat} (hsteps : Scans (fun _ => True) (stepsText steps)) :
    Scans (Reads (.error .noPropertyName))
      (stepsText (.index .point n :: .index .point m :: steps)) := by
  have hdecimal := Lexeme.starts_number
    (Lexeme.Shown.decimal false (written_toString n) (written_toString m)).number
    ⟨Lexeme.not_isDigit_of_mem_closers (mem_closers_stepsText steps), fun h => by cases h⟩
  -- The point between the two is taken for that of a decimal.
  have htext : stepsText (.index .point n :: .index .point m :: steps) =
      ['.'] ++ (((toString n).toList ++ '.' :: (toString m).toList) ++ stepsText steps) := by
    simp only [stepsText_cons, Step.chars, List.cons_append, List.append_assoc, List.nil_append]
  have hpoint : Starts ['.'] (((toString n).toList ++ '.' :: (toString m).toList) ++
      stepsText steps) .symbol "." := by
    rw [List.append_assoc]
    exact starts_point_index n _
  rw [htext]
  refine Scans.cons hpoint (Scans.cons hdecimal ?_)
  exact hsteps.mono fun _ _ _ _ => reads_point_error ⟨rfl, rfl⟩ (property_decimal rfl)

/-- Steps of which the first is apart from the others are read if the others are. -/
theorem scans_apart {step : Step} (hapart : ∀ next ∈ steps.head?, Apart step next)
    {outcome : Except Expr.Fault (List Accessor × List Lexeme)} (hreading : Reading steps outcome)
    (hscans : Scans (Reads outcome) (stepsText steps)) :
    ∃ outcome, Reading (step :: steps) outcome ∧
      Scans (Reads outcome) (stepsText (step :: steps)) := by
  by_cases hshort : step.IsShort
  · exact ⟨_, .cons hapart hshort hreading, scans_step hapart hshort hscans⟩
  · cases step with
    | field => exact absurd trivial hshort
    | index style n =>
        have hlong := Nat.not_le.mp hshort
        exact ⟨_, .long hapart hlong, scans_long hapart hlong (hscans.mono fun _ _ => trivial)⟩

/-- The text of steps has lexemes, of which the steps are read, or a fault. -/
theorem scans_steps (steps : List Step) :
    ∃ outcome, Reading steps outcome ∧ Scans (Reads outcome) (stepsText steps) := by
  match steps with
  | [] => exact ⟨_, .nil, scans_nil reads_nil⟩
  | [step] => exact scans_apart (by simp) .nil (scans_nil reads_nil)
  | step :: next :: rest =>
      by_cases hapart : Apart step next
      · rcases scans_steps (next :: rest) with ⟨outcome, hreading, hscans⟩
        refine scans_apart ?_ hreading hscans
        intro other hother
        cases hother
        exact hapart
      · rcases scans_steps rest with ⟨_, _, hscans⟩
        rcases not_not.mp hapart with ⟨hstep, hnext⟩
        refine ⟨_, .decimal hapart, ?_⟩
        rcases step with _ | ⟨_ | _, n⟩ <;> cases hstep
        rcases next with _ | ⟨_ | _, m⟩ <;> cases hnext
        -- The steps behind the decimal are never reached, but they must have lexemes.
        exact scans_decimal (hscans.mono fun _ _ => trivial)

end Steps

section Source

variable {root : Lexeme} {ls : List Lexeme}

/-- A name in front of steps is a path. -/
theorem primary_of_reads {outcome : Except Expr.Fault (List Accessor × List Lexeme)}
    (hroot : root.kind = .identifier) (h : Reads outcome ls) :
    Parser.primary (ls.length + 1) (root :: ls) =
      outcome.map fun (steps, rest) => (.path root.text steps, rest) := by
  have hread := h ls.length ls.length (Nat.le_refl _) (Nat.le_refl _)
  rw [Parser.primary, Grammar.literal?_of_identifier hroot]
  simp only [hroot, beq_self_eq_true, if_true, hread]
  cases outcome <;> rfl

/-- A path that ends with the source is an expression. -/
theorem expression_of_reads_ok {steps : List Accessor} (hroot : root.kind = .identifier)
    (h : Reads (.ok (steps, [])) ls) :
    Parser.expression (root :: ls) = .ok (.path root.text steps, []) :=
  Grammar.logical_of_primary (primary_of_reads hroot h) Grammar.ends_nil

/-- A path that cannot be read makes the expression fail. -/
theorem expression_of_reads_error {fault : Expr.Fault} (hroot : root.kind = .identifier)
    (h : Reads (.error fault) ls) : Parser.expression (root :: ls) = .error fault := by
  change Parser.logical (Parser.primary (ls.length + 1)) (root :: ls) = _
  rw [Parser.logical, Parser.comparison, Parser.filtered, primary_of_reads hroot h]
  rfl

end Source

/-- The lexemes of a path are its root and what is read as its steps. -/
theorem body_source (root : Lexeme.Name) (hroot : root.text ∉ Lexeme.keywords)
    (steps : List Step) :
    ∃ l ls outcome, Lexeme.body (source root steps) = .ok (l :: ls) ∧ l.kind = .identifier ∧
      l.text = root.text ∧ Reading steps outcome ∧ Reads outcome ls := by
  have hname := Lexeme.starts_name root.isName
    (Lexeme.ends_of_mem_closers (mem_closers_stepsText steps))
  rw [← Lexeme.Name.text, Lexeme.nameKind_eq_identifier_iff.mpr hroot] at hname
  rcases scans_steps steps with ⟨outcome, hreading, hsteps⟩
  -- The root is scanned first, and the steps from where it ends.
  rcases hname 0 with ⟨next, hnext⟩
  rcases hsteps next with ⟨ls, stop, hls, hreads⟩
  refine ⟨⟨.identifier, root.text, 0⟩, ls, outcome, ?_, rfl, rfl, hreading, hreads⟩
  rw [Lexeme.body, Lexeme.scan, source, String.toList_ofList, hnext, hls]
  change Except.ok (List.dropLast (_ :: ls ++ [stop])) = _
  rw [List.dropLast_concat]

/-- The source of a path is read as the path, in whichever of its ways each step is written, unless
two indices behind points stand next to each other. Such a source is always refused. An index with
too many digits is not read in any way. -/
theorem parse_source (root : Lexeme.Name) (hroot : root.text ∉ Lexeme.keywords)
    (steps : List Step) :
    ((∀ step ∈ steps, step.IsShort) →
      (steps.IsChain Apart →
        Expr.parse (source root steps) = .ok (.path root.text (steps.map Step.accessor))) ∧
        (¬steps.IsChain Apart → Expr.parse (source root steps) = .error .noPropertyName)) ∧
      ((∃ step ∈ steps, ¬step.IsShort) →
        ∃ fault, Expr.parse (source root steps) = .error fault ∧
          (fault = .noPropertyName ∨ fault.crash?.isSome)) := by
  rcases body_source root hroot steps with ⟨l, ls, outcome, hbody, hkind, htext, hreading, hreads⟩
  -- A fault in the steps is that of the expression.
  have herror {fault : Expr.Fault} (hfault : outcome = .error fault) :
      Expr.parse (source root steps) = .error fault := by
    subst hfault
    rw [Expr.parse, Expr.parseWith, hbody]
    change (Parser.expression (l :: ls) >>= _) = _
    rw [expression_of_reads_error hkind hreads]
    rfl
  refine ⟨fun hshort => ⟨fun hchain => ?_, fun hchain => ?_⟩, fun hlong => ?_⟩
  · have hok := hreading.eq_ok hchain hshort
    subst hok
    rw [← htext]
    exact (Grammar.parse_eq_ok_iff hbody).mpr
      (Grammar.expression_eq_ok_iff.mp (expression_of_reads_ok hkind hreads))
  · exact herror (hreading.eq_error hchain hshort)
  · rcases hreading.exists_error hlong with ⟨fault, hfault, hcause⟩
    exact ⟨fault, herror hfault, hcause⟩

/-- In `a.1["b-c"].nil[0].2` there are keys of both kinds in both ways, and a keyword as a name. -/
theorem parse_source_mixed :
    let root : Lexeme.Name := ⟨['a'], @Lexeme.IsName.mk 'a' [] [] (by decide) (by simp) (.inl rfl)⟩
    let hyphen : Lexeme.Name :=
      ⟨['b', '-', 'c'],
        @Lexeme.IsName.mk 'b' ['-', 'c'] [] rfl (List.all_eq_true.mp rfl) (.inl rfl)⟩
    let keyword : Lexeme.Name :=
      ⟨['n', 'i', 'l'],
        @Lexeme.IsName.mk 'n' ['i', 'l'] [] rfl (List.all_eq_true.mp rfl) (.inl rfl)⟩
    let steps : List Step := [.index .point 1, .field .bracket hyphen, .field .point keyword,
      .index .bracket 0, .index .point 2]
    root.text ∉ Lexeme.keywords ∧ steps.IsChain Apart ∧ (∀ step ∈ steps, step.IsShort) ∧
      source root steps = "a.1[\"b-c\"].nil[0].2" ∧
      Expr.parse "a.1[\"b-c\"].nil[0].2" =
        .ok (.path "a" [.index 1, .field "b-c", .field "nil", .index 0, .index 2]) := by
  intro root hyphen keyword steps
  have hroot : root.text ∉ Lexeme.keywords := by decide
  -- No index with a point stands behind another one.
  have hchain : steps.IsChain Apart := by decide
  have hshort : ∀ step ∈ steps, step.IsShort := by decide
  have hsource : source root steps = "a.1[\"b-c\"].nil[0].2" := by decide
  refine ⟨hroot, hchain, hshort, hsource, ?_⟩
  rw [← hsource]
  exact ((parse_source root hroot steps).1 hshort).1 hchain

/-- Two indices behind points are not the two indices between brackets. -/
theorem parse_pointed_indices :
    Expr.parse "a.1.2" = .error .noPropertyName ∧
      Expr.parse "a[1][2]" = .ok (.path "a" [.index 1, .index 2]) := by
  have hpoints : Lexeme.body "a.1.2" =
      .ok [⟨.identifier, "a", 0⟩, ⟨.symbol, ".", 1⟩, ⟨.decimal, "1.2", 2⟩] := by decide +kernel
  have hbrackets : Lexeme.body "a[1][2]" =
      .ok [⟨.identifier, "a", 0⟩, ⟨.symbol, "[", 1⟩, ⟨.integer, "1", 2⟩, ⟨.symbol, "]", 3⟩,
        ⟨.symbol, "[", 4⟩, ⟨.integer, "2", 5⟩, ⟨.symbol, "]", 6⟩] := by decide +kernel
  constructor
  · rw [Expr.parse, Expr.parseWith, hpoints]
    rfl
  · rw [Expr.parse, Expr.parseWith, hbrackets]
    rfl

end Path

end Liquid
