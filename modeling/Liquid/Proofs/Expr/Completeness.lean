import Liquid.Proofs.Expr.Soundness

/-!
# What is Derived is Read

A rule reads what its relation derives and leaves what stands behind it. What
may stand there is part of each statement, because the rules go on as long as
they can: a path takes every step that follows it, a list of arguments every
comma, a comparison an operator. So each rule asks that what is left starts with
nothing that the rule itself would go on with. What a rule needs of its parts
follows from the lexeme that separates them.

The bounds are met as long as they are not below the number of lexemes that are
derived. The depth goes down by a lexeme at least with each nesting, and the
rounds with each repetition.

One part is not told by what follows it alone. A key in brackets that is one
literal is not read as an expression, so an expression in brackets must not look
like one at its start. It does not, because reading the literal would end at the
bracket.

## Main definitions

* `Grammar.Free`: Lexemes that do not start with given punctuation.
* `Grammar.Ends`: Lexemes that can stand behind an expression.

## Theorems

* `Grammar.primary_complete`, `Grammar.logical_complete`: The rules are
  complete.
-/

namespace Liquid

namespace Grammar

/-- Whether the lexemes start with none of the given punctuation. -/
def Free (symbols : List String) (rest : List Lexeme) : Prop :=
  ∀ symbol ∈ symbols, Parser.symbol? symbol rest = none

/-- Whether the lexemes do not start with an operator of comparison. -/
def NoComparison (rest : List Lexeme) : Prop :=
  ∀ op ∈ rest.head?, Parser.isComparison op = false

/-- Whether the lexemes do not start with a logical operator. -/
def NoLogical (rest : List Lexeme) : Prop :=
  ∀ op ∈ rest.head?, Parser.isLogical op = false

/-- Punctuation that a chain of filters goes on with. -/
def continuing : List String :=
  [".", "[", ":", ",", "|"]

/-- Whether the lexemes can stand behind an expression. -/
structure Ends (rest : List Lexeme) : Prop where
  free : Free continuing rest
  noComparison : NoComparison rest
  noLogical : NoLogical rest

section Free

variable {symbols : List String} {l : Lexeme} {rest : List Lexeme}

theorem free_nil : Free symbols [] :=
  fun _ _ => rfl

/-- What is no symbol is none of the symbols. -/
theorem free_of_kind_ne (h : l.kind ≠ .symbol) : Free symbols (l :: rest) := by
  intro symbol _
  rw [Parser.symbol?_cons, if_neg fun hsymbol => h hsymbol.1]

/-- A symbol is none of the others. -/
theorem free_of_isSymbol {symbol : String} (h : l.IsSymbol symbol) (hmem : symbol ∉ symbols) :
    Free symbols (l :: rest) := by
  intro other hother
  rw [Parser.symbol?_cons, if_neg]
  rintro ⟨_, htext⟩
  rw [← htext, h.2] at hother
  exact hmem hother

theorem Free.mono {others : List String} (h : Free symbols rest) (hsubset : others ⊆ symbols) :
    Free others rest :=
  fun symbol hsymbol => h symbol (hsubset hsymbol)

/-- A symbol is read where it stands. -/
theorem symbol?_of_isSymbol {symbol : String} (h : l.IsSymbol symbol) :
    Parser.symbol? symbol (l :: rest) = some rest := by
  rw [Parser.symbol?_cons, if_pos h]

theorem require_of_isSymbol {symbol : String} {fault : Expr.Fault} (h : l.IsSymbol symbol) :
    Parser.require symbol fault (l :: rest) = .ok rest :=
  Parser.require_eq_ok_iff.mpr ⟨l, h, rfl⟩

theorem identifier_of_kind {fault : Expr.Fault} (h : l.kind = .identifier) :
    Parser.identifier fault (l :: rest) = .ok (l.text, rest) :=
  Parser.identifier_eq_ok_iff.mpr ⟨l, h, rfl, rfl⟩

/-- Comparisons are operators or words, and never symbols. -/
theorem kind_ne_symbol_of_compares (h : Compares l) : l.kind ≠ .symbol := by
  intro hkind
  rcases h.1 with hop | hword
  · cases hop.symm.trans hkind
  · cases hword.symm.trans hkind

theorem kind_ne_symbol_of_connects (h : Connects l) : l.kind ≠ .symbol :=
  fun hkind => nomatch h.1.symm.trans hkind

/-- Of the words, `contains` compares and the other two connect. -/
theorem not_isComparison_of_connects (h : Connects l) : Parser.isComparison l = false := by
  rw [← Bool.not_eq_true, compares_iff]
  rintro ⟨_, hop⟩
  rcases h.2 with htext | htext <;> (rw [htext] at hop; revert hop; decide)

/-- A closing bracket can stand behind an expression. -/
theorem ends_of_isSymbol {symbol : String} (h : l.IsSymbol symbol) (hmem : symbol ∉ continuing) :
    Ends (l :: rest) where
  free := free_of_isSymbol h hmem
  noComparison op hop := by
    cases hop
    simp [Parser.isComparison, h.1]
  noLogical op hop := by
    cases hop
    simp [Parser.isLogical, h.1]

theorem ends_nil : Ends [] where
  free := free_nil
  noComparison op hop := by cases hop
  noLogical op hop := by cases hop

end Free

section Rules

variable {primary : Parser Expr} {ls between rest : List Lexeme}

/-- Without a bar there are no more filters. -/
theorem chain_nil (hrest : Free continuing rest) (rounds : Nat) :
    Parser.chain primary rounds rest = .ok ([], rest) := by
  cases rounds with
  | zero => rfl
  | succ rounds => rw [Parser.chain, hrest "|" (by decide)]

/-- Without an operator there are no more operands. -/
theorem logicalTail_nil (hrest : NoLogical rest) (rounds : Nat) (lhs : Expr) :
    Parser.logicalTail primary rounds lhs rest = .ok (lhs, rest) := by
  cases rounds with
  | zero => rfl
  | succ rounds =>
      cases rest with
      | nil => rfl
      | cons op rest =>
          rw [Parser.logicalTail]
          simp only [hrest op rfl, Bool.false_eq_true, if_false]

/-- Without a point or a bracket there are no more steps. -/
theorem steps_nil (hrest : Free [".", "["] rest) (rounds : Nat) :
    Parser.steps primary rounds rest = .ok ([], rest) := by
  cases rounds with
  | zero => rfl
  | succ rounds => rw [Parser.steps, hrest "." (by decide), hrest "[" (by decide)]

/-- A value and its filters, by their readings. -/
theorem filtered_of_chain {base : Expr} {calls : List FilterCall}
    (hbase : primary ls = .ok (base, between))
    (hcalls : Parser.chain primary between.length between = .ok (calls, rest)) :
    Parser.filtered primary ls = .ok (withCalls base calls, rest) := by
  refine bind_eq_ok_iff.mpr ⟨_, hbase, ?_⟩
  exact bind_eq_ok_iff.mpr ⟨_, hcalls, rfl⟩

/-- What no comparison stands behind is read as it is. -/
theorem comparison_one {side : Expr} (hside : Parser.filtered primary ls = .ok (side, rest))
    (hrest : NoComparison rest) : Parser.comparison primary ls = .ok (side, rest) := by
  refine bind_eq_ok_iff.mpr ⟨_, hside, ?_⟩
  cases rest with
  | nil => rfl
  | cons op rest =>
      change (if Parser.isComparison op then _ else _) = _
      rw [hrest op rfl]
      rfl

/-- Two sides and the comparison between them. -/
theorem comparison_two {op : Lexeme} {lhs rhs : Expr}
    (hlhs : Parser.filtered primary ls = .ok (lhs, op :: between))
    (hop : Compares op)
    (hrhs : Parser.filtered primary between = .ok (rhs, rest)) :
    Parser.comparison primary ls = .ok (.binary op.text lhs rhs, rest) := by
  refine bind_eq_ok_iff.mpr ⟨_, hlhs, ?_⟩
  change (if Parser.isComparison op then _ else _) = _
  rw [if_pos (compares_iff.mpr hop)]
  exact bind_eq_ok_iff.mpr ⟨_, hrhs, rfl⟩

/-- An operand and those behind it. -/
theorem logical_of_tail {lhs result : Expr}
    (hlhs : Parser.comparison primary ls = .ok (lhs, between))
    (htail : Parser.logicalTail primary between.length lhs between = .ok (result, rest)) :
    Parser.logical primary ls = .ok (result, rest) :=
  bind_eq_ok_iff.mpr ⟨_, hlhs, htail⟩

/-- A primary alone is an expression. -/
theorem logical_of_primary {value : Expr} (hvalue : primary ls = .ok (value, rest))
    (hrest : Ends rest) : Parser.logical primary ls = .ok (value, rest) :=
  logical_of_tail
    (comparison_one (filtered_of_chain hvalue (chain_nil hrest.free _)) hrest.noComparison)
    (logicalTail_nil hrest.noLogical _ _)

/-- An argument without a name in front of it. -/
theorem argument_plain {value : Expr}
    (hname : ∀ name colon behind, ls = name :: colon :: behind → name.kind = .identifier →
      ¬colon.IsSymbol ":") (hvalue : primary ls = .ok (value, rest)) :
    Parser.argument primary ls = .ok ((none, value), rest) := by
  -- A name is looked for by the two lexemes in front, so fewer need no test.
  match ls with
  | [] =>
      rw [Parser.argument, hvalue]
      · rfl
      · simp
  | [_] =>
      rw [Parser.argument, hvalue]
      · rfl
      · simp
  | name :: colon :: behind =>
      rw [Parser.argument, if_neg, hvalue]
      · rfl
      · intro h
        simp only [Bool.and_eq_true, beq_iff_eq] at h
        exact hname name colon behind rfl h.1.1 ⟨h.1.2, h.2⟩

/-- A name and a colon make the value behind them a named argument. -/
theorem argument_named {name colon : Lexeme} {value : Expr} (hname : name.kind = .identifier)
    (hcolon : colon.IsSymbol ":") (hvalue : primary ls = .ok (value, rest)) :
    Parser.argument primary (name :: colon :: ls) = .ok ((some name.text, value), rest) := by
  rw [Parser.argument, if_pos (by simp [hname, hcolon.1, hcolon.2]), hvalue]
  rfl

/-- A name or an index behind a point is one step. -/
theorem property_of_derived {key : Lexeme} {step : Accessor} (h : Property key step) :
    Parser.property (key :: rest) = .ok (step, rest) := by
  rw [Parser.property]
  cases h with
  | name hkind => rw [if_pos (by simpa using hkind)]
  | index hkind hvalue => simp [hkind, whole_iff.mpr hvalue]

theorem literal?_of_identifier {l : Lexeme} (h : l.kind = .identifier) :
    Parser.literal? l = none := by
  simp [Parser.literal?, h]

theorem literal?_of_isSymbol {symbol : String} {l : Lexeme} (h : l.IsSymbol symbol) :
    Parser.literal? l = none := by
  simp [Parser.literal?, h.1]

theorem primary_of_opening {depth : Nat} {opening : Lexeme} (hopening : opening.IsSymbol "(") :
    Parser.primary (depth + 1) (opening :: ls) = Parser.range (Parser.primary depth) ls := by
  rw [Parser.primary, literal?_of_isSymbol hopening]
  simp [hopening.1, hopening.2]

/-- Two values with their symbols are read as a range. -/
theorem range_of_primary {start stop range : Expr} {dots closing : Lexeme}
    (hstart : primary ls = .ok (start, dots :: between)) (hdots : dots.IsSymbol "..")
    (hstop : primary between = .ok (stop, closing :: rest)) (hclosing : closing.IsSymbol ")")
    (hspan : Span start stop range) : Parser.range primary ls = .ok (range, rest) := by
  rw [← span_iff.mpr hspan]
  refine bind_eq_ok_iff.mpr ⟨_, hstart, ?_⟩
  refine bind_eq_ok_iff.mpr ⟨_, require_of_isSymbol hdots, ?_⟩
  refine bind_eq_ok_iff.mpr ⟨_, hstop, ?_⟩
  exact bind_eq_ok_iff.mpr ⟨_, require_of_isSymbol hclosing, rfl⟩

/-- A step behind a point, and those behind it. -/
theorem steps_of_point {rounds : Nat} {point key : Lexeme} {step : Accessor}
    {steps : List Accessor} (hpoint : point.IsSymbol ".") (hkey : Property key step)
    (hsteps : Parser.steps primary rounds ls = .ok (steps, rest)) :
    Parser.steps primary (rounds + 1) (point :: key :: ls) = .ok (step :: steps, rest) := by
  rw [Parser.steps, symbol?_of_isSymbol hpoint]
  refine bind_eq_ok_iff.mpr ⟨_, property_of_derived hkey, ?_⟩
  exact bind_eq_ok_iff.mpr ⟨_, hsteps, rfl⟩

/-- A step between brackets, and those behind it. -/
theorem steps_of_bracket {rounds : Nat} {opening : Lexeme} {step : Accessor}
    {steps : List Accessor} (hopening : opening.IsSymbol "[")
    (hstep : Parser.bracket primary ls = .ok (step, between))
    (hsteps : Parser.steps primary rounds between = .ok (steps, rest)) :
    Parser.steps primary (rounds + 1) (opening :: ls) = .ok (step :: steps, rest) := by
  have hfree : Free ["."] (opening :: ls) := free_of_isSymbol hopening (by decide)
  rw [Parser.steps, hfree "." (by decide), symbol?_of_isSymbol hopening]
  refine bind_eq_ok_iff.mpr ⟨_, hstep, ?_⟩
  exact bind_eq_ok_iff.mpr ⟨_, hsteps, rfl⟩

/-- The last argument has no comma behind it. -/
theorem arguments_one {rounds : Nat} {argument : Option String × Expr}
    (hargument : Parser.argument primary ls = .ok (argument, rest))
    (hcomma : Parser.symbol? "," rest = none) :
    Parser.arguments primary (rounds + 1) ls = .ok ([argument], rest) := by
  rw [Parser.arguments]
  refine bind_eq_ok_iff.mpr ⟨_, hargument, ?_⟩
  simp only [hcomma]

/-- A comma is followed by another argument. -/
theorem arguments_more {rounds : Nat} {comma : Lexeme} {argument : Option String × Expr}
    {arguments : List (Option String × Expr)}
    (hargument : Parser.argument primary ls = .ok (argument, comma :: between))
    (hcomma : comma.IsSymbol ",")
    (harguments : Parser.arguments primary rounds between = .ok (arguments, rest)) :
    Parser.arguments primary (rounds + 1) ls = .ok (argument :: arguments, rest) := by
  rw [Parser.arguments]
  refine bind_eq_ok_iff.mpr ⟨_, hargument, ?_⟩
  simp only [symbol?_of_isSymbol hcomma]
  exact bind_eq_ok_iff.mpr ⟨_, harguments, rfl⟩

/-- A filter without a colon has no arguments. -/
theorem call_bare {name : Lexeme} (hname : name.kind = .identifier)
    (hcolon : Parser.symbol? ":" rest = none) :
    Parser.filterCall primary (name :: rest) = .ok (.call name.text [] [], rest) := by
  refine bind_eq_ok_iff.mpr ⟨_, identifier_of_kind hname, ?_⟩
  simp only [hcolon]
  rfl

/-- The arguments of a filter are parted into those without and those with a name. -/
theorem call_applied {name colon : Lexeme} {arguments : List (Option String × Expr)}
    {args : List Expr} {options : List (String × Expr)}
    (hname : name.kind = .identifier) (hcolon : colon.IsSymbol ":")
    (harguments : Parser.arguments primary (ls.length + 1) ls = .ok (arguments, rest))
    (hparted : Parted arguments args options) :
    Parser.filterCall primary (name :: colon :: ls) =
      .ok (.call name.text args options, rest) := by
  rw [← parted_iff.mpr hparted]
  refine bind_eq_ok_iff.mpr ⟨_, identifier_of_kind hname, ?_⟩
  simp only [symbol?_of_isSymbol hcolon]
  exact bind_eq_ok_iff.mpr ⟨_, harguments, rfl⟩

/-- A bar is followed by a filter. -/
theorem chain_of_call {rounds : Nat} {bar : Lexeme} {call : FilterCall}
    {calls : List FilterCall} (hbar : bar.IsSymbol "|")
    (hcall : Parser.filterCall primary ls = .ok (call, between))
    (hcalls : Parser.chain primary rounds between = .ok (calls, rest)) :
    Parser.chain primary (rounds + 1) (bar :: ls) = .ok (call :: calls, rest) := by
  rw [Parser.chain, symbol?_of_isSymbol hbar]
  refine bind_eq_ok_iff.mpr ⟨_, hcall, ?_⟩
  exact bind_eq_ok_iff.mpr ⟨_, hcalls, rfl⟩

/-- A written key is a literal. -/
theorem literal_of_written {l : Lexeme} {step : Accessor} (h : Written [l] step) :
    ∃ value, Parser.literal? l = some value := by
  cases h with
  | index hkind hn => exact ⟨_, Parser.literal?_eq_some_iff.mpr (.integer hkind hn)⟩
  | field hkind => exact ⟨_, Parser.literal?_eq_some_iff.mpr (.string hkind)⟩

end Rules

section Starts

variable {used rest : List Lexeme}

/-- Behind a name no primary has the colon of an argument, and what follows it has none either. -/
theorem no_colon_of_primary {value : Expr} (h : Primary used value) (hrest : Free [":"] rest)
    {name colon : Lexeme} {behind : List Lexeme} (hls : used ++ rest = name :: colon :: behind)
    (hname : name.kind = .identifier) : ¬colon.IsSymbol ":" := by
  intro hcolon
  -- A value starts with a literal, with the root of a path or with an opening. Only a root is a
  -- name.
  cases h with
  | literal hliteral =>
      cases hls
      have hvalue := Parser.literal?_eq_some_iff.mpr hliteral
      rw [literal?_of_identifier hname] at hvalue
      cases hvalue
  | path hroot hsteps =>
      cases hsteps with
      | nil =>
          cases hls
          have hnone := hrest ":" (by decide)
          rw [symbol?_of_isSymbol hcolon] at hnone
          cases hnone
      | point hpoint =>
          cases hls
          exact absurd (hpoint.2.symm.trans hcolon.2) (by decide)
      | bracket hopening =>
          cases hls
          exact absurd (hopening.2.symm.trans hcolon.2) (by decide)
  | range hopening =>
      rw [← (List.cons.inj hls).1, hopening.1] at hname
      cases hname

/-- What a chain starts with ends the primary in front of it, and each call before it. -/
theorem free_chain {calls : List FilterCall} (h : Chain used calls)
    (hrest : Free continuing rest) : Free [".", "[", ":", ","] (used ++ rest) := by
  cases h with
  | nil => exact hrest.mono (by decide)
  | cons hbar => exact free_of_isSymbol hbar (by decide)

/-- Operands start with an operator, which continues no value. -/
theorem free_operands {operands : List (String × Expr)} (h : Operands used operands)
    (hrest : Free continuing rest) : Free continuing (used ++ rest) := by
  cases h with
  | nil => exact hrest
  | cons hop => exact free_of_kind_ne (kind_ne_symbol_of_connects hop)

/-- Operands start with an operator that compares nothing. -/
theorem noComparison_operands {operands : List (String × Expr)} (h : Operands used operands)
    (hrest : NoComparison rest) : NoComparison (used ++ rest) := by
  cases h with
  | nil => exact hrest
  | cons hop =>
      intro op heq
      cases heq
      exact not_isComparison_of_connects hop

/-- An expression that is read in front of a bracket does not start with a key written out. -/
theorem not_written_of_logical {depth : Nat} {inside : List Lexeme} {closing : Lexeme}
    {key : Expr} (hread : Parser.logical (Parser.primary depth) (inside ++ closing :: rest) =
      .ok (key, closing :: rest)) (hinside : ∀ step, ¬Written inside step)
    (hdepth : inside.length ≤ depth) (hclosing : closing.IsSymbol "]")
    {first second : Lexeme} {behind : List Lexeme} {step : Accessor}
    (hls : inside ++ closing :: rest = first :: second :: behind) (hsecond : second.IsSymbol "]") :
    ¬Written [first] step := by
  intro hwritten
  rcases literal_of_written hwritten with ⟨value, hvalue⟩
  match inside, depth with
  | [], _ =>
      rw [← (List.cons.inj hls).1, literal?_of_isSymbol hclosing] at hvalue
      cases hvalue
  | _ :: tail, depth + 1 =>
      have hprimary : Parser.primary (depth + 1) (first :: second :: behind) =
          .ok (.literal value, second :: behind) := by
        rw [Parser.primary, hvalue]
      rw [hls, logical_of_primary hprimary (ends_of_isSymbol hsecond (by decide))] at hread
      -- Both readings end at the same bracket, so the key is the one literal.
      have hbehind : tail ++ closing :: rest = closing :: rest := by
        injection hread with hread
        exact (List.cons.inj hls).2.trans (congrArg Prod.snd hread)
      have htail : tail = [] := List.append_left_eq_self.mp hbehind
      rw [htail, (List.cons.inj hls).1] at hinside
      exact hinside step hwritten

end Starts

mutual

/-- A value is read as the grammar derives it, if nothing behind it is a step. -/
theorem primary_complete {used : List Lexeme} {value : Expr} (h : Primary used value)
    {depth : Nat} (hdepth : used.length ≤ depth) {rest : List Lexeme}
    (hrest : Free [".", "["] rest) :
    Parser.primary depth (used ++ rest) = .ok (value, rest) := by
  match h, depth with
  -- A primary has a lexeme, so the depth is not zero.
  | .literal hliteral, depth + 1 =>
      rw [List.singleton_append, Parser.primary, Parser.literal?_eq_some_iff.mpr hliteral]
  | .path hroot hsteps, depth + 1 =>
      simp only [List.length_cons] at hdepth
      rw [List.cons_append, Parser.primary, literal?_of_identifier hroot]
      simp only [hroot, beq_self_eq_true, if_true]
      rw [steps_complete hsteps (by omega) (by simp) hrest]
      rfl
  | .range hopening hfirst hdots hlast hclosing hspan, depth + 1 =>
      -- Two points are one lexeme, and no step of a path starts with it.
      simp only [List.length_cons, List.length_append, List.length_nil] at hdepth
      rw [List.cons_append, List.append_assoc, List.cons_append, List.append_assoc,
        primary_of_opening hopening]
      exact range_of_primary
        (primary_complete hfirst (by omega) (free_of_isSymbol hdots (by decide))) hdots
        (primary_complete hlast (by omega) (free_of_isSymbol hclosing (by decide))) hclosing hspan

/-- Steps are read one after the other, if nothing behind them is a step. -/
theorem steps_complete {used : List Lexeme} {steps : List Accessor} (h : Steps used steps)
    {depth rounds : Nat} (hdepth : used.length ≤ depth) (hrounds : used.length ≤ rounds)
    {rest : List Lexeme} (hrest : Free [".", "["] rest) :
    Parser.steps (Parser.primary depth) rounds (used ++ rest) = .ok (steps, rest) := by
  -- A step after the other, each in a round of its own.
  match h, rounds with
  | .nil, _ => exact steps_nil hrest _
  | .point hpoint hkey hsteps, rounds + 1 =>
      simp only [List.length_cons] at hdepth hrounds
      exact steps_of_point hpoint hkey
        (steps_complete hsteps (by omega) (by omega) hrest)
  | .bracket hopening hinside hclosing hsteps, rounds + 1 =>
      simp only [List.length_cons, List.length_append] at hdepth hrounds
      rw [List.cons_append, List.append_assoc]
      exact steps_of_bracket hopening (bracket_complete hinside (by omega) hclosing)
        (steps_complete hsteps (by omega) (by omega) hrest)

/-- The inside of brackets is read up to the one that closes them. -/
theorem bracket_complete {inside : List Lexeme} {step : Accessor} (h : Bracket inside step)
    {depth : Nat} (hdepth : inside.length ≤ depth) {closing : Lexeme}
    (hclosing : closing.IsSymbol "]") {rest : List Lexeme} :
    Parser.bracket (Parser.primary depth) (inside ++ closing :: rest) = .ok (step, rest) := by
  match h with
  | .written hkey =>
      rcases written_singleton hkey with ⟨l, rfl⟩
      exact bracket_written hkey hclosing rest
  | .computed hnot hkey =>
      -- The reading of the key is what shows that it does not start like a written one.
      have hread := logical_complete hkey hdepth
        (ends_of_isSymbol hclosing (by decide) : Ends (closing :: rest))
      rw [bracket_computed fun _ _ _ _ => not_written_of_logical hread hnot hdepth hclosing]
      refine bind_eq_ok_iff.mpr ⟨_, hread, ?_⟩
      exact bind_eq_ok_iff.mpr ⟨_, require_of_isSymbol hclosing, rfl⟩

/-- An argument is read as it is derived, if no colon makes a name of it. -/
theorem argument_complete {used : List Lexeme} {argument : Option String × Expr}
    (h : Argument used argument) {depth : Nat} (hdepth : used.length ≤ depth)
    {rest : List Lexeme} (hrest : Free [".", "[", ":"] rest) :
    Parser.argument (Parser.primary depth) (used ++ rest) = .ok (argument, rest) := by
  match h with
  | .named hname hcolon hvalue =>
      simp only [List.length_cons] at hdepth
      exact argument_named hname hcolon
        (primary_complete hvalue (by omega) (hrest.mono (by decide)))
  | .plain hvalue =>
      -- A name with a colon behind it would be read as that of an option.
      exact argument_plain
        (fun _ _ _ => no_colon_of_primary hvalue (hrest.mono (by decide)))
        (primary_complete hvalue hdepth (hrest.mono (by decide)))

/-- Arguments are read up to the last one, if no comma is behind it. -/
theorem arguments_complete {used : List Lexeme} {arguments : List (Option String × Expr)}
    (h : Arguments used arguments) {depth rounds : Nat} (hdepth : used.length ≤ depth)
    (hrounds : used.length < rounds) {rest : List Lexeme}
    (hrest : Free [".", "[", ":", ","] rest) :
    Parser.arguments (Parser.primary depth) rounds (used ++ rest) = .ok (arguments, rest) := by
  -- An argument after the other, each in a round of its own.
  match h, rounds with
  | .one hargument, rounds + 1 =>
      exact arguments_one (argument_complete hargument hdepth (hrest.mono (by decide)))
        (hrest "," (by decide))
  | .more hargument hcomma hothers, rounds + 1 =>
      simp only [List.length_cons, List.length_append] at hdepth hrounds
      rw [List.append_assoc, List.cons_append]
      exact arguments_more
        (argument_complete hargument (by omega) (free_of_isSymbol hcomma (by decide))) hcomma
        (arguments_complete hothers (by omega) (by omega) hrest)

/-- A filter is read with all of its arguments. -/
theorem call_complete {used : List Lexeme} {call : FilterCall} (h : Call used call)
    {depth : Nat} (hdepth : used.length ≤ depth) {rest : List Lexeme}
    (hrest : Free [".", "[", ":", ","] rest) :
    Parser.filterCall (Parser.primary depth) (used ++ rest) = .ok (call, rest) := by
  match h with
  | .bare hname => exact call_bare hname (hrest ":" (by decide))
  | .applied hname hcolon harguments hparted =>
      simp only [List.length_cons] at hdepth
      rw [List.cons_append, List.cons_append]
      exact call_applied hname hcolon
        (arguments_complete harguments (by omega) (by rw [List.length_append]; omega) hrest)
        hparted

/-- Filters are read up to the last one. -/
theorem chain_complete {used : List Lexeme} {calls : List FilterCall} (h : Chain used calls)
    {depth rounds : Nat} (hdepth : used.length ≤ depth) (hrounds : used.length ≤ rounds)
    {rest : List Lexeme} (hrest : Free continuing rest) :
    Parser.chain (Parser.primary depth) rounds (used ++ rest) = .ok (calls, rest) := by
  match h, rounds with
  | .nil, _ => exact chain_nil hrest _
  | .cons hbar hcall hcalls, rounds + 1 =>
      simp only [List.length_cons, List.length_append] at hdepth hrounds
      rw [List.cons_append, List.append_assoc]
      exact chain_of_call hbar (call_complete hcall (by omega) (free_chain hcalls hrest))
        (chain_complete hcalls (by omega) (by omega) hrest)

/-- A value is read with all of its filters. -/
theorem filtered_complete {used : List Lexeme} {value : Expr} (h : Filtered used value)
    {depth : Nat} (hdepth : used.length ≤ depth) {rest : List Lexeme}
    (hrest : Free continuing rest) :
    Parser.filtered (Parser.primary depth) (used ++ rest) = .ok (value, rest) := by
  match h with
  | .mk hbase hcalls =>
      simp only [List.length_append] at hdepth
      rw [List.append_assoc]
      exact filtered_of_chain
        (primary_complete hbase (by omega) ((free_chain hcalls hrest).mono (by decide)))
        (chain_complete hcalls (by omega) (by simp) hrest)

/-- A comparison is read with both sides, or the one side alone. -/
theorem comparison_complete {used : List Lexeme} {value : Expr} (h : Comparison used value)
    {depth : Nat} (hdepth : used.length ≤ depth) {rest : List Lexeme}
    (hrest : Free continuing rest) (hcomparison : NoComparison rest) :
    Parser.comparison (Parser.primary depth) (used ++ rest) = .ok (value, rest) := by
  match h with
  | .one hside => exact comparison_one (filtered_complete hside hdepth hrest) hcomparison
  | .two hlhs hop hrhs =>
      simp only [List.length_cons, List.length_append] at hdepth
      rw [List.append_assoc]
      -- An operator ends the side on its left, whatever filters that has.
      exact comparison_two
        (filtered_complete hlhs (by omega) (free_of_kind_ne (kind_ne_symbol_of_compares hop)))
        hop (filtered_complete hrhs (by omega) hrest)

/-- Operands are folded from the left. -/
theorem operands_complete {used : List Lexeme} {operands : List (String × Expr)}
    (h : Operands used operands) {depth rounds : Nat} (hdepth : used.length ≤ depth)
    (hrounds : used.length ≤ rounds) (lhs : Expr) {rest : List Lexeme} (hrest : Ends rest) :
    Parser.logicalTail (Parser.primary depth) rounds lhs (used ++ rest) =
      .ok (folded lhs operands, rest) := by
  match h, rounds with
  | .nil, _ => exact logicalTail_nil hrest.noLogical _ _
  | .cons hop hrhs hoperands, rounds + 1 =>
      simp only [List.length_cons, List.length_append] at hdepth hrounds
      rw [List.cons_append, List.append_assoc, Parser.logicalTail,
        if_pos (connects_iff.mpr hop),
        comparison_complete hrhs (by omega) (free_operands hoperands hrest.free)
          (noComparison_operands hoperands hrest.noComparison)]
      -- The operand that was read is folded into the left side of the others.
      exact operands_complete hoperands (by omega) (by omega) _ hrest

/-- A whole expression is read as the grammar derives it. -/
theorem logical_complete {used : List Lexeme} {value : Expr} (h : Logical used value)
    {depth : Nat} (hdepth : used.length ≤ depth) {rest : List Lexeme} (hrest : Ends rest) :
    Parser.logical (Parser.primary depth) (used ++ rest) = .ok (value, rest) := by
  match h with
  | .mk hlhs hoperands =>
      simp only [List.length_append] at hdepth
      rw [List.append_assoc]
      exact logical_of_tail
        (comparison_complete hlhs (by omega) (free_operands hoperands hrest.free)
          (noComparison_operands hoperands hrest.noComparison))
        (operands_complete hoperands (by omega) (by simp) _ hrest)

end

end Grammar

end Liquid
