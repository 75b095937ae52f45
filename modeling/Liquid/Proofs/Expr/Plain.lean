import Liquid.Proofs.Expr.Word
import Liquid.Proofs.Value.Equality
import Liquid.Text.Quoted

/-!
# Expressions in Their Own Language

Not every expression is printed as it could be written. The parentheses around
an operator are none in the language, a literal range is shown without any, and
a key behind a point must be a name there. A text with a backslash between its
quotes has an escape, which the language has not. The other expressions are
plain.

Reading what is printed can change one thing in a plain expression, the zeros at
the end of a decimal. So two expressions are equal if they are built alike and
their decimals stand for the same numbers. This is finer than what makes their
literals equal as values, where a decimal may be equal to an integer. The
difference counts: a key that is an integer is written out, and a key that is a
decimal is computed.

## Main definitions

* `Expr.Plain`: The expressions that are printed in the language.
* `Expr.Equals`: Expressions that differ in the form of their decimals only.
* `Grammar.inOrder`: Arguments with the options last.

## Theorems

* `Value.Agrees.equals`: Literals that agree are equal values.
* `Grammar.written_iff_of_logical`: The keys that are written out.
* `Grammar.plain_span`, `Grammar.plain_of_parted`, `Grammar.plain_withCalls`:
  The parts of what is plain are plain.
* `Grammar.Parted.perm`: No argument is lost when they are parted.
* `Grammar.equals_parted`, `Grammar.equals_withCalls`: Equal parts make what is
  equal.
-/

namespace Liquid

section Plain

/-- Whether the literal is printed as a literal: a range is not, and a text is if its quotes and
characters need no backslash. -/
def Value.Plain : Value → Prop
  | .string s => '\\' ∉ Text.quotedChars s.toList
  | .range .. => False
  | _ => True

mutual

/-- Whether the expression is printed in the language: it has no operator, no literal range, no key
that is written out but is no name, and no text with a backslash between its quotes. -/
inductive Expr.Plain : Expr → Prop
  | literal {value : Value} : value.Plain → Expr.Plain (.literal value)
  | path {root : String} {steps : List Accessor} :
      (∀ step ∈ steps, Accessor.Plain step) → Expr.Plain (.path root steps)
  | range {start stop : Expr} :
      Expr.Plain start → Expr.Plain stop → Expr.Plain (.range start stop)
  | filtered {base : Expr} {chain : List FilterCall} :
      Expr.Plain base → (∀ call ∈ chain, FilterCall.Plain call) →
      Expr.Plain (.filtered base chain)

/-- The same of a step. -/
inductive Accessor.Plain : Accessor → Prop
  | field {name : String} : Lexeme.IsName name.toList → Accessor.Plain (.field name)
  | index {n : Int} : Accessor.Plain (.index n)
  | key {key : Expr} : Expr.Plain key → Accessor.Plain (.key key)

/-- The same of a filter call. -/
inductive FilterCall.Plain : FilterCall → Prop
  | call {name : String} {args : List Expr} {options : List (String × Expr)} :
      (∀ arg ∈ args, Expr.Plain arg) → (∀ option ∈ options, Expr.Plain option.2) →
      FilterCall.Plain (.call name args options)

end

end Plain

section Equals

/-- Whether two literals are one value, or decimals that stand for one number. -/
inductive Value.Agrees : Value → Value → Prop
  | same (value : Value) : Value.Agrees value value
  | decimal {a b : Decimal} : a.SameNumber b → Value.Agrees (.decimal a) (.decimal b)

mutual

/-- Whether two expressions are built alike from literals that agree. -/
inductive Expr.Equals : Expr → Expr → Prop
  | literal {v w : Value} : v.Agrees w → Expr.Equals (.literal v) (.literal w)
  | path {root : String} {steps steps' : List Accessor} :
      List.Forall₂ Accessor.Equals steps steps' → Expr.Equals (.path root steps) (.path root steps')
  | range {start stop start' stop' : Expr} :
      Expr.Equals start start' → Expr.Equals stop stop' →
      Expr.Equals (.range start stop) (.range start' stop')
  | filtered {base base' : Expr} {chain chain' : List FilterCall} :
      Expr.Equals base base' → List.Forall₂ FilterCall.Equals chain chain' →
      Expr.Equals (.filtered base chain) (.filtered base' chain')

/-- The same of two steps. -/
inductive Accessor.Equals : Accessor → Accessor → Prop
  | field {name : String} : Accessor.Equals (.field name) (.field name)
  | index {n : Int} : Accessor.Equals (.index n) (.index n)
  | key {key key' : Expr} : Expr.Equals key key' → Accessor.Equals (.key key) (.key key')

/-- The same of two filter calls. -/
inductive FilterCall.Equals : FilterCall → FilterCall → Prop
  | call {name : String} {args args' : List Expr} {options options' : List (String × Expr)} :
      List.Forall₂ Expr.Equals args args' → options.map Prod.fst = options'.map Prod.fst →
      List.Forall₂ Expr.Equals (options.map Prod.snd) (options'.map Prod.snd) →
      FilterCall.Equals (.call name args options) (.call name args' options')

end

/-- Literals that agree are equal as values. -/
theorem Value.Agrees.equals {v w : Value} (h : v.Agrees w) : v.equals w = true := by
  cases h with
  | same => exact Value.equals_self v
  | decimal hsame =>
      rw [Value.equals_iff_compare]
      exact (Decimal.compare_eq_eq_iff _ _).mpr hsame

end Equals

namespace Grammar

section Key

/-- The keys that are written out when they stand alone. -/
def IsWritten (key : Expr) : Prop :=
  (∃ n, key = .literal (.integer n)) ∨ ∃ s, key = .literal (.string s)

variable {ls : List Lexeme} {e e' : Expr}

/-- A value without filters. -/
theorem filtered_of_primary (h : Primary ls e) : Filtered ls e := by
  have hfiltered : Filtered (ls ++ []) (withCalls e []) := .mk h .nil
  rwa [List.append_nil] at hfiltered

/-- A literal has no operators and no filters. -/
theorem primary_of_logical_literal {value : Value} (h : Logical ls (.literal value)) :
    Primary ls (.literal value) := by
  generalize he : Expr.literal value = e at h ⊢
  cases h with
  | @mk first rest lhs operands hlhs hoperands =>
      -- Operands would make an operation of it, and filters a filtered value.
      cases hoperands with
      | cons =>
          rcases folded_cons lhs _ _ with ⟨op, left, right, hfolded⟩
          rw [hfolded] at he
          cases he
      | nil =>
          rw [List.append_nil]
          change Primary _ lhs
          change _ = lhs at he
          cases hlhs with
          | two => cases he
          | one hside =>
              cases hside with
              | @mk base behind _ calls hbase hcalls =>
                  cases hcalls with
                  | cons => cases he
                  | nil => rwa [List.append_nil]

/-- A literal that is no range is one lexeme. -/
theorem literal_of_primary {value : Value} (h : Primary ls (.literal value))
    (hrange : ∀ start stop, value ≠ .range start stop) : ∃ l, ls = [l] ∧ Literal l value := by
  generalize he : Expr.literal value = e at h
  -- Of the values, only literals and ranges between integers are literals.
  cases h with
  | literal hliteral =>
      cases he
      exact ⟨_, rfl, hliteral⟩
  | path => cases he
  | range _ _ _ _ _ hspan =>
      cases hspan with
      | literal =>
          cases he
          exact absurd rfl (hrange _ _)
      | computed => cases he

/-- An index or a field is a key that is written as one lexeme. -/
theorem written_of_literal {l : Lexeme} {value : Value} (h : Literal l value)
    (hvalue : IsWritten (.literal value)) : ∃ step, Written [l] step := by
  cases h with
  | string hkind => exact ⟨_, .field hkind⟩
  | integer hkind hn => exact ⟨_, .index hkind hn⟩
  | decimal => rcases hvalue with ⟨_, h⟩ | ⟨_, h⟩ <;> cases h
  | keyword _ hword =>
      rcases Parser.nil_or_bool_of_word hword with rfl | ⟨b, rfl⟩ <;>
        rcases hvalue with ⟨_, h⟩ | ⟨_, h⟩ <;> cases h

/-- A key is written out exactly if it is an integer or a string. -/
theorem written_iff_of_logical (h : Logical ls e) : (∃ step, Written ls step) ↔ IsWritten e := by
  constructor
  · rintro ⟨step, hstep⟩
    have hlogical {e : Expr} (h : Primary ls e) : Logical ls e :=
      logical_of_filtered (filtered_of_primary h)
    cases hstep with
    | index hkind hn =>
        exact .inl ⟨_, logical_unique h (hlogical (.literal (.integer hkind hn)))⟩
    | field hkind =>
        exact .inr ⟨_, logical_unique h (hlogical (.literal (.string hkind)))⟩
  · intro hkey
    -- Neither an index nor a field is a range, so one lexeme is all of it.
    obtain ⟨value, rfl, hrange⟩ : ∃ value, e = .literal value ∧
        ∀ start stop, value ≠ .range start stop := by
      rcases hkey with ⟨n, rfl⟩ | ⟨s, rfl⟩
      · exact ⟨_, rfl, by simp⟩
      · exact ⟨_, rfl, by simp⟩
    rcases literal_of_primary (primary_of_logical_literal h) hrange with ⟨l, rfl, hliteral⟩
    exact written_of_literal hliteral hkey

/-- Equal keys are both written, or both computed. -/
theorem isWritten_of_equals (h : e.Equals e') (he' : IsWritten e') : IsWritten e := by
  rcases he' with ⟨n, rfl⟩ | ⟨s, rfl⟩
  · cases h with
    | literal hvalue =>
        cases hvalue
        exact .inl ⟨n, rfl⟩
  · cases h with
    | literal hvalue =>
        cases hvalue
        exact .inr ⟨s, rfl⟩

end Key

section Range

variable {start stop range : Expr}

/-- A range that is printed has two ends that are no literal together. -/
theorem plain_span (h : Span start stop range) (hplain : range.Plain) :
    ¬IsSpan start stop ∧ range = .range start stop ∧ start.Plain ∧ stop.Plain := by
  cases h with
  | literal =>
      cases hplain with
      | literal hvalue => exact absurd hvalue id
  | computed hspan =>
      cases hplain with
      | range hstart hstop => exact ⟨hspan, rfl, hstart, hstop⟩

/-- Ends that equal integers are integers. -/
theorem isSpan_of_equals {start' stop' : Expr} (hstart : start.Equals start')
    (hstop : stop.Equals stop') (h : IsSpan start' stop') : IsSpan start stop := by
  have hinteger {e : Expr} {n : Int} (he : e.Equals (.literal (.integer n))) :
      e = .literal (.integer n) := by
    cases he with
    | literal hvalue =>
        cases hvalue
        rfl
  rcases h with ⟨first, last, rfl, rfl⟩
  exact ⟨first, last, hinteger hstart, hinteger hstop⟩

end Range

section Arguments

variable {args : List Expr} {options : List (String × Expr)}
  {arguments arguments' : List (Option String × Expr)}

/-- Arguments in the order in which they are printed, the options last. -/
def inOrder (args : List Expr) (options : List (String × Expr)) : List (Option String × Expr) :=
  args.map (none, ·) ++ options.map fun option => (some option.1, option.2)

/-- Two arguments of one name or none, with equal values. -/
def ArgumentEquals (argument argument' : Option String × Expr) : Prop :=
  argument.1 = argument'.1 ∧ argument.2.Equals argument'.2

theorem parted_inOrder (args : List Expr) (options : List (String × Expr)) :
    Parted (inOrder args options) args options := by
  induction args with
  | cons arg args ih => exact .plain ih
  | nil =>
      induction options with
      | nil => exact .nil
      | cons option options ih => exact .named ih

/-- In whatever order they are written, the arguments that are printed are the same ones. -/
theorem Parted.perm (h : Parted arguments args options) :
    (inOrder args options).Perm arguments := by
  induction h with
  | nil => exact .refl _
  | plain _ ih => exact ih.cons _
  | named _ ih => exact List.perm_middle.trans (ih.cons _)

/-- Equal arguments are parted into equal lists. -/
theorem equals_parted (h : Parted arguments args options) (name : String)
    (harguments : List.Forall₂ ArgumentEquals arguments arguments') :
    ∃ args' options', Parted arguments' args' options' ∧
      (FilterCall.call name args options).Equals (.call name args' options') := by
  -- By the arguments, each with its own name or without one.
  induction harguments generalizing args options with
  | nil =>
      cases h
      exact ⟨_, _, .nil, .call .nil rfl .nil⟩
  | @cons argument argument' arguments arguments' hargument _ ih =>
      rcases argument with ⟨key, value⟩
      rcases argument' with ⟨key', value'⟩
      rcases hargument with ⟨rfl, hvalue⟩
      cases h with
      | plain hparted =>
          rcases ih hparted with ⟨_, _, hparted', ⟨hargs, hnames, hvalues⟩⟩
          exact ⟨_, _, .plain hparted', .call (.cons hvalue hargs) hnames hvalues⟩
      | named hparted =>
          rcases ih hparted with ⟨_, _, hparted', ⟨hargs, hnames, hvalues⟩⟩
          exact ⟨_, _, .named hparted',
            .call hargs (congrArg (_ :: ·) hnames) (.cons hvalue hvalues)⟩

/-- The arguments of a plain filter are plain. -/
theorem plain_of_parted {name : String} (h : Parted arguments args options)
    (hplain : (FilterCall.call name args options).Plain) :
    ∀ argument ∈ arguments, argument.2.Plain := by
  intro argument hargument
  rw [← h.perm.mem_iff] at hargument
  cases hplain with
  | call hargs hoptions =>
      rcases List.mem_append.mp hargument with hmem | hmem
      · rcases List.mem_map.mp hmem with ⟨arg, harg, rfl⟩
        exact hargs arg harg
      · rcases List.mem_map.mp hmem with ⟨option, hoption, rfl⟩
        exact hoptions option hoption

end Arguments

section Filters

variable {base : Expr} {calls : List FilterCall}

theorem plain_withCalls (h : (withCalls base calls).Plain) :
    base.Plain ∧ ∀ call ∈ calls, call.Plain := by
  cases calls with
  | nil => exact ⟨h, by simp⟩
  | cons call calls =>
      cases h with
      | filtered hbase hchain => exact ⟨hbase, hchain⟩

theorem equals_withCalls {base' : Expr} {calls' : List FilterCall} (hbase : base.Equals base')
    (hcalls : List.Forall₂ FilterCall.Equals calls calls') :
    (withCalls base calls).Equals (withCalls base' calls') := by
  cases hcalls with
  | nil => exact hbase
  | cons hcall hcalls => exact .filtered hbase (.cons hcall hcalls)

end Filters

end Grammar

end Liquid
