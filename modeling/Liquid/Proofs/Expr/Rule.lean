import Liquid.Proofs.Expr.Grammar
import Mathlib.Data.List.Forall2

/-!
# What Every Rule Keeps

A lexeme knows where it starts, and no rule of the grammar looks there: the
rules tell lexemes apart by their kinds and texts, and count them. So lexemes
that are moved are read as before, and the lexemes that are left are the same,
moved in the same way.

Nor does a rule fail in ways of its own. All its faults are errors of the
language, but for one: an integer that is too long to be read. Lexemes without
such an integer are read, or they are an error.

Both are properties of a rule that the ways to put rules together keep, and
they are kept for the same reasons. So they are told as one. There is one lemma
for each way to put rules together, and one for each rule, which only says what
the rule is put together from.

## Main definitions

* `Parser.Moved`: Lexemes of the same kinds and texts, wherever they stand.
* `Parser.Steady`: A rule that does not look where lexemes stand, and has none
  but the expected faults.
* `Parser.Foresees`: What has to be expected of the lexemes that are allowed.

## Theorems

* `Parser.Steady.bind`, `Parser.Steady.symbol`, `Parser.Steady.require`,
  `Parser.Steady.sized`, `Parser.Steady.operator`: Rules that are put together.
* `Parser.primary_steady`, `Parser.expression_steady`: No depth of nesting makes
  a difference.
-/

namespace Liquid

namespace Parser

variable {allowed : Lexeme → Prop} {expected : Expr.Fault → Prop}

/-- Lexemes of the same kinds and texts, one by one, wherever they stand; all of them allowed. -/
def Moved (allowed : Lexeme → Prop) : List Lexeme → List Lexeme → Prop :=
  List.Forall₂ fun l l' => l.kind = l'.kind ∧ l.text = l'.text ∧ allowed l

/-- Two outcomes with one result and with lexemes left that are the same ones moved, or with one
fault, which is expected. -/
inductive Agrees (allowed : Lexeme → Prop) (expected : Expr.Fault → Prop) {α : Type} :
    Except Expr.Fault (α × List Lexeme) → Except Expr.Fault (α × List Lexeme) → Prop
  | ok (result : α) {rest rest' : List Lexeme} :
      Moved allowed rest rest' → Agrees allowed expected (.ok (result, rest)) (.ok (result, rest'))
  | error {fault : Expr.Fault} :
      expected fault → Agrees allowed expected (.error fault) (.error fault)

/-- Whether a rule does not look where lexemes stand, and has only expected faults on those that
are allowed. -/
def Steady (allowed : Lexeme → Prop) (expected : Expr.Fault → Prop) {α : Type}
    (rule : Parser α) : Prop :=
  ∀ ⦃ls ls'⦄, Moved allowed ls ls' → Agrees allowed expected (rule ls) (rule ls')

/-- What has to be expected: every error of the language, and of the integers that are allowed the
fault of those that are too long. -/
structure Foresees (allowed : Lexeme → Prop) (expected : Expr.Fault → Prop) : Prop where
  error : ∀ fault, fault.crash? = none → expected fault
  long : ∀ l, allowed l → l.kind = .integer → integerOf? l.text = none → expected (tooLong l)

section Combine

variable {α β : Type}

/-- A rule that reads nothing is steady. -/
theorem steady_ok (result : α) : Steady allowed expected fun ls => .ok (result, ls) :=
  fun _ _ hmoved => .ok result hmoved

/-- Steady rules are steady one after the other. -/
theorem Steady.bind {rule : Parser α} {next : α → Parser β}
    (hrule : Steady allowed expected rule) (hnext : ∀ a, Steady allowed expected (next a)) :
    Steady allowed expected fun ls => rule ls >>= fun (a, rest) => next a rest := by
  intro ls ls' hmoved
  dsimp only
  have hagrees := hrule hmoved
  generalize rule ls = outcome at hagrees
  generalize rule ls' = outcome' at hagrees
  cases hagrees with
  | ok a hrest => exact hnext a hrest
  | error hfault => exact .error hfault

/-- A sign stands in front of both or of neither. -/
theorem Moved.symbol? {ls ls' : List Lexeme} (h : Moved allowed ls ls') (symbol : String) :
    Parser.symbol? symbol ls = none ∧ Parser.symbol? symbol ls' = none ∨
      ∃ rest rest', Moved allowed rest rest' ∧
        Parser.symbol? symbol ls = some rest ∧ Parser.symbol? symbol ls' = some rest' := by
  cases h with
  | nil => exact .inl ⟨rfl, rfl⟩
  | @cons l l' ls ls' hl hls =>
      rcases l with ⟨kind, text, offset⟩
      rcases l' with ⟨kind', text', offset'⟩
      -- Moving keeps the kind and the text, which are all that is compared.
      obtain ⟨rfl, rfl, _⟩ := hl
      simp only [symbol?_cons, Lexeme.IsSymbol]
      by_cases hsymbol : kind = .symbol ∧ text = symbol
      · exact .inr ⟨ls, ls', hls, if_pos hsymbol, if_pos hsymbol⟩
      · exact .inl ⟨if_neg hsymbol, if_neg hsymbol⟩

/-- One way to go on behind a sign, and another without it. -/
theorem Steady.symbol {behind other : Parser α} (symbol : String)
    (hbehind : Steady allowed expected behind) (hother : Steady allowed expected other) :
    Steady allowed expected fun ls =>
      match symbol? symbol ls with
      | some rest => behind rest
      | none => other ls := by
  intro ls ls' hmoved
  dsimp only
  rcases hmoved.symbol? symbol with ⟨hnone, hnone'⟩ | ⟨rest, rest', hrest, hsome, hsome'⟩
  · rw [hnone, hnone']
    exact hother hmoved
  · rw [hsome, hsome']
    exact hbehind hrest

/-- A sign that has to be there. -/
theorem Steady.require {next : Parser α} (symbol : String) {fault : Expr.Fault}
    (hfault : expected fault) (hnext : Steady allowed expected next) :
    Steady allowed expected fun ls => Parser.require symbol fault ls >>= next := by
  intro ls ls' hmoved
  dsimp only
  unfold Parser.require
  rcases hmoved.symbol? symbol with ⟨hnone, hnone'⟩ | ⟨rest, rest', hrest, hsome, hsome'⟩
  · rw [hnone, hnone']
    exact .error hfault
  · rw [hsome, hsome']
    exact hnext hrest

/-- A bound by the number of lexemes stays, since moving lexemes leaves out none. -/
theorem Steady.sized {rule : Nat → Parser α} (hrule : ∀ n, Steady allowed expected (rule n)) :
    Steady allowed expected fun ls => rule ls.length ls := by
  intro ls ls' hmoved
  dsimp only
  rw [List.Forall₂.length_eq hmoved]
  exact hrule ls'.length hmoved

/-- One way to go on behind a lexeme of some kind and text, and a result without it. -/
theorem Steady.operator {next : String → Parser α} (test : Lexeme → Bool)
    (htest : ∀ l offset, test { l with offset } = test l)
    (hnext : ∀ text, Steady allowed expected (next text)) (result : α) :
    Steady allowed expected fun ls =>
      match ls with
      | op :: rest => if test op then next op.text rest else .ok (result, ls)
      | [] => .ok (result, []) := by
  intro ls ls' hmoved
  cases hmoved with
  | nil => exact .ok result .nil
  | @cons op op' rest rest' hop hrest =>
      have hagrees : Agrees allowed expected (.ok (result, op :: rest))
          (.ok (result, op' :: rest')) := .ok result (.cons hop hrest)
      rcases op with ⟨kind, text, offset⟩
      rcases op' with ⟨kind', text', offset'⟩
      obtain ⟨rfl, rfl, _⟩ := hop
      -- The test does not see the offset.
      have hsame : test ⟨kind, text, offset'⟩ = test ⟨kind, text, offset⟩ :=
        htest ⟨kind, text, offset⟩ offset'
      dsimp only
      rw [hsame]
      by_cases hholds : test ⟨kind, text, offset⟩ = true
      · rw [if_pos hholds, if_pos hholds]
        exact hnext text hrest
      · rw [if_neg hholds, if_neg hholds]
        exact hagrees

end Combine

section Rules

variable (hforesees : Foresees allowed expected)

include hforesees

theorem identifier_steady {fault : Expr.Fault} (hfault : fault.crash? = none) :
    Steady allowed expected (identifier fault) := by
  intro ls ls' hmoved
  cases hmoved with
  | nil => exact .error (hforesees.error _ hfault)
  | @cons l l' ls ls' hl hls =>
      rw [identifier_cons, identifier_cons, ← hl.1, ← hl.2.1]
      by_cases hname : l.kind = .identifier
      · rw [if_pos hname, if_pos hname]
        exact .ok _ hls
      · rw [if_neg hname, if_neg hname]
        exact .error (hforesees.error _ hfault)

/-- Behind a point an integer can be too long. -/
theorem property_steady : Steady allowed expected property := by
  intro ls ls' hmoved
  cases hmoved with
  | nil => exact .error (hforesees.error _ rfl)
  | @cons l l' ls ls' hl hls =>
      rcases l with ⟨kind, text, offset⟩
      rcases l' with ⟨kind', text', offset'⟩
      obtain ⟨rfl, rfl, hallowed⟩ := hl
      simp only [property]
      split
      · exact .ok _ hls
      -- An index with too many digits is refused with its lexeme, all else with the same fault.
      · cases kind <;> cases hn : integerOf? text <;> try exact .error (hforesees.error _ rfl)
        · exact .error (hforesees.long _ hallowed rfl hn)
        · exact .ok _ hls

variable {primary : Parser Expr} (h : Steady allowed expected primary)

include h

omit hforesees in
/-- An argument looks two lexemes ahead, and at their kinds and texts alone. -/
theorem argument_steady : Steady allowed expected (argument primary) := by
  have hplain : Steady allowed expected fun ls => primary ls >>= fun read =>
      .ok (((none : Option String), read.1), read.2) :=
    h.bind fun value => steady_ok (none, value)
  intro ls ls' hmoved
  -- A name and a colon make a keyword; with fewer lexemes there can be none.
  cases hmoved with
  | nil => exact hplain .nil
  | @cons name name' _ _ hname hbehind =>
      cases hbehind with
      | nil => exact hplain (.cons hname .nil)
      | cons hcolon hls =>
          have hagrees := hplain (.cons hname (.cons hcolon hls))
          simp only [argument, ← hname.1, ← hname.2.1, ← hcolon.1, ← hcolon.2.1]
          split
          · exact (h.bind fun value => steady_ok (some name.text, value)) hls
          · exact hagrees

/-- Arguments are read alike, round by round. -/
theorem arguments_steady (rounds : Nat) : Steady allowed expected (arguments primary rounds) := by
  induction rounds with
  | zero => exact fun _ _ _ => .error (hforesees.error _ rfl)
  | succ rounds ih =>
      exact (argument_steady h).bind fun first =>
        .symbol "," (ih.bind fun rest => steady_ok (first :: rest)) (steady_ok [first])

/-- A filter is read alike with its arguments. -/
theorem filterCall_steady : Steady allowed expected (filterCall primary) := by
  have harguments (name : String) : Steady allowed expected fun ls =>
      arguments primary (ls.length + 1) ls >>= fun read => .ok (callOf name read.1, read.2) :=
    .sized fun rounds => (arguments_steady hforesees h (rounds + 1)).bind fun args =>
      steady_ok (callOf name args)
  exact (identifier_steady hforesees rfl).bind fun name =>
    .symbol ":" (harguments name) (steady_ok (callOf name []))

/-- Filters are read alike, round by round. -/
theorem chain_steady (rounds : Nat) : Steady allowed expected (chain primary rounds) := by
  induction rounds with
  | zero => exact steady_ok []
  | succ rounds ih =>
      exact .symbol "|" ((filterCall_steady hforesees h).bind fun call =>
        ih.bind fun rest => steady_ok (call :: rest)) (steady_ok [])

theorem filtered_steady : Steady allowed expected (filtered primary) := by
  have hchain (base : Expr) : Steady allowed expected fun ls =>
      chain primary ls.length ls >>= fun read =>
        .ok (if read.1.isEmpty then base else .filtered base read.1, read.2) :=
    .sized fun rounds => (chain_steady hforesees h rounds).bind fun calls =>
      steady_ok (if calls.isEmpty then base else .filtered base calls)
  exact h.bind hchain

theorem comparison_steady : Steady allowed expected (comparison primary) := by
  have hrhs (lhs : Expr) (op : String) : Steady allowed expected fun ls =>
      filtered primary ls >>= fun read => .ok (Expr.binary op lhs read.1, read.2) :=
    (filtered_steady hforesees h).bind fun rhs => steady_ok (Expr.binary op lhs rhs)
  exact (filtered_steady hforesees h).bind fun lhs =>
    .operator isComparison (fun _ _ => rfl) (hrhs lhs) lhs

/-- Operands are read alike, round by round. -/
theorem logicalTail_steady (rounds : Nat) (lhs : Expr) :
    Steady allowed expected (logicalTail primary rounds lhs) := by
  induction rounds generalizing lhs with
  | zero => exact steady_ok lhs
  | succ rounds ih =>
      have hrhs (op : String) : Steady allowed expected fun ls => comparison primary ls >>= fun read =>
          logicalTail primary rounds (.binary op lhs read.1) read.2 :=
        (comparison_steady hforesees h).bind fun rhs => ih (.binary op lhs rhs)
      exact .operator isLogical (fun _ _ => rfl) hrhs lhs

theorem logical_steady : Steady allowed expected (logical primary) :=
  (comparison_steady hforesees h).bind fun lhs =>
    .sized fun rounds => logicalTail_steady hforesees h rounds lhs

/-- A key between brackets is read alike, written or computed. -/
theorem bracket_steady : Steady allowed expected (bracket primary) := by
  have hcomputed : Steady allowed expected fun ls => logical primary ls >>= fun read =>
      Parser.require "]" .noIndexEnd read.2 >>= fun ls => .ok (Accessor.key read.1, ls) :=
    (logical_steady hforesees h).bind fun key =>
      .require "]" (hforesees.error _ rfl) (steady_ok (Accessor.key key))
  intro ls ls' hmoved
  -- A literal and the end of the bracket are looked at together; with fewer lexemes there is no
  -- such step.
  cases hmoved with
  | nil => exact hcomputed .nil
  | @cons key key' _ _ hkey hbehind =>
      cases hbehind with
      | nil => exact hcomputed (.cons hkey .nil)
      | cons hclose hls =>
          have hagrees := hcomputed (.cons hkey (.cons hclose hls))
          have hliteral : literal? key' = literal? key := by
            simp only [literal?, hkey.1, hkey.2.1]
          simp only [bracket, hliteral, ← hclose.1, ← hclose.2.1]
          split
          · -- A literal that stands alone is the step; all else is computed.
            split
            · exact .ok _ hls
            · exact .ok _ hls
            · exact hagrees
          · exact hagrees

/-- Steps are read alike, round by round. -/
theorem steps_steady (rounds : Nat) : Steady allowed expected (steps primary rounds) := by
  induction rounds with
  | zero => exact steady_ok []
  | succ rounds ih =>
      -- Both kinds of steps go on in the same way.
      have hbehind {rule : Parser Accessor} (hrule : Steady allowed expected rule) :
          Steady allowed expected fun ls => rule ls >>= fun first =>
            steps primary rounds first.2 >>= fun rest => .ok (first.1 :: rest.1, rest.2) :=
        hrule.bind fun step => ih.bind fun rest => steady_ok (step :: rest)
      intro ls ls' hmoved
      simp only [steps]
      rcases hmoved.symbol? "." with ⟨hnone, hnone'⟩ | ⟨rest, rest', hrest, hsome, hsome'⟩
      · rw [hnone, hnone']
        rcases hmoved.symbol? "[" with ⟨hopen, hopen'⟩ | ⟨rest, rest', hrest, hopen, hopen'⟩
        · rw [hopen, hopen']
          exact .ok [] hmoved
        · rw [hopen, hopen']
          exact hbehind (bracket_steady hforesees h) hrest
      · rw [hsome, hsome']
        exact hbehind (property_steady hforesees) hrest

theorem range_steady : Steady allowed expected (range primary) :=
  h.bind fun start => .require ".." (hforesees.error _ rfl) <| h.bind fun stop =>
    .require ")" (hforesees.error _ rfl) (steady_ok (rangeOf start stop))

end Rules

/-- A value is read alike, by the depth that is left. -/
theorem primary_steady (hforesees : Foresees allowed expected) (depth : Nat) :
    Steady allowed expected (primary depth) := by
  induction depth with
  | zero =>
      intro ls ls' hmoved
      cases hmoved with
      | nil => exact .error (hforesees.error _ rfl)
      | cons hl =>
          simp only [primary, ← hl.2.1]
          exact .error (hforesees.error _ rfl)
  | succ depth ih =>
      have hpath (name : String) : Steady allowed expected fun ls =>
          steps (primary depth) ls.length ls >>= fun read =>
            .ok (Expr.path name read.1, read.2) :=
        .sized fun rounds => (steps_steady hforesees ih rounds).bind fun path =>
          steady_ok (Expr.path name path)
      intro ls ls' hmoved
      cases hmoved with
      | nil => exact .error (hforesees.error _ rfl)
      | @cons l l' ls ls' hl hls =>
          have hliteral : literal? l' = literal? l := by
            simp only [literal?, hl.1, hl.2.1]
          -- What is read is decided by the kind and the text of the first lexeme.
          simp only [primary, refusal, tooLong, hliteral, ← hl.1, ← hl.2.1]
          cases hnone : literal? l with
          | some value => exact .ok _ hls
          | none =>
              dsimp only
              split
              · exact hpath l.text hls
              split
              · exact range_steady hforesees ih hls
              split
              · rename_i hinteger
                have hkind : l.kind = .integer := eq_of_beq hinteger
                have hn : integerOf? l.text = none := by
                  simpa [literal?, hkind] using hnone
                exact .error (hforesees.long l hl.2.2 hkind hn)
              · exact .error (hforesees.error _ rfl)

/-- Whole expressions are read alike. -/
theorem expression_steady (hforesees : Foresees allowed expected) :
    Steady allowed expected expression :=
  .sized fun depth => logical_steady hforesees (primary_steady hforesees depth)

end Parser

end Liquid
