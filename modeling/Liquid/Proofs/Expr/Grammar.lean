import Liquid.Expr.Parse
import Liquid.Proofs.Text.Digit

/-!
# The Grammar of Expressions

Which lists of lexemes are an expression, and which expression it is:

    logical    = comparison (("and" | "or") comparison)*
    comparison = filtered (COMPARISON filtered)?
    filtered   = primary ("|" call)*
    call       = NAME (":" argument ("," argument)*)?
    argument   = NAME ":" primary | primary
    primary    = literal | NAME step* | "(" primary ".." primary ")"
    step       = "." (NAME | KEYWORD | INTEGER) | "[" written "]" | "[" logical "]"

Each rule is a relation between all the lexemes of a part and what the part is
read as. Nothing is said of where a part ends, of bounds, or of the order in
which alternatives are tried. Nor does any rule ask the parser for its answer:
what an integer, a call and a range are made of is told here once more, digit by
digit and argument by argument.

The lexemes between two logical operators and the operators are collected in a
row, and the row is folded up from the left. A key in brackets is written out if
it is one integer or one string and nothing else; only other keys are computed.
The arguments of a call are parted into those by position and those under a
name, each in the order in which they stand. A range is a literal if its ends
are two integers.

## Main definitions

* `Lexeme.IsSymbol`: A lexeme that is the given punctuation.
* `Grammar.Whole`: The integer that a text writes.
* `Grammar.Literal`, `Grammar.Property`, `Grammar.Written`: Values and keys that are one lexeme.
* `Grammar.Parted`: Arguments by position and under names.
* `Grammar.Span`: What the two ends of a range make.
* `Grammar.Logical` and the relations under it: The rules.

## Theorems

* `Grammar.whole_iff`, `Grammar.parted_iff`, `Grammar.span_iff`,
  `Grammar.compares_iff`, `Grammar.connects_iff`: The parser computes what these
  rules say.
* `Parser.literal?_eq_some_iff`, `Parser.symbol?_eq_some_iff`,
  `Parser.require_eq_ok_iff`, `Parser.identifier_eq_ok_iff`: What the readers of
  one lexeme read.
-/

namespace Liquid

/-- Whether a lexeme is the given punctuation. -/
def Lexeme.IsSymbol (symbol : String) (l : Lexeme) : Prop :=
  l.kind = .symbol ∧ l.text = symbol

instance (symbol : String) (l : Lexeme) : Decidable (l.IsSymbol symbol) :=
  inferInstanceAs (Decidable (_ ∧ _))

namespace Grammar

open Text (Digits)

/-- The integer that a text writes: digits, up to 4300 of them, with a minus before them or not. -/
inductive Whole : String → Int → Prop
  | plain {digits : List Char} {n : Nat} :
      Digits digits n → digits.length ≤ 4300 → Whole (String.ofList digits) n
  | negative {digits : List Char} {n : Nat} :
      Digits digits n → digits.length ≤ 4300 → Whole (String.ofList ('-' :: digits)) (-n)

/-- The value that a word stands for. -/
inductive Word : String → Value → Prop
  | true : Word "true" (.bool true)
  | false : Word "false" (.bool false)
  | nil : Word "nil" .nil
  | null : Word "null" .nil

/-- The key behind a point. -/
inductive Property : Lexeme → Accessor → Prop
  | name {l : Lexeme} : l.kind = .identifier ∨ l.kind = .keyword → Property l (.field l.text)
  | index {l : Lexeme} {n : Int} : l.kind = .integer → Whole l.text n → Property l (.index n)

/-- The value that a lexeme writes out. -/
inductive Literal : Lexeme → Value → Prop
  | string {l : Lexeme} : l.kind = .string → Literal l (.string l.text)
  | integer {l : Lexeme} {n : Int} : l.kind = .integer → Whole l.text n → Literal l (.integer n)
  | decimal {l : Lexeme} {d : Decimal} :
      l.kind = .decimal → Decimal.read? l.text.toList = some d → Literal l (.decimal d)
  | keyword {l : Lexeme} {value : Value} :
      l.kind = .keyword → Word l.text value → Literal l value

/-- A key between brackets that is one integer or one string. -/
inductive Written : List Lexeme → Accessor → Prop
  | index {l : Lexeme} {n : Int} : l.kind = .integer → Whole l.text n → Written [l] (.index n)
  | field {l : Lexeme} : l.kind = .string → Written [l] (.field l.text)

/-- The operators of comparison. -/
def Compares (l : Lexeme) : Prop :=
  (l.kind = .operator ∨ l.kind = .keyword) ∧
    l.text ∈ ["==", "!=", "<>", ">", "<", ">=", "<=", "contains"]

/-- The logical operators. -/
def Connects (l : Lexeme) : Prop :=
  l.kind = .keyword ∧ (l.text = "and" ∨ l.text = "or")

/-- Arguments as they are written, those among them by position, and those under a name. -/
inductive Parted : List (Option String × Expr) → List Expr → List (String × Expr) → Prop
  | nil : Parted [] [] []
  | plain {value : Expr} {arguments : List (Option String × Expr)} {args : List Expr}
      {options : List (String × Expr)} :
      Parted arguments args options → Parted ((none, value) :: arguments) (value :: args) options
  | named {name : String} {value : Expr} {arguments : List (Option String × Expr)}
      {args : List Expr} {options : List (String × Expr)} :
      Parted arguments args options →
      Parted ((some name, value) :: arguments) args ((name, value) :: options)

/-- Whether the ends of a range are two integers that are written out. -/
def IsSpan (start stop : Expr) : Prop :=
  ∃ first last, start = .literal (.integer first) ∧ stop = .literal (.integer last)

/-- What the ends of a range make: a literal if both are integers, and else what is computed. -/
inductive Span : Expr → Expr → Expr → Prop
  | literal {first last : Int} :
      Span (.literal (.integer first)) (.literal (.integer last)) (.literal (.range first last))
  | computed {start stop : Expr} : ¬IsSpan start stop → Span start stop (.range start stop)

/-- An expression with operands on its right, grouped to the left. -/
def folded (lhs : Expr) (operands : List (String × Expr)) : Expr :=
  operands.foldl (fun lhs operand => .binary operand.1 lhs operand.2) lhs

/-- An expression with filters, if there are any. -/
def withCalls (base : Expr) (calls : List FilterCall) : Expr :=
  if calls.isEmpty then base else .filtered base calls

mutual

inductive Primary : List Lexeme → Expr → Prop
  | literal {l : Lexeme} {value : Value} :
      Literal l value → Primary [l] (.literal value)
  | path {root : Lexeme} {rest : List Lexeme} {steps : List Accessor} :
      root.kind = .identifier → Steps rest steps →
      Primary (root :: rest) (.path root.text steps)
  | range {opening dots closing : Lexeme} {first last : List Lexeme} {start stop range : Expr} :
      opening.IsSymbol "(" → Primary first start → dots.IsSymbol ".." → Primary last stop →
      closing.IsSymbol ")" → Span start stop range →
      Primary (opening :: (first ++ dots :: (last ++ [closing]))) range

inductive Steps : List Lexeme → List Accessor → Prop
  | nil : Steps [] []
  | point {point key : Lexeme} {rest : List Lexeme} {step : Accessor} {steps : List Accessor} :
      point.IsSymbol "." → Property key step → Steps rest steps →
      Steps (point :: key :: rest) (step :: steps)
  | bracket {opening closing : Lexeme} {inside rest : List Lexeme} {step : Accessor}
      {steps : List Accessor} :
      opening.IsSymbol "[" → Bracket inside step → closing.IsSymbol "]" → Steps rest steps →
      Steps (opening :: (inside ++ closing :: rest)) (step :: steps)

inductive Bracket : List Lexeme → Accessor → Prop
  | written {inside : List Lexeme} {step : Accessor} :
      Written inside step → Bracket inside step
  | computed {inside : List Lexeme} {key : Expr} :
      (∀ step, ¬Written inside step) → Logical inside key → Bracket inside (.key key)

inductive Argument : List Lexeme → Option String × Expr → Prop
  | named {name colon : Lexeme} {used : List Lexeme} {value : Expr} :
      name.kind = .identifier → colon.IsSymbol ":" → Primary used value →
      Argument (name :: colon :: used) (some name.text, value)
  | plain {used : List Lexeme} {value : Expr} : Primary used value → Argument used (none, value)

inductive Arguments : List Lexeme → List (Option String × Expr) → Prop
  | one {used : List Lexeme} {argument : Option String × Expr} :
      Argument used argument → Arguments used [argument]
  | more {comma : Lexeme} {used rest : List Lexeme} {argument : Option String × Expr}
      {arguments : List (Option String × Expr)} :
      Argument used argument → comma.IsSymbol "," → Arguments rest arguments →
      Arguments (used ++ comma :: rest) (argument :: arguments)

inductive Call : List Lexeme → FilterCall → Prop
  | bare {name : Lexeme} : name.kind = .identifier → Call [name] (.call name.text [] [])
  | applied {name colon : Lexeme} {used : List Lexeme}
      {arguments : List (Option String × Expr)} {args : List Expr}
      {options : List (String × Expr)} :
      name.kind = .identifier → colon.IsSymbol ":" → Arguments used arguments →
      Parted arguments args options →
      Call (name :: colon :: used) (.call name.text args options)

inductive Chain : List Lexeme → List FilterCall → Prop
  | nil : Chain [] []
  | cons {bar : Lexeme} {used rest : List Lexeme} {call : FilterCall} {calls : List FilterCall} :
      bar.IsSymbol "|" → Call used call → Chain rest calls →
      Chain (bar :: (used ++ rest)) (call :: calls)

inductive Filtered : List Lexeme → Expr → Prop
  | mk {first rest : List Lexeme} {base : Expr} {calls : List FilterCall} :
      Primary first base → Chain rest calls → Filtered (first ++ rest) (withCalls base calls)

inductive Comparison : List Lexeme → Expr → Prop
  | one {used : List Lexeme} {side : Expr} : Filtered used side → Comparison used side
  | two {op : Lexeme} {first last : List Lexeme} {lhs rhs : Expr} :
      Filtered first lhs → Compares op → Filtered last rhs →
      Comparison (first ++ op :: last) (.binary op.text lhs rhs)

inductive Operands : List Lexeme → List (String × Expr) → Prop
  | nil : Operands [] []
  | cons {op : Lexeme} {used rest : List Lexeme} {rhs : Expr} {operands : List (String × Expr)} :
      Connects op → Comparison used rhs → Operands rest operands →
      Operands (op :: (used ++ rest)) ((op.text, rhs) :: operands)

inductive Logical : List Lexeme → Expr → Prop
  | mk {first rest : List Lexeme} {lhs : Expr} {operands : List (String × Expr)} :
      Comparison first lhs → Operands rest operands →
      Logical (first ++ rest) (folded lhs operands)

end

theorem arguments_ne_nil {used : List Lexeme} {arguments : List (Option String × Expr)}
    (h : Arguments used arguments) : arguments ≠ [] := by
  cases h with
  | one => exact List.cons_ne_nil _ _
  | more => exact List.cons_ne_nil _ _

section Computed

/-- Digits are read if there are not too many of them. -/
theorem naturalOf?_eq_some_iff {digits : List Char} {n : Nat} :
    Parser.naturalOf? digits = some n ↔ Digits digits n ∧ digits.length ≤ 4300 := by
  unfold Parser.naturalOf? Parser.maxDigits
  by_cases hlength : digits.length ≤ 4300
  · rw [if_pos hlength, Text.readNat?_eq_some_iff]
    exact (and_iff_left hlength).symm
  · rw [if_neg hlength]
    simp [hlength]

/-- A minus is no digit, so the two ways to write an integer exclude each other. -/
theorem whole_iff {text : String} {n : Int} :
    Parser.integerOf? text = some n ↔ Whole text n := by
  constructor
  · intro h
    -- A minus is no digit, so the two forms of an integer exclude each other.
    unfold Parser.integerOf? at h
    split at h <;> rename_i htext <;>
      rcases Option.map_eq_some_iff.mp h with ⟨m, hm, rfl⟩ <;>
      rcases naturalOf?_eq_some_iff.mp hm with ⟨hdigits, hlength⟩
    · rw [← String.ofList_toList (s := text), htext]
      exact .negative hdigits hlength
    · rw [← String.ofList_toList (s := text)]
      exact .plain hdigits hlength
  · rintro (⟨hdigits, hlength⟩ | ⟨hdigits, hlength⟩) <;> unfold Parser.integerOf? <;>
      rw [String.toList_ofList]
    · split
      · have hminus := hdigits.isDigit '-' List.mem_cons_self
        exact absurd hminus (by decide)
      · rw [naturalOf?_eq_some_iff.mpr ⟨hdigits, hlength⟩]
        rfl
    · simp only [naturalOf?_eq_some_iff.mpr ⟨hdigits, hlength⟩]
      rfl

/-- The words of the language are the ones that stand for values. -/
theorem word_iff {word : String} {value : Value} :
    Parser.keywordValue? word = some value ↔ Word word value := by
  constructor
  · intro h
    unfold Parser.keywordValue? at h
    split at h <;> cases h
    · exact .true
    · exact .false
    · exact .nil
    · exact .null
  · rintro (_ | _ | _ | _) <;> rfl

/-- The test of the parser is the rule of the grammar. -/
theorem compares_iff {l : Lexeme} : Parser.isComparison l = true ↔ Compares l := by
  simp only [Parser.isComparison, Parser.comparisons, Bool.and_eq_true, Bool.or_eq_true,
    beq_iff_eq, List.contains_iff_mem]
  rfl

theorem connects_iff {l : Lexeme} : Parser.isLogical l = true ↔ Connects l := by
  simp only [Parser.isLogical, Parser.connectives, Bool.and_eq_true, beq_iff_eq,
    List.contains_iff_mem, List.mem_cons, List.not_mem_nil, or_false]
  rfl

/-- Both lists are cut out of the arguments, and each keeps their order. -/
theorem parted_iff {name : String} {arguments : List (Option String × Expr)} {args : List Expr}
    {options : List (String × Expr)} :
    Parser.callOf name arguments = .call name args options ↔ Parted arguments args options := by
  constructor
  · intro h
    cases h
    -- The arguments are parted one by one, each in its own list.
    induction arguments with
    | nil => exact .nil
    | cons argument arguments ih =>
        rcases argument with ⟨_ | key, value⟩
        · exact .plain ih
        · exact .named ih
  · intro h
    induction h with
    | nil => rfl
    | plain _ ih | named _ ih =>
        cases ih
        rfl

/-- Two integers make a literal range, and all other ends are computed. -/
theorem span_iff {start stop range : Expr} :
    Parser.rangeOf start stop = range ↔ Span start stop range := by
  -- Bounds that are not both integers are left to be computed.
  have hcomputed (h : ¬IsSpan start stop) : Parser.rangeOf start stop = .range start stop := by
    unfold Parser.rangeOf
    split
    · exact absurd ⟨_, _, rfl, rfl⟩ h
    · rfl
  constructor
  · rintro rfl
    by_cases h : IsSpan start stop
    · rcases h with ⟨first, last, rfl, rfl⟩
      exact .literal
    · rw [hcomputed h]
      exact .computed h
  · rintro (_ | h)
    · rfl
    · exact hcomputed h

end Computed

end Grammar

namespace Parser

/-- No keyword stands for a number or a string. -/
theorem nil_or_bool_of_word {word : String} {value : Value} (h : Grammar.Word word value) :
    value = .nil ∨ ∃ b, value = .bool b := by
  cases h with
  | true | false => exact .inr ⟨_, rfl⟩
  | nil | null => exact .inl rfl

/-- A literal is read by its kind, and only if its text is one. -/
theorem literal?_eq_some_iff {l : Lexeme} {value : Value} :
    literal? l = some value ↔ Grammar.Literal l value := by
  constructor
  · intro h
    unfold literal? at h
    -- By the kind of the lexeme, as both the parser and the grammar do.
    cases hkind : l.kind with
    | string =>
        rw [hkind] at h
        cases h
        exact .string hkind
    | integer =>
        rw [hkind] at h
        rcases Option.map_eq_some_iff.mp h with ⟨n, hn, rfl⟩
        exact .integer hkind (Grammar.whole_iff.mp hn)
    | decimal =>
        rw [hkind] at h
        rcases Option.map_eq_some_iff.mp h with ⟨d, hd, rfl⟩
        exact .decimal hkind hd
    | keyword =>
        rw [hkind] at h
        exact .keyword hkind (Grammar.word_iff.mp h)
    | _ =>
        rw [hkind] at h
        cases h
  · intro h
    cases h with
    | string hkind => simp [literal?, hkind]
    | integer hkind hn => simp [literal?, hkind, Grammar.whole_iff.mpr hn]
    | decimal hkind hd => simp [literal?, hkind, hd]
    | keyword hkind hword => simp [literal?, hkind, Grammar.word_iff.mpr hword]

/-- A symbol is read if it is the first lexeme. -/
theorem symbol?_cons (symbol : String) (l : Lexeme) (ls : List Lexeme) :
    symbol? symbol (l :: ls) = if l.IsSymbol symbol then some ls else none := by
  rw [symbol?]
  simp only [Bool.and_eq_true, beq_iff_eq]
  rfl

/-- A symbol is read off the front of the lexemes, and only there. -/
theorem symbol?_eq_some_iff {symbol : String} {ls rest : List Lexeme} :
    symbol? symbol ls = some rest ↔ ∃ l, l.IsSymbol symbol ∧ ls = l :: rest := by
  cases ls with
  | nil => simp [symbol?]
  | cons l ls =>
      rw [symbol?_cons]
      -- The first lexeme decides.
      by_cases hl : l.IsSymbol symbol
      · rw [if_pos hl]
        constructor
        · intro h
          cases h
          exact ⟨l, hl, rfl⟩
        · rintro ⟨_, _, heq⟩
          cases heq
          rfl
      · rw [if_neg hl]
        constructor
        · intro h
          cases h
        · rintro ⟨_, hsymbol, heq⟩
          cases heq
          exact absurd hsymbol hl

theorem require_eq_ok_iff {symbol : String} {fault : Expr.Fault} {ls rest : List Lexeme} :
    require symbol fault ls = .ok rest ↔ ∃ l, l.IsSymbol symbol ∧ ls = l :: rest := by
  rw [← symbol?_eq_some_iff]
  unfold require
  cases symbol? symbol ls <;> simp

theorem identifier_cons (fault : Expr.Fault) (l : Lexeme) (ls : List Lexeme) :
    identifier fault (l :: ls) =
      if l.kind = .identifier then .ok (l.text, ls) else .error fault := by
  rw [identifier]
  simp only [beq_iff_eq]

/-- A name is read off the front of the lexemes, and only there. -/
theorem identifier_eq_ok_iff {fault : Expr.Fault} {ls rest : List Lexeme} {name : String} :
    identifier fault ls = .ok (name, rest) ↔
      ∃ l, l.kind = .identifier ∧ l.text = name ∧ ls = l :: rest := by
  cases ls with
  | nil => simp [identifier]
  | cons l ls =>
      rw [identifier_cons]
      -- The first lexeme decides.
      by_cases hl : l.kind = .identifier
      · rw [if_pos hl]
        constructor
        · intro h
          cases h
          exact ⟨l, hl, rfl, rfl⟩
        · rintro ⟨_, _, rfl, heq⟩
          cases heq
          rfl
      · rw [if_neg hl]
        constructor
        · intro h
          cases h
        · rintro ⟨_, hkind, _, heq⟩
          cases heq
          exact absurd hkind hl

end Parser

end Liquid
