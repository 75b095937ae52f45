import Liquid.Proofs.Decimal.Text
import Liquid.Proofs.Expr.Completeness
import Liquid.Proofs.Expr.Lexeme
import Liquid.Proofs.Expr.Rule

/-!
# Sources and Expressions

A source is an expression exactly if its lexemes are derived by the grammar, and
it is the one expression that they are derived as. Every other source is a
fault, and an error of the language if none of its integers is too long. No
bound on the nesting has a part in it.

What the grammar takes for a literal is a lexeme with a value. The lexemes of a
source that should have a value do: strings, numbers and four keywords. Only
numbers have bounds: an integer has so many digits at most, and the numbers that
decimals can be have a bound.

Nothing of this depends on where in the source the lexemes stand.

Two rules are asked for all of a source: one for a whole expression, and one for
a value with its filters, where operators have no place. The second reads what
the first does and no more, except for the expressions that an operator is
outermost in. There are no others that an operator could hide in, since it does
not stand in parentheses, and a key in brackets is read by the first rule either
way.

## Main definitions

* `Lexeme.IsLiteral`: The lexemes that are meant as values.
* `Lexeme.IsLong`: The integers that have too many digits to be read.
* `Lexeme.unplaced`: A lexeme as if it stood at the start.

## Theorems

* `Grammar.expression_eq_ok_iff`: All of a list of lexemes is read exactly if it
  is derived.
* `Grammar.literal_iff_of_spelled`: The lexemes that are meant as values have one.
* `Grammar.crash?_of_parse`: Only an integer that is too long is a crash.
* `Grammar.parse_iff_logical`: The sources that are an expression.
* `Expr.parse_congr`: Sources with lexemes of the same kinds and texts are the
  same expression, or none for the same reason.
* `Grammar.filtered_iff`: What is derived as a value with filters.
* `Expr.parseChain_eq_ok_iff`: The sources that the second rule reads.
* `Expr.parseChain_eq_error`: All others are a fault to it.
-/

namespace Liquid

/-- The lexemes that are meant as values. -/
def Lexeme.IsLiteral (l : Lexeme) : Prop :=
  l.kind = .string ∨ l.kind = .integer ∨ l.kind = .decimal ∨
    (l.kind = .keyword ∧ l.text ∈ ["true", "false", "nil", "null"])

/-- The integers that have too many digits to be read. -/
def Lexeme.IsLong (l : Lexeme) : Prop :=
  l.kind = .integer ∧ 4300 < l.text.toList.countP Text.isDigit

/-- A lexeme as if it stood at the start of its source. -/
def Lexeme.unplaced (l : Lexeme) : Lexeme :=
  { l with offset := 0 }

namespace Grammar

section Numbers

open Lexeme

variable {sign whole places : List Char}

/-- The digits of an integer are counted without its sign. -/
theorem exists_whole {text : String} (h : Number .integer text.toList)
    (hshort : text.toList.countP Text.isDigit ≤ 4300) : ∃ n, Whole text n := by
  rw [← String.ofList_toList (s := text)]
  generalize text.toList = cs at h hshort
  cases h with
  | @integer sign whole hsign hwhole =>
      rcases Text.readNat?_digits hwhole.ne_nil hwhole.digit with ⟨n, hn, _⟩
      have hdigits := Text.readNat?_eq_some_iff.mp hn
      rw [List.countP_append, List.countP_eq_length.mpr hwhole.digit] at hshort
      have hlength : whole.length ≤ 4300 := Nat.le_of_add_left_le hshort
      rcases hsign with rfl | rfl
      · exact ⟨n, .plain hdigits hlength⟩
      · exact ⟨-n, .negative hdigits hlength⟩

/-- An integer has no more digits than the language takes. -/
theorem Whole.countP_le {text : String} {n : Int} (h : Whole text n) :
    text.toList.countP Text.isDigit ≤ 4300 := by
  cases h with
  | plain _ hlength =>
      rw [String.toList_ofList]
      exact Nat.le_trans List.countP_le_length hlength
  | negative _ hlength =>
      rw [String.toList_ofList, List.countP_cons_of_neg (by decide)]
      exact Nat.le_trans List.countP_le_length hlength

/-- Too many digits are no integer. -/
theorem integerOf?_of_long {text : String} (h : 4300 < text.toList.countP Text.isDigit) :
    Parser.integerOf? text = none := by
  cases hn : Parser.integerOf? text with
  | none => rfl
  | some n => exact absurd (whole_iff.mp hn).countP_le (Nat.not_le.mpr h)

/-- A number is written with the sign of some number. -/
theorem exists_sign (hsign : sign = [] ∨ sign = ['-']) :
    ∃ negative, sign = Decimal.sign negative := by
  rcases hsign with rfl | rfl
  · exact ⟨false, rfl⟩
  · exact ⟨true, rfl⟩

/-- A number with fewer digits than an exponent may count is in bounds. -/
theorem bounded?_digits (negative : Bool) {n length places : Nat} (hn : n < 10 ^ length)
    (hlength : length < 10 ^ 18) (hplaces : places < length) :
    ∃ d, Decimal.bounded? negative n (0 - places) = some d := by
  have hcount := (Decimal.digitCount_le_iff (Nat.zero_lt_of_lt hplaces)).mpr hn
  refine ⟨_, if_neg ?_⟩
  -- The leading digit is at most as far from the point as the text is long.
  unfold Decimal.leading
  simp only [Bool.or_eq_true, decide_eq_true_eq]
  omega

/-- Every decimal of the language is read, unless its exponent would be out of bounds. -/
theorem read?_number {cs : List Char} (h : Number .decimal cs) (hlength : cs.length < 10 ^ 18) :
    ∃ d, Decimal.read? cs = some d := by
  cases h with
  | @decimal sign whole places hsign hwhole hplaces =>
      rcases exists_sign hsign with ⟨negative, rfl⟩
      have hdigits : IsDigits (whole ++ places) :=
        ⟨by simp [hwhole.ne_nil], fun c hc =>
          (List.mem_append.mp hc).elim (hwhole.digit c) (hplaces.digit c)⟩
      rcases Text.readNat?_digits hdigits.ne_nil hdigits.digit with ⟨n, hn, hlt⟩
      rw [Decimal.read?_point negative hwhole.ne_nil hwhole.digit hplaces.digit, hn,
        Option.bind_some]
      -- The digits bound both the exponent and the leading digit.
      refine bounded?_digits negative hlt ?_ ?_ <;>
        simp only [List.length_append, List.length_cons] at hlength ⊢
      · omega
      · have := List.length_pos_iff.mpr hwhole.ne_nil
        omega

end Numbers

/-- Each of the four words stands for a value. -/
theorem exists_word {word : String} (h : word ∈ ["true", "false", "nil", "null"]) :
    ∃ value, Word word value := by
  simp only [List.mem_cons, List.not_mem_nil, or_false] at h
  rcases h with rfl | rfl | rfl | rfl
  · exact ⟨_, .true⟩
  · exact ⟨_, .false⟩
  · exact ⟨_, .nil⟩
  · exact ⟨_, .null⟩

/-- A lexeme is a literal by its kind, and an integer also by its length. -/
theorem literal_iff_of_spelled {l : Lexeme} (h : l.Spelled) (hlength : l.text.length < 10 ^ 18) :
    (∃ value, Literal l value) ↔ l.IsLiteral ∧ ¬l.IsLong := by
  -- Only integers can be too long.
  have hnot {kind : Lexeme.Kind} (hkind : l.kind = kind) (hne : kind ≠ .integer) : ¬l.IsLong :=
    fun hlong => hne (hkind.symm.trans hlong.1)
  constructor
  · rintro ⟨value, hvalue⟩
    cases hvalue with
    | string hkind => exact ⟨.inl hkind, hnot hkind (by decide)⟩
    | integer hkind hwhole =>
        exact ⟨.inr (.inl hkind), fun hlong => Nat.not_le.mpr hlong.2 hwhole.countP_le⟩
    | decimal hkind => exact ⟨.inr (.inr (.inl hkind)), hnot hkind (by decide)⟩
    | keyword hkind hword =>
        refine ⟨.inr (.inr (.inr ⟨hkind, ?_⟩)), hnot hkind (by decide)⟩
        generalize l.text = word at hword
        cases hword <;> decide
  · rintro ⟨hkind | hkind | hkind | ⟨hkind, hword⟩, hshort⟩
    · exact ⟨_, .string hkind⟩
    · have hcount : l.text.toList.countP Text.isDigit ≤ 4300 :=
        Nat.not_lt.mp fun hlong => hshort ⟨hkind, hlong⟩
      rcases exists_whole (hkind ▸ h.number (.inl hkind)) hcount with ⟨n, hn⟩
      exact ⟨_, .integer hkind hn⟩
    · rcases read?_number (hkind ▸ h.number (.inr hkind)) hlength with ⟨d, hd⟩
      exact ⟨_, .decimal hkind hd⟩
    · rcases exists_word hword with ⟨value, hvalue⟩
      exact ⟨value, .keyword hkind hvalue⟩

/-- All of the lexemes are read exactly if they are derived. -/
theorem expression_eq_ok_iff {ls : List Lexeme} {e : Expr} :
    Parser.expression ls = .ok (e, []) ↔ Logical ls e := by
  constructor
  · intro h
    rcases expression_sound h with ⟨used, rfl, hused⟩
    rwa [List.append_nil]
  · intro h
    -- The bound on the depth is the number of lexemes, which is all that is asked of it.
    have hread := logical_complete h (Nat.le_refl _) ends_nil
    rwa [List.append_nil] at hread

/-- Lexemes are derived in at most one way. -/
theorem logical_unique {ls : List Lexeme} {e e' : Expr} (h : Logical ls e) (h' : Logical ls e') :
    e = e' := by
  have hread := expression_eq_ok_iff.mpr h
  rw [expression_eq_ok_iff.mpr h'] at hread
  cases hread
  rfl

theorem not_logical_nil (e : Expr) : ¬Logical [] e := by
  intro h
  have hread := expression_eq_ok_iff.mpr h
  cases hread

/-- What is read has to end with the source. -/
theorem finish_eq_ok_iff {α : Type} {result a : α} {rest : List Lexeme} :
    Parser.finish result rest = .ok a ↔ rest = [] ∧ result = a := by
  cases rest <;> simp [Parser.finish]

/-- What becomes of the lexemes of a source. -/
theorem parseWith_of_body {rule : Parser Expr} {source : String} {lexemes : List Lexeme}
    (hlexemes : Lexeme.body source = .ok lexemes) :
    Expr.parseWith rule source =
      if lexemes.isEmpty then .error .empty
      else rule lexemes >>= fun (result, rest) => Parser.finish result rest := by
  rw [Expr.parseWith, hlexemes]
  rfl

/-- A rule that nothing is read by has to read all of the lexemes. -/
theorem parseWith_eq_ok_iff {rule : Parser Expr} (hnil : ∀ e, rule [] ≠ .ok (e, []))
    {source : String} {lexemes : List Lexeme} (hlexemes : Lexeme.body source = .ok lexemes)
    {e : Expr} : Expr.parseWith rule source = .ok e ↔ rule lexemes = .ok (e, []) := by
  rw [parseWith_of_body hlexemes]
  -- An empty source is refused before the rule is asked.
  by_cases hempty : lexemes = []
  · subst hempty
    rw [if_pos List.isEmpty_nil]
    constructor
    · intro h
      cases h
    · intro h
      exact absurd h (hnil e)
  · rw [if_neg (by simpa using hempty), bind_eq_ok_iff]
    constructor
    · rintro ⟨⟨result, rest⟩, hread, hfinish⟩
      rcases finish_eq_ok_iff.mp hfinish with ⟨rfl, rfl⟩
      exact hread
    · intro hread
      exact ⟨(e, []), hread, rfl⟩

/-- The parser gives what the grammar derives. -/
theorem parse_eq_ok_iff {source : String} {lexemes : List Lexeme}
    (hlexemes : Lexeme.body source = .ok lexemes) {e : Expr} :
    Expr.parse source = .ok e ↔ Logical lexemes e := by
  have hnil (e : Expr) : Parser.expression [] ≠ .ok (e, []) :=
    fun h => not_logical_nil e (expression_eq_ok_iff.mp h)
  exact (parseWith_eq_ok_iff hnil hlexemes).trans expression_eq_ok_iff

/-- The lexemes of a source are spelled. -/
theorem spelled_of_body {source : String} {lexemes : List Lexeme}
    (hlexemes : Lexeme.body source = .ok lexemes) : ∀ l ∈ lexemes, l.Spelled := by
  unfold Lexeme.body Lexeme.scan at hlexemes
  cases hscan : Lexeme.scanFrom 0 source.toList with
  | error fault =>
      rw [hscan] at hlexemes
      cases hlexemes
  | ok ls =>
      rw [hscan] at hlexemes
      cases hlexemes
      rcases Lexeme.scanFrom_eq_ok hscan with ⟨words, stop, rfl, _, hwords⟩
      rwa [List.dropLast_concat]

/-- A source is an expression exactly if it has lexemes and they are derived. -/
theorem parse_eq_ok_iff_exists {source : String} {e : Expr} :
    Expr.parse source = .ok e ↔ ∃ ls, Lexeme.body source = .ok ls ∧ Logical ls e := by
  constructor
  · intro h
    rcases bind_eq_ok_iff.mp h with ⟨ls, hls, _⟩
    exact ⟨ls, hls, (parse_eq_ok_iff hls).mp h⟩
  · rintro ⟨ls, hls, hderived⟩
    exact (parse_eq_ok_iff hls).mpr hderived

/-- Without an integer that is too long, lexemes that are not read are an error of the language. -/
theorem crash?_of_expression {ls : List Lexeme} (hspelled : ∀ l ∈ ls, l.Spelled)
    (hshort : ∀ l ∈ ls, ¬l.IsLong) {fault : Expr.Fault}
    (h : Parser.expression ls = .error fault) : fault.crash? = none := by
  -- What is asked of the lexemes is that their integers are read.
  have hforesees : Parser.Foresees (fun l => l.kind = .integer → ∃ n, Whole l.text n)
      fun fault => fault.crash? = none :=
    { error := fun _ hcrash => hcrash
      long := fun l hallowed hkind hnone => by
        rcases hallowed hkind with ⟨n, hn⟩
        rw [whole_iff.mpr hn] at hnone
        cases hnone }
  have hmoved : Parser.Moved (fun l => l.kind = .integer → ∃ n, Whole l.text n) ls ls :=
    List.forall₂_same.mpr fun l hl => ⟨rfl, rfl, fun hkind =>
      exists_whole (hkind ▸ (hspelled l hl).number (.inl hkind))
        (Nat.not_lt.mp fun hlong => hshort l hl ⟨hkind, hlong⟩)⟩
  have hagrees := Parser.expression_steady hforesees hmoved
  rw [h] at hagrees
  cases hagrees with
  | error hcrash => exact hcrash

/-- Nor does the end of the lexemes add a crash. -/
theorem crash?_of_parse {source : String} {lexemes : List Lexeme}
    (hlexemes : Lexeme.body source = .ok lexemes) (hshort : ∀ l ∈ lexemes, ¬l.IsLong)
    {fault : Expr.Fault} (h : Expr.parse source = .error fault) : fault.crash? = none := by
  rw [Expr.parse, parseWith_of_body hlexemes] at h
  split at h
  · cases h
    rfl
  -- Only a literal that is too long is refused in another way, and there is none.
  cases hread : Parser.expression lexemes with
  | error cause =>
      rw [hread] at h
      cases h
      exact crash?_of_expression (spelled_of_body hlexemes) hshort hread
  | ok read =>
      rcases read with ⟨result, _ | ⟨l, rest⟩⟩ <;> rw [hread] at h <;> cases h
      rfl

/-- A source whose lexemes are derived is the one expression that they are derived as. Any other
source is a fault, and it is an error of the language unless an integer of it is too long. The
literals of the grammar are the lexemes that are meant as values, but for those integers. (A decimal
can have any number of digits that there is room for.) -/
theorem parse_iff_logical (source : String) (lexemes : List Lexeme)
    (hlexemes : Lexeme.body source = .ok lexemes) :
    (∀ e, Expr.parse source = .ok e ↔ Logical lexemes e) ∧
      (∀ e e', Logical lexemes e → Logical lexemes e' → e = e') ∧
      ((∀ e, ¬Logical lexemes e) → ∃ fault, Expr.parse source = .error fault ∧
        ((∀ l ∈ lexemes, ¬l.IsLong) → fault.crash? = none)) ∧
      (∀ l ∈ lexemes, l.text.length < 10 ^ 18 →
        ((∃ value, Literal l value) ↔ l.IsLiteral ∧ ¬l.IsLong)) := by
  refine ⟨fun e => parse_eq_ok_iff hlexemes, fun e e' => logical_unique, ?_, fun l hl hlength =>
    literal_iff_of_spelled (spelled_of_body hlexemes l hl) hlength⟩
  intro hnone
  -- What is not derived is not parsed, so there is a fault.
  cases hparse : Expr.parse source with
  | error fault => exact ⟨fault, rfl, fun hshort => crash?_of_parse hlexemes hshort hparse⟩
  | ok e => exact absurd ((parse_eq_ok_iff hlexemes).mp hparse) (hnone e)

/-- The lexemes of `a or (1..2) | f: b, k: c, 3 == d[0] and e`. -/
def mixed : List Lexeme :=
  [⟨.identifier, "a", 0⟩, ⟨.keyword, "or", 2⟩, ⟨.symbol, "(", 5⟩, ⟨.integer, "1", 6⟩,
    ⟨.symbol, "..", 7⟩, ⟨.integer, "2", 9⟩, ⟨.symbol, ")", 10⟩, ⟨.symbol, "|", 12⟩,
    ⟨.identifier, "f", 14⟩, ⟨.symbol, ":", 15⟩, ⟨.identifier, "b", 17⟩, ⟨.symbol, ",", 18⟩,
    ⟨.identifier, "k", 20⟩, ⟨.symbol, ":", 21⟩, ⟨.identifier, "c", 23⟩, ⟨.symbol, ",", 24⟩,
    ⟨.integer, "3", 26⟩, ⟨.operator, "==", 28⟩, ⟨.identifier, "d", 31⟩, ⟨.symbol, "[", 32⟩,
    ⟨.integer, "0", 33⟩, ⟨.symbol, "]", 34⟩, ⟨.keyword, "and", 36⟩, ⟨.identifier, "e", 40⟩]

/-- Logical operators have one level, so the last of them is outermost. Of the arguments the option
stands apart, and the others keep their order. The range is written out. -/
theorem parse_iff_logical_mixed :
    Lexeme.body "a or (1..2) | f: b, k: c, 3 == d[0] and e" = .ok mixed ∧
      Logical mixed
        (.binary "and"
          (.binary "or" (.path "a" [])
            (.binary "=="
              (.filtered (.literal (.range 1 2))
                [.call "f" [.path "b" [], .literal (.integer 3)] [("k", .path "c" [])]])
              (.path "d" [.index 0])))
          (.path "e" [])) := by
  have hmixed : Lexeme.body "a or (1..2) | f: b, k: c, 3 == d[0] and e" = .ok mixed := by
    decide +kernel
  -- The parser is run on the lexemes, and the tree it gives is the one that the grammar derives.
  refine ⟨hmixed, ((parse_iff_logical _ _ hmixed).1 _).mp ?_⟩
  rw [Expr.parse, Expr.parseWith, hmixed]
  rfl

section Filtered

variable {ls : List Lexeme} {e : Expr}

/-- A value with filters is an expression. -/
theorem logical_of_filtered (h : Filtered ls e) : Logical ls e := by
  have hlogical : Logical (ls ++ []) (folded e []) := .mk (.one h) .nil
  rwa [List.append_nil] at hlogical

/-- Operators make an expression with an operator. -/
theorem folded_cons (lhs : Expr) (operand : String × Expr) (operands : List (String × Expr)) :
    ∃ op left right, folded lhs (operand :: operands) = .binary op left right := by
  induction operands generalizing lhs operand with
  | nil => exact ⟨_, _, _, rfl⟩
  | cons next operands ih => exact ih (.binary operand.1 lhs operand.2) next

/-- No primary is an operator: operators do not stand in parentheses. -/
theorem isBinary_of_primary (h : Primary ls e) : e.isBinary = false := by
  cases h with
  | literal => rfl
  | path => rfl
  | range _ _ _ _ _ hspan => cases hspan <;> rfl

/-- A value with filters is no operation. -/
theorem isBinary_of_filtered (h : Filtered ls e) : e.isBinary = false := by
  cases h with
  | mk hbase hcalls =>
      cases hcalls with
      | nil => exact isBinary_of_primary hbase
      | cons => rfl

/-- Without an operator an expression is a value with filters. -/
theorem filtered_iff : Filtered ls e ↔ Logical ls e ∧ e.isBinary = false := by
  constructor
  · intro h
    exact ⟨logical_of_filtered h, isBinary_of_filtered h⟩
  · rintro ⟨hlogical, hbinary⟩
    cases hlogical with
    | @mk first rest lhs operands hlhs hoperands =>
        cases hoperands with
        | cons =>
            -- What is folded up with an operand is an operator with it.
            rcases folded_cons lhs _ _ with ⟨op, left, right, hfolded⟩
            rw [hfolded] at hbinary
            cases hbinary
        | nil =>
            rw [List.append_nil]
            cases hlhs with
            | one hside => exact hside
            | two => cases hbinary

/-- All of the lexemes are read as a value with filters exactly if they are derived as one. -/
theorem filteredValue_eq_ok_iff : Parser.filteredValue ls = .ok (e, []) ↔ Filtered ls e := by
  constructor
  · intro h
    rcases filtered_sound (primary_sound ls.length) h with ⟨used, rfl, hused⟩
    rwa [List.append_nil]
  · intro h
    have hread := filtered_complete h (Nat.le_refl _) free_nil
    rwa [List.append_nil] at hread

end Filtered

end Grammar

namespace Expr

section Chain

variable {source : String} {e : Expr}

/-- What can be echoed and assigned: the expressions without an operator. -/
theorem parseChain_eq_ok_iff :
    parseChain source = .ok e ↔ parse source = .ok e ∧ e.isBinary = false := by
  -- The two readings differ in the rule, but not in what surrounds it.
  have hnil (e : Expr) : Parser.filteredValue [] ≠ .ok (e, []) := fun h => nomatch h
  constructor
  · intro h
    rcases bind_eq_ok_iff.mp h with ⟨ls, hbody, _⟩
    have hfiltered := Grammar.filteredValue_eq_ok_iff.mp
      ((Grammar.parseWith_eq_ok_iff hnil hbody).mp h)
    rcases Grammar.filtered_iff.mp hfiltered with ⟨hlogical, hbinary⟩
    exact ⟨(Grammar.parse_eq_ok_iff hbody).mpr hlogical, hbinary⟩
  · rintro ⟨h, hbinary⟩
    rcases Grammar.parse_eq_ok_iff_exists.mp h with ⟨ls, hbody, hlogical⟩
    exact (Grammar.parseWith_eq_ok_iff hnil hbody).mpr
      (Grammar.filteredValue_eq_ok_iff.mpr (Grammar.filtered_iff.mpr ⟨hlogical, hbinary⟩))

/-- What can be assigned is an expression. -/
theorem parse_of_parseChain (h : parseChain source = .ok e) : parse source = .ok e :=
  (parseChain_eq_ok_iff.mp h).1

/-- All other sources are a fault where an expression without an operator is asked for. -/
theorem parseChain_eq_error (h : ∀ e, parse source = .ok e → e.isBinary = true) :
    ∃ fault, parseChain source = .error fault := by
  cases hchain : parseChain source with
  | error fault => exact ⟨fault, rfl⟩
  | ok e =>
      rcases parseChain_eq_ok_iff.mp hchain with ⟨hparse, hbinary⟩
      rw [h e hparse] at hbinary
      cases hbinary

end Chain

section Unplaced

variable {source source' : String} {ls ls' : List Lexeme}

/-- Lexemes of the same kinds and texts are one list of lexemes that is moved. -/
theorem moved_of_unplaced (hsame : ls.map Lexeme.unplaced = ls'.map Lexeme.unplaced) :
    Parser.Moved (fun _ => True) ls ls' := by
  have hmapped := List.forall₂_eq_eq_eq ▸ hsame
  refine (List.forall₂_map_left_iff.mp (List.forall₂_map_right_iff.mp hmapped)).imp ?_
  intro l l' heq
  obtain ⟨hkind, htext, _⟩ := Lexeme.mk.inj heq
  exact ⟨hkind, htext, trivial⟩

/-- The expression of a source is told by the kinds and the texts of its lexemes. -/
theorem parse_congr (hbody : Lexeme.body source = .ok ls) (hbody' : Lexeme.body source' = .ok ls')
    (hsame : ls.map Lexeme.unplaced = ls'.map Lexeme.unplaced) : parse source = parse source' := by
  have hempty : ls.isEmpty = ls'.isEmpty := by
    rw [← List.isEmpty_map, hsame, List.isEmpty_map]
  have hforesees : Parser.Foresees (fun _ => True) fun _ => True :=
    ⟨fun _ _ => trivial, fun _ _ _ _ => trivial⟩
  have hagrees := Parser.expression_steady hforesees (moved_of_unplaced hsame)
  rw [parse, parse, Grammar.parseWith_of_body hbody, Grammar.parseWith_of_body hbody', hempty]
  split
  · rfl
  · generalize Parser.expression ls = outcome at hagrees
    generalize Parser.expression ls' = outcome' at hagrees
    cases hagrees with
    | error => rfl
    | ok result hrest =>
        -- What is left over is told by its text.
        cases hrest with
        | nil => rfl
        | cons hl =>
            exact congrArg (fun text => Except.error (Fault.unexpected text)) hl.2.1

end Unplaced

end Expr

end Liquid
