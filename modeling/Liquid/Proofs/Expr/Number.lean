import Liquid.Proofs.Decimal.Text
import Liquid.Proofs.Expr.Parse
import Liquid.Proofs.Text.Search
import Liquid.Value

/-!
# Numbers as Expressions

A number that is shown can be put into a template again. Its text is one lexeme,
so it is an expression, and the expression is a literal: of the integer itself,
or of a decimal that is equal to the one that was shown. A text value that holds
it writes the same number. Only an integer with too many digits is no expression:
to read it is a crash.

The three readers have nothing in common in how they go about it. One finds the
lexeme, one takes a lexeme apart, and one strips the text of a value of its
blanks first. What makes them agree is that the text is a sign or none, digits,
and for a decimal a point and digits again.

## Main definitions

* `Lexeme.Shown`: The texts that numbers are shown with, by the kind of lexeme
  that they are.
* `Lexeme.Stops`: What can stand behind a number.

## Theorems

* `Lexeme.extent?_append`: The text of a number is a number at full length.
* `Lexeme.body_of_number`: The text of a number is one lexeme, and no other is in it.
* `Grammar.parse_of_long`: An integer with too many digits is a crash.
* `Value.toList_toString`: The text of an integer.
* `Value.numbers_shown_and_read`: Numbers are shown in one way and read again.
-/

namespace Liquid

namespace Lexeme

open Decimal (sign)

/-- The texts that numbers are shown with, by the kind of lexeme that they are. -/
inductive Shown : Kind → List Char → Prop
  | integer (negative : Bool) {whole : List Char} (hwhole : Text.Written whole) :
      Shown .integer (sign negative ++ whole)
  | decimal (negative : Bool) {whole places : List Char} (hwhole : Text.Written whole)
      (hplaces : Text.Written places) : Shown .decimal (sign negative ++ (whole ++ '.' :: places))

/-- Behind a number there is no digit, and behind an integer no point with a digit. -/
structure Stops (kind : Kind) (rest : List Char) : Prop where
  digit : ∀ c ∈ rest.head?, Text.isDigit c = false
  point : kind = .integer → ∀ after, rest = '.' :: after → ∀ c ∈ after.head?, Text.isDigit c = false

section Extent

variable {whole places rest : List Char}

/-- A run of digits ends at the first character that is none. -/
theorem digitSpan_append (hwhole : ∀ c ∈ whole, Text.isDigit c = true)
    (hrest : ∀ c ∈ rest.head?, Text.isDigit c = false) :
    digitSpan (whole ++ rest) = whole.length := by
  have hnone : rest.takeWhile Text.isDigit = [] := by
    cases rest with
    | nil => rfl
    | cons c cs => exact List.takeWhile_cons_of_neg (by simp [hrest c rfl])
  rw [digitSpan, List.takeWhile_append_of_pos hwhole, hnone, List.append_nil]

/-- Only a sign that is there is counted. -/
theorem length_sign {sign : List Char} (hsign : sign = [] ∨ sign = ['-']) (hwhole : IsDigits whole)
    (rest : List Char) :
    (if (sign ++ (whole ++ rest)).head? == some '-' then 1 else 0) = sign.length := by
  rcases hsign with rfl | rfl
  · cases whole with
    | nil => exact absurd rfl hwhole.ne_nil
    | cons c cs =>
        have hc : c ≠ '-' := by
          rintro rfl
          exact absurd (hwhole.digit '-' List.mem_cons_self) (by decide)
        simp [hc]
  · rfl

theorem stops_nil (kind : Kind) : Stops kind [] where
  digit c hc := by cases hc
  point _ after hafter := by cases hafter

/-- Digits with or without a sign are an integer, unless a point and digits make a decimal of
them. Two runs of digits with a point between them are a decimal. -/
theorem number?_append {kind : Kind} {cs : List Char} (h : Number kind cs)
    (hrest : Stops kind rest) : number? (cs ++ rest) = some (kind, cs.length) := by
  cases h with
  | @integer sign whole hsigned hwhole =>
      have hsign := length_sign hsigned hwhole rest
      have hspan := digitSpan_append hwhole.digit hrest.digit
      -- A point behind an integer would have a digit behind it, which is ruled out.
      have hplaces : (if rest.head? == some '.' then digitSpan (rest.drop 1) else 0) = 0 := by
        cases rest with
        | nil => rfl
        | cons c after =>
            split
            · next hc =>
              cases eq_of_beq hc
              exact @digitSpan_append [] after (by simp) (hrest.point rfl after rfl)
            · rfl
      rw [number?, List.append_assoc, hsign]
      simp only [List.drop_left, ← List.drop_drop, hspan, hplaces]
      rw [if_neg (by simpa using hwhole.ne_nil), List.length_append]
      rfl
  | @decimal sign whole places hsigned hwhole hplaces =>
      have hsign := length_sign hsigned hwhole ('.' :: (places ++ rest))
      have hspan := @digitSpan_append whole ('.' :: (places ++ rest)) hwhole.digit
        fun c hc => by cases hc; decide
      have hassoc : sign ++ (whole ++ '.' :: places) ++ rest =
          sign ++ (whole ++ '.' :: (places ++ rest)) := by
        simp only [List.append_assoc, List.cons_append]
      rw [number?, hassoc, hsign]
      simp only [List.drop_left, ← List.drop_drop, hspan, List.head?_cons, beq_self_eq_true,
        if_true, List.drop_one, List.tail_cons, digitSpan_append hplaces.digit hrest.digit]
      rw [if_neg (by simpa using hwhole.ne_nil), if_neg (by simpa using hplaces.ne_nil)]
      simp [Nat.add_assoc, Nat.add_comm 1]

/-- Where a number stands, one is found, whatever stands behind it. -/
theorem number?_ne_none {kind : Kind} {cs : List Char} (h : Number kind cs) (rest : List Char) :
    number? (cs ++ rest) ≠ none := by
  -- Both kinds start with a sign and digits.
  obtain ⟨sign, whole, behind, hcs, hsigned, hwhole⟩ : ∃ sign whole behind,
      cs ++ rest = sign ++ (whole ++ behind) ∧ (sign = [] ∨ sign = ['-']) ∧ IsDigits whole := by
    cases h with
    | integer hsigned hwhole => exact ⟨_, _, rest, List.append_assoc .., hsigned, hwhole⟩
    | @decimal sign whole places hsigned hwhole hplaces =>
        exact ⟨sign, whole, '.' :: (places ++ rest), by simp, hsigned, hwhole⟩
  have hspan : digitSpan (whole ++ behind) ≠ 0 := by
    cases whole with
    | nil => exact absurd rfl hwhole.ne_nil
    | cons c cs => simp [digitSpan, hwhole.digit c List.mem_cons_self]
  rw [hcs, number?, length_sign hsigned hwhole behind]
  simp only [List.drop_left, beq_iff_eq, if_neg hspan]
  split_ifs <;> exact Option.some_ne_none _

/-- There are digits, a minus and a point in such a text and nothing else. -/
theorem Number.character {kind : Kind} {cs : List Char} (h : Number kind cs) :
    ∀ c ∈ cs, Text.isDigit c = true ∨ c = '-' ∨ c = '.' := by
  have hminus {sign : List Char} (hsign : sign = [] ∨ sign = ['-']) (c : Char) (hc : c ∈ sign) :
      c = '-' := by
    rcases hsign with rfl | rfl
    · cases hc
    · exact List.mem_singleton.mp hc
  intro c hc
  -- By the parts of the number: the sign, the digits, and the point with its places.
  cases h with
  | integer hsign hwhole =>
      rcases List.mem_append.mp hc with hc | hc
      · exact .inr (.inl (hminus hsign c hc))
      · exact .inl (hwhole.digit c hc)
  | decimal hsign hwhole hplaces =>
      rcases List.mem_append.mp hc with hc | hc
      · exact .inr (.inl (hminus hsign c hc))
      rcases List.mem_append.mp hc with hc | hc
      · exact .inl (hwhole.digit c hc)
      rcases List.mem_cons.mp hc with rfl | hc
      · exact .inr (.inr rfl)
      · exact .inl (hplaces.digit c hc)

theorem Number.isBlank {kind : Kind} {cs : List Char} (h : Number kind cs) :
    ∀ c ∈ cs, Text.isBlank c = false := by
  intro c hc
  rcases h.character c hc with hdigit | rfl | rfl
  · exact Text.isBlank_of_isDigit hdigit
  · decide
  · decide

theorem Number.ne_nil {kind : Kind} {cs : List Char} (h : Number kind cs) : cs ≠ [] := by
  cases h with
  | integer hsign hwhole => exact List.append_ne_nil_of_right_ne_nil _ hwhole.ne_nil
  | decimal hsign hwhole hplaces => simp

/-- A number is tried before all words but a string, and starts with no quote. -/
theorem extent?_append {kind : Kind} {cs : List Char} (h : Number kind cs)
    (hrest : Stops kind rest) : extent? (cs ++ rest) = some (kind, cs.length) := by
  have hnumber := number?_append h hrest
  cases cs with
  | nil => exact absurd rfl h.ne_nil
  | cons c cs =>
      -- A number starts with a digit or a sign, and a string with a quote.
      have hquote : (c == '"' || c == '\'') = false := by
        rcases h.character c List.mem_cons_self with hdigit | rfl | rfl
        · by_contra hquote
          simp only [Bool.not_eq_false, Bool.or_eq_true, beq_iff_eq] at hquote
          rcases hquote with rfl | rfl <;> exact absurd hdigit (by decide)
        · decide
        · decide
      have hstring : stringSpan? (c :: cs ++ rest) = none := by
        rw [List.cons_append, stringSpan?, hquote]
        rfl
      rw [extent?, hstring, hnumber]
      rfl

/-- What is shown of a number is a number of the language. -/
theorem Shown.number {kind : Kind} {cs : List Char} (h : Shown kind cs) : Number kind cs := by
  have hsign (negative : Bool) : sign negative = [] ∨ sign negative = ['-'] := by
    cases negative with
    | false => exact .inl rfl
    | true => exact .inr rfl
  cases h with
  | integer negative hwhole => exact .integer (hsign negative) ⟨hwhole.ne_nil, hwhole.isDigit⟩
  | decimal negative hwhole hplaces =>
      exact .decimal (hsign negative) ⟨hwhole.ne_nil, hwhole.isDigit⟩
        ⟨hplaces.ne_nil, hplaces.isDigit⟩

theorem Shown.isBlank {kind : Kind} {cs : List Char} (h : Shown kind cs) :
    ∀ c ∈ cs, Text.isBlank c = false :=
  h.number.isBlank

/-- The text of a number is one lexeme, and the text of the lexeme is all of it. -/
theorem body_of_number {kind : Kind} {cs : List Char} (h : Number kind cs) :
    body (String.ofList cs) = .ok [⟨kind, String.ofList cs, 0⟩] := by
  have hspelled : spelled kind cs 0 = ⟨kind, String.ofList cs, 0⟩ := by
    cases h <;> rfl
  cases cs with
  | nil => exact absurd rfl h.ne_nil
  | cons c cs =>
      have hextent := extent?_append h (stops_nil kind)
      rw [List.append_nil] at hextent
      rw [body_of_extent? (h.isBlank c List.mem_cons_self) hextent, hspelled]

end Extent

end Lexeme

namespace Grammar

/-- A source that is one lexeme with a value is a literal. -/
theorem parse_of_literal {source : String} {l : Lexeme} {value : Value}
    (hbody : Lexeme.body source = .ok [l]) (hvalue : Literal l value) :
    Expr.parse source = .ok (.literal value) := by
  refine (parse_eq_ok_iff hbody).mpr ?_
  have hfiltered : Filtered ([l] ++ []) (withCalls (.literal value) []) :=
    .mk (.literal hvalue) .nil
  exact .mk (.one hfiltered) .nil

/-- A source that is an integer with too many digits is a crash. -/
theorem parse_of_long {cs : List Char} (h : Lexeme.Number .integer cs)
    (hlong : 4300 < cs.countP Text.isDigit) :
    Expr.parse (String.ofList cs) = .error (.longInteger (cs.countP Text.isDigit)) := by
  have hnone : Parser.integerOf? (String.ofList cs) = none :=
    integerOf?_of_long (by rwa [String.toList_ofList])
  have hprimary : Parser.primary 1 [⟨.integer, String.ofList cs, 0⟩] =
      .error (.longInteger (cs.countP Text.isDigit)) := by
    simp [Parser.primary, Parser.literal?, Parser.refusal, Parser.tooLong, hnone]
  rw [Expr.parse, parseWith_of_body (Lexeme.body_of_number h), if_neg (by simp)]
  simp only [Parser.expression, List.length_singleton, Parser.logical, Parser.comparison,
    Parser.filtered, hprimary]
  rfl

/-- An integer with one digit too many is one lexeme that is meant as a value, and to read it is a
crash. -/
theorem parse_overlong :
    Lexeme.body (String.ofList (List.replicate 4301 '1')) =
        .ok [⟨.integer, String.ofList (List.replicate 4301 '1'), 0⟩] ∧
      Expr.parse (String.ofList (List.replicate 4301 '1')) = .error (.longInteger 4301) ∧
      (Expr.Fault.longInteger 4301).crash?.isSome := by
  have hdigit : ∀ c ∈ List.replicate 4301 '1', Text.isDigit c = true := by
    intro c hc
    rw [List.eq_of_mem_replicate hc]
    decide
  have hnumber : Lexeme.Number .integer (List.replicate 4301 '1') :=
    .integer (.inl rfl) ⟨List.cons_ne_nil _ _, hdigit⟩
  -- The text has as many digits as characters.
  have hcount : (List.replicate 4301 '1').countP Text.isDigit = 4301 := by
    rw [List.countP_eq_length.mpr hdigit, List.length_replicate]
  have hparse := parse_of_long hnumber (by rw [hcount]; decide)
  rw [hcount] at hparse
  exact ⟨Lexeme.body_of_number hnumber, hparse, rfl⟩

end Grammar

namespace Value

open Decimal (sign)

section Shown

/-- An integer is shown with its sign and its digits. -/
theorem toList_toString (n : Int) :
    (toString n).toList = sign (n < 0) ++ Nat.toDigits 10 n.natAbs := by
  cases n with
  | ofNat n =>
      have hsign : (decide (Int.ofNat n < 0)) = false := by simp
      rw [hsign]
      exact Nat.toList_repr
  | negSucc n =>
      have hsign : (decide (Int.negSucc n < 0)) = true := by simp
      rw [hsign, Int.toString_eq_repr]
      change ("-" ++ n.succ.repr).toList = _
      rw [String.toList_append, Nat.toList_repr]
      rfl

/-- An integer is shown as a number of the language. -/
theorem shown_integer (n : Int) : Lexeme.Shown .integer (toString n).toList := by
  rw [toList_toString]
  exact .integer _ (Text.Written.toDigits n.natAbs)

/-- A decimal is shown as a number of the language. -/
theorem shown_decimal (negative : Bool) (c : Nat) (e : Int) :
    Lexeme.Shown .decimal (Decimal.fixed negative c e) := by
  rcases Decimal.positional_parts c e with ⟨whole, places, h⟩
  rw [Decimal.fixed, h.text]
  exact .decimal negative h.written_whole h.written_places

/-- The digits of a number are read back. -/
theorem readNat?_toDigits (n : Nat) : Text.readNat? (Nat.toDigits 10 n) = some n := by
  rw [(Text.Written.toDigits n).readNat?, Nat.ofDigitChars_ten_toDigits]

/-- The minus of an integer is no digit. -/
theorem countP_toString (n : Int) :
    (toString n).toList.countP Text.isDigit = Decimal.digitCount n.natAbs := by
  have hsign (negative : Bool) : (sign negative).countP Text.isDigit = 0 := by
    cases negative <;> decide
  rw [toList_toString, List.countP_append, hsign,
    List.countP_eq_length.mpr (Text.Written.toDigits n.natAbs).isDigit, Nat.zero_add]
  rfl

/-- An integer is shown as the grammar writes it, if its digits are not too many. -/
theorem whole_toString {n : Int} (h : Decimal.digitCount n.natAbs ≤ 4300) :
    Grammar.Whole (toString n) n := by
  have hdigits : Text.Digits (Nat.toDigits 10 n.natAbs) n.natAbs :=
    Text.readNat?_eq_some_iff.mp (readNat?_toDigits n.natAbs)
  have htext := toList_toString n
  rw [← String.ofList_toList (s := toString n), htext]
  by_cases hn : n < 0
  · have hwhole := Grammar.Whole.negative hdigits h
    rw [show -(n.natAbs : Int) = n by omega] at hwhole
    rwa [decide_eq_true hn]
  · have hwhole := Grammar.Whole.plain hdigits h
    rw [show (n.natAbs : Int) = n by omega] at hwhole
    rwa [decide_eq_false hn]

/-- An integer that is written has no more digits than the text that it is written with. -/
theorem whole_toString_of_whole {text : String} {n : Int} (h : Grammar.Whole text n) :
    Grammar.Whole (toString n) n := by
  have hcount {digits : List Char} {m : Nat} (hdigits : Text.Digits digits m) :
      Decimal.digitCount m ≤ digits.length :=
    (Decimal.digitCount_le_iff (List.length_pos_iff.mpr hdigits.ne_nil)).mpr hdigits.lt
  cases h with
  | plain hdigits hlength => exact whole_toString (Nat.le_trans (hcount hdigits) hlength)
  | negative hdigits hlength =>
      refine whole_toString ?_
      rw [Int.natAbs_neg]
      exact Nat.le_trans (hcount hdigits) hlength

/-- The text of an integer with too many digits is a crash. -/
theorem parse_toString_of_long {n : Int} (h : 4300 < Decimal.digitCount n.natAbs) :
    Expr.parse (toString n) = .error (.longInteger (Decimal.digitCount n.natAbs)) := by
  have hcount := countP_toString n
  have hparse := Grammar.parse_of_long (shown_integer n).number (hcount ▸ h)
  rwa [String.ofList_toList, hcount] at hparse

/-- The text of an integer writes the integer also where any number would do. -/
theorem read?_toString {n : Int} (h : (Decimal.ofInt n).InBounds) :
    Decimal.read? (toString n).toList = some (.ofInt n) := by
  have hdigits := Text.Written.toDigits n.natAbs
  rw [toList_toString, Decimal.read?_whole _ hdigits.ne_nil hdigits.isDigit, readNat?_toDigits]
  exact Decimal.bounded?_of_inBounds h

/-- The limit on the digits of an integer is far below the limits of the decimals. -/
theorem inBounds_ofInt {n : Int} (h : Decimal.digitCount n.natAbs ≤ 4300) :
    (Decimal.ofInt n).InBounds := by
  simp only [Decimal.ofInt, Decimal.InBounds, Decimal.leading]
  omega

end Shown

/-- Numbers are shown in one way and read again. The text of a decimal has no exponent and no zero
at its end but the one that makes a place, two decimals of one sign have one text exactly if they
are equal, and the text is a literal equal to the decimal, as an expression and as the number that
a text value writes. The number of an integer is the integer. If there are 4300 digits at most, its
text is the literal of the integer, and the number that a text value writes is the integer. With
more digits the text is not read, and to try is a crash. -/
theorem numbers_shown_and_read (negative : Bool) (c d : Nat) (e f n : Int) :
    Decimal.Canonical (Decimal.finite negative c e).text.toList ∧
      ((Decimal.finite negative c e).text = (Decimal.finite negative d f).text ↔
        (Decimal.finite negative c e).SameNumber (.finite negative d f)) ∧
      ((Decimal.finite negative c e).InBounds →
        ∃ c' e', (Decimal.finite negative c' e').SameNumber (.finite negative c e) ∧
          Expr.parse (Decimal.finite negative c e).text =
            .ok (.literal (.decimal (.finite negative c' e'))) ∧
          (string (Decimal.finite negative c e).text).number? = some (.finite negative c' e')) ∧
      (integer n).number? = some (.ofInt n) ∧ (Decimal.ofInt n).toRat = n ∧
      (Decimal.digitCount n.natAbs ≤ 4300 →
        Expr.parse (integer n).display = .ok (.literal (.integer n)) ∧
        (string (integer n).display).number? = some (.ofInt n)) ∧
      (4300 < Decimal.digitCount n.natAbs →
        ∃ fault, Expr.parse (integer n).display = .error fault ∧ fault.crash?.isSome) := by
  refine ⟨?_, ?_, fun hbounds => ?_, rfl, Decimal.toRat_ofInt n, fun hshort => ?_, fun hlong => ?_⟩
  · rw [Decimal.text, String.toList_ofList]
    exact Decimal.canonical_fixed negative c e
  · rw [Decimal.text, Decimal.text, String.ofList_inj, Decimal.fixed_eq_iff]
  -- What is read back may have other digits and another exponent, but has the same value.
  · rcases Decimal.read?_fixed hbounds with ⟨c', e', hread, hsame⟩
    have hshown := shown_decimal negative c e
    refine ⟨c', e', hsame, Grammar.parse_of_literal (Lexeme.body_of_number hshown.number) ?_, ?_⟩
    · exact .decimal rfl (by rw [String.toList_ofList, hread])
    · rw [number?, Decimal.text, String.toList_ofList, Text.strip_eq_self hshown.isBlank, hread]
  · have hshown := shown_integer n
    constructor
    · have hbody := Lexeme.body_of_number hshown.number
      rw [String.ofList_toList] at hbody
      exact Grammar.parse_of_literal hbody (.integer rfl (whole_toString hshort))
    · rw [number?, display, Text.strip_eq_self hshown.isBlank,
        read?_toString (inBounds_ofInt hshort)]
  · exact ⟨_, parse_toString_of_long hlong, rfl⟩

/-- A number with a zero at its end, a negative zero, and a negative integer. -/
theorem numbers_shown_and_read_signed :
    (Decimal.finite true 10 (-2)).InBounds ∧ (Decimal.finite true 0 5).InBounds ∧
      Decimal.digitCount (-42 : Int).natAbs ≤ 4300 ∧
      (∃ c e, (Decimal.finite true c e).SameNumber (.finite true 10 (-2)) ∧
        Expr.parse (Decimal.finite true 10 (-2)).text =
          .ok (.literal (.decimal (.finite true c e)))) ∧
      (∃ c e, (Decimal.finite true c e).SameNumber (.finite true 0 5) ∧
        (string "-0.0").number? = some (.finite true c e)) ∧
      Expr.parse (integer (-42)).display = .ok (.literal (.integer (-42))) ∧
      (string (integer (-42)).display).number? = some (.ofInt (-42)) := by
  have htenth : (Decimal.finite true 10 (-2)).InBounds := by decide
  have hzero : (Decimal.finite true 0 5).InBounds := by decide
  have hshort : Decimal.digitCount (-42 : Int).natAbs ≤ 4300 := by decide
  rcases numbers_shown_and_read true 10 0 (-2) 5 (-42) with
    ⟨-, -, hdecimal, -, -, hinteger, -⟩
  rcases hdecimal htenth with ⟨c, e, hsame, hparse, -⟩
  rcases (numbers_shown_and_read true 0 0 5 0 0).2.2.1 hzero with ⟨c', e', hsame', -, hnumber⟩
  have htext : (Decimal.finite true 0 5).text = "-0.0" := by decide
  rw [htext] at hnumber
  exact ⟨htenth, hzero, hshort, ⟨c, e, hsame, hparse⟩, ⟨c', e', hsame', hnumber⟩,
    hinteger hshort⟩

/-- The text of ten to the power of 4300 is a digit too long to be read as an expression. -/
theorem parse_power_of_ten :
    ¬Expr.parse (integer (10 ^ 4300)).display = .ok (.literal (.integer (10 ^ 4300))) := by
  have hlong {k : Nat} (hk : 0 < k) : k < Decimal.digitCount (10 ^ k : Int).natAbs := by
    rw [Int.natAbs_pow, ← not_le, Decimal.digitCount_le_iff hk]
    exact Nat.lt_irrefl _
  intro hread
  cases (parse_toString_of_long (hlong (by decide))).symm.trans hread

end Value

end Liquid
