import Liquid.Expr.Parse
import Liquid.Proofs.Except
import Liquid.Proofs.Text.Digit

/-!
# How Lexemes are Spelled

A lexeme of a source is the word at the start of some rest of the source. The
text of a number is a sign or none, digits, and for a decimal a point and digits
again.

## Main definitions

* `Lexeme.Spelled`: The word at the start of some text.
* `Lexeme.Number`: The texts of numbers.
* `Lexeme.nameKind`: What kind of lexeme a name is.
* `Lexeme.Word`: The words that a text can start with.

## Theorems

* `Lexeme.scanFrom_eq_ok`: A source is words and its end.
* `Lexeme.body_of_extent?`: The lexeme of a source that is one word.
* `Lexeme.Spelled.number`: A lexeme of the kind of a number is the text of one.
-/

namespace Liquid

namespace Lexeme

/-- A lexeme that is the word at the start of some text. -/
def Spelled (l : Lexeme) : Prop :=
  ∃ cs kind n offset, extent? cs = some (kind, n) ∧ l = spelled kind (cs.take n) offset

/-- Whether the characters are a run of digits. -/
structure IsDigits (cs : List Char) : Prop where
  ne_nil : cs ≠ []
  digit : ∀ c ∈ cs, Text.isDigit c = true

/-- The texts of numbers, by the kind of lexeme that they are. -/
inductive Number : Kind → List Char → Prop
  | integer {sign whole : List Char} :
      sign = [] ∨ sign = ['-'] → IsDigits whole → Number .integer (sign ++ whole)
  | decimal {sign whole places : List Char} :
      sign = [] ∨ sign = ['-'] → IsDigits whole → IsDigits places →
      Number .decimal (sign ++ (whole ++ '.' :: places))

/-- What kind of lexeme a name is. -/
def nameKind (name : String) : Kind :=
  if name ∈ keywords then .keyword else .identifier

/-- The words that a text can start with, by the kind of lexeme that they are and their length. -/
inductive Word (cs : List Char) : Kind → Nat → Prop
  | string {n : Nat} : stringSpan? cs = some n → Word cs .string n
  | number {kind : Kind} {n : Nat} : number? cs = some (kind, n) → Word cs kind n
  | operator {n : Nat} : wordSpan? operators cs = some n → Word cs .operator n
  | symbol {n : Nat} : wordSpan? symbols cs = some n → Word cs .symbol n
  | name {n : Nat} : nameSpan? cs = some n → Word cs (nameKind (String.ofList (cs.take n))) n

theorem nameKind_cases (name : String) :
    nameKind name = .identifier ∨ nameKind name = .keyword := by
  unfold nameKind
  split
  · exact .inr rfl
  · exact .inl rfl

/-- What is spelled like a name is one, unless it is a keyword. -/
theorem nameKind_eq_identifier_iff {name : String} :
    nameKind name = .identifier ↔ name ∉ keywords := by
  unfold nameKind
  split <;> simp_all

/-- The longest word at the front is of the first kind that fits. -/
theorem word_of_extent? {cs : List Char} {kind : Kind} {n : Nat}
    (h : extent? cs = some (kind, n)) : Word cs kind n := by
  unfold extent? at h
  -- In the order in which the lexer tries them.
  rcases Option.or_eq_some_iff.mp h with hstring | ⟨_, h⟩
  · rcases Option.map_eq_some_iff.mp hstring with ⟨_, hspan, hpair⟩
    cases hpair
    exact .string hspan
  rcases Option.or_eq_some_iff.mp h with hnumber | ⟨_, h⟩
  · exact .number hnumber
  rcases Option.or_eq_some_iff.mp h with hoperator | ⟨_, h⟩
  · rcases Option.map_eq_some_iff.mp hoperator with ⟨_, hspan, hpair⟩
    cases hpair
    exact .operator hspan
  rcases Option.or_eq_some_iff.mp h with hsymbol | ⟨_, h⟩
  · rcases Option.map_eq_some_iff.mp hsymbol with ⟨_, hspan, hpair⟩
    cases hpair
    exact .symbol hspan
  rcases Option.map_eq_some_iff.mp h with ⟨_, hspan, hpair⟩
  rcases Prod.mk.inj hpair with ⟨rfl, rfl⟩
  simp only [List.contains_iff_mem]
  exact .name hspan

section Scan

theorem kind_spelled (kind : Kind) (raw : List Char) (offset : Nat) :
    (spelled kind raw offset).kind = kind := by
  cases kind <;> rfl

/-- Only the text of a string is not what is written. -/
theorem text_spelled {kind : Kind} (hkind : kind ≠ .string) (raw : List Char) (offset : Nat) :
    (spelled kind raw offset).text = String.ofList raw := by
  cases kind with
  | string => exact absurd rfl hkind
  | _ => rfl

/-- What is scanned are words of the source, and a stop behind them. -/
theorem scanFrom_eq_ok {offset : Nat} {cs : List Char} {ls : List Lexeme}
    (h : scanFrom offset cs = .ok ls) :
    ∃ words stop, ls = words ++ [stop] ∧ stop.kind = .stop ∧ ∀ l ∈ words, Spelled l := by
  -- At the end, at a blank, at a word, and where there is none.
  induction offset, cs using scanFrom.induct generalizing ls with
  | case1 offset =>
      rw [scanFrom] at h
      cases h
      exact ⟨[], _, rfl, rfl, by simp⟩
  | case2 offset c cs hblank ih =>
      rw [scanFrom, if_pos hblank] at h
      exact ih h
  | case3 offset c cs hblank kind n hextent ih =>
      rw [scanFrom, if_neg hblank, hextent] at h
      rcases map_eq_ok_iff.mp h with ⟨others, hothers, rfl⟩
      rcases ih hothers with ⟨words, stop, rfl, hstop, hwords⟩
      refine ⟨_ :: words, stop, rfl, hstop, ?_⟩
      intro l hl
      rcases List.mem_cons.mp hl with rfl | hl
      · exact ⟨c :: cs, kind, n, offset, hextent, rfl⟩
      · exact hwords l hl
  | case4 offset c cs hblank hextent =>
      rw [scanFrom, if_neg hblank, hextent] at h
      cases h

/-- A source that is one word. -/
theorem body_of_extent? {c : Char} {cs : List Char} {kind : Kind}
    (hblank : Text.isBlank c = false) (hextent : extent? (c :: cs) = some (kind, cs.length + 1)) :
    body (String.ofList (c :: cs)) = .ok [spelled kind (c :: cs) 0] := by
  unfold body scan
  rw [String.toList_ofList, scanFrom, hblank, hextent]
  simp only [Bool.false_eq_true, if_false, Nat.add_sub_cancel, List.drop_length, scanFrom]
  rw [show cs.length + 1 = (c :: cs).length from rfl, List.take_length]
  rfl

end Scan

section Number

/-- The digits at the start of a text are a run, if there are any. -/
theorem isDigits_take {cs : List Char} (h : digitSpan cs ≠ 0) :
    IsDigits (cs.take (digitSpan cs)) := by
  have htake : cs.take (digitSpan cs) = cs.takeWhile Text.isDigit :=
    (List.prefix_iff_eq_take.mp (List.takeWhile_prefix _)).symm
  rw [htake]
  refine ⟨fun hnil => h ?_, List.all_eq_true.mp List.all_takeWhile⟩
  rw [digitSpan, hnil, List.length_nil]

theorem number_of_number? {cs : List Char} {kind : Kind} {n : Nat}
    (h : number? cs = some (kind, n)) : Number kind (cs.take n) := by
  unfold number? at h
  -- The sign and what stands behind it.
  obtain ⟨sign, rest, rfl, hsign, hlength⟩ : ∃ sign rest, cs = sign ++ rest ∧
      (sign = [] ∨ sign = ['-']) ∧ sign.length = if cs.head? == some '-' then 1 else 0 := by
    by_cases hminus : cs.head? = some '-'
    · rcases List.head?_eq_some_iff.mp hminus with ⟨rest, rfl⟩
      exact ⟨['-'], rest, rfl, .inr rfl, rfl⟩
    · exact ⟨[], cs, rfl, .inl rfl, by simp [hminus]⟩
  simp only [← hlength, List.drop_left, ← List.drop_drop] at h
  by_cases hwhole : digitSpan rest = 0
  · simp [hwhole] at h
  have hdigits := isDigits_take hwhole
  -- Without digits behind it a point is no part of the number.
  by_cases hpoint : (rest.drop (digitSpan rest)).head? = some '.'
  · rcases List.head?_eq_some_iff.mp hpoint with ⟨after, hafter⟩
    simp only [hafter, List.head?_cons, beq_self_eq_true, if_true, List.drop_succ_cons,
      List.drop_zero] at h
    by_cases hplaces : digitSpan after = 0
    · simp only [hwhole, hplaces, beq_iff_eq, if_true, if_false] at h
      cases h
      rw [List.take_length_add_append]
      exact .integer hsign hdigits
    · simp only [hwhole, hplaces, beq_iff_eq, if_false] at h
      cases h
      rw [Nat.add_assoc, Nat.add_assoc, List.take_length_add_append, List.take_add, hafter,
        Nat.add_comm 1, List.take_succ_cons]
      exact .decimal hsign hdigits (isDigits_take hplaces)
  · simp only [hwhole, hpoint, beq_iff_eq, if_true, if_false] at h
    cases h
    rw [List.take_length_add_append]
    exact .integer hsign hdigits

/-- Only numbers have the kinds of numbers. -/
theorem number?_of_extent? {cs : List Char} {kind : Kind} {n : Nat}
    (h : extent? cs = some (kind, n)) (hkind : kind = .integer ∨ kind = .decimal) :
    number? cs = some (kind, n) := by
  cases word_of_extent? h with
  | number hnumber => exact hnumber
  | name =>
      rcases nameKind_cases (String.ofList (cs.take n)) with hname | hname <;>
        rcases hkind with hkind | hkind <;> rw [hname] at hkind <;> cases hkind
  | _ => rcases hkind with hkind | hkind <;> cases hkind

/-- A lexeme of the kind of a number is the text of one. -/
theorem Spelled.number {l : Lexeme} (h : Spelled l)
    (hkind : l.kind = .integer ∨ l.kind = .decimal) : Number l.kind l.text.toList := by
  rcases h with ⟨cs, kind, n, offset, hextent, rfl⟩
  rw [kind_spelled] at hkind ⊢
  have hne : kind ≠ .string := by
    rintro rfl
    rcases hkind with h | h <;> cases h
  rw [text_spelled hne, String.toList_ofList]
  exact number_of_number? (number?_of_extent? hextent hkind)

end Number

end Lexeme

end Liquid
