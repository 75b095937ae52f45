import Liquid.Environment
import Liquid.Proofs.Text.Search
import Liquid.Proofs.Value.Equality

/-!
# The Laws of Operators

The operators of the language are entries of a registry that do not know of each
other, and yet they are coherent. Three of them are about equality, and two of
these deny what the third says. Four are about order, and all of them ask how
two numbers or two texts compare in the order of values; so exactly one of less,
equal and greater holds there, and the other two say what is made up of these.
For a pair that cannot be compared all four are false, even if it is a pair of
equal values.

What a text contains are its parts. What an array contains is told by the text
that is shown, of texts and of numbers only.

## Main definitions

* `Operator.answer`: Whether the operator of a name holds between two values.
* `Operator.Comparable`: Pairs of numbers, and pairs of texts.
* `Operator.Coherent`: The laws.

## Theorems

* `Operator.ordering?_eq`: How two values compare, if they do.
* `Operator.contains_text_iff`, `Operator.contains_array_iff`: What is contained.
* `Operator.operators_coherent`: The operators of the language keep the laws.
-/

namespace Liquid

namespace Operator

/-- Whether the operator of a name holds between two values. -/
def answer (operators : Table Operator) (name : String) (a b : Value) : Bool :=
  (operators.get? name).any fun operator => (operator.apply a b).isTruthy

/-- Pairs of numbers, and pairs of texts. -/
inductive Comparable : Value → Value → Prop
  | numbers {a b : Value} (ha : a.isNumeric = true) (hb : b.isNumeric = true) : Comparable a b
  | texts (s t : String) : Comparable (.string s) (.string t)

/-- Texts and numbers. -/
inductive Searchable : Value → Prop
  | number {v : Value} (h : v.isNumeric = true) : Searchable v
  | text (s : String) : Searchable (.string s)

/-- The laws that hold between operators. -/
structure Coherent (answer : String → Value → Value → Bool) : Prop where
  ne : ∀ a b, answer "!=" a b = !answer "==" a b
  ltgt : ∀ a b, answer "<>" a b = !answer "==" a b
  eq_comm : ∀ a b, answer "==" a b = answer "==" b a
  trichotomy : ∀ a b, Comparable a b →
    ∃! name, name ∈ ["<", "==", ">"] ∧ answer name a b = true
  le : ∀ a b, Comparable a b → answer "<=" a b = (answer "<" a b || answer "==" a b)
  ge : ∀ a b, answer ">=" a b = answer "<=" b a
  gt : ∀ a b, answer "<" a b = answer ">" b a
  lt_trans : ∀ a b c, answer "<" a b = true → answer "<" b c = true → answer "<" a c = true
  /-- The order is the one that values are sorted in. -/
  lt_iff : ∀ a b, Comparable a b → (answer "<" a b = true ↔ a.compare b = .lt)
  incomparable : ∀ a b, ¬Comparable a b → ∀ name ∈ ["<", ">", "<=", ">="], answer name a b = false
  contains_text : ∀ s t : String,
    answer "contains" (.string s) (.string t) = true ↔ t.toList <:+: s.toList
  contains_array : ∀ (items : List Value) (b : Value),
    answer "contains" (.array items) b = true ↔
      Searchable b ∧ ∃ item ∈ items, Searchable item ∧ item.display = b.display

section Ordering

variable {a b c : Value}

theorem Comparable.symm (h : Comparable a b) : Comparable b a := by
  cases h with
  | numbers ha hb => exact .numbers hb ha
  | texts s t => exact .texts t s

theorem Comparable.trans (hab : Comparable a b) (hbc : Comparable b c) : Comparable a c := by
  cases hab with
  | numbers ha hb =>
      cases hbc with
      | numbers _ hc => exact .numbers ha hc
      | texts => cases hb
  | texts =>
      cases hbc with
      | numbers hb _ => cases hb
      | texts => exact .texts _ _

open Classical in
/-- Numbers and texts compare in the order of values, and other pairs do not. -/
theorem ordering?_eq (a b : Value) :
    ordering? a b = if Comparable a b then some (a.compare b) else none := by
  split
  · next h =>
      cases h with
      | numbers ha hb =>
          cases a <;> cases ha <;> cases b <;> cases hb <;> rfl
      | texts s t => rfl
  · next h =>
      -- Two texts are looked for first, and two numbers then.
      unfold ordering?
      split
      · exact absurd (.texts _ _) h
      · refine if_neg fun hnumeric => ?_
        rcases Bool.and_eq_true_iff.mp hnumeric with ⟨ha, hb⟩
        exact h (.numbers ha hb)

/-- An ordering is accepted if there is one, and the values compare as it says. -/
theorem any_ordering? (accepts : Ordering → Bool) :
    (ordering? a b).any accepts = true ↔ Comparable a b ∧ accepts (a.compare b) = true := by
  rw [ordering?_eq]
  split
  · next h => simp [h]
  · next h => simp [h]

end Ordering

section Containing

/-- The text that is searched for is the display of a value that can be. -/
theorem searchText?_eq_some_iff {v : Value} {text : String} :
    searchText? v = some text ↔ Searchable v ∧ v.display = text := by
  constructor
  · intro h
    -- Texts and numbers have a text to search for, and nothing else has.
    cases v with
    | string s =>
        rw [← Option.some.inj h]
        exact ⟨.text s, rfl⟩
    | integer n =>
        rw [← Option.some.inj h]
        exact ⟨.number rfl, rfl⟩
    | decimal d =>
        rw [← Option.some.inj h]
        exact ⟨.number rfl, rfl⟩
    | _ => cases h
  · rintro ⟨hv, rfl⟩
    cases hv with
    | number h => cases v <;> cases h <;> rfl
    | text s => rfl

/-- A text contains the texts that stand in it. -/
theorem contains_text_iff (s t : String) :
    contains (.string s) (.string t) = true ↔ t.toList <:+: s.toList := by
  change (Text.cut? t.toList s.toList).isSome = true ↔ _
  rw [← Option.ne_none_iff_isSome, Ne, Text.cut?_eq_none_iff, not_not]

/-- An array contains a value if the display of one of its items is the same. -/
theorem contains_array_iff (items : List Value) (b : Value) :
    contains (.array items) b = true ↔
      Searchable b ∧ ∃ item ∈ items, Searchable item ∧ item.display = b.display := by
  unfold contains
  cases hb : searchText? b with
  | none =>
      refine ⟨fun h => (nomatch h), fun ⟨hsearchable, _⟩ => ?_⟩
      rw [searchText?_eq_some_iff.mpr ⟨hsearchable, rfl⟩] at hb
      cases hb
  | some text =>
      rcases searchText?_eq_some_iff.mp hb with ⟨hsearchable, rfl⟩
      simp only [List.any_eq_true, beq_iff_eq, searchText?_eq_some_iff, hsearchable, true_and]

end Containing

section Answers

/-- The operators of the language. -/
abbrev language : Table Operator :=
  Environment.standard.operators

variable {a b : Value}

theorem answer_eq (a b : Value) : answer language "==" a b = a.equals b :=
  rfl

theorem answer_eq_iff : answer language "==" a b = true ↔ a.compare b = .eq := by
  rw [answer_eq, Value.equals_iff_compare]

/-- An operator of order asks how two values compare, if they do. -/
theorem answer_comparing_iff {name : String} {accepts : Ordering → Bool}
    (h : language.get? name = some (comparing name accepts)) :
    answer language name a b = true ↔ Comparable a b ∧ accepts (a.compare b) = true := by
  rw [← any_ordering?, answer, h]
  rfl

theorem answer_lt_iff : answer language "<" a b = true ↔ Comparable a b ∧ a.compare b = .lt := by
  rw [answer_comparing_iff rfl, Ordering.isLT_iff_eq_lt]

theorem answer_gt_iff : answer language ">" a b = true ↔ Comparable a b ∧ a.compare b = .gt := by
  rw [answer_comparing_iff rfl, Ordering.isGT_iff_eq_gt]

theorem answer_le_iff : answer language "<=" a b = true ↔ Comparable a b ∧ a.compare b ≠ .gt := by
  rw [answer_comparing_iff rfl, Ordering.isLE_iff_ne_gt]

theorem answer_ge_iff : answer language ">=" a b = true ↔ Comparable a b ∧ a.compare b ≠ .lt := by
  rw [answer_comparing_iff rfl, Ordering.isGE_iff_ne_lt]

end Answers

/-- The operator that holds of a pair with the given order. -/
def nameOf : Ordering → String
  | .lt => "<"
  | .eq => "=="
  | .gt => ">"

/-- Of the three strict answers exactly the one that names the comparison is given. -/
theorem answer_iff_nameOf {a b : Value} (h : Comparable a b) {name : String}
    (hname : name ∈ ["<", "==", ">"]) :
    answer language name a b = true ↔ name = nameOf (a.compare b) := by
  simp only [List.mem_cons, List.not_mem_nil, or_false] at hname
  rcases hname with rfl | rfl | rfl
  · rw [answer_lt_iff, and_iff_right h]
    cases a.compare b <;> decide
  · rw [answer_eq_iff]
    cases a.compare b <;> decide
  · rw [answer_gt_iff, and_iff_right h]
    cases a.compare b <;> decide

theorem compare_swap (a b : Value) : b.compare a = (a.compare b).swap :=
  Std.OrientedCmp.eq_swap

/-- The laws, for the operators of the language. -/
theorem coherent_language : Coherent (answer language) where
  ne a b := rfl
  ltgt a b := rfl
  eq_comm a b := Value.equals_comm a b
  trichotomy a b h := by
    -- The one that holds is named after the order of the two, so no other one is.
    have hmem : nameOf (a.compare b) ∈ ["<", "==", ">"] := by cases a.compare b <;> decide
    exact ⟨_, ⟨hmem, (answer_iff_nameOf h hmem).mpr rfl⟩,
      fun name hname => (answer_iff_nameOf h hname.1).mp hname.2⟩
  le a b h := by
    rw [Bool.eq_iff_iff, Bool.or_eq_true, answer_le_iff, answer_lt_iff, answer_eq_iff]
    cases a.compare b <;> simp [h]
  ge a b := by
    rw [Bool.eq_iff_iff, answer_ge_iff, answer_le_iff, compare_swap a b]
    refine and_congr ⟨Comparable.symm, Comparable.symm⟩ ?_
    cases a.compare b <;> decide
  gt a b := by
    rw [Bool.eq_iff_iff, answer_lt_iff, answer_gt_iff, compare_swap a b]
    refine and_congr ⟨Comparable.symm, Comparable.symm⟩ ?_
    cases a.compare b <;> decide
  lt_trans a b c hab hbc := by
    rw [answer_lt_iff] at *
    exact ⟨hab.1.trans hbc.1, Std.TransCmp.lt_trans hab.2 hbc.2⟩
  lt_iff a b h := by rw [answer_lt_iff, and_iff_right h]
  incomparable a b h name hname := by
    simp only [List.mem_cons, List.not_mem_nil, or_false] at hname
    rw [Bool.eq_false_iff]
    rcases hname with rfl | rfl | rfl | rfl
    all_goals exact fun holds => h ((answer_comparing_iff rfl).mp holds).1
  contains_text s t := contains_text_iff s t
  contains_array items b := contains_array_iff items b

/-- The operators of the language keep the laws, whatever filters and tags a host adds. -/
theorem operators_coherent (settings : Settings) (filters : List Filter) (tags : List Tag) :
    let operators := (Environment.create settings ⟨filters, tags, []⟩).1.operators
    (∀ operator ∈ standard, operators.get? operator.name = some operator ∧
      ∀ a b, operator.apply a b = .bool (answer operators operator.name a b)) ∧
      Coherent (answer operators) := by
  intro operators
  refine ⟨?_, coherent_language⟩
  intro operator hoperator
  simp only [standard, List.mem_cons, List.not_mem_nil, or_false] at hoperator
  rcases hoperator with rfl | rfl | rfl | rfl | rfl | rfl | rfl | rfl | rfl | rfl
  all_goals exact ⟨rfl, fun _ _ => rfl⟩

/-- An integer, an infinity and the value that is no number, each less than the next; and a pair of
equal values that cannot be compared. -/
theorem operators_coherent_nan :
    let one : Value := .integer 1
    let infinity : Value := .decimal (.infinite false)
    let nan : Value := .decimal .nan
    let yes : Value := .bool true
    let less := comparing "<" Ordering.isLT
    less ∈ standard ∧ less.apply one nan = .bool (answer language "<" one nan) ∧
      answer language "<" one infinity = true ∧ answer language "<" infinity nan = true ∧
      answer language "<" one nan = true ∧
      ¬Comparable yes yes ∧ "<=" ∈ ["<", ">", "<=", ">="] ∧
      answer language "<=" yes yes = false := by
  intro one infinity nan yes less
  have hless : less ∈ standard := by simp [standard, less]
  have hone : answer language "<" one infinity = true := rfl
  have hinfinity : answer language "<" infinity nan = true := rfl
  have hyes : ¬Comparable (.bool true) (.bool true) := by
    intro h
    cases h with
    | numbers ha _ => cases ha
  have hname : "<=" ∈ ["<", ">", "<=", ">="] := by decide
  rcases operators_coherent {} [] [] with ⟨hanswer, hcoherent⟩
  exact ⟨hless, (hanswer less hless).2 one nan, hone, hinfinity,
    hcoherent.lt_trans one infinity nan hone hinfinity, hyes, hname,
    hcoherent.incomparable yes yes hyes "<=" hname⟩

end Operator

end Liquid
