import Liquid.Environment
import Liquid.Expr.Eval
import Liquid.Proofs.Expr.Parse

/-!
# Disjunctions of Comparisons

A value is looked for among others by comparing it with each of them, with `or`
between the comparisons. Comparisons bind tighter than the word, and what is
between the words is grouped to the left. So the last comparison is the right
side of the whole, and its left side is what stands before.

An operator has both of its sides evaluated before it is applied. A disjunction
therefore comes to something only if all of its comparisons do, those behind an
equal value among them. Given that, it says whether one of the values is equal.

## Main definitions

* `Grammar.anyOf`: Comparisons of a subject with values, of which one has to hold.
* `Grammar.Disjunction`: How they are written.
* `Expr.equates`: Whether two expressions have equal values.

## Theorems

* `Grammar.parse_disjunction`: Comparisons are read as what they are.
* `Expr.of_anyOf_eval`: What a disjunction comes to.
-/

namespace Liquid

namespace Grammar

/-- The comparison of a subject with a value. -/
def equation (subject value : Expr) : Expr :=
  .binary "==" subject value

/-- The comparisons of a subject with values, of which one has to hold. -/
def anyOf (subject first : Expr) (others : List Expr) : Expr :=
  folded (equation subject first) (others.map fun value => ("or", equation subject value))

/-- A comparison as it is written. -/
inductive Equation (subject : Expr) : List Lexeme → Expr → Prop
  | mk {equals : Lexeme} {lhs rhs : List Lexeme} {value : Expr} :
      Filtered lhs subject → equals.kind = .operator → equals.text = "==" → Filtered rhs value →
      Equation subject (lhs ++ equals :: rhs) value

/-- Comparisons with the word between them. -/
inductive Disjunction (subject : Expr) : List Lexeme → List Expr → Prop
  | one {ls : List Lexeme} {value : Expr} :
      Equation subject ls value → Disjunction subject ls [value]
  | more {word : Lexeme} {ls rest : List Lexeme} {value : Expr} {values : List Expr} :
      Equation subject ls value → word.kind = .keyword → word.text = "or" →
      Disjunction subject rest values → Disjunction subject (ls ++ word :: rest) (value :: values)

section Disjunction

variable {subject : Expr} {ls : List Lexeme} {values : List Expr}

theorem comparison_of_equation {value : Expr} (h : Equation subject ls value) :
    Comparison ls (equation subject value) := by
  cases h with
  | @mk equals lhs rhs value hlhs hkind htext hrhs =>
      have hop : Compares equals := ⟨.inl hkind, by simp [htext]⟩
      have hcomparison := Comparison.two hlhs hop hrhs
      rwa [htext] at hcomparison

/-- The first comparison and the others, as the sides of the operators between them. -/
theorem operands_of_disjunction (h : Disjunction subject ls values) :
    ∃ first others used rest, values = first :: others ∧ ls = used ++ rest ∧
      Comparison used (equation subject first) ∧
      Operands rest (others.map fun value => ("or", equation subject value)) := by
  -- By the alternatives: each one but the first is an operand behind the word for it.
  induction h with
  | @one ls value hequation =>
      exact ⟨value, [], ls, [], rfl, (List.append_nil _).symm, comparison_of_equation hequation,
        .nil⟩
  | @more word ls rest value values hequation hkind htext _ ih =>
      rcases ih with ⟨first, others, used, behind, rfl, rfl, hfirst, hothers⟩
      refine ⟨value, first :: others, ls, word :: (used ++ behind), rfl, rfl,
        comparison_of_equation hequation, ?_⟩
      have hor : Connects word := ⟨hkind, .inr htext⟩
      have hoperands := Operands.cons hor hfirst hothers
      rwa [htext] at hoperands

/-- Comparisons are read as what they are. -/
theorem parse_disjunction {args : String} (hargs : Lexeme.body args = .ok ls)
    (h : Disjunction subject ls values) :
    ∃ first others, values = first :: others ∧
      Expr.parse args = .ok (anyOf subject first others) := by
  rcases operands_of_disjunction h with ⟨first, others, used, rest, hvalues, rfl, hfirst, hothers⟩
  exact ⟨first, others, hvalues, (parse_eq_ok_iff hargs).mpr (.mk hfirst hothers)⟩

/-- A value with filters is an expression. -/
theorem parse_filtered {args : String} {value : Expr} (hargs : Lexeme.body args = .ok ls)
    (h : Filtered ls value) : Expr.parse args = .ok value := by
  have hlogical : Logical (ls ++ []) (folded value []) := .mk (.one h) .nil
  rw [List.append_nil] at hlogical
  exact (parse_eq_ok_iff hargs).mpr hlogical

end Disjunction

end Grammar

namespace Expr

/-- Whether the value of an expression equals that of the subject. -/
def equates (env : Environment) (scope : Scope) (subject value : Expr) : Bool :=
  match (subject.eval env scope none).result, (value.eval env scope none).result with
  | .ok s, .ok v => s.equals v
  | _, _ => false

section Eval

variable {env : Environment} {scope : Scope} {subject : Expr}

/-- An operator is applied to the values of both sides. -/
theorem binary_eq_ok_iff {op : String} {operator : Operator}
    (hop : env.operators.get? op = some operator) {lhs rhs : Expr} {result : Value} :
    ((binary op lhs rhs).eval env scope none).result = .ok result ↔
      ∃ l r, (lhs.eval env scope none).result = .ok l ∧ (rhs.eval env scope none).result = .ok r ∧
        operator.apply l r = result := by
  simp only [Expr.eval, hop]
  constructor
  · intro h
    rcases Noted.bind_result_eq_ok_iff.mp h with ⟨l, hl, hnext⟩
    rcases Noted.bind_result_eq_ok_iff.mp hnext with ⟨r, hr, hlast⟩
    exact ⟨l, r, hl, hr, Except.ok.inj hlast⟩
  · rintro ⟨l, r, hl, hr, rfl⟩
    exact Noted.bind_result_eq_ok_iff.mpr ⟨l, hl, Noted.bind_result_eq_ok_iff.mpr ⟨r, hr, rfl⟩⟩

variable (henv : env.operators = Environment.standard.operators)

include henv

/-- A comparison holds if both sides have values, and these are equal. -/
theorem of_equation_eval {value : Expr} {result : Value}
    (h : ((Grammar.equation subject value).eval env scope none).result = .ok result) :
    (∃ s, (subject.eval env scope none).result = .ok s) ∧
      (∃ v, (value.eval env scope none).result = .ok v) ∧
      result.isTruthy = equates env scope subject value := by
  have hop : env.operators.get? "==" = some ⟨"==", fun lhs rhs => .bool (lhs.equals rhs)⟩ := by
    rw [henv]
    rfl
  rcases (binary_eq_ok_iff hop).mp h with ⟨s, v, hs, hv, rfl⟩
  refine ⟨⟨s, hs⟩, ⟨v, hv⟩, ?_⟩
  simp only [equates, hs, hv, Value.isTruthy]

/-- Operators are applied from the left, so the sides in front are one value in the end. -/
theorem of_folded_eval {others : List Expr} {lhs : Expr} {result : Value}
    (h : ((Grammar.folded lhs (others.map fun value =>
      ("or", Grammar.equation subject value))).eval env scope none).result = .ok result) :
    ∃ l, (lhs.eval env scope none).result = .ok l ∧
      (∀ value ∈ others, ∃ v, (value.eval env scope none).result = .ok v) ∧
      result.isTruthy = (l.isTruthy || others.any (equates env scope subject)) := by
  have hop : env.operators.get? "or" =
      some ⟨"or", fun lhs rhs => .bool (lhs.isTruthy || rhs.isTruthy)⟩ := by
    rw [henv]
    rfl
  -- The left side grows by one comparison in each step.
  induction others generalizing lhs with
  | nil => exact ⟨result, h, fun _ hvalue => (nomatch hvalue), (Bool.or_false _).symm⟩
  | cons value others ih =>
      rcases ih h with ⟨both, hboth, hothers, hresult⟩
      rcases (binary_eq_ok_iff hop).mp hboth with ⟨l, r, hl, hr, rfl⟩
      rcases of_equation_eval henv hr with ⟨_, hvalue, hequates⟩
      refine ⟨l, hl, List.forall_mem_cons.mpr ⟨hvalue, hothers⟩, ?_⟩
      rw [hresult, List.any_cons, ← hequates, ← Bool.or_assoc]
      rfl

/-- What a disjunction comes to, if it comes to anything: whether one of the values is equal. -/
theorem of_anyOf_eval {first : Expr} {others : List Expr} {result : Value}
    (h : ((Grammar.anyOf subject first others).eval env scope none).result = .ok result) :
    (∃ s, (subject.eval env scope none).result = .ok s) ∧
      (∀ value ∈ first :: others, ∃ v, (value.eval env scope none).result = .ok v) ∧
      result.isTruthy = (first :: others).any (equates env scope subject) := by
  rcases of_folded_eval henv h with ⟨l, hl, hothers, hresult⟩
  rcases of_equation_eval henv hl with ⟨hsubject, hfirst, hequates⟩
  refine ⟨hsubject, List.forall_mem_cons.mpr ⟨hfirst, hothers⟩, ?_⟩
  rw [hresult, hequates, List.any_cons]

end Eval

end Expr

end Liquid
