import Liquid.Proofs.Except
import Liquid.Proofs.Expr.Grammar

/-!
# What is Read is Derived

A rule that gives a result has used up lexemes at the front, and these are
derived by the rule of the same name in the grammar. The rules take the reader
of primaries as an argument, so each theorem asks of that reader what is to be
shown of primaries. The last one closes the circle, by induction on the depth of
nesting.

The bounds play no part: whatever they are, a rule that gives a result has read
something that is derived.

## Main definitions

* `Grammar.Sound`: A rule reads only what a relation derives.

## Theorems

* `Grammar.primary_sound`, `Grammar.logical_sound`: The rules are sound.
-/

namespace Liquid

namespace Grammar

/-- Whether all that the rule reads is derived. -/
def Sound {α : Type} (derives : List Lexeme → α → Prop) (rule : Parser α) : Prop :=
  ∀ {ls rest : List Lexeme} {result : α}, rule ls = .ok (result, rest) →
    ∃ used, ls = used ++ rest ∧ derives used result

section Rules

variable {primary : Parser Expr} (hprimary : Sound Primary primary)

include hprimary

/-- An argument is read with its name, or without one. -/
theorem argument_sound : Sound Argument (Parser.argument primary) := by
  intro ls rest result h
  -- Two of the three ways through the rule read the argument from its very start.
  have hplain : (primary ls >>= fun read => .ok ((none, read.1), read.2)) = .ok (result, rest) →
      ∃ used, ls = used ++ rest ∧ Argument used result := by
    intro h
    rcases bind_eq_ok_iff.mp h with ⟨⟨value, behind⟩, hvalue, hnext⟩
    cases hnext
    rcases hprimary hvalue with ⟨used, rfl, hused⟩
    exact ⟨used, rfl, .plain hused⟩
  match ls with
  | [] => exact hplain h
  | [_] => exact hplain h
  | name :: colon :: ls =>
      rw [Parser.argument] at h
      by_cases hnamed : name.kind = .identifier ∧ colon.IsSymbol ":"
      · rw [if_pos (by simpa [Lexeme.IsSymbol, and_assoc] using hnamed)] at h
        rcases bind_eq_ok_iff.mp h with ⟨⟨value, behind⟩, hvalue, hnext⟩
        cases hnext
        rcases hprimary hvalue with ⟨used, rfl, hused⟩
        exact ⟨name :: colon :: used, rfl, .named hnamed.1 hnamed.2 hused⟩
      · rw [if_neg (by simpa [Lexeme.IsSymbol, and_assoc] using hnamed)] at h
        exact hplain h

/-- Arguments are read with the commas between them. -/
theorem arguments_sound (rounds : Nat) : Sound Arguments (Parser.arguments primary rounds) := by
  induction rounds with
  | zero =>
      intro ls rest result h
      cases h
  | succ rounds ih =>
      intro ls rest result h
      rw [Parser.arguments] at h
      rcases bind_eq_ok_iff.mp h with ⟨⟨first, behind⟩, hfirst, hnext⟩
      rcases argument_sound hprimary hfirst with ⟨used, rfl, hused⟩
      simp only at hnext
      -- A comma asks for one more argument.
      cases hcomma : Parser.symbol? "," behind with
      | none =>
          rw [hcomma] at hnext
          cases hnext
          exact ⟨used, rfl, .one hused⟩
      | some behind' =>
          rw [hcomma] at hnext
          rcases Parser.symbol?_eq_some_iff.mp hcomma with ⟨comma, hsymbol, rfl⟩
          rcases bind_eq_ok_iff.mp hnext with ⟨⟨others, last⟩, hothers, hlast⟩
          cases hlast
          rcases ih hothers with ⟨used', rfl, hused'⟩
          exact ⟨used ++ comma :: used', by simp, .more hused hsymbol hused'⟩

/-- A filter is read with its arguments, parted as the grammar says. -/
theorem filterCall_sound : Sound Call (Parser.filterCall primary) := by
  intro ls rest result h
  unfold Parser.filterCall at h
  rcases bind_eq_ok_iff.mp h with ⟨⟨name, behind⟩, hname, hnext⟩
  rcases Parser.identifier_eq_ok_iff.mp hname with ⟨l, hkind, rfl, rfl⟩
  simp only at hnext
  -- A colon asks for arguments, which are then parted by their names.
  cases hcolon : Parser.symbol? ":" behind with
  | none =>
      rw [hcolon] at hnext
      cases hnext
      exact ⟨[l], rfl, .bare hkind⟩
  | some behind' =>
      rw [hcolon] at hnext
      rcases Parser.symbol?_eq_some_iff.mp hcolon with ⟨colon, hsymbol, rfl⟩
      rcases bind_eq_ok_iff.mp hnext with ⟨⟨arguments, last⟩, harguments, hlast⟩
      cases hlast
      rcases arguments_sound hprimary _ harguments with ⟨used, rfl, hused⟩
      have hparted := (@parted_iff l.text arguments _ _).mp rfl
      exact ⟨l :: colon :: used, rfl, .applied hkind hsymbol hused hparted⟩

/-- Filters are read with the bars in front of them. -/
theorem chain_sound (rounds : Nat) : Sound Chain (Parser.chain primary rounds) := by
  induction rounds with
  | zero =>
      intro ls rest result h
      cases h
      exact ⟨[], rfl, .nil⟩
  | succ rounds ih =>
      intro ls rest result h
      rw [Parser.chain] at h
      -- A bar asks for one more call.
      cases hbar : Parser.symbol? "|" ls with
      | none =>
          rw [hbar] at h
          cases h
          exact ⟨[], rfl, .nil⟩
      | some behind =>
          rw [hbar] at h
          rcases Parser.symbol?_eq_some_iff.mp hbar with ⟨bar, hsymbol, rfl⟩
          rcases bind_eq_ok_iff.mp h with ⟨⟨call, behind'⟩, hcall, hnext⟩
          rcases bind_eq_ok_iff.mp hnext with ⟨⟨calls, last⟩, hcalls, hlast⟩
          cases hlast
          rcases filterCall_sound hprimary hcall with ⟨used, rfl, hused⟩
          rcases ih hcalls with ⟨used', rfl, hused'⟩
          exact ⟨bar :: (used ++ used'), by simp, .cons hsymbol hused hused'⟩

theorem filtered_sound : Sound Filtered (Parser.filtered primary) := by
  intro ls rest result h
  unfold Parser.filtered at h
  rcases bind_eq_ok_iff.mp h with ⟨⟨base, behind⟩, hbase, hnext⟩
  rcases bind_eq_ok_iff.mp hnext with ⟨⟨calls, last⟩, hcalls, hlast⟩
  cases hlast
  rcases hprimary hbase with ⟨used, rfl, hused⟩
  rcases chain_sound hprimary _ hcalls with ⟨used', rfl, hused'⟩
  exact ⟨used ++ used', by simp, .mk hused hused'⟩

/-- A comparison is read with both sides, or one side alone. -/
theorem comparison_sound : Sound Comparison (Parser.comparison primary) := by
  intro ls rest result h
  unfold Parser.comparison at h
  rcases bind_eq_ok_iff.mp h with ⟨⟨lhs, behind⟩, hlhs, hnext⟩
  rcases filtered_sound hprimary hlhs with ⟨used, rfl, hused⟩
  -- An operator is taken only if one of the comparisons follows.
  cases behind with
  | nil =>
      cases hnext
      exact ⟨used, rfl, .one hused⟩
  | cons op behind =>
      simp only at hnext
      by_cases hop : Parser.isComparison op
      · rw [if_pos hop] at hnext
        rcases bind_eq_ok_iff.mp hnext with ⟨⟨rhs, last⟩, hrhs, hlast⟩
        cases hlast
        rcases filtered_sound hprimary hrhs with ⟨used', rfl, hused'⟩
        exact ⟨used ++ op :: used', by simp, .two hused (compares_iff.mp hop) hused'⟩
      · rw [if_neg hop] at hnext
        cases hnext
        exact ⟨used, rfl, .one hused⟩

/-- The operands behind a left side are those that it is folded with. -/
theorem logicalTail_sound (rounds : Nat) {ls rest : List Lexeme} {lhs result : Expr}
    (h : Parser.logicalTail primary rounds lhs ls = .ok (result, rest)) :
    ∃ used operands,
      ls = used ++ rest ∧ Operands used operands ∧ result = folded lhs operands := by
  -- The left side grows with each round, so the induction is for all of them.
  induction rounds generalizing ls lhs with
  | zero =>
      cases h
      exact ⟨[], [], rfl, .nil, rfl⟩
  | succ rounds ih =>
      cases ls with
      | nil =>
          cases h
          exact ⟨[], [], rfl, .nil, rfl⟩
      | cons op behind =>
          rw [Parser.logicalTail] at h
          simp only at h
          by_cases hop : Parser.isLogical op
          · rw [if_pos hop] at h
            rcases bind_eq_ok_iff.mp h with ⟨⟨rhs, behind'⟩, hrhs, hnext⟩
            rcases comparison_sound hprimary hrhs with ⟨used, rfl, hused⟩
            rcases ih hnext with ⟨used', operands, rfl, hused', rfl⟩
            exact ⟨op :: (used ++ used'), (op.text, rhs) :: operands, by simp,
              .cons (connects_iff.mp hop) hused hused', rfl⟩
          · rw [if_neg hop] at h
            cases h
            exact ⟨[], [], rfl, .nil, rfl⟩

/-- Operands are read with the operators between them. -/
theorem logical_sound : Sound Logical (Parser.logical primary) := by
  intro ls rest result h
  unfold Parser.logical at h
  rcases bind_eq_ok_iff.mp h with ⟨⟨lhs, behind⟩, hlhs, hnext⟩
  rcases comparison_sound hprimary hlhs with ⟨used, rfl, hused⟩
  rcases logicalTail_sound hprimary _ hnext with ⟨used', operands, rfl, hused', rfl⟩
  exact ⟨used ++ used', by simp, .mk hused hused'⟩

omit hprimary in
/-- A name or an index is one lexeme. -/
theorem property_sound : Sound (fun used step => ∃ l, used = [l] ∧ Property l step)
    Parser.property := by
  intro ls rest result h
  cases ls with
  | nil => cases h
  | cons l ls =>
      rw [Parser.property] at h
      -- Keywords may name a property, though not a variable.
      by_cases hname : l.kind = .identifier ∨ l.kind = .keyword
      · rw [if_pos (by simpa using hname)] at h
        cases h
        exact ⟨[l], rfl, l, rfl, .name hname⟩
      · rw [if_neg (by simpa using hname)] at h
        cases hkind : l.kind <;> cases hvalue : Parser.integerOf? l.text <;>
          rw [hkind, hvalue] at h <;> cases h
        exact ⟨[l], rfl, l, rfl, .index hkind (whole_iff.mp hvalue)⟩

omit hprimary in
theorem written_singleton {inside : List Lexeme} {step : Accessor} (h : Written inside step) :
    ∃ l, inside = [l] := by
  cases h with
  | index => exact ⟨_, rfl⟩
  | field => exact ⟨_, rfl⟩

omit hprimary in
theorem written_of_integer {l : Lexeme} {n : Int} (h : Literal l (.integer n)) :
    Written [l] (.index n) := by
  cases h with
  | integer hkind hn => exact .index hkind hn
  | keyword _ hvalue =>
      rcases Parser.nil_or_bool_of_word hvalue with h | ⟨_, h⟩ <;> cases h

omit hprimary in
theorem written_of_string {l : Lexeme} {name : String} (h : Literal l (.string name)) :
    Written [l] (.field name) := by
  cases h with
  | string hkind => exact .field hkind
  | keyword _ hvalue =>
      rcases Parser.nil_or_bool_of_word hvalue with h | ⟨_, h⟩ <;> cases h

omit hprimary in
/-- A key that is one literal, with the closing bracket behind it. -/
theorem bracket_written {key closing : Lexeme} {step : Accessor} (hkey : Written [key] step)
    (hclosing : closing.IsSymbol "]") (rest : List Lexeme) :
    Parser.bracket primary (key :: closing :: rest) = .ok (step, rest) := by
  rcases hclosing with ⟨hkind, htext⟩
  cases hkey with
  | index hinteger hn =>
      have hliteral := Parser.literal?_eq_some_iff.mpr (.integer hinteger hn)
      simp [Parser.bracket, hkind, htext, hliteral]
  | field hstring =>
      have hliteral := Parser.literal?_eq_some_iff.mpr (.string hstring)
      simp [Parser.bracket, hkind, htext, hliteral]

omit hprimary in
/-- Any other key is an expression with the closing bracket behind it. -/
theorem bracket_computed {ls : List Lexeme}
    (h : ∀ key closing rest step, ls = key :: closing :: rest → closing.IsSymbol "]" →
      ¬Written [key] step) :
    Parser.bracket primary ls =
      (Parser.logical primary ls >>= fun read =>
        Parser.require "]" .noIndexEnd read.2 >>= fun behind => .ok (.key read.1, behind)) := by
  match ls with
  | [] => rfl
  | [_] => rfl
  | key :: closing :: rest =>
      rw [Parser.bracket]
      -- A literal is a key by itself only if the bracket closes right behind it.
      by_cases hclosing : closing.IsSymbol "]"
      · rw [if_pos (by simpa [Lexeme.IsSymbol] using hclosing)]
        cases hliteral : Parser.literal? key with
        | none => rfl
        | some value =>
            cases value with
            | integer n =>
                have hkey := written_of_integer (Parser.literal?_eq_some_iff.mp hliteral)
                exact absurd hkey (h key closing rest _ rfl hclosing)
            | string name =>
                have hkey := written_of_string (Parser.literal?_eq_some_iff.mp hliteral)
                exact absurd hkey (h key closing rest _ rfl hclosing)
            | _ => rfl
      · rw [if_neg (by simpa [Lexeme.IsSymbol] using hclosing)]

/-- A key in brackets is read with the closing one behind it. -/
theorem bracket_sound : Sound
    (fun used step => ∃ inside closing, used = inside ++ [closing] ∧
      closing.IsSymbol "]" ∧ Bracket inside step)
    (Parser.bracket primary) := by
  intro ls rest result h
  -- The rule looks two lexemes ahead, and so does the case split.
  by_cases hwritten : ∃ key closing behind step, ls = key :: closing :: behind ∧
      closing.IsSymbol "]" ∧ Written [key] step
  · rcases hwritten with ⟨key, closing, behind, step, rfl, hclosing, hkey⟩
    rw [bracket_written hkey hclosing] at h
    cases h
    exact ⟨[key, closing], rfl, [key], closing, rfl, hclosing, .written hkey⟩
  · rw [bracket_computed fun key closing behind step hls hclosing hkey =>
      hwritten ⟨key, closing, behind, step, hls, hclosing, hkey⟩] at h
    rcases bind_eq_ok_iff.mp h with ⟨⟨key, behind⟩, hkey, hnext⟩
    rcases bind_eq_ok_iff.mp hnext with ⟨_, hrequire, hlast⟩
    cases hlast
    rcases Parser.require_eq_ok_iff.mp hrequire with ⟨closing, hclosing, rfl⟩
    rcases logical_sound hprimary hkey with ⟨inside, rfl, hinside⟩
    refine ⟨inside ++ [closing], by simp, inside, closing, rfl, hclosing, .computed ?_ hinside⟩
    -- A literal alone would not have been read as an expression.
    intro step hstep
    rcases written_singleton hstep with ⟨l, rfl⟩
    exact hwritten ⟨l, closing, rest, step, rfl, hclosing, hstep⟩

/-- Steps are read with the points and brackets that start them. -/
theorem steps_sound (rounds : Nat) : Sound Steps (Parser.steps primary rounds) := by
  induction rounds with
  | zero =>
      intro ls rest result h
      cases h
      exact ⟨[], rfl, .nil⟩
  | succ rounds ih =>
      intro ls rest result h
      rw [Parser.steps] at h
      cases hpoint : Parser.symbol? "." ls with
      | some behind =>
          rw [hpoint] at h
          rcases Parser.symbol?_eq_some_iff.mp hpoint with ⟨point, hsymbol, rfl⟩
          rcases bind_eq_ok_iff.mp h with ⟨⟨step, after⟩, hstep, hnext⟩
          rcases bind_eq_ok_iff.mp hnext with ⟨⟨steps, last⟩, hsteps, hlast⟩
          cases hlast
          rcases property_sound hstep with ⟨_, rfl, key, rfl, hkey⟩
          rcases ih hsteps with ⟨used, rfl, hused⟩
          exact ⟨point :: key :: used, rfl, .point hsymbol hkey hused⟩
      | none =>
          rw [hpoint] at h
          -- No point is in front, so only a bracket starts another step.
          cases hopening : Parser.symbol? "[" ls with
          | none =>
              rw [hopening] at h
              cases h
              exact ⟨[], rfl, .nil⟩
          | some behind =>
              rw [hopening] at h
              rcases Parser.symbol?_eq_some_iff.mp hopening with ⟨opening, hsymbol, rfl⟩
              rcases bind_eq_ok_iff.mp h with ⟨⟨step, after⟩, hstep, hnext⟩
              rcases bind_eq_ok_iff.mp hnext with ⟨⟨steps, last⟩, hsteps, hlast⟩
              cases hlast
              rcases bracket_sound hprimary hstep with
                ⟨_, rfl, inside, closing, rfl, hclosing, hinside⟩
              rcases ih hsteps with ⟨used, rfl, hused⟩
              exact ⟨opening :: (inside ++ closing :: used), by simp,
                .bracket hsymbol hinside hclosing hused⟩

/-- What stands between parentheses is a range. -/
theorem range_sound : Sound
    (fun used range =>
      ∀ opening : Lexeme, opening.IsSymbol "(" → Primary (opening :: used) range)
    (Parser.range primary) := by
  intro ls rest result h
  unfold Parser.range at h
  rcases bind_eq_ok_iff.mp h with ⟨⟨start, behind⟩, hstart, hnext⟩
  rcases bind_eq_ok_iff.mp hnext with ⟨after, hdots, hlast⟩
  rcases bind_eq_ok_iff.mp hlast with ⟨⟨stop, tail⟩, hstop, hend⟩
  rcases bind_eq_ok_iff.mp hend with ⟨_, hparen, hresult⟩
  cases hresult
  -- From the end back to the front, as each part is found in what the next one left.
  rcases Parser.require_eq_ok_iff.mp hparen with ⟨closing, hclosing, rfl⟩
  rcases hprimary hstop with ⟨last, rfl, hused⟩
  rcases Parser.require_eq_ok_iff.mp hdots with ⟨dots, hsymbol, rfl⟩
  rcases hprimary hstart with ⟨first, rfl, hfirst⟩
  exact ⟨first ++ dots :: (last ++ [closing]), by simp,
    fun opening hopening => .range hopening hfirst hsymbol hused hclosing (span_iff.mp rfl)⟩

end Rules

/-- A value is read as the grammar derives it, by the depth that is left. -/
theorem primary_sound (depth : Nat) : Sound Primary (Parser.primary depth) := by
  -- What is inside brackets is read with one level less, so it is sound by the induction.
  induction depth with
  | zero =>
      intro ls rest result h
      cases ls with
      | nil => cases h
      | cons l ls => cases h
  | succ depth ih =>
      intro ls rest result h
      cases ls with
      | nil => cases h
      | cons l ls =>
          rw [Parser.primary] at h
          cases hliteral : Parser.literal? l with
          | some value =>
              rw [hliteral] at h
              cases h
              exact ⟨[l], rfl, .literal (Parser.literal?_eq_some_iff.mp hliteral)⟩
          | none =>
              rw [hliteral] at h
              simp only at h
              by_cases hname : l.kind = .identifier
              · rw [if_pos (by simpa using hname)] at h
                rcases bind_eq_ok_iff.mp h with ⟨⟨steps, behind⟩, hsteps, hnext⟩
                cases hnext
                rcases steps_sound ih _ hsteps with ⟨used, rfl, hused⟩
                exact ⟨l :: used, rfl, .path hname hused⟩
              rw [if_neg (by simpa using hname)] at h
              by_cases hopening : l.IsSymbol "("
              · rw [if_pos (by simpa [Lexeme.IsSymbol] using hopening)] at h
                rcases range_sound ih h with ⟨used, rfl, hused⟩
                exact ⟨l :: used, rfl, hused l hopening⟩
              · rw [if_neg (by simpa [Lexeme.IsSymbol] using hopening)] at h
                cases h

/-- An expression that is read is derived from the lexemes that are used up. -/
theorem expression_sound : Sound Logical Parser.expression :=
  fun h => logical_sound (primary_sound _) h

end Grammar

end Liquid
