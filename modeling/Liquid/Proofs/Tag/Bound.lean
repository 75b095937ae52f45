import Liquid.Proofs.Expr.Bound
import Liquid.Tag.Standard

/-!
# Bounds of Tags

The repetitions in the arguments of tags go by bounds as well: the parameters of
a loop, the values of a `when` and those of a cycle. They are no more what ends
a reading than the bounds of expressions are.

## Main definitions

* `Tag.BoundsSuffice`: No bound of the language ends a reading.

## Theorems

* `Parser.separated_unbounded`: What is read between separators.
* `Tag.parameters_alike`: The parameters of a loop.
* `Tag.boundsSuffice`: All bounds of the language.
-/

namespace Liquid

namespace Parser

open Grammar

/-- A value has a lexeme at least. -/
theorem value_usesUp : UsesUp value := by
  intro ls rest result h
  exact usesUp_of_sound (primary_sound ls.length) primary_ne_nil h

theorem filteredValue_usesUp : UsesUp filteredValue := by
  intro ls rest result h
  exact usesUp_of_sound (filtered_sound (primary_sound ls.length)) filtered_ne_nil h

section Separated

variable {α : Type} {separator? : List Lexeme → Option (List Lexeme)} {rule : Parser α}

/-- Each value uses up lexemes, so more rounds than there are lexemes change nothing. -/
theorem separated_alike
    (hseparator : ∀ {ls rest}, separator? ls = some rest → rest.length < ls.length)
    (hrule : UsesUp rule) (rounds rounds' : Nat) {ls : List Lexeme} (hrounds : ls.length < rounds)
    (hrounds' : ls.length < rounds') :
    separated separator? rule rounds ls = separated separator? rule rounds' ls := by
  induction rounds generalizing rounds' ls with
  | zero => omega
  | succ rounds ih =>
      cases rounds' with
      | zero => omega
      | succ rounds' =>
          -- The rule and the separator use lexemes up, so that more rounds are never needed.
          refine bind_congr_of_ok rfl fun (first, rest) hfirst => ?_
          have hrest := hrule hfirst
          dsimp only
          cases hnext : separator? rest with
          | none => rfl
          | some behind =>
              have hbehind := hseparator hnext
              dsimp only
              rw [ih rounds' (by omega) (by omega)]

/-- Separated values are read as if there were no bound on the rounds. -/
theorem separated_unbounded
    (hseparator : ∀ {ls rest}, separator? ls = some rest → rest.length < ls.length)
    (hrule : UsesUp rule) : Unbounded fun rounds => separated separator? rule (rounds + 1) :=
  fun _ _ hbound => separated_alike hseparator hrule _ _ (by omega) (by omega)

end Separated

theorem length_of_word? {word : String} {ls rest : List Lexeme} (h : word? word ls = some rest) :
    rest.length < ls.length := by
  cases ls with
  | nil => cases h
  | cons l ls =>
      rw [word?] at h
      by_cases hl : ((l.kind == .keyword || l.kind == .identifier) && l.text == word) = true
      · rw [if_pos hl] at h
        cases h
        exact Nat.lt_succ_self _
      · rw [if_neg hl] at h
        cases h

end Parser

namespace Tag

open Liquid.Parser (Unbounded)

theorem length_of_alternative? {ls rest : List Lexeme} (h : alternative? ls = some rest) :
    rest.length < ls.length := by
  rcases Option.or_eq_some_iff.mp h with hcomma | ⟨_, hor⟩
  · exact Parser.length_of_symbol? hcomma
  · exact Parser.length_of_word? hor

/-- A tag that reads its arguments only changes how a fault is told. -/
theorem ofArgs_eq_ok_iff {α : Type} {block : Block} {result : Except Expr.Fault α} {a : α} :
    ofArgs block result = .ok a ↔ result = .ok a :=
  mapError_eq_ok_iff

/-- Each round reads a comma, a word, or a name with a colon and a value behind it. -/
theorem parameters_alike (block : Block) (known : List String) (rounds rounds' : Nat)
    (header : Header) {ls : List Lexeme} (hrounds : ls.length ≤ rounds)
    (hrounds' : ls.length ≤ rounds') :
    parameters block known rounds header ls = parameters block known rounds' header ls := by
  induction rounds generalizing rounds' header ls with
  | zero =>
      rw [List.length_eq_zero_iff.mp (Nat.le_zero.mp hrounds)]
      cases rounds' with
      | zero => rfl
      | succ rounds' => rfl
  | succ rounds ih =>
      -- Each round takes a lexeme at least: a comma, a word, or a name with its value.
      cases ls with
      | nil =>
          cases rounds' with
          | zero => rfl
          | succ rounds' => rfl
      | cons l ls =>
          cases rounds' with
          | zero => simp at hrounds'
          | succ rounds' =>
              rw [parameters, parameters]
              cases hcomma : Parser.symbol? "," (l :: ls) with
              | some rest =>
                  have hrest := Parser.length_of_symbol? hcomma
                  exact ih rounds' header (by omega) (by omega)
              | none =>
                  cases hreversed : Parser.word? "reversed" (l :: ls) with
                  | some rest =>
                      have hrest := Parser.length_of_word? hreversed
                      exact ih rounds' _ (by omega) (by omega)
                  | none =>
                      refine bind_congr_of_ok rfl fun (name, rest) hname => ?_
                      rcases Parser.identifier_eq_ok_iff.mp (ofArgs_eq_ok_iff.mp hname) with
                        ⟨_, _, _, heq⟩
                      cases heq
                      dsimp only
                      cases hcolon : Parser.symbol? ":" ls with
                      | none => rfl
                      | some behind =>
                          have hbehind := Parser.length_of_symbol? hcolon
                          simp only [List.length_cons] at hrounds hrounds'
                          dsimp only
                          congr 1
                          refine bind_congr_of_ok rfl fun (value, last) hvalue => ?_
                          have hlast := Parser.value_usesUp (ofArgs_eq_ok_iff.mp hvalue)
                          dsimp only
                          exact ih rounds' _ (by omega) (by omega)

/-- Whether no bound of the language ends a reading: with more rounds, or more depth, than there are
lexemes, every repetition and every nesting is read as with just as many. -/
structure BoundsSuffice : Prop where
  nesting : Unbounded Parser.primary
  arguments : ∀ depth, Unbounded fun rounds =>
    Parser.arguments (Parser.primary depth) (rounds + 1)
  filters : ∀ depth, Unbounded (Parser.chain (Parser.primary depth))
  operators : ∀ depth lhs, Unbounded fun rounds =>
    Parser.logicalTail (Parser.primary depth) rounds lhs
  steps : ∀ depth, Unbounded (Parser.steps (Parser.primary depth))
  whenValues : Unbounded fun rounds =>
    Parser.separated alternative? Parser.filteredValue (rounds + 1)
  cycleValues : Unbounded fun rounds =>
    Parser.separated (Parser.symbol? ",") Parser.value (rounds + 1)
  parameters : ∀ block known header ls rounds, ls.length ≤ rounds →
    parameters block known rounds header ls = parameters block known ls.length header ls

/-- Every bound that a recursion of the parser is given is never met. -/
theorem boundsSuffice : BoundsSuffice where
  nesting := Parser.primary_unbounded
  arguments := Parser.arguments_unbounded
  filters := Parser.chain_unbounded
  operators := Parser.logicalTail_unbounded
  steps := Parser.steps_unbounded
  whenValues := Parser.separated_unbounded length_of_alternative? Parser.filteredValue_usesUp
  cycleValues := Parser.separated_unbounded Parser.length_of_symbol? Parser.value_usesUp
  parameters block known header _ rounds hrounds :=
    parameters_alike block known rounds _ header hrounds (Nat.le_refl _)

end Tag

end Liquid
