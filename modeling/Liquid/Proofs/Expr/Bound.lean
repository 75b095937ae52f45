import Liquid.Proofs.Expr.Soundness

/-!
# Bounds of Reading

The rules for expressions go by bounds, on the rounds of a repetition and on the
depth of nesting. No bound is ever what ends a reading: a round and a level use
up a lexeme at least, and there are no more of these than the bound that is
given. So any larger bound gives the same answer, be it a result or a fault, and
the rules read what they would read without one.

That a rule uses up a lexeme whenever it gives a result comes from its soundness,
since nothing is derived from no lexemes. From there on a rule is compared with
itself, under another bound and with another reader of primaries that agrees
with the first one on all lists that are short enough.

## Main definitions

* `Parser.Unbounded`: A larger bound than the number of lexemes changes nothing.
* `Parser.UsesUp`: A rule uses up a lexeme at least.
* `Parser.Alike`: Two rules agree on short lists.

## Theorems

* `Parser.primary_unbounded`: The depth of nesting.
* `Parser.arguments_unbounded`, `Parser.chain_unbounded`,
  `Parser.logicalTail_unbounded`, `Parser.steps_unbounded`: The repetitions.
-/

namespace Liquid

namespace Grammar

theorem primary_ne_nil {used : List Lexeme} {expr : Expr} (h : Primary used expr) : used ≠ [] := by
  cases h with
  | literal => exact List.cons_ne_nil _ _
  | path => exact List.cons_ne_nil _ _
  | range => exact List.cons_ne_nil _ _

theorem argument_ne_nil {used : List Lexeme} {argument : Option String × Expr}
    (h : Argument used argument) : used ≠ [] := by
  cases h with
  | named => exact List.cons_ne_nil _ _
  | plain hprimary => exact primary_ne_nil hprimary

theorem call_ne_nil {used : List Lexeme} {call : FilterCall} (h : Call used call) : used ≠ [] := by
  cases h with
  | bare => exact List.cons_ne_nil _ _
  | applied => exact List.cons_ne_nil _ _

theorem filtered_ne_nil {used : List Lexeme} {expr : Expr} (h : Filtered used expr) :
    used ≠ [] := by
  cases h with
  | mk hprimary => exact List.append_ne_nil_of_left_ne_nil (primary_ne_nil hprimary) _

theorem comparison_ne_nil {used : List Lexeme} {expr : Expr} (h : Comparison used expr) :
    used ≠ [] := by
  cases h with
  | one hfiltered => exact filtered_ne_nil hfiltered
  | two hfiltered => exact List.append_ne_nil_of_left_ne_nil (filtered_ne_nil hfiltered) _

end Grammar

namespace Parser

open Grammar

/-- Whether a rule that goes by a bound reads alike under all bounds that the lexemes fit in. -/
def Unbounded {α : Type} (rule : Nat → Parser α) : Prop :=
  ∀ ls bound, ls.length ≤ bound → rule bound ls = rule ls.length ls

/-- Whether a rule that gives a result has used up a lexeme. -/
def UsesUp {α : Type} (rule : Parser α) : Prop :=
  ∀ {ls rest : List Lexeme} {result : α}, rule ls = .ok (result, rest) → rest.length < ls.length

/-- Whether two rules agree on all lists that are no longer than the bound. -/
def Alike {α : Type} (n : Nat) (first second : Parser α) : Prop :=
  ∀ ls, ls.length ≤ n → first ls = second ls

/-- What is read by the grammar uses lexemes up, if what it derives is never empty. -/
theorem usesUp_of_sound {α : Type} {derives : List Lexeme → α → Prop} {rule : Parser α}
    (h : Sound derives rule) (hne : ∀ {used result}, derives used result → used ≠ []) :
    UsesUp rule := by
  intro ls rest result hresult
  rcases h hresult with ⟨used, rfl, hused⟩
  have hpos := List.length_pos_iff.mpr (hne hused)
  rw [List.length_append]
  omega

theorem length_of_symbol? {symbol : String} {ls rest : List Lexeme}
    (h : symbol? symbol ls = some rest) : rest.length < ls.length := by
  rcases symbol?_eq_some_iff.mp h with ⟨l, _, rfl⟩
  exact Nat.lt_succ_self _

theorem property_usesUp : UsesUp property := by
  refine usesUp_of_sound property_sound ?_
  rintro _ _ ⟨l, rfl, _⟩
  exact List.cons_ne_nil l []

section Rules

variable {primary other : Parser Expr} {n : Nat}

/-- An argument is read alike by alike readers of values. -/
theorem argument_alike (h : Alike n primary other) :
    Alike n (argument primary) (argument other) := by
  intro ls hls
  match ls with
  | [] => simp only [argument, h [] hls]
  | [l] => simp only [argument, h [l] hls]
  | name :: colon :: ls =>
      have hbehind : ls.length ≤ n := by
        simp only [List.length_cons] at hls
        omega
      simp only [argument, h _ hls, h ls hbehind]

variable (hsound : Sound Primary primary)

include hsound

/-- Each argument uses up a lexeme, so the rounds never run out. -/
theorem arguments_alike (h : Alike n primary other) (rounds rounds' : Nat) {ls : List Lexeme}
    (hls : ls.length ≤ n) (hrounds : ls.length < rounds) (hrounds' : ls.length < rounds') :
    arguments primary rounds ls = arguments other rounds' ls := by
  induction rounds generalizing rounds' ls with
  | zero => omega
  | succ rounds ih =>
      cases rounds' with
      | zero => omega
      | succ rounds' =>
          refine bind_congr_of_ok (argument_alike h ls hls) fun (first, rest) hfirst => ?_
          -- What is behind the first argument is shorter, so the hypothesis is about it.
          have hrest := usesUp_of_sound (argument_sound hsound) argument_ne_nil hfirst
          dsimp only
          cases hcomma : symbol? "," rest with
          | none => rfl
          | some behind =>
              have hbehind := length_of_symbol? hcomma
              dsimp only
              rw [ih rounds' (by omega) (by omega) (by omega)]

/-- A filter with its arguments is read alike. -/
theorem filterCall_alike (h : Alike n primary other) :
    Alike n (filterCall primary) (filterCall other) := by
  intro ls hls
  refine bind_congr_of_ok rfl fun (name, rest) hname => ?_
  rcases identifier_eq_ok_iff.mp hname with ⟨l, _, _, rfl⟩
  dsimp only
  cases hcolon : symbol? ":" rest with
  | none => rfl
  | some behind =>
      have hbehind := length_of_symbol? hcolon
      simp only [List.length_cons] at hls
      dsimp only
      -- The arguments come behind the name and the colon, so they are shorter.
      rw [arguments_alike hsound h (behind.length + 1) (behind.length + 1) (by omega) (by omega)
        (by omega)]

/-- Each filter uses up a lexeme, so the rounds never run out. -/
theorem chain_alike (h : Alike n primary other) (rounds rounds' : Nat) {ls : List Lexeme}
    (hls : ls.length ≤ n) (hrounds : ls.length ≤ rounds) (hrounds' : ls.length ≤ rounds') :
    chain primary rounds ls = chain other rounds' ls := by
  induction rounds generalizing rounds' ls with
  | zero =>
      rw [List.length_eq_zero_iff.mp (Nat.le_zero.mp hrounds)]
      cases rounds' with
      | zero => rfl
      | succ rounds' => rfl
  | succ rounds ih =>
      -- Without a bar in front nothing is read, with whatever rounds are left.
      cases hbar : symbol? "|" ls with
      | none =>
          cases rounds' with
          | zero => simp only [chain, hbar]
          | succ rounds' => simp only [chain, hbar]
      | some behind =>
          have hbehind := length_of_symbol? hbar
          cases rounds' with
          | zero => omega
          | succ rounds' =>
              rw [chain, chain, hbar]
              refine bind_congr_of_ok (filterCall_alike hsound h behind (by omega)) ?_
              rintro ⟨call, rest⟩ hcall
              have hrest := usesUp_of_sound (filterCall_sound hsound) call_ne_nil hcall
              dsimp only
              rw [ih rounds' (by omega) (by omega) (by omega)]

theorem filtered_alike (h : Alike n primary other) :
    Alike n (filtered primary) (filtered other) := by
  intro ls hls
  refine bind_congr_of_ok (h ls hls) fun (base, rest) hbase => ?_
  have hrest := usesUp_of_sound hsound primary_ne_nil hbase
  dsimp only
  rw [chain_alike hsound h rest.length rest.length (by omega) (by omega) (by omega)]

theorem comparison_alike (h : Alike n primary other) :
    Alike n (comparison primary) (comparison other) := by
  intro ls hls
  refine bind_congr_of_ok (filtered_alike hsound h ls hls) fun (lhs, rest) hlhs => ?_
  have hrest := usesUp_of_sound (filtered_sound hsound) filtered_ne_nil hlhs
  cases rest with
  | nil => rfl
  | cons op behind =>
      simp only [List.length_cons] at hrest
      dsimp only
      rw [filtered_alike hsound h behind (by omega)]

/-- Each operand uses up a lexeme, so the rounds never run out. -/
theorem logicalTail_alike (h : Alike n primary other) (rounds rounds' : Nat) (lhs : Expr)
    {ls : List Lexeme} (hls : ls.length ≤ n) (hrounds : ls.length ≤ rounds)
    (hrounds' : ls.length ≤ rounds') :
    logicalTail primary rounds lhs ls = logicalTail other rounds' lhs ls := by
  induction rounds generalizing rounds' lhs ls with
  | zero =>
      rw [List.length_eq_zero_iff.mp (Nat.le_zero.mp hrounds)]
      cases rounds' with
      | zero => rfl
      | succ rounds' => rfl
  | succ rounds ih =>
      cases ls with
      | nil =>
          cases rounds' with
          | zero => rfl
          | succ rounds' => rfl
      | cons op behind =>
          simp only [List.length_cons] at hls hrounds hrounds'
          cases rounds' with
          | zero => omega
          | succ rounds' =>
              rw [logicalTail, logicalTail]
              dsimp only
              -- An operator goes on with an operand behind it. Anything else ends the reading.
              by_cases hop : isLogical op
              · rw [if_pos hop, if_pos hop]
                refine bind_congr_of_ok (comparison_alike hsound h behind (by omega)) ?_
                rintro ⟨rhs, rest⟩ hrhs
                have hrest := usesUp_of_sound (comparison_sound hsound) comparison_ne_nil hrhs
                dsimp only
                exact ih rounds' _ (by omega) (by omega) (by omega)
              · rw [if_neg hop, if_neg hop]

theorem logical_alike (h : Alike n primary other) :
    Alike n (logical primary) (logical other) := by
  intro ls hls
  refine bind_congr_of_ok (comparison_alike hsound h ls hls) fun (lhs, rest) hlhs => ?_
  have hrest := usesUp_of_sound (comparison_sound hsound) comparison_ne_nil hlhs
  exact logicalTail_alike hsound h rest.length rest.length lhs (by omega) (by omega) (by omega)

theorem bracket_alike (h : Alike n primary other) :
    Alike n (bracket primary) (bracket other) := by
  intro ls hls
  unfold bracket
  rw [logical_alike hsound h ls hls]

theorem bracket_usesUp : UsesUp (bracket primary) := by
  refine usesUp_of_sound (bracket_sound hsound) ?_
  rintro _ _ ⟨inside, closing, rfl, _⟩
  exact List.append_ne_nil_of_right_ne_nil inside (List.cons_ne_nil closing [])

/-- Each step uses up a lexeme, so the rounds never run out. -/
theorem steps_alike (h : Alike n primary other) (rounds rounds' : Nat) {ls : List Lexeme}
    (hls : ls.length ≤ n) (hrounds : ls.length ≤ rounds) (hrounds' : ls.length ≤ rounds') :
    steps primary rounds ls = steps other rounds' ls := by
  induction rounds generalizing rounds' ls with
  | zero =>
      rw [List.length_eq_zero_iff.mp (Nat.le_zero.mp hrounds)]
      cases rounds' with
      | zero => rfl
      | succ rounds' => rfl
  | succ rounds ih =>
      cases rounds' with
      | zero =>
          rw [List.length_eq_zero_iff.mp (Nat.le_zero.mp hrounds')]
          rfl
      | succ rounds' =>
          rw [steps, steps]
          -- A step starts with a point or with a bracket, and is read behind it.
          cases hpoint : symbol? "." ls with
          | some behind =>
              have hbehind := length_of_symbol? hpoint
              refine bind_congr_of_ok rfl ?_
              rintro ⟨step, rest⟩ hstep
              have hrest := property_usesUp hstep
              dsimp only
              rw [ih rounds' (by omega) (by omega) (by omega)]
          | none =>
              cases hopening : symbol? "[" ls with
              | none => rfl
              | some behind =>
                  have hbehind := length_of_symbol? hopening
                  refine bind_congr_of_ok (bracket_alike hsound h behind (by omega)) ?_
                  rintro ⟨step, rest⟩ hstep
                  have hrest := bracket_usesUp hsound hstep
                  dsimp only
                  rw [ih rounds' (by omega) (by omega) (by omega)]

/-- A range is read alike by alike readers of its ends. -/
theorem range_alike (h : Alike n primary other) : Alike n (range primary) (range other) := by
  intro ls hls
  refine bind_congr_of_ok (h ls hls) fun (start, rest) hstart => ?_
  have hrest := usesUp_of_sound hsound primary_ne_nil hstart
  refine bind_congr_of_ok rfl fun behind hdots => ?_
  rcases require_eq_ok_iff.mp hdots with ⟨dots, _, rfl⟩
  simp only [List.length_cons] at hrest
  dsimp only
  rw [h behind (by omega)]

end Rules

/-- Primaries are read alike by all depths that are no less than the number of lexemes. -/
theorem primary_alike (depth depth' : Nat) {ls : List Lexeme} (hdepth : ls.length ≤ depth)
    (hdepth' : ls.length ≤ depth') : primary depth ls = primary depth' ls := by
  induction depth generalizing depth' ls with
  | zero =>
      rw [List.length_eq_zero_iff.mp (Nat.le_zero.mp hdepth)]
      cases depth' with
      | zero => rfl
      | succ depth' => rfl
  | succ depth ih =>
      cases ls with
      | nil =>
          cases depth' with
          | zero => rfl
          | succ depth' => rfl
      | cons l ls =>
          simp only [List.length_cons] at hdepth hdepth'
          cases depth' with
          | zero => omega
          | succ depth' =>
              -- What is inside of a primary is read with one level less, from fewer lexemes.
              have hinside : Alike ls.length (primary depth) (primary depth') := by
                intro inside hlength
                exact ih depth' (by omega) (by omega)
              have hsound : Sound Primary (primary depth) := primary_sound depth
              have hsteps := steps_alike hsound hinside ls.length ls.length (Nat.le_refl _)
                (Nat.le_refl _) (Nat.le_refl _)
              rw [primary, primary, hsteps, range_alike hsound hinside ls (Nat.le_refl _)]

/-- With a depth for each lexeme, no nesting is cut short. -/
theorem primary_unbounded : Unbounded primary :=
  fun ls bound hbound => primary_alike bound ls.length hbound (Nat.le_refl _)

section Unbounded

variable (depth : Nat)

/-- A reader of primaries agrees with itself. -/
theorem alike_self (n : Nat) : Alike n (primary depth) (primary depth) :=
  fun _ _ => rfl

theorem arguments_unbounded : Unbounded fun rounds => arguments (primary depth) (rounds + 1) :=
  fun ls _ hbound => arguments_alike (primary_sound depth) (alike_self depth ls.length) _ _
    (Nat.le_refl _) (by omega) (by omega)

theorem chain_unbounded : Unbounded (chain (primary depth)) :=
  fun ls _ hbound => chain_alike (primary_sound depth) (alike_self depth ls.length) _ _
    (Nat.le_refl _) hbound (Nat.le_refl _)

theorem logicalTail_unbounded (lhs : Expr) :
    Unbounded fun rounds => logicalTail (primary depth) rounds lhs :=
  fun ls _ hbound => logicalTail_alike (primary_sound depth) (alike_self depth ls.length) _ _
    lhs (Nat.le_refl _) hbound (Nat.le_refl _)

theorem steps_unbounded : Unbounded (steps (primary depth)) :=
  fun ls _ hbound => steps_alike (primary_sound depth) (alike_self depth ls.length) _ _
    (Nat.le_refl _) hbound (Nat.le_refl _)

end Unbounded

end Parser

end Liquid
