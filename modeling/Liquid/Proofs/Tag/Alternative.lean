import Liquid.Proofs.Expr.Parse
import Liquid.Proofs.Tag.Header

/-!
# Values of a Choice

The values that a part of a choice lists stand between separators, each of them
a comma or the word `or`. Any value with its filters can be one of them.

A comma also stands between the arguments of a filter, and there it is taken
first. So behind a value whose last filter has arguments a comma separates
nothing: what follows it is another argument. Only the word ends such a value.
With this condition on the commas, the lists of values are exactly what is read.

## Main definitions

* `Grammar.takesComma`: A value that a comma goes on with.
* `Grammar.Alternatives`: Values between separators.

## Theorems

* `Grammar.filtered_complete_comma`: A value is read also in front of a comma.
* `Grammar.comma_of_filtered`: A comma goes on with the arguments of a filter.
* `Tag.values_eq_ok_iff`: What a part of a choice lists.
-/

namespace Liquid

namespace Grammar

/-- Whether a filter call has arguments or options. -/
def hasArguments : FilterCall → Bool
  | .call _ args options => !args.isEmpty || !options.isEmpty

/-- Whether a comma behind the value goes on with the arguments of its last filter. -/
def takesComma : Expr → Bool
  | .filtered _ calls => calls.getLast?.any hasArguments
  | _ => false

/-- Whether the lexeme behind the value is a separator: the word, or a comma that the value does
not take. -/
def Separates (value : Expr) (l : Lexeme) : Prop :=
  l.IsWord "or" ∨ (l.IsSymbol "," ∧ takesComma value = false)

/-- Values between separators. -/
inductive Alternatives : List Lexeme → List Expr → Prop
  | one {used : List Lexeme} {value : Expr} : Filtered used value → Alternatives used [value]
  | more {separator : Lexeme} {used rest : List Lexeme} {value : Expr} {values : List Expr} :
      Filtered used value → Separates value separator → Alternatives rest values →
      Alternatives (used ++ separator :: rest) (value :: values)

theorem alternatives_ne_nil {ls : List Lexeme} {values : List Expr} (h : Alternatives ls values) :
    ls ≠ [] := by
  cases h with
  | one hvalue => exact filtered_ne_nil hvalue
  | more hvalue => exact List.append_ne_nil_of_left_ne_nil (filtered_ne_nil hvalue) _

section Comma

variable {primary : Parser Expr} {ls used rest : List Lexeme}

/-- No argument is lost when they are parted. -/
theorem hasArguments_of_parted (name : String) {arguments : List (Option String × Expr)}
    {args : List Expr} {options : List (String × Expr)} (h : Parted arguments args options)
    (hne : arguments ≠ []) : hasArguments (.call name args options) = true := by
  cases h with
  | nil => exact absurd rfl hne
  | plain => rfl
  | named => exact Bool.or_true _

/-- A value without filters leaves a comma behind it alone. -/
theorem takesComma_primary {base : Expr} (h : Primary used base) : takesComma base = false := by
  cases h with
  | literal => rfl
  | path => rfl
  | range _ _ _ _ _ hspan => cases hspan <;> rfl

/-- Whether a comma is taken is told by the last filter. -/
theorem takesComma_withCalls {base : Expr} (hbase : takesComma base = false)
    (calls : List FilterCall) :
    takesComma (withCalls base calls) = calls.getLast?.any hasArguments := by
  unfold withCalls
  cases calls with
  | nil => exact hbase
  | cons call calls => rfl

/-- What stands behind a part that may take a comma. -/
theorem free_comma {symbols : List String} (hrest : Free symbols rest) (hcomma : Free [","] rest) :
    Free ("," :: symbols) rest :=
  List.forall_mem_cons.mpr ⟨hcomma "," List.mem_cons_self, hrest⟩

/-- A filter without arguments can be followed by a comma. -/
theorem call_complete_comma {call : FilterCall} (h : Call used call) {depth : Nat}
    (hdepth : used.length ≤ depth) (hrest : Free [".", "[", ":"] rest)
    (hcomma : hasArguments call = true → Free [","] rest) :
    Parser.filterCall (Parser.primary depth) (used ++ rest) = .ok (call, rest) := by
  cases h with
  | bare hname => exact call_bare hname (hrest ":" (by decide))
  | applied hname hcolon harguments hparted =>
      have hfree := hcomma (hasArguments_of_parted _ hparted (arguments_ne_nil harguments))
      exact call_complete (.applied hname hcolon harguments hparted) hdepth
        ((free_comma hrest hfree).mono (by decide))

/-- Filters can be followed by a comma if the last one has no arguments. -/
theorem chain_complete_comma {used : List Lexeme} {calls : List FilterCall} (h : Chain used calls)
    {depth rounds : Nat} (hdepth : used.length ≤ depth) (hrounds : used.length ≤ rounds)
    (hrest : Free [".", "[", ":", "|"] rest)
    (hcomma : calls.getLast?.any hasArguments = true → Free [","] rest) :
    Parser.chain (Parser.primary depth) rounds (used ++ rest) = .ok (calls, rest) := by
  induction rounds generalizing used calls with
  | zero =>
      cases h with
      | nil => rfl
      | cons => cases hrounds
  | succ rounds ih =>
      cases h with
      | nil => rw [List.nil_append, Parser.chain, hrest "|" (by decide)]
      | @cons bar first others call calls hbar hcall hcalls =>
          simp only [List.length_cons, List.length_append] at hdepth hrounds
          rw [List.cons_append, List.append_assoc]
          -- Only behind the last call may there be a comma, for a bar follows the others.
          have hread : Parser.filterCall (Parser.primary depth) (first ++ (others ++ rest)) =
              .ok (call, others ++ rest) := by
            cases hcalls with
            | nil => exact call_complete_comma hcall (by omega) (hrest.mono (by decide)) hcomma
            | cons hnext =>
                exact call_complete hcall (by omega) (free_of_isSymbol hnext (by decide))
          refine chain_of_call hbar hread (ih hcalls (by omega) (by omega) fun hlast => hcomma ?_)
          cases calls with
          | nil => cases hlast
          | cons next calls => rwa [List.getLast?_cons_cons]

/-- A value is read in front of whatever it cannot go on with. -/
theorem filtered_complete_comma {value : Expr} (h : Filtered used value) {depth : Nat}
    (hdepth : used.length ≤ depth) (hrest : Free [".", "[", ":", "|"] rest)
    (hcomma : takesComma value = true → Free [","] rest) :
    Parser.filtered (Parser.primary depth) (used ++ rest) = .ok (value, rest) := by
  cases h with
  | @mk first others base calls hbase hcalls =>
      rw [takesComma_withCalls (takesComma_primary hbase)] at hcomma
      simp only [List.length_append] at hdepth
      rw [List.append_assoc]
      -- Behind the value stands a bar or what comes after the filters, and neither goes on with a
      -- path.
      have hfree : Free [".", "["] (others ++ rest) := by
        cases hcalls with
        | nil => exact hrest.mono (by decide)
        | cons hbar => exact free_of_isSymbol hbar (by decide)
      exact filtered_of_chain (primary_complete hbase (by omega) hfree)
        (chain_complete_comma hcalls (by omega) (by simp) hrest hcomma)

/-- Arguments are read as long as commas follow, so none is left behind them. -/
theorem comma_of_arguments {rounds : Nat} {arguments : List (Option String × Expr)}
    (h : Parser.arguments primary rounds ls = .ok (arguments, rest)) :
    Parser.symbol? "," rest = none := by
  -- On the rounds: the last argument is the one that no comma follows.
  induction rounds generalizing ls arguments with
  | zero => cases h
  | succ rounds ih =>
      rw [Parser.arguments] at h
      rcases bind_eq_ok_iff.mp h with ⟨⟨first, behind⟩, _, hnext⟩
      dsimp only at hnext
      cases hcomma : Parser.symbol? "," behind with
      | none =>
          rw [hcomma] at hnext
          cases hnext
          exact hcomma
      | some others =>
          rw [hcomma] at hnext
          rcases bind_eq_ok_iff.mp hnext with ⟨⟨arguments, last⟩, harguments, hlast⟩
          cases hlast
          exact ih harguments

/-- Behind a filter with arguments there is no comma. -/
theorem comma_of_call {call : FilterCall}
    (h : Parser.filterCall primary ls = .ok (call, rest)) (hcall : hasArguments call = true) :
    Parser.symbol? "," rest = none := by
  rcases bind_eq_ok_iff.mp h with ⟨⟨name, behind⟩, _, hnext⟩
  dsimp only at hnext
  cases hcolon : Parser.symbol? ":" behind with
  | none =>
      rw [hcolon] at hnext
      cases hnext
      cases hcall
  | some others =>
      rw [hcolon] at hnext
      rcases bind_eq_ok_iff.mp hnext with ⟨⟨arguments, last⟩, harguments, hlast⟩
      cases hlast
      exact comma_of_arguments harguments

/-- No filter means that nothing was read. -/
theorem chain_eq_nil {rounds : Nat} (h : Parser.chain primary rounds ls = .ok ([], rest)) :
    rest = ls := by
  cases rounds with
  | zero =>
      cases h
      rfl
  | succ rounds =>
      rw [Parser.chain] at h
      -- Behind a bar there is a call, or the chain is refused.
      cases hbar : Parser.symbol? "|" ls with
      | none =>
          rw [hbar] at h
          cases h
          rfl
      | some behind =>
          rw [hbar] at h
          rcases bind_eq_ok_iff.mp h with ⟨_, _, hnext⟩
          rcases bind_eq_ok_iff.mp hnext with ⟨_, _, hlast⟩
          cases hlast

/-- Behind filters of which the last one has arguments there is no comma. -/
theorem comma_of_chain {rounds : Nat} {calls : List FilterCall}
    (h : Parser.chain primary rounds ls = .ok (calls, rest))
    (hcalls : calls.getLast?.any hasArguments = true) : Parser.symbol? "," rest = none := by
  induction rounds generalizing ls calls with
  | zero =>
      cases h
      cases hcalls
  | succ rounds ih =>
      rw [Parser.chain] at h
      cases hbar : Parser.symbol? "|" ls with
      | none =>
          rw [hbar] at h
          cases h
          cases hcalls
      | some behind =>
          rw [hbar] at h
          rcases bind_eq_ok_iff.mp h with ⟨⟨call, between⟩, hcall, hnext⟩
          rcases bind_eq_ok_iff.mp hnext with ⟨⟨others, last⟩, hothers, hlast⟩
          cases hlast
          cases others with
          | nil =>
              -- Behind the last call nothing has been read.
              rcases chain_eq_nil hothers with rfl
              exact comma_of_call hcall hcalls
          | cons next others => exact ih hothers (by rwa [List.getLast?_cons_cons] at hcalls)

/-- Behind a value that takes a comma there is none. -/
theorem comma_of_filtered (hprimary : Sound Primary primary) {value : Expr}
    (h : Parser.filtered primary ls = .ok (value, rest)) (hvalue : takesComma value = true) :
    Parser.symbol? "," rest = none := by
  rcases bind_eq_ok_iff.mp h with ⟨⟨base, behind⟩, hbase, hnext⟩
  rcases bind_eq_ok_iff.mp hnext with ⟨⟨calls, last⟩, hcalls, hlast⟩
  cases hlast
  rcases hprimary hbase with ⟨used, _, hused⟩
  change takesComma (withCalls base calls) = true at hvalue
  rw [takesComma_withCalls (takesComma_primary hused)] at hvalue
  exact comma_of_chain hcalls hvalue

end Comma

end Grammar

namespace Tag

open Grammar (Alternatives Filtered Separates takesComma)

/-- Values are separated by a comma or by the word for it. -/
theorem alternative?_eq_some_iff {ls rest : List Lexeme} :
    alternative? ls = some rest ↔ ∃ l, (l.IsSymbol "," ∨ l.IsWord "or") ∧ ls = l :: rest := by
  unfold alternative?
  constructor
  · intro h
    -- A comma is tried before the word.
    rcases Option.or_eq_some_iff.mp h with hcomma | ⟨_, hword⟩
    · rcases Parser.symbol?_eq_some_iff.mp hcomma with ⟨l, hl, rfl⟩
      exact ⟨l, .inl hl, rfl⟩
    · rcases Parser.word?_eq_some_iff.mp hword with ⟨l, hl, rfl⟩
      exact ⟨l, .inr hl, rfl⟩
  · rintro ⟨l, hcomma | hword, rfl⟩
    · rw [Parser.symbol?_eq_some_iff.mpr ⟨l, hcomma, rfl⟩, Option.some_or]
    · rw [symbol?_of_isWord hword, Option.none_or]
      exact Parser.word?_eq_some_iff.mpr ⟨l, hword, rfl⟩

/-- Values that are written in this way are read up to the end. -/
theorem separated_complete {ls : List Lexeme} {values : List Expr} (h : Alternatives ls values)
    {rounds : Nat} (hrounds : ls.length < rounds) :
    Parser.separated alternative? Parser.filteredValue rounds ls = .ok (values, []) := by
  induction h generalizing rounds with
  | @one used value hvalue =>
      cases rounds with
      | zero => cases hrounds
      | succ rounds =>
          have hread := Grammar.filtered_complete hvalue (Nat.le_refl _) Grammar.free_nil
          rw [List.append_nil] at hread
          exact bind_eq_ok_iff.mpr ⟨_, hread, rfl⟩
  | @more separator used rest value values hvalue hseparates _ ih =>
      cases rounds with
      | zero => cases hrounds
      | succ rounds =>
          simp only [List.length_append, List.length_cons] at hrounds
          -- The value ends at its separator: a comma would only be taken by a filter with
          -- arguments.
          have hread : Parser.filteredValue (used ++ separator :: rest) =
              .ok (value, separator :: rest) := by
            refine Grammar.filtered_complete_comma hvalue (by simp) ?_ ?_
            · rcases hseparates with hword | ⟨hcomma, _⟩
              · exact Parser.free_of_isWord hword
              · exact Grammar.free_of_isSymbol hcomma (by decide)
            · intro htakes
              rcases hseparates with hword | ⟨_, hfree⟩
              · exact Parser.free_of_isWord hword
              · rw [hfree] at htakes
                cases htakes
          have hseparator : alternative? (separator :: rest) = some rest :=
            alternative?_eq_some_iff.mpr ⟨separator, hseparates.symm.imp_left And.left, rfl⟩
          refine bind_eq_ok_iff.mpr ⟨_, hread, ?_⟩
          dsimp only
          rw [hseparator]
          exact bind_eq_ok_iff.mpr ⟨_, ih (by omega), rfl⟩

/-- What is read up to the end are values that are written in this way. -/
theorem separated_sound {rounds : Nat} {ls : List Lexeme} {values : List Expr}
    (h : Parser.separated alternative? Parser.filteredValue rounds ls = .ok (values, [])) :
    Alternatives ls values := by
  induction rounds generalizing ls values with
  | zero => cases h
  | succ rounds ih =>
      rcases bind_eq_ok_iff.mp h with ⟨⟨first, behind⟩, hfirst, hnext⟩
      dsimp only at hnext
      rcases Grammar.filtered_sound (Grammar.primary_sound _) hfirst with ⟨used, rfl, hused⟩
      cases hseparator : alternative? behind with
      | none =>
          rw [hseparator] at hnext
          cases hnext
          rw [List.append_nil]
          exact .one hused
      | some rest =>
          rw [hseparator] at hnext
          rcases bind_eq_ok_iff.mp hnext with ⟨⟨others, last⟩, hothers, hlast⟩
          cases hlast
          rcases alternative?_eq_some_iff.mp hseparator with ⟨l, hl, rfl⟩
          refine .more hused ?_ (ih hothers)
          -- If the value took commas, there would be none left for a separator.
          rcases hl with hcomma | hword
          · refine .inr ⟨hcomma, Bool.eq_false_iff.mpr fun htakes => ?_⟩
            have hnone := Grammar.comma_of_filtered (Grammar.primary_sound _) hfirst htakes
            rw [Parser.symbol?_cons, if_pos hcomma] at hnone
            cases hnone
          · exact .inl hword

/-- What a part of a choice lists is what is between its separators. -/
theorem values_eq_ok_iff {args : String} {values : List Expr} :
    (Block.readAll args fun ls =>
      Parser.separated alternative? Parser.filteredValue (ls.length + 1) ls) = .ok values ↔
      ∃ ls, Lexeme.body args = .ok ls ∧ Alternatives ls values := by
  -- There is a round for each lexeme, so the bound on the rounds is never met.
  refine mapError_eq_ok_iff.trans ?_
  constructor
  · intro h
    rcases bind_eq_ok_iff.mp h with ⟨ls, hls, hread⟩
    rcases bind_eq_ok_iff.mp hread with ⟨⟨result, rest⟩, hvalues, hfinish⟩
    rcases Grammar.finish_eq_ok_iff.mp hfinish with ⟨rfl, rfl⟩
    exact ⟨ls, hls, separated_sound hvalues⟩
  · rintro ⟨ls, hls, hvalues⟩
    refine bind_eq_ok_iff.mpr ⟨ls, hls, ?_⟩
    exact bind_eq_ok_iff.mpr ⟨_, separated_complete hvalues (Nat.lt_succ_self _), rfl⟩

end Tag

end Liquid
