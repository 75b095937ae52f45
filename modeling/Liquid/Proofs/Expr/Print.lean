import Liquid.Expr.Print
import Liquid.Proofs.Expr.Plain

/-!
# Reading What is Printed

The text of an expression that was read is read as an expression equal to it.
It need not be the source. A key between brackets may come to stand behind a
point, options move behind the positional arguments, quotes may change, and a
decimal loses the zeros at its end. So the texts differ, and so may the lexemes,
but not what they are derived as.

Printing puts no blanks around most of what it writes. Whether its words are
found again depends on what is next to them, and what can be next to a word is
one of a few marks. These end every word, with one exception: behind the digits
of a number a point with a digit would go on with it. No digit ever stands
behind a printed point, since the key there is a name and a range has two
points. This is what each part of a text needs of what is behind it, and it
gives the same to the part in front.

## Main definitions

* `Grammar.Gives`: Lexemes that a rule derives as something equal.
* `Grammar.GivesStep`: Lexemes that are a step equal to the given one.

## Theorems

* `Text.quotedChars_eq_of_notMem`: A text without an escape stands between its quotes as it is.
* `Grammar.spells_literal`: The text of a literal is the literal.
* `Grammar.spells_primary`, `Grammar.spells_logical`: The text of what was derived is derived.
* `Expr.parse_text`: The text of an expression is read as the expression.
-/

namespace Liquid

namespace Text

/-- Without a backslash there is no escape, so the text stands between quotes that it does not
have. -/
theorem quotedChars_eq_of_notMem {cs : List Char} (h : '\\' ∉ quotedChars cs) :
    quotedChars cs = quoteFor cs :: (cs ++ [quoteFor cs]) ∧ quoteFor cs ∉ cs := by
  have hcharacter : ∀ c ∈ cs, escaped (quoteFor cs) c = [c] ∧ c ≠ quoteFor cs := by
    intro c hc
    have hescaped : '\\' ∉ escaped (quoteFor cs) c := by
      intro hmem
      refine h (List.mem_append_left _ (List.mem_cons_of_mem _ ?_))
      exact List.mem_flatMap.mpr ⟨c, hc, hmem⟩
    -- All that is not written as it is starts with a backslash.
    unfold escaped at hescaped ⊢
    repeat' split at hescaped
    all_goals simp_all
  have hsame : cs.flatMap (escaped (quoteFor cs)) = cs := by
    rw [List.flatMap_congr fun c hc => (hcharacter c hc).1, List.flatMap_singleton']
  refine ⟨?_, fun hmem => (hcharacter _ hmem).2 rfl⟩
  rw [quotedChars, hsame, List.cons_append]

theorem quoteFor_cases (cs : List Char) : quoteFor cs = '"' ∨ quoteFor cs = '\'' := by
  unfold quoteFor
  split
  · exact .inl rfl
  · exact .inr rfl

end Text

namespace Grammar

open Lexeme (Closes Spells closes_cons closes_point closes_point_name spells_nil spells_word
  spells_symbol spells_name spells_lone_symbol spells_lone_name)

/-- Whether the rule derives from the lexemes something equal to what is given. -/
def Gives {α : Type} (rule : List Lexeme → α → Prop) (equal : α → α → Prop) (a : α)
    (ls : List Lexeme) : Prop :=
  ∃ b, rule ls b ∧ equal a b

section Literals

variable {l : Lexeme} {value : Value}

/-- An integer is spelled by its digits. -/
theorem spells_integer {text : String} {n : Int} (hn : Whole text n) {holds : List Lexeme → Prop}
    (h : ∀ l : Lexeme, l.kind = .integer → Whole l.text n → holds [l]) :
    Spells holds (toString n).toList := by
  have hstarts (rest : List Char) (hrest : Closes rest) :=
    Lexeme.starts_number (Value.shown_integer n).number (hrest.stops _)
  refine spells_word hstarts fun l hkind hl => h l hkind ?_
  rw [hl, String.ofList_toList]
  exact Value.whole_toString_of_whole hn

/-- A decimal that is read is a finite one in bounds. -/
theorem finite_of_read? {cs : List Char} (h : Lexeme.Number .decimal cs) {d : Decimal}
    (hd : Decimal.read? cs = some d) :
    ∃ negative c e, d = .finite negative c e ∧ (Decimal.finite negative c e).InBounds := by
  cases h with
  | decimal hsign hwhole hplaces =>
      rcases exists_sign hsign with ⟨negative, rfl⟩
      rw [Decimal.read?_point negative hwhole.ne_nil hwhole.digit hplaces.digit] at hd
      rcases Option.bind_eq_some_iff.mp hd with ⟨n, _, hbounded⟩
      exact ⟨negative, n, _, Decimal.inBounds_of_bounded? hbounded⟩

/-- A decimal is spelled by a text of the same value. -/
theorem spells_decimal {negative : Bool} {c : Nat} {e : Int}
    (h : (Decimal.finite negative c e).InBounds) :
    Spells (Gives Primary Expr.Equals (.literal (.decimal (.finite negative c e))))
      (Decimal.fixed negative c e) := by
  rcases Decimal.read?_fixed h with ⟨d, f, hread, hsame⟩
  have hstarts (rest : List Char) (hrest : Closes rest) :=
    Lexeme.starts_number (Value.shown_decimal negative c e).number (hrest.stops _)
  refine spells_word hstarts fun l hkind hl => ?_
  refine ⟨_, .literal (.decimal hkind ?_), .literal (.decimal ⟨hsame.1.symm, hsame.2.symm⟩)⟩
  rw [hl, String.toList_ofList, hread]

/-- A value that has a word is spelled by that word. -/
theorem spells_keyword {word : String} (hword : word ∈ Lexeme.keywords) {value : Value}
    (hvalue : Word word value) :
    Spells (Gives Primary Expr.Equals (.literal value)) word.toList := by
  have hkind : Lexeme.nameKind word = .keyword := if_pos hword
  refine spells_lone_name (Lexeme.isName_of_mem_keywords hword) hkind fun l hl htext => ?_
  exact ⟨_, .literal (.keyword hl (htext ▸ hvalue)), .literal (.same value)⟩

/-- The text of a literal that is no range is the literal. -/
theorem spells_literal (h : Literal l value) (hspelled : l.Spelled) (hplain : value.Plain) :
    Spells (Gives Primary Expr.Equals (.literal value)) value.literalText.toList := by
  -- By the kind of the lexeme, which is the one that is printed.
  cases h with
  | string hkind =>
      rcases Text.quotedChars_eq_of_notMem hplain with ⟨htext, hquote⟩
      rw [Value.literalText, Text.quoted, String.toList_ofList, htext]
      have hstarts (rest : List Char) (_ : Closes rest) :=
        Lexeme.starts_quoted (Text.quoteFor_cases _) hquote rest
      refine spells_word hstarts fun l' hl' htext' => ?_
      rw [String.ofList_toList] at htext'
      exact ⟨_, .literal (.string hl'), .literal (htext' ▸ .same _)⟩
  | integer hkind hn =>
      exact spells_integer hn fun _ hl' hn' =>
        ⟨_, .literal (.integer hl' hn'), .literal (.same _)⟩
  | decimal hkind hd =>
      rcases finite_of_read? (hkind ▸ hspelled.number (.inr hkind)) hd with
        ⟨negative, c, e, rfl, hbounds⟩
      change Spells _ (String.ofList (Decimal.fixed negative c e)).toList
      rw [String.toList_ofList]
      exact spells_decimal hbounds
  | keyword hkind hvalue =>
      rcases Parser.nil_or_bool_of_word hvalue with rfl | ⟨_ | _, rfl⟩
      · exact @spells_keyword "nil" (by decide) _ .nil
      · exact @spells_keyword "false" (by decide) _ .false
      · exact @spells_keyword "true" (by decide) _ .true

end Literals

section Steps

/-- Whether the lexemes are a step that is equal to the given one, whatever steps are behind it. -/
def GivesStep (step : Accessor) (ls : List Lexeme) : Prop :=
  ∃ step', step.Equals step' ∧
    ∀ {rest : List Lexeme} {steps : List Accessor}, Steps rest steps →
      Steps (ls ++ rest) (step' :: steps)

variable {step : Accessor} {steps : List Accessor}

/-- A name stands behind a point, whether it was written there or between brackets. -/
theorem spells_field {name : String} (hname : Lexeme.IsName name.toList) :
    Spells (GivesStep (.field name)) (Accessor.field name).text.toList := by
  simp only [Accessor.text, String.toList_append, String.reduceToList]
  have hpoint (rest : List Char) (_ : Closes rest) := Lexeme.starts_point_name hname rest
  refine Spells.cons hpoint (spells_lone_name hname rfl ?_)
  intro key hkey hname' point hkind htext
  have hproperty : Property key (.field name) := by
    rw [← hname']
    exact .name (hkey ▸ Lexeme.nameKind_cases name)
  exact ⟨_, .field, fun hrest => .point ⟨hkind, htext⟩ hproperty hrest⟩

/-- What stands between brackets is a step with any steps behind it. -/
theorem spells_brackets {inside : List Lexeme → Prop} {cs : List Char} (hinside : Spells inside cs)
    (h : ∀ ls, inside ls → ∃ step', step.Equals step' ∧ Bracket ls step') :
    Spells (GivesStep step) (['['] ++ (cs ++ [']'])) := by
  refine spells_symbol ['['] (by decide) (by decide) ?_
  refine hinside.append (fun rest _ => closes_cons (by decide) (by decide) rest) fun ls hls => ?_
  refine spells_lone_symbol [']'] (by decide) (by decide) ?_
  intro closing hclosing opening hopening
  rcases h ls hls with ⟨step', hequals, hbracket⟩
  refine ⟨step', hequals, fun {rest steps} hrest => ?_⟩
  have hsteps := Steps.bracket hopening hbracket hclosing hrest
  simpa using hsteps

/-- An index is spelled like an integer. -/
theorem spells_index {text : String} {n : Int} (hn : Whole text n) :
    Spells (GivesStep (.index n)) (Accessor.index n).text.toList := by
  simp only [Accessor.text, String.toList_append, String.reduceToList, List.append_assoc]
  have hindex : Spells (Written · (.index n)) (toString n).toList :=
    spells_integer hn fun _ hkind hn => .index hkind hn
  exact spells_brackets hindex fun ls hls => ⟨_, .index, .written hls⟩

/-- A key that is computed is so also where it is printed, since no other is equal to it. -/
theorem spells_key {inside : List Lexeme} {key : Expr} (hnot : ∀ step, ¬Written inside step)
    (hkey : Logical inside key) (hspells : Spells (Gives Logical Expr.Equals key) key.text.toList) :
    Spells (GivesStep (.key key)) (Accessor.key key).text.toList := by
  simp only [Accessor.text, String.toList_append, String.reduceToList, List.append_assoc]
  refine spells_brackets hspells ?_
  rintro ls ⟨key', hkey', hequals⟩
  refine ⟨.key key', .key hequals, .computed (fun step hstep => ?_) hkey'⟩
  have hwritten := isWritten_of_equals hequals ((written_iff_of_logical hkey').mp ⟨step, hstep⟩)
  rcases (written_iff_of_logical hkey).mpr hwritten with ⟨step', hstep'⟩
  exact hnot step' hstep'

/-- No point of a path has a digit behind it. -/
theorem closes_steps (h : ∀ step ∈ steps, step.Plain) (rest : List Char) (hrest : Closes rest) :
    Closes ((stepsText steps).toList ++ rest) := by
  cases steps with
  | nil => exact hrest
  | cons step steps =>
      simp only [stepsText, String.toList_append]
      cases h step List.mem_cons_self with
      | field hname =>
          simp only [Accessor.text, String.toList_append, String.reduceToList, List.append_assoc]
          exact closes_point_name hname _
      | _ =>
          simp only [Accessor.text, String.toList_append, String.reduceToList, List.append_assoc]
          exact closes_cons (by decide) (by decide) _

/-- A printed step can stand in front of others, since each starts with a point or a bracket. -/
theorem spells_steps_cons (hstep : Spells (GivesStep step) step.text.toList)
    (hplain : ∀ step ∈ steps, step.Plain)
    (hsteps : Spells (Gives Steps (List.Forall₂ Accessor.Equals) steps) (stepsText steps).toList) :
    Spells (Gives Steps (List.Forall₂ Accessor.Equals) (step :: steps))
      (stepsText (step :: steps)).toList := by
  simp only [stepsText, String.toList_append]
  refine hstep.append (closes_steps hplain) ?_
  rintro ls ⟨step', hequals, hgives⟩
  refine hsteps.mono ?_
  rintro ms ⟨steps', hderived, hsteps'⟩
  exact ⟨step' :: steps', hgives hderived, .cons hequals hsteps'⟩

end Steps

section Primary

variable {root : Lexeme} {steps : List Accessor} {start stop : Expr}

/-- A root and its steps, by their own spellings. -/
theorem spells_path (hroot : root.kind = .identifier) (hspelled : root.Spelled)
    (hplain : ∀ step ∈ steps, step.Plain)
    (hsteps : Spells (Gives Steps (List.Forall₂ Accessor.Equals) steps) (stepsText steps).toList) :
    Spells (Gives Primary Expr.Equals (.path root.text steps))
      (Expr.path root.text steps).text.toList := by
  rcases hspelled.isName hroot with ⟨hname, hidentifier⟩
  simp only [Expr.text, String.toList_append]
  refine spells_name hname hidentifier (closes_steps hplain) ?_
  refine hsteps.mono ?_
  rintro ls ⟨steps', hderived, hequals⟩ root' hroot' htext
  exact ⟨_, .path hroot' hderived, htext ▸ .path hequals⟩

/-- Neither end runs into the two points, whatever its last word is. -/
theorem spells_range (hspan : ¬IsSpan start stop)
    (hstart : Spells (Gives Primary Expr.Equals start) start.text.toList)
    (hstop : Spells (Gives Primary Expr.Equals stop) stop.text.toList) :
    Spells (Gives Primary Expr.Equals (.range start stop))
      (Expr.range start stop).text.toList := by
  -- Between the ends, the first point is followed by another and not by a digit.
  have hdots (rest : List Char) : Closes ('.' :: '.' :: rest) := by
    refine closes_point fun c hc => ?_
    cases hc
    decide
  simp only [Expr.text, String.toList_append, String.reduceToList, List.append_assoc]
  refine spells_symbol ['('] (by decide) (by decide) ?_
  refine hstart.append (fun rest _ => hdots _) ?_
  rintro first ⟨start', hfirst, hstart'⟩
  refine spells_symbol ['.', '.'] (by decide) (by decide) ?_
  refine hstop.append (fun rest _ => closes_cons (by decide) (by decide) rest) ?_
  rintro last ⟨stop', hlast, hstop'⟩
  refine spells_lone_symbol [')'] (by decide) (by decide) ?_
  intro closing hclosing dots hdots opening hopening
  -- A range between integers is a literal, and is printed as one.
  have hcomputed : Span start' stop' (.range start' stop') :=
    .computed fun h => hspan (isSpan_of_equals hstart' hstop' h)
  exact ⟨_, .range hopening hfirst hdots hlast hclosing hcomputed, .range hstart' hstop'⟩

end Primary

section Arguments

/-- The text of an argument. -/
def argumentText : Option String × Expr → String
  | (none, value) => value.text
  | (some name, value) => name ++ ": " ++ value.text

variable {args : List Expr} {options : List (String × Expr)}
  {arguments arguments' : List (Option String × Expr)}

theorem argsText_append_optionsText (args : List Expr) (options : List (String × Expr)) :
    argsText args ++ optionsText options = (inOrder args options).map argumentText := by
  have hargs : argsText args = args.map Expr.text := by
    induction args with
    | nil => rfl
    | cons arg args ih => rw [argsText, ih, List.map_cons]
  have hoptions : optionsText options =
      options.map fun option => option.1 ++ ": " ++ option.2.text := by
    induction options with
    | nil => rfl
    | cons option options ih => rw [optionsText, ih, List.map_cons]
  rw [hargs, hoptions, inOrder, List.map_append, List.map_map, List.map_map]
  rfl

/-- A named argument, by the spelling of its value. -/
theorem spells_named {name : String} {value : Expr} (hname : Lexeme.IsName name.toList)
    (hidentifier : Lexeme.nameKind name = .identifier)
    (hvalue : Spells (Gives Primary Expr.Equals value) value.text.toList) :
    Spells (Gives Argument ArgumentEquals (some name, value))
      (argumentText (some name, value)).toList := by
  simp only [argumentText, String.toList_append, String.reduceToList, List.append_assoc]
  refine spells_name hname hidentifier (fun rest _ => closes_cons (by decide) (by decide) _) ?_
  refine spells_symbol [':'] (by decide) (by decide) (Spells.blank (hvalue.mono ?_))
  rintro ls ⟨value', hderived, hequals⟩ colon hcolon l hl rfl
  exact ⟨_, .named hl hcolon hderived, rfl, hequals⟩

/-- An argument without a name is spelled like its value. -/
theorem spells_unnamed {value : Expr}
    (hvalue : Spells (Gives Primary Expr.Equals value) value.text.toList) :
    Spells (Gives Argument ArgumentEquals (none, value)) (argumentText (none, value)).toList := by
  refine hvalue.mono ?_
  rintro ls ⟨value', hderived, hequals⟩
  exact ⟨_, .plain hderived, rfl, hequals⟩

/-- Arguments with commas between them, by their own spellings. -/
theorem spells_arguments (hne : arguments ≠ [])
    (h : ∀ argument ∈ arguments,
      Spells (Gives Argument ArgumentEquals argument) (argumentText argument).toList) :
    Spells (Gives Arguments (List.Forall₂ ArgumentEquals) arguments)
      (", ".intercalate (arguments.map argumentText)).toList := by
  induction arguments with
  | nil => exact absurd rfl hne
  | cons argument arguments ih =>
      have hargument := h argument List.mem_cons_self
      -- A comma is only printed between two.
      cases arguments with
      | nil =>
          rw [List.map_singleton, String.intercalate_singleton]
          refine hargument.mono ?_
          rintro ls ⟨argument', hderived, hequals⟩
          exact ⟨_, .one hderived, .cons hequals .nil⟩
      | cons next arguments =>
          have hothers := ih (List.cons_ne_nil _ _) fun other hother =>
            h other (List.mem_cons_of_mem _ hother)
          rw [List.map_cons, List.map_cons, String.intercalate_cons_cons, ← List.map_cons]
          simp only [String.toList_append, String.reduceToList, List.append_assoc]
          refine hargument.append (fun rest _ => closes_cons (by decide) (by decide) _) ?_
          rintro ls ⟨argument', hderived, hequals⟩
          refine spells_symbol [','] (by decide) (by decide) (Spells.blank (hothers.mono ?_))
          rintro ms ⟨arguments', hderived', hequals'⟩ comma hcomma
          exact ⟨_, .more hderived hcomma hderived', .cons hequals hequals'⟩

/-- A colon is only printed if there are arguments. -/
theorem text_call {name : String} (h : inOrder args options ≠ []) :
    (FilterCall.call name args options).text =
      name ++ ": " ++ ", ".intercalate ((inOrder args options).map argumentText) := by
  rw [FilterCall.text, argsText_append_optionsText]
  split
  · exact absurd (List.map_eq_nil_iff.mp ‹_›) h
  · rfl

variable {name : Lexeme}

/-- A filter without arguments is spelled by its name. -/
theorem spells_bare (hkind : name.kind = .identifier) (hspelled : name.Spelled) :
    Spells (Gives Call FilterCall.Equals (.call name.text [] []))
      (FilterCall.call name.text [] []).text.toList := by
  rcases hspelled.isName hkind with ⟨hname, hidentifier⟩
  change Spells _ name.text.toList
  refine spells_lone_name hname hidentifier fun name' hkind' htext => ?_
  exact ⟨_, .bare hkind', htext ▸ .call .nil rfl .nil⟩

/-- A call is printed with its arguments in another order, and read as the same call. -/
theorem spells_applied (hkind : name.kind = .identifier) (hspelled : name.Spelled)
    (hparted : Parted arguments args options) (hne : arguments ≠ [])
    (h : ∀ argument ∈ arguments,
      Spells (Gives Argument ArgumentEquals argument) (argumentText argument).toList) :
    Spells (Gives Call FilterCall.Equals (.call name.text args options))
      (FilterCall.call name.text args options).text.toList := by
  rcases hspelled.isName hkind with ⟨hname, hidentifier⟩
  -- Printing puts the named arguments last, but loses none.
  have hordered : inOrder args options ≠ [] := by
    rcases List.exists_mem_of_ne_nil _ hne with ⟨argument, hargument⟩
    exact List.ne_nil_of_mem (hparted.perm.mem_iff.mpr hargument)
  have harguments := spells_arguments hordered fun argument hargument =>
    h argument (hparted.perm.mem_iff.mp hargument)
  rw [text_call hordered]
  simp only [String.toList_append, String.reduceToList, List.append_assoc]
  refine spells_name hname hidentifier (fun rest _ => closes_cons (by decide) (by decide) _) ?_
  refine spells_symbol [':'] (by decide) (by decide) (Spells.blank (harguments.mono ?_))
  rintro ls ⟨arguments', hderived, hequals⟩ colon hcolon name' hkind' htext
  -- Parted again, they are the same arguments.
  rcases equals_parted (parted_inOrder args options) name.text hequals with
    ⟨args', options', hparted', hcall⟩
  exact ⟨_, .applied hkind' hcolon hderived hparted', htext ▸ hcall⟩

end Arguments

section Filters

variable {base : Expr} {call : FilterCall} {calls : List FilterCall}

/-- Filters start with a blank, or there are none. -/
theorem closes_chain (calls : List FilterCall) (rest : List Char) (hrest : Closes rest) :
    Closes ((chainText calls).toList ++ rest) := by
  cases calls with
  | nil => exact hrest
  | cons call calls =>
      simp only [chainText, String.toList_append, String.reduceToList, List.append_assoc]
      exact closes_cons (by decide) (by decide) _

/-- A filter in front of others, by their own spellings. -/
theorem spells_chain_cons (hcall : Spells (Gives Call FilterCall.Equals call) call.text.toList)
    (hcalls : Spells (Gives Chain (List.Forall₂ FilterCall.Equals) calls)
      (chainText calls).toList) :
    Spells (Gives Chain (List.Forall₂ FilterCall.Equals) (call :: calls))
      (chainText (call :: calls)).toList := by
  simp only [chainText, String.toList_append, String.reduceToList, List.append_assoc]
  refine Spells.blank (spells_symbol ['|'] (by decide) (by decide) (Spells.blank ?_))
  refine hcall.append (closes_chain calls) ?_
  rintro ls ⟨call', hderived, hequals⟩
  refine hcalls.mono ?_
  rintro ms ⟨calls', hderived', hequals'⟩ bar hbar
  exact ⟨_, .cons hbar hderived hderived', .cons hequals hequals'⟩

theorem text_withCalls (base : Expr) (calls : List FilterCall) :
    (withCalls base calls).text = base.text ++ chainText calls := by
  cases calls with
  | nil => exact (String.append_empty).symm
  | cons call calls => rfl

/-- A value in front of its filters, by their own spellings. -/
theorem spells_withCalls (hbase : Spells (Gives Primary Expr.Equals base) base.text.toList)
    (hcalls : Spells (Gives Chain (List.Forall₂ FilterCall.Equals) calls)
      (chainText calls).toList) :
    Spells (Gives Filtered Expr.Equals (withCalls base calls))
      (withCalls base calls).text.toList := by
  rw [text_withCalls, String.toList_append]
  refine hbase.append (closes_chain calls) ?_
  rintro ls ⟨base', hderived, hequals⟩
  refine hcalls.mono ?_
  rintro ms ⟨calls', hderived', hequals'⟩
  exact ⟨_, .mk hderived hderived', equals_withCalls hequals hequals'⟩

end Filters

section Print

mutual

/-- A value is printed so that it is read again, by recursion over its derivation. -/
theorem spells_primary {used : List Lexeme} {e : Expr} (h : Primary used e)
    (hspelled : ∀ l ∈ used, l.Spelled) (hplain : e.Plain) :
    Spells (Gives Primary Expr.Equals e) e.text.toList := by
  -- By the rule that derives the expression; what is printed is read by the same rule.
  match h with
  | .literal hliteral =>
      cases hplain with
      | literal hvalue => exact spells_literal hliteral (hspelled _ List.mem_cons_self) hvalue
  | .path hroot hsteps =>
      rcases List.forall_mem_cons.mp hspelled with ⟨hroot', hrest⟩
      cases hplain with
      | path hkeys => exact spells_path hroot hroot' hkeys (spells_steps hsteps hrest hkeys)
  | .range hopening hfirst hdots hlast hclosing hrange =>
      -- A plain range is one that is computed, as a folded one has no source to print.
      rcases plain_span hrange hplain with ⟨hspan, rfl, hstart, hstop⟩
      simp only [List.forall_mem_cons, List.forall_mem_append] at hspelled
      exact spells_range hspan (spells_primary hfirst hspelled.2.1 hstart)
        (spells_primary hlast hspelled.2.2.2.1 hstop)

/-- The same of the steps of a path. -/
theorem spells_steps {used : List Lexeme} {steps : List Accessor} (h : Steps used steps)
    (hspelled : ∀ l ∈ used, l.Spelled) (hplain : ∀ step ∈ steps, step.Plain) :
    Spells (Gives Steps (List.Forall₂ Accessor.Equals) steps) (stepsText steps).toList := by
  match h with
  | .nil => exact spells_nil ⟨[], .nil, .nil⟩
  | .point hpoint hkey hsteps =>
      rcases List.forall_mem_cons.mp hplain with ⟨hstep, hrest⟩
      simp only [List.forall_mem_cons] at hspelled
      refine spells_steps_cons ?_ hrest (spells_steps hsteps hspelled.2.2 hrest)
      -- An index and a field are each printed behind a point.
      cases hkey with
      | index _ hn => exact spells_index hn
      | name =>
          cases hstep with
          | field hname => exact spells_field hname
  | .bracket hopening hinside hclosing hsteps =>
      rcases List.forall_mem_cons.mp hplain with ⟨hstep, hrest⟩
      simp only [List.forall_mem_cons, List.forall_mem_append] at hspelled
      exact spells_steps_cons (spells_bracket hinside hspelled.2.1 hstep) hrest
        (spells_steps hsteps hspelled.2.2.2 hrest)

/-- The same of a key between brackets, which may be printed with a point. -/
theorem spells_bracket {inside : List Lexeme} {step : Accessor} (h : Bracket inside step)
    (hspelled : ∀ l ∈ inside, l.Spelled) (hplain : step.Plain) :
    Spells (GivesStep step) step.text.toList := by
  match h with
  | .written hkey =>
      cases hkey with
      | index _ hn => exact spells_index hn
      | field =>
          cases hplain with
          | field hname => exact spells_field hname
  | .computed hnot hkey =>
      cases hplain with
      | key hplain => exact spells_key hnot hkey (spells_logical hkey hspelled hplain)

/-- The same of an argument. -/
theorem spells_argument {used : List Lexeme} {argument : Option String × Expr}
    (h : Argument used argument) (hspelled : ∀ l ∈ used, l.Spelled) (hplain : argument.2.Plain) :
    Spells (Gives Argument ArgumentEquals argument) (argumentText argument).toList := by
  match h with
  | .named hname hcolon hvalue =>
      simp only [List.forall_mem_cons] at hspelled
      rcases hspelled.1.isName hname with ⟨hword, hidentifier⟩
      exact spells_named hword hidentifier (spells_primary hvalue hspelled.2.2 hplain)
  | .plain hvalue => exact spells_unnamed (spells_primary hvalue hspelled hplain)

/-- The same of all arguments of a filter. -/
theorem spells_of_mem_arguments {used : List Lexeme} {arguments : List (Option String × Expr)}
    (h : Arguments used arguments) (hspelled : ∀ l ∈ used, l.Spelled)
    (hplain : ∀ argument ∈ arguments, argument.2.Plain) :
    ∀ argument ∈ arguments,
      Spells (Gives Argument ArgumentEquals argument) (argumentText argument).toList := by
  -- An argument after the other.
  match h with
  | .one hargument =>
      rw [List.forall_mem_singleton] at hplain ⊢
      exact spells_argument hargument hspelled hplain
  | .more hargument hcomma hothers =>
      rw [List.forall_mem_cons] at hplain ⊢
      simp only [List.forall_mem_cons, List.forall_mem_append] at hspelled
      exact ⟨spells_argument hargument hspelled.1 hplain.1,
        spells_of_mem_arguments hothers hspelled.2.2 hplain.2⟩

/-- The same of a filter. -/
theorem spells_call {used : List Lexeme} {call : FilterCall} (h : Call used call)
    (hspelled : ∀ l ∈ used, l.Spelled) (hplain : call.Plain) :
    Spells (Gives Call FilterCall.Equals call) call.text.toList := by
  match h with
  | .bare hname => exact spells_bare hname (hspelled _ List.mem_cons_self)
  | .applied hname hcolon harguments hparted =>
      simp only [List.forall_mem_cons] at hspelled
      exact spells_applied hname hspelled.1 hparted (arguments_ne_nil harguments)
        (spells_of_mem_arguments harguments hspelled.2.2 (plain_of_parted hparted hplain))

/-- The same of filters behind one another. -/
theorem spells_chain {used : List Lexeme} {calls : List FilterCall} (h : Chain used calls)
    (hspelled : ∀ l ∈ used, l.Spelled) (hplain : ∀ call ∈ calls, call.Plain) :
    Spells (Gives Chain (List.Forall₂ FilterCall.Equals) calls) (chainText calls).toList := by
  match h with
  | .nil => exact spells_nil ⟨[], .nil, .nil⟩
  | .cons hbar hcall hcalls =>
      rw [List.forall_mem_cons] at hplain
      simp only [List.forall_mem_cons, List.forall_mem_append] at hspelled
      exact spells_chain_cons (spells_call hcall hspelled.2.1 hplain.1)
        (spells_chain hcalls hspelled.2.2 hplain.2)

/-- The same of a value with its filters. -/
theorem spells_filtered {used : List Lexeme} {e : Expr} (h : Filtered used e)
    (hspelled : ∀ l ∈ used, l.Spelled) (hplain : e.Plain) :
    Spells (Gives Filtered Expr.Equals e) e.text.toList := by
  match h with
  | .mk hbase hcalls =>
      rcases plain_withCalls hplain with ⟨hbase', hcalls'⟩
      rw [List.forall_mem_append] at hspelled
      exact spells_withCalls (spells_primary hbase hspelled.1 hbase')
        (spells_chain hcalls hspelled.2 hcalls')

/-- An expression is printed so that it is read again. -/
theorem spells_logical {used : List Lexeme} {e : Expr} (h : Logical used e)
    (hspelled : ∀ l ∈ used, l.Spelled) (hplain : e.Plain) :
    Spells (Gives Logical Expr.Equals e) e.text.toList := by
  match h with
  | .mk (.one hside) .nil =>
      rw [List.append_nil] at hspelled
      refine (spells_filtered hside hspelled hplain).mono ?_
      rintro ls ⟨e', hderived, hequals⟩
      exact ⟨e', logical_of_filtered hderived, hequals⟩
  -- Operators are not printed in the language.
  | .mk (.two _ _ _) .nil => cases hplain
  | .mk _ (.cons _ _ _) =>
      rcases folded_cons _ _ _ with ⟨op, left, right, hfolded⟩
      rw [hfolded] at hplain
      cases hplain

end

end Print

end Grammar

namespace Expr

/-- The text of an expression that was read is read as an expression equal to it, if it is printed
in the language that it was read in. -/
theorem parse_text (source : String) (e : Expr) (h : parse source = .ok e) (hplain : e.Plain) :
    ∃ e', parse e.text = .ok e' ∧ e.Equals e' := by
  rcases Grammar.parse_eq_ok_iff_exists.mp h with ⟨ls, hls, hderived⟩
  have hspells := Grammar.spells_logical hderived (Grammar.spelled_of_body hls) hplain
  rcases hspells [] Lexeme.closes_nil 0 with ⟨ms, next, hms, e', hderived', hequals⟩
  refine ⟨e', Grammar.parse_eq_ok_iff_exists.mpr ⟨ms, ?_, hderived'⟩, hequals⟩
  rw [List.append_nil] at hms
  rw [Lexeme.body, Lexeme.scan, hms, Lexeme.scanFrom]
  exact congrArg Except.ok List.dropLast_concat

/-- A key between quotes, an option in front of an argument, a decimal with a zero at its end and
a text with a quote in it are printed in other ways than they are written. -/
theorem parse_text_nested :
    let source := "a[\"b\"][(1..n) | map: k: 2.50, x[-1]] | join: \"it's\""
    let key : Expr := .filtered (.range (.literal (.integer 1)) (.path "n" []))
      [.call "map" [.path "x" [.index (-1)]] [("k", .literal (.decimal (.finite false 250 (-2))))]]
    let e : Expr := .filtered (.path "a" [.field "b", .key key])
      [.call "join" [.literal (.string "it's")] []]
    parse source = .ok e ∧ e.Plain ∧
      e.text = "a.b[(1..n) | map: x[-1], k: 2.5] | join: \"it's\"" ∧
      ∃ e', parse "a.b[(1..n) | map: x[-1], k: 2.5] | join: \"it's\"" = .ok e' ∧ e.Equals e' := by
  intro source key e
  have hbody : Lexeme.body source = .ok
      [⟨.identifier, "a", 0⟩, ⟨.symbol, "[", 1⟩, ⟨.string, "b", 2⟩, ⟨.symbol, "]", 5⟩,
        ⟨.symbol, "[", 6⟩, ⟨.symbol, "(", 7⟩, ⟨.integer, "1", 8⟩, ⟨.symbol, "..", 9⟩,
        ⟨.identifier, "n", 11⟩, ⟨.symbol, ")", 12⟩, ⟨.symbol, "|", 14⟩, ⟨.identifier, "map", 16⟩,
        ⟨.symbol, ":", 19⟩, ⟨.identifier, "k", 21⟩, ⟨.symbol, ":", 22⟩, ⟨.decimal, "2.50", 24⟩,
        ⟨.symbol, ",", 28⟩, ⟨.identifier, "x", 30⟩, ⟨.symbol, "[", 31⟩, ⟨.integer, "-1", 32⟩,
        ⟨.symbol, "]", 34⟩, ⟨.symbol, "]", 35⟩, ⟨.symbol, "|", 37⟩, ⟨.identifier, "join", 39⟩,
        ⟨.symbol, ":", 43⟩, ⟨.string, "it's", 45⟩] := by decide +kernel
  have hparse : parse source = .ok e := by
    rw [parse, parseWith, hbody]
    rfl
  have htext : e.text = "a.b[(1..n) | map: x[-1], k: 2.5] | join: \"it's\"" := by
    decide +kernel
  have hname : Lexeme.IsName "b".toList :=
    @Lexeme.IsName.mk 'b' [] [] (by decide) (by simp) (.inl rfl)
  have hquoted : '\\' ∉ Text.quotedChars "it's".toList := by decide +kernel
  have hkey : key.Plain :=
    .filtered (.range (.literal trivial) (.path (by simp))) <| List.forall_mem_singleton.mpr <|
      .call (List.forall_mem_singleton.mpr (.path (List.forall_mem_singleton.mpr .index)))
        (List.forall_mem_singleton.mpr (.literal trivial))
  -- Plain all the way down: the only quoted text has no backslash in it.
  have hplain : e.Plain :=
    .filtered (.path (List.forall_mem_cons.mpr
      ⟨.field hname, List.forall_mem_singleton.mpr (.key hkey)⟩)) <|
      List.forall_mem_singleton.mpr <|
        .call (List.forall_mem_singleton.mpr (.literal hquoted)) (by simp)
  refine ⟨hparse, hplain, htext, ?_⟩
  rw [← htext]
  exact parse_text source e hparse hplain

end Expr

end Liquid
