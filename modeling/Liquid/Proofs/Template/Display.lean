import Liquid.Proofs.Template.Single
import Liquid.Proofs.Template.Variable

/-!
# What is Shown, Written Out

A value is shown as its text. The text put between quotes is a template that
shows the text: nothing in it is trimmed, replaced or taken for something else.
The language has no escapes, so a quote ends the string, and a source is cut
before it is read, so the delimiter of an output ends the output. Those are the
only two things that the text must not hold, and there are two quotes to choose
from.

## Theorems

* `Expr.parse_quoted`: A text between quotes is a literal.
* `Template.renders_of_parse`: What an output shows.
* `Template.renders_quoted`: What an output of such a literal shows.
* `Template.display_stable`: A value and its text written out show the same.
-/

namespace Liquid

namespace Expr

/-- A text between quotes that it does not hold is the literal of the text. -/
theorem parse_quoted {quote : Char} (hquote : quote = '"' ∨ quote = '\'') {text : List Char}
    (htext : quote ∉ text) :
    parse (String.ofList (quote :: (text ++ [quote]))) =
      .ok (.literal (.string (String.ofList text))) := by
  have hbody : Lexeme.body (String.ofList (quote :: (text ++ [quote]))) =
      .ok [⟨.string, String.ofList text, 0⟩] := by
    rcases Lexeme.starts_quoted hquote htext [] 0 with ⟨next, hscan⟩
    rw [List.append_nil] at hscan
    rw [Lexeme.body, Lexeme.scan, String.toList_ofList, hscan, Lexeme.scanFrom]
    rfl
  exact Grammar.parse_of_literal hbody (.string rfl)

end Expr

namespace Template

open Piece (closer opener)
open Segment (enclosed)

section Display

variable {env : Environment} {data : Table Value}

/-- An output shows the value that its source stands for, in any environment. -/
theorem renders_of_parse {source : List Char} {expr : Expr} {value : Value}
    (hclosed : ¬closer true <:+: source)
    (hparse : Expr.parse (String.ofList (Text.strip source)) = .ok expr)
    (heval : (expr.eval env (.ofData data) (some .start)).result = .ok value) :
    Renders env (String.ofList (enclosed true ⟨false, false⟩ source)) data value.display := by
  refine ⟨_, (compile_output_eq_ok_iff hclosed).mpr ⟨expr, hparse, rfl⟩, ?_⟩
  have hshown := Render.renderAll_output_of_ok heval
  simp [output, Environment.output, hshown]

/-- A text between quotes that it does not hold is shown as it is. -/
theorem renders_quoted {quote : Char} (hquote : quote = '"' ∨ quote = '\'') {text : List Char}
    (htext : quote ∉ text) (hclosed : ¬closer true <:+: text) :
    Renders env (String.ofList (enclosed true ⟨false, false⟩ (quote :: (text ++ [quote])))) data
      (String.ofList text) := by
  have hblank : Text.isBlank quote = false := by
    rcases hquote with rfl | rfl <;> decide
  -- The quotes keep the delimiter of the output apart from the text.
  have hapart : ¬closer true <:+: quote :: (text ++ [quote]) := by
    rw [← List.singleton_append]
    refine Text.not_infix_append ?_ (Text.not_infix_concat ?_ hclosed) <;>
      rcases hquote with rfl | rfl <;> decide
  have hparse : Expr.parse (String.ofList (Text.strip (quote :: (text ++ [quote])))) =
      .ok (.literal (.string (String.ofList text))) := by
    rw [Text.strip_eq_self_of_ends hblank hblank text, Expr.parse_quoted hquote htext]
  exact @renders_of_parse env data _ _ (.string (String.ofList text)) hapart hparse rfl

end Display

/-- An output of a variable shows the text of its value, whatever that is. If the text lacks one of
the quotes and holds no delimiter of an output, then an output of the text between these quotes
shows it again. -/
theorem display_stable (env : Environment) (value : Value) :
    (∀ data : Table Value, data.get? "v" = some value →
        Renders env "\x7b\x7b v \x7d\x7d" data value.display) ∧
      ∀ quote, quote = '"' ∨ quote = '\'' → quote ∉ value.display.toList →
        ¬['\x7d', '\x7d'] <:+: value.display.toList → ∀ data,
          Renders env
            ("\x7b\x7b " ++ quote.toString ++ value.display ++ quote.toString ++ " \x7d\x7d")
            data value.display := by
  refine ⟨fun data hdata => ?_, fun quote hquote htext hclosed data => ?_⟩
  -- A variable: the name is looked up in the data that is rendered.
  · have hlookup : (Scope.ofData data).lookup "v" = value := by
      simp [Scope.lookup, Scope.frames, Scope.ofData, hdata]
    have hparse : Expr.parse "v" = .ok (.path "v" []) :=
      Expr.parse_of_isName (by decide) (by decide)
    have heval : ((Expr.path "v" []).eval env (.ofData data) (some .start)).result = .ok value := by
      rw [Expr.eval_variable hlookup]
      rfl
    exact @renders_of_parse env data ['v'] _ _ (by decide) hparse heval
  -- A literal: neither the quote nor the end of an output is in the text, so the lexer reads it
  -- back.
  · have hrenders := @renders_quoted env data quote hquote _ htext hclosed
    rw [String.ofList_toList] at hrenders
    have hsource :
        "\x7b\x7b " ++ quote.toString ++ value.display ++ quote.toString ++ " \x7d\x7d" =
          String.ofList
            (enclosed true ⟨false, false⟩ (quote :: (value.display.toList ++ [quote]))) := by
      rw [← String.toList_inj]
      simp [enclosed, Segment.inner, Segment.hyphen, opener, closer]
    rwa [hsource]

/-- An opening delimiter, half a closing one, a line break, a whole tag, a backslash, the other
quote and a hyphen at the end. -/
theorem display_stable_delimiters :
    let shown := "\x7b\x7b a \x7d\n\x7b% b %\x7d \\ \"-"
    let value : Value := .string shown
    value.display = shown ∧ '\'' ∉ shown.toList ∧ ¬['\x7d', '\x7d'] <:+: shown.toList ∧
      Renders Environment.standard "\x7b\x7b v \x7d\x7d" [("v", value)] shown ∧
      Renders Environment.standard ("\x7b\x7b '" ++ shown ++ "' \x7d\x7d") [] shown := by
  intro shown value
  have hdisplay : value.display = shown := rfl
  have hquote : '\'' ∉ value.display.toList := by decide
  have hclosed : ¬['\x7d', '\x7d'] <:+: value.display.toList := by decide
  rcases display_stable Environment.standard value with ⟨hvariable, hliteral⟩
  exact ⟨hdisplay, hquote, hclosed, hvariable [("v", value)] rfl,
    hliteral '\'' (.inr rfl) hquote hclosed []⟩

end Template

end Liquid
