import Liquid.Proofs.Arrangement.Control
import Liquid.Proofs.Expr.Parse
import Liquid.Proofs.Token.Unmarked

/-!
# Templates of One Construct

The smallest templates: one output or one tag that stands alone, with a space on
each side of its inside and nothing around it. Here a source is followed all the
way. It is one token, which stands at the start, and the token is one node if
the expression or the tag is in order. This holds for any table of tags, since
no other tag has a part in it.

An echo is an output written as a tag. It takes less: an expression with an
operator can be shown by an output only. What it takes it shows as an output
does, and fails as one does, since both nodes keep the same expression and the
same place. The two have different delimiters, and a source that holds one of
them is cut off there. A hyphen at an end of the source is no marker here,
because of the spaces.

## Theorems

* `Token.scan_output`, `Token.scan_tag`: The source is one token.
* `Arrangement.ofTokens_output_iff`, `Arrangement.ofTokens_tag_iff`: The token is
  one node.
* `Template.compile_output_eq_ok_iff`, `Template.compile_tag_eq_ok_iff`: What the
  source is compiled to.
* `Template.compile_echo_eq_ok_iff`: What an echo is compiled to.
* `Template.renderAll_echo`: It does what an output does.
* `Template.echo_agrees`: What can be echoed can be shown, with the same outcome.
-/

namespace Liquid

namespace Token

open Piece (closer)
open Segment (enclosed joined leads_nil)

/-- A construct that is all of a source is its only token. -/
theorem scan_of_cut {cs : List Char} {piece : Piece.Content} {content : Content}
    (hcut : Piece.Cut cs fun offset place =>
      [⟨.text [] false, offset, place⟩, ⟨piece, offset, place⟩])
    (hread : Scan.State.read .start ⟨piece, 0, .start⟩ = ⟨[⟨content, 0, .start⟩], false⟩)
    (strict : Bool) :
    Token.scan strict (String.ofList cs) = .ok ([⟨content, 0, .start⟩], [.tokenized 1]) := by
  have hscan := @Scan.scan_cut_text cs [] _ hcut rfl strict
  -- There is no text before the construct and none behind it.
  have hstate : [⟨.text [] false, 0, .start⟩, ⟨piece, 0, .start⟩].foldl Scan.State.read .start =
      ⟨[⟨content, 0, .start⟩], false⟩ := hread
  simp only [hstate, List.append_nil] at hscan
  exact hscan

/-- A source that is one output has one token, the output. -/
theorem scan_output {source : List Char} (hclosed : ¬closer true <:+: source) (strict : Bool) :
    Token.scan strict (String.ofList (enclosed true ⟨false, false⟩ source)) =
      .ok ([⟨.output (String.ofList (Text.strip source)), 0, .start⟩], [.tokenized 1]) := by
  have hencloses : Piece.Encloses true [] (Segment.inner ⟨false, false⟩ source) :=
    ⟨leads_nil, Segment.cut?_inner true ⟨false, false⟩ hclosed⟩
  have hcut := Piece.cut_output hencloses
  simp only [Segment.splitMarkers_inner, Text.strip_pad] at hcut
  exact scan_of_cut hcut rfl strict

/-- A source that is one tag has one token, with its name and its arguments apart. -/
theorem scan_tag {word args : List Char} (hword : (Segment.tag ⟨false, false⟩ word []).Proper)
    (hclosed : ¬closer false <:+: word ++ ' ' :: args) (strict : Bool) :
    Token.scan strict (String.ofList (enclosed false ⟨false, false⟩ (word ++ ' ' :: args))) =
      .ok ([⟨.tag (String.ofList word) (String.ofList (Text.strip args)), 0, .start⟩],
        [.tokenized 1]) := by
  have hencloses : Piece.Encloses false [] (Segment.inner ⟨false, false⟩ (word ++ ' ' :: args)) :=
    ⟨leads_nil, Segment.cut?_inner false ⟨false, false⟩ hclosed⟩
  -- The name is no word that the lexer itself treats, so the cut is the one of a plain tag.
  rcases hword with ⟨hne, hblank, hraw, hcomment, hnote, _⟩
  have hname := Segment.splitName_word hne hblank (args ++ [' '])
  rw [Text.strip_pad] at hname
  have hcut := Piece.cut_tag hencloses
  simp only [Segment.splitMarkers_inner, List.append_assoc, List.cons_append, hname] at hcut
  exact scan_of_cut (hcut hraw hcomment hnote) rfl strict

end Token

namespace Arrangement

section Alone

variable {tags : Table Tag} {nodes : List Node} {offset : Nat} {place : Place}

/-- One token that adds a node is a template of that node. -/
theorem ofTokens_singleton_iff {token : Token} {result : Except SyntaxFault Node}
    (hread : read tags .start token = result.map Arrangement.start.push) :
    (∃ remarks, Node.ofTokens tags [token] = .ok (nodes, remarks)) ↔
      ∃ node, result = .ok node ∧ nodes = [node] := by
  -- With one token there is nothing left to close at the end.
  have htokens : Node.ofTokens tags [token] =
      result.map fun node => ([node], [.arranged 1 1]) := by
    unfold Node.ofTokens
    rw [List.foldlM_cons, hread]
    cases result <;> rfl
  rw [htokens]
  cases result with
  | error fault => simp [Except.map]
  | ok node => simp [Except.map, eq_comm]

/-- An output is compiled if its source is an expression. -/
theorem ofTokens_output_iff {source : String} :
    (∃ remarks, Node.ofTokens tags [⟨.output source, offset, place⟩] = .ok (nodes, remarks)) ↔
      ∃ expr, Expr.parse source = .ok expr ∧ nodes = [.output expr place] := by
  by_cases hempty : source = ""
  · -- An empty output is refused before it is parsed, and would not parse.
    subst hempty
    rw [@ofTokens_singleton_iff _ _ _ (.error ⟨.emptyOutput, some place⟩) rfl, parse_empty]
    simp
  · have hread : read tags .start ⟨.output source, offset, place⟩ =
        ((placedAt place (readSource source (Expr.parse source))).map (.output · place)).map
          Arrangement.start.push := by
      have hnonempty : source.isEmpty = false := by simpa using hempty
      unfold read
      simp only [hnonempty, Bool.false_eq_true, if_false]
      cases Expr.parse source <;> rfl
    rw [ofTokens_singleton_iff hread]
    simp only [map_eq_ok_iff, placedAt, readSource, mapError_eq_ok_iff]
    -- The place is given to a fault only.
    constructor
    · rintro ⟨_, ⟨expr, hexpr, rfl⟩, hnodes⟩
      exact ⟨expr, hexpr, hnodes⟩
    · rintro ⟨expr, hexpr, hnodes⟩
      exact ⟨_, ⟨expr, hexpr, rfl⟩, hnodes⟩

/-- A tag that stands alone. -/
theorem ofTokens_tag_iff {name args : String} {tag : Tag} (hname : name ≠ "")
    (htag : tags.get? name = some tag) (hend : tag.endName = none) :
    (∃ remarks, Node.ofTokens tags [⟨.tag name args, offset, place⟩] = .ok (nodes, remarks)) ↔
      ∃ node, tag.compile false ⟨name, args, offset, place, [], []⟩ = .ok node ∧
        nodes = [node] := by
  have hown : IsOwn Arrangement.start.innermost name := ⟨hname, fun _ hmem => nomatch hmem⟩
  rw [ofTokens_singleton_iff (read_alone hown htag hend)]
  simp only [placedAt, mapError_eq_ok_iff]
  rfl

end Alone

end Arrangement

namespace Template

open Piece (closer opener)
open Segment (enclosed)

section Alone

variable {env : Environment} {template : Template}

/-- What is compiled is told by the tokens. -/
theorem compile_eq_ok_iff_of_scan {source : String} {tokens : List Token} {remarks : List Remark}
    (hscan : Token.scan env.settings.strict source = .ok (tokens, remarks)) :
    (compile env source).result = .ok template ↔
      template.environment = env ∧
        ∃ remarks, Node.ofTokens env.tags tokens = .ok (template.nodes, remarks) := by
  rw [compile_eq_ok_iff, hscan]
  constructor
  · rintro ⟨henv, _, ⟨_, heq⟩, hnodes⟩
    cases heq
    exact ⟨henv, hnodes⟩
  · rintro ⟨henv, hnodes⟩
    exact ⟨henv, tokens, ⟨remarks, rfl⟩, hnodes⟩

/-- An output of an expression. -/
theorem compile_output_eq_ok_iff {source : List Char} (hclosed : ¬closer true <:+: source) :
    (compile env (String.ofList (enclosed true ⟨false, false⟩ source))).result = .ok template ↔
      ∃ expr, Expr.parse (String.ofList (Text.strip source)) = .ok expr ∧
        template = ⟨[.output expr .start], env⟩ := by
  rw [compile_eq_ok_iff_of_scan (Token.scan_output hclosed _), Arrangement.ofTokens_output_iff]
  -- A template is its nodes with the environment that compiled it.
  rcases template with ⟨nodes, environment⟩
  constructor
  · rintro ⟨rfl, expr, hexpr, rfl⟩
    exact ⟨expr, hexpr, rfl⟩
  · rintro ⟨expr, hexpr, heq⟩
    cases heq
    exact ⟨rfl, expr, hexpr, rfl⟩

/-- A tag that stands alone. -/
theorem compile_tag_eq_ok_iff {word source : List Char} {tag : Tag}
    (hword : (Segment.tag ⟨false, false⟩ word []).Proper)
    (htag : env.tags.get? (String.ofList word) = some tag) (hend : tag.endName = none)
    (hclosed : ¬closer false <:+: word ++ ' ' :: source) :
    (compile env (String.ofList
        (enclosed false ⟨false, false⟩ (word ++ ' ' :: source)))).result = .ok template ↔
      ∃ node, tag.compile false ⟨String.ofList word, String.ofList (Text.strip source), 0, .start,
          [], []⟩ = .ok node ∧ template = ⟨[node], env⟩ := by
  -- The table of tags is asked for the name only if there is one.
  have hname : String.ofList word ≠ "" := by
    intro hnil
    exact hword.1 (String.ofList_eq_empty_iff.mp hnil)
  rw [compile_eq_ok_iff_of_scan (Token.scan_tag hword hclosed _),
    Arrangement.ofTokens_tag_iff hname htag hend]
  rcases template with ⟨nodes, environment⟩
  constructor
  · rintro ⟨rfl, node, hnode, rfl⟩
    exact ⟨node, hnode, rfl⟩
  · rintro ⟨node, hnode, heq⟩
    cases heq
    exact ⟨rfl, node, hnode, rfl⟩

end Alone

section Echo

variable {env : Environment} {template : Template}

/-- An echo holds the chain that its arguments are. -/
theorem compile_echoTag_eq_ok_iff {args : String} {offset : Nat} {place : Place}
    {node : Node} :
    Tag.echoTag.compile false ⟨"echo", args, offset, place, [], []⟩ = .ok node ↔
      ∃ expr, Expr.parseChain args = .ok expr ∧ node = .echo expr place := by
  change Tag.compileEcho _ = _ ↔ _
  unfold Tag.compileEcho
  by_cases hempty : args = ""
  · -- An echo of nothing is refused before it is parsed, and would not parse.
    have hparse (expr : Expr) : Expr.parseChain "" ≠ .ok expr := by
      intro h
      rw [Expr.parseChain_eq_ok_iff, Arrangement.parse_empty] at h
      cases h.1
    subst hempty
    simp [hparse, Block.error]
  -- Otherwise the expression is what the arguments are read as.
  · have hnonempty : args.isEmpty = false := by simpa using hempty
    simp only [hnonempty, Bool.false_eq_true, if_false, bind_eq_ok_iff, readSource,
      mapError_eq_ok_iff, Except.ok.injEq, eq_comm (b := node)]

/-- An echo of a value with filters. -/
theorem compile_echo_eq_ok_iff (hecho : env.tags.get? "echo" = some Tag.echoTag)
    {source : List Char} (hclosed : ¬closer false <:+: source) :
    (compile env (String.ofList
        (enclosed false ⟨false, false⟩ ("echo".toList ++ ' ' :: source)))).result = .ok template ↔
      ∃ expr, Expr.parseChain (String.ofList (Text.strip source)) = .ok expr ∧
        template = ⟨[.echo expr .start], env⟩ := by
  have hproper : (Segment.tag ⟨false, false⟩ "echo".toList []).Proper := by decide
  have hname : '%' ∉ "echo ".toList := by decide
  -- The name of the tag brings no end of the tag with it.
  have hclosed' : ¬closer false <:+: "echo".toList ++ ' ' :: source := by
    have hnone := Text.not_infix_append hname hclosed
    exact hnone
  rw [← String.ofList_toList (s := "echo")] at hecho
  rw [compile_tag_eq_ok_iff hproper hecho rfl hclosed', String.ofList_toList]
  simp only [compile_echoTag_eq_ok_iff]
  constructor
  · rintro ⟨_, ⟨expr, hexpr, rfl⟩, htemplate⟩
    exact ⟨expr, hexpr, htemplate⟩
  · rintro ⟨expr, hexpr, htemplate⟩
    exact ⟨_, ⟨expr, hexpr, rfl⟩, htemplate⟩

end Echo

/-- An echo does what an output does. -/
theorem renderAll_echo (env : Environment) (expr : Expr) (place : Place) (scope : Scope) :
    renderAll env [.echo expr place] scope = renderAll env [.output expr place] scope :=
  rfl

end Template

end Liquid
