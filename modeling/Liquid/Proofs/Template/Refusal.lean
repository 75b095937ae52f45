import Liquid.Proofs.Arrangement.Refusal
import Liquid.Proofs.Template.Fault

/-!
# Where Arguments are Refused

Which place a source is refused at when the arguments of a tag cannot be read.
If the tag itself rejects them, it is the place of the opening. If an expression
in them is at fault, it is the place of the token that was read at the time: a
tag that stands alone is that token, but a block is compiled when its end is
read, and so a fault in its opening or in one of its branches is placed at its
end.

## Main definitions

* `Arrangement.reported`: What is said when a tag is refused.

## Theorems

* `Template.refusal_placed`: A tag that is refused, in a source.
-/

namespace Liquid

/-- What is said when a tag is refused: the place is that of its opening if the tag itself says what
is wrong, and that of its end if an expression does. -/
def Arrangement.reported (opening closing : Token) (wrong : SyntaxFault) : SyntaxFault :=
  ⟨wrong.cause, some (if wrong.cause.isExpression then closing.place else opening.place)⟩

/-- A rejection is placed by its own rule: at the end of the block, unless it has a place already.
-/
theorem Arrangement.placedAt_eq_reported {tags : Table Tag} {tokens : List Token} {tag : Tag}
    {inLoop : Bool} {block : Block} {opening closing : Token} {wrong : SyntaxFault}
    (h : Tagged tags tokens tag inLoop block opening closing) (hwrong : Tag.Rejection block wrong) :
    wrong.placedAt closing.place = reported opening closing wrong := by
  cases hwrong with
  | own hexpr _ => simp [SyntaxFault.placedAt, reported, hexpr, h.opening_mem.2.2]
  | inside _ => rfl

namespace Template

open Arrangement

/-- Where a source is refused for the arguments of a tag. If the tag does not accept them, the
source is no template, and the fault is what the tag finds: at the opening of the tag if it is about
the tag, and at its end if it is inside an expression, which is one of the opening or of a branch.
Both places are those of delimiters in the source. A tag that stands alone is its own end. There are
no other faults that are about arguments, except those of outputs. -/
theorem refusal_placed (settings : Settings) (source : String) {tokens : List Token}
    {remarks : List Remark} (hscan : Token.scan settings.strict source = .ok (tokens, remarks)) :
    let environment := (Environment.create settings {}).1
    (∀ {tag inLoop block opening closing wrong},
      Tagged environment.tags tokens tag inLoop block opening closing →
      tag.compile inLoop block = .error wrong →
      (compile environment source).result =
          .error (.structure (reported opening closing wrong)) ∧
        Tag.Rejection block wrong ∧ opening.StandsIn source.toList ∧
        closing.StandsIn source.toList ∧ (tag.endName = none → closing = opening)) ∧
    ∀ {fault}, (compile environment source).result = .error (.structure fault) →
      fault.cause.isOrder = false →
      (∃ token ∈ tokens, ∃ text reason, token.content = .output text ∧
        Expr.parse text = .error reason ∧
        fault = ⟨.expression reason text, some token.place⟩) ∨
      ∃ tag inLoop block opening closing wrong,
        Tagged environment.tags tokens tag inLoop block opening closing ∧
        tag.compile inLoop block = .error wrong ∧ fault = reported opening closing wrong := by
  intro environment
  -- No standard tag refuses a block in another way than `Rejection` lists.
  have hrejects {tag inLoop block opening closing wrong}
      (h : Tagged environment.tags tokens tag inLoop block opening closing)
      (hwrong : tag.compile inLoop block = .error wrong) : Tag.Rejection block wrong := by
    rcases h.get? with ⟨name, hget⟩
    exact Tag.standard_rejects block (standard_get? hget).1 inLoop wrong hwrong
  constructor
  -- A block that its tag refuses is the one that the source is refused for.
  · intro tag inLoop block opening closing wrong h hwrong
    have hrejection := hrejects h hwrong
    have hstands {token : Token} (hmem : token ∈ tokens)
        (hkind : token.content.isOutput? = some false) : token.StandsIn source.toList :=
      Token.standsIn_of_scan hscan hmem (by simp [hkind])
    refine ⟨?_, hrejection, hstands h.opening_mem.1 h.opening_mem.2.1,
      hstands h.closing_mem.1 h.closing_mem.2, h.eq_of_endName⟩
    -- The arrangement stops at the first block that is refused.
    have hnodes := ofTokens_of_tagged standard_unambiguous h hwrong
    rw [placedAt_eq_reported h hrejection] at hnodes
    refine Noted.bind_result_eq_error_iff.mpr (.inr ⟨tokens, ?_, ?_⟩)
    · exact Noted.ofPair_result_eq_ok_iff.mpr ⟨remarks, hscan⟩
    · refine Noted.bind_result_eq_error_iff.mpr (.inl ?_)
      exact Noted.ofPair_result_eq_error_iff.mpr ⟨_, hnodes, rfl⟩
  -- In the other direction, what is refused is an output or such a block, if the order of the tags
  -- is not at fault.
  · intro fault hfault horder
    rcases fault_of_compile hfault with
      ⟨_, _, hunterminated⟩ | ⟨tokens', _, wrong, hscan', hnodes, hwrong⟩
    · cases hunterminated
    · cases hscan.symm.trans hscan'
      cases hwrong
      rcases tagged_of_ofTokens standard_unambiguous hnodes horder with
        houtput | ⟨tag, inLoop, block, opening, closing, wrong, htagged, hcompile, rfl⟩
      · exact .inl houtput
      · exact .inr ⟨tag, inLoop, block, opening, closing, wrong, htagged, hcompile,
          placedAt_eq_reported htagged (hrejects htagged hcompile)⟩

/-- A branch that cannot be read: the fault is placed two lines further on, where its block ends. -/
theorem refusal_placed_branch :
    let source := "\x7b% if a %\x7d\n\x7b% elsif b c %\x7d\n\x7b% endif %\x7d"
    let opening : Token := ⟨.tag "if" "a", 0, ⟨1, 1⟩⟩
    let branch : Token := ⟨.tag "elsif" "b c", 11, ⟨2, 1⟩⟩
    let closing : Token := ⟨.tag "endif" "", 27, ⟨3, 1⟩⟩
    let sections : List Section :=
      [⟨"if", "a", 0, opening.place, [.text "\n"]⟩,
        ⟨"elsif", "b c", branch.offset, branch.place, [.text "\n"]⟩]
    let inner : List Token := [⟨.text "\n", 10, ⟨1, 11⟩⟩, branch, ⟨.text "\n", 26, ⟨2, 16⟩⟩]
    let block : Block := ⟨"if", "a", 0, opening.place, sections, inner⟩
    let wrong : SyntaxFault := ⟨.expression (.unexpected "c") "b c", none⟩
    Tagged standardTags (opening :: (inner ++ [closing])) Tag.ifTag false block opening closing ∧
      Tag.ifTag.compile false block = .error wrong ∧
      (compile (Environment.create {} {}).1 source).result =
        .error (.structure ⟨wrong.cause, some closing.place⟩) := by
  intro source opening branch closing sections inner block wrong
  have hscan : (Token.scan false source).toOption.map Prod.fst =
      some (opening :: (inner ++ [closing])) := by
    decide +kernel
  rcases Option.map_eq_some_iff.mp hscan with ⟨⟨tokens, remarks⟩, hscan, rfl⟩
  -- The block by its parts: the branch, and what is inside of each.
  have hparts : Parts standardTags false Tag.ifTag "if" "a" 0 opening.place inner
      sections :=
    .branch (.cons .text .nil) (by decide) (by decide) (.last (.cons .text .nil))
  have htagged : Tagged standardTags (opening :: (inner ++ [closing])) Tag.ifTag false block opening
      closing :=
    @Tagged.block _ [] inner [] .start Tag.ifTag "if" "a" "endif" "" 0 27 _ _ sections
      (.outside .nil) rfl rfl hparts
  have hwrong : Tag.ifTag.compile false block = .error wrong :=
    fault?_eq_some_iff.mp (by decide +kernel)
  have hrefused := (refusal_placed {} source (toOption_eq_some_iff.mp hscan)).1 htagged hwrong
  exact ⟨htagged, hwrong, hrefused.1⟩

/-- The opening of a block cannot be read, and the fault is not placed there but at the end. -/
theorem refused_behind_opening :
    let source := "\x7b% if a b %\x7dx\n\x7b% endif %\x7d"
    let opening : Token := ⟨.tag "if" "a b", 0, ⟨1, 1⟩⟩
    let closing : Token := ⟨.tag "endif" "", 14, ⟨2, 1⟩⟩
    (Token.scan false source).toOption.map Prod.fst =
        some [opening, ⟨.text "x\n", 12, ⟨1, 13⟩⟩, closing] ∧
      ∃ place, (compile (Environment.create {} {}).1 source).result =
          .error (.structure ⟨.expression (.unexpected "b") "a b", some place⟩) ∧
        place ≠ opening.place ∧ place = closing.place :=
  ⟨by decide +kernel, ⟨2, 1⟩, fault?_eq_some_iff.mp (by decide +kernel), by decide, rfl⟩

end Template

end Liquid
