import Liquid.Proofs.Arrangement.Control
import Liquid.Proofs.Tag.Shift

/-!
# Compiling Two Sources as One

Compiling takes two sources put together to two trees put together. The first
source has to end with the closing delimiter of an output or a tag, and to
compile by itself in strict mode; the second is any source that compiles, in
whatever mode. Nothing is carried over the seam but the place where the second
source starts: no delimiter, raw block or comment is open there, no text is
trimmed across it, and no block is open.

On the level of tokens this is about the grammar of blocks. Two bodies put
together are a body, and a body stays one when its tokens are moved.

## Theorems

* `Arrangement.body_shifted`, `Arrangement.item_shifted`,
  `Arrangement.parts_shifted`: Moved tokens become moved nodes.
* `Template.compile_append`: Compiling two sources as one.
-/

namespace Liquid

namespace Arrangement

mutual

/-- The nodes of a body of moved tokens are the moved nodes. -/
theorem body_shifted {inLoop : Bool} {tokens : List Token} {nodes : List Node}
    (h : Body Environment.standard.tags inLoop tokens nodes) (used : List Char) :
    Body Environment.standard.tags inLoop (tokens.map (Token.shifted used))
      (nodes.map (Node.shifted used)) := by
  match h with
  | .nil => exact .nil
  | .cons item body =>
      rw [List.map_append]
      exact .cons (item_shifted item used) (body_shifted body used)

theorem item_shifted {inLoop : Bool} {tokens : List Token} {node : Node}
    (h : Item Environment.standard.tags inLoop tokens node) (used : List Char) :
    Item Environment.standard.tags inLoop (tokens.map (Token.shifted used))
      (node.shifted used) := by
  match h with
  | .text => exact .text
  | .output hexpr => exact .output hexpr
  -- What a tag answers from a moved place is the moved answer, as all the standard tags carry
  -- places along.
  | .alone hget hend hnode =>
      have hnode' := Tag.standard_carries used _ (standard_get? hget).1 inLoop _ hnode
      exact .alone hget hend hnode'
  | .block hget hend parts hnode =>
      have hnode' := Tag.standard_carries used _ (standard_get? hget).1 inLoop _ hnode
      -- The opening, the inside and the end of a block are moved each.
      rw [List.map_cons, List.map_append]
      exact .block hget hend (parts_shifted parts used) hnode'

theorem parts_shifted {inLoop : Bool} {tag : Tag} {name args : String} {offset : Nat}
    {place : Place} {tokens : List Token} {sections : List Section}
    (h : Parts Environment.standard.tags inLoop tag name args offset place tokens sections)
    (used : List Char) :
    Parts Environment.standard.tags inLoop tag name args (used.length + offset) (place.shifted used)
      (tokens.map (Token.shifted used)) (sections.map (Section.shifted used)) := by
  match h with
  | .last body => exact .last (body_shifted body used)
  | .branch body hname hnext parts =>
      rw [List.map_append, List.map_cons]
      exact .branch (body_shifted body used) hname hnext (parts_shifted parts used)

end

end Arrangement

namespace Template

/-- Compiling takes sources put together to trees put together. If the first source compiles in
strict mode and ends with the closing delimiter of an output or a tag, and the second one compiles,
then both together compile, to the nodes of the first and behind them those of the second. The
latter are the same but for their places: to their lines the line feeds of the first source are
added, and to the columns on their first line the characters behind the last of these. -/
theorem compile_append (settings : Settings) (first second : String) (front back : Template)
    (before : List Char) (isOutput : Bool) (inside : List Char)
    (hfirst : (compile (Environment.create { settings with strict := true } {}).1 first).result =
      .ok front)
    (hends : Token.EndsClosed first before isOutput inside)
    (hsecond : (compile (Environment.create settings {}).1 second).result = .ok back) :
    (compile (Environment.create settings {}).1 (first ++ second)).result =
      .ok ⟨front.nodes ++ back.nodes.map (Node.shifted first.toList), back.environment⟩ := by
  rcases compile_eq_ok_iff.mp hfirst with ⟨_, tokens, ⟨remarks, hscan⟩, _, hnodes⟩
  rcases compile_eq_ok_iff.mp hsecond with ⟨henv, tokens', ⟨remarks', hscan'⟩, _, hnodes'⟩
  rcases hends.exists_scan_append with ⟨front', hfront⟩
  -- The tokens of the first source are those that it has with nothing behind it.
  rcases hfront (Token.scan_empty true) with ⟨_, halone⟩
  rw [String.append_empty] at halone
  cases hscan.symm.trans halone
  have hbody := Arrangement.body_of_ofTokens hnodes
  rw [List.map_nil, List.append_nil] at hbody
  have hbody' := Arrangement.body_shifted (Arrangement.body_of_ofTokens hnodes') first.toList
  have hboth := Arrangement.body_append hbody hbody'
  have harranged := Arrangement.ofTokens_of_body Arrangement.standard_unambiguous hboth
  exact compile_eq_ok_iff.mpr ⟨henv, _, hfront hscan', _, harranged⟩

/-- An output behind a line, and a source that is left open: its text starts on the second line. -/
theorem compile_append_open :
    let first := "a\n\x7b\x7b b \x7d\x7d"
    let second := "\x7b\x7b c \x7d\x7d\n\x7b% if d %\x7d\x7b\x7b e \x7d\x7d" ++
      "\x7b% endif %\x7d\x7b\x7b"
    ∃ front back,
      (compile (Environment.create { strict := true } {}).1 first).result = .ok front ∧
      Token.EndsClosed first "a\n".toList true " b ".toList ∧
      (compile (Environment.create {} {}).1 second).result = .ok back ∧
      (compile (Environment.create {} {}).1 (first ++ second)).result =
        .ok ⟨front.nodes ++ back.nodes.map (Node.shifted first.toList), back.environment⟩ := by
  intro first second
  have hfirst :
      (compile (Environment.create { strict := true } {}).1 first).result.toOption.isSome := by
    decide +kernel
  have hsecond : (compile (Environment.create {} {}).1 second).result.toOption.isSome := by
    decide +kernel
  rcases Option.isSome_iff_exists.mp hfirst with ⟨front, hfront⟩
  rcases Option.isSome_iff_exists.mp hsecond with ⟨back, hback⟩
  -- What opens in the second source cannot have been opened by the first, which ends with a closed
  -- output.
  have hends : Token.EndsClosed first "a\n".toList true " b ".toList :=
    { eq := by decide
      accepted := ⟨_, Scan.scan_of_complete (.text (by decide)) true⟩
      seam := by decide
      closed := by decide
      unmarked := by decide
      ordinary := nofun }
  have hcompile := toOption_eq_some_iff.mp hfront
  have hcompile' := toOption_eq_some_iff.mp hback
  exact ⟨front, back, hcompile, hends, hcompile',
    compile_append {} first second front back _ true _ hcompile hends hcompile'⟩

end Template

end Liquid
