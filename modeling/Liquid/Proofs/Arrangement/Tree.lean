import Liquid.Proofs.Arrangement.Soundness
import Liquid.Proofs.Expr.Lexeme
import Liquid.Proofs.Tag.Section

/-!
# The Tree of a Template

Nothing is lost, doubled or moved between tokens and nodes. To say so, the
texts and outputs among the tokens are told with the blocks that they stand in,
by going over the tokens once and keeping only what the names of tags say: which
block is opened, divided or closed. What a tag is compiled into plays no part
in that. The leaves of the tree turn out to be the same, in the same order.

The one exception is written into the walk over the tokens: it shows nothing
that stands in the first section of a `case`.

## Main definitions

* `Frame`: A block around a point of the source.
* `Token.leaves`: The texts and outputs of tokens.

## Theorems

* `Arrangement.leaves_body`, `Arrangement.leaves_item`,
  `Arrangement.leaves_parts`: The leaves of derived tokens.
* `Arrangement.ofTokens_standard`: What the arranging of tokens is, for the
  language.
-/

namespace Liquid

/-- A block around a point: its tag, its position among its siblings, and the number of the
section that the point is in. -/
structure Frame where
  tag : Tag
  position : Nat
  part : Nat

/-- Whether what stands in the frame is dropped: it is before the first section that counts. -/
def Frame.drops (frame : Frame) : Bool :=
  frame.part < frame.tag.firstPart

/-- A point between tokens: the blocks around it, the innermost first, and the position in that of
what comes next. -/
structure Point where
  frames : List Frame
  position : Nat

namespace Point

/-- Outside of all blocks, before any token. -/
def start : Point := ⟨[], 0⟩

/-- The way to the point from the outermost block around it. -/
def trail (point : Point) : List (Nat × Nat) :=
  point.frames.reverse.map fun frame => (frame.position, frame.part)

/-- What is left of leaves at the point. -/
def shown (point : Point) (leaves : List Leaf) : List Leaf :=
  if point.frames.any Frame.drops then [] else leaves

/-- The point behind so many siblings. -/
def forward (point : Point) (count : Nat) : Point :=
  { point with position := point.position + count }

/-- The point behind a tag that neither closes nor divides the block that it stands in. -/
def behindOther (tags : Table Tag) (point : Point) (name : String) : Point :=
  match tags.get? name with
  | none => point.forward 1
  | some tag =>
    if tag.endName.isSome then ⟨⟨tag, point.position, 0⟩ :: point.frames, 0⟩ else point.forward 1

/-- The point behind a tag. -/
def behindTag (tags : Table Tag) (point : Point) (name : String) : Point :=
  match point.frames with
  | [] => point.behindOther tags name
  | frame :: frames =>
    if frame.tag.endName = some name then ⟨frames, frame.position + 1⟩
    else if name ∈ frame.tag.branchNames then ⟨{ frame with part := frame.part + 1 } :: frames, 0⟩
    else point.behindOther tags name

end Point

/-- The texts and outputs of tokens behind a point. -/
def Token.leaves (tags : Table Tag) : Point → List Token → List Leaf
  | _, [] => []
  | point, token :: tokens =>
    match token.content with
    | .text text =>
      point.shown [⟨point.trail, point.position, .text text⟩] ++
        leaves tags (point.forward 1) tokens
    | .output source =>
      point.shown [⟨point.trail, point.position, .output (Expr.parse source) token.place⟩] ++
        leaves tags (point.forward 1) tokens
    | .tag name _ => leaves tags (point.behindTag tags name) tokens

namespace Arrangement

section Leaves

variable {tags : Table Tag}

/-- Whether all blocks around a point are those of tags in the table. -/
def Within (tags : Table Tag) (point : Point) : Prop :=
  ∀ frame ∈ point.frames, ∃ name, tags.get? name = some frame.tag

/-- Points move forward along the nodes of one body. -/
theorem forward_forward (point : Point) (first second : Nat) :
    (point.forward first).forward second = point.forward (first + second) := by
  simp [Point.forward, Nat.add_assoc]

theorem shown_append (point : Point) (first second : List Leaf) :
    point.shown (first ++ second) = point.shown first ++ point.shown second := by
  unfold Point.shown
  split <;> rfl

/-- A tag of the table neither closes nor divides a block. -/
theorem behindTag_of_get? (hu : Unambiguous tags) {point : Point} (hw : Within tags point)
    {name : String} {tag : Tag} (hget : tags.get? name = some tag) :
    point.behindTag tags name = point.behindOther tags name := by
  rcases point with ⟨_ | ⟨frame, frames⟩, position⟩
  · rfl
  · -- Only the innermost block is asked, and what ends or divides it is no tag of the table.
    rcases hw frame List.mem_cons_self with ⟨key, hkey⟩
    unfold Point.behindTag
    simp only
    rw [if_neg (hu.apart_end hkey hget), if_neg (hu.apart_branch hkey hget)]

/-- A tag that stands alone makes one node, so the point moves behind it. -/
theorem behindTag_alone (hu : Unambiguous tags) {point : Point} (hw : Within tags point)
    {name : String} {tag : Tag} (hget : tags.get? name = some tag) (hend : tag.endName = none) :
    point.behindTag tags name = point.forward 1 := by
  rw [behindTag_of_get? hu hw hget]
  unfold Point.behindOther
  simp [hget, hend]

/-- The point at the start of a section of a block that stands at a point. -/
def sectionStart (point : Point) (tag : Tag) (part : Nat) : Point :=
  ⟨⟨tag, point.position, part⟩ :: point.frames, 0⟩

/-- Behind the tag that opens a block stands its first section. -/
theorem behindTag_open (hu : Unambiguous tags) {point : Point} (hw : Within tags point)
    {name close : String} {tag : Tag} (hget : tags.get? name = some tag)
    (hend : tag.endName = some close) :
    point.behindTag tags name = sectionStart point tag 0 := by
  rw [behindTag_of_get? hu hw hget]
  unfold Point.behindOther
  simp only [hget, hend, Option.isSome_some, if_true]
  rfl

/-- Behind a branch stands the next section of the same block, wherever the last one ended. -/
theorem behindTag_branch (hu : Unambiguous tags) {key : String} {tag : Tag}
    (hget : tags.get? key = some tag) (point : Point) (part count : Nat) {name : String}
    (hname : name ∈ tag.branchNames) :
    ((sectionStart point tag part).forward count).behindTag tags name =
      sectionStart point tag (part + 1) := by
  have hend : tag.endName ≠ some name := fun h => hu.end_not_branch hget h hname
  unfold sectionStart Point.forward Point.behindTag
  simp only
  rw [if_neg hend, if_pos hname]

/-- Behind the end of a block stands what follows it, wherever its last section ended. -/
theorem behindTag_close {tag : Tag} (point : Point) (part count : Nat) {name : String}
    (hname : tag.endName = some name) :
    ((sectionStart point tag part).forward count).behindTag tags name = point.forward 1 := by
  unfold sectionStart Point.forward Point.behindTag
  simp only
  rw [if_pos hname]

theorem within_sectionStart {point : Point} (h : Within tags point) {name : String} {tag : Tag}
    (hget : tags.get? name = some tag) (part : Nat) :
    Within tags (sectionStart point tag part) := by
  rintro frame (_ | ⟨_, hmem⟩)
  · exact ⟨name, hget⟩
  · exact h frame hmem

theorem trail_sectionStart (point : Point) (tag : Tag) (part : Nat) :
    (sectionStart point tag part).trail = point.trail ++ [(point.position, part)] := by
  simp [sectionStart, Point.trail]

/-- A section that the tag drops shows none of its leaves. -/
theorem shown_sectionStart (point : Point) (tag : Tag) (part : Nat) (leaves : List Leaf) :
    (sectionStart point tag part).shown leaves =
      point.shown (if part < tag.firstPart then [] else leaves) := by
  unfold sectionStart Point.shown
  by_cases hpart : part < tag.firstPart <;> simp [Frame.drops, hpart]

/-- The leaves of the sections that a tag keeps, from the one with a number on. -/
def leavesOfParts (tag : Tag) (trail : List (Nat × Nat)) (position part : Nat)
    (sections : List Section) : List Leaf :=
  Node.leavesOfBodies trail position (max part tag.firstPart)
    ((sections.drop (tag.firstPart - part)).map Section.body)

/-- The sections are numbered as the bodies of the node are, from the first that is kept. -/
theorem leavesOfParts_cons (tag : Tag) (trail : List (Nat × Nat)) (position part : Nat)
    (first : Section) (rest : List Section) :
    leavesOfParts tag trail position part (first :: rest) =
      (if part < tag.firstPart then []
        else Node.leavesOf (trail ++ [(position, part)]) 0 first.body) ++
      leavesOfParts tag trail position (part + 1) rest := by
  unfold leavesOfParts
  by_cases hpart : part < tag.firstPart
  · -- The section is one of those that are dropped, so one less is left to drop.
    have hsub : tag.firstPart - part = tag.firstPart - (part + 1) + 1 := by omega
    have hmax : max part tag.firstPart = max (part + 1) tag.firstPart := by omega
    rw [if_pos hpart, hsub, List.drop_succ_cons, hmax]
    rfl
  -- Nothing is left to drop, and the section comes first.
  · have hsub : tag.firstPart - part = 0 := by omega
    have hsub' : tag.firstPart - (part + 1) = 0 := by omega
    have hmax : max part tag.firstPart = part := by omega
    have hmax' : max (part + 1) tag.firstPart = part + 1 := by omega
    rw [if_neg hpart, hsub, hsub', hmax, hmax', List.drop_zero, List.drop_zero, List.map_cons,
      Node.leavesOfBodies]

theorem leavesOfParts_nil (tag : Tag) (trail : List (Nat × Nat)) (position part : Nat) :
    leavesOfParts tag trail position part [] = [] := by
  unfold leavesOfParts
  rw [List.drop_nil, List.map_nil, Node.leavesOfBodies]

/-- The leaves of a node are those of the sections that its tag keeps. -/
theorem leaves_of_keeps {tag : Tag} (hkeeps : tag.Keeps) {inLoop : Bool} {block : Block}
    {node : Node} (hfits : tag.Fits block.sections)
    (hnode : tag.compile inLoop block = .ok node) (trail : List (Nat × Nat)) (position : Nat) :
    node.leaves trail position = leavesOfParts tag trail position 0 block.sections := by
  rcases hkeeps hfits hnode with ⟨hcontent, hfirst, hbodies⟩
  rw [Node.leaves, hcontent, hfirst, hbodies]
  unfold leavesOfParts
  rw [Nat.zero_max, Nat.sub_zero]
  rfl

/-- A block of derived tokens is one that its tag can have. -/
theorem fits_of_parts {inLoop : Bool} {tag : Tag} {args : String} {offset : Nat} {place : Place}
    {inner : List Token} {sections : List Section}
    (h : Parts tags inLoop tag tag.name args offset place inner sections)
    (hend : tag.endName ≠ none) :
    tag.Fits sections := by
  rcases parts_shape h with ⟨body, others, rfl, hothers, hlast⟩
  exact ⟨hend, rfl, hothers, hlast⟩

mutual

/-- The leaves of a body are those of its nodes, each at its own place. -/
theorem leaves_body (hu : Unambiguous tags)
    (hkeeps : ∀ {name tag}, tags.get? name = some tag → tag.Keeps) {inLoop : Bool}
    {used : List Token} {nodes : List Node} (h : Body tags inLoop used nodes) (point : Point)
    (hw : Within tags point) (rest : List Token) :
    Token.leaves tags point (used ++ rest) =
      point.shown (Node.leavesOf point.trail point.position nodes) ++
        Token.leaves tags (point.forward nodes.length) rest := by
  match h with
  | .nil =>
      rw [Node.leavesOf]
      unfold Point.shown
      rw [ite_self]
      rfl
  | @Body.cons _ _ first others node nodes item body =>
      -- The node takes one position, and the others follow it.
      rw [List.append_assoc, leaves_item hu hkeeps item point hw,
        leaves_body hu hkeeps body (point.forward 1) hw, Node.leavesOf, shown_append,
        forward_forward, List.append_assoc, List.length_cons, Nat.add_comm 1]
      rfl

/-- The leaves of one node, and then what stands behind it. -/
theorem leaves_item (hu : Unambiguous tags)
    (hkeeps : ∀ {name tag}, tags.get? name = some tag → tag.Keeps) {inLoop : Bool}
    {used : List Token} {node : Node} (h : Item tags inLoop used node) (point : Point)
    (hw : Within tags point) (rest : List Token) :
    Token.leaves tags point (used ++ rest) =
      point.shown (node.leaves point.trail point.position) ++
        Token.leaves tags (point.forward 1) rest := by
  match h with
  | .text =>
      rw [Node.leaves_of_bodies_eq_nil rfl]
      rfl
  | .output hexpr =>
      rw [Node.leaves_of_bodies_eq_nil rfl]
      simp only [List.cons_append, List.nil_append, Token.leaves, hexpr]
      rfl
  | .alone hget hend hnode =>
      rcases @hkeeps _ _ hget _ ⟨_, _, _, _, [], []⟩ _ hend hnode with ⟨hcontent, _, hbodies⟩
      rw [List.drop_nil] at hbodies
      rw [Node.leaves_of_bodies_eq_nil hbodies, hcontent]
      simp only [List.cons_append, List.nil_append, Token.leaves, behindTag_alone hu hw hget hend]
      simp [Point.shown]
  | @Item.block _ _ tag name close args closeArgs offset closeOffset place closePlace inner
      sections _ hget hend parts hnode =>
      have hfits := fits_of_parts parts (by simp [hend])
      -- What the tag makes of its sections is left out: their leaves are those of the node.
      rw [leaves_of_keeps (hkeeps hget) hfits hnode,
        ← leaves_parts hu hkeeps parts hget hend point hw 0 closeArgs closeOffset closePlace rest]
      simp only [List.cons_append, List.nil_append, List.append_assoc, Token.leaves,
        behindTag_open hu hw hget hend]

/-- The leaves of a block from one of its sections on, up to the end of the block. -/
theorem leaves_parts (hu : Unambiguous tags)
    (hkeeps : ∀ {name tag}, tags.get? name = some tag → tag.Keeps) {inLoop : Bool} {tag : Tag}
    {name args : String} {offset : Nat} {place : Place} {inner : List Token}
    {sections : List Section} (h : Parts tags inLoop tag name args offset place inner sections)
    {key close : String}
    (hget : tags.get? key = some tag) (hend : tag.endName = some close) (point : Point)
    (hw : Within tags point) (part : Nat) (closeArgs : String) (closeOffset : Nat)
    (closePlace : Place) (rest : List Token) :
    Token.leaves tags (sectionStart point tag part)
        (inner ++ ⟨.tag close closeArgs, closeOffset, closePlace⟩ :: rest) =
      point.shown (leavesOfParts tag point.trail point.position part sections) ++
        Token.leaves tags (point.forward 1) rest := by
  have hw' : Within tags (sectionStart point tag part) := within_sectionStart hw hget part
  match h with
  | .last body =>
      -- The end of the block is the one tag that leads out of the section.
      rw [leaves_body hu hkeeps body _ hw', shown_sectionStart, trail_sectionStart,
        leavesOfParts_cons, leavesOfParts_nil, List.append_nil]
      simp only [Token.leaves, behindTag_close _ _ _ hend]
      rfl
  | .branch body hname hnext others =>
      rw [List.append_assoc, leaves_body hu hkeeps body _ hw', shown_sectionStart,
        trail_sectionStart, leavesOfParts_cons, shown_append, List.append_assoc,
        ← leaves_parts hu hkeeps others hget hend point hw (part + 1) closeArgs closeOffset
          closePlace rest]
      simp only [List.cons_append, Token.leaves, behindTag_branch hu hget _ _ _ hnext]
      rfl

end

end Leaves

/-- What arranging tokens comes to, with the tags of the language. The tokens that become nodes are
those of the grammar, with its nodes, and the leaves of the nodes are those of the tokens. The
loops of the grammar are `for` and `tablerow`; `break` and `continue` are accepted in the body of
one only, and no other tag asks where it stands. -/
theorem ofTokens_standard :
    (∀ tokens nodes,
      (∃ remarks, Node.ofTokens Environment.standard.tags tokens = .ok (nodes, remarks)) ↔
        Body Environment.standard.tags false tokens nodes) ∧
    (∀ tokens nodes remarks,
      Node.ofTokens Environment.standard.tags tokens = .ok (nodes, remarks) →
        Node.leavesOf [] 0 nodes = Token.leaves Environment.standard.tags .start tokens) ∧
    ∀ name tag, Environment.standard.tags.get? name = some tag →
      (tag.isLoop = true ↔ name = "for" ∨ name = "tablerow") ∧
      ∀ inLoop block node, tag.compile inLoop block = .ok node ↔
        tag.compile true block = .ok node ∧
          (name = "break" ∨ name = "continue" → inLoop = true) := by
  refine ⟨fun _ _ => ofTokens_eq_ok_iff standard_unambiguous, ?_, ?_⟩
  · intro tokens nodes remarks h
    have hleaves := leaves_body standard_unambiguous
      (fun hget => Tag.standard_keeps (standard_get? hget).1) (body_of_ofTokens h) .start
      (fun _ hframe => nomatch hframe) []
    -- A template has no tokens behind it, and no frame around it that could drop its leaves.
    rw [List.append_nil, Token.leaves, List.append_nil] at hleaves
    exact hleaves.symm
  · intro name tag hget
    rcases standard_get? hget with ⟨hmem, rfl⟩
    exact ⟨Tag.isLoop_iff hmem, fun _ _ _ => Tag.compile_eq_ok_iff_inLoop hmem⟩

/-- What stands before the first `when` is dropped, and what stands behind it is in its section. -/
theorem ofTokens_standard_case :
    let tags := Environment.standard.tags
    let tokens : List Token :=
      [⟨.tag "case" "x", 0, ⟨1, 1⟩⟩, ⟨.text "a", 12, ⟨1, 13⟩⟩, ⟨.tag "when" "1", 13, ⟨1, 14⟩⟩,
        ⟨.text "b", 25, ⟨1, 26⟩⟩, ⟨.output "x", 26, ⟨1, 27⟩⟩, ⟨.tag "endcase" "", 33, ⟨1, 34⟩⟩]
    (∃ nodes remarks, Node.ofTokens tags tokens = .ok (nodes, remarks)) ∧
      Token.leaves tags .start tokens =
        [⟨[(0, 1)], 0, .text "b"⟩, ⟨[(0, 1)], 1, .output (.ok (.path "x" [])) ⟨1, 27⟩⟩] := by
  intro tags tokens
  have hname : Lexeme.body "x" = .ok [⟨.identifier, "x", 0⟩] :=
    @Lexeme.body_of_extent? 'x' [] .identifier (by decide) (by decide)
  have hnumber : Lexeme.body "1" = .ok [⟨.integer, "1", 0⟩] :=
    @Lexeme.body_of_extent? '1' [] .integer (by decide) (by decide)
  have hparse : Expr.parse "x" = .ok (.path "x" []) := by
    rw [Expr.parse, Expr.parseWith, hname]
    rfl
  have hvalues : Block.readAll "1" (fun ls =>
      Parser.separated Tag.alternative? Parser.filteredValue (ls.length + 1) ls) =
        .ok [.literal (.integer 1)] := by
    rw [Block.readAll, hnumber]
    rfl
  have hkept : Body tags false ([⟨.text "b", 25, ⟨1, 26⟩⟩] ++ ([⟨.output "x", 26, ⟨1, 27⟩⟩] ++ []))
      [.text "b", .output (.path "x" []) ⟨1, 27⟩] :=
    .cons .text (.cons (.output hparse) .nil)
  -- What stands before the first branch of a case is read, but no node keeps it.
  have hdropped : Body tags false ([⟨.text "a", 12, ⟨1, 13⟩⟩] ++ []) [.text "a"] := .cons .text .nil
  have hparts : Parts tags false Tag.caseTag "case" "x" 0 ⟨1, 1⟩
      ([⟨.text "a", 12, ⟨1, 13⟩⟩] ++ ⟨.tag "when" "1", 13, ⟨1, 14⟩⟩ :: _) _ :=
    .branch hdropped (by decide) (by decide) (.last hkept)
  have hcase : Item tags false (⟨.tag "case" "x", 0, ⟨1, 1⟩⟩ ::
      (_ ++ [⟨.tag "endcase" "", 33, ⟨1, 34⟩⟩])) (.choice (.path "x" []) [⟨[.literal (.integer 1)],
        [.text "b", .output (.path "x" []) ⟨1, 27⟩]⟩] none ⟨1, 1⟩) :=
    .block rfl rfl hparts (bind_eq_ok_iff.mpr ⟨_, by rw [hparse]; rfl,
      bind_eq_ok_iff.mpr ⟨_, bind_eq_ok_iff.mpr ⟨_, hvalues, rfl⟩, rfl⟩⟩)
  rcases (ofTokens_standard.1 tokens _).mpr (.cons hcase .nil) with ⟨remarks, h⟩
  refine ⟨⟨_, remarks, h⟩, (ofTokens_standard.2.1 _ _ _ h).symm.trans ?_⟩
  simp [Node.leavesOf, Node.leaves, Node.leavesOfBodies, Node.content?, Node.bodies,
    Node.firstPart]

end Arrangement

end Liquid
