/-!
# Removing Markup

A text without its HTML tags. First the blocks go whose content is no text:
scripts, style sheets and comments, each from its opening to the nearest
closing. Then every tag goes, from its opening bracket to the nearest closing
one. A block or tag that is never closed stays.

The names of blocks are read without regard to case. That includes three
letters outside ASCII: the long s, the dotted capital i and the dotless
small i.

## Main definitions

* `isLetter`: Whether a character is a letter in one of its cases.
* `blockEnd?`: The text behind the block that starts a text.
* `dropBlocks`, `dropTags`: The two steps.
* `stripTags`: A text without its tags.

## Theorems

* `length_blockEnd?_lt`: A block is never empty.
-/

namespace Liquid

namespace Html

/-- Whether the character is the letter, in either case, or a letter that casing takes for it. -/
def isLetter (letter c : Char) : Bool :=
  c.toLower == letter || (letter == 's' && c == 'ſ') || (letter == 'i' && (c == 'İ' || c == 'ı'))

/-- What follows the name at the start of the text, read without regard to case. -/
def afterName? : List Char → List Char → Option (List Char)
  | [], cs => some cs
  | _ :: _, [] => none
  | letter :: name, c :: cs => if isLetter letter c then afterName? name cs else none

/-- What follows the first occurrence of the name, read without regard to case. -/
def afterFirst? (name : List Char) : List Char → Option (List Char)
  | [] => afterName? name []
  | c :: cs => (afterName? name (c :: cs)).or (afterFirst? name cs)

/-- The openings and closings of the blocks whose content is no text. -/
def blocks : List (List Char × List Char) :=
  [("<script".toList, "</script>".toList), ("<style".toList, "</style>".toList),
    ("<!--".toList, "-->".toList)]

/-- The text behind the block that the text starts with. -/
def blockEnd? (cs : List Char) : Option (List Char) :=
  blocks.findSome? fun (opening, closing) => (afterName? opening cs).bind (afterFirst? closing)

theorem length_afterName? {name cs rest : List Char} (h : afterName? name cs = some rest) :
    rest.length + name.length = cs.length := by
  fun_induction afterName? name cs with
  | case1 => simp_all
  | case2 => simp at h
  | case3 letter name c cs _ ih =>
    have := ih h
    simp only [List.length_cons]
    omega
  | case4 => simp at h

theorem length_afterFirst?_le {name cs rest : List Char} (h : afterFirst? name cs = some rest) :
    rest.length ≤ cs.length := by
  induction cs with
  | nil =>
    have hname : afterName? name [] = some rest := by simpa [afterFirst?] using h
    have := length_afterName? hname
    omega
  | cons c cs ih =>
    rw [afterFirst?, Option.or_eq_some_iff] at h
    cases h with
    | inl h => have := length_afterName? h; omega
    | inr h => have := ih h.2; simp; omega

theorem length_blockEnd?_lt {cs rest : List Char} (h : blockEnd? cs = some rest) :
    rest.length < cs.length := by
  obtain ⟨⟨opening, closing⟩, hmem, hend⟩ := List.exists_of_findSome?_eq_some h
  obtain ⟨after, hafter, hrest⟩ := Option.bind_eq_some_iff.1 hend
  have hlen := length_afterName? hafter
  have hle := length_afterFirst?_le hrest
  have hpos : 0 < opening.length := by
    simp only [blocks, List.mem_cons, Prod.mk.injEq, List.not_mem_nil, or_false] at hmem
    rcases hmem with ⟨rfl, -⟩ | ⟨rfl, -⟩ | ⟨rfl, -⟩ <;> decide
  omega

/-- The text without scripts, style sheets and comments. -/
def dropBlocks : List Char → List Char
  | [] => []
  | c :: cs =>
    match _h : blockEnd? (c :: cs) with
    | some rest => dropBlocks rest
    | none => c :: dropBlocks cs
termination_by cs => cs.length
decreasing_by
  · exact length_blockEnd?_lt _h
  · simp

/-- The text without everything between an opening bracket and the nearest closing one. -/
def dropTags : List Char → List Char
  | [] => []
  | c :: cs =>
    if c == '<' && cs.contains '>' then dropTags ((cs.dropWhile (· != '>')).drop 1)
    else c :: dropTags cs
termination_by cs => cs.length
decreasing_by
  · have := (List.dropWhile_suffix (l := cs) (· != '>')).length_le
    simp only [List.length_drop, List.length_cons]
    omega
  · simp

/-- The text without its tags. -/
def stripTags (cs : List Char) : List Char :=
  dropTags (dropBlocks cs)

end Html

end Liquid
