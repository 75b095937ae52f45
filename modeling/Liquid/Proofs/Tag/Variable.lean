import Liquid.Proofs.Expr.Path
import Liquid.Proofs.Node.Inside
import Liquid.Proofs.Text.Digit
import Liquid.Tag.Writing

/-!
# Names of Variables

Four tags write a variable, and one test says what each of them takes for a
name. Expressions have their own words for names, and of these only the keywords
are in the way: every other name that can be written is one word of an
expression, which is the variable of that name.

Three of the tags take the name between quotes as well. No quote is part of a
name and no blank either, so a name is left alone where quotes or blanks are
taken off.

## Main definitions

* `Tag.Accepted`: The names that can be written.

## Theorems

* `Tag.accepted_iff`: What all four tags accept.
* `Tag.nameOf_of_isName`, `Tag.assignment?_of_isName`: How the tags read a name.
* `Expr.parse_of_isName`: How an expression reads it.
-/

namespace Liquid

namespace Lexeme

/-- What starts a name may stand inside of one. -/
theorem continuesName_of_startsName {c : Char} (h : startsName c = true) :
    continuesName c = true := by
  change (decide (65 ≤ c.val ∧ c.val ≤ 90) || decide (97 ≤ c.val) && decide (c.val ≤ 122) ||
    c == '_') = true at h
  simp only [Bool.or_eq_true, Bool.and_eq_true, decide_eq_true_eq, beq_iff_eq] at h
  unfold continuesName Text.isWordChar Text.CharSet.has Text.alphanumerics
  have hpoint : c.toNat = c.val.toNat := rfl
  -- Three flips are before the capital letters, two more are before the small ones.
  rcases h with (⟨hfirst, hlast⟩ | ⟨hfirst, hlast⟩) | rfl
  · have hfirst' : 65 ≤ c.toNat := hfirst
    have hlast' : c.toNat ≤ 90 := hlast
    rw [Text.CharSet.inside_of_le (by omega), Text.CharSet.inside_of_le (by omega),
      Text.CharSet.inside_of_le (by omega), Text.CharSet.inside_of_lt (by omega)]
    simp
  · have hfirst' : 97 ≤ c.toNat := hfirst
    have hlast' : c.toNat ≤ 122 := hlast
    rw [Text.CharSet.inside_of_le (by omega), Text.CharSet.inside_of_le (by omega),
      Text.CharSet.inside_of_le (by omega), Text.CharSet.inside_of_le (by omega),
      Text.CharSet.inside_of_le (by omega), Text.CharSet.inside_of_lt (by omega)]
    simp
  · rfl

/-- A character of a name is neither a quote nor a blank. -/
theorem plain_of_continuesName {c : Char} (h : continuesName c = true) :
    Tag.isQuote c = false ∧ Text.isBlank c = false := by
  constructor
  · by_contra hquote
    rw [Bool.not_eq_false, Tag.isQuote, Bool.or_eq_true, beq_iff_eq, beq_iff_eq] at hquote
    rcases hquote with rfl | rfl
    · exact absurd h (by decide)
    · exact absurd h (by decide)
  · by_contra hblank
    rw [Bool.not_eq_false] at hblank
    rw [continuesName, Text.isWordChar_of_isBlank hblank, Bool.false_or, beq_iff_eq] at h
    subst h
    exact absurd hblank (by decide)

end Lexeme

namespace Tag

open Lexeme

section Name

variable {name : List Char}

theorem continuesName_of_isName (h : isName name = true) :
    name ≠ [] ∧ ∀ c ∈ name, continuesName c = true := by
  cases name with
  | nil => cases h
  | cons first inside =>
      rw [isName, Bool.and_eq_true, List.all_eq_true] at h
      refine ⟨List.cons_ne_nil first inside, fun c hc => ?_⟩
      rcases List.mem_cons.mp hc with rfl | hc
      · exact continuesName_of_startsName h.1
      · exact h.2 c hc

/-- Without quotes there is nothing to take off. -/
theorem unquoted_eq_self {cs : List Char} (h : ∀ c ∈ cs, isQuote c = false) : unquoted cs = cs := by
  have hkept {ds : List Char} (hds : ∀ c ∈ ds, isQuote c = false) : ds.dropWhile isQuote = ds := by
    cases ds with
    | nil => rfl
    | cons d ds => exact List.dropWhile_cons_of_neg (by simp [hds d List.mem_cons_self])
  -- The text is read from both ends, and there is a quote at neither.
  unfold unquoted
  rw [hkept h, hkept fun c hc => h c (List.mem_reverse.mp hc), List.reverse_reverse]

/-- The name that is written without quotes is the name. -/
theorem nameOf_of_isName {block : Block} (h : isName block.args.toList = true) :
    nameOf block = .ok block.args := by
  have hquote : ∀ c ∈ block.args.toList, isQuote c = false := fun c hc =>
    (plain_of_continuesName ((continuesName_of_isName h).2 c hc)).1
  unfold nameOf
  rw [unquoted_eq_self hquote]
  simp only [h, if_true, String.ofList_toList]

/-- What a tag takes for the name of a variable is a name. -/
theorem isName_of_nameOf {block : Block} {name : String} (h : nameOf block = .ok name) :
    isName name.toList = true := by
  unfold nameOf at h
  by_cases hname : isName (unquoted block.args.toList) = true
  · simp only [hname, if_true] at h
    cases h
    rwa [String.toList_ofList]
  · simp only [hname, Bool.false_eq_true, if_false] at h
    cases h

/-- A name, an equals sign between spaces, and a value, of which blanks in front are dropped. -/
theorem assignment?_of_isName (h : isName name = true) {value : List Char}
    (hvalue : Text.stripLeft value ≠ []) :
    assignment? (name ++ (" = ".toList ++ value)) = some (name, Text.stripLeft value) := by
  have hinside := (continuesName_of_isName h).2
  have hempty : (Text.stripLeft value).isEmpty = false := by simpa using hvalue
  have hbehind : Text.stripLeft (" = ".toList ++ value) = '=' :: ' ' :: value := by
    change Text.stripLeft (' ' :: '=' :: ' ' :: value) = _
    rw [Text.stripLeft_cons_blank (by decide)]
    exact List.dropWhile_cons_of_neg (by decide)
  unfold assignment?
  rw [List.takeWhile_append_of_pos hinside, List.dropWhile_append_of_pos hinside]
  -- A name goes on as far as it can, and the blank behind it ends it.
  have hstop : (" = ".toList ++ value).takeWhile continuesName = [] := rfl
  have hrest : (" = ".toList ++ value).dropWhile continuesName = " = ".toList ++ value := rfl
  simp only [hstop, hrest, hbehind, List.append_nil, h, Text.stripLeft_cons_blank
    (show Text.isBlank ' ' = true from rfl), hempty, Bool.not_false, Bool.and_self, if_true]

/-- What stands before the sign of an assignment is a name. -/
theorem isName_of_assignment? {cs value : List Char} (h : assignment? cs = some (name, value)) :
    isName name = true := by
  unfold assignment? at h
  dsimp only at h
  split at h
  · split at h
    · next hname =>
        cases h
        exact (Bool.and_eq_true _ _ ▸ hname).1
    · cases h
  · cases h

/-- An assignment writes the name that stands before the equals sign. -/
theorem compile_assign {inLoop : Bool} {block : Block} {value : List Char} {expr : Expr}
    (hparts : assignment? block.args.toList = some (name, value))
    (hparse : Expr.parseChain (String.ofList value) = .ok expr) :
    assignTag.compile inLoop block = .ok (.assign (String.ofList name) expr block.place) := by
  change compileAssign block = _
  unfold compileAssign
  rw [hparts]
  refine bind_eq_ok_iff.mpr ⟨expr, ?_, rfl⟩
  rw [hparse]
  rfl

end Name

/-- Whether a name is accepted where a variable is written: for some block, one of the tags that
write compiles to a node that writes the variable. -/
def Accepted (name : String) : Prop :=
  ∃ tag ∈ [assignTag, captureTag, incrementTag, decrementTag], ∃ inLoop block node,
    tag.compile inLoop block = .ok node ∧ node.target? = some name

/-- An assignment writes to the name that stands before its sign. -/
theorem isName_of_compileAssign {block : Block} {node : Node} {name : String}
    (h : compileAssign block = .ok node) (hname : node.target? = some name) :
    isName name.toList = true := by
  unfold compileAssign at h
  -- The target is the name in front of the sign.
  cases hparts : assignment? block.args.toList with
  | none => simp [hparts, Block.error] at h
  | some parts =>
      rcases parts with ⟨written, value⟩
      rw [hparts] at h
      rcases bind_eq_ok_iff.mp h with ⟨expr, _, h⟩
      cases h
      cases hname
      rw [String.toList_ofList]
      exact isName_of_assignment? hparts

/-- The four tags accept the same names. -/
theorem accepted_iff {name : String} : Accepted name ↔ isName name.toList = true := by
  constructor
  · rintro ⟨tag, htag, inLoop, block, node, hnode, hname⟩
    simp only [List.mem_cons, List.not_mem_nil, or_false] at htag
    rcases htag with rfl | rfl | rfl | rfl
    · exact isName_of_compileAssign hnode hname
    all_goals
      rcases map_eq_ok_iff.mp hnode with ⟨written, hwritten, rfl⟩
      cases hname
      exact isName_of_nameOf hwritten
  · intro h
    -- Of the tags that write, the shortest shows that every name is accepted.
    refine ⟨incrementTag, by simp, false, ⟨"increment", name, 0, .start, [], []⟩,
      .increment name, ?_, rfl⟩
    exact map_eq_ok_iff.mpr ⟨name, nameOf_of_isName h, rfl⟩

end Tag

namespace Expr

open Grammar (Logical)

/-- A name that can be written is the variable of that name, unless it is a keyword. -/
theorem parse_of_isName {name : String} (h : Tag.isName name.toList = true)
    (hkeyword : name ∉ Lexeme.keywords) : parse name = .ok (.path name []) := by
  have hname : Lexeme.IsName name.toList := by
    generalize name.toList = cs at h
    cases cs with
    | nil => cases h
    | cons first inside =>
        rw [Tag.isName, Bool.and_eq_true, List.all_eq_true] at h
        have hname := Lexeme.IsName.mk h.1 h.2 (.inl rfl)
        rwa [List.append_nil] at hname
  have hends : Lexeme.Ends [] := fun c hc => nomatch hc
  -- The name ends with the source, and is read as one lexeme, which is no keyword.
  have hstarts := Lexeme.starts_name hname hends
  rw [String.ofList_toList, Lexeme.nameKind_eq_identifier_iff.mpr hkeyword] at hstarts
  have hbody : Lexeme.body name = .ok [⟨.identifier, name, 0⟩] := by
    rcases hstarts 0 with ⟨next, hscan⟩
    rw [List.append_nil] at hscan
    rw [Lexeme.body, Lexeme.scan, hscan, Lexeme.scanFrom]
    rfl
  have hlogical : Logical [⟨.identifier, name, 0⟩] (.path name []) :=
    .mk (.one (.mk (.path rfl .nil) .nil)) .nil
  exact (Grammar.parse_eq_ok_iff hbody).mpr hlogical

end Expr

end Liquid
