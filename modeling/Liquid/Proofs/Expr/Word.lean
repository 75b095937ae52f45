import Liquid.Proofs.Expr.Number

/-!
# Words in a Source

Where a word of a source ends, when more of the source stands behind it. A word
is taken at its full length, so it is taken for itself only if what stands
behind could not be part of it: behind a name no character of a name and no
question mark, behind a point no other point, and behind digits no digit and no
point with a digit after it. The last of these is the only condition that looks
further than one character. A blank, a bracket or a mark that separates ends
every word, and so does a point with no digit after it.

## Main definitions

* `Lexeme.IsName`: The characters of a name.
* `Lexeme.Ends`: A name can end before these characters.
* `Lexeme.Closes`: Any word can end before these characters.
* `Lexeme.Starts`: A word that is the first lexeme of a text.
* `Lexeme.Spells`: A text with lexemes of which something holds, whatever closes it.

## Theorems

* `Lexeme.starts_name`, `Lexeme.starts_quoted`, `Lexeme.starts_symbol`,
  `Lexeme.starts_point`, `Lexeme.starts_number`: What each kind of word needs
  behind it.
* `Lexeme.Spells.append`, `Lexeme.Spells.cons`: Texts that are put together.
* `Lexeme.Spelled.isName`: A lexeme of the kind of a name is a name.
-/

namespace Liquid

namespace Lexeme

/-- The characters of a name. -/
inductive IsName : List Char → Prop
  | mk {first : Char} {inside mark : List Char} :
      startsName first = true → (∀ c ∈ inside, continuesName c = true) →
      mark = [] ∨ mark = ['?'] → IsName (first :: (inside ++ mark))

/-- Whether a name can end before the characters: none of them could be part of it. -/
def Ends (rest : List Char) : Prop :=
  ∀ c ∈ rest.head?, continuesName c = false ∧ c ≠ '?'

/-- The marks that end every word that stands in front of them. -/
def closers : List Char :=
  [' ', ',', ':', '[', ']', ')', '.']

/-- Whether any word can end before the characters: a mark stands there or nothing, and no point
that goes on with a digit. -/
structure Closes (rest : List Char) : Prop where
  head : ∀ c ∈ rest.head?, c ∈ closers
  point : ∀ after, rest = '.' :: after → ∀ c ∈ after.head?, Text.isDigit c = false

/-- The text of a lexeme of the kind that is spelled by the given characters. -/
def textOf (kind : Kind) (raw : List Char) : String :=
  match kind with
  | .string => String.ofList (raw.drop 1).dropLast
  | _ => String.ofList raw

/-- The word is the first lexeme of what starts with it, and the others are those of what stands
behind it. -/
def Starts (word rest : List Char) (kind : Kind) (text : String) : Prop :=
  ∀ offset, ∃ next,
    scanFrom offset (word ++ rest) = (scanFrom next rest).map (⟨kind, text, offset⟩ :: ·)

/-- Whether the text has lexemes of which the given holds, wherever it stands, if what is behind it
ends every word. -/
def Spells (holds : List Lexeme → Prop) (cs : List Char) : Prop :=
  ∀ rest, Closes rest → ∀ offset, ∃ ls next,
    scanFrom offset (cs ++ rest) = (scanFrom next rest).map (ls ++ ·) ∧ holds ls

/-- A word is read as one lexeme, and the rest from where it ends. -/
theorem scanFrom_of_extent? {c : Char} {cs rest : List Char} {kind : Kind}
    (hblank : Text.isBlank c = false)
    (hextent : extent? (c :: (cs ++ rest)) = some (kind, cs.length + 1)) (offset : Nat) :
    scanFrom offset (c :: (cs ++ rest)) =
      (scanFrom (offset + 1 + cs.length) rest).map (⟨kind, textOf kind (c :: cs), offset⟩ :: ·) := by
  have hspelled : spelled kind (c :: cs) offset = ⟨kind, textOf kind (c :: cs), offset⟩ := by
    cases kind <;> rfl
  rw [scanFrom, hblank, hextent, ← hspelled]
  simp only [Bool.false_eq_true, if_false, Nat.add_sub_cancel, List.drop_left, List.take_succ_cons,
    List.take_left]

theorem starts_of_extent? {c : Char} {cs rest : List Char} {kind : Kind}
    (hblank : Text.isBlank c = false)
    (hextent : extent? (c :: (cs ++ rest)) = some (kind, cs.length + 1)) :
    Starts (c :: cs) rest kind (textOf kind (c :: cs)) :=
  fun offset => ⟨_, scanFrom_of_extent? hblank hextent offset⟩

section Closes

variable {rest : List Char}

theorem closes_nil : Closes [] where
  head c hc := by cases hc
  point after hafter := by cases hafter

/-- A character that closes words does so whatever stands behind it. -/
theorem closes_cons {c : Char} (hc : c ∈ closers) (hpoint : c ≠ '.') (rest : List Char) :
    Closes (c :: rest) where
  head d hd := by
    cases hd
    exact hc
  point after hafter := by
    cases hafter
    exact absurd rfl hpoint

/-- A point closes a word unless a digit stands behind it. -/
theorem closes_point (h : ∀ c ∈ rest.head?, Text.isDigit c = false) : Closes ('.' :: rest) where
  head c hc := by
    cases hc
    decide
  point after hafter := by
    cases hafter
    exact h

/-- What closes words is no part of a name. -/
theorem ends_of_mem_closers (h : ∀ c ∈ rest.head?, c ∈ closers) : Ends rest := by
  intro c hc
  have hmem := h c hc
  simp only [closers, List.mem_cons, List.not_mem_nil, or_false] at hmem
  rcases hmem with rfl | rfl | rfl | rfl | rfl | rfl | rfl <;> decide

theorem not_isDigit_of_mem_closers (h : ∀ c ∈ rest.head?, c ∈ closers) :
    ∀ c ∈ rest.head?, Text.isDigit c = false := by
  intro c hc
  have hmem := h c hc
  simp only [closers, List.mem_cons, List.not_mem_nil, or_false] at hmem
  rcases hmem with rfl | rfl | rfl | rfl | rfl | rfl | rfl <;> decide

theorem Closes.ends (h : Closes rest) : Ends rest :=
  ends_of_mem_closers h.head

theorem Closes.stops (h : Closes rest) (kind : Kind) : Stops kind rest :=
  ⟨not_isDigit_of_mem_closers h.head, fun _ => h.point⟩

end Closes

section Start

/-- What starts a name lies between the first letter and the last. -/
theorem toNat_of_startsName {c : Char} (h : startsName c = true) :
    65 ≤ c.toNat ∧ c.toNat ≤ 122 := by
  change (decide (65 ≤ c.val ∧ c.val ≤ 90) || decide (97 ≤ c.val) && decide (c.val ≤ 122) ||
    c == '_') = true at h
  simp only [Bool.or_eq_true, Bool.and_eq_true, decide_eq_true_eq, beq_iff_eq] at h
  rcases h with (⟨hfirst, hlast⟩ | ⟨hfirst, hlast⟩) | rfl
  · exact ⟨hfirst, Nat.le_trans hlast (by decide)⟩
  · exact ⟨Nat.le_trans (by decide) hfirst, hlast⟩
  · decide

/-- A name starts with a character that starts no other word. -/
theorem start_of_startsName {c : Char} (h : startsName c = true) :
    Text.isBlank c = false ∧ Text.isDigit c = false ∧ c ∉ ['"', '\'', '-'] ∧
      ∀ word ∈ operators ++ symbols, ∃ d ∈ word.head?, d ≠ c := by
  rcases toNat_of_startsName h with ⟨hfirst, hlast⟩
  refine ⟨?_, ?_, ?_, fun word hword => ?_⟩
  -- Blanks and digits are given by ranges of characters, none of which holds a letter.
  · rw [Text.isBlank, Text.CharSet.has, Text.blanks, Text.CharSet.inside_of_le (by omega),
      Text.CharSet.inside_of_le (by omega), Text.CharSet.inside_of_le (by omega),
      Text.CharSet.inside_of_le (by omega), Text.CharSet.inside_of_lt (by omega)]
    rfl
  · rw [Text.isDigit, Text.CharSet.has, Text.digits, Text.CharSet.inside_of_le (by omega),
      Text.CharSet.inside_of_le (by omega), Text.CharSet.inside_of_lt (by omega)]
    rfl
  · intro hother
    simp only [List.mem_cons, List.not_mem_nil, or_false] at hother
    rcases hother with rfl | rfl | rfl
    · exact absurd h (by decide)
    · exact absurd h (by decide)
    · exact absurd h (by decide)
  · have hnone : ∀ word ∈ operators ++ symbols, word.head?.any (!startsName ·) = true := by decide
    rcases (Option.any_eq_true _ _).mp (hnone word hword) with ⟨d, hd, hstart⟩
    refine ⟨d, hd, fun heq => ?_⟩
    rw [heq, h] at hstart
    cases hstart

/-- A word is not found if none of them starts with the first character. -/
theorem wordSpan?_eq_none {words : List (List Char)} {c : Char} {cs : List Char}
    (h : ∀ word ∈ words, ∃ d ∈ word.head?, d ≠ c) : wordSpan? words (c :: cs) = none := by
  rw [wordSpan?, Option.map_eq_none_iff, List.find?_eq_none]
  intro word hword hprefix
  rcases h word hword with ⟨d, hd, hne⟩
  cases word with
  | nil => cases hd
  | cons e word =>
      cases hd
      rw [List.isPrefixOf, Bool.and_eq_true, beq_iff_eq] at hprefix
      exact hne hprefix.1

/-- A number starts with a digit or a sign. -/
theorem number?_eq_none {c : Char} {cs : List Char} (hdigit : Text.isDigit c = false)
    (hsign : c ≠ '-') : number? (c :: cs) = none := by
  have hhead : ((c :: cs).head? == some '-') = false := by simpa using hsign
  have hspan : digitSpan (c :: cs) = 0 := by
    rw [digitSpan, List.takeWhile_cons_of_neg (by simp [hdigit]), List.length_nil]
  simp only [number?, hhead, Bool.false_eq_true, if_false, List.drop_zero, hspan]
  rfl

end Start

section Kinds

variable {rest : List Char}

/-- A name ends where no character continues it. -/
theorem nameSpan?_append {first : Char} {inside mark : List Char} (hfirst : startsName first = true)
    (hinside : ∀ c ∈ inside, continuesName c = true) (hmark : mark = [] ∨ mark = ['?'])
    (hends : Ends rest) :
    nameSpan? (first :: (inside ++ (mark ++ rest))) = some (1 + inside.length + mark.length) := by
  -- Neither the mark at the end of a name nor what is behind continues it.
  have hstop : (mark ++ rest).takeWhile continuesName = [] := by
    rcases hmark with rfl | rfl
    · cases rest with
      | nil => rfl
      | cons c rest => exact List.takeWhile_cons_of_neg (by simp [(hends c rfl).1])
    · rfl
  have hspan : (inside ++ (mark ++ rest)).takeWhile continuesName = inside := by
    rw [List.takeWhile_append_of_pos hinside, hstop, List.append_nil]
  have hlength : (if (mark ++ rest).head? == some '?' then 1 else 0) = mark.length := by
    rcases hmark with rfl | rfl
    · cases rest with
      | nil => rfl
      | cons c rest => simp [(hends c rfl).2]
    · rfl
  simp only [nameSpan?, hfirst, if_true, hspan, List.drop_left, hlength]

/-- A name is one lexeme, a keyword if it is one of these. -/
theorem starts_name {name : List Char} (h : IsName name) (hends : Ends rest) :
    Starts name rest (nameKind (String.ofList name)) (String.ofList name) := by
  cases h with
  | @mk first inside mark hfirst hinside hmark =>
      rcases start_of_startsName hfirst with ⟨hblank, hdigit, hother, hwords⟩
      simp only [List.mem_cons, List.not_mem_nil, or_false, not_or] at hother
      have hstring (cs : List Char) : stringSpan? (first :: cs) = none := by
        simp [stringSpan?, hother.1, hother.2.1]
      have hlength : 1 + inside.length + mark.length = (inside ++ mark).length + 1 := by
        rw [List.length_append]
        omega
      -- No other kind of word starts as a name does, so a name is found.
      have hextent : extent? (first :: ((inside ++ mark) ++ rest)) =
          some (nameKind (String.ofList (first :: (inside ++ mark))),
            (inside ++ mark).length + 1) := by
        rw [extent?, hstring, number?_eq_none hdigit hother.2.2,
          wordSpan?_eq_none fun word hword => hwords word (List.mem_append_left _ hword),
          wordSpan?_eq_none fun word hword => hwords word (List.mem_append_right _ hword),
          List.append_assoc, nameSpan?_append hfirst hinside hmark hends, hlength,
          ← List.append_assoc]
        simp only [Option.map_none, Option.none_or, Option.map_some, List.take_succ_cons,
          List.take_left, List.contains_iff_mem]
        rfl
      have hstarts := starts_of_extent? hblank hextent
      rcases nameKind_cases (String.ofList (first :: (inside ++ mark))) with hkind | hkind <;>
        rw [hkind] at hstarts ⊢ <;> exact hstarts

theorem isPrefixOf_eq_false {c d : Char} (hrest : rest.head? ≠ some d) :
    [c, d].isPrefixOf (c :: rest) = false := by
  cases rest with
  | nil => simp [List.isPrefixOf]
  | cons e rest =>
      have hd : (d == e) = false := by
        simp only [beq_eq_false_iff_ne]
        rintro rfl
        exact hrest rfl
      simp [List.isPrefixOf, hd]

/-- A point is a symbol of its own, unless it is the first of two. -/
theorem starts_point (hrest : rest.head? ≠ some '.') : Starts ['.'] rest .symbol "." := by
  refine @starts_of_extent? '.' [] rest .symbol (by decide) ?_
  have hdots := isPrefixOf_eq_false (c := '.') hrest
  have hsymbol : wordSpan? symbols ('.' :: rest) = some 1 := by
    simp only [wordSpan?, symbols, String.reduceToList, List.find?_cons, hdots]
    rfl
  have hnumber : number? ('.' :: rest) = none := number?_eq_none (by decide) (by decide)
  simp only [List.nil_append, extent?, hnumber, hsymbol]
  rfl

theorem IsName.exists_start {name : List Char} (h : IsName name) :
    ∃ first others, name = first :: others ∧ startsName first = true := by
  cases h with
  | mk hfirst => exact ⟨_, _, rfl, hfirst⟩

/-- A name starts with no point. -/
theorem starts_point_name {name : List Char} (h : IsName name) (rest : List Char) :
    Starts ['.'] (name ++ rest) .symbol "." := by
  rcases h.exists_start with ⟨first, others, rfl, hfirst⟩
  refine starts_point fun hhead => ?_
  cases hhead
  exact absurd hfirst (by decide)

/-- A point in front of a name ends every word. -/
theorem closes_point_name {name : List Char} (h : IsName name) (rest : List Char) :
    Closes ('.' :: (name ++ rest)) := by
  rcases h.exists_start with ⟨first, others, rfl, hfirst⟩
  refine closes_point fun c hc => ?_
  cases hc
  exact (start_of_startsName hfirst).2.1

/-- All other punctuation is taken for itself, whatever stands behind it. -/
theorem starts_symbol (word rest : List Char) (hword : word ∈ symbols) (hpoint : word ≠ ['.']) :
    Starts word rest .symbol (String.ofList word) := by
  -- The two points are tried first, and no other sign starts with the sign of another.
  simp only [symbols, String.reduceToList, List.mem_cons, List.not_mem_nil, or_false] at hword
  rcases hword with rfl | rfl | rfl | rfl | rfl | rfl | rfl | rfl | rfl
  case inr.inr.inr.inr.inl => exact absurd rfl hpoint
  all_goals
    refine starts_of_extent? (by decide) ?_
    simp (disch := decide) only [List.nil_append, List.cons_append, extent?, number?_eq_none]
    rfl

/-- An operator is taken for itself where it is not the start of a longer one. -/
theorem starts_operator (word : List Char) (hword : word ∈ operators)
    (hrest : rest.head? ≠ some '=' ∧ rest.head? ≠ some '>') :
    Starts word rest .operator (String.ofList word) := by
  have hequals (c : Char) := isPrefixOf_eq_false (c := c) hrest.1
  have hgreater (c : Char) := isPrefixOf_eq_false (c := c) hrest.2
  simp only [operators, String.reduceToList, List.mem_cons, List.not_mem_nil, or_false] at hword
  rcases hword with rfl | rfl | rfl | rfl | rfl | rfl | rfl
  all_goals
    refine starts_of_extent? (by decide) ?_
    simp (disch := decide) only [List.nil_append, List.cons_append, extent?, number?_eq_none,
      wordSpan?, operators, String.reduceToList, List.find?_cons, hequals, hgreater]
    rfl

/-- A string ends at the first quote of its kind. -/
theorem stringSpan?_append {quote : Char} (hquote : quote = '"' ∨ quote = '\'') {text : List Char}
    (htext : quote ∉ text) (rest : List Char) :
    stringSpan? (quote :: (text ++ quote :: rest)) = some (text.length + 2) := by
  have hspan : (text ++ quote :: rest).takeWhile (· != quote) = text := by
    have hall : ∀ c ∈ text, (c != quote) = true := by
      intro c hc
      rw [bne_iff_ne]
      rintro rfl
      exact htext hc
    rw [List.takeWhile_append_of_pos hall, List.takeWhile_cons_of_neg (by simp), List.append_nil]
  simp [stringSpan?, hspan, hquote]

/-- A text without the quote that it stands between is one lexeme with it. -/
theorem starts_quoted {quote : Char} (hquote : quote = '"' ∨ quote = '\'') {text : List Char}
    (htext : quote ∉ text) (rest : List Char) :
    Starts (quote :: (text ++ [quote])) rest .string (String.ofList text) := by
  have hextent : extent? (quote :: ((text ++ [quote]) ++ rest)) =
      some (.string, (text ++ [quote]).length + 1) := by
    rw [List.append_assoc, List.singleton_append, extent?, stringSpan?_append hquote htext rest,
      List.length_append]
    rfl
  have hblank : Text.isBlank quote = false := by
    rcases hquote with rfl | rfl <;> decide
  have hstarts := starts_of_extent? hblank hextent
  rwa [textOf, List.drop_one, List.tail_cons, List.dropLast_concat] at hstarts

/-- A number is read as one lexeme if it stops. -/
theorem starts_number {kind : Kind} {word : List Char} (h : Number kind word)
    (hrest : Stops kind rest) : Starts word rest kind (String.ofList word) := by
  have hextent := extent?_append h hrest
  have hkind : textOf kind word = String.ofList word := by
    cases h <;> rfl
  cases word with
  | nil => exact absurd rfl h.ne_nil
  | cons c cs =>
      rw [← hkind]
      exact starts_of_extent? (h.isBlank c List.mem_cons_self) hextent

end Kinds

section Spelled

/-- What is found as a name is one. -/
theorem isName_of_nameSpan? {cs : List Char} {n : Nat} (h : nameSpan? cs = some n) :
    IsName (cs.take n) := by
  cases cs with
  | nil => cases h
  | cons first cs =>
      by_cases hfirst : startsName first = true
      case neg => simp [nameSpan?, hfirst] at h
      have hsplit := List.takeWhile_append_dropWhile (p := continuesName) (l := cs)
      have hinside : ∀ c ∈ cs.takeWhile continuesName, continuesName c = true :=
        fun c => List.mem_takeWhile_imp
      simp only [nameSpan?, hfirst, if_true, Option.some.injEq] at h
      generalize cs.takeWhile continuesName = inside at hsplit hinside h
      generalize cs.dropWhile continuesName = rest at hsplit
      subst hsplit
      rw [List.drop_left] at h
      subst h
      rw [Nat.add_assoc, Nat.add_comm 1, List.take_succ_cons, List.take_length_add_append]
      refine .mk hfirst hinside ?_
      -- A question mark is part of the name if it stands right behind.
      cases rest with
      | nil => exact .inl (by simp)
      | cons c rest =>
          by_cases hc : c = '?'
          · exact .inr (by simp [hc])
          · exact .inl (by simp [hc])

theorem isName_of_mem_keywords {word : String} (h : word ∈ keywords) : IsName word.toList := by
  have hspan : ∀ word ∈ keywords, nameSpan? word.toList = some word.toList.length := by decide
  have hname := isName_of_nameSpan? (hspan word h)
  rwa [List.take_length] at hname

/-- A lexeme of the kind of a name is a name, and no keyword. -/
theorem Spelled.isName {l : Lexeme} (h : Spelled l) (hkind : l.kind = .identifier) :
    IsName l.text.toList ∧ nameKind l.text = .identifier := by
  rcases h with ⟨cs, kind, n, offset, hextent, rfl⟩
  rw [kind_spelled] at hkind
  have hne : kind ≠ .string := by
    rintro rfl
    cases hkind
  rw [text_spelled hne, String.toList_ofList]
  -- A lexeme that is an identifier was found as a name.
  cases word_of_extent? hextent with
  | name hspan => exact ⟨isName_of_nameSpan? hspan, hkind⟩
  | number hnumber =>
      subst hkind
      cases number_of_number? hnumber
  | _ => cases hkind

end Spelled

section Spells

variable {holds holds' behind : List Lexeme → Prop} {cs ds : List Char}

theorem spells_nil (h : holds []) : Spells holds [] := by
  intro rest _ offset
  refine ⟨[], offset, ?_, h⟩
  rw [List.nil_append]
  cases scanFrom offset rest <;> rfl

/-- What holds of all that is spelled may be weakened. -/
theorem Spells.mono (hspells : Spells holds cs) (h : ∀ ls, holds ls → holds' ls) :
    Spells holds' cs := by
  intro rest hrest offset
  rcases hspells rest hrest offset with ⟨ls, next, hls, hholds⟩
  exact ⟨ls, next, hls, h ls hholds⟩

/-- The second text ends the words of the first and leaves its own to what is behind it. -/
theorem Spells.append (hfirst : Spells holds cs)
    (hcloses : ∀ rest, Closes rest → Closes (ds ++ rest))
    (hsecond : ∀ ls, holds ls → Spells (fun ms => behind (ls ++ ms)) ds) :
    Spells behind (cs ++ ds) := by
  intro rest hrest offset
  rcases hfirst (ds ++ rest) (hcloses rest hrest) offset with ⟨ls, between, hls, hholds⟩
  rcases hsecond ls hholds rest hrest between with ⟨ms, next, hms, hbehind⟩
  refine ⟨ls ++ ms, next, ?_, hbehind⟩
  rw [List.append_assoc, hls, hms]
  cases scanFrom next rest with
  | error fault => rfl
  | ok others => exact congrArg Except.ok (List.append_assoc ls ms others).symm

/-- A word at the start of a text is its first lexeme. -/
theorem Spells.cons {word : List Char} {kind : Kind} {text : String}
    (hword : ∀ rest, Closes rest → Starts word (cs ++ rest) kind text)
    (hcs : Spells (fun ls => ∀ l : Lexeme, l.kind = kind → l.text = text → holds (l :: ls)) cs) :
    Spells holds (word ++ cs) := by
  intro rest hrest offset
  rcases hword rest hrest offset with ⟨between, hbetween⟩
  rcases hcs rest hrest between with ⟨ls, next, hls, hholds⟩
  refine ⟨⟨kind, text, offset⟩ :: ls, next, ?_, hholds _ rfl rfl⟩
  rw [List.append_assoc, hbetween, hls]
  cases scanFrom next rest <;> rfl

/-- One word is spelled by itself. -/
theorem spells_word {word : List Char} {kind : Kind} {text : String}
    (hword : ∀ rest, Closes rest → Starts word rest kind text)
    (h : ∀ l : Lexeme, l.kind = kind → l.text = text → holds [l]) : Spells holds word := by
  rw [← List.append_nil word]
  exact Spells.cons hword (spells_nil h)

/-- A symbol is spelled in front of anything, but for the point. -/
theorem spells_symbol (word : List Char) (hword : word ∈ symbols) (hpoint : word ≠ ['.'])
    (hcs : Spells (fun ls => ∀ l : Lexeme, l.IsSymbol (String.ofList word) → holds (l :: ls)) cs) :
    Spells holds (word ++ cs) :=
  Spells.cons (fun rest _ => starts_symbol word (cs ++ rest) hword hpoint)
    (hcs.mono fun _ h l hkind htext => h l ⟨hkind, htext⟩)

/-- A name is spelled in front of what closes it. -/
theorem spells_name {name : String} {kind : Kind} (hname : IsName name.toList)
    (hkind : nameKind name = kind) (hcloses : ∀ rest, Closes rest → Closes (cs ++ rest))
    (hcs : Spells (fun ls => ∀ l : Lexeme, l.kind = kind → l.text = name → holds (l :: ls)) cs) :
    Spells holds (name.toList ++ cs) := by
  refine Spells.cons (fun rest hrest => ?_) hcs
  have hstarts := starts_name hname (hcloses rest hrest).ends
  rwa [String.ofList_toList, hkind] at hstarts

theorem spells_lone_symbol (word : List Char) (hword : word ∈ symbols) (hpoint : word ≠ ['.'])
    (h : ∀ l : Lexeme, l.IsSymbol (String.ofList word) → holds [l]) : Spells holds word :=
  spells_word (fun rest _ => starts_symbol word rest hword hpoint)
    fun l hkind htext => h l ⟨hkind, htext⟩

theorem spells_lone_name {name : String} {kind : Kind} (hname : IsName name.toList)
    (hkind : nameKind name = kind)
    (h : ∀ l : Lexeme, l.kind = kind → l.text = name → holds [l]) : Spells holds name.toList := by
  rw [← List.append_nil name.toList]
  exact spells_name hname hkind (fun _ hrest => hrest) (spells_nil h)

/-- A blank in front of a text is skipped. -/
theorem Spells.blank (hcs : Spells holds cs) : Spells holds (' ' :: cs) := by
  intro rest hrest offset
  rcases hcs rest hrest (offset + 1) with ⟨ls, next, hls, hholds⟩
  refine ⟨ls, next, ?_, hholds⟩
  rw [List.cons_append, scanFrom, if_pos (by decide), hls]

end Spells

end Lexeme

end Liquid
