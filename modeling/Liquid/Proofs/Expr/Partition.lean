import Liquid.Proofs.Expr.Rule
import Liquid.Proofs.Expr.Word

/-!
# Sources in Pieces

A source is blanks, a word, blanks, a word, and so on. Its lexemes say where
each word starts, and the kind and the text of a lexeme say what stands there:
the text itself, or the text between quotes. So a source can be put together
again from its lexemes and the blanks, and no character is lost. What has no
lexemes is in pieces as well, up to a character that starts no word.

Which word is taken at a place depends on what stands behind it. With a blank
behind each word it does not, so that words with single blanks between them are
taken for themselves, whatever stood between them before.

## Main definitions

* `Lexeme.Raw`: How a word of each kind stands in a source.
* `Lexeme.Divides`: The pieces of a text up to a rest of it.
* `Lexeme.rawIn`: What stands in a source where a lexeme does.
* `Lexeme.Stuck`: No word starts here.
* `Lexeme.spaced`: Words with single blanks between them.

## Theorems

* `Lexeme.exists_of_extent?`, `Lexeme.extent?_ne_none`: A word is found exactly
  where one stands.
* `Lexeme.scanFrom_divides`: All that is scanned is in pieces.
* `Lexeme.Raw.starts`: Before a blank every word is taken for itself.
* `Lexeme.scan_partitions`: The lexemes of a source divide it, and with single
  blanks between the words they stay the same but for where they stand.
-/

namespace Liquid

namespace Lexeme

/-- How a word of each kind stands in a source. -/
inductive Raw : Kind → List Char → Prop
  | string {quote : Char} {text : List Char} :
      quote = '"' ∨ quote = '\'' → quote ∉ text → Raw .string (quote :: (text ++ [quote]))
  | number {kind : Kind} {raw : List Char} : Number kind raw → Raw kind raw
  | operator {raw : List Char} : raw ∈ operators → Raw .operator raw
  | symbol {raw : List Char} : raw ∈ symbols → Raw .symbol raw
  | name {raw : List Char} : IsName raw → Raw (nameKind (String.ofList raw)) raw

/-- The characters from the offset on are blanks, then a word, and so on, and then blanks and the
rest. The lexemes tell the kind, the text and the place of each word. -/
inductive Divides : Nat → List Char → List Lexeme → List (List Char) → List Char → Prop
  | nil {offset : Nat} {gap rest : List Char} :
      (∀ c ∈ gap, Text.isBlank c = true) → Divides offset (gap ++ rest) [] [] rest
  | cons {offset : Nat} {gap raw behind rest : List Char} {kind : Kind} {words : List Lexeme}
      {raws : List (List Char)} :
      (∀ c ∈ gap, Text.isBlank c = true) → Raw kind raw →
      Divides (offset + gap.length + raw.length) behind words raws rest →
      Divides offset (gap ++ (raw ++ behind))
        (⟨kind, textOf kind raw, offset + gap.length⟩ :: words) (raw :: raws) rest

/-- How many characters of its source the lexeme takes up. -/
def width (l : Lexeme) : Nat :=
  l.text.length + if l.kind = .string then 2 else 0

/-- What stands in the source where the lexeme does. -/
def rawIn (source : List Char) (l : Lexeme) : List Char :=
  (source.drop l.offset).take l.width

/-- No word starts here and no blank stands here. The fault depends on the character only: a quote
that starts no string has no other one behind it. -/
inductive Stuck : List Char → Fault → Prop
  | mk {c : Char} {after : List Char} :
      Text.isBlank c = false → (∀ kind raw, Raw kind raw → ¬raw <+: c :: after) →
      Stuck (c :: after)
        (if c = '"' ∨ c = '\'' then .unterminatedString else .unexpectedCharacter c)

/-- The words with a blank between each two of them. -/
def spaced (raws : List (List Char)) : List Char :=
  [' '].intercalate raws

/-- Whether nothing stands here, or a blank. -/
def Spaced (rest : List Char) : Prop :=
  ∀ c ∈ rest.head?, c = ' '

section Raw

variable {kind : Kind} {raw : List Char}

theorem Raw.ne_nil (h : Raw kind raw) : raw ≠ [] := by
  cases h with
  | string => exact List.cons_ne_nil _ _
  | number hnumber => exact hnumber.ne_nil
  | operator hraw =>
      rintro rfl
      exact absurd hraw (by decide)
  | symbol hraw =>
      rintro rfl
      exact absurd hraw (by decide)
  | name hname =>
      cases hname
      exact List.cons_ne_nil _ _

theorem Number.ne_string (h : Number kind raw) : kind ≠ .string := by
  rintro rfl
  cases h

theorem nameKind_ne_string (name : String) : nameKind name ≠ .string := by
  rcases nameKind_cases name with h | h <;> rw [h] <;> exact fun h => nomatch h

theorem textOf_of_ne_string (hkind : kind ≠ .string) : textOf kind raw = String.ofList raw := by
  cases kind with
  | string => exact absurd rfl hkind
  | _ => rfl

/-- The quotes of a string are not in its text, and all other words are their texts. -/
theorem Raw.width (h : Raw kind raw) (offset : Nat) :
    Lexeme.width ⟨kind, textOf kind raw, offset⟩ = raw.length := by
  have hother (hkind : kind ≠ .string) :
      Lexeme.width ⟨kind, textOf kind raw, offset⟩ = raw.length := by
    rw [textOf_of_ne_string hkind, Lexeme.width, if_neg hkind, String.length_ofList]
    rfl
  cases h with
  | string => simp [Lexeme.width, textOf]
  | number hnumber => exact hother hnumber.ne_string
  | operator => exact hother (by decide)
  | symbol => exact hother (by decide)
  | name => exact hother (nameKind_ne_string _)

end Raw

section Extent

variable {cs : List Char} {kind : Kind} {n : Nat}

/-- A string ends at the first quote that is like the one it starts with. -/
theorem exists_of_stringSpan? (h : stringSpan? cs = some n) :
    ∃ raw, raw <+: cs ∧ raw.length = n ∧ Raw .string raw := by
  cases cs with
  | nil => cases h
  | cons quote cs =>
      by_cases hspan : ((quote == '"' || quote == '\'') && cs.contains quote) = true
      case neg =>
        rw [stringSpan?, if_neg hspan] at h
        cases h
      simp only [Bool.and_eq_true, Bool.or_eq_true, beq_iff_eq, List.contains_iff_mem] at hspan
      -- The text ends where the quote stands again for the first time.
      rcases List.eq_append_cons_of_mem hspan.2 with ⟨text, after, rfl, htext⟩
      rw [stringSpan?_append hspan.1 htext] at h
      cases h
      exact ⟨quote :: (text ++ [quote]), ⟨after, by simp⟩, by simp, .string hspan.1 htext⟩

/-- A number is no longer than what it was found in. -/
theorem length_of_number? (h : number? cs = some (kind, n)) : (cs.take n).length = n := by
  rw [List.length_take, Nat.min_eq_left]
  by_contra hlong
  have hnumber := number_of_number? h
  rw [List.take_of_length_le (by omega)] at hnumber
  have hwhole := number?_append hnumber (stops_nil kind)
  rw [List.append_nil, h] at hwhole
  cases hwhole
  exact hlong (Nat.le_refl _)

/-- A name is no longer than what it was found in. -/
theorem length_of_nameSpan? (h : nameSpan? cs = some n) : (cs.take n).length = n := by
  rw [List.length_take, Nat.min_eq_left]
  by_contra hlong
  have hname := isName_of_nameSpan? h
  rw [List.take_of_length_le (by omega)] at hname
  cases hname with
  | mk hfirst hinside hmark =>
      have hwhole := @nameSpan?_append [] _ _ _ hfirst hinside hmark fun c hc => nomatch hc
      rw [List.append_nil, h] at hwhole
      cases hwhole
      simp only [List.length_cons, List.length_append] at hlong
      omega

/-- A symbol is one of the words that are looked for. -/
theorem exists_of_wordSpan? {words : List (List Char)} (h : wordSpan? words cs = some n) :
    ∃ raw ∈ words, raw <+: cs ∧ raw.length = n := by
  rcases Option.map_eq_some_iff.mp h with ⟨raw, hfind, hlength⟩
  have hprefix : raw.isPrefixOf cs = true :=
    List.find?_some (p := fun word : List Char => word.isPrefixOf cs) hfind
  exact ⟨raw, List.mem_of_find?_eq_some hfind, List.isPrefixOf_iff_prefix.mp hprefix, hlength⟩

/-- What is found at the start of a text is a word that stands there. -/
theorem exists_of_extent? (h : extent? cs = some (kind, n)) :
    ∃ raw, raw <+: cs ∧ raw.length = n ∧ Raw kind raw := by
  -- A kind of word after the other.
  cases word_of_extent? h with
  | string hspan => exact exists_of_stringSpan? hspan
  | number hnumber =>
      exact ⟨cs.take n, List.take_prefix n cs, length_of_number? hnumber,
        .number (number_of_number? hnumber)⟩
  | operator hspan =>
      rcases exists_of_wordSpan? hspan with ⟨raw, hraw, hprefix, hlength⟩
      exact ⟨raw, hprefix, hlength, .operator hraw⟩
  | symbol hspan =>
      rcases exists_of_wordSpan? hspan with ⟨raw, hraw, hprefix, hlength⟩
      exact ⟨raw, hprefix, hlength, .symbol hraw⟩
  | name hspan =>
      exact ⟨cs.take n, List.take_prefix n cs, length_of_nameSpan? hspan,
        .name (isName_of_nameSpan? hspan)⟩

/-- Where a word stands, one is found, though it need not be this one. -/
theorem extent?_ne_none {raw : List Char} (h : Raw kind raw) (behind : List Char) :
    extent? (raw ++ behind) ≠ none := by
  intro hnone
  simp only [extent?, Option.or_eq_none_iff, Option.map_eq_none_iff] at hnone
  rcases hnone with ⟨hstring, hnumber, hoperator, hsymbol, hname⟩
  -- Words from a list are found if one of them stands in front.
  have hword {words : List (List Char)} (hraw : raw ∈ words)
      (hspan : wordSpan? words (raw ++ behind) = none) : False := by
    rw [wordSpan?, Option.map_eq_none_iff, List.find?_eq_none] at hspan
    exact hspan raw hraw (List.isPrefixOf_iff_prefix.mpr (List.prefix_append raw behind))
  cases h with
  | string hquote htext =>
      rw [List.cons_append, List.append_assoc, List.singleton_append,
        stringSpan?_append hquote htext] at hstring
      cases hstring
  | number h => exact number?_ne_none h behind hnumber
  | operator hraw => exact hword hraw hoperator
  | symbol hraw => exact hword hraw hsymbol
  | name h =>
      rcases h.exists_start with ⟨first, others, rfl, hfirst⟩
      rw [List.cons_append, nameSpan?, if_pos hfirst] at hname
      cases hname

/-- Where no word is found, none stands. -/
theorem stuck_of_extent? {c : Char} {cs : List Char} (hblank : Text.isBlank c = false)
    (h : extent? (c :: cs) = none) :
    Stuck (c :: cs)
      (if c = '"' ∨ c = '\'' then .unterminatedString else .unexpectedCharacter c) := by
  refine .mk hblank fun kind raw hraw hprefix => ?_
  rcases hprefix with ⟨behind, hbehind⟩
  exact extent?_ne_none hraw behind (hbehind ▸ h)

end Extent

section Divides

variable {offset : Nat} {cs : List Char} {words : List Lexeme} {raws : List (List Char)}
  {rest : List Char}

/-- Nothing is in front of the rest. -/
theorem divides_nil (offset : Nat) (rest : List Char) : Divides offset rest [] [] rest :=
  @Divides.nil offset [] rest fun _ hc => nomatch hc

/-- A word stands right here. -/
theorem Divides.word {kind : Kind} {raw : List Char} (hraw : Raw kind raw)
    (h : Divides (offset + raw.length) cs words raws rest) :
    Divides offset (raw ++ cs) (⟨kind, textOf kind raw, offset⟩ :: words) (raw :: raws) rest :=
  @Divides.cons offset [] raw cs rest kind words raws (fun _ hc => nomatch hc) hraw h

/-- A blank in front belongs to the first gap. -/
theorem Divides.blank {c : Char} (hc : Text.isBlank c = true)
    (h : Divides (offset + 1) cs words raws rest) : Divides offset (c :: cs) words raws rest := by
  have hgap {gap : List Char} (hgap : ∀ d ∈ gap, Text.isBlank d = true) :
      ∀ d ∈ c :: gap, Text.isBlank d = true := by
    intro d hd
    rcases List.mem_cons.mp hd with rfl | hd
    · exact hc
    · exact hgap d hd
  -- The blank is added to the gap in front of the first word, or to the one at the end.
  cases h with
  | nil h => exact Divides.nil (hgap h)
  | @cons _ gap raw behind _ kind words raws h hraw hbehind =>
      have hlength : offset + 1 + gap.length = offset + (c :: gap).length := by
        rw [List.length_cons]
        omega
      rw [hlength] at hbehind ⊢
      exact Divides.cons (hgap h) hraw hbehind

/-- The lexemes are in order and apart, and none of them starts before the text does. -/
theorem Divides.ordered (h : Divides offset cs words raws rest) :
    (∀ l ∈ words, offset ≤ l.offset) ∧
      words.Pairwise fun l m => l.offset + l.width ≤ m.offset := by
  induction h with
  | nil => exact ⟨fun l hl => (nomatch hl), .nil⟩
  | @cons offset gap raw _ _ kind words _ _ hraw _ ih =>
      -- What is behind a word starts where the word ends.
      rcases ih with ⟨hstart, hpairs⟩
      refine ⟨fun l hl => ?_, .cons (fun m hm => ?_) hpairs⟩
      · rcases List.mem_cons.mp hl with rfl | hl
        · exact Nat.le_add_right _ _
        · have := hstart l hl
          omega
      · rw [hraw.width]
        exact hstart m hm

/-- The words stand in the source where the lexemes do. -/
theorem Divides.raws_eq (h : Divides offset cs words raws rest) (before : List Char)
    (hbefore : before.length = offset) : raws = words.map (rawIn (before ++ cs)) := by
  induction h generalizing before with
  | nil => rfl
  | @cons offset gap raw behind _ kind words raws _ hraw _ ih =>
      have hfirst : rawIn (before ++ (gap ++ (raw ++ behind)))
          ⟨kind, textOf kind raw, offset + gap.length⟩ = raw := by
        rw [rawIn, hraw.width, ← List.append_assoc before, ← hbefore, ← List.length_append,
          List.drop_left, List.take_left]
      have hothers := ih (before ++ (gap ++ raw))
        (by simp only [List.length_append, hbefore]; omega)
      rw [List.map_cons, hfirst, hothers]
      simp only [List.append_assoc]

/-- The words at the start of a text, up to its end or to where no word starts. -/
theorem scanFrom_divides (offset : Nat) (cs : List Char) :
    ∃ words raws rest, Divides offset cs words raws rest ∧
      (rest = [] ∧ scanFrom offset cs = .ok (words ++ [⟨.stop, "", offset + cs.length⟩]) ∨
        ∃ fault, scanFrom offset cs = .error fault ∧ Stuck rest fault) := by
  induction offset, cs using scanFrom.induct with
  | case1 offset =>
      refine ⟨[], [], [], divides_nil offset [], .inl ⟨rfl, ?_⟩⟩
      rw [scanFrom]
      rfl
  | case2 offset c cs hblank ih =>
      rcases ih with ⟨words, raws, rest, hdivides, hscan⟩
      refine ⟨words, raws, rest, hdivides.blank hblank, ?_⟩
      rwa [scanFrom, if_pos hblank, List.length_cons, Nat.add_comm cs.length, ← Nat.add_assoc]
  | case3 offset c cs hblank kind n hextent ih =>
      rcases exists_of_extent? hextent with ⟨raw, ⟨behind, hbehind⟩, rfl, hraw⟩
      cases raw with
      | nil => exact absurd rfl hraw.ne_nil
      | cons d raw =>
          rw [List.cons_append] at hbehind
          rcases List.cons.inj hbehind with ⟨rfl, rfl⟩
          simp only [List.length_cons, Nat.add_sub_cancel, List.drop_left] at ih
          rcases ih with ⟨words, raws, rest, hdivides, hscan⟩
          have hnext : offset + 1 + raw.length = offset + (d :: raw).length := by
            rw [List.length_cons]
            omega
          rw [Bool.not_eq_true] at hblank
          -- The blanks in front of the word were skipped before, so the gap is empty here.
          refine ⟨_, _, rest, Divides.word hraw (hnext ▸ hdivides), ?_⟩
          rw [scanFrom_of_extent? hblank hextent]
          rcases hscan with ⟨hrest, hscan⟩ | ⟨fault, hscan, hstuck⟩
          · left
            have hend : offset + 1 + raw.length + behind.length =
                offset + (d :: (raw ++ behind)).length := by
              simp only [List.length_cons, List.length_append]
              omega
            rw [hscan, hend]
            exact ⟨hrest, rfl⟩
          · exact .inr ⟨fault, by rw [hscan]; rfl, hstuck⟩
  | case4 offset c cs hblank hextent =>
      rw [Bool.not_eq_true] at hblank
      refine ⟨[], [], c :: cs, divides_nil offset (c :: cs),
        .inr ⟨_, ?_, stuck_of_extent? hblank hextent⟩⟩
      rw [scanFrom, hblank, hextent]
      simp

end Divides

section Spaced

variable {rest : List Char} {kind : Kind} {raw : List Char}

/-- A blank or the end closes every word. -/
theorem Spaced.closes (h : Spaced rest) : Closes rest where
  head c hc := by
    rw [h c hc]
    decide
  point after hafter := by
    subst hafter
    exact absurd (h '.' rfl) (by decide)

theorem Spaced.head?_ne (h : Spaced rest) {c : Char} (hc : c ≠ ' ') : rest.head? ≠ some c :=
  fun hhead => hc (h c hhead)

/-- Before a blank every word is taken for itself. -/
theorem Raw.starts (h : Raw kind raw) (hrest : Spaced rest) :
    Starts raw rest kind (textOf kind raw) := by
  -- A kind of word after the other, each closed by what is behind it.
  cases h with
  | @string quote text hquote htext =>
      have htextOf : textOf .string (quote :: (text ++ [quote])) = String.ofList text := by
        simp [textOf]
      rw [htextOf]
      exact starts_quoted hquote htext rest
  | number h =>
      rw [textOf_of_ne_string h.ne_string]
      exact starts_number h (hrest.closes.stops kind)
  | operator hraw =>
      exact starts_operator raw hraw ⟨hrest.head?_ne (by decide), hrest.head?_ne (by decide)⟩
  | symbol hraw =>
      by_cases hpoint : raw = ['.']
      · subst hpoint
        exact starts_point (hrest.head?_ne (by decide))
      · exact starts_symbol raw rest hraw hpoint
  | name h =>
      rw [textOf_of_ne_string (nameKind_ne_string _)]
      exact starts_name h hrest.closes.ends

/-- Behind the first of the words there is nothing, or a blank and the other words. -/
theorem exists_spaced_cons (raw : List Char) (raws : List (List Char)) :
    ∃ tail, spaced (raw :: raws) = raw ++ tail ∧ Spaced tail ∧
      ∀ offset, ∃ next, scanFrom offset tail = scanFrom next (spaced raws) := by
  cases raws with
  | nil =>
      exact ⟨[], by simp [spaced], fun c hc => (nomatch hc), fun offset => ⟨offset, rfl⟩⟩
  | cons second raws =>
      refine ⟨' ' :: spaced (second :: raws), ?_, fun c hc => ?_, fun offset => ⟨offset + 1, ?_⟩⟩
      · simp [spaced]
      · cases hc
        rfl
      · rw [scanFrom, if_pos (by decide)]

/-- Words with a blank between each two of them are read as the words again. -/
theorem Divides.scanFrom_spaced {offset : Nat} {cs : List Char} {words : List Lexeme}
    {raws : List (List Char)} (h : Divides offset cs words raws rest) (start : Nat) :
    ∃ lexemes stop, scanFrom start (spaced raws) = .ok (lexemes ++ [⟨.stop, "", stop⟩]) ∧
      lexemes.map unplaced = words.map unplaced := by
  induction h generalizing start with
  | nil =>
      refine ⟨[], start, ?_, rfl⟩
      change scanFrom start [] = _
      rw [scanFrom]
      rfl
  | @cons _ gap raw _ _ kind words raws _ hraw _ ih =>
      rcases exists_spaced_cons raw raws with ⟨tail, htail, hspaced, hskip⟩
      -- The first word is read at its new place, and then the blank behind it.
      rcases hraw.starts hspaced start with ⟨between, hfirst⟩
      rcases hskip between with ⟨next, hnext⟩
      rcases ih next with ⟨lexemes, stop, hothers, hsame⟩
      refine ⟨⟨kind, textOf kind raw, start⟩ :: lexemes, stop, ?_, ?_⟩
      · rw [htail, hfirst, hnext, hothers]
        rfl
      · rw [List.map_cons, List.map_cons, hsame]
        rfl

end Spaced

/-- The stop at the end is no part of an expression. -/
theorem body_of_scan {source : String} {words : List Lexeme} {stop : Lexeme}
    (h : scan source = .ok (words ++ [stop])) : body source = .ok words := by
  rw [body, h]
  simp only [List.dropLast_concat]

/-- The lexemes of a source divide it. The words of it stand where the lexemes say, in order and
apart, and there are only blanks between them and around them. If all of the source is divided in
that way the lexemes end at its length, and else there is a character, behind the words and blanks,
at which no word starts. The words with a blank between each two of them have lexemes of the same
kinds and texts, and so are the same expression. -/
theorem scan_partitions (source : String) :
    ∃ words raws rest, Divides 0 source.toList words raws rest ∧
      raws = words.map (rawIn source.toList) ∧
      (words.Pairwise fun l m => l.offset + l.width ≤ m.offset) ∧
      (rest = [] ∧ scan source = .ok (words ++ [⟨.stop, "", source.length⟩]) ∧
          (∃ lexemes stop, scan (String.ofList (spaced raws)) =
              .ok (lexemes ++ [⟨.stop, "", stop⟩]) ∧
            lexemes.map unplaced = words.map unplaced) ∧
          Expr.parse (String.ofList (spaced raws)) = Expr.parse source ∨
        ∃ fault, scan source = .error fault ∧ Stuck rest fault) := by
  rcases scanFrom_divides 0 source.toList with ⟨words, raws, rest, hdivides, hscan⟩
  refine ⟨words, raws, rest, hdivides, hdivides.raws_eq [] rfl, hdivides.ordered.2, ?_⟩
  -- Either all of the source is divided, or a character is left at which nothing starts.
  rcases hscan with ⟨hrest, hscan⟩ | hstuck
  · left
    rw [Nat.zero_add, String.length_toList] at hscan
    rcases hdivides.scanFrom_spaced 0 with ⟨lexemes, stop, hagain, hsame⟩
    have hagain' : scan (String.ofList (spaced raws)) = .ok (lexemes ++ [⟨.stop, "", stop⟩]) := by
      rw [scan, String.toList_ofList, hagain]
    exact ⟨hrest, hscan, ⟨lexemes, stop, hagain', hsame⟩,
      Expr.parse_congr (body_of_scan hagain') (body_of_scan hscan) hsame⟩
  · exact .inr hstuck

end Lexeme

end Liquid
