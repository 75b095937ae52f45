import Liquid.Proofs.Expr.Completeness
import Liquid.Proofs.Tag.Bound

/-!
# The Grammar of Loop Headers

What may stand between the name of a loop and the end of its tag:

    header   = NAME "in" primary modifier*
    modifier = "," | "reversed" | NAME ":" primary

The commas mean nothing. Of two modifiers about one thing the later counts. If
there are no two such, the order says nothing either: what is looked up in a
header is whether a modifier stands in it.

Where a primary ends is never in doubt, because no modifier starts with a point
or a bracket.

## Main definitions

* `Lexeme.IsWord`: A lexeme that is the given word.
* `Tag.Modifier`: What stands behind the collection.
* `Grammar.Modifiers`, `Grammar.LoopHeader`: The rules.

## Theorems

* `Tag.parameters_complete`, `Tag.parameters_sound`: What is read as modifiers.
* `Tag.header_eq_ok_iff`: What is read as a header.
* `Tag.selection_of_perm`: Modifiers in another order.
-/

namespace Liquid

/-- Whether a lexeme is the given word, be it a keyword or a name. -/
def Lexeme.IsWord (word : String) (l : Lexeme) : Prop :=
  (l.kind = .keyword ∨ l.kind = .identifier) ∧ l.text = word

instance (word : String) (l : Lexeme) : Decidable (l.IsWord word) :=
  inferInstanceAs (Decidable (_ ∧ _))

namespace Tag

/-- What stands behind the collection of a loop. -/
inductive Modifier
  | reversed
  | parameter (name : String) (value : Expr)

namespace Modifier

/-- What the modifier is about. -/
def key : Modifier → String
  | reversed => "reversed"
  | parameter name _ => name

/-- A header with one more modifier. -/
def applied (header : Header) : Modifier → Header
  | reversed => { header with reversed := true }
  | parameter name value => { header with parameters := header.parameters.put name value }

end Modifier

end Tag

namespace Grammar

open Tag (Modifier)

/-- Modifiers, with commas anywhere. -/
inductive Modifiers (known : List String) : List Lexeme → List Modifier → Prop
  | nil : Modifiers known [] []
  | comma {comma : Lexeme} {rest : List Lexeme} {modifiers : List Modifier} :
      comma.IsSymbol "," → Modifiers known rest modifiers →
      Modifiers known (comma :: rest) modifiers
  | reversed {word : Lexeme} {rest : List Lexeme} {modifiers : List Modifier} :
      word.IsWord "reversed" → Modifiers known rest modifiers →
      Modifiers known (word :: rest) (.reversed :: modifiers)
  | parameter {name colon : Lexeme} {used rest : List Lexeme} {value : Expr}
      {modifiers : List Modifier} :
      name.kind = .identifier → name.text ≠ "reversed" → name.text ∈ known →
      colon.IsSymbol ":" → Primary used value → Modifiers known rest modifiers →
      Modifiers known (name :: colon :: (used ++ rest)) (.parameter name.text value :: modifiers)

/-- The header of a loop with a variable, a collection and modifiers. -/
inductive LoopHeader (known : List String) :
    List Lexeme → String → Expr → List Modifier → Prop
  | mk {name word : Lexeme} {used rest : List Lexeme} {collection : Expr}
      {modifiers : List Modifier} :
      name.kind = .identifier → word.IsWord "in" → Primary used collection →
      Modifiers known rest modifiers →
      LoopHeader known (name :: word :: (used ++ rest)) name.text collection modifiers

end Grammar

namespace Parser

/-- A word is read if it is the first lexeme. -/
theorem word?_cons (word : String) (l : Lexeme) (ls : List Lexeme) :
    word? word (l :: ls) = if l.IsWord word then some ls else none := by
  rw [word?]
  simp only [Bool.and_eq_true, Bool.or_eq_true, beq_iff_eq]
  rfl

/-- A word is read off the front of the lexemes, and only there. -/
theorem word?_eq_some_iff {word : String} {ls rest : List Lexeme} :
    word? word ls = some rest ↔ ∃ l, l.IsWord word ∧ ls = l :: rest := by
  cases ls with
  | nil => simp [word?]
  | cons l ls =>
      rw [word?_cons]
      -- The first lexeme decides.
      by_cases hl : l.IsWord word
      · rw [if_pos hl]
        constructor
        · intro h
          cases h
          exact ⟨l, hl, rfl⟩
        · rintro ⟨_, _, heq⟩
          cases heq
          rfl
      · rw [if_neg hl]
        constructor
        · intro h
          cases h
        · rintro ⟨_, hword, heq⟩
          cases heq
          exact absurd hword hl

/-- A word is no punctuation. -/
theorem free_of_isWord {symbols : List String} {word : String} {l : Lexeme} {rest : List Lexeme}
    (h : l.IsWord word) : Grammar.Free symbols (l :: rest) := by
  refine Grammar.free_of_kind_ne fun hkind => ?_
  rcases h.1 with hword | hword <;> simp [hword] at hkind

end Parser

namespace Tag

open Grammar (Free LoopHeader Modifiers Primary)

section Modifiers

variable {block : Block} {known : List String}

/-- No modifier goes on with what stands in front of it. -/
theorem free_modifiers {ls : List Lexeme} {modifiers : List Modifier}
    (h : Modifiers known ls modifiers) : Free [".", "["] ls := by
  cases h with
  | nil => exact Grammar.free_nil
  | comma hcomma _ => exact Grammar.free_of_isSymbol hcomma (by decide)
  | reversed hword _ => exact Parser.free_of_isWord hword
  | parameter hname _ _ _ _ _ =>
      exact Grammar.free_of_kind_ne fun hkind => by simp [hname] at hkind

/-- The value in front of modifiers is read. -/
theorem value_of_primary {used ls : List Lexeme} {value : Expr} {modifiers : List Modifier}
    (hvalue : Primary used value) (hrest : Modifiers known ls modifiers) :
    Parser.value (used ++ ls) = .ok (value, ls) := by
  have hdepth : used.length ≤ (used ++ ls).length := by simp
  exact Grammar.primary_complete hvalue hdepth (free_modifiers hrest)

/-- A word is not read as a comma. -/
theorem symbol?_of_isWord {symbol word : String} {l : Lexeme} (h : l.IsWord word)
    (ls : List Lexeme) : Parser.symbol? symbol (l :: ls) = none :=
  Parser.free_of_isWord h symbol (List.mem_singleton.mpr rfl)

/-- A name with a value is read as a parameter, if it is one of those that are known. -/
theorem parameters_named {name colon : Lexeme} {ls behind : List Lexeme} {value : Expr}
    (hname : name.kind = .identifier) (hne : name.text ≠ "reversed") (hknown : name.text ∈ known)
    (hcolon : colon.IsSymbol ":") (hvalue : Parser.value ls = .ok (value, behind)) (rounds : Nat)
    (header : Header) :
    parameters block known (rounds + 1) header (name :: colon :: ls) =
      parameters block known rounds
        { header with parameters := header.parameters.put name.text value } behind := by
  -- The first lexeme is a name, so it is neither a comma nor the word that reverses.
  have hcomma : Parser.symbol? "," (name :: colon :: ls) = none :=
    @symbol?_of_isWord "," name.text name ⟨.inr hname, rfl⟩ _
  have hword : Parser.word? "reversed" (name :: colon :: ls) = none := by
    rw [Parser.word?_cons, if_neg fun h => hne h.2]
  have hsymbol : Parser.symbol? ":" (colon :: ls) = some ls := Grammar.symbol?_of_isSymbol hcolon
  rw [parameters, hcomma, hword]
  dsimp only
  rw [Grammar.identifier_of_kind hname]
  change (if (!known.contains name.text) = true then _ else _) = _
  rw [List.contains_iff_mem.mpr hknown, Bool.not_true, if_neg Bool.false_ne_true, hsymbol]
  dsimp only
  rw [hvalue]
  rfl

/-- What is read as a parameter is a name that is known with a value. -/
theorem named_of_parameters {l : Lexeme} {ls : List Lexeme} {rounds : Nat} {header result : Header}
    (hcomma : Parser.symbol? "," (l :: ls) = none)
    (hreversed : Parser.word? "reversed" (l :: ls) = none)
    (h : parameters block known (rounds + 1) header (l :: ls) = .ok result) :
    ∃ colon used rest value, l.kind = .identifier ∧ l.text ≠ "reversed" ∧ l.text ∈ known ∧
      colon.IsSymbol ":" ∧ ls = colon :: (used ++ rest) ∧ Primary used value ∧
      parameters block known rounds
        { header with parameters := header.parameters.put l.text value } rest = .ok result := by
  rw [parameters, hcomma, hreversed] at h
  rcases bind_eq_ok_iff.mp h with ⟨⟨name, rest⟩, hname, hrest⟩
  rcases Parser.identifier_eq_ok_iff.mp (ofArgs_eq_ok_iff.mp hname) with ⟨_, hkind, rfl, heq⟩
  cases heq
  -- The word that reverses has been looked for before.
  have hne : l.text ≠ "reversed" := by
    intro htext
    rw [Parser.word?_cons, if_pos ⟨.inr hkind, htext⟩] at hreversed
    cases hreversed
  dsimp only at hrest
  by_cases hknown : l.text ∈ known
  · rw [List.contains_iff_mem.mpr hknown, Bool.not_true, if_neg Bool.false_ne_true] at hrest
    cases hcolon : Parser.symbol? ":" ls with
    | none =>
        rw [hcolon] at hrest
        cases hrest
    | some behind =>
        rw [hcolon] at hrest
        rcases Parser.symbol?_eq_some_iff.mp hcolon with ⟨colon, hsymbol, rfl⟩
        rcases bind_eq_ok_iff.mp hrest with ⟨⟨value, last⟩, hvalue, hresult⟩
        rcases Grammar.primary_sound _ (ofArgs_eq_ok_iff.mp hvalue) with ⟨used, rfl, hprimary⟩
        exact ⟨colon, used, last, value, hkind, hne, hknown, hsymbol, rfl, hprimary, hresult⟩
  · have hcontains : known.contains l.text = false := by simpa using hknown
    rw [hcontains] at hrest
    cases hrest

/-- Modifiers are read as what they are, one after the other. -/
theorem parameters_complete {ls : List Lexeme} {modifiers : List Modifier}
    (h : Modifiers known ls modifiers) {rounds : Nat} (hrounds : ls.length ≤ rounds)
    (header : Header) :
    parameters block known rounds header ls = .ok (modifiers.foldl Modifier.applied header) := by
  -- Each modifier uses up a lexeme at least, so the rounds last as long as the lexemes.
  induction h generalizing rounds header with
  | nil => cases rounds <;> rfl
  | comma hcomma hrest ih =>
      cases rounds with
      | zero => simp at hrounds
      | succ rounds =>
          rw [parameters, Parser.symbol?_cons, if_pos hcomma]
          exact ih (Nat.le_of_succ_le_succ hrounds) header
  | reversed hword hrest ih =>
      cases rounds with
      | zero => simp at hrounds
      | succ rounds =>
          rw [parameters, symbol?_of_isWord hword, Parser.word?_cons, if_pos hword]
          exact ih (Nat.le_of_succ_le_succ hrounds) _
  | parameter hname hne hknown hcolon hvalue hrest ih =>
      cases rounds with
      | zero => simp at hrounds
      | succ rounds =>
          rw [parameters_named hname hne hknown hcolon (value_of_primary hvalue hrest)]
          refine ih ?_ _
          simp only [List.length_cons, List.length_append] at hrounds
          omega

/-- What is read behind a collection is modifiers. -/
theorem parameters_sound {rounds : Nat} {ls : List Lexeme} {header result : Header}
    (hrounds : ls.length ≤ rounds) (h : parameters block known rounds header ls = .ok result) :
    ∃ modifiers, Modifiers known ls modifiers ∧
      result = modifiers.foldl Modifier.applied header := by
  -- The cases are those of the rounds: in each of them a comma, a word or a name comes first.
  induction rounds generalizing header ls with
  | zero =>
      cases h
      rw [List.length_eq_zero_iff.mp (Nat.le_zero.mp hrounds)]
      exact ⟨[], .nil, rfl⟩
  | succ rounds ih =>
      cases ls with
      | nil =>
          cases h
          exact ⟨[], .nil, rfl⟩
      | cons l ls =>
          cases hcomma : Parser.symbol? "," (l :: ls) with
          | some rest =>
              rw [parameters, hcomma] at h
              rcases Parser.symbol?_eq_some_iff.mp hcomma with ⟨_, hsymbol, heq⟩
              cases heq
              rcases ih (Nat.le_of_succ_le_succ hrounds) h with ⟨modifiers, hmodifiers, hresult⟩
              exact ⟨modifiers, .comma hsymbol hmodifiers, hresult⟩
          | none =>
              cases hreversed : Parser.word? "reversed" (l :: ls) with
              | some rest =>
                  rw [parameters, hcomma, hreversed] at h
                  rcases Parser.word?_eq_some_iff.mp hreversed with ⟨_, hword, heq⟩
                  cases heq
                  rcases ih (Nat.le_of_succ_le_succ hrounds) h with
                    ⟨modifiers, hmodifiers, hresult⟩
                  exact ⟨.reversed :: modifiers, .reversed hword hmodifiers, hresult⟩
              | none =>
                  rcases named_of_parameters hcomma hreversed h with
                    ⟨colon, used, rest, value, hkind, hne, hknown, hcolon, rfl, hvalue, h⟩
                  simp only [List.length_cons, List.length_append] at hrounds
                  rcases ih (by omega) h with ⟨modifiers, hmodifiers, hresult⟩
                  exact ⟨.parameter l.text value :: modifiers,
                    .parameter hkind hne hknown hcolon hvalue hmodifiers, hresult⟩

/-- What is read as a header: a loop header, with its modifiers applied one after the other. -/
theorem header_eq_ok_iff {result : Header} :
    header block known = .ok result ↔
      ∃ ls name collection modifiers, Lexeme.body block.args = .ok ls ∧
        LoopHeader known ls name collection modifiers ∧
        result = modifiers.foldl Modifier.applied ⟨name, collection, [], false⟩ := by
  constructor
  · intro h
    rcases bind_eq_ok_iff.mp h with ⟨ls, hls, hname⟩
    have hbody := ofArgs_eq_ok_iff.mp hls
    cases ls with
    | nil => cases hname
    | cons l ls =>
        dsimp only [List.isEmpty_cons] at hname
        rw [if_neg Bool.false_ne_true] at hname
        rcases bind_eq_ok_iff.mp hname with ⟨⟨name, behind⟩, hidentifier, hin⟩
        rcases Parser.identifier_eq_ok_iff.mp (ofArgs_eq_ok_iff.mp hidentifier) with
          ⟨_, hkind, rfl, heq⟩
        cases heq
        dsimp only at hin
        -- A name, the word behind it, a value, and then modifiers up to the end.
        cases hword : Parser.word? "in" ls with
        | none =>
            rw [hword] at hin
            cases hin
        | some behind =>
            rw [hword] at hin
            rcases Parser.word?_eq_some_iff.mp hword with ⟨word, hisWord, rfl⟩
            rcases bind_eq_ok_iff.mp hin with ⟨⟨collection, rest⟩, hvalue, hparameters⟩
            rcases Grammar.primary_sound _ (ofArgs_eq_ok_iff.mp hvalue) with ⟨used, rfl, hprimary⟩
            rcases parameters_sound (Nat.le_refl _) hparameters with
              ⟨modifiers, hmodifiers, hresult⟩
            exact ⟨_, l.text, collection, modifiers, hbody, .mk hkind hisWord hprimary hmodifiers,
              hresult⟩
  · rintro ⟨_, _, collection, modifiers, hbody, ⟨hname, hword, hvalue, hmodifiers⟩, rfl⟩
    refine bind_eq_ok_iff.mpr ⟨_, ofArgs_eq_ok_iff.mpr hbody, ?_⟩
    dsimp only [List.isEmpty_cons]
    rw [if_neg Bool.false_ne_true]
    refine bind_eq_ok_iff.mpr
      ⟨_, ofArgs_eq_ok_iff.mpr (Grammar.identifier_of_kind hname), ?_⟩
    dsimp only
    rw [Parser.word?_cons, if_pos hword]
    refine bind_eq_ok_iff.mpr ⟨_, ofArgs_eq_ok_iff.mpr (value_of_primary hvalue hmodifiers), ?_⟩
    exact parameters_complete hmodifiers (Nat.le_refl _) _

end Modifiers

section Order

variable {modifiers others : List Modifier}

/-- Modifiers do not change what stands in front of them. -/
theorem name_foldl (header : Header) :
    (modifiers.foldl Modifier.applied header).name = header.name ∧
      (modifiers.foldl Modifier.applied header).collection = header.collection := by
  induction modifiers generalizing header with
  | nil => exact ⟨rfl, rfl⟩
  | cons modifier modifiers ih =>
      rw [List.foldl_cons, (ih _).1, (ih _).2]
      cases modifier <;> exact ⟨rfl, rfl⟩

/-- Whether a header says that it is reversed. -/
theorem reversed_foldl (header : Header) :
    (modifiers.foldl Modifier.applied header).reversed = true ↔
      header.reversed = true ∨ .reversed ∈ modifiers := by
  induction modifiers generalizing header with
  | nil => simp
  | cons modifier modifiers ih =>
      rw [List.foldl_cons, ih]
      cases modifier <;> simp [Modifier.applied]

/-- What a header says of a parameter that is in none of the modifiers. -/
theorem parameters_foldl_of_notMem {name : String} (h : name ∉ modifiers.map Modifier.key)
    (header : Header) :
    (modifiers.foldl Modifier.applied header).parameters.get? name =
      header.parameters.get? name := by
  induction modifiers generalizing header with
  | nil => rfl
  | cons modifier modifiers ih =>
      rw [List.map_cons, List.mem_cons, not_or] at h
      rw [List.foldl_cons, ih h.2]
      cases modifier with
      | reversed => rfl
      | parameter key value => exact Table.get?_put_of_ne _ _ h.1

/-- What a header says of a parameter that is in one of the modifiers at most. -/
theorem parameters_foldl_of_mem {name : String} {value : Expr}
    (hnodup : (modifiers.map Modifier.key).Nodup) (h : .parameter name value ∈ modifiers)
    (header : Header) :
    (modifiers.foldl Modifier.applied header).parameters.get? name = some value := by
  induction modifiers generalizing header with
  | nil => cases h
  | cons modifier modifiers ih =>
      rw [List.map_cons, List.nodup_cons] at hnodup
      rw [List.foldl_cons]
      rcases List.mem_cons.mp h with rfl | hmem
      -- No later modifier has the same name, so none puts another value there.
      · have hnotMem : name ∉ modifiers.map Modifier.key := hnodup.1
        rw [parameters_foldl_of_notMem hnotMem]
        exact Table.get?_put_self _ _ _
      · exact ih hnodup.2 hmem _

/-- Modifiers about different things in another order: every parameter is what it was. -/
theorem parameters_of_perm (hperm : modifiers.Perm others)
    (hnodup : (modifiers.map Modifier.key).Nodup) (header : Header) (name : String)
    (hname : name ≠ "reversed") :
    (modifiers.foldl Modifier.applied header).parameters.get? name =
      (others.foldl Modifier.applied header).parameters.get? name := by
  -- Without repeated names, a parameter has the one value that is written for it, in any order.
  by_cases hmem : name ∈ modifiers.map Modifier.key
  · rcases List.mem_map.mp hmem with ⟨modifier, hmodifier, hkey⟩
    cases modifier with
    | reversed => exact absurd hkey.symm hname
    | parameter key value =>
        subst hkey
        have hnodup' : (others.map Modifier.key).Nodup := (hperm.map _).nodup_iff.mp hnodup
        exact (parameters_foldl_of_mem hnodup hmodifier header).trans
          (parameters_foldl_of_mem hnodup' (hperm.mem_iff.mp hmodifier) header).symm
  · have hmem' : name ∉ others.map Modifier.key := fun h => hmem ((hperm.map _).mem_iff.mpr h)
    rw [parameters_foldl_of_notMem hmem, parameters_foldl_of_notMem hmem']

/-- Modifiers about different things in another order: the same items are selected. -/
theorem selection_of_perm (hperm : modifiers.Perm others)
    (hnodup : (modifiers.map Modifier.key).Nodup) (name : String) (collection : Expr) :
    (modifiers.foldl Modifier.applied ⟨name, collection, [], false⟩).selection =
      (others.foldl Modifier.applied ⟨name, collection, [], false⟩).selection := by
  have hreversed : (modifiers.foldl Modifier.applied ⟨name, collection, [], false⟩).reversed =
      (others.foldl Modifier.applied ⟨name, collection, [], false⟩).reversed := by
    rw [Bool.eq_iff_iff, reversed_foldl, reversed_foldl, hperm.mem_iff]
  unfold Header.selection
  rw [(name_foldl _).2, (name_foldl _).2, hreversed,
    parameters_of_perm hperm hnodup _ "limit" (by decide),
    parameters_of_perm hperm hnodup _ "offset" (by decide)]

end Order

section Compiled

variable {block : Block} {node : Node}

/-- The body for no items that the sections of a loop have, unless it has arguments. -/
def elseOf : List Section → Option (Option (List Node))
  | _ :: other :: _ => if other.args.isEmpty then some (some other.body) else none
  | _ => some none

/-- A loop has a header, its first section as a body, and at most an else behind it. -/
theorem compileFor_eq_ok_iff :
    compileFor block = .ok node ↔
      ∃ header otherwise, Tag.header block ["limit", "offset"] = .ok header ∧
        elseOf block.sections = some otherwise ∧
        node = .loop header.name header.selection block.body otherwise block.place := by
  refine bind_eq_ok_iff.trans (exists_congr fun header => ?_)
  match hsections : block.sections with
  | [] | [_] => simp [elseOf, eq_comm]
  | _ :: other :: _ =>
      by_cases hargs : other.args.isEmpty
      · simp [elseOf, hargs, eq_comm]
      · simp [elseOf, hargs, Block.error]

/-- The tag of a loop with its modifiers in another order becomes the same node, at its own
place. -/
theorem compileFor_of_perm {args : String} {offset : Nat} {place : Place} {ls ls' : List Lexeme}
    {name : String} {collection : Expr} {modifiers modifiers' : List Modifier}
    (hls : Lexeme.body block.args = .ok ls)
    (hheader : LoopHeader ["limit", "offset"] ls name collection modifiers)
    (hls' : Lexeme.body args = .ok ls')
    (hheader' : LoopHeader ["limit", "offset"] ls' name collection modifiers')
    (hperm : modifiers.Perm modifiers') (hnodup : (modifiers.map Modifier.key).Nodup)
    (h : compileFor block = .ok node) :
    ∃ selection otherwise, node = .loop name selection block.body otherwise block.place ∧
      compileFor { block with args := args, offset := offset, place := place } =
        .ok (.loop name selection block.body otherwise place) := by
  rcases compileFor_eq_ok_iff.mp h with ⟨header, otherwise, hread, helse, rfl⟩
  -- The header that was read is the one that the lexemes spell.
  have hexpected : Tag.header block ["limit", "offset"] =
      .ok (modifiers.foldl Modifier.applied ⟨name, collection, [], false⟩) :=
    header_eq_ok_iff.mpr ⟨ls, name, collection, modifiers, hls, hheader, rfl⟩
  rw [hexpected] at hread
  cases hread
  refine ⟨_, otherwise, by rw [(name_foldl _).1], compileFor_eq_ok_iff.mpr
    ⟨modifiers'.foldl Modifier.applied ⟨name, collection, [], false⟩, otherwise,
      header_eq_ok_iff.mpr ⟨ls', name, collection, modifiers', hls', hheader', rfl⟩, helse, ?_⟩⟩
  rw [(name_foldl _).1, selection_of_perm hperm hnodup]
  rfl

end Compiled

end Tag

end Liquid
