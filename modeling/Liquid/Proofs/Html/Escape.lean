import Liquid.Environment
import Liquid.Html.Unescape
import Liquid.Proofs.Filter.Call
import Liquid.Proofs.Html.Reference
import Liquid.Proofs.Text.Digit

/-!
# Escaped Texts

A text is escaped if no character in it has a meaning in HTML but the ampersands,
and each of these begins a reference. Both ways of escaping make such a text.
The one that writes every reserved character as a reference can be undone, since
a reference is read up to its semicolon and no further. The one that keeps
references leaves an escaped text as it is, whichever way it was escaped.

What counts as a reference is wider there than in HTML. The digits of a number may
be those of any script, so an ampersand before such a number is kept, although it
begins nothing that a reader of HTML knows.

## Main definitions

* `Html.Escaped`: A text in which ampersands begin references of a kind.
* `Html.standard`: The references that escaping writes.

## Theorems

* `Html.escaped_escape`, `Html.unescape_escape`: Escaping, and undoing it.
* `Html.escaped_escapeOnce`, `Html.escapeOnce_eq_self_iff`: Escaping once.
* `Filter.escaping_reversible`: What the filters give for any value.
-/

namespace Liquid

namespace Html

/-- A text without reserved characters, except for ampersands that begin references of a kind,
given by what stands behind the ampersand. -/
structure Escaped (IsBody : List Char → Prop) (cs : List Char) : Prop where
  unreserved : ∀ c ∈ cs, c ∉ ['<', '>', '"', '\'']
  ampersand : ∀ before after, cs = before ++ '&' :: after → ∃ body, IsBody body ∧ body <+: after

/-- What stands behind the ampersand of the references that escaping writes. -/
def standard : List (List Char) :=
  ["amp;".toList, "lt;".toList, "gt;".toList, "quot;".toList, "#39;".toList]

section Escaped

variable {IsBody : List Char → Prop} {c : Char} {cs : List Char}

theorem escaped_nil : Escaped IsBody [] :=
  ⟨by simp, fun before after h => by simp at h⟩

/-- Escaped texts, character by character. -/
theorem escaped_cons : Escaped IsBody (c :: cs) ↔
    c ∉ ['<', '>', '"', '\''] ∧ (c = '&' → ∃ body, IsBody body ∧ body <+: cs) ∧
      Escaped IsBody cs := by
  constructor
  · intro h
    rcases List.forall_mem_cons.mp h.unreserved with ⟨hc, hcs⟩
    refine ⟨hc, fun hc => h.ampersand [] cs (hc ▸ rfl), hcs, fun before after heq => ?_⟩
    exact h.ampersand (c :: before) after (congrArg _ heq)
  · rintro ⟨hc, hampersand, hcs⟩
    refine ⟨List.forall_mem_cons.mpr ⟨hc, hcs.unreserved⟩, fun before after heq => ?_⟩
    -- An ampersand in front is the first character; one behind is in the rest.
    cases before with
    | nil =>
        cases heq
        exact hampersand rfl
    | cons d before =>
        cases heq
        exact hcs.ampersand before after rfl

/-- Characters without a meaning may be put in front. -/
theorem Escaped.append {front : List Char} (h : Escaped IsBody cs)
    (hfront : ∀ c ∈ front, reserved? c = none) : Escaped IsBody (front ++ cs) := by
  induction front with
  | nil => exact h
  | cons c front ih =>
      rcases List.forall_mem_cons.mp hfront with ⟨hc, hfront⟩
      have hnot := reserved?_eq_none_iff.mp hc
      rw [List.mem_cons, not_or] at hnot
      exact escaped_cons.mpr ⟨hnot.2, fun heq => absurd heq hnot.1, ih hfront⟩

/-- So may a reference. -/
theorem Escaped.reference {body : List Char} (h : Escaped IsBody cs) (hbody : IsBody body)
    (hplain : ∀ c ∈ body, reserved? c = none) : Escaped IsBody ('&' :: (body ++ cs)) :=
  escaped_cons.mpr ⟨by decide, fun _ => ⟨body, hbody, List.prefix_append body cs⟩, h.append hplain⟩

/-- More bodies of references make no text less escaped. -/
theorem Escaped.mono {IsBody' : List Char → Prop} (h : Escaped IsBody cs)
    (hbody : ∀ body, IsBody body → IsBody' body) : Escaped IsBody' cs where
  unreserved := h.unreserved
  ampersand before after heq := by
    rcases h.ampersand before after heq with ⟨body, hisBody, hhead⟩
    exact ⟨body, hbody body hisBody, hhead⟩

end Escaped

section Standard

variable {c : Char} {body entity : List Char}

theorem exists_standard (h : reserved? c = some entity) :
    ∃ body ∈ standard, entity = '&' :: body := by
  have hentity {text : List Char} (htext : text ∈ standard.map (List.cons '&'))
      (h : some text = some entity) : ∃ body ∈ standard, entity = '&' :: body := by
    rcases List.mem_map.mp htext with ⟨body, hbody, rfl⟩
    exact ⟨body, hbody, (Option.some.inj h).symm⟩
  unfold reserved? at h
  split at h
  any_goals exact hentity (by decide) h
  cases h

/-- What escaping writes are references by name or by ASCII digits. -/
theorem reference_of_mem_standard (h : body ∈ standard) :
    Reference (fun d => d.isDigit = true) body := by
  simp only [standard, List.mem_cons, List.not_mem_nil, or_false] at h
  rcases h with rfl | rfl | rfl | rfl | rfl
  · exact @Reference.named _ 'a' ['m', 'p'] rfl (List.all_eq_true.mp rfl)
  · exact @Reference.named _ 'l' ['t'] rfl (List.all_eq_true.mp rfl)
  · exact @Reference.named _ 'g' ['t'] rfl (List.all_eq_true.mp rfl)
  · exact @Reference.named _ 'q' ['u', 'o', 't'] rfl (List.all_eq_true.mp rfl)
  · exact @Reference.decimal _ ['3', '9'] (by decide) (List.all_eq_true.mp rfl)

/-- Digits of ASCII are digits of some script. -/
theorem Reference.anyScript (h : Reference (fun d => d.isDigit = true) body) :
    Reference (fun d => Text.isDigit d = true) body := by
  cases h with
  | named hc hcs => exact .named hc hcs
  | decimal hne hds =>
      exact .decimal hne fun d hd =>
        Text.isDigit_iff.mpr ⟨_, Text.digitValue?_of_isDigit (hds d hd)⟩
  | hexadecimal hx hne hds => exact .hexadecimal hx hne hds

theorem reserved?_of_mem_standard (h : body ∈ standard) : ∀ c ∈ body, reserved? c = none :=
  (reference_of_mem_standard h).anyScript.reserved?_eq_none

end Standard

section Writing

variable {c : Char} {cs : List Char}

/-- Writing a character as a reference if it is reserved, in front of an escaped text. -/
theorem Escaped.reserved {IsBody : List Char → Prop} (h : Escaped IsBody cs)
    (hbody : ∀ body ∈ standard, IsBody body) (c : Char) :
    Escaped IsBody ((reserved? c).getD [c] ++ cs) := by
  cases hreserved : reserved? c with
  | none => exact h.append fun d hd => List.mem_singleton.mp hd ▸ hreserved
  | some entity =>
      rcases exists_standard hreserved with ⟨body, hmem, rfl⟩
      exact h.reference (hbody body hmem) (reserved?_of_mem_standard hmem)

/-- Every ampersand that is left starts an entity of the standard ones. -/
theorem escaped_escape (cs : List Char) : Escaped (· ∈ standard) (escape cs) := by
  induction cs with
  | nil => exact escaped_nil
  | cons c cs ih => exact ih.reserved (fun _ hbody => hbody) c

theorem escapeOnce_append {front : List Char} (h : ∀ c ∈ front, reserved? c = none)
    (cs : List Char) : escapeOnce (front ++ cs) = front ++ escapeOnce cs := by
  induction front with
  | nil => rfl
  | cons c front ih =>
      rcases List.forall_mem_cons.mp h with ⟨hc, hfront⟩
      rw [List.cons_append, escapeOnce, hc, ih hfront]
      cases c == '&' && beginsReference (front ++ cs) <;> rfl

/-- Every ampersand that is left starts a reference. -/
theorem escaped_escapeOnce (cs : List Char) :
    Escaped (Reference fun d => Text.isDigit d = true) (escapeOnce cs) := by
  induction cs with
  | nil => exact escaped_nil
  | cons c cs ih =>
      rw [escapeOnce]
      by_cases hkept : (c == '&' && beginsReference cs) = true
      · rw [if_pos hkept]
        rw [Bool.and_eq_true, beq_iff_eq] at hkept
        rcases hkept with ⟨rfl, hbegins⟩
        rcases exists_of_beginsReference hbegins with ⟨body, hbody, rest, rfl⟩
        -- The reference is still there when what is behind it has been escaped.
        refine escaped_cons.mpr ⟨by decide, fun _ => ⟨body, hbody, ?_⟩, ih⟩
        rw [escapeOnce_append hbody.reserved?_eq_none]
        exact List.prefix_append _ _
      · rw [if_neg hkept]
        exact ih.reserved (fun body hbody => (reference_of_mem_standard hbody).anyScript) c

/-- A text that is escaped is left as it is. -/
theorem escapeOnce_of_escaped (h : Escaped (Reference fun d => Text.isDigit d = true) cs) :
    escapeOnce cs = cs := by
  induction cs with
  | nil => rfl
  | cons c cs ih =>
      rcases escaped_cons.mp h with ⟨hc, hampersand, hcs⟩
      rw [escapeOnce, ih hcs]
      -- An ampersand starts a reference, so it is kept. All else is not reserved.
      by_cases heq : c = '&'
      · have hbegins := beginsReference_iff.mpr (hampersand heq)
        rw [if_pos (by simp [heq, hbegins])]
        rfl
      · have hplain : reserved? c = none := by
          rw [reserved?_eq_none_iff, List.mem_cons, not_or]
          exact ⟨heq, hc⟩
        rw [if_neg (by simp [heq]), hplain]
        rfl

/-- What is kept as it is was escaped before. -/
theorem escapeOnce_eq_self_iff :
    escapeOnce cs = cs ↔ Escaped (Reference fun d => Text.isDigit d = true) cs :=
  ⟨fun h => h ▸ escaped_escapeOnce cs, escapeOnce_of_escaped⟩

/-- What is escaped is not escaped again. -/
theorem escapeOnce_escape (cs : List Char) : escapeOnce (escape cs) = escape cs :=
  escapeOnce_eq_self_iff.mpr ((escaped_escape cs).mono fun _ hbody =>
    (reference_of_mem_standard hbody).anyScript)

/-- Escaping brings in no digits but those of ASCII. -/
theorem isDigit_of_mem_escapeOnce (h : ∀ c ∈ cs, Text.isDigit c = true → c.isDigit = true) :
    ∀ c ∈ escapeOnce cs, Text.isDigit c = true → c.isDigit = true := by
  induction cs with
  | nil => exact h
  | cons c cs ih =>
      rcases List.forall_mem_cons.mp h with ⟨hc, hcs⟩
      rw [escapeOnce, List.forall_mem_append]
      refine ⟨?_, ih hcs⟩
      split
      · exact List.forall_mem_singleton.mpr hc
      · cases hreserved : reserved? c with
        | none => exact List.forall_mem_singleton.mpr hc
        | some entity =>
            rcases exists_standard hreserved with ⟨body, hbody, rfl⟩
            -- The entities have no other digits either.
            have hall : ∀ body ∈ standard, ('&' :: body).all
                (fun d => !Text.isDigit d || d.isDigit) = true := by decide
            intro d hd hdigit
            simpa [hdigit] using List.all_eq_true.mp (hall body hbody) d hd

/-- Where there are no other digits, the references are those of HTML. -/
theorem Escaped.ascii (h : Escaped (Reference fun d => Text.isDigit d = true) cs)
    (hcs : ∀ c ∈ cs, Text.isDigit c = true → c.isDigit = true) :
    Escaped (Reference fun d => d.isDigit = true) cs where
  unreserved := h.unreserved
  ampersand before after heq := by
    rcases h.ampersand before after heq with ⟨body, hbody, hhead⟩
    refine ⟨body, ?_, hhead⟩
    cases hbody with
    | named hc hletters => exact .named hc hletters
    | decimal hne hds =>
        refine .decimal hne fun d hd => hcs d ?_ (hds d hd)
        -- The digits of a reference are characters of the text.
        have hmem := hhead.subset (List.mem_cons_of_mem '#' (List.mem_append_left [';'] hd))
        exact heq ▸ List.mem_append_right before (List.mem_cons_of_mem '&' hmem)
    | hexadecimal hx hne hds => exact .hexadecimal hx hne hds

/-- An ampersand is kept before a number that is written with the digits of another script, although
no reader of HTML takes that for a reference. -/
theorem escapeOnce_keeps_foreign :
    let cs := ['&', '#', '\u0661', ';']
    escapeOnce cs = cs ∧ reference? ['#', '\u0661', ';'] = none ∧
      ¬Escaped (Reference fun d => d.isDigit = true) (escapeOnce cs) := by
  intro cs
  -- The digit is one of another script, but a digit.
  have hkept : escapeOnce cs = cs := by decide
  refine ⟨hkept, by decide, fun h => ?_⟩
  rw [hkept] at h
  rcases h.ampersand [] _ rfl with ⟨body, hbody, hhead⟩
  cases hbody with
  | named hc =>
      rcases List.cons_prefix_cons.mp hhead with ⟨rfl, -⟩
      exact absurd hc (by decide)
  | @decimal ds hne hds =>
      cases ds with
      | nil => exact hne rfl
      | cons d ds =>
          rcases List.cons_prefix_cons.mp (List.cons_prefix_cons.mp hhead).2 with ⟨rfl, -⟩
          exact absurd (hds _ List.mem_cons_self) (by decide)
  | hexadecimal hx =>
      rcases List.cons_prefix_cons.mp (List.cons_prefix_cons.mp hhead).2 with ⟨rfl, -⟩
      exact absurd hx (by decide)

end Writing

section Undoing

variable {c : Char} {cs tail : List Char}

/-- A known name is read up to its semicolon. -/
theorem reference?_named {name found : List Char} (hne : name ≠ []) (hlength : name.length ≤ 32)
    (hname : ∀ c ∈ name, isNameChar c = true)
    (hlookup : Entity.lookup (name ++ [';']) = some found) :
    reference? (name ++ ';' :: tail) = some (found, tail) := by
  have htake : (name ++ ';' :: tail).takeWhile isNameChar = name := by
    rw [List.takeWhile_append_of_pos hname, List.takeWhile_cons_of_neg (by decide),
      List.append_nil]
  cases name with
  | nil => exact absurd rfl hne
  | cons c name =>
      -- A name does not start with the sign of a numeral.
      have hc : c ≠ '#' := by
        rintro rfl
        exact absurd (hname '#' List.mem_cons_self) (by decide)
      rw [List.cons_append] at htake ⊢
      rw [reference?.eq_2 _ fun _ h => hc (List.cons.inj h).1, htake,
        List.take_of_length_le hlength, ← List.cons_append, List.drop_left]
      simp only [List.isEmpty_cons, Bool.false_eq_true, if_false]
      rw [List.takeWhile_cons_of_pos rfl, List.take_succ_cons, List.take_zero, resolveName, hlookup]
      rfl

theorem reference?_decimal {ds : List Char} (hne : ds ≠ []) (hds : ∀ d ∈ ds, d.isDigit = true) :
    reference? ('#' :: (ds ++ ';' :: tail)) = some (numbered (numeral 10 ds), tail) := by
  have htake : (ds ++ ';' :: tail).takeWhile Char.isDigit = ds := by
    rw [List.takeWhile_append_of_pos hds, List.takeWhile_cons_of_neg (by decide), List.append_nil]
  rw [reference?, htake, List.drop_left]
  cases ds with
  | nil => exact absurd rfl hne
  | cons d ds => rfl

theorem unescape_cons (h : c ≠ '&') : unescape (c :: cs) = c :: unescape cs := by
  rw [unescape, if_neg (by simpa using h)]

/-- A reference is read, and then what is behind it. -/
theorem unescape_reference {found : List Char} (h : reference? cs = some (found, tail)) :
    unescape ('&' :: cs) = found ++ unescape tail := by
  rw [unescape, if_pos (beq_self_eq_true '&')]
  split
  · next found' rest h' =>
    rw [h] at h'
    cases h'
    rfl
  · next h' =>
    rw [h] at h'
    cases h'

theorem unescape_named (name : List Char) (hne : name ≠ []) (hlength : name.length ≤ 32)
    (hname : name.all isNameChar = true) (hlookup : Entity.lookup (name ++ [';']) = some [c]) :
    unescape ('&' :: (name ++ ';' :: tail)) = c :: unescape tail :=
  unescape_reference (reference?_named hne hlength (List.all_eq_true.mp hname) hlookup)

/-- Each of the five entities stands for its character. -/
theorem unescape_reserved {entity : List Char} (h : reserved? c = some entity) :
    unescape (entity ++ tail) = c :: unescape tail := by
  unfold reserved? at h
  -- Each of the five entities, four of them by name and the apostrophe by its number.
  split at h
  · rcases Option.some.inj h with rfl
    exact unescape_named "amp".toList (by decide) (by decide) (by decide) (by decide)
  · rcases Option.some.inj h with rfl
    exact unescape_named "lt".toList (by decide) (by decide) (by decide) (by decide)
  · rcases Option.some.inj h with rfl
    exact unescape_named "gt".toList (by decide) (by decide) (by decide) (by decide)
  · rcases Option.some.inj h with rfl
    exact unescape_named "quot".toList (by decide) (by decide) (by decide) (by decide)
  · rcases Option.some.inj h with rfl
    exact unescape_reference (reference?_decimal (by decide : ['3', '9'] ≠ []) (List.all_eq_true.mp rfl))
  · cases h

/-- Unescaping gives back every text that was escaped. -/
theorem unescape_escape (cs : List Char) : unescape (escape cs) = cs := by
  induction cs with
  | nil => rw [escape, List.flatMap_nil, unescape]
  | cons c cs ih =>
      rw [escape, List.flatMap_cons, ← escape]
      cases hreserved : reserved? c with
      | none =>
          have hc := reserved?_eq_none_iff.mp hreserved
          rw [Option.getD_none, List.singleton_append, unescape_cons, ih]
          rintro rfl
          exact hc List.mem_cons_self
      | some entity => rw [Option.getD_some, unescape_reserved hreserved, ih]

end Undoing

/-- What the ways of escaping make of the text that a value shows, in full and once. -/
structure Reversible (escape escapeOnce unescape : Value → Noted FilterFailure Value) (v : Value)
    (full once : String) : Prop where
  full_eq : escape v = .ok (.string full)
  full_escaped : Escaped (· ∈ standard) full.toList
  full_undone : unescape (.string full) = .ok (.string v.display)
  full_kept : escapeOnce (.string full) = .ok (.string full)
  once_eq : escapeOnce v = .ok (.string once)
  once_escaped : Escaped (Reference fun d => Text.isDigit d = true) once.toList
  /-- Without digits of other scripts, all ampersands begin references of HTML. -/
  once_ascii : (∀ c ∈ v.display.toList, Text.isDigit c = true → c.isDigit = true) →
    Escaped (Reference fun d => d.isDigit = true) once.toList
  once_kept : escapeOnce (.string once) = .ok (.string once)

end Html

namespace Filter

/-- For any value, the filters escape the text that it shows, the one reversibly and the other once
and for all. -/
theorem escaping_reversible (settings : Settings) :
    ∃ escape escapeOnce unescape,
      (Environment.create settings {}).1.filters.get? "escape" = some escape ∧
      (Environment.create settings {}).1.filters.get? "escape_once" = some escapeOnce ∧
      (Environment.create settings {}).1.filters.get? "unescape" = some unescape ∧
      ∀ v args options, ∃ escaped once, Html.Reversible (escape.apply · args options)
        (escapeOnce.apply · args options) (unescape.apply · args options) v escaped once := by
  -- Each law is one about characters.
  refine ⟨_, _, _, rfl, rfl, rfl, fun v args options => ⟨_, _, ofChars_apply .., ?_, ?_, ?_,
    ofChars_apply .., ?_, fun h => ?_, ?_⟩⟩
  · rw [String.toList_ofList]
    exact Html.escaped_escape _
  · rw [ofChars_apply, Value.display, String.toList_ofList, Html.unescape_escape,
      String.ofList_toList]
  · rw [ofChars_apply, Value.display, String.toList_ofList, Html.escapeOnce_escape]
  · rw [String.toList_ofList]
    exact Html.escaped_escapeOnce _
  · rw [String.toList_ofList]
    exact (Html.escaped_escapeOnce _).ascii (Html.isDigit_of_mem_escapeOnce h)
  · rw [ofChars_apply, Value.display, String.toList_ofList,
      Html.escapeOnce_eq_self_iff.mpr (Html.escaped_escapeOnce _)]

end Filter

end Liquid
