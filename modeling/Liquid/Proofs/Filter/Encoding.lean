import Liquid.Filter.Encoding
import Liquid.Environment
import Liquid.Proofs.Filter.Call
import Liquid.Proofs.Text.Base64
import Liquid.Proofs.Text.Utf8

/-!
# Reading Base64

What the base64 readers answer. A text is read from what encodes it, whether the
padding at the end is there or not. Whatever else is in ASCII is rejected. All
ways for it to be ill-formed come to the same, be it a sign or the length, the
padding, or bytes that no text is written as. They differ only in what is said
along with the rejection.

Other texts are not read, and they are not rejected either. Any character outside
ASCII, wherever it stands, is a crash.

## Main definitions

* `Filter.Encodes`: What a base64 text encodes.
* `Filter.refusal`: The rejection of a text, with what is said of it.
* `Filter.Answers`: The three answers of a reader, and when each is given.

## Theorems

* `Filter.decodeBase64_eq_ok_iff`, `Filter.decodeBase64_eq_rejected_iff`,
  `Filter.decodeBase64_eq_crashed_iff`: The answers to a text.
* `Filter.base64_read`: Both filters, with any arguments.
-/

namespace Liquid

open Text Base64

namespace Filter

/-- Whether the text, with the padding that its length asks for, is base64 of how `s` is written. -/
def Encodes (alphabet : Alphabet) (cs : List Char) (s : String) : Prop :=
  ∃ k < 4, 4 ∣ cs.length + k ∧
    Strict (alphabet.inStandard (cs ++ List.replicate k '=')) (Utf8.bytesOf s)

/-- The rejection of a text, with what is said of it. -/
def refusal (alphabet : Alphabet) (cs : List Char) : FilterFault :=
  .invalidBase64 (complaintOf (alphabet.inStandard (padded cs)))

/-- The answers of a reader to a text. -/
structure Answers (alphabet : Alphabet) (cs : List Char) (answer : Noted FilterFailure Value) :
    Prop where
  read : ∀ s, answer = .ok (.string s) ↔ Encodes alphabet cs s
  rejected : answer = .error (.rejected (refusal alphabet cs)) ↔
    (∀ c ∈ cs, c.toNat < 0x80) ∧ ∀ s, ¬Encodes alphabet cs s
  crashed : answer = .error (.crashed .notAscii) ↔ ∃ c ∈ cs, 0x80 ≤ c.toNat
  /-- There are no others. -/
  exhaustive : (∃ s, answer = .ok (.string s)) ∨
    answer = .error (.rejected (refusal alphabet cs)) ∨ answer = .error (.crashed .notAscii)

section Decoding

variable {alphabet : Alphabet} {cs text : List Char} {s : String}

/-- What encodes a text is told by the strict form of its bytes. -/
theorem encodes_iff :
    Encodes alphabet cs s ↔ Strict (alphabet.inStandard (padded cs)) (Utf8.bytesOf s) := by
  constructor
  · rintro ⟨k, hk, hlength, h⟩
    rwa [padded_eq hk hlength]
  · intro h
    have hlength : 4 ∣ cs.length + (4 - cs.length % 4) % 4 := by omega
    exact ⟨_, Nat.mod_lt _ (by decide), hlength, h⟩

theorem Encodes.ascii (h : Encodes alphabet cs s) : ∀ c ∈ cs, c.toNat < 0x80 := by
  rcases h with ⟨k, -, -, h⟩
  intro c hc
  exact Alphabet.ascii_of_inStandard h.follows.ascii c (List.mem_append_left _ hc)

/-- For text in ASCII, only signs and padding are looked at. -/
theorem decodeBase64_of_ascii (h : ∀ c ∈ cs, c.toNat < 0x80) :
    decodeBase64 alphabet cs =
      match (decode? (alphabet.inStandard (padded cs))).bind Utf8.decode? with
      | some text => .ok text
      | none => .error (.rejected (refusal alphabet cs)) := by
  have hascii : ¬(cs.any fun c => 0x80 ≤ c.toNat) = true := by
    simpa using h
  unfold decodeBase64
  rw [if_neg hascii]
  cases alphabet <;> rfl

/-- Base64 and UTF-8 are read one after the other. -/
theorem bind_eq_some_iff : (decode? (alphabet.inStandard (padded cs))).bind Utf8.decode? = some text ↔
    Encodes alphabet cs (String.ofList text) := by
  rw [encodes_iff, Utf8.bytesOf_eq_encode, String.toList_ofList, Option.bind_eq_some_iff,
    ← decode?_eq_some_iff]
  simp only [Utf8.decode?_eq_some_iff, exists_eq_right]

/-- A text encodes nothing if it cannot be read. -/
theorem forall_not_encodes_iff : (∀ s, ¬Encodes alphabet cs s) ↔
    (decode? (alphabet.inStandard (padded cs))).bind Utf8.decode? = none := by
  rw [Option.eq_none_iff_forall_ne_some]
  constructor
  · intro h text hread
    exact h _ (bind_eq_some_iff.mp hread)
  · intro h s hs
    refine h s.toList (bind_eq_some_iff.mpr ?_)
    rwa [String.ofList_toList]

/-- Characters beyond ASCII are met before any sign is read. -/
theorem decodeBase64_of_foreign (h : ∃ c ∈ cs, 0x80 ≤ c.toNat) :
    decodeBase64 alphabet cs = .error (.crashed .notAscii) := by
  have hforeign : (cs.any fun c => 0x80 ≤ c.toNat) = true := by
    simpa using h
  unfold decodeBase64
  rw [if_pos hforeign]

theorem ascii_or_foreign (cs : List Char) :
    (∀ c ∈ cs, c.toNat < 0x80) ∨ ∃ c ∈ cs, 0x80 ≤ c.toNat := by
  by_cases h : ∃ c ∈ cs, 0x80 ≤ c.toNat
  · exact .inr h
  · exact .inl fun c hc => Nat.lt_of_not_le fun hle => h ⟨c, hc, hle⟩

/-- What is read is what the text encodes. -/
theorem decodeBase64_eq_ok_iff :
    decodeBase64 alphabet cs = .ok text ↔ Encodes alphabet cs (String.ofList text) := by
  rcases ascii_or_foreign cs with hascii | ⟨c, hc, hforeign⟩
  · rw [decodeBase64_of_ascii hascii, ← bind_eq_some_iff]
    cases (decode? (alphabet.inStandard (padded cs))).bind Utf8.decode? with
    | none => simp
    | some found => simp
  · rw [decodeBase64_of_foreign ⟨c, hc, hforeign⟩]
    exact ⟨fun h => (nomatch h), fun h => absurd (h.ascii c hc) (Nat.not_lt.mpr hforeign)⟩

/-- A text in ASCII that encodes nothing is refused. -/
theorem decodeBase64_eq_rejected_iff :
    decodeBase64 alphabet cs = .error (.rejected (refusal alphabet cs)) ↔
      (∀ c ∈ cs, c.toNat < 0x80) ∧ ∀ s, ¬Encodes alphabet cs s := by
  rcases ascii_or_foreign cs with hascii | ⟨c, hc, hforeign⟩
  · rw [decodeBase64_of_ascii hascii, forall_not_encodes_iff]
    cases (decode? (alphabet.inStandard (padded cs))).bind Utf8.decode? with
    | none => simpa using hascii
    | some found => simp
  · rw [decodeBase64_of_foreign ⟨c, hc, hforeign⟩]
    exact ⟨fun h => (nomatch h), fun h => absurd (h.1 c hc) (Nat.not_lt.mpr hforeign)⟩

/-- Characters beyond ASCII are not refused, but stop the filter. -/
theorem decodeBase64_eq_crashed_iff :
    decodeBase64 alphabet cs = .error (.crashed .notAscii) ↔ ∃ c ∈ cs, 0x80 ≤ c.toNat := by
  refine ⟨fun h => ?_, decodeBase64_of_foreign⟩
  rcases ascii_or_foreign cs with hascii | hforeign
  · rw [decodeBase64_of_ascii hascii] at h
    split at h <;> cases h
  · exact hforeign

/-- There are no other answers. -/
theorem decodeBase64_cases (alphabet : Alphabet) (cs : List Char) :
    (∃ text, decodeBase64 alphabet cs = .ok text) ∨
      decodeBase64 alphabet cs = .error (.rejected (refusal alphabet cs)) ∨
        decodeBase64 alphabet cs = .error (.crashed .notAscii) := by
  rcases ascii_or_foreign cs with hascii | hforeign
  · rw [decodeBase64_of_ascii hascii]
    split
    · next text _ => exact .inl ⟨text, rfl⟩
    · exact .inr (.inl rfl)
  · exact .inr (.inr (decodeBase64_of_foreign hforeign))

end Decoding

section Filters

variable {result : Except FilterFailure (List Char)}

/-- The answer of a filter on texts, by the text itself. -/
theorem ofExcept_textResult_eq_ok_iff {s : String} :
    (Noted.ofExcept (result >>= textResult) = .ok (.string s)) ↔ result = .ok s.toList := by
  cases result with
  | error failure => exact ⟨fun h => (nomatch h), fun h => (nomatch h)⟩
  | ok text =>
      constructor
      · intro h
        cases h
        rw [String.toList_ofList]
      · intro h
        cases h
        change Noted.ok (Value.string (String.ofList s.toList)) = _
        rw [String.ofList_toList]

theorem ofExcept_textResult_eq_error_iff {failure : FilterFailure} :
    (Noted.ofExcept (result >>= textResult) = .error failure) ↔ result = .error failure := by
  cases result with
  | error found =>
      constructor
      · intro h
        cases h
        rfl
      · intro h
        cases h
        rfl
  | ok text => exact ⟨fun h => (nomatch h), fun h => (nomatch h)⟩

/-- The three answers by their three reasons. -/
theorem answers_decodeBase64 (alphabet : Alphabet) (cs : List Char) :
    Answers alphabet cs (.ofExcept (decodeBase64 alphabet cs >>= textResult)) where
  read s := by
    rw [ofExcept_textResult_eq_ok_iff, decodeBase64_eq_ok_iff, String.ofList_toList]
  rejected := ofExcept_textResult_eq_error_iff.trans decodeBase64_eq_rejected_iff
  crashed := ofExcept_textResult_eq_error_iff.trans decodeBase64_eq_crashed_iff
  exhaustive := by
    rcases decodeBase64_cases alphabet cs with ⟨text, h⟩ | h | h
    · refine .inl ⟨String.ofList text, ofExcept_textResult_eq_ok_iff.mpr ?_⟩
      rwa [String.toList_ofList]
    · exact .inr (.inl (ofExcept_textResult_eq_error_iff.mpr h))
    · exact .inr (.inr (ofExcept_textResult_eq_error_iff.mpr h))

/-- For any value, the filters read the text that it shows, each as base64 over an alphabet of its
own. -/
theorem base64_read (settings : Settings) :
    ∃ read readUrlSafe,
      (Environment.create settings {}).1.filters.get? "base64_decode" = some read ∧
      (Environment.create settings {}).1.filters.get? "base64_url_safe_decode" =
        some readUrlSafe ∧
      ∀ v args options,
        Answers .standard v.display.toList (read.apply v args options) ∧
        Answers .urlSafe v.display.toList (readUrlSafe.apply v args options) := by
  refine ⟨_, _, rfl, rfl, fun v args options => ⟨?_, ?_⟩⟩
  · rw [ofDecoder, ofUnary_apply]
    exact answers_decodeBase64 _ _
  · rw [ofDecoder, ofUnary_apply]
    exact answers_decodeBase64 _ _

/-- A character outside ASCII is out of place like any other, but the text is not rejected for
it. -/
theorem decode_foreign :
    let answer := (ofDecoder "base64_decode" .standard).apply (.string "é") [] []
    answer = .error (.crashed .notAscii) ∧ (¬∃ v, answer = .ok v) ∧
      ¬∃ fault, answer = .error (.rejected fault) := by
  intro answer
  have hcrashed : answer = .error (.crashed .notAscii) := rfl
  rw [hcrashed]
  refine ⟨rfl, ?_, ?_⟩
  · rintro ⟨v, h⟩
    cases h
  · rintro ⟨fault, h⟩
    cases h

end Filters

end Filter

end Liquid
