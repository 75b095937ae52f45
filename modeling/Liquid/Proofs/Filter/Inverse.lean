import Liquid.Proofs.Filter.Encoding
import Liquid.Proofs.Text.Percent

/-!
# Encodings Undone

What is encoded is read back as it was. The filters for addresses and those for
base64 come in pairs, and the second one of a pair undoes the first one on every
text, since a text has bytes and neither way of writing loses any of them.

Of base64 nothing depends on the equals signs at the end. As many of them as one
likes may be taken off, as the reader puts on again what the length asks for.
Taking some off and not others still leaves a length that tells how many there
were, for there are never more than two.

The reader for addresses also takes what is written over the standard alphabet,
whose last two signs have no other meaning there. The converse does not hold.

## Main definitions

* `Filter.Escapes`: What the filters for addresses do with a text.
* `Filter.Carries`: What a filter that writes base64 does with it, and how that
  is read.

## Theorems

* `Filter.encodes_kept`: What is written encodes the text, with or without its
  equals signs.
* `Filter.encodings_undone`: The filters of both kinds.
-/

namespace Liquid

open Text Base64

namespace Filter

/-- The name of the filter that writes base64 over an alphabet. -/
def writerName : Alphabet → String
  | .standard => "base64_encode"
  | .urlSafe => "base64_url_safe_encode"

/-- The name of the filter that reads it. -/
def readerName : Alphabet → String
  | .standard => "base64_decode"
  | .urlSafe => "base64_url_safe_decode"

/-- The text that a value shows is written with safe characters only, and read back. -/
structure Escapes (write read : Value → Noted FilterFailure Value) (v : Value) (written : String) :
    Prop where
  written_eq : write v = .ok (.string written)
  written_safe : ∀ c ∈ written.toList, Percent.IsSafe c
  read_eq : read (.string written) = .ok (.string v.display)

/-- The text that a value shows is written in base64 over an alphabet. It is read back by the reader
for that alphabet and by the one for addresses, from any text that lacks only equals signs at its
end. -/
structure Carries (write : Value → Noted FilterFailure Value)
    (read : Alphabet → Value → Noted FilterFailure Value) (alphabet : Alphabet) (v : Value)
    (written : String) : Prop where
  written_eq : write v = .ok (.string written)
  read_eq : ∀ (kept : String) (count : Nat),
    written.toList = kept.toList ++ List.replicate count '=' →
      read alphabet (.string kept) = .ok (.string v.display)
  urlSafe_eq : ∀ (kept : String) (count : Nat),
    written.toList = kept.toList ++ List.replicate count '=' →
      read .urlSafe (.string kept) = .ok (.string v.display)

section Written

variable {reader writer : Alphabet} {bytes : List Nat} {kept : List Char} {count : Nat} {s : String}

/-- The reader makes standard signs of those of the writer. -/
theorem inStandard_encode (hreader : reader = writer ∨ reader = .urlSafe)
    (h : ∀ byte ∈ bytes, byte < 0x100) :
    reader.inStandard (encode writer bytes) = encode .standard bytes := by
  cases reader with
  | urlSafe => exact toStandard_encode h
  | standard =>
      rcases hreader with rfl | hother
      · rfl
      · cases hother

/-- Without its padding, or with some of it, an encoded text encodes the same. -/
theorem encodes_kept (hreader : reader = writer ∨ reader = .urlSafe)
    (h : encode writer (Utf8.encode s.toList) = kept ++ List.replicate count '=') :
    Encodes reader kept s := by
  have hbytes : ∀ byte ∈ Utf8.encode s.toList, byte < 0x100 :=
    fun byte hbyte => Utf8.lt_of_mem_encode hbyte
  -- What was taken off is padding, so it is what the length asks for.
  have hcount : count ≤ 2 := by
    have hle : (encode writer (Utf8.encode s.toList)).count '=' ≤ 2 := count_pad_encode_le hbytes
    rw [h, List.count_append, List.count_replicate_self] at hle
    omega
  have hlength := dvd_length_encode writer (Utf8.encode s.toList)
  rw [h, List.length_append, List.length_replicate] at hlength
  refine ⟨count, by omega, hlength, ?_⟩
  rw [← h, inStandard_encode hreader hbytes, Utf8.bytesOf_eq_encode]
  exact strict_encode hbytes

/-- So it is read back, padded or not. -/
theorem ofDecoder_apply_kept (hreader : reader = writer ∨ reader = .urlSafe) (name : String)
    (args : List Value) (options : Table Value) {t : String}
    (h : encode writer (Utf8.encode s.toList) = t.toList ++ List.replicate count '=') :
    (ofDecoder name reader).apply (.string t) args options = .ok (.string s) := by
  rw [ofDecoder, ofUnary_apply]
  exact ((answers_decodeBase64 reader t.toList).read s).mpr (encodes_kept hreader h)

end Written

/-- For any value, the text that it shows is read back from what the filters write. -/
theorem encodings_undone (settings : Settings) :
    ∃ (escape unescape : Filter) (write read : Alphabet → Filter),
      (Environment.create settings {}).1.filters.get? "url_encode" = some escape ∧
      (Environment.create settings {}).1.filters.get? "url_decode" = some unescape ∧
      (∀ alphabet,
        (Environment.create settings {}).1.filters.get? (writerName alphabet) =
          some (write alphabet) ∧
        (Environment.create settings {}).1.filters.get? (readerName alphabet) =
          some (read alphabet)) ∧
      ∀ v args options,
        (∃ written, Escapes (escape.apply · args options) (unescape.apply · args options) v
          written) ∧
        ∀ alphabet, ∃ written, Carries ((write alphabet).apply · args options)
          (fun reader => ((read reader).apply · args options)) alphabet v written := by
  refine ⟨_, _,
    fun alphabet => ofChars (writerName alphabet) fun cs => encode alphabet (Utf8.encode cs),
    fun alphabet => ofDecoder (readerName alphabet) alphabet, rfl, rfl, ?_, ?_⟩
  · intro alphabet
    cases alphabet <;> exact ⟨rfl, rfl⟩
  -- For each pair of filters: what is written is safe, and it is read back.
  · intro v args options
    refine ⟨⟨_, ofChars_apply .., ?_, ?_⟩, fun alphabet => ⟨_, ofChars_apply .., ?_, ?_⟩⟩
    · rw [String.toList_ofList]
      intro c hc
      exact Percent.isSafe_of_mem_encode hc
    · rw [ofChars_apply, Value.display, String.toList_ofList, Percent.decode_encode,
        String.ofList_toList]
    · rw [String.toList_ofList]
      intro kept count h
      exact ofDecoder_apply_kept (.inl rfl) _ args options h
    · rw [String.toList_ofList]
      intro kept count h
      exact ofDecoder_apply_kept (.inr rfl) _ args options h

/-- A text with a sign that only the standard alphabet has, read for addresses without its equals
signs. -/
theorem encodings_undone_unpadded :
    let written : String := "YWI/Yw=="
    (ofChars "base64_encode" fun cs => encode .standard (Utf8.encode cs)).apply (.string "ab?c")
        [] [] = .ok (.string written) ∧
      written.toList = "YWI/Yw".toList ++ List.replicate 2 '=' ∧
      (ofDecoder "base64_url_safe_decode" .urlSafe).apply (.string "YWI/Yw") [] [] =
        .ok (.string "ab?c") := by
  intro written
  have hpads : written.toList = "YWI/Yw".toList ++ List.replicate 2 '=' := by decide
  have hwritten : (ofChars "base64_encode" fun cs => encode .standard (Utf8.encode cs)).apply
      (.string "ab?c") [] [] = .ok (.string written) := rfl
  rcases encodings_undone {} with ⟨_, _, write, read, -, -, hnames, h⟩
  rcases (h (.string "ab?c") [] []).2 .standard with ⟨found, hcarries⟩
  -- The filters are those of their names.
  have hwrite : write .standard =
      ofChars "base64_encode" fun cs => encode .standard (Utf8.encode cs) :=
    (Option.some.inj (hnames .standard).1).symm
  have hread : read .urlSafe = ofDecoder "base64_url_safe_decode" .urlSafe :=
    (Option.some.inj (hnames .urlSafe).2).symm
  have hfound : found = written := by
    have heq := hcarries.written_eq
    rw [hwrite, hwritten] at heq
    cases heq
    rfl
  subst hfound
  refine ⟨hwritten, hpads, ?_⟩
  rw [← hread]
  exact hcarries.urlSafe_eq "YWI/Yw" 2 hpads

end Filter

end Liquid
