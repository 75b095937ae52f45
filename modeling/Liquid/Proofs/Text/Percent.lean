import Liquid.Proofs.Text.Utf8
import Liquid.Text.Percent

/-!
# Reading Percent Encoding

An encoded text is read as the text that it was made from. Reading goes in three
steps: pluses become spaces, percent signs become bytes, and bytes become
characters. The first step does no harm because no plus is left in an encoded
text but those that stand for spaces; one that was in the text is a byte by then.

The reader parts a text at characters outside ASCII, and there are none in an
encoded text. So it is one run, and all bytes are there when they are read as
UTF-8. They are those of the text, of which no part is ill-formed, and therefore
nothing is replaced.

## Main definitions

* `Percent.IsSafe`: The characters of encoded texts.
* `Percent.spaced`: The text with spaces for pluses.

## Theorems

* `Percent.isSafe_of_mem_encode`: What an encoded text consists of.
* `Percent.bytes_spaced_encode`: The bytes that it stands for.
* `Percent.decode_encode`: Reading what is written.
-/

namespace Liquid

namespace Text

namespace Percent

/-- Letters and digits of ASCII, and six marks. -/
def IsSafe (c : Char) : Prop :=
  c.isAlphanum = true ∨ c ∈ ['_', '.', '-', '~', '+', '%']

/-- The text with a space in the place of each plus. -/
def spaced (cs : List Char) : List Char :=
  cs.map fun c => if c == '+' then ' ' else c

section Safe

variable {c : Char} {n : Nat}

theorem isAlphanum_hexDigit : ∀ n < 16, (hexDigit n).isAlphanum = true := by
  decide

theorem hexValue?_hexDigit : ∀ n < 16, hexValue? (hexDigit n) = some n := by
  decide

theorem lt_of_isAlphanum (h : c.isAlphanum = true) : c.toNat < 0x80 := by
  have hbound (last : Char) (hle : c.val ≤ last.val) (hlast : last.toNat < 0x80) :
      c.toNat < 0x80 :=
    Nat.lt_of_le_of_lt (UInt32.le_iff_toNat_le.mp hle) hlast
  rcases (Bool.or_eq_true ..).mp h with halpha | hdigit
  · rcases (Bool.or_eq_true ..).mp halpha with hupper | hlower
    · exact hbound 'Z' (of_decide_eq_true hupper).2 (by decide)
    · exact hbound 'z' (of_decide_eq_true ((Bool.and_eq_true ..).mp hlower).2) (by decide)
  · exact hbound '9' (of_decide_eq_true ((Bool.and_eq_true ..).mp hdigit).2) (by decide)

/-- Safe characters are in ASCII. -/
theorem IsSafe.ascii (h : IsSafe c) : c.toNat < 0x80 := by
  rcases h with h | h
  · exact lt_of_isAlphanum h
  · simp only [List.mem_cons, List.not_mem_nil, or_false] at h
    rcases h with rfl | rfl | rfl | rfl | rfl | rfl <;> decide

theorem isSafe_of_isPlain (h : isPlain c = true) : IsSafe c := by
  simp only [isPlain, Bool.or_eq_true, beq_iff_eq] at h
  rcases h with (((h | rfl) | rfl) | rfl) | rfl
  · exact .inl h
  all_goals exact .inr (by decide)

theorem isSafe_of_mem_encodeByte {byte : Nat} (hbyte : byte < 0x100) (h : c ∈ encodeByte byte) :
    IsSafe c := by
  simp only [encodeByte, List.mem_cons, List.not_mem_nil, or_false] at h
  rcases h with rfl | rfl | rfl
  · exact .inr (by decide)
  · exact .inl (isAlphanum_hexDigit _ (by omega))
  · exact .inl (isAlphanum_hexDigit _ (by omega))

/-- Nothing but safe characters is written. -/
theorem isSafe_of_mem_encode {cs : List Char} (h : c ∈ encode cs) : IsSafe c := by
  rcases List.mem_flatMap.mp h with ⟨d, -, hc⟩
  split_ifs at hc with hplain hspace
  · exact isSafe_of_isPlain (List.mem_singleton.mp hc ▸ hplain)
  · rcases List.mem_singleton.mp hc
    exact .inr (by decide)
  · rcases List.mem_flatMap.mp hc with ⟨byte, hbyte, hc⟩
    exact isSafe_of_mem_encodeByte (Utf8.lt_of_mem_encodeChar hbyte) hc

end Safe

section Bytes

variable {c : Char} {cs run : List Char} {byte : Nat}

theorem spaced_append (cs ds : List Char) : spaced (cs ++ ds) = spaced cs ++ spaced ds :=
  List.map_append

theorem spaced_eq_self (h : '+' ∉ cs) : spaced cs = cs := by
  refine (List.map_congr_left fun c hc => ?_).trans (List.map_id cs)
  have hne : ¬(c == '+') = true := by
    intro heq
    exact h (eq_of_beq heq ▸ hc)
  rw [if_neg hne]
  rfl

theorem ne_plus_of_isAlphanum (h : c.isAlphanum = true) : c ≠ '+' := by
  rintro rfl
  exact absurd h (by decide)

/-- A plus that was in the text is a byte, written in digits. -/
theorem spaced_encodeByte (h : byte < 0x100) : spaced (encodeByte byte) = encodeByte byte := by
  apply spaced_eq_self
  intro hplus
  simp only [encodeByte, List.mem_cons, List.not_mem_nil, or_false] at hplus
  have hhigh := ne_plus_of_isAlphanum (isAlphanum_hexDigit (byte / 16) (by omega))
  have hlow := ne_plus_of_isAlphanum (isAlphanum_hexDigit (byte % 16) (by omega))
  rcases hplus with heq | heq | heq
  · exact absurd heq (by decide)
  · exact hhigh heq.symm
  · exact hlow heq.symm

theorem bytes_cons (h : c ≠ '%') : bytes (c :: cs) = c.toNat :: bytes cs := by
  rw [bytes]
  rintro high low rest rfl -
  exact h rfl

/-- A byte that is written with its digits is read back. -/
theorem bytes_encodeByte (h : byte < 0x100) :
    bytes (encodeByte byte ++ cs) = byte :: bytes cs := by
  have hhigh := hexValue?_hexDigit (byte / 16) (by omega)
  have hlow := hexValue?_hexDigit (byte % 16) (by omega)
  have hbyte : 16 * (byte / 16) + byte % 16 = byte := by omega
  simp only [encodeByte, List.cons_append, List.nil_append]
  rw [bytes, hhigh, hlow]
  simp only [hbyte]

theorem bytes_spaced_flatMap {bs : List Nat} (h : ∀ byte ∈ bs, byte < 0x100) :
    bytes (spaced (bs.flatMap encodeByte) ++ cs) = bs ++ bytes cs := by
  induction bs with
  | nil => rfl
  | cons byte bs ih =>
      rcases List.forall_mem_cons.mp h with ⟨hbyte, hbs⟩
      rw [List.flatMap_cons, spaced_append, List.append_assoc, spaced_encodeByte hbyte,
        bytes_encodeByte hbyte, ih hbs, List.cons_append]

theorem ne_of_isPlain (h : isPlain c = true) : c ≠ '+' ∧ c ≠ '%' := by
  constructor
  · rintro rfl
    exact absurd h (by decide)
  · rintro rfl
    exact absurd h (by decide)

/-- What an encoded text stands for is how the text is written. -/
theorem bytes_spaced_encode (cs : List Char) : bytes (spaced (encode cs)) = Utf8.encode cs := by
  induction cs with
  | nil => rw [encode, List.flatMap_nil, spaced, List.map_nil, bytes]; rfl
  | cons c cs ih =>
      rw [encode, List.flatMap_cons, ← encode, spaced_append, Utf8.encode, List.flatMap_cons,
        ← Utf8.encode, ← ih]
      -- A character is written plain, as a plus sign, or as the bytes it is encoded to.
      split_ifs with hplain hspace
      · -- A plain character is its own byte, and neither of the two signs that mean something else.
        have hne := ne_of_isPlain hplain
        have hascii := (isSafe_of_isPlain hplain).ascii
        rw [spaced_eq_self (by simpa using hne.1.symm), List.singleton_append, bytes_cons hne.2,
          Utf8.encodeChar_of_ascii hascii]
        rfl
      · rw [eq_of_beq hspace]
        exact bytes_cons (by decide)
      · exact bytes_spaced_flatMap fun byte hbyte => Utf8.lt_of_mem_encodeChar hbyte

/-- A text in ASCII is read as one run. -/
theorem decodeFrom_ascii (h : ∀ c ∈ cs, c.toNat < 0x80) :
    decodeFrom run cs = Utf8.decodeLenient (bytes (run.reverse ++ cs)) := by
  induction cs generalizing run with
  | nil => rw [decodeFrom, List.append_nil]
  | cons c cs ih =>
      rcases List.forall_mem_cons.mp h with ⟨hc, hcs⟩
      rw [decodeFrom, if_pos hc, ih hcs, List.reverse_cons, List.append_assoc,
        List.singleton_append]

/-- Every text that is written is read back. -/
theorem decode_encode (cs : List Char) : decode (encode cs) = cs := by
  have hascii : ∀ c ∈ spaced (encode cs), c.toNat < 0x80 := by
    intro c hc
    rcases List.mem_map.mp hc with ⟨d, hd, rfl⟩
    split_ifs with hplus
    · decide
    · exact (isSafe_of_mem_encode hd).ascii
  calc decode (encode cs) = decodeFrom [] (spaced (encode cs)) := rfl
    _ = Utf8.decodeLenient (bytes (spaced (encode cs))) := decodeFrom_ascii hascii
    _ = cs := by rw [bytes_spaced_encode, Utf8.decodeLenient_encode]

end Bytes

end Percent

end Text

end Liquid
