import Liquid.Text.Utf8
import Mathlib.Data.List.Basic

/-!
# Well-Formed UTF-8

Bytes are read as a text just if they are how that text is written. Writing has
four forms, by the size of the code point. Reading tells the form from the first
byte, and the bounds for the byte after it leave out what could be written in a
shorter form, the surrogates, and all that is beyond the last code point. What
is left in each form is just what is written in it.

How a text is written agrees with the standard library, whose bytes have a type
of their own.

## Main definitions

* `Utf8.bytesOf`: The bytes of a text in the standard library, as numbers.

## Theorems

* `Utf8.next_encodeChar`, `Utf8.eq_encodeChar_of_next`: One character.
* `Utf8.decode?_eq_some_iff`: All of them.
* `Utf8.decode_encode`, `Utf8.decodeLenient_encode`: Nothing of what is written
  is ill-formed, so nothing is replaced.
* `Utf8.bytesOf_eq_encode`: Agreement with the standard library.
-/

namespace Liquid

namespace Text

namespace Utf8

/-- The bytes of a text in the standard library, as numbers. -/
def bytesOf (s : String) : List Nat :=
  s.toUTF8.data.toList.map UInt8.toNat

section Char

variable {c : Char} {lead low high count bits : Nat} {bytes rest : List Nat}

theorem toNat_ofNat_of_valid {n : Nat} (h : n.isValidChar) : (Char.ofNat n).toNat = n := by
  rw [Char.ofNat, dif_pos h]
  rfl

/-- A byte in bounds adds its six bits. -/
theorem continued_byte {byte : Nat} (hlow : low ≤ byte) (hhigh : byte ≤ high) :
    continued low high (count + 1) bits (byte :: rest) =
      continued 0x80 0xBF count (bits * 0x40 + byte % 0x40) rest := by
  rw [continued, if_pos (by simp [hlow, hhigh])]

/-- What is read to go on with is a byte between the bounds. -/
theorem exists_of_continued (h : continued low high (count + 1) bits bytes = (some c, rest)) :
    ∃ byte bytes', bytes = byte :: bytes' ∧ low ≤ byte ∧ byte ≤ high ∧
      continued 0x80 0xBF count (bits * 0x40 + byte % 0x40) bytes' = (some c, rest) := by
  cases bytes with
  | nil => cases h
  | cons byte bytes =>
      rw [continued] at h
      split at h
      · next hbounds =>
        simp only [Bool.and_eq_true, decide_eq_true_eq] at hbounds
        exact ⟨byte, bytes, rfl, hbounds.1, hbounds.2, h⟩
      · cases h

/-- What is written for a character is read as it, whatever is behind it. -/
theorem next_encodeChar (c : Char) (rest : List Nat) :
    ∃ lead bytes, encodeChar c = lead :: bytes ∧ next lead (bytes ++ rest) = (some c, rest) := by
  have hvalid : c.toNat.isValidChar := c.valid
  unfold Nat.isValidChar at hvalid
  unfold encodeChar
  dsimp only
  -- One case for each number of bytes, with the bits put together again.
  split_ifs with hone htwo hthree
  · refine ⟨_, _, rfl, ?_⟩
    rw [next, if_pos hone, Char.ofNat_toNat]
    rfl
  · refine ⟨_, _, rfl, ?_⟩
    have hbits : (0xC0 + c.toNat / 0x40) % 0x20 * 0x40 + (0x80 + c.toNat % 0x40) % 0x40 = c.toNat := by
      omega
    rw [List.singleton_append, next, if_neg (by omega), if_neg (by omega), if_pos (by omega),
      continued_byte (by omega) (by omega), hbits, continued, Char.ofNat_toNat]
  · refine ⟨_, _, rfl, ?_⟩
    have hbits : ((0xE0 + c.toNat / 0x1000) % 0x10 * 0x40 +
        (0x80 + c.toNat / 0x40 % 0x40) % 0x40) * 0x40 + (0x80 + c.toNat % 0x40) % 0x40 =
          c.toNat := by
      omega
    rw [List.cons_append, List.singleton_append, next, if_neg (by omega), if_neg (by omega),
      if_neg (by omega), if_pos (by omega), continued_byte, continued_byte (by omega) (by omega),
      hbits, continued, Char.ofNat_toNat]
    · simp only [beq_iff_eq]
      split_ifs <;> omega
    · simp only [beq_iff_eq]
      split_ifs <;> omega
  · refine ⟨_, _, rfl, ?_⟩
    have hbits : (((0xF0 + c.toNat / 0x40000) % 0x08 * 0x40 +
        (0x80 + c.toNat / 0x1000 % 0x40) % 0x40) * 0x40 +
          (0x80 + c.toNat / 0x40 % 0x40) % 0x40) * 0x40 + (0x80 + c.toNat % 0x40) % 0x40 =
            c.toNat := by
      omega
    rw [List.cons_append, List.cons_append, List.singleton_append, next, if_neg (by omega),
      if_neg (by omega), if_neg (by omega), if_neg (by omega), if_pos (by omega), continued_byte,
      continued_byte (by omega) (by omega), continued_byte (by omega) (by omega), hbits, continued,
      Char.ofNat_toNat]
    · simp only [beq_iff_eq]
      split_ifs <;> omega
    · simp only [beq_iff_eq]
      split_ifs <;> omega

/-- Two bytes make a character that is written as them. -/
theorem encodeChar_two {b : Nat} (hlead : 0xC2 ≤ lead) (hlead' : lead < 0xE0) (hb : 0x80 ≤ b)
    (hb' : b ≤ 0xBF) : encodeChar (Char.ofNat (lead % 0x20 * 0x40 + b % 0x40)) = [lead, b] := by
  rw [encodeChar, toNat_ofNat_of_valid (.inl (by omega)), if_neg (by omega), if_pos (by omega)]
  simp only [List.cons.injEq, and_true]
  omega

/-- So do three, unless it could be written as two or is a surrogate. -/
theorem encodeChar_three {b d : Nat} (hlead : 0xE0 ≤ lead) (hlead' : lead < 0xF0)
    (hb : 0x80 ≤ b) (hb' : b ≤ 0xBF) (hd : 0x80 ≤ d) (hd' : d ≤ 0xBF)
    (hshort : lead = 0xE0 → 0xA0 ≤ b) (hsurrogate : lead = 0xED → b ≤ 0x9F) :
    encodeChar (Char.ofNat ((lead % 0x10 * 0x40 + b % 0x40) * 0x40 + d % 0x40)) =
      [lead, b, d] := by
  have hvalid : ((lead % 0x10 * 0x40 + b % 0x40) * 0x40 + d % 0x40).isValidChar := by
    unfold Nat.isValidChar
    omega
  rw [encodeChar, toNat_ofNat_of_valid hvalid, if_neg (by omega), if_neg (by omega),
    if_pos (by omega)]
  simp only [List.cons.injEq, and_true]
  omega

/-- So do four, unless it could be written as three or is beyond the last. -/
theorem encodeChar_four {b d e : Nat} (hlead : 0xF0 ≤ lead) (hlead' : lead < 0xF5)
    (hb : 0x80 ≤ b) (hb' : b ≤ 0xBF) (hd : 0x80 ≤ d) (hd' : d ≤ 0xBF) (he : 0x80 ≤ e)
    (he' : e ≤ 0xBF) (hshort : lead = 0xF0 → 0x90 ≤ b) (hlast : lead = 0xF4 → b ≤ 0x8F) :
    encodeChar (Char.ofNat
      (((lead % 0x08 * 0x40 + b % 0x40) * 0x40 + d % 0x40) * 0x40 + e % 0x40)) =
        [lead, b, d, e] := by
  -- The bounds of the second byte keep the point below the last one.
  have hvalid : (((lead % 0x08 * 0x40 + b % 0x40) * 0x40 + d % 0x40) * 0x40 +
      e % 0x40).isValidChar := by
    unfold Nat.isValidChar
    omega
  rw [encodeChar, toNat_ofNat_of_valid hvalid, if_neg (by omega), if_neg (by omega),
    if_neg (by omega)]
  simp only [List.cons.injEq, and_true]
  omega

/-- A character is read only from what is written for it. -/
theorem eq_encodeChar_of_next (h : next lead bytes = (some c, rest)) :
    lead :: bytes = encodeChar c ++ rest := by
  -- One case for each number of bytes, told by the first of them.
  rw [next] at h
  by_cases hone : lead < 0x80
  · rw [if_pos hone] at h
    cases h
    rw [encodeChar, toNat_ofNat_of_valid (.inl (by omega)), if_pos hone]
    rfl
  rw [if_neg hone] at h
  by_cases hnone : lead < 0xC2
  · rw [if_pos hnone] at h
    cases h
  rw [if_neg hnone] at h
  by_cases htwo : lead < 0xE0
  · rw [if_pos htwo] at h
    rcases exists_of_continued h with ⟨b, bytes, rfl, hb, hb', h⟩
    cases h
    rw [encodeChar_two (by omega) htwo hb hb']
    rfl
  rw [if_neg htwo] at h
  by_cases hthree : lead < 0xF0
  · rw [if_pos hthree] at h
    rcases exists_of_continued h with ⟨b, bytes, rfl, hb, hb', h⟩
    rcases exists_of_continued h with ⟨d, bytes, rfl, hd, hd', h⟩
    cases h
    simp only [beq_iff_eq] at hb hb'
    have hshort : lead = 0xE0 → 0xA0 ≤ b := fun heq => by rwa [if_pos heq] at hb
    have hsurrogate : lead = 0xED → b ≤ 0x9F := fun heq => by rwa [if_pos heq] at hb'
    have hb : 0x80 ≤ b := by split_ifs at hb <;> omega
    have hb' : b ≤ 0xBF := by split_ifs at hb' <;> omega
    rw [encodeChar_three (by omega) hthree hb hb' hd hd' hshort hsurrogate]
    rfl
  rw [if_neg hthree] at h
  by_cases hfour : lead < 0xF5
  · rw [if_pos hfour] at h
    rcases exists_of_continued h with ⟨b, bytes, rfl, hb, hb', h⟩
    rcases exists_of_continued h with ⟨d, bytes, rfl, hd, hd', h⟩
    rcases exists_of_continued h with ⟨e, bytes, rfl, he, he', h⟩
    cases h
    simp only [beq_iff_eq] at hb hb'
    have hshort : lead = 0xF0 → 0x90 ≤ b := fun heq => by rwa [if_pos heq] at hb
    have hlast : lead = 0xF4 → b ≤ 0x8F := fun heq => by rwa [if_pos heq] at hb'
    have hb : 0x80 ≤ b := by split_ifs at hb <;> omega
    have hb' : b ≤ 0xBF := by split_ifs at hb' <;> omega
    rw [encodeChar_four (by omega) hfour hb hb' hd hd' he he' hshort hlast]
    rfl
  rw [if_neg hfour] at h
  cases h

end Char

section Text

variable {cs : List Char} {bytes : List Nat}

/-- What is written for a text is read with no ill-formed part. -/
theorem decode_encode (cs : List Char) : decode (encode cs) = cs.map some := by
  induction cs with
  | nil => rw [encode, List.flatMap_nil, decode, List.map_nil]
  | cons c cs ih =>
      rcases next_encodeChar c (encode cs) with ⟨lead, bytes, heq, hnext⟩
      rw [encode, List.flatMap_cons, ← encode, heq, List.cons_append, decode, hnext, ih,
        List.map_cons]

/-- Every text is read back from its bytes. -/
theorem decode?_encode (cs : List Char) : decode? (encode cs) = some cs := by
  rw [decode?, decode_encode]
  induction cs with
  | nil => rfl
  | cons c cs ih =>
      rw [List.map_cons, List.mapM_cons, ih]
      rfl

/-- Also where broken bytes would be replaced, since there are none. -/
theorem decodeLenient_encode (cs : List Char) : decodeLenient (encode cs) = cs := by
  rw [decodeLenient, decode_encode, List.map_map]
  exact List.map_id cs

/-- Bytes that are read are those of the text. -/
theorem eq_encode_of_decode? (h : decode? bytes = some cs) : bytes = encode cs := by
  unfold decode? at h
  fun_induction decode bytes generalizing cs with
  | case1 =>
      cases h
      rfl
  | case2 lead rest ih =>
      rw [List.mapM_cons] at h
      rcases Option.bind_eq_some_iff.mp h with ⟨c, hc, h⟩
      rcases Option.bind_eq_some_iff.mp h with ⟨cs', hcs', h⟩
      cases h
      rw [encode, List.flatMap_cons, ← encode, ← ih hcs']
      exact eq_encodeChar_of_next (Prod.ext hc rfl)

/-- Bytes are read as a text if they are how it is written, and not otherwise. -/
theorem decode?_eq_some_iff : decode? bytes = some cs ↔ bytes = encode cs :=
  ⟨eq_encode_of_decode?, fun h => h ▸ decode?_encode cs⟩

/-- Both ways of writing take the same bits, which make a byte each. -/
theorem encodeChar_eq (c : Char) : encodeChar c = (String.utf8EncodeChar c).map UInt8.toNat := by
  have hpoint : c.val.toNat = c.toNat := rfl
  have hvalid : c.toNat.isValidChar := c.valid
  unfold Nat.isValidChar at hvalid
  unfold encodeChar String.utf8EncodeChar
  rw [hpoint]
  dsimp only
  split_ifs <;>
    simp only [List.map_cons, List.map_nil, UInt8.toNat_ofNat', List.cons.injEq, and_true] <;>
    omega

/-- A character of ASCII is its own byte. -/
theorem encodeChar_of_ascii {c : Char} (h : c.toNat < 0x80) : encodeChar c = [c.toNat] := by
  rw [encodeChar]
  exact if_pos h

theorem lt_of_mem_encodeChar {c : Char} {byte : Nat} (h : byte ∈ encodeChar c) : byte < 0x100 := by
  rw [encodeChar_eq] at h
  rcases List.mem_map.mp h with ⟨found, -, rfl⟩
  exact found.toNat_lt

theorem lt_of_mem_encode {byte : Nat} (h : byte ∈ encode cs) : byte < 0x100 := by
  rcases List.mem_flatMap.mp h with ⟨c, -, hbyte⟩
  exact lt_of_mem_encodeChar hbyte

/-- The bytes of a string are those of its characters. -/
theorem bytesOf_eq_encode (s : String) : bytesOf s = encode s.toList := by
  have hbytes : s.toUTF8.data.toList = s.toList.flatMap String.utf8EncodeChar := by
    conv_lhs => rw [← String.ofList_toList (s := s)]
    exact List.toList_data_toByteArray
  rw [bytesOf, hbytes, encode, List.map_flatMap]
  exact List.flatMap_congr fun c _ => (encodeChar_eq c).symm

end Text

end Utf8

end Text

end Liquid
