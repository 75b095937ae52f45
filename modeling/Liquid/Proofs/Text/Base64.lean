import Liquid.Text.Base64
import Mathlib.Data.List.Basic

/-!
# Well-Formed Base64

Which texts are base64, and of which bytes. A sign stands for six bits, and four
signs for three bytes, so the number that the signs write is the one that the
bytes write. Two or three signs at the end write a number that goes on behind
the last byte. The bits behind it belong to no byte and may be any.

The reader goes through a text sign by sign and keeps the signs of the group that
it is in. Where a group ends it is as at the start, except that equals signs are
taken there. So what follows a group is told first, for any text, and a whole
text is one that might follow a group and does not start with an equals sign.

## Main definitions

* `Base64.Sign`: The signs and their bits.
* `Base64.Follows`: What may follow a group.
* `Base64.Strict`: The texts of base64, each with its bytes.
* `Base64.Alphabet.inStandard`: The texts over either alphabet as those over the
  standard one.

## Theorems

* `Base64.bits?_eq_some_iff`: The bits of a sign.
* `Base64.decodeFrom?_eq_some_iff`, `Base64.decode?_eq_some_iff`: What is read,
  and as which bytes.
* `Base64.strict_encode`, `Base64.toStandard_encode`: What is written over either
  alphabet.
* `Base64.count_pad_encode_le`: How much of it is padding.
-/

namespace Liquid

namespace Text

namespace Base64

/-- The signs of the standard alphabet, in the order of what they stand for. -/
def signs : List Char :=
  "ABCDEFGHIJKLMNOPQRSTUVWXYZabcdefghijklmnopqrstuvwxyz0123456789+/".toList

/-- Whether the character is the sign for these six bits. -/
def Sign (c : Char) (n : Nat) : Prop :=
  signs[n]? = some c

/-- What may stand in a text where a group of four signs has ended, and the bytes of it. -/
inductive Follows : List Char → List Nat → Prop
  /-- Nothing, or any number of equals signs. -/
  | padding (k : Nat) : Follows (List.replicate k '=') []
  | one {c₁ c₂ : Char} {n₁ n₂ a spare : Nat} : Sign c₁ n₁ → Sign c₂ n₂ → a < 256 → spare < 16 →
      n₁ * 64 + n₂ = a * 16 + spare → Follows [c₁, c₂, '=', '='] [a]
  | two {c₁ c₂ c₃ : Char} {n₁ n₂ n₃ a b spare : Nat} : Sign c₁ n₁ → Sign c₂ n₂ → Sign c₃ n₃ →
      a < 256 → b < 256 → spare < 4 →
      (n₁ * 64 + n₂) * 64 + n₃ = (a * 256 + b) * 4 + spare → Follows [c₁, c₂, c₃, '='] [a, b]
  | three {c₁ c₂ c₃ c₄ : Char} {n₁ n₂ n₃ n₄ a b c : Nat} {cs : List Char} {bytes : List Nat} :
      Sign c₁ n₁ → Sign c₂ n₂ → Sign c₃ n₃ → Sign c₄ n₄ → a < 256 → b < 256 → c < 256 →
      ((n₁ * 64 + n₂) * 64 + n₃) * 64 + n₄ = (a * 256 + b) * 256 + c → Follows cs bytes →
      Follows (c₁ :: c₂ :: c₃ :: c₄ :: cs) (a :: b :: c :: bytes)

/-- The texts that are base64, and the bytes that they stand for. -/
structure Strict (cs : List Char) (bytes : List Nat) : Prop where
  follows : Follows cs bytes
  noLeadingPad : cs.head? ≠ some '='

/-- A text over either alphabet, as one over the standard one. -/
def Alphabet.inStandard : Alphabet → List Char → List Char
  | .standard, cs => cs
  | .urlSafe, cs => toStandard cs

section Signs

variable {c : Char} {n : Nat}

theorem signs_getElem? : ∀ n < 64, signs[n]? = some (Alphabet.standard.char n) := by
  decide

theorem bits?_char : ∀ n < 64, bits? (Alphabet.standard.char n) = some n := by
  decide

/-- Each sign is the one for its bits. -/
theorem char_of_bits? (h : bits? c = some n) : n < 64 ∧ Alphabet.standard.char n = c := by
  have hle {a b : Char} (hab : a ≤ b) : a.toNat ≤ b.toNat := hab
  have hA : 'A'.toNat = 65 := rfl
  have hZ : 'Z'.toNat = 90 := rfl
  have ha : 'a'.toNat = 97 := rfl
  have hz : 'z'.toNat = 122 := rfl
  have h0 : '0'.toNat = 48 := rfl
  have h9 : '9'.toNat = 57 := rfl
  unfold bits? at h
  split_ifs at h with hupper hlower hdigit hplus hslash
  -- Upper letters, lower letters and digits are counted from the first of them.
  · simp only [Bool.and_eq_true, decide_eq_true_eq] at hupper
    have hfirst := hle hupper.1
    have hlast := hle hupper.2
    cases h
    have hpoint : 'A'.toNat + (c.toNat - 'A'.toNat) = c.toNat := by omega
    rw [Alphabet.char, if_pos (by omega), hpoint, Char.ofNat_toNat]
    exact ⟨by omega, rfl⟩
  · simp only [Bool.and_eq_true, decide_eq_true_eq] at hlower
    have hfirst := hle hlower.1
    have hlast := hle hlower.2
    cases h
    have hpoint : 'a'.toNat + (c.toNat - 'a'.toNat + 26 - 26) = c.toNat := by omega
    rw [Alphabet.char, if_neg (by omega), if_pos (by omega), hpoint, Char.ofNat_toNat]
    exact ⟨by omega, rfl⟩
  · have hdigit := Char.isDigit_iff_toNat.mp hdigit
    cases h
    have hpoint : '0'.toNat + (c.toNat - '0'.toNat + 52 - 52) = c.toNat := by omega
    rw [Alphabet.char, if_neg (by omega), if_neg (by omega), if_pos (by omega), hpoint,
      Char.ofNat_toNat]
    exact ⟨by omega, rfl⟩
  · cases h
    exact ⟨by decide, (eq_of_beq hplus).symm⟩
  · cases h
    exact ⟨by decide, (eq_of_beq hslash).symm⟩

/-- A sign is read by its place in the alphabet. -/
theorem bits?_eq_some_iff : bits? c = some n ↔ Sign c n := by
  constructor
  · intro h
    rcases char_of_bits? h with ⟨hlt, rfl⟩
    exact signs_getElem? n hlt
  · intro h
    have hlt : n < 64 := (List.getElem?_eq_some_iff.mp h).1
    have heq : Alphabet.standard.char n = c :=
      Option.some.inj ((signs_getElem? n hlt).symm.trans h)
    exact heq ▸ bits?_char n hlt

theorem Sign.lt (h : Sign c n) : n < 64 :=
  (char_of_bits? (bits?_eq_some_iff.mpr h)).1

theorem Sign.ne_pad (h : Sign c n) : c ≠ '=' := by
  rintro rfl
  cases bits?_eq_some_iff.mpr h

theorem Sign.ascii (h : Sign c n) : c.toNat < 0x80 := by
  have hall : signs.all (fun c => c.toNat < 0x80) = true := rfl
  exact of_decide_eq_true (List.all_eq_true.mp hall c (List.mem_of_getElem? h))

end Signs

/-- What can be read is in ASCII. -/
theorem Follows.ascii {cs : List Char} {bytes : List Nat} (h : Follows cs bytes) :
    ∀ c ∈ cs, c.toNat < 0x80 := by
  induction h with
  | padding k => exact fun c hc => List.eq_of_mem_replicate hc ▸ by decide
  | one h₁ h₂ => simp [h₁.ascii, h₂.ascii]
  | two h₁ h₂ h₃ => simp [h₁.ascii, h₂.ascii, h₃.ascii]
  | three h₁ h₂ h₃ h₄ _ _ _ _ _ ih =>
      simpa [h₁.ascii, h₂.ascii, h₃.ascii, h₄.ascii] using ih

section Reader

variable {c : Char} {n a b d pads : Nat} {held bytes : List Nat} {cs : List Char}

/-- A sign goes to those of the open group, unless it ends it. -/
theorem decodeFrom?_sign (h : Sign c n) (hheld : held.length < 3) :
    decodeFrom? held 0 (c :: cs) = decodeFrom? (n :: held) 0 cs := by
  have hc : ¬(c == '=') := by simpa using h.ne_pad
  conv_lhs => unfold decodeFrom?
  rw [if_neg hc, bits?_eq_some_iff.mpr h]
  match held, hheld with
  | [], _ => rfl
  | [_], _ => rfl
  | [_, _], _ => rfl

/-- The fourth sign of a group completes three bytes. -/
theorem decodeFrom?_group (h : Sign c n) :
    decodeFrom? [d, b, a] 0 (c :: cs) = (decodeFrom? [] 0 cs).map fun rest =>
      [a * 4 + b / 16, b % 16 * 16 + d / 4, d % 4 * 64 + n] ++ rest := by
  rw [decodeFrom?, if_neg (by simpa using h.ne_pad), bits?_eq_some_iff.mpr h]
  rfl

/-- A character that is taken is an equals sign or one of the alphabet, and one of the alphabet is
not taken behind an equals sign. -/
theorem eq_pad_or_sign (h : decodeFrom? held pads (c :: cs) = some bytes) :
    c = '=' ∨ pads = 0 ∧ ∃ n, Sign c n := by
  by_cases hc : c = '='
  · exact .inl hc
  · have hne : ¬(c == '=') := by simpa using hc
    unfold decodeFrom? at h
    rw [if_neg hne] at h
    split at h
    · cases h
    · next n hn =>
      split at h
      · cases h
      · next hpads => exact .inr ⟨by omega, n, bits?_eq_some_iff.mp hn⟩

theorem decodeFrom?_padding (pads k : Nat) :
    decodeFrom? [] pads (List.replicate k '=') = some [] := by
  induction k generalizing pads with
  | zero => rfl
  | succ k ih => exact ih (pads + 1)

/-- Behind an equals sign where no group is open there are only equals signs. -/
theorem exists_replicate (h : decodeFrom? [] (pads + 1) cs = some bytes) :
    ∃ k, cs = List.replicate k '=' ∧ bytes = [] := by
  induction cs generalizing pads with
  | nil =>
      cases h
      exact ⟨0, rfl, rfl⟩
  | cons c cs ih =>
      rcases eq_pad_or_sign h with rfl | ⟨hpads, -⟩
      · rcases ih h with ⟨k, rfl, rfl⟩
        exact ⟨k + 1, rfl, rfl⟩
      · omega

/-- One sign alone makes no byte. -/
theorem decodeFrom?_one_pad : decodeFrom? [a] (pads + 1) cs = none := by
  induction cs generalizing pads with
  | nil => rfl
  | cons c cs ih =>
      rw [Option.eq_none_iff_forall_ne_some]
      intro bytes h
      rcases eq_pad_or_sign h with rfl | ⟨hpads, -⟩
      · exact Option.some_ne_none bytes (h.symm.trans ih)
      · omega

/-- What may stand where no group is open. -/
theorem decodeFrom?_none_held (h : decodeFrom? [] 0 cs = some bytes) :
    (∃ k, cs = List.replicate k '=' ∧ bytes = []) ∨
      ∃ c n rest, cs = c :: rest ∧ Sign c n ∧ decodeFrom? [n] 0 rest = some bytes := by
  cases cs with
  | nil =>
      cases h
      exact .inl ⟨0, rfl, rfl⟩
  | cons c cs =>
      rcases eq_pad_or_sign h with rfl | ⟨-, n, hc⟩
      · rcases exists_replicate h with ⟨k, rfl, rfl⟩
        exact .inl ⟨k + 1, rfl, rfl⟩
      · rw [decodeFrom?_sign hc (by decide)] at h
        exact .inr ⟨c, n, cs, rfl, hc, h⟩

/-- What may stand behind one sign. -/
theorem decodeFrom?_one_held (h : decodeFrom? [a] 0 cs = some bytes) :
    ∃ c n rest, cs = c :: rest ∧ Sign c n ∧ decodeFrom? [n, a] 0 rest = some bytes := by
  cases cs with
  | nil => cases h
  | cons c cs =>
      rcases eq_pad_or_sign h with rfl | ⟨-, n, hc⟩
      · exact absurd (decodeFrom?_one_pad.symm.trans h) (fun heq => (nomatch heq))
      · rw [decodeFrom?_sign hc (by simp)] at h
        exact ⟨c, n, cs, rfl, hc, h⟩

/-- What may stand behind two signs. -/
theorem decodeFrom?_two_held (h : decodeFrom? [b, a] 0 cs = some bytes) :
    cs = ['=', '='] ∧ bytes = [a * 4 + b / 16] ∨
      ∃ c n rest, cs = c :: rest ∧ Sign c n ∧ decodeFrom? [n, b, a] 0 rest = some bytes := by
  cases cs with
  | nil => cases h
  | cons c cs =>
      -- Two signs are followed by two pads, or by a third sign.
      rcases eq_pad_or_sign h with rfl | ⟨-, n, hc⟩
      · have h : decodeFrom? [b, a] 1 cs = some bytes := h
        cases cs with
        | nil => cases h
        | cons d cs =>
            rcases eq_pad_or_sign h with rfl | ⟨hpads, -⟩
            · cases cs with
              | nil =>
                  cases h
                  exact .inl ⟨rfl, rfl⟩
              | cons e cs => cases h
            · omega
      · rw [decodeFrom?_sign hc (by simp)] at h
        exact .inr ⟨c, n, cs, rfl, hc, h⟩

/-- What may stand behind three signs. -/
theorem decodeFrom?_three_held (h : decodeFrom? [d, b, a] 0 cs = some bytes) :
    cs = ['='] ∧ bytes = [a * 4 + b / 16, b % 16 * 16 + d / 4] ∨
      ∃ (c : Char) (n : Nat) (rest : List Char) (more : List Nat), cs = c :: rest ∧ Sign c n ∧
        decodeFrom? [] 0 rest = some more ∧
          bytes = [a * 4 + b / 16, b % 16 * 16 + d / 4, d % 4 * 64 + n] ++ more := by
  cases cs with
  | nil => cases h
  | cons c cs =>
      -- Three signs are followed by one pad, or by a fourth sign.
      rcases eq_pad_or_sign h with rfl | ⟨-, n, hc⟩
      · cases cs with
        | nil =>
            cases h
            exact .inl ⟨rfl, rfl⟩
        | cons e cs => cases h
      · rw [decodeFrom?_group hc] at h
        rcases Option.map_eq_some_iff.mp h with ⟨more, hmore, rfl⟩
        exact .inr ⟨c, n, cs, more, rfl, hc, hmore, rfl⟩

/-- What is read goes group by group. -/
theorem follows_of_decodeFrom? (h : decodeFrom? [] 0 cs = some bytes) : Follows cs bytes := by
  -- On the length, as a whole group is taken at a time.
  induction hlength : cs.length using Nat.strongRecOn generalizing cs bytes with
  | ind length ih =>
      rcases decodeFrom?_none_held h with ⟨k, rfl, rfl⟩ | ⟨c₁, n₁, cs, rfl, h₁, h⟩
      · exact .padding k
      rcases decodeFrom?_one_held h with ⟨c₂, n₂, cs, rfl, h₂, h⟩
      have hlt₁ := h₁.lt
      have hlt₂ := h₂.lt
      rcases decodeFrom?_two_held h with ⟨rfl, rfl⟩ | ⟨c₃, n₃, cs, rfl, h₃, h⟩
      · exact .one h₁ h₂ (by omega) (Nat.mod_lt n₂ (by decide)) (by omega)
      have hlt₃ := h₃.lt
      rcases decodeFrom?_three_held h with ⟨rfl, rfl⟩ | ⟨c₄, n₄, cs, more, rfl, h₄, hmore, rfl⟩
      · exact .two h₁ h₂ h₃ (by omega) (by omega) (Nat.mod_lt n₃ (by decide)) (by omega)
      have hlt₄ := h₄.lt
      refine .three h₁ h₂ h₃ h₄ (by omega) (by omega) (by omega) (by omega) (ih cs.length ?_ hmore rfl)
      simp only [← hlength, List.length_cons]
      omega

/-- Groups are read one after the other, and the bits that are left over are dropped. -/
theorem Follows.decodeFrom? (h : Follows cs bytes) : decodeFrom? [] 0 cs = some bytes := by
  -- By the groups: the bits of four signs are those of three bytes.
  induction h with
  | padding k => exact decodeFrom?_padding 0 k
  | @one c₁ c₂ n₁ n₂ a spare h₁ h₂ ha hspare hbits =>
      have hlt₂ := h₂.lt
      have hbyte : n₁ * 4 + n₂ / 16 = a := by omega
      rw [decodeFrom?_sign h₁ (by simp), decodeFrom?_sign h₂ (by simp), ← hbyte]
      rfl
  | @two c₁ c₂ c₃ n₁ n₂ n₃ a b spare h₁ h₂ h₃ ha hb hspare hbits =>
      have hlt₂ := h₂.lt
      have hlt₃ := h₃.lt
      have hbytes : n₁ * 4 + n₂ / 16 = a ∧ n₂ % 16 * 16 + n₃ / 4 = b := by omega
      rw [decodeFrom?_sign h₁ (by simp), decodeFrom?_sign h₂ (by simp),
        decodeFrom?_sign h₃ (by simp), ← hbytes.1, ← hbytes.2]
      rfl
  | @three c₁ c₂ c₃ c₄ n₁ n₂ n₃ n₄ a b c cs bytes h₁ h₂ h₃ h₄ ha hb hc hbits _ ih =>
      have hlt₂ := h₂.lt
      have hlt₃ := h₃.lt
      have hlt₄ := h₄.lt
      have hbytes : n₁ * 4 + n₂ / 16 = a ∧ n₂ % 16 * 16 + n₃ / 4 = b ∧ n₃ % 4 * 64 + n₄ = c := by
        omega
      rw [decodeFrom?_sign h₁ (by simp), decodeFrom?_sign h₂ (by simp),
        decodeFrom?_sign h₃ (by simp), decodeFrom?_group h₄, ih, hbytes.1, hbytes.2.1, hbytes.2.2]
      rfl

/-- What is read where a group has ended is what may stand there. -/
theorem decodeFrom?_eq_some_iff : decodeFrom? [] 0 cs = some bytes ↔ Follows cs bytes :=
  ⟨follows_of_decodeFrom?, Follows.decodeFrom?⟩

/-- What is read as bytes is base64 of them. -/
theorem decode?_eq_some_iff : decode? cs = some bytes ↔ Strict cs bytes := by
  unfold decode?
  split
  · exact ⟨fun h => (nomatch h), fun h => absurd rfl h.noLeadingPad⟩
  · next hstart =>
    rw [decodeFrom?_eq_some_iff]
    refine ⟨fun h => ⟨h, fun hhead => ?_⟩, Strict.follows⟩
    rcases List.head?_eq_some_iff.mp hhead with ⟨rest, rfl⟩
    exact hstart rest rfl

end Reader

section Alphabets

/-- The signs of the other alphabet are of ASCII too. -/
theorem Alphabet.ascii_of_inStandard {alphabet : Alphabet} {cs : List Char}
    (h : ∀ c ∈ alphabet.inStandard cs, c.toNat < 0x80) : ∀ c ∈ cs, c.toNat < 0x80 := by
  cases alphabet with
  | standard => exact h
  | urlSafe =>
      intro c hc
      have hsign := h _ (List.mem_map_of_mem hc)
      split_ifs at hsign with hminus hunderscore
      · exact eq_of_beq hminus ▸ by decide
      · exact eq_of_beq hunderscore ▸ by decide
      · exact hsign

/-- The padding is the shortest that makes the length a multiple of four. -/
theorem padded_eq {cs : List Char} {k : Nat} (hk : k < 4) (hlength : 4 ∣ cs.length + k) :
    padded cs = cs ++ List.replicate k '=' := by
  have hcount : (4 - cs.length % 4) % 4 = k := by omega
  rw [padded, hcount]

end Alphabets

section Writing

variable {alphabet : Alphabet} {bytes : List Nat}

theorem sign_char {n : Nat} (h : n < 64) : Sign (Alphabet.standard.char n) n :=
  signs_getElem? n h

theorem char_ne_pad : ∀ n < 64, alphabet.char n ≠ '=' := by
  cases alphabet <;> decide

/-- The two signs that differ are made those of the standard alphabet. -/
theorem char_inStandard : ∀ n < 64,
    (if alphabet.char n == '-' then '+' else if alphabet.char n == '_' then '/'
      else alphabet.char n) = Alphabet.standard.char n := by
  cases alphabet <;> decide

/-- Each group stands for its bytes, and the bits behind the last byte are zeros. -/
theorem follows_encode (h : ∀ byte ∈ bytes, byte < 0x100) :
    Follows (encode .standard bytes) bytes := by
  -- Three bytes at a time, and two, one or none at the end.
  fun_induction encode .standard bytes with
  | case1 a b c rest ih =>
      simp only [List.forall_mem_cons] at h
      rcases h with ⟨ha, hb, hc, hrest⟩
      exact .three (sign_char (by omega)) (sign_char (by omega)) (sign_char (by omega))
        (sign_char (by omega)) ha hb hc (by omega) (ih hrest)
  | case2 a b =>
      simp only [List.forall_mem_cons] at h
      rcases h with ⟨ha, hb, -⟩
      have hbits : (a / 4 * 64 + (a % 4 * 16 + b / 16)) * 64 + b % 16 * 4 =
          (a * 256 + b) * 4 + 0 := by
        omega
      exact .two (sign_char (by omega)) (sign_char (by omega)) (sign_char (by omega)) ha hb
        (by decide) hbits
  | case3 a =>
      have ha := h a List.mem_cons_self
      have hbits : a / 4 * 64 + a % 4 * 16 = a * 16 + 0 := by omega
      exact .one (sign_char (by omega)) (sign_char (by omega)) ha (by decide) hbits
  | case4 => exact .padding 0

theorem head?_encode (a : Nat) (bytes : List Nat) :
    (encode alphabet (a :: bytes)).head? = some (alphabet.char (a / 4)) := by
  match bytes with
  | [] => rfl
  | [_] => rfl
  | _ :: _ :: _ => rfl

/-- What is written is in the strict form. -/
theorem strict_encode (h : ∀ byte ∈ bytes, byte < 0x100) :
    Strict (encode .standard bytes) bytes := by
  refine ⟨follows_encode h, ?_⟩
  cases bytes with
  | nil => exact fun heq => nomatch heq
  | cons a bytes =>
      have ha := h a List.mem_cons_self
      rw [head?_encode]
      intro heq
      exact char_ne_pad (a / 4) (by omega) (Option.some.inj heq)

/-- Signs that differ between the alphabets are told apart in either, so what is written over one of
them can be turned into what is written over the standard one. -/
theorem toStandard_encode (h : ∀ byte ∈ bytes, byte < 0x100) :
    toStandard (encode alphabet bytes) = encode .standard bytes := by
  unfold toStandard
  -- The signs of a group are changed one by one.
  fun_induction encode alphabet bytes with
  | case1 a b c rest ih =>
      simp only [List.forall_mem_cons] at h
      rcases h with ⟨ha, hb, hc, hrest⟩
      simp only [List.map_cons, encode, ih hrest, char_inStandard (a / 4) (by omega),
        char_inStandard (a % 4 * 16 + b / 16) (by omega),
        char_inStandard (b % 16 * 4 + c / 64) (by omega), char_inStandard (c % 64) (by omega)]
  | case2 a b =>
      simp only [List.forall_mem_cons] at h
      rcases h with ⟨ha, hb, -⟩
      simp only [List.map_cons, List.map_nil, encode, char_inStandard (a / 4) (by omega),
        char_inStandard (a % 4 * 16 + b / 16) (by omega),
        char_inStandard (b % 16 * 4) (by omega)]
      rfl
  | case3 a =>
      have ha := h a List.mem_cons_self
      simp only [List.map_cons, List.map_nil, encode, char_inStandard (a / 4) (by omega),
        char_inStandard (a % 4 * 16) (by omega)]
      rfl
  | case4 => rfl

/-- The length is a multiple of four. -/
theorem dvd_length_encode (alphabet : Alphabet) (bytes : List Nat) :
    4 ∣ (encode alphabet bytes).length := by
  fun_induction encode alphabet bytes with
  | case1 a b c rest ih =>
      simp only [List.length_cons]
      omega
  | case2 => exact ⟨1, rfl⟩
  | case3 => exact ⟨1, rfl⟩
  | case4 => exact ⟨0, rfl⟩

/-- Only the last group has equals signs, and two at most. -/
theorem count_pad_encode_le (h : ∀ byte ∈ bytes, byte < 0x100) :
    (encode alphabet bytes).count '=' ≤ 2 := by
  -- A sign of the alphabet is no pad.
  have hsign (n : Nat) (hn : n < 64) (cs : List Char) :
      (alphabet.char n :: cs).count '=' = cs.count '=' :=
    List.count_cons_of_ne (char_ne_pad n hn)
  fun_induction encode alphabet bytes with
  | case1 a b c rest ih =>
      simp only [List.forall_mem_cons] at h
      rcases h with ⟨ha, hb, hc, hrest⟩
      rw [hsign _ (by omega), hsign _ (by omega), hsign _ (by omega), hsign _ (by omega)]
      exact ih hrest
  | case2 a b =>
      simp only [List.forall_mem_cons] at h
      rcases h with ⟨ha, hb, -⟩
      rw [hsign _ (by omega), hsign _ (by omega), hsign _ (by omega)]
      decide
  | case3 a =>
      have ha := h a List.mem_cons_self
      rw [hsign _ (by omega), hsign _ (by omega)]
      decide
  | case4 => decide

end Writing

end Base64

end Text

end Liquid
