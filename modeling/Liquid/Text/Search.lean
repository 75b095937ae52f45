/-!
# Search and Replacement

Finding one text inside another. Every operation is built on a cut: the parts
before and after an occurrence, so that `before ++ needle ++ after` is the
text again. There are two cuts, at the first and at the last occurrence, each
by one recursion on the text. The empty needle occurs before every character
and at the end, so its first cut is at the start and its last at the end.

Occurrences that overlap are not all counted: a search goes on behind the one
it found. `pieces` holds what lies between them, and replacing them all is
joining the pieces with the replacement.

## Main definitions

* `dropStart?`: What follows one text at the start of another.
* `cut?`, `cutLast?`: The parts around the first and the last occurrence.
* `occurs`: Whether there is one.
* `pieces`: The parts between all occurrences.
* `replaceFirst`, `replaceLast`, `replaceAll`: Putting a text in their place.

## Theorems

* `eq_append_of_cut?`: A cut loses nothing.
* `length_of_cut?`: What follows the cut is shorter by the needle at least.
-/

namespace Liquid

namespace Text

/-- What follows `needle` in a text that starts with it. -/
def dropStart? : List Char → List Char → Option (List Char)
  | [], text => some text
  | _ :: _, [] => none
  | n :: needle, c :: text => if n == c then dropStart? needle text else none

/-- The parts before and after the first occurrence of `needle`. -/
def cut? (needle : List Char) : List Char → Option (List Char × List Char)
  | [] => if needle.isEmpty then some ([], []) else none
  | c :: cs =>
    match dropStart? needle (c :: cs) with
    | some after => some ([], after)
    | none => (cut? needle cs).map fun (before, after) => (c :: before, after)

/-- The parts before and after the last occurrence of `needle`. -/
def cutLast? (needle : List Char) : List Char → Option (List Char × List Char)
  | [] => if needle.isEmpty then some ([], []) else none
  | c :: cs =>
    match cutLast? needle cs with
    | some (before, after) => some (c :: before, after)
    | none => (dropStart? needle (c :: cs)).map fun after => ([], after)

/-- Whether `needle` occurs in the text. -/
def occurs (needle text : List Char) : Bool :=
  (cut? needle text).isSome

theorem eq_append_of_dropStart? {needle text after : List Char}
    (h : dropStart? needle text = some after) : text = needle ++ after := by
  fun_induction dropStart? needle text with
  | case1 => simpa using h
  | case2 => simp at h
  | case3 n needle c text hc ih => simp [ih h, eq_of_beq hc]
  | case4 => simp at h

theorem eq_append_of_cut? {needle text before after : List Char}
    (h : cut? needle text = some (before, after)) : text = before ++ (needle ++ after) := by
  induction text generalizing before with
  | nil =>
    cases needle with
    | nil => simp [cut?] at h; simp [h]
    | cons c cs => simp [cut?] at h
  | cons c cs ih =>
    unfold cut? at h
    split at h
    · next rest hrest =>
      simp only [Option.some.injEq, Prod.mk.injEq] at h
      obtain ⟨rfl, rfl⟩ := h
      simpa using eq_append_of_dropStart? hrest
    · obtain ⟨⟨b, a⟩, hcut, heq⟩ := Option.map_eq_some_iff.1 h
      simp only [Prod.mk.injEq] at heq
      obtain ⟨rfl, rfl⟩ := heq
      simp [ih hcut]

theorem length_of_cut? {needle text before after : List Char}
    (h : cut? needle text = some (before, after)) :
    before.length + needle.length + after.length = text.length := by
  rw [eq_append_of_cut? h]
  simp [Nat.add_assoc]

/-- The parts between the occurrences of `needle`; the whole text if it is empty. -/
def pieces (needle text : List Char) : List (List Char) :=
  if _hn : needle = [] then [text]
  else
    match _hcut : cut? needle text with
    | none => [text]
    | some (before, after) => before :: pieces needle after
termination_by text.length
decreasing_by
  have := length_of_cut? _hcut
  have : 0 < needle.length := List.length_pos_iff.2 _hn
  omega

/-- The text with `substitute` in place of the first occurrence. -/
def replaceFirst (needle substitute text : List Char) : List Char :=
  match cut? needle text with
  | some (before, after) => before ++ substitute ++ after
  | none => text

/-- The text with `substitute` in place of the last occurrence. -/
def replaceLast (needle substitute text : List Char) : List Char :=
  match cutLast? needle text with
  | some (before, after) => before ++ substitute ++ after
  | none => text

/-- The text with `substitute` in place of every occurrence. -/
def replaceAll (needle substitute text : List Char) : List Char :=
  if needle.isEmpty then substitute ++ text.flatMap fun c => c :: substitute
  else substitute.intercalate (pieces needle text)

/-- An operation on the characters of a text, as one on the text. -/
def onChars (f : List Char → List Char) (text : String) : String :=
  String.ofList (f text.toList)

end Text

end Liquid
