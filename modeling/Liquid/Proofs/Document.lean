import Liquid.Document

/-!
# What Documents Hold

A document holds null, a truth value, an integer, a double, a text, or a list
or a mapping of such data. The other kinds of data come from the host alone.
Whatever a reader of documents is like, this is what can be relied upon; the
theorem says so of the reader at hand.

Reading collections goes by bounds on the number of steps. The invariant is
about all the readers that share a bound, since each hands the rest of the text
to another with the next smaller bound.

## Main definitions

* `Document.Holds`: The data that a document can hold.
* `Flow.Sound`, `Layout.Sound`: With a bound, the readers of collections give
  such data.

## Theorems

* `Flow.sound`, `Layout.sound`: They do with every bound.
* `Document.holds_of_read?`: The data of documents are such data.
-/

namespace Liquid

namespace Document

/-- The data that a document can hold. -/
inductive Holds : Datum → Prop
  | null : Holds .null
  | bool (flag : Bool) : Holds (.bool flag)
  | integer (number : Int) : Holds (.integer number)
  | double (number : Double) : Holds (.double number)
  | text (text : String) : Holds (.text text)
  | list {items : List Datum} (hitems : ∀ item ∈ items, Holds item) : Holds (.list items)
  | mapping {entries : List (Datum.Key × Datum)} (hentries : ∀ entry ∈ entries, Holds entry.2) :
      Holds (.mapping entries)

namespace Holds

-- The readers keep what they have read last one first.

theorem list_reverse {done : List Datum} (hdone : ∀ item ∈ done, Holds item) :
    Holds (.list done.reverse) :=
  .list fun item hitem => hdone item (List.mem_reverse.mp hitem)

theorem mapping_reverse {done : List (Datum.Key × Datum)} (hdone : ∀ entry ∈ done, Holds entry.2) :
    Holds (.mapping done.reverse) :=
  .mapping fun entry hentry => hdone entry (List.mem_reverse.mp hentry)

end Holds

end Document

open Document (Holds)

/-- An unquoted scalar is read as a text, or as one of the data that such a scalar stands for. -/
theorem Plain.holds_datum (cs : List Char) : Holds (Plain.datum cs) := by
  unfold Plain.datum
  dsimp only
  repeat' split
  · exact .null
  · exact .bool true
  · exact .bool false
  · exact .integer _
  · exact .double _
  · exact .text _

namespace Flow

/-- A scalar in any style holds nothing but a datum of a document. -/
theorem holds_scalar {cs rest : List Char} {datum : Datum} (h : scalar? cs = some (datum, rest)) :
    Holds datum := by
  unfold scalar? at h
  split at h
  · cases h
    exact .text _
  · split at h
    · cases h
      exact Plain.holds_datum _
    · cases h

/-- With so many steps, the readers of collections give data that a document can hold. -/
structure Sound (steps : Nat) : Prop where
  value {cs rest : List Char} {datum : Datum} (h : value? steps cs = some (datum, rest)) :
    Holds datum
  items {done : List Datum} {cs rest : List Char} {datum : Datum}
    (hdone : ∀ item ∈ done, Holds item) (h : items? steps done cs = some (datum, rest)) :
    Holds datum
  entries {done : List (Datum.Key × Datum)} {cs rest : List Char} {datum : Datum}
    (hdone : ∀ entry ∈ done, Holds entry.2) (h : entries? steps done cs = some (datum, rest)) :
    Holds datum
  entryValue {cs rest : List Char} {datum : Datum} (h : entryValue? steps cs = some (datum, rest)) :
    Holds datum

theorem sound_zero : Sound 0 where
  value h := by simp [value?] at h
  items _ h := by simp [items?] at h
  entries _ h := by simp [entries?] at h
  entryValue h := by simp [entryValue?] at h

section Step

variable {steps : Nat} {cs rest : List Char} {datum : Datum}

theorem holds_value (ih : Sound steps) (h : value? (steps + 1) cs = some (datum, rest)) :
    Holds datum := by
  cases cs with
  | nil => simp [value?] at h
  | cons c cs =>
      unfold value? at h
      split at h
      · exact ih.items (List.forall_mem_nil _) h
      · split at h
        · exact ih.entries (List.forall_mem_nil _) h
        · exact holds_scalar h

theorem holds_items (ih : Sound steps) {done : List Datum} (hdone : ∀ item ∈ done, Holds item)
    (h : items? (steps + 1) done cs = some (datum, rest)) : Holds datum := by
  cases cs with
  | nil => simp [items?] at h
  | cons c cs =>
      unfold items? at h
      split at h
      · cases h
        exact .list_reverse hdone
      · split at h
        · cases h
        -- The item is read with one step less, and so is what follows it.
        · next hitem =>
            have hall := List.forall_mem_cons.mpr ⟨ih.value hitem, hdone⟩
            split at h
            · exact ih.items hall h
            · cases h
              exact .list_reverse hall
            · cases h

theorem holds_entries (ih : Sound steps) {done : List (Datum.Key × Datum)}
    (hdone : ∀ entry ∈ done, Holds entry.2)
    (h : entries? (steps + 1) done cs = some (datum, rest)) : Holds datum := by
  cases cs with
  | nil => simp [entries?] at h
  | cons c cs =>
      unfold entries? at h
      split at h
      · cases h
        exact .mapping_reverse hdone
      · split at h
        · cases h
        · split at h
          · next key item _ _ hitem =>
              have hall : ∀ entry ∈ (key, item) :: done, Holds entry.2 :=
                List.forall_mem_cons.mpr ⟨ih.entryValue hitem, hdone⟩
              -- Behind an entry there are more of them, the end of the mapping, or a fault.
              repeat' split at h
              · cases h
              · exact ih.entries hall h
              · cases h
                exact .mapping_reverse hall
              · cases h
          · cases h

theorem holds_entryValue (ih : Sound steps) (h : entryValue? (steps + 1) cs = some (datum, rest)) :
    Holds datum := by
  unfold entryValue? at h
  repeat' split at h
  · cases h
    exact .null
  · cases h
    exact .null
  · exact ih.value h
  · cases h
    exact .null

end Step

/-- Everything that the flow style reads is a datum of a document, at any depth. -/
theorem sound (steps : Nat) : Sound steps := by
  induction steps with
  | zero => exact sound_zero
  | succ steps ih =>
      exact ⟨holds_value ih, holds_items ih, holds_entries ih, holds_entryValue ih⟩

end Flow

namespace Layout

theorem holds_inline {indent : Nat} {cs rest : List Char} {datum : Datum}
    (h : inline? indent cs = some (datum, rest)) : Holds datum := by
  unfold inline? at h
  split at h
  · rcases Option.bind_eq_some_iff.mp h with ⟨_, _, h⟩
    cases h
    exact Plain.holds_datum _
  · rcases Option.bind_eq_some_iff.mp h with ⟨_, hread, h⟩
    rcases Option.bind_eq_some_iff.mp h with ⟨_, _, h⟩
    cases h
    exact (Flow.sound _).value hread

/-- With so many steps, the readers of what is laid out give data that a document can hold. -/
structure Sound (steps : Nat) : Prop where
  block {indent : Nat} {cs rest : List Char} {datum : Datum}
    (h : block? steps indent cs = some (datum, rest)) : Holds datum
  laidOut {column indent : Nat} {cs rest : List Char} {datum : Datum}
    (h : laidOut? steps column indent cs = some (datum, rest)) : Holds datum
  items {column : Nat} {done : List Datum} {cs rest : List Char} {datum : Datum}
    (hdone : ∀ item ∈ done, Holds item) (h : items? steps column done cs = some (datum, rest)) :
    Holds datum
  entries {column : Nat} {done : List (Datum.Key × Datum)} {key : Datum.Key} {cs rest : List Char}
    {datum : Datum} (hdone : ∀ entry ∈ done, Holds entry.2)
    (h : entries? steps column done key cs = some (datum, rest)) : Holds datum
  entryValue {column : Nat} {cs rest : List Char} {datum : Datum}
    (h : entryValue? steps column cs = some (datum, rest)) : Holds datum

theorem sound_zero : Sound 0 where
  block h := by simp [block?] at h
  laidOut h := by simp [laidOut?] at h
  items _ h := by simp [items?] at h
  entries _ h := by simp [entries?] at h
  entryValue h := by simp [entryValue?] at h

section Step

variable {steps column indent : Nat} {cs rest : List Char} {datum : Datum}

theorem holds_block (ih : Sound steps) (h : block? (steps + 1) indent cs = some (datum, rest)) :
    Holds datum := by
  unfold block? at h
  split at h
  · cases h
    exact .null
  · split at h
    · cases h
      exact .null
    · exact ih.laidOut h

theorem holds_laidOut (ih : Sound steps)
    (h : laidOut? (steps + 1) column indent cs = some (datum, rest)) : Holds datum := by
  unfold laidOut? at h
  split at h
  · exact ih.items (List.forall_mem_nil _) h
  · split at h
    · exact ih.entries (List.forall_mem_nil _) h
    · exact holds_inline h

theorem holds_items (ih : Sound steps) {done : List Datum} (hdone : ∀ item ∈ done, Holds item)
    (h : items? (steps + 1) column done cs = some (datum, rest)) : Holds datum := by
  unfold items? at h
  dsimp only at h
  -- An item stands on the lines below its hyphen or behind it, and the rest is read alike.
  split at h
  all_goals
    rcases Option.bind_eq_some_iff.mp h with ⟨⟨item, next⟩, hread, h⟩
    have hitem : Holds item := by
      first
      | exact ih.block hread
      | exact ih.laidOut hread
    have hall := List.forall_mem_cons.mpr ⟨hitem, hdone⟩
    dsimp only at h
    repeat' split at h
    · cases h
      exact .list_reverse hall
    · cases h
    · exact ih.items hall h
    · cases h
      exact .list_reverse hall

theorem holds_entries (ih : Sound steps) {done : List (Datum.Key × Datum)} {key : Datum.Key}
    (hdone : ∀ entry ∈ done, Holds entry.2)
    (h : entries? (steps + 1) column done key cs = some (datum, rest)) : Holds datum := by
  unfold entries? at h
  rcases Option.bind_eq_some_iff.mp h with ⟨⟨item, next⟩, hitem, h⟩
  have hall : ∀ entry ∈ (key, item) :: done, Holds entry.2 :=
    List.forall_mem_cons.mpr ⟨ih.entryValue hitem, hdone⟩
  dsimp only at h
  -- Behind an entry there are more of them, the end of the block, or a fault.
  repeat' split at h
  · cases h
    exact .mapping_reverse hall
  · cases h
    exact .mapping_reverse hall
  · cases h
  · cases h
  · cases h
  · exact ih.entries hall h

theorem holds_entryValue (ih : Sound steps)
    (h : entryValue? (steps + 1) column cs = some (datum, rest)) : Holds datum := by
  unfold entryValue? at h
  repeat' split at h
  · exact ih.items (List.forall_mem_nil _) h
  · exact ih.block h
  · cases h
    exact .null
  · exact holds_inline h

end Step

theorem sound (steps : Nat) : Sound steps := by
  induction steps with
  | zero => exact sound_zero
  | succ steps ih =>
      exact ⟨holds_block ih, holds_laidOut ih, holds_items ih, holds_entries ih,
        holds_entryValue ih⟩

end Layout

namespace Document

/-- What is read from a text is a datum of a document. -/
theorem holds_of_read? {text : String} {datum : Datum} (h : read? text = some datum) :
    Holds datum := by
  unfold read? at h
  dsimp only at h
  split at h
  · cases h
  · rcases Option.bind_eq_some_iff.mp h with ⟨_, _, h⟩
    -- Behind the block nothing may be left.
    rcases Option.bind_eq_some_iff.mp h with ⟨_, hblock, h⟩
    split at h
    · cases h
      exact (Layout.sound _).block hblock
    · cases h

end Document

end Liquid
