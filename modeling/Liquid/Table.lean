/-!
# Tables

Entries under names, in the order in which the names first came. Writing to a
name that is there already changes the entry and keeps its place, so a table
read from front to back tells when each name was new, not when it was last
written.

Tables carry dictionaries, the variables of a frame, counters, options and the
entries of a registry. All of them are small, and all of them are looked at in
order somewhere, which is why they are lists and not search trees.

## Main definitions

* `Table`: Entries under names.
* `Table.get?`: The entry under a name.
* `Table.put`: Writing an entry.
* `Table.has`: Whether a name has an entry.
* `Table.ofEntries`: The table that writing entries in turn leaves.
* `Table.resolved`: Entries among which functions stand for some.

## Theorems

* `Table.get?_put_self`, `Table.get?_put_of_ne`: Writing changes the entry of
  its own name and no other.
-/

namespace Liquid

/-- Entries under names, in the order in which the names first came. -/
abbrev Table (α : Type) := List (String × α)

namespace Table

variable {α : Type}

/-- The entry under a name. -/
def get? (table : Table α) (name : String) : Option α :=
  List.lookup name table

/-- Whether the name has an entry. -/
def has (table : Table α) (name : String) : Bool :=
  (table.get? name).isSome

/-- The table with the entry under the name, in the place of an older one if there is one. -/
def put : Table α → String → α → Table α
  | [], name, entry => [(name, entry)]
  | (key, old) :: rest, name, entry =>
    if name == key then (name, entry) :: rest else (key, old) :: put rest name entry

/-- The table that writing the entries one after the other leaves. -/
def ofEntries (entries : List (String × α)) : Table α :=
  entries.foldl (fun table (name, entry) => table.put name entry) []

/-- The entries of a table in which a function may stand for an entry. The function becomes the one
of its name; an entry stays as it is, whatever its name in the table. -/
def resolved {φ : Type} (ofFunction : String → φ → α) (table : Table (α ⊕ φ)) : List α :=
  table.map fun (name, item) =>
    match item with
    | .inl entry => entry
    | .inr function => ofFunction name function

theorem get?_put_self (table : Table α) (name : String) (entry : α) :
    (table.put name entry).get? name = some entry := by
  induction table with
  | nil => simp [put, get?]
  | cons head rest ih =>
    obtain ⟨key, old⟩ := head
    unfold put
    split
    · simp [get?]
    · next h =>
      have h : (name == key) = false := by simpa using h
      simp only [get?, List.lookup_cons, h]
      exact ih

theorem get?_put_of_ne (table : Table α) {name other : String} (entry : α) (h : other ≠ name) :
    (table.put name entry).get? other = table.get? other := by
  have hb : (other == name) = false := by simpa using h
  induction table with
  | nil => simp [put, get?, List.lookup_cons, hb]
  | cons head rest ih =>
    obtain ⟨key, old⟩ := head
    unfold put
    split
    · next heq =>
      have heq := eq_of_beq heq
      subst heq
      simp [get?, List.lookup_cons, hb]
    · simp only [get?, List.lookup_cons]
      split
      · rfl
      · exact ih

end Table

end Liquid
