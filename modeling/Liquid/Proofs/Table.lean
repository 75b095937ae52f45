import Liquid.Table
import Mathlib.Data.List.Nodup

/-!
# The Names of a Table

No name is in a table twice. Writing puts a name that is new at the end and
leaves the names alone otherwise, so a table that is written entry by entry has
each name once, whatever the entries. Entries whose names differ are such a
table as they stand.

## Theorems

* `Table.mem_of_get?_eq_some`: What is found in a table is in it.
* `Table.has_eq_true_iff`: The names that a table has are those of its entries.
* `Table.put_of_notMem`, `Table.map_fst_put_of_mem`: The names that writing leaves.
* `Table.nodup_ofEntries`: Written tables have each name once.
* `Table.ofEntries_of_nodup`: Entries with different names are a table already.
-/

namespace Liquid

namespace Table

variable {α : Type}

/-- What a table holds under a name is one of its entries. -/
theorem mem_of_get?_eq_some {table : Table α} {name : String} {entry : α}
    (h : table.get? name = some entry) : (name, entry) ∈ table := by
  -- Down to the first entry that has the name.
  induction table with
  | nil => cases h
  | cons head rest ih =>
      rcases head with ⟨key, other⟩
      unfold Table.get? at h
      rw [List.lookup_cons] at h
      by_cases hkey : name = key
      · subst hkey
        rw [beq_self_eq_true] at h
        exact Option.some.inj h ▸ List.mem_cons_self
      · rw [beq_false_of_ne hkey] at h
        exact List.mem_cons_of_mem _ (ih h)

/-- A table has a name if one of its entries has it. -/
theorem has_eq_true_iff {table : Table α} {name : String} :
    table.has name = true ↔ ∃ entry ∈ table, entry.1 = name := by
  unfold has get?
  rw [List.lookup_isSome_iff]
  simp only [beq_iff_eq]
  exact exists_congr fun _ => and_congr_right' eq_comm

/-- A new name comes last. -/
theorem put_of_notMem {table : Table α} {name : String} (h : name ∉ table.map Prod.fst)
    (entry : α) : table.put name entry = table ++ [(name, entry)] := by
  induction table with
  | nil => rfl
  | cons head rest ih =>
      rw [List.map_cons, List.mem_cons, not_or] at h
      have hne : (name == head.1) = false := by simpa using h.1
      rw [put, hne, if_neg Bool.false_ne_true, ih h.2, List.cons_append]

/-- A name that is there already stays where it is. -/
theorem map_fst_put_of_mem {table : Table α} {name : String} (h : name ∈ table.map Prod.fst)
    (entry : α) : (table.put name entry).map Prod.fst = table.map Prod.fst := by
  induction table with
  | nil => cases h
  | cons head rest ih =>
      rw [put]
      by_cases hhead : name = head.1
      · simp [hhead]
      · have hne : (name == head.1) = false := by simpa using hhead
        have hrest := (List.mem_cons.mp h).resolve_left hhead
        rw [hne, if_neg Bool.false_ne_true, List.map_cons, ih hrest, List.map_cons]

/-- Putting an entry keeps the names distinct. -/
theorem nodup_put {table : Table α} (h : (table.map Prod.fst).Nodup) (name : String) (entry : α) :
    ((table.put name entry).map Prod.fst).Nodup := by
  by_cases hname : name ∈ table.map Prod.fst
  · rw [map_fst_put_of_mem hname]
    exact h
  · rw [put_of_notMem hname, List.map_append]
    exact List.nodup_append_comm.mp (List.nodup_cons.mpr ⟨hname, h⟩)

/-- Entries written behind a table that has none of their names. -/
theorem foldl_put_of_nodup {entries : List (String × α)} (hentries : (entries.map Prod.fst).Nodup)
    {table : Table α} (h : ∀ name ∈ entries.map Prod.fst, name ∉ table.map Prod.fst) :
    entries.foldl (fun table entry => table.put entry.1 entry.2) table = table ++ entries := by
  induction entries generalizing table with
  | nil => exact (List.append_nil table).symm
  | cons head rest ih =>
      rw [List.map_cons, List.nodup_cons] at hentries
      rw [List.foldl_cons, put_of_notMem (h _ List.mem_cons_self), ih hentries.2 ?_,
        List.append_assoc, List.singleton_append]
      intro name hname
      rw [List.map_append, List.mem_append, not_or]
      -- The name of the head is not among those behind it.
      refine ⟨h name (List.mem_cons_of_mem _ hname), ?_⟩
      rw [List.map_singleton, List.mem_singleton]
      rintro rfl
      exact hentries.1 hname

theorem ofEntries_of_nodup {entries : List (String × α)} (h : (entries.map Prod.fst).Nodup) :
    ofEntries entries = entries :=
  foldl_put_of_nodup h fun _ _ => List.not_mem_nil

/-- What every put preserves holds after all of them. -/
theorem foldl_put_induction {motive : Table α → Prop} {entries : List (String × α)}
    (step : ∀ table, ∀ entry ∈ entries, motive table → motive (table.put entry.1 entry.2))
    {table : Table α} (h : motive table) :
    motive (entries.foldl (fun table entry => table.put entry.1 entry.2) table) := by
  induction entries generalizing table with
  | nil => exact h
  | cons head rest ih =>
      refine ih (fun table entry hentry => step table entry (List.mem_cons_of_mem _ hentry)) ?_
      exact step table head List.mem_cons_self h

theorem nodup_ofEntries (entries : List (String × α)) :
    ((ofEntries entries).map Prod.fst).Nodup :=
  foldl_put_induction (motive := fun table => (table.map Prod.fst).Nodup)
    (fun _ entry _ h => nodup_put h entry.1 entry.2) List.nodup_nil

/-- What is in a table is what was there or what was written. -/
theorem mem_put {table : Table α} {name : String} {entry : α} {found : String × α}
    (h : found ∈ table.put name entry) : found = (name, entry) ∨ found ∈ table := by
  -- Down to the entry that is replaced, or to the end.
  induction table with
  | nil => exact .inl (List.mem_singleton.mp h)
  | cons head rest ih =>
      rw [put] at h
      split at h
      · rcases List.mem_cons.mp h with rfl | h
        · exact .inl rfl
        · exact .inr (List.mem_cons_of_mem _ h)
      · rcases List.mem_cons.mp h with rfl | h
        · exact .inr List.mem_cons_self
        · exact (ih h).imp_right (List.mem_cons_of_mem _)

theorem mem_of_mem_ofEntries {entries : List (String × α)} {found : String × α}
    (h : found ∈ ofEntries entries) : found ∈ entries := by
  refine foldl_put_induction (motive := fun table => ∀ found ∈ table, found ∈ entries)
    (fun table entry hentry hin found hfound => ?_) (fun _ h => absurd h List.not_mem_nil) found h
  rcases mem_put hfound with rfl | hfound
  · exact hentry
  · exact hin found hfound

end Table

end Liquid
