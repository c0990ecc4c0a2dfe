import Std.Data.ExtTreeMap
import ScopedSignatures.Table.Conflict

/-!
# Tables

The entries of one family, one for each key at most. An entry is filed under the
key it claims, and a key that is taken is never given away, so the first entry
with a key stays for good. Listings follow the order of the keys.

## Main definitions

* `Table` — the entries of a family by their keys
* `Table.find?` — the entry at a key
* `Table.file` — the table with an entry put at its key
* `Table.enter` — files an entry if its key is free
* `Table.entries` — all entries in key order

## Main results

* `Table.ext_find?` — a table is determined by what is found in it
* `Table.find?_file` — filing changes one key
* `Table.enter_accepted_iff`, `Table.enter_refused_iff` — when an entry is accepted, and what
  is left in either case
-/

namespace ScopedSignatures

/-- The entries of a family by their keys. -/
structure Table (family : Family) where
  byKey : Std.ExtTreeMap family.Key family.Entry

namespace Table

variable {family : Family} {table result : Table family} {key : family.Key}
  {entry : family.Entry} {conflict : Conflict}

/-- The table without entries. -/
def empty : Table family := ⟨∅⟩

instance : Inhabited (Table family) := ⟨empty⟩

/-- The entry at a key. -/
def find? (table : Table family) (key : family.Key) : Option family.Entry := table.byKey[key]?

/-- The number of entries. -/
def size (table : Table family) : Nat := table.byKey.size

/-- All entries in the order of their keys. -/
def entries (table : Table family) : List family.Entry := table.byKey.toList.map Prod.snd

/-- The table with an entry at the key it claims, whatever was there before. -/
def file (table : Table family) (entry : family.Entry) : Table family :=
  ⟨table.byKey.insert (family.key entry) entry⟩

/-- Files an entry if nothing holds its key. If something does, the table stays as it is. -/
def enter (table : Table family) (entry : family.Entry) : Attempt (Table family) :=
  match table.find? (family.key entry) with
  | some existing => ⟨table, some (.between existing entry)⟩
  | none => ⟨table.file entry, none⟩

/-- A table is determined by what is found in it. -/
theorem ext_find? {first second : Table family} (h : ∀ key, first.find? key = second.find? key) :
    first = second := by
  rcases first with ⟨first⟩
  rcases second with ⟨second⟩
  exact congrArg Table.mk (Std.ExtTreeMap.ext_getElem? fun {key} => h key)

@[simp] theorem find?_empty (key : family.Key) : (empty : Table family).find? key = none := by
  simp [empty, find?]

@[simp] theorem size_empty : (empty : Table family).size = 0 := by
  simp [empty, size]

/-- Filing an entry changes what is found at its key, and nothing else. -/
theorem find?_file (table : Table family) (entry : family.Entry) (key : family.Key) :
    (table.file entry).find? key =
      if family.key entry = key then some entry else table.find? key := by
  simp [file, find?, Std.ExtTreeMap.getElem?_insert]

/-- Filing at a free key adds one entry. -/
theorem size_file (h : table.find? (family.key entry) = none) :
    (table.file entry).size = table.size + 1 := by
  have hmem : family.key entry ∉ table.byKey := by
    rw [Std.ExtTreeMap.mem_iff_isSome_getElem?]
    rw [find?] at h
    simp [h]
  simp [file, size, Std.ExtTreeMap.size_insert, hmem]

/-- An entry is accepted exactly when its key is free, and is then the only change. -/
theorem enter_accepted_iff :
    table.enter entry = ⟨result, none⟩ ↔
      table.find? (family.key entry) = none ∧ result = table.file entry := by
  rw [enter]
  cases table.find? (family.key entry) <;> simp [eq_comm]

/-- An entry is refused exactly when its key is taken. The report names both entries, and
the table is left as it was. -/
theorem enter_refused_iff :
    table.enter entry = ⟨result, some conflict⟩ ↔
      result = table ∧ ∃ existing, table.find? (family.key entry) = some existing ∧
        conflict = .between existing entry := by
  rw [enter]
  cases table.find? (family.key entry) <;> simp [eq_comm]

@[simp] theorem length_entries (table : Table family) : table.entries.length = table.size := by
  simp [entries, size]

end Table

end ScopedSignatures
