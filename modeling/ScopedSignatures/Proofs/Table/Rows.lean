import Mathlib.Algebra.GroupWithZero.Nat
import ScopedSignatures.Table.Basic
import ScopedSignatures.Table.ExtensionIndex

/-!
# Rows

What a table and the extension index hold, written out as rows: each key with
what is filed under it. A look-up shows one key at a time; the rows show all of
them at once, so that keys can be compared and lists can be counted.

## Main definitions

* `Table.rows`, `ExtensionIndex.rows` — each key with what is filed under it
* `ExtensionIndex.listed` — how many extensions the lists hold together

## Main results

* `Table.mem_rows_iff`, `ExtensionIndex.mem_rows_iff` — the rows are what look-ups find
* `Table.nodup_keys`, `ExtensionIndex.nodup_targets` — no key has two rows
* `Table.increasing_rows` — the rows follow the order of the keys
* `Table.rows_file_perm`, `Table.entries_file_perm` — one more entry is one more row
* `ExtensionIndex.listed_add` — one more extension is one more in the lists
-/

namespace ScopedSignatures

/-! ## The rows of a map -/

namespace Rows

variable {κ δ : Type} [Ord κ] [Std.TransOrd κ] {map : Std.ExtTreeMap κ δ} {key : κ} {value : δ}

theorem nodup_keys (map : Std.ExtTreeMap κ δ) : (map.toList.map Prod.fst).Nodup := by
  rw [Std.ExtTreeMap.map_fst_toList_eq_keys]
  exact Std.ExtTreeMap.nodup_keys

theorem nodup (map : Std.ExtTreeMap κ δ) : map.toList.Nodup := by
  apply List.Pairwise.of_map Prod.fst _ (nodup_keys map)
  intro first second hkeys hrows
  exact hkeys (congrArg Prod.fst hrows)

variable [Std.LawfulEqOrd κ]

/-- What is filed under a key is one row; the others are those of the map without the key. -/
theorem perm_of_getElem? (h : map[key]? = some value) :
    map.toList.Perm ((key, value) :: (map.erase key).toList) := by
  have hout : (key, value) ∉ (map.erase key).toList := by
    simp [Std.ExtTreeMap.mem_toList_iff_getElem?_eq_some]
  apply (List.perm_ext_iff_of_nodup (nodup map) (List.nodup_cons.2 ⟨hout, nodup _⟩)).2
  intro row
  rcases row with ⟨other, found⟩
  rw [List.mem_cons, Std.ExtTreeMap.mem_toList_iff_getElem?_eq_some,
    Std.ExtTreeMap.mem_toList_iff_getElem?_eq_some, Std.ExtTreeMap.getElem?_erase]
  by_cases hkey : key = other
  · subst hkey
    simp [h, eq_comm]
  · simp [hkey, Ne.symm hkey]

/-- A measure of the rows, with the row of one key set apart. -/
theorem sum_of_getElem? (measure : κ × δ → Nat) (h : map[key]? = some value) :
    (map.toList.map measure).sum =
      measure (key, value) + ((map.erase key).toList.map measure).sum := by
  rw [((perm_of_getElem? h).map measure).sum_nat, List.map_cons, List.sum_cons]

theorem erase_of_getElem?_eq_none (h : map[key]? = none) : map.erase key = map := by
  refine Std.ExtTreeMap.ext_getElem? fun {other} => ?_
  rw [Std.ExtTreeMap.getElem?_erase]
  split
  · next hkey =>
    obtain rfl := Std.LawfulEqOrd.eq_of_compare hkey
    exact h.symm
  · rfl

theorem erase_insert (map : Std.ExtTreeMap κ δ) (key : κ) (value : δ) :
    (map.insert key value).erase key = map.erase key := by
  refine Std.ExtTreeMap.ext_getElem? fun {other} => ?_
  rw [Std.ExtTreeMap.getElem?_erase, Std.ExtTreeMap.getElem?_erase,
    Std.ExtTreeMap.getElem?_insert]
  split <;> rfl

end Rows

/-! ## Tables -/

namespace Table

variable {family : Family} {table : Table family} {key : family.Key} {entry : family.Entry}

/-- Each key with the entry filed under it, in the order of the keys. -/
def rows (table : Table family) : List (family.Key × family.Entry) := table.byKey.toList

theorem mem_rows_iff : (key, entry) ∈ table.rows ↔ table.find? key = some entry :=
  Std.ExtTreeMap.mem_toList_iff_getElem?_eq_some

theorem nodup_keys (table : Table family) : (table.rows.map Prod.fst).Nodup :=
  Rows.nodup_keys table.byKey

theorem increasing_rows (table : Table family) :
    table.rows.Pairwise fun first second => compare first.1 second.1 = .lt :=
  Std.ExtTreeMap.ordered_keys_toList

/-- Filing at a free key adds a row. -/
theorem rows_file_perm (h : table.find? (family.key entry) = none) :
    (table.file entry).rows.Perm ((family.key entry, entry) :: table.rows) := by
  have hnow : (table.file entry).byKey[family.key entry]? = some entry :=
    Std.ExtTreeMap.getElem?_insert_self
  have hothers : (table.file entry).byKey.erase (family.key entry) = table.byKey := by
    calc (table.file entry).byKey.erase (family.key entry)
        = table.byKey.erase (family.key entry) := Rows.erase_insert _ _ _
      _ = table.byKey := Rows.erase_of_getElem?_eq_none h
  have hperm := Rows.perm_of_getElem? hnow
  rw [hothers] at hperm
  exact hperm

/-- Filing at a free key adds an entry to the listing. -/
theorem entries_file_perm (h : table.find? (family.key entry) = none) :
    (table.file entry).entries.Perm (entry :: table.entries) :=
  (rows_file_perm h).map Prod.snd

end Table

/-! ## Extensions -/

namespace ExtensionIndex

variable {index : ExtensionIndex} {target : ModuleName} {added : List Extension}

/-- Each target with the extensions listed under it. -/
def rows (index : ExtensionIndex) : List (ModuleName × List Extension) := index.byTarget.toList

/-- How many extensions the lists hold together. -/
def listed (index : ExtensionIndex) : Nat := (index.rows.map fun row => row.2.length).sum

theorem mem_rows_iff : (target, added) ∈ index.rows ↔ index.byTarget[target]? = some added :=
  Std.ExtTreeMap.mem_toList_iff_getElem?_eq_some

theorem nodup_targets (index : ExtensionIndex) : (index.rows.map Prod.fst).Nodup :=
  Rows.nodup_keys index.byTarget

@[simp] theorem rows_empty : empty.rows = [] := by
  rw [rows, Std.ExtTreeMap.toList_eq_nil_iff]
  rfl

/-- The extensions of one target, and those in the rows of the others. -/
theorem listed_eq (index : ExtensionIndex) (target : ModuleName) :
    index.listed = (index.find target).length +
      ((index.byTarget.erase target).toList.map fun row => row.2.length).sum := by
  rw [find]
  cases hfound : index.byTarget[target]? with
  | none =>
    rw [Rows.erase_of_getElem?_eq_none hfound, Option.getD_none, List.length_nil, Nat.zero_add]
    rfl
  | some added => exact Rows.sum_of_getElem? (fun row => row.2.length) hfound

/-- One more extension is one more in the lists. -/
theorem listed_add (index : ExtensionIndex) (extension : Extension) :
    (index.add extension).listed = index.listed + 1 := by
  have hnow := listed_eq (index.add extension) extension.key
  have hbefore := listed_eq index extension.key
  have hothers : (index.add extension).byTarget.erase extension.key =
      index.byTarget.erase extension.key := Rows.erase_insert _ _ _
  rw [find_add, if_pos rfl, List.length_append, List.length_singleton, hothers] at hnow
  omega

end ExtensionIndex

end ScopedSignatures
