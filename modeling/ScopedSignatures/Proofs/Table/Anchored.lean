import ScopedSignatures.Proofs.Declaration.Anchored
import ScopedSignatures.Table.Basic

/-!
# Anchored tables

A table and the extension index with every declared name read at the root. The
keys are at the root already, so they stay, and so does the order of a listing.

## Main definitions

* `Table.anchored`, `ExtensionIndex.anchored` — with every declared name read at the root

## Main results

* `Table.find?_anchored`, `ExtensionIndex.find_anchored` — the same keys are occupied
* `Table.file_anchored`, `ExtensionIndex.add_anchored` — anchoring before or after filing
* `Table.entries_anchored` — the listing keeps its order
-/

namespace ScopedSignatures

namespace Table

variable {family : Family}

/-- The table with the names of all entries read at the root. -/
def anchored (table : Table family) : Table family :=
  ⟨table.byKey.map fun _ entry => family.anchored entry⟩

/-- The same keys are occupied, by the anchored entries. -/
theorem find?_anchored (table : Table family) (key : family.Key) :
    table.anchored.find? key = (table.find? key).map family.anchored :=
  Std.ExtTreeMap.getElem?_map

@[simp] theorem anchored_empty : (empty : Table family).anchored = empty := by
  apply ext_find?
  intro key
  rw [find?_anchored, find?_empty, Option.map_none]

/-- Filing an anchored entry is anchoring what is filed. -/
theorem file_anchored (table : Table family) (entry : family.Entry) :
    table.anchored.file (family.anchored entry) = (table.file entry).anchored := by
  apply ext_find?
  intro key
  rw [find?_file, Family.key_anchored, find?_anchored, find?_anchored, find?_file]
  split <;> rfl

/-- Listings keep their order. -/
theorem entries_anchored (table : Table family) :
    table.anchored.entries = table.entries.map family.anchored := by
  simp only [entries, anchored, Std.ExtTreeMap.toList_map, List.map_map]
  rfl

@[simp] theorem size_anchored (table : Table family) : table.anchored.size = table.size :=
  Std.ExtTreeMap.size_map

end Table

namespace ExtensionIndex

/-- The index with the targets of all extensions read at the root. -/
def anchored (index : ExtensionIndex) : ExtensionIndex :=
  ⟨index.byTarget.map fun _ listed => listed.map Extension.anchored, index.count⟩

/-- The same targets have extensions, the anchored ones, in the same order. -/
theorem find_anchored (index : ExtensionIndex) (target : ModuleName) :
    index.anchored.find target = (index.find target).map Extension.anchored := by
  rw [find, find, anchored, Std.ExtTreeMap.getElem?_map]
  cases index.byTarget[target]? <;> rfl

@[simp] theorem anchored_empty : empty.anchored = empty := by
  rw [anchored, empty, Std.ExtTreeMap.map_eq_empty_iff.2 rfl]

/-- Adding an anchored extension is anchoring what is added. -/
theorem add_anchored (index : ExtensionIndex) (added : Extension) :
    index.anchored.add added.anchored = (index.add added).anchored := by
  have hlists : (index.anchored.add added.anchored).byTarget =
      (index.add added).anchored.byTarget := by
    refine Std.ExtTreeMap.ext_getElem? fun {target} => ?_
    have hkey : added.anchored.key = added.key := QualifiedName.anchored_anchored added.target
    simp only [add, find_anchored, hkey]
    simp only [anchored, Std.ExtTreeMap.getElem?_insert, Std.ExtTreeMap.getElem?_map]
    split <;> simp
  rw [add, anchored, mk.injEq]
  exact ⟨hlists, rfl⟩

end ExtensionIndex

end ScopedSignatures
