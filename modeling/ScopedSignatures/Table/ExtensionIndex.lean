import Std.Data.ExtTreeMap
import ScopedSignatures.Declaration.Family

/-!
# The extension index

Extensions by the module that they extend, in the order in which they came. Any
number of them may extend one module, and the module itself need not be
declared. How many there are in all is counted along.

## Main definitions

* `ExtensionIndex` — lists of extensions by target, and their number
* `ExtensionIndex.find` — the extensions of a target
* `ExtensionIndex.add` — one more extension, behind those of its target

## Main results

* `ExtensionIndex.find_add` — adding changes one list, at its end
-/

namespace ScopedSignatures

/-- The name under which an extension is listed: its target read at the root. -/
def Extension.key (extension : Extension) : ModuleName := extension.target.anchored

/-- Lists of extensions by target, and how many extensions there are. -/
structure ExtensionIndex where
  byTarget : Std.ExtTreeMap ModuleName (List Extension)
  count : Nat

namespace ExtensionIndex

/-- The index without extensions. -/
def empty : ExtensionIndex := ⟨∅, 0⟩

instance : Inhabited ExtensionIndex := ⟨empty⟩

/-- The extensions listed under exactly this name, the oldest first. -/
def find (index : ExtensionIndex) (target : ModuleName) : List Extension :=
  index.byTarget[target]?.getD []

/-- The index with one more extension, behind those that its target has. -/
def add (index : ExtensionIndex) (extension : Extension) : ExtensionIndex :=
  ⟨index.byTarget.insert extension.key (index.find extension.key ++ [extension]), index.count + 1⟩

@[simp] theorem find_empty (target : ModuleName) : empty.find target = [] := by
  simp [empty, find]

/-- Adding an extension changes the list of its target, at the end, and no other. -/
theorem find_add (index : ExtensionIndex) (extension : Extension) (target : ModuleName) :
    (index.add extension).find target =
      if extension.key = target then index.find target ++ [extension] else index.find target := by
  simp only [add, find, Std.ExtTreeMap.getElem?_insert, Std.LawfulEqOrd.compare_eq_iff_eq]
  split
  · next h => rw [h, Option.getD_some]
  · rfl

end ExtensionIndex

end ScopedSignatures
