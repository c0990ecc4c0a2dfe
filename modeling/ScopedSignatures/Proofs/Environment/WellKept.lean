import ScopedSignatures.Proofs.Environment.Growth
import ScopedSignatures.Proofs.Table.Rows

/-!
# Well-kept environments

Every look-up trusts that things are filed where they belong: an entry under the
key that it claims, an extension under the target that it names, and as many
extensions counted as are listed. Nobody checks that when a table is read. It
holds because entering keeps it, in every environment that declarations and
batches lead to, also where some of them were refused.

## Main definitions

* `Table.WellKeyed` — every entry is filed under the key that it claims
* `ExtensionIndex.WellKept` — every extension is listed under its target, and all are counted
* `Environment.WellKept` — both, for all tables of an environment

## Main results

* `Environment.WellKept.of_accepts` — an accepted declaration keeps an environment well kept
* `Environment.wellKept_of_reachable` — so does everything that calls lead to
* `Environment.rows_stand_under_their_keys` — what the rows of such an environment look like
-/

namespace ScopedSignatures

/-! ## Entries -/

namespace Table

variable {family : Family} {table : Table family}

/-- Every entry is filed under the key that it claims. -/
def WellKeyed (table : Table family) : Prop := ∀ row ∈ table.rows, row.1 = family.key row.2

theorem wellKeyed_empty : (empty : Table family).WellKeyed := by
  intro row hrow
  have hfound := mem_rows_iff.1 hrow
  rw [find?_empty] at hfound
  cases hfound

theorem WellKeyed.file (h : table.WellKeyed) (entry : family.Entry) :
    (table.file entry).WellKeyed := by
  intro row hrow
  have hfound := mem_rows_iff.1 hrow
  rw [find?_file] at hfound
  by_cases hkey : family.key entry = row.1
  · rw [if_pos hkey, Option.some.injEq] at hfound
    rw [← hkey, hfound]
  · rw [if_neg hkey] at hfound
    exact h row (mem_rows_iff.2 hfound)

end Table

/-! ## Extensions -/

namespace ExtensionIndex

variable {index : ExtensionIndex} {row : ModuleName × List Extension} {extension added : Extension}

/-- Every extension is listed under its target, no list is empty, and as many
extensions are counted as there are in the lists. -/
structure WellKept (index : ExtensionIndex) : Prop where
  key_eq : ∀ row ∈ index.rows, ∀ extension ∈ row.2, extension.key = row.1
  ne_nil : ∀ row ∈ index.rows, row.2 ≠ []
  count_eq : index.count = index.listed

theorem wellKept_empty : empty.WellKept := by
  constructor
  · simp
  · simp
  · rw [listed, rows_empty]
    rfl

/-- A row of the index with one more extension is the target's, with the new
extension at its end, or it was there before. -/
theorem mem_rows_add (h : row ∈ (index.add added).rows) :
    row = (added.key, index.find added.key ++ [added]) ∨ row ∈ index.rows := by
  rcases row with ⟨target, listed⟩
  have hfound := mem_rows_iff.1 h
  rw [add, Std.ExtTreeMap.getElem?_insert] at hfound
  by_cases hkey : added.key = target
  · rw [if_pos (Std.LawfulEqOrd.compare_eq_iff_eq.2 hkey), Option.some.injEq] at hfound
    exact Or.inl (by rw [← hkey, ← hfound])
  · rw [if_neg (mt Std.LawfulEqOrd.compare_eq_iff_eq.1 hkey)] at hfound
    exact Or.inr (mem_rows_iff.2 hfound)

theorem WellKept.key_eq_of_mem_find (h : index.WellKept) {target : ModuleName}
    (hmem : extension ∈ index.find target) : extension.key = target := by
  rw [find] at hmem
  cases hfound : index.byTarget[target]? with
  | none =>
    rw [hfound] at hmem
    exact absurd hmem List.not_mem_nil
  | some listed =>
    rw [hfound] at hmem
    exact h.key_eq (target, listed) (mem_rows_iff.2 hfound) extension hmem

/-- One more extension keeps the lists in order, and it is counted. -/
theorem WellKept.add (h : index.WellKept) (added : Extension) : (index.add added).WellKept := by
  constructor
  · intro row hrow extension hmem
    rcases mem_rows_add hrow with rfl | hbefore
    · rcases List.mem_append.1 hmem with hold | hnew
      · exact h.key_eq_of_mem_find hold
      · rw [List.mem_singleton.1 hnew]
    · exact h.key_eq row hbefore extension hmem
  · intro row hrow
    rcases mem_rows_add hrow with rfl | hbefore
    · exact List.append_ne_nil_of_right_ne_nil _ (List.cons_ne_nil added [])
    · exact h.ne_nil row hbefore
  · calc (index.add added).count
        = index.count + 1 := rfl
      _ = index.listed + 1 := by rw [h.count_eq]
      _ = (index.add added).listed := (listed_add index added).symm

end ExtensionIndex

/-! ## Environments -/

namespace Environment

variable {env result : Environment}

/-- In every table the entries stand under their keys, and the extensions under
their targets. -/
structure WellKept (env : Environment) : Prop where
  tables : ∀ family, (env.table family).WellKeyed
  extensions : env.extensions.WellKept

theorem wellKept_empty : empty.WellKept := by
  constructor
  · intro family
    rw [table_empty]
    exact Table.wellKeyed_empty
  · exact ExtensionIndex.wellKept_empty

/-- An accepted declaration keeps an environment well kept. -/
theorem WellKept.of_accepts (h : env.WellKept) (haccepts : env.Accepts result) :
    result.WellKept := by
  obtain ⟨declaration, hentered⟩ := haccepts
  cases declaration with
  | keyed family entry =>
    obtain ⟨-, rfl⟩ := enter_keyed_accepted_iff.1 hentered
    constructor
    · intro other
      by_cases hfamily : other = family
      · subst hfamily
        rw [table_withTable_self]
        exact (h.tables other).file entry
      · rw [table_withTable_of_ne hfamily]
        exact h.tables other
    · rw [extensions_withTable]
      exact h.extensions
  | extension added =>
    cases hentered
    exact ⟨h.tables, h.extensions.add added⟩

theorem wellKept_of_reachable (h : env.Reachable) : env.WellKept :=
  h.invariant wellKept_empty WellKept.of_accepts

/-- **What stands in a row stands under its key.** In every environment that
declarations and batches lead to, refused ones among them, the keys of classes,
modules, interfaces, constants and type aliases are absolute and are the declared
names read at the root, and the keys of globals are their symbols. Each target is
absolute and has at least one extension, and all of its extensions name it. As
many extensions are counted as are listed, and no table has two rows for a key. -/
theorem rows_stand_under_their_keys (h : env.Reachable) :
    (∀ row ∈ env.classesAndModules.rows,
      row.1.isAbsolute = true ∧ row.1 = row.2.name.anchored) ∧
    (∀ row ∈ env.interfaces.rows, row.1.isAbsolute = true ∧ row.1 = row.2.name.anchored) ∧
    (∀ row ∈ env.constants.rows, row.1.isAbsolute = true ∧ row.1 = row.2.name.anchored) ∧
    (∀ row ∈ env.typeAliases.rows, row.1.isAbsolute = true ∧ row.1 = row.2.name.anchored) ∧
    (∀ row ∈ env.globals.rows, row.1 = row.2.name) ∧
    (∀ row ∈ env.extensions.rows, row.1.isAbsolute = true ∧ row.2 ≠ [] ∧
      ∀ extension ∈ row.2, extension.target.anchored = row.1) ∧
    env.extensions.count = (env.extensions.rows.map fun row => row.2.length).sum ∧
    (∀ family, ((env.table family).rows.map Prod.fst).Nodup) ∧
    (env.extensions.rows.map Prod.fst).Nodup := by
  obtain ⟨htables, hextensions⟩ := wellKept_of_reachable h
  have hanchored : ∀ {vocabulary : Vocabulary} {key name : QualifiedName vocabulary},
      key = name.anchored → key.isAbsolute = true ∧ key = name.anchored := by
    intro vocabulary key name hkey
    exact ⟨hkey ▸ name.isAbsolute_anchored, hkey⟩
  refine ⟨fun row hrow => ?_, fun row hrow => ?_, fun row hrow => ?_, fun row hrow => ?_,
    fun row hrow => ?_, fun row hrow => ?_, hextensions.count_eq,
    fun family => Table.nodup_keys _, ExtensionIndex.nodup_targets _⟩
  · exact hanchored (htables .classOrModule row hrow)
  · exact hanchored (htables .interface row hrow)
  · exact hanchored (htables .constant row hrow)
  · exact hanchored (htables .typeAlias row hrow)
  · exact htables .global row hrow
  · have hlisted := hextensions.key_eq row hrow
    have hne := hextensions.ne_nil row hrow
    obtain ⟨extension, hmem⟩ := List.exists_mem_of_ne_nil row.2 hne
    exact ⟨hlisted extension hmem ▸ extension.target.isAbsolute_anchored, hne, hlisted⟩

/-- A class under a relative name, and a batch that a module of the same name
stops after two extensions and before a third. -/
def stoppedBatch : Attempt Environment :=
  ((empty.submit (.ofClass ⟨⟨.empty, "A"⟩, [], none, [], ⟨0, 5⟩⟩)).declareAll
    [.extension ⟨⟨.empty, "A"⟩, "x", [], [], ⟨6, 9⟩⟩,
      .extension ⟨⟨.root, "A"⟩, "y", [], [], ⟨10, 15⟩⟩,
      .ofModule ⟨⟨.root, "A"⟩, [], none, [], ⟨16, 20⟩⟩,
      .extension ⟨⟨.root, "B"⟩, "z", [], [], ⟨21, 25⟩⟩]).value

theorem stopped_batch_keeps_keys :
    stoppedBatch.conflict.isSome = true ∧ stoppedBatch.state.Reachable ∧
      stoppedBatch.state.extensions.count = 2 ∧
      (∀ row ∈ stoppedBatch.state.classesAndModules.rows,
        row.1.isAbsolute = true ∧ row.1 = row.2.name.anchored) ∧
      ∀ row ∈ stoppedBatch.state.extensions.rows,
        ∀ extension ∈ row.2, extension.target.anchored = row.1 := by
  have hreachable : stoppedBatch.state.Reachable := .declareAll (.submit .refl _) _
  obtain ⟨hclasses, -, -, -, -, hextensions, hcount, -⟩ := rows_stand_under_their_keys hreachable
  refine ⟨rfl, hreachable, ?_, hclasses, fun row hrow => (hextensions row hrow).2.2⟩
  rw [hcount]
  rfl

end Environment

end ScopedSignatures
