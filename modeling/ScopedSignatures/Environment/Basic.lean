import ScopedSignatures.Table.Basic
import ScopedSignatures.Table.ExtensionIndex

/-!
# Environments

An environment holds the declarations that were accepted so far: a table for
each family and the index of extensions. The families share nothing, so a class
and a constant, say, may have the same name.

## Main definitions

* `Environment` — the five tables and the extensions
* `Environment.table`, `Environment.withTable` — one family's table, read and replaced
* `Environment.enter` — the environment with one more declaration
* `Environment.size` — how many declarations there are

## Main results

* `Environment.table_withTable_of_ne` — replacing one table leaves the others
* `Environment.enter_keyed_accepted_iff`, `Environment.enter_keyed_refused_iff` — when an entry
  is accepted, and what is left in either case
-/

namespace ScopedSignatures

/-- The declarations accepted so far. -/
@[ext]
structure Environment where
  classesAndModules : Table .classOrModule
  interfaces : Table .interface
  constants : Table .constant
  globals : Table .global
  typeAliases : Table .typeAlias
  extensions : ExtensionIndex

namespace Environment

variable {env result : Environment} {family : Family} {entry : family.Entry}

/-- The environment without declarations. -/
def empty : Environment := ⟨.empty, .empty, .empty, .empty, .empty, .empty⟩

instance : Inhabited Environment := ⟨empty⟩

/-- The table of a family. -/
def table (env : Environment) : (family : Family) → Table family
  | .classOrModule => env.classesAndModules
  | .interface => env.interfaces
  | .constant => env.constants
  | .global => env.globals
  | .typeAlias => env.typeAliases

/-- The environment with another table for a family. -/
def withTable (env : Environment) : (family : Family) → Table family → Environment
  | .classOrModule, table => { env with classesAndModules := table }
  | .interface, table => { env with interfaces := table }
  | .constant, table => { env with constants := table }
  | .global, table => { env with globals := table }
  | .typeAlias, table => { env with typeAliases := table }

/-- The environment with one more declaration. An entry of a family is refused
if its key is taken; an extension is always accepted. -/
def enter (env : Environment) : Declaration → Attempt Environment
  | .keyed family entry => ((env.table family).enter entry).map (env.withTable family)
  | .extension extension => ⟨{ env with extensions := env.extensions.add extension }, none⟩

/-- The number of declarations, extensions among them. -/
def size (env : Environment) : Nat :=
  env.classesAndModules.size + env.interfaces.size + env.extensions.count +
    env.constants.size + env.globals.size + env.typeAliases.size

/-- Whether there is no declaration. -/
def isEmpty (env : Environment) : Bool := env.size == 0

/-! ## Listings -/

/-- The classes in the order of their keys. -/
def classes (env : Environment) : List ClassDef :=
  env.classesAndModules.entries.filterMap ClassOrModule.asClass?

/-- The modules in the order of their keys. -/
def modules (env : Environment) : List ModuleDef :=
  env.classesAndModules.entries.filterMap ClassOrModule.asModule?

/-! ## Reading and replacing tables -/

@[simp] theorem table_empty (family : Family) : empty.table family = .empty := by
  cases family <;> rfl

@[simp] theorem table_withTable_self (env : Environment) (family : Family)
    (table : Table family) : (env.withTable family table).table family = table := by
  cases family <;> rfl

@[simp] theorem withTable_table (env : Environment) (family : Family) :
    env.withTable family (env.table family) = env := by
  cases family <;> rfl

/-- Replacing one family's table leaves the tables of the others. -/
theorem table_withTable_of_ne {other : Family} (h : other ≠ family) (table : Table family) :
    (env.withTable family table).table other = env.table other := by
  cases family <;> cases other <;> simp_all [withTable, Environment.table]

@[simp] theorem extensions_withTable (env : Environment) (family : Family)
    (table : Table family) : (env.withTable family table).extensions = env.extensions := by
  cases family <;> rfl

/-- An entry is accepted exactly when its key is free, and it is then the only change. -/
theorem enter_keyed_accepted_iff :
    env.enter (.keyed family entry) = ⟨result, none⟩ ↔
      (env.table family).find? (family.key entry) = none ∧
        result = env.withTable family ((env.table family).file entry) := by
  rw [enter, Attempt.map_eq_iff]
  simp only [Table.enter_accepted_iff, and_assoc, exists_and_left, exists_eq_left]

/-- An entry is refused exactly when its key is taken. The report names both entries, and
the environment is left as it was. -/
theorem enter_keyed_refused_iff {conflict : Conflict} :
    env.enter (.keyed family entry) = ⟨result, some conflict⟩ ↔
      result = env ∧ ∃ existing, (env.table family).find? (family.key entry) = some existing ∧
        conflict = .between existing entry := by
  rw [enter, Attempt.map_eq_iff]
  simp only [Table.enter_refused_iff]
  constructor
  · rintro ⟨table, ⟨rfl, htaken⟩, rfl⟩
    exact ⟨withTable_table env family, htaken⟩
  · rintro ⟨rfl, htaken⟩
    exact ⟨_, ⟨rfl, htaken⟩, (withTable_table result family).symm⟩

/-- An extension is always accepted. -/
@[simp] theorem enter_extension (env : Environment) (extension : Extension) :
    env.enter (.extension extension) =
      ⟨{ env with extensions := env.extensions.add extension }, none⟩ := rfl

/-- An accepted declaration makes the environment larger by one. -/
theorem size_of_enter_accepted {declaration : Declaration}
    (h : env.enter declaration = ⟨result, none⟩) : result.size = env.size + 1 := by
  cases declaration with
  | keyed family entry =>
    obtain ⟨hfree, rfl⟩ := enter_keyed_accepted_iff.1 h
    have hsize := Table.size_file hfree
    cases family <;> simp only [size, withTable, table] at hsize ⊢ <;> omega
  | extension added =>
    cases h
    simp only [size, ExtensionIndex.add]
    omega

end Environment

end ScopedSignatures
