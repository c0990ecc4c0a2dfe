import ScopedSignatures.Environment.Resolve
import ScopedSignatures.Proofs.Search.Outward

/-!
# What a name resolves to

The outward search over an environment's tables. For a relative name the entry
at the innermost occupied key decides, whatever stands further out. Whether it is
a class or a module is asked only then, so a module in an inner namespace hides a
class of the same name in an outer one, and the other way round.

## Main results

* `Environment.innermost_key_decides` — what every outward query finds
* `Environment.value_resolveClassOrModule_of_isAbsolute` and its siblings — an absolute name is
  looked up as it is
-/

namespace ScopedSignatures

namespace ClassOrModule

variable {entry : ClassOrModule}

theorem asClass?_eq_some_iff {definition : ClassDef} :
    entry.asClass? = some definition ↔ entry = ofClass definition := by
  cases entry <;> simp [asClass?]

theorem asModule?_eq_some_iff {definition : ModuleDef} :
    entry.asModule? = some definition ↔ entry = ofModule definition := by
  cases entry <;> simp [asModule?]

end ClassOrModule

namespace Environment

variable {scope : Namespace}

/-! ## Absolute names -/

section Absolute

variable {name : ModuleName} {interfaceName : InterfaceName}

theorem value_resolveClassOrModule_of_isAbsolute (env : Environment)
    (h : name.isAbsolute = true) (scope : Namespace) :
    (env.resolveClassOrModule name scope).value = (env.table .classOrModule).find? name :=
  Search.found_outward_of_isAbsolute h scope

theorem value_resolveConstant_of_isAbsolute (env : Environment)
    (h : name.isAbsolute = true) (scope : Namespace) :
    (env.resolveConstant name scope).value = (env.table .constant).find? name :=
  Search.found_outward_of_isAbsolute h scope

theorem value_lookUpInterface_of_isAbsolute (env : Environment)
    (h : interfaceName.isAbsolute = true) (scope : Namespace) :
    (env.lookUpInterface interfaceName scope).value =
      (env.table .interface).find? interfaceName := by
  rw [value_lookUpInterface, Search.directKey_of_isAbsolute h]

end Absolute

/-! ## Aliases -/

section Aliases

variable {env : Environment} {name : AliasName} {definition : TypeAlias} {miss : UnknownAlias}

theorem value_lookUpAlias_eq_ok_iff :
    (env.lookUpAlias name scope).value = .ok definition ↔
      (env.table .typeAlias).find? (Search.directKey name scope) = some definition := by
  rw [value_lookUpAlias]
  cases (env.table .typeAlias).find? (Search.directKey name scope) <;> simp

/-- A miss names the one key that was looked for. -/
theorem value_lookUpAlias_eq_error_iff :
    (env.lookUpAlias name scope).value = .error miss ↔
      (env.table .typeAlias).find? (Search.directKey name scope) = none ∧
        miss = ⟨Search.directKey name scope⟩ := by
  rw [value_lookUpAlias]
  cases (env.table .typeAlias).find? (Search.directKey name scope) <;> simp [eq_comm]

end Aliases

/-! ## The kind is asked last -/

section Kinds

variable {env : Environment} {name : ModuleName}

theorem value_resolveClass_eq_some_iff {definition : ClassDef} :
    (env.resolveClass name scope).value = some definition ↔
      (env.resolveClassOrModule name scope).value = some (.ofClass definition) := by
  simp [resolveClass, Option.bind_eq_some_iff, ClassOrModule.asClass?_eq_some_iff]

theorem value_resolveModule_eq_some_iff {definition : ModuleDef} :
    (env.resolveModule name scope).value = some definition ↔
      (env.resolveClassOrModule name scope).value = some (.ofModule definition) := by
  simp [resolveModule, Option.bind_eq_some_iff, ClassOrModule.asModule?_eq_some_iff]

/-- What is found is a class exactly when it is no module. -/
theorem isSome_resolveClass_of_isSome
    (h : (env.resolveClassOrModule name scope).value.isSome = true) :
    (env.resolveClass name scope).value.isSome = !(env.resolveModule name scope).value.isSome := by
  obtain ⟨entry, hentry⟩ := Option.isSome_iff_exists.1 h
  simp only [resolveClass, resolveModule, Journaled.value_map, hentry, Option.bind_some]
  exact entry.isSome_asClass?

theorem value_resolve_eq_none_of_eq_none
    (h : (env.resolveClassOrModule name scope).value = none) :
    (env.resolveClass name scope).value = none ∧ (env.resolveModule name scope).value = none := by
  simp only [resolveClass, resolveModule, Journaled.value_map, h, Option.bind_none, and_self]

end Kinds

/-! ## The innermost key decides -/

/-- **The innermost occupied key decides.** An absolute name is looked up as it
is. A relative name stands for what is filed behind the largest number of scope
segments behind which anything is filed at all; a query for one kind succeeds
only if that is of the kind, so exactly one of the two queries for a kind
succeeds whenever anything is found. -/
theorem innermost_key_decides (env : Environment) (name : ModuleName) (scope : Namespace) :
    (name.isAbsolute = true →
      (env.resolveClassOrModule name scope).value = (env.table .classOrModule).find? name ∧
      (env.resolveConstant name scope).value = (env.table .constant).find? name) ∧
    (name.isRelative = true →
      (∀ entry, (env.resolveClassOrModule name scope).value = some entry ↔
        Search.IsInnermost (env.table .classOrModule).find? name scope entry) ∧
      ((env.resolveClassOrModule name scope).value = none ↔
        ∀ depth ≤ scope.depth,
          (env.table .classOrModule).find? (Search.keyAt name scope depth) = none) ∧
      (∀ entry, (env.resolveConstant name scope).value = some entry ↔
        Search.IsInnermost (env.table .constant).find? name scope entry) ∧
      ((env.resolveConstant name scope).value = none ↔
        ∀ depth ≤ scope.depth,
          (env.table .constant).find? (Search.keyAt name scope depth) = none)) ∧
    (∀ definition, (env.resolveClass name scope).value = some definition ↔
      (env.resolveClassOrModule name scope).value = some (.ofClass definition)) ∧
    (∀ definition, (env.resolveModule name scope).value = some definition ↔
      (env.resolveClassOrModule name scope).value = some (.ofModule definition)) ∧
    ((env.resolveClassOrModule name scope).value.isSome = true →
      (env.resolveClass name scope).value.isSome =
        !(env.resolveModule name scope).value.isSome) ∧
    ((env.resolveClassOrModule name scope).value = none →
      (env.resolveClass name scope).value = none ∧
        (env.resolveModule name scope).value = none) := by
  refine ⟨fun habsolute => ?_, fun hrelative => ?_, ?_⟩
  · exact ⟨value_resolveClassOrModule_of_isAbsolute env habsolute scope,
      value_resolveConstant_of_isAbsolute env habsolute scope⟩
  · exact ⟨fun entry => Search.found_outward_eq_some_iff hrelative,
      Search.found_outward_eq_none_iff hrelative,
      fun entry => Search.found_outward_eq_some_iff hrelative,
      Search.found_outward_eq_none_iff hrelative⟩
  · exact ⟨fun definition => value_resolveClass_eq_some_iff,
      fun definition => value_resolveModule_eq_some_iff, isSome_resolveClass_of_isSome,
      value_resolve_eq_none_of_eq_none⟩

/-- A class at the root, and a module of the same name one namespace further in. -/
def classBehindModule : Environment :=
  empty.withTable .classOrModule
    (((Table.empty : Table .classOrModule).file
      (ClassOrModule.ofClass ⟨⟨.root, "X"⟩, [], none, [], .dummy⟩)).file
      (ClassOrModule.ofModule ⟨⟨⟨["A"], .absolute⟩, "X"⟩, [], none, [], .dummy⟩))

theorem module_hides_outer_class :
    (classBehindModule.resolveModule ⟨.empty, "X"⟩ ⟨["A", "B"], .relative⟩).value.isSome = true ∧
      (classBehindModule.resolveClass ⟨.empty, "X"⟩ ⟨["A", "B"], .relative⟩).value = none := by
  obtain ⟨-, hrelative, -, hmodule, hkinds, -⟩ :=
    innermost_key_decides classBehindModule ⟨.empty, "X"⟩ ⟨["A", "B"], .relative⟩
  obtain ⟨hfound, -⟩ := hrelative rfl
  have hinnermost : Search.IsInnermost (classBehindModule.table .classOrModule).find?
      ⟨.empty, "X"⟩ ⟨["A", "B"], .relative⟩
      (ClassOrModule.ofModule ⟨⟨⟨["A"], .absolute⟩, "X"⟩, [], none, [], .dummy⟩) := by
    refine ⟨1, by decide, ?_, fun deeper hdeeper hgt => ?_⟩
    · rw [classBehindModule, table_withTable_self, Table.find?_file, if_pos (by decide)]
    · obtain rfl : deeper = 2 := Nat.le_antisymm hdeeper hgt
      rw [classBehindModule, table_withTable_self, Table.find?_file, if_neg (by decide),
        Table.find?_file, if_neg (by decide), Table.find?_empty]
  have hentry := (hfound _).2 hinnermost
  have hisSome := Option.isSome_of_eq_some ((hmodule _).2 hentry)
  refine ⟨hisSome, Option.not_isSome_iff_eq_none.1 ?_⟩
  rw [hkinds (Option.isSome_of_eq_some hentry), hisSome]
  exact Bool.false_ne_true

end Environment

end ScopedSignatures
