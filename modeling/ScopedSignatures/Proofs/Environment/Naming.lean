import ScopedSignatures.Proofs.Environment.Resolution
import ScopedSignatures.Proofs.Environment.WellKept
import ScopedSignatures.Proofs.Search.Path

/-!
# Naming what is declared

Whatever else an environment holds, each of its entries has a name in every scope
on its path: the segments of its key that the scope lacks. The whole key names it
in every scope at all. A search from a scope on the path begins at the key, so no
entry of the same last segment can hide it.

## Main results

* `Environment.found_from_every_scope_on_path` — what the names on the path of a key stand for
-/

namespace ScopedSignatures.Environment

variable {env : Environment}

/-- **Found from every scope on the path.** In every environment that declarations
and batches lead to, a name that spells out the key of a class, a module, a constant,
an interface or a type alias in a scope is resolved to it there. A class is found
by the query for classes, a module by that for modules. -/
theorem found_from_every_scope_on_path (h : env.Reachable) :
    (∀ key entry name scope, (key, entry) ∈ env.classesAndModules.rows →
      Search.OnPath key name scope →
        (env.resolveClassOrModule name scope).value = some entry ∧
        (∀ definition, entry = .ofClass definition →
          (env.resolveClass name scope).value = some definition) ∧
        ∀ definition, entry = .ofModule definition →
          (env.resolveModule name scope).value = some definition) ∧
    (∀ key entry name scope, (key, entry) ∈ env.constants.rows → Search.OnPath key name scope →
      (env.resolveConstant name scope).value = some entry) ∧
    (∀ key entry name scope, (key, entry) ∈ env.interfaces.rows → Search.OnPath key name scope →
      (env.lookUpInterface name scope).value = some entry) ∧
    ∀ key entry name scope, (key, entry) ∈ env.typeAliases.rows → Search.OnPath key name scope →
      (env.lookUpAlias name scope).value = .ok entry := by
  obtain ⟨htables, -⟩ := wellKept_of_reachable h
  refine ⟨fun key entry name scope hrow hpath => ?_, fun key entry name scope hrow hpath => ?_,
    fun key entry name scope hrow hpath => ?_, fun key entry name scope hrow hpath => ?_⟩
  · have hthere := hpath.probe_directKey entry.name (htables .classOrModule (key, entry) hrow)
      (Table.mem_rows_iff.1 hrow)
    have hresolved : (env.resolveClassOrModule name scope).value = some entry :=
      Search.found_outward_of_directKey hthere
    refine ⟨hresolved, fun definition hclass => ?_, fun definition hmodule => ?_⟩
    · exact value_resolveClass_eq_some_iff.2 (hclass ▸ hresolved)
    · exact value_resolveModule_eq_some_iff.2 (hmodule ▸ hresolved)
  · have hthere := hpath.probe_directKey entry.name (htables .constant (key, entry) hrow)
      (Table.mem_rows_iff.1 hrow)
    exact Search.found_outward_of_directKey hthere
  · have hthere := hpath.probe_directKey entry.name (htables .interface (key, entry) hrow)
      (Table.mem_rows_iff.1 hrow)
    rw [value_lookUpInterface]
    exact hthere
  · have hthere := hpath.probe_directKey entry.name (htables .typeAlias (key, entry) hrow)
      (Table.mem_rows_iff.1 hrow)
    exact value_lookUpAlias_eq_ok_iff.2 hthere

/-- A class two namespaces deep. -/
def innerClass : ClassDef := ⟨⟨⟨["A", "B"], .relative⟩, "X"⟩, [], none, [], ⟨0, 5⟩⟩

/-- The class among modules and a constant of the same last segment. -/
def amongNamesakes : Environment :=
  (empty.declareAll
    [.ofModule ⟨⟨⟨["B"], .absolute⟩, "X"⟩, [], none, [], ⟨6, 9⟩⟩, .ofClass innerClass,
      .ofModule ⟨⟨⟨["A", "A", "B"], .absolute⟩, "X"⟩, [], none, [], ⟨10, 15⟩⟩,
      .ofConstant ⟨⟨⟨["A", "B"], .absolute⟩, "X"⟩, .base .any, ⟨16, 20⟩⟩]).value.state

theorem inner_class_found_among_namesakes :
    amongNamesakes.Reachable ∧
      (amongNamesakes.resolveClass ⟨⟨["B"], .relative⟩, "X"⟩ ⟨["A"], .relative⟩).value =
        some innerClass ∧
      (amongNamesakes.resolveClass ⟨⟨["A", "B"], .absolute⟩, "X"⟩ ⟨["A", "A"], .absolute⟩).value =
        some innerClass := by
  have hreachable : amongNamesakes.Reachable := .declareAll .refl _
  have hrow : (⟨⟨["A", "B"], .absolute⟩, "X"⟩, .ofClass innerClass) ∈
    amongNamesakes.classesAndModules.rows := Table.mem_rows_iff.2 rfl
  obtain ⟨hclasses, -⟩ := found_from_every_scope_on_path hreachable
  have hbehind : Search.OnPath ⟨⟨["A", "B"], .absolute⟩, "X"⟩
    (⟨⟨["B"], .relative⟩, "X"⟩ : ModuleName) ⟨["A"], .relative⟩ := .behind rfl .relative
  refine ⟨hreachable, ?_, ?_⟩
  · exact (hclasses _ _ _ _ hrow hbehind).2.1 innerClass rfl
  · exact (hclasses _ _ _ _ hrow (.whole _)).2.1 innerClass rfl

end ScopedSignatures.Environment
