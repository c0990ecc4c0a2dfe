import ScopedSignatures.Proofs.Environment.Resolution
import ScopedSignatures.Proofs.Search.Agreement

/-!
# Predicates on exact names

Whether a name is that of a class, of a module or of a constant is asked of the key alone,
without a search. A search comes down to the same question where it has one key to try:
at the root, and for a name that is anchored already. Anywhere else what a search finds
is told by the predicate too, of the name read in one of the namespaces around the scope.

## Main definitions

* `Search.Foretells` — a predicate on names tells what a search finds

## Main results

* `Search.mem_outwardKeys_iff` — the keys of a name are its readings in the namespaces around
* `Search.foretells_outward` — the entry at a key foretells the outward search
* `Environment.exact_predicates_foretell_finders` — classes, modules and constants
-/

namespace ScopedSignatures

namespace Search

variable {vocabulary : Vocabulary} {δ ε : Type} {name key : QualifiedName vocabulary}
  {scope : Namespace}

/-- The keys of a name in a scope are its readings in the namespaces around the scope. -/
theorem mem_outwardKeys_iff :
    key ∈ outwardKeys name scope ↔
      ∃ outer ∈ scope.anchored.enclosing, key = outer.qualify name := by
  by_cases habsolute : name.isAbsolute = true
  · have hsame : ∀ outer : Namespace, outer.qualify name = name := fun outer =>
      Namespace.qualify_of_isAbsolute (Namespace.isAbsolute_iff.1 habsolute)
    rw [outwardKeys_of_isAbsolute habsolute, List.mem_singleton]
    constructor
    · rintro rfl
      exact ⟨_, List.mem_cons_self, (hsame _).symm⟩
    · rintro ⟨outer, -, rfl⟩
      exact hsame outer
  · rw [outwardKeys, if_neg habsolute, List.mem_map]
    simp only [eq_comm]

/-- Every key of a name is absolute, so it is its own reading at the root. -/
theorem anchored_of_mem_outwardKeys (h : key ∈ outwardKeys name scope) : key.anchored = key := by
  obtain ⟨outer, houter, rfl⟩ := mem_outwardKeys_iff.1 h
  have hanchored : outer.anchored = outer :=
    Namespace.ext rfl (Namespace.anchor_of_mem_enclosing houter).symm
  rw [anchored_qualify, hanchored]

/-- A predicate on names tells what a search finds: all about a search that has one key to
try, and of any other at which of its keys there is something. -/
structure Foretells (holds : QualifiedName vocabulary → Bool)
    (found : QualifiedName vocabulary → Namespace → Option δ) : Prop where
  /-- At the root a name has no other key. -/
  at_root : ∀ name, holds name = (found name .root).isSome
  /-- Nor has an anchored name anywhere. -/
  of_anchored : ∀ name scope, holds name = (found name.anchored scope).isSome
  /-- What is found is foretold by the name read in the scope or in a namespace around it. -/
  of_found : ∀ name scope, (found name scope).isSome = true →
    ∃ outer ∈ scope.anchored.enclosing, holds (outer.qualify name) = true

theorem found_outward_root (probe : QualifiedName vocabulary → Option ε)
    (name : QualifiedName vocabulary) :
    (outward probe name .root).found = probe name.anchored := by
  rw [outward, found_tryInOrder, outwardKeys_eq_singleton (Or.inr rfl), List.findSome?_singleton,
    directKey, ← QualifiedName.anchored_eq_qualify, QualifiedName.anchored_anchored]

/-- Whether there is an entry of some kind at the key of a name foretells what an outward
search that asks for this kind in the end will find. -/
theorem foretells_outward (probe : QualifiedName vocabulary → Option ε) (select : ε → Option δ) :
    Foretells (fun name => ((probe name.anchored).bind select).isSome)
      fun name scope => (outward probe name scope).found.bind select := by
  constructor
  case at_root =>
    intro name
    rw [found_outward_root]
  case of_anchored =>
    intro name scope
    rw [found_outward_of_isAbsolute name.isAbsolute_anchored]
  case of_found =>
    intro name scope hsome
    obtain ⟨value, hvalue⟩ := Option.isSome_iff_exists.1 hsome
    obtain ⟨entry, hentry, hselect⟩ := Option.bind_eq_some_iff.1 hvalue
    rw [outward, found_tryInOrder] at hentry
    obtain ⟨key, hkey, hthere⟩ := List.exists_of_findSome?_eq_some hentry
    have hsame := anchored_of_mem_outwardKeys hkey
    obtain ⟨outer, houter, rfl⟩ := mem_outwardKeys_iff.1 hkey
    refine ⟨outer, houter, ?_⟩
    show ((probe (outer.qualify name).anchored).bind select).isSome = true
    rw [hsame, hthere, Option.bind_some, hselect, Option.isSome_some]

end Search

namespace Environment

/-! ## Classes, modules and constants -/

theorem isClass_eq (env : Environment) (name : ModuleName) :
    env.isClass name =
      (((env.table .classOrModule).find? name.anchored).bind ClassOrModule.asClass?).isSome :=
  (Option.isSome_bind _ _).symm

theorem isModule_eq (env : Environment) (name : ModuleName) :
    env.isModule name =
      (((env.table .classOrModule).find? name.anchored).bind ClassOrModule.asModule?).isSome :=
  (Option.isSome_bind _ _).symm

/-- No name is that of a class and of a module. -/
theorem not_isClass_and_isModule (env : Environment) (name : ModuleName) :
    ¬ (env.isClass name = true ∧ env.isModule name = true) := by
  rw [isClass, isModule]
  rintro ⟨hclass, hmodule⟩
  obtain ⟨entry, hentry, hisClass⟩ := (Option.any_eq_true _ _).1 hclass
  rw [hentry, Option.any_some] at hmodule
  rw [entry.isSome_asClass?, hmodule] at hisClass
  cases hisClass

/-- **Exact predicates foretell the finders.** Whether a name is that of a class is
whether a class is found for it at the root, and for the anchored name in any scope; a
class is found for a name only if the name, read in the scope or in a namespace around
it, is that of a class. The same holds of modules and of constants, and no name is that
of a class and of a module. -/
theorem exact_predicates_foretell_finders (env : Environment) :
    Search.Foretells env.isClass (fun name scope => (env.resolveClass name scope).value) ∧
    Search.Foretells env.isModule (fun name scope => (env.resolveModule name scope).value) ∧
    Search.Foretells env.isConstant (fun name scope => (env.resolveConstant name scope).value) ∧
    ∀ name, ¬ (env.isClass name = true ∧ env.isModule name = true) := by
  have hclasses := Search.foretells_outward (env.table .classOrModule).find? ClassOrModule.asClass?
  have hmodules := Search.foretells_outward (env.table .classOrModule).find? ClassOrModule.asModule?
  have hconstants := Search.foretells_outward (env.table .constant).find? some
  refine ⟨?_, ?_, ?_, not_isClass_and_isModule env⟩
  · rw [funext (isClass_eq env)]
    exact hclasses
  · rw [funext (isModule_eq env)]
    exact hmodules
  · simp only [Option.bind_fun_some] at hconstants
    exact hconstants

/-- The class at the root is found from `B`, where the module is not in the way. -/
theorem class_found_beside_module :
    (classBehindModule.resolveClass ⟨.empty, "X"⟩ ⟨["B"], .relative⟩).value.isSome = true ∧
      (∃ outer ∈ Namespace.enclosing ⟨["B"], .absolute⟩,
        classBehindModule.isClass (outer.qualify ⟨.empty, "X"⟩) = true) ∧
      classBehindModule.isModule ⟨⟨["A"], .relative⟩, "X"⟩ = true ∧
      (classBehindModule.resolveModule ⟨⟨["A"], .relative⟩, "X"⟩ .root).value.isSome = true := by
  obtain ⟨hclass, hmodule, -⟩ := exact_predicates_foretell_finders classBehindModule
  have hfound : (classBehindModule.resolveClass ⟨.empty, "X"⟩ ⟨["B"], .relative⟩).value.isSome =
    true := rfl
  have hnamed : classBehindModule.isModule ⟨⟨["A"], .relative⟩, "X"⟩ = true := rfl
  exact ⟨hfound, hclass.of_found _ _ hfound, hnamed, (hmodule.at_root _).symm.trans hnamed⟩

end Environment

end ScopedSignatures
