import ScopedSignatures.Proofs.Environment.Batch

/-!
# The order of a batch

Whether a batch is accepted depends on what it claims and not on the order of its
declarations, and so do the tables of the environment that it makes. Only the
extensions of one target remember in which order they came.

## Main definitions

* `Environment.SameAnswers` — no query but that for extensions tells two environments apart

## Main results

* `Environment.table_submitAll_perm` — the tables forget the order of a row
* `Environment.order_of_batch_is_forgotten` — batches with the same declarations
-/

namespace ScopedSignatures.Environment

variable {env other : Environment} {first second : List Declaration}

/-- Two environments give the same answers, with the same notes, list the same
entries in the same order, and have the same size. Extensions are left out. -/
structure SameAnswers (env other : Environment) : Prop where
  resolveClassOrModule : ∀ name scope,
    env.resolveClassOrModule name scope = other.resolveClassOrModule name scope
  resolveClass : ∀ name scope, env.resolveClass name scope = other.resolveClass name scope
  resolveModule : ∀ name scope, env.resolveModule name scope = other.resolveModule name scope
  resolveConstant : ∀ name scope, env.resolveConstant name scope = other.resolveConstant name scope
  lookUpInterface : ∀ name scope, env.lookUpInterface name scope = other.lookUpInterface name scope
  lookUpAlias : ∀ name scope, env.lookUpAlias name scope = other.lookUpAlias name scope
  global? : ∀ symbol, env.global? symbol = other.global? symbol
  isClass : ∀ name, env.isClass name = other.isClass name
  isModule : ∀ name, env.isModule name = other.isModule name
  isConstant : ∀ name, env.isConstant name = other.isConstant name
  classes : env.classes = other.classes
  modules : env.modules = other.modules
  entries : ∀ family, (env.table family).entries = (other.table family).entries
  size : env.size = other.size

/-- All those queries read the tables alone. -/
theorem sameAnswers_of_table_eq (htable : ∀ family, env.table family = other.table family)
    (hsize : env.size = other.size) : SameAnswers env other := by
  have hclasses := htable .classOrModule
  have hconstants := htable .constant
  have hinterfaces := htable .interface
  have haliases := htable .typeAlias
  have hglobals := htable .global
  -- the listings of classes and of modules read the field, the queries read the table
  have hlisted : env.classesAndModules = other.classesAndModules := hclasses
  have hclassOrModule : ∀ name scope,
      env.resolveClassOrModule name scope = other.resolveClassOrModule name scope := by
    intro name scope
    rw [resolveClassOrModule, resolveClassOrModule, hclasses]
  constructor
  · exact hclassOrModule
  · intro name scope
    rw [resolveClass, resolveClass, hclassOrModule]
  · intro name scope
    rw [resolveModule, resolveModule, hclassOrModule]
  · intro name scope
    rw [resolveConstant, resolveConstant, hconstants]
  · intro name scope
    rw [lookUpInterface, lookUpInterface, hinterfaces]
  · intro name scope
    rw [lookUpAlias, lookUpAlias, haliases]
  · intro symbol
    rw [global?, global?, hglobals]
  · intro name
    rw [isClass, isClass, hclasses]
  · intro name
    rw [isModule, isModule, hclasses]
  · intro name
    rw [isConstant, isConstant, hconstants]
  · rw [classes, classes, hlisted]
  · rw [modules, modules, hlisted]
  · intro family
    rw [htable]
  · exact hsize

/-! ## Rows in another order -/

/-- A row in which nothing is claimed twice fills the tables the same in every order. -/
theorem table_submitAll_perm (h : first.Perm second)
    (distinct : (first.filterMap Declaration.claim?).Nodup) (family : Family) :
    (empty.submitAll first).table family = (empty.submitAll second).table family := by
  apply table_eq_of_holder?_eq
  intro claim
  rw [holder?_submitAll, holder?_submitAll, Claim.firstIn?_perm h distinct]

theorem size_submitAll_perm (h : first.Perm second)
    (distinct : (first.filterMap Declaration.claim?).Nodup) :
    (empty.submitAll first).size = (empty.submitAll second).size := by
  have hsecond := (h.filterMap Declaration.claim?).nodup_iff.1 distinct
  calc (empty.submitAll first).size
      = empty.size + first.length := size_submitAll_of_admits (admits_empty_iff.2 distinct)
    _ = empty.size + second.length := by rw [h.length_eq]
    _ = (empty.submitAll second).size :=
      (size_submitAll_of_admits (admits_empty_iff.2 hsecond)).symm

theorem isAccepted_perm (h : first.Perm second) :
    (∃ env, (ofDeclarations first).value = .ok env) ↔
      ∃ env, (ofDeclarations second).value = .ok env := by
  simp only [value_ofDeclarations_eq_ok_iff, exists_and_left, exists_eq, and_true]
  exact (h.filterMap Declaration.claim?).nodup_iff

/-- **The order of a batch is forgotten.** Of two batches with the same
declarations both are accepted or neither. The environments that they make answer
alike and list the same entries. The extensions of a target are the same in both,
in the same order exactly if the batches have those of this target in the same order. -/
theorem order_of_batch_is_forgotten (h : first.Perm second) :
    ((∃ env, (ofDeclarations first).value = .ok env) ↔
      ∃ env, (ofDeclarations second).value = .ok env) ∧
    ∀ env other, (ofDeclarations first).value = .ok env →
      (ofDeclarations second).value = .ok other →
        SameAnswers env other ∧
        ∀ target, (env.extensionsOf target).Perm (other.extensionsOf target) ∧
          (env.extensionsOf target = other.extensionsOf target ↔
            first.filterMap (·.extensionOf? target) =
              second.filterMap (·.extensionOf? target)) := by
  refine ⟨isAccepted_perm h, fun env other hfirst hsecond => ?_⟩
  obtain ⟨hdistinct, rfl⟩ := value_ofDeclarations_eq_ok_iff.1 hfirst
  obtain ⟨-, rfl⟩ := value_ofDeclarations_eq_ok_iff.1 hsecond
  constructor
  · apply sameAnswers_of_table_eq
    · exact table_submitAll_perm h hdistinct
    · exact size_submitAll_perm h hdistinct
  · intro target
    rw [extensionsOf_submitAll, extensionsOf_submitAll]
    exact ⟨h.filterMap _, Iff.rfl⟩

/-- A class with two extensions, and a constant of the same name. -/
def classFirst : List Declaration :=
  [.ofClass ⟨⟨.root, "A"⟩, [], none, [], ⟨0, 5⟩⟩, .extension ⟨⟨.root, "A"⟩, "x", [], [], ⟨6, 9⟩⟩,
    .extension ⟨⟨.empty, "A"⟩, "y", [], [], ⟨10, 15⟩⟩,
    .ofConstant ⟨⟨.root, "A"⟩, .base .any, ⟨16, 20⟩⟩]

/-- The same declarations with the class behind its extensions. -/
def classLast : List Declaration :=
  [.ofConstant ⟨⟨.root, "A"⟩, .base .any, ⟨16, 20⟩⟩, .extension ⟨⟨.root, "A"⟩, "x", [], [], ⟨6, 9⟩⟩,
    .extension ⟨⟨.empty, "A"⟩, "y", [], [], ⟨10, 15⟩⟩,
    .ofClass ⟨⟨.root, "A"⟩, [], none, [], ⟨0, 5⟩⟩]

theorem class_first_or_last :
    classFirst.Perm classLast ∧
      ∃ env other, (ofDeclarations classFirst).value = .ok env ∧
        (ofDeclarations classLast).value = .ok other ∧ env.classes = other.classes ∧
        env.extensionsOf ⟨.root, "A"⟩ = other.extensionsOf ⟨.root, "A"⟩ := by
  have hperm : classFirst.Perm classLast := by decide
  refine ⟨hperm, ?_⟩
  obtain ⟨haccepted, hsame⟩ := order_of_batch_is_forgotten hperm
  have hfirst : ∃ env, (ofDeclarations classFirst).value = .ok env :=
    ⟨_, value_ofDeclarations_eq_ok_iff.2 ⟨by decide, rfl⟩⟩
  obtain ⟨env, henv⟩ := hfirst
  obtain ⟨other, hother⟩ := haccepted.1 ⟨env, henv⟩
  obtain ⟨hanswers, hextensions⟩ := hsame env other henv hother
  exact ⟨env, other, henv, hother, hanswers.classes, (hextensions ⟨.root, "A"⟩).2.2 (by decide)⟩

end ScopedSignatures.Environment
