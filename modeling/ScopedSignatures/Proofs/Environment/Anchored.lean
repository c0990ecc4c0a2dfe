import ScopedSignatures.Proofs.Environment.Query
import ScopedSignatures.Proofs.Environment.Submission
import ScopedSignatures.Proofs.Table.Anchored

/-!
# The anchor of a declared name

An environment with every declared name read at the root. Keys are read at the
root in any case, so submitting declarations and anchoring an environment can be
done in either order, and a query meets the same entries at the same keys.

## Main definitions

* `Environment.anchored`, `Answer.anchored` — with every declared name read at the root

## Main results

* `Environment.submit_anchored`, `Environment.verdict_anchored` — one anchored submission
* `Environment.submitAll_anchored`, `Environment.verdicts_anchored` — a row of them
* `Environment.ask_anchored` — what an anchored environment answers
* `Environment.anchors_are_invisible` — declarations, and scopes, under either spelling
-/

namespace ScopedSignatures

namespace Answer

/-- The answer with all declarations in it anchored. -/
def anchored : Answer → Answer
  | found declaration => found (declaration.map Declaration.anchored)
  | unknownAlias miss => unknownAlias miss
  | listed declarations => listed (declarations.map Declaration.anchored)
  | truth holds => truth holds

variable {δ : Type} (declare : δ → Declaration) {anchor : δ → δ}

/-- Anchoring what was found anchors the answer. -/
theorem found_map_anchor (h : ∀ value, declare (anchor value) = (declare value).anchored)
    (result : Journaled (Option δ)) :
    (result.map (Option.map anchor)).map (fun value => found (value.map declare)) =
      (result.map fun value => found (value.map declare)).map anchored := by
  simp only [Journaled.map, anchored, Option.map_map]
  congr 3
  funext value
  exact h value

/-- Anchoring what is listed anchors the answer. -/
theorem listed_map_anchor (h : ∀ value, declare (anchor value) = (declare value).anchored)
    (values : List δ) :
    listed ((values.map anchor).map declare) = (listed (values.map declare)).anchored := by
  rw [anchored, List.map_map, List.map_map]
  congr 2
  funext value
  exact h value

end Answer

namespace Environment

/-- The environment with all declared names read at the root. -/
def anchored (env : Environment) : Environment where
  classesAndModules := env.classesAndModules.anchored
  interfaces := env.interfaces.anchored
  constants := env.constants.anchored
  globals := env.globals.anchored
  typeAliases := env.typeAliases.anchored
  extensions := env.extensions.anchored

@[simp] theorem anchored_empty : empty.anchored = empty := by
  simp only [anchored, empty, Table.anchored_empty, ExtensionIndex.anchored_empty]

@[simp] theorem table_anchored (env : Environment) (family : Family) :
    env.anchored.table family = (env.table family).anchored := by
  cases family <;> rfl

theorem withTable_anchored (env : Environment) (family : Family) (table : Table family) :
    env.anchored.withTable family table.anchored = (env.withTable family table).anchored := by
  cases family <;> rfl

theorem holder?_anchored (env : Environment) (claim : Claim) :
    env.anchored.holder? claim = (env.holder? claim).map Declaration.anchored := by
  rw [holder?, holder?, table_anchored, Table.find?_anchored, Option.map_map, Option.map_map]
  rfl

/-- The anchored environment has as many declarations. -/
@[simp] theorem size_anchored (env : Environment) : env.anchored.size = env.size := by
  simp only [size, anchored, Table.size_anchored, ExtensionIndex.anchored]

/-! ## Submissions -/

/-- An anchored declaration meets the same report. -/
theorem verdict_anchored (env : Environment) (declaration : Declaration) :
    env.anchored.verdict declaration.anchored = env.verdict declaration := by
  rw [verdict_eq, verdict_eq, Declaration.claim?_anchored]
  congr 1
  funext claim
  rw [holder?_anchored, Option.map_map]
  congr 1
  funext holder
  exact claim.conflict_anchored holder declaration

/-- Submitting an anchored declaration is anchoring what is submitted. -/
theorem submit_anchored (env : Environment) (declaration : Declaration) :
    env.anchored.submit declaration.anchored = (env.submit declaration).anchored := by
  cases declaration with
  | keyed family entry =>
    rw [Declaration.anchored_keyed, submit_keyed, submit_keyed, Family.key_anchored, table_anchored,
      Table.find?_anchored, Table.file_anchored, withTable_anchored]
    simp only [Option.map_eq_none_iff]
    split <;> rfl
  | extension added =>
    rw [Declaration.anchored_extension, submit_extension, submit_extension]
    ext1
    · rfl
    · rfl
    · rfl
    · rfl
    · rfl
    · exact ExtensionIndex.add_anchored env.extensions added

theorem submitAll_anchored (env : Environment) (declarations : List Declaration) :
    env.anchored.submitAll (declarations.map Declaration.anchored) =
      (env.submitAll declarations).anchored := by
  induction declarations generalizing env with
  | nil => rfl
  | cons declaration later ih =>
    rw [List.map_cons, submitAll_cons, submit_anchored, ih, submitAll_cons]

theorem verdicts_anchored (env : Environment) (declarations : List Declaration) :
    env.anchored.verdicts (declarations.map Declaration.anchored) = env.verdicts declarations := by
  induction declarations generalizing env with
  | nil => rfl
  | cons declaration later ih =>
    rw [List.map_cons, verdicts, verdict_anchored, submit_anchored, ih, verdicts]

/-! ## Queries -/

section Queries

variable (env : Environment)

theorem resolveClassOrModule_anchored (name : ModuleName) (scope : Namespace) :
    env.anchored.resolveClassOrModule name scope =
      (env.resolveClassOrModule name scope).map (Option.map ClassOrModule.anchored) := by
  rw [resolveClassOrModule, table_anchored, Search.outward, funext (Table.find?_anchored _),
    Search.tryInOrder_map]
  rfl

theorem resolveConstant_anchored (name : ModuleName) (scope : Namespace) :
    env.anchored.resolveConstant name scope =
      (env.resolveConstant name scope).map (Option.map (Family.anchored .constant)) := by
  rw [resolveConstant, table_anchored, Search.outward, funext (Table.find?_anchored _),
    Search.tryInOrder_map]
  rfl

theorem lookUpInterface_anchored (name : InterfaceName) (scope : Namespace) :
    env.anchored.lookUpInterface name scope =
      (env.lookUpInterface name scope).map (Option.map (Family.anchored .interface)) := by
  rw [lookUpInterface, table_anchored, Search.direct, funext (Table.find?_anchored _),
    Search.tryInOrder_map]
  rfl

theorem lookUpAlias_anchored (name : AliasName) (scope : Namespace) :
    env.anchored.lookUpAlias name scope =
      (env.lookUpAlias name scope).map (Except.map (Family.anchored .typeAlias)) := by
  rw [lookUpAlias, table_anchored, Search.direct, funext (Table.find?_anchored _),
    Search.tryInOrder_map, lookUpAlias, Search.direct, Search.Trail.map]
  cases (Search.tryInOrder (env.table .typeAlias).find? [Search.directKey name scope]).found <;> rfl

theorem isConstant_anchored (name : ModuleName) :
    env.anchored.isConstant name = env.isConstant name := by
  rw [isConstant, isConstant, table_anchored, Table.find?_anchored, Option.isSome_map]

/-! ### Classes alone, or modules alone -/

section OfOneKind

-- the entries of one kind, which stay of that kind when they are anchored
variable {δ : Type} {select : ClassOrModule → Option δ} {anchor : δ → δ}
  (h : ∀ entry, select entry.anchored = (select entry).map anchor)

include h

theorem map_resolveClassOrModule_anchored (name : ModuleName) (scope : Namespace) :
    (env.anchored.resolveClassOrModule name scope).map (·.bind select) =
      ((env.resolveClassOrModule name scope).map (·.bind select)).map (Option.map anchor) := by
  rw [resolveClassOrModule_anchored]
  simp only [Journaled.map, Option.bind_map, Option.map_bind]
  congr 2
  ext1 entry
  exact h entry

theorem any_find?_anchored (key : ModuleName) :
    ((env.anchored.table .classOrModule).find? key).any (fun entry => (select entry).isSome) =
      ((env.table .classOrModule).find? key).any fun entry => (select entry).isSome := by
  rw [table_anchored, Table.find?_anchored, Option.any_map]
  congr 1
  ext1 entry
  show (select entry.anchored).isSome = (select entry).isSome
  rw [h, Option.isSome_map]

theorem filterMap_entries_anchored :
    env.anchored.classesAndModules.entries.filterMap select =
      (env.classesAndModules.entries.filterMap select).map anchor := by
  rw [anchored, Table.entries_anchored, List.filterMap_map, List.map_filterMap]
  congr 1
  ext1 entry
  exact h entry

end OfOneKind

/-! ### All queries -/

/-- An anchored environment answers every query with the anchored form of what the
environment itself answers, and notes the same. -/
theorem ask_anchored (query : Query) :
    env.anchored.ask query = (env.ask query).map Answer.anchored := by
  cases query with
  | resolveClassOrModule name scope =>
    rw [ask, resolveClassOrModule_anchored]
    exact Answer.found_map_anchor (.keyed .classOrModule) (fun _ => rfl) _
  | resolveClass name scope =>
    rw [ask, resolveClass, map_resolveClassOrModule_anchored env ClassOrModule.asClass?_anchored]
    exact Answer.found_map_anchor .ofClass (fun _ => rfl) _
  | resolveModule name scope =>
    rw [ask, resolveModule, map_resolveClassOrModule_anchored env ClassOrModule.asModule?_anchored]
    exact Answer.found_map_anchor .ofModule (fun _ => rfl) _
  | resolveConstant name scope =>
    rw [ask, resolveConstant_anchored]
    exact Answer.found_map_anchor .ofConstant (fun _ => rfl) _
  | lookUpInterface name scope =>
    rw [ask, lookUpInterface_anchored]
    exact Answer.found_map_anchor .ofInterface (fun _ => rfl) _
  | lookUpAlias name scope =>
    rw [ask, lookUpAlias_anchored, ask]
    simp only [Journaled.map]
    cases (env.lookUpAlias name scope).value <;> rfl
  | findGlobal name =>
    rw [ask, global?, table_anchored, Table.find?_anchored]
    exact Answer.found_map_anchor .ofGlobal (fun _ => rfl) (.silent (env.global? name))
  | findExtensions name =>
    rw [ask, extensionsOf, anchored, ExtensionIndex.find_anchored]
    exact congrArg Journaled.silent (Answer.listed_map_anchor .extension (fun _ => rfl) _)
  | isClass name =>
    rw [ask, isClass, any_find?_anchored env ClassOrModule.asClass?_anchored]
    rfl
  | isModule name =>
    rw [ask, isModule, any_find?_anchored env ClassOrModule.asModule?_anchored]
    rfl
  | isConstant name =>
    rw [ask, isConstant_anchored]
    rfl
  | listClasses =>
    rw [ask, classes, filterMap_entries_anchored env ClassOrModule.asClass?_anchored]
    exact congrArg Journaled.silent (Answer.listed_map_anchor .ofClass (fun _ => rfl) _)
  | listModules =>
    rw [ask, modules, filterMap_entries_anchored env ClassOrModule.asModule?_anchored]
    exact congrArg Journaled.silent (Answer.listed_map_anchor .ofModule (fun _ => rfl) _)
  | listEntries family =>
    rw [ask, table_anchored, Table.entries_anchored]
    exact congrArg Journaled.silent (Answer.listed_map_anchor (.keyed family) (fun _ => rfl) _)

end Queries

/-! ## Either spelling -/

/-- **Anchors are invisible.** Declarations submitted under their names read at the
root meet the reports that they meet as they are spelled. Afterwards every query
has the same answer up to the spelling of the declared names, and notes the same
keys, and there are as many declarations. In any environment the answer is the same
for a scope read at the root. -/
theorem anchors_are_invisible (declarations : List Declaration) :
    empty.verdicts (declarations.map Declaration.anchored) = empty.verdicts declarations ∧
    (∀ query, (empty.submitAll (declarations.map Declaration.anchored)).ask query =
      ((empty.submitAll declarations).ask query).map Answer.anchored) ∧
    (empty.submitAll (declarations.map Declaration.anchored)).size =
      (empty.submitAll declarations).size ∧
    ∀ (env : Environment) (query : Query),
      (env.ask query.fromRoot).value = (env.ask query).value := by
  have hverdicts := verdicts_anchored empty declarations
  have hsubmitted := submitAll_anchored empty declarations
  rw [anchored_empty] at hverdicts hsubmitted
  refine ⟨hverdicts, fun query => ?_, ?_, fun env query => env.value_ask_fromRoot query⟩
  · rw [hsubmitted]
    exact ask_anchored (empty.submitAll declarations) query
  · rw [hsubmitted, size_anchored]

end Environment

end ScopedSignatures
