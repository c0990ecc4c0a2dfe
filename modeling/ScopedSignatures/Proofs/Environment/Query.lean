import ScopedSignatures.Environment.Resolve

/-!
# Queries

What an environment can be asked, as data, so that a statement can speak of all
queries at once: the finders, the predicates on exact keys, and the listings. An
answer shows every declaration whole, with its kind.

## Main definitions

* `Query`, `Answer` — what is asked and what is answered
* `Environment.ask` — the answer of an environment, with its notes
* `Query.fromRoot` — the same query with its scope read at the root

## Main results

* `Environment.value_ask_fromRoot` — the anchor of a scope is of no consequence
-/

namespace ScopedSignatures

/-- What an environment can be asked. -/
inductive Query where
  | resolveClassOrModule (name : ModuleName) (scope : Namespace)
  | resolveClass (name : ModuleName) (scope : Namespace)
  | resolveModule (name : ModuleName) (scope : Namespace)
  | resolveConstant (name : ModuleName) (scope : Namespace)
  | lookUpInterface (name : InterfaceName) (scope : Namespace)
  | lookUpAlias (name : AliasName) (scope : Namespace)
  | findGlobal (name : Symbol)
  | findExtensions (name : ModuleName)
  | isClass (name : ModuleName)
  | isModule (name : ModuleName)
  | isConstant (name : ModuleName)
  | listClasses
  | listModules
  /-- All entries of a family, classes and modules in one row. -/
  | listEntries (family : Family)
  deriving DecidableEq, Repr

/-- What an environment answers. -/
inductive Answer where
  | found (declaration : Option Declaration)
  | unknownAlias (miss : UnknownAlias)
  | listed (declarations : List Declaration)
  | truth (holds : Bool)
  deriving DecidableEq

namespace Environment

/-- The answer to a query, with what is noted on the way to it. -/
def ask (env : Environment) : Query → Journaled Answer
  | .resolveClassOrModule name scope =>
    (env.resolveClassOrModule name scope).map fun found =>
      .found (found.map (.keyed .classOrModule))
  | .resolveClass name scope =>
    (env.resolveClass name scope).map fun found => .found (found.map .ofClass)
  | .resolveModule name scope =>
    (env.resolveModule name scope).map fun found => .found (found.map .ofModule)
  | .resolveConstant name scope =>
    (env.resolveConstant name scope).map fun found => .found (found.map .ofConstant)
  | .lookUpInterface name scope =>
    (env.lookUpInterface name scope).map fun found => .found (found.map .ofInterface)
  | .lookUpAlias name scope =>
    (env.lookUpAlias name scope).map fun
      | .ok definition => .found (some (.ofTypeAlias definition))
      | .error miss => .unknownAlias miss
  | .findGlobal name => .silent (.found ((env.global? name).map .ofGlobal))
  | .findExtensions name => .silent (.listed ((env.extensionsOf name).map .extension))
  | .isClass name => .silent (.truth (env.isClass name))
  | .isModule name => .silent (.truth (env.isModule name))
  | .isConstant name => .silent (.truth (env.isConstant name))
  | .listClasses => .silent (.listed (env.classes.map .ofClass))
  | .listModules => .silent (.listed (env.modules.map .ofModule))
  | .listEntries family => .silent (.listed ((env.table family).entries.map (.keyed family)))

end Environment

/-! ## The anchor of a scope -/

/-- The same query with its scope, if it has one, read at the root. -/
def Query.fromRoot : Query → Query
  | resolveClassOrModule name scope => resolveClassOrModule name scope.anchored
  | resolveClass name scope => resolveClass name scope.anchored
  | resolveModule name scope => resolveModule name scope.anchored
  | resolveConstant name scope => resolveConstant name scope.anchored
  | lookUpInterface name scope => lookUpInterface name scope.anchored
  | lookUpAlias name scope => lookUpAlias name scope.anchored
  | query => query

namespace Search

variable {vocabulary : Vocabulary}

/-- The outward search anchors the scope itself. -/
theorem outwardKeys_anchored (name : QualifiedName vocabulary) (scope : Namespace) :
    outwardKeys name scope.anchored = outwardKeys name scope := rfl

/-- The direct search anchors the key that it has made. -/
theorem directKey_anchored (name : QualifiedName vocabulary) (scope : Namespace) :
    directKey name scope.anchored = directKey name scope := by
  rcases name with ⟨⟨segments, anchor⟩, last⟩
  cases anchor with
  | absolute => rfl
  | relative =>
    rw [directKey, directKey, Namespace.qualify_of_isRelative rfl,
      Namespace.qualify_of_isRelative rfl]
    rfl

end Search

namespace Environment

variable (env : Environment)

theorem value_resolveClassOrModule_anchored (name : ModuleName) (scope : Namespace) :
    (env.resolveClassOrModule name scope.anchored).value =
      (env.resolveClassOrModule name scope).value := by
  rw [value_resolveClassOrModule, Search.outwardKeys_anchored, value_resolveClassOrModule]

/-- What is answered does not depend on whether a scope is given as absolute or
relative. The notes do, since they show the scope as it was given. -/
theorem value_ask_fromRoot (query : Query) :
    (env.ask query.fromRoot).value = (env.ask query).value := by
  cases query with
  | resolveClassOrModule name scope =>
    simp only [Query.fromRoot, ask, Journaled.value_map, value_resolveClassOrModule_anchored]
  | resolveClass name scope =>
    simp only [Query.fromRoot, ask, Journaled.value_map, resolveClass,
      value_resolveClassOrModule_anchored]
  | resolveModule name scope =>
    simp only [Query.fromRoot, ask, Journaled.value_map, resolveModule,
      value_resolveClassOrModule_anchored]
  | resolveConstant name scope =>
    simp only [Query.fromRoot, ask, Journaled.value_map, value_resolveConstant,
      Search.outwardKeys_anchored]
  | lookUpInterface name scope =>
    simp only [Query.fromRoot, ask, Journaled.value_map, value_lookUpInterface,
      Search.directKey_anchored]
  | lookUpAlias name scope =>
    simp only [Query.fromRoot, ask, Journaled.value_map, value_lookUpAlias,
      Search.directKey_anchored]
  | findGlobal | findExtensions | isClass | isModule | isConstant | listClasses | listModules
  | listEntries => rfl

end Environment

end ScopedSignatures
